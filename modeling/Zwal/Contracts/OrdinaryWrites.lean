import Zwal.Contracts.FailedFlush
import Zwal.File.DirectWrites

/-! # Writes to ordinary files

Whatever slices the data comes in and wherever zones end: after a sync the extents of a
file that is no write-ahead log hold what was appended, in buffered and in direct mode. -/

namespace Zwal.OrdinaryWrites

open FileState ZonedBlockDevice WritableFile FileSystem FailedFlush

section Steps

variable {memory : Nat → UInt8} {stream : Bytes}

inductive Took (memory : Nat → UInt8) (stream : Bytes) (writer : WritableFile) : Prop
  | buffered : Holds memory stream writer → Steady writer → Aligned writer.state →
      Supplied writer.state → Took memory stream writer
  | direct : writer.buffered = false → Sound writer → Streaming memory stream writer.state →
      Took memory stream writer

def Settled (memory : Nat → UInt8) (stream : Bytes) (writer : WritableFile) : Prop :=
  Took memory stream writer ∧ content memory writer.state = stream

variable {config : BuildConfig} {fuel more : Nat} {writer next : WritableFile}

theorem Took.sound (took : Took memory stream writer) : Sound writer := by
  cases took with
  | buffered holds => exact holds.sound
  | direct _ sound => exact sound

theorem run_wrote (config : BuildConfig) (fuel : Nat) (call : WriterCall) (sound : Sound writer) :
    Wrote writer (fun _ _ => True) (call.run config fuel writer) := by
  cases call with
  | append data => exact append_wrote config fuel data sound
  | sync => exact dataSync_wrote config fuel sound
  | fsync => exact fsync_wrote config fuel sound
  | rangeSync offset nbytes => exact rangeSync_wrote config fuel sound offset nbytes

def Given (writer : WritableFile) (call : WriterCall) : Prop :=
  call.data.length < 2 ^ 31 ∧
    (writer.buffered = false → writer.state.zbd.blockSize ∣ call.data.length)

theorem dataSync_settled (took : Took memory stream writer)
    (run : dataSync config fuel writer = (.ok (), next)) : Settled memory stream next := by
  cases took with
  | buffered holds steady aligned supplied =>
      have synced := dataSync_holds config fuel holds steady
      rw [run] at synced
      rcases synced with ⟨held, still, empty, onward⟩
      have whole := held.whole still
      rw [empty, List.take_zero, List.append_nil] at whole
      exact ⟨.buffered held still (onward.aligned aligned) (onward.supplied supplied), whole⟩
  | direct mode sound streaming =>
      have plain : ¬ writer.state.file.isWal = true := by
        rw [streaming.plain.isWal]
        exact Bool.false_ne_true
      have moved := dataSync_wrote config fuel sound
      rw [run] at moved
      rw [dataSync, bind_read, if_neg plain, mode] at run
      have pushes := streaming.push
      cases run
      exact ⟨.direct mode (moved.1.sound sound) pushes.streaming, pushes.content⟩

theorem fsync_settled (took : Took memory stream writer)
    (run : WritableFile.fsync config fuel writer = (.ok (), next)) : Settled memory stream next := by
  rcases bind_eq_ok run with ⟨_, middle, synced, rest⟩
  have settled := dataSync_settled took synced
  rw [bind_read] at rest
  cases settled.1 with
  | buffered holds steady aligned supplied =>
      rw [holds.buffered, holds.plain.isSparse] at rest
      cases rest
      exact settled
  | direct mode sound streaming =>
      have saved := persistMetadata_saved middle.state
      have unfolded : onFile persistMetadata middle = ((persistMetadata middle.state).1,
          { middle with state := (persistMetadata middle.state).2 }) := rfl
      rw [mode, Bool.false_and, if_neg Bool.false_ne_true, unfolded] at rest
      have last : next = { middle with state := (persistMetadata middle.state).2 } :=
        (congrArg Prod.snd rest).symm
      have moved := fsync_wrote config fuel took.sound
      rw [run] at moved
      subst last
      exact ⟨.direct mode (moved.1.sound took.sound) (streaming.saved saved),
        (saved.keeps.content memory).trans settled.2⟩

theorem run_took {call : WriterCall} (took : Took memory stream writer) (given : Given writer call)
    (run : call.run config fuel writer = (.ok (), next)) : Took memory (stream ++ call.data) next := by
  have moved := run_wrote config fuel call took.sound
  rw [run] at moved
  cases call with
  | append data =>
      have small : data.length < 2 ^ 32 := Nat.lt_trans given.1 (by decide)
      cases took with
      | buffered holds steady aligned supplied =>
          have appended := append_holds config fuel holds steady small
          rw [WriterCall.run] at run
          rw [run] at appended
          rcases appended with ⟨held, still, onward⟩
          exact .buffered held still (onward.aligned aligned) (onward.supplied supplied)
      | direct mode sound streaming =>
          rw [WriterCall.run, append, bind_read, mode, if_neg Bool.false_ne_true] at run
          rcases bind_eq_ok run with ⟨_, middle, appended, update⟩
          rcases direct : directAppend fuel data writer.state with ⟨failure | _, state⟩
          · rw [onFile, Program.within, direct] at appended
            cases appended
          · rw [onFile, Program.within, direct] at appended
            cases appended
            cases update
            exact .direct mode (moved.1.sound sound)
              (directAppend_streams fuel streaming small (given.2 mode) direct)
  | sync =>
      rw [WriterCall.data, List.append_nil]
      exact (dataSync_settled took run).1
  | fsync =>
      rw [WriterCall.data, List.append_nil]
      exact (fsync_settled took run).1
  | rangeSync offset nbytes =>
      rw [WriterCall.data, List.append_nil]
      rw [WriterCall.run, rangeSync, bind_read] at run
      by_cases behind : writer.wp < (offset + nbytes) % 2 ^ 64
      · rw [if_pos behind] at run
        exact (dataSync_settled took run).1
      · rw [if_neg behind] at run
        cases run
        exact took

theorem run_fuel {call : WriterCall} (took : Took memory stream writer) (given : Given writer call)
    (enough : 2 ^ 31 ≤ fuel) (also : 2 ^ 31 ≤ more) :
    call.run config fuel writer = call.run config more writer := by
  have synced : dataSync config fuel writer = dataSync config more writer := by
    cases took with
    | buffered holds steady aligned supplied =>
        exact dataSync_fuel config holds steady supplied (by omega) (by omega)
    | direct mode sound streaming =>
        rw [dataSync, dataSync, bind_read, bind_read, mode]
        rfl
  cases call with
  | append data =>
      have small : data.length < 2 ^ 31 := given.1
      rw [WriterCall.run, WriterCall.run, append, append, bind_read, bind_read]
      cases took with
      | buffered holds steady aligned supplied =>
          rw [if_pos holds.buffered, if_pos holds.buffered]
          exact bufferedWriteLoop_fuel config _ _ holds steady supplied (by omega) (by omega)
      | direct mode sound streaming =>
          have same := @directAppend_fuel memory stream writer.state fuel more data streaming (by omega)
            (given.2 mode) (by omega) (by omega)
          have direct : onFile (directAppend fuel data) writer = onFile (directAppend more data) writer := by
            simp only [onFile, Program.within, same]
          rw [mode, if_neg Bool.false_ne_true, if_neg Bool.false_ne_true]
          exact bind_of_eq direct _
  | sync => exact synced
  | fsync => exact bind_of_eq synced _
  | rangeSync offset nbytes =>
      rw [WriterCall.run, WriterCall.run, rangeSync, rangeSync, bind_read, bind_read]
      split
      · exact synced
      · rfl

theorem Given.onward {call later : WriterCall} (given : Given writer later) (sound : Sound writer)
    (run : call.run config fuel writer = (.ok (), next)) : Given next later := by
  have moved := run_wrote config fuel call sound
  rw [run] at moved
  rw [Given, moved.1.buffered, moved.1.steps.constant.device.blockSize]
  exact given

theorem runCalls_took {calls : List WriterCall} (took : Took memory stream writer)
    (given : ∀ call ∈ calls, Given writer call)
    (run : runCalls config fuel calls writer = (.ok (), next)) :
    Took memory (stream ++ calls.flatMap WriterCall.data) next := by
  induction calls generalizing stream writer with
  | nil =>
      cases run
      rwa [List.flatMap_nil, List.append_nil]
  | cons call calls induction =>
      rcases bind_eq_ok run with ⟨_, middle, first, rest⟩
      have step := run_took took (given call List.mem_cons_self) first
      rw [List.flatMap_cons, ← List.append_assoc]
      refine induction step (fun later member => ?_) rest
      exact (given later (List.mem_cons_of_mem _ member)).onward took.sound first

theorem runCalls_fuel {calls : List WriterCall} (took : Took memory stream writer)
    (given : ∀ call ∈ calls, Given writer call) (enough : 2 ^ 31 ≤ fuel) (also : 2 ^ 31 ≤ more) :
    runCalls config fuel calls writer = runCalls config more calls writer := by
  induction calls generalizing stream writer with
  | nil => rfl
  | cons call calls induction =>
      have here := given call List.mem_cons_self
      rw [runCalls, runCalls, bind_of_eq (run_fuel took here enough also)]
      rcases run : call.run config more writer with ⟨failure | _, middle⟩
      · rw [bind_of_error run, bind_of_error run]
      · rw [bind_of_ok run, bind_of_ok run]
        refine induction (run_took took here run) fun later member => ?_
        exact (given later (List.mem_cons_of_mem _ member)).onward took.sound run

theorem runCalls_fixed (calls : List WriterCall) (sound : Sound writer)
    (run : runCalls config fuel calls writer = (.ok (), next)) :
    Fixed writer.state.zbd next.state.zbd := by
  induction calls generalizing writer with
  | nil =>
      cases run
      exact .refl _
  | cons call calls induction =>
      rcases bind_eq_ok run with ⟨_, middle, first, rest⟩
      have moved := run_wrote config fuel call sound
      rw [first] at moved
      exact moved.1.steps.constant.device.trans (induction (moved.1.sound sound) rest)

theorem runCalls_snoc (config : BuildConfig) (fuel : Nat) (calls : List WriterCall) (last : WriterCall) :
    runCalls config fuel (calls ++ [last]) =
      (runCalls config fuel calls >>= fun _ => last.run config fuel) := by
  induction calls with
  | nil =>
      funext writer
      rw [List.nil_append, runCalls]
      rcases run : last.run config fuel writer with ⟨failure | _, next⟩
      · exact (bind_of_error run).trans run.symm
      · exact (bind_of_ok run).trans run.symm
  | cons call calls induction =>
      rw [List.cons_append, runCalls, runCalls, induction, Program.bind_assoc]

end Steps

/-- A file that is opened for writes: it is no write-ahead log, its extents start at blocks
of the device, and there is space in the empty zones. -/
structure Writeable (memory : Nat → UInt8) (zbd : ZonedBlockDevice) (file : ZoneFile) : Prop
    extends Openable memory zbd file where
  plain : Plain file
  idle : file.activeZone = none
  blocked : Blocked zbd
  writable : Writable zbd
  aligned : ∀ extent ∈ file.extents, zbd.blockSize ∣ extent.start

theorem create_took (config : BuildConfig) {memory : Nat → UInt8} {zbd : ZonedBlockDevice}
    {file : ZoneFile} (writeable : Writeable memory zbd file) (buffered : Bool) :
    Took memory (content memory ⟨zbd, file, []⟩) (create config zbd file buffered) := by
  have never {number : Nat} (held : file.activeZone = some number) : False := by
    rw [writeable.idle] at held
    cases held
  cases buffered with
  | true =>
      refine .buffered (create_holds writeable.toOpenable writeable.plain)
        ⟨rfl, fun number held => (never held).elim, writeable.blocked⟩ writeable.aligned
        ⟨writeable.writable, fun number held => (never held).elim⟩
  | false =>
      refine .direct rfl (create_sound config file false writeable.blocks)
        ⟨writeable.plain, ⟨writeable.laid.spaced, writeable.laid.inside, writeable.laid.held⟩,
          writeable.blocked, writeable.writable, writeable.aligned, writeable.size, fun _ => rfl,
          fun number held => (never held).elim⟩

theorem Settled.file {memory : Nat → UInt8} {stream : Bytes} {writer : WritableFile}
    (settled : Settled memory stream writer) :
    writer.state.file.fileSize = stream.length ∧ Laid writer.state ∧ Aligned writer.state := by
  rcases settled with ⟨took, whole⟩
  cases took with
  | buffered holds steady aligned supplied =>
      exact ⟨by rw [holds.size, whole], holds.laid, aligned⟩
  | direct mode sound streaming => exact ⟨streaming.size, streaming.laid, streaming.aligned⟩

/-- Calls on a handle of an ordinary file, the last of them a sync. No call needs more fuel
than the size of its slice bounds. When all of them return, the file has what was appended:
its size counts it, its extents hold it, and each starts at a block and lies in a zone. -/
theorem synced_extents (config : BuildConfig) (memory : Nat → UInt8) {zbd : ZonedBlockDevice}
    {file : ZoneFile} (writeable : Writeable memory zbd file) (buffered : Bool)
    (calls : List WriterCall) (given : ∀ call ∈ calls, call.data.length < 2 ^ 31 ∧
      (buffered = false → zbd.blockSize ∣ call.data.length))
    (last : WriterCall) (syncs : last = .sync ∨ last = .fsync) :
    (∀ fuel more, 2 ^ 31 ≤ fuel → 2 ^ 31 ≤ more →
      runCalls config fuel (calls ++ [last]) (create config zbd file buffered) =
        runCalls config more (calls ++ [last]) (create config zbd file buffered)) ∧
    ∀ fuel final,
      runCalls config fuel (calls ++ [last]) (create config zbd file buffered) = (.ok (), final) →
      final.state.file.fileSize = file.fileSize + (calls.flatMap WriterCall.data).length ∧
      content memory final.state =
        content memory ⟨zbd, file, []⟩ ++ calls.flatMap WriterCall.data ∧
      spanOf final.state.file.extents = final.state.file.fileSize ∧
      ∀ extent ∈ final.state.file.extents, zbd.blockSize ∣ extent.start ∧
        extent.zone ∈ zbd.ioZones ∧ (zbd.zone extent.zone).start ≤ extent.start ∧
        extent.start + extent.length ≤ (zbd.zone extent.zone).start + zbd.zoneSize := by
  have took := create_took config writeable buffered
  have none : last.data = [] := by
    rcases syncs with rfl | rfl
    · rfl
    · rfl
  have all : ∀ call ∈ calls ++ [last], Given (create config zbd file buffered) call := by
    intro call member
    rcases List.mem_append.mp member with early | late
    · exact given call early
    · rw [List.mem_singleton.mp late, Given, none]
      exact ⟨by decide, fun _ => Nat.dvd_zero _⟩
  refine ⟨fun fuel more enough also => runCalls_fuel took all enough also, fun fuel final run => ?_⟩
  have fixed : Fixed zbd final.state.zbd := runCalls_fixed (calls ++ [last]) took.sound run
  rw [runCalls_snoc] at run
  rcases bind_eq_ok run with ⟨_, middle, early, late⟩
  have writes := runCalls_took took (fun call member => all call (List.mem_append_left _ member)) early
  have settled : Settled memory (content memory ⟨zbd, file, []⟩ ++ calls.flatMap WriterCall.data) final := by
    rcases syncs with rfl | rfl
    · exact dataSync_settled writes late
    · exact fsync_settled writes late
  rcases settled.file with ⟨size, laid, aligned⟩
  refine ⟨?_, settled.2, ?_, fun extent listed => ?_⟩
  · rw [size, List.length_append, writeable.size]
  · rw [size, ← settled.2, content, length_contentOf]
  · have block := aligned extent listed
    have inside := laid.inside extent listed
    have room := laid.spaced.room extent.zone inside.member
    have low := inside.low
    have high := inside.high
    have member := inside.member
    rw [fixed.blockSize] at block
    rw [fixed.ioZones] at member
    rw [fixed.start, fixed.zoneSize] at room
    rw [fixed.start] at low
    exact ⟨block, member, low, by omega⟩

/-- Seven bytes in zones of four. -/
theorem synced_extents_two_zones :
    ∃ final, runCalls smallConfig 4 ([.append [1, 2], .append [3, 4, 5, 6, 7]] ++ [.sync])
        (create smallConfig (emptyDevice [19, 20, 21] 4 4 4 []) {} true) = (.ok (), final) ∧
      content (fun _ => 0) final.state = [1, 2, 3, 4, 5, 6, 7] := by
  have openable : Openable (fun _ => 0) (emptyDevice [19, 20, 21] 4 4 4 []) {} :=
    emptyDevice_openable _ (by decide) (by decide) (by decide) []
  have writeable : Writeable (fun _ => 0) (emptyDevice [19, 20, 21] 4 4 4 []) {} :=
    ⟨openable, ⟨rfl, rfl⟩, rfl, by decide +kernel, fun _ _ _ => (by decide : 0 < 4),
      fun _ listed => by cases listed⟩
  have synced := (synced_extents smallConfig (fun _ => 0) writeable true
    [.append [1, 2], .append [3, 4, 5, 6, 7]] (by decide +kernel) .sync (.inl rfl)).2 4
  have returns : (runCalls smallConfig 4 ([.append [1, 2], .append [3, 4, 5, 6, 7]] ++ [.sync])
      (create smallConfig (emptyDevice [19, 20, 21] 4 4 4 []) {} true)).1 = .ok () := by
    decide +kernel
  generalize runCalls smallConfig 4 ([.append [1, 2], .append [3, 4, 5, 6, 7]] ++ [.sync])
    (create smallConfig (emptyDevice [19, 20, 21] 4 4 4 []) {} true) = run at synced returns
  rcases run with ⟨outcome, final⟩
  have ended : (outcome, final) = ((.ok (), final) : Except IOStatus Unit × WritableFile) :=
    Prod.ext returns rfl
  exact ⟨final, ended, (synced final ended).2.1⟩

end Zwal.OrdinaryWrites
