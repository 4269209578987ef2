import Zwal.File.DirectWrites
import Zwal.File.OrdinaryWriter
import Zwal.Fs.Runs

/-! # Truncation of a direct writer

`Truncate` sets `file_size_` without a look at the extents or at `extent_filepos_`, from
which `PushExtent` takes the length of the next extent. -/

namespace Zwal.Truncation

open FileState ZonedBlockDevice

/-! ## Calls -/

inductive Call
  | append (data : Bytes)
  | truncate (size : Nat)
  | sync
  | fsync
  | close
  deriving DecidableEq, Repr

def Call.run (config : BuildConfig) (fuel : Nat) : Call → WritableProgram Unit
  | .append data => WritableFile.append config fuel data
  | .truncate size => WritableFile.truncate size
  | .sync => WritableFile.sync config fuel
  | .fsync => WritableFile.fsync config fuel
  | .close => WritableFile.close config fuel

def Call.syncs : Call → Bool
  | .append _ | .truncate _ => false
  | .sync | .fsync | .close => true

/-- The states in which the loop of `Append` calls `PushExtent`. -/
def loopPushes : (fuel : Nat) → (data : Bytes) → FileState → List FileState
  | _, [], _ => []
  | 0, _ :: _, _ => []
  | fuel + 1, byte :: rest, state =>
      (if state.active.capacity = 0 then [state] else []) ++
        match writePass (byte :: rest) state with
        | (.ok wrSize, next) => loopPushes fuel ((byte :: rest).drop wrSize) next
        | (.error _, _) => []

/-- The states in which a call on a direct writer calls `PushExtent`. -/
def Call.pushes (fuel : Nat) : Call → WritableFile → List FileState
  | .append data, writer =>
      match ensureActiveZone writer.state with
      | (.ok (), next) => loopPushes fuel (data.take (data.length % 2 ^ 32)) next
      | (.error _, _) => []
  | .truncate _, _ => []
  | .sync, writer | .fsync, writer => [writer.state]
  | .close, writer => if writer.isOpen then [writer.state] else []

def extentSum (state : FileState) : Nat := (state.file.extents.map ZoneExtent.length).sum

/-- The length `PushExtent` computes does not wrap, and the extent lies between the start of
the unpushed data and the write pointer of the zone. -/
def PushesWithin (state : FileState) : Prop :=
  ∀ number, state.file.activeZone = some number →
    state.file.extentFilepos ≤ state.file.fileSize ∧
    state.file.extentStart + state.file.unpushed ≤ (state.zbd.zone number).wp

/-- Truncation is to at most the current size, and nothing is called on a closed handle but
`Close`. -/
def Call.Possible (writer : WritableFile) : Call → Prop
  | .truncate size => writer.isOpen = true ∧ size ≤ writer.state.file.fileSize
  | .append _ | .sync | .fsync => writer.isOpen = true
  | .close => True

/-- A truncation that changes the size cuts off data that is in no extent yet. -/
def Call.Trims (writer : WritableFile) : Call → Prop
  | .truncate size => size = writer.state.file.fileSize ∨
      (writer.state.file.activeZone.isSome ∧ writer.state.file.extentFilepos ≤ size)
  | .append _ | .sync | .fsync | .close => True

/-- A direct writer before its first call: a file that has no zone, new or opened again. -/
structure Opened (writer : WritableFile) : Prop where
  direct : writer.buffered = false
  isWal : writer.state.file.isWal = false
  idle : writer.state.file.activeZone = none
  sum : extentSum writer.state = writer.state.file.fileSize

/-- The writers that possible calls reach, all of which return without an error and are
permitted. -/
inductive Reached (config : BuildConfig) (permitted : WritableFile → Call → Prop) : WritableFile → Prop
  | opened {writer : WritableFile} (opened : Opened writer) : Reached config permitted writer
  | call {writer after : WritableFile} (earlier : Reached config permitted writer) (call : Call)
      (fuel : Nat) (possible : call.Possible writer) (allowed : permitted writer call)
      (run : call.run config fuel writer = (.ok (), after)) : Reached config permitted after

/-! ## One push -/

/-- `file_size_` is the sum of the extents and of the unpushed data, which lies before the
write pointer. -/
structure InStep (state : FileState) : Prop where
  isWal : state.file.isWal = false
  closed : state.file.activeZone = none → extentSum state = state.file.fileSize
  filepos : state.file.activeZone.isSome → extentSum state = state.file.extentFilepos
  within : PushesWithin state

structure PushedInStep (before after : FileState) : Prop where
  inStep : InStep after
  sum : extentSum after = after.file.fileSize
  active : after.file.activeZone = before.file.activeZone
  capacity : ∀ number, (after.zbd.zone number).capacity = (before.zbd.zone number).capacity

variable {state : FileState}

theorem InStep.push (inStep : InStep state) : PushedInStep state (pushed state) := by
  cases held : state.file.activeZone with
  | none =>
      have same : pushed state = state := by
        simp only [pushed, pushExtent, Program.update, held]
      rw [same]
      exact ⟨inStep, inStep.closed held, rfl, fun _ => rfl⟩
  | some number =>
      have within := inStep.within number held
      have length := ZoneFile.unpushed_of_le within.1
      have filepos := inStep.filepos (by rw [held]; rfl)
      by_cases nothing : state.file.unpushed = 0
      · have same : pushed state = state := by
          simp only [pushed, pushExtent, Program.update, held, if_pos nothing]
        rw [same]
        exact ⟨inStep, by omega, rfl, fun _ => rfl⟩
      · have moved : pushed state = { state with
            zbd := state.zbd.setZone number { state.zbd.zone number with
              usedCapacity := (state.zbd.zone number).usedCapacity + .ofNat state.file.unpushed }
            file := { state.file with
              extents := state.file.extents ++ [⟨state.file.extentStart, state.file.unpushed, number⟩]
              extentStart := (state.zbd.zone number).wp
              extentFilepos := state.file.fileSize } } := by
          simp only [pushed, pushExtent, Program.update, held, if_neg nothing]
        have sum : extentSum (pushed state) = state.file.fileSize := by
          rw [moved]
          simp only [extentSum, List.map_append, List.sum_append, List.map_cons, List.map_nil,
            List.sum_singleton]
          rw [extentSum] at filepos
          omega
        rw [moved] at sum ⊢
        refine ⟨⟨inStep.isWal, ?_, fun _ => sum, ?_⟩, sum, rfl, ?_⟩
        · intro idle
          cases held.symm.trans idle
        · intro other active
          cases held.symm.trans active
          simp [ZoneFile.unpushed, setZone]
        · intro other
          by_cases here : other = number
          · rw [here, zone_setZone]
          · rw [zone_setZone_of_ne here]

/-! ## Appending -/

theorem InStep.allocated {next : FileState} (isWal : state.file.isWal = false)
    (sum : extentSum state = state.file.fileSize) (allocated : Allocated state (.ok ()) next) :
    InStep next ∧ next.file.activeZone.isSome := by
  have keeps := allocated.keeps
  have same : extentSum next = next.file.fileSize := by
    rw [extentSum, keeps.extents, keeps.fileSize]
    exact sum
  have found := allocated.returned rfl
  refine ⟨⟨keeps.isWal.trans isWal, fun _ => same, ?_, ?_⟩, found⟩
  · intro _
    rcases Option.isSome_iff_exists.mp found with ⟨number, active⟩
    rw [same, (allocated.zone number active).2.2.1]
  · intro number active
    rcases allocated.zone number active with ⟨_, start, filepos, _⟩
    rw [ZoneFile.unpushed, filepos, start]
    simp

theorem ensureActiveZone_inStep {next : FileState} (inStep : InStep state)
    (run : ensureActiveZone state = (.ok (), next)) : InStep next ∧ next.file.activeZone.isSome := by
  rcases ensureActiveZone_cases state with ⟨held, same⟩ | ⟨idle, same⟩
  all_goals rw [same] at run
  · cases run
    exact ⟨inStep, held⟩
  · have ended := allocateNewZone_allocated inStep.isWal idle
    rw [run] at ended
    rcases ended with never | allocated
    · cases never
    · exact InStep.allocated inStep.isWal (inStep.closed idle) allocated

theorem leaveForAppend_inStep {next : FileState} (inStep : InStep state)
    (held : state.file.activeZone.isSome) (run : leaveForAppend state = (.ok (), next)) :
    InStep next ∧ next.file.activeZone.isSome := by
  rw [leaveForAppend, bind_read] at run
  by_cases full : state.active.capacity = 0
  · rcases Option.isSome_iff_exists.mp held with ⟨number, active⟩
    have extended := inStep.push
    rw [if_pos full, bind_of_ok (show pushExtent state = (.ok (), pushed state) from rfl)] at run
    rw [(active_of_held active).2, ← extended.capacity] at full
    have isFull : ((pushed state).zbd.zone number).isFull = true := by
      rw [Zone.isFull, beq_iff_eq]
      exact full
    have still := extended.active.trans active
    rw [bind_of_ok (closeActiveZone_full extended.inStep.isWal still isFull)] at run
    have ended := @allocateNewZone_allocated (released number (pushed state)) extended.inStep.isWal rfl
    rw [run] at ended
    rcases ended with never | allocated
    · cases never
    · exact @InStep.allocated (released number (pushed state)) next extended.inStep.isWal
        extended.sum allocated
  · rw [if_neg full] at run
    cases run
    exact ⟨inStep, held⟩

theorem InStep.write (inStep : InStep state) {number : Nat}
    (held : state.file.activeZone = some number) (chunks : List Bytes) (replies : List Int) :
    InStep { wrote number chunks replies state with file := { state.file with
      fileSize := state.file.fileSize + chunks.flatten.length } } := by
  have within := inStep.within number held
  have before := ZoneFile.unpushed_of_le within.1
  refine ⟨inStep.isWal, ?_, fun _ => inStep.filepos (by rw [held]; rfl), ?_⟩
  · intro idle
    cases held.symm.trans idle
  · intro other active
    cases held.symm.trans active
    have order : state.file.extentFilepos ≤ state.file.fileSize + chunks.flatten.length := by omega
    refine ⟨order, ?_⟩
    have after := @ZoneFile.unpushed_of_le { state.file with
      fileSize := state.file.fileSize + chunks.flatten.length } order
    have wp : ((wrote number chunks replies state).zbd.zone number).wp =
        (state.zbd.zone number).wp + chunks.flatten.length := by
      have zone := zone_advanceAll state.zbd number chunks
      exact congrArg Zone.wp zone
    have room : state.file.extentStart + (state.file.fileSize + chunks.flatten.length -
        state.file.extentFilepos) ≤ ((wrote number chunks replies state).zbd.zone number).wp := by
      rw [wp]
      omega
    rw [← after] at room
    exact room

theorem writePass_inStep {data : Bytes} {wrSize : Nat} {next : FileState} (inStep : InStep state)
    (held : state.file.activeZone.isSome) (run : writePass data state = (.ok wrSize, next)) :
    InStep next ∧ next.file.activeZone.isSome := by
  rcases bind_eq_ok run with ⟨_, middle, left, rest⟩
  rcases leaveForAppend_inStep inStep held left with ⟨kept, still⟩
  rcases Option.isSome_iff_exists.mp still with ⟨number, active⟩
  have same := active_of_held active
  rw [bind_read, same.1] at rest
  generalize size : min data.length middle.active.capacity = wanted at rest
  have width : (data.take wanted).length = wanted := by
    rw [List.length_take]
    omega
  rcases appendZone_wrote number (data.take wanted) middle with
    ⟨chunks, replies, fits, ⟨failure, _, write⟩ | ⟨taken, write⟩⟩
  · rw [bind_of_error write] at rest
    cases rest
  · rw [bind_of_ok write, bind_setFile] at rest
    cases rest
    have written := kept.write active chunks replies
    rw [taken, width] at written
    exact ⟨written, Option.isSome_of_eq_some active⟩

theorem directAppendLoop_inStep (fuel : Nat) {data : Bytes} {next : FileState} (inStep : InStep state)
    (held : state.file.activeZone.isSome) (run : directAppendLoop fuel data state = (.ok (), next)) :
    InStep next ∧ ∀ start ∈ loopPushes fuel data state, PushesWithin start := by
  induction fuel generalizing data state with
  | zero =>
      cases data with
      | nil =>
          cases run
          exact ⟨inStep, by simp [loopPushes]⟩
      | cons => cases run
  | succ fuel induction =>
      cases data with
      | nil =>
          cases run
          exact ⟨inStep, by simp [loopPushes]⟩
      | cons byte rest =>
          rw [directAppendLoop_pass] at run
          rcases bind_eq_ok run with ⟨wrSize, middle, pass, onward⟩
          rcases writePass_inStep inStep held pass with ⟨kept, still⟩
          rcases induction kept still onward with ⟨last, later⟩
          refine ⟨last, ?_⟩
          intro start member
          rw [loopPushes, pass] at member
          rcases List.mem_append.mp member with here | there
          · split at here
            · rw [List.mem_singleton.mp here]
              exact inStep.within
            · cases here
          · exact later start there

/-! ## Whole runs -/

/-- A direct writer whose file is in step; a closed handle has given its zone back. -/
structure Kept (writer : WritableFile) : Prop where
  direct : writer.buffered = false
  inStep : InStep writer.state
  shut : writer.isOpen = false → writer.state.file.activeZone = none

/-- A call keeps a file in step; every push it makes is within bounds. -/
structure Behaves (fuel : Nat) (call : Call) (writer after : WritableFile) : Prop where
  kept : Kept after
  pushes : ∀ start ∈ call.pushes fuel writer, PushesWithin start
  sum : call.syncs = true → extentSum after.state = after.state.file.fileSize

variable {config : BuildConfig} {writer after : WritableFile}

theorem dataSync_direct (kept : Kept writer) (fuel : Nat) :
    WritableFile.dataSync config fuel writer =
      (.ok (), { writer with state := pushed writer.state }) := by
  have ordinary : ¬ writer.state.file.isWal = true := by simp [kept.inStep.isWal]
  have direct : ¬ writer.buffered = true := by simp [kept.direct]
  rw [WritableFile.dataSync, bind_read]
  simp only [if_neg ordinary, if_neg direct]
  rfl

theorem Saved.inStep {before after : FileState} (saved : Saved before after)
    (inStep : InStep before) : InStep after ∧ extentSum after = extentSum before := by
  have active : after.file.activeZone = before.file.activeZone := by rw [saved.file]
  have start : after.file.extentStart = before.file.extentStart := by rw [saved.file]
  have filepos : after.file.extentFilepos = before.file.extentFilepos := by rw [saved.file]
  have size : after.file.fileSize = before.file.fileSize := saved.keeps.fileSize
  have sum : extentSum after = extentSum before := by
    rw [extentSum, saved.keeps.extents]
    rfl
  refine ⟨⟨saved.keeps.isWal.trans inStep.isWal, ?_, ?_, ?_⟩, sum⟩
  · rw [active, sum, size]
    exact inStep.closed
  · rw [active, sum, filepos]
    exact inStep.filepos
  · intro number held
    rw [ZoneFile.unpushed, start, filepos, size, saved.zone]
    exact inStep.within number (active ▸ held)

theorem append_behaves (kept : Kept writer) (isOpen : writer.isOpen = true) (fuel : Nat) (data : Bytes)
    (run : WritableFile.append config fuel data writer = (.ok (), after)) :
    Behaves fuel (.append data) writer after := by
  rw [WritableFile.append, bind_read, kept.direct] at run
  rcases ran : directAppend fuel data writer.state with ⟨failure | _, next⟩
  · have ends : WritableFile.onFile (directAppend fuel data) writer =
        (.error failure, { writer with state := next }) := by
      simp only [WritableFile.onFile, Program.within, ran]
    simp only [Bool.false_eq_true, if_false] at run
    rw [bind_of_error ends] at run
    cases run
  · have ends : WritableFile.onFile (directAppend fuel data) writer =
        (.ok (), { writer with state := next }) := by
      simp only [WritableFile.onFile, Program.within, ran]
    simp only [Bool.false_eq_true, if_false] at run
    rw [bind_of_ok ends] at run
    cases run
    rcases bind_eq_ok ran with ⟨_, middle, ensured, loop⟩
    rcases ensureActiveZone_inStep kept.inStep ensured with ⟨started, held⟩
    rcases directAppendLoop_inStep fuel started held loop with ⟨last, pushes⟩
    refine ⟨⟨kept.direct, last, ?_⟩, ?_, fun none => (by cases none)⟩
    · intro shut
      cases isOpen.symm.trans shut
    · rw [Call.pushes, ensured]
      exact pushes

theorem truncate_behaves (kept : Kept writer) (isOpen : writer.isOpen = true) (fuel size : Nat)
    (trims : (Call.truncate size).Trims writer) (smaller : size ≤ writer.state.file.fileSize)
    (run : WritableFile.truncate size writer = (.ok (), after)) :
    Behaves fuel (.truncate size) writer after := by
  cases run
  refine ⟨⟨kept.direct, ⟨kept.inStep.isWal, ?_, kept.inStep.filepos, ?_⟩, ?_⟩, by simp [Call.pushes],
    fun none => (by cases none)⟩
  · intro idle
    rcases trims with same | ⟨held, _⟩
    · rw [same]
      exact kept.inStep.closed idle
    · rw [show writer.state.file.activeZone = none from idle] at held
      cases held
  · intro number held
    have within := kept.inStep.within number held
    have before := ZoneFile.unpushed_of_le within.1
    have order : writer.state.file.extentFilepos ≤ size := by
      rcases trims with same | ⟨_, order⟩
      · rw [same]
        exact within.1
      · exact order
    have length := @ZoneFile.unpushed_of_le { writer.state.file with fileSize := size } order
    have room : writer.state.file.extentStart + (size - writer.state.file.extentFilepos) ≤
        (writer.state.zbd.zone number).wp := by omega
    rw [← length] at room
    exact ⟨order, room⟩
  · intro shut
    cases isOpen.symm.trans shut

theorem sync_behaves (kept : Kept writer) (isOpen : writer.isOpen = true) (fuel : Nat)
    (run : WritableFile.sync config fuel writer = (.ok (), after)) :
    Behaves fuel .sync writer after := by
  rw [WritableFile.sync, dataSync_direct kept] at run
  cases run
  have extended := kept.inStep.push
  refine ⟨⟨kept.direct, extended.inStep, ?_⟩, ?_, fun _ => extended.sum⟩
  · intro shut
    cases isOpen.symm.trans shut
  · intro start member
    rw [List.mem_singleton.mp member]
    exact kept.inStep.within

theorem fsync_behaves (kept : Kept writer) (isOpen : writer.isOpen = true) (fuel : Nat)
    (run : WritableFile.fsync config fuel writer = (.ok (), after)) :
    Behaves fuel .fsync writer after := by
  have extended := kept.inStep.push
  rw [WritableFile.fsync, bind_of_ok (dataSync_direct kept fuel), bind_read] at run
  simp only [kept.direct, Bool.false_and, Bool.false_eq_true, if_false] at run
  have saved := persistMetadata_saved (pushed writer.state)
  have last := Saved.inStep saved extended.inStep
  have moved : _ = after := congrArg Prod.snd run
  have state : after.state = (persistMetadata (pushed writer.state)).2 := moved ▸ rfl
  have direct : after.buffered = false := moved ▸ rfl
  have still : after.isOpen = true := moved ▸ isOpen
  refine ⟨⟨direct, state ▸ last.1, ?_⟩, ?_, fun _ => ?_⟩
  · intro shut
    cases still.symm.trans shut
  · intro start member
    rw [List.mem_singleton.mp member]
    exact kept.inStep.within
  · rw [state, last.2, extended.sum]
    exact saved.keeps.fileSize.symm

theorem closeWR_inStep {next : FileState} (inStep : InStep state)
    (sum : extentSum state = state.file.fileSize) (run : closeWR state = (.ok (), next)) :
    InStep next ∧ next.file.activeZone = none := by
  have keeps := WritableFile.closeWR_keeps inStep.isWal
  rw [run] at keeps
  rw [closeWR, bind_setFile] at run
  rcases bind_eq_ok run with ⟨_, persisted, saved, rest⟩
  rw [bind_setFile] at rest
  have isWal : persisted.file.isWal = false := by
    have kept := (persistMetadata_saved
      { state with file := { state.file with extentStart := noExtent } }).keeps.isWal
    rw [saved] at kept
    exact kept.trans inStep.isWal
  have idle : next.file.activeZone = none := by
    have closed := (@closeActiveZone_keeps
      { persisted with file := { persisted.file with openForWr := false } } isWal).2.1
    rw [rest] at closed
    exact closed
  have same : extentSum next = next.file.fileSize := by
    rw [extentSum, keeps.1.extents, keeps.1.fileSize]
    exact sum
  refine ⟨⟨keeps.1.isWal.trans inStep.isWal, fun _ => same, ?_, ?_⟩, idle⟩
  · intro held
    rw [idle] at held
    cases held
  · intro number held
    cases idle.symm.trans held

theorem close_behaves (kept : Kept writer) (fuel : Nat)
    (run : WritableFile.close config fuel writer = (.ok (), after)) :
    Behaves fuel .close writer after := by
  rw [WritableFile.close, bind_read] at run
  by_cases isOpen : writer.isOpen = true
  · have extended := kept.inStep.push
    rw [if_pos isOpen, bind_of_ok (dataSync_direct kept fuel)] at run
    rcases bind_eq_ok run with ⟨_, middle, closing, rest⟩
    have moved : _ = middle := congrArg Prod.snd closing
    have ended : (closeWR (pushed writer.state)).1 = .ok () := congrArg Prod.fst closing
    have last := closeWR_inStep extended.inStep extended.sum (Prod.ext ended rfl)
    have state : middle.state = (closeWR (pushed writer.state)).2 := moved ▸ rfl
    have direct : middle.buffered = false := moved ▸ kept.direct
    cases rest
    have inStep : InStep middle.state := state ▸ last.1
    have idle : middle.state.file.activeZone = none := state ▸ last.2
    refine ⟨⟨direct, inStep, fun _ => idle⟩, ?_, fun _ => inStep.closed idle⟩
    intro start member
    rw [Call.pushes, if_pos isOpen] at member
    rw [List.mem_singleton.mp member]
    exact kept.inStep.within
  · rw [if_neg isOpen] at run
    cases run
    have idle := kept.shut (by simpa using isOpen)
    refine ⟨kept, ?_, fun _ => kept.inStep.closed idle⟩
    intro start member
    rw [Call.pushes, if_neg isOpen] at member
    cases member

theorem call_behaves (kept : Kept writer) {call : Call} {fuel : Nat} (possible : call.Possible writer)
    (trims : call.Trims writer) (run : call.run config fuel writer = (.ok (), after)) :
    Behaves fuel call writer after := by
  cases call with
  | append data => exact append_behaves kept possible fuel data run
  | truncate size => exact truncate_behaves kept possible.1 fuel size trims possible.2 run
  | sync => exact sync_behaves kept possible fuel run
  | fsync => exact fsync_behaves kept possible fuel run
  | close => exact close_behaves kept fuel run

theorem Opened.kept (opened : Opened writer) : Kept writer := by
  refine ⟨opened.direct, ⟨opened.isWal, fun _ => opened.sum, ?_, ?_⟩, fun _ => opened.idle⟩
  · intro held
    rw [opened.idle] at held
    cases held
  · intro number held
    cases opened.idle.symm.trans held

theorem Reached.kept (reached : Reached config (fun writer call => call.Trims writer) writer) :
    Kept writer := by
  induction reached with
  | opened opened => exact opened.kept
  | call _ _ _ possible trims run induction => exact (call_behaves induction possible trims run).kept

/-- In every run whose truncations cut off only data that is in no extent yet, every extent is
pushed without a wrapped length and before the write pointer, and after every sync or close the
extents sum to the size of the file. -/
theorem truncation_in_step (reached : Reached config (fun writer call => call.Trims writer) writer)
    (call : Call) (fuel : Nat) (possible : call.Possible writer) (trims : call.Trims writer)
    (run : call.run config fuel writer = (.ok (), after)) :
    (∀ start ∈ call.pushes fuel writer, PushesWithin start) ∧
      (call.syncs = true → extentSum after.state = after.state.file.fileSize) :=
  have behaves := call_behaves reached.kept possible trims run
  ⟨behaves.pushes, behaves.sum⟩

def newWriter : WritableFile :=
  WritableFile.create smallConfig (FileSystem.emptyDevice [19] 1024 640 64 [])
    { linkfiles := ["/a"], openForWr := true } false

def afterCalls (calls : List Call) : WritableFile :=
  calls.foldl (fun writer call => (call.run smallConfig 2 writer).2) newWriter

theorem newWriter_opened : Opened newWriter := ⟨rfl, rfl, rfl, rfl⟩

theorem returned_eq {result : Except IOStatus Unit × WritableFile} (returned : result.1 = .ok ()) :
    result = (.ok (), result.2) :=
  Prod.ext returned rfl

theorem reached_append {permitted : WritableFile → Call → Prop} {calls : List Call} {call : Call}
    (reached : Reached smallConfig permitted (afterCalls calls))
    (possible : call.Possible (afterCalls calls)) (allowed : permitted (afterCalls calls) call)
    (returned : (call.run smallConfig 2 (afterCalls calls)).1 = .ok ()) :
    Reached smallConfig permitted (afterCalls (calls ++ [call])) := by
  have same : afterCalls (calls ++ [call]) = (call.run smallConfig 2 (afterCalls calls)).2 := by
    rw [afterCalls, List.foldl_append]
    rfl
  rw [same]
  exact .call reached call 2 possible allowed (returned_eq returned)

/-- Two blocks are appended and one is cut off again before the sync. -/
theorem truncation_in_step_unpushed :
    PushesWithin (afterCalls [.append (List.replicate 128 7), .truncate 64]).state ∧
      extentSum (Call.sync.run smallConfig 2
        (afterCalls [.append (List.replicate 128 7), .truncate 64])).2.state = 64 := by
  have first := @reached_append (fun writer call => call.Trims writer) []
    (.append (List.replicate 128 7)) (.opened newWriter_opened) rfl trivial
    (by decide +kernel)
  have second := @reached_append _ [.append (List.replicate 128 7)] (.truncate 64) first
    ⟨by decide +kernel, by decide +kernel⟩ (.inr ⟨by decide +kernel, by decide +kernel⟩)
    (by decide +kernel)
  rw [List.singleton_append] at second
  have isOpen : (afterCalls [.append (List.replicate 128 7), .truncate 64]).isOpen = true := by
    decide +kernel
  have holds := truncation_in_step second .sync 2 isOpen trivial
    (returned_eq (by decide +kernel))
  refine ⟨holds.1 _ (by simp [Call.pushes]), ?_⟩
  rw [holds.2 rfl]
  decide +kernel

/-- The block that is cut off is in an extent already: the next sync pushes an extent of
`2 ^ 64 - 64` bytes behind the write pointer. -/
theorem truncated_below_extents :
    Reached smallConfig (fun _ _ => True)
      (afterCalls [.append (List.replicate 64 7), .sync, .truncate 0]) ∧
    ¬ PushesWithin (afterCalls [.append (List.replicate 64 7), .sync, .truncate 0]).state ∧
    (Call.sync.run smallConfig 2
      (afterCalls [.append (List.replicate 64 7), .sync, .truncate 0])).1 = .ok () ∧
    (Call.sync.run smallConfig 2
      (afterCalls [.append (List.replicate 64 7), .sync, .truncate 0])).2.state.file.extents =
        [⟨19456, 64, 19⟩, ⟨19520, 2 ^ 64 - 64, 19⟩] ∧
    (Call.sync.run smallConfig 2
      (afterCalls [.append (List.replicate 64 7), .sync, .truncate 0])).2.state.file.fileSize = 0 := by
  have first := @reached_append (fun _ _ => True) [] (.append (List.replicate 64 7))
    (.opened newWriter_opened) rfl trivial (by decide +kernel)
  have isOpen : (afterCalls [.append (List.replicate 64 7)]).isOpen = true := by decide +kernel
  have second := @reached_append _ [.append (List.replicate 64 7)] .sync first isOpen trivial
    (by decide +kernel)
  have third := @reached_append _ [.append (List.replicate 64 7), .sync] (.truncate 0) second
    ⟨by decide +kernel, by decide +kernel⟩ trivial (by decide +kernel)
  refine ⟨third, ?_, by decide +kernel, by decide +kernel, by decide +kernel⟩
  intro within
  have order := (within 19 (by decide +kernel)).1
  revert order
  decide +kernel

end Zwal.Truncation
