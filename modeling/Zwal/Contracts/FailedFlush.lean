import Zwal.File.OrdinaryWriter
import Zwal.Fs.Runs

/-! # Failed flushes

`FlushBuffer` can stop anywhere: in a zone write, when it looks for a zone, when the record
of its file and the roll after it are refused. The extents hold a prefix of what was appended as long as every call
finds the writer at the end of its file; a flush that took bytes before it failed leaves
the writer behind, and the next one takes them again. -/

namespace Zwal.FailedFlush

open FileState ZonedBlockDevice WritableFile FileSystem

inductive Call
  | append (data : Bytes)
  | positionedAppend (data : Bytes) (offset : Nat)
  | sync
  | fsync
  | rangeSync (offset nbytes : Nat)
  | close
  deriving DecidableEq, Repr

namespace Call

def run (config : BuildConfig) (fuel : Nat) : Call → WritableProgram Unit
  | .append data => WritableFile.append config fuel data
  | .positionedAppend data offset => WritableFile.positionedAppend config fuel data offset
  | .sync => WritableFile.sync config fuel
  | .fsync => WritableFile.fsync config fuel
  | .rangeSync offset nbytes => WritableFile.rangeSync config fuel offset nbytes
  | .close => WritableFile.close config fuel

def data : Call → Bytes
  | .append data | .positionedAppend data _ => data
  | .sync | .fsync | .rangeSync _ _ | .close => []

/-- The bytes a call appended to the stream: all of its data, or what it had copied to the
buffer when it failed. -/
def took (call : Call) (outcome : Except IOStatus Unit) (before after : WritableFile) : Bytes :=
  match outcome with
  | .ok () => call.data
  | .error _ => call.data.take (after.wp + after.bufferPos - (before.wp + before.bufferPos))

end Call

/-- A file that is opened for buffered writes: what it has lies in its zones. -/
structure Openable (memory : Nat → UInt8) (zbd : ZonedBlockDevice) (file : ZoneFile) : Prop where
  blocks : zbd.blockSize ∣ 2 ^ 20
  laid : Laid ⟨zbd, file, []⟩
  size : file.fileSize = (content memory ⟨zbd, file, []⟩).length

/-- The handles that are reached by calls that return, with what was appended to the file
so far. Every call is one that is `permitted` in the state it is made in. -/
inductive Reached (config : BuildConfig) (memory : Nat → UInt8)
    (permitted : WritableFile → Call → Prop) : WritableFile → Bytes → Prop
  | opened {zbd file} : Openable memory zbd file →
      Reached config memory permitted (create config zbd file true)
        (content memory ⟨zbd, file, []⟩)
  | call {writer stream call fuel outcome next} : Reached config memory permitted writer stream →
      permitted writer call → Call.run config fuel call writer = (outcome, next) →
      outcome ≠ .error .never →
      Reached config memory permitted next (stream ++ call.took outcome writer next)

/-- A call on an ordinary file whose writer stands at the end of the file, where the next
extent starts, on a device of whole blocks, and with data of less than four gibibytes. -/
def InStep (writer : WritableFile) (call : Call) : Prop :=
  Plain writer.state.file ∧ Steady writer ∧ call.data.length < 2 ^ 32

instance (file : ZoneFile) : Decidable (Plain file) :=
  decidable_of_iff (file.isWal = false ∧ file.isSparse = false)
    ⟨fun plain => ⟨plain.1, plain.2⟩, fun plain => ⟨plain.isWal, plain.isSparse⟩⟩

instance (writer : WritableFile) (call : Call) : Decidable (InStep writer call) :=
  inferInstanceAs (Decidable (_ ∧ _))

section Steps

variable {config : BuildConfig} {memory : Nat → UInt8} {writer next : WritableFile} {stream : Bytes}
  {outcome : Except IOStatus Unit} {fuel : Nat}

theorem create_holds {zbd : ZonedBlockDevice} {file : ZoneFile} (openable : Openable memory zbd file)
    (plain : Plain file) :
    Holds memory (content memory ⟨zbd, file, []⟩) (create config zbd file true) :=
  ⟨rfl, create_sound config file true openable.blocks, plain,
    ⟨openable.laid.spaced, openable.laid.inside, openable.laid.held⟩, openable.size,
    List.prefix_rfl, fun _ _ => List.append_nil _⟩

theorem append_took {data : Bytes} (holds : Holds memory stream writer) (steady : Steady writer)
    (small : data.length < 2 ^ 32) (run : WritableFile.append config fuel data writer = (outcome, next))
    (ends : outcome ≠ .error .never) :
    Holds memory (stream ++ (Call.append data).took outcome writer next) next := by
  have appended := append_holds config fuel holds steady small
  rw [run] at appended
  cases outcome with
  | ok => exact appended.1
  | error failure =>
      rcases appended with never | ⟨taken, part, held, position⟩
      · exact absurd (congrArg Except.error never) ends
      · rw [Call.took, position, Nat.add_sub_cancel_left]
        exact held

theorem sync_took (holds : Holds memory stream writer) (steady : Steady writer)
    (run : WritableFile.dataSync config fuel writer = (outcome, next)) (ends : outcome ≠ .error .never) :
    Holds memory stream next := by
  have synced := dataSync_holds config fuel holds steady
  rw [run] at synced
  cases outcome with
  | ok => exact synced.1
  | error failure => exact synced.resolve_left fun never => ends (congrArg Except.error never)

theorem took_nil {call : Call} (none : call.data = []) (outcome : Except IOStatus Unit)
    (before after : WritableFile) : stream ++ call.took outcome before after = stream := by
  cases outcome with
  | ok => rw [Call.took, none, List.append_nil]
  | error => rw [Call.took, none, List.take_nil, List.append_nil]

theorem call_holds {call : Call} (holds : Holds memory stream writer) (inStep : InStep writer call)
    (run : call.run config fuel writer = (outcome, next)) (ends : outcome ≠ .error .never) :
    Holds memory (stream ++ call.took outcome writer next) next := by
  rcases inStep with ⟨plain, steady, small⟩
  cases call with
  | append data => exact append_took holds steady small run ends
  | positionedAppend data offset =>
      have unfolded : WritableFile.positionedAppend config fuel data offset writer =
          (if offset ≠ writer.wp then Program.fail (.ioError "positioned append not at write pointer")
            else WritableFile.append config fuel data : WritableProgram Unit) writer := rfl
      rw [Call.run, unfolded] at run
      by_cases misplaced : offset ≠ writer.wp
      · rw [if_pos misplaced] at run
        cases run
        rw [Call.took, Nat.sub_self, List.take_zero, List.append_nil]
        exact holds
      · rw [if_neg misplaced] at run
        exact append_took holds steady small run ends
  | sync =>
      rw [took_nil rfl]
      exact sync_took holds steady run ends
  | fsync =>
      rw [Call.run, fsync_buffered config fuel holds steady] at run
      rw [took_nil rfl]
      exact sync_took holds steady run ends
  | rangeSync offset nbytes =>
      have unfolded : WritableFile.rangeSync config fuel offset nbytes writer =
          (if writer.wp < (offset + nbytes) % 2 ^ 64 then WritableFile.dataSync config fuel
            else pure () : WritableProgram Unit) writer := rfl
      rw [Call.run, unfolded] at run
      rw [took_nil rfl]
      by_cases behind : writer.wp < (offset + nbytes) % 2 ^ 64
      · rw [if_pos behind] at run
        exact sync_took holds steady run ends
      · rw [if_neg behind] at run
        cases run
        exact holds
  | close =>
      have closed := close_holds config fuel holds steady
      rw [Call.run] at run
      rw [run] at closed
      rw [took_nil rfl]
      cases outcome with
      | ok => exact closed
      | error failure => exact closed.resolve_left fun never => ends (congrArg Except.error never)

theorem Reached.holds (reached : Reached config memory InStep writer stream) :
    content memory writer.state <+: stream ∧
      (Plain writer.state.file → Holds memory stream writer) := by
  induction reached with
  | opened openable => exact ⟨List.prefix_rfl, create_holds openable⟩
  | call _ permitted run ends induction =>
      have holds := call_holds (induction.2 permitted.1) permitted run ends
      exact ⟨holds.kept, fun _ => holds⟩

end Steps

/-! ## A small device -/

theorem emptyDevice_spaced {ioZones : List Nat} {zoneSize capacity blockSize : Nat}
    (io : ∀ number ∈ ioZones, 19 ≤ number) (room : 0 < capacity ∧ capacity ≤ zoneSize)
    (replies : List Int) : Spaced (emptyDevice ioZones zoneSize capacity blockSize replies) := by
  refine ⟨Nat.lt_of_lt_of_le room.1 room.2, fun number _ other _ different => ?_,
    fun number member listed => ?_, fun _ _ => Nat.le_refl _, fun _ _ => Nat.add_le_add_left room.2 _⟩
  · have step {low high : Nat} (less : low < high) : low * zoneSize + zoneSize ≤ high * zoneSize := by
      rw [← Nat.succ_mul]
      exact Nat.mul_le_mul_right zoneSize less
    exact (Nat.lt_or_gt_of_ne different).imp step step
  · have large := io number member
    have small : ∀ other ∈ [4, 5, 6, 7, 8, 9, 10, 11, 12, 13, 14, 15, 16, 17, 18], other < 19 := by
      decide
    exact absurd (small number listed) (Nat.not_lt_of_le large)

theorem emptyDevice_openable (memory : Nat → UInt8) {ioZones : List Nat}
    {zoneSize capacity blockSize : Nat} (blocks : blockSize ∣ 2 ^ 20)
    (io : ∀ number ∈ ioZones, 19 ≤ number) (room : 0 < capacity ∧ capacity ≤ zoneSize)
    (replies : List Int) :
    Openable memory (emptyDevice ioZones zoneSize capacity blockSize replies) {} := by
  refine ⟨blocks, ⟨emptyDevice_spaced io room replies, fun extent listed => ?_, fun number held => ?_⟩,
    rfl⟩
  · cases listed
  · cases held

/-- Three zones of one block; the answers of the environment are given. -/
def blockZones (replies : List Int) : WritableFile :=
  create smallConfig (emptyDevice [19, 20, 21] 4096 4096 4096 replies) {} true

def next (call : Call) (writer : WritableFile) : WritableFile := (call.run smallConfig 4 writer).2

theorem blockZones_reached (permitted : WritableFile → Call → Prop) (replies : List Int) :
    Reached smallConfig (fun _ => 0) permitted (blockZones replies) [] :=
  .opened (emptyDevice_openable _ (by decide) (by decide) (by decide) replies)

theorem Reached.next {permitted : WritableFile → Call → Prop} {writer : WritableFile} {stream : Bytes}
    (reached : Reached smallConfig (fun _ => 0) permitted writer stream) (call : Call)
    (allowed : permitted writer call) (ends : (call.run smallConfig 4 writer).1 ≠ .error .never) :
    Reached smallConfig (fun _ => 0) permitted (FailedFlush.next call writer)
      (stream ++ call.took (call.run smallConfig 4 writer).1 writer (FailedFlush.next call writer)) :=
  .call reached allowed rfl ends

/-- In every run whose calls all find the writer in step with its file, the extents hold a
prefix of what was appended. -/
theorem extents_prefix_of_stream {config : BuildConfig} {memory : Nat → UInt8} {writer : WritableFile}
    {stream : Bytes} (reached : Reached config memory InStep writer stream) :
    content memory writer.state <+: stream :=
  reached.holds.1

/-- The first `Sync` finds a zone and cannot persist that; the second one goes on. -/
theorem extents_prefix_of_stream_retried :
    ∃ writer stream, Reached smallConfig (fun _ => 0) InStep writer stream ∧ stream = [1, 2, 3] ∧
      content (fun _ => 0) writer.state = [1, 2, 3] ∧ content (fun _ => 0) writer.state <+: stream := by
  have first := (blockZones_reached InStep [-1]).next (.append [1, 2, 3]) (by decide +kernel)
    (by decide +kernel)
  have second := first.next .sync (by decide +kernel) (by decide +kernel)
  have third := second.next .sync (by decide +kernel) (by decide +kernel)
  exact ⟨_, _, third, by decide +kernel, by decide +kernel, extents_prefix_of_stream third⟩

/-- A `Sync` fails after its bytes were written, because the metadata of the next zone is not
persisted. The next `Sync` returns and has written them again. -/
theorem retried_sync_repeats_bytes :
    ∃ writer stream, Reached smallConfig (fun _ => 0) (fun _ _ => True) writer stream ∧
      stream = [1, 2, 3] ∧ content (fun _ => 0) writer.state = [1, 2, 3, 1, 2, 3] ∧
      ¬ content (fun _ => 0) writer.state <+: stream := by
  have first := (blockZones_reached (fun _ _ => True) [0, 4096, -1]).next (.append [1, 2, 3]) trivial
    (by decide +kernel)
  have second := first.next .sync trivial (by decide +kernel)
  have third := second.next .sync trivial (by decide +kernel)
  refine ⟨_, _, third, by decide +kernel, by decide +kernel, by decide +kernel⟩

end Zwal.FailedFlush
