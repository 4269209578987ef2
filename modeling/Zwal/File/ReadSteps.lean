import Zwal.File.FileSteps
import Zwal.File.WalReader

/-! # What a read of a file does

A read moves the cursor of the file, uses up answers of the device and may open the
once-log of a write-ahead log; it changes nothing else. -/

namespace Zwal.FileState

open ZonedBlockDevice

def Walks (program : FileProgram Value) : Prop :=
  ∀ state, Walked .look state (fun _ _ => True) (program state)

namespace Walks

theorem pure (value : Value) : Walks (Pure.pure value : FileProgram Value) :=
  fun _ => .here trivial

theorem fail (failure : IOStatus) : Walks (Program.fail failure : FileProgram Value) :=
  fun _ => .inr .refl

theorem read : Walks (Program.read : FileProgram FileState) := fun _ => .here trivial

theorem bind {program : FileProgram Value} {next : Value → FileProgram Result}
    (first : Walks program) (second : ∀ value, Walks (next value)) : Walks (program >>= next) :=
  fun state => (first state).bind fun value middle _ _ => second value middle

theorem ite {condition : Prop} [Decidable condition] {program other : FileProgram Value}
    (first : Walks program) (second : Walks other) :
    Walks (if condition then program else other) := by
  split
  · exact first
  · exact second

theorem onDevice {program : DeviceProgram Value}
    (answers : ∀ zbd, ∃ outcome replies, replies <:+ zbd.replies ∧
      program zbd = (outcome, { zbd with replies := replies })) :
    Walks (FileState.onDevice program) := by
  intro state
  rcases answers state.zbd with ⟨outcome, replies, shorter, run⟩
  cases outcome with
  | error failure =>
      rw [onDevice_of_error run]
      exact .inr (.answer shorter)
  | ok value =>
      rw [onDevice_of_ok run]
      exact ⟨.answer shorter, trivial⟩

theorem request (failure : IOStatus) :
    Walks (FileState.onDevice (ZonedBlockDevice.request failure)) := by
  refine onDevice fun zbd => ?_
  rcases request_cases failure zbd with ⟨replies, shorter, run | ⟨_, run⟩⟩
  · exact ⟨_, replies, shorter, run⟩
  · exact ⟨_, replies, shorter, run⟩

theorem readDevice (device : Nat → UInt8) (offset size : Nat) :
    Walks (FileState.onDevice (ZonedBlockDevice.readDevice device offset size)) := by
  refine onDevice fun zbd => ?_
  rcases readDevice_cases device offset size zbd with ⟨replies, result, shorter, run⟩
  exact ⟨_, replies, shorter, run⟩

theorem cursor {change : ZoneFile → ZoneFile}
    (reader : ∀ file, ∃ chunks chunkId entries within index last, change file =
      { file with
        loadedWalChunks := chunks, chunkId := chunkId, walEntries := entries
        readerOffset := within, readerOffsetIndex := index, lastRead := last }) :
    Walks (setFile change) := by
  intro state
  rcases reader state.file with ⟨chunks, chunkId, entries, within, index, last, same⟩
  have moved : FileStep .look state { state with file := change state.file } := by
    rw [same]
    exact .cursor chunks chunkId entries within index last
  exact ⟨moved.steps, trivial⟩

end Walks

theorem openWALZone_cases (activeZone : Nat) (zbd : ZonedBlockDevice) :
    (∃ next, openWALZone activeZone zbd = (.error .never, next)) ∨
      ∃ number status replies, Tokens zbd ∧
        zbd.walZones[activeZone - zenfsMetaZones - zenfsFlakyZones]? = some number ∧
        (zbd.zone number).busy = false ∧ replies <:+ zbd.replies ∧
        openWALZone activeZone zbd = (.ok (number, status),
          { zbd.withTokens.setBusy number true with replies := replies }.record
            (.openLog number)) := by
  rcases takeWalTokens_cases zbd with ⟨tokens, run⟩ | ⟨after, run⟩
  · rw [openWALZone, bind_of_ok run, bind_read]
    have same : zbd.withTokens.walZones = zbd.walZones := rfl
    rw [same]
    cases found : zbd.walZones[activeZone - zenfsMetaZones - zenfsFlakyZones]? with
    | none => exact .inl ⟨_, rfl⟩
    | some number =>
        have zone : zbd.withTokens.zone = zbd.zone := rfl
        simp only [zone]
        cases busy : (zbd.zone number).busy with
        | true => exact .inl ⟨_, rfl⟩
        | false =>
            rcases openOnceLog_cases number (zbd.withTokens.setBusy number true) with
              ⟨status, replies, shorter, _, opened⟩
            refine .inr ⟨number, status, replies, tokens, rfl, busy, shorter, ?_⟩
            simp only [Bool.false_eq_true, if_false]
            rw [bind_update, bind_of_ok opened]
            rfl
  · rw [openWALZone, bind_of_error run]
    exact .inl ⟨_, rfl⟩

theorem ensureLog_walks : Walks ensureLog := by
  intro state
  rw [ensureLog, bind_read]
  cases opened : state.file.wal with
  | some log => exact .here trivial
  | none =>
      cases extents : state.file.extents with
      | nil => exact .inl rfl
      | cons extent rest =>
          rcases openWALZone_cases extent.zone state.zbd with
            ⟨next, run⟩ | ⟨number, status, replies, tokens, found, idle, shorter, run⟩
          · simp only
            rw [bind_of_error (onDevice_of_error run)]
            exact .inl rfl
          · simp only
            rw [bind_of_ok (onDevice_of_ok run),
              bind_setFile]
            have step := FileStep.openLog opened extents tokens found idle shorter
            cases status with
            | error failure => exact .inr step.steps
            | ok => exact ⟨step.steps, trivial⟩

theorem recoverWALChunk_walks (env : ReaderEnv) {store : List WalEntry → ZoneFile → ZoneFile}
    (stores : ∀ entries, Walks (setFile (store entries))) (start stop : Nat) :
    Walks (recoverWALChunk env store start stop) := by
  refine (stores []).bind fun _ => (Walks.request _).bind fun _ => Walks.read.bind fun state => ?_
  refine (stores _).bind fun _ => ?_
  split
  · exact .fail _
  · exact stores _

theorem storeChunk_walks (entries : List WalEntry) : Walks (setFile (storeChunk entries)) :=
  .cursor fun _ => ⟨_, _, _, _, _, _, rfl⟩

section Reads

variable (build : ReaderBuild) (config : BuildConfig) (env : ReaderEnv)

theorem loadChunks_walks (fuel offset : Nat) : Walks (loadChunks config env fuel offset) := by
  induction fuel with
  | zero => exact .fail _
  | succ fuel induction =>
      refine Walks.read.bind fun state => ?_
      simp only
      split
      · exact .pure _
      · refine (recoverWALChunk_walks env storeChunk_walks _ _).bind fun _ => ?_
        refine Walks.bind (.cursor fun _ => ⟨_, _, _, _, _, _, rfl⟩) fun _ => ?_
        refine Walks.read.bind fun state => ?_
        split
        · exact induction
        · exact .pure _

theorem recoverEntireWAL_walks : Walks (recoverEntireWAL env) := by
  refine Walks.read.bind fun state => ?_
  split
  · exact .pure _
  · refine ensureLog_walks.bind fun _ => recoverWALChunk_walks env (fun entries => ?_) _ _
    exact .cursor fun _ => ⟨_, _, _, _, _, _, rfl⟩

theorem tryRecoverWAL_walks (offset : Nat) : Walks (tryRecoverWAL build config env offset) := by
  refine Walks.read.bind fun state => ?_
  cases build with
  | walBarriers =>
      simp only
      split
      · exact .pure _
      · exact ensureLog_walks.bind fun _ => loadChunks_walks config env _ _
  | wholeLog =>
      simp only
      split
      · exact recoverEntireWAL_walks env
      · exact .pure _

theorem nextWALExtent_walks (offset : Nat) (point : ReadPoint) :
    Walks (nextWALExtent build config env offset point) := by
  refine (tryRecoverWAL_walks build config env _).bind fun _ => Walks.read.bind fun state => ?_
  split
  · exact .pure _
  · exact .pure _

theorem walReadLoop_walks (direct : Bool) (offset rSz fuel : Nat) (point : ReadPoint) :
    Walks (walReadLoop build config env direct offset rSz fuel point) := by
  induction fuel generalizing point with
  | zero =>
      rw [walReadLoop]
      split
      · exact .pure _
      · exact .fail _
  | succ fuel induction =>
      rw [walReadLoop]
      split
      · exact .pure _
      · refine Walks.read.bind fun state => ?_
        simp only
        split
        · exact .fail _
        · refine .ite (.fail _) (.ite (.pure _) (.ite ?_ (induction _)))
          refine (nextWALExtent_walks build config env offset _).bind fun next => ?_
          cases next with
          | none => exact .pure _
          | some point => exact induction point

theorem leaveExtent_walks (offset : Nat) (point : ReadPoint) :
    Walks (leaveExtent build config env offset point) := by
  rw [leaveExtent]
  split
  · refine (nextWALExtent_walks build config env offset point).bind fun next => ?_
    cases next with
    | none => exact .pure _
    | some next => exact .pure _
  · exact .pure _

theorem walRead_walks (offset n : Nat) (direct : Bool) :
    Walks (walRead build config env offset n direct) := by
  refine (tryRecoverWAL_walks build config env offset).bind fun _ => Walks.read.bind fun state => ?_
  simp only
  split
  · exact .pure _
  · refine (walReadLoop_walks build config env direct offset _ _ _).bind fun point => ?_
    refine (leaveExtent_walks build config env offset point).bind fun point => ?_
    exact Walks.bind (.cursor fun _ => ⟨_, _, _, _, _, _, rfl⟩) fun _ => .pure _

theorem readLoop_walks (direct : Bool) (size : (read extentEnd rOff : Nat) → Nat)
    (offset rSz fuel extentEnd rOff : Nat) (out : Bytes) (r : Int) :
    Walks (readLoop env direct size offset rSz fuel extentEnd rOff out r) := by
  induction fuel generalizing extentEnd rOff out r with
  | zero =>
      rw [readLoop]
      split
      · exact .pure _
      · exact .fail _
  | succ fuel induction =>
      rw [readLoop]
      split
      · exact .pure _
      · refine Walks.read.bind fun state => (Walks.readDevice _ _ _).bind fun answer => ?_
        rcases answer with _ | _ | ⟨byte, rest⟩
        · exact .pure _
        · exact .pure _
        · simp only
          split
          · split
            · exact .pure _
            · exact induction _ _ _ _
          · exact induction _ _ _ _

theorem fileRead_walks (offset n : Nat) (direct : Bool) : Walks (fileRead env offset n direct) := by
  refine Walks.read.bind fun state => ?_
  simp only
  split
  · exact .pure _
  · refine (readLoop_walks env direct _ offset _ _ _ _ _ _).bind fun result => ?_
    refine Walks.bind (.cursor fun _ => ⟨_, _, _, _, _, _, rfl⟩) fun _ => ?_
    split
    · exact .fail _
    · exact .pure _

theorem positionedRead_walks (offset n : Nat) (direct : Bool) :
    Walks (positionedRead build config env offset n direct) := by
  refine Walks.read.bind fun state => ?_
  split
  · exact .fail _
  · split
    · exact .pure _
    · split
      · exact walRead_walks build config env offset n direct
      · exact fileRead_walks env offset n direct

end Reads

end Zwal.FileState
