import Zwal.Device.Grants
import Zwal.File.Control
import Zwal.File.WritableFile

/-! # What a file operation does

The elementary steps of every operation on a file, with what each of them finds:
which zone is taken or let go, which tokens move, what is written where. An
invariant kept by each step is kept by every operation that comes to an end. -/

namespace Zwal

namespace ZonedBlockDevice

/-- Bytes written to a zone by one `pwrite` after the other. -/
def advanceAll (number : Nat) (chunks : List Bytes) (zbd : ZonedBlockDevice) : ZonedBlockDevice :=
  chunks.foldl (fun zbd chunk => zbd.advance number chunk) zbd

def writeEvents (number : Nat) : (wp capacity : Nat) → (chunks : List Bytes) → List IoEvent
  | _, _, [] => []
  | wp, capacity, chunk :: chunks =>
      .write ⟨number, wp, capacity, chunk⟩ ::
        writeEvents number (wp + chunk.length) (capacity - chunk.length) chunks

theorem advanceAll_eq (number : Nat) (chunks : List Bytes) (zbd : ZonedBlockDevice) :
    zbd.advanceAll number chunks =
      { zbd with
        zone := Function.update zbd.zone number { zbd.zone number with
          wp := (zbd.zone number).wp + chunks.flatten.length
          capacity := (zbd.zone number).capacity - chunks.flatten.length }
        trace := zbd.trace ++
          writeEvents number (zbd.zone number).wp (zbd.zone number).capacity chunks } := by
  induction chunks generalizing zbd with
  | nil => simp [advanceAll, writeEvents]
  | cons chunk chunks induction =>
      rw [show zbd.advanceAll number (chunk :: chunks) =
        (zbd.advance number chunk).advanceAll number chunks from rfl, induction]
      simp [advance, setZone, record, writeEvents, Nat.add_assoc, Nat.sub_sub]

end ZonedBlockDevice

namespace FileState

open ZonedBlockDevice

/-- `SetActiveZone` and the start of a new extent. -/
def pointAt (number : Nat) (state : FileState) : FileState :=
  { state with file := { state.file with
      activeZone := some number
      extentStart := (state.zbd.zone number).wp
      extentFilepos := state.file.fileSize } }

def letGo (number : Nat) (state : FileState) : FileState :=
  { state with
    zbd := state.zbd.setBusy number false
    file := { state.file with activeZone := none } }

def returnTokens (full : Bool) (zbd : ZonedBlockDevice) : ZonedBlockDevice :=
  if full then zbd.putOpenIOZoneToken.putActiveIOZoneToken else zbd.putOpenIOZoneToken

def grow (size : Nat) (state : FileState) : FileState :=
  { state with file := { state.file with fileSize := state.file.fileSize + size } }

def pushed (state : FileState) : FileState := (pushExtent state).2

/-- What a step belongs to: writing, the end of `CloseWR`, reading, or the deletion of a
write-ahead log. -/
inductive StepKind
  | write
  | shut
  | look
  | log
  deriving DecidableEq

inductive FileStep : StepKind → FileState → FileState → Prop
  | device {kind state zbd} : DeviceStep state.zbd zbd → FileStep kind state { state with zbd := zbd }
  | takeIo {state number taken} : state.file.activeZone = none → state.file.isWal = false →
      Taken state.file.lifetime state.zbd number taken →
      FileStep .write state (pointAt number { state with
        zbd := { taken with openIoZones := state.zbd.openIoZones + 1 } })
  | takeWal {state number log zbd} : state.file.activeZone = none → state.file.isWal = true →
      WalTaken state.file.wal (ZoneFile.lastExtentZone state.file.extents) state.zbd number log zbd →
      FileStep .write state (pointAt number { state with
        zbd := zbd, file := { state.file with wal := some log } })
  | takeWalFailed {state number log zbd} : state.file.activeZone = none → state.file.isWal = true →
      WalTaken state.file.wal (ZoneFile.lastExtentZone state.file.extents) state.zbd number log zbd →
      state.zbd.Failing →
      FileStep .write state { state with zbd := zbd, file := { state.file with wal := some log } }
  | leave {state number} : state.file.activeZone = some number →
      (state.zbd.zone number).isFull = true →
      FileStep .write state { letGo number state with
        zbd := returnTokens true (letGo number state).zbd }
  | write {state number chunks} : state.file.activeZone = some number →
      chunks.flatten.length ≤ (state.zbd.zone number).capacity →
      FileStep .write state { state with zbd := state.zbd.advanceAll number chunks }
  | append {state number chunks} : state.file.activeZone = some number →
      chunks.flatten.length ≤ (state.zbd.zone number).capacity →
      FileStep .write state (grow chunks.flatten.length
        { state with zbd := state.zbd.advanceAll number chunks })
  | extend {state number chunks header length} : state.file.activeZone = some number →
      state.file.isWal = false →
      chunks.flatten.length ≤ (state.zbd.zone number).capacity →
      (state.file.isSparse = false → header = 0 ∧ length ≤ chunks.flatten.length) →
      FileStep .write state (addExtent header length
        { state with zbd := state.zbd.advanceAll number chunks })
  | accept {state number call} : state.file.activeZone = some number → state.file.isWal = true →
      call.zone = number → call.size ≤ (state.zbd.zone number).capacity →
      call.capacity = (state.zbd.zone number).capacity →
      FileStep .write state { state with zbd := state.zbd.accept call }
  | addExtent {state number header length} : state.file.activeZone = some number →
      state.file.isWal = true → FileStep .write state (addExtent header length state)
  | push {state} : FileStep .write state (pushed state)
  | truncate {state} (size : Nat) :
      FileStep .write state { state with file := { state.file with fileSize := size } }
  | persist {state} : state.file.isDeleted = false →
      FileStep .write state { state with
        zbd := state.zbd.record (.persist state.file.record)
        file := { state.file with nrSyncedExtents := state.file.extents.length } }
  | detach {state} :
      FileStep .write state { state with file := { state.file with extentStart := noExtent } }
  | scratch {state} (buffer walSeq appendBytes) :
      (state.file.isSparse = false → buffer.length = state.buffer.length) →
      FileStep .write state { state with
        buffer := buffer
        file := { state.file with
          walSeq := walSeq, appendBytesSinceLastBarrier := appendBytes } }
  | syncLog {kind state event log} : state.file.wal = some log →
      event = .walSync log ∨ (event = .walSyncFailed log ∧ state.zbd.Failing) →
      FileStep kind state { state with zbd := state.zbd.record event }
  | unlock {state} : state.file.extentStart = noExtent →
      FileStep .shut state { state with file := { state.file with openForWr := false } }
  | close {state number} : state.file.activeZone = some number → state.file.openForWr = false →
      FileStep .shut state { letGo number state with
        zbd := returnTokens (state.zbd.zone number).isFull (letGo number state).zbd }
  | closeFailed {state number} : state.file.activeZone = some number →
      state.file.openForWr = false → state.zbd.Failing → FileStep .shut state (letGo number state)
  | openLog {state number extent rest replies} : state.file.wal = none →
      state.file.extents = extent :: rest → Tokens state.zbd →
      state.zbd.walZones[extent.zone - zenfsMetaZones - zenfsFlakyZones]? = some number →
      (state.zbd.zone number).busy = false → replies <:+ state.zbd.replies →
      FileStep .look state { state with
        zbd := { state.zbd.withTokens.setBusy number true with replies := replies }.record
          (.openLog number)
        file := { state.file with wal := some number } }
  | cursor {state} (chunks chunkId entries within index last) :
      FileStep .look state { state with file := { state.file with
        loadedWalChunks := chunks, chunkId := chunkId, walEntries := entries
        readerOffset := within, readerOffsetIndex := index, lastRead := last } }
  | resetLog {state log} : state.file.wal = some log →
      FileStep .log state { state with zbd := state.zbd.resetLog log }

def FileSteps (kind : StepKind) : FileState → FileState → Prop :=
  Relation.ReflTransGen (FileStep kind)

theorem FileStep.steps {kind : StepKind} {before after : FileState}
    (step : FileStep kind before after) : FileSteps kind before after :=
  .single step

variable {state : FileState} {number : Nat}

theorem FileSteps.device {kind : StepKind} {zbd : ZonedBlockDevice}
    (steps : DeviceSteps state.zbd zbd) : FileSteps kind state { state with zbd := zbd } := by
  induction steps with
  | refl => exact .refl
  | tail _ step induction => exact induction.tail (.device step)

theorem FileSteps.answer {kind : StepKind} {replies : List Int}
    (shorter : replies <:+ state.zbd.replies) :
    FileSteps kind state { state with zbd := { state.zbd with replies := replies } } :=
  (FileStep.device (.answer shorter)).steps

structure Constant (before after : FileState) : Prop where
  isWal : after.file.isWal = before.file.isWal
  isSparse : after.file.isSparse = before.file.isSparse
  isDeleted : after.file.isDeleted = before.file.isDeleted
  linkfiles : after.file.linkfiles = before.file.linkfiles
  fileId : after.file.fileId = before.file.fileId
  lifetime : after.file.lifetime = before.file.lifetime
  memory : before.file.isSparse = false → after.buffer.length = before.buffer.length
  device : Fixed before.zbd after.zbd

theorem Constant.trans {first second third : FileState} (one : Constant first second)
    (two : Constant second third) : Constant first third where
  isWal := two.isWal.trans one.isWal
  isSparse := two.isSparse.trans one.isSparse
  isDeleted := two.isDeleted.trans one.isDeleted
  linkfiles := two.linkfiles.trans one.linkfiles
  fileId := two.fileId.trans one.fileId
  lifetime := two.lifetime.trans one.lifetime
  memory plain := (two.memory (one.isSparse.trans plain)).trans (one.memory plain)
  device := one.device.trans two.device

theorem Constant.of_device {zbd : ZonedBlockDevice}
    (device : Fixed state.zbd zbd) : Constant state { state with zbd := zbd } :=
  ⟨rfl, rfl, rfl, rfl, rfl, rfl, fun _ => rfl, device⟩

theorem advanceAll_fixed (number : Nat) (chunks : List Bytes) (zbd : ZonedBlockDevice) :
    Fixed zbd (zbd.advanceAll number chunks) := by
  rw [advanceAll_eq]
  have moved : Fixed zbd (zbd.setZone number { zbd.zone number with
      wp := (zbd.zone number).wp + chunks.flatten.length
      capacity := (zbd.zone number).capacity - chunks.flatten.length }) := .setZone rfl
  exact moved.trans (.withTokens _ _ _ _ _)

theorem addExtent_constant (header length : Nat) (state : FileState) :
    Constant state (FileState.addExtent header length state) :=
  ⟨rfl, rfl, rfl, rfl, rfl, rfl, fun _ => rfl, .setZone rfl⟩

theorem pushed_cases (state : FileState) :
    pushed state = state ∨ ∃ number, state.file.activeZone = some number ∧
      pushed state =
        { state with
          zbd := state.zbd.setZone number { state.zbd.zone number with
            usedCapacity := (state.zbd.zone number).usedCapacity + .ofNat state.file.unpushed }
          file := { state.file with
            extents := state.file.extents ++
              [⟨state.file.extentStart, state.file.unpushed, number⟩]
            extentStart := (state.zbd.zone number).wp
            extentFilepos := state.file.fileSize } } := by
  rw [pushed, pushExtent, Program.update]
  cases held : state.file.activeZone with
  | none => exact .inl rfl
  | some number =>
      by_cases nothing : state.file.unpushed = 0
      · simp only [if_pos nothing]
        exact .inl trivial
      · simp only [if_neg nothing]
        exact .inr ⟨number, rfl, rfl⟩

theorem released_fixed (full : Bool) (number : Nat) (state : FileState) :
    Fixed state.zbd (returnTokens full (letGo number state).zbd) := by
  have moved : Fixed state.zbd (state.zbd.setBusy number false) := .setZone rfl
  refine moved.trans ?_
  simp only [returnTokens, letGo]
  split
  all_goals exact .withTokens _ _ _ _ _

theorem FileStep.constant {kind : StepKind} {before after : FileState}
    (step : FileStep kind before after) : Constant before after := by
  cases step with
  | device step => exact .of_device step.fixed
  | takeIo _ _ taken =>
      exact ⟨rfl, rfl, rfl, rfl, rfl, rfl, fun _ => rfl,
        taken.fixed.trans (.withTokens _ _ _ _ _)⟩
  | takeWal _ _ taken | takeWalFailed _ _ taken =>
      exact ⟨rfl, rfl, rfl, rfl, rfl, rfl, fun _ => rfl, taken.fixed⟩
  | leave => exact ⟨rfl, rfl, rfl, rfl, rfl, rfl, fun _ => rfl, released_fixed true _ before⟩
  | close => exact ⟨rfl, rfl, rfl, rfl, rfl, rfl, fun _ => rfl, released_fixed _ _ before⟩
  | closeFailed => exact ⟨rfl, rfl, rfl, rfl, rfl, rfl, fun _ => rfl, .setZone rfl⟩
  | write | append => exact ⟨rfl, rfl, rfl, rfl, rfl, rfl, fun _ => rfl, advanceAll_fixed _ _ _⟩
  | extend =>
      refine Constant.trans ?_ (addExtent_constant _ _ _)
      exact .of_device (advanceAll_fixed _ _ _)
  | @accept _ number call =>
      have moved : Fixed before.zbd (before.zbd.setZone call.zone { before.zbd.zone call.zone with
          wp := (before.zbd.zone call.zone).wp + call.size
          capacity := (before.zbd.zone call.zone).capacity - call.size }) := .setZone rfl
      exact .of_device (moved.trans (.withTokens _ _ _ _ _))
  | addExtent => exact addExtent_constant _ _ _
  | push =>
      rcases pushed_cases before with same | ⟨number, _, same⟩
      all_goals rw [same]
      · exact .of_device (.refl _)
      · exact ⟨rfl, rfl, rfl, rfl, rfl, rfl, fun _ => rfl, .setZone rfl⟩
  | persist => exact ⟨rfl, rfl, rfl, rfl, rfl, rfl, fun _ => rfl, .withTokens _ _ _ _ _⟩
  | syncLog | resetLog => exact .of_device (.withTokens _ _ _ _ _)
  | truncate | detach | unlock | cursor =>
      exact ⟨rfl, rfl, rfl, rfl, rfl, rfl, fun _ => rfl, .refl _⟩
  | scratch _ _ _ memory => exact ⟨rfl, rfl, rfl, rfl, rfl, rfl, memory, .refl _⟩
  | @openLog _ number =>
      have moved : Fixed before.zbd.withTokens (before.zbd.withTokens.setBusy number true) :=
        .setZone rfl
      exact ⟨rfl, rfl, rfl, rfl, rfl, rfl, fun _ => rfl,
        (Fixed.withTokens _ _ _ _ _).trans (moved.trans (.withTokens _ _ _ _ _))⟩

theorem FileSteps.constant {kind : StepKind} {before after : FileState}
    (steps : FileSteps kind before after) : Constant before after := by
  induction steps with
  | refl => exact .of_device (.refl _)
  | tail _ step induction => exact induction.trans step.constant

theorem FileStep.answers {kind : StepKind} {before after : FileState}
    (step : FileStep kind before after) : after.zbd.replies <:+ before.zbd.replies := by
  cases step with
  | device step => exact step.answers
  | takeIo _ _ taken =>
      rw [← taken.answers]
      exact List.suffix_rfl
  | takeWal _ _ taken | takeWalFailed _ _ taken => exact taken.answers
  | leave | close =>
      simp only [returnTokens, letGo]
      split
      all_goals exact List.suffix_rfl
  | write | append | extend =>
      simp only [grow, FileState.addExtent, setZone, advanceAll_eq]
      exact List.suffix_rfl
  | push =>
      rcases pushed_cases before with same | ⟨number, _, same⟩
      all_goals rw [same]
      all_goals exact List.suffix_rfl
  | openLog _ _ _ _ _ shorter => exact shorter
  | accept | addExtent | truncate | persist | detach | scratch | syncLog | unlock | closeFailed | cursor
  | resetLog => exact List.suffix_rfl

theorem FileSteps.answers {kind : StepKind} {before after : FileState}
    (steps : FileSteps kind before after) : after.zbd.replies <:+ before.zbd.replies := by
  induction steps with
  | refl => exact List.suffix_rfl
  | tail _ step induction => exact step.answers.trans induction

/-! ## Operations are made of these steps -/

instance (kind : StepKind) : Std.Refl (FileSteps kind) := ⟨fun _ => .refl⟩

instance (kind : StepKind) : IsTrans FileState (FileSteps kind) :=
  ⟨fun _ _ _ one two => one.trans two⟩

/-- How a file operation ends: by steps, unless it does not end. -/
abbrev Walked (kind : StepKind) (state : FileState) (post : Value → FileState → Prop) :=
  Program.Along (FileSteps kind) (· = IOStatus.never) state post

structure Persisted (before after : FileState) : Prop where
  file : after.file = { before.file with nrSyncedExtents := after.file.nrSyncedExtents }
  zone : after.zbd.zone = before.zbd.zone
  buffer : after.buffer = before.buffer

theorem persistMetadata_walked (state : FileState) :
    Walked .write state (fun _ => Persisted state) (persistMetadata state) := by
  rw [persistMetadata, bind_read]
  cases deleted : state.file.isDeleted with
  | true =>
      simp only [if_true]
      split
      · exact .inl rfl
      · exact .here ⟨rfl, rfl, rfl⟩
  | false =>
      simp only [Bool.false_eq_true, if_false]
      rcases request_cases (.ioError "Failed to persist metadata") state.zbd with
        ⟨replies, shorter, run | ⟨_, run⟩⟩
      · rw [bind_of_ok (onDevice_of_ok run)]
        exact ⟨(FileSteps.answer shorter).tail (.persist deleted), rfl, rfl, rfl⟩
      · rw [bind_of_error (onDevice_of_error run)]
        exact .inr (FileSteps.answer shorter)

theorem persistMetadata_failing (state : FileState) (failure : IOStatus)
    (failed : (persistMetadata state).1 = .error failure) :
    failure = .never ∨ state.zbd.Failing := by
  rw [persistMetadata, bind_read] at failed
  cases deleted : state.file.isDeleted with
  | true =>
      simp only [deleted, if_true] at failed
      split at failed
      · cases failed
        exact .inl rfl
      · cases failed
  | false =>
      simp only [deleted, Bool.false_eq_true, if_false] at failed
      rcases request_cases (.ioError "Failed to persist metadata") state.zbd with
        ⟨replies, shorter, run | ⟨failing, run⟩⟩
      · rw [bind_of_ok (onDevice_of_ok run)] at failed
        cases failed
      · rw [bind_of_error (onDevice_of_error run)] at failed
        exact .inr failing

structure Synced (before after : FileState) : Prop where
  steps : ∀ kind, FileSteps kind before after
  file : after.file = before.file
  zone : after.zbd.zone = before.zbd.zone
  buffer : after.buffer = before.buffer

theorem Synced.refl (state : FileState) : Synced state state := ⟨fun _ => .refl, rfl, rfl, rfl⟩

theorem onceLogSync_synced {log : Nat} (opened : state.file.wal = some log) (message : String) :
    Synced state (onceLogSync log message state).2 := by
  rcases reply_cases 0 state.zbd with ⟨answer, replies, shorter, source, answered⟩
  simp only [onceLogSync, onDevice, Program.within, bind_of_ok answered]
  by_cases negative : answer < 0
  · rw [if_pos negative]
    have failing : state.zbd.Failing := by
      rcases source with rfl | member
      · simp at negative
      · exact ⟨answer, member, negative⟩
    refine ⟨fun kind => ?_, rfl, rfl, rfl⟩
    have failed : FileStep kind state { state with zbd := state.zbd.record (.walSyncFailed log) } :=
      .syncLog opened (.inr ⟨rfl, failing⟩)
    exact failed.steps.tail (.device (.answer shorter))
  · rw [if_neg negative]
    exact ⟨fun _ => (FileSteps.answer shorter).tail (.syncLog opened (.inl rfl)), rfl, rfl, rfl⟩

theorem onceLogSync_failing (log : Nat) {message : String} {failure : IOStatus}
    (failed : (onceLogSync log message state).1 = .error failure) :
    state.zbd.Failing ∧ failure ≠ .never := by
  rcases reply_cases 0 state.zbd with ⟨answer, replies, shorter, source, answered⟩
  simp only [onceLogSync, onDevice, Program.within, bind_of_ok answered] at failed
  by_cases negative : answer < 0
  · rw [if_pos negative] at failed
    cases failed
    refine ⟨?_, by simp⟩
    rcases source with rfl | member
    · simp at negative
    · exact ⟨answer, member, negative⟩
  · rw [if_neg negative] at failed
    cases failed

theorem walSync_synced (state : FileState) : Synced state (walSync state).2 := by
  rw [walSync, bind_read]
  cases opened : state.file.wal with
  | none => exact .refl state
  | some log => exact onceLogSync_synced opened _

theorem syncBeforeClose_synced (state : FileState) : Synced state (syncBeforeClose state).2 := by
  rw [syncBeforeClose, bind_read]
  cases state.file.isWal with
  | false => exact .refl state
  | true =>
      cases opened : state.file.wal with
      | none => exact .refl state
      | some log => exact onceLogSync_synced opened _

theorem syncBeforeClose_failing (state : FileState) (failure : IOStatus)
    (failed : (syncBeforeClose state).1 = .error failure) : state.zbd.Failing ∧ failure ≠ .never := by
  rw [syncBeforeClose, bind_read] at failed
  cases isWal : state.file.isWal with
  | false =>
      rw [isWal] at failed
      cases failed
  | true =>
      cases opened : state.file.wal with
      | none =>
          rw [isWal, opened] at failed
          cases failed
      | some log =>
          rw [isWal, opened] at failed
          exact onceLogSync_failing log failed

/-- `ReleaseActiveZone` and the tokens that come back with it. -/
def released (number : Nat) (state : FileState) : FileState :=
  { letGo number state with
    zbd := returnTokens (state.zbd.zone number).isFull (letGo number state).zbd }

theorem releaseActiveZone_of_closed {replies : List Int}
    (run : closeZone number state.zbd = (.ok (), { state.zbd with replies := replies })) :
    releaseActiveZone number state =
      (.ok (), released number { state with zbd := { state.zbd with replies := replies } }) := by
  have closed : (onDevice (closeZone number)).attempt state =
      (.ok (.ok ()), { state with zbd := { state.zbd with replies := replies } }) := by
    simp only [Program.attempt, onDevice, Program.within, run]
  rw [releaseActiveZone, bind_read, bind_of_ok closed, bind_update]
  simp only
  rw [bind_of_ok (show onDevice (Program.update putOpenIOZoneToken) _ = (.ok (), _) from rfl),
    released]
  cases full : (state.zbd.zone number).isFull with
  | true =>
      simp only [returnTokens, if_true]
      rfl
  | false =>
      simp only [returnTokens, Bool.false_eq_true, if_false]
      rfl

theorem releaseActiveZone_of_failed {replies : List Int} {failure : IOStatus}
    (run : closeZone number state.zbd = (.error failure, { state.zbd with replies := replies })) :
    releaseActiveZone number state =
      (.error failure, letGo number { state with zbd := { state.zbd with replies := replies } }) := by
  have closed : (onDevice (closeZone number)).attempt state =
      (.ok (.error failure), { state with zbd := { state.zbd with replies := replies } }) := by
    simp only [Program.attempt, onDevice, Program.within, run]
  rw [releaseActiveZone, bind_read, bind_of_ok closed, bind_update]
  rfl

theorem closeActiveZone_after_sync (state : FileState) :
    ∃ (synced : Except IOStatus Unit) (middle : FileState), Synced state middle ∧
      (∀ failure, synced = .error failure → state.zbd.Failing ∧ failure ≠ .never) ∧
      closeActiveZone state = (match middle.file.activeZone, synced with
        | some number, _ => releaseActiveZone number
        | none, .ok () => pure ()
        | none, .error failure => Program.fail failure : FileProgram Unit) middle := by
  have sync := syncBeforeClose_synced state
  have fails := syncBeforeClose_failing state
  rcases run : syncBeforeClose state with ⟨synced, middle⟩
  rw [run] at sync fails
  exact ⟨synced, middle, sync, fails, (bind_attempt run).trans (bind_read middle)⟩

theorem closeActiveZone_left
    (held : state.file.activeZone = some number) (full : (state.zbd.zone number).isFull = true) :
    Walked .write state (fun _ next => next.file = { state.file with activeZone := none } ∧
        next.buffer = state.buffer)
      (closeActiveZone state) := by
  rcases closeActiveZone_after_sync state with ⟨synced, middle, sync, _, unfolded⟩
  rw [unfolded, sync.file]
  simp only [held]
  have stillFull : (middle.zbd.zone number).isFull = true := by
    rw [sync.zone]
    exact full
  have closed : closeZone number middle.zbd =
      (.ok (), { middle.zbd with replies := middle.zbd.replies }) := by
    rw [closeZone, bind_read, stillFull, Bool.or_true, if_pos rfl]
    rfl
  rw [releaseActiveZone_of_closed closed]
  have left := FileStep.leave (sync.file ▸ held : middle.file.activeZone = some number) stillFull
  refine ⟨(sync.steps .write).tail ?_, ?_, sync.buffer⟩
  · rw [released, stillFull]
    exact left
  · rw [← sync.file]
    rfl

def Closed (state : FileState) : Except IOStatus Unit × FileState → Prop
  | (.ok _, next) => FileSteps .shut state next ∧
      next.file = { state.file with activeZone := none } ∧ next.buffer = state.buffer
  | (.error failure, next) => FileSteps .shut state next ∧ next.buffer = state.buffer ∧
      state.zbd.Failing ∧ failure ≠ .never

theorem closeActiveZone_closed (unlocked : state.file.openForWr = false) :
    Closed state (closeActiveZone state) := by
  rcases closeActiveZone_after_sync state with ⟨synced, middle, sync, fails, unfolded⟩
  have still : middle.file.openForWr = false := sync.file ▸ unlocked
  rw [unfolded]
  cases held : middle.file.activeZone with
  | some number =>
      rcases closeZone_cases number middle.zbd with ⟨replies, shorter, run | ⟨failing, failure, run⟩⟩
      · simp only
        rw [releaseActiveZone_of_closed run]
        have closed : FileStep .shut { middle with zbd := { middle.zbd with replies := replies } } _ :=
          .close held still
        refine ⟨((sync.steps .shut).trans (FileSteps.answer shorter)).tail closed, ?_, sync.buffer⟩
        rw [← sync.file]
        rfl
      · simp only
        rw [releaseActiveZone_of_failed run]
        have failed := FileStep.closeFailed held still failing
        have letting : FileSteps .shut middle (letGo number
            { middle with zbd := { middle.zbd with replies := replies } }) :=
          failed.steps.tail (.device (.answer shorter))
        refine ⟨(sync.steps .shut).trans letting, sync.buffer, failing.before (sync.steps .shut).answers, ?_⟩
        exact closeZone_ends run
  | none =>
      cases synced with
      | error failure => exact ⟨sync.steps .shut, sync.buffer, fails failure rfl⟩
      | ok =>
          refine ⟨sync.steps .shut, ?_, sync.buffer⟩
          rw [← sync.file, ← held]

/-- How `CloseWR` ends: what it writes comes before what it closes. -/
def Shut (state : FileState) : Except IOStatus Unit × FileState → Prop
  | (.ok _, next) => ∃ middle, FileSteps .write state middle ∧
      middle.zbd.zone = state.zbd.zone ∧ middle.file.activeZone = state.file.activeZone ∧
      FileSteps .shut middle next ∧ next.file.activeZone = none ∧ next.file.openForWr = false
  | (.error failure, next) => failure = .never ∨ state.zbd.Failing ∧
      ∃ middle, FileSteps .write state middle ∧ FileSteps .shut middle next

theorem closeWR_shut (state : FileState) : Shut state (closeWR state) := by
  have detached : FileStep .write state
      { state with file := { state.file with extentStart := noExtent } } := .detach
  rw [closeWR, bind_setFile]
  have persisted := persistMetadata_walked
    { state with file := { state.file with extentStart := noExtent } }
  have fails := persistMetadata_failing
    { state with file := { state.file with extentStart := noExtent } }
  rcases run : persistMetadata { state with file := { state.file with extentStart := noExtent } } with
    ⟨failure | value, middle⟩
  all_goals rw [run] at persisted fails
  · rw [bind_of_error run]
    rcases fails failure rfl with endless | failing
    · exact .inl endless
    · exact persisted.imp_right fun steps => ⟨failing, middle, detached.steps.trans steps, .refl⟩
  · rw [bind_of_ok run, bind_setFile]
    have kept := persisted.2
    have written := detached.steps.trans persisted.1
    have loose : middle.file.extentStart = noExtent := by rw [kept.file]
    have unlocked := FileStep.unlock loose
    have closed := @closeActiveZone_closed
      { middle with file := { middle.file with openForWr := false } } rfl
    rcases ended : closeActiveZone { middle with file := { middle.file with openForWr := false } } with
      ⟨failure | value, next⟩
    all_goals rw [ended] at closed
    · exact .inr ⟨closed.2.2.1.before (FileSteps.answers written), middle, written,
        unlocked.steps.trans closed.1⟩
    · refine ⟨middle, written, kept.zone, ?_, unlocked.steps.trans closed.1, ?_, ?_⟩
      · rw [kept.file]
      · rw [closed.2.1]
      · rw [closed.2.1]

/-- How the search for a zone ends; a zone counts as taken once the file points at it. -/
def Granted (state : FileState) : Except IOStatus (Option Nat) × FileState → Prop
  | (.ok (some number), next) => FileSteps .write state (pointAt number next) ∧ next.buffer = state.buffer
  | (.ok none, next) => FileSteps .write state next
  | (.error failure, next) => failure = .never ∨ FileSteps .write state next

theorem grantZone_granted (idle : state.file.activeZone = none) :
    Granted state (grantZone state) := by
  rw [grantZone, bind_read]
  cases isWal : state.file.isWal with
  | false =>
      simp only [Bool.false_eq_true, if_false]
      have ended := allocateIOZone_cases state.file.lifetime (state.file.ioType == .wal) state.zbd
      rcases run : allocateIOZone state.file.lifetime (state.file.ioType == .wal) state.zbd with
        ⟨failure | _ | number, zbd⟩
      all_goals rw [run] at ended
      · rw [onDevice_of_error run]
        exact ended.imp_right FileSteps.device
      · rw [onDevice_of_ok run]
        exact FileSteps.device ended
      · rw [onDevice_of_ok run]
        rcases ended with ⟨middle, taken, steps, take, rfl⟩
        exact ⟨(FileSteps.device steps).tail (.takeIo idle isWal take), rfl⟩
  | true =>
      simp only [if_true]
      have ended := allocateWALZone_cases state.file.wal
        (ZoneFile.lastExtentZone state.file.extents) state.zbd
      rcases run : allocateWALZone state.file.wal (ZoneFile.lastExtentZone state.file.extents)
        state.zbd with ⟨failure | grant, zbd⟩
      all_goals rw [run] at ended
      · rw [bind_of_error (onDevice_of_error run)]
        exact ended.imp_right FileSteps.device
      · rw [bind_of_ok (onDevice_of_ok run), bind_setFile]
        rcases ended with ⟨middle, number, log, steps, take, zone, wal, failing⟩
        rw [wal]
        cases status : grant.status with
        | error failure =>
            exact .inr ((FileSteps.device steps).tail
              (.takeWalFailed idle isWal take (failing failure status)))
        | ok =>
            rw [zone]
            exact ⟨(FileSteps.device steps).tail (.takeWal idle isWal take), rfl⟩

theorem allocateNewZone_walked (idle : state.file.activeZone = none) :
    Walked .write state (fun _ next => next.file.activeZone.isSome ∧ next.buffer = state.buffer)
      (allocateNewZone state) := by
  have granted := grantZone_granted idle
  rcases run : grantZone state with ⟨failure | _ | number, next⟩
  all_goals rw [run] at granted
  · rw [allocateNewZone, bind_of_error run]
    exact granted
  · rw [allocateNewZone, bind_of_ok run]
    exact .inr granted
  · rw [allocateNewZone, bind_of_ok run]
    refine Program.Along.after granted.1 ((persistMetadata_walked _).weaken fun _ final kept => ⟨?_, ?_⟩)
    · rw [kept.file]
      rfl
    · exact kept.buffer.trans granted.2

theorem ensureActiveZone_walked (state : FileState) :
    Walked .write state (fun _ next => next.file.activeZone.isSome ∧ next.buffer = state.buffer)
      (ensureActiveZone state) := by
  rw [ensureActiveZone, bind_read]
  cases held : state.file.activeZone with
  | some number => exact .here ⟨by rw [held]; rfl, rfl⟩
  | none => exact allocateNewZone_walked held

theorem leaveFullZone_walked {number target wrSize left : Nat}
    (held : state.file.activeZone = some number)
    (inside : state.file.isSparse = false →
      target + ((state.buffer.drop wrSize).take left).length ≤ state.buffer.length) :
    Walked .write state (fun _ next => next.file.activeZone.isSome)
      (leaveFullZone target wrSize left state) := by
  rw [leaveFullZone, bind_read]
  split
  · rename_i full
    have isFull : (state.zbd.zone number).isFull = true := by
      rw [active, activeNumber, held] at full
      exact beq_iff_eq.mpr full
    refine .bind (closeActiveZone_left held isFull) fun _ closed steps same => ?_
    rw [bind_update]
    have moved : FileStep .write closed (moveRest target wrSize left closed) := by
      refine .scratch _ _ _ fun plain => ?_
      rw [same.2, Bytes.length_overwrite]
      exact inside (steps.constant.isSparse.symm.trans plain)
    refine Program.Along.after moved.steps ((allocateNewZone_walked ?_).weaken fun _ _ taken => taken.1)
    show closed.file.activeZone = none
    rw [same.1]
  · exact .here (by rw [held]; rfl)

/-! ## Writes -/

theorem advanceAll_append (number : Nat) (first second : List Bytes) (zbd : ZonedBlockDevice) :
    zbd.advanceAll number (first ++ second) = (zbd.advanceAll number first).advanceAll number second :=
  List.foldl_append

theorem writeLoop_cases (number : Nat) (answers : List Int) (data : Bytes) (zbd : ZonedBlockDevice) :
    ∃ chunks replies outcome, replies <:+ answers ∧
      writeLoop number answers data zbd =
        (outcome, { zbd.advanceAll number chunks with replies := replies }) ∧
      chunks.flatten <+: data ∧ (outcome = .ok () → chunks.flatten = data) ∧
      outcome ≠ .error .never := by
  have done (answers : List Int) (zbd : ZonedBlockDevice) :
      writeLoop number answers [] zbd = (.ok (), { zbd with replies := answers }) := by
    cases answers <;> rfl
  induction answers generalizing data zbd with
  | nil =>
      cases data with
      | nil => exact ⟨[], [], .ok (), List.suffix_rfl, done _ _, List.prefix_rfl, fun _ => rfl, nofun⟩
      | cons byte rest =>
          exact ⟨[byte :: rest], [], .ok (), List.suffix_rfl, rfl, by simp, fun _ => by simp, nofun⟩
  | cons answer answers induction =>
      cases data with
      | nil =>
          exact ⟨[], answer :: answers, .ok (), List.suffix_rfl, done _ _, List.prefix_rfl,
            fun _ => rfl, nofun⟩
      | cons byte rest =>
          by_cases negative : answer < 0
          · refine ⟨[], answers, .error (.ioError "pwrite"), List.suffix_cons _ _, ?_,
              List.nil_prefix, nofun, by simp⟩
            rw [writeLoop, if_pos negative]
            · rfl
            · nofun
          · rcases induction ((byte :: rest).drop answer.toNat)
              (zbd.advance number ((byte :: rest).take answer.toNat)) with
              ⟨chunks, replies, outcome, shorter, run, part, whole, ends⟩
            have cut := List.take_append_drop answer.toNat (byte :: rest)
            refine ⟨(byte :: rest).take answer.toNat :: chunks, replies, outcome,
              shorter.trans (List.suffix_cons _ _), ?_, ?_, fun returned => ?_, ends⟩
            · rw [writeLoop, if_neg negative]
              · exact run
              · nofun
            · rw [List.flatten_cons]
              nth_rewrite 2 [← cut]
              exact (List.prefix_append_right_inj _).mpr part
            · rw [List.flatten_cons, whole returned, cut]

theorem appendZone_cases (number : Nat) (data : Bytes) (zbd : ZonedBlockDevice) :
    (∃ failure, appendZone number data zbd = (.error failure, zbd) ∧ failure ≠ .never) ∨
      ∃ chunks replies outcome, replies <:+ zbd.replies ∧
        appendZone number data zbd =
          (outcome, { zbd.advanceAll number chunks with replies := replies }) ∧
        chunks.flatten.length ≤ (zbd.zone number).capacity ∧
        (outcome = .ok () → chunks.flatten = data) ∧ outcome ≠ .error .never := by
  rw [appendZone, bind_read]
  by_cases short : (zbd.zone number).capacity < data.length
  · rw [if_pos short]
    exact .inl ⟨_, rfl, by simp⟩
  · rw [if_neg short]
    rcases writeLoop_cases number zbd.replies data zbd with
      ⟨chunks, replies, outcome, shorter, run, part, whole, ends⟩
    exact .inr ⟨chunks, replies, outcome, shorter, run, Nat.le_trans part.length_le (by omega),
      whole, ends⟩

theorem appendZone_extend
    (held : state.file.activeZone = some number) (isWal : state.file.isWal = false) (data : Bytes)
    {header length : Nat}
    (inside : state.file.isSparse = false → header = 0 ∧ length ≤ data.length) :
    Walked .write state (fun _ next => next.file.activeZone = some number ∧ next.buffer = state.buffer)
      ((do onDevice (appendZone state.activeNumber data)
           Program.update (addExtent header length) : FileProgram Unit) state) := by
  have same : state.activeNumber = number := by rw [activeNumber, held]; rfl
  rw [same]
  rcases appendZone_cases number data state.zbd with
    ⟨failure, run, _⟩ | ⟨chunks, replies, outcome, shorter, run, room, whole, _⟩
  · rw [bind_of_error (onDevice_of_error run)]
    exact .inr .refl
  · cases outcome with
    | error failure =>
        rw [bind_of_error (onDevice_of_error run)]
        refine .inr ((FileStep.write held room).steps.tail (.device (.answer ?_)))
        simpa [advanceAll_eq] using shorter
    | ok =>
        rw [bind_of_ok (onDevice_of_ok run)]
        have swapped : { state.zbd.advanceAll number chunks with replies := replies } =
            { state.zbd with replies := replies }.advanceAll number chunks := by
          rw [advanceAll_eq, advanceAll_eq]
        refine ⟨(FileSteps.answer shorter).tail ?_, held, rfl⟩
        rw [swapped]
        refine .extend held isWal room ?_
        rw [whole rfl]
        exact inside

structure Fits (state : FileState) (left : Nat) : Prop where
  blocks : state.zbd.blockSize ∣ 2 ^ 20
  memory : state.buffer.length = 2 ^ 20
  left : left ≤ 2 ^ 20

theorem Fits.keep {before after : FileState} {left rest : Nat} (fits : Fits before left)
    (constant : Constant before after) (plain : before.file.isSparse = false) (less : rest ≤ left) :
    Fits after rest where
  blocks := constant.device.blockSize ▸ fits.blocks
  memory := (constant.memory plain).trans fits.memory
  left := Nat.le_trans less fits.left

theorem Fits.padded {left wrSize : Nat} (fits : Fits state left)
    (part : wrSize ≤ left) : wrSize + padSize state.zbd.blockSize wrSize ≤ 2 ^ 20 := by
  rcases fits.blocks with ⟨count, blocks⟩
  have bound := fits.left
  rcases padSize_eq state.zbd.blockSize wrSize with ⟨_, pad⟩ | ⟨ragged, pad⟩
  · omega
  · have positive : 0 < state.zbd.blockSize := by
      apply Nat.pos_of_ne_zero
      intro zero
      simp [zero] at blocks
    have split := Nat.div_add_mod wrSize state.zbd.blockSize
    have below := Nat.mod_lt wrSize positive
    have quotient : wrSize / state.zbd.blockSize < count := by
      apply Nat.div_lt_of_lt_mul
      have different : wrSize ≠ state.zbd.blockSize * count := by
        rintro rfl
        simp at ragged
      omega
    have whole : state.zbd.blockSize * (wrSize / state.zbd.blockSize + 1) ≤
        state.zbd.blockSize * count := Nat.mul_le_mul_left _ quotient
    rw [Nat.mul_add] at whole
    omega

theorem Fits.memory_padBuffer {left wrSize : Nat} (fits : Fits state left) (part : wrSize ≤ left) :
    (padBuffer state.zbd.blockSize wrSize state.buffer).length = 2 ^ 20 := by
  have room := fits.padded part
  rw [padBuffer, Bytes.length_overwrite, fits.memory]
  rw [List.length_replicate, fits.memory]
  exact room

theorem bufferedBarrier_walked (config : BuildConfig) (state : FileState) :
    Walked .write state (fun _ next => next.file.activeZone = state.file.activeZone ∧
        next.buffer = state.buffer)
      (bufferedBarrier config state) := by
  rw [bufferedBarrier, bind_read]
  split
  · have sync := walSync_synced state
    rcases run : walSync state with ⟨outcome, middle⟩
    rw [run] at sync
    have attempted : walSync.attempt state = (.ok outcome, middle) := by
      rw [Program.attempt, run]
    rw [bind_of_ok attempted]
    have reset : FileStep .write middle { middle with
        file := { middle.file with appendBytesSinceLastBarrier := 0 } } :=
      .scratch middle.buffer middle.file.walSeq 0 fun _ => rfl
    have same : middle.file.activeZone = state.file.activeZone :=
      congrArg ZoneFile.activeZone sync.file
    exact ⟨(sync.steps .write).tail reset, same, sync.buffer⟩
  · exact .here ⟨rfl, rfl⟩

theorem zoneAppend_cases (call : AppendCall) (zbd : ZonedBlockDevice) :
    ∃ replies, replies <:+ zbd.replies ∧
      ((∃ failure, zoneAppend call zbd = (.error failure, { zbd with replies := replies })) ∨
        (call.size ≤ (zbd.zone call.zone).capacity ∧
          zoneAppend call zbd = (.ok (), { zbd with replies := replies }.accept call))) := by
  rw [zoneAppend, bind_read]
  by_cases short : (zbd.zone call.zone).capacity < call.size
  · rw [if_pos short]
    exact ⟨zbd.replies, List.suffix_rfl, .inl ⟨_, rfl⟩⟩
  · rw [if_neg short]
    rcases request_cases (.ioError "Success") zbd with ⟨replies, shorter, run | ⟨_, run⟩⟩
    · refine ⟨replies, shorter, .inr ⟨by omega, ?_⟩⟩
      rw [bind_of_ok run]
      rfl
    · exact ⟨replies, shorter, .inl ⟨_, bind_of_error run⟩⟩

theorem zoneAppend_walked
    (held : state.file.activeZone = some number) (isWal : state.file.isWal = true)
    (log size length seq left : Nat) :
    ∃ outcome next,
      onDevice (zoneAppend (state.appendCall log size length seq left)) state = (outcome, next) ∧
      FileSteps .write state next ∧ next.file = state.file ∧ next.buffer = state.buffer := by
  have zone : (state.appendCall log size length seq left).zone = number := by
    rw [appendCall, activeNumber, held]
    rfl
  rcases zoneAppend_cases (state.appendCall log size length seq left) state.zbd with
    ⟨replies, shorter, ⟨failure, run⟩ | ⟨room, run⟩⟩
  · exact ⟨_, _, onDevice_of_error run, FileSteps.answer shorter, rfl, rfl⟩
  · refine ⟨_, _, onDevice_of_ok run, (FileSteps.answer shorter).tail ?_, rfl, rfl⟩
    rw [zone] at room
    refine .accept held isWal zone room ?_
    simp only [appendCall, active, activeNumber, held]
    rfl

theorem bufferedWriteActive_walked
    (held : state.file.activeZone = some number) (isWal : state.file.isWal = true)
    (size length left : Nat) :
    Walked .write state (fun _ next => next.file.activeZone = some number ∧ next.buffer = state.buffer)
      (bufferedWriteActive size length left state) := by
  rw [bufferedWriteActive, bind_read, if_pos isWal]
  cases opened : state.file.wal with
  | none => exact .inl rfl
  | some log =>
      rcases zoneAppend_walked held isWal log size length state.file.walSeq left with
        ⟨outcome, next, run, steps, file, buffer⟩
      simp only
      have attempted : (onDevice (zoneAppend
          (state.appendCall log size length state.file.walSeq left))).attempt state =
          (.ok outcome, next) := by
        rw [Program.attempt, run]
      rw [bind_of_ok attempted, bind_setFile]
      have counted := steps.tail (.scratch next.buffer next.file.walSeq
        (next.file.appendBytesSinceLastBarrier + size) fun _ => rfl)
      cases outcome with
      | error failure => exact .inr counted
      | ok =>
          have same : next.file.activeZone = some number := file ▸ held
          exact ⟨counted, same, buffer⟩

theorem addExtent_walked
    (held : state.file.activeZone = some number) (isWal : state.file.isWal = true)
    (header length : Nat) :
    Walked .write state (fun _ next => next.file.activeZone = some number ∧ next.buffer = state.buffer)
      ((Program.update (FileState.addExtent header length) : FileProgram Unit) state) :=
  .update (FileStep.addExtent held isWal).steps ⟨held, rfl⟩

theorem bufferedWrite_extend
    (held : state.file.activeZone = some number) {size length : Nat} (left : Nat)
    (inside : state.file.isWal = false → length ≤ (state.buffer.take size).length) :
    Walked .write state (fun _ next => next.file.activeZone = some number ∧ next.buffer = state.buffer)
      ((do bufferedWriteActive size length left
           Program.update (FileState.addExtent 0 length) : FileProgram Unit) state) := by
  cases isWal : state.file.isWal with
  | true =>
      refine .bind (bufferedWriteActive_walked held isWal size length left)
        fun _ middle steps same => ?_
      refine (addExtent_walked same.1 (steps.constant.isWal.trans isWal) 0 length).weaken ?_
      intro _ next after
      exact ⟨after.1, after.2.trans same.2⟩
  | false =>
      have unfolded : bufferedWriteActive size length left state =
          onDevice (appendZone state.activeNumber (state.buffer.take size)) state := by
        rw [bufferedWriteActive, bind_read, isWal]
        rfl
      rw [bind_of_eq unfolded]
      exact appendZone_extend held isWal (state.buffer.take size) fun _ => ⟨rfl, inside isWal⟩

theorem bufferedAppendPass_walked (config : BuildConfig) {number left : Nat}
    (held : state.file.activeZone = some number) (plain : state.file.isSparse = false)
    (fits : Fits state left) :
    Walked .write state (fun rest next => next.file.activeZone.isSome ∧ Fits next rest)
      (bufferedAppendPass config left state) := by
  rw [bufferedAppendPass, bind_read]
  generalize size : state.clipWrite left ((config.walBarrierSize + 2 ^ 64 -
    state.file.appendBytesSinceLastBarrier) % 2 ^ 64) = wrSize
  have part : wrSize ≤ left := by
    rw [← size, clipWrite]
    split
    · omega
    · omega
  rw [bind_update]
  have padded := fits.padded part
  have memory := fits.memory_padBuffer part
  have pad : FileStep .write state { state with
      buffer := padBuffer state.zbd.blockSize wrSize state.buffer } :=
    .scratch _ _ _ fun _ => memory.trans fits.memory.symm
  refine Program.Along.after pad.steps ?_
  refine .bind (bufferedBarrier_walked config _) fun _ synced steps same => ?_
  rw [← Program.bind_assoc]
  refine .bind (bufferedWrite_extend (same.1.trans held) left fun _ => ?_) fun _ extended more kept => ?_
  · rw [List.length_take, same.2, memory]
    omega
  have bound := fits.left
  refine .bind (leaveFullZone_walked kept.1 fun _ => ?_) fun _ next onward left => ?_
  · rw [kept.2, same.2, List.length_take, List.length_drop, memory]
    omega
  · refine .here ⟨left, fits.keep ?_ plain (by omega)⟩
    exact pad.constant.trans (steps.constant.trans (more.constant.trans onward.constant))

theorem bufferedAppendLoop_walked (config : BuildConfig) (fuel : Nat)
    {left : Nat} (held : state.file.activeZone.isSome) (plain : state.file.isSparse = false)
    (fits : Fits state left) :
    Walked .write state (fun _ _ => True) (bufferedAppendLoop config fuel left state) := by
  induction fuel generalizing state left with
  | zero =>
      cases left with
      | zero => exact .here trivial
      | succ left => exact .inl rfl
  | succ fuel induction =>
      cases left with
      | zero => exact .here trivial
      | succ left =>
          rcases Option.isSome_iff_exists.mp held with ⟨number, held⟩
          refine .bind (bufferedAppendPass_walked config held plain fits)
            fun rest next steps kept => ?_
          exact induction kept.1 (steps.constant.isSparse.trans plain) kept.2

theorem bufferedAppend_walked (config : BuildConfig) (fuel : Nat) {left : Nat}
    (plain : state.file.isSparse = false) (fits : Fits state left) :
    Walked .write state (fun _ _ => True) (bufferedAppend config fuel left state) := by
  refine .bind (ensureActiveZone_walked state) fun _ next steps kept => ?_
  exact bufferedAppendLoop_walked config fuel kept.1 (steps.constant.isSparse.trans plain)
    (fits.keep steps.constant plain (Nat.le_refl left))

/-! ## Direct writes -/

theorem pushExtent_walked (state : FileState) :
    Walked .write state (fun _ next => next.file.activeZone = state.file.activeZone ∧
        ∀ number, (next.zbd.zone number).capacity = (state.zbd.zone number).capacity)
      (pushExtent state) := by
  have pushes : pushExtent state = (.ok (), pushed state) := rfl
  rw [pushes]
  refine ⟨FileStep.push.steps, ?_⟩
  rcases pushed_cases state with same | ⟨held, active, same⟩
  all_goals rw [same]
  · exact ⟨rfl, fun _ => rfl⟩
  · refine ⟨rfl, fun number => ?_⟩
    by_cases here : number = held
    · rw [here, zone_setZone]
    · rw [zone_setZone_of_ne here]

theorem appendZone_grow (held : state.file.activeZone = some number) (data : Bytes) {size : Nat}
    (whole : data.length = size) :
    Walked .write state (fun _ next => next.file.activeZone = some number)
      ((do onDevice (appendZone state.activeNumber data)
           setFile fun file => { file with fileSize := file.fileSize + size } :
        FileProgram Unit) state) := by
  have same : state.activeNumber = number := by rw [activeNumber, held]; rfl
  rw [same]
  rcases appendZone_cases number data state.zbd with
    ⟨failure, run, _⟩ | ⟨chunks, replies, outcome, shorter, run, room, taken, _⟩
  · rw [bind_of_error (onDevice_of_error run)]
    exact .inr .refl
  · cases outcome with
    | error failure =>
        rw [bind_of_error (onDevice_of_error run)]
        refine .inr ((FileStep.write held room).steps.tail (.device (.answer ?_)))
        simpa [advanceAll_eq] using shorter
    | ok =>
        rw [bind_of_ok (onDevice_of_ok run)]
        have swapped : { state.zbd.advanceAll number chunks with replies := replies } =
            { state.zbd with replies := replies }.advanceAll number chunks := by
          rw [advanceAll_eq, advanceAll_eq]
        have length : chunks.flatten.length = size := by rw [taken rfl, whole]
        refine ⟨(FileSteps.answer shorter).tail ?_, held⟩
        rw [swapped, ← length]
        exact .append held room

/-- The start of a pass of `Append`: a full zone is left. -/
def leaveForAppend : FileProgram Unit := do
  let state ← Program.read
  if state.active.capacity = 0 then
    pushExtent
    closeActiveZone
    allocateNewZone
  else pure ()

theorem directAppendLoop_succ (fuel : Nat) (byte : UInt8) (rest : Bytes) :
    directAppendLoop (fuel + 1) (byte :: rest) = (do
      leaveForAppend
      let state ← Program.read
      let wrSize := min (byte :: rest).length state.active.capacity
      onDevice (appendZone state.activeNumber ((byte :: rest).take wrSize))
      setFile fun file => { file with fileSize := file.fileSize + wrSize }
      directAppendLoop fuel ((byte :: rest).drop wrSize)) := by
  funext state
  rw [directAppendLoop, leaveForAppend, Program.bind_assoc, bind_read, bind_read]
  split
  · rw [Program.bind_assoc, Program.bind_assoc]
  · rfl

theorem leaveForAppend_walked (held : state.file.activeZone.isSome) :
    Walked .write state (fun _ next => next.file.activeZone.isSome) (leaveForAppend state) := by
  rw [leaveForAppend, bind_read]
  split
  · rename_i full
    refine .bind (pushExtent_walked state) fun _ middle _ same => ?_
    rcases Option.isSome_iff_exists.mp held with ⟨number, active⟩
    refine .bind (closeActiveZone_left (same.1.trans active) ?_) fun _ closed _ released => ?_
    · rw [Zone.isFull, same.2, beq_iff_eq]
      rw [FileState.active, activeNumber, active] at full
      exact full
    · refine (allocateNewZone_walked ?_).weaken fun _ _ taken => taken.1
      rw [released.1]
  · exact .here held

theorem directAppendLoop_walked (fuel : Nat) (data : Bytes) (held : state.file.activeZone.isSome) :
    Walked .write state (fun _ _ => True) (directAppendLoop fuel data state) := by
  induction fuel generalizing state data with
  | zero =>
      cases data with
      | nil => exact .here trivial
      | cons => exact .inl rfl
  | succ fuel induction =>
      cases data with
      | nil => exact .here trivial
      | cons byte rest =>
          rw [directAppendLoop_succ]
          refine .bind (leaveForAppend_walked held) fun _ middle _ still => ?_
          rw [bind_read]
          rcases Option.isSome_iff_exists.mp still with ⟨number, active⟩
          rw [← Program.bind_assoc]
          refine .bind (appendZone_grow active _ ?_) fun _ next _ kept => ?_
          · rw [List.length_take]
            omega
          · exact induction _ (by rw [kept]; rfl)

theorem directAppend_walked (fuel : Nat) (state : FileState) (data : Bytes) :
    Walked .write state (fun _ _ => True) (directAppend fuel data state) :=
  .bind (ensureActiveZone_walked state) fun _ _ _ kept => directAppendLoop_walked fuel _ kept.1

/-! ## Sparse writes -/

theorem barrierSync_walked (config : BuildConfig) (state : FileState) :
    Walked .write state (fun _ next => next.file.activeZone = state.file.activeZone)
      (barrierSync config state) := by
  rw [barrierSync, bind_read]
  split
  · have sync := walSync_synced state
    rcases run : walSync state with ⟨failure | _, middle⟩
    all_goals rw [run] at sync
    · rw [bind_of_error run]
      exact .inr (sync.steps .write)
    · rw [bind_of_ok run]
      have reset : FileStep .write middle { middle with
          file := { middle.file with appendBytesSinceLastBarrier := 0 } } :=
        .scratch middle.buffer middle.file.walSeq 0 fun _ => rfl
      have same : middle.file.activeZone = state.file.activeZone :=
        congrArg ZoneFile.activeZone sync.file
      exact ⟨(sync.steps .write).tail reset, same⟩
  · exact .here rfl

theorem writeActive_walked
    (held : state.file.activeZone = some number) (isWal : state.file.isWal = true)
    (size length seq left : Nat) :
    Walked .write state (fun _ next => next.file.activeZone = some number)
      (writeActive size length seq left state) := by
  rw [writeActive, bind_read, if_pos isWal]
  cases opened : state.file.wal with
  | none => exact .inl rfl
  | some log =>
      rcases zoneAppend_walked held isWal log size length seq left with
        ⟨outcome, next, run, steps, file, buffer⟩
      cases outcome with
      | error failure =>
          simp only
          rw [bind_of_error run]
          exact .inr steps
      | ok =>
          simp only
          rw [bind_of_ok run]
          have same : next.file.activeZone = some number := file ▸ held
          exact ⟨steps.tail (.scratch next.buffer next.file.walSeq
            (next.file.appendBytesSinceLastBarrier + size) fun _ => rfl), same⟩

theorem sparseWrite_extend
    (held : state.file.activeZone = some number) (sparse : state.file.isSparse = true)
    (size header length seq left : Nat) :
    Walked .write state (fun _ next => next.file.activeZone = some number)
      ((do writeActive size length seq left
           Program.update (FileState.addExtent header length) : FileProgram Unit) state) := by
  cases isWal : state.file.isWal with
  | true =>
      refine .bind (writeActive_walked held isWal size length seq left)
        fun _ middle steps same => ?_
      exact (addExtent_walked same (steps.constant.isWal.trans isWal) header length).weaken
        fun _ _ kept => kept.1
  | false =>
      have unfolded : writeActive size length seq left state =
          onDevice (appendZone state.activeNumber (state.buffer.take size)) state := by
        rw [writeActive, bind_read, isWal]
        rfl
      rw [bind_of_eq unfolded]
      refine (appendZone_extend held isWal (state.buffer.take size) fun plain => ?_).weaken
        fun _ _ kept => kept.1
      rw [sparse] at plain
      cases plain

theorem sealSparse_step (sparse : state.file.isSparse = true)
    (wrSize length : Nat) : FileStep .write state (sealSparse wrSize length state) := by
  refine .scratch _ _ _ fun plain => ?_
  rw [sparse] at plain
  cases plain

theorem sparseWrite_sizes (config : BuildConfig) (left : Nat) (state : FileState) :
    ∃ wrSize extentLength size rest, sparseWrite config left state =
      (do Program.update (sealSparse wrSize extentLength)
          writeActive size extentLength state.file.walSeq left
          Program.update (FileState.addExtent state.file.headerSize extentLength)
          leaveFullZone state.file.headerSize wrSize rest
          pure rest : FileProgram Nat) state :=
  ⟨_, _, _, _, rfl⟩

theorem sparseWrite_walked (config : BuildConfig)
    (held : state.file.activeZone = some number) (sparse : state.file.isSparse = true)
    (left : Nat) :
    Walked .write state (fun _ next => next.file.activeZone.isSome) (sparseWrite config left state) := by
  rcases sparseWrite_sizes config left state with ⟨wrSize, extentLength, size, rest, unfolded⟩
  rw [unfolded, bind_update]
  refine Program.Along.after (sealSparse_step sparse wrSize extentLength).steps ?_
  rw [← Program.bind_assoc]
  have stillHeld : (sealSparse wrSize extentLength state).file.activeZone = some number := held
  have stillSparse : (sealSparse wrSize extentLength state).file.isSparse = true := sparse
  refine .bind (sparseWrite_extend stillHeld stillSparse _ _ _ _ _) fun _ extended more kept => ?_
  refine .bind (leaveFullZone_walked kept fun plain => ?_) fun _ next _ taken => .here taken
  have extendedSparse : extended.file.isSparse = true := more.constant.isSparse.trans stillSparse
  rw [extendedSparse] at plain
  cases plain

theorem sparseAppendPass_walked (config : BuildConfig)
    (held : state.file.activeZone = some number) (sparse : state.file.isSparse = true)
    (left : Nat) :
    Walked .write state (fun _ next => next.file.activeZone.isSome)
      (sparseAppendPass config left state) :=
  .bind (barrierSync_walked config state) fun _ _ steps same =>
    sparseWrite_walked config (same.trans held) (steps.constant.isSparse.trans sparse) left

theorem sparseAppendLoop_walked (config : BuildConfig) (fuel : Nat)
    (left : Nat) (held : state.file.activeZone.isSome) (sparse : state.file.isSparse = true) :
    Walked .write state (fun _ _ => True) (sparseAppendLoop config fuel left state) := by
  induction fuel generalizing state left with
  | zero =>
      cases left with
      | zero => exact .here trivial
      | succ left => exact .inl rfl
  | succ fuel induction =>
      cases left with
      | zero => exact .here trivial
      | succ left =>
          rcases Option.isSome_iff_exists.mp held with ⟨number, held⟩
          exact .bind (sparseAppendPass_walked config held sparse (left + 1))
            fun rest next steps kept => induction rest kept (steps.constant.isSparse.trans sparse)

theorem sparseAppend_walked (config : BuildConfig) (fuel : Nat) (left : Nat)
    (sparse : state.file.isSparse = true) :
    Walked .write state (fun _ _ => True) (sparseAppend config fuel left state) :=
  .bind (ensureActiveZone_walked state) fun _ _ steps kept =>
    sparseAppendLoop_walked config fuel left kept.1 (steps.constant.isSparse.trans sparse)

end FileState

end Zwal
