import Zwal.Device.Geometry
import Zwal.File.WriterSteps

/-! # Where an ordinary file has its data

The extents of a file lie in zones of files, below their write pointers. Persisting the
file, closing its zone and looking for another one leave the content of the extents
alone; a write adds bytes at the write pointer of the active zone, where none of them is. -/

namespace Zwal.FileState

open ZonedBlockDevice Memory

structure Plain (file : ZoneFile) : Prop where
  isWal : file.isWal = false
  isSparse : file.isSparse = false

structure Laid (state : FileState) : Prop where
  spaced : Spaced state.zbd
  inside : ∀ extent ∈ state.file.extents, Within state.zbd extent.zone extent.start extent.length
  held : ∀ number, state.file.activeZone = some number → number ∈ state.zbd.ioZones

def Started (state : FileState) : Prop :=
  ∀ number, state.file.activeZone = some number →
    state.file.extentStart = (state.zbd.zone number).wp

structure Supplied (state : FileState) : Prop where
  writable : Writable state.zbd
  room : ∀ number, state.file.activeZone = some number → 0 < (state.zbd.zone number).capacity

def Aligned (state : FileState) : Prop :=
  ∀ extent ∈ state.file.extents, state.zbd.blockSize ∣ extent.start

/-- The bytes of the extents of a file, on a device that held `memory` before. -/
def content (memory : Nat → UInt8) (state : FileState) : Bytes :=
  contentOf (state.zbd.stored memory) state.file.extents

structure Keeps (before after : FileState) : Prop where
  device : Rests before.zbd after.zbd
  extents : after.file.extents = before.file.extents
  fileSize : after.file.fileSize = before.file.fileSize
  isWal : after.file.isWal = before.file.isWal
  isSparse : after.file.isSparse = before.file.isSparse

instance : Std.Refl Keeps := ⟨fun _ => ⟨Std.Refl.refl _, rfl, rfl, rfl, rfl⟩⟩

instance : IsTrans FileState Keeps where
  trans _ _ _ one two :=
    ⟨trans_of Rests one.device two.device, two.extents.trans one.extents,
      two.fileSize.trans one.fileSize, two.isWal.trans one.isWal, two.isSparse.trans one.isSparse⟩

theorem Keeps.plain {before after : FileState} (keeps : Keeps before after)
    (plain : Plain before.file) : Plain after.file :=
  ⟨keeps.isWal.trans plain.isWal, keeps.isSparse.trans plain.isSparse⟩

theorem Keeps.content {before after : FileState} (keeps : Keeps before after)
    (memory : Nat → UInt8) : content memory after = content memory before := by
  rw [FileState.content, FileState.content, keeps.device.stored, keeps.extents]

theorem Keeps.aligned {before after : FileState} (keeps : Keeps before after)
    (aligned : Aligned before) : Aligned after := by
  rw [Aligned, keeps.extents, keeps.device.fixed.blockSize]
  exact aligned

theorem Keeps.laid {before after : FileState} (keeps : Keeps before after) (laid : Laid before)
    (held : ∀ number, after.file.activeZone = some number → number ∈ before.zbd.ioZones) :
    Laid after := by
  have fixed := keeps.device.fixed
  refine ⟨keeps.device.spaced laid.spaced, ?_, ?_⟩
  · rw [keeps.extents]
    intro extent member
    exact (laid.inside extent member).rests keeps.device laid.spaced
  · rw [fixed.ioZones]
    exact held

/-! ## Operations that write no data -/

structure Saved (before after : FileState) : Prop where
  file : after.file = { before.file with nrSyncedExtents := after.file.nrSyncedExtents }
  buffer : after.buffer = before.buffer
  zone : after.zbd.zone = before.zbd.zone
  device : Rests before.zbd after.zbd

theorem Saved.keeps {before after : FileState} (saved : Saved before after) : Keeps before after := by
  refine ⟨saved.device, ?_, ?_, ?_, ?_⟩
  all_goals rw [saved.file]

theorem answer_rests (zbd : ZonedBlockDevice) (replies : List Int) :
    Rests zbd { zbd with replies := replies } :=
  .of_pointers (.withTokens _ _ _ _ _) (fun _ => rfl) fun _ => ⟨rfl, rfl⟩

theorem persistMetadata_saved (state : FileState) : Saved state (persistMetadata state).2 := by
  rw [persistMetadata, bind_read]
  cases deleted : state.file.isDeleted with
  | true =>
      simp only [if_true]
      split
      all_goals exact ⟨rfl, rfl, rfl, Std.Refl.refl _⟩
  | false =>
      simp only [Bool.false_eq_true, if_false]
      rcases request_cases (.ioError "Failed to persist metadata") state.zbd with
        ⟨replies, shorter, run | ⟨_, run⟩⟩
      · rw [bind_of_ok (onDevice_of_ok run)]
        have noted : Rests state.zbd ({ state.zbd with replies := replies }.record
            (.persist state.file.record)) := by
          refine .of_pointers (.withTokens _ _ _ _ _) (fun memory => ?_) fun _ => ⟨rfl, rfl⟩
          rw [ZonedBlockDevice.stored, ZonedBlockDevice.record, storedBy_append]
          rfl
        exact ⟨rfl, rfl, rfl, noted⟩
      · rw [bind_of_error (onDevice_of_error run)]
        exact ⟨rfl, rfl, rfl, answer_rests _ _⟩

theorem released_keeps (number : Nat) (state : FileState) : Keeps state (released number state) := by
  have idle : Rests state.zbd (state.zbd.setBusy number false) := .setZone rfl rfl rfl
  refine ⟨?_, rfl, rfl, rfl, rfl⟩
  have tokens : Rests (letGo number state).zbd (released number state).zbd := by
    rw [released]
    simp only [returnTokens]
    split
    all_goals exact .of_pointers (.withTokens _ _ _ _ _) (fun _ => rfl) fun _ => ⟨rfl, rfl⟩
  exact trans_of Rests idle tokens

theorem closeActiveZone_plain {state : FileState} (isWal : state.file.isWal = false) :
    closeActiveZone state = (match state.file.activeZone with
      | some number => releaseActiveZone number
      | none => pure () : FileProgram Unit) state := by
  have synced : syncBeforeClose.attempt state = (.ok (.ok ()), state) := by
    rw [Program.attempt, syncBeforeClose, bind_read, isWal]
    rfl
  rw [closeActiveZone, bind_of_ok synced, bind_read]
  cases state.file.activeZone with
  | none | some => rfl

theorem closeActiveZone_full {state : FileState} {number : Nat} (isWal : state.file.isWal = false)
    (held : state.file.activeZone = some number) (full : (state.zbd.zone number).isFull = true) :
    closeActiveZone state = (.ok (), released number state) := by
  have closed : closeZone number state.zbd =
      (.ok (), { state.zbd with replies := state.zbd.replies }) := by
    rw [closeZone, bind_read, full, Bool.or_true, if_pos rfl]
    rfl
  rw [closeActiveZone_plain isWal, held]
  exact releaseActiveZone_of_closed closed

/-- A zone is closed, and let go of even if that fails. -/
theorem closeActiveZone_keeps {state : FileState} (isWal : state.file.isWal = false) :
    Keeps state (closeActiveZone state).2 ∧ (closeActiveZone state).2.file.activeZone = none ∧
      (closeActiveZone state).2.buffer = state.buffer ∧
      (closeActiveZone state).1 ≠ .error .never := by
  rw [closeActiveZone_plain isWal]
  cases held : state.file.activeZone with
  | none => exact ⟨Std.Refl.refl _, held, rfl, by simp⟩
  | some number =>
      simp only
      rcases closeZone_cases number state.zbd with ⟨replies, shorter, run | ⟨_, failure, run⟩⟩
      · rw [releaseActiveZone_of_closed run]
        have answered : Keeps state { state with zbd := { state.zbd with replies := replies } } :=
          ⟨answer_rests _ _, rfl, rfl, rfl, rfl⟩
        exact ⟨trans_of Keeps answered (released_keeps _ _), rfl, rfl, by simp⟩
      · rw [releaseActiveZone_of_failed run]
        have idle : Rests { state.zbd with replies := replies }
            ({ state.zbd with replies := replies }.setBusy number false) := .setZone rfl rfl rfl
        refine ⟨⟨trans_of Rests (answer_rests _ _) idle, rfl, rfl, rfl, rfl⟩, rfl, rfl, ?_⟩
        intro ends
        exact closeZone_ends run (Except.error.inj ends)

/-- How `AllocateNewZone` ends, unless it waits for ever. -/
structure Allocated (before : FileState) (outcome : Except IOStatus Unit) (after : FileState) :
    Prop where
  keeps : Keeps before after
  buffer : after.buffer = before.buffer
  returned : outcome = .ok () → after.file.activeZone.isSome
  zone : ∀ number, after.file.activeZone = some number → number ∈ before.zbd.ioZones ∧
    after.file.extentStart = (after.zbd.zone number).wp ∧
    after.file.extentFilepos = after.file.fileSize ∧
    (Spaced before.zbd → Writable before.zbd → 0 < (after.zbd.zone number).capacity)

theorem allocateNewZone_allocated {state : FileState} (isWal : state.file.isWal = false)
    (idle : state.file.activeZone = none) :
    (allocateNewZone state).1 = .error .never ∨
      Allocated state (allocateNewZone state).1 (allocateNewZone state).2 := by
  have granting : grantZone state =
      onDevice (allocateIOZone state.file.lifetime (state.file.ioType == .wal)) state := by
    rw [grantZone, bind_read, isWal]
    rfl
  have ended := allocateIOZone_rests state.file.lifetime (state.file.ioType == .wal) state.zbd
  rcases run : allocateIOZone state.file.lifetime (state.file.ioType == .wal) state.zbd with
    ⟨failure | _ | number, zbd⟩
  all_goals rw [run] at ended
  · rw [allocateNewZone, bind_of_error (granting.trans (onDevice_of_error run))]
    rcases ended with ends | rests
    · exact .inl (by rw [ends])
    · refine .inr ⟨⟨rests, rfl, rfl, rfl, rfl⟩, rfl, by simp, fun number active => ?_⟩
      rw [idle] at active
      cases active
  · rw [allocateNewZone, bind_of_ok (granting.trans (onDevice_of_ok run))]
    refine .inr ⟨⟨ended, rfl, rfl, rfl, rfl⟩, rfl, (fun ends => by cases ends), fun number active => ?_⟩
    exact absurd (idle.symm.trans active) (by simp)
  · have unfolded : allocateNewZone state =
        persistMetadata (pointAt number { state with zbd := zbd }) :=
      bind_of_ok (granting.trans (onDevice_of_ok run))
    rw [unfolded]
    rcases ended with ⟨rests, member, room⟩
    right
    have pointed : Keeps state (pointAt number { state with zbd := zbd }) :=
      ⟨rests, rfl, rfl, rfl, rfl⟩
    have saved := persistMetadata_saved (pointAt number { state with zbd := zbd })
    have active : (persistMetadata (pointAt number { state with zbd := zbd })).2.file.activeZone =
        some number := by
      rw [saved.file]
      rfl
    refine ⟨trans_of Keeps pointed saved.keeps, saved.buffer, fun _ => ?_, fun other found => ?_⟩
    · exact Option.isSome_of_eq_some active
    · have same : other = number := Option.some_inj.mp (found.symm.trans active)
      refine ⟨?_, ?_, ?_, ?_⟩
      · rw [same, ← rests.fixed.ioZones]
        exact member
      · rw [same, saved.zone, saved.file]
        rfl
      · rw [saved.file]
        rfl
      · intro spaced writable
        rw [same, saved.zone]
        exact room spaced writable

theorem ensureActiveZone_cases (state : FileState) :
    (state.file.activeZone.isSome ∧ ensureActiveZone state = (.ok (), state)) ∨
      (state.file.activeZone = none ∧ ensureActiveZone state = allocateNewZone state) := by
  rw [ensureActiveZone, bind_read]
  cases held : state.file.activeZone with
  | some number => exact .inl ⟨rfl, rfl⟩
  | none => exact .inr ⟨rfl, rfl⟩

/-! ## Writes -/

/-- Bytes were written to a zone; `replies` are the answers that are left. -/
def wrote (number : Nat) (chunks : List Bytes) (replies : List Int) (state : FileState) : FileState :=
  { state with zbd := { state.zbd.advanceAll number chunks with replies := replies } }

theorem appendZone_wrote (number : Nat) (data : Bytes) (state : FileState) :
    ∃ chunks replies, chunks.flatten.length ≤ (state.zbd.zone number).capacity ∧
      ((∃ failure, failure ≠ .never ∧ onDevice (appendZone number data) state =
          (.error failure, wrote number chunks replies state)) ∨
        (chunks.flatten = data ∧ onDevice (appendZone number data) state =
          (.ok (), wrote number chunks replies state))) := by
  rcases appendZone_cases number data state.zbd with
    ⟨failure, run, ends⟩ | ⟨chunks, replies, outcome, _, run, room, whole, ends⟩
  · exact ⟨[], state.zbd.replies, Nat.zero_le _, .inl ⟨failure, ends, onDevice_of_error run⟩⟩
  · refine ⟨chunks, replies, room, ?_⟩
    cases outcome with
    | error failure =>
        exact .inl ⟨failure, fun never => ends (congrArg Except.error never), onDevice_of_error run⟩
    | ok => exact .inr ⟨whole rfl, onDevice_of_ok run⟩

section Wrote

variable {state : FileState} {number : Nat} {chunks : List Bytes} {replies : List Int}

theorem wrote_rests (number : Nat) (chunks : List Bytes) (replies : List Int) (state : FileState) :
    Rests (state.zbd.advanceAll number chunks) (wrote number chunks replies state).zbd :=
  answer_rests _ _

theorem Laid.wrote (laid : Laid state) (room : chunks.flatten.length ≤ (state.zbd.zone number).capacity) :
    Laid (wrote number chunks replies state) := by
  have spaced := @Spaced.advanceAll _ number chunks laid.spaced room
  have rests := wrote_rests number chunks replies state
  refine ⟨rests.spaced spaced, fun extent member => ?_, fun other held => ?_⟩
  · exact ((laid.inside extent member).advanceAll number chunks).rests rests spaced
  · have fixed := (advanceAll_fixed number chunks state.zbd).trans rests.fixed
    rw [fixed.ioZones]
    exact laid.held other held

theorem Laid.content_wrote (laid : Laid state) (member : number ∈ state.zbd.ioZones)
    (room : chunks.flatten.length ≤ (state.zbd.zone number).capacity) (memory : Nat → UInt8) :
    content memory (FileState.wrote number chunks replies state) = content memory state := by
  apply contentOf_congr
  intro extent listed
  rw [(wrote_rests number chunks replies state).stored]
  exact (laid.inside extent listed).bytesAt_advanceAll laid.spaced member room memory

structure Extended (data : Bytes) (length number : Nat) (before after : FileState) : Prop where
  fixed : Fixed before.zbd after.zbd
  laid : Laid after
  content : ∀ memory, content memory after = content memory before ++ data.take length
  fileSize : after.file.fileSize = before.file.fileSize + length
  plain : Plain after.file
  held : after.file.activeZone = some number
  started : Started after
  capacity : (after.zbd.zone number).capacity = (before.zbd.zone number).capacity - data.length
  buffer : after.buffer = before.buffer
  blocked : Blocked before.zbd → before.zbd.blockSize ∣ data.length → Blocked after.zbd
  aligned : Blocked before.zbd → Aligned before → Aligned after
  writable : Writable before.zbd → Writable after.zbd

theorem addExtent_extended (laid : Laid state) (plain : Plain state.file)
    (held : state.file.activeZone = some number) (started : Started state) {length : Nat}
    (room : chunks.flatten.length ≤ (state.zbd.zone number).capacity)
    (part : length ≤ chunks.flatten.length) :
    Extended chunks.flatten length number state
      (addExtent 0 length (FileState.wrote number chunks replies state)) := by
  have member := laid.held number held
  have same : (FileState.wrote number chunks replies state).activeNumber = number := by
    rw [activeNumber, FileState.wrote, held]
    rfl
  have written := @Laid.wrote _ number chunks replies laid room
  have counted : Rests (FileState.wrote number chunks replies state).zbd
      (addExtent 0 length (FileState.wrote number chunks replies state)).zbd := by
    rw [addExtent, same]
    refine .setZone ?_ ?_ ?_
    all_goals rw [FileState.active, same]
  have pointers : (FileState.wrote number chunks replies state).zbd.zone number =
      { state.zbd.zone number with
        wp := (state.zbd.zone number).wp + chunks.flatten.length
        capacity := (state.zbd.zone number).capacity - chunks.flatten.length } :=
    zone_advanceAll state.zbd number chunks
  have zone : (addExtent 0 length (FileState.wrote number chunks replies state)).zbd.zone number =
      { state.zbd.zone number with
        wp := (state.zbd.zone number).wp + chunks.flatten.length
        capacity := (state.zbd.zone number).capacity - chunks.flatten.length
        usedCapacity := (state.zbd.zone number).usedCapacity + .ofNat length } := by
    rw [addExtent, same, zone_setZone, FileState.active, same, pointers]
  have start : state.file.extentStart = (state.zbd.zone number).wp := started number held
  have fixed := (advanceAll_fixed number chunks state.zbd).trans
    ((wrote_rests number chunks replies state).fixed.trans counted.fixed)
  have extents : (addExtent 0 length (FileState.wrote number chunks replies state)).file.extents =
      state.file.extents ++ [⟨(state.zbd.zone number).wp, length, number⟩] := by
    rw [addExtent, same, ← start]
    rfl
  refine ⟨fixed, ⟨counted.spaced written.spaced, ?_, ?_⟩, fun memory => ?_, rfl,
    ⟨plain.isWal, plain.isSparse⟩, held, ?_, ?_, rfl, ?_, ?_, ?_⟩
  · rw [extents]
    intro extent listed
    rcases List.mem_append.mp listed with old | new
    · exact (written.inside extent old).rests counted written.spaced
    · rw [List.mem_singleton.mp new]
      refine ⟨fixed.ioZones ▸ member, ?_, ?_⟩
      · rw [fixed.start]
        exact laid.spaced.below number member
      · rw [zone]
        exact Nat.add_le_add_left part _
  · rw [fixed.ioZones]
    exact laid.held
  · have old := @Laid.content_wrote _ number chunks replies laid member room memory
    have fresh : bytesAt ((FileState.wrote number chunks replies state).zbd.stored memory)
        (state.zbd.zone number).wp length = chunks.flatten.take length := by
      rw [(wrote_rests number chunks replies state).stored, stored_advanceAll,
        ← take_bytesAt _ _ part, bytesAt_store]
    rw [FileState.content, counted.stored, extents, contentOf_append, contentOf_cons, contentOf_nil,
      List.append_nil, fresh]
    exact congrArg (· ++ chunks.flatten.take length) old
  · intro other active
    have here : other = number := Option.some_inj.mp (active.symm.trans held)
    rw [here, zone, addExtent, FileState.active, same, pointers]
  · rw [zone]
  · intro blocked whole
    have spaced := @Spaced.advanceAll _ number chunks laid.spaced room
    have rests := trans_of Rests (wrote_rests number chunks replies state) counted
    exact rests.blocked spaced (blocked.advanceAll whole)
  · intro blocked aligned
    rw [Aligned, extents, fixed.blockSize]
    intro extent listed
    rcases List.mem_append.mp listed with old | new
    · exact aligned extent old
    · rw [List.mem_singleton.mp new]
      exact blocked.wp number member
  · intro writable
    have spaced := @Spaced.advanceAll _ number chunks laid.spaced room
    have rests := trans_of Rests (wrote_rests number chunks replies state) counted
    exact rests.writable spaced (writable.advanceAll laid.spaced)

end Wrote

end Zwal.FileState
