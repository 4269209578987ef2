import Zwal.File.WalSteps
import Zwal.Fs.Encoding
import Zwal.Fs.MountSteps

/-! # The fill level of the barrier window after decoding

`SparseAppend` rounds header and payload of an entry up to whole blocks. `DecodeFrom` only
knows the extents, that is the payloads, and rounds those. -/

namespace Zwal.BarrierOffset

open FileState

variable {config : BuildConfig}

/-- Write-ahead logs made by calls of `SparseAppend`, with any arguments and any answers of
the device. Between two calls anything but the size and the extents may change. -/
inductive Written (config : BuildConfig) : FileState → Prop
  | created {state : FileState} (isWal : state.file.isWal = true) (extents : state.file.extents = [])
      (fileSize : state.file.fileSize = 0) : Written config state
  | append {state : FileState} (earlier : Written config state) (fuel dataSize : Nat) :
      Written config (sparseAppend config fuel dataSize state).2
  | between {before after : FileState} (earlier : Written config before)
      (isWal : after.file.isWal = true) (extents : after.file.extents = before.file.extents)
      (fileSize : after.file.fileSize = before.file.fileSize) : Written config after

structure Summed (state : FileState) : Prop where
  isWal : state.file.isWal = true
  fileSize : state.file.fileSize = (state.file.extents.map ZoneExtent.length).sum

theorem Summed.step {before after : FileState} (step : WalStep config before after)
    (summed : Summed before) : Summed after := by
  rcases summed with ⟨isWal, fileSize⟩
  cases step with
  | control step =>
      have quiet := step.quiet isWal
      refine ⟨quiet.isWal.trans isWal, ?_⟩
      rw [quiet.file]
      exact fileSize
  | barrier | unopened | scratch => exact ⟨isWal, fileSize⟩
  | append =>
      constructor
      · rw [written_file]
        exact isWal
      · rw [written_file]
        simp only [List.map_append, List.sum_append, List.map_cons, List.map_nil, List.sum_singleton,
          fileSize]

theorem Written.summed {state : FileState} (written : Written config state) : Summed state := by
  induction written with
  | created isWal extents fileSize => exact ⟨isWal, by rw [extents, fileSize]; rfl⟩
  | append earlier fuel dataSize induction =>
      exact (sparseAppend_steps fuel dataSize _).keep Summed.step induction
  | between earlier isWal extents fileSize induction =>
      exact ⟨isWal, by rw [extents, fileSize]; exact induction.fileSize⟩

/-! ## Two ways to round -/

/-- The bytes `SparseAppend` hands to the log for an entry. -/
def entrySize (length : Nat) : Nat := length + 16 + padSize sparseBlockSize (length + 16)

def logBytes (extents : List ZoneExtent) : Nat :=
  (extents.map fun extent => entrySize extent.length).sum

/-- The header of the entry does not fit into the padding of its payload. -/
def Spills (length : Nat) : Prop :=
  length % sparseBlockSize = 0 ∨ sparseBlockSize - 16 < length % sparseBlockSize

instance (length : Nat) : Decidable (Spills length) := by
  unfold Spills
  infer_instance

def spilling (extents : List ZoneExtent) : Nat :=
  extents.countP fun extent => decide (Spills extent.length)

theorem entrySize_eq (length : Nat) : entrySize length =
    length + padSize sparseBlockSize length + if Spills length then sparseBlockSize else 0 := by
  have payload := padSize_eq sparseBlockSize length
  have entry := padSize_eq sparseBlockSize (length + 16)
  rw [entrySize]
  by_cases spills : Spills length
  · rw [if_pos spills]
    simp only [Spills, sparseBlockSize] at payload entry spills ⊢
    omega
  · rw [if_neg spills]
    simp only [Spills, sparseBlockSize] at payload entry spills ⊢
    omega

theorem logBytes_eq (extents : List ZoneExtent) : logBytes extents =
    (extents.map ZoneExtent.length).sum + FileSystem.decodedPadding extents +
      sparseBlockSize * spilling extents := by
  induction extents with
  | nil => rfl
  | cons extent extents induction =>
      simp only [logBytes, FileSystem.decodedPadding, spilling, List.map_cons, List.sum_cons,
        List.countP_cons, decide_eq_true_eq] at induction ⊢
      rw [induction, entrySize_eq, Nat.mul_add]
      split
      · omega
      · omega

/-! ## Decoding -/

theorem placed_of_found {zbd : ZonedBlockDevice} {extents : List ZoneExtent}
    (found : ∀ extent ∈ extents, (zbd.getIOZone extent.start).isSome = true) :
    ∃ decoded, FileSystem.placed zbd extents = some decoded := by
  induction extents with
  | nil => exact ⟨[], rfl⟩
  | cons extent extents induction =>
      rcases Option.isSome_iff_exists.mp (found extent List.mem_cons_self) with ⟨number, first⟩
      rcases induction fun other member => found other (List.mem_cons_of_mem _ member) with
        ⟨decoded, rest⟩
      refine ⟨⟨extent.start, extent.length, number⟩ :: decoded, ?_⟩
      rw [FileSystem.placed_cons, FileSystem.placedExtent, first, rest]
      rfl

/-- Decoding restores the level of the barrier window exactly if the blocks that were not
counted fill whole windows. -/
theorem barrier_offset_restored_iff {state : FileState} (written : Written config state)
    (encodable : state.file.record.Encodable) (fs : FileSystem)
    (found : ∀ extent ∈ state.file.extents, (fs.zbd.getIOZone extent.start).isSome = true)
    (named : "" ∉ state.file.linkfiles) :
    ∃ restored, FileSystem.decodeFromBytes config (state.file.record.encodeTo 0) fs =
        (.ok fs.objects.length, restored) ∧
      ((restored.object fs.objects.length).file.appendBytesSinceLastBarrier ≡
          logBytes state.file.extents [MOD config.walBarrierSize] ↔
        config.walBarrierSize ∣ sparseBlockSize * spilling state.file.extents) := by
  rcases written.summed with ⟨isWal, fileSize⟩
  rcases placed_of_found found with ⟨decoded, placed⟩
  rcases @FileSystem.decodeFrom_of_placed config state.file.record _ _ _ placed named with ⟨replies, events, _, _, run⟩
  refine ⟨_, (FileSystem.decodeFromBytes_encodeTo config encodable 0 fs).trans run, ?_⟩
  have restored : (((fs.withDecoded state.file.record (FileSystem.decodedFile config state.file.record
      state.file.extents decoded (FileSystem.walOf fs.zbd state.file.extents))).quietly replies
      events).object fs.objects.length).file.appendBytesSinceLastBarrier =
      (state.file.fileSize + FileSystem.decodedPadding state.file.extents) % config.walBarrierSize := by
    simp [FileSystem.object, FileSystem.quietly, FileSystem.withDecoded, FileSystem.decodedFile,
      ZoneFile.record, isWal]
  have counted := Nat.mod_modEq (state.file.fileSize + FileSystem.decodedPadding state.file.extents)
    config.walBarrierSize
  rw [restored, logBytes_eq, ← fileSize]
  constructor
  · intro same
    have whole := (Nat.modEq_iff_dvd' (Nat.le_add_right _ _)).mp (counted.symm.trans same)
    rw [Nat.add_sub_cancel_left] at whole
    exact whole
  · intro whole
    apply counted.trans
    apply (Nat.modEq_iff_dvd' (Nat.le_add_right _ _)).mpr
    rw [Nat.add_sub_cancel_left]
    exact whole

def flushed (size : Nat) : FileState :=
  (sparseAppend smallConfig 1 size ⟨smallDevice 12288,
    { isWal := true, isSparse := true, linkfiles := ["/a.log"] }, List.replicate 8192 0⟩).2

theorem flushed_written (size : Nat) : Written smallConfig (flushed size) :=
  .append (.created rfl rfl rfl) 1 size

def mounting : FileSystem :=
  { zbd := smallDevice 12288, objects := [], files := [], nextFileId := 1, metaLog := [], rolls := [] }

theorem barrier_offset_restored_hundred :
    ∃ restored, FileSystem.decodeFromBytes smallConfig ((flushed 100).file.record.encodeTo 0) mounting =
        (.ok 0, restored) ∧
      (restored.object 0).file.appendBytesSinceLastBarrier ≡
        logBytes (flushed 100).file.extents [MOD smallConfig.walBarrierSize] := by
  have extents : (flushed 100).file.extents = [⟨49168, 100, 4⟩] := by decide +kernel
  have encodable : (flushed 100).file.record.Encodable :=
    ⟨by decide +kernel, by decide +kernel, by decide +kernel, by decide +kernel, by decide +kernel,
      by decide +kernel, by decide +kernel, by decide +kernel⟩
  rcases barrier_offset_restored_iff (flushed_written 100) encodable mounting (by decide +kernel)
    (by decide +kernel) with ⟨restored, run, level⟩
  refine ⟨restored, run, level.mpr ?_⟩
  rw [extents]
  decide +kernel

/-- A payload of one block takes two blocks of the log; decoding counts one. -/
theorem whole_block_not_restored :
    Written smallConfig (flushed 4096) ∧
    ∃ restored, FileSystem.decodeFromBytes smallConfig ((flushed 4096).file.record.encodeTo 0) mounting =
        (.ok 0, restored) ∧
      (restored.object 0).file.appendBytesSinceLastBarrier = 4096 ∧
      (flushed 4096).file.appendBytesSinceLastBarrier = 8192 ∧
      logBytes (flushed 4096).file.extents = 8192 ∧ smallConfig.walBarrierSize = 8192 := by
  refine ⟨flushed_written 4096, _, Prod.ext ?_ rfl, ?_, ?_, ?_, ?_⟩
  all_goals decide +kernel

end Zwal.BarrierOffset
