import Zwal.Fs.Runs

/-! # The walk of sparse recovery

`RecoverSparseExtents` follows the length fields of the entries from the recorded start of
an extent to the write pointer. No length is checked against the end, and the sum of a
length and its header is taken modulo 2^64. -/

namespace Zwal.SparseRecovery

open FileState ZonedBlockDevice

def answered (state : FileState) : FileState :=
  { state with zbd := { state.zbd with replies := state.zbd.replies.tail } }

/-- The length field of an entry at `next`. -/
def lengthField (device : Nat → UInt8) (next : Nat) : Nat :=
  Bytes.toNat (bytesAt device next 8)

/-- The highest sequence number found so far, once the entry at `next` was read. -/
def seqAfter (device : Nat → UInt8) (file : ZoneFile) (next walSeqRec : Nat) : Nat :=
  let seq := Bytes.toNat (bytesAt device (next + 8) 8)
  if file.hasLogName && walSeqRec < seq then seq else walSeqRec

/-- Whole entries lie end to end from `next` on, up to `stop` or up to a block that cannot
be read or whose length field is zero. -/
inductive Entries (device : Nat → UInt8) (blockSize header stop : Nat) : List Int → Nat → Prop
  | finished {replies : List Int} {next : Nat} (past : stop ≤ next) :
      Entries device blockSize header stop replies next
  | unread {replies : List Int} {next : Nat} (before : next < stop)
      (fails : replies.headD 0 < 0) : Entries device blockSize header stop replies next
  | blank {replies : List Int} {next : Nat} (before : next < stop)
      (zero : lengthField device next = 0) : Entries device blockSize header stop replies next
  | entry {replies : List Int} {next : Nat} (before : next < stop)
      (read : 0 ≤ replies.headD 0) (positive : 0 < lengthField device next)
      (whole : next + header + lengthField device next ≤ stop)
      (rest : Entries device blockSize header stop replies.tail
        (next + (header + lengthField device next +
          padSize blockSize (header + lengthField device next)))) :
      Entries device blockSize header stop replies next

structure Adds (number : Nat) (added : List ZoneExtent) (before after : FileState) : Prop where
  extents : after.file.extents = before.file.extents ++ added
  usedCapacity : (after.zbd.zone number).usedCapacity =
    (before.zbd.zone number).usedCapacity + .ofNat (added.map ZoneExtent.length).sum

/-- What was added lies between `start` and `stop`. -/
def Inside (number start stop : Nat) (before after : FileState) : Prop :=
  ∃ added, Adds number added before after ∧
    ∀ extent ∈ added, start ≤ extent.start ∧ extent.start + extent.length ≤ stop

/-- The walk from `next` returns, and what it added lies inside the bounds. -/
def Returns (device : Nat → UInt8) (number start stop walSeqRec next : Nat) (state : FileState) :
    Prop :=
  ∃ fuel outcome after,
    recoverSparseExtents device number stop fuel next walSeqRec state = (outcome, after) ∧
    outcome ≠ .error .never ∧ Inside number start stop state after

/-! ## One step of the walk -/

section

variable {device : Nat → UInt8} {number stop next walSeqRec : Nat} {state : FileState}

theorem walk_past (past : stop ≤ next) (fuel : Nat) :
    recoverSparseExtents device number stop (fuel + 1) next walSeqRec state =
      (.ok (), { state with file := { state.file with walSeq := walSeqRec } }) := by
  rw [FileSystem.recoverSparseExtents_succ, if_neg (Nat.not_lt.mpr past)]
  rfl

theorem walk_unread (before : next < stop) (fails : state.zbd.replies.headD 0 < 0) (fuel : Nat) :
    recoverSparseExtents device number stop (fuel + 1) next walSeqRec state =
      (.error (.ioError "Unexpected read error while recovering"),
        { answered state with file := { state.file with walSeq := walSeqRec } }) := by
  have asked := request_eq (.ioError "Unexpected read error while recovering") state.zbd
  rw [if_pos fails] at asked
  rw [FileSystem.recoverSparseExtents_succ, if_pos before,
    bind_of_ok (attempt_of_eq (onDevice_of_error asked))]
  rfl

theorem walk_read (before : next < stop) (read : 0 ≤ state.zbd.replies.headD 0) (fuel : Nat) :
    recoverSparseExtents device number stop (fuel + 1) next walSeqRec state =
      FileSystem.recoverEntry device number stop fuel next walSeqRec state
        (lengthField device next) (Bytes.toNat (bytesAt device (next + 8) 8)) (answered state) := by
  rw [FileSystem.recoverSparseExtents_succ, if_pos before,
    bind_of_ok (attempt_of_eq (onDevice_of_ok (request_of_answered read)))]
  rfl

theorem walk_blank (before : next < stop) (read : 0 ≤ state.zbd.replies.headD 0)
    (zero : lengthField device next = 0) (fuel : Nat) :
    recoverSparseExtents device number stop (fuel + 1) next walSeqRec state =
      (.error (.ioError "Unexpected extent length while recovering"),
        { answered state with file := { state.file with walSeq := walSeqRec } }) := by
  rw [walk_read before read, FileSystem.recoverEntry, if_pos zero]
  rfl

theorem walk_entry (before : next < stop) (read : 0 ≤ state.zbd.replies.headD 0)
    (positive : 0 < lengthField device next) (fuel : Nat) :
    recoverSparseExtents device number stop (fuel + 1) next walSeqRec state =
      recoverSparseExtents device number stop fuel
        ((next + extentBlocks state.zbd.blockSize state.file.headerSize (lengthField device next)) %
          2 ^ 64) (seqAfter device state.file next walSeqRec)
        (addRecovered number next (lengthField device next) (answered state)) := by
  rw [walk_read before read, FileSystem.recoverEntry, if_neg (by omega), bind_update]
  rfl

end

/-! ## Bounds -/

theorem extentBlocks_eq {blockSize header next length stop : Nat} (positive : 0 < blockSize)
    (whole : next + header + length ≤ stop) (small : stop + blockSize ≤ 2 ^ 64) :
    (next + extentBlocks blockSize header length) % 2 ^ 64 =
      next + (header + length + padSize blockSize (header + length)) := by
  have total : (length + header) % 2 ^ 64 = header + length := by
    rw [Nat.add_comm length, Nat.mod_eq_of_lt (by omega)]
  have split := Nat.div_add_mod (header + length) blockSize
  have below := Nat.mod_lt (header + length) positive
  have blocks : extentBlocks blockSize header length =
      header + length + padSize blockSize (header + length) := by
    simp only [extentBlocks, total]
    rcases padSize_eq blockSize (header + length) with ⟨even, pad⟩ | ⟨odd, pad⟩
    · rw [if_pos even, pad, Nat.mul_comm]
      omega
    · rw [if_neg odd, pad, Nat.add_mul, Nat.mul_comm, Nat.one_mul]
      omega
  have room : padSize blockSize (header + length) < blockSize := by
    rcases padSize_eq blockSize (header + length) with ⟨_, pad⟩ | ⟨odd, pad⟩
    all_goals omega
  rw [blocks, Nat.mod_eq_of_lt (by omega)]

namespace Adds

variable {number next length : Nat} {added : List ZoneExtent} {before after : FileState}

theorem nothing (extents : after.file.extents = before.file.extents)
    (zones : after.zbd.zone = before.zbd.zone) : Adds number [] before after :=
  ⟨by rw [extents, List.append_nil], by rw [zones]; exact (UInt64.add_zero _).symm⟩

theorem entry (rest : Adds number added (addRecovered number next length (answered before)) after) :
    Adds number (⟨next + before.file.headerSize, length, number⟩ :: added) before after := by
  constructor
  · rw [rest.extents]
    simp [addRecovered, answered]
  · rw [rest.usedCapacity]
    simp [addRecovered, answered, setZone, UInt64.add_assoc]

end Adds

theorem walk_adds (device : Nat → UInt8) (number stop fuel next walSeqRec : Nat)
    (state : FileState) : ∃ added, Adds number added state
      (recoverSparseExtents device number stop fuel next walSeqRec state).2 := by
  induction fuel generalizing next walSeqRec state with
  | zero => exact ⟨[], .nothing rfl rfl⟩
  | succ fuel induction =>
      by_cases past : stop ≤ next
      · rw [walk_past past]
        exact ⟨[], .nothing rfl rfl⟩
      have before := Nat.lt_of_not_le past
      by_cases fails : state.zbd.replies.headD 0 < 0
      · rw [walk_unread before fails]
        exact ⟨[], .nothing rfl rfl⟩
      have read := Int.not_lt.mp fails
      by_cases zero : lengthField device next = 0
      · rw [walk_blank before read zero]
        exact ⟨[], .nothing rfl rfl⟩
      · rw [walk_entry before read (Nat.pos_of_ne_zero zero)]
        rcases induction _ _ _ with ⟨added, rest⟩
        exact ⟨_, rest.entry⟩

namespace Inside

variable {number start stop next length : Nat} {before after : FileState}

theorem nothing (extents : after.file.extents = before.file.extents)
    (zones : after.zbd.zone = before.zbd.zone) : Inside number start stop before after := by
  refine ⟨[], .nothing extents zones, ?_⟩
  intro extent member
  cases member

theorem entry (ahead : start ≤ next) (whole : next + before.file.headerSize + length ≤ stop)
    (rest : Inside number start stop (addRecovered number next length (answered before)) after) :
    Inside number start stop before after := by
  rcases rest with ⟨added, adds, inside⟩
  refine ⟨_, adds.entry, ?_⟩
  intro extent member
  rcases List.mem_cons.mp member with rfl | member
  · exact ⟨Nat.le_trans ahead (Nat.le_add_right _ _), whole⟩
  · exact inside extent member

theorem of_entry (all : Inside number start stop before after) {added : List ZoneExtent}
    (rest : Adds number added (addRecovered number next length (answered before)) after) :
    next + before.file.headerSize + length ≤ stop ∧
      Inside number start stop (addRecovered number next length (answered before)) after := by
  rcases all with ⟨every, adds, inside⟩
  have same : every = ⟨next + before.file.headerSize, length, number⟩ :: added :=
    List.append_cancel_left (adds.extents.symm.trans rest.entry.extents)
  subst same
  exact ⟨(inside _ List.mem_cons_self).2, added, rest,
    fun extent member => inside extent (List.mem_cons_of_mem _ member)⟩

end Inside

section

variable {device : Nat → UInt8} {number start stop : Nat}

theorem returns_of_entries {blockSize header next : Nat} {replies : List Int}
    (positive : 0 < blockSize) (small : stop + blockSize ≤ 2 ^ 64) (ahead : start ≤ next)
    (entries : Entries device blockSize header stop replies next) {walSeqRec : Nat}
    {state : FileState} (block : state.zbd.blockSize = blockSize)
    (headers : state.file.headerSize = header) (script : state.zbd.replies = replies) :
    Returns device number start stop walSeqRec next state := by
  induction entries generalizing walSeqRec state with
  | finished past =>
      exact ⟨1, _, _, walk_past past 0, by simp, .nothing rfl rfl⟩
  | unread before fails =>
      rw [← script] at fails
      exact ⟨1, _, _, walk_unread before fails 0, by simp, .nothing rfl rfl⟩
  | @blank replies next before zero =>
      by_cases fails : state.zbd.replies.headD 0 < 0
      · exact ⟨1, _, _, walk_unread before fails 0, by simp, .nothing rfl rfl⟩
      · exact ⟨1, _, _, walk_blank before (Int.not_lt.mp fails) zero 0, by simp, .nothing rfl rfl⟩
  | @entry replies next before read some whole rest induction =>
      subst block headers script
      rcases @induction (by omega) (seqAfter device state.file next walSeqRec)
        (addRecovered number next (lengthField device next) (answered state)) rfl rfl rfl with
        ⟨fuel, outcome, after, run, returns, inside⟩
      refine ⟨fuel + 1, outcome, after, ?_, returns, .entry ahead whole inside⟩
      rw [walk_entry before read some, extentBlocks_eq positive whole small]
      exact run

theorem entries_of_returns {next walSeqRec : Nat} {state : FileState} (positive : 0 < state.zbd.blockSize)
    (small : stop + state.zbd.blockSize ≤ 2 ^ 64)
    (returns : Returns device number start stop walSeqRec next state) :
    Entries device state.zbd.blockSize state.file.headerSize stop state.zbd.replies next := by
  rcases returns with ⟨fuel, outcome, after, run, returns, inside⟩
  induction fuel generalizing next walSeqRec state with
  | zero =>
      cases run
      exact absurd rfl returns
  | succ fuel induction =>
      by_cases past : stop ≤ next
      · exact .finished past
      have before := Nat.lt_of_not_le past
      by_cases fails : state.zbd.replies.headD 0 < 0
      · exact .unread before fails
      have read := Int.not_lt.mp fails
      by_cases zero : lengthField device next = 0
      · exact .blank before zero
      have some := Nat.pos_of_ne_zero zero
      rw [walk_entry before read some] at run
      rcases walk_adds device number stop fuel _ _ _ with ⟨added, rest⟩
      rw [run] at rest
      have entry := inside.of_entry rest
      rw [extentBlocks_eq positive entry.1 small] at run
      exact .entry before read some entry.1 (@induction _ _
        (addRecovered number next (lengthField device next) (answered state)) positive small run entry.2)

end

/-- `RecoverSparseExtents` returns with every extent inside `[start, stop)` exactly if the
device holds whole entries there, up to the end or up to a block without an entry. -/
theorem sparse_recovery_inside_iff (device : Nat → UInt8) (number start stop : Nat)
    (state : FileState) (positive : 0 < state.zbd.blockSize)
    (small : stop + state.zbd.blockSize ≤ 2 ^ 64) :
    Returns device number start stop state.file.walSeq start state ↔
      Entries device state.zbd.blockSize state.file.headerSize stop state.zbd.replies start := by
  constructor
  · exact entries_of_returns positive small
  · intro entries
    exact returns_of_entries positive small (Nat.le_refl start) entries rfl rfl rfl

theorem endless_walk {device : Nat → UInt8} {number stop next walSeqRec : Nat} {state : FileState}
    (wraps : lengthField device next + state.file.headerSize = 2 ^ 64) (before : next < stop)
    (small : stop ≤ 2 ^ 64) (fuel : Nat) (script : state.zbd.replies = [])
    (positive : 0 < lengthField device next) :
    (recoverSparseExtents device number stop fuel next walSeqRec state).1 = .error .never := by
  induction fuel generalizing walSeqRec state with
  | zero => rfl
  | succ fuel induction =>
      have read : 0 ≤ state.zbd.replies.headD 0 := by
        rw [script]
        decide
      have still : (next + extentBlocks state.zbd.blockSize state.file.headerSize
          (lengthField device next)) % 2 ^ 64 = next := by
        simp only [extentBlocks, wraps, Nat.mod_self, Nat.zero_mod, Nat.zero_div, if_pos,
          Nat.zero_mul, Nat.add_zero]
        exact Nat.mod_eq_of_lt (by omega)
      rw [walk_entry before read positive, still]
      apply induction
      · exact wraps
      · simp [addRecovered, answered, setZone, script]

def openLog : FileState :=
  { zbd := FileSystem.emptyDevice [19] 65536 65536 4096 []
    file := { linkfiles := ["/a.log"], isSparse := true, extentStart := 1245184 }
    buffer := [] }

/-- The device after a block whose first field is `length`. -/
def firstField (length : Nat) : Nat → UInt8 :=
  Memory.store (fun _ => 0) 1245184 (Bytes.ofNat 8 length)

theorem sparse_recovery_inside_one_entry :
    Returns (firstField 100) 19 1245184 1249280 0 1245184 openLog := by
  have last : lengthField (firstField 100) 1245184 = 100 := by decide +kernel
  apply (sparse_recovery_inside_iff (firstField 100) 19 1245184 1249280 openLog (by decide)
    (by decide)).mpr
  refine .entry (by decide) (by decide) (by omega) ?_ (.finished ?_)
  · rw [last]
    decide
  · rw [last]
    decide

/-- Only the first block of an entry of two blocks reached the device: the extent goes
beyond the write pointer. A length field of `2^64 - 8` adds extents forever. -/
theorem torn_entry_outside :
    (∃ after, recoverSparseExtents (firstField 8184) 19 1249280 2 1245184 0 openLog = (.ok (), after) ∧
      after.file.extents = [⟨1245192, 8184, 19⟩] ∧ (after.zbd.zone 19).usedCapacity = 8184 ∧
      1249280 < 1245192 + 8184) ∧
    ¬ Returns (firstField 8184) 19 1245184 1249280 0 1245184 openLog ∧
    ∀ fuel, (recoverSparseExtents (firstField (2 ^ 64 - 8)) 19 1249280 fuel 1245184 0 openLog).1 =
      .error .never := by
  refine ⟨⟨_, Prod.ext (by decide +kernel) rfl, by decide +kernel, by decide +kernel, by decide⟩, ?_, ?_⟩
  · intro returns
    have field : lengthField (firstField 8184) 1245184 = 8184 := by decide +kernel
    cases entries_of_returns (by decide) (by decide) returns with
    | finished past => exact absurd past (by decide)
    | unread _ fails => exact absurd fails (by decide)
    | blank _ zero => omega
    | entry _ _ _ whole _ =>
        rw [field] at whole
        exact absurd whole (by decide)
  · intro fuel
    exact endless_walk (by decide +kernel) (by decide) (by decide) fuel rfl (by decide +kernel)

end Zwal.SparseRecovery
