import Zwal.File.DataBlind
import Zwal.File.Stream

/-! # How `SparseAppend` cuts a flush

A flush is cut at the end of a zone and at a barrier. Only the first kind of cut moves the
rest of the bytes to the front of the buffer, where the next entry takes them from. -/

namespace Zwal.SparseSplit

open FileState

variable {config : BuildConfig}

/-- A log that can flush up to `size` bytes: capacities and the level of the window are
whole blocks, and the buffer holds the padded flush. -/
structure Loaded (size : Nat) (state : FileState) : Prop where
  isWal : state.file.isWal = true
  zones : ∀ number, sparseBlockSize ∣ (state.zbd.zone number).capacity ∧
    sparseBlockSize ∣ (state.zbd.zone number).maxCapacity
  level : sparseBlockSize ∣ state.file.appendBytesSinceLastBarrier
  memory : size + 16 + padSize sparseBlockSize (size + 16) ≤ state.buffer.length
  small : size + 16 + padSize sparseBlockSize (size + 16) < 2 ^ 32

def front (left : Nat) (state : FileState) : Bytes := (state.buffer.drop 16).take left

/-- The entries of a flush of `data`: whole, one behind the other, and one extent each. -/
def Splits (data : Bytes) (before after : FileState) : Prop :=
  ∃ (calls : List AppendCall) (entries : List StoredEntry),
    appendCalls after.zbd.trace = appendCalls before.zbd.trace ++ calls ∧
    calls.map AppendCall.data = entries.map StoredEntry.bytes ∧
    entries.flatMap (fun entry => entry.payload) = data ∧
    entries.map (fun entry => entry.seq) = List.range' before.file.walSeq entries.length ∧
    after.file.extents.map ZoneExtent.length =
      before.file.extents.map ZoneExtent.length ++ entries.map fun entry => entry.payload.length

variable {size left : Nat} {state : FileState}

theorem Loaded.ready (loaded : Loaded size state) (positive : 0 < left) (within : left ≤ size) :
    Ready left state := by
  have padded := add_padSize_mono (Nat.add_le_add_right within 16)
  exact ⟨loaded.isWal, positive, Nat.le_trans padded loaded.memory,
    Nat.lt_of_le_of_lt padded loaded.small, (loaded.zones _).1⟩

theorem Loaded.quiet {next : FileState} (loaded : Loaded size state) (quiet : Quiet state next) :
    Loaded size next := by
  refine ⟨quiet.isWal.trans loaded.isWal, fun number => (quiet.zone number).blocks (loaded.zones number),
    ?_, quiet.buffer ▸ loaded.memory, loaded.small⟩
  rw [quiet.file]
  exact loaded.level

theorem Loaded.barred {next : FileState} (loaded : Loaded size state) (barred : Barred state next) :
    Loaded size next := by
  refine ⟨?_, barred.zone ▸ loaded.zones, ?_, barred.buffer ▸ loaded.memory, loaded.small⟩
  · rw [barred.file]
    exact loaded.isWal
  · rcases barred.level with same | none
    · exact same ▸ loaded.level
    · exact none ▸ Nat.dvd_zero _

theorem length_le_overwrite (buffer data : Bytes) (offset : Nat) :
    buffer.length ≤ (buffer.overwrite offset data).length := by
  simp only [Bytes.overwrite, List.length_append, List.length_take, List.length_drop]
  omega

theorem Loaded.moveRest (loaded : Loaded size state) (target source count : Nat) :
    Loaded size (moveRest target source count state) :=
  ⟨loaded.isWal, loaded.zones, loaded.level,
    Nat.le_trans loaded.memory (length_le_overwrite _ _ _), loaded.small⟩

theorem length_le_written (config : BuildConfig) (state : FileState) (log left : Nat)
    (replies : List Int) :
    state.buffer.length ≤ (written config state log left replies).buffer.length := by
  rw [written_buffer, sealSparse, padBuffer]
  exact Nat.le_trans (length_le_overwrite _ _ _)
    (Nat.le_trans (length_le_overwrite _ _ _) (length_le_overwrite _ _ _))

theorem Loaded.written (loaded : Loaded size state) (log left : Nat) (replies : List Int) :
    Loaded size (written config state log left replies) := by
  have block : sparseBlockSize ∣ (sparseCall config state log left).size :=
    (Nat.dvd_mod_iff (by decide)).mpr (dvd_add_padSize _)
  refine ⟨?_, fun number => ?_, ?_, ?_, loaded.small⟩
  · rw [written_file]
    exact loaded.isWal
  · by_cases same : number = state.activeNumber
    · rw [same, written_active]
      exact ⟨Nat.dvd_sub (loaded.zones _).1 block, (loaded.zones _).2⟩
    · rw [written_zone config state log left replies same]
      exact loaded.zones number
  · rw [written_file]
    exact Nat.dvd_add loaded.level block
  · exact Nat.le_trans loaded.memory (length_le_written config state log left replies)

/-! ## The write of a pass -/

theorem kiB_dvd_room (loaded : Loaded size state) :
    kiB ∣ config.walBarrierSize - state.file.appendBytesSinceLastBarrier := by
  refine Nat.dvd_sub (Nat.dvd_mul_left _ _) (Nat.dvd_trans ?_ loaded.level)
  decide

theorem sparseWriteSize_eq (loaded : Loaded size state) (within : left ≤ size) :
    sparseWriteSize config state left = min (min (left + 16) state.active.capacity)
      (config.walBarrierSize - state.file.appendBytesSinceLastBarrier) := by
  have small := loaded.small
  have header : state.file.headerSize = 16 := by
    simp [ZoneFile.headerSize, loaded.isWal, sparseHeaderSize, sparseWalHeaderSize]
  simp only [sparseWriteSize, clipWrite, loaded.isWal, if_true, header]
  rw [Nat.mod_eq_of_lt (by omega)]

theorem wide_write (loaded : Loaded size state) (positive : 0 < left) (within : left ≤ size)
    (capacity : 0 < state.active.capacity)
    (room : state.file.appendBytesSinceLastBarrier < config.walBarrierSize) :
    16 < sparseWriteSize config state left := by
  have blocks := Nat.le_of_dvd capacity (loaded.zones state.activeNumber).1
  have window := Nat.le_of_dvd (by omega) (@kiB_dvd_room config _ _ loaded)
  rw [sparseWriteSize_eq loaded within]
  simp only [sparseBlockSize, kiB] at blocks window
  omega

theorem empty_write (loaded : Loaded size state) (within : left ≤ size)
    (capacity : state.active.capacity = 0) (log : Nat) :
    (sparseCall config state log left).data = [] := by
  have nothing : sparseWriteSize config state left = 0 := by
    rw [sparseWriteSize_eq loaded within, capacity]
    simp
  simp only [sparseCall, appendCall, nothing]
  exact List.take_zero

/-! ## Passes -/

structure Passed (size : Nat) (before : FileState) (call : AppendCall) (after : FileState) : Prop where
  loaded : Loaded size after
  calls : appendCalls after.zbd.trace = appendCalls before.zbd.trace ++ [call]
  lengths : after.file.extents.map ZoneExtent.length =
    before.file.extents.map ZoneExtent.length ++ [call.length]
  walSeq : after.file.walSeq = before.file.walSeq + 1

/-- The entry of a pass: the first `cut` bytes of the flush. -/
structure Carries (before : FileState) (call : AppendCall) (cut : Nat) : Prop where
  positive : 0 < cut
  short : call.data.length < 2 ^ 32
  length : call.length = cut
  width : (front cut before).length = cut
  data : ∃ pad, call.data = Bytes.ofNat 8 cut ++ Bytes.ofNat 8 before.file.walSeq ++
    front cut before ++ List.replicate pad 0

theorem leaveFullZone_passed {before : FileState} {call : AppendCall} {final : FileState}
    {target wrSize rest : Nat} (passed : Passed size before call state)
    (run : leaveFullZone target wrSize rest state = (.ok (), final)) :
    Passed size before call final := by
  rcases leaveFullZone_ok run with ⟨_, rfl⟩ | ⟨_, closed, close, allocate⟩
  · exact passed
  · have quietClose := (closeActiveZone_control state).quiet passed.loaded.isWal
    rw [close] at quietClose
    have moved := (passed.loaded.quiet quietClose).moveRest target wrSize rest
    have quietAllocate := (allocateNewZone_control _).quiet moved.isWal
    rw [allocate] at quietAllocate
    refine ⟨moved.quiet quietAllocate, ?_, ?_, ?_⟩
    · rw [quietAllocate.calls]
      exact quietClose.calls.trans passed.calls
    · rw [quietAllocate.file]
      simp only [FileState.moveRest]
      rw [quietClose.file]
      exact passed.lengths
    · rw [quietAllocate.file]
      simp only [FileState.moveRest]
      rw [quietClose.file]
      exact passed.walSeq

theorem written_passed (loaded : Loaded size state) (log left : Nat) (replies : List Int) :
    Passed size state (sparseCall config state log left) (written config state log left replies) := by
  refine ⟨loaded.written log left replies, appendCalls_written replies, ?_, ?_⟩
  all_goals rw [written_file]
  rw [List.map_append]
  rfl

theorem Passed.of_barred {before middle after : FileState} {call : AppendCall}
    (barred : Barred before middle) (passed : Passed size middle call after) :
    Passed size before call after := by
  have calls : appendCalls middle.zbd.trace = appendCalls before.zbd.trace := by
    rcases barred.trace with same | ⟨log, _, same⟩
    · rw [same]
    · rw [same, appendCalls_append]
      exact List.append_nil _
  refine ⟨passed.loaded, calls ▸ passed.calls, ?_, ?_⟩
  · rw [passed.lengths, barred.file]
  · rw [passed.walSeq, barred.file]

theorem carries (loaded : Loaded size state) (positive : 0 < left) (within : left ≤ size)
    {wrSize : Nat} (written : sparseWriteSize config state left = wrSize) (wide : 16 < wrSize)
    (log : Nat) : Carries state (sparseCall config state log left) (wrSize - 16) := by
  have ready := loaded.ready positive within
  have small := ready.small
  have memory := ready.memory
  have bound := written ▸ ready.wrSize_le config
  have padded := add_padSize_mono bound
  rcases ready.sparseCall_of_wide written (Nat.le_of_lt wide) with ⟨length, _, data⟩
  have width : (front (wrSize - 16) state).length = wrSize - 16 := by
    rw [front, List.length_take, List.length_drop]
    omega
  refine ⟨by omega, ?_, length, width, _, data⟩
  rw [data, List.length_append, List.length_append, List.length_append, Bytes.length_ofNat,
    Bytes.length_ofNat, List.length_replicate, ← front, width]
  omega

theorem sealSparse_front (wrSize length : Nat) :
    (sealSparse wrSize length state).buffer.drop 16 =
      (padBuffer sparseBlockSize wrSize state.buffer).drop 16 := by
  have sealed := sealed_buffer state.buffer wrSize (padSize sparseBlockSize wrSize)
    (Bytes.length_ofNat 8 length) (Bytes.length_ofNat 8 state.file.walSeq)
  have header : (Bytes.ofNat 8 length ++ Bytes.ofNat 8 state.file.walSeq).length = 16 := by simp
  simp only [sealSparse, padBuffer]
  rw [sealed, ← header, List.drop_left]

theorem front_of_stay {wrSize : Nat} (wide : 16 < wrSize) (inside : wrSize ≤ state.buffer.length)
    (length : Nat) : front 1 (sealSparse wrSize length state) = front 1 state := by
  have cut (bytes : Bytes) : (bytes.drop 16).take 1 = (bytes.take 17).drop 16 := by
    rw [List.drop_take]
  rw [front, sealSparse_front, padBuffer, front, cut, cut, Bytes.take_overwrite (by omega) inside]

theorem sealed_zero {wrSize : Nat} (wide : 16 < wrSize) (inside : wrSize ≤ state.buffer.length)
    (padded : 0 < padSize sparseBlockSize wrSize) (length : Nat) :
    ((sealSparse wrSize length state).buffer.drop wrSize).take 1 = [0] := by
  have back : (sealSparse wrSize length state).buffer.drop wrSize =
      (padBuffer sparseBlockSize wrSize state.buffer).drop wrSize := by
    have position : wrSize = 16 + (wrSize - 16) := by omega
    rw [position, ← List.drop_drop, ← position, sealSparse_front, List.drop_drop, ← position]
  have width : (state.buffer.take wrSize).length = wrSize := by
    rw [List.length_take]
    omega
  rw [back, padBuffer, Bytes.overwrite, List.append_assoc,
    List.drop_append_of_le_length (by omega), List.drop_of_length_le (by omega), List.nil_append]
  obtain ⟨rest, pad⟩ : ∃ rest, padSize sparseBlockSize wrSize = rest + 1 :=
    ⟨padSize sparseBlockSize wrSize - 1, by omega⟩
  rw [pad, List.replicate_succ]
  rfl

/-- How a pass can end: a whole entry with the rest of the flush behind it, nothing at all
in a zone without capacity, or an entry cut at the barrier with bytes behind it that are
not the rest. -/
inductive PassEnd (config : BuildConfig) (left : Nat) (before : FileState) (call : AppendCall)
    (rest : Nat) (after : FileState) : Prop
  | whole {cut : Nat} : call.Whole config → Carries before call cut → left = cut + rest →
      front left before = front cut before ++ front rest after →
      PassEnd config left before call rest after
  | empty : ¬ call.Whole config → call.data = [] → PassEnd config left before call rest after
  | barrier {cut : Nat} : ¬ call.Whole config → Carries before call cut → left = cut + rest →
      0 < rest → (front 1 after = front 1 before ∨ front 1 after = [0]) →
      PassEnd config left before call rest after

theorem front_barred {next : FileState} (barred : Barred state next) (count : Nat) :
    front count next = front count state := by
  rw [front, front, barred.buffer]

theorem PassEnd.of_barred {before middle after : FileState} {call : AppendCall} {rest : Nat}
    (barred : Barred before middle) (ended : PassEnd config left middle call rest after) :
    PassEnd config left before call rest after := by
  have same (cut : Nat) (carried : Carries middle call cut) : Carries before call cut := by
    refine ⟨carried.positive, carried.short, carried.length, ?_, ?_⟩
    · rw [← front_barred barred]
      exact carried.width
    · have data := carried.data
      rw [front_barred barred, barred.file] at data
      exact data
  cases ended with
  | whole whole carried total split =>
      rw [front_barred barred, front_barred barred] at split
      exact .whole whole (same _ carried) total split
  | empty cut empty => exact .empty cut empty
  | barrier cut carried total more moved =>
      rw [front_barred barred] at moved
      exact .barrier cut (same _ carried) total more moved

theorem front_of_leave {final : FileState} {source rest count : Nat} (isWal : state.file.isWal = true)
    (header : 16 ≤ source) (inside : source + rest ≤ state.buffer.length) (few : count ≤ rest)
    {closed : FileState} (close : closeActiveZone state = (.ok (), closed))
    (allocate : allocateNewZone (moveRest 16 source rest closed) = (.ok (), final)) :
    front count final = (state.buffer.drop source).take count := by
  have quietClose := (closeActiveZone_control state).quiet isWal
  rw [close] at quietClose
  have quietAllocate := (allocateNewZone_control (moveRest 16 source rest closed)).quiet
    (quietClose.isWal.trans isWal)
  rw [allocate] at quietAllocate
  have moved := moveRest_content header (quietClose.buffer.symm ▸ inside)
  have cut := congrArg (List.take count) moved
  rw [List.take_take, List.take_take, Nat.min_eq_left few, quietClose.buffer] at cut
  rw [front, quietAllocate.buffer]
  exact cut

theorem written_ends (loaded : Loaded size state) (positive : 0 < left) (within : left ≤ size)
    (room : state.file.appendBytesSinceLastBarrier < config.walBarrierSize) {log rest : Nat}
    {replies : List Int} {final : FileState}
    (fits : (sparseCall config state log left).size ≤ state.active.capacity)
    (same : rest = (left + 2 ^ 64 - (sparseCall config state log left).length) % 2 ^ 32)
    (leave : leaveFullZone state.file.headerSize (sparseWriteSize config state left) rest
      (written config state log left replies) = (.ok (), final)) :
    PassEnd config left state (sparseCall config state log left) rest final := by
  have ready := loaded.ready positive within
  have memory := ready.memory
  have small := ready.small
  by_cases capacity : state.active.capacity = 0
  · refine .empty (fun whole => ?_) (empty_write loaded within capacity log)
    have some : 0 < state.active.capacity := whole.capacity
    omega
  obtain ⟨wrSize, size⟩ : ∃ wrSize, sparseWriteSize config state left = wrSize := ⟨_, rfl⟩
  have wide : 16 < wrSize := size ▸ wide_write loaded positive within (by omega) room
  have carried : Carries state (sparseCall config state log left) (wrSize - 16) :=
    carries loaded positive within size wide log
  have bound : wrSize ≤ left + 16 := size ▸ ready.wrSize_le config
  have total : left = (wrSize - 16) + rest := by
    rw [same, carried.length]
    omega
  have shape := @sparseWriteSize_eq config _ _ _ loaded within
  have split : front left state = front (wrSize - 16) state ++
      (state.buffer.drop wrSize).take rest := by
    have position : 16 + (wrSize - 16) = wrSize := by omega
    rw [front, front, total, List.take_add, List.drop_drop, position]
  have window : (sparseCall config state log left).Whole config ↔
      min (left + 16) state.active.capacity ≤
        config.walBarrierSize - state.file.appendBytesSinceLastBarrier :=
    ⟨fun whole => whole.window, fun window => ⟨Nat.pos_of_ne_zero capacity, window⟩⟩
  have padded : (sparseCall config state log left).size =
      wrSize + padSize sparseBlockSize wrSize :=
    (ready.sparseCall_of_wide size (Nat.le_of_lt wide)).2.1
  rw [ready.headerSize, size] at leave
  have longer := length_le_written config state log left replies
  rcases leaveFullZone_ok leave with ⟨notFull, rfl⟩ | ⟨full, closed, close, allocate⟩
  · rw [written_capacity] at notFull
    by_cases whole : (sparseCall config state log left).Whole config
    · have all := ready.rest_eq_zero whole (by omega)
      have done : rest = 0 := by
        rw [ready.wrSize whole] at size
        omega
      refine .whole whole carried total ?_
      rw [split, done, List.take_zero]
      rfl
    · have cut := window.not.mp whole
      refine .barrier whole carried total (by omega) (.inl ?_)
      rw [front, written_buffer, size]
      exact front_of_stay wide (by omega) _
  · rw [written_capacity] at full
    have isWal : (written config state log left replies).file.isWal = true := by
      rw [written_file]
      exact loaded.isWal
    by_cases whole : (sparseCall config state log left).Whole config
    · refine .whole whole carried total ?_
      rw [split, front_of_leave isWal (Nat.le_of_lt wide) (by omega) (Nat.le_refl _) close allocate]
      by_cases done : rest = 0
      · rw [done, List.take_zero, List.take_zero]
      · have filled : wrSize = state.active.capacity := by
          rw [ready.wrSize whole] at size
          omega
        have unpadded : padSize sparseBlockSize wrSize = 0 := by
          rw [filled, padSize, if_pos (Nat.mod_eq_zero_of_dvd ready.zone)]
        rw [written_buffer, size, sealSparse_drop wrSize _ unpadded (Nat.le_of_lt wide)]
    · have cut := window.not.mp whole
      refine .barrier whole carried total (by omega) (.inr ?_)
      rw [front_of_leave isWal (Nat.le_of_lt wide) (by omega) (by omega) close allocate,
        written_buffer, size]
      exact sealed_zero wide (by omega) (by omega) _

theorem sparseAppendPass_ends (loaded : Loaded size state) (positive : 0 < left) (within : left ≤ size)
    {rest : Nat} {final : FileState} (run : sparseAppendPass config left state = (.ok rest, final)) :
    ∃ call, Passed size state call final ∧ PassEnd config left state call rest final := by
  rcases sparseAppendPass_ok loaded.isWal run with
    ⟨middle, log, replies, barred, room, opened, fits, same, leave⟩
  have ended := written_ends (loaded.barred barred) positive within room fits same leave
  have passed := leaveFullZone_passed (written_passed (loaded.barred barred) log left replies) leave
  exact ⟨_, passed.of_barred barred, ended.of_barred barred⟩

/-! ## Entries of a flush -/

theorem Carries.payload_eq {before : FileState} {call : AppendCall} {cut : Nat}
    (carried : Carries before call cut) {entry : StoredEntry} (same : call.data = entry.bytes) :
    entry.payload = front cut before := by
  rcases carried.data with ⟨pad, data⟩
  have short := carried.short
  have width := congrArg List.length data
  simp only [List.length_append, Bytes.length_ofNat, List.length_replicate, carried.width] at width
  have size := congrArg List.length same
  rw [StoredEntry.length_bytes, StoredEntry.size] at size
  rw [same, StoredEntry.bytes, StoredEntry.header] at data
  simp only [List.append_assoc] at data
  rcases List.append_inj data (by simp) with ⟨lengths, rest⟩
  rcases List.append_inj rest (by simp) with ⟨_, rest⟩
  have numbers := congrArg Bytes.toNat lengths
  rw [Bytes.toNat_ofNat_of_lt (show entry.payload.length < 256 ^ 8 by omega),
    Bytes.toNat_ofNat_of_lt (show cut < 256 ^ 8 by omega)] at numbers
  exact (List.append_inj rest (by rw [numbers, carried.width])).1

theorem Splits.refl (state : FileState) : Splits [] state state :=
  ⟨[], [], (List.append_nil _).symm, rfl, rfl, rfl, (List.append_nil _).symm⟩

theorem Splits.cons {before middle after : FileState} {call : AppendCall} {cut : Nat} {data : Bytes}
    (passed : Passed size before call middle) (carried : Carries before call cut)
    (splits : Splits data middle after) : Splits (front cut before ++ data) before after := by
  rcases splits with ⟨calls, entries, trace, bytes, payloads, seqs, lengths⟩
  rcases carried.data with ⟨pad, sealed⟩
  refine ⟨call :: calls, ⟨⟨before.file.walSeq, front cut before⟩, pad⟩ :: entries, ?_, ?_, ?_, ?_, ?_⟩
  · rw [trace, passed.calls, List.append_assoc, List.singleton_append]
  · rw [List.map_cons, List.map_cons, bytes, sealed, StoredEntry.bytes, StoredEntry.header,
      carried.width]
  · rw [List.flatMap_cons, payloads]
  · rw [List.map_cons, seqs, passed.walSeq, List.length_cons, List.range'_succ]
  · rw [lengths, passed.lengths, carried.length, List.append_assoc, List.map_cons, carried.width,
      List.singleton_append]

theorem Splits.tail {before middle after : FileState} {call : AppendCall} {data : Bytes}
    (passed : Passed size before call middle)
    (more : ∃ calls, appendCalls after.zbd.trace = appendCalls middle.zbd.trace ++ calls)
    (splits : Splits data before after) :
    ∃ entry : StoredEntry, call.data = entry.bytes ∧
      (∀ cut, Carries before call cut → ∃ rest, data = front cut before ++ rest ∧
        Splits rest middle after) := by
  rcases splits with ⟨calls, entries, trace, bytes, payloads, seqs, lengths⟩
  rcases more with ⟨calls', trace'⟩
  rw [passed.calls, trace, List.append_assoc, List.singleton_append] at trace'
  rw [List.append_cancel_left trace', List.map_cons] at bytes
  cases entries with
  | nil => cases bytes
  | cons entry entries =>
      rw [List.map_cons, List.cons.injEq] at bytes
      refine ⟨entry, bytes.1, fun cut carried => ?_⟩
      have payload := carried.payload_eq bytes.1
      rw [List.flatMap_cons, payload] at payloads
      refine ⟨_, payloads.symm, calls', entries, ?_, bytes.2, rfl, ?_, ?_⟩
      · rw [trace, List.append_cancel_left trace', passed.calls, List.append_assoc,
          List.singleton_append]
      · rw [List.map_cons, List.length_cons, List.range'_succ, List.cons.injEq] at seqs
        rw [passed.walSeq]
        exact seqs.2
      · rw [lengths, passed.lengths, carried.length, List.append_assoc, List.map_cons, payload,
          carried.width, List.singleton_append]

theorem sparseAppendLoop_more (loaded : Loaded size state) (fuel left : Nat) {final : FileState}
    (run : sparseAppendLoop config fuel left state = (.ok (), final)) :
    ∃ calls, appendCalls final.zbd.trace = appendCalls state.zbd.trace ++ calls := by
  have steps : WalSteps config state (sparseAppendLoop config fuel left state).2 :=
    sparseAppendLoop_steps fuel left state
  rw [run] at steps
  rcases (steps.extends loaded.isWal).trace with ⟨events, trace⟩
  exact ⟨appendCalls events, by rw [← trace, appendCalls_append]⟩

def newCalls (before after : FileState) : List AppendCall :=
  (appendCalls after.zbd.trace).drop (appendCalls before.zbd.trace).length

theorem newCalls_cons {before middle after : FileState} {call : AppendCall}
    (passed : Passed size before call middle)
    (more : ∃ calls, appendCalls after.zbd.trace = appendCalls middle.zbd.trace ++ calls) :
    newCalls before after = call :: newCalls middle after := by
  rcases more with ⟨calls, trace⟩
  rw [newCalls, newCalls, trace, List.drop_left, passed.calls, List.append_assoc, List.drop_left,
    List.singleton_append]

theorem loop_zero {fuel : Nat} {final : FileState}
    (run : sparseAppendLoop config fuel 0 state = (.ok (), final)) : final = state := by
  cases fuel with
  | zero | succ =>
      cases run
      rfl

theorem sparseAppendLoop_splits (fuel : Nat) {final : FileState} (loaded : Loaded size state)
    (within : left ≤ size) (run : sparseAppendLoop config fuel left state = (.ok (), final))
    (whole : ∀ call ∈ newCalls state final, call.Whole config) :
    Splits (front left state) state final := by
  induction fuel generalizing state left with
  | zero =>
      cases left with
      | zero =>
          rw [loop_zero run]
          exact .refl state
      | succ left => cases run
  | succ fuel induction =>
      cases left with
      | zero =>
          rw [loop_zero run]
          exact .refl state
      | succ left =>
          rcases bind_eq_ok run with ⟨rest, middle, pass, loop⟩
          rcases sparseAppendPass_ends loaded (Nat.succ_pos left) within pass with
            ⟨call, passed, ended⟩
          rw [newCalls_cons passed (sparseAppendLoop_more passed.loaded fuel rest loop)] at whole
          have this := whole call List.mem_cons_self
          cases ended with
          | whole _ carried total split =>
              rw [split]
              exact .cons passed carried (induction passed.loaded (by omega) loop
                fun other member => whole other (List.mem_cons_of_mem _ member))
          | empty cut => exact absurd this cut
          | barrier cut => exact absurd this cut

/-! ## A cut at a barrier -/

def marked (left : Nat) : Bytes := 0 :: List.replicate (left - 1) 1

theorem length_marked (positive : 0 < left) : (marked left).length = left := by
  rw [marked, List.length_cons, List.length_replicate]
  omega

theorem marked_ne {first second : Bytes} (positive : 0 < first.length) :
    marked left ≠ first ++ 0 :: second := by
  intro same
  cases first with
  | nil => cases positive
  | cons byte first =>
      rw [marked, List.cons_append, List.cons.injEq] at same
      have member : (0 : UInt8) ∈ List.replicate (left - 1) 1 := by
        rw [same.2]
        simp
      have one := List.eq_of_mem_replicate member
      cases one

theorem front_one_cons {cut : Nat} (positive : 0 < cut) (first : front 1 state = [0]) :
    ∃ rest, front cut state = 0 :: rest := by
  rw [front] at first
  cases bytes : state.buffer.drop 16 with
  | nil =>
      rw [bytes] at first
      cases first
  | cons byte rest =>
      rw [bytes, List.take_succ_cons, List.take_zero, List.cons.injEq] at first
      rw [front, bytes, first.1]
      obtain ⟨count, rfl⟩ : ∃ count, cut = count + 1 := ⟨cut - 1, by omega⟩
      exact ⟨rest.take count, List.take_succ_cons⟩

theorem not_splits_of_empty {before middle after : FileState} {call : AppendCall} {data : Bytes}
    (passed : Passed size before call middle)
    (more : ∃ calls, appendCalls after.zbd.trace = appendCalls middle.zbd.trace ++ calls)
    (empty : call.data = []) : ¬ Splits data before after := by
  intro splits
  rcases splits.tail passed more with ⟨entry, same, _⟩
  have length := congrArg List.length same
  rw [empty, StoredEntry.length_bytes, StoredEntry.size, List.length_nil] at length
  omega

theorem not_splits_of_cut {fuel : Nat} {middle final : FileState} {call : AppendCall} {rest : Nat}
    (within : left ≤ size) (passed : Passed size state call middle)
    (ended : PassEnd config left state call rest middle) (cut : ¬ call.Whole config)
    (content : front left state = marked left) (positive : 0 < left)
    (loop : sparseAppendLoop config fuel rest middle = (.ok (), final)) :
    ¬ Splits (marked left) state final := by
  have more := sparseAppendLoop_more passed.loaded fuel rest loop
  cases ended with
  | whole whole => exact absurd whole cut
  | empty _ empty => exact not_splits_of_empty passed more empty
  | @barrier width _ carried total some moved =>
      intro splits
      rcases splits.tail passed more with ⟨_, _, tail⟩
      rcases tail width carried with ⟨data, same, splits⟩
      have first : front 1 middle = [0] := by
        rcases moved with stays | zero
        · have start : front 1 state = (front left state).take 1 := by
            rw [front, front, List.take_take, Nat.min_eq_left positive]
          rw [stays, start, content]
          rfl
        · exact zero
      cases fuel with
      | zero =>
          obtain ⟨count, rfl⟩ : ∃ count, rest = count + 1 := ⟨rest - 1, by omega⟩
          cases loop
      | succ fuel =>
          obtain ⟨count, rfl⟩ : ∃ count, rest = count + 1 := ⟨rest - 1, by omega⟩
          rcases bind_eq_ok loop with ⟨left', next, pass, loop'⟩
          rcases sparseAppendPass_ends passed.loaded some (by omega) pass with
            ⟨call', passed', ended'⟩
          have more' := sparseAppendLoop_more passed'.loaded fuel left' loop'
          rcases splits.tail passed' more' with ⟨_, _, tail'⟩
          have again {width' : Nat} (carried' : Carries middle call' width') : False := by
            rcases tail' width' carried' with ⟨_, same', _⟩
            rcases front_one_cons carried'.positive first with ⟨_, starts⟩
            rw [same', starts, List.cons_append] at same
            exact marked_ne (by rw [carried.width]; exact carried.positive) same
          cases ended' with
          | whole _ carried' => exact again carried'
          | empty _ empty => exact not_splits_of_empty passed' more' empty splits
          | barrier _ carried' => exact again carried'

/-! ## Flushes of the same length are cut alike -/

theorem whole_of_blank {call call' : AppendCall}
    (blank : { call with data := [] } = { call' with data := [] }) (whole : call.Whole config) :
    call'.Whole config := by
  simp only [AppendCall.mk.injEq] at blank
  have capacity := whole.capacity
  have window := whole.window
  simp only [blank] at capacity window
  exact ⟨capacity, window⟩

theorem whole_iff_of_same {one two middle other : FileState} {call call' : AppendCall}
    (start : Same one two) (after : Same middle other) (passed : Passed size one call middle)
    (passed' : Passed size two call' other) : call.Whole config ↔ call'.Whole config := by
  have calls := after.calls
  rw [passed.calls, passed'.calls, List.map_append, List.map_append, start.calls] at calls
  have blank := List.append_cancel_left calls
  simp only [List.map_cons, List.map_nil, List.cons.injEq, and_true] at blank
  exact ⟨whole_of_blank blank, whole_of_blank blank.symm⟩

theorem exists_broken (fuel : Nat) {final : FileState} (loaded : Loaded size state)
    (within : left ≤ size) (run : sparseAppendLoop config fuel left state = (.ok (), final))
    (cut : ∃ call ∈ newCalls state final, ¬ call.Whole config) :
    ∃ data, data.length = left ∧ ∀ other last, Same other state → Loaded size other →
      front left other = data → sparseAppendLoop config fuel left other = (.ok (), last) →
      ¬ Splits data other last := by
  induction fuel generalizing state left with
  | zero =>
      cases left with
      | zero =>
          rw [loop_zero run, newCalls, List.drop_length] at cut
          simp at cut
      | succ left => cases run
  | succ fuel induction =>
      cases left with
      | zero =>
          rw [loop_zero run, newCalls, List.drop_length] at cut
          simp at cut
      | succ left =>
          rcases bind_eq_ok run with ⟨rest, middle, pass, loop⟩
          rcases sparseAppendPass_ends loaded (Nat.succ_pos left) within pass with
            ⟨call, passed, ended⟩
          rw [newCalls_cons passed (sparseAppendLoop_more passed.loaded fuel rest loop)] at cut
          -- What the pass does to another buffer.
          have beside {other last : FileState} (same : Same other state) (ready : Loaded size other)
              (ran : sparseAppendLoop config (fuel + 1) (left + 1) other = (.ok (), last)) :
              ∃ next call', Same next middle ∧ sparseAppendLoop config fuel rest next = (.ok (), last) ∧
                Passed size other call' next ∧ PassEnd config (left + 1) other call' rest next ∧
                (call'.Whole config ↔ call.Whole config) := by
            rcases bind_eq_ok ran with ⟨rest', next, pass', loop'⟩
            have alike := blind_sparseAppendPass config (left + 1) other state same
            rw [pass, pass'] at alike
            cases alike.1
            rcases sparseAppendPass_ends ready (Nat.succ_pos left) within pass' with
              ⟨call', passed', ended'⟩
            exact ⟨next, call', alike.2, loop', passed', ended',
              whole_iff_of_same same alike.2 passed' passed⟩
          by_cases whole : call.Whole config
          · cases ended with
            | empty cut => exact absurd whole cut
            | barrier cut => exact absurd whole cut
            | @whole width _ carried total =>
                rcases cut with ⟨bad, member, cut⟩
                have later : ∃ call ∈ newCalls middle final, ¬ call.Whole config := by
                  rcases List.mem_cons.mp member with rfl | member
                  · exact absurd whole cut
                  · exact ⟨bad, member, cut⟩
                rcases induction passed.loaded (by omega) loop later with ⟨data, length, broken⟩
                refine ⟨List.replicate width 0 ++ data, ?_, ?_⟩
                · rw [List.length_append, List.length_replicate]
                  omega
                · intro other last same ready content ran splits
                  rcases beside same ready ran with
                    ⟨next, call', sameNext, loop', passed', ended', iff⟩
                  cases ended' with
                  | empty cut => exact cut (iff.mpr whole)
                  | barrier cut => exact cut (iff.mpr whole)
                  | @whole width' _ carried' total' split' =>
                      have widths : width' = width := by omega
                      rw [widths] at carried' split'
                      rw [content] at split'
                      rcases List.append_inj split'
                        (by rw [List.length_replicate, carried'.width]) with ⟨front', back'⟩
                      rcases splits.tail passed'
                        (sparseAppendLoop_more passed'.loaded fuel rest loop') with ⟨_, _, tail⟩
                      rcases tail width carried' with ⟨rest', again, splits'⟩
                      rw [front'] at again
                      rw [← List.append_cancel_left again] at splits'
                      exact broken next last sameNext passed'.loaded back'.symm loop' splits'
          · refine ⟨marked (left + 1), length_marked (Nat.succ_pos left), ?_⟩
            intro other last same ready content ran
            rcases beside same ready ran with ⟨next, call', _, loop', passed', ended', iff⟩
            exact not_splits_of_cut within passed' ended' (iff.not.mpr whole) content
              (Nat.succ_pos left) loop'

/-! ## Calls of `SparseAppend` -/

def withBuffer (state : FileState) (buffer : Bytes) : FileState := { state with buffer := buffer }

theorem withBuffer_same (loaded : Loaded size state) (first second : Bytes) :
    Same (withBuffer state first) (withBuffer state second) :=
  ⟨rfl, rfl, loaded.isWal⟩

theorem Loaded.withBuffer (loaded : Loaded size state) {buffer : Bytes}
    (length : buffer.length = state.buffer.length) : Loaded size (withBuffer state buffer) :=
  ⟨loaded.isWal, loaded.zones, loaded.level, length ▸ loaded.memory, loaded.small⟩

theorem sparseAppend_starts {fuel : Nat} {final : FileState} (loaded : Loaded size state)
    (run : sparseAppend config fuel left state = (.ok (), final)) :
    ∃ start, ensureActiveZone state = (.ok (), start) ∧ Quiet state start ∧ Loaded size start ∧
      sparseAppendLoop config fuel left start = (.ok (), final) := by
  rcases bind_eq_ok run with ⟨_, start, ensure, loop⟩
  have quiet := (ensureActiveZone_control state).quiet loaded.isWal
  rw [ensure] at quiet
  exact ⟨start, ensure, quiet, loaded.quiet quiet, loop⟩

theorem newCalls_quiet {start final : FileState} (quiet : Quiet state start) :
    newCalls state final = newCalls start final := by
  rw [newCalls, newCalls, quiet.calls]

theorem splits_quiet_iff {start final : FileState} {data : Bytes} (quiet : Quiet state start) :
    Splits data start final ↔ Splits data state final := by
  have walSeq : start.file.walSeq = state.file.walSeq := by rw [quiet.file]
  have extents : start.file.extents = state.file.extents := by rw [quiet.file]
  rw [Splits, Splits, quiet.calls, walSeq, extents]

theorem front_quiet {start : FileState} (quiet : Quiet state start) (count : Nat) :
    front count start = front count state := by
  rw [front, front, quiet.buffer]

theorem blind_sparseAppendLoop (config : BuildConfig) (fuel left : Nat) :
    Blind (sparseAppendLoop config fuel left) := by
  induction fuel generalizing left with
  | zero =>
      cases left with
      | zero => exact .pure _
      | succ left => exact .fail _
  | succ fuel induction =>
      cases left with
      | zero => exact .pure _
      | succ left => exact (blind_sparseAppendPass config _).bind fun rest => induction rest

theorem sparseAppend_withBuffer {fuel : Nat} {final : FileState} (loaded : Loaded size state)
    {first second : Bytes}
    (run : sparseAppend config fuel left (withBuffer state first) = (.ok (), final)) :
    ∃ last, sparseAppend config fuel left (withBuffer state second) = (.ok (), last) ∧
      Same final last := by
  have blind : Blind (sparseAppend config fuel left) :=
    blind_ensureActiveZone.bind fun _ => blind_sparseAppendLoop config fuel left
  have alike := blind _ _ (withBuffer_same loaded first second)
  rw [run] at alike
  exact ⟨(sparseAppend config fuel left (withBuffer state second)).2,
    Prod.ext alike.1.symm rfl, alike.2⟩

theorem forall_whole_of_same {final last : FileState} (same : Same final last)
    (whole : ∀ call ∈ newCalls state final, call.Whole config) :
    ∀ call ∈ newCalls state last, call.Whole config := by
  intro call member
  have blanks : (newCalls state last).map (fun call => { call with data := [] }) =
      (newCalls state final).map fun call => { call with data := [] } := by
    rw [newCalls, newCalls, List.map_drop, List.map_drop, same.calls]
  have inside : { call with data := [] } ∈
      (newCalls state last).map fun call => { call with data := [] } :=
    List.mem_map.mpr ⟨call, member, rfl⟩
  rw [blanks] at inside
  rcases List.mem_map.mp inside with ⟨twin, there, blank⟩
  exact whole_of_blank blank (whole twin there)

/-- `SparseAppend` splits every flush of a size without loss exactly if none of its passes
finds a window with less room than the rest of the flush and the zone would take. -/
theorem sparse_append_splits_iff (config : BuildConfig) (fuel size : Nat) (state : FileState)
    (loaded : Loaded size state) :
    (∀ buffer final, buffer.length = state.buffer.length →
      sparseAppend config fuel size (withBuffer state buffer) = (.ok (), final) →
      Splits ((buffer.drop 16).take size) state final) ↔
    ∀ final, sparseAppend config fuel size state = (.ok (), final) →
      ∀ call ∈ newCalls state final, call.Whole config := by
  have self : withBuffer state state.buffer = state := rfl
  constructor
  · intro splits final run
    by_contra cut
    have broken : ∃ call ∈ newCalls state final, ¬ call.Whole config := by
      by_contra none
      exact cut fun call member => by_contra fun bad => none ⟨call, member, bad⟩
    rcases sparseAppend_starts loaded run with ⟨start, ensure, quiet, ready, loop⟩
    rw [newCalls_quiet quiet] at broken
    rcases exists_broken fuel ready (Nat.le_refl _) loop broken with ⟨data, length, bad⟩
    have memory := loaded.memory
    -- The flush of these bytes.
    have inside : 16 + data.length ≤ state.buffer.length := by omega
    have width := Bytes.length_overwrite inside
    have content : ((state.buffer.overwrite 16 data).drop 16).take size = data := by
      rw [← length, Bytes.take_drop_overwrite (by omega)]
    rw [← self] at run
    rcases @sparseAppend_withBuffer config _ _ _ _ _ loaded _ (state.buffer.overwrite 16 data) run with
      ⟨last, ran, _⟩
    rcases sparseAppend_starts (loaded.withBuffer width) ran with
      ⟨begun, ensure', quiet', ready', loop'⟩
    have same := blind_ensureActiveZone _ _
      (withBuffer_same loaded (state.buffer.overwrite 16 data) state.buffer)
    rw [ensure', self, ensure] at same
    refine bad begun last same.2 ready' ?_ loop' ?_
    · rw [front_quiet quiet']
      exact content
    · rw [splits_quiet_iff quiet', ← content]
      exact splits _ last width ran
  · intro whole buffer final length run
    rcases @sparseAppend_withBuffer config _ _ _ _ _ loaded _ state.buffer run with ⟨last, ran, same⟩
    rcases sparseAppend_starts (loaded.withBuffer length) run with ⟨start, _, quiet, ready, loop⟩
    have all : ∀ call ∈ newCalls start final, call.Whole config := by
      rw [← newCalls_quiet quiet]
      exact forall_whole_of_same same.symm (whole last ran)
    have split := sparseAppendLoop_splits fuel ready (Nat.le_refl _) loop all
    rw [front_quiet quiet, splits_quiet_iff quiet] at split
    exact split

def emptyLog (capacity : Nat) : FileState :=
  ⟨smallDevice capacity, { isWal := true, isSparse := true }, List.replicate 8192 0⟩

/-- A flush that fills its zone and goes on in the next. -/
theorem sparse_append_splits_zone_end :
    ((sparseAppend smallConfig 2 5000 (emptyLog 4096)).2.file.extents.map ZoneExtent.length = [4080, 920] ∧
      (sparseAppend smallConfig 2 5000 (emptyLog 4096)).1 = .ok ()) ∧
    ∀ buffer final, buffer.length = (emptyLog 4096).buffer.length →
      sparseAppend smallConfig 2 5000 (withBuffer (emptyLog 4096) buffer) = (.ok (), final) →
      Splits ((buffer.drop 16).take 5000) (emptyLog 4096) final := by
  have loaded : Loaded 5000 (emptyLog 4096) :=
    ⟨rfl, fun _ => ⟨⟨1, rfl⟩, ⟨1, rfl⟩⟩, ⟨0, rfl⟩, by decide +kernel, by decide⟩
  refine ⟨⟨by decide +kernel, by decide +kernel⟩,
    (sparse_append_splits_iff smallConfig 2 5000 (emptyLog 4096) loaded).mpr ?_⟩
  intro final run
  have whole : ∀ call ∈ newCalls (emptyLog 4096) (sparseAppend smallConfig 2 5000 (emptyLog 4096)).2,
      call.Whole smallConfig := by decide +kernel
  rw [run] at whole
  exact whole

/-- The payloads of the entries between two states, as the extents behind them cut them. -/
def payloads (before after : FileState) : List Bytes :=
  List.zipWith (fun bytes length => (bytes.drop 16).take length)
    ((newCalls before after).map AppendCall.data)
    ((after.file.extents.map ZoneExtent.length).drop before.file.extents.length)

theorem payload_bytes (entry : StoredEntry) :
    (entry.bytes.drop 16).take entry.payload.length = entry.payload := by
  rw [StoredEntry.bytes, List.append_assoc, ← entry.length_header, List.drop_left, List.take_left]

theorem zipWith_payload_bytes (entries : List StoredEntry) :
    List.zipWith (fun bytes length => (bytes.drop 16).take length)
      (entries.map StoredEntry.bytes) (entries.map fun entry => entry.payload.length) =
    entries.map fun entry => entry.payload := by
  induction entries with
  | nil => rfl
  | cons entry entries induction =>
      rw [List.map_cons, List.map_cons, List.zipWith_cons_cons, payload_bytes, induction,
        List.map_cons]

theorem Splits.flatten_payloads {data : Bytes} {before after : FileState}
    (splits : Splits data before after) : (payloads before after).flatten = data := by
  rcases splits with ⟨calls, entries, issued, bytes, content, _, extents⟩
  have new : newCalls before after = calls := by
    rw [newCalls, issued, List.drop_left]
  have lengths : (after.file.extents.map ZoneExtent.length).drop before.file.extents.length =
      entries.map fun entry => entry.payload.length := by
    rw [extents, ← @List.length_map _ _ before.file.extents ZoneExtent.length, List.drop_left]
  rw [payloads, new, lengths, bytes, zipWith_payload_bytes, ← content, List.flatMap_def]

def tightConfig : BuildConfig :=
  ⟨8, 8, by decide, smallConfig.barrierPositive, smallConfig.barrierPositive⟩

/-- The log after a small flush: half a barrier window is left. -/
def halfWindow : FileState := (sparseAppend tightConfig 1 100 (emptyLog 12288)).2

def cutBuffer : Bytes := List.replicate 16 0 ++ marked 5000 ++ List.replicate 3176 0

theorem cutBuffer_content : (cutBuffer.drop 16).take 5000 = marked 5000 := by
  rw [cutBuffer, List.append_assoc, List.drop_left' List.length_replicate,
    List.take_left' (length_marked (Nat.succ_pos _))]

/-- The rest of a flush that is cut at a barrier is written from its start again. -/
theorem barrier_cut_repeats :
    (sparseAppend tightConfig 1 100 (emptyLog 12288)).1 = .ok () ∧
    cutBuffer.length = halfWindow.buffer.length ∧ (cutBuffer.drop 16).take 5000 = marked 5000 ∧
    (sparseAppend tightConfig 2 5000 (withBuffer halfWindow cutBuffer)).1 = .ok () ∧
    ¬ Splits (marked 5000) halfWindow
      (sparseAppend tightConfig 2 5000 (withBuffer halfWindow cutBuffer)).2 := by
  refine ⟨by decide +kernel, by decide +kernel, cutBuffer_content, by decide +kernel, ?_⟩
  intro splits
  have again : (payloads halfWindow
      (sparseAppend tightConfig 2 5000 (withBuffer halfWindow cutBuffer)).2).flatten.getD 4080 1 ≠
      (marked 5000).getD 4080 1 := by decide +kernel
  rw [splits.flatten_payloads] at again
  exact again rfl

end Zwal.SparseSplit
