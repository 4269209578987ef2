import Zwal.Device.MetaLog
import Zwal.File.Stored

/-! # The metadata log is read as it was written

Records that were added to an empty metadata zone come back in their order, followed by an
empty one. The end of the log is where the zone's write pointer is reported, so a zone
that is filled to its capacity has no end if the capacity is below the zone size. -/

namespace Zwal.MetaRoundTrip

open ZenMetaLog ZonedBlockDevice Memory

/-! ## The record in its blocks -/

theorem le_roundUp (blockSize size : Nat) : size ≤ roundUp blockSize size := by
  rw [roundUp]
  split
  all_goals omega

theorem roundUp_add {blockSize place : Nat} (aligned : blockSize ∣ place) (size : Nat) :
    roundUp blockSize (place + size) = place + roundUp blockSize size := by
  rcases aligned with ⟨blocks, rfl⟩
  rw [roundUp, roundUp, Nat.mul_add_mod]
  split
  · rfl
  · omega

theorem dvd_roundUp {blockSize : Nat} (positive : 0 < blockSize) (size : Nat) :
    blockSize ∣ roundUp blockSize size := by
  rw [roundUp]
  split
  · rename_i whole
    exact Nat.dvd_of_mod_eq_zero whole
  · have below := Nat.mod_lt size positive
    have divided := Nat.div_add_mod size blockSize
    refine ⟨size / blockSize + 1, ?_⟩
    rw [Nat.mul_add]
    omega

/-- A record whose blocks have a size that fits in an `int`, as `ZonedBlockDevice::Read` takes
it. -/
def Short (blockSize : Nat) (record : Bytes) : Prop :=
  roundUp blockSize (record.length + zMetaHeaderSize) < 2 ^ 31

section Record

variable {blockSize : Nat} {record : Bytes}

theorem Short.length (short : Short blockSize record) : record.length % 2 ^ 32 = record.length := by
  have above := le_roundUp blockSize (record.length + zMetaHeaderSize)
  rw [Short] at short
  exact Nat.mod_eq_of_lt (by omega)

theorem Short.physSz (short : Short blockSize record) :
    physSz blockSize record = roundUp blockSize (record.length + zMetaHeaderSize) := by
  rw [ZenMetaLog.physSz, short.length]

theorem overwrite_replicate (front data : Bytes) {count : Nat} (fits : data.length ≤ count) :
    (front ++ List.replicate count (0 : UInt8)).overwrite front.length data =
      front ++ data ++ List.replicate (count - data.length) 0 := by
  rw [Bytes.overwrite, List.take_left, List.drop_append, List.drop_eq_nil_of_le (by omega),
    List.nil_append, List.drop_replicate]
  congr 2
  omega

def headerOf (crc : Crc32c) (record : Bytes) : Bytes :=
  Bytes.ofNat 4 (crc.mask (crc.ofRecord record.length record)).toNat ++ Bytes.ofNat 4 record.length

@[simp] theorem length_headerOf (crc : Crc32c) (record : Bytes) : (headerOf crc record).length = 8 := by
  simp [headerOf]

theorem recordBuffer_eq (crc : Crc32c) (short : Short blockSize record) :
    recordBuffer crc blockSize record = headerOf crc record ++ record ++
      List.replicate (physSz blockSize record - zMetaHeaderSize - record.length) 0 := by
  have above := le_roundUp blockSize (record.length + zMetaHeaderSize)
  rw [← short.physSz, zMetaHeaderSize] at above
  generalize total : physSz blockSize record = size at above
  simp only [recordBuffer, short.length, List.take_length, total]
  have first := @overwrite_replicate [] (Bytes.ofNat 4
    (crc.mask (crc.ofRecord record.length record)).toNat) size (by simp; omega)
  have second := @overwrite_replicate (Bytes.ofNat 4
    (crc.mask (crc.ofRecord record.length record)).toNat) (Bytes.ofNat 4 record.length)
    (size - 4) (by simp; omega)
  have third := @overwrite_replicate (headerOf crc record) record (size - 8) (by omega)
  simp only [List.nil_append, List.length_nil, Bytes.length_ofNat] at first second
  rw [first, second, show size - 4 - 4 = size - 8 by omega]
  rw [length_headerOf] at third
  exact third

theorem length_recordBuffer (crc : Crc32c) (short : Short blockSize record) :
    (recordBuffer crc blockSize record).length = physSz blockSize record := by
  have above := le_roundUp blockSize (record.length + zMetaHeaderSize)
  rw [← short.physSz, zMetaHeaderSize] at above
  rw [recordBuffer_eq crc short]
  simp [zMetaHeaderSize]
  omega

end Record

/-! ## Writing -/

structure Fresh (log : ZenMetaLog) : Prop where
  block : 0 < log.zbd.blockSize
  aligned : log.zbd.blockSize ∣ (log.zbd.zone log.zone).start
  empty : (log.zbd.zone log.zone).wp = (log.zbd.zone log.zone).start
  capacity : (log.zbd.zone log.zone).capacity = (log.zbd.zone log.zone).maxCapacity
  size : (log.zbd.zone log.zone).maxCapacity ≤ log.zbd.zoneSize

def sizeOf (blockSize : Nat) (records : List Bytes) : Nat := (records.map (physSz blockSize)).sum

/-- What the parts of the log that never change are in the other one. -/
structure SameZone (before after : ZenMetaLog) : Prop where
  zone : after.zone = before.zone
  blockSize : after.zbd.blockSize = before.zbd.blockSize
  zoneSize : after.zbd.zoneSize = before.zbd.zoneSize
  start : (after.zbd.zone after.zone).start = (before.zbd.zone before.zone).start
  maxCapacity : (after.zbd.zone after.zone).maxCapacity = (before.zbd.zone before.zone).maxCapacity

theorem SameZone.refl (log : ZenMetaLog) : SameZone log log := ⟨rfl, rfl, rfl, rfl, rfl⟩

theorem SameZone.trans {first second third : ZenMetaLog} (one : SameZone first second)
    (two : SameZone second third) : SameZone first third :=
  ⟨two.zone.trans one.zone, two.blockSize.trans one.blockSize, two.zoneSize.trans one.zoneSize,
    two.start.trans one.start, two.maxCapacity.trans one.maxCapacity⟩

structure Added (memory : Nat → UInt8) (bytes : Bytes) (before after : ZenMetaLog) : Prop where
  same : SameZone before after
  wp : (after.zbd.zone after.zone).wp = (before.zbd.zone before.zone).wp + bytes.length
  capacity : (after.zbd.zone after.zone).capacity + bytes.length =
    (before.zbd.zone before.zone).capacity
  stored : after.zbd.stored memory =
    store (before.zbd.stored memory) (before.zbd.zone before.zone).wp bytes

theorem addRecord_added {crc : Crc32c} {record : Bytes} {before after : ZenMetaLog}
    (short : Short before.zbd.blockSize record)
    (accepted : addRecord crc record before = (.ok (), after)) (memory : Nat → UInt8) :
    Added memory (recordBuffer crc before.zbd.blockSize record) before after := by
  rw [addRecord, bind_read]
    at accepted
  have fits : physSz before.zbd.blockSize record % 2 ^ 32 =
      (recordBuffer crc before.zbd.blockSize record).length := by
    rw [length_recordBuffer crc short, short.physSz]
    rw [Short] at short
    exact Nat.mod_eq_of_lt (by omega)
  simp only [fits, List.take_length, onDevice, Program.within] at accepted
  rcases FileState.appendZone_cases before.zone (recordBuffer crc before.zbd.blockSize record) before.zbd with
    ⟨failure, run, _⟩ | ⟨chunks, replies, outcome, _, run, room, whole, _⟩
  · rw [run] at accepted
    cases accepted
  · rw [run] at accepted
    rcases Prod.mk.inj accepted with ⟨ok, rfl⟩
    have all := whole ok
    have stored := stored_advanceAll memory before.zone chunks before.zbd
    rw [all] at stored room
    rw [advanceAll_eq, all] at *
    refine ⟨⟨rfl, rfl, rfl, ?_, ?_⟩, ?_, ?_, stored⟩
    · simp
    · simp
    · simp
    · simp
      omega

theorem Added.refl (memory : Nat → UInt8) (log : ZenMetaLog) : Added memory [] log log :=
  ⟨.refl log, rfl, rfl, (store_nil _ _).symm⟩

theorem Added.trans {memory : Nat → UInt8} {one two : Bytes} {first second third : ZenMetaLog}
    (early : Added memory one first second) (late : Added memory two second third) :
    Added memory (one ++ two) first third where
  same := early.same.trans late.same
  wp := by
    rw [late.wp, early.wp, List.length_append]
    omega
  capacity := by
    have room := late.capacity
    have before := early.capacity
    rw [List.length_append]
    omega
  stored := by rw [late.stored, early.stored, early.wp, store_append]

theorem addRecords_added {crc : Crc32c} {records : List Bytes} {before after : ZenMetaLog}
    (short : ∀ record ∈ records, Short before.zbd.blockSize record)
    (accepted : addRecords crc records before = (.ok (), after)) (memory : Nat → UInt8) :
    Added memory (records.flatMap (recordBuffer crc before.zbd.blockSize)) before after := by
  induction records generalizing before with
  | nil =>
      cases accepted
      exact .refl memory _
  | cons record records induction =>
      rcases bind_eq_ok accepted with ⟨value, middle, first, rest⟩
      have added := addRecord_added (short record List.mem_cons_self) first memory
      have same := added.same.blockSize
      rw [List.flatMap_cons]
      refine added.trans ?_
      rw [← same]
      refine induction (fun other member => ?_) rest
      rw [same]
      exact short other (List.mem_cons_of_mem _ member)

theorem length_buffers {crc : Crc32c} {blockSize : Nat} {records : List Bytes}
    (short : ∀ record ∈ records, Short blockSize record) :
    (records.flatMap (recordBuffer crc blockSize)).length = sizeOf blockSize records := by
  induction records with
  | nil => rfl
  | cons record records induction =>
      rw [List.flatMap_cons, List.length_append, length_recordBuffer crc (short record List.mem_cons_self),
        induction fun other member => short other (List.mem_cons_of_mem _ member)]
      rfl

/-! ## Reading -/

def moved (log : ZenMetaLog) (readPos : Nat) (replies : List Int) : ZenMetaLog :=
  { log with readPos := readPos, zbd := { log.zbd with replies := replies } }

def Answering (replies : List Int) : Prop := ∀ answer ∈ replies, 0 < answer

theorem reply_answering {left : Nat} (more : left ≠ 0) {log : ZenMetaLog}
    (answering : Answering log.zbd.replies) :
    ∃ answer replies, 0 < answer ∧ Answering replies ∧
      onDevice (reply left) log = (.ok answer, moved log log.readPos replies) := by
  rcases log with ⟨⟨_, _, _, _, _, _, _, _, _, _, _, _ | ⟨first, rest⟩, _⟩, _, _⟩
  · exact ⟨left, [], by omega, by simp [Answering], rfl⟩
  · exact ⟨first, rest, answering first List.mem_cons_self,
      fun answer member => answering answer (List.mem_cons_of_mem _ member), rfl⟩

theorem readLoop_reads (device : Nat → UInt8) {fuel left : Nat} {data : Bytes} {log : ZenMetaLog}
    (answering : Answering log.zbd.replies) (enough : left ≤ fuel) (small : left < 2 ^ 31) :
    ∃ replies, Answering replies ∧ readLoop device fuel left data log =
      (.ok (data ++ bytesAt device log.readPos left), moved log (log.readPos + left) replies) := by
  induction fuel generalizing left data log with
  | zero =>
      have done : left = 0 := by omega
      subst done
      refine ⟨log.zbd.replies, answering, ?_⟩
      rw [readLoop, if_pos rfl, bytesAt_zero, List.append_nil]
      rfl
  | succ fuel induction =>
      by_cases done : left = 0
      · subst done
        refine ⟨log.zbd.replies, answering, ?_⟩
        rw [readLoop, if_pos rfl, bytesAt_zero, List.append_nil]
        rfl
      · rcases reply_answering done answering with ⟨answer, replies, positive, later, run⟩
        rw [readLoop, if_neg done, bind_read,
          if_neg (by rw [toInt32_of_lt small]; omega), bind_of_ok run]
        simp only [if_neg (show ¬ answer < 0 by omega)]
        generalize amount : min left answer.toNat = got
        rw [bind_of_ok (show Program.update _ _ = (.ok (), moved log (log.readPos + got) replies)
          from rfl)]
        rcases @induction (left - got) (data ++ bytesAt device log.readPos got)
          (moved log (log.readPos + got) replies) later (by omega) (by omega) with ⟨last, still, rest⟩
        refine ⟨last, still, ?_⟩
        have bytes := bytesAt_add device log.readPos got (left - got)
        rw [show got + (left - got) = left by omega] at bytes
        rw [rest, bytes, ← List.append_assoc,
          show log.readPos + left = log.readPos + got + (left - got) by omega]
        rfl

theorem read_reads (device : Nat → UInt8) {toRead : Nat} {log : ZenMetaLog}
    (small : toRead < 2 ^ 31) (answering : Answering log.zbd.replies) (more : log.readPos < (log.zbd.zone log.zone).wp)
    (within : log.readPos + toRead ≤
      (log.zbd.zone log.zone).start + (log.zbd.zone log.zone).maxCapacity) :
    ∃ replies, Answering replies ∧ ZenMetaLog.read device toRead log =
      (.ok (bytesAt device log.readPos toRead), moved log (log.readPos + toRead) replies) := by
  rcases @readLoop_reads device toRead toRead [] log answering (Nat.le_refl _) small with
    ⟨replies, later, run⟩
  refine ⟨replies, later, ?_⟩
  rw [ZenMetaLog.read, bind_read]
  rw [if_neg (by omega), if_neg (by omega)]
  exact run

theorem bytesAt_record {crc : Crc32c} {device : Nat → UInt8} {blockSize place : Nat} {record : Bytes}
    (short : Short blockSize record)
    (written : bytesAt device place (physSz blockSize record) = recordBuffer crc blockSize record) :
    bytesAt device place 8 = headerOf crc record ∧
      bytesAt device (place + 8) record.length = record := by
  have above := le_roundUp blockSize (record.length + zMetaHeaderSize)
  rw [← short.physSz, zMetaHeaderSize] at above
  rw [recordBuffer_eq crc short, List.append_assoc] at written
  constructor
  · rw [← take_bytesAt device place (show 8 ≤ physSz blockSize record by omega), written,
      List.take_left' (length_headerOf crc record)]
  · have rest := drop_bytesAt device place (show 8 ≤ physSz blockSize record by omega)
    rw [written, List.drop_left' (length_headerOf crc record)] at rest
    rw [← take_bytesAt device (place + 8) (show record.length ≤ physSz blockSize record - 8 by omega),
      ← rest, List.take_left]

theorem headerOf_fields {crc : Crc32c} {record : Bytes} (short : record.length < 2 ^ 32) :
    UInt32.ofNat (Bytes.toNat ((headerOf crc record).take 4)) =
        crc.mask (crc.ofRecord record.length record) ∧
      Bytes.toNat (((headerOf crc record).drop 4).take 4) = record.length := by
  have first : (headerOf crc record).take 4 =
      Bytes.ofNat 4 (crc.mask (crc.ofRecord record.length record)).toNat :=
    List.take_left' (Bytes.length_ofNat _ _)
  have second : (headerOf crc record).drop 4 = Bytes.ofNat 4 record.length :=
    List.drop_left' (Bytes.length_ofNat _ _)
  rw [first, second, List.take_of_length_le (by simp),
    Bytes.toNat_ofNat_of_lt (by simpa using UInt32.toNat_lt _),
    Bytes.toNat_ofNat_of_lt (by simpa using short), UInt32.ofNat_toNat]
  exact ⟨rfl, rfl⟩

theorem readRecord_reads {crc : Crc32c} {device : Nat → UInt8} {record : Bytes} {log : ZenMetaLog}
    (answering : Answering log.zbd.replies) (short : Short log.zbd.blockSize record)
    (some : record ≠ []) (aligned : log.zbd.blockSize ∣ log.readPos)
    (written : bytesAt device log.readPos (physSz log.zbd.blockSize record) =
      recordBuffer crc log.zbd.blockSize record)
    (below : log.readPos + physSz log.zbd.blockSize record ≤ (log.zbd.zone log.zone).wp)
    (within : log.readPos + physSz log.zbd.blockSize record ≤
      (log.zbd.zone log.zone).start + (log.zbd.zone log.zone).maxCapacity) :
    ∃ replies, Answering replies ∧ readRecord crc device log =
      (.ok record, moved log (log.readPos + physSz log.zbd.blockSize record) replies) := by
  have above := le_roundUp log.zbd.blockSize (record.length + zMetaHeaderSize)
  rw [← short.physSz, zMetaHeaderSize] at above
  have positive := List.length_pos_of_ne_nil some
  have small : record.length < 2 ^ 31 := by
    rw [short.physSz, zMetaHeaderSize] at above
    rw [Short, zMetaHeaderSize] at short
    omega
  rcases bytesAt_record short written with ⟨header, body⟩
  rcases @headerOf_fields crc record (by omega) with ⟨sum, size⟩
  rcases @read_reads device zMetaHeaderSize log (by decide) answering (by omega)
    (by rw [zMetaHeaderSize]; omega) with ⟨replies, later, first⟩
  rw [show zMetaHeaderSize = 8 from rfl, header] at first
  rcases @read_reads device record.length (moved log (log.readPos + 8) replies) small later
    (show log.readPos + 8 < (log.zbd.zone log.zone).wp by omega)
    (show log.readPos + 8 + record.length ≤
      (log.zbd.zone log.zone).start + (log.zbd.zone log.zone).maxCapacity by omega) with
    ⟨last, still, second⟩
  rw [show (moved log (log.readPos + 8) replies).readPos = log.readPos + 8 from rfl, body] at second
  have full : (headerOf crc record).isEmpty = false := by
    rw [List.isEmpty_eq_false_iff, ← List.length_pos_iff, length_headerOf]
    omega
  refine ⟨last, still, ?_⟩
  rw [readRecord, show zMetaHeaderSize = 8 from rfl, bind_of_ok first]
  simp only [full, size, sum, Bool.false_eq_true, if_false]
  rw [bind_of_ok second, crc.unmask_mask, if_neg (by simp), bind_update]
  have place : roundUp log.zbd.blockSize (log.readPos + 8 + record.length) =
      log.readPos + physSz log.zbd.blockSize record := by
    rw [Nat.add_assoc, roundUp_add aligned, short.physSz, zMetaHeaderSize, Nat.add_comm 8]
  rw [← place]
  rfl

theorem readRecords_reads {crc : Crc32c} {device : Nat → UInt8} {records : List Bytes}
    {log : ZenMetaLog} (block : 0 < log.zbd.blockSize) (answering : Answering log.zbd.replies)
    (short : ∀ record ∈ records, Short log.zbd.blockSize record ∧ record ≠ [])
    (aligned : log.zbd.blockSize ∣ log.readPos)
    (written : bytesAt device log.readPos (sizeOf log.zbd.blockSize records) =
      records.flatMap (recordBuffer crc log.zbd.blockSize))
    (below : log.readPos + sizeOf log.zbd.blockSize records ≤ (log.zbd.zone log.zone).wp)
    (within : log.readPos + sizeOf log.zbd.blockSize records ≤
      (log.zbd.zone log.zone).start + (log.zbd.zone log.zone).maxCapacity) (count : Nat) :
    ∃ replies, Answering replies ∧ readRecords crc device (records.length + count) log =
      (readRecords crc device count >>= fun rest => pure (records ++ rest))
        (moved log (log.readPos + sizeOf log.zbd.blockSize records) replies) := by
  induction records generalizing log with
  | nil =>
      refine ⟨log.zbd.replies, answering, ?_⟩
      rw [List.length_nil, Nat.zero_add]
      have same : moved log (log.readPos + sizeOf log.zbd.blockSize []) log.zbd.replies = log := rfl
      rw [same]
      rcases run : readRecords crc device count log with ⟨failure | value, next⟩
      · rw [bind_of_error run]
      · rw [bind_of_ok run]
        rfl
  | cons record records induction =>
      have here := short record List.mem_cons_self
      have size : sizeOf log.zbd.blockSize (record :: records) =
          physSz log.zbd.blockSize record + sizeOf log.zbd.blockSize records := rfl
      rw [size] at written below within ⊢
      rw [bytesAt_add, List.flatMap_cons] at written
      rcases List.append_inj written
        (by rw [length_bytesAt, length_recordBuffer crc here.1]) with ⟨head, tail⟩
      rcases readRecord_reads answering here.1 here.2 aligned head (by omega) (by omega) with
        ⟨replies, later, run⟩
      rcases @induction (moved log (log.readPos + physSz log.zbd.blockSize record) replies) block later
        (fun other member => short other (List.mem_cons_of_mem _ member))
        (Nat.dvd_add aligned (here.1.physSz ▸ dvd_roundUp block _)) tail
        (show log.readPos + physSz log.zbd.blockSize record + sizeOf log.zbd.blockSize records ≤
          (log.zbd.zone log.zone).wp by omega)
        (show log.readPos + physSz log.zbd.blockSize record + sizeOf log.zbd.blockSize records ≤
          (log.zbd.zone log.zone).start + (log.zbd.zone log.zone).maxCapacity by omega) with
        ⟨last, still, rest⟩
      refine ⟨last, still, ?_⟩
      rw [List.length_cons, Nat.add_right_comm, readRecords, bind_of_ok run]
      have place : moved (moved log (log.readPos + physSz log.zbd.blockSize record) replies)
          ((moved log (log.readPos + physSz log.zbd.blockSize record) replies).readPos +
            sizeOf log.zbd.blockSize records) last =
          moved log (log.readPos + (physSz log.zbd.blockSize record +
            sizeOf log.zbd.blockSize records)) last := by
        rw [← Nat.add_assoc]
        rfl
      rw [show (moved log (log.readPos + physSz log.zbd.blockSize record) replies).zbd.blockSize =
        log.zbd.blockSize from rfl, place] at rest
      rcases run : readRecords crc device count
          (moved log (log.readPos + (physSz log.zbd.blockSize record +
            sizeOf log.zbd.blockSize records)) last) with ⟨failure | value, next⟩
      · rw [bind_of_error run] at rest ⊢
        exact bind_of_error rest
      · rw [bind_of_ok run] at rest ⊢
        exact bind_of_ok rest

/-! ## The end of the log -/

theorem readRecord_end {crc : Crc32c} {device : Nat → UInt8} {log : ZenMetaLog}
    (ended : (log.zbd.zone log.zone).wp ≤ log.readPos) :
    readRecord crc device log = (.ok [], log) := by
  have run : ZenMetaLog.read device zMetaHeaderSize log = (.ok [], log) := by
    rw [ZenMetaLog.read, bind_read, if_pos ended]
    rfl
  rw [readRecord, bind_of_ok run]
  rfl

theorem readRecord_across {crc : Crc32c} {device : Nat → UInt8} {log : ZenMetaLog}
    (more : log.readPos < (log.zbd.zone log.zone).wp)
    (full : (log.zbd.zone log.zone).start + (log.zbd.zone log.zone).maxCapacity ≤ log.readPos) :
    readRecord crc device log = (.error (.ioError "Read across zone"), log) := by
  have run : ZenMetaLog.read device zMetaHeaderSize log =
      (.error (.ioError "Read across zone"), log) := by
    rw [ZenMetaLog.read, bind_read, if_neg (by omega), if_pos (by rw [zMetaHeaderSize]; omega)]
    rfl
  rw [readRecord, bind_of_error run]

/-- The log of a zone that is found when the device is opened again. -/
def reopen (log : ZenMetaLog) (replies : List Int) : ZenMetaLog :=
  ofZone { log.zbd with
    zone := fun number => reopened log.zbd.zoneSize (log.zbd.zone number)
    replies := replies } log.zone

theorem readRecords_one {crc : Crc32c} {device : Nat → UInt8} {records : List Bytes}
    {log : ZenMetaLog} :
    (readRecords crc device 1 >>= fun rest => pure (records ++ rest) : MetaProgram _) log =
      (readRecord crc device >>= fun record => pure (records ++ [record]) : MetaProgram _) log := by
  rcases run : readRecord crc device log with ⟨failure | value, next⟩
  · rw [bind_of_error run]
    exact bind_of_error (bind_of_error run)
  · rw [bind_of_ok run]
    have one : readRecords crc device 1 log = (.ok [value], next) := bind_of_ok run
    exact bind_of_ok one

structure Reopened (log : ZenMetaLog) (filled : Nat) (found : ZenMetaLog) : Prop where
  same : SameZone log found
  readPos : found.readPos = (log.zbd.zone log.zone).start
  fits : filled ≤ (log.zbd.zone log.zone).maxCapacity
  wp : (found.zbd.zone found.zone).wp = (log.zbd.zone log.zone).start +
    if filled = (log.zbd.zone log.zone).maxCapacity then log.zbd.zoneSize else filled

theorem Added.reopened {memory : Nat → UInt8} {bytes : Bytes} {log after : ZenMetaLog}
    (fresh : Fresh log) (added : Added memory bytes log after) (replies : List Int) :
    Reopened log bytes.length (reopen after replies) where
  same := added.same.trans ⟨rfl, rfl, rfl, rfl, rfl⟩
  readPos := added.same.start
  fits := by
    have room := added.capacity
    rw [fresh.capacity] at room
    omega
  wp := by
    have wp := added.wp
    rw [fresh.empty] at wp
    have found : ((reopen after replies).zbd.zone (reopen after replies).zone).wp =
        if (after.zbd.zone after.zone).wp - (after.zbd.zone after.zone).start =
            (after.zbd.zone after.zone).maxCapacity then
          (after.zbd.zone after.zone).start + after.zbd.zoneSize
        else (after.zbd.zone after.zone).wp := rfl
    rw [found, wp, added.same.start, added.same.maxCapacity, added.same.zoneSize,
      Nat.add_sub_cancel_left]
    split
    all_goals rfl

/-- The records come back, and after them the end of the log, exactly if they do not fill
a zone whose capacity is below its size. -/
theorem records_read_iff (crc : Crc32c) (memory : Nat → UInt8) {log after : ZenMetaLog}
    {records : List Bytes} (fresh : Fresh log)
    (short : ∀ record ∈ records, Short log.zbd.blockSize record ∧ record ≠ [])
    (accepted : addRecords crc records log = (.ok (), after)) {replies : List Int}
    (answering : Answering replies) :
    (readRecords crc (after.zbd.stored memory) (records.length + 1) (reopen after replies)).1 =
        .ok (records ++ [[]]) ↔
      ¬ (sizeOf log.zbd.blockSize records = (log.zbd.zone log.zone).maxCapacity ∧
        (log.zbd.zone log.zone).maxCapacity < log.zbd.zoneSize) := by
  have added := addRecords_added (fun record member => (short record member).1) accepted memory
  have total := @length_buffers crc _ _ (fun record member => (short record member).1)
  have written : bytesAt (after.zbd.stored memory) (log.zbd.zone log.zone).start
      (sizeOf log.zbd.blockSize records) = records.flatMap (recordBuffer crc log.zbd.blockSize) := by
    rw [added.stored, fresh.empty, ← total]
    exact bytesAt_store _ _ _
  have found := added.reopened fresh replies
  have answers : Answering (reopen after replies).zbd.replies := answering
  rw [total] at found
  generalize reopen after replies = log' at found answers ⊢
  have size := fresh.size
  have fits := found.fits
  have wp := found.wp
  have below : (log.zbd.zone log.zone).start + sizeOf log.zbd.blockSize records ≤
      (log'.zbd.zone log'.zone).wp := by
    rw [wp]
    split
    all_goals omega
  rw [← found.same.blockSize, ← found.readPos] at written
  rcases readRecords_reads (found.same.blockSize ▸ fresh.block) answers
    (fun record member => found.same.blockSize ▸ short record member)
    (by rw [found.same.blockSize, found.readPos]; exact fresh.aligned) written
    (by rw [found.same.blockSize, found.readPos]; exact below)
    (by rw [found.same.blockSize, found.readPos, found.same.start, found.same.maxCapacity]; omega) 1
    with ⟨last, still, run⟩
  rw [run, readRecords_one, found.same.blockSize, found.readPos]
  by_cases full : sizeOf log.zbd.blockSize records = (log.zbd.zone log.zone).maxCapacity ∧
      (log.zbd.zone log.zone).maxCapacity < log.zbd.zoneSize
  · -- The write pointer is behind the capacity, so the next header is asked for.
    have across := @readRecord_across crc (after.zbd.stored memory)
      (moved log' ((log.zbd.zone log.zone).start + sizeOf log.zbd.blockSize records) last)
      (show (log.zbd.zone log.zone).start + sizeOf log.zbd.blockSize records <
          (log'.zbd.zone log'.zone).wp by
        rw [wp, if_pos full.1]
        omega)
      (show (log'.zbd.zone log'.zone).start + (log'.zbd.zone log'.zone).maxCapacity ≤
          (log.zbd.zone log.zone).start + sizeOf log.zbd.blockSize records by
        rw [found.same.start, found.same.maxCapacity, full.1])
    rw [bind_of_error across]
    simp [full]
  · have ended := @readRecord_end crc (after.zbd.stored memory)
      (moved log' ((log.zbd.zone log.zone).start + sizeOf log.zbd.blockSize records) last)
      (show (log'.zbd.zone log'.zone).wp ≤
          (log.zbd.zone log.zone).start + sizeOf log.zbd.blockSize records by
        rw [wp]
        split
        all_goals omega)
    rw [bind_of_ok ended]
    exact iff_of_true rfl full

/-! ## Two records in a small zone -/

def sumCrc : Crc32c where
  extend crc data := data.foldl (fun sum byte => sum + byte.toUInt32) crc
  mask crc := crc + 0xa282ead8
  unmask crc := crc - 0xa282ead8
  unmask_mask crc := by simp

/-- The second zone of a device with zones of 64 bytes and blocks of 16. -/
def metaZone (capacity : Nat) : ZenMetaLog :=
  ofZone
    { zone := fun number => { start := number * 64, capacity := capacity, maxCapacity := capacity
                              wp := number * 64, lifetime := wlthNotSet, usedCapacity := 0
                              busy := true }
      ioZones := [], walZones := [], blockSize := 16, zoneSize := 64, finishThreshold := 0
      activeIoZones := 0, openIoZones := 0, maxNrActiveIoZones := 1, maxNrOpenIoZones := 1
      zoneDeferredStatus := none, replies := [], trace := [] } 1

def twoRecords : List Bytes := [[1, 2, 3], [4, 5, 6, 7, 8, 9, 10, 11]]

theorem records_read_back :
    (readRecords sumCrc ((addRecords sumCrc twoRecords (metaZone 64)).2.zbd.stored fun _ => 0) 3
        (reopen (addRecords sumCrc twoRecords (metaZone 64)).2 [1, 2])).1 =
      .ok (twoRecords ++ [[]]) := by
  have fresh : Fresh (metaZone 64) := ⟨by decide, by decide, rfl, rfl, by decide⟩
  have short : ∀ record ∈ twoRecords, Short 16 record ∧ record ≠ [] := by
    unfold Short
    decide
  have accepted : (addRecords sumCrc twoRecords (metaZone 64)).1 = .ok () := by decide +kernel
  have answering : Answering [1, 2] := by
    unfold Answering
    decide
  exact (records_read_iff sumCrc (fun _ => 0) fresh short (Prod.ext accepted rfl) answering).mpr
    (by decide)

/-- Two records that fill the zone: the third read is an error instead of the end. -/
theorem full_zone_read_across :
    (addRecords sumCrc twoRecords (metaZone 32)).1 = .ok () ∧
      (readRecords sumCrc ((addRecords sumCrc twoRecords (metaZone 32)).2.zbd.stored fun _ => 0) 2
        (reopen (addRecords sumCrc twoRecords (metaZone 32)).2 [])).1 = .ok twoRecords ∧
      (readRecords sumCrc ((addRecords sumCrc twoRecords (metaZone 32)).2.zbd.stored fun _ => 0) 3
        (reopen (addRecords sumCrc twoRecords (metaZone 32)).2 [])).1 =
          .error (.ioError "Read across zone") := by
  decide +kernel

end Zwal.MetaRoundTrip
