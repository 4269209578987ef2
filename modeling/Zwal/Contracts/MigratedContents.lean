import Zwal.Contracts.CapacityAccounting
import Zwal.Contracts.OrdinaryReads
import Zwal.Device.Geometry

/-! # What garbage collection does to the contents of a file

`MigrateFileExtents` points an extent at its copy whatever became of the copying: a read or
a write that failed, a length cut down to 32 bits, an offset that is not aligned and a zone
without room for the header all leave a copy that is not one. -/

namespace Zwal.MigratedContents

open FileSystem ZonedBlockDevice FileState Memory OrdinaryReads

/-! ## Answers of the device -/

/-- What is left of the answers after a transfer of `n` bytes none of whose answers is below
`least`. -/
def transferred (least : Int) : (answers : List Int) → (n : Nat) → Option (List Int)
  | answers, 0 => some answers
  | [], _ => some []
  | answer :: rest, n =>
      if answer < least then none else transferred least rest (n - answer.toNat)

theorem transferred_cons {least answer : Int} {answers left : List Int} {n : Nat}
    (through : transferred least (answer :: answers) (n + 1) = some left) :
    least ≤ answer ∧ transferred least answers (n + 1 - answer.toNat) = some left := by
  rw [transferred] at through
  · split at through
    · cases through
    · exact ⟨by omega, through⟩
  · simp

theorem readFrom_transferred (device : Nat → UInt8) {answers left : List Int} {n : Nat}
    (through : transferred 1 answers n = some left) (offset : Nat) (read : Bytes) :
    readFrom device answers offset n read = (left, some (read ++ bytesAt device offset n)) := by
  induction answers generalizing offset n read with
  | nil =>
      cases n with
      | zero | succ =>
          cases through
          simp [readFrom]
  | cons answer answers induction =>
      cases n with
      | zero =>
          cases through
          rw [readFrom]
          simp
      | succ n =>
          rcases transferred_cons through with ⟨positive, onward⟩
          have same : n + 1 - min answer.toNat (n + 1) = n + 1 - answer.toNat := by omega
          rw [readFrom, if_neg (by omega), if_neg (by omega)]
          · simp only [same]
            rw [induction onward, List.append_assoc, ← same, ← bytesAt_add,
              Nat.add_sub_cancel' (Nat.min_le_right _ _)]
          · simp

theorem writeLoop_transferred (number : Nat) {answers left : List Int} {data : Bytes}
    (through : transferred 0 answers data.length = some left) (zbd : ZonedBlockDevice) :
    ∃ chunks, chunks.flatten = data ∧ writeLoop number answers data zbd =
      (.ok (), { zbd.advanceAll number chunks with replies := left }) := by
  induction answers generalizing data zbd with
  | nil =>
      cases data with
      | nil =>
          cases through
          exact ⟨[], rfl, rfl⟩
      | cons byte rest =>
          cases through
          exact ⟨[byte :: rest], List.flatten_singleton, rfl⟩
  | cons answer answers induction =>
      cases data with
      | nil =>
          cases through
          exact ⟨[], rfl, rfl⟩
      | cons byte rest =>
          rcases transferred_cons through with ⟨answered, onward⟩
          rw [← List.length_cons, ← List.length_drop] at onward
          rcases induction onward (zbd.advance number ((byte :: rest).take answer.toNat)) with
            ⟨chunks, whole, run⟩
          refine ⟨(byte :: rest).take answer.toNat :: chunks, ?_, ?_⟩
          · rw [List.flatten_cons, whole, List.take_append_drop]
          · rw [writeLoop, if_neg (by omega)]
            · exact run
            · simp

theorem appendZone_transferred {target : Nat} {data : Bytes} {zbd : ZonedBlockDevice}
    {left : List Int} (room : data.length ≤ (zbd.zone target).capacity)
    (through : transferred 0 zbd.replies data.length = some left) :
    ∃ chunks, chunks.flatten = data ∧ appendZone target data zbd =
      (.ok (), { zbd.advanceAll target chunks with replies := left }) := by
  rcases writeLoop_transferred target through zbd with ⟨chunks, whole, run⟩
  refine ⟨chunks, whole, ?_⟩
  rw [appendZone, bind_read, if_neg (by omega), run]

/-! ## Copying -/

def padded (blockSize length : Nat) : Nat := length + padSize blockSize length

@[simp] theorem padded_zero (blockSize : Nat) : padded blockSize 0 = 0 := by
  rw [padded, padSize, Nat.zero_mod, if_pos rfl]

theorem padded_step {blockSize : Nat} (blocks : blockSize ∣ migrateStep) (length : Nat) :
    padded blockSize length = padded blockSize (min length migrateStep) +
      padded blockSize (length - min length migrateStep) := by
  by_cases long : migrateStep ≤ length
  · have full : padSize blockSize migrateStep = 0 := if_pos (Nat.mod_eq_zero_of_dvd blocks)
    have remainder : length % blockSize = (length - migrateStep) % blockSize := by
      rcases blocks with ⟨count, same⟩
      rw [same] at long ⊢
      conv_lhs => rw [← Nat.sub_add_cancel long]
      exact Nat.add_mul_mod_self_left _ _ _
    have pads : padSize blockSize length = padSize blockSize (length - migrateStep) := by
      rw [padSize, padSize, remainder]
    rw [Nat.min_eq_right long, padded, padded, padded, pads, full]
    omega
  · rw [Nat.min_eq_left (by omega), Nat.sub_self, padded_zero, Nat.add_zero]

theorem padded_le {blockSize limit length : Nat} (blocks : blockSize ∣ limit) (below : length ≤ limit) :
    padded blockSize length ≤ limit := by
  have aligned := alignedSize_le true blocks below
  rw [alignedSize] at aligned
  rw [padded, padSize]
  split
  · exact below
  · rename_i odd
    simpa [odd] using aligned

/-- What is left of the answers after the steps of a copy, each a read and a write. -/
def copyAnswers (blockSize : Nat) : (fuel : Nat) → (answers : List Int) → (length : Nat) →
    Option (List Int)
  | 0, answers, _ => some answers
  | fuel + 1, answers, length =>
      if length = 0 then some answers
      else
        let count := padded blockSize (min length migrateStep)
        (transferred 1 answers count).bind fun middle =>
          (transferred 0 middle count).bind fun rest =>
            copyAnswers blockSize fuel rest (length - min length migrateStep)

theorem copyAnswers_succ {blockSize fuel length : Nat} {answers left : List Int} (some_left : length ≠ 0)
    (through : copyAnswers blockSize (fuel + 1) answers length = some left) :
    ∃ middle rest, transferred 1 answers (padded blockSize (min length migrateStep)) = some middle ∧
      transferred 0 middle (padded blockSize (min length migrateStep)) = some rest ∧
      copyAnswers blockSize fuel rest (length - min length migrateStep) = some left := by
  rw [copyAnswers, if_neg some_left] at through
  rcases Option.bind_eq_some_iff.mp through with ⟨middle, read, onward⟩
  rcases Option.bind_eq_some_iff.mp onward with ⟨rest, written, last⟩
  exact ⟨middle, rest, read, written, last⟩

theorem migrateLoop_succ (device : Nat → UInt8) (target fuel offset : Nat) {length : Nat}
    (some_left : length ≠ 0) {zbd : ZonedBlockDevice} (blocks : zbd.blockSize ∣ migrateStep)
    {replies : List Int} {data : Bytes}
    (read : readFrom device zbd.replies offset (padded zbd.blockSize (min length migrateStep)) [] =
      (replies, some data)) :
    migrateLoop device target (fuel + 1) offset length zbd =
      migrateLoop device target fuel (offset + data.length) (length - min length migrateStep)
        (appendZone target data { zbd with replies := replies }).2 := by
  have ran : readDevice device offset (padded zbd.blockSize (min length migrateStep)) zbd =
      (.ok (some data), { zbd with replies := replies }) := by
    have below := padded_le blocks (Nat.min_le_right length migrateStep)
    have step : migrateStep < 2 ^ 31 := by decide
    have more : 0 < padded zbd.blockSize (min length migrateStep) := by
      have advancing : 0 < migrateStep := by decide
      rw [padded]
      omega
    rw [readDevice, toInt32_of_lt (by omega), if_neg (by omega), Int.toNat_natCast, read]
  rw [migrateLoop, if_neg some_left, bind_read, ← padded, bind_of_ok ran]
  rfl

theorem migrateLoop_whole (device : Nat → UInt8) (target : Nat) {fuel offset length : Nat}
    {zbd : ZonedBlockDevice} {left : List Int} (enough : length ≤ fuel)
    (blocks : zbd.blockSize ∣ migrateStep)
    (room : padded zbd.blockSize length ≤ (zbd.zone target).capacity)
    (through : copyAnswers zbd.blockSize fuel zbd.replies length = some left) :
    ∃ chunks, chunks.flatten = bytesAt device offset (padded zbd.blockSize length) ∧
      (migrateLoop device target fuel offset length zbd).2 =
        { zbd.advanceAll target chunks with replies := left } := by
  induction fuel generalizing offset length zbd with
  | zero =>
      have none : length = 0 := by omega
      cases through
      exact ⟨[], by rw [none, padded_zero]; rfl, rfl⟩
  | succ fuel induction =>
      by_cases none : length = 0
      · rw [copyAnswers, if_pos none] at through
        cases through
        refine ⟨[], by rw [none, padded_zero]; rfl, ?_⟩
        rw [migrateLoop, if_pos none]
        rfl
      · rcases copyAnswers_succ none through with ⟨middle, rest, reads, writes, onward⟩
        have advancing : 0 < migrateStep := by decide
        have parts := padded_step blocks length
        rw [migrateLoop_succ device target fuel offset none blocks
            (readFrom_transferred device reads offset []),
          List.nil_append, length_bytesAt]
        generalize padded zbd.blockSize (min length migrateStep) = count at parts writes
        rw [← length_bytesAt device offset count] at writes
        rcases @appendZone_transferred target (bytesAt device offset count)
          { zbd with replies := middle } rest (by rw [length_bytesAt]; exact Nat.le_trans (by omega) room)
          writes with ⟨chunks, whole, run⟩
        rw [run, advanceAll_answered]
        have space := capacity_advanceAll target chunks zbd
        rw [whole, length_bytesAt] at space
        have block : (zbd.advanceAll target chunks).blockSize = zbd.blockSize := by rw [advanceAll_eq]
        have fits : padded (zbd.advanceAll target chunks).blockSize (length - min length migrateStep) ≤
            ((zbd.advanceAll target chunks).zone target).capacity := by
          rw [block, space]
          omega
        rw [← block] at blocks onward
        rcases @induction (offset + count) (length - min length migrateStep)
          { zbd.advanceAll target chunks with replies := rest } (by omega) blocks fits onward with
          ⟨more, bytes, last⟩
        refine ⟨chunks ++ more, ?_, last.trans ?_⟩
        · rw [List.flatten_append, whole, bytes, parts, bytesAt_add, block]
        · rw [advanceAll_answered, FileState.advanceAll_append]

theorem migrateData_whole (device : Nat → UInt8) {offset length target : Nat} {zbd : ZonedBlockDevice}
    {left : List Int} (blocks : zbd.blockSize ∣ migrateStep) (aligned : zbd.blockSize ∣ offset)
    (short : length < 2 ^ 32) (room : padded zbd.blockSize length ≤ (zbd.zone target).capacity)
    (through : copyAnswers zbd.blockSize length zbd.replies length = some left) :
    ∃ chunks, chunks.flatten = bytesAt device offset (padded zbd.blockSize length) ∧
      (migrateData device offset length target zbd).2 =
        { zbd.advanceAll target chunks with replies := left } := by
  rw [migrateData, bind_read,
    if_neg (by rw [Nat.mod_eq_zero_of_dvd aligned]; exact fun other => other rfl),
    Nat.mod_eq_of_lt short]
  exact migrateLoop_whole device target (Nat.le_refl _) blocks room through

/-! ## Extents -/

/-- Extent `extent` is copied to `target` completely: the part of the zone that is read
begins at a block, its length is not cut, there is room for the header and the padding, and
the device serves every request. -/
structure Copyable (header : Nat) (zbd : ZonedBlockDevice) (extent : ZoneExtent) (target : Nat)
    (left : List Int) : Prop where
  behind : header ≤ extent.start
  aligned : zbd.blockSize ∣ extent.start - header
  short : extent.length + header < 2 ^ 32
  room : padded zbd.blockSize (extent.length + header) ≤ (zbd.zone target).capacity
  served : copyAnswers zbd.blockSize (extent.length + header) zbd.replies (extent.length + header) =
    some left

/-- Zone `target` with a copy of the extent. -/
def occupied (header : Nat) (extent : ZoneExtent) (target : Nat) (left : List Int)
    (zbd : ZonedBlockDevice) : ZonedBlockDevice :=
  let zone := zbd.zone target
  let count := padded zbd.blockSize (extent.length + header)
  { zbd.setZone target { zone with
      wp := zone.wp + count, capacity := zone.capacity - count,
      usedCapacity := zone.usedCapacity + .ofNat extent.length } with replies := left }

local instance chosenDecidable (place : Nat × Nat) (chosen : List (Nat × Nat)) : Decidable (place ∈ chosen) :=
  decidable_of_iff (chosen.contains place = true) List.contains_iff_mem

def Copyables (file : ZoneFile) (chosen : List (Nat × Nat)) :
    List ZoneExtent → ZonedBlockDevice → Prop
  | [], _ => True
  | extent :: rest, before =>
      if (extent.start, extent.length) ∈ chosen then
        match (before.getBestOpenZoneMatch file.lifetime (extent.length % 2 ^ 32)).2 with
        | none => Copyables file chosen rest before
        | some target => ∃ left, Copyable (headerOf file) before extent target left ∧
            Copyables file chosen rest (occupied (headerOf file) extent target left before)
      else Copyables file chosen rest before

theorem copyables_trace (file : ZoneFile) (chosen : List (Nat × Nat)) (extents : List ZoneExtent)
    (zbd : ZonedBlockDevice) (trace : List IoEvent) :
    Copyables file chosen extents { zbd with trace := trace } ↔ Copyables file chosen extents zbd := by
  induction extents generalizing zbd with
  | nil => exact Iff.rfl
  | cons extent extents induction =>
      rw [Copyables, Copyables]
      have same : ({ zbd with trace := trace } : ZonedBlockDevice).getBestOpenZoneMatch file.lifetime
          (extent.length % 2 ^ 32) =
          zbd.getBestOpenZoneMatch file.lifetime (extent.length % 2 ^ 32) := rfl
      rw [same]
      split
      · cases (zbd.getBestOpenZoneMatch file.lifetime (extent.length % 2 ^ 32)).2 with
        | none => exact induction zbd
        | some target =>
            refine exists_congr fun left => and_congr ?_
              (induction (occupied (headerOf file) extent target left zbd))
            constructor
            all_goals
              intro copyable
              exact ⟨copyable.behind, copyable.aligned, copyable.short, copyable.room, copyable.served⟩
      · exact induction zbd

def Preserves (memory : Nat → UInt8) (before after : ZonedBlockDevice) : Prop :=
  ∀ zone start length, Within before zone start length → Within after zone start length ∧
    bytesAt (after.stored memory) start length = bytesAt (before.stored memory) start length

theorem Preserves.refl (memory : Nat → UInt8) (zbd : ZonedBlockDevice) : Preserves memory zbd zbd :=
  fun _ _ _ within => ⟨within, rfl⟩

theorem Preserves.trans {memory : Nat → UInt8} {first second third : ZonedBlockDevice}
    (one : Preserves memory first second) (two : Preserves memory second third) :
    Preserves memory first third := by
  intro zone start length within
  rcases one zone start length within with ⟨middle, same⟩
  rcases two zone start length middle with ⟨last, onward⟩
  exact ⟨last, onward.trans same⟩

theorem Preserves.of_rests (memory : Nat → UInt8) {before after : ZonedBlockDevice}
    (rests : Rests before after) (spaced : Spaced before) : Preserves memory before after := by
  intro zone start length within
  exact ⟨within.rests rests spaced, by rw [rests.stored]⟩

theorem addUsed_rests (zbd : ZonedBlockDevice) (extent : ZoneExtent) (left : List Int) :
    Rests zbd { addUsed zbd extent with replies := left } := by
  have counted : Rests zbd (addUsed zbd extent) := .setZone rfl rfl rfl
  exact ⟨counted.fixed.trans (.withTokens _ _ _ _ _), counted.stored, counted.zones⟩

theorem bytesAt_store_part {memory device : Nat → UInt8} {place offset total skip count : Nat}
    {bytes : Bytes} (whole : bytes = bytesAt device offset total) (inside : skip + count ≤ total) :
    bytesAt (store memory place bytes) (place + skip) count = bytesAt device (offset + skip) count := by
  have stored := bytesAt_store memory place bytes
  rw [whole, length_bytesAt] at stored
  have part := congrArg (fun bytes => (List.drop skip bytes).take count) stored
  rw [drop_bytesAt _ _ (by omega), drop_bytesAt _ _ (by omega), take_bytesAt _ _ (by omega),
    take_bytesAt _ _ (by omega)] at part
  rw [whole]
  exact part

theorem copied_occupied {header target : Nat} {extent : ZoneExtent} {chunks : List Bytes}
    {zbd : ZonedBlockDevice} (left : List Int)
    (size : chunks.flatten.length = padded zbd.blockSize (extent.length + header)) {start : Nat} :
    ∃ trace, { copied target chunks ⟨start, extent.length, target⟩ zbd with replies := left } =
      { occupied header extent target left zbd with trace := trace } := by
  refine ⟨(zbd.advanceAll target chunks).trace, ?_⟩
  rw [copied, occupied, ← size, addUsed]
  simp only [advanceAll_eq, setZone, Function.update_self, Function.update_idem]

structure Copy (memory device : Nat → UInt8) (before after : ZonedBlockDevice)
    (extent moved : ZoneExtent) : Prop where
  length : moved.length = extent.length
  within : Within after moved.zone moved.start moved.length
  bytes : bytesAt (after.stored memory) moved.start moved.length =
    bytesAt device extent.start extent.length
  spaced : Spaced after
  preserves : Preserves memory before after

theorem migrateExtent_whole (memory device : Nat → UInt8) {file : ZoneFile} {extent : ZoneExtent}
    {zbd : ZonedBlockDevice} {target : Nat} {left : List Int}
    (chosen : (zbd.getBestOpenZoneMatch file.lifetime (extent.length % 2 ^ 32)).2 = some target)
    (blocks : zbd.blockSize ∣ migrateStep) (spaced : Spaced zbd)
    (copyable : Copyable (headerOf file) zbd extent target left) :
    ∃ moved after trace, migrateExtent device file extent zbd = (.ok moved, after) ∧
      Copy memory device zbd after extent moved ∧
      after = { occupied (headerOf file) extent target left zbd with trace := trace } := by
  rw [migrateExtent_eq, chosen]
  generalize headerOf file = header at copyable ⊢
  have found := (getBestOpenZoneMatch_matching chosen).1
  have capacity : ((zbd.setBusy target true).zone target).capacity = (zbd.zone target).capacity := by
    rw [setBusy, zone_setZone]
  rcases @migrateData_whole device (extent.start - header) (extent.length + header) target
    (zbd.setBusy target true) left blocks copyable.aligned copyable.short
    (capacity.symm ▸ copyable.room) copyable.served with ⟨chunks, whole, run⟩
  have size : chunks.flatten.length = padded zbd.blockSize (extent.length + header) := by
    rw [whole, length_bytesAt]
    rfl
  have fits : chunks.flatten.length ≤ (zbd.zone target).capacity := size ▸ copyable.room
  rcases @copied_occupied header target extent chunks zbd left size ((zbd.zone target).wp + header)
    with ⟨trace, same⟩
  have ended : (addUsed (migrateData device (extent.start - header) (extent.length + header) target
      (zbd.setBusy target true)).2 ⟨(zbd.zone target).wp + header, extent.length, target⟩).setBusy
        target false =
      { copied target chunks ⟨(zbd.zone target).wp + header, extent.length, target⟩ zbd with
        replies := left } := by
    rw [run]
    exact held_copied found.idle rfl
  have wide := spaced.advanceAll fits
  have bytes : bytesAt ((zbd.advanceAll target chunks).stored memory) ((zbd.zone target).wp + header)
      extent.length = bytesAt device extent.start extent.length := by
    have behind := copyable.behind
    rw [stored_advanceAll, bytesAt_store_part whole (by rw [padded]; omega)]
    congr 1
    omega
  have there : Within (zbd.advanceAll target chunks) target ((zbd.zone target).wp + header)
      extent.length := by
    have low := spaced.below target found.member
    refine ⟨(FileState.advanceAll_fixed target chunks zbd).ioZones ▸ found.member, ?_, ?_⟩
    · rw [zone_advanceAll]
      exact Nat.le_add_right_of_le low
    · rw [zone_advanceAll, size, padded]
      simp only
      omega
  have rests := addUsed_rests (zbd.advanceAll target chunks)
    ⟨(zbd.zone target).wp + header, extent.length, target⟩ left
  have later := Preserves.of_rests memory rests wide
  have early : Preserves memory zbd (zbd.advanceAll target chunks) := by
    intro zone start length within
    exact ⟨within.advanceAll target chunks, within.bytesAt_advanceAll spaced found.member fits memory⟩
  refine ⟨⟨(zbd.zone target).wp + header, extent.length, target⟩, _, trace, ?_, ?_, same⟩
  · rw [← ended]
    rfl
  · exact ⟨rfl, (later _ _ _ there).1, (later _ _ _ there).2.trans bytes, rests.spaced wide,
      early.trans later⟩

/-! ## The pass -/

structure CopiedAll (memory device : Nat → UInt8) (before after : ZonedBlockDevice)
    (extents moved : List ZoneExtent) : Prop where
  contents : contentOf (after.stored memory) moved = contentOf device extents
  lengths : moved.map ZoneExtent.length = extents.map ZoneExtent.length
  spaced : Spaced after
  preserves : Preserves memory before after

theorem CopiedAll.cons {memory device : Nat → UInt8} {first second third : ZonedBlockDevice}
    {extent moved : ZoneExtent} {extents others : List ZoneExtent}
    (copy : Copy memory device first second extent moved)
    (rest : CopiedAll memory device second third extents others) :
    CopiedAll memory device first third (extent :: extents) (moved :: others) := by
  rcases rest.preserves _ _ _ copy.within with ⟨_, same⟩
  refine ⟨?_, ?_, rest.spaced, copy.preserves.trans rest.preserves⟩
  · rw [contentOf_cons, contentOf_cons, rest.contents, same, copy.bytes]
  · rw [List.map_cons, List.map_cons, rest.lengths, copy.length]

theorem migrateList_cons (device : Nat → UInt8) (file : ZoneFile) (chosen : List (Nat × Nat))
    (extent : ZoneExtent) (extents : List ZoneExtent) :
    migrateList device file chosen (extent :: extents) =
      ((if (extent.start, extent.length) ∈ chosen then migrateExtent device file extent
        else pure extent) >>= fun moved =>
          migrateList device file chosen extents >>= fun others => pure (moved :: others)) := by
  rw [migrateList]
  split
  · rfl
  · rfl

theorem migrateList_whole (memory device : Nat → UInt8) {file : ZoneFile} {chosen : List (Nat × Nat)}
    {extents : List ZoneExtent} {zbd : ZonedBlockDevice} (blocks : zbd.blockSize ∣ migrateStep)
    (spaced : Spaced zbd)
    (within : ∀ extent ∈ extents, Within zbd extent.zone extent.start extent.length)
    (held : ∀ extent ∈ extents, bytesAt (zbd.stored memory) extent.start extent.length =
      bytesAt device extent.start extent.length)
    (copyables : Copyables file chosen extents zbd) :
    ∃ moved after, migrateList device file chosen extents zbd = (.ok moved, after) ∧
      CopiedAll memory device zbd after extents moved := by
  induction extents generalizing zbd with
  | nil => exact ⟨[], zbd, rfl, rfl, rfl, spaced, .refl _ _⟩
  | cons extent extents induction =>
      have here := within extent List.mem_cons_self
      have later := fun other member => within other (List.mem_cons_of_mem _ member)
      have bytes := fun other member => held other (List.mem_cons_of_mem _ member)
      have kept : Copy memory device zbd zbd extent extent :=
        ⟨rfl, here, held extent List.mem_cons_self, spaced, .refl _ _⟩
      -- the head, copied or not, and what is left to do
      have head : ∃ moved middle, (if (extent.start, extent.length) ∈ chosen then
            migrateExtent device file extent else pure extent) zbd = (.ok moved, middle) ∧
          Copy memory device zbd middle extent moved ∧ middle.blockSize = zbd.blockSize ∧
          Copyables file chosen extents middle := by
        rw [Copyables] at copyables
        by_cases member : (extent.start, extent.length) ∈ chosen
        · rw [if_pos member] at copyables ⊢
          cases match_eq : (zbd.getBestOpenZoneMatch file.lifetime (extent.length % 2 ^ 32)).2 with
          | none =>
              rw [match_eq] at copyables
              refine ⟨extent, zbd, ?_, kept, rfl, copyables⟩
              rw [migrateExtent_eq, match_eq]
              rfl
          | some target =>
              rw [match_eq] at copyables
              rcases copyables with ⟨left, copyable, rest⟩
              rcases migrateExtent_whole memory device match_eq blocks spaced copyable with
                ⟨moved, middle, trace, run, copy, same⟩
              refine ⟨moved, middle, run, copy, by rw [same]; rfl, ?_⟩
              rw [same]
              exact (copyables_trace file chosen extents _ trace).mpr rest
        · rw [if_neg member] at copyables ⊢
          exact ⟨extent, zbd, rfl, kept, rfl, copyables⟩
      rcases head with ⟨moved, middle, run, copy, block, rest⟩
      rcases induction (block ▸ blocks) copy.spaced
        (fun other member => (copy.preserves _ _ _ (later other member)).1)
        (fun other member => (copy.preserves _ _ _ (later other member)).2.trans (bytes other member))
        rest with ⟨others, after, onward, all⟩
      refine ⟨moved :: others, after, ?_, all.cons copy⟩
      rw [migrateList_cons, bind_of_ok run, bind_of_ok onward]
      rfl

theorem dropReplaced_rests (pairs : List (ZoneExtent × ZoneExtent)) (zbd : ZonedBlockDevice) :
    Rests zbd (dropReplaced zbd pairs) := by
  rw [dropReplaced]
  induction pairs generalizing zbd with
  | nil => exact Std.Refl.refl _
  | cons pair pairs induction =>
      rw [List.foldl_cons]
      apply trans_of Rests _ (induction _)
      split
      · exact .setZone rfl rfl rfl
      · exact Std.Refl.refl _

theorem stored_of_migrateEnd {fs : FileSystem} {k : Nat} {moved : List ZoneExtent}
    {zbd after : ZonedBlockDevice} (ended : MigrateEnd fs k moved zbd after) (memory : Nat → UInt8) :
    after.stored memory = zbd.stored memory := by
  rcases ended with ⟨replies, _, rfl | ⟨_, rfl⟩⟩
  · rw [(dropReplaced_rests _ _).stored]
    rfl
  · rfl

def reading (answers : List Int) (state : FileState) : FileState :=
  { state with zbd := { state.zbd with replies := answers } }

theorem ordinary_reading {state : FileState} (ordinary : Ordinary (reading [] state))
    {answers : List Int} (positive : ∀ answer ∈ answers, 0 < answer) :
    Ordinary (reading answers state) :=
  ⟨ordinary.named, ordinary.plain, ordinary.size, positive⟩

/-- What a read of file `k` returns, the device having held `memory` before. -/
def readBack (build : ReaderBuild) (config : BuildConfig) (env : ReaderEnv) (memory : Nat → UInt8)
    (answers : List Int) (k offset n : Nat) (direct : Bool) (fs : FileSystem) : Except IOStatus Bytes :=
  (positionedRead build config { env with device := fs.zbd.stored memory } offset n direct
    (reading answers (fs.view k))).1

/-! ## Reading alike

Two files with the same content, cut into extents of the same lengths, are read alike, however
large the request. -/

section Alike

variable {env other : ReaderEnv} {state twin : FileState}
  (contents : contentOf other.device twin.file.extents = contentOf env.device state.file.extents)
  (lengths : twin.file.extents.map ZoneExtent.length = state.file.extents.map ZoneExtent.length)
  (block : twin.zbd.blockSize = state.zbd.blockSize)

include contents lengths block

theorem fileReadLoop_alike (direct : Bool) {offset rSz fuel extentEnd rOff twinEnd twinOff : Nat}
    {out : Bytes} {r : Int} (answers : ∀ answer ∈ state.zbd.replies, 0 < answer)
    (others : ∀ answer ∈ twin.zbd.replies, 0 < answer)
    (midway : Midway env.device state.file.extents offset rSz extentEnd rOff out)
    (also : Midway other.device twin.file.extents offset rSz twinEnd twinOff out)
    (place : out.length < rSz → twinEnd - twinOff = extentEnd - rOff) :
    (fileReadLoop other direct offset rSz fuel twinEnd twinOff out r twin).1 =
      (fileReadLoop env direct offset rSz fuel extentEnd rOff out r state).1 := by
  rw [fileReadLoop, fileReadLoop]
  induction fuel generalizing extentEnd rOff twinEnd twinOff out r state twin with
  | zero =>
      by_cases done : out.length = rSz
      · rw [readLoop_done other direct 0 done, readLoop_done env direct 0 done]
      · rw [readLoop, readLoop, if_neg done]
        rfl
  | succ fuel induction =>
      by_cases done : out.length = rSz
      · rw [readLoop_done other direct _ done, readLoop_done env direct _ done]
      · have within := midway.within
        have more : out.length < rSz := by omega
        have inside := (midway.cursor more).inside
        have there := (also.cursor more).inside
        have gap := place more
        have refused : ∀ (reader : ReaderEnv) (held : FileState) (ends place : Nat),
            held.zbd.blockSize = state.zbd.blockSize → ends - place = extentEnd - rOff →
            toInt32 (alignedSize direct state.zbd.blockSize
              (min (rSz - out.length) (extentEnd - rOff))) ≤ 0 →
            readLoop reader direct (fun read extentEnd rOff => min (rSz - read) (extentEnd - rOff))
              offset rSz (fuel + 1) ends place out r held = (.ok (out, -1), held) := by
          intro reader held ends place same equal none
          rw [← same, ← equal] at none
          exact readLoop_refused reader direct done none
        generalize amount : min (rSz - out.length) (extentEnd - rOff) = preadSz at refused
        by_cases none : toInt32 (alignedSize direct state.zbd.blockSize preadSz) ≤ 0
        · rw [refused other twin _ _ block gap none, refused env state _ _ rfl rfl none]
        · rcases Int.eq_ofNat_of_zero_le (Int.le_of_lt (Int.not_le.mp none)) with ⟨asked, request⟩
          have positive : 0 < asked := by omega
          generalize taken : min preadSz asked = count
          rw [← amount] at request taken
          rcases @readLoop_step offset rSz extentEnd rOff count out env direct
            (fun read extentEnd rOff => min (rSz - read) (extentEnd - rOff)) fuel r state done asked
            positive request taken answers with ⟨replies, later, run⟩
          rw [← gap, ← block] at request
          rw [← gap] at taken
          rcases @readLoop_step offset rSz twinEnd twinOff count out other direct
            (fun read extentEnd rOff => min (rSz - read) (extentEnd - rOff)) fuel r twin done asked
            positive request taken others with ⟨replies', later', run'⟩
          have bytes : out ++ bytesAt other.device twinOff count =
              out ++ bytesAt env.device rOff count := by
            rw [also.copy more (by omega), midway.copy more (by omega), contents]
          rw [run, run', bytes]
          by_cases ended : out.length + count ≠ rSz ∧ rOff + count = extentEnd
          · rcases midway.across (by omega) ended.2 with ⟨extent, next, onward⟩
            rcases @Midway.across _ _ _ _ _ _ count _ also (by omega) (by omega) with
              ⟨extent', next', onward'⟩
            rw [if_pos ended, if_pos ⟨ended.1, by omega⟩, next, next']
            rw [bytes] at onward'
            refine @induction { state with zbd := { state.zbd with replies := replies } }
              { twin with zbd := { twin.zbd with replies := replies' } } contents lengths block _ _ _ _
              _ _ later later' onward onward' fun _ => ?_
            have same := (getExtent_lengths lengths next next').1
            omega
          · rw [if_neg ended, if_neg (by omega)]
            have onward' := also.inside more (by omega) (by omega) (show ¬ (_ ∧ twinOff + count = _) by omega)
            rw [bytes] at onward'
            exact @induction { state with zbd := { state.zbd with replies := replies } }
              { twin with zbd := { twin.zbd with replies := replies' } } contents lengths block _ _ _ _
              _ _ later later' (midway.inside more (by omega) (by omega) ended) onward'
              fun _ => by omega

theorem positionedRead_alike (build : ReaderBuild) (config : BuildConfig) (ordinary : Ordinary state)
    (also : Ordinary twin) (size : twin.file.fileSize = state.file.fileSize) (offset n : Nat)
    (direct : Bool) :
    (positionedRead build config other offset n direct twin).1 =
      (positionedRead build config env offset n direct state).1 := by
  rw [positionedRead_plain build config other also, positionedRead_plain build config env ordinary, size]
  split
  · rfl
  · have inside : offset < state.file.fileSize := by omega
    rcases getExtent_isSome (ordinary.size.symm ▸ inside) with ⟨⟨extent, rOff⟩, found⟩
    rcases getExtent_isSome (also.size.symm ▸ size.symm ▸ inside) with ⟨⟨extent', rOff'⟩, there⟩
    have bounded : offset + min n (state.file.fileSize - offset) ≤ spanOf state.file.extents := by
      rw [ordinary.size]
      omega
    have bounded' : offset + min n (state.file.fileSize - offset) ≤ spanOf twin.file.extents := by
      rw [also.size, size]
      omega
    rcases getExtent_lengths lengths found there with ⟨length, place⟩
    have low := (mem_of_getExtent found).2
    have low' := (mem_of_getExtent there).2
    have alike := @fileReadLoop_alike _ _ _ _ contents lengths block direct offset _
      (min n (state.file.fileSize - offset) + 1) _ _ _ _ _ 0 ordinary.answers also.answers
      (midway_of_getExtent env.device found bounded)
      (midway_of_getExtent other.device there bounded') (fun _ => by omega)
    rw [fileRead, fileRead, bind_read, bind_read]
    simp only [found, there, size]
    generalize one : fileReadLoop other direct offset _ _ _ _ [] 0 twin = ran at alike
    generalize two : fileReadLoop env direct offset _ _ _ _ [] 0 state = ran' at alike
    rcases ran with ⟨result, held⟩
    rcases ran' with ⟨result', held'⟩
    obtain rfl : result = result' := alike
    cases result with
    | error failure => rw [bind_of_error one, bind_of_error two]
    | ok result =>
        rw [bind_of_ok one, bind_of_ok two]
        rcases result with ⟨out, r⟩
        by_cases failed : r < 0
        · simp only [if_pos failed]
          rfl
        · simp only [if_neg failed]
          rfl

end Alike

theorem readBack_of_ordinary (build : ReaderBuild) (config : BuildConfig) (env : ReaderEnv)
    (memory : Nat → UInt8) {answers : List Int} {k : Nat} {fs : FileSystem}
    (ordinary : Ordinary (reading [] (fs.view k))) (blocks : fs.zbd.blockSize ∣ 2 ^ 30)
    (positive : ∀ answer ∈ answers, 0 < answer) (offset : Nat) {n : Nat} (small : n < 2 ^ 30)
    (direct : Bool) :
    readBack build config env memory answers k offset n direct fs =
      .ok (((contentOf (fs.zbd.stored memory) (fs.object k).file.extents).drop offset).take n) :=
  positionedRead_returns build config { env with device := fs.zbd.stored memory }
    (ordinary_reading ordinary positive) blocks offset small direct

theorem migrateFileExtents_contents (memory : Nat → UInt8) {fs : FileSystem} {name : String}
    {chosen : List (Nat × Nat)} {k : Nat} (grounded : Grounded fs) (found : fs.getFile name = some k)
    (named : (fs.object k).file.linkfiles ≠ []) (blocks : fs.zbd.blockSize ∣ migrateStep) (spaced : Spaced fs.zbd)
    (within : ∀ extent ∈ (fs.object k).file.extents,
      Within fs.zbd extent.zone extent.start extent.length)
    (copyables : (fs.object k).file.openForWr = false →
      Copyables (fs.object k).file chosen (fs.object k).file.extents fs.zbd) :
    ∃ after, migrateFileExtents (fs.zbd.stored memory) name chosen fs = (.ok (), after) ∧
      contentOf (after.zbd.stored memory) (after.object k).file.extents =
        contentOf (fs.zbd.stored memory) (fs.object k).file.extents ∧
      (after.object k).file.extents.map ZoneExtent.length =
        (fs.object k).file.extents.map ZoneExtent.length ∧
      after.zbd.blockSize = fs.zbd.blockSize ∧
      (after.object k).file.linkfiles = (fs.object k).file.linkfiles ∧
      (after.object k).file.fileSize = (fs.object k).file.fileSize := by
  rcases migrateFileExtents_cases (fs.zbd.stored memory) name chosen grounded with
    run | ⟨j, after, same, unlocked, ⟨step, run⟩ | ⟨nameless, _⟩⟩
  · exact ⟨fs, run, rfl, rfl, rfl, rfl, rfl⟩
  · obtain rfl : j = k := Option.some.inj (same.symm.trans found)
    rcases step.repointed (grounded.inside found) with ⟨moved, zbd, copies, repointed, ended⟩
    rcases repointed.object with ⟨count, held⟩
    rcases migrateList_whole memory (fs.zbd.stored memory) blocks spaced within (fun _ _ => rfl)
      (copyables unlocked) with ⟨others, other, again, all⟩
    rw [copies.run] at again
    cases again
    refine ⟨after, run, ?_⟩
    rw [held, stored_of_migrateEnd ended]
    exact ⟨all.contents, all.lengths, (copies.migrated.fixed.trans ended.fixed).blockSize, rfl, rfl⟩
  · obtain rfl : j = k := Option.some.inj (same.symm.trans found)
    exact absurd nameless named

/-- If every chosen extent for which a zone is found can be copied, the pass returns and every
read of the file returns what it returned before. -/
theorem migrated_file_reads_same (build : ReaderBuild) (config : BuildConfig) (env : ReaderEnv)
    (memory : Nat → UInt8) {fs : FileSystem} {name : String} (chosen : List (Nat × Nat)) {k : Nat}
    (grounded : Grounded fs) (found : fs.getFile name = some k)
    (ordinary : Ordinary (reading [] (fs.view k)))
    (blocks : fs.zbd.blockSize ∣ migrateStep) (spaced : Spaced fs.zbd)
    (within : ∀ extent ∈ (fs.object k).file.extents,
      Within fs.zbd extent.zone extent.start extent.length)
    (copyables : (fs.object k).file.openForWr = false →
      Copyables (fs.object k).file chosen (fs.object k).file.extents fs.zbd) :
    ∃ after, migrateFileExtents (fs.zbd.stored memory) name chosen fs = (.ok (), after) ∧
      ∀ (earlier later : List Int), (∀ answer ∈ earlier, 0 < answer) → (∀ answer ∈ later, 0 < answer) →
        ∀ (offset n : Nat) (direct : Bool),
          readBack build config env memory later k offset n direct after =
            readBack build config env memory earlier k offset n direct fs := by
  rcases migrateFileExtents_contents memory grounded found ordinary.named blocks spaced within
    copyables with ⟨after, run, contents, lengths, block, links, size⟩
  have span : spanOf (after.object k).file.extents = spanOf (fs.object k).file.extents :=
    congrArg List.sum lengths
  have still : Ordinary (reading [] (after.view k)) := by
    have same : (after.object k).file.hasLogName = (fs.object k).file.hasLogName := by
      rw [ZoneFile.hasLogName, ZoneFile.getFilename, links]
      rfl
    refine ⟨?_, ?_, ?_, List.forall_mem_nil _⟩
    · exact fun empty => ordinary.named (links ▸ empty)
    · exact same.trans ordinary.plain
    · exact span.trans (ordinary.size.trans size.symm)
  refine ⟨after, run, ?_⟩
  intro earlier later positive also offset n direct
  rw [readBack, readBack]
  exact positionedRead_alike contents lengths block build config (ordinary_reading ordinary positive)
    (ordinary_reading still also) size offset n direct

/-! ## One block

The block of `b.sst` in zone 20 is moved to zone 19. -/

open CapacityAccounting

theorem filled_grounded {replies : List Int}
    (returned : allOk smallConfig 4 fillZones (twoZones replies) = true) : Grounded (filled replies) := by
  have runs : Runs smallConfig GivesBack (twoZones replies) (filled replies) :=
    runs_runAll (allPermitted_of_forall givesBack_fillZones _) returned
  exact (@Runs.keep _ _ (fun _ => True) (fun _ _ _ _ => trivial) _ _ runs
    (twoZones_made replies).grounded trivial).1

/-- File 2 is `b.sst`, a block of equal bytes. -/
def Filled (byte : UInt8) (fs : FileSystem) : Prop :=
  (fs.object 2).file.linkfiles = ["b.sst"] ∧ (fs.object 2).file.fileSize = 64 ∧
    fs.zbd.blockSize = 64 ∧ contentOf (fs.zbd.stored fun _ => 0) (fs.object 2).file.extents = List.replicate 64 byte

instance (byte : UInt8) (fs : FileSystem) : Decidable (Filled byte fs) :=
  inferInstanceAs (Decidable (_ ∧ _))

theorem Filled.ordinary {byte : UInt8} {fs : FileSystem} (block : Filled byte fs) :
    Ordinary (reading [] (fs.view 2)) := by
  rcases block with ⟨links, size, _, contents⟩
  have names : (fs.object 2).file.hasLogName = false := by
    rw [ZoneFile.hasLogName, ZoneFile.getFilename, links]
    decide
  refine ⟨fun none => ?_, names, ?_, List.forall_mem_nil _⟩
  · exact absurd (links.symm.trans none) (by simp)
  · have span := congrArg List.length contents
    rw [length_contentOf, List.length_replicate] at span
    exact span.trans size.symm

theorem Filled.readBack {byte : UInt8} {fs : FileSystem} (block : Filled byte fs) (build : ReaderBuild)
    (env : ReaderEnv) :
    readBack build smallConfig env (fun _ => 0) [] 2 0 64 false fs = .ok (List.replicate 64 byte) := by
  rw [readBack_of_ordinary _ _ _ _ block.ordinary (by rw [block.2.2.1]; decide +kernel)
    (List.forall_mem_nil _) 0 (by decide), block.2.2.2]
  rfl

theorem migrated_file_reads_same_block :
    (filled []).getFile "b.sst" = some 2 ∧
    ((filled []).object 2).file.extents = [⟨21056, 64, 20⟩] ∧
    ∃ after, migrateFileExtents ((filled []).zbd.stored fun _ => 0) "b.sst" [(21056, 64)] (filled []) =
        (.ok (), after) ∧ (after.object 2).file.extents = [⟨20032, 64, 19⟩] ∧
      ∀ build env, readBack build smallConfig env (fun _ => 0) [] 2 0 64 false after =
        .ok (List.replicate 64 3) := by
  have grounded : Grounded (filled []) := filled_grounded (by decide +kernel)
  have facts : (filled []).getFile "b.sst" = some 2 ∧
      ((filled []).object 2).file.extents = [⟨21056, 64, 20⟩] ∧
      Filled 3 (filled []) ∧ headerOf ((filled []).object 2).file = 0 ∧
      ((filled []).zbd.getBestOpenZoneMatch ((filled []).object 2).file.lifetime (64 % 2 ^ 32)).2 =
        some 19 ∧
      (filled []).zbd.blockSize = 64 ∧ (filled []).zbd.zoneSize = 1024 ∧
      (filled []).zbd.ioZones = [19, 20] ∧
      (∀ number ∈ [19, 20], number ∉ (filled []).zbd.walZones) ∧
      (filled []).zbd.replies = [] ∧
      (migrateFileExtents ((filled []).zbd.stored fun _ => 0) "b.sst" [(21056, 64)]
        (filled [])).1 = .ok () ∧
      ((migrateFileExtents ((filled []).zbd.stored fun _ => 0) "b.sst" [(21056, 64)]
        (filled [])).2.object 2).file.extents = [⟨20032, 64, 19⟩] := by
    decide +kernel
  have zones : ((filled []).zbd.zone 19).start = 19456 ∧ ((filled []).zbd.zone 20).start = 20480 ∧
      ((filled []).zbd.zone 19).wp = 20032 ∧ ((filled []).zbd.zone 20).wp = 21120 ∧
      ((filled []).zbd.zone 19).capacity = 64 ∧ ((filled []).zbd.zone 20).capacity = 0 := by
    decide +kernel
  generalize filled [] = fs at grounded facts zones ⊢
  rcases facts with ⟨found, extents, filled, header, target, block, zoneSize, io, apart, answers,
    ends, moved⟩
  rcases zones with ⟨start, start', wp, wp', capacity, capacity'⟩
  have spaced : Spaced fs.zbd := by
    refine ⟨by omega, ?_, io ▸ apart, ?_, ?_⟩
    all_goals
      rw [io]
      simp only [List.forall_mem_cons, List.not_mem_nil, false_implies, implies_true, and_true]
      omega
  have within : ∀ extent ∈ (fs.object 2).file.extents,
      Within fs.zbd extent.zone extent.start extent.length := by
    rw [extents]
    intro extent member
    rw [List.mem_singleton.mp member]
    exact ⟨by rw [io]; decide, by simp only; omega, by simp only; omega⟩
  have copyables : Copyables (fs.object 2).file [(21056, 64)]
      (fs.object 2).file.extents fs.zbd := by
    rw [extents, Copyables, if_pos (by decide), target, header]
    refine ⟨[], ⟨Nat.zero_le _, ?_, by decide, ?_, ?_⟩, trivial⟩
    · rw [block]
      decide
    · rw [block, capacity]
      decide
    · rw [block, answers]
      decide
  have same := fun build env => migrated_file_reads_same build smallConfig env (fun _ => 0) [(21056, 64)]
    grounded found filled.ordinary (by rw [block]; decide) spaced within fun _ => copyables
  refine ⟨found, extents, _, Prod.ext ends rfl, moved, ?_⟩
  intro build env
  rcases same build env with ⟨after, run, reads⟩
  rw [run, reads [] [] (List.forall_mem_nil _) (List.forall_mem_nil _), filled.readBack]

def untilRead : List Int := List.replicate 15 1000000 ++ [-1]

/-- The read fails, and the file is pointed at a block that was never written. -/
theorem failed_read_loses_contents :
    Made (twoZones untilRead) ∧ allOk smallConfig 4 fillZones (twoZones untilRead) = true ∧
    (filled untilRead).getFile "b.sst" = some 2 ∧
    ∃ after, migrateFileExtents ((filled untilRead).zbd.stored fun _ => 0) "b.sst" [(21056, 64)]
        (filled untilRead) = (.ok (), after) ∧
      ∀ build env, readBack build smallConfig env (fun _ => 0) [] 2 0 64 false (filled untilRead) =
          .ok (List.replicate 64 3) ∧
        readBack build smallConfig env (fun _ => 0) [] 2 0 64 false after =
          .ok (List.replicate 64 0) := by
  have facts : allOk smallConfig 4 fillZones (twoZones untilRead) = true ∧
      (filled untilRead).getFile "b.sst" = some 2 ∧ Filled 3 (filled untilRead) ∧
      (migrateFileExtents ((filled untilRead).zbd.stored fun _ => 0) "b.sst" [(21056, 64)]
        (filled untilRead)).1 = .ok () ∧
      Filled 0 (migrateFileExtents ((filled untilRead).zbd.stored fun _ => 0) "b.sst" [(21056, 64)]
        (filled untilRead)).2 := by
    decide +kernel
  rcases facts with ⟨returned, found, before, ends, after⟩
  refine ⟨twoZones_made untilRead, returned, ?_⟩
  generalize filled untilRead = fs at found before ends after ⊢
  exact ⟨found, _, Prod.ext ends rfl, fun build env =>
    ⟨before.readBack build env, after.readBack build env⟩⟩

end Zwal.MigratedContents
