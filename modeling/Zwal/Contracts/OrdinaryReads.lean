import Zwal.File.Content
import Zwal.Fs.Runs

/-! # Reading ordinary files

A read of a file that is not a write-ahead log copies the requested part of the content,
however the device cuts its answers. `NormalPositionedRead`, the copy nothing calls, does
the same unless the file was created as a write-ahead log and has been renamed since: the size
of its first request is then below zero, and `ZonedBlockDevice::Read` takes the low 32 bits. -/

namespace Zwal.OrdinaryReads

open FileState ZonedBlockDevice ZoneFile Memory

def requested (env : ReaderEnv) (file : ZoneFile) (offset n : Nat) : Bytes :=
  ((contentOf env.device file.extents).drop offset).take n

def Returns (bytes : Bytes) (result : Except IOStatus Bytes × FileState) : Prop :=
  result.1 = .ok bytes

structure Ordinary (state : FileState) : Prop where
  named : state.file.linkfiles ≠ []
  plain : state.file.hasLogName = false
  size : spanOf state.file.extents = state.file.fileSize
  answers : ∀ answer ∈ state.zbd.replies, 0 < answer

/-! ## The copy loop -/

/-- Where a pass of the loop begins: `out` is read, and the cursor stands behind it. -/
structure Midway (device : Nat → UInt8) (extents : List ZoneExtent) (offset rSz extentEnd rOff : Nat)
    (out : Bytes) : Prop where
  copied : out = ((contentOf device extents).drop offset).take out.length
  within : out.length ≤ rSz
  bounded : offset + rSz ≤ spanOf extents
  cursor : out.length < rSz → Cursor extents (offset + out.length) extentEnd rOff

variable {device : Nat → UInt8} {extents : List ZoneExtent} {offset rSz extentEnd rOff count : Nat}
  {out : Bytes}

theorem Midway.copy (midway : Midway device extents offset rSz extentEnd rOff out)
    (more : out.length < rSz) (fits : rOff + count ≤ extentEnd) :
    out ++ bytesAt device rOff count =
      ((contentOf device extents).drop offset).take (out.length + count) := by
  have bytes := (midway.cursor more).bytes fits device
  rw [← List.drop_drop] at bytes
  rw [List.take_add, ← bytes, ← midway.copied]

theorem Midway.inside (midway : Midway device extents offset rSz extentEnd rOff out)
    (more : out.length < rSz) (fits : rOff + count ≤ extentEnd) (left : out.length + count ≤ rSz)
    (stays : ¬ (out.length + count ≠ rSz ∧ rOff + count = extentEnd)) :
    Midway device extents offset rSz extentEnd (rOff + count) (out ++ bytesAt device rOff count) := by
  have length : (out ++ bytesAt device rOff count).length = out.length + count := by simp
  refine ⟨?_, by omega, midway.bounded, ?_⟩
  · rw [length]
    exact midway.copy more fits
  · intro unfinished
    rw [length] at unfinished ⊢
    rw [← Nat.add_assoc]
    exact (midway.cursor more).advance (by omega)

theorem Midway.across (midway : Midway device extents offset rSz extentEnd rOff out)
    (left : out.length + count < rSz) (ends : rOff + count = extentEnd) :
    ∃ extent, getExtent extents (offset + (out.length + count)) = some (extent, extent.start) ∧
      Midway device extents offset rSz (extent.start + extent.length) extent.start
        (out ++ bytesAt device rOff count) := by
  have length : (out ++ bytesAt device rOff count).length = out.length + count := by simp
  have cursor := midway.cursor (by omega)
  have inside := cursor.inside
  have bounded := midway.bounded
  rcases @getExtent_isSome extents (offset + (out.length + count)) (by omega) with
    ⟨⟨extent, found⟩, next⟩
  have start : found = extent.start := by
    apply cursor.next
    rw [← next]
    congr 1
    omega
  subst start
  refine ⟨extent, next, ?_, by omega, bounded, ?_⟩
  · rw [length]
    exact midway.copy (by omega) (by omega)
  · intro _
    rw [length]
    exact cursor_of_getExtent next

theorem le_alignedSize (direct : Bool) (blockSize preadSz : Nat) :
    preadSz ≤ alignedSize direct blockSize preadSz := by
  rw [alignedSize]
  split
  · exact Nat.le_add_right _ _
  · exact Nat.le_refl _

theorem alignedSize_le (direct : Bool) {blockSize preadSz limit : Nat} (blocks : blockSize ∣ limit)
    (below : preadSz ≤ limit) : alignedSize direct blockSize preadSz ≤ limit := by
  rw [alignedSize]
  split
  · rename_i odd
    simp only [Bool.and_eq_true, bne_iff_ne, ne_eq] at odd
    rcases blocks with ⟨count, rfl⟩
    have split := Nat.div_add_mod preadSz blockSize
    have positive : 0 < blockSize := by
      rcases Nat.eq_zero_or_pos blockSize with zero | positive
      · rw [zero, Nat.zero_mul] at below
        omega
      · exact positive
    have rest := Nat.mod_lt preadSz positive
    have fewer : preadSz / blockSize < count := by
      by_contra more
      have whole := Nat.mul_le_mul_left blockSize (Nat.le_of_not_lt more)
      omega
    have next := Nat.mul_le_mul_left blockSize (Nat.succ_le_of_lt fewer)
    rw [Nat.mul_succ] at next
    omega
  · exact below

section Loop

variable (env : ReaderEnv) (direct : Bool) {size : (read extentEnd rOff : Nat) → Nat} {fuel : Nat}
  {r : Int} {state : FileState}

theorem readLoop_done (fuel : Nat) (done : out.length = rSz) :
    readLoop env direct size offset rSz fuel extentEnd rOff out r state = (.ok (out, r), state) := by
  cases fuel with
  | zero =>
      rw [readLoop, if_pos done]
      rfl
  | succ fuel =>
      rw [readLoop, if_pos done]
      rfl

theorem readLoop_refused (more : out.length ≠ rSz)
    (refused : toInt32 (alignedSize direct state.zbd.blockSize (size out.length extentEnd rOff)) ≤ 0) :
    readLoop env direct size offset rSz (fuel + 1) extentEnd rOff out r state =
      (.ok (out, -1), state) := by
  have read : onDevice (readDevice env.device rOff (alignedSize direct state.zbd.blockSize
      (size out.length extentEnd rOff))) state = (.ok none, state) :=
    onDevice_of_ok (readDevice_of_refused env.device rOff refused state.zbd)
  rw [readLoop, if_neg more, bind_read]
  simp only
  rw [bind_of_ok read]
  rfl

/-- One pass of the loop, the device answering with bytes. -/
theorem readLoop_step (more : out.length ≠ rSz) {asked : Nat} (positive : 0 < asked)
    (request : toInt32 (alignedSize direct state.zbd.blockSize (size out.length extentEnd rOff)) =
      asked) (count_eq : min (size out.length extentEnd rOff) asked = count)
    (answers : ∀ answer ∈ state.zbd.replies, 0 < answer) :
    ∃ replies, (∀ answer ∈ replies, 0 < answer) ∧
      readLoop env direct size offset rSz (fuel + 1) extentEnd rOff out r state =
        (if out.length + count ≠ rSz ∧ rOff + count = extentEnd then
          match getExtent state.file.extents (offset + (out.length + count)) with
          | none => pure (out ++ bytesAt env.device rOff count, (asked : Int))
          | some (extent, _) =>
              readLoop env direct size offset rSz fuel (extent.start + extent.length) extent.start
                (out ++ bytesAt env.device rOff count) asked
        else readLoop env direct size offset rSz fuel extentEnd (rOff + count)
          (out ++ bytesAt env.device rOff count) asked : FileProgram (Bytes × Int))
            { state with zbd := { state.zbd with replies := replies } } := by
  have above : 0 < toInt32 (alignedSize direct state.zbd.blockSize
      (size out.length extentEnd rOff)) := by
    omega
  rcases readDevice_of_positive env.device rOff above answers with ⟨replies, later, run⟩
  rw [request, Int.toNat_natCast] at run
  refine ⟨replies, later, ?_⟩
  rw [readLoop, if_neg more, bind_read]
  simp only
  rw [bind_of_ok (onDevice_of_ok run)]
  have taken : (bytesAt env.device rOff asked).take (size out.length extentEnd rOff) =
      bytesAt env.device rOff count := by
    rw [← count_eq, ← take_bytesAt env.device rOff (Nat.min_le_right _ asked)]
    exact List.take_eq_take_min.trans (by rw [length_bytesAt])
  have whole : (bytesAt env.device rOff asked).length = asked := length_bytesAt _ _ _
  cases bytes : bytesAt env.device rOff asked with
  | nil =>
      rw [bytes, List.length_nil] at whole
      omega
  | cons byte rest =>
      rw [bytes] at taken whole
      simp only [taken, whole, List.length_append, length_bytesAt]
      all_goals rfl

variable (size) in
theorem readLoop_reads (answers : ∀ answer ∈ state.zbd.replies, 0 < answer)
    (sizes : ∀ {extentEnd rOff : Nat} {out : Bytes},
      Midway env.device state.file.extents offset rSz extentEnd rOff out → out.length < rSz →
        size out.length extentEnd rOff = min (rSz - out.length) (extentEnd - rOff))
    (blocks : state.zbd.blockSize ∣ 2 ^ 30) (small : rSz ≤ 2 ^ 30)
    (midway : Midway env.device state.file.extents offset rSz extentEnd rOff out)
    (enough : rSz ≤ out.length + fuel) (fine : 0 ≤ r) :
    ∃ last next, 0 ≤ last ∧ readLoop env direct size offset rSz fuel extentEnd rOff out r state =
      (.ok (requested env state.file offset rSz, last), next) := by
  induction fuel generalizing extentEnd rOff out r state with
  | zero =>
      have within := midway.within
      have done : out.length = rSz := by omega
      refine ⟨r, state, fine, ?_⟩
      rw [readLoop_done env direct 0 done, requested, ← done, ← midway.copied]
  | succ fuel induction =>
      by_cases done : out.length = rSz
      · refine ⟨r, state, fine, ?_⟩
        rw [readLoop_done env direct (fuel + 1) done, requested, ← done, ← midway.copied]
      · have within := midway.within
        have more : out.length < rSz := by omega
        have inside := (midway.cursor more).inside
        have size_eq := sizes midway more
        generalize amount : min (rSz - out.length) (extentEnd - rOff) = preadSz at size_eq
        have above := le_alignedSize direct state.zbd.blockSize preadSz
        have below := @alignedSize_le direct _ preadSz _ blocks (by omega)
        have request := @toInt32_of_lt (alignedSize direct state.zbd.blockSize preadSz) (by omega)
        rw [← size_eq] at above request amount
        rcases readLoop_step env direct done (by omega) request (Nat.min_eq_left above) answers with
          ⟨replies, later, run⟩
        rw [run]
        split
        · rename_i ended
          rcases midway.across (by omega) ended.2 with ⟨extent, next, onward⟩
          rw [next]
          exact induction later sizes blocks onward (by simp; omega) (by omega)
        · rename_i stays
          exact induction later sizes blocks (midway.inside more (by omega) (by omega) stays)
            (by simp; omega) (by omega)

end Loop

/-! ## The calls -/

theorem requested_beyond (env : ReaderEnv) {file : ZoneFile} (size : spanOf file.extents = file.fileSize)
    {offset : Nat} (beyond : file.fileSize ≤ offset) (n : Nat) : requested env file offset n = [] := by
  rw [requested, List.drop_eq_nil_of_le (by rw [length_contentOf]; omega), List.take_nil]

theorem requested_min (env : ReaderEnv) {file : ZoneFile} (size : spanOf file.extents = file.fileSize)
    (offset n : Nat) :
    requested env file offset (min n (file.fileSize - offset)) = requested env file offset n := by
  rw [requested, requested, ← size, ← length_contentOf env.device, ← List.length_drop,
    ← List.take_take, List.take_length]

theorem midway_of_getExtent (device : Nat → UInt8) {extent : ZoneExtent}
    (found : getExtent extents offset = some (extent, rOff)) (bounded : offset + rSz ≤ spanOf extents) :
    Midway device extents offset rSz (extent.start + extent.length) rOff [] where
  copied := by simp
  within := Nat.zero_le _
  bounded := bounded
  cursor _ := cursor_of_getExtent found

theorem fileRead_returns (env : ReaderEnv) {state : FileState} (ordinary : Ordinary state)
    (blocks : state.zbd.blockSize ∣ 2 ^ 30) {offset n : Nat} (inside : offset < state.file.fileSize)
    (small : n < 2 ^ 30) (direct : Bool) :
    Returns (requested env state.file offset n) (fileRead env offset n direct state) := by
  have size := ordinary.size
  rcases getExtent_isSome (size.symm ▸ inside) with ⟨⟨extent, rOff⟩, found⟩
  have first := @midway_of_getExtent _ _ (min n (state.file.fileSize - offset)) _ env.device _ found
    (by omega)
  rcases readLoop_reads env direct (fun read extentEnd rOff =>
      min (min n (state.file.fileSize - offset) - read) (extentEnd - rOff)) ordinary.answers
    (fun _ _ => rfl) blocks (by omega) first (Nat.le_trans (Nat.le_succ _) (Nat.le_add_left _ _))
    (Int.le_refl 0) with ⟨last, next, fine, run⟩
  rw [fileRead, bind_read]
  simp only [found, fileReadLoop]
  rw [bind_of_ok run, bind_setFile,
    if_neg (by omega), requested_min env size]
  rfl

theorem positionedRead_plain (build : ReaderBuild) (config : BuildConfig) (env : ReaderEnv)
    {state : FileState} (ordinary : Ordinary state) (offset n : Nat) (direct : Bool) :
    positionedRead build config env offset n direct state =
      (if state.file.fileSize ≤ offset then pure [] else fileRead env offset n direct) state := by
  have named : state.file.getFilename.isNone = false := by
    rw [ZoneFile.getFilename, Option.isNone_eq_false_iff, List.isSome_head?]
    exact ordinary.named
  rw [positionedRead, bind_read, named, ordinary.plain]
  simp only [Bool.false_eq_true, if_false]

theorem positionedRead_returns (build : ReaderBuild) (config : BuildConfig) (env : ReaderEnv)
    {state : FileState} (ordinary : Ordinary state) (blocks : state.zbd.blockSize ∣ 2 ^ 30)
    (offset : Nat) {n : Nat} (small : n < 2 ^ 30) (direct : Bool) :
    Returns (requested env state.file offset n)
      (positionedRead build config env offset n direct state) := by
  rw [positionedRead_plain build config env ordinary]
  split
  · rename_i beyond
    rw [requested_beyond env ordinary.size beyond]
    rfl
  · rename_i inside
    exact fileRead_returns env ordinary blocks (Nat.lt_of_not_le inside) small direct

theorem normalPositionedRead_beyond (env : ReaderEnv) {state : FileState} (ordinary : Ordinary state)
    {offset : Nat} (beyond : state.file.fileSize ≤ offset) (n : Nat) (direct : Bool) :
    Returns (requested env state.file offset n) (normalPositionedRead env offset n direct state) := by
  rw [normalPositionedRead, bind_read, requested_beyond env ordinary.size beyond]
  simp only [if_pos beyond]
  rfl

/-- No extent lies where its length is an address, and addresses have 63 bits. -/
def Placed (extents : List ZoneExtent) : Prop :=
  ∀ extent ∈ extents, extent.length < extent.start ∧ extent.start + extent.length ≤ 2 ^ 63

theorem readSize_plain {device : Nat → UInt8} (placed : Placed extents) (small : rSz < 2 ^ 30)
    (midway : Midway device extents offset rSz extentEnd rOff out) (more : out.length < rSz) :
    readSize rSz out.length extentEnd rOff = min (rSz - out.length) (extentEnd - rOff) := by
  have cursor := midway.cursor more
  have inside := cursor.inside
  rcases cursor.place with ⟨before, extent, after, split, ends, _⟩
  have bounded := (placed extent (split ▸ by simp)).2
  rw [readSize, show rSz + 2 ^ 64 - out.length = (rSz - out.length) + 2 ^ 64 by omega,
    Nat.add_mod_right, Nat.mod_eq_of_lt (show rSz - out.length < 2 ^ 64 by omega),
    Nat.mod_eq_of_lt (show rSz - out.length + rOff < 2 ^ 64 by omega)]
  split
  · rw [show extentEnd + 2 ^ 64 - rOff = (extentEnd - rOff) + 2 ^ 64 by omega, Nat.add_mod_right,
      Nat.mod_eq_of_lt (by omega)]
    omega
  · omega

theorem normalPositionedRead_of_plain (env : ReaderEnv) {state : FileState}
    (ordinary : Ordinary state) (blocks : state.zbd.blockSize ∣ 2 ^ 30)
    (placed : Placed state.file.extents) (plain : state.file.isWal = false) {offset n : Nat}
    (inside : offset < state.file.fileSize) (small : n < 2 ^ 30) (direct : Bool) :
    Returns (requested env state.file offset n) (normalPositionedRead env offset n direct state) := by
  have size := ordinary.size
  rcases getExtent_isSome (size.symm ▸ inside) with ⟨⟨extent, rOff⟩, found⟩
  have first := @midway_of_getExtent _ _ (min n (state.file.fileSize - offset)) _ env.device _ found
    (by omega)
  rcases readLoop_reads env direct _ ordinary.answers (readSize_plain placed (by omega)) blocks
    (by omega) first (Nat.le_trans (Nat.le_succ _) (Nat.le_add_left _ _)) (Int.le_refl 0) with
    ⟨last, next, fine, run⟩
  rw [normalPositionedRead, bind_read]
  simp only [if_neg (Nat.not_le_of_lt inside), found, plain, Bool.false_eq_true, if_false,
    normalReadLoop]
  rw [bind_of_ok run, if_neg (by omega), requested_min env size]
  rfl

theorem normalPositionedRead_empty (env : ReaderEnv) {state : FileState} (ordinary : Ordinary state)
    {offset : Nat} (inside : offset < state.file.fileSize) (direct : Bool) :
    Returns (requested env state.file offset 0) (normalPositionedRead env offset 0 direct state) := by
  rcases getExtent_isSome (ordinary.size.symm ▸ inside) with ⟨⟨extent, rOff⟩, found⟩
  rw [normalPositionedRead, bind_read]
  simp only [if_neg (Nat.not_le_of_lt inside), found, Nat.zero_min]
  rfl

/-! ## A file that was created as a write-ahead log -/

/-- The first request of a file that was created as a write-ahead log is the right one by
chance: its low 32 bits are the number of bytes left to read, and they lie behind each other on
the device. -/
def Chance (env : ReaderEnv) (state : FileState) (offset n : Nat) (direct : Bool) : Prop :=
  ∃ extent rOff, getExtent state.file.extents offset = some (extent, rOff) ∧
    toInt32 (alignedSize direct state.zbd.blockSize (2 ^ 64 + extent.length - rOff)) =
      (min n (state.file.fileSize - offset) : Nat) ∧
    bytesAt env.device rOff (min n (state.file.fileSize - offset)) = requested env state.file offset n

/-- What is left of a request whose low 32 bits were read, rounded up once more. -/
theorem alignedSize_rest (direct : Bool) {blockSize wrapped : Nat} (blocks : blockSize ∣ 2 ^ 32)
    (enough : alignedSize direct blockSize wrapped % 2 ^ 32 ≤ wrapped) :
    2 ^ 32 ∣ alignedSize direct blockSize
      (wrapped - alignedSize direct blockSize wrapped % 2 ^ 32) := by
  generalize low : alignedSize direct blockSize wrapped % 2 ^ 32 = m at enough ⊢
  have whole := Nat.div_add_mod (alignedSize direct blockSize wrapped) (2 ^ 32)
  rw [low] at whole
  generalize alignedSize direct blockSize wrapped / 2 ^ 32 = quotient at whole
  rcases blocks with ⟨count, blocks⟩
  have positive : 0 < blockSize := by
    rcases Nat.eq_zero_or_pos blockSize with zero | positive
    · rw [zero, Nat.zero_mul] at blocks
      omega
    · exact positive
  have multiple : 2 ^ 32 * quotient = blockSize * (count * quotient) := by
    rw [blocks, Nat.mul_assoc]
  rw [alignedSize] at whole
  split at whole
  · rename_i odd
    simp only [Bool.and_eq_true, bne_iff_ne, ne_eq] at odd
    have rest := Nat.mod_lt wrapped positive
    generalize align : blockSize - wrapped % blockSize = more at whole
    have left : wrapped - m = 2 ^ 32 * quotient - more := by omega
    have again : (wrapped - m) % blockSize = blockSize - more := by
      rw [left, multiple]
      rcases Nat.eq_zero_or_pos (count * quotient) with zero | some
      · rw [zero, Nat.mul_zero] at multiple
        omega
      · rcases Nat.exists_eq_add_of_lt some with ⟨others, same⟩
        rw [same, show 0 + others + 1 = others + 1 by omega, Nat.mul_succ,
          show blockSize * others + blockSize - more = blockSize * others + (blockSize - more) by omega,
          Nat.mul_add_mod, Nat.mod_eq_of_lt (by omega)]
    rw [alignedSize, again, if_pos (by simp [odd.1]; omega), left]
    refine ⟨quotient, ?_⟩
    omega
  · have left : wrapped - m = 2 ^ 32 * quotient := by omega
    have even : (wrapped - m) % blockSize = 0 := by
      rw [left, multiple]
      exact Nat.mul_mod_right _ _
    rw [alignedSize, even, if_neg (by simp), left]
    exact Nat.dvd_mul_right _ _

section Wrapped

variable (env : ReaderEnv) (direct : Bool) (offset : Nat) {state : FileState}
  {size : (read extentEnd rOff : Nat) → Nat} {wrapped : Nat}

/-- After the first request nothing is left to ask for, unless it was for the right size. -/
theorem readLoop_wraps (answers : ∀ answer ∈ state.zbd.replies, 0 < answer)
    (blocks : state.zbd.blockSize ∣ 2 ^ 32) (behind : extentEnd ≤ rOff) (large : 2 ^ 31 ≤ wrapped)
    (sizes : ∀ count < 2 ^ 31, size count extentEnd (rOff + count) = wrapped - count)
    (unread : ([] : Bytes).length ≠ rSz)
    (wrong : toInt32 (alignedSize direct state.zbd.blockSize wrapped) ≠ rSz) :
    ∃ out next, readLoop env direct size offset rSz (rSz + 1) extentEnd rOff [] 0 state =
      (.ok (out, -1), next) := by
  have first : size ([] : Bytes).length extentEnd rOff = wrapped := sizes 0 (by decide)
  by_cases refused : toInt32 (alignedSize direct state.zbd.blockSize wrapped) ≤ 0
  · exact ⟨_, _, readLoop_refused env direct unread (first.symm ▸ refused)⟩
  · rcases Int.eq_ofNat_of_zero_le (Int.le_of_lt (Int.not_le.mp refused)) with ⟨asked, request⟩
    have positive : 0 < asked := by omega
    have low := toInt32_positive request positive
    have count : min (size ([] : Bytes).length extentEnd rOff) asked = asked := by omega
    rcases @readLoop_step offset rSz extentEnd rOff asked [] env direct size rSz 0 state unread asked
      positive (first.symm ▸ request) count answers with ⟨replies, later, run⟩
    rw [if_neg (by omega)] at run
    rw [run]
    obtain ⟨fuel, rfl⟩ : ∃ fuel, rSz = fuel + 1 := ⟨rSz - 1, by simp at unread; omega⟩
    have length : ([] ++ bytesAt env.device rOff asked).length = asked := by simp
    have more : ([] ++ bytesAt env.device rOff asked).length ≠ fuel + 1 := by
      rw [length]
      omega
    have divided := @alignedSize_rest direct _ wrapped blocks (by omega)
    refine ⟨_, _, readLoop_refused env direct more ?_⟩
    rw [low.1] at divided
    rw [length, sizes asked low.2]
    exact toInt32_of_dvd divided

theorem readLoop_right (answers : ∀ answer ∈ state.zbd.replies, 0 < answer)
    (large : rSz ≤ wrapped)
    (sizes : ∀ count < 2 ^ 31, size count extentEnd (rOff + count) = wrapped - count)
    (unread : ([] : Bytes).length ≠ rSz)
    (right : toInt32 (alignedSize direct state.zbd.blockSize wrapped) = rSz) :
    ∃ next, readLoop env direct size offset rSz (rSz + 1) extentEnd rOff [] 0 state =
      (.ok (bytesAt env.device rOff rSz, (rSz : Int)), next) := by
  have first : size ([] : Bytes).length extentEnd rOff = wrapped := sizes 0 (by decide)
  have count : min (size ([] : Bytes).length extentEnd rOff) rSz = rSz := by omega
  rcases @readLoop_step offset rSz extentEnd rOff rSz [] env direct size rSz 0 state unread rSz
    (Nat.pos_of_ne_zero unread.symm) (first.symm ▸ right) count answers with ⟨replies, later, run⟩
  have length : ([] ++ bytesAt env.device rOff rSz).length = rSz := by simp
  rw [if_neg (by simp), readLoop_done env direct rSz length] at run
  exact ⟨_, run⟩

end Wrapped

theorem readSize_wraps {extent : ZoneExtent} (behind : extent.length < rOff) (bounded : rOff ≤ 2 ^ 63)
    (small : rSz < 2 ^ 30) (count : Nat) (below : count < 2 ^ 31) :
    readSize rSz count extent.length (rOff + count) = 2 ^ 64 + extent.length - rOff - count := by
  have sum : ((rSz + 2 ^ 64 - count) % 2 ^ 64 + (rOff + count)) % 2 ^ 64 = rSz + rOff := by
    rw [Nat.mod_add_mod, show rSz + 2 ^ 64 - count + (rOff + count) = rSz + rOff + 2 ^ 64 by omega,
      Nat.add_mod_right, Nat.mod_eq_of_lt (by omega)]
  rw [readSize]
  simp only [sum]
  rw [if_pos (by omega), Nat.mod_eq_of_lt (by omega)]
  omega

theorem normalPositionedRead_log_iff (env : ReaderEnv) {state : FileState} (ordinary : Ordinary state)
    (blocks : state.zbd.blockSize ∣ 2 ^ 30) (placed : Placed state.file.extents)
    (log : state.file.isWal = true) {offset n : Nat} (inside : offset < state.file.fileSize)
    (some : 0 < n) (small : n < 2 ^ 30) (direct : Bool) :
    Returns (requested env state.file offset n) (normalPositionedRead env offset n direct state) ↔
      Chance env state offset n direct := by
  rcases getExtent_isSome (ordinary.size.symm ▸ inside) with ⟨⟨extent, rOff⟩, found⟩
  have below := (cursor_of_getExtent found).inside
  rcases mem_of_getExtent found with ⟨member, starts⟩
  rcases placed extent member with ⟨behind, bounded⟩
  have chance : Chance env state offset n direct ↔
      toInt32 (alignedSize direct state.zbd.blockSize (2 ^ 64 + extent.length - rOff)) =
        (min n (state.file.fileSize - offset) : Nat) ∧
      bytesAt env.device rOff (min n (state.file.fileSize - offset)) =
        requested env state.file offset n := by
    constructor
    · rintro ⟨other, place, same, right⟩
      rw [found] at same
      cases same
      exact right
    · exact fun right => ⟨extent, rOff, found, right⟩
  rw [chance, normalPositionedRead, bind_read]
  simp only [if_neg (Nat.not_le_of_lt inside), found, log, if_true]
  generalize size : min n (state.file.fileSize - offset) = rSz
  have unread : ([] : Bytes).length ≠ rSz := by
    rw [List.length_nil]
    omega
  have sizes := @readSize_wraps rSz rOff extent (by omega) (by omega) (by omega)
  by_cases right : toInt32 (alignedSize direct state.zbd.blockSize
      (2 ^ 64 + extent.length - rOff)) = rSz
  · rcases readLoop_right env direct offset ordinary.answers (by omega) sizes unread right with
      ⟨next, run⟩
    rw [normalReadLoop, bind_of_ok run, if_neg (by omega), and_iff_right right]
    exact Except.ok.injEq _ _ ▸ Iff.rfl
  · rcases readLoop_wraps env direct offset ordinary.answers
      (blocks.trans (Nat.pow_dvd_pow 2 (show 30 ≤ 32 by decide))) (by omega) (by omega) sizes unread
      right with ⟨out, next, run⟩
    rw [normalReadLoop, bind_of_ok run, if_pos (by omega)]
    refine iff_of_false (fun returned => ?_) fun both => right both.1
    cases returned

/-- Both calls return the requested bytes exactly if the file was not created as a
write-ahead log, there is nothing to read, or the first request is right by chance. -/
theorem reads_requested_iff (build : ReaderBuild) (config : BuildConfig) (env : ReaderEnv)
    {state : FileState} (ordinary : Ordinary state) (blocks : state.zbd.blockSize ∣ 2 ^ 30)
    (placed : Placed state.file.extents) (offset : Nat) {n : Nat} (small : n < 2 ^ 30)
    (direct : Bool) :
    (Returns (requested env state.file offset n)
        (positionedRead build config env offset n direct state) ∧
      Returns (requested env state.file offset n)
        (normalPositionedRead env offset n direct state)) ↔
      (state.file.isWal = false ∨ state.file.fileSize ≤ offset ∨ n = 0 ∨
        Chance env state offset n direct) := by
  rw [and_iff_right (positionedRead_returns build config env ordinary blocks offset small direct)]
  by_cases beyond : state.file.fileSize ≤ offset
  · exact iff_of_true (normalPositionedRead_beyond env ordinary beyond n direct) (.inr (.inl beyond))
  · have inside := Nat.lt_of_not_le beyond
    cases log : state.file.isWal with
    | false =>
        exact iff_of_true
          (normalPositionedRead_of_plain env ordinary blocks placed log inside small direct) (.inl rfl)
    | true =>
        cases n with
        | zero => exact iff_of_true (normalPositionedRead_empty env ordinary inside direct) (by simp)
        | succ n =>
            rw [normalPositionedRead_log_iff env ordinary blocks placed log inside (Nat.succ_pos n)
              small direct]
            simp [beyond]

/-! ## An ordinary file, and a write-ahead log that was renamed -/

def evenReader : ReaderEnv where
  view := ⟨0, []⟩
  sort := .insertionSort WalEntry.seq
  slack _ := 0
  device _ := 97

def twoExtents : FileState where
  zbd := FileSystem.emptyDevice [19, 20] 1024 640 64 [2, 1, 1, 1]
  file := { fileSize := 5, linkfiles := ["/000007.sst"]
            extents := [⟨19 * 1024, 3, 19⟩, ⟨20 * 1024 + 64, 2, 20⟩] }
  buffer := []

theorem reads_requested_parts :
    Returns [97, 97, 97, 97]
        (positionedRead .walBarriers smallConfig evenReader 1 9 true twoExtents) ∧
      Returns [97, 97, 97, 97] (normalPositionedRead evenReader 1 9 true twoExtents) := by
  have ordinary : Ordinary twoExtents := by
    constructor
    · simp [twoExtents]
    · decide +kernel
    · rfl
    · simp [twoExtents, FileSystem.emptyDevice]
  have placed : Placed twoExtents.file.extents := by
    simp [Placed, twoExtents]
  have blocks : twoExtents.zbd.blockSize ∣ 2 ^ 30 := by decide +kernel
  exact (reads_requested_iff .walBarriers smallConfig evenReader ordinary blocks placed 1
    (by decide) true).mpr (.inl rfl)

def renameLog : List Operation :=
  [.openWritable "/000003.log" false false, .append 0 [97], .close 0, .destroyWriter 0,
    .rename "/000003.log" "/000003.old"]

def renamedLog : FileSystem :=
  FileSystem.runAll smallConfig 2 renameLog
    (FileSystem.emptyFileSystem (FileSystem.emptyDevice [] 12288 12288 4096 []))

/-- The byte is read, but the copy asks for a number of bytes below zero. -/
theorem renamed_log_wraps :
    FileSystem.allOk smallConfig 2 renameLog
        (FileSystem.emptyFileSystem (FileSystem.emptyDevice [] 12288 12288 4096 [])) = true ∧
      (renamedLog.object 0).file.linkfiles = ["/000003.old"] ∧
      (renamedLog.object 0).file.extents = [⟨4 * 12288 + 16, 1, 4⟩] ∧
      (renamedLog.object 0).file.fileSize = 1 ∧
      requested evenReader (renamedLog.object 0).file 0 1 = [97] ∧
      (positionedRead .walBarriers smallConfig evenReader 0 1 false (renamedLog.view 0)).1 =
        .ok [97] ∧
      (normalPositionedRead evenReader 0 1 false (renamedLog.view 0)).1 =
        .error (.ioError "pread error\n") := by
  decide +kernel

end Zwal.OrdinaryReads
