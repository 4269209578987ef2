import Zwal.File.ZoneFile
import Zwal.Foundation.Sorting

/-! # Reading a chunk of a write-ahead log

`ZoneFile::RecoverWALChunk`: read a range of the once-log, cut it into entries and
sort them by sequence number. -/

namespace Zwal

/-- What a reader sees of a once-log: the bytes from the write tail, given in logical
blocks, to the write head. -/
structure LogView where
  writeTail : Nat
  content : Bytes

/-- What a run of the reader depends on outside of the file system: the once-log, the
order `std::sort` gives to equal keys, the memory behind a chunk's buffer and
the bytes of the block device. -/
structure ReaderEnv where
  view : LogView
  sort : SortBy WalEntry.seq
  slack : Nat → UInt8
  device : Nat → UInt8

/-- `1 << shift_block_size(GetBlockSize())`. -/
def lbaSize (blockSize : Nat) : Nat := if blockSize = 512 then 2 ^ 9 else 2 ^ 12

namespace LogView

def tail (view : LogView) (blockSize : Nat) : Nat := view.writeTail * lbaSize blockSize

def head (view : LogView) (blockSize : Nat) : Nat := view.tail blockSize + view.content.length

/-- `SZDOnceLog::Read` of `size` bytes from the block `start` lies in. -/
def read (view : LogView) (blockSize start size : Nat) : Bytes :=
  let lba := start / lbaSize blockSize
  (view.content.drop (lba * lbaSize blockSize - view.tail blockSize)).take size

end LogView

/-- Bytes of a chunk's buffer; past its end whatever is in memory. -/
def fetch (chunk : Bytes) (slack : Nat → UInt8) (start count : Nat) : Bytes :=
  (List.range count).map fun index => chunk.getD (start + index) (slack (start + index))

/-- The loop that cuts a chunk into entries, with the position it ends at. An entry with
sequence number zero ends every chunk but the first. Every pass moves on by more
than a byte, so the size of the chunk is enough fuel. -/
def scanEntries (chunk : Bytes) (slack : Nat → UInt8) (strSize : Nat) (firstChunk : Bool) :
    (fuel r br : Nat) → List WalEntry → List WalEntry × Nat
  | 0, r, _, entries => (entries, r)
  | fuel + 1, r, br, entries =>
      if r < strSize ∧ br < strSize then
        let size := Bytes.toNat (fetch chunk slack r 8)
        let seqn := Bytes.toNat (fetch chunk slack (r + 8) 8)
        if size = 0 then (entries, r)
        else if seqn = 0 && !firstChunk then (entries, r)
        else
          scanEntries chunk slack strSize firstChunk fuel (r + size + 16) (br + size)
            (entries ++ [⟨seqn, fetch chunk slack (r + 16) size⟩])
      else (entries, r)

namespace FileState

/-- `RecoverWALChunk`; `store` assigns the vector of entries it was given. -/
def recoverWALChunk (env : ReaderEnv) (store : List WalEntry → ZoneFile → ZoneFile)
    (start stop : Nat) : FileProgram Unit := do
  setFile (store [])
  onDevice (ZonedBlockDevice.request (.ioError "Error WAL read I/O"))
  let state ← Program.read
  let blockSize := state.zbd.blockSize
  let strSize := stop - start
  let chunk := env.view.read blockSize start strSize
  let (entries, position) := scanEntries chunk env.slack strSize
    (!(env.view.tail blockSize < start)) strSize 0 0 []
  setFile (store entries)
  if strSize < position then Program.fail (.corruption "Overshooting WAL\n")
  else setFile (store (env.sort.run entries))

end FileState

/-! ## Cutting a chunk back into entries -/

/-- An entry as `SparseAppend` stores it. -/
structure StoredEntry extends WalEntry where
  pad : Nat
  deriving DecidableEq, Repr

namespace StoredEntry

def header (entry : StoredEntry) : Bytes :=
  Bytes.ofNat 8 entry.payload.length ++ Bytes.ofNat 8 entry.seq

def bytes (entry : StoredEntry) : Bytes :=
  entry.header ++ entry.payload ++ List.replicate entry.pad 0

def size (entry : StoredEntry) : Nat := 16 + entry.payload.length + entry.pad

@[simp] theorem length_header (entry : StoredEntry) : entry.header.length = 16 := by
  simp [header]

@[simp] theorem length_bytes (entry : StoredEntry) : entry.bytes.length = entry.size := by
  simp [bytes, size, Nat.add_assoc]

structure Fits (entry : StoredEntry) : Prop where
  seq : entry.seq < 2 ^ 64
  positive : 0 < entry.payload.length
  length : entry.payload.length < 2 ^ 64

end StoredEntry

theorem fetch_eq {chunk : Bytes} {slack : Nat → UInt8} {start count : Nat}
    (inside : start + count ≤ chunk.length) :
    fetch chunk slack start count = (chunk.drop start).take count := by
  apply List.ext_getElem
  · simp [fetch]
    omega
  · intro index bound _
    simp [fetch] at bound ⊢
    rw [List.getElem?_eq_getElem (by omega)]
    rfl

theorem fetch_middle {chunk : Bytes} {slack : Nat → UInt8} {start count : Nat}
    (before middle after : Bytes) (layout : chunk = before ++ middle ++ after)
    (position : start = before.length) (width : count = middle.length) :
    fetch chunk slack start count = middle := by
  subst position width
  rw [fetch_eq (by simp [layout])]
  simp [layout]

section Scan

variable {chunk : Bytes} {slack : Nat → UInt8}

theorem fetch_entry (slack : Nat → UInt8) {before after : Bytes} {entry : StoredEntry}
    (layout : chunk = before ++ entry.bytes ++ after) (fits : entry.Fits) :
    Bytes.toNat (fetch chunk slack before.length 8) = entry.payload.length ∧
      Bytes.toNat (fetch chunk slack (before.length + 8) 8) = entry.seq ∧
      fetch chunk slack (before.length + 16) entry.payload.length = entry.payload := by
  have length : fetch chunk slack before.length 8 = Bytes.ofNat 8 entry.payload.length :=
    fetch_middle before _
      (Bytes.ofNat 8 entry.seq ++ entry.payload ++ List.replicate entry.pad 0 ++ after)
      (by simp [layout, StoredEntry.bytes, StoredEntry.header]) rfl (by simp)
  have seq : fetch chunk slack (before.length + 8) 8 = Bytes.ofNat 8 entry.seq :=
    fetch_middle (before ++ Bytes.ofNat 8 entry.payload.length) _
      (entry.payload ++ List.replicate entry.pad 0 ++ after)
      (by simp [layout, StoredEntry.bytes, StoredEntry.header]) (by simp) (by simp)
  refine ⟨?_, ?_, ?_⟩
  · rw [length, Bytes.toNat_ofNat_of_lt fits.length]
  · rw [seq, Bytes.toNat_ofNat_of_lt fits.seq]
  · exact fetch_middle (before ++ entry.header) _ (List.replicate entry.pad 0 ++ after)
      (by simp [layout, StoredEntry.bytes]) (by simp) rfl

theorem fetch_padding {before : Bytes} {pad : Nat}
    (layout : chunk = before ++ List.replicate pad 0) (enough : 8 ≤ pad) :
    Bytes.toNat (fetch chunk slack before.length 8) = 0 := by
  have zeroes : fetch chunk slack before.length 8 = List.replicate 8 0 :=
    fetch_middle before _ (List.replicate (pad - 8) 0)
      (by rw [layout, List.append_assoc, List.replicate_append_replicate]; congr 2; omega)
      rfl (by simp)
  rw [zeroes, Bytes.toNat_replicate_zero]

structure StoredEntry.Scannable (firstChunk : Bool) (entry : StoredEntry) : Prop where
  fits : entry.Fits
  unpadded : entry.pad = 0
  seq : firstChunk = true ∨ entry.seq ≠ 0

theorem scanEntries_stored {before : Bytes} {rest : List StoredEntry} {pad : Nat}
    {firstChunk : Bool} (layout : chunk = before ++ rest.flatMap StoredEntry.bytes ++
      List.replicate pad 0)
    (scannable : ∀ entry ∈ rest, entry.Scannable firstChunk) (tail : pad = 0 ∨ 8 ≤ pad)
    {fuel br : Nat} (found : List WalEntry) (enough : rest.length < fuel) (counted : br ≤ before.length) :
    scanEntries chunk slack chunk.length firstChunk fuel before.length br found =
      (found ++ rest.map StoredEntry.toWalEntry,
        before.length + (rest.flatMap StoredEntry.bytes).length) := by
  induction rest generalizing before fuel br found with
  | nil =>
      cases fuel with
      | zero => simp at enough
      | succ fuel =>
          rw [scanEntries]
          simp only [List.flatMap_nil, List.append_nil] at layout
          rcases tail with rfl | wide
          · rw [if_neg (by simp [layout])]
            simp
          · have size : Bytes.toNat (fetch chunk slack before.length 8) = 0 :=
              fetch_padding layout wide
            rw [if_pos (by simp [layout]; omega)]
            simp [size]
  | cons entry rest induction =>
      cases fuel with
      | zero => simp at enough
      | succ fuel =>
          have this := scannable entry List.mem_cons_self
          have positive := this.fits.positive
          have cut : chunk = before ++ entry.bytes ++
              (rest.flatMap StoredEntry.bytes ++ List.replicate pad 0) := by simp [layout]
          have cutRest : chunk = (before ++ entry.bytes) ++ rest.flatMap StoredEntry.bytes ++
              List.replicate pad 0 := by simp [layout]
          have width : chunk.length = before.length + entry.size +
              ((rest.flatMap StoredEntry.bytes).length + pad) := by
            rw [cut]
            simp only [List.length_append, StoredEntry.length_bytes, List.length_replicate]
          have end_eq : (before ++ entry.bytes).length =
              before.length + entry.payload.length + 16 := by
            rw [List.length_append, StoredEntry.length_bytes, StoredEntry.size, this.unpadded]
            omega
          have counted' : br + entry.payload.length ≤ (before ++ entry.bytes).length := by omega
          rcases fetch_entry slack cut this.fits with ⟨size, seq, payload⟩
          rw [scanEntries, if_pos (by rw [width, StoredEntry.size]; omega)]
          simp only [size, seq, payload]
          rw [if_neg (by omega), if_neg (by rcases this.seq with first | nonzero <;> simp_all),
            ← end_eq, induction cutRest
              (fun other member => scannable other (List.mem_cons_of_mem _ member)) _
              (Nat.lt_of_succ_lt_succ enough) counted']
          simp [Nat.add_assoc]

theorem length_lt_flatMap_bytes {entries : List StoredEntry} (nonempty : entries ≠ []) :
    entries.length < (entries.flatMap StoredEntry.bytes).length := by
  induction entries with
  | nil => exact absurd rfl nonempty
  | cons entry entries induction =>
      simp only [List.flatMap_cons, List.length_append, StoredEntry.length_bytes,
        List.length_cons, StoredEntry.size]
      cases entries with
      | nil =>
          simp
          omega
      | cons next entries =>
          have shorter := induction (by simp)
          omega

theorem scanEntries_chunk (slack : Nat → UInt8) {entries : List StoredEntry} {pad : Nat} {firstChunk : Bool}
    (layout : chunk = entries.flatMap StoredEntry.bytes ++ List.replicate pad 0)
    (scannable : ∀ entry ∈ entries, entry.Scannable firstChunk) (tail : pad = 0 ∨ 8 ≤ pad) :
    scanEntries chunk slack chunk.length firstChunk chunk.length 0 0 [] =
      (entries.map StoredEntry.toWalEntry, (entries.flatMap StoredEntry.bytes).length) := by
  have width : chunk.length = (entries.flatMap StoredEntry.bytes).length + pad := by
    rw [layout, List.length_append, List.length_replicate]
  by_cases empty : chunk.length = 0
  · have none : entries = [] := by
      by_contra some
      have longer := length_lt_flatMap_bytes some
      omega
    rw [empty, scanEntries, none]
    rfl
  · have enough : entries.length < chunk.length := by
      by_cases none : entries = []
      · rw [none, List.length_nil]
        omega
      · have longer := length_lt_flatMap_bytes none
        omega
    have start : chunk = [] ++ entries.flatMap StoredEntry.bytes ++ List.replicate pad 0 := by
      rw [List.nil_append, layout]
    simpa using scanEntries_stored start scannable tail [] enough (Nat.le_refl 0)

end Scan

end Zwal
