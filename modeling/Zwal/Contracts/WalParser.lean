import Zwal.Contracts.WalSources

/-! # The parser of a window

`RecoverWALChunk` over the bytes of one window: the order in which the device placed
the entries does not matter, and which ranges of its buffer the loop reads. -/

namespace Zwal.WalParser

open FileState WalSources

/-! ## Entries in any order -/

def stored (entry : WalEntry) : StoredEntry := ⟨entry, 0⟩

def window (order : List WalEntry) : Bytes := order.flatMap fun entry => (stored entry).bytes

theorem window_eq (order : List WalEntry) :
    window order = (order.map stored).flatMap StoredEntry.bytes :=
  (List.flatMap_map stored StoredEntry.bytes order).symm

theorem map_stored (order : List WalEntry) :
    (order.map stored).map StoredEntry.toWalEntry = order := by
  rw [List.map_map]
  exact List.map_id _

theorem length_payload_lt {entry : WalEntry} {order : List WalEntry} (member : entry ∈ order) :
    entry.payload.length < (window order).length := by
  rcases List.append_of_mem member with ⟨before, after, split⟩
  simp only [split, window, List.flatMap_append, List.flatMap_cons, List.length_append,
    StoredEntry.length_bytes, StoredEntry.size, stored]
  omega

theorem chunk_of_window {env : ReaderEnv} {blockSize : Nat} {before after : Bytes}
    {order : List WalEntry}
    (content : env.view.content = before ++ window order ++ after)
    (aligned : lbaSize blockSize ∣ before.length)
    (blocks : ∀ entry ∈ order, sparseBlockSize ∣ 16 + entry.payload.length)
    (numbers : ∀ entry ∈ order, entry.seq < 2 ^ 64 ∧ (before ≠ [] → entry.seq ≠ 0))
    (short : (window order).length < 2 ^ 64) :
    Chunk env blockSize (env.view.tail blockSize + before.length)
      (env.view.tail blockSize + before.length + (window order).length) (order.map stored) 0 := by
  have tail : lbaSize blockSize ∣ env.view.tail blockSize := Nat.dvd_mul_left _ _
  have range : env.view.read blockSize (env.view.tail blockSize + before.length)
      (window order).length = window order := by
    rw [LogView.read, Nat.div_mul_cancel (Nat.dvd_add tail aligned), Nat.add_sub_cancel_left, content,
      List.append_assoc, List.drop_left, List.take_left]
  refine ⟨?_, fun entry member => ?_, .inl rfl, ?_⟩
  · rw [Nat.add_sub_cancel_left, range, window_eq, List.replicate_zero, List.append_nil]
  · rcases List.mem_map.mp member with ⟨item, inside, rfl⟩
    have positive : 0 < item.payload.length := by
      have whole := blocks item inside
      rw [sparseBlockSize] at whole
      omega
    refine ⟨⟨(numbers item inside).1, positive, ?_⟩, rfl, ?_⟩
    · exact Nat.lt_trans (length_payload_lt inside) short
    · by_cases first : before = []
      · left
        simp [first]
      · exact .inr ((numbers item inside).2 first)
  · rw [Nat.add_sub_cancel_left, range]

/-- Whatever order the device gave the entries of a window, `RecoverWALChunk` stores them
in the order of their sequence numbers. -/
theorem placement_irrelevant (env : ReaderEnv) (store : List WalEntry → ZoneFile → ZoneFile)
    (overwrites : ∀ first second file, store first (store second file) = store first file)
    (state : FileState) {before after : Bytes} {entries order : List WalEntry}
    (ascending : entries.Pairwise fun first second => first.seq < second.seq)
    (placed : order.Perm entries)
    (content : env.view.content = before ++ window order ++ after)
    (aligned : lbaSize state.zbd.blockSize ∣ before.length)
    (blocks : ∀ entry ∈ entries, sparseBlockSize ∣ 16 + entry.payload.length)
    (numbers : ∀ entry ∈ entries, entry.seq < 2 ^ 64 ∧ (before ≠ [] → entry.seq ≠ 0))
    (short : (window order).length < 2 ^ 64) (answered : 0 ≤ state.zbd.replies.headD 0) :
    recoverWALChunk env store (env.view.tail state.zbd.blockSize + before.length)
        (env.view.tail state.zbd.blockSize + before.length + (window order).length) state =
      (.ok (), { state with
        zbd := { state.zbd with replies := state.zbd.replies.tail }
        file := store entries state.file }) := by
  have chunk := chunk_of_window content aligned
    (fun entry member => blocks entry (placed.subset member))
    (fun entry member => numbers entry (placed.subset member)) short
  have perm : entries.Perm ((order.map stored).map StoredEntry.toWalEntry) := by
    rw [map_stored]
    exact placed.symm
  exact recoverWALChunk_of_read store overwrites chunk perm ascending
    (ZonedBlockDevice.request_of_answered answered)

def filled (byte : UInt8) : Bytes := List.replicate 4080 byte

@[simp] theorem length_filled (byte : UInt8) : (filled byte).length = 4080 :=
  List.length_replicate

def twoEntries : List WalEntry := [⟨3, filled 7⟩, ⟨5, filled 9⟩]

def swapped : ReaderEnv :=
  ⟨⟨0, window twoEntries.reverse⟩, SortBy.mergeSort WalEntry.seq, fun _ => 0, fun _ => 0⟩

def reader : FileState := ⟨smallDevice 12288, {}, []⟩

theorem length_swapped : (window twoEntries.reverse).length = 8192 := by
  simp [window, twoEntries, stored, StoredEntry.size]

theorem placement_irrelevant_swapped :
    recoverWALChunk swapped (fun entries file => { file with walEntries := entries }) 0 8192 reader =
      (.ok (), { reader with file := { reader.file with walEntries := twoEntries } }) := by
  have content : swapped.view.content = [] ++ window twoEntries.reverse ++ [] := by simp [swapped]
  have blocks : ∀ entry ∈ twoEntries, sparseBlockSize ∣ 16 + entry.payload.length := by
    simp [twoEntries, sparseBlockSize]
  have numbers : ∀ entry ∈ twoEntries, entry.seq < 2 ^ 64 ∧ (([] : Bytes) ≠ [] → entry.seq ≠ 0) := by
    simp [twoEntries]
  have run := placement_irrelevant swapped (fun entries file => { file with walEntries := entries })
    (fun _ _ _ => rfl) reader (show twoEntries.Pairwise _ by simp [twoEntries])
    (List.reverse_perm twoEntries) content (Nat.dvd_zero _) blocks numbers
    (by rw [length_swapped]; decide) (by decide)
  rw [length_swapped] at run
  exact run

/-! ## The ranges of the buffer that are read -/

/-- What the loop of `RecoverWALChunk` has done: the ranges it read, as offset and size,
the entries it stored and where it stands. -/
structure Scan where
  reads : List (Nat × Nat) := []
  entries : List WalEntry := []
  position : Nat := 0

namespace Scan

def stopped (scan : Scan) (r : Nat) : Scan := { scan with position := r }

def withHeader (scan : Scan) (r : Nat) : Scan :=
  { scan with reads := scan.reads ++ [(r, 8), (r + 8, 8)] }

def withEntry (scan : Scan) (r size : Nat) (entry : WalEntry) : Scan :=
  { scan with
    reads := scan.reads ++ [(r + 16, size)]
    entries := scan.entries ++ [entry] }

end Scan

def wrap (value : Nat) : Nat := value % 2 ^ 64

def sizeAt (chunk : Bytes) (slack : Nat → UInt8) (r : Nat) : Nat :=
  Bytes.toNat (fetch chunk slack r 8)

def seqAt (chunk : Bytes) (slack : Nat → UInt8) (r : Nat) : Nat :=
  Bytes.toNat (fetch chunk slack (r + 8) 8)

/-- The loop of `RecoverWALChunk` with its `uint64_t` counters. Both fields of the header
are read before either is looked at. Nothing is returned if the fuel runs out. -/
def scanLoop (chunk : Bytes) (slack : Nat → UInt8) (firstChunk : Bool) :
    (fuel r br : Nat) → Scan → Option Scan
  | 0, _, _, _ => none
  | fuel + 1, r, br, scan =>
      if r < chunk.length ∧ br < chunk.length then
        let size := sizeAt chunk slack r
        let seqn := seqAt chunk slack r
        let scan := scan.withHeader r
        if size = 0 then some (scan.stopped r)
        else if seqn = 0 && !firstChunk then some (scan.stopped r)
        else
          scanLoop chunk slack firstChunk fuel (wrap (r + (size + 16))) (wrap (br + size))
            (scan.withEntry r size ⟨seqn, fetch chunk slack (r + 16) size⟩)
      else some (scan.stopped r)

def Stops (firstChunk : Bool) (size seqn : Nat) : Prop :=
  size = 0 ∨ seqn = 0 ∧ firstChunk = false

/-- A window as the loop takes it: entries one behind the other up to the end, or up to a
whole header that says to stop. -/
inductive Tiled (firstChunk : Bool) : Bytes → Prop
  | done : Tiled firstChunk []
  | stop {size seqn rest : Bytes} : size.length = 8 → seqn.length = 8 →
      Stops firstChunk size.toNat seqn.toNat → Tiled firstChunk (size ++ seqn ++ rest)
  | entry {size seqn payload rest : Bytes} : size.length = 8 → seqn.length = 8 →
      ¬ Stops firstChunk size.toNat seqn.toNat → payload.length = size.toNat →
      Tiled firstChunk rest → Tiled firstChunk (size ++ seqn ++ payload ++ rest)

structure Inside (chunk : Bytes) (scan : Scan) : Prop where
  reads : ∀ range ∈ scan.reads, range.1 + range.2 ≤ chunk.length
  payloads : ∀ entry ∈ scan.entries, entry.payload <:+: chunk

variable {chunk : Bytes} {slack : Nat → UInt8} {firstChunk : Bool}

theorem fetch_rest {before rest : Bytes} (layout : chunk = before ++ rest) {offset count : Nat}
    (inside : offset + count ≤ rest.length) :
    fetch chunk slack (before.length + offset) count = (rest.drop offset).take count := by
  rw [fetch_eq (by rw [layout, List.length_append]; omega), layout, ← List.drop_drop, List.drop_left]

theorem fetch_infix {start count : Nat} (inside : start + count ≤ chunk.length) :
    fetch chunk slack start count <:+: chunk := by
  rw [fetch_eq inside]
  exact (List.take_prefix _ _).isInfix.trans (List.drop_suffix _ _).isInfix

theorem Inside.stopped {scan : Scan} (inside : Inside chunk scan) (r : Nat) :
    Inside chunk (scan.stopped r) :=
  ⟨inside.reads, inside.payloads⟩

theorem Inside.withHeader {scan : Scan} (inside : Inside chunk scan) {r : Nat}
    (whole : r + 16 ≤ chunk.length) : Inside chunk (scan.withHeader r) := by
  refine ⟨fun range member => ?_, inside.payloads⟩
  rcases List.mem_append.mp member with earlier | now
  · exact inside.reads range earlier
  · simp only [List.mem_cons, List.not_mem_nil, or_false] at now
    rcases now with rfl | rfl
    all_goals omega

theorem Inside.withEntry {scan : Scan} (inside : Inside chunk scan) {r size seqn : Nat}
    (whole : r + 16 + size ≤ chunk.length) :
    Inside chunk (scan.withEntry r size ⟨seqn, fetch chunk slack (r + 16) size⟩) := by
  refine ⟨fun range member => ?_, fun entry member => ?_⟩
  · rcases List.mem_append.mp member with earlier | now
    · exact inside.reads range earlier
    · rw [List.mem_singleton.mp now]
      exact whole
  · rcases List.mem_append.mp member with earlier | now
    · exact inside.payloads entry earlier
    · rw [List.mem_singleton.mp now]
      exact fetch_infix whole

section Loop

variable {fuel r br : Nat} {scan final : Scan}

theorem scanLoop_of_end (past : ¬ (r < chunk.length ∧ br < chunk.length)) :
    scanLoop chunk slack firstChunk (fuel + 1) r br scan = some (scan.stopped r) := by
  rw [scanLoop, if_neg past]

theorem scanLoop_of_stop (more : r < chunk.length ∧ br < chunk.length)
    (stops : Stops firstChunk (sizeAt chunk slack r) (seqAt chunk slack r)) :
    scanLoop chunk slack firstChunk (fuel + 1) r br scan = some ((scan.withHeader r).stopped r) := by
  rw [scanLoop, if_pos more]
  simp only
  rcases stops with empty | ⟨unnumbered, later⟩
  · rw [if_pos empty]
  · rw [if_pos (show (decide (seqAt chunk slack r = 0) && !firstChunk) = true by
      simp [unnumbered, later]), ite_self]

theorem scanLoop_of_entry (more : r < chunk.length ∧ br < chunk.length)
    (goes : ¬ Stops firstChunk (sizeAt chunk slack r) (seqAt chunk slack r)) :
    scanLoop chunk slack firstChunk (fuel + 1) r br scan =
      scanLoop chunk slack firstChunk fuel (wrap (r + (sizeAt chunk slack r + 16)))
        (wrap (br + sizeAt chunk slack r))
        ((scan.withHeader r).withEntry r (sizeAt chunk slack r)
          ⟨seqAt chunk slack r, fetch chunk slack (r + 16) (sizeAt chunk slack r)⟩) := by
  rw [Stops, not_or] at goes
  rw [scanLoop, if_pos more]
  simp only
  rw [if_neg goes.1, if_neg]
  simpa using goes.2

theorem scanLoop_cases (run : scanLoop chunk slack firstChunk (fuel + 1) r br scan = some final) :
    (¬ (r < chunk.length ∧ br < chunk.length) ∧ final = scan.stopped r) ∨
      (r < chunk.length ∧ Stops firstChunk (sizeAt chunk slack r) (seqAt chunk slack r) ∧
        final = (scan.withHeader r).stopped r) ∨
      (r < chunk.length ∧ ¬ Stops firstChunk (sizeAt chunk slack r) (seqAt chunk slack r) ∧
        scanLoop chunk slack firstChunk fuel (wrap (r + (sizeAt chunk slack r + 16)))
          (wrap (br + sizeAt chunk slack r))
          ((scan.withHeader r).withEntry r (sizeAt chunk slack r)
            ⟨seqAt chunk slack r, fetch chunk slack (r + 16) (sizeAt chunk slack r)⟩) =
          some final) := by
  by_cases more : r < chunk.length ∧ br < chunk.length
  · by_cases stops : Stops firstChunk (sizeAt chunk slack r) (seqAt chunk slack r)
    · rw [scanLoop_of_stop more stops] at run
      exact .inr (.inl ⟨more.1, stops, (Option.some.inj run).symm⟩)
    · rw [scanLoop_of_entry more stops] at run
      exact .inr (.inr ⟨more.1, stops, run⟩)
  · rw [scanLoop_of_end more] at run
    exact .inl ⟨more, (Option.some.inj run).symm⟩

theorem scanLoop_reads (run : scanLoop chunk slack firstChunk fuel r br scan = some final) :
    scan.reads ⊆ final.reads := by
  induction fuel generalizing r br scan with
  | zero => cases run
  | succ fuel induction =>
      rcases scanLoop_cases run with ⟨_, rfl⟩ | ⟨_, _, rfl⟩ | ⟨_, _, rest⟩
      · exact List.Subset.refl _
      · exact List.subset_append_left _ _
      · have earlier : scan.reads ⊆ (scan.withHeader r).reads := List.subset_append_left _ _
        exact List.Subset.trans earlier
          (List.Subset.trans (List.subset_append_left _ _) (induction rest))

end Loop

theorem scanLoop_ends (short : chunk.length < 2 ^ 63) {fuel r br : Nat} (scan : Scan) (passes : Nat)
    (apart : r = wrap (br + 16 * passes)) (early : 16 * passes ≤ chunk.length + 15)
    (enough : chunk.length ≤ 16 * (passes + fuel)) :
    (scanLoop chunk slack firstChunk (fuel + 1) r br scan).isSome := by
  induction fuel generalizing r br scan passes with
  | zero =>
      have past : ¬ (r < chunk.length ∧ br < chunk.length) := by
        rw [apart, wrap]
        omega
      rw [scanLoop_of_end past]
      rfl
  | succ fuel induction =>
      by_cases more : r < chunk.length ∧ br < chunk.length
      · by_cases stops : Stops firstChunk (sizeAt chunk slack r) (seqAt chunk slack r)
        · rw [scanLoop_of_stop more stops]
          rfl
        · rw [scanLoop_of_entry more stops]
          apply induction _ (passes + 1)
          · rw [apart]
            simp only [wrap]
            omega
          · rw [apart, wrap] at more
            omega
          · omega
      · rw [scanLoop_of_end more]
        rfl

theorem sizeAt_rest {before size seqn rest : Bytes} (layout : chunk = before ++ (size ++ seqn ++ rest))
    (width : size.length = 8) : sizeAt chunk slack before.length = size.toNat := by
  have read := @fetch_rest chunk slack before _ layout 0 8 (by simp [width])
  rw [Nat.add_zero] at read
  rw [sizeAt, read, List.drop_zero, List.append_assoc, ← width, List.take_left]

theorem seqAt_rest {before size seqn rest : Bytes} (layout : chunk = before ++ (size ++ seqn ++ rest))
    (sizeWidth : size.length = 8) (seqWidth : seqn.length = 8) :
    seqAt chunk slack before.length = seqn.toNat := by
  have wide : 8 + 8 ≤ (size ++ seqn ++ rest).length := by
    rw [List.length_append, List.length_append, sizeWidth, seqWidth]
    exact Nat.le_add_right _ _
  rw [seqAt, fetch_rest layout wide, List.append_assoc, ← sizeWidth, List.drop_left, sizeWidth,
    ← seqWidth, List.take_left]

theorem scanEntries_succ (chunk : Bytes) (slack : Nat → UInt8) (firstChunk : Bool)
    (fuel r br : Nat) (found : List WalEntry) :
    scanEntries chunk slack chunk.length firstChunk (fuel + 1) r br found =
      if r < chunk.length ∧ br < chunk.length then
        if sizeAt chunk slack r = 0 then (found, r)
        else if seqAt chunk slack r = 0 && !firstChunk then (found, r)
        else
          scanEntries chunk slack chunk.length firstChunk fuel (r + sizeAt chunk slack r + 16)
            (br + sizeAt chunk slack r) (found ++
              [⟨seqAt chunk slack r, fetch chunk slack (r + 16) (sizeAt chunk slack r)⟩])
      else (found, r) :=
  rfl

theorem scanEntries_of_end {fuel r br : Nat} {found : List WalEntry}
    (past : ¬ (r < chunk.length ∧ br < chunk.length)) :
    scanEntries chunk slack chunk.length firstChunk (fuel + 1) r br found = (found, r) := by
  rw [scanEntries, if_neg past]

theorem scanEntries_of_stop {fuel r br : Nat} {found : List WalEntry}
    (stops : Stops firstChunk (sizeAt chunk slack r) (seqAt chunk slack r)) :
    scanEntries chunk slack chunk.length firstChunk (fuel + 1) r br found = (found, r) := by
  rw [scanEntries_succ]
  rcases stops with empty | ⟨unnumbered, later⟩
  · rw [if_pos empty, ite_self]
  · rw [if_pos (show (decide (seqAt chunk slack r = 0) && !firstChunk) = true by
      simp [unnumbered, later]), ite_self, ite_self]

theorem scanEntries_of_entry {fuel r br : Nat} {found : List WalEntry}
    (more : r < chunk.length ∧ br < chunk.length)
    (goes : ¬ Stops firstChunk (sizeAt chunk slack r) (seqAt chunk slack r)) :
    scanEntries chunk slack chunk.length firstChunk (fuel + 1) r br found =
      scanEntries chunk slack chunk.length firstChunk fuel (r + (sizeAt chunk slack r + 16))
        (br + sizeAt chunk slack r) (found ++
          [⟨seqAt chunk slack r, fetch chunk slack (r + 16) (sizeAt chunk slack r)⟩]) := by
  rw [Stops, not_or] at goes
  rw [scanEntries_succ, if_pos more, if_neg goes.1, if_neg (by simpa using goes.2), Nat.add_assoc]

/-- The loop reads a tiled window only, and reads it like the loop without `uint64_t`. -/
theorem scanLoop_of_tiled {before rest : Bytes} (tiled : Tiled firstChunk rest)
    (layout : chunk = before ++ rest) (short : chunk.length < 2 ^ 63) {fuel br : Nat}
    (behind : br ≤ before.length) (enough : rest.length < fuel) {scan : Scan}
    (inside : Inside chunk scan) :
    ∃ final, scanLoop chunk slack firstChunk fuel before.length br scan = some final ∧
      Inside chunk final ∧ final.position ≤ chunk.length ∧
      scanEntries chunk slack chunk.length firstChunk fuel before.length br scan.entries =
        (final.entries, final.position) := by
  induction tiled generalizing before fuel br scan with
  | done =>
      cases fuel with
      | zero => cases enough
      | succ fuel =>
          have past : ¬ (before.length < chunk.length ∧ br < chunk.length) := by
            rw [layout, List.append_nil]
            omega
          refine ⟨scan.stopped before.length, scanLoop_of_end past, inside.stopped _, ?_,
            scanEntries_of_end past⟩
          rw [layout, List.append_nil]
          exact Nat.le_refl _
  | @stop size seqn rest sizeWidth seqWidth stops =>
      cases fuel with
      | zero => cases enough
      | succ fuel =>
          have total : chunk.length = before.length + 16 + rest.length := by
            simp only [layout, List.length_append, sizeWidth, seqWidth]
            omega
          rw [← sizeAt_rest layout sizeWidth, ← seqAt_rest layout sizeWidth seqWidth] at stops
          refine ⟨_, scanLoop_of_stop (by omega) stops, (inside.withHeader (by omega)).stopped _, ?_,
            scanEntries_of_stop stops⟩
          show before.length ≤ chunk.length
          omega
  | @entry size seqn payload rest sizeWidth seqWidth goes width tiled induction =>
      cases fuel with
      | zero => cases enough
      | succ fuel =>
          have total : chunk.length = before.length + 16 + payload.length + rest.length := by
            simp only [layout, List.length_append, sizeWidth, seqWidth]
            omega
          have opened : chunk = before ++ (size ++ seqn ++ (payload ++ rest)) := by
            rw [layout, List.append_assoc _ payload]
          have onward : chunk = (before ++ (size ++ seqn ++ payload)) ++ rest := by
            simp only [layout, List.append_assoc]
          have here : sizeAt chunk slack before.length = payload.length := by
            rw [sizeAt_rest opened sizeWidth, width]
          rw [← sizeAt_rest opened sizeWidth, ← seqAt_rest opened sizeWidth seqWidth] at goes
          have moved : before.length + (payload.length + 16) =
              (before ++ (size ++ seqn ++ payload)).length := by
            simp only [List.length_append, sizeWidth, seqWidth]
            omega
          have unwrapped (value : Nat) (small : value ≤ chunk.length) : wrap value = value :=
            Nat.mod_eq_of_lt (by omega)
          have more : before.length < chunk.length ∧ br < chunk.length := by omega
          rw [scanLoop_of_entry more goes, scanEntries_of_entry more goes, here,
            unwrapped _ (by omega), unwrapped _ (by omega), moved]
          simp only [List.length_append, sizeWidth, seqWidth] at enough
          exact induction onward (by simp only [List.length_append]; omega) (by omega)
            ((inside.withHeader (by omega)).withEntry (by omega))

theorem header_split {before rest : Bytes} (layout : chunk = before ++ rest)
    (whole : before.length + 16 ≤ chunk.length) :
    ∃ size seqn back, size.length = 8 ∧ seqn.length = 8 ∧ rest = size ++ seqn ++ back := by
  have total : chunk.length = before.length + rest.length := by rw [layout, List.length_append]
  refine ⟨rest.take 8, (rest.drop 8).take 8, rest.drop 16, ?_, ?_, ?_⟩
  · rw [List.length_take]
    omega
  · rw [List.length_take, List.length_drop]
    omega
  · have back : rest.drop 16 = (rest.drop 8).drop 8 := by rw [List.drop_drop]
    rw [back, List.append_assoc, List.take_append_drop, List.take_append_drop]

theorem tiled_of_reads {before rest : Bytes} (layout : chunk = before ++ rest)
    (short : chunk.length < 2 ^ 63) {fuel br : Nat} (behind : br ≤ before.length)
    {scan final : Scan}
    (run : scanLoop chunk slack firstChunk fuel before.length br scan = some final)
    (inside : ∀ range ∈ final.reads, range.1 + range.2 ≤ chunk.length) :
    Tiled firstChunk rest := by
  induction fuel generalizing before rest br scan with
  | zero => cases run
  | succ fuel induction =>
      have total : chunk.length = before.length + rest.length := by rw [layout, List.length_append]
      have header (recorded : (scan.withHeader before.length).reads ⊆ final.reads) :
          before.length + 16 ≤ chunk.length :=
        inside (before.length + 8, 8) (recorded (by simp [Scan.withHeader]))
      rcases scanLoop_cases run with ⟨past, _⟩ | ⟨more, stops, rfl⟩ | ⟨more, goes, onward⟩
      · have empty : rest = [] := List.length_eq_zero_iff.mp (by omega)
        rw [empty]
        exact .done
      · rcases header_split layout (header (List.Subset.refl _)) with
          ⟨size, seqn, back, sizeWidth, seqWidth, rfl⟩
        rw [sizeAt_rest layout sizeWidth, seqAt_rest layout sizeWidth seqWidth] at stops
        exact .stop sizeWidth seqWidth stops
      · have recorded := scanLoop_reads onward
        have bound : before.length + 16 + sizeAt chunk slack before.length ≤ chunk.length :=
          inside (before.length + 16, sizeAt chunk slack before.length)
            (recorded (by simp [Scan.withEntry]))
        rcases header_split layout (header (List.Subset.trans (List.subset_append_left _ _) recorded))
          with ⟨size, seqn, back, sizeWidth, seqWidth, rfl⟩
        rw [sizeAt_rest layout sizeWidth] at bound onward goes
        rw [seqAt_rest layout sizeWidth seqWidth] at goes
        simp only [List.length_append, sizeWidth, seqWidth] at total
        have split : size ++ seqn ++ back =
            size ++ seqn ++ back.take size.toNat ++ back.drop size.toNat := by
          rw [List.append_assoc _ (back.take _), List.take_append_drop]
        have width : (back.take size.toNat).length = size.toNat := by
          rw [List.length_take]
          omega
        have moved : wrap (before.length + (size.toNat + 16)) =
            (before ++ (size ++ seqn ++ back.take size.toNat)).length := by
          simp only [wrap, List.length_append, width, sizeWidth, seqWidth]
          omega
        have counted : wrap (br + size.toNat) ≤
            (before ++ (size ++ seqn ++ back.take size.toNat)).length := by
          rw [← moved]
          simp only [wrap]
          omega
        rw [moved] at onward
        rw [split] at layout ⊢
        have cut : chunk = (before ++ (size ++ seqn ++ back.take size.toNat)) ++
            back.drop size.toNat := by
          simp only [layout, List.append_assoc]
        exact .entry sizeWidth seqWidth goes width (induction cut counted onward)

theorem scanEntries_of_tiled (tiled : Tiled firstChunk chunk) (short : chunk.length < 2 ^ 63) :
    ∃ scan, scanLoop chunk slack firstChunk (chunk.length + 1) 0 0 {} = some scan ∧
      Inside chunk scan ∧ scan.position ≤ chunk.length ∧
      scanEntries chunk slack chunk.length firstChunk (chunk.length + 1) 0 0 [] =
        (scan.entries, scan.position) :=
  scanLoop_of_tiled tiled (List.nil_append chunk).symm short (Nat.le_refl 0) (Nat.lt_succ_self _)
    ⟨List.forall_mem_nil _, List.forall_mem_nil _⟩

/-- What the parser is to keep to: reads and stored payloads inside of the window, and what
is not a sequence of entries reported by the position it ends at. -/
structure StaysInside (firstChunk : Bool) (chunk : Bytes) (scan : Scan) : Prop where
  inside : Inside chunk scan
  reported : ¬ Tiled firstChunk chunk → chunk.length < scan.position

/-- The loop ends on every window, and stays inside of exactly those that are tiled. -/
theorem parser_inside_iff (chunk : Bytes) (slack : Nat → UInt8) (firstChunk : Bool)
    (short : chunk.length < 2 ^ 63) :
    ∃ scan, scanLoop chunk slack firstChunk (chunk.length + 1) 0 0 {} = some scan ∧
      (StaysInside firstChunk chunk scan ↔ Tiled firstChunk chunk) := by
  have ends := @scanLoop_ends chunk slack firstChunk short chunk.length 0 0 {} 0 rfl
    (Nat.zero_le _) (by omega)
  rcases Option.isSome_iff_exists.mp ends with ⟨scan, run⟩
  refine ⟨scan, run, fun stays => ?_, fun tiled => ?_⟩
  · exact tiled_of_reads (List.nil_append chunk).symm short (Nat.le_refl 0) run stays.inside.reads
  · rcases scanEntries_of_tiled tiled short with ⟨same, again, inside, _⟩
    rw [run] at again
    cases again
    exact ⟨inside, fun untiled => absurd tiled untiled⟩

/-! ## Windows as `SparseAppend` writes them -/

theorem Tiled.length {bytes : Bytes} (tiled : Tiled firstChunk bytes) :
    bytes = [] ∨ 16 ≤ bytes.length := by
  cases tiled with
  | done => exact .inl rfl
  | stop sizeWidth seqWidth | entry sizeWidth seqWidth =>
      right
      simp only [List.length_append]
      omega

theorem Tiled.behind {size seqn payload rest : Bytes} (sizeWidth : size.length = 8)
    (seqWidth : seqn.length = 8) (goes : ¬ Stops firstChunk size.toNat seqn.toNat)
    (width : payload.length = size.toNat)
    (tiled : Tiled firstChunk (size ++ seqn ++ payload ++ rest)) : Tiled firstChunk rest := by
  generalize layout : size ++ seqn ++ payload ++ rest = bytes at tiled
  cases tiled with
  | done =>
      have empty := congrArg List.length layout
      simp only [List.length_append, List.length_nil] at empty
      omega
  | @stop otherSize otherSeqn back otherSizeWidth otherSeqWidth stops =>
      simp only [List.append_assoc] at layout
      rcases List.append_inj layout (by omega) with ⟨rfl, seqLayout⟩
      rcases List.append_inj seqLayout (by omega) with ⟨rfl, _⟩
      exact absurd stops goes
  | @entry otherSize otherSeqn otherPayload back otherSizeWidth otherSeqWidth _ otherWidth tiled =>
      simp only [List.append_assoc] at layout
      rcases List.append_inj layout (by omega) with ⟨rfl, seqLayout⟩
      rcases List.append_inj seqLayout (by omega) with ⟨rfl, payloadLayout⟩
      rcases List.append_inj payloadLayout (by omega) with ⟨rfl, rfl⟩
      exact tiled

theorem not_stops_of_scannable {entry : StoredEntry} (scannable : entry.Scannable firstChunk) :
    ¬ Stops firstChunk (Bytes.ofNat 8 entry.payload.length).toNat (Bytes.ofNat 8 entry.seq).toNat := by
  rw [Bytes.toNat_ofNat_of_lt scannable.fits.length, Bytes.toNat_ofNat_of_lt scannable.fits.seq]
  have positive := scannable.fits.positive
  rintro (empty | ⟨unnumbered, later⟩)
  · omega
  · rcases scannable.seq with first | numbered
    · rw [first] at later
      cases later
    · exact numbered unnumbered

theorem tiled_window_iff {entries : List StoredEntry}
    (scannable : ∀ entry ∈ entries, entry.Scannable firstChunk) (pad : Nat) :
    Tiled firstChunk (entries.flatMap StoredEntry.bytes ++ List.replicate pad 0) ↔
      pad = 0 ∨ 16 ≤ pad := by
  induction entries with
  | nil =>
      rw [List.flatMap_nil, List.nil_append]
      constructor
      · intro tiled
        rcases tiled.length with empty | wide
        · exact .inl ((List.replicate_eq_nil_iff _).mp empty)
        · rw [List.length_replicate] at wide
          exact .inr wide
      · rintro (rfl | wide)
        · exact .done
        · have split : List.replicate pad (0 : UInt8) =
              List.replicate 8 0 ++ List.replicate 8 0 ++ List.replicate (pad - 16) 0 := by
            rw [List.replicate_append_replicate, List.replicate_append_replicate]
            congr 1
            omega
          rw [split]
          exact .stop List.length_replicate List.length_replicate
            (.inl (Bytes.toNat_replicate_zero 8))
  | cons entry entries induction =>
      have this := scannable entry List.mem_cons_self
      have rest := induction fun other member => scannable other (List.mem_cons_of_mem _ member)
      have layout : (entry :: entries).flatMap StoredEntry.bytes ++ List.replicate pad 0 =
          Bytes.ofNat 8 entry.payload.length ++ Bytes.ofNat 8 entry.seq ++ entry.payload ++
            (entries.flatMap StoredEntry.bytes ++ List.replicate pad 0) := by
        rw [List.flatMap_cons, StoredEntry.bytes, StoredEntry.header, this.unpadded,
          List.replicate_zero, List.append_nil, List.append_assoc]
      have goes := not_stops_of_scannable this
      have width : entry.payload.length = (Bytes.ofNat 8 entry.payload.length).toNat :=
        (Bytes.toNat_ofNat_of_lt this.fits.length).symm
      rw [layout, ← rest]
      exact ⟨Tiled.behind (Bytes.length_ofNat _ _) (Bytes.length_ofNat _ _) goes width,
        .entry (Bytes.length_ofNat _ _) (Bytes.length_ofNat _ _) goes width⟩

def fullBlock : WalEntry := ⟨0, filled 7⟩

theorem fullBlock_scannable : ∀ entry ∈ [stored fullBlock], entry.Scannable true := by
  intro entry member
  rw [List.mem_singleton.mp member]
  refine ⟨⟨by decide, ?_, ?_⟩, rfl, .inl rfl⟩
  all_goals
    simp [stored, fullBlock]

theorem length_fullBlock : (window [fullBlock]).length = 4096 := by
  simp [window, stored, fullBlock, StoredEntry.size]

theorem parser_inside_fullBlock :
    (window [fullBlock]).length < 2 ^ 63 ∧
      ∃ scan, scanLoop (window [fullBlock]) (fun _ => 0) true ((window [fullBlock]).length + 1) 0 0 {} =
        some scan ∧ StaysInside true (window [fullBlock]) scan := by
  have short : (window [fullBlock]).length < 2 ^ 63 := by rw [length_fullBlock]; decide
  have tiled : Tiled true (window [fullBlock]) := by
    have padded := (tiled_window_iff fullBlock_scannable 0).mpr (.inl rfl)
    rw [List.replicate_zero, List.append_nil] at padded
    exact padded
  rcases parser_inside_iff (window [fullBlock]) (fun _ => 0) true short with ⟨scan, run, exactly⟩
  exact ⟨short, scan, run, exactly.mpr tiled⟩

/-- The block `SparseAppend` writes for a payload of 4072 bytes. -/
def shortPadding : Bytes :=
  (stored ⟨0, List.replicate 4072 7⟩).bytes ++ List.replicate 8 0

theorem length_shortPadding : shortPadding.length = 4096 := by
  rw [shortPadding, List.length_append, StoredEntry.length_bytes, StoredEntry.size, stored]
  simp only [List.length_replicate]

theorem short_padding_overreads : shortPadding.length = 4096 ∧
    ∃ scan, scanLoop shortPadding (fun _ => 0) true 4097 0 0 {} = some scan ∧
      ¬ StaysInside true shortPadding scan := by
  have scannable : ∀ entry ∈ [stored ⟨0, List.replicate 4072 7⟩], entry.Scannable true := by
    intro entry member
    rw [List.mem_singleton.mp member]
    refine ⟨⟨by decide, ?_, ?_⟩, rfl, .inl rfl⟩
    all_goals
      simp only [stored, List.length_replicate]
      decide
  have untiled : ¬ Tiled true shortPadding := by
    have window := (tiled_window_iff scannable 8).not
    rw [List.flatMap_singleton] at window
    exact window.mpr (by omega)
  have short : shortPadding.length < 2 ^ 63 := by rw [length_shortPadding]; decide
  have ends := @scanLoop_ends shortPadding (fun _ => 0) true short 4096 0 0 {} 0 rfl
    (Nat.zero_le _) (by rw [length_shortPadding]; decide)
  rcases Option.isSome_iff_exists.mp ends with ⟨scan, run⟩
  refine ⟨length_shortPadding, scan, run, fun stays => untiled ?_⟩
  exact tiled_of_reads (List.nil_append _).symm short (Nat.le_refl 0) run stays.inside.reads

end Zwal.WalParser
