import Zwal.Contracts.SequentialRead

/-! # The two ways of loading a write-ahead log

A log laid out in barrier windows, with sequence numbers that grow from window to
window, is a source of entries for both builds of `TryRecoverWAL`: one window at a
time, or, where nothing is padded, as a whole. -/

namespace Zwal.WalSources

open FileState Pieces SequentialRead

/-! ## Loading a chunk -/

/-- The environment never answers with an error. -/
def Answers (zbd : ZonedBlockDevice) : Prop := ∀ answer ∈ zbd.replies, 0 ≤ answer

theorem request_ok (failure : IOStatus) {zbd : ZonedBlockDevice} (answers : Answers zbd) :
    ∃ replies, ZonedBlockDevice.request failure zbd = (.ok (), { zbd with replies := replies }) ∧
      Answers { zbd with replies := replies } := by
  refine ⟨zbd.replies.tail, ZonedBlockDevice.request_of_answered ?_,
    fun answer member => answers answer (List.mem_of_mem_tail member)⟩
  cases script : zbd.replies with
  | nil => exact Int.le_refl 0
  | cons answer rest => exact answers answer (script ▸ List.mem_cons_self)

structure Asks (before after : ZonedBlockDevice) : Prop where
  blockSize : after.blockSize = before.blockSize
  replies : after.replies <:+ before.replies

instance : Std.Refl Asks := ⟨fun _ => ⟨rfl, List.suffix_rfl⟩⟩

instance : IsTrans ZonedBlockDevice Asks :=
  ⟨fun _ _ _ one two => ⟨two.blockSize.trans one.blockSize, two.replies.trans one.replies⟩⟩

theorem Asks.answers {before after : ZonedBlockDevice} (asks : Asks before after)
    (answers : Answers before) : Answers after :=
  fun answer member => answers answer (asks.replies.subset member)

theorem request_asks (failure : IOStatus) : (ZonedBlockDevice.request failure).Respects Asks := by
  refine Program.Respects.bind (fun zbd => ?_) fun answer => ?_
  · simp only [ZonedBlockDevice.reply]
    split
    · exact Std.Refl.refl zbd
    · rename_i answer rest script
      exact ⟨rfl, script ▸ List.suffix_cons answer rest⟩
  · split
    · exact .fail _
    · exact .pure _

theorem openOnceLog_asks (log : Nat) : (ZonedBlockDevice.openOnceLog log).Respects Asks :=
  .bind (.update fun _ => ⟨rfl, List.suffix_rfl⟩) fun _ => (request_asks _).attempt

theorem takeWalTokens_asks : ZonedBlockDevice.takeWalTokens.Respects Asks := by
  refine Program.Respects.bind (fun zbd => ?_) fun _ => Program.Respects.bind (fun zbd => ?_) ?_
  · simp only [ZonedBlockDevice.waitForOpenIOZoneToken]
    repeat' split
    all_goals exact ⟨rfl, List.suffix_rfl⟩
  · simp only [ZonedBlockDevice.getActiveIOZoneTokenIfAvailable]
    split <;> exact ⟨rfl, List.suffix_rfl⟩
  · intro gotToken
    split
    · exact .pure _
    · exact .fail _

theorem openWALZone_asks (activeZone : Nat) :
    (ZonedBlockDevice.openWALZone activeZone).Respects Asks := by
  refine takeWalTokens_asks.bind fun _ => Program.Respects.read.bind fun zbd => ?_
  split
  · exact .fail _
  · split
    · exact .fail _
    · exact .bind (.update fun _ => ⟨rfl, List.suffix_rfl⟩) fun _ =>
        (openOnceLog_asks _).bind fun status => .pure _

theorem ensureLog_spec {state opened : FileState} (run : ensureLog state = (.ok (), opened)) :
    opened.file.wal.isSome ∧ opened.file = { state.file with wal := opened.file.wal } ∧
      Asks state.zbd opened.zbd := by
  rw [ensureLog, bind_read] at run
  cases found : state.file.wal with
  | some log =>
      simp only [found] at run
      cases run
      exact ⟨by simp [found], rfl, Std.Refl.refl _⟩
  | none =>
      cases extents : state.file.extents with
      | nil => simp [found, extents, Program.fail] at run
      | cons extent rest =>
          simp only [found, extents] at run
          rcases bind_eq_ok run with ⟨⟨log, status⟩, middle, first, run⟩
          rcases bind_eq_ok run with ⟨_, last, set, run⟩
          cases set
          have asks := openWALZone_asks extent.zone state.zbd
          simp only [onDevice, Program.within, Prod.mk.injEq] at first
          cases status with
          | error failure => cases run
          | ok _ =>
              cases run
              rw [← first.2]
              exact ⟨rfl, rfl, asks⟩

/-- What a range of the log holds: entries that can be scanned, padded at the end only. -/
structure Chunk (env : ReaderEnv) (blockSize start stop : Nat) (entries : List StoredEntry)
    (pad : Nat) : Prop where
  layout : env.view.read blockSize start (stop - start) =
    entries.flatMap StoredEntry.bytes ++ List.replicate pad 0
  scannable : ∀ entry ∈ entries, entry.Scannable (!(env.view.tail blockSize < start))
  tail : pad = 0 ∨ 8 ≤ pad
  whole : (env.view.read blockSize start (stop - start)).length = stop - start

theorem recoverWALChunk_of_read {env : ReaderEnv} (store : List WalEntry → ZoneFile → ZoneFile)
    (overwrites : ∀ first second file, store first (store second file) = store first file)
    {start stop pad : Nat} {entries : List StoredEntry} {ordered : List WalEntry}
    {state : FileState} {replies : List Int}
    (chunk : Chunk env state.zbd.blockSize start stop entries pad)
    (perm : ordered.Perm (entries.map StoredEntry.toWalEntry))
    (sorted : ordered.Pairwise fun first second => first.seq < second.seq)
    (read : ZonedBlockDevice.request (.ioError "Error WAL read I/O") state.zbd =
      (.ok (), { state.zbd with replies := replies })) :
    recoverWALChunk env store start stop state = (.ok (), { state with
      zbd := { state.zbd with replies := replies }, file := store ordered state.file }) := by
  have scan := scanEntries_chunk env.slack chunk.layout chunk.scannable chunk.tail
  rw [chunk.whole] at scan
  have position : (entries.flatMap StoredEntry.bytes).length ≤ stop - start := by
    rw [← chunk.whole, chunk.layout, List.length_append]
    exact Nat.le_add_right _ _
  have request : onDevice (ZonedBlockDevice.request (.ioError "Error WAL read I/O"))
      { state with file := store [] state.file } =
      (.ok (), ⟨{ state.zbd with replies := replies }, store [] state.file, state.buffer⟩) :=
    onDevice_of_ok read
  rw [recoverWALChunk, bind_setFile,
    bind_of_ok request, bind_read]
  simp only [scan]
  rw [bind_setFile, if_neg (by omega),
    env.sort.run_eq perm sorted]
  simp only [setFile, Program.update, overwrites]

theorem recoverWALChunk_spec {env : ReaderEnv} (store : List WalEntry → ZoneFile → ZoneFile)
    (overwrites : ∀ first second file, store first (store second file) = store first file)
    {start stop pad : Nat} {entries : List StoredEntry} {ordered : List WalEntry}
    {state : FileState}
    (chunk : Chunk env state.zbd.blockSize start stop entries pad)
    (perm : ordered.Perm (entries.map StoredEntry.toWalEntry))
    (sorted : ordered.Pairwise fun first second => first.seq < second.seq)
    (answers : Answers state.zbd) :
    ∃ replies, recoverWALChunk env store start stop state =
        (.ok (), { state with
          zbd := { state.zbd with replies := replies }, file := store ordered state.file }) ∧
      Answers { state.zbd with replies := replies } := by
  rcases request_ok (.ioError "Error WAL read I/O") answers with ⟨replies, read, answers'⟩
  exact ⟨replies, recoverWALChunk_of_read store overwrites chunk perm sorted read, answers'⟩

/-! ## A log laid out in windows -/

/-- A once-log made of barrier windows of entries, each window padded at its end only,
with the entries of each window in the order of their sequence numbers. -/
structure Layout (config : BuildConfig) (env : ReaderEnv) (blockSize : Nat)
    (windows : List (List StoredEntry)) (ordered : List (List WalEntry)) : Prop where
  content : env.view.content = windows.flatten.flatMap StoredEntry.bytes
  cut : Journal.Windows StoredEntry.size config.walBarrierSize windows
  nonempty : ∀ window ∈ windows, window ≠ []
  fits : ∀ entry ∈ windows.flatten, entry.Fits
  unpadded : ∀ window ∈ windows, ∀ entry ∈ window.dropLast, entry.pad = 0
  padding : ∀ window ∈ windows, ∀ entry ∈ window, entry.pad = 0 ∨ 8 ≤ entry.pad
  aligned : 1 < windows.length → lbaSize blockSize ∣ config.walBarrierSize
  perm : List.Forall₂ (fun items window => items.Perm (window.map StoredEntry.toWalEntry))
    ordered windows
  growing : ordered.flatten.Pairwise fun first second => first.seq < second.seq

theorem length_flatMap_bytes (entries : List StoredEntry) :
    (entries.flatMap StoredEntry.bytes).length = Journal.total StoredEntry.size entries := by
  induction entries with
  | nil => rfl
  | cons entry entries induction => simp [induction]

theorem flatMap_bytes_of_unpadded {window : List StoredEntry} (nonempty : window ≠ [])
    (unpadded : ∀ entry ∈ window.dropLast, entry.pad = 0) :
    ∃ (bare : List StoredEntry) (pad : Nat), window.flatMap StoredEntry.bytes =
        bare.flatMap StoredEntry.bytes ++ List.replicate pad 0 ∧
      (∀ entry ∈ bare, entry.pad = 0) ∧
      bare.map StoredEntry.toWalEntry = window.map StoredEntry.toWalEntry ∧
      ∃ last ∈ window, last.pad = pad := by
  rcases List.eq_nil_or_concat window with rfl | ⟨init, last, rfl⟩
  · exact absurd rfl nonempty
  · rw [List.concat_eq_append, List.dropLast_concat] at unpadded
    refine ⟨init ++ [{ last with pad := 0 }], last.pad, ?_, ?_, ?_, last, by simp, rfl⟩
    · simp [StoredEntry.bytes, StoredEntry.header]
    · intro entry member
      rcases List.mem_append.mp member with member | member
      · exact unpadded entry member
      · rw [List.mem_singleton.mp member]
    · simp

theorem perm_flatten_map {windows : List (List StoredEntry)} {ordered : List (List WalEntry)}
    (moved : List.Forall₂ (fun items window => items.Perm (window.map StoredEntry.toWalEntry))
      ordered windows) :
    ordered.flatten.Perm (windows.flatten.map StoredEntry.toWalEntry) := by
  induction moved with
  | nil => exact .refl _
  | cons one _ induction => simpa using one.append induction

section Windows

variable {config : BuildConfig} {env : ReaderEnv} {blockSize : Nat}
  {windows : List (List StoredEntry)} {ordered : List (List WalEntry)}

theorem Layout.length (layout : Layout config env blockSize windows ordered) :
    ordered.length = windows.length :=
  layout.perm.length_eq

theorem Layout.length_content (layout : Layout config env blockSize windows ordered) :
    env.view.content.length = Journal.total StoredEntry.size windows.flatten := by
  rw [layout.content, length_flatMap_bytes]

theorem total_pos {window : List StoredEntry} (nonempty : window ≠ []) :
    0 < Journal.total StoredEntry.size window := by
  cases window with
  | nil => exact absurd rfl nonempty
  | cons entry window =>
      rw [Journal.total_cons, StoredEntry.size]
      omega

theorem Layout.range (layout : Layout config env blockSize windows ordered) {chunk : Nat}
    {window : List StoredEntry} (found : windows[chunk]? = some window) :
    min (env.view.tail blockSize + chunk * config.walBarrierSize) (env.view.head blockSize) =
        env.view.tail blockSize + chunk * config.walBarrierSize ∧
      min (env.view.tail blockSize + (chunk + 1) * config.walBarrierSize)
          (env.view.head blockSize) =
        env.view.tail blockSize + chunk * config.walBarrierSize +
          Journal.total StoredEntry.size window := by
  rcases List.getElem?_eq_some_iff.mp found with ⟨bound, rfl⟩
  have before := layout.cut.total_take bound
  have fits := layout.cut.fits _ (List.getElem_mem bound)
  have split : env.view.content.length = chunk * config.walBarrierSize +
      (Journal.total StoredEntry.size windows[chunk] +
        Journal.total StoredEntry.size (windows.drop (chunk + 1)).flatten) := by
    rw [layout.length_content, ← before, ← Journal.total_append, ← Journal.total_append,
      ← List.flatten_cons, ← List.drop_eq_getElem_cons bound, ← List.flatten_append,
      List.take_append_drop]
  have last : chunk + 1 = windows.length →
      Journal.total StoredEntry.size (windows.drop (chunk + 1)).flatten = 0 := by
    intro last
    rw [last, List.drop_length]
    rfl
  have full : chunk + 1 < windows.length →
      Journal.total StoredEntry.size windows[chunk] = config.walBarrierSize := by
    intro inner
    have whole := layout.cut.total_take inner
    rw [List.take_succ_eq_append_getElem bound, List.flatten_append, List.flatten_singleton,
      Journal.total_append, before, Nat.succ_mul] at whole
    omega
  rw [LogView.head, split, Nat.succ_mul]
  omega

theorem Layout.range_end (layout : Layout config env blockSize windows ordered) :
    min (env.view.tail blockSize + (windows.length + 1) * config.walBarrierSize)
        (env.view.head blockSize) ≤
      min (env.view.tail blockSize + windows.length * config.walBarrierSize)
        (env.view.head blockSize) := by
  have short : env.view.content.length ≤ windows.length * config.walBarrierSize := by
    rw [layout.length_content]
    rcases List.eq_nil_or_concat windows with rfl | ⟨init, last, rfl⟩
    · simp
    · have cut := layout.cut
      rw [List.concat_eq_append] at cut
      have before : Journal.total StoredEntry.size ((init ++ [last]).take init.length).flatten =
          init.length * config.walBarrierSize := cut.total_take (by simp)
      have fits := cut.fits last (by simp)
      simp only [List.concat_eq_append, List.take_left, List.flatten_append, List.flatten_singleton,
        Journal.total_append, List.length_append, List.length_singleton, Nat.succ_mul] at before ⊢
      omega
  rw [LogView.head]
  omega

theorem Layout.seq_ne_zero (layout : Layout config env blockSize windows ordered) {chunk : Nat}
    {items : List WalEntry} (found : ordered[chunk]? = some items) (later : 0 < chunk)
    {entry : WalEntry} (member : entry ∈ items) : entry.seq ≠ 0 := by
  rcases List.getElem?_eq_some_iff.mp found with ⟨bound, rfl⟩
  have start : 0 < ordered.length := by omega
  have window : 0 < windows.length := layout.length ▸ start
  have perm : ordered[0].Perm (windows[0].map StoredEntry.toWalEntry) :=
    layout.perm.get start window
  have filled : ordered[0] ≠ [] := by
    intro empty
    rw [empty, List.nil_perm, List.map_eq_nil_iff] at perm
    exact layout.nonempty _ (List.getElem_mem window) perm
  rcases List.exists_mem_of_ne_nil _ filled with ⟨first, inside⟩
  have apart := (List.pairwise_flatten.mp layout.growing).2
  have less := List.pairwise_iff_getElem.mp apart 0 chunk start bound later first inside entry member
  omega

theorem Layout.chunk (layout : Layout config env blockSize windows ordered) {chunk : Nat}
    {window : List StoredEntry} {items : List WalEntry} (found : windows[chunk]? = some window)
    (sorted : ordered[chunk]? = some items) :
    ∃ entries pad, Chunk env blockSize (env.view.tail blockSize + chunk * config.walBarrierSize)
        (env.view.tail blockSize + chunk * config.walBarrierSize +
          Journal.total StoredEntry.size window) entries pad ∧
      items.Perm (entries.map StoredEntry.toWalEntry) := by
  have inside := List.mem_of_getElem? found
  rcases flatMap_bytes_of_unpadded (layout.nonempty _ inside) (layout.unpadded _ inside) with
    ⟨bare, pad, bytes, unpadded, sameEntries, last, lastMember, rfl⟩
  rcases List.getElem?_eq_some_iff.mp found with ⟨bound, rfl⟩
  rcases List.getElem?_eq_some_iff.mp sorted with ⟨bound', rfl⟩
  have perm := layout.perm.get bound' bound
  -- The block the range starts in starts where the range does.
  have block : (env.view.tail blockSize + chunk * config.walBarrierSize) / lbaSize blockSize *
      lbaSize blockSize - env.view.tail blockSize = chunk * config.walBarrierSize := by
    have dvd : lbaSize blockSize ∣ chunk * config.walBarrierSize := by
      cases chunk with
      | zero => simp
      | succ chunk => exact Nat.dvd_mul_left_of_dvd (layout.aligned (by omega)) _
    have tail : lbaSize blockSize ∣ env.view.tail blockSize := Nat.dvd_mul_left _ _
    rw [Nat.div_mul_cancel (Nat.dvd_add tail dvd), Nat.add_sub_cancel_left]
  have range : env.view.read blockSize (env.view.tail blockSize + chunk * config.walBarrierSize)
      (Journal.total StoredEntry.size windows[chunk]) =
        windows[chunk].flatMap StoredEntry.bytes := by
    rw [LogView.read, block, layout.content, ← layout.cut.total_take bound, ← length_flatMap_bytes,
      ← length_flatMap_bytes]
    have split : windows.flatten.flatMap StoredEntry.bytes =
        (windows.take chunk).flatten.flatMap StoredEntry.bytes ++
          (windows[chunk].flatMap StoredEntry.bytes ++
            (windows.drop (chunk + 1)).flatten.flatMap StoredEntry.bytes) := by
      rw [← List.flatMap_append, ← List.flatMap_append, ← List.flatten_cons,
        ← List.drop_eq_getElem_cons bound, ← List.flatten_append, List.take_append_drop]
    rw [split, List.drop_left, List.take_left]
  refine ⟨bare, last.pad, ⟨?_, fun entry member => ?_, layout.padding _ inside last lastMember, ?_⟩,
    by rw [sameEntries]; exact perm⟩
  · rw [Nat.add_sub_cancel_left, range, bytes]
  · have same : entry.toWalEntry ∈ windows[chunk].map StoredEntry.toWalEntry :=
      sameEntries ▸ List.mem_map_of_mem member
    rcases List.mem_map.mp same with ⟨stored, storedMember, storedSame⟩
    have fits := layout.fits stored (List.mem_flatten.mpr ⟨_, inside, storedMember⟩)
    refine ⟨⟨storedSame ▸ fits.seq, storedSame ▸ fits.positive, storedSame ▸ fits.length⟩,
      unpadded entry member, ?_⟩
    rcases Nat.eq_zero_or_pos chunk with first | later
    · exact .inl (by simp [first])
    · exact .inr (layout.seq_ne_zero sorted later (perm.mem_iff.mpr same))
  · rw [Nat.add_sub_cancel_left, range, length_flatMap_bytes]

/-! ## The chunked reader -/

def payloads (ordered : List (List WalEntry)) : List Bytes := ordered.flatten.map WalEntry.payload

/-- How many entries the chunks before `chunk` have. -/
def entriesBefore (ordered : List (List WalEntry)) (chunk : Nat) : Nat :=
  (ordered.take chunk).flatten.length

theorem length_payloads : (payloads ordered).length = ordered.flatten.length :=
  List.length_map _

theorem entriesBefore_succ {chunk : Nat} {items : List WalEntry}
    (found : ordered[chunk]? = some items) :
    entriesBefore ordered (chunk + 1) = entriesBefore ordered chunk + items.length := by
  rw [entriesBefore, List.take_add_one, found, Option.toList_some, List.flatten_append,
    List.length_append, List.flatten_singleton, entriesBefore]

theorem entriesBefore_length : entriesBefore ordered ordered.length = (payloads ordered).length := by
  rw [entriesBefore, List.take_length, length_payloads]

theorem payloads_split {chunk : Nat} {items : List WalEntry}
    (found : ordered[chunk]? = some items) :
    payloads ordered = payloads (ordered.take chunk) ++
      (items.map WalEntry.payload ++ payloads (ordered.drop (chunk + 1))) := by
  rcases List.getElem?_eq_some_iff.mp found with ⟨bound, rfl⟩
  rw [payloads, payloads, payloads, ← List.map_append, ← List.map_append, ← List.flatten_cons,
    ← List.drop_eq_getElem_cons bound, ← List.flatten_append, List.take_append_drop]

theorem getElem?_payloads {chunk index : Nat} {items : List WalEntry}
    (found : ordered[chunk]? = some items) (above : entriesBefore ordered chunk ≤ index)
    (below : index < entriesBefore ordered chunk + items.length) :
    (payloads ordered)[index]? =
      (items[index - entriesBefore ordered chunk]?).map WalEntry.payload := by
  have width : (payloads (ordered.take chunk)).length = entriesBefore ordered chunk :=
    length_payloads
  rw [payloads_split found, List.getElem?_append_right (by omega),
    List.getElem?_append_left (by rw [List.length_map]; omega), List.getElem?_map, width]

theorem offsetOf_chunk {chunk : Nat} {items : List WalEntry}
    (found : ordered[chunk]? = some items) :
    offsetOf (payloads ordered) (entriesBefore ordered (chunk + 1)) =
      offsetOf (payloads ordered) (entriesBefore ordered chunk) +
        (items.map fun entry => entry.payload.length).sum := by
  have width : entriesBefore ordered chunk = (payloads (ordered.take chunk)).length :=
    length_payloads.symm
  have width' : entriesBefore ordered (chunk + 1) =
      (payloads (ordered.take chunk) ++ items.map WalEntry.payload).length := by
    rw [entriesBefore_succ found, width, List.length_append, List.length_map]
  have stop : offsetOf (payloads ordered) (entriesBefore ordered (chunk + 1)) =
      (payloads (ordered.take chunk) ++ items.map WalEntry.payload).flatten.length := by
    rw [width', payloads_split found, ← List.append_assoc, offsetOf_left]
  rw [stop, width, payloads_split found, offsetOf_left, List.flatten_append, List.length_append,
    List.length_flatten (L := items.map WalEntry.payload), List.map_map]
  rfl

structure Before (ordered : List (List WalEntry)) (blockSize chunk : Nat) (state : FileState) : Prop where
  opened : state.file.wal.isSome
  answers : Answers state.zbd
  blockSize : state.zbd.blockSize = blockSize
  chunkId : state.file.chunkId = chunk
  stop : state.file.loadedWalChunks.stop =
    offsetOf (payloads ordered) (entriesBefore ordered chunk)
  passed : state.file.loadedWalChunks.jump + state.file.loadedWalChunks.walEntries.length =
    entriesBefore ordered chunk

structure Loaded (ordered : List (List WalEntry)) (blockSize chunk : Nat) (items : List WalEntry)
    (state : FileState) : Prop where
  next : Before ordered blockSize (chunk + 1) state
  found : ordered[chunk]? = some items
  entries : state.file.loadedWalChunks.walEntries = items
  jump : state.file.loadedWalChunks.jump = entriesBefore ordered chunk

theorem Layout.items (layout : Layout config env blockSize windows ordered) {chunk : Nat}
    (inside : chunk < ordered.length) :
    ∃ window items, windows[chunk]? = some window ∧ ordered[chunk]? = some items ∧
      window ≠ [] ∧ items ≠ [] := by
  have inside' : chunk < windows.length := layout.length ▸ inside
  refine ⟨windows[chunk], ordered[chunk], List.getElem?_eq_getElem inside',
    List.getElem?_eq_getElem inside, layout.nonempty _ (List.getElem_mem inside'), fun empty => ?_⟩
  have perm : ordered[chunk].Perm (windows[chunk].map StoredEntry.toWalEntry) :=
    layout.perm.get inside inside'
  rw [empty, List.nil_perm, List.map_eq_nil_iff] at perm
  exact layout.nonempty _ (List.getElem_mem inside') perm

theorem Layout.items_growing (layout : Layout config env blockSize windows ordered) {chunk : Nat}
    {items : List WalEntry} (found : ordered[chunk]? = some items) :
    items.Pairwise fun first second => first.seq < second.seq :=
  (List.pairwise_flatten.mp layout.growing).1 items (List.mem_of_getElem? found)

theorem loadChunks_pass (layout : Layout config env blockSize windows ordered) {chunk : Nat}
    (inside : chunk < ordered.length) {state : FileState}
    (before : Before ordered blockSize chunk state) (fuel : Nat) {offset : Nat}
    (near : offset ≤ offsetOf (payloads ordered) (entriesBefore ordered (chunk + 1))) :
    ∃ items next, loadChunks config env (fuel + 1) offset state = (.ok (), next) ∧
      Loaded ordered blockSize chunk items next ∧ items ≠ [] ∧ Kept state next := by
  rcases layout.items inside with ⟨window, items, here, sorted, windowFilled, filled⟩
  rcases layout.range here with ⟨lbaIn, lbaOut⟩
  rcases layout.chunk here sorted with ⟨entries, pad, range, perm⟩
  obtain rfl : state.zbd.blockSize = blockSize := before.blockSize
  rcases recoverWALChunk_spec storeChunk (fun _ _ _ => rfl) range perm
    (layout.items_growing sorted) before.answers with ⟨replies, run, answers⟩
  have positive := total_pos windowFilled
  have stop : state.file.loadedWalChunks.stop + (items.map fun entry => entry.payload.length).sum =
      offsetOf (payloads ordered) (entriesBefore ordered (chunk + 1)) := by
    rw [before.stop, offsetOf_chunk sorted]
  refine ⟨items, ⟨{ state.zbd with replies := replies },
    advanceChunk state.file.loadedWalChunks.walEntries.length (storeChunk items state.file),
    state.buffer⟩, ?_, ?_, filled, ⟨rfl, rfl, rfl, rfl, rfl⟩⟩
  · rw [loadChunks, bind_read]
    simp only [before.chunkId, lbaIn, lbaOut]
    rw [if_neg (by omega), bind_of_ok run,
      bind_setFile, bind_read, if_neg]
    · rfl
    · have reached : ¬ state.file.loadedWalChunks.stop +
          (items.map fun entry => entry.payload.length).sum < offset := by omega
      simp [advanceChunk, storeChunk, reached]
  · refine ⟨⟨before.opened, answers, rfl, ?_, stop, ?_⟩, sorted, rfl, before.passed⟩
    · exact congrArg (· + 1) before.chunkId
    · rw [entriesBefore_succ sorted, ← before.passed]
      rfl

theorem loadChunks_end (layout : Layout config env blockSize windows ordered) {state : FileState}
    (before : Before ordered blockSize ordered.length state) (fuel offset : Nat) :
    loadChunks config env (fuel + 1) offset state = (.ok (), state) := by
  have range := layout.range_end
  rw [loadChunks, bind_read]
  simp only [before.blockSize, before.chunkId, layout.length]
  rw [if_pos range]
  rfl

theorem ensureLog_opened {state : FileState} (opened : state.file.wal.isSome) :
    ensureLog state = (.ok (), state) := by
  rcases Option.isSome_iff_exists.mp opened with ⟨log, found⟩
  rw [ensureLog, bind_read]
  simp only [found]
  rfl

structure Fresh (ordered : List (List WalEntry)) (blockSize : Nat) (state opened : FileState) :
    Prop where
  run : ensureLog state = (.ok (), opened)
  empty : state.file.loadedWalChunks.walEntries = []
  whole : state.file.walEntries = []
  extents : state.file.extents ≠ []
  before : Before ordered blockSize 0 opened
  kept : Kept state opened
  blockSize : state.zbd.blockSize = blockSize

theorem Fresh.of_unread {state opened : FileState} (unread : state.file.Unread)
    (extents : state.file.extents ≠ []) (answers : Answers state.zbd)
    (run : ensureLog state = (.ok (), opened)) (ordered : List (List WalEntry)) :
    Fresh ordered state.zbd.blockSize state opened := by
  rcases unread with ⟨chunks, chunkId, whole, _, _⟩
  rcases ensureLog_spec run with ⟨isOpen, file, asks⟩
  refine ⟨run, by rw [chunks], whole, extents,
    ⟨isOpen, asks.answers answers, asks.blockSize, ?_, ?_, ?_⟩, ?_, rfl⟩
  · rw [file]
    exact chunkId
  · rw [file]
    simp [chunks, entriesBefore]
  · rw [file]
    simp [chunks, entriesBefore]
  · constructor <;> rw [file]

theorem standing_of_unread {state : FileState} {pieces : List Bytes}
    {parked : Nat → FileState → Prop} (unread : state.file.Unread) (sized : Sized pieces state)
    (extents : state.file.extents ≠ []) (ready : parked 0 state) :
    Standing pieces parked 0 state := by
  have some : 0 < pieces.length := by
    rw [← sized.length]
    exact List.length_pos_iff.mpr extents
  refine ⟨sized, by rw [unread.index]; exact ready, ?_⟩
  rw [unread.index, unread.within]
  exact ⟨_, List.getElem?_eq_getElem some, by simp, .inl (sized.positive _ (List.getElem_mem some))⟩

def ChunkReady (ordered : List (List WalEntry)) (blockSize index : Nat) (state : FileState) : Prop :=
  ∃ chunk items, Loaded ordered blockSize chunk items state ∧
    entriesBefore ordered chunk ≤ index ∧ index < entriesBefore ordered chunk + items.length

def ChunkParked (ordered : List (List WalEntry)) (blockSize index : Nat) (state : FileState) : Prop :=
  ChunkReady ordered blockSize index state ∨ index = 0 ∧ ∃ opened, Fresh ordered blockSize state opened

theorem Loaded.park {chunk : Nat} {items : List WalEntry} {state : FileState}
    (loaded : Loaded ordered blockSize chunk items state) (index within last : Nat) :
    Loaded ordered blockSize chunk items (setCursor index within last state) :=
  ⟨⟨loaded.next.opened, loaded.next.answers, loaded.next.blockSize, loaded.next.chunkId,
    loaded.next.stop, loaded.next.passed⟩, loaded.found, loaded.entries, loaded.jump⟩

theorem tryRecoverWAL_inside {chunk : Nat} {items : List WalEntry} {state : FileState}
    (loaded : Loaded ordered blockSize chunk items state) (filled : items ≠ []) {offset : Nat}
    (inside : offset < offsetOf (payloads ordered) (entriesBefore ordered (chunk + 1))) :
    tryRecoverWAL .walBarriers config env offset state = (.ok (), state) := by
  rw [tryRecoverWAL, bind_read]
  have held : (!state.file.loadedWalChunks.walEntries.isEmpty &&
      decide (offset < state.file.loadedWalChunks.stop)) = true := by
    rw [loaded.entries, loaded.next.stop]
    simp [filled, inside]
  simp only [held, if_true]
  rfl

theorem tryRecoverWAL_end {chunk : Nat} {items : List WalEntry} {state : FileState}
    (loaded : Loaded ordered blockSize chunk items state) :
    tryRecoverWAL .walBarriers config env
        (offsetOf (payloads ordered) (entriesBefore ordered (chunk + 1))) state =
      loadChunks config env (env.view.content.length + 1)
        (min (offsetOf (payloads ordered) (entriesBefore ordered (chunk + 1)))
          state.file.fileSize) state := by
  rw [tryRecoverWAL, bind_read]
  have missed : (!state.file.loadedWalChunks.walEntries.isEmpty &&
      decide (offsetOf (payloads ordered) (entriesBefore ordered (chunk + 1)) <
        state.file.loadedWalChunks.stop)) = false := by
    rw [loaded.next.stop]
    simp
  simp only [missed, Bool.false_eq_true, if_false]
  rw [bind_of_ok (ensureLog_opened loaded.next.opened)]

theorem Layout.positive (layout : Layout config env blockSize windows ordered) :
    ∀ piece ∈ payloads ordered, 0 < piece.length := by
  intro piece member
  rcases List.mem_map.mp member with ⟨entry, inside, rfl⟩
  rcases List.mem_map.mp ((perm_flatten_map layout.perm).subset inside) with ⟨stored, storedInside, rfl⟩
  exact (layout.fits stored storedInside).positive

theorem Layout.offsetOf_lt (layout : Layout config env blockSize windows ordered) {index : Nat}
    (inside : index < (payloads ordered).length) :
    offsetOf (payloads ordered) index < offsetOf (payloads ordered) (index + 1) := by
  rw [offsetOf_succ (List.getElem?_eq_getElem inside)]
  exact Nat.lt_add_of_pos_right (layout.positive _ (List.getElem_mem inside))

theorem entriesBefore_mono (ordered : List (List WalEntry)) {first second : Nat} (le : first ≤ second) :
    entriesBefore ordered first ≤ entriesBefore ordered second := by
  obtain ⟨more, rfl⟩ := Nat.exists_eq_add_of_le le
  rw [entriesBefore, entriesBefore, List.take_add, List.flatten_append, List.length_append]
  exact Nat.le_add_right _ _

theorem chunkReady_load (layout : Layout config env blockSize windows ordered) {chunk : Nat}
    (inside : chunk < ordered.length) {state : FileState}
    (before : Before ordered blockSize chunk state) (fuel : Nat) {offset : Nat}
    (near : offset ≤ offsetOf (payloads ordered) (entriesBefore ordered (chunk + 1))) :
    ∃ next, loadChunks config env (fuel + 1) offset state = (.ok (), next) ∧
      ChunkReady ordered blockSize (entriesBefore ordered chunk) next ∧ Kept state next := by
  rcases loadChunks_pass layout inside before fuel near with ⟨items, next, run, loaded, filled, kept⟩
  have positive := List.length_pos_iff.mpr filled
  exact ⟨next, run, ⟨chunk, items, loaded, Nat.le_refl _, by omega⟩, kept⟩

theorem chunkSource (layout : Layout config env blockSize windows ordered) :
    Source .walBarriers config env (payloads ordered) (ChunkParked ordered blockSize)
      (ChunkReady ordered blockSize) where
  entry := by
    rintro index state piece ⟨chunk, items, loaded, above, below⟩ found
    rw [getElem?_payloads loaded.found above below] at found
    rw [entryAt, loaded.jump, if_neg (by omega), loaded.entries]
    exact found
  start := by
    rintro index state position (⟨chunk, items, loaded, above, below⟩ | ⟨rfl, opened, fresh⟩) low high
    · have ahead := offsetOf_mono (payloads ordered)
        (show index + 1 ≤ entriesBefore ordered (chunk + 1) by
          rw [entriesBefore_succ loaded.found]; omega)
      exact ⟨state, tryRecoverWAL_inside loaded (by rintro rfl; simp at below; omega) (by omega),
        ⟨chunk, items, loaded, above, below⟩, .refl state⟩
    · have some : 0 < ordered.length := by
        by_contra none
        have empty : ordered = [] := List.eq_nil_of_length_eq_zero (by omega)
        simp [empty, payloads, offsetOf] at high
      have near : min position state.file.fileSize ≤
          offsetOf (payloads ordered) (entriesBefore ordered (0 + 1)) := by
        rcases layout.items some with ⟨window, items, _, found, _, filled⟩
        have positive := List.length_pos_iff.mpr filled
        have ahead := offsetOf_mono (payloads ordered)
          (show 0 + 1 ≤ entriesBefore ordered (0 + 1) by rw [entriesBefore_succ found]; omega)
        omega
      rcases chunkReady_load layout some fresh.before env.view.content.length near with
        ⟨next, run, ready, kept⟩
      refine ⟨next, ?_, ready, fresh.kept.trans kept⟩
      rw [tryRecoverWAL, bind_read]
      simp only [fresh.empty, List.isEmpty_nil, Bool.not_true, Bool.false_and, Bool.false_eq_true,
        if_false]
      rw [bind_of_ok fresh.run, run]
  move := by
    rintro index state ⟨chunk, items, loaded, above, below⟩ more
    have stop := entriesBefore_succ loaded.found
    by_cases inner : index + 1 < entriesBefore ordered (chunk + 1)
    · have ahead := layout.offsetOf_lt more
      have mono := offsetOf_mono (payloads ordered) (Nat.succ_le_of_lt inner)
      rw [Nat.succ_eq_add_one] at mono
      exact ⟨state, tryRecoverWAL_inside loaded (by rintro rfl; simp at below; omega) (by omega),
        ⟨chunk, items, loaded, by omega, by omega⟩, .refl state⟩
    · have atEnd : index + 1 = entriesBefore ordered (chunk + 1) := by omega
      have inside : chunk + 1 < ordered.length := by
        by_contra none
        have all := entriesBefore_mono ordered (Nat.le_of_not_lt none)
        rw [entriesBefore_length] at all
        omega
      have near : min (offsetOf (payloads ordered) (entriesBefore ordered (chunk + 1)))
          state.file.fileSize ≤
            offsetOf (payloads ordered) (entriesBefore ordered (chunk + 1 + 1)) :=
        Nat.le_trans (Nat.min_le_left _ _)
          (offsetOf_mono _ (entriesBefore_mono _ (Nat.le_succ _)))
      rcases chunkReady_load layout inside loaded.next env.view.content.length near with
        ⟨next, run, ready, kept⟩
      rw [atEnd]
      exact ⟨next, by rw [tryRecoverWAL_end loaded, run], ready, kept⟩
  finish := by
    rintro index state ⟨chunk, items, loaded, above, below⟩ last
    have stop := entriesBefore_succ loaded.found
    have bound := (List.getElem?_eq_some_iff.mp loaded.found).1
    have final : chunk + 1 = ordered.length := by
      by_contra other
      rcases layout.items (show chunk + 1 < ordered.length by omega) with
        ⟨window, following, _, found, _, filled⟩
      have positive := List.length_pos_iff.mpr filled
      have further := entriesBefore_succ found
      have all := entriesBefore_mono ordered
        (show chunk + 1 + 1 ≤ ordered.length by omega)
      rw [entriesBefore_length] at all
      omega
    have atEnd : index + 1 = entriesBefore ordered (chunk + 1) := by
      rw [final, entriesBefore_length, last]
    refine ⟨state, ?_, ⟨chunk, items, loaded, above, below⟩, .refl state⟩
    rw [atEnd, tryRecoverWAL_end loaded]
    exact loadChunks_end layout (final ▸ loaded.next) _ _
  park := by
    rintro index state newIndex within last ⟨chunk, items, loaded, above, below⟩
    exact .inl ⟨chunk, items, loaded.park newIndex within last, above, below⟩

/-! ## The whole-log reader -/

theorem Layout.wholeChunk (layout : Layout config env blockSize windows ordered)
    (bare : ∀ entry ∈ windows.flatten, entry.pad = 0) :
    Chunk env blockSize (env.view.tail blockSize) (env.view.head blockSize) windows.flatten 0 := by
  have positive : 0 < lbaSize blockSize := by
    rw [lbaSize]
    split <;> simp
  have range : env.view.read blockSize (env.view.tail blockSize)
      (env.view.head blockSize - env.view.tail blockSize) = env.view.content := by
    rw [LogView.read, LogView.head, Nat.add_sub_cancel_left, LogView.tail,
      Nat.mul_div_cancel _ positive, Nat.sub_self, List.drop_zero, List.take_length]
  refine ⟨?_, fun entry member => ⟨layout.fits entry member, bare entry member, .inl (by simp)⟩,
    .inl rfl, ?_⟩
  · rw [range, layout.content]
    simp
  · rw [range, LogView.head, Nat.add_sub_cancel_left]

def WholeReady (ordered : List (List WalEntry)) (_ : Nat) (state : FileState) : Prop :=
  state.file.walEntries = ordered.flatten ∧ ordered.flatten ≠ []

def WholeParked (ordered : List (List WalEntry)) (blockSize index : Nat) (state : FileState) : Prop :=
  WholeReady ordered index state ∨ ∃ opened, Fresh ordered blockSize state opened

theorem tryRecoverWAL_whole {index : Nat} {state : FileState} (ready : WholeReady ordered index state)
    (offset : Nat) : tryRecoverWAL .wholeLog config env offset state = (.ok (), state) := by
  rw [tryRecoverWAL, bind_read]
  simp only [ready.1]
  rw [if_neg (by simpa using ready.2)]
  rfl

theorem wholeSource (layout : Layout config env blockSize windows ordered)
    (bare : ∀ entry ∈ windows.flatten, entry.pad = 0) :
    Source .wholeLog config env (payloads ordered) (WholeParked ordered blockSize)
      (WholeReady ordered) where
  entry := by
    rintro index state piece ready found
    rw [entryAt, ready.1, ← List.getElem?_map]
    exact found
  start := by
    rintro index state position (ready | ⟨opened, fresh⟩) low high
    · exact ⟨state, tryRecoverWAL_whole ready _, ready, .refl state⟩
    · have range := layout.wholeChunk bare
      rw [← fresh.before.blockSize] at range
      rcases recoverWALChunk_spec (fun entries file => { file with walEntries := entries })
        (fun _ _ _ => rfl) range (perm_flatten_map layout.perm) layout.growing fresh.before.answers with
        ⟨replies, run, _⟩
      refine ⟨⟨{ opened.zbd with replies := replies },
        { opened.file with walEntries := ordered.flatten }, opened.buffer⟩, ?_, ⟨rfl, ?_⟩,
        fresh.kept.trans ⟨rfl, rfl, rfl, rfl, rfl⟩⟩
      · rw [tryRecoverWAL, bind_read]
        simp only [fresh.whole, List.isEmpty_nil, if_true]
        rw [recoverEntireWAL, bind_read,
          if_neg (by simpa using fresh.extents), bind_of_ok fresh.run]
        simp only [fresh.blockSize, ← fresh.before.blockSize]
        exact run
      · intro empty
        simp [payloads, empty, offsetOf] at high
  move := fun {index state} ready _ =>
    ⟨state, tryRecoverWAL_whole ready _, ready, .refl state⟩
  finish := fun {index state} ready _ =>
    ⟨state, tryRecoverWAL_whole ready _, ready, .refl state⟩
  park := fun _ _ _ ready => .inl ready

end Windows

end Zwal.WalSources
