import Zwal.Contracts.WalSources

/-! # The chunked reader agrees with the whole-log reader

Loading one barrier window at a time gives the same entries as loading and sorting
the whole log, provided that no entry crosses a window and the sequence numbers
grow from window to window. -/

namespace Zwal.ChunkedReader

open FileState Pieces SequentialRead WalSources

/-- A closed write-ahead log before its first read. Its entries, in the order the log
has them, fill whole blocks and cross no barrier window; the numbers of one
window are below those of the next; the extents have the lengths of the payloads
in the order of the sequence numbers. -/
structure ClosedWal (config : BuildConfig) (env : ReaderEnv) (log : List StoredEntry)
    (ordered : List WalEntry) (state : FileState) : Prop where
  isLog : state.file.hasLogName = true
  content : env.view.content = log.flatMap StoredEntry.bytes
  blocks : ∀ entry ∈ log, entry.pad = 0 ∧ sparseBlockSize ∣ entry.size
  header : ∀ entry ∈ log, entry.seq < 2 ^ 64 ∧ entry.payload.length < 2 ^ 64
  inside : ∀ before entry after, log = before ++ entry :: after →
    Journal.total StoredEntry.size before % config.walBarrierSize + entry.size ≤
      config.walBarrierSize
  windows : ∀ before first between second after,
    log = before ++ first :: between ++ second :: after →
    Journal.total StoredEntry.size before / config.walBarrierSize <
      Journal.total StoredEntry.size (before ++ first :: between) / config.walBarrierSize →
    first.seq < second.seq
  perm : ordered.Perm (log.map StoredEntry.toWalEntry)
  sorted : ordered.Pairwise fun first second => first.seq < second.seq
  extents : state.file.extents.map ZoneExtent.length =
    ordered.map fun entry => entry.payload.length
  fileSize : state.file.fileSize = (state.file.extents.map ZoneExtent.length).sum
  unread : state.file.Unread
  answers : Answers state.zbd

section

variable {config : BuildConfig} {env : ReaderEnv} {log : List StoredEntry}
  {ordered : List WalEntry} {state : FileState}

theorem ClosedWal.positive (closed : ClosedWal config env log ordered state) {entry : StoredEntry}
    (member : entry ∈ log) : 0 < entry.payload.length := by
  rcases closed.blocks entry member with ⟨bare, blocks⟩
  rw [StoredEntry.size, bare, sparseBlockSize] at blocks
  omega

theorem ClosedWal.layout (closed : ClosedWal config env log ordered state) (blockSize : Nat) :
    ∃ windows parts, Layout config env blockSize windows parts ∧ windows.flatten = log ∧
      parts.flatten = ordered := by
  have positive : ∀ entry ∈ log, 0 < entry.size := fun entry _ => by
    rw [StoredEntry.size]
    omega
  rcases Journal.exists_windows positive closed.inside with ⟨windows, rfl, cut, nonempty⟩
  have apart := cut.pairwise positive closed.windows
  have distinct : (windows.flatten.map fun entry => entry.seq).Nodup := by
    have ordered : (ordered.map WalEntry.seq).Nodup :=
      List.pairwise_map.mpr (closed.sorted.imp fun less => Nat.ne_of_lt less)
    simpa [Function.comp_def] using (closed.perm.map WalEntry.seq).nodup_iff.mp ordered
  let parts := windows.map fun window => env.sort.run (window.map StoredEntry.toWalEntry)
  have perm : List.Forall₂ (fun items window => items.Perm (window.map StoredEntry.toWalEntry))
      parts windows :=
    List.forall₂_map_left_iff.mpr (List.forall₂_same.mpr fun window _ => env.sort.perm _)
  have growing : parts.flatten.Pairwise fun first second => first.seq < second.seq := by
    refine List.pairwise_flatten.mpr ⟨?_, ?_⟩
    · intro part member
      rcases List.mem_map.mp member with ⟨window, inside, rfl⟩
      refine env.sort.strict ?_
      simpa [Function.comp_def] using
        distinct.sublist ((List.sublist_flatten_of_mem inside).map fun entry => entry.seq)
    · refine List.pairwise_map.mpr (apart.imp fun less first inFirst second inSecond => ?_)
      rcases List.mem_map.mp ((env.sort.perm _).subset inFirst) with ⟨stored, here, rfl⟩
      rcases List.mem_map.mp ((env.sort.perm _).subset inSecond) with ⟨stored', there, rfl⟩
      exact less stored here stored' there
  have same : parts.flatten = ordered := by
    rw [← env.sort.run_eq (perm_flatten_map perm) growing, env.sort.run_eq closed.perm closed.sorted]
  have aligned : 1 < windows.length → lbaSize blockSize ∣ config.walBarrierSize := by
    intro several
    have blocks : sparseBlockSize ∣ Journal.total StoredEntry.size (windows.take 1).flatten := by
      refine Journal.dvd_total _ fun entry inside => ?_
      rcases List.mem_flatten.mp inside with ⟨window, taken, member⟩
      exact (closed.blocks entry (List.mem_flatten.mpr ⟨_, List.mem_of_mem_take taken, member⟩)).2
    rw [cut.total_take several, Nat.one_mul] at blocks
    refine Nat.dvd_trans ?_ blocks
    rw [lbaSize]
    split <;> decide
  exact ⟨windows, parts, ⟨closed.content, cut, nonempty,
    fun entry member => ⟨(closed.header entry member).1, closed.positive member,
      (closed.header entry member).2⟩,
    fun window inside entry member => (closed.blocks entry
      (List.mem_flatten.mpr ⟨window, inside, (List.dropLast_sublist _).subset member⟩)).1,
    fun window inside entry member =>
      .inl (closed.blocks entry (List.mem_flatten.mpr ⟨window, inside, member⟩)).1,
    aligned, perm, growing⟩, rfl, same⟩

theorem ClosedWal.sized (closed : ClosedWal config env log ordered state) :
    Sized (ordered.map WalEntry.payload) state := by
  have extents : state.file.extents.map ZoneExtent.length =
      (ordered.map WalEntry.payload).map List.length := by
    rw [closed.extents, List.map_map]
    rfl
  refine ⟨extents, by rw [closed.fileSize, extents, List.length_flatten], fun piece member => ?_⟩
  rcases List.mem_map.mp member with ⟨entry, inside, rfl⟩
  rcases List.mem_map.mp (closed.perm.subset inside) with ⟨stored, storedInside, rfl⟩
  exact closed.positive storedInside

theorem ClosedWal.fileSize_pos (closed : ClosedWal config env log ordered state)
    (extents : state.file.extents ≠ []) : 0 < state.file.fileSize := by
  have sized := closed.sized
  have some : 0 < (ordered.map WalEntry.payload).length := by
    rw [← sized.length]
    exact List.length_pos_iff.mpr extents
  have found := List.getElem?_eq_getElem some
  have positive := sized.positive _ (List.getElem_mem some)
  have whole := offsetOf_mono (ordered.map WalEntry.payload) (Nat.succ_le_of_lt some)
  rw [Nat.succ_eq_add_one, offsetOf_succ found, offsetOf_length] at whole
  rw [sized.fileSize]
  omega

theorem readConsecutive_unopened (closed : ClosedWal config env log ordered state)
    (extents : state.file.extents ≠ []) {failure : IOStatus} {stopped : FileState} (run : ensureLog state = (.error failure, stopped))
    (build : ReaderBuild) (n : Nat) (sizes : List Nat) :
    readConsecutive build config env false (n :: sizes) 0 state = (.error failure, stopped) := by
  rcases closed.unread with ⟨chunks, _, whole, _, _⟩
  have filled := closed.fileSize_pos extents
  have recover : tryRecoverWAL build config env 0 state = (.error failure, stopped) := by
    rw [tryRecoverWAL, bind_read]
    cases build with
    | walBarriers =>
        simp only [chunks, List.isEmpty_nil, Bool.not_true, Bool.false_and, Bool.false_eq_true,
          if_false]
        rw [bind_of_error run]
    | wholeLog =>
        simp only [whole, List.isEmpty_nil, if_true]
        rw [recoverEntireWAL, bind_read, if_neg (by simpa using extents), bind_of_error run]
  have read : positionedRead build config env 0 n false state = (.error failure, stopped) := by
    rw [positionedRead, bind_read,
      ZoneFile.named_of_hasLogName closed.isLog, if_neg Bool.false_ne_true, if_neg (by omega),
      if_pos closed.isLog, walRead, bind_of_error recover]
  rw [readConsecutive, bind_of_error read]

theorem readConsecutive_opened (closed : ClosedWal config env log ordered state)
    (extents : state.file.extents ≠ []) {opened : FileState}
    (run : ensureLog state = (.ok (), opened)) (build : ReaderBuild) (sizes : List Nat) :
    (readConsecutive build config env false sizes 0 state).1 =
      .ok (slices (ordered.map WalEntry.payload).flatten sizes 0) := by
  rcases closed.layout state.zbd.blockSize with ⟨windows, parts, layout, rfl, rfl⟩
  have fresh := Fresh.of_unread closed.unread extents closed.answers run parts
  have sized : Sized (payloads parts) state := closed.sized
  cases build with
  | walBarriers =>
      have standing : Standing (payloads parts) (ChunkParked parts state.zbd.blockSize) 0 state :=
        standing_of_unread closed.unread sized extents (.inr ⟨rfl, opened, fresh⟩)
      rcases readConsecutive_spec (chunkSource layout) sizes standing closed.isLog with ⟨_, read⟩
      rw [read]
      rfl
  | wholeLog =>
      have standing : Standing (payloads parts) (WholeParked parts state.zbd.blockSize) 0 state :=
        standing_of_unread closed.unread sized extents (.inr ⟨opened, fresh⟩)
      have bare : ∀ entry ∈ windows.flatten, entry.pad = 0 := fun entry member =>
        (closed.blocks entry member).1
      rcases readConsecutive_spec (wholeSource layout bare) sizes standing closed.isLog with ⟨_, read⟩
      rw [read]
      rfl

/-- The build that loads one barrier window at a time and the build that loads the whole
log return the same for every sequence of consecutive reads. Where the log is open
that is the concatenation of the payloads, cut as asked for. -/
theorem chunked_eq_whole (closed : ClosedWal config env log ordered state) (sizes : List Nat) :
    (readConsecutive .walBarriers config env false sizes 0 state).1 =
        (readConsecutive .wholeLog config env false sizes 0 state).1 ∧
      (state.file.wal.isSome → (readConsecutive .walBarriers config env false sizes 0 state).1 =
        .ok (slices (ordered.map WalEntry.payload).flatten sizes 0)) := by
  by_cases extents : state.file.extents = []
  · have empty : state.file.fileSize = ([] : Bytes).length := by
      rw [closed.fileSize, extents]
      rfl
    have none : ordered = [] := by simpa [extents] using closed.extents.symm
    have named := ZoneFile.named_of_hasLogName closed.isLog
    rw [none, readConsecutive_past false sizes named empty (Nat.le_refl 0),
      readConsecutive_past false sizes named empty (Nat.le_refl 0)]
    exact ⟨rfl, fun _ => rfl⟩
  · rcases run : ensureLog state with ⟨failure | _, opened⟩
    · have closedLog : state.file.wal.isSome = true → False := by
        intro isOpen
        rw [ensureLog_opened isOpen] at run
        cases run
      refine ⟨?_, fun isOpen => (closedLog isOpen).elim⟩
      cases sizes with
      | nil => rfl
      | cons n sizes =>
          rw [readConsecutive_unopened closed extents run, readConsecutive_unopened closed extents run]
    · rw [readConsecutive_opened closed extents run, readConsecutive_opened closed extents run]
      exact ⟨rfl, fun _ => rfl⟩

end

def blockEntry (seq : Nat) (byte : UInt8) : StoredEntry := ⟨⟨seq, List.replicate 4080 byte⟩, 0⟩

@[simp] theorem blockEntry_seq (seq : Nat) (byte : UInt8) : (blockEntry seq byte).seq = seq := rfl

@[simp] theorem blockEntry_pad (seq : Nat) (byte : UInt8) : (blockEntry seq byte).pad = 0 := rfl

@[simp] theorem blockEntry_length (seq : Nat) (byte : UInt8) :
    (blockEntry seq byte).payload.length = 4080 := List.length_replicate

@[simp] theorem blockEntry_size (seq : Nat) (byte : UInt8) : (blockEntry seq byte).size = 4096 := by
  rw [StoredEntry.size, blockEntry_length, blockEntry_pad]

def smallLog : List StoredEntry := [blockEntry 1 7, blockEntry 0 8, blockEntry 2 9]

def smallOrder : List WalEntry :=
  [(blockEntry 0 8).toWalEntry, (blockEntry 1 7).toWalEntry, (blockEntry 2 9).toWalEntry]

def smallReader : ReaderEnv where
  view := ⟨0, smallLog.flatMap StoredEntry.bytes⟩
  sort := .mergeSort WalEntry.seq
  slack _ := 0
  device _ := 0

def smallFile : FileState :=
  ⟨smallDevice 12288,
    { extents := [⟨49168, 4080, 4⟩, ⟨53264, 4080, 4⟩, ⟨57360, 4080, 4⟩], linkfiles := ["1.log"]
      wal := some 4, fileSize := 12240 }, []⟩

theorem smallLog_split {before after : List StoredEntry} {entry : StoredEntry}
    (split : smallLog = before ++ entry :: after) :
    (before = [] ∧ entry = blockEntry 1 7 ∧ after = [blockEntry 0 8, blockEntry 2 9]) ∨
      (before = [blockEntry 1 7] ∧ entry = blockEntry 0 8 ∧ after = [blockEntry 2 9]) ∨
      (before = [blockEntry 1 7, blockEntry 0 8] ∧ entry = blockEntry 2 9 ∧ after = []) := by
  rcases before with _ | ⟨one, _ | ⟨two, _ | ⟨three, before⟩⟩⟩
  all_goals
    simp only [smallLog, List.nil_append, List.cons_append, List.cons.injEq] at split
  · exact .inl ⟨rfl, split.1.symm, split.2.symm⟩
  · exact .inr (.inl ⟨by rw [split.1], split.2.1.symm, split.2.2.symm⟩)
  · exact .inr (.inr ⟨by rw [split.1, split.2.1], split.2.2.1.symm, split.2.2.2.symm⟩)
  · simp at split

theorem smallFile_closed : ClosedWal smallConfig smallReader smallLog smallOrder smallFile where
  isLog := by decide
  content := rfl
  blocks := by simp [smallLog, sparseBlockSize]
  header := by simp [smallLog]
  inside := by
    intro before entry after split
    rcases smallLog_split split with
      ⟨rfl, rfl, rfl⟩ | ⟨rfl, rfl, rfl⟩ | ⟨rfl, rfl, rfl⟩
    all_goals simp [smallConfig, BuildConfig.walBarrierSize, kiB]
  windows := by
    intro before first between second after split apart
    rcases smallLog_split split with ⟨same, rfl, rfl⟩ | ⟨same, rfl, rfl⟩ | ⟨same, rfl, rfl⟩
    · simp at same
    · rw [same] at apart
      simp [smallConfig, BuildConfig.walBarrierSize, kiB] at apart
    · have member : first ∈ before ++ first :: between := by simp
      rw [same] at member
      rcases List.mem_pair.mp member with rfl | rfl <;> simp
  perm := .swap _ _ _
  sorted := by simp [smallOrder]
  extents := by simp [smallFile, smallOrder]
  fileSize := rfl
  unread := ⟨rfl, rfl, rfl, rfl, rfl⟩
  answers := by simp [Answers, smallFile, smallDevice]

theorem chunked_eq_whole_small :
    (readConsecutive .wholeLog smallConfig smallReader false [100, 9000, 5000] 0 smallFile).1 =
      .ok (slices (smallOrder.map WalEntry.payload).flatten [100, 9000, 5000] 0) := by
  have agree := chunked_eq_whole smallFile_closed [100, 9000, 5000]
  rw [← agree.1, agree.2 rfl]

end Zwal.ChunkedReader
