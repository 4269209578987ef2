import Zwal.Contracts.BarrierWindows
import Zwal.Contracts.WalSources
import Zwal.File.Writer
import Zwal.Foundation.Isolation

/-! # What was written to a write-ahead log is read back

A writer appends and syncs, closes the file, and the payloads are read back from the
once-log in whatever order the device placed the entries. -/

namespace Zwal.WalRoundTrip

open FileState WritableFile SequentialRead WalSources BarrierWindows

structure NewWal (file : ZoneFile) : Prop where
  isWal : file.isWal = true
  isSparse : file.isSparse = true
  isLog : file.hasLogName = true
  wal : file.wal = none
  activeZone : file.activeZone = none
  extents : file.extents = []
  fileSize : file.fileSize = 0
  walSeq : file.walSeq = 0
  appendBytes : file.appendBytesSinceLastBarrier = 0
  unread : file.Unread

structure Untouched (zbd : ZonedBlockDevice) : Prop where
  trace : zbd.trace = []
  zones : ∀ number, sparseBlockSize ∣ (zbd.zone number).capacity ∧
    sparseBlockSize ∣ (zbd.zone number).maxCapacity

/-- Calls on a fresh writer, ended by `Close`. -/
def session (config : BuildConfig) (fuel : Nat) (calls : List WriterCall) : WritableProgram Unit := do
  runCalls config fuel calls
  close config fuel

/-- A session of calls that all return, with syncs that complete what was appended, can
be read back: wherever the device placed the entries in flight together,
consecutive reads return consecutive parts of the payloads. -/
def ReadsBack (config : BuildConfig) (fuel : Nat) (zbd : ZonedBlockDevice) (file : ZoneFile)
    (calls : List WriterCall) : Prop :=
  ∀ final, session config fuel calls (create config zbd file true) = (.ok (), final) →
    (∀ log, .walSyncFailed log ∉ final.state.zbd.trace) →
    ∀ (env : ReaderEnv) (order : List AppendCall),
      (∀ log, final.state.file.wal = some log →
        Journal.Placement (journal log final.state.zbd.trace) order) →
      env.view.content = order.flatMap AppendCall.data →
      Answers final.state.zbd →
      ∀ sizes, (readConsecutive .walBarriers config env false sizes 0 final.state).1 =
        .ok (slices (calls.flatMap WriterCall.data) sizes 0)

/-- The end of a flush that leaves a part of its last block empty. -/
def Ragged (call : AppendCall) : Prop :=
  call.left + 16 < call.capacity ∧ ¬ sparseBlockSize ∣ call.left + 16

instance : DecidablePred Ragged := fun call =>
  inferInstanceAs (Decidable (call.left + 16 < call.capacity ∧ ¬ sparseBlockSize ∣ call.left + 16))

/-- What the passes of `SparseAppend` find when the log they leave can be read back: the
window has room for the pass, the file stays in the zones of its first once-log,
the pass after one that leaves a part of its block empty starts a window, and
such a part has room for a length. -/
structure Plain (config : BuildConfig) (trace : List IoEvent) : Prop where
  whole : ∀ call ∈ appendCalls trace, call.Whole config
  single : ∃ log, ∀ opened ∈ openedLogs trace, opened = log
  apart : (appendCalls trace).IsChain fun first second => ¬ Ragged first ∨ second.appendBytes = 0
  marked : ∀ call ∈ appendCalls trace, Ragged call → (call.left + 16) % sparseBlockSize ≤ 4088
  numbered : (appendCalls trace).length ≤ 2 ^ 64

theorem Plain.smooth {config : BuildConfig} {trace : List IoEvent} (plain : Plain config trace)
    (synced : ∀ log, .walSyncFailed log ∉ trace) : Smooth config trace :=
  ⟨plain.whole, synced⟩

/-! ## The session -/

section Session

variable {config : BuildConfig} {fuel : Nat} {zbd : ZonedBlockDevice} {file : ZoneFile}
  {calls : List WriterCall} {final : WritableFile}

theorem sparseBlockSize_dvd_walBarrierSize (blocks : Blocks config) :
    sparseBlockSize ∣ config.walBarrierSize :=
  Nat.dvd_trans blocks.blocks (Nat.mul_dvd_mul_right (Nat.dvd_of_mod_eq_zero config.divides) _)

theorem create_writing (untouched : Untouched zbd) (new : NewWal file) :
    Writing config [] (create config zbd file true) := by
  have header : file.headerSize = 16 := by
    simp [ZoneFile.headerSize, new.isWal, sparseHeaderSize, sparseWalHeaderSize]
  have calls : appendCalls zbd.trace = [] := by rw [untouched.trace]; rfl
  have streamed : Streamed config [] (create config zbd file true).state := by
    refine ⟨new.isWal, new.isSparse, new.isLog, new.unread, untouched.zones, ?_, ?_, ?_, ?_, ?_, ?_, ?_,
      ?_⟩
    · simp [create, new.isSparse]
    · simp [create, calls]
    · simp [create, calls]
    · simp [create, calls]
    · simp [create, calls, new.extents]
    · simp [create, calls, new.fileSize]
    · simp [create, calls, new.walSeq]
    · intro before call after split
      simp [create, untouched.trace] at split
  refine ⟨rfl, rfl, by simp [create, new.isSparse, header], ?_, Nat.zero_le _,
    ⟨[], streamed, by simp [create]⟩, ?_, ?_, ?_⟩
  · simp only [create, new.isSparse, header, if_true]
    omega
  · simp [Flying, create, untouched.trace]
  · simp [create, untouched.trace]
  · simp [create, new.activeZone]

theorem session_moves : (session config fuel calls).Respects (Moves config) :=
  (runCalls_moves calls).bind fun _ => close_moves

theorem session_windowed (blocks : Blocks config) (untouched : Untouched zbd) (new : NewWal file)
    (run : session config fuel calls (create config zbd file true) = (.ok (), final)) :
    Windowed config final.state := by
  have fresh : FreshWal (create config zbd file true).state :=
    ⟨new.isWal, new.wal, new.appendBytes, untouched.trace, untouched.zones⟩
  have moves : Moves config (create config zbd file true)
      (session config fuel calls (create config zbd file true)).2 := session_moves _
  rw [run] at moves
  exact (moves ⟨new.isWal, new.isSparse, rfl⟩).1.keep
    (Windowed.step (sparseBlockSize_dvd_walBarrierSize blocks)) fresh.windowed

theorem session_streamed (blocks : Blocks config) (untouched : Untouched zbd) (new : NewWal file)
    (small : ∀ call ∈ calls, call.data.length < 2 ^ 32)
    (run : session config fuel calls (create config zbd file true) = (.ok (), final))
    (smooth : Smooth config final.state.zbd.trace) :
    Streamed config (calls.flatMap WriterCall.data) final.state := by
  have start : Writing config [] (create config zbd file true) := create_writing untouched new
  rcases bind_eq_ok run with ⟨_, middle, ran, closed⟩
  have ranMoves : Moves config (create config zbd file true)
      (runCalls config fuel calls (create config zbd file true)).2 := runCalls_moves calls _
  have closeMoves : Moves config middle (close config fuel middle).2 := close_moves middle
  rw [ran] at ranMoves
  rw [closed] at closeMoves
  rcases Writing.runCalls blocks calls start small ran
    (ranMoves.smooth_between closeMoves start smooth) with ⟨written, _⟩
  exact (written.close blocks closed smooth).1

end Session

/-! ## The log it leaves -/

section Log

variable {config : BuildConfig} {stream : Bytes} {state : FileState}

theorem pad_of_not_ragged {call : AppendCall} (cut : call.Cut) (even : ¬ Ragged call) :
    call.pad = 0 := by
  rcases cut with ⟨pad, _, zone⟩
  have cases := padSize_eq sparseBlockSize (min (call.left + 16) call.capacity)
  rw [Ragged] at even
  simp only [sparseBlockSize] at *
  omega

theorem pad_of_ragged {call : AppendCall} (cut : call.Cut) (ragged : Ragged call) :
    call.pad = sparseBlockSize - (call.left + 16) % sparseBlockSize := by
  rcases cut with ⟨pad, _, zone⟩
  rcases ragged with ⟨room, uneven⟩
  have cases := padSize_eq sparseBlockSize (min (call.left + 16) call.capacity)
  simp only [sparseBlockSize] at *
  omega

theorem total_entries {calls : List AppendCall} (sealed : ∀ call ∈ calls, call.Sealed) :
    Journal.total StoredEntry.size (calls.map AppendCall.entry) =
      Journal.total AppendCall.size calls := by
  rw [Journal.total, Journal.total, List.map_map]
  exact congrArg List.sum (List.map_congr_left fun call member => ((sealed call member).size).symm)

theorem windows_entries {window : Nat} {parts : List (List AppendCall)}
    (windows : Journal.Windows AppendCall.size window parts)
    (sealed : ∀ part ∈ parts, ∀ call ∈ part, call.Sealed) :
    Journal.Windows StoredEntry.size window (parts.map (List.map AppendCall.entry)) := by
  refine ⟨fun part member => ?_, fun part member => ?_⟩
  · rw [← List.map_dropLast] at member
    rcases List.mem_map.mp member with ⟨calls, inside, rfl⟩
    rw [total_entries (sealed calls ((List.dropLast_sublist _).subset inside))]
    exact windows.full calls inside
  · rcases List.mem_map.mp member with ⟨calls, inside, rfl⟩
    rw [total_entries (sealed calls inside)]
    exact windows.fits calls inside

theorem entry_fits (windowed : Windowed config state) (streamed : Streamed config stream state)
    (numbered : (appendCalls state.zbd.trace).length ≤ 2 ^ 64) {call : AppendCall}
    (member : call ∈ appendCalls state.zbd.trace) : call.entry.Fits := by
  have sealed := (streamed.entries call member).1
  have pending := windowed.framed.pending call member
  have positive := sealed.positive
  have small := sealed.small
  have length : call.entry.payload.length = call.length := sealed.length
  refine ⟨?_, by omega, by omega⟩
  rw [streamed.counted] at pending
  exact Nat.lt_of_lt_of_le pending numbered

theorem lbaSize_dvd_walBarrierSize (blocks : Blocks config) (blockSize : Nat) :
    lbaSize blockSize ∣ config.walBarrierSize := by
  refine Nat.dvd_trans ?_ (sparseBlockSize_dvd_walBarrierSize blocks)
  rw [lbaSize]
  split <;> decide

theorem exists_layout (blocks : Blocks config) (windowed : Windowed config state)
    (streamed : Streamed config stream state) (plain : Plain config state.zbd.trace) {log : Nat}
    (single : ∀ opened ∈ openedLogs state.zbd.trace, opened = log) {order : List AppendCall}
    (placement : Journal.Placement (journal log state.zbd.trace) order) {env : ReaderEnv}
    (content : env.view.content = order.flatMap AppendCall.data) (blockSize : Nat) :
    ∃ windows ordered, Layout config env blockSize windows ordered ∧
      payloads ordered = (appendCalls state.zbd.trace).map AppendCall.payload := by
  have barriered := windowed.framed.barriered log single
  have allRecords := windowed.framed.records_journal_eq single
  have sealed : ∀ call ∈ appendCalls state.zbd.trace, call.Sealed := fun call member =>
    (streamed.entries call member).1
  have wide : 0 < config.walBarrierSize := Nat.mul_pos config.barrierPositive (by decide)
  have positive : ∀ call ∈ Journal.records (journal log state.zbd.trace), 0 < call.size := by
    intro call member
    rw [allRecords] at member
    rw [(sealed call member).size, StoredEntry.size]
    omega
  have alone : ∀ early call late,
      journal log state.zbd.trace = early ++ .append call :: late → Ragged call →
      Journal.pending early = [] := by
    intro early call late split ragged
    rcases journal_split split with ⟨before, after, trace, rfl⟩
    have member : call ∈ appendCalls state.zbd.trace := by simp [trace, appendCalls]
    have padded : 0 < call.pad := by
      rw [pad_of_ragged (streamed.entries call member).2 ragged, sparseBlockSize]
      omega
    rw [pending_journal, streamed.alone before call after trace padded, List.filter_nil]
  rcases barriered.placed_isolated wide positive alone
      (fun _ _ _ _ _ => barriered.last_of_isChain positive (allRecords ▸ plain.apart)) placement with
    ⟨issued, landed, issue, rfl, moved, windows, nonempty, even⟩
  rw [allRecords] at issue
  have appended : ∀ part ∈ landed, ∀ call ∈ part, call ∈ appendCalls state.zbd.trace := by
    intro part member call inside
    rcases Journal.forall₂_mem_left moved member with ⟨origin, there, perm⟩
    rw [issue]
    exact List.mem_flatten.mpr ⟨origin, there, perm.subset inside⟩
  refine ⟨landed.map (List.map AppendCall.entry),
    issued.map (List.map fun call => call.entry.toWalEntry), ⟨?_, ?_, ?_, ?_, ?_, ?_, ?_, ?_, ?_⟩, ?_⟩
  · rw [content, ← List.map_flatten, List.flatMap_map]
    refine List.flatMap_congr fun call member => ?_
    rcases List.mem_flatten.mp member with ⟨part, inside, member⟩
    exact (sealed call (appended part inside call member)).data
  · exact windows_entries (windows.perm moved) fun part inside call member =>
      sealed call (appended part inside call member)
  · intro window member
    rcases List.mem_map.mp member with ⟨part, inside, rfl⟩
    rcases Journal.forall₂_mem_left moved inside with ⟨origin, there, perm⟩
    rintro none
    rw [List.map_eq_nil_iff.mp none] at perm
    exact nonempty origin there perm.symm.eq_nil
  · intro entry member
    rw [← List.map_flatten] at member
    rcases List.mem_map.mp member with ⟨call, inside, rfl⟩
    rcases List.mem_flatten.mp inside with ⟨part, there, member⟩
    exact entry_fits windowed streamed plain.numbered (appended part there call member)
  · intro window member entry inside
    rcases List.mem_map.mp member with ⟨part, there, rfl⟩
    rw [← List.map_dropLast] at inside
    rcases List.mem_map.mp inside with ⟨call, early, rfl⟩
    exact pad_of_not_ragged
      (streamed.entries call (appended part there call ((List.dropLast_sublist _).subset early))).2
      (even part there call early)
  · intro window member entry inside
    rcases List.mem_map.mp member with ⟨part, there, rfl⟩
    rcases List.mem_map.mp inside with ⟨call, here, rfl⟩
    have cut := (streamed.entries call (appended part there call here)).2
    by_cases ragged : Ragged call
    · have marked := plain.marked call (appended part there call here) ragged
      have pad : call.entry.pad = _ := pad_of_ragged cut ragged
      rw [sparseBlockSize] at pad marked
      omega
    · exact .inl (pad_of_not_ragged cut ragged)
  · exact fun _ => lbaSize_dvd_walBarrierSize blocks blockSize
  · refine List.forall₂_map_left_iff.mpr (List.forall₂_map_right_iff.mpr (moved.flip.imp ?_))
    intro origin part perm
    rw [List.map_map]
    exact (perm.map _).symm
  · rw [← List.map_flatten, ← issue, List.pairwise_map]
    exact windowed.framed.growing
  · rw [payloads, ← List.map_flatten, ← issue, List.map_map]
    rfl

theorem exists_wal (windowed : Windowed config state) {call : AppendCall}
    (member : call ∈ appendCalls state.zbd.trace) : ∃ log, state.file.wal = some log := by
  rcases List.mem_filterMap.mp member with ⟨event, inside, isCall⟩
  have opened : call.log ∈ openedLogs state.zbd.trace := by
    cases event with
    | zoneAppend other =>
        cases isCall
        exact windowed.framed.used _ inside _ rfl
    | _ => cases isCall
  rw [windowed.framed.wal]
  exact ⟨_, List.getLast?_eq_some_getLast (List.ne_nil_of_mem opened)⟩

theorem sized_payloads (streamed : Streamed config stream state) :
    Sized ((appendCalls state.zbd.trace).map AppendCall.payload) state := by
  have lengths : ((appendCalls state.zbd.trace).map AppendCall.payload).map List.length =
      (appendCalls state.zbd.trace).map AppendCall.length := by
    rw [List.map_map]
    exact List.map_congr_left fun call member => (streamed.entries call member).1.length
  refine ⟨by rw [lengths]; exact streamed.lengths, ?_, fun piece member => ?_⟩
  · rw [List.length_flatten, lengths]
    exact streamed.fileSize
  · rcases List.mem_map.mp member with ⟨call, inside, rfl⟩
    have sealed := (streamed.entries call inside).1
    rw [sealed.length]
    exact sealed.positive

end Log

/-- A session whose passes are plain is read back. -/
theorem wal_reads_back (config : BuildConfig) (blocks : Blocks config) (fuel : Nat)
    (zbd : ZonedBlockDevice) (untouched : Untouched zbd) (file : ZoneFile) (new : NewWal file)
    (calls : List WriterCall) (small : ∀ call ∈ calls, call.data.length < 2 ^ 32)
    (plain : ∀ final, session config fuel calls (create config zbd file true) = (.ok (), final) →
      Plain config final.state.zbd.trace) :
    ReadsBack config fuel zbd file calls := by
  intro final run synced env order placement content answers sizes
  have plainFinal := plain final run
  have windowed := session_windowed blocks untouched new run
  have streamed := session_streamed blocks untouched new small run (plainFinal.smooth synced)
  have sized := sized_payloads streamed
  have stream : ((appendCalls final.state.zbd.trace).map AppendCall.payload).flatten =
      calls.flatMap WriterCall.data := streamed.carried
  by_cases extents : final.state.file.extents = []
  · have none : (appendCalls final.state.zbd.trace).map AppendCall.payload = [] := by
      rw [← List.length_eq_zero_iff, ← sized.length, extents, List.length_nil]
    rw [none] at stream
    have empty : final.state.file.fileSize = (calls.flatMap WriterCall.data).length := by
      rw [sized.fileSize, none, stream]
    have named := ZoneFile.named_of_hasLogName streamed.isLog
    rw [readConsecutive_past false sizes named empty (by simp [← stream])]
  · have some : appendCalls final.state.zbd.trace ≠ [] := by
      intro none
      have length := sized.length
      rw [none] at length
      exact extents (List.length_eq_zero_iff.mp length)
    rcases exists_wal windowed (List.head_mem some) with ⟨log, opened⟩
    have single : ∀ other ∈ openedLogs final.state.zbd.trace, other = log := by
      rcases plainFinal.single with ⟨first, all⟩
      intro other member
      rw [all other member, windowed.framed.log_eq opened all]
    rcases exists_layout blocks windowed streamed plainFinal single (placement log opened) content
      final.state.zbd.blockSize with ⟨windows, ordered, layout, pieces⟩
    rw [← pieces] at sized stream
    have ready : ensureLog final.state = (.ok (), final.state) := ensureLog_opened (by simp [opened])
    have fresh := Fresh.of_unread streamed.unread extents answers ready ordered
    have standing : Standing (payloads ordered) (ChunkParked ordered final.state.zbd.blockSize) 0
        final.state :=
      standing_of_unread streamed.unread sized extents (.inr ⟨rfl, final.state, fresh⟩)
    rcases readConsecutive_spec (chunkSource layout) sizes standing streamed.isLog with ⟨_, read⟩
    rw [read, stream]

def smallWal : ZoneFile := { isWal := true, isSparse := true, linkfiles := ["1.log"] }

theorem smallWal_new : NewWal smallWal :=
  ⟨rfl, rfl, by decide, rfl, rfl, rfl, rfl, rfl, rfl, ⟨rfl, rfl, rfl, rfl, rfl⟩⟩

theorem smallDevice_untouched : Untouched (smallDevice 12288) :=
  ⟨rfl, fun _ => ⟨⟨3, rfl⟩, ⟨3, rfl⟩⟩⟩

def smallSession (calls : List WriterCall) : Except IOStatus Unit × WritableFile :=
  session smallConfig 4 calls (create smallConfig (smallDevice 12288) smallWal true)

def evenCalls : List WriterCall := [.append (List.replicate 4080 7), .append [97, 98], .sync]

theorem evenCalls_plain : (smallSession evenCalls).1 = .ok () ∧
    Plain smallConfig (smallSession evenCalls).2.state.zbd.trace := by
  -- one evaluation of the session for all of its facts
  have facts : (smallSession evenCalls).1 = .ok () ∧
      (let trace := (smallSession evenCalls).2.state.zbd.trace
       (∀ call ∈ appendCalls trace, call.Whole smallConfig) ∧
       (∀ opened ∈ openedLogs trace, opened = 4) ∧
       (appendCalls trace).IsChain (fun first second => ¬ Ragged first ∨ second.appendBytes = 0) ∧
       (∀ call ∈ appendCalls trace, Ragged call → (call.left + 16) % sparseBlockSize ≤ 4088) ∧
       (appendCalls trace).length ≤ 2 ^ 64) := by
    decide +kernel
  rcases facts with ⟨ok, whole, single, apart, marked, numbered⟩
  exact ⟨ok, whole, ⟨4, single⟩, apart, marked, numbered⟩

theorem wal_reads_back_small :
    (smallSession evenCalls).1 = .ok () ∧
      ReadsBack smallConfig 4 (smallDevice 12288) smallWal evenCalls := by
  refine ⟨evenCalls_plain.1, wal_reads_back smallConfig ⟨by decide, by decide⟩ 4 (smallDevice 12288)
    smallDevice_untouched smallWal smallWal_new evenCalls (by decide +kernel) fun final run => ?_⟩
  have same : (smallSession evenCalls).2 = final := congrArg Prod.snd run
  exact same ▸ evenCalls_plain.2

/-- Each sync pads the block behind it, and the reader stops at the padding. -/
def raggedCalls : List WriterCall :=
  [.append [97, 98, 99], .sync, .append [100, 101, 102], .sync, .append [103, 104, 105]]

def readerOf (order : List AppendCall) : ReaderEnv where
  view := ⟨0, order.flatMap AppendCall.data⟩
  sort := .mergeSort WalEntry.seq
  slack _ := 0
  device _ := 0

theorem readerOf_content (order : List AppendCall) :
    (readerOf order).view.content = order.flatMap AppendCall.data := rfl

/-- The second payload is not read back. -/
theorem sync_loses_payload :
    ¬ ReadsBack smallConfig 4 (smallDevice 12288) smallWal raggedCalls := by
  intro readsBack
  have ok : (smallSession raggedCalls).1 = .ok () := by decide +kernel
  have opened : (smallSession raggedCalls).2.state.file.wal = some 4 := by decide +kernel
  have answered : ∀ answer ∈ (smallSession raggedCalls).2.state.zbd.replies, 0 ≤ answer := by
    decide +kernel
  have issued : ∀ call ∈ appendCalls (smallSession raggedCalls).2.state.zbd.trace, call.log = 4 := by
    decide +kernel
  have completed : ∀ event ∈ (smallSession raggedCalls).2.state.zbd.trace,
      event.isFailedSync = false := by decide +kernel
  have lost : (readConsecutive .walBarriers smallConfig
      (readerOf (appendCalls (smallSession raggedCalls).2.state.zbd.trace)) false [6] 0
      (smallSession raggedCalls).2.state).1 = .ok [[97, 98, 99, 103, 104, 105]] := by decide +kernel
  have payloads : slices (raggedCalls.flatMap WriterCall.data) [6] 0 =
      [[97, 98, 99, 100, 101, 102]] := by decide
  generalize same : smallSession raggedCalls = outcome at *
  rcases outcome with ⟨_, final⟩
  cases ok
  have synced : ∀ log, .walSyncFailed log ∉ final.state.zbd.trace := by
    intro log member
    simpa [IoEvent.isFailedSync] using completed _ member
  have placement : ∀ log, final.state.file.wal = some log →
      Journal.Placement (journal log final.state.zbd.trace) (appendCalls final.state.zbd.trace) := by
    intro log here
    have records : Journal.records (journal 4 final.state.zbd.trace) =
        appendCalls final.state.zbd.trace := by
      rw [records_journal, List.filter_eq_self]
      simpa using issued
    rw [← records, ← Option.some.inj (opened.symm.trans here)]
    exact .refl _
  have read := readsBack final same synced (readerOf (appendCalls final.state.zbd.trace)) _ placement
    (readerOf_content _) answered [6]
  rw [lost, payloads] at read
  simp at read

end Zwal.WalRoundTrip
