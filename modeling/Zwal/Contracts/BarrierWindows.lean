import Zwal.File.WalSteps

/-! # Barrier windows

The entries of a write-ahead log never cross a multiple of the barrier size, and
a sync separates the windows, so that every order the device may choose keeps
whole windows together. -/

namespace Zwal.BarrierWindows

open FileState

/-! ## The trace of a writer -/

/-- A trace with the writer's view of it: the open log, the next sequence number and
the fill level of the window. The journal is cut into windows as long as only
one log was opened. -/
structure Framed (window : Nat) (trace : List IoEvent) (wal : Option Nat) (walSeq filled : Nat) :
    Prop where
  wal : wal = (openedLogs trace).getLast?
  used : ∀ event ∈ trace, ∀ log, event.usedLog = some log → log ∈ openedLogs trace
  growing : (appendCalls trace).Pairwise fun first second => first.seq < second.seq
  pending : ∀ call ∈ appendCalls trace, call.seq < walSeq
  barriered : ∀ log, (∀ opened ∈ openedLogs trace, opened = log) →
    Journal.Barriered AppendCall.size AppendCall.appendBytes window (journal log trace) filled

namespace Framed

variable {window walSeq filled : Nat} {trace : List IoEvent} {wal : Option Nat}

theorem empty : Framed window [] none walSeq 0 :=
  ⟨rfl, by simp, .nil, by simp [appendCalls], fun _ _ => .empty⟩

theorem skip (framed : Framed window trace wal walSeq filled) (skipped : Nat) :
    Framed window trace wal (walSeq + skipped) filled :=
  { framed with pending := fun call member => Nat.lt_add_right skipped (framed.pending call member) }

theorem used_append (framed : Framed window trace wal walSeq filled) {event : IoEvent}
    (fresh : ∀ log, event.usedLog = some log → log ∈ openedLogs (trace ++ [event])) :
    ∀ other ∈ trace ++ [event], ∀ log, other.usedLog = some log →
      log ∈ openedLogs (trace ++ [event]) := by
  intro other member log uses
  rcases List.mem_append.mp member with member | member
  · rw [openedLogs_append]
    exact List.mem_append_left _ (framed.used other member log uses)
  · cases List.mem_singleton.mp member
    exact fresh log uses

theorem openLog (framed : Framed window trace wal walSeq filled) (log : Nat) :
    Framed window (trace ++ [.openLog log]) (some log) walSeq filled where
  wal := by simp [openedLogs]
  used := framed.used_append (by simp [IoEvent.usedLog])
  growing := by simpa [appendCalls] using framed.growing
  pending := by simpa [appendCalls] using framed.pending
  barriered := fun other single => by
    have before := framed.barriered other fun opened member =>
      single opened (by simp [member])
    have nothing : journal other [.openLog log] = [] := rfl
    simpa [nothing] using before

theorem idle (framed : Framed window trace wal walSeq filled) {event : IoEvent}
    (noLog : openedLogs [event] = []) (noUse : event.usedLog = none) :
    Framed window (trace ++ [event]) wal walSeq filled := by
  have noCall : appendCalls [event] = [] := by cases event <;> simp_all [appendCalls, IoEvent.usedLog]
  have noJournal (log : Nat) : journal log [event] = [] := by
    cases event <;> simp_all [journal, IoEvent.toJournal, IoEvent.usedLog]
  refine ⟨by simpa [noLog] using framed.wal, framed.used_append (by simp [noUse]),
    by simpa [noCall] using framed.growing, by simpa [noCall] using framed.pending,
    fun log single => ?_⟩
  simpa [noJournal] using framed.barriered log (by simpa [noLog] using single)

theorem log_eq (framed : Framed window trace wal walSeq filled) {log other : Nat}
    (opened : wal = some log) (single : ∀ opened ∈ openedLogs trace, opened = other) :
    log = other :=
  single log (List.mem_of_getLast? (framed.wal ▸ opened))

theorem mem_openedLogs (framed : Framed window trace wal walSeq filled) {log : Nat}
    (opened : wal = some log) : log ∈ openedLogs trace :=
  List.mem_of_getLast? (framed.wal ▸ opened)

theorem walSync (framed : Framed window trace wal walSeq filled) {log : Nat}
    (opened : wal = some log) :
    Framed window (trace ++ [.walSync log]) wal walSeq filled where
  wal := by simpa [openedLogs] using framed.wal
  used := framed.used_append fun other uses => by
    cases uses
    simp [framed.mem_openedLogs opened]
  growing := by simpa [appendCalls] using framed.growing
  pending := by simpa [appendCalls] using framed.pending
  barriered := fun other single => by
    have before := framed.barriered other (by simpa [openedLogs] using single)
    have same := framed.log_eq opened (by simpa [openedLogs] using single)
    simpa [journal, IoEvent.toJournal, same] using before.sync

theorem barrier (framed : Framed window trace wal walSeq window) {log : Nat}
    (opened : wal = some log) :
    Framed window (trace ++ [.walSync log]) wal walSeq 0 :=
  { framed.walSync opened with
    barriered := fun other single => by
      have before := framed.barriered other (by simpa [openedLogs] using single)
      have same := framed.log_eq opened (by simpa [openedLogs] using single)
      simpa [journal, IoEvent.toJournal, same] using before.barrier }

theorem append (framed : Framed window trace wal walSeq filled) {call : AppendCall}
    (opened : wal = some call.log) (seq : call.seq = walSeq) (stamp : call.appendBytes = filled)
    (room : filled < window) (fits : filled + call.size ≤ window) :
    Framed window (trace ++ [.zoneAppend call]) wal (walSeq + 1) (filled + call.size) where
  wal := by simpa [openedLogs] using framed.wal
  used := framed.used_append fun other uses => by
    cases uses
    simp [framed.mem_openedLogs opened]
  growing := by
    rw [appendCalls_append]
    refine List.pairwise_append.mpr ⟨framed.growing, List.pairwise_singleton _ _, ?_⟩
    intro earlier member last same
    rw [List.mem_singleton.mp same, seq]
    exact framed.pending earlier member
  pending := by
    intro earlier member
    rw [appendCalls_append] at member
    rcases List.mem_append.mp member with member | member
    · exact Nat.lt_succ_of_lt (framed.pending earlier member)
    · rw [List.mem_singleton.mp member, seq]
      exact Nat.lt_succ_self _
  barriered := fun other single => by
    have before := framed.barriered other (by simpa [openedLogs] using single)
    have same := framed.log_eq opened (by simpa [openedLogs] using single)
    simpa [journal, IoEvent.toJournal, same] using before.append room stamp fits

theorem records_journal_eq (framed : Framed window trace wal walSeq filled) {log : Nat}
    (single : ∀ opened ∈ openedLogs trace, opened = log) :
    Journal.records (journal log trace) = appendCalls trace := by
  rw [records_journal, List.filter_eq_self]
  intro call member
  rcases List.mem_filterMap.mp member with ⟨event, inside, isCall⟩
  cases event with
  | zoneAppend other =>
      cases isCall
      exact decide_eq_true (single _ (framed.used _ inside _ rfl))
  | _ => cases isCall

end Framed

/-! ## The writer keeps its trace cut into windows -/

structure Windowed (config : BuildConfig) (state : FileState) : Prop where
  isWal : state.file.isWal = true
  zones : ∀ number, sparseBlockSize ∣ (state.zbd.zone number).capacity ∧
    sparseBlockSize ∣ (state.zbd.zone number).maxCapacity
  level : sparseBlockSize ∣ state.file.appendBytesSinceLastBarrier
  bound : state.file.appendBytesSinceLastBarrier ≤ config.walBarrierSize
  framed : Framed config.walBarrierSize state.zbd.trace state.file.wal state.file.walSeq
    state.file.appendBytesSinceLastBarrier

variable {config : BuildConfig}

theorem Windowed.control {before after : FileState} (step : ControlStep before after)
    (windowed : Windowed config before) : Windowed config after := by
  cases step with
  | device still =>
      refine ⟨windowed.isWal, fun number => ?_, windowed.level, windowed.bound, ?_⟩
      · exact (still.zone number).blocks (windowed.zones number)
      · simpa only [still.trace] using windowed.framed
  | pointers => exact ⟨windowed.isWal, windowed.zones, windowed.level, windowed.bound, windowed.framed⟩
  | openLog log =>
      exact ⟨windowed.isWal, windowed.zones, windowed.level, windowed.bound, windowed.framed.openLog log⟩
  | walSync opened =>
      exact ⟨windowed.isWal, windowed.zones, windowed.level, windowed.bound, windowed.framed.walSync opened⟩
  | walSyncFailed =>
      exact ⟨windowed.isWal, windowed.zones, windowed.level, windowed.bound, windowed.framed.idle rfl rfl⟩
  | persist =>
      exact ⟨windowed.isWal, windowed.zones, windowed.level, windowed.bound, windowed.framed.idle rfl rfl⟩
  | notWal notWal => simp [windowed.isWal] at notWal

theorem sparseWriteSize_le_room {state : FileState} (isWal : state.file.isWal = true) (left : Nat) :
    sparseWriteSize config state left ≤
      config.walBarrierSize - state.file.appendBytesSinceLastBarrier := by
  simp only [sparseWriteSize, clipWrite, isWal, if_true]
  exact Nat.min_le_right _ _

theorem Windowed.room_of_unopened {state : FileState} (windowed : Windowed config state)
    (unopened : state.file.wal = none) : state.file.appendBytesSinceLastBarrier = 0 := by
  have noLogs : openedLogs state.zbd.trace = [] := by
    simpa [unopened] using windowed.framed.wal.symm
  have noCalls : appendCalls state.zbd.trace = [] := by
    refine List.filterMap_eq_nil_iff.mpr fun event member => ?_
    have used := windowed.framed.used event member
    cases event <;> simp_all [IoEvent.usedLog]
  rcases (windowed.framed.barriered 0 (by simp [noLogs])).current with ⟨index, level, _⟩
  rw [records_journal, noCalls] at level
  simp only [List.filter_nil, Journal.total_nil] at level
  omega

theorem Windowed.step (aligned : sparseBlockSize ∣ config.walBarrierSize)
    {before after : FileState} (step : WalStep config before after)
    (windowed : Windowed config before) : Windowed config after := by
  cases step with
  | control step => exact windowed.control step
  | barrier replies opened full =>
      have level : before.file.appendBytesSinceLastBarrier = config.walBarrierSize :=
        Nat.le_antisymm windowed.bound full
      exact ⟨windowed.isWal, windowed.zones, Nat.dvd_zero _, Nat.zero_le _,
        Framed.barrier (level ▸ windowed.framed) opened⟩
  | unopened unopened full =>
      have level := windowed.room_of_unopened unopened
      have positive : 0 < config.walBarrierSize := Nat.mul_pos config.barrierPositive (by decide)
      omega
  | scratch buffer skipped =>
      exact ⟨windowed.isWal, windowed.zones, windowed.level, windowed.bound,
        windowed.framed.skip skipped⟩
  | @append log left replies isWal opened room fits =>
      have block : sparseBlockSize ∣ (sparseCall config before log left).size :=
        (Nat.dvd_mod_iff (by decide)).mpr (dvd_add_padSize _)
      have inside : (sparseCall config before log left).size ≤
          config.walBarrierSize - before.file.appendBytesSinceLastBarrier :=
        Nat.le_trans (Nat.mod_le _ _) (add_padSize_le (sparseWriteSize_le_room isWal left)
          (Nat.dvd_sub aligned windowed.level))
      refine ⟨?_, fun number => ?_, ?_, ?_, ?_⟩
      · rw [written_file]
        exact isWal
      · by_cases same : number = before.activeNumber
        · rw [same, written_active]
          exact ⟨Nat.dvd_sub (windowed.zones _).1 block, (windowed.zones _).2⟩
        · rw [written_zone config before log left replies same]
          exact windowed.zones number
      · rw [written_file]
        exact Nat.dvd_add windowed.level block
      · rw [written_file]
        show before.file.appendBytesSinceLastBarrier + _ ≤ _
        omega
      · rw [written_trace, written_file]
        exact windowed.framed.append opened rfl rfl room (by omega)

/-! ## Runs of `SparseAppend` -/

/-- One call: the caller's buffer, the `uint32_t` size and how long the call is watched. -/
structure SparseRequest where
  fuel : Nat
  buffer : Bytes
  dataSize : Nat

/-- Calls of `SparseAppend` one after the other, whatever each of them returns. -/
def sparseAppends (config : BuildConfig) : List SparseRequest → FileState → FileState
  | [], state => state
  | request :: rest, state =>
      sparseAppends config rest
        (sparseAppend config request.fuel request.dataSize
          { state with buffer := request.buffer }).2

/-- A write-ahead log nothing has been written to, on a device whose zone capacities are
whole blocks. -/
structure FreshWal (state : FileState) : Prop where
  isWal : state.file.isWal = true
  wal : state.file.wal = none
  appendBytes : state.file.appendBytesSinceLastBarrier = 0
  trace : state.zbd.trace = []
  zones : ∀ number, sparseBlockSize ∣ (state.zbd.zone number).capacity ∧
    sparseBlockSize ∣ (state.zbd.zone number).maxCapacity

theorem FreshWal.windowed {state : FileState} (fresh : FreshWal state) :
    Windowed config state := by
  refine ⟨fresh.isWal, fresh.zones, ?_, ?_, ?_⟩
  · rw [fresh.appendBytes]
    exact Nat.dvd_zero _
  · rw [fresh.appendBytes]
    exact Nat.zero_le _
  · rw [fresh.appendBytes, fresh.trace, fresh.wal]
    exact .empty

theorem sparseAppends_windowed (aligned : sparseBlockSize ∣ config.walBarrierSize)
    (requests : List SparseRequest) {state : FileState} (windowed : Windowed config state) :
    Windowed config (sparseAppends config requests state) := by
  induction requests generalizing state with
  | nil => exact windowed
  | cons request rest induction =>
      have start : Windowed config { state with buffer := request.buffer } :=
        ⟨windowed.isWal, windowed.zones, windowed.level, windowed.bound, windowed.framed⟩
      exact induction ((sparseAppend_steps request.fuel request.dataSize _).keep
        (Windowed.step aligned) start)

/-- What the windows of a log look like when its writer only ever opened that log. -/
theorem barrier_windows (config : BuildConfig) (aligned : sparseBlockSize ∣ config.walBarrierSize)
    (state : FileState) (fresh : FreshWal state) (requests : List SparseRequest) (log : Nat)
    (stays : openedLogs (sparseAppends config requests state).zbd.trace = [log]) :
    let trace := (sparseAppends config requests state).zbd.trace
    let bytes := Journal.total AppendCall.size
    -- every entry goes to that log
    Journal.records (journal log trace) = appendCalls trace ∧
    -- at every zone append
    (∀ before call after, journal log trace = before ++ .append call :: after →
      call.appendBytes < config.walBarrierSize ∧
      call.appendBytes = bytes (Journal.records before) % config.walBarrierSize ∧
      call.appendBytes + call.size ≤ config.walBarrierSize) ∧
    -- between entries of different windows
    (∀ before first between second after,
      journal log trace = before ++ .append first :: between ++ .append second :: after →
      bytes (Journal.records before) / config.walBarrierSize <
        bytes (Journal.records (before ++ .append first :: between)) / config.walBarrierSize →
      .sync ∈ between) ∧
    -- in every order the device may have chosen
    ∀ order, Journal.Placement (journal log trace) order →
      (∀ before call after, order = before ++ call :: after →
        bytes before % config.walBarrierSize + call.size ≤ config.walBarrierSize) ∧
      ∀ before first between second after,
        order = before ++ first :: between ++ second :: after →
        0 < first.size → 0 < second.size →
        bytes before / config.walBarrierSize <
          bytes (before ++ first :: between) / config.walBarrierSize →
        first.seq < second.seq := by
  intro trace bytes
  have windowed : Windowed config (sparseAppends config requests state) :=
    sparseAppends_windowed aligned requests fresh.windowed
  have single : ∀ opened ∈ openedLogs trace, opened = log := by simp [trace, stays]
  have barriered := windowed.framed.barriered log single
  have allRecords := windowed.framed.records_journal_eq single
  refine ⟨allRecords, fun before call after split => barriered.stamp_spec split,
    fun before first between second after split apart => barriered.sync_between split apart,
    fun order placement => ?_⟩
  rcases barriered.placed_windows placement with ⟨issued, landed, issue, rfl, moved, windows⟩
  have growing : issued.flatten.Pairwise fun first second => first.seq < second.seq := by
    rw [← issue, allRecords]
    exact windowed.framed.growing
  exact ⟨fun before call after split => (windows.perm moved).inside split,
    fun before first between second after split nonemptyFirst nonemptySecond apart =>
      windows.key_lt growing moved split nonemptyFirst nonemptySecond apart⟩

def smallWal : FileState :=
  ⟨smallDevice 12288, { isWal := true, isSparse := true }, []⟩

theorem smallWal_fresh : FreshWal smallWal :=
  ⟨rfl, rfl, rfl, rfl, fun _ => ⟨⟨3, rfl⟩, ⟨3, rfl⟩⟩⟩

/-- Three flushes: the second one is cut at the barrier and fills the zone. -/
def smallRequests : List SparseRequest :=
  [⟨2, [1, 2, 3], 3⟩, ⟨3, [4, 5, 6], 5000⟩, ⟨2, [7], 4080⟩]

theorem barrier_windows_small :
    openedLogs (sparseAppends smallConfig smallRequests smallWal).zbd.trace = [4] ∧
    (appendCalls (sparseAppends smallConfig smallRequests smallWal).zbd.trace).map
      AppendCall.size = [4096, 4096, 4096, 4096] ∧
    ∀ before call after,
      journal 4 (sparseAppends smallConfig smallRequests smallWal).zbd.trace =
        before ++ .append call :: after →
      call.appendBytes < 8192 ∧
      call.appendBytes = Journal.total AppendCall.size (Journal.records before) % 8192 ∧
      call.appendBytes + call.size ≤ 8192 := by
  have stays : openedLogs (sparseAppends smallConfig smallRequests smallWal).zbd.trace = [4] := by
    decide +kernel
  exact ⟨stays, by decide +kernel,
    (barrier_windows smallConfig (by decide) smallWal smallWal_fresh smallRequests 4 stays).2.1⟩

end Zwal.BarrierWindows
