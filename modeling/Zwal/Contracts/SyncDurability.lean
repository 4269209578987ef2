import Zwal.Contracts.WalRoundTrip
import Zwal.File.Completion

/-! # What a sync of a write-ahead log makes durable

`DataSync` syncs the once-log first and flushes the buffer afterwards, so what it
flushes is in flight when it returns. -/

namespace Zwal.SyncDurability

open FileState WritableFile WalRoundTrip

/-- Every byte was handed to the device, and in no interleaving with its completions is
one of them still in flight. -/
def Durable (stream : Bytes) (writer : WritableFile) : Prop :=
  writer.bufferPos = 0 ∧
  (appendCalls writer.state.zbd.trace).flatMap AppendCall.payload = stream ∧
  ∀ full, hostEvents full = hostEvents writer.state.zbd.trace → inFlight full = []

theorem inFlight_eq_nil_iff (trace : List IoEvent) :
    (∀ full, hostEvents full = hostEvents trace → inFlight full = []) ↔ unsynced trace = [] := by
  refine ⟨fun none => ?_, fun none full same => ?_⟩
  · rw [← inFlight_hostEvents]
    exact none _ (by simp [hostEvents])
  · have fewer := inFlight_sublist full
    rw [← unsynced_hostEvents, same, unsynced_hostEvents, none] at fewer
    exact List.eq_nil_of_sublist_nil fewer

/-- The last pass of `SparseAppend` found a zone that what was left, with header and
padding, fills up. -/
def LastFills (trace : List IoEvent) : Prop :=
  ∃ call, (appendCalls trace).getLast? = some call ∧ call.capacity < call.left + 16 + sparseBlockSize

theorem size_eq_capacity_iff {call : AppendCall} (cut : call.Cut) :
    call.size = call.capacity ↔ call.capacity < call.left + 16 + sparseBlockSize := by
  rcases cut with ⟨pad, size, zone⟩
  have cases := padSize_eq sparseBlockSize (min (call.left + 16) call.capacity)
  simp only [sparseBlockSize] at *
  omega

theorem filledZone_iff {config : BuildConfig} {stream : Bytes} {state : FileState}
    (streamed : Streamed config stream state) :
    FilledZone state.zbd.trace ↔ LastFills state.zbd.trace := by
  constructor
  · rintro ⟨calls, call, last, full⟩
    have cut := (streamed.entries call (by simp [last])).2
    exact ⟨call, by simp [last], (size_eq_capacity_iff cut).mp full⟩
  · rintro ⟨call, last, fills⟩
    rcases List.getLast?_eq_some_iff.mp last with ⟨calls, split⟩
    have cut := (streamed.entries call (by simp [split])).2
    exact ⟨calls, call, split, (size_eq_capacity_iff cut).mpr fills⟩

/-- After calls that returned, a `Sync` or `Fsync` that returns has made the bytes
appended before durable exactly if the buffer was empty when it was called or its
flush filled a zone. -/
theorem sync_durable_iff (config : BuildConfig) (blocks : Blocks config) (fuel : Nat)
    (zbd : ZonedBlockDevice) (untouched : Untouched zbd) (file : ZoneFile) (new : NewWal file)
    (calls : List WriterCall) (small : ∀ call ∈ calls, call.data.length < 2 ^ 32)
    (writer : WritableFile)
    (ran : runCalls config fuel calls (create config zbd file true) = (.ok (), writer))
    (call : WriterCall) (syncs : call = .sync ∨ call = .fsync) (final : WritableFile)
    (run : call.run config fuel writer = (.ok (), final))
    (smooth : Smooth config final.state.zbd.trace) :
    Durable (calls.flatMap WriterCall.data) final ↔
      writer.bufferPos = 0 ∨ LastFills final.state.zbd.trace := by
  have start : Writing config [] (create config zbd file true) := create_writing untouched new
  have ranMoves : Moves config (create config zbd file true)
      (runCalls config fuel calls (create config zbd file true)).2 := runCalls_moves calls _
  have callMoves : Moves config writer (call.run config fuel writer).2 := run_moves call writer
  rw [ran] at ranMoves
  rw [run] at callMoves
  rcases Writing.runCalls blocks calls start small ran
    (ranMoves.smooth_between callMoves start smooth) with ⟨writing, _⟩
  have synced : Writing config (calls.flatMap WriterCall.data) final ∧ final.bufferPos = 0 ∧
      (unsynced final.state.zbd.trace = [] ↔
        writer.bufferPos = 0 ∨ FilledZone final.state.zbd.trace) := by
    rcases syncs with rfl | rfl
    · rcases writing.dataSync blocks run smooth with ⟨written, empty, settled, _⟩
      exact ⟨written, empty, settled⟩
    · rcases writing.fsync blocks run smooth with ⟨written, empty, settled, _⟩
      exact ⟨written, empty, settled⟩
  rcases synced with ⟨written, empty, settled⟩
  have streamed := written.all empty
  rw [Durable, inFlight_eq_nil_iff, settled, filledZone_iff streamed]
  exact ⟨fun durable => durable.2.2, fun durable => ⟨empty, streamed.carried, durable⟩⟩

def smallCalls (calls : List WriterCall) : Except IOStatus Unit × WritableFile :=
  runCalls smallConfig 4 calls (create smallConfig (smallDevice 12288) smallWal true)

def smallNext (calls : List WriterCall) (call : WriterCall) : Except IOStatus Unit × WritableFile :=
  call.run smallConfig 4 (smallCalls calls).2

/-- The second of two syncs waits for what the first one flushed. -/
theorem sync_durable_iff_small :
    Durable [97, 98, 99] (smallNext [.append [97, 98, 99], .sync] .sync).2 := by
  have facts : (smallCalls [.append [97, 98, 99], .sync]).1 = .ok () ∧
      (smallNext [.append [97, 98, 99], .sync] .sync).1 = .ok () ∧
      (smallCalls [.append [97, 98, 99], .sync]).2.bufferPos = 0 ∧
      (∀ call ∈ appendCalls (smallNext [.append [97, 98, 99], .sync] .sync).2.state.zbd.trace,
        call.Whole smallConfig) ∧
      ∀ event ∈ (smallNext [.append [97, 98, 99], .sync] .sync).2.state.zbd.trace,
        event.isFailedSync = false := by
    decide +kernel
  rcases facts with ⟨ran, run, empty, whole, completed⟩
  have smooth : Smooth smallConfig
      (smallNext [.append [97, 98, 99], .sync] .sync).2.state.zbd.trace :=
    ⟨whole, fun log member => by simpa [IoEvent.isFailedSync] using completed _ member⟩
  exact (sync_durable_iff smallConfig ⟨by decide, by decide⟩ 4 (smallDevice 12288)
    smallDevice_untouched smallWal smallWal_new [.append [97, 98, 99], .sync] (by decide) _
    (Prod.ext ran rfl) .sync (.inl rfl) _ (Prod.ext run rfl) smooth).mpr (.inl empty)

/-- The first sync returns with the entry it flushed in flight. -/
theorem sync_leaves_entry_in_flight :
    (smallCalls [.append [97, 98, 99]]).1 = .ok () ∧
      (smallNext [.append [97, 98, 99]] .sync).1 = .ok () ∧
      ¬ Durable [97, 98, 99] (smallNext [.append [97, 98, 99]] .sync).2 := by
  refine ⟨by decide +kernel, by decide +kernel, fun durable => ?_⟩
  have waiting : unsynced (smallNext [.append [97, 98, 99]] .sync).2.state.zbd.trace ≠ [] := by
    decide +kernel
  exact waiting ((inFlight_eq_nil_iff _).mp durable.2.2)

end Zwal.SyncDurability
