import Zwal.File.WalSteps
import Zwal.File.WalChunk

/-! # The bytes the entries of a write-ahead log carry

As long as no pass of `SparseAppend` is cut short by the barrier, the payloads of the
entries are the bytes of the flushes, in order. -/

namespace Zwal

namespace AppendCall

def payload (call : AppendCall) : Bytes := (call.data.drop 16).take call.length

def pad (call : AppendCall) : Nat := call.size - 16 - call.length

def entry (call : AppendCall) : StoredEntry := ⟨⟨call.seq, call.payload⟩, call.pad⟩

structure Sealed (call : AppendCall) : Prop where
  data : call.data = call.entry.bytes
  length : call.payload.length = call.length
  positive : 0 < call.length
  small : call.length < 2 ^ 32
  size : call.size = call.entry.size

theorem sealed_of_data {call : AppendCall} {body : Bytes} {zeroes : Nat}
    (data : call.data = Bytes.ofNat 8 body.length ++ Bytes.ofNat 8 call.seq ++ body ++
      List.replicate zeroes 0)
    (length : call.length = body.length) (size : call.size = 16 + body.length + zeroes)
    (positive : 0 < body.length) (small : body.length < 2 ^ 32) :
    call.Sealed ∧ call.payload = body := by
  have header : (Bytes.ofNat 8 body.length ++ Bytes.ofNat 8 call.seq).length = 16 := by simp
  have payload : call.payload = body := by
    rw [payload, data, length, List.append_assoc _ body]
    generalize Bytes.ofNat 8 body.length ++ Bytes.ofNat 8 call.seq = front at header ⊢
    rw [← header, List.drop_left, List.take_left]
  have pad : call.pad = zeroes := by
    rw [pad]
    omega
  refine ⟨⟨?_, by rw [payload, length], by omega, by omega, ?_⟩, payload⟩
  · rw [data, entry, StoredEntry.bytes, StoredEntry.header, payload, pad]
  · rw [entry, StoredEntry.size, payload, pad, size]

structure Cut (call : AppendCall) : Prop where
  pad : call.pad = padSize sparseBlockSize (min (call.left + 16) call.capacity)
  size : call.size = min (call.left + 16) call.capacity + call.pad
  zone : sparseBlockSize ∣ call.capacity

/-- A pass the barrier does not cut short: what is left of the flush, or as much as the
zone takes, fits the window. -/
structure Whole (config : BuildConfig) (call : AppendCall) : Prop where
  capacity : 0 < call.capacity
  window : min (call.left + 16) call.capacity ≤ config.walBarrierSize - call.appendBytes

instance (config : BuildConfig) (call : AppendCall) : Decidable (call.Whole config) :=
  decidable_of_iff (0 < call.capacity ∧
      min (call.left + 16) call.capacity ≤ config.walBarrierSize - call.appendBytes)
    ⟨fun ⟨capacity, window⟩ => ⟨capacity, window⟩, fun whole => ⟨whole.capacity, whole.window⟩⟩

end AppendCall

namespace FileState

structure Ready (left : Nat) (state : FileState) : Prop where
  isWal : state.file.isWal = true
  positive : 0 < left
  memory : left + 16 + padSize sparseBlockSize (left + 16) ≤ state.buffer.length
  small : left + 16 + padSize sparseBlockSize (left + 16) < 2 ^ 32
  zone : sparseBlockSize ∣ state.active.capacity

section Call

variable {config : BuildConfig} {state : FileState} {left log : Nat}

theorem sealed_buffer (buffer : Bytes) {length seq : Bytes} (wrSize pad : Nat)
    (lengthWidth : length.length = 8) (seqWidth : seq.length = 8) :
    ((buffer.overwrite wrSize (List.replicate pad 0)).overwrite 0 length).overwrite 8 seq =
      length ++ seq ++ (buffer.overwrite wrSize (List.replicate pad 0)).drop 16 := by
  generalize buffer.overwrite wrSize (List.replicate pad 0) = padded
  have first : padded.overwrite 0 length = length ++ padded.drop 8 := by
    simp [Bytes.overwrite, lengthWidth]
  rw [first, Bytes.overwrite, seqWidth, ← lengthWidth, List.take_left, lengthWidth, List.drop_append,
    List.drop_eq_nil_of_le (by omega), lengthWidth, List.nil_append, List.drop_drop]

theorem take_sealed {buffer length seq : Bytes} {wrSize pad : Nat}
    (lengthWidth : length.length = 8) (seqWidth : seq.length = 8) (wide : 16 ≤ wrSize)
    (inside : wrSize ≤ buffer.length) :
    (((buffer.overwrite wrSize (List.replicate pad 0)).overwrite 0 length).overwrite 8 seq).take
        (wrSize + pad) =
      length ++ seq ++ (buffer.drop 16).take (wrSize - 16) ++ List.replicate pad 0 := by
  have header : (length ++ seq).length = 16 := by simp [lengthWidth, seqWidth]
  have padded : (buffer.overwrite wrSize (List.replicate pad 0)).take (wrSize + pad) =
      buffer.take wrSize ++ List.replicate pad 0 := by
    have written : (buffer.overwrite wrSize (List.replicate pad 0)).take
        (wrSize + (List.replicate pad (0 : UInt8)).length) =
          buffer.take wrSize ++ List.replicate pad 0 := Bytes.take_overwrite_end inside
    rwa [List.length_replicate] at written
  have rest : ((buffer.overwrite wrSize (List.replicate pad 0)).drop 16).take (wrSize + pad - 16) =
      (buffer.drop 16).take (wrSize - 16) ++ List.replicate pad 0 := by
    rw [← List.drop_take, padded, List.drop_append_of_le_length (by rw [List.length_take]; omega),
      List.drop_take]
  rw [sealed_buffer buffer wrSize pad lengthWidth seqWidth, List.take_append, header, rest,
    List.take_of_length_le (by omega)]
  simp only [List.append_assoc]

theorem Ready.headerSize (ready : Ready left state) : state.file.headerSize = 16 := by
  simp [ZoneFile.headerSize, ready.isWal, sparseHeaderSize, sparseWalHeaderSize]

theorem Ready.wrSize (ready : Ready left state)
    (whole : (sparseCall config state log left).Whole config) :
    sparseWriteSize config state left = min (left + 16) state.active.capacity := by
  have small := ready.small
  have window : min (left + 16) state.active.capacity ≤
      config.walBarrierSize - state.file.appendBytesSinceLastBarrier := whole.window
  simp only [sparseWriteSize, clipWrite, ready.isWal, if_true, ready.headerSize]
  rw [Nat.mod_eq_of_lt (by omega)]
  omega

theorem Ready.wide (ready : Ready left state)
    (whole : (sparseCall config state log left).Whole config) :
    16 < min (left + 16) state.active.capacity := by
  have positive := ready.positive
  have capacity : 0 < state.active.capacity := whole.capacity
  have blocks := Nat.le_of_dvd capacity ready.zone
  rw [sparseBlockSize] at blocks
  omega

theorem Ready.wrSize_le (ready : Ready left state) (config : BuildConfig) :
    sparseWriteSize config state left ≤ left + 16 := by
  have clipped : sparseWriteSize config state left ≤ (left + state.file.headerSize) % 2 ^ 32 := by
    rw [sparseWriteSize, clipWrite]
    split
    · exact Nat.le_trans (Nat.min_le_left _ _) (Nat.min_le_left _ _)
    · exact Nat.min_le_left _ _
  rw [ready.headerSize] at clipped
  exact Nat.le_trans clipped (Nat.mod_le _ _)

theorem Ready.sparseCall_of_wide (ready : Ready left state) {wrSize : Nat}
    (written : sparseWriteSize config state left = wrSize) (wide : 16 ≤ wrSize) :
    (sparseCall config state log left).length = wrSize - 16 ∧
      (sparseCall config state log left).size = wrSize + padSize sparseBlockSize wrSize ∧
      (sparseCall config state log left).data =
        Bytes.ofNat 8 (wrSize - 16) ++ Bytes.ofNat 8 state.file.walSeq ++
          (state.buffer.drop 16).take (wrSize - 16) ++
          List.replicate (padSize sparseBlockSize wrSize) 0 := by
  have small := ready.small
  have memory := ready.memory
  have padded := add_padSize_mono (written ▸ ready.wrSize_le config)
  have length : (wrSize + 2 ^ 64 - 16) % 2 ^ 64 = wrSize - 16 := by omega
  have total : (wrSize + padSize sparseBlockSize wrSize) % 2 ^ 32 =
      wrSize + padSize sparseBlockSize wrSize := Nat.mod_eq_of_lt (by omega)
  simp only [sparseCall, appendCall, sealSparse, written, ready.headerSize, length, total, true_and]
  exact take_sealed (Bytes.length_ofNat _ _) (Bytes.length_ofNat _ _) wide (by omega)

theorem Ready.sparseCall_eq (ready : Ready left state)
    (whole : (sparseCall config state log left).Whole config) {wrSize : Nat}
    (size : wrSize = min (left + 16) state.active.capacity) :
    (sparseCall config state log left).length = wrSize - 16 ∧
      (sparseCall config state log left).size = wrSize + padSize sparseBlockSize wrSize ∧
      (sparseCall config state log left).data =
        Bytes.ofNat 8 (wrSize - 16) ++ Bytes.ofNat 8 state.file.walSeq ++
          (state.buffer.drop 16).take (wrSize - 16) ++
          List.replicate (padSize sparseBlockSize wrSize) 0 := by
  have wide := ready.wide whole
  exact ready.sparseCall_of_wide ((ready.wrSize whole).trans size.symm) (by omega)

theorem Ready.sealed (ready : Ready left state)
    (whole : (sparseCall config state log left).Whole config) :
    (sparseCall config state log left).Sealed ∧
      (sparseCall config state log left).payload =
        (state.buffer.drop 16).take (min (left + 16) state.active.capacity - 16) := by
  have wide := ready.wide whole
  have small := ready.small
  have memory := ready.memory
  obtain ⟨wrSize, size⟩ : ∃ wrSize, wrSize = min (left + 16) state.active.capacity := ⟨_, rfl⟩
  rcases ready.sparseCall_eq whole size with ⟨length, total, data⟩
  rw [← size] at wide ⊢
  have width : ((state.buffer.drop 16).take (wrSize - 16)).length = wrSize - 16 := by
    rw [List.length_take, List.length_drop]
    omega
  have shape : (sparseCall config state log left).data =
      Bytes.ofNat 8 ((state.buffer.drop 16).take (wrSize - 16)).length ++
        Bytes.ofNat 8 (sparseCall config state log left).seq ++
        (state.buffer.drop 16).take (wrSize - 16) ++
        List.replicate (padSize sparseBlockSize wrSize) 0 := by
    rw [data, width]
    rfl
  exact AppendCall.sealed_of_data shape (by rw [length, width]) (by rw [total, width]; omega)
    (by omega) (by omega)

end Call

/-! ## The stream of a log -/

/-- A trace without a pass cut short by the barrier and without a failed sync. -/
structure Smooth (config : BuildConfig) (trace : List IoEvent) : Prop where
  whole : ∀ call ∈ appendCalls trace, call.Whole config
  synced : ∀ log, .walSyncFailed log ∉ trace

theorem Smooth.left {config : BuildConfig} {first second : List IoEvent}
    (smooth : Smooth config (first ++ second)) : Smooth config first :=
  ⟨fun call member => smooth.whole call (by simp [member]),
    fun log member => smooth.synced log (List.mem_append_left _ member)⟩

/-- A write-ahead log whose entries so far carry `stream`. An entry that needed padding
was appended with nothing in flight. -/
structure Streamed (config : BuildConfig) (stream : Bytes) (state : FileState) : Prop where
  isWal : state.file.isWal = true
  isSparse : state.file.isSparse = true
  isLog : state.file.hasLogName = true
  unread : state.file.Unread
  zones : ∀ number, sparseBlockSize ∣ (state.zbd.zone number).capacity ∧
    sparseBlockSize ∣ (state.zbd.zone number).maxCapacity
  memory : config.sparseBufferSize ≤ state.buffer.length
  carried : (appendCalls state.zbd.trace).flatMap AppendCall.payload = stream
  entries : ∀ call ∈ appendCalls state.zbd.trace, call.Sealed ∧ call.Cut
  starts : ∀ call ∈ appendCalls state.zbd.trace, call.start = call.wp
  lengths : state.file.extents.map ZoneExtent.length =
    (appendCalls state.zbd.trace).map AppendCall.length
  fileSize : state.file.fileSize = ((appendCalls state.zbd.trace).map AppendCall.length).sum
  counted : state.file.walSeq = (appendCalls state.zbd.trace).length
  alone : ∀ before call after, state.zbd.trace = before ++ .zoneAppend call :: after →
    0 < call.pad → unsynced before = []

def Flying (state : FileState) : Prop :=
  ∀ call ∈ unsynced state.zbd.trace, state.file.wal = some call.log

section Streamed

variable {config : BuildConfig} {stream : Bytes} {before after : FileState}

theorem Streamed.quiet (streamed : Streamed config stream before) (quiet : Quiet before after) :
    Streamed config stream after := by
  rcases quiet.trace with ⟨control, none, trace⟩
  have calls : appendCalls after.zbd.trace = appendCalls before.zbd.trace := by
    rw [trace, appendCalls_append, appendCalls_eq_nil none, List.append_nil]
  have file := quiet.file
  refine ⟨?_, ?_, ?_, ?_, fun number => (quiet.zone number).blocks (streamed.zones number),
    quiet.buffer ▸ streamed.memory, calls ▸ streamed.carried, calls ▸ streamed.entries,
    calls ▸ streamed.starts, ?_, ?_, ?_, fun early call late split pad => ?_⟩
  · rw [file]
    exact streamed.isWal
  · rw [file]
    exact streamed.isSparse
  · rw [file]
    exact streamed.isLog
  · rw [file]
    exact ⟨streamed.unread.chunks, streamed.unread.chunkId, streamed.unread.entries,
      streamed.unread.within, streamed.unread.index⟩
  · rw [file, calls]
    exact streamed.lengths
  · rw [file, calls]
    exact streamed.fileSize
  · rw [file, calls]
    exact streamed.counted
  · rw [trace] at split
    rcases split_control none split with ⟨between, same⟩
    exact streamed.alone early call between same pad

theorem Barred.quiet (barred : Barred before after) :
    Quiet before { after with file := { after.file with
      appendBytesSinceLastBarrier := before.file.appendBytesSinceLastBarrier } } := by
  refine ⟨barred.buffer, ?_, fun number => ?_, ?_⟩
  · rw [barred.file]
  · show Zone.Controlled _ (after.zbd.zone number)
    rw [barred.zone]
    exact .refl _
  · rcases barred.trace with same | ⟨log, _, synced⟩
    · exact ⟨[], by simp, by simp [same]⟩
    · exact ⟨[.walSync log], by simp [IoEvent.isControl], synced⟩

theorem Streamed.barred (streamed : Streamed config stream before) (barred : Barred before after) :
    Streamed config stream after := by
  have kept := streamed.quiet barred.quiet
  exact ⟨kept.isWal, kept.isSparse, kept.isLog,
    ⟨kept.unread.chunks, kept.unread.chunkId, kept.unread.entries, kept.unread.within,
      kept.unread.index⟩, kept.zones, kept.memory, kept.carried, kept.entries, kept.starts,
    kept.lengths, kept.fileSize, kept.counted, kept.alone⟩

theorem written_buffer (config : BuildConfig) (state : FileState) (log left : Nat)
    (replies : List Int) : (written config state log left replies).buffer =
      (sealSparse (sparseWriteSize config state left) (sparseCall config state log left).length
        state).buffer := rfl

variable {state : FileState} {left log : Nat}

theorem Ready.length_sealed (ready : Ready left state)
    (whole : (sparseCall config state log left).Whole config) (length : Nat) :
    (sealSparse (sparseWriteSize config state left) length state).buffer.length =
      state.buffer.length := by
  have wide := ready.wide whole
  have memory := ready.memory
  obtain ⟨wrSize, size⟩ : ∃ wrSize, wrSize = min (left + 16) state.active.capacity := ⟨_, rfl⟩
  rw [ready.wrSize whole, ← size]
  have padded := add_padSize_mono (show wrSize ≤ left + 16 by omega)
  have first : (padBuffer sparseBlockSize wrSize state.buffer).length = state.buffer.length :=
    Bytes.length_overwrite (by rw [List.length_replicate]; omega)
  have second : ((padBuffer sparseBlockSize wrSize state.buffer).overwrite 0
      (Bytes.ofNat 8 length)).length = state.buffer.length := by
    rw [Bytes.length_overwrite (by rw [first, Bytes.length_ofNat]; omega), first]
  simp only [sealSparse]
  rw [Bytes.length_overwrite (by rw [second, Bytes.length_ofNat]; omega), second]

theorem Ready.pad (ready : Ready left state)
    (whole : (sparseCall config state log left).Whole config) :
    (sparseCall config state log left).pad =
      padSize sparseBlockSize (min (left + 16) state.active.capacity) := by
  have wide := ready.wide whole
  rcases ready.sparseCall_eq whole rfl with ⟨length, total, _⟩
  rw [AppendCall.pad, length, total]
  omega

theorem Ready.cut (ready : Ready left state)
    (whole : (sparseCall config state log left).Whole config) :
    (sparseCall config state log left).Cut := by
  refine ⟨ready.pad whole, ?_, ready.zone⟩
  rw [ready.pad whole]
  exact (ready.sparseCall_eq whole rfl).2.1

theorem Ready.not_dvd_of_pad (ready : Ready left state)
    (whole : (sparseCall config state log left).Whole config)
    (pad : 0 < (sparseCall config state log left).pad) : ¬ sparseBlockSize ∣ left + 16 := by
  intro aligned
  rw [ready.pad whole] at pad
  have zone := ready.zone
  have cases := padSize_eq sparseBlockSize (min (left + 16) state.active.capacity)
  simp only [sparseBlockSize] at aligned zone cases pad
  omega

theorem Streamed.append (streamed : Streamed config stream state) (ready : Ready left state)
    (whole : (sparseCall config state log left).Whole config)
    (settled : unsynced state.zbd.trace = [] ∨ sparseBlockSize ∣ left + 16)
    (started : state.file.extentStart = state.active.wp) (replies : List Int) :
    Streamed config (stream ++ (sparseCall config state log left).payload)
      (written config state log left replies) := by
  have sealed := (ready.sealed whole).1
  have block : sparseBlockSize ∣ (sparseCall config state log left).size := by
    rw [(ready.sparseCall_eq whole rfl).2.1]
    exact dvd_add_padSize _
  have calls : appendCalls (written config state log left replies).zbd.trace =
      appendCalls state.zbd.trace ++ [sparseCall config state log left] := by
    rw [written_trace, appendCalls_append]
    rfl
  refine ⟨?_, ?_, ?_, ?_, fun number => ?_, ?_, ?_, fun call member => ?_, fun call member => ?_,
    ?_, ?_, ?_, fun before call after split pad => ?_⟩
  · rw [written_file]
    exact streamed.isWal
  · rw [written_file]
    exact streamed.isSparse
  · rw [written_file]
    exact streamed.isLog
  · rw [written_file]
    exact ⟨streamed.unread.chunks, streamed.unread.chunkId, streamed.unread.entries,
      streamed.unread.within, streamed.unread.index⟩
  · by_cases same : number = state.activeNumber
    · rw [same, written_active]
      have zone := streamed.zones state.activeNumber
      exact ⟨Nat.dvd_sub zone.1 block, zone.2⟩
    · rw [written_zone config state log left replies same]
      exact streamed.zones number
  · rw [written_buffer, ready.length_sealed whole]
    exact streamed.memory
  · rw [calls, List.flatMap_append, streamed.carried]
    simp
  · rw [calls] at member
    rcases List.mem_append.mp member with member | member
    · exact streamed.entries call member
    · rw [List.mem_singleton.mp member]
      exact ⟨sealed, ready.cut whole⟩
  · rw [calls] at member
    rcases List.mem_append.mp member with member | member
    · exact streamed.starts call member
    · rw [List.mem_singleton.mp member]
      exact started
  · rw [calls, written_file, List.map_append, List.map_append, streamed.lengths]
    rfl
  · rw [calls, written_file, List.map_append, List.sum_append, List.map_singleton,
      List.sum_singleton, ← streamed.fileSize]
  · rw [calls, written_file, List.length_append]
    simp [streamed.counted]
  · rw [written_trace] at split
    rcases List.eq_nil_or_concat after with rfl | ⟨init, last, rfl⟩
    · rcases List.append_inj' split rfl with ⟨rfl, same⟩
      cases same
      exact settled.resolve_right (ready.not_dvd_of_pad whole pad)
    · have assembled : state.zbd.trace ++ [.zoneAppend (sparseCall config state log left)] =
          (before ++ .zoneAppend call :: init) ++ [last] := by simpa using split
      exact streamed.alone before call init (List.append_inj' assembled rfl).1 pad

/-! ## Passes -/

theorem Quiet.calls (quiet : Quiet before after) :
    appendCalls after.zbd.trace = appendCalls before.zbd.trace := by
  rcases quiet.trace with ⟨control, none, trace⟩
  rw [trace, appendCalls_append, appendCalls_eq_nil none, List.append_nil]

theorem Quiet.unsynced (quiet : Quiet before after) :
    (Zwal.unsynced after.zbd.trace).Sublist (Zwal.unsynced before.zbd.trace) := by
  rcases quiet.trace with ⟨control, none, trace⟩
  rw [trace]
  exact unsynced_control _ none

theorem Quiet.smooth (quiet : Quiet before after) (smooth : Smooth config after.zbd.trace) :
    Smooth config before.zbd.trace := by
  rcases quiet.trace with ⟨control, none, trace⟩
  rw [trace] at smooth
  exact smooth.left

theorem Barred.unsynced (barred : Barred before after) :
    (Zwal.unsynced after.zbd.trace).Sublist (Zwal.unsynced before.zbd.trace) :=
  barred.quiet.unsynced

theorem Flying.barred (flying : Flying before) (barred : Barred before after) : Flying after := by
  intro call member
  rw [barred.file]
  exact flying call (barred.unsynced.subset member)

theorem Flying.written (flying : Flying state) (opened : state.file.wal = some log)
    (replies : List Int) : Flying (written config state log left replies) := by
  intro call member
  rw [written_trace, unsynced_append] at member
  rw [written_file]
  rcases List.mem_append.mp member with member | member
  · exact flying call member
  · rw [List.mem_singleton.mp member]
    exact opened

theorem Flying.track_sync (flying : Flying state) (opened : state.file.wal = some log) :
    (IoEvent.walSync log).track (Zwal.unsynced state.zbd.trace) = [] := by
  rw [IoEvent.track]
  refine List.filter_eq_nil_iff.mpr fun call member => ?_
  have same := flying call member
  rw [opened] at same
  simpa using (Option.some.inj same).symm

theorem walSync_settles {next : FileState} (flying : Flying state) (run : (walSync state).2 = next)
    (smooth : Smooth config next.zbd.trace) :
    Zwal.unsynced next.zbd.trace = [] ∧ (Settled state.zbd.trace → Settled next.zbd.trace) ∧
      next.file = state.file ∧ next.zbd.zone = state.zbd.zone := by
  cases opened : state.file.wal with
  | none =>
      rw [walSync_of_closed opened] at run
      cases run
      refine ⟨List.eq_nil_iff_forall_not_mem.mpr fun call member => ?_, id, rfl, rfl⟩
      have same := flying call member
      simp [opened] at same
  | some log =>
      rw [walSync_of_open opened] at run
      rcases onceLogSync_run log "Error WAL sync" state with ⟨replies, synced | failed⟩
      · rw [synced] at run
        subst run
        refine ⟨?_, fun before => before.append (by simp), rfl, rfl⟩
        show Zwal.unsynced (state.zbd.trace ++ [.walSync log]) = []
        rw [unsynced_append, flying.track_sync opened]
      · rw [failed] at run
        subst run
        exact absurd (by simp [ZonedBlockDevice.record]) (smooth.synced log)

theorem unsynced_of_close {closed : FileState} (isWal : state.file.isWal = true)
    (opened : state.file.wal = some log) (flying : Flying state)
    (run : (closeActiveZone state).2 = closed) (smooth : Smooth config closed.zbd.trace) :
    Zwal.unsynced closed.zbd.trace = [] ∧
      (Settled state.zbd.trace → Settled closed.zbd.trace) := by
  rcases closeActiveZone_synced isWal opened with ⟨event, control, kind, none, trace⟩
  rw [run] at trace
  rw [trace] at smooth ⊢
  have synced : event = .walSync log := kind.resolve_right fun failed =>
    smooth.synced log (by simp [failed])
  have settled : Zwal.unsynced (state.zbd.trace ++ [event]) = [] := by
    rw [unsynced_append, synced, flying.track_sync opened]
  have fewer := unsynced_control (state.zbd.trace ++ [event]) none
  rw [settled, List.append_assoc, List.singleton_append] at fewer
  refine ⟨List.eq_nil_of_sublist_nil fewer, fun before => ?_⟩
  have sync : Settled (state.zbd.trace ++ [event]) :=
    before.append fun record persists => by simp [synced] at persists
  have rest := sync.control settled none
  rwa [List.append_assoc, List.singleton_append] at rest

theorem Streamed.overwrite (streamed : Streamed config stream state) {offset : Nat} {data : Bytes}
    (inside : offset + data.length ≤ state.buffer.length) :
    Streamed config stream { state with buffer := state.buffer.overwrite offset data } := by
  refine ⟨streamed.isWal, streamed.isSparse, streamed.isLog, streamed.unread, streamed.zones, ?_,
    streamed.carried, streamed.entries, streamed.starts, streamed.lengths, streamed.fileSize,
    streamed.counted, streamed.alone⟩
  show config.sparseBufferSize ≤ (state.buffer.overwrite offset data).length
  rw [Bytes.length_overwrite inside]
  exact streamed.memory

/-- In the middle of a flush: `left` bytes, `content`, are still in the buffer. -/
structure Flushing (config : BuildConfig) (stream content : Bytes) (left : Nat)
    (state : FileState) : Prop where
  streamed : Streamed config stream state
  flying : Flying state
  active : state.file.activeZone.isSome
  started : state.file.extentStart = state.active.wp
  content : (state.buffer.drop 16).take left = content
  fits : left + 16 ≤ config.sparseBufferSize
  settled : left = 0 ∨ Zwal.unsynced state.zbd.trace = [] ∨ sparseBlockSize ∣ left + 16

/-- After a flush: nothing is in flight exactly if the last entry filled its zone. -/
def Flushed (state : FileState) : Prop :=
  ∃ calls call, appendCalls state.zbd.trace = calls ++ [call] ∧
    (Zwal.unsynced state.zbd.trace = [] ↔ call.size = call.capacity)

structure Blocks (config : BuildConfig) : Prop where
  blocks : sparseBlockSize ∣ config.sparseBufferSize
  small : config.sparseBufferSize < 2 ^ 32

theorem Flushing.ready {content : Bytes} (flushing : Flushing config stream content left state)
    (blocks : Blocks config) (positive : 0 < left) : Ready left state := by
  have padded := add_padSize_le flushing.fits blocks.blocks
  exact ⟨flushing.streamed.isWal, positive, Nat.le_trans padded flushing.streamed.memory,
    Nat.lt_of_le_of_lt padded blocks.small, (flushing.streamed.zones _).1⟩

theorem Flushing.barred {content : Bytes} (flushing : Flushing config stream content left before)
    (barred : Barred before after) : Flushing config stream content left after := by
  refine ⟨flushing.streamed.barred barred, flushing.flying.barred barred, ?_, ?_,
    barred.buffer ▸ flushing.content, flushing.fits, ?_⟩
  · rw [barred.file]
    exact flushing.active
  · rw [FileState.active, activeNumber, barred.file, barred.zone]
    exact flushing.started
  rcases flushing.settled with none | settled | whole
  · exact .inl none
  · exact .inr (.inl (List.eq_nil_of_sublist_nil (settled ▸ barred.unsynced)))
  · exact .inr (.inr whole)

theorem Ready.rest (ready : Ready left state)
    (whole : (sparseCall config state log left).Whole config) :
    (left + 2 ^ 64 - (sparseCall config state log left).length) % 2 ^ 32 =
      left + 16 - min (left + 16) state.active.capacity := by
  have wide := ready.wide whole
  have small := ready.small
  rw [(ready.sparseCall_eq whole rfl).1]
  omega

theorem Ready.content_split (ready : Ready left state)
    (whole : (sparseCall config state log left).Whole config) :
    (state.buffer.drop 16).take left = (sparseCall config state log left).payload ++
      (state.buffer.drop (min (left + 16) state.active.capacity)).take
        (left + 16 - min (left + 16) state.active.capacity) := by
  have wide := ready.wide whole
  obtain ⟨wrSize, size⟩ : ∃ wrSize, wrSize = min (left + 16) state.active.capacity := ⟨_, rfl⟩
  rw [(ready.sealed whole).2, ← size]
  have cut : left = (wrSize - 16) + (left + 16 - wrSize) := by omega
  have position : 16 + (wrSize - 16) = wrSize := by omega
  conv_lhs => rw [cut, List.take_add, List.drop_drop, position]

theorem appendCalls_written (replies : List Int) :
    appendCalls (written config state log left replies).zbd.trace =
      appendCalls state.zbd.trace ++ [sparseCall config state log left] := by
  rw [written_trace, appendCalls_append]
  rfl

theorem Ready.rest_eq_zero (ready : Ready left state)
    (whole : (sparseCall config state log left).Whole config)
    (notFull : (sparseCall config state log left).size ≠ state.active.capacity) :
    min (left + 16) state.active.capacity = left + 16 := by
  rw [(ready.sparseCall_eq whole rfl).2.1] at notFull
  have zone := ready.zone
  have cases := padSize_eq sparseBlockSize (min (left + 16) state.active.capacity)
  by_contra clipped
  have full : min (left + 16) state.active.capacity = state.active.capacity := by omega
  rw [full] at cases notFull
  have aligned := Nat.mod_eq_zero_of_dvd zone
  omega

theorem Flushing.stay {content : Bytes} (flushing : Flushing config stream content left state)
    (ready : Ready left state) (whole : (sparseCall config state log left).Whole config)
    (opened : state.file.wal = some log) (replies : List Int)
    (notFull : (sparseCall config state log left).size ≠ state.active.capacity) :
    Flushing config (stream ++ content) [] 0 (written config state log left replies) ∧
      Flushed (written config state log left replies) := by
  have all := ready.rest_eq_zero whole notFull
  have payload : (sparseCall config state log left).payload = content := by
    have split := ready.content_split whole
    rw [flushing.content, all, Nat.sub_self, List.take_zero, List.append_nil] at split
    exact split.symm
  have streamed := flushing.streamed.append ready whole
    (flushing.settled.resolve_left (Nat.ne_of_gt ready.positive)) flushing.started replies
  rw [payload] at streamed
  have fits := flushing.fits
  refine ⟨⟨streamed, flushing.flying.written opened replies, ?_, written_started .., List.take_zero,
    by omega, .inl rfl⟩, _, _, appendCalls_written replies, ?_⟩
  · rw [written_file]
    exact flushing.active
  rw [written_trace, unsynced_append, IoEvent.track]
  exact iff_of_false (by simp) notFull

theorem sealSparse_drop (wrSize length : Nat) (unpadded : padSize sparseBlockSize wrSize = 0)
    (wide : 16 ≤ wrSize) :
    (sealSparse wrSize length state).buffer.drop wrSize = state.buffer.drop wrSize := by
  have sealed := sealed_buffer state.buffer wrSize (padSize sparseBlockSize wrSize)
    (Bytes.length_ofNat 8 length) (Bytes.length_ofNat 8 state.file.walSeq)
  have header : (Bytes.ofNat 8 length ++ Bytes.ofNat 8 state.file.walSeq).length = 16 := by simp
  simp only [sealSparse, padBuffer]
  rw [sealed, unpadded, List.replicate_zero, Bytes.overwrite_nil, List.drop_append,
    List.drop_eq_nil_of_le (by omega), List.nil_append, header, List.drop_drop]
  congr 1
  omega

theorem moveRest_content {source count : Nat} (header : 16 ≤ source)
    (inside : source + count ≤ state.buffer.length) :
    ((moveRest 16 source count state).buffer.drop 16).take count =
      (state.buffer.drop source).take count := by
  obtain ⟨data, same⟩ : ∃ data, data = (state.buffer.drop source).take count := ⟨_, rfl⟩
  have width : data.length = count := by
    rw [same, List.length_take, List.length_drop]
    omega
  simp only [moveRest]
  rw [← same, ← width, Bytes.take_drop_overwrite (by omega)]

theorem Flushing.leave {content : Bytes} (flushing : Flushing config stream content left state)
    (ready : Ready left state) (whole : (sparseCall config state log left).Whole config)
    (opened : state.file.wal = some log) (replies : List Int)
    (full : (sparseCall config state log left).size = state.active.capacity) {wrSize : Nat}
    (size : wrSize = min (left + 16) state.active.capacity) {closed final : FileState}
    (close : closeActiveZone (written config state log left replies) = (.ok (), closed))
    (allocate : allocateNewZone (moveRest 16 wrSize (left + 16 - wrSize) closed) = (.ok (), final))
    (smooth : Smooth config final.zbd.trace) :
    Flushing config (stream ++ (sparseCall config state log left).payload)
        ((state.buffer.drop wrSize).take (left + 16 - wrSize)) (left + 16 - wrSize) final ∧
      Flushed final ∧ (Settled state.zbd.trace → Settled final.zbd.trace) := by
  have wide := ready.wide whole
  have fits := flushing.fits
  have memory := ready.memory
  have streamed := flushing.streamed.append ready whole
    (flushing.settled.resolve_left (Nat.ne_of_gt ready.positive)) flushing.started replies
  have flying : Flying (written config state log left replies) :=
    flushing.flying.written opened replies
  have writtenOpened : (written config state log left replies).file.wal = some log := by
    rw [written_file]
    exact opened
  have quietClose : Quiet (written config state log left replies) closed := by
    have quiet := (closeActiveZone_control _).quiet streamed.isWal
    rwa [close] at quiet
  have streamedClosed := streamed.quiet quietClose
  have buffer : closed.buffer = (sealSparse (sparseWriteSize config state left)
      (sparseCall config state log left).length state).buffer := quietClose.buffer
  have width : closed.buffer.length = state.buffer.length := by
    rw [buffer, ready.length_sealed whole]
  have streamedMoved : Streamed config (stream ++ (sparseCall config state log left).payload)
      (moveRest 16 wrSize (left + 16 - wrSize) closed) :=
    streamedClosed.overwrite (by rw [List.length_take]; omega)
  have quietAllocate : Quiet (moveRest 16 wrSize (left + 16 - wrSize) closed) final := by
    have quiet := (allocateNewZone_control _).quiet streamedMoved.isWal
    rwa [allocate] at quiet
  have smoothClosed : Smooth config closed.zbd.trace := quietAllocate.smooth smooth
  rcases unsynced_of_close streamed.isWal writtenOpened flying (by rw [close]) smoothClosed with
    ⟨settledClosed, keptClosed⟩
  have settled : Zwal.unsynced final.zbd.trace = [] :=
    List.eq_nil_of_sublist_nil (settledClosed ▸ quietAllocate.unsynced)
  refine ⟨⟨streamedMoved.quiet quietAllocate, ?_, allocateNewZone_active allocate,
    allocateNewZone_started allocate, ?_, by omega, .inr (.inl settled)⟩,
    ⟨appendCalls state.zbd.trace, sparseCall config state log left, ?_, iff_of_true settled full⟩,
    fun before => ?_⟩
  · intro call member
    simp [settled] at member
  · rw [quietAllocate.buffer]
    rw [moveRest_content (by omega) (by omega), buffer]
    by_cases none : left + 16 - wrSize = 0
    · rw [none, List.take_zero, List.take_zero]
    · have unpadded : padSize sparseBlockSize wrSize = 0 := by
        have zone := Nat.mod_eq_zero_of_dvd ready.zone
        have filled : wrSize = state.active.capacity := by omega
        rw [padSize, if_pos (filled ▸ zone)]
      rw [ready.wrSize whole, ← size, sealSparse_drop wrSize _ unpadded (by omega)]
  · rw [quietAllocate.calls]
    show appendCalls closed.zbd.trace = _
    rw [quietClose.calls, appendCalls_written]
  · rcases quietAllocate.trace with ⟨control, none, trace⟩
    rw [trace]
    exact (keptClosed (before.append (by simp))).control settledClosed none

theorem smooth_of_leave {closed final : FileState} {target wrSize rest : Nat}
    (isWal : state.file.isWal = true) (close : closeActiveZone state = (.ok (), closed))
    (allocate : allocateNewZone (moveRest target wrSize rest closed) = (.ok (), final))
    (smooth : Smooth config final.zbd.trace) : Smooth config state.zbd.trace := by
  have quietClose := (closeActiveZone_control state).quiet isWal
  rw [close] at quietClose
  have quietAllocate := (allocateNewZone_control (moveRest target wrSize rest closed)).quiet
    (quietClose.isWal.trans isWal)
  rw [allocate] at quietAllocate
  have smoothMoved := quietAllocate.smooth smooth
  exact quietClose.smooth smoothMoved

theorem sparseAppendPass_stream (blocks : Blocks config) {content : Bytes} {rest : Nat}
    {final : FileState} (flushing : Flushing config stream content left state)
    (positive : 0 < left) (run : sparseAppendPass config left state = (.ok rest, final))
    (smooth : Smooth config final.zbd.trace) :
    ∃ front back, content = front ++ back ∧ Flushing config (stream ++ front) back rest final ∧
      Flushed final ∧ (Settled state.zbd.trace → Settled final.zbd.trace) := by
  rcases sparseAppendPass_ok flushing.streamed.isWal run with
    ⟨middle, log, replies, barred, _, opened, fits, same, leave⟩
  have flushing := flushing.barred barred
  have keptBarred : Settled state.zbd.trace → Settled middle.zbd.trace := by
    intro before
    rcases barred.trace with same | ⟨log, _, same⟩
    · exact same ▸ before
    · exact same ▸ before.append (by simp)
  have ready := flushing.ready blocks positive
  have header := ready.headerSize
  have callMember : sparseCall config middle log left ∈
      appendCalls (written config middle log left replies).zbd.trace := by
    simp [appendCalls_written]
  rcases leaveFullZone_ok leave with ⟨notFull, rfl⟩ | ⟨full, closed, close, allocate⟩
  · have whole := smooth.whole _ callMember
    rw [written_capacity] at notFull
    have stay := flushing.stay ready whole opened replies (by omega)
    have all := ready.rest_eq_zero whole (by omega)
    rw [ready.rest whole, all, Nat.sub_self] at same
    subst same
    exact ⟨content, [], by simp, stay.1, stay.2, fun before => (keptBarred before).append (by simp)⟩
  · have writtenWal : (written config middle log left replies).file.isWal = true := by
      rw [written_file]
      exact ready.isWal
    have whole := (smooth_of_leave writtenWal close allocate smooth).whole _ callMember
    rw [written_capacity] at full
    rw [ready.rest whole] at same
    subst same
    rw [header, ready.wrSize whole] at allocate
    rcases flushing.leave ready whole opened replies (by omega) rfl close allocate smooth with
      ⟨flushing', flushed, kept⟩
    exact ⟨_, _, flushing.content.symm.trans (ready.content_split whole), flushing', flushed,
      fun before => kept (keptBarred before)⟩

theorem WalSteps.smooth (steps : WalSteps config before after)
    (isWal : before.file.isWal = true) (smooth : Smooth config after.zbd.trace) :
    Smooth config before.zbd.trace := by
  rcases (steps.extends isWal).trace with ⟨more, trace⟩
  rw [← trace] at smooth
  exact smooth.left

theorem sparseAppendLoop_stream (blocks : Blocks config) {fuel : Nat} {content : Bytes}
    {final : FileState} (flushing : Flushing config stream content left state)
    (flushed : left = 0 → Flushed state)
    (run : sparseAppendLoop config fuel left state = (.ok (), final))
    (smooth : Smooth config final.zbd.trace) :
    Flushing config (stream ++ content) [] 0 final ∧ Flushed final ∧
      (Settled state.zbd.trace → Settled final.zbd.trace) := by
  induction fuel generalizing state left stream content with
  | zero =>
      cases left with
      | zero => exact finished flushing flushed run
      | succ left => cases run
  | succ fuel induction =>
      cases left with
      | zero => exact finished flushing flushed run
      | succ left =>
          rcases bind_eq_ok run with ⟨rest, middle, pass, loop⟩
          have isWal : middle.file.isWal = true := by
            have steps : WalSteps config state (sparseAppendPass config (left + 1) state).2 :=
              sparseAppendPass_steps (left + 1) state
            rw [pass] at steps
            exact (steps.extends flushing.streamed.isWal).isWal
          have smoothMiddle : Smooth config middle.zbd.trace := by
            have steps : WalSteps config middle (sparseAppendLoop config fuel rest middle).2 :=
              sparseAppendLoop_steps fuel rest middle
            rw [loop] at steps
            exact steps.smooth isWal smooth
          rcases sparseAppendPass_stream blocks flushing (Nat.succ_pos _) pass smoothMiddle with
            ⟨front, back, rfl, flushing, flushed, kept⟩
          rw [← List.append_assoc]
          rcases induction flushing (fun _ => flushed) loop with ⟨flushing, flushed, keptRest⟩
          exact ⟨flushing, flushed, fun before => keptRest (kept before)⟩
where
  finished {config : BuildConfig} {stream content : Bytes} {state final : FileState} {fuel : Nat}
      (flushing : Flushing config stream content 0 state) (flushed : 0 = 0 → Flushed state)
      (run : sparseAppendLoop config fuel 0 state = (.ok (), final)) :
      Flushing config (stream ++ content) [] 0 final ∧ Flushed final ∧
        (Settled state.zbd.trace → Settled final.zbd.trace) := by
    have none : content = [] := by
      rw [← flushing.content]
      exact List.take_zero
    have same : final = state := by
      cases fuel <;> cases run <;> rfl
    rw [none, List.append_nil, same]
    exact ⟨none ▸ flushing, flushed rfl, id⟩

theorem ensureActiveZone_stream {final : FileState} (streamed : Streamed config stream state)
    (flying : Flying state)
    (idle : state.file.activeZone = none → Zwal.unsynced state.zbd.trace = [])
    (started : state.file.activeZone.isSome → state.file.extentStart = state.active.wp)
    (run : ensureActiveZone state = (.ok (), final)) :
    Quiet state final ∧ Flying final ∧ final.file.activeZone.isSome ∧
      final.file.extentStart = final.active.wp ∧
      (Settled state.zbd.trace → Settled final.zbd.trace) := by
  rw [ensureActiveZone, bind_read] at run
  cases active : state.file.activeZone with
  | some number =>
      rw [active] at run
      cases run
      exact ⟨.refl _, flying, by simp [active], started (by simp [active]), id⟩
  | none =>
      rw [active] at run
      replace run : allocateNewZone state = (.ok (), final) := run
      have quiet := (allocateNewZone_control state).quiet streamed.isWal
      rw [run] at quiet
      have settled : Zwal.unsynced final.zbd.trace = [] :=
        List.eq_nil_of_sublist_nil (idle active ▸ quiet.unsynced)
      refine ⟨quiet, fun call member => ?_, allocateNewZone_active run, allocateNewZone_started run,
        fun before => ?_⟩
      · simp [settled] at member
      · rcases quiet.trace with ⟨control, none, trace⟩
        rw [trace]
        exact before.control (idle active) none

theorem sparseAppend_stream (blocks : Blocks config) {fuel : Nat} {final : FileState}
    (streamed : Streamed config stream state) (flying : Flying state)
    (idle : state.file.activeZone = none → Zwal.unsynced state.zbd.trace = [])
    (started : state.file.activeZone.isSome → state.file.extentStart = state.active.wp)
    (positive : 0 < left) (fits : left + 16 ≤ config.sparseBufferSize)
    (settled : Zwal.unsynced state.zbd.trace = [] ∨ sparseBlockSize ∣ left + 16)
    (run : sparseAppend config fuel left state = (.ok (), final))
    (smooth : Smooth config final.zbd.trace) :
    Flushing config (stream ++ (state.buffer.drop 16).take left) [] 0 final ∧ Flushed final ∧
      (Settled state.zbd.trace → Settled final.zbd.trace) := by
  rcases bind_eq_ok run with ⟨_, middle, ensure, loop⟩
  rcases ensureActiveZone_stream streamed flying idle started ensure with
    ⟨quiet, flying, active, started, kept⟩
  have flushing : Flushing config stream ((state.buffer.drop 16).take left) left middle := by
    refine ⟨streamed.quiet quiet, flying, active, started, by rw [quiet.buffer], fits, ?_⟩
    rcases settled with settled | whole
    · exact .inr (.inl (List.eq_nil_of_sublist_nil (settled ▸ quiet.unsynced)))
    · exact .inr (.inr whole)
  rcases sparseAppendLoop_stream blocks flushing (fun none => absurd none (Nat.ne_of_gt positive))
    loop smooth with ⟨flushing, flushed, keptLoop⟩
  exact ⟨flushing, flushed, fun before => keptLoop (kept before)⟩

end Streamed

end FileState

end Zwal
