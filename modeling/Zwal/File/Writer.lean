import Zwal.File.Stream
import Zwal.File.WritableFile

/-! # Runs of a writer

Sequences of calls on a `ZonedWritableFile` in front of a write-ahead log, and the
bytes they leave in the log and in the buffer. -/

namespace Zwal

inductive WriterCall
  | append (data : Bytes)
  | sync
  | fsync
  | rangeSync (offset nbytes : Nat)
  deriving DecidableEq, Repr

namespace WriterCall

def data : WriterCall → Bytes
  | .append data => data
  | .sync | .fsync | .rangeSync _ _ => []

def run (config : BuildConfig) (fuel : Nat) : WriterCall → WritableProgram Unit
  | .append data => WritableFile.append config fuel data
  | .sync => WritableFile.sync config fuel
  | .fsync => WritableFile.fsync config fuel
  | .rangeSync offset nbytes => WritableFile.rangeSync config fuel offset nbytes

end WriterCall

def runCalls (config : BuildConfig) (fuel : Nat) : List WriterCall → WritableProgram Unit
  | [] => pure ()
  | call :: rest => do
      call.run config fuel
      runCalls config fuel rest

namespace WritableFile

open FileState

structure ForWal (writer : WritableFile) : Prop where
  isWal : writer.state.file.isWal = true
  isSparse : writer.state.file.isSparse = true
  buffered : writer.buffered = true

def Moves (config : BuildConfig) (before after : WritableFile) : Prop :=
  ForWal before → WalSteps config before.state after.state ∧ after.buffered = true

variable {config : BuildConfig} {fuel : Nat}

theorem Moves.forWal {before after : WritableFile} (moves : Moves config before after)
    (forWal : ForWal before) : ForWal after := by
  rcases moves forWal with ⟨steps, buffered⟩
  have kept := steps.extends forWal.isWal
  exact ⟨kept.isWal, kept.isSparse.trans forWal.isSparse, buffered⟩

instance : Std.Refl (Moves config) := ⟨fun _ forWal => ⟨.refl, forWal.buffered⟩⟩

instance : IsTrans WritableFile (Moves config) where
  trans _ _ _ one two forWal :=
    have rest := two (one.forWal forWal)
    ⟨(one forWal).1.trans rest.1, rest.2⟩

theorem onFile_moves {program : FileProgram Value} (respects : program.Respects (WalSteps config)) :
    (onFile program).Respects (Moves config) :=
  respects.within fun _ _ steps forWal => ⟨steps, forWal.buffered⟩

theorem control_moves {program : FileProgram Value} (respects : program.Respects ControlSteps) :
    (onFile program).Respects (Moves config) :=
  onFile_moves fun state => (respects state).wal

/-! ## The calls, unfolded -/

theorem flushBuffer_empty {writer : WritableFile} (empty : writer.bufferPos = 0) :
    flushBuffer config fuel writer = (.ok (), writer) := by
  rw [flushBuffer, bind_read, if_pos empty]
  rfl

theorem flushBuffer_sparse {writer : WritableFile} (some : writer.bufferPos ≠ 0)
    (isSparse : writer.state.file.isSparse = true) :
    flushBuffer config fuel writer = (do
      onFile (sparseAppend config fuel writer.bufferPos)
      Program.update fun writer =>
        { writer with wp := writer.wp + writer.bufferPos, bufferPos := 0 } :
      WritableProgram Unit) writer := by
  rw [flushBuffer, bind_read, if_neg some]
  simp only [isSparse, if_true]

theorem bufferedWriteLoop_cons (passes : Nat) (byte : UInt8) (rest : Bytes) (writer : WritableFile) :
    bufferedWriteLoop config fuel (passes + 1) (byte :: rest) writer =
      if writer.bufferSz - writer.bufferPos = 0 then
        (do
          flushBuffer config fuel
          Program.update (fill ((byte :: rest).take writer.bufferSz))
          bufferedWriteLoop config fuel passes ((byte :: rest).drop writer.bufferSz) :
          WritableProgram Unit) writer
      else
        (do
          Program.update (fill ((byte :: rest).take (writer.bufferSz - writer.bufferPos)))
          bufferedWriteLoop config fuel passes
            ((byte :: rest).drop (writer.bufferSz - writer.bufferPos)) :
          WritableProgram Unit) writer := by
  rw [bufferedWriteLoop, bind_read]
  by_cases full : writer.bufferSz - writer.bufferPos = 0
  · simp only [full, if_true]
  · simp only [full, if_false]

theorem dataSync_wal {writer : WritableFile} (forWal : ForWal writer) :
    dataSync config fuel writer = (do
      let _ ← (onFile walSync).attempt
      flushBuffer config fuel : WritableProgram Unit) writer := by
  rw [dataSync, bind_read]
  simp only [forWal.isWal, forWal.isSparse, forWal.buffered, if_true, Program.bind_unit]

theorem append_buffered {writer : WritableFile} (buffered : writer.buffered = true) (data : Bytes) :
    append config fuel data writer = bufferedWrite config fuel data writer := by
  rw [append, bind_read, if_pos buffered]

theorem fsync_sparse {writer middle : WritableFile}
    (synced : dataSync config fuel writer = (.ok (), middle))
    (isSparse : middle.state.file.isSparse = true) :
    fsync config fuel writer = onFile persistMetadata middle := by
  rw [fsync, bind_of_ok synced, bind_read, isSparse]
  simp

/-! ## The steps of the calls -/

theorem flushBuffer_moves : (flushBuffer config fuel).Respects (Moves config) := by
  intro writer forWal
  by_cases empty : writer.bufferPos = 0
  · rw [flushBuffer_empty empty]
    exact ⟨.refl, forWal.buffered⟩
  · rw [flushBuffer_sparse empty forWal.isSparse]
    refine ((onFile_moves (sparseAppend_steps fuel _)).bind fun _ => .update fun writer => ?_)
      writer forWal
    exact fun forWal => ⟨.refl, forWal.buffered⟩

theorem fill_moves (data : Bytes) (writer : WritableFile) : Moves config writer (fill data writer) :=
  fun forWal => ⟨(WalStep.scratch _ 0).steps, forWal.buffered⟩

theorem bufferedWriteLoop_moves (passes : Nat) (data : Bytes) :
    (bufferedWriteLoop config fuel passes data).Respects (Moves config) := by
  induction passes generalizing data with
  | zero =>
      cases data with
      | nil => exact .pure _
      | cons byte rest => exact .fail _
  | succ passes induction =>
      cases data with
      | nil => exact .pure _
      | cons byte rest =>
          intro writer
          rw [bufferedWriteLoop_cons]
          split
          · exact (flushBuffer_moves.bind fun _ => .bind (.update (fill_moves _)) fun _ =>
              induction _) writer
          · exact (Program.Respects.bind (.update (fill_moves _)) fun _ => induction _) writer

theorem dataSync_moves : (dataSync config fuel).Respects (Moves config) := by
  intro writer forWal
  rw [dataSync_wal forWal]
  exact ((control_moves walSync_control).attempt.bind fun _ => flushBuffer_moves) writer forWal

theorem run_moves (call : WriterCall) : (call.run config fuel).Respects (Moves config) := by
  cases call with
  | append data =>
      intro writer forWal
      show _ ∧ _
      rw [WriterCall.run, append_buffered forWal.buffered]
      exact bufferedWriteLoop_moves _ _ writer forWal
  | sync => exact dataSync_moves
  | fsync =>
      refine dataSync_moves.bind fun _ => Program.Respects.read.bind fun writer => ?_
      split
      · exact .pure _
      · exact control_moves persistMetadata_control
  | rangeSync offset nbytes =>
      refine Program.Respects.read.bind fun writer => ?_
      split
      · exact dataSync_moves
      · exact .pure _

theorem runCalls_moves (calls : List WriterCall) :
    (runCalls config fuel calls).Respects (Moves config) := by
  induction calls with
  | nil => exact .pure _
  | cons call calls induction => exact (run_moves call).bind fun _ => induction

theorem close_moves : (close config fuel).Respects (Moves config) := by
  refine Program.Respects.read.bind fun writer => ?_
  split
  · exact dataSync_moves.bind fun _ => (control_moves closeWR_control).bind fun _ =>
      .update fun writer forWal => ⟨.refl, forWal.buffered⟩
  · exact .pure _

/-! ## What a writer has taken -/

/-- A writer that took `stream` so far: what its log does not have is in the buffer. -/
structure Writing (config : BuildConfig) (stream : Bytes) (writer : WritableFile) : Prop where
  buffered : writer.buffered = true
  isOpen : writer.isOpen = true
  bufferStart : writer.bufferStart = 16
  bufferSz : writer.bufferSz = config.sparseBufferSize - 16
  bufferPos : writer.bufferPos ≤ writer.bufferSz
  streamed : ∃ flushed, Streamed config flushed writer.state ∧
    stream = flushed ++ (writer.state.buffer.drop 16).take writer.bufferPos
  flying : Flying writer.state
  idle : writer.state.file.activeZone = none → unsynced writer.state.zbd.trace = []
  started : writer.state.file.activeZone.isSome →
    writer.state.file.extentStart = writer.state.active.wp

section Writing

variable {stream : Bytes} {writer final : WritableFile}

theorem Writing.forWal (writing : Writing config stream writer) : ForWal writer := by
  rcases writing.streamed with ⟨flushed, streamed, _⟩
  exact ⟨streamed.isWal, streamed.isSparse, writing.buffered⟩

theorem Writing.all (writing : Writing config stream writer) (empty : writer.bufferPos = 0) :
    Streamed config stream writer.state := by
  rcases writing.streamed with ⟨flushed, streamed, rfl⟩
  rw [empty, List.take_zero, List.append_nil]
  exact streamed

theorem wide (blocks : Blocks config) : 4096 ≤ config.sparseBufferSize := by
  have positive : 0 < config.sparseBufferSize := Nat.mul_pos config.sparsePositive (by decide)
  exact Nat.le_of_dvd positive blocks.blocks

theorem Writing.fill (writing : Writing config stream writer) (blocks : Blocks config) (data : Bytes)
    (room : writer.bufferPos + data.length ≤ writer.bufferSz) :
    Writing config (stream ++ data) (fill data writer) := by
  rcases writing.streamed with ⟨flushed, streamed, rfl⟩
  have memory := streamed.memory
  have size := writing.bufferSz
  have large := wide blocks
  refine ⟨writing.buffered, writing.isOpen, writing.bufferStart, writing.bufferSz, room, ⟨flushed, ?_, ?_⟩,
    writing.flying, writing.idle, writing.started⟩
  · refine streamed.overwrite ?_
    rw [writing.bufferStart]
    omega
  · have prolonged := Bytes.take_drop_overwrite_end data
      (show 16 + writer.bufferPos ≤ writer.state.buffer.length by omega)
    rw [List.append_assoc, ← prolonged, ← writing.bufferStart]
    rfl

theorem Writing.flush (writing : Writing config stream writer) (blocks : Blocks config)
    (settled : unsynced writer.state.zbd.trace = [] ∨ writer.bufferPos = writer.bufferSz)
    (run : flushBuffer config fuel writer = (.ok (), final))
    (smooth : Smooth config final.state.zbd.trace) :
    Writing config stream final ∧ final.bufferPos = 0 ∧
      (writer.bufferPos ≠ 0 → Flushed final.state) ∧ (writer.bufferPos = 0 → final = writer) ∧
      (Settled writer.state.zbd.trace → Settled final.state.zbd.trace) := by
  by_cases empty : writer.bufferPos = 0
  · rw [flushBuffer_empty empty] at run
    cases run
    exact ⟨writing, empty, fun some => absurd empty some, fun _ => rfl, id⟩
  · rw [flushBuffer_sparse empty writing.forWal.isSparse] at run
    rcases bind_eq_ok run with ⟨_, middle, append, update⟩
    cases update
    rcases writing.streamed with ⟨flushed, streamed, rfl⟩
    have position := writing.bufferPos
    have size := writing.bufferSz
    have large := wide blocks
    have whole : writer.bufferPos = writer.bufferSz → sparseBlockSize ∣ writer.bufferPos + 16 := by
      intro full
      have total : writer.bufferPos + 16 = config.sparseBufferSize := by omega
      exact total ▸ blocks.blocks
    rcases appended : sparseAppend config fuel writer.bufferPos writer.state with
      ⟨failure | _, state⟩
    · rw [onFile, Program.within, appended] at append
      cases append
    · rw [onFile, Program.within, appended] at append
      cases append
      rcases sparseAppend_stream blocks streamed writing.flying writing.idle writing.started
        (Nat.pos_of_ne_zero empty) (by omega) (settled.imp_right whole) appended smooth with
        ⟨flushing, done, kept⟩
      refine ⟨⟨writing.buffered, writing.isOpen, writing.bufferStart, writing.bufferSz, Nat.zero_le _,
        ⟨_, flushing.streamed, by simp⟩, flushing.flying, fun none => ?_, fun _ => flushing.started⟩,
        rfl, fun _ => done, fun none => absurd none empty, kept⟩
      have active := flushing.active
      simp_all

theorem Moves.smooth_between {first second third : WritableFile} (one : Moves config first second)
    (two : Moves config second third) (writing : Writing config stream first)
    (smooth : Smooth config third.state.zbd.trace) : Smooth config second.state.zbd.trace := by
  have forWal := one.forWal writing.forWal
  exact (two forWal).1.smooth forWal.isWal smooth

def FilledZone (trace : List IoEvent) : Prop :=
  ∃ calls call, appendCalls trace = calls ++ [call] ∧ call.size = call.capacity

theorem Writing.quiet (writing : Writing config stream writer) {next : FileState}
    (quiet : Quiet writer.state next) (flying : Flying next)
    (idle : next.file.activeZone = none → unsynced next.zbd.trace = [])
    (started : next.file.activeZone.isSome → next.file.extentStart = next.active.wp) :
    Writing config stream { writer with state := next } := by
  rcases writing.streamed with ⟨flushed, streamed, rfl⟩
  refine ⟨writing.buffered, writing.isOpen, writing.bufferStart, writing.bufferSz, writing.bufferPos,
    ⟨flushed, streamed.quiet quiet, ?_⟩, flying, idle, started⟩
  show _ = flushed ++ (next.buffer.drop 16).take writer.bufferPos
  rw [quiet.buffer]

theorem Writing.dataSync (writing : Writing config stream writer) (blocks : Blocks config)
    (run : dataSync config fuel writer = (.ok (), final))
    (smooth : Smooth config final.state.zbd.trace) :
    Writing config stream final ∧ final.bufferPos = 0 ∧
      (unsynced final.state.zbd.trace = [] ↔
        writer.bufferPos = 0 ∨ FilledZone final.state.zbd.trace) ∧
      (Settled writer.state.zbd.trace → Settled final.state.zbd.trace) := by
  rw [dataSync_wal writing.forWal] at run
  rcases bind_eq_ok run with ⟨outcome, middle, sync, flush⟩
  have state : middle = { writer with state := (walSync writer.state).2 } := by
    cases sync
    rfl
  have quiet := (walSync_control writer.state).quiet writing.forWal.isWal
  have smoothMiddle : Smooth config middle.state.zbd.trace := by
    have syncMoves : Moves config writer ((onFile walSync).attempt writer).2 :=
      (control_moves walSync_control).attempt writer
    have flushMoves : Moves config middle (flushBuffer config fuel middle).2 :=
      flushBuffer_moves middle
    rw [sync] at syncMoves
    rw [flush] at flushMoves
    exact syncMoves.smooth_between flushMoves writing smooth
  subst state
  rcases walSync_settles writing.flying rfl smoothMiddle with ⟨settled, kept, file, zone⟩
  have flying : Flying (walSync writer.state).2 := fun call member => by simp [settled] at member
  have started : (walSync writer.state).2.file.activeZone.isSome →
      (walSync writer.state).2.file.extentStart = (walSync writer.state).2.active.wp := by
    rw [active, activeNumber, file, zone]
    exact writing.started
  rcases (writing.quiet quiet flying (fun _ => settled) started).flush blocks (.inl settled) flush
    smooth with ⟨written, empty, done, same, keptFlush⟩
  refine ⟨written, empty, ?_, fun before => keptFlush (kept before)⟩
  by_cases none : writer.bufferPos = 0
  · rw [same none]
    exact iff_of_true settled (.inl none)
  · rcases done none with ⟨calls, call, last, iff⟩
    rw [iff]
    refine ⟨fun full => .inr ⟨calls, call, last, full⟩, fun cases => ?_⟩
    rcases cases with zero | ⟨calls', call', last', full⟩
    · exact absurd zero none
    · rw [last] at last'
      have sameLast := (List.append_inj' last' rfl).2
      rw [List.singleton_inj.mp sameLast]
      exact full

theorem Writing.bufferedWrite (blocks : Blocks config) {passes : Nat} {data : Bytes}
    (writing : Writing config stream writer)
    (run : bufferedWriteLoop config fuel passes data writer = (.ok (), final))
    (smooth : Smooth config final.state.zbd.trace) : Writing config (stream ++ data) final ∧
      (Settled writer.state.zbd.trace → Settled final.state.zbd.trace) := by
  induction passes generalizing writer stream data with
  | zero =>
      cases data with
      | nil =>
          cases run
          rw [List.append_nil]
          exact ⟨writing, id⟩
      | cons byte rest => cases run
  | succ passes induction =>
      cases data with
      | nil =>
          cases run
          rw [List.append_nil]
          exact ⟨writing, id⟩
      | cons byte rest =>
          have size := writing.bufferSz
          have position := writing.bufferPos
          have large := wide blocks
          rw [bufferedWriteLoop_cons] at run
          by_cases full : writer.bufferSz - writer.bufferPos = 0
          · rw [if_pos full] at run
            rcases bind_eq_ok run with ⟨_, middle, flush, run⟩
            rcases bind_eq_ok run with ⟨_, filled, fill, loop⟩
            cases fill
            have flushMoves : Moves config writer (flushBuffer config fuel writer).2 :=
              flushBuffer_moves writer
            have loopMoves : Moves config middle (bufferedWriteLoop config fuel passes
                ((byte :: rest).drop writer.bufferSz)
                (WritableFile.fill ((byte :: rest).take writer.bufferSz) middle)).2 :=
              IsTrans.trans _ _ _ (fill_moves _ middle) (bufferedWriteLoop_moves _ _ _)
            rw [flush] at flushMoves
            rw [loop] at loopMoves
            rcases writing.flush blocks (.inr (by omega)) flush
              (flushMoves.smooth_between loopMoves writing smooth) with ⟨writing, empty, _, _, kept⟩
            have sameSize := writing.bufferSz
            have taken := writing.fill blocks ((byte :: rest).take writer.bufferSz)
              (by rw [List.length_take]; omega)
            have rest := induction taken loop
            rw [List.append_assoc, List.take_append_drop] at rest
            exact ⟨rest.1, fun before => rest.2 (kept before)⟩
          · rw [if_neg full] at run
            rcases bind_eq_ok run with ⟨_, filled, fill, loop⟩
            cases fill
            have taken := writing.fill blocks
              ((byte :: rest).take (writer.bufferSz - writer.bufferPos))
              (by rw [List.length_take]; omega)
            have rest := induction taken loop
            rwa [List.append_assoc, List.take_append_drop] at rest

theorem Writing.persistMetadata (writing : Writing config stream writer)
    (run : onFile persistMetadata writer = (.ok (), final)) :
    Writing config stream final ∧ final.bufferPos = writer.bufferPos ∧
      unsynced final.state.zbd.trace = unsynced writer.state.zbd.trace ∧
      appendCalls final.state.zbd.trace = appendCalls writer.state.zbd.trace ∧
      (Settled writer.state.zbd.trace → unsynced writer.state.zbd.trace = [] →
        Settled final.state.zbd.trace) := by
  rcases persisted : FileState.persistMetadata writer.state with ⟨failure | _, next⟩
  all_goals
    rw [onFile, Program.within, persisted] at run
    cases run
  have quiet := (persistMetadata_control writer.state).quiet writing.forWal.isWal
  rw [persisted] at quiet
  rcases persistMetadata_ok persisted with ⟨_, rfl⟩ | ⟨_, replies, rfl⟩
  · exact ⟨writing.quiet quiet writing.flying writing.idle writing.started, rfl, rfl, rfl,
      fun before _ => before⟩
  · have same : unsynced (writer.state.zbd.trace ++
        [.persist writer.state.file.record]) =
        unsynced writer.state.zbd.trace := by
      rw [unsynced_append]
      rfl
    refine ⟨writing.quiet quiet (fun call member => ?_) (fun none => ?_) writing.started, rfl, same,
      quiet.calls, fun before settled => before.append fun _ _ => settled⟩
    · exact writing.flying call (same ▸ member)
    · exact same.trans (writing.idle none)

theorem Writing.fsync (writing : Writing config stream writer) (blocks : Blocks config)
    (run : fsync config fuel writer = (.ok (), final))
    (smooth : Smooth config final.state.zbd.trace) :
    Writing config stream final ∧ final.bufferPos = 0 ∧
      (unsynced final.state.zbd.trace = [] ↔
        writer.bufferPos = 0 ∨ FilledZone final.state.zbd.trace) ∧
      (Settled writer.state.zbd.trace → unsynced final.state.zbd.trace = [] →
        Settled final.state.zbd.trace) := by
  rcases bind_eq_ok run with ⟨_, middle, synced, rest⟩
  have syncMoves : Moves config writer (WritableFile.dataSync config fuel writer).2 :=
    dataSync_moves writer
  rw [synced] at syncMoves
  have forWal := syncMoves.forWal writing.forWal
  rw [fsync_sparse synced forWal.isSparse] at run
  have persistMoves : Moves config middle (onFile FileState.persistMetadata middle).2 :=
    control_moves persistMetadata_control middle
  rw [run] at persistMoves
  rcases writing.dataSync blocks synced (syncMoves.smooth_between persistMoves writing smooth) with
    ⟨written, empty, iff, kept⟩
  rcases written.persistMetadata run with ⟨persisted, position, same, calls, keptPersist⟩
  refine ⟨persisted, position.trans empty, ?_, fun before settled => ?_⟩
  · rw [same, iff, FilledZone, FilledZone, calls]
  · exact keptPersist (kept before) (same ▸ settled)

/-- Every `Fsync` finds an empty buffer or fills the zone it flushes to. -/
def Careful (config : BuildConfig) (fuel : Nat) : List WriterCall → WritableFile → Prop
  | [], _ => True
  | call :: rest, writer =>
      (call = .fsync → writer.bufferPos = 0 ∨
        FilledZone (call.run config fuel writer).2.state.zbd.trace) ∧
      Careful config fuel rest (call.run config fuel writer).2

theorem Writing.run (writing : Writing config stream writer) (blocks : Blocks config)
    (call : WriterCall) (small : call.data.length < 2 ^ 32)
    (run : call.run config fuel writer = (.ok (), final))
    (smooth : Smooth config final.state.zbd.trace) :
    Writing config (stream ++ call.data) final ∧
      (Settled writer.state.zbd.trace →
        (call = .fsync → writer.bufferPos = 0 ∨ FilledZone final.state.zbd.trace) →
        Settled final.state.zbd.trace) := by
  cases call with
  | append data =>
      have short : data.length % 2 ^ 32 = data.length := Nat.mod_eq_of_lt small
      rw [WriterCall.run, append_buffered writing.buffered, WritableFile.bufferedWrite] at run
      simp only [short, List.take_length] at run
      rcases Writing.bufferedWrite blocks writing run smooth with ⟨written, kept⟩
      exact ⟨written, fun before _ => kept before⟩
  | sync =>
      rw [WriterCall.data, List.append_nil]
      rcases writing.dataSync blocks run smooth with ⟨written, _, _, kept⟩
      exact ⟨written, fun before _ => kept before⟩
  | fsync =>
      rw [WriterCall.data, List.append_nil]
      rcases writing.fsync blocks run smooth with ⟨written, _, settled, kept⟩
      exact ⟨written, fun before careful => kept before (settled.mpr (careful rfl))⟩
  | rangeSync offset nbytes =>
      rw [WriterCall.data, List.append_nil]
      rw [WriterCall.run, rangeSync, bind_read] at run
      split at run
      · rcases writing.dataSync blocks run smooth with ⟨written, _, _, kept⟩
        exact ⟨written, fun before _ => kept before⟩
      · cases run
        exact ⟨writing, fun before _ => before⟩

theorem Writing.runCalls (blocks : Blocks config) (calls : List WriterCall)
    (writing : Writing config stream writer) (small : ∀ call ∈ calls, call.data.length < 2 ^ 32)
    (run : runCalls config fuel calls writer = (.ok (), final))
    (smooth : Smooth config final.state.zbd.trace) :
    Writing config (stream ++ calls.flatMap WriterCall.data) final ∧
      (Settled writer.state.zbd.trace → Careful config fuel calls writer →
        Settled final.state.zbd.trace) := by
  induction calls generalizing writer stream with
  | nil =>
      cases run
      rw [List.flatMap_nil, List.append_nil]
      exact ⟨writing, fun before _ => before⟩
  | cons call calls induction =>
      rcases bind_eq_ok run with ⟨_, middle, first, rest⟩
      have firstMoves : Moves config writer (call.run config fuel writer).2 := run_moves call writer
      have restMoves : Moves config middle (Zwal.runCalls config fuel calls middle).2 :=
        runCalls_moves calls middle
      rw [first] at firstMoves
      rw [rest] at restMoves
      rcases writing.run blocks call (small call List.mem_cons_self) first
        (firstMoves.smooth_between restMoves writing smooth) with ⟨written, kept⟩
      rcases induction written (fun other member => small other (List.mem_cons_of_mem _ member)) rest
        with ⟨last, keptRest⟩
      rw [List.flatMap_cons, ← List.append_assoc]
      refine ⟨last, fun before careful => ?_⟩
      rw [Careful, first] at careful
      exact keptRest (kept before careful.1) careful.2

theorem Writing.close (writing : Writing config stream writer) (blocks : Blocks config)
    (run : close config fuel writer = (.ok (), final))
    (smooth : Smooth config final.state.zbd.trace) : Streamed config stream final.state ∧
      (Settled writer.state.zbd.trace →
        writer.bufferPos = 0 ∨ FilledZone final.state.zbd.trace → Settled final.state.zbd.trace) := by
  rw [WritableFile.close, bind_read, if_pos writing.isOpen] at run
  rcases bind_eq_ok run with ⟨_, middle, synced, run⟩
  rcases bind_eq_ok run with ⟨_, closed, close, update⟩
  cases update
  have syncMoves : Moves config writer (WritableFile.dataSync config fuel writer).2 :=
    dataSync_moves writer
  have closeMoves : Moves config middle (onFile closeWR middle).2 := control_moves closeWR_control middle
  rw [synced] at syncMoves
  rw [close] at closeMoves
  rcases writing.dataSync blocks synced (syncMoves.smooth_between closeMoves writing smooth) with
    ⟨written, empty, settled, kept⟩
  have quiet := (closeWR_control middle.state).quiet written.forWal.isWal
  have state : closed.state = (closeWR middle.state).2 :=
    (congrArg (fun outcome => outcome.2.state) close).symm
  show Streamed config stream closed.state ∧ (_ → _ ∨ FilledZone closed.state.zbd.trace →
    Settled closed.state.zbd.trace)
  rw [state]
  refine ⟨(written.all empty).quiet quiet, fun before careful => ?_⟩
  rw [FilledZone, quiet.calls] at careful
  rcases quiet.trace with ⟨control, none, trace⟩
  rw [trace]
  exact (kept before).control (settled.mpr careful) none

end Writing

end WritableFile

end Zwal
