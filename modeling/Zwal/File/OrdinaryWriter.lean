import Zwal.File.BufferedWrites
import Zwal.File.Writer

/-! # Writers of ordinary files

A buffered writer in front of a file that is no write-ahead log. What it took is in the
extents of the file and then in the buffer, as long as no flush stopped half-way. -/

namespace Zwal.WritableFile

open FileState ZonedBlockDevice

/-- The writer stands at the end of the file, and the next extent starts where the next
bytes will be written. -/
structure Steady (writer : WritableFile) : Prop where
  position : writer.wp = writer.state.file.fileSize
  started : Started writer.state
  blocked : Blocked writer.state.zbd

instance (state : FileState) : Decidable (Started state) :=
  decidable_of_iff (∀ number ∈ state.file.activeZone.toList,
      state.file.extentStart = (state.zbd.zone number).wp) <| by
    simp only [Option.mem_toList, Started]

instance (zbd : ZonedBlockDevice) : Decidable (Blocked zbd) :=
  decidable_of_iff (zbd.blockSize ∣ zbd.zoneSize ∧
      (∀ number ∈ zbd.ioZones, zbd.blockSize ∣ (zbd.zone number).start) ∧
      (∀ number ∈ zbd.ioZones, zbd.blockSize ∣ (zbd.zone number).wp) ∧
      ∀ number ∈ zbd.ioZones, zbd.blockSize ∣ (zbd.zone number).capacity)
    ⟨fun blocked => ⟨blocked.1, blocked.2.1, blocked.2.2.1, blocked.2.2.2⟩,
      fun blocked => ⟨blocked.size, blocked.start, blocked.wp, blocked.capacity⟩⟩

instance (writer : WritableFile) : Decidable (Steady writer) :=
  decidable_of_iff (writer.wp = writer.state.file.fileSize ∧ Started writer.state ∧
      Blocked writer.state.zbd)
    ⟨fun steady => ⟨steady.1, steady.2.1, steady.2.2⟩,
      fun steady => ⟨steady.position, steady.started, steady.blocked⟩⟩

/-- A writer that took `stream`. The extents hold a prefix of it; the rest is in the buffer
if no flush has left the writer behind its file. -/
structure Holds (memory : Nat → UInt8) (stream : Bytes) (writer : WritableFile) : Prop where
  buffered : writer.buffered = true
  sound : Sound writer
  plain : Plain writer.state.file
  laid : Laid writer.state
  size : writer.state.file.fileSize = (content memory writer.state).length
  kept : content memory writer.state <+: stream
  pending : writer.wp = writer.state.file.fileSize → Started writer.state →
    content memory writer.state ++ writer.state.buffer.take writer.bufferPos = stream

structure Onward (before after : WritableFile) : Prop where
  aligned : Aligned before.state → Aligned after.state
  supplied : Supplied before.state → Supplied after.state

instance : Std.Refl Onward := ⟨fun _ => ⟨id, id⟩⟩

instance : IsTrans WritableFile Onward where
  trans _ _ _ one two := ⟨two.aligned ∘ one.aligned, two.supplied ∘ one.supplied⟩

variable {memory : Nat → UInt8} {stream : Bytes} {writer : WritableFile}

theorem Holds.bounds (holds : Holds memory stream writer) : Buffered writer :=
  holds.sound.plain holds.plain.isSparse

theorem Holds.whole (holds : Holds memory stream writer) (steady : Steady writer) :
    content memory writer.state ++ writer.state.buffer.take writer.bufferPos = stream :=
  holds.pending steady.position steady.started

theorem Holds.keep (holds : Holds memory stream writer) {state : FileState}
    (keeps : Keeps writer.state state) (buffer : state.buffer = writer.state.buffer)
    (placed : ∀ number, state.file.activeZone = some number → number ∈ writer.state.zbd.ioZones)
    (whole : content memory writer.state ++ writer.state.buffer.take writer.bufferPos = stream) :
    Holds memory stream { writer with state := state } := by
  have bounds := holds.bounds
  have same : content memory state = content memory writer.state := keeps.content memory
  refine ⟨holds.buffered, ⟨?_, fun _ => ⟨?_, bounds.start, bounds.size, bounds.filled⟩⟩,
    keeps.plain holds.plain, keeps.laid holds.laid placed, ?_, ?_, fun _ _ => ?_⟩
  · exact keeps.device.fixed.blockSize ▸ holds.sound.blocks
  · exact (congrArg List.length buffer).trans bounds.memory
  · exact (keeps.fileSize.trans holds.size).trans (congrArg List.length same.symm)
  · exact same ▸ holds.kept
  · exact (congrArg₂ (fun (front rest : Bytes) => front ++ rest.take writer.bufferPos)
      same buffer).trans whole

theorem Holds.stopped (holds : Holds memory stream writer) (steady : Steady writer)
    {state : FileState} {taken : Nat} (stopped : Stopped writer.state writer.bufferPos taken state) :
    Holds memory stream { writer with state := state } := by
  have bounds := holds.bounds
  have whole := holds.whole steady
  have landed := stopped.flushed
  have content := landed.content memory
  have width : ((writer.state.buffer.take writer.bufferPos).take taken).length = taken := by
    rw [List.length_take, List.length_take, bounds.memory]
    have part := stopped.part
    have filled := bounds.filled
    omega
  refine ⟨holds.buffered, ⟨?_, fun _ => ⟨landed.memory.trans bounds.memory, bounds.start,
    bounds.size, bounds.filled⟩⟩, landed.plain, landed.laid, ?_, ?_, fun position _ => ?_⟩
  · exact landed.fixed.blockSize ▸ holds.sound.blocks
  · show state.file.fileSize = (FileState.content memory state).length
    rw [content, List.length_append, width, landed.fileSize, holds.size]
  · show FileState.content memory state <+: stream
    rw [content, ← whole]
    exact (List.prefix_append_right_inj _).mpr (List.take_prefix _ _)
  · -- The writer is where the file ends, so the flush took nothing.
    have none : taken = 0 := by
      have ending : writer.wp = state.file.fileSize := position
      rw [landed.fileSize, ← steady.position] at ending
      omega
    show FileState.content memory state ++ state.buffer.take writer.bufferPos = stream
    rw [content, stopped.intact none, none, List.take_zero, List.append_nil]
    exact whole

def flushedTo (state : FileState) (writer : WritableFile) : WritableFile :=
  { writer with state := state, wp := writer.wp + writer.bufferPos, bufferPos := 0 }

theorem Holds.flushed (holds : Holds memory stream writer) (steady : Steady writer)
    {state : FileState}
    (landed : Landed writer.state (writer.state.buffer.take writer.bufferPos) writer.bufferPos state)
    (poised : Poised state) :
    Holds memory stream (flushedTo state writer) ∧ Steady (flushedTo state writer) := by
  have bounds := holds.bounds
  have content : FileState.content memory state = stream := by
    rw [landed.content, List.take_take, Nat.min_self]
    exact holds.whole steady
  have width : (writer.state.buffer.take writer.bufferPos).length = writer.bufferPos := by
    rw [List.length_take, bounds.memory]
    exact Nat.min_eq_left bounds.filled
  have size : state.file.fileSize = stream.length := by
    rw [landed.fileSize, holds.size, ← holds.whole steady, List.length_append, width]
  refine ⟨⟨holds.buffered, ⟨?_, fun _ => ⟨landed.memory.trans bounds.memory, bounds.start,
    bounds.size, Nat.zero_le _⟩⟩, landed.plain, landed.laid, ?_, ?_, fun _ _ => ?_⟩,
    ⟨?_, poised.started, poised.blocked⟩⟩
  · exact landed.fixed.blockSize ▸ holds.sound.blocks
  · exact size.trans (congrArg List.length content.symm)
  · exact content ▸ List.prefix_rfl
  · exact (List.append_nil _).trans content
  · exact (congrArg (· + writer.bufferPos) steady.position).trans landed.fileSize.symm

section Calls

variable (config : BuildConfig) (fuel : Nat)

theorem flushBuffer_holds (holds : Holds memory stream writer) (steady : Steady writer) :
    match flushBuffer config fuel writer with
    | (.ok (), next) => Holds memory stream next ∧ Steady next ∧ next.bufferPos = 0 ∧
        next.wp = writer.wp + writer.bufferPos ∧ Onward writer next
    | (.error failure, next) => failure = .never ∨
        (Holds memory stream next ∧ next.wp = writer.wp ∧ next.bufferPos = writer.bufferPos) := by
  have bounds := holds.bounds
  rw [flushBuffer, bind_read]
  by_cases empty : writer.bufferPos = 0
  · rw [if_pos empty]
    exact ⟨holds, steady, empty, by rw [empty, Nat.add_zero], Std.Refl.refl _⟩
  · rw [if_neg empty, if_neg (by rw [holds.plain.isSparse]; exact Bool.false_ne_true)]
    have ended := bufferedAppend_ends config fuel holds.plain holds.laid steady.started steady.blocked
      (⟨holds.sound.blocks, bounds.memory, bounds.filled⟩ : Fits writer.state writer.bufferPos)
    rcases run : bufferedAppend config fuel writer.bufferPos writer.state with ⟨failure | _, state⟩
    all_goals rw [run] at ended
    · have failed : onFile (bufferedAppend config fuel writer.bufferPos) writer =
          (.error failure, { writer with state := state }) := by
        simp only [onFile, Program.within, run]
      rw [bind_of_error failed]
      refine ended.imp_right fun stops => ?_
      rcases stops with ⟨taken, stopped⟩
      exact ⟨holds.stopped steady stopped, rfl, rfl⟩
    · have done : onFile (bufferedAppend config fuel writer.bufferPos) writer =
          (.ok (), { writer with state := state }) := by
        simp only [onFile, Program.within, run]
      rw [bind_of_ok done]
      have after := holds.flushed steady ended.1 ended.2.1
      exact ⟨after.1, after.2, rfl, rfl, ended.1.aligned, ended.2.2⟩

theorem Holds.fill (holds : Holds memory stream writer) (steady : Steady writer) {data : Bytes}
    (room : writer.bufferPos + data.length ≤ writer.bufferSz) :
    Holds memory (stream ++ data) (fill data writer) ∧ Steady (WritableFile.fill data writer) := by
  have bounds := holds.bounds
  rw [bounds.size] at room
  have inside : writer.bufferPos ≤ writer.state.buffer.length := by
    rw [bounds.memory]
    exact bounds.filled
  have longer := @Bytes.take_overwrite_end writer.state.buffer data writer.bufferPos inside
  have moved := fill_moved (fun _ => by rw [bounds.size]; exact room) holds.sound
  refine ⟨⟨holds.buffered, moved.sound holds.sound, holds.plain,
    ⟨holds.laid.spaced, holds.laid.inside, holds.laid.held⟩, holds.size,
    holds.kept.trans (List.prefix_append _ _), fun position started => ?_⟩,
    ⟨steady.position, steady.started, steady.blocked⟩⟩
  have whole := holds.pending position started
  show content memory writer.state ++ (writer.state.buffer.overwrite
    (writer.bufferStart + writer.bufferPos) data).take (writer.bufferPos + data.length) = stream ++ data
  rw [bounds.start, Nat.zero_add, longer, ← List.append_assoc, whole]

theorem makeRoom_holds (holds : Holds memory stream writer) (steady : Steady writer) :
    match makeRoom config fuel writer with
    | (.ok (), next) => Holds memory stream next ∧ Steady next ∧
        next.wp + next.bufferPos = writer.wp + writer.bufferPos ∧
        next.bufferPos + (if writer.bufferSz - writer.bufferPos = 0 then writer.bufferSz
          else writer.bufferSz - writer.bufferPos) ≤ next.bufferSz ∧ Onward writer next
    | (.error failure, next) => failure = .never ∨
        (Holds memory stream next ∧ next.wp + next.bufferPos = writer.wp + writer.bufferPos) := by
  have bounds := holds.bounds
  rw [makeRoom, bind_read]
  by_cases full : writer.bufferSz - writer.bufferPos = 0
  · rw [if_pos full, if_pos full]
    have flushed := flushBuffer_holds config fuel holds steady
    rcases run : flushBuffer config fuel writer with ⟨failure | _, next⟩
    all_goals rw [run] at flushed
    · refine flushed.imp_right fun stopped => ⟨stopped.1, ?_⟩
      rw [stopped.2.1, stopped.2.2]
    · rcases flushed with ⟨after, steady, empty, position, onward⟩
      refine ⟨after, steady, ?_, ?_, onward⟩
      · rw [empty, position, Nat.add_zero]
      · rw [empty, after.bounds.size, bounds.size, Nat.zero_add]
  · rw [if_neg full, if_neg full]
    refine ⟨holds, steady, rfl, ?_, Std.Refl.refl _⟩
    omega

theorem bufferedWriteLoop_holds (passes : Nat) (data : Bytes) (holds : Holds memory stream writer)
    (steady : Steady writer) :
    match bufferedWriteLoop config fuel passes data writer with
    | (.ok (), next) => Holds memory (stream ++ data) next ∧ Steady next ∧
        next.wp + next.bufferPos = writer.wp + writer.bufferPos + data.length ∧ Onward writer next
    | (.error failure, next) => failure = .never ∨ ∃ taken, taken ≤ data.length ∧
        Holds memory (stream ++ data.take taken) next ∧
        next.wp + next.bufferPos = writer.wp + writer.bufferPos + taken := by
  induction passes generalizing data stream writer with
  | zero =>
      cases data with
      | nil => exact ⟨by rwa [List.append_nil], steady, rfl, Std.Refl.refl _⟩
      | cons => exact .inl rfl
  | succ passes induction =>
      cases data with
      | nil => exact ⟨by rwa [List.append_nil], steady, rfl, Std.Refl.refl _⟩
      | cons byte rest =>
          rw [bufferedWriteLoop_succ, bind_read]
          generalize room : (if writer.bufferSz - writer.bufferPos = 0 then writer.bufferSz
            else writer.bufferSz - writer.bufferPos) = bufferLeft
          generalize byte :: rest = data
          have made := makeRoom_holds config fuel holds steady
          rw [room] at made
          rcases run : makeRoom config fuel writer with ⟨failure | _, next⟩
          all_goals rw [run] at made
          · rw [bind_of_error run]
            refine made.imp_right fun stopped => ⟨0, Nat.zero_le _, ?_, stopped.2⟩
            rw [List.take_zero, List.append_nil]
            exact stopped.1
          · rw [bind_of_ok run, bind_update]
            rcases made with ⟨holds, steady, position, space, early⟩
            have filled := holds.fill steady (show next.bufferPos + (data.take bufferLeft).length ≤
              next.bufferSz by rw [List.length_take]; omega)
            have onward := induction (data.drop bufferLeft) filled.1 filled.2
            have sizes : (data.take bufferLeft).length + (data.drop bufferLeft).length = data.length := by
              rw [← List.length_append, List.take_append_drop]
            have reached : (fill (data.take bufferLeft) next).wp +
                (fill (data.take bufferLeft) next).bufferPos =
                  writer.wp + writer.bufferPos + (data.take bufferLeft).length := by
              rw [← position, Nat.add_assoc]
              rfl
            rw [List.append_assoc, List.take_append_drop, reached, Nat.add_assoc, sizes] at onward
            rcases loop : bufferedWriteLoop config fuel passes (data.drop bufferLeft)
              (fill (data.take bufferLeft) next) with ⟨failure | _, final⟩
            all_goals rw [loop] at onward
            · refine onward.imp_right fun stopped => ?_
              rcases stopped with ⟨taken, part, held, ended⟩
              refine ⟨(data.take bufferLeft).length + taken, by omega, ?_, ?_⟩
              · have joined := @List.take_length_add_append _ (data.take bufferLeft)
                  (data.drop bufferLeft) taken
                rw [List.take_append_drop] at joined
                rw [joined, ← List.append_assoc]
                exact held
              · omega
            · rcases onward with ⟨held, still, reached, late⟩
              have copied : Onward next (fill (data.take bufferLeft) next) :=
                ⟨id, fun supplied => ⟨supplied.writable, supplied.room⟩⟩
              exact ⟨held, still, reached, trans_of Onward (trans_of Onward early copied) late⟩

theorem append_holds {data : Bytes} (holds : Holds memory stream writer) (steady : Steady writer)
    (small : data.length < 2 ^ 32) :
    match append config fuel data writer with
    | (.ok (), next) => Holds memory (stream ++ data) next ∧ Steady next ∧ Onward writer next
    | (.error failure, next) => failure = .never ∨ ∃ taken, taken ≤ data.length ∧
        Holds memory (stream ++ data.take taken) next ∧
        next.wp + next.bufferPos = writer.wp + writer.bufferPos + taken := by
  have uncut : data.take (data.length % 2 ^ 32) = data := by
    rw [Nat.mod_eq_of_lt small, List.take_length]
  have written := bufferedWriteLoop_holds config fuel data.length data holds steady
  rw [append_buffered holds.buffered, bufferedWrite, uncut]
  rcases run : bufferedWriteLoop config fuel data.length data writer with ⟨failure | _, next⟩
  all_goals rw [run] at written
  · exact written
  · exact ⟨written.1, written.2.1, written.2.2.2⟩

theorem persistMetadata_holds (holds : Holds memory stream writer) (steady : Steady writer) :
    match onFile persistMetadata writer with
    | (.ok (), next) => Holds memory stream next ∧ Steady next ∧
        next.bufferPos = writer.bufferPos ∧ Onward writer next
    | (.error _, next) => Holds memory stream next := by
  have saved := persistMetadata_saved writer.state
  have keeps := saved.keeps
  rcases run : persistMetadata writer.state with ⟨outcome, state⟩
  rw [run] at saved keeps
  have active : state.file.activeZone = writer.state.file.activeZone := by rw [saved.file]
  have after := holds.keep keeps saved.buffer (fun number found =>
    holds.laid.held number (active ▸ found)) (holds.whole steady)
  have unfolded : onFile persistMetadata writer = (outcome, { writer with state := state }) := by
    simp only [onFile, Program.within, run]
  rw [unfolded]
  cases outcome with
  | error failure => exact after
  | ok =>
      refine ⟨after, ⟨?_, fun number found => ?_, ?_⟩, rfl, keeps.aligned, fun supplied =>
        ⟨keeps.device.writable holds.laid.spaced supplied.writable, fun number found => ?_⟩⟩
      · exact steady.position.trans keeps.fileSize.symm
      · have start : state.file.extentStart = writer.state.file.extentStart := by rw [saved.file]
        exact (start.trans (steady.started number (active ▸ found))).trans
          (congrArg (fun zone => (zone number).wp) saved.zone.symm)
      · exact keeps.device.blocked holds.laid.spaced steady.blocked
      · rw [saved.zone]
        exact supplied.room number (active ▸ found)

theorem dataSync_holds (holds : Holds memory stream writer) (steady : Steady writer) :
    match dataSync config fuel writer with
    | (.ok (), next) => Holds memory stream next ∧ Steady next ∧ next.bufferPos = 0 ∧
        Onward writer next
    | (.error failure, next) => failure = .never ∨ Holds memory stream next := by
  have unfolded : dataSync config fuel writer =
      (flushBuffer config fuel >>= fun _ => onFile persistMetadata : WritableProgram Unit) writer := by
    rw [dataSync, bind_read,
      if_neg (by rw [holds.plain.isWal]; exact Bool.false_ne_true), holds.buffered,
      holds.plain.isSparse]
    rfl
  have flushed := flushBuffer_holds config fuel holds steady
  rw [unfolded]
  rcases run : flushBuffer config fuel writer with ⟨failure | _, next⟩
  all_goals rw [run] at flushed
  · rw [bind_of_error run]
    exact flushed.imp_right And.left
  · rw [bind_of_ok run]
    rcases flushed with ⟨after, still, empty, _, early⟩
    have persisted := persistMetadata_holds after still
    rcases persist : onFile persistMetadata next with ⟨failure | _, final⟩
    all_goals rw [persist] at persisted
    · exact .inr persisted
    · rcases persisted with ⟨held, steady, same, late⟩
      exact ⟨held, steady, same.trans empty, trans_of Onward early late⟩

theorem fsync_buffered (holds : Holds memory stream writer) (steady : Steady writer) :
    fsync config fuel writer = dataSync config fuel writer := by
  have synced := dataSync_holds config fuel holds steady
  rw [fsync]
  rcases run : dataSync config fuel writer with ⟨failure | _, next⟩
  all_goals rw [run] at synced
  · exact bind_of_error run
  · rw [bind_of_ok run, bind_read, synced.1.buffered, synced.1.plain.isSparse]
    rfl

theorem closeWR_keeps {state : FileState} (isWal : state.file.isWal = false) :
    Keeps state (closeWR state).2 ∧ (closeWR state).2.buffer = state.buffer ∧
      ∀ number, (closeWR state).2.file.activeZone = some number →
        state.file.activeZone = some number := by
  rw [closeWR, bind_setFile]
  have unset : Keeps state { state with file := { state.file with extentStart := noExtent } } :=
    ⟨Std.Refl.refl _, rfl, rfl, rfl, rfl⟩
  have saved := persistMetadata_saved
    { state with file := { state.file with extentStart := noExtent } }
  have keeps := saved.keeps
  rcases run : persistMetadata { state with file := { state.file with extentStart := noExtent } } with
    ⟨failure | _, next⟩
  all_goals
    rw [run] at saved keeps
    have early := trans_of Keeps unset keeps
    have active : next.file.activeZone = state.file.activeZone := by rw [saved.file]
  · rw [bind_of_error run]
    exact ⟨early, saved.buffer, fun number found => active ▸ found⟩
  · rw [bind_of_ok run, bind_setFile]
    have unlocked : Keeps next { next with file := { next.file with openForWr := false } } :=
      ⟨Std.Refl.refl _, rfl, rfl, rfl, rfl⟩
    have closed := @closeActiveZone_keeps { next with file := { next.file with openForWr := false } }
      (keeps.isWal.trans isWal)
    refine ⟨trans_of Keeps early (trans_of Keeps unlocked closed.1),
      closed.2.2.1.trans saved.buffer, fun number found => ?_⟩
    rw [closed.2.1] at found
    cases found

theorem close_holds (holds : Holds memory stream writer) (steady : Steady writer) :
    match close config fuel writer with
    | (.ok (), next) => Holds memory stream next
    | (.error failure, next) => failure = .never ∨ Holds memory stream next := by
  rw [close, bind_read]
  by_cases opened : writer.isOpen = true
  · rw [if_pos opened]
    have synced := dataSync_holds config fuel holds steady
    rcases run : dataSync config fuel writer with ⟨failure | _, next⟩
    all_goals rw [run] at synced
    · rw [bind_of_error run]
      exact synced
    · rw [bind_of_ok run]
      rcases synced with ⟨after, still, empty, _⟩
      rcases closeWR_keeps after.plain.isWal with ⟨keeps, buffer, active⟩
      rcases shut : closeWR next.state with ⟨outcome, state⟩
      rw [shut] at keeps buffer active
      have final := after.keep keeps buffer (fun number found =>
        after.laid.held number (active number found)) (after.whole still)
      have unfolded : onFile closeWR next = (outcome, { next with state := state }) := by
        simp only [onFile, Program.within, shut]
      cases outcome with
      | error failure =>
          rw [bind_of_error unfolded]
          exact .inr final
      | ok =>
          rw [bind_of_ok unfolded]
          exact ⟨final.buffered, ⟨final.sound.blocks, fun plain => by
            have bounds := final.sound.plain plain
            exact ⟨bounds.memory, bounds.start, bounds.size, bounds.filled⟩⟩, final.plain,
            final.laid, final.size, final.kept, final.pending⟩
  · rw [if_neg opened]
    exact holds

end Calls

/-! ## Fuel

No flush holds more than a mebibyte, so that this is fuel enough for every call. -/

section Fuel

variable (config : BuildConfig) {fuel more : Nat}

theorem flushBuffer_fuel (holds : Holds memory stream writer) (steady : Steady writer)
    (supplied : Supplied writer.state) (enough : 2 ^ 20 ≤ fuel) (also : 2 ^ 20 ≤ more) :
    flushBuffer config fuel writer = flushBuffer config more writer := by
  have bounds := holds.bounds
  have appended := bufferedAppend_fuel config holds.plain holds.laid steady.started steady.blocked
    (⟨holds.sound.blocks, bounds.memory, bounds.filled⟩ : Fits writer.state writer.bufferPos) supplied
    (Nat.le_trans bounds.filled enough) (Nat.le_trans bounds.filled also)
  have same : onFile (bufferedAppend config fuel writer.bufferPos) writer =
      onFile (bufferedAppend config more writer.bufferPos) writer := by
    simp only [onFile, Program.within, appended]
  rw [flushBuffer, flushBuffer, bind_read, bind_read]
  by_cases empty : writer.bufferPos = 0
  · rw [if_pos empty, if_pos empty]
  · have plain : ¬ writer.state.file.isSparse = true := by
      rw [holds.plain.isSparse]
      exact Bool.false_ne_true
    rw [if_neg empty, if_neg empty, if_neg plain, if_neg plain]
    exact bind_of_eq same _

theorem bufferedWriteLoop_fuel (passes : Nat) (data : Bytes) (holds : Holds memory stream writer)
    (steady : Steady writer) (supplied : Supplied writer.state) (enough : 2 ^ 20 ≤ fuel)
    (also : 2 ^ 20 ≤ more) :
    bufferedWriteLoop config fuel passes data writer = bufferedWriteLoop config more passes data writer := by
  induction passes generalizing data stream writer with
  | zero =>
      cases data with
      | nil | cons => rfl
  | succ passes induction =>
      cases data with
      | nil => rfl
      | cons byte rest =>
          rw [bufferedWriteLoop_succ, bufferedWriteLoop_succ, bind_read, bind_read]
          generalize room : (if writer.bufferSz - writer.bufferPos = 0 then writer.bufferSz
            else writer.bufferSz - writer.bufferPos) = bufferLeft
          generalize byte :: rest = data
          have same : makeRoom config fuel writer = makeRoom config more writer := by
            have flushes := flushBuffer_fuel config holds steady supplied enough also
            rw [makeRoom, makeRoom, bind_read, bind_read]
            split
            · exact flushes
            · rfl
          rw [bind_of_eq same]
          have made := makeRoom_holds config more holds steady
          rw [room] at made
          rcases run : makeRoom config more writer with ⟨failure | _, next⟩
          all_goals rw [run] at made
          · rw [bind_of_error run, bind_of_error run]
          · rw [bind_of_ok run, bind_of_ok run, bind_update, bind_update]
            rcases made with ⟨held, still, _, space, onward⟩
            have filled := held.fill still (show next.bufferPos + (data.take bufferLeft).length ≤
              next.bufferSz by rw [List.length_take]; omega)
            have supply := onward.supplied supplied
            exact induction _ filled.1 filled.2 ⟨supply.writable, supply.room⟩

theorem dataSync_fuel (holds : Holds memory stream writer) (steady : Steady writer)
    (supplied : Supplied writer.state) (enough : 2 ^ 20 ≤ fuel) (also : 2 ^ 20 ≤ more) :
    dataSync config fuel writer = dataSync config more writer := by
  have same := flushBuffer_fuel config holds steady supplied enough also
  have plain : ¬ writer.state.file.isWal = true := by
    rw [holds.plain.isWal]
    exact Bool.false_ne_true
  rw [dataSync, dataSync, bind_read, bind_read, if_neg plain,
    if_neg plain, if_pos holds.buffered, if_pos holds.buffered]
  exact bind_of_eq same _

end Fuel

end Zwal.WritableFile
