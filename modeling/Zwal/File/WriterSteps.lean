import Zwal.File.FileSteps

/-! # What a writer does

Every call on a `ZonedWritableFile` is made of the steps of its file and keeps the bounds
of its buffer. -/

namespace Zwal.WritableFile

open FileState

/-- The buffer of a file that writes no headers: one mebibyte. -/
structure Buffered (writer : WritableFile) : Prop where
  memory : writer.state.buffer.length = 2 ^ 20
  start : writer.bufferStart = 0
  size : writer.bufferSz = 2 ^ 20
  filled : writer.bufferPos ≤ 2 ^ 20

structure Sound (writer : WritableFile) : Prop where
  blocks : writer.state.zbd.blockSize ∣ 2 ^ 20
  plain : writer.state.file.isSparse = false → Buffered writer

theorem create_sound (config : BuildConfig) {zbd : ZonedBlockDevice} (file : ZoneFile)
    (buffered : Bool) (blocks : zbd.blockSize ∣ 2 ^ 20) :
    Sound (create config zbd file buffered) := by
  refine ⟨blocks, fun plain => ?_⟩
  have unfolded : file.isSparse = false := plain
  refine ⟨?_, ?_, ?_, Nat.zero_le _⟩
  · simp only [create, unfolded, Bool.false_eq_true, if_false, List.length_replicate]
    omega
  · simp only [create, unfolded, Bool.false_eq_true, if_false]
  · simp only [create, unfolded, Bool.false_eq_true, if_false]
    omega

structure Moved (before after : WritableFile) : Prop where
  steps : FileSteps .write before.state after.state
  buffered : after.buffered = before.buffered
  opened : after.isOpen = before.isOpen
  sound : Sound before → Sound after

instance : Std.Refl Moved := ⟨fun _ => ⟨.refl, rfl, rfl, id⟩⟩

instance : IsTrans WritableFile Moved where
  trans _ _ _ one two :=
    ⟨one.steps.trans two.steps, two.buffered.trans one.buffered, two.opened.trans one.opened,
      two.sound ∘ one.sound⟩

/-- How a call ends: by steps of the file, unless it does not end. -/
abbrev Wrote (writer : WritableFile) (post : Value → WritableFile → Prop) :=
  Program.Along Moved (· = IOStatus.never) writer post

theorem Sound.steps {kind : StepKind} {writer : WritableFile} {state : FileState}
    (steps : FileSteps kind writer.state state) (sound : Sound writer) :
    Sound { writer with state := state } := by
    have constant := steps.constant
    refine ⟨?_, fun plain => ?_⟩
    · rw [show ({ writer with state := state } : WritableFile).state = state from rfl,
        constant.device.blockSize]
      exact sound.blocks
    · have before : writer.state.file.isSparse = false := constant.isSparse.symm.trans plain
      have bounds := sound.plain before
      exact ⟨(constant.memory before).trans bounds.memory, bounds.start, bounds.size, bounds.filled⟩

theorem Moved.of_steps {writer : WritableFile} {state : FileState}
    (steps : FileSteps .write writer.state state) : Moved writer { writer with state := state } where
  steps := steps
  buffered := rfl
  opened := rfl
  sound := .steps steps

theorem onFile_wrote {writer : WritableFile} {program : FileProgram Value}
    {post : Value → FileState → Prop} (walked : Walked .write writer.state post (program writer.state)) :
    Wrote writer (fun value next => post value next.state ∧ next = { writer with state := next.state })
      (onFile program writer) := by
  rw [onFile, Program.within]
  rcases run : program writer.state with ⟨failure | value, next⟩
  all_goals rw [run] at walked
  · exact walked.imp_right Moved.of_steps
  · exact ⟨.of_steps walked.1, walked.2, rfl⟩

section Calls

variable (config : BuildConfig) (fuel : Nat)

theorem flushBuffer_wrote {writer : WritableFile} (sound : Sound writer) :
    Wrote writer (fun _ next => next.bufferPos = 0) (flushBuffer config fuel writer) := by
  have unfolded : flushBuffer config fuel writer =
      (if writer.bufferPos = 0 then pure () else
        ((if writer.state.file.isSparse then onFile (sparseAppend config fuel writer.bufferPos)
          else onFile (bufferedAppend config fuel writer.bufferPos)) >>= fun _ =>
        Program.update fun writer =>
          { writer with wp := writer.wp + writer.bufferPos, bufferPos := 0 }) :
        WritableProgram Unit) writer := by
    rw [flushBuffer, bind_read]
    split
    · rfl
    · split
      · rfl
      · rfl
  rw [unfolded]
  split
  · rename_i empty
    exact .here empty
  · have flushed : Wrote writer (fun _ _ => True)
        ((if writer.state.file.isSparse then onFile (sparseAppend config fuel writer.bufferPos)
          else onFile (bufferedAppend config fuel writer.bufferPos) : WritableProgram Unit)
          writer) := by
      split
      · rename_i sparse
        exact (onFile_wrote (sparseAppend_walked config fuel _ sparse)).weaken fun _ _ _ => trivial
      · rename_i notSparse
        have plain : writer.state.file.isSparse = false := by simpa using notSparse
        have bounds := sound.plain plain
        exact (onFile_wrote (bufferedAppend_walked config fuel plain
          ⟨sound.blocks, bounds.memory, bounds.filled⟩)).weaken fun _ _ _ => trivial
    refine flushed.bind fun _ next _ _ => .update ⟨.refl, rfl, rfl, fun sound => ?_⟩ rfl
    refine ⟨sound.blocks, fun plain => ?_⟩
    have bounds := sound.plain plain
    exact ⟨bounds.memory, bounds.start, bounds.size, Nat.zero_le _⟩

theorem fill_moved {writer : WritableFile} {data : Bytes}
    (room : writer.state.file.isSparse = false → writer.bufferPos + data.length ≤ writer.bufferSz)
    (sound : Sound writer) : Moved writer (fill data writer) where
  buffered := rfl
  opened := rfl
  steps := by
    refine (FileStep.scratch _ _ _ fun plain => ?_).steps
    have bounds := sound.plain plain
    have space := room plain
    rw [bounds.size] at space
    rw [Bytes.length_overwrite]
    rw [bounds.memory, bounds.start]
    omega
  sound _ := by
    refine ⟨sound.blocks, fun plain => ?_⟩
    have bounds := sound.plain plain
    have space := room plain
    rw [bounds.size] at space
    refine ⟨?_, bounds.start, bounds.size, space⟩
    rw [fill, Bytes.length_overwrite, bounds.memory]
    rw [bounds.memory, bounds.start]
    omega

/-- The start of a pass of `BufferedWrite`: a full buffer is flushed. -/
def makeRoom : WritableProgram Unit := do
  let writer ← Program.read
  if writer.bufferSz - writer.bufferPos = 0 then flushBuffer config fuel else pure ()

theorem bufferedWriteLoop_succ (passes : Nat) (byte : UInt8) (rest : Bytes) :
    bufferedWriteLoop config fuel (passes + 1) (byte :: rest) = (do
      let writer ← Program.read
      makeRoom config fuel
      let bufferLeft :=
        if writer.bufferSz - writer.bufferPos = 0 then writer.bufferSz
        else writer.bufferSz - writer.bufferPos
      Program.update (fill ((byte :: rest).take bufferLeft))
      bufferedWriteLoop config fuel passes ((byte :: rest).drop bufferLeft)) := by
  funext writer
  rw [bufferedWriteLoop, makeRoom, bind_read, bind_read, Program.bind_assoc, bind_read]
  split
  · rfl
  · rfl

theorem makeRoom_wrote {writer : WritableFile} (sound : Sound writer) :
    Wrote writer (fun _ next => Sound next ∧ (next.state.file.isSparse = false →
        next.bufferPos + (if writer.bufferSz - writer.bufferPos = 0 then writer.bufferSz
          else writer.bufferSz - writer.bufferPos) ≤ next.bufferSz))
      (makeRoom config fuel writer) := by
  rw [makeRoom, bind_read]
  by_cases full : writer.bufferSz - writer.bufferPos = 0
  · simp only [if_pos full]
    have flushed := flushBuffer_wrote config fuel sound
    rcases run : flushBuffer config fuel writer with ⟨failure | _, next⟩
    all_goals rw [run] at flushed
    · exact flushed
    · refine ⟨flushed.1, flushed.1.sound sound, fun plain => ?_⟩
      have before : writer.state.file.isSparse = false :=
        flushed.1.steps.constant.isSparse.symm.trans plain
      rw [flushed.2, (sound.plain before).size, ((flushed.1.sound sound).plain plain).size]
      omega
  · simp only [if_neg full]
    refine .here ⟨sound, fun plain => ?_⟩
    omega

theorem bufferedWriteLoop_wrote (passes : Nat) (data : Bytes) {writer : WritableFile}
    (sound : Sound writer) :
    Wrote writer (fun _ _ => True) (bufferedWriteLoop config fuel passes data writer) := by
  induction passes generalizing data writer with
  | zero =>
      cases data with
      | nil => exact .here trivial
      | cons => exact .inl rfl
  | succ passes induction =>
      cases data with
      | nil => exact .here trivial
      | cons byte rest =>
          rw [bufferedWriteLoop_succ, bind_read]
          refine (makeRoom_wrote config fuel sound).bind fun _ next _ kept => ?_
          rw [bind_update]
          have filled : Moved next (fill ((byte :: rest).take
              (if writer.bufferSz - writer.bufferPos = 0 then writer.bufferSz
                else writer.bufferSz - writer.bufferPos)) next) := by
            refine fill_moved (fun plain => ?_) kept.1
            have room := kept.2 plain
            rw [List.length_take]
            omega
          exact (induction _ (filled.sound kept.1)).after filled

theorem append_wrote (data : Bytes) {writer : WritableFile} (sound : Sound writer) :
    Wrote writer (fun _ _ => True) (append config fuel data writer) := by
  rw [append, bind_read]
  split
  · exact bufferedWriteLoop_wrote config fuel _ _ sound
  · refine (onFile_wrote (directAppend_walked fuel _ data)).bind fun _ next _ _ => ?_
    refine .update ⟨.refl, rfl, rfl, fun sound => ⟨sound.blocks, fun plain => ?_⟩⟩ trivial
    have bounds := sound.plain plain
    exact ⟨bounds.memory, bounds.start, bounds.size, bounds.filled⟩

theorem positionedAppend_wrote (data : Bytes) (offset : Nat) {writer : WritableFile}
    (sound : Sound writer) :
    Wrote writer (fun _ _ => True) (positionedAppend config fuel data offset writer) := by
  rw [positionedAppend, bind_read]
  split
  · exact .failed _
  · exact append_wrote config fuel data sound

theorem flushed_wrote {writer : WritableFile} (sound : Sound writer) (buffered sparse : Bool) :
    Wrote writer (fun _ _ => True)
      ((if buffered then do
          flushBuffer config fuel
          if sparse then pure () else onFile persistMetadata
        else onFile pushExtent : WritableProgram Unit) writer) := by
  split
  · refine (flushBuffer_wrote config fuel sound).bind fun _ next _ _ => ?_
    split
    · exact .here trivial
    · exact (onFile_wrote (persistMetadata_walked _)).weaken fun _ _ _ => trivial
  · exact (onFile_wrote (pushExtent_walked _)).weaken fun _ _ _ => trivial

theorem dataSync_wrote {writer : WritableFile} (sound : Sound writer) :
    Wrote writer (fun _ _ => True) (dataSync config fuel writer) := by
  rw [dataSync, bind_read]
  split
  · have sync := walSync_synced writer.state
    rcases run : walSync writer.state with ⟨outcome, next⟩
    rw [run] at sync
    have attempted : (onFile walSync).attempt writer =
        (.ok outcome, { writer with state := next }) := by
      simp only [Program.attempt, onFile, Program.within, run]
    rw [bind_of_ok attempted]
    have moved : Moved writer { writer with state := next } := .of_steps (sync.steps .write)
    exact (flushed_wrote config fuel (moved.sound sound) _ _).after moved
  · exact flushed_wrote config fuel sound _ _

theorem fsync_wrote {writer : WritableFile} (sound : Sound writer) :
    Wrote writer (fun _ _ => True) (fsync config fuel writer) := by
  refine (dataSync_wrote config fuel sound).bind fun _ next _ _ => ?_
  rw [bind_read]
  split
  · exact .here trivial
  · exact (onFile_wrote (persistMetadata_walked _)).weaken fun _ _ _ => trivial

theorem rangeSync_wrote {writer : WritableFile} (sound : Sound writer) (offset nbytes : Nat) :
    Wrote writer (fun _ _ => True) (rangeSync config fuel offset nbytes writer) := by
  rw [rangeSync, bind_read]
  split
  · exact dataSync_wrote config fuel sound
  · exact .here trivial

inductive Closes (writer : WritableFile) : Except IOStatus Unit → WritableFile → Prop
  | stopped {failure next} : failure ≠ .never → Moved writer next → Closes writer (.error failure) next
  | done {fuel flushed middle state} : dataSync config fuel writer = (.ok (), flushed) →
      Moved writer middle → middle.state.zbd.zone = flushed.state.zbd.zone →
      middle.state.file.activeZone = flushed.state.file.activeZone →
      FileSteps .shut middle.state state → state.file.activeZone = none →
      state.file.openForWr = false →
      Closes writer (.ok ()) { middle with state := state, isOpen := false }
  | failed {failure middle state} : failure ≠ .never → Moved writer middle →
      FileSteps .shut middle.state state → writer.state.zbd.Failing →
      Closes writer (.error failure) { middle with state := state }

theorem truncate_wrote (size : Nat) (writer : WritableFile) :
    writer.Wrote (fun _ _ => True) (truncate size writer) :=
  ⟨.of_steps (FileStep.truncate size).steps, trivial⟩

theorem close_of_closed {writer : WritableFile} (closed : writer.isOpen = false) :
    close config fuel writer = (.ok (), writer) := by
  rw [close, bind_read, closed]
  rfl

theorem close_closes {writer : WritableFile} (sound : Sound writer) (opened : writer.isOpen = true) :
    (close config fuel writer).1 = .error .never ∨
      Closes config writer (close config fuel writer).1 (close config fuel writer).2 := by
  rw [close, bind_read, if_pos opened]
  have synced := dataSync_wrote config fuel sound
  rcases run : dataSync config fuel writer with ⟨failure | _, flushed⟩
  all_goals rw [run] at synced
  · rw [bind_of_error run]
    by_cases ends : failure = .never
    · exact .inl (by rw [ends])
    · exact .inr (.stopped ends (synced.resolve_left ends))
  · rw [bind_of_ok run]
    have shut := closeWR_shut flushed.state
    rcases ended : closeWR flushed.state with ⟨failure | _, state⟩
    all_goals rw [ended] at shut
    · have failed : onFile closeWR flushed = (.error failure, { flushed with state := state }) := by
        simp only [onFile, Program.within, ended]
      rw [bind_of_error failed]
      by_cases ends : failure = .never
      · exact .inl (by rw [ends])
      rcases shut.resolve_left ends with ⟨failing, middle, written, closed⟩
      have moved : Moved writer { flushed with state := middle } :=
        trans_of Moved synced.1 (.of_steps written)
      have closes : Closes config writer (.error failure)
          { ({ flushed with state := middle } : WritableFile) with state := state } :=
        .failed ends moved closed (failing.before synced.1.steps.answers)
      exact .inr closes
    · have done : onFile closeWR flushed = (.ok (), { flushed with state := state }) := by
        simp only [onFile, Program.within, ended]
      rw [bind_of_ok done]
      rcases shut with ⟨middle, written, zone, active, closed, idle, unlocked⟩
      have moved : Moved writer { flushed with state := middle } :=
        trans_of Moved synced.1 (.of_steps written)
      have closes : Closes config writer (.ok ())
          { ({ flushed with state := middle } : WritableFile) with state := state, isOpen := false } :=
        .done run moved zone active closed idle unlocked
      exact .inr closes

end Calls

end Zwal.WritableFile
