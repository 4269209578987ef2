import Zwal.File.Control

/-! # The steps of `SparseAppend` on a write-ahead log -/

namespace Zwal

namespace FileState

def appended (state : FileState) (call : AppendCall) : FileState :=
  { state with
    zbd := state.zbd.accept call
    file := { state.file with
      appendBytesSinceLastBarrier := state.file.appendBytesSinceLastBarrier + call.size } }

/-- The entry the next pass of `SparseAppend` hands over. -/
def sparseCall (config : BuildConfig) (state : FileState) (log left : Nat) : AppendCall :=
  let wrSize := sparseWriteSize config state left
  let extentLength := (wrSize + 2 ^ 64 - state.file.headerSize) % 2 ^ 64
  (sealSparse wrSize extentLength state).appendCall log
    ((wrSize + padSize sparseBlockSize wrSize) % 2 ^ 32) extentLength state.file.walSeq left

/-- The state a pass leaves when its entry was accepted, before a full zone is left. -/
def written (config : BuildConfig) (state : FileState) (log left : Nat) (replies : List Int) :
    FileState :=
  let call := sparseCall config state log left
  let sealed := sealSparse (sparseWriteSize config state left) call.length state
  addExtent state.file.headerSize call.length
    ({ sealed with zbd := { state.zbd with replies := replies } }.appended call)

section Written

variable (config : BuildConfig) (state : FileState) (log left : Nat) (replies : List Int)

theorem written_trace : (written config state log left replies).zbd.trace =
    state.zbd.trace ++ [.zoneAppend (sparseCall config state log left)] := rfl

theorem written_file : (written config state log left replies).file = { state.file with
    extents := state.file.extents ++ [⟨state.file.extentStart + state.file.headerSize,
      (sparseCall config state log left).length, state.activeNumber⟩]
    extentStart := state.active.wp + (sparseCall config state log left).size
    fileSize := state.file.fileSize + (sparseCall config state log left).length
    walSeq := state.file.walSeq + 1
    appendBytesSinceLastBarrier :=
      state.file.appendBytesSinceLastBarrier + (sparseCall config state log left).size } := by
  simp [written, addExtent, appended, ZonedBlockDevice.accept, ZonedBlockDevice.record,
    ZonedBlockDevice.setZone, active, activeNumber, sealSparse, sparseCall, appendCall]

theorem written_active : (written config state log left replies).zbd.zone state.activeNumber =
    { state.active with
      wp := state.active.wp + (sparseCall config state log left).size
      capacity := state.active.capacity - (sparseCall config state log left).size
      usedCapacity := state.active.usedCapacity + .ofNat (sparseCall config state log left).length } := by
  simp [written, addExtent, appended, ZonedBlockDevice.accept, ZonedBlockDevice.record,
    ZonedBlockDevice.setZone, active, activeNumber, sealSparse, sparseCall, appendCall]

theorem written_capacity : (written config state log left replies).active.capacity =
    state.active.capacity - (sparseCall config state log left).size := by
  have same : (written config state log left replies).activeNumber = state.activeNumber := by
    rw [activeNumber, written_file]
    rfl
  rw [active, same, written_active]

theorem written_started : (written config state log left replies).file.extentStart =
    (written config state log left replies).active.wp := by
  have same : (written config state log left replies).activeNumber = state.activeNumber := by
    rw [activeNumber, written_file]
    rfl
  rw [active, same, written_active, written_file]

theorem written_zone {number : Nat} (other : number ≠ state.activeNumber) :
    (written config state log left replies).zbd.zone number = state.zbd.zone number := by
  have apart : number ≠ state.file.activeZone.getD 0 := other
  simp [written, addExtent, appended, ZonedBlockDevice.accept, ZonedBlockDevice.record,
    ZonedBlockDevice.setZone, activeNumber, sealSparse, sparseCall, appendCall, apart]

end Written

inductive WalStep (config : BuildConfig) : FileState → FileState → Prop
  | control {before after} : ControlStep before after → WalStep config before after
  | barrier {state log} (replies) : state.file.wal = some log →
      config.walBarrierSize ≤ state.file.appendBytesSinceLastBarrier →
      WalStep config state { state with
        zbd := { state.zbd with replies := replies }.record (.walSync log)
        file := { state.file with appendBytesSinceLastBarrier := 0 } }
  | unopened {state} : state.file.wal = none →
      config.walBarrierSize ≤ state.file.appendBytesSinceLastBarrier →
      WalStep config state { state with
        file := { state.file with appendBytesSinceLastBarrier := 0 } }
  | scratch {state} (buffer) (skipped) :
      WalStep config state { state with
        buffer := buffer
        file := { state.file with walSeq := state.file.walSeq + skipped } }
  | append {state log left} (replies) : state.file.isWal = true → state.file.wal = some log →
      state.file.appendBytesSinceLastBarrier < config.walBarrierSize →
      (sparseCall config state log left).size ≤ state.active.capacity →
      WalStep config state (written config state log left replies)

def WalSteps (config : BuildConfig) : FileState → FileState → Prop :=
  Relation.ReflTransGen (WalStep config)

variable {config : BuildConfig}

instance : Std.Refl (WalSteps config) := ⟨fun _ => .refl⟩

instance : IsTrans FileState (WalSteps config) := ⟨fun _ _ _ first second => first.trans second⟩

theorem WalStep.steps {before after : FileState} (step : WalStep config before after) :
    WalSteps config before after :=
  .single step

theorem ControlSteps.wal {before after : FileState} (steps : ControlSteps before after) :
    WalSteps config before after := by
  induction steps with
  | refl => exact .refl
  | tail _ step induction => exact induction.tail (.control step)

theorem WalSteps.keep {invariant : FileState → Prop}
    (kept : ∀ {before after}, WalStep config before after → invariant before → invariant after)
    {before after : FileState} (steps : WalSteps config before after) (holds : invariant before) :
    invariant after := by
  induction steps with
  | refl => exact holds
  | tail _ step induction => exact kept step induction

structure Extends (before after : FileState) : Prop where
  isWal : after.file.isWal = true
  isSparse : after.file.isSparse = before.file.isSparse
  trace : before.zbd.trace <+: after.zbd.trace

theorem WalSteps.extends {before after : FileState} (steps : WalSteps config before after)
    (isWal : before.file.isWal = true) : Extends before after := by
  induction steps with
  | refl => exact ⟨isWal, rfl, List.prefix_rfl⟩
  | tail _ step induction =>
      rcases induction with ⟨isWal, isSparse, reached⟩
      cases step with
      | control step =>
          have quiet := step.quiet isWal
          rcases quiet.trace with ⟨control, _, trace⟩
          refine ⟨quiet.isWal.trans isWal, ?_, trace ▸ reached.trans (List.prefix_append _ _)⟩
          rw [quiet.file]
          exact isSparse
      | barrier => exact ⟨isWal, isSparse, reached.trans (List.prefix_append _ _)⟩
      | unopened => exact ⟨isWal, isSparse, reached⟩
      | scratch => exact ⟨isWal, isSparse, reached⟩
      | append =>
          refine ⟨?_, ?_, reached.trans (List.prefix_append _ _)⟩
          all_goals rw [written_file]
          · exact isWal
          · exact isSparse

/-! ## `SparseAppend` is made of these steps -/

theorem zoneAppend_run (call : AppendCall) (zbd : ZonedBlockDevice) :
    ∃ replies, (∃ error, ZonedBlockDevice.zoneAppend call zbd =
        (.error error, { zbd with replies := replies })) ∨
      (call.size ≤ (zbd.zone call.zone).capacity ∧ ZonedBlockDevice.zoneAppend call zbd =
        (.ok (), { zbd with replies := replies }.accept call)) := by
  rw [ZonedBlockDevice.zoneAppend]
  simp only [bind_read]
  split
  · exact ⟨zbd.replies, .inl ⟨_, rfl⟩⟩
  · rename_i room
    rcases ZonedBlockDevice.request_run (.ioError "Success") zbd with ⟨replies, run | run⟩
    · exact ⟨replies, .inr ⟨by omega, by rw [bind_of_ok run]; rfl⟩⟩
    · exact ⟨replies, .inl ⟨_, bind_of_error run⟩⟩

theorem barrierSync_run {state : FileState} (isWal : state.file.isWal = true) :
    (state.file.appendBytesSinceLastBarrier < config.walBarrierSize ∧
        barrierSync config state = (.ok (), state)) ∨
      (config.walBarrierSize ≤ state.file.appendBytesSinceLastBarrier ∧
        ((state.file.wal = none ∧ barrierSync config state = (.ok (), { state with
            file := { state.file with appendBytesSinceLastBarrier := 0 } })) ∨
          ∃ log replies, state.file.wal = some log ∧
            (barrierSync config state = (.ok (), { state with
                zbd := { state.zbd with replies := replies }.record (.walSync log)
                file := { state.file with appendBytesSinceLastBarrier := 0 } }) ∨
              barrierSync config state = (.error (.ioError "Error WAL sync"), { state with
                zbd := { state.zbd with replies := replies }.record (.walSyncFailed log) })))) := by
  have unfolded : barrierSync config state =
      (if state.file.isWal && config.walBarrierSize ≤ state.file.appendBytesSinceLastBarrier then
        (do walSync; setFile fun file => { file with appendBytesSinceLastBarrier := 0 })
      else pure ()) state := rfl
  rw [unfolded, isWal, Bool.true_and]
  by_cases full : config.walBarrierSize ≤ state.file.appendBytesSinceLastBarrier
  · refine .inr ⟨full, ?_⟩
    rw [if_pos (by simpa using full)]
    cases opened : state.file.wal with
    | none =>
        refine .inl ⟨rfl, ?_⟩
        rw [bind_of_ok (walSync_of_closed opened)]
        rfl
    | some log =>
        have synced := walSync_of_open opened
        rcases onceLogSync_run log "Error WAL sync" state with ⟨replies, run | run⟩
        · exact .inr ⟨log, replies, rfl, .inl (by
            rw [bind_of_ok (synced.trans run)]
            rfl)⟩
        · exact .inr ⟨log, replies, rfl, .inr (bind_of_error (synced.trans run))⟩
  · exact .inl ⟨by omega, by rw [if_neg (by simpa using full)]; rfl⟩

theorem leaveFullZone_steps (target wrSize left : Nat) :
    (leaveFullZone target wrSize left).Respects (WalSteps config) := by
  have control {Value : Type} {program : FileProgram Value}
      (respects : program.Respects ControlSteps) : program.Respects (WalSteps config) :=
    fun state => (respects state).wal
  refine Program.Respects.read.bind fun state => ?_
  split
  · refine (control closeActiveZone_control).bind fun _ => .bind (.update fun state => ?_) fun _ =>
      control allocateNewZone_control
    exact (WalStep.scratch _ 0).steps
  · exact .pure _

theorem writeActive_run {state : FileState} (isWal : state.file.isWal = true) {log : Nat}
    (opened : state.file.wal = some log) (size extentLength seq left : Nat) :
    ∃ replies, (∃ error, writeActive size extentLength seq left state =
        (.error error, { state with zbd := { state.zbd with replies := replies } })) ∨
      (size ≤ state.active.capacity ∧ writeActive size extentLength seq left state =
        (.ok (), { state with zbd := { state.zbd with replies := replies } }.appended
          (state.appendCall log size extentLength seq left))) := by
  have unfolded : writeActive size extentLength seq left state =
      (do onDevice (ZonedBlockDevice.zoneAppend (state.appendCall log size extentLength seq left))
          setFile fun file => { file with
            appendBytesSinceLastBarrier := file.appendBytesSinceLastBarrier + size } :
        FileProgram Unit) state := by
    rw [writeActive, bind_read]
    simp only [isWal, opened, if_true]
  rw [unfolded]
  rcases zoneAppend_run (state.appendCall log size extentLength seq left) state.zbd with
    ⟨replies, ⟨error, run⟩ | ⟨room, run⟩⟩
  · exact ⟨replies, .inl ⟨error, bind_of_error (onDevice_of_error run)⟩⟩
  · exact ⟨replies, .inr ⟨room, by rw [bind_of_ok (onDevice_of_ok run)]; rfl⟩⟩

theorem writeActive_unopened {state : FileState} (isWal : state.file.isWal = true)
    (unopened : state.file.wal = none) (size extentLength seq left : Nat) :
    writeActive size extentLength seq left state = (.error .never, state) := by
  rw [writeActive, bind_read]
  simp only [isWal, unopened, if_true]
  rfl

theorem sparseWrite_run {state : FileState} (isWal : state.file.isWal = true) {log : Nat}
    (opened : state.file.wal = some log) (left : Nat) :
    let call := sparseCall config state log left
    let wrSize := sparseWriteSize config state left
    ∃ replies,
      (∃ error, sparseWrite config left state = (.error error,
        { sealSparse wrSize call.length state with zbd := { state.zbd with replies := replies } })) ∨
      (call.size ≤ state.active.capacity ∧ sparseWrite config left state =
        (do leaveFullZone state.file.headerSize wrSize ((left + 2 ^ 64 - call.length) % 2 ^ 32)
            pure ((left + 2 ^ 64 - call.length) % 2 ^ 32) : FileProgram Nat)
          (written config state log left replies)) := by
  intro call wrSize
  have sealedWal : (sealSparse wrSize call.length state).file.isWal = true := isWal
  rcases writeActive_run sealedWal opened call.size call.length call.seq left with
    ⟨replies, ⟨error, run⟩ | ⟨room, run⟩⟩
  · refine ⟨replies, .inl ⟨error, ?_⟩⟩
    rw [sparseWrite, bind_read, bind_update]
    exact bind_of_error run
  · refine ⟨replies, .inr ⟨room, ?_⟩⟩
    rw [sparseWrite, bind_read, bind_update]
    exact bind_of_ok run

theorem sparseWrite_steps {state : FileState} (isWal : state.file.isWal = true)
    (room : state.file.appendBytesSinceLastBarrier < config.walBarrierSize) (left : Nat) :
    WalSteps config state (sparseWrite config left state).2 := by
  cases opened : state.file.wal with
  | none =>
      have stopped (wrSize extentLength size : Nat) :
          writeActive size extentLength state.file.walSeq left
              (sealSparse wrSize extentLength state) =
            (.error .never, sealSparse wrSize extentLength state) := by
        apply writeActive_unopened
        · exact isWal
        · exact opened
      rw [sparseWrite, bind_read, bind_update, bind_of_error (stopped _ _ _)]
      exact (WalStep.scratch _ 1).steps
  | some log =>
      rcases sparseWrite_run isWal opened left with ⟨replies, ⟨error, run⟩ | ⟨fits, run⟩⟩
      · rw [run]
        exact (ControlStep.device (state.zbd.still_replies replies)).steps.wal.trans
          (WalStep.scratch _ 1).steps
      · rw [run]
        exact IsTrans.trans _ _ _ (WalStep.append replies isWal opened room fits).steps
          (((leaveFullZone_steps _ _ _).bind fun _ => .pure _) _)

theorem barrierSync_spec {state : FileState} (isWal : state.file.isWal = true) :
    WalSteps config state (barrierSync config state).2 ∧
      ∀ next, barrierSync config state = (.ok (), next) → next.file.isWal = true ∧
        next.file.appendBytesSinceLastBarrier < config.walBarrierSize := by
  have positive : 0 < config.walBarrierSize := Nat.mul_pos config.barrierPositive (by decide)
  rcases barrierSync_run isWal with ⟨room, run⟩ | ⟨full, ⟨unopened, run⟩ |
    ⟨log, replies, opened, run | run⟩⟩
  all_goals rw [run]
  · refine ⟨.refl, fun next same => ?_⟩
    cases same
    exact ⟨isWal, room⟩
  · refine ⟨(WalStep.unopened unopened full).steps, fun next same => ?_⟩
    cases same
    exact ⟨isWal, positive⟩
  · refine ⟨(WalStep.barrier replies opened full).steps, fun next same => ?_⟩
    cases same
    exact ⟨isWal, positive⟩
  · have failed : ControlSteps state { state with
        zbd := { state.zbd with replies := replies }.record (.walSyncFailed log) } :=
      (ControlStep.device (state.zbd.still_replies replies)).steps.trans
        (ControlStep.walSyncFailed log).steps
    exact ⟨failed.wal, fun next same => by cases same⟩

theorem sparseAppendPass_steps (left : Nat) :
    (sparseAppendPass config left).Respects (WalSteps config) := by
  intro state
  cases isWal : state.file.isWal with
  | false => exact (WalStep.control (.notWal isWal)).steps
  | true =>
      rcases barrierSync_spec isWal with ⟨steps, room⟩
      rcases run : barrierSync config state with ⟨error | _, middle⟩
      all_goals rw [run] at steps
      · rw [sparseAppendPass, bind_of_error run]
        exact steps
      · rw [sparseAppendPass, bind_of_ok run]
        rcases room middle run with ⟨stillWal, below⟩
        exact steps.trans (sparseWrite_steps stillWal below left)

theorem sparseAppendLoop_steps (fuel left : Nat) :
    (sparseAppendLoop config fuel left).Respects (WalSteps config) := by
  induction fuel generalizing left with
  | zero => cases left <;> intro state <;> exact .refl
  | succ fuel induction =>
      cases left with
      | zero => intro state; exact .refl
      | succ left => exact (sparseAppendPass_steps _).bind fun left => induction left

theorem sparseAppend_steps (fuel dataSize : Nat) :
    (sparseAppend config fuel dataSize).Respects (WalSteps config) :=
  .bind (fun state => (ensureActiveZone_control state).wal) fun _ =>
    sparseAppendLoop_steps fuel dataSize

/-! ## Passes that return -/

structure Barred (before after : FileState) : Prop where
  buffer : after.buffer = before.buffer
  file : after.file = { before.file with
    appendBytesSinceLastBarrier := after.file.appendBytesSinceLastBarrier }
  level : after.file.appendBytesSinceLastBarrier = before.file.appendBytesSinceLastBarrier ∨
    after.file.appendBytesSinceLastBarrier = 0
  zone : after.zbd.zone = before.zbd.zone
  trace : after.zbd.trace = before.zbd.trace ∨
    ∃ log, before.file.wal = some log ∧ after.zbd.trace = before.zbd.trace ++ [.walSync log]

theorem barrierSync_ok {state next : FileState} (isWal : state.file.isWal = true)
    (run : barrierSync config state = (.ok (), next)) : Barred state next := by
  rcases barrierSync_run isWal with ⟨_, same⟩ | ⟨_, ⟨_, same⟩ | ⟨log, replies, opened, same | same⟩⟩
  all_goals
    rw [same] at run
    cases run
  · exact ⟨rfl, rfl, .inl rfl, rfl, .inl rfl⟩
  · exact ⟨rfl, rfl, .inr rfl, rfl, .inl rfl⟩
  · exact ⟨rfl, rfl, .inr rfl, rfl, .inr ⟨log, opened, rfl⟩⟩

/-- What a pass that returned did: the barrier check, one entry, and at the end of the
zone the change to the next one. -/
theorem sparseAppendPass_ok {state final : FileState} (isWal : state.file.isWal = true)
    {left rest : Nat} (run : sparseAppendPass config left state = (.ok rest, final)) :
    ∃ middle log replies, Barred state middle ∧
      middle.file.appendBytesSinceLastBarrier < config.walBarrierSize ∧
      middle.file.wal = some log ∧
      (sparseCall config middle log left).size ≤ middle.active.capacity ∧
      rest = (left + 2 ^ 64 - (sparseCall config middle log left).length) % 2 ^ 32 ∧
      leaveFullZone middle.file.headerSize (sparseWriteSize config middle left) rest
        (written config middle log left replies) = (.ok (), final) := by
  rcases bind_eq_ok run with ⟨_, middle, barrier, run⟩
  have barred := barrierSync_ok isWal barrier
  have stillWal : middle.file.isWal = true := by
    rw [barred.file]
    exact isWal
  cases opened : middle.file.wal with
  | none =>
      exfalso
      rcases bind_eq_ok run with ⟨_, _, read, run⟩
      cases read
      rcases bind_eq_ok run with ⟨_, _, sealed, run⟩
      cases sealed
      rcases bind_eq_ok run with ⟨_, _, write, _⟩
      rw [writeActive_unopened (by exact stillWal) (by exact opened)] at write
      cases write
  | some log =>
      rcases sparseWrite_run stillWal opened left with ⟨replies, ⟨error, same⟩ | ⟨fits, same⟩⟩
      · rw [same] at run
        cases run
      · rw [same] at run
        rcases bind_eq_ok run with ⟨_, last, leave, done⟩
        cases done
        exact ⟨middle, log, replies, barred, ((barrierSync_spec isWal).2 middle barrier).2, opened, fits,
          rfl, leave⟩

theorem leaveFullZone_ok {state final : FileState} {target wrSize left : Nat}
    (run : leaveFullZone target wrSize left state = (.ok (), final)) :
    (state.active.capacity ≠ 0 ∧ final = state) ∨
      (state.active.capacity = 0 ∧ ∃ closed, closeActiveZone state = (.ok (), closed) ∧
        allocateNewZone (moveRest target wrSize left closed) = (.ok (), final)) := by
  rw [leaveFullZone, bind_read] at run
  by_cases full : state.active.capacity = 0
  · rw [if_pos full] at run
    rcases bind_eq_ok run with ⟨_, closed, close, run⟩
    rcases bind_eq_ok run with ⟨_, moved, move, allocate⟩
    cases move
    exact .inr ⟨full, closed, close, allocate⟩
  · rw [if_neg full] at run
    cases run
    exact .inl ⟨full, rfl⟩

end FileState

end Zwal
