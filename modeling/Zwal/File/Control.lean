import Zwal.File.SparseAppend
import Zwal.File.Trace

/-! # Control operations of a write-ahead log

Syncing, closing and allocating zones write no data. The steps they are made of
are listed once; an invariant kept by each step is kept by every operation,
however it ends. -/

namespace Zwal

/-- A zone under control operations: its write pointer moves only when an unused zone
is released. -/
structure Zone.Controlled (before after : Zone) : Prop where
  start : after.start = before.start
  maxCapacity : after.maxCapacity = before.maxCapacity
  usedCapacity : after.usedCapacity = before.usedCapacity
  pointer : (after.capacity = before.capacity ∧ after.wp = before.wp) ∨
    (before.isUsed = false ∧ after.capacity = before.maxCapacity ∧ after.wp = before.start)

namespace Zone.Controlled

theorem refl (zone : Zone) : Zone.Controlled zone zone := ⟨rfl, rfl, rfl, .inl ⟨rfl, rfl⟩⟩

theorem trans {first second third : Zone} (one : Zone.Controlled first second)
    (two : Zone.Controlled second third) : Zone.Controlled first third := by
  refine ⟨two.start.trans one.start, two.maxCapacity.trans one.maxCapacity,
    two.usedCapacity.trans one.usedCapacity, ?_⟩
  rcases two.pointer with ⟨capacity, wp⟩ | ⟨unused, capacity, wp⟩
  · rw [capacity, wp]
    exact one.pointer
  · refine .inr ⟨?_, capacity.trans one.maxCapacity, wp.trans one.start⟩
    rw [Zone.isUsed] at unused ⊢
    rw [← one.usedCapacity, unused]

theorem blocks {before after : Zone} (controlled : Zone.Controlled before after)
    (aligned : sparseBlockSize ∣ before.capacity ∧ sparseBlockSize ∣ before.maxCapacity) :
    sparseBlockSize ∣ after.capacity ∧ sparseBlockSize ∣ after.maxCapacity := by
  refine ⟨?_, controlled.maxCapacity ▸ aligned.2⟩
  rcases controlled.pointer with ⟨same, _⟩ | ⟨_, full, _⟩
  · exact same ▸ aligned.1
  · exact full ▸ aligned.2

end Zone.Controlled

namespace ZonedBlockDevice

structure Still (before after : ZonedBlockDevice) : Prop where
  zone : ∀ number, Zone.Controlled (before.zone number) (after.zone number)
  walZones : after.walZones = before.walZones
  blockSize : after.blockSize = before.blockSize
  zoneSize : after.zoneSize = before.zoneSize
  trace : after.trace = before.trace

instance : Std.Refl Still where
  refl _ := ⟨fun _ => .refl _, rfl, rfl, rfl, rfl⟩

instance : IsTrans ZonedBlockDevice Still where
  trans _ _ _ one two :=
    ⟨fun number => (one.zone number).trans (two.zone number), two.walZones.trans one.walZones,
      two.blockSize.trans one.blockSize, two.zoneSize.trans one.zoneSize,
      two.trace.trans one.trace⟩

theorem Still.of_zone (zbd : ZonedBlockDevice) (number : Nat) (zone : Zone)
    (controlled : Zone.Controlled (zbd.zone number) zone) :
    Still zbd (zbd.setZone number zone) := by
  refine ⟨fun other => ?_, rfl, rfl, rfl, rfl⟩
  simp only [setZone, Function.update_apply]
  split
  · rename_i same
    exact same ▸ controlled
  · exact .refl _

theorem still_setBusy (zbd : ZonedBlockDevice) (number : Nat) (busy : Bool) :
    Still zbd (zbd.setBusy number busy) :=
  .of_zone zbd number _ ⟨rfl, rfl, rfl, .inl ⟨rfl, rfl⟩⟩

theorem still_tokens (zbd : ZonedBlockDevice) (active opened : Int) :
    Still zbd { zbd with activeIoZones := active, openIoZones := opened } :=
  ⟨fun _ => .refl _, rfl, rfl, rfl, rfl⟩

theorem Still.record {before after : ZonedBlockDevice} (still : Still before after)
    (event : IoEvent) : Still (before.record event) (after.record event) :=
  ⟨still.zone, still.walZones, still.blockSize, still.zoneSize, by
    simp only [ZonedBlockDevice.record, still.trace]⟩

theorem reply_run (success : Int) (zbd : ZonedBlockDevice) :
    ∃ answer replies, reply success zbd = (.ok answer, { zbd with replies := replies }) := by
  rw [reply]
  split
  · exact ⟨_, zbd.replies, rfl⟩
  · exact ⟨_, _, rfl⟩

theorem still_replies (zbd : ZonedBlockDevice) (replies : List Int) :
    Still zbd { zbd with replies := replies } :=
  ⟨fun _ => .refl _, rfl, rfl, rfl, rfl⟩

theorem request_run (failure : IOStatus) (zbd : ZonedBlockDevice) :
    ∃ replies, request failure zbd = (.ok (), { zbd with replies := replies }) ∨
      request failure zbd = (.error failure, { zbd with replies := replies }) := by
  rcases reply_run 0 zbd with ⟨answer, replies, answered⟩
  refine ⟨replies, ?_⟩
  rw [request, bind_of_ok answered]
  split
  · exact .inr rfl
  · exact .inl rfl

theorem request_still (failure : IOStatus) : (request failure).Respects Still := by
  intro zbd
  rcases request_run failure zbd with ⟨replies, run | run⟩
  all_goals
    rw [run]
    exact still_replies zbd replies

theorem closeZone_still (number : Nat) : (closeZone number).Respects Still := by
  refine Program.Respects.read.bind fun zbd => ?_
  split
  · exact .pure _
  · exact request_still _

theorem releaseUnusedWALZone_still (zbd : ZonedBlockDevice) (number : Nat) :
    Still zbd (zbd.releaseUnusedWALZone number) := by
  have released : (zbd.zone number).isUsed = false → Still zbd
      (zbd.setZone number { zbd.zone number with
        capacity := (zbd.zone number).maxCapacity, wp := (zbd.zone number).start }) :=
    fun unused => .of_zone zbd number _ ⟨rfl, rfl, rfl, .inr ⟨unused, rfl, rfl⟩⟩
  simp only [releaseUnusedWALZone]
  split
  · exact Std.Refl.refl zbd
  · split
    · rename_i idle
      simp only [Bool.and_eq_true, Bool.not_eq_true'] at idle
      split
      · exact released idle.2
      · exact IsTrans.trans _ _ _ (released idle.2) (still_tokens _ _ _)
    · exact Std.Refl.refl zbd

theorem releaseUnusedWALZones_still (zbd : ZonedBlockDevice) :
    Still zbd zbd.releaseUnusedWALZones := by
  rw [releaseUnusedWALZones]
  generalize zbd.walZones.take zenfsWalZones = numbers
  induction numbers generalizing zbd with
  | nil => exact Std.Refl.refl zbd
  | cons number numbers induction =>
      exact IsTrans.trans _ _ _ (releaseUnusedWALZone_still zbd number) (induction _)

theorem takeWalTokens_still : takeWalTokens.Respects Still := by
  refine Program.Respects.bind (fun zbd => ?_) fun _ => Program.Respects.bind (fun zbd => ?_) ?_
  · simp only [waitForOpenIOZoneToken]
    repeat' split
    all_goals first | exact Std.Refl.refl zbd | exact still_tokens zbd _ _
  · simp only [getActiveIOZoneTokenIfAvailable]
    split
    · exact still_tokens zbd _ _
    · exact Std.Refl.refl zbd
  · intro gotToken
    split
    · exact .pure _
    · exact .fail _

/-- A new once-log is the only thing the allocation of a WAL zone asks of SZD. -/
def LogOpened (before : ZonedBlockDevice) (grant : WalZoneGrant) (after : ZonedBlockDevice) : Prop :=
  ∃ log, grant.wal = some log ∧ Still (before.record (.openLog log)) after

theorem openOnceLog_spec (first : ZonedBlockDevice) (log : Nat) {failed} :
    (openOnceLog log).Triple (Still first) (fun _ => Still (first.record (.openLog log)))
      failed :=
  .bind (.update fun _ reached => Still.record reached (.openLog log)) fun _ =>
    .attempt ((request_still _).triple _)

theorem allocateWALGroup_spec (first : ZonedBlockDevice) :
    allocateWALGroup.Triple (Still first) (LogOpened first) (fun _ => Still first) := by
  refine (takeWalTokens_still.triple first).bind fun _ =>
    (Program.Respects.read.triple first).bind fun zbd => ?_
  split
  · exact ((Program.Respects.update fun zbd => still_tokens zbd _ _).triple first).bind fun _ =>
      .fail fun _ reached => reached
  · exact ((Program.Respects.update fun zbd => still_setBusy zbd _ true).triple first).bind
      fun _ => (openOnceLog_spec first _).bind fun status => .pure fun _ reached => ⟨_, rfl, reached⟩

theorem allocateWALZone_spec (first : ZonedBlockDevice) (wal activeZone : Option Nat) :
    (allocateWALZone wal activeZone).Triple (Still first)
      (fun grant after => (wal.isSome ∧ grant.wal = wal ∧ Still first after) ∨
        LogOpened first grant after)
      (fun _ => Still first) := by
  have group := (allocateWALGroup_spec first).weaken fun grant after opened =>
    Or.inr (a := wal.isSome ∧ grant.wal = wal ∧ Still first after) opened
  refine ((Program.Respects.update releaseUnusedWALZones_still).triple first).bind fun _ => ?_
  split
  · exact group
  · split
    · exact group
    · refine (Program.Respects.read.triple first).bind fun zbd => ?_
      split
      · exact .fail fun _ reached => reached
      · exact .pure fun _ reached => .inl ⟨rfl, rfl, reached⟩
      · exact (openOnceLog_spec first _).bind fun status =>
          .pure fun _ reached => .inr ⟨_, rfl, reached⟩

end ZonedBlockDevice

namespace FileState

def Pointed (state : FileState) (extentStart : Nat) : Prop :=
  extentStart = state.file.extentStart ∨ extentStart = noExtent ∨
    ∃ number, extentStart = (state.zbd.zone number).wp

/-- The elementary steps of control operations on a write-ahead log. Nothing is said
about other files. -/
inductive ControlStep : FileState → FileState → Prop
  | device {state zbd} : state.zbd.Still zbd → ControlStep state { state with zbd := zbd }
  | pointers {state} (activeZone extentStart extentFilepos nrSyncedExtents openForWr) :
      Pointed state extentStart → ControlStep state { state with
        file := { state.file with
          activeZone := activeZone
          extentStart := extentStart
          extentFilepos := extentFilepos
          nrSyncedExtents := nrSyncedExtents
          openForWr := openForWr } }
  | openLog {state} (log) :
      ControlStep state { state with
        zbd := state.zbd.record (.openLog log)
        file := { state.file with wal := some log } }
  | walSync {state log} : state.file.wal = some log →
      ControlStep state { state with zbd := state.zbd.record (.walSync log) }
  | walSyncFailed {state} (log) :
      ControlStep state { state with zbd := state.zbd.record (.walSyncFailed log) }
  | persist {state} :
      ControlStep state { state with
        zbd := state.zbd.record (.persist state.file.record) }
  | notWal {state next} : state.file.isWal = false → ControlStep state next

def ControlSteps : FileState → FileState → Prop := Relation.ReflTransGen ControlStep

instance : Std.Refl ControlSteps := ⟨fun _ => .refl⟩

instance : IsTrans FileState ControlSteps := ⟨fun _ _ _ first second => first.trans second⟩

theorem ControlStep.steps {before after : FileState} (step : ControlStep before after) :
    ControlSteps before after :=
  .single step

theorem onDevice_of_ok {program : DeviceProgram Value} {state : FileState} {value : Value}
    {zbd : ZonedBlockDevice} (run : program state.zbd = (.ok value, zbd)) :
    onDevice program state = (.ok value, { state with zbd := zbd }) := by
  simp only [onDevice, Program.within, run]

theorem onDevice_of_error {program : DeviceProgram Value} {state : FileState} {error : IOStatus}
    {zbd : ZonedBlockDevice} (run : program state.zbd = (.error error, zbd)) :
    onDevice program state = (.error error, { state with zbd := zbd }) := by
  simp only [onDevice, Program.within, run]

theorem onDevice_control {program : DeviceProgram Value}
    (respects : program.Respects ZonedBlockDevice.Still) :
    (onDevice program).Respects ControlSteps :=
  respects.within fun _ _ still => (ControlStep.device still).steps

theorem pointers_control {change : ZoneFile → ZoneFile}
    (pointers : ∀ file, change file = { file with
      activeZone := (change file).activeZone
      extentStart := (change file).extentStart
      extentFilepos := (change file).extentFilepos
      nrSyncedExtents := (change file).nrSyncedExtents
      openForWr := (change file).openForWr })
    (pointed : ∀ file, (change file).extentStart = file.extentStart ∨
      (change file).extentStart = noExtent) :
    (setFile change).Respects ControlSteps := by
  refine .update fun state => ?_
  rw [pointers state.file]
  exact (ControlStep.pointers _ _ _ _ _ ((pointed state.file).imp_right .inl)).steps

theorem persistMetadata_control : persistMetadata.Respects ControlSteps := by
  refine Program.Respects.read.bind fun state => ?_
  split
  · split
    · exact .fail _
    · exact .pure _
  · refine (onDevice_control (ZonedBlockDevice.request_still _)).bind fun _ => ?_
    exact .update fun state => ControlStep.persist.steps.trans
      (ControlStep.pointers _ _ _ _ _ (.inl rfl)).steps

theorem onceLogSync_run (log : Nat) (message : String) (state : FileState) :
    ∃ replies,
      onceLogSync log message state = (.ok (), { state with
        zbd := { state.zbd with replies := replies }.record (.walSync log) }) ∨
      onceLogSync log message state = (.error (.ioError message), { state with
        zbd := { state.zbd with replies := replies }.record (.walSyncFailed log) }) := by
  rcases ZonedBlockDevice.reply_run 0 state.zbd with ⟨answer, replies, answered⟩
  refine ⟨replies, ?_⟩
  simp only [onceLogSync, onDevice, Program.within, bind_of_ok answered]
  split
  · exact .inr rfl
  · exact .inl rfl

theorem onceLogSync_control {state : FileState} {log : Nat} (message : String)
    (opened : state.file.wal = some log) :
    ControlSteps state (onceLogSync log message state).2 := by
  rcases onceLogSync_run log message state with ⟨replies, run | run⟩
  all_goals
    rw [run]
    refine (ControlStep.device (state.zbd.still_replies replies)).steps.trans ?_
    apply ControlStep.steps
  · exact .walSync opened
  · exact .walSyncFailed log

theorem walSync_control : walSync.Respects ControlSteps := by
  refine .read_bind fun state => ?_
  cases opened : state.file.wal with
  | none => exact .refl
  | some log => exact onceLogSync_control _ opened

theorem releaseActiveZone_control (number : Nat) :
    (releaseActiveZone number).Respects ControlSteps := by
  have token (give : ZonedBlockDevice → ZonedBlockDevice)
      (still : ∀ zbd, ZonedBlockDevice.Still zbd (give zbd)) :
      (onDevice (Program.update give)).Respects ControlSteps :=
    onDevice_control (.update still)
  refine Program.Respects.read.bind fun state =>
    (onDevice_control (ZonedBlockDevice.closeZone_still number)).attempt.bind fun closed =>
      .bind (.update fun state => ?_) fun _ => ?_
  · exact (ControlStep.device (state.zbd.still_setBusy number false)).steps.trans
      (ControlStep.pointers none _ _ _ _ (.inl rfl)).steps
  · split
    · exact .fail _
    · refine (token _ fun zbd => zbd.still_tokens _ _).bind fun _ => ?_
      split
      · exact token _ fun zbd => zbd.still_tokens _ _
      · exact .pure _

theorem syncBeforeClose_control : syncBeforeClose.Respects ControlSteps := by
  refine .read_bind fun state => ?_
  cases state.file.isWal with
  | false => exact .refl
  | true =>
      cases opened : state.file.wal with
      | none => exact .refl
      | some log => exact onceLogSync_control _ opened

theorem closeActiveZone_control : closeActiveZone.Respects ControlSteps := by
  refine syncBeforeClose_control.attempt.bind fun synced =>
    Program.Respects.read.bind fun state => ?_
  split
  · exact releaseActiveZone_control _
  · exact .pure _
  · exact .fail _

theorem closeWR_control : closeWR.Respects ControlSteps := by
  refine .bind (pointers_control (fun _ => rfl) fun _ => .inr rfl) fun _ =>
    persistMetadata_control.bind fun _ => .bind ?_ fun _ => closeActiveZone_control
  exact pointers_control (fun _ => rfl) fun _ => .inl rfl

theorem grantZone_control : grantZone.Respects ControlSteps := by
  refine .read_bind fun state => ?_
  cases isWal : state.file.isWal with
  | false => exact (ControlStep.notWal isWal).steps
  | true =>
      rcases ZonedBlockDevice.allocateWALZone_spec state.zbd state.file.wal
        (ZoneFile.lastExtentZone state.file.extents) state.zbd (Std.Refl.refl _) with
        ⟨returned, stopped⟩
      rcases run : ZonedBlockDevice.allocateWALZone state.file.wal
        (ZoneFile.lastExtentZone state.file.extents) state.zbd with ⟨error | grant, zbd⟩
      · rw [if_pos rfl, bind_of_error (onDevice_of_error run)]
        exact (ControlStep.device (stopped _ _ run)).steps
      · have granted : ControlSteps state
            { state with zbd := zbd, file := { state.file with wal := grant.wal } } := by
          rcases returned _ _ run with ⟨_, same, still⟩ | ⟨log, opened, still⟩
          · rw [same]
            exact (ControlStep.device still).steps
          · rw [opened]
            exact (ControlStep.openLog log).steps.trans (ControlStep.device still).steps
        rw [if_pos rfl, bind_of_ok (onDevice_of_ok run)]
        refine granted.trans ?_
        cases grant.status <;> exact .refl

theorem allocateNewZone_control : allocateNewZone.Respects ControlSteps := by
  refine grantZone_control.bind fun granted => ?_
  split
  · exact .fail _
  · exact .bind (.update fun state => 
        (ControlStep.pointers _ _ _ _ _ (.inr (.inr ⟨_, rfl⟩))).steps) fun _ => persistMetadata_control

theorem ensureActiveZone_control : ensureActiveZone.Respects ControlSteps := by
  refine Program.Respects.read.bind fun state => ?_
  split
  · exact .pure _
  · exact allocateNewZone_control

theorem persistMetadata_ok {state final : FileState}
    (run : persistMetadata state = (.ok (), final)) :
    (state.file.isDeleted = true ∧ final = state) ∨ (state.file.isDeleted = false ∧
      ∃ replies, final = { state with
        zbd := { state.zbd with replies := replies }.record
          (.persist state.file.record)
        file := { state.file with nrSyncedExtents := state.file.extents.length } }) := by
  rw [persistMetadata, bind_read] at run
  cases deleted : state.file.isDeleted with
  | true =>
      rw [deleted, if_pos rfl] at run
      split at run
      · cases run
      · cases run
        exact .inl ⟨rfl, rfl⟩
  | false =>
      rw [deleted] at run
      rcases bind_eq_ok run with ⟨_, middle, request, update⟩
      rcases ZonedBlockDevice.request_run (.ioError "Failed to persist metadata") state.zbd with
        ⟨replies, answered | failed⟩
      · rw [onDevice_of_ok answered] at request
        cases request
        cases update
        exact .inr ⟨rfl, replies, rfl⟩
      · rw [onDevice_of_error failed] at request
        cases request

theorem allocateNewZone_ok {state final : FileState}
    (run : allocateNewZone state = (.ok (), final)) :
    ∃ number granted, grantZone state = (.ok (some number), granted) ∧
      persistMetadata { granted with file := { granted.file with
        activeZone := some number
        extentStart := (granted.zbd.zone number).wp
        extentFilepos := granted.file.fileSize } } = (.ok (), final) := by
  rcases bind_eq_ok run with ⟨grant, granted, allocate, run⟩
  cases grant with
  | none => cases run
  | some number =>
      rcases bind_eq_ok run with ⟨_, _, update, persist⟩
      cases update
      exact ⟨number, granted, allocate, persist⟩

theorem allocateNewZone_active {state final : FileState}
    (run : allocateNewZone state = (.ok (), final)) : final.file.activeZone.isSome := by
  rcases allocateNewZone_ok run with ⟨number, granted, _, persist⟩
  rcases persistMetadata_ok persist with ⟨_, rfl⟩ | ⟨_, replies, rfl⟩
  · rfl
  · rfl

theorem allocateNewZone_started {state final : FileState}
    (run : allocateNewZone state = (.ok (), final)) :
    final.file.extentStart = final.active.wp := by
  rcases allocateNewZone_ok run with ⟨number, granted, _, persist⟩
  rcases persistMetadata_ok persist with ⟨_, rfl⟩ | ⟨_, replies, rfl⟩
  · rfl
  · rfl

/-! ## What control operations leave alone -/

/-- A control operation on a write-ahead log as a whole: the zone and the log it uses
may change, and requests that write no data are made. -/
structure Quiet (before after : FileState) : Prop where
  buffer : after.buffer = before.buffer
  file : after.file = { before.file with
    activeZone := after.file.activeZone
    extentStart := after.file.extentStart
    extentFilepos := after.file.extentFilepos
    nrSyncedExtents := after.file.nrSyncedExtents
    openForWr := after.file.openForWr
    wal := after.file.wal }
  zone : ∀ number, Zone.Controlled (before.zbd.zone number) (after.zbd.zone number)
  trace : ∃ control : List IoEvent, (∀ event ∈ control, event.isControl = true) ∧
    after.zbd.trace = before.zbd.trace ++ control

theorem Quiet.refl (state : FileState) : Quiet state state :=
  ⟨rfl, rfl, fun _ => .refl _, [], by simp, by simp⟩

theorem Quiet.trans {first second third : FileState} (one : Quiet first second)
    (two : Quiet second third) : Quiet first third := by
  rcases one.trace with ⟨control, quiet, trace⟩
  rcases two.trace with ⟨control', quiet', trace'⟩
  refine ⟨two.buffer.trans one.buffer, ?_, fun number => (one.zone number).trans (two.zone number),
    control ++ control', ?_, by rw [trace', trace, List.append_assoc]⟩
  · rw [two.file, one.file]
  · intro event member
    rcases List.mem_append.mp member with member | member
    · exact quiet event member
    · exact quiet' event member

theorem Quiet.isWal {before after : FileState} (quiet : Quiet before after) :
    after.file.isWal = before.file.isWal := by
  rw [quiet.file]

theorem ControlStep.quiet {before after : FileState} (step : ControlStep before after)
    (isWal : before.file.isWal = true) : Quiet before after := by
  have event (event : IoEvent) (control : event.isControl = true) :
      ∃ events : List IoEvent, (∀ event ∈ events, event.isControl = true) ∧
        (before.zbd.record event).trace = before.zbd.trace ++ events :=
    ⟨[event], by simpa using control, rfl⟩
  cases step with
  | device still => exact ⟨rfl, rfl, still.zone, [], by simp, by simp [still.trace]⟩
  | pointers => exact ⟨rfl, rfl, fun _ => .refl _, [], by simp, by simp⟩
  | openLog => exact ⟨rfl, rfl, fun _ => .refl _, event _ rfl⟩
  | walSync => exact ⟨rfl, rfl, fun _ => .refl _, event _ rfl⟩
  | walSyncFailed => exact ⟨rfl, rfl, fun _ => .refl _, event _ rfl⟩
  | persist => exact ⟨rfl, rfl, fun _ => .refl _, event _ rfl⟩
  | notWal notWal => simp [isWal] at notWal

theorem ControlSteps.quiet {before after : FileState} (steps : ControlSteps before after)
    (isWal : before.file.isWal = true) : Quiet before after := by
  induction steps with
  | refl => exact .refl before
  | tail _ step induction => exact induction.trans (step.quiet (induction.isWal.trans isWal))

theorem closeActiveZone_synced {state : FileState} (isWal : state.file.isWal = true) {log : Nat}
    (opened : state.file.wal = some log) :
    ∃ (event : IoEvent) (control : List IoEvent),
      (event = .walSync log ∨ event = .walSyncFailed log) ∧
      (∀ event ∈ control, event.isControl = true) ∧
      (closeActiveZone state).2.zbd.trace = state.zbd.trace ++ event :: control := by
  have sync : syncBeforeClose state = onceLogSync log "Failed syncing WAL" state := by
    rw [syncBeforeClose, bind_read]
    simp only [isWal, opened]
  rcases synced : syncBeforeClose state with ⟨outcome, middle⟩
  have first : ∃ event, (event = .walSync log ∨ event = .walSyncFailed log) ∧
      middle.zbd.trace = state.zbd.trace ++ [event] := by
    rw [sync] at synced
    rcases onceLogSync_run log "Failed syncing WAL" state with ⟨replies, run | run⟩
    all_goals
      rw [run] at synced
      cases synced
    · exact ⟨.walSync log, .inl rfl, rfl⟩
    · exact ⟨.walSyncFailed log, .inr rfl, rfl⟩
  have middleWal : middle.file.isWal = true := by
    have quiet := (syncBeforeClose_control state).quiet isWal
    rw [synced] at quiet
    exact quiet.isWal.trans isWal
  have attempted : syncBeforeClose.attempt state = (.ok outcome, middle) := by
    simp only [Program.attempt, synced]
  have rest : ControlSteps middle (closeActiveZone state).2 := by
    rw [closeActiveZone, bind_of_ok attempted]
    refine (Program.Respects.read.bind fun state => ?_) middle
    split
    · exact releaseActiveZone_control _
    · exact .pure _
    · exact .fail _
  rcases first with ⟨event, kind, trace⟩
  rcases (rest.quiet middleWal).trace with ⟨control, quiet, last⟩
  exact ⟨event, control, kind, quiet, by rw [last, trace, List.append_assoc, List.singleton_append]⟩

end FileState

end Zwal
