import Zwal.Device.IoZones
import Zwal.Device.WalZones

/-! # What the device does while it looks for a zone

Looking for a zone may finish zones that are not in use and release zones of deleted
write-ahead logs. These steps are listed once; the specifications of the allocation
functions say which steps were made and which zone was taken at their end. -/

namespace Zwal.ZonedBlockDevice

def Failing (zbd : ZonedBlockDevice) : Prop := ∃ answer ∈ zbd.replies, answer < 0

/-- `Zone::Finish` and the return of the zone's active token. -/
def finished (zbd : ZonedBlockDevice) (number : Nat) : ZonedBlockDevice :=
  ((zbd.setZone number { zbd.zone number with
    capacity := 0, wp := (zbd.zone number).start + zbd.zoneSize }).record
      (.finish number)).putActiveIOZoneToken

inductive DeviceStep : ZonedBlockDevice → ZonedBlockDevice → Prop
  | answer {zbd replies} : replies <:+ zbd.replies → DeviceStep zbd { zbd with replies := replies }
  | finish {zbd number} : number ∈ zbd.ioZones → (zbd.zone number).busy = false →
      (zbd.zone number).isEmpty = false → (zbd.zone number).isFull = false →
      DeviceStep zbd (zbd.finished number)
  | releaseWal {zbd number} : number ∈ zbd.walZones →
      DeviceStep zbd (zbd.releaseUnusedWALZone number)

def DeviceSteps : ZonedBlockDevice → ZonedBlockDevice → Prop := Relation.ReflTransGen DeviceStep

theorem DeviceStep.steps {before after : ZonedBlockDevice} (step : DeviceStep before after) :
    DeviceSteps before after :=
  .single step

theorem releaseUnusedWALZone_cases (zbd : ZonedBlockDevice) (number : Nat) :
    zbd.releaseUnusedWALZone number = zbd ∨
      ((zbd.zone number).busy = false ∧ (zbd.zone number).isEmpty = false ∧
        (zbd.zone number).isUsed = false ∧ zbd.releaseUnusedWALZone number =
          { zbd.setZone number { zbd.zone number with
              capacity := (zbd.zone number).maxCapacity, wp := (zbd.zone number).start } with
            activeIoZones :=
              if (zbd.zone number).isFull then zbd.activeIoZones else zbd.activeIoZones - 1 }) := by
  rw [releaseUnusedWALZone]
  simp only
  split
  · exact .inl rfl
  · rename_i idle
    split
    · rename_i unused
      simp only [Bool.and_eq_true, Bool.not_eq_true'] at unused
      refine .inr ⟨Bool.eq_false_iff.mpr idle, unused.1, unused.2, ?_⟩
      split
      · rfl
      · rfl
    · exact .inl rfl

theorem DeviceStep.withOpen {before after : ZonedBlockDevice} (step : DeviceStep before after)
    (opened : Int) :
    after.openIoZones = before.openIoZones ∧
      DeviceStep { before with openIoZones := opened } { after with openIoZones := opened } := by
  cases step with
  | answer shorter => exact ⟨rfl, .answer shorter⟩
  | finish member idle filled room => exact ⟨rfl, .finish member idle filled room⟩
  | @releaseWal number member =>
      have moved : { before.releaseUnusedWALZone number with openIoZones := opened } =
          { before with openIoZones := opened }.releaseUnusedWALZone number := by
        simp only [releaseUnusedWALZone, putActiveIOZoneToken, setZone]
        repeat' split
        all_goals rfl
      refine ⟨?_, ?_⟩
      · simp only [releaseUnusedWALZone, putActiveIOZoneToken, setZone]
        repeat' split
        all_goals rfl
      · rw [moved]
        exact .releaseWal member

theorem DeviceSteps.withOpen {before after : ZonedBlockDevice} (steps : DeviceSteps before after)
    (opened : Int) :
    after.openIoZones = before.openIoZones ∧
      DeviceSteps { before with openIoZones := opened } { after with openIoZones := opened } := by
  induction steps with
  | refl => exact ⟨rfl, .refl⟩
  | tail _ step induction =>
      have moved := step.withOpen opened
      exact ⟨moved.1.trans induction.1, induction.2.tail moved.2⟩

structure Fixed (before after : ZonedBlockDevice) : Prop where
  blockSize : after.blockSize = before.blockSize
  zoneSize : after.zoneSize = before.zoneSize
  ioZones : after.ioZones = before.ioZones
  walZones : after.walZones = before.walZones
  maxOpen : after.maxNrOpenIoZones = before.maxNrOpenIoZones
  maxActive : after.maxNrActiveIoZones = before.maxNrActiveIoZones
  start : ∀ number, (after.zone number).start = (before.zone number).start

namespace Fixed

theorem refl (zbd : ZonedBlockDevice) : Fixed zbd zbd := ⟨rfl, rfl, rfl, rfl, rfl, rfl, fun _ => rfl⟩

theorem trans {first second third : ZonedBlockDevice} (one : Fixed first second)
    (two : Fixed second third) : Fixed first third where
  blockSize := two.blockSize.trans one.blockSize
  zoneSize := two.zoneSize.trans one.zoneSize
  ioZones := two.ioZones.trans one.ioZones
  walZones := two.walZones.trans one.walZones
  maxOpen := two.maxOpen.trans one.maxOpen
  maxActive := two.maxActive.trans one.maxActive
  start number := (two.start number).trans (one.start number)

theorem setZone {zbd : ZonedBlockDevice} {number : Nat} {zone : Zone}
    (same : zone.start = (zbd.zone number).start) : Fixed zbd (zbd.setZone number zone) := by
  refine ⟨rfl, rfl, rfl, rfl, rfl, rfl, fun other => ?_⟩
  by_cases here : other = number
  · rw [here, zone_setZone, same]
  · rw [zone_setZone_of_ne here]

theorem withTokens {zbd : ZonedBlockDevice} (active opened : Int) (replies : List Int)
    (trace : List IoEvent) (deferred : Option IOStatus) :
    Fixed zbd { zbd with
      activeIoZones := active, openIoZones := opened, replies := replies, trace := trace
      zoneDeferredStatus := deferred } :=
  ⟨rfl, rfl, rfl, rfl, rfl, rfl, fun _ => rfl⟩

end Fixed

theorem DeviceStep.fixed {before after : ZonedBlockDevice} (step : DeviceStep before after) :
    Fixed before after := by
  cases step with
  | answer => exact .withTokens _ _ _ _ _
  | @finish number =>
      have moved : Fixed before (before.setZone number { before.zone number with
          capacity := 0, wp := (before.zone number).start + before.zoneSize }) := .setZone rfl
      exact moved.trans (.withTokens _ _ _ _ _)
  | @releaseWal number =>
      rw [releaseUnusedWALZone]
      simp only
      split
      · exact .refl _
      · split
        · have moved : Fixed before (before.setZone number { before.zone number with
              capacity := (before.zone number).maxCapacity, wp := (before.zone number).start }) :=
            .setZone rfl
          split
          · exact moved
          · exact moved.trans (.withTokens _ _ _ _ _)
        · exact .refl _

theorem DeviceSteps.fixed {before after : ZonedBlockDevice} (steps : DeviceSteps before after) :
    Fixed before after := by
  induction steps with
  | refl => exact .refl _
  | tail _ step induction => exact induction.trans step.fixed

theorem DeviceStep.answers {before after : ZonedBlockDevice} (step : DeviceStep before after) :
    after.replies <:+ before.replies := by
  cases step with
  | answer shorter => exact shorter
  | finish => exact List.suffix_rfl
  | releaseWal =>
      simp only [releaseUnusedWALZone, putActiveIOZoneToken, setZone]
      repeat' split
      all_goals exact List.suffix_rfl

theorem Failing.before {before after : ZonedBlockDevice} (shorter : after.replies <:+ before.replies)
    (failing : after.Failing) : before.Failing := by
  rcases failing with ⟨answer, member, negative⟩
  exact ⟨answer, shorter.subset member, negative⟩

/-! ## Requests -/

theorem reply_cases (success : Int) (zbd : ZonedBlockDevice) :
    ∃ answer replies, replies <:+ zbd.replies ∧
      (answer = success ∨ answer ∈ zbd.replies) ∧
      reply success zbd = (.ok answer, { zbd with replies := replies }) := by
  rw [reply]
  split
  · exact ⟨success, zbd.replies, List.suffix_rfl, .inl rfl, rfl⟩
  · rename_i answer rest same
    exact ⟨answer, rest, same ▸ List.suffix_cons _ _, .inr (same ▸ List.mem_cons_self), rfl⟩

theorem Failing.of_head {zbd : ZonedBlockDevice} (negative : zbd.replies.headD 0 < 0) :
    zbd.Failing := by
  cases answers : zbd.replies with
  | nil => simp [answers] at negative
  | cons answer rest =>
      rw [answers] at negative
      exact ⟨answer, answers ▸ List.mem_cons_self, negative⟩

theorem request_cases (failure : IOStatus) (zbd : ZonedBlockDevice) :
    ∃ replies, replies <:+ zbd.replies ∧
      (request failure zbd = (.ok (), { zbd with replies := replies }) ∨
        (zbd.Failing ∧ request failure zbd = (.error failure, { zbd with replies := replies }))) := by
  refine ⟨zbd.replies.tail, List.tail_suffix _, ?_⟩
  rw [request_eq]
  split
  · rename_i negative
    exact .inr ⟨.of_head negative, rfl⟩
  · exact .inl rfl

theorem closeZone_cases (number : Nat) (zbd : ZonedBlockDevice) :
    ∃ replies, replies <:+ zbd.replies ∧
      (closeZone number zbd = (.ok (), { zbd with replies := replies }) ∨
        (zbd.Failing ∧ ∃ failure,
          closeZone number zbd = (.error failure, { zbd with replies := replies }))) := by
  rw [closeZone, bind_read]
  split
  · exact ⟨zbd.replies, List.suffix_rfl, .inl rfl⟩
  · rcases request_cases (.ioError "Zone close failed\n") zbd with
      ⟨replies, shorter, run | ⟨failing, run⟩⟩
    · exact ⟨replies, shorter, .inl run⟩
    · exact ⟨replies, shorter, .inr ⟨failing, _, run⟩⟩

theorem closeZone_ends {number : Nat} {failure : IOStatus} {zbd next : ZonedBlockDevice}
    (run : closeZone number zbd = (.error failure, next)) : failure ≠ .never := by
  rw [closeZone, bind_read] at run
  split at run
  · cases run
  · rcases request_cases (.ioError "Zone close failed\n") zbd with ⟨_, _, done | ⟨_, failed⟩⟩
    · rw [done] at run
      cases run
    · rw [failed] at run
      cases run
      simp

/-! ## Finishing zones -/

theorem finishZone_cases (number : Nat) (zbd : ZonedBlockDevice) :
    ∃ replies, replies <:+ zbd.replies ∧
      ((∃ next, finishZone number zbd = (.ok (), next) ∧
          next.putActiveIOZoneToken = { zbd with replies := replies }.finished number) ∨
        ∃ message, finishZone number zbd =
          (.error (.ioError message), { zbd with replies := replies })) := by
  rcases request_cases (.ioError "Zone finish failed\n") zbd with
    ⟨replies, shorter, run | ⟨_, run⟩⟩
  · refine ⟨replies, shorter, .inl ⟨_, ?_, rfl⟩⟩
    rw [finishZone, bind_of_ok run]
    rfl
  · refine ⟨replies, shorter, .inr ⟨"Zone finish failed\n", ?_⟩⟩
    rw [finishZone, bind_of_error run]

structure Finishable (zbd : ZonedBlockDevice) (number : Nat) : Prop where
  member : number ∈ zbd.ioZones
  idle : (zbd.zone number).busy = false
  filled : (zbd.zone number).isEmpty = false
  room : (zbd.zone number).isFull = false

theorem Finishable.steps {zbd : ZonedBlockDevice} {number : Nat}
    (finishable : Finishable zbd number) {replies : List Int} (shorter : replies <:+ zbd.replies) :
    DeviceSteps zbd ({ zbd with replies := replies }.finished number) :=
  (DeviceStep.answer shorter).steps.tail
    (.finish finishable.member finishable.idle finishable.filled finishable.room)

theorem applyFinishThresholdFrom_steps (numbers : List Nat) (zbd : ZonedBlockDevice)
    (members : ∀ number ∈ numbers, number ∈ zbd.ioZones) :
    DeviceSteps zbd (applyFinishThresholdFrom numbers zbd).2 := by
  induction numbers generalizing zbd with
  | nil => exact .refl
  | cons number numbers induction =>
      have rest : ∀ other ∈ numbers, other ∈ zbd.ioZones := fun other member =>
        members other (List.mem_cons_of_mem _ member)
      rw [applyFinishThresholdFrom, bind_read]
      split
      · rename_i chosen
        simp only [Bool.and_eq_true, Bool.not_eq_true', Bool.or_eq_false_iff] at chosen
        have finishable : Finishable zbd number :=
          ⟨members number List.mem_cons_self, chosen.1.1, chosen.1.2.1, chosen.1.2.2⟩
        rcases finishZone_cases number zbd with
          ⟨replies, shorter, ⟨next, run, same⟩ | ⟨message, run⟩⟩
        · rw [bind_of_ok run, bind_update, same]
          exact (finishable.steps shorter).trans (induction _ rest)
        · rw [bind_of_error run]
          exact (DeviceStep.answer shorter).steps
      · exact induction zbd rest

theorem applyFinishThreshold_steps (zbd : ZonedBlockDevice) :
    DeviceSteps zbd (applyFinishThreshold zbd).2 := by
  rw [applyFinishThreshold, bind_read]
  split
  · exact .refl
  · exact applyFinishThresholdFrom_steps zbd.ioZones zbd fun _ member => member

theorem foldl_choice {Choice : Type} (good : Choice → Prop) (choose : Choice → Nat → Choice)
    {numbers : List Nat} (kept : ∀ choice, ∀ number ∈ numbers, good choice → good (choose choice number))
    {choice : Choice} (start : good choice) : good (numbers.foldl choose choice) := by
  induction numbers generalizing choice with
  | nil => exact start
  | cons number numbers induction =>
      exact induction (fun choice other member => kept choice other (List.mem_cons_of_mem _ member))
        (kept choice number List.mem_cons_self start)

theorem finishVictim_finishable {zbd : ZonedBlockDevice} {number : Nat}
    (chosen : zbd.finishVictim = some number) : Finishable zbd number := by
  have good : ∀ number, zbd.finishVictim = some number → Finishable zbd number := by
    refine foldl_choice (fun victim => ∀ number, victim = some number → Finishable zbd number)
      _ ?_ nofun
    intro victim other member held number taken
    simp only at taken
    split at taken
    · exact held number taken
    · rename_i free
      simp only [Bool.or_eq_true, not_or, Bool.not_eq_true] at free
      have finishable : Finishable zbd other := ⟨member, free.1.1, free.1.2, free.2⟩
      split at taken
      · cases taken
        exact finishable
      · split at taken
        · cases taken
          exact finishable
        · exact held number taken
  exact good number chosen

theorem finishCheapestIOZone_cases (zbd : ZonedBlockDevice) :
    DeviceSteps zbd (finishCheapestIOZone zbd).2 ∧
      ∀ failure, (finishCheapestIOZone zbd).1 = .error failure → failure ≠ .never := by
  rw [finishCheapestIOZone, bind_read]
  cases chosen : zbd.finishVictim with
  | none => exact ⟨.refl, nofun⟩
  | some victim =>
      rcases finishZone_cases victim zbd with
        ⟨replies, shorter, ⟨next, run, same⟩ | ⟨message, run⟩⟩
      · simp only [bind_of_ok run]
        rw [show Program.update putActiveIOZoneToken next = (.ok (), _) from rfl, same]
        exact ⟨(finishVictim_finishable chosen).steps shorter, nofun⟩
      · simp only [bind_of_error run]
        refine ⟨(DeviceStep.answer shorter).steps, ?_⟩
        intro failure same
        cases same
        simp

/-! ## Taking a zone -/

theorem getActiveIOZoneToken_true {zbd : ZonedBlockDevice}
    (available : zbd.activeIoZones < zbd.maxNrActiveIoZones) :
    getActiveIOZoneTokenIfAvailable zbd =
      (.ok true, { zbd with activeIoZones := zbd.activeIoZones + 1 }) := by
  rw [getActiveIOZoneTokenIfAvailable, if_pos available]

theorem getActiveIOZoneToken_false {zbd : ZonedBlockDevice}
    (none : ¬ zbd.activeIoZones < zbd.maxNrActiveIoZones) :
    getActiveIOZoneTokenIfAvailable zbd = (.ok false, zbd) := by
  rw [getActiveIOZoneTokenIfAvailable, if_neg none]

/-- A search that ended without a zone, after it had taken an open token. -/
def Returned (before : ZonedBlockDevice) (after : ZonedBlockDevice) : Prop :=
  ∃ middle, DeviceSteps before middle ∧ after = middle.putOpenIOZoneToken

theorem finishUntilToken_cases (fuel : Nat) (zbd : ZonedBlockDevice) :
    (∃ middle, DeviceSteps zbd middle ∧ middle.activeIoZones < middle.maxNrActiveIoZones ∧
        finishUntilToken fuel zbd =
          (.ok (), { middle with activeIoZones := middle.activeIoZones + 1 })) ∨
      ∃ failure after, finishUntilToken fuel zbd = (.error failure, after) ∧
        (failure = .never ∨ Returned zbd after) := by
  induction fuel generalizing zbd with
  | zero => exact .inr ⟨_, _, rfl, .inl rfl⟩
  | succ fuel induction =>
      by_cases available : zbd.activeIoZones < zbd.maxNrActiveIoZones
      · refine .inl ⟨zbd, .refl, available, ?_⟩
        rw [finishUntilToken, bind_of_ok (getActiveIOZoneToken_true available)]
        rfl
      · have cheapest := finishCheapestIOZone_cases zbd
        rw [finishUntilToken, bind_of_ok (getActiveIOZoneToken_false available)]
        simp only [Bool.false_eq_true, if_false]
        rw [bind_of_ok (show finishCheapestIOZone.attempt zbd =
          (.ok (finishCheapestIOZone zbd).1, (finishCheapestIOZone zbd).2) from rfl)]
        rcases run : finishCheapestIOZone zbd with ⟨failure | _, next⟩
        all_goals rw [run] at cheapest
        · exact .inr ⟨failure, _, rfl, .inr ⟨next, cheapest.1, rfl⟩⟩
        · rcases induction next with ⟨middle, steps, room, run⟩ | ⟨failure, after, run, ends⟩
          · exact .inl ⟨middle, cheapest.1.trans steps, room, run⟩
          · refine .inr ⟨failure, after, run, ends.imp_right fun ⟨middle, steps, same⟩ => ?_⟩
            exact ⟨middle, cheapest.1.trans steps, same⟩

structure Matching (zbd : ZonedBlockDevice) (number : Nat) : Prop where
  member : number ∈ zbd.ioZones
  idle : (zbd.zone number).busy = false
  used : (zbd.zone number).isUsed = true
  room : (zbd.zone number).isFull = false

theorem getBestOpenZoneMatch_matching {zbd : ZonedBlockDevice} {lifetime minCapacity number : Nat}
    (chosen : (zbd.getBestOpenZoneMatch lifetime minCapacity).2 = some number) :
    Matching zbd number ∧ minCapacity ≤ (zbd.zone number).capacity := by
  have good : ∀ number, (zbd.getBestOpenZoneMatch lifetime minCapacity).2 = some number →
      Matching zbd number ∧ minCapacity ≤ (zbd.zone number).capacity := by
    refine foldl_choice (fun best : Nat × Option Nat => ∀ number, best.2 = some number →
      Matching zbd number ∧ minCapacity ≤ (zbd.zone number).capacity) _ ?_ nofun
    intro best other member held number taken
    simp only at taken
    split at taken
    · rename_i better
      simp only [Bool.and_eq_true, Bool.not_eq_true', decide_eq_true_eq] at better
      cases taken
      exact ⟨⟨member, better.1.1.1.1, better.1.1.1.2, better.1.1.2⟩, better.1.2⟩
    · exact held number taken
  exact good number chosen

structure Vacant (zbd : ZonedBlockDevice) (number : Nat) : Prop where
  member : number ∈ zbd.ioZones
  idle : (zbd.zone number).busy = false
  empty : (zbd.zone number).isEmpty = true

theorem emptyIOZone_vacant {zbd : ZonedBlockDevice} {number : Nat}
    (chosen : zbd.emptyIOZone = some number) : Vacant zbd number := by
  have found := List.find?_some chosen
  simp only [Bool.and_eq_true, Bool.not_eq_true'] at found
  exact ⟨List.mem_of_find?_eq_some chosen, found.1, found.2⟩

inductive Taken (lifetime : Nat) : ZonedBlockDevice → Nat → ZonedBlockDevice → Prop
  | partly {zbd number} : Matching zbd number → Taken lifetime zbd number (zbd.setBusy number true)
  | empty {zbd number} : Vacant zbd number → zbd.activeIoZones < zbd.maxNrActiveIoZones →
      Taken lifetime zbd number
        { zbd.setZone number { zbd.zone number with busy := true, lifetime := lifetime } with
          activeIoZones := zbd.activeIoZones + 1 }

theorem Taken.fixed {lifetime number : Nat} {before after : ZonedBlockDevice}
    (taken : Taken lifetime before number after) : Fixed before after := by
  cases taken with
  | partly => exact .setZone rfl
  | empty =>
      have moved : Fixed before (before.setZone number { before.zone number with
          busy := true, lifetime := lifetime }) := .setZone rfl
      exact moved.trans (.withTokens _ _ _ _ _)

theorem Taken.answers {lifetime number : Nat} {before after : ZonedBlockDevice}
    (taken : Taken lifetime before number after) : after.replies = before.replies := by
  cases taken with
  | partly | empty => rfl

def Chosen (lifetime : Nat) (before : ZonedBlockDevice) :
    Except IOStatus (Option Nat) × ZonedBlockDevice → Prop
  | (.ok (some number), after) =>
      ∃ middle, DeviceSteps before middle ∧ Taken lifetime middle number after
  | (.ok none, after) => Returned before after
  | (.error failure, after) => failure = .never ∨ Returned before after

theorem allocateEmptyZone_chosen (lifetime : Nat) {zbd : ZonedBlockDevice}
    (available : zbd.activeIoZones < zbd.maxNrActiveIoZones) :
    Chosen lifetime zbd
      (allocateEmptyZone lifetime { zbd with activeIoZones := zbd.activeIoZones + 1 }) := by
  have same : { zbd with activeIoZones := zbd.activeIoZones + 1 }.emptyIOZone = zbd.emptyIOZone := rfl
  rw [allocateEmptyZone, bind_read, same]
  cases chosen : zbd.emptyIOZone with
  | some number => exact ⟨zbd, .refl, .empty (emptyIOZone_vacant chosen) available⟩
  | none =>
      refine ⟨zbd, .refl, ?_⟩
      simp only [putActiveIOZoneToken, putOpenIOZoneToken, Int.add_sub_cancel]

theorem Chosen.after {lifetime : Nat} {before middle : ZonedBlockDevice}
    {result : Except IOStatus (Option Nat) × ZonedBlockDevice} (steps : DeviceSteps before middle)
    (chosen : Chosen lifetime middle result) : Chosen lifetime before result := by
  have returned {after : ZonedBlockDevice} : Returned middle after → Returned before after :=
    fun ⟨last, more, same⟩ => ⟨last, steps.trans more, same⟩
  rcases result with ⟨failure | _ | number, after⟩
  · exact chosen.imp_right returned
  · exact returned chosen
  · rcases chosen with ⟨last, more, taken⟩
    exact ⟨last, steps.trans more, taken⟩

theorem openEmptyIOZone_chosen (lifetime : Nat) (zbd : ZonedBlockDevice) :
    Chosen lifetime zbd (openEmptyIOZone lifetime false zbd) := by
  rw [openEmptyIOZone, bind_read]
  simp only [Bool.false_eq_true, if_false]
  rcases finishUntilToken_cases (zbd.ioZones.length + 1) zbd with
    ⟨middle, steps, available, run⟩ | ⟨failure, after, run, ends⟩
  · rw [bind_of_ok run]
    exact (allocateEmptyZone_chosen lifetime available).after steps
  · rw [bind_of_error run]
    exact ends

theorem chooseIOZone_chosen (lifetime : Nat) (zbd : ZonedBlockDevice) :
    Chosen lifetime zbd (chooseIOZone lifetime zbd) := by
  rw [chooseIOZone, bind_read]
  have matching : ∀ number, (zbd.getBestOpenZoneMatch lifetime 0).2 = some number →
      Matching zbd number := fun number chosen => (getBestOpenZoneMatch_matching chosen).1
  generalize zbd.getBestOpenZoneMatch lifetime 0 = best at matching ⊢
  rcases best with ⟨bestDiff, candidate⟩
  have taken {number : Nat} (chosen : candidate = some number) :
      Chosen lifetime zbd (.ok (some number), zbd.setBusy number true) :=
    ⟨zbd, .refl, .partly (matching number chosen)⟩
  simp only at matching ⊢
  split
  · cases candidate with
    | none => exact ⟨zbd, .refl, rfl⟩
    | some number => exact taken rfl
  · by_cases available : zbd.activeIoZones < zbd.maxNrActiveIoZones
    · rw [bind_of_ok (getActiveIOZoneToken_true available)]
      cases candidate <;> exact allocateEmptyZone_chosen lifetime available
    · rw [bind_of_ok (getActiveIOZoneToken_false available)]
      cases candidate with
      | none => exact openEmptyIOZone_chosen lifetime zbd
      | some number =>
          simp only
          split
          · exact taken rfl
          · exact openEmptyIOZone_chosen lifetime zbd

/-- An ordinary zone granted to a file: whatever was finished before, the zone was free. -/
def GrantedIo (lifetime : Nat) (before : ZonedBlockDevice) (number : Nat)
    (after : ZonedBlockDevice) : Prop :=
  ∃ middle taken, DeviceSteps before middle ∧ Taken lifetime middle number taken ∧
    after = { taken with openIoZones := middle.openIoZones + 1 }

def EndedIo (lifetime : Nat) (before : ZonedBlockDevice) :
    Except IOStatus (Option Nat) × ZonedBlockDevice → Prop
  | (.ok (some number), after) => GrantedIo lifetime before number after
  | (.ok none, after) => DeviceSteps before after
  | (.error failure, after) => failure = .never ∨ DeviceSteps before after

theorem Taken.withOpen {lifetime number : Nat} {before after : ZonedBlockDevice}
    (taken : Taken lifetime before number after) (opened : Int) :
    after.openIoZones = before.openIoZones ∧
      Taken lifetime { before with openIoZones := opened } number
        { after with openIoZones := opened } := by
  cases taken with
  | partly matching => exact ⟨rfl, .partly ⟨matching.1, matching.2, matching.3, matching.4⟩⟩
  | empty vacant available => exact ⟨rfl, .empty ⟨vacant.1, vacant.2, vacant.3⟩ available⟩

theorem waitAndChoose (lifetime : Nat) (walIo : Bool) {zbd next : ZonedBlockDevice}
    (reached : DeviceSteps zbd next) :
    EndedIo lifetime zbd
      ((waitForOpenIOZoneToken walIo >>= fun _ => chooseIOZone lifetime) next) := by
  by_cases available : next.openIoZones <
      if walIo then (next.maxNrOpenIoZones : Int)
      else ((next.maxNrOpenIoZones + 2 ^ 32 - 1) % 2 ^ 32 : Nat)
  · have token : waitForOpenIOZoneToken walIo next =
        (.ok (), { next with openIoZones := next.openIoZones + 1 }) := by
      rw [waitForOpenIOZoneToken, if_pos available]
    have chosen := chooseIOZone_chosen lifetime { next with openIoZones := next.openIoZones + 1 }
    have returned {after : ZonedBlockDevice}
        (ends : Returned { next with openIoZones := next.openIoZones + 1 } after) :
        DeviceSteps zbd after := by
      rcases ends with ⟨middle, steps, rfl⟩
      have moved := steps.withOpen next.openIoZones
      refine reached.trans ?_
      have same : middle.putOpenIOZoneToken = { middle with openIoZones := next.openIoZones } := by
        rw [putOpenIOZoneToken, moved.1]
        simp
      rw [same]
      exact moved.2
    rw [bind_of_ok token]
    rcases run : chooseIOZone lifetime { next with openIoZones := next.openIoZones + 1 } with
      ⟨failure | _ | number, after⟩
    all_goals rw [run] at chosen
    · exact chosen.imp_right returned
    · exact returned chosen
    · rcases chosen with ⟨middle, steps, taken⟩
      have moved := steps.withOpen next.openIoZones
      have takenOpen := taken.withOpen next.openIoZones
      have opened : after.openIoZones = next.openIoZones + 1 := takenOpen.1.trans moved.1
      refine ⟨_, _, reached.trans moved.2, takenOpen.2, ?_⟩
      rw [← opened]
  · have token : waitForOpenIOZoneToken walIo next = (.error .never, next) := by
      rw [waitForOpenIOZoneToken, if_neg available]
    rw [bind_of_error token]
    exact .inl rfl

theorem allocateIOZone_cases (lifetime : Nat) (walIo : Bool) (zbd : ZonedBlockDevice) :
    EndedIo lifetime zbd (allocateIOZone lifetime walIo zbd) := by
  rw [allocateIOZone, bind_read]
  cases zbd.zoneDeferredStatus with
  | some deferred => exact .inr .refl
  | none =>
      cases walIo with
      | true => exact waitAndChoose lifetime true .refl
      | false =>
          have threshold := applyFinishThreshold_steps zbd
          simp only [Bool.false_eq_true, if_false]
          rcases run : applyFinishThreshold zbd with ⟨failure | _, next⟩
          all_goals rw [run] at threshold
          · rw [bind_of_error run]
            exact .inr threshold
          · rw [bind_of_ok run]
            exact waitAndChoose lifetime false threshold

/-! ## Zones of write-ahead logs -/

structure GroupZone (zbd : ZonedBlockDevice) (index number : Nat) : Prop where
  first : index ∈ walGroupIndices
  found : zbd.walZones[index]? = some number
  idle : (zbd.zone number).busy = false
  empty : (zbd.zone number).isEmpty = true

theorem firstEmptyWalGroup_zone {zbd : ZonedBlockDevice} {indices : List Nat} {index number : Nat}
    (chosen : zbd.firstEmptyWalGroup indices = some (index, number))
    (groups : ∀ index ∈ indices, index ∈ walGroupIndices) : GroupZone zbd index number := by
  induction indices with
  | nil => cases chosen
  | cons head indices induction =>
      rw [firstEmptyWalGroup] at chosen
      split at chosen
      · cases chosen
      · rename_i candidate found
        split at chosen
        · rename_i free
          simp only [Bool.and_eq_true, Bool.not_eq_true'] at free
          cases chosen
          exact ⟨groups _ List.mem_cons_self, found, free.1, free.2⟩
        · exact induction chosen fun index member => groups index (List.mem_cons_of_mem _ member)

structure Tokens (zbd : ZonedBlockDevice) : Prop where
  opened : zbd.openIoZones < zbd.maxNrOpenIoZones
  active : zbd.activeIoZones < zbd.maxNrActiveIoZones

def withTokens (zbd : ZonedBlockDevice) : ZonedBlockDevice :=
  { zbd with openIoZones := zbd.openIoZones + 1, activeIoZones := zbd.activeIoZones + 1 }

theorem takeWalTokens_of_tokens {zbd : ZonedBlockDevice} (tokens : Tokens zbd) :
    takeWalTokens zbd = (.ok (), zbd.withTokens) := by
  have first : waitForOpenIOZoneToken true zbd =
      (.ok (), { zbd with openIoZones := zbd.openIoZones + 1 }) := by
    rw [waitForOpenIOZoneToken]
    simp only [if_true, if_pos tokens.opened]
  rw [takeWalTokens, bind_of_ok first,
    bind_of_ok (getActiveIOZoneToken_true (by exact tokens.active))]
  rfl

theorem takeWalTokens_cases (zbd : ZonedBlockDevice) :
    (Tokens zbd ∧ takeWalTokens zbd = (.ok (), zbd.withTokens)) ∨
      ∃ after, takeWalTokens zbd = (.error .never, after) := by
  by_cases opened : zbd.openIoZones < zbd.maxNrOpenIoZones
  · by_cases active : zbd.activeIoZones < zbd.maxNrActiveIoZones
    · exact .inl ⟨⟨opened, active⟩, takeWalTokens_of_tokens ⟨opened, active⟩⟩
    · have first : waitForOpenIOZoneToken true zbd =
          (.ok (), { zbd with openIoZones := zbd.openIoZones + 1 }) := by
        rw [waitForOpenIOZoneToken]
        simp only [if_true, if_pos opened]
      refine .inr ⟨{ zbd with openIoZones := zbd.openIoZones + 1 }, ?_⟩
      rw [takeWalTokens, bind_of_ok first,
        bind_of_ok (getActiveIOZoneToken_false (by exact active))]
      rfl
  · refine .inr ⟨zbd, ?_⟩
    have first : waitForOpenIOZoneToken true zbd = (.error .never, zbd) := by
      rw [waitForOpenIOZoneToken]
      simp only [if_true, if_neg opened]
    rw [takeWalTokens, bind_of_error first]

theorem releaseUnusedWALZones_steps (zbd : ZonedBlockDevice) :
    DeviceSteps zbd zbd.releaseUnusedWALZones := by
  have fold (numbers : List Nat) (zbd : ZonedBlockDevice)
      (members : ∀ number ∈ numbers, number ∈ zbd.walZones) :
      DeviceSteps zbd (numbers.foldl releaseUnusedWALZone zbd) := by
    induction numbers generalizing zbd with
    | nil => exact .refl
    | cons number numbers induction =>
        have same : (zbd.releaseUnusedWALZone number).walZones = zbd.walZones := by
          simp only [releaseUnusedWALZone, putActiveIOZoneToken, setZone]
          repeat' split
          all_goals rfl
        refine .head (.releaseWal (members number List.mem_cons_self)) (induction _ fun other member => ?_)
        rw [same]
        exact members other (List.mem_cons_of_mem _ member)
  exact fold _ zbd fun number member => List.mem_of_mem_take member

theorem openOnceLog_cases (log : Nat) (zbd : ZonedBlockDevice) :
    ∃ status replies, replies <:+ zbd.replies ∧
      (∀ failure, status = .error failure → zbd.Failing) ∧
      openOnceLog log zbd = (.ok status, { zbd with replies := replies }.record (.openLog log)) := by
  rcases request_cases (.ioError "WAL recover error") (zbd.record (.openLog log)) with
    ⟨replies, shorter, run | ⟨failing, run⟩⟩
  · refine ⟨.ok (), replies, shorter, nofun, ?_⟩
    rw [openOnceLog, bind_update, Program.attempt, run]
    rfl
  · refine ⟨.error (.ioError "WAL recover error"), replies, shorter, fun _ _ => failing, ?_⟩
    rw [openOnceLog, bind_update, Program.attempt, run]
    rfl

def LastOfGroup (number : Nat) : Prop :=
  (number - zenfsMetaZones - zenfsFlakyZones) % zenfsZonesForeachWal = zenfsZonesForeachWal - 1

/-- A zone taken for a write-ahead log, and its once-log. Going on in a group takes no
token and acquires nothing. -/
inductive WalTaken (wal activeZone : Option Nat) :
    ZonedBlockDevice → (number log : Nat) → ZonedBlockDevice → Prop
  | group {zbd index number replies} : GroupZone zbd index number → Tokens zbd →
      (∀ active, activeZone = some active → LastOfGroup active) → replies <:+ zbd.replies →
      WalTaken wal activeZone zbd number (index + zenfsMetaZones + zenfsFlakyZones)
        ({ (zbd.withTokens.setBusy number true) with replies := replies }.record
          (.openLog (index + zenfsMetaZones + zenfsFlakyZones)))
  | next {zbd active number log} : activeZone = some active → ¬ LastOfGroup active →
      zbd.walZones[active + 1 - zenfsMetaZones - zenfsFlakyZones]? = some number →
      wal = some log → WalTaken wal activeZone zbd number log zbd
  | reopened {zbd active number replies} (log) : activeZone = some active →
      ¬ LastOfGroup active →
      zbd.walZones[active + 1 - zenfsMetaZones - zenfsFlakyZones]? = some number →
      wal = none → replies <:+ zbd.replies →
      WalTaken wal activeZone zbd number log
        ({ zbd with replies := replies }.record (.openLog log))

theorem WalTaken.fixed {wal activeZone : Option Nat} {number log : Nat}
    {before after : ZonedBlockDevice} (taken : WalTaken wal activeZone before number log after) :
    Fixed before after := by
  cases taken with
  | group =>
      have moved : Fixed before.withTokens (before.withTokens.setBusy number true) := .setZone rfl
      exact (Fixed.withTokens _ _ _ _ _).trans (moved.trans (.withTokens _ _ _ _ _))
  | next => exact .refl _
  | reopened => exact .withTokens _ _ _ _ _

theorem WalTaken.answers {wal activeZone : Option Nat} {number log : Nat}
    {before after : ZonedBlockDevice} (taken : WalTaken wal activeZone before number log after) :
    after.replies <:+ before.replies := by
  cases taken with
  | group _ _ _ shorter => exact shorter
  | next => exact List.suffix_rfl
  | reopened _ _ _ _ _ shorter => exact shorter

def GrantedWal (wal activeZone : Option Nat) (before : ZonedBlockDevice) (grant : WalZoneGrant)
    (after : ZonedBlockDevice) : Prop :=
  ∃ middle number log, DeviceSteps before middle ∧ WalTaken wal activeZone middle number log after ∧
    grant.zone = some number ∧ grant.wal = some log ∧
    (∀ failure, grant.status = .error failure → middle.Failing)

def EndedWal (wal activeZone : Option Nat) (before : ZonedBlockDevice) :
    Except IOStatus WalZoneGrant × ZonedBlockDevice → Prop
  | (.ok grant, after) => GrantedWal wal activeZone before grant after
  | (.error failure, after) => failure = .never ∨ DeviceSteps before after

theorem allocateWALGroup_cases (wal : Option Nat) {activeZone : Option Nat}
    (fresh : ∀ active, activeZone = some active → LastOfGroup active)
    {before zbd : ZonedBlockDevice} (reached : DeviceSteps before zbd) :
    EndedWal wal activeZone before (allocateWALGroup zbd) := by
  rcases takeWalTokens_cases zbd with ⟨tokens, run⟩ | ⟨after, run⟩
  · rw [allocateWALGroup, bind_of_ok run, bind_read]
    have same : zbd.withTokens.firstEmptyWalGroup walGroupIndices =
        zbd.firstEmptyWalGroup walGroupIndices := by
      simp only [walGroupIndices, firstEmptyWalGroup, withTokens]
    rw [same]
    cases chosen : zbd.firstEmptyWalGroup walGroupIndices with
    | none =>
        refine .inr ?_
        have restored : zbd.withTokens.putActiveIOZoneToken.putOpenIOZoneToken = zbd := by
          simp only [withTokens, putActiveIOZoneToken, putOpenIOZoneToken, Int.add_sub_cancel]
        show DeviceSteps before zbd.withTokens.putActiveIOZoneToken.putOpenIOZoneToken
        rw [restored]
        exact reached
    | some group =>
        rcases group with ⟨index, number⟩
        have zone := firstEmptyWalGroup_zone chosen fun _ member => member
        rcases openOnceLog_cases (index + zenfsMetaZones + zenfsFlakyZones)
          (zbd.withTokens.setBusy number true) with ⟨status, replies, shorter, failing, opened⟩
        simp only
        rw [bind_update, bind_of_ok opened]
        exact ⟨zbd, number, _, reached, .group zone tokens fresh shorter, rfl, rfl, failing⟩
  · rw [allocateWALGroup, bind_of_error run]
    exact .inl rfl

theorem allocateWALZone_eq (wal activeZone : Option Nat) (zbd : ZonedBlockDevice) :
    allocateWALZone wal activeZone zbd = (match activeZone with
      | none => allocateWALGroup
      | some active =>
          if (active - zenfsMetaZones - zenfsFlakyZones) % zenfsZonesForeachWal =
              zenfsZonesForeachWal - 1 then
            allocateWALGroup
          else nextWALZone wal active) zbd.releaseUnusedWALZones :=
  rfl

theorem allocateWALZone_cases (wal activeZone : Option Nat) (zbd : ZonedBlockDevice) :
    EndedWal wal activeZone zbd (allocateWALZone wal activeZone zbd) := by
  have released := releaseUnusedWALZones_steps zbd
  rw [allocateWALZone_eq]
  generalize zbd.releaseUnusedWALZones = next at released
  cases activeZone with
  | none => exact allocateWALGroup_cases wal (fun _ none => by cases none) released
  | some active =>
      by_cases last : LastOfGroup active
      · simp only [if_pos (show _ = zenfsZonesForeachWal - 1 from last)]
        refine allocateWALGroup_cases wal (fun _ same => ?_) released
        cases same
        exact last
      · simp only [if_neg (show ¬ _ = zenfsZonesForeachWal - 1 from last)]
        rw [nextWALZone, bind_read]
        cases found : next.walZones[active + 1 - zenfsMetaZones - zenfsFlakyZones]? with
        | none => exact .inl rfl
        | some number =>
            cases wal with
            | some log =>
                refine ⟨next, number, log, released, .next rfl last found rfl, rfl, rfl, ?_⟩
                intro _ none
                cases none
            | none =>
                rcases openOnceLog_cases ((active - zenfsMetaZones - zenfsFlakyZones) %
                  zenfsZonesForeachWal + zenfsMetaZones + zenfsFlakyZones) next with
                  ⟨status, replies, shorter, failing, opened⟩
                simp only
                rw [bind_of_ok opened]
                exact ⟨next, number, _, released, .reopened _ rfl last found rfl shorter, rfl, rfl, failing⟩

end Zwal.ZonedBlockDevice
