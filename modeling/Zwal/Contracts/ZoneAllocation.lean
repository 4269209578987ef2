import Zwal.Device.Grants

/-! # The zone a file is given

`AllocateIOZone` scans the zones four times, acquiring and releasing them on the way. When
it returns it holds the zone it hands out and no other, and a zone with data in it is the
best match among those that could be had. -/

namespace Zwal.ZoneAllocation

open ZonedBlockDevice

structure Suits (fileLifetime : Nat) (zbd : ZonedBlockDevice) (number : Nat) : Prop where
  hint : fileLifetime < (zbd.zone number).lifetime ∨
    ((zbd.zone number).lifetime = fileLifetime ∧
      (fileLifetime = wlthNotSet ∨ fileLifetime = wlthNone ∨
        zbd.maxNrActiveIoZones ≤ zbd.activeIoZones))
  best : ∀ other ∈ zbd.ioZones, other ≠ number → (zbd.zone other).busy = false →
    (zbd.zone other).isFull = false → (zbd.zone other).isUsed = true →
    getLifeTimeDiff (zbd.zone number).lifetime fileLifetime ≤
      getLifeTimeDiff (zbd.zone other).lifetime fileLifetime

def SameBusy (before after : ZonedBlockDevice) : Prop :=
  ∀ number, (after.zone number).busy = (before.zone number).busy

/-- How `AllocateIOZone` may return. A call that waits forever does not return. -/
def Allocated (fileLifetime : Nat) (before : ZonedBlockDevice) :
    Except IOStatus (Option Nat) × ZonedBlockDevice → Prop
  | (.ok (some number), after) =>
      number ∈ before.ioZones ∧ (before.zone number).busy = false ∧
        (∀ other, (after.zone other).busy = true ↔ other = number ∨ (before.zone other).busy = true) ∧
        ((after.zone number).isEmpty = false → Suits fileLifetime after number)
  | (.ok none, after) => SameBusy before after
  | (.error failure, after) => failure = .never ∨ SameBusy before after

/-! ## Scans that hold nothing -/

theorem setZone_sameBusy {zbd : ZonedBlockDevice} {number : Nat} {changed : Zone}
    (same : changed.busy = (zbd.zone number).busy) : SameBusy zbd (zbd.setZone number changed) := by
  intro other
  by_cases here : other = number
  · rw [here, zone_setZone, same]
  · rw [zone_setZone_of_ne here]

theorem deviceStep_sameBusy {before after : ZonedBlockDevice} (step : DeviceStep before after) :
    SameBusy before after := by
  cases step with
  | answer => exact fun _ => rfl
  | @finish number =>
      have kept : SameBusy before (before.setZone number { before.zone number with
          capacity := 0, wp := (before.zone number).start + before.zoneSize }) :=
        setZone_sameBusy rfl
      exact kept
  | @releaseWal number =>
      rcases releaseUnusedWALZone_cases before number with same | ⟨_, _, _, same⟩
      · rw [same]
        exact fun _ => rfl
      · have kept : SameBusy before (before.setZone number { before.zone number with
            capacity := (before.zone number).maxCapacity, wp := (before.zone number).start }) :=
          setZone_sameBusy rfl
        rw [same]
        exact kept

theorem deviceSteps_sameBusy {before after : ZonedBlockDevice} (steps : DeviceSteps before after) :
    SameBusy before after := by
  induction steps with
  | refl => exact fun _ => rfl
  | tail _ step induction => exact fun other => (deviceStep_sameBusy step other).trans (induction other)

theorem Allocated.after {fileLifetime : Nat} {before middle : ZonedBlockDevice}
    {result : Except IOStatus (Option Nat) × ZonedBlockDevice} (same : SameBusy before middle)
    (zones : middle.ioZones = before.ioZones) (allocated : Allocated fileLifetime middle result) :
    Allocated fileLifetime before result := by
  rcases result with ⟨failure | _ | number, after⟩
  · exact allocated.imp_right fun kept other => (kept other).trans (same other)
  · exact fun other => (allocated other).trans (same other)
  · rcases allocated with ⟨member, idle, busy, suits⟩
    refine ⟨zones ▸ member, (same number).symm.trans idle, fun other => ?_, suits⟩
    rw [busy other, same other]

/-! ## The best match -/

def better (zbd : ZonedBlockDevice) (fileLifetime minCapacity : Nat) (best : Nat × Option Nat)
    (number : Nat) : Nat × Option Nat :=
  if !(zbd.zone number).busy && (zbd.zone number).isUsed && !(zbd.zone number).isFull &&
      minCapacity ≤ (zbd.zone number).capacity &&
      getLifeTimeDiff (zbd.zone number).lifetime fileLifetime ≤ best.1 then
    (getLifeTimeDiff (zbd.zone number).lifetime fileLifetime, some number)
  else best

section Scan

variable {zbd : ZonedBlockDevice} {fileLifetime minCapacity : Nat}

theorem better_le (best : Nat × Option Nat) (number : Nat) :
    (better zbd fileLifetime minCapacity best number).1 ≤ best.1 := by
  rw [better]
  split
  · rename_i taken
    simp only [Bool.and_eq_true, decide_eq_true_eq] at taken
    exact taken.2
  · exact Nat.le_refl _

theorem foldl_better_le (numbers : List Nat) (best : Nat × Option Nat) :
    (numbers.foldl (better zbd fileLifetime minCapacity) best).1 ≤ best.1 := by
  induction numbers generalizing best with
  | nil => exact Nat.le_refl _
  | cons number numbers induction => exact Nat.le_trans (induction _) (better_le best number)

theorem foldl_better_least (numbers : List Nat) (best : Nat × Option Nat) {other : Nat}
    (member : other ∈ numbers) (idle : (zbd.zone other).busy = false)
    (used : (zbd.zone other).isUsed = true) (room : (zbd.zone other).isFull = false)
    (fits : minCapacity ≤ (zbd.zone other).capacity) :
    (numbers.foldl (better zbd fileLifetime minCapacity) best).1 ≤
      getLifeTimeDiff (zbd.zone other).lifetime fileLifetime := by
  induction numbers generalizing best with
  | nil => cases member
  | cons number numbers induction =>
      rcases List.mem_cons.mp member with rfl | later
      · refine Nat.le_trans (foldl_better_le numbers _) ?_
        rw [better]
        split
        · exact Nat.le_refl _
        · rename_i worse
          simp only [idle, used, room, fits, Bool.not_false, Bool.true_and, decide_true,
            decide_eq_true_eq] at worse
          omega
      · exact induction _ later

theorem foldl_better_diff (numbers : List Nat) {best : Nat × Option Nat}
    (start : ∀ number, best.2 = some number →
      best.1 = getLifeTimeDiff (zbd.zone number).lifetime fileLifetime) (number : Nat)
    (chosen : (numbers.foldl (better zbd fileLifetime minCapacity) best).2 = some number) :
    (numbers.foldl (better zbd fileLifetime minCapacity) best).1 =
      getLifeTimeDiff (zbd.zone number).lifetime fileLifetime := by
  induction numbers generalizing best with
  | nil => exact start number chosen
  | cons head numbers induction =>
      refine induction ?_ chosen
      intro other taken
      rw [better] at taken ⊢
      split
      · rename_i fits
        rw [if_pos fits] at taken
        cases taken
        rfl
      · rename_i worse
        rw [if_neg worse] at taken
        exact start other taken

end Scan

structure BestMatch (fileLifetime : Nat) (zbd : ZonedBlockDevice) (bestDiff number : Nat) : Prop where
  matching : Matching zbd number
  diff : bestDiff = getLifeTimeDiff (zbd.zone number).lifetime fileLifetime
  least : ∀ other, Matching zbd other →
    bestDiff ≤ getLifeTimeDiff (zbd.zone other).lifetime fileLifetime

theorem getBestOpenZoneMatch_best {fileLifetime : Nat} {zbd : ZonedBlockDevice} {number : Nat}
    (chosen : (zbd.getBestOpenZoneMatch fileLifetime 0).2 = some number) :
    BestMatch fileLifetime zbd (zbd.getBestOpenZoneMatch fileLifetime 0).1 number := by
  have folded : zbd.getBestOpenZoneMatch fileLifetime 0 =
      zbd.ioZones.foldl (better zbd fileLifetime 0) (lifetimeDiffNotGood, none) := rfl
  refine ⟨(getBestOpenZoneMatch_matching chosen).1, ?_, ?_⟩
  · rw [folded] at chosen ⊢
    refine foldl_better_diff _ ?_ number chosen
    intro other none
    cases none
  · intro other matching
    rw [folded]
    exact foldl_better_least _ _ matching.member matching.idle matching.used matching.room
      (Nat.zero_le _)

theorem hint_of_diff {zoneLifetime fileLifetime : Nat}
    (small : getLifeTimeDiff zoneLifetime fileLifetime ≤ lifetimeDiffCouldBeWorse) :
    fileLifetime < zoneLifetime ∨ (zoneLifetime = fileLifetime ∧
      (fileLifetime = wlthNotSet ∨ fileLifetime = wlthNone ∨
        getLifeTimeDiff zoneLifetime fileLifetime = lifetimeDiffCouldBeWorse)) := by
  rw [getLifeTimeDiff] at small ⊢
  rw [lifetimeDiffCouldBeWorse, lifetimeDiffNotGood] at *
  split at small
  · rename_i unset
    split at small
    · rename_i equal
      exact .inr ⟨equal.symm, unset.elim .inl fun none => .inr (.inl none)⟩
    · omega
  · rename_i hinted
    split at small
    · rename_i greater
      exact .inl greater
    · split at small
      · rename_i below equal
        refine .inr ⟨equal, .inr (.inr ?_)⟩
        rw [if_neg hinted, if_neg below, if_pos equal]
      · omega

/-! ## Taking the zone -/

theorem busy_setBusy (zbd : ZonedBlockDevice) (number other : Nat) :
    ((zbd.setBusy number true).zone other).busy = true ↔
      other = number ∨ (zbd.zone other).busy = true := by
  rw [setBusy]
  by_cases here : other = number
  · rw [here, zone_setZone]
    simp
  · rw [zone_setZone_of_ne here]
    simp [here]

theorem allocated_best {fileLifetime bestDiff number : Nat} {zbd : ZonedBlockDevice}
    (found : BestMatch fileLifetime zbd bestDiff number)
    (good : bestDiff < lifetimeDiffCouldBeWorse ∨
      (bestDiff = lifetimeDiffCouldBeWorse ∧ zbd.maxNrActiveIoZones ≤ zbd.activeIoZones)) :
    Allocated fileLifetime zbd (.ok (some number), zbd.setBusy number true) := by
  have lifetime (other : Nat) : ((zbd.setBusy number true).zone other).lifetime =
      (zbd.zone other).lifetime := by
    rw [setBusy]
    by_cases here : other = number
    · rw [here, zone_setZone]
    · rw [zone_setZone_of_ne here]
  refine ⟨found.matching.member, found.matching.idle, busy_setBusy zbd number, fun _ => ⟨?_, ?_⟩⟩
  · have small : getLifeTimeDiff (zbd.zone number).lifetime fileLifetime ≤
        lifetimeDiffCouldBeWorse := by
      rw [← found.diff]
      omega
    rw [lifetime]
    rcases hint_of_diff small with greater | ⟨equal, unset | none | worse⟩
    · exact .inl greater
    · exact .inr ⟨equal, .inl unset⟩
    · exact .inr ⟨equal, .inr (.inl none)⟩
    · rw [← found.diff] at worse
      rcases good with better | ⟨_, without⟩
      · omega
      · exact .inr ⟨equal, .inr (.inr without)⟩
  · intro other member different idle room used
    rw [lifetime, lifetime, ← found.diff]
    rw [setBusy, zone_setZone_of_ne different] at idle room used
    exact found.least other ⟨member, idle, used, room⟩

theorem allocateEmptyZone_allocated (fileLifetime : Nat) (zbd : ZonedBlockDevice) :
    Allocated fileLifetime zbd (allocateEmptyZone fileLifetime zbd) := by
  rw [allocateEmptyZone, bind_read]
  cases chosen : zbd.emptyIOZone with
  | none => exact fun _ => rfl
  | some number =>
      have vacant := emptyIOZone_vacant chosen
      refine ⟨vacant.member, vacant.idle, fun other => ?_, fun filled => ?_⟩
      · show ((zbd.setZone number _).zone other).busy = true ↔ _
        by_cases here : other = number
        · rw [here, zone_setZone]
          simp
        · rw [zone_setZone_of_ne here]
          simp [here]
      · have empty : ((zbd.setZone number { zbd.zone number with
            busy := true, lifetime := fileLifetime }).zone number).isEmpty = true := by
          rw [zone_setZone]
          exact vacant.empty
        rw [show ((zbd.setZone number { zbd.zone number with
            busy := true, lifetime := fileLifetime }).zone number).isEmpty = false from filled] at empty
        cases empty

theorem openEmptyIOZone_allocated (fileLifetime : Nat) (gotToken : Bool) (zbd : ZonedBlockDevice) :
    Allocated fileLifetime zbd (openEmptyIOZone fileLifetime gotToken zbd) := by
  rw [openEmptyIOZone, bind_read]
  cases gotToken with
  | true => exact allocateEmptyZone_allocated fileLifetime zbd
  | false =>
      simp only [Bool.false_eq_true, if_false]
      rcases finishUntilToken_cases (zbd.ioZones.length + 1) zbd with
        ⟨middle, steps, _, run⟩ | ⟨failure, after, run, waits | ⟨middle, steps, rfl⟩⟩
      · rw [bind_of_ok run]
        exact (allocateEmptyZone_allocated fileLifetime _).after (deviceSteps_sameBusy steps)
          steps.fixed.ioZones
      · rw [bind_of_error run]
        exact .inl waits
      · rw [bind_of_error run]
        have kept : SameBusy zbd middle := deviceSteps_sameBusy steps
        exact .inr kept

theorem chooseIOZone_allocated (fileLifetime : Nat) (zbd : ZonedBlockDevice) :
    Allocated fileLifetime zbd (chooseIOZone fileLifetime zbd) := by
  rw [chooseIOZone, bind_read]
  have best : ∀ number, (zbd.getBestOpenZoneMatch fileLifetime 0).2 = some number →
      BestMatch fileLifetime zbd (zbd.getBestOpenZoneMatch fileLifetime 0).1 number :=
    fun number chosen => getBestOpenZoneMatch_best chosen
  generalize zbd.getBestOpenZoneMatch fileLifetime 0 = found at best ⊢
  rcases found with ⟨bestDiff, candidate⟩
  simp only at best ⊢
  split
  · rename_i good
    cases candidate with
    | none => exact fun _ => rfl
    | some number => exact allocated_best (best number rfl) (.inl good)
  · by_cases available : zbd.activeIoZones < zbd.maxNrActiveIoZones
    · rw [bind_of_ok (getActiveIOZoneToken_true available)]
      cases candidate with
      | none => exact openEmptyIOZone_allocated fileLifetime true _
      | some number => exact openEmptyIOZone_allocated fileLifetime true _
    · rw [bind_of_ok (getActiveIOZoneToken_false available)]
      cases candidate with
      | none => exact openEmptyIOZone_allocated fileLifetime false zbd
      | some number =>
          simp only [Bool.not_false, Bool.true_and]
          split
          · rename_i relaxed
            exact allocated_best (best number rfl) (.inr ⟨beq_iff_eq.mp relaxed, by omega⟩)
          · exact openEmptyIOZone_allocated fileLifetime false zbd

/-- The zone `AllocateIOZone` returns is the only one it has acquired, and one with data in it
is the best match for the file. -/
theorem allocate_io_zone (fileLifetime : Nat) (walIo : Bool) (zbd : ZonedBlockDevice) :
    Allocated fileLifetime zbd (allocateIOZone fileLifetime walIo zbd) := by
  have searched (start : ZonedBlockDevice) :
      Allocated fileLifetime start
        ((waitForOpenIOZoneToken walIo >>= fun _ => chooseIOZone fileLifetime) start) := by
    by_cases available : start.openIoZones <
        if walIo then (start.maxNrOpenIoZones : Int)
        else ((start.maxNrOpenIoZones + 2 ^ 32 - 1) % 2 ^ 32 : Nat)
    · have token : waitForOpenIOZoneToken walIo start =
          (.ok (), { start with openIoZones := start.openIoZones + 1 }) := by
        rw [waitForOpenIOZoneToken, if_pos available]
      rw [bind_of_ok token]
      exact chooseIOZone_allocated fileLifetime _
    · have token : waitForOpenIOZoneToken walIo start = (.error .never, start) := by
        rw [waitForOpenIOZoneToken, if_neg available]
      rw [bind_of_error token]
      exact .inl rfl
  rw [allocateIOZone, bind_read]
  cases zbd.zoneDeferredStatus with
  | some deferred => exact .inr fun _ => rfl
  | none =>
      cases walIo with
      | true => exact searched zbd
      | false =>
          have threshold := applyFinishThreshold_steps zbd
          simp only [Bool.false_eq_true, if_false]
          rcases run : applyFinishThreshold zbd with ⟨failure | _, next⟩
          all_goals rw [run] at threshold
          · rw [bind_of_error run]
            exact .inr (deviceSteps_sameBusy threshold)
          · rw [bind_of_ok run]
            exact (searched next).after (deviceSteps_sameBusy threshold) threshold.fixed.ioZones

end Zwal.ZoneAllocation
