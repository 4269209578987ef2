import Zwal.File.Stored

/-! # Where the data of files can lie

The zones of files are apart from each other, and what is free in a zone lies behind its
write pointer. Looking for a zone moves no data: a zone that is finished loses the rest of
its space, and nothing is stored. -/

namespace Zwal.ZonedBlockDevice

open Memory

structure Spaced (zbd : ZonedBlockDevice) : Prop where
  sized : 0 < zbd.zoneSize
  apart : ∀ number ∈ zbd.ioZones, ∀ other ∈ zbd.ioZones, number ≠ other →
    (zbd.zone number).start + zbd.zoneSize ≤ (zbd.zone other).start ∨
      (zbd.zone other).start + zbd.zoneSize ≤ (zbd.zone number).start
  distinct : ∀ number ∈ zbd.ioZones, number ∉ zbd.walZones
  below : ∀ number ∈ zbd.ioZones, (zbd.zone number).start ≤ (zbd.zone number).wp
  room : ∀ number ∈ zbd.ioZones,
    (zbd.zone number).wp + (zbd.zone number).capacity ≤ (zbd.zone number).start + zbd.zoneSize

structure Blocked (zbd : ZonedBlockDevice) : Prop where
  size : zbd.blockSize ∣ zbd.zoneSize
  start : ∀ number ∈ zbd.ioZones, zbd.blockSize ∣ (zbd.zone number).start
  wp : ∀ number ∈ zbd.ioZones, zbd.blockSize ∣ (zbd.zone number).wp
  capacity : ∀ number ∈ zbd.ioZones, zbd.blockSize ∣ (zbd.zone number).capacity

def Writable (zbd : ZonedBlockDevice) : Prop :=
  ∀ number ∈ zbd.ioZones, (zbd.zone number).isEmpty = true → 0 < (zbd.zone number).capacity

def Zone.Rests (zoneSize : Nat) (before after : Zone) : Prop :=
  after.start = before.start ∧
    ((after.wp = before.wp ∧ after.capacity = before.capacity) ∨
      (after.wp = before.start + zoneSize ∧ after.capacity = 0))

structure Rests (before after : ZonedBlockDevice) : Prop where
  fixed : Fixed before after
  stored : ∀ memory, after.stored memory = before.stored memory
  zones : Spaced before → ∀ number ∈ before.ioZones,
    Zone.Rests before.zoneSize (before.zone number) (after.zone number)

theorem Zone.Rests.refl (zoneSize : Nat) (zone : Zone) : Zone.Rests zoneSize zone zone :=
  ⟨rfl, .inl ⟨rfl, rfl⟩⟩

theorem Zone.Rests.spaced {zoneSize : Nat} {before after : Zone} (rests : Zone.Rests zoneSize before after)
    (below : before.start ≤ before.wp) (room : before.wp + before.capacity ≤ before.start + zoneSize) :
    before.wp ≤ after.wp ∧ after.start ≤ after.wp ∧
      after.wp + after.capacity ≤ after.start + zoneSize := by
  rcases rests with ⟨start, ⟨wp, capacity⟩ | ⟨wp, capacity⟩⟩
  all_goals
    rw [start, wp, capacity]
    omega

theorem Rests.spaced {before after : ZonedBlockDevice} (rests : Rests before after)
    (spaced : Spaced before) : Spaced after := by
  have fixed := rests.fixed
  have zones (number : Nat) (member : number ∈ after.ioZones) :=
    (rests.zones spaced number (fixed.ioZones ▸ member)).spaced
      (spaced.below number (fixed.ioZones ▸ member)) (spaced.room number (fixed.ioZones ▸ member))
  refine ⟨fixed.zoneSize ▸ spaced.sized, ?_, ?_, fun number member => (zones number member).2.1,
    fun number member => ?_⟩
  · rw [fixed.ioZones, fixed.zoneSize]
    intro number member other also different
    rw [fixed.start, fixed.start]
    exact spaced.apart number member other also different
  · rw [fixed.ioZones, fixed.walZones]
    exact spaced.distinct
  · rw [fixed.zoneSize]
    exact (zones number member).2.2

theorem Rests.grows {before after : ZonedBlockDevice} (rests : Rests before after)
    (spaced : Spaced before) {number : Nat} (member : number ∈ before.ioZones) :
    (before.zone number).wp ≤ (after.zone number).wp :=
  ((rests.zones spaced number member).spaced (spaced.below number member)
    (spaced.room number member)).1

theorem Zone.Rests.empty {zoneSize : Nat} {before after : Zone} (rests : Zone.Rests zoneSize before after)
    (sized : 0 < zoneSize) (empty : after.isEmpty = true) :
    before.isEmpty = true ∧ after.capacity = before.capacity := by
  rw [Zone.isEmpty, beq_iff_eq] at empty
  rcases rests with ⟨start, ⟨wp, capacity⟩ | ⟨wp, _⟩⟩
  · rw [Zone.isEmpty, beq_iff_eq, ← start, ← wp]
    exact ⟨empty, capacity⟩
  · rw [start, wp] at empty
    omega

theorem Zone.Rests.trans {zoneSize : Nat} {first second third : Zone}
    (one : Zone.Rests zoneSize first second) (two : Zone.Rests zoneSize second third) :
    Zone.Rests zoneSize first third := by
  refine ⟨two.1.trans one.1, ?_⟩
  rcases two.2 with ⟨wp, capacity⟩ | ⟨wp, capacity⟩
  · rw [wp, capacity]
    exact one.2
  · exact .inr ⟨by rw [wp, one.1], capacity⟩

instance : Std.Refl Rests where
  refl _ := ⟨.refl _, fun _ => rfl, fun _ _ _ => .refl _ _⟩

instance : IsTrans ZonedBlockDevice Rests where
  trans first second third one two := by
    refine ⟨one.fixed.trans two.fixed, fun memory => (two.stored memory).trans (one.stored memory), ?_⟩
    intro spaced number member
    have onward := two.zones (one.spaced spaced) number (one.fixed.ioZones ▸ member)
    rw [one.fixed.zoneSize] at onward
    exact (one.zones spaced number member).trans onward

theorem Rests.of_pointers {before after : ZonedBlockDevice} (fixed : Fixed before after)
    (stored : ∀ memory, after.stored memory = before.stored memory)
    (pointers : ∀ number, (after.zone number).wp = (before.zone number).wp ∧
      (after.zone number).capacity = (before.zone number).capacity) : Rests before after :=
  ⟨fixed, stored, fun _ number _ => ⟨fixed.start number, .inl (pointers number)⟩⟩

theorem Rests.blocked {before after : ZonedBlockDevice} (rests : Rests before after)
    (spaced : Spaced before) (blocked : Blocked before) : Blocked after := by
  have fixed := rests.fixed
  refine ⟨?_, ?_, ?_, ?_⟩
  · rw [fixed.blockSize, fixed.zoneSize]
    exact blocked.size
  all_goals
    rw [fixed.blockSize, fixed.ioZones]
    intro number member
    have zone := rests.zones spaced number member
    have start := blocked.start number member
  · rw [zone.1]
    exact start
  · rcases zone.2 with ⟨wp, _⟩ | ⟨wp, _⟩
    · rw [wp]
      exact blocked.wp number member
    · rw [wp]
      exact Nat.dvd_add start blocked.size
  · rcases zone.2 with ⟨_, capacity⟩ | ⟨_, capacity⟩
    · rw [capacity]
      exact blocked.capacity number member
    · rw [capacity]
      exact Nat.dvd_zero _

theorem Rests.writable {before after : ZonedBlockDevice} (rests : Rests before after)
    (spaced : Spaced before) (writable : Writable before) : Writable after := by
  rw [Writable, rests.fixed.ioZones]
  intro number member empty
  rcases (rests.zones spaced number member).empty spaced.sized empty with ⟨early, same⟩
  rw [same]
  exact writable number member early

/-! ## Looking for a zone -/

theorem stored_record_finish (memory : Nat → UInt8) (number : Nat) (zbd : ZonedBlockDevice) :
    (zbd.record (.finish number)).stored memory = zbd.stored memory := by
  rw [ZonedBlockDevice.stored, ZonedBlockDevice.record, storedBy_append]
  rfl

theorem finished_rests (zbd : ZonedBlockDevice) (number : Nat) : Rests zbd (zbd.finished number) := by
  have moved : Fixed zbd (zbd.setZone number { zbd.zone number with
      capacity := 0, wp := (zbd.zone number).start + zbd.zoneSize }) := .setZone rfl
  refine ⟨moved.trans (.withTokens _ _ _ _ _), fun memory => ?_, fun _ other _ => ?_⟩
  · exact stored_record_finish memory number (zbd.setZone number { zbd.zone number with
      capacity := 0, wp := (zbd.zone number).start + zbd.zoneSize })
  · have zone : (zbd.finished number).zone other = (zbd.setZone number { zbd.zone number with
        capacity := 0, wp := (zbd.zone number).start + zbd.zoneSize }).zone other := rfl
    by_cases here : other = number
    · rw [zone, here, zone_setZone]
      exact ⟨rfl, .inr ⟨rfl, rfl⟩⟩
    · rw [zone, zone_setZone_of_ne here]
      exact .refl _ _

theorem DeviceStep.rests {before after : ZonedBlockDevice} (step : DeviceStep before after) :
    Rests before after := by
  cases step with
  | answer => exact ⟨.withTokens _ _ _ _ _, fun _ => rfl, fun _ _ _ => .refl _ _⟩
  | finish => exact finished_rests _ _
  | @releaseWal number member =>
      have fixed : Fixed before (before.releaseUnusedWALZone number) :=
        (DeviceStep.releaseWal member).fixed
      rcases releaseUnusedWALZone_cases before number with same | ⟨_, _, _, released⟩
      · rw [same]
        exact Std.Refl.refl _
      · refine ⟨fixed, fun _ => by rw [released]; rfl, fun spaced other io => ?_⟩
        have different : other ≠ number := by
          intro same
          exact spaced.distinct other io (same ▸ member)
        have zone : (before.releaseUnusedWALZone number).zone other = before.zone other := by
          rw [released]
          exact zone_setZone_of_ne different before _
        rw [zone]
        exact .refl _ _

theorem DeviceSteps.rests {before after : ZonedBlockDevice} (steps : DeviceSteps before after) :
    Rests before after := by
  induction steps with
  | refl => exact Std.Refl.refl _
  | tail _ step induction => exact trans_of Rests induction step.rests

theorem Rests.setZone {zbd : ZonedBlockDevice} {number : Nat} {zone : Zone}
    (start : zone.start = (zbd.zone number).start) (wp : zone.wp = (zbd.zone number).wp)
    (capacity : zone.capacity = (zbd.zone number).capacity) : Rests zbd (zbd.setZone number zone) := by
  refine .of_pointers (.setZone start) (fun _ => rfl) fun other => ?_
  by_cases here : other = number
  · rw [here, zone_setZone]
    exact ⟨wp, capacity⟩
  · rw [zone_setZone_of_ne here]
    exact ⟨rfl, rfl⟩

theorem Taken.rests {lifetime number : Nat} {before after : ZonedBlockDevice}
    (taken : Taken lifetime before number after) : Rests before after := by
  cases taken with
  | partly => exact .setZone rfl rfl rfl
  | empty =>
      have moved : Rests before (before.setZone number { before.zone number with
          busy := true, lifetime := lifetime }) := .setZone rfl rfl rfl
      exact ⟨moved.fixed.trans (.withTokens _ _ _ _ _), moved.stored, moved.zones⟩

theorem Taken.zone {lifetime number : Nat} {before after : ZonedBlockDevice}
    (taken : Taken lifetime before number after) :
    number ∈ after.ioZones ∧ (Writable before → 0 < (after.zone number).capacity) := by
  cases taken with
  | partly matching =>
      refine ⟨matching.member, fun _ => ?_⟩
      have room := matching.room
      rw [Zone.isFull, beq_eq_false_iff_ne] at room
      rw [setBusy, zone_setZone]
      exact Nat.pos_of_ne_zero room
  | empty vacant =>
      refine ⟨vacant.member, fun writable => ?_⟩
      have filled := writable number vacant.member vacant.empty
      have zone : ({ before.setZone number { before.zone number with
          busy := true, lifetime := lifetime } with
            activeIoZones := before.activeIoZones + 1 } : ZonedBlockDevice).zone number =
          { before.zone number with busy := true, lifetime := lifetime } :=
        zone_setZone before number _
      rw [zone]
      exact filled

theorem allocateIOZone_rests (lifetime : Nat) (walIo : Bool) (zbd : ZonedBlockDevice) :
    match allocateIOZone lifetime walIo zbd with
    | (.ok (some number), next) => Rests zbd next ∧ number ∈ next.ioZones ∧
        (Spaced zbd → Writable zbd → 0 < (next.zone number).capacity)
    | (.ok none, next) => Rests zbd next
    | (.error failure, next) => failure = .never ∨ Rests zbd next := by
  have ended := allocateIOZone_cases lifetime walIo zbd
  rcases run : allocateIOZone lifetime walIo zbd with ⟨failure | _ | number, next⟩
  all_goals rw [run] at ended
  · exact ended.imp_right DeviceSteps.rests
  · exact DeviceSteps.rests ended
  · rcases ended with ⟨middle, taken, steps, take, same⟩
    have moved : Rests taken { taken with openIoZones := middle.openIoZones + 1 } :=
      .of_pointers (.withTokens _ _ _ _ _) (fun _ => rfl) fun _ => ⟨rfl, rfl⟩
    have early := steps.rests
    refine ⟨?_, ?_, ?_⟩
    · rw [same]
      exact trans_of Rests (trans_of Rests early take.rests) moved
    · rw [same]
      exact take.zone.1
    · intro spaced writable
      rw [same]
      exact take.zone.2 (early.writable spaced writable)

/-! ## Writing -/

section Writing

variable {zbd : ZonedBlockDevice} {number : Nat} {chunks : List Bytes}

theorem zone_advanceAll (zbd : ZonedBlockDevice) (number : Nat) (chunks : List Bytes) :
    (zbd.advanceAll number chunks).zone number = { zbd.zone number with
      wp := (zbd.zone number).wp + chunks.flatten.length
      capacity := (zbd.zone number).capacity - chunks.flatten.length } := by
  rw [advanceAll_eq]
  exact Function.update_self ..

theorem zone_advanceAll_of_ne {other : Nat} (different : other ≠ number) (zbd : ZonedBlockDevice)
    (chunks : List Bytes) : (zbd.advanceAll number chunks).zone other = zbd.zone other := by
  rw [advanceAll_eq]
  exact Function.update_of_ne different ..

theorem advanceAll_grows (zbd : ZonedBlockDevice) (number : Nat) (chunks : List Bytes) (other : Nat) :
    (zbd.zone other).wp ≤ ((zbd.advanceAll number chunks).zone other).wp := by
  by_cases here : other = number
  · rw [here, zone_advanceAll]
    exact Nat.le_add_right _ _
  · rw [zone_advanceAll_of_ne here]

theorem Spaced.advanceAll (spaced : Spaced zbd)
    (room : chunks.flatten.length ≤ (zbd.zone number).capacity) :
    Spaced (zbd.advanceAll number chunks) := by
  have fixed := FileState.advanceAll_fixed number chunks zbd
  refine ⟨fixed.zoneSize ▸ spaced.sized, ?_, ?_, ?_, ?_⟩
  · rw [fixed.ioZones, fixed.zoneSize]
    intro one member other also different
    rw [fixed.start, fixed.start]
    exact spaced.apart one member other also different
  · rw [fixed.ioZones, fixed.walZones]
    exact spaced.distinct
  · rw [fixed.ioZones]
    intro other member
    rw [fixed.start]
    exact Nat.le_trans (spaced.below other member) (advanceAll_grows zbd number chunks other)
  · rw [fixed.ioZones, fixed.zoneSize]
    intro other member
    have within := spaced.room other member
    by_cases here : other = number
    · subst here
      rw [zone_advanceAll]
      simp only
      omega
    · rw [zone_advanceAll_of_ne here]
      exact within

theorem Blocked.advanceAll (blocked : Blocked zbd) (whole : zbd.blockSize ∣ chunks.flatten.length) :
    Blocked (zbd.advanceAll number chunks) := by
  have fixed := FileState.advanceAll_fixed number chunks zbd
  refine ⟨?_, ?_, ?_, ?_⟩
  · rw [fixed.blockSize, fixed.zoneSize]
    exact blocked.size
  all_goals
    rw [fixed.blockSize, fixed.ioZones]
    intro other member
  · rw [fixed.start]
    exact blocked.start other member
  all_goals by_cases here : other = number
  · subst here
    rw [zone_advanceAll]
    exact Nat.dvd_add (blocked.wp other member) whole
  · rw [zone_advanceAll_of_ne here]
    exact blocked.wp other member
  · subst here
    rw [zone_advanceAll]
    exact Nat.dvd_sub (blocked.capacity other member) whole
  · rw [zone_advanceAll_of_ne here]
    exact blocked.capacity other member

theorem Writable.advanceAll (writable : Writable zbd) (spaced : Spaced zbd) :
    Writable (zbd.advanceAll number chunks) := by
  have fixed := FileState.advanceAll_fixed number chunks zbd
  rw [Writable, fixed.ioZones]
  intro other member empty
  by_cases here : other = number
  · subst here
    rw [zone_advanceAll] at empty ⊢
    have below := spaced.below other member
    rw [Zone.isEmpty, beq_iff_eq] at empty
    simp only at empty ⊢
    have none : chunks.flatten.length = 0 := by omega
    rw [none, Nat.sub_zero]
    apply writable other member
    rw [Zone.isEmpty, beq_iff_eq]
    omega
  · rw [zone_advanceAll_of_ne here] at empty ⊢
    exact writable other member empty

structure Within (zbd : ZonedBlockDevice) (zone start length : Nat) : Prop where
  member : zone ∈ zbd.ioZones
  low : (zbd.zone zone).start ≤ start
  high : start + length ≤ (zbd.zone zone).wp

theorem Within.rests {before after : ZonedBlockDevice} {zone start length : Nat}
    (within : Within before zone start length) (rests : Rests before after) (spaced : Spaced before) :
    Within after zone start length := by
  refine ⟨rests.fixed.ioZones ▸ within.member, ?_,
    Nat.le_trans within.high (rests.grows spaced within.member)⟩
  rw [rests.fixed.start]
  exact within.low

theorem Within.advanceAll {zone start length : Nat} (within : Within zbd zone start length)
    (number : Nat) (chunks : List Bytes) :
    Within (zbd.advanceAll number chunks) zone start length := by
  have fixed := FileState.advanceAll_fixed number chunks zbd
  refine ⟨fixed.ioZones ▸ within.member, ?_,
    Nat.le_trans within.high (advanceAll_grows zbd number chunks zone)⟩
  rw [fixed.start]
  exact within.low

theorem Within.bytesAt_advanceAll {zone start length : Nat} (within : Within zbd zone start length)
    (spaced : Spaced zbd) (member : number ∈ zbd.ioZones)
    (room : chunks.flatten.length ≤ (zbd.zone number).capacity) (memory : Nat → UInt8) :
    bytesAt ((zbd.advanceAll number chunks).stored memory) start length =
      bytesAt (zbd.stored memory) start length := by
  rw [stored_advanceAll]
  apply bytesAt_store_of_disjoint
  have behind := spaced.room number member
  have above := spaced.below number member
  have high := within.high
  have low := within.low
  by_cases here : zone = number
  · subst here
    exact .inl high
  · have limit := spaced.room zone within.member
    rcases spaced.apart zone within.member number member here with before | after
    · left
      omega
    · right
      omega

end Writing

end Zwal.ZonedBlockDevice
