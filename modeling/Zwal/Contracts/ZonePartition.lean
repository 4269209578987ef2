import Zwal.Device.Open
import Zwal.Fs.Grounded

/-! # The zones a device is divided into

Metadata, write-ahead logs and files get consecutive parts of the report. The code behind
`Open` finds the zones of logs by fixed positions; they are where it looks for them exactly
if nothing among the first nineteen zones is missing. -/

namespace Zwal.ZonePartition

open ZonedBlockDevice

/-- The lists of an open device, as the index arithmetic on zones of logs needs them. -/
structure Exact (opened : OpenedDevice) : Prop where
  metaWal : opened.metaZones.Disjoint opened.zbd.walZones
  metaIo : opened.metaZones.Disjoint opened.zbd.ioZones
  walIo : opened.zbd.walZones.Disjoint opened.zbd.ioZones
  count : opened.zbd.walZones.length = zenfsWalZones
  index : ∀ number ∈ opened.zbd.walZones,
    opened.zbd.walZones[number - zenfsMetaZones - zenfsFlakyZones]? = some number
  base : ∀ i, i < zenfsWalZones →
    opened.zbd.walZones[i]? = some (i + zenfsMetaZones + zenfsFlakyZones)

/-- Three of the first four zones are written sequentially, and the next fifteen are too and
are not offline. -/
def Complete (zones : List ReportedZone) : Prop :=
  zenfsMetaZones ≤ (zones.take (zenfsMetaZones + zenfsFlakyZones)).countP ReportedZone.isSwr ∧
    ∀ zone ∈ (zones.drop (zenfsMetaZones + zenfsFlakyZones)).take zenfsWalZones,
      zone.isTaken = true

/-! ## Three parts of the report -/

section Parts

variable {zones : List ReportedZone}

theorem le_stop (m i : Nat) : i ≤ (takeMetaZones zones m i).2 := by
  induction zones generalizing m i with
  | nil => exact Nat.le_refl i
  | cons zone zones induction =>
      rw [takeMetaZones]
      split
      · exact Nat.le_trans (Nat.le_succ i) (induction _ _)
      · exact Nat.le_refl i

theorem stop_le_iff (k m i : Nat) (long : k < zones.length) :
    (takeMetaZones zones m i).2 ≤ i + k ↔
      zenfsMetaZones ≤ m + (zones.take k).countP ReportedZone.isSwr := by
  induction zones generalizing k m i with
  | nil => simp at long
  | cons zone zones induction =>
      rw [takeMetaZones]
      by_cases more : m < zenfsMetaZones
      · rw [if_pos more]
        cases k with
        | zero =>
            have further : i + 1 ≤ (takeMetaZones zones (if zone.isSwr then m + 1 else m) (i + 1)).2 :=
              le_stop _ _
            simp only [List.take_zero, List.countP_nil]
            omega
        | succ k =>
            have rest := induction k (if zone.isSwr then m + 1 else m) (i + 1)
              (by simpa using long)
            rw [List.take_succ_cons, List.countP_cons]
            rw [show i + 1 + k = i + (k + 1) by omega] at rest
            rw [rest]
            cases zone.isSwr with
            | true => simp only [if_true]; omega
            | false => simp only [Bool.false_eq_true, if_false]; omega
      · rw [if_neg more]
        simp only
        omega

theorem firstWalIndex_eq_iff (long : zenfsMetaZones + zenfsFlakyZones < zones.length) :
    firstWalIndex zones = zenfsMetaZones + zenfsFlakyZones ↔
      zenfsMetaZones ≤ (zones.take (zenfsMetaZones + zenfsFlakyZones)).countP ReportedZone.isSwr := by
  have bound := @stop_le_iff zones (zenfsMetaZones + zenfsFlakyZones) 0 0 long
  rw [Nat.zero_add, Nat.zero_add] at bound
  rw [← bound, firstWalIndex]
  omega

theorem metaZones_subset (m i : Nat) :
    (takeMetaZones zones m i).1 ⊆ zones.take ((takeMetaZones zones m i).2 - i) := by
  induction zones generalizing m i with
  | nil => simp [takeMetaZones]
  | cons zone zones induction =>
      rw [takeMetaZones]
      split
      · have further := @le_stop zones (if zone.isSwr then m + 1 else m) (i + 1)
        have rest := induction (if zone.isSwr then m + 1 else m) (i + 1)
        generalize takeMetaZones zones (if zone.isSwr then m + 1 else m) (i + 1) = taken at *
        simp only
        rw [show taken.2 - i = taken.2 - (i + 1) + 1 by omega, List.take_succ_cons]
        split
        · exact List.cons_subset_cons zone rest
        · exact List.subset_cons_of_subset zone rest
      · exact List.nil_subset _

end Parts

section Numbers

variable (backend : Backend)

theorem map_getZoneNr : backend.zones.map backend.getZoneNr = List.range backend.zones.length := by
  apply List.ext_getElem?
  intro i
  rw [List.getElem?_map]
  by_cases inside : i < backend.zones.length
  · have placed := backend.placed i _ (List.getElem?_eq_getElem inside)
    rw [List.getElem?_eq_getElem inside, List.getElem?_range inside, Option.map_some,
      Backend.getZoneNr, placed, Nat.mul_div_cancel _ backend.sized]
  · rw [List.getElem?_eq_none (Nat.le_of_not_lt inside), List.getElem?_eq_none (by simpa using inside)]
    rfl

theorem getZoneNr_of_mem_take {zone : ReportedZone} {stop : Nat} (member : zone ∈ backend.zones.take stop) :
    backend.getZoneNr zone < stop := by
  have number := List.mem_map_of_mem (f := backend.getZoneNr) member
  rw [List.map_take, map_getZoneNr, List.take_range, List.mem_range] at number
  omega

theorem getZoneNr_of_mem_drop {zone : ReportedZone} {start : Nat}
    (member : zone ∈ backend.zones.drop start) : start ≤ backend.getZoneNr zone := by
  have number := List.mem_map_of_mem (f := backend.getZoneNr) member
  rw [List.map_drop, map_getZoneNr, List.range_eq_range', List.drop_range', List.mem_range'_1] at number
  omega

theorem metaZones_lt {number : Nat}
    (member : number ∈ (takeMetaZones backend.zones 0 0).1.map backend.getZoneNr) :
    number < firstWalIndex backend.zones := by
  rcases List.mem_map.mp member with ⟨zone, taken, rfl⟩
  have below := getZoneNr_of_mem_take backend (metaZones_subset 0 0 taken)
  rw [firstWalIndex]
  omega

theorem walZones_bounds {number : Nat}
    (member : number ∈ (takeWalZones backend.zones).map backend.getZoneNr) :
    firstWalIndex backend.zones ≤ number ∧
      number < zenfsMetaZones + zenfsFlakyZones + zenfsWalZones := by
  rcases List.mem_map.mp member with ⟨zone, taken, rfl⟩
  have part := (List.mem_filter.mp taken).1
  refine ⟨getZoneNr_of_mem_drop backend (List.mem_of_mem_take part), ?_⟩
  rw [List.take_drop] at part
  have below := getZoneNr_of_mem_take backend (List.mem_of_mem_drop part)
  have above := getZoneNr_of_mem_drop backend (List.mem_of_mem_take
    (List.take_drop .. ▸ part))
  omega

theorem ioZones_ge {number : Nat}
    (member : number ∈ (takeIoZones backend.zones).map backend.getZoneNr) :
    firstWalIndex backend.zones ≤ number ∧
      zenfsMetaZones + zenfsFlakyZones + zenfsWalZones ≤ number := by
  rcases List.mem_map.mp member with ⟨zone, taken, rfl⟩
  have above := getZoneNr_of_mem_drop backend (List.mem_filter.mp taken).1
  omega

theorem takeIoZones_nodup : ((takeIoZones backend.zones).map backend.getZoneNr).Nodup := by
  have whole : (backend.zones.map backend.getZoneNr).Nodup := by
    rw [map_getZoneNr]
    exact List.nodup_range
  exact whole.sublist ((List.filter_sublist.trans (List.drop_sublist _ _)).map _)

theorem length_takeWalZones_iff (long : zenfsMinZones ≤ backend.zones.length) :
    (takeWalZones backend.zones).length = zenfsWalZones ↔ Complete backend.zones := by
  have enough : zenfsMetaZones + zenfsFlakyZones + zenfsWalZones ≤ backend.zones.length :=
    Nat.le_trans (by decide) long
  have first := @firstWalIndex_eq_iff backend.zones (Nat.lt_of_lt_of_le (by decide) long)
  have least : zenfsMetaZones + zenfsFlakyZones ≤ firstWalIndex backend.zones :=
    Nat.le_max_right _ _
  rw [takeWalZones, Complete, ← first]
  constructor
  · intro whole
    have filtered := List.length_filter_le ReportedZone.isTaken
      ((backend.zones.drop (firstWalIndex backend.zones)).take
        (zenfsMetaZones + zenfsFlakyZones + zenfsWalZones - firstWalIndex backend.zones))
    have size := List.length_take_le
      (zenfsMetaZones + zenfsFlakyZones + zenfsWalZones - firstWalIndex backend.zones)
      (backend.zones.drop (firstWalIndex backend.zones))
    have here : firstWalIndex backend.zones = zenfsMetaZones + zenfsFlakyZones := by
      have positive : 0 < zenfsWalZones := by decide
      omega
    refine ⟨here, ?_⟩
    rw [here, Nat.add_sub_cancel_left] at whole
    apply List.length_filter_eq_length_iff.mp
    rw [whole, List.length_take, List.length_drop]
    omega
  · rintro ⟨here, taken⟩
    rw [here, Nat.add_sub_cancel_left, List.filter_eq_self.mpr taken, List.length_take,
      List.length_drop]
    omega

theorem takeWalZones_of_complete (long : zenfsMinZones ≤ backend.zones.length)
    (complete : Complete backend.zones) :
    (takeWalZones backend.zones).map backend.getZoneNr =
      List.range' (zenfsMetaZones + zenfsFlakyZones) zenfsWalZones := by
  have enough : zenfsMetaZones + zenfsFlakyZones + zenfsWalZones ≤ backend.zones.length :=
    Nat.le_trans (by decide) long
  have here := (@firstWalIndex_eq_iff backend.zones (Nat.lt_of_lt_of_le (by decide) long)).mpr
    complete.1
  rw [takeWalZones, here, Nat.add_sub_cancel_left, List.filter_eq_self.mpr complete.2, List.map_take,
    List.map_drop, map_getZoneNr, List.take_drop, List.take_range, Nat.min_eq_left enough,
    List.range_eq_range', List.drop_range', Nat.zero_add, Nat.mul_one, Nat.add_sub_cancel_left]

end Numbers

/-! ## What `Open` sets up -/

theorem openDevice_lists {backend : Backend} {opening : Except IOStatus Unit}
    {readonly exclusive : Bool} {replies : List Int} {opened : OpenedDevice}
    (run : openDevice backend opening readonly exclusive replies = .ok opened) :
    zenfsMinZones ≤ backend.zones.length ∧
    opened.metaZones = (dealZones backend replies).metaZones ∧
      Fixed (dealZones backend replies).zbd opened.zbd := by
  have closed (zones : List ReportedZone) (zbd : ZonedBlockDevice) :
      Fixed zbd (closeOpenZones backend zones zbd).2 := by
    induction zones generalizing zbd with
    | nil => exact .refl zbd
    | cons zone zones induction =>
        rw [closeOpenZones]
        split
        · rcases closeZone_cases (backend.getZoneNr zone) zbd with
            ⟨replies, _, ended | ⟨_, failure, ended⟩⟩
          all_goals
            rw [bind_attempt ended]
            exact (Fixed.withTokens _ _ _ _ _).trans (induction _)
        · exact induction zbd
  cases opening with
  | error failure =>
      rw [openDevice] at run
      split at run
      · cases run
      · cases run
  | ok =>
      rw [openDevice] at run
      split at run
      · cases run
      · split at run
        · cases run
        · rename_i enough
          split at run
          · cases run
          · rename_i listed
            have long : zenfsMinZones ≤ backend.zones.length := by omega
            simp only at run
            split at run
            · cases run
              exact ⟨long, rfl, .refl _⟩
            · cases run
              exact ⟨long, rfl, closed _ _⟩

/-- The partition of a device that opened is exact if and only if the first nineteen zones of
the report are complete. -/
theorem partition_exact_iff (backend : Backend) (opening : Except IOStatus Unit)
    (readonly exclusive : Bool) (replies : List Int) (opened : OpenedDevice)
    (run : openDevice backend opening readonly exclusive replies = .ok opened) :
    Exact opened ↔ Complete backend.zones := by
  rcases openDevice_lists run with ⟨long, metaZones, fixed⟩
  have wal : opened.zbd.walZones = (takeWalZones backend.zones).map backend.getZoneNr := fixed.walZones
  have io : opened.zbd.ioZones = (takeIoZones backend.zones).map backend.getZoneNr := fixed.ioZones
  constructor
  · intro exact
    apply (length_takeWalZones_iff backend long).mp
    rw [← exact.count, wal, List.length_map]
  · intro complete
    have numbers := takeWalZones_of_complete backend long complete
    have found (i : Nat) (inside : i < zenfsWalZones) :
        opened.zbd.walZones[i]? = some (i + zenfsMetaZones + zenfsFlakyZones) := by
      rw [wal, numbers, List.getElem?_range' inside]
      congr 1
      omega
    refine ⟨?_, ?_, ?_, ?_, ?_, found⟩
    · intro number inMeta inWal
      rw [metaZones] at inMeta
      rw [wal] at inWal
      have below := metaZones_lt backend inMeta
      have above := (walZones_bounds backend inWal).1
      omega
    · intro number inMeta inIo
      rw [metaZones] at inMeta
      rw [io] at inIo
      have below := metaZones_lt backend inMeta
      have above := (ioZones_ge backend inIo).1
      omega
    · intro number inWal inIo
      rw [wal] at inWal
      rw [io] at inIo
      have below := (walZones_bounds backend inWal).2
      have above := (ioZones_ge backend inIo).2
      omega
    · rw [wal, numbers, List.length_range']
    · intro number member
      rw [wal, numbers, List.mem_range'_1] at member
      have place := found (number - zenfsMetaZones - zenfsFlakyZones) (by omega)
      rw [place]
      congr 1
      omega

/-- A device without a gap among its first zones is one the file system can run on. -/
theorem partitioned_of_complete {backend : Backend} {opening : Except IOStatus Unit}
    {readonly exclusive : Bool} {replies : List Int} {opened : OpenedDevice}
    (run : openDevice backend opening readonly exclusive replies = .ok opened)
    (complete : Complete backend.zones) (blocks : backend.blockSize ∣ 2 ^ 20) :
    FileSystem.Partitioned opened.zbd := by
  rcases openDevice_lists run with ⟨long, _, fixed⟩
  have wal : opened.zbd.walZones =
      List.range' (zenfsMetaZones + zenfsFlakyZones) zenfsWalZones :=
    fixed.walZones.trans (takeWalZones_of_complete backend long complete)
  have io : opened.zbd.ioZones = (takeIoZones backend.zones).map backend.getZoneNr := fixed.ioZones
  refine ⟨?_, ?_, ?_, ?_, ?_⟩
  · rw [fixed.blockSize]
    exact blocks
  · intro index number found
    rw [wal] at found
    have inside : index < zenfsWalZones := by
      rcases List.getElem?_eq_some_iff.mp found with ⟨inside, _⟩
      rwa [List.length_range'] at inside
    rw [List.getElem?_range' inside] at found
    cases found
    omega
  · rw [wal, List.length_range']
  · intro number member
    rw [io] at member
    exact (ioZones_ge backend member).2
  · rw [io]
    exact takeIoZones_nodup backend

/-! ## One zone offline -/

def gapZone (i : Nat) : ReportedZone :=
  ⟨i * 4096, 4096, i * 4096, true, i == 5, true, false, false⟩

def gapBackend : Backend where
  zones := (List.range 32).map gapZone
  nrZones := 32
  blockSize := 4096
  zoneSize := 4096
  maxNrActiveZones := 0
  maxNrOpenZones := 0
  sized := by decide
  placed := by
    intro i zone found
    rcases List.getElem?_eq_some_iff.mp found with ⟨inside, rfl⟩
    simp [gapZone]

def gapDevice : OpenedDevice := dealZones gapBackend []

/-- The device opens with fourteen zones for logs, each but the first one place off. -/
theorem offline_zone_shifts :
    openDevice gapBackend (.ok ()) true true [] = .ok gapDevice ∧
    gapDevice.zbd.walZones = 4 :: List.range' 6 13 ∧ ¬ Exact gapDevice := by
  have lists : gapDevice.zbd.walZones = 4 :: List.range' 6 13 := by decide +kernel
  refine ⟨rfl, lists, ?_⟩
  intro exact
  have count := exact.count
  rw [lists] at count
  exact absurd count (by decide)

def plainBackend : Backend where
  zones := (List.range 32).map fun i => { gapZone i with isOffline := false }
  nrZones := 32
  blockSize := 4096
  zoneSize := 4096
  maxNrActiveZones := 0
  maxNrOpenZones := 0
  sized := by decide
  placed := by
    intro i zone found
    rcases List.getElem?_eq_some_iff.mp found with ⟨inside, rfl⟩
    simp [gapZone]

theorem partition_exact_plain :
    Exact (dealZones plainBackend []) ↔ Complete plainBackend.zones :=
  partition_exact_iff plainBackend (.ok ()) true true [] (dealZones plainBackend []) rfl

theorem partitioned_plain : FileSystem.Partitioned (dealZones plainBackend []).zbd :=
  @partitioned_of_complete plainBackend (.ok ()) true true [] _ rfl
    ⟨by decide +kernel, by decide +kernel⟩ ⟨256, rfl⟩

end Zwal.ZonePartition
