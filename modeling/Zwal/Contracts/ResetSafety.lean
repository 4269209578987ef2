import Zwal.Contracts.CapacityAccounting

/-! # Zones with data are not reset

As long as the accounting is right, `used_capacity_` of a zone with a live extent is not zero,
so that no such zone is reset or given back. -/

namespace Zwal.ResetSafety

open FileSystem ZonedBlockDevice CapacityAccounting

theorem isUsed_of_live {fs : FileSystem} (accounted : Accounted [] fs) {k : Nat}
    {extent : ZoneExtent} (member : extent ∈ (fs.object k).file.extents) (filled : 0 < extent.length)
    (small : fs.liveUsed extent.zone < 2 ^ 64) : (fs.zbd.zone extent.zone).isUsed = true := by
  have counted : extent.length ≤ usedIn extent.zone (fs.object k).file.extents :=
    List.single_le_sum (fun _ _ => Nat.zero_le _) _
      (List.mem_map_of_mem (List.mem_filter.mpr ⟨member, decide_eq_true rfl⟩))
  have enough := ((balanced_iff accounted extent.zone).mpr small).enough k
  have positive : 0 < (used fs.zbd extent.zone).toNat := by omega
  exact decide_eq_true positive

theorem resetUnusedIOZonesFrom_zone {numbers : List Nat} {zbd : ZonedBlockDevice} {zone : Nat}
    (used : (zbd.zone zone).isUsed = true) :
    (resetUnusedIOZonesFrom numbers zbd).2.zone zone = zbd.zone zone := by
  induction numbers generalizing zbd with
  | nil => rfl
  | cons number numbers induction =>
      rw [resetUnusedIOZonesFrom, bind_read]
      split
      · rename_i chosen
        have apart : zone ≠ number := by
          rintro rfl
          simp [used] at chosen
        rcases resetZone_cases number zbd with ⟨replies, _, ⟨answer, later, _, _, run⟩ | run⟩
        · have kept : (resetAs answer number zbd).zone zone = zbd.zone zone :=
            Function.update_of_ne apart _ _
          rw [bind_of_ok run]
          split
          · exact (induction (kept.symm ▸ used)).trans kept
          · exact (induction (kept.symm ▸ used)).trans kept
        · rw [bind_of_error run]
      · exact induction used

theorem releaseUnusedWALZones_zone {numbers : List Nat} {zbd : ZonedBlockDevice} {zone : Nat}
    (used : (zbd.zone zone).isUsed = true) :
    (numbers.foldl releaseUnusedWALZone zbd).zone zone = zbd.zone zone := by
  induction numbers generalizing zbd with
  | nil => rfl
  | cons number numbers induction =>
      have same : (zbd.releaseUnusedWALZone number).zone zone = zbd.zone zone := by
        rcases releaseUnusedWALZone_cases zbd number with same | ⟨_, _, unused, same⟩
        · rw [same]
        · have apart : zone ≠ number := by
            rintro rfl
            simp [used] at unused
          rw [same]
          exact Function.update_of_ne apart _ _
      rw [List.foldl_cons, induction (same ▸ used), same]

/-- In every state of every run in which each pass of the collector gives back what it
replaces, also in the middle of an operation, freeing unused zones leaves a zone with live data
as it is, if its live extents are shorter than `2 ^ 64` bytes together. -/
theorem live_zones_kept (config : BuildConfig) {initial reached fs : FileSystem}
    (made : Made initial) (runs : Runs config GivesBack initial reached)
    (during : During config GivesBack reached fs) {k : Nat} {extent : ZoneExtent}
    (member : extent ∈ (fs.object k).file.extents) (filled : 0 < extent.length)
    (small : fs.liveUsed extent.zone < 2 ^ 64) :
    (resetUnusedIOZones fs.zbd).2.zone extent.zone = fs.zbd.zone extent.zone ∧
      fs.zbd.releaseUnusedWALZones.zone extent.zone = fs.zbd.zone extent.zone := by
  rcases Runs.keep (fun grounded allowed passage => passage_accounted grounded allowed passage)
    runs made.grounded (accounted_of_made made) with ⟨grounded, accounted⟩
  have used := isUsed_of_live (during_accounted grounded during accounted) member filled small
  exact ⟨resetUnusedIOZonesFrom_zone used, releaseUnusedWALZones_zone used⟩

/-- A block was moved to zone 19 by a pass of the collector. -/
theorem live_zones_kept_collected :
    (resetUnusedIOZones (collected []).zbd).2.zone 19 = (collected []).zbd.zone 19 ∧
      (collected []).zbd.releaseUnusedWALZones.zone 19 = (collected []).zbd.zone 19 := by
  have facts : ⟨20032, 64, 19⟩ ∈ ((collected []).object 2).file.extents ∧
      (collected []).liveUsed 19 < 2 ^ 64 := by
    decide +kernel
  simpa only using live_zones_kept _ (twoZones_made _) runs_collected (.calling .refl) facts.1
    (Nat.succ_pos 63) facts.2

end Zwal.ResetSafety
