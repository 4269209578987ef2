import Zwal.Fs.Accounting

/-! # Capacity accounting

`used_capacity_` of every zone is the length of the live extents in it modulo `2 ^ 64`, as long
as each pass of the garbage collector gives back what it replaces. A pass does not where its
record is refused, which takes a refused write of the record and a refused roll. -/

namespace Zwal.CapacityAccounting

open FileSystem ZonedBlockDevice

/-- The counter of a zone is the length of the extents in it over all files, and what a file
has there can be taken off again. -/
structure Balanced (fs : FileSystem) (zone : Nat) : Prop where
  counter : (used fs.zbd zone).toNat = fs.liveUsed zone
  enough : ∀ k, usedIn zone (fs.object k).file.extents ≤ (used fs.zbd zone).toNat

theorem balanced_iff {fs : FileSystem} (accounted : Accounted [] fs) (zone : Nat) :
    Balanced fs zone ↔ fs.liveUsed zone < 2 ^ 64 := by
  constructor
  · intro balanced
    rw [← balanced.counter]
    exact UInt64.toNat_lt _
  · intro small
    have counter : (used fs.zbd zone).toNat = fs.liveUsed zone := by
      rw [accounted zone]
      exact UInt64.toNat_ofNat_of_lt' small
    exact ⟨counter, fun k => counter ▸ usedIn_le_liveUsed fs k zone⟩

/-- What the device answers when the record with the new extents of file `k` is written,
once its chosen extents have been copied. -/
def recordAnswer (device : Nat → UInt8) (chosen : List (Nat × Nat)) (fs : FileSystem) (k : Nat) : Int :=
  (migrateList device (fs.object k).file chosen (fs.object k).file.extents fs.zbd).2.replies.headD 0

/-- A pass of the garbage collector gives back the extents it replaces: the record with the
new ones is written, and no extent starts where its copy could start. -/
def GivesBack (fs : FileSystem) : Operation → Prop
  | .migrate device name chosen => ∀ k, fs.getFile name = some k →
      (fs.object k).file.openForWr = false →
        Apart (headerOf (fs.object k).file) chosen (fs.object k).file.extents fs.zbd ∧
          0 ≤ recordAnswer device chosen fs k
  | _ => True

theorem passage_accounted {config : BuildConfig} {before after : FileSystem} {operation : Operation}
    (grounded : Grounded before) (allowed : GivesBack before operation)
    (passage : Passage config before after operation) (accounted : Accounted [] before) :
    Accounted [] after := by
  cases passage with
  | call _ steps | idle steps => exact steps.accounted accounted
  | reopen found _ _ same => exact same ▸ accounted.attach (grounded.inside found) _ _
  | look inside steps same => exact same ▸ accounted.placed inside (sees_view before _) steps
  | close inside closing => exact closing.accounted inside accounted
  | drop inside closing deferred steps =>
      have there := Nat.lt_of_lt_of_le (closing.inside inside) deferred.length
      exact steps.accounted ((deferred.accounted (closing.accounted inside accounted)).detach there)
  | @migrate device name chosen k moved found closed step steps =>
      rcases step.accounted (grounded.inside found) accounted with ⟨more, counted, none⟩
      rcases allowed k found closed with ⟨apart, written⟩
      rw [none apart written] at counted
      exact steps.accounted counted
  | @mount device lost middle mounts steps =>
      exact steps.accounted (mounts.accounted (accounted_lostMemory lost before))

theorem during_accounted {config : BuildConfig} {before middle : FileSystem}
    (grounded : Grounded before) (during : During config GivesBack before middle)
    (accounted : Accounted [] before) : Accounted [] middle := by
  cases during with
  | calling steps => exact steps.accounted accounted
  | passing allowed passage => exact passage_accounted grounded allowed passage accounted
  | shutting inside steps sees shut =>
      exact (steps.accounted accounted).placed (Nat.lt_of_lt_of_le inside steps.length) sees shut
  | @mounting lost _ mounts => exact mounts.accounted (accounted_lostMemory lost before)

theorem accounted_of_made {fs : FileSystem} (made : Made fs) : Accounted [] fs := by
  intro zone
  rw [used, made.unused, liveUsed, made.objects]
  rfl

/-- In every run of calls, passes of the garbage collector, crashes and mounts in which each
pass gives back what it replaces, the accounting of a zone is right in every state that is
reached, also in the middle of an operation, if and only if the live extents of the zone are
shorter than `2 ^ 64` bytes together. -/
theorem capacity_accounted (config : BuildConfig) {initial reached fs : FileSystem}
    (made : Made initial) (runs : Runs config GivesBack initial reached)
    (during : During config GivesBack reached fs) (zone : Nat) :
    Balanced fs zone ↔ fs.liveUsed zone < 2 ^ 64 := by
  have kept : ∀ {before after : FileSystem} {operation : Operation}, Grounded before →
      GivesBack before operation → Passage config before after operation → Accounted [] before →
        Accounted [] after :=
    passage_accounted
  rcases Runs.keep kept runs made.grounded (accounted_of_made made) with ⟨grounded, accounted⟩
  exact balanced_iff (during_accounted grounded during accounted) zone

/-! ## A pass whose record is not written

Zone 20 has nine blocks of a deleted file and one of a file that lives; zone 19 has one
block left. The collector moves the block from zone 20 to zone 19. -/

def twoZones (replies : List Int) : FileSystem :=
  emptyFileSystem (emptyDevice [19, 20] 1024 640 64 replies)

theorem twoZones_made (replies : List Int) : Made (twoZones replies) :=
  emptyFileSystem_made (by decide) (by decide) (by decide) (by decide) replies

def fillZones : List Operation :=
  [.openWritable "x.sst" true false, .append 0 (List.replicate 576 1),
    .openWritable "a.sst" true false, .append 1 (List.replicate 576 2), .close 1, .destroyWriter 1,
    .openWritable "b.sst" true false, .append 2 (List.replicate 64 3), .close 2, .destroyWriter 2,
    .close 0, .destroyWriter 0, .delete "a.sst"]

def collect : Operation := .migrate (fun _ => 0) "b.sst" [(21056, 64)]

def untilRecord : List Int := List.replicate 17 1000000 ++ [-1]

def filled (replies : List Int) : FileSystem := runAll smallConfig 4 fillZones (twoZones replies)

def collected (replies : List Int) : FileSystem :=
  runAll smallConfig 4 (fillZones ++ [collect]) (twoZones replies)

theorem givesBack_fillZones : ∀ operation ∈ fillZones, ∀ fs, GivesBack fs operation := by
  intro operation member fs
  simp only [fillZones, List.mem_cons, List.not_mem_nil, or_false] at member
  rcases member with rfl | rfl | rfl | rfl | rfl | rfl | rfl | rfl | rfl | rfl | rfl | rfl | rfl
  all_goals trivial

theorem runs_collected : Runs smallConfig GivesBack (twoZones []) (collected []) := by
  have facts : allOk smallConfig 4 (fillZones ++ [collect]) (twoZones []) = true ∧
      (filled []).getFile "b.sst" = some 2 ∧
      ((filled []).object 2).file.extents = [⟨21056, 64, 20⟩] ∧
      headerOf ((filled []).object 2).file = 0 ∧ (filled []).zbd.ioZones = [19, 20] ∧
      (∀ number ∈ [19, 20], 21056 < ((filled []).zbd.zone number).wp ∨
        ((filled []).zbd.zone number).wp + ((filled []).zbd.zone number).capacity ≤ 21056) ∧
      0 ≤ recordAnswer (fun _ => 0) [(21056, 64)] (filled []) 2 := by
    decide +kernel
  rcases facts with ⟨returned, found, extents, header, zones, apart, written⟩
  have gives : GivesBack (filled []) collect := by
    intro k here _
    obtain rfl : 2 = k := by
      rw [found] at here
      exact Option.some.inj here
    refine ⟨?_, written⟩
    rw [Apart, extents, header, zones]
    intro extent member _
    rw [List.mem_singleton] at member
    rw [member]
    simp only [Nat.add_zero]
    exact apart
  exact runs_runAll
    (allPermitted_append (allPermitted_of_forall givesBack_fillZones _) ⟨gives, trivial⟩) returned

/-- Without a failure the block is counted in zone 19 only. -/
theorem capacity_accounted_collected : Balanced (collected []) 19 ∧ Balanced (collected []) 20 := by
  have small : (collected []).liveUsed 19 < 2 ^ 64 ∧ (collected []).liveUsed 20 < 2 ^ 64 := by
    decide +kernel
  exact ⟨(capacity_accounted _ (twoZones_made []) runs_collected (.calling .refl) 19).mpr small.1,
    (capacity_accounted _ (twoZones_made []) runs_collected (.calling .refl) 20).mpr small.2⟩

/-- A file is cut below what was synced and synced again. -/
def cutBelow : List Operation :=
  [.openWritable "a.sst" true false, .append 0 (List.replicate 64 1), .sync 0, .truncate 0 0, .sync 0]

def cut : FileSystem := runAll smallConfig 4 cutBelow (twoZones [])

/-- With the failure the extent is counted in both zones, and zone 20 is never reset. The
second push of the file that was cut makes an extent of `2 ^ 64 - 64` bytes, and the counter
starts again from zero. -/
theorem failed_record_leaks :
    Made (twoZones untilRecord) ∧
      Runs smallConfig (fun _ _ => True) (twoZones untilRecord) (collected untilRecord) ∧
      used (collected untilRecord).zbd 20 = 64 ∧ (collected untilRecord).liveUsed 20 = 0 ∧
      Runs smallConfig (fun _ _ => True) (twoZones []) cut ∧
      used cut.zbd 19 = 0 ∧ cut.liveUsed 19 = 2 ^ 64 := by
  have facts : allOk smallConfig 4 (fillZones ++ [collect]) (twoZones untilRecord) = true ∧
      used (collected untilRecord).zbd 20 = 64 ∧ (collected untilRecord).liveUsed 20 = 0 := by
    decide +kernel
  have wrapped : allOk smallConfig 4 cutBelow (twoZones []) = true ∧
      used cut.zbd 19 = 0 ∧ cut.liveUsed 19 = 2 ^ 64 := by
    decide +kernel
  have runs := runs_runAll (allPermitted_of_forall (fun _ _ _ => trivial) _) facts.1
  have cutting := runs_runAll (allPermitted_of_forall (fun _ _ _ => trivial) _) wrapped.1
  exact ⟨twoZones_made untilRecord, runs, facts.2.1, facts.2.2, cutting, wrapped.2⟩

end Zwal.CapacityAccounting
