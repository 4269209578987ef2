import Zwal.Fs.Migration

/-! # One migration at a time

`TakeMigrateZone` waits until `migrating_` is not set and sets it, `ReleaseMigrateZone`
clears it; both hold `migrate_zone_mtx_` while they do. A thread that found no zone clears
the flag twice, the second time whoever has set it in between. -/

namespace Zwal.MigrationSlot

open ZonedBlockDevice

structure Task where
  lifetime : Nat
  extents : List ZoneExtent
  deriving DecidableEq, Repr

/-- Where a thread is. `holding` is between a `TakeMigrateZone` that returned a zone and
its `ReleaseMigrateZone`, `emptyHanded` between one that returned none and the
`ReleaseMigrateZone(nullptr)` that follows. -/
inductive Stage
  | outside
  | working (task : Task)
  | holding (zone : Nat) (task : Task)
  | emptyHanded (task : Task)
  deriving DecidableEq, Repr

structure System (Thread : Type) where
  migrating : Bool
  zbd : ZonedBlockDevice
  stage : Thread → Stage

variable {Thread : Type} [DecidableEq Thread]

def System.move (thread : Thread) (stage : Stage) (system : System Thread) : System Thread :=
  { system with stage := Function.update system.stage thread stage }

/-- The steps of threads in `MigrateFileExtents`. Between them the device may change in any
way: other threads write, and the holder of a zone copies to it. -/
inductive Step (thread : Thread) : System Thread → System Thread → Prop
  | begin {system task} : system.stage thread = .outside →
      Step thread system (system.move thread (.working task))
  | skip {system lifetime extent rest} :
      system.stage thread = .working ⟨lifetime, extent :: rest⟩ →
      Step thread system (system.move thread (.working ⟨lifetime, rest⟩))
  | take {system lifetime extent rest zone} :
      system.stage thread = .working ⟨lifetime, extent :: rest⟩ → system.migrating = false →
      (system.zbd.getBestOpenZoneMatch lifetime (extent.length % 2 ^ 32)).2 = some zone →
      Step thread system ({ system with
        migrating := true
        zbd := system.zbd.setBusy zone true }.move thread (.holding zone ⟨lifetime, rest⟩))
  | miss {system lifetime extent rest} :
      system.stage thread = .working ⟨lifetime, extent :: rest⟩ → system.migrating = false →
      (system.zbd.getBestOpenZoneMatch lifetime (extent.length % 2 ^ 32)).2 = none →
      Step thread system ({ system with
        migrating := false }.move thread (.emptyHanded ⟨lifetime, rest⟩))
  | release {system zone task} : system.stage thread = .holding zone task →
      Step thread system ({ system with
        migrating := false
        zbd := system.zbd.setBusy zone false }.move thread (.working task))
  | abandon {system zone task} : system.stage thread = .holding zone task →
      Step thread system ({ system with
        migrating := false
        zbd := system.zbd.setBusy zone false }.move thread .outside)
  | releaseNothing {system task} : system.stage thread = .emptyHanded task →
      Step thread system ({ system with migrating := false }.move thread (.working task))
  | finish {system lifetime} : system.stage thread = .working ⟨lifetime, []⟩ →
      Step thread system (system.move thread .outside)
  | device {system zbd} : Step thread system { system with zbd := zbd }

def Start (system : System Thread) : Prop :=
  system.migrating = false ∧ ∀ thread, system.stage thread = .outside

/-- The states that threads reach from `system`, each step being one that is permitted. -/
def Reaches (permitted : Thread → System Thread → Prop) : System Thread → System Thread → Prop :=
  Relation.ReflTransGen fun before after =>
    ∃ thread, permitted thread before ∧ Step thread before after

def Stage.holds : Stage → Prop
  | .holding _ _ => True
  | _ => False

def AtMostOne (system : System Thread) : Prop :=
  ∀ first second, (system.stage first).holds → (system.stage second).holds → first = second

/-- A thread that found no zone comes back while nobody has set the flag. -/
def Undisturbed (thread : Thread) (system : System Thread) : Prop :=
  ∀ task, system.stage thread = .emptyHanded task → system.migrating = false

/-- The flag is set as long as a thread holds a zone, and by that thread alone. -/
structure Guarded (system : System Thread) : Prop where
  flagged : ∀ thread, (system.stage thread).holds → system.migrating = true
  single : AtMostOne system

section Steps

variable {thread : Thread} {system before after : System Thread}

omit [DecidableEq Thread] in
theorem Start.guarded (start : Start system) : Guarded system := by
  have nobody (thread : Thread) : ¬ (system.stage thread).holds := by
    rw [start.2 thread]
    exact not_false
  exact ⟨fun thread holds => (nobody thread holds).elim, fun first _ holds => (nobody first holds).elim⟩

omit [DecidableEq Thread] in
theorem Guarded.free (guarded : Guarded system) (clear : system.migrating = false) (other : Thread) :
    ¬ (system.stage other).holds := by
  intro holds
  rw [guarded.flagged other holds] at clear
  cases clear

/-- A thread goes to a stage in which it holds no zone. The flag stays up for the others. -/
theorem Guarded.leave (guarded : Guarded system) {stage : Stage} {migrating : Bool}
    {zbd : ZonedBlockDevice} (empty : ¬ stage.holds)
    (others : ∀ other, other ≠ thread → (system.stage other).holds → migrating = true) :
    Guarded ({ system with migrating := migrating, zbd := zbd }.move thread stage) := by
  have stays (other : Thread)
      (holds : (Function.update system.stage thread stage other).holds) :
      other ≠ thread ∧ (system.stage other).holds := by
    by_cases here : other = thread
    · rw [here, Function.update_self] at holds
      exact (empty holds).elim
    · rw [Function.update_of_ne here] at holds
      exact ⟨here, holds⟩
  refine ⟨fun other holds => ?_, fun first second one two => ?_⟩
  · exact others other (stays other holds).1 (stays other holds).2
  · exact guarded.single first second (stays first one).2 (stays second two).2

theorem Guarded.step (guarded : Guarded before) (undisturbed : Undisturbed thread before)
    (step : Step thread before after) : Guarded after := by
  cases step with
  | begin _ | skip _ | finish _ =>
      exact guarded.leave not_false fun other _ holds => guarded.flagged other holds
  | device => exact ⟨guarded.flagged, guarded.single⟩
  | @take lifetime extent rest zone _ clear =>
      have only (other : Thread) (holds : (Function.update before.stage thread
          (.holding zone ⟨lifetime, rest⟩) other).holds) : other = thread := by
        by_contra elsewhere
        rw [Function.update_of_ne elsewhere] at holds
        exact guarded.free clear other holds
      exact ⟨fun _ _ => rfl, fun first second one two => (only first one).trans (only second two).symm⟩
  | miss _ clear =>
      exact guarded.leave not_false fun other _ holds => (guarded.free clear other holds).elim
  | release here | abandon here =>
      -- The thread itself is the only one that holds a zone.
      refine guarded.leave not_false fun other elsewhere holds => ?_
      have self : (before.stage thread).holds := by
        rw [here]
        trivial
      exact (elsewhere (guarded.single other thread holds self)).elim
  | releaseNothing here =>
      have clear := undisturbed _ here
      exact guarded.leave not_false fun other _ holds => (guarded.free clear other holds).elim

theorem Guarded.run (guarded : Guarded before) (reaches : Reaches Undisturbed before after) :
    Guarded after := by
  induction reaches with
  | refl => exact guarded
  | tail _ last induction =>
      rcases last with ⟨thread, undisturbed, step⟩
      exact induction.step undisturbed step

end Steps

/-- In every run in which a thread that found no zone comes back while the flag is down, at
most one thread at a time holds a zone for migration. -/
theorem at_most_one_migration {start system : System Thread} (started : Start start)
    (reaches : Reaches Undisturbed start system) : AtMostOne system :=
  (started.guarded.run reaches).single

/-! ## Two threads -/

def twoZones : ZonedBlockDevice :=
  { smallDevice 8192 with
    ioZones := [19, 20]
    zone := fun number =>
      { start := number * 8192, capacity := 4096, maxCapacity := 8192, wp := number * 8192 + 4096
        lifetime := 0, usedCapacity := 4096, busy := false } }

def quiet : System (Fin 2) := ⟨false, twoZones, fun _ => .outside⟩

/-- An extent that does not fit what is left of a zone, and two that do. -/
def large : ZoneExtent := ⟨0, 8192, 1⟩

def small : ZoneExtent := ⟨8192, 4096, 1⟩

/-- One thread has found no zone for its first extent when the other one starts. -/
def missed : System (Fin 2) :=
  (quiet.move 1 (.working ⟨0, [large, small]⟩)).move 1 (.emptyHanded ⟨0, [small]⟩)

def taken : System (Fin 2) :=
  { missed.move 0 (.working ⟨0, [small]⟩) with
    migrating := true
    zbd := twoZones.setBusy 20 true }.move 0 (.holding 20 ⟨0, []⟩)

theorem quiet_starts : Start quiet := ⟨rfl, fun _ => rfl⟩

theorem missed_reached {permitted : Fin 2 → System (Fin 2) → Prop} (all : ∀ thread system,
    system.migrating = false → permitted thread system) : Reaches permitted quiet missed := by
  have first : Reaches permitted quiet (quiet.move 1 (.working ⟨0, [large, small]⟩)) :=
    .single ⟨1, all 1 quiet rfl, .begin rfl⟩
  exact first.tail ⟨1, all 1 _ rfl, .miss rfl rfl (by decide +kernel)⟩

theorem taken_reached {permitted : Fin 2 → System (Fin 2) → Prop} (all : ∀ thread system,
    system.migrating = false → permitted thread system) : Reaches permitted quiet taken := by
  have first : Reaches permitted quiet (missed.move 0 (.working ⟨0, [small]⟩)) :=
    (missed_reached all).tail ⟨0, all 0 missed rfl, .begin rfl⟩
  exact first.tail ⟨0, all 0 _ rfl, .take rfl rfl (by decide +kernel)⟩

/-- One thread holds a zone while the other one is empty-handed. -/
theorem at_most_one_migration_taken : AtMostOne taken :=
  at_most_one_migration quiet_starts (taken_reached fun _ _ clear _ _ => clear)

/-- The thread that found no zone clears the flag of the other one and takes a zone for its
next extent. -/
theorem two_migrations_at_once :
    ∃ system, Reaches (fun _ _ => True) quiet system ∧ (system.stage 0).holds ∧
      (system.stage 1).holds ∧ ¬ AtMostOne system := by
  have cleared : Reaches (fun _ _ => True) quiet
      ({ taken with migrating := false }.move 1 (.working ⟨0, [small]⟩)) :=
    (taken_reached fun _ _ _ => trivial).tail ⟨1, trivial, .releaseNothing rfl⟩
  have again := cleared.tail ⟨1, trivial, @Step.take _ _ 1 _ 0 small [] 19 rfl rfl (by decide +kernel)⟩
  refine ⟨_, again, trivial, trivial, fun single => ?_⟩
  exact absurd (single 0 1 trivial trivial) (by decide)

end Zwal.MigrationSlot
