import Zwal.Fs.MigrationSteps

/-! # Invariants of runs

Every operation is a call made of steps, a pass of the garbage collector or a mount. An
invariant of a mounted file system is kept by each of them. -/

namespace Zwal.FileSystem

open ZonedBlockDevice FileState

inductive Passage (config : BuildConfig) (before after : FileSystem) : Operation → Prop
  | call {operation} : operation.isCall = true → FsSteps before after →
      Passage config before after operation
  | reopen {name direct k} : before.getFile name = some k →
      (before.object k).file.openForWr = false → (before.object k).opened = false →
      after = (attachWriter config k (!direct) before).2 →
      Passage config before after (.openWritable name direct true)
  | look {k offset n direct build env state} : k < before.objects.length →
      FileSteps .look (before.view k) state → after = before.place k state →
      Passage config before after (.read k offset n direct build env)
  | close {k} : k < before.objects.length → Closing config before k after →
      Passage config before after (.close k)
  | drop {k closed next} : k < before.objects.length → Closing config before k closed →
      FsSteps closed next → FsSteps (next.detached k) after →
      Passage config before after (.destroyWriter k)
  | idle {device name chosen} : FsSteps before after →
      Passage config before after (.migrate device name chosen)
  | migrate {device name chosen k middle} : before.getFile name = some k →
      (before.object k).file.openForWr = false → MigrateStep device chosen k before middle →
      FsSteps middle after → Passage config before after (.migrate device name chosen)
  | mount {device lost middle} : MountSteps (before.lostMemory lost) middle → FsSteps middle after →
      Passage config before after (.remount device lost)

theorem call_passage {config : BuildConfig} {fuel : Nat} {operation : Operation}
    {before after : FileSystem} {outcome : Except IOStatus Unit} (grounded : Grounded before)
    (run : operation.run config fuel before = (outcome, after)) (ends : outcome ≠ .error .never)
    (call : operation.isCall = true)
    (new : ∀ name direct, operation = .openWritable name direct true → before.getFile name = none) :
    Passage config before after operation := by
  have stepped := operation_stepped config fuel grounded call new
  rw [run] at stepped
  refine .call call ?_
  cases outcome with
  | ok => exact stepped.1
  | error failure => exact stepped.resolve_left fun same => ends (same ▸ rfl)

theorem openWritable_passage {config : BuildConfig} {fuel : Nat} {name : String} {direct reopen : Bool}
    {before after : FileSystem} {outcome : Except IOStatus Unit} (grounded : Grounded before)
    (run : (Operation.openWritable name direct reopen).run config fuel before = (outcome, after))
    (ends : outcome ≠ .error .never) :
    Passage config before after (.openWritable name direct reopen) := by
  cases found : before.getFile name with
  | none =>
      refine call_passage grounded run ends rfl fun other _ same => ?_
      cases same
      exact found
  | some k =>
      cases reopen with
      | false => exact call_passage grounded run ends rfl nofun
      | true =>
          rcases openWritableFile_reopened config direct found with waits | ⟨unlocked, closed, attach⟩
          · rw [Operation.run, waits] at run
            cases run
            exact absurd rfl ends
          · rw [Operation.run, attach] at run
            exact .reopen found unlocked closed (congrArg Prod.snd run).symm

theorem destroyWriter_passage {config : BuildConfig} {fuel k : Nat} {before after : FileSystem}
    {outcome : Except IOStatus Unit} (grounded : Grounded before)
    (run : (Operation.destroyWriter k).run config fuel before = (outcome, after))
    (ends : outcome ≠ .error .never) : Passage config before after (.destroyWriter k) := by
  rw [Operation.run, dropWriter, bind_read] at run
  cases held : (before.object k).writer with
  | none =>
      rw [held] at run
      cases run
      exact absurd rfl ends
  | some handle =>
      rw [held] at run
      have inside := lt_of_writer held
      rcases destroyWriter_cases config fuel grounded inside run ends with
        ⟨closed, next, closing, deferred, steps⟩
      exact .drop inside closing deferred steps

theorem operation_passage {config : BuildConfig} {fuel : Nat} {operation : Operation}
    {before after : FileSystem} {outcome : Except IOStatus Unit} (grounded : Grounded before)
    (run : operation.run config fuel before = (outcome, after)) (ended : operation.Ended outcome) :
    Passage config before after operation := by
  cases operation with
  | openWritable => exact openWritable_passage grounded run ended.1
  | close k =>
      cases held : (before.object k).writer with
      | none =>
          simp only [Operation.run, onWriter, held] at run
          cases run
          exact absurd rfl ended.1
      | some handle => exact .close (lt_of_writer held) (close_closing config fuel grounded run ended.1)
  | destroyWriter => exact destroyWriter_passage grounded run ended.1
  | read k offset n direct build env =>
      rcases readObject_looked config build env run ended.1 with ⟨inside, state, steps, same⟩
      exact .look inside steps same
  | migrate device name chosen =>
      rcases migrate_steps device name chosen grounded run ended.1 with
        ⟨middle, rfl | ⟨k, found, unlocked, step⟩, steps⟩
      · exact .idle steps
      · exact .migrate found unlocked step steps
  | remount device lost =>
      have mounted := ended.2 rfl
      rw [mounted] at run
      rcases remount_steps run with ⟨middle, first, second⟩
      exact .mount first second
  | append | positionedAppend | sync | fsync | rangeSync | truncate | setLifetime | delete | rename | link
  | openReader | closeReader =>
      refine call_passage grounded run ended.1 rfl ?_
      intro _ _ same
      cases same

theorem Grounded.mount {before middle : FileSystem} (grounded : Grounded before)
    {lost : List (Nat × Nat)} (mounted : MountSteps (before.lostMemory lost) middle) :
    Grounded middle := by
  have recovering := mounted.recovering (recovering_lostMemory lost before)
  have partitioned :=
    ((grounded.partitioned.fixed (crash_fixed lost before.zbd)).reopen).fixed mounted.fixed
  exact recovering.grounded partitioned

theorem Passage.grounded {config : BuildConfig} {before after : FileSystem} {operation : Operation}
    (passage : Passage config before after operation) (grounded : Grounded before) :
    Grounded after := by
  cases passage with
  | call _ steps | idle steps => exact steps.grounded grounded
  | reopen found _ _ same => exact same ▸ grounded.attach (grounded.inside found) _ _
  | look inside steps same => exact same ▸ grounded.placed inside (sees_view before _) steps
  | close inside closing => exact closing.grounded inside grounded
  | drop inside closing deferred steps =>
      have there := Nat.lt_of_lt_of_le (closing.inside inside) deferred.length
      exact steps.grounded ((deferred.grounded (closing.grounded inside grounded)).detach there)
  | migrate found _ step steps => exact steps.grounded (step.grounded (grounded.inside found) grounded)
  | mount mounted steps => exact steps.grounded (grounded.mount mounted)

theorem Runs.keep {config : BuildConfig} {permitted : FileSystem → Operation → Prop}
    {invariant : FileSystem → Prop}
    (kept : ∀ {before after operation}, Grounded before → permitted before operation →
      Passage config before after operation → invariant before → invariant after)
    {before after : FileSystem} (runs : Runs config permitted before after)
    (grounded : Grounded before) (holds : invariant before) : Grounded after ∧ invariant after := by
  induction runs with
  | refl => exact ⟨grounded, holds⟩
  | tail _ performs induction =>
      rcases performs with ⟨operation, fuel, outcome, allowed, run, ended⟩
      have passage := operation_passage induction.1 run ended
      exact ⟨passage.grounded induction.1, kept induction.1 allowed passage induction.2⟩

/-- The states in the middle of a permitted operation: a passage may stop after any of its
steps. -/
inductive During (config : BuildConfig) (permitted : FileSystem → Operation → Prop)
    (before : FileSystem) : FileSystem → Prop
  | calling {middle} : FsSteps before middle → During config permitted before middle
  | passing {operation after} : permitted before operation → Passage config before after operation →
      During config permitted before after
  | shutting {k middle start state} : k < before.objects.length → FsSteps before middle →
      Sees middle k start → FileSteps .shut start state →
      During config permitted before (middle.place k state)
  | mounting {lost middle} : MountSteps (before.lostMemory lost) middle →
      During config permitted before middle

/-! ## The file system `MkFS` makes -/

/-- An empty file system on zones that were all reset, with one snapshot in its log. -/
structure Made (fs : FileSystem) : Prop where
  partitioned : Partitioned fs.zbd
  objects : fs.objects = []
  files : fs.files = []
  metaLog : fs.metaLog = [.snapshot []]
  start : ∀ number, (fs.zbd.zone number).start = number * fs.zbd.zoneSize
  wp : ∀ number, (fs.zbd.zone number).wp = (fs.zbd.zone number).start
  capacity : ∀ number, (fs.zbd.zone number).capacity = (fs.zbd.zone number).maxCapacity
  room : ∀ number, 0 < (fs.zbd.zone number).maxCapacity ∧
    (fs.zbd.zone number).maxCapacity ≤ fs.zbd.zoneSize
  unused : ∀ number, (fs.zbd.zone number).usedCapacity = 0
  idle : ∀ number, (fs.zbd.zone number).busy = false
  activeIoZones : fs.zbd.activeIoZones = 0
  openIoZones : fs.zbd.openIoZones = 0
  deferred : fs.zbd.zoneDeferredStatus = none
  trace : fs.zbd.trace = []

theorem Made.object {fs : FileSystem} (made : Made fs) (k : Nat) : fs.object k = {} :=
  object_of_length_le (by simp [made.objects])

theorem Made.grounded {fs : FileSystem} (made : Made fs) : Grounded fs where
  partitioned := made.partitioned
  referring := by
    rw [Referring, made.files]
    exact List.forall_mem_nil _
  lies k := by
    rw [made.object]
    exact ⟨List.forall_mem_nil _, fun _ none => by cases none⟩
  bounded k := by
    rw [made.object]
    intro _ none
    cases none

/-- All zones behind the first nineteen are for files; each has the same capacity. -/
def emptyDevice (ioZones : List Nat) (zoneSize capacity blockSize : Nat) (replies : List Int) :
    ZonedBlockDevice where
  zone number :=
    { start := number * zoneSize, capacity := capacity, maxCapacity := capacity
      wp := number * zoneSize, lifetime := wlthNotSet, usedCapacity := 0, busy := false }
  ioZones := ioZones
  walZones := [4, 5, 6, 7, 8, 9, 10, 11, 12, 13, 14, 15, 16, 17, 18]
  blockSize := blockSize
  zoneSize := zoneSize
  finishThreshold := 0
  activeIoZones := 0
  openIoZones := 0
  maxNrActiveIoZones := 12
  maxNrOpenIoZones := 12
  zoneDeferredStatus := none
  replies := replies
  trace := []

def emptyFileSystem (zbd : ZonedBlockDevice) : FileSystem :=
  { zbd := zbd, objects := [], files := [], nextFileId := 1, metaLog := [.snapshot []], rolls := [] }

theorem emptyFileSystem_made {ioZones : List Nat} {zoneSize capacity blockSize : Nat}
    (blocks : blockSize ∣ 2 ^ 20) (io : ∀ number ∈ ioZones, 19 ≤ number) (distinct : ioZones.Nodup)
    (room : 0 < capacity ∧ capacity ≤ zoneSize) (replies : List Int) :
    Made (emptyFileSystem (emptyDevice ioZones zoneSize capacity blockSize replies)) where
  partitioned :=
    { blocks := blocks
      wal index number found := by
        have listed : ∀ index number, ([4, 5, 6, 7, 8, 9, 10, 11, 12, 13, 14, 15, 16, 17, 18] :
            List Nat)[index]? = some number → number = index + 4 := by
          intro index number found
          have inside := (List.getElem?_eq_some_iff.mp found).1
          simp only [List.length_cons, List.length_nil] at inside
          interval_cases index <;> simpa using found.symm
        exact listed index number found
      walCount := rfl
      io := io
      ioDistinct := distinct }
  objects := rfl
  files := rfl
  metaLog := rfl
  start _ := rfl
  wp _ := rfl
  capacity _ := rfl
  room _ := room
  unused _ := rfl
  idle _ := rfl
  activeIoZones := rfl
  openIoZones := rfl
  deferred := rfl
  trace := rfl

/-! ## Operations one after the other -/

def runAll (config : BuildConfig) (fuel : Nat) : List Operation → FileSystem → FileSystem
  | [], fs => fs
  | operation :: rest, fs => runAll config fuel rest (operation.run config fuel fs).2

def allOk (config : BuildConfig) (fuel : Nat) : List Operation → FileSystem → Bool
  | [], _ => true
  | operation :: rest, fs =>
      (operation.run config fuel fs).1.isOk && allOk config fuel rest (operation.run config fuel fs).2

def AllPermitted (config : BuildConfig) (fuel : Nat) (permitted : FileSystem → Operation → Prop) :
    List Operation → FileSystem → Prop
  | [], _ => True
  | operation :: rest, fs => permitted fs operation ∧
      AllPermitted config fuel permitted rest (operation.run config fuel fs).2

theorem allPermitted_of_forall {config : BuildConfig} {fuel : Nat}
    {permitted : FileSystem → Operation → Prop} {operations : List Operation}
    (free : ∀ operation ∈ operations, ∀ fs, permitted fs operation) (fs : FileSystem) :
    AllPermitted config fuel permitted operations fs := by
  induction operations generalizing fs with
  | nil => trivial
  | cons operation operations induction =>
      exact ⟨free operation List.mem_cons_self fs,
        induction (fun other member => free other (List.mem_cons_of_mem _ member)) _⟩

theorem allPermitted_append {config : BuildConfig} {fuel : Nat}
    {permitted : FileSystem → Operation → Prop} {first second : List Operation} {fs : FileSystem}
    (early : AllPermitted config fuel permitted first fs)
    (late : AllPermitted config fuel permitted second (runAll config fuel first fs)) :
    AllPermitted config fuel permitted (first ++ second) fs := by
  induction first generalizing fs with
  | nil => exact late
  | cons operation first induction => exact ⟨early.1, induction early.2 late⟩

theorem runs_runAll {config : BuildConfig} {fuel : Nat}
    {permitted : FileSystem → Operation → Prop} {operations : List Operation} {fs : FileSystem}
    (allowed : AllPermitted config fuel permitted operations fs)
    (returned : allOk config fuel operations fs = true) :
    Runs config permitted fs (runAll config fuel operations fs) := by
  induction operations generalizing fs with
  | nil => exact .refl
  | cons operation operations induction =>
      rw [allOk, Bool.and_eq_true] at returned
      refine .head ?_ (induction allowed.2 returned.2)
      have outcome : (operation.run config fuel fs).1 = .ok () := by
        cases first : (operation.run config fuel fs).1 with
        | ok => rfl
        | error => simp [first, Except.isOk, Except.toBool] at returned
      exact ⟨operation, fuel, .ok (), allowed.1, Prod.ext outcome rfl, nofun, fun _ => rfl⟩

end Zwal.FileSystem
