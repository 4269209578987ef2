import Mathlib

/-! # The file table and the write locks

`files_mtx_` is taken by every call that looks at the file table and by every record that
is persisted, `open_for_wr_mtx_` of a file is held as long as a handle is open or the file
is migrated. `OpenWritableFile` with `reopen` waits for the second while it holds the
first. -/

namespace Zwal.LockOrder

/-- Who persists a record: a call of a handle, or `MigrateFileExtents`. -/
inductive Work
  | handle
  | migration
  deriving DecidableEq, Repr

/-- What a thread wants `files_mtx_` for: `OpenWritableFile`, `SyncFileMetadata` of a file it
holds, `DeleteFile`, and the `GetFile` of `MigrateFileExtents`. -/
inductive Purpose (Name : Type)
  | openFile (name : Name) (reopen : Bool)
  | persist (work : Work) (file : Nat)
  | delete (name : Name)
  | find (name : Name)
  deriving DecidableEq, Repr

inductive Stage (Name : Type)
  | outside
  /-- Waits for `files_mtx_`. -/
  | awaiting (purpose : Purpose Name)
  /-- Holds `files_mtx_`. -/
  | inside (purpose : Purpose Name)
  /-- Holds `files_mtx_` and waits for the write lock of a file. -/
  | reopening (file : Nat)
  /-- Before `TryAcquireWRLock`. -/
  | found (file : Nat)
  | working (work : Work) (file : Nat)
  /-- The last record is persisted, the write lock is released next. -/
  | leaving (work : Work) (file : Nat)
  deriving DecidableEq, Repr

structure System (Thread Name : Type) where
  filesMtx : Option Thread
  files : Name → Option Nat
  nextFileId : Nat
  openForWr : Nat → Option Thread
  stage : Thread → Stage Name

variable {Thread Name : Type} [DecidableEq Thread] [DecidableEq Name]

namespace System

def move (thread : Thread) (stage : Stage Name) (system : System Thread Name) : System Thread Name :=
  { system with stage := Function.update system.stage thread stage }

def unlock (thread : Thread) (stage : Stage Name) (system : System Thread Name) :
    System Thread Name :=
  { system with filesMtx := none }.move thread stage

def setHolder (file : Nat) (holder : Option Thread) (system : System Thread Name) :
    System Thread Name :=
  { system with openForWr := Function.update system.openForWr file holder }

def setFile (name : Name) (file : Option Nat) (system : System Thread Name) : System Thread Name :=
  { system with files := Function.update system.files name file }

section Fields

variable {thread other : Thread} {stage : Stage Name} {file wanted : Nat} {holder : Option Thread}
  {system : System Thread Name}

omit [DecidableEq Name] in
@[simp] theorem openForWr_move : (system.move thread stage).openForWr = system.openForWr := rfl

omit [DecidableEq Name] in
@[simp] theorem stage_move_self : (system.move thread stage).stage thread = stage :=
  Function.update_self _ _ _

omit [DecidableEq Name] in
theorem stage_move_of_ne (elsewhere : other ≠ thread) :
    (system.move thread stage).stage other = system.stage other :=
  Function.update_of_ne elsewhere _ _

omit [DecidableEq Thread] [DecidableEq Name] in
@[simp] theorem openForWr_setHolder_self : (system.setHolder file holder).openForWr file = holder :=
  Function.update_self _ _ _

omit [DecidableEq Thread] [DecidableEq Name] in
theorem openForWr_setHolder_of_ne (different : wanted ≠ file) :
    (system.setHolder file holder).openForWr wanted = system.openForWr wanted :=
  Function.update_of_ne different _ _

end Fields

end System

/-- The steps of a thread. A handle may be passed from thread to thread between calls, and
`Persist` may fail. -/
inductive Step (thread : Thread) : System Thread Name → System Thread Name → Prop
  | openFile {system} (name reopen) : system.stage thread = .outside →
      Step thread system (system.move thread (.awaiting (.openFile name reopen)))
  | delete {system} (name) : system.stage thread = .outside →
      Step thread system (system.move thread (.awaiting (.delete name)))
  | migrate {system} (name) : system.stage thread = .outside →
      Step thread system (system.move thread (.awaiting (.find name)))
  | enter {system purpose} : system.stage thread = .awaiting purpose → system.filesMtx = none →
      Step thread system ({ system with filesMtx := some thread }.move thread (.inside purpose))
  | reopen {system name file} : system.stage thread = .inside (.openFile name true) →
      system.files name = some file → system.openForWr file = none →
      Step thread system ((system.setHolder file (some thread)).unlock thread .outside)
  | reopenBlocks {system name file holder} :
      system.stage thread = .inside (.openFile name true) →
      system.files name = some file → system.openForWr file = some holder →
      Step thread system (system.move thread (.reopening file))
  | acquire {system file} : system.stage thread = .reopening file → system.openForWr file = none →
      Step thread system ((system.setHolder file (some thread)).unlock thread .outside)
  | create {system name reopen} : system.stage thread = .inside (.openFile name reopen) →
      (reopen = true → system.files name = none) →
      Step thread system ((({ system with nextFileId := system.nextFileId + 1 }.setFile name
        (some system.nextFileId)).setHolder system.nextFileId (some thread)).unlock thread .outside)
  | createFails {system name reopen file} : system.stage thread = .inside (.openFile name reopen) →
      (reopen = true → system.files name = none) → (file = none ∨ file = system.files name) →
      Step thread system
        (({ system with nextFileId := system.nextFileId + 1 }.setFile name file).unlock thread .outside)
  | deleted {system name file} : system.stage thread = .inside (.delete name) →
      (file = none ∨ file = system.files name) →
      Step thread system ((system.setFile name file).unlock thread .outside)
  | missing {system name} : system.stage thread = .inside (.find name) →
      system.files name = none → Step thread system (system.unlock thread .outside)
  | found {system name file} : system.stage thread = .inside (.find name) →
      system.files name = some file → Step thread system (system.unlock thread (.found file))
  | tryAcquire {system file} : system.stage thread = .found file → system.openForWr file = none →
      Step thread system
        ((system.setHolder file (some thread)).move thread (.working .migration file))
  | giveUp {system file holder} : system.stage thread = .found file →
      system.openForWr file = some holder → Step thread system (system.move thread .outside)
  | call {system file} : system.stage thread = .outside → system.openForWr file = some thread →
      Step thread system (system.move thread (.working .handle file))
  | persist {system work file} : system.stage thread = .working work file →
      Step thread system (system.move thread (.awaiting (.persist work file)))
  | persisted {system file} : system.stage thread = .inside (.persist .handle file) →
      Step thread system (system.unlock thread (.working .handle file))
  | persistedLast {system work file} : system.stage thread = .inside (.persist work file) →
      Step thread system (system.unlock thread (.leaving work file))
  | release {system work file} : system.stage thread = .leaving work file →
      Step thread system ((system.setHolder file none).move thread .outside)
  | return {system file} : system.stage thread = .working .handle file →
      Step thread system (system.move thread .outside)
  | pass {system file} (other) : system.stage thread = .outside →
      system.openForWr file = some thread →
      Step thread system (system.setHolder file (some other))

structure Start (system : System Thread Name) : Prop where
  free : system.filesMtx = none
  table : ∀ name file, system.files name = some file → file < system.nextFileId
  closed : ∀ file, system.openForWr file = none
  outside : ∀ thread, system.stage thread = .outside

/-- The states that threads reach from `system`, each step being one that is permitted. -/
def Reaches (permitted : Thread → System Thread Name → Prop) :
    System Thread Name → System Thread Name → Prop :=
  Relation.ReflTransGen fun before after => ∃ thread, permitted thread before ∧ Step thread before after

def Stage.awaitsFiles : Stage Name → Prop
  | .awaiting _ => True
  | _ => False

def Stage.holdsFiles : Stage Name → Prop
  | .inside _ | .reopening _ => True
  | _ => False

/-- A thread holds `files_mtx_` and waits for a write lock, whose holder waits for
`files_mtx_`. -/
def Cycle (system : System Thread Name) : Prop :=
  ∃ first second file, system.filesMtx = some first ∧ system.stage first = .reopening file ∧
    system.openForWr file = some second ∧ (system.stage second).awaitsFiles

/-- A file that is reopened while its lock is held is about to be released by the holder,
and no migration takes the lock of a file that another thread waits for. -/
structure Orderly (thread : Thread) (system : System Thread Name) : Prop where
  reopen : ∀ name file holder, system.stage thread = .inside (.openFile name true) →
    system.files name = some file → system.openForWr file = some holder →
    ∃ work, system.stage holder = .leaving work file
  migrate : ∀ file, system.stage thread = .found file → system.openForWr file = none →
    ∀ other, system.stage other ≠ .reopening file

/-! ## What the steps preserve -/

/-- A thread that waits for a write lock has `files_mtx_`, and the holder of the write lock
needs it no more. -/
structure Ordered (system : System Thread Name) : Prop where
  exclusive : ∀ thread, (system.stage thread).holdsFiles → system.filesMtx = some thread
  table : ∀ name file, system.files name = some file → file < system.nextFileId
  waits : ∀ thread file holder, system.stage thread = .reopening file →
    system.openForWr file = some holder → ∃ work, system.stage holder = .leaving work file

section Steps

variable {thread : Thread} {before after : System Thread Name} {stage : Stage Name}

omit [DecidableEq Thread] [DecidableEq Name] in
theorem Start.ordered (start : Start before) : Ordered before where
  exclusive thread holds := by
    rw [start.outside thread] at holds
    cases holds
  table := start.table
  waits thread file holder waiting := by
    rw [start.outside thread] at waiting
    cases waiting

omit [DecidableEq Thread] [DecidableEq Name] in
theorem Ordered.alone (ordered : Ordered before) (holds : (before.stage thread).holdsFiles)
    {other : Thread} (elsewhere : other ≠ thread) : ¬ (before.stage other).holdsFiles := by
  intro also
  have first := ordered.exclusive thread holds
  have second := ordered.exclusive other also
  rw [first] at second
  exact elsewhere (Option.some.inj second).symm

omit [DecidableEq Name] in
theorem update_stage {other : Thread} (holds : (Function.update before.stage thread stage other).holdsFiles)
    (calm : ¬ stage.holdsFiles) : other ≠ thread ∧ (before.stage other).holdsFiles := by
  by_cases here : other = thread
  · rw [here, Function.update_self] at holds
    exact absurd holds calm
  · rw [Function.update_of_ne here] at holds
    exact ⟨here, holds⟩

omit [DecidableEq Thread] [DecidableEq Name] in
theorem holdsFiles_of_reopening {file : Nat} (waiting : stage = .reopening file) : stage.holdsFiles := by
  rw [waiting]
  trivial

omit [DecidableEq Name] in
theorem Ordered.unlock (ordered : Ordered before) (holds : (before.stage thread).holdsFiles)
    (calm : ¬ stage.holdsFiles)
    (moved : after.stage = Function.update before.stage thread stage)
    (table : ∀ name file, after.files name = some file → file < after.nextFileId) : Ordered after := by
  have nobody (other : Thread) : ¬ (after.stage other).holdsFiles := by
    rw [moved]
    intro also
    rcases update_stage also calm with ⟨elsewhere, inside⟩
    exact ordered.alone holds elsewhere inside
  refine ⟨fun other also => absurd also (nobody other), table, ?_⟩
  intro other file holder waiting
  exact absurd (holdsFiles_of_reopening waiting) (nobody other)

omit [DecidableEq Name] in
theorem Ordered.move (ordered : Ordered before) (calm : ¬ stage.holdsFiles)
    (staying : ∀ work file, before.stage thread ≠ .leaving work file)
    (moved : after.stage = Function.update before.stage thread stage)
    (filesMtx : after.filesMtx = before.filesMtx)
    (table : ∀ name file, after.files name = some file → file < after.nextFileId)
    (locks : ∀ other file holder, before.stage other = .reopening file →
      after.openForWr file = some holder → before.openForWr file = some holder) : Ordered after := by
  refine ⟨?_, table, ?_⟩
  · intro other holds
    rw [moved] at holds
    rw [filesMtx]
    exact ordered.exclusive other (update_stage holds calm).2
  · intro other file holder waiting held
    rw [moved] at waiting ⊢
    have there := holdsFiles_of_reopening waiting
    rw [Function.update_of_ne (update_stage there calm).1] at waiting
    rcases ordered.waits other file holder waiting (locks other file holder waiting held) with
      ⟨work, leaving⟩
    refine ⟨work, ?_⟩
    have different : holder ≠ thread := by
      intro same
      rw [same] at leaving
      exact staying work file leaving
    rw [Function.update_of_ne different]
    exact leaving

omit [DecidableEq Thread] in
theorem table_setFile (ordered : Ordered before) {name : Name} {file : Option Nat} {next : Nat}
    (bounded : ∀ number, file = some number → number < next) (grows : before.nextFileId ≤ next)
    (other : Name) (number : Nat) (listed : Function.update before.files name file other = some number) :
    number < next := by
  by_cases here : other = name
  · rw [here, Function.update_self] at listed
    exact bounded number listed
  · rw [Function.update_of_ne here] at listed
    exact Nat.lt_of_lt_of_le (ordered.table other number listed) grows

theorem Ordered.step (ordered : Ordered before) (orderly : Orderly thread before)
    (step : Step thread before after) : Ordered after := by
  -- a stage that is not one of the thread's
  have apart {here there : Stage Name} (is : before.stage thread = here) (different : here ≠ there) :
      before.stage thread ≠ there := fun same => different (is.symm.trans same)
  have within {purpose : Purpose Name} (is : before.stage thread = .inside purpose) :
      (before.stage thread).holdsFiles := by
    rw [is]
    trivial
  cases step with
  | openFile _ _ here | delete _ here | migrate _ here | giveUp here _ | call here _ | persist here
  | «return» here =>
      refine ordered.move (by simp [Stage.holdsFiles]) ?_ rfl rfl ordered.table fun _ _ _ _ held => held
      intro work file
      exact apart here (by simp)
  | @enter purpose here free =>
      have nobody (other : Thread) : ¬ (before.stage other).holdsFiles := by
        intro holds
        have held := ordered.exclusive other holds
        rw [free] at held
        cases held
      have only {other : Thread} (holds : (Function.update before.stage thread
          (.inside purpose) other).holdsFiles) : other = thread := by
        by_contra elsewhere
        rw [Function.update_of_ne elsewhere] at holds
        exact nobody other holds
      refine ⟨fun other holds => ?_, ordered.table, fun other file holder waiting => ?_⟩
      · rw [only holds]
        rfl
      · have same := only (holdsFiles_of_reopening waiting)
        rw [same] at waiting
        have inside : Function.update before.stage thread (.inside purpose) thread = .reopening file :=
          waiting
        rw [Function.update_self] at inside
        cases inside
  | reopen here _ _ =>
      exact ordered.unlock (within here) (by simp [Stage.holdsFiles]) rfl ordered.table
  | @reopenBlocks name file holder here known held =>
      rcases orderly.reopen name file holder here known held with ⟨work, leaving⟩
      have different : holder ≠ thread := by
        intro same
        rw [same, here] at leaving
        cases leaving
      refine ⟨fun other holds => ?_, ordered.table, fun other wanted owner waiting owned => ?_⟩
      · by_cases same : other = thread
        · rw [same]
          exact ordered.exclusive thread (within here)
        · rw [System.stage_move_of_ne same] at holds
          exact absurd holds (ordered.alone (within here) same)
      · by_cases same : other = thread
        · rw [same, System.stage_move_self] at waiting
          cases waiting
          have owner_eq : owner = holder := Option.some.inj (owned.symm.trans held)
          refine ⟨work, ?_⟩
          rw [owner_eq, System.stage_move_of_ne different]
          exact leaving
        · rw [System.stage_move_of_ne same] at waiting
          exact absurd (holdsFiles_of_reopening waiting) (ordered.alone (within here) same)
  | @acquire file here _ =>
      exact ordered.unlock (holdsFiles_of_reopening here) (by simp [Stage.holdsFiles]) rfl ordered.table
  | create here _ =>
      refine ordered.unlock (within here) (by simp [Stage.holdsFiles]) rfl
        (table_setFile ordered ?_ (Nat.le_succ _))
      intro number same
      rw [← Option.some.inj same]
      exact Nat.lt_succ_self _
  | @createFails name _ file here _ kept =>
      refine ordered.unlock (within here) (by simp [Stage.holdsFiles]) rfl
        (table_setFile ordered ?_ (Nat.le_succ _))
      intro number same
      rcases kept with gone | old
      · rw [gone] at same
        cases same
      · exact Nat.lt_succ_of_lt (ordered.table name number (old.symm.trans same))
  | @deleted name file here kept =>
      refine ordered.unlock (within here) (by simp [Stage.holdsFiles]) rfl
        (table_setFile ordered ?_ (Nat.le_refl _))
      intro number same
      rcases kept with gone | old
      · rw [gone] at same
        cases same
      · exact ordered.table name number (old.symm.trans same)
  | missing here _ | found here _ | persisted here | persistedLast here =>
      exact ordered.unlock (within here) (by simp [Stage.holdsFiles]) rfl ordered.table
  | @tryAcquire file here free =>
      refine ordered.move (by simp [Stage.holdsFiles]) ?_ rfl rfl ordered.table ?_
      · intro work other
        exact apart here (by simp)
      · intro other wanted holder waiting held
        have different : wanted ≠ file := by
          intro same
          rw [same] at waiting
          exact orderly.migrate file here free other waiting
        rwa [System.openForWr_move, System.openForWr_setHolder_of_ne different] at held
  | @release work file here =>
      refine ⟨fun other holds => ?_, ordered.table, fun other wanted holder waiting held => ?_⟩
      · exact ordered.exclusive other (update_stage holds (by simp [Stage.holdsFiles])).2
      · have there := update_stage (holdsFiles_of_reopening waiting) (by simp [Stage.holdsFiles])
        have waited : before.stage other = .reopening wanted := by
          rwa [System.stage_move_of_ne there.1] at waiting
        have different : wanted ≠ file := by
          intro same
          rw [same, System.openForWr_move, System.openForWr_setHolder_self] at held
          cases held
        have owned : before.openForWr wanted = some holder := by
          rwa [System.openForWr_move, System.openForWr_setHolder_of_ne different] at held
        rcases ordered.waits other wanted holder waited owned with ⟨last, leaving⟩
        refine ⟨last, ?_⟩
        have someone : holder ≠ thread := by
          intro same
          rw [same, here] at leaving
          cases leaving
          exact different rfl
        rw [System.stage_move_of_ne someone]
        exact leaving
  | @pass file next here owned =>
      refine ⟨ordered.exclusive, ordered.table, fun other wanted holder waiting held => ?_⟩
      have different : wanted ≠ file := by
        intro same
        rw [same] at waiting
        rcases ordered.waits other file thread waiting owned with ⟨work, leaving⟩
        rw [here] at leaving
        cases leaving
      rw [System.openForWr_setHolder_of_ne different] at held
      exact ordered.waits other wanted holder waiting held

theorem Ordered.run (ordered : Ordered before) (reaches : Reaches Orderly before after) :
    Ordered after := by
  induction reaches with
  | refl => exact ordered
  | tail _ last induction =>
      rcases last with ⟨thread, orderly, step⟩
      exact induction.step orderly step

end Steps

/-- In every run in which a held write lock is waited for only when its holder is about to
release it, and no migration takes a lock that is waited for, there is no cycle. -/
theorem no_lock_cycle {start system : System Thread Name} (started : Start start)
    (reaches : Reaches Orderly start system) : ¬ Cycle system := by
  rintro ⟨first, second, file, _, reopening, held, awaits⟩
  rcases (started.ordered.run reaches).waits first file second reopening held with ⟨work, leaving⟩
  rw [leaving] at awaits
  exact awaits

/-! ## Two threads -/

local instance twoThreads : NeZero (1 + 1) := ⟨Nat.succ_ne_zero 1⟩

def quiet : System (Fin 2) String := ⟨none, fun _ => none, 0, fun _ => none, fun _ => .outside⟩

theorem quiet_starts : Start quiet where
  free := rfl
  table _ _ listed := by cases listed
  closed _ := rfl
  outside _ := rfl

/-- A thread goes through the door of `files_mtx_`. -/
def entered (thread : Fin 2) (purpose : Purpose String) (system : System (Fin 2) String) :
    System (Fin 2) String :=
  { system.move thread (.awaiting purpose) with filesMtx := some thread }.move thread (.inside purpose)

def writing : System (Fin 2) String :=
  (((({ entered 0 (.openFile "a" false) quiet with nextFileId := 1 }.setFile "a"
    (some 0)).setHolder 0 (some 0)).unlock 0 .outside).move 0 (.working .handle 0))

/-- The call is a `Close`, and its record is persisted. -/
def closing : System (Fin 2) String :=
  (entered 0 (.persist .handle 0) writing).unlock 0 (.leaving .handle 0)

def reopened (system : System (Fin 2) String) : System (Fin 2) String :=
  (entered 1 (.openFile "a" true) system).move 1 (.reopening 0)

def stuck : System (Fin 2) String := (reopened writing).move 0 (.awaiting (.persist .handle 0))

def Stage.plain : Stage String → Bool
  | .inside (.openFile _ true) | .found _ => false
  | _ => true

theorem orderly_of_plain {thread : Fin 2} {system : System (Fin 2) String}
    (plain : (system.stage thread).plain = true) : Orderly thread system := by
  refine ⟨fun name _ _ here => ?_, fun file here => ?_⟩
  · rw [here] at plain
    cases plain
  · rw [here] at plain
    cases plain

section Runs

variable {permitted : Fin 2 → System (Fin 2) String → Prop}
  (all : ∀ thread system, (system.stage thread).plain = true → permitted thread system)

include all

theorem reaches_step (thread : Fin 2) {before after : System (Fin 2) String}
    (reaches : Reaches permitted quiet before) (plain : (before.stage thread).plain = true)
    (step : Step thread before after) : Reaches permitted quiet after :=
  reaches.tail ⟨thread, all thread before plain, step⟩

theorem writing_reached : Reaches permitted quiet writing := by
  have first := reaches_step all 0 (@Relation.ReflTransGen.refl _ _ quiet) rfl (.openFile "a" false rfl)
  have second := reaches_step all 0 first rfl (.enter rfl rfl)
  have third := reaches_step all 0 second rfl (.create rfl (by simp))
  exact reaches_step all 0 third rfl (.call rfl rfl)

theorem closing_reached : Reaches permitted quiet closing := by
  have first := reaches_step all 0 (writing_reached all) rfl (.persist rfl)
  have second := reaches_step all 0 first rfl (.enter rfl rfl)
  exact reaches_step all 0 second rfl (.persistedLast rfl)

theorem lookup_reached {system : System (Fin 2) String} (reaches : Reaches permitted quiet system)
    (outside : system.stage 1 = .outside) (free : system.filesMtx = none) :
    Reaches permitted quiet (entered 1 (.openFile "a" true) system) := by
  have first := reaches_step all 1 reaches (by rw [outside]; rfl) (.openFile "a" true outside)
  exact reaches_step all 1 first rfl (.enter rfl free)

end Runs

/-- A file is reopened while the other thread closes it. -/
theorem no_lock_cycle_closing : Reaches Orderly quiet (reopened closing) ∧ ¬ Cycle (reopened closing) := by
  have before := lookup_reached (fun _ _ plain => orderly_of_plain plain)
    (closing_reached fun _ _ plain => orderly_of_plain plain) rfl rfl
  have orderly : Orderly 1 (entered 1 (.openFile "a" true) closing) := by
    refine ⟨fun name file holder here known held => ?_, fun file here => ?_⟩
    · cases here
      cases known
      cases held
      exact ⟨.handle, rfl⟩
    · cases here
  have reaches : Reaches Orderly quiet (reopened closing) :=
    before.tail ⟨1, orderly, .reopenBlocks rfl rfl rfl⟩
  exact ⟨reaches, no_lock_cycle quiet_starts reaches⟩

/-- It is reopened in the middle of a call that persists a record. -/
theorem reopen_waits_for_writer :
    Start quiet ∧ Reaches (fun _ _ => True) quiet stuck ∧ Cycle stuck := by
  have before := lookup_reached (fun _ _ _ => trivial) (writing_reached fun _ _ _ => trivial) rfl rfl
  have blocked : Reaches (fun _ _ => True) quiet (reopened writing) :=
    before.tail ⟨1, trivial, .reopenBlocks rfl rfl rfl⟩
  exact ⟨quiet_starts, blocked.tail ⟨0, trivial, .persist rfl⟩, 1, 0, 0, rfl, rfl, rfl, trivial⟩

end Zwal.LockOrder
