import Zwal.Fs.NameSteps

/-! # Renaming directories

`RenameFile` on any path. Where no file has the name, the auxiliary file system renames
what it has there, and every file below it is moved one after the other. -/

namespace Zwal.FileSystem

def withSeparator (path : String) : String := if endsWith path "/" then path else path ++ "/"

/-- `GetZenFSChildrenNoLock` with grandchildren: the names below a directory, relative to
it, in the order of `files_`. -/
def getZenFSChildren (dir : String) (fs : FileSystem) : List String :=
  let below := (fs.files.map Prod.fst).filter fun name =>
    (withSeparator dir).toList.isPrefixOf name.toList
  (below.mergeSort fun one two => decide (one ≤ two)).map fun name =>
    String.ofList (name.toList.drop (withSeparator dir).length)

def childPath (dir child : String) : String := withSeparator dir ++ child

/-- Go on as `handler` says if a program fails; one that does not return stays one. -/
def rescued (program : FsProgram Unit) (handler : IOStatus → FsProgram Unit) : FsProgram Unit := do
  match ← program.attempt with
  | .ok () => pure ()
  | .error .never => Program.fail .never
  | .error failure => handler failure

def rollbackAuxDirRename (rename : String → String → FsProgram Unit) (source dest : String) :
    (renamedChildren : List String) → FsProgram Unit
  | [] => rescued auxiliary fun _ => Program.fail
      (.corruption "RollbackAuxDirRenameNoLock: Failed to roll back auxiliary path renaming")
  | child :: rest => do
      rescued (rename (childPath dest child) (childPath source child)) fun _ => Program.fail
        (.corruption "RollbackAuxDirRenameNoLock: Failed to roll back directory rename")
      rollbackAuxDirRename rename source dest rest

def renameChildren (rename : String → String → FsProgram Unit) (source dest : String) :
    (children renamedChildren : List String) → FsProgram Unit
  | [], _ => pure ()
  | child :: rest, renamedChildren => do
      rescued (rename (childPath source child) (childPath dest child)) fun failure => do
        rollbackAuxDirRename rename source dest renamedChildren
        Program.fail failure
      renameChildren rename source dest rest (renamedChildren ++ [child])

def renameAuxPath (rename : String → String → FsProgram Unit) (source dest : String) :
    FsProgram Unit := do
  auxiliary
  let fs ← Program.read
  renameChildren rename source dest (fs.getZenFSChildren source) []

def renamePathNoLock : (fuel : Nat) → (source dest : String) → FsProgram Unit
  | 0, _, _ => Program.fail .never
  | fuel + 1, source, dest => do
      let fs ← Program.read
      if (fs.getFile source).isSome then renameFileNoLock source dest
      else renameAuxPath (renamePathNoLock fuel) source dest

def renamePath (fuel : Nat) (source dest : String) : FsProgram Unit := do
  renamePathNoLock fuel source dest
  onDevice ZonedBlockDevice.resetUnusedIOZones

/-! ## Steps -/

theorem rescued_relinked {fs : FileSystem} {program : FsProgram Unit}
    {handler : IOStatus → FsProgram Unit} (first : Relinked fs (fun _ _ => True) (program fs))
    (second : ∀ failure middle, NameSteps fs middle →
      Relinked middle (fun _ _ => True) (handler failure middle)) :
    Relinked fs (fun _ _ => True) (rescued program handler fs) := by
  rcases run : program fs with ⟨failure | value, middle⟩
  all_goals
    rw [run] at first
    rw [rescued, bind_attempt run]
  · cases failure with
    | never => exact .inl rfl
    | noSpace | ioError | corruption | invalidArgument =>
        have steps := first.resolve_left (by simp)
        exact (second _ middle steps).after steps
  · exact first

section Children

variable {rename : String → String → FsProgram Unit} (source dest : String)
variable (relinked : ∀ {fs : FileSystem}, Grounded fs → ∀ source dest,
  Relinked fs (fun _ _ => True) (rename source dest fs))

include relinked

theorem rollbackAuxDirRename_relinked (renamedChildren : List String) {fs : FileSystem}
    (grounded : Grounded fs) :
    Relinked fs (fun _ _ => True) (rollbackAuxDirRename rename source dest renamedChildren fs) := by
  induction renamedChildren generalizing fs with
  | nil =>
      exact rescued_relinked ((auxiliary_relinked fs).weaken fun _ _ _ => trivial)
        fun _ _ _ => .failed _
  | cons child rest induction =>
      refine (rescued_relinked (relinked grounded _ _) fun _ _ _ => .failed _).bind ?_
      intro _ middle steps _
      exact induction (steps.grounded grounded)

theorem renameChildren_relinked (children renamedChildren : List String) {fs : FileSystem}
    (grounded : Grounded fs) : Relinked fs (fun _ _ => True)
      (renameChildren rename source dest children renamedChildren fs) := by
  induction children generalizing renamedChildren fs with
  | nil => exact .here trivial
  | cons child rest induction =>
      refine (rescued_relinked (relinked grounded _ _) fun failure middle steps => ?_).bind ?_
      · exact (rollbackAuxDirRename_relinked source dest relinked renamedChildren
          (steps.grounded grounded)).bind fun _ _ _ _ => .failed _
      · intro _ middle steps _
        exact induction _ (steps.grounded grounded)

end Children

theorem renamePathNoLock_relinked (fuel : Nat) {fs : FileSystem} (grounded : Grounded fs)
    (source dest : String) :
    Relinked fs (fun _ _ => True) (renamePathNoLock fuel source dest fs) := by
  induction fuel generalizing fs source dest with
  | zero => exact .failed _
  | succ fuel induction =>
      rw [renamePathNoLock, bind_read]
      by_cases named : (fs.getFile source).isSome
      · rw [if_pos named]
        exact renameFileNoLock_relinked grounded source dest
      · rw [if_neg named]
        refine (auxiliary_relinked fs).bind fun _ middle steps _ => ?_
        rw [bind_read]
        exact renameChildren_relinked source dest (fun sound => induction sound) _ _
          (steps.grounded grounded)

theorem renamePath_relinked (fuel : Nat) {fs : FileSystem} (grounded : Grounded fs)
    (source dest : String) : Relinked fs (fun _ _ => True) (renamePath fuel source dest fs) :=
  (renamePathNoLock_relinked fuel grounded source dest).bind fun _ middle _ _ =>
    (resetUnusedIOZones_relinked middle).weaken fun _ _ _ => trivial

end Zwal.FileSystem
