import Zwal.Fs.Directories

/-! # Deleting directories

`DeleteDirRecursive` walks the directories of the auxiliary file system, while the files
are in a flat table of paths. The auxiliary file system is a tree here; any request to it
may fail. -/

namespace Zwal

structure AuxTree where
  dirs : List String
  files : List String
  deriving DecidableEq, Repr

structure Overlay where
  fs : FileSystem
  tree : AuxTree

abbrev OverlayProgram := Program Overlay IOStatus

namespace Overlay

open FileSystem

def isComponent (name : String) : Bool := name != "" && !name.toList.contains '/'

/-- The name of a path within the directory it is in, if that is `dir`. -/
def childName (dir path : String) : Option String :=
  let rest := String.ofList (path.toList.drop (withSeparator dir).length)
  if (withSeparator dir).toList.isPrefixOf path.toList && isComponent rest then some rest else none

def onFs (program : FsProgram Value) : OverlayProgram Value :=
  program.within Overlay.fs fun overlay fs => { overlay with fs := fs }

def missing : OverlayProgram Value := Program.fail (.ioError "auxiliary file system")

def zenFSChildren (dir : String) (overlay : Overlay) : List String :=
  (((overlay.fs.files.map Prod.fst).filter fun name => (childName dir name).isSome).mergeSort
    fun one two => decide (one ≤ two)).filterMap (childName dir)

/-- `GetChildrenNoLock`: a directory that is not found is taken for an empty one. -/
def getChildrenNoLock (dir : String) : OverlayProgram (List String) := do
  onFs auxiliary
  let overlay ← Program.read
  if dir ∈ overlay.tree.dirs then
    pure ((overlay.tree.dirs ++ overlay.tree.files).filterMap (childName dir) ++
      overlay.zenFSChildren dir)
  else pure []

def isDirectoryNoLock (path : String) : OverlayProgram Bool := do
  let overlay ← Program.read
  if (overlay.fs.getFile path).isSome then pure false
  else
    onFs auxiliary
    if path ∈ overlay.tree.dirs then pure true
    else if path ∈ overlay.tree.files then pure false
    else missing

/-- `DeleteFileNoLock`, of a file or of what the auxiliary file system has at the path. -/
def deletePathNoLock (path : String) : OverlayProgram Unit := do
  let overlay ← Program.read
  if (overlay.fs.getFile path).isSome then onFs (deleteAndRelease path)
  else
    onFs auxiliary
    if path ∈ overlay.tree.files then
      Program.update fun overlay => { overlay with
        tree := { overlay.tree with files := overlay.tree.files.filter (· ≠ path) } }
    else missing

/-- `DeleteDir` of the auxiliary file system: the directory is there and empty. -/
def deleteAuxDir (dir : String) : OverlayProgram Unit := do
  onFs auxiliary
  let overlay ← Program.read
  if dir ∈ overlay.tree.dirs ∧
      (overlay.tree.dirs ++ overlay.tree.files).filterMap (childName dir) = [] then
    Program.update fun overlay => { overlay with
      tree := { overlay.tree with dirs := overlay.tree.dirs.filter (· ≠ dir) } }
  else missing

def deleteChildren (deleteDir : String → OverlayProgram Unit) (dir : String) :
    (children : List String) → OverlayProgram Unit
  | [] => pure ()
  | child :: rest => do
      let isDir ← isDirectoryNoLock (childPath dir child)
      if isDir then deleteDir (childPath dir child) else deletePathNoLock (childPath dir child)
      deleteChildren deleteDir dir rest

def deleteDirRecursiveNoLock : (fuel : Nat) → (dir : String) → OverlayProgram Unit
  | 0, _ => Program.fail .never
  | fuel + 1, dir => do
      let children ← getChildrenNoLock dir
      deleteChildren (deleteDirRecursiveNoLock fuel) dir children
      deleteAuxDir dir

def deleteDirRecursive (fuel : Nat) (dir : String) : OverlayProgram Unit := do
  deleteDirRecursiveNoLock fuel dir
  onFs (FileSystem.onDevice ZonedBlockDevice.resetUnusedIOZones)

end Overlay

end Zwal
