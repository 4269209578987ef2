import Zwal.Fs.Migration
import Zwal.Fs.Mount

/-! # Runs of the file system

The calls a database makes on a mounted file system and on its handles, a pass of the
garbage collector, and a crash with the mount that follows. -/

namespace Zwal

inductive Operation
  | openWritable (name : String) (direct reopen : Bool)
  | append (k : Nat) (data : Bytes)
  | positionedAppend (k : Nat) (data : Bytes) (offset : Nat)
  | sync (k : Nat)
  | fsync (k : Nat)
  | rangeSync (k offset nbytes : Nat)
  | truncate (k size : Nat)
  | close (k : Nat)
  | destroyWriter (k : Nat)
  | setLifetime (k hint : Nat)
  | delete (name : String)
  | rename (source dest : String)
  | link (name target : String)
  | openReader (name : String)
  | read (k offset n : Nat) (direct : Bool) (build : ReaderBuild) (env : ReaderEnv)
  | closeReader (k : Nat)
  | migrate (device : Nat → UInt8) (name : String) (chosen : List (Nat × Nat))
  | remount (device : Nat → UInt8) (lost : List (Nat × Nat))

namespace FileSystem

def setHint (k hint : Nat) : FsProgram Unit := do
  let fs ← Program.read
  if (fs.object k).writer.isNone then Program.fail .never
  else setFile k fun file => { file with lifetime := hint }

/-- A call on an open handle; nothing is called on a handle after `Close`. -/
def onOpenWriter (k : Nat) (program : WritableProgram Unit) : FsProgram Unit := do
  let fs ← Program.read
  if (fs.object k).writer.any WriterHandle.isOpen then onWriter k program else Program.fail .never

/-- A read through a handle on object `k`. -/
def readObject (config : BuildConfig) (build : ReaderBuild) (env : ReaderEnv) (k offset n : Nat)
    (direct : Bool) : FsProgram Unit := do
  let fs ← Program.read
  if (fs.object k).readers = 0 then Program.fail .never
  else
    let _ ← onObject k (FileState.positionedRead build config env offset n direct)
    pure ()

def dropReader (k : Nat) : FsProgram Unit := do
  let fs ← Program.read
  if (fs.object k).readers = 0 then Program.fail .never else closeReader k

/-- A handle that is not there cannot be used: such a call does not end. -/
def dropWriter (config : BuildConfig) (fuel k : Nat) : FsProgram Unit := do
  let fs ← Program.read
  if (fs.object k).writer.isNone then Program.fail .never else destroyWriter config fuel k

end FileSystem

namespace Operation

open FileSystem

def run (config : BuildConfig) (fuel : Nat) : Operation → FsProgram Unit
  | .openWritable name direct reopen => openWritableFile config name direct reopen
  | .append k data => onOpenWriter k (WritableFile.append config fuel data)
  | .positionedAppend k data offset =>
      onOpenWriter k (WritableFile.positionedAppend config fuel data offset)
  | .sync k => onOpenWriter k (WritableFile.sync config fuel)
  | .fsync k => onOpenWriter k (WritableFile.fsync config fuel)
  | .rangeSync k offset nbytes =>
      onOpenWriter k (WritableFile.rangeSync config fuel offset nbytes)
  | .truncate k size => onOpenWriter k (WritableFile.truncate size)
  | .close k => onWriter k (WritableFile.close config fuel)
  | .destroyWriter k => dropWriter config fuel k
  | .setLifetime k hint => setHint k hint
  | .delete name => deleteFile name
  | .rename source dest => renameFile source dest
  | .link name target => linkFile name target
  | .openReader name => FileSystem.openReader name
  | .read k offset n direct build env => readObject config build env k offset n direct
  | .closeReader k => dropReader k
  | .migrate device name chosen => migrateExtents device name chosen
  | .remount device lost => FileSystem.remount config device fuel lost

def isMount : Operation → Bool
  | .remount _ _ => true
  | _ => false

/-- What is left without reads, the end of a writer, a pass of the garbage collector and a
mount. -/
def isCall : Operation → Bool
  | .close .. | .destroyWriter .. | .read .. | .migrate .. | .remount .. => false
  | _ => true

def Ended (operation : Operation) (outcome : Except IOStatus Unit) : Prop :=
  outcome ≠ .error .never ∧ (operation.isMount = true → outcome = .ok ())

end Operation

namespace FileSystem

def Performs (config : BuildConfig) (permitted : FileSystem → Operation → Prop)
    (before after : FileSystem) : Prop :=
  ∃ operation fuel outcome, permitted before operation ∧
    operation.run config fuel before = (outcome, after) ∧ operation.Ended outcome

def Runs (config : BuildConfig) (permitted : FileSystem → Operation → Prop) :
    FileSystem → FileSystem → Prop :=
  Relation.ReflTransGen (Performs config permitted)

end FileSystem

end Zwal
