import Zwal.Device.ZoneFs

/-! # Copying a file

`zenfs_tool_copy_file` of the `zenfs` utility, which backup and restore call for every file.
What the two file systems answer is part of the state. -/

namespace Zwal

structure Copying where
  /-- The bytes of the source that were not read yet. -/
  source : Bytes
  /-- The bytes the target has received. -/
  received : Bytes
  getFileSize : Except IOStatus Unit
  newSequentialFile : Except IOStatus Unit
  newWritableFile : Except IOStatus Unit
  allocated : Bool
  /-- `Read` returns up to so many bytes, or an error. -/
  reads : Nat → Except IOStatus Nat
  /-- The errors of `Append`, with the number of bytes that were received all the same. -/
  appends : Nat → Option (IOStatus × Nat)
  fsync : Except IOStatus Unit
  /-- What `Append` has returned so far. -/
  appended : List (Except IOStatus Unit)
  /-- What `Fsync` has returned. -/
  synced : Option (Except IOStatus Unit)

namespace Copying

open ZoneFsBackend (rest)

/-- The only error of the program is that it was not allowed to go on for longer. -/
abbrev CopyProgram := Program Copying Unit

def read (n : Nat) : CopyProgram (Except IOStatus Bytes) := fun copying =>
  match copying.reads 0 with
  | .error error => (.ok (.error error), { copying with reads := rest copying.reads })
  | .ok count => (.ok (.ok (copying.source.take (min count n))), { copying with
      reads := rest copying.reads, source := copying.source.drop (min count n) })

def status : Option (IOStatus × Nat) → Except IOStatus Unit
  | none => .ok ()
  | some (error, _) => .error error

def append (chunk : Bytes) : CopyProgram (Except IOStatus Unit) := fun copying =>
  let taken := match copying.appends 0 with
    | none => chunk
    | some (_, count) => chunk.take count
  (.ok (status (copying.appends 0)), { copying with
    appends := rest copying.appends
    received := copying.received ++ taken
    appended := copying.appended ++ [status (copying.appends 0)] })

def sync : CopyProgram (Except IOStatus Unit) := fun copying =>
  (.ok copying.fsync, { copying with synced := some copying.fsync })

def bufferSz : Nat := 1024 * 1024

/-- The loop of `zenfs_tool_copy_file`. The status of `Append` is only looked at once there
is nothing left to copy. -/
def copyLoop : (fuel : Nat) → (s : Except IOStatus Unit) → (toCopy : Nat) →
    CopyProgram (Except IOStatus Unit)
  | fuel, s, toCopy =>
      if toCopy = 0 then pure s
      else match fuel with
        | 0 => Program.fail ()
        | fuel + 1 => do
            match ← read (min toCopy bufferSz) with
            | .error error => pure (.error error)
            | .ok chunk => do
                let s ← append chunk
                copyLoop fuel s (toCopy - chunk.length)

def zenfsToolCopyFile (fuel : Nat) : CopyProgram (Except IOStatus Unit) := do
  let copying ← Program.read
  match copying.getFileSize, copying.newSequentialFile, copying.newWritableFile with
  | .error error, _, _ => pure (.error error)
  | _, .error error, _ => pure (.error error)
  | _, _, .error error => pure (.error error)
  | .ok (), .ok (), .ok () =>
      if copying.allocated then do
        match ← copyLoop fuel (.ok ()) copying.source.length with
        | .error error => pure (.error error)
        | .ok () => sync
      else pure (.error (.ioError "Failed to allocate copy buffer"))

end Copying

end Zwal
