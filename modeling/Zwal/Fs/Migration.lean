import Zwal.Device.Reads
import Zwal.File.Recovery
import Zwal.Fs.FileSystem

/-! # Garbage collection

`MigrateFileExtents` of `fs_zenfs` with `MigrateData`, `TakeMigrateZone` and
`SyncFileExtents`: extents of a closed file are copied to another zone and the file is
pointed at the copies. -/

namespace Zwal

namespace ZonedBlockDevice

def migrateStep : Nat := 128 * kiB

/-- The loop of `MigrateData`. The status of `Append` is not read, and a read that came
back short moves the position less far than the length. -/
def migrateLoop (device : Nat → UInt8) (target : Nat) :
    (fuel offset length : Nat) → DeviceProgram Unit
  | 0, _, _ => pure ()
  | fuel + 1, offset, length => do
      if length = 0 then pure ()
      else
        let zbd ← Program.read
        let readSz := min length migrateStep
        match ← readDevice device offset (readSz + padSize zbd.blockSize readSz) with
        | none => Program.fail (.ioError "MigrateData read error")
        | some data =>
            let _ ← (appendZone target data).attempt
            migrateLoop device target fuel (offset + data.length) (length - readSz)

/-- `MigrateData`: the length is cut down to 32 bits. Every pass takes at least a byte. -/
def migrateData (device : Nat → UInt8) (offset length target : Nat) : DeviceProgram Unit := do
  let zbd ← Program.read
  if offset % zbd.blockSize ≠ 0 then
    Program.fail (.ioError "MigrateData offset is not aligned!\n")
  else migrateLoop device target (length % 2 ^ 32) offset (length % 2 ^ 32)

end ZonedBlockDevice

namespace FileSystem

open ZonedBlockDevice

/-- One extent: the copy is pointed at whatever became of the copying. The least capacity
asked of the zone is cut down to 32 bits. -/
def migrateExtent (device : Nat → UInt8) (file : ZoneFile) (extent : ZoneExtent) :
    DeviceProgram ZoneExtent := do
  let zbd ← Program.read
  match (zbd.getBestOpenZoneMatch file.lifetime (extent.length % 2 ^ 32)).2 with
  | none => pure extent
  | some target =>
      Program.update fun zbd => zbd.setBusy target true
      let header := if file.isSparse then file.headerSize else 0
      let _ ← (migrateData device (extent.start - header) (extent.length + header) target).attempt
      let moved : ZoneExtent := ⟨(zbd.zone target).wp + header, extent.length, target⟩
      Program.update fun zbd => (addUsed zbd moved).setBusy target false
      pure moved

def migrateList (device : Nat → UInt8) (file : ZoneFile) (chosen : List (Nat × Nat)) :
    List ZoneExtent → DeviceProgram (List ZoneExtent)
  | [] => pure []
  | extent :: rest => do
      let moved ←
        if (extent.start, extent.length) ∈ chosen then migrateExtent device file extent
        else pure extent
      let others ← migrateList device file chosen rest
      pure (moved :: others)

def dropReplaced (zbd : ZonedBlockDevice) (pairs : List (ZoneExtent × ZoneExtent)) :
    ZonedBlockDevice :=
  pairs.foldl (fun zbd pair =>
    if pair.1.start ≠ pair.2.start then removeUsed zbd pair.1 else zbd) zbd

def syncFileExtents (k : Nat) (extents : List ZoneExtent) : FsProgram Unit := do
  let fs ← Program.read
  let old := (fs.object k).file.extents
  setFile k fun file => { file with extents := extents, nrSyncedExtents := 0 }
  syncFileMetadata k true
  onDevice (Program.update fun zbd => dropReplaced zbd (old.zip extents))

/-- `MigrateFileExtents`. A file that is open for writing is left alone. -/
def migrateFileExtents (device : Nat → UInt8) (name : String) (chosen : List (Nat × Nat)) :
    FsProgram Unit := do
  let fs ← Program.read
  match fs.getFile name with
  | none => pure ()
  | some k =>
      let file := (fs.object k).file
      if file.openForWr then pure ()
      else
        setFile k fun file => { file with openForWr := true }
        let extents ← onDevice (migrateList device file chosen file.extents)
        ignored (syncFileExtents k extents)
        setFile k fun file => { file with openForWr := false }

/-- A pass of `MigrateExtents`: only `.sst` files are migrated. -/
def migrateExtents (device : Nat → UInt8) (name : String) (chosen : List (Nat × Nat)) :
    FsProgram Unit :=
  if endsWith name ".sst" then do
    migrateFileExtents device name chosen
    onDevice resetUnusedIOZones
  else pure ()

end FileSystem

end Zwal
