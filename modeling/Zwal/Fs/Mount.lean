import Zwal.File.Recovery
import Zwal.Fs.FileSystem

/-! # Mounting

`ZonedBlockDevice::Open` on a device that was in use before, `RecoverFrom`, `Repair` and
`Mount` of `fs_zenfs`. Nothing is left of the memory of the previous mount but the
metadata log and what the device holds. -/

namespace Zwal

structure Medium where
  bytes : Nat := 0
  finished : Bool := false
  offline : Bool := false
  deriving DecidableEq, Repr

def Medium.after (zone : Nat) (medium : Medium) : IoEvent → Medium
  | .write call =>
      if call.zone = zone then { medium with bytes := medium.bytes + call.data.length } else medium
  | .zoneAppend call =>
      if call.zone = zone then { medium with bytes := medium.bytes + call.size } else medium
  | .finish number => if number = zone then { medium with finished := true } else medium
  | .reset number offline => if number = zone then { offline := offline } else medium
  | .lose number count =>
      if number = zone then { medium with bytes := medium.bytes - count } else medium
  | _ => medium

def mediumOf (trace : List IoEvent) (zone : Nat) : Medium := trace.foldl (Medium.after zone) {}

namespace ZonedBlockDevice

/-- The constructor of `Zone`. `ZoneWp` reports what was written, and a zone that was
finished is not writable. -/
def reopenZone (trace : List IoEvent) (number : Nat) (zone : Zone) : Zone :=
  let medium := mediumOf trace number
  { start := zone.start
    capacity := if medium.finished then 0 else zone.maxCapacity - medium.bytes
    maxCapacity := zone.maxCapacity
    wp := zone.start + medium.bytes
    lifetime := wlthNotSet
    usedCapacity := 0
    busy := false }

def partlyWritten (zbd : ZonedBlockDevice) (number : Nat) : Bool :=
  !(zbd.zone number).isEmpty && !(zbd.zone number).isFull

/-- `ZonedBlockDevice::Open`: zones that went offline are left out, zones that are partly
written are active. -/
def reopen (zbd : ZonedBlockDevice) : ZonedBlockDevice :=
  let opened : ZonedBlockDevice :=
    { zbd with
      zone := fun number => reopenZone zbd.trace number (zbd.zone number)
      ioZones := zbd.ioZones.filter fun number => !(mediumOf zbd.trace number).offline
      openIoZones := 0
      zoneDeferredStatus := none }
  { opened with activeIoZones := opened.ioZones.countP opened.partlyWritten }

def crash (lost : List (Nat × Nat)) (zbd : ZonedBlockDevice) : ZonedBlockDevice :=
  lost.foldl (fun zbd entry =>
    if entry.1 ∈ zbd.walZones then zbd.record (.lose entry.1 entry.2) else zbd) zbd

end ZonedBlockDevice

namespace FileSystem

open ZonedBlockDevice

/-- The extents of `DecodeFrom`: the first one in the first zone of a group brings back
the once-log. -/
def decodeExtents : List ZoneExtent → ZoneFile → DeviceProgram ZoneFile
  | [], file => pure file
  | extent :: rest, file => do
      let zbd ← Program.read
      match zbd.getIOZone extent.start with
      | none => Program.fail (.corruption "Invalid zone extent")
      | some number =>
          let decoded : ZoneExtent := ⟨extent.start, extent.length, number⟩
          Program.update fun zbd => addUsed zbd decoded
          let wal ←
            if file.wal.isSome then pure file.wal else getWAL extent.start
          decodeExtents rest { file with extents := file.extents ++ [decoded], wal := wal }

def decodedPadding (extents : List ZoneExtent) : Nat :=
  (extents.map fun extent => padSize sparseBlockSize extent.length).sum

/-- `DecodeFrom` into a new object. Whether the file is a write-ahead log is not restored. -/
def decodeFrom (config : BuildConfig) (record : FileRecord) (extents : List ZoneExtent) :
    FsProgram Nat := do
  let file ← onDevice (decodeExtents extents
    { fileId := record.fileId, fileSize := record.fileSize, lifetime := record.lifetime
      walSeq := record.walSeq.getD 0, mTime := record.mTime, extentStart := record.extentStart
      isSparse := record.isSparse, linkfiles := record.linkfiles
      appendBytesSinceLastBarrier :=
        if record.walSeq.isSome then
          (record.fileSize + decodedPadding extents) % config.walBarrierSize
        else 0 })
  if "" ∈ record.linkfiles then Program.fail (.corruption "Zero length Linkfilename")
  else
    let fs ← Program.read
    Program.update fun fs =>
      { fs with
        objects := fs.objects ++ [{ file := { file with nrSyncedExtents := file.extents.length } }]
        nextFileId := max fs.nextFileId (record.fileId + 1) }
    pure fs.objects.length

def mergeUpdate (k j : Nat) (replace : Bool) : FsProgram Unit := do
  if replace then clearExtents k else pure ()
  let fs ← Program.read
  let change := (fs.object j).file
  onDevice (Program.update fun zbd => change.extents.foldl addUsed zbd)
  setFile k fun file =>
    { file with
      fileSize := change.fileSize
      lifetime := change.lifetime
      mTime := change.mTime
      walSeq := max file.walSeq change.walSeq
      extents := file.extents ++ change.extents
      extentStart := change.extentStart
      isSparse := change.isSparse
      nrSyncedExtents := (file.extents ++ change.extents).length
      linkfiles := change.linkfiles }

def eraseLinks : List String → FsProgram Unit
  | [] => pure ()
  | name :: rest => do
      let fs ← Program.read
      if (fs.getFile name).isSome then
        Program.update (eraseName name)
        eraseLinks rest
      else Program.fail (.corruption "DecodeFileUpdateFrom: missing link file")

def insertLinks (names : List String) (k : Nat) (fs : FileSystem) : FileSystem :=
  names.foldl (fun fs name => fs.insertName name k) fs

/-- `DecodeFileUpdateFrom`. An update of a file that is not in the table is a new file,
known by its first name only. -/
def decodeFileUpdateFrom (config : BuildConfig) (record : FileRecord) (replace : Bool) :
    FsProgram Unit := do
  let j ← decodeFrom config record (record.extents.drop record.nrSyncedExtents)
  let fs ← Program.read
  match fs.files.find? fun entry => (fs.object entry.2).file.fileId == record.fileId with
  | some (_, k) =>
      eraseLinks (fs.object k).file.linkfiles
      mergeUpdate k j replace
      destroy j
      Program.update (insertLinks record.linkfiles k)
      release k
  | none =>
      match record.linkfiles with
      | [] => Program.fail .never
      | name :: _ =>
          Program.update (insertName name j)
          release j

def decodeSnapshotFrom (config : BuildConfig) : List FileRecord → FsProgram Unit
  | [] => pure ()
  | record :: rest => do
      let j ← decodeFrom config record record.extents
      Program.update (insertLinks record.linkfiles j)
      release j
      decodeSnapshotFrom config rest

def decodeFileDeletionFrom (fileId : Nat) (name : String) : FsProgram Unit := do
  let fs ← Program.read
  match fs.getFile name with
  | none => Program.fail (.corruption "Zone file deletion: no such file")
  | some k =>
      if (fs.object k).file.fileId ≠ fileId then
        Program.fail (.corruption "Zone file deletion: file ID missmatch")
      else
        Program.update (eraseName name)
        match ← (removeLinkName k name).attempt with
        | .error _ => Program.fail (.corruption "Zone file deletion: file links missmatch")
        | .ok () => release k

def releaseAll : List Nat → FsProgram Unit
  | [] => pure ()
  | k :: rest => do
      release k
      releaseAll rest

def clearFiles : FsProgram Unit := do
  let fs ← Program.read
  Program.update fun fs => { fs with files := [] }
  releaseAll (fs.files.map Prod.snd)

def decodeRecord (config : BuildConfig) : MetaRecord → FsProgram Unit
  | .snapshot records => do
      clearFiles
      decodeSnapshotFrom config records
  | .update record => decodeFileUpdateFrom config record false
  | .replace record => decodeFileUpdateFrom config record true
  | .deletion fileId name => decodeFileDeletionFrom fileId name

/-- `RecoverFrom`; that there is a snapshot is checked at the end. -/
def recoverFrom (config : BuildConfig) : List MetaRecord → FsProgram Unit
  | [] => pure ()
  | entry :: rest => do
      decodeRecord config entry
      recoverFrom config rest

/-- `Repair`: every name of the table, some of them of one file. -/
def repair (device : Nat → UInt8) (fuel : Nat) : List (String × Nat) → FsProgram Unit
  | [] => pure ()
  | entry :: rest => do
      onObject entry.2 (FileState.recover device fuel)
      repair device fuel rest

/-- `RollMetaZoneLocked`: the log goes on in a new zone, from a snapshot. -/
def rollMetaZone : FsProgram Unit := do
  onDevice (ZonedBlockDevice.request (.ioError "Failed writing a new superblock"))
  Program.update fun fs =>
    { fs.markSynced fs.objects.length with
      metaLog := [.snapshot (fs.files.map fun entry => (fs.object entry.2).file.record)] }

def lostMemory (lost : List (Nat × Nat)) (fs : FileSystem) : FileSystem :=
  { fs with zbd := (fs.zbd.crash lost).reopen, objects := [], files := [], nextFileId := 1 }

/-- A crash, `Open` and `Mount`, with the bytes the device is found to hold. -/
def remount (config : BuildConfig) (device : Nat → UInt8) (fuel : Nat) (lost : List (Nat × Nat)) :
    FsProgram Unit := do
  let fs ← Program.read
  Program.update (lostMemory lost)
  recoverFrom config fs.metaLog
  if fs.metaLog.isEmpty then Program.fail (.ioError "Failed to mount filesystem")
  else
    let fs ← Program.read
    repair device fuel fs.files
    rollMetaZone
    onDevice resetUnusedIOZones

end FileSystem

end Zwal
