import Zwal.File.WalReader
import Zwal.File.WritableFile

/-! # The file system

`ZenFS` of `fs_zenfs`: the file table, the objects behind it and the metadata log. An
object lives as long as the table or a handle refers to it. Operations are atomic: the
locks of the source are held for their whole length. Paths are taken as normalised;
what the auxiliary file system does is an answer of the environment. -/

namespace Zwal

/-- A `ZonedWritableFile` without the file it is in front of. -/
structure WriterHandle where
  buffer : Bytes
  buffered : Bool
  bufferStart : Nat
  bufferSz : Nat
  bufferPos : Nat
  wp : Nat
  isOpen : Bool
  deriving DecidableEq, Repr

/-- A `ZoneFile` and the handles on it. One that was destroyed is blank. -/
structure FileObject where
  file : ZoneFile := {}
  writer : Option WriterHandle := none
  readers : Nat := 0
  deriving DecidableEq, Repr

/-- `kCompleteFilesSnapshot`, with one entry for each name, `kFileUpdate`,
`kFileReplace` and `kFileDeletion`. -/
inductive MetaRecord
  | snapshot (files : List FileRecord)
  | update (record : FileRecord)
  | replace (record : FileRecord)
  | deletion (fileId : Nat) (name : String)
  deriving DecidableEq, Repr

structure FileSystem where
  zbd : ZonedBlockDevice
  objects : List FileObject
  /-- `files_`: names and numbers of objects. -/
  files : List (String × Nat)
  nextFileId : Nat
  /-- The records of the current metadata zone from its snapshot on. -/
  metaLog : List MetaRecord
  /-- Whether the metadata zone is full when the next records are written. -/
  rolls : List Bool

abbrev FsProgram := Program FileSystem IOStatus

namespace FileSystem

def object (fs : FileSystem) (k : Nat) : FileObject := fs.objects.getD k {}

def setObject (k : Nat) (object : FileObject) (fs : FileSystem) : FileSystem :=
  { fs with objects := fs.objects.set k object }

def getFile (fs : FileSystem) (name : String) : Option Nat := fs.files.lookup name

/-- `files_.insert`: a name that is there already is left alone. -/
def insertName (name : String) (k : Nat) (fs : FileSystem) : FileSystem :=
  if (fs.getFile name).isSome then fs else { fs with files := fs.files ++ [(name, k)] }

def eraseName (name : String) (fs : FileSystem) : FileSystem :=
  { fs with files := fs.files.filter fun entry => entry.1 != name }

def named (fs : FileSystem) (k : Nat) : Bool := fs.files.any fun entry => entry.2 == k

def onDevice (program : DeviceProgram Value) : FsProgram Value :=
  program.within FileSystem.zbd fun fs zbd => { fs with zbd := zbd }

def setFile (k : Nat) (change : ZoneFile → ZoneFile) : FsProgram Unit :=
  Program.update fun fs =>
    fs.setObject k { fs.object k with file := change (fs.object k).file }

/-- The status of a call that is not read; a call that does not return stays one. -/
def ignored (program : FsProgram Unit) : FsProgram Unit := do
  match ← program.attempt with
  | .error .never => Program.fail .never
  | _ => pure ()

def leaving (program : FsProgram Value) (cleanup : FsProgram Unit) : FsProgram Value := do
  match ← program.attempt with
  | .error .never => Program.fail .never
  | .error failure =>
      cleanup
      Program.fail failure
  | .ok value =>
      cleanup
      pure value

def auxiliary : FsProgram Unit :=
  onDevice (ZonedBlockDevice.request (.ioError "auxiliary file system"))

/-! ## The metadata log -/

/-- `EncodeSnapshotTo`, while file `k` is about to be persisted as `record`. -/
def encodeSnapshot (fs : FileSystem) (k : Nat) (record : FileRecord) : List FileRecord :=
  fs.files.map fun entry => if entry.2 = k then record else (fs.object entry.2).file.record

/-- `MetadataSynced` of every file of the table but `k`. -/
def markSynced (k : Nat) (fs : FileSystem) : FileSystem :=
  { fs with objects := fs.objects.mapIdx fun j object =>
      if j ≠ k ∧ fs.named j then
        { object with file := { object.file with
            nrSyncedExtents := object.file.extents.length } }
      else object }

/-- A record that was written, with file `k` as `record` has it. In a full zone the log
is rolled instead: a snapshot of the file table starts the next zone. -/
def commit (k : Nat) (record : FileRecord) (entry : MetaRecord) (fs : FileSystem) : FileSystem :=
  match fs.rolls with
  | true :: rest =>
      { fs.markSynced k with metaLog := [.snapshot (fs.encodeSnapshot k record)], rolls := rest }
  | false :: rest => { fs with metaLog := fs.metaLog ++ [entry], rolls := rest }
  | [] => { fs with metaLog := fs.metaLog ++ [entry] }

def persisted (events : List IoEvent) : List FileRecord :=
  events.filterMap fun
    | .persist record => some record
    | _ => none

def commitAll (k : Nat) (records : List FileRecord) (fs : FileSystem) : FileSystem :=
  records.foldl (fun fs record => fs.commit k record (.update record)) fs

/-- `PersistRecord`, while file `k` is the one the record is about. One answer covers the record
and the roll it is tried again with. -/
def persistRecord (k : Nat) (entry : MetaRecord) : FsProgram Unit := do
  onDevice (ZonedBlockDevice.request (.ioError "Failed to persist metadata"))
  Program.update fun fs => fs.commit k (fs.object k).file.record entry

def syncFileMetadata (k : Nat) (replace : Bool) : FsProgram Unit := do
  let fs ← Program.read
  let file := (fs.object k).file
  if file.isDeleted then
    if file.getFilename.isNone then Program.fail .never else pure ()
  else
    persistRecord k (if replace then .replace file.record else .update file.record)
    setFile k fun file => { file with nrSyncedExtents := file.extents.length }

/-! ## Programs on a file -/

def view (fs : FileSystem) (k : Nat) : FileState :=
  ⟨fs.zbd, (fs.object k).file, ((fs.object k).writer.map WriterHandle.buffer).getD []⟩

/-- What it leaves; the records it persisted go to the metadata log. -/
def place (k : Nat) (state : FileState) (fs : FileSystem) : FileSystem :=
  let object := fs.object k
  commitAll k (persisted (state.zbd.trace.drop fs.zbd.trace.length))
    { fs.setObject k { object with
        file := state.file
        writer := object.writer.map fun handle => { handle with buffer := state.buffer } } with
      zbd := state.zbd }

def onObject (k : Nat) (program : FileProgram Value) : FsProgram Value := fun fs =>
  let (result, state) := program (fs.view k)
  (result, fs.place k state)

/-- The writer of a file: its state and the handle in front of it. -/
def writer (fs : FileSystem) (k : Nat) (handle : WriterHandle) : WritableFile :=
  { state := fs.view k, buffered := handle.buffered, bufferStart := handle.bufferStart
    bufferSz := handle.bufferSz, bufferPos := handle.bufferPos, wp := handle.wp
    isOpen := handle.isOpen }

def setHandle (k : Nat) (writer : WritableFile) (fs : FileSystem) : FileSystem :=
  fs.setObject k { fs.object k with
    writer := (fs.object k).writer.map fun handle =>
      { handle with
        bufferPos := writer.bufferPos, wp := writer.wp, isOpen := writer.isOpen } }

/-- A call on the writable handle of file `k`. -/
def onWriter (k : Nat) (program : WritableProgram Value) : FsProgram Value := fun fs =>
  match (fs.object k).writer with
  | none => (.error .never, fs)
  | some handle =>
      let (result, writer) := program (fs.writer k handle)
      (result, (fs.place k writer.state).setHandle k writer)

/-! ## Objects come and go -/

def removeUsed (zbd : ZonedBlockDevice) (extent : ZoneExtent) : ZonedBlockDevice :=
  let zone := zbd.zone extent.zone
  zbd.setZone extent.zone { zone with usedCapacity := zone.usedCapacity - .ofNat extent.length }

def addUsed (zbd : ZonedBlockDevice) (extent : ZoneExtent) : ZonedBlockDevice :=
  let zone := zbd.zone extent.zone
  zbd.setZone extent.zone { zone with usedCapacity := zone.usedCapacity + .ofNat extent.length }

def clearExtents (k : Nat) : FsProgram Unit := do
  let fs ← Program.read
  let extents := (fs.object k).file.extents
  onDevice (Program.update fun zbd => extents.foldl removeUsed zbd)
  setFile k fun file => { file with extents := [] }

/-- `~ZoneFile`: a once-log is synced, whatever comes of it. -/
def destroy (k : Nat) : FsProgram Unit := do
  let _ ← (onObject k FileState.walSync).attempt
  clearExtents k
  Program.update fun fs => fs.setObject k {}

/-- A reference to a file is dropped; the last one destroys it. -/
def release (k : Nat) : FsProgram Unit := do
  let fs ← Program.read
  let object := fs.object k
  if fs.named k || object.writer.isSome || object.readers != 0 then pure () else destroy k

/-- `new ZonedWritableFile`. -/
def attachWriter (config : BuildConfig) (k : Nat) (buffered : Bool) : FsProgram Unit :=
  Program.update fun fs =>
    let writer := WritableFile.create config fs.zbd (fs.object k).file buffered
    fs.setObject k { fs.object k with
      file := { (fs.object k).file with openForWr := true }
      writer := some
        { buffer := writer.state.buffer, buffered := buffered, bufferStart := writer.bufferStart
          bufferSz := writer.bufferSz, bufferPos := writer.bufferPos, wp := writer.wp
          isOpen := true } }

/-- `SetZoneDeferredStatus`: a status that is OK stays. -/
def setZoneDeferredStatus (status : IOStatus) (zbd : ZonedBlockDevice) : ZonedBlockDevice :=
  if zbd.zoneDeferredStatus.isSome then { zbd with zoneDeferredStatus := some status } else zbd

/-- `~ZonedWritableFile`. -/
def destroyWriter (config : BuildConfig) (fuel k : Nat) : FsProgram Unit := do
  match ← (onWriter k (WritableFile.close config fuel)).attempt with
  | .error .never => Program.fail .never
  | .error failure => onDevice (Program.update (setZoneDeferredStatus failure))
  | .ok () => pure ()
  Program.update fun fs => fs.setObject k { fs.object k with writer := none }
  release k

/-! ## The file table -/

def removeLinkName (k : Nat) (name : String) : FsProgram Unit := do
  let fs ← Program.read
  if name ∈ (fs.object k).file.linkfiles then
    setFile k fun file => { file with linkfiles := file.linkfiles.erase name }
  else Program.fail (.ioError "RemoveLinkInfo: Failed to find the link file")

def addLinkName (k : Nat) (name : String) : FsProgram Unit :=
  setFile k fun file => { file with linkfiles := file.linkfiles ++ [name] }

def renameLink (k : Nat) (source dest : String) : FsProgram Unit := do
  let fs ← Program.read
  if source ∈ (fs.object k).file.linkfiles then
    setFile k fun file => { file with linkfiles := file.linkfiles.erase source ++ [dest] }
  else Program.fail (.ioError "RenameLink: Failed to find the linked file")

/-- `SZDOnceLog::ResetAll` and, if it succeeded, the release of the zones. -/
def resetAll (log : Nat) : FileProgram Unit := FileState.onDevice do
  ZonedBlockDevice.request (.ioError "WAL sync error")
  Program.update fun zbd => (zbd.resetLog log).releaseUnusedWALZones

/-- `ResetWALZones`. Without a once-log the zone of the first extent is acquired, and then
`OpenWALZone` acquires it again. -/
def resetWALZones : FileProgram Unit := do
  let state ← Program.read
  match state.file.extents, state.file.wal with
  | extent :: _, none =>
      if (state.zbd.zone extent.zone).busy then Program.fail .never
      else
        FileState.onDevice (Program.update fun zbd => zbd.setBusy extent.zone true)
        let (log, status) ← FileState.onDevice (ZonedBlockDevice.openWALZone extent.zone)
        FileState.setFile fun file => { file with wal := some log }
        match status with
        | .error failure => Program.fail failure
        | .ok () =>
            let reset ← (resetAll log).attempt
            FileState.onDevice (Program.update fun zbd => zbd.setBusy extent.zone false)
            match reset with
            | .error failure => Program.fail failure
            | .ok () => pure ()
  | _, some log => resetAll log
  | [], none => pure ()

/-- The end of `DeleteFileNoLock` once the deletion is persisted. -/
def forget (k : Nat) (name : String) : FsProgram Unit := do
  let fs ← Program.read
  if (fs.object k).file.linkfiles.isEmpty then
    setFile k fun file => { file with isDeleted := true }
    if endsWith name ".log" then ignored (onObject k resetWALZones) else pure ()
  else pure ()

/-- `DeleteFileNoLock` of a name of file `k`. -/
def deleteName (k : Nat) (name : String) : FsProgram Unit := do
  let fs ← Program.read
  Program.update (eraseName name)
  removeLinkName k name
  match ← (persistRecord k (.deletion (fs.object k).file.fileId name)).attempt with
  | .error failure =>
      Program.update (insertName name k)
      addLinkName k name
      Program.fail failure
  | .ok () => forget k name

def deleteFileNoLock (name : String) : FsProgram Unit := do
  let fs ← Program.read
  match fs.getFile name with
  | none => auxiliary
  | some k => deleteName k name

/-- The references `DeleteFileNoLock` and its caller hold are dropped when it returns. -/
def deleteAndRelease (name : String) : FsProgram Unit := do
  let fs ← Program.read
  match fs.getFile name with
  | none => deleteFileNoLock name
  | some k => leaving (deleteFileNoLock name) (release k)

def deleteFile (name : String) : FsProgram Unit := do
  deleteAndRelease name
  onDevice ZonedBlockDevice.resetUnusedIOZones

def newFile (fileId : Nat) (name : String) (direct : Bool) : ZoneFile :=
  let file : ZoneFile := { fileId := fileId, linkfiles := [name] }
  if endsWith name ".log" then { file.setIOType .wal with isSparse := !direct }
  else file.setIOType .unknown

def createFile (config : BuildConfig) (name : String) (direct : Bool) : FsProgram Unit := do
  let fs ← Program.read
  let k := fs.objects.length
  Program.update fun fs =>
    { fs with
      objects := fs.objects ++ [{ file := newFile fs.nextFileId name direct }]
      nextFileId := fs.nextFileId + 1 }
  match ← (syncFileMetadata k false).attempt with
  | .error failure =>
      destroy k
      Program.fail failure
  | .ok () =>
      Program.update (insertName name k)
      attachWriter config k (!direct)

def openWritableFile (config : BuildConfig) (name : String) (direct reopen : Bool) :
    FsProgram Unit := do
  let fs ← Program.read
  match fs.getFile name with
  | none => createFile config name direct
  | some k =>
      if reopen then
        -- `AcquireWRLock` waits for the writer that holds the lock.
        if (fs.object k).file.openForWr || ((fs.object k).writer.any WriterHandle.isOpen) then
          Program.fail .never
        else attachWriter config k (!direct)
      else
        deleteAndRelease name
        createFile config name direct
        onDevice ZonedBlockDevice.resetUnusedIOZones

/-- The part of `RenameFileNoLock` that moves the name. A rename that cannot be persisted
is rolled back and reported as done. -/
def moveName (k : Nat) (source dest : String) : FsProgram Unit := do
  renameLink k source dest
  Program.update fun fs => (fs.eraseName source).insertName dest k
  match ← (syncFileMetadata k false).attempt with
  | .ok () => pure ()
  | .error _ =>
      Program.update (eraseName dest)
      renameLink k dest source
      Program.update (insertName source k)

def renameFileNoLock (source dest : String) : FsProgram Unit := do
  let fs ← Program.read
  match fs.getFile source, fs.getFile dest with
  | none, _ => auxiliary
  | some k, none => moveName k source dest
  | some k, some other =>
      leaving (do deleteFileNoLock dest; moveName k source dest) (release other)

def renameFile (source dest : String) : FsProgram Unit := do
  renameFileNoLock source dest
  onDevice ZonedBlockDevice.resetUnusedIOZones

def linkFile (name link : String) : FsProgram Unit := do
  let fs ← Program.read
  match fs.getFile link, fs.getFile name with
  | some _, _ => Program.fail (.invalidArgument "Failed to create link, target exists")
  | none, none => auxiliary
  | none, some k =>
      addLinkName k link
      Program.update (insertName link k)
      match ← (syncFileMetadata k false).attempt with
      | .ok () => pure ()
      | .error _ =>
          removeLinkName k link
          Program.update (eraseName link)

/-! ## Reading -/

/-- `NewSequentialFile` and `NewRandomAccessFile`. -/
def openReader (name : String) : FsProgram Unit := do
  let fs ← Program.read
  match fs.getFile name with
  | none => auxiliary
  | some k =>
      Program.update fun fs =>
        fs.setObject k { fs.object k with readers := (fs.object k).readers + 1 }

def closeReader (k : Nat) : FsProgram Unit := do
  Program.update fun fs =>
    fs.setObject k { fs.object k with readers := (fs.object k).readers - 1 }
  release k

end FileSystem

end Zwal
