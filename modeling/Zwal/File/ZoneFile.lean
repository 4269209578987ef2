import Zwal.Device.WalZones
import Zwal.Device.IoZones

/-! # Zone files

`ZoneFile` of `io_zenfs`: its fields and the operations that manage its active
zone, its once-log and its metadata record. -/

namespace Zwal

def noExtent : Nat := 2 ^ 64 - 1

def sparseHeaderSize : Nat := 8
def sparseWalHeaderSize : Nat := 8

inductive IOType
  | unknown
  | wal
  deriving DecidableEq, Repr

structure WalEntry where
  seq : Nat
  payload : Bytes
  deriving DecidableEq, Repr

structure LoadedWalChunk where
  start : Nat := 1
  stop : Nat := 0
  jump : Nat := 0
  walEntries : List WalEntry := []
  deriving DecidableEq, Repr

/-- `loadedWalChunks` and `chunkId` belong to the `WAL_BARRIERS` build,
`walEntries` to the build without barriers. -/
structure ZoneFile where
  extents : List ZoneExtent := []
  linkfiles : List String := []
  activeZone : Option Nat := none
  extentStart : Nat := noExtent
  extentFilepos : Nat := 0
  lifetime : Nat := wlthNotSet
  ioType : IOType := .unknown
  isWal : Bool := false
  walSeq : Nat := 0
  wal : Option Nat := none
  loadedWalChunks : LoadedWalChunk := {}
  chunkId : Nat := 0
  appendBytesSinceLastBarrier : Nat := 0
  walEntries : List WalEntry := []
  fileSize : Nat := 0
  fileId : Nat := 0
  nrSyncedExtents : Nat := 0
  openForWr : Bool := false
  mTime : Nat := 0
  isSparse : Bool := false
  isDeleted : Bool := false
  readerOffset : Nat := 0
  readerOffsetIndex : Nat := 0
  lastRead : Nat := 0
  deriving DecidableEq, Repr

def endsWith (value ending : String) : Bool :=
  ending.toList.isSuffixOf value.toList

namespace ZoneFile

/-- `GetFilename`, which is `linkfiles_[0]`. -/
def getFilename (file : ZoneFile) : Option String := file.linkfiles.head?

/-- `ends_with(GetFilename(), ".log")` -/
def hasLogName (file : ZoneFile) : Bool := file.getFilename.any fun name => endsWith name ".log"

theorem named_of_hasLogName {file : ZoneFile} (isLog : file.hasLogName = true) :
    file.getFilename.isNone = false := by
  rw [hasLogName, Option.any_eq_true] at isLog
  rcases isLog with ⟨name, first, _⟩
  rw [first]
  rfl

def setIOType (file : ZoneFile) (ioType : IOType) : ZoneFile :=
  { file with ioType := ioType, isWal := ioType == .wal && file.hasLogName }

/-- The header of a sparse write: a length, and in a WAL a sequence number. -/
def headerSize (file : ZoneFile) : Nat :=
  sparseHeaderSize + if file.isWal then sparseWalHeaderSize else 0

def hasActiveExtent (file : ZoneFile) : Bool := file.extentStart != noExtent

/-- The `uint64_t` difference of `file_size_` and `extent_filepos_`. It wraps in a file that
was truncated below its last extent. -/
def unpushed (file : ZoneFile) : Nat :=
  if file.extentFilepos ≤ file.fileSize then file.fileSize - file.extentFilepos
  else file.fileSize + 2 ^ 64 - file.extentFilepos

theorem unpushed_of_le {file : ZoneFile} (order : file.extentFilepos ≤ file.fileSize) :
    file.unpushed = file.fileSize - file.extentFilepos :=
  if_pos order

/-- The fields of the file that `EncodeTo` writes. -/
def record (file : ZoneFile) : FileRecord :=
  { fileId := file.fileId, fileSize := file.fileSize, lifetime := file.lifetime
    extents := file.extents, nrSyncedExtents := file.nrSyncedExtents
    walSeq := if file.isWal then some file.walSeq else none
    mTime := file.mTime, extentStart := file.extentStart
    isSparse := file.isSparse, linkfiles := file.linkfiles }

/-- The extent holding byte `fileOffset` and the device offset of that byte. -/
def getExtent : List ZoneExtent → (fileOffset : Nat) → Option (ZoneExtent × Nat)
  | [], _ => none
  | extent :: rest, fileOffset =>
      if fileOffset < extent.length then some (extent, extent.start + fileOffset)
      else getExtent rest (fileOffset - extent.length)

/-- `GetWALExtent`, scanning from extent `index`: the extent, the offset in it and
its index. -/
def getWALExtent (extents : List ZoneExtent) (fileOffset index : Nat) :
    Option (ZoneExtent × Nat × Nat) :=
  scan (extents.drop index) fileOffset index
where
  scan : List ZoneExtent → Nat → Nat → Option (ZoneExtent × Nat × Nat)
    | [], _, _ => none
    | extent :: rest, fileOffset, index =>
        if fileOffset < extent.length then some (extent, fileOffset, index)
        else scan rest (fileOffset - extent.length) (index + 1)

def lastExtentZone (extents : List ZoneExtent) : Option Nat :=
  extents.foldl (fun zone extent =>
    match zone with
    | none => some extent.zone
    | some number => if extent.zone > number then some extent.zone else zone) none

structure Unread (file : ZoneFile) : Prop where
  chunks : file.loadedWalChunks = {}
  chunkId : file.chunkId = 0
  entries : file.walEntries = []
  within : file.readerOffset = 0
  index : file.readerOffsetIndex = 0

end ZoneFile

/-- A device, one of its files and the memory behind the pointer its appends are
called with. -/
structure FileState where
  zbd : ZonedBlockDevice
  file : ZoneFile
  buffer : Bytes

abbrev FileProgram := Program FileState IOStatus

namespace FileState

/-- The active zone; only meaningful while `activeZone` is set. -/
def activeNumber (state : FileState) : Nat := state.file.activeZone.getD 0

def active (state : FileState) : Zone := state.zbd.zone state.activeNumber

def onDevice (program : DeviceProgram Value) : FileProgram Value :=
  program.within FileState.zbd fun state zbd => { state with zbd := zbd }

def setFile (change : ZoneFile → ZoneFile) : FileProgram Unit :=
  Program.update fun state => { state with file := change state.file }

theorem bind_setFile (change : ZoneFile → ZoneFile) (state : FileState)
    {next : Unit → FileProgram Value} :
    (setFile change >>= next) state = next () { state with file := change state.file } :=
  rfl

/-- `MetadataWriter::Persist`. A deleted file is skipped, once its name has been put into
the log of the library: a file that lost all of its names has none. -/
def persistMetadata : FileProgram Unit := do
  let state ← Program.read
  if state.file.isDeleted then
    if state.file.getFilename.isNone then Program.fail .never else pure ()
  else
    onDevice (ZonedBlockDevice.request (.ioError "Failed to persist metadata"))
    Program.update fun state =>
      { state with
        zbd := state.zbd.record (.persist state.file.record)
        file := { state.file with nrSyncedExtents := state.file.extents.length } }

def onceLogSync (log : Nat) (message : String) : FileProgram Unit := onDevice do
  let answer ← ZonedBlockDevice.reply 0
  if answer < 0 then
    Program.update fun zbd => zbd.record (.walSyncFailed log)
    Program.fail (.ioError message)
  else Program.update fun zbd => zbd.record (.walSync log)

/-- `WALSync`; `AppendSync` does nothing outside of `REORDER_WAL_TEST` builds. -/
def walSync : FileProgram Unit := do
  let state ← Program.read
  match state.file.wal with
  | none => pure ()
  | some log => onceLogSync log "Error WAL sync"

theorem walSync_of_closed {state : FileState} (closed : state.file.wal = none) :
    walSync state = (.ok (), state) := by
  simp only [walSync, bind, Program.read, closed]
  rfl

theorem walSync_of_open {state : FileState} {log : Nat} (opened : state.file.wal = some log) :
    walSync state = onceLogSync log "Error WAL sync" state := by
  simp only [walSync, bind, Program.read, opened]

/-- The part of `CloseActiveZone` that closes and releases the zone. -/
def releaseActiveZone (number : Nat) : FileProgram Unit := do
  let state ← Program.read
  let closed ← (onDevice (ZonedBlockDevice.closeZone number)).attempt
  Program.update fun state =>
    { state with
      zbd := state.zbd.setBusy number false
      file := { state.file with activeZone := none } }
  match closed with
  | .error failure => Program.fail failure
  | .ok () =>
      onDevice (Program.update ZonedBlockDevice.putOpenIOZoneToken)
      if (state.zbd.zone number).isFull then
        onDevice (Program.update ZonedBlockDevice.putActiveIOZoneToken)
      else pure ()

def syncBeforeClose : FileProgram Unit := do
  let state ← Program.read
  match state.file.isWal, state.file.wal with
  | true, some log => onceLogSync log "Failed syncing WAL"
  | _, _ => pure ()

/-- `CloseActiveZone`: with an active zone the status of the sync is overwritten. -/
def closeActiveZone : FileProgram Unit := do
  let synced ← syncBeforeClose.attempt
  let state ← Program.read
  match state.file.activeZone, synced with
  | some number, _ => releaseActiveZone number
  | none, .ok () => pure ()
  | none, .error failure => Program.fail failure

def closeWR : FileProgram Unit := do
  setFile fun file => { file with extentStart := noExtent }
  persistMetadata
  setFile fun file => { file with openForWr := false }
  closeActiveZone

def grantZone : FileProgram (Option Nat) := do
  let state ← Program.read
  if state.file.isWal then
    let grant ← onDevice (ZonedBlockDevice.allocateWALZone state.file.wal
      (ZoneFile.lastExtentZone state.file.extents))
    setFile fun file => { file with wal := grant.wal }
    match grant.status with
    | .error failure => Program.fail failure
    | .ok () => pure grant.zone
  else
    onDevice (ZonedBlockDevice.allocateIOZone state.file.lifetime (state.file.ioType == .wal))

def allocateNewZone : FileProgram Unit := do
  match ← grantZone with
  | none => Program.fail (.noSpace "Zone allocation failure\n")
  | some number =>
      Program.update fun state =>
        { state with
          file := { state.file with
            activeZone := some number
            extentStart := (state.zbd.zone number).wp
            extentFilepos := state.file.fileSize } }
      persistMetadata

/-- `if (active_zone_ == NULL) AllocateNewZone()`. -/
def ensureActiveZone : FileProgram Unit := do
  let state ← Program.read
  match state.file.activeZone with
  | some _ => pure ()
  | none => allocateNewZone

def pushExtent : FileProgram Unit := Program.update fun state =>
  let length := state.file.unpushed
  match state.file.activeZone with
  | none => state
  | some number =>
      if length = 0 then state
      else
        let zone := state.zbd.zone number
        { state with
          zbd := state.zbd.setZone number { zone with usedCapacity := zone.usedCapacity + .ofNat length }
          file := { state.file with
            extents := state.file.extents ++ [⟨state.file.extentStart, length, number⟩]
            extentStart := zone.wp
            extentFilepos := state.file.fileSize } }

end FileState

end Zwal
