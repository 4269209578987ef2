import Zwal.Device.Reads
import Zwal.File.SparseAppend
import Zwal.File.WalChunk

/-! # Reading a file

`ZoneFile::TryRecoverWAL` in its two builds and `WALPositionedRead`, which serves
every positioned read of a file. -/

namespace Zwal

/-- Whether `WAL_BARRIERS` is defined. -/
inductive ReaderBuild
  | walBarriers
  | wholeLog
  deriving DecidableEq, Repr

namespace FileState

/-- `if (!wal_) OpenWALZone(&wal_, extents_[0]->zone_)`. -/
def ensureLog : FileProgram Unit := do
  let state ← Program.read
  match state.file.wal, state.file.extents with
  | some _, _ => pure ()
  | none, [] => Program.fail .never
  | none, extent :: _ =>
      let (log, status) ← onDevice (ZonedBlockDevice.openWALZone extent.zone)
      setFile fun file => { file with wal := some log }
      match status with
      | .error failure => Program.fail failure
      | .ok () => pure ()

def storeChunk (entries : List WalEntry) (file : ZoneFile) : ZoneFile :=
  { file with loadedWalChunks := { file.loadedWalChunks with walEntries := entries } }

/-- The bookkeeping of `TryRecoverWAL` after a chunk was loaded; `jump` entries were
loaded before. -/
def advanceChunk (jump : Nat) (file : ZoneFile) : ZoneFile :=
  let loaded := file.loadedWalChunks
  { file with
    loadedWalChunks := { loaded with
      start := loaded.stop
      stop := loaded.stop + (loaded.walEntries.map fun entry => entry.payload.length).sum
      jump := loaded.jump + jump }
    chunkId := file.chunkId + 1 }

/-- The `do … while` loop of `TryRecoverWAL`. It runs past the write head after at most
as many passes as the log has bytes. -/
def loadChunks (config : BuildConfig) (env : ReaderEnv) :
    (fuel offset : Nat) → FileProgram Unit
  | 0, _ => Program.fail .never
  | fuel + 1, offset => do
      let state ← Program.read
      let tail := env.view.tail state.zbd.blockSize
      let head := env.view.head state.zbd.blockSize
      let jump := state.file.loadedWalChunks.walEntries.length
      let lbaIn := min (tail + state.file.chunkId * config.walBarrierSize) head
      let lbaOut := min (tail + (state.file.chunkId + 1) * config.walBarrierSize) head
      if lbaOut ≤ lbaIn then pure ()
      else
        recoverWALChunk env storeChunk lbaIn lbaOut
        setFile (advanceChunk jump)
        let state ← Program.read
        let loaded := state.file.loadedWalChunks
        if !loaded.walEntries.isEmpty && loaded.stop < offset then
          loadChunks config env fuel offset
        else pure ()

def recoverEntireWAL (env : ReaderEnv) : FileProgram Unit := do
  let state ← Program.read
  if state.file.extents.isEmpty then pure ()
  else
    ensureLog
    let blockSize := state.zbd.blockSize
    recoverWALChunk env (fun entries file => { file with walEntries := entries })
      (env.view.tail blockSize) (env.view.head blockSize)

def tryRecoverWAL (build : ReaderBuild) (config : BuildConfig) (env : ReaderEnv) (offset : Nat) :
    FileProgram Unit := do
  let state ← Program.read
  match build with
  | .walBarriers =>
      let loaded := state.file.loadedWalChunks
      if !loaded.walEntries.isEmpty && offset < loaded.stop then pure ()
      else
        ensureLog
        loadChunks config env (env.view.content.length + 1) (min offset state.file.fileSize)
  | .wholeLog =>
      if state.file.walEntries.isEmpty then recoverEntireWAL env else pure ()

/-- The entry a read copies from; `none` outside of the vector. -/
def entryAt (build : ReaderBuild) (file : ZoneFile) (index : Nat) : Option Bytes :=
  match build with
  | .walBarriers =>
      if index < file.loadedWalChunks.jump then none
      else (file.loadedWalChunks.walEntries[index - file.loadedWalChunks.jump]?).map
        WalEntry.payload
  | .wholeLog => (file.walEntries[index]?).map WalEntry.payload

structure ReadPoint where
  extentEnd : Nat
  rOff : Nat
  index : Nat
  out : Bytes

def ReadPoint.copy (point : ReadPoint) (payload : Bytes) (count : Nat) : ReadPoint :=
  { point with
    rOff := point.rOff + count
    out := point.out ++ (payload.drop point.rOff).take count }

section Wal

variable (build : ReaderBuild) (config : BuildConfig) (env : ReaderEnv)

def nextWALExtent (offset : Nat) (point : ReadPoint) : FileProgram (Option ReadPoint) := do
  tryRecoverWAL build config env (offset + point.out.length)
  let state ← Program.read
  match ZoneFile.getWALExtent state.file.extents point.rOff point.index with
  | none => pure none
  | some (extent, _, index) =>
      pure (some { point with extentEnd := extent.length, rOff := 0, index := index })

/-- The copy loop of `WALPositionedRead` on a write-ahead log. A copy from outside of an
entry is undefined. Every pass copies a byte or is the last one. -/
def walReadLoop (direct : Bool) (offset rSz : Nat) :
    (fuel : Nat) → ReadPoint → FileProgram ReadPoint
  | 0, point => if point.out.length = rSz then pure point else Program.fail .never
  | fuel + 1, point =>
      if point.out.length = rSz then pure point
      else do
        let state ← Program.read
        let blockSize := state.zbd.blockSize
        let preadSz := min (rSz - point.out.length) (point.extentEnd - point.rOff)
        let bytesToAlign :=
          if direct && preadSz % blockSize != 0 then blockSize - preadSz % blockSize else 0
        match entryAt build state.file point.index with
        | none => Program.fail .never
        | some payload =>
            if payload.length < point.rOff + preadSz + bytesToAlign then Program.fail .never
            else if preadSz + bytesToAlign = 0 then pure point
            else
              let point := point.copy payload preadSz
              if point.out.length ≠ rSz ∧ point.rOff = point.extentEnd then
                match ← nextWALExtent build config env offset point with
                | none => pure point
                | some point => walReadLoop direct offset rSz fuel point
              else walReadLoop direct offset rSz fuel point

/-- After the loop the cursor moves past an extent that was read to its end. -/
def leaveExtent (offset : Nat) (point : ReadPoint) : FileProgram ReadPoint :=
  if point.rOff = point.extentEnd then do
    match ← nextWALExtent build config env offset point with
    | none => pure point
    | some next => pure next
  else pure point

/-- `WALPositionedRead` on a write-ahead log, inside of the file. -/
def walRead (offset n : Nat) (direct : Bool) : FileProgram Bytes := do
  tryRecoverWAL build config env offset
  let state ← Program.read
  let file := state.file
  match ZoneFile.getWALExtent file.extents 0 file.readerOffsetIndex with
  | none => pure []
  | some (extent, _, index) =>
      let rSz := min n (file.fileSize - offset)
      let point ← walReadLoop build config env direct offset rSz rSz
        ⟨extent.length, file.readerOffset, index, []⟩
      let point ← leaveExtent build config env offset point
      setFile fun file =>
        { file with
          readerOffsetIndex := point.index
          readerOffset := point.rOff
          lastRead := offset + point.out.length }
      pure point.out

end Wal

/-- The size of a direct request is rounded up to a block. -/
def alignedSize (direct : Bool) (blockSize preadSz : Nat) : Nat :=
  if direct && preadSz % blockSize != 0 then preadSz + (blockSize - preadSz % blockSize) else preadSz

/-- The copy loop of the reads that go to the device, with the size of the next request, and
the last result of `ZonedBlockDevice::Read`. All but the last pass read a byte. What a read
puts behind `scratch` is not looked at. -/
def readLoop (env : ReaderEnv) (direct : Bool) (size : (read extentEnd rOff : Nat) → Nat)
    (offset rSz : Nat) :
    (fuel extentEnd rOff : Nat) → (out : Bytes) → (r : Int) → FileProgram (Bytes × Int)
  | 0, _, _, out, r => if out.length = rSz then pure (out, r) else Program.fail .never
  | fuel + 1, extentEnd, rOff, out, r =>
      if out.length = rSz then pure (out, r)
      else do
        let state ← Program.read
        let preadSz := size out.length extentEnd rOff
        match ← onDevice (ZonedBlockDevice.readDevice env.device rOff
            (alignedSize direct state.zbd.blockSize preadSz)) with
        | none => pure (out, -1)
        | some [] => pure (out, 0)
        | some data =>
            let got := data.take preadSz
            let out := out ++ got
            let rOff := rOff + got.length
            if out.length ≠ rSz ∧ rOff = extentEnd then
              match ZoneFile.getExtent state.file.extents (offset + out.length) with
              | none => pure (out, data.length)
              | some (extent, _) =>
                  readLoop env direct size offset rSz fuel (extent.start + extent.length)
                    extent.start out data.length
            else readLoop env direct size offset rSz fuel extentEnd rOff out data.length

/-- The copy loop of `WALPositionedRead` on files without a log: a request does not go past
the end of its extent. -/
def fileReadLoop (env : ReaderEnv) (direct : Bool) (offset rSz : Nat) :=
  readLoop env direct (fun read extentEnd rOff => min (rSz - read) (extentEnd - rOff)) offset rSz

/-- `WALPositionedRead` on other files, inside of the file. -/
def fileRead (env : ReaderEnv) (offset n : Nat) (direct : Bool) : FileProgram Bytes := do
  let state ← Program.read
  let file := state.file
  match ZoneFile.getExtent file.extents offset with
  | none => pure []
  | some (extent, rOff) =>
      let rSz := min n (file.fileSize - offset)
      let (out, r) ← fileReadLoop env direct offset rSz (rSz + 1) (extent.start + extent.length) rOff
        [] 0
      let read := if r < 0 then 0 else out.length
      setFile fun file => { file with lastRead := offset + read }
      if r < 0 then Program.fail (.ioError "pread error\n") else pure out

/-- The size of the next request of `NormalPositionedRead`, a `size_t`. -/
def readSize (rSz read extentEnd rOff : Nat) : Nat :=
  let left := (rSz + 2 ^ 64 - read) % 2 ^ 64
  if extentEnd < (left + rOff) % 2 ^ 64 then (extentEnd + 2 ^ 64 - rOff) % 2 ^ 64 else left

/-- The copy loop of `NormalPositionedRead`. -/
def normalReadLoop (env : ReaderEnv) (direct : Bool) (offset rSz : Nat) :=
  readLoop env direct (readSize rSz) offset rSz

/-- `NormalPositionedRead`, which nothing calls. In a file that was created as a write-ahead
log the first extent ends at its length. -/
def normalPositionedRead (env : ReaderEnv) (offset n : Nat) (direct : Bool) :
    FileProgram Bytes := do
  let state ← Program.read
  let file := state.file
  if file.fileSize ≤ offset then pure []
  else
    match ZoneFile.getExtent file.extents offset with
    | none => pure []
    | some (extent, rOff) =>
        let extentEnd := if file.isWal then extent.length else extent.start + extent.length
        let rSz := min n (file.fileSize - offset)
        let (out, r) ← normalReadLoop env direct offset rSz (rSz + 1) extentEnd rOff [] 0
        if r < 0 then Program.fail (.ioError "pread error\n") else pure out

/-- `PositionedRead`, which is `WALPositionedRead`: the first name of the file says how it is
read. -/
def positionedRead (build : ReaderBuild) (config : BuildConfig) (env : ReaderEnv)
    (offset n : Nat) (direct : Bool) : FileProgram Bytes := do
  let state ← Program.read
  if state.file.getFilename.isNone then Program.fail .never
  else if state.file.fileSize ≤ offset then pure []
  else if state.file.hasLogName then walRead build config env offset n direct
  else fileRead env offset n direct

end FileState

end Zwal
