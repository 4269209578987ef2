import Zwal.File.ZoneFile

/-! # Appending to a file

`ZoneFile::SparseAppend`, `BufferedAppend` and `Append`: cut a flush into writes
that fit the active zone and, in a write-ahead log, the current barrier window.
The loops run on fuel; a loop that uses it up has not returned. -/

namespace Zwal

def kiB : Nat := 1024

/-- The two sizes set by the build script, with the `static_assert` on them. -/
structure BuildConfig where
  sparseBufferSizeInKB : Nat
  walBarrierSizeInKB : Nat
  divides : walBarrierSizeInKB % sparseBufferSizeInKB = 0
  sparsePositive : 0 < sparseBufferSizeInKB
  barrierPositive : 0 < walBarrierSizeInKB

namespace BuildConfig

def sparseBufferSize (config : BuildConfig) : Nat := config.sparseBufferSizeInKB * kiB
def walBarrierSize (config : BuildConfig) : Nat := config.walBarrierSizeInKB * kiB

end BuildConfig

def smallConfig : BuildConfig := ⟨4, 8, by decide, by decide, by decide⟩

/-- `block_sz` of `SparseAppend`, whatever the device's block size. -/
def sparseBlockSize : Nat := 4096

/-- Zeroes up to the next multiple of `blockSize`. -/
def padSize (blockSize wrSize : Nat) : Nat :=
  if wrSize % blockSize = 0 then 0 else blockSize - wrSize % blockSize

theorem padSize_eq (blockSize wrSize : Nat) :
    (wrSize % blockSize = 0 ∧ padSize blockSize wrSize = 0) ∨
      (wrSize % blockSize ≠ 0 ∧ padSize blockSize wrSize = blockSize - wrSize % blockSize) := by
  by_cases whole : wrSize % blockSize = 0
  · exact .inl ⟨whole, if_pos whole⟩
  · exact .inr ⟨whole, if_neg whole⟩

theorem dvd_add_padSize (wrSize : Nat) :
    sparseBlockSize ∣ wrSize + padSize sparseBlockSize wrSize := by
  have cases := padSize_eq sparseBlockSize wrSize
  rw [sparseBlockSize] at *
  omega

theorem add_padSize_le {wrSize room : Nat} (fits : wrSize ≤ room)
    (aligned : sparseBlockSize ∣ room) : wrSize + padSize sparseBlockSize wrSize ≤ room := by
  have cases := padSize_eq sparseBlockSize wrSize
  rw [sparseBlockSize] at *
  omega

theorem add_padSize_mono {first second : Nat} (le : first ≤ second) :
    first + padSize sparseBlockSize first ≤ second + padSize sparseBlockSize second :=
  add_padSize_le (Nat.le_trans le (Nat.le_add_right _ _)) (dvd_add_padSize second)

namespace FileState

/-- The sync `SparseAppend` makes once a barrier window is full. -/
def barrierSync (config : BuildConfig) : FileProgram Unit := do
  let state ← Program.read
  if state.file.isWal && config.walBarrierSize ≤ state.file.appendBytesSinceLastBarrier then
    walSync
    setFile fun file => { file with appendBytesSinceLastBarrier := 0 }
  else pure ()

/-- `wanted` clipped to the active zone and, in a WAL, to the room left in the
barrier window. -/
def clipWrite (state : FileState) (wanted room : Nat) : Nat :=
  let wrSize := min wanted state.active.capacity
  if state.file.isWal then min wrSize room else wrSize

/-- The `uint32_t` size of the next write of a flush with `left` bytes to go. -/
def sparseWriteSize (config : BuildConfig) (state : FileState) (left : Nat) : Nat :=
  state.clipWrite ((left + state.file.headerSize) % 2 ^ 32)
    (config.walBarrierSize - state.file.appendBytesSinceLastBarrier)

def padBuffer (blockSize wrSize : Nat) (buffer : Bytes) : Bytes :=
  buffer.overwrite wrSize (List.replicate (padSize blockSize wrSize) 0)

/-- Put the payload length and the next sequence number in front of the payload. -/
def sealSparse (wrSize extentLength : Nat) (state : FileState) : FileState :=
  { state with
    buffer :=
      ((padBuffer sparseBlockSize wrSize state.buffer).overwrite 0
        (Bytes.ofNat 8 extentLength)).overwrite 8 (Bytes.ofNat 8 state.file.walSeq)
    file := { state.file with walSeq := state.file.walSeq + 1 } }

/-- The call a write of `size` bytes makes to the once-log. -/
def appendCall (state : FileState) (log size extentLength seq left : Nat) : AppendCall :=
  { log := log, zone := state.activeNumber, seq := seq, length := extentLength, size := size
    data := state.buffer.take size
    start := state.file.extentStart
    wp := state.active.wp
    appendBytes := state.file.appendBytesSinceLastBarrier
    left := left
    capacity := state.active.capacity }

/-- Hand the first `size` bytes of the buffer to the active zone: by a zone append in
a WAL, by a write elsewhere. -/
def writeActive (size extentLength seq left : Nat) : FileProgram Unit := do
  let state ← Program.read
  if state.file.isWal then
    match state.file.wal with
    | none => Program.fail .never
    | some log =>
        onDevice (ZonedBlockDevice.zoneAppend (state.appendCall log size extentLength seq left))
        setFile fun file =>
          { file with appendBytesSinceLastBarrier := file.appendBytesSinceLastBarrier + size }
  else onDevice (ZonedBlockDevice.appendZone state.activeNumber (state.buffer.take size))

/-- Add the extent just written; its payload starts `header` bytes into the write. -/
def addExtent (header extentLength : Nat) (state : FileState) : FileState :=
  let zone := state.active
  { state with
    zbd := state.zbd.setZone state.activeNumber
      { zone with usedCapacity := zone.usedCapacity + .ofNat extentLength }
    file := { state.file with
      extents := state.file.extents ++
        [⟨state.file.extentStart + header, extentLength, state.activeNumber⟩]
      extentStart := zone.wp
      fileSize := state.file.fileSize + extentLength } }

/-- `memmove` the `left` bytes at `source` to `target`. -/
def moveRest (target source left : Nat) (state : FileState) : FileState :=
  { state with buffer := state.buffer.overwrite target ((state.buffer.drop source).take left) }

/-- Leave a full zone: close it, move the bytes not yet written to `target` and
allocate the next one. -/
def leaveFullZone (target wrSize left : Nat) : FileProgram Unit := do
  let state ← Program.read
  if state.active.capacity = 0 then
    closeActiveZone
    Program.update (moveRest target wrSize left)
    allocateNewZone
  else pure ()

/-- A pass of the loop of `SparseAppend` after the barrier check, returning what is
left. The buffer is only moved at the end of a zone. -/
def sparseWrite (config : BuildConfig) (left : Nat) : FileProgram Nat := do
  let state ← Program.read
  let header := state.file.headerSize
  let wrSize := sparseWriteSize config state left
  let extentLength := (wrSize + 2 ^ 64 - header) % 2 ^ 64
  Program.update (sealSparse wrSize extentLength)
  writeActive ((wrSize + padSize sparseBlockSize wrSize) % 2 ^ 32) extentLength
    state.file.walSeq left
  Program.update (addExtent header extentLength)
  let left := (left + 2 ^ 64 - extentLength) % 2 ^ 32
  leaveFullZone header wrSize left
  pure left

def sparseAppendPass (config : BuildConfig) (left : Nat) : FileProgram Nat := do
  barrierSync config
  sparseWrite config left

def sparseAppendLoop (config : BuildConfig) : (fuel left : Nat) → FileProgram Unit
  | _, 0 => pure ()
  | 0, _ + 1 => Program.fail .never
  | fuel + 1, left + 1 => do
      let left ← sparseAppendPass config (left + 1)
      sparseAppendLoop config fuel left

def sparseAppend (config : BuildConfig) (fuel dataSize : Nat) : FileProgram Unit := do
  ensureActiveZone
  sparseAppendLoop config fuel dataSize

/-- The barrier of `BufferedAppend`: the status of the sync is not read. -/
def bufferedBarrier (config : BuildConfig) : FileProgram Unit := do
  let state ← Program.read
  if state.file.isWal && config.walBarrierSize ≤ state.file.appendBytesSinceLastBarrier then
    let _ ← walSync.attempt
    setFile fun file => { file with appendBytesSinceLastBarrier := 0 }
  else pure ()

/-- The write of `BufferedAppend`: a failed zone append is counted too. -/
def bufferedWriteActive (size extentLength left : Nat) : FileProgram Unit := do
  let state ← Program.read
  if state.file.isWal then
    match state.file.wal with
    | none => Program.fail .never
    | some log =>
        let call := state.appendCall log size extentLength state.file.walSeq left
        let appended ← (onDevice (ZonedBlockDevice.zoneAppend call)).attempt
        setFile fun file =>
          { file with appendBytesSinceLastBarrier := file.appendBytesSinceLastBarrier + size }
        match appended with
        | .error failure => Program.fail failure
        | .ok () => pure ()
  else onDevice (ZonedBlockDevice.appendZone state.activeNumber (state.buffer.take size))

/-- One pass of the loop of `BufferedAppend`: the size is clipped to the window before
the barrier is looked at. -/
def bufferedAppendPass (config : BuildConfig) (left : Nat) : FileProgram Nat := do
  let state ← Program.read
  let room :=
    (config.walBarrierSize + 2 ^ 64 - state.file.appendBytesSinceLastBarrier) % 2 ^ 64
  let wrSize := state.clipWrite left room
  Program.update fun state =>
    { state with buffer := padBuffer state.zbd.blockSize wrSize state.buffer }
  bufferedBarrier config
  bufferedWriteActive ((wrSize + padSize state.zbd.blockSize wrSize) % 2 ^ 32) wrSize left
  Program.update (addExtent 0 wrSize)
  leaveFullZone 0 wrSize (left - wrSize)
  pure (left - wrSize)

def bufferedAppendLoop (config : BuildConfig) : (fuel left : Nat) → FileProgram Unit
  | _, 0 => pure ()
  | 0, _ + 1 => Program.fail .never
  | fuel + 1, left + 1 => do
      let left ← bufferedAppendPass config (left + 1)
      bufferedAppendLoop config fuel left

def bufferedAppend (config : BuildConfig) (fuel dataSize : Nat) : FileProgram Unit := do
  ensureActiveZone
  bufferedAppendLoop config fuel dataSize

/-- The loop of `Append`, for block-aligned direct writes. -/
def directAppendLoop : (fuel : Nat) → (data : Bytes) → FileProgram Unit
  | _, [] => pure ()
  | 0, _ :: _ => Program.fail .never
  | fuel + 1, byte :: rest => do
      let data := byte :: rest
      let state ← Program.read
      if state.active.capacity = 0 then
        pushExtent
        closeActiveZone
        allocateNewZone
      else pure ()
      let state ← Program.read
      let wrSize := min data.length state.active.capacity
      onDevice (ZonedBlockDevice.appendZone state.activeNumber (data.take wrSize))
      setFile fun file => { file with fileSize := file.fileSize + wrSize }
      directAppendLoop fuel (data.drop wrSize)

/-- `ZoneFile::Append`: the size of the data is cut down to 32 bits. -/
def directAppend (fuel : Nat) (data : Bytes) : FileProgram Unit := do
  ensureActiveZone
  directAppendLoop fuel (data.take (data.length % 2 ^ 32))

end FileState

end Zwal
