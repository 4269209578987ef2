import Zwal.File.SparseAppend

/-! # Writable files

`ZonedWritableFile`: a host buffer in front of a `ZoneFile`, and the calls a
database makes on it. -/

namespace Zwal

structure WritableFile where
  state : FileState
  buffered : Bool
  /-- Offset of `buffer` in the memory the file appends from. -/
  bufferStart : Nat
  bufferSz : Nat
  bufferPos : Nat
  wp : Nat
  isOpen : Bool

abbrev WritableProgram := Program WritableFile IOStatus

namespace WritableFile

/-- The constructor. No byte of the fresh buffer is read before it is written. -/
def create (config : BuildConfig) (zbd : ZonedBlockDevice) (file : ZoneFile) (buffered : Bool) :
    WritableFile :=
  let header := if file.isSparse then file.headerSize else 0
  let memory :=
    if file.isSparse then config.sparseBufferSize + zbd.blockSize else 1024 * 1024
  { state := ⟨zbd, file, List.replicate memory 0⟩
    buffered := buffered
    bufferStart := header
    bufferSz := if file.isSparse then memory - header - zbd.blockSize else memory
    bufferPos := 0
    wp := file.fileSize
    isOpen := true }

def onFile (program : FileProgram Value) : WritableProgram Value :=
  program.within WritableFile.state fun writer state => { writer with state := state }

def flushBuffer (config : BuildConfig) (fuel : Nat) : WritableProgram Unit := do
  let writer ← Program.read
  if writer.bufferPos = 0 then pure ()
  else
    if writer.state.file.isSparse then onFile (FileState.sparseAppend config fuel writer.bufferPos)
    else onFile (FileState.bufferedAppend config fuel writer.bufferPos)
    Program.update fun writer =>
      { writer with wp := writer.wp + writer.bufferPos, bufferPos := 0 }

/-- `memcpy` into the buffer at the current position. -/
def fill (data : Bytes) (writer : WritableFile) : WritableFile :=
  { writer with
    state := { writer.state with
      buffer := writer.state.buffer.overwrite (writer.bufferStart + writer.bufferPos) data }
    bufferPos := writer.bufferPos + data.length }

/-- The loop of `BufferedWrite`; every pass takes at least one byte, so the length of
the data is enough fuel. -/
def bufferedWriteLoop (config : BuildConfig) (fuel : Nat) :
    (passes : Nat) → (data : Bytes) → WritableProgram Unit
  | _, [] => pure ()
  | 0, _ :: _ => Program.fail .never
  | passes + 1, byte :: rest => do
      let writer ← Program.read
      let full := writer.bufferSz - writer.bufferPos = 0
      if full then flushBuffer config fuel else pure ()
      let bufferLeft := if full then writer.bufferSz else writer.bufferSz - writer.bufferPos
      Program.update (fill ((byte :: rest).take bufferLeft))
      bufferedWriteLoop config fuel passes ((byte :: rest).drop bufferLeft)

/-- `BufferedWrite`: the size of the slice is cut down to 32 bits. -/
def bufferedWrite (config : BuildConfig) (fuel : Nat) (slice : Bytes) : WritableProgram Unit :=
  let data := slice.take (slice.length % 2 ^ 32)
  bufferedWriteLoop config fuel data.length data

def append (config : BuildConfig) (fuel : Nat) (data : Bytes) : WritableProgram Unit := do
  let writer ← Program.read
  if writer.buffered then bufferedWrite config fuel data
  else
    onFile (FileState.directAppend fuel data)
    Program.update fun writer => { writer with wp := writer.wp + data.length }

def positionedAppend (config : BuildConfig) (fuel : Nat) (data : Bytes) (offset : Nat) :
    WritableProgram Unit := do
  let writer ← Program.read
  if offset ≠ writer.wp then Program.fail (.ioError "positioned append not at write pointer")
  else append config fuel data

/-- `Truncate` sets `file_size_` and nothing else. -/
def truncate (size : Nat) : WritableProgram Unit :=
  onFile (FileState.setFile fun file => { file with fileSize := size })

/-- `DataSync`: the log is synced before the buffer is flushed to it, and the status of
that sync is not read. -/
def dataSync (config : BuildConfig) (fuel : Nat) : WritableProgram Unit := do
  let writer ← Program.read
  if writer.state.file.isWal then
    let _ ← (onFile FileState.walSync).attempt
  if writer.buffered then
    flushBuffer config fuel
    if writer.state.file.isSparse then pure () else onFile FileState.persistMetadata
  else onFile FileState.pushExtent

def sync (config : BuildConfig) (fuel : Nat) : WritableProgram Unit := dataSync config fuel

def fsync (config : BuildConfig) (fuel : Nat) : WritableProgram Unit := do
  dataSync config fuel
  let writer ← Program.read
  if writer.buffered && !writer.state.file.isSparse then pure ()
  else onFile FileState.persistMetadata

def rangeSync (config : BuildConfig) (fuel offset nbytes : Nat) : WritableProgram Unit := do
  let writer ← Program.read
  if writer.wp < (offset + nbytes) % 2 ^ 64 then dataSync config fuel else pure ()

/-- `CloseInternal`. -/
def close (config : BuildConfig) (fuel : Nat) : WritableProgram Unit := do
  let writer ← Program.read
  if writer.isOpen then
    dataSync config fuel
    onFile FileState.closeWR
    Program.update fun writer => { writer with isOpen := false }
  else pure ()

end WritableFile

end Zwal
