import Zwal.Device.IoZones
import Zwal.Foundation.Memory

/-! # The metadata log

`ZenMetaLog`: records with a checksum and a length, each padded to whole blocks, in a
zone of their own. -/

namespace Zwal

/-- The checksum of the library: `crc32c::Extend`, `Mask` and `Unmask`. -/
structure Crc32c where
  extend : UInt32 → Bytes → UInt32
  mask : UInt32 → UInt32
  unmask : UInt32 → UInt32
  unmask_mask : ∀ crc, unmask (mask crc) = crc

def Crc32c.ofRecord (crc : Crc32c) (recordSz : Nat) (data : Bytes) : UInt32 :=
  crc.extend (crc.extend 0 (Bytes.ofNat 4 recordSz)) data

def zMetaHeaderSize : Nat := 8

structure ZenMetaLog where
  zbd : ZonedBlockDevice
  zone : Nat
  readPos : Nat

abbrev MetaProgram := Program ZenMetaLog IOStatus

namespace ZenMetaLog

def ofZone (zbd : ZonedBlockDevice) (number : Nat) : ZenMetaLog :=
  { zbd := zbd, zone := number, readPos := (zbd.zone number).start }

def onDevice (program : DeviceProgram Value) : MetaProgram Value :=
  program.within ZenMetaLog.zbd fun log zbd => { log with zbd := zbd }

def roundUp (blockSize size : Nat) : Nat :=
  if size % blockSize = 0 then size else size + (blockSize - size % blockSize)

/-- The size of a record on the device. The length is kept in an `uint32_t`. -/
def physSz (blockSize : Nat) (data : Bytes) : Nat :=
  roundUp blockSize (data.length % 2 ^ 32 + zMetaHeaderSize)

def recordBuffer (crc : Crc32c) (blockSize : Nat) (data : Bytes) : Bytes :=
  let recordSz := data.length % 2 ^ 32
  let record := data.take recordSz
  let buffer : Bytes := List.replicate (physSz blockSize data) 0
  let buffer := buffer.overwrite 0 (Bytes.ofNat 4 (crc.mask (crc.ofRecord recordSz record)).toNat)
  let buffer := buffer.overwrite 4 (Bytes.ofNat 4 recordSz)
  buffer.overwrite zMetaHeaderSize record

/-- `AddRecord`; `Zone::Append` takes the size as an `uint32_t`. -/
def addRecord (crc : Crc32c) (data : Bytes) : MetaProgram Unit := do
  let log ← Program.read
  let blockSize := log.zbd.blockSize
  onDevice (ZonedBlockDevice.appendZone log.zone
    ((recordBuffer crc blockSize data).take (physSz blockSize data % 2 ^ 32)))

def readLoop (device : Nat → UInt8) : (fuel left : Nat) → (data : Bytes) → MetaProgram Bytes
  | 0, left, data => if left = 0 then pure data else Program.fail .never
  | fuel + 1, left, data =>
      if left = 0 then pure data
      else do
        let log ← Program.read
        -- `ZonedBlockDevice::Read` takes the size as an `int`
        let ret ← if toInt32 left ≤ 0 then pure (-1) else onDevice (ZonedBlockDevice.reply left)
        if ret < 0 then Program.fail (.ioError "Read failed")
        else
          let got := min left ret.toNat
          Program.update fun log => { log with readPos := log.readPos + got }
          readLoop device fuel (left - got) (data ++ bytesAt device log.readPos got)

/-- `Read`; at the end of the log the slice is cleared. -/
def read (device : Nat → UInt8) (toRead : Nat) : MetaProgram Bytes := do
  let log ← Program.read
  let zone := log.zbd.zone log.zone
  if zone.wp ≤ log.readPos then pure []
  else if zone.start + zone.maxCapacity < log.readPos + toRead then
    Program.fail (.ioError "Read across zone")
  else readLoop device toRead toRead []

def readRecord (crc : Crc32c) (device : Nat → UInt8) : MetaProgram Bytes := do
  let header ← read device zMetaHeaderSize
  if header.isEmpty then pure []
  else
    let recordCrc := UInt32.ofNat (Bytes.toNat (header.take 4))
    let recordSz := Bytes.toNat ((header.drop 4).take 4)
    let record ← read device recordSz
    if crc.ofRecord recordSz record ≠ crc.unmask recordCrc then
      Program.fail (.ioError "Not a valid record")
    else
      -- The next record starts on a block boundary.
      Program.update fun log => { log with readPos := roundUp log.zbd.blockSize log.readPos }
      pure record

/-! ## Several records -/

def addRecords (crc : Crc32c) : List Bytes → MetaProgram Unit
  | [] => pure ()
  | record :: records => do
      addRecord crc record
      addRecords crc records

/-- As many calls of `ReadRecord`, one after the other. -/
def readRecords (crc : Crc32c) (device : Nat → UInt8) : (count : Nat) → MetaProgram (List Bytes)
  | 0 => pure []
  | count + 1 => do
      let record ← readRecord crc device
      let records ← readRecords crc device count
      pure (record :: records)

/-- A zone as it is reported when the device is opened again: a full zone with the write
pointer at the end of its address range. -/
def reopened (zoneSize : Nat) (zone : Zone) : Zone :=
  { zone with
    wp := if zone.wp - zone.start = zone.maxCapacity then zone.start + zoneSize else zone.wp }

end ZenMetaLog

end Zwal
