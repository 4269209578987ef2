import Zwal.File.ZoneFile
import Zwal.Foundation.Memory

/-! # Recovery of files that were open at a crash

`ZoneFile::Recover` and `ZoneFile::RecoverSparseExtents`: the extents written to the
active zone after the last metadata record are found again between the recorded
start of the extent and the write pointer of the zone. -/

namespace Zwal

/-- The `uint64_t` size an extent takes with its header, in whole blocks. -/
def extentBlocks (blockSize header extentLength : Nat) : Nat :=
  let total := (extentLength + header) % 2 ^ 64
  (if total % blockSize = 0 then total / blockSize else total / blockSize + 1) * blockSize

namespace FileState

/-- The extent a header at `next` stands for. -/
def addRecovered (number next extentLength : Nat) (state : FileState) : FileState :=
  let zone := state.zbd.zone number
  { state with
    zbd := state.zbd.setZone number { zone with usedCapacity := zone.usedCapacity + .ofNat extentLength }
    file := { state.file with
      extents := state.file.extents ++ [⟨next + state.file.headerSize, extentLength, number⟩] } }

/-- `RecoverSparseExtents`, from `next` to `stop`. The sequence number is stored however
the loop ends. -/
def recoverSparseExtents (device : Nat → UInt8) (number stop : Nat) :
    (fuel next walSeqRec : Nat) → FileProgram Unit
  | 0, _, _ => Program.fail .never
  | fuel + 1, next, walSeqRec => do
      let state ← Program.read
      let leave := setFile fun file => { file with walSeq := walSeqRec }
      if next < stop then
        let read ← (onDevice (ZonedBlockDevice.request
          (.ioError "Unexpected read error while recovering"))).attempt
        let extentLength := Bytes.toNat (bytesAt device next 8)
        match read with
        | .error failure =>
            leave
            Program.fail failure
        | .ok () =>
            if extentLength = 0 then
              leave
              Program.fail (.ioError "Unexpected extent length while recovering")
            else
              let seq := Bytes.toNat (bytesAt device (next + 8) 8)
              let isLog := state.file.hasLogName
              Program.update (addRecovered number next extentLength)
              recoverSparseExtents device number stop fuel
                ((next + extentBlocks state.zbd.blockSize state.file.headerSize extentLength) % 2 ^ 64)
                (if isLog && walSeqRec < seq then seq else walSeqRec)
      else leave

/-- The part of `Recover` that finds the missing extents. -/
def recoverExtents (device : Nat → UInt8) (fuel number : Nat) : FileProgram Unit := do
  let state ← Program.read
  let start := state.file.extentStart
  let wp := (state.zbd.zone number).wp
  if state.file.isSparse then
    recoverSparseExtents device number wp fuel start state.file.walSeq
  else
    Program.update fun state =>
      let zone := state.zbd.zone number
      { state with
        zbd := state.zbd.setZone number { zone with usedCapacity := zone.usedCapacity + .ofNat (wp - start) }
        file := { state.file with extents := state.file.extents ++ [⟨start, wp - start, number⟩] } }

def recover (device : Nat → UInt8) (fuel : Nat) : FileProgram Unit := do
  let state ← Program.read
  if !state.file.hasActiveExtent then pure ()
  else
    match state.zbd.getIOZone state.file.extentStart with
    | none => Program.fail (.ioError "Could not find zone for extent start while recovering")
    | some number =>
        if (state.zbd.zone number).wp < state.file.extentStart then
          Program.fail (.ioError "Zone wp is smaller than active extent start")
        else if (state.zbd.zone number).wp = state.file.extentStart then
          setFile fun file => { file with extentStart := noExtent }
        else
          recoverExtents device fuel number
          setFile fun file =>
            { file with
              extentStart := noExtent
              fileSize := (file.extents.map ZoneExtent.length).sum }

end FileState

end Zwal
