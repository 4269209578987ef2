import Zwal.Device.Zone

/-! # Zones of ordinary files

`AllocateIOZone` of `zbd_zenfs` and the functions it calls, and the writes of
`Zone::Append`. -/

namespace Zwal

def wlthNotSet : Nat := 0
def wlthNone : Nat := 1

def lifetimeDiffNotGood : Nat := 100
def lifetimeDiffCouldBeWorse : Nat := 50

def getLifeTimeDiff (zoneLifetime fileLifetime : Nat) : Nat :=
  if fileLifetime = wlthNotSet ∨ fileLifetime = wlthNone then
    if fileLifetime = zoneLifetime then 0 else lifetimeDiffNotGood
  else if zoneLifetime > fileLifetime then zoneLifetime - fileLifetime
  else if zoneLifetime = fileLifetime then lifetimeDiffCouldBeWorse
  else lifetimeDiffNotGood

namespace ZonedBlockDevice

/-- `GetIOZone`: the zone an offset lies in, ordinary zones first. -/
def getIOZone (zbd : ZonedBlockDevice) (offset : Nat) : Option Nat :=
  (zbd.ioZones ++ zbd.walZones).find? fun number =>
    (zbd.zone number).start ≤ offset && offset < (zbd.zone number).start + zbd.zoneSize

def finishZone (number : Nat) : DeviceProgram Unit := do
  request (.ioError "Zone finish failed\n")
  Program.update fun zbd =>
    let zone := zbd.zone number
    (zbd.setZone number { zone with capacity := 0, wp := zone.start + zbd.zoneSize }).record
      (.finish number)

def closeZone (number : Nat) : DeviceProgram Unit := do
  let zbd ← Program.read
  if (zbd.zone number).isEmpty || (zbd.zone number).isFull then pure ()
  else request (.ioError "Zone close failed\n")

def applyFinishThresholdFrom : List Nat → DeviceProgram Unit
  | [] => pure ()
  | number :: rest => do
      let zbd ← Program.read
      let zone := zbd.zone number
      if !zone.busy && !(zone.isEmpty || zone.isFull) &&
          zone.capacity < zone.maxCapacity * zbd.finishThreshold / 100 then
        finishZone number
        Program.update putActiveIOZoneToken
        applyFinishThresholdFrom rest
      else applyFinishThresholdFrom rest

def applyFinishThreshold : DeviceProgram Unit := do
  let zbd ← Program.read
  if zbd.finishThreshold = 0 then pure () else applyFinishThresholdFrom zbd.ioZones

/-- The victim of `FinishCheapestIOZone`: least remaining capacity, first come. -/
def finishVictim (zbd : ZonedBlockDevice) : Option Nat :=
  let cheaper (victim : Option Nat) (number : Nat) : Option Nat :=
    let zone := zbd.zone number
    if zone.busy || zone.isEmpty || zone.isFull then victim
    else
      match victim with
      | none => some number
      | some held => if (zbd.zone held).capacity > zone.capacity then some number else victim
  zbd.ioZones.foldl cheaper none

def finishCheapestIOZone : DeviceProgram Unit := do
  let zbd ← Program.read
  match zbd.finishVictim with
  | none => pure ()
  | some victim =>
      finishZone victim
      Program.update putActiveIOZoneToken

/-- The zone `GetBestOpenZoneMatch` ends up holding, and its lifetime difference. -/
def getBestOpenZoneMatch (zbd : ZonedBlockDevice) (fileLifetime minCapacity : Nat) :
    Nat × Option Nat :=
  let better (best : Nat × Option Nat) (number : Nat) : Nat × Option Nat :=
    let zone := zbd.zone number
    if !zone.busy && zone.isUsed && !zone.isFull && minCapacity ≤ zone.capacity &&
        getLifeTimeDiff zone.lifetime fileLifetime ≤ best.1 then
      (getLifeTimeDiff zone.lifetime fileLifetime, some number)
    else best
  zbd.ioZones.foldl better (lifetimeDiffNotGood, none)

def emptyIOZone (zbd : ZonedBlockDevice) : Option Nat :=
  zbd.ioZones.find? fun number => !(zbd.zone number).busy && (zbd.zone number).isEmpty

/-- `while (!got_token && !GetActiveIOZoneTokenIfAvailable()) FinishCheapestIOZone()`.
Once no zone can be finished any more the loop spins forever. -/
def finishUntilToken : (fuel : Nat) → DeviceProgram Unit
  | 0 => Program.fail .never
  | fuel + 1 => do
      let gotToken ← getActiveIOZoneTokenIfAvailable
      if gotToken then pure ()
      else
        match ← finishCheapestIOZone.attempt with
        | .ok () => finishUntilToken fuel
        | .error failure =>
            Program.update putOpenIOZoneToken
            Program.fail failure

/-- `AllocateEmptyZone` with both tokens at hand; without a zone they are put back. -/
def allocateEmptyZone (fileLifetime : Nat) : DeviceProgram (Option Nat) := do
  let zbd ← Program.read
  match zbd.emptyIOZone with
  | some number =>
      Program.update fun zbd =>
        zbd.setZone number { zbd.zone number with busy := true, lifetime := fileLifetime }
      pure (some number)
  | none =>
      Program.update fun zbd => zbd.putActiveIOZoneToken.putOpenIOZoneToken
      pure none

/-- The branch of `AllocateIOZone` that opens an empty zone; an active-zone token
is held already when `gotToken`. -/
def openEmptyIOZone (fileLifetime : Nat) (gotToken : Bool) : DeviceProgram (Option Nat) := do
  let zbd ← Program.read
  if gotToken then pure () else finishUntilToken (zbd.ioZones.length + 1)
  allocateEmptyZone fileLifetime

/-- `AllocateIOZone` after the open-zone token has been taken. -/
def chooseIOZone (fileLifetime : Nat) : DeviceProgram (Option Nat) := do
  let zbd ← Program.read
  match zbd.getBestOpenZoneMatch fileLifetime 0 with
  | (bestDiff, candidate) =>
      if bestDiff < lifetimeDiffCouldBeWorse then
        match candidate with
        | some number =>
            Program.update fun zbd => zbd.setBusy number true
            pure (some number)
        | none =>
            Program.update putOpenIOZoneToken
            pure none
      else
        let gotToken ← getActiveIOZoneTokenIfAvailable
        match candidate with
        | some number =>
            if !gotToken && bestDiff == lifetimeDiffCouldBeWorse then
              Program.update fun zbd => zbd.setBusy number true
              pure (some number)
            else openEmptyIOZone fileLifetime gotToken
        | none => openEmptyIOZone fileLifetime gotToken

def allocateIOZone (fileLifetime : Nat) (walIo : Bool) : DeviceProgram (Option Nat) := do
  let zbd ← Program.read
  match zbd.zoneDeferredStatus with
  | some deferred => Program.fail deferred
  | none =>
      if walIo then pure () else applyFinishThreshold
      waitForOpenIOZoneToken walIo
      chooseIOZone fileLifetime

/-- `Zone::Reset`. The device reports the capacity the zone has from now on, never more
than `limit`, or that the zone went offline. -/
def resetUpTo (limit number : Nat) : DeviceProgram Unit := do
  request (.ioError "Zone reset failed\n")
  let zbd ← Program.read
  let answer ← reply (zbd.zone number).maxCapacity
  Program.update fun zbd =>
    let zone := zbd.zone number
    let reported := min answer.toNat limit
    (zbd.setZone number { zone with
      capacity := if answer < 0 then 0 else reported
      maxCapacity := if answer < 0 then zone.maxCapacity else reported
      wp := zone.start
      lifetime := wlthNotSet }).record (.reset number (decide (answer < 0)))

/-- On a device that keeps the contract: no capacity is greater than the zone. -/
def resetZone (number : Nat) : DeviceProgram Unit := fun zbd => resetUpTo zbd.zoneSize number zbd

def resetUnusedIOZonesFrom : List Nat → DeviceProgram Unit
  | [] => pure ()
  | number :: rest => do
      let zbd ← Program.read
      let zone := zbd.zone number
      if !zone.busy && !zone.isEmpty && !zone.isUsed then
        resetZone number
        if zone.isFull then pure () else Program.update putActiveIOZoneToken
        resetUnusedIOZonesFrom rest
      else resetUnusedIOZonesFrom rest

def resetUnusedIOZones : DeviceProgram Unit := do
  let zbd ← Program.read
  resetUnusedIOZonesFrom zbd.ioZones

def advance (zbd : ZonedBlockDevice) (number : Nat) (written : Bytes) : ZonedBlockDevice :=
  let zone := zbd.zone number
  (zbd.setZone number
    { zone with wp := zone.wp + written.length, capacity := zone.capacity - written.length }).record
      (.write ⟨number, zone.wp, zone.capacity, written⟩)

/-- The `pwrite` loop of `Zone::Append`: each answer of the script is the number
of bytes taken or an error. -/
def writeLoop (number : Nat) : (answers : List Int) → (data : Bytes) → DeviceProgram Unit
  | answers, [] => Program.update fun zbd => { zbd with replies := answers }
  | [], data => Program.update fun zbd => { zbd.advance number data with replies := [] }
  | answer :: rest, data =>
      if answer < 0 then do
        Program.update fun zbd => { zbd with replies := rest }
        Program.fail (.ioError "pwrite")
      else do
        Program.update fun zbd => zbd.advance number (data.take answer.toNat)
        writeLoop number rest (data.drop answer.toNat)

def appendZone (number : Nat) (data : Bytes) : DeviceProgram Unit := do
  let zbd ← Program.read
  if (zbd.zone number).capacity < data.length then
    Program.fail (.noSpace "Not enough capacity for append")
  else writeLoop number zbd.replies data

/-- An entry `SZDOnceLog::AsyncAppend` accepted: the host advances its write pointer at
once. -/
def accept (zbd : ZonedBlockDevice) (call : AppendCall) : ZonedBlockDevice :=
  let zone := zbd.zone call.zone
  (zbd.setZone call.zone
    { zone with wp := zone.wp + call.size, capacity := zone.capacity - call.size }).record
      (.zoneAppend call)

/-- `Zone::ZoneAppend`. The text of the second error is `strerror(0)`. -/
def zoneAppend (call : AppendCall) : DeviceProgram Unit := do
  let zbd ← Program.read
  if (zbd.zone call.zone).capacity < call.size then
    Program.fail (.noSpace "Not enough capacity for zoneappend")
  else
    request (.ioError "Success")
    Program.update fun zbd => zbd.accept call

end ZonedBlockDevice

end Zwal
