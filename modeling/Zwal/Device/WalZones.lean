import Zwal.Device.Zone

/-! # Write-ahead-log zones

`ReleaseUnusedWALZones`, `OpenWALZone`, `AllocateWALZone` and `GetWAL` of
`zbd_zenfs`. A once-log covers `zenfsZonesForeachWal` zones and is named by the
number of the first of them. The choice of a write channel has no effect on
what is written and is left out. -/

namespace Zwal

def zenfsMetaZones : Nat := 3
def zenfsFlakyZones : Nat := 1
def zenfsWalZones : Nat := 15
def zenfsZonesForeachWal : Nat := 3

/-- What `AllocateWALZone` hands back: its two out parameters and its status. A
failed `RecoverPointers` leaves both parameters assigned. -/
structure WalZoneGrant where
  zone : Option Nat
  wal : Option Nat
  status : Except IOStatus Unit

namespace ZonedBlockDevice

/-- One pass of the loop: the host marks the zone empty without resetting the
device, which `SZDOnceLog::ResetAll` is expected to have done. -/
def releaseUnusedWALZone (zbd : ZonedBlockDevice) (number : Nat) : ZonedBlockDevice :=
  let zone := zbd.zone number
  if zone.busy then zbd
  else if !zone.isEmpty && !zone.isUsed then
    let released := zbd.setZone number { zone with capacity := zone.maxCapacity, wp := zone.start }
    if zone.isFull then released else released.putActiveIOZoneToken
  else zbd

def releaseUnusedWALZones (zbd : ZonedBlockDevice) : ZonedBlockDevice :=
  (zbd.walZones.take zenfsWalZones).foldl releaseUnusedWALZone zbd

/-- `new SZDOnceLog` followed by `RecoverPointers`. -/
def openOnceLog (log : Nat) : DeviceProgram (Except IOStatus Unit) := do
  Program.update fun zbd => zbd.record (.openLog log)
  (request (.ioError "WAL recover error")).attempt

/-- The two tokens a WAL zone needs; both are waited for. -/
def takeWalTokens : DeviceProgram Unit := do
  waitForOpenIOZoneToken true
  let gotToken ← getActiveIOZoneTokenIfAvailable
  if gotToken then pure () else Program.fail .never

/-- The first index in steps of three whose zone can be acquired and is empty. -/
def firstEmptyWalGroup (zbd : ZonedBlockDevice) : List Nat → Option (Nat × Nat)
  | [] => none
  | index :: rest =>
      match zbd.walZones[index]? with
      | none => none
      | some number =>
          if !(zbd.zone number).busy && (zbd.zone number).isEmpty then some (index, number)
          else firstEmptyWalGroup zbd rest

def walGroupIndices : List Nat := [0, 3, 6, 9, 12]

/-- The part of `AllocateWALZone` that starts a new three-zone group. -/
def allocateWALGroup : DeviceProgram WalZoneGrant := do
  takeWalTokens
  let zbd ← Program.read
  match zbd.firstEmptyWalGroup walGroupIndices with
  | none =>
      Program.update fun zbd => zbd.putActiveIOZoneToken.putOpenIOZoneToken
      Program.fail (.noSpace "No WAL space left (during alloc)")
  | some (index, number) =>
      let log := index + zenfsMetaZones + zenfsFlakyZones
      Program.update fun zbd => zbd.setBusy number true
      let status ← openOnceLog log
      pure ⟨some number, some log, status⟩

/-- The part of `AllocateWALZone` that goes on in the group of the log's last zone.
The next zone is used without acquiring it. -/
def nextWALZone (wal : Option Nat) (active : Nat) : DeviceProgram WalZoneGrant := do
  let zbd ← Program.read
  match zbd.walZones[active + 1 - zenfsMetaZones - zenfsFlakyZones]?, wal with
  | none, _ => Program.fail .never
  | some next, some log => pure ⟨some next, some log, .ok ()⟩
  | some next, none =>
      let group := (active - zenfsMetaZones - zenfsFlakyZones) % zenfsZonesForeachWal
      let log := group + zenfsMetaZones + zenfsFlakyZones
      let status ← openOnceLog log
      pure ⟨some next, some log, status⟩

def allocateWALZone (wal activeZone : Option Nat) : DeviceProgram WalZoneGrant := do
  Program.update releaseUnusedWALZones
  match activeZone with
  | none => allocateWALGroup
  | some active =>
      if (active - zenfsMetaZones - zenfsFlakyZones) % zenfsZonesForeachWal =
          zenfsZonesForeachWal - 1 then
        allocateWALGroup
      else nextWALZone wal active

/-- `OpenWALZone`: the once-log it creates and the status of `RecoverPointers`. -/
def openWALZone (activeZone : Nat) : DeviceProgram (Nat × Except IOStatus Unit) := do
  takeWalTokens
  let zbd ← Program.read
  match zbd.walZones[activeZone - zenfsMetaZones - zenfsFlakyZones]? with
  | none => Program.fail .never
  | some number =>
      -- `while (!z->Acquire());` on a zone that is already held.
      if (zbd.zone number).busy then Program.fail .never
      else
        Program.update fun zbd => zbd.setBusy number true
        let status ← openOnceLog number
        pure (number, status)

/-- The once-log `GetWAL` creates: `offset` lies in the first zone of a group. The
status of `RecoverPointers` is ignored. -/
def getWAL (offset : Nat) : DeviceProgram (Option Nat) := do
  let zbd ← Program.read
  let covers (index : Nat) : Bool :=
    match zbd.walZones[index]? with
    | none => false
    | some number =>
        (zbd.zone number).start ≤ offset && offset < (zbd.zone number).start + zbd.zoneSize
  match walGroupIndices.find? covers with
  | none => pure none
  | some index =>
      let log := index + zenfsMetaZones + zenfsFlakyZones
      let _ ← openOnceLog log
      pure (some log)

/-- The zones of a once-log, reset by `SZDOnceLog::ResetAll`. -/
def resetLog (zbd : ZonedBlockDevice) (log : Nat) : ZonedBlockDevice :=
  ((zbd.record (.reset log false)).record (.reset (log + 1) false)).record (.reset (log + 2) false)

end ZonedBlockDevice

/-- A device with nothing but the zones set aside for write-ahead logs, all empty. -/
def smallDevice (capacity : Nat) : ZonedBlockDevice where
  zone number :=
    { start := number * capacity, capacity := capacity, maxCapacity := capacity
      wp := number * capacity, lifetime := 0, usedCapacity := 0, busy := false }
  ioZones := []
  walZones := [4, 5, 6, 7, 8, 9, 10, 11, 12, 13, 14, 15, 16, 17, 18]
  blockSize := 4096
  zoneSize := capacity
  finishThreshold := 0
  activeIoZones := 0
  openIoZones := 0
  maxNrActiveIoZones := 12
  maxNrOpenIoZones := 12
  zoneDeferredStatus := none
  replies := []
  trace := []

end Zwal
