import Zwal.Device.WalZones
import Zwal.Device.IoZones

/-! # Opening a zoned device

`ZonedBlockDevice::Open`: the zones of the report are dealt out to metadata, write-ahead
logs and files. Conventional and offline zones are passed over; the metadata loop counts
an offline zone all the same. -/

namespace Zwal

def zenfsMinZones : Nat := 32

/-- One zone of the report of a backend, with what `ZoneIsSwr`, `ZoneIsOffline`,
`ZoneIsWritable`, `ZoneIsActive` and `ZoneIsOpen` say about it. -/
structure ReportedZone where
  start : Nat
  maxCapacity : Nat
  wp : Nat
  isSwr : Bool
  isOffline : Bool
  isWritable : Bool
  isActive : Bool
  isOpen : Bool
  deriving DecidableEq, Repr

namespace ReportedZone

def toZone (zone : ReportedZone) : Zone where
  start := zone.start
  capacity :=
    if zone.isWritable then
      (zone.maxCapacity + 2 ^ 64 - (zone.wp + 2 ^ 64 - zone.start) % 2 ^ 64) % 2 ^ 64
    else 0
  maxCapacity := zone.maxCapacity
  wp := zone.wp
  lifetime := wlthNotSet
  usedCapacity := 0
  busy := false

def isTaken (zone : ReportedZone) : Bool := zone.isSwr && !zone.isOffline

end ReportedZone

/-- What the backend reports about the device. Zones are listed in the order they lie in. -/
structure Backend where
  zones : List ReportedZone
  nrZones : Nat
  blockSize : Nat
  zoneSize : Nat
  maxNrActiveZones : Nat
  maxNrOpenZones : Nat
  sized : 0 < zoneSize
  placed : ∀ i zone, zones[i]? = some zone → zone.start = i * zoneSize

namespace Backend

def getZoneNr (backend : Backend) (zone : ReportedZone) : Nat := zone.start / backend.zoneSize

end Backend

inductive OpenStatus
  | backend (status : IOStatus)
  | invalidArgument (message : String)
  | notSupported (message : String)
  | ioError (message : String)
  deriving DecidableEq, Repr

/-- An open device; the metadata zones are a list of their own. -/
structure OpenedDevice where
  metaZones : List Nat
  zbd : ZonedBlockDevice

namespace ZonedBlockDevice

/-- The loop over the metadata zones: the zones taken and the index it stops at. -/
def takeMetaZones : List ReportedZone → (m i : Nat) → List ReportedZone × Nat
  | [], _, i => ([], i)
  | zone :: rest, m, i =>
      if m < zenfsMetaZones then
        let taken := takeMetaZones rest (if zone.isSwr then m + 1 else m) (i + 1)
        (if zone.isTaken then zone :: taken.1 else taken.1, taken.2)
      else ([], i)

def firstWalIndex (zones : List ReportedZone) : Nat :=
  max (takeMetaZones zones 0 0).2 (zenfsMetaZones + zenfsFlakyZones)

def takeWalZones (zones : List ReportedZone) : List ReportedZone :=
  ((zones.drop (firstWalIndex zones)).take
    (zenfsMetaZones + zenfsFlakyZones + zenfsWalZones - firstWalIndex zones)).filter
      ReportedZone.isTaken

def takeIoZones (zones : List ReportedZone) : List ReportedZone :=
  (zones.drop (max (firstWalIndex zones) (zenfsMetaZones + zenfsFlakyZones + zenfsWalZones))).filter
    ReportedZone.isTaken

def closeOpenZones (backend : Backend) : List ReportedZone → DeviceProgram Unit
  | [] => pure ()
  | zone :: rest => do
      if zone.isActive && zone.isOpen then
        let _ ← (closeZone (backend.getZoneNr zone)).attempt
      closeOpenZones backend rest

/-- A limit of the device less the two zones reserved for metadata and migration. -/
def reservedLimit (nrZones limit : Nat) : Nat :=
  if limit = 0 then nrZones else (limit + 2 ^ 32 - 2) % 2 ^ 32

/-- The lists and counters `Open` sets up. -/
def dealZones (backend : Backend) (replies : List Int) : OpenedDevice where
  metaZones := (takeMetaZones backend.zones 0 0).1.map backend.getZoneNr
  zbd :=
    { zone := fun number =>
        (backend.zones[number]?.map ReportedZone.toZone).getD
          ⟨number * backend.zoneSize, 0, 0, number * backend.zoneSize, wlthNotSet, 0, false⟩
      ioZones := (takeIoZones backend.zones).map backend.getZoneNr
      walZones := (takeWalZones backend.zones).map backend.getZoneNr
      blockSize := backend.blockSize
      zoneSize := backend.zoneSize
      finishThreshold := 0
      activeIoZones := (takeIoZones backend.zones).countP ReportedZone.isActive
      openIoZones := 0
      maxNrActiveIoZones := reservedLimit backend.nrZones backend.maxNrActiveZones
      maxNrOpenIoZones := reservedLimit backend.nrZones backend.maxNrOpenZones
      zoneDeferredStatus := none
      replies := replies
      trace := [] }

/-- `Open`, with the status of the backend's own `Open` and the answers to later requests. -/
def openDevice (backend : Backend) (opening : Except IOStatus Unit) (readonly exclusive : Bool)
    (replies : List Int) : Except OpenStatus OpenedDevice :=
  if !readonly && !exclusive then
    .error (.invalidArgument "Write opens must be exclusive")
  else
    match opening with
    | .error failure => .error (.backend failure)
    | .ok () =>
        if backend.nrZones < zenfsMinZones then
          .error (.notSupported s!"To few zones on zoned backend ({zenfsMinZones} required)")
        else if backend.zones.length ≠ backend.nrZones then
          .error (.ioError "Failed to list zones")
        else
          let dealt := dealZones backend replies
          if readonly then .ok dealt
          else .ok { dealt with
            zbd := (closeOpenZones backend (takeIoZones backend.zones) dealt.zbd).2 }

end ZonedBlockDevice

end Zwal
