import Zwal.Foundation.Bytes
import Zwal.Foundation.Program

/-! # Zones and the zoned block device

The host-side view of a zoned device: `Zone` and `ZonedBlockDevice` of
`zbd_zenfs`. The block layer and SZD, which are outside of the repository, answer
through a script of replies, so that a statement over every script covers every
pattern of failures. A call of the metadata writer takes one reply as well: it is
refused if `PersistRecord` fails, the record and the roll of the log together. The
builds of this repository use `DEBUG_LEVEL=0`, hence assertions are not part of the
model. -/

namespace Zwal

/-- The failures among the codes of `IOStatus`; `OK` is a program that returns.
`never` stands for a call that does not return: it waits on itself or
dereferences a null pointer. -/
inductive IOStatus
  | noSpace (message : String)
  | ioError (message : String)
  | corruption (message : String)
  | invalidArgument (message : String)
  | never
  deriving DecidableEq, Repr

structure Zone where
  start : Nat
  /-- Remaining capacity. -/
  capacity : Nat
  maxCapacity : Nat
  wp : Nat
  lifetime : Nat
  usedCapacity : UInt64
  busy : Bool
  deriving DecidableEq, Repr

namespace Zone

def isUsed (zone : Zone) : Bool := 0 < zone.usedCapacity
def isFull (zone : Zone) : Bool := zone.capacity == 0
def isEmpty (zone : Zone) : Bool := zone.wp == zone.start

end Zone

/-- One accepted `SZDOnceLog::AsyncAppend`: the once-log and the host zone it was
charged to, the sequence number and payload length put into the header, the
bytes handed over, and what the writer had in hand at the call. -/
structure AppendCall where
  log : Nat
  zone : Nat
  seq : Nat
  length : Nat
  size : Nat
  data : Bytes
  /-- `extent_start_` of the file at the call. -/
  start : Nat
  /-- Write pointer of the active zone at the call. -/
  wp : Nat
  /-- `append_bytes_since_last_barrier_` at the call. -/
  appendBytes : Nat
  /-- Bytes of the flush not yet written. -/
  left : Nat
  /-- Capacity of the active zone at the call. -/
  capacity : Nat
  deriving DecidableEq, Repr

structure ZoneExtent where
  start : Nat
  length : Nat
  zone : Nat
  deriving DecidableEq, Repr

/-- One accepted write of `Zone::Append`: the bytes the block layer took and what it
found in the zone. -/
structure WriteCall where
  zone : Nat
  /-- Write pointer of the zone at the call: where the bytes went. -/
  wp : Nat
  /-- Capacity of the zone at the call. -/
  capacity : Nat
  data : Bytes
  deriving DecidableEq, Repr

/-- What a metadata record is made from. `EncodeSnapshotTo` writes all extents,
`EncodeUpdateTo` those from `nrSyncedExtents` on; `walSeq` is written for a
write-ahead log only. -/
structure FileRecord where
  fileId : Nat
  fileSize : Nat
  lifetime : Nat
  extents : List ZoneExtent
  nrSyncedExtents : Nat
  walSeq : Option Nat
  mTime : Nat
  extentStart : Nat
  isSparse : Bool
  linkfiles : List String
  deriving DecidableEq, Repr

/-- The requests that were carried out, and the syncs that failed, in the order the host
issued them. `complete` and `lose` are the device's own steps, never issued by the host:
an entry of a once-log reaches its zone, or a crash takes bytes that were in flight. -/
inductive IoEvent
  | openLog (log : Nat)
  | zoneAppend (call : AppendCall)
  | walSync (log : Nat)
  | walSyncFailed (log : Nat)
  | persist (record : FileRecord)
  | write (call : WriteCall)
  | finish (zone : Nat)
  | reset (zone : Nat) (offline : Bool)
  | complete (index : Nat)
  | lose (zone count : Nat)
  deriving DecidableEq, Repr

structure ZonedBlockDevice where
  /-- Zones by zone number. -/
  zone : Nat → Zone
  ioZones : List Nat
  walZones : List Nat
  blockSize : Nat
  zoneSize : Nat
  finishThreshold : Nat
  activeIoZones : Int
  openIoZones : Int
  maxNrActiveIoZones : Nat
  maxNrOpenIoZones : Nat
  zoneDeferredStatus : Option IOStatus
  /-- Answers of the environment in call order; an exhausted script reports
  success. -/
  replies : List Int
  trace : List IoEvent

abbrev DeviceProgram := Program ZonedBlockDevice IOStatus

namespace ZonedBlockDevice

def reply (success : Int) : DeviceProgram Int := fun zbd =>
  match zbd.replies with
  | [] => (.ok success, zbd)
  | answer :: rest => (.ok answer, { zbd with replies := rest })

def request (failure : IOStatus) : DeviceProgram Unit := do
  let answer ← reply 0
  if answer < 0 then Program.fail failure else pure ()

theorem request_eq (failure : IOStatus) (zbd : ZonedBlockDevice) :
    request failure zbd = (if zbd.replies.headD 0 < 0 then .error failure else .ok (),
      { zbd with replies := zbd.replies.tail }) := by
  have asked : reply 0 zbd = (.ok (zbd.replies.headD 0), { zbd with replies := zbd.replies.tail }) := by
    rcases zbd with ⟨_, _, _, _, _, _, _, _, _, _, _, _ | ⟨answer, rest⟩, _⟩
    all_goals rfl
  rw [request, bind_of_ok asked]
  split
  all_goals rfl

theorem request_of_answered {failure : IOStatus} {zbd : ZonedBlockDevice}
    (answered : 0 ≤ zbd.replies.headD 0) :
    request failure zbd = (.ok (), { zbd with replies := zbd.replies.tail }) := by
  rw [request_eq, if_neg (by omega)]

def setZone (zbd : ZonedBlockDevice) (number : Nat) (zone : Zone) : ZonedBlockDevice :=
  { zbd with zone := Function.update zbd.zone number zone }

theorem zone_setZone (zbd : ZonedBlockDevice) (number : Nat) (changed : Zone) :
    (zbd.setZone number changed).zone number = changed := by
  simp only [setZone, Function.update_self]

theorem zone_setZone_of_ne {other number : Nat} (different : other ≠ number)
    (zbd : ZonedBlockDevice) (changed : Zone) :
    (zbd.setZone number changed).zone other = zbd.zone other := by
  simp only [setZone, Function.update_of_ne different]

def record (zbd : ZonedBlockDevice) (event : IoEvent) : ZonedBlockDevice :=
  { zbd with trace := zbd.trace ++ [event] }

def setBusy (zbd : ZonedBlockDevice) (number : Nat) (busy : Bool) : ZonedBlockDevice :=
  zbd.setZone number { zbd.zone number with busy := busy }

def putOpenIOZoneToken (zbd : ZonedBlockDevice) : ZonedBlockDevice :=
  { zbd with openIoZones := zbd.openIoZones - 1 }

def putActiveIOZoneToken (zbd : ZonedBlockDevice) : ZonedBlockDevice :=
  { zbd with activeIoZones := zbd.activeIoZones - 1 }

/-- The wait ends at once or, with no other thread to return a token, never. The limit is
computed as an `unsigned int`: on a device without a zone to open it wraps. -/
def waitForOpenIOZoneToken (prioritized : Bool) : DeviceProgram Unit := fun zbd =>
  let allocatorOpenLimit : Int :=
    if prioritized then zbd.maxNrOpenIoZones
    else ((zbd.maxNrOpenIoZones + 2 ^ 32 - 1) % 2 ^ 32 : Nat)
  if zbd.openIoZones < allocatorOpenLimit then
    (.ok (), { zbd with openIoZones := zbd.openIoZones + 1 })
  else
    (.error .never, zbd)

def getActiveIOZoneTokenIfAvailable : DeviceProgram Bool := fun zbd =>
  if zbd.activeIoZones < zbd.maxNrActiveIoZones then
    (.ok true, { zbd with activeIoZones := zbd.activeIoZones + 1 })
  else
    (.ok false, zbd)

end ZonedBlockDevice

end Zwal
