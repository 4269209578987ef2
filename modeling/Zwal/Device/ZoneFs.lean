import Zwal.Device.Zone

/-! # The zonefs backend

`ZoneFsFileCache` of `zonefs_zenfs` keeps the open zone files in a list, most recently used
first, and finds them through a map of iterators; `ZoneFsBackend::Write` writes to the file
of a zone, and `Zone::Append` calls it until everything is written. What the kernel answers
is part of the state. -/

namespace Zwal

structure ZoneFsFile where
  fd : Nat
  zone : Nat
  deriving DecidableEq, Repr

/-- A node of `list_`. The identity of a node is what an iterator points to. -/
structure CacheNode where
  node : Nat
  zone : Nat
  file : ZoneFsFile
  deriving DecidableEq, Repr

structure ZoneFsFileCache where
  list : List CacheNode
  /-- `map_`: the iterators by zone number. -/
  map : Nat → Option Nat
  max : Nat
  /-- The identity of the next node. -/
  next : Nat

namespace ZoneFsFileCache

def oRdonly : Nat := 0
def zonefsDefaultMaxLimit : Nat := 14
def zonefsDefaultMaxRdLimit : Nat := 100

/-- The constructor; the flag it looks for is zero. -/
def create (flags : Nat) : ZoneFsFileCache where
  list := []
  map := fun _ => none
  max := if flags &&& oRdonly ≠ 0 then zonefsDefaultMaxRdLimit else zonefsDefaultMaxLimit
  next := 0

def deref (cache : ZoneFsFileCache) (node : Nat) : Option CacheNode :=
  cache.list.find? fun entry => entry.node == node

def eraseKey (map : Nat → Option Nat) (zone : Nat) : Nat → Option Nat :=
  Function.update map zone none

/-- `Put`. Erasing through an iterator that points nowhere is undefined. -/
def put (zone : Nat) (cache : ZoneFsFileCache) : Option ZoneFsFileCache :=
  match cache.map zone with
  | none => some cache
  | some node =>
      match cache.deref node with
      | none => none
      | some _ => some { cache with
          list := cache.list.filter fun entry => entry.node != node
          map := eraseKey cache.map zone }

/-- The loop of `Prune`: every pass drops the last node. -/
def pruneLoop (limit : Nat) : (fuel : Nat) → ZoneFsFileCache → ZoneFsFileCache
  | 0, cache => cache
  | fuel + 1, cache =>
      if limit < cache.list.length then
        match cache.list.getLast? with
        | none => cache
        | some last => pruneLoop limit fuel { cache with
            list := cache.list.dropLast, map := eraseKey cache.map last.zone }
      else cache

def prune (limit : Nat) (cache : ZoneFsFileCache) : ZoneFsFileCache :=
  pruneLoop limit cache.list.length cache

/-- `max_ - 1` of an `unsigned`. -/
def pruneLimit (cache : ZoneFsFileCache) : Nat := (cache.max + 2 ^ 32 - 1) % 2 ^ 32

/-- `Get`, with what `open` would return. Following an iterator that points nowhere is
undefined. -/
def get (zone : Nat) (opened : Option Nat) (cache : ZoneFsFileCache) :
    Option (Option ZoneFsFile × ZoneFsFileCache) :=
  match cache.map zone with
  | none =>
      match opened with
      | none => some (none, cache)
      | some fd =>
          let pruned := prune cache.pruneLimit cache
          let file : ZoneFsFile := ⟨fd, zone⟩
          some (some file, { pruned with
            list := ⟨pruned.next, zone, file⟩ :: pruned.list
            map := Function.update pruned.map zone (some pruned.next)
            next := pruned.next + 1 })
  | some node =>
      match cache.deref node with
      | none => none
      | some entry => some (some entry.file, { cache with
          list := entry :: cache.list.filter fun other => other.node != node })

def resize (newSize : Nat) (cache : ZoneFsFileCache) : ZoneFsFileCache :=
  { (if newSize < cache.max then prune newSize cache else cache) with max := newSize }

end ZoneFsFileCache

/-! ## Writing -/

structure ZoneFsBackend where
  zoneSz : Nat
  readonly : Bool
  wrFds : ZoneFsFileCache
  /-- What the zone files have received. -/
  received : Nat → Bytes
  /-- What `open` returns from now on, should it be called. -/
  opens : Nat → Option Nat
  /-- What `pwrite` returns from now on. -/
  writes : Nat → Int

namespace ZoneFsBackend

abbrev BackendProgram := Program ZoneFsBackend IOStatus

def rest {Answer : Type} (answers : Nat → Answer) : Nat → Answer := fun index => answers (index + 1)

def lbaToZoneOffset (backend : ZoneFsBackend) (pos : Nat) : Nat :=
  pos - pos / backend.zoneSz * backend.zoneSz

def getZoneFile (pos : Nat) : BackendProgram (Option ZoneFsFile) := fun backend =>
  match backend.wrFds.get (pos / backend.zoneSz) (backend.opens 0) with
  | none => (.error .never, backend)
  | some (file, cache) => (.ok file, { backend with wrFds := cache, opens := rest backend.opens })

def putZoneFile (pos : Nat) : BackendProgram Unit := fun backend =>
  match backend.wrFds.put (pos / backend.zoneSz) with
  | none => (.error .never, backend)
  | some cache => (.ok (), { backend with wrFds := cache })

/-- `pwrite`: the kernel takes some of the bytes, or none and reports an error. -/
def pwrite (zone : Nat) (data : Bytes) : BackendProgram Int := fun backend =>
  let answer := backend.writes 0
  if answer < 0 then (.ok answer, { backend with writes := rest backend.writes })
  else
    let count := min answer.toNat data.length
    (.ok count, { backend with
      writes := rest backend.writes
      received := Function.update backend.received zone (backend.received zone ++ data.take count) })

/-- The loop of `Write`. An error replaces the number of bytes written so far. -/
def writeLoop (pos : Nat) (file : ZoneFsFile) :
    (fuel : Nat) → (data : Bytes) → (offset : Nat) → (written : Int) → BackendProgram Int
  | 0, _, _, written => pure written
  | fuel + 1, data, offset, written => do
      if data.length = 0 then pure written
      else
        let ret ← pwrite file.zone data
        if ret > 0 then
          let backend ← Program.read
          if offset + ret.toNat = backend.zoneSz then putZoneFile pos else pure ()
          writeLoop pos file fuel (data.drop ret.toNat) (offset + ret.toNat) (written + ret)
        else if ret < 0 then pure ret
        else pure written

/-- `ZoneFsBackend::Write`. A count below zero becomes a `size_t` the kernel refuses. -/
def write (data : Bytes) (pos : Nat) : BackendProgram Int := do
  let backend ← Program.read
  let offset := backend.lbaToZoneOffset pos
  let writeToZone := toInt32 (min data.length (backend.zoneSz - offset))
  if backend.readonly then pure (-1)
  else
    match ← getZoneFile pos with
    | none => pure (-1)
    | some file =>
        if writeToZone < 0 then pure (-1)
        else writeLoop pos file writeToZone.toNat (data.take writeToZone.toNat) offset 0

end ZoneFsBackend

structure ZoneFsZone where
  zone : Zone
  backend : ZoneFsBackend

namespace ZoneFsZone

abbrev ZoneProgram := Program ZoneFsZone IOStatus

def onBackend (program : ZoneFsBackend.BackendProgram α) : ZoneProgram α :=
  Program.within ZoneFsZone.backend (fun state backend => { state with backend := backend }) program

/-- The loop of `Zone::Append`. -/
def appendLoop : (fuel : Nat) → (data : Bytes) → ZoneProgram Unit
  | _, [] => pure ()
  | 0, _ => Program.fail .never
  | fuel + 1, data => do
      let state ← Program.read
      let ret ← onBackend (ZoneFsBackend.write data state.zone.wp)
      if ret < 0 then Program.fail (.ioError "pwrite")
      else
        Program.update fun state => { state with zone := { state.zone with
          wp := state.zone.wp + ret.toNat, capacity := state.zone.capacity - ret.toNat } }
        appendLoop fuel (data.drop ret.toNat)

def append (fuel : Nat) (data : Bytes) : ZoneProgram Unit := do
  let state ← Program.read
  if state.zone.capacity < data.length then
    Program.fail (.noSpace "Not enough capacity for append")
  else appendLoop fuel data

/-- The zone the constructor makes from the report of the backend: `st_size` bytes are in
the zone file. -/
def ofReport (backend : ZoneFsBackend) (idx : Nat) (writable : Bool) : ZoneFsZone where
  zone :=
    { start := idx * backend.zoneSz
      capacity := if writable then backend.zoneSz - (backend.received idx).length else 0
      maxCapacity := backend.zoneSz
      wp := idx * backend.zoneSz + (backend.received idx).length
      lifetime := 0, usedCapacity := 0, busy := false }
  backend := backend

end ZoneFsZone

end Zwal
