import Zwal.File.SparseAppend
import Zwal.File.Trace

/-! # What `SparseAppend` does is independent of the bytes

Two runs of the writer of a log over buffers with different bytes take the same branches
and leave the same file and zones; their traces differ in the bytes handed over only. -/

namespace Zwal

def IoEvent.blank : IoEvent → IoEvent
  | .zoneAppend call => .zoneAppend { call with data := [] }
  | event => event

namespace ZonedBlockDevice

def blank (zbd : ZonedBlockDevice) : ZonedBlockDevice :=
  { zbd with trace := zbd.trace.map IoEvent.blank }

def Same (one two : ZonedBlockDevice) : Prop := blank one = blank two

abbrev Blind (program : DeviceProgram Value) : Prop := Program.Alike Same program program

variable {one two : ZonedBlockDevice}

theorem Same.zone (same : Same one two) : one.zone = two.zone :=
  congrArg (fun zbd => zbd.zone) same

theorem Same.walZones (same : Same one two) : one.walZones = two.walZones :=
  congrArg (fun zbd => zbd.walZones) same

theorem blank_record (zbd : ZonedBlockDevice) (event : IoEvent) :
    blank (zbd.record event) = (blank zbd).record event.blank := by
  simp [blank, record]

theorem blind_of_commutes {program : DeviceProgram Value}
    (commutes : ∀ zbd, program (blank zbd) = ((program zbd).1, blank (program zbd).2)) :
    Blind program := by
  intro one two same
  have ends := commutes one
  rw [same, commutes two] at ends
  exact ⟨(congrArg Prod.fst ends).symm, (congrArg Prod.snd ends).symm⟩

theorem blind_update {change : ZonedBlockDevice → ZonedBlockDevice}
    (commutes : ∀ zbd, change (blank zbd) = blank (change zbd)) :
    Blind (Program.update change) :=
  .update fun one two same => by rw [Same, ← commutes one, ← commutes two, same]

theorem blind_record (event : IoEvent) : Blind (Program.update fun zbd => zbd.record event) :=
  .update fun one two same => by rw [Same, blank_record, blank_record, same]

theorem blind_reply (success : Int) : Blind (reply success) := by
  apply blind_of_commutes
  intro zbd
  cases answers : zbd.replies with
  | nil => simp only [reply, blank, answers]
  | cons answer rest => simp only [reply, blank, answers]

theorem blind_request (failure : IOStatus) : Blind (request failure) := by
  apply blind_of_commutes
  intro zbd
  rw [request_eq, request_eq]
  rfl

theorem blind_takeWalTokens : Blind takeWalTokens := by
  have waits : Blind (waitForOpenIOZoneToken true) := by
    apply blind_of_commutes
    intro zbd
    by_cases room : zbd.openIoZones < zbd.maxNrOpenIoZones
    all_goals simp [waitForOpenIOZoneToken, blank, room]
  have active : Blind getActiveIOZoneTokenIfAvailable := by
    apply blind_of_commutes
    intro zbd
    by_cases room : zbd.activeIoZones < zbd.maxNrActiveIoZones
    all_goals simp [getActiveIOZoneTokenIfAvailable, blank, room]
  refine waits.bind fun _ => active.bind fun gotToken => ?_
  cases gotToken with
  | true => exact .pure _
  | false => exact .fail _

theorem blank_releaseUnusedWALZones (zbd : ZonedBlockDevice) :
    (blank zbd).releaseUnusedWALZones = blank zbd.releaseUnusedWALZones := by
  have released (zbd : ZonedBlockDevice) (number : Nat) :
      (blank zbd).releaseUnusedWALZone number = blank (zbd.releaseUnusedWALZone number) := by
    rw [releaseUnusedWALZone, releaseUnusedWALZone, apply_ite blank, apply_ite blank, apply_ite blank]
    rfl
  have folded (numbers : List Nat) (zbd : ZonedBlockDevice) :
      numbers.foldl releaseUnusedWALZone (blank zbd) =
        blank (numbers.foldl releaseUnusedWALZone zbd) := by
    induction numbers generalizing zbd with
    | nil => rfl
    | cons number numbers induction => rw [List.foldl_cons, List.foldl_cons, released, induction]
  exact folded (zbd.walZones.take zenfsWalZones) zbd

theorem blind_openOnceLog (log : Nat) : Blind (openOnceLog log) :=
  (blind_record _).bind fun _ => (blind_request _).attempt

theorem Same.firstEmptyWalGroup (same : Same one two) (indices : List Nat) :
    one.firstEmptyWalGroup indices = two.firstEmptyWalGroup indices := by
  induction indices with
  | nil => rfl
  | cons index indices induction =>
      simp only [ZonedBlockDevice.firstEmptyWalGroup, same.zone, same.walZones, induction]

theorem blind_allocateWALGroup : Blind allocateWALGroup := by
  refine blind_takeWalTokens.bind fun _ => .read_bind fun one two same => ?_
  rw [same.firstEmptyWalGroup]
  cases two.firstEmptyWalGroup walGroupIndices with
  | none =>
      refine Program.Alike.bind ?_ fun _ => .fail _
      exact blind_update fun _ => rfl
  | some found =>
      refine Program.Alike.bind ?_ fun _ => (blind_openOnceLog _).bind fun _ => .pure _
      exact blind_update fun _ => rfl

theorem blind_nextWALZone (wal : Option Nat) (active : Nat) : Blind (nextWALZone wal active) := by
  refine .read_bind fun one two same => ?_
  rw [same.walZones]
  cases two.walZones[active + 1 - zenfsMetaZones - zenfsFlakyZones]? with
  | none => exact .fail _
  | some next =>
      cases wal with
      | some log => exact .pure _
      | none => exact (blind_openOnceLog _).bind fun _ => .pure _

theorem blind_allocateWALZone (wal activeZone : Option Nat) :
    Blind (allocateWALZone wal activeZone) := by
  refine (blind_update blank_releaseUnusedWALZones).bind fun _ => ?_
  cases activeZone with
  | none => exact blind_allocateWALGroup
  | some active =>
      simp only
      split
      · exact blind_allocateWALGroup
      · exact blind_nextWALZone _ _

theorem blind_closeZone (number : Nat) : Blind (closeZone number) := by
  refine .read_bind fun one two same => ?_
  rw [same.zone]
  split
  · exact .pure _
  · exact blind_request _

theorem blank_accept (zbd : ZonedBlockDevice) (call : AppendCall) :
    blank (zbd.accept call) = (blank zbd).accept { call with data := [] } := by
  rw [accept, blank_record]
  rfl

theorem alike_zoneAppend {call other : AppendCall}
    (same : { call with data := [] } = { other with data := [] }) :
    Program.Alike Same (zoneAppend call) (zoneAppend other) := by
  have zone : call.zone = other.zone := congrArg (fun call => call.zone) same
  have size : call.size = other.size := congrArg (fun call => call.size) same
  refine .read_bind fun one two agree => ?_
  rw [agree.zone, zone, size]
  split
  · exact .fail _
  · refine (blind_request _).bind fun _ => .update fun one two agree => ?_
    rw [Same, blank_accept, blank_accept, same, agree]

end ZonedBlockDevice

namespace FileState

/-- Two states of a log that agree in all but the bytes of the buffer and of earlier
entries. -/
structure Same (one two : FileState) : Prop where
  zbd : one.zbd.Same two.zbd
  file : one.file = two.file
  isWal : one.file.isWal = true

abbrev Blind (program : FileProgram Value) : Prop := Program.Alike Same program program

variable {one two : FileState}

theorem Same.symm (same : Same one two) : Same two one :=
  ⟨same.zbd.symm, same.file.symm, same.file ▸ same.isWal⟩

theorem Same.active (same : Same one two) : one.active = two.active := by
  rw [FileState.active, FileState.active, activeNumber, activeNumber, same.file, same.zbd.zone]

theorem alike_onDevice {first second : DeviceProgram Value}
    (alike : Program.Alike ZonedBlockDevice.Same first second) :
    Program.Alike Same (onDevice first) (onDevice second) :=
  alike.within (fun _ _ same => same.zbd) fun _ _ same _ _ next => ⟨next, same.file, same.isWal⟩

theorem blind_setFile {change : ZoneFile → ZoneFile}
    (kept : ∀ file, file.isWal = true → (change file).isWal = true) : Blind (setFile change) :=
  .update fun one _ same => ⟨same.zbd, congrArg change same.file, kept one.file same.isWal⟩

theorem blind_persistMetadata : Blind persistMetadata := by
  refine .read_bind fun one two same => ?_
  rw [same.file]
  split
  · split
    · exact .fail _
    · exact .pure _
  · refine (alike_onDevice (ZonedBlockDevice.blind_request _)).bind fun _ =>
      .update fun one two same => ⟨?_, ?_, same.isWal⟩
    · have zbd : one.zbd.blank = two.zbd.blank := same.zbd
      simp only [ZonedBlockDevice.Same, ZonedBlockDevice.blank_record, same.file, zbd]
    · simp only [same.file]

theorem blind_onceLogSync (log : Nat) (message : String) : Blind (onceLogSync log message) := by
  refine alike_onDevice ((ZonedBlockDevice.blind_reply 0).bind fun answer => ?_)
  split
  · exact (ZonedBlockDevice.blind_record _).bind fun _ => .fail _
  · exact ZonedBlockDevice.blind_record _

theorem blind_walSync : Blind walSync := by
  refine .read_bind fun one two same => ?_
  rw [same.file]
  cases two.file.wal with
  | none => exact .pure _
  | some log => exact blind_onceLogSync _ _

theorem blind_releaseActiveZone (number : Nat) : Blind (releaseActiveZone number) := by
  refine .read_bind fun one two same => ?_
  rw [same.zbd.zone]
  refine (alike_onDevice (ZonedBlockDevice.blind_closeZone number)).attempt.bind fun closed =>
    Program.Alike.bind ?_ fun _ => ?_
  · refine .update fun one two same => ⟨?_, ?_, same.isWal⟩
    · exact congrArg (fun zbd => ZonedBlockDevice.setBusy zbd number false) same.zbd
    · exact congrArg (fun file => { file with activeZone := none }) same.file
  · cases closed with
    | error failure => exact .fail _
    | ok =>
        refine Program.Alike.bind ?_ fun _ => ?_
        · exact alike_onDevice (ZonedBlockDevice.blind_update fun _ => rfl)
        · split
          · exact alike_onDevice (ZonedBlockDevice.blind_update fun _ => rfl)
          · exact .pure _

theorem blind_closeActiveZone : Blind closeActiveZone := by
  have sync : Blind syncBeforeClose := by
    refine .read_bind fun one two same => ?_
    rw [same.file]
    split
    · exact blind_onceLogSync _ _
    · exact .pure _
  refine sync.attempt.bind fun synced => .read_bind fun one two same => ?_
  rw [same.file]
  split
  · exact blind_releaseActiveZone _
  · exact .pure _
  · exact .fail _

theorem blind_grantZone : Blind grantZone := by
  refine .read_bind fun one two same => ?_
  rw [same.file, if_pos (same.file ▸ same.isWal)]
  refine (alike_onDevice (ZonedBlockDevice.blind_allocateWALZone _ _)).bind fun grant =>
    Program.Alike.bind ?_ fun _ => ?_
  · exact blind_setFile fun _ isWal => isWal
  · cases grant.status with
    | error failure => exact .fail _
    | ok => exact .pure _

theorem blind_allocateNewZone : Blind allocateNewZone := by
  refine blind_grantZone.bind fun granted => ?_
  cases granted with
  | none => exact .fail _
  | some number =>
      refine Program.Alike.bind (.update fun one two same => ⟨same.zbd, ?_, same.isWal⟩) fun _ =>
        blind_persistMetadata
      simp only [same.file, same.zbd.zone]

theorem blind_ensureActiveZone : Blind ensureActiveZone := by
  refine .read_bind fun one two same => ?_
  rw [same.file]
  cases two.file.activeZone with
  | some number => exact .pure _
  | none => exact blind_allocateNewZone

theorem blind_barrierSync (config : BuildConfig) : Blind (barrierSync config) := by
  refine .read_bind fun one two same => ?_
  rw [same.file]
  split
  · exact blind_walSync.bind fun _ => blind_setFile fun _ isWal => isWal
  · exact .pure _

theorem alike_sealSparse (wrSize extentLength : Nat) :
    Blind (Program.update (sealSparse wrSize extentLength)) :=
  .update fun one two same => ⟨same.zbd, by simp only [sealSparse, same.file], same.isWal⟩

theorem blind_writeActive (size extentLength seq left : Nat) :
    Blind (writeActive size extentLength seq left) := by
  refine .read_bind fun one two same => ?_
  rw [if_pos same.isWal, if_pos (same.file ▸ same.isWal), same.file]
  cases two.file.wal with
  | none => exact .fail _
  | some log =>
      refine (alike_onDevice (ZonedBlockDevice.alike_zoneAppend ?_)).bind fun _ =>
        blind_setFile fun _ isWal => isWal
      simp only [appendCall, activeNumber, same.file, same.active]

theorem blind_addExtent (header extentLength : Nat) :
    Blind (Program.update (addExtent header extentLength)) := by
  refine .update fun one two same => ⟨?_, ?_, same.isWal⟩
  · have zone := congrArg (fun (zbd : ZonedBlockDevice) => zbd.setZone two.activeNumber
      { two.active with usedCapacity := two.active.usedCapacity + .ofNat extentLength }) same.zbd
    simp only [addExtent, activeNumber, same.file, same.active]
    exact zone
  · simp only [addExtent, activeNumber, same.file, same.active]

theorem blind_leaveFullZone (target wrSize left : Nat) : Blind (leaveFullZone target wrSize left) := by
  refine .read_bind fun one two same => ?_
  rw [same.active]
  split
  · refine blind_closeActiveZone.bind fun _ => Program.Alike.bind ?_ fun _ => blind_allocateNewZone
    exact .update fun one two same => ⟨same.zbd, same.file, same.isWal⟩
  · exact .pure _

theorem Same.sparseWriteSize (same : Same one two) (config : BuildConfig) (left : Nat) :
    FileState.sparseWriteSize config one left = FileState.sparseWriteSize config two left := by
  simp only [FileState.sparseWriteSize, clipWrite, same.file, same.active]

theorem appendCalls_blank (trace : List IoEvent) :
    appendCalls (trace.map IoEvent.blank) =
      (appendCalls trace).map fun call => { call with data := [] } := by
  rw [appendCalls, appendCalls, List.filterMap_map, List.map_filterMap]
  congr 1
  funext event
  cases event with
  | zoneAppend => rfl
  | _ => rfl

theorem Same.calls {one two : FileState} (same : Same one two) :
    (appendCalls one.zbd.trace).map (fun call => { call with data := [] }) =
      (appendCalls two.zbd.trace).map fun call => { call with data := [] } := by
  have traces : one.zbd.trace.map IoEvent.blank = two.zbd.trace.map IoEvent.blank :=
    congrArg (fun zbd => zbd.trace) same.zbd
  rw [← appendCalls_blank, ← appendCalls_blank, traces]

theorem blind_sparseAppendPass (config : BuildConfig) (left : Nat) :
    Blind (sparseAppendPass config left) := by
  refine (blind_barrierSync config).bind fun _ => .read_bind fun one two same => ?_
  simp only [same.sparseWriteSize, same.file]
  exact (alike_sealSparse _ _).bind fun _ => (blind_writeActive _ _ _ _).bind fun _ =>
    (blind_addExtent _ _).bind fun _ => (blind_leaveFullZone _ _ _).bind fun _ => .pure _

end FileState

end Zwal
