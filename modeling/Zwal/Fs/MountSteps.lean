import Zwal.Fs.OperationSteps

/-! # What a mount does

The steps of `RecoverFrom` and `Repair`, and the invariants of a file system that is being
mounted: no file is open, and every extent lies in a zone of the device. -/

namespace Zwal.FileSystem

open ZonedBlockDevice FileState

/-! ## Decoding extents -/

def noted (replies : List Int) (events : List IoEvent) (zbd : ZonedBlockDevice) : ZonedBlockDevice :=
  { zbd with replies := replies, trace := zbd.trace ++ events }

/-- What the device does while it is mounted: write-ahead logs are opened and synced. -/
def IoEvent.Logging : IoEvent → Prop
  | .openLog _ | .walSync _ | .walSyncFailed _ => True
  | _ => False

/-- Whether an offset lies in the zone with this index among those of write-ahead logs. -/
def covers (zbd : ZonedBlockDevice) (offset index : Nat) : Bool :=
  match zbd.walZones[index]? with
  | none => false
  | some number =>
      (zbd.zone number).start ≤ offset && offset < (zbd.zone number).start + zbd.zoneSize

def coveringLog (zbd : ZonedBlockDevice) (offset : Nat) : Option Nat :=
  (walGroupIndices.find? (covers zbd offset)).map fun index =>
    index + zenfsMetaZones + zenfsFlakyZones

def placedExtent (zbd : ZonedBlockDevice) (extent : ZoneExtent) : Option ZoneExtent :=
  (zbd.getIOZone extent.start).map fun number => ⟨extent.start, extent.length, number⟩

def placed (zbd : ZonedBlockDevice) (extents : List ZoneExtent) : Option (List ZoneExtent) :=
  extents.mapM (placedExtent zbd)

theorem getWAL_cases (offset : Nat) (zbd : ZonedBlockDevice) :
    ∃ replies events, replies <:+ zbd.replies ∧ (∀ event ∈ events, IoEvent.Logging event) ∧
      getWAL offset zbd = (.ok (coveringLog zbd offset), noted replies events zbd) := by
  have unfolded : getWAL offset zbd = (match walGroupIndices.find? (covers zbd offset) with
      | none => pure none
      | some index => do
          let _ ← openOnceLog (index + zenfsMetaZones + zenfsFlakyZones)
          pure (some (index + zenfsMetaZones + zenfsFlakyZones)) : DeviceProgram (Option Nat)) zbd :=
    rfl
  rw [unfolded, coveringLog]
  cases walGroupIndices.find? (covers zbd offset) with
  | none =>
      refine ⟨zbd.replies, [], List.suffix_rfl, nofun, ?_⟩
      simp only [noted, List.append_nil]
      rfl
  | some index =>
      rcases request_cases (.ioError "WAL recover error")
        (zbd.record (.openLog (index + zenfsMetaZones + zenfsFlakyZones))) with ⟨replies, shorter, run⟩
      refine ⟨replies, [.openLog (index + zenfsMetaZones + zenfsFlakyZones)], shorter, ?_, ?_⟩
      · intro event member
        rw [List.mem_singleton.mp member]
        trivial
      · simp only
        rw [openOnceLog, Program.bind_assoc, bind_update]
        rcases run with run | ⟨_, run⟩
        all_goals
          rw [bind_attempt run]
          rfl

theorem getIOZone_fixed {before after : ZonedBlockDevice} (fixed : Fixed before after)
    (offset : Nat) : after.getIOZone offset = before.getIOZone offset := by
  simp only [getIOZone, fixed.ioZones, fixed.walZones, fixed.zoneSize, fixed.start]

theorem coveringLog_fixed {before after : ZonedBlockDevice} (fixed : Fixed before after)
    (offset : Nat) : coveringLog after offset = coveringLog before offset := by
  have same : covers after offset = covers before offset := by
    funext index
    simp only [covers, fixed.walZones, fixed.zoneSize, fixed.start]
  rw [coveringLog, coveringLog, same]

theorem noted_fixed (replies : List Int) (events : List IoEvent) (zbd : ZonedBlockDevice) :
    Fixed zbd (noted replies events zbd) :=
  .withTokens _ _ _ _ _

theorem addUsed_fixed (zbd : ZonedBlockDevice) (extents : List ZoneExtent) :
    Fixed zbd (extents.foldl addUsed zbd) := by
  induction extents generalizing zbd with
  | nil => exact .refl _
  | cons extent extents induction =>
      have moved : Fixed zbd (addUsed zbd extent) := .setZone rfl
      exact moved.trans (induction _)

theorem foldl_addUsed_noted (extents : List ZoneExtent) (replies : List Int)
    (events : List IoEvent) (zbd : ZonedBlockDevice) :
    extents.foldl addUsed (noted replies events zbd) =
      noted replies events (extents.foldl addUsed zbd) := by
  induction extents generalizing zbd with
  | nil => rfl
  | cons extent extents induction =>
      rw [List.foldl_cons, List.foldl_cons]
      exact induction (addUsed zbd extent)

theorem noted_nil (replies : List Int) (zbd : ZonedBlockDevice) :
    noted replies [] zbd = { zbd with replies := replies } := by
  rw [noted, List.append_nil]

theorem noted_noted (later : List Int) (first second : List IoEvent) (replies : List Int)
    (zbd : ZonedBlockDevice) :
    noted later second (noted replies first zbd) = noted later (first ++ second) zbd := by
  simp only [noted, List.append_assoc]

def walOf (zbd : ZonedBlockDevice) (extents : List ZoneExtent) : Option Nat :=
  extents.findSome? fun extent => coveringLog zbd extent.start

theorem placed_cons (zbd : ZonedBlockDevice) (extent : ZoneExtent) (extents : List ZoneExtent) :
    placed zbd (extent :: extents) =
      match placedExtent zbd extent, placed zbd extents with
      | some first, some rest => some (first :: rest)
      | _, _ => none := by
  simp only [placed, List.mapM_cons]
  cases placedExtent zbd extent with
  | none => rfl
  | some => cases extents.mapM (placedExtent zbd) <;> rfl

theorem placed_fixed {before after : ZonedBlockDevice} (fixed : Fixed before after)
    (extents : List ZoneExtent) : placed after extents = placed before extents := by
  have same : placedExtent after = placedExtent before := by
    funext extent
    rw [placedExtent, placedExtent, getIOZone_fixed fixed]
  rw [placed, placed, same]

theorem walOf_fixed {before after : ZonedBlockDevice} (fixed : Fixed before after)
    (extents : List ZoneExtent) : walOf after extents = walOf before extents := by
  simp only [walOf, coveringLog_fixed fixed]

theorem keepWal_cases (wal : Option Nat) (offset : Nat) (zbd : ZonedBlockDevice) :
    ∃ replies events, replies <:+ zbd.replies ∧ (∀ event ∈ events, IoEvent.Logging event) ∧
      (if wal.isSome then pure wal else getWAL offset : DeviceProgram (Option Nat)) zbd =
        (.ok (wal <|> coveringLog zbd offset), noted replies events zbd) := by
  cases wal with
  | none => exact getWAL_cases offset zbd
  | some log =>
      refine ⟨zbd.replies, [], List.suffix_rfl, nofun, ?_⟩
      simp only [noted, List.append_nil]
      rfl

theorem walOf_cons (zbd : ZonedBlockDevice) (extent : ZoneExtent) (extents : List ZoneExtent) :
    walOf zbd (extent :: extents) = (coveringLog zbd extent.start <|> walOf zbd extents) := by
  rw [walOf, List.findSome?_cons]
  cases coveringLog zbd extent.start with
  | none | some => rfl

theorem decodeExtents_cons {zbd : ZonedBlockDevice} {extent : ZoneExtent} {number : Nat}
    (found : zbd.getIOZone extent.start = some number) (rest : List ZoneExtent) (file : ZoneFile) :
    decodeExtents (extent :: rest) file zbd =
      ((if file.wal.isSome then pure file.wal else getWAL extent.start : DeviceProgram (Option Nat)) >>=
        fun wal => decodeExtents rest { file with
          extents := file.extents ++ [⟨extent.start, extent.length, number⟩], wal := wal })
        (addUsed zbd ⟨extent.start, extent.length, number⟩) := by
  rw [decodeExtents, bind_read]
  simp only [found]
  rw [bind_update]
  cases file.wal with
  | none | some => rfl

theorem decodeExtents_cases (extents : List ZoneExtent) (file : ZoneFile) (zbd : ZonedBlockDevice) :
    match placed zbd extents with
    | none => ∃ next, decodeExtents extents file zbd = (.error (.corruption "Invalid zone extent"), next)
    | some decoded => ∃ replies events, replies <:+ zbd.replies ∧
        (∀ event ∈ events, IoEvent.Logging event) ∧
        decodeExtents extents file zbd =
          (.ok { file with
              extents := file.extents ++ decoded
              wal := file.wal <|> walOf zbd extents },
            noted replies events (decoded.foldl addUsed zbd)) := by
  induction extents generalizing file zbd with
  | nil =>
      refine ⟨zbd.replies, [], List.suffix_rfl, nofun, ?_⟩
      simp [decodeExtents, walOf, noted, Pure.pure]
  | cons extent extents induction =>
      rw [placed_cons, placedExtent]
      cases found : zbd.getIOZone extent.start with
      | none =>
          refine ⟨zbd, ?_⟩
          rw [decodeExtents, bind_read]
          simp only [found]
          rfl
      | some number =>
          have counted : Fixed zbd (addUsed zbd ⟨extent.start, extent.length, number⟩) := .setZone rfl
          rcases keepWal_cases file.wal extent.start
            (addUsed zbd ⟨extent.start, extent.length, number⟩) with
            ⟨replies, events, shorter, logging, run⟩
          have fixed := counted.trans (noted_fixed replies events _)
          have onward := induction { file with
              extents := file.extents ++ [⟨extent.start, extent.length, number⟩]
              wal := file.wal <|> coveringLog zbd extent.start }
            (noted replies events (addUsed zbd ⟨extent.start, extent.length, number⟩))
          rw [placed_fixed fixed, walOf_fixed fixed] at onward
          rw [coveringLog_fixed counted] at run
          rw [decodeExtents_cons found, bind_of_ok run]
          simp only [Option.map_some]
          cases rest : placed zbd extents with
          | none =>
              simp only [rest] at onward ⊢
              exact onward
          | some decoded =>
              simp only [rest] at onward ⊢
              rcases onward with ⟨later, more, shorterStill, loggingStill, run⟩
              refine ⟨later, events ++ more, shorterStill.trans shorter, ?_, ?_⟩
              · intro event member
                rcases List.mem_append.mp member with early | late
                · exact logging event early
                · exact loggingStill event late
              · rw [run, foldl_addUsed_noted, noted_noted, walOf_cons, List.append_assoc]
                simp only [List.singleton_append, List.foldl_cons]
                cases file.wal with
                | none | some => rfl

/-! ## The steps of a mount -/

/-- A file nobody writes to; whether it is a write-ahead log is not known after a mount. -/
structure ZoneFile.Idle (file : ZoneFile) : Prop where
  activeZone : file.activeZone = none
  isWal : file.isWal = false
  openForWr : file.openForWr = false

inductive MountStep : FileSystem → FileSystem → Prop
  | note {fs replies events} : replies <:+ fs.zbd.replies →
      (∀ event ∈ events, IoEvent.Logging event) →
      MountStep fs { fs with zbd := noted replies events fs.zbd }
  | decode {fs file} (nextFileId) : ZoneFile.Idle file →
      (∀ extent ∈ file.extents, extent.zone ∈ fs.zbd.ioZones ++ fs.zbd.walZones) →
      MountStep fs { fs with
        zbd := file.extents.foldl addUsed fs.zbd
        objects := fs.objects ++ [{ file := file }]
        nextFileId := nextFileId }
  | names {fs files} : (Referring fs → Referring { fs with files := files }) →
      MountStep fs { fs with files := files }
  | grow {fs k file extents} : k < fs.objects.length →
      file.extents = (fs.object k).file.extents ++ extents → ZoneFile.Idle file →
      (∀ extent ∈ extents, extent.zone ∈ fs.zbd.ioZones ++ fs.zbd.walZones) →
      MountStep fs ({ fs with zbd := extents.foldl addUsed fs.zbd }.setObject k
        { fs.object k with file := file })
  | clear {fs k} : k < fs.objects.length → MountStep fs
      ({ fs with zbd := (fs.object k).file.extents.foldl removeUsed fs.zbd }.setObject k
        { fs.object k with file := { (fs.object k).file with extents := [] } })
  | destroy {fs k} : MountStep fs (fs.destroyed k)
  | roll {fs k} (metaLog) : MountStep fs { fs.markSynced k with metaLog := metaLog }

def MountSteps : FileSystem → FileSystem → Prop := Relation.ReflTransGen MountStep

theorem MountStep.steps {before after : FileSystem} (step : MountStep before after) :
    MountSteps before after :=
  .single step

instance : Std.Refl MountSteps := ⟨fun _ => .refl⟩

instance : IsTrans FileSystem MountSteps := ⟨fun _ _ _ one two => one.trans two⟩

/-- How a part of a mount ends. A mount that fails leaves no file system. -/
abbrev Mounted (fs : FileSystem) (post : Value → FileSystem → Prop) :=
  Program.Along MountSteps (fun _ : IOStatus => True) fs post

structure Recovering (fs : FileSystem) : Prop where
  idle : ∀ k, ZoneFile.Idle (fs.object k).file
  unopened : ∀ k, (fs.object k).writer = none ∧ (fs.object k).readers = 0
  zones : ∀ k, ∀ extent ∈ (fs.object k).file.extents,
    extent.zone ∈ fs.zbd.ioZones ++ fs.zbd.walZones
  referring : Referring fs

theorem idle_blank : ZoneFile.Idle ({} : FileObject).file := ⟨rfl, rfl, rfl⟩

theorem MountStep.fixed {before after : FileSystem} (step : MountStep before after) :
    Fixed before.zbd after.zbd := by
  cases step with
  | note => exact noted_fixed _ _ _
  | decode | grow => exact addUsed_fixed _ _
  | names | roll => exact .refl _
  | clear | destroy => exact removeUsed_fixed _ _

theorem MountSteps.fixed {before after : FileSystem} (steps : MountSteps before after) :
    Fixed before.zbd after.zbd := by
  induction steps with
  | refl => exact .refl _
  | tail _ step induction => exact induction.trans step.fixed

theorem Recovering.setObject {before after : FileSystem} (recovering : Recovering before) (k : Nat)
    (fixed : Fixed before.zbd after.zbd) (referring : Referring after)
    (others : ∀ j, j ≠ k → after.object j = before.object j)
    (idle : ZoneFile.Idle (after.object k).file)
    (unopened : (after.object k).writer = none ∧ (after.object k).readers = 0)
    (zones : ∀ extent ∈ (after.object k).file.extents,
      extent.zone ∈ before.zbd.ioZones ++ before.zbd.walZones) : Recovering after := by
  refine ⟨fun j => ?_, fun j => ?_, fun j => ?_, referring⟩
  · by_cases here : j = k
    · exact here ▸ idle
    · rw [others j here]
      exact recovering.idle j
  · by_cases here : j = k
    · exact here ▸ unopened
    · rw [others j here]
      exact recovering.unopened j
  · rw [fixed.ioZones, fixed.walZones]
    by_cases here : j = k
    · exact here ▸ zones
    · rw [others j here]
      exact recovering.zones j

theorem MountStep.recovering {before after : FileSystem} (step : MountStep before after)
    (recovering : Recovering before) : Recovering after := by
  have fixed := step.fixed
  cases step with
  | note => exact ⟨recovering.idle, recovering.unopened, recovering.zones, recovering.referring⟩
  | @decode file nextFileId idle zones =>
      have objects (j : Nat) : ({ before with
          zbd := file.extents.foldl addUsed before.zbd
          objects := before.objects ++ [{ file := file }]
          nextFileId := nextFileId } : FileSystem).object j =
            if j = before.objects.length then { file := file } else before.object j :=
        object_append before { file := file } nextFileId j
      refine recovering.setObject before.objects.length fixed ?_ (fun j different => ?_) ?_ ?_ ?_
      · intro entry member
        have inside := recovering.referring entry member
        simp only [List.length_append]
        omega
      · rw [objects, if_neg different]
      all_goals rw [objects, if_pos rfl]
      · exact idle
      · exact ⟨rfl, rfl⟩
      · exact zones
  | names kept =>
      exact ⟨recovering.idle, recovering.unopened, recovering.zones, kept recovering.referring⟩
  | @grow k file extents inside same idle zones =>
      have held : FileSystem.object (FileSystem.setObject k { before.object k with file := file }
          { before with zbd := extents.foldl addUsed before.zbd }) k =
            { before.object k with file := file } := object_setObject inside _
      refine recovering.setObject k fixed ?_ (fun j different => ?_) ?_ ?_ ?_
      · intro entry member
        exact List.length_set.symm ▸ recovering.referring entry member
      · exact object_setObject_of_ne different _
      all_goals rw [held]
      · exact idle
      · exact recovering.unopened k
      · rw [same]
        intro extent member
        rcases List.mem_append.mp member with early | late
        · exact recovering.zones k extent early
        · exact zones extent late
  | @clear k inside =>
      have held : FileSystem.object (FileSystem.setObject k
          { before.object k with file := { (before.object k).file with extents := [] } }
          { before with zbd := (before.object k).file.extents.foldl removeUsed before.zbd }) k =
            { before.object k with file := { (before.object k).file with extents := [] } } :=
        object_setObject inside _
      refine recovering.setObject k fixed ?_ (fun j different => ?_) ?_ ?_ ?_
      · intro entry member
        exact List.length_set.symm ▸ recovering.referring entry member
      · exact object_setObject_of_ne different _
      all_goals rw [held]
      · have idle := recovering.idle k
        exact ⟨idle.activeZone, idle.isWal, idle.openForWr⟩
      · exact recovering.unopened k
      · exact List.forall_mem_nil _
  | @destroy k =>
      refine recovering.setObject k fixed ?_ (fun j different => ?_) ?_ ?_ ?_
      · intro entry member
        rw [destroyed, FileSystem.setObject]
        rw [List.length_set]
        exact recovering.referring entry member
      · rw [object_destroyed, if_neg different]
      all_goals rw [object_destroyed, if_pos rfl]
      · exact idle_blank
      · exact ⟨rfl, rfl⟩
      · exact List.forall_mem_nil _
  | @roll k metaLog =>
      have same (j : Nat) : ({ before.markSynced k with metaLog := metaLog } : FileSystem).object j =
          (before.markSynced k).object j := rfl
      refine ⟨fun j => ?_, fun j => ?_, fun j => ?_, fun entry member => ?_⟩
      all_goals try
        rw [same]
        rcases markSynced_counted k before j with ⟨count, marked⟩
        rw [marked]
      · have idle := recovering.idle j
        exact ⟨idle.activeZone, idle.isWal, idle.openForWr⟩
      · exact recovering.unopened j
      · exact recovering.zones j
      · have inside := recovering.referring entry member
        simpa [markSynced] using inside

theorem MountSteps.recovering {before after : FileSystem} (steps : MountSteps before after)
    (recovering : Recovering before) : Recovering after := by
  induction steps with
  | refl => exact recovering
  | tail _ step induction => exact step.recovering induction

/-! ## `RecoverFrom` is made of these steps -/

def decodedFile (config : BuildConfig) (record : FileRecord) (extents decoded : List ZoneExtent)
    (wal : Option Nat) : ZoneFile :=
  { fileId := record.fileId, fileSize := record.fileSize, lifetime := record.lifetime
    walSeq := record.walSeq.getD 0, mTime := record.mTime, extentStart := record.extentStart
    isSparse := record.isSparse, linkfiles := record.linkfiles
    appendBytesSinceLastBarrier :=
      if record.walSeq.isSome then
        (record.fileSize + decodedPadding extents) % config.walBarrierSize
      else 0
    extents := decoded, wal := wal, nrSyncedExtents := decoded.length }

def withDecoded (record : FileRecord) (file : ZoneFile) (fs : FileSystem) : FileSystem :=
  { fs with
    zbd := file.extents.foldl addUsed fs.zbd
    objects := fs.objects ++ [{ file := file }]
    nextFileId := max fs.nextFileId (record.fileId + 1) }

def quietly (replies : List Int) (events : List IoEvent) (fs : FileSystem) : FileSystem :=
  { fs with zbd := noted replies events fs.zbd }

theorem withDecoded_quietly (record : FileRecord) (file : ZoneFile) (replies : List Int)
    (events : List IoEvent) (fs : FileSystem) :
    (fs.quietly replies events).withDecoded record file =
      (fs.withDecoded record file).quietly replies events := by
  simp only [withDecoded, quietly, foldl_addUsed_noted]

theorem onDevice_of_ok {fs : FileSystem} {program : DeviceProgram Value} {value : Value}
    {zbd : ZonedBlockDevice} (run : program fs.zbd = (.ok value, zbd)) :
    onDevice program fs = (.ok value, { fs with zbd := zbd }) := by
  simp only [onDevice, Program.within, run]

theorem onDevice_of_error {fs : FileSystem} {program : DeviceProgram Value} {failure : IOStatus}
    {zbd : ZonedBlockDevice} (run : program fs.zbd = (.error failure, zbd)) :
    onDevice program fs = (.error failure, { fs with zbd := zbd }) := by
  simp only [onDevice, Program.within, run]

theorem decodeFrom_of_placed (config : BuildConfig) {record : FileRecord}
    {extents decoded : List ZoneExtent} {fs : FileSystem}
    (found : placed fs.zbd extents = some decoded) (named : "" ∉ record.linkfiles) :
    ∃ replies events, replies <:+ fs.zbd.replies ∧ (∀ event ∈ events, IoEvent.Logging event) ∧
      decodeFrom config record extents fs =
        (.ok fs.objects.length, (fs.withDecoded record
          (decodedFile config record extents decoded (walOf fs.zbd extents))).quietly replies events) := by
  have spec := decodeExtents_cases extents
    { fileId := record.fileId, fileSize := record.fileSize, lifetime := record.lifetime
      walSeq := record.walSeq.getD 0, mTime := record.mTime, extentStart := record.extentStart
      isSparse := record.isSparse, linkfiles := record.linkfiles
      appendBytesSinceLastBarrier :=
        if record.walSeq.isSome then
          (record.fileSize + decodedPadding extents) % config.walBarrierSize
        else 0 } fs.zbd
  simp only [found] at spec
  rcases spec with ⟨replies, events, shorter, logging, run⟩
  refine ⟨replies, events, shorter, logging, ?_⟩
  have decodedOn := @onDevice_of_ok _ fs _ _ _ run
  rw [decodeFrom, bind_of_ok decodedOn, if_neg named, bind_read, bind_update]
  rfl

theorem decodeFrom_of_unplaced (config : BuildConfig) {record : FileRecord}
    {extents : List ZoneExtent} {fs : FileSystem}
    (missing : placed fs.zbd extents = none ∨ "" ∈ record.linkfiles) :
    ∃ failure next, decodeFrom config record extents fs = (.error failure, next) := by
  have spec := decodeExtents_cases extents
    { fileId := record.fileId, fileSize := record.fileSize, lifetime := record.lifetime
      walSeq := record.walSeq.getD 0, mTime := record.mTime, extentStart := record.extentStart
      isSparse := record.isSparse, linkfiles := record.linkfiles
      appendBytesSinceLastBarrier :=
        if record.walSeq.isSome then
          (record.fileSize + decodedPadding extents) % config.walBarrierSize
        else 0 } fs.zbd
  cases found : placed fs.zbd extents with
  | none =>
      simp only [found] at spec
      rcases spec with ⟨next, run⟩
      exact ⟨_, _, bind_of_error (@onDevice_of_error _ fs _ _ _ run)⟩
  | some decoded =>
      simp only [found] at spec
      rcases spec with ⟨replies, events, _, _, run⟩
      have unnamed : "" ∈ record.linkfiles := missing.resolve_left (by simp [found])
      exact ⟨.corruption "Zero length Linkfilename", _,
        (bind_of_ok (@onDevice_of_ok _ fs _ _ _ run)).trans (congrFun (if_pos unnamed) _)⟩

theorem mem_zones_of_getIOZone {zbd : ZonedBlockDevice} {offset number : Nat}
    (found : zbd.getIOZone offset = some number) : number ∈ zbd.ioZones ++ zbd.walZones :=
  List.mem_of_find?_eq_some found

theorem placed_zones {zbd : ZonedBlockDevice} {extents decoded : List ZoneExtent}
    (found : placed zbd extents = some decoded) :
    ∀ extent ∈ decoded, zbd.getIOZone extent.start = some extent.zone := by
  induction extents generalizing decoded with
  | nil =>
      cases found
      exact nofun
  | cons extent extents induction =>
      rw [placed_cons] at found
      cases first : placedExtent zbd extent with
      | none => simp [first] at found
      | some head =>
          cases rest : placed zbd extents with
          | none => simp [first, rest] at found
          | some tail =>
              simp only [first, rest, Option.some.injEq] at found
              subst found
              rw [placedExtent, Option.map_eq_some_iff] at first
              rcases first with ⟨number, there, rfl⟩
              intro other member
              rcases List.mem_cons.mp member with rfl | later
              · exact there
              · exact induction rest other later

theorem MountStep.length {before after : FileSystem} (step : MountStep before after) :
    before.objects.length ≤ after.objects.length := by
  cases step with
  | note | names => exact Nat.le_refl _
  | decode => simp
  | grow | clear | destroy => exact Nat.le_of_eq List.length_set.symm
  | roll => simp [markSynced]

theorem MountSteps.length {before after : FileSystem} (steps : MountSteps before after) :
    before.objects.length ≤ after.objects.length := by
  induction steps with
  | refl => exact Nat.le_refl _
  | tail _ step induction => exact induction.trans step.length

theorem decodeFrom_mounted (config : BuildConfig) (record : FileRecord) (extents : List ZoneExtent)
    (fs : FileSystem) :
    Mounted fs (fun j next => j < next.objects.length) (decodeFrom config record extents fs) := by
  by_cases missing : placed fs.zbd extents = none ∨ "" ∈ record.linkfiles
  · rcases decodeFrom_of_unplaced config missing with ⟨failure, next, run⟩
    rw [run]
    exact .inl trivial
  · rw [not_or, ← ne_eq, Option.ne_none_iff_exists'] at missing
    rcases missing with ⟨⟨decoded, found⟩, named⟩
    rcases decodeFrom_of_placed config found named with ⟨replies, events, shorter, logging, run⟩
    rw [run]
    have zones : ∀ extent ∈ decoded, extent.zone ∈ fs.zbd.ioZones ++ fs.zbd.walZones :=
      fun extent member => mem_zones_of_getIOZone (placed_zones found extent member)
    have first : MountStep fs (fs.quietly replies events) := .note shorter logging
    have second : MountStep (fs.quietly replies events) ((fs.quietly replies events).withDecoded record
        (decodedFile config record extents decoded (walOf fs.zbd extents))) :=
      .decode _ ⟨rfl, rfl, rfl⟩ zones
    rw [withDecoded_quietly] at second
    refine ⟨first.steps.tail second, ?_⟩
    simp [withDecoded, quietly]

/-! ## The last reference -/

theorem persisted_logging {events : List IoEvent} (logging : ∀ event ∈ events, IoEvent.Logging event) :
    persisted events = [] := by
  rw [persisted, List.filterMap_eq_nil_iff]
  intro event member
  have kind := logging event member
  cases event with
  | persist => cases kind
  | _ => rfl

theorem place_noted {fs : FileSystem} {k : Nat} (inside : k < fs.objects.length)
    {events : List IoEvent} (logging : ∀ event ∈ events, IoEvent.Logging event)
    (replies : List Int) :
    fs.place k { fs.view k with zbd := noted replies events fs.zbd } = fs.quietly replies events := by
  have self := (sees_view fs k).place_self inside
  rw [place_eq] at self ⊢
  have none : persisted ((fs.view k).zbd.trace.drop fs.zbd.trace.length) = [] := by
    rw [show (fs.view k).zbd.trace.drop fs.zbd.trace.length = [] from List.drop_length]
    rfl
  have still : persisted ((noted replies events fs.zbd).trace.drop fs.zbd.trace.length) = [] := by
    rw [noted, List.drop_left]
    exact persisted_logging logging
  rw [none] at self
  rw [still]
  have same : fs.settle k { fs.view k with zbd := noted replies events fs.zbd } =
      (fs.settle k (fs.view k)).quietly replies events := rfl
  rw [same]
  exact congrArg (quietly replies events) self

theorem walSync_cases (state : FileState) :
    ∃ replies events outcome, replies <:+ state.zbd.replies ∧
      (∀ event ∈ events, IoEvent.Logging event) ∧
      walSync state = (outcome, { state with zbd := noted replies events state.zbd }) := by
  cases opened : state.file.wal with
  | none =>
      refine ⟨state.zbd.replies, [], .ok (), List.suffix_rfl, List.forall_mem_nil _, ?_⟩
      rw [walSync_of_closed opened]
      simp only [noted, List.append_nil]
  | some log =>
      rw [walSync_of_open opened]
      rcases reply_cases 0 state.zbd with ⟨answer, replies, shorter, _, answered⟩
      simp only [onceLogSync, FileState.onDevice, Program.within, bind_of_ok answered]
      by_cases negative : answer < 0
      · rw [if_pos negative]
        refine ⟨replies, [.walSyncFailed log], .error _, shorter, ?_, rfl⟩
        intro event member
        rw [List.mem_singleton.mp member]
        trivial
      · rw [if_neg negative]
        refine ⟨replies, [.walSync log], .ok (), shorter, ?_, rfl⟩
        intro event member
        rw [List.mem_singleton.mp member]
        trivial

theorem destroy_cases {fs : FileSystem} {k : Nat} (inside : k < fs.objects.length) :
    ∃ replies events, replies <:+ fs.zbd.replies ∧ (∀ event ∈ events, IoEvent.Logging event) ∧
      destroy k fs = (.ok (), (fs.quietly replies events).destroyed k) := by
  rcases walSync_cases (fs.view k) with ⟨replies, events, outcome, shorter, logging, run⟩
  refine ⟨replies, events, shorter, logging, ?_⟩
  have synced : (onObject k walSync fs).2 = fs.quietly replies events := by
    rw [onObject, run]
    exact place_noted inside logging replies
  rw [destroy_eq, synced]

theorem destroy_mounted {fs : FileSystem} {k : Nat} (inside : k < fs.objects.length) :
    Mounted fs (fun _ next => next.files = fs.files) (destroy k fs) := by
  rcases destroy_cases inside with ⟨replies, events, shorter, logging, run⟩
  rw [run]
  have first : MountStep fs (fs.quietly replies events) := .note shorter logging
  exact ⟨first.steps.tail .destroy, rfl⟩

theorem release_mounted {fs : FileSystem} {k : Nat} (inside : k < fs.objects.length) :
    Mounted fs (fun _ next => next.files = fs.files) (release k fs) := by
  rw [release, bind_read]
  split
  · exact .here rfl
  · exact destroy_mounted inside

/-! ## Records -/

theorem eraseName_mounted (name : String) (fs : FileSystem) : MountStep fs (fs.eraseName name) := by
  refine .names fun referring => ?_
  exact (Relabelled.eraseName name fs).referring referring

theorem insertLinks_mounted (names : List String) {fs : FileSystem} {k : Nat}
    (inside : k < fs.objects.length) : MountSteps fs (fs.insertLinks names k) := by
  induction names generalizing fs with
  | nil => exact .refl
  | cons name names induction =>
      have kept := (Relabelled.insertName inside name).referring
      have first : MountStep fs (fs.insertName name k) := by
        rw [insertName] at kept ⊢
        split
        · exact @MountStep.names _ fs.files id
        · rename_i absent
          rw [if_neg absent] at kept
          exact .names kept
      have there : k < (fs.insertName name k).objects.length :=
        Nat.lt_of_lt_of_le inside first.length
      exact first.steps.trans (induction there)

theorem eraseLinks_mounted (names : List String) (fs : FileSystem) :
    Mounted fs (fun _ _ => True) (eraseLinks names fs) := by
  induction names generalizing fs with
  | nil => exact .here trivial
  | cons name names induction =>
      rw [eraseLinks, bind_read]
      split
      · rw [bind_update]
        exact (induction _).after (eraseName_mounted name fs).steps
      · exact .inl trivial

def mergedFile (file change : ZoneFile) : ZoneFile :=
  { file with
    fileSize := change.fileSize
    lifetime := change.lifetime
    mTime := change.mTime
    walSeq := max file.walSeq change.walSeq
    extents := file.extents ++ change.extents
    extentStart := change.extentStart
    isSparse := change.isSparse
    nrSyncedExtents := (file.extents ++ change.extents).length
    linkfiles := change.linkfiles }

/-- `MergeUpdate` once the extents of a replaced file are gone. -/
def merged (k j : Nat) (fs : FileSystem) : FileSystem :=
  { fs with zbd := (fs.object j).file.extents.foldl addUsed fs.zbd }.setObject k
    { fs.object k with file := mergedFile (fs.object k).file (fs.object j).file }

theorem mergeUpdate_eq (k j : Nat) (replace : Bool) (fs : FileSystem) :
    mergeUpdate k j replace fs =
      (.ok (), (if replace then (clearExtents k fs).2 else fs).merged k j) := by
  cases replace with
  | false => rfl
  | true => rfl

theorem merged_mounted {fs : FileSystem} (recovering : Recovering fs) {k : Nat}
    (inside : k < fs.objects.length) (j : Nat) : MountStep fs (fs.merged k j) := by
  have idle := recovering.idle k
  exact .grow inside rfl ⟨idle.activeZone, idle.isWal, idle.openForWr⟩ (recovering.zones j)

theorem mergeUpdate_mounted {fs : FileSystem} (recovering : Recovering fs) {k : Nat}
    (inside : k < fs.objects.length) (j : Nat) (replace : Bool) :
    Mounted fs (fun _ _ => True) (mergeUpdate k j replace fs) := by
  rw [mergeUpdate_eq]
  cases replace with
  | false => exact ⟨(merged_mounted recovering inside j).steps, trivial⟩
  | true =>
      have cleared : MountStep fs (clearExtents k fs).2 := .clear inside
      have there := Nat.lt_of_lt_of_le inside cleared.length
      have merged := merged_mounted (cleared.recovering recovering) there j
      exact ⟨cleared.steps.tail merged, trivial⟩

theorem decodeFileUpdateFrom_mounted (config : BuildConfig) {fs : FileSystem}
    (recovering : Recovering fs) (record : FileRecord) (replace : Bool) :
    Mounted fs (fun _ _ => True) (decodeFileUpdateFrom config record replace fs) := by
  refine (decodeFrom_mounted config record _ fs).bind fun j middle steps there => ?_
  have still := steps.recovering recovering
  rw [bind_read]
  cases found : middle.files.find? fun entry =>
      (middle.object entry.2).file.fileId == record.fileId with
  | some entry =>
      have inside := still.referring entry (List.mem_of_find?_eq_some found)
      refine (eraseLinks_mounted _ middle).bind fun _ erased early _ => ?_
      have kept := Nat.lt_of_lt_of_le inside early.length
      refine (mergeUpdate_mounted (early.recovering still) kept j replace).bind
        fun _ merged late _ => ?_
      have beside := Nat.lt_of_lt_of_le there (MountSteps.length (early.trans late))
      refine (destroy_mounted beside).bind fun _ last more _ => ?_
      have within := Nat.lt_of_lt_of_le inside (MountSteps.length ((early.trans late).trans more))
      have linked := insertLinks_mounted record.linkfiles within
      rw [bind_update]
      refine Program.Along.after linked ?_
      exact (release_mounted (Nat.lt_of_lt_of_le within linked.length)).weaken fun _ _ _ => trivial
  | none =>
      cases record.linkfiles with
      | nil => exact .inl trivial
      | cons name names =>
          have linked := insertLinks_mounted [name] there
          simp only
          rw [bind_update]
          refine Program.Along.after linked ?_
          exact (release_mounted (Nat.lt_of_lt_of_le there linked.length)).weaken fun _ _ _ => trivial

theorem decodeSnapshotFrom_mounted (config : BuildConfig) (records : List FileRecord)
    (fs : FileSystem) :
    Mounted fs (fun _ _ => True) (decodeSnapshotFrom config records fs) := by
  induction records generalizing fs with
  | nil => exact .here trivial
  | cons record records induction =>
      refine (decodeFrom_mounted config record _ fs).bind fun j middle steps there => ?_
      have linked := insertLinks_mounted record.linkfiles there
      rw [bind_update]
      refine Program.Along.after linked ?_
      refine (release_mounted (Nat.lt_of_lt_of_le there linked.length)).bind fun _ last _ _ => ?_
      exact induction last

theorem decodeFileDeletionFrom_mounted {fs : FileSystem} (recovering : Recovering fs)
    (fileId : Nat) (name : String) :
    Mounted fs (fun _ _ => True) (decodeFileDeletionFrom fileId name fs) := by
  rw [decodeFileDeletionFrom, bind_read]
  cases found : fs.getFile name with
  | none => exact .inl trivial
  | some k =>
      have inside : k < fs.objects.length := recovering.referring _ (mem_of_getFile found)
      have erased := eraseName_mounted name fs
      simp only
      split
      · exact .inl trivial
      · rw [bind_update]
        by_cases linked : name ∈ ((fs.eraseName name).object k).file.linkfiles
        · rw [bind_of_ok (attempt_of_eq (removeLinkName_of_mem linked))]
          have idle := recovering.idle k
          have relinked : MountStep (fs.eraseName name) ((fs.eraseName name).relink k
              (((fs.eraseName name).object k).file.linkfiles.erase name)) :=
            @MountStep.grow _ _ _ [] inside (List.append_nil _).symm
              ⟨idle.activeZone, idle.isWal, idle.openForWr⟩ nofun
          refine Program.Along.after (erased.steps.tail relinked) ?_
          exact (release_mounted (Nat.lt_of_lt_of_le inside relinked.length)).weaken
            fun _ _ _ => trivial
        · rw [bind_of_ok (attempt_of_eq (removeLinkName_of_not_mem linked))]
          exact .inl trivial

theorem releaseAll_mounted (numbers : List Nat) {fs : FileSystem}
    (inside : ∀ k ∈ numbers, k < fs.objects.length) :
    Mounted fs (fun _ _ => True) (releaseAll numbers fs) := by
  induction numbers generalizing fs with
  | nil => exact .here trivial
  | cons k numbers induction =>
      refine (release_mounted (inside k List.mem_cons_self)).bind fun _ middle steps _ => ?_
      refine induction fun other member => ?_
      exact Nat.lt_of_lt_of_le (inside other (List.mem_cons_of_mem _ member)) steps.length

theorem clearFiles_mounted {fs : FileSystem} (recovering : Recovering fs) :
    Mounted fs (fun _ _ => True) (clearFiles fs) := by
  rw [clearFiles, bind_read, bind_update]
  have emptied : MountStep fs { fs with files := [] } := .names fun _ => nofun
  refine Program.Along.after emptied.steps (releaseAll_mounted _ fun k member => ?_)
  rcases List.mem_map.mp member with ⟨entry, there, rfl⟩
  exact recovering.referring entry there

theorem recoverFrom_mounted (config : BuildConfig) (log : List MetaRecord) {fs : FileSystem}
    (recovering : Recovering fs) :
    Mounted fs (fun _ _ => True) (recoverFrom config log fs) := by
  induction log generalizing fs with
  | nil => exact .here trivial
  | cons entry log induction =>
      have decoded : Mounted fs (fun _ _ => True) (decodeRecord config entry fs) := by
        cases entry with
        | snapshot records =>
            exact (clearFiles_mounted recovering).bind fun _ middle _ _ =>
              decodeSnapshotFrom_mounted config records middle
        | update record => exact decodeFileUpdateFrom_mounted config recovering record false
        | replace record => exact decodeFileUpdateFrom_mounted config recovering record true
        | deletion fileId name => exact decodeFileDeletionFrom_mounted recovering fileId name
      exact decoded.bind fun _ middle steps _ => induction (steps.recovering recovering)

/-! ## `Repair` is made of these steps -/

/-- What `Recover` does to a file: extents are added, in zones of the device. -/
inductive RecoverStep : FileState → FileState → Prop
  | answer {state replies} : replies <:+ state.zbd.replies →
      RecoverStep state { state with zbd := { state.zbd with replies := replies } }
  | add {state extent} : extent.zone ∈ state.zbd.ioZones ++ state.zbd.walZones →
      RecoverStep state { state with
        zbd := addUsed state.zbd extent
        file := { state.file with extents := state.file.extents ++ [extent] } }
  | fields {state} (extentStart fileSize walSeq) :
      RecoverStep state { state with file := { state.file with
        extentStart := extentStart, fileSize := fileSize, walSeq := walSeq } }

def RecoverSteps : FileState → FileState → Prop := Relation.ReflTransGen RecoverStep

instance : Std.Refl RecoverSteps := ⟨fun _ => .refl⟩

instance : IsTrans FileState RecoverSteps := ⟨fun _ _ _ one two => one.trans two⟩

theorem RecoverStep.trace {before after : FileState} (step : RecoverStep before after) :
    after.zbd.trace = before.zbd.trace := by
  cases step with
  | answer | add | fields => rfl

theorem RecoverSteps.trace {before after : FileState} (steps : RecoverSteps before after) :
    after.zbd.trace = before.zbd.trace := by
  induction steps with
  | refl => rfl
  | tail _ step induction => exact step.trace.trans induction

theorem place_silent {fs : FileSystem} (recovering : Recovering fs) (k : Nat) {state : FileState}
    (silent : state.zbd.trace = fs.zbd.trace) :
    fs.place k state = { fs with zbd := state.zbd }.setObject k
      { fs.object k with file := state.file } := by
  have nothing : persisted (state.zbd.trace.drop fs.zbd.trace.length) = [] := by
    rw [silent, List.drop_length]
    rfl
  rw [place_eq, nothing, settle, (recovering.unopened k).1, Option.map_none,
    ← (recovering.unopened k).1]
  rfl

theorem RecoverStep.mounted {fs : FileSystem} (recovering : Recovering fs) {k : Nat}
    (inside : k < fs.objects.length) {before after : FileState} (sees : Sees fs k before)
    (step : RecoverStep before after) : MountStep fs (fs.place k after) := by
  have idle := recovering.idle k
  have kept : fs.setObject k (fs.object k) = fs := setObject_self inside
  rw [place_silent recovering k (step.trace.trans (congrArg ZonedBlockDevice.trace sees.zbd))]
  rcases before with ⟨zbd, file, buffer⟩
  rcases sees with ⟨same, here, _⟩
  subst same here
  cases step with
  | @answer replies shorter =>
      have noted : MountStep fs (fs.quietly replies []) := .note shorter nofun
      have same : { fs with zbd := { fs.zbd with replies := replies } }.setObject k (fs.object k) =
          fs.quietly replies [] := by
        rw [quietly, noted_nil]
        exact congrArg (fun fs => { fs with zbd := { fs.zbd with replies := replies } }) kept
      exact same ▸ noted
  | @add extent zone =>
      refine @MountStep.grow _ _ _ [extent] inside rfl ⟨idle.activeZone, idle.isWal, idle.openForWr⟩ ?_
      intro other member
      rw [List.mem_singleton.mp member]
      exact zone
  | fields =>
      exact @MountStep.grow _ _ _ [] inside (List.append_nil _).symm
        ⟨idle.activeZone, idle.isWal, idle.openForWr⟩ nofun

theorem RecoverSteps.mounted {fs : FileSystem} (recovering : Recovering fs) {k : Nat}
    (inside : k < fs.objects.length) {before after : FileState} (sees : Sees fs k before)
    (steps : RecoverSteps before after) : MountSteps fs (fs.place k after) := by
  induction steps with
  | refl =>
      rw [sees.place_self inside]
      exact .refl
  | @tail middle after earlier step induction =>
      have there : k < (fs.place k middle).objects.length := by
        rw [length_place]
        exact inside
      have first : fs.zbd.trace <+: middle.zbd.trace := by
        have same : middle.zbd.trace = fs.zbd.trace := by rw [RecoverSteps.trace earlier, sees.zbd]
        exact same ▸ List.prefix_rfl
      have second : middle.zbd.trace <+: after.zbd.trace := by
        exact step.trace ▸ List.prefix_rfl
      have onward := step.mounted (induction.recovering recovering) there (sees_place inside middle)
      rw [place_place first second] at onward
      exact induction.tail onward

/-- What is done with one header that was read: a length and, in a write-ahead log, a
sequence number. -/
def recoverEntry (device : Nat → UInt8) (number stop fuel next walSeqRec : Nat) (state : FileState)
    (extentLength seq : Nat) : FileProgram Unit :=
  if extentLength = 0 then do
    FileState.setFile fun file => { file with walSeq := walSeqRec }
    Program.fail (.ioError "Unexpected extent length while recovering")
  else do
    Program.update (addRecovered number next extentLength)
    recoverSparseExtents device number stop fuel
      ((next + extentBlocks state.zbd.blockSize state.file.headerSize extentLength) % 2 ^ 64)
      (if state.file.hasLogName && walSeqRec < seq then seq else walSeqRec)

theorem recoverSparseExtents_succ (device : Nat → UInt8) (number stop fuel next walSeqRec : Nat)
    (state : FileState) :
    recoverSparseExtents device number stop (fuel + 1) next walSeqRec state =
      if next < stop then
        (do match ← (FileState.onDevice (request
              (.ioError "Unexpected read error while recovering"))).attempt with
            | .error failure =>
                FileState.setFile fun file => { file with walSeq := walSeqRec }
                Program.fail failure
            | .ok () =>
                recoverEntry device number stop fuel next walSeqRec state
                  (Bytes.toNat (bytesAt device next 8))
                  (Bytes.toNat (bytesAt device (next + 8) 8)) : FileProgram Unit) state
      else FileState.setFile (fun file => { file with walSeq := walSeqRec }) state := by
  rw [recoverSparseExtents, bind_read]
  split
  · rfl
  · rfl

theorem recoverEntry_steps (device : Nat → UInt8) {number : Nat} (stop fuel next walSeqRec : Nat)
    (first : FileState) (extentLength seq : Nat) {state : FileState}
    (zone : number ∈ state.zbd.ioZones ++ state.zbd.walZones)
    (rest : ∀ next walSeqRec {state : FileState},
      number ∈ state.zbd.ioZones ++ state.zbd.walZones →
      Program.Along RecoverSteps (fun _ : IOStatus => True) state (fun _ _ => True)
        (recoverSparseExtents device number stop fuel next walSeqRec state)) :
    Program.Along RecoverSteps (fun _ : IOStatus => True) state (fun _ _ => True)
      (recoverEntry device number stop fuel next walSeqRec first extentLength seq state) := by
  rw [recoverEntry]
  split
  · exact .inl trivial
  · rw [bind_update]
    have added : RecoverStep state (addRecovered number next extentLength state) :=
      @RecoverStep.add _ ⟨next + state.file.headerSize, extentLength, number⟩ zone
    exact Program.Along.after (.single added) (rest _ _ zone)

theorem recoverRead_steps (state : FileState) :
    Program.Along RecoverSteps (fun _ : IOStatus => True) state
      (fun _ middle => middle.zbd.ioZones ++ middle.zbd.walZones =
        state.zbd.ioZones ++ state.zbd.walZones)
      ((FileState.onDevice (request
        (.ioError "Unexpected read error while recovering"))).attempt state) := by
  rcases request_cases (.ioError "Unexpected read error while recovering") state.zbd with
    ⟨replies, shorter, run | ⟨_, run⟩⟩
  · rw [attempt_of_eq (FileState.onDevice_of_ok run)]
    exact ⟨.single (.answer shorter), rfl⟩
  · rw [attempt_of_eq (FileState.onDevice_of_error run)]
    exact ⟨.single (.answer shorter), rfl⟩

theorem recoverSparseExtents_steps (device : Nat → UInt8) (number stop fuel next walSeqRec : Nat)
    {state : FileState} (zone : number ∈ state.zbd.ioZones ++ state.zbd.walZones) :
    Program.Along RecoverSteps (fun _ : IOStatus => True) state (fun _ _ => True)
      (recoverSparseExtents device number stop fuel next walSeqRec state) := by
  induction fuel generalizing state next walSeqRec with
  | zero => exact .inl trivial
  | succ fuel induction =>
      rw [recoverSparseExtents_succ]
      generalize Bytes.toNat (bytesAt device next 8) = extentLength
      generalize Bytes.toNat (bytesAt device (next + 8) 8) = seq
      by_cases more : next < stop
      · rw [if_pos more]
        refine (recoverRead_steps state).bind fun read middle _ zones => ?_
        cases read with
        | error => exact .inl trivial
        | ok =>
            rw [← zones] at zone
            exact recoverEntry_steps device stop fuel next walSeqRec state _ _ zone induction
      · rw [if_neg more]
        exact ⟨.single (.fields _ _ _), trivial⟩

theorem recoverExtents_steps (device : Nat → UInt8) (fuel number : Nat) {state : FileState}
    (zone : number ∈ state.zbd.ioZones ++ state.zbd.walZones) :
    Program.Along RecoverSteps (fun _ : IOStatus => True) state (fun _ _ => True)
      (recoverExtents device fuel number state) := by
  rw [recoverExtents, bind_read]
  split
  · exact recoverSparseExtents_steps device number _ fuel _ _ zone
  · have added : RecoverStep state _ :=
      @RecoverStep.add _ ⟨state.file.extentStart,
        (state.zbd.zone number).wp - state.file.extentStart, number⟩ zone
    exact ⟨.single added, trivial⟩

theorem recover_steps (device : Nat → UInt8) (fuel : Nat) (state : FileState) :
    Program.Along RecoverSteps (fun _ : IOStatus => True) state (fun _ _ => True)
      (recover device fuel state) := by
  rw [recover, bind_read]
  split
  · exact .here trivial
  · cases found : state.zbd.getIOZone state.file.extentStart with
    | none => exact .inl trivial
    | some number =>
        simp only
        split
        · exact .inl trivial
        · split
          · exact ⟨.single (.fields _ _ _), trivial⟩
          · refine (recoverExtents_steps device fuel number (mem_zones_of_getIOZone found)).bind
              fun _ next _ _ => ?_
            exact ⟨.single (.fields _ _ _), trivial⟩

theorem repair_mounted (device : Nat → UInt8) (fuel : Nat) (names : List (String × Nat))
    {fs : FileSystem} (recovering : Recovering fs)
    (inside : ∀ entry ∈ names, entry.2 < fs.objects.length) :
    Mounted fs (fun _ _ => True) (repair device fuel names fs) := by
  induction names generalizing fs with
  | nil => exact .here trivial
  | cons entry names induction =>
      have here := inside entry List.mem_cons_self
      have recovered : Mounted fs (fun _ _ => True) (onObject entry.2 (recover device fuel) fs) := by
        have steps := recover_steps device fuel (fs.view entry.2)
        rw [onObject]
        rcases run : recover device fuel (fs.view entry.2) with ⟨failure | value, state⟩
        all_goals rw [run] at steps
        · exact .inl trivial
        · exact ⟨RecoverSteps.mounted recovering here (sees_view fs entry.2) steps.1, trivial⟩
      refine recovered.bind fun _ middle steps _ => ?_
      refine induction (steps.recovering recovering) fun other member => ?_
      exact Nat.lt_of_lt_of_le (inside other (List.mem_cons_of_mem _ member)) steps.length

theorem rollMetaZone_mounted (fs : FileSystem) :
    Mounted fs (fun _ _ => True) (rollMetaZone fs) := by
  rcases request_cases (.ioError "Failed writing a new superblock") fs.zbd with
    ⟨replies, shorter, run | ⟨_, run⟩⟩
  · rw [rollMetaZone, bind_of_ok (onDevice_of_ok run)]
    have noted : MountStep fs (fs.quietly replies []) := .note shorter nofun
    have rolled : MountStep (fs.quietly replies []) _ :=
      .roll (k := fs.objects.length)
        [.snapshot (fs.files.map fun entry => (fs.object entry.2).file.record)]
    rw [quietly, noted_nil] at noted rolled
    exact ⟨noted.steps.tail rolled, trivial⟩
  · rw [rollMetaZone, bind_of_error (onDevice_of_error run)]
    exact .inl trivial

/-! ## The whole mount -/

theorem recovering_lostMemory (lost : List (Nat × Nat)) (fs : FileSystem) :
    Recovering (fs.lostMemory lost) :=
  ⟨fun _ => idle_blank, fun _ => ⟨rfl, rfl⟩, fun _ => nofun, nofun⟩

theorem remount_steps {config : BuildConfig} {device : Nat → UInt8} {fuel : Nat}
    {lost : List (Nat × Nat)} {fs after : FileSystem}
    (run : remount config device fuel lost fs = (.ok (), after)) :
    ∃ middle, MountSteps (fs.lostMemory lost) middle ∧ FsSteps middle after := by
  rw [remount, bind_read, bind_update] at run
  rcases bind_eq_ok run with ⟨_, recovered, replayed, run⟩
  have first := recoverFrom_mounted config fs.metaLog (recovering_lostMemory lost fs)
  rw [replayed] at first
  split at run
  · cases run
  · rw [bind_read] at run
    have still := first.1.recovering (recovering_lostMemory lost fs)
    rcases bind_eq_ok run with ⟨_, repaired, fixed, run⟩
    have second := repair_mounted device fuel recovered.files still still.referring
    rw [fixed] at second
    rcases bind_eq_ok run with ⟨_, rolled, swapped, run⟩
    have third := rollMetaZone_mounted repaired
    rw [swapped] at third
    have last := Relinked.stepped (resetUnusedIOZones_relinked rolled)
    rw [run] at last
    exact ⟨rolled, (first.1.trans second.1).trans third.1, last.1⟩

theorem crash_fixed (lost : List (Nat × Nat)) (zbd : ZonedBlockDevice) :
    Fixed zbd (zbd.crash lost) := by
  rw [crash]
  induction lost generalizing zbd with
  | nil => exact .refl _
  | cons entry lost induction =>
      rw [List.foldl_cons]
      refine Fixed.trans ?_ (induction _)
      split
      · exact .withTokens _ _ _ _ _
      · exact .refl _

theorem Partitioned.reopen {zbd : ZonedBlockDevice} (partitioned : Partitioned zbd) :
    Partitioned zbd.reopen where
  blocks := partitioned.blocks
  wal := partitioned.wal
  walCount := partitioned.walCount
  io number member := partitioned.io number (List.mem_of_mem_filter member)
  ioDistinct := partitioned.ioDistinct.filter _

theorem Recovering.grounded {fs : FileSystem} (recovering : Recovering fs)
    (partitioned : Partitioned fs.zbd) : Grounded fs where
  partitioned := partitioned
  referring := recovering.referring
  lies k := by
    refine ⟨fun extent member => ?_, fun number held => ?_⟩
    · rcases List.mem_append.mp (recovering.zones k extent member) with io | wal
      · exact partitioned.dataZone_of_io io
      · rcases List.getElem?_of_mem wal with ⟨index, found⟩
        exact partitioned.dataZone_of_wal found
    · rw [(recovering.idle k).activeZone] at held
      cases held
  bounded k handle writer := by
    rw [(recovering.unopened k).1] at writer
    cases writer

end Zwal.FileSystem
