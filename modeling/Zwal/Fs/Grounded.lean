import Zwal.Fs.FsSteps

/-! # Sound handles and zones in their places

What every state of a mounted file system has: writable handles keep the bounds of their
buffers, and files lie in zones of the device. -/

namespace Zwal.FileSystem

open ZonedBlockDevice FileState

/-- Zones by number, as `Open` finds them on a device without conventional or offline
zones among the first ones: metadata, one that is skipped, write-ahead logs, files. -/
structure Partitioned (zbd : ZonedBlockDevice) : Prop where
  blocks : zbd.blockSize ∣ 2 ^ 20
  wal : ∀ index number, zbd.walZones[index]? = some number →
    number = index + zenfsMetaZones + zenfsFlakyZones
  walCount : zbd.walZones.length = zenfsWalZones
  io : ∀ number ∈ zbd.ioZones, zenfsMetaZones + zenfsFlakyZones + zenfsWalZones ≤ number
  ioDistinct : zbd.ioZones.Nodup

def DataZone (number : Nat) : Prop := zenfsMetaZones + zenfsFlakyZones ≤ number

theorem Partitioned.fixed {before after : ZonedBlockDevice} (partitioned : Partitioned before)
    (fixed : Fixed before after) : Partitioned after := by
  refine ⟨fixed.blockSize ▸ partitioned.blocks, ?_, ?_, ?_, fixed.ioZones ▸ partitioned.ioDistinct⟩
  · rw [fixed.walZones]
    exact partitioned.wal
  · rw [fixed.walZones]
    exact partitioned.walCount
  · rw [fixed.ioZones]
    exact partitioned.io

theorem Partitioned.dataZone_of_io {zbd : ZonedBlockDevice} (partitioned : Partitioned zbd)
    {number : Nat} (member : number ∈ zbd.ioZones) : DataZone number := by
  have bound := partitioned.io number member
  rw [DataZone]
  omega

theorem Partitioned.dataZone_of_wal {zbd : ZonedBlockDevice} (partitioned : Partitioned zbd)
    {index number : Nat} (found : zbd.walZones[index]? = some number) : DataZone number := by
  have same := partitioned.wal index number found
  rw [DataZone]
  omega

structure ZoneFile.Lies (file : ZoneFile) : Prop where
  extents : ∀ extent ∈ file.extents, DataZone extent.zone
  active : ∀ number, file.activeZone = some number → DataZone number

theorem ZoneFile.Lies.of_eq {before after : ZoneFile} (lies : ZoneFile.Lies before)
    (extents : after.extents = before.extents) (active : after.activeZone = before.activeZone) :
    ZoneFile.Lies after :=
  ⟨extents ▸ lies.extents, active ▸ lies.active⟩

theorem ZoneFile.Lies.append {before after : ZoneFile} (lies : ZoneFile.Lies before)
    {extent : ZoneExtent} (place : DataZone extent.zone)
    (extents : after.extents = before.extents ++ [extent])
    (active : after.activeZone = before.activeZone) : ZoneFile.Lies after := by
  refine ⟨fun other member => ?_, active ▸ lies.active⟩
  rw [extents, List.mem_append, List.mem_singleton] at member
  rcases member with earlier | rfl
  · exact lies.extents other earlier
  · exact place

theorem fileStep_lies {kind : StepKind} {before after : FileState} (step : FileStep kind before after)
    (partitioned : Partitioned before.zbd) (lies : ZoneFile.Lies before.file) :
    ZoneFile.Lies after.file := by
  have active {number : Nat} (held : before.file.activeZone = some number) :
      DataZone before.activeNumber := by
    rw [activeNumber, held]
    exact lies.active number held
  cases step with
  | device | leave | closeFailed | close | write | append | accept | persist | syncLog | detach
  | unlock | openLog | resetLog | cursor | scratch | truncate | takeWalFailed =>
      first
        | exact ⟨lies.extents, lies.active⟩
        | exact ⟨lies.extents, fun _ none => by cases none⟩
  | takeIo _ _ taken =>
      refine ⟨lies.extents, fun number same => ?_⟩
      cases same
      cases taken with
      | partly found => exact partitioned.dataZone_of_io found.member
      | empty found => exact partitioned.dataZone_of_io found.member
  | takeWal _ _ taken =>
      refine ⟨lies.extents, fun number same => ?_⟩
      cases same
      cases taken with
      | group found => exact partitioned.dataZone_of_wal found.found
      | next _ _ found => exact partitioned.dataZone_of_wal found
      | reopened _ _ _ found => exact partitioned.dataZone_of_wal found
  | extend held | addExtent held => exact lies.append (active held) rfl rfl
  | push =>
      rcases pushed_cases before with same | ⟨number, held, same⟩
      all_goals rw [same]
      · exact lies
      · exact lies.append (lies.active number held) rfl rfl

structure WriterHandle.Bounded (handle : WriterHandle) : Prop where
  memory : handle.buffer.length = 2 ^ 20
  start : handle.bufferStart = 0
  size : handle.bufferSz = 2 ^ 20
  filled : handle.bufferPos ≤ 2 ^ 20

structure Grounded (fs : FileSystem) : Prop where
  partitioned : Partitioned fs.zbd
  referring : Referring fs
  lies : ∀ k, ZoneFile.Lies (fs.object k).file
  bounded : ∀ k handle, (fs.object k).writer = some handle →
    (fs.object k).file.isSparse = false → WriterHandle.Bounded handle

theorem Grounded.sound {fs : FileSystem} (grounded : Grounded fs) {k : Nat} {handle : WriterHandle}
    (writer : (fs.object k).writer = some handle) : (fs.writer k handle).Sound := by
  refine ⟨grounded.partitioned.blocks, fun plain => ?_⟩
  have bounds := grounded.bounded k handle writer plain
  have memory : (fs.writer k handle).state.buffer = handle.buffer := by
    simp only [FileSystem.writer, view, writer, Option.map_some, Option.getD_some]
  exact ⟨memory ▸ bounds.memory, bounds.start, bounds.size, bounds.filled⟩

theorem Grounded.of_objects {before after : FileSystem} (grounded : Grounded before)
    (fixed : Fixed before.zbd after.zbd) (referring : Referring after)
    (objects : ∀ k, FileObject.Relabel (before.object k) (after.object k)) : Grounded after := by
  refine ⟨grounded.partitioned.fixed fixed, referring, fun k => ?_, fun k handle writer plain => ?_⟩
  · exact (grounded.lies k).of_eq (objects k).extents (objects k).activeZone
  · rw [(objects k).writer] at writer
    rcases (objects k).kind with fresh | same
    · rw [fresh.writer] at writer
      cases writer
    · exact grounded.bounded k handle writer (same.2.symm.trans plain)

theorem Counted.relabel {before after : FileObject} (counted : Counted before after) :
    FileObject.Relabel before after := by
  rcases counted with ⟨count, rfl⟩
  exact ⟨rfl, rfl, rfl, rfl, rfl, rfl, rfl, rfl, .inr ⟨rfl, rfl⟩⟩

theorem resetAs_fixed (answer : Int) (number : Nat) (zbd : ZonedBlockDevice) :
    Fixed zbd (resetAs answer number zbd) := by
  have moved : Fixed zbd (zbd.setZone number { zbd.zone number with
      capacity := if answer < 0 then 0 else min answer.toNat zbd.zoneSize
      maxCapacity :=
        if answer < 0 then (zbd.zone number).maxCapacity else min answer.toNat zbd.zoneSize
      wp := (zbd.zone number).start
      lifetime := wlthNotSet }) := .setZone rfl
  exact moved.trans (.withTokens _ _ _ _ _)

theorem unusedReset_fixed (answer : Int) (number : Nat) (zbd : ZonedBlockDevice) :
    Fixed zbd (unusedReset answer number zbd) := by
  rw [unusedReset]
  split
  · exact resetAs_fixed _ _ _
  · exact (resetAs_fixed _ _ _).trans (.withTokens _ _ _ _ _)

theorem removeUsed_fixed (zbd : ZonedBlockDevice) (extents : List ZoneExtent) :
    Fixed zbd (extents.foldl removeUsed zbd) := by
  induction extents generalizing zbd with
  | nil => exact .refl _
  | cons extent extents induction =>
      have moved : Fixed zbd (removeUsed zbd extent) := .setZone rfl
      exact moved.trans (induction _)

theorem Grounded.of_object {before after : FileSystem} (grounded : Grounded before) (k : Nat)
    (fixed : Fixed before.zbd after.zbd) (files : after.files = before.files)
    (length : after.objects.length = before.objects.length)
    (others : ∀ j, j ≠ k → Counted (before.object j) (after.object j))
    (lies : ZoneFile.Lies (after.object k).file)
    (bounded : ∀ handle, (after.object k).writer = some handle →
      (after.object k).file.isSparse = false → WriterHandle.Bounded handle) : Grounded after := by
  have referring : Referring after := by
    rw [Referring, files, length]
    exact grounded.referring
  refine ⟨grounded.partitioned.fixed fixed, referring, fun j => ?_, fun j handle writer plain => ?_⟩
  · by_cases here : j = k
    · exact here ▸ lies
    · have same := (others j here).relabel
      exact (grounded.lies j).of_eq same.extents same.activeZone
  · by_cases here : j = k
    · subst here
      exact bounded handle writer plain
    · rcases others j here with ⟨count, same⟩
      rw [same] at writer plain
      exact grounded.bounded j handle writer plain

theorem Grounded.setObject {fs : FileSystem} (grounded : Grounded fs) {k : Nat}
    (inside : k < fs.objects.length) {object : FileObject} (lies : ZoneFile.Lies object.file)
    (bounded : ∀ handle, object.writer = some handle → object.file.isSparse = false →
      WriterHandle.Bounded handle) : Grounded (fs.setObject k object) := by
  refine grounded.of_object k (.refl _) rfl List.length_set (fun j different => ?_) ?_ ?_
  · rw [object_setObject_of_ne different]
    exact .refl _
  · rw [object_setObject inside]
    exact lies
  · rw [object_setObject inside]
    exact bounded

theorem Grounded.place {fs : FileSystem} {k : Nat} {kind : StepKind} {before after : FileState}
    (inside : k < fs.objects.length) (sees : Sees fs k before) (step : FileStep kind before after)
    (grounded : Grounded fs) : Grounded (fs.place k after) := by
  have constant := step.constant
  refine grounded.of_object k ?_ (files_place _ _ _) (length_place _ _ _)
    (fun j different => place_counted different _) ?_ ?_
  · rw [place_zbd, ← sees.zbd]
    exact constant.device
  · rw [object_place inside]
    refine fileStep_lies step ?_ ?_
    · rw [sees.zbd]
      exact grounded.partitioned
    · rw [sees.file]
      exact grounded.lies k
  · intro handle writer plain
    rw [object_place inside] at writer plain
    rcases Option.map_eq_some_iff.mp writer with ⟨held, there, rfl⟩
    have was : (fs.object k).file.isSparse = false := by
      rw [← sees.file, ← constant.isSparse]
      exact plain
    have bounds := grounded.bounded k held there was
    refine ⟨?_, bounds.start, bounds.size, bounds.filled⟩
    have length := constant.memory (sees.file ▸ was)
    rw [sees.buffer held there] at length
    exact length.trans bounds.memory

theorem Grounded.placed {fs : FileSystem} {k : Nat} {kind : StepKind} {before after : FileState}
    (grounded : Grounded fs) (inside : k < fs.objects.length) (sees : Sees fs k before)
    (steps : FileSteps kind before after) : Grounded (fs.place k after) :=
  sees.keep (fun inside sees step grounded => Grounded.place inside sees step grounded) inside steps
    grounded

theorem Grounded.attach {fs : FileSystem} (grounded : Grounded fs) {k : Nat}
    (inside : k < fs.objects.length) (config : BuildConfig) (buffered : Bool) :
    Grounded (attachWriter config k buffered fs).2 := by
  refine grounded.setObject inside ((grounded.lies k).of_eq rfl rfl) fun handle writer plain => ?_
  cases writer
  have created := WritableFile.create_sound config (fs.object k).file buffered
    grounded.partitioned.blocks
  rcases created.plain plain with ⟨memory, start, size, filled⟩
  exact ⟨memory, start, size, filled⟩

theorem Grounded.setHandle {fs : FileSystem} (grounded : Grounded fs) {k : Nat}
    (inside : k < fs.objects.length) {writer : WritableFile}
    (bound : (fs.object k).file.isSparse = false → writer.bufferPos ≤ 2 ^ 20) :
    Grounded (fs.setHandle k writer) := by
  refine grounded.setObject inside (grounded.lies k) fun handle held plain => ?_
  rcases Option.map_eq_some_iff.mp held with ⟨earlier, there, rfl⟩
  have bounds := grounded.bounded k earlier there plain
  exact ⟨bounds.memory, bounds.start, bounds.size, bound plain⟩

theorem Grounded.detach {fs : FileSystem} (grounded : Grounded fs) {k : Nat}
    (inside : k < fs.objects.length) :
    Grounded (fs.setObject k { fs.object k with writer := none }) :=
  grounded.setObject inside (grounded.lies k) nofun

theorem Coarse.grounded {before after : FileSystem} (step : Coarse before after)
    (grounded : Grounded before) : Grounded after := by
  cases step with
  | file inside _ sees step => exact grounded.place inside sees step
  | device step => exact grounded.of_objects step.fixed grounded.referring fun _ => .refl _
  | deferred status =>
      refine grounded.of_objects ?_ grounded.referring fun _ => .refl _
      rw [setZoneDeferredStatus]
      split
      · exact .withTokens _ _ _ _ _
      · exact .refl _
  | reset answer => exact grounded.of_objects (unusedReset_fixed _ _ _) grounded.referring fun _ => .refl _
  | relabel relabelled =>
      exact grounded.of_objects (relabelled.zbd ▸ .refl _) (relabelled.referring grounded.referring)
        relabelled.object
  | attach config buffered inside => exact grounded.attach inside config buffered
  | handle inside _ bound => exact grounded.setHandle inside bound
  | detach inside => exact grounded.detach inside
  | @destroy k =>
      refine grounded.of_object k (removeUsed_fixed _ _) rfl List.length_set (fun j different => ?_) ?_ ?_
      · rw [object_destroyed, if_neg different]
        exact .refl _
      · rw [object_destroyed, if_pos rfl]
        exact ⟨nofun, nofun⟩
      · rw [object_destroyed, if_pos rfl]
        exact nofun

theorem FsSteps.grounded {before after : FileSystem} (steps : FsSteps before after)
    (grounded : Grounded before) : Grounded after := by
  induction steps with
  | refl => exact grounded
  | tail _ step induction => exact step.coarse.grounded induction

end Zwal.FileSystem
