import Zwal.File.ReadSteps
import Zwal.File.WriterSteps
import Zwal.Fs.Operations

/-! # What an operation of the file system does

The elementary steps of the operations on files, the table and the handles. A crash and a
pass of the garbage collector are steps of their own. -/

namespace Zwal

def FileObject.opened (object : FileObject) : Bool := object.writer.any WriterHandle.isOpen

structure FileObject.Fresh (object : FileObject) : Prop where
  writer : object.writer = none
  extents : object.file.extents = []
  activeZone : object.file.activeZone = none
  wal : object.file.wal = none
  openForWr : object.file.openForWr = false

namespace FileSystem

open ZonedBlockDevice FileState

section

variable {fs : FileSystem} {k : Nat}

/-! ## Steps of the table -/

/-- File `k` persisted: a deleted file is skipped. -/
def synced (k : Nat) (replace : Bool) (fs : FileSystem) : FileSystem :=
  let file := (fs.object k).file
  if file.isDeleted then fs
  else
    let committed := fs.commit k file.record (if replace then .replace file.record else .update file.record)
    committed.setObject k { committed.object k with
      file := { (committed.object k).file with
        nrSyncedExtents := (committed.object k).file.extents.length } }

def relink (k : Nat) (links : List String) (fs : FileSystem) : FileSystem :=
  fs.setObject k { fs.object k with file := { (fs.object k).file with linkfiles := links } }

def appended (name : String) (direct : Bool) (fs : FileSystem) : FileSystem :=
  { fs with
    objects := fs.objects ++ [{ file := newFile fs.nextFileId name direct }]
    nextFileId := fs.nextFileId + 1 }

def created (name : String) (direct : Bool) (fs : FileSystem) : FileSystem :=
  ((fs.appended name direct).synced fs.objects.length false).insertName name fs.objects.length

def discarded (fs : FileSystem) : FileSystem :=
  { fs with objects := fs.objects ++ [{}], nextFileId := fs.nextFileId + 1 }

/-- A link of file `k` that is gone, in memory. -/
def unnamed (k : Nat) (name : String) (fs : FileSystem) : FileSystem :=
  (fs.eraseName name).relink k ((fs.object k).file.linkfiles.erase name)

/-- A deletion that was persisted; with the last link the file is marked as deleted. -/
def unlinked (k : Nat) (name : String) (fs : FileSystem) : FileSystem :=
  let gone := fs.unnamed k name
  let committed := gone.commit k (gone.object k).file.record
    (.deletion (fs.object k).file.fileId name)
  if (committed.object k).file.linkfiles.isEmpty then
    committed.setObject k { committed.object k with
      file := { (committed.object k).file with isDeleted := true } }
  else committed

/-- A deletion that could not be persisted: the link is back, as the last one. -/
def kept (k : Nat) (name : String) (fs : FileSystem) : FileSystem :=
  ((fs.unnamed k name).insertName name k).relink k
    ((fs.object k).file.linkfiles.erase name ++ [name])

/-- The name of file `k` moved, in memory. -/
def renamed (k : Nat) (source dest : String) (fs : FileSystem) : FileSystem :=
  ((fs.relink k ((fs.object k).file.linkfiles.erase source ++ [dest])).eraseName
    source).insertName dest k

/-- A further name of file `k`, in memory. -/
def linked (k : Nat) (target : String) (fs : FileSystem) : FileSystem :=
  (fs.relink k ((fs.object k).file.linkfiles ++ [target])).insertName target k

/-- The extents of file `k` give their space back and the object is blank. -/
def destroyed (k : Nat) (fs : FileSystem) : FileSystem :=
  ({ fs with zbd := (fs.object k).file.extents.foldl removeUsed fs.zbd }).setObject k {}

/-- A zone as `Zone::Reset` leaves it, for the capacity the device reports. -/
def resetAs (answer : Int) (number : Nat) (zbd : ZonedBlockDevice) : ZonedBlockDevice :=
  (zbd.setZone number { zbd.zone number with
    capacity := if answer < 0 then 0 else min answer.toNat zbd.zoneSize
    maxCapacity :=
      if answer < 0 then (zbd.zone number).maxCapacity else min answer.toNat zbd.zoneSize
    wp := (zbd.zone number).start
    lifetime := wlthNotSet }).record (.reset number (decide (answer < 0)))

def unusedReset (answer : Int) (number : Nat) (zbd : ZonedBlockDevice) : ZonedBlockDevice :=
  if (zbd.zone number).isFull then resetAs answer number zbd
  else (resetAs answer number zbd).putActiveIOZoneToken

structure Resettable (zbd : ZonedBlockDevice) (number : Nat) : Prop where
  member : number ∈ zbd.ioZones
  idle : (zbd.zone number).busy = false
  filled : (zbd.zone number).isEmpty = false
  unused : (zbd.zone number).isUsed = false

/-! ## Objects -/

theorem object_setObject (inside : k < fs.objects.length)
    (object : FileObject) : (fs.setObject k object).object k = object := by
  simp [FileSystem.object, setObject, List.getD_eq_getElem?_getD, inside]

theorem object_setObject_of_ne {k j : Nat} (different : j ≠ k)
    (object : FileObject) : (fs.setObject k object).object j = fs.object j := by
  simp [FileSystem.object, setObject, List.getD_eq_getElem?_getD, different.symm]

theorem setObject_self (inside : k < fs.objects.length) :
    fs.setObject k (fs.object k) = fs := by
  rw [setObject, FileSystem.object, List.getD_eq_getElem?_getD, List.getElem?_eq_getElem inside]
  simp

theorem object_of_length_le (outside : fs.objects.length ≤ k) :
    fs.object k = {} := by
  simp [FileSystem.object, List.getD_eq_getElem?_getD, List.getElem?_eq_none outside]

theorem lt_of_object_ne (there : fs.object k ≠ {}) :
    k < fs.objects.length := by
  by_contra outside
  exact there (object_of_length_le (Nat.le_of_not_lt outside))

theorem object_destroyed (fs : FileSystem) (k j : Nat) :
    (fs.destroyed k).object j = if j = k then {} else fs.object j := by
  rw [destroyed]
  split
  · rename_i here
    rw [here]
    by_cases inside : k < fs.objects.length
    · exact object_setObject inside _
    · exact object_of_length_le (by simpa [setObject] using inside)
  · rename_i different
    exact object_setObject_of_ne different _

theorem object_markSynced (fs : FileSystem) (k j : Nat) :
    (fs.markSynced k).object j =
      if j ≠ k ∧ fs.named j then
        { fs.object j with file := { (fs.object j).file with
            nrSyncedExtents := (fs.object j).file.extents.length } }
      else fs.object j := by
  by_cases inside : j < fs.objects.length
  · simp only [FileSystem.object, markSynced, List.getD_eq_getElem?_getD, List.getElem?_mapIdx,
      List.getElem?_eq_getElem inside, Option.map_some, Option.getD_some]
  · have outside : fs.objects.length ≤ j := Nat.le_of_not_lt inside
    rw [object_of_length_le outside, object_of_length_le (by simpa [markSynced] using outside)]
    split
    · rfl
    · rfl

/-! ## The requests of a step -/

/-- The requests a step makes: one record when it persists the file, none otherwise. -/
def Traced (before after : FileState) : Prop :=
  ∃ events, after.zbd.trace = before.zbd.trace ++ events ∧
    (persisted events = [] ∨
      (before.file.isDeleted = false ∧ events = [.persist before.file.record] ∧
        after = { before with
          zbd := before.zbd.record (.persist before.file.record)
          file := { before.file with nrSyncedExtents := before.file.extents.length } }))

theorem Traced.none {before after : FileState} (same : after.zbd.trace = before.zbd.trace) :
    Traced before after :=
  ⟨[], by rw [same, List.append_nil], .inl rfl⟩

theorem Traced.one {before after : FileState} {event : IoEvent}
    (added : after.zbd.trace = before.zbd.trace ++ [event]) (other : persisted [event] = []) :
    Traced before after :=
  ⟨[event], added, .inl other⟩

theorem persisted_writeEvents (number wp capacity : Nat) (chunks : List Bytes) :
    persisted (writeEvents number wp capacity chunks) = [] := by
  induction chunks generalizing wp capacity with
  | nil => rfl
  | cons chunk chunks induction =>
      rw [writeEvents, persisted, List.filterMap_cons_none rfl]
      exact induction _ _

theorem Traced.writes {before after : FileState} (number wp capacity : Nat)
    (chunks : List Bytes)
    (added : after.zbd.trace = before.zbd.trace ++ writeEvents number wp capacity chunks) :
    Traced before after :=
  ⟨_, added, .inl (persisted_writeEvents _ _ _ _)⟩

theorem trace_releaseUnusedWALZone (zbd : ZonedBlockDevice) (number : Nat) :
    (zbd.releaseUnusedWALZone number).trace = zbd.trace := by
  simp only [releaseUnusedWALZone, putActiveIOZoneToken, setZone]
  repeat' split
  all_goals rfl

theorem fileStep_traced {kind : StepKind} {before after : FileState}
    (step : FileStep kind before after) : Traced before after := by
  cases step with
  | device step =>
      cases step with
      | answer => exact .none rfl
      | finish => exact .one rfl rfl
      | releaseWal => exact .none (trace_releaseUnusedWALZone _ _)
  | takeIo _ _ taken =>
      cases taken with
      | partly | empty => exact .none rfl
  | takeWal _ _ taken | takeWalFailed _ _ taken =>
      cases taken with
      | group => exact .one rfl rfl
      | next => exact .none rfl
      | reopened => exact .one rfl rfl
  | leave | close =>
      refine .none ?_
      simp only [returnTokens, letGo]
      split
      all_goals rfl
  | closeFailed | detach | unlock | cursor | scratch | addExtent | truncate => exact .none rfl
  | @write _ number chunks =>
      exact .writes number (before.zbd.zone number).wp (before.zbd.zone number).capacity chunks
        (by rw [advanceAll_eq])
  | @append _ number chunks =>
      exact .writes number (before.zbd.zone number).wp (before.zbd.zone number).capacity chunks
        (by simp only [grow, advanceAll_eq])
  | @extend _ number chunks =>
      exact .writes number (before.zbd.zone number).wp (before.zbd.zone number).capacity chunks
        (by simp only [FileState.addExtent, advanceAll_eq, setZone])
  | accept => exact .one rfl rfl
  | push =>
      refine .none ?_
      rcases pushed_cases before with same | ⟨number, _, same⟩
      all_goals rw [same]
      rfl
  | persist live => exact ⟨_, rfl, .inr ⟨live, rfl, rfl⟩⟩
  | syncLog _ kind =>
      rcases kind with rfl | ⟨rfl, _⟩
      · exact .one rfl rfl
      · exact .one rfl rfl
  | openLog => exact .one rfl rfl
  | @resetLog _ log =>
      exact ⟨[.reset log false, .reset (log + 1) false, .reset (log + 2) false],
        by simp [resetLog, record], .inl rfl⟩

theorem fileSteps_trace {kind : StepKind} {before after : FileState}
    (steps : FileSteps kind before after) : before.zbd.trace <+: after.zbd.trace := by
  induction steps with
  | refl => exact List.prefix_rfl
  | tail _ step induction =>
      rcases fileStep_traced step with ⟨events, added, _⟩
      exact induction.trans ⟨events, added.symm⟩

/-! ## Programs on a file, one step after the other -/

/-- What a program on file `k` leaves, the metadata log apart. -/
def settle (k : Nat) (state : FileState) (fs : FileSystem) : FileSystem :=
  { fs.setObject k { fs.object k with
      file := state.file
      writer := (fs.object k).writer.map fun handle => { handle with buffer := state.buffer } } with
    zbd := state.zbd }

theorem place_eq (k : Nat) (state : FileState) (fs : FileSystem) :
    fs.place k state =
      (fs.settle k state).commitAll k (persisted (state.zbd.trace.drop fs.zbd.trace.length)) :=
  rfl

theorem settle_settle (k : Nat) (first second : FileState) (fs : FileSystem) :
    (fs.settle k first).settle k second = fs.settle k second := by
  have same : (fs.settle k first).objects.set k { (fs.settle k first).object k with
        file := second.file
        writer := ((fs.settle k first).object k).writer.map fun handle =>
          { handle with buffer := second.buffer } } =
      fs.objects.set k { fs.object k with
        file := second.file
        writer := (fs.object k).writer.map fun handle => { handle with buffer := second.buffer } } := by
    by_cases inside : k < fs.objects.length
    · have held : (fs.settle k first).object k = _ := object_setObject inside _
      rw [held]
      simp only [settle, setObject, List.set_set, Option.map_map]
      rfl
    · have outside : fs.objects.length ≤ k := Nat.le_of_not_lt inside
      simp only [settle, setObject]
      rw [List.set_eq_of_length_le outside, List.set_eq_of_length_le outside,
        List.set_eq_of_length_le outside]
  rw [settle, setObject, same]
  rfl

theorem commit_zbd (k : Nat) (record : FileRecord) (entry : MetaRecord) (fs : FileSystem) :
    (fs.commit k record entry).zbd = fs.zbd := by
  rw [commit]
  split
  all_goals rfl

theorem object_commit (k : Nat) (record : FileRecord) (entry : MetaRecord) (fs : FileSystem) :
    (fs.commit k record entry).object k = fs.object k := by
  rw [commit]
  split
  · have marked := object_markSynced fs k k
    rw [if_neg (by simp)] at marked
    exact marked
  · rfl
  · rfl

/-- Object `j` up to the number of extents that count as synced. -/
def Counted (before after : FileObject) : Prop :=
  ∃ count, after = { before with file := { before.file with nrSyncedExtents := count } }

theorem Counted.refl (object : FileObject) : Counted object object :=
  ⟨object.file.nrSyncedExtents, rfl⟩

theorem Counted.trans {first second third : FileObject} (one : Counted first second)
    (two : Counted second third) : Counted first third := by
  rcases one with ⟨_, rfl⟩
  rcases two with ⟨count, rfl⟩
  exact ⟨count, rfl⟩

theorem markSynced_counted (k : Nat) (fs : FileSystem) (j : Nat) :
    Counted (fs.object j) ((fs.markSynced k).object j) := by
  rw [object_markSynced]
  split
  · exact ⟨_, rfl⟩
  · exact .refl _

theorem setObject_counted {object : FileObject} (counted : Counted (fs.object k) object) (j : Nat) :
    Counted (fs.object j) ((fs.setObject k object).object j) := by
  by_cases here : j = k
  · subst here
    by_cases inside : j < fs.objects.length
    · rw [object_setObject inside]
      exact counted
    · rw [setObject, List.set_eq_of_length_le (Nat.le_of_not_lt inside)]
      exact .refl _
  · rw [object_setObject_of_ne here]
    exact .refl _

theorem commit_counted (k : Nat) (record : FileRecord) (entry : MetaRecord) (fs : FileSystem)
    (j : Nat) : Counted (fs.object j) ((fs.commit k record entry).object j) := by
  rw [commit]
  split
  · exact markSynced_counted k fs j
  · exact .refl _
  · exact .refl _

theorem markSynced_set (fs : FileSystem) (k : Nat) (object : FileObject) :
    (fs.markSynced k).objects.set k object = ((fs.setObject k object).markSynced k).objects := by
  apply List.ext_getElem?
  intro j
  simp only [markSynced, setObject, List.getElem?_mapIdx, List.getElem?_set, List.length_mapIdx]
  by_cases here : k = j
  · rw [here]
    split
    all_goals simp
  · simp only [if_neg here]
    rfl

theorem settle_commit (k : Nat) (state : FileState) (record : FileRecord) (entry : MetaRecord)
    (fs : FileSystem) :
    (fs.commit k record entry).settle k state = (fs.settle k state).commit k record entry := by
  have held := object_commit k record entry fs
  rw [settle, held, commit, commit]
  have rolls : (fs.settle k state).rolls = fs.rolls := rfl
  rw [rolls]
  split
  · have snapshot : (fs.settle k state).encodeSnapshot k record = fs.encodeSnapshot k record := by
      apply List.map_congr_left
      intro name _
      by_cases here : name.2 = k
      · simp only [if_pos here]
      · simp only [if_neg here]
        have other : (fs.settle k state).object name.2 = fs.object name.2 :=
          object_setObject_of_ne here _
        rw [other]
    rw [snapshot, setObject]
    simp only [markSynced_set]
    rfl
  · rfl
  · rfl

theorem commitAll_zbd (k : Nat) (records : List FileRecord) (fs : FileSystem) :
    (fs.commitAll k records).zbd = fs.zbd := by
  induction records generalizing fs with
  | nil => rfl
  | cons record records induction => exact (induction _).trans (commit_zbd _ _ _ _)

theorem object_commitAll (k : Nat) (records : List FileRecord) (fs : FileSystem) :
    (fs.commitAll k records).object k = fs.object k := by
  induction records generalizing fs with
  | nil => rfl
  | cons record records induction => exact (induction _).trans (object_commit _ _ _ _)

theorem settle_commitAll (k : Nat) (state : FileState) (records : List FileRecord)
    (fs : FileSystem) :
    (fs.commitAll k records).settle k state = (fs.settle k state).commitAll k records := by
  induction records generalizing fs with
  | nil => rfl
  | cons record records induction =>
      rw [commitAll, List.foldl_cons]
      refine (induction _).trans ?_
      rw [settle_commit]
      rfl

theorem commitAll_counted (k : Nat) (records : List FileRecord) (fs : FileSystem) (j : Nat) :
    Counted (fs.object j) ((fs.commitAll k records).object j) := by
  induction records generalizing fs with
  | nil => exact .refl _
  | cons record records induction => exact (commit_counted _ _ _ _ _).trans (induction _)

theorem commitAll_append (k : Nat) (first second : List FileRecord) (fs : FileSystem) :
    fs.commitAll k (first ++ second) = (fs.commitAll k first).commitAll k second :=
  List.foldl_append

theorem files_commit (k : Nat) (record : FileRecord) (entry : MetaRecord) (fs : FileSystem) :
    (fs.commit k record entry).files = fs.files := by
  rw [commit]
  split
  all_goals rfl

theorem length_commit (k : Nat) (record : FileRecord) (entry : MetaRecord) (fs : FileSystem) :
    (fs.commit k record entry).objects.length = fs.objects.length := by
  rw [commit]
  split
  · simp [markSynced]
  · rfl
  · rfl

theorem length_commitAll (k : Nat) (records : List FileRecord) (fs : FileSystem) :
    (fs.commitAll k records).objects.length = fs.objects.length := by
  induction records generalizing fs with
  | nil => rfl
  | cons record records induction => exact (induction _).trans (length_commit _ _ _ _)

theorem length_place (k : Nat) (state : FileState) (fs : FileSystem) :
    (fs.place k state).objects.length = fs.objects.length := by
  rw [place_eq, length_commitAll]
  simp [settle, setObject]

theorem files_commitAll (k : Nat) (records : List FileRecord) (fs : FileSystem) :
    (fs.commitAll k records).files = fs.files := by
  induction records generalizing fs with
  | nil => rfl
  | cons record records induction => exact (induction _).trans (files_commit _ _ _ _)

theorem files_place (k : Nat) (state : FileState) (fs : FileSystem) :
    (fs.place k state).files = fs.files :=
  files_commitAll _ _ _

theorem place_zbd (k : Nat) (state : FileState) (fs : FileSystem) :
    (fs.place k state).zbd = state.zbd :=
  commitAll_zbd _ _ _

theorem object_place (inside : k < fs.objects.length) (state : FileState) :
    (fs.place k state).object k = { fs.object k with
      file := state.file
      writer := (fs.object k).writer.map fun handle => { handle with buffer := state.buffer } } :=
  (object_commitAll _ _ _).trans (object_setObject inside _)

theorem place_counted {k j : Nat} (different : j ≠ k) (state : FileState) :
    Counted (fs.object j) ((fs.place k state).object j) := by
  have other : (fs.settle k state).object j = fs.object j := object_setObject_of_ne different _
  rw [place_eq, ← other]
  exact commitAll_counted _ _ _ _

theorem place_place {first second : FileState}
    (one : fs.zbd.trace <+: first.zbd.trace) (two : first.zbd.trace <+: second.zbd.trace) :
    (fs.place k first).place k second = fs.place k second := by
  rcases one with ⟨early, one⟩
  rcases two with ⟨late, two⟩
  rw [place_eq k second (fs.place k first), place_zbd, place_eq k first fs, settle_commitAll,
    settle_settle, ← commitAll_append, place_eq k second fs]
  have lateEvents : second.zbd.trace.drop first.zbd.trace.length = late := by
    rw [← two, List.drop_left]
  have earlyEvents : first.zbd.trace.drop fs.zbd.trace.length = early := by
    rw [← one, List.drop_left]
  have allEvents : second.zbd.trace.drop fs.zbd.trace.length = early ++ late := by
    rw [← two, ← one, List.append_assoc, List.drop_left]
  rw [lateEvents, earlyEvents, allEvents]
  simp only [persisted, List.filterMap_append]

/-- What a program on file `k` may start from; without a writer its memory is free. -/
structure Sees (fs : FileSystem) (k : Nat) (state : FileState) : Prop where
  zbd : state.zbd = fs.zbd
  file : state.file = (fs.object k).file
  buffer : ∀ handle, (fs.object k).writer = some handle → state.buffer = handle.buffer

theorem sees_view (fs : FileSystem) (k : Nat) : Sees fs k (fs.view k) := by
  refine ⟨rfl, rfl, fun handle writer => ?_⟩
  rw [view, writer]
  rfl

theorem sees_place (inside : k < fs.objects.length)
    (state : FileState) : Sees (fs.place k state) k state := by
  refine ⟨(place_zbd k state fs).symm, ?_, fun handle writer => ?_⟩
  · rw [object_place inside]
  · rw [object_place inside] at writer
    rcases Option.map_eq_some_iff.mp writer with ⟨before, _, rfl⟩
    rfl

theorem Sees.place_self {state : FileState} (sees : Sees fs k state)
    (inside : k < fs.objects.length) : fs.place k state = fs := by
  have nothing : persisted (state.zbd.trace.drop fs.zbd.trace.length) = [] := by
    rw [sees.zbd, List.drop_length]
    rfl
  have writer : ((fs.object k).writer.map fun handle =>
      { handle with buffer := state.buffer }) = (fs.object k).writer := by
    cases held : (fs.object k).writer with
    | none => rfl
    | some handle => rw [Option.map_some, sees.buffer handle held]
  have same : fs.objects.set k (fs.object k) = fs.objects := by
    rw [FileSystem.object, List.getD_eq_getElem?_getD, List.getElem?_eq_getElem inside]
    exact List.set_getElem_self inside
  rw [place_eq, nothing, settle, sees.file, sees.zbd, writer, setObject, same]
  rfl

end

/-! ## The steps -/

/-- Files are written to through open handles; their logs are reset when they are deleted. -/
def Allowed (kind : StepKind) (object : FileObject) : Prop :=
  (kind = .write ∧ object.opened = true) ∨ kind = .log

inductive FsStep : FileSystem → FileSystem → Prop
  | file {fs k kind before after} : k < fs.objects.length → Allowed kind (fs.object k) →
      Sees fs k before → FileStep kind before after → FsStep fs (fs.place k after)
  | device {fs zbd} : DeviceStep fs.zbd zbd → FsStep fs { fs with zbd := zbd }
  | deferred {fs} (status) : FsStep fs { fs with zbd := setZoneDeferredStatus status fs.zbd }
  | reset {fs number} (answer) : Resettable fs.zbd number →
      (answer < 0 → fs.zbd.Failing) →
      FsStep fs { fs with zbd := unusedReset answer number fs.zbd }
  | create {fs} (name direct) : fs.getFile name = none → FsStep fs (fs.created name direct)
  | discard {fs} : fs.zbd.Failing → FsStep fs fs.discarded
  | unlink {fs k name} : k < fs.objects.length → fs.getFile name = some k →
      name ∈ (fs.object k).file.linkfiles → FsStep fs (fs.unlinked k name)
  | keep {fs k name} : k < fs.objects.length → fs.getFile name = some k →
      name ∈ (fs.object k).file.linkfiles → fs.zbd.Failing → FsStep fs (fs.kept k name)
  | stray {fs k name} : fs.getFile name = some k → name ∉ (fs.object k).file.linkfiles →
      FsStep fs (fs.eraseName name)
  | move {fs k source dest} : k < fs.objects.length →
      source ∈ (fs.object k).file.linkfiles → fs.getFile dest = none →
      FsStep fs ((fs.renamed k source dest).synced k false)
  | moveBack {fs k source dest} : k < fs.objects.length →
      source ∈ (fs.object k).file.linkfiles → fs.getFile dest = none → fs.zbd.Failing →
      FsStep fs ((fs.renamed k source dest).renamed k dest source)
  | link {fs k name target} : k < fs.objects.length → fs.getFile name = some k →
      fs.getFile target = none → FsStep fs ((fs.linked k target).synced k false)
  | linkBack {fs k name target} : k < fs.objects.length → fs.getFile name = some k →
      fs.getFile target = none → fs.zbd.Failing → FsStep fs ((fs.linked k target).unnamed k target)
  | attach {fs k} (config buffered) : k < fs.objects.length → (fs.object k).Fresh →
      FsStep fs (attachWriter config k buffered fs).2
  | handle {fs k writer} : k < fs.objects.length →
      (∀ handle, (fs.object k).writer = some handle → writer.isOpen = handle.isOpen) →
      ((fs.object k).file.isSparse = false → writer.bufferPos ≤ 2 ^ 20) →
      FsStep fs (fs.setHandle k writer)
  | detach {fs k} : k < fs.objects.length → (fs.object k).opened = false →
      FsStep fs (fs.setObject k { fs.object k with writer := none })
  | readers {fs k} (count) : k < fs.objects.length →
      FsStep fs (fs.setObject k { fs.object k with readers := count })
  | hint {fs k} (hint) : k < fs.objects.length →
      FsStep fs (fs.setObject k { fs.object k with
        file := { (fs.object k).file with lifetime := hint } })
  | destroy {fs k} : fs.named k = false → (fs.object k).writer = none →
      FsStep fs (fs.destroyed k)

def FsSteps : FileSystem → FileSystem → Prop := Relation.ReflTransGen FsStep

theorem FsStep.steps {before after : FileSystem} (step : FsStep before after) :
    FsSteps before after :=
  .single step

instance : IsTrans FileSystem FsSteps := ⟨fun _ _ _ one two => one.trans two⟩

/-- How an operation ends: by steps, unless it does not end. -/
abbrev Stepped (fs : FileSystem) (post : Value → FileSystem → Prop) :=
  Program.Along FsSteps (· = IOStatus.never) fs post

section

variable {fs : FileSystem} {k : Nat}

theorem opened_place (inside : k < fs.objects.length)
    (state : FileState) : ((fs.place k state).object k).opened = (fs.object k).opened := by
  rw [object_place inside]
  simp only [FileObject.opened, Option.any_map]

theorem Allowed.place {kind : StepKind}
    (allowed : Allowed kind (fs.object k)) (inside : k < fs.objects.length) (state : FileState) :
    Allowed kind ((fs.place k state).object k) := by
  rw [Allowed, opened_place inside]
  exact allowed

theorem Sees.steps {kind : StepKind} {before after : FileState}
    (sees : Sees fs k before) (inside : k < fs.objects.length) (allowed : Allowed kind (fs.object k))
    (steps : FileSteps kind before after) : FsSteps fs (fs.place k after) := by
  induction steps with
  | refl =>
      rw [sees.place_self inside]
      exact .refl
  | @tail middle after earlier step induction =>
      have there : k < (fs.place k middle).objects.length := by
        rw [length_place]
        exact inside
      have first : fs.zbd.trace <+: middle.zbd.trace := sees.zbd ▸ fileSteps_trace earlier
      have second : middle.zbd.trace <+: after.zbd.trace := fileSteps_trace step.steps
      have onward := induction.tail
        (.file there (allowed.place inside middle) (sees_place inside middle) step)
      rw [place_place first second] at onward
      exact onward

theorem Sees.keep {invariant : FileSystem → Prop} {kind : StepKind}
    (kept : ∀ {fs : FileSystem} {before after : FileState}, k < fs.objects.length →
      Sees fs k before → FileStep kind before after → invariant fs → invariant (fs.place k after))
    {before after : FileState} (sees : Sees fs k before)
    (inside : k < fs.objects.length) (steps : FileSteps kind before after) (holds : invariant fs) :
    invariant (fs.place k after) := by
  induction steps with
  | refl =>
      rw [sees.place_self inside]
      exact holds
  | @tail middle after earlier step induction =>
      have there : k < (fs.place k middle).objects.length := by
        rw [length_place]
        exact inside
      have first : fs.zbd.trace <+: middle.zbd.trace := sees.zbd ▸ fileSteps_trace earlier
      have second : middle.zbd.trace <+: after.zbd.trace := fileSteps_trace step.steps
      have onward := kept there (sees_place inside middle) step induction
      rw [place_place first second] at onward
      exact onward

/-! ## Steps that leave the data alone -/

/-- What the steps of the table and of read handles leave of an object. Where there was
nothing there may be a new file. -/
structure FileObject.Relabel (before after : FileObject) : Prop where
  writer : after.writer = before.writer
  extents : after.file.extents = before.file.extents
  activeZone : after.file.activeZone = before.file.activeZone
  extentStart : after.file.extentStart = before.file.extentStart
  extentFilepos : after.file.extentFilepos = before.file.extentFilepos
  fileSize : after.file.fileSize = before.file.fileSize
  wal : after.file.wal = before.file.wal
  openForWr : after.file.openForWr = before.file.openForWr
  kind : FileObject.Fresh before ∨
    (after.file.isWal = before.file.isWal ∧ after.file.isSparse = before.file.isSparse)

def Referring (fs : FileSystem) : Prop := ∀ entry ∈ fs.files, entry.2 < fs.objects.length

structure Relabelled (before after : FileSystem) : Prop where
  zbd : after.zbd = before.zbd
  length : before.objects.length ≤ after.objects.length
  object : ∀ k, FileObject.Relabel (before.object k) (after.object k)
  referring : Referring before → Referring after

theorem FileObject.Relabel.refl (object : FileObject) : FileObject.Relabel object object :=
  ⟨rfl, rfl, rfl, rfl, rfl, rfl, rfl, rfl, .inr ⟨rfl, rfl⟩⟩

theorem Relabelled.inside {before after : FileSystem} (relabelled : Relabelled before after)
    (inside : k < before.objects.length) : k < after.objects.length :=
  Nat.lt_of_lt_of_le inside relabelled.length

theorem Relabelled.of_objects {before after : FileSystem} (zbd : after.zbd = before.zbd)
    (objects : after.objects = before.objects)
    (referring : Referring before → Referring after) : Relabelled before after := by
  refine ⟨zbd, by rw [objects], fun k => ?_, referring⟩
  rw [FileSystem.object, FileSystem.object, objects]
  exact .refl _

theorem Relabelled.setObject {object : FileObject}
    (relabel : FileObject.Relabel (fs.object k) object) : Relabelled fs (fs.setObject k object) := by
  have length : (fs.setObject k object).objects.length = fs.objects.length := by
    simp [FileSystem.setObject]
  refine ⟨rfl, Nat.le_of_eq length.symm, fun j => ?_, fun referring entry member => ?_⟩
  swap
  · rw [length]
    exact referring entry member
  by_cases here : j = k
  · rw [here]
    by_cases inside : k < fs.objects.length
    · rw [object_setObject inside]
      exact relabel
    · have same : fs.setObject k object = fs := by
        rw [FileSystem.setObject, List.set_eq_of_length_le (Nat.le_of_not_lt inside)]
      rw [same]
      exact .refl _
  · rw [object_setObject_of_ne here]
    exact .refl _

theorem Relabelled.trans {first second third : FileSystem} (one : Relabelled first second)
    (two : Relabelled second third) : Relabelled first third := by
  refine ⟨two.zbd.trans one.zbd, one.length.trans two.length, fun k => ?_,
    two.referring ∘ one.referring⟩
  have early := one.object k
  have late := two.object k
  refine ⟨late.writer.trans early.writer, late.extents.trans early.extents,
    late.activeZone.trans early.activeZone, late.extentStart.trans early.extentStart,
    late.extentFilepos.trans early.extentFilepos, late.fileSize.trans early.fileSize,
    late.wal.trans early.wal, late.openForWr.trans early.openForWr, ?_⟩
  rcases early.kind with fresh | same
  · exact .inl fresh
  · rcases late.kind with fresh | again
    · exact .inl ⟨early.writer ▸ fresh.writer, early.extents ▸ fresh.extents,
        early.activeZone ▸ fresh.activeZone, early.wal ▸ fresh.wal,
        early.openForWr ▸ fresh.openForWr⟩
    · exact .inr ⟨again.1.trans same.1, again.2.trans same.2⟩

theorem Relabelled.commit (k : Nat) (record : FileRecord) (entry : MetaRecord) (fs : FileSystem) :
    Relabelled fs (fs.commit k record entry) := by
  have length := length_commit k record entry fs
  refine ⟨commit_zbd _ _ _ _, Nat.le_of_eq length.symm, fun j => ?_, fun referring name member => ?_⟩
  swap
  · rw [files_commit] at member
    rw [length]
    exact referring name member
  rcases commit_counted k record entry fs j with ⟨count, same⟩
  rw [same]
  exact ⟨rfl, rfl, rfl, rfl, rfl, rfl, rfl, rfl, .inr ⟨rfl, rfl⟩⟩

theorem Relabelled.synced (k : Nat) (replace : Bool) (fs : FileSystem) :
    Relabelled fs (fs.synced k replace) := by
  rw [FileSystem.synced]
  simp only
  split
  · exact .of_objects rfl rfl id
  · exact (Relabelled.commit _ _ _ _).trans
      (.setObject ⟨rfl, rfl, rfl, rfl, rfl, rfl, rfl, rfl, .inr ⟨rfl, rfl⟩⟩)

theorem Relabelled.relink (k : Nat) (links : List String) (fs : FileSystem) :
    Relabelled fs (fs.relink k links) :=
  .setObject ⟨rfl, rfl, rfl, rfl, rfl, rfl, rfl, rfl, .inr ⟨rfl, rfl⟩⟩

theorem Relabelled.eraseName (name : String) (fs : FileSystem) :
    Relabelled fs (fs.eraseName name) := by
  refine .of_objects rfl rfl fun referring entry member => ?_
  exact referring entry (List.mem_of_mem_filter member)

theorem Relabelled.insertName (inside : k < fs.objects.length)
    (name : String) : Relabelled fs (fs.insertName name k) := by
  rw [FileSystem.insertName]
  split
  · exact .of_objects rfl rfl id
  · refine .of_objects rfl rfl fun referring entry member => ?_
    rcases List.mem_append.mp member with old | new
    · exact referring entry old
    · rw [List.mem_singleton.mp new]
      exact inside

theorem object_append (fs : FileSystem) (object : FileObject) (nextFileId k : Nat) :
    ({ fs with objects := fs.objects ++ [object], nextFileId := nextFileId } : FileSystem).object k =
      if k = fs.objects.length then object else fs.object k := by
  simp only [FileSystem.object, List.getD_eq_getElem?_getD]
  by_cases inside : k < fs.objects.length
  · rw [List.getElem?_append_left inside, if_neg (by omega)]
  · by_cases here : k = fs.objects.length
    · rw [if_pos here, here]
      simp
    · rw [if_neg here, List.getElem?_eq_none (by simp; omega), List.getElem?_eq_none (by omega)]

theorem Relabelled.append {object : FileObject} (fresh : FileObject.Relabel {} object)
    (nextFileId : Nat) :
    Relabelled fs { fs with objects := fs.objects ++ [object], nextFileId := nextFileId } := by
  refine ⟨rfl, by simp, fun k => ?_, fun referring entry member => ?_⟩
  swap
  · have inside := referring entry member
    simp only [List.length_append]
    omega
  rw [object_append]
  split
  · rename_i here
    rw [object_of_length_le (Nat.le_of_eq here.symm)]
    exact fresh
  · exact .refl _

theorem newFile_relabel (fileId : Nat) (name : String) (direct : Bool) :
    FileObject.Relabel {} { file := newFile fileId name direct } := by
  rw [newFile]
  simp only
  split
  · exact ⟨rfl, rfl, rfl, rfl, rfl, rfl, rfl, rfl, .inl ⟨rfl, rfl, rfl, rfl, rfl⟩⟩
  · exact ⟨rfl, rfl, rfl, rfl, rfl, rfl, rfl, rfl, .inl ⟨rfl, rfl, rfl, rfl, rfl⟩⟩

theorem Relabelled.appended (name : String) (direct : Bool) (fs : FileSystem) :
    Relabelled fs (fs.appended name direct) :=
  .append (newFile_relabel fs.nextFileId name direct) (fs.nextFileId + 1)

theorem length_appended (name : String) (direct : Bool) (fs : FileSystem) :
    (fs.appended name direct).objects.length = fs.objects.length + 1 := by
  rw [FileSystem.appended]
  exact List.length_append

theorem Relabelled.registered (name : String) (direct : Bool) (fs : FileSystem) :
    Relabelled (fs.appended name direct) (fs.created name direct) := by
  have synced := Relabelled.synced fs.objects.length false (fs.appended name direct)
  refine synced.trans (.insertName (synced.inside ?_) _)
  rw [length_appended]
  exact Nat.lt_succ_self _

theorem Relabelled.created (name : String) (direct : Bool) (fs : FileSystem) :
    Relabelled fs (fs.created name direct) :=
  (Relabelled.appended name direct fs).trans (.registered name direct fs)

theorem Relabelled.unnamed (k : Nat) (name : String) (fs : FileSystem) :
    Relabelled fs (fs.unnamed k name) :=
  (Relabelled.eraseName name fs).trans (.relink _ _ _)

theorem Relabelled.unlinked (k : Nat) (name : String) (fs : FileSystem) :
    Relabelled fs (fs.unlinked k name) := by
  have committed : Relabelled fs ((fs.unnamed k name).commit k
      ((fs.unnamed k name).object k).file.record (.deletion (fs.object k).file.fileId name)) :=
    (Relabelled.unnamed k name fs).trans (.commit k _ _ _)
  rw [FileSystem.unlinked]
  simp only
  split
  · exact committed.trans (.setObject ⟨rfl, rfl, rfl, rfl, rfl, rfl, rfl, rfl, .inr ⟨rfl, rfl⟩⟩)
  · exact committed

theorem Relabelled.kept (inside : k < fs.objects.length)
    (name : String) : Relabelled fs (fs.kept k name) :=
  have unnamed := Relabelled.unnamed k name fs
  unnamed.trans ((Relabelled.insertName (unnamed.inside inside) _).trans (.relink _ _ _))

theorem Relabelled.renamed (inside : k < fs.objects.length)
    (source dest : String) : Relabelled fs (fs.renamed k source dest) :=
  have erased := (Relabelled.relink k _ fs).trans (.eraseName source _)
  erased.trans (.insertName (erased.inside inside) _)

theorem Relabelled.linked (inside : k < fs.objects.length)
    (target : String) : Relabelled fs (fs.linked k target) :=
  have relinked := Relabelled.relink k _ fs
  relinked.trans (.insertName (relinked.inside inside) _)

end

inductive Coarse : FileSystem → FileSystem → Prop
  | file {fs k kind before after} : k < fs.objects.length → Allowed kind (fs.object k) →
      Sees fs k before → FileStep kind before after → Coarse fs (fs.place k after)
  | device {fs zbd} : DeviceStep fs.zbd zbd → Coarse fs { fs with zbd := zbd }
  | deferred {fs} (status) : Coarse fs { fs with zbd := setZoneDeferredStatus status fs.zbd }
  | reset {fs number} (answer) : Resettable fs.zbd number →
      (answer < 0 → fs.zbd.Failing) →
      Coarse fs { fs with zbd := unusedReset answer number fs.zbd }
  | relabel {fs after} : Relabelled fs after → Coarse fs after
  | attach {fs k} (config buffered) : k < fs.objects.length → (fs.object k).Fresh →
      Coarse fs (attachWriter config k buffered fs).2
  | handle {fs k writer} : k < fs.objects.length →
      (∀ handle, (fs.object k).writer = some handle → writer.isOpen = handle.isOpen) →
      ((fs.object k).file.isSparse = false → writer.bufferPos ≤ 2 ^ 20) →
      Coarse fs (fs.setHandle k writer)
  | detach {fs k} : k < fs.objects.length → (fs.object k).opened = false →
      Coarse fs (fs.setObject k { fs.object k with writer := none })
  | destroy {fs k} : fs.named k = false → (fs.object k).writer = none → Coarse fs (fs.destroyed k)

theorem FsStep.coarse {before after : FileSystem} (step : FsStep before after) :
    Coarse before after := by
  cases step with
  | file inside allowed sees step => exact .file inside allowed sees step
  | device step => exact .device step
  | deferred status => exact .deferred status
  | reset answer unused failing => exact .reset answer unused failing
  | create name direct => exact .relabel (.created name direct _)
  | discard => exact .relabel (.append (.refl _) _)
  | unlink => exact .relabel (.unlinked _ _ _)
  | keep inside => exact .relabel (.kept inside _)
  | stray => exact .relabel (.eraseName _ _)
  | @move k source dest inside =>
      exact .relabel ((Relabelled.renamed inside source dest).trans (.synced _ _ _))
  | @moveBack k source dest inside =>
      have there := Relabelled.renamed inside source dest
      exact .relabel (there.trans (.renamed (there.inside inside) _ _))
  | link inside => exact .relabel ((Relabelled.linked inside _).trans (.synced _ _ _))
  | linkBack inside => exact .relabel ((Relabelled.linked inside _).trans (.unnamed _ _ _))
  | attach config buffered inside fresh => exact .attach config buffered inside fresh
  | handle inside same bound => exact .handle inside same bound
  | detach inside closed => exact .detach inside closed
  | readers | hint =>
      exact .relabel (.setObject ⟨rfl, rfl, rfl, rfl, rfl, rfl, rfl, rfl, .inr ⟨rfl, rfl⟩⟩)
  | destroy unnamed unwritten => exact .destroy unnamed unwritten

theorem Coarse.length {before after : FileSystem} (step : Coarse before after) :
    before.objects.length ≤ after.objects.length := by
  cases step with
  | file => exact Nat.le_of_eq (length_place _ _ _).symm
  | device | deferred | reset => exact Nat.le_refl _
  | relabel relabelled => exact relabelled.length
  | attach | handle | detach | destroy => exact Nat.le_of_eq List.length_set.symm

end FileSystem

end Zwal
