import Zwal.Contracts.SnapshotRoundTrip

/-! # Incremental updates of one file

An update record carries the extents past `nr_synced_extents_`, and `MergeUpdate` adds them
to those it has. A replacement by the garbage collector clears the count before its record
is written: when that record fails, the next update carries every extent once more. -/

namespace Zwal.IncrementalUpdates

open FileSystem ZonedBlockDevice SnapshotRoundTrip

/-- A moment in the history of a file: the records that were emitted for it, and the file
as the last of them has it. -/
structure Moment where
  fs : FileSystem
  emitted : List MetaRecord
  last : FileRecord

inductive Call
  | update
  | replace (extents : List ZoneExtent)

def Call.run (k : Nat) : Call → FsProgram Unit
  | .update => syncFileMetadata k false
  | .replace extents => syncFileExtents k extents

/-- A call was made; the file of a call that returned without an error is the last one
that was synced. A deleted file is not persisted any more. -/
def Moment.after (k : Nat) (call : Call) (moment : Moment) : Moment where
  fs := (call.run k moment.fs).2
  emitted := moment.emitted ++ (call.run k moment.fs).2.metaLog.drop moment.fs.metaLog.length
  last :=
    if (call.run k moment.fs).1.isOk && !(moment.fs.object k).file.isDeleted then
      ((call.run k moment.fs).2.object k).file.record
    else moment.last

/-- A file whose members are machine numbers, whose record has a length of 32 bits, whose
extents lie in zones of the device, and which has names while it is not deleted. -/
structure WellFormed (found : FileSystem) (file : ZoneFile) : Prop where
  encodable : file.record.Encodable
  size : (file.record.encodeTo 0).length < 2 ^ 32
  known : ∀ extent ∈ file.extents, found.zbd.getIOZone extent.start = some extent.zone
  once : file.linkfiles.Nodup
  unnamed : "" ∉ file.linkfiles
  named : file.isDeleted = false → file.linkfiles ≠ []

structure Evolves (before after : ZoneFile) : Prop where
  fileId : after.fileId = before.fileId
  isWal : after.isWal = before.isWal
  walSeq : before.walSeq ≤ after.walSeq
  extents : before.extents <+: after.extents
  nrSyncedExtents : after.nrSyncedExtents = before.nrSyncedExtents

def Call.Fits (found : FileSystem) (file : ZoneFile) : Call → Prop
  | .update => True
  | .replace extents => WellFormed found { file with extents := extents }

inductive HistoryStep (found : FileSystem) (k : Nat) (permitted : Moment → Call → Prop) :
    Moment → Moment → Prop
  | change {moment fs} : k < fs.objects.length →
      Evolves (moment.fs.object k).file (fs.object k).file →
      WellFormed found (fs.object k).file →
      HistoryStep found k permitted moment { moment with fs := fs }
  | call {moment} (call : Call) : moment.fs.rolls.headD false = false →
      call.Fits found (moment.fs.object k).file → permitted moment call →
      HistoryStep found k permitted moment (moment.after k call)

structure Begun (found : FileSystem) (k : Nat) (moment : Moment) : Prop where
  inside : k < moment.fs.objects.length
  wellFormed : WellFormed found (moment.fs.object k).file
  live : (moment.fs.object k).file.isDeleted = false
  oneName : ∃ name, (moment.fs.object k).file.linkfiles = [name]
  empty : (moment.fs.object k).file.extents = []
  unsynced : (moment.fs.object k).file.nrSyncedExtents = 0
  emitted : moment.emitted = [.update (moment.fs.object k).file.record]
  last : moment.last = (moment.fs.object k).file.record

def History (found : FileSystem) (k : Nat) (permitted : Moment → Call → Prop) (moment : Moment) :
    Prop :=
  ∃ first, Begun found k first ∧
    Relation.ReflTransGen (HistoryStep found k permitted) first moment

/-- The records that were emitted give the file the snapshot of its last sync gives. -/
def Agrees (config : BuildConfig) (found : FileSystem) (moment : Moment) : Prop :=
  ∃ merged j snapshot i,
    recoverFromBytes config (moment.emitted.map MetaRecord.encode ++ [[]]) found = (.ok (), merged) ∧
    decodeFromBytes config (moment.last.encodeTo 0) found = (.ok i, snapshot) ∧
    (∀ name, merged.getFile name =
      if name ∈ (snapshot.object i).file.linkfiles then some j else none) ∧
    SameFile (snapshot.object i).file (merged.object j).file ∧
    (merged.object j).file.walSeq = (snapshot.object i).file.walSeq

def Counted (k : Nat) (moment : Moment) : Call → Prop
  | .update => (moment.fs.object k).file.isDeleted = false → 0 ≤ moment.fs.zbd.replies.headD 0 →
      (moment.fs.object k).file.nrSyncedExtents = moment.last.extents.length
  | .replace _ => True

/-! ## The names of a merged file -/

def erasedLinks (names : List String) (fs : FileSystem) : FileSystem :=
  names.foldl (fun fs name => fs.eraseName name) fs

theorem eraseLinks_eq {names : List String} (once : names.Nodup) {fs : FileSystem}
    (there : ∀ name ∈ names, (fs.getFile name).isSome) :
    eraseLinks names fs = (.ok (), erasedLinks names fs) := by
  induction names generalizing fs with
  | nil => rfl
  | cons name names induction =>
      rw [List.nodup_cons] at once
      rw [eraseLinks, bind_read, if_pos (there name List.mem_cons_self), bind_update]
      apply induction once.2
      intro other member
      have different : other ≠ name := by
        intro same
        exact once.1 (same ▸ member)
      rw [FileTable.getFile_eraseName_eq, Function.update_of_ne different]
      exact there other (List.mem_cons_of_mem _ member)

theorem getFile_erasedLinks (names : List String) (other : String) (fs : FileSystem) :
    (erasedLinks names fs).getFile other = if other ∈ names then none else fs.getFile other := by
  induction names generalizing fs with
  | nil => simp [erasedLinks]
  | cons name names induction =>
      rw [erasedLinks, List.foldl_cons, ← erasedLinks, induction, FileTable.getFile_eraseName_eq,
        Function.update_apply]
      by_cases here : other = name
      · simp [here]
      · simp [here]

theorem erasedLinks_fields (names : List String) (fs : FileSystem) :
    (erasedLinks names fs).zbd = fs.zbd ∧ (erasedLinks names fs).objects = fs.objects ∧
      ∀ entry ∈ (erasedLinks names fs).files, entry ∈ fs.files := by
  induction names generalizing fs with
  | nil => exact ⟨rfl, rfl, fun _ member => member⟩
  | cons name names induction =>
      rcases induction (fs.eraseName name) with ⟨zbd, objects, files⟩
      refine ⟨zbd, objects, fun entry member => ?_⟩
      exact List.mem_of_mem_filter (files entry member)

theorem mem_insertLinks {names : List String} {k : Nat} {fs : FileSystem} {entry : String × Nat}
    (member : entry ∈ (fs.insertLinks names k).files) : entry ∈ fs.files ∨ entry.2 = k := by
  induction names generalizing fs with
  | nil => exact .inl member
  | cons name names induction =>
      rcases @induction (fs.insertName name k) member with first | last
      · rw [insertName] at first
        split at first
        · exact .inl first
        · rcases List.mem_append.mp first with old | new
          · exact .inl old
          · rw [List.mem_singleton.mp new]
            exact .inr rfl
      · exact .inr last

/-! ## Merging one record -/

structure Decoded (record : FileRecord) (file : ZoneFile) : Prop where
  fileId : file.fileId = record.fileId
  fileSize : file.fileSize = record.fileSize
  lifetime : file.lifetime = record.lifetime
  extents : file.extents = record.extents
  walSeq : file.walSeq = record.walSeq.getD 0
  mTime : file.mTime = record.mTime
  extentStart : file.extentStart = record.extentStart
  isSparse : file.isSparse = record.isSparse
  linkfiles : file.linkfiles = record.linkfiles

/-- The records up to `record` were decoded: the table has one file, as `record` has it. -/
structure Merged (found : FileSystem) (record : FileRecord) (j : Nat) (fs : FileSystem) : Prop where
  fixed : Fixed found.zbd fs.zbd
  inside : j < fs.objects.length
  names : ∀ name, fs.getFile name = if name ∈ record.linkfiles then some j else none
  entries : ∀ entry ∈ fs.files, entry.2 = j
  file : Decoded record (fs.object j).file

structure Readable (found : FileSystem) (record : FileRecord) : Prop where
  encodable : record.Encodable
  size : (record.encodeTo 0).length < 2 ^ 32
  known : ∀ extent ∈ record.extents, found.zbd.getIOZone extent.start = some extent.zone
  once : record.linkfiles.Nodup
  unnamed : "" ∉ record.linkfiles
  named : record.linkfiles ≠ []

structure Continues (last record : FileRecord) (replace : Bool) : Prop where
  fileId : record.fileId = last.fileId
  walSeq : last.walSeq.getD 0 ≤ record.walSeq.getD 0
  extents : (if replace then [] else last.extents) ++ record.extents.drop record.nrSyncedExtents =
    record.extents

variable {found fs : FileSystem} {last record : FileRecord} {j : Nat}

structure Beside (record : FileRecord) (fs : FileSystem) (change : ZoneFile) (middle : FileSystem) :
    Prop where
  fixed : Fixed fs.zbd middle.zbd
  files : middle.files = fs.files
  length : middle.objects.length = fs.objects.length + 1
  objects : ∀ i, middle.object i = if i = fs.objects.length then { file := change } else fs.object i
  change : Decoded { record with extents := record.extents.drop record.nrSyncedExtents } change

theorem Readable.decodes (readable : Readable found record) (config : BuildConfig)
    (fixed : Fixed found.zbd fs.zbd) :
    ∃ change middle, Beside record fs change middle ∧
      decodeFrom config record (record.extents.drop record.nrSyncedExtents) fs =
        (.ok fs.objects.length, middle) := by
  have known : ∀ extent ∈ record.extents.drop record.nrSyncedExtents,
      fs.zbd.getIOZone extent.start = some extent.zone := by
    intro extent member
    rw [getIOZone_fixed fixed]
    exact readable.known extent (List.mem_of_mem_drop member)
  rcases decodeFrom_of_placed config (placed_of_known known) readable.unnamed with
    ⟨replies, events, _, _, run⟩
  refine ⟨decodedFile config record (record.extents.drop record.nrSyncedExtents)
    (record.extents.drop record.nrSyncedExtents)
    (walOf fs.zbd (record.extents.drop record.nrSyncedExtents)), _, ?_, run⟩
  constructor
  · exact (addUsed_fixed _ _).trans (noted_fixed _ _ _)
  · rfl
  · simp [quietly, withDecoded]
  · exact object_append fs _ 0
  · exact ⟨rfl, rfl, rfl, rfl, rfl, rfl, rfl, rfl, rfl⟩

theorem insertLinks_object (names : List String) (k i : Nat) (fs : FileSystem) :
    (fs.insertLinks names k).object i = fs.object i := by
  rw [FileSystem.object, (insertLinks_fields names k fs).2.1, FileSystem.object]

theorem decode_first (config : BuildConfig) (readable : Readable found record) {name : String}
    (oneName : record.linkfiles = [name]) (unsynced : record.nrSyncedExtents = 0)
    (files : found.files = []) :
    ∃ next, decodeFileUpdateFrom config record false found = (.ok (), next) ∧
      Merged found record found.objects.length next := by
  rcases readable.decodes config (.refl found.zbd) with ⟨change, middle, beside, run⟩
  have empty : middle.files = [] := beside.files.trans files
  have absent (other : String) : middle.getFile other = none := by
    rw [getFile, empty]
    rfl
  have names (other : String) : (middle.insertLinks [name] found.objects.length).getFile other =
      if other ∈ [name] then some found.objects.length else none := by
    rw [getFile_insertLinks, absent]
    simp only [and_true]
  refine ⟨middle.insertLinks [name] found.objects.length, ?_, ?_, ?_, ?_, ?_, ?_⟩
  · rw [decodeFileUpdateFrom, bind_of_ok run, bind_read]
    simp only [empty, List.find?_nil, oneName]
    rw [bind_of_ok (show Program.update (insertName name found.objects.length) middle =
      (.ok (), middle.insertLinks [name] found.objects.length) from rfl)]
    exact release_of_named (named_of_getFile ((names name).trans (if_pos List.mem_cons_self)))
  · rw [(insertLinks_fields _ _ _).1]
    exact beside.fixed
  · rw [(insertLinks_fields _ _ _).2.1, beside.length]
    exact Nat.lt_succ_self _
  · rw [oneName]
    exact names
  · intro entry member
    rcases mem_insertLinks member with old | new
    · rw [empty] at old
      cases old
    · exact new
  · rcases beside.change with ⟨fileId, size, lifetime, extents, walSeq, mTime, start, sparse, links⟩
    simp only [unsynced, List.drop_zero] at extents
    rw [insertLinks_object, beside.objects, if_pos rfl]
    exact ⟨fileId, size, lifetime, extents, walSeq, mTime, start, sparse, links⟩

theorem find_merged (merged : Merged found last j fs) (named : last.linkfiles ≠ []) {middle : FileSystem}
    (files : middle.files = fs.files) (object : middle.object j = fs.object j)
    (fileId : record.fileId = last.fileId) :
    ∃ name, middle.files.find? (fun entry => (middle.object entry.2).file.fileId == record.fileId) =
      some (name, j) := by
  rcases List.exists_mem_of_ne_nil _ named with ⟨name, linked⟩
  have there : fs.getFile name = some j := (merged.names name).trans (if_pos linked)
  have listed := mem_of_getFile there
  rw [← files] at listed
  cases found : middle.files.find? fun entry =>
      (middle.object entry.2).file.fileId == record.fileId with
  | none =>
      have different := List.find?_eq_none.mp found (name, j) listed
      refine absurd ?_ different
      rw [object, merged.file.fileId, fileId]
      exact beq_self_eq_true _
  | some entry =>
      have member := List.mem_of_find?_eq_some found
      rw [files] at member
      exact ⟨entry.1, congrArg some (Prod.ext rfl (merged.entries entry member))⟩

def remaining (replace : Bool) (file : ZoneFile) : ZoneFile :=
  if replace then { file with extents := [] } else file

theorem remaining_fields (replace : Bool) (file : ZoneFile) :
    (remaining replace file).fileId = file.fileId ∧ (remaining replace file).walSeq = file.walSeq ∧
      (remaining replace file).extents = if replace then [] else file.extents := by
  cases replace with
  | true | false => exact ⟨rfl, rfl, rfl⟩

theorem decoded_mergedFile {replace : Bool} {file change : ZoneFile} (decoded : Decoded last file)
    (later : Decoded { record with extents := record.extents.drop record.nrSyncedExtents } change)
    (continues : Continues last record replace) :
    Decoded record (mergedFile (remaining replace file) change) := by
  rcases remaining_fields replace file with ⟨number, seq, kept⟩
  have extents : (remaining replace file).extents ++ change.extents = record.extents := by
    rw [kept, decoded.extents, later.extents]
    exact continues.extents
  have walSeq : max (remaining replace file).walSeq change.walSeq = record.walSeq.getD 0 := by
    rw [seq, decoded.walSeq, later.walSeq]
    exact Nat.max_eq_right continues.walSeq
  have fileId : (remaining replace file).fileId = record.fileId := by
    rw [number, decoded.fileId, continues.fileId]
  exact ⟨fileId, later.fileSize, later.lifetime, extents, walSeq, later.mTime, later.extentStart,
    later.isSparse, later.linkfiles⟩

theorem file_merged {k : Nat} (inside : k < fs.objects.length) (n : Nat) :
    ((fs.merged k n).object k).file = mergedFile (fs.object k).file (fs.object n).file :=
  congrArg FileObject.file (@object_setObject
    { fs with zbd := (fs.object n).file.extents.foldl addUsed fs.zbd } k inside _)

theorem mergeUpdate_merges {k n : Nat} (inside : k < fs.objects.length) (different : n ≠ k)
    (replace : Bool) :
    ∃ next, mergeUpdate k n replace fs = (.ok (), next) ∧ Fixed fs.zbd next.zbd ∧
      next.files = fs.files ∧ next.objects.length = fs.objects.length ∧
      (next.object k).file = mergedFile (remaining replace (fs.object k).file) (fs.object n).file := by
  refine ⟨_, mergeUpdate_eq k n replace fs, ?_⟩
  cases replace with
  | false =>
      exact ⟨addUsed_fixed _ _, rfl, List.length_set, file_merged inside n⟩
  | true =>
      have cleared : (clearExtents k fs).2.object k =
          { fs.object k with file := { (fs.object k).file with extents := [] } } :=
        @object_setObject { fs with zbd := (fs.object k).file.extents.foldl removeUsed fs.zbd } k
          inside _
      have other : (clearExtents k fs).2.object n = fs.object n :=
        @object_setObject_of_ne { fs with zbd := (fs.object k).file.extents.foldl removeUsed fs.zbd }
          k n different _
      have same : (clearExtents k fs).2.objects.length = fs.objects.length := List.length_set
      refine ⟨(removeUsed_fixed _ _).trans (addUsed_fixed _ _), rfl, List.length_set.trans same, ?_⟩
      have merged := @file_merged (clearExtents k fs).2 k (same ▸ inside) n
      rw [cleared, other] at merged
      exact merged

theorem decode_next (config : BuildConfig) {replace : Bool} (merged : Merged found last j fs)
    (before : Readable found last) (readable : Readable found record)
    (continues : Continues last record replace) :
    ∃ next, decodeFileUpdateFrom config record replace fs = (.ok (), next) ∧
      Merged found record j next := by
  rcases readable.decodes config merged.fixed with ⟨change, middle, beside, run⟩
  have inside := merged.inside
  have here : middle.object j = fs.object j := by
    rw [beside.objects, if_neg (Nat.ne_of_lt inside)]
  rcases find_merged merged before.named beside.files here continues.fileId with ⟨name, same⟩
  have links : eraseLinks (middle.object j).file.linkfiles middle =
      (.ok (), erasedLinks last.linkfiles middle) := by
    rw [here, merged.file.linkfiles]
    apply eraseLinks_eq before.once
    intro other linked
    rw [getFile, beside.files]
    exact Option.isSome_of_eq_some ((merged.names other).trans (if_pos linked))
  rcases erasedLinks_fields last.linkfiles middle with ⟨device, objects, entries⟩
  have absent (other : String) : (erasedLinks last.linkfiles middle).getFile other = none := by
    rw [getFile_erasedLinks, getFile, beside.files]
    split
    · rfl
    · rename_i unlinked
      exact (merged.names other).trans (if_neg unlinked)
  generalize erasedLinks last.linkfiles middle = erased at links device objects entries absent
  have object (i : Nat) : erased.object i = middle.object i := by
    rw [FileSystem.object, objects, FileSystem.object]
  have length : erased.objects.length = fs.objects.length + 1 := by rw [objects, beside.length]
  rcases @mergeUpdate_merges erased j fs.objects.length (by omega) (by omega) replace with
    ⟨joined, joins, fixed, files, count, file⟩
  rcases @destroy_cases joined fs.objects.length (by omega) with ⟨replies, events, _, _, destroyed⟩
  have kept : (((joined.quietly replies events).destroyed fs.objects.length).object j) =
      joined.object j := by
    rw [object_destroyed, if_neg (Nat.ne_of_lt inside)]
    rfl
  have unnamed (other : String) :
      ((joined.quietly replies events).destroyed fs.objects.length).getFile other = none := by
    have table : ((joined.quietly replies events).destroyed fs.objects.length).files = erased.files :=
      files
    rw [getFile, table]
    exact absent other
  have names (other : String) : (((joined.quietly replies events).destroyed
      fs.objects.length).insertLinks record.linkfiles j).getFile other =
        if other ∈ record.linkfiles then some j else none := by
    rw [getFile_insertLinks, unnamed]
    simp only [and_true]
  refine ⟨((joined.quietly replies events).destroyed fs.objects.length).insertLinks
    record.linkfiles j, ?_, ?_, ?_, names, ?_, ?_⟩
  · rw [decodeFileUpdateFrom, bind_of_ok run, bind_read]
    simp only [same]
    rw [bind_of_ok links, bind_of_ok joins, bind_of_ok destroyed, bind_update]
    rcases List.exists_mem_of_ne_nil _ readable.named with ⟨label, linked⟩
    exact release_of_named (named_of_getFile ((names label).trans (if_pos linked)))
  · rw [(insertLinks_fields _ _ _).1]
    have early : Fixed found.zbd joined.zbd :=
      (merged.fixed.trans beside.fixed).trans (device ▸ fixed)
    exact (early.trans (noted_fixed _ _ _)).trans (removeUsed_fixed _ _)
  · rw [(insertLinks_fields _ _ _).2.1]
    have whole : ((joined.quietly replies events).destroyed fs.objects.length).objects.length =
        joined.objects.length := List.length_set
    omega
  · intro entry member
    rcases mem_insertLinks member with old | new
    · have listed := entries entry (files ▸ old)
      rw [beside.files] at listed
      exact merged.entries entry listed
    · exact new
  · rw [insertLinks_object, kept, file, object, object, here, beside.objects, if_pos rfl]
    exact decoded_mergedFile merged.file beside.change continues

/-! ## One call -/

def Call.target (file : ZoneFile) : Call → ZoneFile
  | .update => file
  | .replace extents => { file with extents := extents, nrSyncedExtents := 0 }

def Call.isReplace : Call → Bool
  | .update => false
  | .replace _ => true

def Call.entry (file : ZoneFile) (call : Call) : MetaRecord :=
  if call.isReplace then .replace (call.target file).record else .update (call.target file).record

/-- How a call that is not refused ends: a record was written, or none. -/
inductive Outcome (k : Nat) (call : Call) (moment : Moment) : Prop
  | kept : k < (moment.after k call).fs.objects.length →
      ((moment.after k call).fs.object k).file = call.target (moment.fs.object k).file →
      (moment.after k call).emitted = moment.emitted →
      (moment.after k call).last = moment.last → Outcome k call moment
  | written : k < (moment.after k call).fs.objects.length →
      (moment.fs.object k).file.isDeleted = false → 0 ≤ moment.fs.zbd.replies.headD 0 →
      ((moment.after k call).fs.object k).file =
        { call.target (moment.fs.object k).file with
          nrSyncedExtents := (call.target (moment.fs.object k).file).extents.length } →
      (moment.after k call).emitted = moment.emitted ++ [call.entry (moment.fs.object k).file] →
      (moment.after k call).last = ((moment.after k call).fs.object k).file.record →
      Outcome k call moment

variable {k : Nat}

theorem synced_live (inside : k < fs.objects.length) (live : (fs.object k).file.isDeleted = false)
    (unrolled : fs.rolls.headD false = false) (replace : Bool) :
    (fs.synced k replace).objects.length = fs.objects.length ∧
      ((fs.synced k replace).object k).file =
        { (fs.object k).file with nrSyncedExtents := (fs.object k).file.extents.length } ∧
      (fs.synced k replace).metaLog = fs.metaLog ++
        [if replace then .replace (fs.object k).file.record else .update (fs.object k).file.record] := by
  have committed : ∀ record entry, (fs.commit k record entry).objects = fs.objects ∧
      (fs.commit k record entry).metaLog = fs.metaLog ++ [entry] := by
    intro record entry
    rw [commit]
    split
    · rename_i rest rolls
      simp [rolls] at unrolled
    all_goals exact ⟨rfl, rfl⟩
  rcases committed (fs.object k).file.record
    (if replace then .replace (fs.object k).file.record else .update (fs.object k).file.record) with
    ⟨objects, log⟩
  have same : (fs.commit k (fs.object k).file.record (if replace then
      .replace (fs.object k).file.record else .update (fs.object k).file.record)).object k =
        fs.object k := by
    rw [FileSystem.object, objects, FileSystem.object]
  have unfolded : fs.synced k replace = _ := if_neg (by simp [live])
  rw [unfolded]
  refine ⟨?_, ?_, log⟩
  · rw [setObject, List.length_set, objects]
  · rw [object_setObject (objects ▸ inside), same]

theorem syncFileMetadata_eq (k : Nat) (replace : Bool) (fs : FileSystem) :
    syncFileMetadata k replace fs =
      if (fs.object k).file.isDeleted then
        (if (fs.object k).file.getFilename.isNone then .error .never else .ok (), fs)
      else if fs.zbd.replies.headD 0 < 0 then
        (.error (.ioError "Failed to persist metadata"), fs.answered fs.zbd.replies.tail)
      else (.ok (), (fs.answered fs.zbd.replies.tail).synced k replace) := by
  rw [syncFileMetadata, bind_read]
  cases deleted : (fs.object k).file.isDeleted with
  | true =>
      simp only [if_true]
      split
      · rfl
      · rfl
  | false =>
      have written := persistRecord_eq k (if replace then .replace (fs.object k).file.record
        else .update (fs.object k).file.record) fs
      simp only [Bool.false_eq_true, if_false]
      by_cases negative : fs.zbd.replies.headD 0 < 0
      · rw [if_pos negative] at written
        rw [bind_of_error written, if_pos negative]
      · rw [if_neg negative] at written
        have unfolded : (fs.answered fs.zbd.replies.tail).synced k replace = _ := if_neg (by
          rw [show ((fs.answered fs.zbd.replies.tail).object k).file.isDeleted = false from deleted]
          exact Bool.false_ne_true)
        rw [bind_of_ok written, if_neg negative, unfolded]
        rfl

/-- The file system when the record of a call is about to be written. -/
def Call.start (k : Nat) (fs : FileSystem) : Call → FileSystem
  | .update => fs
  | .replace extents => fs.repointed k extents

def Call.finish (old : List ZoneExtent) (fs : FileSystem) : Call → FileSystem
  | .update => fs
  | .replace extents => fs.dropped (old.zip extents)

theorem Call.finish_fields (call : Call) (old : List ZoneExtent) (fs : FileSystem) :
    (call.finish old fs).objects = fs.objects ∧ (call.finish old fs).metaLog = fs.metaLog := by
  cases call with
  | update | replace => exact ⟨rfl, rfl⟩

theorem Call.start_fields (call : Call) (inside : k < fs.objects.length) :
    (call.start k fs).objects.length = fs.objects.length ∧
      ((call.start k fs).object k).file = call.target (fs.object k).file ∧
      (call.start k fs).metaLog = fs.metaLog ∧ (call.start k fs).rolls = fs.rolls ∧
      (call.start k fs).zbd = fs.zbd := by
  cases call with
  | update => exact ⟨rfl, rfl, rfl, rfl, rfl⟩
  | replace extents =>
      refine ⟨List.length_set, ?_, rfl, rfl, rfl⟩
      exact congrArg FileObject.file (object_setObject inside _)

theorem Call.target_deleted (call : Call) (file : ZoneFile) :
    (call.target file).isDeleted = file.isDeleted := by
  cases call with
  | update | replace => rfl

theorem Call.run_deleted (call : Call) (inside : k < fs.objects.length)
    (gone : (fs.object k).file.isDeleted = true) :
    ∃ outcome after, call.run k fs = (outcome, after) ∧ after.objects = (call.start k fs).objects ∧
      after.metaLog = (call.start k fs).metaLog := by
  cases call with
  | update =>
      have synced := syncFileMetadata_eq k false fs
      rw [if_pos gone] at synced
      exact ⟨_, _, synced, rfl, rfl⟩
  | replace extents =>
      have same := (Call.start_fields (.replace extents) inside).2.1
      have deleted : ((fs.repointed k extents).object k).file.isDeleted = true :=
        (congrArg ZoneFile.isDeleted same).trans ((Call.target_deleted _ _).trans gone)
      have synced := syncFileMetadata_eq k true (fs.repointed k extents)
      rw [if_pos deleted] at synced
      rw [Call.run, syncFileExtents_eq]
      by_cases unnamed : ((fs.repointed k extents).object k).file.getFilename.isNone = true
      · rw [if_pos unnamed] at synced
        exact ⟨_, _, bind_of_error synced, rfl, rfl⟩
      · rw [if_neg unnamed] at synced
        exact ⟨_, _, bind_of_ok synced, rfl, rfl⟩

theorem Call.run_eq (call : Call) (inside : k < fs.objects.length)
    (live : (fs.object k).file.isDeleted = false) :
    call.run k fs =
      if fs.zbd.replies.headD 0 < 0 then
        (.error (.ioError "Failed to persist metadata"),
          (call.start k fs).answered fs.zbd.replies.tail)
      else (.ok (), call.finish (fs.object k).file.extents
        (((call.start k fs).answered fs.zbd.replies.tail).synced k call.isReplace)) := by
  have kept : ((call.start k fs).object k).file.isDeleted = false :=
    (congrArg ZoneFile.isDeleted (call.start_fields inside).2.1).trans
      ((call.target_deleted _).trans live)
  have synced := syncFileMetadata_eq k call.isReplace (call.start k fs)
  rw [if_neg (by rw [kept]; exact Bool.false_ne_true), (call.start_fields inside).2.2.2.2] at synced
  cases call with
  | update => exact synced
  | replace extents =>
      rw [Call.run, syncFileExtents_eq]
      by_cases negative : fs.zbd.replies.headD 0 < 0
      · rw [if_pos negative] at synced ⊢
        exact bind_of_error synced
      · rw [if_neg negative] at synced ⊢
        exact bind_of_ok synced

theorem Call.outcome (call : Call) {moment : Moment} (inside : k < moment.fs.objects.length)
    (unrolled : moment.fs.rolls.headD false = false) : Outcome k call moment := by
  rcases call.start_fields inside with ⟨length, file, log, rolls, device⟩
  by_cases gone : (moment.fs.object k).file.isDeleted = true
  · rcases call.run_deleted inside gone with ⟨outcome, after, run, objects, same⟩
    refine .kept ?_ ?_ ?_ ?_
    all_goals rw [Moment.after, run]
    · simp only
      rw [objects, length]
      exact inside
    · simp only
      rw [FileSystem.object, objects, ← FileSystem.object]
      exact file
    · simp [same, log]
    · simp [gone]
  · have run := call.run_eq inside (Bool.eq_false_iff.mpr gone)
    by_cases negative : moment.fs.zbd.replies.headD 0 < 0
    · rw [if_pos negative] at run
      refine .kept ?_ ?_ ?_ ?_
      all_goals rw [Moment.after, run]
      · exact length ▸ inside
      · exact file
      · simp [answered, log]
      · simp [Except.isOk, Except.toBool]
    · rw [if_neg negative] at run
      have live : (((call.start k moment.fs).answered moment.fs.zbd.replies.tail).object
          k).file.isDeleted = false :=
        (congrArg ZoneFile.isDeleted file).trans
          ((call.target_deleted _).trans (Bool.eq_false_iff.mpr gone))
      rcases @synced_live ((call.start k moment.fs).answered moment.fs.zbd.replies.tail) k
        (length ▸ inside) live (rolls ▸ unrolled) call.isReplace with ⟨count, marked, record⟩
      rcases call.finish_fields (moment.fs.object k).file.extents
        (((call.start k moment.fs).answered moment.fs.zbd.replies.tail).synced k call.isReplace) with
        ⟨objects, same⟩
      have saved : ((moment.after k call).fs.object k).file =
          { call.target (moment.fs.object k).file with
            nrSyncedExtents := (call.target (moment.fs.object k).file).extents.length } := by
        rw [← file, Moment.after, run]
        simp only
        rw [FileSystem.object, objects, ← FileSystem.object]
        exact marked
      refine .written ?_ (Bool.eq_false_iff.mpr gone) (Int.not_lt.mp negative) saved ?_ ?_
      · rw [Moment.after, run]
        simp only
        rw [objects, count]
        exact length ▸ inside
      · rw [Moment.after, run]
        simp only
        have whole : ((call.start k moment.fs).answered moment.fs.zbd.replies.tail).metaLog =
            moment.fs.metaLog := log
        rw [same, record, Call.entry, ← file, whole, List.drop_left]
        rfl
      · rw [Moment.after, run]
        simp [Except.isOk, Except.toBool, Bool.eq_false_iff.mpr gone]

/-! ## A whole history -/

/-- The last record of a file, the file as it is now, and what the records give. -/
structure Held (config : BuildConfig) (found : FileSystem) (k : Nat) (moment : Moment) : Prop where
  inside : k < moment.fs.objects.length
  wellFormed : WellFormed found (moment.fs.object k).file
  readable : Readable found moment.last
  encodable : ∀ entry ∈ moment.emitted, entry.Encodable
  fileId : (moment.fs.object k).file.fileId = moment.last.fileId
  walSeq : moment.last.walSeq.getD 0 ≤ (moment.fs.object k).file.record.walSeq.getD 0
  synced : (moment.fs.object k).file.nrSyncedExtents = moment.last.extents.length →
    moment.last.extents <+: (moment.fs.object k).file.extents
  merged : ∃ merged j, recoverFrom config moment.emitted found = (.ok (), merged) ∧
    Merged found moment.last j merged

theorem WellFormed.readable {file : ZoneFile} (wellFormed : WellFormed found file)
    (live : file.isDeleted = false) : Readable found file.record :=
  ⟨wellFormed.encodable, wellFormed.size, wellFormed.known, wellFormed.once, wellFormed.unnamed, wellFormed.named live⟩

theorem Readable.entries (readable : Readable found record) :
    (MetaRecord.update record).Encodable ∧ (MetaRecord.replace record).Encodable := by
  have short : (record.encodeTo record.nrSyncedExtents).length < 2 ^ 32 :=
    (FileRecord.length_encodeTo_le record _).trans_lt readable.size
  exact ⟨⟨short, readable.encodable⟩, ⟨short, readable.encodable⟩⟩

theorem Readable.marked (readable : Readable found record) (count : Nat) :
    Readable found { record with nrSyncedExtents := count } := by
  rcases readable with ⟨encodable, size, known, once, unnamed, named⟩
  rcases encodable with ⟨fileId, fileSize, lifetime, extents, seq, time, start, links⟩
  exact ⟨⟨fileId, fileSize, lifetime, extents, seq, time, start, links⟩, size, known, once, unnamed,
    named⟩

theorem WellFormed.marked {file : ZoneFile} (wellFormed : WellFormed found file) (count : Nat) :
    WellFormed found { file with nrSyncedExtents := count } := by
  rcases wellFormed with ⟨encodable, size, known, once, unnamed, named⟩
  rcases encodable with ⟨fileId, fileSize, lifetime, extents, seq, time, start, links⟩
  exact ⟨⟨fileId, fileSize, lifetime, extents, seq, time, start, links⟩, size, known, once, unnamed,
    named⟩

theorem Merged.marked (merged : Merged found record j fs) (count : Nat) :
    Merged found { record with nrSyncedExtents := count } j fs := by
  rcases merged with ⟨fixed, inside, names, entries, file⟩
  rcases file with ⟨fileId, size, lifetime, extents, seq, time, start, sparse, links⟩
  exact ⟨fixed, inside, names, entries,
    ⟨fileId, size, lifetime, extents, seq, time, start, sparse, links⟩⟩

theorem recoverFrom_append (config : BuildConfig) (log more : List MetaRecord) (fs : FileSystem) :
    recoverFrom config (log ++ more) fs =
      (recoverFrom config log >>= fun _ => recoverFrom config more) fs := by
  induction log generalizing fs with
  | nil => rfl
  | cons entry log induction =>
      rw [List.cons_append, recoverFrom, recoverFrom, Program.bind_assoc]
      exact congrArg (fun onward => (decodeRecord config entry >>= onward) fs)
        (funext fun _ => funext induction)

theorem Held.first {config : BuildConfig} {moment : Moment} (begun : Begun found k moment)
    (files : found.files = []) : Held config found k moment := by
  rcases begun.oneName with ⟨name, oneName⟩
  have readable := begun.wellFormed.readable begun.live
  rcases decode_first config readable oneName begun.unsynced files with ⟨next, run, merged⟩
  refine ⟨begun.inside, begun.wellFormed, begun.last ▸ readable, ?_, ?_, ?_, ?_, ?_⟩
  · rw [begun.emitted]
    intro entry member
    rw [List.mem_singleton.mp member]
    exact readable.entries.1
  · rw [begun.last]
    rfl
  · rw [begun.last]
  · intro _
    rw [begun.last]
    exact List.prefix_rfl
  · refine ⟨next, found.objects.length, ?_, begun.last ▸ merged⟩
    rw [begun.emitted, recoverFrom]
    exact bind_of_ok run

theorem Held.change {config : BuildConfig} {moment : Moment} (held : Held config found k moment)
    (inside : k < fs.objects.length) (evolves : Evolves (moment.fs.object k).file (fs.object k).file)
    (wellFormed : WellFormed found (fs.object k).file) :
    Held config found k { moment with fs := fs } := by
  refine ⟨inside, wellFormed, held.readable, held.encodable, evolves.fileId.trans held.fileId, ?_, ?_,
    held.merged⟩
  · refine held.walSeq.trans ?_
    simp only [ZoneFile.record, evolves.isWal]
    split
    · exact evolves.walSeq
    · exact Nat.le_refl _
  · intro counted
    exact (held.synced (evolves.nrSyncedExtents ▸ counted)).trans evolves.extents

theorem Call.target_fields (call : Call) (file : ZoneFile) :
    (call.target file).fileId = file.fileId ∧ (call.target file).record.walSeq = file.record.walSeq := by
  cases call with
  | update | replace => exact ⟨rfl, rfl⟩

theorem Call.Fits.wellFormed {call : Call} {file : ZoneFile} (fits : call.Fits found file)
    (wellFormed : WellFormed found file) : WellFormed found (call.target file) := by
  cases call with
  | update => exact wellFormed
  | replace extents =>
      rcases fits with ⟨encodable, size, known, once, unnamed, named⟩
      rcases encodable with ⟨fileId, fileSize, lifetime, extents, seq, time, start, links⟩
      exact ⟨⟨fileId, fileSize, lifetime, extents, seq, time, start, links⟩, size, known, once,
        unnamed, named⟩

theorem Held.continues {config : BuildConfig} {moment : Moment} (held : Held config found k moment)
    (call : Call) (live : (moment.fs.object k).file.isDeleted = false)
    (written : 0 ≤ moment.fs.zbd.replies.headD 0) (counted : Counted k moment call) :
    Continues moment.last (call.target (moment.fs.object k).file).record call.isReplace := by
  rcases call.target_fields (moment.fs.object k).file with ⟨fileId, walSeq⟩
  refine ⟨fileId.trans held.fileId, ?_, ?_⟩
  · rw [walSeq]
    exact held.walSeq
  · cases call with
    | update =>
        have synced := counted live written
        rcases held.synced synced with ⟨more, extents⟩
        have dropped : (moment.fs.object k).file.extents.drop
            (moment.fs.object k).file.nrSyncedExtents = more := by
          rw [synced, ← extents, List.drop_left]
        exact (congrArg (moment.last.extents ++ ·) dropped).trans extents
    | replace extents => rfl

theorem Held.call {config : BuildConfig} {moment : Moment} (held : Held config found k moment)
    {call : Call} (unrolled : moment.fs.rolls.headD false = false)
    (fits : call.Fits found (moment.fs.object k).file) (counted : Counted k moment call) :
    Held config found k (moment.after k call) := by
  rcases call.target_fields (moment.fs.object k).file with ⟨fileId, walSeq⟩
  have wellFormed := fits.wellFormed held.wellFormed
  rcases call.outcome held.inside unrolled with
    ⟨inside, file, emitted, last⟩ | ⟨inside, live, written, file, emitted, last⟩
  · refine ⟨inside, file ▸ wellFormed, last ▸ held.readable, emitted ▸ held.encodable, ?_, ?_, ?_, ?_⟩
    · rw [file, last, fileId]
      exact held.fileId
    · rw [file, last, walSeq]
      exact held.walSeq
    · rw [file, last]
      cases call with
      | update => exact held.synced
      | replace extents =>
          intro none
          rw [List.eq_nil_of_length_eq_zero none.symm]
          exact List.nil_prefix
    · rw [emitted, last]
      exact held.merged
  · have readable := wellFormed.readable ((call.target_deleted _).trans live)
    have continues := held.continues call live written counted
    rcases held.merged with ⟨merged, j, run, holds⟩
    rcases decode_next config holds held.readable readable continues with ⟨next, step, onward⟩
    have marked : (moment.after k call).last =
        { (call.target (moment.fs.object k).file).record with
          nrSyncedExtents := (call.target (moment.fs.object k).file).extents.length } := by
      rw [last, file]
      rfl
    refine ⟨inside, ?_, marked ▸ readable.marked _, ?_, ?_, ?_, ?_, ?_⟩
    · rw [file]
      exact wellFormed.marked _
    · rw [emitted]
      intro entry member
      rcases List.mem_append.mp member with early | late
      · exact held.encodable entry early
      · rw [List.mem_singleton.mp late, Call.entry]
        split
        · exact readable.entries.2
        · exact readable.entries.1
    · rw [last]
      rfl
    · rw [last]
    · intro _
      rw [last]
      exact List.prefix_rfl
    · refine ⟨next, j, ?_, marked ▸ onward.marked _⟩
      rw [emitted, recoverFrom_append, bind_of_ok run, recoverFrom, Call.entry]
      cases call with
      | update | replace => exact bind_of_ok step

theorem Held.run {config : BuildConfig} {first moment : Moment} (held : Held config found k first)
    (history : Relation.ReflTransGen (HistoryStep found k (Counted k)) first moment) :
    Held config found k moment := by
  induction history with
  | refl => exact held
  | tail _ step induction =>
      cases step with
      | change inside evolves wellFormed => exact induction.change inside evolves wellFormed
      | call call unrolled fits counted => exact induction.call unrolled fits counted

theorem Readable.snapshot (readable : Readable found record) (config : BuildConfig) :
    ∃ snapshot, decodeFromBytes config (record.encodeTo 0) found =
        (.ok found.objects.length, snapshot) ∧
      Decoded record (snapshot.object found.objects.length).file := by
  have decoded := decodeFromBytes_encodeTo config readable.encodable 0 found
  rw [List.drop_zero] at decoded
  rcases (readable.marked 0).decodes config (.refl found.zbd) with ⟨change, snapshot, beside, run⟩
  refine ⟨snapshot, decoded.trans run, ?_⟩
  rcases beside.change with ⟨fileId, size, lifetime, extents, walSeq, mTime, start, sparse, links⟩
  rw [beside.objects, if_pos rfl]
  exact ⟨fileId, size, lifetime, extents, walSeq, mTime, start, sparse, links⟩

theorem Held.agrees {config : BuildConfig} {moment : Moment} (held : Held config found k moment) :
    Agrees config found moment := by
  rcases held.merged with ⟨merged, j, run, holds⟩
  rcases held.readable.snapshot config with ⟨snapshot, snapped, fields⟩
  refine ⟨merged, j, snapshot, found.objects.length, ?_, snapped, ?_, ?_, ?_⟩
  · rw [recoverFromBytes_encode config held.encodable]
    exact run
  · intro name
    rw [fields.linkfiles]
    exact holds.names name
  · have same := holds.file
    exact ⟨same.fileId.trans fields.fileId.symm, same.fileSize.trans fields.fileSize.symm,
      same.lifetime.trans fields.lifetime.symm, same.extents.trans fields.extents.symm,
      same.mTime.trans fields.mTime.symm, same.extentStart.trans fields.extentStart.symm,
      same.isSparse.trans fields.isSparse.symm, same.linkfiles.trans fields.linkfiles.symm⟩
  · exact holds.file.walSeq.trans fields.walSeq.symm

/-- In a history whose updates count as synced what the last record has, the records give
the file of the last sync. -/
theorem updates_agree (config : BuildConfig) {found : FileSystem} (files : found.files = [])
    {k : Nat} {moment : Moment} (history : History found k (Counted k) moment) :
    Agrees config found moment := by
  rcases history with ⟨first, begun, steps⟩
  exact ((Held.first begun files).run steps).agrees

/-! ## A replacement that fails -/

/-- A file was created, and the record of that was written; `replies` are what is answered
from then on. -/
def newborn (replies : List Int) : Moment :=
  let fs := FileSystem.runAll smallConfig 1 [.openWritable "/a.sst" true false]
    (FileTable.oneZone (0 :: replies))
  ⟨fs, [.update (fs.object 0).file.record], (fs.object 0).file.record⟩

def grown (moment : Moment) : Moment :=
  { moment with fs := moment.fs.setObject 0 { moment.fs.object 0 with
      file := { (moment.fs.object 0).file with extents := [⟨19456, 64, 19⟩], fileSize := 64 } } }

def collected (moment : Moment) : Moment :=
  (((grown moment).after 0 .update).after 0 (.replace [⟨19520, 64, 19⟩])).after 0 .update

theorem encodable_iff (record : FileRecord) : record.Encodable ↔ record.fileId < 2 ^ 64 ∧
    record.fileSize < 2 ^ 64 ∧ record.lifetime < 2 ^ 32 ∧
    (∀ extent ∈ record.extents, extent.start < 2 ^ 64 ∧ extent.length < 2 ^ 64) ∧
    (∀ walSeq ∈ record.walSeq, walSeq < 2 ^ 64) ∧ record.mTime < 2 ^ 64 ∧
    record.extentStart < 2 ^ 64 ∧ ∀ name ∈ record.linkfiles, (nameBytes name).length < 2 ^ 32 := by
  constructor
  · rintro ⟨fileId, size, lifetime, extents, seq, time, start, links⟩
    exact ⟨fileId, size, lifetime, extents, seq, time, start, links⟩
  · rintro ⟨fileId, size, lifetime, extents, seq, time, start, links⟩
    exact ⟨fileId, size, lifetime, extents, seq, time, start, links⟩

instance (record : FileRecord) : Decidable record.Encodable :=
  decidable_of_iff' _ (encodable_iff record)

instance (entry : MetaRecord) : Decidable entry.Encodable :=
  match entry with
  | .snapshot records => inferInstanceAs (Decidable (_ ∧ ∀ record ∈ records, FileRecord.Encodable record))
  | .update record | .replace record => inferInstanceAs (Decidable (_ ∧ record.Encodable))
  | .deletion fileId _ => inferInstanceAs (Decidable (_ ∧ fileId < 2 ^ 64))

theorem wellFormed_iff (found : FileSystem) (file : ZoneFile) : WellFormed found file ↔
    file.record.Encodable ∧ (file.record.encodeTo 0).length < 2 ^ 32 ∧
    (∀ extent ∈ file.extents, found.zbd.getIOZone extent.start = some extent.zone) ∧
    file.linkfiles.Nodup ∧ "" ∉ file.linkfiles ∧
    (file.isDeleted = false → file.linkfiles ≠ []) := by
  constructor
  · rintro ⟨encodable, size, known, once, unnamed, named⟩
    exact ⟨encodable, size, known, once, unnamed, named⟩
  · rintro ⟨encodable, size, known, once, unnamed, named⟩
    exact ⟨encodable, size, known, once, unnamed, named⟩

instance (found : FileSystem) (file : ZoneFile) : Decidable (WellFormed found file) :=
  decidable_of_iff' _ (wellFormed_iff found file)

def Steady (moment : Moment) : Prop :=
  0 < moment.fs.objects.length ∧
    WellFormed (FileTable.oneZone []) (moment.fs.object 0).file ∧
    (moment.fs.object 0).file.isDeleted = false ∧
    (moment.fs.object 0).file.linkfiles = ["/a.sst"] ∧
    (moment.fs.object 0).file.extents = [] ∧
    (moment.fs.object 0).file.nrSyncedExtents = 0 ∧
    moment.emitted = [.update (moment.fs.object 0).file.record] ∧
    moment.last = (moment.fs.object 0).file.record ∧
    WellFormed (FileTable.oneZone []) ((grown moment).fs.object 0).file ∧
    (grown moment).fs.rolls = [] ∧
    ((grown moment).after 0 .update).fs.rolls = [] ∧
    WellFormed (FileTable.oneZone []) { (((grown moment).after 0 .update).fs.object 0).file with
      extents := [⟨19520, 64, 19⟩] } ∧
    (((grown moment).after 0 .update).after 0 (.replace [⟨19520, 64, 19⟩])).fs.rolls = []

instance (moment : Moment) : Decidable (Steady moment) := by
  unfold Steady
  infer_instance

theorem collected_history {moment : Moment} {permitted : Moment → Call → Prop}
    (steady : Steady moment) (first : permitted (grown moment) .update)
    (second : permitted ((grown moment).after 0 .update) (.replace [⟨19520, 64, 19⟩]))
    (third : permitted
      (((grown moment).after 0 .update).after 0 (.replace [⟨19520, 64, 19⟩])) .update) :
    History (FileTable.oneZone []) 0 permitted (collected moment) := by
  rcases steady with ⟨inside, whole, live, name, empty, unsynced, emitted, record, larger, rolls, rolled,
    moved, last⟩
  have object : (grown moment).fs.object 0 = _ := object_setObject inside _
  have evolves : Evolves (moment.fs.object 0).file ((grown moment).fs.object 0).file := by
    rw [object]
    exact ⟨rfl, rfl, Nat.le_refl _, empty ▸ List.nil_prefix, rfl⟩
  have within : 0 < (grown moment).fs.objects.length :=
    Nat.lt_of_lt_of_eq inside List.length_set.symm
  refine ⟨moment, ⟨inside, whole, live, ⟨_, name⟩, empty, unsynced, emitted, record⟩, ?_⟩
  have appended : HistoryStep (FileTable.oneZone []) 0 permitted moment (grown moment) :=
    .change within evolves larger
  refine (((Relation.ReflTransGen.single appended).tail
    (.call .update ?_ trivial first)).tail (.call (.replace [⟨19520, 64, 19⟩]) ?_ moved second)).tail
    (.call .update ?_ trivial third)
  · rw [rolls]
    rfl
  · rw [rolled]
    rfl
  · rw [last]
    rfl

theorem updates_agree_collected :
    (collected (newborn [])).emitted.length = 4 ∧
      Agrees smallConfig (FileTable.oneZone []) (collected (newborn [])) := by
  refine ⟨by decide +kernel, ?_⟩
  apply @updates_agree smallConfig (FileTable.oneZone []) rfl 0
  apply collected_history
  · decide +kernel
  · intro _ _
    decide +kernel
  · trivial
  · intro _ _
    decide +kernel

/-- The record of the replacement is not written. The next update carries the extent that
was moved, and the file is found with it and with the one it replaced. -/
theorem failed_replacement_adds :
    History (FileTable.oneZone []) 0 (fun _ _ => True) (collected (newborn [0, -1])) ∧
      (collected (newborn [0, -1])).last.extents = [⟨19520, 64, 19⟩] ∧
      ¬ Agrees smallConfig (FileTable.oneZone []) (collected (newborn [0, -1])) := by
  have steady : Steady (newborn [0, -1]) := by decide +kernel
  have facts : (collected (newborn [0, -1])).last.extents = [⟨19520, 64, 19⟩] ∧
      (collected (newborn [0, -1])).last.linkfiles = ["/a.sst"] ∧
      (∀ entry ∈ (collected (newborn [0, -1])).emitted, entry.Encodable) ∧
      (recoverFrom smallConfig (collected (newborn [0, -1])).emitted
        (FileTable.oneZone [])).2.getFile "/a.sst" = some 0 ∧
      ((recoverFrom smallConfig (collected (newborn [0, -1])).emitted
        (FileTable.oneZone [])).2.object 0).file.extents = [⟨19456, 64, 19⟩, ⟨19520, 64, 19⟩] := by
    decide +kernel
  have readable : Readable (FileTable.oneZone []) (collected (newborn [0, -1])).last := by
    constructor
    all_goals decide +kernel
  rcases facts with ⟨extents, links, encodable, named, twice⟩
  refine ⟨collected_history steady trivial trivial trivial, extents, ?_⟩
  rintro ⟨merged, j, snapshot, i, run, snapped, names, same, _⟩
  rw [recoverFromBytes_encode smallConfig encodable] at run
  rw [run] at named twice
  rcases readable.snapshot smallConfig with ⟨expected, decoded, fields⟩
  rw [decoded] at snapped
  cases snapped
  have here : j = 0 := by
    have found := names "/a.sst"
    rw [named, fields.linkfiles, links, if_pos List.mem_cons_self] at found
    exact (Option.some_inj.mp found).symm
  have equal := same.extents
  rw [here, twice, fields.extents, extents] at equal
  exact absurd equal (by decide)

end Zwal.IncrementalUpdates
