import Zwal.Contracts.IncrementalUpdates
import Zwal.Contracts.LogDeletion
import Zwal.Contracts.WalRoundTrip

/-! # Sequence numbers of a write-ahead log

The number of the next entry is in the records of the file while it is known to be a
write-ahead log. `DecodeFrom` reads the number and forgets what the file is, so that the
snapshot `Mount` ends with has it no more, and `RecoverSparseExtents` takes the greatest
number it finds for the next one. -/

namespace Zwal.WalSequence

open FileState FileSystem WritableFile WalRoundTrip IncrementalUpdates LogDeletion

/-! ## The life of a log -/

/-- A write-ahead log: the writer in front of it, the numbers its entries were given, the
metadata log of the file system from its snapshot on, how often the log was mounted, and
whether a record and the roll after it were refused since the last snapshot. Such a roll may
have switched to a zone without snapshot, which `Mount` passes over. -/
structure Life where
  writer : WritableFile
  numbers : List Nat
  log : List MetaRecord
  mounts : Nat
  refused : Bool

def Life.file (life : Life) : ZoneFile := life.writer.state.file

inductive Call
  | write (call : WriterCall)
  | close
  deriving DecidableEq, Repr

def Call.run (config : BuildConfig) (fuel : Nat) : Call → WritableProgram Unit
  | .write call => call.run config fuel
  | .close => WritableFile.close config fuel

def Call.refused (config : BuildConfig) (fuel : Nat) (call : Call) (writer : WritableFile) : Bool :=
  decide ((call.run config fuel writer).1 = .error (.ioError "Failed to persist metadata"))

def newEvents (before after : WritableFile) : List IoEvent :=
  after.state.zbd.trace.drop before.state.zbd.trace.length

def numbersOf (events : List IoEvent) : List Nat := (appendCalls events).map AppendCall.seq

def recordsOf : MetaRecord → List FileRecord
  | .snapshot records => records
  | .update record | .replace record => [record]
  | .deletion _ _ => []

def rolledLog (earlier later : List FileRecord) (record : FileRecord) : List MetaRecord :=
  [.snapshot (earlier ++ record :: later)]

def AllOther (number : Nat) (records : List FileRecord) : Prop :=
  ∀ record ∈ records, record.fileId ≠ number

/-- Records that were written one after another; a full metadata zone is rolled instead. -/
inductive Logged (number : Nat) : List MetaRecord → List FileRecord → List MetaRecord → Prop
  | nil {log} : Logged number log [] log
  | update {log record records after} : Logged number (log ++ [.update record]) records after →
      Logged number log (record :: records) after
  | roll {log record records after earlier later} : AllOther number (earlier ++ later) →
      Logged number (rolledLog earlier later record) records after →
      Logged number log (record :: records) after

def Elsewhere (number : Nat) (entries : List MetaRecord) : Prop :=
  ∀ entry ∈ entries, AllOther number (recordsOf entry) ∧ ∀ records, entry ≠ .snapshot records

inductive Lives (config : BuildConfig) (permitted : Life → Prop) : Life → Prop
  /-- A creation record that makes the metadata zone roll is not in the new zone: the file
  has no name yet. -/
  | new {zbd file records rest own} : NewWal file → AllOther file.fileId records →
      Elsewhere file.fileId rest → own = [.update file.record] ∨ own = [] →
      Lives config permitted
        ⟨create config zbd file true, [], .snapshot records :: rest ++ own, 0, false⟩
  | call {life log} (fuel : Nat) (call : Call) : Lives config permitted life →
      (call.run config fuel life.writer).1 ≠ .error .never →
      Logged life.file.fileId life.log
        (persisted (newEvents life.writer (call.run config fuel life.writer).2)) log →
      Lives config permitted { life with
        writer := (call.run config fuel life.writer).2
        numbers := life.numbers ++
          numbersOf (newEvents life.writer (call.run config fuel life.writer).2)
        log := log
        refused := life.refused || call.refused config fuel life.writer }
  | reopen {life} : Lives config permitted life → life.writer.isOpen = false →
      Lives config permitted { life with
        writer := create config life.writer.state.zbd life.file true }
  | elsewhere {life entries} (zbd : ZonedBlockDevice) : Lives config permitted life →
      Elsewhere life.file.fileId entries →
      Lives config permitted { life with
        writer := { life.writer with state := { life.writer.state with zbd := zbd } }
        log := life.log ++ entries }
  | roll {life earlier later} : Lives config permitted life →
      AllOther life.file.fileId (earlier ++ later) →
      Lives config permitted { life with
        log := rolledLog earlier later life.file.record
        refused := false }
  | refuse {life} (log : List MetaRecord) : Lives config permitted life →
      Lives config permitted { life with log := log, refused := true }
  | mount {life fs device fuel lost after name k} : Lives config permitted life → permitted life →
      fs.zbd = life.writer.state.zbd → fs.metaLog = life.log →
      remount config device fuel lost fs = (.ok (), after) → after.getFile name = some k →
      (after.object k).file.fileId = life.file.fileId →
      Lives config permitted ⟨create config after.zbd (after.object k).file true, life.numbers,
        after.metaLog, life.mounts + 1, false⟩

def latest (number least : Nat) (records : List FileRecord) : Nat :=
  records.foldl (fun last record =>
    if record.fileId = number then record.walSeq.getD 0 else last) least

/-- The log was created since the last mount, the metadata log is what was written to it, and
no entry is younger than the last record. -/
def Recorded (life : Life) : Prop :=
  life.mounts = 0 ∧ life.refused = false ∧
    latest life.file.fileId 0 (life.log.flatMap recordsOf) = life.file.walSeq

/-! ## Before the first mount -/

variable {config : BuildConfig} {numbers : List Nat} {start before after : FileState}

structure Adds (numbers : List Nat) (start after : FileState) : Prop where
  isWal : after.file.isWal = true
  fileId : after.file.fileId = start.file.fileId
  events : ∃ events, after.zbd.trace = start.zbd.trace ++ events ∧
    ∀ number ∈ numbers ++ numbersOf events, number < after.file.walSeq

theorem numbersOf_append (first second : List IoEvent) :
    numbersOf (first ++ second) = numbersOf first ++ numbersOf second := by
  rw [numbersOf, appendCalls_append, List.map_append]
  rfl

theorem Adds.silent (adds : Adds numbers start before)
    (isWal : after.file.isWal = before.file.isWal)
    (fileId : after.file.fileId = before.file.fileId)
    (walSeq : before.file.walSeq ≤ after.file.walSeq)
    (trace : after.zbd.trace = before.zbd.trace) : Adds numbers start after := by
  rcases adds.events with ⟨events, same, below⟩
  refine ⟨isWal.trans adds.isWal, fileId.trans adds.fileId, events, trace.trans same, ?_⟩
  intro number member
  exact Nat.lt_of_lt_of_le (below number member) walSeq

theorem Adds.event (adds : Adds numbers start before)
    (isWal : after.file.isWal = before.file.isWal)
    (fileId : after.file.fileId = before.file.fileId)
    (walSeq : before.file.walSeq ≤ after.file.walSeq) {event : IoEvent}
    (trace : after.zbd.trace = before.zbd.trace ++ [event])
    (below : ∀ number ∈ numbersOf [event], number < after.file.walSeq) :
    Adds numbers start after := by
  rcases adds.events with ⟨events, same, earlier⟩
  refine ⟨isWal.trans adds.isWal, fileId.trans adds.fileId, events ++ [event], ?_, ?_⟩
  · rw [trace, same, List.append_assoc]
  · intro number member
    rw [numbersOf_append, ← List.append_assoc] at member
    rcases List.mem_append.mp member with old | new
    · exact Nat.lt_of_lt_of_le (earlier number old) walSeq
    · exact below number new

theorem Adds.control (adds : Adds numbers start before) (step : ControlStep before after) :
    Adds numbers start after := by
  cases step with
  | device still => exact adds.silent rfl rfl (Nat.le_refl _) still.trace
  | pointers => exact adds.silent rfl rfl (Nat.le_refl _) rfl
  | openLog | walSync | walSyncFailed | persist =>
      exact adds.event rfl rfl (Nat.le_refl _) rfl (by simp [numbersOf, appendCalls])
  | notWal plain =>
      rw [adds.isWal] at plain
      cases plain

theorem Adds.step (adds : Adds numbers start before) (step : WalStep config before after) :
    Adds numbers start after := by
  cases step with
  | control step => exact adds.control step
  | barrier =>
      exact adds.event rfl rfl (Nat.le_refl _) rfl (by simp [numbersOf, appendCalls])
  | unopened => exact adds.silent rfl rfl (Nat.le_refl _) rfl
  | scratch buffer skipped => exact adds.silent rfl rfl (Nat.le_add_right _ _) rfl
  | @append log left replies =>
      have trace := written_trace config before log left replies
      have file := written_file config before log left replies
      refine adds.event (by rw [file]) (by rw [file]) ?_ trace ?_
      · rw [file]
        exact Nat.le_succ _
      · intro number member
        have same : number = before.file.walSeq := List.mem_singleton.mp member
        rw [file, same]
        exact Nat.lt_succ_self _

theorem Call.run_moves (fuel : Nat) (call : Call) :
    (call.run config fuel).Respects (Moves config) := by
  cases call with
  | write call => exact WritableFile.run_moves call
  | close => exact close_moves

/-- The log starts with the only snapshot, which has one record of the file at most. -/
inductive Tidy (number : Nat) : List MetaRecord → Prop
  | other {records rest} : AllOther number records →
      (∀ entry ∈ rest, ∀ records, entry ≠ .snapshot records) → Tidy number (.snapshot records :: rest)
  | one {earlier record later rest} : AllOther number (earlier ++ later) →
      (∀ entry ∈ rest, ∀ records, entry ≠ .snapshot records) →
      Tidy number (rolledLog earlier later record ++ rest)

theorem Tidy.append {number : Nat} {log entries : List MetaRecord} (tidy : Tidy number log)
    (plain : ∀ entry ∈ entries, ∀ records, entry ≠ .snapshot records) :
    Tidy number (log ++ entries) := by
  have both {rest : List MetaRecord} (first : ∀ entry ∈ rest, ∀ records, entry ≠ .snapshot records) :
      ∀ entry ∈ rest ++ entries, ∀ records, entry ≠ .snapshot records := by
    intro entry member
    exact (List.mem_append.mp member).elim (first entry) (plain entry)
  cases tidy with
  | other others first => exact .other others (both first)
  | one others first =>
      rw [List.append_assoc]
      exact .one others (both first)

theorem Logged.tidy {number : Nat} {log final : List MetaRecord} {records : List FileRecord}
    (logged : Logged number log records final) (tidy : Tidy number log) : Tidy number final := by
  induction logged with
  | nil => exact tidy
  | update _ induction =>
      apply induction
      apply tidy.append
      intro entry member records
      rw [List.mem_singleton.mp member]
      intro same
      cases same
  | roll others _ induction =>
      apply induction
      exact .one others (List.forall_mem_nil _)

structure Young (life : Life) : Prop where
  forWal : ForWal life.writer
  below : ∀ number ∈ life.numbers, number < life.file.walSeq
  tidy : life.refused = false → Tidy life.file.fileId life.log

theorem Young.call {life : Life} (young : Young life) (fuel : Nat) (call : Call)
    {log : List MetaRecord}
    (logged : Logged life.file.fileId life.log
      (persisted (newEvents life.writer (call.run config fuel life.writer).2)) log) :
    Young { life with
      writer := (call.run config fuel life.writer).2
      numbers := life.numbers ++
        numbersOf (newEvents life.writer (call.run config fuel life.writer).2)
      log := log
      refused := life.refused || call.refused config fuel life.writer } := by
  have moves : Moves config life.writer (call.run config fuel life.writer).2 :=
    call.run_moves fuel life.writer
  have steps := (moves young.forWal).1
  have begun : Adds life.numbers life.writer.state life.writer.state := by
    refine ⟨young.forWal.isWal, rfl, [], (List.append_nil _).symm, ?_⟩
    rw [show numbersOf [] = [] from rfl, List.append_nil]
    exact young.below
  have adds : Adds life.numbers life.writer.state (call.run config fuel life.writer).2.state :=
    WalSteps.keep (fun step adds => adds.step step) steps begun
  rcases adds.events with ⟨events, trace, below⟩
  have fresh : newEvents life.writer (call.run config fuel life.writer).2 = events := by
    rw [newEvents, trace, List.drop_left]
  refine ⟨moves.forWal young.forWal, fresh ▸ below, fun known => ?_⟩
  have tidy := logged.tidy (young.tidy (Bool.or_eq_false_iff.mp known).1)
  rw [Life.file, ← adds.fileId] at tidy
  exact tidy

theorem Lives.young {permitted : Life → Prop} {life : Life} (lives : Lives config permitted life)
    (unmounted : life.mounts = 0) : Young life := by
  induction lives with
  | new newWal others elsewhere own =>
      refine ⟨⟨newWal.isWal, newWal.isSparse, rfl⟩, List.forall_mem_nil _, fun _ => ?_⟩
      refine Tidy.append (.other others fun entry member => (elsewhere entry member).2) ?_
      intro entry member records
      rcases own with own | own
      · rw [own] at member
        rw [List.mem_singleton.mp member]
        exact nofun
      · rw [own] at member
        cases member
  | call fuel call _ _ logged induction => exact (induction unmounted).call fuel call logged
  | reopen _ _ induction =>
      have young := induction unmounted
      exact ⟨⟨young.forWal.isWal, young.forWal.isSparse, rfl⟩, young.below, young.tidy⟩
  | elsewhere zbd _ others induction =>
      have young := induction unmounted
      exact ⟨⟨young.forWal.isWal, young.forWal.isSparse, young.forWal.buffered⟩, young.below,
        fun known => (young.tidy known).append fun entry member => (others entry member).2⟩
  | roll _ others induction =>
      have young := induction unmounted
      exact ⟨young.forWal, young.below, fun _ => .one others (List.forall_mem_nil _)⟩
  | refuse log _ induction =>
      have young := induction unmounted
      exact ⟨young.forWal, young.below, nofun⟩
  | mount => cases unmounted

/-! ## Replay -/

/-- The names of the file with this number are those of one object, which counts from
`least` on. -/
def Single (number least j : Nat) (fs : FileSystem) : Prop :=
  ∀ entry ∈ fs.files, (fs.object entry.2).file.fileId = number →
    entry.2 = j ∧ least ≤ (fs.object entry.2).file.walSeq

section Replay

variable {number least j k : Nat} {fs next : FileSystem} {record : FileRecord}

theorem single_of_empty (number least j : Nat) (empty : fs.files = []) : Single number least j fs := by
  intro entry member
  rw [empty] at member
  cases member

theorem Single.keep (single : Single number least j fs)
    (kept : ∀ entry ∈ next.files, entry ∈ fs.files ∧ next.object entry.2 = fs.object entry.2) :
    Single number least j next := by
  intro entry member
  rcases kept entry member with ⟨old, same⟩
  rw [same]
  exact single entry old

theorem Single.release (single : Single number least j fs) (inside : k < fs.objects.length)
    (run : release k fs = (.ok (), next)) : Single number least j next := by
  rw [FileSystem.release, bind_read] at run
  split at run
  · have same : fs = next := congrArg Prod.snd run
    exact same ▸ single
  · rename_i unheld
    rcases destroy_cases inside with ⟨replies, events, _, _, destroyed⟩
    rw [destroyed] at run
    have same : _ = next := congrArg Prod.snd run
    rw [← same]
    apply single.keep
    intro entry member
    have listed : entry ∈ fs.files := member
    refine ⟨listed, ?_⟩
    have different : entry.2 ≠ k := by
      intro here
      apply unheld
      have named : fs.named k = true := List.any_eq_true.mpr ⟨entry, listed, beq_iff_eq.mpr here⟩
      rw [named]
      rfl
    rw [object_destroyed, if_neg different]
    rfl

theorem decodeFrom_ok {extents : List ZoneExtent}
    (run : decodeFrom config record extents fs = (.ok k, next)) :
    k = fs.objects.length ∧ next.files = fs.files ∧ next.objects.length = fs.objects.length + 1 ∧
      ∃ change : ZoneFile, change.fileId = record.fileId ∧ change.walSeq = record.walSeq.getD 0 ∧
        ∀ i, next.object i = if i = fs.objects.length then { file := change } else fs.object i := by
  by_cases missing : placed fs.zbd extents = none ∨ "" ∈ record.linkfiles
  · rcases decodeFrom_of_unplaced config missing with ⟨failure, _, failed⟩
    rw [failed] at run
    cases run
  · rw [not_or, ← ne_eq, Option.ne_none_iff_exists'] at missing
    rcases missing with ⟨⟨decoded, found⟩, named⟩
    rcases decodeFrom_of_placed config found named with ⟨replies, events, _, _, decodes⟩
    rw [decodes] at run
    have value : fs.objects.length = k := Except.ok.inj (congrArg Prod.fst run)
    have state : _ = next := congrArg Prod.snd run
    rw [← state]
    refine ⟨value.symm, rfl, ?_, _, rfl, rfl, object_append fs _ 0⟩
    simp [quietly, withDecoded]

theorem eraseLinks_ok {names : List String} (run : eraseLinks names fs = (.ok (), next)) :
    next.objects = fs.objects ∧ ∀ entry ∈ next.files, entry ∈ fs.files := by
  induction names generalizing fs with
  | nil =>
      have same : fs = next := congrArg Prod.snd run
      exact same ▸ ⟨rfl, fun _ member => member⟩
  | cons name names induction =>
      rw [eraseLinks, bind_read] at run
      split at run
      · rw [bind_update] at run
        rcases induction run with ⟨objects, files⟩
        exact ⟨objects, fun entry member => List.mem_of_mem_filter (files entry member)⟩
      · cases run

theorem mergeUpdate_ok {n : Nat} {replace : Bool} (inside : k < fs.objects.length) (different : n ≠ k)
    (run : mergeUpdate k n replace fs = (.ok (), next)) :
    next.files = fs.files ∧ next.objects.length = fs.objects.length ∧
      (next.object k).file.fileId = (fs.object k).file.fileId ∧
      (fs.object n).file.walSeq ≤ (next.object k).file.walSeq ∧
      ∀ i, i ≠ k → next.object i = fs.object i := by
  rcases mergeUpdate_merges inside different replace with ⟨merged, merges, _, files, length, file⟩
  have others (i : Nat) (apart : i ≠ k) : (mergeUpdate k n replace fs).2.object i = fs.object i := by
    rw [mergeUpdate_eq]
    cases replace with
    | false => exact object_setObject_of_ne apart _
    | true => exact (object_setObject_of_ne apart _).trans (object_setObject_of_ne apart _)
  rw [merges] at run others
  have same : merged = next := congrArg Prod.snd run
  rw [← same, file]
  refine ⟨files, length, ?_, Nat.le_max_right _ _, others⟩
  exact (remaining_fields replace _).1

/-- An object was put under names. Its number must be the only one there is for a file that
has it. -/
theorem Single.insertLinks (names : List String) (single : Single number least j fs)
    (new : (fs.object k).file.fileId = number → k = j ∧ least ≤ (fs.object k).file.walSeq) :
    Single number least j (fs.insertLinks names k) := by
  intro entry member
  rw [insertLinks_object]
  rcases mem_insertLinks member with old | here
  · exact single entry old
  · rw [here]
    exact new

theorem referring_ne (referring : Referring fs) {entry : String × Nat} (member : entry ∈ fs.files) :
    entry.2 ≠ fs.objects.length :=
  Nat.ne_of_lt (referring entry member)

def settledBy (number least : Nat) (record : FileRecord) : Nat :=
  if record.fileId = number then record.walSeq.getD 0 else least

theorem update_known {replace : Bool} (referring : Referring fs) (single : Single number least j fs)
    {middle : FileSystem} {n : Nat}
    (decoded : decodeFrom config record (record.extents.drop record.nrSyncedExtents) fs =
      (.ok n, middle))
    {name : String}
    (found : middle.files.find? (fun entry => (middle.object entry.2).file.fileId == record.fileId) =
      some (name, k))
    (run : (do
      eraseLinks (middle.object k).file.linkfiles
      mergeUpdate k n replace
      destroy n
      Program.update (FileSystem.insertLinks record.linkfiles k)
      release k : FsProgram Unit) middle = (.ok (), next)) :
    ∃ i, Single number (settledBy number least record) i next := by
  rcases decodeFrom_ok decoded with ⟨rfl, files, length, change, changeId, changeSeq, objects⟩
  have listed : (name, k) ∈ fs.files := files ▸ List.mem_of_find?_eq_some found
  have inside : k < fs.objects.length := referring _ listed
  have here : middle.object k = fs.object k := by rw [objects, if_neg (Nat.ne_of_lt inside)]
  have fileId : (fs.object k).file.fileId = record.fileId := by
    have matched := List.find?_some found
    rw [here] at matched
    exact beq_iff_eq.mp matched
  rcases bind_eq_ok run with ⟨_, erased, erases, run⟩
  rcases eraseLinks_ok erases with ⟨erasedObjects, erasedFiles⟩
  have erasedObject (i : Nat) : erased.object i = middle.object i := by
    rw [FileSystem.object, erasedObjects, FileSystem.object]
  rcases bind_eq_ok run with ⟨_, joined, merges, run⟩
  have erasedLength : erased.objects.length = fs.objects.length + 1 := by rw [erasedObjects, length]
  rcases mergeUpdate_ok (by omega) (Nat.ne_of_gt inside) merges with
    ⟨joinedFiles, joinedLength, joinedId, joinedSeq, joinedOthers⟩
  rcases bind_eq_ok run with ⟨_, left, destroys, run⟩
  rcases @destroy_cases joined fs.objects.length (by omega) with ⟨replies, events, _, _, destroyed⟩
  rw [destroyed] at destroys
  have leftSame : (joined.quietly replies events).destroyed fs.objects.length = left :=
    congrArg Prod.snd destroys
  have leftObject (i : Nat) (apart : i ≠ fs.objects.length) : left.object i = joined.object i := by
    rw [← leftSame, object_destroyed, if_neg apart]
    rfl
  have leftFiles (entry : String × Nat) (member : entry ∈ left.files) : entry ∈ fs.files := by
    rw [← leftSame] at member
    have old : entry ∈ erased.files := joinedFiles ▸ member
    exact files ▸ erasedFiles entry old
  have leftLength : left.objects.length = joined.objects.length := by
    rw [← leftSame]
    exact List.length_set
  rw [bind_update] at run
  have there : k < (left.insertLinks record.linkfiles k).objects.length := by
    rw [(SnapshotRoundTrip.insertLinks_fields _ _ _).2.1]
    omega
  have known : (left.object k).file.fileId = record.fileId := by
    rw [leftObject k (Nat.ne_of_lt inside), joinedId, erasedObject, here, fileId]
  have counted : record.walSeq.getD 0 ≤ (left.object k).file.walSeq := by
    rw [erasedObject, objects, if_pos rfl, changeSeq] at joinedSeq
    rw [leftObject k (Nat.ne_of_lt inside)]
    exact joinedSeq
  have others (i : Nat) (apart : i ≠ k) (old : i ≠ fs.objects.length) :
      left.object i = fs.object i := by
    rw [leftObject i old, joinedOthers i apart, erasedObject, objects, if_neg old]
  rw [settledBy]
  by_cases own : record.fileId = number
  · rw [if_pos own]
    have only : k = j := (single _ listed (fileId.trans own)).1
    refine ⟨k, Single.release (Single.insertLinks _ ?_ fun _ => ⟨rfl, counted⟩) there run⟩
    intro entry member same
    have old := leftFiles entry member
    by_cases at_k : entry.2 = k
    · rw [at_k]
      exact ⟨rfl, counted⟩
    · rw [others _ at_k (referring_ne referring old)] at same
      exact absurd ((single entry old same).1.trans only.symm) at_k
  · rw [if_neg own]
    refine ⟨j, Single.release (Single.insertLinks _ ?_ fun same => ?_) there run⟩
    · intro entry member same
      have old := leftFiles entry member
      by_cases at_k : entry.2 = k
      · rw [at_k, known] at same
        exact absurd same own
      · rw [others _ at_k (referring_ne referring old)] at same ⊢
        exact single entry old same
    · rw [known] at same
      exact absurd same own

theorem Single.besideOther (referring : Referring fs) (single : Single number least j fs)
    {extents : List ZoneExtent} {middle : FileSystem} {n : Nat}
    (decoded : decodeFrom config record extents fs = (.ok n, middle)) (names : List String)
    (other : record.fileId ≠ number)
    (run : FileSystem.release n (middle.insertLinks names n) = (.ok (), next)) :
    Single number least j next := by
  rcases decodeFrom_ok decoded with ⟨rfl, files, length, change, changeId, _, objects⟩
  have there : fs.objects.length < (middle.insertLinks names fs.objects.length).objects.length := by
    rw [(SnapshotRoundTrip.insertLinks_fields _ _ _).2.1]
    omega
  refine Single.release (Single.insertLinks _ (single.keep ?_) fun same => ?_) there run
  · intro entry member
    have listed : entry ∈ fs.files := files ▸ member
    rw [objects, if_neg (referring_ne referring listed)]
    exact ⟨listed, rfl⟩
  · rw [objects, if_pos rfl, changeId] at same
    exact absurd same other

theorem single_beside (referring : Referring fs)
    {extents : List ZoneExtent} {middle : FileSystem} {n : Nat}
    (decoded : decodeFrom config record extents fs = (.ok n, middle)) (names : List String)
    (alone : ∀ entry ∈ fs.files, (fs.object entry.2).file.fileId ≠ number)
    (run : FileSystem.release n (middle.insertLinks names n) = (.ok (), next)) :
    Single number (record.walSeq.getD 0) n next := by
  rcases decodeFrom_ok decoded with ⟨rfl, files, length, change, _, changeSeq, objects⟩
  have there : fs.objects.length < (middle.insertLinks names fs.objects.length).objects.length := by
    rw [(SnapshotRoundTrip.insertLinks_fields _ _ _).2.1]
    omega
  refine Single.release (Single.insertLinks _ ?_ fun _ => ⟨rfl, ?_⟩) there run
  · intro entry member same
    have listed : entry ∈ fs.files := files ▸ member
    rw [objects, if_neg (referring_ne referring listed)] at same
    exact absurd same (alone entry listed)
  · rw [objects, if_pos rfl, changeSeq]

theorem decodeFileUpdateFrom_single {replace : Bool} (referring : Referring fs)
    (single : Single number least j fs)
    (run : decodeFileUpdateFrom config record replace fs = (.ok (), next)) :
    ∃ i, Single number (settledBy number least record) i next := by
  rw [decodeFileUpdateFrom] at run
  rcases bind_eq_ok run with ⟨n, middle, decoded, run⟩
  rw [bind_read] at run
  cases found : middle.files.find? fun entry =>
      (middle.object entry.2).file.fileId == record.fileId with
  | some entry =>
      rw [found] at run
      exact update_known referring single decoded found run
  | none =>
      rw [found] at run
      rcases decodeFrom_ok decoded with ⟨_, files, _, change, _, _, objects⟩
      have alone (entry : String × Nat) (member : entry ∈ fs.files) :
          (fs.object entry.2).file.fileId ≠ record.fileId := by
        have different := List.find?_eq_none.mp found entry (files.symm ▸ member)
        rw [objects, if_neg (referring_ne referring member)] at different
        intro same
        exact different (beq_iff_eq.mpr same)
      cases links : record.linkfiles with
      | nil =>
          simp only [links] at run
          cases run
      | cons name names =>
          simp only [links] at run
          rw [bind_update] at run
          rw [settledBy]
          by_cases own : record.fileId = number
          · rw [if_pos own]
            exact ⟨n, single_beside referring decoded [name] (own ▸ alone) run⟩
          · rw [if_neg own]
            exact ⟨j, single.besideOther referring decoded [name] own run⟩

theorem decodeFileDeletionFrom_single {fileId : Nat} {name : String} (referring : Referring fs)
    (single : Single number least j fs)
    (run : decodeFileDeletionFrom fileId name fs = (.ok (), next)) : Single number least j next := by
  rw [decodeFileDeletionFrom, bind_read] at run
  cases found : fs.getFile name with
  | none =>
      rw [found] at run
      cases run
  | some k =>
      rw [found] at run
      have inside : k < fs.objects.length := referring _ (mem_of_getFile found)
      simp only at run
      split at run
      · cases run
      · rw [bind_update] at run
        by_cases linked : name ∈ ((fs.eraseName name).object k).file.linkfiles
        · rw [bind_of_ok (attempt_of_eq (removeLinkName_of_mem linked))] at run
          refine Single.release ?_ (k := k) ?_ run
          · intro entry member
            have old : entry ∈ fs.files := List.mem_of_mem_filter member
            by_cases here : entry.2 = k
            · have kept : ((fs.eraseName name).relink k
                  (((fs.eraseName name).object k).file.linkfiles.erase name)).object k = _ :=
                object_setObject (show k < (fs.eraseName name).objects.length from inside) _
              have earlier := single entry old
              rw [here] at earlier ⊢
              rw [kept]
              exact earlier
            · have kept : ((fs.eraseName name).relink k
                  (((fs.eraseName name).object k).file.linkfiles.erase name)).object entry.2 = _ :=
                object_setObject_of_ne here _
              rw [kept]
              exact single entry old
          · exact List.length_set.symm ▸ inside
        · rw [bind_of_ok (attempt_of_eq (removeLinkName_of_not_mem linked))] at run
          cases run

/-! The records of a snapshot, then those after it. -/

theorem decodeSnapshotFrom_cons {records : List FileRecord} (recovering : Recovering fs)
    (run : decodeSnapshotFrom config (record :: records) fs = (.ok (), next)) :
    ∃ n middle last, decodeFrom config record record.extents fs = (.ok n, middle) ∧
      release n (middle.insertLinks record.linkfiles n) = (.ok (), last) ∧
      decodeSnapshotFrom config records last = (.ok (), next) ∧ Recovering last := by
  rcases bind_eq_ok run with ⟨n, middle, decoded, run⟩
  have first := decodeFrom_mounted config record record.extents fs
  rw [decoded] at first
  rw [bind_update] at run
  rcases bind_eq_ok run with ⟨_, last, released, run⟩
  have linked := insertLinks_mounted record.linkfiles first.2
  have third := release_mounted (Nat.lt_of_lt_of_le first.2 linked.length)
  rw [released] at third
  have still := (third.1.recovering (linked.recovering (first.1.recovering recovering)))
  exact ⟨n, middle, last, decoded, released, run, still⟩

theorem snapshot_other {records : List FileRecord} (recovering : Recovering fs)
    (others : AllOther number records) (single : Single number least j fs)
    (run : decodeSnapshotFrom config records fs = (.ok (), next)) : Single number least j next := by
  induction records generalizing fs with
  | nil =>
      have same : fs = next := congrArg Prod.snd run
      exact same ▸ single
  | cons record records induction =>
      rcases decodeSnapshotFrom_cons recovering run with
        ⟨n, middle, last, decoded, released, onward, still⟩
      have other := others record List.mem_cons_self
      have rest : AllOther number records := fun later member =>
        others later (List.mem_cons_of_mem _ member)
      have kept := single.besideOther recovering.referring decoded record.linkfiles other released
      exact induction still rest kept onward

theorem snapshot_one {earlier later : List FileRecord} (recovering : Recovering fs)
    (empty : fs.files = []) (others : AllOther number (earlier ++ later))
    (run : decodeSnapshotFrom config (earlier ++ record :: later) fs = (.ok (), next)) :
    ∃ i, Single number (settledBy number 0 record) i next := by
  have alone : ∀ entry ∈ fs.files, (fs.object entry.2).file.fileId ≠ number := by
    rw [empty]
    exact List.forall_mem_nil _
  clear empty
  induction earlier generalizing fs with
  | nil =>
      rcases decodeSnapshotFrom_cons recovering run with
        ⟨n, middle, last, decoded, released, onward, still⟩
      rw [settledBy]
      by_cases own : record.fileId = number
      · rw [if_pos own]
        have first := single_beside recovering.referring decoded record.linkfiles alone released
        exact ⟨n, snapshot_other still others first onward⟩
      · rw [if_neg own]
        have none : Single number 0 0 fs := fun entry member same =>
          absurd same (alone entry member)
        have first := none.besideOther recovering.referring decoded record.linkfiles own released
        exact ⟨0, snapshot_other still others first onward⟩
  | cons first earlier induction =>
      rcases decodeSnapshotFrom_cons recovering run with
        ⟨n, middle, last, decoded, released, onward, still⟩
      have other := others first List.mem_cons_self
      have rest : AllOther number (earlier ++ later) := fun later member =>
        others later (List.mem_cons_of_mem _ member)
      have none (i : Nat) : Single number 0 i fs := fun entry member same =>
        absurd same (alone entry member)
      refine induction still rest onward ?_
      intro entry member same
      have low := (none 0).besideOther recovering.referring decoded first.linkfiles other released
      have high := (none 1).besideOther recovering.referring decoded first.linkfiles other released
      have zero := (low entry member same).1
      have one := (high entry member same).1
      omega

theorem latest_other {records : List FileRecord} (others : AllOther number records) :
    latest number least records = least := by
  induction records with
  | nil => rfl
  | cons record records induction =>
      rw [latest, List.foldl_cons, if_neg (others record List.mem_cons_self)]
      exact induction fun later member => others later (List.mem_cons_of_mem _ member)

theorem recoverFrom_single {log : List MetaRecord} (recovering : Recovering fs)
    (plain : ∀ entry ∈ log, ∀ records, entry ≠ .snapshot records)
    (single : Single number least j fs) (run : recoverFrom config log fs = (.ok (), next)) :
    ∃ i, Single number (latest number least (log.flatMap recordsOf)) i next := by
  induction log generalizing fs least j with
  | nil =>
      have same : fs = next := congrArg Prod.snd run
      exact ⟨j, same ▸ single⟩
  | cons entry log induction =>
      rcases bind_eq_ok run with ⟨_, middle, decoded, onward⟩
      have rest : ∀ later ∈ log, ∀ records, later ≠ .snapshot records := fun later member =>
        plain later (List.mem_cons_of_mem _ member)
      cases entry with
      | snapshot records => exact absurd rfl (plain _ List.mem_cons_self records)
      | update record =>
          have steps := decodeFileUpdateFrom_mounted config recovering record false
          rw [show decodeFileUpdateFrom config record false fs = (.ok (), middle) from decoded] at steps
          rcases decodeFileUpdateFrom_single recovering.referring single decoded with ⟨i, settled⟩
          exact induction (steps.1.recovering recovering) rest settled onward
      | replace record =>
          have steps := decodeFileUpdateFrom_mounted config recovering record true
          rw [show decodeFileUpdateFrom config record true fs = (.ok (), middle) from decoded] at steps
          rcases decodeFileUpdateFrom_single recovering.referring single decoded with ⟨i, settled⟩
          exact induction (steps.1.recovering recovering) rest settled onward
      | deletion fileId name =>
          have steps := decodeFileDeletionFrom_mounted recovering fileId name
          rw [show decodeFileDeletionFrom fileId name fs = (.ok (), middle) from decoded] at steps
          have settled := decodeFileDeletionFrom_single recovering.referring single decoded
          exact induction (steps.1.recovering recovering) rest settled onward

theorem Tidy.single {log : List MetaRecord} (tidy : Tidy number log) (recovering : Recovering fs)
    (empty : fs.files = []) (run : recoverFrom config log fs = (.ok (), next)) :
    ∃ i, Single number (latest number 0 (log.flatMap recordsOf)) i next := by
  have cleared : clearFiles fs = (.ok (), fs) := by
    rw [clearFiles, bind_read, bind_update, empty]
    have same : ({ fs with files := [] } : FileSystem) = fs := by rw [← empty]
    rw [same]
    rfl
  have replayed {records : List FileRecord} {middle : FileSystem}
      (first : decodeRecord config (.snapshot records) fs = (.ok (), middle)) :
      decodeSnapshotFrom config records fs = (.ok (), middle) ∧ Recovering middle := by
    rw [decodeRecord, bind_of_ok cleared] at first
    have steps := decodeSnapshotFrom_mounted config records fs
    rw [first] at steps
    exact ⟨first, steps.1.recovering recovering⟩
  cases tidy with
  | @other records rest others plain =>
      rcases bind_eq_ok run with ⟨_, middle, first, run⟩
      rcases replayed first with ⟨decoded, still⟩
      have none := snapshot_other recovering others (single_of_empty number 0 0 empty) decoded
      rcases recoverFrom_single still plain none run with ⟨i, settled⟩
      rw [List.flatMap_cons, latest, List.foldl_append]
      have before : latest number 0 (recordsOf (.snapshot records)) = 0 := latest_other others
      rw [latest] at before
      rw [before]
      exact ⟨i, settled⟩
  | @one earlier record later rest others plain =>
      rcases bind_eq_ok run with ⟨_, middle, first, run⟩
      rcases replayed first with ⟨decoded, still⟩
      rcases snapshot_one recovering empty others decoded with ⟨j, one⟩
      rcases recoverFrom_single still plain one run with ⟨i, settled⟩
      have before : latest number 0 (earlier ++ record :: later) = settledBy number 0 record := by
        rw [latest, List.foldl_append, List.foldl_cons]
        have early : latest number 0 earlier = 0 :=
          latest_other fun other member => others other (List.mem_append_left _ member)
        rw [latest] at early
        rw [early]
        exact latest_other fun other member => others other (List.mem_append_right _ member)
      rw [rolledLog, List.singleton_append, List.flatMap_cons, latest, List.foldl_append]
      rw [latest] at before
      rw [show recordsOf (.snapshot (earlier ++ record :: later)) = earlier ++ record :: later from rfl,
        before]
      exact ⟨i, settled⟩

end Replay

/-! ## Recovery does not count back -/

structure Forward (before after : ZoneFile) : Prop where
  fileId : after.fileId = before.fileId
  walSeq : before.walSeq ≤ after.walSeq

theorem recoverSparseExtents_forward (device : Nat → UInt8) (zone stop : Nat) {fuel next seq : Nat}
    (later : before.file.walSeq ≤ seq)
    (run : recoverSparseExtents device zone stop fuel next seq before = (.ok (), after)) :
    Forward before.file after.file := by
  induction fuel generalizing before next seq with
  | zero => cases run
  | succ fuel induction =>
      rw [recoverSparseExtents_succ] at run
      split at run
      · rcases bind_eq_ok run with ⟨read, middle, asked, onward⟩
        have same : middle.file = before.file := by
          rcases ZonedBlockDevice.request_cases (.ioError "Unexpected read error while recovering")
            before.zbd with ⟨replies, _, answered | ⟨_, answered⟩⟩
          · rw [attempt_of_eq (FileState.onDevice_of_ok answered)] at asked
            have moved : _ = middle := congrArg Prod.snd asked
            rw [← moved]
          · rw [attempt_of_eq (FileState.onDevice_of_error answered)] at asked
            have moved : _ = middle := congrArg Prod.snd asked
            rw [← moved]
        cases read with
        | error => cases onward
        | ok =>
            simp only [recoverEntry] at onward
            split at onward
            · cases onward
            · rw [bind_update] at onward
              have kept : (addRecovered zone next (Bytes.toNat (bytesAt device next 8)) middle).file.walSeq =
                  before.file.walSeq := by
                rw [← same]
                rfl
              have rest := induction ?_ onward
              · refine ⟨rest.fileId.trans ?_, kept ▸ rest.walSeq⟩
                rw [← same]
                rfl
              · rw [kept]
                split
                · rename_i greater
                  simp only [Bool.and_eq_true, decide_eq_true_eq] at greater
                  omega
                · exact later
      · have moved : _ = after := congrArg Prod.snd run
        rw [← moved]
        exact ⟨rfl, later⟩

theorem recover_forward (device : Nat → UInt8) (fuel : Nat)
    (run : recover device fuel before = (.ok (), after)) : Forward before.file after.file := by
  have still : Forward before.file before.file := ⟨rfl, Nat.le_refl _⟩
  rw [recover, bind_read] at run
  split at run
  · have moved : before = after := congrArg Prod.snd run
    exact moved ▸ still
  · cases found : before.zbd.getIOZone before.file.extentStart with
    | none =>
        rw [found] at run
        cases run
    | some zone =>
        rw [found] at run
        simp only at run
        split at run
        · cases run
        · split at run
          · have moved : _ = after := congrArg Prod.snd run
            rw [← moved]
            exact ⟨rfl, Nat.le_refl _⟩
          · rcases bind_eq_ok run with ⟨_, middle, extents, run⟩
            have moved : _ = after := congrArg Prod.snd run
            rw [recoverExtents, bind_read] at extents
            split at extents
            · have forward := recoverSparseExtents_forward device zone _ (Nat.le_refl _) extents
              rw [← moved]
              exact ⟨forward.fileId, forward.walSeq⟩
            · have added : _ = middle := congrArg Prod.snd extents
              rw [← moved, ← added]
              exact ⟨rfl, Nat.le_refl _⟩

section Mounting

variable {number least j : Nat} {fs next : FileSystem}

theorem Single.forward (single : Single number least j fs) (files : next.files = fs.files)
    (forward : ∀ i, Forward (fs.object i).file (next.object i).file) : Single number least j next := by
  intro entry member same
  rw [files] at member
  rw [(forward entry.2).fileId] at same
  rcases single entry member same with ⟨here, low⟩
  exact ⟨here, low.trans (forward entry.2).walSeq⟩

theorem onObject_recover {device : Nat → UInt8} {fuel k : Nat} (recovering : Recovering fs)
    (inside : k < fs.objects.length)
    (run : onObject k (recover device fuel) fs = (.ok (), next)) :
    next.files = fs.files ∧ Recovering next ∧ fs.objects.length ≤ next.objects.length ∧
      ∀ i, Forward (fs.object i).file (next.object i).file := by
  have steps := recover_steps device fuel (fs.view k)
  rw [onObject] at run
  rcases recovered : recover device fuel (fs.view k) with ⟨failure | value, state⟩
  all_goals rw [recovered] at run steps
  · cases run
  · have moved : fs.place k state = next := congrArg Prod.snd run
    have mounted := RecoverSteps.mounted recovering inside (sees_view fs k) steps.1
    have silent : state.zbd.trace = fs.zbd.trace := RecoverSteps.trace steps.1
    have forward := recover_forward device fuel recovered
    rw [← moved]
    refine ⟨files_place _ _ _, mounted.recovering recovering, mounted.length, fun i => ?_⟩
    rw [place_silent recovering k silent]
    by_cases here : i = k
    · rw [here, object_setObject (show k < ({ fs with zbd := state.zbd } : FileSystem).objects.length
        from inside)]
      exact forward
    · rw [object_setObject_of_ne here]
      exact ⟨rfl, Nat.le_refl _⟩

theorem repair_single {device : Nat → UInt8} {fuel : Nat} {names : List (String × Nat)}
    (recovering : Recovering fs) (inside : ∀ entry ∈ names, entry.2 < fs.objects.length)
    (single : Single number least j fs) (run : repair device fuel names fs = (.ok (), next)) :
    Single number least j next := by
  induction names generalizing fs with
  | nil =>
      have same : fs = next := congrArg Prod.snd run
      exact same ▸ single
  | cons entry names induction =>
      rcases bind_eq_ok run with ⟨_, middle, recovered, onward⟩
      rcases onObject_recover recovering (inside entry List.mem_cons_self) recovered with
        ⟨files, still, longer, forward⟩
      refine induction still (fun other member => ?_) (single.forward files forward) onward
      exact Nat.lt_of_lt_of_le (inside other (List.mem_cons_of_mem _ member)) longer

theorem markSynced_forward (k i : Nat) (fs : FileSystem) :
    Forward (fs.object i).file ((fs.markSynced k).object i).file := by
  rcases markSynced_counted k fs i with ⟨count, marked⟩
  rw [marked]
  exact ⟨rfl, Nat.le_refl _⟩

theorem rollMetaZone_single (single : Single number least j fs)
    (run : rollMetaZone fs = (.ok (), next)) : Single number least j next := by
  rcases ZonedBlockDevice.request_cases (.ioError "Failed writing a new superblock") fs.zbd with
    ⟨replies, _, answered | ⟨_, answered⟩⟩
  · rw [rollMetaZone, bind_of_ok (FileSystem.onDevice_of_ok answered)] at run
    have moved : _ = next := congrArg Prod.snd run
    rw [← moved]
    exact single.forward rfl fun i => markSynced_forward fs.objects.length i
      { fs with zbd := { fs.zbd with replies := replies } }
  · rw [rollMetaZone, bind_of_error (FileSystem.onDevice_of_error answered)] at run
    cases run

theorem remount_single {device : Nat → UInt8} {fuel : Nat} {lost : List (Nat × Nat)}
    (tidy : Tidy number fs.metaLog) (run : remount config device fuel lost fs = (.ok (), next)) :
    ∃ i, Single number (latest number 0 (fs.metaLog.flatMap recordsOf)) i next := by
  rw [remount, bind_read, bind_update] at run
  rcases bind_eq_ok run with ⟨_, recovered, replayed, run⟩
  have empty := recovering_lostMemory lost fs
  have steps := recoverFrom_mounted config fs.metaLog empty
  rw [replayed] at steps
  have recovering := steps.1.recovering empty
  rcases tidy.single empty rfl replayed with ⟨i, single⟩
  split at run
  · cases run
  · rw [bind_read] at run
    rcases bind_eq_ok run with ⟨_, repaired, repairs, run⟩
    have second := repair_single recovering recovering.referring single repairs
    rcases bind_eq_ok run with ⟨_, rolled, rolls, run⟩
    have third := rollMetaZone_single second rolls
    have last : Single number _ i (FileSystem.onDevice ZonedBlockDevice.resetUnusedIOZones rolled).2 :=
      third.keep fun entry member => ⟨member, rfl⟩
    rw [run] at last
    exact ⟨i, last⟩

end Mounting

/-- Over every life of a write-ahead log whose mounts all find it recorded, a mount gives it
a number above those of all its entries. -/
theorem mounted_number_is_new {life : Life} (lives : Lives config Recorded life)
    (recorded : Recorded life) {fs next : FileSystem} (device : Nat → UInt8) (fuel : Nat)
    (lost : List (Nat × Nat)) (log : fs.metaLog = life.log)
    (run : remount config device fuel lost fs = (.ok (), next)) {name : String} {k : Nat}
    (found : next.getFile name = some k)
    (same : (next.object k).file.fileId = life.file.fileId) :
    ∀ number ∈ life.numbers, number < (next.object k).file.walSeq := by
  have young := lives.young recorded.1
  rcases remount_single (log.symm ▸ young.tidy recorded.2.1) run with ⟨i, single⟩
  rw [log, recorded.2.2] at single
  intro number member
  have below := young.below number member
  have least := (single _ (mem_of_getFile found) same).2
  exact Nat.lt_of_lt_of_le below least

def newLife : Life :=
  ⟨create smallConfig (smallDevice 12288) smallWal true, [], [.snapshot [], .update smallWal.record], 0,
    false⟩

def called (call : Call) (life : Life) : Life :=
  let writer := (call.run smallConfig 4 life.writer).2
  { life with
    writer := writer
    numbers := life.numbers ++ numbersOf (newEvents life.writer writer)
    log := life.log ++ (persisted (newEvents life.writer writer)).map .update
    refused := life.refused || call.refused smallConfig 4 life.writer }

theorem logged_updates (number : Nat) (log : List MetaRecord) (records : List FileRecord) :
    Logged number log records (log ++ records.map .update) := by
  induction records generalizing log with
  | nil =>
      rw [List.map_nil, List.append_nil]
      exact .nil
  | cons record records induction =>
      have rest := induction (log ++ [.update record])
      rw [List.append_assoc, List.singleton_append] at rest
      exact .update rest

theorem Lives.called {permitted : Life → Prop} {life : Life} (lives : Lives smallConfig permitted life)
    (call : Call) (returned : (call.run smallConfig 4 life.writer).1 ≠ .error .never) :
    Lives smallConfig permitted (called call life) :=
  lives.call 4 call returned (logged_updates _ _ _)

/-- One entry, and the record `Fsync` writes after it. -/
def syncedLife : Life := called (.write .fsync) (called (.write (.append [97, 98, 99])) newLife)

theorem syncedLife_lives : Lives smallConfig Recorded syncedLife := by
  have new : Lives smallConfig Recorded newLife :=
    .new smallWal_new (List.forall_mem_nil _) (List.forall_mem_nil _) (.inl rfl)
  exact (new.called _ (by decide +kernel)).called _ (by decide +kernel)

def leftOf (life : Life) : FileSystem where
  zbd := life.writer.state.zbd
  objects := []
  files := []
  nextFileId := 1
  metaLog := life.log
  rolls := []

theorem mounted_number_is_new_small :
    ∃ next, remount smallConfig (fun _ => 0) 4 [] (leftOf syncedLife) = (.ok (), next) ∧
      next.getFile "1.log" = some 0 ∧ syncedLife.numbers = [0] ∧
      ∀ number ∈ syncedLife.numbers, number < (next.object 0).file.walSeq := by
  have recorded : Recorded syncedLife := ⟨rfl, by decide +kernel, by decide +kernel⟩
  have mounted : (remount smallConfig (fun _ => 0) 4 [] (leftOf syncedLife)).1 = .ok () := by
    decide +kernel
  have found : (remount smallConfig (fun _ => 0) 4 [] (leftOf syncedLife)).2.getFile "1.log" = some 0 := by
    decide +kernel
  have same : ((remount smallConfig (fun _ => 0) 4 [] (leftOf syncedLife)).2.object 0).file.fileId =
      syncedLife.file.fileId := by decide +kernel
  rcases run : remount smallConfig (fun _ => 0) 4 [] (leftOf syncedLife) with ⟨outcome, next⟩
  rw [run] at mounted found same
  have ok : outcome = .ok () := mounted
  subst ok
  exact ⟨next, rfl, found, by decide +kernel,
    mounted_number_is_new syncedLife_lives recorded _ _ _ rfl run found same⟩

def twiceMounted : FileSystem :=
  runAll smallConfig 4 (writeLog ++ [.remount (fun _ => 0) [], .remount (fun _ => 0) []]) smallStart

/-- The number of the entry is given again. -/
theorem number_repeats_after_two_mounts :
    Made smallStart ∧ Runs smallConfig (fun _ _ => True) smallStart twiceMounted ∧
      twiceMounted.getFile "a.log" = some 0 ∧
      numbersOf twiceMounted.zbd.trace = [0] ∧ (twiceMounted.object 0).file.extents ≠ [] ∧
      (twiceMounted.object 0).file.walSeq = 0 := by
  refine ⟨smallStart_made, runs_runAll ?_ ?_, ?_, ?_, ?_, ?_⟩
  · exact ⟨trivial, trivial, trivial, trivial, trivial, trivial, trivial⟩
  all_goals decide +kernel

end Zwal.WalSequence
