import Zwal.Fs.Grounded

/-! # Operations on names

Deleting, renaming and linking are made of steps on the table, resets of unused zones, and
the end of files that have no name any more. -/

namespace Zwal.FileSystem

open ZonedBlockDevice FileState

/-- The steps of operations on names. Only the log of a file that has no name is reset. -/
inductive NameStep : FileSystem → FileSystem → Prop
  | log {fs k before after} : k < fs.objects.length →
      (fs.object k).file.linkfiles = [] ∨ fs.named k = false → Sees fs k before →
      FileStep .log before after → NameStep fs (fs.place k after)
  | device {fs zbd} : DeviceStep fs.zbd zbd → NameStep fs { fs with zbd := zbd }
  | reset {fs number} (answer) : Resettable fs.zbd number →
      (answer < 0 → fs.zbd.Failing) →
      NameStep fs { fs with zbd := unusedReset answer number fs.zbd }
  | unlink {fs k name} : k < fs.objects.length → fs.getFile name = some k →
      name ∈ (fs.object k).file.linkfiles → NameStep fs (fs.unlinked k name)
  | keep {fs k name} : k < fs.objects.length → fs.getFile name = some k →
      name ∈ (fs.object k).file.linkfiles → fs.zbd.Failing → NameStep fs (fs.kept k name)
  | stray {fs k name} : fs.getFile name = some k → name ∉ (fs.object k).file.linkfiles →
      NameStep fs (fs.eraseName name)
  | move {fs k source dest} : k < fs.objects.length →
      source ∈ (fs.object k).file.linkfiles → fs.getFile dest = none →
      NameStep fs ((fs.renamed k source dest).synced k false)
  | moveBack {fs k source dest} : k < fs.objects.length →
      source ∈ (fs.object k).file.linkfiles → fs.getFile dest = none → fs.zbd.Failing →
      NameStep fs ((fs.renamed k source dest).renamed k dest source)
  | link {fs k name target} : k < fs.objects.length → fs.getFile name = some k →
      fs.getFile target = none → NameStep fs ((fs.linked k target).synced k false)
  | linkBack {fs k name target} : k < fs.objects.length → fs.getFile name = some k →
      fs.getFile target = none → fs.zbd.Failing →
      NameStep fs ((fs.linked k target).unnamed k target)
  | destroy {fs k} : fs.named k = false → (fs.object k).writer = none →
      NameStep fs (fs.destroyed k)

def NameSteps : FileSystem → FileSystem → Prop := Relation.ReflTransGen NameStep

theorem NameStep.steps {before after : FileSystem} (step : NameStep before after) :
    NameSteps before after :=
  .single step

instance : Std.Refl NameSteps := ⟨fun _ => .refl⟩

instance : IsTrans FileSystem NameSteps := ⟨fun _ _ _ one two => one.trans two⟩

/-- How an operation on names ends: by such steps, unless it does not end. -/
abbrev Relinked (fs : FileSystem) (post : Value → FileSystem → Prop) :=
  Program.Along NameSteps (· = IOStatus.never) fs post

theorem NameStep.fsStep {before after : FileSystem} (step : NameStep before after) :
    FsStep before after := by
  cases step with
  | log inside _ sees step => exact .file inside (.inr rfl) sees step
  | device step => exact .device step
  | reset answer unused failing => exact .reset answer unused failing
  | unlink inside found linked => exact .unlink inside found linked
  | keep inside found linked failing => exact .keep inside found linked failing
  | stray found missing => exact .stray found missing
  | move inside linked absent => exact .move inside linked absent
  | moveBack inside linked absent failing => exact .moveBack inside linked absent failing
  | link inside found absent => exact .link inside found absent
  | linkBack inside found absent failing => exact .linkBack inside found absent failing
  | destroy unnamed unwritten => exact .destroy unnamed unwritten

theorem NameSteps.fsSteps {before after : FileSystem} (steps : NameSteps before after) :
    FsSteps before after :=
  Relation.ReflTransGen.mono (fun _ _ step => NameStep.fsStep step) _ _ steps

theorem FsSteps.length {before after : FileSystem} (steps : FsSteps before after) :
    before.objects.length ≤ after.objects.length := by
  induction steps with
  | refl => exact Nat.le_refl _
  | tail _ step induction => exact induction.trans step.coarse.length

theorem NameSteps.length {before after : FileSystem} (steps : NameSteps before after) :
    before.objects.length ≤ after.objects.length :=
  steps.fsSteps.length

theorem NameSteps.grounded {before after : FileSystem} (steps : NameSteps before after)
    (grounded : Grounded before) : Grounded after :=
  steps.fsSteps.grounded grounded

variable {fs : FileSystem} {k : Nat}

theorem Relinked.stepped {post : Value → FileSystem → Prop}
    {result : Except IOStatus Value × FileSystem} (relinked : Relinked fs post result) :
    Stepped fs post result :=
  relinked.mono fun _ steps => steps.fsSteps

theorem Sees.nameSteps {before after : FileState}
    (sees : Sees fs k before) (inside : k < fs.objects.length)
    (nameless : (fs.object k).file.linkfiles = [] ∨ fs.named k = false)
    (steps : FileSteps .log before after) : NameSteps fs (fs.place k after) := by
  induction steps with
  | refl =>
      rw [sees.place_self inside]
      exact .refl
  | @tail middle after earlier step induction =>
      have there : k < (fs.place k middle).objects.length := by
        rw [length_place]
        exact inside
      have still : ((fs.place k middle).object k).file.linkfiles = [] ∨
          (fs.place k middle).named k = false := by
        rw [object_place inside, named, files_place, (FileSteps.constant earlier).linkfiles, sees.file]
        exact nameless
      have first : fs.zbd.trace <+: middle.zbd.trace := sees.zbd ▸ fileSteps_trace earlier
      have second : middle.zbd.trace <+: after.zbd.trace := fileSteps_trace step.steps
      have onward := induction.tail (.log there still (sees_place inside middle) step)
      rw [place_place first second] at onward
      exact onward

theorem onObject_relinked (inside : k < fs.objects.length)
    (nameless : (fs.object k).file.linkfiles = [] ∨ fs.named k = false)
    {program : FileProgram Value} {post : Value → FileState → Prop}
    (walked : Walked .log (fs.view k) post (program (fs.view k))) :
    Relinked fs (fun value next => ∃ state, post value state ∧ next = fs.place k state)
      (onObject k program fs) := by
  rw [onObject]
  rcases run : program (fs.view k) with ⟨failure | value, state⟩
  all_goals rw [run] at walked
  · exact walked.imp_right fun steps => (sees_view fs k).nameSteps inside nameless steps
  · exact ⟨(sees_view fs k).nameSteps inside nameless walked.1, state, walked.2, rfl⟩

/-! ## Requests to the device -/

def answered (replies : List Int) (fs : FileSystem) : FileSystem :=
  { fs with zbd := { fs.zbd with replies := replies } }

theorem answered_steps {replies : List Int}
    (shorter : replies <:+ fs.zbd.replies) : NameSteps fs (fs.answered replies) :=
  (NameStep.device (.answer shorter)).steps

theorem auxiliary_relinked (fs : FileSystem) :
    Relinked fs (fun _ next => next.files = fs.files) (auxiliary fs) := by
  rcases request_cases (.ioError "auxiliary file system") fs.zbd with
    ⟨replies, shorter, run | ⟨_, run⟩⟩
  all_goals simp only [auxiliary, onDevice, Program.within, run]
  · exact ⟨answered_steps shorter, rfl⟩
  · exact .inr (answered_steps shorter)

theorem persistRecord_eq (k : Nat) (entry : MetaRecord) (fs : FileSystem) :
    persistRecord k entry fs =
      if fs.zbd.replies.headD 0 < 0 then
        (.error (.ioError "Failed to persist metadata"), fs.answered fs.zbd.replies.tail)
      else (.ok (), (fs.answered fs.zbd.replies.tail).commit k (fs.object k).file.record entry) := by
  have asked : onDevice (request (.ioError "Failed to persist metadata")) fs =
      (if fs.zbd.replies.headD 0 < 0 then .error (.ioError "Failed to persist metadata") else .ok (),
        fs.answered fs.zbd.replies.tail) := by
    simp only [onDevice, Program.within, request_eq, answered]
  by_cases negative : fs.zbd.replies.headD 0 < 0
  · rw [if_pos negative] at asked ⊢
    rw [persistRecord, bind_of_error asked]
  · rw [if_neg negative] at asked ⊢
    rw [persistRecord, bind_of_ok asked]
    rfl

theorem persistRecord_cases (k : Nat) (entry : MetaRecord) (fs : FileSystem) :
    ∃ replies, replies <:+ fs.zbd.replies ∧
      (persistRecord k entry fs =
          (.ok (), (fs.answered replies).commit k (fs.object k).file.record entry) ∨
        (fs.zbd.replies.headD 0 < 0 ∧ persistRecord k entry fs =
          (.error (.ioError "Failed to persist metadata"), fs.answered replies))) := by
  refine ⟨fs.zbd.replies.tail, List.tail_suffix _, ?_⟩
  rw [persistRecord_eq]
  split
  · rename_i negative
    exact .inr ⟨negative, rfl⟩
  · exact .inl rfl

theorem syncFileMetadata_cases (k : Nat) (replace : Bool) (fs : FileSystem) :
    ∃ replies, replies <:+ fs.zbd.replies ∧
      (syncFileMetadata k replace fs = (.ok (), (fs.answered replies).synced k replace) ∨
        (fs.zbd.replies.headD 0 < 0 ∧ syncFileMetadata k replace fs =
          (.error (.ioError "Failed to persist metadata"), fs.answered replies)) ∨
        ((fs.object k).file.isDeleted = true ∧ (fs.object k).file.linkfiles = [] ∧
          syncFileMetadata k replace fs = (.error .never, fs))) := by
  rw [syncFileMetadata, bind_read]
  cases deleted : (fs.object k).file.isDeleted with
  | true =>
      refine ⟨fs.zbd.replies, List.suffix_rfl, ?_⟩
      simp only [if_true]
      split
      · rename_i unnamed
        rw [ZoneFile.getFilename, Option.isNone_iff_eq_none, List.head?_eq_none_iff] at unnamed
        exact .inr (.inr ⟨trivial, unnamed, rfl⟩)
      · have same : (fs.answered fs.zbd.replies).synced k replace = fs := by
          simp only [synced, answered]
          exact if_pos deleted
        rw [same]
        exact .inl rfl
  | false =>
      simp only [Bool.false_eq_true, if_false]
      rcases persistRecord_cases k (if replace then .replace (fs.object k).file.record
          else .update (fs.object k).file.record) fs with
        ⟨replies, shorter, run | ⟨failing, run⟩⟩
      · refine ⟨replies, shorter, .inl ?_⟩
        rw [bind_of_ok run]
        have unfolded : (fs.answered replies).synced k replace = _ := if_neg (by
          rw [show ((fs.answered replies).object k).file.isDeleted = false from deleted]
          exact Bool.false_ne_true)
        rw [unfolded]
        rfl
      · refine ⟨replies, shorter, .inr (.inl ⟨failing, ?_⟩)⟩
        rw [bind_of_error run]

/-! ## Resetting unused zones -/

theorem resetZone_cases (number : Nat) (zbd : ZonedBlockDevice) :
    ∃ replies, replies <:+ zbd.replies ∧
      ((∃ answer later, later <:+ replies ∧
          (answer < 0 → { zbd with replies := replies }.Failing) ∧
          resetZone number zbd = (.ok (), { resetAs answer number zbd with replies := later })) ∨
        resetZone number zbd = (.error (.ioError "Zone reset failed\n"),
          { zbd with replies := replies })) := by
  rcases request_cases (.ioError "Zone reset failed\n") zbd with ⟨replies, shorter, run | ⟨_, run⟩⟩
  · refine ⟨replies, shorter, .inl ?_⟩
    rcases reply_cases (zbd.zone number).maxCapacity { zbd with replies := replies } with
      ⟨answer, later, shorter, source, answered⟩
    refine ⟨answer, later, shorter, fun negative => ?_, ?_⟩
    · rcases source with same | member
      · omega
      · exact ⟨answer, member, negative⟩
    · rw [resetZone, resetUpTo, bind_of_ok run, bind_read, bind_of_ok answered]
      rfl
  · refine ⟨replies, shorter, .inr ?_⟩
    rw [resetZone, resetUpTo, bind_of_error run]

theorem unusedReset_answered (answer : Int) (number : Nat) (zbd : ZonedBlockDevice)
    (replies : List Int) :
    unusedReset answer number { zbd with replies := replies } =
      { unusedReset answer number zbd with replies := replies } := by
  simp only [unusedReset]
  split
  · rfl
  · rfl

theorem resetUnusedIOZonesFrom_relinked (numbers : List Nat)
    (members : ∀ number ∈ numbers, number ∈ fs.zbd.ioZones) :
    Relinked fs (fun _ next => next.files = fs.files) (onDevice (resetUnusedIOZonesFrom numbers) fs) := by
  induction numbers generalizing fs with
  | nil => exact .here rfl
  | cons number numbers induction =>
      have rest : ∀ other ∈ numbers, other ∈ fs.zbd.ioZones := fun other member =>
        members other (List.mem_cons_of_mem _ member)
      rw [onDevice, Program.within, resetUnusedIOZonesFrom, bind_read]
      split
      · rename_i chosen
        simp only [Bool.and_eq_true, Bool.not_eq_true'] at chosen
        rcases resetZone_cases number fs.zbd with
          ⟨replies, shorter, ⟨answer, later, shorterStill, failing, run⟩ | run⟩
        · have first : NameSteps fs (fs.answered replies) := answered_steps shorter
          have second : NameStep (fs.answered replies)
              { fs.answered replies with
                zbd := unusedReset answer number (fs.answered replies).zbd } :=
            .reset answer ⟨members number List.mem_cons_self, chosen.1.1, chosen.1.2, chosen.2⟩ failing
          have third : NameSteps fs { fs with
              zbd := { unusedReset answer number fs.zbd with replies := later } } := by
            refine (first.tail second).trans ?_
            rw [answered, unusedReset_answered]
            exact answered_steps shorterStill
          refine Program.Along.after third ?_
          have same := unusedReset_fixed answer number fs.zbd
          have onward : Relinked { fs with
              zbd := { unusedReset answer number fs.zbd with replies := later } } _ _ :=
            induction (same.ioZones.symm ▸ rest)
          rw [bind_of_ok run]
          cases full : (fs.zbd.zone number).isFull with
          | true =>
              simp only [unusedReset, full, if_true] at onward ⊢
              exact onward
          | false =>
              simp only [unusedReset, full, Bool.false_eq_true, if_false] at onward ⊢
              exact onward
        · rw [bind_of_error run]
          exact .inr (answered_steps shorter)
      · exact induction rest

theorem resetUnusedIOZones_relinked (fs : FileSystem) :
    Relinked fs (fun _ next => next.files = fs.files) (onDevice resetUnusedIOZones fs) :=
  resetUnusedIOZonesFrom_relinked fs.zbd.ioZones fun _ member => member

/-! ## The last reference to an object -/

theorem destroy_eq (k : Nat) (fs : FileSystem) :
    destroy k fs = (.ok (), (onObject k walSync fs).2.destroyed k) := by
  have attempted : (onObject k walSync).attempt fs =
      (.ok (onObject k walSync fs).1, (onObject k walSync fs).2) := rfl
  rw [destroy, bind_of_ok attempted]
  simp only [clearExtents, Program.bind_assoc]
  rw [bind_read, bind_of_ok (show onDevice (Program.update _) _ = (.ok (), _) from rfl),
    bind_of_ok (show setFile _ _ _ = (.ok (), _) from rfl), Program.update]
  simp only [destroyed, setObject, List.set_set]
  rfl

theorem destroy_relinked (inside : k < fs.objects.length)
    (unnamed : fs.named k = false) (unwritten : (fs.object k).writer = none) :
    Relinked fs (fun _ next => next.files = fs.files) (destroy k fs) := by
  have steps := (sees_view fs k).nameSteps inside (.inr unnamed)
    ((walSync_synced (fs.view k)).steps .log)
  rw [destroy_eq]
  refine ⟨steps.tail (.destroy ?_ ?_), files_place _ _ _⟩
  · rw [named, files_place]
    exact unnamed
  · rw [object_place inside, unwritten]
    rfl

theorem release_relinked (inside : k < fs.objects.length) :
    Relinked fs (fun _ next => next.files = fs.files) (release k fs) := by
  rw [release, bind_read]
  split
  · exact .here rfl
  · rename_i free
    simp only [Bool.not_eq_true, Bool.or_eq_false_iff, Option.isSome_eq_false_iff,
      Option.isNone_iff_eq_none] at free
    exact destroy_relinked inside free.1.1 free.1.2

theorem release_of_named (named : fs.named k = true) :
    release k fs = (.ok (), fs) := by
  rw [release, bind_read]
  simp only [named, Bool.true_or, if_true]
  rfl

theorem leaving_relinked {program : FsProgram Value} {cleanup : FsProgram Unit}
    {post final : Value → FileSystem → Prop}
    (first : Relinked fs post (program fs))
    (stopped : ∀ middle, NameSteps fs middle → Relinked middle (fun _ _ => True) (cleanup middle))
    (second : ∀ value middle, NameSteps fs middle → post value middle →
      Relinked middle (fun _ => final value) (cleanup middle)) :
    Relinked fs final (leaving program cleanup fs) := by
  rcases run : program fs with ⟨failure | value, middle⟩
  all_goals
    rw [run] at first
    rw [leaving, bind_attempt run]
  · by_cases same : failure = .never
    · subst same
      exact .inl rfl
    · have steps := first.resolve_left same
      have unfolded : Relinked middle final ((cleanup >>= fun _ => Program.fail failure) middle) :=
        (stopped middle steps).bind fun _ _ _ _ => .failed _
      refine Program.Along.after steps ?_
      cases failure with
      | never => exact absurd rfl same
      | noSpace | ioError | corruption | invalidArgument => exact unfolded
  · refine Program.Along.after first.1 ?_
    exact (second value middle first.1 first.2).bind fun _ _ _ holds => .here holds

theorem ignored_of_ok {fs next : FileSystem} {program : FsProgram Unit}
    (run : program fs = (.ok (), next)) : ignored program fs = (.ok (), next) := by
  rw [ignored, bind_attempt run]
  rfl

theorem ignored_of_error {fs next : FileSystem} {program : FsProgram Unit} {failure : IOStatus}
    (run : program fs = (.error failure, next)) (ends : failure ≠ .never) :
    ignored program fs = (.ok (), next) := by
  rw [ignored, bind_attempt run]
  cases failure with
  | never => exact absurd rfl ends
  | noSpace | ioError | corruption | invalidArgument => rfl

theorem ignored_of_never {fs next : FileSystem} {program : FsProgram Unit}
    (run : program fs = (.error .never, next)) : ignored program fs = (.error .never, next) := by
  rw [ignored, bind_attempt run]
  rfl

theorem ignored_relinked {program : FsProgram Unit}
    {post : Unit → FileSystem → Prop} (along : Relinked fs post (program fs))
    {final : FileSystem → Prop} (holds : final (program fs).2) :
    Relinked fs (fun _ => final) (ignored program fs) := by
  rcases run : program fs with ⟨failure | value, middle⟩
  all_goals
    rw [run] at along holds
    rw [ignored, bind_attempt run]
  · cases failure with
    | never => exact .inl rfl
    | noSpace | ioError | corruption | invalidArgument =>
        exact ⟨along.resolve_left (by simp), holds⟩
  · exact ⟨along.1, holds⟩

/-! ## Deletion -/

theorem resetAll_walked {state : FileState} {log : Nat} (opened : state.file.wal = some log) :
    Walked .log state (fun _ _ => True) (resetAll log state) := by
  rcases request_cases (.ioError "WAL sync error") state.zbd with ⟨replies, shorter, run | ⟨_, run⟩⟩
  all_goals simp only [resetAll, FileState.onDevice, Program.within]
  · rw [bind_of_ok run]
    have reset : FileStep .log { state with zbd := { state.zbd with replies := replies } } _ :=
      .resetLog opened
    refine ⟨((FileSteps.answer shorter).tail reset).trans ?_, trivial⟩
    exact FileSteps.device (releaseUnusedWALZones_steps _)
  · rw [bind_of_error run]
    exact .inr (FileSteps.answer shorter)

theorem openWALZone_held {zbd : ZonedBlockDevice} (partitioned : Partitioned zbd) {number : Nat}
    (data : DataZone number) (held : (zbd.zone number).busy = true) :
    ∃ next, openWALZone number zbd = (.error .never, next) := by
  rcases takeWalTokens_cases zbd with ⟨_, run⟩ | ⟨next, run⟩
  · rw [openWALZone, bind_of_ok run, bind_read]
    cases found : zbd.withTokens.walZones[number - zenfsMetaZones - zenfsFlakyZones]? with
    | none => exact ⟨_, rfl⟩
    | some other =>
        have same : other = number := by
          have numbered := partitioned.wal _ other found
          rw [DataZone] at data
          omega
        subst same
        simp only
        rw [if_pos (show (zbd.withTokens.zone other).busy = true from held)]
        exact ⟨_, rfl⟩
  · rw [openWALZone, bind_of_error run]
    exact ⟨_, rfl⟩

theorem resetWALZones_never {state : FileState} {extent : ZoneExtent} {rest : List ZoneExtent}
    (partitioned : Partitioned state.zbd) (lies : ZoneFile.Lies state.file)
    (written : state.file.extents = extent :: rest) (unopened : state.file.wal = none) :
    ∃ next, resetWALZones state = (.error .never, next) := by
  rw [resetWALZones, bind_read]
  simp only [written, unopened]
  split
  · exact ⟨_, rfl⟩
  · rw [bind_of_ok (show FileState.onDevice (Program.update _) _ = (.ok (), _) from rfl)]
    have acquired := @openWALZone_held (state.zbd.setBusy extent.zone true)
      (partitioned.fixed (.setZone rfl)) _ (lies.extents extent (written ▸ List.mem_cons_self))
      (by rw [setBusy, zone_setZone])
    rcases acquired with ⟨next, run⟩
    refine ⟨{ state with zbd := next }, bind_of_error ?_⟩
    simp only [FileState.onDevice, Program.within, Program.update, run]

theorem resetWALZones_of_open {state : FileState} {log : Nat} (opened : state.file.wal = some log) :
    resetWALZones state = resetAll log state := by
  rw [resetWALZones, bind_read]
  cases state.file.extents with
  | nil | cons => simp only [opened]

theorem resetWALZones_of_empty {state : FileState} (empty : state.file.extents = [])
    (unopened : state.file.wal = none) : resetWALZones state = (.ok (), state) := by
  rw [resetWALZones, bind_read]
  simp only [empty, unopened]
  rfl

theorem resetWALZones_walked {state : FileState} (partitioned : Partitioned state.zbd)
    (lies : ZoneFile.Lies state.file) :
    Walked .log state (fun _ _ => True) (resetWALZones state) := by
  cases opened : state.file.wal with
  | some log =>
      rw [resetWALZones_of_open opened]
      exact resetAll_walked opened
  | none =>
      cases written : state.file.extents with
      | nil =>
          rw [resetWALZones_of_empty written opened]
          exact .here trivial
      | cons extent rest =>
          rcases resetWALZones_never partitioned lies written opened with ⟨next, run⟩
          rw [run]
          exact .inl rfl

theorem mem_of_getFile {name : String}
    (found : fs.getFile name = some k) : (name, k) ∈ fs.files := by
  rw [getFile, List.lookup_eq_some_iff] at found
  rcases found with ⟨before, after, same, _⟩
  rw [same]
  simp

theorem named_of_getFile {name : String} (found : fs.getFile name = some k) : fs.named k = true :=
  List.any_eq_true.mpr ⟨_, mem_of_getFile found, beq_self_eq_true k⟩

theorem Grounded.inside (grounded : Grounded fs) {name : String}
    (found : fs.getFile name = some k) : k < fs.objects.length :=
  grounded.referring _ (mem_of_getFile found)

theorem getFile_eraseName (name : String) (fs : FileSystem) :
    (fs.eraseName name).getFile name = none := by
  rw [getFile, List.lookup_eq_none_iff]
  intro entry member
  have kept := (List.mem_filter.mp member).2
  rw [bne_iff_ne] at kept
  rw [bne_iff_ne]
  exact kept.symm

def struck (k : Nat) (name : String) (fs : FileSystem) : FileSystem :=
  (fs.unnamed k name).commit k ((fs.unnamed k name).object k).file.record
    (.deletion (fs.object k).file.fileId name)

theorem unlinked_eq (k : Nat) (name : String) (fs : FileSystem) :
    fs.unlinked k name =
      if ((fs.struck k name).object k).file.linkfiles.isEmpty then
        (fs.struck k name).setObject k { (fs.struck k name).object k with
          file := { ((fs.struck k name).object k).file with isDeleted := true } }
      else fs.struck k name :=
  rfl

theorem files_unlinked (k : Nat) (name : String) (fs : FileSystem) :
    (fs.unlinked k name).files = (fs.eraseName name).files := by
  rw [unlinked_eq]
  split
  · exact files_commit _ _ _ _
  · exact files_commit _ _ _ _

theorem links_unlinked (inside : k < fs.objects.length) {name : String}
    (empty : ((fs.struck k name).object k).file.linkfiles.isEmpty = true) :
    ((fs.unlinked k name).object k).file.linkfiles = [] := by
  have there : k < (fs.struck k name).objects.length := by
    rw [struck, length_commit, unnamed, relink, setObject, List.length_set]
    exact inside
  rw [unlinked_eq, if_pos empty, object_setObject there]
  exact List.isEmpty_iff.mp empty

theorem forget_eq (k : Nat) (name : String) (fs : FileSystem) :
    forget k name (fs.struck k name) =
      (if ((fs.struck k name).object k).file.linkfiles.isEmpty && endsWith name ".log" then
        ignored (onObject k resetWALZones)
      else pure ()) (fs.unlinked k name) := by
  rw [forget, bind_read, unlinked_eq]
  cases ((fs.struck k name).object k).file.linkfiles.isEmpty with
  | false => rfl
  | true =>
      simp only [if_true, Bool.true_and]
      rw [bind_of_ok (show setFile _ _ _ = (.ok (), _) from rfl)]

theorem forget_relinked (grounded : Grounded fs) {name : String}
    (found : fs.getFile name = some k) (linked : name ∈ (fs.object k).file.linkfiles) :
    Relinked fs (fun _ next => next.files = (fs.eraseName name).files)
      (forget k name (fs.struck k name)) := by
  have inside := grounded.inside found
  have first : NameSteps fs (fs.unlinked k name) := (NameStep.unlink inside found linked).steps
  have there := (Relabelled.unlinked k name fs).inside inside
  have still := first.grounded grounded
  rw [forget_eq]
  refine Program.Along.after first ?_
  split
  · rename_i last
    have nameless := links_unlinked inside (Bool.and_eq_true_iff.mp last).1
    have walked := @resetWALZones_walked ((fs.unlinked k name).view k)
      still.partitioned (still.lies k)
    refine ignored_relinked (onObject_relinked there (.inl nameless) walked) ?_
    exact (files_place _ _ _).trans (files_unlinked _ _ _)
  · exact .here (files_unlinked _ _ _)

theorem object_insertName (name : String) (k j : Nat) (fs : FileSystem) :
    (fs.insertName name k).object j = fs.object j := by
  rw [insertName]
  split
  all_goals rfl

theorem object_relink (inside : k < fs.objects.length) (links : List String) :
    (fs.relink k links).object k =
      { fs.object k with file := { (fs.object k).file with linkfiles := links } } :=
  object_setObject inside _

theorem addLinkName_eq (k : Nat) (name : String) (fs : FileSystem) :
    addLinkName k name fs = (.ok (), fs.relink k ((fs.object k).file.linkfiles ++ [name])) :=
  rfl

theorem insertName_answered (name : String) (k : Nat) (replies : List Int) (fs : FileSystem) :
    (fs.answered replies).insertName name k = (fs.insertName name k).answered replies := by
  have same : (fs.answered replies).getFile name = fs.getFile name := rfl
  rw [insertName, insertName, same]
  split
  all_goals rfl

theorem addLinkName_kept (inside : k < fs.objects.length) (name : String) (replies : List Int) :
    addLinkName k name (((fs.unnamed k name).answered replies).insertName name k) =
      (.ok (), (fs.kept k name).answered replies) := by
  have links : (((fs.unnamed k name).insertName name k).object k).file.linkfiles =
      (fs.object k).file.linkfiles.erase name := by
    have erased : k < (fs.eraseName name).objects.length := inside
    rw [object_insertName, unnamed, object_relink erased]
  rw [insertName_answered, addLinkName_eq, kept, ← links]
  rfl

theorem removeLinkName_of_mem {name : String} (linked : name ∈ (fs.object k).file.linkfiles) :
    removeLinkName k name fs = (.ok (), fs.relink k ((fs.object k).file.linkfiles.erase name)) := by
  rw [removeLinkName, bind_read]
  exact congrFun (if_pos linked) _

theorem removeLinkName_of_not_mem {name : String} (missing : name ∉ (fs.object k).file.linkfiles) :
    removeLinkName k name fs =
      (.error (.ioError "RemoveLinkInfo: Failed to find the link file"), fs) := by
  rw [removeLinkName, bind_read]
  exact congrFun (if_neg missing) _

theorem deleteFileNoLock_eq {name : String}
    (found : fs.getFile name = some k) (inside : k < fs.objects.length) :
    deleteFileNoLock name fs =
      if name ∈ (fs.object k).file.linkfiles then
        if fs.zbd.replies.headD 0 < 0 then
          (.error (.ioError "Failed to persist metadata"),
            (fs.kept k name).answered fs.zbd.replies.tail)
        else forget k name ((fs.answered fs.zbd.replies.tail).struck k name)
      else (.error (.ioError "RemoveLinkInfo: Failed to find the link file"), fs.eraseName name) := by
  rw [deleteFileNoLock, bind_read, found]
  simp only
  rw [deleteName, bind_read, bind_update]
  by_cases linked : name ∈ (fs.object k).file.linkfiles
  · have removed : removeLinkName k name (fs.eraseName name) = (.ok (), fs.unnamed k name) :=
      removeLinkName_of_mem linked
    have written := persistRecord_eq k (.deletion (fs.object k).file.fileId name) (fs.unnamed k name)
    have same : (fs.unnamed k name).zbd = fs.zbd := rfl
    rw [same] at written
    rw [bind_of_ok removed, if_pos linked]
    by_cases negative : fs.zbd.replies.headD 0 < 0
    · rw [if_pos negative] at written ⊢
      rw [bind_attempt written]
      simp only
      rw [bind_update, bind_of_ok (addLinkName_kept inside name _)]
      rfl
    · rw [if_neg negative] at written ⊢
      rw [bind_attempt written]
      rfl
  · have missing : name ∉ ((fs.eraseName name).object k).file.linkfiles := linked
    rw [if_neg linked, bind_of_error (removeLinkName_of_not_mem missing)]

theorem deleteFileNoLock_relinked (grounded : Grounded fs) (name : String) :
    Relinked fs (fun _ next => next.getFile name = none) (deleteFileNoLock name fs) := by
  cases found : fs.getFile name with
  | none =>
      rw [deleteFileNoLock, bind_read, found]
      refine (auxiliary_relinked fs).weaken fun _ next same => ?_
      rw [getFile, same]
      exact found
  | some k =>
      have inside := grounded.inside found
      have shorter : fs.zbd.replies.tail <:+ fs.zbd.replies := List.tail_suffix _
      rw [deleteFileNoLock_eq found inside]
      split
      · rename_i linked
        split
        · rename_i failing
          have kept := (NameStep.keep inside found linked (.of_head failing)).steps
          have still : fs.zbd.replies.tail <:+ (fs.kept k name).zbd.replies := by
            rw [(Relabelled.kept inside name).zbd]
            exact shorter
          exact .inr (kept.trans (answered_steps still))
        · have asked := answered_steps shorter
          refine Program.Along.after asked ?_
          refine (forget_relinked (asked.grounded grounded) found linked).weaken fun _ next same => ?_
          rw [getFile, same]
          exact getFile_eraseName name _
      · rename_i missing
        exact .inr (NameStep.stray found missing).steps

theorem deleteAndRelease_relinked (grounded : Grounded fs) (name : String) :
    Relinked fs (fun _ next => next.getFile name = none) (deleteAndRelease name fs) := by
  rw [deleteAndRelease, bind_read]
  have deleted := deleteFileNoLock_relinked grounded name
  cases found : fs.getFile name with
  | none => exact deleted
  | some k =>
      have inside {next : FileSystem} (steps : NameSteps fs next) : k < next.objects.length :=
        Nat.lt_of_lt_of_le (grounded.inside found) steps.length
      refine leaving_relinked deleted (fun middle steps => ?_) fun _ middle steps gone => ?_
      · exact (release_relinked (inside steps)).weaken fun _ _ _ => trivial
      · refine (release_relinked (inside steps)).weaken fun _ next same => ?_
        rw [getFile, same]
        exact gone

theorem deleteFile_relinked (grounded : Grounded fs) (name : String) :
    Relinked fs (fun _ _ => True) (deleteFile name fs) :=
  (deleteAndRelease_relinked grounded name).bind fun _ middle _ _ =>
    (resetUnusedIOZones_relinked middle).weaken fun _ _ _ => trivial

/-! ## Names -/

theorem renameLink_of_mem {source : String}
    (linked : source ∈ (fs.object k).file.linkfiles) (dest : String) :
    renameLink k source dest fs =
      (.ok (), fs.relink k ((fs.object k).file.linkfiles.erase source ++ [dest])) := by
  rw [renameLink, bind_read]
  exact congrFun (if_pos linked) _

theorem renamed_answered (k : Nat) (source dest : String) (replies : List Int) (fs : FileSystem) :
    (fs.answered replies).renamed k source dest = (fs.renamed k source dest).answered replies := by
  rw [renamed, renamed, ← insertName_answered]
  rfl

theorem moveBack_eq {dest : String}
    (linked : dest ∈ (fs.object k).file.linkfiles) (source : String) (replies : List Int) :
    (do
      Program.update (eraseName dest)
      renameLink k dest source
      Program.update (insertName source k) : FsProgram Unit) (fs.answered replies) =
        (.ok (), (fs.renamed k dest source).answered replies) := by
  have erased : dest ∈ (((fs.answered replies).eraseName dest).object k).file.linkfiles := linked
  rw [bind_update, bind_of_ok (renameLink_of_mem erased source), Program.update, ← renamed_answered]
  rfl

theorem object_renamed (inside : k < fs.objects.length) (source dest : String) :
    (fs.renamed k source dest).object k = { fs.object k with
      file := { (fs.object k).file with
        linkfiles := (fs.object k).file.linkfiles.erase source ++ [dest] } } := by
  rw [renamed, object_insertName]
  exact object_relink inside _

theorem moveName_relinked (inside : k < fs.objects.length)
    (source : String) {dest : String} (absent : fs.getFile dest = none) :
    Relinked fs (fun _ _ => True) (moveName k source dest fs) := by
  by_cases linked : source ∈ (fs.object k).file.linkfiles
  · have updated : Program.update (fun fs => (fs.eraseName source).insertName dest k)
        (fs.relink k ((fs.object k).file.linkfiles.erase source ++ [dest])) =
          ((.ok (), fs.renamed k source dest) : Except IOStatus Unit × FileSystem) := rfl
    rw [moveName, bind_of_ok (renameLink_of_mem linked dest), bind_of_ok updated]
    have there : dest ∈ ((fs.renamed k source dest).object k).file.linkfiles := by
      rw [object_renamed inside]
      simp
    rcases syncFileMetadata_cases k false (fs.renamed k source dest) with
      ⟨replies, shorter, run | ⟨failing, run⟩ | ⟨_, none, _⟩⟩
    · rw [bind_attempt run]
      rw [(Relabelled.renamed inside source dest).zbd] at shorter
      have move : NameStep (fs.answered replies)
          (((fs.answered replies).renamed k source dest).synced k false) :=
        .move inside linked absent
      rw [renamed_answered] at move
      exact ⟨(answered_steps shorter).tail move, trivial⟩
    · rw [bind_attempt run]
      have back : NameStep fs ((fs.renamed k source dest).renamed k dest source) := by
        rw [(Relabelled.renamed inside source dest).zbd] at failing
        exact .moveBack inside linked absent (.of_head failing)
      simp only
      rw [moveBack_eq there]
      refine ⟨back.steps.trans (answered_steps ?_), trivial⟩
      have moved := Relabelled.renamed inside source dest
      rw [(Relabelled.renamed (moved.inside inside) dest source).zbd]
      exact shorter
    · rw [none] at there
      cases there
  · have missing : renameLink k source dest fs =
        (.error (.ioError "RenameLink: Failed to find the linked file"), fs) := by
      rw [renameLink, bind_read]
      exact congrFun (if_neg linked) _
    rw [moveName, bind_of_error missing]
    exact .failed _

theorem renameFileNoLock_relinked (grounded : Grounded fs) (source dest : String) :
    Relinked fs (fun _ _ => True) (renameFileNoLock source dest fs) := by
  rw [renameFileNoLock, bind_read]
  cases found : fs.getFile source with
  | none => exact (auxiliary_relinked fs).weaken fun _ _ _ => trivial
  | some k =>
      have inside {next : FileSystem} (steps : NameSteps fs next) : k < next.objects.length :=
        Nat.lt_of_lt_of_le (grounded.inside found) steps.length
      cases target : fs.getFile dest with
      | none => exact moveName_relinked (grounded.inside found) source target
      | some other =>
          have beside {next : FileSystem} (steps : NameSteps fs next) :
              other < next.objects.length :=
            Nat.lt_of_lt_of_le (grounded.inside target) steps.length
          refine @leaving_relinked _ _ _ _ (fun _ _ => True) _
            ((deleteFileNoLock_relinked grounded dest).bind fun _ middle steps gone =>
              moveName_relinked (inside steps) source gone)
            (fun middle steps => ?_) fun _ middle steps _ => ?_
          all_goals exact (release_relinked (beside steps)).weaken fun _ _ _ => trivial

theorem renameFile_relinked (grounded : Grounded fs) (source dest : String) :
    Relinked fs (fun _ _ => True) (renameFile source dest fs) :=
  (renameFileNoLock_relinked grounded source dest).bind fun _ middle _ _ =>
    (resetUnusedIOZones_relinked middle).weaken fun _ _ _ => trivial

theorem linked_answered (k : Nat) (target : String) (replies : List Int) (fs : FileSystem) :
    (fs.answered replies).linked k target = (fs.linked k target).answered replies := by
  rw [linked, linked, ← insertName_answered]
  rfl

theorem object_linked (inside : k < fs.objects.length) (target : String) :
    (fs.linked k target).object k = { fs.object k with
      file := { (fs.object k).file with
        linkfiles := (fs.object k).file.linkfiles ++ [target] } } := by
  rw [linked, object_insertName]
  exact object_relink inside _

theorem linkFile_relinked (grounded : Grounded fs) (name target : String) :
    Relinked fs (fun _ _ => True) (linkFile name target fs) := by
  rw [linkFile, bind_read]
  cases taken : fs.getFile target with
  | some => exact .failed _
  | none =>
      cases found : fs.getFile name with
      | none => exact (auxiliary_relinked fs).weaken fun _ _ _ => trivial
      | some k =>
          have inside := grounded.inside found
          have inserted : Program.update (insertName target k)
              (fs.relink k ((fs.object k).file.linkfiles ++ [target])) =
                ((.ok (), fs.linked k target) : Except IOStatus Unit × FileSystem) := rfl
          simp only
          rw [bind_of_ok (addLinkName_eq k target fs), bind_of_ok inserted]
          have there : target ∈ ((fs.linked k target).object k).file.linkfiles := by
            rw [object_linked inside]
            simp
          rcases syncFileMetadata_cases k false (fs.linked k target) with
            ⟨replies, shorter, run | ⟨failing, run⟩ | ⟨_, none, _⟩⟩
          · rw [bind_attempt run]
            rw [(Relabelled.linked inside target).zbd] at shorter
            have link : NameStep (fs.answered replies)
                (((fs.answered replies).linked k target).synced k false) :=
              .link inside found taken
            rw [linked_answered] at link
            exact ⟨(answered_steps shorter).tail link, trivial⟩
          · rw [bind_attempt run]
            have linked := Relabelled.linked inside target
            rw [linked.zbd] at failing
            have back : NameStep fs ((fs.linked k target).unnamed k target) :=
              .linkBack inside found taken (.of_head failing)
            simp only
            rw [bind_of_ok (@removeLinkName_of_mem ((fs.linked k target).answered replies) _ _ there)]
            have last : NameSteps ((fs.linked k target).unnamed k target)
                (((fs.linked k target).unnamed k target).answered replies) := answered_steps shorter
            exact ⟨back.steps.trans last, trivial⟩
          · rw [none] at there
            cases there

end Zwal.FileSystem
