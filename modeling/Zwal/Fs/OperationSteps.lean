import Zwal.Fs.NameSteps

/-! # Operations are made of steps

Every operation but a pass of the garbage collector and a mount, call by call. -/

namespace Zwal.FileSystem

open ZonedBlockDevice FileState

/-! ## Calls on one object -/

theorem lt_of_writer {fs : FileSystem} {k : Nat} {handle : WriterHandle}
    (writer : (fs.object k).writer = some handle) : k < fs.objects.length := by
  apply lt_of_object_ne
  intro blank
  rw [blank] at writer
  cases writer

theorem opened_of_writer {fs : FileSystem} {k : Nat} {handle : WriterHandle}
    (writer : (fs.object k).writer = some handle) : (fs.object k).opened = handle.isOpen := by
  rw [FileObject.opened, writer]
  rfl

theorem handled_steps {fs : FileSystem} {k : Nat} {handle : WriterHandle} {writer : WritableFile}
    (held : (fs.object k).writer = some handle) (opened : handle.isOpen = true)
    (sound : (fs.writer k handle).Sound) (moved : WritableFile.Moved (fs.writer k handle) writer) :
    FsSteps fs ((fs.place k writer.state).setHandle k writer) := by
  have inside := lt_of_writer held
  have allowed : Allowed .write (fs.object k) := .inl ⟨rfl, (opened_of_writer held).trans opened⟩
  have steps := (sees_view fs k).steps inside allowed moved.steps
  have there : k < (fs.place k writer.state).objects.length := by
    rw [length_place]
    exact inside
  refine steps.tail (.handle there (fun now same => ?_) fun plain => ?_)
  · rw [object_place inside, held] at same
    cases same
    exact moved.opened
  · rw [object_place inside] at plain
    exact ((moved.sound sound).plain plain).filled

theorem onWriter_stepped {fs : FileSystem} (grounded : Grounded fs) {k : Nat}
    (opened : (fs.object k).opened = true) {program : WritableProgram Value}
    {post : WritableFile → Value → WritableFile → Prop}
    (wrote : ∀ writer : WritableFile, writer.Sound → writer.Wrote (post writer) (program writer)) :
    Stepped fs (fun value next => ∃ handle writer, (fs.object k).writer = some handle ∧
        post (fs.writer k handle) value writer ∧
        next = (fs.place k writer.state).setHandle k writer)
      (onWriter k program fs) := by
  rw [onWriter]
  split
  · exact .inl rfl
  · rename_i handle held
    have stillOpen : handle.isOpen = true := (opened_of_writer held).symm.trans opened
    have sound := grounded.sound held
    have moved := wrote _ sound
    rcases run : program (fs.writer k handle) with ⟨failure | value, writer⟩
    all_goals rw [run] at moved
    · refine moved.imp_right fun moved => ?_
      exact handled_steps held stillOpen sound moved
    · exact ⟨handled_steps held stillOpen sound moved.1, handle, writer, held, moved.2, rfl⟩

/-! ## Creation -/

theorem object_appended (name : String) (direct : Bool) (fs : FileSystem) :
    (fs.appended name direct).object fs.objects.length =
      { file := newFile fs.nextFileId name direct } := by
  rw [appended, object_append, if_pos rfl]

theorem newFile_labels (fileId : Nat) (name : String) (direct : Bool) :
    (newFile fileId name direct).linkfiles = [name] ∧
      (newFile fileId name direct).fileId = fileId := by
  rw [newFile]
  simp only
  split
  all_goals exact ⟨rfl, rfl⟩

theorem newFile_fresh (fileId : Nat) (name : String) (direct : Bool) :
    FileObject.Fresh { file := newFile fileId name direct } := by
  rw [newFile]
  simp only
  split
  all_goals exact ⟨rfl, rfl, rfl, rfl, rfl⟩

theorem destroy_appended (name : String) (direct : Bool) (fs : FileSystem) :
    destroy fs.objects.length (fs.appended name direct) = (.ok (), fs.discarded) := by
  have fresh := newFile_fresh fs.nextFileId name direct
  have inside : fs.objects.length < (fs.appended name direct).objects.length := by
    rw [length_appended]
    exact Nat.lt_succ_self _
  have unsynced : walSync ((fs.appended name direct).view fs.objects.length) =
      (.ok (), (fs.appended name direct).view fs.objects.length) := by
    rw [walSync, bind_read, view, object_appended, fresh.wal]
    rfl
  rw [destroy_eq]
  have same : (onObject fs.objects.length walSync (fs.appended name direct)).2 =
      fs.appended name direct := by
    rw [onObject, unsynced]
    exact (sees_view _ _).place_self inside
  rw [same, destroyed, object_appended, fresh.extents]
  simp only [appended, setObject, discarded, List.foldl_nil, List.set_append_right _ _ (Nat.le_refl _),
    Nat.sub_self, List.set_cons_zero]

theorem createFile_eq (config : BuildConfig) (name : String) (direct : Bool) (fs : FileSystem) :
    createFile config name direct fs = (do
      match ← (syncFileMetadata fs.objects.length false).attempt with
      | .error failure =>
          destroy fs.objects.length
          Program.fail failure
      | .ok () =>
          Program.update (insertName name fs.objects.length)
          attachWriter config fs.objects.length (!direct) : FsProgram Unit)
        (fs.appended name direct) :=
  rfl

theorem createFile_stepped (config : BuildConfig) {fs : FileSystem} {name : String}
    (absent : fs.getFile name = none) (direct : Bool) :
    Stepped fs (fun _ _ => True) (createFile config name direct fs) := by
  rw [createFile_eq]
  rcases syncFileMetadata_cases fs.objects.length false (fs.appended name direct) with
    ⟨replies, shorter, run | ⟨failing, run⟩ | ⟨_, none, _⟩⟩
  all_goals have asked : FsSteps fs (fs.answered replies) := NameSteps.fsSteps (answered_steps shorter)
  · rw [bind_attempt run]
    have inserted : Program.update (insertName name fs.objects.length)
        (((fs.appended name direct).answered replies).synced fs.objects.length false) =
          ((.ok (), (fs.answered replies).created name direct) : Except IOStatus Unit × FileSystem) :=
      rfl
    simp only
    rw [bind_of_ok inserted]
    have steps : FsSteps fs ((fs.answered replies).created name direct) :=
      asked.tail (.create name direct absent)
    have inside : fs.objects.length < ((fs.answered replies).created name direct).objects.length := by
      apply (Relabelled.registered name direct (fs.answered replies)).inside
      rw [length_appended]
      exact Nat.lt_succ_self _
    have fresh : (((fs.answered replies).created name direct).object fs.objects.length).Fresh := by
      have blank : (fs.answered replies).object fs.objects.length = {} :=
        object_of_length_le (Nat.le_refl _)
      have same := (Relabelled.created name direct (fs.answered replies)).object fs.objects.length
      rw [blank] at same
      exact ⟨same.writer, same.extents, same.activeZone, same.wal, same.openForWr⟩
    exact ⟨steps.tail (.attach config (!direct) inside fresh), trivial⟩
  · rw [bind_attempt run]
    simp only
    have destroyed : destroy fs.objects.length ((fs.appended name direct).answered replies) =
        (.ok (), fs.discarded.answered replies) := destroy_appended name direct (fs.answered replies)
    rw [bind_of_ok destroyed]
    have discard : FsStep fs fs.discarded := .discard (.of_head failing)
    have last : FsSteps fs.discarded (fs.discarded.answered replies) :=
      NameSteps.fsSteps (answered_steps shorter)
    exact .inr (discard.steps.trans last)
  · rw [object_appended, (newFile_labels _ _ _).1] at none
    cases none

theorem openWritableFile_stepped (config : BuildConfig) {fs : FileSystem} (grounded : Grounded fs)
    {name : String} (direct : Bool) {reopen : Bool}
    (new : reopen = false ∨ fs.getFile name = none) :
    Stepped fs (fun _ _ => True) (openWritableFile config name direct reopen fs) := by
  rw [openWritableFile, bind_read]
  cases found : fs.getFile name with
  | none => exact createFile_stepped config found direct
  | some k =>
      obtain rfl : reopen = false := new.resolve_right (by simp [found])
      simp only [Bool.false_eq_true, if_false]
      refine (Relinked.stepped (deleteAndRelease_relinked grounded name)).bind fun _ middle _ gone => ?_
      refine (createFile_stepped config gone direct).bind fun _ last _ _ => ?_
      exact Relinked.stepped ((resetUnusedIOZones_relinked last).weaken fun _ _ _ => trivial)

theorem openWritableFile_reopened (config : BuildConfig) {fs : FileSystem} {name : String}
    (direct : Bool) {k : Nat} (found : fs.getFile name = some k) :
    openWritableFile config name direct true fs = (.error .never, fs) ∨
      ((fs.object k).file.openForWr = false ∧ (fs.object k).opened = false ∧
        openWritableFile config name direct true fs = attachWriter config k (!direct) fs) := by
  rw [openWritableFile, bind_read, found]
  simp only [if_true]
  split
  · exact .inl rfl
  · rename_i free
    simp only [Bool.not_eq_true, Bool.or_eq_false_iff] at free
    exact .inr ⟨free.1, free.2, rfl⟩

/-! ## Handles -/

/-- What `Close` of the handle on file `k` does. The zone is let go after everything has
been written. -/
inductive Closing (config : BuildConfig) (fs : FileSystem) (k : Nat) : FileSystem → Prop
  | already : (fs.object k).opened = false → Closing config fs k fs
  | stopped {after} : (fs.object k).opened = true → FsSteps fs after → Closing config fs k after
  | done {fuel handle flushed middle start state writer} : (fs.object k).writer = some handle →
      handle.isOpen = true →
      WritableFile.dataSync config fuel (fs.writer k handle) = (.ok (), flushed) →
      FsSteps fs middle → middle.zbd.zone = flushed.state.zbd.zone →
      (middle.object k).file.activeZone = flushed.state.file.activeZone →
      (middle.object k).opened = true → Sees middle k start → FileSteps .shut start state →
      state.file.activeZone = none → state.file.openForWr = false → writer.isOpen = false →
      (state.file.isSparse = false → writer.bufferPos ≤ 2 ^ 20) →
      Closing config fs k ((middle.place k state).setHandle k writer)
  | failed {middle start state writer} : fs.zbd.Failing → (fs.object k).opened = true →
      FsSteps fs middle → Sees middle k start → FileSteps .shut start state →
      (state.file.isSparse = false → writer.bufferPos ≤ 2 ^ 20) →
      Closing config fs k ((middle.place k state).setHandle k writer)

theorem setHandle_writer {fs : FileSystem} {k : Nat} {handle : WriterHandle}
    (held : (fs.object k).writer = some handle) :
    (fs.place k (fs.writer k handle).state).setHandle k (fs.writer k handle) = fs := by
  have inside := lt_of_writer held
  have placed : fs.place k (fs.writer k handle).state = fs := (sees_view fs k).place_self inside
  have same : { fs.object k with
      writer := (fs.object k).writer.map fun other =>
        { other with bufferPos := handle.bufferPos, wp := handle.wp, isOpen := handle.isOpen } } =
      fs.object k := by
    rw [held, Option.map_some, ← held]
  rw [placed]
  exact (congrArg (fs.setObject k) same).trans (setObject_self inside)

theorem close_closing (config : BuildConfig) (fuel : Nat) {fs after : FileSystem}
    (grounded : Grounded fs) {k : Nat} {outcome : Except IOStatus Unit}
    (run : onWriter k (WritableFile.close config fuel) fs = (outcome, after))
    (ends : outcome ≠ .error .never) : Closing config fs k after := by
  cases held : (fs.object k).writer with
  | none =>
      simp only [onWriter, held] at run
      cases run
      exact absurd rfl ends
  | some handle =>
      simp only [onWriter, held] at run
      have inside := lt_of_writer held
      have sound := grounded.sound held
      cases opened : handle.isOpen with
      | false =>
          have nothing := WritableFile.close_of_closed config fuel
            (show (fs.writer k handle).isOpen = false from opened)
          rw [nothing] at run
          cases run
          rw [setHandle_writer held]
          exact .already ((opened_of_writer held).trans opened)
      | true =>
          have stillOpen : (fs.object k).opened = true := (opened_of_writer held).trans opened
          have allowed : Allowed .write (fs.object k) := .inl ⟨rfl, stillOpen⟩
          have closes := WritableFile.close_closes config fuel sound
            (show (fs.writer k handle).isOpen = true from opened)
          rcases closed : WritableFile.close config fuel (fs.writer k handle) with ⟨result, writer⟩
          rw [closed] at run closes
          cases run
          have closes := closes.resolve_left ends
          cases closes with
          | stopped _ moved => exact .stopped stillOpen (handled_steps held opened sound moved)
          | @done fuel flushed middle state synced moved zone active shut idle unlocked =>
              have steps := (sees_view fs k).steps inside allowed moved.steps
              have there := sees_place inside middle.state
              have early : fs.zbd.trace <+: middle.state.zbd.trace := fileSteps_trace moved.steps
              have bound := (moved.sound sound).steps shut
              rw [show fs.place k state = (fs.place k middle.state).place k state from
                (place_place early (fileSteps_trace shut)).symm]
              refine .done held opened synced steps ?_ ?_ ?_ there shut idle unlocked rfl fun plain => ?_
              · rw [place_zbd]
                exact zone
              · rw [object_place inside]
                exact active
              · rw [opened_place inside]
                exact stillOpen
              · exact (bound.plain plain).filled
          | @failed failure middle state _ moved shut failing =>
              have steps := (sees_view fs k).steps inside allowed moved.steps
              have there := sees_place inside middle.state
              have early : fs.zbd.trace <+: middle.state.zbd.trace := fileSteps_trace moved.steps
              have bound := (moved.sound sound).steps shut
              rw [show fs.place k state = (fs.place k middle.state).place k state from
                (place_place early (fileSteps_trace shut)).symm]
              exact .failed failing stillOpen steps there shut fun plain => (bound.plain plain).filled

theorem Closing.inside {config : BuildConfig} {fs after : FileSystem} {k : Nat}
    (closing : Closing config fs k after) (inside : k < fs.objects.length) :
    k < after.objects.length := by
  cases closing with
  | already => exact inside
  | stopped _ steps => exact Nat.lt_of_lt_of_le inside steps.length
  | done _ _ _ steps | failed _ _ steps =>
      have middle := Nat.lt_of_lt_of_le inside steps.length
      rw [setHandle, setObject, List.length_set, length_place]
      exact middle

theorem Closing.grounded {config : BuildConfig} {fs after : FileSystem} {k : Nat}
    (closing : Closing config fs k after) (inside : k < fs.objects.length) (grounded : Grounded fs) :
    Grounded after := by
  have shut {middle : FileSystem} {start state : FileState} {writer : WritableFile}
      (steps : FsSteps fs middle) (sees : Sees middle k start) (shut : FileSteps .shut start state)
      (bound : state.file.isSparse = false → writer.bufferPos ≤ 2 ^ 20) :
      Grounded ((middle.place k state).setHandle k writer) := by
    have there := Nat.lt_of_lt_of_le inside steps.length
    refine ((steps.grounded grounded).placed there sees shut).setHandle ?_ fun plain => ?_
    · rw [length_place]
      exact there
    · rw [object_place there] at plain
      exact bound plain
  cases closing with
  | already => exact grounded
  | stopped _ steps => exact steps.grounded grounded
  | done _ _ _ steps _ _ _ sees closed _ _ _ bound => exact shut steps sees closed bound
  | failed _ _ steps sees closed bound => exact shut steps sees closed bound

def detached (k : Nat) (fs : FileSystem) : FileSystem :=
  fs.setObject k { fs.object k with writer := none }

theorem destroyWriter_cases (config : BuildConfig) (fuel : Nat) {fs after : FileSystem}
    (grounded : Grounded fs) {k : Nat} (inside : k < fs.objects.length)
    {outcome : Except IOStatus Unit}
    (run : destroyWriter config fuel k fs = (outcome, after)) (ends : outcome ≠ .error .never) :
    ∃ closed next, Closing config fs k closed ∧ FsSteps closed next ∧
      FsSteps (next.detached k) after := by
  have released {next : FileSystem} (there : k < next.objects.length)
      (ran : (do
        Program.update fun fs => fs.setObject k { fs.object k with writer := none }
        release k : FsProgram Unit) next = (outcome, after)) : FsSteps (next.detached k) after := by
    have detach : Program.update (fun fs => fs.setObject k { fs.object k with writer := none }) next =
        ((.ok (), next.detached k) : Except IOStatus Unit × FileSystem) := rfl
    rw [bind_of_ok detach] at ran
    have stepped : Stepped (next.detached k) _ (release k (next.detached k)) :=
      Relinked.stepped (release_relinked (List.length_set.symm ▸ there))
    rw [ran] at stepped
    cases outcome with
    | ok => exact stepped.1
    | error failure => exact stepped.resolve_left fun same => ends (same ▸ rfl)
  rcases closed : onWriter k (WritableFile.close config fuel) fs with ⟨failure | value, middle⟩
  all_goals rw [destroyWriter, bind_attempt closed] at run
  · by_cases same : failure = .never
    · subst same
      cases run
      exact absurd rfl ends
    · have closing := close_closing config fuel grounded closed (by simpa using same)
      have deferred : FsStep middle { middle with zbd := setZoneDeferredStatus failure middle.zbd } :=
        .deferred failure
      refine ⟨middle, _, closing, deferred.steps, released (closing.inside inside) ?_⟩
      cases failure with
      | never => exact absurd rfl same
      | noSpace | ioError | corruption | invalidArgument => exact run
  · have closing := close_closing config fuel grounded closed nofun
    exact ⟨middle, middle, closing, .refl, released (closing.inside inside) run⟩

theorem onOpenWriter_stepped {fs : FileSystem} (grounded : Grounded fs) (k : Nat)
    {program : WritableProgram Unit}
    (wrote : ∀ writer : WritableFile, writer.Sound →
      writer.Wrote (fun _ _ => True) (program writer)) :
    Stepped fs (fun _ _ => True) (onOpenWriter k program fs) := by
  rw [onOpenWriter, bind_read]
  split
  · rename_i opened
    exact (onWriter_stepped grounded opened wrote).weaken fun _ _ _ => trivial
  · exact .inl rfl

theorem lt_of_readers {fs : FileSystem} {k : Nat} (readers : (fs.object k).readers ≠ 0) :
    k < fs.objects.length := by
  apply lt_of_object_ne
  intro blank
  rw [blank] at readers
  exact readers rfl

theorem operation_stepped (config : BuildConfig) (fuel : Nat) {fs : FileSystem}
    (grounded : Grounded fs) {operation : Operation} (call : operation.isCall = true)
    (new : ∀ name direct, operation = .openWritable name direct true → fs.getFile name = none) :
    Stepped fs (fun _ _ => True) (operation.run config fuel fs) := by
  cases operation with
  | openWritable name direct reopen =>
      refine openWritableFile_stepped config grounded direct ?_
      cases reopen with
      | false => exact .inl rfl
      | true => exact .inr (new name direct rfl)
  | append k data =>
      exact onOpenWriter_stepped grounded k fun _ => WritableFile.append_wrote config fuel data
  | positionedAppend k data offset =>
      exact onOpenWriter_stepped grounded k fun _ =>
        WritableFile.positionedAppend_wrote config fuel data offset
  | sync k => exact onOpenWriter_stepped grounded k fun _ => WritableFile.dataSync_wrote config fuel
  | fsync k => exact onOpenWriter_stepped grounded k fun _ => WritableFile.fsync_wrote config fuel
  | rangeSync k offset nbytes =>
      exact onOpenWriter_stepped grounded k fun _ sound =>
        WritableFile.rangeSync_wrote config fuel sound offset nbytes
  | truncate k size =>
      exact onOpenWriter_stepped grounded k fun writer _ => WritableFile.truncate_wrote size writer
  | setLifetime k hint =>
      rw [Operation.run, setHint, bind_read]
      cases held : (fs.object k).writer with
      | none => exact .inl rfl
      | some => exact ⟨(FsStep.hint hint (lt_of_writer held)).steps, trivial⟩
  | delete name => exact Relinked.stepped (deleteFile_relinked grounded name)
  | rename source dest => exact Relinked.stepped (renameFile_relinked grounded source dest)
  | link name target => exact Relinked.stepped (linkFile_relinked grounded name target)
  | openReader name =>
      rw [Operation.run, openReader, bind_read]
      cases found : fs.getFile name with
      | none => exact Relinked.stepped ((auxiliary_relinked fs).weaken fun _ _ _ => trivial)
      | some k => exact ⟨(FsStep.readers _ (grounded.inside found)).steps, trivial⟩
  | closeReader k =>
      rw [Operation.run, dropReader, bind_read]
      split
      · exact .inl rfl
      · rename_i readers
        have inside := lt_of_readers readers
        have dropped := FsStep.readers ((fs.object k).readers - 1) inside
        rw [closeReader, bind_update]
        refine Program.Along.after dropped.steps ?_
        exact Relinked.stepped
          ((release_relinked (List.length_set.symm ▸ inside)).weaken fun _ _ _ => trivial)
  | close | destroyWriter | read | migrate | remount => cases call

theorem readObject_looked (config : BuildConfig) (build : ReaderBuild) (env : ReaderEnv)
    {k offset n : Nat} {direct : Bool} {fs after : FileSystem} {outcome : Except IOStatus Unit}
    (run : readObject config build env k offset n direct fs = (outcome, after))
    (ends : outcome ≠ .error .never) :
    k < fs.objects.length ∧ ∃ state, FileSteps .look (fs.view k) state ∧ after = fs.place k state := by
  rw [readObject, bind_read] at run
  split at run
  · cases run
    exact absurd rfl ends
  · rename_i readers
    refine ⟨lt_of_readers readers, ?_⟩
    have walked := positionedRead_walks build config env offset n direct (fs.view k)
    rcases read : positionedRead build config env offset n direct (fs.view k) with
      ⟨failure | value, state⟩
    all_goals rw [read] at walked
    · have ran : onObject k (positionedRead build config env offset n direct) fs =
          (.error failure, fs.place k state) := by
        rw [onObject, read]
      rw [bind_of_error ran] at run
      cases run
      exact ⟨state, walked.resolve_left fun same => ends (same ▸ rfl), rfl⟩
    · have ran : onObject k (positionedRead build config env offset n direct) fs =
          (.ok value, fs.place k state) := by
        rw [onObject, read]
      rw [bind_of_ok ran] at run
      cases run
      exact ⟨state, walked.1, rfl⟩

end Zwal.FileSystem
