import Zwal.Foundation.Directory
import Zwal.Fs.Directories
import Zwal.Fs.Runs

/-! # The file table

`files_` and the `linkfiles_` of the files are two sides of one directory. Every step of
an operation takes a name out of it, puts one in, or leaves it as it is, also where a
record cannot be persisted and the change is taken back. -/

namespace Zwal.FileTable

open FileSystem FileState

variable {fs : FileSystem} {k : Nat}

/-- The table is consistent: a name refers to a file exactly if the file lists it, no list
has a name twice, no name is listed by two files, and files have different numbers that
were given out before. -/
structure Consistent (fs : FileSystem) : Prop where
  names : ∀ name k, fs.getFile name = some k ↔ name ∈ (fs.object k).file.linkfiles
  once : ∀ k, (fs.object k).file.linkfiles.Nodup
  apart : ∀ name k j, name ∈ (fs.object k).file.linkfiles →
    name ∈ (fs.object j).file.linkfiles → k = j
  distinct : ∀ name other k j, fs.getFile name = some k → fs.getFile other = some j → k ≠ j →
    (fs.object k).file.fileId ≠ (fs.object j).file.fileId
  below : ∀ name k, fs.getFile name = some k → (fs.object k).file.fileId < fs.nextFileId

def directory (fs : FileSystem) : Directory String Nat where
  lookup := fs.getFile
  links k := (fs.object k).file.linkfiles

theorem links_directory (fs : FileSystem) (k : Nat) :
    (directory fs).links k = (fs.object k).file.linkfiles :=
  rfl

def fileIds (fs : FileSystem) (k : Nat) : Nat := (fs.object k).file.fileId

structure Ordered (fs : FileSystem) : Prop where
  linked : (directory fs).Linked
  numbered : (directory fs).Numbered (fileIds fs) fs.nextFileId

theorem Ordered.consistent (ordered : Ordered fs) : Consistent fs where
  names := ordered.linked.names
  once := ordered.linked.once
  apart _ _ _ one two := ordered.linked.apart one two
  distinct _ _ k j one two different same :=
    different (ordered.numbered.distinct k j ⟨_, one⟩ ⟨_, two⟩ same)
  below _ k found := ordered.numbered.below k ⟨_, found⟩

theorem Consistent.ordered (consistent : Consistent fs) : Ordered fs where
  linked := ⟨consistent.names, consistent.once⟩
  numbered := by
    refine ⟨fun k ⟨name, found⟩ => consistent.below name k found, ?_⟩
    rintro k j ⟨name, one⟩ ⟨other, two⟩ same
    by_contra different
    exact consistent.distinct name other k j one two different same

/-! ## Steps beside the table -/

structure Unlabelled (before after : FileSystem) : Prop where
  directory : directory after = directory before
  fileIds : fileIds after = fileIds before
  nextFileId : after.nextFileId = before.nextFileId

theorem Unlabelled.ordered {before after : FileSystem} (same : Unlabelled before after)
    (ordered : Ordered before) : Ordered after := by
  refine ⟨same.directory ▸ ordered.linked, ?_⟩
  rw [same.directory, same.fileIds, same.nextFileId]
  exact ordered.numbered

theorem Unlabelled.trans {first second third : FileSystem} (one : Unlabelled first second)
    (two : Unlabelled second third) : Unlabelled first third :=
  ⟨two.directory.trans one.directory, two.fileIds.trans one.fileIds,
    two.nextFileId.trans one.nextFileId⟩

theorem Unlabelled.of_objects {before after : FileSystem} (files : after.files = before.files)
    (next : after.nextFileId = before.nextFileId)
    (object : ∀ k, (after.object k).file.linkfiles = (before.object k).file.linkfiles ∧
      (after.object k).file.fileId = (before.object k).file.fileId) : Unlabelled before after where
  directory := by
    have lookup : after.getFile = before.getFile := by
      funext name
      rw [getFile, getFile, files]
    have links := funext fun k => (object k).1
    rw [FileTable.directory, FileTable.directory, lookup, links]
  fileIds := funext fun k => (object k).2
  nextFileId := next

theorem Unlabelled.of_counted {before after : FileSystem} (files : after.files = before.files)
    (next : after.nextFileId = before.nextFileId)
    (object : ∀ k, Counted (before.object k) (after.object k)) : Unlabelled before after := by
  refine .of_objects files next fun k => ?_
  rcases object k with ⟨count, same⟩
  rw [same]
  exact ⟨rfl, rfl⟩

theorem Unlabelled.setObject {object : FileObject}
    (linkfiles : object.file.linkfiles = (fs.object k).file.linkfiles)
    (fileId : object.file.fileId = (fs.object k).file.fileId) :
    Unlabelled fs (fs.setObject k object) := by
  refine .of_objects rfl rfl fun j => ?_
  by_cases here : j = k
  · subst here
    by_cases inside : j < fs.objects.length
    · rw [object_setObject inside]
      exact ⟨linkfiles, fileId⟩
    · rw [FileSystem.setObject, List.set_eq_of_length_le (Nat.le_of_not_lt inside)]
      exact ⟨rfl, rfl⟩
  · rw [object_setObject_of_ne here]
    exact ⟨rfl, rfl⟩

theorem nextFileId_commit (k : Nat) (record : FileRecord) (entry : MetaRecord) (fs : FileSystem) :
    (fs.commit k record entry).nextFileId = fs.nextFileId := by
  rw [commit]
  split
  all_goals rfl

theorem nextFileId_commitAll (k : Nat) (records : List FileRecord) (fs : FileSystem) :
    (fs.commitAll k records).nextFileId = fs.nextFileId := by
  induction records generalizing fs with
  | nil => rfl
  | cons record records induction => exact (induction _).trans (nextFileId_commit _ _ _ _)

theorem Unlabelled.commit (k : Nat) (record : FileRecord) (entry : MetaRecord) (fs : FileSystem) :
    Unlabelled fs (fs.commit k record entry) :=
  .of_counted (files_commit _ _ _ _) (nextFileId_commit _ _ _ _) (commit_counted _ _ _ _)

theorem Unlabelled.synced (k : Nat) (replace : Bool) (fs : FileSystem) :
    Unlabelled fs (fs.synced k replace) := by
  rw [FileSystem.synced]
  by_cases deleted : (fs.object k).file.isDeleted
  · simp only [if_pos deleted]
    exact ⟨rfl, rfl, rfl⟩
  · simp only [if_neg deleted]
    exact (Unlabelled.commit _ _ _ _).trans (.setObject rfl rfl)

theorem Unlabelled.place {before after : FileState}
    (inside : k < fs.objects.length) (sees : Sees fs k before) (constant : Constant before after) :
    Unlabelled fs (fs.place k after) := by
  refine .of_objects (files_place _ _ _) ?_ fun j => ?_
  · rw [place_eq]
    exact nextFileId_commitAll _ _ _
  · by_cases here : j = k
    · subst here
      rw [object_place inside, ← sees.file]
      exact ⟨constant.linkfiles, constant.fileId⟩
    · rcases place_counted here after with ⟨count, same⟩
      rw [same]
      exact ⟨rfl, rfl⟩

/-! ## Steps of the table -/

theorem getFile_eraseName_eq (name : String) (fs : FileSystem) :
    (fs.eraseName name).getFile = Function.update fs.getFile name none := by
  funext other
  rw [Function.update_apply, getFile, getFile, eraseName]
  induction fs.files with
  | nil => simp
  | cons entry entries induction =>
      rcases entry with ⟨label, k⟩
      by_cases same : label = name
      · subst same
        simp only [List.filter_cons, bne_self_eq_false, Bool.false_eq_true, if_false]
        rw [induction]
        by_cases here : other = label
        · simp [here]
        · simp [here, List.lookup_cons, beq_eq_false_iff_ne.mpr here]
      · rw [List.filter_cons_of_pos (by simpa using same), List.lookup_cons, List.lookup_cons, induction]
        by_cases here : other = label
        · subst here
          simp [same]
        · simp [beq_eq_false_iff_ne.mpr here]

theorem getFile_insertName_eq {name : String} (fresh : fs.getFile name = none)
    (k : Nat) : (fs.insertName name k).getFile = Function.update fs.getFile name (some k) := by
  funext other
  rw [insertName, fresh, Option.isSome_none, if_neg Bool.false_ne_true, getFile,
    List.lookup_append, Function.update_apply]
  by_cases here : other = name
  · subst here
    rw [getFile] at fresh
    simp [fresh]
  · simp [here, List.lookup_cons, beq_eq_false_iff_ne.mpr here, getFile]

theorem links_relink (inside : k < fs.objects.length) (links : List String) :
    (directory (fs.relink k links)).links = Function.update (directory fs).links k links := by
  funext j
  rw [Function.update_apply, links_directory]
  by_cases here : j = k
  · subst here
    rw [if_pos rfl, object_relink inside]
  · rw [if_neg here, relink, object_setObject_of_ne here]
    rfl

theorem fileIds_relink (k : Nat) (links : List String) (fs : FileSystem) :
    fileIds (fs.relink k links) = fileIds fs := by
  funext j
  by_cases here : j = k
  · subst here
    by_cases inside : j < fs.objects.length
    · rw [fileIds, object_relink inside]
      rfl
    · rw [fileIds, relink, setObject, List.set_eq_of_length_le (Nat.le_of_not_lt inside)]
      rfl
  · rw [fileIds, relink, object_setObject_of_ne here]
    rfl

structure Renamed (change : Directory String Nat → Directory String Nat)
    (before after : FileSystem) : Prop where
  directory : directory after = change (directory before)
  fileIds : fileIds after = fileIds before
  nextFileId : after.nextFileId = before.nextFileId

theorem Renamed.trans {one two : Directory String Nat → Directory String Nat}
    {first second third : FileSystem} (early : Renamed one first second)
    (late : Renamed two second third) : Renamed (two ∘ one) first third where
  directory := by rw [late.directory, early.directory, Function.comp_apply]
  fileIds := late.fileIds.trans early.fileIds
  nextFileId := late.nextFileId.trans early.nextFileId

structure Narrowed (before after : FileSystem) : Prop where
  ordered : Ordered after
  holds : ∀ k, (directory after).Holds k → (directory before).Holds k

theorem Narrowed.trans {first second third : FileSystem} (one : Narrowed first second)
    (two : Narrowed second third) : Narrowed first third :=
  ⟨two.ordered, fun k held => one.holds k (two.holds k held)⟩

theorem Unlabelled.narrowed {before after : FileSystem} (same : Unlabelled before after)
    (ordered : Ordered before) : Narrowed before after :=
  ⟨same.ordered ordered, fun _ held => same.directory ▸ held⟩

theorem Renamed.narrowed {change : Directory String Nat → Directory String Nat}
    {before after : FileSystem} (renamed : Renamed change before after) (ordered : Ordered before)
    (linked : (change (FileTable.directory before)).Linked)
    (holds : ∀ k, (change (FileTable.directory before)).Holds k →
      (FileTable.directory before).Holds k) : Narrowed before after := by
  refine ⟨⟨renamed.directory ▸ linked, ?_⟩, fun k held => holds k (renamed.directory ▸ held)⟩
  rw [renamed.directory, renamed.fileIds, renamed.nextFileId]
  exact ordered.numbered.of_holds holds

theorem unnamed_renamed (inside : k < fs.objects.length)
    (name : String) : Renamed (.remove name k) fs (fs.unnamed k name) where
  directory := Directory.ext (getFile_eraseName_eq name fs) (@links_relink (fs.eraseName name) k inside _)
  fileIds := fileIds_relink _ _ (fs.eraseName name)
  nextFileId := rfl

theorem linked_renamed (inside : k < fs.objects.length)
    {target : String} (fresh : fs.getFile target = none) :
    Renamed (.add target k) fs (fs.linked k target) where
  directory := by
    apply Directory.ext
    · exact getFile_insertName_eq (show (fs.relink k _).getFile target = none from fresh) k
    · funext j
      rw [links_directory, linked, object_insertName, ← links_directory, links_relink inside]
      rfl
  fileIds := by
    funext j
    rw [fileIds, linked, object_insertName]
    exact congrFun (fileIds_relink _ _ fs) j
  nextFileId := by
    rw [linked, insertName]
    split
    all_goals rfl

theorem links_unnamed (inside : k < fs.objects.length) (name : String) :
    ((fs.unnamed k name).object k).file.linkfiles = (fs.object k).file.linkfiles.erase name := by
  rw [unnamed, @object_relink (fs.eraseName name) k inside]

theorem length_unnamed (k : Nat) (name : String) (fs : FileSystem) :
    (fs.unnamed k name).objects.length = fs.objects.length :=
  List.length_set

theorem relink_relink (k : Nat) (first second : List String) (fs : FileSystem) :
    (fs.relink k first).relink k second = fs.relink k second := by
  by_cases inside : k < fs.objects.length
  · rw [relink, object_relink inside, relink, setObject, setObject, List.set_set]
    rfl
  · have outside : fs.objects.length ≤ k := Nat.le_of_not_lt inside
    simp only [relink, setObject, List.set_eq_of_length_le outside]

theorem kept_eq (inside : k < fs.objects.length) (name : String) :
    fs.kept k name = (fs.unnamed k name).linked k name := by
  have same : ((fs.unnamed k name).relink k ((fs.object k).file.linkfiles.erase name ++ [name])).getFile
      name = (fs.unnamed k name).getFile name := rfl
  rw [kept, linked, links_unnamed inside, insertName, insertName, same]
  split
  all_goals rfl

theorem renamed_eq (inside : k < fs.objects.length) (source dest : String) :
    fs.renamed k source dest = (fs.unnamed k source).linked k dest := by
  rw [linked, links_unnamed inside, unnamed, relink_relink]
  rfl

theorem linked_unnamed_renamed (inside : k < fs.objects.length)
    {name target : String} (fresh : (directory fs).lookup target = none ∨ target = name) :
    Renamed (.add target k ∘ .remove name k) fs ((fs.unnamed k name).linked k target) := by
  have removed := unnamed_renamed inside name
  refine removed.trans (linked_renamed ?_ ?_)
  · rw [length_unnamed]
    exact inside
  · have lookup := congrArg (fun directory => directory.lookup target) removed.directory
    rw [Directory.lookup_remove] at lookup
    refine lookup.trans ?_
    rcases fresh with fresh | same
    · rw [fresh]
      split
      all_goals rfl
    · rw [if_pos same]

theorem Ordered.unnamed (ordered : Ordered fs)
    (inside : k < fs.objects.length) {name : String} (found : fs.getFile name = some k) :
    Narrowed fs (fs.unnamed k name) :=
  (unnamed_renamed inside name).narrowed ordered (ordered.linked.remove found)
    fun _ => Directory.holds_of_remove

theorem Ordered.link (ordered : Ordered fs)
    (inside : k < fs.objects.length) {name target : String} (found : fs.getFile name = some k)
    (fresh : fs.getFile target = none) : Narrowed fs (fs.linked k target) := by
  refine (linked_renamed inside fresh).narrowed ordered (Directory.Linked.add ordered.linked fresh) ?_
  intro j holds
  rcases Directory.holds_of_add holds with same | held
  · exact same ▸ ⟨name, found⟩
  · exact held

theorem Ordered.replaced (ordered : Ordered fs)
    (inside : k < fs.objects.length) {name target : String} (found : fs.getFile name = some k)
    (fresh : fs.getFile target = none ∨ target = name) :
    Narrowed fs ((fs.unnamed k name).linked k target) := by
  refine (linked_unnamed_renamed inside fresh).narrowed ordered ?_ ?_
  · refine (ordered.linked.remove found).add ?_
    rw [Directory.lookup_remove]
    rcases fresh with fresh | same
    · split
      · rfl
      · exact fresh
    · rw [if_pos same]
  · intro j holds
    rcases Directory.holds_of_add holds with same | held
    · exact same ▸ ⟨name, found⟩
    · exact Directory.holds_of_remove held

theorem Ordered.discarded (ordered : Ordered fs) : Ordered fs.discarded := by
  have object (k : Nat) : fs.discarded.object k = fs.object k := by
    rw [FileSystem.discarded, object_append]
    split
    · rename_i here
      rw [object_of_length_le (Nat.le_of_eq here.symm)]
    · rfl
  have same : directory fs.discarded = directory fs :=
    Directory.ext rfl (funext fun k => by rw [links_directory, object, links_directory])
  have ids : fileIds fs.discarded = fileIds fs := funext fun k => by rw [fileIds, object, fileIds]
  refine ⟨same ▸ ordered.linked, ?_⟩
  rw [same, ids]
  exact ordered.numbered.skip

theorem Ordered.created (ordered : Ordered fs) {name : String}
    (fresh : fs.getFile name = none) (direct : Bool) : Ordered (fs.created name direct) := by
  have synced := Unlabelled.synced fs.objects.length false (fs.appended name direct)
  have new := newFile_labels fs.nextFileId name direct
  have blank : (directory fs).links fs.objects.length = [] := by
    rw [links_directory, object_of_length_le (Nat.le_refl _)]
  have unheld : ¬ (directory fs).Holds fs.objects.length := by
    rintro ⟨label, found⟩
    have listed := (ordered.linked.names label fs.objects.length).mp found
    rw [blank] at listed
    cases listed
  have lookup : ((fs.appended name direct).synced fs.objects.length false).getFile = fs.getFile :=
    congrArg Directory.lookup synced.directory
  have whole : directory (fs.created name direct) =
      (directory fs).add name fs.objects.length := by
    apply Directory.ext
    · have inserted := @getFile_insertName_eq
        ((fs.appended name direct).synced fs.objects.length false) name (lookup ▸ fresh) fs.objects.length
      rw [lookup] at inserted
      exact inserted
    · funext j
      rw [Directory.links_add, blank, links_directory, FileSystem.created, object_insertName,
        ← links_directory, synced.directory, links_directory, FileSystem.appended, object_append]
      split
      · exact new.1
      · rfl
  have ids : fileIds (fs.created name direct) =
      Function.update (fileIds fs) fs.objects.length fs.nextFileId := by
    funext j
    rw [Function.update_apply, fileIds, FileSystem.created, object_insertName]
    refine (congrFun synced.fileIds j).trans ?_
    rw [fileIds, FileSystem.appended, object_append]
    split
    · exact new.2
    · rfl
  have next : (fs.created name direct).nextFileId = fs.nextFileId + 1 := by
    rw [FileSystem.created, insertName]
    split
    all_goals exact synced.nextFileId
  refine ⟨whole ▸ Directory.Linked.add ordered.linked fresh, ?_⟩
  rw [whole, ids, next]
  exact ordered.numbered.add unheld

theorem lookup_replaced (inside : k < fs.objects.length)
    {name target : String} (fresh : fs.getFile target = none ∨ target = name) (label : String) :
    ((fs.unnamed k name).linked k target).getFile label =
      if label = target then some k else if label = name then none else fs.getFile label := by
  have whole := congrArg (fun directory => directory.lookup label)
    (linked_unnamed_renamed inside fresh).directory
  rw [Function.comp_apply, Directory.lookup_add, Directory.lookup_remove] at whole
  exact whole

theorem length_linked (k : Nat) (target : String) (fs : FileSystem) :
    (fs.linked k target).objects.length = fs.objects.length := by
  rw [linked, insertName]
  split
  all_goals exact List.length_set

theorem Ordered.moveBack (ordered : Ordered fs)
    (inside : k < fs.objects.length) {source dest : String} (found : fs.getFile source = some k)
    (fresh : fs.getFile dest = none) :
    Narrowed fs ((fs.renamed k source dest).renamed k dest source) := by
  have different : source ≠ dest := by
    intro same
    rw [same, fresh] at found
    cases found
  have there : k < ((fs.unnamed k source).linked k dest).objects.length := by
    rw [length_linked, length_unnamed]
    exact inside
  rw [renamed_eq inside, renamed_eq there]
  have moved := ordered.replaced inside found (.inl fresh)
  refine moved.trans (moved.ordered.replaced there ?_ (.inl ?_))
  · rw [lookup_replaced inside (.inl fresh), if_pos rfl]
  · rw [lookup_replaced inside (.inl fresh), if_neg different, if_pos rfl]

theorem Ordered.linkBack (ordered : Ordered fs)
    (inside : k < fs.objects.length) {name target : String} (found : fs.getFile name = some k)
    (fresh : fs.getFile target = none) : Narrowed fs ((fs.linked k target).unnamed k target) := by
  have lookup := congrArg (fun directory => directory.lookup target)
    (linked_renamed inside fresh).directory
  rw [Directory.lookup_add, if_pos rfl] at lookup
  have made := ordered.link inside found fresh
  refine made.trans (made.ordered.unnamed ?_ lookup)
  rw [length_linked]
  exact inside

theorem unlinked_unlabelled (k : Nat) (name : String) (fs : FileSystem) :
    Unlabelled (fs.unnamed k name) (fs.unlinked k name) := by
  have struck : Unlabelled (fs.unnamed k name) (fs.struck k name) := .commit _ _ _ _
  rw [unlinked_eq]
  split
  · exact struck.trans (.setObject rfl rfl)
  · exact struck

theorem not_holds_of_unnamed (unnamed : fs.named k = false) :
    ¬ (directory fs).Holds k := by
  rintro ⟨name, found⟩
  have named : fs.named k = true := List.any_eq_true.mpr ⟨_, mem_of_getFile found, by simp⟩
  rw [unnamed] at named
  cases named

theorem Ordered.directory_destroyed (ordered : Ordered fs)
    (unnamed : fs.named k = false) : directory (fs.destroyed k) = directory fs := by
  have blank : (fs.object k).file.linkfiles = [] := by
    refine List.eq_nil_iff_forall_not_mem.mpr fun name listed => ?_
    exact not_holds_of_unnamed unnamed ⟨name, (ordered.linked.names name k).mpr listed⟩
  refine Directory.ext rfl (funext fun j => ?_)
  rw [links_directory, object_destroyed, links_directory]
  split
  · rename_i here
    rw [here, blank]
  · rfl

theorem Ordered.destroyed (ordered : Ordered fs)
    (unnamed : fs.named k = false) : Narrowed fs (fs.destroyed k) := by
  have same := ordered.directory_destroyed unnamed
  refine ⟨⟨same ▸ ordered.linked, ?_⟩, fun _ held => same ▸ held⟩
  rw [same]
  refine Directory.Numbered.congr ordered.numbered fun j held => ?_
  have other : j ≠ k := by
    rintro rfl
    exact not_holds_of_unnamed unnamed held
  rw [fileIds, object_destroyed, if_neg other]
  rfl

/-! ## Runs -/

theorem Unlabelled.device (fs : FileSystem) (zbd : ZonedBlockDevice) :
    Unlabelled fs { fs with zbd := zbd } :=
  .of_objects rfl rfl fun _ => ⟨rfl, rfl⟩

theorem Ordered.nameStep {before after : FileSystem} (ordered : Ordered before)
    (step : NameStep before after) : Narrowed before after := by
  cases step with
  | log inside _ sees step =>
      exact (Unlabelled.place inside sees step.constant).narrowed ordered
  | device | reset => exact (Unlabelled.device _ _).narrowed ordered
  | unlink inside found =>
      have gone := ordered.unnamed inside found
      exact gone.trans ((unlinked_unlabelled _ _ _).narrowed gone.ordered)
  | keep inside found =>
      rw [kept_eq inside]
      exact ordered.replaced inside found (.inr rfl)
  | stray found unlisted => exact absurd ((ordered.linked.names _ _).mp found) unlisted
  | @move k source dest inside listed fresh =>
      have found := (ordered.linked.names source k).mpr listed
      have moved := ordered.replaced inside found (.inl fresh)
      rw [renamed_eq inside]
      exact moved.trans ((Unlabelled.synced _ _ _).narrowed moved.ordered)
  | @moveBack k source dest inside listed fresh =>
      exact ordered.moveBack inside ((ordered.linked.names source k).mpr listed) fresh
  | link inside found fresh =>
      have made := ordered.link inside found fresh
      exact made.trans ((Unlabelled.synced _ _ _).narrowed made.ordered)
  | linkBack inside found fresh => exact ordered.linkBack inside found fresh
  | destroy unnamed => exact ordered.destroyed unnamed

theorem Ordered.step {before after : FileSystem} (ordered : Ordered before)
    (step : FsStep before after) : Ordered after := by
  cases step with
  | file inside _ sees step =>
      exact (Unlabelled.place inside sees step.constant).ordered ordered
  | device | deferred | reset => exact (Unlabelled.device _ _).ordered ordered
  | create name direct fresh => exact ordered.created fresh direct
  | discard => exact ordered.discarded
  | attach | handle | detach | readers | hint =>
      refine Unlabelled.ordered ?_ ordered
      exact .setObject rfl rfl
  | unlink inside found listed => exact (ordered.nameStep (.unlink inside found listed)).ordered
  | keep inside found listed failing =>
      exact (ordered.nameStep (.keep inside found listed failing)).ordered
  | stray found unlisted => exact (ordered.nameStep (.stray found unlisted)).ordered
  | move inside listed fresh => exact (ordered.nameStep (.move inside listed fresh)).ordered
  | moveBack inside listed fresh failing =>
      exact (ordered.nameStep (.moveBack inside listed fresh failing)).ordered
  | link inside found fresh => exact (ordered.nameStep (.link inside found fresh)).ordered
  | linkBack inside found fresh failing =>
      exact (ordered.nameStep (.linkBack inside found fresh failing)).ordered
  | destroy unnamed unwritten => exact (ordered.nameStep (.destroy unnamed unwritten)).ordered

theorem Ordered.steps {before after : FileSystem} (ordered : Ordered before)
    (steps : FsSteps before after) : Ordered after := by
  induction steps with
  | refl => exact ordered
  | tail _ step induction => exact induction.step step

theorem Ordered.placed {kind : StepKind} {before after : FileState}
    (ordered : Ordered fs) (inside : k < fs.objects.length) (sees : Sees fs k before)
    (steps : FileSteps kind before after) : Ordered (fs.place k after) :=
  (Unlabelled.place inside sees steps.constant).ordered ordered

theorem Ordered.closing {config : BuildConfig} {fs after : FileSystem}
    (closing : Closing config fs k after) (inside : k < fs.objects.length) (ordered : Ordered fs) :
    Ordered after := by
  cases closing with
  | already => exact ordered
  | stopped _ steps => exact ordered.steps steps
  | done _ _ _ steps _ _ _ sees shut | failed _ _ steps sees shut =>
      have there := Nat.lt_of_lt_of_le inside steps.length
      refine Unlabelled.ordered ?_ ((ordered.steps steps).placed there sees shut)
      exact .setObject rfl rfl

theorem MigrateStep.unlabelled {device : Nat → UInt8} {chosen : List (Nat × Nat)}
    {before after : FileSystem} (step : MigrateStep device chosen k before after)
    (inside : k < before.objects.length) : Unlabelled before after := by
  rcases step.repointed inside with ⟨moved, zbd, copies, repointed, ended⟩
  rcases repointed.object with ⟨count, held⟩
  refine .of_objects repointed.files ?_ fun j => ?_
  · cases step with
    | done => exact (Unlabelled.synced _ _ _).nextFileId
    | failed => rfl
  · by_cases here : j = k
    · rw [here, held]
      exact ⟨rfl, rfl⟩
    · rcases repointed.others j here with ⟨_, same⟩
      rw [same]
      exact ⟨rfl, rfl⟩

theorem Ordered.passage {config : BuildConfig} {before after : FileSystem} {operation : Operation}
    (ordered : Ordered before) (grounded : Grounded before) (mounted : operation.isMount = false)
    (passage : Passage config before after operation) : Ordered after := by
  cases passage with
  | call _ steps | idle steps => exact ordered.steps steps
  | reopen _ _ _ same =>
      rw [same]
      refine Unlabelled.ordered ?_ ordered
      exact .setObject rfl rfl
  | look inside steps same => exact same ▸ ordered.placed inside (sees_view before _) steps
  | close inside closing => exact ordered.closing closing inside
  | drop inside closing deferred steps =>
      refine Ordered.steps (Unlabelled.ordered ?_ ((ordered.closing closing inside).steps deferred)) steps
      exact .setObject rfl rfl
  | migrate found _ step steps =>
      exact ((MigrateStep.unlabelled step (grounded.inside found)).ordered ordered).steps steps
  | mount => cases mounted

inductive Works (config : BuildConfig) (before after : FileSystem) : Prop
  | operation : Performs config (fun _ operation => operation.isMount = false) before after →
      Works config before after
  | path {fuel source dest outcome} : renamePath fuel source dest before = (outcome, after) →
      outcome ≠ .error .never → Works config before after

theorem Works.keep {config : BuildConfig} {before after : FileSystem}
    (works : Works config before after) (grounded : Grounded before) (ordered : Ordered before) :
    Grounded after ∧ Ordered after := by
  cases works with
  | operation performs =>
      rcases performs with ⟨operation, fuel, outcome, mounted, run, ended⟩
      have passage := operation_passage grounded run ended
      exact ⟨passage.grounded grounded, ordered.passage grounded mounted passage⟩
  | @path fuel source dest outcome run ends =>
      have relinked := renamePath_relinked fuel grounded source dest
      rw [run] at relinked
      have steps : NameSteps before after := by
        cases outcome with
        | ok => exact relinked.1
        | error failure => exact relinked.resolve_left fun same => ends (same ▸ rfl)
      exact ⟨steps.grounded grounded, ordered.steps steps.fsSteps⟩

/-- In every run on a mounted file system, whichever records can be persisted, a table that
was consistent stays so. -/
theorem table_consistent (config : BuildConfig) {fs after : FileSystem} (grounded : Grounded fs)
    (consistent : Consistent fs) (runs : Relation.ReflTransGen (Works config) fs after) :
    Consistent after := by
  have kept : Grounded after ∧ Ordered after := by
    induction runs with
    | refl => exact ⟨grounded, consistent.ordered⟩
    | tail _ works induction => exact works.keep induction.1 induction.2
  exact kept.2.consistent

theorem consistent_of_made (made : Made fs) : Consistent fs := by
  have none (name : String) : fs.getFile name = none := by
    rw [getFile, made.files]
    rfl
  have blank (k : Nat) : (fs.object k).file.linkfiles = [] := by rw [made.object]
  constructor
  · intro name k
    simp [none, blank]
  · intro k
    simp [blank]
  · intro name k j listed
    simp [blank] at listed
  · intro name other k j found
    simp [none] at found
  · intro name k found
    simp [none] at found

/-! ## A run with records that cannot be persisted -/

def oneZone (replies : List Int) : FileSystem :=
  emptyFileSystem (emptyDevice [19] 1024 640 64 replies)

theorem oneZone_made (replies : List Int) : Made (oneZone replies) :=
  emptyFileSystem_made (by decide) (by decide) (by decide) (by decide) replies

/-- A file gets a second name; one of its names is moved onto the other, and then to a
third one. -/
def moves : List Operation :=
  [.openWritable "/a" false false, .openWritable "/d/c" false false, .link "/a" "/d/b",
    .rename "/a" "/d/b", .rename "/a" "/x", .link "/d/c" "/e"]

/-- The records of the move onto the other name, of the next one and of the last link fail. -/
def someFail : List Int := [0, 0, 0, 0, -1, -1, -1]

theorem table_consistent_moves :
    (renamePath 2 "/d" "/f" (runAll smallConfig 1 moves (oneZone someFail))).2.files =
        [("/a", 0), ("/f/c", 1)] ∧
      Consistent (renamePath 2 "/d" "/f" (runAll smallConfig 1 moves (oneZone someFail))).2 := by
  have facts : allOk smallConfig 1 moves (oneZone someFail) = true ∧
      (renamePath 2 "/d" "/f" (runAll smallConfig 1 moves (oneZone someFail))).1 = .ok () ∧
      (renamePath 2 "/d" "/f" (runAll smallConfig 1 moves (oneZone someFail))).2.files =
        [("/a", 0), ("/f/c", 1)] := by
    decide +kernel
  rcases facts with ⟨returned, renamed, files⟩
  have runs : Runs smallConfig (fun _ operation => operation.isMount = false) (oneZone someFail)
      (runAll smallConfig 1 moves (oneZone someFail)) := by
    refine runs_runAll (allPermitted_of_forall ?_ _) returned
    intro operation member _
    simp only [moves, List.mem_cons, List.not_mem_nil, or_false] at member
    rcases member with rfl | rfl | rfl | rfl | rfl | rfl
    all_goals rfl
  refine ⟨files, table_consistent smallConfig (oneZone_made someFail).grounded
    (consistent_of_made (oneZone_made someFail)) ?_⟩
  have early : Relation.ReflTransGen (Works smallConfig) (oneZone someFail)
      (runAll smallConfig 1 moves (oneZone someFail)) :=
    Relation.ReflTransGen.mono (fun _ _ performs => Works.operation performs) _ _ runs
  exact early.tail (.path (Prod.ext renamed rfl) (by simp))

end Zwal.FileTable
