import Zwal.Contracts.FailedOperations

/-! # Renaming a directory

The files below a directory are moved one after the other. A move whose record and
roll are refused is taken back and reported as done, so that the loop goes on with the next file. -/

namespace Zwal.DirectoryRenames

open FileSystem ZonedBlockDevice FileTable FailedOperations

/-! ## One file -/

structure Sound (fs : FileSystem) : Prop where
  grounded : Grounded fs
  consistent : Consistent fs
  live : ∀ name k, fs.getFile name = some k → (fs.object k).file.isDeleted = false

variable {fs : FileSystem} {k : Nat} {source dest : String}

theorem syncFileMetadata_answered (live : (fs.object k).file.isDeleted = false)
    (answered : 0 ≤ fs.zbd.replies.headD 0) (replace : Bool) :
    syncFileMetadata k replace fs =
      (.ok (), (fs.answered fs.zbd.replies.tail).synced k replace) := by
  have synced : (fs.answered fs.zbd.replies.tail).synced k replace = _ := if_neg (by
    rw [show ((fs.answered fs.zbd.replies.tail).object k).file.isDeleted = false from live]
    exact Bool.false_ne_true)
  rw [syncFileMetadata, bind_read, synced]
  simp only [live, Bool.false_eq_true, if_false]
  have written := persistRecord_eq k (if replace then .replace (fs.object k).file.record
    else .update (fs.object k).file.record) fs
  rw [if_neg (Int.not_lt.mpr answered)] at written
  rw [bind_of_ok written]
  rfl

theorem renameFileNoLock_moved (sound : Sound fs) (found : fs.getFile source = some k)
    (absent : fs.getFile dest = none) (answered : 0 ≤ fs.zbd.replies.headD 0) :
    renameFileNoLock source dest fs =
      (.ok (), ((fs.renamed k source dest).answered fs.zbd.replies.tail).synced k false) := by
  have inside := sound.grounded.inside found
  have linked := (sound.consistent.names source k).mp found
  have updated : Program.update (fun fs => (fs.eraseName source).insertName dest k)
      (fs.relink k ((fs.object k).file.linkfiles.erase source ++ [dest])) =
        ((.ok (), fs.renamed k source dest) : Except IOStatus Unit × FileSystem) := rfl
  have moved := Relabelled.renamed inside source dest
  have live : ((fs.renamed k source dest).object k).file.isDeleted = false := by
    rw [object_renamed inside]
    exact sound.live source k found
  have persisted := syncFileMetadata_answered live (moved.zbd.symm ▸ answered) false
  rw [moved.zbd] at persisted
  rw [renameFileNoLock, bind_read, found, absent]
  simp only
  rw [moveName, bind_of_ok (renameLink_of_mem linked dest), bind_of_ok updated,
    bind_attempt persisted]
  rfl

theorem isDeleted_renamed (k : Nat) (source dest : String) (fs : FileSystem) (j : Nat) :
    ((fs.renamed k source dest).object j).file.isDeleted = (fs.object j).file.isDeleted := by
  rw [renamed, object_insertName]
  by_cases here : j = k
  · subst here
    by_cases inside : j < fs.objects.length
    · exact congrArg (fun object => object.file.isDeleted) (object_relink inside _)
    · have outside : fs.objects.length ≤ j := Nat.le_of_not_lt inside
      have same : (fs.relink j ((fs.object j).file.linkfiles.erase source ++ [dest])).object j =
          fs.object j := by
        rw [relink, setObject, List.set_eq_of_length_le outside]
      exact congrArg (fun object => object.file.isDeleted) same
  · exact congrArg (fun object : FileObject => object.file.isDeleted) (object_setObject_of_ne here _)

def moveAs (answer : Int) (source dest : String) (table : String → Option Nat) : String → Option Nat :=
  if answer < 0 then table
  else Function.update (Function.update table source none) dest (table source)

theorem isDeleted_synced (k : Nat) (replace : Bool) (fs : FileSystem) (j : Nat) :
    ((fs.synced k replace).object j).file.isDeleted = (fs.object j).file.isDeleted := by
  rcases synced_counted k replace fs j with ⟨count, same⟩
  rw [same]

theorem Sound.move {after : FileSystem} {answer : Int} (sound : Sound fs)
    (steps : NameSteps fs after) (table : after.getFile = moveAs answer source dest fs.getFile)
    (marks : ∀ j, (after.object j).file.isDeleted = (fs.object j).file.isDeleted) : Sound after where
  grounded := steps.grounded sound.grounded
  consistent := (sound.consistent.ordered.steps steps.fsSteps).consistent
  live := by
    intro name j found
    rw [marks]
    rw [table, moveAs] at found
    split at found
    · exact sound.live name j found
    · rw [Function.update_apply, Function.update_apply] at found
      split at found
      · exact sound.live source j found
      · split at found
        · cases found
        · exact sound.live name j found

/-- A file is moved to a free name, and stays where it is if that cannot be persisted. The
caller is told the same. -/
theorem renameFileNoLock_answered (sound : Sound fs) (found : fs.getFile source = some k)
    (absent : fs.getFile dest = none) :
    ∃ after, renameFileNoLock source dest fs = (.ok (), after) ∧ Sound after ∧
      after.zbd.replies = fs.zbd.replies.tail ∧
      after.getFile = moveAs (fs.zbd.replies.headD 0) source dest fs.getFile := by
  have inside := sound.grounded.inside found
  have relinked := renameFileNoLock_relinked sound.grounded source dest
  by_cases negative : fs.zbd.replies.headD 0 < 0
  · have run := renameFileNoLock_failing sound.consistent found absent
      (sound.live source k found) negative
    rw [run] at relinked
    have same : ((fs.renamed k source dest).renamed k dest source).getFile =
        moveAs (fs.zbd.replies.headD 0) source dest fs.getFile := by
      have table := congrArg Directory.lookup (directory_movedBack sound.consistent found absent)
      rw [moveAs, if_pos negative]
      refine table.trans (funext fun name => ?_)
      rw [Directory.lookup_add, Directory.lookup_remove]
      split
      · rename_i here
        rw [here, found]
      · rfl
    refine ⟨_, run, sound.move relinked.1 same fun j => ?_, rfl, same⟩
    exact (isDeleted_renamed k dest source (fs.renamed k source dest) j).trans
      (isDeleted_renamed k source dest fs j)
  · have run := renameFileNoLock_moved sound found absent (Int.not_lt.mp negative)
    rw [run] at relinked
    have moved : (((fs.renamed k source dest).answered fs.zbd.replies.tail).synced k false).getFile =
        moveAs (fs.zbd.replies.headD 0) source dest fs.getFile := by
      have table := congrArg Directory.lookup (Unlabelled.synced k false
        ((fs.renamed k source dest).answered fs.zbd.replies.tail)).directory
      rw [moveAs, if_neg negative]
      refine table.trans (funext fun name => ?_)
      have lookup := @lookup_replaced fs k inside source dest (.inl absent) name
      rw [← renamed_eq inside] at lookup
      rw [Function.update_apply, Function.update_apply, found]
      exact lookup
    refine ⟨_, run, sound.move relinked.1 moved fun j => ?_, ?_, moved⟩
    · rw [isDeleted_synced]
      exact isDeleted_renamed k source dest fs j
    · rw [(Relabelled.synced k false _).zbd]
      rfl

/-! ## All files of a directory -/

/-- The table after the loop, by the answers to the records of the files. -/
def moveAll (source dest : String) :
    (children : List String) → (answers : List Int) → (String → Option Nat) → String → Option Nat
  | [], _, table => table
  | child :: rest, answers, table => moveAll source dest rest answers.tail
      (moveAs (answers.headD 0) (childPath source child) (childPath dest child) table)

theorem childPath_inj {dir one two : String} (same : childPath dir one = childPath dir two) :
    one = two := by
  have lists := congrArg String.toList same
  rw [childPath, childPath, String.toList_append, String.toList_append] at lists
  exact String.toList_injective (List.append_cancel_left lists)

theorem renameChildren_answered (fuel : Nat) {children : List String} (renamedChildren : List String)
    (sound : Sound fs) (once : children.Nodup)
    (found : ∀ child ∈ children, fs.getFile (childPath source child) ≠ none)
    (free : ∀ child ∈ children, fs.getFile (childPath dest child) = none) :
    ∃ after, renameChildren (renamePathNoLock (fuel + 1)) source dest children renamedChildren fs =
        (.ok (), after) ∧
      after.getFile = moveAll source dest children fs.zbd.replies fs.getFile := by
  induction children generalizing fs renamedChildren with
  | nil => exact ⟨fs, rfl, rfl⟩
  | cons child rest induction =>
      rcases List.nodup_cons.mp once with ⟨fresh, onceRest⟩
      rcases Option.ne_none_iff_exists'.mp (found child List.mem_cons_self) with ⟨k, there⟩
      have absent := free child List.mem_cons_self
      rcases renameFileNoLock_answered sound there absent with ⟨middle, run, still, script, table⟩
      have path : renamePathNoLock (fuel + 1) (childPath source child) (childPath dest child) fs =
          (.ok (), middle) := by
        rw [renamePathNoLock, bind_read, if_pos (Option.isSome_of_eq_some there), run]
      have rescue (handler : IOStatus → FsProgram Unit) :
          rescued (renamePathNoLock (fuel + 1) (childPath source child) (childPath dest child)) handler
            fs = (.ok (), middle) := by
        rw [rescued, bind_attempt path]
        rfl
      have other {label : String} (member : label ∈ rest) : label ≠ child := by
        intro same
        exact fresh (same ▸ member)
      have onward := @induction middle (renamedChildren ++ [child]) still onceRest ?_ ?_
      · rcases onward with ⟨after, loop, final⟩
        refine ⟨after, ?_, ?_⟩
        · rw [renameChildren, bind_of_ok (rescue _), loop]
        · rw [final, moveAll, script, table]
      · intro label member
        have before := found label (List.mem_cons_of_mem _ member)
        rw [table, moveAs]
        split
        · exact before
        · rw [Function.update_of_ne, Function.update_of_ne]
          · exact before
          · intro same
            exact other member (childPath_inj same)
          · intro same
            exact before (same ▸ absent)
      · intro label member
        have before := free label (List.mem_cons_of_mem _ member)
        rw [table, moveAs]
        split
        · exact before
        · rw [Function.update_of_ne, Function.update_apply, before, ite_self]
          intro same
          exact other member (childPath_inj same)

section Tables

variable (apart : ∀ one two, childPath source one ≠ childPath dest two)

theorem moveAll_other {name : String} (children : List String) (answers : List Int)
    (table : String → Option Nat)
    (outside : ∀ child ∈ children, name ≠ childPath source child ∧ name ≠ childPath dest child) :
    moveAll source dest children answers table name = table name := by
  induction children generalizing answers table with
  | nil => rfl
  | cons child rest induction =>
      have here := outside child List.mem_cons_self
      rw [moveAll, induction _ _ fun other member => outside other (List.mem_cons_of_mem _ member),
        moveAs]
      split
      · rfl
      · rw [Function.update_of_ne here.2, Function.update_of_ne here.1]

include apart

theorem moveAll_child {children : List String} (once : children.Nodup) (answers : List Int)
    (table : String → Option Nat) {i : Nat} {child : String} (there : children[i]? = some child) :
    moveAll source dest children answers table (childPath source child) =
        (if answers.getD i 0 < 0 then table (childPath source child) else none) ∧
      moveAll source dest children answers table (childPath dest child) =
        (if answers.getD i 0 < 0 then table (childPath dest child)
          else table (childPath source child)) := by
  induction children generalizing answers table i with
  | nil => simp at there
  | cons first rest induction =>
      rcases List.nodup_cons.mp once with ⟨fresh, onceRest⟩
      have beside {label : String} (member : label ∈ rest) :
          (childPath source first ≠ childPath source label ∧
            childPath source first ≠ childPath dest label) ∧
          childPath dest first ≠ childPath source label ∧
            childPath dest first ≠ childPath dest label := by
        have other : first ≠ label := by
          intro same
          exact fresh (same ▸ member)
        exact ⟨⟨fun same => other (childPath_inj same), apart _ _⟩, (apart _ _).symm,
          fun same => other (childPath_inj same)⟩
      cases i with
      | zero =>
          rw [List.getElem?_cons_zero, Option.some.injEq] at there
          subst there
          have answer : answers.getD 0 0 = answers.headD 0 := by cases answers <;> rfl
          rw [moveAll, moveAll_other rest _ _ fun label member => (beside member).1,
            moveAll_other rest _ _ fun label member => (beside member).2, answer, moveAs]
          split
          · exact ⟨rfl, rfl⟩
          · rw [Function.update_of_ne (apart _ _), Function.update_self, Function.update_self]
            exact ⟨rfl, rfl⟩
      | succ i =>
          rw [List.getElem?_cons_succ] at there
          have member := List.mem_of_getElem? there
          have answer : answers.tail.getD i 0 = answers.getD (i + 1) 0 := by cases answers <;> rfl
          have kept (name : String) (one : name ≠ childPath source first)
              (two : name ≠ childPath dest first) :
              moveAs (answers.headD 0) (childPath source first) (childPath dest first) table name =
                table name := by
            rw [moveAs]
            split
            · rfl
            · rw [Function.update_of_ne two, Function.update_of_ne one]
          have later := induction onceRest answers.tail
            (moveAs (answers.headD 0) (childPath source first) (childPath dest first) table) there
          rw [answer, kept _ (beside member).1.1.symm (beside member).2.1.symm,
            kept _ (beside member).1.2.symm (beside member).2.2.symm] at later
          exact later

end Tables

/-! ## The files below a directory -/

theorem getFile_ne_none_iff {name : String} :
    fs.getFile name ≠ none ↔ name ∈ fs.files.map Prod.fst := by
  rw [getFile, Ne, List.lookup_eq_none_iff]
  constructor
  · intro some
    by_contra missing
    apply some
    intro entry member
    rw [bne_iff_ne]
    intro same
    exact missing (List.mem_map.mpr ⟨entry, member, same.symm⟩)
  · intro listed none
    rcases List.mem_map.mp listed with ⟨entry, member, same⟩
    have different := none entry member
    rw [bne_iff_ne] at different
    exact different same.symm

theorem childPath_of_below {dir name : String}
    (below : (withSeparator dir).toList.isPrefixOf name.toList = true) :
    childPath dir (String.ofList (name.toList.drop (withSeparator dir).length)) = name := by
  apply String.toList_injective
  rw [childPath, String.toList_append, String.toList_ofList]
  have whole := List.prefix_iff_eq_append.mp (List.isPrefixOf_iff_prefix.mp below)
  rw [String.length_toList] at whole
  exact whole

theorem map_getZenFSChildren (dir : String) (fs : FileSystem) :
    (fs.getZenFSChildren dir).map (childPath dir) =
      ((fs.files.map Prod.fst).filter fun name =>
        (withSeparator dir).toList.isPrefixOf name.toList).mergeSort fun one two =>
          decide (one ≤ two) := by
  rw [getZenFSChildren, List.map_map]
  conv_rhs => rw [← List.map_id (List.mergeSort _ _)]
  apply List.map_congr_left
  intro name member
  exact childPath_of_below (List.mem_filter.mp (List.mem_mergeSort.mp member)).2

theorem mem_getZenFSChildren {dir child : String} :
    child ∈ fs.getZenFSChildren dir ↔ fs.getFile (childPath dir child) ≠ none := by
  have below : (withSeparator dir).toList.isPrefixOf (childPath dir child).toList = true := by
    rw [childPath, String.toList_append]
    exact List.isPrefixOf_iff_prefix.mpr (List.prefix_append _ _)
  have listed : childPath dir child ∈ (fs.getZenFSChildren dir).map (childPath dir) ↔
      fs.getFile (childPath dir child) ≠ none := by
    rw [map_getZenFSChildren, List.mem_mergeSort, List.mem_filter, getFile_ne_none_iff]
    simp [below]
  rw [← listed]
  constructor
  · intro member
    exact List.mem_map_of_mem member
  · intro member
    rcases List.mem_map.mp member with ⟨other, there, same⟩
    exact childPath_inj same ▸ there

theorem nodup_getZenFSChildren (keyed : (fs.files.map Prod.fst).Nodup) (dir : String) :
    (fs.getZenFSChildren dir).Nodup := by
  apply List.Nodup.of_map (childPath dir)
  rw [map_getZenFSChildren, (List.mergeSort_perm _ _).nodup_iff]
  exact keyed.filter _

def Below (dir path : String) : Prop := (withSeparator dir).toList <+: path.toList

theorem withSeparator_toList (path : String) :
    (withSeparator path).toList = path.toList ∨ (withSeparator path).toList = path.toList ++ ['/'] := by
  rw [withSeparator]
  split
  · exact .inl rfl
  · right
    rw [String.toList_append]
    rfl

theorem childPath_apart (free : ∀ child, fs.getFile (childPath dest child) = none)
    (outside : ¬ Below source dest) {child : String}
    (found : fs.getFile (childPath source child) ≠ none) (one two : String) :
    childPath source one ≠ childPath dest two := by
  have notBelow (rest : List Char) : (withSeparator source).toList ≠ (withSeparator dest).toList ++ rest := by
    intro same
    apply found
    have path : childPath source child = childPath dest (String.ofList (rest ++ child.toList)) := by
      apply String.toList_injective
      rw [childPath, childPath, String.toList_append, String.toList_append, String.toList_ofList, same,
        List.append_assoc]
    rw [path]
    exact free _
  intro same
  have lists := congrArg String.toList same
  rw [childPath, childPath, String.toList_append, String.toList_append] at lists
  rcases List.append_eq_append_iff.mp lists with ⟨rest, split, _⟩ | ⟨rest, split, _⟩
  · rcases List.eq_nil_or_concat rest with none | ⟨front, last, some⟩
    · rw [none, List.append_nil] at split
      exact notBelow [] (by rw [List.append_nil, split])
    · rcases withSeparator_toList dest with ends | added
      · apply outside
        rw [ends] at split
        exact ⟨rest, split.symm⟩
      · apply outside
        rw [added, some, List.concat_eq_append, ← List.append_assoc] at split
        exact ⟨front, (List.append_inj_left' split rfl).symm⟩
  · exact notBelow rest split

/-! ## All or nothing -/

structure MovedBelow (fs : FileSystem) (source dest : String) (after : FileSystem) : Prop where
  moved : ∀ child, after.getFile (childPath dest child) = fs.getFile (childPath source child)
  gone : ∀ child, after.getFile (childPath source child) = none
  others : ∀ name, (∀ child, name ≠ childPath source child) → (∀ child, name ≠ childPath dest child) →
    after.getFile name = fs.getFile name

structure AllOrNothing (fs : FileSystem) (source dest : String)
    (result : Except IOStatus Unit × FileSystem) : Prop where
  returned : result.1 = .ok () → MovedBelow fs source dest result.2
  failed : ∀ failure, result.1 = .error failure → (∀ text, failure ≠ .corruption text) →
    SameTable fs result.2

theorem auxiliary_eq (fs : FileSystem) :
    auxiliary fs = (if fs.zbd.replies.headD 0 < 0 then .error (.ioError "auxiliary file system")
      else .ok (), fs.answered fs.zbd.replies.tail) := by
  simp only [auxiliary, onDevice, Program.within, request_eq, answered]

theorem Sound.answered (sound : Sound fs) (replies : List Int) (shorter : replies <:+ fs.zbd.replies) :
    Sound (fs.answered replies) where
  grounded := (answered_steps shorter).grounded sound.grounded
  consistent := (sound.consistent.ordered.steps (answered_steps shorter).fsSteps).consistent
  live := sound.live

/-- A directory is renamed all or nothing exactly if the auxiliary file system refuses, or the
records of all files below it can be persisted. -/
theorem directory_rename_all_or_nothing_iff (sound : Sound fs)
    (keyed : (fs.files.map Prod.fst).Nodup) (fuel : Nat)
    (free : ∀ child, fs.getFile (childPath dest child) = none) (outside : ¬ Below source dest) :
    AllOrNothing fs source dest (renameAuxPath (renamePathNoLock (fuel + 1)) source dest fs) ↔
      fs.zbd.replies.headD 0 < 0 ∨
        ∀ i < (fs.getZenFSChildren source).length, 0 ≤ fs.zbd.replies.getD (i + 1) 0 := by
  have asked := auxiliary_eq fs
  by_cases refused : fs.zbd.replies.headD 0 < 0
  · rw [if_pos refused] at asked
    rw [renameAuxPath, bind_of_error asked]
    refine iff_of_true ⟨fun returned => (by cases returned), fun _ _ _ => ?_⟩ (.inl refused)
    exact ⟨fun _ => rfl, fun _ => rfl⟩
  · rw [if_neg refused] at asked
    have once := nodup_getZenFSChildren keyed source
    have found (child : String) (member : child ∈ fs.getZenFSChildren source) :
        fs.getFile (childPath source child) ≠ none := mem_getZenFSChildren.mp member
    rcases @renameChildren_answered (fs.answered fs.zbd.replies.tail) source dest fuel _ []
      (sound.answered _ (List.tail_suffix _)) once found (fun child _ => free child) with
      ⟨after, loop, table⟩
    have run : renameAuxPath (renamePathNoLock (fuel + 1)) source dest fs = (.ok (), after) := by
      rw [renameAuxPath, bind_of_ok asked, bind_read]
      exact loop
    have answer (i : Nat) : fs.zbd.replies.tail.getD i 0 = fs.zbd.replies.getD (i + 1) 0 := by
      cases fs.zbd.replies <;> rfl
    have child {i : Nat} {label : String} (there : (fs.getZenFSChildren source)[i]? = some label) :
        after.getFile (childPath source label) =
            (if fs.zbd.replies.getD (i + 1) 0 < 0 then fs.getFile (childPath source label) else none) ∧
          after.getFile (childPath dest label) =
            (if fs.zbd.replies.getD (i + 1) 0 < 0 then fs.getFile (childPath dest label)
              else fs.getFile (childPath source label)) := by
      have apart := childPath_apart free outside (found label (List.mem_of_getElem? there))
      have facts := moveAll_child apart once fs.zbd.replies.tail fs.getFile there
      rw [answer] at facts
      exact table ▸ facts
    rw [run, or_iff_right refused]
    constructor
    · intro whole i below
      by_contra negative
      have there := List.getElem?_eq_getElem below
      have gone := (whole.returned rfl).gone ((fs.getZenFSChildren source)[i])
      rw [(child there).1, if_pos (by omega)] at gone
      exact found _ (List.getElem_mem below) gone
    · intro persisted
      have every (label : String) :
          after.getFile (childPath source label) = none ∧
            after.getFile (childPath dest label) = fs.getFile (childPath source label) := by
        by_cases member : label ∈ fs.getZenFSChildren source
        · rcases List.getElem?_of_mem member with ⟨i, there⟩
          have below := (List.getElem?_eq_some_iff.mp there).1
          have facts := child there
          rw [if_neg (Int.not_lt.mpr (persisted i below)),
            if_neg (Int.not_lt.mpr (persisted i below))] at facts
          exact facts
        · have none : fs.getFile (childPath source label) = none := by
            by_contra some
            exact member (mem_getZenFSChildren.mpr some)
          have other {first : String} (there : first ∈ fs.getZenFSChildren source) : label ≠ first := by
            intro same
            exact member (same ▸ there)
          rw [table, moveAll_other, moveAll_other, none]
          · exact ⟨none, free label⟩
          · intro first there
            exact ⟨(childPath_apart free outside (found first there) _ _).symm,
              fun same => other there (childPath_inj same)⟩
          · intro first there
            exact ⟨fun same => other there (childPath_inj same),
              childPath_apart free outside (found first there) _ _⟩
      refine ⟨fun _ => ⟨fun label => (every label).2, fun label => (every label).1, ?_⟩,
        fun _ failed => (by cases failed)⟩
      · intro name notSource notDest
        rw [table, moveAll_other _ _ _ fun label _ => ⟨notSource label, notDest label⟩]
        rfl

def nested (replies : List Int) : FileSystem :=
  runAll smallConfig 1 [.openWritable "/d/e/c" false false, .openWritable "/x" false false]
    (oneZone ([0, 0] ++ replies))

theorem nested_sound {replies : List Int}
    (returned : allOk smallConfig 1 [.openWritable "/d/e/c" false false,
      .openWritable "/x" false false] (oneZone ([0, 0] ++ replies)) = true)
    (files : (nested replies).files = [("/d/e/c", 0), ("/x", 1)])
    (marks : ∀ k < 2, ((nested replies).object k).file.isDeleted = false) : Sound (nested replies) := by
  have runs : Runs smallConfig (fun _ operation => operation.isMount = false)
      (oneZone ([0, 0] ++ replies)) (nested replies) :=
    runs_runAll ⟨rfl, rfl, trivial⟩ returned
  have kept := Runs.keep
    (fun grounded mounted passage ordered => Ordered.passage ordered grounded mounted passage)
    runs (oneZone_made _).grounded (consistent_of_made (oneZone_made _)).ordered
  refine ⟨kept.1, kept.2.consistent, ?_⟩
  intro name k found
  have member := mem_of_getFile found
  rw [files] at member
  apply marks
  simp only [List.mem_cons, Prod.mk.injEq, List.not_mem_nil, or_false] at member
  omega

theorem nested_free {replies : List Int}
    (files : (nested replies).files = [("/d/e/c", 0), ("/x", 1)]) (child : String) :
    (nested replies).getFile (childPath "/f" child) = none := by
  by_contra found
  have listed := getFile_ne_none_iff.mp found
  have start : (childPath "/f" child).toList = ['/', 'f', '/'] ++ child.toList := by
    rw [childPath, String.toList_append]
    rfl
  rw [files] at listed
  simp only [List.map_cons, List.map_nil, List.mem_cons, List.not_mem_nil, or_false] at listed
  rcases listed with same | same
  all_goals
    rw [same] at start
    simp at start

/-- All records can be persisted. -/
theorem directory_rename_all_or_nothing_nested :
    MovedBelow (nested []) "/d" "/f"
      (renameAuxPath (renamePathNoLock 1) "/d" "/f" (nested [])).2 := by
  have files : (nested []).files = [("/d/e/c", 0), ("/x", 1)] := by decide +kernel
  have script : (nested []).zbd.replies = [] := by decide +kernel
  have sound := @nested_sound [] (by decide +kernel) files (by decide +kernel)
  have outside : ¬ Below "/d" "/f" := by
    rw [Below]
    decide
  have whole := (directory_rename_all_or_nothing_iff sound (by rw [files]; decide) 0
    (nested_free files) outside).mpr (.inr (by rw [script]; simp))
  exact whole.returned (by decide +kernel)

/-- The record of the file cannot be persisted: it stays where it is, and the caller is told
that the directory was renamed. -/
theorem directory_rename_not_done :
    Sound (nested [0, -1]) ∧ (∀ child, (nested [0, -1]).getFile (childPath "/f" child) = none) ∧
      (renameAuxPath (renamePathNoLock 1) "/d" "/f" (nested [0, -1])).1 = .ok () ∧
      (renameAuxPath (renamePathNoLock 1) "/d" "/f" (nested [0, -1])).2.files =
        [("/x", 1), ("/d/e/c", 0)] := by
  have files : (nested [0, -1]).files = [("/d/e/c", 0), ("/x", 1)] := by decide +kernel
  refine ⟨nested_sound (by decide +kernel) files (by decide +kernel), nested_free files, ?_, ?_⟩
  all_goals decide +kernel

end Zwal.DirectoryRenames
