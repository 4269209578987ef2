import Zwal.Contracts.FailedOperations
import Zwal.Contracts.LogDeletion
import Zwal.Fs.Paths

/-! # Renames that are persisted

`RenameFile` deletes what is at the destination before it looks for the name it moves, and
ends with a reset of the zones nothing uses, whose failure it returns. -/

namespace Zwal.Renames

open FileSystem FileState ZonedBlockDevice FileTable LogDeletion

structure Leaves (before : FileSystem) (table : Directory String Nat) (after : FileSystem) : Prop where
  steps : NameSteps before after
  directory : directory after = table
  shorter : after.zbd.replies <:+ before.zbd.replies

/-! ## The parts of a rename -/

theorem deleteFileNoLock_leaves {fs : FileSystem} (grounded : Grounded fs)
    (consistent : Consistent fs) (answered : ¬ fs.zbd.replies.headD 0 < 0) {name : String} {k : Nat}
    (found : fs.getFile name = some k) (ends : Ends (deleteFileNoLock name fs)) :
    ∃ after, deleteFileNoLock name fs = (.ok (), after) ∧
      Leaves fs ((directory fs).remove name k) after := by
  have inside := grounded.inside found
  have linked := (consistent.names name k).mp found
  have relinked := deleteFileNoLock_relinked grounded name
  have asked := (answered_steps (List.tail_suffix fs.zbd.replies)).grounded grounded
  have unlinked : FsStep (fs.answered fs.zbd.replies.tail)
      ((fs.answered fs.zbd.replies.tail).unlinked k name) := .unlink inside found linked
  have table : directory ((fs.answered fs.zbd.replies.tail).unlinked k name) =
      (directory fs).remove name k :=
    (unlinked_unlabelled k name (fs.answered _)).directory.trans
      (@unnamed_renamed (fs.answered fs.zbd.replies.tail) k inside name).directory
  have script : ((fs.answered fs.zbd.replies.tail).unlinked k name).zbd.replies <:+
      fs.zbd.replies := by
    rw [(Relabelled.unlinked k name (fs.answered fs.zbd.replies.tail)).zbd]
    exact List.tail_suffix _
  have run := deleteFileNoLock_eq found inside
  rw [if_pos linked, if_neg answered, forget_eq] at run
  have still := unlinked.steps.grounded asked
  have there := (Relabelled.unlinked k name (fs.answered fs.zbd.replies.tail)).inside inside
  generalize (fs.answered fs.zbd.replies.tail).unlinked k name = middle at *
  split at run
  · have walked := @resetWALZones_walked (middle.view k) still.partitioned (still.lies k)
    rcases reset : resetWALZones (middle.view k) with ⟨outcome, state⟩
    rw [reset] at walked
    have inner : onObject k resetWALZones middle = (outcome, middle.place k state) := by
      simp only [onObject, reset]
    have ended : outcome ≠ .error .never := by
      intro same
      rw [run, Ends, ignored, bind_attempt inner, same] at ends
      exact ends rfl
    have steps : FileSteps .log (middle.view k) state := by
      cases outcome with
      | ok => exact walked.1
      | error failure => exact walked.resolve_left fun same => ended (same ▸ rfl)
    have returned : ignored (onObject k resetWALZones) middle = (.ok (), middle.place k state) := by
      cases outcome with
      | ok => exact ignored_of_ok inner
      | error failure => exact ignored_of_error inner fun same => ended (same ▸ rfl)
    rw [returned] at run
    rw [run] at relinked
    refine ⟨_, run, relinked.1, ?_, ?_⟩
    · rw [(Unlabelled.place there (sees_view middle k) steps.constant).directory, table]
    · rw [place_zbd]
      exact steps.answers.trans script
  · rw [run] at relinked
    exact ⟨_, run, relinked.1, table, script⟩

theorem moveName_leaves {fs : FileSystem} (answered : 0 ≤ fs.zbd.replies.headD 0) {k : Nat}
    (inside : k < fs.objects.length) {source dest : String}
    (linked : source ∈ (fs.object k).file.linkfiles) (absent : fs.getFile dest = none) :
    ∃ after, moveName k source dest fs = (.ok (), after) ∧
      Leaves fs (((directory fs).remove source k).add dest k) after := by
  have updated : Program.update (fun fs => (fs.eraseName source).insertName dest k)
      (fs.relink k ((fs.object k).file.linkfiles.erase source ++ [dest])) =
        ((.ok (), fs.renamed k source dest) : Except IOStatus Unit × FileSystem) := rfl
  have moved := Relabelled.renamed inside source dest
  have relinked := moveName_relinked inside source absent
  have table : directory (fs.renamed k source dest) = ((directory fs).remove source k).add dest k := by
    rw [renamed_eq inside]
    exact (linked_unnamed_renamed inside (.inl absent)).directory
  rcases syncFileMetadata_cases k false (fs.renamed k source dest) with
    ⟨replies, shorter, persisted | ⟨negative, _⟩ | ⟨_, nameless, _⟩⟩
  · have run : moveName k source dest fs =
        (.ok (), ((fs.renamed k source dest).answered replies).synced k false) := by
      rw [moveName, bind_of_ok (renameLink_of_mem linked dest), bind_of_ok updated,
        bind_attempt persisted]
      rfl
    rw [run] at relinked
    refine ⟨_, run, relinked.1, ?_, ?_⟩
    · rw [(Unlabelled.synced k false _).directory]
      exact table
    · rw [(Relabelled.synced k false _).zbd]
      exact moved.zbd ▸ shorter
  · rw [moved.zbd] at negative
    omega
  · rw [← links_directory, table, Directory.links_add, if_pos rfl] at nameless
    simp at nameless

theorem replies_removeUsed (extents : List ZoneExtent) (zbd : ZonedBlockDevice) :
    (extents.foldl removeUsed zbd).replies = zbd.replies := by
  induction extents generalizing zbd with
  | nil => rfl
  | cons extent extents induction => exact induction _

theorem release_leaves {fs : FileSystem} (ordered : Ordered fs) {k : Nat}
    (inside : k < fs.objects.length) :
    ∃ after, release k fs = (.ok (), after) ∧ Leaves fs (directory fs) after := by
  have relinked := release_relinked inside
  rw [release, bind_read] at relinked ⊢
  split
  · exact ⟨fs, rfl, .refl, rfl, List.suffix_rfl⟩
  · rename_i free
    rw [if_neg free, destroy_eq] at relinked
    simp only [Bool.not_eq_true, Bool.or_eq_false_iff] at free
    have synced := (walSync_synced (fs.view k)).steps .log
    have same := Unlabelled.place inside (sees_view fs k) synced.constant
    have unnamed : (fs.place k (walSync (fs.view k)).2).named k = false := by
      rw [named, files_place]
      exact free.1.1
    refine ⟨_, destroy_eq k fs, relinked.1,
      ((same.ordered ordered).directory_destroyed unnamed).trans same.directory, ?_⟩
    have script : ((fs.place k (walSync (fs.view k)).2).destroyed k).zbd.replies =
        (walSync (fs.view k)).2.zbd.replies := by
      rw [destroyed, setObject, replies_removeUsed, place_zbd]
    exact script ▸ synced.answers

theorem deleteAndRelease_leaves {fs after : FileSystem} (grounded : Grounded fs)
    (consistent : Consistent fs) {name : String} {k : Nat} (found : fs.getFile name = some k)
    (run : deleteAndRelease name fs = (.ok (), after)) :
    Leaves fs ((directory fs).remove name k) after := by
  have linked := (consistent.names name k).mp found
  rw [deleteAndRelease, bind_read, found] at run
  simp only [leaving] at run
  rcases deleted : deleteFileNoLock name fs with ⟨failure | _, middle⟩
  all_goals rw [bind_attempt deleted] at run
  · cases failure with
    | never => cases run
    | noSpace | ioError | corruption | invalidArgument =>
        rcases bind_eq_ok run with ⟨_, _, _, failed⟩
        cases failed
  · have answered : ¬ fs.zbd.replies.headD 0 < 0 := by
      intro negative
      rw [deleteFileNoLock_eq found (grounded.inside found), if_pos linked, if_pos negative] at deleted
      cases deleted
    have ends : Ends (deleteFileNoLock name fs) := by
      rw [deleted]
      simp [Ends]
    rcases deleteFileNoLock_leaves grounded consistent answered found ends with ⟨_, same, first⟩
    cases deleted.symm.trans same
    have ordered := consistent.ordered.steps first.steps.fsSteps
    have beside := Nat.lt_of_lt_of_le (grounded.inside found) first.steps.length
    rcases release_leaves ordered beside with ⟨last, released, second⟩
    simp only at run
    rw [bind_of_ok released] at run
    cases run
    exact ⟨trans_of NameSteps first.steps second.steps, second.directory.trans first.directory,
      second.shorter.trans first.shorter⟩

/-! ## Whole renames -/

/-- A rename of one name. No file but the one that was at the destination loses a link. -/
structure MovesOne (fs : FileSystem) (source dest : String) (k : Nat)
    (result : Except IOStatus Unit × FileSystem) : Prop where
  returned : result.1 = .ok ()
  found : result.2.getFile dest = some k
  gone : source ≠ dest → result.2.getFile source = none
  others : ∀ name, name ≠ source → name ≠ dest → result.2.getFile name = fs.getFile name
  links : ∀ j, fs.getFile dest ≠ some j → (result.2.object j).file.linkfiles.Perm
    ((fs.object j).file.linkfiles.map fun name => if name = source then dest else name)

def Blocked (fs : FileSystem) (dest : String) : Prop :=
  endsWith dest ".log" = true ∧ ∃ j, fs.getFile dest = some j ∧ WaitsOnItself fs dest j

/-- Every record of the rename is taken. Each is written or rolled into another zone. -/
structure Taken (fs : FileSystem) (source dest : String) : Prop where
  first : 0 ≤ fs.zbd.replies.headD 0
  second : source ≠ dest → (fs.getFile dest).isSome →
    0 ≤ (deleteFileNoLock dest fs).2.zbd.replies.headD 0

/-- The reset of a zone that is not used fails. A reset asks the device twice. -/
def ResetFails (zbd : ZonedBlockDevice) : Prop :=
  ∃ i < zbd.ioZones.countP (FailedOperations.unused zbd), zbd.replies.getD (2 * i) 0 < 0

def cleared (dest : String) (table : Directory String Nat) : Directory String Nat :=
  match table.lookup dest with
  | none => table
  | some j => table.remove dest j

variable {fs : FileSystem} {source dest : String} {k : Nat}

theorem deleteFileNoLock_ends (grounded : Grounded fs) {j : Nat} (target : fs.getFile dest = some j)
    (free : ¬ Blocked fs dest) : Ends (deleteFileNoLock dest fs) := by
  by_cases log : endsWith dest ".log" = true
  · rw [deleteFileNoLock_ends_iff grounded log target]
    intro waits
    exact free ⟨log, j, target, waits⟩
  · have inside := grounded.inside target
    rw [deleteFileNoLock_eq target inside, forget_eq]
    simp only [log, Bool.and_false, Bool.false_eq_true, if_false]
    split
    · split
      all_goals simp [Ends, Pure.pure]
    · simp [Ends]

theorem renameFileNoLock_leaves (grounded : Grounded fs) (consistent : Consistent fs)
    (taken : Taken fs source dest) (found : fs.getFile source = some k) (different : source ≠ dest)
    (free : ¬ Blocked fs dest) :
    ∃ after, renameFileNoLock source dest fs = (.ok (), after) ∧
      Leaves fs (((cleared dest (directory fs)).remove source k).add dest k) after := by
  have inside := grounded.inside found
  have linked := (consistent.names source k).mp found
  rw [renameFileNoLock, bind_read, found]
  cases target : fs.getFile dest with
  | none =>
      have same : cleared dest (directory fs) = directory fs := by
        have lookup : (directory fs).lookup dest = none := target
        simp only [cleared, lookup]
      rw [same]
      exact moveName_leaves taken.first inside linked target
  | some j =>
      have same : cleared dest (directory fs) = (directory fs).remove dest j := by
        have lookup : (directory fs).lookup dest = some j := target
        simp only [cleared, lookup]
      rcases deleteFileNoLock_leaves grounded consistent (Int.not_lt.mpr taken.first) target
        (deleteFileNoLock_ends grounded target free) with ⟨middle, deleted, first⟩
      have second := taken.second different (target ▸ rfl)
      rw [deleted] at second
      have still : k < middle.objects.length := Nat.lt_of_lt_of_le inside first.steps.length
      have kept : source ∈ (middle.object k).file.linkfiles := by
        rw [← links_directory, first.directory, Directory.links_remove]
        split
        · rename_i here
          rw [← here, List.mem_erase_of_ne different]
          exact linked
        · exact linked
      have absent : middle.getFile dest = none := by
        have lookup := congrArg (fun table => table.lookup dest) first.directory
        rw [Directory.lookup_remove, if_pos rfl] at lookup
        exact lookup
      rcases moveName_leaves second still kept absent with
        ⟨moved, run, second⟩
      have steps := trans_of NameSteps first.steps second.steps
      have ordered := consistent.ordered.steps steps.fsSteps
      have beside := Nat.lt_of_lt_of_le (grounded.inside target) steps.length
      rcases release_leaves ordered beside with ⟨after, released, third⟩
      refine ⟨after, ?_, trans_of NameSteps steps third.steps, ?_,
        third.shorter.trans (second.shorter.trans first.shorter)⟩
      · have both : (do deleteFileNoLock dest; moveName k source dest : FsProgram Unit) fs =
            (.ok (), moved) := by
          rw [bind_of_ok deleted, run]
        simp only [leaving]
        rw [bind_attempt both]
        simp only
        rw [bind_of_ok released]
        rfl
      · rw [third.directory, second.directory, first.directory, same]

theorem renameFile_returned {j : Nat} (found : fs.getFile source = some k)
    (target : fs.getFile dest = some j) (returned : (renameFile source dest fs).1 = .ok ()) :
    ∃ middle, deleteFileNoLock dest fs = (.ok (), middle) ∧
      source ∈ (middle.object k).file.linkfiles := by
  rcases bind_eq_ok (Prod.ext returned rfl) with ⟨_, moved, run, _⟩
  rw [renameFileNoLock, bind_read, found, target] at run
  simp only [leaving] at run
  rcases both : (do deleteFileNoLock dest; moveName k source dest : FsProgram Unit) fs with
    ⟨failure | _, next⟩
  all_goals rw [bind_attempt both] at run
  · cases failure with
    | never => cases run
    | noSpace | ioError | corruption | invalidArgument =>
        rcases bind_eq_ok run with ⟨_, _, _, failed⟩
        cases failed
  · rcases bind_eq_ok both with ⟨_, middle, deleted, renamed⟩
    refine ⟨middle, deleted, ?_⟩
    by_contra missing
    have lost : renameLink k source dest middle =
        (.error (.ioError "RenameLink: Failed to find the linked file"), middle) := by
      rw [renameLink, bind_read]
      exact congrFun (if_neg missing) _
    rw [moveName, bind_of_error lost] at renamed
    cases renamed

theorem lookup_cleared (table : Directory String Nat) {name : String} (other : name ≠ dest) :
    (cleared dest table).lookup name = table.lookup name := by
  rw [cleared]
  split
  · rfl
  · rw [Directory.lookup_remove, if_neg other]

theorem links_cleared {table : Directory String Nat} {j : Nat} (other : table.lookup dest ≠ some j) :
    (cleared dest table).links j = table.links j := by
  rw [cleared]
  split
  · rfl
  · rename_i owner found
    have different : j ≠ owner := by
      intro here
      exact other (here ▸ found)
    rw [Directory.links_remove, if_neg different]

theorem perm_replaced {links : List String} (once : links.Nodup) (listed : source ∈ links) :
    (links.erase source ++ [dest]).Perm (links.map fun name => if name = source then dest else name) := by
  have rest : (links.erase source).map (fun name => if name = source then dest else name) =
      links.erase source := by
    conv_rhs => rw [← List.map_id (links.erase source)]
    apply List.map_congr_left
    intro name member
    have other : ¬ name = source := ((once.mem_erase_iff).mp member).1
    rw [if_neg other]
    rfl
  have whole := (List.perm_cons_erase listed).map fun name => if name = source then dest else name
  rw [List.map_cons, if_pos rfl, rest] at whole
  exact (List.perm_append_singleton _ _).trans whole.symm

theorem renameFile_moves_iff (grounded : Grounded fs) (consistent : Consistent fs)
    (taken : Taken fs source dest) (found : fs.getFile source = some k) :
    MovesOne fs source dest k (renameFile source dest fs) ↔
      source ≠ dest ∧ ¬ Blocked fs dest ∧ ¬ ResetFails (renameFileNoLock source dest fs).2.zbd := by
  have reset {moved : FileSystem} (still : Grounded moved) :
      (onDevice resetUnusedIOZones moved).1 = .ok () ↔ ¬ ResetFails moved.zbd := by
    rw [← not_iff_not, not_not]
    exact FailedOperations.resetUnusedIOZonesFrom_fails_iff still.partitioned.ioDistinct moved.zbd
  constructor
  · intro moves
    refine ⟨?_, ?_, ?_⟩
    · intro same
      subst same
      rcases renameFile_returned found found moves.returned with ⟨middle, deleted, listed⟩
      have ends : Ends (deleteFileNoLock source fs) := by
        rw [deleted]
        simp [Ends]
      rcases deleteFileNoLock_leaves grounded consistent (Int.not_lt.mpr taken.first) found ends with
        ⟨_, run, leaves⟩
      cases deleted.symm.trans run
      rw [← links_directory, leaves.directory, Directory.links_remove, if_pos rfl] at listed
      exact ((consistent.once k).mem_erase_iff.mp listed).1 rfl
    · rintro ⟨log, j, target, waits⟩
      rcases renameFile_returned found target moves.returned with ⟨middle, deleted, _⟩
      have stuck := (deleteFileNoLock_ends_iff grounded log target).not.mpr (not_not.mpr waits)
      rw [deleted] at stuck
      simp [Ends] at stuck
    · rcases bind_eq_ok (Prod.ext moves.returned rfl) with ⟨_, moved, run, last⟩
      have steps := renameFileNoLock_relinked grounded source dest
      rw [run] at steps ⊢
      exact (reset (steps.1.grounded grounded)).mp (by rw [last])
  · rintro ⟨different, free, resets⟩
    rcases renameFileNoLock_leaves grounded consistent taken found different free with
      ⟨moved, run, leaves⟩
    rw [run] at resets
    have whole : renameFile source dest fs = onDevice resetUnusedIOZones moved :=
      bind_of_ok run
    have table : directory (renameFile source dest fs).2 = directory moved := by
      rw [whole]
      rfl
    rw [leaves.directory] at table
    have lookup (name : String) := congrArg (fun table => table.lookup name) table
    simp only [Directory.lookup_add, Directory.lookup_remove] at lookup
    constructor
    · rw [whole]
      exact (reset (leaves.steps.grounded grounded)).mpr resets
    · exact (lookup dest).trans (if_pos rfl)
    · intro _
      exact (lookup source).trans ((if_neg different).trans (if_pos rfl))
    · intro name notSource notDest
      have same := lookup name
      rw [if_neg notDest, if_neg notSource, lookup_cleared _ notDest] at same
      exact same
    · intro j other
      have links := congrArg (fun table => table.links j) table
      rw [Directory.links_add, Directory.links_remove, Directory.links_remove, if_pos rfl] at links
      have cleared : (cleared dest (directory fs)).links j = (fs.object j).file.linkfiles :=
        links_cleared other
      by_cases here : j = k
      · subst here
        rw [if_pos rfl, cleared, links_directory] at links
        rw [links]
        exact perm_replaced (consistent.once j) ((consistent.names source j).mp found)
      · rw [if_neg here, if_neg here, cleared, links_directory] at links
        have kept : ((fs.object j).file.linkfiles.map fun name =>
            if name = source then dest else name) = (fs.object j).file.linkfiles := by
          conv_rhs => rw [← List.map_id (fs.object j).file.linkfiles]
          apply List.map_congr_left
          intro name member
          have notSource : ¬ name = source := by
            intro same
            exact here (consistent.apart source j k (same ▸ member)
              ((consistent.names source k).mp found))
          rw [if_neg notSource]
          rfl
        rw [links, kept]

/-- With every record taken, `RenameFile` moves exactly one name exactly if the paths are not
those of one name, the file at the destination is no log whose deletion waits for itself, and
no reset of a zone that is not used after the rename fails. The keys of both paths are their
own keys. -/
theorem rename_moves_one_iff {format : String → String} {path target : String}
    (stable : format (format path) = format path) (also : format (format target) = format target)
    (grounded : Grounded fs) (consistent : Consistent fs)
    (taken : Taken fs (format path) (format target)) (found : fs.getFile (format path) = some k) :
    MovesOne fs (format path) (format target) k (renamePaths format path target fs) ↔
      format path ≠ format target ∧ ¬ Blocked fs (format target) ∧
        ¬ ResetFails (renameFileNoLock (format path) (format target) fs).2.zbd := by
  rw [renamePaths_of_stable stable also]
  exact renameFile_moves_iff grounded consistent taken found

def threeNames : FileSystem :=
  runAll smallConfig 1 [.openWritable "/a" false false, .link "/a" "/b", .openWritable "/c" false false]
    (oneZone [])

theorem threeNames_premises : Grounded threeNames ∧ Ordered threeNames := by
  have runs : Runs smallConfig (fun _ operation => operation.isMount = false) (oneZone [])
      threeNames := by
    apply runs_runAll
    · exact ⟨rfl, rfl, rfl, trivial⟩
    · decide +kernel
  exact Runs.keep (fun grounded mounted passage ordered => ordered.passage grounded mounted passage)
    runs (oneZone_made _).grounded (consistent_of_made (oneZone_made _)).ordered

theorem threeNames_taken {source dest : String}
    (script : (deleteFileNoLock dest threeNames).2.zbd.replies = []) :
    Taken threeNames source dest :=
  ⟨by decide +kernel, fun _ _ => by rw [script]; decide⟩

/-- One name of the file is moved onto the other one. -/
theorem rename_moves_one_second_link :
    formatPathLexically "a" = "/a" ∧ formatPathLexically "//x/../b" = "/b" ∧
    MovesOne threeNames "/a" "/b" 0 (renamePaths formatPathLexically "a" "//x/../b" threeNames) := by
  rcases threeNames_premises with ⟨grounded, ordered⟩
  have keys : formatPathLexically "a" = "/a" ∧ formatPathLexically "//x/../b" = "/b" := by
    decide +kernel
  have moves := @rename_moves_one_iff threeNames 0 formatPathLexically "a" "//x/../b"
    (formatPathLexically_stable (by decide +kernel) (by decide +kernel))
    (formatPathLexically_stable (by decide +kernel) (by decide +kernel))
  rw [keys.1, keys.2] at moves
  refine ⟨keys.1, keys.2, (moves grounded ordered.consistent
    (threeNames_taken (by decide +kernel)) (by decide +kernel)).mpr ⟨by decide, ?_, ?_⟩⟩
  · rintro ⟨log, _⟩
    revert log
    decide
  · have script : (renameFileNoLock "/a" "/b" threeNames).2.zbd.replies = [] := by decide +kernel
    rintro ⟨i, _, negative⟩
    rw [script] at negative
    simp at negative

/-- A name is moved onto itself: the file is deleted, and an error is returned. -/
theorem rename_onto_itself :
    Grounded threeNames ∧ Consistent threeNames ∧ Taken threeNames "/c" "/c" ∧
      threeNames.getFile "/c" = some 1 ∧ formatPathLexically "/c" = "/c" ∧
      formatPathLexically "./c" = "/c" ∧
      (renamePaths formatPathLexically "/c" "./c" threeNames).1 =
        .error (.ioError "RenameLink: Failed to find the linked file") ∧
      (renamePaths formatPathLexically "/c" "./c" threeNames).2.getFile "/c" = none := by
  refine ⟨threeNames_premises.1, threeNames_premises.2.consistent,
    threeNames_taken (by decide +kernel), ?_⟩
  decide +kernel

end Zwal.Renames
