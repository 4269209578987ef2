import Zwal.Contracts.FileTable

/-! # Directory operations that cannot be persisted

`DeleteFile`, `RenameFile` and `LinkFile` change the table in memory, write a record and
take the change back if neither the record nor a roll of the log can be written. The rollback of a rename and of a
link overwrites the status, so that the caller is told the operation was done, and the
rollback of a deletion or a rename puts the name at the end of the list of its file. -/

namespace Zwal.FailedOperations

open FileSystem ZonedBlockDevice FileTable

inductive DirectoryCall where
  | deleteFile (name : String)
  | renameFile (source dest : String)
  | linkFile (name link : String)
  deriving Repr, DecidableEq

def DirectoryCall.run : DirectoryCall → FsProgram Unit
  | .deleteFile name => FileSystem.deleteFile name
  | .renameFile source dest => FileSystem.renameFile source dest
  | .linkFile name link => FileSystem.linkFile name link

/-- The call comes to its metadata record: the file is there, the new name is free. -/
def DirectoryCall.Writes (fs : FileSystem) : DirectoryCall → Prop
  | .deleteFile name => ∃ k, fs.getFile name = some k
  | .renameFile name free | .linkFile name free =>
      ∃ k, fs.getFile name = some k ∧ fs.getFile free = none ∧
        (fs.object k).file.isDeleted = false

structure SameTable (before after : FileSystem) : Prop where
  files : ∀ name, after.getFile name = before.getFile name
  links : ∀ k, (after.object k).file.linkfiles = (before.object k).file.linkfiles

theorem sameTable_iff {before after : FileSystem} :
    SameTable before after ↔ directory after = directory before := by
  constructor
  · intro same
    exact Directory.ext (funext same.files) (funext same.links)
  · intro same
    constructor
    · intro name
      exact congrArg (fun directory => directory.lookup name) same
    · intro k
      exact congrArg (fun directory => directory.links k) same

def unused (zbd : ZonedBlockDevice) (number : Nat) : Bool :=
  !(zbd.zone number).busy && !(zbd.zone number).isEmpty && !(zbd.zone number).isUsed

/-- Of the requests that follow the one for the record, the reset of an unused zone fails.
A reset asks the device twice: for the reset and for the new capacity. -/
def ResetFails (zbd : ZonedBlockDevice) : Prop :=
  ∃ i < zbd.ioZones.countP (unused zbd), zbd.replies.getD (2 * i + 1) 0 < 0

/-- When the rollback gives the old table and the caller is told of the failure. -/
def DirectoryCall.Restored (fs : FileSystem) : DirectoryCall → Prop
  | .deleteFile name => ∃ k, (fs.object k).file.linkfiles.getLast? = some name
  | .renameFile source _ =>
      (∃ k, (fs.object k).file.linkfiles.getLast? = some source) ∧ ResetFails fs.zbd
  | .linkFile _ _ => False

/-! ## Resetting unused zones -/

theorem resetZone_failing {number : Nat} {zbd : ZonedBlockDevice}
    (failing : zbd.replies.headD 0 < 0) :
    ∃ next, resetZone number zbd = (.error (.ioError "Zone reset failed\n"), next) := by
  have asked : request (.ioError "Zone reset failed\n") zbd =
      (.error (.ioError "Zone reset failed\n"), { zbd with replies := zbd.replies.tail }) := by
    rw [request_eq, if_pos failing]
  exact ⟨_, bind_of_error asked⟩

theorem resetZone_answered {number : Nat} {zbd : ZonedBlockDevice}
    (answered : 0 ≤ zbd.replies.headD 0) :
    ∃ next, resetZone number zbd = (.ok (), next) ∧ next.replies = zbd.replies.drop 2 ∧
      ∀ other, other ≠ number → next.zone other = zbd.zone other := by
  have asked : request (.ioError "Zone reset failed\n") zbd =
      (.ok (), { zbd with replies := zbd.replies.tail }) := by
    rw [request_eq, if_neg (by omega)]
  rcases zbd with ⟨zones, _, _, _, _, _, _, _, _, _, _, _ | ⟨first, _ | ⟨second, rest⟩⟩, _⟩
  all_goals
    rw [resetZone, resetUpTo, bind_of_ok asked]
    refine ⟨_, rfl, rfl, ?_⟩
    intro other different
    exact zone_setZone_of_ne different _ _

theorem exists_reset_succ {replies : List Int} (answered : 0 ≤ replies.headD 0) (count : Nat) :
    (∃ i < count + 1, replies.getD (2 * i) 0 < 0) ↔
      ∃ i < count, (replies.drop 2).getD (2 * i) 0 < 0 := by
  have shift (i : Nat) : (replies.drop 2).getD (2 * i) 0 = replies.getD (2 * (i + 1)) 0 := by
    rw [List.getD_eq_getElem?_getD, List.getElem?_drop, List.getD_eq_getElem?_getD]
    congr 2
    omega
  constructor
  · rintro ⟨i, below, failing⟩
    cases i with
    | zero =>
        rw [Nat.mul_zero, List.getD_eq_getElem?_getD, ← List.head?_eq_getElem?,
          ← List.headD_eq_head?_getD] at failing
        omega
    | succ i => exact ⟨i, by omega, shift i ▸ failing⟩
  · rintro ⟨i, below, failing⟩
    exact ⟨i + 1, by omega, shift i ▸ failing⟩

theorem resetUnusedIOZonesFrom_fails_iff {numbers : List Nat} (distinct : numbers.Nodup)
    (zbd : ZonedBlockDevice) :
    (resetUnusedIOZonesFrom numbers zbd).1 ≠ .ok () ↔
      ∃ i < numbers.countP (unused zbd), zbd.replies.getD (2 * i) 0 < 0 := by
  induction numbers generalizing zbd with
  | nil =>
      rw [resetUnusedIOZonesFrom]
      simp [show (pure () : DeviceProgram Unit) zbd = (.ok (), zbd) from rfl]
  | cons number numbers induction =>
      have later := List.nodup_cons.mp distinct
      rw [resetUnusedIOZonesFrom, bind_read]
      by_cases chosen : unused zbd number = true
      · rw [List.countP_cons_of_pos chosen]
        simp only [unused] at chosen
        simp only [chosen, if_true]
        by_cases failing : zbd.replies.headD 0 < 0
        · rcases @resetZone_failing number zbd failing with ⟨next, run⟩
          rw [bind_of_error run]
          refine iff_of_true (by simp) ⟨0, by simp, ?_⟩
          rw [Nat.mul_zero, List.getD_eq_getElem?_getD, ← List.head?_eq_getElem?,
            ← List.headD_eq_head?_getD]
          exact failing
        · have answered := Int.not_lt.mp failing
          rcases @resetZone_answered number zbd answered with ⟨next, run, replies, others⟩
          have onward (after : ZonedBlockDevice) (script : after.replies = next.replies)
              (same : after.zone = next.zone) :
              (resetUnusedIOZonesFrom numbers after).1 ≠ .ok () ↔
                ∃ i < numbers.countP (unused zbd) + 1, zbd.replies.getD (2 * i) 0 < 0 := by
            have count : numbers.countP (unused after) = numbers.countP (unused zbd) := by
              apply List.countP_congr
              intro other member
              have different : other ≠ number := by
                intro here
                exact later.1 (here ▸ member)
              rw [unused, same, others other different, unused]
            rw [exists_reset_succ answered, induction later.2, count, script, replies]
          rw [bind_of_ok run]
          split
          · exact onward next rfl rfl
          · exact onward next.putActiveIOZoneToken rfl rfl
      · rw [List.countP_cons_of_neg chosen]
        simp only [unused] at chosen
        simp only [chosen]
        exact induction later.2 zbd

theorem resetUnusedIOZones_fails_iff {zbd : ZonedBlockDevice} (partitioned : Partitioned zbd) :
    (resetUnusedIOZones { zbd with replies := zbd.replies.tail }).1 ≠ .ok () ↔ ResetFails zbd := by
  refine (resetUnusedIOZonesFrom_fails_iff partitioned.ioDistinct _).trans ?_
  have shift (i : Nat) : zbd.replies.tail.getD (2 * i) 0 = zbd.replies.getD (2 * i + 1) 0 := by
    rw [List.getD_eq_getElem?_getD, List.getElem?_tail, List.getD_eq_getElem?_getD]
  simp only [shift]
  rfl

/-! ## The calls -/

theorem inside_of_found {fs : FileSystem} (consistent : Consistent fs) {name : String} {k : Nat}
    (found : fs.getFile name = some k) : k < fs.objects.length := by
  apply lt_of_object_ne
  intro blank
  have listed := (consistent.names name k).mp found
  rw [blank] at listed
  simp at listed

theorem directory_kept {fs : FileSystem} {k : Nat} (inside : k < fs.objects.length)
    (name : String) :
    directory (fs.kept k name) = ((directory fs).remove name k).add name k := by
  rw [kept_eq inside]
  exact (linked_unnamed_renamed inside (.inr rfl)).directory

theorem deleteFile_failing {fs : FileSystem} (consistent : Consistent fs) {name : String} {k : Nat}
    (found : fs.getFile name = some k) (failing : fs.zbd.replies.headD 0 < 0) :
    deleteFile name fs = (.error (.ioError "Failed to persist metadata"),
      (fs.kept k name).answered fs.zbd.replies.tail) := by
  have inside := inside_of_found consistent found
  have run := deleteFileNoLock_eq found inside
  rw [if_pos ((consistent.names name k).mp found), if_pos failing] at run
  have back : ((fs.kept k name).answered fs.zbd.replies.tail).getFile name = some k := by
    have lookup := congrArg (fun directory => directory.lookup name) (directory_kept inside name)
    rw [Directory.lookup_add, if_pos rfl] at lookup
    exact lookup
  have left : deleteAndRelease name fs = (.error (.ioError "Failed to persist metadata"),
      (fs.kept k name).answered fs.zbd.replies.tail) := by
    rw [deleteAndRelease, bind_read, found]
    simp only [leaving]
    rw [bind_attempt run]
    simp only
    rw [bind_of_ok (release_of_named (named_of_getFile back))]
    rfl
  exact bind_of_error left

theorem syncFileMetadata_failing {fs : FileSystem} {k : Nat}
    (present : (fs.object k).file.isDeleted = false) (failing : fs.zbd.replies.headD 0 < 0)
    (replace : Bool) :
    syncFileMetadata k replace fs = (.error (.ioError "Failed to persist metadata"),
      fs.answered fs.zbd.replies.tail) := by
  rw [syncFileMetadata, bind_read]
  simp only [present, Bool.false_eq_true, if_false]
  apply bind_of_error
  rw [persistRecord_eq, if_pos failing]

theorem renameFileNoLock_failing {fs : FileSystem} (consistent : Consistent fs)
    {source dest : String} {k : Nat} (found : fs.getFile source = some k)
    (absent : fs.getFile dest = none) (present : (fs.object k).file.isDeleted = false)
    (failing : fs.zbd.replies.headD 0 < 0) :
    renameFileNoLock source dest fs =
      (.ok (), ((fs.renamed k source dest).renamed k dest source).answered fs.zbd.replies.tail) := by
  have inside := inside_of_found consistent found
  have moved := Relabelled.renamed inside source dest
  have linked := (consistent.names source k).mp found
  have updated : Program.update (fun fs => (fs.eraseName source).insertName dest k)
      (fs.relink k ((fs.object k).file.linkfiles.erase source ++ [dest])) =
        ((.ok (), fs.renamed k source dest) : Except IOStatus Unit × FileSystem) := rfl
  have there : dest ∈ ((fs.renamed k source dest).object k).file.linkfiles := by
    rw [object_renamed inside]
    simp
  have still : ((fs.renamed k source dest).object k).file.isDeleted = false := by
    rw [object_renamed inside]
    exact present
  have failed := @syncFileMetadata_failing (fs.renamed k source dest) k still
    (moved.zbd.symm ▸ failing) false
  rw [moved.zbd] at failed
  rw [renameFileNoLock, bind_read, found, absent]
  simp only
  rw [moveName, bind_of_ok (renameLink_of_mem linked dest), bind_of_ok updated, bind_attempt failed]
  exact moveBack_eq there source _

theorem directory_movedBack {fs : FileSystem} (consistent : Consistent fs)
    {source dest : String} {k : Nat} (found : fs.getFile source = some k)
    (absent : fs.getFile dest = none) :
    directory ((fs.renamed k source dest).renamed k dest source) =
      ((directory fs).remove source k).add source k := by
  have inside := inside_of_found consistent found
  have different : source ≠ dest := by
    intro same
    rw [same, absent] at found
    cases found
  have first : directory (fs.renamed k source dest) = ((directory fs).remove source k).add dest k := by
    rw [renamed_eq inside]
    exact (linked_unnamed_renamed inside (.inl absent)).directory
  have free : (directory (fs.renamed k source dest)).lookup source = none := by
    rw [first, Directory.lookup_add, if_neg different, Directory.lookup_remove, if_pos rfl]
  have there := (Relabelled.renamed inside source dest).inside inside
  have second := (@linked_unnamed_renamed _ _ there dest source (.inl free)).directory
  have fresh : ((directory fs).remove source k).lookup dest = none := by
    rw [Directory.lookup_remove, if_neg different.symm]
    exact absent
  rw [renamed_eq there, second, Function.comp_apply, first,
    Directory.remove_add_eq (consistent.ordered.linked.remove found) fresh]

theorem linkFile_failing {fs : FileSystem} (consistent : Consistent fs)
    {name link : String} {k : Nat} (found : fs.getFile name = some k)
    (absent : fs.getFile link = none) (present : (fs.object k).file.isDeleted = false)
    (failing : fs.zbd.replies.headD 0 < 0) :
    linkFile name link fs =
      (.ok (), ((fs.linked k link).unnamed k link).answered fs.zbd.replies.tail) := by
  have inside := inside_of_found consistent found
  have linked := Relabelled.linked inside link
  have inserted : Program.update (insertName link k)
      (fs.relink k ((fs.object k).file.linkfiles ++ [link])) =
        ((.ok (), fs.linked k link) : Except IOStatus Unit × FileSystem) := rfl
  have there : link ∈ (((fs.linked k link).answered fs.zbd.replies.tail).object k).file.linkfiles := by
    rw [show ((fs.linked k link).answered fs.zbd.replies.tail).object k =
      (fs.linked k link).object k from rfl, object_linked inside]
    simp
  have still : ((fs.linked k link).object k).file.isDeleted = false := by
    rw [object_linked inside]
    exact present
  have failed := @syncFileMetadata_failing (fs.linked k link) k still
    (linked.zbd.symm ▸ failing) false
  rw [linked.zbd] at failed
  rw [linkFile, bind_read, found, absent]
  simp only
  rw [bind_of_ok (addLinkName_eq k link fs), bind_of_ok inserted, bind_attempt failed]
  simp only
  rw [bind_of_ok (removeLinkName_of_mem there)]
  rfl

theorem restored_iff {fs : FileSystem} (consistent : Consistent fs) {name : String} {k : Nat}
    (found : fs.getFile name = some k) :
    ((directory fs).remove name k).add name k = directory fs ↔
      ∃ j, (fs.object j).file.linkfiles.getLast? = some name := by
  rw [Directory.add_remove_eq_iff consistent.ordered.linked found]
  constructor
  · intro last
    exact ⟨k, last⟩
  · rintro ⟨j, last⟩
    have here : k = j := consistent.apart name k j ((consistent.names name k).mp found)
      (List.mem_of_getLast? last)
    rw [here]
    exact last

/-- A call whose record cannot be persisted reports that and leaves the table as it was
exactly if it deletes the name its file lists last, or renames such a name and the resets
that follow fail. -/
theorem failure_reported_iff {fs : FileSystem} (consistent : Consistent fs)
    (partitioned : Partitioned fs.zbd) (call : DirectoryCall) (writes : call.Writes fs)
    (failing : fs.zbd.replies.headD 0 < 0) :
    ((call.run fs).1 ≠ .ok () ∧ SameTable fs (call.run fs).2) ↔ call.Restored fs := by
  rw [sameTable_iff]
  cases call with
  | deleteFile name =>
      rcases writes with ⟨k, found⟩
      rw [DirectoryCall.run, deleteFile_failing consistent found failing]
      have back : directory ((fs.kept k name).answered fs.zbd.replies.tail) = _ :=
        directory_kept (inside_of_found consistent found) name
      rw [back, restored_iff consistent found]
      simp [DirectoryCall.Restored]
  | renameFile source dest =>
      rcases writes with ⟨k, found, absent, present⟩
      have moved := renameFileNoLock_failing consistent found absent present failing
      have inside := inside_of_found consistent found
      have once := Relabelled.renamed inside source dest
      have twice := once.trans (.renamed (once.inside inside) dest source)
      have device : (((fs.renamed k source dest).renamed k dest source).answered
          fs.zbd.replies.tail).zbd = { fs.zbd with replies := fs.zbd.replies.tail } := by
        rw [answered, twice.zbd]
      have run : renameFile source dest fs = onDevice resetUnusedIOZones _ :=
        bind_of_ok moved
      have table : directory (renameFile source dest fs).2 =
          ((directory fs).remove source k).add source k := by
        rw [run]
        exact directory_movedBack consistent found absent
      have status : (renameFile source dest fs).1 ≠ .ok () ↔ ResetFails fs.zbd := by
        rw [run, ← resetUnusedIOZones_fails_iff partitioned, ← device]
        rfl
      rw [DirectoryCall.run, table, status, restored_iff consistent found, and_comm]
      rfl
  | linkFile name link =>
      rcases writes with ⟨k, found, absent, present⟩
      rw [DirectoryCall.run, linkFile_failing consistent found absent present failing]
      simp [DirectoryCall.Restored]

/-! ## One file, one record that cannot be persisted -/

def createdOnce : FileSystem :=
  runAll smallConfig 1 [.openWritable "/CURRENT.dbtmp" false false] (oneZone [0, -1])

theorem createdOnce_runs :
    Runs smallConfig (fun _ operation => operation.isMount = false) (oneZone [0, -1]) createdOnce := by
  apply runs_runAll
  · exact ⟨rfl, trivial⟩
  · decide +kernel

theorem createdOnce_premises : Grounded createdOnce ∧ Ordered createdOnce :=
  Runs.keep (fun grounded mounted passage ordered => ordered.passage grounded mounted passage)
    createdOnce_runs (oneZone_made _).grounded (consistent_of_made (oneZone_made _)).ordered

theorem failure_reported_deletion :
    createdOnce.zbd.replies = [-1] ∧
      (FileSystem.deleteFile "/CURRENT.dbtmp" createdOnce).1 ≠ .ok () ∧
      SameTable createdOnce (FileSystem.deleteFile "/CURRENT.dbtmp" createdOnce).2 := by
  have facts : createdOnce.zbd.replies = [-1] ∧
      createdOnce.getFile "/CURRENT.dbtmp" = some 0 ∧
      (createdOnce.object 0).file.linkfiles = ["/CURRENT.dbtmp"] := by
    decide +kernel
  rcases facts with ⟨script, found, links⟩
  rcases createdOnce_premises with ⟨grounded, ordered⟩
  refine ⟨script, ?_⟩
  refine (failure_reported_iff ordered.consistent grounded.partitioned
    (.deleteFile "/CURRENT.dbtmp") ⟨0, found⟩ (by rw [script]; decide)).mpr ⟨0, ?_⟩
  rw [links]
  rfl

/-- The rename is rolled back, and the caller is told that it was done. -/
theorem rename_lost :
    (createdOnce.getFile "/CURRENT.dbtmp" = some 0 ∧ createdOnce.getFile "/CURRENT" = none ∧
        (createdOnce.object 0).file.isDeleted = false) ∧
      createdOnce.zbd.replies.headD 0 < 0 ∧
      (FileSystem.renameFile "/CURRENT.dbtmp" "/CURRENT" createdOnce).1 = .ok () ∧
      (FileSystem.renameFile "/CURRENT.dbtmp" "/CURRENT" createdOnce).2.getFile "/CURRENT" = none := by
  decide +kernel

end Zwal.FailedOperations
