import Zwal.Fs.Runs

/-! # Deleting a write-ahead log

`DeleteFile` of a `.log` file ends unless the file has extents but no once-log. Then
`ResetWALZones` acquires the zone of the first extent and `OpenWALZone` waits for that
same zone. A persist is refused if the record and the roll after it are. -/

namespace Zwal.LogDeletion

open FileSystem ZonedBlockDevice FileState

def Ends (result : Except IOStatus Value × State) : Prop := result.1 ≠ .error .never

/-! ## What always ends -/

theorem resetUnusedIOZonesFrom_ends (numbers : List Nat) (zbd : ZonedBlockDevice) :
    Ends (resetUnusedIOZonesFrom numbers zbd) := by
  induction numbers generalizing zbd with
  | nil => exact nofun
  | cons number numbers induction =>
      rw [resetUnusedIOZonesFrom, bind_read]
      split
      · rcases resetZone_cases number zbd with ⟨replies, _, ⟨answer, later, _, _, run⟩ | run⟩
        · rw [bind_of_ok run]
          split
          · exact induction _
          · exact induction _
        · rw [bind_of_error run]
          simp [Ends]
      · exact induction zbd

theorem release_ok (k : Nat) (fs : FileSystem) : (release k fs).1 = .ok () := by
  rw [release, bind_read]
  split
  · rfl
  · rw [destroy_eq]

theorem resetAll_ends (log : Nat) (state : FileState) : Ends (resetAll log state) := by
  simp only [resetAll, FileState.onDevice, Program.within, Ends]
  rcases request_cases (.ioError "WAL sync error") state.zbd with ⟨replies, _, run | ⟨_, run⟩⟩
  · rw [bind_of_ok run]
    intro same
    cases same
  · rw [bind_of_error run]
    simp

/-! ## What is left to wait for -/

/-- The deletion of the last name of a file with extents and without a once-log, when the
metadata record of it can be written. -/
structure WaitsOnItself (fs : FileSystem) (name : String) (k : Nat) : Prop where
  lastLink : (fs.object k).file.linkfiles = [name]
  written : 0 ≤ fs.zbd.replies.headD 0
  extents : (fs.object k).file.extents ≠ []
  unopened : (fs.object k).file.wal = none

theorem resetWALZones_ends_iff {state : FileState} (partitioned : Partitioned state.zbd)
    (lies : ZoneFile.Lies state.file) :
    Ends (resetWALZones state) ↔ state.file.extents = [] ∨ state.file.wal ≠ none := by
  cases opened : state.file.wal with
  | some log =>
      rw [resetWALZones_of_open opened]
      simp [resetAll_ends]
  | none =>
      cases written : state.file.extents with
      | nil =>
          rw [resetWALZones_of_empty written opened]
          simp [Ends]
      | cons extent rest =>
          rcases resetWALZones_never partitioned lies written opened with ⟨next, run⟩
          rw [run]
          simp [Ends]

theorem ignored_ends_iff (program : FsProgram Unit) (fs : FileSystem) :
    Ends (ignored program fs) ↔ Ends (program fs) := by
  rcases run : program fs with ⟨failure | value, next⟩
  · by_cases never : failure = .never
    · subst never
      rw [ignored, bind_attempt run]
      simp [Ends, Program.fail]
    · rw [ignored_of_error run never]
      simp [Ends, never]
  · rw [ignored_of_ok run]

theorem onObject_ends_iff (k : Nat) (program : FileProgram Unit) (fs : FileSystem) :
    Ends (onObject k program fs) ↔ Ends (program (fs.view k)) :=
  Iff.rfl

theorem linkfiles_struck {fs : FileSystem} {k : Nat} (inside : k < fs.objects.length)
    (name : String) :
    ((fs.struck k name).object k).file.linkfiles = (fs.object k).file.linkfiles.erase name := by
  have erased : k < (fs.eraseName name).objects.length := inside
  rw [struck, object_commit, unnamed, object_relink erased]

theorem forget_ends_iff {fs : FileSystem} (grounded : Grounded fs) {name : String}
    (log : endsWith name ".log" = true) {k : Nat} (found : fs.getFile name = some k)
    (linked : name ∈ (fs.object k).file.linkfiles) :
    Ends (forget k name (fs.struck k name)) ↔
      ((fs.object k).file.linkfiles = [name] →
        (fs.object k).file.extents = [] ∨ (fs.object k).file.wal ≠ none) := by
  have inside := grounded.inside found
  have still := (FsStep.unlink inside found linked).steps.grounded grounded
  have relabelled := (Relabelled.unlinked k name fs).object k
  rw [forget_eq, linkfiles_struck inside, log, Bool.and_true]
  by_cases last : (fs.object k).file.linkfiles = [name]
  · have empty : ((fs.object k).file.linkfiles.erase name).isEmpty = true := by
      rw [last]
      simp
    rw [if_pos empty, ignored_ends_iff, onObject_ends_iff,
      resetWALZones_ends_iff still.partitioned (still.lies k)]
    simp only [view, relabelled.extents, relabelled.wal, last, true_implies]
  · have others : ¬ ((fs.object k).file.linkfiles.erase name).isEmpty = true := by
      rw [List.isEmpty_iff, List.erase_eq_nil_iff]
      rintro (none | same)
      · rw [none] at linked
        cases linked
      · exact last same
    rw [if_neg others]
    simp [Ends, last, Pure.pure]

theorem deleteFileNoLock_ends_iff {fs : FileSystem} (grounded : Grounded fs) {name : String}
    (log : endsWith name ".log" = true) {k : Nat} (found : fs.getFile name = some k) :
    Ends (deleteFileNoLock name fs) ↔ ¬ WaitsOnItself fs name k := by
  have inside := grounded.inside found
  rw [deleteFileNoLock_eq found inside]
  by_cases linked : name ∈ (fs.object k).file.linkfiles
  · rw [if_pos linked]
    by_cases negative : fs.zbd.replies.headD 0 < 0
    · rw [if_pos negative]
      refine ⟨fun _ waits => ?_, fun _ => by simp [Ends]⟩
      have written := waits.written
      omega
    · rw [if_neg negative]
      have asked := (answered_steps (List.tail_suffix fs.zbd.replies)).grounded grounded
      refine (forget_ends_iff asked log found linked).trans ⟨fun ends waits => ?_, fun free last => ?_⟩
      · rcases ends waits.lastLink with none | some
        · exact waits.extents none
        · exact some waits.unopened
      · by_contra stuck
        rw [not_or, not_not] at stuck
        exact free ⟨last, by omega, stuck.1, stuck.2⟩
  · rw [if_neg linked]
    refine ⟨fun _ waits => linked ?_, fun _ => by simp [Ends]⟩
    rw [waits.lastLink]
    exact List.mem_singleton_self name

theorem leaving_release_ends_iff (program : FsProgram Unit) (k : Nat) (fs : FileSystem) :
    Ends (leaving program (release k) fs) ↔ Ends (program fs) := by
  rcases run : program fs with ⟨failure | value, next⟩
  all_goals rw [leaving, bind_attempt run]
  · have released : release k next = (.ok (), (release k next).2) := Prod.ext (release_ok k next) rfl
    cases failure with
    | never => simp [Ends, Program.fail]
    | noSpace | ioError | corruption | invalidArgument =>
        simp only
        rw [bind_of_ok released]
        simp [Ends, Program.fail]
  · have released : release k next = (.ok (), (release k next).2) := Prod.ext (release_ok k next) rfl
    simp only
    rw [bind_of_ok released]
    simp [Ends, Pure.pure]

theorem deleteFile_ends_of_grounded {fs : FileSystem} (grounded : Grounded fs) {name : String}
    (log : endsWith name ".log" = true) {k : Nat} (found : fs.getFile name = some k) :
    Ends (deleteFile name fs) ↔ ¬ WaitsOnItself fs name k := by
  have deleted : Ends (deleteAndRelease name fs) ↔ ¬ WaitsOnItself fs name k := by
    rw [deleteAndRelease, bind_read, found]
    exact (leaving_release_ends_iff _ k fs).trans (deleteFileNoLock_ends_iff grounded log found)
  rw [← deleted]
  rcases run : deleteAndRelease name fs with ⟨failure | value, next⟩
  · rw [deleteFile, bind_of_error run]
  · rw [deleteFile, bind_of_ok run]
    refine ⟨fun _ => by simp [Ends], fun _ => ?_⟩
    exact resetUnusedIOZonesFrom_ends next.zbd.ioZones next.zbd

/-! ## Every state of a mounted file system -/

/-- In every state that any run of operations, crashes and mounts reaches, deleting a
write-ahead log ends unless it waits for the zone it holds itself. -/
theorem deletion_ends_iff (config : BuildConfig) {initial fs : FileSystem} (made : Made initial)
    (reached : Runs config (fun _ _ => True) initial fs) {name : String}
    (log : endsWith name ".log" = true) {k : Nat} (found : fs.getFile name = some k) :
    Ends (deleteFile name fs) ↔ ¬ WaitsOnItself fs name k := by
  have grounded := (@Runs.keep _ _ (fun _ => True) (fun _ _ _ _ => trivial) _ _ reached
    made.grounded trivial).1
  exact deleteFile_ends_of_grounded grounded log found

/-! ## A log that was created, written and recovered -/

def smallStart : FileSystem := emptyFileSystem (emptyDevice [19] 16384 12288 4096 [])

theorem smallStart_made : Made smallStart :=
  emptyFileSystem_made (by decide) (by decide) (by decide) (by decide) []

/-- The metadata log has the creation of the file and then an update with an extent. -/
def writeLog : List Operation :=
  [.openWritable "a.log" false false, .append 0 [97, 98, 99], .fsync 0, .close 0]

def writtenLog : FileSystem := runAll smallConfig 4 writeLog smallStart

def recoveredLog : FileSystem :=
  runAll smallConfig 4 (writeLog ++ [.remount (fun _ => 0) []]) smallStart

/-- In the mount that created the log the deletion ends. -/
theorem deletion_ends_written : Ends (deleteFile "a.log" writtenLog) := by
  have reached : Runs smallConfig (fun _ _ => True) smallStart writtenLog :=
    runs_runAll ⟨trivial, trivial, trivial, trivial, trivial⟩ (by decide +kernel)
  have found : writtenLog.getFile "a.log" = some 0 := by decide +kernel
  have opened : (writtenLog.object 0).file.wal = some 4 := by decide +kernel
  refine (deletion_ends_iff smallConfig smallStart_made reached (by decide) found).mpr fun waits => ?_
  rw [waits.unopened] at opened
  cases opened

/-- After a mount it does not. -/
theorem recovered_deletion_waits :
    Made smallStart ∧ Runs smallConfig (fun _ _ => True) smallStart recoveredLog ∧
      recoveredLog.getFile "a.log" = some 0 ∧ ¬ Ends (deleteFile "a.log" recoveredLog) := by
  refine ⟨smallStart_made, runs_runAll ⟨trivial, trivial, trivial, trivial, trivial, trivial⟩ ?_, ?_, ?_⟩
  · decide +kernel
  · decide +kernel
  · have waits : (deleteFile "a.log" recoveredLog).1 = .error .never := by decide +kernel
    simp [Ends, waits]

end Zwal.LogDeletion
