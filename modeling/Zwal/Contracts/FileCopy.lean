import Zwal.Util.CopyFile

/-! # A copy is faithful or fails

`zenfs_tool_copy_file` keeps the status of `Append` in the variable the next `Read`
overwrites, so only an error of the last `Append` is seen; and a `Read` that returns nothing
before the end of the file is made again. -/

namespace Zwal.FileCopy

open Copying ZoneFsBackend

/-- After `rounds` appends the reads of a file are over: everything was read or a `Read`
failed. -/
inductive Ends : (reads : Nat → Except IOStatus Nat) → (left rounds : Nat) → (failed : Bool) → Prop
  | all {reads} : Ends reads 0 0 false
  | failed {reads left error} : left ≠ 0 → reads 0 = .error error → Ends reads left 0 true
  | round {reads left count rounds failed} : left ≠ 0 → reads 0 = .ok count →
      Ends (rest reads) (left - min count (min left bufferSz)) rounds failed →
      Ends reads left (rounds + 1) failed

structure Copied (copying : Copying) (s : Except IOStatus Unit) (rounds : Nat) (failed : Bool)
    (outcome : Except IOStatus Unit) (after : Copying) : Prop where
  appended : after.appended = copying.appended ++ (List.range rounds).map fun round => status (copying.appends round)
  fsync : after.fsync = copying.fsync
  stopped : failed = true → ∃ error, outcome = .error error
  /-- The status is that of the last `Append`. -/
  last : failed = false → outcome = if rounds = 0 then s else status (copying.appends (rounds - 1))
  received : failed = false → (∀ round < rounds, copying.appends round = none) →
    after.received = copying.received ++ copying.source

theorem copyLoop_zero (fuel : Nat) (s : Except IOStatus Unit) (copying : Copying) :
    copyLoop fuel s 0 copying = (.ok s, copying) := by
  unfold copyLoop
  rw [if_pos rfl]
  rfl

theorem copyLoop_failed {fuel left : Nat} {s : Except IOStatus Unit} {copying : Copying} {error : IOStatus}
    (some : left ≠ 0) (fails : copying.reads 0 = .error error) :
    copyLoop (fuel + 1) s left copying = (.ok (.error error), { copying with reads := rest copying.reads }) := by
  have run : read (min left bufferSz) copying =
      (.ok (.error error), { copying with reads := rest copying.reads }) := by
    simp only [Copying.read, fails]
  rw [copyLoop, if_neg some]
  exact bind_of_ok run

/-- The state after a `Read` and an `Append`. -/
def afterRound (count : Nat) (copying : Copying) : Copying :=
  { copying with
    reads := rest copying.reads
    appends := rest copying.appends
    source := copying.source.drop count
    received := copying.received ++ (match copying.appends 0 with
      | none => copying.source.take count
      | some (_, taken) => (copying.source.take count).take taken)
    appended := copying.appended ++ [status (copying.appends 0)] }

theorem copyLoop_round {fuel : Nat} {s : Except IOStatus Unit} {copying : Copying} {count : Nat}
    (some : copying.source.length ≠ 0) (reads : copying.reads 0 = .ok count) :
    copyLoop (fuel + 1) s copying.source.length copying =
      copyLoop fuel (status (copying.appends 0))
        (copying.source.length - min count (min copying.source.length bufferSz))
        (afterRound (min count (min copying.source.length bufferSz)) copying) := by
  have run : read (min copying.source.length bufferSz) copying =
      (.ok (.ok (copying.source.take (min count (min copying.source.length bufferSz)))), { copying with
        reads := rest copying.reads,
        source := copying.source.drop (min count (min copying.source.length bufferSz)) }) := by
    simp only [Copying.read, reads]
  rw [copyLoop, if_neg some]
  refine (bind_of_ok run).trans ?_
  simp only
  rw [bind_of_ok (show append _ _ = (.ok (status (copying.appends 0)), afterRound _ copying) from rfl),
    List.length_take, Nat.min_eq_left (by omega)]

theorem Copied.round {copying after : Copying} {s outcome : Except IOStatus Unit} {count rounds : Nat}
    {failed : Bool}
    (copied : Copied (afterRound count copying) (status (copying.appends 0)) rounds failed outcome after) :
    Copied copying s (rounds + 1) failed outcome after where
  appended := by
    rw [copied.appended, List.range_succ_eq_map]
    simp [afterRound, rest]
  fsync := copied.fsync
  stopped := copied.stopped
  last := by
    intro finished
    rw [copied.last finished, if_neg (Nat.succ_ne_zero rounds), Nat.add_sub_cancel]
    cases rounds with
    | zero => rfl
    | succ rounds => rfl
  received := by
    intro finished fine
    rw [copied.received finished fun round less => fine (round + 1) (by omega)]
    simp [afterRound, fine 0 (by omega)]

theorem copyLoop_copied {fuel : Nat} {s outcome : Except IOStatus Unit} {copying after : Copying}
    (run : copyLoop fuel s copying.source.length copying = (.ok outcome, after)) :
    ∃ rounds failed, Ends copying.reads copying.source.length rounds failed ∧
      Copied copying s rounds failed outcome after := by
  induction fuel generalizing s copying with
  | zero =>
      by_cases nothing : copying.source.length = 0
      · rw [nothing, copyLoop_zero] at run
        cases run
        rw [nothing]
        have empty := List.length_eq_zero_iff.mp nothing
        exact ⟨0, false, .all, by simp, rfl, by simp, by simp, by simp [empty]⟩
      · rw [copyLoop, if_neg nothing] at run
        cases run
  | succ fuel induction =>
      by_cases nothing : copying.source.length = 0
      · rw [nothing, copyLoop_zero] at run
        cases run
        rw [nothing]
        have empty := List.length_eq_zero_iff.mp nothing
        exact ⟨0, false, .all, by simp, rfl, by simp, by simp, by simp [empty]⟩
      · cases reads : copying.reads 0 with
        | error error =>
            rw [copyLoop_failed nothing reads] at run
            cases run
            exact ⟨0, true, .failed nothing reads, by simp, rfl, fun _ => ⟨error, rfl⟩, by simp, by simp⟩
        | ok count =>
            rw [copyLoop_round nothing reads] at run
            have length : (afterRound (min count (min copying.source.length bufferSz)) copying).source.length =
                copying.source.length - min count (min copying.source.length bufferSz) := List.length_drop
            rw [← length] at run
            rcases induction run with ⟨rounds, failed, ends, copied⟩
            rw [length] at ends
            exact ⟨rounds + 1, failed, .round nothing reads ends, copied.round⟩

theorem Ends.copyLoop_returns {reads : Nat → Except IOStatus Nat} {left rounds : Nat} {failed : Bool}
    (ends : Ends reads left rounds failed) {copying : Copying} {s : Except IOStatus Unit}
    (answers : copying.reads = reads) (length : copying.source.length = left) :
    ∃ fuel outcome after, copyLoop fuel s copying.source.length copying = (.ok outcome, after) := by
  induction ends generalizing copying s with
  | all => exact ⟨0, _, _, by rw [length]; exact copyLoop_zero 0 s copying⟩
  | failed some fails =>
      subst answers length
      exact ⟨1, _, _, copyLoop_failed some fails⟩
  | @round reads left count rounds failed some reading _ induction =>
      subst answers length
      rcases @induction (afterRound (min count (min copying.source.length bufferSz)) copying)
        (status (copying.appends 0)) rfl List.length_drop with ⟨fuel, outcome, after, run⟩
      refine ⟨fuel + 1, outcome, after, ?_⟩
      rw [copyLoop_round some reading]
      have length : (afterRound (min count (min copying.source.length bufferSz)) copying).source.length =
          copying.source.length - min count (min copying.source.length bufferSz) := List.length_drop
      rw [← length]
      exact run

theorem Ends.unique {reads : Nat → Except IOStatus Nat} {left one two : Nat} {first second : Bool}
    (here : Ends reads left one first) (there : Ends reads left two second) : one = two ∧ first = second := by
  induction here generalizing two second with
  | all =>
      cases there with
      | all => exact ⟨rfl, rfl⟩
      | failed some _ => exact absurd rfl some
      | round some _ _ => exact absurd rfl some
  | failed some fails =>
      cases there with
      | all => exact absurd rfl some
      | failed _ _ => exact ⟨rfl, rfl⟩
      | round _ reading _ => simp [fails] at reading
  | round some reading _ induction =>
      cases there with
      | all => exact absurd rfl some
      | failed _ fails => simp [reading] at fails
      | round _ again others =>
          cases reading.symm.trans again
          rcases induction others with ⟨rounds, failed⟩
          exact ⟨congrArg Nat.succ rounds, failed⟩

/-! ## The file -/

def Faithful (source : Bytes) (outcome : Except IOStatus Unit) (after : Copying) : Prop :=
  outcome = .ok () → (∀ status ∈ after.appended, status = .ok ()) ∧ after.synced = some (.ok ()) ∧
    after.received = source

structure Fresh (copying : Copying) : Prop where
  received : copying.received = []
  appended : copying.appended = []

def Unopened (copying : Copying) : Prop :=
  (∃ error, copying.getFileSize = .error error) ∨ (∃ error, copying.newSequentialFile = .error error) ∨
    (∃ error, copying.newWritableFile = .error error) ∨ copying.allocated = false

/-- No `Append` fails, unless a `Read` after it, the last `Append` or `Fsync` fails as well. -/
def Noticed (copying : Copying) (rounds : Nat) (failed : Bool) : Prop :=
  failed = true ∨ (∀ round < rounds, copying.appends round = none) ∨
    (rounds ≠ 0 ∧ copying.appends (rounds - 1) ≠ none) ∨ ∃ error, copying.fsync = .error error

def finish : (s : Except IOStatus Unit) → CopyProgram (Except IOStatus Unit)
  | .error error => pure (.error error)
  | .ok () => sync

theorem finish_returns (s : Except IOStatus Unit) (copying : Copying) :
    ∃ outcome after, finish s copying = (.ok outcome, after) := by
  cases s with
  | error error => exact ⟨_, _, rfl⟩
  | ok value => exact ⟨_, _, rfl⟩

theorem zenfsToolCopyFile_cases (copying : Copying) :
    (Unopened copying ∧ ∀ fuel, ∃ error, zenfsToolCopyFile fuel copying = (.ok (.error error), copying)) ∨
      (¬ Unopened copying ∧ ∀ fuel, zenfsToolCopyFile fuel copying =
        (copyLoop fuel (.ok ()) copying.source.length >>= finish) copying) := by
  simp only [zenfsToolCopyFile, bind_read]
  cases size : copying.getFileSize with
  | error error => exact .inl ⟨.inl ⟨error, size⟩, fun _ => ⟨error, rfl⟩⟩
  | ok _ =>
      cases source : copying.newSequentialFile with
      | error error => exact .inl ⟨.inr (.inl ⟨error, source⟩), fun _ => ⟨error, rfl⟩⟩
      | ok _ =>
          cases target : copying.newWritableFile with
          | error error => exact .inl ⟨.inr (.inr (.inl ⟨error, target⟩)), fun _ => ⟨error, rfl⟩⟩
          | ok _ =>
              cases buffer : copying.allocated with
              | false => exact .inl ⟨.inr (.inr (.inr buffer)), fun _ => ⟨_, rfl⟩⟩
              | true =>
                  right
                  refine ⟨by simp [Unopened, size, source, target, buffer], fun fuel => ?_⟩
                  simp only [if_true]
                  rfl

theorem status_eq_ok {answer : Option (IOStatus × Nat)} : status answer = .ok () ↔ answer = none := by
  cases answer with
  | none => simp [status]
  | some answer => simp [status]

theorem Copied.faithful_iff {copying middle after : Copying} {s outcome : Except IOStatus Unit} {rounds : Nat}
    {failed : Bool} (fresh : Fresh copying) (copied : Copied copying (.ok ()) rounds failed s middle)
    (run : finish s middle = (.ok outcome, after)) :
    Faithful copying.source outcome after ↔ Noticed copying rounds failed := by
  cases s with
  | error error =>
      cases run
      refine ⟨fun _ => ?_, fun _ returned => by cases returned⟩
      cases failed with
      | true => exact .inl rfl
      | false =>
          have last := copied.last rfl
          by_cases none : rounds = 0
          · rw [if_pos none] at last
            cases last
          · rw [if_neg none] at last
            refine .inr (.inr (.inl ⟨none, fun fine => ?_⟩))
            rw [fine, status] at last
            cases last
  | ok value =>
      have finished : failed = false := by
        cases failed with
        | false => rfl
        | true =>
            rcases copied.stopped rfl with ⟨error, stopped⟩
            cases stopped
      subst finished
      cases run
      cases synced : copying.fsync with
      | error error =>
          refine ⟨fun _ => .inr (.inr (.inr ⟨error, synced⟩)), fun _ returned => ?_⟩
          rw [copied.fsync, synced] at returned
          cases returned
      | ok value =>
          constructor
          · intro faithful
            rcases faithful (copied.fsync.trans synced) with ⟨fine, -, -⟩
            refine .inr (.inl fun round less => status_eq_ok.mp (fine _ ?_))
            simp only [copied.appended, List.mem_append, List.mem_map, List.mem_range]
            exact .inr ⟨round, less, rfl⟩
          · intro noticed _
            have fine : ∀ round < rounds, copying.appends round = none := by
              rcases noticed with stopped | fine | ⟨some, fails⟩ | ⟨error, fails⟩
              · cases stopped
              · exact fine
              · have last := copied.last rfl
                rw [if_neg some] at last
                exact absurd (status_eq_ok.mp last.symm) fails
              · rw [synced] at fails
                cases fails
            refine ⟨fun status member => ?_, congrArg some (copied.fsync.trans synced), ?_⟩
            · simp only [copied.appended, fresh.appended, List.nil_append, List.mem_map, List.mem_range] at member
              rcases member with ⟨round, less, rfl⟩
              exact status_eq_ok.mpr (fine round less)
            · rw [copied.received rfl fine, fresh.received, List.nil_append]

theorem copyFile_iff {copying : Copying} (fresh : Fresh copying) :
    (∃ fuel outcome after, zenfsToolCopyFile fuel copying = (.ok outcome, after) ∧
        Faithful copying.source outcome after) ↔
      Unopened copying ∨ ∃ rounds failed,
        Ends copying.reads copying.source.length rounds failed ∧ Noticed copying rounds failed := by
  rcases zenfsToolCopyFile_cases copying with ⟨unopened, run⟩ | ⟨opened, run⟩
  · refine ⟨fun _ => .inl unopened, fun _ => ?_⟩
    rcases run 0 with ⟨error, returned⟩
    exact ⟨0, _, _, returned, by simp [Faithful]⟩
  · simp only [run, opened, false_or]
    constructor
    · rintro ⟨fuel, outcome, after, returned, faithful⟩
      rcases loop : copyLoop fuel (.ok ()) copying.source.length copying with ⟨⟨⟩ | s, middle⟩
      · rw [bind_of_error loop] at returned
        cases returned
      · rw [bind_of_ok loop] at returned
        rcases copyLoop_copied loop with ⟨rounds, failed, ends, copied⟩
        exact ⟨rounds, failed, ends, (copied.faithful_iff fresh returned).mp faithful⟩
    · rintro ⟨rounds, failed, ends, noticed⟩
      rcases @Ends.copyLoop_returns _ _ _ _ ends copying (.ok ()) rfl rfl with ⟨fuel, s, middle, loop⟩
      rcases copyLoop_copied loop with ⟨others, stopped, again, copied⟩
      rcases ends.unique again with ⟨rfl, rfl⟩
      rcases finish_returns s middle with ⟨outcome, after, finished⟩
      refine ⟨fuel, outcome, after, ?_, (copied.faithful_iff fresh finished).mpr noticed⟩
      rw [bind_of_ok loop, finished]

def fourBytes (reads : Nat → Except IOStatus Nat) (appends : Nat → Option (IOStatus × Nat)) : Copying where
  source := [1, 2, 3, 4]
  received := []
  getFileSize := .ok ()
  newSequentialFile := .ok ()
  newWritableFile := .ok ()
  allocated := true
  reads := reads
  appends := appends
  fsync := .ok ()
  appended := []
  synced := none

/-- Short reads, and a copy in two parts. -/
theorem copyFile_in_parts :
    Fresh (fourBytes (fun _ => .ok 2) fun _ => none) ∧
      ∃ fuel outcome after,
        zenfsToolCopyFile fuel (fourBytes (fun _ => .ok 2) fun _ => none) = (.ok outcome, after) ∧
        Faithful [1, 2, 3, 4] outcome after := by
  refine ⟨⟨rfl, rfl⟩, (copyFile_iff ⟨rfl, rfl⟩).mpr (.inr ⟨2, false, ?_, .inr (.inl fun _ _ => rfl)⟩)⟩
  exact .round (by decide) rfl (.round (by decide) rfl .all)

theorem copyLoop_stalls {copying : Copying} (some : copying.source.length ≠ 0)
    (stalled : copying.reads = fun _ => .ok 0) (fuel : Nat) (s : Except IOStatus Unit) :
    (copyLoop fuel s copying.source.length copying).1 = .error () := by
  induction fuel generalizing copying s with
  | zero =>
      rw [copyLoop, if_neg some]
      rfl
  | succ fuel induction =>
      have reading : copying.reads 0 = .ok 0 := by rw [stalled]
      rw [copyLoop_round some reading, Nat.zero_min]
      have again := @induction (afterRound 0 copying) some (by rw [afterRound, stalled]; rfl)
        (status (copying.appends 0))
      exact again

/-- The first half is lost, as the `Read` after it is fine; and an empty `Read` before the end
of the file keeps the tool in its loop. -/
theorem lost_chunk_goes_unnoticed :
    Fresh (fourBytes (fun _ => .ok 2) fun call => if call = 0 then some (.ioError "append", 0) else none) ∧
      (zenfsToolCopyFile 2
        (fourBytes (fun _ => .ok 2) fun call => if call = 0 then some (.ioError "append", 0) else none)).1 =
          .ok (.ok ()) ∧
      (zenfsToolCopyFile 2 (fourBytes (fun _ => .ok 2)
        fun call => if call = 0 then some (.ioError "append", 0) else none)).2.received = [3, 4] ∧
      (zenfsToolCopyFile 2 (fourBytes (fun _ => .ok 2)
        fun call => if call = 0 then some (.ioError "append", 0) else none)).2.appended =
          [.error (.ioError "append"), .ok ()] ∧
      ∀ fuel, (zenfsToolCopyFile fuel (fourBytes (fun _ => .ok 0) fun _ => none)).1 = .error () := by
  refine ⟨⟨rfl, rfl⟩, by rfl, by rfl, by rfl, fun fuel => ?_⟩
  rcases zenfsToolCopyFile_cases (fourBytes (fun _ => .ok 0) fun _ => none) with ⟨unopened, -⟩ | ⟨-, run⟩
  · simp [Unopened, fourBytes] at unopened
  · have stalls := @copyLoop_stalls (fourBytes (fun _ => .ok 0) fun _ => none) (by decide) rfl fuel (.ok ())
    rcases loop : copyLoop fuel (.ok ()) _ (fourBytes (fun _ => .ok 0) fun _ => none) with ⟨outcome, after⟩
    rw [loop] at stalls
    subst stalls
    rw [run, bind_of_error loop]

end Zwal.FileCopy
