import Zwal.Fs.Runs

/-! # Deferred errors

A `ZonedWritableFile` that cannot close its file when it is destroyed hands the error to
`SetZoneDeferredStatus`, and `AllocateIOZone` looks at the status before anything else.
The status is only replaced if it is not OK, and it starts as OK. -/

namespace Zwal.DeferredStatus

open FileSystem ZonedBlockDevice FileState

/-! ## Steps leave the status alone -/

theorem deviceStep_deferred {before after : ZonedBlockDevice} (step : DeviceStep before after) :
    after.zoneDeferredStatus = before.zoneDeferredStatus := by
  cases step with
  | answer | finish => rfl
  | @releaseWal number =>
      rcases releaseUnusedWALZone_cases before number with same | ⟨_, _, _, same⟩
      · rw [same]
      · rw [same]
        rfl

theorem taken_deferred {lifetime number : Nat} {before after : ZonedBlockDevice}
    (taken : Taken lifetime before number after) :
    after.zoneDeferredStatus = before.zoneDeferredStatus := by
  cases taken with
  | partly | empty => rfl

theorem walTaken_deferred {wal last : Option Nat} {before after : ZonedBlockDevice} {number log : Nat}
    (taken : WalTaken wal last before number log after) :
    after.zoneDeferredStatus = before.zoneDeferredStatus := by
  cases taken with
  | group | next | reopened => rfl

theorem advanceAll_deferred (number : Nat) (chunks : List Bytes) (zbd : ZonedBlockDevice) :
    (zbd.advanceAll number chunks).zoneDeferredStatus = zbd.zoneDeferredStatus := by
  rw [advanceAll_eq]

theorem released_deferred (full : Bool) (number : Nat) (state : FileState) :
    (returnTokens full (letGo number state).zbd).zoneDeferredStatus =
      state.zbd.zoneDeferredStatus := by
  cases full with
  | true | false => rfl

theorem fileStep_deferred {kind : StepKind} {before after : FileState}
    (step : FileStep kind before after) :
    after.zbd.zoneDeferredStatus = before.zbd.zoneDeferredStatus := by
  cases step with
  | device step => exact deviceStep_deferred step
  | @takeIo _ number taken _ _ found =>
      have same : taken.zoneDeferredStatus = before.zbd.zoneDeferredStatus := taken_deferred found
      exact same
  | takeWal _ _ taken | takeWalFailed _ _ taken => exact walTaken_deferred taken
  | leave | close => exact released_deferred _ _ before
  | write | append | extend => exact advanceAll_deferred _ _ _
  | push =>
      rcases pushed_cases before with same | ⟨number, held, same⟩
      · rw [same]
      · rw [same]
        rfl
  | closeFailed | accept | addExtent | persist | syncLog | detach | unlock | openLog | resetLog
  | cursor | scratch | truncate => rfl

theorem fileSteps_deferred {kind : StepKind} {before after : FileState}
    (steps : FileSteps kind before after) :
    after.zbd.zoneDeferredStatus = before.zbd.zoneDeferredStatus := by
  induction steps with
  | refl => rfl
  | tail _ step induction => exact (fileStep_deferred step).trans induction

theorem foldl_deferred {change : ZonedBlockDevice → Item → ZonedBlockDevice}
    (same : ∀ zbd item, (change zbd item).zoneDeferredStatus = zbd.zoneDeferredStatus)
    (items : List Item) (zbd : ZonedBlockDevice) :
    (items.foldl change zbd).zoneDeferredStatus = zbd.zoneDeferredStatus := by
  induction items generalizing zbd with
  | nil => rfl
  | cons item items induction => rw [List.foldl_cons, induction, same]

theorem addUsed_deferred (extents : List ZoneExtent) (zbd : ZonedBlockDevice) :
    (extents.foldl addUsed zbd).zoneDeferredStatus = zbd.zoneDeferredStatus :=
  @foldl_deferred _ addUsed (fun _ _ => rfl) extents zbd

theorem removeUsed_deferred (extents : List ZoneExtent) (zbd : ZonedBlockDevice) :
    (extents.foldl removeUsed zbd).zoneDeferredStatus = zbd.zoneDeferredStatus :=
  @foldl_deferred _ removeUsed (fun _ _ => rfl) extents zbd

theorem coarse_unset {before after : FileSystem} (step : Coarse before after)
    (unset : before.zbd.zoneDeferredStatus = none) : after.zbd.zoneDeferredStatus = none := by
  cases step with
  | @file k kind start state _ _ sees step =>
      rw [place_zbd, fileStep_deferred step, sees.zbd]
      exact unset
  | device step => exact (deviceStep_deferred step).trans unset
  | deferred status =>
      rw [setZoneDeferredStatus, unset]
      exact unset
  | reset answer =>
      rw [unusedReset]
      split
      · exact unset
      · exact unset
  | relabel relabelled =>
      rw [relabelled.zbd]
      exact unset
  | attach | handle | detach => exact unset
  | destroy => exact (removeUsed_deferred _ _).trans unset

theorem fsSteps_unset {before after : FileSystem} (steps : FsSteps before after)
    (unset : before.zbd.zoneDeferredStatus = none) : after.zbd.zoneDeferredStatus = none := by
  induction steps with
  | refl => exact unset
  | tail _ step induction => exact coarse_unset step.coarse induction

theorem closing_unset {config : BuildConfig} {fs after : FileSystem} {k : Nat}
    (closing : Closing config fs k after) (unset : fs.zbd.zoneDeferredStatus = none) :
    after.zbd.zoneDeferredStatus = none := by
  have shut {middle : FileSystem} {start state : FileState} (writer : WritableFile)
      (steps : FsSteps fs middle) (sees : Sees middle k start) (shut : FileSteps .shut start state) :
      ((middle.place k state).setHandle k writer).zbd.zoneDeferredStatus = none := by
    have placed : (middle.place k state).zbd.zoneDeferredStatus = none := by
      rw [place_zbd, fileSteps_deferred shut, sees.zbd]
      exact fsSteps_unset steps unset
    exact placed
  cases closing with
  | already => exact unset
  | stopped _ steps => exact fsSteps_unset steps unset
  | done _ _ _ steps _ _ _ sees closed => exact shut _ steps sees closed
  | failed _ _ steps sees closed => exact shut _ steps sees closed

theorem mountStep_deferred {before after : FileSystem} (step : MountStep before after) :
    after.zbd.zoneDeferredStatus = before.zbd.zoneDeferredStatus := by
  cases step with
  | note | names | roll => rfl
  | decode | grow => exact addUsed_deferred _ _
  | clear | destroy => exact removeUsed_deferred _ _

theorem mountSteps_deferred {before after : FileSystem} (steps : MountSteps before after) :
    after.zbd.zoneDeferredStatus = before.zbd.zoneDeferredStatus := by
  induction steps with
  | refl => rfl
  | tail _ step induction => exact (mountStep_deferred step).trans induction

theorem migrated_deferred {header : Nat} {chosen : List (Nat × Nat)} {before after : ZonedBlockDevice}
    {extents moved : List ZoneExtent} (migrated : Migrated header chosen before extents moved after) :
    after.zoneDeferredStatus = before.zoneDeferredStatus := by
  induction migrated with
  | nil => rfl
  | keep _ induction => exact induction
  | copy _ copied _ induction =>
      rw [induction]
      cases copied with
      | keep => rfl
      | move => exact advanceAll_deferred _ _ _

theorem migrateStep_deferred {device : Nat → UInt8} {chosen : List (Nat × Nat)} {k : Nat}
    {before after : FileSystem} (step : MigrateStep device chosen k before after)
    (inside : k < before.objects.length) :
    after.zbd.zoneDeferredStatus = before.zbd.zoneDeferredStatus := by
  rcases step.repointed inside with ⟨moved, zbd, copies, _, replies, _, same | ⟨_, same⟩⟩
  all_goals have copied := migrated_deferred copies.migrated
  · rw [same, dropReplaced, foldl_deferred]
    · exact copied
    · intro zbd pair
      split
      · rfl
      · rfl
  · rw [same]
    exact copied

theorem passage_unset {config : BuildConfig} {before after : FileSystem} {operation : Operation}
    (grounded : Grounded before) (passage : Passage config before after operation)
    (unset : before.zbd.zoneDeferredStatus = none) : after.zbd.zoneDeferredStatus = none := by
  cases passage with
  | call _ steps | idle steps => exact fsSteps_unset steps unset
  | reopen _ _ _ same =>
      rw [same]
      exact unset
  | look inside steps same =>
      rw [same, place_zbd, fileSteps_deferred steps]
      exact unset
  | close _ closing => exact closing_unset closing unset
  | drop _ closing deferred steps =>
      have closed := fsSteps_unset deferred (closing_unset closing unset)
      exact fsSteps_unset steps closed
  | migrate found _ step steps =>
      apply fsSteps_unset steps
      exact (migrateStep_deferred step (grounded.inside found)).trans unset
  | mount mounted steps =>
      apply fsSteps_unset steps
      exact mountSteps_deferred mounted

/-! ## Histories -/

def closeFailure (config : BuildConfig) (fuel : Nat) (operation : Operation) (fs : FileSystem) :
    Option IOStatus :=
  match operation with
  | .destroyWriter k =>
      match (onWriter k (WritableFile.close config fuel) fs).1 with
      | .error failure => some failure
      | .ok () => none
  | _ => none

/-- A state that a run on a new file system reaches, and the first error with which a writer
was destroyed since the device was opened. -/
inductive History (config : BuildConfig) : FileSystem → Option IOStatus → Prop
  | made {fs : FileSystem} (made : Made fs) : History config fs none
  | operation {fs after : FileSystem} {failed : Option IOStatus} {operation : Operation} {fuel : Nat}
      {outcome : Except IOStatus Unit} (earlier : History config fs failed)
      (run : operation.run config fuel fs = (outcome, after)) (ended : operation.Ended outcome) :
      History config after
        (if operation.isMount then none else failed <|> closeFailure config fuel operation fs)

/-- Whatever the device answers, `AllocateIOZone` returns the first error; if there was none,
no error was deferred. -/
def Surfaces (zbd : ZonedBlockDevice) : Option IOStatus → Prop
  | some status => ∀ replies lifetime walIo,
      (allocateIOZone lifetime walIo { zbd with replies := replies }).1 = .error status
  | none => zbd.zoneDeferredStatus = none

theorem closeFailure_ends {config : BuildConfig} {fuel : Nat} {operation : Operation}
    {fs after : FileSystem} {outcome : Except IOStatus Unit}
    (run : operation.run config fuel fs = (outcome, after)) (ended : operation.Ended outcome) :
    closeFailure config fuel operation fs ≠ some .never := by
  intro endless
  cases operation with
  | destroyWriter k =>
      rcases closed : onWriter k (WritableFile.close config fuel) fs with ⟨failure | _, next⟩
      all_goals simp only [closeFailure, closed, Option.some.injEq, reduceCtorEq] at endless
      subst endless
      rw [Operation.run, dropWriter, bind_read] at run
      split at run
      · cases run
        exact ended.1 rfl
      · rw [destroyWriter, bind_attempt closed] at run
        cases run
        exact ended.1 rfl
  | _ => cases endless

theorem history_unset {config : BuildConfig} {fs : FileSystem} {failed : Option IOStatus}
    (history : History config fs failed) :
    Grounded fs ∧ fs.zbd.zoneDeferredStatus = none ∧ failed ≠ some .never := by
  induction history with
  | made made => exact ⟨made.grounded, made.deferred, by simp⟩
  | @operation fs after failed operation fuel outcome earlier run ended induction =>
      rcases induction with ⟨grounded, unset, ends⟩
      have passage := operation_passage grounded run ended
      refine ⟨passage.grounded grounded, passage_unset grounded passage unset, ?_⟩
      have next := closeFailure_ends run ended
      split
      · simp
      · cases failed with
        | none => exact next
        | some status => exact ends

/-! ## Allocation without failing requests -/

/-- With an answer to every request, nothing but an endless wait keeps a call from returning. -/
def Untroubled (outcome : Except IOStatus Value) : Prop :=
  ∀ failure, outcome = .error failure → failure = .never

theorem finishCheapestIOZone_untroubled {zbd : ZonedBlockDevice} (script : zbd.replies = []) :
    ∃ after, finishCheapestIOZone zbd = (.ok (), after) ∧ after.replies = [] := by
  rw [finishCheapestIOZone, bind_read]
  cases zbd.finishVictim with
  | none => exact ⟨zbd, rfl, script⟩
  | some victim =>
      have answered : 0 ≤ zbd.replies.headD 0 := by
        rw [script]
        decide
      have finish : ∃ next, finishZone victim zbd = (.ok (), next) ∧ next.replies = [] := by
        rw [finishZone, bind_of_ok (request_of_answered answered)]
        exact ⟨_, rfl, congrArg List.tail script⟩
      rcases finish with ⟨next, run, quiet⟩
      refine ⟨next.putActiveIOZoneToken, ?_, quiet⟩
      simp only
      rw [bind_of_ok run]
      rfl

theorem finishUntilToken_untroubled (fuel : Nat) {zbd : ZonedBlockDevice} (script : zbd.replies = []) :
    Untroubled (finishUntilToken fuel zbd).1 := by
  intro failure run
  induction fuel generalizing zbd with
  | zero =>
      cases run
      rfl
  | succ fuel induction =>
      rw [finishUntilToken] at run
      by_cases available : zbd.activeIoZones < zbd.maxNrActiveIoZones
      · rw [bind_of_ok (getActiveIOZoneToken_true available)] at run
        cases run
      · rw [bind_of_ok (getActiveIOZoneToken_false available)] at run
        rcases finishCheapestIOZone_untroubled script with ⟨after, finished, quiet⟩
        simp only [Bool.false_eq_true, if_false] at run
        rw [bind_attempt finished] at run
        exact induction quiet run

theorem openEmptyIOZone_untroubled (lifetime : Nat) {zbd : ZonedBlockDevice}
    (script : zbd.replies = []) (gotToken : Bool) :
    Untroubled (openEmptyIOZone lifetime gotToken zbd).1 := by
  intro failure run
  have empty (next : ZonedBlockDevice) : (allocateEmptyZone lifetime next).1 ≠ .error failure := by
    rw [allocateEmptyZone, bind_read]
    cases next.emptyIOZone with
    | some number => exact fun same => by cases same
    | none => exact fun same => by cases same
  rw [openEmptyIOZone, bind_read] at run
  cases gotToken with
  | true => exact absurd run (empty zbd)
  | false =>
      simp only [Bool.false_eq_true, if_false] at run
      have quiet := finishUntilToken_untroubled (zbd.ioZones.length + 1) script
      rcases finished : finishUntilToken (zbd.ioZones.length + 1) zbd with ⟨stopped | _, next⟩
      all_goals rw [finished] at quiet
      · rw [bind_of_error finished] at run
        cases run
        exact quiet _ rfl
      · rw [bind_of_ok finished] at run
        exact absurd run (empty next)

theorem chooseIOZone_untroubled (lifetime : Nat) {zbd : ZonedBlockDevice}
    (script : zbd.replies = []) : Untroubled (chooseIOZone lifetime zbd).1 := by
  intro failure run
  rw [chooseIOZone, bind_read] at run
  generalize zbd.getBestOpenZoneMatch lifetime 0 = best at run
  rcases best with ⟨bestDiff, candidate⟩
  simp only at run
  split at run
  · cases candidate with
    | none => cases run
    | some number => cases run
  · have token : ∃ gotToken next, getActiveIOZoneTokenIfAvailable zbd = (.ok gotToken, next) ∧
        next.replies = [] := by
      by_cases available : zbd.activeIoZones < zbd.maxNrActiveIoZones
      · exact ⟨true, _, getActiveIOZoneToken_true available, script⟩
      · exact ⟨false, _, getActiveIOZoneToken_false available, script⟩
    rcases token with ⟨gotToken, next, taken, quiet⟩
    rw [bind_of_ok taken] at run
    cases candidate with
    | none => exact openEmptyIOZone_untroubled lifetime quiet gotToken failure run
    | some number =>
        simp only at run
        split at run
        · cases run
        · exact openEmptyIOZone_untroubled lifetime quiet gotToken failure run

theorem allocateIOZone_untroubled (lifetime : Nat) {zbd : ZonedBlockDevice}
    (script : zbd.replies = []) (unset : zbd.zoneDeferredStatus = none) :
    Untroubled (allocateIOZone lifetime true zbd).1 := by
  intro failure run
  rw [allocateIOZone, bind_read, unset]
    at run
  simp only [if_true] at run
  by_cases available : zbd.openIoZones < (zbd.maxNrOpenIoZones : Int)
  · have token : waitForOpenIOZoneToken true zbd =
        (.ok (), { zbd with openIoZones := zbd.openIoZones + 1 }) := by
      rw [waitForOpenIOZoneToken]
      exact if_pos available
    rw [bind_of_ok token] at run
    apply @chooseIOZone_untroubled lifetime { zbd with openIoZones := zbd.openIoZones + 1 } script
    exact run
  · have token : waitForOpenIOZoneToken true zbd = (.error .never, zbd) := by
      rw [waitForOpenIOZoneToken]
      exact if_neg available
    rw [bind_of_error token] at run
    cases run
    rfl

/-- In every run, deferred errors surface exactly as long as there is none. -/
theorem deferred_error_surfaces_iff {config : BuildConfig} {fs : FileSystem}
    {failed : Option IOStatus} (history : History config fs failed) :
    Surfaces fs.zbd failed ↔ failed = none := by
  rcases history_unset history with ⟨_, unset, ends⟩
  constructor
  · intro surfaces
    cases failed with
    | none => rfl
    | some status =>
        have refused := surfaces [] 0 true
        have untroubled := @allocateIOZone_untroubled 0 { fs.zbd with replies := [] } rfl unset
        exact absurd (congrArg some (untroubled status refused)) ends
  · intro fine
    subst fine
    exact unset

def answering (replies : List Int) : FileSystem :=
  emptyFileSystem (emptyDevice [19, 20] 1024 640 64 replies)

theorem answering_made (replies : List Int) : Made (answering replies) :=
  emptyFileSystem_made (by decide) (by decide) (by decide) (by decide) replies

theorem History.returns {config : BuildConfig} {fs : FileSystem} {failed next : Option IOStatus}
    (earlier : History config fs failed) (operation : Operation) (fuel : Nat)
    (returned : (operation.run config fuel fs).1 = .ok ())
    (first : (if operation.isMount then none else failed <|> closeFailure config fuel operation fs) =
      next) : History config (operation.run config fuel fs).2 next := by
  subst first
  exact .operation earlier (Prod.ext returned rfl) ⟨by simp, fun _ => rfl⟩

/-- A file is written, and its writer destroyed without a call of `Close`. -/
def written (replies : List Int) : FileSystem :=
  runAll smallConfig 4 [.openWritable "/a" false false, .append 0 [1, 2, 3]] (answering replies)

theorem written_history {replies : List Int} (opened : ((Operation.openWritable "/a" false false).run
      smallConfig 4 (answering replies)).1 = .ok ())
    (appended : ((Operation.append 0 [1, 2, 3]).run smallConfig 4
      ((Operation.openWritable "/a" false false).run smallConfig 4 (answering replies)).2).1 = .ok ()) :
    History smallConfig (written replies) none :=
  ((History.made (answering_made replies)).returns _ 4 opened rfl).returns _ 4 appended rfl

theorem deferred_error_surfaces_closed :
    History smallConfig ((Operation.destroyWriter 0).run smallConfig 4 (written [])).2 none ∧
      Surfaces ((Operation.destroyWriter 0).run smallConfig 4 (written [])).2.zbd none := by
  have history : History smallConfig ((Operation.destroyWriter 0).run smallConfig 4 (written [])).2
      none :=
    (written_history (by decide +kernel) (by decide +kernel)).returns (.destroyWriter 0) 4
      (by decide +kernel) (by decide +kernel)
  exact ⟨history, (deferred_error_surfaces_iff history).mpr rfl⟩

/-- The device refuses the last write of a file, nobody closes the file, and the next
allocation is served. -/
theorem failed_close_vanishes :
    History smallConfig ((Operation.destroyWriter 0).run smallConfig 4 (written [0, 0, -1])).2
      (some (.ioError "pwrite")) ∧
    (allocateIOZone 0 false ((Operation.destroyWriter 0).run smallConfig 4 (written [0, 0, -1])).2.zbd).1 =
      .ok (some 20) := by
  constructor
  · exact (written_history (by decide +kernel) (by decide +kernel)).returns (.destroyWriter 0) 4
      (by decide +kernel) (by decide +kernel)
  · decide +kernel

end Zwal.DeferredStatus
