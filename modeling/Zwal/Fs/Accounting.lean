import Zwal.Fs.Runs

/-! # Capacity accounting

`used_capacity_` of each zone against the extents of all files. The counter is an unsigned
number of 64 bits. Extents that no file has any more and whose space was not given back are
counted as leaked. -/

namespace Zwal.FileSystem

open ZonedBlockDevice FileState

theorem sum_range_change {before after : Nat → Nat} {k n : Nat} (inside : k < n)
    (others : ∀ j, j ≠ k → after j = before j) :
    (∑ j ∈ Finset.range n, after j) + before k = (∑ j ∈ Finset.range n, before j) + after k := by
  have member : k ∈ Finset.range n := Finset.mem_range.mpr inside
  have rest : ∑ j ∈ (Finset.range n).erase k, after j = ∑ j ∈ (Finset.range n).erase k, before j :=
    Finset.sum_congr rfl fun j there => others j (Finset.ne_of_mem_erase there)
  rw [← Finset.add_sum_erase _ after member, ← Finset.add_sum_erase _ before member, rest]
  omega

/-! ## The length of extents in a zone -/

def usedIn (zone : Nat) (extents : List ZoneExtent) : Nat :=
  ((extents.filter fun extent => extent.zone = zone).map ZoneExtent.length).sum

@[simp] theorem usedIn_nil (zone : Nat) : usedIn zone [] = 0 := rfl

@[simp] theorem usedIn_append (zone : Nat) (first second : List ZoneExtent) :
    usedIn zone (first ++ second) = usedIn zone first + usedIn zone second := by
  simp [usedIn]

theorem usedIn_cons (zone : Nat) (extent : ZoneExtent) (extents : List ZoneExtent) :
    usedIn zone (extent :: extents) =
      (if extent.zone = zone then extent.length else 0) + usedIn zone extents := by
  rw [usedIn, List.filter_cons]
  split
  · simp_all [usedIn]
  · simp_all [usedIn]

theorem usedIn_singleton (zone : Nat) (extent : ZoneExtent) :
    usedIn zone [extent] = if extent.zone = zone then extent.length else 0 := by
  rw [usedIn_cons, usedIn_nil, Nat.add_zero]

/-! ## Counters -/

def used (zbd : ZonedBlockDevice) (zone : Nat) : UInt64 := (zbd.zone zone).usedCapacity

theorem used_setZone (zbd : ZonedBlockDevice) (number zone : Nat) (changed : Zone) :
    used (zbd.setZone number changed) zone =
      if zone = number then changed.usedCapacity else used zbd zone := by
  by_cases here : zone = number
  · rw [if_pos here, here, used, zone_setZone]
  · rw [if_neg here, used, zone_setZone_of_ne here]
    rfl

theorem used_of_update {before after : ZonedBlockDevice} {number : Nat} {changed : Zone}
    (zones : after.zone = Function.update before.zone number changed)
    (same : changed.usedCapacity = (before.zone number).usedCapacity) (zone : Nat) :
    used after zone = used before zone := by
  rw [used, zones]
  by_cases here : zone = number
  · subst here
    rw [Function.update_self]
    exact same
  · rw [Function.update_of_ne here]
    rfl

theorem used_addUsed (extents : List ZoneExtent) (zbd : ZonedBlockDevice) (zone : Nat) :
    used (extents.foldl addUsed zbd) zone = used zbd zone + .ofNat (usedIn zone extents) := by
  induction extents generalizing zbd with
  | nil => exact (UInt64.add_zero _).symm
  | cons extent extents induction =>
      rw [List.foldl_cons, induction, usedIn_cons, addUsed, used_setZone]
      by_cases here : zone = extent.zone
      · subst here
        simp only [if_true, used, UInt64.ofNat_add, UInt64.add_assoc]
      · rw [if_neg here, if_neg (Ne.symm here), Nat.zero_add]

theorem used_removeUsed (extents : List ZoneExtent) (zbd : ZonedBlockDevice) (zone : Nat) :
    used (extents.foldl removeUsed zbd) zone = used zbd zone - .ofNat (usedIn zone extents) := by
  induction extents generalizing zbd with
  | nil => exact (UInt64.sub_zero _).symm
  | cons extent extents induction =>
      rw [List.foldl_cons, induction, usedIn_cons, removeUsed, used_setZone]
      by_cases here : zone = extent.zone
      · subst here
        simp only [if_true, used, UInt64.ofNat_add]
        grind
      · rw [if_neg here, if_neg (Ne.symm here), Nat.zero_add]

theorem used_advanceAll (number : Nat) (chunks : List Bytes) (zbd : ZonedBlockDevice) (zone : Nat) :
    used (zbd.advanceAll number chunks) zone = used zbd zone := by
  rw [advanceAll_eq]
  exact used_of_update rfl (by rfl) zone

theorem used_deviceStep {before after : ZonedBlockDevice} (step : DeviceStep before after)
    (zone : Nat) : used after zone = used before zone := by
  cases step with
  | answer => rfl
  | finish => exact used_of_update rfl (by rfl) zone
  | @releaseWal number =>
      rw [releaseUnusedWALZone]
      simp only
      split
      · rfl
      · split
        · split
          · exact used_of_update rfl (by rfl) zone
          · exact used_of_update rfl (by rfl) zone
        · rfl

theorem used_taken {lifetime number : Nat} {before after : ZonedBlockDevice}
    (taken : Taken lifetime before number after) (zone : Nat) : used after zone = used before zone := by
  cases taken with
  | partly => exact used_of_update rfl (by rfl) zone
  | empty => exact used_of_update rfl (by rfl) zone

theorem used_walTaken {wal last : Option Nat} {before after : ZonedBlockDevice} {number log : Nat}
    (taken : WalTaken wal last before number log after) (zone : Nat) :
    used after zone = used before zone := by
  cases taken with
  | group => exact used_of_update rfl (by rfl) zone
  | next => rfl
  | reopened => rfl

/-! ## Steps of a file -/

theorem used_addExtent (header length : Nat) (state : FileState) (zone : Nat) :
    used (FileState.addExtent header length state).zbd zone = used state.zbd zone +
      .ofNat (usedIn zone [⟨state.file.extentStart + header, length, state.activeNumber⟩]) := by
  rw [usedIn_singleton, FileState.addExtent, used_setZone]
  by_cases here : zone = state.activeNumber
  · subst here
    simp [used, active]
  · simp [here, Ne.symm here]

theorem fileStep_accounts {kind : StepKind} {before after : FileState}
    (step : FileStep kind before after) :
    ∃ added, after.file.extents = before.file.extents ++ added ∧
      ∀ zone, used after.zbd zone = used before.zbd zone + .ofNat (usedIn zone added) := by
  have nothing {zbd : ZonedBlockDevice} (same : ∀ zone, used zbd zone = used before.zbd zone) :
      ∃ added, before.file.extents = before.file.extents ++ added ∧
        ∀ zone, used zbd zone = used before.zbd zone + .ofNat (usedIn zone added) :=
    ⟨[], (List.append_nil _).symm, fun zone => (same zone).trans (UInt64.add_zero _).symm⟩
  cases step with
  | device step => exact nothing (used_deviceStep step)
  | takeIo _ _ taken => exact nothing fun zone => used_taken taken zone
  | takeWal _ _ taken | takeWalFailed _ _ taken => exact nothing (used_walTaken taken)
  | leave | close =>
      refine nothing fun zone => ?_
      simp only [returnTokens, letGo]
      split
      all_goals exact used_of_update rfl (by rfl) zone
  | closeFailed => exact nothing fun zone => used_of_update rfl (by rfl) zone
  | write | append => exact nothing (used_advanceAll _ _ _)
  | extend held =>
      refine ⟨_, rfl, fun zone => ?_⟩
      rw [used_addExtent, used_advanceAll]
  | accept => exact nothing fun zone => used_of_update rfl (by rfl) zone
  | addExtent held => exact ⟨_, rfl, used_addExtent _ _ _⟩
  | push =>
      rcases pushed_cases before with same | ⟨number, held, same⟩
      all_goals rw [same]
      · exact nothing fun _ => rfl
      · refine ⟨[⟨before.file.extentStart, before.file.unpushed, number⟩], rfl, fun zone => ?_⟩
        rw [usedIn_singleton, used_setZone]
        by_cases here : zone = number
        · subst here
          simp [used]
        · simp [here, Ne.symm here]
  | persist | syncLog | detach | unlock | openLog | resetLog | cursor | scratch | truncate =>
      exact nothing fun zone => by first | rfl | exact used_of_update rfl (by rfl) zone

/-! ## All files -/

def liveUsed (fs : FileSystem) (zone : Nat) : Nat :=
  ∑ k ∈ Finset.range fs.objects.length, usedIn zone (fs.object k).file.extents

theorem liveUsed_of_le {fs : FileSystem} {n : Nat} (enough : fs.objects.length ≤ n) (zone : Nat) :
    ∑ k ∈ Finset.range n, usedIn zone (fs.object k).file.extents = fs.liveUsed zone := by
  symm
  refine Finset.sum_subset (Finset.range_mono enough) fun k _ outside => ?_
  rw [object_of_length_le (Nat.le_of_not_lt (by simpa using outside))]
  rfl

theorem liveUsed_change {before after : FileSystem} (k : Nat)
    (others : ∀ j, j ≠ k → (after.object j).file.extents = (before.object j).file.extents)
    (zone : Nat) :
    after.liveUsed zone + usedIn zone (before.object k).file.extents =
      before.liveUsed zone + usedIn zone (after.object k).file.extents := by
  have inside : k < before.objects.length + after.objects.length + k + 1 := by omega
  have change := @sum_range_change (fun j => usedIn zone (before.object j).file.extents)
    (fun j => usedIn zone (after.object j).file.extents) _ _ inside
    fun j different => by rw [others j different]
  rw [liveUsed_of_le (by omega), liveUsed_of_le (by omega)] at change
  exact change

theorem liveUsed_same {before after : FileSystem}
    (same : ∀ k, (after.object k).file.extents = (before.object k).file.extents) (zone : Nat) :
    after.liveUsed zone = before.liveUsed zone := by
  have change := liveUsed_change 0 (fun j _ => same j) zone
  rw [same 0] at change
  omega

theorem usedIn_le_liveUsed (fs : FileSystem) (k zone : Nat) :
    usedIn zone (fs.object k).file.extents ≤ fs.liveUsed zone := by
  by_cases inside : k < fs.objects.length
  · exact Finset.single_le_sum (f := fun k => usedIn zone (fs.object k).file.extents)
      (fun _ _ => Nat.zero_le _) (Finset.mem_range.mpr inside)
  · rw [object_of_length_le (Nat.le_of_not_lt inside)]
    exact Nat.zero_le _

/-- The counter of each zone is the length of the extents in it, of files or leaked, as far as
64 bits hold it. -/
def Accounted (leaked : List ZoneExtent) (fs : FileSystem) : Prop :=
  ∀ zone, used fs.zbd zone = .ofNat (fs.liveUsed zone + usedIn zone leaked)

theorem Accounted.same {leaked : List ZoneExtent} {before after : FileSystem}
    (accounted : Accounted leaked before) (counters : ∀ zone, used after.zbd zone = used before.zbd zone)
    (extents : ∀ k, (after.object k).file.extents = (before.object k).file.extents) :
    Accounted leaked after := by
  intro zone
  rw [counters, liveUsed_same extents, accounted zone]

theorem Accounted.add {leaked : List ZoneExtent} {before after : FileSystem}
    (accounted : Accounted leaked before) (k : Nat) {added : List ZoneExtent}
    (others : ∀ j, j ≠ k → (after.object j).file.extents = (before.object j).file.extents)
    (extents : (after.object k).file.extents = (before.object k).file.extents ++ added)
    (counters : ∀ zone, used after.zbd zone = used before.zbd zone + .ofNat (usedIn zone added)) :
    Accounted leaked after := by
  intro zone
  have change := liveUsed_change k others zone
  rw [extents, usedIn_append] at change
  rw [counters, accounted zone, ← UInt64.ofNat_add]
  congr 1
  omega

theorem Accounted.remove {leaked : List ZoneExtent} {before after : FileSystem}
    (accounted : Accounted leaked before) (k : Nat)
    (others : ∀ j, j ≠ k → (after.object j).file.extents = (before.object j).file.extents)
    (extents : (after.object k).file.extents = [])
    (counters : ∀ zone, used after.zbd zone =
      used before.zbd zone - .ofNat (usedIn zone (before.object k).file.extents)) :
    Accounted leaked after := by
  intro zone
  have change := congrArg UInt64.ofNat (liveUsed_change k others zone)
  rw [extents, usedIn_nil] at change
  rw [counters, accounted zone]
  simp only [UInt64.ofNat_add] at change ⊢
  grind

theorem Counted.extents {before after : FileObject} (counted : Counted before after) :
    after.file.extents = before.file.extents := by
  rcases counted with ⟨_, rfl⟩
  rfl

theorem used_unusedReset (answer : Int) (number : Nat) (zbd : ZonedBlockDevice) (zone : Nat) :
    used (unusedReset answer number zbd) zone = used zbd zone := by
  rw [unusedReset]
  split
  · exact used_of_update rfl (by rfl) zone
  · exact used_of_update rfl (by rfl) zone

theorem extents_setObject {fs : FileSystem} {k : Nat} (inside : k < fs.objects.length)
    {object : FileObject} (same : object.file.extents = (fs.object k).file.extents) (j : Nat) :
    ((fs.setObject k object).object j).file.extents = (fs.object j).file.extents := by
  by_cases here : j = k
  · subst here
    rw [object_setObject inside, same]
  · rw [object_setObject_of_ne here]

theorem Accounted.attach {leaked : List ZoneExtent} {fs : FileSystem}
    (accounted : Accounted leaked fs) {k : Nat} (inside : k < fs.objects.length)
    (config : BuildConfig) (buffered : Bool) : Accounted leaked (attachWriter config k buffered fs).2 :=
  accounted.same (fun _ => rfl) (extents_setObject inside rfl)

theorem Accounted.setHandle {leaked : List ZoneExtent} {fs : FileSystem}
    (accounted : Accounted leaked fs) {k : Nat} (inside : k < fs.objects.length)
    (writer : WritableFile) : Accounted leaked (fs.setHandle k writer) :=
  accounted.same (fun _ => rfl) (extents_setObject inside rfl)

theorem Accounted.detach {leaked : List ZoneExtent} {fs : FileSystem}
    (accounted : Accounted leaked fs) {k : Nat} (inside : k < fs.objects.length) :
    Accounted leaked (fs.detached k) :=
  accounted.same (fun _ => rfl) (extents_setObject inside rfl)

theorem Accounted.place {leaked : List ZoneExtent} {fs : FileSystem} {k : Nat} {kind : StepKind}
    {before after : FileState} (inside : k < fs.objects.length) (sees : Sees fs k before)
    (step : FileStep kind before after) (accounted : Accounted leaked fs) :
    Accounted leaked (fs.place k after) := by
  rcases fileStep_accounts step with ⟨added, extents, counters⟩
  have grown : ((fs.place k after).object k).file.extents = (fs.object k).file.extents ++ added := by
    rw [object_place inside, ← sees.file]
    exact extents
  refine accounted.add k (fun j different => (place_counted different _).extents) grown ?_
  rw [place_zbd, ← sees.zbd]
  exact counters

theorem Accounted.placed {leaked : List ZoneExtent} {fs : FileSystem} {k : Nat} {kind : StepKind}
    {before after : FileState} (accounted : Accounted leaked fs) (inside : k < fs.objects.length)
    (sees : Sees fs k before) (steps : FileSteps kind before after) :
    Accounted leaked (fs.place k after) :=
  sees.keep (fun inside sees step accounted => Accounted.place inside sees step accounted) inside steps
    accounted

theorem Coarse.accounted {leaked : List ZoneExtent} {before after : FileSystem}
    (step : Coarse before after) (accounted : Accounted leaked before) : Accounted leaked after := by
  cases step with
  | file inside _ sees step => exact accounted.place inside sees step
  | device step => exact accounted.same (used_deviceStep step) fun _ => rfl
  | deferred status =>
      refine accounted.same (fun zone => ?_) fun _ => rfl
      rw [setZoneDeferredStatus]
      split
      · rfl
      · rfl
  | reset => exact accounted.same (used_unusedReset _ _ _) fun _ => rfl
  | relabel relabelled =>
      exact accounted.same (fun zone => by rw [relabelled.zbd]) fun k => (relabelled.object k).extents
  | attach config buffered inside => exact accounted.attach inside config buffered
  | handle inside => exact accounted.setHandle inside _
  | detach inside => exact accounted.detach inside
  | @destroy k =>
      refine accounted.remove k (fun j different => ?_) ?_ (used_removeUsed _ _)
      · rw [object_destroyed, if_neg different]
      · rw [object_destroyed, if_pos rfl]

theorem FsSteps.accounted {leaked : List ZoneExtent} {before after : FileSystem}
    (steps : FsSteps before after) (accounted : Accounted leaked before) : Accounted leaked after := by
  induction steps with
  | refl => exact accounted
  | tail _ step induction => exact step.coarse.accounted induction

theorem Closing.accounted {leaked : List ZoneExtent} {config : BuildConfig} {fs after : FileSystem}
    {k : Nat} (closing : Closing config fs k after) (inside : k < fs.objects.length)
    (accounted : Accounted leaked fs) : Accounted leaked after := by
  have shut {middle : FileSystem} {start state : FileState} {writer : WritableFile}
      (steps : FsSteps fs middle) (sees : Sees middle k start) (shut : FileSteps .shut start state) :
      Accounted leaked ((middle.place k state).setHandle k writer) := by
    have there := Nat.lt_of_lt_of_le inside steps.length
    refine ((steps.accounted accounted).placed there sees shut).setHandle ?_ writer
    rw [length_place]
    exact there
  cases closing with
  | already => exact accounted
  | stopped _ steps => exact steps.accounted accounted
  | done _ _ _ steps _ _ _ sees closed => exact shut steps sees closed
  | failed _ _ steps sees closed => exact shut steps sees closed

/-! ## Mounting -/

theorem MountStep.accounted {leaked : List ZoneExtent} {before after : FileSystem}
    (step : MountStep before after) (accounted : Accounted leaked before) :
    Accounted leaked after := by
  cases step with
  | note => exact accounted.same (fun _ => rfl) fun _ => rfl
  | @decode file nextFileId =>
      have objects (j : Nat) : ({ before with
          zbd := file.extents.foldl addUsed before.zbd
          objects := before.objects ++ [{ file := file }]
          nextFileId := nextFileId } : FileSystem).object j =
            if j = before.objects.length then { file := file } else before.object j :=
        object_append before { file := file } nextFileId j
      refine @Accounted.add _ _ _ accounted before.objects.length file.extents (fun j different => ?_) ?_
        (used_addUsed _ _)
      · rw [objects, if_neg different]
      · rw [objects, if_pos rfl, object_of_length_le (Nat.le_refl _)]
        rfl
  | names => exact accounted.same (fun _ => rfl) fun _ => rfl
  | @grow k file extents inside same =>
      refine @Accounted.add _ _ _ accounted k extents (fun j different => ?_) ?_ (used_addUsed _ _)
      · exact congrArg (fun object => object.file.extents) (object_setObject_of_ne different _)
      · have held : FileSystem.object (FileSystem.setObject k { before.object k with file := file }
            { before with zbd := extents.foldl addUsed before.zbd }) k =
              { before.object k with file := file } := object_setObject inside _
        rw [held, same]
  | @clear k inside =>
      refine accounted.remove k (fun j different => ?_) ?_ (used_removeUsed _ _)
      · exact congrArg (fun object => object.file.extents) (object_setObject_of_ne different _)
      · exact congrArg (fun object => object.file.extents) (object_setObject inside _)
  | @destroy k =>
      refine accounted.remove k (fun j different => ?_) ?_ (used_removeUsed _ _)
      · rw [object_destroyed, if_neg different]
      · rw [object_destroyed, if_pos rfl]
  | @roll k metaLog =>
      refine accounted.same (fun _ => rfl) fun j => ?_
      exact (markSynced_counted k before j).extents

theorem MountSteps.accounted {leaked : List ZoneExtent} {before after : FileSystem}
    (steps : MountSteps before after) (accounted : Accounted leaked before) :
    Accounted leaked after := by
  induction steps with
  | refl => exact accounted
  | tail _ step induction => exact step.accounted induction

theorem accounted_lostMemory (lost : List (Nat × Nat)) (fs : FileSystem) :
    Accounted [] (fs.lostMemory lost) :=
  fun _ => rfl

/-! ## Garbage collection

The old extents are given back when the copy starts elsewhere. -/

def replaced (pairs : List (ZoneExtent × ZoneExtent)) : List ZoneExtent :=
  (pairs.filter fun pair => pair.1.start ≠ pair.2.start).map Prod.fst

theorem replaced_cons_same (pair : ZoneExtent × ZoneExtent) (pairs : List (ZoneExtent × ZoneExtent))
    (same : pair.1.start = pair.2.start) : replaced (pair :: pairs) = replaced pairs := by
  simp [replaced, same]

theorem replaced_cons_apart (pair : ZoneExtent × ZoneExtent) (pairs : List (ZoneExtent × ZoneExtent))
    (apart : pair.1.start ≠ pair.2.start) : replaced (pair :: pairs) = pair.1 :: replaced pairs := by
  simp [replaced, apart]

theorem used_dropReplaced (pairs : List (ZoneExtent × ZoneExtent)) (zbd : ZonedBlockDevice)
    (zone : Nat) :
    used (dropReplaced zbd pairs) zone = used zbd zone - .ofNat (usedIn zone (replaced pairs)) := by
  have folded : dropReplaced zbd pairs = (replaced pairs).foldl removeUsed zbd := by
    rw [dropReplaced]
    induction pairs generalizing zbd with
    | nil => rfl
    | cons pair pairs induction =>
        rw [List.foldl_cons, induction]
        by_cases same : pair.1.start = pair.2.start
        · rw [replaced_cons_same pair pairs same, if_neg (not_not.mpr same)]
        · rw [replaced_cons_apart pair pairs same, if_pos same, List.foldl_cons]
  rw [folded, used_removeUsed]

/-- No chosen extent starts where the copy of one could start: in the part of a zone that
is still to be written. -/
def Apart (header : Nat) (chosen : List (Nat × Nat)) (extents : List ZoneExtent)
    (zbd : ZonedBlockDevice) : Prop :=
  ∀ extent ∈ extents, (extent.start, extent.length) ∈ chosen → ∀ number ∈ zbd.ioZones,
    extent.start < (zbd.zone number).wp + header ∨
      (zbd.zone number).wp + (zbd.zone number).capacity + header ≤ extent.start

theorem Copied.rest {header : Nat} {before after : ZonedBlockDevice} {extent moved : ZoneExtent}
    (copied : Copied header before extent moved after) (number : Nat) :
    (before.zone number).wp ≤ (after.zone number).wp ∧
      (after.zone number).wp + (after.zone number).capacity =
        (before.zone number).wp + (before.zone number).capacity := by
  cases copied with
  | keep => exact ⟨Nat.le_refl _, rfl⟩
  | @move target chunks replies found room fits shorter =>
      simp only [FileSystem.copied, addUsed, setZone, advanceAll_eq, Function.update_self,
        Function.update_idem]
      by_cases here : number = target
      · subst here
        simp only [Function.update_self]
        omega
      · rw [Function.update_of_ne here]
        exact ⟨Nat.le_refl _, rfl⟩

theorem Apart.copied {header : Nat} {chosen : List (Nat × Nat)} {extents : List ZoneExtent}
    {before after : ZonedBlockDevice} {extent moved : ZoneExtent}
    (apart : Apart header chosen extents before) (copied : Copied header before extent moved after) :
    Apart header chosen extents after := by
  intro other member picked number there
  rw [copied.fixed.ioZones] at there
  have rest := copied.rest number
  have outside := apart other member picked number there
  omega

theorem used_copied (target : Nat) (chunks : List Bytes) (moved : ZoneExtent) (zbd : ZonedBlockDevice)
    (zone : Nat) :
    used (copied target chunks moved zbd) zone = used zbd zone + .ofNat (usedIn zone [moved]) := by
  have counted := used_addUsed [moved] (zbd.advanceAll target chunks) zone
  rw [used_advanceAll] at counted
  exact counted

theorem Migrated.accounts {header : Nat} {chosen : List (Nat × Nat)} {before after : ZonedBlockDevice}
    {extents moved : List ZoneExtent} (migrated : Migrated header chosen before extents moved after) :
    ∃ stuck, (Apart header chosen extents before → stuck = []) ∧ ∀ zone,
      used after zone + .ofNat (usedIn zone extents) = used before zone + .ofNat (usedIn zone moved +
        usedIn zone (replaced (extents.zip moved)) + usedIn zone stuck) := by
  induction migrated with
  | nil => exact ⟨[], fun _ => rfl, fun _ => rfl⟩
  | @keep zbd extent extents moved after _ induction =>
      rcases induction with ⟨stuck, none, counts⟩
      refine ⟨stuck, fun apart => none fun other member => apart other (List.mem_cons_of_mem _ member),
        fun zone => ?_⟩
      have rest := counts zone
      rw [List.zip_cons_cons, replaced_cons_same _ _ rfl, usedIn_cons, usedIn_cons zone extent moved]
      simp only [UInt64.ofNat_add] at rest ⊢
      grind
  | @copy zbd extent target middle extents moved after picked copied _ induction =>
      rcases induction with ⟨stuck, none, counts⟩
      have later (apart : Apart header chosen (extent :: extents) zbd) :
          Apart header chosen extents middle :=
        Apart.copied (fun other member => apart other (List.mem_cons_of_mem _ member)) copied
      cases copied with
      | keep =>
          refine ⟨stuck, fun apart => none (later apart), fun zone => ?_⟩
          have rest := counts zone
          rw [List.zip_cons_cons, replaced_cons_same _ _ rfl, usedIn_cons, usedIn_cons zone extent moved]
          simp only [UInt64.ofNat_add] at rest ⊢
          grind
      | @move number chunks replies found room fits shorter =>
          have counted (zone : Nat) : used { copied number chunks
              ⟨(zbd.zone number).wp + header, extent.length, number⟩ zbd with replies := replies } zone =
                used zbd zone + .ofNat (if number = zone then extent.length else 0) := by
            rw [← usedIn_singleton zone ⟨(zbd.zone number).wp + header, extent.length, number⟩]
            exact used_copied number chunks _ zbd zone
          by_cases same : extent.start = (zbd.zone number).wp + header
          · refine ⟨extent :: stuck, fun apart => ?_, fun zone => ?_⟩
            · have outside := apart extent List.mem_cons_self picked number found.member
              have open' := found.room
              simp only [Zone.isFull, beq_eq_false_iff_ne] at open'
              omega
            · have rest := counts zone
              rw [counted zone] at rest
              rw [List.zip_cons_cons, replaced_cons_same _ _ same, usedIn_cons, usedIn_cons zone _ moved,
                usedIn_cons zone extent stuck]
              simp only [UInt64.ofNat_add] at rest ⊢
              grind
          · refine ⟨stuck, fun apart => none (later apart), fun zone => ?_⟩
            have rest := counts zone
            rw [counted zone] at rest
            rw [List.zip_cons_cons, replaced_cons_apart _ _ same, usedIn_cons, usedIn_cons zone _ moved,
              usedIn_cons zone extent (replaced _)]
            simp only [UInt64.ofNat_add] at rest ⊢
            grind

/-- A pass leaks the extents it could not give back: those whose copy starts at the same
place, and all that were copied when the record is not written. -/
theorem MigrateStep.accounted {device : Nat → UInt8} {chosen : List (Nat × Nat)} {k : Nat}
    {leaked : List ZoneExtent} {before after : FileSystem}
    (step : MigrateStep device chosen k before after) (inside : k < before.objects.length)
    (accounted : Accounted leaked before) :
    ∃ more, Accounted (leaked ++ more) after ∧
      (Apart (headerOf (before.object k).file) chosen (before.object k).file.extents before.zbd →
        0 ≤ (migrateList device (before.object k).file chosen (before.object k).file.extents
          before.zbd).2.replies.headD 0 → more = []) := by
  rcases step.repointed inside with ⟨moved, zbd, copies, repointed, ended⟩
  rcases repointed.object with ⟨count, held⟩
  rcases copies.migrated.accounts with ⟨stuck, none, counts⟩
  have change (zone : Nat) := liveUsed_change k
    (fun j different => (repointed.others j different).extents) zone
  have extents : (after.object k).file.extents = moved := by rw [held]
  rw [extents] at change
  rcases ended with ⟨replies, shorter, same | ⟨negative, same⟩⟩
  · refine ⟨stuck, fun zone => ?_, fun apart _ => none apart⟩
    have counted : used after.zbd zone =
        used zbd zone - .ofNat (usedIn zone (replaced ((before.object k).file.extents.zip moved))) := by
      rw [same, used_dropReplaced]
      rfl
    have total := counts zone
    have live := congrArg UInt64.ofNat (change zone)
    rw [accounted zone] at total
    rw [counted, usedIn_append]
    simp only [UInt64.ofNat_add] at total live ⊢
    grind
  · refine ⟨replaced ((before.object k).file.extents.zip moved) ++ stuck, fun zone => ?_,
      fun _ written => ?_⟩
    · have counted : used after.zbd zone = used zbd zone := by
        rw [same]
        rfl
      have total := counts zone
      have live := congrArg UInt64.ofNat (change zone)
      rw [accounted zone] at total
      rw [counted, usedIn_append, usedIn_append]
      simp only [UInt64.ofNat_add] at total live ⊢
      grind
    · rw [copies.run] at written
      exact absurd negative (not_lt.mpr written)

end Zwal.FileSystem
