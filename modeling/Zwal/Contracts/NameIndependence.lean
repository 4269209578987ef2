import Zwal.Contracts.CapacityAccounting
import Zwal.Contracts.FileTable
import Zwal.File.SameData

/-! # Contents and names

`RenameFile`, `LinkFile` and `DeleteFile` leave the data of a file that keeps a name as it
is, and spare the zones it lies in. Whether a file is read as a write-ahead log depends on
the first of its names. -/

namespace Zwal.NameIndependence

open FileSystem FileState ZonedBlockDevice FileTable CapacityAccounting

/-! ## What the device is asked to do -/

def Spares (extents : List ZoneExtent) : IoEvent → Prop
  | .reset zone _ => ∀ extent ∈ extents, extent.zone = zone → extent.length = 0
  | .write _ | .zoneAppend _ | .lose _ _ => False
  | _ => True

/-- What is done to the device spares the extents, and takes no token and no zone. -/
structure Calm (extents : List ZoneExtent) (before after : ZonedBlockDevice) : Prop where
  events : ∃ events, after.trace = before.trace ++ events ∧ ∀ event ∈ events, Spares extents event
  fixed : Fixed before after
  busy : ∀ number, (after.zone number).busy = (before.zone number).busy
  openIoZones : after.openIoZones = before.openIoZones
  activeIoZones : after.activeIoZones ≤ before.activeIoZones

variable {extents : List ZoneExtent}

theorem Calm.refl (zbd : ZonedBlockDevice) : Calm extents zbd zbd :=
  ⟨⟨[], by simp⟩, .refl zbd, fun _ => rfl, rfl, Int.le_refl _⟩

theorem Calm.trans {first second third : ZonedBlockDevice} (one : Calm extents first second)
    (two : Calm extents second third) : Calm extents first third where
  events := by
    rcases one.events with ⟨early, added, spared⟩
    rcases two.events with ⟨late, more, kept⟩
    refine ⟨early ++ late, by rw [more, added, List.append_assoc], fun event member => ?_⟩
    exact (List.mem_append.mp member).elim (spared event) (kept event)
  fixed := one.fixed.trans two.fixed
  busy number := (two.busy number).trans (one.busy number)
  openIoZones := two.openIoZones.trans one.openIoZones
  activeIoZones := Int.le_trans two.activeIoZones one.activeIoZones

theorem Calm.asReadable {before after : ZonedBlockDevice} (calm : Calm extents before after)
    (replies : List Int) :
    AsReadable { before with replies := replies } { after with replies := replies } :=
  ⟨rfl, calm.fixed.blockSize, calm.fixed.walZones, calm.busy, calm.openIoZones, calm.fixed.maxOpen,
    calm.activeIoZones, calm.fixed.maxActive⟩

theorem Calm.record {before after : ZonedBlockDevice} {number : Nat} {changed : Zone}
    {event : IoEvent} (spared : Spares extents event)
    (trace : after.trace = before.trace ++ [event])
    (zone : after.zone = Function.update before.zone number changed)
    (busy : changed.busy = (before.zone number).busy) (fixed : Fixed before after)
    (openIoZones : after.openIoZones = before.openIoZones)
    (activeIoZones : after.activeIoZones ≤ before.activeIoZones) : Calm extents before after where
  events := ⟨[event], trace, fun other member => by rwa [List.mem_singleton.mp member]⟩
  fixed := fixed
  busy other := by
    rw [zone, Function.update_apply]
    split
    · rename_i here
      rw [here, busy]
    · rfl
  openIoZones := openIoZones
  activeIoZones := activeIoZones

theorem deviceStep_calm {before after : ZonedBlockDevice} (step : DeviceStep before after) :
    Calm extents before after := by
  have fixed := step.fixed
  cases step with
  | answer => exact ⟨⟨[], by simp⟩, fixed, fun _ => rfl, rfl, Int.le_refl _⟩
  | @finish number =>
      have spared : Spares extents (.finish number) := trivial
      exact .record spared rfl rfl rfl fixed rfl (Int.sub_le_self _ (by decide))
  | @releaseWal number =>
      rcases releaseUnusedWALZone_cases before number with same | ⟨_, _, _, same⟩
      · rw [same]
        exact .refl _
      · rw [same] at fixed ⊢
        refine ⟨⟨[], by simp [setZone]⟩, fixed, fun other => ?_, rfl, ?_⟩
        · simp only [setZone, Function.update_apply]
          split
          · rename_i here
            rw [here]
          · rfl
        · simp only
          split
          all_goals omega

theorem unusedReset_calm {answer : Int} {number : Nat} {zbd : ZonedBlockDevice}
    (unused : ∀ extent ∈ extents, extent.zone = number → extent.length = 0) :
    Calm extents zbd (unusedReset answer number zbd) := by
  have spared : Spares extents (.reset number (decide (answer < 0))) := unused
  have fixed := unusedReset_fixed answer number zbd
  rw [unusedReset] at fixed ⊢
  split
  · rename_i full
    rw [if_pos full] at fixed
    exact .record spared rfl rfl rfl fixed rfl (Int.le_refl _)
  · rename_i room
    rw [if_neg room] at fixed
    exact .record spared rfl rfl rfl fixed rfl (Int.sub_le_self _ (by decide))

def Clear (extents : List ZoneExtent) (log : Nat) : Prop :=
  ∀ extent ∈ extents, log ≤ extent.zone → extent.zone < log + zenfsZonesForeachWal → extent.length = 0

theorem logStep_calm {before after : FileState} (step : FileStep .log before after)
    (clear : ∀ log, before.file.wal = some log → Clear extents log) :
    Calm extents before.zbd after.zbd ∧ after.file = before.file := by
  cases step with
  | device step => exact ⟨deviceStep_calm step, rfl⟩
  | @syncLog _ _ event log opened kind =>
      refine ⟨⟨⟨[event], rfl, fun other member => ?_⟩, .withTokens _ _ _ _ _, fun _ => rfl, rfl,
        Int.le_refl _⟩, rfl⟩
      rw [List.mem_singleton.mp member]
      rcases kind with same | ⟨same, _⟩
      all_goals
        rw [same]
        trivial
  | @resetLog _ log opened =>
      have spared (number : Nat) (low : log ≤ number) (high : number < log + zenfsZonesForeachWal) :
          Spares extents (.reset number false) := by
        intro extent member here
        exact clear log opened extent member (here ▸ low) (here ▸ high)
      refine ⟨⟨⟨[.reset log false, .reset (log + 1) false, .reset (log + 2) false],
        by simp [resetLog, record], fun event member => ?_⟩, .withTokens _ _ _ _ _, fun _ => rfl,
        rfl, Int.le_refl _⟩, rfl⟩
      simp only [List.mem_cons, List.not_mem_nil, or_false] at member
      rcases member with same | same | same
      all_goals
        rw [same]
        exact spared _ (by omega) (by rw [zenfsZonesForeachWal]; omega)

/-! ## What is done to a file -/

def Labelled (before after : FileObject) : Prop :=
  ∃ links count, after = { before with file := before.file.labelled links count }

theorem Labelled.refl (object : FileObject) : Labelled object object :=
  ⟨object.file.linkfiles, object.file.nrSyncedExtents, rfl⟩

theorem Labelled.trans {first second third : FileObject} (one : Labelled first second)
    (two : Labelled second third) : Labelled first third := by
  rcases one with ⟨_, _, rfl⟩
  rcases two with ⟨links, count, rfl⟩
  exact ⟨links, count, rfl⟩

theorem Labelled.of_counted {before after : FileObject} (counted : Counted before after) :
    Labelled before after := by
  rcases counted with ⟨count, rfl⟩
  exact ⟨before.file.linkfiles, count, rfl⟩

theorem Labelled.sameExtents {before after : FileObject} (labelled : Labelled before after) :
    after.file.extents = before.file.extents := by
  rcases labelled with ⟨_, _, rfl⟩
  rfl

theorem relink_labelled (k : Nat) (links : List String) (fs : FileSystem) (j : Nat) :
    Labelled (fs.object j) ((fs.relink k links).object j) := by
  by_cases here : j = k
  · subst here
    by_cases inside : j < fs.objects.length
    · rw [object_relink inside]
      exact ⟨links, (fs.object j).file.nrSyncedExtents, rfl⟩
    · rw [relink, setObject, List.set_eq_of_length_le (Nat.le_of_not_lt inside)]
      exact .refl _
  · rw [relink, object_setObject_of_ne here]
    exact .refl _

theorem unnamed_labelled (k : Nat) (name : String) (fs : FileSystem) (j : Nat) :
    Labelled (fs.object j) ((fs.unnamed k name).object j) :=
  relink_labelled k _ (fs.eraseName name) j

theorem linked_labelled (k : Nat) (target : String) (fs : FileSystem) (j : Nat) :
    Labelled (fs.object j) ((fs.linked k target).object j) := by
  rw [linked, object_insertName]
  exact relink_labelled k _ fs j

theorem renamed_labelled {fs : FileSystem} {k : Nat} (inside : k < fs.objects.length)
    (source dest : String) (j : Nat) :
    Labelled (fs.object j) ((fs.renamed k source dest).object j) := by
  rw [renamed_eq inside]
  exact (unnamed_labelled k source fs j).trans (linked_labelled k dest _ j)

theorem unlinked_labelled {fs : FileSystem} {k j : Nat} (inside : k < fs.objects.length)
    {name : String} (linked : ((fs.unlinked k name).object j).file.linkfiles ≠ []) :
    Labelled (fs.object j) ((fs.unlinked k name).object j) := by
  have struck : Labelled (fs.object j) ((fs.struck k name).object j) :=
    (unnamed_labelled k name fs j).trans (.of_counted (commit_counted _ _ _ _ _))
  by_cases here : j = k
  · subst here
    by_cases last : ((fs.struck j name).object j).file.linkfiles.isEmpty
    · exact absurd (links_unlinked inside last) linked
    · rw [unlinked_eq, if_neg last]
      exact struck
  · rw [unlinked_eq]
    split
    · rw [object_setObject_of_ne here]
      exact struck
    · exact struck

theorem named_of_linked {fs : FileSystem} (ordered : Ordered fs) {k : Nat}
    (linked : (fs.object k).file.linkfiles ≠ []) : fs.named k = true := by
  rcases List.exists_mem_of_ne_nil _ linked with ⟨name, listed⟩
  have found := (ordered.linked.names name k).mpr listed
  exact List.any_eq_true.mpr ⟨_, mem_of_getFile found, by simp⟩

/-- No other file has a log in the zones of file `k`. -/
def Separate (k : Nat) (fs : FileSystem) : Prop :=
  ∀ j, j ≠ k → ∀ log, (fs.object j).file.wal = some log → Clear (fs.object k).file.extents log

structure Kept (k : Nat) (before after : FileSystem) : Prop where
  object : Labelled (before.object k) (after.object k)
  device : Calm (before.object k).file.extents before.zbd after.zbd

theorem Kept.of_zbd {k : Nat} {before after : FileSystem}
    (object : Labelled (before.object k) (after.object k)) (zbd : after.zbd = before.zbd) :
    Kept k before after :=
  ⟨object, zbd ▸ .refl _⟩

theorem Kept.trans {k : Nat} {first second third : FileSystem} (one : Kept k first second)
    (two : Kept k second third) : Kept k first third :=
  ⟨one.object.trans two.object, one.device.trans (one.object.sameExtents ▸ two.device)⟩

/-- The counter of a zone does not start again from zero. -/
def Countable (leaked : List ZoneExtent) (fs : FileSystem) : Prop :=
  ∀ zone, fs.liveUsed zone + usedIn zone leaked < 2 ^ 64

theorem unused_of_accounted {leaked : List ZoneExtent} {fs : FileSystem}
    (accounted : Accounted leaked fs) (countable : Countable leaked fs) {number : Nat}
    (unused : (fs.zbd.zone number).isUsed = false) (k : Nat) :
    ∀ extent ∈ (fs.object k).file.extents, extent.zone = number → extent.length = 0 := by
  intro extent member here
  have none : used fs.zbd number = 0 := by
    simpa [Zone.isUsed, used] using unused
  have total := congrArg UInt64.toNat none
  rw [accounted number, UInt64.toNat_ofNat_of_lt' (countable number), UInt64.toNat_zero] at total
  have live := usedIn_le_liveUsed fs k number
  have nothing : usedIn number (fs.object k).file.extents = 0 := by omega
  rw [usedIn, List.sum_eq_zero_iff] at nothing
  refine nothing _ (List.mem_map_of_mem (List.mem_filter.mpr ⟨member, ?_⟩))
  simpa using here

theorem removeUsed_calm (given : List ZoneExtent) (zbd : ZonedBlockDevice) :
    Calm extents zbd (given.foldl removeUsed zbd) := by
  induction given generalizing zbd with
  | nil => exact .refl _
  | cons extent given induction =>
      have first : Calm extents zbd (removeUsed zbd extent) := by
        refine ⟨⟨[], by simp [removeUsed, setZone]⟩, removeUsed_fixed zbd [extent], fun number => ?_,
          rfl, Int.le_refl _⟩
        simp only [removeUsed, setZone, Function.update_apply]
        split
        · rename_i here
          rw [here]
        · rfl
      exact first.trans (induction _)

theorem nameStep_kept {leaked : List ZoneExtent} {before after : FileSystem} {k : Nat}
    (step : NameStep before after) (ordered : Ordered before) (accounted : Accounted leaked before)
    (countable : Countable leaked before) (separate : Separate k before) (linked : (after.object k).file.linkfiles ≠ []) :
    Kept k before after := by
  cases step with
  | @log j start state inside nameless sees step =>
      have other : k ≠ j := by
        rintro rfl
        have links : ((before.place k state).object k).file.linkfiles =
            (before.object k).file.linkfiles := by
          rw [object_place inside, step.constant.linkfiles, sees.file]
        rw [links] at linked
        have named := named_of_linked ordered linked
        rcases nameless with none | unnamed
        · exact linked none
        · rw [unnamed] at named
          cases named
      refine ⟨.of_counted (place_counted other state), ?_⟩
      rw [place_zbd, ← sees.zbd]
      refine (logStep_calm step fun log opened => ?_).1
      exact separate j (Ne.symm other) log (sees.file ▸ opened)
  | device step => exact ⟨.refl _, deviceStep_calm step⟩
  | reset answer unused =>
      exact ⟨.refl _, unusedReset_calm (unused_of_accounted accounted countable unused.unused k)⟩
  | unlink inside => exact .of_zbd (unlinked_labelled inside linked) (Relabelled.unlinked _ _ _).zbd
  | @keep j name inside =>
      rw [kept_eq inside]
      exact .of_zbd ((unnamed_labelled j name before k).trans (linked_labelled j name _ k))
        (kept_eq inside name ▸ (Relabelled.kept inside name).zbd)
  | stray => exact .of_zbd (.refl _) rfl
  | move inside =>
      exact .of_zbd ((renamed_labelled inside _ _ k).trans (.of_counted (synced_counted _ _ _ _)))
        ((synced_zbd _ _ _).trans (Relabelled.renamed inside _ _).zbd)
  | moveBack inside =>
      have there := Relabelled.renamed inside
      exact .of_zbd ((renamed_labelled inside _ _ k).trans
        (renamed_labelled ((there _ _).inside inside) _ _ k))
        ((Relabelled.renamed ((there _ _).inside inside) _ _).zbd.trans (there _ _).zbd)
  | link inside =>
      exact .of_zbd ((linked_labelled _ _ _ k).trans (.of_counted (synced_counted _ _ _ _)))
        ((synced_zbd _ _ _).trans (Relabelled.linked inside _).zbd)
  | linkBack inside =>
      exact .of_zbd ((linked_labelled _ _ _ k).trans (unnamed_labelled _ _ _ k))
        ((Relabelled.unnamed _ _ _).zbd.trans (Relabelled.linked inside _).zbd)
  | @destroy j unnamed =>
      rw [object_destroyed] at linked
      have other : k ≠ j := by
        intro here
        rw [if_pos here] at linked
        exact linked rfl
      refine ⟨?_, removeUsed_calm _ _⟩
      rw [object_destroyed, if_neg other]
      exact .refl _

theorem nameStep_wal {before after : FileSystem} (step : NameStep before after) {j log : Nat}
    (opened : (after.object j).file.wal = some log) : (before.object j).file.wal = some log := by
  have coarse := step.fsStep.coarse
  cases step with
  | @log k start state inside _ sees step =>
      by_cases here : j = k
      · subst here
        have same : state.file = start.file := by
          cases step with
          | device | syncLog | resetLog => rfl
        rw [object_place inside, same, sees.file] at opened
        exact opened
      · rcases place_counted here state with ⟨_, same⟩
        rw [same] at opened
        exact opened
  | device | reset => exact opened
  | unlink => exact ((Relabelled.unlinked _ _ _).object j).wal ▸ opened
  | keep inside => exact ((Relabelled.kept inside _).object j).wal ▸ opened
  | stray => exact opened
  | move inside =>
      exact (((Relabelled.renamed inside _ _).trans (.synced _ _ _)).object j).wal ▸ opened
  | moveBack inside =>
      have there := Relabelled.renamed inside
      exact (((there _ _).trans (.renamed ((there _ _).inside inside) _ _)).object j).wal ▸ opened
  | link inside =>
      exact (((Relabelled.linked inside _).trans (.synced _ _ _)).object j).wal ▸ opened
  | linkBack inside =>
      exact (((Relabelled.linked inside _).trans (.unnamed _ _ _)).object j).wal ▸ opened
  | @destroy k =>
      rw [object_destroyed] at opened
      split at opened
      · cases opened
      · exact opened

theorem nameStep_links {before after : FileSystem} {k : Nat} (step : NameStep before after)
    (ordered : Ordered before) (nameless : (before.object k).file.linkfiles = []) :
    (after.object k).file.linkfiles = [] := by
  have narrowed := ordered.nameStep step
  refine List.eq_nil_iff_forall_not_mem.mpr fun name listed => ?_
  rcases narrowed.holds k ⟨name, (narrowed.ordered.linked.names name k).mpr listed⟩ with ⟨other, found⟩
  have earlier := (ordered.linked.names other k).mp found
  rw [links_directory, nameless] at earlier
  cases earlier

theorem nameStep_liveUsed {before after : FileSystem} (step : NameStep before after) (zone : Nat) :
    after.liveUsed zone ≤ before.liveUsed zone := by
  have moved {next : FileSystem} (relabelled : Relabelled before next) :
      next.liveUsed zone ≤ before.liveUsed zone :=
    Nat.le_of_eq (liveUsed_same (fun k => (relabelled.object k).extents) zone)
  cases step with
  | @log j start state inside nameless sees step =>
      refine Nat.le_of_eq (liveUsed_same (fun k => ?_) zone)
      by_cases here : k = j
      · subst here
        rw [object_place inside, ← sees.file]
        cases step with
        | device | syncLog | resetLog => rfl
      · exact (place_counted here state).extents
  | device | reset => exact Nat.le_refl _
  | unlink => exact moved (Relabelled.unlinked _ _ _)
  | keep inside => exact moved (Relabelled.kept inside _)
  | stray => exact Nat.le_refl _
  | move inside =>
      exact moved ((Relabelled.renamed inside _ _).trans (Relabelled.synced _ _ _))
  | moveBack inside =>
      exact moved ((Relabelled.renamed inside _ _).trans
        (Relabelled.renamed ((Relabelled.renamed inside _ _).inside inside) _ _))
  | link inside => exact moved ((Relabelled.linked inside _).trans (Relabelled.synced _ _ _))
  | linkBack inside => exact moved ((Relabelled.linked inside _).trans (Relabelled.unnamed _ _ _))
  | @destroy j =>
      have change := @liveUsed_change before (before.destroyed j) j (fun k different => by
        rw [object_destroyed, if_neg different]) zone
      rw [object_destroyed, if_pos rfl, usedIn_nil] at change
      omega

theorem nameSteps_kept {leaked : List ZoneExtent} {before after : FileSystem} {k : Nat}
    (steps : NameSteps before after) (ordered : Ordered before)
    (accounted : Accounted leaked before) (countable : Countable leaked before)
    (separate : Separate k before) (linked : (after.object k).file.linkfiles ≠ []) :
    Kept k before after ∧ Separate k after ∧ Countable leaked after := by
  induction steps with
  | refl => exact ⟨⟨.refl _, .refl _⟩, separate, countable⟩
  | @tail middle after steps step induction =>
      have early := ordered.steps (NameSteps.fsSteps steps)
      have still : (middle.object k).file.linkfiles ≠ [] := by
        intro nameless
        exact linked (nameStep_links step early nameless)
      rcases induction still with ⟨kept, apart, room⟩
      have counted := FsSteps.accounted (NameSteps.fsSteps steps) accounted
      have more := nameStep_kept step early counted room apart linked
      refine ⟨kept.trans more, fun j other log opened => ?_, fun zone => ?_⟩
      · rw [more.object.sameExtents]
        exact apart j other log (nameStep_wal step opened)
      · exact Nat.lt_of_le_of_lt (Nat.add_le_add_right (nameStep_liveUsed step zone) _) (room zone)

/-! ## Sequences of operations -/

inductive Naming (before after : FileSystem) : Prop
  | rename {fuel source dest outcome} : renamePath fuel source dest before = (outcome, after) →
      outcome ≠ .error .never → Naming before after
  | link {name target outcome} : linkFile name target before = (outcome, after) →
      outcome ≠ .error .never → Naming before after
  | delete {name outcome} : deleteFile name before = (outcome, after) →
      outcome ≠ .error .never → Naming before after

theorem steps_of_relinked {fs after : FileSystem} {post : Unit → FileSystem → Prop}
    {outcome : Except IOStatus Unit} (relinked : Relinked fs post (outcome, after))
    (ends : outcome ≠ .error .never) : NameSteps fs after := by
  cases outcome with
  | ok => exact relinked.1
  | error failure => exact relinked.resolve_left fun same => ends (same ▸ rfl)

theorem Naming.steps {before after : FileSystem} (naming : Naming before after)
    (grounded : Grounded before) : NameSteps before after := by
  cases naming with
  | @rename fuel source dest outcome run ends =>
      exact steps_of_relinked (run ▸ renamePath_relinked fuel grounded source dest) ends
  | @link name target outcome run ends =>
      exact steps_of_relinked (run ▸ linkFile_relinked grounded name target) ends
  | @delete name outcome run ends =>
      exact steps_of_relinked (run ▸ deleteFile_relinked grounded name) ends

theorem naming_steps {before after : FileSystem} (runs : Relation.ReflTransGen Naming before after)
    (grounded : Grounded before) : NameSteps before after := by
  induction runs with
  | refl => exact .refl
  | tail _ naming induction => exact induction.trans (naming.steps (induction.grounded grounded))

/-- What a read of object `k` sees, with the given answers of the device. -/
def readerView (fs : FileSystem) (k : Nat) (replies : List Int) : FileState :=
  (fs.answered replies).view k

theorem Kept.sameData {k : Nat} {before after : FileSystem} (kept : Kept k before after)
    (kind : (after.view k).readsLog = (before.view k).readsLog) (replies : List Int) :
    SameData (readerView before k replies) (readerView after k replies) := by
  refine ⟨?_, kind, kept.device.asReadable replies⟩
  rcases kept.object with ⟨links, count, same⟩
  exact ⟨links, count, congrArg FileObject.file same⟩

/-- The bytes of a file survive every sequence of operations on names that leaves it a name
and a first name of the same kind: no byte of its extents is written or reset, every name
it has leads to it, and what could be read from it is read again. -/
theorem contents_kept (config : BuildConfig) {leaked : List ZoneExtent} {fs after : FileSystem}
    {k : Nat} (grounded : Grounded fs) (consistent : Consistent fs)
    (accounted : Accounted leaked fs) (countable : Countable leaked fs) (separate : Separate k fs)
    (runs : Relation.ReflTransGen Naming fs after)
    (linked : (after.object k).file.linkfiles ≠ [])
    (kind : (after.view k).readsLog = (fs.view k).readsLog) :
    (∀ name ∈ (after.object k).file.linkfiles, after.getFile name = some k) ∧
    (∃ events, after.zbd.trace = fs.zbd.trace ++ events ∧
      ∀ event ∈ events, Spares (fs.object k).file.extents event) ∧
    ∀ build env offset n direct replies bytes next,
      positionedRead build config env offset n direct (readerView fs k replies) =
        (.ok bytes, next) →
      ∃ other, positionedRead build config env offset n direct (readerView after k replies) =
        (.ok bytes, other) := by
  have steps := naming_steps runs grounded
  have kept := (nameSteps_kept steps consistent.ordered accounted countable separate linked).1
  refine ⟨fun name listed => ?_, kept.device.events, ?_⟩
  · have later := consistent.ordered.steps steps.fsSteps
    exact (later.linked.names name k).mpr listed
  · intro build env offset n direct replies bytes next run
    rcases follows_positionedRead build config env offset n direct _ _ (kept.sameData kind replies)
      bytes next run with ⟨other, ran, _⟩
    exact ⟨other, ran⟩

theorem premises_of_runs {config : BuildConfig} {initial fs : FileSystem} (made : Made initial)
    (runs : Runs config (fun fs operation => operation.isMount = false ∧ GivesBack fs operation)
      initial fs) : Grounded fs ∧ Consistent fs ∧ Accounted [] fs := by
  have start : Ordered initial ∧ Accounted [] initial :=
    ⟨(consistent_of_made made).ordered, accounted_of_made made⟩
  rcases @Runs.keep config _ (fun fs => Ordered fs ∧ Accounted [] fs)
    (fun grounded allowed passage holds => ⟨holds.1.passage grounded allowed.1 passage,
      passage_accounted grounded allowed.2 passage holds.2⟩)
    initial fs runs made.grounded start with ⟨grounded, ordered, accounted⟩
  exact ⟨grounded, ordered.consistent, accounted⟩

theorem separate_of_objects {fs : FileSystem} (k : Nat)
    (closed : ∀ object ∈ fs.objects, object.file.wal = none) : Separate k fs := by
  intro j _ log opened
  have none : (fs.object j).file.wal = none := by
    by_cases inside : j < fs.objects.length
    · rw [FileSystem.object, List.getD_eq_getElem?_getD, List.getElem?_eq_getElem inside]
      exact closed _ (List.getElem_mem inside)
    · rw [object_of_length_le (Nat.le_of_not_lt inside)]
  rw [none] at opened
  cases opened

/-! ## An ordinary file -/

def twoFiles : List Operation :=
  [.openWritable "/a.sst" true false, .append 0 (List.replicate 64 7), .close 0, .destroyWriter 0,
    .openWritable "/b" true false, .close 1, .destroyWriter 1]

def filed : FileSystem := runAll smallConfig 1 twoFiles (oneZone [])

/-- The file takes the place of the other one, gets a second name and loses the first. -/
def renamedTwice : FileSystem :=
  (deleteFile "/b" (linkFile "/b" "/c" (renamePath 1 "/a.sst" "/b" filed).2).2).2

theorem contents_kept_moved :
    (renamedTwice.object 0).file.linkfiles = ["/c"] ∧
    (∀ name ∈ (renamedTwice.object 0).file.linkfiles, renamedTwice.getFile name = some 0) ∧
    (∃ events, renamedTwice.zbd.trace = filed.zbd.trace ++ events ∧
      ∀ event ∈ events, Spares (filed.object 0).file.extents event) ∧
    ∀ build env offset n direct replies bytes next,
      positionedRead build smallConfig env offset n direct (readerView filed 0 replies) =
        (.ok bytes, next) →
      ∃ other, positionedRead build smallConfig env offset n direct
        (readerView renamedTwice 0 replies) = (.ok bytes, other) := by
  have facts : allOk smallConfig 1 twoFiles (oneZone []) = true ∧
      (∀ object ∈ filed.objects, object.file.wal = none) ∧
      (filed.objects.length = 2 ∧ (filed.object 0).file.extents = [⟨19456, 64, 19⟩] ∧
        (filed.object 1).file.extents = []) ∧
      (renamePath 1 "/a.sst" "/b" filed).1 = .ok () ∧
      (linkFile "/b" "/c" (renamePath 1 "/a.sst" "/b" filed).2).1 = .ok () ∧
      (deleteFile "/b" (linkFile "/b" "/c" (renamePath 1 "/a.sst" "/b" filed).2).2).1 = .ok () ∧
      (renamedTwice.object 0).file.linkfiles = ["/c"] ∧
      (filed.object 0).file.linkfiles = ["/a.sst"] := by
    decide +kernel
  rcases facts with ⟨returned, closed, ⟨count, one, two⟩, renames, links, deletes, last, first⟩
  have runs : Runs smallConfig
      (fun fs operation => operation.isMount = false ∧ GivesBack fs operation) (oneZone []) filed := by
    refine runs_runAll (allPermitted_of_forall ?_ _) returned
    intro operation member _
    simp only [twoFiles, List.mem_cons, List.not_mem_nil, or_false] at member
    rcases member with rfl | rfl | rfl | rfl | rfl | rfl | rfl
    all_goals exact ⟨rfl, trivial⟩
  rcases premises_of_runs (oneZone_made []) runs with ⟨grounded, consistent, accounted⟩
  have sequence : Relation.ReflTransGen Naming filed renamedTwice :=
    ((Relation.ReflTransGen.single (.rename (Prod.ext renames rfl) (by simp))).tail
      (.link (Prod.ext links rfl) (by simp))).tail (.delete (Prod.ext deletes rfl) (by simp))
  have countable : Countable [] filed := by
    intro zone
    rw [liveUsed, count, Finset.sum_range_succ, Finset.sum_range_one, one, two, usedIn_singleton]
    split <;> simp
  refine ⟨last, contents_kept smallConfig grounded consistent accounted countable
    (separate_of_objects 0 closed) sequence ?_ ?_⟩
  · rw [last]
    simp
  · simp only [readsLog, ZoneFile.getFilename, view, last, first]
    decide

/-! ## A write-ahead log under another name -/

def logDevice : FileSystem := emptyFileSystem (emptyDevice [] 12288 12288 4096 [])

/-- The first two entries are in flight together, as the buffer takes one of them. -/
def writeLog : List Operation :=
  [.openWritable "/a.log" false false, .append 0 (List.replicate 4080 97),
    .append 0 (List.replicate 4080 98), .append 0 (List.replicate 4080 99), .close 0,
    .destroyWriter 0]

def logged : FileSystem := runAll smallConfig 2 writeLog logDevice

/-- The device takes the entries between two syncs in the reverse order. -/
def swappedCalls : List AppendCall :=
  ((Journal.groups (journal 4 logged.zbd.trace)).map List.reverse).flatten

def swappedReader : ReaderEnv where
  view := ⟨0, swappedCalls.flatMap AppendCall.data⟩
  sort := .insertionSort WalEntry.seq
  slack _ := 0
  device address := (swappedCalls.flatMap AppendCall.data).getD (address - 4 * 12288) 0

def relabelled : FileSystem := (renamePath 1 "/a.log" "/a.old" logged).2

/-- A read of the first byte returns another one once the log is renamed. -/
theorem renamed_log_reads_otherwise :
    allOk smallConfig 2 writeLog logDevice = true ∧
    Journal.Placement (journal 4 logged.zbd.trace) swappedCalls ∧
    swappedCalls.map (fun call => (call.wp, call.seq)) = [(53248, 1), (49152, 0), (57344, 2)] ∧
    (renamePath 1 "/a.log" "/a.old" logged).1 = .ok () ∧
    (relabelled.object 0).file.linkfiles = ["/a.old"] ∧
    (positionedRead .walBarriers smallConfig swappedReader 0 1 false (readerView logged 0 [])).1 =
      .ok [97] ∧
    (positionedRead .walBarriers smallConfig swappedReader 0 1 false
      (readerView relabelled 0 [])).1 = .ok [98] := by
  have facts : allOk smallConfig 2 writeLog logDevice = true ∧
      swappedCalls.map (fun call => (call.wp, call.seq)) = [(53248, 1), (49152, 0), (57344, 2)] ∧
      (renamePath 1 "/a.log" "/a.old" logged).1 = .ok () ∧
      (relabelled.object 0).file.linkfiles = ["/a.old"] ∧
      (positionedRead .walBarriers smallConfig swappedReader 0 1 false (readerView logged 0 [])).1 =
        .ok [97] ∧
      (positionedRead .walBarriers smallConfig swappedReader 0 1 false
        (readerView relabelled 0 [])).1 = .ok [98] := by
    decide +kernel
  exact ⟨facts.1, .reversed _, facts.2⟩

end Zwal.NameIndependence
