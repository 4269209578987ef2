import Zwal.Fs.MountSteps

/-! # What a pass of the garbage collector does

Extents are copied one after the other: a zone with room is taken, bytes are written to it,
and the copy is counted. -/

namespace Zwal.FileSystem

open ZonedBlockDevice FileState

/-! ## Copying -/

theorem advanceAll_append (number : Nat) (first second : List Bytes) (zbd : ZonedBlockDevice) :
    (zbd.advanceAll number first).advanceAll number second =
      zbd.advanceAll number (first ++ second) :=
  List.foldl_append.symm

theorem advanceAll_answered (number : Nat) (chunks : List Bytes) (replies : List Int)
    (zbd : ZonedBlockDevice) :
    { zbd with replies := replies }.advanceAll number chunks =
      { zbd.advanceAll number chunks with replies := replies } := by
  simp only [advanceAll_eq]

theorem capacity_advanceAll (number : Nat) (chunks : List Bytes) (zbd : ZonedBlockDevice) :
    ((zbd.advanceAll number chunks).zone number).capacity =
      (zbd.zone number).capacity - chunks.flatten.length := by
  rw [advanceAll_eq]
  simp only [Function.update_self]

structure Written (target : Nat) (before after : ZonedBlockDevice) (chunks : List Bytes) : Prop where
  shorter : after.replies <:+ before.replies
  same : after = { before.advanceAll target chunks with replies := after.replies }
  fits : chunks.flatten.length ≤ (before.zone target).capacity

theorem Written.none {target : Nat} {zbd : ZonedBlockDevice} {replies : List Int}
    (shorter : replies <:+ zbd.replies) : Written target zbd { zbd with replies := replies } [] :=
  ⟨shorter, rfl, Nat.zero_le _⟩

theorem Written.trans {target : Nat} {first second third : ZonedBlockDevice}
    {early late : List Bytes} (one : Written target first second early)
    (two : Written target second third late) : Written target first third (early ++ late) := by
  refine ⟨two.shorter.trans one.shorter, ?_, ?_⟩
  · rw [two.same, one.same, advanceAll_answered, advanceAll_append]
  · have room := two.fits
    rw [one.same] at room
    have left : ((first.advanceAll target early).zone target).capacity = _ :=
      capacity_advanceAll target early first
    have fits := one.fits
    rw [List.flatten_append, List.length_append]
    have later : late.flatten.length ≤ ((first.advanceAll target early).zone target).capacity := room
    omega

theorem appendZone_written (target : Nat) (data : Bytes) (zbd : ZonedBlockDevice) :
    ∃ chunks, Written target zbd (appendZone target data zbd).2 chunks := by
  rcases appendZone_cases target data zbd with
    ⟨failure, run, _⟩ | ⟨chunks, replies, outcome, shorter, run, fits, _⟩
  · rw [run]
    exact ⟨[], Written.none List.suffix_rfl⟩
  · rw [run]
    exact ⟨chunks, shorter, rfl, fits⟩

theorem migrateLoop_written (device : Nat → UInt8) (target fuel offset length : Nat)
    (zbd : ZonedBlockDevice) :
    ∃ chunks, Written target zbd (migrateLoop device target fuel offset length zbd).2 chunks := by
  induction fuel generalizing offset length zbd with
  | zero => exact ⟨[], Written.none List.suffix_rfl⟩
  | succ fuel induction =>
      rw [migrateLoop]
      split
      · exact ⟨[], Written.none List.suffix_rfl⟩
      · rw [bind_read]
        rcases readDevice_cases device offset
          (min length migrateStep + padSize zbd.blockSize (min length migrateStep)) zbd with
          ⟨replies, result, shorter, run⟩
        rw [bind_of_ok run]
        cases result with
        | none => exact ⟨[], Written.none shorter⟩
        | some data =>
            have early : Written target zbd { zbd with replies := replies } [] := .none shorter
            rcases appendZone_written target data { zbd with replies := replies } with ⟨chunks, late⟩
            simp only
            rw [bind_of_ok (show (appendZone target data).attempt _ = (.ok _, _) from rfl)]
            rcases induction (offset + data.length) (length - min length migrateStep)
              (appendZone target data { zbd with replies := replies }).2 with ⟨more, last⟩
            exact ⟨_, (early.trans late).trans last⟩

theorem migrateData_written (device : Nat → UInt8) (offset length target : Nat)
    (zbd : ZonedBlockDevice) :
    ∃ chunks, Written target zbd (migrateData device offset length target zbd).2 chunks := by
  rw [migrateData, bind_read]
  split
  · exact ⟨[], Written.none List.suffix_rfl⟩
  · exact migrateLoop_written device target _ offset _ zbd

/-! ## Extents -/

/-- The bytes of an extent and its header go to the write pointer of a zone. -/
def copied (target : Nat) (chunks : List Bytes) (moved : ZoneExtent) (zbd : ZonedBlockDevice) :
    ZonedBlockDevice :=
  addUsed (zbd.advanceAll target chunks) moved

def headerOf (file : ZoneFile) : Nat := if file.isSparse then file.headerSize else 0

/-- The zones an extent and its copy lie in, and the device before and after. -/
inductive Copied (header : Nat) : ZonedBlockDevice → ZoneExtent → ZoneExtent → ZonedBlockDevice → Prop
  | keep {zbd extent} : Copied header zbd extent extent zbd
  | move {zbd extent target chunks replies} : Matching zbd target →
      extent.length % 2 ^ 32 ≤ (zbd.zone target).capacity →
      chunks.flatten.length ≤ (zbd.zone target).capacity → replies <:+ zbd.replies →
      Copied header zbd extent ⟨(zbd.zone target).wp + header, extent.length, target⟩
        { copied target chunks ⟨(zbd.zone target).wp + header, extent.length, target⟩ zbd with
          replies := replies }

theorem held_copied {zbd after : ZonedBlockDevice} {target : Nat} {chunks : List Bytes}
    (idle : (zbd.zone target).busy = false)
    (same : after = { (zbd.setBusy target true).advanceAll target chunks with
      replies := after.replies }) {start length : Nat} :
    (addUsed after ⟨start, length, target⟩).setBusy target false =
      { copied target chunks ⟨start, length, target⟩ zbd with replies := after.replies } := by
  rw [same, ← advanceAll_answered]
  simp only [copied, addUsed, setBusy, setZone, advanceAll_eq, Function.update_self,
    Function.update_idem, idle]

theorem migrateExtent_eq (device : Nat → UInt8) (file : ZoneFile) (extent : ZoneExtent)
    (zbd : ZonedBlockDevice) :
    migrateExtent device file extent zbd =
      (match (zbd.getBestOpenZoneMatch file.lifetime (extent.length % 2 ^ 32)).2 with
      | none => pure extent
      | some target => do
          Program.update fun zbd => zbd.setBusy target true
          let _ ← (migrateData device (extent.start - headerOf file)
            (extent.length + headerOf file) target).attempt
          Program.update fun after =>
            (addUsed after ⟨(zbd.zone target).wp + headerOf file, extent.length, target⟩).setBusy
              target false
          pure ⟨(zbd.zone target).wp + headerOf file, extent.length, target⟩ :
            DeviceProgram ZoneExtent) zbd :=
  rfl

theorem migrateExtent_copied (device : Nat → UInt8) (file : ZoneFile) (extent : ZoneExtent)
    (zbd : ZonedBlockDevice) :
    ∃ moved after, migrateExtent device file extent zbd = (.ok moved, after) ∧
      Copied (headerOf file) zbd extent moved after := by
  rw [migrateExtent_eq]
  generalize headerOf file = header
  cases chosen : (zbd.getBestOpenZoneMatch file.lifetime (extent.length % 2 ^ 32)).2 with
  | none => exact ⟨extent, zbd, rfl, .keep⟩
  | some target =>
      have found := getBestOpenZoneMatch_matching chosen
      rcases migrateData_written device (extent.start - header) (extent.length + header) target
        (zbd.setBusy target true) with ⟨chunks, written⟩
      refine ⟨_, _, rfl, ?_⟩
      have capacity : ((zbd.setBusy target true).zone target).capacity = (zbd.zone target).capacity := by
        rw [setBusy, zone_setZone]
      have fits := written.fits
      rw [capacity] at fits
      have moved := @Copied.move header _ _ _ _ _ found.1 found.2 fits written.shorter
      rw [← held_copied found.1.idle written.same] at moved
      exact moved

/-- The extents of a file, those that were chosen copied where a zone was found for them. -/
inductive Migrated (header : Nat) (chosen : List (Nat × Nat)) :
    ZonedBlockDevice → List ZoneExtent → List ZoneExtent → ZonedBlockDevice → Prop
  | nil {zbd} : Migrated header chosen zbd [] [] zbd
  | keep {zbd extent extents moved after} : Migrated header chosen zbd extents moved after →
      Migrated header chosen zbd (extent :: extents) (extent :: moved) after
  | copy {zbd extent target middle extents moved after} :
      (extent.start, extent.length) ∈ chosen → Copied header zbd extent target middle →
      Migrated header chosen middle extents moved after →
      Migrated header chosen zbd (extent :: extents) (target :: moved) after

theorem migrateList_migrated (device : Nat → UInt8) (file : ZoneFile) (chosen : List (Nat × Nat))
    (extents : List ZoneExtent) (zbd : ZonedBlockDevice) :
    ∃ moved after, migrateList device file chosen extents zbd = (.ok moved, after) ∧
      Migrated (headerOf file) chosen zbd extents moved after := by
  induction extents generalizing zbd with
  | nil => exact ⟨[], zbd, rfl, .nil⟩
  | cons extent extents induction =>
      rw [migrateList]
      split
      · rename_i member
        rcases migrateExtent_copied device file extent zbd with ⟨target, middle, run, copied⟩
        rcases induction middle with ⟨moved, after, rest, migrated⟩
        refine ⟨target :: moved, after, ?_, .copy member copied migrated⟩
        exact (bind_of_ok run).trans ((bind_of_ok rest).trans rfl)
      · rcases induction zbd with ⟨moved, after, rest, migrated⟩
        refine ⟨extent :: moved, after, ?_, .keep migrated⟩
        exact (bind_of_ok rest).trans rfl

/-! ## The pass -/

/-- `AcquireWRLock` and `ReleaseWRLock`. -/
def locked (k : Nat) (opened : Bool) (fs : FileSystem) : FileSystem :=
  fs.setObject k { fs.object k with file := { (fs.object k).file with openForWr := opened } }

def repointed (k : Nat) (extents : List ZoneExtent) (fs : FileSystem) : FileSystem :=
  fs.setObject k { fs.object k with
    file := { (fs.object k).file with extents := extents, nrSyncedExtents := 0 } }

def dropped (pairs : List (ZoneExtent × ZoneExtent)) (fs : FileSystem) : FileSystem :=
  { fs with zbd := dropReplaced fs.zbd pairs }

structure Copies (device : Nat → UInt8) (chosen : List (Nat × Nat)) (fs : FileSystem) (k : Nat)
    (moved : List ZoneExtent) (zbd : ZonedBlockDevice) : Prop where
  run : migrateList device (fs.object k).file chosen (fs.object k).file.extents fs.zbd =
    (.ok moved, zbd)
  migrated : Migrated (headerOf (fs.object k).file) chosen fs.zbd (fs.object k).file.extents moved zbd

def moving (k : Nat) (moved : List ZoneExtent) (zbd : ZonedBlockDevice) (fs : FileSystem) :
    FileSystem :=
  { fs.locked k true with zbd := zbd }.repointed k moved

inductive MigrateStep (device : Nat → UInt8) (chosen : List (Nat × Nat)) (k : Nat) :
    FileSystem → FileSystem → Prop
  | done {fs moved zbd replies} : Copies device chosen fs k moved zbd → replies <:+ zbd.replies →
      MigrateStep device chosen k fs ((((fs.moving k moved { zbd with replies := replies }).synced k
        true).dropped ((fs.object k).file.extents.zip moved)).locked k false)
  | failed {fs moved zbd replies} : Copies device chosen fs k moved zbd → replies <:+ zbd.replies →
      zbd.replies.headD 0 < 0 →
      MigrateStep device chosen k fs ((fs.moving k moved { zbd with replies := replies }).locked k false)

theorem syncFileExtents_eq (k : Nat) (extents : List ZoneExtent) (fs : FileSystem) :
    syncFileExtents k extents fs =
      (syncFileMetadata k true >>= fun _ => onDevice (Program.update fun zbd =>
        dropReplaced zbd ((fs.object k).file.extents.zip extents))) (fs.repointed k extents) :=
  rfl

theorem syncFileExtents_cases (k : Nat) (extents : List ZoneExtent) (fs : FileSystem) :
    ∃ replies, replies <:+ fs.zbd.replies ∧
      (syncFileExtents k extents fs = (.ok (), (((fs.answered replies).repointed k extents).synced k
          true).dropped ((fs.object k).file.extents.zip extents)) ∨
        (fs.zbd.replies.headD 0 < 0 ∧ syncFileExtents k extents fs =
          (.error (.ioError "Failed to persist metadata"),
            (fs.answered replies).repointed k extents)) ∨
        (((fs.repointed k extents).object k).file.linkfiles = [] ∧
          ∃ after, syncFileExtents k extents fs = (.error .never, after))) := by
  rw [syncFileExtents_eq]
  rcases syncFileMetadata_cases k true (fs.repointed k extents) with
    ⟨replies, shorter, run | ⟨failing, run⟩ | ⟨_, nameless, run⟩⟩
  · exact ⟨replies, shorter, .inl (bind_of_ok run)⟩
  · exact ⟨replies, shorter, .inr (.inl ⟨failing, bind_of_error run⟩)⟩
  · exact ⟨replies, shorter, .inr (.inr ⟨nameless, _, bind_of_error run⟩)⟩

theorem onDevice_migrateList (device : Nat → UInt8) (chosen : List (Nat × Nat)) (fs : FileSystem)
    (k : Nat) : ∃ moved zbd, Copies device chosen fs k moved zbd ∧
      onDevice (migrateList device (fs.object k).file chosen (fs.object k).file.extents)
        (fs.locked k true) = (.ok moved, { fs.locked k true with zbd := zbd }) := by
  rcases migrateList_migrated device (fs.object k).file chosen (fs.object k).file.extents fs.zbd with
    ⟨moved, zbd, run, migrated⟩
  exact ⟨moved, zbd, ⟨run, migrated⟩, @onDevice_of_ok _ (fs.locked k true) _ _ _ run⟩

theorem object_locked {fs : FileSystem} {k : Nat} (inside : k < fs.objects.length) (opened : Bool) :
    (fs.locked k opened).object k =
      { fs.object k with file := { (fs.object k).file with openForWr := opened } } :=
  object_setObject inside _

theorem object_moving {fs : FileSystem} {k : Nat} (inside : k < fs.objects.length)
    (moved : List ZoneExtent) (zbd : ZonedBlockDevice) :
    (fs.moving k moved zbd).object k = { fs.object k with
      file := { (fs.object k).file with
        extents := moved, nrSyncedExtents := 0, openForWr := true } } := by
  have there : k < ({ fs.locked k true with zbd := zbd } : FileSystem).objects.length :=
    List.length_set.symm ▸ inside
  rw [moving, repointed, object_setObject there,
    show ({ fs.locked k true with zbd := zbd } : FileSystem).object k = (fs.locked k true).object k
      from rfl, object_locked inside]

theorem migrateFileExtents_cases (device : Nat → UInt8) (name : String) (chosen : List (Nat × Nat))
    {fs : FileSystem} (grounded : Grounded fs) :
    migrateFileExtents device name chosen fs = (.ok (), fs) ∨
      ∃ k after, fs.getFile name = some k ∧ (fs.object k).file.openForWr = false ∧
        (MigrateStep device chosen k fs after ∧
            migrateFileExtents device name chosen fs = (.ok (), after) ∨
          (fs.object k).file.linkfiles = [] ∧
            migrateFileExtents device name chosen fs = (.error .never, after)) := by
  rw [migrateFileExtents, bind_read]
  cases found : fs.getFile name with
  | none => exact .inl rfl
  | some k =>
      have inside := grounded.inside found
      cases opened : (fs.object k).file.openForWr with
      | true =>
          left
          simp only [opened, if_true]
          rfl
      | false =>
          right
          simp only [opened, Bool.false_eq_true, if_false]
          rcases onDevice_migrateList device chosen fs k with ⟨moved, zbd, copies, run⟩
          have old : (({ fs.locked k true with zbd := zbd } : FileSystem).object k).file.extents =
              (fs.object k).file.extents := by
            rw [show ({ fs.locked k true with zbd := zbd } : FileSystem).object k =
              (fs.locked k true).object k from rfl, object_locked inside]
          have started : setFile k (fun file => { file with openForWr := true }) fs =
              (.ok (), fs.locked k true) := rfl
          rw [bind_of_ok started, bind_of_ok run]
          rcases syncFileExtents_cases k moved { fs.locked k true with zbd := zbd } with
            ⟨replies, shorter, synced | ⟨failing, synced⟩ | ⟨nameless, after, synced⟩⟩
          · rw [old] at synced
            refine ⟨k, _, rfl, opened, .inl ⟨.done copies shorter, ?_⟩⟩
            rw [bind_of_ok (ignored_of_ok synced)]
            rfl
          · refine ⟨k, _, rfl, opened, .inl ⟨.failed copies shorter failing, ?_⟩⟩
            rw [bind_of_ok (ignored_of_error synced (by simp))]
            rfl
          · rw [← moving, object_moving inside] at nameless
            exact ⟨k, after, rfl, opened,
              .inr ⟨nameless, bind_of_error (ignored_of_never synced)⟩⟩

/-! ## What a pass changes -/

/-- File `k` points at other extents; everything else about the files stays. -/
structure Repointed (k : Nat) (moved : List ZoneExtent) (before after : FileSystem) : Prop where
  object : ∃ count, after.object k = { before.object k with
    file := { (before.object k).file with
      extents := moved, nrSyncedExtents := count, openForWr := false } }
  others : ∀ j, j ≠ k → Counted (before.object j) (after.object j)
  files : after.files = before.files
  length : after.objects.length = before.objects.length

theorem object_moving_of_ne {fs : FileSystem} {k j : Nat} (different : j ≠ k)
    (moved : List ZoneExtent) (zbd : ZonedBlockDevice) :
    (fs.moving k moved zbd).object j = fs.object j := by
  rw [moving, repointed, object_setObject_of_ne different]
  exact object_setObject_of_ne different _

theorem length_moving (k : Nat) (moved : List ZoneExtent) (zbd : ZonedBlockDevice) (fs : FileSystem) :
    (fs.moving k moved zbd).objects.length = fs.objects.length := by
  simp [moving, repointed, locked, setObject]

theorem synced_counted (k : Nat) (replace : Bool) (fs : FileSystem) (j : Nat) :
    Counted (fs.object j) ((fs.synced k replace).object j) := by
  rw [synced]
  simp only
  split
  · exact .refl _
  · exact (commit_counted _ _ _ _ _).trans (setObject_counted ⟨_, rfl⟩ j)

theorem synced_zbd (k : Nat) (replace : Bool) (fs : FileSystem) : (fs.synced k replace).zbd = fs.zbd :=
  (Relabelled.synced k replace fs).zbd

theorem files_synced (k : Nat) (replace : Bool) (fs : FileSystem) :
    (fs.synced k replace).files = fs.files := by
  rw [synced]
  simp only
  split
  · rfl
  · exact files_commit _ _ _ _

theorem length_synced (k : Nat) (replace : Bool) (fs : FileSystem) :
    (fs.synced k replace).objects.length = fs.objects.length := by
  rw [synced]
  simp only
  split
  · rfl
  · rw [setObject, List.length_set]
    exact length_commit _ _ _ _

def MigrateEnd (fs : FileSystem) (k : Nat) (moved : List ZoneExtent) (zbd after : ZonedBlockDevice) :
    Prop :=
  ∃ replies, replies <:+ zbd.replies ∧
    (after = dropReplaced { zbd with replies := replies } ((fs.object k).file.extents.zip moved) ∨
      (zbd.replies.headD 0 < 0 ∧ after = { zbd with replies := replies }))

theorem Repointed.of_locked {before middle : FileSystem} {k count : Nat} {moved : List ZoneExtent}
    (inside : k < before.objects.length)
    (held : middle.object k = { before.object k with
      file := { (before.object k).file with
        extents := moved, nrSyncedExtents := count, openForWr := true } })
    (others : ∀ j, j ≠ k → Counted (before.object j) (middle.object j))
    (files : middle.files = before.files)
    (length : middle.objects.length = before.objects.length) :
    Repointed k moved before (middle.locked k false) := by
  refine ⟨⟨count, ?_⟩, fun j different => ?_, files, List.length_set.trans length⟩
  · rw [object_locked (length.symm ▸ inside), held]
  · rw [locked, object_setObject_of_ne different]
    exact others j different

theorem MigrateStep.repointed {device : Nat → UInt8} {chosen : List (Nat × Nat)} {k : Nat}
    {before after : FileSystem} (step : MigrateStep device chosen k before after)
    (inside : k < before.objects.length) :
    ∃ moved zbd, Copies device chosen before k moved zbd ∧ Repointed k moved before after ∧
      MigrateEnd before k moved zbd after.zbd := by
  cases step with
  | @done moved zbd replies copies shorter =>
      have synced := synced_counted k true (before.moving k moved { zbd with replies := replies })
      rcases synced k with ⟨count, held⟩
      rw [object_moving inside] at held
      refine ⟨moved, zbd, copies, @Repointed.of_locked _ _ _ count _ inside held (fun j different => ?_) ?_ ?_,
        replies, shorter, .inl ?_⟩
      · rw [← @object_moving_of_ne before _ _ different moved { zbd with replies := replies }]
        exact synced j
      · exact files_synced _ _ _
      · exact (length_synced _ _ _).trans (length_moving _ _ _ _)
      · exact congrArg (dropReplaced · _) (synced_zbd _ _ _)
  | @failed moved zbd replies copies shorter failing =>
      refine ⟨moved, zbd, copies, .of_locked inside (object_moving inside _ _)
        (fun j different => ?_) rfl (length_moving _ _ _ _), replies, shorter, .inr ⟨failing, rfl⟩⟩
      rw [object_moving_of_ne different]
      exact .refl _

theorem Copied.fixed {header : Nat} {before after : ZonedBlockDevice} {extent moved : ZoneExtent}
    (copied : Copied header before extent moved after) : Fixed before after := by
  cases copied with
  | keep => exact .refl _
  | @move target chunks replies =>
      have counted : Fixed (before.advanceAll target chunks) (addUsed (before.advanceAll target chunks)
          ⟨(before.zone target).wp + header, extent.length, target⟩) := .setZone rfl
      exact (advanceAll_fixed _ _ _).trans (counted.trans (.withTokens _ _ _ _ _))

theorem Migrated.fixed {header : Nat} {chosen : List (Nat × Nat)} {before after : ZonedBlockDevice}
    {extents moved : List ZoneExtent} (migrated : Migrated header chosen before extents moved after) :
    Fixed before after := by
  induction migrated with
  | nil => exact .refl _
  | keep _ induction => exact induction
  | copy _ copied _ induction => exact copied.fixed.trans induction

theorem dropReplaced_fixed (pairs : List (ZoneExtent × ZoneExtent)) (zbd : ZonedBlockDevice) :
    Fixed zbd (dropReplaced zbd pairs) := by
  rw [dropReplaced]
  induction pairs generalizing zbd with
  | nil => exact .refl _
  | cons pair pairs induction =>
      rw [List.foldl_cons]
      refine Fixed.trans ?_ (induction _)
      split
      · exact .setZone rfl
      · exact .refl _

theorem MigrateEnd.fixed {fs : FileSystem} {k : Nat} {moved : List ZoneExtent}
    {zbd after : ZonedBlockDevice} (ended : MigrateEnd fs k moved zbd after) : Fixed zbd after := by
  rcases ended with ⟨replies, _, rfl | ⟨_, rfl⟩⟩
  · exact (Fixed.withTokens _ _ _ _ _).trans (dropReplaced_fixed _ _)
  · exact .withTokens _ _ _ _ _

theorem Migrated.zones {header : Nat} {chosen : List (Nat × Nat)} {before after : ZonedBlockDevice}
    {extents moved : List ZoneExtent} (migrated : Migrated header chosen before extents moved after) :
    ∀ extent ∈ moved, extent ∈ extents ∨ extent.zone ∈ before.ioZones := by
  induction migrated with
  | nil => exact nofun
  | keep _ induction =>
      intro other member
      rcases List.mem_cons.mp member with rfl | later
      · exact .inl List.mem_cons_self
      · exact (induction other later).imp_left (List.mem_cons_of_mem _)
  | copy _ copied _ induction =>
      intro other member
      rcases List.mem_cons.mp member with rfl | later
      · cases copied with
        | keep => exact .inl List.mem_cons_self
        | move found => exact .inr found.member
      · refine (induction other later).imp (List.mem_cons_of_mem _) fun there => ?_
        rw [copied.fixed.ioZones] at there
        exact there

theorem MigrateStep.grounded {device : Nat → UInt8} {chosen : List (Nat × Nat)} {k : Nat}
    {before after : FileSystem} (step : MigrateStep device chosen k before after)
    (inside : k < before.objects.length) (grounded : Grounded before) : Grounded after := by
  rcases step.repointed inside with ⟨moved, zbd, copies, repointed, ended⟩
  rcases repointed.object with ⟨count, held⟩
  have lies := grounded.lies k
  refine grounded.of_object k (copies.migrated.fixed.trans ended.fixed) repointed.files repointed.length
    repointed.others ?_ ?_
  · rw [held]
    refine ⟨fun extent member => ?_, lies.active⟩
    rcases copies.migrated.zones extent member with old | new
    · exact lies.extents extent old
    · exact grounded.partitioned.dataZone_of_io new
  · rw [held]
    exact grounded.bounded k

theorem migrate_steps (device : Nat → UInt8) (name : String) (chosen : List (Nat × Nat))
    {fs after : FileSystem} {outcome : Except IOStatus Unit} (grounded : Grounded fs)
    (run : migrateExtents device name chosen fs = (outcome, after)) (ends : outcome ≠ .error .never) :
    ∃ middle, (middle = fs ∨ ∃ k, fs.getFile name = some k ∧
        (fs.object k).file.openForWr = false ∧ MigrateStep device chosen k fs middle) ∧
      FsSteps middle after := by
  rw [migrateExtents] at run
  split at run
  · rcases migrateFileExtents_cases device name chosen grounded with
      same | ⟨k, middle, found, unlocked, ⟨step, ran⟩ | ⟨_, ran⟩⟩
    · rw [bind_of_ok same] at run
      have reset := Relinked.stepped (resetUnusedIOZones_relinked fs)
      rw [run] at reset
      refine ⟨fs, .inl rfl, ?_⟩
      cases outcome with
      | ok => exact reset.1
      | error => exact reset.resolve_left fun same => ends (same ▸ rfl)
    · rw [bind_of_ok ran] at run
      have reset := Relinked.stepped (resetUnusedIOZones_relinked middle)
      rw [run] at reset
      refine ⟨middle, .inr ⟨k, found, unlocked, step⟩, ?_⟩
      cases outcome with
      | ok => exact reset.1
      | error => exact reset.resolve_left fun same => ends (same ▸ rfl)
    · rw [bind_of_error ran] at run
      cases run
      exact absurd rfl ends
  · cases run
    exact ⟨fs, .inl rfl, .refl⟩

end Zwal.FileSystem
