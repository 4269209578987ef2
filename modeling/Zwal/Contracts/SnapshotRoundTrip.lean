import Zwal.Contracts.FileTable
import Zwal.Fs.Accounting
import Zwal.Fs.Encoding

/-! # A snapshot of the file table

`EncodeSnapshotTo` writes a file once for each of its names. When the snapshot is decoded,
the first copy gets all the names; every later copy finds them taken, and its destructor
takes back what its extents added to the zones. The length of the snapshot stands in front of
it, as a number of 32 bits. -/

namespace Zwal.SnapshotRoundTrip

open FileSystem ZonedBlockDevice FileTable

/-- A file table and a device it can be mounted on: names and link lists agree, the members
are machine numbers, the extents lie in zones of the device, and nothing is in memory. -/
structure Mountable (fs found : FileSystem) : Prop where
  names : ∀ name k, fs.getFile name = some k ↔ name ∈ (fs.object k).file.linkfiles
  keys : (fs.files.map Prod.fst).Nodup
  unnamed : fs.getFile "" = none
  encodable : ∀ entry ∈ fs.files, (fs.object entry.2).file.record.Encodable
  numbers : ∀ entry ∈ fs.files, (fs.object entry.2).file.fileId + 1 < 2 ^ 64
  known : ∀ entry ∈ fs.files, ∀ extent ∈ (fs.object entry.2).file.extents,
    found.zbd.getIOZone extent.start = some extent.zone
  files : found.files = []
  objects : found.objects = []

theorem Mountable.apart {fs found : FileSystem} (mountable : Mountable fs found) {name : String}
    {k i : Nat} (one : name ∈ (fs.object k).file.linkfiles)
    (two : name ∈ (fs.object i).file.linkfiles) : k = i := by
  rw [← mountable.names] at one two
  exact Option.some_inj.mp (one.symm.trans two)

structure SameFile (before after : ZoneFile) : Prop where
  fileId : after.fileId = before.fileId
  fileSize : after.fileSize = before.fileSize
  lifetime : after.lifetime = before.lifetime
  extents : after.extents = before.extents
  mTime : after.mTime = before.mTime
  extentStart : after.extentStart = before.extentStart
  isSparse : after.isSparse = before.isSparse
  linkfiles : after.linkfiles = before.linkfiles

def filesOf (fs : FileSystem) : Finset Nat := (fs.files.map Prod.snd).toFinset

structure Restored (fs found after : FileSystem) : Prop where
  names : ∀ name, (after.getFile name).isSome = (fs.getFile name).isSome
  shared : ∀ name other, (fs.getFile name).isSome → (fs.getFile other).isSome →
    (after.getFile name = after.getFile other ↔ fs.getFile name = fs.getFile other)
  same : ∀ name k j, fs.getFile name = some k → after.getFile name = some j →
    SameFile (fs.object k).file (after.object j).file
  numbers : ∀ name j, after.getFile name = some j → (after.object j).file.fileId < after.nextFileId
  used : ∀ zone, used after.zbd zone = used found.zbd zone +
    .ofNat (∑ k ∈ filesOf fs, usedIn zone (fs.object k).file.extents)

/-! ## Names -/

theorem getFile_insertName (name other : String) (k : Nat) (fs : FileSystem) :
    (fs.insertName name k).getFile other =
      if other = name ∧ fs.getFile name = none then some k else fs.getFile other := by
  cases found : fs.getFile name with
  | none =>
      rw [getFile_insertName_eq found, Function.update_apply]
      simp
  | some j =>
      rw [insertName, found]
      simp

theorem getFile_insertLinks (names : List String) (other : String) (k : Nat) (fs : FileSystem) :
    (fs.insertLinks names k).getFile other =
      if other ∈ names ∧ fs.getFile other = none then some k else fs.getFile other := by
  induction names generalizing fs with
  | nil =>
      simp only [List.not_mem_nil, false_and, if_false]
      rfl
  | cons name names induction =>
      rw [insertLinks, List.foldl_cons, ← insertLinks, induction, getFile_insertName]
      by_cases here : other = name
      · subst here
        by_cases free : fs.getFile other = none
        · simp [free]
        · simp [free]
      · simp [here]

theorem insertLinks_fields (names : List String) (k : Nat) (fs : FileSystem) :
    (fs.insertLinks names k).zbd = fs.zbd ∧ (fs.insertLinks names k).objects = fs.objects ∧
      (fs.insertLinks names k).nextFileId = fs.nextFileId := by
  induction names generalizing fs with
  | nil => exact ⟨rfl, rfl, rfl⟩
  | cons name names induction =>
      have first : (fs.insertName name k).zbd = fs.zbd ∧
          (fs.insertName name k).objects = fs.objects ∧
          (fs.insertName name k).nextFileId = fs.nextFileId := by
        rw [insertName]
        split
        all_goals exact ⟨rfl, rfl, rfl⟩
      rcases induction (fs.insertName name k) with ⟨zbd, objects, next⟩
      exact ⟨zbd.trans first.1, objects.trans first.2.1, next.trans first.2.2⟩

theorem referring_insertLinks {names : List String} {k : Nat} {fs : FileSystem}
    (referring : Referring fs) (inside : k < fs.objects.length) :
    Referring (fs.insertLinks names k) := by
  induction names generalizing fs with
  | nil => exact referring
  | cons name names induction =>
      have relabelled := Relabelled.insertName inside name
      exact induction (relabelled.referring referring) (relabelled.inside inside)

/-! ## One copy -/

theorem placed_of_known {zbd : ZonedBlockDevice} {extents : List ZoneExtent}
    (known : ∀ extent ∈ extents, zbd.getIOZone extent.start = some extent.zone) :
    placed zbd extents = some extents := by
  induction extents with
  | nil => rfl
  | cons extent extents induction =>
      rw [placed_cons, induction fun other member => known other (List.mem_cons_of_mem _ member),
        placedExtent, known extent List.mem_cons_self]
      rfl

theorem sameFile_decoded (config : BuildConfig) (file : ZoneFile) (wal : Option Nat) :
    SameFile file (decodedFile config file.record file.extents file.extents wal) :=
  ⟨rfl, rfl, rfl, rfl, rfl, rfl, rfl, rfl⟩

/-! ## The files decoded so far -/

structure Half (fs found : FileSystem) (done : Finset Nat) (place : Nat → Nat)
    (after : FileSystem) : Prop where
  fixed : Fixed found.zbd after.zbd
  referring : Referring after
  inside : ∀ k ∈ done, place k < after.objects.length
  distinct : ∀ k ∈ done, ∀ j ∈ done, place k = place j → k = j
  same : ∀ k ∈ done, SameFile (fs.object k).file (after.object (place k)).file
  names : ∀ name j, after.getFile name = some j ↔
    ∃ k ∈ done, name ∈ (fs.object k).file.linkfiles ∧ j = place k
  numbers : ∀ k ∈ done, (fs.object k).file.fileId < after.nextFileId
  counted : ∀ zone, used after.zbd zone = used found.zbd zone +
    .ofNat (∑ k ∈ done, usedIn zone (fs.object k).file.extents)

/-- The file system with a copy of file `k`, before it has names. -/
def withCopy (config : BuildConfig) (fs : FileSystem) (k : Nat) (wal : Option Nat)
    (after : FileSystem) : FileSystem :=
  after.withDecoded (fs.object k).file.record (decodedFile config (fs.object k).file.record
    (fs.object k).file.extents (fs.object k).file.extents wal)

theorem object_withCopy (config : BuildConfig) (fs : FileSystem) (k : Nat) (wal : Option Nat)
    (replies : List Int) (events : List IoEvent) (after : FileSystem) (j : Nat) :
    (((withCopy config fs k wal after).quietly replies events).object j) =
      if j = after.objects.length then
        { file := decodedFile config (fs.object k).file.record (fs.object k).file.extents
            (fs.object k).file.extents wal }
      else after.object j :=
  object_append after _ 0 j

section Step

variable {config : BuildConfig} {fs found after : FileSystem} {done : Finset Nat} {place : Nat → Nat}
  {k : Nat} {wal : Option Nat} {replies : List Int} {events : List IoEvent}

theorem Half.again (half : Half fs found done place after) (seen : k ∈ done)
    (later : List Int) (more : List IoEvent) :
    Half fs found (insert k done) place
      ((((withCopy config fs k wal after).quietly replies events).quietly later more).destroyed
        after.objects.length) := by
  have objects (j : Nat) (inside : j < after.objects.length) :
      ((((withCopy config fs k wal after).quietly replies events).quietly later more).destroyed
        after.objects.length).object j = after.object j := by
    rw [object_destroyed, if_neg (by omega)]
    exact (object_withCopy config fs k wal replies events after j).trans (if_neg (by omega))
  have copy : ((((withCopy config fs k wal after).quietly replies events).quietly later more).object
      after.objects.length).file.extents = (fs.object k).file.extents := by
    have found := object_withCopy config fs k wal replies events after after.objects.length
    rw [if_pos rfl] at found
    exact congrArg (fun object => object.file.extents) found
  rw [Finset.insert_eq_of_mem seen]
  refine ⟨?_, ?_, ?_, half.distinct, ?_, half.names, ?_, ?_⟩
  · exact half.fixed.trans ((((addUsed_fixed _ _).trans (noted_fixed _ _ _)).trans
      (noted_fixed _ _ _)).trans (removeUsed_fixed _ _))
  · intro entry member
    have inside := half.referring entry member
    simp [destroyed, setObject, quietly, withCopy, withDecoded]
    omega
  · intro j member
    have inside := half.inside j member
    simp [destroyed, setObject, quietly, withCopy, withDecoded]
    omega
  · intro j member
    rw [objects _ (half.inside j member)]
    exact half.same j member
  · intro j member
    have below := half.numbers j member
    exact Nat.lt_of_lt_of_le below (Nat.le_max_left _ _)
  · intro zone
    have removed : used ((((withCopy config fs k wal after).quietly replies events).quietly later
        more).destroyed after.objects.length).zbd zone = used after.zbd zone := by
      rw [destroyed, copy]
      refine (used_removeUsed _ _ _).trans ?_
      have added : used (((withCopy config fs k wal after).quietly replies events).quietly later
          more).zbd zone = used after.zbd zone + .ofNat (usedIn zone (fs.object k).file.extents) :=
        used_addUsed _ _ _
      rw [added]
      exact UInt64.add_sub_cancel _ _
    rw [removed]
    exact half.counted zone

theorem Half.first (mountable : Mountable fs found) (half : Half fs found done place after)
    (fresh : k ∉ done) :
    Half fs found (insert k done) (Function.update place k after.objects.length)
      (((withCopy config fs k wal after).quietly replies events).insertLinks
        (fs.object k).file.linkfiles after.objects.length) := by
  rcases insertLinks_fields (fs.object k).file.linkfiles after.objects.length
    ((withCopy config fs k wal after).quietly replies events) with ⟨zbd, objects, next⟩
  have object (j : Nat) : ((((withCopy config fs k wal after).quietly replies events).insertLinks
      (fs.object k).file.linkfiles after.objects.length).object j) =
      ((withCopy config fs k wal after).quietly replies events).object j := by
    rw [FileSystem.object, objects]
    rfl
  have length : ((withCopy config fs k wal after).quietly replies events).objects.length =
      after.objects.length + 1 := by
    simp [quietly, withCopy, withDecoded]
  have old {j : Nat} (member : j ∈ done) : Function.update place k after.objects.length j = place j := by
    apply Function.update_of_ne
    intro same
    exact fresh (same ▸ member)
  have free {name : String} (listed : name ∈ (fs.object k).file.linkfiles) :
      after.getFile name = none := by
    rw [Option.eq_none_iff_forall_not_mem]
    intro j member
    rcases (half.names name j).mp member with ⟨i, seen, there, _⟩
    exact fresh (mountable.apart listed there ▸ seen)
  refine ⟨?_, ?_, ?_, ?_, ?_, ?_, ?_, ?_⟩
  · rw [zbd]
    exact half.fixed.trans ((addUsed_fixed _ _).trans (noted_fixed _ _ _))
  · apply referring_insertLinks
    · intro entry member
      have inside := half.referring entry member
      omega
    · omega
  · intro j member
    rw [objects, length]
    rcases Finset.mem_insert.mp member with same | member
    · rw [same, Function.update_self]
      omega
    · rw [old member]
      have inside := half.inside j member
      omega
  · intro i first j second
    rcases Finset.mem_insert.mp first with here | one
    · rcases Finset.mem_insert.mp second with there | two
      · intro _
        rw [here, there]
      · rw [here, Function.update_self, old two]
        have inside := half.inside j two
        omega
    · rcases Finset.mem_insert.mp second with there | two
      · rw [there, Function.update_self, old one]
        have inside := half.inside i one
        omega
      · rw [old one, old two]
        exact half.distinct i one j two
  · intro j member
    rw [object, object_withCopy]
    rcases Finset.mem_insert.mp member with rfl | member
    · rw [Function.update_self, if_pos rfl]
      exact sameFile_decoded config _ wal
    · have inside := half.inside j member
      rw [old member, if_neg (by omega)]
      exact half.same j member
  · intro name j
    have before : ((withCopy config fs k wal after).quietly replies events).getFile name =
        after.getFile name := rfl
    rw [getFile_insertLinks, before]
    by_cases listed : name ∈ (fs.object k).file.linkfiles
    · rw [if_pos ⟨listed, free listed⟩]
      constructor
      · intro same
        refine ⟨k, Finset.mem_insert_self k done, listed, ?_⟩
        rw [Function.update_self]
        exact (Option.some.inj same).symm
      · rintro ⟨i, member, there, same⟩
        rw [same, ← mountable.apart listed there, Function.update_self]
    · rw [if_neg fun both => listed both.1, half.names name j]
      constructor
      · rintro ⟨i, member, there, same⟩
        exact ⟨i, Finset.mem_insert_of_mem member, there, by rw [old member, same]⟩
      · rintro ⟨i, member, there, same⟩
        rcases Finset.mem_insert.mp member with rfl | member
        · exact absurd there listed
        · exact ⟨i, member, there, by rw [same, old member]⟩
  · intro j member
    rw [next]
    rcases Finset.mem_insert.mp member with rfl | member
    · exact Nat.le_max_right after.nextFileId _
    · exact Nat.lt_of_lt_of_le (half.numbers j member) (Nat.le_max_left _ _)
  · intro zone
    have added : used ((withCopy config fs k wal after).quietly replies events).zbd zone =
        used after.zbd zone + .ofNat (usedIn zone (fs.object k).file.extents) := used_addUsed _ _ _
    rw [zbd, added, half.counted zone, Finset.sum_insert fresh, UInt64.add_assoc,
      ← UInt64.ofNat_add, Nat.add_comm]

end Step

/-! ## The whole snapshot -/

theorem Half.restored {fs found after : FileSystem} {place : Nat → Nat} (mountable : Mountable fs found)
    (half : Half fs found (filesOf fs) place after) : Restored fs found after := by
  have mem {name : String} {k : Nat} (there : fs.getFile name = some k) :
      k ∈ filesOf fs ∧ name ∈ (fs.object k).file.linkfiles := by
    refine ⟨?_, (mountable.names name k).mp there⟩
    rw [filesOf, List.mem_toFinset]
    exact List.mem_map.mpr ⟨_, mem_of_getFile there, rfl⟩
  have found {name : String} {k : Nat} (there : fs.getFile name = some k) :
      after.getFile name = some (place k) :=
    (half.names name (place k)).mpr ⟨k, (mem there).1, (mem there).2, rfl⟩
  refine ⟨?_, ?_, ?_, ?_, half.counted⟩
  · intro name
    cases there : fs.getFile name with
    | some k => rw [found there, Option.isSome_some, Option.isSome_some]
    | none =>
        rw [Option.isSome_none, Option.isSome_eq_false_iff, Option.isNone_iff_eq_none,
          Option.eq_none_iff_forall_not_mem]
        intro j member
        rcases (half.names name j).mp member with ⟨k, _, linked, _⟩
        rw [(mountable.names name k).mpr linked] at there
        cases there
  · intro name other one two
    rcases Option.isSome_iff_exists.mp one with ⟨k, first⟩
    rcases Option.isSome_iff_exists.mp two with ⟨j, second⟩
    rw [found first, found second, first, second, Option.some_inj, Option.some_inj]
    constructor
    · exact half.distinct k (mem first).1 j (mem second).1
    · intro same
      rw [same]
  · intro name k j there here
    rw [found there, Option.some_inj] at here
    rw [← here]
    exact half.same k (mem there).1
  · intro name j here
    rcases (half.names name j).mp here with ⟨k, member, _, same⟩
    rw [same, (half.same k member).fileId]
    exact half.numbers k member

end Zwal.SnapshotRoundTrip
