import Zwal.Fs.MetaZones
import Zwal.Fs.Runs

/-! # Crashes while metadata is written

A crash cuts a write to the metadata zones, or the roll of a mount, between any two of its
commands; no record is torn. The next mount recovers from the log before the write or from the log after it. -/

namespace Zwal.MetaCrash

open FileSystem

inductive Phase
  | down (before after : List MetaRecord)
  | up (place : MetaPlace) (log : List MetaRecord) (write : MetaWrite) (pending : List MetaCommand)

def made : MetaDisk := fun zone => if zone = 0 then some ⟨1, [.snapshot []], false⟩ else none

section

variable (config : BuildConfig) (count : Nat)

inductive Reaches : MetaDisk → Phase → Prop
  | mkfs : Reaches made (.down [.snapshot []] [.snapshot []])
  /-- A mount ends with a roll. -/
  | mount {disk before after fs mounted seq zone} (room : Bool) (files : List FileRecord) :
      Reaches disk (.down before after) →
      mountLog config count disk fs = (.ok (seq, zone), mounted) → seq + 1 < 2 ^ 32 →
      Reaches disk (.up ⟨zone, seq⟩ (((disk zone).map MetaZone.records).getD []) (.roll room files)
        ((MetaWrite.roll room files).commands disk ⟨zone, seq⟩))
  | write {disk place log last} (write : MetaWrite) : Reaches disk (.up place log last []) →
      (last.place place).seq + 1 < 2 ^ 32 →
      Reaches disk (.up (last.place place) (last.log log) write (write.commands disk (last.place place)))
  | perform {disk place log write command pending} :
      Reaches disk (.up place log write (command :: pending)) →
      Reaches (disk.perform command) (.up place log write pending)
  | crash {disk place log write pending} : Reaches disk (.up place log write pending) →
      Reaches disk (.down (if pending.isEmpty then write.log log else log) (write.log log))

variable {config count} {disk : MetaDisk} {place : MetaPlace} {log : List MetaRecord} {write : MetaWrite}

theorem Reaches.performed {pending : List MetaCommand}
    (reaches : Reaches config count disk (.up place log write pending)) :
    Reaches config count (pending.foldl MetaDisk.perform disk) (.up place log write []) := by
  induction pending generalizing disk with
  | nil => exact reaches
  | cons command pending induction => exact induction reaches.perform

/-- The zones follow the log of the file system through whatever it commits. -/
theorem Reaches.commitAll {fs : FileSystem} {records : List FileRecord}
    (reaches : Reaches config count disk (.up place log write [])) (same : write.log log = fs.metaLog)
    (counts : (write.place place).seq + records.length < 2 ^ 32) (room : Bool) (k : Nat) :
    ∃ disk place log write, Reaches config count disk (.up place log write []) ∧
      write.log log = (fs.commitAll k records).metaLog := by
  induction records generalizing disk place log write fs with
  | nil => exact ⟨disk, place, log, write, reaches, same⟩
  | cons record records induction =>
      rw [List.length_cons] at counts
      let next := fs.metaWrite room k record (.update record)
      have after : (next.place (write.place place)).seq ≤ (write.place place).seq + 1 := by
        rcases next with _ | _
        · exact Nat.le_succ _
        · exact Nat.mod_le _ _
      refine induction (reaches.write next (by omega)).performed ?_ (by omega)
      rw [same, commit_metaLog room]

end

/-- The log is in the current zone; a superblock that is not older has nothing behind it. -/
structure Sound (count : Nat) (disk : MetaDisk) (place : MetaPlace) (log : List MetaRecord)
    (ended : Bool) : Prop where
  inside : place.current < count
  holds : disk place.current = some ⟨place.seq, log, ended⟩
  snapshot : log.any MetaRecord.isSnapshot = true
  others : ∀ zone other, zone ≠ place.current → disk zone = some other →
    other.records = [] ∨ other.seq < place.seq

def Through (count : Nat) (place : MetaPlace) (log : List MetaRecord) (write : MetaWrite) :
    List MetaCommand → MetaDisk → Prop
  | [], disk => Sound count disk (write.place place) (write.log log) false
  | command :: rest, disk =>
      ((∃ ended, Sound count disk place log ended) ∨
        Sound count disk (write.place place) (write.log log) false) ∧
      Through count place log write rest (disk.perform command)

section

variable {count : Nat} {disk : MetaDisk} {place : MetaPlace} {log : List MetaRecord} {ended : Bool}

theorem Sound.tryLogs (sound : Sound count disk place log ended) (config : BuildConfig)
    {logs : List (Nat × Nat)} (sorted : logs.Pairwise (descending · ·))
    (there : ∀ seq zone, (seq, zone) ∈ logs → ∃ other, disk zone = some other ∧ other.seq = seq)
    (member : (place.seq, place.current) ∈ logs) :
    FileSystem.tryLogs config disk logs =
      recoverFrom config log >>= fun _ => pure (place.seq, place.current) := by
  induction logs with
  | nil => cases member
  | cons first logs induction =>
      rcases first with ⟨seq, zone⟩
      rcases there seq zone List.mem_cons_self with ⟨other, found, rfl⟩
      rw [FileSystem.tryLogs, found]
      by_cases same : zone = place.current
      · subst same
        cases sound.holds.symm.trans found
        simp only [Option.map_some, Option.getD_some, sound.snapshot, if_true]
      · have later : (place.seq, place.current) ∈ logs :=
          (List.mem_cons.mp member).resolve_left fun equal => same (congrArg Prod.snd equal).symm
        have order := (List.pairwise_cons.mp sorted).1 _ later
        -- a newer superblock is of a roll that did not get to its snapshot
        have blank : other.records = [] := (sound.others zone other same found).resolve_right (by
          simp only [descending, Bool.or_eq_true, decide_eq_true_eq, Bool.and_eq_true,
            beq_iff_eq] at order
          omega)
        simp only [Option.map_some, Option.getD_some, blank]
        exact induction (List.pairwise_cons.mp sorted).2
          (fun seq zone member => there seq zone (List.mem_cons_of_mem _ member)) later

theorem Sound.mountLog (sound : Sound count disk place log ended) (config : BuildConfig) :
    FileSystem.mountLog config count disk =
      recoverFrom config log >>= fun _ => pure (place.seq, place.current) := by
  apply sound.tryLogs config
  · apply List.pairwise_mergeSort <;> simp only [descending, Bool.or_eq_true, decide_eq_true_eq,
      Bool.and_eq_true, beq_iff_eq] <;> omega
  · intro seq zone member
    simp only [List.mem_mergeSort, List.mem_filterMap, Option.map_eq_some_iff, Prod.mk.injEq] at member
    grind
  · simp only [List.mem_mergeSort, List.mem_filterMap, List.mem_range]
    exact ⟨place.current, sound.inside, by simp [sound.holds]⟩

theorem Sound.elsewhere (sound : Sound count disk place log ended) {zone : Nat}
    (apart : zone ≠ place.current) (entry : Option MetaZone)
    (blank : ∀ other, entry = some other → other.records = []) :
    Sound count (Function.update disk zone entry) place log ended := by
  rcases sound with ⟨inside, holds, snapshot, others⟩
  constructor <;> grind [Function.update_apply]

theorem Sound.here (sound : Sound count disk place log ended) {next : List MetaRecord} (now : Bool)
    (snapshot : next.any MetaRecord.isSnapshot = true) :
    Sound count (Function.update disk place.current (some ⟨place.seq, next, now⟩)) place next now := by
  rcases sound with ⟨inside, holds, _, others⟩
  constructor <;> grind [Function.update_apply]

theorem Sound.closed (sound : Sound count disk place log ended) :
    Sound count (disk.perform (.endRecord place.current)) place log true := by
  simpa only [MetaDisk.perform, sound.holds, Option.map_some] using sound.here true sound.snapshot

theorem rolled_current (place : MetaPlace) :
    place.rolled.current < 2 ∧ place.rolled.current ≠ place.current := by
  simp only [MetaPlace.rolled]
  split <;> omega

theorem Sound.moves (two : 2 ≤ count) (fits : place.seq + 1 < 2 ^ 32) {room : Bool}
    {files : List FileRecord} (sound : Sound count disk place log ended) :
    Through count place log (.roll room files) (MetaWrite.moving place files) disk := by
  rcases rolled_current place with ⟨inside, apart⟩
  have next : place.rolled.seq = place.seq + 1 := Nat.mod_eq_of_lt fits
  have begun := sound.elsewhere apart (some ⟨place.rolled.seq, [], false⟩) (by simp)
  have moved : Sound count ((disk.perform (.superblock place.rolled.current place.rolled.seq)).perform
      (.record place.rolled.current (.snapshot files))) place.rolled [.snapshot files] false := by
    refine ⟨by omega, by simp [MetaDisk.perform], rfl, fun zone other away found => ?_⟩
    simp only [MetaDisk.perform, Function.update_of_ne away] at found
    rw [next]
    by_cases same : zone = place.current
    · cases (same ▸ sound.holds).symm.trans found
      exact .inr (Nat.lt_succ_self _)
    · exact (sound.others zone other same found).imp_right Nat.lt_succ_of_lt
  exact ⟨.inl ⟨_, sound⟩, .inl ⟨_, begun⟩, .inr moved, moved.elsewhere apart.symm none (by simp)⟩

theorem Sound.through (two : 2 ≤ count) (fits : place.seq + 1 < 2 ^ 32)
    (sound : Sound count disk place log ended) {write : MetaWrite}
    (may : ended = false ∨ ∃ room files, write = .roll room files) :
    Through count place log write (write.commands disk place) disk := by
  cases write with
  | add entry =>
      have free : ended = false := by simpa using may
      have snapshot : (log ++ [entry]).any MetaRecord.isSnapshot = true := by simp [sound.snapshot]
      refine ⟨.inl ⟨_, sound⟩, ?_⟩
      simpa [Through, MetaDisk.perform, MetaWrite.place, MetaWrite.log, sound.holds, free] using
        sound.here false snapshot
  | roll room files =>
      have cleared := sound.elsewhere (rolled_current place).2 none (by simp)
      rw [MetaWrite.commands]
      cases room <;> split
      · exact ⟨.inl ⟨_, sound⟩, cleared.moves two fits⟩
      · exact sound.moves two fits
      · exact ⟨.inl ⟨_, sound⟩, .inl ⟨_, cleared⟩, cleared.closed.moves two fits⟩
      · exact ⟨.inl ⟨_, sound⟩, sound.closed.moves two fits⟩

/-! ## Runs -/

def Holds (count : Nat) (disk : MetaDisk) : Phase → Prop
  | .down before after => ∃ place log ended, (log = before ∨ log = after) ∧ Sound count disk place log ended
  | .up place log write pending => Through count place log write pending disk

theorem made_sound (two : 2 ≤ count) : Sound count made ⟨0, 1⟩ [.snapshot []] false := by
  refine ⟨Nat.lt_of_succ_lt two, rfl, rfl, fun zone other away found => ?_⟩
  simp [made, away] at found

theorem Reaches.holds {config : BuildConfig} {phase : Phase} (two : 2 ≤ count)
    (reaches : Reaches config count disk phase) : Holds count disk phase := by
  induction reaches with
  | mkfs => exact ⟨_, _, _, .inl rfl, made_sound two⟩
  | mount room files _ mounted fits induction =>
      rcases induction with ⟨place, log, ended, _, sound⟩
      rw [sound.mountLog config] at mounted
      rcases bind_eq_ok mounted with ⟨_, _, _, last⟩
      cases last
      rw [sound.holds]
      exact sound.through two fits (.inr ⟨room, files, rfl⟩)
  | write write _ fits induction => exact Sound.through two fits induction (.inl rfl)
  | perform _ induction => exact induction.2
  | @crash disk place log write pending _ induction =>
      cases pending with
      | nil => exact ⟨_, _, _, .inr rfl, induction⟩
      | cons =>
          rcases induction.1 with ⟨ended, sound⟩ | sound
          · exact ⟨_, _, _, .inl rfl, sound⟩
          · exact ⟨_, _, _, .inr rfl, sound⟩

/-- After a crash `Mount` is `RecoverFrom` on the log before or after the write that was cut. -/
theorem mount_after_crash (config : BuildConfig) (two : 2 ≤ count) {before after : List MetaRecord}
    (reaches : Reaches config count disk (.down before after)) :
    ∃ log seq zone, (log = before ∨ log = after) ∧
      mountLog config count disk = recoverFrom config log >>= fun _ => pure (seq, zone) := by
  rcases reaches.holds two with ⟨place, log, ended, which, sound⟩
  exact ⟨log, place.seq, place.current, which, sound.mountLog config⟩

/-- The first roll is cut behind its superblock. -/
theorem mount_after_bare_superblock : ∃ log seq zone,
    (log = [.snapshot []] ∨ log = [.snapshot [({} : ZoneFile).record]]) ∧
      mountLog smallConfig 2 ((made.perform (.endRecord 0)).perform (.superblock 1 2)) =
        recoverFrom smallConfig log >>= fun _ => pure (seq, zone) := by
  have mounts : mountLog smallConfig 2 made (emptyFileSystem (emptyDevice [] 64 64 16 [])) =
      (.ok (1, 0), emptyFileSystem (emptyDevice [] 64 64 16 [])) := by
    rw [(made_sound le_rfl).mountLog]
    rfl
  have roll := Reaches.mkfs.mount true [({} : ZoneFile).record] mounts (by decide)
  exact mount_after_crash smallConfig le_rfl (Reaches.perform (Reaches.perform roll)).crash

end

end Zwal.MetaCrash
