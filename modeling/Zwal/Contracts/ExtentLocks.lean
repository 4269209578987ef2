import Mathlib.Data.Set.Card
import Mathlib.Logic.Function.Basic
import Mathlib.Logic.Relation

/-! # Readers and writers of an extent list

`ReadLock` and `WriteLock` of `ZoneFile`: a reader counts itself while it holds
`writer_mtx_` and gives its count back without it; a writer holds the mutex from its
constructor to its destructor and spins in between until nobody is counted. A thread is
where its locks are, so a step is a step of one of the lock objects, in any order. -/

namespace Zwal.ExtentLocks

inductive Stage
  | absent
  /-- `ReadLock` after `writer_mtx_.lock()`. -/
  | entering
  /-- `ReadLock` after `readers_++`. -/
  | leaving
  /-- `ReadLock` after `writer_mtx_.unlock()`. -/
  | reading
  /-- `WriteLock` in `while (readers_ > 0)`. -/
  | spinning
  /-- `WriteLock` after its constructor. -/
  | writing
  deriving DecidableEq, Repr

/-- The lock is one of those `readers_` counts. -/
def Stage.counted : Stage → Bool
  | leaving | reading => true
  | absent | entering | spinning | writing => false

def Stage.owns : Stage → Bool
  | entering | leaving | spinning | writing => true
  | absent | reading => false

structure System (Lock Extents : Type) where
  stage : Lock → Stage
  /-- `writer_mtx_` is held. -/
  writerMtx : Bool
  readers : Int
  extents : Extents

variable {Lock Extents : Type}

def System.countedLocks (system : System Lock Extents) : Set Lock :=
  { lock | (system.stage lock).counted = true }

def unlocked (list : Extents) : System Lock Extents := ⟨fun _ => .absent, false, 0, list⟩

/-! ## The invariant -/

structure Owned (system : System Lock Extents) : Prop where
  free : system.writerMtx = false → ∀ lock, (system.stage lock).owns = false
  single : ∀ first second, (system.stage first).owns = true → (system.stage second).owns = true →
    first = second

section

variable {system : System Lock Extents} {lock : Lock}

theorem Owned.others (owned : Owned system) (owns : (system.stage lock).owns = true) :
    ∀ other, other ≠ lock → (system.stage other).owns = false := by
  intro other different
  rw [← Bool.not_eq_true]
  exact fun also => different (owned.single other lock also owns)

theorem Owned.held (owned : Owned system) (owns : (system.stage lock).owns = true) :
    system.writerMtx = true := by
  rw [← Bool.not_eq_false]
  intro free
  rw [owned.free free lock] at owns
  cases owns

theorem Owned.of_only {after : System Lock Extents} (held : after.writerMtx = true)
    (only : ∀ other, (after.stage other).owns = true → other = lock) : Owned after where
  free free := by
    rw [held] at free
    cases free
  single first second one two := (only first one).trans (only second two).symm

end

/-- `readers_` is the number of counted locks, and a writer has seen it at zero. -/
structure Sound (system : System Lock Extents) : Prop where
  owned : Owned system
  finite : system.countedLocks.Finite
  readers : system.readers = system.countedLocks.ncard
  alone : ∀ lock, system.stage lock = .writing → system.readers = 0

theorem sound_unlocked (list : Extents) : Sound (unlocked list : System Lock Extents) where
  owned := ⟨fun _ _ => rfl, fun _ _ one _ => Bool.noConfusion one⟩
  finite := by simp [System.countedLocks, unlocked, Stage.counted]
  readers := by simp [System.countedLocks, unlocked, Stage.counted]
  alone lock writing := by cases writing

/-! ## Steps -/

variable [DecidableEq Lock]

def System.move (system : System Lock Extents) (lock : Lock) (stage : Stage) : System Lock Extents :=
  { system with stage := Function.update system.stage lock stage }

inductive Step : System Lock Extents → System Lock Extents → Prop
  | lockRead {system} (lock : Lock) : system.stage lock = .absent → system.writerMtx = false →
      Step system { system.move lock .entering with writerMtx := true }
  | count {system} (lock : Lock) : system.stage lock = .entering →
      Step system { system.move lock .leaving with readers := system.readers + 1 }
  | unlockRead {system} (lock : Lock) : system.stage lock = .leaving →
      Step system { system.move lock .reading with writerMtx := false }
  | destroyRead {system} (lock : Lock) : system.stage lock = .reading →
      Step system { system.move lock .absent with readers := system.readers - 1 }
  | lockWrite {system} (lock : Lock) : system.stage lock = .absent → system.writerMtx = false →
      Step system { system.move lock .spinning with writerMtx := true }
  /-- The loop reads `readers_` once more. -/
  | spin {system} (lock : Lock) : system.stage lock = .spinning → system.readers > 0 →
      Step system system
  | enter {system} (lock : Lock) : system.stage lock = .spinning → ¬ system.readers > 0 →
      Step system (system.move lock .writing)
  /-- `ReplaceExtentList`, between the two ends of its `WriteLock`. -/
  | replace {system} (lock : Lock) (list : Extents) : system.stage lock = .writing →
      Step system { system with extents := list }
  | destroyWrite {system} (lock : Lock) : system.stage lock = .writing →
      Step system { system.move lock .absent with writerMtx := false }

abbrev Reaches (first last : System Lock Extents) : Prop := Relation.ReflTransGen Step first last

theorem stage_move (system : System Lock Extents) (lock : Lock) (stage : Stage) :
    (system.move lock stage).stage lock = stage :=
  Function.update_self ..

theorem stage_move_of_ne {lock other : Lock} (different : other ≠ lock) (system : System Lock Extents)
    (stage : Stage) : (system.move lock stage).stage other = system.stage other :=
  Function.update_of_ne different ..

/-! ## The mutex -/

section

variable {system : System Lock Extents} {lock : Lock} {stage : Stage}

theorem owner_move (others : ∀ other, other ≠ lock → (system.stage other).owns = false) :
    ∀ other, ((system.move lock stage).stage other).owns = true → other = lock := by
  intro other owns
  by_contra different
  rw [stage_move_of_ne different, others other different] at owns
  cases owns

theorem Owned.take (owned : Owned system) (free : system.writerMtx = false) :
    Owned { system.move lock stage with writerMtx := true } :=
  .of_only rfl (owner_move fun other _ => owned.free free other)

theorem Owned.stay (owned : Owned system) (owns : (system.stage lock).owns = true) :
    Owned (system.move lock stage) :=
  .of_only (owned.held owns) (owner_move (owned.others owns))

theorem Owned.drop (owned : Owned system) (owns : (system.stage lock).owns = true)
    (released : stage.owns = false) : Owned { system.move lock stage with writerMtx := false } := by
  have nobody : ∀ other, ((system.move lock stage).stage other).owns = false := by
    intro other
    by_cases here : other = lock
    · rw [here, stage_move, released]
    · rw [stage_move_of_ne here]
      exact owned.others owns other here
  refine ⟨fun _ => nobody, fun first second one _ => ?_⟩
  rw [nobody first] at one
  cases one

theorem Owned.beside (owned : Owned system) (idle : (system.stage lock).owns = false)
    (still : stage.owns = false) : Owned (system.move lock stage) := by
  have same : ∀ other, ((system.move lock stage).stage other).owns = (system.stage other).owns := by
    intro other
    by_cases here : other = lock
    · rw [here, stage_move, still, idle]
    · rw [stage_move_of_ne here]
  refine ⟨fun free other => ?_, fun first second one two => ?_⟩
  · rw [same]
    exact owned.free free other
  · rw [same] at one two
    exact owned.single first second one two

/-! ## The counter -/

theorem countedLocks_move (same : stage.counted = (system.stage lock).counted) :
    (system.move lock stage).countedLocks = system.countedLocks := by
  ext other
  by_cases here : other = lock
  · simp only [System.countedLocks, Set.mem_ofPred_eq, here, stage_move, same]
  · simp only [System.countedLocks, Set.mem_ofPred_eq, stage_move_of_ne here]

theorem countedLocks_count (counted : stage.counted = true) :
    (system.move lock stage).countedLocks = insert lock system.countedLocks := by
  ext other
  by_cases here : other = lock
  · simp only [System.countedLocks, Set.mem_ofPred_eq, Set.mem_insert_iff, here, stage_move, counted,
      true_or]
  · simp only [System.countedLocks, Set.mem_ofPred_eq, Set.mem_insert_iff, here, false_or,
      stage_move_of_ne here]

theorem countedLocks_destroy (gone : stage.counted = false) :
    (system.move lock stage).countedLocks = system.countedLocks \ {lock} := by
  ext other
  by_cases here : other = lock
  · simp [System.countedLocks, here, stage_move, gone]
  · simp [System.countedLocks, here, stage_move_of_ne here]

end

/-! ## Every run -/

theorem writing_move {system : System Lock Extents} {lock other : Lock} {stage : Stage}
    (different : stage ≠ .writing) (writing : (system.move lock stage).stage other = .writing) :
    system.stage other = .writing := by
  by_cases here : other = lock
  · rw [here, stage_move] at writing
    exact absurd writing different
  · rw [stage_move_of_ne here] at writing
    exact writing

theorem Sound.uncounted {system : System Lock Extents} (sound : Sound system) {lock : Lock} {stage : Stage}
    (mutex : Bool) (same : stage.counted = (system.stage lock).counted) (different : stage ≠ .writing)
    (owned : Owned { system.move lock stage with writerMtx := mutex }) :
    Sound { system.move lock stage with writerMtx := mutex } where
  owned := owned
  finite := (countedLocks_move same).symm ▸ sound.finite
  readers := sound.readers.trans (congrArg (fun locks => (Set.ncard locks : Int))
    (countedLocks_move same).symm)
  alone other writing := sound.alone other (writing_move different writing)

theorem Step.sound {before after : System Lock Extents} (step : Step before after) (sound : Sound before) :
    Sound after := by
  have owned := sound.owned
  have readers := sound.readers
  cases step with
  | lockRead lock absent free =>
      exact sound.uncounted true (by rw [absent]; rfl) (by simp) (owned.take free)
  | count lock entering =>
      have owns : (before.stage lock).owns = true := by rw [entering]; rfl
      have fresh : lock ∉ before.countedLocks := by
        simp [System.countedLocks, entering, Stage.counted]
      have more : (before.move lock .leaving).countedLocks = insert lock before.countedLocks :=
        countedLocks_count rfl
      refine ⟨⟨(owned.stay owns).free, (owned.stay owns).single⟩, ?_, ?_, ?_⟩
      · exact more.symm ▸ sound.finite.insert lock
      · have size := Set.ncard_insert_of_notMem fresh sound.finite
        rw [← more] at size
        exact (congrArg (· + 1) readers).trans (by exact_mod_cast size.symm)
      · -- a writer would own the mutex this reader holds
        intro other writing
        have was := writing_move (by simp) writing
        have same := owned.single other lock (by rw [was]; rfl) owns
        rw [same, entering] at was
        cases was
  | unlockRead lock leaving =>
      exact sound.uncounted false (by rw [leaving]; rfl) (by simp) (owned.drop (by rw [leaving]; rfl) rfl)
  | destroyRead lock reading =>
      have member : lock ∈ before.countedLocks := by
        simp [System.countedLocks, reading, Stage.counted]
      have fewer : (before.move lock .absent).countedLocks = before.countedLocks \ {lock} :=
        countedLocks_destroy rfl
      have size := Set.ncard_sdiff_singleton_add_one member sound.finite
      have beside : Owned (before.move lock .absent) := owned.beside (by rw [reading]; rfl) rfl
      refine ⟨⟨beside.free, beside.single⟩, ?_, ?_, ?_⟩
      · exact fewer.symm ▸ sound.finite.sdiff
      · rw [← fewer] at size
        rw [← size] at readers
        change before.readers - 1 = ((before.move lock .absent).countedLocks.ncard : Int)
        omega
      · intro other writing
        have none := sound.alone other (writing_move (by simp) writing)
        omega
  | lockWrite lock absent free =>
      exact sound.uncounted true (by rw [absent]; rfl) (by simp) (owned.take free)
  | spin => exact sound
  | enter lock spinning seen =>
      have same : (before.move lock .writing).countedLocks = before.countedLocks :=
        countedLocks_move (by rw [spinning]; rfl)
      refine ⟨owned.stay (by rw [spinning]; rfl), same.symm ▸ sound.finite, ?_, ?_⟩
      · rw [same]
        exact readers
      · intro other _
        change before.readers = 0
        omega
  | replace => exact ⟨⟨owned.free, owned.single⟩, sound.finite, readers, sound.alone⟩
  | destroyWrite lock writing =>
      exact sound.uncounted false (by rw [writing]; rfl) (by simp) (owned.drop (by rw [writing]; rfl) rfl)

theorem Reaches.sound {list : Extents} {system : System Lock Extents}
    (run : Reaches (unlocked list) system) : Sound system := by
  induction run with
  | refl => exact sound_unlocked list
  | tail _ step induction => exact step.sound induction

/-- In every interleaving a writer whose constructor has returned is alone: `readers_` is
zero and there is no other one. `readers_` is the number of locks counted and not yet
destroyed. -/
theorem writer_excludes {list : Extents} {system : System Lock Extents}
    (run : Reaches (unlocked list) system) :
    (∀ lock, system.stage lock = .writing → system.readers = 0 ∧
      ∀ other, system.stage other = .writing → other = lock) ∧
    system.countedLocks.Finite ∧ system.readers = system.countedLocks.ncard ∧ 0 ≤ system.readers := by
  have sound := run.sound
  refine ⟨fun lock writing => ⟨sound.alone lock writing, fun other also => ?_⟩, sound.finite,
    sound.readers, ?_⟩
  · exact sound.owned.single other lock (by rw [also]; rfl) (by rw [writing]; rfl)
  · rw [sound.readers]
    exact Int.natCast_nonneg _

/-- A reader comes and goes, then a writer comes in. -/
theorem writer_excludes_after_reader :
    ∃ system : System Nat Unit, Reaches (unlocked ()) system ∧ system.stage 1 = .writing ∧
      system.readers = 0 := by
  have reads : Reaches (unlocked () : System Nat Unit) _ :=
    (((Relation.ReflTransGen.single (.lockRead 0 rfl rfl)).tail (.count 0 rfl)).tail
      (.unlockRead 0 rfl)).tail (.destroyRead 0 rfl)
  have run := (reads.tail (.lockWrite 1 rfl rfl)).tail (.enter 1 rfl (by decide))
  exact ⟨_, run, rfl, ((writer_excludes run).1 1 rfl).1⟩

/-! ## What a reader sees -/

theorem Step.extents {before after : System Lock Extents} (step : Step before after)
    (sound : Sound before) {lock : Lock} (counted : (before.stage lock).counted = true) :
    after.extents = before.extents := by
  cases step with
  | replace writer list writing =>
      have none := sound.alone writer writing
      rw [sound.readers, Int.natCast_eq_zero, Set.ncard_eq_zero sound.finite] at none
      have member : lock ∈ before.countedLocks := counted
      rw [none] at member
      cases member
  | lockRead | count | unlockRead | destroyRead | lockWrite | spin | enter | destroyWrite => rfl

/-- From its constructor to its destructor a reader finds no list that was replaced.
`PushExtent` and the other calls that change `extents_` without a lock are no steps here. -/
theorem reader_sees_one_list {list : Extents} {first last : System Lock Extents} {lock : Lock}
    (run : Reaches (unlocked list) first)
    (onward : Relation.ReflTransGen
      (fun before after => (before.stage lock).counted = true ∧ Step before after) first last) :
    last.extents = first.extents := by
  have kept : Sound last ∧ last.extents = first.extents := by
    induction onward with
    | refl => exact ⟨run.sound, rfl⟩
    | tail _ step induction =>
        exact ⟨step.2.sound induction.1, (step.2.extents induction.1 step.1).trans induction.2⟩
  exact kept.2

/-- A writer comes while there is a reader. -/
theorem reader_sees_one_list_spinning :
    ∃ first last : System Nat Nat, first.stage 0 = .reading ∧ last.stage 1 = .spinning ∧
      last.extents = first.extents := by
  have run : Reaches (unlocked 0 : System Nat Nat) _ :=
    ((Relation.ReflTransGen.single (.lockRead 0 rfl rfl)).tail (.count 0 rfl)).tail (.unlockRead 0 rfl)
  have same := @reader_sees_one_list _ _ _ _ _ _ 0 run (.single ⟨rfl, .lockWrite 1 rfl rfl⟩)
  exact ⟨_, _, rfl, rfl, same⟩

end Zwal.ExtentLocks
