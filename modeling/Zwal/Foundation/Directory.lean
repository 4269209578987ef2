import Mathlib

/-! # Directories

Names that refer to keys, kept on both sides: a table from names to keys, and for each key
the list of its names. Keys carry numbers that are given out in order. -/

namespace Zwal

@[ext]
structure Directory (Name Key : Type) where
  lookup : Name → Option Key
  links : Key → List Name

namespace Directory

variable {Name Key : Type}

def Holds (directory : Directory Name Key) (key : Key) : Prop :=
  ∃ name, directory.lookup name = some key

structure Linked (directory : Directory Name Key) : Prop where
  names : ∀ name key, directory.lookup name = some key ↔ name ∈ directory.links key
  once : ∀ key, (directory.links key).Nodup

/-- Keys that are referred to have different numbers, all of them given out before `next`. -/
structure Numbered (directory : Directory Name Key) (number : Key → Nat) (next : Nat) : Prop where
  below : ∀ key, directory.Holds key → number key < next
  distinct : ∀ first second, directory.Holds first → directory.Holds second →
    number first = number second → first = second

theorem Linked.apart {directory : Directory Name Key} (linked : directory.Linked) {name : Name}
    {first second : Key} (one : name ∈ directory.links first)
    (two : name ∈ directory.links second) : first = second := by
  have lookup := (linked.names name first).mpr one
  rw [(linked.names name second).mpr two] at lookup
  exact (Option.some.inj lookup).symm

theorem Numbered.of_holds {before after : Directory Name Key} {number : Key → Nat} {next : Nat}
    (numbered : before.Numbered number next)
    (holds : ∀ key, after.Holds key → before.Holds key) : after.Numbered number next where
  below key held := numbered.below key (holds key held)
  distinct first second one two := numbered.distinct first second (holds first one) (holds second two)

theorem Numbered.congr {directory : Directory Name Key} {first second : Key → Nat} {next : Nat}
    (numbered : directory.Numbered first next)
    (same : ∀ key, directory.Holds key → second key = first key) :
    directory.Numbered second next := by
  constructor
  · intro key held
    rw [same key held]
    exact numbered.below key held
  · intro one two held other equal
    rw [same one held, same two other] at equal
    exact numbered.distinct one two held other equal

theorem Numbered.skip {directory : Directory Name Key} {number : Key → Nat} {next : Nat}
    (numbered : directory.Numbered number next) : directory.Numbered number (next + 1) :=
  ⟨fun key held => Nat.lt_succ_of_lt (numbered.below key held), numbered.distinct⟩

variable [DecidableEq Name] [DecidableEq Key]

def add (name : Name) (key : Key) (directory : Directory Name Key) : Directory Name Key where
  lookup := Function.update directory.lookup name (some key)
  links := Function.update directory.links key (directory.links key ++ [name])

def remove (name : Name) (key : Key) (directory : Directory Name Key) : Directory Name Key where
  lookup := Function.update directory.lookup name none
  links := Function.update directory.links key ((directory.links key).erase name)

variable {directory : Directory Name Key} {name : Name} {key : Key}

@[simp] theorem lookup_add (label : Name) : (directory.add name key).lookup label =
    if label = name then some key else directory.lookup label := by
  simp [Directory.add, Function.update_apply]

@[simp] theorem links_add (other : Key) : (directory.add name key).links other =
    if other = key then directory.links key ++ [name] else directory.links other := by
  simp [Directory.add, Function.update_apply]

@[simp] theorem lookup_remove (label : Name) : (directory.remove name key).lookup label =
    if label = name then none else directory.lookup label := by
  simp [Directory.remove, Function.update_apply]

@[simp] theorem links_remove (other : Key) : (directory.remove name key).links other =
    if other = key then (directory.links key).erase name else directory.links other := by
  simp [Directory.remove, Function.update_apply]

theorem Linked.add (linked : directory.Linked) (fresh : directory.lookup name = none) :
    (directory.add name key).Linked := by
  have unlisted (other : Key) : name ∉ directory.links other := by
    intro listed
    rw [(linked.names name other).mpr listed] at fresh
    cases fresh
  constructor
  · intro label other
    rw [lookup_add, links_add]
    by_cases same : label = name
    · subst same
      by_cases here : other = key
      · simp [here]
      · simp [here, unlisted, Ne.symm here]
    · by_cases here : other = key
      · simp [here, same, linked.names]
      · simp [here, same, linked.names]
  · intro other
    rw [links_add]
    split
    · rw [List.nodup_append_comm]
      exact List.nodup_cons.mpr ⟨unlisted key, linked.once key⟩
    · exact linked.once other

theorem Linked.remove (linked : directory.Linked) (found : directory.lookup name = some key) :
    (directory.remove name key).Linked := by
  constructor
  · intro label other
    rw [lookup_remove, links_remove]
    by_cases same : label = name
    · subst same
      by_cases here : other = key
      · simp [here, (linked.once key).mem_erase_iff]
      · have unlisted : label ∉ directory.links other := by
          intro listed
          exact here (linked.apart listed ((linked.names label key).mp found))
        simp [here, unlisted]
    · by_cases here : other = key
      · simp [here, same, linked.names, List.mem_erase_of_ne]
      · simp [here, same, linked.names]
  · intro other
    rw [links_remove]
    split
    · exact (linked.once key).erase name
    · exact linked.once other

theorem holds_of_remove {other : Key} (holds : (directory.remove name key).Holds other) :
    directory.Holds other := by
  rcases holds with ⟨label, found⟩
  rw [lookup_remove] at found
  split at found
  · cases found
  · exact ⟨label, found⟩

theorem holds_of_add {other : Key} (holds : (directory.add name key).Holds other) :
    other = key ∨ directory.Holds other := by
  rcases holds with ⟨label, found⟩
  rw [lookup_add] at found
  split at found
  · exact .inl (Option.some.inj found).symm
  · exact .inr ⟨label, found⟩

theorem Numbered.add {number : Key → Nat} {next : Nat} (numbered : directory.Numbered number next)
    (fresh : ¬ directory.Holds key) :
    (directory.add name key).Numbered (Function.update number key next) (next + 1) := by
  have old (other : Key) (holds : (directory.add name key).Holds other) :
      (other = key ∧ Function.update number key next other = next) ∨
        (directory.Holds other ∧ Function.update number key next other = number other) := by
    rcases holds_of_add holds with same | held
    · exact .inl ⟨same, by rw [same, Function.update_self]⟩
    · refine .inr ⟨held, Function.update_of_ne ?_ _ _⟩
      intro same
      exact fresh (same ▸ held)
  constructor
  · intro other holds
    rcases old other holds with ⟨_, same⟩ | ⟨held, same⟩
    · omega
    · have below := numbered.below other held
      omega
  · intro first second one two equal
    rcases old first one with ⟨here, new⟩ | ⟨held, kept⟩
    · rcases old second two with ⟨there, _⟩ | ⟨held, kept⟩
      · rw [here, there]
      · have below := numbered.below second held
        omega
    · rcases old second two with ⟨_, new⟩ | ⟨held', kept'⟩
      · have below := numbered.below first held
        omega
      · exact numbered.distinct first second held held' (by omega)

theorem add_remove_eq_iff (linked : directory.Linked) (found : directory.lookup name = some key) :
    (directory.remove name key).add name key = directory ↔
      (directory.links key).getLast? = some name := by
  have lookup : ((directory.remove name key).add name key).lookup = directory.lookup := by
    funext label
    rw [lookup_add, lookup_remove]
    split
    · rename_i same
      rw [same, found]
    · rfl
  constructor
  · intro same
    have links := congrArg (fun directory => directory.links key) same
    simp only [links_add, links_remove, if_true] at links
    rw [← links, List.getLast?_concat]
  · intro last
    rcases List.getLast?_eq_some_iff.mp last with ⟨others, split⟩
    have fresh : name ∉ others := by
      have once := linked.once key
      rw [split, List.nodup_append_comm] at once
      exact (List.nodup_cons.mp once).1
    apply Directory.ext lookup
    funext other
    rw [links_add, links_remove, links_remove]
    split
    · rename_i here
      rw [here, if_pos rfl, split, List.erase_append_right _ fresh]
      simp
    · rfl

theorem remove_add_eq (linked : directory.Linked) (fresh : directory.lookup name = none) :
    (directory.add name key).remove name key = directory := by
  have unlisted : name ∉ directory.links key := by
    intro listed
    rw [(linked.names name key).mpr listed] at fresh
    cases fresh
  apply Directory.ext
  · funext label
    rw [lookup_remove, lookup_add]
    split
    · rename_i same
      rw [same, fresh]
    · rfl
  · funext other
    rw [links_remove, links_add, links_add]
    split
    · rename_i here
      rw [here, if_pos rfl, List.erase_append_right _ unlisted]
      simp
    · rfl

end Directory

end Zwal
