import Zwal.Foundation.Journal

/-! # Records that are alone

Marked records that were issued with nothing else in flight, and after which a window
starts, end their windows wherever the medium places the others. -/

namespace Zwal.Journal

variable {Record : Type}

section Windows

variable {size stamp : Record → Nat} {window : Nat}

/-- Every record marked by `final` was issued with nothing pending and ends the events. -/
def Isolated (final : Record → Prop) (events : List (Event Record)) : Prop :=
  ∀ before record after, events = before ++ .append record :: after → final record →
    pending before = [] ∧ records after = []

theorem Placement.isolated {final : Record → Prop} {events : List (Event Record)}
    {order : List Record} (placement : Placement events order) (isolated : Isolated final events) :
    ∀ record ∈ order.dropLast, ¬ final record := by
  intro record member marked
  have inside := placement.perm.subset ((List.dropLast_sublist _).subset member)
  rcases split_of_mem inside with ⟨before, after, rfl⟩
  rcases isolated before record after rfl marked with ⟨settled, last⟩
  rcases placement.last settled last with ⟨others, rfl, perm⟩
  rw [List.dropLast_concat] at member
  rcases split_of_mem (perm.subset member) with ⟨early, late, rfl⟩
  have follows := (isolated early record (late ++ .append record :: after) (by simp) marked).2
  simp [records] at follows
where
  split_of_mem {events : List (Event Record)} {record : Record} (member : record ∈ records events) :
      ∃ before after, events = before ++ .append record :: after := by
    induction events with
    | nil => simp [records] at member
    | cons event rest induction =>
        cases event with
        | append other =>
            rcases List.mem_cons.mp member with rfl | member
            · exact ⟨[], rest, rfl⟩
            · rcases induction member with ⟨before, after, rfl⟩
              exact ⟨.append other :: before, after, rfl⟩
        | sync =>
            rcases induction member with ⟨before, after, rfl⟩
            exact ⟨.sync :: before, after, rfl⟩

theorem pending_of_sync (before after : List (Event Record)) :
    pending (before ++ .sync :: after) = pending after := by
  simp [pending]

theorem isolated_segment {final : Record → Prop} {before segment after : List (Event Record)}
    {index : Nat} (start : total size (records before) = index * window)
    (boundary : before = [] ∨ ∃ init, before = init ++ [.sync])
    (fits : total size (records segment) ≤ window)
    (positive : ∀ record ∈ records segment, 0 < size record)
    (alone : ∀ early record late,
      before ++ segment ++ after = early ++ .append record :: late → final record →
      pending early = [])
    (last : ∀ early first between second late,
      before ++ segment ++ after = early ++ .append first :: between ++ .append second :: late →
      total size (records early) / window =
        total size (records (early ++ .append first :: between)) / window → ¬ final first) :
    Isolated final segment := by
  rintro early record late rfl marked
  have settled := alone (before ++ early) record (late ++ after) (by simp) marked
  refine ⟨?_, ?_⟩
  · rcases boundary with rfl | ⟨init, rfl⟩
    · exact settled
    · rw [List.append_assoc, List.singleton_append, pending_of_sync] at settled
      exact settled
  · by_contra some
    rcases List.exists_mem_of_ne_nil _ some with ⟨second, member⟩
    rcases Placement.isolated.split_of_mem member with ⟨between, rest, rfl⟩
    have nonempty : 0 < size second := positive second (by simp [records])
    have nonempty' : 0 < size record := positive record (by simp [records])
    simp only [records_append, records, total_append, total_cons] at fits
    refine last (before ++ early) record between second (rest ++ after) (by simp) ?_ marked
    simp only [records_append, records, total_append, total_cons, start]
    rw [Nat.mul_comm, Nat.add_assoc, Nat.mul_add_div (by omega), Nat.mul_add_div (by omega),
      Nat.div_eq_of_lt (by omega), Nat.div_eq_of_lt (by omega)]

theorem total_closed {closed : List (List (Event Record))}
    (full : ∀ segment ∈ closed, total size (records segment) = window) :
    total size (records (closed.flatMap fun segment => segment ++ [.sync])) =
      closed.length * window := by
  induction closed with
  | nil => simp [records]
  | cons segment closed induction =>
      have first := full segment List.mem_cons_self
      have rest := induction fun other member => full other (List.mem_cons_of_mem _ member)
      simp only [List.flatMap_cons, records_append, records, total_append, first, rest,
        total_nil, List.length_cons, Nat.succ_mul]
      omega

theorem closed_boundary (closed : List (List (Event Record))) :
    (closed.flatMap fun segment => segment ++ [.sync]) = [] ∨
      ∃ init, (closed.flatMap fun segment => segment ++ [.sync]) = init ++ [.sync] := by
  rcases List.eq_nil_or_concat closed with rfl | ⟨before, last, rfl⟩
  · exact .inl rfl
  · exact .inr ⟨(before.flatMap fun segment => segment ++ [.sync]) ++ last, by simp⟩

theorem isolated_segments {final : Record → Prop} {closed : List (List (Event Record))}
    {rest : List (Event Record)}
    (full : ∀ segment ∈ closed, total size (records segment) = window)
    (fits : total size (records rest) ≤ window)
    (positive : ∀ record ∈ records ((closed.flatMap fun segment => segment ++ [.sync]) ++ rest),
      0 < size record)
    (alone : ∀ early record late,
      (closed.flatMap fun segment => segment ++ [.sync]) ++ rest = early ++ .append record :: late →
      final record → pending early = [])
    (last : ∀ early first between second late,
      (closed.flatMap fun segment => segment ++ [.sync]) ++ rest =
        early ++ .append first :: between ++ .append second :: late →
      total size (records early) / window =
        total size (records (early ++ .append first :: between)) / window → ¬ final first) :
    ∀ segment ∈ closed ++ [rest], Isolated final segment := by
  intro segment member
  rcases List.mem_append.mp member with member | member
  · rcases List.append_of_mem member with ⟨before, after, rfl⟩
    have split : ((before ++ segment :: after).flatMap fun segment => segment ++ [.sync]) ++ rest =
        (before.flatMap fun segment => segment ++ [.sync]) ++ segment ++
          (.sync :: (after.flatMap fun segment => segment ++ [.sync]) ++ rest) := by simp
    rw [split] at positive alone last
    exact isolated_segment (total_closed fun other inside => full other (by simp [inside]))
      (closed_boundary before) (Nat.le_of_eq (full segment (by simp)))
      (fun record inside => positive record (by simp [inside])) alone last
  · rw [List.mem_singleton.mp member]
    have split : (closed.flatMap fun segment => segment ++ [.sync]) ++ rest =
        (closed.flatMap fun segment => segment ++ [.sync]) ++ rest ++ [] := by simp
    rw [split] at alone last
    exact isolated_segment (total_closed full) (closed_boundary closed) fits
      (fun record inside => positive record (by simp [inside])) alone last

theorem exists_next (between : List (Event Record)) (second : Record) (late : List (Event Record)) :
    ∃ skipped next rest more, between ++ .append second :: late = skipped ++ .append next :: rest ∧
      records skipped = [] ∧ between = skipped ++ more := by
  induction between with
  | nil => exact ⟨[], second, late, [], rfl, rfl, rfl⟩
  | cons event between induction =>
      cases event with
      | append record => exact ⟨[], record, between ++ .append second :: late, _, rfl, rfl, rfl⟩
      | sync =>
          rcases induction with ⟨skipped, next, rest, more, split, none, within⟩
          exact ⟨.sync :: skipped, next, rest, more, by rw [List.cons_append, split]; rfl,
            none, by rw [within]; rfl⟩

theorem Barriered.last_of_isChain {final : Record → Prop} {events : List (Event Record)}
    {filled : Nat} (barriered : Barriered size stamp window events filled)
    (positive : ∀ record ∈ records events, 0 < size record)
    (chain : (records events).IsChain fun first second => ¬ final first ∨ stamp second = 0)
    {early between late : List (Event Record)} {first second : Record}
    (split : events = early ++ .append first :: between ++ .append second :: late)
    (same : total size (records early) / window =
      total size (records (early ++ .append first :: between)) / window) : ¬ final first := by
  rcases exists_next between second late with ⟨skipped, next, rest, more, following, none, within⟩
  have splitNext : events = (early ++ .append first :: skipped) ++ .append next :: rest := by
    rw [split]
    simp [following]
  have starts : ¬ final first ∨ stamp next = 0 := by
    rw [splitNext] at chain
    simp only [records_append, records, none] at chain
    rw [List.append_assoc] at chain
    exact (List.isChain_cons_cons.mp chain.right_of_append).1
  refine starts.resolve_right fun zero => ?_
  have width := positive first (by simp [split, records])
  have boundary := (barriered.stamp_spec splitNext).2.1
  rw [zero] at boundary
  simp only [records_append, records, none, within, List.nil_append, total_append, total_cons,
    total_nil, Nat.add_zero] at boundary same
  generalize total size (records early) = start at boundary same
  have index := Nat.div_add_mod (start + size first) window
  have later : (start + size first) / window ≤ start / window := by
    rw [same]
    exact Nat.div_le_div_right (by omega)
  have below := Nat.mul_le_mul_left window later
  have beginning := Nat.mul_div_le start window
  omega

/-- The windows of a journal whose marked records are alone, as the medium holds them:
none is empty, and a marked record ends its window. -/
theorem Barriered.placed_isolated {final : Record → Prop} {events : List (Event Record)}
    {filled : Nat} (barriered : Barriered size stamp window events filled) (wide : 0 < window)
    (positive : ∀ record ∈ records events, 0 < size record)
    (alone : ∀ early record late, events = early ++ .append record :: late → final record →
      pending early = [])
    (last : ∀ early first between second late,
      events = early ++ .append first :: between ++ .append second :: late →
      total size (records early) / window =
        total size (records (early ++ .append first :: between)) / window → ¬ final first)
    {order : List Record} (placement : Placement events order) :
    ∃ issued landed, records events = issued.flatten ∧ order = landed.flatten ∧
      List.Forall₂ List.Perm landed issued ∧ Windows size window issued ∧
      (∀ part ∈ issued, part ≠ []) ∧ ∀ part ∈ landed, ∀ record ∈ part.dropLast, ¬ final record := by
  have filled_le := barriered.filled_le
  rcases barriered.segments with ⟨closed, rest, rfl, full, level⟩
  have isolated := isolated_segments full (level ▸ filled_le) positive alone last
  rcases placement.segments with ⟨landed, rfl, moved⟩
  rcases forall₂_split moved with ⟨early, late, rfl, movedClosed, movedRest⟩
  rcases List.forall₂_cons_right_iff.mp movedRest with ⟨part, _, placedRest, nothing, rfl⟩
  cases nothing
  have perms (parts : List (List Record)) (segments : List (List (Event Record)))
      (placed : List.Forall₂ (fun part segment => Placement segment part) parts segments) :
      List.Forall₂ List.Perm parts (segments.map records) :=
    List.forall₂_map_right_iff.mpr (placed.imp fun _ _ placed => placed.perm)
  have closedFilled : ∀ part ∈ closed.map records, part ≠ [] := by
    rintro part member rfl
    rcases List.mem_map.mp member with ⟨segment, inside, none⟩
    have filledUp := full segment inside
    rw [none, total_nil] at filledUp
    omega
  have windows : Windows size window ((closed ++ [rest]).map records) :=
    windows_segments full (level ▸ filled_le)
  have marks : ∀ other ∈ early ++ [part], ∀ record ∈ other.dropLast, ¬ final record := by
    intro other member
    rcases forall₂_mem_left moved member with ⟨segment, inside, placed⟩
    exact placed.isolated (isolated segment inside)
  by_cases none : records rest = []
  · have nothing : part = [] := by
      have perm := placedRest.perm
      rw [none] at perm
      exact perm.eq_nil
    refine ⟨closed.map records, early, by rw [records_segments]; simp [none], by simp [nothing],
      perms early closed movedClosed, ⟨fun other member => ?_, fun other member => ?_⟩, closedFilled,
      fun other member => marks other (List.mem_append_left _ member)⟩
    · exact windows.full other (by simpa using (List.dropLast_sublist _).subset member)
    · exact windows.fits other (by
        rw [List.map_append]
        exact List.mem_append_left _ member)
  · refine ⟨(closed ++ [rest]).map records, early ++ [part], records_segments closed rest, rfl,
      perms _ _ moved, windows, fun other member => ?_, marks⟩
    rw [List.map_append] at member
    rcases List.mem_append.mp member with member | member
    · exact closedFilled other member
    · rw [List.mem_singleton.mp member]
      exact none

end Windows

end Zwal.Journal
