import Mathlib

/-! # Journals with barriers

A journal receives records of given sizes and syncs. The medium may place the
records issued between two syncs in any order. A writer that cuts its records
at multiples of a window size, and syncs at each cut, keeps whole windows
together whatever order the medium chooses. -/

namespace Zwal.Journal

inductive Event (Record : Type)
  | append (record : Record)
  | sync
  deriving DecidableEq, Repr

variable {Record : Type}

def records : List (Event Record) → List Record
  | [] => []
  | .append record :: rest => record :: records rest
  | .sync :: rest => records rest

def groups : List (Event Record) → List (List Record)
  | [] => [[]]
  | .append record :: rest =>
      match groups rest with
      | [] => [[record]]
      | group :: others => (record :: group) :: others
  | .sync :: rest => [] :: groups rest

/-- The records issued since the last sync. -/
def pending (events : List (Event Record)) : List Record :=
  events.foldl (fun waiting event =>
    match event with
    | .append record => waiting ++ [record]
    | .sync => []) []

@[simp] theorem pending_append (events : List (Event Record)) (record : Record) :
    pending (events ++ [.append record]) = pending events ++ [record] := by
  simp [pending]

@[simp] theorem pending_sync (events : List (Event Record)) : pending (events ++ [.sync]) = [] := by
  simp [pending]

def Placement (events : List (Event Record)) (order : List Record) : Prop :=
  ∃ landed, List.Forall₂ List.Perm landed (groups events) ∧ order = landed.flatten

@[simp] theorem records_append (first second : List (Event Record)) :
    records (first ++ second) = records first ++ records second := by
  induction first with
  | nil => rfl
  | cons event rest induction => cases event <;> simp [records, induction]

theorem groups_ne_nil (events : List (Event Record)) : groups events ≠ [] := by
  cases events with
  | nil => simp [groups]
  | cons event rest =>
      cases event with
      | append record =>
          simp only [groups]
          split <;> simp
      | sync => simp [groups]

theorem groups_append_sync (first second : List (Event Record)) :
    groups (first ++ .sync :: second) = groups first ++ groups second := by
  induction first with
  | nil => simp [groups]
  | cons event rest induction =>
      cases event with
      | append record =>
          simp only [List.cons_append, groups, induction]
          rcases split : groups rest with _ | ⟨group, others⟩
          · exact absurd split (groups_ne_nil rest)
          · simp
      | sync => simp [groups, induction]

theorem flatten_groups (events : List (Event Record)) : (groups events).flatten = records events := by
  induction events with
  | nil => rfl
  | cons event rest induction =>
      cases event with
      | append record =>
          simp only [groups, records, ← induction]
          split <;> simp_all
      | sync => simp [groups, records, induction]

theorem perm_flatten {landed issued : List (List Record)}
    (moved : List.Forall₂ List.Perm landed issued) : landed.flatten.Perm issued.flatten := by
  induction moved with
  | nil => exact .refl _
  | cons head _ induction => exact head.append induction

theorem Placement.refl (events : List (Event Record)) : Placement events (records events) :=
  ⟨groups events, List.forall₂_same.mpr fun _ _ => .refl _, (flatten_groups events).symm⟩

theorem Placement.reversed (events : List (Event Record)) :
    Placement events ((groups events).map List.reverse).flatten :=
  ⟨_, List.forall₂_map_left_iff.mpr (List.forall₂_same.mpr fun group _ => group.reverse_perm), rfl⟩

theorem Placement.perm {events : List (Event Record)} {order : List Record}
    (placement : Placement events order) : order.Perm (records events) := by
  rcases placement with ⟨landed, moved, rfl⟩
  rw [← flatten_groups]
  exact perm_flatten moved

theorem forall₂_split {Left Right : Type} {related : Left → Right → Prop} {left : List Left}
    {first second : List Right} (all : List.Forall₂ related left (first ++ second)) :
    ∃ before after, left = before ++ after ∧ List.Forall₂ related before first ∧
      List.Forall₂ related after second := by
  induction first generalizing left with
  | nil => exact ⟨[], left, rfl, .nil, all⟩
  | cons head tail induction =>
      rcases List.forall₂_cons_right_iff.mp all with ⟨item, others, one, rest, rfl⟩
      rcases induction rest with ⟨before, after, rfl, first, second⟩
      exact ⟨item :: before, after, rfl, .cons one first, second⟩

theorem forall₂_mem_left {Left Right : Type} {related : Left → Right → Prop} {left : List Left}
    {right : List Right} (all : List.Forall₂ related left right) {item : Left}
    (member : item ∈ left) : ∃ other ∈ right, related item other := by
  induction all with
  | nil => simp at member
  | cons one _ induction =>
      rcases List.mem_cons.mp member with rfl | member
      · exact ⟨_, List.mem_cons_self, one⟩
      · rcases induction member with ⟨other, inside, holds⟩
        exact ⟨other, List.mem_cons_of_mem _ inside, holds⟩

theorem Placement.split {first second : List (Event Record)} {order : List Record}
    (placement : Placement (first ++ .sync :: second) order) :
    ∃ before after, order = before ++ after ∧ Placement first before ∧ Placement second after := by
  rcases placement with ⟨landed, moved, rfl⟩
  rw [groups_append_sync] at moved
  rcases forall₂_split moved with ⟨before, after, rfl, movedFirst, movedSecond⟩
  exact ⟨before.flatten, after.flatten, by simp, ⟨before, movedFirst, rfl⟩, after, movedSecond, rfl⟩

theorem sync_of_pending_nil {events : List (Event Record)} (settled : pending events = []) :
    records events = [] ∨ ∃ before after, events = before ++ .sync :: after ∧ records after = [] := by
  induction events using List.reverseRecOn with
  | nil => exact .inl rfl
  | append_singleton events last induction =>
      cases last with
      | append record => simp at settled
      | sync => exact .inr ⟨events, [], rfl, rfl⟩

theorem Placement.last {before after : List (Event Record)} {record : Record} {order : List Record}
    (placement : Placement (before ++ .append record :: after) order)
    (settled : pending before = []) (final : records after = []) :
    ∃ others, order = others ++ [record] ∧ others.Perm (records before) := by
  rcases sync_of_pending_nil settled with none | ⟨early, late, rfl, none⟩
  · have single : order.Perm [record] := by
      simpa [records, none, final] using placement.perm
    exact ⟨[], by simp [List.perm_singleton.mp single], by simp [none]⟩
  · have cut : Placement (early ++ .sync :: (late ++ .append record :: after)) order := by
      simpa using placement
    rcases cut.split with ⟨first, second, rfl, placedFirst, placedSecond⟩
    have single : second.Perm [record] := by
      simpa [records, none, final] using placedSecond.perm
    refine ⟨first, by simp [List.perm_singleton.mp single], ?_⟩
    simpa [records, none] using placedFirst.perm

/-! ## Barrier windows -/

section Windows

variable (size stamp : Record → Nat) (window : Nat)

def total (order : List Record) : Nat := (order.map size).sum

@[simp] theorem total_nil : total size [] = 0 := rfl

@[simp] theorem total_cons (record : Record) (order : List Record) :
    total size (record :: order) = size record + total size order := by
  simp [total]

@[simp] theorem total_append (first second : List Record) :
    total size (first ++ second) = total size first + total size second := by
  simp [total]

theorem total_perm {first second : List Record} (moved : first.Perm second) :
    total size first = total size second :=
  (moved.map size).sum_eq

theorem dvd_total {unit : Nat} {order : List Record} (all : ∀ record ∈ order, unit ∣ size record) :
    unit ∣ total size order := by
  induction order with
  | nil => simp
  | cons record order induction =>
      rw [total_cons]
      exact Nat.dvd_add (all record List.mem_cons_self)
        (induction fun other member => all other (List.mem_cons_of_mem _ member))

/-- Journals of a writer that never crosses a window, syncs when a window is full,
and stamps each record with the fill level of its window. The number is the
fill level after the last event. -/
inductive Barriered : List (Event Record) → Nat → Prop
  | empty : Barriered [] 0
  | append {events record filled} : Barriered events filled → filled < window →
      stamp record = filled → filled + size record ≤ window →
      Barriered (events ++ [.append record]) (filled + size record)
  | sync {events filled} : Barriered events filled → Barriered (events ++ [.sync]) filled
  | barrier {events} : Barriered events window → Barriered (events ++ [.sync]) 0

variable {size stamp window}

theorem Barriered.filled_le {events : List (Event Record)} {filled : Nat}
    (barriered : Barriered size stamp window events filled) : filled ≤ window := by
  induction barriered with
  | empty => exact Nat.zero_le _
  | append _ _ _ fits _ => exact fits
  | sync _ induction => exact induction
  | barrier _ _ => exact Nat.zero_le _

theorem Barriered.before {events : List (Event Record)} {filled : Nat}
    (barriered : Barriered size stamp window events filled) {earlier after : List (Event Record)}
    {record : Record} (split : events = earlier ++ .append record :: after) :
    ∃ level, Barriered size stamp window earlier level ∧ level < window ∧
      stamp record = level ∧ level + size record ≤ window := by
  induction barriered generalizing after with
  | empty => simp at split
  | @append events last filled inner room stamped fits induction =>
      rcases List.eq_nil_or_concat after with rfl | ⟨init, final, rfl⟩
      · rcases List.append_inj' split rfl with ⟨rfl, same⟩
        cases same
        exact ⟨filled, inner, room, stamped, fits⟩
      · have assembled : events ++ [.append last] =
            (earlier ++ .append record :: init) ++ [final] := by simpa using split
        exact induction (List.append_inj' assembled rfl).1
  | @sync events filled _ induction =>
      rcases split_of_sync split with ⟨init, shorter⟩
      exact induction shorter
  | @barrier events _ induction =>
      rcases split_of_sync split with ⟨init, shorter⟩
      exact induction shorter
where
  split_of_sync {events earlier after : List (Event Record)} {record : Record}
      (split : events ++ [.sync] = earlier ++ .append record :: after) :
      ∃ init, events = earlier ++ .append record :: init := by
    rcases List.eq_nil_or_concat after with rfl | ⟨init, final, rfl⟩
    · have clash := (List.append_inj' split rfl).2
      simp at clash
    · have assembled : events ++ [.sync] = (earlier ++ .append record :: init) ++ [final] := by
        simpa using split
      exact ⟨init, (List.append_inj' assembled rfl).1⟩

/-- In issue order: whole windows lie below the current fill level, and a record not
followed by a sync lies in the current window. -/
theorem Barriered.current {events : List (Event Record)} {filled : Nat}
    (barriered : Barriered size stamp window events filled) :
    ∃ index, total size (records events) = index * window + filled ∧
      ∀ before record between, events = before ++ .append record :: between →
        .sync ∉ between → index * window ≤ total size (records before) := by
  induction barriered with
  | empty => exact ⟨0, by simp [records], fun before _ _ split => by simp at split⟩
  | @append events record filled _ _ _ _ induction =>
      rcases induction with ⟨index, level, recent⟩
      refine ⟨index, by simp [records, level]; omega, fun before earlier between split noSync => ?_⟩
      rcases List.eq_nil_or_concat between with rfl | ⟨init, last, rfl⟩
      · have same := (List.append_inj' split rfl).1
        rw [← same, level]
        omega
      · have shorter : events = before ++ .append earlier :: init := by
          have assembled : events ++ [.append record] =
              (before ++ .append earlier :: init) ++ [last] := by simpa using split
          exact (List.append_inj' assembled rfl).1
        exact recent before earlier init shorter (by simp_all)
  | @sync events filled _ induction =>
      rcases induction with ⟨index, level, _⟩
      refine ⟨index, by simp [records, level], fun before earlier between split noSync => ?_⟩
      exact absurd (sync_mem_of_split split) noSync
  | @barrier events _ induction =>
      rcases induction with ⟨index, level, _⟩
      refine ⟨index + 1, by simp [records, level, Nat.succ_mul],
        fun before earlier between split noSync => ?_⟩
      exact absurd (sync_mem_of_split split) noSync
where
  sync_mem_of_split {events before between : List (Event Record)} {earlier : Record}
      (split : events ++ [.sync] = before ++ .append earlier :: between) : .sync ∈ between := by
    rcases List.eq_nil_or_concat between with rfl | ⟨init, last, rfl⟩
    · have clash := (List.append_inj' split rfl).2
      simp at clash
    · have assembled : events ++ [.sync] = (before ++ .append earlier :: init) ++ [last] := by
        simpa using split
      have same := (List.append_inj' assembled rfl).2
      simp at same
      simp [same]

theorem Barriered.stamp_spec {events : List (Event Record)} {filled : Nat}
    (barriered : Barriered size stamp window events filled) {earlier after : List (Event Record)}
    {record : Record} (split : events = earlier ++ .append record :: after) :
    stamp record < window ∧ stamp record = total size (records earlier) % window ∧
      stamp record + size record ≤ window := by
  rcases barriered.before split with ⟨level, inner, room, stamped, fits⟩
  rcases inner.current with ⟨index, position, _⟩
  refine ⟨by omega, ?_, by omega⟩
  rw [stamped, position, Nat.mul_comm, Nat.mul_add_mod, Nat.mod_eq_of_lt room]

theorem Barriered.sync_between {events : List (Event Record)} {filled : Nat}
    (barriered : Barriered size stamp window events filled)
    {before between after : List (Event Record)} {first second : Record}
    (split : events = before ++ .append first :: between ++ .append second :: after)
    (windows : total size (records before) / window <
      total size (records (before ++ .append first :: between)) / window) :
    .sync ∈ between := by
  rcases barriered.before split with ⟨level, inner, room, _, _⟩
  rcases inner.current with ⟨index, position, recent⟩
  by_contra noSync
  have below := recent before first between rfl noSync
  have indexed : total size (records (before ++ .append first :: between)) / window = index := by
    rw [position, Nat.mul_comm, Nat.mul_add_div (by omega), Nat.div_eq_of_lt room, Nat.add_zero]
  have reached : index ≤ total size (records before) / window :=
    (Nat.le_div_iff_mul_le (by omega)).mpr below
  omega

theorem Barriered.segments {events : List (Event Record)} {filled : Nat}
    (barriered : Barriered size stamp window events filled) :
    ∃ (closed : List (List (Event Record))) (last : List (Event Record)),
      events = (closed.flatMap fun segment => segment ++ [.sync]) ++ last ∧
      (∀ segment ∈ closed, total size (records segment) = window) ∧
      total size (records last) = filled := by
  induction barriered with
  | empty => exact ⟨[], [], rfl, by simp, rfl⟩
  | @append events record filled _ _ _ _ induction =>
      rcases induction with ⟨closed, last, rfl, full, level⟩
      exact ⟨closed, last ++ [.append record], by simp, full, by simp [records, level]⟩
  | @sync events filled _ induction =>
      rcases induction with ⟨closed, last, rfl, full, level⟩
      exact ⟨closed, last ++ [.sync], by simp, full, by simp [records, level]⟩
  | @barrier events _ induction =>
      rcases induction with ⟨closed, last, rfl, full, level⟩
      refine ⟨closed ++ [last], [], by simp, ?_, rfl⟩
      intro segment member
      rcases List.mem_append.mp member with member | member
      · exact full segment member
      · rw [List.mem_singleton.mp member]
        exact level

theorem Placement.segments {closed : List (List (Event Record))} {last : List (Event Record)}
    {order : List Record}
    (placement : Placement ((closed.flatMap fun segment => segment ++ [.sync]) ++ last) order) :
    ∃ landed, order = landed.flatten ∧
      List.Forall₂ (fun part segment => Placement segment part) landed (closed ++ [last]) := by
  induction closed generalizing order with
  | nil => exact ⟨[order], by simp, .cons placement .nil⟩
  | cons segment closed induction =>
      have cut : Placement
          (segment ++ .sync :: ((closed.flatMap fun segment => segment ++ [.sync]) ++ last))
          order := by
        simpa using placement
      rcases cut.split with ⟨before, after, rfl, moved, rest⟩
      rcases induction rest with ⟨landed, rfl, movedRest⟩
      exact ⟨before :: landed, by simp, .cons moved movedRest⟩

structure Windows (size : Record → Nat) (window : Nat) (parts : List (List Record)) : Prop where
  full : ∀ part ∈ parts.dropLast, total size part = window
  fits : ∀ part ∈ parts, total size part ≤ window

theorem Windows.perm {landed issued : List (List Record)} (windows : Windows size window issued)
    (moved : List.Forall₂ List.Perm landed issued) : Windows size window landed := by
  refine ⟨fun part member => ?_, fun part member => ?_⟩
  · rcases moved_dropLast moved with moved
    rcases forall₂_mem_left moved member with ⟨origin, inside, perm⟩
    rw [total_perm size perm, windows.full origin inside]
  · rcases forall₂_mem_left moved member with ⟨origin, inside, perm⟩
    rw [total_perm size perm]
    exact windows.fits origin inside
where
  moved_dropLast {landed issued : List (List Record)}
      (moved : List.Forall₂ List.Perm landed issued) :
      List.Forall₂ List.Perm landed.dropLast issued.dropLast := by
    induction moved with
    | nil => exact .nil
    | @cons head origin rest origins one others induction =>
        cases others with
        | nil => exact .nil
        | cons two more => exact .cons one induction

theorem records_segments (closed : List (List (Event Record))) (last : List (Event Record)) :
    records ((closed.flatMap fun segment => segment ++ [.sync]) ++ last) =
      ((closed ++ [last]).map records).flatten := by
  induction closed with
  | nil => simp
  | cons segment closed induction => simp_all [records]

theorem windows_segments {closed : List (List (Event Record))} {last : List (Event Record)}
    (full : ∀ segment ∈ closed, total size (records segment) = window)
    (fits : total size (records last) ≤ window) :
    Windows size window ((closed ++ [last]).map records) := by
  refine ⟨fun part member => ?_, fun part member => ?_⟩
  · rw [List.map_append, List.map_singleton, List.dropLast_concat] at member
    rcases List.mem_map.mp member with ⟨segment, inside, rfl⟩
    exact full segment inside
  · rcases List.mem_map.mp member with ⟨segment, inside, rfl⟩
    rcases List.mem_append.mp inside with inside | inside
    · exact Nat.le_of_eq (full segment inside)
    · rw [List.mem_singleton.mp inside]
      exact fits

theorem Barriered.placed_windows {events : List (Event Record)} {filled : Nat}
    (barriered : Barriered size stamp window events filled) {order : List Record}
    (placement : Placement events order) :
    ∃ issued landed, records events = issued.flatten ∧ order = landed.flatten ∧
      List.Forall₂ List.Perm landed issued ∧ Windows size window issued := by
  have filled_le := barriered.filled_le
  rcases barriered.segments with ⟨closed, last, rfl, full, level⟩
  rcases placement.segments with ⟨landed, rfl, moved⟩
  exact ⟨(closed ++ [last]).map records, landed, records_segments closed last, rfl,
    List.forall₂_map_right_iff.mpr (moved.imp fun _ _ placed => placed.perm),
    windows_segments full (level ▸ filled_le)⟩

theorem Windows.tail {part : List Record} {parts : List (List Record)}
    (windows : Windows size window (part :: parts)) : Windows size window parts := by
  refine ⟨fun other member => windows.full other ?_,
    fun other member => windows.fits other (List.mem_cons_of_mem _ member)⟩
  have nonempty : parts ≠ [] := by
    rintro rfl
    simp at member
  rw [List.dropLast_cons_of_ne_nil nonempty]
  exact List.mem_cons_of_mem _ member

theorem Windows.total_take {parts : List (List Record)} (windows : Windows size window parts)
    {index : Nat} (inside : index < parts.length) :
    total size (parts.take index).flatten = index * window := by
  induction parts generalizing index with
  | nil => simp at inside
  | cons part parts induction =>
      cases index with
      | zero => simp
      | succ index =>
          have shorter : index < parts.length := by simpa using inside
          have first : total size part = window := windows.full part (by
            rw [List.dropLast_cons_of_ne_nil (List.ne_nil_of_length_pos (by omega))]
            exact List.mem_cons_self)
          simp only [List.take_succ_cons, List.flatten_cons, total_append, first,
            induction windows.tail shorter, Nat.succ_mul]
          omega

theorem Windows.locate {parts : List (List Record)} (windows : Windows size window parts)
    {before after : List Record} {record : Record}
    (split : parts.flatten = before ++ record :: after) :
    ∃ index part level, parts[index]? = some part ∧ record ∈ part ∧
      total size before = index * window + level ∧ level + size record ≤ window := by
  induction parts generalizing before with
  | nil => simp at split
  | cons part parts induction =>
      rw [List.flatten_cons] at split
      have later : ∀ rest, before = part ++ rest → parts.flatten = rest ++ record :: after →
          ∃ index other level, (part :: parts)[index]? = some other ∧ record ∈ other ∧
            total size before = index * window + level ∧ level + size record ≤ window := by
        rintro rest rfl tail
        have nonempty : parts ≠ [] := by
          rintro rfl
          simp at tail
        have dropped := List.dropLast_cons_of_ne_nil (x := part) nonempty
        rcases induction windows.tail tail with ⟨index, other, level, found, inside, position, fits⟩
        refine ⟨index + 1, other, level, by simpa using found, inside, ?_, fits⟩
        have first : total size part = window := windows.full part (dropped ▸ List.mem_cons_self)
        rw [total_append, position, first, Nat.succ_mul]
        omega
      rcases List.append_eq_append_iff.mp split with ⟨rest, same, tail⟩ | ⟨rest, same, tail⟩
      · exact later rest same tail
      · cases rest with
        | nil => exact later [] (by simpa using same.symm) tail.symm
        | cons head rest =>
            cases tail
            refine ⟨0, part, total size before, rfl, by simp [same], by simp, ?_⟩
            have fits := windows.fits part List.mem_cons_self
            rw [same, total_append, total_cons] at fits
            omega

theorem Windows.inside {parts : List (List Record)} (windows : Windows size window parts)
    {before after : List Record} {record : Record}
    (split : parts.flatten = before ++ record :: after) :
    total size before % window + size record ≤ window := by
  rcases windows.locate split with ⟨index, _, level, _, _, position, fits⟩
  rw [position, Nat.mul_comm, Nat.mul_add_mod]
  exact Nat.le_trans (Nat.add_le_add_right (Nat.mod_le _ _) _) fits

theorem Windows.index {parts : List (List Record)} (windows : Windows size window parts)
    {before after : List Record} {record : Record}
    (split : parts.flatten = before ++ record :: after) (nonempty : 0 < size record) :
    ∃ part, parts[total size before / window]? = some part ∧ record ∈ part := by
  rcases windows.locate split with ⟨index, part, level, found, inside, position, fits⟩
  have indexed : total size before / window = index := by
    rw [position, Nat.mul_comm, Nat.mul_add_div (by omega), Nat.div_eq_of_lt (by omega),
      Nat.add_zero]
  exact ⟨part, indexed ▸ found, inside⟩

theorem keys_lt {issued landed : List (List Record)} {key : Record → Nat}
    (growing : issued.flatten.Pairwise fun first second => key first < key second)
    (moved : List.Forall₂ List.Perm landed issued) :
    landed.Pairwise fun first second => ∀ x ∈ first, ∀ y ∈ second, key x < key y := by
  have apart := (List.pairwise_flatten.mp growing).2
  clear growing
  induction moved with
  | nil => exact .nil
  | @cons head origin rest origins one others induction =>
      rcases List.pairwise_cons.mp apart with ⟨ahead, behind⟩
      refine List.pairwise_cons.mpr ⟨fun part member x inHead y inPart => ?_, induction behind⟩
      rcases forall₂_mem_left others member with ⟨source, inside, perm⟩
      exact ahead source inside x (one.subset inHead) y (perm.subset inPart)

theorem Windows.key_lt {issued landed : List (List Record)} {key : Record → Nat}
    (windows : Windows size window issued)
    (growing : issued.flatten.Pairwise fun first second => key first < key second)
    (moved : List.Forall₂ List.Perm landed issued)
    {before between after : List Record} {first second : Record}
    (split : landed.flatten = before ++ first :: between ++ second :: after)
    (nonemptyFirst : 0 < size first) (nonemptySecond : 0 < size second)
    (apart : total size before / window < total size (before ++ first :: between) / window) :
    key first < key second := by
  have landedWindows := windows.perm moved
  have early : landed.flatten = before ++ first :: (between ++ second :: after) := by simp [split]
  rcases landedWindows.index early nonemptyFirst with ⟨part, found, inside⟩
  rcases landedWindows.index split nonemptySecond with ⟨part', found', inside'⟩
  rcases List.getElem?_eq_some_iff.mp found with ⟨bound, same⟩
  rcases List.getElem?_eq_some_iff.mp found' with ⟨bound', same'⟩
  have ordered := List.pairwise_iff_getElem.mp (keys_lt growing moved) _ _ bound bound' apart
  exact ordered first (same ▸ inside) second (same' ▸ inside')

theorem exists_windows {order : List Record} (positive : ∀ record ∈ order, 0 < size record)
    (inside : ∀ before record after, order = before ++ record :: after →
      total size before % window + size record ≤ window) :
    ∃ parts, parts.flatten = order ∧ Windows size window parts ∧ ∀ part ∈ parts, part ≠ [] := by
  induction order using List.reverseRecOn with
  | nil => exact ⟨[], rfl, ⟨by simp, by simp⟩, by simp⟩
  | append_singleton order last induction =>
      have fits := inside order last [] rfl
      rcases induction (fun record member => positive record (by simp [member]))
        (fun before record after split =>
          inside before record (after ++ [last]) (by simp [split])) with
        ⟨parts, rfl, windows, nonempty⟩
      rcases List.eq_nil_or_concat parts with rfl | ⟨closed, current, rfl⟩
      · refine ⟨[[last]], rfl, ⟨by simp, ?_⟩, by simp⟩
        simpa using fits
      · rw [List.concat_eq_append] at windows nonempty fits
        have closedFull : ∀ part ∈ closed, total size part = window := fun part member =>
          windows.full part (by simpa using member)
        have currentFits := windows.fits current (by simp)
        have level : total size (closed ++ [current]).flatten =
            window * closed.length + total size current := by
          have start : total size ((closed ++ [current]).take closed.length).flatten =
              closed.length * window := windows.total_take (by simp)
          rw [List.take_left, Nat.mul_comm] at start
          simp [start]
        rw [level, Nat.mul_add_mod] at fits
        by_cases full : total size current = window
        · refine ⟨closed ++ [current] ++ [[last]], by simp, ⟨?_, ?_⟩, ?_⟩
          · intro part member
            rw [List.dropLast_concat] at member
            rcases List.mem_append.mp member with member | member
            · exact closedFull part member
            · rw [List.mem_singleton.mp member, full]
          · intro part member
            rcases List.mem_append.mp member with member | member
            · exact windows.fits part member
            · rw [List.mem_singleton.mp member]
              simp [full] at fits ⊢
              exact fits
          · intro part member
            rcases List.mem_append.mp member with member | member
            · exact nonempty part member
            · simp [List.mem_singleton.mp member]
        · rw [Nat.mod_eq_of_lt (by omega)] at fits
          refine ⟨closed ++ [current ++ [last]], by simp, ⟨?_, ?_⟩, ?_⟩
          · intro part member
            rw [List.dropLast_concat] at member
            exact closedFull part member
          · intro part member
            rcases List.mem_append.mp member with member | member
            · exact Nat.le_of_eq (closedFull part member)
            · rw [List.mem_singleton.mp member, total_append, total_cons, total_nil]
              exact fits
          · intro part member
            rcases List.mem_append.mp member with member | member
            · exact nonempty part (List.mem_append_left _ member)
            · simp [List.mem_singleton.mp member]

theorem Windows.pairwise {parts : List (List Record)} (windows : Windows size window parts)
    (positive : ∀ record ∈ parts.flatten, 0 < size record) {key : Record → Nat}
    (growing : ∀ before first between second after,
      parts.flatten = before ++ first :: between ++ second :: after →
      total size before / window < total size (before ++ first :: between) / window →
      key first < key second) :
    parts.Pairwise fun one two => ∀ first ∈ one, ∀ second ∈ two, key first < key second := by
  refine List.pairwise_iff_getElem.mpr fun low high lowBound highBound less first inLow second inHigh => ?_
  -- A record of part `index` starts in window `index`.
  have place : ∀ (index : Nat) (bound : index < parts.length) (before : List Record) record after,
      parts[index] = before ++ record :: after →
      total size ((parts.take index).flatten ++ before) / window = index := by
    intro index bound before record after split
    have fits := windows.fits _ (List.getElem_mem bound)
    have nonempty : 0 < size record := positive record
      (List.mem_flatten.mpr ⟨_, List.getElem_mem bound, by simp [split]⟩)
    rw [split, total_append, total_cons] at fits
    rw [total_append, windows.total_take bound, Nat.mul_comm, Nat.mul_add_div (by omega),
      Nat.div_eq_of_lt (by omega), Nat.add_zero]
  rcases List.append_of_mem inLow with ⟨early, late, lowSplit⟩
  rcases List.append_of_mem inHigh with ⟨early', late', highSplit⟩
  have middle : (parts.take high).flatten = (parts.take low).flatten ++ early ++
      first :: (late ++ ((parts.take high).drop (low + 1)).flatten) := by
    have bound : low < (parts.take high).length := by
      rw [List.length_take]
      omega
    conv_lhs => rw [← List.take_append_drop low (parts.take high), List.drop_eq_getElem_cons bound]
    rw [List.take_take, Nat.min_eq_left (Nat.le_of_lt less), List.flatten_append,
      List.flatten_cons, List.getElem_take, lowSplit]
    simp
  have whole : parts.flatten = (parts.take high).flatten ++ early' ++
      second :: (late' ++ (parts.drop (high + 1)).flatten) := by
    conv_lhs => rw [← List.take_append_drop high parts, List.drop_eq_getElem_cons highBound]
    rw [List.flatten_append, List.flatten_cons, highSplit]
    simp
  have placeLow := place low lowBound early first late lowSplit
  have placeHigh := place high highBound early' second late' highSplit
  refine growing ((parts.take low).flatten ++ early) first
    (late ++ ((parts.take high).drop (low + 1)).flatten ++ early') second
    (late' ++ (parts.drop (high + 1)).flatten) ?_ ?_
  · rw [whole, middle]
    simp
  · rw [middle] at placeHigh
    rw [placeLow]
    simp only [List.append_assoc, List.cons_append] at placeHigh ⊢
    omega

end Windows

end Zwal.Journal
