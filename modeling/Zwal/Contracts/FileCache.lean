import Zwal.Device.ZoneFs

/-! # The cache of open zone files

The list and the map of `ZoneFsFileCache` hold the same zones after any sequence of calls,
the list in the order of use. Its length stays within `max_` unless files were opened while
`max_` was zero: there `max_ - 1` is no limit at all, and the next `Resize` drops nothing. -/

namespace Zwal.FileCache

open ZoneFsFileCache

/-! ## What the calls do -/

structure Linked (cache : ZoneFsFileCache) : Prop where
  nodes : (cache.list.map CacheNode.node).Nodup
  zones : (cache.list.map CacheNode.zone).Nodup
  map : ∀ zone node, cache.map zone = some node ↔
    ∃ entry ∈ cache.list, entry.zone = zone ∧ entry.node = node
  fresh : ∀ entry ∈ cache.list, entry.node < cache.next
  files : ∀ entry ∈ cache.list, entry.file.zone = entry.zone

/-- Most recently used first; `uses` is what was used, the last first. -/
def Ordered (uses : List Nat) (cache : ZoneFsFileCache) : Prop :=
  cache.list.Pairwise fun first second => uses.idxOf first.zone < uses.idxOf second.zone

def cut (limit : Nat) (cache : ZoneFsFileCache) : ZoneFsFileCache :=
  { cache with
    list := cache.list.take limit
    map := fun zone =>
      if zone ∈ (cache.list.drop limit).map CacheNode.zone then none else cache.map zone }

@[simp] theorem max_cut (limit : Nat) (cache : ZoneFsFileCache) : (cut limit cache).max = cache.max := rfl

theorem cut_of_length_le {limit : Nat} {cache : ZoneFsFileCache} (short : cache.list.length ≤ limit) :
    cut limit cache = cache := by
  rw [cut, List.take_of_length_le short, List.drop_eq_nil_of_le short]
  simp

theorem cut_dropLast {limit : Nat} {cache : ZoneFsFileCache} {last : CacheNode}
    (long : limit < cache.list.length) (ends : cache.list.getLast? = some last) :
    cut limit { cache with list := cache.list.dropLast, map := eraseKey cache.map last.zone } =
      cut limit cache := by
  have parts : cache.list = cache.list.dropLast ++ [last] := by
    rw [List.getLast?_eq_some_iff] at ends
    rcases ends with ⟨front, same⟩
    rw [same, List.dropLast_concat]
  have size : limit ≤ cache.list.dropLast.length := by
    rw [List.length_dropLast]
    omega
  have taken : cache.list.take limit = cache.list.dropLast.take limit := by
    conv_lhs => rw [parts, List.take_append_of_le_length size]
  have dropped : cache.list.drop limit = cache.list.dropLast.drop limit ++ [last] := by
    conv_lhs => rw [parts, List.drop_append_of_le_length size]
  rw [cut, cut, taken, dropped]
  simp only [ZoneFsFileCache.mk.injEq, true_and, and_true]
  funext zone
  by_cases here : zone = last.zone
  · simp [eraseKey, here]
  · simp [eraseKey, here]

theorem prune_eq (limit : Nat) (cache : ZoneFsFileCache) : prune limit cache = cut limit cache := by
  have loop : ∀ fuel (cache : ZoneFsFileCache), cache.list.length ≤ fuel →
      pruneLoop limit fuel cache = cut limit cache := by
    intro fuel
    induction fuel with
    | zero =>
        intro cache short
        rw [pruneLoop, cut_of_length_le (by omega)]
    | succ fuel induction =>
        intro cache short
        rw [pruneLoop]
        split
        · rename_i long
          cases ends : cache.list.getLast? with
          | none =>
              rw [List.getLast?_eq_none_iff] at ends
              rw [ends] at long
              cases long
          | some last =>
              simp only
              rw [induction _ (by rw [List.length_dropLast]; omega), cut_dropLast long ends]
        · rename_i fits
          exact (cut_of_length_le (by omega)).symm
  exact loop _ cache (Nat.le_refl _)

/-! ## Links -/

theorem Linked.inj {cache : ZoneFsFileCache} (linked : Linked cache) {first second : CacheNode}
    (one : first ∈ cache.list) (two : second ∈ cache.list) (same : first.node = second.node) :
    first = second :=
  List.inj_on_of_nodup_map linked.nodes one two same

theorem Linked.zone_inj {cache : ZoneFsFileCache} (linked : Linked cache) {first second : CacheNode}
    (one : first ∈ cache.list) (two : second ∈ cache.list) (same : first.zone = second.zone) :
    first = second :=
  List.inj_on_of_nodup_map linked.zones one two same

theorem Linked.deref {cache : ZoneFsFileCache} (linked : Linked cache) {zone node : Nat}
    (found : cache.map zone = some node) :
    ∃ entry ∈ cache.list, cache.deref node = some entry ∧ entry.zone = zone ∧ entry.node = node := by
  rcases (linked.map zone node).mp found with ⟨entry, member, here, points⟩
  cases there : cache.deref node with
  | none =>
      have missing := List.find?_eq_none.mp there entry member
      simp [points] at missing
  | some other =>
      have also := List.mem_of_find?_eq_some there
      have pointed : other.node = node := by
        have equal := List.find?_some there
        exact beq_iff_eq.mp equal
      have same := linked.inj also member (pointed.trans points.symm)
      exact ⟨other, also, rfl, same ▸ here, pointed⟩

theorem Linked.unmapped {cache : ZoneFsFileCache} (linked : Linked cache) {zone : Nat}
    (missing : cache.map zone = none) : ∀ entry ∈ cache.list, entry.zone ≠ zone := by
  intro entry member here
  have found := (linked.map zone entry.node).mpr ⟨entry, member, here, rfl⟩
  rw [missing] at found
  cases found

theorem Linked.shrink {cache : ZoneFsFileCache} (linked : Linked cache) {list : List CacheNode}
    {map : Nat → Option Nat} (kept : list.Sublist cache.list)
    (stays : ∀ entry ∈ list, map entry.zone = cache.map entry.zone)
    (goes : ∀ zone node, map zone = some node → cache.map zone = some node ∧
      ∃ entry ∈ list, entry.zone = zone) :
    Linked { cache with list := list, map := map } where
  nodes := linked.nodes.sublist (kept.map _)
  zones := linked.zones.sublist (kept.map _)
  fresh entry member := linked.fresh entry (kept.subset member)
  files entry member := linked.files entry (kept.subset member)
  map zone node := by
    constructor
    · intro found
      rcases goes zone node found with ⟨was, entry, member, here⟩
      rcases (linked.map zone node).mp was with ⟨other, also, there, points⟩
      have same := linked.zone_inj (kept.subset member) also (here.trans there.symm)
      exact ⟨entry, member, here, same ▸ points⟩
    · rintro ⟨entry, member, here, points⟩
      have old := (linked.map zone node).mpr ⟨entry, kept.subset member, here, points⟩
      rw [← old, ← here]
      exact stays entry member

theorem Linked.cut {cache : ZoneFsFileCache} (linked : Linked cache) (limit : Nat) :
    Linked (cut limit cache) := by
  have parts := List.take_append_drop limit cache.list
  have apart : ∀ first ∈ cache.list.take limit, ∀ second ∈ cache.list.drop limit,
      first.zone ≠ second.zone := by
    have distinct := linked.zones
    rw [← parts, List.map_append, List.nodup_append] at distinct
    intro first one second two
    exact distinct.2.2 _ (List.mem_map_of_mem one) _ (List.mem_map_of_mem two)
  refine linked.shrink (List.take_sublist _ _) (fun entry member => ?_) fun zone node found => ?_
  · refine if_neg fun gone => ?_
    rcases List.mem_map.mp gone with ⟨other, dropped, same⟩
    exact apart entry member other dropped same.symm
  · split at found
    · cases found
    · rename_i stays
      rcases (linked.map zone node).mp found with ⟨entry, member, here, points⟩
      rw [← parts] at member
      refine ⟨found, entry, (List.mem_append.mp member).resolve_right fun dropped => stays ?_, here⟩
      exact here ▸ List.mem_map_of_mem dropped

theorem Linked.filter_zone {cache : ZoneFsFileCache} (linked : Linked cache) {entry : CacheNode}
    (member : entry ∈ cache.list) :
    (cache.list.filter fun other => other.node != entry.node) =
      cache.list.filter fun other => other.zone != entry.zone := by
  apply List.filter_congr
  intro other also
  by_cases same : other = entry
  · simp [same]
  · have nodes : other.node ≠ entry.node := fun equal => same (linked.inj also member equal)
    have zones : other.zone ≠ entry.zone := fun equal => same (linked.zone_inj also member equal)
    exact (bne_iff_ne.mpr nodes).trans (bne_iff_ne.mpr zones).symm

theorem Linked.erase {cache : ZoneFsFileCache} (linked : Linked cache) (zone : Nat) :
    Linked { cache with
      list := cache.list.filter fun entry => entry.zone != zone, map := eraseKey cache.map zone } := by
  refine linked.shrink List.filter_sublist (fun entry member => ?_) fun other node found => ?_
  · have different : entry.zone ≠ zone := by simpa using (List.mem_filter.mp member).2
    exact Function.update_of_ne different ..
  · have different : other ≠ zone := by
      intro same
      rw [eraseKey, same, Function.update_self] at found
      cases found
    rw [eraseKey, Function.update_of_ne different] at found
    rcases (linked.map other node).mp found with ⟨entry, member, here, _⟩
    exact ⟨found, entry, List.mem_filter.mpr ⟨member, bne_iff_ne.mpr (here ▸ different)⟩, here⟩

theorem put_eq {cache : ZoneFsFileCache} (linked : Linked cache) (zone : Nat) :
    cache.put zone = some cache ∨ cache.put zone = some { cache with
      list := cache.list.filter fun entry => entry.zone != zone, map := eraseKey cache.map zone } := by
  rw [put]
  cases found : cache.map zone with
  | none => exact .inl rfl
  | some node =>
      rcases linked.deref found with ⟨entry, member, there, here, points⟩
      right
      simp only [there]
      rw [← points, linked.filter_zone member, here]

def fronted (entry : CacheNode) (cache : ZoneFsFileCache) : ZoneFsFileCache :=
  { cache with list := entry :: cache.list.filter fun other => other.zone != entry.zone }

def inserted (zone fd : Nat) (cache : ZoneFsFileCache) : ZoneFsFileCache :=
  { cache with
    list := ⟨cache.next, zone, ⟨fd, zone⟩⟩ :: cache.list
    map := Function.update cache.map zone (some cache.next)
    next := cache.next + 1 }

@[simp] theorem max_fronted (entry : CacheNode) (cache : ZoneFsFileCache) :
    (fronted entry cache).max = cache.max := rfl

@[simp] theorem max_inserted (zone fd : Nat) (cache : ZoneFsFileCache) :
    (inserted zone fd cache).max = cache.max := rfl

theorem Linked.front {cache : ZoneFsFileCache} (linked : Linked cache) {entry : CacheNode}
    (member : entry ∈ cache.list) : Linked (fronted entry cache) := by
  have same : ∀ other, other ∈ entry :: (cache.list.filter fun other => other.zone != entry.zone) ↔
      other ∈ cache.list := by
    intro other
    rw [List.mem_cons, List.mem_filter]
    constructor
    · rintro (rfl | ⟨also, _⟩)
      · exact member
      · exact also
    · intro also
      by_cases here : other = entry
      · exact .inl here
      · exact .inr ⟨also, by simpa using fun equal => here (linked.zone_inj also member equal)⟩
  have kept := (List.filter_sublist (p := fun other : CacheNode => other.zone != entry.zone)
    (l := cache.list))
  rw [fronted]
  refine ⟨?_, ?_, fun zone node => ?_, fun other there => linked.fresh other ((same other).mp there),
    fun other there => linked.files other ((same other).mp there)⟩
  · rw [List.map_cons, List.nodup_cons]
    refine ⟨fun again => ?_, linked.nodes.sublist (kept.map _)⟩
    rcases List.mem_map.mp again with ⟨other, also, equal⟩
    rcases List.mem_filter.mp also with ⟨there, different⟩
    rw [linked.inj there member equal] at different
    simp at different
  · rw [List.map_cons, List.nodup_cons]
    refine ⟨fun again => ?_, linked.zones.sublist (kept.map _)⟩
    rcases List.mem_map.mp again with ⟨other, also, equal⟩
    rw [List.mem_filter, equal] at also
    simp at also
  · rw [linked.map]
    simp only [same]

theorem Linked.insert {cache : ZoneFsFileCache} (linked : Linked cache) {zone : Nat}
    (missing : ∀ entry ∈ cache.list, entry.zone ≠ zone) (fd : Nat) :
    Linked (inserted zone fd cache) := by
  rw [inserted]
  refine ⟨?_, ?_, fun other node => ?_, ?_, ?_⟩
  · rw [List.map_cons, List.nodup_cons]
    refine ⟨fun again => ?_, linked.nodes⟩
    rcases List.mem_map.mp again with ⟨entry, member, same⟩
    exact absurd (linked.fresh entry member) (by rw [same]; exact Nat.lt_irrefl _)
  · rw [List.map_cons, List.nodup_cons]
    refine ⟨fun again => ?_, linked.zones⟩
    rcases List.mem_map.mp again with ⟨entry, member, same⟩
    exact missing entry member same
  · by_cases here : other = zone
    · subst here
      have none : ∀ entry ∈ cache.list, ¬ (entry.zone = other ∧ entry.node = node) :=
        fun entry member equal => missing entry member equal.1
      simp only [Function.update_self, Option.some.injEq, List.exists_mem_cons_iff, true_and]
      refine ⟨.inl, fun either => either.resolve_right fun again => ?_⟩
      rcases again with ⟨entry, member, equal⟩
      exact none entry member equal
    · simp only [Function.update_of_ne here, linked.map, List.exists_mem_cons_iff]
      exact ⟨.inr, fun either => either.resolve_left fun equal => here equal.1.symm⟩
  · intro entry member
    rcases List.mem_cons.mp member with rfl | also
    · exact Nat.lt_succ_self _
    · exact Nat.lt_succ_of_lt (linked.fresh entry also)
  · intro entry member
    rcases List.mem_cons.mp member with rfl | also
    · rfl
    · exact linked.files entry also

theorem get_cases {cache : ZoneFsFileCache} (linked : Linked cache) (zone : Nat) (opened : Option Nat) :
    (cache.map zone = none ∧ opened = none ∧ cache.get zone opened = some (none, cache)) ∨
      (∃ fd, cache.map zone = none ∧ opened = some fd ∧ cache.get zone opened =
        some (some ⟨fd, zone⟩, inserted zone fd (cut cache.pruneLimit cache))) ∨
      ∃ entry ∈ cache.list, entry.zone = zone ∧ cache.map zone = some entry.node ∧
        cache.get zone opened = some (some entry.file, fronted entry cache) := by
  unfold ZoneFsFileCache.get
  cases found : cache.map zone with
  | none =>
      cases opened with
      | none => exact .inl ⟨rfl, rfl, rfl⟩
      | some fd =>
          right
          left
          refine ⟨fd, rfl, rfl, ?_⟩
          simp only [prune_eq]
          rfl
  | some node =>
      rcases linked.deref found with ⟨entry, member, there, here, points⟩
      right
      right
      refine ⟨entry, member, here, by rw [points], ?_⟩
      simp only [there]
      rw [← points, linked.filter_zone member]
      rfl

theorem Linked.unmapped_cut {cache : ZoneFsFileCache} (linked : Linked cache) {zone : Nat}
    (missing : cache.map zone = none) (limit : Nat) :
    ∀ entry ∈ (FileCache.cut limit cache).list, entry.zone ≠ zone :=
  fun entry member => linked.unmapped missing entry (List.mem_of_mem_take member)

/-! ## Order of use -/

theorem Ordered.sublist {uses : List Nat} {cache : ZoneFsFileCache} (ordered : Ordered uses cache)
    {list : List CacheNode} (kept : list.Sublist cache.list) (map : Nat → Option Nat) :
    Ordered uses { cache with list := list, map := map } :=
  List.Pairwise.sublist kept ordered

theorem Ordered.use {uses : List Nat} {cache : ZoneFsFileCache} {list : List CacheNode}
    {entry : CacheNode} (kept : list.Sublist cache.list) (ordered : Ordered uses cache)
    (others : ∀ other ∈ list, other.zone ≠ entry.zone) :
    (entry :: list).Pairwise fun first second =>
      (entry.zone :: uses).idxOf first.zone < (entry.zone :: uses).idxOf second.zone := by
  have later : ∀ other ∈ list, (entry.zone :: uses).idxOf other.zone = uses.idxOf other.zone + 1 :=
    fun other member => List.idxOf_cons_ne _ (others other member).symm
  rw [List.pairwise_cons]
  constructor
  · intro other member
    rw [List.idxOf_cons_self, later other member]
    exact Nat.succ_pos _
  · apply List.Pairwise.imp_of_mem _ (List.Pairwise.sublist kept ordered)
    intro first second one two before
    rw [later first one, later second two]
    exact Nat.succ_lt_succ before

/-! ## Calls -/

inductive Call
  | get (zone : Nat) (opened : Option Nat)
  | put (zone : Nat)
  | resize (newSize : UInt32)
  deriving DecidableEq

/-- The call and what it returns, unless it is undefined. -/
def Call.run : Call → ZoneFsFileCache → Option (Option ZoneFsFile × ZoneFsFileCache)
  | get zone opened, cache => cache.get zone opened
  | put zone, cache => (cache.put zone).map fun after => (none, after)
  | resize newSize, cache => some (none, cache.resize newSize.toNat)

/-- A `Get` that returned a file is a use of its zone. -/
def Call.uses (uses : List Nat) : Call → Option ZoneFsFile → List Nat
  | get zone _, some _ => zone :: uses
  | _, _ => uses

structure Good (uses : List Nat) (cache : ZoneFsFileCache) : Prop where
  linked : Linked cache
  ordered : Ordered uses cache
  bounded : 1 ≤ cache.max → cache.list.length ≤ cache.max
  unsigned : cache.max < 2 ^ 32

/-- What is asked of a call: a `Get` that failed changes nothing, and one that did not has
its zone in front of what is left of the other ones, the least recently used having gone. -/
def Fair (before : ZoneFsFileCache) (after : ZoneFsFileCache) : Call → Option ZoneFsFile → Prop
  | .get _ _, none => after = before
  | .get zone _, some file => file.zone = zone ∧ ∃ entry kept evicted,
      (before.list.filter fun other => other.zone != zone) = kept ++ evicted ∧
      after.list = entry :: kept ∧ entry.zone = zone ∧ entry.file = file
  | _, _ => True

theorem filter_zone_eq {list : List CacheNode} {zone : Nat} (missing : ∀ entry ∈ list, entry.zone ≠ zone) :
    (list.filter fun other => other.zone != zone) = list :=
  List.filter_eq_self.mpr fun entry member => bne_iff_ne.mpr (missing entry member)

theorem pruneLimit_of_pos {cache : ZoneFsFileCache} (positive : 1 ≤ cache.max)
    (unsigned : cache.max < 2 ^ 32) : cache.pruneLimit = cache.max - 1 := by
  rw [pruneLimit, show cache.max + 2 ^ 32 - 1 = cache.max - 1 + 2 ^ 32 by omega, Nat.add_mod_right,
    Nat.mod_eq_of_lt (by omega)]

theorem Good.get {uses : List Nat} {cache : ZoneFsFileCache} (good : Good uses cache) (zone : Nat)
    (opened : Option Nat) :
    ∃ result after, cache.get zone opened = some (result, after) ∧
      Good (Call.uses uses (.get zone opened) result) after ∧
      Fair cache after (.get zone opened) result := by
  have linked := good.linked
  rcases get_cases linked zone opened with
    ⟨_, _, run⟩ | ⟨fd, missing, _, run⟩ | ⟨entry, member, here, _, run⟩
  · exact ⟨_, _, run, good, rfl⟩
  · have limited := fun positive => pruneLimit_of_pos positive good.unsigned
    generalize cache.pruneLimit = limit at limited run
    have still := linked.unmapped_cut missing limit
    refine ⟨_, _, run, ⟨(linked.cut limit).insert still fd, ?_, ?_, ?_⟩, rfl, ?_⟩
    · rw [Ordered, inserted, cut, Call.uses]
      exact @Ordered.use _ cache _ ⟨cache.next, zone, ⟨fd, zone⟩⟩ (List.take_sublist limit _)
        good.ordered still
    · intro positive
      rw [max_inserted, max_cut] at positive ⊢
      have taken := List.length_take_le limit cache.list
      have exact_limit := limited positive
      rw [inserted, List.length_cons, cut]
      simp only
      omega
    · rw [max_inserted, max_cut]
      exact good.unsigned
    · refine ⟨_, cache.list.take limit, cache.list.drop limit, ?_, rfl, rfl, rfl⟩
      rw [filter_zone_eq (linked.unmapped missing), List.take_append_drop]
  · subst here
    have others : ∀ other ∈ cache.list.filter fun other => other.zone != entry.zone,
        other.zone ≠ entry.zone :=
      fun other also => bne_iff_ne.mp (List.mem_filter.mp also).2
    refine ⟨_, _, run, ⟨linked.front member, ?_, ?_, ?_⟩, linked.files entry member, ?_⟩
    · rw [Ordered, fronted, Call.uses]
      exact Ordered.use List.filter_sublist good.ordered others
    · intro positive
      have shorter : ((cache.list.filter fun other => other.zone != entry.zone)).length <
          cache.list.length := by
        apply List.length_filter_lt_length_iff_exists.mpr
        exact ⟨entry, member, by simp⟩
      exact Nat.le_trans shorter (good.bounded positive)
    · rw [max_fronted]
      exact good.unsigned
    · exact ⟨entry, _, [], (List.append_nil _).symm, rfl, rfl, rfl⟩

theorem Good.put {uses : List Nat} {cache : ZoneFsFileCache} (good : Good uses cache) (zone : Nat) :
    ∃ after, cache.put zone = some after ∧ Good uses after := by
  rcases put_eq good.linked zone with same | same
  · exact ⟨cache, same, good⟩
  · refine ⟨_, same, good.linked.erase zone, good.ordered.sublist List.filter_sublist _, ?_, good.unsigned⟩
    intro positive
    exact Nat.le_trans (List.length_filter_le _ _) (good.bounded positive)

theorem Good.resize {uses : List Nat} {cache : ZoneFsFileCache} (good : Good uses cache)
    (newSize : UInt32)
    (bounded : 1 ≤ newSize.toNat → (cache.resize newSize.toNat).list.length ≤ newSize.toNat) :
    Good uses (cache.resize newSize.toNat) := by
  have size : newSize.toNat < 2 ^ 32 := newSize.toNat_lt
  rw [ZoneFsFileCache.resize] at bounded ⊢
  split
  · rename_i smaller
    rw [if_pos smaller, prune_eq] at bounded
    rw [prune_eq]
    have linked := good.linked.cut newSize.toNat
    exact ⟨⟨linked.nodes, linked.zones, linked.map, linked.fresh, linked.files⟩,
      good.ordered.sublist (List.take_sublist _ _) cache.map, bounded, size⟩
  · rename_i larger
    rw [if_neg larger] at bounded
    have linked := good.linked
    exact ⟨⟨linked.nodes, linked.zones, linked.map, linked.fresh, linked.files⟩, good.ordered, bounded,
      size⟩

/-! ## Sequences of calls -/

/-- A `Resize` away from zero finds no more files open than it allows. -/
def Permitted (cache : ZoneFsFileCache) : Call → Prop
  | .resize newSize => cache.max = 0 → 1 ≤ newSize.toNat → cache.list.length ≤ newSize.toNat
  | _ => True

def AllPermitted : ZoneFsFileCache → List Call → Prop
  | _, [] => True
  | cache, call :: rest => Permitted cache call ∧
      ∀ result after, call.run cache = some (result, after) → AllPermitted after rest

/-- Every call is defined, and what is asked holds of every call and between any two. -/
def Holds : List Nat → ZoneFsFileCache → List Call → Prop
  | uses, cache, [] => Good uses cache
  | uses, cache, call :: rest => Good uses cache ∧ ∃ result after,
      call.run cache = some (result, after) ∧ Fair cache after call result ∧
        Holds (call.uses uses result) after rest

theorem Holds.good {uses : List Nat} {cache : ZoneFsFileCache} {calls : List Call}
    (holds : Holds uses cache calls) : Good uses cache := by
  cases calls with
  | nil => exact holds
  | cons => exact holds.1

theorem permitted_resize_iff {uses : List Nat} {cache : ZoneFsFileCache} (good : Good uses cache)
    (newSize : UInt32) :
    Permitted cache (.resize newSize) ↔
      (1 ≤ newSize.toNat → (cache.resize newSize.toNat).list.length ≤ newSize.toNat) := by
  rw [Permitted, ZoneFsFileCache.resize]
  by_cases smaller : newSize.toNat < cache.max
  · rw [if_pos smaller, prune_eq]
    refine iff_of_true (fun none => ?_) fun _ => List.length_take_le _ _
    omega
  · rw [if_neg smaller]
    constructor
    · intro permitted positive
      by_cases none : cache.max = 0
      · exact permitted none positive
      · exact Nat.le_trans (good.bounded (by omega)) (by omega)
    · exact fun bounded _ positive => bounded positive

theorem Good.call {uses : List Nat} {cache : ZoneFsFileCache} (good : Good uses cache) (call : Call) :
    ∃ result after, call.run cache = some (result, after) ∧ Fair cache after call result ∧
      (Permitted cache call ↔ Good (call.uses uses result) after) := by
  cases call with
  | get zone opened =>
      rcases good.get zone opened with ⟨result, after, run, still, fair⟩
      exact ⟨result, after, run, fair, iff_of_true trivial still⟩
  | put zone =>
      rcases good.put zone with ⟨after, run, still⟩
      refine ⟨none, after, ?_, trivial, iff_of_true trivial still⟩
      rw [Call.run, run]
      rfl
  | resize newSize =>
      refine ⟨none, _, rfl, trivial, ?_⟩
      rw [permitted_resize_iff good]
      exact ⟨good.resize newSize, Good.bounded⟩

theorem good_create (flags : Nat) : Good [] (create flags) where
  linked := ⟨List.nodup_nil, List.nodup_nil, by simp [create], by simp [create], by simp [create]⟩
  ordered := List.Pairwise.nil
  bounded _ := Nat.zero_le _
  unsigned := by
    rw [create]
    simp only
    split
    all_goals decide

theorem holds_iff {uses : List Nat} {cache : ZoneFsFileCache} (good : Good uses cache)
    (calls : List Call) : Holds uses cache calls ↔ AllPermitted cache calls := by
  induction calls generalizing uses cache with
  | nil => exact iff_of_true good trivial
  | cons call calls induction =>
      rcases good.call call with ⟨result, after, run, fair, keeps⟩
      constructor
      · rintro ⟨_, other, next, again, _, rest⟩
        rw [run] at again
        cases again
        refine ⟨keeps.mpr rest.good, fun other next once => ?_⟩
        rw [run] at once
        cases once
        exact (induction rest.good).mp rest
      · rintro ⟨permitted, later⟩
        exact ⟨good, result, after, run, fair,
          (induction (keeps.mp permitted)).mpr (later result after run)⟩

/-- Any sequence of calls on a new cache: the list and the map agree, the list is in the
order of use and within `max_`, and every `Get` evicts only what was used least recently,
exactly if no `Resize` away from zero finds more files open than it allows. -/
theorem cache_holds_iff (flags : Nat) (calls : List Call) :
    Holds [] (create flags) calls ↔ AllPermitted (create flags) calls :=
  holds_iff (good_create flags) calls

def runCalls : List Call → ZoneFsFileCache → Option ZoneFsFileCache
  | [], cache => some cache
  | call :: rest, cache => (call.run cache).bind fun ran => runCalls rest ran.2

theorem Holds.last {uses : List Nat} {cache : ZoneFsFileCache} {calls : List Call}
    (holds : Holds uses cache calls) :
    ∃ later after, runCalls calls cache = some after ∧ Good later after := by
  induction calls generalizing uses cache with
  | nil => exact ⟨uses, cache, rfl, holds⟩
  | cons call calls induction =>
      rcases holds with ⟨_, result, after, run, _, rest⟩
      rcases induction rest with ⟨later, last, onward, good⟩
      refine ⟨later, last, ?_, good⟩
      rw [runCalls, run]
      exact onward

/-- Two files are opened while `max_` is zero, and `Resize(1)` keeps both. -/
theorem resize_from_zero_keeps_two :
    ∃ after, runCalls [.resize 0, .get 1 (some 3), .get 2 (some 4), .resize 1] (create 0) = some after ∧
      after.max = 1 ∧ after.list.map CacheNode.zone = [2, 1] ∧
      ¬ Holds [] (create 0) [.resize 0, .get 1 (some 3), .get 2 (some 4), .resize 1] := by
  have ran : ∃ after, runCalls [.resize 0, .get 1 (some 3), .get 2 (some 4), .resize 1] (create 0) =
      some after ∧ after.max = 1 ∧ after.list.map CacheNode.zone = [2, 1] := ⟨_, rfl, rfl, rfl⟩
  rcases ran with ⟨after, run, limit, zones⟩
  refine ⟨after, run, limit, zones, fun holds => ?_⟩
  rcases holds.last with ⟨uses, other, again, good⟩
  rw [run] at again
  cases again
  have size := congrArg List.length zones
  rw [List.length_map] at size
  have bounded := good.bounded (Nat.le_of_eq limit.symm)
  rw [size, limit] at bounded
  exact absurd bounded (by decide)

end Zwal.FileCache
