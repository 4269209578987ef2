import Zwal.Contracts.DirectoryRenames
import Zwal.Contracts.Renames
import Zwal.Fs.AuxTree

/-! # Deleting a directory

The walk covers a file only if the auxiliary file system has every directory on the way to
it. `OpenWritableFile` asks for none of them. -/

namespace Zwal.DirectoryDeletion

open FileSystem FileTable Overlay DirectoryRenames

/-! ## Paths -/

inductive OnTheWay (dirs : List String) : (dir path : String) → Prop
  | here {dir child} : isComponent child = true → OnTheWay dirs dir (childPath dir child)
  | inside {dir child path} : isComponent child = true → childPath dir child ∈ dirs →
      OnTheWay dirs (childPath dir child) path → OnTheWay dirs dir path

def Under (dir path : String) : Prop := path = dir ∨ Below dir path

variable {dir child other path : String}

theorem toList_of_component (component : isComponent child = true) :
    child.toList ≠ [] ∧ '/' ∉ child.toList := by
  simp only [isComponent, Bool.and_eq_true, bne_iff_ne, ne_eq, Bool.not_eq_true',
    List.contains_eq_mem, decide_eq_false_iff_not] at component
  refine ⟨?_, component.2⟩
  intro empty
  exact component.1 (String.toList_injective empty)

theorem toList_childPath (dir child : String) :
    (childPath dir child).toList = (withSeparator dir).toList ++ child.toList := by
  rw [childPath, String.toList_append]

theorem withSeparator_childPath (component : isComponent child = true) :
    (withSeparator (childPath dir child)).toList = (childPath dir child).toList ++ ['/'] := by
  rcases toList_of_component component with ⟨filled, plain⟩
  have unended : endsWith (childPath dir child) "/" = false := by
    rw [endsWith, Bool.eq_false_iff]
    intro ended
    rcases List.isSuffixOf_iff_suffix.mp ended with ⟨front, whole⟩
    have last := congrArg List.getLast? whole
    rw [toList_childPath, List.getLast?_append_of_ne_nil _ filled] at last
    apply plain
    apply List.mem_of_getLast?
    rw [← last]
    exact List.getLast?_append_of_ne_nil _ (by decide)
  rw [withSeparator, unended]
  simp only [Bool.false_eq_true, if_false]
  rw [String.toList_append]
  rfl

theorem below_childPath (dir child : String) : Below dir (childPath dir child) := by
  rw [Below, toList_childPath]
  exact List.prefix_append _ _

theorem Below.of_child (component : isComponent child = true)
    (below : Below (childPath dir child) path) : Below dir path := by
  rw [Below, withSeparator_childPath component] at below
  have first := below_childPath dir child
  exact first.trans ((List.prefix_append _ _).trans below)

theorem Under.of_child (component : isComponent child = true)
    (under : Under (childPath dir child) path) : Below dir path := by
  rcases under with same | below
  · exact same ▸ below_childPath dir child
  · exact Below.of_child component below

theorem Under.takeWhile (component : isComponent child = true)
    (under : Under (childPath dir child) path) :
    (path.toList.drop (withSeparator dir).toList.length).takeWhile (· != '/') = child.toList := by
  have plain : ∀ letter ∈ child.toList, (letter != '/') = true := by
    intro letter member
    rw [bne_iff_ne]
    intro same
    exact (toList_of_component component).2 (same ▸ member)
  rcases under with same | below
  · rw [same, toList_childPath, List.drop_left]
    exact List.takeWhile_eq_self_iff.mpr plain
  · rw [Below, withSeparator_childPath component, toList_childPath] at below
    rcases below with ⟨rest, whole⟩
    rw [← whole, List.append_assoc, List.append_assoc, List.drop_left,
      List.takeWhile_append_of_pos plain]
    simp

theorem Under.child_unique (component : isComponent child = true)
    (otherComponent : isComponent other = true) (one : Under (childPath dir child) path)
    (two : Under (childPath dir other) path) : child = other :=
  String.toList_injective ((one.takeWhile component).symm.trans (two.takeWhile otherComponent))

theorem OnTheWay.isBelow {dirs : List String} (way : OnTheWay dirs dir path) : Below dir path := by
  induction way with
  | here => exact below_childPath _ _
  | inside component _ _ induction => exact Below.of_child component induction

theorem OnTheWay.mono {dirs others : List String} (way : OnTheWay dirs dir path)
    (kept : ∀ mid ∈ dirs, Below dir mid → mid ∈ others) : OnTheWay others dir path := by
  induction way with
  | here component => exact .here component
  | @inside dir child path component there _ induction =>
      refine .inside component (kept _ there (below_childPath dir child)) (induction ?_)
      intro mid member below
      exact kept mid member (Below.of_child component below)

theorem childName_eq_some : childName dir path = some child ↔
    isComponent child = true ∧ path = childPath dir child := by
  simp only [childName]
  constructor
  · intro found
    split at found
    · rename_i facts
      rw [Bool.and_eq_true] at facts
      rw [Option.some.injEq] at found
      exact ⟨found ▸ facts.2, found ▸ (childPath_of_below facts.1).symm⟩
    · cases found
  · rintro ⟨component, rfl⟩
    have below : (withSeparator dir).toList.isPrefixOf (childPath dir child).toList = true :=
      List.isPrefixOf_iff_prefix.mpr (below_childPath dir child)
    have rest : String.ofList ((childPath dir child).toList.drop (withSeparator dir).length) = child :=
      childPath_inj (childPath_of_below below)
    rw [rest, below, component]
    rfl

theorem mem_children {paths : List String} :
    child ∈ paths.filterMap (childName dir) ↔
      isComponent child = true ∧ childPath dir child ∈ paths := by
  rw [List.mem_filterMap]
  constructor
  · rintro ⟨path, member, found⟩
    rcases childName_eq_some.mp found with ⟨component, same⟩
    exact ⟨component, same ▸ member⟩
  · rintro ⟨component, member⟩
    exact ⟨_, member, childName_eq_some.mpr ⟨component, rfl⟩⟩

theorem mem_zenFSChildren {overlay : Overlay} :
    child ∈ overlay.zenFSChildren dir ↔
      isComponent child = true ∧ overlay.fs.getFile (childPath dir child) ≠ none := by
  rw [zenFSChildren, mem_children, List.mem_mergeSort, List.mem_filter, getFile_ne_none_iff]
  constructor
  · rintro ⟨component, member, _⟩
    exact ⟨component, member⟩
  · rintro ⟨component, member⟩
    have found : childName dir (childPath dir child) = some child :=
      childName_eq_some.mpr ⟨component, rfl⟩
    exact ⟨component, member, by rw [found]; rfl⟩

/-! ## One path -/

structure InOrder (overlay : Overlay) : Prop where
  grounded : Grounded overlay.fs
  consistent : Consistent overlay.fs

structure Erased (dir : String) (before after : Overlay) : Prop where
  inOrder : InOrder after
  gone : ∀ name, OnTheWay before.tree.dirs dir name → after.fs.getFile name = none
  kept : ∀ name, ¬ OnTheWay before.tree.dirs dir name →
    after.fs.getFile name = before.fs.getFile name
  fewer : ∀ path ∈ after.tree.dirs, path ∈ before.tree.dirs
  apart : ∀ path ∈ before.tree.dirs, ¬ Under dir path → path ∈ after.tree.dirs
  removed : dir ∉ after.tree.dirs

inductive ChildStep (path : String) (before after : Overlay) : Prop
  | file (found : before.fs.getFile path ≠ none)
      (table : ∀ name, after.fs.getFile name = if name = path then none else before.fs.getFile name)
      (dirs : after.tree.dirs = before.tree.dirs)
  | directory (free : before.fs.getFile path = none) (there : path ∈ before.tree.dirs)
      (erased : Erased path before after)
  | other (free : before.fs.getFile path = none) (absent : path ∉ before.tree.dirs)
      (table : ∀ name, after.fs.getFile name = before.fs.getFile name)
      (dirs : after.tree.dirs = before.tree.dirs)

variable {before middle after : Overlay}

def asked (overlay : Overlay) : Overlay :=
  { overlay with fs := overlay.fs.answered overlay.fs.zbd.replies.tail }

theorem auxiliary_ok {value : Unit} (run : onFs auxiliary before = (.ok value, after)) :
    after = asked before := by
  have moved : _ = after := congrArg Prod.snd run
  rw [← moved]
  simp only [onFs, Program.within, auxiliary_eq]
  rfl

theorem InOrder.asked (inOrder : InOrder before) : InOrder (asked before) := by
  have steps := answered_steps (List.tail_suffix before.fs.zbd.replies)
  exact ⟨steps.grounded inOrder.grounded,
    (inOrder.consistent.ordered.steps steps.fsSteps).consistent⟩

theorem isDirectoryNoLock_ok {isDir : Bool}
    (run : isDirectoryNoLock path before = (.ok isDir, after)) :
    (before.fs.getFile path ≠ none ∧ isDir = false ∧ after = before) ∨
      (before.fs.getFile path = none ∧ after = asked before ∧
        (isDir = true ↔ path ∈ before.tree.dirs)) := by
  rw [isDirectoryNoLock, bind_read] at run
  split at run
  · rename_i found
    cases run
    exact .inl ⟨Option.isSome_iff_ne_none.mp found, rfl, rfl⟩
  · rename_i free
    rw [Option.not_isSome_iff_eq_none] at free
    rcases bind_eq_ok run with ⟨_, middle, first, rest⟩
    cases auxiliary_ok first
    split at rest
    · rename_i there
      cases rest
      exact .inr ⟨free, rfl, by simp [there]⟩
    · rename_i absent
      split at rest
      · cases rest
        exact .inr ⟨free, rfl, by simp [absent]⟩
      · cases rest

theorem deletePathNoLock_file (inOrder : InOrder before) (found : before.fs.getFile path ≠ none)
    (run : deletePathNoLock path before = (.ok (), after)) :
    InOrder after ∧ ChildStep path before after := by
  rcases Option.ne_none_iff_exists'.mp found with ⟨k, there⟩
  rw [deletePathNoLock, bind_read, if_pos (Option.isSome_of_eq_some there)] at run
  have ended : (deleteAndRelease path before.fs).1 = .ok () := congrArg Prod.fst run
  have returned : deleteAndRelease path before.fs = (.ok (), (deleteAndRelease path before.fs).2) :=
    Prod.ext ended rfl
  have leaves := Renames.deleteAndRelease_leaves inOrder.grounded inOrder.consistent there returned
  have moved : _ = after := congrArg Prod.snd run
  rw [← moved]
  refine ⟨⟨leaves.steps.grounded inOrder.grounded,
    (inOrder.consistent.ordered.steps leaves.steps.fsSteps).consistent⟩, .file found ?_ rfl⟩
  intro name
  have lookup := congrArg (fun table => table.lookup name) leaves.directory
  rw [Directory.lookup_remove] at lookup
  exact lookup

theorem deletePathNoLock_other (inOrder : InOrder before) (free : before.fs.getFile path = none)
    (run : deletePathNoLock path before = (.ok (), after)) :
    InOrder after ∧ (∀ name, after.fs.getFile name = before.fs.getFile name) ∧
      after.tree.dirs = before.tree.dirs := by
  rw [deletePathNoLock, bind_read, if_neg (by simp [free])] at run
  rcases bind_eq_ok run with ⟨_, middle, first, rest⟩
  cases auxiliary_ok first
  split at rest
  · cases rest
    exact ⟨⟨inOrder.asked.grounded, inOrder.asked.consistent⟩, fun _ => rfl, rfl⟩
  · cases rest

theorem child_step {deleteDir : String → OverlayProgram Unit}
    (erases : ∀ {path before after}, InOrder before → deleteDir path before = (.ok (), after) →
      Erased path before after)
    (inOrder : InOrder before) {isDir : Bool}
    (asks : isDirectoryNoLock path before = (.ok isDir, middle))
    (run : (if isDir then deleteDir path else deletePathNoLock path) middle = (.ok (), after)) :
    InOrder after ∧ ChildStep path before after := by
  rcases isDirectoryNoLock_ok asks with ⟨found, plain, same⟩ | ⟨free, same, kind⟩
  · subst plain same
    exact deletePathNoLock_file inOrder found run
  · subst same
    cases isDir with
    | true =>
        have erased := erases inOrder.asked run
        exact ⟨erased.inOrder, .directory free (kind.mp rfl) ⟨erased.inOrder, erased.gone,
          erased.kept, erased.fewer, erased.apart, erased.removed⟩⟩
    | false =>
        have absent : path ∉ before.tree.dirs := by
          intro there
          cases kind.mpr there
        rcases deletePathNoLock_other inOrder.asked free run with ⟨still, table, dirs⟩
        exact ⟨still, .other free absent table dirs⟩

/-! ## The loop -/

structure ErasedChildren (dir : String) (children : List String) (before after : Overlay) : Prop where
  inOrder : InOrder after
  files : ∀ child ∈ children, after.fs.getFile (childPath dir child) = none
  inner : ∀ child ∈ children, childPath dir child ∈ before.tree.dirs → ∀ name,
    OnTheWay before.tree.dirs (childPath dir child) name → after.fs.getFile name = none
  kept : ∀ name, (∀ child ∈ children, name ≠ childPath dir child ∧
      (childPath dir child ∈ before.tree.dirs →
        ¬ OnTheWay before.tree.dirs (childPath dir child) name)) →
    after.fs.getFile name = before.fs.getFile name
  fewer : ∀ path ∈ after.tree.dirs, path ∈ before.tree.dirs
  apart : ∀ path ∈ before.tree.dirs, (∀ child ∈ children, ¬ Under (childPath dir child) path) →
    path ∈ after.tree.dirs

theorem ErasedChildren.still_free {children : List String} (erased : ErasedChildren dir children before after)
    {name : String} (free : before.fs.getFile name = none) : after.fs.getFile name = none := by
  by_cases reached : ∃ child ∈ children, name = childPath dir child ∨
      (childPath dir child ∈ before.tree.dirs ∧
        OnTheWay before.tree.dirs (childPath dir child) name)
  · rcases reached with ⟨child, member, same | ⟨there, way⟩⟩
    · exact same ▸ erased.files child member
    · exact erased.inner child member there name way
  · rw [erased.kept name, free]
    intro child member
    constructor
    · intro same
      exact reached ⟨child, member, .inl same⟩
    · intro there way
      exact reached ⟨child, member, .inr ⟨there, way⟩⟩

theorem ChildStep.freed (step : ChildStep path before after) : after.fs.getFile path = none := by
  cases step with
  | file _ table _ => rw [table, if_pos rfl]
  | directory free _ erased =>
      by_cases way : OnTheWay before.tree.dirs path path
      · exact erased.gone path way
      · rw [erased.kept path way, free]
  | other free _ table _ => rw [table, free]

theorem ChildStep.fewer (step : ChildStep path before after) :
    ∀ mid ∈ after.tree.dirs, mid ∈ before.tree.dirs := by
  cases step with
  | file _ _ dirs | other _ _ _ dirs => exact fun mid member => dirs ▸ member
  | directory _ _ erased => exact erased.fewer

theorem ChildStep.apart (step : ChildStep path before after) {mid : String}
    (member : mid ∈ before.tree.dirs) (outside : ¬ Under path mid) : mid ∈ after.tree.dirs := by
  cases step with
  | file _ _ dirs | other _ _ _ dirs => exact dirs.symm ▸ member
  | directory _ _ erased => exact erased.apart mid member outside

theorem ChildStep.kept (step : ChildStep path before after) {name : String} (different : name ≠ path)
    (outside : path ∈ before.tree.dirs → ¬ OnTheWay before.tree.dirs path name) :
    after.fs.getFile name = before.fs.getFile name := by
  cases step with
  | file _ table _ => rw [table, if_neg different]
  | directory _ there erased => exact erased.kept name (outside there)
  | other _ _ table _ => exact table name

/-- A child that is a file and a directory at once is listed twice. -/
def ListedTwice (dir : String) (children : List String) (overlay : Overlay) : Prop :=
  ∀ child ∈ children, childPath dir child ∈ overlay.tree.dirs →
    overlay.fs.getFile (childPath dir child) ≠ none → 2 ≤ children.count child

theorem not_onTheWay_sibling {dirs : List String} (component : isComponent child = true)
    (otherComponent : isComponent other = true) (different : child ≠ other) {name : String}
    (under : Under (childPath dir other) name) : ¬ OnTheWay dirs (childPath dir child) name := by
  intro way
  exact different (Under.child_unique component otherComponent (.inr way.isBelow) under)

theorem ListedTwice.rest {first : String} {rest : List String}
    (twice : ListedTwice dir (first :: rest) before)
    (components : ∀ child ∈ first :: rest, isComponent child = true)
    (step : ChildStep (childPath dir first) before middle) : ListedTwice dir rest middle := by
  intro child member there found
  have different : child ≠ first := by
    rintro rfl
    exact found step.freed
  have component := components child (List.mem_cons_of_mem _ member)
  have firstComponent := components first List.mem_cons_self
  have same : middle.fs.getFile (childPath dir child) = before.fs.getFile (childPath dir child) := by
    apply step.kept
    · intro same
      exact different (childPath_inj same)
    · intro _
      exact not_onTheWay_sibling firstComponent component different.symm (.inl rfl)
  have count := twice child (List.mem_cons_of_mem _ member) (step.fewer _ there) (same ▸ found)
  rw [List.count_cons_of_ne different.symm] at count
  exact count

theorem ErasedChildren.cons {first : String} {rest : List String}
    (components : ∀ child ∈ first :: rest, isComponent child = true)
    (twice : ListedTwice dir (first :: rest) before)
    (step : ChildStep (childPath dir first) before middle)
    (erased : ErasedChildren dir rest middle after) :
    ErasedChildren dir (first :: rest) before after := by
  have firstComponent := components first List.mem_cons_self
  -- The directories below another child are as before.
  have beside {child : String} (member : child ∈ rest) (different : child ≠ first) {mid : String}
      (there : mid ∈ before.tree.dirs) (under : Under (childPath dir child) mid) :
      mid ∈ middle.tree.dirs := by
    apply step.apart there
    intro inside
    exact different (Under.child_unique (components child (List.mem_cons_of_mem _ member))
      firstComponent under inside)
  refine ⟨erased.inOrder, ?_, ?_, ?_, fun path member => step.fewer path (erased.fewer path member), ?_⟩
  · intro child member
    rcases List.mem_cons.mp member with same | there
    · rw [same]
      exact erased.still_free step.freed
    · exact erased.files child there
  · intro child member there name way
    by_cases different : child = first
    · subst different
      cases step with
      | file found table dirs =>
          have count := twice child List.mem_cons_self there found
          rw [List.count_cons_self] at count
          have again : child ∈ rest := List.count_pos_iff.mp (by omega)
          exact erased.inner child again (dirs.symm ▸ there) name (dirs.symm ▸ way)
      | directory _ _ whole => exact erased.still_free (whole.gone name way)
      | other _ absent => exact absurd there absent
    · have later := (List.mem_cons.mp member).resolve_left different
      refine erased.inner child later (beside later different there (.inl rfl)) name ?_
      exact way.mono fun mid inside below => beside later different inside (.inr below)
  · intro name outside
    have here := outside first List.mem_cons_self
    rw [erased.kept name, step.kept here.1 here.2]
    intro child member
    have there := outside child (List.mem_cons_of_mem _ member)
    refine ⟨there.1, fun inside way => ?_⟩
    exact there.2 (step.fewer _ inside) (way.mono fun mid member _ => step.fewer mid member)
  · intro path member outside
    apply erased.apart path (step.apart member (outside first List.mem_cons_self))
    intro child later
    exact outside child (List.mem_cons_of_mem _ later)

theorem deleteChildren_erases {deleteDir : String → OverlayProgram Unit}
    (erases : ∀ {path before after}, InOrder before → deleteDir path before = (.ok (), after) →
      Erased path before after)
    {children : List String} (inOrder : InOrder before)
    (components : ∀ child ∈ children, isComponent child = true)
    (twice : ListedTwice dir children before)
    (run : deleteChildren deleteDir dir children before = (.ok (), after)) :
    ErasedChildren dir children before after := by
  induction children generalizing before with
  | nil =>
      cases run
      exact ⟨inOrder, by simp, by simp, fun _ _ => rfl, fun _ member => member,
        fun _ member _ => member⟩
  | cons first rest induction =>
      rcases bind_eq_ok run with ⟨isDir, asking, asks, onward⟩
      have turned : ∃ middle, (if isDir then deleteDir (childPath dir first)
          else deletePathNoLock (childPath dir first)) asking = (.ok (), middle) ∧
          deleteChildren deleteDir dir rest middle = (.ok (), after) := by
        cases isDir with
        | true | false =>
            rcases bind_eq_ok onward with ⟨_, middle, turn, later⟩
            exact ⟨middle, turn, later⟩
      rcases turned with ⟨middle, turn, later⟩
      rcases child_step erases inOrder asks turn with ⟨still, step⟩
      refine .cons components twice step ?_
      apply induction still
      · intro child member
        exact components child (List.mem_cons_of_mem _ member)
      · exact twice.rest components step
      · exact later

/-! ## The walk -/

theorem children_twice {dirs files : List String} (overlay : Overlay)
    (tree : overlay.tree = ⟨dirs, files⟩) :
    ListedTwice dir ((dirs ++ files).filterMap (childName dir) ++ overlay.zenFSChildren dir)
      overlay := by
  intro child member there found
  have component : isComponent child = true := by
    rcases List.mem_append.mp member with aux | zen
    · exact (mem_children.mp aux).1
    · exact (mem_zenFSChildren.mp zen).1
  rw [tree] at there
  have aux := List.count_pos_iff.mpr
    (@mem_children dir child (dirs ++ files) |>.mpr ⟨component, List.mem_append_left _ there⟩)
  have zen := List.count_pos_iff.mpr (mem_zenFSChildren.mpr ⟨component, found⟩)
  rw [List.count_append]
  omega

theorem ErasedChildren.whole {children : List String}
    (components : ∀ child ∈ children, isComponent child = true)
    (zen : ∀ child, isComponent child = true → before.fs.getFile (childPath dir child) ≠ none →
      child ∈ children)
    (aux : ∀ child, isComponent child = true → childPath dir child ∈ before.tree.dirs →
      child ∈ children)
    (erased : ErasedChildren dir children before middle)
    (inOrder : InOrder after) (table : after.fs.getFile = middle.fs.getFile)
    (dirs : after.tree.dirs = middle.tree.dirs.filter (· ≠ dir)) : Erased dir before after where
  inOrder := inOrder
  gone := by
    intro name way
    rw [table]
    cases way with
    | @here _ child component =>
        by_cases free : before.fs.getFile (childPath dir child) = none
        · exact erased.still_free free
        · exact erased.files child (zen child component free)
    | @inside _ child _ component there way =>
        exact erased.inner child (aux child component there) there name way
  kept := by
    intro name lost
    rw [table]
    apply erased.kept
    intro child member
    have component := components child member
    constructor
    · intro same
      exact lost (same ▸ .here component)
    · intro there way
      exact lost (.inside component there way)
  fewer := by
    intro path member
    rw [dirs] at member
    exact erased.fewer path (List.mem_of_mem_filter member)
  apart := by
    intro path member outside
    rw [dirs, List.mem_filter]
    refine ⟨erased.apart path member fun child there under => ?_, ?_⟩
    · exact outside (.inr (under.of_child (components child there)))
    · rw [decide_eq_true_eq]
      intro same
      exact outside (.inl same)
  removed := by
    rw [dirs, List.mem_filter]
    simp

theorem deleteDirRecursiveNoLock_erases (fuel : Nat) (inOrder : InOrder before)
    (run : deleteDirRecursiveNoLock fuel dir before = (.ok (), after)) :
    Erased dir before after := by
  induction fuel generalizing dir before after with
  | zero => cases run
  | succ fuel induction =>
      rcases bind_eq_ok run with ⟨children, listed, lists, rest⟩
      rcases bind_eq_ok rest with ⟨_, emptied, loop, removal⟩
      rcases bind_eq_ok lists with ⟨_, first, asks, list⟩
      cases auxiliary_ok asks
      rcases bind_eq_ok removal with ⟨_, second, asksAgain, last⟩
      cases auxiliary_ok asksAgain
      rw [bind_read] at list last
      split at last
      · rename_i there
        cases last
        split at list
        · rename_i known
          cases list
          have components : ∀ child ∈ ((asked before).tree.dirs ++ (asked before).tree.files).filterMap
              (childName dir) ++ (asked before).zenFSChildren dir, isComponent child = true := by
            intro child member
            rcases List.mem_append.mp member with aux | zen
            · exact (mem_children.mp aux).1
            · exact (mem_zenFSChildren.mp zen).1
          have erased := deleteChildren_erases induction inOrder.asked components
            (children_twice (asked before) rfl) loop
          have whole := @ErasedChildren.whole dir (asked before) emptied
            { asked emptied with tree := { emptied.tree with
              dirs := emptied.tree.dirs.filter (· ≠ dir) } } _ components
            (fun child component found =>
              List.mem_append_right _ (mem_zenFSChildren.mpr ⟨component, found⟩))
            (fun child component known =>
              List.mem_append_left _ (mem_children.mpr ⟨component, List.mem_append_left _ known⟩))
            erased ⟨erased.inOrder.asked.grounded, erased.inOrder.asked.consistent⟩ rfl rfl
          exact ⟨whole.inOrder, whole.gone, whole.kept, whole.fewer, whole.apart, whole.removed⟩
        · rename_i unknown
          cases list
          cases loop
          exact absurd there.1 unknown
      · cases last

structure Complete (dir : String) (before after : Overlay) : Prop where
  gone : ∀ name, Below dir name → after.fs.getFile name = none
  others : ∀ name, ¬ Below dir name → after.fs.getFile name = before.fs.getFile name

/-- A recursive deletion that returned OK was complete exactly if the auxiliary file system
had every directory on the way to every file below the one that was deleted. -/
theorem directory_deletion_complete_iff (fuel : Nat) (inOrder : InOrder before)
    (run : deleteDirRecursive fuel dir before = (.ok (), after)) :
    Complete dir before after ↔
      ∀ name, Below dir name → before.fs.getFile name ≠ none →
        OnTheWay before.tree.dirs dir name := by
  rcases bind_eq_ok run with ⟨_, middle, walk, reset⟩
  have erased := deleteDirRecursiveNoLock_erases fuel inOrder walk
  have moved : _ = after := congrArg Prod.snd reset
  have same (name : String) : after.fs.getFile name = middle.fs.getFile name := by
    rw [← moved]
    rfl
  constructor
  · intro complete name below found
    by_contra lost
    apply found
    rw [← erased.kept name lost, ← same]
    exact complete.gone name below
  · intro covered
    constructor
    · intro name below
      rw [same]
      by_cases way : OnTheWay before.tree.dirs dir name
      · exact erased.gone name way
      · rw [erased.kept name way]
        by_contra found
        exact way (covered name below found)
    · intro name outside
      rw [same]
      apply erased.kept
      intro way
      exact outside way.isBelow

/-- A file was created below a directory the auxiliary file system may not have. -/
def created (dirs : List String) : Overlay :=
  ⟨runAll smallConfig 1 [.openWritable "/d/e/c" false false, .openWritable "/x" false false]
    (oneZone []), ⟨dirs, []⟩⟩

theorem created_inOrder (dirs : List String) : InOrder (created dirs) := by
  have runs : Runs smallConfig (fun _ operation => operation.isMount = false) (oneZone [])
      (created dirs).fs := by
    apply runs_runAll
    · exact ⟨rfl, rfl, trivial⟩
    · decide +kernel
  have kept := Runs.keep
    (fun grounded mounted passage ordered => Ordered.passage ordered grounded mounted passage)
    runs (oneZone_made _).grounded (consistent_of_made (oneZone_made _)).ordered
  exact ⟨kept.1, kept.2.consistent⟩

theorem directory_deletion_complete_nested :
    Complete "/d" (created ["/d", "/d/e"])
      (deleteDirRecursive 2 "/d" (created ["/d", "/d/e"])).2 := by
  have returned : (deleteDirRecursive 2 "/d" (created ["/d", "/d/e"])).1 = .ok () := by
    decide +kernel
  have files : (created ["/d", "/d/e"]).fs.files = [("/d/e/c", 0), ("/x", 1)] := by decide +kernel
  apply (directory_deletion_complete_iff 2 (created_inOrder _) (Prod.ext returned rfl)).mpr
  intro name below found
  have listed := getFile_ne_none_iff.mp found
  rw [files] at listed
  simp only [List.map_cons, List.map_nil, List.mem_cons, List.not_mem_nil, or_false] at listed
  rcases listed with rfl | rfl
  · have way : OnTheWay ["/d", "/d/e"] (childPath "/d" "e") (childPath "/d/e" "c") :=
      .here (by decide)
    exact .inside (by decide) (by decide) way
  · have outside : ¬ Below "/d" "/x" := by
      rw [Below]
      decide
    exact absurd below outside

/-- The auxiliary file system does not have the inner directory: the deletion returns OK, and
the file is still there. -/
theorem directory_deletion_leaves_file :
    InOrder (created ["/d"]) ∧ (deleteDirRecursive 2 "/d" (created ["/d"])).1 = .ok () ∧
      (deleteDirRecursive 2 "/d" (created ["/d"])).2.fs.getFile "/d/e/c" = some 0 := by
  refine ⟨created_inOrder _, ?_, ?_⟩
  all_goals decide +kernel

end Zwal.DirectoryDeletion
