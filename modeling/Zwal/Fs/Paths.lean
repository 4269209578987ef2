import Zwal.Fs.FileSystem

/-! # Paths

`FormatPathLexically` makes the key of a file of its path. The paths are those of
`std::filesystem` from C++17 on, which are the ones here, and those of `filesystem_utility`
before. A call makes the key of its path, and `GetFileNoLock` makes the key of that key. -/

namespace Zwal

namespace Path

def dot : List Char := ['.']
def dotDot : List Char := ['.', '.']

def isRooted (path : List Char) : Bool := path.head? == some '/'

/-- What an element of a path does to the ones before it. -/
def addElement (rooted : Bool) (before : List (List Char)) (element : List Char) : List (List Char) :=
  if element = [] ∨ element = dot then before
  else if element = dotDot then
    match before.getLast? with
    | none => if rooted then [] else [element]
    | some last => if last = dotDot then before ++ [element] else before.dropLast
  else before ++ [element]

def elements (path : List Char) : List (List Char) :=
  (path.splitOn '/').foldl (addElement (isRooted path)) []

/-- The end of the normal form: a slash where the path ends in one, in a dot or in the
removal of an element. -/
def terminator (path : List Char) : List (List Char) :=
  if (path.splitOn '/').getLast? ∈ [some [], some dot, some dotDot] ∧
      (elements path).getLast? ≠ some dotDot then [[]]
  else []

def lexicallyNormal (path : List Char) : List Char :=
  if path = [] then []
  else if elements path = [] then if isRooted path then ['/'] else dot
  else ['/'].intercalate ((if isRooted path then [[]] else []) ++ elements path ++ terminator path)

end Path

open Zwal.Path

/-- `FormatPathLexically`: a path with a root is not put behind another one. -/
def formatPathLexically (filepath : String) : String :=
  let normal := lexicallyNormal filepath.toList
  String.ofList (if isRooted normal then normal else '/' :: normal)

/-! ## Making the key of a key -/

namespace Path

theorem not_mem_splitOn {path element : List Char} (member : element ∈ path.splitOn '/') :
    '/' ∉ element := by
  induction path generalizing element with
  | nil =>
      rw [List.splitOn_nil, List.mem_singleton] at member
      rw [member]
      exact List.not_mem_nil
  | cons letter path induction =>
      rw [List.splitOn_cons_eq_if_modifyHead] at member
      split at member
      · rcases List.mem_cons.mp member with here | later
        · rw [here]
          exact List.not_mem_nil
        · exact induction later
      · rename_i other
        cases parts : path.splitOn '/' with
        | nil => exact absurd parts (List.splitOn_ne_nil _ _)
        | cons first rest =>
            rw [parts, List.modifyHead_cons, List.mem_cons] at member
            rcases member with here | later
            · rw [here, List.mem_cons, not_or]
              refine ⟨fun same => other (by rw [same, beq_self_eq_true]), ?_⟩
              exact induction (parts ▸ List.mem_cons_self)
            · exact induction (parts ▸ List.mem_cons_of_mem _ later)

/-- An element that stays where it is. -/
structure Plain (element : List Char) : Prop where
  some : element ≠ []
  noDot : element ≠ dot
  noDotDot : element ≠ dotDot
  noSlash : '/' ∉ element

theorem addElement_plain (rooted : Bool) (before : List (List Char)) {element : List Char}
    (plain : Plain element) : addElement rooted before element = before ++ [element] := by
  rw [addElement, if_neg (not_or.mpr ⟨plain.some, plain.noDot⟩), if_neg plain.noDotDot]

theorem foldl_addElement_plain (rooted : Bool) {parts : List (List Char)}
    (plain : ∀ part ∈ parts, Plain part) (before : List (List Char)) :
    parts.foldl (addElement rooted) before = before ++ parts := by
  induction parts generalizing before with
  | nil => simp
  | cons part parts induction =>
      rw [List.foldl_cons, addElement_plain rooted before (plain part List.mem_cons_self),
        induction fun other member => plain other (List.mem_cons_of_mem _ member), List.append_assoc]
      rfl

theorem plain_of_addElement {rooted : Bool} {before : List (List Char)} {part element : List Char}
    (known : ∀ part ∈ before, '/' ∉ part ∧ part ≠ [] ∧ part ≠ dot) (slash : '/' ∉ part)
    (member : element ∈ addElement rooted before part) :
    '/' ∉ element ∧ element ≠ [] ∧ element ≠ dot := by
  rw [addElement] at member
  split at member
  · exact known element member
  · rename_i kept
    have here : '/' ∉ part ∧ part ≠ [] ∧ part ≠ dot := ⟨slash, not_or.mp kept⟩
    have either : element ∈ before ∨ element = part := by
      split at member
      · split at member
        · split at member
          · cases member
          · exact .inr (List.mem_singleton.mp member)
        · split at member
          · simpa using member
          · exact .inl (List.dropLast_subset _ member)
      · simpa using member
    rcases either with old | same
    · exact known element old
    · exact same ▸ here

theorem mem_elements {path element : List Char} (member : element ∈ elements path) :
    '/' ∉ element ∧ element ≠ [] ∧ element ≠ dot := by
  have fold (parts before : List (List Char)) (slashes : ∀ part ∈ parts, '/' ∉ part)
      (known : ∀ part ∈ before, '/' ∉ part ∧ part ≠ [] ∧ part ≠ dot) :
      ∀ element ∈ parts.foldl (addElement (isRooted path)) before,
        '/' ∉ element ∧ element ≠ [] ∧ element ≠ dot := by
    induction parts generalizing before with
    | nil => exact known
    | cons part parts induction =>
        apply induction
        · exact fun other later => slashes other (List.mem_cons_of_mem _ later)
        · exact fun other later =>
            plain_of_addElement known (slashes part List.mem_cons_self) later
  exact fold _ [] (fun _ => not_mem_splitOn) (List.forall_mem_nil _) element member

theorem format_eq {path : List Char} (some : elements path ≠ []) :
    (if isRooted (lexicallyNormal path) then lexicallyNormal path else '/' :: lexicallyNormal path) =
      ['/'].intercalate ([] :: elements path ++ terminator path) := by
  have text : path ≠ [] := by
    rintro rfl
    exact some rfl
  rw [lexicallyNormal, if_neg text, if_neg some]
  cases parts : elements path with
  | nil => exact absurd parts some
  | cons first rest =>
      have kept := mem_elements (parts ▸ List.mem_cons_self : first ∈ elements path)
      cases isRooted path with
      | true => rfl
      | false =>
          cases first with
          | nil => exact absurd rfl kept.2.1
          | cons letter letters =>
              have other : letter ≠ '/' := fun same => kept.1 (same ▸ List.mem_cons_self)
              cases rest with
              | nil | cons =>
                  cases terminator path with
                  | nil | cons => simp [List.intercalate, isRooted, other]

theorem elements_format {parts ending : List (List Char)} (plain : ∀ part ∈ parts, Plain part)
    (ends : ending = [] ∨ ending = [[]]) (some : parts ≠ []) :
    elements (['/'].intercalate ([] :: parts ++ ending)) = parts ∧
      terminator (['/'].intercalate ([] :: parts ++ ending)) = ending := by
  have slashes : ∀ part ∈ [] :: parts ++ ending, '/' ∉ part := by
    intro part member
    simp only [List.cons_append, List.mem_cons, List.mem_append] at member
    rcases member with rfl | inside | last
    · exact List.not_mem_nil
    · exact (plain part inside).noSlash
    · rcases ends with rfl | rfl
      · cases last
      · rw [List.mem_singleton.mp last]
        exact List.not_mem_nil
  have split := List.splitOn_intercalate '/' slashes (by simp)
  have same : elements (['/'].intercalate ([] :: parts ++ ending)) = parts := by
    rw [elements, split, List.foldl_append, List.foldl_cons]
    rw [show ∀ rooted, addElement rooted [] [] = [] from fun _ => rfl, foldl_addElement_plain _ plain]
    rcases ends with rfl | rfl
    · rfl
    · rw [List.foldl_cons, addElement, if_pos (.inl rfl)]
      rfl
  refine ⟨same, ?_⟩
  rw [terminator, same, split]
  have last := List.getLast_mem some
  have none : parts.getLast? ≠ Option.some dotDot := by
    rw [List.getLast?_eq_getLast_of_ne_nil some]
    intro dots
    exact (plain _ last).noDotDot (Option.some.inj dots)
  rcases ends with rfl | rfl
  · rw [List.append_nil, List.getLast?_cons_of_ne_nil some, List.getLast?_eq_getLast_of_ne_nil some,
      if_neg]
    have here := plain _ last
    simp [here.some, here.noDot, here.noDotDot]
  · rw [List.getLast?_append, if_pos ⟨by simp, none⟩]

end Path

/-- A key stays as it is if the dots of the path do not climb above its start. -/
theorem formatPathLexically_stable {filepath : String} (some : elements filepath.toList ≠ [])
    (level : dotDot ∉ elements filepath.toList) :
    formatPathLexically (formatPathLexically filepath) = formatPathLexically filepath := by
  have plain : ∀ part ∈ elements filepath.toList, Plain part := by
    intro part member
    have kept := mem_elements member
    exact ⟨kept.2.1, kept.2.2, fun same => level (same ▸ member), kept.1⟩
  have ends : terminator filepath.toList = [] ∨ terminator filepath.toList = [[]] := by
    rw [terminator]
    split
    · exact .inr rfl
    · exact .inl rfl
  rcases elements_format plain ends some with ⟨same, ending⟩
  rw [formatPathLexically, formatPathLexically]
  simp only [String.toList_ofList]
  rw [format_eq some, format_eq (same.symm ▸ some), same, ending]

/-- The dots of `../b` climb above its start. -/
example : formatPathLexically "../b" = "/../b" ∧ formatPathLexically "/../b" = "/b" := by
  decide +kernel

/-! ## Calls on paths -/

namespace FileSystem

variable (format : String → String)

def getFileNoLock (path : String) (fs : FileSystem) : Option Nat := fs.getFile (format path)

/-- `DeleteFileNoLock`, of a path. -/
def deleteSpelledNoLock (path : String) : FsProgram Unit := do
  let fs ← Program.read
  match fs.getFileNoLock format (format path) with
  | none => auxiliary
  | some k => deleteName k (format path)

/-- `RenameFileNoLock`, of paths. -/
def renamePathsNoLock (srcPath dstPath : String) : FsProgram Unit := do
  let fs ← Program.read
  let source := format srcPath
  let dest := format dstPath
  match fs.getFileNoLock format source, fs.getFileNoLock format dest with
  | none, _ => auxiliary
  | some k, none => moveName k source dest
  | some k, some other =>
      leaving (do deleteSpelledNoLock format dest; moveName k source dest) (release other)

def renamePaths (sourcePath destPath : String) : FsProgram Unit := do
  renamePathsNoLock format sourcePath destPath
  onDevice ZonedBlockDevice.resetUnusedIOZones

variable {format}

theorem renamePaths_of_stable {path target : String} (stable : format (format path) = format path)
    (also : format (format target) = format target) :
    renamePaths format path target = renameFile (format path) (format target) := by
  have deleted : deleteSpelledNoLock format (format target) = deleteFileNoLock (format target) := by
    simp only [deleteSpelledNoLock, getFileNoLock, also]
    rfl
  simp only [renamePaths, renamePathsNoLock, getFileNoLock, stable, also, deleted]
  rfl

end FileSystem

end Zwal
