import Zwal.File.ZoneFile
import Zwal.Foundation.Memory

/-! # The content of a file

What the extents of a file hold, one after the other, and the place in it where
`GetExtent` finds a byte. -/

namespace Zwal

open ZoneFile Memory

def contentOf (device : Nat → UInt8) (extents : List ZoneExtent) : Bytes :=
  extents.flatMap fun extent => bytesAt device extent.start extent.length

def spanOf (extents : List ZoneExtent) : Nat := (extents.map ZoneExtent.length).sum

section

variable {device other : Nat → UInt8} {extents : List ZoneExtent}

@[simp] theorem contentOf_nil (device : Nat → UInt8) : contentOf device [] = [] := rfl

@[simp] theorem contentOf_cons (device : Nat → UInt8) (extent : ZoneExtent)
    (extents : List ZoneExtent) : contentOf device (extent :: extents) =
      bytesAt device extent.start extent.length ++ contentOf device extents :=
  rfl

@[simp] theorem contentOf_append (device : Nat → UInt8) (first second : List ZoneExtent) :
    contentOf device (first ++ second) = contentOf device first ++ contentOf device second := by
  simp [contentOf]

@[simp] theorem spanOf_nil : spanOf [] = 0 := rfl

@[simp] theorem spanOf_cons (extent : ZoneExtent) (extents : List ZoneExtent) :
    spanOf (extent :: extents) = extent.length + spanOf extents := by
  simp [spanOf]

@[simp] theorem spanOf_append (first second : List ZoneExtent) :
    spanOf (first ++ second) = spanOf first + spanOf second := by
  simp [spanOf]

@[simp] theorem length_contentOf (device : Nat → UInt8) (extents : List ZoneExtent) :
    (contentOf device extents).length = spanOf extents := by
  induction extents with
  | nil => rfl
  | cons extent extents induction => simp [induction]

theorem contentOf_congr (same : ∀ extent ∈ extents,
    bytesAt device extent.start extent.length = bytesAt other extent.start extent.length) :
    contentOf device extents = contentOf other extents := by
  rw [contentOf, contentOf]
  exact List.flatMap_congr same

end

/-! ## Finding a byte -/

theorem getExtent_isSome {extents : List ZoneExtent} {position : Nat}
    (inside : position < spanOf extents) : ∃ found, getExtent extents position = some found := by
  induction extents generalizing position with
  | nil => simp at inside
  | cons extent extents induction =>
      rw [getExtent]
      split
      · exact ⟨_, rfl⟩
      · rw [spanOf_cons] at inside
        exact induction (by omega)

/-- Byte `position` of the content lies at `rOff`, in an extent that ends at `extentEnd`. -/
structure Cursor (extents : List ZoneExtent) (position extentEnd rOff : Nat) : Prop where
  place : ∃ before extent after, extents = before ++ extent :: after ∧
    extentEnd = extent.start + extent.length ∧ extent.start ≤ rOff ∧
    position = spanOf before + (rOff - extent.start)
  inside : rOff < extentEnd

theorem Cursor.cons {extents : List ZoneExtent} {position extentEnd rOff : Nat}
    (cursor : Cursor extents position extentEnd rOff) (extent : ZoneExtent) :
    Cursor (extent :: extents) (extent.length + position) extentEnd rOff := by
  rcases cursor.place with ⟨before, here, after, split, ends, starts, counted⟩
  refine ⟨⟨extent :: before, here, after, by rw [split]; rfl, ends, starts, ?_⟩, cursor.inside⟩
  rw [spanOf_cons]
  omega

theorem cursor_of_getExtent {extents : List ZoneExtent} {position rOff : Nat} {extent : ZoneExtent}
    (found : getExtent extents position = some (extent, rOff)) :
    Cursor extents position (extent.start + extent.length) rOff := by
  induction extents generalizing position with
  | nil => cases found
  | cons first extents induction =>
      rw [getExtent] at found
      split at found
      · rename_i inside
        cases found
        refine ⟨⟨[], _, extents, rfl, rfl, by omega, ?_⟩, by omega⟩
        simp
      · rename_i beyond
        have cursor := (induction found).cons first
        rwa [show first.length + (position - first.length) = position by omega] at cursor

theorem mem_of_getExtent {extents : List ZoneExtent} {position rOff : Nat} {extent : ZoneExtent}
    (found : getExtent extents position = some (extent, rOff)) :
    extent ∈ extents ∧ extent.start ≤ rOff := by
  induction extents generalizing position with
  | nil => cases found
  | cons first extents induction =>
      rw [getExtent] at found
      split at found
      · cases found
        exact ⟨List.mem_cons_self, Nat.le_add_right _ _⟩
      · have later := induction found
        exact ⟨List.mem_cons_of_mem _ later.1, later.2⟩

/-- Where a byte lies in its extent depends on the lengths of the extents only. -/
theorem getExtent_lengths {extents others : List ZoneExtent} {position rOff place : Nat}
    {extent other : ZoneExtent}
    (lengths : others.map ZoneExtent.length = extents.map ZoneExtent.length)
    (found : getExtent extents position = some (extent, rOff))
    (there : getExtent others position = some (other, place)) :
    other.length = extent.length ∧ place - other.start = rOff - extent.start := by
  induction extents generalizing others position with
  | nil => cases found
  | cons first extents induction =>
      cases others with
      | nil => cases there
      | cons second others =>
          rw [List.map_cons, List.map_cons, List.cons.injEq] at lengths
          rw [getExtent] at found there
          rw [lengths.1] at there
          split at found
          · rename_i inside
            rw [if_pos inside] at there
            cases found
            cases there
            exact ⟨lengths.1, by omega⟩
          · rename_i beyond
            rw [if_neg beyond] at there
            exact induction lengths.2 found there

theorem getExtent_zero {extents : List ZoneExtent} {extent : ZoneExtent} {rOff : Nat}
    (found : getExtent extents 0 = some (extent, rOff)) : rOff = extent.start := by
  induction extents with
  | nil => cases found
  | cons first extents induction =>
      rw [getExtent] at found
      split at found
      · cases found
        rfl
      · rw [Nat.zero_sub] at found
        exact induction found

theorem getExtent_append (before after : List ZoneExtent) (position : Nat) :
    getExtent (before ++ after) (spanOf before + position) = getExtent after position := by
  induction before with
  | nil => simp
  | cons extent before induction =>
      rw [List.cons_append, getExtent, spanOf_cons, if_neg (by omega), ← induction]
      congr 1
      omega

theorem Cursor.next {extents : List ZoneExtent} {position extentEnd rOff : Nat}
    (cursor : Cursor extents position extentEnd rOff) {extent : ZoneExtent} {found : Nat}
    (next : getExtent extents (position + (extentEnd - rOff)) = some (extent, found)) :
    found = extent.start := by
  rcases cursor.place with ⟨before, here, after, split, ends, starts, counted⟩
  have inside := cursor.inside
  have there : position + (extentEnd - rOff) = spanOf (before ++ [here]) + 0 := by
    rw [spanOf_append, spanOf_cons, spanOf_nil]
    omega
  have listed : extents = (before ++ [here]) ++ after := by
    rw [split, List.append_assoc]
    rfl
  rw [there, listed, getExtent_append] at next
  exact getExtent_zero next

theorem Cursor.advance {extents : List ZoneExtent} {position extentEnd rOff count : Nat}
    (cursor : Cursor extents position extentEnd rOff) (more : rOff + count < extentEnd) :
    Cursor extents (position + count) extentEnd (rOff + count) := by
  rcases cursor.place with ⟨before, here, after, split, ends, starts, counted⟩
  exact ⟨⟨before, here, after, split, ends, by omega, by omega⟩, more⟩

theorem Cursor.bytes {extents : List ZoneExtent} {position extentEnd rOff count : Nat}
    (cursor : Cursor extents position extentEnd rOff) (within : rOff + count ≤ extentEnd)
    (device : Nat → UInt8) :
    ((contentOf device extents).drop position).take count = bytesAt device rOff count := by
  rcases cursor.place with ⟨before, here, after, split, ends, starts, counted⟩
  have inside := cursor.inside
  have rest : (contentOf device extents).drop position =
      bytesAt device rOff (here.length - (rOff - here.start)) ++ contentOf device after := by
    rw [split, contentOf_append, counted, List.drop_append, List.drop_eq_nil_of_le (by simp),
      List.nil_append, length_contentOf, Nat.add_sub_cancel_left, contentOf_cons,
      List.drop_append_of_le_length (by rw [length_bytesAt]; omega), drop_bytesAt _ _ (by omega),
      show here.start + (rOff - here.start) = rOff by omega]
  rw [rest, List.take_append_of_le_length (by rw [length_bytesAt]; omega),
    take_bytesAt _ _ (by omega)]

end Zwal
