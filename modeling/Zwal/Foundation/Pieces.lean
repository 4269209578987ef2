import Mathlib

/-! # Concatenations of pieces

Positions in a concatenation, given by the index of a piece and an offset in it. -/

namespace Zwal.Pieces

variable {Item : Type}

def offsetOf (pieces : List (List Item)) (index : Nat) : Nat := (pieces.take index).flatten.length

@[simp] theorem offsetOf_zero (pieces : List (List Item)) : offsetOf pieces 0 = 0 := by
  simp [offsetOf]

theorem offsetOf_succ {pieces : List (List Item)} {index : Nat} {piece : List Item}
    (found : pieces[index]? = some piece) :
    offsetOf pieces (index + 1) = offsetOf pieces index + piece.length := by
  rw [offsetOf, List.take_add_one, found]
  simp [offsetOf]

theorem offsetOf_length (pieces : List (List Item)) :
    offsetOf pieces pieces.length = pieces.flatten.length := by
  rw [offsetOf, List.take_length]

theorem offsetOf_mono (pieces : List (List Item)) {first second : Nat} (le : first ≤ second) :
    offsetOf pieces first ≤ offsetOf pieces second := by
  obtain ⟨more, rfl⟩ := Nat.exists_eq_add_of_le le
  rw [offsetOf, offsetOf, List.take_add, List.flatten_append, List.length_append]
  exact Nat.le_add_right _ _

theorem offsetOf_left (first second : List (List Item)) :
    offsetOf (first ++ second) first.length = first.flatten.length := by
  rw [offsetOf, List.take_left]

theorem drop_offsetOf {pieces : List (List Item)} {index : Nat} {piece : List Item}
    (found : pieces[index]? = some piece) {within : Nat} (inside : within ≤ piece.length) :
    pieces.flatten.drop (offsetOf pieces index + within) =
      piece.drop within ++ (pieces.drop (index + 1)).flatten := by
  rcases List.getElem?_eq_some_iff.mp found with ⟨bound, same⟩
  have split : pieces.flatten = (pieces.take index).flatten ++
      (piece ++ (pieces.drop (index + 1)).flatten) := by
    conv_lhs => rw [← List.take_append_drop index pieces]
    rw [List.flatten_append, List.drop_eq_getElem_cons bound, same, List.flatten_cons]
  rw [split, offsetOf, List.drop_append, List.drop_eq_nil_of_le (Nat.le_add_right _ _),
    List.nil_append, Nat.add_sub_cancel_left, List.drop_append_of_le_length inside]

end Zwal.Pieces
