import Zwal.Foundation.Bytes

/-! # Memory

A memory gives a byte to every address. Runs of bytes are read from it and stored in it. -/

namespace Zwal

def bytesAt (device : Nat → UInt8) (start count : Nat) : Bytes :=
  (List.range count).map fun index => device (start + index)

namespace Memory

variable {memory other : Nat → UInt8} {start count : Nat}

@[simp] theorem length_bytesAt (memory : Nat → UInt8) (start count : Nat) :
    (bytesAt memory start count).length = count := by
  simp [bytesAt]

@[simp] theorem bytesAt_zero (memory : Nat → UInt8) (start : Nat) : bytesAt memory start 0 = [] :=
  rfl

theorem getElem?_bytesAt (memory : Nat → UInt8) (start : Nat) {count index : Nat}
    (inside : index < count) : (bytesAt memory start count)[index]? = some (memory (start + index)) := by
  simp [bytesAt, inside]

theorem bytesAt_add (memory : Nat → UInt8) (start first second : Nat) :
    bytesAt memory start (first + second) =
      bytesAt memory start first ++ bytesAt memory (start + first) second := by
  simp only [bytesAt, List.range_add, List.map_append, List.map_map]
  congr 1
  apply List.map_congr_left
  intro index _
  simp [Nat.add_assoc]

theorem take_bytesAt (memory : Nat → UInt8) (start : Nat) {count total : Nat}
    (inside : count ≤ total) :
    (bytesAt memory start total).take count = bytesAt memory start count := by
  obtain ⟨more, rfl⟩ := Nat.exists_eq_add_of_le inside
  rw [bytesAt_add, List.take_append_of_le_length (by simp), List.take_of_length_le (by simp)]

theorem drop_bytesAt (memory : Nat → UInt8) (start : Nat) {count total : Nat}
    (inside : count ≤ total) :
    (bytesAt memory start total).drop count = bytesAt memory (start + count) (total - count) := by
  obtain ⟨more, rfl⟩ := Nat.exists_eq_add_of_le inside
  rw [bytesAt_add, List.drop_left' (by simp), Nat.add_sub_cancel_left]

theorem bytesAt_congr (same : ∀ address, start ≤ address → address < start + count →
    memory address = other address) : bytesAt memory start count = bytesAt other start count := by
  apply List.map_congr_left
  intro index member
  have inside := List.mem_range.mp member
  exact same (start + index) (by omega) (by omega)

/-! ## Storing -/

def store (memory : Nat → UInt8) (start : Nat) (bytes : Bytes) : Nat → UInt8 := fun address =>
  if start ≤ address ∧ address < start + bytes.length then bytes.getD (address - start) 0
  else memory address

theorem store_outside {bytes : Bytes} {address : Nat}
    (outside : address < start ∨ start + bytes.length ≤ address) :
    store memory start bytes address = memory address := by
  rw [store, if_neg (by omega)]

theorem bytesAt_store (memory : Nat → UInt8) (start : Nat) (bytes : Bytes) :
    bytesAt (store memory start bytes) start bytes.length = bytes := by
  apply List.ext_getElem?
  intro index
  by_cases inside : index < bytes.length
  · rw [getElem?_bytesAt _ _ inside, store, if_pos (by omega), Nat.add_sub_cancel_left,
      List.getD_eq_getElem?_getD, List.getElem?_eq_getElem inside, Option.getD_some]
  · rw [List.getElem?_eq_none (by simpa using inside), List.getElem?_eq_none (by simpa using inside)]

theorem bytesAt_store_of_disjoint {bytes : Bytes} {place : Nat}
    (disjoint : start + count ≤ place ∨ place + bytes.length ≤ start) :
    bytesAt (store memory place bytes) start count = bytesAt memory start count := by
  apply bytesAt_congr
  intro address low high
  exact store_outside (by omega)

theorem store_nil (memory : Nat → UInt8) (start : Nat) : store memory start [] = memory := by
  funext address
  exact store_outside (by simp; omega)

theorem store_append (memory : Nat → UInt8) (start : Nat) (first second : Bytes) :
    store (store memory start first) (start + first.length) second =
      store memory start (first ++ second) := by
  funext address
  by_cases low : address < start + first.length
  · rw [store_outside (.inl low), store, store]
    by_cases inside : start ≤ address
    · rw [if_pos ⟨inside, low⟩, if_pos ⟨inside, by rw [List.length_append]; omega⟩,
        List.getD_append _ _ _ _ (by omega)]
    · rw [if_neg (by omega), if_neg (by omega)]
  · by_cases inside : address < start + first.length + second.length
    · rw [store, if_pos (by omega), store, if_pos (by rw [List.length_append]; omega),
        List.getD_append_right _ _ _ _ (by omega)]
      congr 1
      omega
    · rw [store_outside (by omega), store_outside (by omega),
        store_outside (by rw [List.length_append]; omega)]

end Memory

end Zwal
