import Mathlib

/-! # Byte strings

Little-endian numbers, in-place buffer updates and slices over lists of bytes.
Nothing here knows about files or devices. -/

namespace Zwal

abbrev Bytes := List UInt8

/-- The conversion of an unsigned number to `int`. -/
def toInt32 (value : Nat) : Int :=
  if value % 2 ^ 32 < 2 ^ 31 then value % 2 ^ 32 else value % 2 ^ 32 - 2 ^ 32

theorem toInt32_of_dvd {value : Nat} (divided : 2 ^ 32 ∣ value) : toInt32 value ≤ 0 := by
  rw [toInt32]
  omega

theorem toInt32_positive {value asked : Nat} (same : toInt32 value = asked) (positive : 0 < asked) :
    value % 2 ^ 32 = asked ∧ asked < 2 ^ 31 := by
  rw [toInt32] at same
  split at same
  · omega
  · omega

theorem toInt32_of_lt {value : Nat} (fits : value < 2 ^ 31) : toInt32 value = value := by
  rw [toInt32]
  omega

namespace Bytes

/-- The `width` low bytes of `value`, least significant first. -/
def ofNat : (width value : Nat) → Bytes
  | 0, _ => []
  | width + 1, value => UInt8.ofNat (value % 256) :: ofNat width (value / 256)

def toNat : (bytes : Bytes) → Nat
  | [] => 0
  | byte :: rest => byte.toNat + 256 * toNat rest

@[simp] theorem length_ofNat (width value : Nat) : (ofNat width value).length = width := by
  induction width generalizing value with
  | zero => rfl
  | succ width induction => simp [ofNat, induction]

theorem toNat_ofNat (width value : Nat) : toNat (ofNat width value) = value % 256 ^ width := by
  induction width generalizing value with
  | zero => simp [ofNat, toNat, Nat.mod_one]
  | succ width induction =>
      have byteValue : (UInt8.ofNat (value % 256)).toNat = value % 256 := by
        rw [UInt8.toNat_ofNat']
        omega
      rw [ofNat, toNat, byteValue, induction, Nat.pow_succ, Nat.mul_comm (256 ^ width),
        Nat.mod_mul]

theorem toNat_ofNat_of_lt {width value : Nat} (fits : value < 256 ^ width) :
    toNat (ofNat width value) = value := by
  rw [toNat_ofNat, Nat.mod_eq_of_lt fits]

@[simp] theorem toNat_replicate_zero (count : Nat) : toNat (List.replicate count 0) = 0 := by
  induction count with
  | zero => rfl
  | succ count induction => simp [List.replicate_succ, toNat, induction]

def overwrite (buffer : Bytes) (offset : Nat) (data : Bytes) : Bytes :=
  buffer.take offset ++ data ++ buffer.drop (offset + data.length)

@[simp] theorem overwrite_nil (buffer : Bytes) (offset : Nat) :
    overwrite buffer offset [] = buffer := by
  simp [overwrite]

theorem length_overwrite {buffer data : Bytes} {offset : Nat}
    (inside : offset + data.length ≤ buffer.length) :
    (overwrite buffer offset data).length = buffer.length := by
  simp [overwrite]
  omega

theorem take_overwrite {buffer data : Bytes} {offset count : Nat} (before : count ≤ offset)
    (inside : offset ≤ buffer.length) :
    (overwrite buffer offset data).take count = buffer.take count := by
  rw [overwrite, List.append_assoc, List.take_append_of_le_length, List.take_take,
    Nat.min_eq_left before]
  rw [List.length_take]
  omega

theorem take_drop_overwrite {buffer data : Bytes} {offset : Nat} (inside : offset ≤ buffer.length) :
    ((overwrite buffer offset data).drop offset).take data.length = data := by
  have prefixLength : (buffer.take offset).length = offset := by
    simp [Nat.min_eq_left inside]
  rw [overwrite, List.append_assoc, List.drop_append, List.drop_eq_nil_of_le (by omega),
    List.nil_append, prefixLength, Nat.sub_self, List.drop_zero, List.take_left]

theorem take_overwrite_end {buffer data : Bytes} {offset : Nat} (inside : offset ≤ buffer.length) :
    (overwrite buffer offset data).take (offset + data.length) = buffer.take offset ++ data := by
  have prefixLength : (buffer.take offset ++ data).length = offset + data.length := by
    simp [Nat.min_eq_left inside]
  rw [overwrite, List.take_append_of_le_length (by omega), ← prefixLength, List.take_length]

theorem take_drop_overwrite_end {buffer : Bytes} (data : Bytes) {start count : Nat}
    (inside : start + count ≤ buffer.length) :
    ((overwrite buffer (start + count) data).drop start).take (count + data.length) =
      (buffer.drop start).take count ++ data := by
  have region : ((overwrite buffer (start + count) data).drop start).take (count + data.length) =
      ((overwrite buffer (start + count) data).take (start + count + data.length)).drop start := by
    rw [List.drop_take]
    congr 1
    omega
  have width : (buffer.take (start + count)).length = start + count := by
    rw [List.length_take, Nat.min_eq_left inside]
  rw [region, take_overwrite_end inside, List.drop_append_of_le_length (by omega), List.drop_take,
    Nat.add_sub_cancel_left]

end Bytes

end Zwal
