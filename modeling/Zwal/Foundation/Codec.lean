import Zwal.Foundation.Bytes

/-! # Fields of a byte string

Numbers of a fixed width, numbers of seven bits a byte, and byte strings with their length,
a number of 32 bits, in front. A reader takes a value from the front of its input and gives back the rest. -/

namespace Zwal.Codec

abbrev Reader (Value : Type) := Bytes → Option (Value × Bytes)

/-! ## Fixed width -/

def getFixed (width : Nat) : Reader Nat := fun input =>
  if input.length < width then none
  else some (Bytes.toNat (input.take width), input.drop width)

theorem getFixed_ofNat {width value : Nat} (fits : value < 256 ^ width) (rest : Bytes) :
    getFixed width (Bytes.ofNat width value ++ rest) = some (value, rest) := by
  have enough : ¬ (Bytes.ofNat width value ++ rest).length < width := by simp
  rw [getFixed, if_neg enough, List.take_left' (Bytes.length_ofNat _ _),
    List.drop_left' (Bytes.length_ofNat _ _), Bytes.toNat_ofNat_of_lt fits]

/-! ## Seven bits a byte -/

def putVarint (value : Nat) : Bytes :=
  if value < 128 then [UInt8.ofNat value]
  else UInt8.ofNat (value % 128 + 128) :: putVarint (value / 128)
decreasing_by omega

def getVarint : Reader Nat
  | [] => none
  | byte :: rest =>
      if byte.toNat < 128 then some (byte.toNat, rest)
      else (getVarint rest).map fun (value, rest) => (byte.toNat - 128 + 128 * value, rest)

theorem getVarint_putVarint (value : Nat) (rest : Bytes) :
    getVarint (putVarint value ++ rest) = some (value, rest) := by
  induction value using Nat.strongRecOn with
  | ind value induction =>
      rw [putVarint]
      split
      · rename_i small
        have byte : (UInt8.ofNat value).toNat = value := by
          rw [UInt8.toNat_ofNat']
          omega
        rw [List.singleton_append, getVarint, byte, if_pos small]
      · rename_i large
        have byte : (UInt8.ofNat (value % 128 + 128)).toNat = value % 128 + 128 := by
          rw [UInt8.toNat_ofNat']
          omega
        rw [List.cons_append, getVarint, byte, if_neg (by omega), induction (value / 128) (by omega)]
        simp only [Option.map_some, Option.some.injEq, Prod.mk.injEq, and_true]
        omega

/-! ## A length in front -/

def putPrefixed (data : Bytes) : Bytes := putVarint (data.length % 2 ^ 32) ++ data

def getPrefixed : Reader Bytes := fun input =>
  match getVarint input with
  | none => none
  | some (size, rest) =>
      if rest.length < size then none else some (rest.take size, rest.drop size)

theorem getPrefixed_putPrefixed {data : Bytes} (fits : data.length < 2 ^ 32) (rest : Bytes) :
    getPrefixed (putPrefixed data ++ rest) = some (data, rest) := by
  have enough : ¬ (data ++ rest).length < data.length := by simp
  rw [getPrefixed, putPrefixed, Nat.mod_eq_of_lt fits, List.append_assoc, getVarint_putVarint]
  simp only
  rw [if_neg enough, List.take_left, List.drop_left]

theorem length_putPrefixed_pos (data : Bytes) : 0 < (putPrefixed data).length := by
  rw [putPrefixed, putVarint]
  split
  all_goals simp

end Zwal.Codec
