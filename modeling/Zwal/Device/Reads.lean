import Zwal.Device.Zone
import Zwal.Foundation.Memory

/-! # Reading from the device

`ZonedBlockDevice::Read` asks the backend until it has all the bytes, an error or no more
bytes. -/

namespace Zwal.ZonedBlockDevice

open Memory

/-- The loop of `Read`: what is left of the answers and, unless one of them was an error,
the bytes read. -/
def readFrom (device : Nat → UInt8) :
    (answers : List Int) → (offset left : Nat) → (read : Bytes) → List Int × Option Bytes
  | answers, _, 0, read => (answers, some read)
  | [], offset, left, read => ([], some (read ++ bytesAt device offset left))
  | answer :: rest, offset, left, read =>
      if answer < 0 then (rest, none)
      else if answer = 0 then (rest, some read)
      else
        let count := min answer.toNat left
        readFrom device rest (offset + count) (left - count) (read ++ bytesAt device offset count)

/-- `Read`, whose size is an `int`. The loop is not entered for zero bytes, and the result is
the `-1` it starts from; the kernel refuses a size below zero. A read that was interrupted is
made again. -/
def readDevice (device : Nat → UInt8) (offset size : Nat) : DeviceProgram (Option Bytes) := fun zbd =>
  if toInt32 size ≤ 0 then (.ok none, zbd)
  else
    let (replies, result) := readFrom device zbd.replies offset (toInt32 size).toNat []
    (.ok result, { zbd with replies := replies })

theorem readFrom_suffix (device : Nat → UInt8) (answers : List Int) (offset left : Nat)
    (read : Bytes) : (readFrom device answers offset left read).1 <:+ answers := by
  induction answers generalizing offset left read with
  | nil =>
      cases left with
      | zero | succ => simp [readFrom]
  | cons answer answers induction =>
      cases left with
      | zero =>
          have unread : readFrom device (answer :: answers) offset 0 read =
              (answer :: answers, some read) := by rw [readFrom]
          rw [unread]
      | succ left =>
          rw [readFrom]
          · split
            · exact List.suffix_cons _ _
            · split
              · exact List.suffix_cons _ _
              · exact (induction _ _ _).trans (List.suffix_cons _ _)
          · simp

theorem readDevice_cases (device : Nat → UInt8) (offset size : Nat) (zbd : ZonedBlockDevice) :
    ∃ replies result, replies <:+ zbd.replies ∧
      readDevice device offset size zbd = (.ok result, { zbd with replies := replies }) := by
  rw [readDevice]
  split
  · exact ⟨zbd.replies, none, List.suffix_rfl, rfl⟩
  · exact ⟨_, _, readFrom_suffix device zbd.replies offset _ [], rfl⟩

theorem readFrom_of_positive (device : Nat → UInt8) {answers : List Int}
    (positive : ∀ answer ∈ answers, 0 < answer) (offset left : Nat) (read : Bytes) :
    (readFrom device answers offset left read).2 = some (read ++ bytesAt device offset left) := by
  induction answers generalizing offset left read with
  | nil =>
      cases left with
      | zero | succ => simp [readFrom]
  | cons answer answers induction =>
      have first := positive answer List.mem_cons_self
      cases left with
      | zero => simp [readFrom]
      | succ left =>
          rw [readFrom]
          · rw [if_neg (by omega), if_neg (by omega),
              induction fun answer member => positive answer (List.mem_cons_of_mem _ member)]
            generalize amount : min answer.toNat (left + 1) = count
            rw [List.append_assoc, ← bytesAt_add, show count + (left + 1 - count) = left + 1 by omega]
          · simp

/-- Answers that are never empty make up the whole read. -/
theorem readDevice_of_positive (device : Nat → UInt8) (offset : Nat) {size : Nat}
    (asked : 0 < toInt32 size) {zbd : ZonedBlockDevice} (positive : ∀ answer ∈ zbd.replies, 0 < answer) :
    ∃ replies, (∀ answer ∈ replies, 0 < answer) ∧
      readDevice device offset size zbd =
        (.ok (some (bytesAt device offset (toInt32 size).toNat)), { zbd with replies := replies }) := by
  have whole := readFrom_of_positive device positive offset (toInt32 size).toNat []
  have shorter := readFrom_suffix device zbd.replies offset (toInt32 size).toNat []
  rw [readDevice, if_neg (by omega)]
  refine ⟨_, fun answer member => positive answer (shorter.subset member), ?_⟩
  rw [List.nil_append] at whole
  simp only [whole]

theorem readDevice_of_refused (device : Nat → UInt8) (offset : Nat) {size : Nat}
    (refused : toInt32 size ≤ 0) (zbd : ZonedBlockDevice) :
    readDevice device offset size zbd = (.ok none, zbd) := by
  rw [readDevice, if_pos refused]

end Zwal.ZonedBlockDevice
