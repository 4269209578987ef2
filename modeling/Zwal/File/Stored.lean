import Zwal.File.Content
import Zwal.File.FileSteps

/-! # What ordinary writes leave on the device

The bytes of a zone written with `pwrite` are those of the write requests, each at the
write pointer it was issued for. -/

namespace Zwal

open Memory ZonedBlockDevice

/-- A write request stores its bytes. Zones of write-ahead logs are not looked at this way. -/
def IoEvent.storeIn (memory : Nat → UInt8) : IoEvent → Nat → UInt8
  | .write call => store memory call.wp call.data
  | _ => memory

def storedBy (memory : Nat → UInt8) (events : List IoEvent) : Nat → UInt8 :=
  events.foldl IoEvent.storeIn memory

@[simp] theorem storedBy_cons (memory : Nat → UInt8) (event : IoEvent) (events : List IoEvent) :
    storedBy memory (event :: events) = storedBy (event.storeIn memory) events :=
  rfl

@[simp] theorem storedBy_append (memory : Nat → UInt8) (first second : List IoEvent) :
    storedBy memory (first ++ second) = storedBy (storedBy memory first) second :=
  List.foldl_append

theorem storedBy_writeEvents (memory : Nat → UInt8) (number wp capacity : Nat) (chunks : List Bytes) :
    storedBy memory (writeEvents number wp capacity chunks) = store memory wp chunks.flatten := by
  induction chunks generalizing memory wp capacity with
  | nil => exact (store_nil memory wp).symm
  | cons chunk chunks induction =>
      rw [writeEvents, storedBy_cons, induction, List.flatten_cons, ← store_append]
      rfl

def ZonedBlockDevice.stored (memory : Nat → UInt8) (zbd : ZonedBlockDevice) : Nat → UInt8 :=
  storedBy memory zbd.trace

theorem stored_advanceAll (memory : Nat → UInt8) (number : Nat) (chunks : List Bytes)
    (zbd : ZonedBlockDevice) :
    (zbd.advanceAll number chunks).stored memory =
      store (zbd.stored memory) (zbd.zone number).wp chunks.flatten := by
  rw [ZonedBlockDevice.stored, advanceAll_eq, storedBy_append, storedBy_writeEvents]
  rfl

end Zwal
