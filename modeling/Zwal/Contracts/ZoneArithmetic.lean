import Zwal.Device.Open
import Zwal.Device.Grants

/-! # Write pointer and capacity of a zone

`Append`, `ZoneAppend`, `Reset`, `Finish` and the host-side release of
`ReleaseUnusedWALZones` each update `wp_`, `capacity_` and `max_capacity_` on their own. A run
is any list of their calls on one zone, with any answers of the device; between them the
allocators and files change the other fields of the zone. -/

namespace Zwal.ZoneArithmetic

open ZonedBlockDevice

structure Sound (zone : Zone) : Prop where
  below : zone.start ≤ zone.wp
  room : zone.capacity = 0 ∨ zone.wp + zone.capacity = zone.start + zone.maxCapacity

/-- A request for `size` bytes at the write pointer of the zone as it is then. -/
structure Request where
  zone : Zone
  size : Nat

/-- No byte of it lies behind the capacity, and `capacity_` does not wrap by what is taken. -/
structure Request.Fits (request : Request) : Prop where
  sound : Sound request.zone
  size_le : request.size ≤ request.zone.capacity

theorem Request.Fits.inside {request : Request} (fits : request.Fits) (some_bytes : 0 < request.size) :
    request.zone.wp + request.size ≤ request.zone.start + request.zone.maxCapacity := by
  have room := fits.sound.room
  have size_le := fits.size_le
  omega

/-- What the passes of `writeLoop` ask for: all that is left, at the write pointer. -/
def writeRequests (number : Nat) :
    (answers : List Int) → (data : Bytes) → ZonedBlockDevice → List Request
  | _, [], _ => []
  | [], data, zbd => [⟨zbd.zone number, data.length⟩]
  | answer :: rest, data, zbd =>
      ⟨zbd.zone number, data.length⟩ ::
        if answer < 0 then []
        else writeRequests number rest (data.drop answer.toNat)
          (zbd.advance number (data.take answer.toNat))

theorem Sound.advance {number : Nat} {zbd : ZonedBlockDevice} (sound : Sound (zbd.zone number))
    {written : Bytes} (fits : written.length ≤ (zbd.zone number).capacity) :
    Sound ((zbd.advance number written).zone number) ∧
      ((zbd.advance number written).zone number).capacity =
        (zbd.zone number).capacity - written.length := by
  have moved : (zbd.advance number written).zone number = _ := zone_setZone _ _ _
  have room := sound.room
  rw [moved]
  refine ⟨⟨Nat.le_add_right_of_le sound.below, ?_⟩, rfl⟩
  simp only
  omega

theorem writeLoop_sound (number : Nat) {answers : List Int} {data : Bytes} {zbd : ZonedBlockDevice}
    (sound : Sound (zbd.zone number)) (fits : data.length ≤ (zbd.zone number).capacity) :
    Sound ((writeLoop number answers data zbd).2.zone number) ∧
      ∀ request ∈ writeRequests number answers data zbd, request.Fits := by
  induction answers generalizing data zbd with
  | nil =>
      cases data with
      | nil => exact ⟨sound, nofun⟩
      | cons byte rest =>
          refine ⟨(sound.advance fits).1, ?_⟩
          intro request member
          rw [writeRequests, List.mem_singleton] at member
          · exact member ▸ ⟨sound, fits⟩
          · exact nofun
  | cons answer answers induction =>
      cases data with
      | nil => exact ⟨sound, nofun⟩
      | cons byte rest =>
          rw [writeLoop, writeRequests]
          · by_cases failed : answer < 0
            · rw [if_pos failed, if_pos failed]
              exact ⟨sound, by simpa using ⟨sound, fits⟩⟩
            · -- The pass leaves room for what it did not write.
              rw [if_neg failed, if_neg failed, bind_update]
              have taken := List.length_take_le' answer.toNat (byte :: rest)
              rcases sound.advance (Nat.le_trans taken fits) with ⟨next, left⟩
              rcases @induction ((byte :: rest).drop answer.toNat) _ next (by
                rw [left, List.length_drop, List.length_take]
                omega) with ⟨last, later⟩
              refine ⟨last, ?_⟩
              rw [List.forall_mem_cons]
              exact ⟨⟨sound, fits⟩, later⟩
          · exact nofun
          · exact nofun

/-! ## Calls and runs -/

inductive Call
  | append (data : Bytes)
  | zoneAppend (call : AppendCall)
  | reset (limit : Nat)
  | finish
  | release
  | mark (lifetime : Nat) (usedCapacity : UInt64) (busy : Bool)

def Call.run (number : Nat) (zbd : ZonedBlockDevice) : Call → ZonedBlockDevice
  | append data => (appendZone number data zbd).2
  | zoneAppend call => (ZonedBlockDevice.zoneAppend { call with zone := number } zbd).2
  | reset limit => (resetUpTo limit number zbd).2
  | finish => (finishZone number zbd).2
  | release => releaseUnusedWALZone zbd number
  | mark lifetime usedCapacity busy =>
      zbd.setZone number { zbd.zone number with
        lifetime := lifetime, usedCapacity := usedCapacity, busy := busy }

def Call.requests (number : Nat) (zbd : ZonedBlockDevice) : Call → List Request
  | append data =>
      if (zbd.zone number).capacity < data.length then []
      else writeRequests number zbd.replies data zbd
  | zoneAppend call =>
      if (zbd.zone number).capacity < call.size then [] else [⟨zbd.zone number, call.size⟩]
  | reset _ | finish | release | mark _ _ _ => []

variable {number : Nat} {zbd : ZonedBlockDevice}

theorem appendZone_sound (sound : Sound (zbd.zone number)) (data : Bytes) :
    Sound ((appendZone number data zbd).2.zone number) ∧
      ∀ request ∈ (Call.append data).requests number zbd, request.Fits := by
  rw [appendZone, bind_read, Call.requests]
  by_cases short : (zbd.zone number).capacity < data.length
  · rw [if_pos short, if_pos short]
    exact ⟨sound, nofun⟩
  · rw [if_neg short, if_neg short]
    exact writeLoop_sound number sound (Nat.le_of_not_lt short)

theorem zoneAppend_sound (sound : Sound (zbd.zone number)) {call : AppendCall} (here : call.zone = number) :
    Sound ((zoneAppend call zbd).2.zone number) := by
  subst here
  rw [zoneAppend, bind_read]
  split
  · exact sound
  · rename_i room
    rcases request_cases (.ioError "Success") zbd with ⟨replies, _, run | ⟨_, run⟩⟩
    · rw [bind_of_ok run]
      have moved : (({ zbd with replies := replies } : ZonedBlockDevice).accept call).zone call.zone = _ :=
        zone_setZone _ _ _
      have before := sound.room
      change Sound ((({ zbd with replies := replies } : ZonedBlockDevice).accept call).zone call.zone)
      rw [moved]
      refine ⟨Nat.le_add_right_of_le sound.below, ?_⟩
      simp only
      omega
    · rw [bind_of_error run]
      exact sound

theorem resetUpTo_sound (limit : Nat) (sound : Sound (zbd.zone number)) :
    Sound ((resetUpTo limit number zbd).2.zone number) := by
  rcases request_cases (.ioError "Zone reset failed\n") zbd with ⟨replies, _, run | ⟨_, run⟩⟩
  · rcases reply_cases (zbd.zone number).maxCapacity { zbd with replies := replies } with
      ⟨answer, later, _, _, answered⟩
    rw [resetUpTo, bind_of_ok run, bind_read, bind_of_ok answered]
    change Sound (Function.update zbd.zone number _ number)
    rw [Function.update_self]
    refine ⟨Nat.le_refl _, ?_⟩
    by_cases offline : answer < 0
    · exact .inl (if_pos offline)
    · simp only [if_neg offline, or_true]
  · rw [resetUpTo, bind_of_error run]
    exact sound

theorem finishZone_sound (sound : Sound (zbd.zone number)) :
    Sound ((finishZone number zbd).2.zone number) := by
  rcases request_cases (.ioError "Zone finish failed\n") zbd with ⟨replies, _, run | ⟨_, run⟩⟩
  · rw [finishZone, bind_of_ok run]
    change Sound (Function.update zbd.zone number _ number)
    rw [Function.update_self]
    exact ⟨Nat.le_add_right _ _, .inl rfl⟩
  · rw [finishZone, bind_of_error run]
    exact sound

theorem releaseUnusedWALZone_sound (sound : Sound (zbd.zone number)) :
    Sound ((zbd.releaseUnusedWALZone number).zone number) := by
  rcases releaseUnusedWALZone_cases zbd number with same | ⟨_, _, _, same⟩
  · rw [same]
    exact sound
  · rw [same]
    change Sound (Function.update zbd.zone number _ number)
    rw [Function.update_self]
    exact ⟨Nat.le_refl _, .inr rfl⟩

theorem Call.sound (sound : Sound (zbd.zone number)) (call : Call) :
    Sound ((call.run number zbd).zone number) := by
  cases call with
  | append data => exact (appendZone_sound sound data).1
  | zoneAppend call => exact zoneAppend_sound sound rfl
  | reset limit => exact resetUpTo_sound limit sound
  | finish => exact finishZone_sound sound
  | release => exact releaseUnusedWALZone_sound sound
  | mark lifetime usedCapacity busy =>
      rw [run, zone_setZone]
      exact ⟨sound.below, sound.room⟩

/-- A zone of 640 bytes with a block written, whose device takes 64 bytes of the next write,
refuses the one after and reports 512 bytes at the reset. -/
def written : ZonedBlockDevice where
  zone _ := (⟨1024, 640, 1088, true, false, true, false, false⟩ : ReportedZone).toZone
  ioZones := [0]
  walZones := []
  blockSize := 64
  zoneSize := 1024
  finishThreshold := 0
  activeIoZones := 1
  openIoZones := 1
  maxNrActiveIoZones := 4
  maxNrOpenIoZones := 4
  zoneDeferredStatus := none
  replies := [64, -1, 0, 512]
  trace := []

end Zwal.ZoneArithmetic
