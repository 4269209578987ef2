import Zwal.File.BufferedWrites

/-! # Direct writes to an ordinary file

`Append` writes block-aligned data as it comes. What it wrote since the last extent was
pushed lies between `extent_start_` and the write pointer of the active zone. -/

namespace Zwal.FileState

open ZonedBlockDevice Memory

/-- The bytes behind the extents: `file_size_ - extent_filepos_` of them, up to the write
pointer. -/
structure Pending (memory : Nat → UInt8) (stream : Bytes) (number : Nat) (state : FileState) : Prop where
  filepos : state.file.extentFilepos ≤ state.file.fileSize
  above : (state.zbd.zone number).start ≤ state.file.extentStart
  start : state.zbd.blockSize ∣ state.file.extentStart
  reaches : state.file.extentStart + (state.file.fileSize - state.file.extentFilepos) =
    (state.zbd.zone number).wp
  joined : content memory state ++ bytesAt (state.zbd.stored memory) state.file.extentStart
    (state.file.fileSize - state.file.extentFilepos) = stream

/-- A file that was written to directly: `stream` is in its extents and behind them. -/
structure Streaming (memory : Nat → UInt8) (stream : Bytes) (state : FileState) : Prop where
  plain : Plain state.file
  laid : Laid state
  blocked : Blocked state.zbd
  writable : Writable state.zbd
  aligned : Aligned state
  size : state.file.fileSize = stream.length
  closed : state.file.activeZone = none → content memory state = stream
  pending : ∀ number, state.file.activeZone = some number → Pending memory stream number state

variable {memory : Nat → UInt8} {stream : Bytes} {state : FileState}

structure Pushed (memory : Nat → UInt8) (stream : Bytes) (before after : FileState) : Prop where
  streaming : Streaming memory stream after
  content : content memory after = stream
  active : after.file.activeZone = before.file.activeZone
  capacity : ∀ number, (after.zbd.zone number).capacity = (before.zbd.zone number).capacity

theorem Streaming.extend (streaming : Streaming memory stream state) {number : Nat}
    (held : state.file.activeZone = some number) :
    Pushed memory stream state
      { state with
        zbd := state.zbd.setZone number { state.zbd.zone number with
          usedCapacity := (state.zbd.zone number).usedCapacity +
            .ofNat (state.file.fileSize - state.file.extentFilepos) }
        file := { state.file with
          extents := state.file.extents ++
            [⟨state.file.extentStart, state.file.fileSize - state.file.extentFilepos, number⟩]
          extentStart := (state.zbd.zone number).wp
          extentFilepos := state.file.fileSize } } := by
  have pending := streaming.pending number held
  have laid := streaming.laid
  have counted : Rests state.zbd (state.zbd.setZone number { state.zbd.zone number with
      usedCapacity := (state.zbd.zone number).usedCapacity +
        .ofNat (state.file.fileSize - state.file.extentFilepos) }) := .setZone rfl rfl rfl
  have zone (other : Nat) : ((state.zbd.setZone number { state.zbd.zone number with
      usedCapacity := (state.zbd.zone number).usedCapacity +
        .ofNat (state.file.fileSize - state.file.extentFilepos) }).zone other).start =
          (state.zbd.zone other).start ∧
      ((state.zbd.setZone number { state.zbd.zone number with
      usedCapacity := (state.zbd.zone number).usedCapacity +
        .ofNat (state.file.fileSize - state.file.extentFilepos) }).zone other).wp =
          (state.zbd.zone other).wp ∧
      ((state.zbd.setZone number { state.zbd.zone number with
      usedCapacity := (state.zbd.zone number).usedCapacity +
        .ofNat (state.file.fileSize - state.file.extentFilepos) }).zone other).capacity =
          (state.zbd.zone other).capacity := by
    by_cases here : other = number
    · rw [here, zone_setZone]
      exact ⟨rfl, rfl, rfl⟩
    · rw [zone_setZone_of_ne here]
      exact ⟨rfl, rfl, rfl⟩
  generalize state.zbd.setZone number { state.zbd.zone number with
      usedCapacity := (state.zbd.zone number).usedCapacity +
        .ofNat (state.file.fileSize - state.file.extentFilepos) } = zbd at counted zone
  have fixed := counted.fixed
  have joined : contentOf (zbd.stored memory) (state.file.extents ++
      [⟨state.file.extentStart, state.file.fileSize - state.file.extentFilepos, number⟩]) = stream := by
    rw [counted.stored, contentOf_append, contentOf_cons, contentOf_nil, List.append_nil]
    exact pending.joined
  refine ⟨⟨⟨streaming.plain.isWal, streaming.plain.isSparse⟩, ⟨counted.spaced laid.spaced, ?_, ?_⟩,
    counted.blocked laid.spaced streaming.blocked, counted.writable laid.spaced streaming.writable, ?_,
    streaming.size, ?_, ?_⟩, joined, rfl, fun other => (zone other).2.2⟩
  · intro extent listed
    rcases List.mem_append.mp listed with old | new
    · exact (laid.inside extent old).rests counted laid.spaced
    · rw [List.mem_singleton.mp new]
      refine ⟨fixed.ioZones ▸ laid.held number held, ?_, ?_⟩
      · exact Nat.le_trans (Nat.le_of_eq (zone number).1) pending.above
      · exact Nat.le_of_eq (pending.reaches.trans (zone number).2.1.symm)
  · intro other active
    exact fixed.ioZones ▸ laid.held other active
  · intro extent listed
    show zbd.blockSize ∣ extent.start
    rw [fixed.blockSize]
    rcases List.mem_append.mp listed with old | new
    · exact streaming.aligned extent old
    · rw [List.mem_singleton.mp new]
      exact pending.start
  · intro idle
    cases held.symm.trans idle
  · intro other active
    have here : other = number := Option.some_inj.mp (active.symm.trans held)
    have member := laid.held number held
    subst here
    refine ⟨Nat.le_refl _, ?_, ?_, ?_, ?_⟩
    · exact Nat.le_trans (Nat.le_of_eq (zone other).1) (laid.spaced.below other member)
    · exact fixed.blockSize ▸ streaming.blocked.wp other member
    · show (state.zbd.zone other).wp + (state.file.fileSize - state.file.fileSize) = (zbd.zone other).wp
      rw [Nat.sub_self, Nat.add_zero, (zone other).2.1]
    · show contentOf (zbd.stored memory) _ ++ bytesAt _ _ (state.file.fileSize - state.file.fileSize) = _
      rw [Nat.sub_self, bytesAt_zero, List.append_nil]
      exact joined

theorem Streaming.push (streaming : Streaming memory stream state) :
    Pushed memory stream state (pushed state) := by
  rw [pushed, pushExtent, Program.update]
  cases held : state.file.activeZone with
  | none => exact ⟨streaming, streaming.closed held, rfl, fun _ => rfl⟩
  | some number =>
      rw [ZoneFile.unpushed_of_le (streaming.pending number held).filepos]
      by_cases nothing : state.file.fileSize - state.file.extentFilepos = 0
      · simp only [if_pos nothing]
        have joined := (streaming.pending number held).joined
        rw [nothing, bytesAt_zero, List.append_nil] at joined
        exact ⟨streaming, joined, rfl, fun _ => rfl⟩
      · simp only [if_neg nothing]
        exact streaming.extend held

theorem Streaming.allocated {next : FileState} (plain : Plain state.file) (laid : Laid state)
    (blocked : Blocked state.zbd) (writable : Writable state.zbd) (aligned : Aligned state)
    (size : state.file.fileSize = stream.length) (whole : content memory state = stream)
    (allocated : Allocated state (.ok ()) next) :
    Streaming memory stream next ∧ next.file.activeZone.isSome ∧ 0 < next.active.capacity := by
  have keeps := allocated.keeps
  have same : content memory next = stream := (keeps.content memory).trans whole
  have placed : Laid next := keeps.laid laid fun other active => (allocated.zone other active).1
  have kept := keeps.device.blocked laid.spaced blocked
  rcases Option.isSome_iff_exists.mp (allocated.returned rfl) with ⟨number, active⟩
  have zone := allocated.zone number active
  refine ⟨⟨keeps.plain plain, placed, kept, keeps.device.writable laid.spaced writable,
    keeps.aligned aligned, keeps.fileSize.trans size, fun _ => same, fun other held => ?_⟩,
    allocated.returned rfl, ?_⟩
  · have here : other = number := Option.some_inj.mp (held.symm.trans active)
    have member := placed.held number active
    subst here
    refine ⟨Nat.le_of_eq zone.2.2.1, ?_, ?_, ?_, ?_⟩
    · rw [zone.2.1]
      exact placed.spaced.below other member
    · rw [zone.2.1]
      exact kept.wp other member
    · rw [zone.2.2.1, Nat.sub_self, Nat.add_zero]
      exact zone.2.1
    · rw [zone.2.2.1, Nat.sub_self, bytesAt_zero, List.append_nil]
      exact same
  · rw [(active_of_held active).2]
    exact zone.2.2.2 laid.spaced writable

theorem Streaming.saved {before after : FileState} (streaming : Streaming memory stream before)
    (saved : Saved before after) : Streaming memory stream after := by
  have keeps := saved.keeps
  have spaced := streaming.laid.spaced
  have active : after.file.activeZone = before.file.activeZone := by rw [saved.file]
  have start : after.file.extentStart = before.file.extentStart := by rw [saved.file]
  have filepos : after.file.extentFilepos = before.file.extentFilepos := by rw [saved.file]
  refine ⟨keeps.plain streaming.plain, keeps.laid streaming.laid fun number held => ?_,
    keeps.device.blocked spaced streaming.blocked, keeps.device.writable spaced streaming.writable,
    keeps.aligned streaming.aligned, keeps.fileSize.trans streaming.size, fun idle => ?_,
    fun number held => ?_⟩
  · exact streaming.laid.held number (active ▸ held)
  · rw [keeps.content]
    exact streaming.closed (active ▸ idle)
  · have pending := streaming.pending number (active ▸ held)
    refine ⟨?_, ?_, ?_, ?_, ?_⟩
    · rw [filepos, keeps.fileSize]
      exact pending.filepos
    · rw [start, saved.zone]
      exact pending.above
    · rw [start, keeps.device.fixed.blockSize]
      exact pending.start
    · rw [start, filepos, keeps.fileSize, saved.zone]
      exact pending.reaches
    · rw [keeps.content, keeps.device.stored, start, filepos, keeps.fileSize]
      exact pending.joined

theorem Streaming.write (streaming : Streaming memory stream state) {number : Nat}
    (held : state.file.activeZone = some number) {chunks : List Bytes} {replies : List Int}
    (room : chunks.flatten.length ≤ (state.zbd.zone number).capacity)
    (whole : state.zbd.blockSize ∣ chunks.flatten.length) :
    Streaming memory (stream ++ chunks.flatten)
      { wrote number chunks replies state with file := { state.file with
        fileSize := state.file.fileSize + chunks.flatten.length } } := by
  have laid := streaming.laid
  have pending := streaming.pending number held
  have member := laid.held number held
  have spaced := @Spaced.advanceAll _ number chunks laid.spaced room
  have rests := wrote_rests number chunks replies state
  have written := @Laid.wrote _ number chunks replies laid room
  have fixed := (advanceAll_fixed number chunks state.zbd).trans rests.fixed
  have old := @Laid.content_wrote _ number chunks replies laid member room memory
  have longer : state.file.fileSize + chunks.flatten.length - state.file.extentFilepos =
      (state.file.fileSize - state.file.extentFilepos) + chunks.flatten.length := by
    have order := pending.filepos
    omega
  refine ⟨⟨streaming.plain.isWal, streaming.plain.isSparse⟩, ⟨written.spaced, written.inside, written.held⟩,
    rests.blocked spaced (streaming.blocked.advanceAll whole),
    rests.writable spaced (streaming.writable.advanceAll laid.spaced), ?_, ?_, ?_, ?_⟩
  · intro extent listed
    exact fixed.blockSize ▸ streaming.aligned extent listed
  · rw [List.length_append, ← streaming.size]
  · intro idle
    cases held.symm.trans idle
  · intro other active
    have here : other = number := Option.some_inj.mp (active.symm.trans held)
    subst here
    refine ⟨Nat.le_trans pending.filepos (Nat.le_add_right _ _), ?_, ?_, ?_, ?_⟩
    · exact Nat.le_trans (Nat.le_of_eq (fixed.start other)) pending.above
    · exact fixed.blockSize ▸ pending.start
    · show state.file.extentStart + (state.file.fileSize + chunks.flatten.length -
        state.file.extentFilepos) = ((state.zbd.advanceAll other chunks).zone other).wp
      rw [longer, zone_advanceAll, ← pending.reaches, Nat.add_assoc]
    · show content memory (wrote other chunks replies state) ++ bytesAt
        ((wrote other chunks replies state).zbd.stored memory) state.file.extentStart
        (state.file.fileSize + chunks.flatten.length - state.file.extentFilepos) = _
      have behind : Within state.zbd other state.file.extentStart
          (state.file.fileSize - state.file.extentFilepos) :=
        ⟨member, pending.above, Nat.le_of_eq pending.reaches⟩
      rw [old, longer, bytesAt_add, rests.stored,
        behind.bytesAt_advanceAll laid.spaced member room, pending.reaches, stored_advanceAll,
        bytesAt_store, ← List.append_assoc, pending.joined]

theorem leaveForAppend_streams {next : FileState} (streaming : Streaming memory stream state)
    (held : state.file.activeZone.isSome) (run : leaveForAppend state = (.ok (), next)) :
    Streaming memory stream next ∧ next.file.activeZone.isSome ∧ 0 < next.active.capacity := by
  rw [leaveForAppend, bind_read] at run
  by_cases full : state.active.capacity = 0
  · rcases Option.isSome_iff_exists.mp held with ⟨number, active⟩
    have extended := streaming.push
    rw [if_pos full, bind_of_ok (show pushExtent state = (.ok (), pushed state) from rfl)] at run
    have still := extended.active.trans active
    rw [(active_of_held active).2, ← extended.capacity] at full
    have isFull : ((pushed state).zbd.zone number).isFull = true := by
      rw [Zone.isFull, beq_iff_eq]
      exact full
    rw [bind_of_ok (closeActiveZone_full extended.streaming.plain.isWal still isFull)] at run
    have keeps := released_keeps number (pushed state)
    have laid := keeps.laid extended.streaming.laid fun other idle => by cases idle
    have ended := @allocateNewZone_allocated (released number (pushed state))
      extended.streaming.plain.isWal rfl
    rw [run] at ended
    rcases ended with never | allocated
    · cases never
    · exact Streaming.allocated (keeps.plain extended.streaming.plain) laid
        (keeps.device.blocked extended.streaming.laid.spaced extended.streaming.blocked)
        (keeps.device.writable extended.streaming.laid.spaced extended.streaming.writable)
        (keeps.aligned extended.streaming.aligned) (keeps.fileSize.trans extended.streaming.size)
        ((keeps.content memory).trans extended.content) allocated
  · rw [if_neg full] at run
    cases run
    exact ⟨streaming, held, Nat.pos_of_ne_zero full⟩

/-- The write of a pass: as much as there is room for, in whole blocks. -/
def writePass (data : Bytes) : FileProgram Nat := do
  leaveForAppend
  let state ← Program.read
  let wrSize := min data.length state.active.capacity
  onDevice (appendZone state.activeNumber (data.take wrSize))
  setFile fun file => { file with fileSize := file.fileSize + wrSize }
  pure wrSize

theorem directAppendLoop_pass (fuel : Nat) (byte : UInt8) (rest : Bytes) :
    directAppendLoop (fuel + 1) (byte :: rest) =
      (writePass (byte :: rest) >>= fun wrSize => directAppendLoop fuel ((byte :: rest).drop wrSize)) := by
  funext state
  rw [directAppendLoop_succ, writePass, Program.bind_assoc]
  rcases run : leaveForAppend state with ⟨failure | _, next⟩
  · rw [bind_of_error run, bind_of_error run]
  · rw [bind_of_ok run, bind_of_ok run, Program.bind_assoc, bind_read,
      bind_read, Program.bind_assoc]
    rfl

theorem writePass_streams {data : Bytes} {wrSize : Nat} {next : FileState}
    (streaming : Streaming memory stream state) (held : state.file.activeZone.isSome)
    (whole : state.zbd.blockSize ∣ data.length) (some : data ≠ [])
    (run : writePass data state = (.ok wrSize, next)) :
    Streaming memory (stream ++ data.take wrSize) next ∧ next.file.activeZone.isSome ∧
      0 < wrSize ∧ wrSize ≤ data.length ∧ next.zbd.blockSize ∣ wrSize ∧
      next.zbd.blockSize = state.zbd.blockSize := by
  rcases bind_eq_ok run with ⟨_, middle, left, rest⟩
  have walked := leaveForAppend_walked held
  rw [left] at walked
  have constant := walked.1.constant.device.blockSize
  rcases leaveForAppend_streams streaming held left with ⟨streams, still, room⟩
  rcases Option.isSome_iff_exists.mp still with ⟨number, active⟩
  have same := active_of_held active
  rw [same.2] at room
  rw [bind_read, same.1, same.2] at rest
  have block : middle.zbd.blockSize ∣ min data.length (middle.zbd.zone number).capacity := by
    have aligned := streams.blocked.capacity number (streams.laid.held number active)
    rw [← constant] at whole
    rcases Nat.le_total data.length (middle.zbd.zone number).capacity with small | large
    · rw [Nat.min_eq_left small]
      exact whole
    · rw [Nat.min_eq_right large]
      exact aligned
  have filled := List.length_pos_iff.mpr some
  generalize size : min data.length (middle.zbd.zone number).capacity = wanted at rest block
  have width : (data.take wanted).length = wanted := by
    rw [List.length_take]
    omega
  rcases appendZone_wrote number (data.take wanted) middle with
    ⟨chunks, replies, fits, ⟨failure, _, write⟩ | ⟨taken, write⟩⟩
  · rw [bind_of_error write] at rest
    cases rest
  · rw [bind_of_ok write, bind_setFile] at rest
    cases rest
    have written := @Streaming.write memory stream middle streams number active chunks replies fits
      (by rw [taken, width]; exact block)
    have fixed := (advanceAll_fixed number chunks middle.zbd).trans
      (wrote_rests number chunks replies middle).fixed
    rw [taken, width] at written
    refine ⟨written, Option.isSome_of_eq_some active, by omega, by omega, ?_, ?_⟩
    · exact fixed.blockSize ▸ block
    · exact fixed.blockSize.trans constant

theorem directAppendLoop_streams (fuel : Nat) {data : Bytes} {next : FileState}
    (streaming : Streaming memory stream state) (held : state.file.activeZone.isSome)
    (whole : state.zbd.blockSize ∣ data.length)
    (run : directAppendLoop fuel data state = (.ok (), next)) :
    Streaming memory (stream ++ data) next := by
  induction fuel generalizing stream data state with
  | zero =>
      cases data with
      | nil =>
          cases run
          rwa [List.append_nil]
      | cons => cases run
  | succ fuel induction =>
      cases data with
      | nil =>
          cases run
          rwa [List.append_nil]
      | cons byte rest =>
          rw [directAppendLoop_pass] at run
          rcases bind_eq_ok run with ⟨wrSize, middle, pass, onward⟩
          rcases writePass_streams streaming held whole (List.cons_ne_nil byte rest) pass with
            ⟨streams, still, _, part, block, constant⟩
          have last := induction streams still (by
            rw [List.length_drop]
            exact Nat.dvd_sub (constant ▸ whole) block) onward
          rw [List.append_assoc, List.take_append_drop] at last
          exact last

theorem directAppendLoop_fuel {fuel more : Nat} {data : Bytes}
    (streaming : Streaming memory stream state) (held : state.file.activeZone.isSome)
    (whole : state.zbd.blockSize ∣ data.length) (enough : data.length ≤ fuel)
    (also : data.length ≤ more) :
    directAppendLoop fuel data state = directAppendLoop more data state := by
  induction fuel generalizing more stream data state with
  | zero =>
      rw [List.eq_nil_of_length_eq_zero (Nat.le_zero.mp enough)]
      cases more with
      | zero | succ => rfl
  | succ fuel induction =>
      cases data with
      | nil =>
          cases more with
          | zero | succ => rfl
      | cons byte rest =>
          have size : (byte :: rest).length = rest.length + 1 := List.length_cons
          obtain ⟨more, rfl⟩ : ∃ count, more = count + 1 := ⟨more - 1, by omega⟩
          rw [directAppendLoop_pass, directAppendLoop_pass]
          rcases pass : writePass (byte :: rest) state with ⟨failure | wrSize, next⟩
          · rw [bind_of_error pass, bind_of_error pass]
          · rw [bind_of_ok pass, bind_of_ok pass]
            rcases writePass_streams streaming held whole (List.cons_ne_nil byte rest) pass with
              ⟨streams, still, some, part, block, constant⟩
            have shorter : ((byte :: rest).drop wrSize).length = (byte :: rest).length - wrSize :=
              List.length_drop
            refine induction streams still ?_ (by omega) (by omega)
            rw [shorter]
            exact Nat.dvd_sub (constant ▸ whole) block

theorem ensureActiveZone_streams {next : FileState} (streaming : Streaming memory stream state)
    (run : ensureActiveZone state = (.ok (), next)) :
    Streaming memory stream next ∧ next.file.activeZone.isSome ∧
      next.zbd.blockSize = state.zbd.blockSize := by
  rcases ensureActiveZone_cases state with ⟨held, same⟩ | ⟨idle, same⟩
  all_goals rw [same] at run
  · cases run
    exact ⟨streaming, held, rfl⟩
  · have ended := allocateNewZone_allocated streaming.plain.isWal idle
    rw [run] at ended
    rcases ended with never | allocated
    · cases never
    · have streams := Streaming.allocated streaming.plain streaming.laid streaming.blocked
        streaming.writable streaming.aligned streaming.size (streaming.closed idle) allocated
      exact ⟨streams.1, streams.2.1, allocated.keeps.device.fixed.blockSize⟩

theorem directAppend_streams (fuel : Nat) {data : Bytes} {next : FileState}
    (streaming : Streaming memory stream state) (small : data.length < 2 ^ 32)
    (whole : state.zbd.blockSize ∣ data.length) (run : directAppend fuel data state = (.ok (), next)) :
    Streaming memory (stream ++ data) next := by
  rw [directAppend, Nat.mod_eq_of_lt small, List.take_length] at run
  rcases bind_eq_ok run with ⟨_, middle, ensured, loop⟩
  rcases ensureActiveZone_streams streaming ensured with ⟨streams, held, constant⟩
  exact directAppendLoop_streams fuel streams held (constant ▸ whole) loop

theorem directAppend_fuel {fuel more : Nat} {data : Bytes}
    (streaming : Streaming memory stream state) (small : data.length < 2 ^ 32)
    (whole : state.zbd.blockSize ∣ data.length) (enough : data.length ≤ fuel)
    (also : data.length ≤ more) : directAppend fuel data state = directAppend more data state := by
  rw [directAppend, directAppend, Nat.mod_eq_of_lt small, List.take_length]
  rcases ensured : ensureActiveZone state with ⟨failure | _, next⟩
  · rw [bind_of_error ensured, bind_of_error ensured]
  · rw [bind_of_ok ensured, bind_of_ok ensured]
    rcases ensureActiveZone_streams streaming ensured with ⟨streams, held, constant⟩
    exact directAppendLoop_fuel streams held (constant ▸ whole) enough also

end Zwal.FileState
