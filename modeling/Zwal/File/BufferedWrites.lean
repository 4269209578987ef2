import Zwal.File.Placement

/-! # Flushing the buffer of an ordinary file

One pass of `BufferedAppend` writes the bytes that fit the active zone and makes an extent
of them; at the end of a zone the bytes that are left move to the front of the buffer.
However a flush ends, the extents hold a prefix of what was to be flushed. -/

namespace Zwal.FileState

open ZonedBlockDevice Memory

theorem dvd_add_padSize_of_pos {blockSize : Nat} (positive : 0 < blockSize) (wrSize : Nat) :
    blockSize ∣ wrSize + padSize blockSize wrSize := by
  rcases padSize_eq blockSize wrSize with ⟨whole, pad⟩ | ⟨_, pad⟩
  · rw [pad, Nat.add_zero]
    exact Nat.dvd_of_mod_eq_zero whole
  · have below := Nat.mod_lt wrSize positive
    have split := Nat.div_add_mod wrSize blockSize
    refine ⟨wrSize / blockSize + 1, ?_⟩
    rw [pad, Nat.mul_add, Nat.mul_one]
    omega

theorem Fits.positive {state : FileState} {left : Nat} (fits : Fits state left) :
    0 < state.zbd.blockSize :=
  Nat.pos_of_dvd_of_pos fits.blocks (by decide)

structure Landed (before : FileState) (pending : Bytes) (taken : Nat) (after : FileState) : Prop where
  laid : Laid after
  plain : Plain after.file
  fixed : Fixed before.zbd after.zbd
  content : ∀ memory, content memory after = content memory before ++ pending.take taken
  fileSize : after.file.fileSize = before.file.fileSize + taken
  aligned : Aligned before → Aligned after
  memory : after.buffer.length = before.buffer.length

structure Poised (after : FileState) : Prop where
  held : after.file.activeZone.isSome
  started : Started after
  blocked : Blocked after.zbd

/-- A flush that stopped. Nothing is lost as long as no byte was taken. -/
structure Stopped (before : FileState) (left : Nat) (taken : Nat) (after : FileState) : Prop where
  part : taken ≤ left
  flushed : Landed before (before.buffer.take left) taken after
  intact : taken = 0 → after.buffer.take left = before.buffer.take left

def PassEnds (before : FileState) (left : Nat) : Except IOStatus Nat × FileState → Prop
  | (.ok rest, after) => ∃ taken, taken ≤ left ∧ rest = left - taken ∧
      Landed before (before.buffer.take left) taken after ∧ Poised after ∧
      after.buffer.take rest = (before.buffer.take left).drop taken ∧
      (0 < before.active.capacity → 0 < left → 0 < taken) ∧
      (Writable before.zbd → Supplied after)
  | (.error failure, after) => failure = .never ∨ ∃ taken, Stopped before left taken after

/-- The size of the next write of a file that is no write-ahead log. -/
def plainSize (left : Nat) (state : FileState) : Nat := min left state.active.capacity

def withPadding (wrSize : Nat) (state : FileState) : FileState :=
  { state with buffer := padBuffer state.zbd.blockSize wrSize state.buffer }

/-- A pass after the buffer was padded, for a file that is no write-ahead log. -/
def plainPass (size wrSize left : Nat) : FileProgram Nat := do
  let state ← Program.read
  onDevice (appendZone state.activeNumber (state.buffer.take size))
  Program.update (addExtent 0 wrSize)
  leaveFullZone 0 wrSize (left - wrSize)
  pure (left - wrSize)

theorem bufferedBarrier_plain (config : BuildConfig) {state : FileState}
    (isWal : state.file.isWal = false) : bufferedBarrier config state = (.ok (), state) := by
  rw [bufferedBarrier, bind_read, isWal, Bool.false_and, if_neg Bool.false_ne_true]
  rfl

theorem bufferedWriteActive_plain (size extentLength left : Nat) {state : FileState}
    (isWal : state.file.isWal = false) :
    bufferedWriteActive size extentLength left state =
      onDevice (appendZone state.activeNumber (state.buffer.take size)) state := by
  rw [bufferedWriteActive, bind_read, isWal, if_neg Bool.false_ne_true]

theorem bufferedAppendPass_plain (config : BuildConfig) {state : FileState} {left : Nat}
    (isWal : state.file.isWal = false) :
    bufferedAppendPass config left state =
      plainPass ((plainSize left state + padSize state.zbd.blockSize (plainSize left state)) % 2 ^ 32)
        (plainSize left state) left (withPadding (plainSize left state) state) := by
  have clipped (room : Nat) : state.clipWrite left room = plainSize left state := by
    rw [clipWrite, isWal]
    rfl
  have kept : (withPadding (plainSize left state) state).file.isWal = false := isWal
  rw [bufferedAppendPass, bind_read]
  simp only [clipped]
  have pads : Program.update (fun other : FileState => { other with
      buffer := padBuffer other.zbd.blockSize (plainSize left state) other.buffer }) state =
        ((.ok (), withPadding (plainSize left state) state) : Except IOStatus Unit × FileState) := rfl
  refine (bind_of_ok pads).trans ?_
  rw [bind_of_ok (bufferedBarrier_plain config kept), plainPass, bind_read]
  exact bind_of_eq (bufferedWriteActive_plain _ _ _ kept) _

theorem active_of_held {state : FileState} {number : Nat} (held : state.file.activeZone = some number) :
    state.activeNumber = number ∧ state.active = state.zbd.zone number := by
  have same : state.activeNumber = number := by
    rw [activeNumber, held]
    rfl
  exact ⟨same, by rw [FileState.active, same]⟩

theorem leaveFullZone_full {state : FileState} {number : Nat} (isWal : state.file.isWal = false)
    (held : state.file.activeZone = some number) (full : (state.zbd.zone number).capacity = 0)
    (target wrSize left : Nat) :
    (leaveFullZone target wrSize left state).1 = .error .never ∨
      Allocated (moveRest target wrSize left (released number state))
        (leaveFullZone target wrSize left state).1 (leaveFullZone target wrSize left state).2 := by
  have isFull : (state.zbd.zone number).isFull = true := by
    rw [Zone.isFull, beq_iff_eq]
    exact full
  have unfolded : leaveFullZone target wrSize left state =
      allocateNewZone (moveRest target wrSize left (released number state)) := by
    rw [leaveFullZone, bind_read,
      (active_of_held held).2, if_pos full, bind_of_ok (closeActiveZone_full isWal held isFull),
      bind_update]
  rw [unfolded]
  exact allocateNewZone_allocated isWal rfl

theorem leaveFullZone_open {state : FileState} {number : Nat}
    (held : state.file.activeZone = some number) (room : (state.zbd.zone number).capacity ≠ 0)
    (target wrSize left : Nat) : leaveFullZone target wrSize left state = (.ok (), state) := by
  rw [leaveFullZone, bind_read, (active_of_held held).2, if_neg room]
  rfl

section Pass

variable {state : FileState} {left wrSize : Nat}

theorem Fits.take_padded (fits : Fits state left) (part : wrSize ≤ left) :
    (withPadding wrSize state).buffer.take wrSize = state.buffer.take wrSize := by
  have inside : wrSize ≤ state.buffer.length := by
    rw [fits.memory]
    exact Nat.le_trans part fits.left
  exact Bytes.take_overwrite (Nat.le_refl wrSize) inside

theorem withPadding_of_dvd (whole : state.zbd.blockSize ∣ wrSize) : withPadding wrSize state = state := by
  have none : padSize state.zbd.blockSize wrSize = 0 := if_pos (Nat.mod_eq_zero_of_dvd whole)
  rw [withPadding, padBuffer, none, List.replicate_zero, Bytes.overwrite_nil]

theorem Laid.withPadding (laid : Laid state) (wrSize : Nat) : Laid (FileState.withPadding wrSize state) :=
  ⟨laid.spaced, laid.inside, laid.held⟩

theorem plainSize_cases {number : Nat} (held : state.file.activeZone = some number)
    (laid : Laid state) (blocked : Blocked state.zbd) (left : Nat) :
    (plainSize left state = left ∧ left ≤ (state.zbd.zone number).capacity) ∨
      (plainSize left state = (state.zbd.zone number).capacity ∧
        (state.zbd.zone number).capacity < left ∧ state.zbd.blockSize ∣ plainSize left state) := by
  have aligned := blocked.capacity number (laid.held number held)
  rw [plainSize, (active_of_held held).2]
  by_cases small : left ≤ (state.zbd.zone number).capacity
  · exact .inl ⟨Nat.min_eq_left small, small⟩
  · have clipped := Nat.min_eq_right (Nat.le_of_lt (Nat.lt_of_not_le small))
    rw [clipped]
    exact .inr ⟨rfl, Nat.lt_of_not_le small, aligned⟩

theorem leaveFullZone_ends {number : Nat} {before : FileState} (plain : Plain before.file)
    (laid : Laid before) (held : before.file.activeZone = some number) (started : Started before)
    (blocked : Blocked before.zbd) (wrSize left : Nat) :
    match leaveFullZone 0 wrSize left before with
    | (.error failure, after) => failure = .never ∨
        (Keeps before after ∧ Laid after ∧
          after.buffer = (moveRest 0 wrSize left before).buffer)
    | (.ok (), after) => Keeps before after ∧ Laid after ∧ Poised after ∧
        (after.buffer = before.buffer ∧ (before.zbd.zone number).capacity ≠ 0 ∨
          after.buffer = (moveRest 0 wrSize left before).buffer) ∧
        (Writable before.zbd → Supplied after) := by
  by_cases full : (before.zbd.zone number).capacity = 0
  · have shifted : Keeps (released number before) (moveRest 0 wrSize left (released number before)) :=
      ⟨Std.Refl.refl _, rfl, rfl, rfl, rfl⟩
    have moved := trans_of Keeps (released_keeps number before) shifted
    have ended := leaveFullZone_full plain.isWal held full 0 wrSize left
    rcases run : leaveFullZone 0 wrSize left before with ⟨failure | _, after⟩
    all_goals rw [run] at ended
    · rcases ended with never | allocated
      · exact .inl (Except.error.inj never)
      · have keeps := trans_of Keeps moved allocated.keeps
        refine .inr ⟨keeps, keeps.laid laid fun other active => ?_, allocated.buffer⟩
        have member := (allocated.zone other active).1
        rw [moved.device.fixed.ioZones] at member
        exact member
    · rcases ended with never | allocated
      · cases never
      · have keeps := trans_of Keeps moved allocated.keeps
        have placed : Laid after := keeps.laid laid fun other active => by
          have member := (allocated.zone other active).1
          rw [moved.device.fixed.ioZones] at member
          exact member
        refine ⟨keeps, placed, ⟨allocated.returned rfl, fun zone found => ?_,
          keeps.device.blocked laid.spaced blocked⟩, .inr allocated.buffer, fun writable =>
          ⟨keeps.device.writable laid.spaced writable, fun zone found => ?_⟩⟩
        · exact (allocated.zone zone found).2.1
        · exact (allocated.zone zone found).2.2.2 (moved.device.spaced laid.spaced)
            (moved.device.writable laid.spaced writable)
  · rw [leaveFullZone_open held full]
    refine ⟨Std.Refl.refl _, laid, ⟨Option.isSome_of_eq_some held, started, blocked⟩,
      .inl ⟨rfl, full⟩, fun writable => ⟨writable, fun zone found => ?_⟩⟩
    have here : zone = number := Option.some_inj.mp (found.symm.trans held)
    rw [here]
    exact Nat.pos_of_ne_zero full

theorem Fits.take_moveRest (fits : Fits state left) (part : wrSize ≤ left) :
    (moveRest 0 wrSize (left - wrSize) state).buffer.take (left - wrSize) =
        (state.buffer.take left).drop wrSize ∧
      (moveRest 0 wrSize (left - wrSize) state).buffer.length = state.buffer.length := by
  have bound := fits.left
  have width : ((state.buffer.drop wrSize).take (left - wrSize)).length = left - wrSize := by
    rw [List.length_take, List.length_drop, fits.memory]
    omega
  have here := @Bytes.take_overwrite_end state.buffer ((state.buffer.drop wrSize).take (left - wrSize))
    0 (Nat.zero_le _)
  rw [width, Nat.zero_add, List.take_zero, List.nil_append] at here
  refine ⟨?_, ?_⟩
  · rw [moveRest, here, List.drop_take]
  · apply Bytes.length_overwrite
    rw [width, fits.memory]
    omega

theorem bufferedAppendPass_ends (config : BuildConfig) {number : Nat} (plain : Plain state.file)
    (laid : Laid state) (held : state.file.activeZone = some number) (started : Started state)
    (blocked : Blocked state.zbd) (fits : Fits state left) :
    PassEnds state left (bufferedAppendPass config left state) := by
  have sizes := plainSize_cases held laid blocked left
  generalize chosen : plainSize left state = wrSize at sizes
  have part : wrSize ≤ left := by
    rw [← chosen]
    exact Nat.min_le_left _ _
  have aligned := dvd_add_padSize_of_pos fits.positive wrSize
  have whole := fits.padded part
  have memory : (withPadding wrSize state).buffer.length = 2 ^ 20 := fits.memory_padBuffer part
  have front := fits.take_padded part
  have placed := laid.withPadding wrSize
  have kept : Plain (withPadding wrSize state).file := plain
  have fitting : Fits (withPadding wrSize state) left := ⟨fits.blocks, memory, fits.left⟩
  have uncut : (wrSize + padSize state.zbd.blockSize wrSize) % 2 ^ 32 =
      wrSize + padSize state.zbd.blockSize wrSize := Nat.mod_eq_of_lt (by omega)
  rw [bufferedAppendPass_plain config plain.isWal, chosen, uncut]
  generalize length : wrSize + padSize state.zbd.blockSize wrSize = size at whole aligned
  have inside : wrSize ≤ size := by omega
  have width : ((withPadding wrSize state).buffer.take size).length = size := by
    rw [List.length_take, memory]
    exact Nat.min_eq_left whole
  -- The bytes that are pending are still there after the padding.
  have intact : (withPadding wrSize state).buffer.take left = state.buffer.take left := by
    rcases sizes with ⟨all, _⟩ | ⟨_, _, aligned⟩
    · rw [← all]
      exact front
    · rw [withPadding_of_dvd aligned]
  rw [plainPass, bind_read,
    show (withPadding wrSize state).activeNumber = number from (active_of_held held).1]
  rcases appendZone_wrote number ((withPadding wrSize state).buffer.take size)
    (withPadding wrSize state) with ⟨chunks, replies, room, ⟨failure, ends, run⟩ | ⟨data, run⟩⟩
  · rw [bind_of_error run]
    have fixed : Fixed state.zbd (wrote number chunks replies (withPadding wrSize state)).zbd :=
      (advanceAll_fixed number chunks state.zbd).trans
        (wrote_rests number chunks replies (withPadding wrSize state)).fixed
    refine .inr ⟨0, Nat.zero_le _, ⟨placed.wrote room, plain, fixed, fun old => ?_, rfl, ?_, ?_⟩,
      fun _ => intact⟩
    · rw [placed.content_wrote (placed.held number held) room, List.take_zero, List.append_nil]
      rfl
    · intro aligned
      rw [Aligned, fixed.blockSize]
      exact aligned
    · exact memory.trans fits.memory.symm
  · rw [bind_of_ok run, bind_update]
    have extended := @addExtent_extended (withPadding wrSize state) number chunks replies placed kept
      held started wrSize room (by rw [data, width]; exact inside)
    rw [data] at extended room
    generalize addExtent 0 wrSize (wrote number chunks replies (withPadding wrSize state)) = next
      at extended
    have ready := extended.blocked blocked (by rw [width]; exact aligned)
    have taken : ((withPadding wrSize state).buffer.take size).take wrSize =
        (state.buffer.take left).take wrSize := by
      rw [List.take_take, Nat.min_eq_left inside, front, List.take_take, Nat.min_eq_left part]
    have shifted : (moveRest 0 wrSize (left - wrSize) next).buffer =
        (moveRest 0 wrSize (left - wrSize) (withPadding wrSize state)).buffer := by
      rw [moveRest, extended.buffer]
      rfl
    have moved := fitting.take_moveRest part
    rw [intact, ← shifted, memory, ← fits.memory] at moved
    have flushed {after : FileState} (keeps : Keeps next after) (laid : Laid after)
        (length : after.buffer.length = state.buffer.length) :
        Landed state (state.buffer.take left) wrSize after := by
      refine ⟨laid, keeps.plain extended.plain, extended.fixed.trans keeps.device.fixed,
        fun old => ?_, ?_, fun aligned => keeps.aligned (extended.aligned blocked aligned), length⟩
      · rw [keeps.content, extended.content, taken]
        rfl
      · rw [keeps.fileSize, extended.fileSize]
        rfl
    have ended := leaveFullZone_ends extended.plain extended.laid extended.held extended.started
      ready wrSize (left - wrSize)
    rcases leave : leaveFullZone 0 wrSize (left - wrSize) next with ⟨failure | _, after⟩
    all_goals rw [leave] at ended
    · rw [bind_of_error leave]
      rcases ended with never | ⟨keeps, laid, buffer⟩
      · exact .inl never
      · refine .inr ⟨wrSize, part, flushed keeps laid (by rw [buffer]; exact moved.2), fun none => ?_⟩
        rw [buffer]
        subst none
        exact moved.1
    · rw [bind_of_ok leave]
      rcases ended with ⟨keeps, laid, ready, buffer, room⟩
      have rest : after.buffer.take (left - wrSize) = (state.buffer.take left).drop wrSize ∧
          after.buffer.length = state.buffer.length := by
        rcases buffer with ⟨same, free⟩ | same
        · rw [extended.capacity, width] at free
          rcases sizes with ⟨all, _⟩ | ⟨all, _⟩
          · rw [same, extended.buffer, memory, fits.memory, all, Nat.sub_self, List.take_zero]
            refine ⟨(List.drop_eq_nil_of_le ?_).symm, rfl⟩
            rw [List.length_take]
            exact Nat.min_le_left _ _
          · exact absurd (Nat.sub_eq_zero_of_le (all ▸ inside)) free
        · rw [same]
          exact moved
      refine ⟨wrSize, part, rfl, flushed keeps laid rest.2, ready, rest.1, fun some positive => ?_,
        room ∘ extended.writable⟩
      rw [(active_of_held held).2] at some
      omega

end Pass

/-! ## The whole flush -/

def FlushEnds (before : FileState) (left : Nat) : Except IOStatus Unit × FileState → Prop
  | (.ok (), after) => Landed before (before.buffer.take left) left after ∧ Poised after ∧
      (Supplied before → Supplied after)
  | (.error failure, after) => failure = .never ∨ ∃ taken, Stopped before left taken after

theorem Landed.refl {state : FileState} (laid : Laid state) (plain : Plain state.file)
    (pending : Bytes) : Landed state pending 0 state :=
  ⟨laid, plain, .refl _, fun memory => by rw [List.take_zero, List.append_nil], rfl, id, rfl⟩

theorem Landed.trans {first second third : FileState} {pending : Bytes} {taken more : Nat}
    (one : Landed first pending taken second) (two : Landed second (pending.drop taken) more third) :
    Landed first pending (taken + more) third := by
  refine ⟨two.laid, two.plain, one.fixed.trans two.fixed, fun memory => ?_, ?_,
    two.aligned ∘ one.aligned, two.memory.trans one.memory⟩
  · rw [two.content, one.content, List.append_assoc, ← List.take_add]
  · rw [two.fileSize, one.fileSize, Nat.add_assoc]

theorem Stopped.after {first second third : FileState} {left taken more : Nat}
    (one : Landed first (first.buffer.take left) taken second) (part : taken ≤ left)
    (rest : second.buffer.take (left - taken) = (first.buffer.take left).drop taken)
    (two : Stopped second (left - taken) more third) :
    Stopped first left (taken + more) third := by
  have bound := two.part
  have flushed := two.flushed
  rw [rest] at flushed
  refine ⟨by omega, one.trans flushed, fun none => ?_⟩
  have early : taken = 0 := by omega
  have late : more = 0 := by omega
  have intact := two.intact late
  rw [rest, early] at intact
  exact intact

theorem bufferedAppendLoop_ends (config : BuildConfig) (fuel : Nat) {left : Nat} {state : FileState}
    (plain : Plain state.file) (laid : Laid state) (held : state.file.activeZone.isSome)
    (started : Started state) (blocked : Blocked state.zbd) (fits : Fits state left) :
    FlushEnds state left (bufferedAppendLoop config fuel left state) := by
  induction fuel generalizing left state with
  | zero =>
      cases left with
      | zero => exact ⟨.refl laid plain _, ⟨held, started, blocked⟩, id⟩
      | succ left => exact .inl rfl
  | succ fuel induction =>
      cases left with
      | zero => exact ⟨.refl laid plain _, ⟨held, started, blocked⟩, id⟩
      | succ left =>
          rcases Option.isSome_iff_exists.mp held with ⟨number, active⟩
          have pass := bufferedAppendPass_ends config plain laid active started blocked fits
          rw [bufferedAppendLoop]
          rcases run : bufferedAppendPass config (left + 1) state with ⟨failure | rest, next⟩
          all_goals rw [run] at pass
          · rw [bind_of_error run]
            exact pass
          · rw [bind_of_ok run]
            rcases pass with ⟨taken, part, less, flushed, ready, remaining, _, supply⟩
            have fitting : Fits next rest := by
              refine ⟨?_, flushed.memory.trans fits.memory, ?_⟩
              · rw [flushed.fixed.blockSize]
                exact fits.blocks
              · have bound := fits.left
                omega
            have ended := induction flushed.plain flushed.laid ready.held ready.started
              ready.blocked fitting
            subst less
            rcases loop : bufferedAppendLoop config fuel (left + 1 - taken) next with
              ⟨failure | _, after⟩
            all_goals rw [loop] at ended
            · rcases ended with never | ⟨more, stopped⟩
              · exact .inl never
              · exact .inr ⟨taken + more, stopped.after flushed part remaining⟩
            · rcases ended with ⟨onward, later, supplies⟩
              rw [remaining] at onward
              have whole := flushed.trans onward
              rw [Nat.add_sub_cancel' part] at whole
              exact ⟨whole, later, fun supplied => supplies (supply supplied.writable)⟩

theorem bufferedAppend_ends (config : BuildConfig) (fuel : Nat) {left : Nat} {state : FileState}
    (plain : Plain state.file) (laid : Laid state) (started : Started state)
    (blocked : Blocked state.zbd) (fits : Fits state left) :
    FlushEnds state left (bufferedAppend config fuel left state) := by
  rw [bufferedAppend]
  rcases ensureActiveZone_cases state with ⟨held, run⟩ | ⟨idle, run⟩
  · rw [bind_of_ok run]
    exact bufferedAppendLoop_ends config fuel plain laid held started blocked fits
  · have ended := allocateNewZone_allocated plain.isWal idle
    rw [← run] at ended
    rcases allocated : ensureActiveZone state with ⟨outcome, next⟩
    rw [allocated] at ended
    rcases ended with never | ended
    · rw [bind_of_error (allocated.trans (by rw [show outcome = .error .never from never]))]
      exact .inl rfl
    · have placed : Laid next := ended.keeps.laid laid fun other active => (ended.zone other active).1
      have kept := ended.keeps.plain plain
      have none : Landed state (state.buffer.take left) 0 next := by
        refine ⟨placed, kept, ended.keeps.device.fixed, fun memory => ?_, ended.keeps.fileSize,
          ended.keeps.aligned, congrArg List.length ended.buffer⟩
        rw [ended.keeps.content, List.take_zero, List.append_nil]
      cases outcome with
      | error failure =>
          rw [bind_of_error allocated]
          exact .inr ⟨0, Nat.zero_le _, none, fun _ => congrArg (List.take left) ended.buffer⟩
      | ok =>
          rw [bind_of_ok allocated]
          have fitting : Fits next left := by
            refine ⟨?_, (congrArg List.length ended.buffer).trans fits.memory, fits.left⟩
            rw [ended.keeps.device.fixed.blockSize]
            exact fits.blocks
          have later := bufferedAppendLoop_ends config fuel kept placed (ended.returned rfl)
            (fun number active => (ended.zone number active).2.1)
            (ended.keeps.device.blocked laid.spaced blocked) fitting
          rcases loop : bufferedAppendLoop config fuel left next with ⟨failure | _, after⟩
          all_goals rw [loop] at later
          · refine later.imp_right fun stops => ?_
            rcases stops with ⟨taken, stopped⟩
            have whole := stopped.after none (Nat.zero_le left) (congrArg (List.take left) ended.buffer)
            exact ⟨0 + taken, whole⟩
          · rcases later with ⟨flushed, ready, supplies⟩
            rw [ended.buffer] at flushed
            have whole := none.trans flushed
            rw [Nat.zero_add] at whole
            refine ⟨whole, ready, fun supplied => supplies ⟨?_, fun number active => ?_⟩⟩
            · exact ended.keeps.device.writable laid.spaced supplied.writable
            · exact (ended.zone number active).2.2.2 laid.spaced supplied.writable

/-! ## The loop ends

Every pass takes at least one byte while there is space, so that the number of bytes is
fuel enough: more of it makes no difference. -/

theorem bufferedAppendLoop_zero (config : BuildConfig) (fuel : Nat) (state : FileState) :
    bufferedAppendLoop config fuel 0 state = (.ok (), state) := by
  cases fuel with
  | zero | succ => rfl

theorem bufferedAppendLoop_fuel (config : BuildConfig) {fuel more left : Nat} {state : FileState}
    (plain : Plain state.file) (laid : Laid state) (held : state.file.activeZone.isSome)
    (started : Started state) (blocked : Blocked state.zbd) (fits : Fits state left)
    (supplied : Supplied state) (enough : left ≤ fuel) (also : left ≤ more) :
    bufferedAppendLoop config fuel left state = bufferedAppendLoop config more left state := by
  induction fuel generalizing left more state with
  | zero =>
      rw [Nat.le_zero.mp enough, bufferedAppendLoop_zero, bufferedAppendLoop_zero]
  | succ fuel induction =>
      cases left with
      | zero => rw [bufferedAppendLoop_zero, bufferedAppendLoop_zero]
      | succ left =>
          obtain ⟨more, rfl⟩ : ∃ count, more = count + 1 := ⟨more - 1, by omega⟩
          rcases Option.isSome_iff_exists.mp held with ⟨number, active⟩
          have pass := bufferedAppendPass_ends config plain laid active started blocked fits
          rw [bufferedAppendLoop, bufferedAppendLoop]
          rcases run : bufferedAppendPass config (left + 1) state with ⟨failure | rest, next⟩
          all_goals rw [run] at pass
          · rw [bind_of_error run, bind_of_error run]
          · rw [bind_of_ok run, bind_of_ok run]
            rcases pass with ⟨taken, part, less, flushed, ready, _, progress, supply⟩
            have room : 0 < state.active.capacity := by
              rw [(active_of_held active).2]
              exact supplied.room number active
            have some := progress room (Nat.succ_pos left)
            have fitting : Fits next rest := by
              refine ⟨?_, flushed.memory.trans fits.memory, ?_⟩
              · rw [flushed.fixed.blockSize]
                exact fits.blocks
              · have bound := fits.left
                omega
            exact induction flushed.plain flushed.laid ready.held ready.started ready.blocked fitting
              (supply supplied.writable) (by omega) (by omega)

theorem bufferedAppend_fuel (config : BuildConfig) {fuel more left : Nat} {state : FileState}
    (plain : Plain state.file) (laid : Laid state) (started : Started state)
    (blocked : Blocked state.zbd) (fits : Fits state left) (supplied : Supplied state)
    (enough : left ≤ fuel) (also : left ≤ more) :
    bufferedAppend config fuel left state = bufferedAppend config more left state := by
  rw [bufferedAppend, bufferedAppend]
  rcases ensureActiveZone_cases state with ⟨held, run⟩ | ⟨idle, run⟩
  · rw [bind_of_ok run, bind_of_ok run]
    exact bufferedAppendLoop_fuel config plain laid held started blocked fits supplied enough also
  · have ended := allocateNewZone_allocated plain.isWal idle
    rw [← run] at ended
    rcases allocated : ensureActiveZone state with ⟨failure | _, next⟩
    all_goals rw [allocated] at ended
    · rw [bind_of_error allocated, bind_of_error allocated]
    · rw [bind_of_ok allocated, bind_of_ok allocated]
      rcases ended with never | ended
      · cases never
      · have placed : Laid next :=
          ended.keeps.laid laid fun other active => (ended.zone other active).1
        have fitting : Fits next left := by
          refine ⟨?_, (congrArg List.length ended.buffer).trans fits.memory, fits.left⟩
          rw [ended.keeps.device.fixed.blockSize]
          exact fits.blocks
        refine bufferedAppendLoop_fuel config (ended.keeps.plain plain) placed (ended.returned rfl)
          (fun number active => (ended.zone number active).2.1)
          (ended.keeps.device.blocked laid.spaced blocked) fitting ⟨?_, fun number active => ?_⟩
          enough also
        · exact ended.keeps.device.writable laid.spaced supplied.writable
        · exact (ended.zone number active).2.2.2 laid.spaced supplied.writable

end Zwal.FileState
