import Zwal.Contracts.FileCache

/-! # Write pointers on a zonefs backend

`Zone::Append` advances `wp_` by what `ZoneFsBackend::Write` returns. The loop of `Write`
replaces its count by the error of a later `pwrite`, so bytes the zone file has received are
forgotten; and a `pwrite` that takes nothing sends `Append` around once more. -/

namespace Zwal.ZoneFsAppend

open ZoneFsBackend ZoneFsZone FileCache

/-! ## Answers of the kernel -/

inductive Ending
  | done
  /-- A `pwrite` took nothing. -/
  | stopped
  | failed
  deriving DecidableEq, Repr

/-- How a transfer ends: the bytes taken and the answers left. -/
structure Transfer where
  count : Nat
  ending : Ending
  later : Nat → Int

/-- The answers to the `pwrite` calls of one `Write` of `n` bytes. -/
def transfer : (fuel : Nat) → (answers : Nat → Int) → (n : Nat) → Transfer
  | 0, answers, _ => ⟨0, .done, answers⟩
  | fuel + 1, answers, n =>
      if n = 0 then ⟨0, .done, answers⟩
      else if answers 0 < 0 then ⟨0, .failed, rest answers⟩
      else if answers 0 = 0 then ⟨0, .stopped, rest answers⟩
      else
        let count := min (answers 0).toNat n
        let more := transfer fuel (rest answers) (n - count)
        { more with count := count + more.count }

theorem transfer_count {fuel n : Nat} (enough : n ≤ fuel) (answers : Nat → Int) :
    ((transfer fuel answers n).ending = .done ∧ (transfer fuel answers n).count = n) ∨
      ((transfer fuel answers n).ending ≠ .done ∧ (transfer fuel answers n).count < n) := by
  induction fuel generalizing answers n with
  | zero =>
      left
      exact ⟨rfl, (Nat.le_zero.mp enough).symm⟩
  | succ fuel induction =>
      rw [transfer]
      split
      · rename_i nothing
        exact .inl ⟨rfl, nothing.symm⟩
      · split
        · exact .inr ⟨by simp, by simp only; omega⟩
        · split
          · exact .inr ⟨by simp, by simp only; omega⟩
          · have fits := @induction (n - min (answers 0).toNat n) (by omega) (rest answers)
            rcases fits with ⟨whole, all⟩ | ⟨stopped, less⟩
            · exact .inl ⟨whole, by simp only; omega⟩
            · exact .inr ⟨stopped, by simp only; omega⟩

theorem transfer_zero (fuel : Nat) (answers : Nat → Int) :
    transfer fuel answers 0 = ⟨0, .done, answers⟩ := by
  cases fuel with
  | zero => rfl
  | succ fuel => rw [transfer, if_pos rfl]

/-- The kernel serves an `Append` of `n` bytes: every `Write` takes everything, stops at a
`pwrite` that takes nothing, or is refused before anything was taken. -/
inductive Served : (answers : Nat → Int) → (n : Nat) → Prop
  | done {answers n} : (transfer n answers n).ending = .done → Served answers n
  | refused {answers n} : (transfer n answers n).ending = .failed → (transfer n answers n).count = 0 →
      Served answers n
  | again {answers n} : (transfer n answers n).ending = .stopped →
      Served (transfer n answers n).later (n - (transfer n answers n).count) → Served answers n

theorem served_iff_of_failed {answers : Nat → Int} {n : Nat}
    (failed : (transfer n answers n).ending = .failed) :
    Served answers n ↔ (transfer n answers n).count = 0 := by
  constructor
  · intro served
    cases served with
    | done done => simp [failed] at done
    | refused _ nothing => exact nothing
    | again stopped _ => simp [failed] at stopped
  · exact .refused failed

theorem served_iff_of_not_failed {answers : Nat → Int} {n : Nat}
    (going : (transfer n answers n).ending ≠ .failed) :
    Served answers n ↔ Served (transfer n answers n).later (n - (transfer n answers n).count) := by
  constructor
  · intro served
    cases served with
    | done done =>
        have counts := transfer_count (Nat.le_refl n) answers
        have left : n - (transfer n answers n).count = 0 := by
          rcases counts with ⟨-, all⟩ | ⟨less, -⟩
          · omega
          · exact absurd done less
        rw [left]
        exact .done (by rw [transfer_zero])
    | refused failed _ => exact absurd failed going
    | again _ later => exact later
  · intro later
    cases ending : (transfer n answers n).ending with
    | done => exact .done ending
    | stopped => exact .again ending later
    | failed => exact absurd ending going

/-! ## One write -/

theorem put_linked {cache : ZoneFsFileCache} (linked : Linked cache) (zone : Nat) :
    ∃ after, cache.put zone = some after ∧ Linked after := by
  rcases put_eq linked zone with same | same
  · exact ⟨cache, same, linked⟩
  · exact ⟨_, same, linked.erase zone⟩

def took (zone : Nat) (bytes : Bytes) (later : Nat → Int) (cache : ZoneFsFileCache)
    (backend : ZoneFsBackend) : ZoneFsBackend :=
  { backend with
    wrFds := cache, writes := later
    received := Function.update backend.received zone (backend.received zone ++ bytes) }

@[simp]
theorem took_writes (zone : Nat) (bytes : Bytes) (later : Nat → Int) (cache : ZoneFsFileCache)
    (backend : ZoneFsBackend) : (took zone bytes later cache backend).writes = later := rfl

@[simp]
theorem took_wrFds (zone : Nat) (bytes : Bytes) (later : Nat → Int) (cache : ZoneFsFileCache)
    (backend : ZoneFsBackend) : (took zone bytes later cache backend).wrFds = cache := rfl

theorem took_nil (zone : Nat) (later : Nat → Int) (backend : ZoneFsBackend) :
    took zone [] later backend.wrFds backend = { backend with writes := later } := by
  simp [took]

theorem took_took (zone : Nat) (first second : Bytes) (middle last : Nat → Int)
    (early late : ZoneFsFileCache) (backend : ZoneFsBackend) :
    took zone second last late (took zone first middle early backend) =
      took zone (first ++ second) last late backend := by
  simp [took]

theorem putZoneFile_took {backend : ZoneFsBackend} (linked : Linked backend.wrFds) (pos zone offset : Nat)
    (bytes : Bytes) (later : Nat → Int) (next : Unit → BackendProgram Int) :
    ∃ cache, (if offset = backend.zoneSz then putZoneFile pos >>= fun value => next value else next ())
        (took zone bytes later backend.wrFds backend) = next () (took zone bytes later cache backend) ∧
      Linked cache ∧ (offset ≠ backend.zoneSz → cache = backend.wrFds) := by
  by_cases full : offset = backend.zoneSz
  · rcases put_linked linked (pos / backend.zoneSz) with ⟨after, put, kept⟩
    have done : putZoneFile pos (took zone bytes later backend.wrFds backend) =
        (.ok (), took zone bytes later after backend) := by
      rw [putZoneFile]
      simp only [took, put]
    exact ⟨after, by rw [if_pos full, bind_of_ok done], kept, fun room => absurd full room⟩
  · rw [if_neg full]
    exact ⟨backend.wrFds, rfl, linked, fun _ => rfl⟩

theorem writeLoop_transfer (pos : Nat) (file : ZoneFsFile) {fuel : Nat} {data : Bytes} {offset : Nat}
    {written : Int} {backend : ZoneFsBackend} (linked : Linked backend.wrFds)
    (enough : data.length ≤ fuel) (fits : offset + data.length ≤ backend.zoneSz) :
    ∃ ret cache, writeLoop pos file fuel data offset written backend =
        (.ok ret, took file.zone (data.take (transfer fuel backend.writes data.length).count)
          (transfer fuel backend.writes data.length).later cache backend) ∧
      Linked cache ∧
      ((transfer fuel backend.writes data.length).ending = .failed → ret < 0) ∧
      ((transfer fuel backend.writes data.length).ending ≠ .failed →
        ret = written + (transfer fuel backend.writes data.length).count) ∧
      ((transfer fuel backend.writes data.length).ending ≠ .done → cache = backend.wrFds) := by
  induction fuel generalizing data offset written backend with
  | zero =>
      refine ⟨written, backend.wrFds, ?_, linked, by simp [transfer], by simp [transfer], fun _ => rfl⟩
      rw [transfer, List.take_zero, took_nil]
      rfl
  | succ fuel induction =>
      rw [writeLoop, transfer]
      by_cases nothing : data.length = 0
      · rw [if_pos nothing, if_pos nothing]
        refine ⟨written, backend.wrFds, ?_, linked, by simp, by simp, fun _ => rfl⟩
        rw [List.take_zero, took_nil]
        rfl
      · rw [if_neg nothing, if_neg nothing]
        by_cases failing : backend.writes 0 < 0
        · have asked : pwrite file.zone data backend =
              (.ok (backend.writes 0), { backend with writes := rest backend.writes }) := by
            rw [pwrite]
            exact if_pos failing
          rw [if_pos failing, bind_of_ok asked, if_neg (by omega), if_pos failing]
          refine ⟨backend.writes 0, backend.wrFds, ?_, linked, fun _ => failing, by simp, fun _ => rfl⟩
          rw [List.take_zero, took_nil]
          rfl
        · have asked : pwrite file.zone data backend =
              (.ok (min (backend.writes 0).toNat data.length : Nat),
                took file.zone (data.take (min (backend.writes 0).toNat data.length))
                  (rest backend.writes) backend.wrFds backend) := by
            rw [pwrite]
            exact if_neg failing
          rw [if_neg failing, bind_of_ok asked]
          by_cases stopped : backend.writes 0 = 0
          · have none : min (backend.writes 0).toNat data.length = 0 := by omega
            rw [if_pos stopped, none, if_neg (by omega), if_neg (by omega)]
            exact ⟨written, backend.wrFds, by rfl, linked, by simp, by simp, fun _ => rfl⟩
          · have some : 0 < min (backend.writes 0).toNat data.length := by omega
            have less : min (backend.writes 0).toNat data.length ≤ data.length := Nat.min_le_right _ _
            rw [if_neg stopped, if_pos (by omega)]
            generalize min (backend.writes 0).toNat data.length = count at some less ⊢
            rcases putZoneFile_took linked pos file.zone (offset + count) (data.take count)
              (rest backend.writes)
              (fun _ => writeLoop pos file fuel (data.drop count) (offset + count) (written + count)) with
              ⟨early, put, kept, stays⟩
            rcases @induction (data.drop count) (offset + count) (written + count)
              (took file.zone (data.take count) (rest backend.writes) early backend) kept
              (by rw [List.length_drop]; omega)
              (by rw [List.length_drop, Nat.add_assoc, Nat.add_sub_cancel' less]; exact fits) with
              ⟨ret, cache, loop, linked, failed, counted, kept⟩
            rw [List.length_drop, took_writes] at loop failed counted kept
            rw [bind_read, Int.toNat_natCast]
            refine ⟨ret, cache, ?_, linked, failed, fun served => ?_, fun less => ?_⟩
            · refine put.trans (loop.trans ?_)
              rw [took_took, List.take_add]
            · rw [counted served]
              simp only [Nat.cast_add, Int.add_assoc]
            · rw [kept less, took_wrFds]
              apply stays
              intro full
              have all : data.length - count = 0 := by omega
              apply less
              simp only [all, transfer_zero]

theorem getZoneFile_cases {backend : ZoneFsBackend} (linked : Linked backend.wrFds) (pos : Nat) :
    (backend.wrFds.map (pos / backend.zoneSz) = none ∧ backend.opens 0 = none ∧
        getZoneFile pos backend = (.ok none, { backend with opens := rest backend.opens })) ∨
      ∃ file cache, getZoneFile pos backend =
          (.ok (some file), { backend with wrFds := cache, opens := rest backend.opens }) ∧
        file.zone = pos / backend.zoneSz ∧ Linked cache ∧
        cache.map (pos / backend.zoneSz) ≠ none ∧
        (backend.wrFds.map (pos / backend.zoneSz) ≠ none ∨ backend.opens 0 ≠ none) := by
  rcases get_cases linked (pos / backend.zoneSz) (backend.opens 0) with
    ⟨missing, closed, got⟩ | ⟨fd, missing, opened, got⟩ | ⟨entry, member, here, found, got⟩
  · left
    refine ⟨missing, closed, ?_⟩
    rw [getZoneFile, got]
  · right
    refine ⟨_, _, by rw [getZoneFile, got], rfl, ?_, ?_, ?_⟩
    · exact (linked.cut _).insert (linked.unmapped_cut missing _) fd
    · rw [inserted]
      simp
    · simp [opened]
  · right
    refine ⟨_, _, by rw [getZoneFile, got], (linked.files entry member).trans here,
      linked.front member, ?_, ?_⟩
    · rw [fronted, found]
      simp
    · simp [found]

/-! ## A zone and its file -/

/-- The zone is the `number`th of the backend and has no more capacity than its file. -/
structure Placed (number : Nat) (state : ZoneFsZone) : Prop where
  start : state.zone.start = number * state.backend.zoneSz
  below : state.zone.start ≤ state.zone.wp
  room : state.zone.wp + state.zone.capacity ≤ state.zone.start + state.backend.zoneSz
  linked : Linked state.backend.wrFds

def Agrees (number : Nat) (state : ZoneFsZone) : Prop :=
  state.zone.wp = state.zone.start + (state.backend.received number).length

/-- The file can be written to: it is open or can be opened. -/
def Available (number : Nat) (backend : ZoneFsBackend) : Prop :=
  backend.readonly = false ∧ (backend.wrFds.map number ≠ none ∨ backend.opens 0 ≠ none)

section Position

variable {number : Nat} {state : ZoneFsZone} {data : Bytes}

theorem Placed.zone_eq (placed : Placed number state) (fits : data.length ≤ state.zone.capacity)
    (some : data ≠ []) : state.zone.wp / state.backend.zoneSz = number := by
  have length := List.length_pos_iff.mpr some
  have start := placed.start
  have below := placed.below
  have room := placed.room
  apply Nat.div_eq_of_lt_le
  · omega
  · rw [Nat.add_mul, Nat.one_mul]
    omega

theorem Placed.count_eq (placed : Placed number state) (fits : data.length ≤ state.zone.capacity)
    (some : data ≠ []) :
    min data.length (state.backend.zoneSz - state.backend.lbaToZoneOffset state.zone.wp) = data.length := by
  rw [lbaToZoneOffset, placed.zone_eq fits some, ← placed.start]
  have below := placed.below
  have room := placed.room
  omega

theorem Placed.write (placed : Placed number state) (fits : data.length ≤ state.zone.capacity)
    (small : data.length < 2 ^ 31) (some : data ≠ []) (available : Available number state.backend) :
    ∃ ret cache, write data state.zone.wp state.backend =
        (.ok ret, took number (data.take (transfer data.length state.backend.writes data.length).count)
          (transfer data.length state.backend.writes data.length).later cache
          { state.backend with opens := rest state.backend.opens }) ∧
      Linked cache ∧
      ((transfer data.length state.backend.writes data.length).ending = .failed → ret < 0) ∧
      ((transfer data.length state.backend.writes data.length).ending ≠ .failed →
        ret = (transfer data.length state.backend.writes data.length).count) ∧
      ((transfer data.length state.backend.writes data.length).ending ≠ .done → cache.map number ≠ none) := by
  have number_eq := placed.zone_eq fits some
  have count_eq := placed.count_eq fits some
  rw [ZoneFsBackend.write, bind_read]
  simp only [count_eq, toInt32_of_lt small, Int.toNat_natCast, List.take_length]
  rcases getZoneFile_cases placed.linked state.zone.wp with
    ⟨missing, closed, -⟩ | ⟨file, cache, got, here, linked, mapped, -⟩
  · rw [number_eq] at missing
    rcases available.2 with found | opened
    · exact absurd missing found
    · exact absurd closed opened
  · rw [number_eq] at here mapped
    have offset : state.backend.lbaToZoneOffset state.zone.wp + data.length ≤ state.backend.zoneSz := by
      have length := List.length_pos_iff.mpr some
      omega
    rcases @writeLoop_transfer state.zone.wp file data.length data _ 0
      { state.backend with wrFds := cache, opens := rest state.backend.opens }
      linked (Nat.le_refl data.length) offset with ⟨ret, last, loop, linked, failed, counted, kept⟩
    refine ⟨ret, last, ?_, linked, failed, fun served => ?_, fun less => ?_⟩
    · rw [if_neg (by simp [available.1]), bind_of_ok got]
      simp only
      rw [if_neg (by omega), loop, here]
      rfl
    · rw [counted served, Int.zero_add]
    · rw [kept less]
      exact mapped

/-- What one pass of `Append` leaves: `transfer` says how much of the data was taken. -/
structure Passed (number : Nat) (data : Bytes) (reply : Transfer) (state middle : ZoneFsZone) : Prop where
  placed : Placed number middle
  start : middle.zone.start = state.zone.start
  received : (middle.backend.received number).length =
    (state.backend.received number).length + reply.count
  writes : middle.backend.writes = reply.later
  available : reply.ending ≠ .done → Available number middle.backend
  /-- An error stops the loop where it was; otherwise it goes on behind what was taken. -/
  outcome :
    (reply.ending = .failed ∧ middle.zone.wp = state.zone.wp ∧
      ∀ fuel, appendLoop (fuel + 1) data state = (.error (.ioError "pwrite"), middle)) ∨
    (reply.ending ≠ .failed ∧ middle.zone.wp = state.zone.wp + reply.count ∧
      middle.zone.capacity = state.zone.capacity - reply.count ∧
      ∀ fuel, appendLoop (fuel + 1) data state = appendLoop fuel (data.drop reply.count) middle)

theorem Placed.pass (placed : Placed number state) (fits : data.length ≤ state.zone.capacity)
    (small : data.length < 2 ^ 31) (some : data ≠ []) (available : Available number state.backend) :
    ∃ middle, Passed number data (transfer data.length state.backend.writes data.length) state middle := by
  rcases placed.write fits small some available with ⟨ret, cache, run, linked, failed, counted, mapped⟩
  have bounded : (transfer data.length state.backend.writes data.length).count ≤ data.length := by
    have counts := transfer_count (Nat.le_refl data.length) state.backend.writes
    omega
  generalize transfer data.length state.backend.writes data.length = reply at *
  generalize backend_eq : took number (data.take reply.count) reply.later cache
    { state.backend with opens := rest state.backend.opens } = backend at run
  have received : (backend.received number).length =
      (state.backend.received number).length + reply.count := by
    rw [← backend_eq]
    simp [took, Nat.min_eq_left bounded]
  have written : onBackend (ZoneFsBackend.write data state.zone.wp) state =
      (.ok ret, { state with backend := backend }) := by
    rw [onBackend, Program.within, run]
  have stays : reply.ending ≠ .done → Available number backend := by
    intro less
    rw [← backend_eq]
    exact ⟨available.1, .inl (mapped less)⟩
  have writes : backend.writes = reply.later := by rw [← backend_eq, took_writes]
  have kept : Linked backend.wrFds := by rw [← backend_eq, took_wrFds]; exact linked
  have size : backend.zoneSz = state.backend.zoneSz := by rw [← backend_eq]; rfl
  have pass : ∀ fuel, appendLoop (fuel + 1) data state =
      (if ret < 0 then Program.fail (.ioError "pwrite")
      else
        Program.update (fun state => { state with zone := { state.zone with
          wp := state.zone.wp + ret.toNat, capacity := state.zone.capacity - ret.toNat } }) >>= fun _ =>
        appendLoop fuel (data.drop ret.toNat)) { state with backend := backend } := by
    intro fuel
    rw [appendLoop, bind_read, bind_of_ok written]
    exact some
  by_cases failing : reply.ending = .failed
  · refine ⟨{ state with backend := backend },
      ⟨size ▸ placed.start, placed.below, size ▸ placed.room, kept⟩, rfl, received, writes, stays, ?_⟩
    left
    refine ⟨failing, rfl, fun fuel => ?_⟩
    rw [pass, if_pos (failed failing)]
    rfl
  · have count : ret = reply.count := counted failing
    refine ⟨⟨{ state.zone with
        wp := state.zone.wp + reply.count, capacity := state.zone.capacity - reply.count }, backend⟩,
      ⟨size ▸ placed.start, ?_, ?_, kept⟩, rfl, received, writes, stays, ?_⟩
    · exact Nat.le_add_right_of_le placed.below
    · have room := placed.room
      rw [size]
      simp only
      omega
    · right
      refine ⟨failing, rfl, rfl, fun fuel => ?_⟩
      rw [pass, if_neg (by omega), count]
      rfl

end Position

/-! ## Appends -/

variable {number : Nat} {state after : ZoneFsZone} {data : Bytes} {fuel : Nat}
  {outcome : Except IOStatus Unit}

theorem Passed.agrees {reply : Transfer} {middle : ZoneFsZone}
    (passed : Passed number data reply state middle) (agrees : Agrees number state)
    (moved : middle.zone.wp = state.zone.wp + reply.count) : Agrees number middle := by
  rw [Agrees] at agrees ⊢
  rw [moved, passed.start, passed.received, agrees, Nat.add_assoc]

theorem Passed.left {reply : Transfer} {middle : ZoneFsZone}
    (passed : Passed number data reply state middle)
    (counts : reply.ending = .done ∧ reply.count = data.length ∨ reply.ending ≠ .done ∧ reply.count < data.length)
    (some : data.drop reply.count ≠ []) : Available number middle.backend := by
  apply passed.available
  intro done
  rcases counts with ⟨-, all⟩ | ⟨less, -⟩
  · exact some (List.drop_eq_nil_of_le (by omega))
  · exact less done

theorem appendLoop_nil (fuel : Nat) (state : ZoneFsZone) : appendLoop fuel [] state = (.ok (), state) := by
  rw [appendLoop]
  rfl

theorem Placed.appendLoop_agrees (placed : Placed number state) (agrees : Agrees number state)
    (fits : data.length ≤ state.zone.capacity) (small : data.length < 2 ^ 31)
    (available : data ≠ [] → Available number state.backend)
    (run : appendLoop fuel data state = (outcome, after)) (ends : outcome ≠ .error .never) :
    Placed number after ∧ (Agrees number after ↔ Served state.backend.writes data.length) := by
  induction fuel generalizing data state with
  | zero =>
      cases data with
      | nil =>
          rw [appendLoop_nil] at run
          cases run
          exact ⟨placed, fun _ => .done (by rw [List.length_nil, transfer_zero]), fun _ => agrees⟩
      | cons first others =>
          rw [appendLoop] at run
          · cases run
            exact absurd rfl ends
          · simp
  | succ fuel induction =>
      by_cases nothing : data = []
      · subst nothing
        rw [appendLoop_nil] at run
        cases run
        exact ⟨placed, fun _ => .done (by rw [List.length_nil, transfer_zero]), fun _ => agrees⟩
      · rcases placed.pass fits small nothing (available nothing) with ⟨middle, passed⟩
        have counts := transfer_count (Nat.le_refl data.length) state.backend.writes
        rcases passed.outcome with ⟨failed, stayed, loop⟩ | ⟨going, moved, shrunk, loop⟩
        · rw [loop] at run
          cases run
          rw [served_iff_of_failed failed]
          refine ⟨passed.placed, ?_⟩
          have received := passed.received
          have start := passed.start
          rw [Agrees] at agrees ⊢
          omega
        · rw [loop] at run
          rw [served_iff_of_not_failed going, ← passed.writes, ← List.length_drop]
          apply induction passed.placed (passed.agrees agrees moved) _ _ (passed.left counts) run
          · rw [List.length_drop, shrunk]
            omega
          · rw [List.length_drop]
            omega

theorem Placed.appendLoop_ends (placed : Placed number state)
    (fits : data.length ≤ state.zone.capacity) (small : data.length < 2 ^ 31) (some : data ≠ [])
    (available : Available number state.backend)
    (served : Served state.backend.writes data.length) :
    ∃ fuel, (appendLoop fuel data state).1 ≠ .error .never := by
  generalize answers_eq : state.backend.writes = answers at served
  generalize length_eq : data.length = n at served
  induction served generalizing data state with
  | done done =>
      subst answers_eq length_eq
      rcases placed.pass fits small some available with ⟨middle, passed⟩
      rcases passed.outcome with ⟨failed, -, -⟩ | ⟨-, -, -, loop⟩
      · simp [failed] at done
      · have all : data.drop (transfer data.length state.backend.writes data.length).count = [] := by
          apply List.drop_eq_nil_of_le
          rcases transfer_count (Nat.le_refl data.length) state.backend.writes with ⟨-, all⟩ | ⟨less, -⟩
          · omega
          · exact absurd done less
        exact ⟨1, by rw [loop, all, appendLoop_nil]; simp⟩
  | refused failed nothing =>
      subst answers_eq length_eq
      rcases placed.pass fits small some available with ⟨middle, passed⟩
      rcases passed.outcome with ⟨-, -, loop⟩ | ⟨going, -, -, -⟩
      · exact ⟨1, by rw [loop]; simp⟩
      · exact absurd failed going
  | again stopped later induction =>
      subst answers_eq length_eq
      rcases placed.pass fits small some available with ⟨middle, passed⟩
      rcases passed.outcome with ⟨failed, -, -⟩ | ⟨-, -, shrunk, loop⟩
      · simp [failed] at stopped
      · have counts := transfer_count (Nat.le_refl data.length) state.backend.writes
        have left : data.drop (transfer data.length state.backend.writes data.length).count ≠ [] := by
          intro all
          have short := List.drop_eq_nil_iff.mp all
          rcases counts with ⟨done, -⟩ | ⟨-, less⟩
          · simp [stopped] at done
          · omega
        rcases induction passed.placed (by rw [List.length_drop, shrunk]; omega)
          (by rw [List.length_drop]; omega) left (passed.left counts left) passed.writes
          List.length_drop with ⟨fuel, ends⟩
        exact ⟨fuel + 1, by rw [loop]; exact ends⟩

theorem Placed.appendLoop_refused (placed : Placed number state) (fits : data.length ≤ state.zone.capacity)
    (sized : data.length < 2 ^ 32) (some : data ≠ [])
    (refused : ¬ Available number state.backend ∨ 2 ^ 31 ≤ data.length) :
    ∃ backend, (∀ fuel, appendLoop (fuel + 1) data state =
        (.error (.ioError "pwrite"), { state with backend := backend })) ∧
      backend.received = state.backend.received ∧ backend.zoneSz = state.backend.zoneSz ∧
      Linked backend.wrFds := by
  have number_eq := placed.zone_eq fits some
  have count_eq := placed.count_eq fits some
  have answer : ∃ backend, ZoneFsBackend.write data state.zone.wp state.backend = (.ok (-1), backend) ∧
      backend.received = state.backend.received ∧ backend.zoneSz = state.backend.zoneSz ∧
      Linked backend.wrFds := by
    rw [ZoneFsBackend.write, bind_read]
    simp only [count_eq]
    by_cases readonly : state.backend.readonly = true
    · rw [if_pos readonly]
      exact ⟨state.backend, rfl, rfl, rfl, placed.linked⟩
    · rw [if_neg readonly]
      rcases getZoneFile_cases placed.linked state.zone.wp with
        ⟨-, -, got⟩ | ⟨file, cache, got, -, linked, -, openable⟩
      · rw [bind_of_ok got]
        exact ⟨_, rfl, rfl, rfl, placed.linked⟩
      · rw [number_eq] at openable
        have large : toInt32 data.length < 0 := by
          rcases refused with unavailable | large
          · exact absurd ⟨Bool.eq_false_iff.mpr readonly, openable⟩ unavailable
          · rw [toInt32]
            omega
        rw [bind_of_ok got]
        simp only
        rw [if_pos large]
        exact ⟨_, rfl, rfl, rfl, linked⟩
  rcases answer with ⟨backend, run, received, size, linked⟩
  refine ⟨backend, fun fuel => ?_, received, size, linked⟩
  have written : onBackend (ZoneFsBackend.write data state.zone.wp) state =
      (.ok (-1), { state with backend := backend }) := by
    rw [onBackend, Program.within, run]
  rw [appendLoop, bind_read, bind_of_ok written, if_pos (by decide)]
  · rfl
  · exact some

/-- What keeps the pointers together: the call does not reach the kernel, or the kernel
serves it. -/
def Serves (number : Nat) (data : Bytes) (state : ZoneFsZone) : Prop :=
  state.zone.capacity < data.length ∨ ¬ Available number state.backend ∨ 2 ^ 31 ≤ data.length ∨
    Served state.backend.writes data.length

theorem append_of_fits (fits : data.length ≤ state.zone.capacity) :
    append fuel data state = appendLoop fuel data state := by
  rw [append, bind_read, if_neg (by omega)]

theorem append_noSpace (full : state.zone.capacity < data.length) :
    append fuel data state = (.error (.noSpace "Not enough capacity for append"), state) := by
  rw [append, bind_read, if_pos full]
  rfl

theorem Placed.append_agrees (placed : Placed number state) (agrees : Agrees number state)
    (sized : data.length < 2 ^ 32) (run : append fuel data state = (outcome, after))
    (ends : outcome ≠ .error .never) :
    Placed number after ∧ (Agrees number after ↔ Serves number data state) := by
  by_cases full : state.zone.capacity < data.length
  · rw [append_noSpace full] at run
    cases run
    exact ⟨placed, fun _ => .inl full, fun _ => agrees⟩
  · have fits : data.length ≤ state.zone.capacity := by omega
    rw [append_of_fits fits] at run
    by_cases nothing : data = []
    · subst nothing
      rw [appendLoop_nil] at run
      cases run
      have served : Served state.backend.writes ([] : Bytes).length :=
        .done (by rw [List.length_nil, transfer_zero])
      exact ⟨placed, fun _ => .inr (.inr (.inr served)), fun _ => agrees⟩
    · by_cases refused : ¬ Available number state.backend ∨ 2 ^ 31 ≤ data.length
      · rcases placed.appendLoop_refused fits sized nothing refused with
          ⟨backend, loop, received, size, linked⟩
        cases fuel with
        | zero =>
            rw [appendLoop] at run
            · cases run
              exact absurd rfl ends
            · exact nothing
        | succ fuel =>
            rw [loop] at run
            cases run
            refine ⟨⟨size ▸ placed.start, placed.below, size ▸ placed.room, linked⟩, fun _ => ?_, fun _ => ?_⟩
            · rcases refused with unavailable | large
              · exact .inr (.inl unavailable)
              · exact .inr (.inr (.inl large))
            · rw [Agrees] at agrees ⊢
              rw [agrees, received]
      · rw [not_or, not_not] at refused
        have small : data.length < 2 ^ 31 := by omega
        rcases placed.appendLoop_agrees agrees fits small (fun _ => refused.1) run ends with ⟨kept, same⟩
        refine ⟨kept, same.trans ⟨fun served => .inr (.inr (.inr served)), fun serves => ?_⟩⟩
        rcases serves with full | unavailable | large | served
        · exact absurd fits (by omega)
        · exact absurd refused.1 unavailable
        · exact absurd large refused.2
        · exact served

theorem Placed.append_ends (placed : Placed number state) (sized : data.length < 2 ^ 32)
    (serves : Serves number data state) : ∃ fuel, (append fuel data state).1 ≠ .error .never := by
  by_cases full : state.zone.capacity < data.length
  · exact ⟨0, by rw [append_noSpace full]; simp⟩
  · have fits : data.length ≤ state.zone.capacity := by omega
    simp only [append_of_fits fits]
    by_cases nothing : data = []
    · subst nothing
      exact ⟨0, by rw [appendLoop_nil]; simp⟩
    · by_cases refused : ¬ Available number state.backend ∨ 2 ^ 31 ≤ data.length
      · rcases placed.appendLoop_refused fits sized nothing refused with ⟨backend, loop, -⟩
        exact ⟨1, by rw [loop]; simp⟩
      · rw [not_or, not_not] at refused
        rcases serves with full | unavailable | large | served
        · exact absurd fits (by omega)
        · exact absurd refused.1 unavailable
        · exact absurd large refused.2
        · exact placed.appendLoop_ends fits (by omega) nothing refused.1 served

theorem Placed.append_stalls (placed : Placed number state) (fits : data.length ≤ state.zone.capacity)
    (small : data.length < 2 ^ 31) (some : data ≠ []) (available : Available number state.backend)
    (stalled : state.backend.writes = fun _ => 0) (fuel : Nat) :
    (append fuel data state).1 = .error .never := by
  rw [append_of_fits fits]
  have reply : transfer data.length (fun _ => 0) data.length = ⟨0, .stopped, fun _ => 0⟩ := by
    cases length_eq : data.length with
    | zero => exact absurd (List.length_eq_zero_iff.mp length_eq) some
    | succ n =>
        rw [transfer, if_neg (by omega), if_neg (by simp), if_pos rfl]
        rfl
  induction fuel generalizing state with
  | zero =>
      rw [appendLoop]
      · rfl
      · exact some
  | succ fuel induction =>
      rcases placed.pass fits small some available with ⟨middle, passed⟩
      rw [stalled, reply] at passed
      rcases passed.outcome with ⟨failed, -, -⟩ | ⟨-, -, shrunk, loop⟩
      · cases failed
      · rw [loop, List.drop_zero]
        exact induction passed.placed (by rw [shrunk]; exact fits) (passed.available (by simp)) passed.writes

/-! ## Runs -/

/-- A zone made from the report of the backend, and appends that were served. Between them
other zones are written to and the kernel may answer as it likes. -/
inductive Reached (number : Nat) : ZoneFsZone → Prop
  | mount {backend : ZoneFsBackend} {writable : Bool} : Linked backend.wrFds →
      (backend.received number).length ≤ backend.zoneSz →
      Reached number (ofReport backend number writable)
  | elsewhere {state after : ZoneFsZone} : Reached number state → after.zone = state.zone →
      after.backend.zoneSz = state.backend.zoneSz →
      after.backend.received number = state.backend.received number → Linked after.backend.wrFds →
      Reached number after
  | append {fuel : Nat} {data : Bytes} {state after : ZoneFsZone} {outcome : Except IOStatus Unit} :
      Reached number state → data.length < 2 ^ 32 → Serves number data state →
      append fuel data state = (outcome, after) → outcome ≠ .error .never → Reached number after

theorem Reached.placed_agrees (reached : Reached number state) : Placed number state ∧ Agrees number state := by
  induction reached with
  | @mount backend writable linked short =>
      refine ⟨⟨rfl, Nat.le_add_right _ _, ?_, linked⟩, rfl⟩
      simp only [ofReport]
      split
      · omega
      · omega
  | elsewhere _ zone size received linked induction =>
      rcases induction with ⟨placed, agrees⟩
      refine ⟨⟨?_, ?_, ?_, linked⟩, ?_⟩
      · rw [zone, size]
        exact placed.start
      · rw [zone]
        exact placed.below
      · rw [zone, size]
        exact placed.room
      · rw [Agrees, zone, received]
        exact agrees
  | append _ sized serves run ends induction =>
      rcases induction with ⟨placed, agrees⟩
      rcases placed.append_agrees agrees sized run ends with ⟨kept, same⟩
      exact ⟨kept, same.mpr serves⟩

theorem append_agrees_iff {number : Nat} {state : ZoneFsZone} (reached : Reached number state) :
    Agrees number state ∧ ∀ data : Bytes, data.length < 2 ^ 32 →
      ((∃ fuel outcome after, append fuel data state = (outcome, after) ∧
          outcome ≠ .error .never ∧ Agrees number after) ↔
        Serves number data state) := by
  rcases reached.placed_agrees with ⟨placed, agrees⟩
  refine ⟨agrees, fun data sized => ⟨?_, fun serves => ?_⟩⟩
  · rintro ⟨fuel, outcome, after, run, ends, together⟩
    exact (placed.append_agrees agrees sized run ends).2.mp together
  · rcases placed.append_ends sized serves with ⟨fuel, ends⟩
    exact ⟨fuel, _, _, rfl, ends, (placed.append_agrees agrees sized rfl ends).2.mpr serves⟩

def emptyBackend (answers : Nat → Int) : ZoneFsBackend where
  zoneSz := 16384
  readonly := false
  wrFds := ZoneFsFileCache.create 1
  received := fun _ => []
  opens := fun _ => some 3
  writes := answers

/-- An empty zone, of which the kernel writes as the answers say. -/
def emptyZone (answers : Nat → Int) : ZoneFsZone := ofReport (emptyBackend answers) 0 true

theorem emptyZone_reached (answers : Nat → Int) : Reached 0 (emptyZone answers) :=
  .mount (good_create 1).linked (Nat.zero_le _)

def twoBlocks : Bytes := List.replicate 8192 7

theorem length_twoBlocks : twoBlocks.length = 8192 := List.length_replicate

/-- A short write that is followed by one that completes it. -/
theorem append_agrees_short :
    Reached 0 (emptyZone fun _ => 4096) ∧
      (append 2 twoBlocks (emptyZone fun _ => 4096)).1 = .ok () ∧
      ∃ fuel outcome after, append fuel twoBlocks (emptyZone fun _ => 4096) = (outcome, after) ∧
        outcome ≠ .error .never ∧ Agrees 0 after := by
  refine ⟨emptyZone_reached _, by decide +kernel, ?_⟩
  apply ((append_agrees_iff (emptyZone_reached fun _ => 4096)).2 twoBlocks (by simp [length_twoBlocks])).mpr
  exact .inr (.inr (.inr (.done (by decide +kernel))))

def halfRefused : ZoneFsZone := emptyZone fun index => if index = 0 then 4096 else -1

/-- The first block is in the zone file when the second is refused, and the write pointer has
not moved; and with a kernel that takes nothing `Append` does not return. -/
theorem short_write_is_forgotten :
    Reached 0 halfRefused ∧
      (append 1 twoBlocks halfRefused).1 = .error (.ioError "pwrite") ∧
      (append 1 twoBlocks halfRefused).2.zone.wp = 0 ∧
      ((append 1 twoBlocks halfRefused).2.backend.received 0).length = 4096 ∧
      ∀ fuel, (append fuel twoBlocks (emptyZone fun _ => 0)).1 = .error .never := by
  have run : (append 1 twoBlocks halfRefused).1 = .error (.ioError "pwrite") ∧
      (append 1 twoBlocks halfRefused).2.zone.wp = 0 ∧
      ((append 1 twoBlocks halfRefused).2.backend.received 0).length = 4096 := by decide +kernel
  refine ⟨emptyZone_reached _, run.1, run.2.1, run.2.2, fun fuel => ?_⟩
  have placed := (emptyZone_reached fun _ => 0).placed_agrees.1
  have some : twoBlocks ≠ [] := List.ne_nil_of_length_pos (by simp [length_twoBlocks])
  exact placed.append_stalls (by simp [length_twoBlocks, emptyZone, ofReport, emptyBackend])
    (by simp [length_twoBlocks]) some ⟨rfl, .inr (by simp [emptyZone, ofReport, emptyBackend])⟩ rfl fuel

end Zwal.ZoneFsAppend
