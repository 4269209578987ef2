import Zwal.Contracts.ChunkedReader

/-! # Read handles on a write-ahead log

`ZonedSequentialFile` and `ZonedRandomAccessFile`. All handles on a file share the
cursor of the file: a read of a write-ahead log starts at the cursor, whatever offset
it was asked for. -/

namespace Zwal.ReadHandles

open FileState Pieces SequentialRead WalSources

/-- Any number of handles on one file. A sequential handle keeps a position. -/
structure Readers where
  state : FileState
  rp : Nat → Nat
  direct : Nat → Bool

abbrev ReaderProgram := Program Readers IOStatus

def Readers.start (state : FileState) (useDirectReads : Nat → Bool) : Readers where
  state := state
  rp _ := 0
  direct handle := useDirectReads handle && !state.file.isSparse

inductive ReaderCall
  | read (handle n : Nat)
  | skip (handle n : Nat)
  | positionedRead (handle offset n : Nat)
  deriving DecidableEq, Repr

def onFile (program : FileProgram Value) : ReaderProgram Value :=
  program.within Readers.state fun readers state => { readers with state := state }

def setPosition (handle position : Nat) (readers : Readers) : Readers :=
  { readers with rp := Function.update readers.rp handle position }

section Model

variable (build : ReaderBuild) (config : BuildConfig) (env : ReaderEnv)

/-- `Read`, `Skip` and `PositionedRead`; the last one is also the `Read` of a
`ZonedRandomAccessFile`. -/
def ReaderCall.run : ReaderCall → ReaderProgram Bytes
  | .read handle n => do
      let readers ← Program.read
      let bytes ← onFile (FileState.positionedRead build config env (readers.rp handle) n
        (readers.direct handle))
      Program.update (setPosition handle (readers.rp handle + bytes.length))
      pure bytes
  | .skip handle n => do
      let readers ← Program.read
      let position := (readers.rp handle + n) % 2 ^ 64
      if readers.state.file.fileSize ≤ position then
        Program.fail (.invalidArgument "Skip beyond end of file")
      else
        Program.update (setPosition handle position)
        pure []
  | .positionedRead handle offset n => do
      let readers ← Program.read
      onFile (FileState.positionedRead build config env offset n (readers.direct handle))

def runCalls : List ReaderCall → ReaderProgram (List (Except IOStatus Bytes))
  | [] => pure []
  | call :: calls => do
      let answer ← (call.run build config env).attempt
      let answers ← runCalls calls
      pure (answer :: answers)

end Model

/-! ## What the calls should return -/

namespace ReaderCall

variable (content : Bytes) (rp : Nat → Nat)

def answer : ReaderCall → Except IOStatus Bytes
  | .read handle n => .ok ((content.drop (rp handle)).take n)
  | .skip handle n =>
      if content.length ≤ (rp handle + n) % 2 ^ 64 then
        .error (.invalidArgument "Skip beyond end of file")
      else .ok []
  | .positionedRead _ offset n => .ok ((content.drop offset).take n)

def moved : ReaderCall → Nat → Nat
  | .read handle n =>
      Function.update rp handle (rp handle + ((content.drop (rp handle)).take n).length)
  | .skip handle n =>
      if content.length ≤ (rp handle + n) % 2 ^ 64 then rp
      else Function.update rp handle ((rp handle + n) % 2 ^ 64)
  | .positionedRead _ _ _ => rp

def range : ReaderCall → Option (Nat × Nat)
  | .read handle n => some (rp handle, n)
  | .skip _ _ => none
  | .positionedRead _ offset n => some (offset, n)

def cursor (last : Nat) (call : ReaderCall) : Nat :=
  match call.range rp with
  | none => last
  | some (offset, n) =>
      if content.length ≤ offset then last
      else offset + ((content.drop offset).take n).length

def Follows (last : Nat) (call : ReaderCall) : Prop :=
  ∀ offset n, call.range rp = some (offset, n) → content.length ≤ offset ∨ offset = last

end ReaderCall

def answers (content : Bytes) : (rp : Nat → Nat) → List ReaderCall → List (Except IOStatus Bytes)
  | _, [] => []
  | rp, call :: calls => call.answer content rp :: answers content (call.moved content rp) calls

def Consecutive (content : Bytes) : (last : Nat) → (rp : Nat → Nat) → List ReaderCall → Prop
  | _, _, [] => True
  | last, rp, call :: calls =>
      call.Follows content rp last ∧
        Consecutive content (call.cursor content rp last) (call.moved content rp) calls

/-! ## Histories of consecutive reads -/

section Histories

variable {build : ReaderBuild} {config : BuildConfig} {env : ReaderEnv} {pieces : List Bytes}
  {parked ready : Nat → FileState → Prop}

/-- Between two calls: the cursor of the file is where the last read inside of it ended. -/
structure Between (pieces : List Bytes) (parked : Nat → FileState → Prop) (last : Nat)
    (state : FileState) : Prop where
  fileSize : state.file.fileSize = pieces.flatten.length
  isLog : state.file.hasLogName = true
  standing : pieces.flatten ≠ [] → Standing pieces parked last state

theorem positionedRead_past {state : FileState} (isLog : state.file.hasLogName = true)
    {content : Bytes} (fileSize : state.file.fileSize = content.length) {offset : Nat}
    (past : content.length ≤ offset) (n : Nat) (direct : Bool) :
    FileState.positionedRead build config env offset n direct state =
      (.ok ((content.drop offset).take n), state) := by
  have empty : (content.drop offset).take n = [] := by simp [List.drop_eq_nil_of_le past]
  rw [FileState.positionedRead, bind_read,
    ZoneFile.named_of_hasLogName isLog, if_neg Bool.false_ne_true, if_pos (by omega), empty]
  rfl

theorem positionedRead_follows (source : Source build config env pieces parked ready) {last : Nat}
    {state : FileState} (between : Between pieces parked last state) {offset : Nat}
    (follows : pieces.flatten.length ≤ offset ∨ offset = last) (n : Nat) :
    ∃ next, FileState.positionedRead build config env offset n false state =
        (.ok ((pieces.flatten.drop offset).take n), next) ∧
      Between pieces parked (if pieces.flatten.length ≤ offset then last
        else offset + ((pieces.flatten.drop offset).take n).length) next := by
  by_cases past : pieces.flatten.length ≤ offset
  · rw [if_pos past]
    exact ⟨state, positionedRead_past between.isLog between.fileSize past n false, between⟩
  · rw [if_neg past]
    have same : offset = last := follows.resolve_left past
    have filled : pieces.flatten ≠ [] := by
      rintro empty
      simp [empty] at past
    rcases walRead_spec source (same ▸ between.standing filled) (Nat.lt_of_not_le past) n with
      ⟨next, run, links, standing⟩
    refine ⟨next, ?_, standing.sized.fileSize, ?_, fun _ => ?_⟩
    · rw [FileState.positionedRead, bind_read,
        ZoneFile.named_of_hasLogName between.isLog, if_neg Bool.false_ne_true,
        if_neg (by rw [between.fileSize]; exact past), if_pos between.isLog, run]
    · rw [ZoneFile.hasLogName, ZoneFile.getFilename, links]
      exact between.isLog
    · rw [List.length_take, List.length_drop]
      exact standing

theorem run_follows (source : Source build config env pieces parked ready) {last : Nat}
    {readers : Readers} (between : Between pieces parked last readers.state)
    (direct : ∀ handle, readers.direct handle = false) {call : ReaderCall}
    (follows : call.Follows pieces.flatten readers.rp last) :
    ∃ next, (call.run build config env).attempt readers =
        (.ok (call.answer pieces.flatten readers.rp), next) ∧
      next.rp = call.moved pieces.flatten readers.rp ∧ next.direct = readers.direct ∧
      Between pieces parked (call.cursor pieces.flatten readers.rp last) next.state := by
  cases call with
  | read handle n =>
      rcases positionedRead_follows source between (follows _ _ rfl) n with ⟨next, run, after⟩
      have read : onFile (FileState.positionedRead build config env (readers.rp handle) n
          (readers.direct handle)) readers =
            (.ok ((pieces.flatten.drop (readers.rp handle)).take n), { readers with state := next }) := by
        rw [direct handle, onFile, Program.within, run]
      refine ⟨setPosition handle (readers.rp handle +
        ((pieces.flatten.drop (readers.rp handle)).take n).length)
          { readers with state := next }, ?_, rfl, rfl, after⟩
      rw [Program.attempt, ReaderCall.run, bind_read, bind_of_ok read]
      rfl
  | skip handle n =>
      rw [Program.attempt, ReaderCall.run, bind_read,
        ReaderCall.answer, ReaderCall.moved, between.fileSize]
      by_cases beyond : pieces.flatten.length ≤ (readers.rp handle + n) % 2 ^ 64
      · simp only [if_pos beyond]
        exact ⟨readers, rfl, rfl, rfl, between⟩
      · simp only [if_neg beyond]
        exact ⟨_, rfl, rfl, rfl, between⟩
  | positionedRead handle offset n =>
      rcases positionedRead_follows source between (follows _ _ rfl) n with ⟨next, run, after⟩
      refine ⟨{ readers with state := next }, ?_, rfl, rfl, after⟩
      rw [Program.attempt, ReaderCall.run, bind_read, direct handle, onFile, Program.within, run]
      rfl

theorem runCalls_consecutive (source : Source build config env pieces parked ready)
    (calls : List ReaderCall) {last : Nat} {readers : Readers}
    (between : Between pieces parked last readers.state)
    (direct : ∀ handle, readers.direct handle = false)
    (consecutive : Consecutive pieces.flatten last readers.rp calls) :
    (runCalls build config env calls readers).1 =
      .ok (answers pieces.flatten readers.rp calls) := by
  induction calls generalizing last readers with
  | nil => rfl
  | cons call calls induction =>
      rcases consecutive with ⟨follows, rest⟩
      rcases run_follows source between direct follows with ⟨next, run, moved, same, after⟩
      have others := induction after (fun handle => by rw [same]; exact direct handle)
        (moved ▸ rest)
      rcases remaining : runCalls build config env calls next with ⟨outcome, final⟩
      rw [remaining, moved] at others
      rw [runCalls, bind_of_ok run]
      rw [show outcome = _ from others] at remaining
      rw [bind_of_ok remaining]
      rfl

/-- A closed write-ahead log before its first read whose windows can be told apart: the
entries of a window sort into the window's part, and the parts make up the file. -/
structure ReadableWal (build : ReaderBuild) (config : BuildConfig) (env : ReaderEnv)
    (windows : List (List StoredEntry)) (parts : List (List WalEntry)) (state : FileState) :
    Prop where
  isLog : state.file.hasLogName = true
  isSparse : state.file.isSparse = true
  layout : Layout config env state.zbd.blockSize windows parts
  bare : build = .wholeLog → ∀ entry ∈ windows.flatten, entry.pad = 0
  sized : Sized (payloads parts) state
  unread : state.file.Unread
  answers : Answers state.zbd
  opened : state.file.extents ≠ [] → ∃ opened, ensureLog state = (.ok (), opened)

theorem ReadableWal.extents {windows : List (List StoredEntry)} {parts : List (List WalEntry)}
    {state : FileState} (wal : ReadableWal build config env windows parts state)
    (filled : (payloads parts).flatten ≠ []) : state.file.extents ≠ [] := by
  intro empty
  have length := wal.sized.length
  rw [empty] at length
  rw [List.eq_nil_of_length_eq_zero length.symm] at filled
  exact filled rfl

/-- Every read of a history of consecutive reads, through whatever handles, returns the
bytes of the file at the offset it was asked for. -/
theorem reads_by_offset {windows : List (List StoredEntry)} {parts : List (List WalEntry)}
    {state : FileState} (wal : ReadableWal build config env windows parts state)
    (useDirectReads : Nat → Bool) (calls : List ReaderCall)
    (consecutive : Consecutive (payloads parts).flatten 0 (fun _ => 0) calls) :
    (runCalls build config env calls (.start state useDirectReads)).1 =
      .ok (answers (payloads parts).flatten (fun _ => 0) calls) := by
  have direct : ∀ handle, (Readers.start state useDirectReads).direct handle = false := by
    intro handle
    rw [Readers.start, wal.isSparse]
    simp
  cases build with
  | walBarriers =>
      refine runCalls_consecutive (chunkSource wal.layout) calls
        ⟨wal.sized.fileSize, wal.isLog, fun filled => ?_⟩ direct consecutive
      have extents := wal.extents filled
      rcases wal.opened extents with ⟨opened, run⟩
      exact standing_of_unread wal.unread wal.sized extents
        (.inr ⟨rfl, opened, Fresh.of_unread wal.unread extents wal.answers run parts⟩)
  | wholeLog =>
      refine runCalls_consecutive (wholeSource wal.layout (wal.bare rfl)) calls
        ⟨wal.sized.fileSize, wal.isLog, fun filled => ?_⟩ direct consecutive
      have extents := wal.extents filled
      rcases wal.opened extents with ⟨opened, run⟩
      exact standing_of_unread wal.unread wal.sized extents
        (.inr ⟨opened, Fresh.of_unread wal.unread extents wal.answers run parts⟩)

end Histories

def shortEntry : StoredEntry := ⟨⟨0, [97, 98, 99, 100, 101, 102]⟩, 4074⟩

def shortReader : ReaderEnv where
  view := ⟨0, shortEntry.bytes⟩
  sort := .mergeSort WalEntry.seq
  slack _ := 0
  device _ := 0

def shortFile : FileState :=
  ⟨smallDevice 12288,
    { extents := [⟨49168, 6, 4⟩], linkfiles := ["1.log"], wal := some 4, fileSize := 6
      isSparse := true }, []⟩

theorem shortFile_readable : ReadableWal .walBarriers smallConfig shortReader [[shortEntry]]
    [[shortEntry.toWalEntry]] shortFile where
  isLog := by decide
  isSparse := rfl
  layout :=
    { content := by simp [shortReader]
      cut := ⟨by simp, by simp [shortEntry, StoredEntry.size, smallConfig, BuildConfig.walBarrierSize, kiB]⟩
      nonempty := by simp
      fits := by simpa using ⟨by decide, by decide, by decide⟩
      unpadded := by simp
      padding := by simp [shortEntry]
      aligned := by simp
      perm := by simp
      growing := by simp }
  bare := nofun
  sized := ⟨rfl, rfl, by simp [payloads, shortEntry]⟩
  unread := ⟨rfl, rfl, rfl, rfl, rfl⟩
  answers := by simp [Answers, shortFile, smallDevice]
  opened _ := ⟨shortFile, rfl⟩

def turnTaking : List ReaderCall :=
  [.positionedRead 1 0 2, .skip 0 2, .read 0 3, .positionedRead 1 5 9, .positionedRead 0 6 4]

theorem reads_by_offset_short :
    (runCalls .walBarriers smallConfig shortReader turnTaking (.start shortFile fun _ => true)).1 =
      .ok [.ok [97, 98], .ok [], .ok [99, 100, 101], .ok [102], .ok []] := by
  have content : (payloads [[shortEntry.toWalEntry]]).flatten = shortEntry.payload := rfl
  have consecutive : Consecutive shortEntry.payload 0 (fun _ => 0) turnTaking := by
    simp [turnTaking, Consecutive, ReaderCall.Follows, ReaderCall.range, ReaderCall.cursor,
      ReaderCall.moved, shortEntry]
  rw [reads_by_offset shortFile_readable (fun _ => true) turnTaking (content ▸ consecutive), content]
  decide +kernel

/-- The second read of the first three bytes returns the next three. -/
theorem reread_returns_later_bytes :
    (runCalls .walBarriers smallConfig shortReader [.positionedRead 0 0 3, .positionedRead 0 0 3]
        (.start shortFile fun _ => false)).1 = .ok [.ok [97, 98, 99], .ok [100, 101, 102]] ∧
      answers shortEntry.payload (fun _ => 0) [.positionedRead 0 0 3, .positionedRead 0 0 3] =
        [.ok [97, 98, 99], .ok [97, 98, 99]] := by
  decide +kernel

end Zwal.ReadHandles
