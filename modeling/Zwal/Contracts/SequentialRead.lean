import Zwal.File.Control
import Zwal.File.WalReader
import Zwal.Foundation.Pieces

/-! # Consecutive reads of a write-ahead log

Whatever way entries are loaded, as long as the entry under the cursor is at hand,
consecutive reads return consecutive parts of the concatenated payloads. -/

namespace Zwal.SequentialRead

open FileState Pieces

/-- The file as loading entries leaves it: only loaded entries and the open log may
differ. -/
structure Kept (before after : FileState) : Prop where
  extents : after.file.extents = before.file.extents
  fileSize : after.file.fileSize = before.file.fileSize
  linkfiles : after.file.linkfiles = before.file.linkfiles
  index : after.file.readerOffsetIndex = before.file.readerOffsetIndex
  within : after.file.readerOffset = before.file.readerOffset

theorem Kept.refl (state : FileState) : Kept state state := ⟨rfl, rfl, rfl, rfl, rfl⟩

theorem Kept.trans {first second third : FileState} (one : Kept first second)
    (two : Kept second third) : Kept first third :=
  ⟨two.extents.trans one.extents, two.fileSize.trans one.fileSize,
    two.linkfiles.trans one.linkfiles, two.index.trans one.index, two.within.trans one.within⟩

def setCursor (index within last : Nat) (state : FileState) : FileState :=
  { state with file := { state.file with
      readerOffsetIndex := index, readerOffset := within, lastRead := last } }

variable {build : ReaderBuild} {config : BuildConfig} {env : ReaderEnv} {pieces : List Bytes}
  {parked ready : Nat → FileState → Prop}

/-- A way of loading entries: `ready index` holds while the entry of that index can be
copied, `parked index` between reads, and `TryRecoverWAL` gets from one entry to
the next. -/
structure Source (build : ReaderBuild) (config : BuildConfig) (env : ReaderEnv)
    (pieces : List Bytes) (parked ready : Nat → FileState → Prop) : Prop where
  entry {index state piece} : ready index state → pieces[index]? = some piece →
    entryAt build state.file index = some piece
  start {index state position} : parked index state → offsetOf pieces index ≤ position →
    position < offsetOf pieces (index + 1) →
    ∃ next, tryRecoverWAL build config env position state = (.ok (), next) ∧
      ready index next ∧ Kept state next
  move {index state} : ready index state → index + 1 < pieces.length →
    ∃ next, tryRecoverWAL build config env (offsetOf pieces (index + 1)) state = (.ok (), next) ∧
      ready (index + 1) next ∧ Kept state next
  finish {index state} : ready index state → index + 1 = pieces.length →
    ∃ next, tryRecoverWAL build config env (offsetOf pieces (index + 1)) state = (.ok (), next) ∧
      ready index next ∧ Kept state next
  park {index state} (newIndex within last) : ready index state →
    parked index (setCursor newIndex within last state)

/-- A file whose extents are as long as the pieces, none of which is empty. -/
structure Sized (pieces : List Bytes) (state : FileState) : Prop where
  extents : state.file.extents.map ZoneExtent.length = pieces.map List.length
  fileSize : state.file.fileSize = pieces.flatten.length
  positive : ∀ piece ∈ pieces, 0 < piece.length

theorem Sized.keep {before after : FileState} (sized : Sized pieces before)
    (kept : Kept before after) : Sized pieces after :=
  ⟨kept.extents ▸ sized.extents, kept.fileSize ▸ sized.fileSize, sized.positive⟩

/-! ## Looking up extents -/

section Extents

variable {extents : List ZoneExtent} {index : Nat}

theorem getWALExtent_start {extent : ZoneExtent} (found : extents[index]? = some extent)
    (positive : 0 < extent.length) :
    ZoneFile.getWALExtent extents 0 index = some (extent, 0, index) := by
  rcases List.getElem?_eq_some_iff.mp found with ⟨bound, rfl⟩
  rw [ZoneFile.getWALExtent, List.drop_eq_getElem_cons bound, ZoneFile.getWALExtent.scan,
    if_pos positive]

theorem getWALExtent_next {extent next : ZoneExtent} (found : extents[index]? = some extent)
    (after : extents[index + 1]? = some next) (positive : 0 < next.length) :
    ZoneFile.getWALExtent extents extent.length index = some (next, 0, index + 1) := by
  rcases List.getElem?_eq_some_iff.mp found with ⟨bound, rfl⟩
  rcases List.getElem?_eq_some_iff.mp after with ⟨bound', rfl⟩
  rw [ZoneFile.getWALExtent, List.drop_eq_getElem_cons bound, ZoneFile.getWALExtent.scan,
    if_neg (Nat.lt_irrefl _), List.drop_eq_getElem_cons bound', ZoneFile.getWALExtent.scan,
    Nat.sub_self, if_pos positive]

theorem getWALExtent_last {extent : ZoneExtent} (found : extents[index]? = some extent)
    (last : index + 1 = extents.length) :
    ZoneFile.getWALExtent extents extent.length index = none := by
  rcases List.getElem?_eq_some_iff.mp found with ⟨bound, rfl⟩
  rw [ZoneFile.getWALExtent, List.drop_eq_getElem_cons bound, ZoneFile.getWALExtent.scan,
    if_neg (Nat.lt_irrefl _), List.drop_eq_nil_of_le (Nat.le_of_eq last.symm),
    ZoneFile.getWALExtent.scan]

end Extents

theorem Sized.extent {state : FileState} (sized : Sized pieces state) {index : Nat} {piece : Bytes}
    (found : pieces[index]? = some piece) :
    ∃ extent, state.file.extents[index]? = some extent ∧ extent.length = piece.length := by
  have lengths := congrArg (fun list => list[index]?) sized.extents
  simp only [List.getElem?_map, found, Option.map_some] at lengths
  rcases same : state.file.extents[index]? with _ | extent
  · simp [same] at lengths
  · simp only [same, Option.map_some, Option.some.injEq] at lengths
    exact ⟨extent, rfl, lengths⟩

theorem Sized.length {state : FileState} (sized : Sized pieces state) :
    state.file.extents.length = pieces.length := by
  simpa using congrArg List.length sized.extents

/-! ## One read -/

structure Under (pieces : List Bytes) (offset : Nat) (point : ReadPoint) (piece : Bytes) : Prop where
  found : pieces[point.index]? = some piece
  extentEnd : point.extentEnd = piece.length
  within : point.rOff ≤ piece.length
  position : offset + point.out.length = offsetOf pieces point.index + point.rOff
  out : point.out = (pieces.flatten.drop offset).take point.out.length

theorem nextWALExtent_move (source : Source build config env pieces parked ready) {state : FileState}
    (sized : Sized pieces state) {offset : Nat} {point : ReadPoint} {piece : Bytes}
    (under : Under pieces offset point piece) (atEnd : point.rOff = point.extentEnd)
    (isReady : ready point.index state) (more : point.index + 1 < pieces.length) :
    ∃ nextPoint nextPiece next,
      nextWALExtent build config env offset point state = (.ok (some nextPoint), next) ∧
      Under pieces offset nextPoint nextPiece ∧ nextPoint.rOff < nextPiece.length ∧
      nextPoint.out = point.out ∧ ready nextPoint.index next ∧ Kept state next := by
  have whole : point.rOff = piece.length := atEnd.trans under.extentEnd
  have position : offset + point.out.length = offsetOf pieces (point.index + 1) := by
    rw [under.position, offsetOf_succ under.found, whole]
  rcases source.move isReady more with ⟨next, run, nextReady, kept⟩
  have nextSized := sized.keep kept
  have found' : pieces[point.index + 1]? = some pieces[point.index + 1] :=
    List.getElem?_eq_getElem more
  have positive := sized.positive _ (List.getElem_mem more)
  rcases nextSized.extent under.found with ⟨extent, here, width⟩
  rcases nextSized.extent found' with ⟨following, there, width'⟩
  refine ⟨⟨following.length, 0, point.index + 1, point.out⟩, pieces[point.index + 1], next, ?_,
    ⟨found', width', Nat.zero_le _, position, under.out⟩, positive, rfl, nextReady, kept⟩
  rw [nextWALExtent, position, bind_of_ok run]
  have lookup := getWALExtent_next here there (width' ▸ positive)
  rw [width, ← whole] at lookup
  rw [bind_read]
  simp only [lookup]
  rfl

theorem nextWALExtent_finish (source : Source build config env pieces parked ready) {state : FileState}
    (sized : Sized pieces state) {offset : Nat} {point : ReadPoint} {piece : Bytes}
    (under : Under pieces offset point piece) (atEnd : point.rOff = point.extentEnd)
    (isReady : ready point.index state) (last : point.index + 1 = pieces.length) :
    ∃ next, nextWALExtent build config env offset point state = (.ok none, next) ∧
      ready point.index next ∧ Kept state next := by
  have whole : point.rOff = piece.length := atEnd.trans under.extentEnd
  have position : offset + point.out.length = offsetOf pieces (point.index + 1) := by
    rw [under.position, offsetOf_succ under.found, whole]
  rcases source.finish isReady last with ⟨next, run, nextReady, kept⟩
  have nextSized := sized.keep kept
  rcases nextSized.extent under.found with ⟨extent, here, width⟩
  refine ⟨next, ?_, nextReady, kept⟩
  have lookup := getWALExtent_last here (last.trans nextSized.length.symm)
  rw [width, ← whole] at lookup
  rw [nextWALExtent, position, bind_of_ok run, bind_read]
  simp only [lookup]
  rfl

theorem length_copy {point : ReadPoint} {payload : Bytes} {count : Nat}
    (inside : point.rOff + count ≤ payload.length) :
    (point.copy payload count).out.length = point.out.length + count := by
  rw [ReadPoint.copy, List.length_append, List.length_take, List.length_drop]
  omega

theorem Under.copy {offset : Nat} {point : ReadPoint} {piece : Bytes}
    (under : Under pieces offset point piece) (count : Nat)
    (inside : point.rOff + count ≤ piece.length) :
    Under pieces offset (point.copy piece count) piece := by
  have copied := length_copy inside
  refine ⟨under.found, under.extentEnd, inside, ?_, ?_⟩
  · have position := under.position
    rw [copied]
    simp only [ReadPoint.copy]
    omega
  · rw [copied, List.take_add, ← under.out, List.drop_drop, under.position,
      drop_offsetOf under.found under.within, List.take_append_of_le_length]
    · rfl
    · rw [List.length_drop]
      omega

theorem Under.more {offset rSz : Nat} {point : ReadPoint} {piece : Bytes}
    (under : Under pieces offset point piece) (bounded : offset + rSz ≤ pieces.flatten.length)
    (short : point.out.length < rSz) (atEnd : point.rOff = point.extentEnd) :
    point.index + 1 < pieces.length := by
  have position := under.position
  have next := offsetOf_succ under.found
  have total := offsetOf_length pieces
  have bound := (List.getElem?_eq_some_iff.mp under.found).1
  have width := under.extentEnd
  by_contra last
  have equal : point.index + 1 = pieces.length := by omega
  rw [equal] at next
  omega

theorem walReadLoop_pass (source : Source build config env pieces parked ready) {offset rSz fuel : Nat}
    {state : FileState} {point : ReadPoint} {piece : Bytes} (under : Under pieces offset point piece)
    (isReady : ready point.index state) (unfinished : ¬ point.out.length = rSz) {count : Nat}
    (counted : count = min (rSz - point.out.length) (point.extentEnd - point.rOff))
    (positive : 0 < count) (inside : point.rOff + count ≤ piece.length) :
    walReadLoop build config env false offset rSz (fuel + 1) point state =
      (if (point.copy piece count).out.length ≠ rSz ∧
          (point.copy piece count).rOff = (point.copy piece count).extentEnd then do
        match ← nextWALExtent build config env offset (point.copy piece count) with
        | none => pure (point.copy piece count)
        | some point => walReadLoop build config env false offset rSz fuel point
      else walReadLoop build config env false offset rSz fuel (point.copy piece count)) state := by
  rw [walReadLoop, if_neg unfinished, bind_read]
  simp only [source.entry isReady under.found, Bool.false_and, Bool.false_eq_true,
    if_false, ← counted, Nat.add_zero]
  exact (congrFun (if_neg (by omega)) state).trans (congrFun (if_neg (by omega)) state)

theorem walReadLoop_spec (source : Source build config env pieces parked ready) {offset : Nat} (rSz : Nat)
    (bounded : offset + rSz ≤ pieces.flatten.length) (fuel : Nat) {state : FileState}
    (sized : Sized pieces state) {point : ReadPoint} {piece : Bytes}
    (under : Under pieces offset point piece) (isReady : ready point.index state)
    (room : point.rOff < piece.length ∨ point.out.length = rSz) (short : point.out.length ≤ rSz)
    (enough : rSz - point.out.length ≤ fuel) :
    ∃ final finalPiece next,
      walReadLoop build config env false offset rSz fuel point state = (.ok final, next) ∧
      Under pieces offset final finalPiece ∧ final.out.length = rSz ∧
      ready final.index next ∧ Kept state next := by
  induction fuel generalizing state point piece with
  | zero =>
      have done : point.out.length = rSz := by omega
      refine ⟨point, piece, state, ?_, under, done, isReady, .refl state⟩
      rw [walReadLoop, if_pos done]
      rfl
  | succ fuel induction =>
      by_cases done : point.out.length = rSz
      · refine ⟨point, piece, state, ?_, under, done, isReady, .refl state⟩
        rw [walReadLoop, if_pos done]
        rfl
      · have ahead : point.rOff < piece.length := room.resolve_right done
        have width := under.extentEnd
        obtain ⟨count, counted⟩ : ∃ count,
            count = min (rSz - point.out.length) (point.extentEnd - point.rOff) := ⟨_, rfl⟩
        have inside : point.rOff + count ≤ piece.length := by omega
        have copyUnder := under.copy count inside
        have copyLength := length_copy inside
        rw [walReadLoop_pass source under isReady done counted (by omega) inside]
        by_cases turn : (point.copy piece count).out.length ≠ rSz ∧
            (point.copy piece count).rOff = (point.copy piece count).extentEnd
        · have more := copyUnder.more bounded (by omega) turn.2
          rcases nextWALExtent_move source sized copyUnder turn.2 isReady more with
            ⟨nextPoint, nextPiece, next, run, nextUnder, nextRoom, sameOut, nextReady, kept⟩
          rcases induction (sized.keep kept) nextUnder nextReady (.inl nextRoom)
            (by rw [sameOut]; omega) (by rw [sameOut]; omega) with
            ⟨final, finalPiece, last, loop, finalUnder, finalLength, finalReady, keptLast⟩
          refine ⟨final, finalPiece, last, ?_, finalUnder, finalLength, finalReady,
            kept.trans keptLast⟩
          rw [if_pos turn, bind_of_ok run]
          exact loop
        · have copyRoom : (point.copy piece count).rOff < piece.length ∨
              (point.copy piece count).out.length = rSz := by
            have copyWithin := copyUnder.within
            have copyEnd := copyUnder.extentEnd
            omega
          rcases induction sized copyUnder isReady copyRoom (by omega) (by omega) with
            ⟨final, finalPiece, last, loop, finalUnder, finalLength, finalReady, keptLast⟩
          refine ⟨final, finalPiece, last, ?_, finalUnder, finalLength, finalReady, keptLast⟩
          rw [if_neg turn]
          exact loop

structure Standing (pieces : List Bytes) (parked : Nat → FileState → Prop) (position : Nat)
    (state : FileState) : Prop where
  sized : Sized pieces state
  parked : parked state.file.readerOffsetIndex state
  piece : ∃ piece, pieces[state.file.readerOffsetIndex]? = some piece ∧
    position = offsetOf pieces state.file.readerOffsetIndex + state.file.readerOffset ∧
    (state.file.readerOffset < piece.length ∨
      (state.file.readerOffset = piece.length ∧ position = pieces.flatten.length))

theorem leaveExtent_spec (source : Source build config env pieces parked ready) {state : FileState}
    (sized : Sized pieces state) {offset : Nat} {point : ReadPoint} {piece : Bytes}
    (under : Under pieces offset point piece) (isReady : ready point.index state) (last : Nat) :
    ∃ final next, leaveExtent build config env offset point state = (.ok final, next) ∧
      final.out = point.out ∧ Kept state next ∧
      Standing pieces parked (offset + point.out.length)
        (setCursor final.index final.rOff last next) := by
  by_cases atEnd : point.rOff = point.extentEnd
  · rcases Nat.lt_or_ge (point.index + 1) pieces.length with more | none
    · rcases nextWALExtent_move source sized under atEnd isReady more with
        ⟨nextPoint, nextPiece, next, run, nextUnder, nextRoom, sameOut, nextReady, kept⟩
      refine ⟨nextPoint, next, ?_, sameOut, kept, ?_, ?_, ?_⟩
      · rw [leaveExtent, if_pos atEnd, bind_of_ok run]
        rfl
      · exact ⟨(sized.keep kept).extents, (sized.keep kept).fileSize, sized.positive⟩
      · exact source.park _ _ _ nextReady
      · exact ⟨nextPiece, nextUnder.found, by rw [← sameOut]; exact nextUnder.position,
          .inl nextRoom⟩
    · have bound := (List.getElem?_eq_some_iff.mp under.found).1
      have last' : point.index + 1 = pieces.length := by omega
      rcases nextWALExtent_finish source sized under atEnd isReady last' with
        ⟨next, run, nextReady, kept⟩
      refine ⟨point, next, ?_, rfl, kept, ?_, ?_, ?_⟩
      · rw [leaveExtent, if_pos atEnd, bind_of_ok run]
        rfl
      · exact ⟨(sized.keep kept).extents, (sized.keep kept).fileSize, sized.positive⟩
      · exact source.park _ _ _ nextReady
      · refine ⟨piece, under.found, under.position, .inr ⟨atEnd.trans under.extentEnd, ?_⟩⟩
        have whole := offsetOf_succ under.found
        rw [last', offsetOf_length] at whole
        rw [under.position, atEnd, under.extentEnd, whole]
  · refine ⟨point, state, ?_, rfl, .refl state, ?_, ?_, ?_⟩
    · rw [leaveExtent, if_neg atEnd]
      rfl
    · exact ⟨sized.extents, sized.fileSize, sized.positive⟩
    · exact source.park _ _ _ isReady
    · refine ⟨piece, under.found, under.position, .inl ?_⟩
      have within := under.within
      have width := under.extentEnd
      show point.rOff < piece.length
      omega

theorem walRead_spec (source : Source build config env pieces parked ready) {state : FileState}
    {position : Nat} (standing : Standing pieces parked position state)
    (inside : position < pieces.flatten.length) (n : Nat) :
    ∃ next, walRead build config env position n false state =
        (.ok ((pieces.flatten.drop position).take n), next) ∧
      next.file.linkfiles = state.file.linkfiles ∧
      Standing pieces parked (position + min n (pieces.flatten.length - position)) next := by
  rcases standing.piece with ⟨piece, found, placed, ahead⟩
  have within : state.file.readerOffset < piece.length := ahead.resolve_right fun atEnd => by omega
  have following := offsetOf_succ found
  rcases source.start standing.parked (Nat.le_trans (Nat.le_add_right _ _) (Nat.le_of_eq placed.symm))
    (by omega) with ⟨loaded, recovered, loadedReady, loadedKept⟩
  have sized := standing.sized.keep loadedKept
  rw [← loadedKept.index] at found loadedReady placed
  rw [← loadedKept.within] at placed within
  rcases sized.extent found with ⟨extent, here, width⟩
  have lookup := getWALExtent_start here (width ▸ sized.positive _ (List.mem_of_getElem? found))
  let rSz := min n (pieces.flatten.length - position)
  have start : Under pieces position
      ⟨extent.length, loaded.file.readerOffset, loaded.file.readerOffsetIndex, []⟩ piece :=
    ⟨found, width, Nat.le_of_lt within, placed, by simp⟩
  rcases walReadLoop_spec source rSz (by omega) rSz sized start loadedReady (.inl within)
    (Nat.zero_le _) (Nat.sub_le _ _) with
    ⟨point, lastPiece, read, loop, pointUnder, pointLength, pointReady, readKept⟩
  rcases leaveExtent_spec source (sized.keep readKept) pointUnder pointReady (position + rSz) with
    ⟨final, last, left, sameOut, lastKept, finalStanding⟩
  have out : final.out = (pieces.flatten.drop position).take n := by
    rw [sameOut, pointUnder.out, pointLength, List.take_eq_take_iff, List.length_drop]
    omega
  refine ⟨setCursor final.index final.rOff (position + rSz) last, ?_, ?_, ?_⟩
  · rw [walRead, bind_of_ok recovered, bind_read]
    simp only [lookup, sized.fileSize]
    rw [bind_of_ok loop, bind_of_ok left, ← out, ← pointLength, ← sameOut]
    rfl
  · exact (loadedKept.trans (readKept.trans lastKept)).linkfiles
  · rw [pointLength] at finalStanding
    exact finalStanding

/-! ## Consecutive reads -/

def readConsecutive (build : ReaderBuild) (config : BuildConfig) (env : ReaderEnv) (direct : Bool) :
    (sizes : List Nat) → (position : Nat) → FileProgram (List Bytes)
  | [], _ => pure []
  | n :: sizes, position => do
      let bytes ← positionedRead build config env position n direct
      let others ← readConsecutive build config env direct sizes (position + bytes.length)
      pure (bytes :: others)

def slices (content : Bytes) : (sizes : List Nat) → (position : Nat) → List Bytes
  | [], _ => []
  | n :: sizes, position =>
      let bytes := (content.drop position).take n
      bytes :: slices content sizes (position + bytes.length)

theorem readConsecutive_past {content : Bytes} (direct : Bool) (sizes : List Nat) {position : Nat}
    {state : FileState} (named : state.file.getFilename.isNone = false)
    (fileSize : state.file.fileSize = content.length) (past : content.length ≤ position) :
    readConsecutive build config env direct sizes position state =
      (.ok (slices content sizes position), state) := by
  induction sizes with
  | nil => rfl
  | cons n sizes induction =>
      have empty : (content.drop position).take n = [] := by simp [List.drop_eq_nil_of_le past]
      have read : positionedRead build config env position n direct state = (.ok [], state) := by
        rw [positionedRead, bind_read, named, if_neg Bool.false_ne_true, if_pos (by omega)]
        rfl
      have rest : readConsecutive build config env direct sizes
          (position + ([] : Bytes).length) state = (.ok (slices content sizes position), state) :=
        induction
      rw [readConsecutive, bind_of_ok read, bind_of_ok rest, slices, empty]
      rfl

theorem readConsecutive_spec (source : Source build config env pieces parked ready)
    (sizes : List Nat) {position : Nat} {state : FileState}
    (standing : Standing pieces parked position state)
    (isLog : state.file.hasLogName = true) :
    ∃ next, readConsecutive build config env false sizes position state =
      (.ok (slices pieces.flatten sizes position), next) := by
  induction sizes generalizing position state with
  | nil => exact ⟨state, rfl⟩
  | cons n sizes induction =>
      have named := ZoneFile.named_of_hasLogName isLog
      by_cases past : pieces.flatten.length ≤ position
      · exact ⟨state, readConsecutive_past false _ named standing.sized.fileSize past⟩
      · rcases walRead_spec source standing (by omega) n with ⟨next, run, links, nextStanding⟩
        have read : positionedRead build config env position n false state =
            (.ok ((pieces.flatten.drop position).take n), next) := by
          rw [positionedRead, bind_read,
            named, if_neg Bool.false_ne_true, if_neg (by rw [standing.sized.fileSize]; exact past),
            if_pos isLog, run]
        have length : ((pieces.flatten.drop position).take n).length =
            min n (pieces.flatten.length - position) := by
          rw [List.length_take, List.length_drop]
        rw [← length] at nextStanding
        rcases induction nextStanding (by
          rw [ZoneFile.hasLogName, ZoneFile.getFilename, links]
          exact isLog) with
          ⟨last, rest⟩
        refine ⟨last, ?_⟩
        rw [readConsecutive, bind_of_ok read, bind_of_ok rest]
        rfl

end Zwal.SequentialRead
