import Zwal.Foundation.Codec
import Zwal.Fs.Mount

/-! # Metadata records as bytes

`EncodeTo` and `DecodeFrom` of a file, and the records `RecoverFrom` reads. The records the
rest of the development works with stand for their encodings. -/

namespace Zwal

open Codec

/-! ## Names -/

def nameBytes (name : String) : Bytes := name.toUTF8.data.toList

/-- `Slice::ToString`; bytes that are no text are not given a name of their own. -/
def nameOf (bytes : Bytes) : String := (String.fromUTF8? ⟨bytes.toArray⟩).getD ""

@[simp] theorem nameOf_nameBytes (name : String) : nameOf (nameBytes name) = name := by
  simp [nameOf, nameBytes, String.fromUTF8?, String.toUTF8, String.fromUTF8, name.isValidUTF8]

/-! ## Tags -/

def kFileID : Nat := 1
def kFileSize : Nat := 3
def kWriteLifeTimeHint : Nat := 4
def kExtent : Nat := 5
def kModificationTime : Nat := 6
def kActiveExtentStart : Nat := 7
def kIsSparse : Nat := 8
def kLinkedFilename : Nat := 9
def kWALSeq : Nat := 10

def kCompleteFilesSnapshot : Nat := 1
def kFileUpdate : Nat := 2
def kFileDeletion : Nat := 3
def kEndRecord : Nat := 4
def kFileReplace : Nat := 5

/-! ## Encoding -/

def putFixed32 (value : Nat) : Bytes := Bytes.ofNat 4 value

def putFixed64 (value : Nat) : Bytes := Bytes.ofNat 8 value

def encodeExtent (extent : ZoneExtent) : Bytes := putFixed64 extent.start ++ putFixed64 extent.length

namespace FileRecord

def encodeExtents (extents : List ZoneExtent) : Bytes :=
  extents.flatMap fun extent => putFixed32 kExtent ++ putPrefixed (encodeExtent extent)

def encodeLinks (linkfiles : List String) : Bytes :=
  linkfiles.flatMap fun name => putFixed32 kLinkedFilename ++ putPrefixed (nameBytes name)

/-- What `EncodeTo` writes behind the number of the file. -/
def encodeFields (record : FileRecord) (extentStart : Nat) : Bytes :=
  putFixed32 kFileSize ++ (putFixed64 record.fileSize ++
  (putFixed32 kWriteLifeTimeHint ++ (putFixed32 record.lifetime ++
  (encodeExtents (record.extents.drop extentStart) ++
  ((match record.walSeq with
    | some walSeq => putFixed32 kWALSeq ++ putFixed64 walSeq
    | none => []) ++
  (putFixed32 kModificationTime ++ (putFixed64 record.mTime ++
  (putFixed32 kActiveExtentStart ++ (putFixed64 record.extentStart ++
  ((if record.isSparse then putFixed32 kIsSparse else []) ++
  encodeLinks record.linkfiles))))))))))

def encodeTo (record : FileRecord) (extentStart : Nat) : Bytes :=
  putFixed32 kFileID ++ (putFixed64 record.fileId ++ record.encodeFields extentStart)

theorem length_encodeTo_le (record : FileRecord) (extentStart : Nat) :
    (record.encodeTo extentStart).length ≤ (record.encodeTo 0).length := by
  have fewer : (encodeExtents (record.extents.drop extentStart)).length ≤
      (encodeExtents record.extents).length := by
    simp only [encodeExtents]
    exact ((List.drop_sublist extentStart record.extents).flatMap _).length_le
  simp only [encodeTo, encodeFields, List.length_append, List.drop_zero]
  omega

end FileRecord

def MetaRecord.tag : MetaRecord → Nat
  | .snapshot _ => kCompleteFilesSnapshot
  | .update _ => kFileUpdate
  | .replace _ => kFileReplace
  | .deletion _ _ => kFileDeletion

def MetaRecord.data : MetaRecord → Bytes
  | .snapshot records => records.flatMap fun record => putPrefixed (record.encodeTo 0)
  | .update record | .replace record => record.encodeTo record.nrSyncedExtents
  | .deletion fileId name => putFixed64 fileId ++ putPrefixed (nameBytes name)

def MetaRecord.encode (entry : MetaRecord) : Bytes := putFixed32 entry.tag ++ putPrefixed entry.data

structure FileRecord.Encodable (record : FileRecord) : Prop where
  fileId : record.fileId < 2 ^ 64
  fileSize : record.fileSize < 2 ^ 64
  lifetime : record.lifetime < 2 ^ 32
  extents : ∀ extent ∈ record.extents, extent.start < 2 ^ 64 ∧ extent.length < 2 ^ 64
  walSeq : ∀ walSeq ∈ record.walSeq, walSeq < 2 ^ 64
  mTime : record.mTime < 2 ^ 64
  extentStart : record.extentStart < 2 ^ 64
  linkfiles : ∀ name ∈ record.linkfiles, (nameBytes name).length < 2 ^ 32

/-- The numbers of a record fit their fields, and its length fits the prefix. -/
def MetaRecord.Encodable (entry : MetaRecord) : Prop :=
  entry.data.length < 2 ^ 32 ∧
    match entry with
    | .snapshot records => ∀ record ∈ records, FileRecord.Encodable record
    | .update record | .replace record => FileRecord.Encodable record
    | .deletion fileId _ => fileId < 2 ^ 64

/-! ## Decoding -/

def getFixed32 : Reader Nat := getFixed 4

def getFixed64 : Reader Nat := getFixed 8

def decodeExtent (input : Bytes) : Except IOStatus (Nat × Nat) :=
  if input.length ≠ 16 then .error (.corruption "Error: length missmatch")
  else .ok (Bytes.toNat (input.take 8), Bytes.toNat (input.drop 8))

structure Decoding where
  file : ZoneFile
  padSz : Nat := 0
  isWal : Bool := false

namespace FileSystem

open ZonedBlockDevice

def withNumber (reader : Reader Nat) (missing : String) (input : Bytes)
    (next : Nat → Bytes → DeviceProgram Decoding) : DeviceProgram Decoding :=
  match reader input with
  | none => Program.fail (.corruption missing)
  | some (value, rest) => next value rest

def addDecoded (start length : Nat) (decoding : Decoding) : DeviceProgram Decoding := do
  let zbd ← Program.read
  match zbd.getIOZone start with
  | none => Program.fail (.corruption "Invalid zone extent")
  | some number =>
      let extent : ZoneExtent := ⟨start, length, number⟩
      Program.update fun zbd => addUsed zbd extent
      let wal ← if decoding.file.wal.isSome then pure decoding.file.wal else getWAL start
      pure { decoding with
        file := { decoding.file with extents := decoding.file.extents ++ [extent], wal := wal }
        padSz := decoding.padSz + padSize sparseBlockSize length }

/-- The loop of `DecodeFrom`. It stops where no tag can be read. -/
def decodeFields : (fuel : Nat) → (input : Bytes) → Decoding → DeviceProgram Decoding
  | 0, _, _ => Program.fail .never
  | fuel + 1, input, decoding =>
      let file := decoding.file
      match getFixed32 input with
      | none => pure decoding
      | some (tag, input) =>
          if tag = kFileSize then
            withNumber getFixed64 "Missing file size" input fun size input =>
              decodeFields fuel input { decoding with file := { file with fileSize := size } }
          else if tag = kWriteLifeTimeHint then
            withNumber getFixed32 "Missing life time hint" input fun hint input =>
              decodeFields fuel input { decoding with file := { file with lifetime := hint } }
          else if tag = kExtent then
            let (slice, input) := (getPrefixed input).getD ([], input)
            match decodeExtent slice with
            | .error failure => Program.fail failure
            | .ok (start, length) => do
                let decoding ← addDecoded start length decoding
                decodeFields fuel input decoding
          else if tag = kModificationTime then
            withNumber getFixed64 "Missing creation time" input fun time input =>
              decodeFields fuel input { decoding with file := { file with mTime := time } }
          else if tag = kActiveExtentStart then
            withNumber getFixed64 "Active extent start" input fun start input =>
              decodeFields fuel input { decoding with file := { file with extentStart := start } }
          else if tag = kIsSparse then
            decodeFields fuel input { decoding with file := { file with isSparse := true } }
          else if tag = kLinkedFilename then
            match getPrefixed input with
            | none => Program.fail (.corruption "LinkFilename missing")
            | some (slice, input) =>
                let name := nameOf slice
                if name = "" then Program.fail (.corruption "Zero length Linkfilename")
                else decodeFields fuel input { decoding with
                  file := { file with linkfiles := file.linkfiles ++ [name] } }
          else if tag = kWALSeq then
            withNumber getFixed64 "Missing sequence number" input fun walSeq input =>
              decodeFields fuel input { decoding with
                file := { file with walSeq := walSeq }, isWal := true }
          else Program.fail (.corruption "Unexpected tag")

def Decoding.finish (config : BuildConfig) (decoding : Decoding) : ZoneFile :=
  { decoding.file with
    appendBytesSinceLastBarrier :=
      if decoding.isWal then (decoding.file.fileSize + decoding.padSz) % config.walBarrierSize
      else decoding.file.appendBytesSinceLastBarrier
    nrSyncedExtents := decoding.file.extents.length }

def decodeFromBytes (config : BuildConfig) (input : Bytes) : FsProgram Nat :=
  match getFixed32 input with
  | some (tag, input) =>
      if tag ≠ kFileID then Program.fail (.corruption "File ID missing")
      else
        match getFixed64 input with
        | none => Program.fail (.corruption "File ID missing")
        | some (fileId, input) => do
            let decoding ← onDevice (decodeFields (input.length + 1) input { file := { fileId := fileId } })
            let fs ← Program.read
            Program.update fun fs =>
              { fs with
                objects := fs.objects ++ [{ file := Decoding.finish config decoding }]
                nextFileId := max fs.nextFileId (fileId + 1) }
            pure fs.objects.length
  | none => Program.fail (.corruption "File ID missing")

def decodeSnapshotBytes (config : BuildConfig) : (fuel : Nat) → (input : Bytes) → FsProgram Unit
  | 0, _ => Program.fail .never
  | fuel + 1, input =>
      match getPrefixed input with
      | none => pure ()
      | some (slice, input) => do
          let j ← decodeFromBytes config slice
          let fs ← Program.read
          Program.update (insertLinks (fs.object j).file.linkfiles j)
          release j
          decodeSnapshotBytes config fuel input

def decodeFileUpdateBytes (config : BuildConfig) (input : Bytes) (replace : Bool) :
    FsProgram Unit := do
  let j ← decodeFromBytes config input
  let fs ← Program.read
  let change := (fs.object j).file
  match fs.files.find? fun entry => (fs.object entry.2).file.fileId == change.fileId with
  | some (_, k) =>
      eraseLinks (fs.object k).file.linkfiles
      mergeUpdate k j replace
      destroy j
      Program.update (insertLinks change.linkfiles k)
      release k
  | none =>
      match change.linkfiles with
      | [] => Program.fail .never
      | name :: _ =>
          Program.update (insertName name j)
          release j

def decodeFileDeletionBytes (input : Bytes) : FsProgram Unit :=
  match getFixed64 input with
  | none => Program.fail (.corruption "Zone file deletion: file id missing")
  | some (fileId, input) =>
      match getPrefixed input with
      | none => Program.fail (.corruption "Zone file deletion: file name missing")
      | some (slice, _) => decodeFileDeletionFrom fileId (nameOf slice)

/-- The record `RecoverFrom` has read, by its tag. -/
def decodeData (config : BuildConfig) (tag : Nat) (data : Bytes) : FsProgram Unit :=
  if tag = kCompleteFilesSnapshot then do
    clearFiles
    decodeSnapshotBytes config (data.length + 1) data
  else if tag = kFileUpdate then decodeFileUpdateBytes config data false
  else if tag = kFileReplace then decodeFileUpdateBytes config data true
  else if tag = kFileDeletion then decodeFileDeletionBytes data
  else Program.fail (.corruption "Unexpected tag")

/-- `RecoverFrom` on the records `ReadRecord` returns, up to an empty one. -/
def recoverFromBytes (config : BuildConfig) : List Bytes → FsProgram Unit
  | [] => pure ()
  | record :: rest =>
      match getFixed32 record with
      | none => pure ()
      | some (tag, input) =>
          if tag = kEndRecord then pure ()
          else
            match getPrefixed input with
            | none => Program.fail (.corruption "No recovery record data")
            | some (data, _) => do
                decodeData config tag data
                recoverFromBytes config rest

/-! ## Decoding what was encoded -/

theorem getFixed32_put {value : Nat} (fits : value < 2 ^ 32) (rest : Bytes) :
    getFixed32 (putFixed32 value ++ rest) = some (value, rest) :=
  getFixed_ofNat (by simpa using fits) rest

theorem getFixed64_put {value : Nat} (fits : value < 2 ^ 64) (rest : Bytes) :
    getFixed64 (putFixed64 value ++ rest) = some (value, rest) :=
  getFixed_ofNat (by simpa using fits) rest

theorem decodeExtent_encode {extent : ZoneExtent}
    (fits : extent.start < 2 ^ 64 ∧ extent.length < 2 ^ 64) :
    decodeExtent (encodeExtent extent) = .ok (extent.start, extent.length) := by
  have length : (encodeExtent extent).length = 16 := by simp [encodeExtent, putFixed64]
  rw [decodeExtent, if_neg (by simp [length]), encodeExtent, putFixed64, putFixed64,
    List.take_left' (Bytes.length_ofNat _ _), List.drop_left' (Bytes.length_ofNat _ _),
    Bytes.toNat_ofNat_of_lt (by simpa using fits.1), Bytes.toNat_ofNat_of_lt (by simpa using fits.2)]

section Fields

-- its equations, ahead of all proofs
attribute [local simp] decodeFields

variable (fuel : Nat) (rest : Bytes) (decoding : Decoding)

theorem decodeFields_fileSize {size : Nat} (fits : size < 2 ^ 64) :
    decodeFields (fuel + 1) (putFixed32 kFileSize ++ (putFixed64 size ++ rest)) decoding =
      decodeFields fuel rest { decoding with file := { decoding.file with fileSize := size } } := by
  rw [decodeFields, getFixed32_put (by decide)]
  simp only [if_true, withNumber, getFixed64_put fits]

theorem decodeFields_lifetime {hint : Nat} (fits : hint < 2 ^ 32) :
    decodeFields (fuel + 1) (putFixed32 kWriteLifeTimeHint ++ (putFixed32 hint ++ rest)) decoding =
      decodeFields fuel rest { decoding with file := { decoding.file with lifetime := hint } } := by
  rw [decodeFields, getFixed32_put (by decide)]
  simp only [show ¬ kWriteLifeTimeHint = kFileSize by decide, if_true, if_false, withNumber,
    getFixed32_put fits]

theorem decodeFields_extent {extent : ZoneExtent}
    (fits : extent.start < 2 ^ 64 ∧ extent.length < 2 ^ 64) :
    decodeFields (fuel + 1)
        (putFixed32 kExtent ++ putPrefixed (encodeExtent extent) ++ rest) decoding =
      (addDecoded extent.start extent.length decoding >>= decodeFields fuel rest) := by
  have size : (encodeExtent extent).length < 2 ^ 32 := by
    simp [encodeExtent, putFixed64, Bytes.length_ofNat]
  rw [decodeFields, List.append_assoc, getFixed32_put (by decide)]
  simp only [show ¬ kExtent = kFileSize by decide, show ¬ kExtent = kWriteLifeTimeHint by decide,
    if_true, if_false, getPrefixed_putPrefixed size, Option.getD_some, decodeExtent_encode fits]

theorem decodeFields_walSeq {walSeq : Nat} (fits : walSeq < 2 ^ 64) :
    decodeFields (fuel + 1) (putFixed32 kWALSeq ++ putFixed64 walSeq ++ rest) decoding =
      decodeFields fuel rest { decoding with
        file := { decoding.file with walSeq := walSeq }, isWal := true } := by
  rw [decodeFields, List.append_assoc, getFixed32_put (by decide)]
  simp only [show ¬ kWALSeq = kFileSize by decide, show ¬ kWALSeq = kWriteLifeTimeHint by decide,
    show ¬ kWALSeq = kExtent by decide, show ¬ kWALSeq = kModificationTime by decide,
    show ¬ kWALSeq = kActiveExtentStart by decide, show ¬ kWALSeq = kIsSparse by decide,
    show ¬ kWALSeq = kLinkedFilename by decide, if_true, if_false, withNumber, getFixed64_put fits]

theorem decodeFields_mTime {time : Nat} (fits : time < 2 ^ 64) :
    decodeFields (fuel + 1) (putFixed32 kModificationTime ++ (putFixed64 time ++ rest)) decoding =
      decodeFields fuel rest { decoding with file := { decoding.file with mTime := time } } := by
  rw [decodeFields, getFixed32_put (by decide)]
  simp only [show ¬ kModificationTime = kFileSize by decide,
    show ¬ kModificationTime = kWriteLifeTimeHint by decide,
    show ¬ kModificationTime = kExtent by decide, if_true, if_false, withNumber, getFixed64_put fits]

theorem decodeFields_extentStart {start : Nat} (fits : start < 2 ^ 64) :
    decodeFields (fuel + 1) (putFixed32 kActiveExtentStart ++ (putFixed64 start ++ rest)) decoding =
      decodeFields fuel rest { decoding with
        file := { decoding.file with extentStart := start } } := by
  rw [decodeFields, getFixed32_put (by decide)]
  simp only [show ¬ kActiveExtentStart = kFileSize by decide,
    show ¬ kActiveExtentStart = kWriteLifeTimeHint by decide,
    show ¬ kActiveExtentStart = kExtent by decide,
    show ¬ kActiveExtentStart = kModificationTime by decide, if_true, if_false, withNumber,
    getFixed64_put fits]

theorem decodeFields_isSparse :
    decodeFields (fuel + 1) (putFixed32 kIsSparse ++ rest) decoding =
      decodeFields fuel rest { decoding with file := { decoding.file with isSparse := true } } := by
  rw [decodeFields, getFixed32_put (by decide)]
  simp only [show ¬ kIsSparse = kFileSize by decide, show ¬ kIsSparse = kWriteLifeTimeHint by decide,
    show ¬ kIsSparse = kExtent by decide, show ¬ kIsSparse = kModificationTime by decide,
    show ¬ kIsSparse = kActiveExtentStart by decide, if_true, if_false]

theorem decodeFields_link {name : String} (fits : (nameBytes name).length < 2 ^ 32) :
    decodeFields (fuel + 1)
        (putFixed32 kLinkedFilename ++ putPrefixed (nameBytes name) ++ rest) decoding =
      if name = "" then Program.fail (.corruption "Zero length Linkfilename")
      else decodeFields fuel rest { decoding with
        file := { decoding.file with linkfiles := decoding.file.linkfiles ++ [name] } } := by
  rw [decodeFields, List.append_assoc, getFixed32_put (by decide)]
  simp only [show ¬ kLinkedFilename = kFileSize by decide,
    show ¬ kLinkedFilename = kWriteLifeTimeHint by decide,
    show ¬ kLinkedFilename = kExtent by decide, show ¬ kLinkedFilename = kModificationTime by decide,
    show ¬ kLinkedFilename = kActiveExtentStart by decide,
    show ¬ kLinkedFilename = kIsSparse by decide, if_true, if_false, getPrefixed_putPrefixed fits,
    nameOf_nameBytes]

end Fields

theorem addDecoded_bind (extent : ZoneExtent) (extents : List ZoneExtent) (decoding : Decoding)
    (next : ZoneFile → DeviceProgram Decoding) (zbd : ZonedBlockDevice) :
    (addDecoded extent.start extent.length decoding >>= fun decoded =>
      decodeExtents extents decoded.file >>= next) zbd =
      (decodeExtents (extent :: extents) decoding.file >>= next) zbd := by
  rw [decodeExtents, addDecoded]
  simp only [Program.bind_assoc]
  rw [bind_read, bind_read]
  cases zbd.getIOZone extent.start with
  | none => rfl
  | some number =>
      simp only [Program.bind_assoc]
      rw [bind_update, bind_update]
      cases decoding.file.wal with
      | some log => rfl
      | none =>
          simp only [Option.isSome_none, Bool.false_eq_true, if_false, Program.bind_assoc]
          rcases run : getWAL extent.start (addUsed zbd ⟨extent.start, extent.length, number⟩) with
            ⟨failure | wal, middle⟩
          · rw [bind_of_error run, bind_of_error run]
          · rw [bind_of_ok run, bind_of_ok run]
            rfl

theorem addDecoded_padding {start length : Nat} {decoding decoded : Decoding}
    {zbd next : ZonedBlockDevice}
    (run : addDecoded start length decoding zbd = (.ok decoded, next)) :
    decoded.padSz = decoding.padSz + padSize sparseBlockSize length ∧
      decoded.isWal = decoding.isWal := by
  rcases bind_eq_ok run with ⟨device, middle, first, rest⟩
  cases found : device.getIOZone start with
  | none =>
      simp only [found] at rest
      cases rest
  | some number =>
      simp only [found] at rest
      rcases bind_eq_ok rest with ⟨_, _, _, rest⟩
      split at rest
      · cases rest
        exact ⟨rfl, rfl⟩
      · rcases bind_eq_ok rest with ⟨_, _, _, last⟩
        cases last
        exact ⟨rfl, rfl⟩

theorem decodeFields_extents {extents : List ZoneExtent}
    (fits : ∀ extent ∈ extents, extent.start < 2 ^ 64 ∧ extent.length < 2 ^ 64) (fuel : Nat)
    (rest : Bytes) (decoding : Decoding) (zbd : ZonedBlockDevice) :
    decodeFields (fuel + extents.length) (FileRecord.encodeExtents extents ++ rest) decoding zbd =
      (decodeExtents extents decoding.file >>= fun file => decodeFields fuel rest { decoding with
        file := file, padSz := decoding.padSz + decodedPadding extents }) zbd := by
  induction extents generalizing decoding zbd with
  | nil => rfl
  | cons extent extents induction =>
      have here := fits extent List.mem_cons_self
      rw [List.length_cons, ← Nat.add_assoc, FileRecord.encodeExtents, List.flatMap_cons,
        List.append_assoc, decodeFields_extent _ _ _ here, ← addDecoded_bind]
      rcases run : addDecoded extent.start extent.length decoding zbd with ⟨failure | decoded, middle⟩
      · rw [bind_of_error run, bind_of_error run]
      · rw [bind_of_ok run, bind_of_ok run]
        have counted : decoded.padSz = decoding.padSz + padSize sparseBlockSize extent.length ∧
            decoded.isWal = decoding.isWal := addDecoded_padding run
        have onward := induction (fun other member => fits other (List.mem_cons_of_mem _ member))
          decoded middle
        rw [FileRecord.encodeExtents] at onward
        rw [onward, counted.1, counted.2]
        have total : decodedPadding (extent :: extents) =
            padSize sparseBlockSize extent.length + decodedPadding extents := rfl
        rw [total, Nat.add_assoc]

theorem decodeFields_links {links : List String}
    (fits : ∀ name ∈ links, (nameBytes name).length < 2 ^ 32) {fuel : Nat}
    (enough : links.length < fuel) (decoding : Decoding) (zbd : ZonedBlockDevice) :
    decodeFields fuel (FileRecord.encodeLinks links) decoding zbd =
      (if "" ∈ links then Program.fail (.corruption "Zero length Linkfilename")
      else pure { decoding with
        file := { decoding.file with linkfiles := decoding.file.linkfiles ++ links } }) zbd := by
  induction links generalizing fuel decoding with
  | nil =>
      obtain ⟨fuel, rfl⟩ := Nat.exists_eq_add_of_lt enough
      simp only [List.not_mem_nil, if_false, List.append_nil]
      rfl
  | cons name links induction =>
      obtain ⟨fuel, rfl⟩ := Nat.exists_eq_add_of_lt enough
      rw [FileRecord.encodeLinks, List.flatMap_cons,
        decodeFields_link _ _ _ (fits name List.mem_cons_self)]
      by_cases empty : name = ""
      · rw [if_pos empty, if_pos (empty ▸ List.mem_cons_self)]
      · have onward := @induction (fun other member => fits other (List.mem_cons_of_mem _ member))
          ((name :: links).length + fuel) (by simp; omega) { decoding with
          file := { decoding.file with linkfiles := decoding.file.linkfiles ++ [name] } }
        have mem : "" ∈ name :: links ↔ "" ∈ links := by
          rw [List.mem_cons]
          exact or_iff_right fun same => empty same.symm
        rw [if_neg empty, ← FileRecord.encodeLinks, onward]
        simp only [mem, List.append_assoc, List.singleton_append]

def settled (record : FileRecord) (decoding : Decoding) : Decoding :=
  { decoding with
    file := { decoding.file with
      walSeq := record.walSeq.getD decoding.file.walSeq
      mTime := record.mTime
      extentStart := record.extentStart
      isSparse := record.isSparse || decoding.file.isSparse
      linkfiles := decoding.file.linkfiles ++ record.linkfiles }
    isWal := record.walSeq.isSome || decoding.isWal }

theorem decodeFields_tail {record : FileRecord} (encodable : record.Encodable) {fuel : Nat}
    (enough : record.linkfiles.length + 4 < fuel) (decoding : Decoding) (zbd : ZonedBlockDevice) :
    decodeFields fuel ((match record.walSeq with
        | some walSeq => putFixed32 kWALSeq ++ putFixed64 walSeq
        | none => []) ++
      (putFixed32 kModificationTime ++ (putFixed64 record.mTime ++
      (putFixed32 kActiveExtentStart ++ (putFixed64 record.extentStart ++
      ((if record.isSparse then putFixed32 kIsSparse else []) ++
      FileRecord.encodeLinks record.linkfiles)))))) decoding zbd =
      (if "" ∈ record.linkfiles then Program.fail (.corruption "Zero length Linkfilename")
      else pure (settled record decoding)) zbd := by
  have sparse {fuel : Nat} (enough : record.linkfiles.length + 1 < fuel) (decoding : Decoding) :
      decodeFields fuel ((if record.isSparse then putFixed32 kIsSparse else []) ++
        FileRecord.encodeLinks record.linkfiles) decoding zbd =
      (if "" ∈ record.linkfiles then Program.fail (.corruption "Zero length Linkfilename")
      else pure { decoding with file := { decoding.file with
        isSparse := record.isSparse || decoding.file.isSparse
        linkfiles := decoding.file.linkfiles ++ record.linkfiles } }) zbd := by
    cases record.isSparse with
    | false =>
        simp only [Bool.false_eq_true, if_false, List.nil_append, Bool.false_or]
        exact decodeFields_links encodable.linkfiles (by omega) decoding zbd
    | true =>
        obtain ⟨fuel, rfl⟩ := Nat.exists_eq_add_of_lt enough
        simp only [if_true, Bool.true_or]
        rw [decodeFields_isSparse, decodeFields_links encodable.linkfiles (by omega)]
  have timed {fuel : Nat} (enough : record.linkfiles.length + 3 < fuel) (decoding : Decoding) :
      decodeFields fuel (putFixed32 kModificationTime ++ (putFixed64 record.mTime ++
        (putFixed32 kActiveExtentStart ++ (putFixed64 record.extentStart ++
        ((if record.isSparse then putFixed32 kIsSparse else []) ++
        FileRecord.encodeLinks record.linkfiles))))) decoding zbd =
      (if "" ∈ record.linkfiles then Program.fail (.corruption "Zero length Linkfilename")
      else pure { decoding with file := { decoding.file with
        mTime := record.mTime
        extentStart := record.extentStart
        isSparse := record.isSparse || decoding.file.isSparse
        linkfiles := decoding.file.linkfiles ++ record.linkfiles } }) zbd := by
    obtain ⟨more, rfl⟩ := Nat.exists_eq_add_of_lt enough
    rw [show record.linkfiles.length + 3 + more + 1 = record.linkfiles.length + 2 + more + 1 + 1 by
        omega, decodeFields_mTime _ _ _ encodable.mTime,
      decodeFields_extentStart _ _ _ encodable.extentStart, sparse (by omega)]
  cases seq : record.walSeq with
  | none =>
      simp only [List.nil_append]
      rw [timed (by omega)]
      simp only [settled, seq, Option.getD_none, Option.isSome_none, Bool.false_or]
  | some walSeq =>
      obtain ⟨more, rfl⟩ := Nat.exists_eq_add_of_lt enough
      simp only
      rw [decodeFields_walSeq _ _ _ (encodable.walSeq walSeq seq), timed (by omega)]
      simp only [settled, seq, Option.getD_some, Option.isSome_some, Bool.true_or]

theorem decodeExtents_map {change : ZoneFile → ZoneFile}
    (apart : ∀ (file : ZoneFile) extents wal, change { file with extents := extents, wal := wal } =
      { change file with extents := extents, wal := wal })
    (same : ∀ file : ZoneFile, (change file).extents = file.extents ∧ (change file).wal = file.wal)
    (extents : List ZoneExtent) (file : ZoneFile) (zbd : ZonedBlockDevice) :
    decodeExtents extents (change file) zbd =
      (decodeExtents extents file >>= fun file => pure (change file)) zbd := by
  induction extents generalizing file zbd with
  | nil => rfl
  | cons extent extents induction =>
      rw [decodeExtents, decodeExtents, Program.bind_assoc, bind_read,
        bind_read, (same file).1, (same file).2]
      cases zbd.getIOZone extent.start with
      | none => rfl
      | some number =>
          simp only [← apart, Program.bind_assoc]
          rw [bind_update, bind_update]
          cases file.wal with
          | some log => exact induction _ _
          | none =>
              simp only [Option.isSome_none, Bool.false_eq_true, if_false, Program.bind_assoc]
              rcases run : getWAL extent.start (addUsed zbd ⟨extent.start, extent.length, number⟩) with
                ⟨failure | wal, middle⟩
              · rw [bind_of_error run, bind_of_error run]
              · rw [bind_of_ok run, bind_of_ok run]
                exact induction _ _

theorem decodeExtents_only {extents : List ZoneExtent} {file decoded : ZoneFile}
    {zbd next : ZonedBlockDevice} (run : decodeExtents extents file zbd = (.ok decoded, next)) :
    ∃ found wal, decoded = { file with extents := found, wal := wal } := by
  induction extents generalizing file zbd with
  | nil =>
      cases run
      exact ⟨_, _, rfl⟩
  | cons extent extents induction =>
      rcases bind_eq_ok run with ⟨device, middle, first, rest⟩
      cases found : device.getIOZone extent.start with
      | none =>
          simp only [found] at rest
          cases rest
      | some number =>
          simp only [found] at rest
          rcases bind_eq_ok rest with ⟨_, _, _, rest⟩
          split at rest
          · rcases bind_eq_ok rest with ⟨_, _, _, last⟩
            rcases @induction { file with extents := _, wal := _ } _ last with ⟨all, wal, same⟩
            exact ⟨all, wal, same⟩
          · rcases bind_eq_ok rest with ⟨_, _, _, last⟩
            rcases @induction { file with extents := _, wal := _ } _ last with ⟨all, wal, same⟩
            exact ⟨all, wal, same⟩

theorem length_encodeExtents (extents : List ZoneExtent) :
    extents.length ≤ (FileRecord.encodeExtents extents).length := by
  induction extents with
  | nil => exact Nat.le_refl _
  | cons extent extents induction =>
      rw [FileRecord.encodeExtents] at *
      rw [List.flatMap_cons, List.length_append, List.length_append, List.length_cons]
      have positive := length_putPrefixed_pos (encodeExtent extent)
      omega

theorem length_encodeLinks (links : List String) :
    links.length ≤ (FileRecord.encodeLinks links).length := by
  induction links with
  | nil => exact Nat.le_refl _
  | cons name links induction =>
      rw [FileRecord.encodeLinks] at *
      rw [List.flatMap_cons, List.length_append, List.length_append, List.length_cons]
      have positive := length_putPrefixed_pos (nameBytes name)
      omega

theorem decodeFields_fields {record : FileRecord} (encodable : record.Encodable) (extentStart : Nat)
    (zbd : ZonedBlockDevice) :
    decodeFields ((record.encodeFields extentStart).length + 1) (record.encodeFields extentStart)
        { file := { fileId := record.fileId } } zbd =
      (decodeExtents (record.extents.drop extentStart)
          { fileId := record.fileId, fileSize := record.fileSize, lifetime := record.lifetime } >>=
        fun file => if "" ∈ record.linkfiles then
            Program.fail (.corruption "Zero length Linkfilename")
          else pure (settled record
            { file := file, padSz := 0 + decodedPadding (record.extents.drop extentStart) })) zbd := by
  have extents := length_encodeExtents (record.extents.drop extentStart)
  have links := length_encodeLinks record.linkfiles
  have fits : ∀ extent ∈ record.extents.drop extentStart,
      extent.start < 2 ^ 64 ∧ extent.length < 2 ^ 64 :=
    fun extent member => encodable.extents extent (List.mem_of_mem_drop member)
  have total : (FileRecord.encodeExtents (record.extents.drop extentStart)).length +
      (FileRecord.encodeLinks record.linkfiles).length + 44 ≤
        (record.encodeFields extentStart).length := by
    simp only [FileRecord.encodeFields, putFixed32, putFixed64, List.length_append,
      Bytes.length_ofNat]
    omega
  obtain ⟨fuel, split⟩ : ∃ fuel, (record.encodeFields extentStart).length + 1 =
      fuel + (record.extents.drop extentStart).length + 1 + 1 ∧ record.linkfiles.length + 4 < fuel :=
    ⟨(record.encodeFields extentStart).length - 1 - (record.extents.drop extentStart).length,
      by omega, by omega⟩
  rw [split.1, FileRecord.encodeFields, decodeFields_fileSize _ _ _ encodable.fileSize,
    decodeFields_lifetime _ _ _ encodable.lifetime, decodeFields_extents fits]
  rcases run : decodeExtents (record.extents.drop extentStart)
      { fileId := record.fileId, fileSize := record.fileSize, lifetime := record.lifetime } zbd with
    ⟨failure | file, next⟩
  · rw [bind_of_error run, bind_of_error run]
  · rw [bind_of_ok run, bind_of_ok run]
    exact decodeFields_tail encodable split.2 _ _

theorem onDevice_eq {fs : FileSystem} {program : DeviceProgram Value} {outcome : Except IOStatus Value}
    {zbd : ZonedBlockDevice} (run : program fs.zbd = (outcome, zbd)) :
    onDevice program fs = (outcome, { fs with zbd := zbd }) := by
  simp only [onDevice, Program.within, run]

theorem decodeFromBytes_encodeTo (config : BuildConfig) {record : FileRecord}
    (encodable : record.Encodable) (extentStart : Nat) (fs : FileSystem) :
    decodeFromBytes config (record.encodeTo extentStart) fs =
      decodeFrom config record (record.extents.drop extentStart) fs := by
  have fits : ∀ extent ∈ record.extents.drop extentStart,
      extent.start < 2 ^ 64 ∧ extent.length < 2 ^ 64 :=
    fun extent member => encodable.extents extent (List.mem_of_mem_drop member)
  have first := decodeFields_fields encodable extentStart fs.zbd
  -- The fields around the extents are set first in the record-level decoder.
  have moved := @decodeExtents_map
    (fun file => { file with
      walSeq := record.walSeq.getD 0, mTime := record.mTime, extentStart := record.extentStart
      isSparse := record.isSparse, linkfiles := record.linkfiles
      appendBytesSinceLastBarrier :=
        if record.walSeq.isSome then
          (record.fileSize + decodedPadding (record.extents.drop extentStart)) % config.walBarrierSize
        else 0 })
    (fun _ _ _ => rfl) (fun _ => ⟨rfl, rfl⟩) (record.extents.drop extentStart)
    { fileId := record.fileId, fileSize := record.fileSize, lifetime := record.lifetime } fs.zbd
  rw [decodeFromBytes, FileRecord.encodeTo, getFixed32_put (by decide)]
  simp only [ne_eq, not_true_eq_false, if_false, getFixed64_put encodable.fileId]
  rw [decodeFrom]
  rcases run : decodeExtents (record.extents.drop extentStart)
      { fileId := record.fileId, fileSize := record.fileSize, lifetime := record.lifetime } fs.zbd with
    ⟨failure | file, zbd⟩
  · rw [bind_of_error run] at first moved
    have one : onDevice (decodeFields _ _ _) fs = (.error failure, { fs with zbd := zbd }) :=
      onDevice_eq first
    have two : onDevice (decodeExtents _ _) fs = (.error failure, { fs with zbd := zbd }) :=
      onDevice_eq moved
    rw [bind_of_error one, bind_of_error two]
  · rw [bind_of_ok run] at first moved
    have two : onDevice (decodeExtents _ _) fs = (.ok _, { fs with zbd := zbd }) :=
      onDevice_eq moved
    rw [bind_of_ok two]
    by_cases empty : "" ∈ record.linkfiles
    · rw [if_pos empty] at first ⊢
      have one : onDevice (decodeFields _ _ _) fs = (.error _, { fs with zbd := zbd }) :=
        onDevice_eq first
      rw [bind_of_error one]
      rfl
    · rw [if_neg empty] at first ⊢
      have one : onDevice (decodeFields _ _ _) fs = (.ok _, { fs with zbd := zbd }) :=
        onDevice_eq first
      rcases decodeExtents_only run with ⟨found, wal, only⟩
      subst only
      rw [bind_of_ok one, bind_read, bind_read, bind_update, bind_update]
      simp only [Decoding.finish, settled, Bool.or_false, List.nil_append, Nat.zero_add]

/-! ## Whole records -/

theorem onDevice_eq_ok {fs next : FileSystem} {program : DeviceProgram Value} {value : Value}
    (run : onDevice program fs = (.ok value, next)) : ∃ zbd, program fs.zbd = (.ok value, zbd) := by
  rcases inner : program fs.zbd with ⟨outcome, zbd⟩
  rw [onDevice_eq inner] at run
  exact ⟨zbd, by rw [(Prod.mk.inj run).1]⟩

theorem decodeFrom_object {config : BuildConfig} {record : FileRecord} {extents : List ZoneExtent}
    {fs next : FileSystem} {j : Nat} (run : decodeFrom config record extents fs = (.ok j, next)) :
    (next.object j).file.linkfiles = record.linkfiles ∧
      (next.object j).file.fileId = record.fileId := by
  rcases bind_eq_ok run with ⟨file, middle, first, rest⟩
  rcases onDevice_eq_ok first with ⟨zbd, inner⟩
  rcases decodeExtents_only inner with ⟨found, wal, only⟩
  subst only
  split at rest
  · cases rest
  · cases rest
    simp [FileSystem.object]

theorem length_flatMap_putPrefixed (records : List FileRecord) :
    records.length ≤ (records.flatMap fun record => putPrefixed (record.encodeTo 0)).length := by
  induction records with
  | nil => exact Nat.le_refl _
  | cons record records induction =>
      rw [List.flatMap_cons, List.length_append, List.length_cons]
      have positive := length_putPrefixed_pos (record.encodeTo 0)
      omega

theorem length_le_of_prefixed {records : List FileRecord} {record : FileRecord}
    (member : record ∈ records) :
    (record.encodeTo 0).length ≤
      (records.flatMap fun record => putPrefixed (record.encodeTo 0)).length := by
  have within : putPrefixed (record.encodeTo 0) <:+:
      records.flatMap fun record => putPrefixed (record.encodeTo 0) := by
    rw [List.flatMap_def]
    exact List.infix_of_mem_flatten (List.mem_map_of_mem member)
  have inner : (record.encodeTo 0).length ≤ (putPrefixed (record.encodeTo 0)).length := by
    simp [putPrefixed]
  exact inner.trans within.length_le

theorem decodeSnapshotBytes_encode (config : BuildConfig) {records : List FileRecord}
    (encodable : ∀ record ∈ records, record.Encodable)
    (sizes : ∀ record ∈ records, (record.encodeTo 0).length < 2 ^ 32) {fuel : Nat}
    (enough : records.length < fuel) (fs : FileSystem) :
    decodeSnapshotBytes config fuel
        (records.flatMap fun record => putPrefixed (record.encodeTo 0)) fs =
      decodeSnapshotFrom config records fs := by
  induction records generalizing fuel fs with
  | nil =>
      obtain ⟨fuel, rfl⟩ := Nat.exists_eq_add_of_lt enough
      rfl
  | cons record records induction =>
      obtain ⟨more, rfl⟩ := Nat.exists_eq_add_of_lt enough
      have onward := @induction (fun other member => encodable other (List.mem_cons_of_mem _ member))
        (fun other member => sizes other (List.mem_cons_of_mem _ member))
        ((record :: records).length + more) (by simp; omega)
      rw [List.flatMap_cons, decodeSnapshotBytes,
        getPrefixed_putPrefixed (sizes record List.mem_cons_self), decodeSnapshotFrom]
      simp only
      have same := decodeFromBytes_encodeTo config (encodable record List.mem_cons_self) 0 fs
      rw [List.drop_zero] at same
      rcases run : decodeFrom config record record.extents fs with ⟨failure | j, next⟩
      · rw [bind_of_error run, bind_of_error (same.trans run)]
      · rw [bind_of_ok run, bind_of_ok (same.trans run), bind_read, (decodeFrom_object run).1,
          bind_update, bind_update]
        rw [funext onward]

theorem decodeFileUpdateBytes_encode (config : BuildConfig) {record : FileRecord}
    (encodable : record.Encodable) (replace : Bool) (fs : FileSystem) :
    decodeFileUpdateBytes config (record.encodeTo record.nrSyncedExtents) replace fs =
      decodeFileUpdateFrom config record replace fs := by
  have same := decodeFromBytes_encodeTo config encodable record.nrSyncedExtents fs
  rw [decodeFileUpdateBytes, decodeFileUpdateFrom]
  rcases run : decodeFrom config record (record.extents.drop record.nrSyncedExtents) fs with
    ⟨failure | j, next⟩
  · rw [bind_of_error run, bind_of_error (same.trans run)]
  · rcases decodeFrom_object run with ⟨links, number⟩
    rw [bind_of_ok run, bind_of_ok (same.trans run), bind_read, bind_read]
    cases found : next.files.find? fun entry =>
        (next.object entry.2).file.fileId == record.fileId with
    | some entry => simp only [links, number, found]
    | none =>
        cases names : record.linkfiles with
        | nil | cons => simp only [links, number, found, names]

theorem tag_lt (entry : MetaRecord) : entry.tag < 2 ^ 32 ∧ entry.tag ≠ kEndRecord := by
  cases entry <;> simp [MetaRecord.tag, kCompleteFilesSnapshot, kFileUpdate, kFileReplace,
    kFileDeletion, kEndRecord]

theorem decodeData_encode (config : BuildConfig) {entry : MetaRecord} (encodable : entry.Encodable)
    (fs : FileSystem) : decodeData config entry.tag entry.data fs = decodeRecord config entry fs := by
  rcases encodable with ⟨size, fields⟩
  cases entry with
  | snapshot records =>
      rw [MetaRecord.tag, decodeData, if_pos rfl, decodeRecord]
      have onward (middle : FileSystem) := @decodeSnapshotBytes_encode config records fields
        (fun record member => (length_le_of_prefixed member).trans_lt size)
        ((MetaRecord.snapshot records).data.length + 1)
        (Nat.lt_succ_of_le (length_flatMap_putPrefixed records)) middle
      rw [← funext onward]
      rfl
  | update record => exact decodeFileUpdateBytes_encode config fields false fs
  | replace record => exact decodeFileUpdateBytes_encode config fields true fs
  | deletion fileId name =>
      have short : (nameBytes name).length < 2 ^ 32 := by
        refine Nat.lt_of_le_of_lt ?_ size
        simp [MetaRecord.data, putPrefixed]
        omega
      have found : decodeFileDeletionBytes (putFixed64 fileId ++ putPrefixed (nameBytes name)) =
          decodeFileDeletionFrom fileId name := by
        have last := getPrefixed_putPrefixed short []
        rw [List.append_nil] at last
        rw [decodeFileDeletionBytes, getFixed64_put fields]
        simp only [last, nameOf_nameBytes]
      exact congrFun found fs

theorem recoverFromBytes_encode (config : BuildConfig) {log : List MetaRecord}
    (encodable : ∀ entry ∈ log, entry.Encodable) (fs : FileSystem) :
    recoverFromBytes config (log.map MetaRecord.encode ++ [[]]) fs = recoverFrom config log fs := by
  induction log generalizing fs with
  | nil => rfl
  | cons entry log induction =>
      have onward (middle : FileSystem) :=
        induction (fun other member => encodable other (List.mem_cons_of_mem _ member)) middle
      have fits := encodable entry List.mem_cons_self
      rcases tag_lt entry with ⟨small, goes⟩
      have last := getPrefixed_putPrefixed fits.1 []
      rw [List.append_nil] at last
      rw [List.map_cons, List.cons_append, recoverFromBytes, MetaRecord.encode, getFixed32_put small]
      simp only [if_neg goes, last]
      rw [recoverFrom, bind_of_eq (decodeData_encode config fits fs), funext onward]

end FileSystem

end Zwal
