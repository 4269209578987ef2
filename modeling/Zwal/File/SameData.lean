import Zwal.Device.Grants
import Zwal.File.WalReader

/-! # Reads see the data of a file

Two states of a file with the same data: its links, the number of extents that count as
synced and the tokens of other zones may differ. What is read from the one is read from the
other, as long as the first link of both is the name of a write-ahead log or of none. -/

namespace Zwal

namespace ZonedBlockDevice

structure AsReadable (one two : ZonedBlockDevice) : Prop where
  replies : two.replies = one.replies
  blockSize : two.blockSize = one.blockSize
  walZones : two.walZones = one.walZones
  busy : ∀ number, (two.zone number).busy = (one.zone number).busy
  openIoZones : two.openIoZones = one.openIoZones
  maxNrOpenIoZones : two.maxNrOpenIoZones = one.maxNrOpenIoZones
  activeIoZones : two.activeIoZones ≤ one.activeIoZones
  maxNrActiveIoZones : two.maxNrActiveIoZones = one.maxNrActiveIoZones

theorem alike_reply (success : Int) : Program.Alike AsReadable (reply success) (reply success) := by
  intro one two same
  rw [reply, reply, same.replies]
  cases one.replies with
  | nil => exact ⟨rfl, same⟩
  | cons answer rest => exact ⟨rfl, { same with replies := rfl }⟩

theorem alike_request (failure : IOStatus) :
    Program.Alike AsReadable (request failure) (request failure) := by
  refine (alike_reply 0).bind fun answer => ?_
  split
  · exact .fail _
  · exact .pure _

theorem alike_readDevice (device : Nat → UInt8) (offset size : Nat) :
    Program.Alike AsReadable (readDevice device offset size) (readDevice device offset size) := by
  intro one two same
  rw [readDevice, readDevice, same.replies]
  split
  · exact ⟨rfl, same⟩
  · exact ⟨rfl, { same with replies := rfl }⟩

theorem alike_openOnceLog (log : Nat) :
    Program.Alike AsReadable (openOnceLog log) (openOnceLog log) :=
  (Program.Alike.update fun _ _ same => { same with }).bind fun _ => (alike_request _).attempt

theorem AsReadable.tokens {one two : ZonedBlockDevice} (same : AsReadable one two)
    (tokens : Tokens one) : Tokens two := by
  have opened := tokens.opened
  have active := tokens.active
  have fewer := same.activeIoZones
  constructor
  · rw [same.openIoZones, same.maxNrOpenIoZones]
    exact opened
  · rw [same.maxNrActiveIoZones]
    omega

theorem follows_takeWalTokens : Program.Follows AsReadable takeWalTokens takeWalTokens := by
  intro one two same value next run
  rcases takeWalTokens_cases one with ⟨tokens, taken⟩ | ⟨_, waits⟩
  · rw [taken] at run
    cases run
    exact ⟨_, takeWalTokens_of_tokens (same.tokens tokens), { same with
      openIoZones := congrArg (· + 1) same.openIoZones
      activeIoZones := Int.add_le_add_right same.activeIoZones 1 }⟩
  · rw [waits] at run
    cases run

theorem AsReadable.setBusy {one two : ZonedBlockDevice} (same : AsReadable one two) (number : Nat)
    (busy : Bool) : AsReadable (one.setBusy number busy) (two.setBusy number busy) :=
  { same with
    busy := fun other => by
      by_cases here : other = number
      · rw [here, ZonedBlockDevice.setBusy, zone_setZone, ZonedBlockDevice.setBusy, zone_setZone]
      · rw [ZonedBlockDevice.setBusy, zone_setZone_of_ne here, ZonedBlockDevice.setBusy,
          zone_setZone_of_ne here]
        exact same.busy other }

theorem follows_openWALZone (active : Nat) :
    Program.Follows AsReadable (openWALZone active) (openWALZone active) := by
  refine follows_takeWalTokens.bind fun _ => .read_bind fun one two same => ?_
  rw [same.walZones]
  cases one.walZones[active - zenfsMetaZones - zenfsFlakyZones]? with
  | none => exact .fail _ _
  | some number =>
      simp only [same.busy]
      split
      · exact .fail _ _
      · refine .of_alike ((Program.Alike.update fun _ _ still => still.setBusy number true).bind ?_)
        exact fun _ => (alike_openOnceLog number).bind fun status => .pure _

end ZonedBlockDevice

def ZoneFile.labelled (links : List String) (count : Nat) (file : ZoneFile) : ZoneFile :=
  { file with linkfiles := links, nrSyncedExtents := count }

namespace FileState

open ZonedBlockDevice

/-- Whether the first name, if there is one, is that of a log. -/
def readsLog (state : FileState) : Option Bool :=
  state.file.getFilename.map fun name => endsWith name ".log"

structure SameData (one two : FileState) : Prop where
  file : ∃ links count, two.file = one.file.labelled links count
  readsLog : two.readsLog = one.readsLog
  zbd : one.zbd.AsReadable two.zbd

structure SameData.Fields (one two : ZoneFile) : Prop where
  extents : two.extents = one.extents
  fileSize : two.fileSize = one.fileSize
  wal : two.wal = one.wal
  loadedWalChunks : two.loadedWalChunks = one.loadedWalChunks
  chunkId : two.chunkId = one.chunkId
  walEntries : two.walEntries = one.walEntries
  readerOffset : two.readerOffset = one.readerOffset
  readerOffsetIndex : two.readerOffsetIndex = one.readerOffsetIndex

theorem SameData.fields {one two : FileState} (same : SameData one two) :
    SameData.Fields one.file two.file := by
  rcases same.file with ⟨links, count, equal⟩
  rw [equal]
  exact ⟨rfl, rfl, rfl, rfl, rfl, rfl, rfl, rfl⟩

def Unnamed (change : ZoneFile → ZoneFile) : Prop :=
  (∀ file links count, change (file.labelled links count) = (change file).labelled links count) ∧
    ∀ file, (change file).linkfiles = file.linkfiles

theorem alike_setFile {change : ZoneFile → ZoneFile} (unnamed : Unnamed change) :
    Program.Alike SameData (setFile change) (setFile change) := by
  refine .update fun one two same => ?_
  rcases same.file with ⟨names, count, equal⟩
  refine ⟨⟨names, count, ?_⟩, ?_, same.zbd⟩
  · rw [equal, unnamed.1]
  · have kind := same.readsLog
    simp only [FileState.readsLog, ZoneFile.getFilename, equal] at kind ⊢
    rw [unnamed.1, unnamed.2]
    exact kind

theorem follows_onDevice {first second : DeviceProgram Value}
    (follows : Program.Follows AsReadable first second) :
    Program.Follows SameData (onDevice first) (onDevice second) := by
  intro one two same value next run
  simp only [onDevice, Program.within] at run
  rcases ran : first one.zbd with ⟨outcome, zbd⟩
  rw [ran] at run
  cases run
  rcases follows one.zbd two.zbd same.zbd value zbd ran with ⟨other, there, still⟩
  refine ⟨{ two with zbd := other }, ?_, ⟨same.file, same.readsLog, still⟩⟩
  simp only [onDevice, Program.within, there]

theorem alike_onReadable {first second : DeviceProgram Value}
    (alike : Program.Alike AsReadable first second) :
    Program.Alike SameData (onDevice first) (onDevice second) :=
  alike.within (fun _ _ same => same.zbd) fun _ _ same _ _ still => ⟨same.file, same.readsLog, still⟩

/-! ## Reading a write-ahead log -/

theorem follows_ensureLog : Program.Follows SameData ensureLog ensureLog := by
  refine .read_bind fun one two same => ?_
  rw [same.fields.wal, same.fields.extents]
  cases one.file.wal with
  | some => exact .of_alike (.pure _)
  | none =>
      cases one.file.extents with
      | nil => exact .fail _ _
      | cons extent rest =>
          refine (follows_onDevice (follows_openWALZone extent.zone)).bind fun opened => ?_
          rcases opened with ⟨log, status⟩
          refine .of_alike (Program.Alike.bind ?_ fun _ => ?_)
          · exact alike_setFile ⟨fun _ _ _ => rfl, fun _ => rfl⟩
          · cases status with
            | error failure => exact .fail _
            | ok => exact .pure _

theorem alike_recoverWALChunk (env : ReaderEnv) {store : List WalEntry → ZoneFile → ZoneFile}
    (unnamed : ∀ entries, Unnamed (store entries)) (start stop : Nat) :
    Program.Alike SameData (recoverWALChunk env store start stop)
      (recoverWALChunk env store start stop) := by
  have stores (entries : List WalEntry) :
      Program.Alike SameData (setFile (store entries)) (setFile (store entries)) :=
    alike_setFile (unnamed entries)
  refine (stores []).bind fun _ => (alike_onReadable (alike_request _)).bind fun _ => ?_
  refine .read_bind fun one two same => ?_
  rw [same.zbd.blockSize]
  refine (stores _).bind fun _ => ?_
  split
  · exact .fail _
  · exact stores _

theorem unnamed_storeChunk (entries : List WalEntry) : Unnamed (storeChunk entries) :=
  ⟨fun _ _ _ => rfl, fun _ => rfl⟩

theorem unnamed_advanceChunk (jump : Nat) : Unnamed (advanceChunk jump) :=
  ⟨fun _ _ _ => rfl, fun _ => rfl⟩

theorem follows_loadChunks (config : BuildConfig) (env : ReaderEnv) (fuel offset : Nat) :
    Program.Follows SameData (loadChunks config env fuel offset)
      (loadChunks config env fuel offset) := by
  induction fuel with
  | zero => exact .fail _ _
  | succ fuel induction =>
      refine .read_bind fun one two same => ?_
      rw [same.zbd.blockSize, same.fields.loadedWalChunks, same.fields.chunkId]
      simp only
      split
      · exact .of_alike (.pure _)
      · refine (Program.Follows.of_alike (alike_recoverWALChunk env unnamed_storeChunk _ _)).bind
          fun _ => ?_
        refine Program.Follows.bind (.of_alike (alike_setFile (unnamed_advanceChunk _))) fun _ => ?_
        refine .read_bind fun now beside still => ?_
        rw [still.fields.loadedWalChunks]
        split
        · exact induction
        · exact .of_alike (.pure _)

theorem follows_recoverEntireWAL (env : ReaderEnv) :
    Program.Follows SameData (recoverEntireWAL env) (recoverEntireWAL env) := by
  refine .read_bind fun one two same => ?_
  rw [same.fields.extents, same.zbd.blockSize]
  split
  · exact .of_alike (.pure _)
  · refine follows_ensureLog.bind fun _ => ?_
    apply Program.Follows.of_alike
    apply alike_recoverWALChunk
    exact fun _ => ⟨fun _ _ _ => rfl, fun _ => rfl⟩

section Wal

variable (build : ReaderBuild) (config : BuildConfig) (env : ReaderEnv)

theorem follows_tryRecoverWAL (offset : Nat) :
    Program.Follows SameData (tryRecoverWAL build config env offset)
      (tryRecoverWAL build config env offset) := by
  refine .read_bind fun one two same => ?_
  rw [same.fields.loadedWalChunks, same.fields.fileSize, same.fields.walEntries]
  cases build with
  | walBarriers =>
      simp only
      split
      · exact .of_alike (.pure _)
      · exact follows_ensureLog.bind fun _ => follows_loadChunks _ _ _ _
  | wholeLog =>
      simp only
      split
      · exact follows_recoverEntireWAL env
      · exact .of_alike (.pure _)

theorem follows_nextWALExtent (offset : Nat) (point : ReadPoint) :
    Program.Follows SameData (nextWALExtent build config env offset point)
      (nextWALExtent build config env offset point) := by
  refine (follows_tryRecoverWAL build config env _).bind fun _ => ?_
  refine .read_bind fun one two same => ?_
  rw [same.fields.extents]
  cases ZoneFile.getWALExtent one.file.extents point.rOff point.index with
  | none => exact .of_alike (.pure _)
  | some found => exact .of_alike (.pure _)

theorem entryAt_same {one two : ZoneFile} (same : SameData.Fields one two) (index : Nat) :
    entryAt build two index = entryAt build one index := by
  cases build with
  | walBarriers => rw [entryAt, entryAt, same.loadedWalChunks]
  | wholeLog => rw [entryAt, entryAt, same.walEntries]

theorem follows_walReadLoop (direct : Bool) (offset rSz fuel : Nat) (point : ReadPoint) :
    Program.Follows SameData (walReadLoop build config env direct offset rSz fuel point)
      (walReadLoop build config env direct offset rSz fuel point) := by
  induction fuel generalizing point with
  | zero =>
      rw [walReadLoop]
      split
      · exact .of_alike (.pure _)
      · exact .fail _ _
  | succ fuel induction =>
      rw [walReadLoop]
      split
      · exact .of_alike (.pure _)
      · refine .read_bind fun one two same => ?_
        rw [same.zbd.blockSize, entryAt_same build same.fields]
        simp only
        generalize (if (direct && _) = true then _ else _ : Nat) = bytesToAlign
        cases entryAt build one.file point.index with
        | none => exact .fail _ _
        | some payload =>
            simp only
            split
            · exact .fail _ _
            · split
              · exact .of_alike (.pure _)
              · split
                · refine (follows_nextWALExtent build config env offset _).bind fun next => ?_
                  cases next with
                  | none => exact .of_alike (.pure _)
                  | some next => exact induction next
                · exact induction _

theorem follows_leaveExtent (offset : Nat) (point : ReadPoint) :
    Program.Follows SameData (leaveExtent build config env offset point)
      (leaveExtent build config env offset point) := by
  rw [leaveExtent]
  split
  · refine (follows_nextWALExtent build config env offset point).bind fun next => ?_
    cases next with
    | none => exact .of_alike (.pure _)
    | some next => exact .of_alike (.pure _)
  · exact .of_alike (.pure _)

theorem follows_walRead (offset n : Nat) (direct : Bool) :
    Program.Follows SameData (walRead build config env offset n direct)
      (walRead build config env offset n direct) := by
  refine (follows_tryRecoverWAL build config env offset).bind fun _ => ?_
  refine .read_bind fun one two same => ?_
  simp only [same.fields.extents, same.fields.readerOffsetIndex, same.fields.fileSize,
    same.fields.readerOffset]
  cases ZoneFile.getWALExtent one.file.extents 0 one.file.readerOffsetIndex with
  | none => exact .of_alike (.pure _)
  | some found =>
      refine (follows_walReadLoop build config env direct offset _ _ _).bind fun point => ?_
      refine (follows_leaveExtent build config env offset point).bind fun point => ?_
      refine .of_alike (Program.Alike.bind ?_ fun _ => .pure _)
      exact alike_setFile ⟨fun _ _ _ => rfl, fun _ => rfl⟩

end Wal

/-! ## Reading other files -/

theorem alike_readLoop (env : ReaderEnv) (direct : Bool) (size : Nat → Nat → Nat → Nat)
    (offset rSz fuel extentEnd rOff : Nat) (out : Bytes) (r : Int) :
    Program.Alike SameData (readLoop env direct size offset rSz fuel extentEnd rOff out r)
      (readLoop env direct size offset rSz fuel extentEnd rOff out r) := by
  induction fuel generalizing extentEnd rOff out r with
  | zero =>
      rw [readLoop]
      split
      · exact .pure _
      · exact .fail _
  | succ fuel induction =>
      rw [readLoop]
      split
      · exact .pure _
      · refine .read_bind fun one two same => ?_
        rw [same.zbd.blockSize, same.fields.extents]
        refine (alike_onReadable (alike_readDevice _ _ _)).bind fun read => ?_
        split
        · exact .pure _
        · exact .pure _
        · simp only
          split
          · cases ZoneFile.getExtent one.file.extents _ with
            | none => exact .pure _
            | some found => exact induction _ _ _ _
          · exact induction _ _ _ _

theorem alike_fileRead (env : ReaderEnv) (offset n : Nat) (direct : Bool) :
    Program.Alike SameData (fileRead env offset n direct) (fileRead env offset n direct) := by
  refine .read_bind fun one two same => ?_
  simp only [same.fields.extents, same.fields.fileSize]
  cases ZoneFile.getExtent one.file.extents offset with
  | none => exact .pure _
  | some found =>
      refine (alike_readLoop env direct _ offset _ _ _ _ _ _).bind fun loop => ?_
      refine Program.Alike.bind ?_ fun _ => ?_
      · exact alike_setFile ⟨fun _ _ _ => rfl, fun _ => rfl⟩
      · split
        · exact .fail _
        · exact .pure _

theorem follows_positionedRead (build : ReaderBuild) (config : BuildConfig) (env : ReaderEnv)
    (offset n : Nat) (direct : Bool) :
    Program.Follows SameData (positionedRead build config env offset n direct)
      (positionedRead build config env offset n direct) := by
  refine .read_bind fun one two same => ?_
  have missing : two.file.getFilename.isNone = one.file.getFilename.isNone := by
    simpa only [readsLog, Option.isNone_map] using congrArg Option.isNone same.readsLog
  have kind : two.file.hasLogName = one.file.hasLogName := by
    simpa only [readsLog, ZoneFile.hasLogName, Option.any_map, id] using
      congrArg (Option.any id) same.readsLog
  rw [same.fields.fileSize, missing, kind]
  split
  · exact .of_alike (.fail _)
  · split
    · exact .of_alike (.pure _)
    · split
      · exact follows_walRead build config env offset n direct
      · exact .of_alike (alike_fileRead env offset n direct)

end FileState

end Zwal
