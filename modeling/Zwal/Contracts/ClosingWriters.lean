import Zwal.File.Writer
import Zwal.Fs.Runs

/-! # What a destroyed writer leaves behind

`~ZonedWritableFile` calls `CloseInternal`, which flushes the file and calls `CloseWR`; that
persists the file, releases the write lock and calls `CloseActiveZone`, which closes the zone,
releases it and returns its token. Each of them returns at its first error. A record is refused
if neither it nor a roll of the metadata zone can be written. -/

namespace Zwal.ClosingWriters

open FileState ZonedBlockDevice

/-! ## Answers -/

/-- The record of a file is taken. None is written for a deleted file, but its name is read. -/
def Recordable (file : ZoneFile) (answers : List Int) : Prop :=
  if file.isDeleted then file.linkfiles ≠ [] else 0 ≤ answers.headD 0

instance (file : ZoneFile) (answers : List Int) : Decidable (Recordable file answers) :=
  inferInstanceAs (Decidable (ite _ _ _))

def afterRecord (file : ZoneFile) (answers : List Int) : List Int :=
  if file.isDeleted then answers else answers.tail

/-- Nothing that closing looks at has changed but the answers left. -/
structure Quiet (left : List Int) (before after : FileState) : Prop where
  isWal : after.file.isWal = before.file.isWal
  wal : after.file.wal = before.file.wal
  isDeleted : after.file.isDeleted = before.file.isDeleted
  linkfiles : after.file.linkfiles = before.file.linkfiles
  activeZone : after.file.activeZone = before.file.activeZone
  lock : after.file.openForWr = before.file.openForWr
  zone : ∀ number, (after.zbd.zone number).isEmpty = (before.zbd.zone number).isEmpty ∧
    (after.zbd.zone number).isFull = (before.zbd.zone number).isFull
  opened : after.zbd.openIoZones = before.zbd.openIoZones
  replies : after.zbd.replies = left

section Quiet

variable {before middle after : FileState} {left rest answers : List Int}

theorem Quiet.trans (one : Quiet left before middle) (two : Quiet rest middle after) :
    Quiet rest before after where
  isWal := two.isWal.trans one.isWal
  wal := two.wal.trans one.wal
  isDeleted := two.isDeleted.trans one.isDeleted
  linkfiles := two.linkfiles.trans one.linkfiles
  activeZone := two.activeZone.trans one.activeZone
  lock := two.lock.trans one.lock
  zone number := ⟨(two.zone number).1.trans (one.zone number).1,
    (two.zone number).2.trans (one.zone number).2⟩
  opened := two.opened.trans one.opened
  replies := two.replies

theorem Quiet.afterRecord (quiet : Quiet left before after) :
    ClosingWriters.afterRecord after.file answers = ClosingWriters.afterRecord before.file answers := by
  rw [ClosingWriters.afterRecord, ClosingWriters.afterRecord, quiet.isDeleted]

end Quiet

theorem Quiet.refl (state : FileState) : Quiet state.zbd.replies state state :=
  ⟨rfl, rfl, rfl, rfl, rfl, rfl, fun _ => ⟨rfl, rfl⟩, rfl, rfl⟩

def Persisted (state : FileState) : Except IOStatus Unit × FileState → Prop
  | (.ok _, next) => Recordable state.file state.zbd.replies ∧
      Quiet (afterRecord state.file state.zbd.replies) state next
  | (.error _, next) => ¬ Recordable state.file state.zbd.replies ∧ next.file = state.file

inductive HandleCall where
  | append (data : Bytes)
  | positionedAppend (data : Bytes) (offset : Nat)
  | truncate (size : Nat)
  | sync
  | fsync
  | rangeSync (offset nbytes : Nat)
  | close
  deriving Repr

section Life

variable (config : BuildConfig) (fuel : Nat)

def HandleCall.run : HandleCall → WritableProgram Unit
  | .append data => WritableFile.append config fuel data
  | .positionedAppend data offset => WritableFile.positionedAppend config fuel data offset
  | .truncate size => WritableFile.truncate size
  | .sync => WritableFile.sync config fuel
  | .fsync => WritableFile.fsync config fuel
  | .rangeSync offset nbytes => WritableFile.rangeSync config fuel offset nbytes
  | .close => WritableFile.close config fuel

/-- The handle after calls that may each have failed. -/
def afterCalls (calls : List HandleCall) (writer : WritableFile) : WritableFile :=
  calls.foldl (fun writer call => (call.run config fuel writer).2) writer

variable {config fuel}

end Life

/-- A direct writer of a new file, and the answers its device will give. -/
def newWriter (replies : List Int) : WritableFile :=
  WritableFile.create smallConfig (FileSystem.emptyDevice [19] 1024 640 64 replies)
    { linkfiles := ["/a"], openForWr := true } false

/-- Before the block is written the device takes a record. -/
def block : HandleCall := .append (List.replicate 64 7)

end Zwal.ClosingWriters
