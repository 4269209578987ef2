import Zwal.Fs.Mount

/-! # The metadata zones

The zones behind `metaLog`, with whole records: how `PersistRecord` and `RollMetaZoneLocked`
write them and how `Mount` finds the log to recover from. Every write is accepted, and a zone
is as long as its capacity, so that no record is read across its end. -/

namespace Zwal

def MetaRecord.isSnapshot : MetaRecord → Bool
  | .snapshot _ => true
  | _ => false

/-- What is read from a zone that is not empty: the sequence number of its superblock and the
records up to an end record. -/
structure MetaZone where
  seq : Nat
  records : List MetaRecord
  ended : Bool

abbrev MetaDisk := Nat → Option MetaZone

/-- `Finish` is left out: it changes no record. -/
inductive MetaCommand
  | superblock (zone seq : Nat)
  | record (zone : Nat) (entry : MetaRecord)
  | endRecord (zone : Nat)
  | reset (zone : Nat)

def MetaDisk.perform (disk : MetaDisk) : MetaCommand → MetaDisk
  | .superblock zone seq => Function.update disk zone (some ⟨seq, [], false⟩)
  | .record zone entry => Function.update disk zone ((disk zone).map fun log =>
      if log.ended then log else { log with records := log.records ++ [entry] })
  | .endRecord zone => Function.update disk zone ((disk zone).map fun log => { log with ended := true })
  | .reset zone => Function.update disk zone none

/-- The zone of `meta_log_`, the only busy one, and `sequence_` of `superblock_`. -/
structure MetaPlace where
  current : Nat
  seq : Nat

/-- `AllocateMetaZone` takes the first zone that is not busy; `EncodeTo` counts. -/
def MetaPlace.rolled (place : MetaPlace) : MetaPlace :=
  ⟨if place.current = 0 then 1 else 0, (place.seq + 1) % 2 ^ 32⟩

/-- `PersistRecord` in a zone with space, and the roll in a full one or at the end of `Mount`:
`room` is whether the old zone has capacity left, `files` the table in memory. -/
inductive MetaWrite
  | add (entry : MetaRecord)
  | roll (room : Bool) (files : List FileRecord)

namespace MetaWrite

def moving (place : MetaPlace) (files : List FileRecord) : List MetaCommand :=
  [.superblock place.rolled.current place.rolled.seq,
    .record place.rolled.current (.snapshot files), .reset place.current]

def commands (disk : MetaDisk) (place : MetaPlace) : MetaWrite → List MetaCommand
  | add entry => [.record place.current entry]
  | roll room files =>
      (if (disk place.rolled.current).isSome then [.reset place.rolled.current] else []) ++
      (if room then [.endRecord place.current] else []) ++ moving place files

def place (place : MetaPlace) : MetaWrite → MetaPlace
  | add _ => place
  | roll _ _ => place.rolled

def log (log : List MetaRecord) : MetaWrite → List MetaRecord
  | add entry => log ++ [entry]
  | roll _ files => [.snapshot files]

end MetaWrite

namespace FileSystem

/-- The write of `commit`. -/
def metaWrite (room : Bool) (k : Nat) (record : FileRecord) (entry : MetaRecord) (fs : FileSystem) :
    MetaWrite :=
  if fs.rolls.headD false then .roll room (fs.encodeSnapshot k record) else .add entry

theorem commit_metaLog (room : Bool) (k : Nat) (record : FileRecord) (entry : MetaRecord)
    (fs : FileSystem) :
    (fs.commit k record entry).metaLog = (fs.metaWrite room k record entry).log fs.metaLog := by
  rw [commit, metaWrite]
  rcases fs.rolls with _ | ⟨_ | _, rest⟩
  all_goals rfl

/-- `std::greater`. -/
def descending (one two : Nat × Nat) : Bool := two.1 < one.1 || (two.1 == one.1 && two.2 ≤ one.2)

def tryLogs (config : BuildConfig) (disk : MetaDisk) : List (Nat × Nat) → FsProgram (Nat × Nat)
  | [] => Program.fail (.ioError "Failed to mount filesystem")
  | (seq, zone) :: rest => do
      let records := ((disk zone).map MetaZone.records).getD []
      recoverFrom config records
      if records.any MetaRecord.isSnapshot then pure (seq, zone) else tryLogs config disk rest

/-- `Mount` up to the choice of `superblock_` and `meta_log_`. -/
def mountLog (config : BuildConfig) (count : Nat) (disk : MetaDisk) : FsProgram (Nat × Nat) :=
  tryLogs config disk (((List.range count).filterMap fun zone =>
    (disk zone).map fun log => (log.seq, zone)).mergeSort descending)

end FileSystem

end Zwal
