import Zwal.Device.Zone
import Zwal.Foundation.Journal

/-! # Traces of requests

Projections of a trace: the once-logs it opened, the entries it appended and the
journal it wrote to one log. -/

namespace Zwal

namespace IoEvent

def usedLog : IoEvent → Option Nat
  | .zoneAppend call => some call.log
  | .walSync log => some log
  | _ => none

def isControl : IoEvent → Bool
  | .openLog _ | .walSync _ | .walSyncFailed _ | .persist _ => true
  | .zoneAppend _ | .write _ | .finish _ | .reset _ _ | .complete _
  | .lose _ _ => false

def isFailedSync : IoEvent → Bool
  | .walSyncFailed _ => true
  | _ => false

def toJournal (log : Nat) : IoEvent → Option (Journal.Event AppendCall)
  | .zoneAppend call => if call.log = log then some (.append call) else none
  | .walSync other => if other = log then some .sync else none
  | _ => none

end IoEvent

def openedLogs (trace : List IoEvent) : List Nat :=
  trace.filterMap fun
    | .openLog log => some log
    | _ => none

def appendCalls (trace : List IoEvent) : List AppendCall :=
  trace.filterMap fun
    | .zoneAppend call => some call
    | _ => none

def journal (log : Nat) (trace : List IoEvent) : List (Journal.Event AppendCall) :=
  trace.filterMap (IoEvent.toJournal log)

@[simp] theorem openedLogs_append (first second : List IoEvent) :
    openedLogs (first ++ second) = openedLogs first ++ openedLogs second :=
  List.filterMap_append

@[simp] theorem appendCalls_append (first second : List IoEvent) :
    appendCalls (first ++ second) = appendCalls first ++ appendCalls second :=
  List.filterMap_append

@[simp] theorem journal_append (log : Nat) (first second : List IoEvent) :
    journal log (first ++ second) = journal log first ++ journal log second :=
  List.filterMap_append

theorem appendCalls_eq_nil {control : List IoEvent}
    (quiet : ∀ event ∈ control, event.isControl = true) : appendCalls control = [] := by
  refine List.filterMap_eq_nil_iff.mpr fun event member => ?_
  have kind := quiet event member
  cases event <;> simp_all [IoEvent.isControl]

theorem records_journal (log : Nat) (trace : List IoEvent) :
    Journal.records (journal log trace) = (appendCalls trace).filter fun call => call.log = log := by
  induction trace with
  | nil => rfl
  | cons event rest induction =>
      cases event
      case zoneAppend call =>
        by_cases same : call.log = log <;>
          simp_all [journal, appendCalls, IoEvent.toJournal, Journal.records]
      case walSync other =>
        by_cases same : other = log <;>
          simp_all [journal, appendCalls, IoEvent.toJournal, Journal.records]
      all_goals exact induction

theorem journal_split {log : Nat} {trace : List IoEvent}
    {early late : List (Journal.Event AppendCall)} {call : AppendCall}
    (split : journal log trace = early ++ .append call :: late) :
    ∃ before after, trace = before ++ .zoneAppend call :: after ∧ journal log before = early := by
  rcases List.filterMap_eq_append_iff.mp split with ⟨first, rest, rfl, firstEarly, restLate⟩
  rcases List.filterMap_eq_cons_iff.mp restLate with ⟨skipped, event, after, rfl, none, here, _⟩
  have nothing : journal log skipped = [] := List.filterMap_eq_nil_iff.mpr none
  cases event with
  | zoneAppend other =>
      rw [IoEvent.toJournal] at here
      split at here
      · cases here
        exact ⟨first ++ skipped, after, by simp, by rw [journal_append, nothing, List.append_nil]; exact firstEarly⟩
      · cases here
  | walSync other =>
      rw [IoEvent.toJournal] at here
      split at here <;> cases here
  | _ => cases here

/-! ## Entries that may be lost -/

def IoEvent.track (waiting : List AppendCall) : IoEvent → List AppendCall
  | .zoneAppend call => waiting ++ [call]
  | .walSync log => waiting.filter fun call => call.log ≠ log
  | _ => waiting

/-- The entries appended since the last sync of their log. -/
def unsynced (trace : List IoEvent) : List AppendCall := trace.foldl IoEvent.track []

@[simp] theorem unsynced_nil : unsynced [] = [] := rfl

@[simp] theorem unsynced_append (trace : List IoEvent) (event : IoEvent) :
    unsynced (trace ++ [event]) = event.track (unsynced trace) := by
  simp [unsynced]

theorem pending_journal (log : Nat) (trace : List IoEvent) :
    Journal.pending (journal log trace) = (unsynced trace).filter fun call => call.log = log := by
  induction trace using List.reverseRecOn with
  | nil => rfl
  | append_singleton trace event induction =>
      rw [journal_append, unsynced_append]
      cases event
      case zoneAppend call =>
        by_cases same : call.log = log
        all_goals simp [journal, IoEvent.toJournal, IoEvent.track, same]
        all_goals exact induction
      case walSync other =>
        by_cases same : other = log
        · simp [journal, IoEvent.toJournal, IoEvent.track, same]
        · have apart : ((unsynced trace).filter fun call => call.log ≠ other).filter
              (fun call => call.log = log) = (unsynced trace).filter fun call => call.log = log := by
            rw [List.filter_filter]
            refine List.filter_congr fun call _ => ?_
            by_cases here : call.log = log <;> simp [here, Ne.symm same]
          simp only [IoEvent.track, apart]
          simpa [journal, IoEvent.toJournal, same] using induction
      all_goals
        show Journal.pending (journal log trace ++ []) = _
        rw [List.append_nil]
        exact induction

theorem unsynced_control (trace : List IoEvent) {control : List IoEvent}
    (quiet : ∀ event ∈ control, event.isControl = true) :
    (unsynced (trace ++ control)).Sublist (unsynced trace) := by
  induction control using List.reverseRecOn with
  | nil => simp
  | append_singleton control event induction =>
      have fewer := induction fun other member => quiet other (by simp [member])
      have kind := quiet event (by simp)
      rw [← List.append_assoc, unsynced_append]
      cases event
      case walSync log => exact (List.filter_sublist).trans fewer
      case zoneAppend => simp [IoEvent.isControl] at kind
      all_goals exact fewer

def Settled (trace : List IoEvent) : Prop :=
  ∀ before record after, trace = before ++ .persist record :: after → unsynced before = []

theorem Settled.append {trace : List IoEvent} (settled : Settled trace) {event : IoEvent}
    (persists : ∀ record, event = .persist record → unsynced trace = []) :
    Settled (trace ++ [event]) := by
  intro before record after split
  rcases List.eq_nil_or_concat after with rfl | ⟨init, last, rfl⟩
  · rcases List.append_inj' split rfl with ⟨rfl, same⟩
    exact persists record (List.singleton_inj.mp same)
  · have assembled : trace ++ [event] = (before ++ .persist record :: init) ++ [last] := by
      simpa using split
    exact settled before record init (List.append_inj' assembled rfl).1

theorem Settled.control {trace : List IoEvent} (settled : Settled trace)
    (idle : unsynced trace = []) {control : List IoEvent}
    (quiet : ∀ event ∈ control, event.isControl = true) : Settled (trace ++ control) := by
  induction control using List.reverseRecOn with
  | nil => simpa using settled
  | append_singleton control event induction =>
      have rest : ∀ other ∈ control, other.isControl = true := fun other member =>
        quiet other (by simp [member])
      have still := unsynced_control trace rest
      rw [idle] at still
      rw [← List.append_assoc]
      exact (induction rest).append fun _ _ => List.eq_nil_of_sublist_nil still

theorem split_control {trace control before after : List IoEvent} {call : AppendCall}
    (quiet : ∀ event ∈ control, event.isControl = true)
    (split : trace ++ control = before ++ .zoneAppend call :: after) :
    ∃ between, trace = before ++ .zoneAppend call :: between := by
  rcases List.append_eq_append_iff.mp split with ⟨rest, rfl, tail⟩ | ⟨rest, rfl, tail⟩
  · have member : .zoneAppend call ∈ control := by simp [tail]
    have kind := quiet _ member
    simp [IoEvent.isControl] at kind
  · cases rest with
    | nil =>
        have member : .zoneAppend call ∈ control := by
          rw [List.nil_append] at tail
          rw [← tail]
          exact List.mem_cons_self
        have kind := quiet _ member
        simp [IoEvent.isControl] at kind
    | cons head rest =>
        cases tail
        exact ⟨rest, rfl⟩

end Zwal
