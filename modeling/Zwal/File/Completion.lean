import Zwal.File.Trace

/-! # Completions

The device completes entries on its own, in any order and at any time; a sync waits
for all entries of its log. A trace with completions is an interleaving of the
host's requests with the steps of the device. -/

namespace Zwal

def IoEvent.isComplete : IoEvent → Bool
  | .complete _ => true
  | _ => false

def hostEvents (full : List IoEvent) : List IoEvent := full.filter fun event => !event.isComplete

structure Progress where
  waiting : List AppendCall
  done : List AppendCall

namespace Progress

/-- `complete index` is the completion of the entry at that place in the queue. -/
def step (progress : Progress) : IoEvent → Progress
  | .zoneAppend call => { progress with waiting := progress.waiting ++ [call] }
  | .walSync log =>
      { waiting := progress.waiting.filter fun call => call.log ≠ log
        done := progress.done ++ progress.waiting.filter fun call => call.log = log }
  | .complete index =>
      match progress.waiting[index]? with
      | none => progress
      | some call =>
          { waiting := progress.waiting.eraseIdx index, done := progress.done ++ [call] }
  | _ => progress

end Progress

def progress (full : List IoEvent) : Progress := full.foldl Progress.step ⟨[], []⟩

def inFlight (full : List IoEvent) : List AppendCall := (progress full).waiting

@[simp] theorem progress_append (full : List IoEvent) (event : IoEvent) :
    progress (full ++ [event]) = (progress full).step event := by
  simp [progress]

@[simp] theorem hostEvents_append (first second : List IoEvent) :
    hostEvents (first ++ second) = hostEvents first ++ hostEvents second :=
  List.filter_append ..

theorem unsynced_hostEvents (full : List IoEvent) : unsynced (hostEvents full) = unsynced full := by
  induction full using List.reverseRecOn with
  | nil => rfl
  | append_singleton full event induction =>
      rw [hostEvents_append, unsynced_append]
      cases event
      case complete index => simpa [hostEvents, IoEvent.isComplete, IoEvent.track] using induction
      all_goals
        show unsynced (hostEvents full ++ [_]) = _
        rw [unsynced_append, induction]

theorem inFlight_sublist (full : List IoEvent) : (inFlight full).Sublist (unsynced full) := by
  induction full using List.reverseRecOn with
  | nil => exact .slnil
  | append_singleton full event induction =>
      rw [inFlight, progress_append, unsynced_append]
      cases event
      case zoneAppend call => exact induction.append (.refl _)
      case walSync log => exact induction.filter _
      case complete index =>
        simp only [Progress.step]
        split
        · exact induction
        · exact (List.eraseIdx_sublist _ _).trans induction
      all_goals exact induction

theorem inFlight_hostEvents (full : List IoEvent) : inFlight (hostEvents full) = unsynced full := by
  induction full using List.reverseRecOn with
  | nil => rfl
  | append_singleton full event induction =>
      rw [hostEvents_append, unsynced_append, ← induction]
      cases event
      case complete index => simp [hostEvents, IoEvent.isComplete, IoEvent.track]
      all_goals
        show inFlight (hostEvents full ++ [_]) = _
        rw [inFlight, progress_append]
        rfl

end Zwal
