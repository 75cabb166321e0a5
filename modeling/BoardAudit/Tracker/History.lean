import BoardAudit.Tracker.Worker

/-!
# Histories

What has happened in a tracker, the latest last. A history tells which triggers were queued and which
were received, what was handled, and which call counted which outcome.
-/

namespace BoardAudit

/-- Something that happened in a tracker. -/
inductive Happening where
  /-- A trigger was queued. -/
  | queued (t : Trigger)
  /-- The call at a place counted an outcome. -/
  | counted (place : Nat) (a : Admission)
  /-- The worker received a trigger. -/
  | received (t : Trigger)
  /-- The worker drained. -/
  | drained (ds : List Dispatch)
  /-- The message of the stop was sent. -/
  | stopSent
  deriving DecidableEq

/-- What has happened, the latest last. -/
abbrev History := List Happening

namespace Happening

/-- The trigger that was queued. -/
@[simp] def queued? : Happening → Option Trigger
  | .queued t => some t
  | _ => none

/-- The outcome that was counted, and the place of the call. -/
@[simp] def counted? : Happening → Option (Nat × Admission)
  | .counted n a => some (n, a)
  | _ => none

/-- The trigger that the worker received. -/
@[simp] def received? : Happening → Option Trigger
  | .received t => some t
  | _ => none

/-- What a drain handled. -/
@[simp] def dispatches : Happening → List Dispatch
  | .drained ds => ds
  | _ => []

end Happening

namespace History

def queued (h : History) : List Trigger := h.filterMap Happening.queued?

/-- The outcomes that were counted, each with the place of its call. -/
def counted (h : History) : List (Nat × Admission) := h.filterMap Happening.counted?

def received (h : History) : List Trigger := h.filterMap Happening.received?

def dispatches (h : History) : List Dispatch := h.flatMap Happening.dispatches

/-- The outcomes that the call at a place counted. -/
def countedBy (h : History) (place : Nat) : List Admission :=
  (counted h).filterMap fun c => if c.1 = place then some c.2 else none

end History

end BoardAudit
