import BoardAudit.Tracker.Basic

/-!
# Calls step by step

Several callers may bring triggers in at once. What a call does is cut here into steps that nothing
can interrupt: the caller is counted as in flight, reads the lifecycle, sends, counts the outcome and
leaves; a caller that finds the stop begun leaves first and counts then. `Call.finish_asked`: a call
that nothing comes between does what offering a trigger does.
-/

namespace BoardAudit

/-- What a caller brings in. -/
inductive Request where
  | trigger (t : Trigger)
  | record (kind : Kind) (id : EntityId) (action : Action)
  | names (kind : String) (id : EntityId) (action : String) (metadata : Metadata)
  deriving DecidableEq

/-- The trigger of a request, if it makes one. -/
def Request.trigger? : Request → Option Trigger
  | .trigger t => some t
  | .record kind id action => (Trigger.make kind id action ∅).toOption
  | .names kind id action metadata => (Trigger.ofNames kind id action metadata).toOption

/-- How far a call is. -/
inductive Call where
  /-- Nothing is done. -/
  | asked (r : Request)
  /-- The caller is in flight. -/
  | entered (t : Trigger)
  /-- The tracker was found running. -/
  | permitted (t : Trigger)
  /-- Sending had an outcome, which is not counted. -/
  | tried (a : Admission)
  /-- The outcome is counted. -/
  | counted (a : Admission)
  /-- The stop was found begun. -/
  | refused
  /-- The caller, refused, is no longer in flight; nothing is counted. -/
  | left
  /-- The call has returned. -/
  | answered (a : Admission)
  deriving DecidableEq

namespace Call

/-- Whether the caller is in flight. -/
def isInFlight : Call → Bool
  | .entered _ | .permitted _ | .tried _ | .counted _ | .refused => true
  | .asked _ | .left | .answered _ => false

/-- Whether the caller is in flight and found the tracker running. -/
def isGranted : Call → Bool
  | .permitted _ | .tried _ | .counted _ => true
  | .asked _ | .entered _ | .refused | .left | .answered _ => false

/-- The next step of a call. -/
def step (i : Inbox) : Call → Call × Inbox
  | .asked r =>
    match r.trigger? with
    | none => (.answered .rejected, i.reject)
    | some t => if t.id.isNil then (.answered .rejected, i.reject) else (.entered t, i.enter)
  | .entered t => (if i.isAccepting then .permitted t else .refused, i)
  | .permitted t => (.tried (i.send t).1, (i.send t).2)
  | .tried a => (.counted a, i.count a)
  | .counted a => (.answered a, i.leave)
  | .refused => (.left, i.leave)
  | .left => (.answered .droppedAfterStop, i.count .droppedAfterStop)
  | .answered a => (.answered a, i)

/-- The trigger that the next step of a call queues. -/
def queues? (i : Inbox) : Call → Option Trigger
  | .permitted t => if (i.send t).1 = .accepted then some t else none
  | _ => none

/-- The outcome that the next step of a call counts. -/
def counts? : Call → Option Admission
  | .asked r =>
    match r.trigger? with
    | none => some .rejected
    | some t => if t.id.isNil then some .rejected else none
  | .tried a => some a
  | .left => some .droppedAfterStop
  | _ => none

/-- All the steps of a call; it has at most five. -/
def finish (i : Inbox) (c : Call) : Call × Inbox := Nat.repeat (fun p => p.1.step p.2) 5 (c, i)

/-- A call that nothing comes between does what offering its trigger does. -/
theorem finish_asked (i : Inbox) (r : Request) :
    finish i (.asked r) =
      match r.trigger? with
      | some t => (.answered (i.offer t).1, (i.offer t).2)
      | none => (.answered .rejected, i.reject) := by
  cases hr : r.trigger? with
  | none => simp [finish, Nat.repeat, step, hr]
  | some t =>
    by_cases hn : t.id.isNil = true
    · simp [finish, Nat.repeat, step, hr, hn, Inbox.offer, Inbox.reject]
    · by_cases ha : i.enter.isAccepting = true
      · simp [finish, Nat.repeat, step, hr, hn, ha, Inbox.offer]
      · simp [finish, Nat.repeat, step, hr, hn, ha, Inbox.offer]

end Call

namespace Tracker

variable {σ : Type}

/-- A request at once. -/
def request (t : Tracker σ) : Request → Tracker σ
  | .trigger trigger => t.enqueue trigger
  | .record kind id action => t.record kind id action
  | .names kind id action metadata => (t.enqueueNames kind id action metadata).2

/-- A request at once is a call that nothing comes between. -/
theorem request_eq_finish (t : Tracker σ) (r : Request) :
    t.request r = { t with inbox := (Call.finish t.inbox (.asked r)).2 } := by
  rw [Call.finish_asked]
  cases r with
  | trigger => rfl
  | record kind id action =>
    simp only [request, record, Request.trigger?]
    cases Trigger.make kind id action ∅ <;> rfl
  | names kind id action metadata =>
    simp only [request, enqueueNames, Request.trigger?]
    cases Trigger.ofNames kind id action metadata <;> rfl

end Tracker

end BoardAudit
