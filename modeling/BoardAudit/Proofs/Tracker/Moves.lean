import BoardAudit.Tracker.Call
import Mathlib.Tactic.Lemma

/-!
# Moves of calls

What one step of a call can do, said once: `Call.move_step`. The lemmas after it say what becomes of the
inbox: a move queues and counts what it says, whoever is in flight is counted as such, and after the
stop has begun nobody is granted anything any more.
-/

namespace BoardAudit

namespace Call

/-- Whether an offer has sent its trigger and not yet counted that. -/
def isSent (c : Call) : Bool := c == .tried .accepted

/-- The outcome that a call has counted. -/
def outcome? : Call → Option Admission
  | .counted a | .answered a => some a
  | _ => none

lemma isInFlight_of_isGranted {c : Call} (h : c.isGranted = true) : c.isInFlight = true := by
  cases c <;> first | rfl | cases h

lemma isGranted_of_isSent {c : Call} (h : c.isSent = true) : c.isGranted = true := by
  cases c <;> first | rfl | cases h

/-- The moves of a call: from where, what is queued, what is counted, to where, and the inbox then. -/
inductive Move (i : Inbox) : Call → Option Trigger → Option Admission → Call → Inbox → Prop where
  | reject (r : Request) : Move i (.asked r) none (some .rejected) (.answered .rejected) i.reject
  | enter (r : Request) (t : Trigger) (hr : r.trigger? = some t) (hn : t.id.isNil = false) :
      Move i (.asked r) none none (.entered t) i.enter
  | permit (t : Trigger) (h : i.lifecycle = .running) : Move i (.entered t) none none (.permitted t) i
  | refuse (t : Trigger) (h : i.lifecycle ≠ .running) : Move i (.entered t) none none .refused i
  | send (t : Trigger) (hc : i.connected = true) (hl : i.queue.length < i.capacity) :
      Move i (.permitted t) (some t) none (.tried .accepted) { i with queue := i.queue ++ [t] }
  | drop (t : Trigger) (a : Admission) (h : a ≠ .accepted) :
      Move i (.permitted t) none none (.tried a) i
  | count (a : Admission) : Move i (.tried a) none (some a) (.counted a) (i.count a)
  | leave (a : Admission) : Move i (.counted a) none none (.answered a) i.leave
  | leaveRefused : Move i .refused none none .left i.leave
  | countRefused : Move i .left none (some .droppedAfterStop) (.answered .droppedAfterStop)
      (i.count .droppedAfterStop)
  | rest (a : Admission) : Move i (.answered a) none none (.answered a) i

/-- A step is a move. -/
theorem move_step (i : Inbox) (c : Call) :
    Move i c (c.queues? i) c.counts? (c.step i).1 (c.step i).2 := by
  cases c with
  | asked r =>
    cases hr : r.trigger? with
    | none => simpa [step, queues?, counts?, hr] using Move.reject r
    | some t =>
      cases hn : t.id.isNil with
      | true => simpa [step, queues?, counts?, hr, hn] using Move.reject r
      | false => simpa [step, queues?, counts?, hr, hn] using Move.enter r t hr hn
  | entered t =>
    by_cases h : i.lifecycle = .running
    · simpa [step, queues?, counts?, Inbox.isAccepting, h] using Move.permit t h
    · simpa [step, queues?, counts?, Inbox.isAccepting, h] using Move.refuse t h
  | permitted t =>
    cases hc : i.connected with
    | false => simpa [step, queues?, counts?, Inbox.send, hc] using
        Move.drop t .droppedAfterStop (by decide)
    | true =>
      by_cases hl : i.queue.length < i.capacity
      · simpa [step, queues?, counts?, Inbox.send, hc, hl] using Move.send t hc hl
      · simpa [step, queues?, counts?, Inbox.send, hc, hl] using
          Move.drop t .droppedOverflow (by decide)
  | tried a => exact .count a
  | counted a => exact .leave a
  | refused => exact .leaveRefused
  | left => exact .countRefused
  | answered a => exact .rest a

namespace Move

variable {i j : Inbox} {c d : Call} {q : Option Trigger} {a : Option Admission}

lemma lifecycle_eq (m : Move i c q a d j) : j.lifecycle = i.lifecycle := by cases m <;> rfl

lemma queue_eq (m : Move i c q a d j) : j.queue = i.queue ++ q.toList := by
  cases m <;> simp [Inbox.reject, Inbox.count, Inbox.enter, Inbox.leave]

/-- Only who found the tracker running queues. -/
lemma eq_none (m : Move i c q a d j) (h : c.isGranted = false) : q = none := by
  cases m <;> first | rfl | cases h

/-- After the stop has begun nobody finds the tracker running. -/
lemma not_isGranted (m : Move i c q a d j) (hi : i.lifecycle ≠ .running)
    (h : c.isGranted = false) : d.isGranted = false := by
  cases m with
  | permit t hr => exact absurd hr hi
  | _ => first | rfl | exact h

/-- Whoever is in flight is counted as such. -/
lemma inFlight_eq (m : Move i c q a d j) (h : c.isInFlight = true → 0 < i.inFlight) :
    j.inFlight + (if c.isInFlight then 1 else 0) =
      i.inFlight + if d.isInFlight then 1 else 0 := by
  cases m with
  | leave a =>
    have := h rfl
    simp only [Inbox.leave, isInFlight, if_true, Bool.false_eq_true, if_false]
    omega
  | leaveRefused =>
    have := h rfl
    simp only [Inbox.leave, isInFlight, if_true, Bool.false_eq_true, if_false]
    omega
  | _ => rfl

/-- What has been counted after a move was counted before it or is counted by it. -/
lemma outcome_eq (m : Move i c q a d j) : d.outcome?.toList = c.outcome?.toList ++ a.toList := by
  cases m <;> rfl

/-- A move counts the outcome that it counts. -/
lemma number_eq (m : Move i c q a d j) (x : Admission) :
    j.admissions.number x = i.admissions.number x + a.toList.count x := by
  cases m <;> simp [Inbox.reject, Inbox.count, Inbox.enter, Inbox.leave, Admissions.number_count,
    List.count_singleton]

/-- The accepted triggers and those sent, but not yet counted, are as many more as are queued. -/
lemma accepted_eq (m : Move i c q a d j) :
    j.admissions.accepted + (if d.isSent then 1 else 0) =
      i.admissions.accepted + (if c.isSent then 1 else 0) + q.toList.length := by
  cases m with
  | drop t a h => cases a <;> first | rfl | exact absurd rfl h
  | count a => cases a <;> rfl
  | _ => rfl

end Move

end Call

end BoardAudit
