import BoardAudit.Tracker.Stats

/-!
# Inboxes

The bounded queue between those who offer triggers and the worker, and the lifecycle that both sides
watch. Whoever offers a trigger is counted as in flight before the lifecycle is read and until the
counter of the outcome is written, so that a worker that sees nobody in flight after the stop has
begun has every accepted trigger in the queue.
-/

namespace BoardAudit

/-- Where a tracker stands. -/
inductive Lifecycle where
  | running
  | stopping
  | stopped
  deriving DecidableEq

def Lifecycle.name : Lifecycle → String
  | .running => "running"
  | .stopping => "stopping"
  | .stopped => "stopped"

/-- A queue with its lifecycle, the number of those in flight, and the counters of admission. -/
structure Inbox where
  lifecycle : Lifecycle
  inFlight : Nat
  queue : List Trigger
  capacity : Nat
  connected : Bool
  admissions : Admissions

namespace Inbox

/-- The most places that a queue can have: each takes 56 octets, and a block of memory has fewer than
`2 ^ 63`. -/
def maxCapacity : Nat := (1 <<< 63 - 1) / 56

def start (capacity : Nat) : Inbox := ⟨.running, 0, [], capacity, true, .zero⟩

def isAccepting (i : Inbox) : Bool := i.lifecycle == .running

/-! ### The steps of an offer -/

/-- One more is in flight. -/
def enter (i : Inbox) : Inbox := { i with inFlight := i.inFlight + 1 }

/-- One fewer is in flight. -/
def leave (i : Inbox) : Inbox := { i with inFlight := i.inFlight - 1 }

def count (i : Inbox) (a : Admission) : Inbox := { i with admissions := i.admissions.count a }

/-- Queues a trigger, if there is a receiver and there is room. -/
def send (i : Inbox) (t : Trigger) : Admission × Inbox :=
  if !i.connected then (.droppedAfterStop, i)
  else if i.queue.length < i.capacity then (.accepted, { i with queue := i.queue ++ [t] })
  else (.droppedOverflow, i)

/-! ### Offering -/

/-- Offers a trigger. A nil id is rejected; after the stop has begun, and when the queue is full, the
trigger is dropped. -/
def offer (i : Inbox) (t : Trigger) : Admission × Inbox :=
  if t.id.isNil then (.rejected, i.count .rejected)
  else
    let i := i.enter
    if i.isAccepting then
      let (a, i) := i.send t
      (a, (i.count a).leave)
    else (.droppedAfterStop, i.leave.count .droppedAfterStop)

/-- Counts something that is no trigger. -/
def reject (i : Inbox) : Inbox := i.count .rejected

/-! ### Permits -/

/-- Whether a permit to send is granted; one that is granted stays in flight. -/
def permit (i : Inbox) : Bool × Inbox := if i.isAccepting then (true, i.enter) else (false, i)

/-! ### Stopping -/

/-- Begins the stop. Only the first to ask begins it. -/
def beginStop (i : Inbox) : Bool × Inbox :=
  if i.lifecycle = .running then (true, { i with lifecycle := .stopping }) else (false, i)

/-- The worker has finished. -/
def markStopped (i : Inbox) : Inbox := { i with lifecycle := .stopped }

/-- Beginning the stop touches the lifecycle alone. -/
theorem beginStop_snd (i : Inbox) :
    i.beginStop.2 = { i with
      lifecycle := if i.lifecycle = .running then .stopping else i.lifecycle } := by
  unfold beginStop
  split <;> rfl

end Inbox

end BoardAudit
