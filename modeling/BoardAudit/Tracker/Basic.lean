import BoardAudit.Tracker.Config
import BoardAudit.Tracker.Event
import BoardAudit.Tracker.Inbox

/-!
# Trackers

A tracker is an inbox and its worker. Triggers come in by three ways, each of which only queues or
counts; the worker takes them over, drains them, and at the end sweeps the queue, drains once more and
is stopped. A tracker whose queue does not fit into memory, or whose worker bears a name that no
thread can have, crashes when it is to start.
-/

namespace BoardAudit

/-- A tracker: its settings, its inbox and its worker. -/
structure Tracker (σ : Type) where
  config : Config
  inbox : Inbox
  worker : Worker σ

/-- Whether a tracker of these settings can start: its queue fits into memory, and the name of its
worker does not hold the character zero. -/
def Config.canStart (c : Config) : Bool :=
  decide (c.effectiveCapacity.toNat ≤ Inbox.maxCapacity) && decide ('\x00' ∉ c.threadName.toList)

/-- What the end of a worker did: how many triggers it swept from the queue, how many waited then, and
what the last drain handled. -/
structure Ending where
  swept : Nat
  pending : Nat
  dispatches : List Dispatch

/-- What the end of a worker tells. -/
def Ending.events (e : Ending) : List Event :=
  .finalSweep e.swept e.pending :: Event.ofDrain e.dispatches

namespace Tracker

variable {σ : Type}

/-- A running tracker that has seen nothing. -/
def start (config : Config) (log : σ) : Tracker σ :=
  ⟨config, .start config.effectiveCapacity.toNat, .start log⟩

/-- A tracker that has seen nothing, if it can start. -/
def start? (config : Config) (log : σ) : Option (Tracker σ) :=
  if config.canStart then some (start config log) else none

def stats (t : Tracker σ) : Stats := ⟨t.inbox.admissions, t.worker.tallies⟩

/-! ### Coming in -/

def enqueue (t : Tracker σ) (trigger : Trigger) : Tracker σ :=
  { t with inbox := (t.inbox.offer trigger).2 }

/-- Counts something that is no trigger. -/
def reject (t : Tracker σ) : Tracker σ := { t with inbox := t.inbox.reject }

/-- Offers a trigger without notes. A nil id is rejected. -/
def record (t : Tracker σ) (kind : Kind) (id : EntityId) (action : Action) : Tracker σ :=
  match Trigger.make kind id action ∅ with
  | .ok trigger => t.enqueue trigger
  | .error _ => t.reject

/-- Offers a trigger given by names. What gives no trigger is told and rejected. -/
def enqueueNames (t : Tracker σ) (kind : String) (id : EntityId) (action : String)
    (metadata : Metadata) : List Event × Tracker σ :=
  match Trigger.ofNames kind id action metadata with
  | .ok trigger => ([], t.enqueue trigger)
  | .error error => ([.triggerRejected kind action error], t.reject)

/-! ### The worker's part -/

/-- The worker takes up to `n` triggers from the queue; tells how many it took. -/
def pump (t : Tracker σ) (n : Nat) : Nat × Tracker σ :=
  let taken := t.inbox.queue.take n
  (taken.length, { t with
    inbox := { t.inbox with queue := t.inbox.queue.drop n }
    worker := t.worker.receiveAll taken })

/-- The worker takes the whole queue. -/
def pumpAll (t : Tracker σ) : Tracker σ := (t.pump t.inbox.queue.length).2

def drain (env : Environment σ) (t : Tracker σ) : List Dispatch × Tracker σ :=
  let (ds, worker) := t.worker.drain env
  (ds, { t with worker })

/-- The receiving end of the queue is gone, with all that was queued. -/
def disconnect (t : Tracker σ) : Tracker σ :=
  { t with inbox := { t.inbox with connected := false, queue := [] } }

/-- The end of the worker once nobody is in flight: it sweeps the queue, drains and is stopped. -/
def finish (env : Environment σ) (t : Tracker σ) : Ending × Tracker σ :=
  let (swept, t) := t.pump t.inbox.queue.length
  let pending := t.worker.pending.size
  let (dispatches, t) := t.drain env
  (⟨swept, pending, dispatches⟩, { t with inbox := t.inbox.markStopped })

/-- Begins the stop, and tells so if it did. -/
def beginStop (t : Tracker σ) : List Event × Tracker σ :=
  let (first, inbox) := t.inbox.beginStop
  (if first then [.stopping] else [], { t with inbox })

/-- Stops the tracker: the first to ask begins the stop, and then the worker ends. A stopped tracker
is left as it is. -/
def stop (env : Environment σ) (t : Tracker σ) : List Event × List Dispatch × Tracker σ :=
  let (events, t) := t.beginStop
  if t.inbox.lifecycle = .stopped then (events, [], t)
  else
    let (ending, t) := t.finish env
    (events, ending.dispatches, t)

end Tracker

end BoardAudit
