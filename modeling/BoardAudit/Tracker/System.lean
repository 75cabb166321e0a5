import BoardAudit.Tracker.Call
import BoardAudit.Tracker.History

/-!
# Trackers among threads

A tracker with the calls that bring triggers in, the callers that stop it and its worker, each of
which goes on in steps that nothing can interrupt. `Step` relates a state to the states that one such
step leads to, in whatever order the threads go on; what the worker's collaborators do may be another
thing for every trigger. `finish_steps`: the steps by which a worker ends, with nothing between them, do
what `Tracker.finish` does.
-/

namespace BoardAudit

/-- How far a caller is that stops the tracker. -/
inductive StopCall where
  /-- Nothing is done. -/
  | asked
  /-- The caller has begun the stop and is about to send the message of it. -/
  | first
  /-- The caller is about to take the worker's handle. -/
  | waiting
  /-- The caller has the handle and waits for the end of the worker. -/
  | joining
  /-- The worker has ended; the caller still keeps others from the handle. -/
  | joined
  /-- The call has returned. -/
  | returned
  deriving DecidableEq

/-- How far a worker is. -/
inductive Phase where
  /-- It receives and drains. -/
  | working
  /-- It is to end, and waits until nobody is in flight. -/
  | ending
  /-- Nobody was in flight; it takes over what is queued. -/
  | sweeping
  /-- The queue was empty; the last drain is to come. -/
  | swept
  /-- The last drain is done. -/
  | drained
  /-- The tracker is marked as stopped. -/
  | marked
  /-- The thread has ended. -/
  | ended
  deriving DecidableEq

/-- The handle by which the end of a worker is waited for: one caller takes it, and keeps others from
it until the worker has ended. -/
inductive Handle where
  | free
  | held
  | taken
  deriving DecidableEq

/-- A tracker among its threads, and what has happened. At most one message of the stop waits. -/
structure System (σ : Type) where
  inbox : Inbox
  worker : Worker σ
  phase : Phase
  stopWaits : Bool
  handle : Handle
  calls : List Call
  stops : List StopCall
  history : History

namespace System

variable {σ : Type}

/-- A running tracker that nobody has called. -/
def start (capacity : Nat) (log : σ) : System σ :=
  ⟨.start capacity, .start log, .working, false, .free, [], [], []⟩

def stats (s : System σ) : Stats := ⟨s.inbox.admissions, s.worker.tallies⟩

/-! ### What one step does -/

/-- The call at a place goes on. -/
def advance (s : System σ) (n : Nat) (c : Call) : System σ :=
  { s with
    inbox := (c.step s.inbox).2
    calls := s.calls.set n (c.step s.inbox).1
    history := s.history ++ (c.queues? s.inbox).toList.map .queued ++
      c.counts?.toList.map (.counted n) }

/-- The worker receives the first of the queue, which is `t` before `rest`. -/
def receive (s : System σ) (t : Trigger) (rest : List Trigger) : System σ :=
  { s with
    inbox := { s.inbox with queue := rest }
    worker := s.worker.receive t
    history := s.history ++ [.received t] }

/-- The worker drains, and does the errands of the waiting triggers. -/
def drainAs (s : System σ) (errands : List (Errand σ)) : System σ :=
  { s with
    worker := (s.worker.drainAs errands).2
    history := s.history ++ [.drained (s.worker.drainAs errands).1] }

/-- The worker is in another phase. -/
def enter (s : System σ) (phase : Phase) : System σ := { s with phase }

/-- The stopping caller at a place is so far. -/
def setStop (s : System σ) (n : Nat) (c : StopCall) : System σ := { s with stops := s.stops.set n c }

/-- The steps that the threads can take. -/
inductive Step : System σ → System σ → Prop where
  /-- Somebody brings something in. -/
  | ask (s : System σ) (r : Request) : Step s { s with calls := s.calls ++ [.asked r] }
  /-- A call goes on. -/
  | call (s : System σ) (n : Nat) (c : Call) (h : s.calls[n]? = some c) : Step s (s.advance n c)
  /-- Somebody stops the tracker. -/
  | askStop (s : System σ) : Step s { s with stops := s.stops ++ [.asked] }
  /-- A caller begins the stop, unless it has begun. -/
  | beginStop (s : System σ) (n : Nat) (h : s.stops[n]? = some .asked) :
      Step s ({ s with inbox := s.inbox.beginStop.2 }.setStop n
        (if s.inbox.beginStop.1 then .first else .waiting))
  /-- The first caller sends the message of the stop, which has to have room. -/
  | sendStop (s : System σ) (n : Nat) (h : s.stops[n]? = some .first) (hw : s.stopWaits = false) :
      Step s ({ s with stopWaits := true, history := s.history ++ [Happening.stopSent] }.setStop n .waiting)
  /-- A caller takes the handle. -/
  | takeHandle (s : System σ) (n : Nat) (h : s.stops[n]? = some .waiting) (hh : s.handle = .free) :
      Step s ({ s with handle := .held }.setStop n .joining)
  /-- A caller finds the handle taken, and returns. -/
  | missHandle (s : System σ) (n : Nat) (h : s.stops[n]? = some .waiting) (hh : s.handle = .taken) :
      Step s (s.setStop n .returned)
  /-- The worker that a caller waits for has ended. -/
  | join (s : System σ) (n : Nat) (h : s.stops[n]? = some .joining) (hp : s.phase = .ended) :
      Step s ({ s with inbox := s.inbox.markStopped }.setStop n .joined)
  /-- A caller lets others see that the handle is taken, and returns. -/
  | release (s : System σ) (n : Nat) (h : s.stops[n]? = some .joined) :
      Step s ({ s with handle := .taken }.setStop n .returned)
  /-- The worker receives a trigger. -/
  | receive (s : System σ) (t : Trigger) (rest : List Trigger) (hp : s.phase = .working)
      (hq : s.inbox.queue = t :: rest) : Step s (s.receive t rest)
  /-- The interval has elapsed. -/
  | tick (s : System σ) (errands : List (Errand σ)) (hp : s.phase = .working)
      (he : s.worker.Awaits errands) : Step s (s.drainAs errands)
  /-- The worker takes the message of the stop. -/
  | heedStop (s : System σ) (hp : s.phase = .working) (hw : s.stopWaits = true) :
      Step s ({ s with stopWaits := false }.enter .ending)
  /-- The worker sees that nobody is in flight. -/
  | observe (s : System σ) (hp : s.phase = .ending) (hi : s.inbox.inFlight = 0) :
      Step s (s.enter .sweeping)
  /-- The worker takes over a queued trigger. -/
  | sweep (s : System σ) (t : Trigger) (rest : List Trigger) (hp : s.phase = .sweeping)
      (hq : s.inbox.queue = t :: rest) : Step s (s.receive t rest)
  /-- The worker finds the queue empty. -/
  | sweepEnd (s : System σ) (hp : s.phase = .sweeping) (hq : s.inbox.queue = []) :
      Step s (s.enter .swept)
  /-- The worker drains for the last time. -/
  | lastDrain (s : System σ) (errands : List (Errand σ)) (hp : s.phase = .swept)
      (he : s.worker.Awaits errands) : Step s ((s.drainAs errands).enter .drained)
  /-- The worker marks the tracker as stopped. -/
  | markStopped (s : System σ) (hp : s.phase = .drained) :
      Step s ({ s with inbox := s.inbox.markStopped }.enter .marked)
  /-- The thread ends, and the receiving end of the queue is gone. -/
  | exit (s : System σ) (hp : s.phase = .marked) :
      Step s ({ s with inbox := { s.inbox with connected := false, queue := [] } }.enter .ended)

/-- The states that steps lead to. -/
inductive Steps (s : System σ) : System σ → Prop where
  | refl : Steps s s
  | tail {t u : System σ} (h : Steps s t) (step : Step t u) : Steps s u

/-- The states that a tracker can be in. -/
def Reachable (s : System σ) : Prop := ∃ capacity log, 0 < capacity ∧ Steps (start capacity log) s

/-! ### The end of a worker -/

theorem Steps.trans {s t u : System σ} (h : Steps s t) (h' : Steps t u) : Steps s u := by
  induction h' with
  | refl => exact h
  | tail _ step ih => exact ih.tail step

theorem Steps.head {s t u : System σ} (step : Step s t) (h : Steps t u) : Steps s u :=
  (Steps.refl.tail step).trans h

theorem Reachable.steps {s t : System σ} (hs : s.Reachable) (h : Steps s t) : t.Reachable := by
  obtain ⟨capacity, log, hpos, before⟩ := hs
  exact ⟨capacity, log, hpos, before.trans h⟩

/-- A worker that receives or sweeps can take over the triggers at the head of the queue. -/
theorem takeOver_steps {s : System σ} (hp : s.phase = .working ∨ s.phase = .sweeping)
    {ts rest : List Trigger} (hq : s.inbox.queue = ts ++ rest) :
    Steps s { s with
      inbox := { s.inbox with queue := rest }
      worker := s.worker.receiveAll ts
      history := s.history ++ ts.map .received } := by
  induction ts generalizing s with
  | nil =>
    have : { s with inbox := { s.inbox with queue := rest }
                    worker := s.worker.receiveAll []
                    history := s.history ++ [].map .received } = s := by
      cases s with
      | mk inbox =>
        cases inbox
        simp_all [Worker.receiveAll]
    rw [this]
    exact .refl
  | cons t ts ih =>
    have := ih (s := s.receive t (ts ++ rest)) hp rfl
    have first : Step s (s.receive t (ts ++ rest)) := by
      rcases hp with hp | hp
      · exact .receive s t (ts ++ rest) hp hq
      · exact .sweep s t (ts ++ rest) hp hq
    refine .head first ?_
    simpa [receive, Worker.receiveAll] using this

/-- The steps by which a worker ends, with nothing between them. -/
theorem finish_steps {s : System σ} (hp : s.phase = .ending) (hi : s.inbox.inFlight = 0)
    (config : Config) (env : Environment σ) :
    let (ending, t) := (⟨config, s.inbox, s.worker⟩ : Tracker σ).finish env
    Steps s { s with
      inbox := t.inbox
      worker := t.worker
      phase := .marked
      history := s.history ++ s.inbox.queue.map .received ++ [.drained ending.dispatches] } := by
  have swept := takeOver_steps (s := s.enter .sweeping) (.inr rfl) (List.append_nil _).symm
  have drained := ((Steps.head (.observe s hp hi) swept).tail (.sweepEnd _ rfl rfl)).tail
    (.lastDrain _ _ rfl (Worker.awaits_triggers _ env))
  have marked := drained.tail (.markStopped _ rfl)
  simpa [enter, drainAs, Tracker.finish, Tracker.pump, Tracker.drain, Worker.drain] using marked

end System

end BoardAudit
