import BoardAudit.Tracker.Batch
import BoardAudit.Tracker.Stats

/-!
# Workers

The one consumer of triggers. It lets received triggers wait in a batch and drains the batch: every
waiting trigger is handled once, whatever becomes of the others.
-/

namespace BoardAudit

/-- A worker: the waiting triggers, the snapshots, the state of its sink, and its counters. -/
structure Worker (σ : Type) where
  pending : Batch
  snapshots : Snapshots
  log : σ
  tallies : Tallies

/-- A trigger that was handled, and what came of it. -/
structure Dispatch where
  trigger : Trigger
  outcome : Outcome
  deriving DecidableEq

/-- What a drain did. -/
structure DrainReport where
  handled : Nat
  logged : Nat
  failed : Nat
  deriving DecidableEq

namespace DrainReport

def zero : DrainReport := ⟨0, 0, 0⟩

/-- Reports one more handled trigger by its outcome. -/
def count (r : DrainReport) (o : Outcome) : DrainReport :=
  let r := { r with handled := r.handled + 1 }
  match o with
  | .logged _ => { r with logged := r.logged + 1 }
  | .baseline | .unchanged | .ignored => r
  | .failed _ | .crashed => { r with failed := r.failed + 1 }

/-- The report on some handled triggers. -/
def of (ds : List Dispatch) : DrainReport := ds.foldl (fun r d => r.count d.outcome) zero

end DrainReport

namespace Worker

variable {σ : Type}

/-- A worker that has seen nothing. -/
def start (log : σ) : Worker σ := ⟨.empty, .empty, log, .zero⟩

/-- Lets a trigger wait, and counts it if it takes the place of another. -/
def receive (w : Worker σ) (t : Trigger) : Worker σ :=
  { w with
    pending := w.pending.insert t
    tallies :=
      if w.pending.contains t.key then { w.tallies with coalesced := w.tallies.coalesced + 1 }
      else w.tallies }

/-- Lets triggers wait one after the other. -/
def receiveAll (w : Worker σ) (ts : List Trigger) : Worker σ := ts.foldl receive w

def dispatch (w : Worker σ) (e : Errand σ) : Dispatch × Worker σ :=
  let (outcome, snapshots, log) := e.env.handle e.trigger w.snapshots w.log
  (⟨e.trigger, outcome⟩, { w with snapshots, log, tallies := w.tallies.count outcome })

/-- Does errands one after the other. -/
def dispatchAll : Worker σ → List (Errand σ) → List Dispatch × Worker σ
  | w, [] => ([], w)
  | w, e :: es =>
    let (d, w) := w.dispatch e
    let (ds, w) := dispatchAll w es
    (d :: ds, w)

/-- Whether errands are for the waiting triggers, in whatever order. -/
def Awaits (w : Worker σ) (errands : List (Errand σ)) : Prop :=
  (errands.map Errand.trigger).Perm w.pending.triggers

/-- Empties the batch and does the errands for its triggers. An empty batch is left as it is. -/
def drainAs (w : Worker σ) (errands : List (Errand σ)) : List Dispatch × Worker σ :=
  if w.pending.isEmpty then ([], w)
  else
    dispatchAll
      { w with pending := .empty, tallies := { w.tallies with drains := w.tallies.drains + 1 } }
      errands

/-- Empties the batch and handles its triggers in the order of their keys. -/
def drain (env : Environment σ) (w : Worker σ) : List Dispatch × Worker σ :=
  w.drainAs (w.pending.triggers.map (.mk env))

theorem awaits_triggers (w : Worker σ) (env : Environment σ) :
    w.Awaits (w.pending.triggers.map (.mk env)) := by
  simp [Awaits, Function.comp_def]

end Worker

end BoardAudit
