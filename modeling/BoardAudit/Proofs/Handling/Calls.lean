import BoardAudit.Tracker.Worker
import Mathlib.Tactic.Lemma

/-!
# Calls of the handler

`Handles`: triggers are handled one after the other, each by a call of `Environment.handle` that begins
with what the call before it left. Whatever a worker dispatches is handled so (`Worker.handles_drainAs`):
a dispatch is a trigger with the outcome of its call.
-/

namespace BoardAudit

variable {σ : Type}

/-- Triggers are handled one after the other: from which snapshots and which state of the sink, what is
dispatched, and what is left. Every call is made in an environment of its own. -/
inductive Handles : Snapshots × σ → List Dispatch → Snapshots × σ → Prop where
  | nil (p : Snapshots × σ) : Handles p [] p
  | cons (env : Environment σ) (t : Trigger) {p q : Snapshots × σ} {ds : List Dispatch}
      (rest : Handles (env.handle t p.1 p.2).2 ds q) :
      Handles p (⟨t, (env.handle t p.1 p.2).1⟩ :: ds) q

namespace Handles

variable {p q r : Snapshots × σ} {ds ds' : List Dispatch}

lemma append (h : Handles p ds q) (h' : Handles q ds' r) : Handles p (ds ++ ds') r := by
  induction h with
  | nil => exact h'
  | cons env t _ ih => exact .cons env t (ih h')

/-- Between two parts of what is dispatched something is left by the first and found by the second. -/
lemma exists_between (h : Handles p (ds ++ ds') r) : ∃ q, Handles p ds q ∧ Handles q ds' r := by
  induction ds generalizing p with
  | nil => exact ⟨p, .nil p, h⟩
  | cons d ds ih =>
    cases h with
    | cons env t rest =>
      obtain ⟨q, hds, hds'⟩ := ih rest
      exact ⟨q, .cons env t hds, hds'⟩

end Handles

namespace Worker

lemma handles_dispatchAll (w : Worker σ) (es : List (Errand σ)) :
    Handles (w.snapshots, w.log) (w.dispatchAll es).1
      ((w.dispatchAll es).2.snapshots, (w.dispatchAll es).2.log) := by
  induction es generalizing w with
  | nil => exact .nil _
  | cons e es ih => exact .cons e.env e.trigger (ih (w.dispatch e).2)

/-- What a drain dispatches are calls of the handler. -/
theorem handles_drainAs (w : Worker σ) (es : List (Errand σ)) :
    Handles (w.snapshots, w.log) (w.drainAs es).1
      ((w.drainAs es).2.snapshots, (w.drainAs es).2.log) := by
  unfold drainAs
  split
  · exact .nil _
  · exact handles_dispatchAll
      { w with pending := .empty, tallies := { w.tallies with drains := w.tallies.drains + 1 } } es

end Worker

end BoardAudit
