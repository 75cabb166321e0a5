import BoardAudit.Proofs.Tracker.Soundness
import Mathlib.Logic.Relation

/-!
# Permits

Whoever found the tracker running holds a permit until leaving. `Arises.permits_exact`: those in flight are
counted, and nobody else is, whichever way out of an offer they take; and once nobody is in flight after
the stop has begun, nobody holds a permit, then or ever after.

None of it rests on the worker, which may break down at any moment: whoever holds a permit then finds no
receiver, and leaves as well.
-/

namespace BoardAudit

namespace System

variable {σ : Type} {s t : System σ}

/-! ### Workers that break down -/

/-- A step of the threads; or the worker breaks down, and the receiving end of the queue is gone with it. -/
inductive FaultyStep : System σ → System σ → Prop where
  | step {s t : System σ} (h : Step s t) : FaultyStep s t
  | breakDown (s : System σ) : FaultyStep s
      ({ s with inbox := { s.inbox with connected := false, queue := [] } }.enter .ended)

/-- The states that such steps lead to. -/
abbrev FaultySteps : System σ → System σ → Prop := Relation.ReflTransGen FaultyStep

/-- The states that a tracker can be in whose worker may break down. -/
def Arises (s : System σ) : Prop := ∃ capacity log, 0 < capacity ∧ FaultySteps (start capacity log) s

theorem Reachable.arises (hs : s.Reachable) : s.Arises := by
  obtain ⟨capacity, log, hc, steps⟩ := hs
  refine ⟨capacity, log, hc, ?_⟩
  induction steps with
  | refl => exact .refl
  | tail _ step ih => exact ih.tail (.step step)

lemma Arises.tail (hs : s.Arises) (step : FaultyStep s t) : t.Arises := by
  obtain ⟨capacity, log, hc, steps⟩ := hs
  exact ⟨capacity, log, hc, steps.tail step⟩

lemma Arises.call (hs : s.Arises) (n : ℕ) (c : Call) (h : s.calls[n]? = some c) :
    (s.advance n c).Arises :=
  hs.tail (.step (.call s n c h))

/-! ### Those in flight -/

theorem Arises.inFlight_eq (hs : s.Arises) : s.inbox.inFlight = s.calls.countP Call.isInFlight := by
  obtain ⟨capacity, log, -, steps⟩ := hs
  induction steps with
  | refl => rfl
  | tail _ step ih =>
    cases step with
    | step step => exact inFlight_step ih step
    | breakDown => exact ih

/-- Who leaves was counted, so that the count has one to take away. -/
lemma inFlight_advance_of_leaves (h : s.inbox.inFlight = s.calls.countP Call.isInFlight) {n : ℕ}
    {c : Call} (hc : s.calls[n]? = some c) (hi : c.isInFlight = true)
    (hd : (c.step s.inbox).1.isInFlight = false) :
    (s.advance n c).inbox.inFlight + 1 = s.inbox.inFlight := by
  have hm := (c.move_step s.inbox).inFlight_eq (inFlight_pos h hc)
  rw [hi, hd] at hm
  exact hm

/-! ### After the stop has begun -/

lemma not_running_step (step : Step s t) (hl : s.inbox.lifecycle ≠ .running) :
    t.inbox.lifecycle ≠ .running := by
  cases step with
  | call n c hc =>
    have hsame : (s.advance n c).inbox.lifecycle = s.inbox.lifecycle :=
      (c.move_step s.inbox).lifecycle_eq
    rw [hsame]
    exact hl
  | beginStop n hn => simp [setStop, Inbox.beginStop_snd, hl]
  | join n hn hp => simp [setStop, Inbox.markStopped]
  | markStopped hp => simp [enter, Inbox.markStopped]
  | _ => exact hl

/-- Where the stop has begun and nobody is granted anything, it stays so. -/
lemma FaultySteps.not_isGranted (steps : FaultySteps s t) (hl : s.inbox.lifecycle ≠ .running)
    (h : ∀ c ∈ s.calls, c.isGranted = false) :
    t.inbox.lifecycle ≠ .running ∧ ∀ c ∈ t.calls, c.isGranted = false := by
  induction steps with
  | refl => exact ⟨hl, h⟩
  | tail _ step ih =>
    obtain ⟨hl, h⟩ := ih
    cases step with
    | step step => exact ⟨not_running_step step hl, step.not_isGranted hl h⟩
    | breakDown => exact ⟨hl, h⟩

/-- **The count of those in flight is exact, and the gate closes for good.** At every moment as many are
counted as in flight as are between entering and leaving, so there is nobody in flight exactly if none is
counted, and who leaves takes one away from a count that has one. Where nobody is counted after the stop
has begun, nobody holds a permit, and nobody does at any later moment. -/
theorem Arises.permits_exact (hs : s.Arises) :
    s.inbox.inFlight = s.calls.countP Call.isInFlight ∧
    (s.inbox.inFlight = 0 ↔ ∀ c ∈ s.calls, c.isInFlight = false) ∧
    (∀ n c, s.calls[n]? = some c → c.isInFlight = true → (c.step s.inbox).1.isInFlight = false →
      (s.advance n c).inbox.inFlight + 1 = s.inbox.inFlight) ∧
    (s.inbox.lifecycle ≠ .running → s.inbox.inFlight = 0 →
      ∀ t, FaultySteps s t → ∀ c ∈ t.calls, c.isGranted = false) := by
  have h := hs.inFlight_eq
  refine ⟨h, ?_, fun n c hc hi hd => inFlight_advance_of_leaves h hc hi hd, fun hl hz t steps => ?_⟩
  · rw [h, List.countP_eq_zero]
    simp only [Bool.not_eq_true]
  · exact (FaultySteps.not_isGranted steps hl (not_isGranted_of_inFlight h hz)).2

/-! ### Every way out -/

/-- A tracker whose stop has begun and whose worker broke down. Of its four callers the first one filled
the queue, the second one found it full, the third one held a permit when the worker broke down, and the
fourth one was refused and has to count that. -/
def brokenDown : System Unit where
  inbox := ⟨.stopping, 0, [], 1, false, ⟨1, 0, 1, 1⟩⟩
  worker := .start ()
  phase := .ended
  stopWaits := false
  handle := .free
  calls := [.answered .accepted, .answered .droppedOverflow, .answered .droppedAfterStop, .left]
  stops := [.first]
  history := [.queued lateTrigger, .counted 0 .accepted, .counted 1 .droppedOverflow,
    .counted 2 .droppedAfterStop]

theorem arises_brokenDown : brokenDown.Arises := by
  have run := ((((Steps.refl (s := System.start 1 ())).tail (.ask _ (.trigger lateTrigger))).tail
    (.ask _ (.trigger lateTrigger))).tail (.ask _ (.trigger lateTrigger))).tail
    (.ask _ (.trigger lateTrigger))
  have run := ((((run.tail (.call _ 0 _ rfl)).tail (.call _ 0 _ rfl)).tail (.call _ 0 _ rfl)).tail
    (.call _ 0 _ rfl)).tail (.call _ 0 _ rfl)
  have filled : Steps (System.start 1 ()) ⟨⟨.running, 0, [lateTrigger], 1, true, ⟨1, 0, 0, 0⟩⟩,
      .start (), .working, false, .free, [.answered .accepted, .asked (.trigger lateTrigger),
        .asked (.trigger lateTrigger), .asked (.trigger lateTrigger)], [],
      [.queued lateTrigger, .counted 0 .accepted]⟩ := run
  have run := ((((filled.tail (.call _ 1 _ rfl)).tail (.call _ 1 _ rfl)).tail (.call _ 1 _ rfl)).tail
    (.call _ 1 _ rfl)).tail (.call _ 1 _ rfl)
  have run := ((run.tail (.call _ 2 _ rfl)).tail (.call _ 2 _ rfl)).tail (.call _ 3 _ rfl)
  have run := (run.tail (.askStop _)).tail (.beginStop _ 0 rfl)
  have begun : Reachable ⟨⟨.stopping, 2, [lateTrigger], 1, true, ⟨1, 0, 1, 0⟩⟩, .start (), .working,
      false, .free, [.answered .accepted, .answered .droppedOverflow, .permitted lateTrigger,
        .entered lateTrigger], [.first],
      [.queued lateTrigger, .counted 0 .accepted, .counted 1 .droppedOverflow]⟩ :=
    ⟨1, (), Nat.one_pos, run⟩
  have broken : Arises ⟨⟨.stopping, 2, [], 1, false, ⟨1, 0, 1, 0⟩⟩, .start (), .ended,
      false, .free, [.answered .accepted, .answered .droppedOverflow, .permitted lateTrigger,
        .entered lateTrigger], [.first],
      [.queued lateTrigger, .counted 0 .accepted, .counted 1 .droppedOverflow]⟩ :=
    begun.arises.tail (.breakDown _)
  have third := ((broken.call 2 _ rfl).call 2 _ rfl).call 2 _ rfl
  exact (third.call 3 _ rfl).call 3 _ rfl

/-- Whichever way out the callers took, nobody is counted, and nobody is granted anything. -/
theorem permits_exact_of_brokenDown :
    brokenDown.Arises ∧ brokenDown.inbox.lifecycle ≠ .running ∧
    brokenDown.inbox.inFlight = 0 ∧
    ∀ t, FaultySteps brokenDown t → ∀ c ∈ t.calls, c.isGranted = false := by
  have hl : brokenDown.inbox.lifecycle ≠ .running := by decide
  obtain ⟨-, hzero, -, hshut⟩ := arises_brokenDown.permits_exact
  have hz : brokenDown.inbox.inFlight = 0 := hzero.mpr (by decide)
  exact ⟨arises_brokenDown, hl, hz, hshut hl hz⟩

end System

end BoardAudit
