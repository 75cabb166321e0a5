import BoardAudit.Proofs.Tracker.Soundness
import Mathlib.Order.Monotone.Basic

/-!
# Runs

A run of a tracker is its state at every moment, each reached by one step from the state before. Since
somebody may always ask for something, what steps lead to is the beginning of a run:
`Reachable.exists_run`.

`existsUnique_rise`: what rises by at most one at a time passes every height below its last exactly once.
-/

namespace BoardAudit

/-- What rises by at most one at a time passes from a height to the next exactly once, if it gets beyond
that height. -/
lemma existsUnique_rise {f : ℕ → ℕ} (hf : ∀ i, f (i + 1) = f i ∨ f (i + 1) = f i + 1) {m j : ℕ}
    (h0 : f 0 ≤ m) (hj : m < f j) : ∃! i, i < j ∧ f i = m ∧ f (i + 1) = m + 1 := by
  have mono : Monotone f := by
    refine monotone_nat_of_le_succ fun i => ?_
    rcases hf i with h | h <;> omega
  refine existsUnique_of_exists_of_unique ?_ ?_
  · induction j with
    | zero => omega
    | succ j ih =>
      by_cases h : m < f j
      · obtain ⟨i, hi, hm, hm'⟩ := ih h
        exact ⟨i, by omega, hm, hm'⟩
      · have := hf j
        exact ⟨j, by omega, by omega, by omega⟩
  · rintro i i' ⟨-, hi, hi'⟩ ⟨-, hm, hm'⟩
    rcases Nat.lt_trichotomy i i' with hlt | rfl | hlt
    · have := mono (show i + 1 ≤ i' from hlt)
      omega
    · rfl
    · have := mono (show i' + 1 ≤ i from hlt)
      omega

namespace System

variable {σ : Type} {s t : System σ} {run : ℕ → System σ}

/-- A run: at first the tracker is new, and one step leads from every moment to the next. -/
structure Run (run : ℕ → System σ) : Prop where
  start : ∃ capacity log, 0 < capacity ∧ run 0 = System.start capacity log
  step : ∀ i, Step (run i) (run (i + 1))

namespace Run

lemma steps (h : Run run) {i j : ℕ} (hij : i ≤ j) : Steps (run i) (run j) := by
  induction hij with
  | refl => exact .refl
  | step _ ih => exact ih.tail (h.step _)

theorem reachable (h : Run run) (i : ℕ) : (run i).Reachable := by
  obtain ⟨capacity, log, hc, h0⟩ := h.start
  exact ⟨capacity, log, hc, h0 ▸ h.steps (Nat.zero_le i)⟩

lemma sound (h : Run run) (i : ℕ) : Sound (run i) := (h.reachable i).sound

end Run

/-- What goes on by steps from where steps lead goes on from where these begin. -/
lemma Steps.exists_extension (steps : Steps s t) {rest : ℕ → System σ} (h0 : rest 0 = t)
    (hr : ∀ i, Step (rest i) (rest (i + 1))) :
    ∃ run : ℕ → System σ, ∃ n, run 0 = s ∧ (∀ i, Step (run i) (run (i + 1))) ∧
      ∀ i, run (n + i) = rest i := by
  induction steps generalizing rest with
  | refl => exact ⟨rest, 0, h0, hr, fun i => by rw [Nat.zero_add]⟩
  | @tail t u _ step ih =>
    -- One moment more, in front of the rest.
    let longer : ℕ → System σ := fun i => Nat.casesOn i t rest
    have hlonger : ∀ i, Step (longer i) (longer (i + 1)) := by
      rintro (_ | i)
      · show Step t (rest 0)
        rw [h0]
        exact step
      · exact hr i
    obtain ⟨run, n, hs, hrun, he⟩ := ih (show longer 0 = t from rfl) hlonger
    refine ⟨run, n + 1, hs, hrun, fun i => ?_⟩
    rw [Nat.add_assoc, Nat.add_comm 1 i]
    exact he (i + 1)

/-- The states that can be reached are those of runs. -/
theorem Reachable.exists_run (hs : s.Reachable) : ∃ run : ℕ → System σ, Run run ∧ ∃ n, run n = s := by
  obtain ⟨capacity, log, hc, steps⟩ := hs
  -- Somebody may always ask for something.
  let r : Request := .names "" .nil "" ∅
  let rest (i : ℕ) : System σ := { s with calls := s.calls ++ List.replicate i (.asked r) }
  have hrest : ∀ i, Step (rest i) (rest (i + 1)) := by
    intro i
    have := Step.ask (rest i) r
    simpa [rest, List.replicate_succ'] using this
  obtain ⟨run, n, h0, hstep, he⟩ := steps.exists_extension (show rest 0 = s by simp [rest]) hrest
  refine ⟨run, ⟨⟨capacity, log, hc, h0⟩, hstep⟩, n, ?_⟩
  simpa [rest] using he 0

end System

end BoardAudit
