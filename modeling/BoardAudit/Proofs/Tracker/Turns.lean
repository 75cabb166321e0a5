import BoardAudit.Proofs.Tracker.Soundness
import Mathlib.Logic.Relation

/-!
# Turns

A tracker can be worked by hand: one thing is done with it after the other, each to its end. Among its
threads that is a run in which nothing comes between the steps of a call, and nothing between those of the
worker's end. `System.Shows` says that a state shows the tracker between two turns; whatever is done by
hand is a run of steps from one such state to another (`System.Shows.turns`).
-/

namespace BoardAudit

variable {σ : Type}

/-! ### By hand -/

namespace Call

/-- A call that nothing comes between returns. -/
lemma exists_answered (i : Inbox) (r : Request) : ∃ a, (finish i (.asked r)).1 = .answered a := by
  rw [finish_asked]
  cases r.trigger? with
  | none => exact ⟨_, rfl⟩
  | some t => exact ⟨_, rfl⟩

/-- The steps of a call leave the lifecycle as it is. -/
lemma lifecycle_finish (i : Inbox) (c : Call) : (finish i c).2.lifecycle = i.lifecycle := by
  unfold finish
  generalize 5 = k
  induction k with
  | zero => rfl
  | succ k ih => exact ((move_step _ _).lifecycle_eq).trans ih

end Call

namespace Tracker

/-- What can be done with a tracker by hand: something is brought in, the worker takes up to so many
triggers from the queue, it drains, the stop is begun, or, once it has begun, the worker ends. -/
inductive Turn : Tracker σ → Tracker σ → Prop where
  | request (t : Tracker σ) (r : Request) : Turn t (t.request r)
  | pump (t : Tracker σ) (n : ℕ) : Turn t (t.pump n).2
  | drain (t : Tracker σ) (env : Environment σ) : Turn t (t.drain env).2
  | beginStop (t : Tracker σ) : Turn t t.beginStop.2
  | finish (t : Tracker σ) (env : Environment σ) (h : t.inbox.lifecycle = .stopping) :
      Turn t (t.finish env).2

/-- What can be done by hand, one thing after the other. -/
abbrev Turns : Tracker σ → Tracker σ → Prop := Relation.ReflTransGen Turn

/-- Where nothing is queued there is nothing to take. -/
lemma pump_of_queue {t : Tracker σ} (h : t.inbox.queue = []) (n : ℕ) : (t.pump n).2 = t := by
  obtain ⟨config, ⟨lifecycle, inFlight, queue, capacity, connected, admissions⟩, worker⟩ := t
  obtain rfl : queue = [] := h
  simp [pump, Worker.receiveAll]

/-- Where nothing waits there is nothing to drain. -/
lemma drain_of_pending {t : Tracker σ} (h : t.worker.pending = .empty) (env : Environment σ) :
    (t.drain env).2 = t := by
  have hempty : t.worker.pending.isEmpty = true := Batch.isEmpty_iff.mpr h
  simp only [drain, Worker.drain, Worker.drainAs, hempty, if_true]

/-- After the stop has begun the worker is to end, or has ended. -/
lemma lifecycle_beginStop (t : Tracker σ) (h : t.beginStop.2.inbox.lifecycle ≠ .stopped) :
    t.beginStop.2.inbox.lifecycle = .stopping := by
  simp only [beginStop, Inbox.beginStop_snd] at h ⊢
  split
  · rfl
  · next hr =>
    rw [if_neg hr] at h
    cases hl : t.inbox.lifecycle <;> simp_all

/-- To stop a tracker is to begin the stop and to let the worker end, unless it has. -/
theorem turns_stop (t : Tracker σ) (env : Environment σ) : t.Turns (t.stop env).2.2 := by
  have begun : t.Turns t.beginStop.2 := .single (.beginStop t)
  have hstopping := t.lifecycle_beginStop
  rcases hb : t.beginStop with ⟨events, u⟩
  rw [hb] at begun hstopping
  simp only [stop, hb]
  split
  · exact begun
  · next hl => exact begun.tail (.finish u env (hstopping hl))

end Tracker

/-! ### Among the threads -/

namespace System

variable {s : System σ} {t t' : Tracker σ}

/-- The state shows a tracker between two turns: no call is under way, and a worker that is to stop has
been told so and works on. -/
structure Shows (s : System σ) (t : Tracker σ) : Prop where
  reachable : s.Reachable
  inbox : s.inbox = t.inbox
  worker : s.worker = t.worker
  idle : ∀ c ∈ s.calls, c.isInFlight = false
  told : t.inbox.lifecycle = .stopping → s.phase = .working ∧ s.stopWaits = true

/-- A tracker at its start is shown by the start. -/
theorem shows_start (config : Config) (log : σ) :
    (start config.effectiveCapacity.toNat log).Shows (.start config log) where
  reachable := ⟨_, log, UInt64.le_iff_toNat_le.mp config.one_le_effectiveCapacity, .refl⟩
  inbox := rfl
  worker := rfl
  idle := by simp [start]
  told h := by cases h

namespace Shows

/-- Until the worker is stopped it works. -/
lemma working (h : s.Shows t) (hl : t.inbox.lifecycle ≠ .stopped) : s.phase = .working := by
  cases hr : t.inbox.lifecycle with
  | running => exact (h.reachable.sound.running (h.inbox ▸ hr)).1
  | stopping => exact (h.told hr).1
  | stopped => exact absurd hr hl

/-- When the worker is stopped, nothing is queued and nothing waits. -/
lemma nothing_left (h : s.Shows t) (hl : t.inbox.lifecycle = .stopped) :
    t.inbox.queue = [] ∧ t.worker.pending = .empty := by
  have hs := h.reachable.sound
  have hm := hs.stopped.mp (h.inbox ▸ hl)
  exact ⟨h.inbox ▸ hs.swept (Phase.hasSwept_of_hasMarked hm),
    h.worker ▸ hs.drained (Phase.hasDrained_of_hasMarked hm)⟩

/-- Nobody is in flight. -/
lemma inFlight (h : s.Shows t) : s.inbox.inFlight = 0 := by
  rw [h.reachable.sound.inFlight, List.countP_eq_zero]
  exact fun c hc => Bool.eq_false_iff.mp (h.idle c hc)

end Shows

/-! ### One turn -/

/-- A call takes some steps that nothing comes between. -/
lemma call_steps {n : ℕ} {c : Call} (hc : s.calls[n]? = some c) (k : ℕ) :
    ∃ h, Steps s { s with
      inbox := (Nat.repeat (fun p => p.1.step p.2) k (c, s.inbox)).2
      calls := s.calls.set n (Nat.repeat (fun p => p.1.step p.2) k (c, s.inbox)).1
      history := h } := by
  obtain ⟨hn, rfl⟩ := List.getElem?_eq_some_iff.mp hc
  induction k with
  | zero => exact ⟨s.history, by simpa [Nat.repeat] using Steps.refl⟩
  | succ k ih =>
    obtain ⟨h, steps⟩ := ih
    have := steps.tail (.call _ n _ (List.getElem?_set_self hn))
    exact ⟨_, by simpa [advance, Nat.repeat] using this⟩

namespace Shows

/-- Something is brought in, and the call returns. -/
lemma request (h : s.Shows t) (r : Request) : ∃ u, Steps s u ∧ u.Shows (t.request r) := by
  have hnew : (s.calls ++ [Call.asked r])[s.calls.length]? = some (.asked r) := by simp
  obtain ⟨history, made⟩ :=
    call_steps (s := { s with calls := s.calls ++ [.asked r] }) hnew 5
  have steps := Steps.head (.ask s r) made
  have hset (c : Call) : (s.calls ++ [Call.asked r]).set s.calls.length c = s.calls ++ [c] := by simp
  obtain ⟨a, ha⟩ := Call.exists_answered s.inbox r
  rw [Tracker.request_eq_finish]
  refine ⟨_, steps, h.reachable.steps steps, ?_, h.worker, ?_, ?_⟩
  · rw [← h.inbox]
    rfl
  · intro c hc
    have hc : c ∈ s.calls ++ [Call.answered a] := by
      rw [← ha, ← hset]
      exact hc
    rcases List.mem_append.mp hc with hc | hc
    · exact h.idle c hc
    · obtain rfl := List.mem_singleton.mp hc
      rfl
  · intro hl
    exact h.told ((Call.lifecycle_finish t.inbox (.asked r)).symm.trans hl)

/-- The worker takes over the head of the queue; from a stopped tracker there is nothing to take. -/
lemma pump (h : s.Shows t) (n : ℕ) : ∃ u, Steps s u ∧ u.Shows (t.pump n).2 := by
  by_cases hl : t.inbox.lifecycle = .stopped
  · have he := Tracker.pump_of_queue (h.nothing_left hl).1 n
    exact ⟨s, .refl, he.symm ▸ h⟩
  · have hqueue : s.inbox.queue = t.inbox.queue.take n ++ t.inbox.queue.drop n := by
      rw [List.take_append_drop, h.inbox]
    have steps := takeOver_steps (.inl (h.working hl)) hqueue
    refine ⟨_, steps, h.reachable.steps steps, ?_, ?_, h.idle, h.told⟩
    · simp only [h.inbox, Tracker.pump]
    · simp only [h.worker, Tracker.pump]

/-- The worker drains; for a stopped tracker there is nothing to drain. -/
lemma drain (h : s.Shows t) (env : Environment σ) : ∃ u, Steps s u ∧ u.Shows (t.drain env).2 := by
  by_cases hl : t.inbox.lifecycle = .stopped
  · have he := Tracker.drain_of_pending (h.nothing_left hl).2 env
    exact ⟨s, .refl, he.symm ▸ h⟩
  · have step := Step.tick s _ (h.working hl) (s.worker.awaits_triggers env)
    have steps : Steps s _ := Steps.refl.tail step
    refine ⟨_, steps, h.reachable.steps steps, h.inbox, ?_, h.idle, h.told⟩
    show (s.worker.drain env).2 = (t.worker.drain env).2
    rw [h.worker]

/-- Somebody begins the stop and sends the message of it; if it has begun, nothing is to be done. -/
lemma beginStop (h : s.Shows t) : ∃ u, Steps s u ∧ u.Shows t.beginStop.2 := by
  by_cases hl : t.inbox.lifecycle = .running
  · have hr : s.inbox.lifecycle = .running := h.inbox ▸ hl
    obtain ⟨hworking, hfree, -⟩ := h.reachable.sound.running hr
    have hasked : (s.stops ++ [StopCall.asked])[s.stops.length]? = some .asked := by simp
    have begun := (Steps.refl.tail (.askStop s)).tail (.beginStop _ s.stops.length hasked)
    have hfirst : s.inbox.beginStop.1 = true := by simp [Inbox.beginStop, hr]
    have steps := begun.tail (.sendStop _ s.stops.length (by simp [setStop, hfirst]) hfree)
    refine ⟨_, steps, h.reachable.steps steps, ?_, h.worker, h.idle, fun _ => ⟨hworking, rfl⟩⟩
    show s.inbox.beginStop.2 = t.inbox.beginStop.2
    rw [h.inbox]
  · have he : t.beginStop.2 = t := by
      simp only [Tracker.beginStop, Inbox.beginStop, if_neg hl]
    exact ⟨s, .refl, he.symm ▸ h⟩

/-- The worker takes the message of the stop, finds nobody in flight and ends. -/
lemma finish (h : s.Shows t) (env : Environment σ) (hl : t.inbox.lifecycle = .stopping) :
    ∃ u, Steps s u ∧ u.Shows (t.finish env).2 := by
  obtain ⟨hworking, htold⟩ := h.told hl
  have ended := finish_steps (s := { s with stopWaits := false }.enter .ending) rfl h.inFlight t.config env
  have steps := Steps.head (.heedStop s hworking htold) ended
  have he : (⟨t.config, s.inbox, s.worker⟩ : Tracker σ) = t := by
    rw [h.inbox, h.worker]
  refine ⟨_, steps, h.reachable.steps steps, ?_, ?_, h.idle, ?_⟩
  · show (Tracker.finish env ⟨t.config, s.inbox, s.worker⟩).2.inbox = _
    rw [he]
  · show (Tracker.finish env ⟨t.config, s.inbox, s.worker⟩).2.worker = _
    rw [he]
  · intro hstopping
    cases hstopping

/-! ### Any turns -/

/-- One turn is a run of steps. -/
theorem turn (h : s.Shows t) (turn : t.Turn t') : ∃ u, Steps s u ∧ u.Shows t' := by
  cases turn with
  | request r => exact h.request r
  | pump n => exact h.pump n
  | drain env => exact h.drain env
  | beginStop => exact h.beginStop
  | finish env hl => exact h.finish env hl

/-- **By hand.** Whatever is done with a tracker by hand is a run of steps among its threads. -/
theorem turns (h : s.Shows t) (turns : t.Turns t') : ∃ u, Steps s u ∧ u.Shows t' := by
  induction turns with
  | refl => exact ⟨s, .refl, h⟩
  | tail _ turn ih =>
    obtain ⟨u, steps, hu⟩ := ih
    obtain ⟨v, steps', hv⟩ := hu.turn turn
    exact ⟨v, steps.trans steps', hv⟩

end Shows

end System

end BoardAudit
