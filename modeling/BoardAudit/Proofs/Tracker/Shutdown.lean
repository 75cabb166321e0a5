import BoardAudit.Proofs.Tracker.Soundness

/-!
# Shutdown

Once the worker has seen that nobody is in flight, nothing is queued any more: `Steps.nothing_queued`. So
what it then finds in the queue is all there will ever be, and when the tracker is stopped every trigger
that was ever queued has been received, and was handled or gave way to a later one of its key:
`Reachable.nothing_lost`. To be handled is to be given to `Environment.handle`: `Steps.handles`.
-/

namespace BoardAudit

namespace System

variable {σ : Type} {s t : System σ}

/-! ### After the worker has seen nobody in flight -/

lemma hasObserved_step (step : Step s t) (hp : s.phase.hasObserved = true) :
    t.phase.hasObserved = true := by
  cases step with
  | heedStop hp' hw =>
    rw [hp'] at hp
    cases hp
  | observe => rfl
  | sweepEnd => rfl
  | lastDrain => rfl
  | markStopped => rfl
  | exit => rfl
  | _ => exact hp

lemma queued_step_of_hasObserved (hs : Sound s) (step : Step s t)
    (hp : s.phase.hasObserved = true) :
    t.history.queued = s.history.queued ∧ t.inbox.queue <:+ s.inbox.queue := by
  cases step with
  | call n c hc =>
    have hn := hs.queues?_eq_none hp hc
    have hq := (c.move_step s.inbox).queue_eq
    rw [hn, Option.toList_none, List.append_nil] at hq
    refine ⟨?_, ?_⟩
    · rw [queued_advance, hn, Option.toList_none, List.append_nil]
    · exact hq ▸ List.suffix_rfl
  | beginStop n hn => simp [setStop, Inbox.beginStop_snd]
  | sendStop n hn hw => simp [setStop]
  | receive u rest hp' hq =>
    rw [hp'] at hp
    cases hp
  | sweep u rest hp' hq => simp [System.receive, hq]
  | tick es hp' he =>
    rw [hp'] at hp
    cases hp
  | lastDrain es hp' he => simp [enter, drainAs]
  | exit hp' => simp [enter]
  | _ => exact ⟨rfl, List.suffix_rfl⟩

/-- From when the worker has seen nobody in flight, nothing is queued, and the queue only shrinks. -/
theorem Steps.nothing_queued (hs : Sound s) (hp : s.phase.hasObserved = true) (steps : Steps s t) :
    t.history.queued = s.history.queued ∧ t.inbox.queue <:+ s.inbox.queue := by
  have key : t.phase.hasObserved = true ∧
      t.history.queued = s.history.queued ∧ t.inbox.queue <:+ s.inbox.queue := by
    induction steps with
    | refl => exact ⟨hp, rfl, List.suffix_rfl⟩
    | tail steps step ih =>
      obtain ⟨hp', hq, hsuf⟩ := ih
      obtain ⟨hq', hsuf'⟩ := queued_step_of_hasObserved (hs.steps steps) step hp'
      exact ⟨hasObserved_step step hp', hq'.trans hq, hsuf'.trans hsuf⟩
  exact key.2

/-! ### After the tracker is marked as stopped -/

lemma worker_step_of_hasMarked (step : Step s t) (hp : s.phase.hasMarked = true) :
    t.phase.hasMarked = true ∧ t.worker = s.worker := by
  -- Where the worker is said to be in a phase, that phase is a late one or there is no such step.
  cases step with
  | markStopped => exact ⟨rfl, rfl⟩
  | exit => exact ⟨rfl, rfl⟩
  | receive u rest hp' hq => simp [hp', Phase.hasMarked] at hp
  | tick es hp' he => simp [hp', Phase.hasMarked] at hp
  | heedStop hp' hw => simp [hp', Phase.hasMarked] at hp
  | observe hp' hi => simp [hp', Phase.hasMarked] at hp
  | sweep u rest hp' hq => simp [hp', Phase.hasMarked] at hp
  | sweepEnd hp' hq => simp [hp', Phase.hasMarked] at hp
  | lastDrain es hp' he => simp [hp', Phase.hasMarked] at hp
  | _ => exact ⟨hp, rfl⟩

/-- From when the tracker is marked as stopped, the worker does nothing. -/
theorem Steps.worker_eq (hp : s.phase.hasMarked = true) (steps : Steps s t) :
    t.phase.hasMarked = true ∧ t.worker = s.worker := by
  induction steps with
  | refl => exact ⟨hp, rfl⟩
  | tail _ step ih =>
    obtain ⟨hp', hw⟩ := ih
    obtain ⟨hp'', hw'⟩ := worker_step_of_hasMarked step hp'
    exact ⟨hp'', hw'.trans hw⟩

/-! ### What is dispatched -/

/-- What has been dispatched since the start are calls of the handler, which lead from no snapshots to
those of the worker. -/
theorem Steps.handles {capacity : ℕ} {log : σ} (steps : Steps (start capacity log) s) :
    Handles (.empty, log) s.history.dispatches (s.worker.snapshots, s.worker.log) := by
  induction steps with
  | refl => exact .nil _
  | tail _ step ih =>
    rcases step.worker_cases with ⟨u, rest, -, hw, hh⟩ | ⟨es, -, hw, hh⟩ | ⟨hw, g, hh, hg⟩
    · rw [hw, hh]
      exact ih.receive u
    · rw [hw, hh]
      exact ih.drainAs es
    · rw [hw, hh]
      exact ih.aside hg

/-! ### When the tracker is stopped -/

/-- **No accepted trigger is lost.** What has been dispatched are calls of the handler one after the other,
each with its outcome. From when the worker has seen nobody in flight, nothing is queued any more and the
queue only shrinks. When the tracker is stopped, nothing is queued and nothing waits; what was received is
what was queued, once and in its order, and as much was counted as accepted; and everything received was
handled by the first drain after it, or gave way there to a later trigger of its key. -/
theorem Reachable.nothing_lost (hs : s.Reachable) :
    (∃ log, Handles (.empty, log) s.history.dispatches (s.worker.snapshots, s.worker.log)) ∧
    (s.phase.hasObserved = true → ∀ t, Steps s t →
      t.history.queued = s.history.queued ∧ t.inbox.queue <:+ s.inbox.queue) ∧
    (s.inbox.lifecycle = .stopped →
      s.inbox.queue = [] ∧ s.worker.pending = .empty ∧
      s.history.received = s.history.queued ∧
      s.inbox.admissions.accepted = s.history.queued.length ∧
      ∀ before u after, s.history = before ++ .received u :: after →
        ∃ mid ds rest, after = mid ++ .drained ds :: rest ∧ (∀ ds', .drained ds' ∉ mid) ∧
          ∃ d ∈ ds, d.trigger.key = u.key ∧ (d.trigger = u ∨ .received d.trigger ∈ mid)) := by
  have hsound := hs.sound
  obtain ⟨_, log, -, run⟩ := hs
  refine ⟨⟨log, run.handles⟩, fun hp t steps => steps.nothing_queued hsound hp, fun hl => ?_⟩
  have hm := hsound.stopped.mp hl
  have hq := hsound.swept (Phase.hasSwept_of_hasMarked hm)
  have hw := hsound.drained (Phase.hasDrained_of_hasMarked hm)
  have hsent := hsound.countP_isSent (Phase.hasObserved_of_hasMarked hm)
  refine ⟨hq, hw, ?_, ?_, ?_⟩
  · rw [hsound.queued, hq, List.append_nil]
  · rw [← hsound.accepted, hsent, Nat.add_zero]
  · intro before u after he
    exact (he ▸ hsound.kept.settled).exists_dispatch (he ▸ hsound.kept.waiting_eq_nil hw)

/-- What a caller sent after the stop had begun is handled. -/
theorem nothing_lost_of_late_send :
    (lateSend.phase.hasObserved = true ∧ lateSend.inbox.lifecycle = .stopped) ∧
    (∃ log, Handles (.empty, log) lateSend.history.dispatches
      (lateSend.worker.snapshots, lateSend.worker.log)) ∧
    (∀ t, Steps lateSend t → t.history.queued = [lateTrigger]) ∧
    lateSend.history.received = [lateTrigger] ∧ lateSend.inbox.admissions.accepted = 1 ∧
    ∃ ds, .drained ds ∈ lateSend.history ∧ ∃ d ∈ ds, d.trigger.key = lateTrigger.key := by
  obtain ⟨hcalls, hlater, hstopped⟩ := reachable_lateSend.nothing_lost
  obtain ⟨-, -, hr, ha, hd⟩ := hstopped rfl
  obtain ⟨mid, ds, rest, he, -, d, hmem, hkey, -⟩ :=
    hd [.stopSent, .queued lateTrigger, .counted 0 .accepted] lateTrigger _ rfl
  refine ⟨⟨rfl, rfl⟩, hcalls, fun t steps => (hlater rfl t steps).1, hr, ha, ds, ?_, d, hmem, hkey⟩
  have hin : Happening.drained ds ∈ mid ++ .drained ds :: rest := by simp
  rw [← he] at hin
  simp only [lateSend, List.mem_cons] at hin ⊢
  tauto

end System

end BoardAudit
