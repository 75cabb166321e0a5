import BoardAudit.Proofs.Tracker.Coalescing
import BoardAudit.Proofs.Tracker.Moves
import BoardAudit.Tracker.System

/-!
# Soundness

`Sound` is what holds of a tracker among its threads at every moment: those in flight are counted, the
queue is what was queued and not yet received, the stop goes before the end of the worker, and once the
worker has seen nobody in flight, nobody is granted anything any more. One lemma for each part says that
every step keeps it; `Reachable.sound` puts them together.

`Step.call_or_keepsCalls` and `Step.worker_cases` say once what a step can do, to the calls and to the
worker.
-/

namespace BoardAudit

namespace Phase

/-- Whether the worker has seen that nobody is in flight. -/
def hasObserved : Phase → Bool
  | .working | .ending => false
  | .sweeping | .swept | .drained | .marked | .ended => true

/-- Whether the worker has found the queue empty. -/
def hasSwept : Phase → Bool
  | .working | .ending | .sweeping => false
  | .swept | .drained | .marked | .ended => true

/-- Whether the last drain is done. -/
def hasDrained : Phase → Bool
  | .working | .ending | .sweeping | .swept => false
  | .drained | .marked | .ended => true

/-- Whether the worker has marked the tracker as stopped. -/
def hasMarked : Phase → Bool
  | .working | .ending | .sweeping | .swept | .drained => false
  | .marked | .ended => true

lemma hasObserved_of_hasSwept {p : Phase} (h : p.hasSwept = true) : p.hasObserved = true := by
  cases p <;> first | rfl | cases h

lemma hasObserved_of_hasMarked {p : Phase} (h : p.hasMarked = true) : p.hasObserved = true := by
  cases p <;> first | rfl | cases h

lemma hasSwept_of_hasMarked {p : Phase} (h : p.hasMarked = true) : p.hasSwept = true := by
  cases p <;> first | rfl | cases h

lemma hasDrained_of_hasMarked {p : Phase} (h : p.hasMarked = true) : p.hasDrained = true := by
  cases p <;> first | rfl | cases h

end Phase

/-- How a count changes with one element of a list. -/
lemma countP_set {α : Type} {p : α → Bool} {l : List α} {n : ℕ} {a : α} (b : α)
    (h : l[n]? = some a) :
    (l.set n b).countP p + (if p a then 1 else 0) = l.countP p + if p b then 1 else 0 := by
  induction l generalizing n with
  | nil => simp at h
  | cons x l ih =>
    cases n with
    | zero =>
      obtain rfl : x = a := by simpa using h
      simp only [List.set_cons_zero, List.countP_cons]
      omega
    | succ n =>
      have := ih (by simpa using h)
      simp only [List.set_cons_succ, List.countP_cons]
      omega

namespace System

variable {σ : Type} {s t : System σ}

/-- What holds at every moment. -/
structure Sound (s : System σ) : Prop where
  /-- Those in flight are counted. -/
  inFlight : s.inbox.inFlight = s.calls.countP Call.isInFlight
  /-- What was queued is counted as accepted, or is about to be. -/
  accepted : s.inbox.admissions.accepted + s.calls.countP Call.isSent = s.history.queued.length
  /-- What was queued was received, in its order, or is in the queue. -/
  queued : s.history.queued = s.history.received ++ s.inbox.queue
  /-- While the tracker is running nothing of the stop is under way. -/
  running : s.inbox.lifecycle = .running →
    s.phase = .working ∧ s.stopWaits = false ∧ StopCall.first ∉ s.stops
  /-- The tracker is stopped from when the worker marks it. -/
  stopped : s.inbox.lifecycle = .stopped ↔ s.phase.hasMarked = true
  /-- Once the worker has seen nobody in flight, nobody is granted anything. -/
  observed : s.phase.hasObserved = true → ∀ c ∈ s.calls, c.isGranted = false
  /-- Once the worker has found the queue empty, it stays so. -/
  swept : s.phase.hasSwept = true → s.inbox.queue = []
  /-- After the last drain nothing waits. -/
  drained : s.phase.hasDrained = true → s.worker.pending = .empty
  /-- The worker is what its history makes it. -/
  kept : Kept s.history s.worker

lemma Sound.start (capacity : ℕ) (log : σ) : Sound (start capacity log) where
  inFlight := rfl
  accepted := rfl
  queued := rfl
  running _ := ⟨rfl, rfl, by simp [System.start]⟩
  stopped := by simp [System.start, Inbox.start, Phase.hasMarked]
  observed h := by cases h
  swept h := by cases h
  drained h := by cases h
  kept := .start log

/-! ### What the steps do to the histories -/

@[simp] lemma queued_advance (s : System σ) (n : ℕ) (c : Call) :
    (s.advance n c).history.queued = s.history.queued ++ (c.queues? s.inbox).toList := by
  cases hq : c.queues? s.inbox <;> cases hc : c.counts? <;>
    simp [advance, hq, hc]

@[simp] lemma received_advance (s : System σ) (n : ℕ) (c : Call) :
    (s.advance n c).history.received = s.history.received := by
  cases hq : c.queues? s.inbox <;> cases hc : c.counts? <;>
    simp [advance, hq, hc]

/-! ### What a step can do -/

/-- What holds of a step that is not one of a call: the calls stay as they are, except that somebody may
ask for more, and so does what they count. -/
structure KeepsCalls (s t : System σ) : Prop where
  calls : ∃ rs : List Request, t.calls = s.calls ++ rs.map .asked
  inFlight : t.inbox.inFlight = s.inbox.inFlight
  admissions : t.inbox.admissions = s.inbox.admissions
  queued : t.history.queued = s.history.queued
  counted : t.history.counted = s.history.counted

/-- A step is one of a call, or keeps the calls. -/
lemma Step.call_or_keepsCalls (step : Step s t) :
    (∃ n c, s.calls[n]? = some c ∧ t = s.advance n c) ∨ KeepsCalls s t := by
  have same : s.calls = s.calls ++ [].map .asked := by simp
  cases step with
  | call n c hc => exact .inl ⟨n, c, hc, rfl⟩
  | ask r => exact .inr ⟨⟨[r], rfl⟩, rfl, rfl, rfl, rfl⟩
  | beginStop n hn =>
    refine .inr ⟨⟨[], same⟩, ?_, ?_, rfl, rfl⟩
    all_goals simp [setStop, Inbox.beginStop_snd]
  | sendStop n hn hw => exact .inr ⟨⟨[], same⟩, rfl, rfl, by simp [setStop], by simp [setStop]⟩
  | receive u rest hp hq =>
    exact .inr ⟨⟨[], same⟩, rfl, rfl, by simp [System.receive], by simp [System.receive]⟩
  | sweep u rest hp hq =>
    exact .inr ⟨⟨[], same⟩, rfl, rfl, by simp [System.receive], by simp [System.receive]⟩
  | tick es hp he => exact .inr ⟨⟨[], same⟩, rfl, rfl, by simp [drainAs], by simp [drainAs]⟩
  | lastDrain es hp he =>
    exact .inr ⟨⟨[], same⟩, rfl, rfl, by simp [enter, drainAs], by simp [enter, drainAs]⟩
  | _ => exact .inr ⟨⟨[], same⟩, rfl, rfl, rfl, rfl⟩

/-- A call that is only asked for has no part in a count of calls further on. -/
lemma KeepsCalls.countP_calls (h : KeepsCalls s t) {p : Call → Bool}
    (hp : ∀ r, p (.asked r) = false) : t.calls.countP p = s.calls.countP p := by
  obtain ⟨rs, hc⟩ := h.calls
  rw [hc, List.countP_append, List.countP_map]
  simp [Function.comp_def, hp]

/-- A step lets the worker receive the first of the queue, lets it drain, or leaves it as it is. -/
lemma Step.worker_cases (step : Step s t) :
    (∃ u rest, s.inbox.queue = u :: rest ∧ t.worker = s.worker.receive u ∧
      t.history = s.history ++ [.received u]) ∨
    (∃ es, s.worker.Awaits es ∧ t.worker = (s.worker.drainAs es).2 ∧
      t.history = s.history ++ [.drained (s.worker.drainAs es).1]) ∨
    (t.worker = s.worker ∧
      ∃ g : History, t.history = s.history ++ g ∧ ∀ x ∈ g, x.isWorkers = false) := by
  cases step with
  | receive u rest hp hq => exact .inl ⟨u, rest, hq, rfl, rfl⟩
  | sweep u rest hp hq => exact .inl ⟨u, rest, hq, rfl, rfl⟩
  | tick es hp he => exact .inr (.inl ⟨es, he, rfl, rfl⟩)
  | lastDrain es hp he => exact .inr (.inl ⟨es, he, rfl, rfl⟩)
  | call n c hc =>
    refine .inr (.inr ⟨rfl, _, List.append_assoc .., ?_⟩)
    simp [Happening.isWorkers, or_imp, forall_and]
  | sendStop n hn hw => exact .inr (.inr ⟨rfl, [.stopSent], rfl, by simp [Happening.isWorkers]⟩)
  | _ => exact .inr (.inr ⟨rfl, [], (List.append_nil _).symm, by simp⟩)

/-! ### What the steps keep -/

/-- A call in flight is counted. -/
lemma inFlight_pos (h : s.inbox.inFlight = s.calls.countP Call.isInFlight) {n : ℕ} {c : Call}
    (hc : s.calls[n]? = some c) (hi : c.isInFlight = true) : 0 < s.inbox.inFlight := by
  rw [h]
  exact List.countP_pos_iff.mpr ⟨c, List.mem_of_getElem? hc, hi⟩

lemma inFlight_step (h : s.inbox.inFlight = s.calls.countP Call.isInFlight) (step : Step s t) :
    t.inbox.inFlight = t.calls.countP Call.isInFlight := by
  rcases step.call_or_keepsCalls with ⟨n, c, hc, rfl⟩ | hk
  · have hm := (c.move_step s.inbox).inFlight_eq (inFlight_pos h hc)
    have hset := countP_set (p := Call.isInFlight) (c.step s.inbox).1 hc
    simp only [advance]
    omega
  · rw [hk.inFlight, h, hk.countP_calls fun _ => rfl]

lemma accepted_step (hs : Sound s) (step : Step s t) :
    t.inbox.admissions.accepted + t.calls.countP Call.isSent = t.history.queued.length := by
  have h := hs.accepted
  rcases step.call_or_keepsCalls with ⟨n, c, hc, rfl⟩ | hk
  · have hm := (c.move_step s.inbox).accepted_eq
    have hset := countP_set (p := Call.isSent) (c.step s.inbox).1 hc
    rw [queued_advance, List.length_append]
    simp only [advance]
    omega
  · rw [hk.admissions, hk.queued, hk.countP_calls fun _ => rfl, h]

lemma queued_step (hs : Sound s) (step : Step s t) :
    t.history.queued = t.history.received ++ t.inbox.queue := by
  have h := hs.queued
  cases step with
  | call n c hc =>
    have hm := (c.move_step s.inbox).queue_eq
    rw [queued_advance, received_advance, h, List.append_assoc, ← hm]
    rfl
  | beginStop n hn => simpa [setStop, Inbox.beginStop_snd] using h
  | sendStop n hn hw => simpa [setStop] using h
  | receive u rest hp hq => simpa [receive, hq] using h
  | sweep u rest hp hq => simpa [receive, hq] using h
  | tick es hp he => simpa [drainAs] using h
  | lastDrain es hp he => simpa [enter, drainAs] using h
  | exit hp =>
    have hq : s.inbox.queue = [] := hs.swept (by rw [hp]; rfl)
    simpa [enter, hq] using h
  | _ => exact h

lemma running_step (hs : Sound s) (step : Step s t) (ht : t.inbox.lifecycle = .running) :
    t.phase = .working ∧ t.stopWaits = false ∧ StopCall.first ∉ t.stops := by
  -- No step makes the tracker run again, so it ran before.
  have h := hs.running
  have hset : ∀ {n : ℕ} {c : StopCall}, c ≠ .first → s.inbox.lifecycle = .running →
      StopCall.first ∉ s.stops.set n c := by
    intro n c hc hr hm
    rcases List.mem_or_eq_of_mem_set hm with hm | rfl
    · exact (h hr).2.2 hm
    · exact hc rfl
  cases step with
  | call n c hc =>
    have hl : (s.advance n c).inbox.lifecycle = s.inbox.lifecycle :=
      (c.move_step s.inbox).lifecycle_eq
    exact h (hl ▸ ht)
  | askStop =>
    obtain ⟨hp, hw, hf⟩ := h ht
    exact ⟨hp, hw, by simpa using hf⟩
  | beginStop n hn =>
    exfalso
    revert ht
    simp only [setStop, Inbox.beginStop_snd]
    split <;> simp_all
  | sendStop n hn hw => exact absurd (List.mem_of_getElem? hn) (h ht).2.2
  | takeHandle n hn hh => exact ⟨(h ht).1, (h ht).2.1, hset (by decide) ht⟩
  | missHandle n hn hh => exact ⟨(h ht).1, (h ht).2.1, hset (by decide) ht⟩
  | join n hn hp => cases ht
  | release n hn => exact ⟨(h ht).1, (h ht).2.1, hset (by decide) ht⟩
  | heedStop hp hw => exact absurd (h ht).2.1 (by simp [hw])
  | observe hp hi => exact absurd (h ht).1 (by simp [hp])
  | sweepEnd hp hq => exact absurd (h ht).1 (by simp [hp])
  | lastDrain es hp he => exact absurd (h ht).1 (by simp [hp])
  | markStopped hp => cases ht
  | exit hp => exact absurd (h ht).1 (by simp [hp])
  | _ => exact h ht

lemma stopped_step (hs : Sound s) (step : Step s t) :
    t.inbox.lifecycle = .stopped ↔ t.phase.hasMarked = true := by
  have h := hs.stopped
  cases step with
  | call n c hc =>
    have hl : (s.advance n c).inbox.lifecycle = s.inbox.lifecycle :=
      (c.move_step s.inbox).lifecycle_eq
    rw [hl]
    exact h
  | beginStop n hn =>
    simp only [setStop, Inbox.beginStop_snd]
    split
    · next hr => simpa [hr] using h
    · exact h
  | join n hn hp => simp [setStop, Inbox.markStopped, hp, Phase.hasMarked]
  | heedStop hp hw => simpa [enter, hp, Phase.hasMarked] using h
  | observe hp hi => simpa [enter, hp, Phase.hasMarked] using h
  | sweepEnd hp hq => simpa [enter, hp, Phase.hasMarked] using h
  | lastDrain es hp he => simpa [enter, drainAs, hp, Phase.hasMarked] using h
  | markStopped hp => simp [enter, Inbox.markStopped, Phase.hasMarked]
  | exit hp => simpa [enter, hp, Phase.hasMarked] using h
  | _ => exact h

/-- A worker that has seen nobody in flight saw the stop begun before. -/
lemma Sound.not_running (hs : Sound s) (hp : s.phase.hasObserved = true) :
    s.inbox.lifecycle ≠ .running := by
  intro hr
  rw [(hs.running hr).1] at hp
  cases hp

/-- Where nobody is counted as in flight, nobody is granted anything. -/
lemma not_isGranted_of_inFlight (h : s.inbox.inFlight = s.calls.countP Call.isInFlight)
    (hz : s.inbox.inFlight = 0) : ∀ c ∈ s.calls, c.isGranted = false := by
  intro c hc
  have hf : ¬ c.isInFlight = true := List.countP_eq_zero.mp (h.symm.trans hz) c hc
  exact Bool.eq_false_iff.mpr fun hg => hf (Call.isInFlight_of_isGranted hg)

/-- After the stop has begun, no step grants anything. -/
lemma Step.not_isGranted (step : Step s t) (hl : s.inbox.lifecycle ≠ .running)
    (h : ∀ c ∈ s.calls, c.isGranted = false) : ∀ c ∈ t.calls, c.isGranted = false := by
  intro d hd
  rcases step.call_or_keepsCalls with ⟨n, c, hc, rfl⟩ | hk
  · rcases List.mem_or_eq_of_mem_set hd with hd | rfl
    · exact h d hd
    · exact (c.move_step s.inbox).not_isGranted hl (h c (List.mem_of_getElem? hc))
  · obtain ⟨rs, hcalls⟩ := hk.calls
    rcases List.mem_append.mp (hcalls ▸ hd) with hd | hd
    · exact h d hd
    · obtain ⟨r, -, rfl⟩ := List.mem_map.mp hd
      rfl

lemma observed_step (hs : Sound s) (step : Step s t) (ht : t.phase.hasObserved = true) :
    ∀ c ∈ t.calls, c.isGranted = false := by
  have h := hs.observed
  cases step with
  | ask r => exact (Step.ask s r).not_isGranted (hs.not_running ht) (h ht)
  | call n c hc => exact (Step.call s n c hc).not_isGranted (hs.not_running ht) (h ht)
  | heedStop hp hw => cases ht
  | observe hp hi => exact not_isGranted_of_inFlight hs.inFlight hi
  | sweepEnd hp hq => exact h (by rw [hp]; rfl)
  | lastDrain es hp he => exact h (by rw [hp]; rfl)
  | markStopped hp => exact h (by rw [hp]; rfl)
  | exit hp => exact h (by rw [hp]; rfl)
  | _ => exact h ht

/-- Once the worker has seen nobody in flight, no call queues anything. -/
lemma Sound.queues?_eq_none (hs : Sound s) (hp : s.phase.hasObserved = true) {n : ℕ} {c : Call}
    (hc : s.calls[n]? = some c) : c.queues? s.inbox = none :=
  (c.move_step s.inbox).eq_none (hs.observed hp c (List.mem_of_getElem? hc))

/-- Once the worker has seen nobody in flight, nothing sent is left to be counted. -/
lemma Sound.countP_isSent (hs : Sound s) (hp : s.phase.hasObserved = true) :
    s.calls.countP Call.isSent = 0 := by
  refine List.countP_eq_zero.mpr fun c hc hsent => ?_
  have hg := hs.observed hp c hc
  rw [Call.isGranted_of_isSent hsent] at hg
  cases hg

lemma swept_step (hs : Sound s) (step : Step s t) (ht : t.phase.hasSwept = true) :
    t.inbox.queue = [] := by
  have h := hs.swept
  cases step with
  | call n c hc =>
    have hq := (c.move_step s.inbox).queue_eq
    rw [hs.queues?_eq_none (Phase.hasObserved_of_hasSwept ht) hc, h ht] at hq
    exact hq
  | beginStop n hn => simpa [setStop, Inbox.beginStop_snd] using h ht
  | receive u rest hp hq =>
    have hp' : s.phase.hasSwept = true := ht
    rw [hp] at hp'
    cases hp'
  | sweep u rest hp hq =>
    have hp' : s.phase.hasSwept = true := ht
    rw [hp] at hp'
    cases hp'
  | heedStop hp hw => cases ht
  | observe hp hi => cases ht
  | sweepEnd hp hq => exact hq
  | lastDrain es hp he => exact h (by rw [hp]; rfl)
  | markStopped hp => exact h (by rw [hp]; rfl)
  | exit hp => rfl
  | _ => exact h ht

lemma drained_step (hs : Sound s) (step : Step s t) (ht : t.phase.hasDrained = true) :
    t.worker.pending = .empty := by
  have h := hs.drained
  cases step with
  | receive u rest hp hq =>
    have hp' : s.phase.hasDrained = true := ht
    rw [hp] at hp'
    cases hp'
  | sweep u rest hp hq =>
    have hp' : s.phase.hasDrained = true := ht
    rw [hp] at hp'
    cases hp'
  | tick es hp he => exact s.worker.pending_drainAs es
  | heedStop hp hw => cases ht
  | observe hp hi => cases ht
  | sweepEnd hp hq => cases ht
  | lastDrain es hp he => exact s.worker.pending_drainAs es
  | markStopped hp => exact h (by rw [hp]; rfl)
  | exit hp => exact h (by rw [hp]; rfl)
  | _ => exact h ht

lemma kept_step (hs : Sound s) (step : Step s t) : Kept t.history t.worker := by
  have h := hs.kept
  rcases step.worker_cases with ⟨u, rest, -, hw, hh⟩ | ⟨es, he, hw, hh⟩ | ⟨hw, g, hh, hg⟩
  · rw [hw, hh]
    exact h.receive u
  · rw [hw, hh]
    exact h.drainAs he
  · rw [hw, hh]
    exact h.append hg

theorem Sound.step (hs : Sound s) (step : Step s t) : Sound t where
  inFlight := inFlight_step hs.inFlight step
  accepted := accepted_step hs step
  queued := queued_step hs step
  running := running_step hs step
  stopped := stopped_step hs step
  observed := observed_step hs step
  swept := swept_step hs step
  drained := drained_step hs step
  kept := kept_step hs step

theorem Sound.steps (hs : Sound s) (steps : Steps s t) : Sound t := by
  induction steps with
  | refl => exact hs
  | tail _ step ih => exact ih.step step

/-- **Soundness.** Every reachable state is sound. -/
theorem Reachable.sound (hs : s.Reachable) : Sound s := by
  obtain ⟨capacity, log, -, steps⟩ := hs
  exact (Sound.start capacity log).steps steps

/-! ### A late send -/

/-- A task was created. -/
def lateTrigger : Trigger := ⟨.task, ⟨1, by decide⟩, .created, ∅⟩

/-- The worker that has received one trigger. -/
def lateWorker : Worker Unit := (Worker.start ()).receive lateTrigger

/-- A stopped tracker. Its one caller found it running, and sent only after the stop had begun. -/
def lateSend : System Unit where
  inbox := ⟨.stopped, 0, [], 1, true, ⟨1, 0, 0, 0⟩⟩
  worker := (lateWorker.drain .crashing).2
  phase := .marked
  stopWaits := false
  handle := .free
  calls := [.answered .accepted]
  stops := [.waiting]
  history := [.stopSent, .queued lateTrigger, .counted 0 .accepted, .received lateTrigger,
    .drained (lateWorker.drain .crashing).1]

theorem reachable_lateSend : lateSend.Reachable := by
  have run := ((Steps.refl.tail (.ask (System.start 1 ()) (.trigger lateTrigger))).tail
    (.call _ 0 _ rfl)).tail (.call _ 0 _ rfl)
  have permitted : Steps (System.start 1 ()) ⟨⟨.running, 1, [], 1, true, .zero⟩, .start (), .working,
      false, .free, [.permitted lateTrigger], [], []⟩ := run
  have run := (((permitted.tail (.askStop _)).tail (.beginStop _ 0 rfl)).tail
    (.sendStop _ 0 rfl rfl)).tail (.heedStop _ rfl rfl)
  have ending : Steps (System.start 1 ()) ⟨⟨.stopping, 1, [], 1, true, .zero⟩, .start (), .ending,
      false, .free, [.permitted lateTrigger], [.waiting], [.stopSent]⟩ := run
  have run := ((ending.tail (.call _ 0 _ rfl)).tail (.call _ 0 _ rfl)).tail (.call _ 0 _ rfl)
  have answered : Steps (System.start 1 ()) ⟨⟨.stopping, 0, [lateTrigger], 1, true, ⟨1, 0, 0, 0⟩⟩,
      .start (), .ending, false, .free, [.answered .accepted], [.waiting],
      [.stopSent, .queued lateTrigger, .counted 0 .accepted]⟩ := run
  have run := ((answered.tail (.observe _ rfl rfl)).tail (.sweep _ lateTrigger [] rfl rfl)).tail
    (.sweepEnd _ rfl rfl)
  have swept : Steps (System.start 1 ()) ⟨⟨.stopping, 0, [], 1, true, ⟨1, 0, 0, 0⟩⟩, lateWorker,
      .swept, false, .free, [.answered .accepted], [.waiting],
      [.stopSent, .queued lateTrigger, .counted 0 .accepted, .received lateTrigger]⟩ := run
  have drained := swept.tail (.lastDrain _ _ rfl (Worker.awaits_triggers _ .crashing))
  exact ⟨1, (), Nat.one_pos, drained.tail (.markStopped _ rfl)⟩

end System

end BoardAudit
