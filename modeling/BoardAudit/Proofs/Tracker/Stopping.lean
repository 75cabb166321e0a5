import BoardAudit.Proofs.Tracker.Balance
import BoardAudit.Proofs.Tracker.Runs

/-!
# Stopping

However many callers stop a tracker, and in whatever order they, those who bring triggers in and the
worker go on: `Run.stops_once`. One caller begins the stop, one message is sent, the worker finishes once,
nobody returns before that is done, and after it nothing happens but that late offers are dropped.

The lifecycle and the phase of the worker only rise, one rank at a time. `Orderly` is what ties the
callers, the message and the handle of the worker to both.
-/

namespace BoardAudit

/-- How far a lifecycle is. -/
def Lifecycle.rank : Lifecycle → ℕ
  | .running => 0
  | .stopping => 1
  | .stopped => 2

/-- How far a phase is. -/
def Phase.rank : Phase → ℕ
  | .working => 0
  | .ending => 1
  | .sweeping => 2
  | .swept => 3
  | .drained => 4
  | .marked => 5
  | .ended => 6

lemma Lifecycle.rank_injective {a b : Lifecycle} (h : a.rank = b.rank) : a = b := by
  cases a <;> cases b <;> first | rfl | cases h

lemma Phase.rank_injective {p q : Phase} (h : p.rank = q.rank) : p = q := by
  cases p <;> cases q <;> first | rfl | cases h

lemma Phase.rank_of_hasMarked {p : Phase} (h : p.hasMarked = true) : 5 ≤ p.rank := by
  cases p <;> first | decide | cases h

/-! ### Late offers -/

namespace Call

/-- Whether a call brings in a trigger and has not found the tracker running: it has nothing to do any
more but to find the stop begun. -/
inductive IsLate : Call → Prop where
  | asked (r : Request) (t : Trigger) (hr : r.trigger? = some t) (hn : t.id.isNil = false) :
      IsLate (.asked r)
  | entered (t : Trigger) : IsLate (.entered t)
  | refused : IsLate .refused
  | left : IsLate .left
  | answered : IsLate (.answered .droppedAfterStop)

namespace IsLate

variable {c : Call} {i : Inbox}

lemma step (h : c.IsLate) (hi : i.lifecycle ≠ .running) : (c.step i).1.IsLate := by
  cases h with
  | asked r t hr hn => simpa [Call.step, hr, hn] using .entered t
  | entered t => simpa [Call.step, Inbox.isAccepting, hi] using .refused
  | refused => exact .left
  | left => exact .answered
  | answered => exact .answered

/-- Left to itself, a late call drops its trigger. -/
lemma finish (h : c.IsLate) (hi : i.lifecycle ≠ .running) :
    (c.finish i).1 = .answered .droppedAfterStop := by
  cases h with
  | asked r t hr hn =>
    simp [Call.finish, Nat.repeat, Call.step, hr, hn, Inbox.isAccepting, Inbox.enter, hi]
  | entered t => simp [Call.finish, Nat.repeat, Call.step, Inbox.isAccepting, hi]
  | refused => rfl
  | left => rfl
  | answered => rfl

lemma eq_of_outcome? (h : c.IsLate) {a : Admission} (ha : c.outcome? = some a) :
    a = .droppedAfterStop := by
  cases h with
  | answered => exact (Option.some.inj ha).symm
  | _ => cases ha

end IsLate

end Call

namespace System

variable {σ : Type} {s t : System σ}

/-! ### Ranks -/

lemma lifecycle_rank_step (hs : Sound s) (step : Step s t) :
    t.inbox.lifecycle.rank = s.inbox.lifecycle.rank ∨
      t.inbox.lifecycle.rank = s.inbox.lifecycle.rank + 1 := by
  cases step with
  | call n c hc => exact .inl (congrArg Lifecycle.rank (c.move_step s.inbox).lifecycle_eq)
  | beginStop n hn =>
    simp only [setStop, Inbox.beginStop_snd]
    split
    · next hr => exact .inr (by rw [hr]; rfl)
    · exact .inl rfl
  | join n hn hp =>
    have hl : s.inbox.lifecycle = .stopped := hs.stopped.mpr (by rw [hp]; rfl)
    exact .inl (by rw [hl]; rfl)
  | markStopped hp =>
    have hr : s.inbox.lifecycle ≠ .running := hs.not_running (by rw [hp]; rfl)
    have hl : s.inbox.lifecycle ≠ .stopped := fun hl => by
      have hm := hs.stopped.mp hl
      rw [hp] at hm
      cases hm
    cases he : s.inbox.lifecycle with
    | running => exact absurd he hr
    | stopping => exact .inr rfl
    | stopped => exact absurd he hl
  | _ => exact .inl rfl

lemma phase_rank_step (step : Step s t) :
    t.phase.rank = s.phase.rank ∨ t.phase.rank = s.phase.rank + 1 := by
  cases step with
  | heedStop hp hw => exact .inr (by rw [hp]; rfl)
  | observe hp hi => exact .inr (by rw [hp]; rfl)
  | sweepEnd hp hq => exact .inr (by rw [hp]; rfl)
  | lastDrain es hp he => exact .inr (by rw [hp]; rfl)
  | markStopped hp => exact .inr (by rw [hp]; rfl)
  | exit hp => exact .inr (by rw [hp]; rfl)
  | _ => exact .inl rfl

/-! ### The callers, the message and the handle -/

/-- What holds of a stop at every moment. -/
structure Orderly (s : System σ) : Prop where
  /-- Once the stop has begun, there is one message, sent or about to be. -/
  first : s.stops.count .first + s.history.count .stopSent = min s.inbox.lifecycle.rank 1
  /-- A message that was sent waits, or the worker has taken it. -/
  sent : s.history.count .stopSent = s.stopWaits.toNat + min s.phase.rank 1
  /-- Who stops the tracker finds the stop begun, or begins it. -/
  begun : ∀ c ∈ s.stops, c ≠ .asked → s.inbox.lifecycle ≠ .running
  /-- Others see that the handle is taken only after the worker has ended. -/
  taken : s.handle = .taken → s.phase = .ended
  /-- Nobody goes on before the worker has ended. -/
  ended : ∀ c ∈ s.stops, c = .joined ∨ c = .returned → s.phase = .ended

lemma Orderly.start (capacity : ℕ) (log : σ) : Orderly (start capacity log) where
  first := rfl
  sent := rfl
  begun c hc := by cases hc
  taken h := by cases h
  ended c hc := by cases hc

lemma sent_advance (s : System σ) (n : ℕ) (c : Call) :
    (s.advance n c).history.count .stopSent = s.history.count .stopSent := by
  cases hq : c.queues? s.inbox <;> cases hc : c.counts? <;> simp [advance, hq, hc]

lemma count_first_set {cs : List StopCall} {n : ℕ} {c d : StopCall} (h : cs[n]? = some c) :
    (cs.set n d).count .first + (if c = .first then 1 else 0) =
      cs.count .first + if d = .first then 1 else 0 := by
  simpa [List.count] using countP_set (p := (· == .first)) d h

/-- While a caller is about to send the message, nothing was sent, and the worker is working. -/
lemma Orderly.not_sent (ho : Orderly s) (hf : .first ∈ s.stops) :
    s.history.count .stopSent = 0 ∧ s.stopWaits = false ∧ s.phase = .working := by
  have hpos : 0 < s.stops.count .first := List.count_pos_iff.mpr hf
  have hfirst := ho.first
  have hsent := ho.sent
  have hz : s.history.count .stopSent = 0 := by omega
  have hw : s.stopWaits.toNat = 0 := by omega
  have hp : s.phase.rank = 0 := by omega
  exact ⟨hz, Bool.toNat_eq_zero.mp hw, Phase.rank_injective hp⟩

lemma first_step (hs : Sound s) (ho : Orderly s) (step : Step s t) :
    t.stops.count .first + t.history.count .stopSent = min t.inbox.lifecycle.rank 1 := by
  have h := ho.first
  cases step with
  | call n c hc =>
    have hl : (s.advance n c).inbox.lifecycle = s.inbox.lifecycle :=
      (c.move_step s.inbox).lifecycle_eq
    rw [sent_advance, hl]
    exact h
  | askStop => simpa using h
  | beginStop n hn =>
    have hset := count_first_set (d := if s.inbox.beginStop.1 then .first else .waiting) hn
    by_cases hr : s.inbox.lifecycle = .running
    · simp [setStop, Inbox.beginStop, hr, Lifecycle.rank] at h hset ⊢
      omega
    · simp [setStop, Inbox.beginStop, hr] at h hset ⊢
      omega
  | sendStop n hn hw =>
    have hset := count_first_set (d := .waiting) hn
    simp [setStop] at hset ⊢
    omega
  | takeHandle n hn hh =>
    have hset := count_first_set (d := .joining) hn
    simp [setStop] at hset ⊢
    omega
  | missHandle n hn hh =>
    have hset := count_first_set (d := .returned) hn
    simp [setStop] at hset ⊢
    omega
  | join n hn hp =>
    have hset := count_first_set (d := .joined) hn
    have hl : s.inbox.lifecycle = .stopped := hs.stopped.mpr (by rw [hp]; rfl)
    simp [setStop, Inbox.markStopped, hl] at h hset ⊢
    omega
  | release n hn =>
    have hset := count_first_set (d := .returned) hn
    simp [setStop] at hset ⊢
    omega
  | receive u rest hp hq => simpa [System.receive] using h
  | sweep u rest hp hq => simpa [System.receive] using h
  | tick es hp he => simpa [drainAs] using h
  | lastDrain es hp he => simpa [enter, drainAs] using h
  | markStopped hp =>
    have hr : s.inbox.lifecycle.rank ≠ 0 :=
      fun hr => hs.not_running (by rw [hp]; rfl) (Lifecycle.rank_injective hr)
    rw [show min s.inbox.lifecycle.rank 1 = 1 by omega] at h
    exact h
  | _ => exact h

lemma sent_step (ho : Orderly s) (step : Step s t) :
    t.history.count .stopSent = t.stopWaits.toNat + min t.phase.rank 1 := by
  have h := ho.sent
  cases step with
  | call n c hc =>
    rw [sent_advance]
    exact h
  | sendStop n hn hw =>
    obtain ⟨hz, -, hp⟩ := ho.not_sent (List.mem_of_getElem? hn)
    simp [setStop, hz, hp, Phase.rank]
  | receive u rest hp hq => simpa [System.receive] using h
  | sweep u rest hp hq => simpa [System.receive] using h
  | tick es hp he => simpa [drainAs] using h
  | heedStop hp hw => simpa [enter, hp, hw, Phase.rank] using h
  | observe hp hi => simpa [enter, hp, Phase.rank] using h
  | sweepEnd hp hq => simpa [enter, hp, Phase.rank] using h
  | lastDrain es hp he => simpa [enter, drainAs, hp, Phase.rank] using h
  | markStopped hp => simpa [enter, hp, Phase.rank] using h
  | exit hp => simpa [enter, hp, Phase.rank] using h
  | _ => exact h

lemma begun_step (ho : Orderly s) (step : Step s t) (c : StopCall) (hc : c ∈ t.stops)
    (hne : c ≠ .asked) : t.inbox.lifecycle ≠ .running := by
  have h := ho.begun
  -- Who was further than to ask found the stop begun before.
  have hset : ∀ {n : ℕ} {d e : StopCall}, s.stops[n]? = some d → d ≠ .asked → c ∈ s.stops.set n e →
      s.inbox.lifecycle ≠ .running := fun hd hdne _ => h _ (List.mem_of_getElem? hd) hdne
  cases step with
  | call n d hd =>
    have hl : (s.advance n d).inbox.lifecycle = s.inbox.lifecycle :=
      (d.move_step s.inbox).lifecycle_eq
    rw [hl]
    exact h c hc hne
  | askStop =>
    rcases List.mem_append.mp hc with hc | hc
    · exact h c hc hne
    · exact absurd (List.mem_singleton.mp hc) hne
  | beginStop n hn =>
    simp only [setStop, Inbox.beginStop_snd]
    split
    · simp
    · next hr => exact hr
  | sendStop n hn hw => exact hset hn (by decide) hc
  | takeHandle n hn hh => exact hset hn (by decide) hc
  | missHandle n hn hh => exact hset hn (by decide) hc
  | join n hn hp => simp [setStop, Inbox.markStopped]
  | release n hn => exact hset hn (by decide) hc
  | markStopped hp => simp [enter, Inbox.markStopped]
  | _ => exact h c hc hne

lemma ended_step (ho : Orderly s) (step : Step s t) :
    (t.handle = .taken → t.phase = .ended) ∧
      ∀ c ∈ t.stops, c = .joined ∨ c = .returned → t.phase = .ended := by
  have ht := ho.taken
  have h := ho.ended
  -- Who goes on to something else than that has not seen the end of the worker.
  have hset : ∀ {n : ℕ} {d : StopCall}, ¬ (d = .joined ∨ d = .returned) →
      ∀ c ∈ s.stops.set n d, c = .joined ∨ c = .returned → s.phase = .ended := by
    intro n d hd c hc hover
    rcases List.mem_or_eq_of_mem_set hc with hc | rfl
    · exact h c hc hover
    · exact absurd hover hd
  -- While the worker has not ended, nobody has seen its end.
  have hearly : ∀ p : Phase, s.phase ≠ .ended → (s.handle = .taken → p = .ended) ∧
      ∀ c ∈ s.stops, c = .joined ∨ c = .returned → p = .ended :=
    fun p hp => ⟨fun hh => absurd (ht hh) hp, fun c hc hover => absurd (h c hc hover) hp⟩
  cases step with
  | askStop =>
    refine ⟨ht, fun c hc hover => ?_⟩
    rcases List.mem_append.mp hc with hc | hc
    · exact h c hc hover
    · obtain rfl := List.mem_singleton.mp hc
      simp at hover
  | beginStop n hn =>
    refine ⟨ht, hset ?_⟩
    split <;> decide
  | sendStop n hn hw => exact ⟨ht, hset (by decide)⟩
  | takeHandle n hn hh =>
    refine ⟨fun hh' => ?_, hset (by decide)⟩
    cases hh'
  | missHandle n hn hh => exact ⟨ht, fun c hc hover => ht hh⟩
  | join n hn hp => exact ⟨ht, fun c hc hover => hp⟩
  | release n hn =>
    have hp := h _ (List.mem_of_getElem? hn) (.inl rfl)
    exact ⟨fun _ => hp, fun c hc hover => hp⟩
  | heedStop hp hw => exact hearly _ (by rw [hp]; decide)
  | observe hp hi => exact hearly _ (by rw [hp]; decide)
  | sweepEnd hp hq => exact hearly _ (by rw [hp]; decide)
  | lastDrain es hp he => exact hearly _ (by rw [hp]; decide)
  | markStopped hp => exact hearly _ (by rw [hp]; decide)
  | exit hp => exact ⟨fun _ => rfl, fun c hc hover => rfl⟩
  | _ => exact ⟨ht, h⟩

lemma Orderly.step (hs : Sound s) (ho : Orderly s) (step : Step s t) : Orderly t where
  first := first_step hs ho step
  sent := sent_step ho step
  begun := begun_step ho step
  taken := (ended_step ho step).1
  ended := (ended_step ho step).2

theorem Reachable.orderly (hs : s.Reachable) : Orderly s := by
  obtain ⟨capacity, log, hc, steps⟩ := hs
  induction steps with
  | refl => exact .start capacity log
  | tail steps step ih =>
    exact ih.step (Reachable.sound ⟨capacity, log, hc, steps⟩) step

/-! ### Who begins the stop -/

/-- Whether the caller at a place begins the stop between two moments. -/
def Begins (s t : System σ) (n : ℕ) : Prop := s.stops[n]? = some .asked ∧ t.stops[n]? = some .first

/-- The stop begins when a caller begins it, and no other caller does. -/
lemma Step.of_begins (step : Step s t) {n : ℕ} (h : Begins s t n) :
    s.inbox.lifecycle = .running ∧ t.inbox.lifecycle = .stopping ∧ ∀ m, Begins s t m → m = n := by
  obtain ⟨hs, ht⟩ := h
  have hset : ∀ {cs : List StopCall} {m k : ℕ} {c : StopCall}, cs[m]? = some .asked →
      (cs.set k c)[m]? = some .first → k = m ∧ c = .first := by
    intro cs m k c hm hm'
    by_cases hk : k = m
    · subst hk
      obtain ⟨hlt, -⟩ := List.getElem?_eq_some_iff.mp hm
      rw [List.getElem?_set_self hlt] at hm'
      exact ⟨rfl, Option.some.inj hm'⟩
    · rw [List.getElem?_set_ne hk, hm] at hm'
      cases hm'
  cases step with
  | askStop =>
    obtain ⟨hlt, -⟩ := List.getElem?_eq_some_iff.mp hs
    rw [List.getElem?_append_left hlt, hs] at ht
    cases ht
  | beginStop k hk =>
    obtain ⟨rfl, hc⟩ := hset hs ht
    have hr : s.inbox.lifecycle = .running := by
      by_contra hr
      simp [Inbox.beginStop, hr] at hc
    refine ⟨hr, ?_, fun m hm => (hset hm.1 hm.2).1.symm⟩
    simp [setStop, Inbox.beginStop, hr]
  | sendStop k hk hw => cases (hset hs ht).2
  | takeHandle k hk hh => cases (hset hs ht).2
  | missHandle k hk hh => cases (hset hs ht).2
  | join k hk hp => cases (hset hs ht).2
  | release k hk => cases (hset hs ht).2
  | _ => cases hs.symm.trans ht

lemma Step.exists_begins (step : Step s t) (h : s.inbox.lifecycle = .running)
    (h' : t.inbox.lifecycle = .stopping) : ∃ n, Begins s t n := by
  have hsame : t.inbox.lifecycle ≠ s.inbox.lifecycle := by
    rw [h, h']
    decide
  cases step with
  | call n c hc => exact absurd (c.move_step s.inbox).lifecycle_eq hsame
  | beginStop n hn =>
    obtain ⟨hlt, -⟩ := List.getElem?_eq_some_iff.mp hn
    refine ⟨n, hn, ?_⟩
    simp [setStop, Inbox.beginStop, h, hlt]
  | join n hn hp => cases h'
  | markStopped hp => cases h'
  | _ => exact absurd rfl hsame

/-! ### After the tracker is stopped -/

lemma isLate_step (hl : s.inbox.lifecycle ≠ .running) (step : Step s t) {n : ℕ} {c : Call}
    (hc : s.calls[n]? = some c) (h : c.IsLate) : ∃ d, t.calls[n]? = some d ∧ d.IsLate := by
  obtain ⟨hlt, -⟩ := List.getElem?_eq_some_iff.mp hc
  rcases step.call_or_keepsCalls with ⟨m, d, hd, rfl⟩ | hk
  · by_cases hm : m = n
    · subst hm
      obtain rfl : d = c := Option.some.inj (hd.symm.trans hc)
      exact ⟨_, List.getElem?_set_self hlt, h.step hl⟩
    · exact ⟨c, (List.getElem?_set_ne hm).trans hc, h⟩
  · obtain ⟨rs, hcalls⟩ := hk.calls
    refine ⟨c, ?_, h⟩
    rw [hcalls, List.getElem?_append_left hlt, hc]

@[simp] lemma dispatches_advance (s : System σ) (n : ℕ) (c : Call) :
    (s.advance n c).history.dispatches = s.history.dispatches := by
  cases hq : c.queues? s.inbox <;> cases hc : c.counts? <;>
    simp [advance, hq, hc, History.dispatches]

lemma dispatches_step_of_hasMarked (step : Step s t) (hp : s.phase.hasMarked = true) :
    t.history.dispatches = s.history.dispatches := by
  cases step with
  | call n c hc => exact dispatches_advance s n c
  | sendStop n hn hw => simp [setStop]
  | receive u rest hp' hq => simp [System.receive]
  | sweep u rest hp' hq => simp [System.receive]
  | tick es hp' he => simp [hp', Phase.hasMarked] at hp
  | lastDrain es hp' he => simp [hp', Phase.hasMarked] at hp
  | _ => rfl

lemma Steps.dispatches_eq (hp : s.phase.hasMarked = true) (steps : Steps s t) :
    t.history.dispatches = s.history.dispatches := by
  induction steps with
  | refl => rfl
  | tail steps step ih =>
    have hp' := (steps.worker_eq hp).1
    exact (dispatches_step_of_hasMarked step hp').trans ih

namespace Run

variable {run : ℕ → System σ}

lemma lifecycle_rank_mono (h : Run run) : Monotone fun i => (run i).inbox.lifecycle.rank := by
  refine monotone_nat_of_le_succ fun i => ?_
  rcases lifecycle_rank_step (h.sound i) (h.step i) with h | h <;> omega

/-- The worker passes from a phase to the next one exactly once, if it gets further. -/
lemma existsUnique_phase (h : Run run) {p q : Phase} (hq : q.rank = p.rank + 1) {j : ℕ}
    (hj : p.rank < (run j).phase.rank) :
    ∃! i, i < j ∧ (run i).phase = p ∧ (run (i + 1)).phase = q := by
  obtain ⟨capacity, log, -, h0⟩ := h.start
  have hstart : (run 0).phase.rank ≤ p.rank := by
    rw [h0]
    exact Nat.zero_le _
  have hrank : ∀ {p q : Phase}, p.rank = q.rank ↔ p = q :=
    ⟨Phase.rank_injective, congrArg Phase.rank⟩
  have := existsUnique_rise (f := fun i => (run i).phase.rank)
    (fun i => phase_rank_step (h.step i)) hstart hj
  simpa only [← hq, hrank] using this

/-- Once the stop has begun, one caller has begun it, once. -/
lemma existsUnique_begins (h : Run run) {j : ℕ} (hj : (run j).inbox.lifecycle ≠ .running) :
    ∃! w : ℕ × ℕ, w.1 < j ∧ Begins (run w.1) (run (w.1 + 1)) w.2 := by
  obtain ⟨capacity, log, -, h0⟩ := h.start
  have hstart : (run 0).inbox.lifecycle.rank ≤ 0 := by
    rw [h0]
    exact Nat.le_refl 0
  have hrank : 0 < (run j).inbox.lifecycle.rank :=
    Nat.pos_of_ne_zero fun hz => hj (Lifecycle.rank_injective hz)
  obtain ⟨i, ⟨hi, hr, hr'⟩, hone⟩ := existsUnique_rise
    (f := fun i => (run i).inbox.lifecycle.rank)
    (fun i => lifecycle_rank_step (h.sound i) (h.step i)) hstart hrank
  obtain ⟨n, hn⟩ := (h.step i).exists_begins (Lifecycle.rank_injective hr)
    (Lifecycle.rank_injective hr')
  refine ⟨(i, n), ⟨hi, hn⟩, fun w hw => ?_⟩
  obtain ⟨hlt, hb⟩ := hw
  obtain ⟨hl, hl', -⟩ := (h.step w.1).of_begins hb
  have hw : w.1 = i := hone w.1 ⟨hlt, by simp [hl, Lifecycle.rank], by simp [hl', Lifecycle.rank]⟩
  rw [hw] at hb
  exact Prod.ext hw (((h.step i).of_begins hn).2.2 w.2 hb)

lemma isLate (h : Run run) {j k : ℕ} (hjk : j ≤ k) (hj : (run j).inbox.lifecycle ≠ .running)
    {n : ℕ} {c : Call} (hc : (run j).calls[n]? = some c) (hl : c.IsLate) :
    ∃ d, (run k).calls[n]? = some d ∧ d.IsLate := by
  induction hjk with
  | refl => exact ⟨c, hc, hl⟩
  | @step k hjk ih =>
    obtain ⟨d, hd, hdl⟩ := ih
    have hk : (run k).inbox.lifecycle ≠ .running := by
      intro hr
      have := h.lifecycle_rank_mono hjk
      simp only [hr, Lifecycle.rank] at this
      exact hj (Lifecycle.rank_injective (Nat.le_zero.mp this))
    exact isLate_step hk (h.step k) hd hdl

end Run

/-- **The stop happens once and is final.** At every moment of every run, however many callers stop the
tracker: the lifecycle has only moved forward, by one stage at a time; who is beyond asking finds the stop
begun, and then exactly one caller has begun it; at most one message of the stop was sent, and who is about
to send it finds room for it; the worker has begun to finish once, if at all; and who has returned finds
the worker ended and the tracker stopped. When the tracker is stopped, the one message was sent and the
last drain was done once and left nothing behind. From then on the worker stays as it is, nothing is
handled, and whatever comes between, every further offer of a valid trigger ends dropped, and is counted as
that and nothing else. -/
theorem Run.stops_once {run : ℕ → System σ} (h : Run run) (j : ℕ) :
    (∀ i ≤ j, (run i).inbox.lifecycle.rank ≤ (run j).inbox.lifecycle.rank) ∧
    (run (j + 1)).inbox.lifecycle.rank ≤ (run j).inbox.lifecycle.rank + 1 ∧
    ((∃ c ∈ (run j).stops, c ≠ .asked) → (run j).inbox.lifecycle ≠ .running) ∧
    ((run j).inbox.lifecycle ≠ .running →
      ∃! w : ℕ × ℕ, w.1 < j ∧ Begins (run w.1) (run (w.1 + 1)) w.2) ∧
    (run j).history.count .stopSent ≤ 1 ∧
    (.first ∈ (run j).stops → (run j).stopWaits = false) ∧
    ((run j).phase ≠ .working →
      ∃! i, i < j ∧ (run i).phase = .working ∧ (run (i + 1)).phase = .ending) ∧
    (.returned ∈ (run j).stops → (run j).phase = .ended ∧ (run j).inbox.lifecycle = .stopped) ∧
    ((run j).inbox.lifecycle = .stopped →
      (run j).history.count .stopSent = 1 ∧
      (∃! i, i < j ∧ (run i).phase = .swept ∧ (run (i + 1)).phase = .drained) ∧
      (run j).inbox.queue = [] ∧ (run j).worker.pending = .empty ∧
      ∀ k ≥ j,
        (run k).worker = (run j).worker ∧
        (run k).history.dispatches = (run j).history.dispatches ∧
        ∀ n r u, (run j).calls[n]? = some (.asked r) → r.trigger? = some u → u.id.isNil = false →
          ∃ c, (run k).calls[n]? = some c ∧
            (c.finish (run k).inbox).1 = .answered .droppedAfterStop ∧
            ∀ a, c = .answered a → (run k).history.countedBy n = [.droppedAfterStop]) := by
  have hs := h.sound j
  have ho := (h.reachable j).orderly
  refine ⟨fun i hi => h.lifecycle_rank_mono hi, ?_, fun ⟨c, hc, hne⟩ => ho.begun c hc hne,
    h.existsUnique_begins, ?_, fun hf => (ho.not_sent hf).2.1, fun hp => ?_, fun hr => ?_, fun hl => ?_⟩
  · rcases lifecycle_rank_step hs (h.step j) with hr | hr <;> omega
  · have := ho.first
    omega
  · refine h.existsUnique_phase rfl (Nat.pos_of_ne_zero fun hz => hp ?_)
    exact Phase.rank_injective hz
  · have hp := ho.ended _ hr (.inr rfl)
    exact ⟨hp, hs.stopped.mpr (by rw [hp]; rfl)⟩
  have hm := hs.stopped.mp hl
  have hrank := Phase.rank_of_hasMarked hm
  refine ⟨?_, h.existsUnique_phase rfl (Nat.lt_of_lt_of_le (by decide) hrank),
    hs.swept (Phase.hasSwept_of_hasMarked hm), hs.drained (Phase.hasDrained_of_hasMarked hm),
    fun k hk => ?_⟩
  · -- The worker has taken a message, and there is only one.
    have hfirst := ho.first
    have hsent := ho.sent
    omega
  have steps := h.steps hk
  obtain ⟨hm', hw⟩ := steps.worker_eq hm
  refine ⟨hw, steps.dispatches_eq hm, fun n r u hc hr hn => ?_⟩
  obtain ⟨d, hd, hlate⟩ := h.isLate hk (by rw [hl]; decide) hc (.asked r u hr hn)
  have hk' : (run k).inbox.lifecycle ≠ .running := by
    rw [(h.sound k).stopped.mpr hm']
    decide
  refine ⟨d, hd, hlate.finish hk', ?_⟩
  rintro a rfl
  have ha : a = .droppedAfterStop := hlate.eq_of_outcome? rfl
  rw [(h.reachable k).audited.countedBy n, hd, ha]
  rfl

/-! ### Two callers -/

/-- A stopped tracker. Of its two callers the second one took the handle before the first one had sent the
message, and the first one found the handle taken; then somebody brings a trigger in. -/
def stoppedByTwo : System Unit where
  inbox := ⟨.stopped, 0, [], 1, false, .zero⟩
  worker := .start ()
  phase := .ended
  stopWaits := false
  handle := .taken
  calls := [.asked (.trigger lateTrigger)]
  stops := [.returned, .returned]
  history := [.stopSent, .drained []]

theorem reachable_stoppedByTwo : stoppedByTwo.Reachable := by
  have run := ((((Steps.refl (s := System.start 1 ())).tail (.askStop _)).tail (.askStop _)).tail
    (.beginStop _ 0 rfl)).tail (.beginStop _ 1 rfl)
  have begun : Steps (System.start 1 ()) ⟨⟨.stopping, 0, [], 1, true, .zero⟩, .start (), .working,
      false, .free, [], [.first, .waiting], []⟩ := run
  have run := ((begun.tail (.takeHandle _ 1 rfl rfl)).tail (.sendStop _ 0 rfl rfl)).tail
    (.heedStop _ rfl rfl)
  have ending : Steps (System.start 1 ()) ⟨⟨.stopping, 0, [], 1, true, .zero⟩, .start (), .ending,
      false, .held, [], [.waiting, .joining], [.stopSent]⟩ := run
  have swept := (ending.tail (.observe _ rfl rfl)).tail (.sweepEnd _ rfl rfl)
  have run := ((swept.tail (.lastDrain _ [] rfl .nil)).tail (.markStopped _ rfl)).tail (.exit _ rfl)
  have ended : Steps (System.start 1 ()) ⟨⟨.stopped, 0, [], 1, false, .zero⟩, .start (), .ended,
      false, .held, [], [.waiting, .joining], [.stopSent, .drained []]⟩ := run
  have returned := ((ended.tail (.join _ 1 rfl rfl)).tail (.release _ 1 rfl)).tail
    (.missHandle _ 0 rfl rfl)
  exact ⟨1, (), Nat.one_pos, returned.tail (.ask _ (.trigger lateTrigger))⟩

/-- Two callers share one stop, and what is brought in after it is dropped. -/
theorem stops_once_of_two :
    ∃ run : ℕ → System Unit, ∃ j, Run run ∧ run j = stoppedByTwo ∧
      (∃! w : ℕ × ℕ, w.1 < j ∧ Begins (run w.1) (run (w.1 + 1)) w.2) ∧
      (run j).phase = .ended ∧
      ∀ k ≥ j, (run k).worker = .start () ∧
        ∃ c, (run k).calls[0]? = some c ∧
          (c.finish (run k).inbox).1 = .answered .droppedAfterStop := by
  obtain ⟨run, hrun, j, hj⟩ := reachable_stoppedByTwo.exists_run
  have hl : (run j).inbox.lifecycle = .stopped := by rw [hj]; rfl
  have hr : .returned ∈ (run j).stops := by rw [hj]; exact List.mem_cons_self
  have hc : (run j).calls[0]? = some (.asked (.trigger lateTrigger)) := by rw [hj]; rfl
  obtain ⟨-, -, -, hone, -, -, -, hreturned, hstopped⟩ := hrun.stops_once j
  obtain ⟨-, -, -, -, hlater⟩ := hstopped hl
  refine ⟨run, j, hrun, hj, hone (by rw [hl]; decide), (hreturned hr).1, fun k hk => ?_⟩
  obtain ⟨hw, -, hoffer⟩ := hlater k hk
  obtain ⟨c, hck, hfin, -⟩ := hoffer 0 _ lateTrigger hc rfl rfl
  exact ⟨by rw [hw, hj]; rfl, c, hck, hfin⟩

end System

end BoardAudit
