import BoardAudit.Proofs.Tracker.Shutdown

/-!
# Balance

The counters of a tracker tell where its triggers are. `Booked` ties those of the worker to its history:
what was received waits, gave way or was handled, and what was handled is told apart by its outcome.
`Audited` ties the others to the history: each call counts one outcome, once.

`Reachable.counters_balance` puts both together with `Sound`, which says how many triggers are sent and
not yet counted. When the tracker is stopped there are none, and the counters are final.
-/

namespace BoardAudit

/-! ### The counters of the worker -/

/-- Whether handling that ended so is told by no counter but that of the handled triggers. -/
def Outcome.isSilent : Outcome → Bool
  | .baseline | .unchanged => true
  | .logged _ | .ignored | .failed _ | .crashed => false

namespace Tallies

/-- How many handled triggers are told apart by their outcome. -/
def told (t : Tallies) : ℕ :=
  t.logged + t.ignored + t.fetchFailures + t.insertFailures + t.crashes

variable (t : Tallies) (o : Outcome)

lemma handled_count : (t.count o).handled = t.handled + 1 := by
  cases o with
  | failed e => cases e <;> rfl
  | _ => rfl

lemma coalesced_count : (t.count o).coalesced = t.coalesced := by
  cases o with
  | failed e => cases e <;> rfl
  | _ => rfl

/-- An outcome is told by one counter, or by none when it is silent. -/
lemma told_count : (t.count o).told + (if o.isSilent then 1 else 0) = t.told + 1 := by
  cases o with
  | failed e => cases e <;> simp [count, told, Outcome.isSilent] <;> omega
  | _ => simp [count, told, Outcome.isSilent] <;> omega

end Tallies

namespace Worker

variable {σ : Type}

/-- Receiving a trigger lets one more wait, or counts one more that gave way. -/
lemma size_receive (w : Worker σ) (t : Trigger) :
    (w.receive t).pending.size + (w.receive t).tallies.coalesced =
      w.pending.size + w.tallies.coalesced + 1 := by
  simp only [receive, Batch.size_insert]
  split
  · simp only
    omega
  · omega

@[simp] lemma handled_receive (w : Worker σ) (t : Trigger) :
    (w.receive t).tallies.handled = w.tallies.handled := by
  simp only [receive]
  split <;> rfl

@[simp] lemma told_receive (w : Worker σ) (t : Trigger) :
    (w.receive t).tallies.told = w.tallies.told := by
  simp only [receive]
  split <;> rfl

lemma handled_dispatchAll (w : Worker σ) (es : List (Errand σ)) :
    (w.dispatchAll es).2.tallies.handled = w.tallies.handled + es.length := by
  induction es generalizing w with
  | nil => rfl
  | cons e es ih =>
    have he : (w.dispatch e).2.tallies.handled = w.tallies.handled + 1 :=
      w.tallies.handled_count _
    have := ih (w.dispatch e).2
    simp only [dispatchAll, List.length_cons]
    omega

lemma coalesced_dispatchAll (w : Worker σ) (es : List (Errand σ)) :
    (w.dispatchAll es).2.tallies.coalesced = w.tallies.coalesced := by
  induction es generalizing w with
  | nil => rfl
  | cons e es ih => exact (ih (w.dispatch e).2).trans (w.tallies.coalesced_count _)

lemma told_dispatchAll (w : Worker σ) (es : List (Errand σ)) :
    (w.dispatchAll es).2.tallies.told + (w.dispatchAll es).1.countP (·.outcome.isSilent) =
      w.tallies.told + es.length := by
  induction es generalizing w with
  | nil => rfl
  | cons e es ih =>
    have he : (w.dispatch e).2.tallies.told +
        (if (w.dispatch e).1.outcome.isSilent then 1 else 0) = w.tallies.told + 1 :=
      w.tallies.told_count _
    have := ih (w.dispatch e).2
    simp only [dispatchAll, List.length_cons, List.countP_cons]
    omega

/-- A drain handles as many triggers as were waiting; none gives way to another. -/
lemma handled_drainAs {w : Worker σ} {es : List (Errand σ)} (he : w.Awaits es) :
    (w.drainAs es).2.tallies.handled = w.tallies.handled + w.pending.size ∧
      (w.drainAs es).2.tallies.coalesced = w.tallies.coalesced := by
  have hlen : es.length = w.pending.size := by simpa using he.length_eq
  unfold drainAs
  split
  · next h => simp [Batch.isEmpty_iff.mp h]
  · exact ⟨(handled_dispatchAll _ es).trans (by rw [hlen]), coalesced_dispatchAll _ es⟩

/-- Of the triggers that a drain handles, those that no counter tells apart ended silently. -/
lemma told_drainAs {w : Worker σ} {es : List (Errand σ)} (he : w.Awaits es) :
    (w.drainAs es).2.tallies.told + (w.drainAs es).1.countP (·.outcome.isSilent) =
      w.tallies.told + w.pending.size := by
  have hlen : es.length = w.pending.size := by simpa using he.length_eq
  unfold drainAs
  split
  · next h => simp [Batch.isEmpty_iff.mp h]
  · exact (told_dispatchAll _ es).trans (by rw [hlen]; rfl)

end Worker

/-! ### What was handled -/

/-- What was received waits, gave way or was handled, and what was handled is told apart by its outcome,
silent outcomes aside. -/
structure Booked {σ : Type} (h : History) (w : Worker σ) : Prop where
  received : h.received.length = w.pending.size + w.tallies.coalesced + w.tallies.handled
  handled : w.tallies.handled = w.tallies.told + h.dispatches.countP (·.outcome.isSilent)

namespace Booked

variable {σ : Type} {h : History} {w : Worker σ}

lemma start (log : σ) : Booked [] (Worker.start log) := by
  constructor <;> simp [Worker.start, Tallies.zero, Tallies.told, History.dispatches]

lemma receive (hb : Booked h w) (t : Trigger) : Booked (h ++ [.received t]) (w.receive t) where
  received := by
    have := hb.received
    have := w.size_receive t
    simp
    omega
  handled := by simpa using hb.handled

lemma drainAs (hb : Booked h w) {es : List (Errand σ)} (he : w.Awaits es) :
    Booked (h ++ [.drained (w.drainAs es).1]) (w.drainAs es).2 where
  received := by
    have := hb.received
    obtain ⟨hh, hc⟩ := Worker.handled_drainAs he
    simp [Worker.pending_drainAs]
    omega
  handled := by
    have := hb.handled
    obtain ⟨hh, -⟩ := Worker.handled_drainAs he
    have ht := Worker.told_drainAs he
    simp
    omega

/-- What does not concern the worker leaves its counters right. -/
lemma append (hb : Booked h w) {g : History} (hg : ∀ x ∈ g, x.isWorkers = false) :
    Booked (h ++ g) w := by
  obtain ⟨hreceived, hdispatches⟩ := History.nil_of_not_isWorkers hg
  refine ⟨?_, ?_⟩
  · simpa [hreceived] using hb.received
  · simpa [hdispatches] using hb.handled

end Booked

/-! ### What was counted -/

namespace System

variable {σ : Type} {s t : System σ}

/-- Every counter is right: a call has counted its outcome once or not yet, the counters of the outcomes
are how often each was counted, and those of the worker are booked. -/
structure Audited (s : System σ) : Prop where
  countedBy : ∀ n, s.history.countedBy n = (s.calls[n]?.bind Call.outcome?).toList
  number : ∀ a, s.inbox.admissions.number a = (s.history.counted.map Prod.snd).count a
  booked : Booked s.history s.worker

lemma Audited.start (capacity : ℕ) (log : σ) : Audited (start capacity log) where
  countedBy n := by simp [System.start, History.countedBy]
  number a := by cases a <;> rfl
  booked := .start log

lemma counted_advance (s : System σ) (n : ℕ) (c : Call) :
    (s.advance n c).history.counted = s.history.counted ++ c.counts?.toList.map (n, ·) := by
  cases hq : c.queues? s.inbox <;> cases hc : c.counts? <;>
    simp [advance, hq, hc]

lemma countedBy_advance (s : System σ) (n m : ℕ) (c : Call) :
    (s.advance n c).history.countedBy m =
      s.history.countedBy m ++ if n = m then c.counts?.toList else [] := by
  simp only [History.countedBy, counted_advance, List.filterMap_append]
  cases c.counts? <;> by_cases h : n = m <;> simp [h]

/-- A call that is only asked for has counted nothing. -/
lemma KeepsCalls.outcome?_bind (h : KeepsCalls s t) (n : ℕ) :
    t.calls[n]?.bind Call.outcome? = s.calls[n]?.bind Call.outcome? := by
  obtain ⟨rs, hc⟩ := h.calls
  rw [hc, List.getElem?_append]
  split
  · rfl
  · next hn =>
    rw [List.getElem?_eq_none (Nat.le_of_not_lt hn), List.getElem?_map]
    cases rs[n - s.calls.length]? <;> rfl

lemma countedBy_step (ha : Audited s) (step : Step s t) (n : ℕ) :
    t.history.countedBy n = (t.calls[n]?.bind Call.outcome?).toList := by
  have h := ha.countedBy n
  rcases step.call_or_keepsCalls with ⟨m, c, hc, rfl⟩ | hk
  · rw [countedBy_advance, h]
    by_cases hm : m = n
    · subst hm
      have ho := (c.move_step s.inbox).outcome_eq
      obtain ⟨hl, rfl⟩ := List.getElem?_eq_some_iff.mp hc
      simp [advance, hl, ho]
    · simp [advance, hm]
  · rw [History.countedBy, hk.counted, hk.outcome?_bind n]
    exact h

lemma number_step (ha : Audited s) (step : Step s t) (a : Admission) :
    t.inbox.admissions.number a = (t.history.counted.map Prod.snd).count a := by
  have h := ha.number a
  rcases step.call_or_keepsCalls with ⟨n, c, hc, rfl⟩ | hk
  · have hm := (c.move_step s.inbox).number_eq a
    rw [counted_advance, List.map_append, List.count_append, ← h]
    simpa [advance, Function.comp_def] using hm
  · rw [hk.admissions, hk.counted, h]

lemma booked_step (ha : Audited s) (step : Step s t) : Booked t.history t.worker := by
  have h := ha.booked
  rcases step.worker_cases with ⟨u, rest, -, hw, hh⟩ | ⟨es, he, hw, hh⟩ | ⟨hw, g, hh, hg⟩
  · rw [hw, hh]
    exact h.receive u
  · rw [hw, hh]
    exact h.drainAs he
  · rw [hw, hh]
    exact h.append hg

lemma Audited.step (ha : Audited s) (step : Step s t) : Audited t where
  countedBy := countedBy_step ha step
  number := number_step ha step
  booked := booked_step ha step

/-- In every reachable state every counter is right. -/
theorem Reachable.audited (hs : s.Reachable) : Audited s := by
  obtain ⟨capacity, log, -, steps⟩ := hs
  induction steps with
  | refl => exact .start capacity log
  | tail _ step ih => exact ih.step step

/-! ### The balance -/

/-- **The counters balance.** Every returned call has counted one outcome, once, and the counters of the
outcomes are how often each was counted. What is accepted, with what is sent and not yet counted, is in
the queue, waits, gave way or was handled; what was handled is logged, ignored, failed or crashed, or
ended silently. When the tracker is stopped nothing is left to be counted: what was accepted gave way or
was handled, and that is final. -/
theorem Reachable.counters_balance (hs : s.Reachable) :
    (∀ n a, s.calls[n]? = some (.answered a) → s.history.countedBy n = [a]) ∧
    (∀ a, s.stats.admissions.number a = (s.history.counted.map Prod.snd).count a) ∧
    s.stats.admissions.accepted + s.calls.countP Call.isSent =
      s.inbox.queue.length + s.worker.pending.size + s.stats.tallies.coalesced +
        s.stats.tallies.handled ∧
    s.stats.tallies.handled =
      s.stats.tallies.logged + s.stats.tallies.ignored + s.stats.tallies.fetchFailures +
        s.stats.tallies.insertFailures + s.stats.tallies.crashes +
        s.history.dispatches.countP (·.outcome.isSilent) ∧
    (s.inbox.lifecycle = .stopped →
      s.calls.countP Call.isSent = 0 ∧
      s.stats.admissions.accepted = s.stats.tallies.coalesced + s.stats.tallies.handled ∧
      ∀ t, Steps s t →
        t.stats.admissions.accepted = s.stats.admissions.accepted ∧
        t.stats.tallies.coalesced = s.stats.tallies.coalesced ∧
        t.stats.tallies.handled = s.stats.tallies.handled) := by
  have ha := hs.audited
  have hs := hs.sound
  have balance : s.inbox.admissions.accepted + s.calls.countP Call.isSent =
      s.inbox.queue.length + s.worker.pending.size + s.worker.tallies.coalesced +
        s.worker.tallies.handled := by
    have hq := congrArg List.length hs.queued
    have hb := ha.booked.received
    rw [List.length_append, ← hs.accepted] at hq
    omega
  refine ⟨fun n a hn => ?_, ha.number, balance, ha.booked.handled, fun hl => ?_⟩
  · rw [ha.countedBy, hn]
    rfl
  have hm := hs.stopped.mp hl
  have hp := Phase.hasObserved_of_hasMarked hm
  have hsent := hs.countP_isSent hp
  refine ⟨hsent, ?_, fun t steps => ?_⟩
  · rw [hs.swept (Phase.hasSwept_of_hasMarked hm), hs.drained (Phase.hasDrained_of_hasMarked hm),
      hsent] at balance
    simpa [stats] using balance
  · obtain ⟨hm', hw⟩ := steps.worker_eq hm
    have ht := hs.steps steps
    -- What is accepted was queued, and nothing more is queued.
    have hacc := ht.accepted
    rw [ht.countP_isSent (Phase.hasObserved_of_hasMarked hm'), (steps.nothing_queued hs hp).1,
      ← hs.accepted, hsent] at hacc
    exact ⟨hacc, by rw [stats, hw]; rfl, by rw [stats, hw]; rfl⟩

/-- What a caller sent after the stop had begun is on the balance: it was handled, and crashed. -/
theorem counters_balance_of_late_send :
    (lateSend.calls[0]? = some (.answered .accepted) ∧ lateSend.inbox.lifecycle = .stopped) ∧
    lateSend.history.countedBy 0 = [.accepted] ∧
    lateSend.stats.admissions.accepted =
      lateSend.stats.tallies.coalesced + lateSend.stats.tallies.handled ∧
    lateSend.stats.tallies.handled = 1 ∧
    ∀ t, Steps lateSend t → t.stats.admissions.accepted = 1 ∧ t.stats.tallies.handled = 1 := by
  obtain ⟨hone, -, -, -, hstopped⟩ := reachable_lateSend.counters_balance
  obtain ⟨-, hsum, hfinal⟩ := hstopped rfl
  have handled : lateSend.stats.tallies.handled = 1 := by
    have hc : lateSend.stats.tallies.coalesced = 0 := rfl
    have ha : lateSend.stats.admissions.accepted = 1 := rfl
    omega
  refine ⟨⟨rfl, rfl⟩, hone 0 .accepted rfl, hsum, handled, fun t steps => ?_⟩
  obtain ⟨hacc, -, hh⟩ := hfinal t steps
  exact ⟨hacc, hh.trans handled⟩

end System

end BoardAudit
