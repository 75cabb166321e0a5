import BoardAudit.Proofs.Json.Codecs
import BoardAudit.Proofs.Tracker.Balance

/-!
# Rejection

A request is invalid when its id is nil or when one of its names names nothing. Its call is over after a
single step, which counts it as rejected and touches nothing else, however the tracker stands
(`Call.step_of_isInvalid`). Every other request carries a trigger about an entity, and so do the calls that
are under way and all that was ever queued (`Reachable.clean`).
-/

namespace BoardAudit

/-! ### Invalid requests -/

/-- Whether a request gives no trigger about an entity: the id is nil, or the name of the kind or of the
action names none. -/
def Request.IsInvalid : Request → Prop
  | .trigger t => t.id = .nil
  | .record _ id _ => id = .nil
  | .names kind id action _ =>
    (∀ k, Kind.ofText kind ≠ .ok k) ∨ (∀ a, Action.ofText action ≠ .ok a) ∨ id = .nil

lemma toOption_eq_some_iff {ε α : Type} {x : Except ε α} {a : α} :
    x.toOption = some a ↔ x = .ok a := by
  cases x <;> simp [Except.toOption]

namespace Trigger

variable {id : EntityId} {metadata : Metadata} {t : Trigger}

lemma make_eq_ok_iff {kind : Kind} {action : Action} :
    make kind id action metadata = .ok t ↔ id ≠ .nil ∧ t = ⟨kind, id, action, metadata⟩ := by
  unfold make
  by_cases h : id.isNil = true
  · rw [if_pos h, EntityId.isNil_iff.mp h]
    simp
  · have hne : id ≠ .nil := fun he => h (EntityId.isNil_iff.mpr he)
    rw [if_neg h, Except.ok.injEq]
    constructor
    · intro he
      exact ⟨hne, he.symm⟩
    · rintro ⟨-, rfl⟩
      rfl

lemma ofNames_eq_ok_iff {kind action : String} :
    ofNames kind id action metadata = .ok t ↔
      ∃ k a, Kind.ofText kind = .ok k ∧ Action.ofText action = .ok a ∧ id ≠ .nil ∧
        t = ⟨k, id, a, metadata⟩ := by
  unfold ofNames
  cases hk : Kind.ofText kind with
  | error e => simp [bind, Except.bind]
  | ok k =>
    cases ha : Action.ofText action with
    | error e => simp [bind, Except.bind]
    | ok a => simpa [bind, Except.bind] using make_eq_ok_iff

end Trigger

/-- What is not invalid carries a trigger about an entity, and nothing else does. -/
theorem Request.not_isInvalid_iff {r : Request} :
    ¬ r.IsInvalid ↔ ∃ t, r.trigger? = some t ∧ t.id ≠ .nil := by
  cases r with
  | trigger t => simp [IsInvalid, trigger?]
  | record kind id action =>
    simp only [IsInvalid, trigger?, toOption_eq_some_iff, Trigger.make_eq_ok_iff]
    constructor
    · intro hne
      exact ⟨_, ⟨hne, rfl⟩, hne⟩
    · rintro ⟨t, ⟨hne, -⟩, -⟩
      exact hne
  | names kind id action metadata =>
    simp only [IsInvalid, trigger?, toOption_eq_some_iff, Trigger.ofNames_eq_ok_iff, not_or,
      not_forall, not_not]
    constructor
    · rintro ⟨⟨k, hk⟩, ⟨a, ha⟩, hne⟩
      exact ⟨_, ⟨k, a, hk, ha, hne, rfl⟩, hne⟩
    · rintro ⟨t, ⟨k, a, hk, ha, hne, -⟩, -⟩
      exact ⟨⟨k, hk⟩, ⟨a, ha⟩, hne⟩

/-- An invalid request carries no trigger, or one with the nil id. -/
lemma Request.IsInvalid.isNil {r : Request} (h : r.IsInvalid) {t : Trigger}
    (ht : r.trigger? = some t) : t.id.isNil = true := by
  by_contra hn
  exact not_isInvalid_iff.mpr ⟨t, ht, fun he => hn (EntityId.isNil_iff.mpr he)⟩ h

/-! ### Calls -/

namespace Call

variable {r : Request} {i j : Inbox} {c d : Call} {q : Option Trigger} {a : Option Admission}

/-- The call of an invalid request counts it as rejected, and is over. -/
lemma step_of_isInvalid (h : r.IsInvalid) (i : Inbox) :
    (asked r).step i = (.answered .rejected, i.reject) ∧ (asked r).counts? = some .rejected := by
  cases ht : r.trigger? with
  | none => simp [step, counts?, ht]
  | some t => simp [step, counts?, ht, h.isNil ht]

/-- The trigger that a call has yet to send. -/
def carried? : Call → Option Trigger
  | .entered t | .permitted t => some t
  | _ => none

/-- A move lets nothing nil in: where the call carries a trigger about an entity, or none, it does so
afterwards and queues no other. -/
lemma Move.id_ne_nil (m : Move i c q a d j) (h : ∀ t, c.carried? = some t → t.id ≠ .nil) :
    (∀ t, d.carried? = some t → t.id ≠ .nil) ∧ ∀ t, q = some t → t.id ≠ .nil := by
  cases m with
  | enter r t hr hn =>
    refine ⟨?_, by simp⟩
    intro u hu hnil
    cases hu
    rw [EntityId.isNil_iff.mpr hnil] at hn
    cases hn
  | permit t hr => exact ⟨h, by simp⟩
  | send t hc hl => exact ⟨by simp [carried?], h⟩
  | _ => simp [carried?]

end Call

/-- What was handled or waits was received. -/
lemma History.Settled.mem_received {h : History} {t : Trigger} (hs : h.Settled)
    (ht : t ∈ h.handled ∨ t ∈ h.waiting) : t ∈ h.received := by
  obtain ⟨hsub, -⟩ := hs.handled_waiting t.key
  have hmem : t ∈ Trigger.ofKey t.key h.handled ++ Trigger.ofKey t.key h.waiting := by
    rw [List.mem_append, Trigger.mem_ofKey, Trigger.mem_ofKey]
    exact ht.imp (fun ht => ⟨ht, rfl⟩) fun ht => ⟨ht, rfl⟩
  exact (Trigger.mem_ofKey.mp (hsub.mem hmem)).1

/-- What waits for a worker that is kept was received. -/
lemma Kept.mem_received {σ : Type} {h : History} {w : Worker σ} {t : Trigger} (hk : Kept h w)
    (ht : t ∈ w.pending.triggers) : t ∈ h.received := by
  rw [Batch.mem_triggers, hk.waiting] at ht
  have hlast := List.mem_of_getLast? ht
  exact hk.settled.mem_received (.inr (Trigger.mem_ofKey.mp hlast).1)

/-! ### Threads -/

namespace System

variable {σ : Type} {s t : System σ}

/-- The calls that are under way carry triggers about entities, and nothing else was queued. -/
structure Clean (s : System σ) : Prop where
  calls : ∀ c ∈ s.calls, ∀ t, c.carried? = some t → t.id ≠ .nil
  queued : ∀ t ∈ s.history.queued, t.id ≠ .nil

lemma Clean.step (hs : Clean s) (step : Step s t) : Clean t := by
  rcases step.call_or_keepsCalls with ⟨n, c, hc, rfl⟩ | hk
  · obtain ⟨hcarried, hqueued⟩ :=
      (c.move_step s.inbox).id_ne_nil (hs.calls c (List.mem_of_getElem? hc))
    constructor
    · intro d hd
      rcases List.mem_or_eq_of_mem_set hd with hd | rfl
      · exact hs.calls d hd
      · exact hcarried
    · intro u hu
      rw [queued_advance, List.mem_append, Option.mem_toList] at hu
      rcases hu with hu | hu
      · exact hs.queued u hu
      · exact hqueued u hu
  · obtain ⟨rs, hcalls⟩ := hk.calls
    constructor
    · intro c hc
      rw [hcalls, List.mem_append, List.mem_map] at hc
      rcases hc with hc | ⟨r, -, rfl⟩
      · exact hs.calls c hc
      · simp [Call.carried?]
    · rw [hk.queued]
      exact hs.queued

/-- In every reachable state all is about entities. -/
theorem Reachable.clean (hs : s.Reachable) : Clean s := by
  obtain ⟨capacity, log, -, steps⟩ := hs
  induction steps with
  | refl => exact ⟨by simp [start], by simp [start]⟩
  | tail _ step ih => exact ih.step step

/-- The call of an invalid request is still to be made, or is answered. -/
lemma Steps.call_of_isInvalid {n : ℕ} {r : Request} (hr : r.IsInvalid)
    (hn : s.calls[n]? = some (.asked r)) (steps : Steps s t) :
    t.calls[n]? = some (.asked r) ∨ t.calls[n]? = some (.answered .rejected) := by
  induction steps with
  | refl => exact .inl hn
  | @tail u t _ step ih =>
    rcases step.call_or_keepsCalls with ⟨m, c, hc, rfl⟩ | hk
    · by_cases hm : m = n
      · subst hm
        obtain ⟨hl, -⟩ := List.getElem?_eq_some_iff.mp hc
        right
        rcases ih with ih | ih <;> obtain rfl := Option.some.inj (hc.symm.trans ih)
        · simp [advance, hl, (Call.step_of_isInvalid hr u.inbox).1]
        · simp [advance, hl, Call.step]
      · simpa [advance, hm] using ih
    · obtain ⟨rs, hcalls⟩ := hk.calls
      have hkeep : ∀ c, u.calls[n]? = some c → t.calls[n]? = some c := by
        intro c hc
        obtain ⟨hl, -⟩ := List.getElem?_eq_some_iff.mp hc
        rw [hcalls, List.getElem?_append_left hl, hc]
      exact ih.imp (hkeep _) (hkeep _)

end System

/-! ### Requests at once -/

lemma Admissions.dropped_count (a : Admissions) {x : Admission}
    (h : x = .droppedOverflow ∨ x = .droppedAfterStop) : (a.count x).dropped = a.dropped + 1 := by
  rcases h with rfl | rfl
  all_goals
    simp only [count, dropped]
    omega

/-- A trigger about an entity is never rejected; it is dropped where the stop has begun or the queue is
full. -/
lemma Inbox.offer_of_ne_nil (i : Inbox) {t : Trigger} (hn : t.id ≠ .nil) :
    (i.offer t).2.admissions.rejected = i.admissions.rejected ∧
      (i.lifecycle ≠ .running ∨ i.capacity ≤ i.queue.length →
        (i.offer t).2.admissions.dropped = i.admissions.dropped + 1) := by
  have hnil : ¬ t.id.isNil = true := fun h => hn (EntityId.isNil_iff.mp h)
  unfold offer
  rw [if_neg hnil]
  by_cases hl : i.lifecycle = .running
  · have ha : i.enter.isAccepting = true := by simp [enter, isAccepting, hl]
    simp only [ha, if_true]
    unfold send
    split
    · exact ⟨rfl, fun _ => i.admissions.dropped_count (.inr rfl)⟩
    · split
      · next hq =>
        refine ⟨rfl, ?_⟩
        rintro (h | h)
        · exact absurd hl h
        · exact absurd hq (Nat.not_lt.mpr h)
      · exact ⟨rfl, fun _ => i.admissions.dropped_count (.inl rfl)⟩
  · have ha : i.enter.isAccepting = false := by simp [enter, isAccepting, hl]
    simp only [ha, Bool.false_eq_true, if_false]
    exact ⟨rfl, fun _ => i.admissions.dropped_count (.inr rfl)⟩

namespace Tracker

variable {σ : Type} {r : Request}

lemma request_of_isInvalid (tracker : Tracker σ) (h : r.IsInvalid) :
    tracker.request r = { tracker with inbox := tracker.inbox.reject } := by
  rw [request_eq_finish, Call.finish_asked]
  cases ht : r.trigger? with
  | none => rfl
  | some t =>
    simp only [Inbox.offer, h.isNil ht, if_true]
    rfl

lemma request_of_not_isInvalid (tracker : Tracker σ) (h : ¬ r.IsInvalid) :
    ∃ t, t.id ≠ .nil ∧ tracker.request r = { tracker with inbox := (tracker.inbox.offer t).2 } := by
  obtain ⟨t, ht, hn⟩ := Request.not_isInvalid_iff.mp h
  refine ⟨t, hn, ?_⟩
  rw [request_eq_finish, Call.finish_asked, ht]

end Tracker

/-! ### Nothing nil comes in -/

namespace System

variable {σ : Type} {s : System σ}

/-- **Nothing nil comes in.** At every moment the triggers in the queue, the waiting ones and the handled
ones are about entities. The call of an invalid request is over in one step, which counts it as rejected
and changes nothing else; before it nothing was counted for the call, and after it nothing more ever is.
A request at once does the same, however the tracker stands, while a request that is not invalid is never
rejected, and is dropped where the stop has begun or the queue is full. -/
theorem Reachable.nothing_nil (hs : s.Reachable) :
    ((∀ t ∈ s.inbox.queue, t.id ≠ .nil) ∧ (∀ t ∈ s.worker.pending.triggers, t.id ≠ .nil) ∧
      ∀ d ∈ s.history.dispatches, d.trigger.id ≠ .nil) ∧
    (∀ n r, s.calls[n]? = some (.asked r) → r.IsInvalid →
      s.advance n (.asked r) = { s with
        inbox := { s.inbox with
          admissions := { s.inbox.admissions with rejected := s.inbox.admissions.rejected + 1 } }
        calls := s.calls.set n (.answered .rejected)
        history := s.history ++ [.counted n .rejected] } ∧
      ∀ t, Steps s t →
        t.calls[n]? = some (.asked r) ∧ t.history.countedBy n = [] ∨
        t.calls[n]? = some (.answered .rejected) ∧ t.history.countedBy n = [.rejected]) ∧
    ∀ (tracker : Tracker σ) (r : Request),
      (r.IsInvalid → tracker.request r = { tracker with
        inbox := { tracker.inbox with
          admissions := { tracker.inbox.admissions with
            rejected := tracker.inbox.admissions.rejected + 1 } } }) ∧
      (¬ r.IsInvalid →
        (tracker.request r).inbox.admissions.rejected = tracker.inbox.admissions.rejected ∧
        (tracker.inbox.lifecycle ≠ .running ∨ tracker.inbox.capacity ≤ tracker.inbox.queue.length →
          (tracker.request r).inbox.admissions.dropped = tracker.inbox.admissions.dropped + 1)) := by
  have hsound := hs.sound
  have hclean := hs.clean
  have hreceived : ∀ t ∈ s.history.received, t.id ≠ .nil := by
    intro t ht
    apply hclean.queued
    rw [hsound.queued]
    exact List.mem_append_left _ ht
  refine ⟨⟨?_, ?_, ?_⟩, ?_, ?_⟩
  · intro t ht
    apply hclean.queued
    rw [hsound.queued]
    exact List.mem_append_right _ ht
  · intro t ht
    exact hreceived t (hsound.kept.mem_received ht)
  · intro d hd
    exact hreceived _ (hsound.kept.settled.mem_received (.inl (List.mem_map_of_mem hd)))
  · intro n r hn hr
    obtain ⟨hstep, hcounts⟩ := Call.step_of_isInvalid hr s.inbox
    constructor
    · have hqueues : (Call.asked r).queues? s.inbox = none := rfl
      rw [advance, hstep, hcounts, hqueues, Option.toList_none, List.map_nil, List.append_nil]
      rfl
    · intro t steps
      have haudited : Audited t := (hs.steps steps).audited
      apply (steps.call_of_isInvalid hr hn).imp
      · intro hc
        refine ⟨hc, ?_⟩
        rw [haudited.countedBy, hc]
        rfl
      · intro hc
        refine ⟨hc, ?_⟩
        rw [haudited.countedBy, hc]
        rfl
  · intro tracker r
    refine ⟨tracker.request_of_isInvalid, ?_⟩
    intro h
    obtain ⟨t, hn, hrequest⟩ := tracker.request_of_not_isInvalid h
    rw [hrequest]
    exact tracker.inbox.offer_of_ne_nil hn

/-- The task with the nil id was created. -/
def nilTrigger : Trigger := ⟨.task, .nil, .created, ∅⟩

/-- A tracker whose queue is full and whose stop has begun, and a call that brings in a nil id. -/
def crowded : System Unit where
  inbox := ⟨.stopping, 0, [lateTrigger], 1, true, ⟨1, 0, 0, 0⟩⟩
  worker := .start ()
  phase := .working
  stopWaits := false
  handle := .free
  calls := [.answered .accepted, .asked (.trigger nilTrigger)]
  stops := [.first]
  history := [.queued lateTrigger, .counted 0 .accepted]

lemma reachable_crowded : crowded.Reachable := by
  have run := ((((((Steps.refl.tail (.ask (System.start 1 ()) (.trigger lateTrigger))).tail
    (.call _ 0 _ rfl)).tail (.call _ 0 _ rfl)).tail (.call _ 0 _ rfl)).tail (.call _ 0 _ rfl)).tail
    (.call _ 0 _ rfl))
  have answered : Steps (System.start 1 ()) ⟨⟨.running, 0, [lateTrigger], 1, true, ⟨1, 0, 0, 0⟩⟩,
      .start (), .working, false, .free, [.answered .accepted], [],
      [.queued lateTrigger, .counted 0 .accepted]⟩ := run
  have run := ((answered.tail (.ask _ (.trigger nilTrigger))).tail (.askStop _)).tail
    (.beginStop _ 0 rfl)
  exact ⟨1, (), Nat.one_pos, run⟩

/-- A trigger with the nil id is read from JSON like any other. It is rejected, also where the queue is
full and the stop has begun; the trigger in the queue is about an entity. -/
theorem nothing_nil_of_crowded :
    Trigger.ofJson? nilTrigger.toJson = some nilTrigger ∧
    crowded.Reachable ∧ (Request.trigger nilTrigger).IsInvalid ∧
    (crowded.advance 1 (.asked (.trigger nilTrigger))).stats.admissions = ⟨1, 1, 0, 0⟩ ∧
    (∀ t, Steps crowded t → t.history.countedBy 1 = [] ∨ t.history.countedBy 1 = [.rejected]) ∧
    ∀ t ∈ crowded.inbox.queue, t.id ≠ .nil := by
  obtain ⟨⟨hqueue, -, -⟩, hcall, -⟩ := reachable_crowded.nothing_nil
  obtain ⟨hadvance, hafter⟩ := hcall 1 (.trigger nilTrigger) rfl rfl
  refine ⟨nilTrigger.ofJson?_toJson, reachable_crowded, rfl, ?_, ?_, hqueue⟩
  · rw [hadvance]
    rfl
  · intro t steps
    exact (hafter t steps).imp And.right And.right

end System

end BoardAudit
