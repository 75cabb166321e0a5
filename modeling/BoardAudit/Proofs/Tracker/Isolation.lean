import BoardAudit.Proofs.Tracker.Watch

/-!
# Isolation

What a worker does for one entity is what it would do if there were no other. `Alike` ties a watch to a
second one that has heard of a single entity: this waits alike, has the same snapshot and the same past
of its own. Every act keeps the two tied, if the second sees what is left of the act for its entity.
-/

namespace BoardAudit

open Trigger (ofKey)

variable {σ τ : Type} {K : Key}

/-- What is left of an act where there is only one entity. -/
def Act.only (K : Key) : Act → Option Act
  | .change k id fetch => if (⟨k, id⟩ : Key) = K then some (.change k id fetch) else none
  | .receive t => if t.key = K then some (.receive t) else none
  | .drain order => some (.drain (ofKey K order))

/-- Two sinks treat the entries about an entity alike, each in whatever state, and whenever the entry
was made. -/
def Sink.AgreeOn (K : Key) (sink : Sink σ) (sink' : Sink τ) : Prop :=
  ∀ refs text now now' log log', refs.key = K →
    (sink'.insert ⟨refs, text, now'⟩ log').1 = (sink.insert ⟨refs, text, now⟩ log).1

/-! ### Workers -/

namespace Worker

/-- The second worker knows of one entity only, and of it what the first knows. -/
structure Alike (K : Key) (w : Worker (σ × List Attempt)) (w' : Worker (τ × List Attempt)) :
    Prop where
  waiting : w'.pending.find? K = w.pending.find? K
  alone : ∀ key, key ≠ K → w'.pending.find? key = none
  snapshot : w'.snapshots.find? K.kind K.id = w.snapshots.find? K.kind K.id
  attempts : w'.log.2.map Attempt.untimed = (Attempt.about K w.log.2).map Attempt.untimed

namespace Alike

variable {w : Worker (σ × List Attempt)} {w' : Worker (τ × List Attempt)}

lemma receive (h : Alike K w w') {t : Trigger} (ht : t.key = K) :
    Alike K (w.receive t) (w'.receive t) where
  waiting := by simp only [Worker.receive, Batch.find?_insert, h.waiting]
  alone key hk := by
    rw [Worker.receive, Batch.find?_insert, if_neg (ht ▸ hk.symm), h.alone key hk]
  snapshot := h.snapshot
  attempts := h.attempts

lemma receive_other (h : Alike K w w') {t : Trigger} (ht : t.key ≠ K) :
    Alike K (w.receive t) w' where
  waiting := by rw [Worker.receive, Batch.find?_insert, if_neg ht, h.waiting]
  alone := h.alone
  snapshot := h.snapshot
  attempts := h.attempts

/-- An errand for the entity is the same for both. -/
lemma dispatch (h : Alike K w w') {e : Errand σ} {e' : Errand τ} (ht : e'.trigger = e.trigger)
    (hk : e.trigger.key = K) (hf : e.env.repositories.Faithful)
    (hr : e'.env.repositories K.kind K.id = e.env.repositories K.kind K.id)
    (hs : e.env.sink.AgreeOn K e'.env.sink) :
    (w'.dispatch e'.recorded).1 = (w.dispatch e.recorded).1 ∧
      Alike K (w.dispatch e.recorded).2 (w'.dispatch e'.recorded).2 := by
  subst hk
  obtain ⟨env', t⟩ := e'
  subst ht
  obtain ⟨hobs, hsnap⟩ := Snapshots.observe_congr hr h.snapshot
  have hverdict : ∀ refs text,
      (Snapshots.observe e.env.repositories w.snapshots e.trigger).1 = .entry refs text →
      (env'.sink.insert ⟨refs, text, env'.now⟩ w'.log.1).1 =
        (e.env.sink.insert ⟨refs, text, e.env.now⟩ w.log.1).1 := fun refs text ho =>
    hs refs text _ _ _ _ (Snapshots.key_of_observe (hf _ _) ho)
  obtain ⟨hout, hatt⟩ := Environment.settle_congr hobs hverdict
  obtain ⟨hd, -, hlog⟩ := w.dispatch_recorded e
  obtain ⟨hd', -, hlog'⟩ := w'.dispatch_recorded ⟨env', e.trigger⟩
  refine ⟨?_, h.waiting, h.alone, hsnap, ?_⟩
  · rw [hd, hd']
    exact congrArg (Dispatch.mk e.trigger) hout
  · have hatt' := congrArg Option.toList hatt
    rw [Option.toList_map, Option.toList_map] at hatt'
    rw [hlog, hlog', Attempt.about_append, Errand.about_attempt? hf, List.map_append, List.map_append,
      h.attempts]
    exact congrArg _ hatt'

/-- An errand for another entity concerns the first only. -/
lemma dispatch_other (h : Alike K w w') {e : Errand σ} (hk : e.trigger.key ≠ K)
    (hf : e.env.repositories.Faithful) : Alike K (w.dispatch e.recorded).2 w' := by
  obtain ⟨-, -, hlog⟩ := w.dispatch_recorded e
  refine ⟨h.waiting, h.alone, ?_, ?_⟩
  · have hkeep : (e.run (w.snapshots, w.log.1)).1.find? K.kind K.id = w.snapshots.find? K.kind K.id :=
      Errand.find?_run_of_ne hf hk
    exact h.snapshot.trans hkeep.symm
  · rw [hlog, Attempt.about_append, Errand.about_attempt?_of_ne hf hk, List.append_nil, h.attempts]

/-- Of the errands of the first the second does those for the entity. -/
lemma dispatchAll {r r' : Repositories} {sink : Sink σ} {sink' : Sink τ} (hr : r.Faithful)
    (hK : r' K.kind K.id = r K.kind K.id) (hs : sink.AgreeOn K sink') (h : Alike K w w')
    {es : List (Errand σ)} {es' : List (Errand τ)} (hes : ∀ e ∈ es, e.Uses r sink)
    (hes' : ∀ e ∈ es', e.Uses r' sink')
    (ht : es'.map Errand.trigger = ofKey K (es.map Errand.trigger)) :
    (w'.dispatchAll (es'.map .recorded)).1 =
        ((w.dispatchAll (es.map .recorded)).1.filter fun d => d.trigger.key = K) ∧
      Alike K (w.dispatchAll (es.map .recorded)).2 (w'.dispatchAll (es'.map .recorded)).2 := by
  induction es generalizing w w' es' with
  | nil =>
    obtain rfl := List.map_eq_nil_iff.mp ht
    exact ⟨rfl, h⟩
  | cons e es ih =>
    obtain ⟨he, hes⟩ := List.forall_mem_cons.mp hes
    have hf : e.env.repositories.Faithful := he.repositories ▸ hr
    rw [List.map_cons, Trigger.ofKey_cons, Trigger.ofKey_singleton] at ht
    by_cases hk : e.trigger.key = K
    · rw [if_pos hk, List.singleton_append] at ht
      obtain ⟨e', rest, rfl, he', hrest⟩ := List.map_eq_cons_iff.mp ht
      obtain ⟨hu', hes'⟩ := List.forall_mem_cons.mp hes'
      obtain ⟨hd, h⟩ := h.dispatch he' hk hf
        (by rw [he.repositories, hu'.repositories, hK]) (by rwa [he.sink, hu'.sink])
      obtain ⟨hds, h⟩ := ih h hes hes' hrest
      refine ⟨?_, h⟩
      have hown : (w.dispatch e.recorded).1.trigger.key = K := hk
      simp only [List.map_cons, Worker.dispatchAll, List.filter_cons, hown, decide_true, if_true]
      rw [hd, hds]
    · rw [if_neg hk, List.nil_append] at ht
      obtain ⟨hds, h⟩ := ih (h.dispatch_other hk hf) hes hes' ht
      refine ⟨?_, h⟩
      have hother : ¬ (w.dispatch e.recorded).1.trigger.key = K := hk
      simp only [List.map_cons, Worker.dispatchAll, List.filter_cons, hother, decide_false]
      exact hds

/-- What waits for the second is what waits for the first under the entity's key. -/
lemma ofKey_perm (h : Alike K w w') {order : List Trigger} (hp : order.Perm w.pending.triggers) :
    (ofKey K order).Perm w'.pending.triggers := by
  have hall : ofKey K w'.pending.triggers = w'.pending.triggers := by
    refine List.filter_eq_self.mpr fun t ht => decide_eq_true ?_
    by_contra hk
    rw [Batch.mem_triggers, h.alone t.key hk] at ht
    cases ht
  rw [← hall, Batch.ofKey_triggers, h.waiting, ← Batch.ofKey_triggers]
  exact Trigger.ofKey_perm hp

end Alike

end Worker

/-! ### Watches -/

namespace Watch

/-- The second watch knows of one entity only, and of it what the first knows. -/
structure Alike (K : Key) (w : Watch σ) (w' : Watch τ) : Prop where
  faithful : w.repositories.Faithful
  fetch : w'.repositories K.kind K.id = w.repositories K.kind K.id
  worker : w.worker.Alike K w'.worker
  dispatches : w'.dispatches = w.dispatches.filter fun d => d.trigger.key = K

namespace Alike

variable {w v : Watch σ} {w' v' : Watch τ} {sink : Sink σ} {sink' : Sink τ}

lemma drain (hs : sink.AgreeOn K sink') (h : Alike K w w') {es : List (Errand σ)}
    {es' : List (Errand τ)} (hp : (es.map Errand.trigger).Perm w.worker.pending.triggers)
    (hes : ∀ e ∈ es, e.Uses w.repositories sink) (hes' : ∀ e ∈ es', e.Uses w'.repositories sink')
    (ht : es'.map Errand.trigger = ofKey K (es.map Errand.trigger)) :
    (w'.worker.drainAs (es'.map .recorded)).1 =
        ((w.worker.drainAs (es.map .recorded)).1.filter fun d => d.trigger.key = K) ∧
      (w.worker.drainAs (es.map .recorded)).2.Alike K
        (w'.worker.drainAs (es'.map .recorded)).2 := by
  have hp' : (es'.map Errand.trigger).Perm w'.worker.pending.triggers := by
    rw [ht]
    exact h.worker.ofKey_perm hp
  obtain ⟨drains, hd⟩ := Worker.drainAs_eq_dispatchAll (Worker.awaits_recorded hp)
  obtain ⟨drains', hd'⟩ := Worker.drainAs_eq_dispatchAll (Worker.awaits_recorded hp')
  rw [hd, hd']
  have hempty : Worker.Alike K
      { w.worker with pending := .empty, tallies := { w.worker.tallies with drains } }
      { w'.worker with
        pending := .empty, tallies := { w'.worker.tallies with drains := drains' } } :=
    ⟨rfl, fun _ _ => Batch.find?_empty _, h.worker.snapshot, h.worker.attempts⟩
  exact hempty.dispatchAll h.faithful h.fetch hs hes hes' ht

/-- What an act leaves for the entity can happen to the second watch and keeps the two tied, and so does
an act that leaves nothing. -/
lemma step (hs : sink.AgreeOn K sink') (h : Alike K w w') {a : Act} (ha : a.Faithful)
    (step : Step sink w a v) :
    match a.only K with
    | some a' => (∃ v', Step sink' w' a' v') ∧ ∀ v', Step sink' w' a' v' → Alike K v v'
    | none => Alike K v w' := by
  cases step with
  | change k id fetch =>
    have hf := h.faithful.set ha
    by_cases hk : (⟨k, id⟩ : Key) = K
    · subst hk
      rw [Act.only, if_pos rfl]
      refine ⟨⟨_, .change w' k id fetch⟩, ?_⟩
      rintro v' ⟨⟩
      exact ⟨hf, by simp [change], h.worker, h.dispatches⟩
    · rw [Act.only, if_neg hk]
      refine ⟨hf, ?_, h.worker, h.dispatches⟩
      rw [h.fetch]
      exact (Repositories.set_of_ne hk).symm
  | receive t =>
    by_cases hk : t.key = K
    · rw [Act.only, if_pos hk]
      refine ⟨⟨_, .receive w' t⟩, ?_⟩
      rintro v' ⟨⟩
      exact ⟨h.faithful, h.fetch, h.worker.receive hk, h.dispatches⟩
    · rw [Act.only, if_neg hk]
      exact ⟨h.faithful, h.fetch, h.worker.receive_other hk, h.dispatches⟩
  | drain order es ho hp hes =>
    refine ⟨Step.exists_drain sink' w' (h.worker.ofKey_perm hp), ?_⟩
    intro v' step'
    cases step' with
    | drain _ es' ho' _ hes' =>
      subst ho
      obtain ⟨hd, hworker⟩ := h.drain hs hp hes hes' ho'
      refine ⟨h.faithful, h.fetch, hworker, ?_⟩
      simp only [drainAs, List.filter_append, h.dispatches, hd]

/-- What a course leaves for the entity can happen to the second watch, and however it does, the two are
tied at the end. -/
theorem course (hs : sink.AgreeOn K sink') {as : List Act} (course : Course sink w as v)
    (has : ∀ a ∈ as, a.Faithful) (h : Alike K w w') :
    (∃ v', Course sink' w' (as.filterMap (Act.only K)) v') ∧
      ∀ v', Course sink' w' (as.filterMap (Act.only K)) v' → Alike K v v' := by
  exact Course.follow (fun _ _ _ _ h hfaithful step => h.step hs hfaithful step) course has h

end Alike

namespace Course

/-- **Isolation.** Take any course and any entity, and take away all that is about other entities: their
triggers, their rows and the faults in reading them. What is left can happen, and however it does, the
triggers handled for the entity and what came of them, the entries about it that were given to the sink
and what the sink did with them, and its snapshot are those of the course. -/
theorem isolated {r r' : Repositories} {s s' : Snapshots} {log : σ} {log' : τ} {sink : Sink σ}
    {sink' : Sink τ} {as : List Act} {w : Watch σ} (hr : r.Faithful) (has : ∀ a ∈ as, a.Faithful)
    (hs : sink.AgreeOn K sink') (hfetch : r' K.kind K.id = r K.kind K.id)
    (hsnap : s'.find? K.kind K.id = s.find? K.kind K.id)
    (course : Course sink (.start r s log) as w) :
    (∃ w', Course sink' (.start r' s' log') (as.filterMap (Act.only K)) w') ∧
    ∀ w', Course sink' (.start r' s' log') (as.filterMap (Act.only K)) w' →
      w'.dispatches = (w.dispatches.filter fun d => d.trigger.key = K) ∧
      w'.attempts.map Attempt.untimed = (Attempt.about K w.attempts).map Attempt.untimed ∧
      w'.worker.snapshots.find? K.kind K.id = w.worker.snapshots.find? K.kind K.id := by
  have h : Alike K (.start r s log) (.start r' s' log') :=
    ⟨hr, hfetch, ⟨rfl, fun _ _ => Batch.find?_empty _, hsnap, rfl⟩, rfl⟩
  obtain ⟨hex, hall⟩ := h.course hs course has
  refine ⟨hex, fun w' course' => ?_⟩
  have h := hall w' course'
  exact ⟨h.dispatches, h.worker.attempts, h.worker.snapshot⟩

/-- A project, a status and a task have the same id. The project cannot be read, the sink crashes over
the status, and the task is audited as if it were alone. -/
theorem isolated_among_three :
    let id : EntityId := ⟨1, by decide⟩
    let created : Trigger := ⟨.task, id, .created, ∅⟩
    let sink : Sink Unit :=
      ⟨fun m log => (if m.toRefs.key = ⟨.task, id⟩ then .stored else .crashed, log)⟩
    let sink' : Sink Unit := ⟨fun _ log => (.stored, log)⟩
    let order : List Trigger := [⟨.status, id, .deleted, ∅⟩, created, ⟨.project, id, .updated, ∅⟩]
    let as : List Act := [.change .project id .crashed] ++ order.map .receive ++ [.drain order]
    let env : Environment Unit :=
      ⟨Environment.mirror.repositories.set .project id .crashed, sink, .epoch⟩
    let w := (((((start Environment.mirror.repositories .empty ()).change .project id .crashed).receive
      ⟨.status, id, .deleted, ∅⟩).receive created).receive ⟨.project, id, .updated, ∅⟩).drainAs
        (order.map (.mk env))
    w.dispatches.map Dispatch.outcome = [.crashed, .logged "task.created", .crashed] ∧
    Course sink (.start Environment.mirror.repositories .empty ()) as w ∧
    ∃ w' : Watch Unit,
      Course sink' (.start Environment.mirror.repositories .empty ())
        [.receive created, .drain [created]] w' ∧
      w'.dispatches = [⟨created, .logged "task.created"⟩] := by
  intro id created sink sink' order as env w
  have has : ∀ a ∈ as, a.Faithful := by
    simp [as, order, Act.Faithful]
  have hs : sink.AgreeOn ⟨.task, id⟩ sink' := by
    intro refs text now now' log log' hk
    simp [sink, sink', hk]
  have course : Course sink (.start Environment.mirror.repositories .empty ()) as w := by
    refine .cons (.change ..) (.cons (.receive ..) (.cons (.receive ..) (.cons (.receive ..)
      (.cons (.drain _ order _ rfl ?_ fun e he => Errand.uses_of_mem he) (.nil _)))))
    decide
  obtain ⟨⟨w', course'⟩, hall⟩ := isolated Environment.faithful_mirror has hs rfl rfl course
  obtain ⟨hd', -, -⟩ := hall w' course'
  exact ⟨rfl, course, w', course', hd'.trans rfl⟩

end Course

end Watch

end BoardAudit
