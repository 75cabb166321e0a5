import BoardAudit.Proofs.Tracker.Watch

/-!
# Schedules

When a worker drains makes no difference to its snapshots in the end, as long as the rows stay as they
are and can be read. Of every entity the last trigger decides: after a deletion there is no snapshot, and
after anything else it is the row. What is `due` is the snapshot that a drain would leave, and a trigger
changes that as it would change the snapshot were it handled at once.
-/

namespace BoardAudit

open Trigger (ofKey)

variable {σ τ : Type} {r : Repositories} {K : Key}

/-- The snapshot of an entity after a trigger for it, if there is one. -/
def Repositories.after (r : Repositories) (K : Key) :
    Option Trigger → Option K.kind.Row → Option K.kind.Row
  | none, before => before
  | some t, _ => if t.action = .deleted then none else (r K.kind K.id).row?

lemma Repositories.after_or (t u : Option Trigger) (before : Option K.kind.Row) :
    r.after K (t.or u) before = r.after K t (r.after K u before) := by
  cases t <;> rfl

/-- Whether a trigger tells of a deletion, or else of a row that can be read. -/
def Trigger.Succeeds (r : Repositories) (t : Trigger) : Prop :=
  t.action = .deleted ∨ t.reads = true ∧ ∃ row, r t.kind t.id = .found row

/-! ### Errands -/

namespace Errand

variable {e : Errand σ} {es : List (Errand σ)} {p : Snapshots × σ}

lemma find?_run (hr : r.Faithful) (he : e.env.repositories = r) (ht : e.trigger.Succeeds r) :
    (e.run p).1.find? K.kind K.id =
      r.after K (ofKey K [e.trigger]).getLast? (p.1.find? K.kind K.id) := by
  have hf : e.env.repositories.Faithful := he ▸ hr
  by_cases hk : e.trigger.key = K
  · rw [Trigger.ofKey_singleton, if_pos hk]
    show _ = if e.trigger.action = .deleted then none else (r K.kind K.id).row?
    subst hk
    rcases ht with hd | ⟨hreads, row, hrow⟩
    · rw [if_pos hd]
      exact Deletes.find?_run ⟨rfl, hd⟩
    · have hs : e.Sights e.trigger.kind e.trigger.id row :=
        ⟨rfl, Trigger.reads_iff.mp hreads, by rw [he, hrow]⟩
      rw [if_neg (Trigger.action_ne_deleted hreads)]
      show (e.run p).1.find? e.trigger.kind e.trigger.id = (r e.trigger.kind e.trigger.id).row?
      rw [hs.find?_run hf, hrow]
      rfl
  · rw [Trigger.ofKey_singleton, if_neg hk]
    exact find?_run_of_ne hf hk

lemma find?_doAll (hr : r.Faithful) (hes : ∀ e ∈ es, e.env.repositories = r)
    (hts : ∀ e ∈ es, e.trigger.Succeeds r) :
    (doAll es p).1.find? K.kind K.id =
      r.after K (ofKey K (es.map Errand.trigger)).getLast? (p.1.find? K.kind K.id) := by
  induction es generalizing p with
  | nil => rfl
  | cons e es ih =>
    obtain ⟨he, hes⟩ := List.forall_mem_cons.mp hes
    obtain ⟨ht, hts⟩ := List.forall_mem_cons.mp hts
    have hdo : doAll (e :: es) p = doAll es (e.run p) := rfl
    have hkey : ofKey K ((e :: es).map Errand.trigger) =
        ofKey K [e.trigger] ++ ofKey K (es.map Errand.trigger) := Trigger.ofKey_cons
    rw [hdo, ih hes hts, find?_run hr he ht, hkey, List.getLast?_append, Repositories.after_or]

end Errand

/-! ### Watches -/

namespace Act

def received? : Act → Option Trigger
  | .receive t => some t
  | _ => none

def isChange : Act → Bool
  | .change .. => true
  | _ => false

/-- Acts that let some triggers come in and leave the rows as they are, the last of them a drain. -/
structure Schedule (ts : List Trigger) (as : List Act) : Prop where
  received : as.filterMap received? = ts
  fixed : ∀ a ∈ as, a.isChange = false
  drained : ∃ order, as.getLast? = some (.drain order)

end Act

namespace Watch

variable {sink : Sink σ} {w v : Watch σ} {a : Act} {as : List Act}

/-- The snapshot that a drain would leave. -/
def due (w : Watch σ) (K : Key) : Option K.kind.Row :=
  w.repositories.after K (w.worker.pending.find? K) (w.worker.snapshots.find? K.kind K.id)

/-- The rows are found under their ids, and what waits succeeds. -/
structure Ready (r : Repositories) (w : Watch σ) : Prop where
  repositories : w.repositories = r
  waiting : ∀ t ∈ w.worker.pending.triggers, t.Succeeds r

/-- A received trigger changes what is due as it would change the snapshot, and a drain changes nothing
of it. -/
lemma Ready.step (hr : r.Faithful) (h : Ready r w) (step : Step sink w a v)
    (hfixed : a.isChange = false) (ha : ∀ t ∈ a.received?.toList, t.Succeeds r) :
    Ready r v ∧ ∀ K, v.due K = r.after K (ofKey K a.received?.toList).getLast? (w.due K) := by
  obtain ⟨rfl, hw⟩ := h
  cases step with
  | change k id fetch => cases hfixed
  | receive t =>
    refine ⟨⟨rfl, fun u hu => ?_⟩, fun K => ?_⟩
    · rw [Batch.mem_triggers] at hu
      simp only [receive, Worker.receive, Batch.find?_insert] at hu
      split at hu
      · cases hu
        exact ha _ List.mem_cons_self
      · exact hw u (Batch.mem_triggers.mpr hu)
    · have hlast : (w.worker.receive t).pending.find? K =
          (ofKey K [t]).getLast?.or (w.worker.pending.find? K) := w.worker.find?_receiveAll [t] K
      show w.repositories.after K ((w.worker.receive t).pending.find? K) _ = _
      rw [hlast, Repositories.after_or]
      rfl
  | drain order es ho hp hes =>
    subst ho
    have hawaits := Worker.awaits_recorded hp
    have hpending := w.worker.pending_drainAs (es.map .recorded)
    refine ⟨⟨rfl, fun u hu => ?_⟩, fun K => ?_⟩
    · simp [drainAs, hpending] at hu
    · -- Of each entity the errands handle what waits, so the last of them is that.
      have hkey := Worker.ofKey_drainAs hawaits K
      rw [Worker.trigger_drainAs hawaits] at hkey
      have hread : ∀ e ∈ es.map Errand.recorded, e.env.repositories = w.repositories :=
        List.forall_mem_map.mpr fun e he => (hes e he).repositories
      have hsucceed : ∀ e ∈ es.map Errand.recorded, e.trigger.Succeeds w.repositories :=
        List.forall_mem_map.mpr fun e he => hw _ (hp.mem_iff.mp (List.mem_map_of_mem he))
      have hlast : (w.worker.pending.find? K).toList.getLast? = w.worker.pending.find? K := by
        cases w.worker.pending.find? K <;> rfl
      have hsnap := Errand.find?_doAll (K := K) (p := (w.worker.snapshots, w.worker.log)) hr hread hsucceed
      rw [← Worker.drainAs_eq_doAll hawaits, hkey, hlast] at hsnap
      show w.repositories.after K ((w.worker.drainAs (es.map .recorded)).2.pending.find? K)
        ((w.worker.drainAs (es.map .recorded)).2.snapshots.find? K.kind K.id) = _
      rw [hpending, Batch.find?_empty]
      exact hsnap

/-- What is due in the end is what the received triggers make of what was due at first. -/
lemma Ready.course (hr : r.Faithful) (h : Ready r w) (course : Course sink w as v)
    (hfixed : ∀ a ∈ as, a.isChange = false)
    (has : ∀ t ∈ as.filterMap Act.received?, t.Succeeds r) (K : Key) :
    v.due K = r.after K (ofKey K (as.filterMap Act.received?)).getLast? (w.due K) := by
  induction course with
  | nil => rfl
  | @cons w u v a as step rest ih =>
    have hreceived : (a :: as).filterMap Act.received? =
        a.received?.toList ++ as.filterMap Act.received? := by
      cases ha : a.received? with
      | none => rw [List.filterMap_cons_none ha]; rfl
      | some t => rw [List.filterMap_cons_some ha]; rfl
    rw [hreceived] at has ⊢
    obtain ⟨ha, has⟩ := List.forall_mem_append.mp has
    obtain ⟨hfixed, hfixeds⟩ := List.forall_mem_cons.mp hfixed
    obtain ⟨hu, hdue⟩ := h.step hr step hfixed ha
    rw [ih hu hfixeds has, hdue, Trigger.ofKey_append, List.getLast?_append, Repositories.after_or]

lemma Course.pending_eq_empty (course : Course sink w as v) {order : List Trigger}
    (hlast : as.getLast? = some (.drain order)) : v.worker.pending = .empty := by
  induction course with
  | nil => cases hlast
  | @cons w u v a as step rest ih =>
    cases rest with
    | nil =>
      obtain rfl : a = .drain order := by simpa using hlast
      cases step with
      | drain _ es ho hp hes => exact Worker.pending_drainAs ..
    | cons => exact ih (by rwa [List.getLast?_cons_cons] at hlast)

namespace Course

/-- The snapshots after a schedule: of every entity the last trigger decides. -/
theorem find?_of_schedule {s : Snapshots} {log : σ} {ts : List Trigger} (hr : r.Faithful)
    (hts : ∀ t ∈ ts, t.Succeeds r) (course : Course sink (.start r s log) as w)
    (has : Act.Schedule ts as) (K : Key) :
    w.worker.snapshots.find? K.kind K.id =
      r.after K (ofKey K ts).getLast? (s.find? K.kind K.id) := by
  obtain ⟨rfl, hfixed, order, hlast⟩ := has
  have hready : Ready r (.start r s log) := ⟨rfl, by simp [start, Worker.start]⟩
  have hdue := hready.course hr course hfixed hts K
  have hpending := course.pending_eq_empty hlast
  have hstart : (start r s log).due K = s.find? K.kind K.id := by
    simp only [due, start, Worker.start, Batch.find?_empty]
    rfl
  rw [hstart] at hdue
  rw [← hdue, due, hpending, Batch.find?_empty]
  rfl

/-- **Schedules agree.** The rows stay as they are, every entity with a trigger that is no deletion can
be read, and changes of status are told of tasks only. Then the same triggers leave the same snapshots,
wherever the drains are between them as long as one is at the end, in whatever orders they visit the
batch, and whatever the sinks do. -/
theorem snapshots_eq {s : Snapshots} {log : σ} {log' : τ} {sink' : Sink τ} {w' : Watch τ}
    {ts : List Trigger} {as' : List Act} (hr : r.Faithful)
    (hfetch : ∀ t ∈ ts, t.action ≠ .deleted → ∃ row, r t.kind t.id = .found row)
    (hstatus : ∀ t ∈ ts, t.action = .statusChanged → t.kind = .task)
    (has : Act.Schedule ts as) (has' : Act.Schedule ts as')
    (course : Course sink (.start r s log) as w) (course' : Course sink' (.start r s log') as' w') :
    w.worker.snapshots = w'.worker.snapshots := by
  have hts : ∀ t ∈ ts, t.Succeeds r := by
    intro t ht
    by_cases hd : t.action = .deleted
    · exact .inl hd
    · refine .inr ⟨?_, hfetch t ht hd⟩
      rw [Trigger.reads_iff]
      cases ha : t.action with
      | created => exact .inl rfl
      | updated => exact .inr (.inl rfl)
      | deleted => exact absurd ha hd
      | statusChanged => exact .inr (.inr ⟨rfl, hstatus t ht ha⟩)
  refine Tables.ext_find? fun k id => ?_
  have h := course.find?_of_schedule hr hts has ⟨k, id⟩
  have h' := course'.find?_of_schedule hr hts has' ⟨k, id⟩
  exact h.trans h'.symm

/-- A task is created and deleted while a status with its id is updated: once with one drain, which
visits the status first, and once with a drain after every trigger and a sink that always crashes. -/
theorem snapshots_eq_of_three :
    let id : EntityId := ⟨1, by decide⟩
    let created : Trigger := ⟨.task, id, .created, ∅⟩
    let deleted : Trigger := ⟨.task, id, .deleted, ∅⟩
    let updated : Trigger := ⟨.status, id, .updated, ∅⟩
    let env : Environment Unit := { Environment.mirror with sink := ⟨fun _ log => (.stored, log)⟩ }
    let start : Watch Unit := .start env.repositories .empty ()
    let as : List Act :=
      [.receive created, .receive deleted, .receive updated, .drain [updated, deleted]]
    let as' : List Act := [.receive created, .drain [created], .receive deleted, .drain [deleted],
      .receive updated, .drain [updated]]
    ∃ w w' : Watch Unit, Course env.sink start as w ∧ Course Environment.mirror.sink start as' w' ∧
      w.worker.snapshots = w'.worker.snapshots := by
  intro id created deleted updated env start as as'
  have hone : ∀ t, ∀ e ∈ [Errand.mk Environment.mirror t],
      e.Uses env.repositories Environment.mirror.sink := by
    intro t e he
    exact Errand.uses_of_mem (show e ∈ [t].map (.mk Environment.mirror) from he)
  let w := (((start.receive created).receive deleted).receive updated).drainAs
    ([updated, deleted].map (.mk env))
  have course : Course env.sink start as w := by
    refine .cons (.receive ..) (.cons (.receive ..) (.cons (.receive ..)
      (.cons (.drain _ _ _ rfl ?_ fun e he => Errand.uses_of_mem he) (.nil _))))
    decide
  let w' := (((((start.receive created).drainAs [⟨.mirror, created⟩]).receive deleted).drainAs
    [⟨.mirror, deleted⟩]).receive updated).drainAs [⟨.mirror, updated⟩]
  have course' : Course Environment.mirror.sink start as' w' := by
    refine .cons (.receive ..) (.cons (.drain _ _ _ rfl ?_ (hone _)) (.cons (.receive ..)
      (.cons (.drain _ _ _ rfl ?_ (hone _)) (.cons (.receive ..)
        (.cons (.drain _ _ _ rfl ?_ (hone _)) (.nil _))))))
    all_goals decide
  have hfetch : ∀ t ∈ [created, deleted, updated], t.action ≠ .deleted →
      ∃ row, env.repositories t.kind t.id = .found row := by
    rintro ⟨k, i, action, notes⟩ - -
    cases k <;> exact ⟨_, rfl⟩
  have hstatus : ∀ t ∈ [created, deleted, updated], t.action = .statusChanged → t.kind = .task := by
    simp [created, deleted, updated]
  have has : Act.Schedule [created, deleted, updated] as :=
    ⟨rfl, by decide, _, rfl⟩
  have has' : Act.Schedule [created, deleted, updated] as' :=
    ⟨rfl, by decide, _, rfl⟩
  exact ⟨w, w', course, course',
    snapshots_eq Environment.faithful_mirror hfetch hstatus has has' course course'⟩

end Course

end Watch

end BoardAudit
