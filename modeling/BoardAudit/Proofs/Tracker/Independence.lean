import BoardAudit.Proofs.Tracker.Watch

/-!
# Independence

A sink has no say in what a worker tracks. `Agree` ties two watches whose sinks may do different things:
the same triggers wait, the snapshots are the same, the same entries were given to the sinks, and the
counters differ at most in what became of the entries. Every act keeps the two tied, because what is
observed is kept before the sink is asked, and a drain goes on whatever the sink does.
-/

namespace BoardAudit

variable {σ τ : Type}

/-! ### Counters -/

/-- Counters that differ at most in what became of entries: as many were kept, refused or crashed over,
with the triggers that crashed without one. -/
structure Tallies.Agree (t t' : Tallies) : Prop where
  coalesced : t'.coalesced = t.coalesced
  drains : t'.drains = t.drains
  handled : t'.handled = t.handled
  ignored : t'.ignored = t.ignored
  fetchFailures : t'.fetchFailures = t.fetchFailures
  entries : t'.logged + t'.insertFailures + t'.crashes = t.logged + t.insertFailures + t.crashes

namespace Tallies

variable {t t' : Tallies}

/-- Whatever becomes of an entry, one more trigger is handled and one more entry has its outcome. -/
lemma count_outcome (t : Tallies) (v : Verdict) (text : String) :
    (t.count (v.outcome text)).coalesced = t.coalesced ∧
      (t.count (v.outcome text)).drains = t.drains ∧
      (t.count (v.outcome text)).handled = t.handled + 1 ∧
      (t.count (v.outcome text)).ignored = t.ignored ∧
      (t.count (v.outcome text)).fetchFailures = t.fetchFailures ∧
      (t.count (v.outcome text)).logged + (t.count (v.outcome text)).insertFailures +
        (t.count (v.outcome text)).crashes = t.logged + t.insertFailures + t.crashes + 1 := by
  cases v with
  | stored => exact ⟨rfl, rfl, rfl, rfl, rfl, by simp only [count, Verdict.outcome]; omega⟩
  | refused error => exact ⟨rfl, rfl, rfl, rfl, rfl, by simp only [count, Verdict.outcome]; omega⟩
  | crashed => exact ⟨rfl, rfl, rfl, rfl, rfl, by simp only [count, Verdict.outcome]; omega⟩

lemma Agree.count_outcome (h : t.Agree t') (v v' : Verdict) (text : String) :
    (t.count (v.outcome text)).Agree (t'.count (v'.outcome text)) := by
  obtain ⟨hc, hd, hh, hi, hf, he⟩ := t.count_outcome v text
  obtain ⟨hc', hd', hh', hi', hf', he'⟩ := t'.count_outcome v' text
  obtain ⟨c, d, n, i, f, e⟩ := h
  constructor <;> omega

/-- Handling that made no entry ends alike for both. -/
lemma Agree.count (h : t.Agree t') (o : Outcome) : (t.count o).Agree (t'.count o) := by
  obtain ⟨c, d, n, i, f, e⟩ := h
  cases o with
  | failed error => cases error <;> constructor <;> simp only [Tallies.count] <;> omega
  | _ => constructor <;> simp only [Tallies.count] <;> omega

/-- Of what is observed, an entry is all that a sink can treat in another way. -/
lemma Agree.count_settle (h : t.Agree t') (o : Observation) (env : Environment σ)
    (env' : Environment τ) (log : σ) (log' : τ) :
    (t.count (env.settle o log).1).Agree (t'.count (env'.settle o log').1) := by
  cases o with
  | entry refs text =>
    rw [Environment.settle_entry, Environment.settle_entry]
    exact h.count_outcome _ _ text
  | _ => exact h.count _

end Tallies

/-! ### Workers -/

namespace Worker

/-- Two workers that track the same and have given the same entries to their sinks. -/
structure Agree (w : Worker (σ × List Attempt)) (w' : Worker (τ × List Attempt)) : Prop where
  pending : w'.pending = w.pending
  snapshots : w'.snapshots = w.snapshots
  contents : w'.log.2.map Attempt.content = w.log.2.map Attempt.content
  tallies : w.tallies.Agree w'.tallies

namespace Agree

variable {w : Worker (σ × List Attempt)} {w' : Worker (τ × List Attempt)}

lemma receive (h : w.Agree w') (t : Trigger) : (w.receive t).Agree (w'.receive t) where
  pending := by simp only [Worker.receive, h.pending]
  snapshots := h.snapshots
  contents := h.contents
  tallies := by
    obtain ⟨c, d, n, i, f, e⟩ := h.tallies
    simp only [Worker.receive, h.pending]
    split
    · constructor <;> simp only <;> omega
    · exact h.tallies

/-- Two errands for one trigger with the same repositories observe the same. -/
lemma dispatch (h : w.Agree w') {e : Errand σ} {e' : Errand τ} (ht : e'.trigger = e.trigger)
    (hr : e'.env.repositories = e.env.repositories) :
    (w.dispatch e.recorded).2.Agree (w'.dispatch e'.recorded).2 := by
  obtain ⟨env', t⟩ := e'
  subst ht
  have hobs : Snapshots.observe env'.repositories w'.snapshots e.trigger =
      Snapshots.observe e.env.repositories w.snapshots e.trigger := by
    rw [hr, h.snapshots]
  obtain ⟨-, -, hlog⟩ := w.dispatch_recorded e
  obtain ⟨-, -, hlog'⟩ := w'.dispatch_recorded ⟨env', e.trigger⟩
  refine ⟨h.pending, congrArg Prod.snd hobs, ?_, ?_⟩
  · have hcontent := congrArg (fun o => o.1.content?.toList) hobs
    rw [hlog, hlog', List.map_append, List.map_append, h.contents, ← Option.toList_map,
      ← Option.toList_map]
    simp only [Errand.attempt?, Environment.content_attempt?]
    rw [hcontent]
  · show (w.tallies.count (e.env.recorded.settle
        (Snapshots.observe e.env.repositories w.snapshots e.trigger).1 w.log).1).Agree
      (w'.tallies.count (env'.recorded.settle
        (Snapshots.observe env'.repositories w'.snapshots e.trigger).1 w'.log).1)
    rw [hobs]
    exact h.tallies.count_settle _ _ _ _ _

lemma dispatchAll (h : w.Agree w') {es : List (Errand σ)} {es' : List (Errand τ)}
    (ht : es'.map Errand.trigger = es.map Errand.trigger) {r : Repositories}
    (hes : ∀ e ∈ es, e.env.repositories = r) (hes' : ∀ e ∈ es', e.env.repositories = r) :
    (w.dispatchAll (es.map .recorded)).2.Agree (w'.dispatchAll (es'.map .recorded)).2 := by
  induction es generalizing w w' es' with
  | nil =>
    obtain rfl := List.map_eq_nil_iff.mp ht
    exact h
  | cons e es ih =>
    obtain ⟨e', rest, rfl, he', hrest⟩ := List.map_eq_cons_iff.mp ht
    obtain ⟨hr, hes⟩ := List.forall_mem_cons.mp hes
    obtain ⟨hr', hes'⟩ := List.forall_mem_cons.mp hes'
    exact ih (h.dispatch he' (hr'.trans hr.symm)) hrest hes hes'

lemma drainAs (h : w.Agree w') {es : List (Errand σ)} {es' : List (Errand τ)}
    (ht : es'.map Errand.trigger = es.map Errand.trigger) {r : Repositories}
    (hes : ∀ e ∈ es, e.env.repositories = r) (hes' : ∀ e ∈ es', e.env.repositories = r) :
    (w.drainAs (es.map .recorded)).2.Agree (w'.drainAs (es'.map .recorded)).2 := by
  unfold Worker.drainAs
  rw [h.pending]
  split
  · exact h
  · obtain ⟨c, d, n, i, f, e⟩ := h.tallies
    have hempty : Worker.Agree
        { w with
          pending := .empty, tallies := { w.tallies with drains := w.tallies.drains + 1 } }
        { w' with
          pending := .empty, tallies := { w'.tallies with drains := w'.tallies.drains + 1 } } :=
      ⟨rfl, h.snapshots, h.contents, c, congrArg (· + 1) d, n, i, f, e⟩
    exact hempty.dispatchAll ht hes hes'

end Agree

end Worker

/-! ### Watches -/

namespace Watch

/-- Two watches of workers that agree, reading the same rows. -/
structure Agree (w : Watch σ) (w' : Watch τ) : Prop where
  repositories : w'.repositories = w.repositories
  worker : w.worker.Agree w'.worker

namespace Agree

variable {w v : Watch σ} {w' v' : Watch τ} {sink : Sink σ} {sink' : Sink τ} {a : Act}

lemma start (r : Repositories) (s : Snapshots) (log : σ) (log' : τ) :
    Watch.Agree (.start r s log) (.start r s log') :=
  ⟨rfl, rfl, rfl, rfl, rfl, rfl, rfl, rfl, rfl, rfl⟩

/-- What happens to the one can happen to the other, and however it does, the two agree. -/
lemma step (h : w.Agree w') (step : Step sink w a v) :
    (∃ v', Step sink' w' a v') ∧ ∀ v', Step sink' w' a v' → v.Agree v' := by
  cases step with
  | change k id fetch =>
    refine ⟨⟨_, .change w' k id fetch⟩, ?_⟩
    rintro v' ⟨⟩
    exact ⟨by simp only [change, h.repositories], h.worker⟩
  | receive t =>
    refine ⟨⟨_, .receive w' t⟩, ?_⟩
    rintro v' ⟨⟩
    exact ⟨h.repositories, h.worker.receive t⟩
  | drain order es ho hp hes =>
    refine ⟨Step.exists_drain sink' w' (by rwa [h.worker.pending]), ?_⟩
    intro v' step'
    cases step' with
    | drain _ es' ho' _ hes' =>
      refine ⟨h.repositories, h.worker.drainAs (ho'.trans ho.symm)
        (fun e he => (hes e he).repositories) fun e he => ?_⟩
      rw [(hes' e he).repositories, h.repositories]

end Agree

namespace Course

/-- **The sink has no say.** Whatever two sinks do, with one entry or with the next: what happens to a
worker with the one can happen to a worker with the other, and however it does, the same triggers wait
afterwards, the snapshots are the same, the same entries were given to the sinks in the same order, and
the counters are the same but for what became of the entries. As the beginning of a course is a course,
this is so after every act. -/
theorem tracks_alike {r : Repositories} {s : Snapshots} {log : σ} {log' : τ} {sink : Sink σ} {sink' : Sink τ}
    {as : List Act} {w : Watch σ} (course : Course sink (.start r s log) as w) :
    (∃ w', Course sink' (.start r s log') as w') ∧
    ∀ w', Course sink' (.start r s log') as w' →
      w'.worker.pending = w.worker.pending ∧
      w'.worker.snapshots = w.worker.snapshots ∧
      w'.attempts.map Attempt.content = w.attempts.map Attempt.content ∧
      w.worker.tallies.Agree w'.worker.tallies := by
  have hstep : ∀ (w : Watch σ) (w' : Watch τ) a u, w.Agree w' → True → Step sink w a u →
      (∃ u', Step sink' w' a u') ∧ ∀ u', Step sink' w' a u' → u.Agree u' :=
    fun _ _ _ _ h _ step => h.step step
  obtain ⟨hex, hall⟩ :=
    follow (f := some) hstep course (fun _ _ => trivial) (.start r s log log')
  rw [List.filterMap_some] at hex hall
  refine ⟨hex, fun w' course' => ?_⟩
  obtain ⟨-, hpending, hsnapshots, hcontents, htallies⟩ := hall w' course'
  exact ⟨hpending, hsnapshots, hcontents, htallies⟩

/-- A task is created and gets a new title. One sink crashes over the first entry and refuses the next,
another one keeps them all. -/
theorem tracks_alike_of_two :
    let id : EntityId := ⟨1, by decide⟩
    let created : Trigger := ⟨.task, id, .created, ∅⟩
    let updated : Trigger := ⟨.task, id, .updated, ∅⟩
    let faulty : Sink Nat :=
      ⟨fun _ n => (if n = 0 then .crashed else .refused (.backend "full"), n + 1)⟩
    let steady : Sink Unit := ⟨fun _ log => (.stored, log)⟩
    let as : List Act := [.receive created, .drain [created],
      .change .task id (.found (Task.new id id id "b")), .receive updated, .drain [updated]]
    let r : Repositories := Environment.mirror.repositories
    ∃ (w : Watch Nat) (w' : Watch Unit),
      Course faulty (.start r .empty 0) as w ∧ Course steady (.start r .empty ()) as w' ∧
      w.attempts.map Attempt.verdict = [.crashed, .refused (.backend "full")] ∧
      w'.attempts.map Attempt.content =
        [(⟨id, some id, none⟩, "task.created"), (⟨id, some id, none⟩, "task.updated:title")] ∧
      w'.worker.snapshots.find? .task id = some (Task.new id id id "b") := by
  intro id created updated faulty steady as r
  let r' := r.set .task id (.found (Task.new id id id "b"))
  let w := ((((Watch.start r .empty 0).receive created).drainAs [⟨⟨r, faulty, .epoch⟩, created⟩]).change
    .task id (.found (Task.new id id id "b")) |>.receive updated).drainAs
      [⟨⟨r', faulty, .epoch⟩, updated⟩]
  have course : Course faulty (.start r .empty 0) as w := by
    refine .cons (.receive ..) (.cons (.drain_map ⟨r, faulty, .epoch⟩ rfl ?_) (.cons (.change ..)
      (.cons (.receive ..) (.cons (.drain_map ⟨r', faulty, .epoch⟩ rfl ?_) (.nil _)))))
    all_goals decide
  obtain ⟨⟨w', course'⟩, hall⟩ := @tracks_alike Nat Unit r .empty 0 () faulty steady as w course
  obtain ⟨-, hsnapshots, hcontents, -⟩ := hall w' course'
  refine ⟨w, w', course, course', rfl, hcontents.trans rfl, ?_⟩
  rw [hsnapshots]
  rfl

end Course

end Watch

end BoardAudit
