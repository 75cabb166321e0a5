import BoardAudit.Proofs.Handling.Orders
import BoardAudit.Proofs.Tracker.Watch

/-!
# Visits

A drain visits what waits in no order that could be relied on. Where rows are found under their ids and
the verdict on an entry hangs on the entry alone, every visit comes to what it would come to were it the
first (`Worker.dispatches_eq`), so that two drains of one batch come to the same (`Worker.drains_alike`):
the counters and the report are sums over the visits, and sums do not hang on an order.
-/

namespace BoardAudit

variable {σ : Type} {r : Repositories} {sink : Sink σ}

/-- Whether the verdict on an entry is the same whenever it is made and whatever was written before. -/
def Sink.Steady (sink : Sink σ) : Prop :=
  ∀ refs text now now' log log',
    (sink.insert ⟨refs, text, now'⟩ log').1 = (sink.insert ⟨refs, text, now⟩ log).1

/-! ### Sums over visits -/

lemma Tallies.count_comm (t : Tallies) (o o' : Outcome) :
    (t.count o).count o' = (t.count o').count o := by
  rcases o with _ | _ | _ | _ | (_ | _) | _ <;> rcases o' with _ | _ | _ | _ | (_ | _) | _ <;> rfl

lemma DrainReport.count_comm (r : DrainReport) (o o' : Outcome) :
    (r.count o).count o' = (r.count o').count o := by
  cases o <;> cases o' <;> rfl

/-- The report does not hang on the order of the visits. -/
lemma DrainReport.of_perm {ds ds' : List Dispatch} (h : ds'.Perm ds) : of ds' = of ds := by
  apply h.foldl_eq'
  intro d _ d' _ r
  exact r.count_comm d.outcome d'.outcome

/-- Counts the outcomes of handled triggers one after the other. -/
def Tallies.countAll (t : Tallies) (ds : List Dispatch) : Tallies :=
  ds.foldl (fun t d => t.count d.outcome) t

lemma Tallies.countAll_perm (t : Tallies) {ds ds' : List Dispatch} (h : ds'.Perm ds) :
    t.countAll ds' = t.countAll ds := by
  apply h.foldl_eq'
  intro d _ d' _ t
  exact t.count_comm d.outcome d'.outcome

lemma Worker.tallies_dispatchAll (w : Worker σ) (es : List (Errand σ)) :
    (w.dispatchAll es).2.tallies = w.tallies.countAll (w.dispatchAll es).1 := by
  induction es generalizing w with
  | nil => rfl
  | cons e es ih => exact ih (w.dispatch e).2

/-! ### Visits one by one -/

/-- Of errands for different entities each one writes what it would write were it the first, and the
verdict on it is the same. -/
lemma Errand.untimed_attempts (hr : r.Faithful) (hs : sink.Steady) {es : List (Errand σ)}
    (hes : ∀ e ∈ es, e.Uses r sink)
    (hkeys : (es.map Errand.trigger).Pairwise fun t u => t.key ≠ u.key) (p : Snapshots × σ)
    (now : Instant) (log : σ) :
    (attempts es p).map Attempt.untimed = (es.map Errand.trigger).filterMap fun t =>
      ((⟨r, sink, now⟩ : Environment σ).attempt? (Snapshots.observe r p.1 t).1 log).map
        Attempt.untimed := by
  have hread : ∀ e ∈ es, e.env.repositories = r := fun e he => (hes e he).repositories
  have hattempt : ∀ e ∈ es, ∀ o log', (e.env.attempt? o log').map Attempt.untimed =
      ((⟨r, sink, now⟩ : Environment σ).attempt? o log).map Attempt.untimed := by
    intro e he o log'
    refine (Environment.settle_congr rfl ?_).2
    intro refs text _
    rw [(hes e he).sink]
    exact hs refs text _ _ _ _
  exact map_attempts (g := fun o =>
    ((⟨r, sink, now⟩ : Environment σ).attempt? o log).map Attempt.untimed) hr hread hattempt hkeys

namespace Worker

/-- With a steady sink what a trigger comes to hangs on what is observed alone. -/
lemma outcome_congr {env env' : Environment σ} (hs : env.sink.Steady) (hsink : env'.sink = env.sink)
    {s s' : Snapshots} {t : Trigger}
    (hobs : (Snapshots.observe env'.repositories s' t).1 = (Snapshots.observe env.repositories s t).1)
    (log log' : σ) : (env'.handle t s' log').1 = (env.handle t s log).1 := by
  have hverdict : ∀ refs text, (Snapshots.observe env.repositories s t).1 = .entry refs text →
      (env'.sink.insert ⟨refs, text, env'.now⟩ log').1 =
        (env.sink.insert ⟨refs, text, env.now⟩ log).1 := by
    intro refs text _
    rw [hsink]
    exact hs refs text _ _ _ _
  exact (Environment.settle_congr hobs hverdict).1

/-- Of errands for different entities each one comes to what it would come to were it the first. -/
theorem dispatches_eq (hr : r.Faithful) (hs : sink.Steady) (w : Worker σ) {es : List (Errand σ)}
    (hes : ∀ e ∈ es, e.Uses r sink)
    (hkeys : (es.map Errand.trigger).Pairwise fun t u => t.key ≠ u.key) (now : Instant) (log : σ) :
    (w.dispatchAll es).1 = (es.map Errand.trigger).map fun t =>
      ⟨t, ((⟨r, sink, now⟩ : Environment σ).handle t w.snapshots log).1⟩ := by
  induction es generalizing w with
  | nil => rfl
  | cons e es ih =>
    obtain ⟨⟨he, hsink⟩, hes⟩ := List.forall_mem_cons.mp hes
    obtain ⟨hne, hkeys⟩ := List.pairwise_cons.mp hkeys
    have hdispatches : (w.dispatchAll (e :: es)).1 =
        (w.dispatch e).1 :: ((w.dispatch e).2.dispatchAll es).1 := rfl
    have hfirst : (w.dispatch e).1 =
        ⟨e.trigger, ((⟨r, sink, now⟩ : Environment σ).handle e.trigger w.snapshots log).1⟩ := by
      apply congrArg (Dispatch.mk e.trigger)
      apply outcome_congr
      · exact hs
      · exact hsink
      · rw [he]
    have hrest : ∀ t ∈ es.map Errand.trigger,
        (Dispatch.mk t ((⟨r, sink, now⟩ : Environment σ).handle t (w.dispatch e).2.snapshots log).1) =
          ⟨t, ((⟨r, sink, now⟩ : Environment σ).handle t w.snapshots log).1⟩ := by
      intro t ht
      apply congrArg (Dispatch.mk t)
      apply outcome_congr
      · exact hs
      · rfl
      · exact (Errand.observe_run_of_ne (p := (w.snapshots, w.log)) (he ▸ hr) (hne t ht)).1
    rw [hdispatches, ih (w.dispatch e).2 hes hkeys, List.map_cons, List.map_cons, hfirst,
      List.map_congr_left hrest]

/-! ### Whole drains -/

/-- Two ways through a batch that come to the same: the triggers handled have the same outcomes, the
entries given to the sink are the same but for their order and their times, with the same verdicts, and
what is left is the same. -/
structure DrainsAlike (d d' : List Dispatch × Worker (σ × List Attempt)) : Prop where
  dispatches : d'.1.Perm d.1
  report : DrainReport.of d'.1 = DrainReport.of d.1
  attempts : (d'.2.log.2.map Attempt.untimed).Perm (d.2.log.2.map Attempt.untimed)
  pending : d'.2.pending = d.2.pending
  snapshots : d'.2.snapshots = d.2.snapshots
  tallies : d'.2.tallies = d.2.tallies

/-- Errands for different entities come to the same in every order. -/
lemma dispatchAll_perm (hr : r.Faithful) (hs : sink.Steady) (w : Worker (σ × List Attempt))
    {es es' : List (Errand σ)} (hes : ∀ e ∈ es, e.Uses r sink) (hes' : ∀ e ∈ es', e.Uses r sink)
    (hkeys : (es.map Errand.trigger).Pairwise fun t u => t.key ≠ u.key)
    (hp : (es'.map Errand.trigger).Perm (es.map Errand.trigger)) :
    DrainsAlike (w.dispatchAll (es.map .recorded)) (w.dispatchAll (es'.map .recorded)) := by
  have hkeys' := hkeys.perm hp.symm Ne.symm
  have hdispatches : (w.dispatchAll (es'.map .recorded)).1.Perm
      (w.dispatchAll (es.map .recorded)).1 := by
    rw [(w.dispatchAll_recorded es).1, (w.dispatchAll_recorded es').1,
      dispatches_eq hr hs w.unrecorded hes hkeys .epoch w.log.1,
      dispatches_eq hr hs w.unrecorded hes' hkeys' .epoch w.log.1]
    exact hp.map _
  obtain ⟨hsnapshots, hattempts⟩ := w.dispatchAll_recorded_eq es
  obtain ⟨hsnapshots', hattempts'⟩ := w.dispatchAll_recorded_eq es'
  constructor
  · exact hdispatches
  · exact DrainReport.of_perm hdispatches
  · rw [hattempts, hattempts', List.map_append, List.map_append,
      Errand.untimed_attempts hr hs hes hkeys _ .epoch w.log.1,
      Errand.untimed_attempts hr hs hes' hkeys' _ .epoch w.log.1]
    exact (hp.filterMap _).append_left _
  · rw [pending_dispatchAll, pending_dispatchAll]
  · rw [hsnapshots, hsnapshots']
    exact Errand.doAll_perm hr (fun e he => (hes e he).repositories)
      (fun e he => (hes' e he).repositories) hkeys hp rfl
  · rw [tallies_dispatchAll, tallies_dispatchAll]
    exact w.tallies.countAll_perm hdispatches

/-- **The order of the visits is immaterial.** Where the repositories stay as they are and find rows under
their ids, and the sink gives every entry a verdict of its own, two drains of one batch come to the same
in whatever orders they visit what waits. In particular two triggers with different keys can change
places, whatever comes of them. -/
theorem drains_alike (hr : r.Faithful) (hs : sink.Steady) (w : Worker (σ × List Attempt)) :
    (∀ es es' : List (Errand σ), (∀ e ∈ es, e.Uses r sink) → (∀ e ∈ es', e.Uses r sink) →
      (es.map Errand.trigger).Perm w.pending.triggers →
      (es'.map Errand.trigger).Perm w.pending.triggers →
      DrainsAlike (w.drainAs (es.map .recorded)) (w.drainAs (es'.map .recorded))) ∧
    ∀ e e' : Errand σ, e.Uses r sink → e'.Uses r sink → e.trigger.key ≠ e'.trigger.key →
      DrainsAlike (w.dispatchAll [e.recorded, e'.recorded])
        (w.dispatchAll [e'.recorded, e.recorded]) := by
  constructor
  · intro es es' hes hes' hp hp'
    have hkeys := w.pending.pairwise_triggers.perm hp.symm Ne.symm
    unfold drainAs
    split
    · constructor <;> rfl
    · exact dispatchAll_perm hr hs _ hes hes' hkeys (hp'.trans hp.symm)
  · intro e e' he he' hk
    have hmap (a b : Errand σ) : [a.recorded, b.recorded] = [a, b].map Errand.recorded := rfl
    rw [hmap, hmap]
    refine dispatchAll_perm hr hs w ?_ ?_ ?_ (.swap ..)
    · simp [he, he']
    · simp [he, he']
    · simpa using hk

/-- A project that cannot be read, a status over whose deletion the sink crashes, and a task that is
audited: whichever is visited first, one entry is kept and two triggers fail. -/
theorem drains_alike_of_three :
    let id : EntityId := ⟨1, by decide⟩
    let r := Environment.mirror.repositories.set .project id .crashed
    let sink : Sink Nat :=
      ⟨fun m n => (if m.entry = "task.created" then .stored else .crashed, n + 1)⟩
    let ts : List Trigger :=
      [⟨.project, id, .updated, ∅⟩, ⟨.status, id, .deleted, ∅⟩, ⟨.task, id, .created, ∅⟩]
    let w := (Worker.start (0, ([] : List Attempt))).receiveAll ts
    let first := w.drainAs ((ts.map (.mk ⟨r, sink, .epoch⟩)).map .recorded)
    let second := w.drainAs ((ts.reverse.map (.mk ⟨r, sink, .epoch⟩)).map .recorded)
    r.Faithful ∧ sink.Steady ∧ ts.Perm w.pending.triggers ∧
      DrainReport.of first.1 = ⟨3, 1, 2⟩ ∧ DrainReport.of second.1 = ⟨3, 1, 2⟩ ∧
      second.2.tallies = ⟨0, 1, 3, 1, 0, 0, 0, 2⟩ ∧
      second.2.snapshots.find? .task id = some (Task.new id id id "") := by
  intro id r sink ts w first second
  have hr : r.Faithful := Environment.faithful_mirror.set fun row h => by cases h
  have hs : sink.Steady := fun refs text now now' log log' => rfl
  have hp : ts.Perm w.pending.triggers := by decide
  have hp' : ts.reverse.Perm w.pending.triggers := (List.reverse_perm ts).trans hp
  have hmap : ∀ ts : List Trigger,
      (ts.map (Errand.mk ⟨r, sink, .epoch⟩)).map Errand.trigger = ts := by
    intro ts
    rw [List.map_map]
    exact List.map_id ts
  have h := (drains_alike hr hs w).1 (ts.map (.mk ⟨r, sink, .epoch⟩))
    (ts.reverse.map (.mk ⟨r, sink, .epoch⟩)) (fun _ => Errand.uses_of_mem)
    (fun _ => Errand.uses_of_mem) (by rwa [hmap]) (by rwa [hmap])
  refine ⟨hr, hs, hp, rfl, h.report.trans rfl, h.tallies.trans rfl, ?_⟩
  rw [h.snapshots]
  rfl

end Worker

end BoardAudit
