import BoardAudit.Proofs.Tracker.Balance
import BoardAudit.Proofs.Tracker.Visits

/-!
# Reports of drains

A drain tells what it did in a report, in the counters of the worker and by what the sink keeps after it. The
three are written apart from each other and tell the same (`Worker.drain_truthful`), whatever the repositories
do, if the sink keeps just the entries that it says it has stored.
-/

namespace BoardAudit

variable {σ : Type}

/-! ### What a sink keeps -/

/-- Whether a sink keeps an entry, behind those that it keeps already, exactly when it says so. -/
structure Sink.Keeps (sink : Sink σ) (kept : σ → List LogModel) : Prop where
  stored : ∀ m log, (sink.insert m log).1 = .stored → kept (sink.insert m log).2 = kept log ++ [m]
  not_stored : ∀ m log, (sink.insert m log).1 ≠ .stored → kept (sink.insert m log).2 = kept log

lemma MemoryLog.sink_keeps : MemoryLog.sink.Keeps fun log => log.entries.map LogEntry.log where
  stored m log _ := log.models_insert m
  not_stored _ _ h := absurd rfl h

/-- The text of the entry that was written. -/
def Outcome.text? : Outcome → Option String
  | .logged text => some text
  | _ => none

lemma Verdict.text?_outcome {v : Verdict} (h : v ≠ .stored) (text : String) :
    (v.outcome text).text? = none := by
  cases v with
  | stored => exact absurd rfl h
  | refused error => rfl
  | crashed => rfl

/-- The texts of the entries that were written for handled triggers. -/
def Dispatch.texts (ds : List Dispatch) : List String := ds.flatMap fun d => d.outcome.text?.toList

variable {kept : σ → List LogModel}

/-- Handling a trigger lets a sink keep the entry that it tells to be written, and nothing else. -/
lemma Environment.kept_handle {env : Environment σ} (h : env.sink.Keeps kept) (t : Trigger)
    (s : Snapshots) (log : σ) : ∃ new, kept (env.handle t s log).2.2 = kept log ++ new ∧
      new.map LogModel.entry = (env.handle t s log).1.text?.toList := by
  have hsettle (o : Observation) : ∃ new, kept (env.settle o log).2 = kept log ++ new ∧
      new.map LogModel.entry = (env.settle o log).1.text?.toList := by
    cases o with
    | entry refs text =>
      rw [settle_entry]
      simp only
      by_cases hv : (env.sink.insert ⟨refs, text, env.now⟩ log).1 = .stored
      · refine ⟨[⟨refs, text, env.now⟩], h.stored _ _ hv, ?_⟩
        rw [hv]
        rfl
      · refine ⟨[], (h.not_stored _ _ hv).trans (List.append_nil _).symm, ?_⟩
        rw [Verdict.text?_outcome hv]
        rfl
    | _ => exact ⟨[], (List.append_nil _).symm, rfl⟩
  exact hsettle _

/-! ### Counting -/

/-- Whether handling failed. -/
def Outcome.isFailure : Outcome → Bool
  | .failed _ | .crashed => true
  | .logged _ | .baseline | .unchanged | .ignored => false

/-- How often handling failed. -/
def Tallies.failures (t : Tallies) : ℕ := t.fetchFailures + t.insertFailures + t.crashes

section

variable (t : Tallies) (o : Outcome)

lemma DrainReport.count_eq (r : DrainReport) : r.count o =
    ⟨r.handled + 1, r.logged + o.text?.toList.length, r.failed + o.isFailure.toNat⟩ := by
  cases o <;> rfl

lemma Tallies.logged_count : (t.count o).logged = t.logged + o.text?.toList.length := by
  rcases o with _ | _ | _ | _ | (_ | _) | _ <;> rfl

lemma Tallies.failures_count : (t.count o).failures = t.failures + o.isFailure.toNat := by
  rcases o with _ | _ | _ | _ | (_ | _) | _
  all_goals simp only [failures, count, Outcome.isFailure, Bool.toNat_true, Bool.toNat_false]
  all_goals omega

lemma Tallies.drains_count : (t.count o).drains = t.drains := by
  rcases o with _ | _ | _ | _ | (_ | _) | _ <;> rfl

/-- An outcome is told by the report, or it is ignored or silent. -/
lemma Tallies.ignored_count : ∃ n, (t.count o).ignored = t.ignored + n ∧
    o.text?.toList.length + o.isFailure.toNat + n + o.isSilent.toNat = 1 := by
  rcases o with _ | _ | _ | _ | (_ | _) | _
  case ignored => exact ⟨1, rfl, rfl⟩
  all_goals exact ⟨0, rfl, rfl⟩

end

/-- Whether a report on handled triggers tells what was counted from one state of the counters to another. -/
structure DrainReport.Tells (ds : List Dispatch) (t t' : Tallies) : Prop where
  length : (of ds).handled = ds.length
  texts : (of ds).logged = (Dispatch.texts ds).length
  handled : t'.handled = t.handled + (of ds).handled
  logged : t'.logged = t.logged + (of ds).logged
  failed : t'.failures = t.failures + (of ds).failed
  ignored : ∃ n, t'.ignored = t.ignored + n ∧
    (of ds).handled = (of ds).logged + (of ds).failed + n + ds.countP (·.outcome.isSilent)
  drains : t'.drains = t.drains

namespace DrainReport.Tells

variable {ds : List Dispatch} {t t' : Tallies}

lemma nil (t : Tallies) : Tells [] t t where
  length := rfl
  texts := rfl
  handled := rfl
  logged := rfl
  failed := rfl
  ignored := ⟨0, rfl, rfl⟩
  drains := rfl

/-- One more outcome is counted in the report and by the counters. -/
lemma concat (h : Tells ds t t') (d : Dispatch) : Tells (ds ++ [d]) t (t'.count d.outcome) := by
  obtain ⟨n, hignored, hsum⟩ := h.ignored
  obtain ⟨k, hignored', hsum'⟩ := t'.ignored_count d.outcome
  have hof : of (ds ++ [d]) = (of ds).count d.outcome := List.foldl_concat ..
  rw [count_eq] at hof
  have htexts : (Dispatch.texts (ds ++ [d])).length =
      (Dispatch.texts ds).length + d.outcome.text?.toList.length := by
    rw [Dispatch.texts, List.flatMap_append, List.flatMap_singleton, List.length_append]
    rfl
  have hsilent : (ds ++ [d]).countP (·.outcome.isSilent) =
      ds.countP (·.outcome.isSilent) + d.outcome.isSilent.toNat := by
    rw [List.countP_append, List.countP_singleton]
    cases d.outcome.isSilent <;> rfl
  constructor
  · rw [hof, h.length, List.length_append]
    rfl
  · rw [hof, htexts, h.texts]
  · rw [hof, Tallies.handled_count, h.handled]
    rfl
  · rw [hof, Tallies.logged_count, h.logged, Nat.add_assoc]
  · rw [hof, Tallies.failures_count, h.failed, Nat.add_assoc]
  · refine ⟨n + k, by rw [hignored', hignored, Nat.add_assoc], ?_⟩
    rw [hof, hsilent]
    simp only
    omega
  · rw [Tallies.drains_count, h.drains]

lemma of_countAll (t : Tallies) (ds : List Dispatch) : Tells ds t (t.countAll ds) := by
  induction ds using List.reverseRecOn with
  | nil => exact nil t
  | append_singleton ds d ih =>
    have hcount : t.countAll (ds ++ [d]) = (t.countAll ds).count d.outcome := List.foldl_concat ..
    rw [hcount]
    exact ih.concat d

end DrainReport.Tells

/-! ### Drains -/

namespace Worker

variable {w : Worker σ} {es : List (Errand σ)}

/-- The sink keeps the entries that errands tell to be written, in their order, and nothing else. -/
lemma kept_dispatchAll (hk : ∀ e ∈ es, e.env.sink.Keeps kept) (w : Worker σ) :
    ∃ new, kept (w.dispatchAll es).2.log = kept w.log ++ new ∧
      new.map LogModel.entry = Dispatch.texts (w.dispatchAll es).1 := by
  induction es generalizing w with
  | nil => exact ⟨[], (List.append_nil _).symm, rfl⟩
  | cons e es ih =>
    obtain ⟨he, hk⟩ := List.forall_mem_cons.mp hk
    obtain ⟨first, hfirst, htext⟩ := Environment.kept_handle he e.trigger w.snapshots w.log
    obtain ⟨new, hnew, htexts⟩ := ih hk (w.dispatch e).2
    refine ⟨first ++ new, hnew.trans ?_, ?_⟩
    · show kept (e.env.handle e.trigger w.snapshots w.log).2.2 ++ new = _
      rw [hfirst, List.append_assoc]
    · rw [List.map_append, htext, htexts]
      rfl

/-- The keys under which a drain handles triggers. -/
lemma keys_drainAs (he : w.Awaits es) : ((w.drainAs es).1.map (·.trigger.key)).Nodup ∧
    ∀ key, key ∈ (w.drainAs es).1.map (·.trigger.key) ↔ w.pending.contains key = true := by
  have hkeys : (w.drainAs es).1.map (·.trigger.key) =
      ((w.drainAs es).1.map Dispatch.trigger).map Trigger.key := by
    rw [List.map_map]
    rfl
  rw [hkeys, trigger_drainAs he]
  have hperm := List.Perm.map Trigger.key he
  constructor
  · rw [hperm.nodup_iff, List.Nodup, List.pairwise_map]
    exact w.pending.pairwise_triggers
  · intro key
    rw [hperm.mem_iff, List.mem_map, Batch.contains, Option.isSome_iff_exists]
    constructor
    · rintro ⟨t, ht, rfl⟩
      exact ⟨t, Batch.mem_triggers.mp ht⟩
    · rintro ⟨t, ht⟩
      obtain rfl := Batch.key_of_find? ht
      exact ⟨t, Batch.mem_triggers.mpr ht, rfl⟩

/-- What was counted in a drain is what its report tells, beside the drain itself. -/
lemma tells_drainAs (w : Worker σ) (es : List (Errand σ)) : DrainReport.Tells (w.drainAs es).1
    { w.tallies with drains := w.tallies.drains + if w.pending.isEmpty then 0 else 1 }
    (w.drainAs es).2.tallies := by
  unfold drainAs
  split
  · exact .nil _
  · rw [tallies_dispatchAll]
    exact .of_countAll _ _

lemma kept_drainAs (hk : ∀ e ∈ es, e.env.sink.Keeps kept) (w : Worker σ) :
    ∃ new, kept (w.drainAs es).2.log = kept w.log ++ new ∧
      new.map LogModel.entry = Dispatch.texts (w.drainAs es).1 := by
  unfold drainAs
  split
  · exact ⟨[], (List.append_nil _).symm, rfl⟩
  · exact kept_dispatchAll hk _

/-- What a drain of a worker leaves and tells. -/
structure Truthful (kept : σ → List LogModel) (w : Worker σ) (d : List Dispatch × Worker σ) : Prop where
  pending : d.2.pending = .empty
  /-- Every key under which a trigger waited was handled once. -/
  keys : (d.1.map (·.trigger.key)).Nodup ∧
    ∀ key, key ∈ d.1.map (·.trigger.key) ↔ w.pending.contains key = true
  handled : (DrainReport.of d.1).handled = (d.1.map (·.trigger.key)).length ∧
    d.2.tallies.handled = w.tallies.handled + (DrainReport.of d.1).handled
  logged : d.2.tallies.logged = w.tallies.logged + (DrainReport.of d.1).logged
  /-- The entries that were added to the sink are those that were told to be written. -/
  kept : ∃ new, kept d.2.log = kept w.log ++ new ∧ new.length = (DrainReport.of d.1).logged ∧
    new.map LogModel.entry = Dispatch.texts d.1
  failed : d.2.tallies.fetchFailures + d.2.tallies.insertFailures + d.2.tallies.crashes =
    w.tallies.fetchFailures + w.tallies.insertFailures + w.tallies.crashes +
      (DrainReport.of d.1).failed
  /-- What is neither logged nor failed was ignored or ended silently. -/
  others : ∃ ignored, d.2.tallies.ignored = w.tallies.ignored + ignored ∧
    (DrainReport.of d.1).handled = (DrainReport.of d.1).logged + (DrainReport.of d.1).failed +
      ignored + d.1.countP (·.outcome.isSilent)
  drains : d.2.tallies.drains = w.tallies.drains + if w.pending.isEmpty then 0 else 1
  idle : w.pending.isEmpty = true → d = ([], w)

/-- **A drain tells the truth.** -/
theorem drain_truthful (he : w.Awaits es) (hk : ∀ e ∈ es, e.env.sink.Keeps kept) :
    w.Truthful kept (w.drainAs es) := by
  have htells := w.tells_drainAs es
  obtain ⟨new, hnew, htexts⟩ := kept_drainAs hk w
  have hlogged : new.length = (DrainReport.of (w.drainAs es).1).logged := by
    rw [htells.texts, ← htexts, List.length_map]
  constructor
  · exact w.pending_drainAs es
  · exact keys_drainAs he
  · exact ⟨by rw [htells.length, List.length_map], htells.handled⟩
  · exact htells.logged
  · exact ⟨new, hnew, hlogged, htexts⟩
  · exact htells.failed
  · exact htells.ignored
  · exact htells.drains
  · exact fun hidle => if_pos hidle

/-- A project that cannot be read, a status whose deletion makes the sink crash, and a task that is audited:
one entry is kept, and two triggers fail. -/
theorem drain_truthful_of_three :
    let a : EntityId := ⟨1, by decide⟩
    let sink : Sink (List LogModel) :=
      ⟨fun m log => if m.entry = "task.created" then (.stored, log ++ [m]) else (.crashed, log)⟩
    let env : Environment (List LogModel) :=
      ⟨Environment.mirror.repositories.set .project a .crashed, sink, .epoch⟩
    let w := (Worker.start ([] : List LogModel)).receiveAll
      [⟨.project, a, .updated, ∅⟩, ⟨.status, a, .deleted, ∅⟩, ⟨.task, a, .created, ∅⟩]
    let d := w.drain env
    (sink.Keeps fun log => log) ∧ DrainReport.of d.1 = ⟨3, 1, 2⟩ ∧
      d.2.tallies.handled = 3 ∧ d.2.tallies.logged = 1 ∧ d.2.tallies.drains = 1 ∧
      d.2.log.length = 1 := by
  intro a sink env w d
  have hkeeps : sink.Keeps fun log => log := by
    have hinsert (m : LogModel) (log : List LogModel) : sink.insert m log =
      if m.entry = "task.created" then (.stored, log ++ [m]) else (.crashed, log) := rfl
    constructor
    all_goals
      intro m log
      rw [hinsert]
      split <;> simp
  have henv : ∀ e ∈ w.pending.triggers.map (Errand.mk env), e.env.sink.Keeps fun log => log := by
    intro e he
    obtain ⟨t, -, rfl⟩ := List.mem_map.mp he
    exact hkeeps
  have htruth : w.Truthful (fun log => log) d := drain_truthful (w.awaits_triggers env) henv
  have hreport : DrainReport.of d.1 = ⟨3, 1, 2⟩ := rfl
  obtain ⟨new, hnew, hlength, -⟩ := htruth.kept
  refine ⟨hkeeps, hreport, ?_, ?_, ?_, ?_⟩
  · rw [htruth.handled.2, hreport]
    rfl
  · rw [htruth.logged, hreport]
    rfl
  · rw [htruth.drains]
    rfl
  · have hlog : d.2.log = new := hnew
    rw [hlog, hlength, hreport]

end Worker

end BoardAudit
