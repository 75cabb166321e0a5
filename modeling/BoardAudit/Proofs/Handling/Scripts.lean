import BoardAudit.Proofs.Handling.Attempts

/-!
# Handling step by step

How a trigger is handled is told by what it comes to. A script tells it step by step, with the snapshots as
they are at every call of the repository and the sink, and comes to the same (`Trigger.run_script`). So
handling is atomic (`Environment.handle_atomic`): it leaves all as it was if it does not get a row, it gives an
entry to the sink only after the snapshots have come to what they will be, and it touches no other entity.
-/

namespace BoardAudit

variable {σ : Type}

/-! ### Scripts -/

/-- The steps of handling something about an entity of a kind. -/
inductive Script (k : Kind) where
  /-- Reads the current row. Without one the steps end. -/
  | fetch (next : k.Row → Script k)
  /-- Looks at the snapshot. -/
  | look (next : Option k.Row → Script k)
  /-- Makes a row a snapshot. -/
  | store (row : k.Row) (next : Script k)
  /-- Takes the snapshot away. -/
  | erase (next : Option k.Row → Script k)
  /-- Gives an entry to the sink. -/
  | insert (refs : Refs) (text : String)
  | done (outcome : Outcome)

/-- A call of the repository or the sink, with the snapshots as they are then. -/
inductive Moment where
  | fetch (s : Snapshots)
  | insert (m : LogModel) (s : Snapshots)

/-- The entry that is given to the sink. -/
def Moment.log? : Moment → Option LogModel
  | .fetch _ => none
  | .insert m _ => some m

/-- The steps of handling a trigger. -/
def Trigger.script (t : Trigger) : Script t.kind :=
  match t.action with
  | .created =>
    .fetch fun current =>
    .store current <|
    .insert (Row.refs t.kind current) (entryText t.kind .created [])
  | .updated =>
    .fetch fun current =>
    .look fun
      | none => .store current (.done .baseline)
      | some previous =>
        .store current <|
        match Row.changes t.kind previous current with
        | [] => .done .unchanged
        | fields => .insert (Row.refs t.kind current) (entryText t.kind .updated fields)
  | .deleted =>
    .erase fun
      | some row => .insert (Row.refs t.kind row) (entryText t.kind .deleted [])
      | none => .insert (Refs.ofDeleted t.kind t.id t.metadata) (entryText t.kind .deleted [])
  | .statusChanged =>
    if t.kind.hasStatusChanges then
      .fetch fun current =>
      .store current <|
      .insert (Row.statusChangeRefs t.kind current) (entryText t.kind .statusChanged [])
    else .done .ignored

/-- The calls that steps make, and what the steps come to. -/
def Script.run {k : Kind} (env : Environment σ) (id : EntityId) :
    Script k → Snapshots → σ → List Moment × Outcome × Snapshots × σ
  | .fetch next, s, log =>
    match env.repositories k id with
    | .found row =>
      let (moments, result) := (next row).run env id s log
      (.fetch s :: moments, result)
    | .failed error => ([.fetch s], .failed (.fetch error), s, log)
    | .crashed => ([.fetch s], .crashed, s, log)
  | .look next, s, log => (next (s.find? k id)).run env id s log
  | .store row next, s, log => next.run env id (s.store k row) log
  | .erase next, s, log => (next (s.find? k id)).run env id (s.erase k id) log
  | .insert refs text, s, log =>
    let m : LogModel := ⟨refs, text, env.now⟩
    let (verdict, log) := env.sink.insert m log
    ([.insert m s], verdict.outcome text, s, log)
  | .done outcome, s, log => ([], outcome, s, log)

/-- The calls of handling a trigger. -/
def Environment.moments (env : Environment σ) (t : Trigger) (s : Snapshots) (log : σ) : List Moment :=
  (t.script.run env t.id s log).1

/-! ### What the steps come to -/

namespace Trigger

variable {t : Trigger}

/-- The first step of handling that reads a row is to read it. The steps behind it do what observing the row
calls for. -/
lemma exists_fetch (h : t.reads = true) : ∃ next, t.script = .fetch next ∧
    ∀ {σ : Type} (env : Environment σ) row s log, ((next row).run env t.id s log).2 =
      let settled := env.settle (Snapshots.observeRow s t row) log
      (settled.1, s.store t.kind row, settled.2) := by
  obtain ⟨kind, id, action, metadata⟩ := t
  cases action with
  | created =>
    refine ⟨_, rfl, fun {_} env row s log => ?_⟩
    simp [Script.run, Snapshots.observeRow, Environment.settle_entry]
  | updated =>
    refine ⟨_, rfl, fun {_} env row s log => ?_⟩
    cases hs : s.find? kind id with
    | none => simp [Script.run, hs, Snapshots.observeRow, Environment.settle]
    | some previous =>
      cases hc : Row.changes kind previous row with
      | nil => simp [Script.run, hs, hc, Snapshots.observeRow, Environment.settle]
      | cons field fields => simp [Script.run, hs, hc, Snapshots.observeRow, Environment.settle_entry]
  | deleted => cases h
  | statusChanged =>
    refine ⟨_, if_pos h, fun {_} env row s log => ?_⟩
    simp [Script.run, Snapshots.observeRow, Environment.settle_entry]

/-- Handling that neither reads a row nor tells a deletion ignores the trigger. -/
lemma script_of_not_reads (h : t.reads = false) (hd : t.action ≠ .deleted) :
    t.script = .done .ignored := by
  obtain ⟨kind, id, action, metadata⟩ := t
  cases action with
  | created | updated => cases h
  | deleted => exact absurd rfl hd
  | statusChanged => exact if_neg (Bool.eq_false_iff.mp h)

/-- The steps of handling a trigger come to what handling it comes to. -/
theorem run_script (t : Trigger) (env : Environment σ) (s : Snapshots) (log : σ) :
    (t.script.run env t.id s log).2 = env.handle t s log := by
  rw [Environment.handle, Snapshots.observe]
  by_cases hd : t.action = .deleted
  · rw [if_pos hd, script, hd]
    cases hs : s.find? t.kind t.id with
    | none => simp [Script.run, hs, Snapshots.observeDeletion, Environment.settle_entry]
    | some row => simp [Script.run, hs, Snapshots.observeDeletion, Environment.settle_entry]
  · rw [if_neg hd]
    by_cases hreads : t.reads = true
    · obtain ⟨next, hnext, hrun⟩ := exists_fetch hreads
      rw [if_pos hreads, hnext, Script.run]
      cases env.repositories t.kind t.id with
      | found row => exact hrun env row s log
      | failed error => rfl
      | crashed => rfl
    · rw [if_neg hreads, script_of_not_reads (Bool.eq_false_iff.mpr hreads) hd]
      rfl

/-! Handling that does not get a row makes no other call, and changes nothing. -/

section

variable (env : Environment σ) {s : Snapshots} {log : σ}

lemma run_failed (h : t.reads = true) {error : RepositoryError}
    (hr : env.repositories t.kind t.id = .failed error) :
    t.script.run env t.id s log = ([.fetch s], .failed (.fetch error), s, log) := by
  obtain ⟨next, hnext, -⟩ := exists_fetch h
  rw [hnext, Script.run, hr]

lemma run_crashed (h : t.reads = true) (hr : env.repositories t.kind t.id = .crashed) :
    t.script.run env t.id s log = ([.fetch s], .crashed, s, log) := by
  obtain ⟨next, hnext, -⟩ := exists_fetch h
  rw [hnext, Script.run, hr]

lemma run_of_not_reads (h : t.reads = false) (hd : t.action ≠ .deleted) :
    t.script.run env t.id s log = ([], .ignored, s, log) := by
  rw [script_of_not_reads h hd, Script.run]

end

end Trigger

namespace Script

variable {k : Kind} (env : Environment σ) (id : EntityId)

/-- An entry is given to the sink when the snapshots are what they will be in the end. -/
lemma snapshots_of_insert (p : Script k) (s : Snapshots) (log : σ) {m : LogModel} {s' : Snapshots}
    (h : .insert m s' ∈ (p.run env id s log).1) : s' = (p.run env id s log).2.2.1 := by
  induction p generalizing s log with
  | fetch next ih =>
    rw [run] at h ⊢
    cases hr : env.repositories k id with
    | found row =>
      simp only [hr, List.mem_cons, reduceCtorEq, false_or] at h ⊢
      exact ih row s log h
    | failed error => simp [hr] at h
    | crashed => simp [hr] at h
  | look next ih => exact ih _ s log h
  | store row next ih => exact ih _ log h
  | erase next ih => exact ih _ _ log h
  | insert refs text =>
    simp only [run, List.mem_singleton, Moment.insert.injEq] at h
    exact h.2
  | done outcome => cases h

/-- With a sink that keeps a record, steps do the same, and what is recorded are the entries that are given
to the sink, at most one. -/
lemma run_recorded (p : Script k) (s : Snapshots) (log : σ) (record : List Attempt) :
    ∃ a? : Option Attempt, (p.run env id s log).1.filterMap Moment.log? = a?.toList.map Attempt.log ∧
      p.run env.recorded id s (log, record) =
        let (moments, outcome, s', log') := p.run env id s log
        (moments, outcome, s', log', record ++ a?.toList) := by
  induction p generalizing s log with
  | fetch next ih =>
    rw [run, run]
    have hr : env.recorded.repositories = env.repositories := rfl
    rw [hr]
    cases env.repositories k id with
    | found row =>
      obtain ⟨a?, hlog, hrun⟩ := ih row s log
      exact ⟨a?, hlog, by simp only [hrun]⟩
    | failed error => exact ⟨none, rfl, by simp⟩
    | crashed => exact ⟨none, rfl, by simp⟩
  | look next ih => exact ih _ s log
  | store row next ih => exact ih _ log
  | erase next ih => exact ih _ _ log
  | insert refs text =>
    exact ⟨some ⟨⟨refs, text, env.now⟩, (env.sink.insert ⟨refs, text, env.now⟩ log).1⟩, rfl, rfl⟩
  | done outcome => exact ⟨none, rfl, by simp [run]⟩

end Script

/-! ### Atomicity -/

namespace Environment

variable {env : Environment σ} {t : Trigger} {s : Snapshots} {log : σ}

/-- The entries that are given to the sink, at most one, are what a record of the sink holds. -/
lemma exists_attempt : ∃ a? : Option Attempt,
    (env.moments t s log).filterMap Moment.log? = a?.toList.map Attempt.log ∧
      (env.recorded.handle t s (log, [])).2.2.2 = a?.toList := by
  obtain ⟨a?, hlog, hrun⟩ := t.script.run_recorded env t.id s log []
  refine ⟨a?, hlog, ?_⟩
  rw [← Trigger.run_script, hrun]
  rfl

lemma of_run {moments : List Moment} {result : Outcome × Snapshots × σ}
    (h : t.script.run env t.id s log = (moments, result)) :
    env.moments t s log = moments ∧ env.handle t s log = result :=
  ⟨congrArg Prod.fst h, (t.run_script env s log).symm.trans (congrArg Prod.snd h)⟩

/-- Unless a deletion is told, an entry is given to the sink only where a row is found. -/
lemma exists_row {m : LogModel} {s' : Snapshots} (hd : t.action ≠ .deleted)
    (h : .insert m s' ∈ env.moments t s log) :
    t.reads = true ∧ ∃ row, env.repositories t.kind t.id = .found row := by
  by_cases hreads : t.reads = true
  · refine ⟨hreads, ?_⟩
    cases hr : env.repositories t.kind t.id with
    | found row => exact ⟨row, rfl⟩
    | failed error =>
      rw [(of_run (t.run_failed env hreads hr)).1] at h
      simp at h
    | crashed =>
      rw [(of_run (t.run_crashed env hreads hr)).1] at h
      simp at h
  · rw [(of_run (t.run_of_not_reads env (Bool.eq_false_iff.mpr hreads) hd)).1] at h
    cases h

/-- Handling a trigger as a transaction on the snapshots, with the calls that it makes on the way. -/
structure Atomic (env : Environment σ) (t : Trigger) (s : Snapshots) (log : σ) : Prop where
  /-- The calls are those of steps that come to what handling comes to. -/
  handled : (t.script.run env t.id s log).2 = env.handle t s log
  recorded : (env.moments t s log).filterMap Moment.log? =
    (env.recorded.handle t s (log, [])).2.2.2.map Attempt.log
  /-- A row that cannot be read leaves all as it was. -/
  fetch_failed : t.reads = true → ∀ error, env.repositories t.kind t.id = .failed error →
    env.moments t s log = [.fetch s] ∧ env.handle t s log = (.failed (.fetch error), s, log)
  fetch_crashed : t.reads = true → env.repositories t.kind t.id = .crashed →
    env.moments t s log = [.fetch s] ∧ env.handle t s log = (.crashed, s, log)
  /-- So does an action that does not apply to the kind. -/
  ignored : t.action = .statusChanged → t.kind.hasStatusChanges = false →
    env.moments t s log = [] ∧ env.handle t s log = (.ignored, s, log)
  insert_once : ((env.moments t s log).filterMap Moment.log?).length ≤ 1
  /-- An entry is given to the sink when the snapshots are those that are left, whatever the sink does: the
  entity has none any more, or its new one is kept. -/
  insert_late : ∀ m s', .insert m s' ∈ env.moments t s log → s' = (env.handle t s log).2.1 ∧
    if t.action = .deleted then s' = s.erase t.kind t.id
    else ∃ row, env.repositories t.kind t.id = .found row ∧ s' = s.store t.kind row
  /-- Nothing happens to other entities, of the same kind or another one. -/
  confined : env.repositories.Faithful → ∀ k id, t.key ≠ ⟨k, id⟩ →
    (env.handle t s log).2.1.find? k id = s.find? k id

/-- Handling a trigger is all or nothing for the snapshots, and touches no more than one of them. -/
theorem handle_atomic (env : Environment σ) (t : Trigger) (s : Snapshots) (log : σ) :
    env.Atomic t s log where
  handled := t.run_script env s log
  recorded := by
    obtain ⟨a?, hlog, hrecord⟩ := exists_attempt
    rw [hlog, hrecord]
  fetch_failed hreads error hr := of_run (t.run_failed env hreads hr)
  fetch_crashed hreads hr := of_run (t.run_crashed env hreads hr)
  ignored ha hk := of_run (t.run_of_not_reads env (by simp [Trigger.reads, ha, hk]) (by simp [ha]))
  insert_once := by
    obtain ⟨a?, hlog, -⟩ := exists_attempt
    rw [hlog, List.length_map]
    exact Option.length_toList_le
  insert_late m s' hm := by
    have hs' : s' = (env.handle t s log).2.1 := by
      rw [← t.run_script env s log]
      exact t.script.snapshots_of_insert env t.id s log hm
    refine ⟨hs', ?_⟩
    by_cases hd : t.action = .deleted
    · rw [if_pos hd, hs']
      exact Snapshots.observe_deleted hd
    · obtain ⟨hreads, row, hr⟩ := exists_row hd hm
      rw [if_neg hd, hs']
      exact ⟨row, hr, Snapshots.observe_found hreads hr⟩
  confined hf k id hk := Errand.find?_run_of_ne (e := ⟨env, t⟩) (p := (s, log)) hf hk

/-- A task is created while the sink crashes: its row was kept when the sink was called, and still is. -/
theorem handle_atomic_of_created :
    let id : EntityId := ⟨1, by decide⟩
    let t : Trigger := ⟨.task, id, .created, ∅⟩
    let kept := Tables.empty.store .task (Task.new id id id "")
    Environment.mirror.repositories.Faithful ∧
      Environment.mirror.handle t .empty () = (.crashed, kept, ()) ∧
      (∀ m s, .insert m s ∈ Environment.mirror.moments t .empty () → s = kept) ∧
      ∀ k i, t.key ≠ ⟨k, i⟩ → kept.find? k i = none := by
  intro id t kept
  have hatomic := handle_atomic .mirror t .empty ()
  have hhandle : Environment.mirror.handle t .empty () = (.crashed, kept, ()) := rfl
  refine ⟨faithful_mirror, hhandle, fun m s hm => (hatomic.insert_late m s hm).1, fun k i hk => ?_⟩
  have hother := hatomic.confined faithful_mirror k i hk
  rw [hhandle] at hother
  rw [hother, Tables.find?_empty]

end Environment

end BoardAudit
