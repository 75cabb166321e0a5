import BoardAudit.Proofs.Handling.Sightings

/-!
# Attempts

Every entry that is given to a sink is an attempt, whatever the sink does with it. A recorded sink does
what the sink does and keeps a record of the attempts: nothing else is changed by it
(`Errand.doAll_recorded`), and what is on record is what the sink is given (`Errand.given`). An entry tells
the entity that it is about, and that is the entity of the trigger that is handled
(`Errand.key_of_attempt`).
-/

namespace BoardAudit

/-- An entry that was given to a sink, and what the sink did with it. -/
structure Attempt where
  log : LogModel
  verdict : Verdict
  deriving DecidableEq

/-- The entity that an entry is about: the task that it refers to, or else the status, or else the
project. -/
def Refs.key (refs : Refs) : Key :=
  match refs.taskId, refs.statusId with
  | some id, _ => ⟨.task, id⟩
  | none, some id => ⟨.status, id⟩
  | none, none => ⟨.project, refs.projectId⟩

namespace Attempt

def key (a : Attempt) : Key := a.log.toRefs.key

/-- All of an attempt but its time. -/
def untimed (a : Attempt) : Refs × String × Verdict := (a.log.toRefs, a.log.entry, a.verdict)

/-- What an attempt is to write, whenever it is made and whatever becomes of it. -/
def content (a : Attempt) : Refs × String := (a.log.toRefs, a.log.entry)

/-- The attempts to write about an entity. -/
def about (key : Key) (as : List Attempt) : List Attempt := as.filter fun a => a.key = key

@[simp] lemma about_append (key : Key) (as bs : List Attempt) :
    about key (as ++ bs) = about key as ++ about key bs := List.filter_append ..

end Attempt

/-- What an observation calls for writing. -/
def Observation.content? : Observation → Option (Refs × String)
  | .entry refs text => some (refs, text)
  | _ => none

/-- What an entry with a text comes to. -/
def Verdict.outcome (text : String) : Verdict → Outcome
  | .stored => .logged text
  | .refused error => .failed (.insert error)
  | .crashed => .crashed

variable {σ τ : Type}

/-- Does what a sink does, and keeps a record of the attempts. -/
def Sink.recorded (sink : Sink σ) : Sink (σ × List Attempt) where
  insert m p :=
    let (verdict, log) := sink.insert m p.1
    (verdict, log, p.2 ++ [⟨m, verdict⟩])

/-! ### What is recorded -/

namespace Environment

/-- The environment with a record of what its sink is given. -/
def recorded (env : Environment σ) : Environment (σ × List Attempt) :=
  ⟨env.repositories, env.sink.recorded, env.now⟩

/-- The attempt that an observation calls for. -/
def attempt? (env : Environment σ) (o : Observation) (log : σ) : Option Attempt :=
  match o with
  | .entry refs text => some ⟨⟨refs, text, env.now⟩, (env.sink.insert ⟨refs, text, env.now⟩ log).1⟩
  | _ => none

variable {env : Environment σ} {env' : Environment τ}

@[simp] lemma content_attempt? (o : Observation) (log : σ) :
    (env.attempt? o log).map Attempt.content = o.content? := by
  cases o <;> rfl

lemma settle_entry (refs : Refs) (text : String) (log : σ) :
    env.settle (.entry refs text) log =
      ((env.sink.insert ⟨refs, text, env.now⟩ log).1.outcome text,
        (env.sink.insert ⟨refs, text, env.now⟩ log).2) := by
  simp only [settle]
  generalize env.sink.insert ⟨refs, text, env.now⟩ log = verdict
  obtain ⟨_ | _ | _, log'⟩ := verdict <;> rfl

lemma settle_recorded (o : Observation) (log : σ) (record : List Attempt) :
    env.recorded.settle o (log, record) =
      ((env.settle o log).1, (env.settle o log).2, record ++ (env.attempt? o log).toList) := by
  cases o with
  | entry refs text =>
    rw [settle_entry, settle_entry]
    rfl
  | _ => simp [settle, attempt?]

/-- Where an entry gets the same verdict it has the same outcome, and is the same attempt but for its
time. -/
lemma settle_congr {o o' : Observation} {log : σ} {log' : τ} (he : o' = o)
    (hv : ∀ refs text, o = .entry refs text →
      (env'.sink.insert ⟨refs, text, env'.now⟩ log').1 =
        (env.sink.insert ⟨refs, text, env.now⟩ log).1) :
    (env'.settle o' log').1 = (env.settle o log).1 ∧
      (env'.attempt? o' log').map Attempt.untimed = (env.attempt? o log).map Attempt.untimed := by
  subst he
  cases o' with
  | entry refs text =>
    have hv := hv refs text rfl
    refine ⟨?_, ?_⟩
    · rw [settle_entry, settle_entry, hv]
    · simp [attempt?, Attempt.untimed, hv]
  | _ => exact ⟨rfl, rfl⟩

end Environment

/-! ### What an entry is about -/

lemma Row.key_refs (k : Kind) (row : k.Row) : (Row.refs k row).key = ⟨k, Row.id k row⟩ := by
  cases k <;> rfl

lemma Row.key_statusChangeRefs (k : Kind) (row : k.Row) :
    (Row.statusChangeRefs k row).key = ⟨k, Row.id k row⟩ := by
  cases k <;> rfl

lemma Refs.key_ofDeleted (k : Kind) (id : EntityId) (notes : Metadata) :
    (Refs.ofDeleted k id notes).key = ⟨k, id⟩ := by
  cases k <;> rfl

namespace Snapshots

variable {r r' : Repositories} {s s' : Snapshots} {t : Trigger}

/-- What is observed, and the snapshot that is left, hang on the row and the snapshot of the entity
alone. -/
lemma observe_congr (hr : r' t.kind t.id = r t.kind t.id)
    (hs : s'.find? t.kind t.id = s.find? t.kind t.id) :
    (observe r' s' t).1 = (observe r s t).1 ∧
      (observe r' s' t).2.find? t.kind t.id = (observe r s t).2.find? t.kind t.id := by
  unfold observe
  rw [hr]
  split
  · exact ⟨by simp [observeDeletion, hs], by simp [Tables.find?_erase]⟩
  · split
    · cases r t.kind t.id with
      | found row => exact ⟨by simp [observeRow, hs], by simp [Tables.find?_store, hs]⟩
      | failed error => exact ⟨rfl, hs⟩
      | crashed => exact ⟨rfl, hs⟩
    · exact ⟨rfl, hs⟩

/-- What an entry about the entity of a trigger can refer to. -/
inductive Refers (r : Repositories) (s : Snapshots) (t : Trigger) : Refs → Prop
  /-- The current row is what the entry is about. -/
  | current (row : t.kind.Row) (hd : t.action ≠ .deleted) (hc : t.action ≠ .statusChanged)
      (hr : r t.kind t.id = .found row) : Refers r s t (Row.refs t.kind row)
  /-- The entry is about the status that the current row has come to. -/
  | moved (row : t.kind.Row) (hc : t.action = .statusChanged) (hr : r t.kind t.id = .found row) :
      Refers r s t (Row.statusChangeRefs t.kind row)
  /-- The last observed row stands for the deleted one. -/
  | gone (row : t.kind.Row) (hd : t.action = .deleted) (hs : s.find? t.kind t.id = some row) :
      Refers r s t (Row.refs t.kind row)
  /-- The deleted entity was never observed. -/
  | unseen (hd : t.action = .deleted) (hs : s.find? t.kind t.id = none) :
      Refers r s t (Refs.ofDeleted t.kind t.id t.metadata)

/-- Every entry is about the action of its trigger, and refers to one of four things. -/
lemma refers_of_observe {refs : Refs} {text : String} (h : (observe r s t).1 = .entry refs text) :
    Refers r s t refs ∧ ∃ fields, text = entryText t.kind t.action fields := by
  unfold observe at h
  split at h
  · next hd =>
    simp only [observeDeletion, Observation.entry.injEq] at h
    obtain ⟨rfl, rfl⟩ := h
    refine ⟨?_, [], by rw [hd]⟩
    cases hs : s.find? t.kind t.id with
    | some row => exact .gone row hd hs
    | none => exact .unseen hd hs
  · next hd =>
    split at h
    · cases hr : r t.kind t.id with
      | found row =>
        simp only [hr, observeRow] at h
        split at h
        · next ha =>
          split at h
          · cases h
          · split at h <;> cases h
            exact ⟨.current row hd (by simp [ha]) hr, _, by rw [ha]⟩
        · next ha =>
          cases h
          exact ⟨.moved row ha hr, [], by rw [ha]⟩
        · next hc =>
          cases h
          exact ⟨.current row hd hc hr, [], rfl⟩
      | failed error => simp [hr] at h
      | crashed => simp [hr] at h
    · cases h

lemma key_of_observe (hr : ∀ row, r t.kind t.id = .found row → Row.id t.kind row = t.id) {refs : Refs}
    {text : String} (h : (observe r s t).1 = .entry refs text) : refs.key = t.key := by
  obtain ⟨hrefers, -⟩ := refers_of_observe h
  cases hrefers with
  | current row _ _ hrow => rw [Row.key_refs, hr row hrow, Trigger.key]
  | moved row _ hrow => rw [Row.key_statusChangeRefs, hr row hrow, Trigger.key]
  | gone row _ hrow => rw [Row.key_refs, Table.id_of_find? hrow, Trigger.key]
  | unseen _ _ => rw [Refs.key_ofDeleted, Trigger.key]

end Snapshots

/-! ### Errands -/

namespace Errand

/-- The errand with a record of what its sink is given. -/
def recorded (e : Errand σ) : Errand (σ × List Attempt) := ⟨e.env.recorded, e.trigger⟩

/-- The attempt that an errand makes. -/
def attempt? (e : Errand σ) (p : Snapshots × σ) : Option Attempt :=
  e.env.attempt? (Snapshots.observe e.env.repositories p.1 e.trigger).1 p.2

/-- The attempts of errands that are done one after the other. -/
def attempts : List (Errand σ) → Snapshots × σ → List Attempt
  | [], _ => []
  | e :: es, p => (e.attempt? p).toList ++ attempts es (e.run p)

variable {e : Errand σ} {p : Snapshots × σ}

/-- An attempt is made where an entry is called for. -/
lemma observe_of_attempt {a : Attempt} (h : e.attempt? p = some a) :
    (Snapshots.observe e.env.repositories p.1 e.trigger).1 = .entry a.log.toRefs a.log.entry := by
  unfold attempt? Environment.attempt? at h
  split at h
  · next refs text ho =>
    cases h
    exact ho
  · cases h

lemma key_of_attempt (hf : e.env.repositories.Faithful) {a : Attempt} (h : e.attempt? p = some a) :
    a.key = e.trigger.key :=
  Snapshots.key_of_observe (hf _ _) (observe_of_attempt h)

lemma about_attempt? (hf : e.env.repositories.Faithful) :
    Attempt.about e.trigger.key (e.attempt? p).toList = (e.attempt? p).toList := by
  refine List.filter_eq_self.mpr fun a ha => decide_eq_true ?_
  exact key_of_attempt hf (Option.mem_toList.mp ha)

lemma about_attempt?_of_ne (hf : e.env.repositories.Faithful) {key : Key} (hk : e.trigger.key ≠ key) :
    Attempt.about key (e.attempt? p).toList = [] := by
  refine List.filter_eq_nil_iff.mpr fun a ha => ?_
  rw [key_of_attempt hf (Option.mem_toList.mp ha)]
  simpa using hk

lemma run_recorded (e : Errand σ) (p : Snapshots × σ) (record : List Attempt) :
    e.recorded.run (p.1, p.2, record) =
      ((e.run p).1, (e.run p).2, record ++ (e.attempt? p).toList) := by
  let o := Snapshots.observe e.env.repositories p.1 e.trigger
  show (o.2, (e.env.recorded.settle o.1 (p.2, record)).2) = _
  rw [Environment.settle_recorded]
  rfl

/-- A record changes nothing, and holds the attempts. -/
theorem doAll_recorded (es : List (Errand σ)) (p : Snapshots × σ) (record : List Attempt) :
    doAll (es.map recorded) (p.1, p.2, record) =
      ((doAll es p).1, (doAll es p).2, record ++ attempts es p) := by
  induction es generalizing p record with
  | nil => simp [doAll, attempts]
  | cons e es ih =>
    have hc : doAll (e :: es) p = doAll es (e.run p) := rfl
    have hr : doAll ((e :: es).map recorded) (p.1, p.2, record) =
        doAll (es.map recorded) (e.recorded.run (p.1, p.2, record)) := rfl
    rw [hr, run_recorded, ih, hc, attempts, List.append_assoc]

/-- What the sinks are given while errands are done one after the other: the record that is kept of it
where there was none. -/
def given (es : List (Errand σ)) (p : Snapshots × σ) : List Attempt :=
  (doAll (es.map recorded) (p.1, p.2, [])).2.2

/-- The sinks are given the attempts. -/
theorem given_eq (es : List (Errand σ)) (p : Snapshots × σ) : given es p = attempts es p := by
  rw [given, doAll_recorded, List.nil_append]

lemma given_singleton (e : Errand σ) (p : Snapshots × σ) : given [e] p = (e.attempt? p).toList := by
  rw [given_eq, attempts, attempts, List.append_nil]

lemma mem_given_singleton {a : Attempt} : a ∈ given [e] p ↔ e.attempt? p = some a := by
  rw [given_singleton, Option.mem_toList]

end Errand

end BoardAudit
