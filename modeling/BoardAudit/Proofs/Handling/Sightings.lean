import BoardAudit.Tracker.Worker
import Mathlib.Data.List.Induction
import Mathlib.Tactic.Lemma

/-!
# Sightings

An errand sights an entity when the action of its trigger calls for the current row and the row is found.
Snapshots are what the sightings and the deletions make them: `Errand.find?_doAll_iff`. There is a
snapshot of an entity exactly when it was sighted and not deleted since, and then it is the row of the
last sighting, whatever the other fetches gave and whatever the sink did.
-/

namespace BoardAudit

/-- Where every entity has a row, which refers to nothing but itself, and every insert crashes. -/
def Environment.mirror : Environment Unit where
  repositories
    | .project, id => .found (Project.new id "")
    | .status, id => .found (Status.new id id "" 0)
    | .task, id => .found (Task.new id id id "")
  sink := ⟨fun _ log => (.crashed, log)⟩
  now := .epoch

lemma Repositories.faithful_crashed : Repositories.Faithful fun _ _ => .crashed := by
  rintro k id row h
  cases h

lemma Environment.faithful_mirror : Environment.mirror.repositories.Faithful := by
  rintro k id row h
  cases k <;> cases h <;> rfl

/-- The row that was found. -/
def Fetch.row? {α : Type} : Fetch α → Option α
  | .found row => some row
  | _ => none

lemma Fetch.row?_eq_some_iff {α : Type} {fetch : Fetch α} {row : α} :
    fetch.row? = some row ↔ fetch = .found row := by
  cases fetch <;> simp [row?]

variable {σ : Type}

/-! ### What observing does to the snapshots -/

lemma Trigger.reads_iff {t : Trigger} :
    t.reads = true ↔ t.action = .created ∨ t.action = .updated ∨
      t.action = .statusChanged ∧ t.kind = .task := by
  obtain ⟨kind, id, action, metadata⟩ := t
  cases kind <;> cases action <;> simp [reads, Kind.hasStatusChanges]

lemma Trigger.action_ne_deleted {t : Trigger} (h : t.reads = true) : t.action ≠ .deleted := by
  intro hd
  simp [reads, hd] at h

namespace Snapshots

variable {r : Repositories} {s : Snapshots} {t : Trigger}

lemma observe_deleted (h : t.action = .deleted) : (observe r s t).2 = s.erase t.kind t.id := by
  rw [observe, if_pos h]

lemma observe_found {row : t.kind.Row} (h : t.reads = true) (hr : r t.kind t.id = .found row) :
    (observe r s t).2 = s.store t.kind row := by
  rw [observe, if_neg (Trigger.action_ne_deleted h), if_pos h, hr]

lemma observe_not_found (hd : t.action ≠ .deleted)
    (hr : t.reads = true → ∀ row, r t.kind t.id ≠ .found row) : (observe r s t).2 = s := by
  rw [observe, if_neg hd]
  split
  · next h =>
    cases hf : r t.kind t.id with
    | found row => exact absurd hf (hr h row)
    | failed error => rfl
    | crashed => rfl
  · rfl

end Snapshots

/-! ### Errands -/

namespace Errand

/-- Whether an errand sights an entity: its action calls for the current row, which is found. -/
def Sights (e : Errand σ) (k : Kind) (id : EntityId) (row : k.Row) : Prop :=
  e.trigger.key = ⟨k, id⟩ ∧
    (e.trigger.action = .created ∨ e.trigger.action = .updated ∨
      e.trigger.action = .statusChanged ∧ k = .task) ∧
    e.env.repositories k id = .found row

/-- Whether an errand tells the deletion of an entity. -/
def Deletes (e : Errand σ) (k : Kind) (id : EntityId) : Prop :=
  e.trigger.key = ⟨k, id⟩ ∧ e.trigger.action = .deleted

/-- Does one errand, from some snapshots and a state of the sink. -/
def run (e : Errand σ) (p : Snapshots × σ) : Snapshots × σ := (e.env.handle e.trigger p.1 p.2).2

/-- Does errands one after the other. -/
def doAll (es : List (Errand σ)) (p : Snapshots × σ) : Snapshots × σ :=
  es.foldl (fun p e => e.run p) p

variable {e : Errand σ} {es : List (Errand σ)} {p : Snapshots × σ} {k : Kind} {id : EntityId}

/-- The sink has no say in what becomes of the snapshots. -/
lemma run_fst : (e.run p).1 = (Snapshots.observe e.env.repositories p.1 e.trigger).2 := rfl

@[simp] lemma doAll_append (es fs : List (Errand σ)) :
    doAll (es ++ fs) p = doAll fs (doAll es p) := List.foldl_append

@[simp] lemma doAll_singleton : doAll [e] p = e.run p := rfl

lemma Sights.find?_run {row : k.Row} (h : e.Sights k id row) (hf : e.env.repositories.Faithful) :
    (e.run p).1.find? k id = some row := by
  obtain ⟨hk, ha, hr⟩ := h
  cases hk
  have hrow := hf _ _ _ hr
  rw [run_fst, Snapshots.observe_found (Trigger.reads_iff.mpr ha) hr, Tables.find?_store, if_pos hrow]

lemma Deletes.find?_run (h : e.Deletes k id) : (e.run p).1.find? k id = none := by
  obtain ⟨hk, hd⟩ := h
  cases hk
  rw [run_fst, Snapshots.observe_deleted hd, Tables.find?_erase, if_pos rfl]

/-- An errand that neither sights nor deletes an entity leaves its snapshot as it is. -/
lemma find?_run_of_not (hf : e.env.repositories.Faithful) (hd : ¬ e.Deletes k id)
    (hs : ∀ row, ¬ e.Sights k id row) : (e.run p).1.find? k id = p.1.find? k id := by
  rw [run_fst]
  by_cases hdel : e.trigger.action = .deleted
  · rw [Snapshots.observe_deleted hdel]
    by_cases hkind : e.trigger.kind = k
    · subst hkind
      have hid : e.trigger.id ≠ id := by
        rintro rfl
        exact hd ⟨rfl, hdel⟩
      rw [Tables.find?_erase, if_neg hid]
    · exact Tables.find?_erase_of_ne _ hkind _ _
  · by_cases hfound : e.trigger.reads = true ∧
        ∃ row, e.env.repositories e.trigger.kind e.trigger.id = .found row
    · obtain ⟨hreads, row, hr⟩ := hfound
      rw [Snapshots.observe_found hreads hr]
      by_cases hkind : e.trigger.kind = k
      · subst hkind
        have hid : Row.id _ row ≠ id := by
          rw [hf _ _ _ hr]
          rintro rfl
          exact hs row ⟨rfl, Trigger.reads_iff.mp hreads, hr⟩
        rw [Tables.find?_store, if_neg hid]
      · exact Tables.find?_store_of_ne _ hkind _ _
    · rw [Snapshots.observe_not_found hdel fun hreads row hr => hfound ⟨hreads, row, hr⟩]

lemma find?_run_of_ne (hf : e.env.repositories.Faithful) (hk : e.trigger.key ≠ ⟨k, id⟩) :
    (e.run p).1.find? k id = p.1.find? k id :=
  find?_run_of_not hf (fun hd => hk hd.1) fun _ hs => hk hs.1

/-- Errands that neither sight nor delete an entity leave its snapshot as it is. -/
lemma find?_doAll_of_not (hf : ∀ e ∈ es, e.env.repositories.Faithful)
    (h : ∀ e ∈ es, ¬ e.Deletes k id ∧ ∀ row, ¬ e.Sights k id row) :
    (doAll es p).1.find? k id = p.1.find? k id := by
  induction es generalizing p with
  | nil => rfl
  | cons e es ih =>
    obtain ⟨hfe, hf⟩ := List.forall_mem_cons.mp hf
    obtain ⟨⟨hd, hs⟩, h⟩ := List.forall_mem_cons.mp h
    have hdo : doAll (e :: es) p = doAll es (e.run p) := rfl
    rw [hdo, ih hf h, find?_run_of_not hfe hd hs]

end Errand

/-! ### The last sighting -/

/-- The last place of a list with one property, and another from there on, is its end or an earlier
one. -/
lemma exists_split_concat {α : Type} {p q : α → Prop} {l : List α} {a : α} :
    (∃ before x after, l ++ [a] = before ++ x :: after ∧ p x ∧ ∀ y ∈ after, q y) ↔
      p a ∨ (∃ before x after, l = before ++ x :: after ∧ p x ∧ ∀ y ∈ after, q y) ∧ q a := by
  constructor
  · rintro ⟨before, x, after, he, hp, hq⟩
    rcases List.eq_nil_or_concat after with rfl | ⟨after, y, rfl⟩
    · obtain ⟨-, hx⟩ := List.append_inj' he rfl
      obtain rfl : a = x := by simpa using hx
      exact .inl hp
    · have he' : l ++ [a] = (before ++ x :: after) ++ [y] := by simpa using he
      obtain ⟨rfl, hy⟩ := List.append_inj' he' rfl
      obtain rfl : a = y := by simpa using hy
      exact .inr ⟨⟨before, x, after, rfl, hp, fun z hz => hq z (by simp [hz])⟩, hq a (by simp)⟩
  · rintro (hp | ⟨⟨before, x, after, rfl, hp, hq⟩, ha⟩)
    · exact ⟨l, a, [], rfl, hp, by simp⟩
    · refine ⟨before, x, after ++ [a], by simp, hp, fun y hy => ?_⟩
      rcases List.mem_append.mp hy with hy | hy
      · exact hq y hy
      · obtain rfl := List.mem_singleton.mp hy
        exact ha

namespace Errand

variable {e : Errand σ} {p : Snapshots × σ} {k : Kind} {id : EntityId}

lemma Sights.row_eq {row row' : k.Row} (h : e.Sights k id row) (h' : e.Sights k id row') :
    row = row' := by
  have hr := h.2.2.symm.trans h'.2.2
  cases hr
  rfl

lemma Sights.not_deletes {row : k.Row} (h : e.Sights k id row) : ¬ e.Deletes k id := by
  intro hd
  have ha := h.2.1
  simp [hd.2] at ha

/-- After one more errand the snapshot of an entity is the row that it sights, or else what it was,
unless the errand deletes it. -/
lemma find?_run_iff (hf : e.env.repositories.Faithful) (row : k.Row) :
    (e.run p).1.find? k id = some row ↔ e.Sights k id row ∨
      p.1.find? k id = some row ∧ ¬ e.Deletes k id ∧ ∀ row', ¬ e.Sights k id row' := by
  by_cases hs : ∃ row', e.Sights k id row'
  · obtain ⟨row', hs⟩ := hs
    rw [hs.find?_run hf]
    constructor
    · intro he
      exact .inl (Option.some.inj he ▸ hs)
    · rintro (h | ⟨-, -, h⟩)
      · rw [hs.row_eq h]
      · exact absurd hs (h row')
  · have hs : ∀ row', ¬ e.Sights k id row' := not_exists.mp hs
    by_cases hd : e.Deletes k id
    · simp [hd.find?_run, hd, hs]
    · simp [find?_run_of_not hf hd hs, hd, hs]

/-- After one more errand there is a snapshot if the errand sights the entity, or there was one and the
errand does not delete it. -/
lemma isSome_run_iff (hf : e.env.repositories.Faithful) :
    ((e.run p).1.find? k id).isSome = true ↔ (∃ row, e.Sights k id row) ∨
      (p.1.find? k id).isSome = true ∧ ¬ e.Deletes k id := by
  by_cases hs : ∃ row, e.Sights k id row
  · obtain ⟨row, hs⟩ := hs
    simp [hs.find?_run hf, Exists.intro row hs]
  · have hs' : ∀ row, ¬ e.Sights k id row := not_exists.mp hs
    by_cases hd : e.Deletes k id
    · simp [hd.find?_run, hd, hs']
    · simp [find?_run_of_not hf hd hs', hd, hs']

/-- **The snapshots are the history.** From no snapshots, whatever the repositories and the sinks do on
the way: there is a snapshot of an entity exactly when it was sighted and not deleted since; the snapshot
is the row of the last sighting; and a deletion leaves none. -/
theorem find?_doAll_iff (es : List (Errand σ)) (log : σ)
    (hf : ∀ e ∈ es, e.env.repositories.Faithful) (k : Kind) (id : EntityId) :
    (((doAll es (.empty, log)).1.find? k id).isSome = true ↔
      ∃ before e after, es = before ++ e :: after ∧ (∃ row, e.Sights k id row) ∧
        ∀ e' ∈ after, ¬ e'.Deletes k id) ∧
    (∀ row, (doAll es (.empty, log)).1.find? k id = some row ↔
      ∃ before e after, es = before ++ e :: after ∧ e.Sights k id row ∧
        ∀ e' ∈ after, ¬ e'.Deletes k id ∧ ∀ row', ¬ e'.Sights k id row') ∧
    (∀ before e, es = before ++ [e] → e.Deletes k id →
      (doAll es (.empty, log)).1.find? k id = none) := by
  refine ⟨?_, fun row => ?_, ?_⟩
  · induction es using List.reverseRecOn with
    | nil => simp [doAll]
    | append_singleton es e ih =>
      have ih := ih fun e' he' => hf e' (by simp [he'])
      rw [exists_split_concat, doAll_append, doAll_singleton, isSome_run_iff (hf e (by simp)), ih]
  · induction es using List.reverseRecOn with
    | nil => simp [doAll]
    | append_singleton es e ih =>
      have ih := ih fun e' he' => hf e' (by simp [he'])
      rw [exists_split_concat, doAll_append, doAll_singleton, find?_run_iff (hf e (by simp)), ih]
  · rintro before e rfl hd
    rw [doAll_append, doAll_singleton, hd.find?_run]

/-- A task is created, its row cannot be read when it is updated, and the status of the same id is
deleted: the snapshot of the task is the row of its creation, and there is none of the status. -/
theorem find?_doAll_of_three :
    let id : EntityId := ⟨1, by decide⟩
    let created : Errand Unit := ⟨.mirror, ⟨.task, id, .created, ∅⟩⟩
    let updated : Errand Unit :=
      ⟨{ Environment.mirror with repositories := fun _ _ => .crashed }, ⟨.task, id, .updated, ∅⟩⟩
    let deleted : Errand Unit := ⟨.mirror, ⟨.status, id, .deleted, ∅⟩⟩
    (∀ e ∈ [created, updated, deleted], e.env.repositories.Faithful) ∧
    (doAll [created, updated, deleted] (.empty, ())).1.find? .task id =
      some (Task.new id id id "") ∧
    (doAll [created, updated, deleted] (.empty, ())).1.find? .status id = none := by
  intro id created updated deleted
  have hf : ∀ e ∈ [created, updated, deleted], e.env.repositories.Faithful := by
    simp [created, updated, deleted, Environment.faithful_mirror, Repositories.faithful_crashed]
  obtain ⟨-, hlast, -⟩ := find?_doAll_iff _ () hf .task id
  obtain ⟨-, -, hgone⟩ := find?_doAll_iff _ () hf .status id
  refine ⟨hf, (hlast _).mpr ⟨[], created, [updated, deleted], rfl, ?_, ?_⟩, ?_⟩
  · exact ⟨rfl, .inl rfl, rfl⟩
  · simp [Deletes, Sights, Trigger.key, updated, deleted]
  · exact hgone [created, updated] deleted rfl ⟨rfl, rfl⟩

end Errand

/-- What the errands of a worker make of its snapshots and the state of its sink. -/
theorem Worker.dispatchAll_eq_doAll (w : Worker σ) (es : List (Errand σ)) :
    ((w.dispatchAll es).2.snapshots, (w.dispatchAll es).2.log) =
      Errand.doAll es (w.snapshots, w.log) := by
  induction es generalizing w with
  | nil => rfl
  | cons e es ih => exact ih (w.dispatch e).2

end BoardAudit
