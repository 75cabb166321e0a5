import BoardAudit.Proofs.Handling.Attempts

/-!
# Trails

The trail of an entity over a time in which its triggers only tell of updates: from each row that was
seen to the next one entry with the names of the fields that changed, and none where no field did. What
differs between the first row and the last changed somewhere between two rows that were seen one after
the other, so the trail names it (`Errand.trail_of_updates`).
-/

namespace BoardAudit

/-! ### Fields -/

namespace Field

variable {α β : Type} {f : Field α}

/-- Whether two rows differ in a field when they differ in some value. -/
def IsComparison (f : Field α) : Prop :=
  ∃ (β : Type) (value : α → β), ∀ a b, f.differs a b = true ↔ value a ≠ value b

lemma isComparison_of [DecidableEq β] (name : String) (value : α → β) :
    (Field.of name value).IsComparison := by
  refine ⟨β, value, fun a b => ?_⟩
  exact decide_eq_true_iff

/-- What differs between the first and the last of some rows differs between two neighbours. -/
lemma IsComparison.exists_neighbours (hf : f.IsComparison) {a c : α} {rows : List α}
    (hl : (a :: rows).getLast? = some c) (h : f.differs a c = true) :
    ∃ x y, (x, y) ∈ (a :: rows).zip rows ∧ f.differs x y = true := by
  obtain ⟨β, value, hf⟩ := hf
  induction rows generalizing a with
  | nil =>
    obtain rfl : a = c := by simpa using hl
    exact absurd rfl ((hf a a).mp h)
  | cons b rows ih =>
    rw [List.zip_cons_cons]
    by_cases hab : f.differs a b = true
    · exact ⟨a, b, List.mem_cons_self, hab⟩
    · have he : value a = value b := by
        by_contra hne
        exact hab ((hf a b).mpr hne)
      have hbc : f.differs b c = true := by
        rw [hf, ← he, ← hf]
        exact h
      obtain ⟨x, y, hxy, hd⟩ := ih (by rwa [List.getLast?_cons_cons] at hl) hbc
      exact ⟨x, y, List.mem_cons_of_mem _ hxy, hd⟩

end Field

namespace Row

lemma isComparison_of_tracked {k : Kind} {f : Field k.Row} (hf : f ∈ tracked k) : f.IsComparison := by
  have hproject : ∀ f ∈ Project.tracked, f.IsComparison := by
    simp [Project.tracked, Field.isComparison_of]
  have hstatus : ∀ f ∈ Status.tracked, f.IsComparison := by
    simp [Status.tracked, Field.isComparison_of]
  have htask : ∀ f ∈ Task.tracked, f.IsComparison := by
    simp [Task.tracked, Field.isComparison_of]
  cases k with
  | project => exact hproject f hf
  | status => exact hstatus f hf
  | task => exact htask f hf

/-- The text of the entry about an update from one row to another, if a tracked field changed. -/
def updateText? (k : Kind) (previous current : k.Row) : Option String :=
  match changes k previous current with
  | [] => none
  | fields => some (entryText k .updated fields)

/-- The texts of the entries from each row to the next. -/
def trail (k : Kind) (first : k.Row) (rows : List k.Row) : List String :=
  ((first :: rows).zip rows).filterMap fun pair => updateText? k pair.1 pair.2

lemma trail_cons (k : Kind) (first row : k.Row) (rows : List k.Row) :
    trail k first (row :: rows) = (updateText? k first row).toList ++ trail k row rows := by
  unfold trail
  rw [List.zip_cons_cons]
  simp only [List.filterMap_cons]
  cases updateText? k first row <;> rfl

lemma updateText?_of_differs {k : Kind} {a b : k.Row} {f : Field k.Row} (hf : f ∈ tracked k)
    (h : f.differs a b = true) :
    f.name ∈ changes k a b ∧ updateText? k a b = some (entryText k .updated (changes k a b)) := by
  have hname : f.name ∈ changes k a b :=
    List.mem_map.mpr ⟨f, List.mem_filter.mpr ⟨hf, h⟩, rfl⟩
  refine ⟨hname, ?_⟩
  unfold updateText?
  split
  · next hnil =>
    rw [hnil] at hname
    cases hname
  · rfl

end Row

/-! ### One errand -/

namespace Attempt

/-- The texts of the entries about an entity that were stored. -/
def texts (key : Key) (as : List Attempt) : List String :=
  ((about key as).filter fun a => a.verdict = .stored).map fun a => a.log.entry

lemma texts_append (key : Key) (as bs : List Attempt) :
    texts key (as ++ bs) = texts key as ++ texts key bs := by
  simp [texts]

lemma texts_stored {m : LogModel} {key : Key} (hk : m.toRefs.key = key) :
    texts key [⟨m, .stored⟩] = [m.entry] := by
  have ha : (Attempt.mk m .stored).key = key := hk
  simp [texts, about, ha]

end Attempt

lemma Snapshots.observe_updated {r : Repositories} {s : Snapshots} {t : Trigger}
    (ha : t.action = .updated) :
    observe r s t = match r t.kind t.id with
      | .found row => (s.observeRow t row, s.store t.kind row)
      | .failed error => (.failed error, s)
      | .crashed => (.crashed, s) := by
  have hreads : t.reads = true := Trigger.reads_iff.mpr (.inr (.inl ha))
  have hd := Trigger.action_ne_deleted hreads
  cases hr : r t.kind t.id <;> simp only [observe, if_neg hd, if_pos hreads, hr]

namespace Errand

variable {σ : Type} {e : Errand σ} {p : Snapshots × σ} {k : Kind} {id : EntityId}

/-- The row that an errand sights of an entity. -/
def sighted? (e : Errand σ) (k : Kind) (id : EntityId) : Option k.Row :=
  if e.trigger.key = ⟨k, id⟩ ∧ e.trigger.reads = true then (e.env.repositories k id).row? else none

lemma sighted?_eq_some_iff {row : k.Row} : e.sighted? k id = some row ↔ e.Sights k id row := by
  unfold sighted?
  constructor
  · intro h
    split at h
    · next hk =>
      obtain ⟨hk, hreads⟩ := hk
      cases hk
      exact ⟨rfl, Trigger.reads_iff.mp hreads, Fetch.row?_eq_some_iff.mp h⟩
    · cases h
  · rintro ⟨hk, ha, hr⟩
    cases hk
    rw [if_pos ⟨rfl, Trigger.reads_iff.mpr ha⟩, Fetch.row?_eq_some_iff]
    exact hr

/-- One errand of a time of updates: the entity has an entry if a changed row is sighted, and the row
that is sighted becomes the snapshot. -/
lemma texts_attempt? (hf : e.env.repositories.Faithful)
    (hs : ∀ m log, (e.env.sink.insert m log).1 = .stored)
    (hu : e.trigger.key = ⟨k, id⟩ → e.trigger.action = .updated) {previous : k.Row}
    (hp : p.1.find? k id = some previous) :
    Attempt.texts ⟨k, id⟩ (e.attempt? p).toList =
        ((e.sighted? k id).bind (Row.updateText? k previous)).toList ∧
      (e.run p).1.find? k id = some ((e.sighted? k id).getD previous) := by
  refine ⟨?_, ?_⟩
  · by_cases hk : e.trigger.key = ⟨k, id⟩
    · have ha := hu hk
      cases hk
      have hreads : e.trigger.reads = true := Trigger.reads_iff.mpr (.inr (.inl ha))
      have hp : p.1.find? e.trigger.kind e.trigger.id = some previous := hp
      rw [attempt?, Snapshots.observe_updated ha, sighted?, if_pos ⟨rfl, hreads⟩]
      cases hr : e.env.repositories e.trigger.kind e.trigger.id with
      | found row =>
        have hkey : (Row.refs e.trigger.kind row).key = e.trigger.key := by
          rw [Row.key_refs, hf _ _ _ hr, Trigger.key]
        simp only [Snapshots.observeRow, ha, hp, Fetch.row?, Option.bind_some, Row.updateText?]
        cases Row.changes e.trigger.kind previous row with
        | nil => rfl
        | cons name names =>
          simp only [Environment.attempt?, hs]
          exact Attempt.texts_stored hkey
      | failed error => rfl
      | crashed => rfl
    · have hnone : e.sighted? k id = none := if_neg fun h => hk h.1
      rw [hnone, Attempt.texts, about_attempt?_of_ne hf hk]
      rfl
  · cases hrow : e.sighted? k id with
    | some row => exact (sighted?_eq_some_iff.mp hrow).find?_run hf
    | none =>
      have hd : ¬ e.Deletes k id := by
        rintro ⟨hk, hd⟩
        rw [hu hk] at hd
        cases hd
      have hns : ∀ row, ¬ e.Sights k id row := by
        intro row h
        rw [← sighted?_eq_some_iff, hrow] at h
        cases h
      rw [find?_run_of_not hf hd hns, hp]
      rfl

/-! ### The trail -/

/-- The rows that errands sight of an entity. -/
def sightings (k : Kind) (id : EntityId) (es : List (Errand σ)) : List k.Row :=
  es.filterMap fun e => e.sighted? k id

/-- The entries of an entity over a time of updates are those from one row to the next, and the last row
is the snapshot. -/
lemma texts_attempts {es : List (Errand σ)} (hf : ∀ e ∈ es, e.env.repositories.Faithful)
    (hs : ∀ e ∈ es, ∀ m log, (e.env.sink.insert m log).1 = .stored)
    (hu : ∀ e ∈ es, e.trigger.key = ⟨k, id⟩ → e.trigger.action = .updated) {first : k.Row}
    (hp : p.1.find? k id = some first) :
    Attempt.texts ⟨k, id⟩ (attempts es p) = Row.trail k first (sightings k id es) ∧
      (doAll es p).1.find? k id = (first :: sightings k id es).getLast? := by
  induction es generalizing p first with
  | nil => exact ⟨rfl, hp⟩
  | cons e es ih =>
    obtain ⟨hfe, hf⟩ := List.forall_mem_cons.mp hf
    obtain ⟨hse, hs⟩ := List.forall_mem_cons.mp hs
    obtain ⟨hue, hu⟩ := List.forall_mem_cons.mp hu
    obtain ⟨htexts, hrun⟩ := texts_attempt? hfe hse hue hp
    obtain ⟨ihtexts, ihlast⟩ := ih hf hs hu hrun
    have hdo : doAll (e :: es) p = doAll es (e.run p) := rfl
    rw [attempts, Attempt.texts_append, htexts, ihtexts, hdo, ihlast]
    cases hrow : e.sighted? k id with
    | none =>
      have hseen : sightings k id (e :: es) = sightings k id es := List.filterMap_cons_none hrow
      rw [hseen]
      exact ⟨rfl, rfl⟩
    | some row =>
      have hseen : sightings k id (e :: es) = row :: sightings k id es := List.filterMap_cons_some hrow
      rw [hseen, Row.trail_cons, List.getLast?_cons_cons]
      exact ⟨rfl, rfl⟩

/-- **The trail of updates.** Take any errands of which those for one entity only tell of updates; the
sinks store what they are given. Whatever rows are found or not found on the way, the entries about the
entity are those from each row that was seen to the next, with the tracked fields that differ between the
two in their order, and none where no field differs. Every tracked field in which the first row differs
from the last is named by one of them. -/
theorem trail_of_updates {es : List (Errand σ)} (hf : ∀ e ∈ es, e.env.repositories.Faithful)
    (hs : ∀ e ∈ es, ∀ m log, (e.env.sink.insert m log).1 = .stored)
    (hu : ∀ e ∈ es, e.trigger.key = ⟨k, id⟩ → e.trigger.action = .updated) {first last : k.Row}
    (hfirst : p.1.find? k id = some first) (hlast : (doAll es p).1.find? k id = some last) :
    Attempt.texts ⟨k, id⟩ (given es p) = Row.trail k first (sightings k id es) ∧
    (first :: sightings k id es).getLast? = some last ∧
    ∀ f ∈ Row.tracked k, f.differs first last = true →
      ∃ a b, (a, b) ∈ (first :: sightings k id es).zip (sightings k id es) ∧
        f.name ∈ Row.changes k a b ∧
        entryText k .updated (Row.changes k a b) ∈ Attempt.texts ⟨k, id⟩ (given es p) := by
  obtain ⟨htexts, hseen⟩ := texts_attempts hf hs hu hfirst
  rw [← given_eq] at htexts
  rw [hlast] at hseen
  refine ⟨htexts, hseen.symm, fun f hf hd => ?_⟩
  obtain ⟨a, b, hab, hd⟩ := (Row.isComparison_of_tracked hf).exists_neighbours hseen.symm hd
  obtain ⟨hname, htext⟩ := Row.updateText?_of_differs hf hd
  refine ⟨a, b, hab, hname, ?_⟩
  rw [htexts]
  exact List.mem_filterMap.mpr ⟨(a, b), hab, htext⟩

/-- A task gets a new title, cannot be read, gets a new priority, and is told to be updated once more
after a status with its id was deleted. -/
theorem trail_of_updates_of_four :
    let id : EntityId := ⟨1, by decide⟩
    let tasks (title : String) (priority : Int32) : Repositories := fun
      | .task, i => .found ⟨i, i, i, title, "", priority, none⟩
      | _, _ => .crashed
    let accepting : Sink Unit := ⟨fun _ log => (.stored, log)⟩
    let updated (r : Repositories) : Errand Unit := ⟨⟨r, accepting, .epoch⟩, ⟨.task, id, .updated, ∅⟩⟩
    let deleted : Errand Unit := ⟨⟨tasks "" 0, accepting, .epoch⟩, ⟨.status, id, .deleted, ∅⟩⟩
    let es := [updated (tasks "b" 0), updated fun _ _ => .crashed, updated (tasks "b" 3), deleted,
      updated (tasks "b" 3)]
    let p : Snapshots × Unit := (Tables.empty.store .task (Task.new id id id "a"), ())
    Attempt.texts ⟨.task, id⟩ (given es p) = ["task.updated:title", "task.updated:priority"] := by
  intro id tasks accepting updated deleted es p
  have htasks : ∀ title priority, (tasks title priority).Faithful := by
    rintro title priority k i row h
    cases k <;> cases h
    rfl
  have hf : ∀ e ∈ es, e.env.repositories.Faithful := by
    simp [es, updated, deleted, htasks, Repositories.faithful_crashed]
  have hs : ∀ e ∈ es, ∀ m log, (e.env.sink.insert m log).1 = .stored := by
    simp [es, updated, deleted, accepting]
  have hu : ∀ e ∈ es, e.trigger.key = ⟨.task, id⟩ → e.trigger.action = .updated := by
    simp [es, updated, deleted, Trigger.key]
  have hfirst : p.1.find? .task id = some (Task.new id id id "a") := rfl
  have hlast : (doAll es p).1.find? .task id = some ⟨id, id, id, "b", "", 3, none⟩ := rfl
  obtain ⟨htexts, -, -⟩ := trail_of_updates hf hs hu hfirst hlast
  exact htexts

end Errand

end BoardAudit
