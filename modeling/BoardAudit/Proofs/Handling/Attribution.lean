import BoardAudit.Proofs.Handling.Attempts

/-!
# Attribution

Every entry refers to the entity of its trigger and to the project that owns it. Where the current row is
read, that is the project of the row; after a deletion it is the project of the row that was seen last,
and only for an entity that was not seen since its last deletion do the notes of the trigger count
(`Errand.attributed`).
-/

namespace BoardAudit

variable {σ : Type}

/-! ### Owners -/

/-- The project of a row; a project is its own. -/
def Row.owner : (k : Kind) → k.Row → EntityId
  | .project => Project.id
  | .status => Status.projectId
  | .task => Task.projectId

lemma Row.projectId_refs (k : Kind) (row : k.Row) : (Row.refs k row).projectId = Row.owner k row := by
  cases k <;> rfl

lemma Row.projectId_statusChangeRefs (k : Kind) (row : k.Row) :
    (Row.statusChangeRefs k row).projectId = Row.owner k row := by
  cases k <;> rfl

lemma Refs.projectId_ofDeleted {k : Kind} (hk : k ≠ .project) (id : EntityId) (notes : Metadata) :
    (Refs.ofDeleted k id notes).projectId = notes.project?.getD id := by
  cases k with
  | project => exact absurd rfl hk
  | status => rfl
  | task => rfl

lemma Metadata.project?_of_note {notes : Metadata} {text : String}
    (h : notes[projectNote]? = some text) :
    notes.project? = EntityId.ofText? (Text.trim text.toList) := by
  simp [project?, h]

/-- Whether what refers so is about an entity: about a project it refers to nothing else, and about a
status to no task. -/
def Refs.IsAbout (refs : Refs) : Kind → EntityId → Prop
  | .project, id => refs = ⟨id, none, none⟩
  | .status, id => refs.statusId = some id ∧ refs.taskId = none
  | .task, id => refs.taskId = some id

lemma Row.isAbout_refs (k : Kind) (row : k.Row) : (Row.refs k row).IsAbout k (Row.id k row) := by
  cases k with
  | project => rfl
  | status => exact ⟨rfl, rfl⟩
  | task => rfl

lemma Row.isAbout_statusChangeRefs (k : Kind) (row : k.Row) :
    (Row.statusChangeRefs k row).IsAbout k (Row.id k row) := by
  cases k with
  | project => rfl
  | status => exact ⟨rfl, rfl⟩
  | task => rfl

lemma Refs.isAbout_ofDeleted (k : Kind) (id : EntityId) (notes : Metadata) :
    (Refs.ofDeleted k id notes).IsAbout k id := by
  cases k with
  | project => rfl
  | status => exact ⟨rfl, rfl⟩
  | task => rfl

lemma entryText_eq (k : Kind) (a : Action) (fields : List String) :
    ∃ rest, entryText k a fields = k.name ++ "." ++ a.name ++ rest := by
  unfold entryText
  split
  · exact ⟨"", by simp⟩
  · exact ⟨_, String.append_assoc ..⟩

namespace Errand

variable {e : Errand σ} {es before : List (Errand σ)} {p : Snapshots × σ} {k : Kind} {id : EntityId}

/-! ### What was seen last -/

/-- The row that was sighted last, of an entity that was not deleted since. -/
def LastSeen (es : List (Errand σ)) (k : Kind) (id : EntityId) (row : k.Row) : Prop :=
  ∃ before e after, es = before ++ e :: after ∧ e.Sights k id row ∧
    ∀ e' ∈ after, ¬ e'.Deletes k id ∧ ∀ row', ¬ e'.Sights k id row'

/-- Whenever an entity was sighted it was deleted since. -/
def Unseen (es : List (Errand σ)) (k : Kind) (id : EntityId) : Prop :=
  ∀ before e after, es = before ++ e :: after → (∃ row, e.Sights k id row) →
    ∃ e' ∈ after, e'.Deletes k id

lemma LastSeen.find?_doAll {row : k.Row} (h : LastSeen es k id row)
    (hf : ∀ e ∈ es, e.env.repositories.Faithful) : (doAll es p).1.find? k id = some row := by
  obtain ⟨before, e, after, rfl, hs, hafter⟩ := h
  have hdo : doAll (before ++ e :: after) p = doAll after (e.run (doAll before p)) := doAll_append ..
  rw [hdo, find?_doAll_of_not (fun e' he' => hf e' (by simp [he'])) hafter, hs.find?_run (hf e (by simp))]

lemma Unseen.find?_doAll (h : Unseen es k id) (hf : ∀ e ∈ es, e.env.repositories.Faithful)
    (hp : p.1.find? k id = none) : (doAll es p).1.find? k id = none := by
  induction es using List.reverseRecOn with
  | nil => exact hp
  | append_singleton es e ih =>
    rw [doAll_append, doAll_singleton]
    have hs : ∀ row, ¬ e.Sights k id row := by
      intro row hs
      obtain ⟨e', he', -⟩ := h es e [] rfl ⟨row, hs⟩
      cases he'
    by_cases hd : e.Deletes k id
    · exact hd.find?_run
    · -- Since the last errand deletes nothing, what followed the sightings did so before it.
      have hes : Unseen es k id := by
        intro before x after he hx
        obtain ⟨e', he', hd'⟩ := h before x (after ++ [e]) (by simp [he]) hx
        rcases List.mem_append.mp he' with he' | he'
        · exact ⟨e', he', hd'⟩
        · obtain rfl := List.mem_singleton.mp he'
          exact absurd hd' hd
      rw [find?_run_of_not (hf e (by simp)) hd hs]
      exact ih hes fun e' he' => hf e' (by simp [he'])

/-- After its deletion an entity is not seen. -/
lemma Deletes.unseen (h : e.Deletes k id) : Unseen (es ++ [e]) k id := by
  rintro before x after he ⟨row, hs⟩
  rcases List.eq_nil_or_concat after with rfl | ⟨after, y, rfl⟩
  · obtain ⟨-, hx⟩ := List.append_inj' he rfl
    obtain rfl : e = x := by simpa using hx
    exact absurd h hs.not_deletes
  · have he' : es ++ [e] = (before ++ x :: after) ++ [y] := by simpa using he
    obtain ⟨-, hy⟩ := List.append_inj' he' rfl
    obtain rfl : e = y := by simpa using hy
    exact ⟨e, by simp, h⟩

/-! ### What entries refer to -/

/-- An entry that an errand makes after some others is attributed to its entity and to the project of
that. -/
structure Attributed (before : List (Errand σ)) (e : Errand σ) (m : LogModel) : Prop where
  text : ∃ rest, m.entry = e.trigger.kind.name ++ "." ++ e.trigger.action.name ++ rest
  about : m.toRefs.IsAbout e.trigger.kind e.trigger.id
  /-- An entry about a task refers to a status when the task came to another one, and to that one. -/
  moved : e.trigger.kind = .task → e.trigger.action = .statusChanged → ∃ row : Task,
    e.env.repositories .task e.trigger.id = .found row ∧ m.statusId = some row.statusId
  still : e.trigger.kind = .task → e.trigger.action ≠ .statusChanged → m.statusId = none
  /-- The project is that of the row that was read. -/
  current : e.trigger.action ≠ .deleted → ∃ row,
    e.env.repositories e.trigger.kind e.trigger.id = .found row ∧
      m.projectId = Row.owner e.trigger.kind row
  /-- The project of a deleted entity is that of the row that was seen last. -/
  gone : e.trigger.action = .deleted → ∀ row, LastSeen before e.trigger.kind e.trigger.id row →
    m.projectId = Row.owner e.trigger.kind row
  /-- The project of a deleted entity that was not seen is the one that the notes tell. -/
  noted : e.trigger.action = .deleted → e.trigger.kind ≠ .project →
    Unseen before e.trigger.kind e.trigger.id → ∀ text owner,
      e.trigger.metadata[projectNote]? = some text →
      EntityId.ofText? (Text.trim text.toList) = some owner → owner.isNil = false →
      m.projectId = owner
  /-- A deleted entity that was not seen and whose notes tell no project stands for its project. -/
  unnoted : e.trigger.action = .deleted → e.trigger.kind ≠ .project →
    Unseen before e.trigger.kind e.trigger.id →
    (∀ text, e.trigger.metadata[projectNote]? = some text →
      EntityId.ofText? (Text.trim text.toList) = none) →
    m.projectId = e.trigger.id

end Errand

namespace Snapshots

variable {r : Repositories} {s : Snapshots} {t : Trigger} {refs : Refs}

lemma Refers.isAbout (hr : r.Faithful) (h : Refers r s t refs) : refs.IsAbout t.kind t.id := by
  cases h with
  | current row _ _ hrow => exact hr _ _ _ hrow ▸ Row.isAbout_refs t.kind row
  | moved row _ hrow => exact hr _ _ _ hrow ▸ Row.isAbout_statusChangeRefs t.kind row
  | gone row _ hrow => exact Table.id_of_find? hrow ▸ Row.isAbout_refs t.kind row
  | unseen => exact Refs.isAbout_ofDeleted t.kind t.id t.metadata

lemma Refers.statusId_moved (h : Refers r s t refs) (hk : t.kind = .task)
    (hc : t.action = .statusChanged) :
    ∃ row : Task, r .task t.id = .found row ∧ refs.statusId = some row.statusId := by
  obtain ⟨k, id, action, notes⟩ := t
  subst hk
  cases h with
  | current _ _ hne => exact absurd hc hne
  | moved row _ hrow => exact ⟨row, hrow, rfl⟩
  | gone _ hd => exact absurd (hc.symm.trans hd) (by decide)
  | unseen hd => exact absurd (hc.symm.trans hd) (by decide)

lemma Refers.statusId_still (h : Refers r s t refs) (hk : t.kind = .task)
    (hc : t.action ≠ .statusChanged) : refs.statusId = none := by
  obtain ⟨k, id, action, notes⟩ := t
  subst hk
  cases h with
  | current => rfl
  | moved _ hmoved => exact absurd hmoved hc
  | gone => rfl
  | unseen => rfl

lemma Refers.owner_current (h : Refers r s t refs) (hd : t.action ≠ .deleted) :
    ∃ row, r t.kind t.id = .found row ∧ refs.projectId = Row.owner t.kind row := by
  cases h with
  | current row _ _ hrow => exact ⟨row, hrow, Row.projectId_refs t.kind row⟩
  | moved row _ hrow => exact ⟨row, hrow, Row.projectId_statusChangeRefs t.kind row⟩
  | gone _ hgone => exact absurd hgone hd
  | unseen hgone => exact absurd hgone hd

lemma Refers.owner_gone (h : Refers r s t refs) (hd : t.action = .deleted) {row : t.kind.Row}
    (hs : s.find? t.kind t.id = some row) : refs.projectId = Row.owner t.kind row := by
  cases h with
  | current _ hne => exact absurd hd hne
  | moved _ hc => exact absurd (hc.symm.trans hd) (by decide)
  | gone row' _ hs' =>
    obtain rfl := Option.some.inj (hs.symm.trans hs')
    exact Row.projectId_refs t.kind row
  | unseen _ hs' => exact absurd (hs.symm.trans hs') (by simp)

lemma Refers.owner_unseen (h : Refers r s t refs) (hd : t.action = .deleted) (hk : t.kind ≠ .project)
    (hs : s.find? t.kind t.id = none) : refs.projectId = t.metadata.project?.getD t.id := by
  cases h with
  | current _ hne => exact absurd hd hne
  | moved _ hc => exact absurd (hc.symm.trans hd) (by decide)
  | gone row _ hs' => exact absurd (hs.symm.trans hs') (by simp)
  | unseen => exact Refs.projectId_ofDeleted hk t.id t.metadata

end Snapshots

namespace Errand

variable {e : Errand σ} {before : List (Errand σ)}

/-- **Attribution.** From no snapshots, whatever rows are found or not found on the way and whatever the
sinks do: every entry that is given to a sink is attributed to the entity of its trigger, and to the
project that the entity belongs to or was last seen in. -/
theorem attributed {log : σ} (hf : ∀ e' ∈ before ++ [e], e'.env.repositories.Faithful) {a : Attempt}
    (h : a ∈ given [e] (doAll before (.empty, log))) : Attributed before e a.log := by
  have hfe : e.env.repositories.Faithful := hf e (by simp)
  have hfb : ∀ e' ∈ before, e'.env.repositories.Faithful := fun e' he' => hf e' (by simp [he'])
  have hobserve := observe_of_attempt (mem_given_singleton.mp h)
  obtain ⟨hrefers, fields, htext⟩ := Snapshots.refers_of_observe hobserve
  have hnone (hu : Unseen before e.trigger.kind e.trigger.id) :
      (doAll before (.empty, log)).1.find? e.trigger.kind e.trigger.id = none :=
    hu.find?_doAll hfb (Tables.find?_empty _ _)
  constructor
  case text => exact htext ▸ entryText_eq _ _ fields
  case about => exact hrefers.isAbout hfe
  case moved => exact hrefers.statusId_moved
  case still => exact hrefers.statusId_still
  case current => exact hrefers.owner_current
  case gone =>
    intro hd row hrow
    exact hrefers.owner_gone hd (hrow.find?_doAll hfb)
  case noted =>
    intro hd hk hu text owner hnote hid _
    rw [hrefers.owner_unseen hd hk (hnone hu), Metadata.project?_of_note hnote, hid]
    rfl
  case unnoted =>
    intro hd hk hu hnotes
    rw [hrefers.owner_unseen hd hk (hnone hu)]
    cases hnote : e.trigger.metadata[projectNote]? with
    | none => simp [Metadata.project?, hnote]
    | some text =>
      rw [Metadata.project?_of_note hnote, hnotes text hnote]
      rfl

/-- A task is created in one project, is seen in a second one, and is deleted twice: the first deletion
is filed under the second project, the other one under the third, which its notes tell. -/
theorem attributed_of_deletions :
    let id : EntityId := ⟨1, by decide⟩
    let second : EntityId := ⟨8, by decide⟩
    let third : EntityId := ⟨9, by decide⟩
    let tasksOf (project : EntityId) : Environment Unit :=
      { Environment.mirror with
        repositories := fun
          | .task, i => .found ⟨i, project, i, "", "", 0, none⟩
          | _, _ => .crashed }
    let created : Errand Unit := ⟨tasksOf ⟨7, by decide⟩, ⟨.task, id, .created, ∅⟩⟩
    let updated : Errand Unit := ⟨tasksOf second, ⟨.task, id, .updated, ∅⟩⟩
    let deleted : Errand Unit := ⟨.mirror, ⟨.task, id, .deleted,
      Std.ExtTreeMap.empty.insert "project_id" " 00000000-0000-0000-0000-000000000009\n"⟩⟩
    (∃ a, given [deleted] (doAll [created, updated] (.empty, ())) = [a] ∧
      a.log.taskId = some id ∧ a.log.projectId = second) ∧
    ∃ a, given [deleted] (doAll [created, updated, deleted] (.empty, ())) = [a] ∧
      a.log.taskId = some id ∧ a.log.projectId = third := by
  intro id second third tasksOf created updated deleted
  have htasks : ∀ project, (tasksOf project).repositories.Faithful := by
    rintro project k i row h
    cases k <;> cases h
    rfl
  have hf : ∀ e' ∈ [created, updated, deleted] ++ [deleted], e'.env.repositories.Faithful := by
    simp [created, updated, deleted, htasks, Environment.faithful_mirror]
  have hseen : LastSeen [created, updated] .task id ⟨id, second, id, "", "", 0, none⟩ :=
    ⟨[created], updated, [], rfl, ⟨rfl, .inr (.inl rfl), rfl⟩, by simp⟩
  have hunseen : Unseen ([created, updated] ++ [deleted]) .task id := Deletes.unseen ⟨rfl, rfl⟩
  have hfirst : ∀ e' ∈ [created, updated] ++ [deleted], e'.env.repositories.Faithful :=
    fun e' he' => hf e' (List.mem_append_left _ he')
  have hgiven (before : List (Errand Unit))
      (hf : ∀ e' ∈ before ++ [deleted], e'.env.repositories.Faithful) :
      ∃ a, given [deleted] (doAll before (.empty, ())) = [a] ∧ Attributed before deleted a.log :=
    ⟨_, rfl, attributed hf List.mem_cons_self⟩
  constructor
  · obtain ⟨a, ha, h⟩ := hgiven _ hfirst
    exact ⟨a, ha, h.about, h.gone rfl _ hseen⟩
  · obtain ⟨a, ha, h⟩ := hgiven _ hf
    have hnote := h.noted rfl (by decide) hunseen _ third Std.ExtTreeMap.getElem?_insert_self
    exact ⟨a, ha, h.about, hnote (by decide) rfl⟩

end Errand

end BoardAudit
