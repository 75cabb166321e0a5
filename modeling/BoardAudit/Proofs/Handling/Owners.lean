import BoardAudit.Proofs.Handling.Attribution

/-!
# Owners

As long as rows belong to projects, so do the entries about them, with one exception: the notes of a
deletion can name the nil id, which is no project. `Errand.owner_eq_nil_iff` says when an entry has no
owner: it is about a status or a task that is deleted without a snapshot, and the notes name the nil id.
-/

namespace BoardAudit

variable {σ : Type}

/-- The rows that are found belong to projects. -/
def Repositories.Owned (r : Repositories) : Prop :=
  ∀ k id row, r k id = .found row → Row.owner k row ≠ .nil

namespace Snapshots

variable {r : Repositories} {s : Snapshots} {t : Trigger}

/-- The rows that were observed belong to projects. -/
def Owned (s : Snapshots) : Prop := ∀ k id row, s.find? k id = some row → Row.owner k row ≠ .nil

lemma owned_empty : Owned .empty := by
  intro k id row h
  rw [Tables.find?_empty] at h
  cases h

lemma Owned.store (h : s.Owned) {k : Kind} {row : k.Row} (hrow : Row.owner k row ≠ .nil) :
    Owned (Tables.store s k row) := by
  intro l id row' hrow'
  by_cases hk : k = l
  · subst hk
    rw [Tables.find?_store] at hrow'
    split at hrow'
    · cases hrow'
      exact hrow
    · exact h _ _ _ hrow'
  · rw [Tables.find?_store_of_ne _ hk] at hrow'
    exact h _ _ _ hrow'

lemma Owned.erase (h : s.Owned) (k : Kind) (id : EntityId) : Owned (Tables.erase s k id) := by
  intro l i row hrow
  by_cases hk : k = l
  · subst hk
    rw [Tables.find?_erase] at hrow
    split at hrow
    · cases hrow
    · exact h _ _ _ hrow
  · rw [Tables.find?_erase_of_ne _ hk] at hrow
    exact h _ _ _ hrow

lemma Owned.observe (h : s.Owned) (hr : r.Owned) (t : Trigger) : Owned (observe r s t).2 := by
  by_cases hd : t.action = .deleted
  · rw [observe_deleted hd]
    exact h.erase t.kind t.id
  · by_cases hfound : t.reads = true ∧ ∃ row, r t.kind t.id = .found row
    · obtain ⟨hreads, row, hrow⟩ := hfound
      rw [observe_found hreads hrow]
      exact h.store (hr _ _ _ hrow)
    · rw [observe_not_found hd fun hreads row hrow => hfound ⟨hreads, row, hrow⟩]
      exact h

lemma Refers.owner_unseen_project {refs : Refs} (h : Refers r s t refs) (hd : t.action = .deleted)
    (hk : t.kind = .project) (hs : s.find? t.kind t.id = none) : refs.projectId = t.id := by
  obtain ⟨k, id, action, notes⟩ := t
  subst hk
  cases h with
  | current _ hne => exact absurd hd hne
  | moved _ hc => exact absurd (hc.symm.trans hd) (by decide)
  | gone row _ hs' => exact absurd (hs.symm.trans hs') (by simp)
  | unseen => rfl

/-- Of the things that an entry can refer to, only the notes of a deletion can name the nil id. -/
lemma Refers.projectId_eq_nil_iff {refs : Refs} (h : Refers r s t refs) (hr : r.Owned) (hs : s.Owned)
    (ht : t.id ≠ .nil) :
    refs.projectId = .nil ↔ t.action = .deleted ∧ t.kind ≠ .project ∧
      s.find? t.kind t.id = none ∧ t.metadata.project? = some .nil := by
  by_cases hd : t.action = .deleted
  · cases hrow : s.find? t.kind t.id with
    | some row =>
      have howner := hs _ _ _ hrow
      simp [h.owner_gone hd hrow, howner]
    | none =>
      by_cases hk : t.kind = .project
      · simp [h.owner_unseen_project hd hk hrow, hk, ht]
      · rw [h.owner_unseen hd hk hrow]
        cases t.metadata.project? with
        | none => simp [ht]
        | some owner => simp [hd, hk]
  · obtain ⟨row, hrow, howner⟩ := h.owner_current hd
    simp [howner, hr _ _ _ hrow, hd]

end Snapshots

namespace Errand

variable {e : Errand σ} {es before : List (Errand σ)} {p : Snapshots × σ}

lemma owned_doAll (hr : ∀ e ∈ es, e.env.repositories.Owned) (hs : p.1.Owned) :
    (doAll es p).1.Owned := by
  induction es generalizing p with
  | nil => exact hs
  | cons e es ih =>
    obtain ⟨hre, hr⟩ := List.forall_mem_cons.mp hr
    exact ih hr (hs.observe hre e.trigger)

/-- **Entries without an owner.** From no snapshots, where rows belong to projects and triggers are about
entities: an entry that is given to a sink has the nil id for its project exactly when it is about the
deletion of a status or a task of which there is no snapshot, and the notes, blanks aside, spell the nil
id. Then the entity does not stand for its project, as it does when the notes spell no id at all. -/
theorem owner_eq_nil_iff {log : σ} (hr : ∀ e' ∈ before ++ [e], e'.env.repositories.Owned)
    (ht : e.trigger.id.isNil = false) {a : Attempt}
    (h : a ∈ given [e] (doAll before (.empty, log))) :
    a.log.projectId.isNil = true ↔
      e.trigger.action = .deleted ∧ e.trigger.kind ≠ .project ∧
      (doAll before (.empty, log)).1.find? e.trigger.kind e.trigger.id = none ∧
      ∃ text, e.trigger.metadata[projectNote]? = some text ∧
        EntityId.ofText? (Text.trim text.toList) = some .nil := by
  have hbefore : (doAll before (.empty, log)).1.Owned :=
    owned_doAll (fun e' he' => hr e' (by simp [he'])) Snapshots.owned_empty
  have hid : e.trigger.id ≠ .nil := by
    intro hnil
    rw [hnil] at ht
    cases ht
  have hobserve := observe_of_attempt (mem_given_singleton.mp h)
  obtain ⟨hrefers, -⟩ := Snapshots.refers_of_observe hobserve
  rw [EntityId.isNil_iff, hrefers.projectId_eq_nil_iff (hr e (by simp)) hbefore hid]
  simp only [Metadata.project?, Option.bind_eq_some_iff]

/-- Of two tasks that were never observed one is deleted with the nil id in its notes, which is then the
project of the entry, and the other one with a note that spells no id. -/
theorem owner_eq_nil_iff_of_two :
    let empty : Environment Unit :=
      { Environment.mirror with repositories := fun k id => .failed (.notFound k id) }
    let deleted (note : String) : Errand Unit :=
      ⟨empty, ⟨.task, ⟨1, by decide⟩, .deleted, Std.ExtTreeMap.empty.insert "project_id" note⟩⟩
    (∃ a, given [deleted " 00000000000000000000000000000000 "] (.empty, ()) = [a] ∧
      a.log.projectId.isNil = true) ∧
    ∃ a, given [deleted "none"] (.empty, ()) = [a] ∧ a.log.projectId.isNil = false := by
  intro empty deleted
  have hr : ∀ note, ∀ e' ∈ [] ++ [deleted note], e'.env.repositories.Owned := by
    intro note e' he' k id row hrow
    obtain rfl := List.mem_singleton.mp he'
    cases hrow
  have hnil : ∀ note a, a ∈ given [deleted note] (doAll [] (.empty, ())) →
      (a.log.projectId.isNil = true ↔ _) :=
    fun note a => owner_eq_nil_iff (hr note) rfl
  have hnote : ∀ note, (deleted note).trigger.metadata[projectNote]? = some note :=
    fun _ => Std.ExtTreeMap.getElem?_insert_self
  refine ⟨⟨_, rfl, (hnil _ _ List.mem_cons_self).mpr ?_⟩, _, rfl, Bool.eq_false_iff.mpr fun h => ?_⟩
  · exact ⟨rfl, by decide, rfl, _, hnote _, by decide⟩
  · obtain ⟨-, -, -, text, htext, hid⟩ := (hnil _ _ List.mem_cons_self).mp h
    obtain rfl := Option.some.inj ((hnote _).symm.trans htext)
    exact absurd hid (by decide)

/-- Not every entry has an owner, although rows belong to projects and triggers are about entities: a
status that was never observed is deleted, and its notes name the nil id. -/
theorem exists_entry_without_owner :
    let empty : Environment Unit :=
      { Environment.mirror with repositories := fun k id => .failed (.notFound k id) }
    let notes : Metadata :=
      Std.ExtTreeMap.empty.insert "project_id" "00000000-0000-0000-0000-000000000000"
    let deleted : Errand Unit := ⟨empty, ⟨.status, ⟨1, by decide⟩, .deleted, notes⟩⟩
    empty.repositories.Owned ∧ deleted.trigger.id.isNil = false ∧
      (given [deleted] (.empty, ())).map (·.log.toRefs) =
        [⟨.nil, none, some deleted.trigger.id⟩] := by
  intro empty notes deleted
  have howned : empty.repositories.Owned := by
    intro k id row hrow
    cases hrow
  have hnote : notes[projectNote]? = some "00000000-0000-0000-0000-000000000000" :=
    Std.ExtTreeMap.getElem?_insert_self
  have hproject : notes.project? = some .nil :=
    (Metadata.project?_of_note hnote).trans (by decide)
  have hgiven : (given [deleted] (.empty, ())).map (·.log.toRefs) =
      [⟨notes.project?.getD deleted.trigger.id, none, some deleted.trigger.id⟩] := rfl
  refine ⟨howned, rfl, ?_⟩
  rw [hgiven, hproject]
  rfl

end Errand

end BoardAudit
