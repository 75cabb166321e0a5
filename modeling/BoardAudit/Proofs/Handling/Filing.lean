import BoardAudit.Proofs.EntityId.Spellings
import BoardAudit.Proofs.Handling.Attribution

/-!
# Filing

The deletion of an entity without a snapshot is filed under the project that its notes name, in whichever
way they spell it and whatever blank characters stand around it; where they spell no id the entity stands
for its project. What notes say about a project has no effect at all (`Errand.filed`).
-/

namespace BoardAudit

open EntityId (Spells)
open Text (Around)

namespace Metadata

variable {notes : Metadata} {owner : EntityId}

/-- The notes name a project when they spell it between blank characters. -/
lemma project?_eq_some_iff : notes.project? = some owner ↔
    ∃ text cs, notes[projectNote]? = some text ∧ Around cs text.toList ∧ Spells cs owner := by
  simp only [project?, Option.bind_eq_some_iff, EntityId.ofText?_trim_eq_some_iff]
  constructor
  · rintro ⟨text, htext, cs, hcs, haround⟩
    exact ⟨text, cs, htext, haround, hcs⟩
  · rintro ⟨text, cs, htext, haround, hcs⟩
    exact ⟨text, htext, cs, hcs, haround⟩

/-- The notes name no project when what is left of them without blank characters spells none. -/
lemma project?_eq_none_iff : notes.project? = none ↔
    ∀ text, notes[projectNote]? = some text → ∀ owner, ¬ Spells (Text.trim text.toList) owner := by
  simp only [project?, Option.bind_eq_none_iff, ← EntityId.ofText?_eq_some_iff]
  refine forall₂_congr fun text _ => ?_
  exact Option.eq_none_iff_forall_ne_some

end Metadata

/-- What is observed of a project does not hang on the notes. -/
lemma Snapshots.observe_project (r : Repositories) (s : Snapshots) (id : EntityId) (action : Action)
    (notes notes' : Metadata) :
    observe r s ⟨.project, id, action, notes⟩ = observe r s ⟨.project, id, action, notes'⟩ := by
  have hdeletion : observeDeletion s ⟨.project, id, action, notes⟩ =
      observeDeletion s ⟨.project, id, action, notes'⟩ := by
    unfold observeDeletion
    cases Tables.find? s .project id <;> rfl
  have hrow (row : Kind.Row .project) : observeRow s ⟨.project, id, action, notes⟩ row =
      observeRow s ⟨.project, id, action, notes'⟩ row := by
    unfold observeRow
    cases action with
    | updated => cases Tables.find? s .project id <;> rfl
    | _ => rfl
  have hreads : Trigger.reads ⟨.project, id, action, notes⟩ =
      Trigger.reads ⟨.project, id, action, notes'⟩ := rfl
  unfold observe
  rw [hdeletion, hreads]
  cases r .project id with
  | found row => simp only [hrow row]
  | failed error => rfl
  | crashed => rfl

namespace Errand

variable {σ : Type}

/-- The deletion of an entity without a snapshot is told to the sink. -/
lemma given_of_unseen (env : Environment σ) {p : Snapshots × σ} {k : Kind} {id : EntityId}
    (h : p.1.find? k id = none) (notes : Metadata) :
    ∃ a, given [⟨env, ⟨k, id, .deleted, notes⟩⟩] p = [a] ∧
      a.content = (Refs.ofDeleted k id notes, entryText k .deleted []) := by
  simp only [given_singleton, attempt?, Snapshots.observe, Snapshots.observeDeletion, h]
  exact ⟨_, rfl, rfl⟩

/-- **Filing.** The deletion of an entity without a snapshot is told to the sink as being about the
entity. A status or a task is filed under the project that the notes spell, between any blank characters,
and under its own id if the notes tell nothing of a project, or nothing that spells an id. The text of an
id is among its spellings. Whatever happens to a project, its notes change nothing. -/
theorem filed (env : Environment σ) (p : Snapshots × σ) (id : EntityId) :
    (∀ k notes, p.1.find? k id = none →
      ∃ a, given [⟨env, ⟨k, id, .deleted, notes⟩⟩] p = [a] ∧
        a.log.toRefs.IsAbout k id ∧ a.log.entry = entryText k .deleted [] ∧
        (k ≠ .project →
          (∀ text cs owner, notes[projectNote]? = some text → Around cs text.toList →
            Spells cs owner → owner.isNil = false → a.log.projectId = owner) ∧
          ((∀ text, notes[projectNote]? = some text →
            ∀ owner, ¬ Spells (Text.trim text.toList) owner) → a.log.projectId = id))) ∧
    (∀ owner : EntityId, Spells owner.toString.toList owner) ∧
    ∀ action notes notes',
      env.handle ⟨.project, id, action, notes⟩ p.1 p.2 = env.handle ⟨.project, id, action, notes'⟩ p.1 p.2 ∧
      given [⟨env, ⟨.project, id, action, notes⟩⟩] p =
        given [⟨env, ⟨.project, id, action, notes'⟩⟩] p := by
  refine ⟨?_, ?_, ?_⟩
  · intro k notes hunseen
    obtain ⟨a, ha, hcontent⟩ := given_of_unseen env hunseen notes
    obtain ⟨hrefs, hentry⟩ := Prod.mk.inj hcontent
    refine ⟨a, ha, hrefs ▸ Refs.isAbout_ofDeleted k id notes, hentry, fun hk => ?_⟩
    have howner : a.log.projectId = notes.project?.getD id := by
      rw [hrefs, Refs.projectId_ofDeleted hk]
    constructor
    · intro text cs owner htext haround hcs _
      have hproject : notes.project? = some owner :=
        Metadata.project?_eq_some_iff.mpr ⟨text, cs, htext, haround, hcs⟩
      rw [howner, hproject, Option.getD_some]
    · intro hnone
      rw [howner, Metadata.project?_eq_none_iff.mpr hnone, Option.getD_none]
  · intro owner
    rw [EntityId.toString, String.toList_ofList]
    exact owner.spells_toText
  · intro action notes notes'
    have hobserve := Snapshots.observe_project env.repositories p.1 id action notes notes'
    constructor
    · rw [Environment.handle, Environment.handle, hobserve]
    · rw [given_singleton, given_singleton, attempt?, attempt?, hobserve]

/-- Two entities that were never observed are deleted: a status whose notes name its project in capital
letters among blank characters, and a task whose notes break off. -/
theorem filed_of_two :
    let id : EntityId := ⟨1, by decide⟩
    let deleted (k : Kind) (note : String) : Errand Unit :=
      ⟨.mirror, ⟨k, id, .deleted, Std.ExtTreeMap.empty.insert "project_id" note⟩⟩
    (∃ a, given [deleted .status "\u3000\tURN:UUID:00000000-0000-4000-8000-0000000000AB\n"]
        (.empty, ()) = [a] ∧ a.log.projectId = ⟨0x400080000000000000ab, by decide⟩) ∧
    ∃ a, given [deleted .task "00000000-0000-4000-8000-0000000000"] (.empty, ()) = [a] ∧
      a.log.projectId = id := by
  intro id deleted
  have hnote (k : Kind) (note : String) : (deleted k note).trigger.metadata[projectNote]? = some note :=
    Std.ExtTreeMap.getElem?_insert_self
  obtain ⟨hfiled, -, -⟩ := filed Environment.mirror (.empty, ()) id
  constructor
  · obtain ⟨a, ha, -, -, howner⟩ := hfiled .status _ (Tables.find?_empty _ _)
    refine ⟨a, ha, (howner (by decide)).1 _ "URN:UUID:00000000-0000-4000-8000-0000000000AB".toList _
      (hnote .status _) ?_ (by decide) rfl⟩
    exact ⟨['\u3000', '\t'], ['\n'], List.all_eq_true.mp rfl, List.all_eq_true.mp rfl, by decide⟩
  · obtain ⟨a, ha, -, -, howner⟩ := hfiled .task _ (Tables.find?_empty _ _)
    refine ⟨a, ha, (howner (by decide)).2 fun text htext owner hspells => ?_⟩
    obtain rfl := Option.some.inj ((hnote .task _).symm.trans htext)
    have hnone : EntityId.ofText?
        (Text.trim "00000000-0000-4000-8000-0000000000".toList) = none := by decide
    rw [← EntityId.ofText?_eq_some_iff, hnone] at hspells
    cases hspells

end Errand

end BoardAudit
