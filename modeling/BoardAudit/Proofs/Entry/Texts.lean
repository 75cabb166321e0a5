import BoardAudit.Proofs.Handling.Trail

/-!
# What the text of an entry tells

The text of an entry tells its kind, its action and its fields, as long as no name of a field holds a comma
(`ofEntryText?_entryText`). No tracked field has such a name, so whoever reads the trail knows what was handled
and which tracked fields had changed (`Errand.text_tells`).
-/

namespace BoardAudit

/-! ### Reading back -/

/-- Cuts a text before its first mark. -/
def cut (mark : Char) (cs : List Char) : List Char × List Char :=
  (cs.takeWhile (· ≠ mark), cs.dropWhile (· ≠ mark))

/-- The fields that stand behind an action. -/
def readFields : List Char → List String
  | [] => []
  | _ :: cs => (cs.splitOn ',').map String.ofList

/-- The kind, the action and the fields that the text of an entry tells. -/
def ofEntryText? (s : String) : Option (Kind × Action × List String) := do
  let (kind, rest) := cut '.' s.toList
  let (action, fields) := cut ':' rest.tail
  return (← Kind.ofName? (String.ofList kind), ← Action.ofName? (String.ofList action), readFields fields)

/-- A text is cut where its first part holds no mark and the other part, if there is one, begins with it. -/
lemma cut_append {mark : Char} {cs ds : List Char} (hcs : mark ∉ cs) (hds : ∀ c ∈ ds.head?, c = mark) :
    cut mark (cs ++ ds) = (cs, ds) := by
  have hne : ∀ c ∈ cs, decide (c ≠ mark) = true := fun c hc => decide_eq_true fun he => hcs (he ▸ hc)
  rw [cut, List.takeWhile_append_of_pos hne, List.dropWhile_append_of_pos hne]
  cases ds with
  | nil => simp
  | cons c ds =>
    obtain rfl := hds c rfl
    simp

lemma Kind.point_not_mem_name (k : Kind) : '.' ∉ k.name.toList := by cases k <;> decide

lemma Action.colon_not_mem_name (a : Action) : ':' ∉ a.name.toList := by cases a <;> decide

/-- What stands behind the action in the text of an entry. -/
def fieldsText : List String → List Char
  | [] => []
  | l => ':' :: [','].intercalate (l.map String.toList)

lemma toList_entryText (k : Kind) (a : Action) (l : List String) :
    (entryText k a l).toList = k.name.toList ++ '.' :: (a.name.toList ++ fieldsText l) := by
  have hpoint : ".".toList = ['.'] := rfl
  have hcolon : ":".toList = [':'] := rfl
  have hcomma : ",".toList = [','] := rfl
  cases l with
  | nil => simp [entryText, fieldsText, hpoint]
  | cons n l => simp [entryText, fieldsText, hpoint, hcolon, hcomma, String.toList_intercalate]

/-- No field and one field with an empty name are told apart by the colon, and more fields by the commas. -/
lemma readFields_fieldsText {l : List String} (h : ∀ n ∈ l, ',' ∉ n.toList) :
    readFields (fieldsText l) = l := by
  cases l with
  | nil => rfl
  | cons n l =>
    have hcomma : ∀ cs ∈ (n :: l).map String.toList, ',' ∉ cs := by simpa using h
    have hback : String.ofList ∘ String.toList = id := funext fun _ => String.ofList_toList
    simp only [fieldsText, readFields]
    rw [List.splitOn_intercalate ',' hcomma (by simp), List.map_map, hback, List.map_id]

/-- The text of an entry reads back, if no name of a field holds a comma. -/
theorem ofEntryText?_entryText (k : Kind) (a : Action) {l : List String}
    (h : ∀ n ∈ l, ',' ∉ n.toList) : ofEntryText? (entryText k a l) = some (k, a, l) := by
  have hfields : ∀ c ∈ (fieldsText l).head?, c = ':' := by
    cases l <;> simp [fieldsText]
  have hkind : cut '.' (entryText k a l).toList =
      (k.name.toList, '.' :: (a.name.toList ++ fieldsText l)) := by
    rw [toList_entryText]
    exact cut_append k.point_not_mem_name (by simp)
  have haction : cut ':' (a.name.toList ++ fieldsText l) = (a.name.toList, fieldsText l) :=
    cut_append a.colon_not_mem_name hfields
  simp only [ofEntryText?, hkind, List.tail_cons, haction, String.ofList_toList, Kind.ofName?_name,
    Action.ofName?_name, readFields_fieldsText h]
  rfl

/-! ### Entries about errands -/

/-- The tracked fields that a trigger tells to be updated and that have changed since the last observation. -/
def Snapshots.changed (r : Repositories) (s : Snapshots) (t : Trigger) : List String :=
  match t.action, s.find? t.kind t.id, r t.kind t.id with
  | .updated, some previous, .found row => Row.changes t.kind previous row
  | _, _, _ => []

lemma Row.comma_not_mem_changes {k : Kind} {a b : k.Row} : ∀ n ∈ Row.changes k a b, ',' ∉ n.toList := by
  have htracked : ∀ n ∈ (tracked k).map Field.name, ',' ∉ n.toList := by
    cases k <;> decide
  intro n hn
  obtain ⟨f, hf, rfl⟩ := List.mem_map.mp hn
  exact htracked _ (List.mem_map_of_mem (List.mem_filter.mp hf).1)

lemma Snapshots.comma_not_mem_changed {r : Repositories} {s : Snapshots} {t : Trigger} :
    ∀ n ∈ changed r s t, ',' ∉ n.toList := by
  unfold changed
  split
  · exact Row.comma_not_mem_changes
  · simp

lemma Snapshots.changed_of_ne {r : Repositories} {s : Snapshots} {t : Trigger} (h : t.action ≠ .updated) :
    changed r s t = [] := by
  unfold changed
  split
  · next ha _ _ => exact absurd ha h
  · rfl

/-- An entry is about its action and about what has changed. -/
lemma Snapshots.text_of_observe {r : Repositories} {s : Snapshots} {t : Trigger} {refs : Refs}
    {text : String} (h : (observe r s t).1 = .entry refs text) :
    text = entryText t.kind t.action (changed r s t) := by
  by_cases hu : t.action = .updated
  · rw [observe_updated hu] at h
    cases hr : r t.kind t.id with
    | found row =>
      cases hs : Tables.find? s t.kind t.id with
      | none => simp [hr, observeRow, hu, hs] at h
      | some previous =>
        simp only [hr, observeRow, hu, hs] at h
        split at h <;> cases h
        simp only [changed, hu, hr, hs]
    | failed error => simp [hr] at h
    | crashed => simp [hr] at h
  · -- entries about other actions name no fields
    rw [changed_of_ne hu]
    unfold observe at h
    split at h
    · next hd =>
      rw [hd]
      exact (Observation.entry.inj h).2.symm
    · split at h
      · cases hr : r t.kind t.id with
        | found row =>
          simp only [hr, observeRow] at h
          split at h
          · next ha => exact absurd ha hu
          · next ha =>
            rw [ha]
            exact (Observation.entry.inj h).2.symm
          · exact (Observation.entry.inj h).2.symm
        | failed error => simp [hr] at h
        | crashed => simp [hr] at h
      · cases h

namespace Errand

variable {σ : Type}

/-- **What the text of an entry tells.** Two texts of entries are equal only if their kinds, their actions and
their fields are, whatever else than commas the names of the fields hold. So the text of every entry that is
given to a sink tells the kind and the action of the trigger that was handled and, in their order, the
tracked fields that had changed. -/
theorem text_tells :
    (∀ k₁ k₂ a₁ a₂ l₁ l₂, (∀ n ∈ l₁, ',' ∉ n.toList) → (∀ n ∈ l₂, ',' ∉ n.toList) →
      entryText k₁ a₁ l₁ = entryText k₂ a₂ l₂ → k₁ = k₂ ∧ a₁ = a₂ ∧ l₁ = l₂) ∧
    ∀ (e : Errand σ) (p : Snapshots × σ), ∀ a ∈ given [e] p,
      ofEntryText? a.log.entry = some (e.trigger.kind, e.trigger.action,
        Snapshots.changed e.env.repositories p.1 e.trigger) := by
  constructor
  · intro k₁ k₂ a₁ a₂ l₁ l₂ h₁ h₂ he
    have hread := congrArg ofEntryText? he
    rw [ofEntryText?_entryText k₁ a₁ h₁, ofEntryText?_entryText k₂ a₂ h₂] at hread
    simpa using hread
  · intro e p a ha
    rw [Snapshots.text_of_observe (observe_of_attempt (mem_given_singleton.mp ha)),
      ofEntryText?_entryText _ _ Snapshots.comma_not_mem_changed]

/-- An empty name makes a difference, also beside a name that holds a point and a colon; and the entry about
a task with a new title and a new due date tells just these two. -/
theorem text_tells_of_two :
    let id : EntityId := ⟨1, by decide⟩
    let updated : Errand Unit := ⟨.mirror, ⟨.task, id, .updated, ∅⟩⟩
    let seen : Task := ⟨id, id, id, "a.b:c", "", 0, some .epoch⟩
    entryText .status .updated ["a.b:c", ""] ≠ entryText .status .updated ["a.b:c"] ∧
    ∃ a, given [updated] (Tables.empty.store .task seen, ()) = [a] ∧
      ofEntryText? a.log.entry = some (.task, .updated, ["title", "dueDate"]) := by
  intro id updated seen
  obtain ⟨hinjective, htells⟩ := text_tells (σ := Unit)
  constructor
  · intro h
    obtain ⟨-, -, hfields⟩ := hinjective _ _ _ _ _ _ (by decide) (by decide) h
    cases hfields
  · have hchanged : Snapshots.changed updated.env.repositories (Tables.empty.store .task seen)
        updated.trigger = ["title", "dueDate"] := by decide
    refine ⟨_, rfl, ?_⟩
    rw [htells updated (Tables.empty.store .task seen, ()) _ List.mem_cons_self, hchanged]

end Errand

end BoardAudit
