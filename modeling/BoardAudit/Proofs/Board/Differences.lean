import BoardAudit.Board.ChangeSet
import BoardAudit.Proofs.Handling.Trail
import BoardAudit.Proofs.Json.Codecs

/-!
# Differences

The change between two rows names just the tracked fields that are written differently, in their order:
no fewer fields make the one row like the other, and no more are needed (`Row.changes_exact`). The walk along
the table of names finds the same and never loses step, since every name has its comparison
(`ChangeSet.walk_eq_ok_iff`).
-/

namespace BoardAudit

/-! ### Walks -/

namespace ChangeSet

/-- The names at the places of comparisons that differed. -/
def picked (names : List String) (comparisons : List Bool) : List String :=
  ((names.zip comparisons).filter Prod.snd).map Prod.fst

/-- Names and comparisons that both come from one list stand at the same places. -/
lemma picked_map {α : Type} (fs : List α) (name : α → String) (differs : α → Bool) :
    picked (fs.map name) (fs.map differs) = (fs.filter differs).map name := by
  rw [picked, List.zip_map', List.filter_map, List.map_map]
  rfl

/-- One comparison at the next name. -/
lemma track_append (passed : List String) (name : String) (rest fields : List String) (differs : Bool) :
    track ⟨passed ++ name :: rest, passed.length, fields⟩ differs =
      .ok ⟨passed ++ name :: rest, (passed ++ [name]).length, fields ++ picked [name] [differs]⟩ := by
  cases differs <;> simp [track, picked]

/-- All comparisons from some name on: there is one for each name that is left, or the walk fails. -/
lemma foldlM_track (passed rest fields : List String) (comparisons : List Bool) :
    (do let set ← comparisons.foldlM track ⟨passed ++ rest, passed.length, fields⟩; set.finish) =
      if comparisons.length = rest.length then .ok (fields ++ picked rest comparisons)
      else .error (if rest.length < comparisons.length then "more comparisons than tracked fields"
        else "every tracked field must be compared") := by
  induction comparisons generalizing passed rest fields with
  | nil =>
    cases rest with
    | nil => simp [finish, picked, bind, Except.bind, pure, Except.pure]
    | cons name rest => simp [finish, bind, Except.bind, pure, Except.pure]
  | cons differs comparisons ih =>
    cases rest with
    | nil => simp [track, bind, Except.bind]
    | cons name rest =>
      have hstep := ih (passed ++ [name]) rest (fields ++ picked [name] [differs])
      rw [List.append_assoc, List.singleton_append] at hstep
      have hpicked : picked (name :: rest) (differs :: comparisons) =
          picked [name] [differs] ++ picked rest comparisons := by
        cases differs <;> simp [picked]
      rw [List.foldlM_cons, track_append]
      simpa [hpicked, bind, Except.bind] using hstep

/-- A walk stays in step exactly if there is one comparison for each name, and then finds the names at
which something differed. -/
theorem walk_eq_ok_iff {names fields : List String} {comparisons : List Bool} :
    walk names comparisons = .ok fields ↔
      comparisons.length = names.length ∧ fields = picked names comparisons := by
  have hwalk := foldlM_track [] names [] comparisons
  rw [List.nil_append, List.length_nil] at hwalk
  rw [walk, start, hwalk]
  split
  · next h => simp [h, eq_comm]
  · next h => simp [h]

end ChangeSet

/-! ### What is written -/

/-- The value that is written for a field, if the field is written. -/
def Json.member? : Json → String → Option Json
  | .object members, name => members.lookup (some name)
  | _, _ => none

lemma Json.member?_record (members : List (String × Json)) (name : String) :
    (record members).member? name = members.lookup name := by
  simp only [record, member?]
  induction members with
  | nil => rfl
  | cons m members ih =>
    have hkey : (some name == some m.1) = (name == m.1) := rfl
    rw [List.map_cons, List.lookup_cons, List.lookup_cons, hkey, ih]

lemma Json.lookup_cons (key name : String) (v : Json) (members : List (String × Json)) :
    ((key, v) :: members).lookup name = if name = key then some v else members.lookup name := by
  by_cases h : name = key
  · simp [h]
  · have hbeq : (name == key) = false := beq_false_of_ne h
    rw [List.lookup_cons, hbeq, if_neg h]

lemma Json.text_injective : Function.Injective text := fun _ _ h => by simpa [text] using h

lemma Json.int_injective : Function.Injective int := fun a b h => by
  have hback := congrArg int? h
  rw [int?_int, int?_int] at hback
  exact Option.some.inj hback

lemma EntityId.toJson_injective : Function.Injective toJson := fun a b h => by
  have hback := congrArg ofJson? h
  rw [ofJson?_toJson, ofJson?_toJson] at hback
  exact Option.some.inj hback

lemma Instant.toJson_injective : Function.Injective toJson := fun a b h => by
  have hback := congrArg Json.instant? h
  rw [instant?_toJson, instant?_toJson] at hback
  exact Option.some.inj hback

namespace Row

variable {k : Kind}

/-- The value that is written for a field of a row. -/
def written? (k : Kind) (row : k.Row) (name : String) : Option Json := (toJson k row).member? name

lemma written?_project (p : Project) (name : String) : written? .project p name =
    if name = "id" then some p.id.toJson
    else if name = "name" then some (.text p.name)
    else if name = "description" then some (.text p.description)
    else if name = "status" then some (.text p.status)
    else none := by
  show (Project.toJson p).member? name = _
  simp only [Project.toJson, Json.member?_record, Json.lookup_cons, List.lookup_nil]

lemma written?_status (s : Status) (name : String) : written? .status s name =
    if name = "id" then some s.id.toJson
    else if name = "projectId" then some s.projectId.toJson
    else if name = "name" then some (.text s.name)
    else if name = "position" then some (.int s.position.toInt)
    else if name = "isDefault" then some (.bool s.isDefault)
    else none := by
  show (Status.toJson s).member? name = _
  simp only [Status.toJson, Json.member?_record, Json.lookup_cons, List.lookup_nil]

lemma written?_task (t : Task) (name : String) : written? .task t name =
    if name = "id" then some t.id.toJson
    else if name = "projectId" then some t.projectId.toJson
    else if name = "statusId" then some t.statusId.toJson
    else if name = "title" then some (.text t.title)
    else if name = "details" then some (.text t.details)
    else if name = "priority" then some (.int t.priority.toInt)
    else if name = "dueDate" then t.dueDate.map Instant.toJson
    else none := by
  show (Task.toJson t).member? name = _
  simp only [Task.toJson, Json.member?_record, List.cons_append, List.nil_append, Json.lookup_cons,
    Json.lookup_optionalMember]

/-- A tracked field is written differently exactly if its values differ. -/
lemma differs_iff {p c : k.Row} {f : Field k.Row} (hf : f ∈ tracked k) :
    f.differs p c = true ↔ written? k p f.name ≠ written? k c f.name := by
  have hint (a b : Int32) : Json.int a.toInt = Json.int b.toInt ↔ a = b :=
    Json.int_injective.eq_iff.trans Int32.toInt_inj
  have hdue (a b : Option Instant) : a.map Instant.toJson = b.map Instant.toJson ↔ a = b :=
    (Option.map_injective Instant.toJson_injective).eq_iff
  have hproject (p c : Project) : ∀ f ∈ Project.tracked,
      (f.differs p c = true ↔ written? .project p f.name ≠ written? .project c f.name) := by
    simp [Project.tracked, Field.of, written?_project, Json.text_injective.eq_iff]
  have hstatus (p c : Status) : ∀ f ∈ Status.tracked,
      (f.differs p c = true ↔ written? .status p f.name ≠ written? .status c f.name) := by
    simp [Status.tracked, Field.of, written?_status, Json.text_injective.eq_iff, hint]
  have htask (p c : Task) : ∀ f ∈ Task.tracked,
      (f.differs p c = true ↔ written? .task p f.name ≠ written? .task c f.name) := by
    simp [Task.tracked, Field.of, written?_task, Json.text_injective.eq_iff,
      EntityId.toJson_injective.eq_iff, hint, hdue]
  cases k with
  | project => exact hproject p c f hf
  | status => exact hstatus p c f hf
  | task => exact htask p c f hf

lemma map_name_tracked (k : Kind) : (tracked k).map Field.name = trackedNames k := by
  cases k <;> rfl

lemma map_differs_tracked (k : Kind) (p c : k.Row) :
    ((tracked k).map fun f => f.differs p c) = comparisons k p c := by
  cases k <;> rfl

lemma nodup_trackedNames (k : Kind) : (trackedNames k).Nodup := by
  cases k <;> decide

/-- What is written besides the tracked fields are ids. -/
lemma written?_of_not_tracked {row : k.Row} {name : String} (h : name ∉ trackedNames k)
    (hid : name ≠ "id") (hproject : name ≠ "projectId") : written? k row name = none := by
  cases k with
  | project =>
    obtain ⟨hname, hdescription, hstatus⟩ : name ≠ "name" ∧ name ≠ "description" ∧ name ≠ "status" := by
      simpa [trackedNames] using h
    refine (written?_project row name).trans ?_
    rw [if_neg hid, if_neg hname, if_neg hdescription, if_neg hstatus]
  | status =>
    obtain ⟨hname, hposition, hdefault⟩ : name ≠ "name" ∧ name ≠ "position" ∧ name ≠ "isDefault" := by
      simpa [trackedNames] using h
    refine (written?_status row name).trans ?_
    rw [if_neg hid, if_neg hproject, if_neg hname, if_neg hposition, if_neg hdefault]
  | task =>
    obtain ⟨htitle, hdetails, hstatus, hpriority, hdue⟩ : name ≠ "title" ∧ name ≠ "details" ∧
        name ≠ "statusId" ∧ name ≠ "priority" ∧ name ≠ "dueDate" := by
      simpa [trackedNames] using h
    refine (written?_task row name).trans ?_
    rw [if_neg hid, if_neg hproject, if_neg hstatus, if_neg htitle, if_neg hdetails, if_neg hpriority,
      if_neg hdue]

/-! ### Overwriting -/

/-- A row with the values of another one in the tracked fields with some names. -/
def overwrite (names : List String) : (k : Kind) → k.Row → k.Row → k.Row
  | .project, (c : Project), (p : Project) =>
    { p with
      name := if "name" ∈ names then c.name else p.name
      description := if "description" ∈ names then c.description else p.description
      status := if "status" ∈ names then c.status else p.status : Project }
  | .status, (c : Status), (p : Status) =>
    { p with
      name := if "name" ∈ names then c.name else p.name
      position := if "position" ∈ names then c.position else p.position
      isDefault := if "isDefault" ∈ names then c.isDefault else p.isDefault : Status }
  | .task, (c : Task), (p : Task) =>
    { p with
      title := if "title" ∈ names then c.title else p.title
      details := if "details" ∈ names then c.details else p.details
      statusId := if "statusId" ∈ names then c.statusId else p.statusId
      priority := if "priority" ∈ names then c.priority else p.priority
      dueDate := if "dueDate" ∈ names then c.dueDate else p.dueDate : Task }

/-- What is written of a tracked field is from the one row or from the other. -/
lemma written?_overwrite_of_tracked (names : List String) (c p : k.Row) {name : String}
    (h : name ∈ trackedNames k) : written? k (overwrite names k c p) name =
      if name ∈ names then written? k c name else written? k p name := by
  have hproject (c p : Project) : ∀ name ∈ trackedNames .project,
      written? .project (overwrite names .project c p) name =
        if name ∈ names then written? .project c name else written? .project p name := by
    simp only [trackedNames, List.forall_mem_cons, List.not_mem_nil, written?_project, overwrite]
    simp [apply_ite Json.text, apply_ite some]
  have hstatus (c p : Status) : ∀ name ∈ trackedNames .status,
      written? .status (overwrite names .status c p) name =
        if name ∈ names then written? .status c name else written? .status p name := by
    simp only [trackedNames, List.forall_mem_cons, List.not_mem_nil, written?_status, overwrite]
    simp [apply_ite Json.text, apply_ite Int32.toInt, apply_ite Json.int, apply_ite Json.bool, apply_ite some]
  have htask (c p : Task) : ∀ name ∈ trackedNames .task,
      written? .task (overwrite names .task c p) name =
        if name ∈ names then written? .task c name else written? .task p name := by
    simp only [trackedNames, List.forall_mem_cons, List.not_mem_nil, written?_task, overwrite]
    simp [apply_ite Json.text, apply_ite EntityId.toJson, apply_ite Int32.toInt, apply_ite Json.int,
      apply_ite (Option.map Instant.toJson), apply_ite some]
  cases k with
  | project => exact hproject c p name h
  | status => exact hstatus c p name h
  | task => exact htask c p name h

/-- All else is written as before. -/
lemma written?_overwrite_of_not_tracked (names : List String) (c p : k.Row) {name : String}
    (h : name ∉ trackedNames k) : written? k (overwrite names k c p) name = written? k p name := by
  have hproject (c p : Project) (h : name ∉ trackedNames .project) :
      written? .project (overwrite names .project c p) name = written? .project p name := by
    simp only [trackedNames, List.mem_cons, not_or] at h
    simp [overwrite, written?_project, h]
  have hstatus (c p : Status) (h : name ∉ trackedNames .status) :
      written? .status (overwrite names .status c p) name = written? .status p name := by
    simp only [trackedNames, List.mem_cons, not_or] at h
    simp [overwrite, written?_status, h]
  have htask (c p : Task) (h : name ∉ trackedNames .task) :
      written? .task (overwrite names .task c p) name = written? .task p name := by
    simp only [trackedNames, List.mem_cons, not_or] at h
    simp [overwrite, written?_task, h]
  cases k with
  | project => exact hproject c p h
  | status => exact hstatus c p h
  | task => exact htask c p h

/-- Of an overwritten row the named tracked fields are written as those of the other row, and all else
as before. -/
lemma written?_overwrite (names : List String) (c p : k.Row) (name : String) :
    written? k (overwrite names k c p) name =
      if name ∈ names ∧ name ∈ trackedNames k then written? k c name else written? k p name := by
  by_cases h : name ∈ trackedNames k
  · rw [written?_overwrite_of_tracked names c p h]
    simp only [h, and_true]
  · rw [written?_overwrite_of_not_tracked names c p h, if_neg fun hboth => h hboth.2]

/-! ### Changes -/

lemma sublist_changes (p c : k.Row) : (changes k p c).Sublist (trackedNames k) := by
  rw [changes, ← map_name_tracked]
  exact List.filter_sublist.map Field.name

lemma nodup_changes (p c : k.Row) : (changes k p c).Nodup :=
  (sublist_changes p c).nodup (nodup_trackedNames k)

lemma mem_changes_iff {p c : k.Row} {name : String} :
    name ∈ changes k p c ↔ name ∈ trackedNames k ∧ written? k p name ≠ written? k c name := by
  rw [← map_name_tracked]
  simp only [changes, List.mem_map, List.mem_filter]
  constructor
  · rintro ⟨f, ⟨hf, hd⟩, rfl⟩
    exact ⟨⟨f, hf, rfl⟩, (differs_iff hf).mp hd⟩
  · rintro ⟨⟨f, hf, rfl⟩, hd⟩
    exact ⟨f, ⟨hf, (differs_iff hf).mpr hd⟩, rfl⟩

/-- The walk along the names finds the fields that differ: names and comparisons stand in one order. -/
lemma walk_eq_changes (p c : k.Row) : walk k p c = .ok (changes k p c) := by
  rw [walk, ChangeSet.walk_eq_ok_iff, ← map_name_tracked, ← map_differs_tracked]
  refine ⟨by rw [List.length_map, List.length_map], ?_⟩
  rw [changes, ChangeSet.picked_map]

lemma changes_symm (p c : k.Row) : changes k c p = changes k p c := by
  have hfields : ∀ f ∈ tracked k, f.differs c p = f.differs p c := fun f hf => by
    rw [Bool.eq_iff_iff, differs_iff hf, differs_iff hf]
    exact ne_comm
  rw [changes, changes, List.filter_congr hfields]

/-- Only the fields without a given name are left. -/
lemma changes_overwrite (names : List String) (c p : k.Row) :
    changes k (overwrite names k c p) c = (changes k p c).filter (· ∉ names) := by
  have hfields : ∀ f ∈ tracked k, f.differs (overwrite names k c p) c =
      (decide (f.name ∉ names) && f.differs p c) := fun f hf => by
    have htracked : f.name ∈ trackedNames k := map_name_tracked k ▸ List.mem_map_of_mem hf
    rw [Bool.eq_iff_iff, Bool.and_eq_true, decide_eq_true_iff, differs_iff hf, differs_iff hf,
      written?_overwrite]
    by_cases hname : f.name ∈ names
    · simp [hname, htracked]
    · simp [hname]
  rw [changes, List.filter_congr hfields, changes, List.filter_map, List.filter_filter]
  rfl

lemma changes_eq_nil_iff {p c : k.Row} : changes k p c = [] ↔
    ∀ name, name ≠ "id" → name ≠ "projectId" → written? k p name = written? k c name := by
  have htracked : ∀ name ∈ trackedNames k, name ≠ "id" ∧ name ≠ "projectId" := by
    cases k <;> decide
  rw [List.eq_nil_iff_forall_not_mem]
  simp only [mem_changes_iff, not_and_not_right]
  constructor
  · intro h name hid hproject
    by_cases ht : name ∈ trackedNames k
    · exact h name ht
    · rw [written?_of_not_tracked ht hid hproject, written?_of_not_tracked ht hid hproject]
  · intro h name ht
    exact h name (htracked name ht).1 (htracked name ht).2

/-- With all changed fields but one overwritten, that one is left. -/
lemma changes_overwrite_erase {p c : k.Row} {name : String} (h : name ∈ changes k p c) :
    changes k (overwrite ((changes k p c).erase name) k c p) c = [name] := by
  have hnodup := nodup_changes p c
  have hleft : ∀ n ∈ changes k p c,
      decide (n ∉ (changes k p c).erase name) = (n == name) := fun n hn => by
    rw [Bool.eq_iff_iff, decide_eq_true_iff, beq_iff_eq, hnodup.mem_erase_iff]
    simp only [hn, and_true, not_not]
  rw [changes_overwrite, List.filter_congr hleft, List.filter_beq, List.count_eq_one_of_mem hnodup h]
  rfl

/-- What differs from one row to a third one differs from it to a second one or from there on. -/
lemma changes_subset (p q c : k.Row) : changes k p q ⊆ changes k p c ++ changes k c q := by
  intro name h
  rw [List.mem_append]
  simp only [mem_changes_iff] at h ⊢
  by_cases hc : written? k p name = written? k c name
  · exact .inr ⟨h.1, hc ▸ h.2⟩
  · exact .inl ⟨h.1, hc⟩

/-- The change between two rows is exact and minimal: the walk along the table of names finds, each once
and in the order of the table, the tracked fields that are written differently. With the values of those
fields taken from the one row, the other has no change left to it; with one of them not taken, this one
is left. Changes are the same in both directions, there are none exactly if the rows are written alike but
for their ids, and they are found again in those to and from any row between. -/
theorem changes_exact (k : Kind) (p c : k.Row) :
    walk k p c = .ok (changes k p c) ∧
    (changes k p c).Sublist (trackedNames k) ∧
    (changes k p c).Nodup ∧
    (∀ name, name ∈ changes k p c ↔ name ∈ trackedNames k ∧ written? k p name ≠ written? k c name) ∧
    (∀ names name, written? k (overwrite names k c p) name =
      if name ∈ names ∧ name ∈ trackedNames k then written? k c name else written? k p name) ∧
    changes k (overwrite (changes k p c) k c p) c = [] ∧
    (∀ name ∈ changes k p c, changes k (overwrite ((changes k p c).erase name) k c p) c = [name]) ∧
    changes k c p = changes k p c ∧
    (changes k p c = [] ↔
      ∀ name, name ≠ "id" → name ≠ "projectId" → written? k p name = written? k c name) ∧
    ∀ q, changes k p q ⊆ changes k p c ++ changes k c q := by
  have hall : changes k (overwrite (changes k p c) k c p) c = [] := by
    rw [changes_overwrite, List.filter_eq_nil_iff]
    intro name h
    simpa using h
  exact ⟨walk_eq_changes p c, sublist_changes p c, nodup_changes p c, fun _ => mem_changes_iff,
    fun names name => written?_overwrite names c p name, hall, fun _ => changes_overwrite_erase,
    changes_symm p c, changes_eq_nil_iff, fun q => changes_subset p q c⟩

/-- A task that moved to another project and got a new title and a due date: with the title taken over,
the due date is left. -/
theorem changes_exact_of_two :
    let id : EntityId := ⟨1, by decide⟩
    let p : Task := ⟨id, id, id, "a", "", 0, none⟩
    let c : Task := ⟨id, ⟨2, by decide⟩, id, "b", "", 0, some .epoch⟩
    walk .task p c = .ok ["title", "dueDate"] ∧
    changes .task (overwrite ["title", "dueDate"] .task c p) c = [] ∧
    changes .task (overwrite ["dueDate"] .task c p) c = ["title"] := by
  intro id p c
  have hchanges : changes .task p c = ["title", "dueDate"] := by decide
  obtain ⟨hwalk, -, -, -, -, hall, hone, -⟩ := changes_exact .task p c
  rw [hchanges] at hwalk hall hone
  exact ⟨hwalk, hall, hone "title" (by decide)⟩

end Row

end BoardAudit
