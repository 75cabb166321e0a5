import BoardAudit.Entry.Model
import BoardAudit.Proofs.Calendar.Reading
import BoardAudit.Proofs.Json.Records

/-!
# Reading back what is exchanged

Rows, audit entries and triggers read back from what they are written as. Every field has a value that
reads back; a field that is left out is read as what it was left out for.
-/

namespace BoardAudit

open Json (fields?_record)

/-! ### Values of fields -/

@[simp] lemma EntityId.ofJson?_toJson (id : EntityId) : ofJson? id.toJson = some id := by
  rw [ofJson?, toJson, Json.text?_text, Option.bind_some, ofString?, EntityId.toString,
    String.toList_ofList, ofText?_toText]

@[simp] lemma Kind.ofJson?_toJson (k : Kind) : ofJson? k.toJson = some k := ofName?_name k

@[simp] lemma Action.ofJson?_toJson (a : Action) : ofJson? a.toJson = some a := ofName?_name a

@[simp] lemma Instant.instant?_toJson (i : Instant) : i.toJson.instant? = some i := by
  rw [Json.instant?, toJson, Json.text?_text, Option.bind_some, ofString?_toString]

@[simp] lemma Json.int32?_int (n : Int32) : (Json.int n.toInt).int32? = some n := by
  rw [int32?, int?_int, Option.bind_eq_bind, Option.bind_some,
    if_pos ⟨n.minValue_le_toInt, n.toInt_le⟩, Int32.ofInt_toInt]

/-! ### Notes -/

namespace Metadata

lemma insertMembers?_text (m : Metadata) (notes : List (String × String)) :
    insertMembers? m (notes.map fun note => (some note.1, .text note.2)) = some (m.insertMany notes) := by
  induction notes generalizing m with
  | nil => rw [List.map_nil, insertMembers?, Std.ExtTreeMap.insertMany_nil]
  | cons note notes ih =>
    rw [List.map_cons, insertMembers?, Json.text?_text, Std.ExtTreeMap.insertMany_cons, ← ih]
    rfl

/-- Notes are what is listed of them. -/
lemma insertMany_toList (m : Metadata) : (∅ : Metadata).insertMany m.toList = m := by
  refine Std.ExtTreeMap.ext_getElem? fun key => ?_
  cases h : m[key]? with
  | none =>
    have habsent : (m.toList.map Prod.fst).contains key = false := by
      have hmem : key ∉ m := by simp [Std.ExtTreeMap.mem_iff_isSome_getElem?, h]
      simpa using hmem
    rw [Std.ExtTreeMap.getElem?_insertMany_list_of_contains_eq_false habsent]
    exact Std.ExtTreeMap.getElem?_empty
  | some note =>
    exact Std.ExtTreeMap.getElem?_insertMany_list_of_mem Std.ReflCmp.compare_self
      Std.ExtTreeMap.distinct_keys_toList (Std.ExtTreeMap.mem_toList_iff_getElem?_eq_some.mpr h)

@[simp] theorem ofJson?_toJson (m : Metadata) : ofJson? m.toJson = some m := by
  rw [toJson, Json.record, List.map_map, ofJson?]
  exact (insertMembers?_text ∅ m.toList).trans (congrArg some (insertMany_toList m))

end Metadata

/-! ### Records -/

@[simp] lemma Json.lookup_optionalMember (key name : String) (v : Option Json) :
    (optionalMember name v).lookup key = if key = name then v else none := by
  cases v with
  | none => simp [optionalMember]
  | some v =>
    by_cases h : key = name
    · simp [optionalMember, h]
    · have hbeq : (key == name) = false := beq_false_of_ne h
      simp [optionalMember, List.lookup_cons, h, hbeq]

lemma Json.keys_optionalMember (name : String) (v : Option Json) :
    ((optionalMember name v).map Prod.fst).Sublist [name] := by
  cases v <;> simp [optionalMember]

lemma Instant.toJson_ne_null (i : Instant) : i.toJson ≠ .null := by simp [toJson, Json.text]

lemma EntityId.toJson_ne_null (id : EntityId) : id.toJson ≠ .null := by simp [toJson, Json.text]

namespace Project

theorem ofJson?_toJson (p : Project) : ofJson? p.toJson = some p := by
  rw [ofJson?, toJson, fields?_record ?_ (by decide)]
  · simp [Json.Fields.require, List.lookup_cons]
  · exact List.Sublist.refl fieldNames

end Project

namespace Status

theorem ofJson?_toJson (s : Status) : ofJson? s.toJson = some s := by
  rw [ofJson?, toJson, fields?_record ?_ (by decide)]
  · simp [Json.Fields.require, List.lookup_cons]
  · exact List.Sublist.refl fieldNames

end Status

namespace Task

theorem ofJson?_toJson (t : Task) : ofJson? t.toJson = some t := by
  rw [ofJson?, toJson, fields?_record ?_ (by decide)]
  · rw [Option.bind_eq_bind, Option.bind_some,
      Json.Fields.optional_map Instant.toJson t.dueDate ?_ Instant.toJson_ne_null Instant.instant?_toJson]
    · simp [Json.Fields.require, List.lookup_cons]
    · simp [List.lookup_cons]
  · have hdue := Json.keys_optionalMember "dueDate" (t.dueDate.map Instant.toJson)
    rw [List.map_append]
    exact (List.Sublist.refl ["id", "projectId", "statusId", "title", "details", "priority"]).append hdue

end Task

namespace LogModel

lemma keys_members (m : LogModel) : (m.members.map Prod.fst).Sublist fieldNames := by
  have htask := Json.keys_optionalMember "taskId" (m.taskId.map EntityId.toJson)
  have hstatus := Json.keys_optionalMember "statusId" (m.statusId.map EntityId.toJson)
  simp only [members, List.map_append]
  exact (((List.Sublist.refl ["projectId"]).append htask).append hstatus).append (.refl _)

/-- Fields that agree with the members of an audit entry read as this entry. -/
lemma ofFields?_of {m : LogModel} {fields : Json.Fields}
    (h : ∀ key ∈ fieldNames, fields.lookup key = m.members.lookup key) : ofFields? fields = some m := by
  obtain ⟨hproject, htask, hstatus, hentry, hcreated⟩ :
      fields.lookup "projectId" = some m.projectId.toJson ∧
      fields.lookup "taskId" = m.taskId.map EntityId.toJson ∧
      fields.lookup "statusId" = m.statusId.map EntityId.toJson ∧
      fields.lookup "entry" = some (.text m.entry) ∧
      fields.lookup "createdAt" = some m.createdAt.toJson := by
    simpa [fieldNames, members, List.lookup_cons, List.lookup_append] using h
  have htaskId := Json.Fields.optional_map _ _ htask EntityId.toJson_ne_null EntityId.ofJson?_toJson
  have hstatusId := Json.Fields.optional_map _ _ hstatus EntityId.toJson_ne_null EntityId.ofJson?_toJson
  simp [ofFields?, Json.Fields.require, hproject, htaskId, hstatusId, hentry, hcreated]

theorem ofJson?_toJson (m : LogModel) : ofJson? m.toJson = some m := by
  rw [ofJson?, toJson, fields?_record m.keys_members (by decide), Option.bind_some]
  exact ofFields?_of fun _ _ => rfl

end LogModel

namespace LogEntry

/-- What is written of an audit entry can be held in any object. -/
lemma isHoldable_members (m : LogModel) : ∀ member ∈ m.members, member.2.isHoldable = true := by
  have htext (s : String) : (Json.text s).isHoldable = true := rfl
  obtain ⟨⟨projectId, taskId, statusId⟩, entry, createdAt⟩ := m
  cases taskId <;> cases statusId <;>
    simp [LogModel.members, Json.optionalMember, EntityId.toJson, Instant.toJson, htext]

theorem ofJson?_toJson (e : LogEntry) : ofJson? e.toJson = some e := by
  have hhold : ((("id", e.id.toJson) :: e.log.members).map fun m => (some m.1, m.2)).all
      (fun m => m.1 == some "id" || m.2.isHoldable) = true := by
    simpa using fun key value hm => Or.inr (isHoldable_members e.log (key, value) hm)
  have hkeys : ((("id", e.id.toJson) :: e.log.members).map Prod.fst).Sublist
      ("id" :: LogModel.fieldNames) := e.log.keys_members.cons_cons "id"
  have hfields : Json.members? ("id" :: LogModel.fieldNames)
      ((("id", e.id.toJson) :: e.log.members).map fun m => (some m.1, m.2)) =
        some (("id", e.id.toJson) :: e.log.members) := fields?_record hkeys (by decide)
  have hlog : LogModel.ofFields? (("id", e.id.toJson) :: e.log.members) = some e.log := by
    apply LogModel.ofFields?_of
    intro key hkey
    have hne : (key == "id") = false := by
      revert key
      decide
    simp [List.lookup_cons, hne]
  rw [toJson, Json.record, ofJson?, if_pos hhold, hfields]
  simp [Json.Fields.require, hlog]

end LogEntry

namespace Trigger

theorem ofJson?_toJson (t : Trigger) : ofJson? t.toJson = some t := by
  rw [ofJson?, toJson, fields?_record ?_ (by decide)]
  · by_cases h : t.metadata.isEmpty = true
    · have hnone : t.metadata = ∅ := Std.ExtTreeMap.isEmpty_iff.mp h
      simp [Json.Fields.require, Json.Fields.withDefault, List.lookup_cons, h, ← hnone]
    · simp [Json.Fields.require, Json.Fields.withDefault, List.lookup_cons, h]
  · split
    · exact (List.Sublist.refl ["kind", "entity_id", "action"]).trans (by simp [fieldNames])
    · exact .refl _

end Trigger

/-! ### Texts -/

namespace Json.Codec

/-- The codecs of rows, of audit entries before and after they are written, and of triggers. -/
def project : Codec Project := ⟨Project.toJson, Project.ofJson?⟩

def status : Codec Status := ⟨Status.toJson, Status.ofJson?⟩

def task : Codec Task := ⟨Task.toJson, Task.ofJson?⟩

def logModel : Codec LogModel := ⟨LogModel.toJson, LogModel.ofJson?⟩

def logEntry : Codec LogEntry := ⟨LogEntry.toJson, LogEntry.ofJson?⟩

def trigger : Codec Trigger := ⟨Trigger.toJson, Trigger.ofJson?⟩

/-- What is exchanged is read from its text, and a text of it in any spelling means the same as the one
that is written for what it spells. -/
theorem exchanged_exact : project.Exact ∧ status.Exact ∧ task.Exact ∧ logModel.Exact ∧
    logEntry.Exact ∧ trigger.Exact :=
  ⟨exact_of Project.ofJson?_toJson, exact_of Status.ofJson?_toJson, exact_of Task.ofJson?_toJson,
    exact_of LogModel.ofJson?_toJson, exact_of LogEntry.ofJson?_toJson, exact_of Trigger.ofJson?_toJson⟩

end Json.Codec

end BoardAudit
