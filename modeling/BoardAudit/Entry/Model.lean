import BoardAudit.Board.Row
import BoardAudit.Json.Magnitude

/-!
# Audit entries

An entry refers to its project and, where it is about one, to a task or a status. A sink gives a
written entry an id of its own. A written entry is read from an object only, and what else that
object holds must be holdable.
-/

namespace BoardAudit

/-- The entities that an entry refers to. -/
structure Refs where
  projectId : EntityId
  taskId : Option EntityId
  statusId : Option EntityId
  deriving DecidableEq

/-- An audit entry: what it refers to, its text and when it was made. -/
structure LogModel extends Refs where
  entry : String
  createdAt : Instant
  deriving DecidableEq

/-- An audit entry in a sink. -/
structure LogEntry where
  id : EntityId
  log : LogModel
  deriving DecidableEq

namespace Row

/-- What entries about a row refer to. -/
def refs : (k : Kind) → k.Row → Refs
  | .project, p => ⟨p.id, none, none⟩
  | .status, s => ⟨s.projectId, none, some s.id⟩
  | .task, t => ⟨t.projectId, some t.id, none⟩

/-- What entries about a row's change of status refer to. -/
def statusChangeRefs : (k : Kind) → k.Row → Refs
  | .task, t => { refs .task t with statusId := some (Task.statusId t) }
  | k, r => refs k r

end Row

/-! ### JSON -/

namespace LogModel

def fieldNames : List String := ["projectId", "taskId", "statusId", "entry", "createdAt"]

/-- The members of an audit entry, without the ids that it has not. -/
def members (m : LogModel) : List (String × Json) :=
  [("projectId", m.projectId.toJson)] ++
    Json.optionalMember "taskId" (m.taskId.map EntityId.toJson) ++
    Json.optionalMember "statusId" (m.statusId.map EntityId.toJson) ++
    [("entry", .text m.entry), ("createdAt", m.createdAt.toJson)]

def toJson (m : LogModel) : Json := .record m.members

/-- The audit entry of its fields. -/
def ofFields? (fields : Json.Fields) : Option LogModel := do
  some {
    projectId := ← fields.require "projectId" EntityId.ofJson?
    taskId := ← fields.optional "taskId" EntityId.ofJson?
    statusId := ← fields.optional "statusId" EntityId.ofJson?
    entry := ← fields.require "entry" Json.text?
    createdAt := ← fields.require "createdAt" Json.instant? }

def ofJson? (j : Json) : Option LogModel := (j.fields? fieldNames).bind ofFields?

end LogModel

namespace LogEntry

/-- A written entry: its id, then the audit entry. -/
def toJson (e : LogEntry) : Json := .record (("id", e.id.toJson) :: e.log.members)

def ofJson? : Json → Option LogEntry
  | .object members => do
    if members.all fun m => m.1 == some "id" || m.2.isHoldable then
      let fields ← Json.members? ("id" :: LogModel.fieldNames) members
      some {
        id := ← fields.require "id" EntityId.ofJson?
        log := ← LogModel.ofFields? fields }
    else none
  | _ => none

end LogEntry

end BoardAudit
