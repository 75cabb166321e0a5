import BoardAudit.Calendar.Text
import BoardAudit.Trigger.Json

/-!
# Rows of a board

A board has projects, their statuses and their tasks. A row is the current state of one of them. Rows
are read from JSON objects, or from arrays of their fields.
-/

namespace BoardAudit

/-- The state of a project. -/
structure Project where
  id : EntityId
  name : String
  description : String
  status : String
  deriving DecidableEq

/-- The state of a status: a column of a project's board. -/
structure Status where
  id : EntityId
  projectId : EntityId
  name : String
  position : Int32
  isDefault : Bool
  deriving DecidableEq

/-- The state of a task, which stands in a status of its project. -/
structure Task where
  id : EntityId
  projectId : EntityId
  statusId : EntityId
  title : String
  details : String
  priority : Int32
  dueDate : Option Instant
  deriving DecidableEq

/-- The rows of a kind. -/
def Kind.Row : Kind → Type
  | .project => Project
  | .status => Status
  | .task => Task

instance (k : Kind) : DecidableEq k.Row :=
  match k with
  | .project => inferInstanceAs (DecidableEq Project)
  | .status => inferInstanceAs (DecidableEq Status)
  | .task => inferInstanceAs (DecidableEq Task)

/-! ### New rows -/

/-- An active project without a description. -/
def Project.new (id : EntityId) (name : String) : Project := ⟨id, name, "", "active"⟩

/-- A status that is not the default one. -/
def Status.new (id projectId : EntityId) (name : String) (position : Int32) : Status :=
  ⟨id, projectId, name, position, false⟩

/-- A task of priority zero without details and without a due date. -/
def Task.new (id projectId statusId : EntityId) (title : String) : Task :=
  ⟨id, projectId, statusId, title, "", 0, none⟩

/-! ### JSON -/

namespace Json

def int32? (j : Json) : Option Int32 := do
  let n ← j.int?
  if Int32.minValue.toInt ≤ n ∧ n ≤ Int32.maxValue.toInt then some (Int32.ofInt n) else none

def instant? (j : Json) : Option Instant := j.text?.bind Instant.ofString?

end Json

def Instant.toJson (i : Instant) : Json := .text i.toString

/-- The member of a field that is left out when it has no value. -/
def Json.optionalMember (name : String) : Option Json → List (String × Json)
  | none => []
  | some value => [(name, value)]

namespace Project

def fieldNames : List String := ["id", "name", "description", "status"]

def toJson (p : Project) : Json :=
  .record [("id", p.id.toJson), ("name", .text p.name), ("description", .text p.description),
    ("status", .text p.status)]

def ofJson? (j : Json) : Option Project := do
  let fields ← j.fields? fieldNames
  some {
    id := ← fields.require "id" EntityId.ofJson?
    name := ← fields.require "name" Json.text?
    description := ← fields.require "description" Json.text?
    status := ← fields.require "status" Json.text? }

end Project

namespace Status

def fieldNames : List String := ["id", "projectId", "name", "position", "isDefault"]

def toJson (s : Status) : Json :=
  .record [("id", s.id.toJson), ("projectId", s.projectId.toJson), ("name", .text s.name),
    ("position", .int s.position.toInt), ("isDefault", .bool s.isDefault)]

def ofJson? (j : Json) : Option Status := do
  let fields ← j.fields? fieldNames
  some {
    id := ← fields.require "id" EntityId.ofJson?
    projectId := ← fields.require "projectId" EntityId.ofJson?
    name := ← fields.require "name" Json.text?
    position := ← fields.require "position" Json.int32?
    isDefault := ← fields.require "isDefault" Json.bool? }

end Status

namespace Task

def fieldNames : List String :=
  ["id", "projectId", "statusId", "title", "details", "priority", "dueDate"]

/-- A task with its fields in order, without the due date when there is none. -/
def toJson (t : Task) : Json :=
  .record ([("id", t.id.toJson), ("projectId", t.projectId.toJson),
    ("statusId", t.statusId.toJson), ("title", .text t.title), ("details", .text t.details),
    ("priority", .int t.priority.toInt)] ++
    Json.optionalMember "dueDate" (t.dueDate.map Instant.toJson))

def ofJson? (j : Json) : Option Task := do
  let fields ← j.fields? fieldNames
  some {
    id := ← fields.require "id" EntityId.ofJson?
    projectId := ← fields.require "projectId" EntityId.ofJson?
    statusId := ← fields.require "statusId" EntityId.ofJson?
    title := ← fields.require "title" Json.text?
    details := ← fields.require "details" Json.text?
    priority := ← fields.require "priority" Json.int32?
    dueDate := ← fields.optional "dueDate" Json.instant? }

end Task

namespace Row

def toJson : (k : Kind) → k.Row → Json
  | .project => Project.toJson
  | .status => Status.toJson
  | .task => Task.toJson

def ofJson? : (k : Kind) → Json → Option k.Row
  | .project => Project.ofJson?
  | .status => Status.ofJson?
  | .task => Task.ofJson?

def id : (k : Kind) → k.Row → EntityId
  | .project => Project.id
  | .status => Status.id
  | .task => Task.id

end Row

end BoardAudit
