import BoardAudit.Json.Record

/-!
# Kinds and actions

The three kinds of entity on a board and the four things that happen to one, each with its name.
-/

namespace BoardAudit

/-- A kind of entity. -/
inductive Kind where
  | project
  | status
  | task
  deriving DecidableEq

/-- What happened to an entity. -/
inductive Action where
  | created
  | updated
  | deleted
  | statusChanged
  deriving DecidableEq

namespace Kind

def all : List Kind := [.project, .status, .task]

/-- The place of a kind among all kinds. -/
def index : Kind → Nat
  | .project => 0
  | .status => 1
  | .task => 2

def name : Kind → String
  | .project => "project"
  | .status => "status"
  | .task => "task"

def ofName? : String → Option Kind
  | "project" => some .project
  | "status" => some .status
  | "task" => some .task
  | _ => none

def toJson (k : Kind) : Json := .text k.name

def ofJson? (j : Json) : Option Kind := j.caseName?.bind ofName?

theorem ofName?_name (k : Kind) : ofName? k.name = some k := by cases k <;> rfl

theorem ofName?_eq_some_iff {s : String} {k : Kind} : ofName? s = some k ↔ s = k.name := by
  refine ⟨fun h => ?_, fun h => h ▸ ofName?_name k⟩
  unfold ofName? at h
  split at h <;> cases h <;> rfl

theorem index_injective {a b : Kind} (h : a.index = b.index) : a = b := by
  cases a <;> cases b <;> first | rfl | cases h

end Kind

namespace Action

def name : Action → String
  | .created => "created"
  | .updated => "updated"
  | .deleted => "deleted"
  | .statusChanged => "status_changed"

def ofName? : String → Option Action
  | "created" => some .created
  | "updated" => some .updated
  | "deleted" => some .deleted
  | "status_changed" => some .statusChanged
  | _ => none

def toJson (a : Action) : Json := .text a.name

def ofJson? (j : Json) : Option Action := j.caseName?.bind ofName?

theorem ofName?_name (a : Action) : ofName? a.name = some a := by cases a <;> rfl

theorem ofName?_eq_some_iff {s : String} {a : Action} : ofName? s = some a ↔ s = a.name := by
  refine ⟨fun h => ?_, fun h => h ▸ ofName?_name a⟩
  unfold ofName? at h
  split at h <;> cases h <;> rfl

end Action

end BoardAudit
