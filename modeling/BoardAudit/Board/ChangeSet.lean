import BoardAudit.Board.Changes

/-!
# Change sets

The names of the tracked fields of a kind stand in a table, and two rows are compared field by field in
the order of the table. A change set walks along the names, with one comparison at each of them.
-/

namespace BoardAudit

/-- How far a walk along names is, and at which of the names something differed. -/
structure ChangeSet where
  names : List String
  next : Nat
  fields : List String

namespace ChangeSet

def start (names : List String) : ChangeSet := ⟨names, 0, []⟩

/-- The comparison at the next name. There has to be one. -/
def track (set : ChangeSet) (differs : Bool) : Except String ChangeSet :=
  match set.names[set.next]? with
  | some name => .ok { set with
      next := set.next + 1
      fields := if differs then set.fields ++ [name] else set.fields }
  | none => .error "more comparisons than tracked fields"

/-- The names at which something differed. All names have to be passed. -/
def finish (set : ChangeSet) : Except String (List String) :=
  if set.next = set.names.length then .ok set.fields
  else .error "every tracked field must be compared"

/-- Walks along names with the comparisons one after the other. -/
def walk (names : List String) (comparisons : List Bool) : Except String (List String) := do
  let set ← comparisons.foldlM track (start names)
  set.finish

end ChangeSet

namespace Row

/-- The names of the tracked fields of a kind. -/
def trackedNames : Kind → List String
  | .project => ["name", "description", "status"]
  | .status => ["name", "position", "isDefault"]
  | .task => ["title", "details", "statusId", "priority", "dueDate"]

/-- The comparisons of two rows. -/
def comparisons : (k : Kind) → k.Row → k.Row → List Bool
  | .project, (p : Project), (c : Project) =>
    [decide (p.name ≠ c.name), decide (p.description ≠ c.description), decide (p.status ≠ c.status)]
  | .status, (p : Status), (c : Status) =>
    [decide (p.name ≠ c.name), decide (p.position ≠ c.position), decide (p.isDefault ≠ c.isDefault)]
  | .task, (p : Task), (c : Task) =>
    [decide (p.title ≠ c.title), decide (p.details ≠ c.details), decide (p.statusId ≠ c.statusId),
      decide (p.priority ≠ c.priority), decide (p.dueDate ≠ c.dueDate)]

/-- The names of the tracked fields in which two rows differ, found on a walk. -/
def walk (k : Kind) (previous current : k.Row) : Except String (List String) :=
  ChangeSet.walk (trackedNames k) (comparisons k previous current)

end Row

end BoardAudit
