import BoardAudit.Board.Row

/-!
# Changes between rows

Of every kind of row some fields are tracked, in a fixed order. The change between two rows is the
list of the tracked fields that differ.
-/

namespace BoardAudit

/-- A tracked field: its name, and whether two rows differ in it. -/
structure Field (α : Type) where
  name : String
  differs : α → α → Bool

/-- The field with a name and a value. -/
def Field.of {α β : Type} [DecidableEq β] (name : String) (value : α → β) : Field α :=
  ⟨name, fun a b => decide (value a ≠ value b)⟩

def Project.tracked : List (Field Project) :=
  [.of "name" Project.name, .of "description" Project.description, .of "status" Project.status]

def Status.tracked : List (Field Status) :=
  [.of "name" Status.name, .of "position" Status.position, .of "isDefault" Status.isDefault]

def Task.tracked : List (Field Task) :=
  [.of "title" Task.title, .of "details" Task.details, .of "statusId" Task.statusId,
    .of "priority" Task.priority, .of "dueDate" Task.dueDate]

namespace Row

/-- The tracked fields of a kind. -/
def tracked : (k : Kind) → List (Field k.Row)
  | .project => Project.tracked
  | .status => Status.tracked
  | .task => Task.tracked

/-- The names of the tracked fields in which two rows differ. -/
def changes (k : Kind) (previous current : k.Row) : List String :=
  ((tracked k).filter fun f => f.differs previous current).map Field.name

end Row

/-- Whether a kind has changes of status. -/
def Kind.hasStatusChanges : Kind → Bool
  | .task => true
  | _ => false

end BoardAudit
