import BoardAudit.Error
import BoardAudit.Text.Blank
import Std.Data.ExtTreeMap

/-!
# Triggers

A trigger says that something happened to an entity, with notes of the one who says it. Triggers of
one key, the kind and the id, are about the same entity. Names of kinds and actions may stand between
blank characters.
-/

namespace BoardAudit

/-- Notes by key, in the order of the keys. -/
abbrev Metadata := Std.ExtTreeMap String String

/-- Something happened to an entity. -/
structure Trigger where
  kind : Kind
  id : EntityId
  action : Action
  metadata : Metadata
  deriving DecidableEq

/-- The entity that a trigger is about. -/
structure Key where
  kind : Kind
  id : EntityId
  deriving DecidableEq

namespace Key

/-- Keys are ordered by kind, then by id. -/
instance : Ord Key := ⟨compareLex (compareOn fun k => k.kind.index) (compareOn Key.id)⟩

instance : Std.TransOrd Key :=
  inferInstanceAs (Std.TransCmp (compareLex (compareOn fun k : Key => k.kind.index) (compareOn Key.id)))

instance : Std.LawfulEqOrd Key where
  eq_of_compare {a b} h := by
    have h : compareLex (compareOn fun k : Key => k.kind.index) (compareOn Key.id) a b = .eq := h
    rw [compareLex_eq_eq] at h
    have hk := Kind.index_injective (Std.LawfulEqOrd.eq_of_compare (show compare _ _ = _ from h.1))
    have hi := Std.LawfulEqOrd.eq_of_compare (show compare a.id b.id = _ from h.2)
    cases a
    cases b
    simp_all

end Key

/-! ### Names between blanks -/

/-- The kind that a text names. -/
def Kind.ofText (s : String) : Except TriggerError Kind :=
  let name := String.ofList (Text.trim s.toList)
  match Kind.ofName? name with
  | some k => .ok k
  | none => .error (if name = "" then .emptyKind else .unknownKind name)

/-- The action that a text names. -/
def Action.ofText (s : String) : Except TriggerError Action :=
  let name := String.ofList (Text.trim s.toList)
  match Action.ofName? name with
  | some a => .ok a
  | none => .error (.unknownAction name)

/-! ### Making triggers -/

namespace Trigger

def key (t : Trigger) : Key := ⟨t.kind, t.id⟩

/-- A trigger about an entity; the nil id names none. -/
def make (kind : Kind) (id : EntityId) (action : Action) (metadata : Metadata) :
    Except TriggerError Trigger :=
  if id.isNil then .error .emptyId else .ok ⟨kind, id, action, metadata⟩

/-- A trigger without notes from the names of its kind and its action, which are read in this order
before the id is looked at. -/
def parse (kind : String) (id : EntityId) (action : String) : Except TriggerError Trigger := do
  make (← Kind.ofText kind) id (← Action.ofText action) ∅

/-- A trigger from the names of its kind and its action. Of several faults the kind's is told first,
then the action's, then the id's. -/
def ofNames (kind : String) (id : EntityId) (action : String) (metadata : Metadata) :
    Except TriggerError Trigger := do
  let kind ← Kind.ofText kind
  let action ← Action.ofText action
  make kind id action metadata

end Trigger

end BoardAudit
