import BoardAudit.Json.Printer
import BoardAudit.Json.Parser
import BoardAudit.Trigger.Basic

/-!
# Triggers as JSON

Ids are strings. Notes are an object of strings in the order of their keys, left out when there are
none; of a repeated key the last value counts. A nil id is read like any other.
-/

namespace BoardAudit

namespace EntityId

def toJson (id : EntityId) : Json := .text id.toString

def ofJson? (j : Json) : Option EntityId := j.text?.bind ofString?

end EntityId

namespace Metadata

/-- Notes are written in the order of their keys. -/
def toJson (m : Metadata) : Json := .record (m.toList.map fun (k, v) => (k, .text v))

/-- Adds the members of an object, the later ones over the earlier ones. -/
def insertMembers? (m : Metadata) : List (Option String × Json) → Option Metadata
  | [] => some m
  | (key, value) :: members => do
    insertMembers? (m.insert (← key) (← value.text?)) members

def ofJson? : Json → Option Metadata
  | .object members => insertMembers? ∅ members
  | _ => none

end Metadata

namespace Trigger

def fieldNames : List String := ["kind", "entity_id", "action", "metadata"]

/-- A trigger is written without its notes when there are none. -/
def toJson (t : Trigger) : Json :=
  .record ([("kind", t.kind.toJson), ("entity_id", t.id.toJson), ("action", t.action.toJson)] ++
    if t.metadata.isEmpty then [] else [("metadata", Metadata.toJson t.metadata)])

def ofJson? (j : Json) : Option Trigger := do
  let fields ← j.fields? fieldNames
  some {
    kind := ← fields.require "kind" Kind.ofJson?
    id := ← fields.require "entity_id" EntityId.ofJson?
    action := ← fields.require "action" Action.ofJson?
    metadata := ← fields.withDefault "metadata" ∅ Metadata.ofJson? }

end Trigger

end BoardAudit
