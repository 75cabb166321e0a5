import BoardAudit.Kind

/-!
# The text of an entry

A kind and an action with a point between them, and behind a colon the changed fields, if there are
any, with commas between them.
-/

namespace BoardAudit

/-- The text of an entry about an action on a kind of entity. -/
def entryText (kind : Kind) (action : Action) (fields : List String) : String :=
  let subject := kind.name ++ "." ++ action.name
  match fields with
  | [] => subject
  | _ => subject ++ ":" ++ String.intercalate "," fields

end BoardAudit
