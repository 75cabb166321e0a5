import BoardAudit.Json.Value

/-!
# Records

Records with named fields, read from an object or from an array of the fields in their order. An
object may hold other members, but no field twice, and its keys are texts; an array holds nothing
beyond the fields. Enumerations are read from their name, or from an object that maps it to `null`.
-/

namespace BoardAudit.Json

/-- The fields that a value gives, each at most once. -/
abbrev Fields := List (String × Json)

/-- The members of an object among `names`, unless a name is repeated or a key is no text. -/
def members? (names : List String) : List (Option String × Json) → Option Fields
  | [] => some []
  | (none, _) :: _ => none
  | (some key, value) :: members => do
    let fields ← members? names members
    if names.contains key then
      if (fields.lookup key).isSome then none else some ((key, value) :: fields)
    else some fields

/-- The fields of a record with the given names. -/
def fields? (names : List String) : Json → Option Fields
  | .object members => members? names members
  | .array items => if items.length ≤ names.length then some (names.zip items) else none
  | _ => none

namespace Fields

/-- A field that must be given. -/
def require (fields : Fields) (name : String) (read? : Json → Option α) : Option α :=
  fields.lookup name >>= read?

/-- A field that may be absent or `null`. -/
def optional (fields : Fields) (name : String) (read? : Json → Option α) : Option (Option α) :=
  match fields.lookup name with
  | none => some none
  | some .null => some none
  | some value => (read? value).map some

/-- A field that may be absent, but not `null`. -/
def withDefault (fields : Fields) (name : String) (default : α) (read? : Json → Option α) :
    Option α :=
  match fields.lookup name with
  | none => some default
  | some value => read? value

end Fields

/-- The name of an enumeration's case: a string, or the one key of an object, over `null`. -/
def caseName? : Json → Option String
  | .string s => s
  | .object [(key, .null)] => key
  | _ => none

end BoardAudit.Json
