/-!
# JSON values

Values as they are written: a number keeps its digits, an object keeps its members in order with
repetitions, and a string may hold escaped halves of surrogate pairs, which name no character.
-/

namespace BoardAudit

/-- A number as written. A fraction or an exponent that was not written is `[]` or `none`. -/
structure Numeral where
  negative : Bool
  whole : Nat
  fraction : List (Fin 10)
  exponent : Option Int
  deriving DecidableEq

namespace Numeral

/-- The number as an integer is written. -/
def ofInt (n : Int) : Numeral := ⟨decide (n < 0), n.natAbs, [], none⟩

/-- The integer of a number that is written as one; `-0` is not. -/
def toInt? (n : Numeral) : Option Int :=
  if n.fraction = [] ∧ n.exponent = none ∧ ¬(n.negative ∧ n.whole = 0) then
    some (if n.negative then -n.whole else n.whole)
  else none

theorem toInt?_ofInt (n : Int) : (ofInt n).toInt? = some n := by
  by_cases h : n < 0
  · have hw : n.natAbs ≠ 0 := by omega
    have hn : -(n.natAbs : Int) = n := by omega
    simp only [ofInt, toInt?, h, hw, hn, decide_true, and_false, not_false_eq_true, and_self, if_true]
  · have hn : (n.natAbs : Int) = n := by omega
    simp only [ofInt, toInt?, h, hn, decide_false, Bool.false_eq_true, false_and, not_false_eq_true,
      and_self, if_true, if_false]

end Numeral

/-- A JSON value as written. The text of a string or a key is `none` when one of its escapes is
half of a surrogate pair. -/
inductive Json where
  | null
  | bool (value : Bool)
  | number (value : Numeral)
  | string (value : Option String)
  | array (items : List Json)
  | object (members : List (Option String × Json))

namespace Json

/-- A string of characters. -/
def text (s : String) : Json := .string (some s)

def int (n : Int) : Json := .number (.ofInt n)

/-- An object whose keys are texts. -/
def record (members : List (String × Json)) : Json :=
  .object (members.map fun m => (some m.1, m.2))

def text? : Json → Option String
  | .string s => s
  | _ => none

/-- The integer of a number that is written as one. -/
def int? : Json → Option Int
  | .number n => n.toInt?
  | _ => none

def bool? : Json → Option Bool
  | .bool b => some b
  | _ => none

@[simp] theorem text?_text (s : String) : (text s).text? = some s := rfl
@[simp] theorem int?_int (n : Int) : (int n).int? = some n := Numeral.toInt?_ofInt n
@[simp] theorem bool?_bool (b : Bool) : (Json.bool b).bool? = some b := rfl

end Json

end BoardAudit
