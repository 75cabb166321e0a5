import BoardAudit.Json.Value

/-!
# Numbers within double precision

A number that has to be held as a double is read as a significand below `2 ^ 64` times a power of
ten: digits that do not fit are dropped, and the product must be finite.
-/

namespace BoardAudit.Numeral

/-- A significand below `2 ^ 64` with its decimal exponent. -/
structure Scaled where
  significand : Nat
  exponent : Int

/-- Appends digits while the significand stays below `2 ^ 64`; each digit that fits changes the
exponent by `fits`, each dropped one by `drops`. -/
def Scaled.append (fits drops : Int) : Scaled → List Nat → Scaled
  | s, [] => s
  | s, d :: ds =>
    let next := 10 * s.significand + d
    if next < UInt64.size then append fits drops ⟨next, s.exponent + fits⟩ ds
    else ⟨s.significand, s.exponent + drops * (ds.length + 1)⟩

/-- The decimal digits of a natural number, the first one first. -/
def digits (n : Nat) : List Nat := (Nat.repr n).toList.map fun c => c.toNat - 48

/-- The significand and the exponent of a number. -/
def scaled (n : Numeral) : Scaled :=
  let whole := Scaled.append 0 1 ⟨0, 0⟩ (digits n.whole)
  let s := Scaled.append (-1) 0 whole (n.fraction.map (·.val))
  ⟨s.significand, s.exponent + n.exponent.getD 0⟩

/-- Whether the number has a finite value in double precision. -/
def isFinite (n : Numeral) : Bool :=
  let s := n.scaled
  if s.significand = 0 ∨ s.exponent < 0 then true
  else if 308 < s.exponent then false
  else !(s.significand.toUInt64.toFloat * Float.ofScientific 1 false s.exponent.toNat).isInf

end BoardAudit.Numeral

namespace BoardAudit.Json

mutual

/-- How deep arrays and objects are nested in a value. -/
def depth : Json → Nat
  | .array items => depthItems items + 1
  | .object members => depthMembers members + 1
  | _ => 0

/-- The depth of the deepest element. -/
def depthItems : List Json → Nat
  | [] => 0
  | item :: items => max item.depth (depthItems items)

/-- The depth of the deepest member. -/
def depthMembers : List (Option String × Json) → Nat
  | [] => 0
  | (_, value) :: members => max value.depth (depthMembers members)

end

mutual

/-- Whether every number is finite in double precision and every string is a text. -/
def isExact : Json → Bool
  | .number n => n.isFinite
  | .string s => s.isSome
  | .array items => isExactItems items
  | .object members => isExactMembers members
  | _ => true

/-- The elements of an array. -/
def isExactItems : List Json → Bool
  | [] => true
  | item :: items => item.isExact && isExactItems items

/-- The members of an object, keys included. -/
def isExactMembers : List (Option String × Json) → Bool
  | [] => true
  | (key, value) :: members => key.isSome && value.isExact && isExactMembers members

end

/-- Values nested this deep inside another value are not held. -/
def depthLimit : Nat := 127

/-- Whether a value can be held without knowing its reader: numbers are finite, strings are texts,
and nesting stays below the limit. -/
def isHoldable (j : Json) : Bool := j.isExact && decide (j.depth < depthLimit)

end BoardAudit.Json
