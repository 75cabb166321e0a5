import BoardAudit.Json.Value
import BoardAudit.Text.Digits

/-!
# Reading JSON text

The value of a text, for every text that has one. Nesting is not limited and numbers are not
rounded; whether a value may stand somewhere is for its reader to say.
-/

namespace BoardAudit

open Text (hexValue? ofDigits spanDigits)

namespace Numeral

/-- The exponent at the start of a text, if one is begun. -/
def readExponent? (cs : List Char) : Option (Option Int × List Char) :=
  match cs with
  | c :: r =>
    if c = 'e' ∨ c = 'E' then
      let (negative, r) := match r with
        | '-' :: r => (true, r)
        | '+' :: r => (false, r)
        | r => (false, r)
      match spanDigits r with
      | ([], _) => none
      | (ds, r) => some (some (if negative then -(ofDigits ds) else ofDigits ds), r)
    else some (none, cs)
  | [] => some (none, [])

/-- The fraction at the start of a text, if one is begun. -/
def readFraction? : List Char → Option (List (Fin 10) × List Char)
  | '.' :: r =>
    match spanDigits r with
    | ([], _) => none
    | (ds, r) => some (ds, r)
  | cs => some ([], cs)

/-- The whole part at the start of a text: no zero stands before another digit. -/
def readWhole? : List Char → Option (Nat × List Char)
  | '0' :: r => some (0, r)
  | cs =>
    match spanDigits cs with
    | ([], _) => none
    | (ds, r) => some (ofDigits ds, r)

/-- The number at the start of a text, and the rest. -/
def read? (cs : List Char) : Option (Numeral × List Char) := do
  let (negative, r) := match cs with
    | '-' :: r => (true, r)
    | r => (false, r)
  let (whole, r) ← readWhole? r
  let (fraction, r) ← readFraction? r
  let (exponent, r) ← readExponent? r
  some (⟨negative, whole, fraction, exponent⟩, r)

end Numeral

namespace Json

/-- The text after leading white space: blank, tab, line feed and carriage return. -/
def skipSpace : List Char → List Char
  | c :: cs => if c = ' ' ∨ c = '\t' ∨ c = '\n' ∨ c = '\r' then skipSpace cs else c :: cs
  | [] => []

/-! ### Strings -/

/-- What a string spells at one place: a character, or an escaped half of a surrogate pair. -/
inductive Piece where
  | char (c : Char)
  | half (unit : Nat)

/-- The piece of a four-digit escape. -/
def Piece.ofUnit (unit : Nat) : Piece :=
  if 0xD800 ≤ unit ∧ unit < 0xE000 then .half unit else .char (Char.ofNat unit)

/-- The characters that pieces spell, if every half is followed by its other half. -/
def Piece.join : List Piece → Option (List Char)
  | [] => some []
  | .char c :: ps => (join ps).map (c :: ·)
  | .half high :: .half low :: ps =>
    if high < 0xDC00 ∧ 0xDC00 ≤ low then
      (join ps).map (Char.ofNat (0x10000 + (high - 0xD800) * 0x400 + (low - 0xDC00)) :: ·)
    else none
  | .half _ :: _ => none

/-- The character of a one-letter escape. -/
def shortEscape? (c : Char) : Option Char :=
  if c = '"' ∨ c = '\\' ∨ c = '/' then some c
  else if c = 'b' then some '\x08'
  else if c = 'f' then some '\x0c'
  else if c = 'n' then some '\n'
  else if c = 'r' then some '\r'
  else if c = 't' then some '\t'
  else none

/-- The pieces up to the closing quote, and the text after it. -/
def readPieces? : List Char → Option (List Piece × List Char)
  | [] => none
  | '"' :: cs => some ([], cs)
  | '\\' :: 'u' :: a :: b :: c :: d :: cs => do
    let a ← hexValue? a
    let b ← hexValue? b
    let c ← hexValue? c
    let d ← hexValue? d
    let (ps, r) ← readPieces? cs
    some (Piece.ofUnit (((a * 16 + b) * 16 + c) * 16 + d) :: ps, r)
  | '\\' :: c :: cs => do
    let c ← shortEscape? c
    let (ps, r) ← readPieces? cs
    some (.char c :: ps, r)
  | c :: cs =>
    if c.toNat < 0x20 ∨ c = '\\' then none
    else (readPieces? cs).map fun (ps, r) => (.char c :: ps, r)

/-- The string behind an opening quote, and the text after it. -/
def readString? (cs : List Char) : Option (Option String × List Char) := do
  let (ps, r) ← readPieces? cs
  some ((Piece.join ps).map String.ofList, r)

/-! ### Values -/

mutual

/-- The value at the start of a text, and the rest. -/
def readValue? : Nat → List Char → Option (Json × List Char)
  | 0, _ => none
  | fuel + 1, cs =>
    match skipSpace cs with
    | 'n' :: 'u' :: 'l' :: 'l' :: r => some (.null, r)
    | 't' :: 'r' :: 'u' :: 'e' :: r => some (.bool true, r)
    | 'f' :: 'a' :: 'l' :: 's' :: 'e' :: r => some (.bool false, r)
    | '"' :: r => (readString? r).map fun (s, r) => (.string s, r)
    | '[' :: r =>
      match skipSpace r with
      | ']' :: r => some (.array [], r)
      | r => (readItems? fuel r).map fun (items, r) => (.array items, r)
    | '\x7b' :: r =>
      match skipSpace r with
      | '\x7d' :: r => some (.object [], r)
      | r => (readMembers? fuel r).map fun (members, r) => (.object members, r)
    | r => (Numeral.read? r).map fun (n, r) => (.number n, r)

/-- The elements up to the closing bracket, at least one, and the text after it. -/
def readItems? : Nat → List Char → Option (List Json × List Char)
  | 0, _ => none
  | fuel + 1, cs => do
    let (item, r) ← readValue? fuel cs
    match skipSpace r with
    | ',' :: r =>
      let (items, r) ← readItems? fuel r
      some (item :: items, r)
    | ']' :: r => some ([item], r)
    | _ => none

/-- The members up to the closing brace, at least one, and the text after it. -/
def readMembers? : Nat → List Char → Option (List (Option String × Json) × List Char)
  | 0, _ => none
  | fuel + 1, cs =>
    match skipSpace cs with
    | '"' :: r => do
      let (key, r) ← readString? r
      match skipSpace r with
      | ':' :: r =>
        let (value, r) ← readValue? fuel r
        match skipSpace r with
        | ',' :: r =>
          let (members, r) ← readMembers? fuel r
          some ((key, value) :: members, r)
        | '\x7d' :: r => some ([(key, value)], r)
        | _ => none
      | _ => none
    | _ => none

end

/-- The value of a text; white space may stand around it. Every two steps of reading consume a
character, so the fuel suffices. -/
def parse? (cs : List Char) : Option Json :=
  match readValue? (2 * cs.length + 2) cs with
  | some (j, r) => if skipSpace r = [] then some j else none
  | none => none

def ofText? (s : String) : Option Json := parse? s.toList

end Json

end BoardAudit
