import BoardAudit.Json.Value
import BoardAudit.Text.Digits

/-!
# Compact JSON text

The one text in which a value is written: no white space, members in their order, and in strings
only what must be escaped is escaped.
-/

namespace BoardAudit

open Text (hexDigit decimalDigit)

namespace Numeral

/-- A number as it is written. -/
def render (n : Numeral) : List Char :=
  (if n.negative then ['-'] else []) ++ (Nat.repr n.whole).toList ++
    (if n.fraction.isEmpty then [] else '.' :: n.fraction.map decimalDigit) ++
    match n.exponent with
    | none => []
    | some e => 'e' :: (toString e).toList

end Numeral

namespace Json

/-- A character inside a string: quote and backslash behind a backslash, the five short escapes,
other control characters by their code, all else as it is. -/
def escape (c : Char) : List Char :=
  if c = '"' then ['\\', '"']
  else if c = '\\' then ['\\', '\\']
  else if c = '\x08' then ['\\', 'b']
  else if c = '\x0c' then ['\\', 'f']
  else if c = '\n' then ['\\', 'n']
  else if c = '\r' then ['\\', 'r']
  else if c = '\t' then ['\\', 't']
  else if c.toNat < 0x20 then ['\\', 'u', '0', '0', hexDigit (c.toNat / 16), hexDigit (c.toNat % 16)]
  else [c]

/-- A text between quotes. -/
def renderText (cs : List Char) : List Char := '"' :: cs.flatMap escape ++ ['"']

/-- A text between quotes; a string that is no text is written as an escaped half pair. -/
def renderString : Option String → List Char
  | some s => renderText s.toList
  | none => ['"', '\\', 'u', 'd', '8', '0', '0', '"']

mutual

/-- The compact text of a value. -/
def render : Json → List Char
  | .null => ['n', 'u', 'l', 'l']
  | .bool true => ['t', 'r', 'u', 'e']
  | .bool false => ['f', 'a', 'l', 's', 'e']
  | .number n => n.render
  | .string s => renderString s
  | .array items => '[' :: renderItems items ++ [']']
  | .object members => '\x7b' :: renderMembers members ++ ['\x7d']

/-- The elements of an array between commas. -/
def renderItems : List Json → List Char
  | [] => []
  | [item] => item.render
  | item :: items => item.render ++ ',' :: renderItems items

/-- The members of an object between commas. -/
def renderMembers : List (Option String × Json) → List Char
  | [] => []
  | [(key, value)] => renderString key ++ ':' :: value.render
  | (key, value) :: members => renderString key ++ ':' :: value.render ++ ',' :: renderMembers members

end

def compress (j : Json) : String := String.ofList j.render

end Json

end BoardAudit
