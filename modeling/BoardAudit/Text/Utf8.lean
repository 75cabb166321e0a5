/-!
# Octets and text

Text as UTF-8 octets. Octets that are no text can still be shown: each longest start of a character
that breaks off, and each octet that starts none, is shown as one replacement character.
-/

namespace BoardAudit.Text

/-- The octets of a text. -/
def encodeUtf8 (s : String) : List UInt8 := s.toUTF8.toList

/-- The text of octets, if they are one. -/
def decodeUtf8? (bs : List UInt8) : Option String := String.fromUTF8? bs.toByteArray

/-- An octet that continues a character. -/
def isContinuation (b : UInt8) : Bool := 0x80 ≤ b && b ≤ 0xBF

/-- The tests of the octets that must follow the first octet of a character; none if it starts no
character of several octets. -/
def continuations (b : UInt8) : List (UInt8 → Bool) :=
  if 0xC2 ≤ b ∧ b ≤ 0xDF then [isContinuation]
  else if b = 0xE0 then [fun c => 0xA0 ≤ c && c ≤ 0xBF, isContinuation]
  else if b = 0xED then [fun c => 0x80 ≤ c && c ≤ 0x9F, isContinuation]
  else if 0xE1 ≤ b ∧ b ≤ 0xEF then [isContinuation, isContinuation]
  else if b = 0xF0 then [fun c => 0x90 ≤ c && c ≤ 0xBF, isContinuation, isContinuation]
  else if 0xF1 ≤ b ∧ b ≤ 0xF3 then [isContinuation, isContinuation, isContinuation]
  else if b = 0xF4 then [fun c => 0x80 ≤ c && c ≤ 0x8F, isContinuation, isContinuation]
  else []

/-- The longest start of `bs` that passes the tests in order. -/
def passing : List (UInt8 → Bool) → List UInt8 → List UInt8
  | p :: ps, b :: bs => if p b then b :: passing ps bs else []
  | _, _ => []

/-- The octets cut into characters and starts of characters that break off. -/
def cutUtf8 (bs : List UInt8) : List (List UInt8) :=
  match bs with
  | [] => []
  | b :: rest =>
    let more := passing (continuations b) rest
    (b :: more) :: cutUtf8 (rest.drop more.length)
termination_by bs.length
decreasing_by
  simp only [List.length_drop, List.length_cons]
  omega

/-- The text of octets, with replacement characters where they are none. -/
def showUtf8 (bs : List UInt8) : String :=
  String.join ((cutUtf8 bs).map fun part => (decodeUtf8? part).getD "\ufffd")

end BoardAudit.Text
