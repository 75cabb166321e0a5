import BoardAudit.EntityId.Basic
import BoardAudit.Text.Digits

/-!
# The spellings of an id

An id is written as 32 hexadecimal digits in lower case, grouped 8-4-4-4-12 by hyphens. Four
spellings are read, in either case: the digits alone, grouped, grouped in braces, and grouped behind
`urn:uuid:`. `ofText?_toText`: an id reads back from its text.
-/

namespace BoardAudit.EntityId

open Text

/-- The sizes of the groups of digits. -/
def groups : List Nat := [8, 4, 4, 4, 12]

/-- A text in groups of the given sizes, with hyphens between the groups. -/
def hyphenate : List Nat → List Char → List Char
  | [], cs => cs
  | [_], cs => cs
  | w :: ws, cs => cs.take w ++ '-' :: hyphenate ws (cs.drop w)

/-- The text of groups that have the given sizes and hyphens between them. -/
def unhyphenate? : List Nat → List Char → Option (List Char)
  | [], cs => if cs = [] then some [] else none
  | [w], cs => if cs.length = w then some cs else none
  | w :: ws, cs =>
    match cs.drop w with
    | '-' :: r => (unhyphenate? ws r).map (cs.take w ++ ·)
    | _ => none

/-- The number of all digits in groups of the given sizes. -/
def digitCount : List Nat → Nat
  | [] => 0
  | w :: ws => w + digitCount ws

def toText (id : EntityId) : List Char := hyphenate groups (hexDigits 32 id.toNat)

def toString (id : EntityId) : String := String.ofList id.toText

/-- The id of a number, if it has at most 128 bits. -/
def ofNat? (n : Nat) : Option EntityId :=
  if h : n < 1 <<< 128 then some ⟨n, h⟩ else none

/-- The id that 32 hexadecimal digits spell. -/
def ofDigits? (cs : List Char) : Option EntityId :=
  if cs.length = 32 then (ofHex? cs).bind ofNat? else none

/-- The id that grouped digits spell. -/
def ofGroups? (cs : List Char) : Option EntityId := (unhyphenate? groups cs).bind ofDigits?

/-- The mark of the spelling as a name. -/
def urnMark : List Char := ['u', 'r', 'n', ':', 'u', 'u', 'i', 'd', ':']

/-- The grouped digits inside braces. -/
def unbrace? : List Char → Option (List Char)
  | '\x7b' :: r => if r.getLast? = some '\x7d' then some r.dropLast else none
  | _ => none

def ofText? (cs : List Char) : Option EntityId :=
  if cs.length = 32 then ofDigits? cs
  else if cs.length = 36 then ofGroups? cs
  else if cs.length = 38 then (unbrace? cs).bind ofGroups?
  else if (cs.take 9).map Char.toLower = urnMark then ofGroups? (cs.drop 9)
  else none

def ofString? (s : String) : Option EntityId := ofText? s.toList

/-! ### Reading back -/

theorem unhyphenate?_hyphenate : ∀ {ws : List Nat} {cs : List Char}, ws ≠ [] →
    cs.length = digitCount ws → unhyphenate? ws (hyphenate ws cs) = some cs
  | [w], cs, _, h => by
    have : cs.length = w := by simpa [digitCount] using h
    simp [hyphenate, unhyphenate?, this]
  | w :: w' :: ws, cs, _, h => by
    rw [digitCount] at h
    have hr : (cs.drop w).length = digitCount (w' :: ws) := by
      rw [List.length_drop]
      omega
    have ih := unhyphenate?_hyphenate (by simp : w' :: ws ≠ []) hr
    have hl : (cs.take w).length = w := by
      rw [List.length_take]
      omega
    rw [hyphenate, unhyphenate?, List.drop_left' hl, List.take_left' hl]
    simp [ih]
    all_goals simp

theorem length_hyphenate : ∀ {ws : List Nat} {cs : List Char}, ws ≠ [] →
    cs.length = digitCount ws → (hyphenate ws cs).length = cs.length + ws.length - 1
  | [w], cs, _, _ => by simp [hyphenate]
  | w :: w' :: ws, cs, _, h => by
    rw [digitCount] at h
    have hr : (cs.drop w).length = digitCount (w' :: ws) := by
      rw [List.length_drop]
      omega
    have ih := length_hyphenate (by simp : w' :: ws ≠ []) hr
    rw [hyphenate]
    · simp [ih]
      omega
    all_goals simp

theorem length_hexDigits_groups (id : EntityId) :
    (hexDigits 32 id.toNat).length = digitCount groups := length_hexDigits ..

theorem ofGroups?_toText (id : EntityId) : ofGroups? id.toText = some id := by
  have h : unhyphenate? groups id.toText = some (hexDigits 32 id.toNat) :=
    unhyphenate?_hyphenate (by simp [groups]) (length_hexDigits_groups id)
  have hlt : id.toNat < Nat.pow 16 32 := Nat.lt_of_lt_of_eq id.isLt rfl
  have hnat : ofNat? id.toNat = some id := dif_pos id.isLt
  simp [ofGroups?, h, ofDigits?, ofHex?_hexDigits hlt, hnat]

theorem length_toText (id : EntityId) : id.toText.length = 36 := by
  have := length_hyphenate (by simp [groups]) (length_hexDigits_groups id)
  simpa [toText, groups] using this

/-- An id reads back from its text. -/
theorem ofText?_toText (id : EntityId) : ofText? id.toText = some id := by
  simp [ofText?, length_toText, ofGroups?_toText]

end BoardAudit.EntityId
