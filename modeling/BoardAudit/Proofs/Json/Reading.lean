import BoardAudit.Proofs.Json.Numerals

/-!
# Reading what was written

Every value reads back from its compact text (`Json.parse?_render`), with whatever is written behind it
left over, if this does not prolong a number (`Json.readValue?_render`). The text holds no control
character (`Json.printable_render`), so a value never takes more than one line.
-/

namespace BoardAudit

open Text

/-! ### Strings -/

namespace Json

lemma readPieces?_unit {a b c d : Char} {w x y z : ℕ} (ha : hexValue? a = some w)
    (hb : hexValue? b = some x) (hc : hexValue? c = some y) (hd : hexValue? d = some z)
    (cs : List Char) :
    readPieces? ('\\' :: 'u' :: a :: b :: c :: d :: cs) = (readPieces? cs).map fun p =>
      (Piece.ofUnit (((w * 16 + x) * 16 + y) * 16 + z) :: p.1, p.2) := by
  rw [readPieces?]
  simp only [ha, hb, hc, hd, Option.bind_eq_bind, Option.bind_some]
  exact Option.map_eq_bind.symm

/-- The character of a code below a space reads back from its two hexadecimal digits. -/
lemma readPieces?_control (c : Char) (h : c.toNat < 0x20) (cs : List Char) :
    readPieces? ('\\' :: 'u' :: '0' :: '0' :: hexDigit (c.toNat / 16) :: hexDigit (c.toNat % 16) :: cs) =
      (readPieces? cs).map fun p => (.char c :: p.1, p.2) := by
  have hzero : hexValue? '0' = some 0 := by decide
  have hhigh : hexValue? (hexDigit (c.toNat / 16)) = some (c.toNat / 16) := hexValue?_hexDigit (by omega)
  have hlow : hexValue? (hexDigit (c.toNat % 16)) = some (c.toNat % 16) := hexValue?_hexDigit (by omega)
  have hunit : ((0 * 16 + 0) * 16 + c.toNat / 16) * 16 + c.toNat % 16 = c.toNat := by omega
  have hpiece : Piece.ofUnit c.toNat = .char c := by
    rw [Piece.ofUnit, if_neg (by omega), Char.ofNat_toNat]
  rw [readPieces?_unit hzero hzero hhigh hlow, hunit, hpiece]

lemma readPieces?_short {c d : Char} (h : shortEscape? d = some c) (hu : d ≠ 'u') (cs : List Char) :
    readPieces? ('\\' :: d :: cs) = (readPieces? cs).map fun p => (.char c :: p.1, p.2) := by
  rw [readPieces?]
  · rw [h]
    exact Option.map_eq_bind.symm
  · rintro a b c' d' r he
    exact absurd he hu

lemma readPieces?_plain {c : Char} (hq : c ≠ '"') (hb : c ≠ '\\') (h : ¬c.toNat < 0x20)
    (cs : List Char) :
    readPieces? (c :: cs) = (readPieces? cs).map fun p => (.char c :: p.1, p.2) := by
  rw [readPieces?]
  · rw [if_neg (not_or.mpr ⟨h, hb⟩)]
  all_goals simp_all

/-- What a character is written as: a letter behind a backslash that is read as the character, its code if
it is another control character, or itself. -/
lemma escape_cases (c : Char) :
    (∃ d, escape c = ['\\', d] ∧ shortEscape? d = some c ∧ d ≠ 'u' ∧ 0x20 ≤ d.toNat) ∨
    (c.toNat < 0x20 ∧ escape c =
      ['\\', 'u', '0', '0', hexDigit (c.toNat / 16), hexDigit (c.toNat % 16)]) ∨
    (¬c.toNat < 0x20 ∧ c ≠ '"' ∧ c ≠ '\\' ∧ escape c = [c]) := by
  by_cases hs : c ∈ ['"', '\\', '\x08', '\x0c', '\n', '\r', '\t']
  · left
    simp only [List.mem_cons, List.not_mem_nil, or_false] at hs
    rcases hs with rfl | rfl | rfl | rfl | rfl | rfl | rfl
    all_goals exact ⟨_, rfl, by decide, by decide, by decide⟩
  · right
    simp only [List.mem_cons, List.not_mem_nil, or_false, not_or] at hs
    obtain ⟨hq, hb, h8, hc, hn, hr, ht⟩ := hs
    have hescape : escape c = if c.toNat < 0x20 then
        ['\\', 'u', '0', '0', hexDigit (c.toNat / 16), hexDigit (c.toNat % 16)] else [c] := by
      rw [escape, if_neg hq, if_neg hb, if_neg h8, if_neg hc, if_neg hn, if_neg hr, if_neg ht]
    by_cases hlow : c.toNat < 0x20
    · exact .inl ⟨hlow, hescape.trans (if_pos hlow)⟩
    · exact .inr ⟨hlow, hq, hb, hescape.trans (if_neg hlow)⟩

/-- What a character is written as is read as that character. -/
lemma readPieces?_escape (c : Char) (cs : List Char) :
    readPieces? (escape c ++ cs) = (readPieces? cs).map fun p => (.char c :: p.1, p.2) := by
  rcases escape_cases c with
    ⟨d, hescape, hshort, hu, -⟩ | ⟨hlow, hescape⟩ | ⟨hlow, hq, hb, hescape⟩
  · rw [hescape]
    exact readPieces?_short hshort hu cs
  · rw [hescape]
    exact readPieces?_control c hlow cs
  · rw [hescape]
    exact readPieces?_plain hq hb hlow cs

lemma readPieces?_flatMap (s : List Char) (cs : List Char) :
    readPieces? (s.flatMap escape ++ '"' :: cs) = some (s.map .char, cs) := by
  induction s with
  | nil => simp [readPieces?]
  | cons c s ih =>
    rw [List.flatMap_cons, List.append_assoc, readPieces?_escape, ih]
    rfl

@[simp] lemma Piece.join_char (s : List Char) : Piece.join (s.map .char) = some s := by
  induction s with
  | nil => rfl
  | cons c s ih => simp [Piece.join, ih]

/-- A string reads back from its text. -/
theorem readString?_render (s : Option String) (cs : List Char) :
    ∃ r, renderString s ++ cs = '"' :: r ∧ readString? r = some (s, cs) := by
  cases s with
  | none => exact ⟨_, rfl, rfl⟩
  | some s =>
    refine ⟨s.toList.flatMap escape ++ '"' :: cs, by simp [renderString, renderText], ?_⟩
    simp [readString?, readPieces?_flatMap]

/-! ### Values -/

/-- Whether a text begins neither with white space nor with a closing bracket or brace. -/
def Begins : List Char → Prop
  | c :: _ => c ∉ [' ', '\t', '\n', '\r', ']', '\x7d']
  | [] => False

lemma Begins.append {cs : List Char} (h : Begins cs) (rest : List Char) : Begins (cs ++ rest) := by
  cases cs with
  | nil => cases h
  | cons c cs => exact h

lemma Begins.skipSpace {cs : List Char} (h : Begins cs) : skipSpace cs = cs := by
  cases cs with
  | nil => cases h
  | cons c cs =>
    simp only [Begins, List.mem_cons, not_or] at h
    simp [Json.skipSpace, h]

lemma begins_digit (d : Fin 10) (cs : List Char) : Begins (decimalDigit d :: cs) := by
  have hdigit : ∀ d : Fin 10, decimalDigit d ∉ [' ', '\t', '\n', '\r', ']', '\x7d'] := by decide
  exact hdigit d

lemma begins_numeral (n : Numeral) : Begins n.render := by
  obtain ⟨ds, hne, htext, -⟩ := exists_digits n.whole
  obtain ⟨d, ds, rfl⟩ := List.exists_cons_of_ne_nil hne
  rw [Numeral.render, htext]
  cases n.negative with
  | true => simp [Begins]
  | false => exact begins_digit d _

lemma begins_string (s : Option String) : Begins (renderString s) := by
  cases s <;> simp [renderString, renderText, Begins]

lemma begins_render (j : Json) : Begins j.render := by
  cases j with
  | null => simp [render, Begins]
  | bool b => cases b <;> simp [render, Begins]
  | number n => rw [render]; exact begins_numeral n
  | string s => rw [render]; exact begins_string s
  | array items => simp [render, Begins]
  | object members => simp [render, Begins]

lemma renderItems_cons_cons (item next : Json) (items : List Json) :
    renderItems (item :: next :: items) = item.render ++ ',' :: renderItems (next :: items) := by
  rw [renderItems]
  simp

lemma renderMembers_cons_cons (key : Option String) (value : Json) (next : Option String × Json)
    (members : List (Option String × Json)) :
    renderMembers ((key, value) :: next :: members) =
      renderString key ++ ':' :: (value.render ++ ',' :: renderMembers (next :: members)) := by
  rw [renderMembers]
  · simp
  · simp

lemma begins_renderItems {items : List Json} (h : items ≠ []) : Begins (renderItems items) := by
  match items with
  | [item] => rw [renderItems]; exact begins_render item
  | item :: next :: items =>
    rw [renderItems_cons_cons]
    exact (begins_render item).append _

lemma begins_renderMembers {members : List (Option String × Json)} (h : members ≠ []) :
    Begins (renderMembers members) := by
  match members with
  | [(key, value)] => rw [renderMembers]; exact (begins_string key).append _
  | (key, value) :: next :: members =>
    rw [renderMembers_cons_cons]
    exact (begins_string key).append _

lemma readValue?_number {c : Char} (h : c = '-' ∨ ∃ d, c = decimalDigit d) (fuel : ℕ)
    (cs : List Char) :
    readValue? (fuel + 1) (c :: cs) =
      (Numeral.read? (c :: cs)).map fun p => (.number p.1, p.2) := by
  rcases h with rfl | ⟨d, rfl⟩
  · rfl
  · fin_cases d <;> rfl

lemma readValue?_numeral (n : Numeral) (fuel : ℕ) {rest : List Char} (h : Numeral.Ends rest) :
    readValue? (fuel + 1) (n.render ++ rest) = some (.number n, rest) := by
  suffices hvalue : readValue? (fuel + 1) (n.render ++ rest) =
      (Numeral.read? (n.render ++ rest)).map fun p => (.number p.1, p.2) by
    rw [hvalue, Numeral.read?_render n h]
    rfl
  obtain ⟨ds, hne, htext, -⟩ := exists_digits n.whole
  obtain ⟨d, ds, rfl⟩ := List.exists_cons_of_ne_nil hne
  rw [Numeral.render, htext]
  cases n.negative with
  | true => exact readValue?_number (.inl rfl) fuel _
  | false => exact readValue?_number (.inr ⟨d, rfl⟩) fuel _

lemma readValue?_string (s : Option String) (fuel : ℕ) (rest : List Char) :
    readValue? (fuel + 1) (renderString s ++ rest) = some (.string s, rest) := by
  obtain ⟨r, hcons, hread⟩ := readString?_render s rest
  rw [hcons]
  show (readString? r).map _ = _
  rw [hread]
  rfl

lemma readValue?_array (fuel : ℕ) {cs : List Char} (h : Begins cs) :
    readValue? (fuel + 1) ('[' :: cs) = (readItems? fuel cs).map fun p => (.array p.1, p.2) := by
  have hbracket : Json.skipSpace ('[' :: cs) = '[' :: cs := rfl
  rw [readValue?, hbracket]
  simp only [h.skipSpace]
  split
  · simp [Begins] at h
  · rfl

lemma readValue?_object (fuel : ℕ) {cs : List Char} (h : Begins cs) :
    readValue? (fuel + 1) ('\x7b' :: cs) = (readMembers? fuel cs).map fun p => (.object p.1, p.2) := by
  have hbrace : Json.skipSpace ('\x7b' :: cs) = '\x7b' :: cs := rfl
  rw [readValue?, hbrace]
  simp only [h.skipSpace]
  split
  · simp [Begins] at h
  · rfl

lemma readMembers?_member (key : Option String) (fuel : ℕ) (cs : List Char) :
    readMembers? (fuel + 1) (renderString key ++ ':' :: cs) = (do
      let (value, r) ← readValue? fuel cs
      match Json.skipSpace r with
      | ',' :: r =>
        let (members, r) ← readMembers? fuel r
        some ((key, value) :: members, r)
      | '\x7d' :: r => some ([(key, value)], r)
      | _ => none) := by
  obtain ⟨r, hcons, hread⟩ := readString?_render key (':' :: cs)
  rw [hcons]
  show (readString? r).bind _ = _
  rw [hread]
  rfl

-- By induction on the fuel. A value takes at least one character and the step to its elements a bracket,
-- so that two steps for every character suffice.
mutual

/-- A value reads back from its text, whatever is behind it, if this does not prolong a number. -/
theorem readValue?_render (fuel : ℕ) (j : Json) (rest : List Char) (hf : 2 * j.render.length ≤ fuel)
    (hr : Numeral.Ends rest) : readValue? fuel (j.render ++ rest) = some (j, rest) :=
  match fuel, j with
  | 0, j => by
    have hempty : j.render = [] := List.length_eq_zero_iff.mp (by omega)
    have hbegins := begins_render j
    rw [hempty] at hbegins
    cases hbegins
  | _ + 1, .null => rfl
  | _ + 1, .bool true => rfl
  | _ + 1, .bool false => rfl
  | fuel + 1, .number n => by
    rw [render]
    exact readValue?_numeral n fuel hr
  | fuel + 1, .string s => by
    rw [render]
    exact readValue?_string s fuel rest
  | _ + 1, .array [] => rfl
  | fuel + 1, .array (item :: items) => by
    have hbegins : Begins (renderItems (item :: items)) := begins_renderItems (by simp)
    simp only [render, List.length_append, List.length_cons, List.length_nil] at hf
    rw [render, List.cons_append, List.cons_append, List.append_assoc,
      readValue?_array fuel (hbegins.append _), List.cons_append, List.nil_append,
      readItems?_render fuel item items rest (by omega)]
    rfl
  | _ + 1, .object [] => rfl
  | fuel + 1, .object ((key, value) :: members) => by
    have hbegins : Begins (renderMembers ((key, value) :: members)) := begins_renderMembers (by simp)
    simp only [render, List.length_append, List.length_cons, List.length_nil] at hf
    rw [render, List.cons_append, List.cons_append, List.append_assoc,
      readValue?_object fuel (hbegins.append _), List.cons_append, List.nil_append,
      readMembers?_render fuel key value members rest (by omega)]
    rfl

/-- The elements of an array read back from their text. -/
theorem readItems?_render (fuel : ℕ) (item : Json) (items : List Json) (rest : List Char)
    (hf : 2 * (renderItems (item :: items)).length < fuel) :
    readItems? fuel (renderItems (item :: items) ++ ']' :: rest) = some (item :: items, rest) :=
  match fuel, items with
  | 0, _ => absurd hf (Nat.not_lt_zero _)
  | fuel + 1, [] => by
    rw [renderItems] at hf ⊢
    rw [readItems?, readValue?_render fuel item (']' :: rest) (by omega) (.cons (by decide))]
    rfl
  | fuel + 1, next :: items => by
    rw [renderItems_cons_cons, List.length_append, List.length_cons] at hf
    rw [renderItems_cons_cons, List.append_assoc, List.cons_append, readItems?,
      readValue?_render fuel item _ (by omega) (.cons (by decide))]
    show (readItems? fuel (renderItems (next :: items) ++ ']' :: rest)).bind _ = _
    rw [readItems?_render fuel next items rest (by omega)]
    rfl

/-- The members of an object read back from their text. -/
theorem readMembers?_render (fuel : ℕ) (key : Option String) (value : Json)
    (members : List (Option String × Json)) (rest : List Char)
    (hf : 2 * (renderMembers ((key, value) :: members)).length < fuel) :
    readMembers? fuel (renderMembers ((key, value) :: members) ++ '\x7d' :: rest) =
      some ((key, value) :: members, rest) :=
  match fuel, members with
  | 0, _ => absurd hf (Nat.not_lt_zero _)
  | fuel + 1, [] => by
    rw [renderMembers, List.length_append, List.length_cons] at hf
    rw [renderMembers, List.append_assoc, List.cons_append, readMembers?_member,
      readValue?_render fuel value _ (by omega) (.cons (by decide))]
    rfl
  | fuel + 1, (key', value') :: members => by
    rw [renderMembers_cons_cons, List.length_append, List.length_cons, List.length_append,
      List.length_cons] at hf
    rw [renderMembers_cons_cons, List.append_assoc, List.cons_append, List.append_assoc,
      List.cons_append, readMembers?_member,
      readValue?_render fuel value _ (by omega) (.cons (by decide))]
    show (readMembers? fuel (renderMembers ((key', value') :: members) ++ '\x7d' :: rest)).bind _ = _
    rw [readMembers?_render fuel key' value' members rest (by omega)]
    rfl

end

/-- Every value reads back from its compact text. -/
theorem parse?_render (j : Json) : parse? j.render = some j := by
  have hread := readValue?_render (2 * j.render.length + 2) j [] (by omega) Numeral.ends_nil
  rw [List.append_nil] at hread
  simp [parse?, hread, Json.skipSpace]

@[simp] theorem ofText?_compress (j : Json) : ofText? j.compress = some j := by
  rw [ofText?, compress, String.toList_ofList, parse?_render]

/-! ### One line -/

/-- Whether a text holds no control character below a space. -/
def Printable (cs : List Char) : Prop := ∀ c ∈ cs, 0x20 ≤ c.toNat

@[simp] lemma printable_nil : Printable [] := by simp [Printable]

@[simp] lemma printable_cons {c : Char} {cs : List Char} :
    Printable (c :: cs) ↔ 0x20 ≤ c.toNat ∧ Printable cs := List.forall_mem_cons

@[simp] lemma printable_append {cs ds : List Char} :
    Printable (cs ++ ds) ↔ Printable cs ∧ Printable ds := List.forall_mem_append

lemma printable_digits (ds : List (Fin 10)) : Printable (digitsText ds) := by
  intro c hc
  obtain ⟨d, -, rfl⟩ := List.mem_map.mp hc
  rw [toNat_decimalDigit]
  omega

lemma printable_repr (n : ℕ) : Printable (Nat.repr n).toList := by
  obtain ⟨ds, -, htext, -⟩ := exists_digits n
  rw [htext]
  exact printable_digits ds

lemma printable_numeral (n : Numeral) : Printable n.render := by
  have hdigits : Printable (n.fraction.map decimalDigit) := printable_digits n.fraction
  rw [Numeral.render, printable_append, printable_append, printable_append]
  refine ⟨⟨⟨?_, printable_repr _⟩, ?_⟩, ?_⟩
  · split <;> simp
  · split <;> simp [hdigits]
  · split
    · simp
    · next e =>
      rw [Numeral.toList_toString, printable_cons, printable_append]
      refine ⟨by decide, ?_, printable_repr _⟩
      split <;> simp

lemma printable_escape (c : Char) : Printable (escape c) := by
  rcases escape_cases c with ⟨d, hescape, -, -, hd⟩ | ⟨hlow, hescape⟩ | ⟨hlow, -, -, hescape⟩
  · simp [hescape, hd]
  · have hdigit : ∀ n < 16, 0x20 ≤ (hexDigit n).toNat := by decide
    have hhigh := hdigit (c.toNat / 16) (by omega)
    have hlast := hdigit (c.toNat % 16) (by omega)
    simp [hescape, hhigh, hlast]
  · simp [hescape, Nat.not_lt.mp hlow]

lemma printable_string (s : Option String) : Printable (renderString s) := by
  cases s with
  | none => simp [renderString]
  | some s =>
    have hescape : Printable (s.toList.flatMap escape) := by
      intro c hc
      obtain ⟨d, -, hc⟩ := List.mem_flatMap.mp hc
      exact printable_escape d c hc
    simp [renderString, renderText, hescape]

mutual

lemma printable_render : (j : Json) → Printable j.render
  | .null => by simp [render]
  | .bool true => by simp [render]
  | .bool false => by simp [render]
  | .number n => by simp [render, printable_numeral]
  | .string s => by simp [render, printable_string]
  | .array items => by simp [render, printable_renderItems items]
  | .object members => by simp [render, printable_renderMembers members]

lemma printable_renderItems : (items : List Json) → Printable (renderItems items)
  | [] => by simp [renderItems]
  | [item] => by simp [renderItems, printable_render item]
  | item :: next :: items => by
    simp [renderItems_cons_cons, printable_render item, printable_renderItems (next :: items)]

lemma printable_renderMembers : (members : List (Option String × Json)) →
    Printable (renderMembers members)
  | [] => by simp [renderMembers]
  | [(key, value)] => by simp [renderMembers, printable_string, printable_render value]
  | (key, value) :: next :: members => by
    simp [renderMembers_cons_cons, printable_string, printable_render value,
      printable_renderMembers (next :: members)]

end

end Json

end BoardAudit
