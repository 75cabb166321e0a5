import BoardAudit.Json.Parser
import BoardAudit.Json.Printer
import BoardAudit.Proofs.Text.Decimals
import Mathlib.Data.Fintype.Basic
import Mathlib.Tactic.FinCases

/-!
# Reading back numbers

A number reads back from its text, digit by digit as it was written, where nothing behind it prolongs it
(`Numeral.read?_render`). Sign, whole part, fraction and exponent are read one after the other.
-/

namespace BoardAudit

open Text

namespace Numeral

/-- Whether a text behind a number does not prolong it. -/
def Ends (cs : List Char) : Prop :=
  ∀ c ∈ cs.head?, digitValue? c = none ∧ c ≠ '.' ∧ c ≠ 'e' ∧ c ≠ 'E'

variable {cs : List Char}

lemma ends_nil : Ends [] := by simp [Ends]

lemma Ends.noDigit (h : Ends cs) : NoDigit cs := fun c hc => (h c hc).1

lemma Ends.cons {c : Char} (h : digitValue? c = none ∧ c ≠ '.' ∧ c ≠ 'e' ∧ c ≠ 'E') :
    Ends (c :: cs) := by
  intro d hd
  obtain rfl : c = d := by simpa using hd
  exact h

/-! ### Parts -/

lemma readWhole?_repr (n : ℕ) (h : NoDigit cs) :
    readWhole? ((Nat.repr n).toList ++ cs) = some (n, cs) := by
  obtain ⟨ds, hne, htext, hvalue, hhead⟩ := exists_digits n
  obtain ⟨d, ds, rfl⟩ := List.exists_cons_of_ne_nil hne
  by_cases hd : d = 0
  · obtain rfl := hhead (congrArg some hd)
    rfl
  · have hspan : spanDigits (digitsText (d :: ds) ++ cs) = (d :: ds, cs) := spanDigits_append h
    have hzero : decimalDigit d ≠ '0' := fun he => hd ((decimalDigit_eq_zero_iff d).mp he)
    have hcons : digitsText (d :: ds) ++ cs = decimalDigit d :: (digitsText ds ++ cs) := rfl
    rw [htext]
    unfold readWhole?
    split
    · next r he =>
      rw [hcons] at he
      exact absurd (List.cons.inj he).1 hzero
    · rw [hspan]
      simp only [hvalue]

/-- The text of a fraction, its point included. -/
def fractionPart (ds : List (Fin 10)) : List Char := if ds.isEmpty then [] else '.' :: digitsText ds

/-- The text of an exponent, its mark included. -/
def exponentPart : Option Int → List Char
  | none => []
  | some e => 'e' :: (toString e).toList

lemma noDigit_exponentPart (e : Option Int) (h : NoDigit cs) : NoDigit (exponentPart e ++ cs) := by
  cases e with
  | none => exact h
  | some e => exact noDigit_cons.mpr (by decide)

lemma noDigit_fractionPart (ds : List (Fin 10)) (h : NoDigit cs) : NoDigit (fractionPart ds ++ cs) := by
  cases ds with
  | nil => exact h
  | cons d ds => exact noDigit_cons.mpr (by decide)

lemma readFraction?_part (ds : List (Fin 10)) (h : NoDigit cs) (hp : ∀ r, cs ≠ '.' :: r) :
    readFraction? (fractionPart ds ++ cs) = some (ds, cs) := by
  cases ds with
  | nil =>
    show readFraction? cs = _
    unfold readFraction?
    split
    · next r => exact absurd rfl (hp r)
    · rfl
  | cons d ds =>
    show readFraction? ('.' :: (digitsText (d :: ds) ++ cs)) = _
    rw [readFraction?, spanDigits_append h]

lemma toList_toString (e : Int) : (toString e).toList =
    (if e < 0 then ['-'] else []) ++ (Nat.repr e.natAbs).toList := by
  cases e with
  | ofNat n => exact (if_neg (Int.not_lt.mpr (Int.natCast_nonneg n))).symm ▸ rfl
  | negSucc n =>
    have hneg : Int.negSucc n < 0 := Int.negSucc_lt_zero n
    rw [if_pos hneg]
    show ("-" ++ Nat.repr (n + 1)).toList = _
    rw [String.toList_append]
    rfl

/-- The exponent behind its mark and its sign. -/
def readPower? (negative : Bool) (cs : List Char) : Option (Option Int × List Char) :=
  match spanDigits cs with
  | ([], _) => none
  | (ds, r) => some (some (if negative then -(ofDigits ds : Int) else ofDigits ds), r)

lemma readExponent?_mark {c : Char} (hc : c = 'e' ∨ c = 'E') (cs : List Char) :
    readExponent? (c :: cs) =
      match cs with
      | '-' :: r => readPower? true r
      | '+' :: r => readPower? false r
      | r => readPower? false r := by
  let sign : Bool × List Char := match cs with
    | '-' :: r => (true, r)
    | '+' :: r => (false, r)
    | r => (false, r)
  have hread : readExponent? (c :: cs) = readPower? sign.1 sign.2 := if_pos hc
  rw [hread]
  unfold sign
  split <;> rfl

lemma readExponent?_minus (cs : List Char) : readExponent? ('e' :: '-' :: cs) = readPower? true cs := rfl

lemma readExponent?_unsigned {c : Char} (hc : c = 'e' ∨ c = 'E') (d : Fin 10) (cs : List Char) :
    readExponent? (c :: decimalDigit d :: cs) = readPower? false (decimalDigit d :: cs) := by
  rw [readExponent?_mark hc]
  fin_cases d <;> rfl

lemma readPower?_digits {d : Fin 10} {ds : List (Fin 10)} (negative : Bool) (h : NoDigit cs) :
    readPower? negative (digitsText (d :: ds) ++ cs) =
      some (some (if negative then -(ofDigits (d :: ds) : Int) else ofDigits (d :: ds)), cs) := by
  rw [readPower?, spanDigits_append h]

lemma readExponent?_part (e : Option Int) (h : Ends cs) :
    readExponent? (exponentPart e ++ cs) = some (e, cs) := by
  cases e with
  | none =>
    show readExponent? cs = _
    cases cs with
    | nil => rfl
    | cons c cs =>
      obtain ⟨-, -, he, hE⟩ := h c rfl
      simp [readExponent?, he, hE]
  | some e =>
    obtain ⟨ds, hne, htext, hvalue, -⟩ := exists_digits e.natAbs
    obtain ⟨d, ds, rfl⟩ := List.exists_cons_of_ne_nil hne
    rw [exponentPart, toList_toString, htext]
    by_cases hneg : e < 0
    · have he : -(e.natAbs : Int) = e := by omega
      rw [if_pos hneg]
      show readExponent? ('e' :: '-' :: (digitsText (d :: ds) ++ cs)) = _
      rw [readExponent?_minus, readPower?_digits true h.noDigit, hvalue, if_pos rfl, he]
    · have he : (e.natAbs : Int) = e := by omega
      rw [if_neg hneg]
      show readExponent? ('e' :: decimalDigit d :: (digitsText ds ++ cs)) = _
      rw [readExponent?_unsigned (.inl rfl)]
      show readPower? false (digitsText (d :: ds) ++ cs) = _
      rw [readPower?_digits false h.noDigit, hvalue, if_neg Bool.false_ne_true, he]

lemma exponentPart_ne_point (e : Option Int) (h : Ends cs) (r : List Char) :
    exponentPart e ++ cs ≠ '.' :: r := by
  cases e with
  | none =>
    rintro rfl
    exact (h '.' rfl).2.1 rfl
  | some e =>
    intro he
    exact absurd (List.cons.inj he).1 (by decide)

/-! ### Numbers -/

/-- The number behind its sign. -/
def readParts? (negative : Bool) (cs : List Char) : Option (Numeral × List Char) := do
  let (whole, r) ← readWhole? cs
  let (fraction, r) ← readFraction? r
  let (exponent, r) ← readExponent? r
  some (⟨negative, whole, fraction, exponent⟩, r)

lemma read?_minus (cs : List Char) : read? ('-' :: cs) = readParts? true cs := rfl

lemma read?_of_ne {c : Char} (h : c ≠ '-') (cs : List Char) :
    read? (c :: cs) = readParts? false (c :: cs) := by
  unfold read?
  split
  next negative r he =>
    split at he
    · next r' hc => exact absurd (List.cons.inj hc).1 h
    · cases he
      rfl

lemma read?_unsigned (d : Fin 10) (cs : List Char) :
    read? (decimalDigit d :: cs) = readParts? false (decimalDigit d :: cs) := by
  have hminus : ∀ d : Fin 10, decimalDigit d ≠ '-' := by decide
  exact read?_of_ne (hminus d) cs

/-- Every number reads back from its text, whatever is behind it, if this does not prolong it. -/
theorem read?_render (n : Numeral) (h : Ends cs) : read? (n.render ++ cs) = some (n, cs) := by
  obtain ⟨negative, whole, fraction, exponent⟩ := n
  have hdigits := noDigit_exponentPart exponent h.noDigit
  have hwhole := readWhole?_repr whole (noDigit_fractionPart fraction hdigits)
  have hfraction := readFraction?_part fraction hdigits (exponentPart_ne_point exponent h)
  have hexponent := readExponent?_part exponent h
  have hparts : readParts? negative ((Nat.repr whole).toList ++
      (fractionPart fraction ++ (exponentPart exponent ++ cs))) =
        some (⟨negative, whole, fraction, exponent⟩, cs) := by
    simp only [readParts?, hwhole, hfraction, hexponent, Option.bind_eq_bind, Option.bind_some]
  have hrender : render ⟨negative, whole, fraction, exponent⟩ ++ cs =
      (if negative then ['-'] else []) ++ ((Nat.repr whole).toList ++
        (fractionPart fraction ++ (exponentPart exponent ++ cs))) := by
    cases exponent <;> simp [render, fractionPart, exponentPart, digitsText]
  rw [hrender]
  cases negative with
  | true => exact (read?_minus _).trans hparts
  | false =>
    obtain ⟨ds, hne, htext, -⟩ := exists_digits whole
    obtain ⟨d, ds, rfl⟩ := List.exists_cons_of_ne_nil hne
    rw [htext] at hparts ⊢
    exact (read?_unsigned d _).trans hparts

end Numeral

end BoardAudit
