import BoardAudit.Text.Blank
import BoardAudit.Text.Digits
import Mathlib.Tactic.Lemma
import Mathlib.Tactic.Ring

/-!
# Decimals

A number reads back from its decimal digits. `exists_digits` and `exists_digits_padded` say what digits a
number is written in; `spanDigits_append` says that a run of digits is read as a whole where something
else follows it, and `ofDigits_append` how the value of a run hangs on its parts.
-/

namespace BoardAudit.Text

/-- The text of digits. -/
def digitsText (ds : List (Fin 10)) : List Char := ds.map decimalDigit

/-- Whether a text does not go on with a decimal digit. -/
def NoDigit (cs : List Char) : Prop := ∀ c ∈ cs.head?, digitValue? c = none

variable {ds es : List (Fin 10)} {cs : List Char}

@[simp] lemma noDigit_nil : NoDigit [] := by simp [NoDigit]

@[simp] lemma noDigit_cons {c : Char} : NoDigit (c :: cs) ↔ digitValue? c = none := by
  simp [NoDigit]

/-! ### One digit -/

lemma digitValue?_decimalDigit : ∀ d : Fin 10, digitValue? (decimalDigit d) = some d := by decide

lemma isBlank_decimalDigit : ∀ d : Fin 10, isBlank (decimalDigit d) = false := by decide

lemma decimalDigit_eq_digitChar : ∀ d : Fin 10, decimalDigit d = Nat.digitChar d := by decide

lemma decimalDigit_eq_zero_iff : ∀ d : Fin 10, decimalDigit d = '0' ↔ d = 0 := by decide

/-- Digits stand between a space and the letters. -/
lemma toNat_decimalDigit : ∀ d : Fin 10, (decimalDigit d).toNat = 48 + d := by decide

lemma eq_decimalDigit {c : Char} {d : Fin 10} (h : digitValue? c = some d) : c = decimalDigit d := by
  unfold digitValue? at h
  split at h
  · next hc =>
    cases h
    have hlow : 48 ≤ c.toNat := hc.1
    have hhigh : c.toNat ≤ 57 := hc.2
    have hcode : 48 + (c.toNat - 48) % 10 = c.toNat := by omega
    show c = Char.ofNat (48 + (c.toNat - 48) % 10)
    rw [hcode, Char.ofNat_toNat]
  · cases h

/-! ### Runs of digits -/

lemma trimStart_digitsText (h : ds ≠ []) : trimStart (digitsText ds ++ cs) = digitsText ds ++ cs := by
  obtain ⟨d, ds, rfl⟩ := List.exists_cons_of_ne_nil h
  simp [digitsText, trimStart, isBlank_decimalDigit]

/-- A run of digits is read as a whole where something else follows it. -/
theorem spanDigits_append (h : NoDigit cs) : spanDigits (digitsText ds ++ cs) = (ds, cs) := by
  induction ds with
  | nil =>
    cases cs with
    | nil => rfl
    | cons c cs =>
      rw [noDigit_cons] at h
      simp [digitsText, spanDigits, h]
  | cons d ds ih =>
    have hcons : digitsText (d :: ds) ++ cs = decimalDigit d :: (digitsText ds ++ cs) := rfl
    simp only [hcons, spanDigits, digitValue?_decimalDigit, ih]

/-- What is read as a run of digits is their text. -/
lemma eq_of_spanDigits {r : List Char} (h : spanDigits cs = (ds, r)) : cs = digitsText ds ++ r := by
  induction cs generalizing ds with
  | nil =>
    cases h
    rfl
  | cons c cs ih =>
    cases hc : digitValue? c with
    | none =>
      simp only [spanDigits, hc] at h
      cases h
      rfl
    | some d =>
      simp only [spanDigits, hc] at h
      cases h
      rw [digitsText, List.map_cons, List.cons_append, ← eq_decimalDigit hc]
      exact congrArg _ (ih rfl)

/-- The value of a run of digits behind those whose value is `n`. -/
lemma foldl_digits (n : ℕ) :
    ds.foldl (fun (n : ℕ) (d : Fin 10) => 10 * n + d) n = n * 10 ^ ds.length + ofDigits ds := by
  induction ds generalizing n with
  | nil => simp [ofDigits]
  | cons d ds ih =>
    have hcons : ofDigits (d :: ds) = (10 * 0 + d) * 10 ^ ds.length + ofDigits ds := ih (10 * 0 + d)
    rw [List.foldl_cons, ih, hcons, List.length_cons, Nat.pow_succ]
    ring

theorem ofDigits_append : ofDigits (ds ++ es) = ofDigits ds * 10 ^ es.length + ofDigits es := by
  rw [ofDigits, List.foldl_append, foldl_digits]
  rfl

/-! ### The digits of a number -/

/-- A number is written in digits of its value, and only zero is written with a zero first. -/
theorem exists_digits (n : ℕ) : ∃ ds, ds ≠ [] ∧ (Nat.repr n).toList = digitsText ds ∧
    ofDigits ds = n ∧ (ds.head? = some 0 → n = 0) := by
  rw [Nat.toList_repr]
  induction n using Nat.strong_induction_on with
  | _ n ih =>
    rw [Nat.toDigits_eq_if (by decide)]
    split
    · next h =>
      refine ⟨[⟨n, h⟩], by simp, ?_, ?_, ?_⟩
      · simp [digitsText, decimalDigit_eq_digitChar]
      · simp [ofDigits]
      · simp [Fin.ext_iff]
    · next h =>
      obtain ⟨ds, hne, htext, hvalue, hhead⟩ := ih (n / 10) (by omega)
      refine ⟨ds ++ [⟨n % 10, Nat.mod_lt n (by decide)⟩], by simp, ?_, ?_, ?_⟩
      · simp [htext, digitsText, decimalDigit_eq_digitChar]
      · rw [ofDigits_append, hvalue]
        simp [ofDigits]
        omega
      · intro hzero
        obtain ⟨d, ds, rfl⟩ := List.exists_cons_of_ne_nil hne
        have hsmall := hhead hzero
        omega

lemma ofDigits_replicate_zero (k : ℕ) : ofDigits (List.replicate k 0) = 0 := by
  induction k with
  | zero => rfl
  | succ k ih =>
    rw [List.replicate_succ', ofDigits_append, ih]
    rfl

/-- In any number of places a number is written in digits of its value, and in no more digits than places
if it fits. -/
theorem exists_digits_padded (w n : ℕ) : ∃ ds, ds ≠ [] ∧ padded w n = digitsText ds ∧
    ofDigits ds = n ∧ (0 < w → n < 10 ^ w → ds.length = w) := by
  obtain ⟨ds, hne, htext, hvalue, -⟩ := exists_digits n
  have hlength : (Nat.repr n).toList.length = ds.length := by simp [htext, digitsText]
  refine ⟨List.replicate (w - ds.length) 0 ++ ds, by simp [hne], ?_, ?_, ?_⟩
  · have hzero : decimalDigit 0 = '0' := rfl
    simp [padded, htext, digitsText, hzero]
  · rw [ofDigits_append, ofDigits_replicate_zero, hvalue, Nat.zero_mul, Nat.zero_add]
  · intro hw hn
    have hfits : ds.length ≤ w := by
      rw [← hlength, Nat.toList_repr]
      exact (Nat.length_toDigits_le_iff (by decide) hw).mpr hn
    rw [List.length_append, List.length_replicate]
    omega

end BoardAudit.Text
