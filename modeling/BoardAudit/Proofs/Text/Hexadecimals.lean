import BoardAudit.Text.Digits
import Mathlib.Algebra.Group.Nat.Defs
import Mathlib.Data.List.Induction
import Mathlib.Tactic.Lemma

/-!
# Hexadecimals

Hexadecimal digits are read in either case. A text of digits writes a number exactly when, in lower
case, it is the digits of that number (`ofHex?_eq_some_iff`).
-/

namespace BoardAudit.Text

/-! ### Cases of letters -/

lemma toNat_toLower (c : Char) :
    c.toLower.toNat = if 65 ≤ c.toNat ∧ c.toNat ≤ 90 then c.toNat + 32 else c.toNat := by
  have hcap : (c.val ≥ 'A'.val ∧ c.val ≤ 'Z'.val) ↔ (65 ≤ c.toNat ∧ c.toNat ≤ 90) := Iff.rfl
  unfold Char.toLower
  split
  · next h =>
    rw [if_pos (hcap.mp h)]
    show (c.val + 32).toNat = c.toNat + 32
    have hc : c.val.toNat = c.toNat := rfl
    have hle := (hcap.mp h).2
    rw [UInt32.toNat_add, hc, show (32 : UInt32).toNat = 32 from rfl]
    omega
  · next h => rw [if_neg (mt hcap.mpr h)]

/-- What is no letter is a lower case of itself alone. -/
lemma eq_of_toLower_eq {c d : Char} (h : c.toLower = d) (hd : d.toNat < 97 ∨ 122 < d.toNat) : c = d := by
  have hcode := toNat_toLower c
  rw [h] at hcode
  apply Char.toNat_inj.mp
  split at hcode
  · omega
  · exact hcode.symm

/-! ### One digit -/

lemma toNat_hexDigit {d : ℕ} (h : d < 16) : (hexDigit d).toNat = if d < 10 then 48 + d else 87 + d := by
  have hdigits : ∀ d : Fin 16, (hexDigit d).toNat = if d.val < 10 then 48 + d.val else 87 + d.val := by
    decide
  exact hdigits ⟨d, h⟩

/-- A character is the digit of a value, in either case, when its lower case is. -/
lemma hexValue?_eq_some_iff {c : Char} {d : ℕ} :
    hexValue? c = some d ↔ d < 16 ∧ c.toLower = hexDigit d := by
  have hlower := toNat_toLower c
  have hdecimal : ('0' ≤ c ∧ c ≤ '9') ↔ (48 ≤ c.toNat ∧ c.toNat ≤ 57) := Iff.rfl
  have hsmall : ('a' ≤ c ∧ c ≤ 'f') ↔ (97 ≤ c.toNat ∧ c.toNat ≤ 102) := Iff.rfl
  have hcapital : ('A' ≤ c ∧ c ≤ 'F') ↔ (65 ≤ c.toNat ∧ c.toNat ≤ 70) := Iff.rfl
  simp only [hexValue?, hdecimal, hsmall, hcapital]
  constructor
  · intro h
    have hd : d < 16 := by
      split_ifs at h <;> simp only [Option.some.injEq] at h <;> omega
    refine ⟨hd, Char.toNat_inj.mp ?_⟩
    rw [toNat_hexDigit hd]
    split_ifs at h hlower ⊢ <;> simp only [Option.some.injEq] at h <;> omega
  · rintro ⟨hd, hc⟩
    rw [hc, toNat_hexDigit hd] at hlower
    have hcode : d < 10 ∧ c.toNat = 48 + d ∨ 10 ≤ d ∧ (c.toNat = 87 + d ∨ c.toNat = 55 + d) := by
      split_ifs at hlower <;> omega
    rcases hcode with ⟨hten, hcode⟩ | ⟨hten, hcode | hcode⟩
    · rw [if_pos (by omega), hcode, Nat.add_sub_cancel_left]
    · rw [if_neg (by omega), if_pos (by omega), hcode, Nat.add_sub_cancel_left]
    · rw [if_neg (by omega), if_neg (by omega), if_pos (by omega), hcode, Nat.add_sub_cancel_left]

/-! ### Runs of digits -/

lemma ofHex?_concat (cs : List Char) (c : Char) :
    ofHex? (cs ++ [c]) = (ofHex? cs).bind fun n => (hexValue? c).map fun d => 16 * n + d := by
  rw [ofHex?, ofHexFrom?_append]
  congr
  funext n
  cases h : hexValue? c <;> simp [ofHexFrom?, h]

/-- A text of digits writes a number exactly when, in lower case, it is the digits of that number. -/
theorem ofHex?_eq_some_iff {cs : List Char} {n : ℕ} :
    ofHex? cs = some n ↔ n < 16 ^ cs.length ∧ cs.map Char.toLower = hexDigits cs.length n := by
  induction cs using List.reverseRecOn generalizing n with
  | nil => simp [ofHex?, ofHexFrom?, hexDigits, eq_comm]
  | append_singleton cs c ih =>
    simp only [ofHex?_concat, Option.bind_eq_some_iff, Option.map_eq_some_iff, ih,
      hexValue?_eq_some_iff, List.length_append, List.length_singleton, List.map_append,
      List.map_singleton, hexDigits, Nat.pow_succ]
    constructor
    · rintro ⟨m, ⟨hm, hcs⟩, d, ⟨hd, hc⟩, rfl⟩
      have hquotient : (16 * m + d) / 16 = m := by omega
      have hrest : (16 * m + d) % 16 = d := by omega
      rw [hquotient, hrest, hcs, hc]
      exact ⟨by omega, rfl⟩
    · rintro ⟨hn, hdigits⟩
      obtain ⟨hcs, hc⟩ := List.append_inj' hdigits rfl
      refine ⟨n / 16, ⟨by omega, hcs⟩, n % 16, ⟨Nat.mod_lt n (by decide), ?_⟩, by omega⟩
      exact List.singleton_inj.mp hc

end BoardAudit.Text
