import BoardAudit.Calendar.Text
import BoardAudit.Proofs.Text.Decimals
import Mathlib.Data.Fintype.Basic
import Mathlib.Tactic.FinCases

/-!
# Reading back an instant

Every instant reads back from its text (`ofText?_toText`): years of any length with their sign, a leap
second as the sixtieth of its minute, and the fraction from as many digits as it was written in. The
parts of the text are read one after the other, each lemma leaving what follows.
-/

namespace BoardAudit.Instant

open Text

variable {cs : List Char}

/-! ### Numbers and marks -/

/-- A number that fits its places is read from just these, whatever follows. -/
lemma readNumber?_padded {w n : ℕ} (hw : 0 < w) (hn : n < 10 ^ w) (cs : List Char) :
    readNumber? w (padded w n ++ cs) = some (n, cs) := by
  obtain ⟨ds, hne, htext, hvalue, hlength⟩ := exists_digits_padded w n
  have hlength : (digitsText ds).length = w := by
    rw [digitsText, List.length_map]
    exact hlength hw hn
  have hspan : spanDigits (digitsText ds) = (ds, []) := by
    have hall : spanDigits (digitsText ds ++ []) = (ds, []) := spanDigits_append noDigit_nil
    rwa [List.append_nil] at hall
  rw [htext, readNumber?, trimStart_digitsText hne]
  simp only [List.take_left' hlength, hspan]
  obtain ⟨d, ds, rfl⟩ := List.exists_cons_of_ne_nil hne
  have hdrop : (digitsText (d :: ds) ++ cs).drop (d :: ds).length = cs :=
    List.drop_left' (List.length_map _)
  simp only [hvalue, hdrop]

/-- All digits of a padded number are read, if no digit follows. -/
lemma readDigits?_padded (w n : ℕ) (h : NoDigit cs) : readDigits? (padded w n ++ cs) = some (n, cs) := by
  obtain ⟨ds, hne, htext, hvalue, -⟩ := exists_digits_padded w n
  obtain ⟨d, ds, rfl⟩ := List.exists_cons_of_ne_nil hne
  rw [htext, readDigits?, spanDigits_append h]
  simp only [hvalue]

lemma readChar?_cons {c : Char} (h : isBlank c = false) (cs : List Char) :
    readChar? c (c :: cs) = some cs := by
  have htrim : trimStart (c :: cs) = c :: cs := List.dropWhile_cons_of_neg (by simp [h])
  rw [readChar?, htrim]
  exact if_pos rfl

/-! ### Dates -/

lemma readYear?_digit (d : Fin 10) (cs : List Char) :
    readYear? (decimalDigit d :: cs) =
      (readNumber? 4 (decimalDigit d :: cs)).map fun (n, r) => ((n : Int), r) := by
  fin_cases d <;> rfl

lemma readYear?_minus (cs : List Char) :
    readYear? ('-' :: cs) = (readDigits? cs).map fun (n, r) => (-(n : Int), r) := rfl

lemma readYear?_plus (cs : List Char) :
    readYear? ('+' :: cs) = (readDigits? cs).map fun (n, r) => ((n : Int), r) := rfl

/-- A year reads back from its text, if no digit follows. -/
lemma readYear?_yearText (year : Int) (h : NoDigit cs) :
    readYear? (yearText year ++ cs) = some (year, cs) := by
  unfold yearText
  split_ifs with hfour hneg
  · have hread := readNumber?_padded (show 0 < 4 by omega) (show year.toNat < 10 ^ 4 by omega) cs
    obtain ⟨ds, hne, htext, -⟩ := exists_digits_padded 4 year.toNat
    obtain ⟨d, ds, rfl⟩ := List.exists_cons_of_ne_nil hne
    have hyear : (year.toNat : Int) = year := by omega
    rw [htext] at hread ⊢
    refine (readYear?_digit d _).trans ((congrArg (Option.map _) hread).trans ?_)
    simp only [Option.map_some, hyear]
  · have hyear : -(year.natAbs : Int) = year := by omega
    rw [List.cons_append, readYear?_minus, readDigits?_padded 4 year.natAbs h]
    simp only [Option.map_some, hyear]
  · have hyear : (year.natAbs : Int) = year := by omega
    rw [List.cons_append, readYear?_plus, readDigits?_padded 4 year.natAbs h]
    simp only [Option.map_some, hyear]

lemma daysIn_le (year : Int) (month : ℕ) : daysIn year month ≤ 31 := by
  unfold daysIn
  split_ifs <;> omega

/-- A date reads back from its text, whatever follows. -/
theorem readDate?_text (d : Date) (cs : List Char) :
    readDate? (yearText d.year ++ '-' :: (padded 2 d.month ++ '-' :: (padded 2 d.day ++ cs))) =
      some (d, cs) := by
  have hmonth : d.month < 10 ^ 2 := by
    have hle := d.month_le
    omega
  have hday : d.day < 10 ^ 2 := by
    have hle := d.day_le
    have hdays := daysIn_le d.year d.month
    omega
  have hyear := readYear?_yearText d.year
    (noDigit_cons.mpr (by decide) : NoDigit ('-' :: (padded 2 d.month ++ '-' :: (padded 2 d.day ++ cs))))
  simp only [readDate?, hyear, readChar?_cons (show isBlank '-' = false by decide),
    readNumber?_padded Nat.two_pos hmonth, readNumber?_padded Nat.two_pos hday, Option.bind_eq_bind,
    Option.bind_some, Date.of?_parts]

/-! ### Fractions -/

/-- Up to nine digits of a fraction count by their places. -/
lemma nanosOfDigits_eq {ds : List (Fin 10)} (h : ds.length ≤ 9) :
    nanosOfDigits ds = ofDigits ds * 10 ^ (9 - ds.length) := by
  have htake : (ds ++ List.replicate 9 0).take 9 = ds ++ List.replicate (9 - ds.length) 0 := by
    rw [List.take_append, List.take_of_length_le h, List.take_replicate, Nat.min_eq_left (by omega)]
  show ofDigits ((ds ++ List.replicate 9 0).take 9) = _
  rw [htake, ofDigits_append, ofDigits_replicate_zero, List.length_replicate, Nat.add_zero]

/-- A fraction of up to nine digits reads back. -/
lemma readNanos?_padded {w n : ℕ} (hw : 0 < w) (hnine : w ≤ 9) (hn : n < 10 ^ w) (h : NoDigit cs) :
    readNanos? ('.' :: (padded w n ++ cs)) = some (n * 10 ^ (9 - w), cs) := by
  obtain ⟨ds, hne, htext, hvalue, hlength⟩ := exists_digits_padded w n
  have hlength := hlength hw hn
  have hnanos := nanosOfDigits_eq (hlength.trans_le hnine)
  rw [hlength, hvalue] at hnanos
  obtain ⟨d, ds, rfl⟩ := List.exists_cons_of_ne_nil hne
  rw [htext, readNanos?, spanDigits_append h]
  simp only [hnanos]

lemma readNanos?_fractionText {n : ℕ} (hn : n < nanosPerSecond) (h : NoDigit cs)
    (hpoint : ∀ r, cs ≠ '.' :: r) : readNanos? (fractionText n ++ cs) = some (n, cs) := by
  have hn : n < 1000000000 := hn
  unfold fractionText
  split_ifs with hzero hmilli hmicro
  · rw [List.nil_append, readNanos?, hzero]
    · rintro r rfl
      exact hpoint r rfl
  · have hvalue : n / 1000000 * 10 ^ (9 - 3) = n := by omega
    rw [List.cons_append, readNanos?_padded (by omega) (by omega) (by omega) h, hvalue]
  · have hvalue : n / 1000 * 10 ^ (9 - 6) = n := by omega
    rw [List.cons_append, readNanos?_padded (by omega) (by omega) (by omega) h, hvalue]
  · rw [List.cons_append, readNanos?_padded (by omega) (by omega) (by omega) h, Nat.sub_self,
      Nat.pow_zero, Nat.mul_one]

/-! ### Times -/

/-- The time of an instant reads back from its text; a leap second is read from the sixtieth second. -/
theorem readTime?_text (i : Instant) (h : NoDigit cs) (hpoint : ∀ r, cs ≠ '.' :: r) :
    readTime? (padded 2 (i.second / 3600) ++ ':' :: (padded 2 (i.second / 60 % 60) ++
      ':' :: (padded 2 (i.second % 60 + i.nanos / nanosPerSecond) ++
        (fractionText (i.nanos % nanosPerSecond) ++ cs)))) = some (i.second, i.nanos, cs) := by
  have hsecond : i.second < 86400 := i.second_lt
  have hnanos : i.nanos < 2 * 1000000000 := i.nanos_lt
  have hleap : 1000000000 ≤ i.nanos → i.second % 60 = 59 := i.leap
  have hunit : nanosPerSecond = 1000000000 := rfl
  have hfraction := readNanos?_fractionText (Nat.mod_lt i.nanos (by decide)) h hpoint
  simp only [readTime?, readChar?_cons (show isBlank ':' = false by decide), hfraction,
    readNumber?_padded Nat.two_pos (show i.second / 3600 < 10 ^ 2 by omega),
    readNumber?_padded Nat.two_pos (show i.second / 60 % 60 < 10 ^ 2 by omega),
    readNumber?_padded Nat.two_pos
      (show i.second % 60 + i.nanos / nanosPerSecond < 10 ^ 2 by rw [hunit]; omega),
    Option.bind_eq_bind, Option.bind_some]
  rw [hunit, if_neg (by omega)]
  by_cases hsixty : i.second % 60 + i.nanos / 1000000000 = 60
  · have hday : (i.second / 3600 * 60 + i.second / 60 % 60) * 60 + 59 = i.second := by omega
    have hover : 1000000000 + i.nanos % 1000000000 = i.nanos := by omega
    rw [if_pos hsixty, hday, hover]
  · have hday : (i.second / 3600 * 60 + i.second / 60 % 60) * 60 +
      (i.second % 60 + i.nanos / 1000000000) = i.second := by omega
    have hunder : i.nanos % 1000000000 = i.nanos := by omega
    rw [if_neg hsixty, hday, hunder]

/-! ### Instants -/

/-- An instant is read from a date, a time and a zone. -/
lemma ofText?_of {d : Date} {second nanos : ℕ} {offset : Int} {ts zs : List Char}
    (hdate : readDate? cs = some (d, 'T' :: ts)) (htime : readTime? ts = some (second, nanos, zs))
    (hzone : readZone? zs = some (offset, [])) : ofText? cs = ofLocal? d second nanos offset := by
  simp only [ofText?, hdate, Option.bind_eq_bind, Option.bind_some, true_or, if_true, htime, hzone,
    trimStart_nil]

/-- Every instant reads back from its text. -/
theorem ofText?_toText (i : Instant) : ofText? i.toText = some i := by
  have htime := readTime?_text i (noDigit_cons.mpr (by decide) : NoDigit ['Z']) (by simp)
  have hzone : readZone? ['Z'] = some (0, []) := rfl
  have hdate := readDate?_text i.date ('T' :: (padded 2 (i.second / 3600) ++ ':' ::
    (padded 2 (i.second / 60 % 60) ++ ':' :: (padded 2 (i.second % 60 + i.nanos / nanosPerSecond) ++
      (fractionText (i.nanos % nanosPerSecond) ++ ['Z'])))))
  simp only [toText, List.append_assoc, List.cons_append]
  exact (ofText?_of hdate htime hzone).trans (ofLocal?_zero i)

@[simp] theorem ofString?_toString (i : Instant) : ofString? i.toString = some i := by
  rw [ofString?, toString, String.toList_ofList, ofText?_toText]

end BoardAudit.Instant
