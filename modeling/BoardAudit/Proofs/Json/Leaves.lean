import BoardAudit.Proofs.Json.Reading

/-!
# What strings and numbers are read from

A string is read from the text up to its closing quote, whatever follows (`Json.exists_of_readString?`), and
a number from the text that spells it, whatever follows, if this does not prolong it
(`Numeral.exists_of_read?`). What is read so never ends with white space (`Json.Closed`).
-/

namespace BoardAudit

open Text

/-! ### White space -/

namespace Json

/-- White space between the parts of a JSON text. -/
def IsSpace (c : Char) : Prop := c = ' ' ∨ c = '\t' ∨ c = '\n' ∨ c = '\r'

instance : DecidablePred IsSpace := fun c => by unfold IsSpace; infer_instance

/-- Whether a text is nothing but white space. -/
def Gap (cs : List Char) : Prop := ∀ c ∈ cs, IsSpace c

instance (cs : List Char) : Decidable (Gap cs) := List.decidableBAll IsSpace cs

/-- Whether a text ends with something other than white space. -/
def Closed (cs : List Char) : Prop := ∃ init c, cs = init ++ [c] ∧ ¬IsSpace c

variable {cs gap : List Char} {c : Char}

@[simp] lemma gap_nil : Gap [] := by simp [Gap]

@[simp] lemma gap_cons : Gap (c :: cs) ↔ IsSpace c ∧ Gap cs := List.forall_mem_cons

@[simp] lemma gap_append : Gap (cs ++ gap) ↔ Gap cs ∧ Gap gap := List.forall_mem_append

lemma closed_singleton (h : ¬IsSpace c) : Closed [c] := ⟨[], c, rfl, h⟩

lemma Closed.append (h : Closed cs) (before : List Char) : Closed (before ++ cs) := by
  obtain ⟨init, c, rfl, hc⟩ := h
  exact ⟨before ++ init, c, by rw [List.append_assoc], hc⟩

lemma Closed.cons (h : Closed cs) (c : Char) : Closed (c :: cs) := h.append [c]

lemma Closed.append_or {ds : List Char} (h : Closed cs) (hds : ds = [] ∨ Closed ds) :
    Closed (cs ++ ds) := by
  rcases hds with rfl | hds
  · rwa [List.append_nil]
  · exact hds.append cs

lemma skipSpace_of_isSpace (h : IsSpace c) (cs : List Char) :
    skipSpace (c :: cs) = skipSpace cs := if_pos h

lemma skipSpace_of_not_isSpace (h : ¬IsSpace c) (cs : List Char) :
    skipSpace (c :: cs) = c :: cs := if_neg h

lemma skipSpace_append (h : Gap gap) (cs : List Char) : skipSpace (gap ++ cs) = skipSpace cs := by
  induction gap with
  | nil => rfl
  | cons c gap ih =>
    obtain ⟨hc, hgap⟩ := gap_cons.mp h
    rw [List.cons_append, skipSpace_of_isSpace hc, ih hgap]

/-- What is skipped is white space, and what is left begins with something else. -/
lemma exists_gap (cs : List Char) : ∃ gap, Gap gap ∧ cs = gap ++ skipSpace cs ∧
    ∀ c ∈ (skipSpace cs).head?, ¬IsSpace c := by
  induction cs with
  | nil => exact ⟨[], gap_nil, rfl, by simp [skipSpace]⟩
  | cons c cs ih =>
    by_cases hc : IsSpace c
    · obtain ⟨gap, hgap, he, hhead⟩ := ih
      rw [skipSpace_of_isSpace hc]
      exact ⟨c :: gap, gap_cons.mpr ⟨hc, hgap⟩, by rw [List.cons_append, ← he], hhead⟩
    · rw [skipSpace_of_not_isSpace hc]
      exact ⟨[], gap_nil, rfl, by simpa using hc⟩

/-- Behind what is skipped, if anything is left. -/
lemma exists_gap_of_skipSpace {r : List Char} (h : skipSpace cs = c :: r) :
    ∃ gap, Gap gap ∧ cs = gap ++ c :: r ∧ ¬IsSpace c := by
  obtain ⟨gap, hgap, he, hhead⟩ := exists_gap cs
  rw [h] at he hhead
  exact ⟨gap, hgap, he, hhead c rfl⟩

lemma skipSpace_eq_nil_iff : skipSpace cs = [] ↔ Gap cs := by
  constructor
  · intro h
    obtain ⟨gap, hgap, he, -⟩ := exists_gap cs
    rw [h, List.append_nil] at he
    rwa [he]
  · intro h
    have hskip := skipSpace_append h []
    rwa [List.append_nil] at hskip

/-- White space behind a text is part of what follows what is closed. -/
lemma exists_of_append_gap {used rest : List Char} (hused : Closed used) (hgap : Gap gap)
    (h : used ++ rest = cs ++ gap) : ∃ between, cs = used ++ between ∧ rest = between ++ gap := by
  rcases List.append_eq_append_iff.mp h with ⟨between, hcs, hrest⟩ | ⟨excess, hcs, hgap'⟩
  · exact ⟨between, hcs, hrest⟩
  · -- what is closed does not reach into white space
    obtain ⟨init, c, rfl, hc⟩ := hused
    rcases List.eq_nil_or_concat excess with rfl | ⟨excess, d, rfl⟩
    · exact ⟨[], by simpa using hcs.symm, by simpa using hgap'.symm⟩
    · rw [List.concat_eq_append] at hcs hgap'
      rw [← List.append_assoc] at hcs
      obtain ⟨-, hcd⟩ := List.append_inj' hcs rfl
      obtain rfl : c = d := by simpa using hcd
      have hspace : IsSpace c := hgap c (by rw [hgap']; simp)
      exact absurd hspace hc

/-! ### Strings -/

/-- Whether a list of pieces is read from a text, whatever follows it. -/
def SpellsPieces (cs : List Char) (ps : List Piece) : Prop :=
  Closed cs ∧ ∀ rest, readPieces? (cs ++ rest) = some (ps, rest)

/-- What is read as one piece in front of any others. -/
lemma exists_of_readPieces?_append (front : List Char) {cs r : List Char} {p : Piece} {ps : List Piece}
    (hfront : ∀ cs, readPieces? (front ++ cs) = (readPieces? cs).map fun q => (p :: q.1, q.2))
    (ih : ∀ {r ps}, readPieces? cs = some (ps, r) → ∃ used, cs = used ++ r ∧ SpellsPieces used ps)
    (h : readPieces? (front ++ cs) = some (ps, r)) :
    ∃ used, front ++ cs = used ++ r ∧ SpellsPieces used ps := by
  rw [hfront, Option.map_eq_some_iff] at h
  obtain ⟨⟨qs, r'⟩, hread, he⟩ := h
  cases he
  obtain ⟨used, rfl, hclosed, hused⟩ := ih hread
  refine ⟨front ++ used, by rw [List.append_assoc], hclosed.append front, fun rest => ?_⟩
  rw [List.append_assoc, hfront, hused]
  rfl

/-- The pieces of a string are read from the text up to its closing quote. -/
lemma exists_of_readPieces? {cs r : List Char} {ps : List Piece} (h : readPieces? cs = some (ps, r)) :
    ∃ used, cs = used ++ r ∧ SpellsPieces used ps := by
  induction cs using readPieces?.induct generalizing ps r with
  | case1 => cases h
  | case2 cs =>
    cases h
    exact ⟨['"'], rfl, closed_singleton (by decide), fun rest => rfl⟩
  | case3 a b c d cs ih =>
    have h' := h
    simp only [readPieces?, Option.bind_eq_bind, Option.bind_eq_some_iff] at h'
    obtain ⟨w, ha, x, hb, y, hc, z, hd, -⟩ := h'
    exact exists_of_readPieces?_append ['\\', 'u', a, b, c, d]
      (readPieces?_unit ha hb hc hd) ih h
  | case4 c cs hu ih =>
    have h' := h
    rw [readPieces?.eq_4 c cs hu, Option.bind_eq_bind, Option.bind_eq_some_iff] at h'
    obtain ⟨d, hshort, -⟩ := h'
    have hc : c ≠ 'u' := by
      rintro rfl
      cases hshort
    exact exists_of_readPieces?_append ['\\', c] (readPieces?_short hshort hc) ih h
  | case5 c cs hq hu hs hlow =>
    rw [readPieces?.eq_5 c cs hq hu hs, if_pos hlow] at h
    cases h
  | case6 c cs hq hu hs hlow ih =>
    obtain ⟨hlow, hb⟩ := not_or.mp hlow
    exact exists_of_readPieces?_append [c] (readPieces?_plain hq hb hlow) ih h

/-- A string behind its opening quote is read from the text up to its closing quote. -/
lemma exists_of_readString? {cs r : List Char} {s : Option String}
    (h : readString? cs = some (s, r)) :
    ∃ used, cs = used ++ r ∧ Closed used ∧
      ∀ rest, readString? (used ++ rest) = some (s, rest) := by
  simp only [readString?, Option.bind_eq_bind, Option.bind_eq_some_iff] at h
  obtain ⟨⟨ps, r'⟩, hread, he⟩ := h
  cases he
  obtain ⟨used, rfl, hclosed, hused⟩ := exists_of_readPieces? hread
  refine ⟨used, rfl, hclosed, fun rest => ?_⟩
  rw [readString?, hused]
  rfl

end Json

/-! ### Numbers -/

namespace Numeral

open Json (Closed)

variable {cs r : List Char}

lemma closed_digitsText {ds : List (Fin 10)} (h : ds ≠ []) : Closed (digitsText ds) := by
  have hdigit : ∀ d : Fin 10, ¬Json.IsSpace (decimalDigit d) := by decide
  obtain rfl | ⟨ds, d, rfl⟩ := List.eq_nil_or_concat ds
  · exact absurd rfl h
  · exact ⟨digitsText ds, decimalDigit d, by simp [digitsText], hdigit d⟩

lemma closed_fractionPart (ds : List (Fin 10)) : fractionPart ds = [] ∨ Closed (fractionPart ds) := by
  cases ds with
  | nil => exact .inl rfl
  | cons d ds => exact .inr ((closed_digitsText (by simp)).cons '.')

lemma exists_of_readWhole? {n : ℕ} (h : readWhole? cs = some (n, r)) :
    ∃ ds, ds ≠ [] ∧ cs = digitsText ds ++ r ∧
      ∀ rest, NoDigit rest → readWhole? (digitsText ds ++ rest) = some (n, rest) := by
  unfold readWhole? at h
  split at h
  · cases h
    exact ⟨[0], by simp, rfl, fun rest _ => rfl⟩
  · next cs hzero =>
    split at h
    · cases h
    · next ds r' hne hspan =>
      cases h
      have hcs := eq_of_spanDigits hspan
      obtain ⟨d, ds, rfl⟩ := List.exists_cons_of_ne_nil hne
      refine ⟨d :: ds, by simp, hcs, fun rest hrest => ?_⟩
      unfold readWhole?
      split
      · next tail he =>
        -- a zero in front would have been read alone
        have hd : decimalDigit d = '0' := (List.cons.inj he).1
        refine absurd ?_ (hzero (digitsText ds ++ r))
        rw [hcs, ← hd]
        rfl
      · rw [spanDigits_append hrest]

lemma eq_of_readFraction? {ds : List (Fin 10)} (h : readFraction? cs = some (ds, r)) :
    cs = fractionPart ds ++ r := by
  unfold readFraction? at h
  split at h
  · next cs =>
    split at h
    · cases h
    · next ds' r' hne hspan =>
      cases h
      obtain ⟨d, ds, rfl⟩ := List.exists_cons_of_ne_nil hne
      rw [eq_of_spanDigits hspan]
      rfl
  · cases h
    rfl

lemma exists_of_readPower? {negative : Bool} {e : Option Int}
    (h : readPower? negative cs = some (e, r)) :
    ∃ d ds, cs = digitsText (d :: ds) ++ r ∧
      ∀ rest, NoDigit rest → readPower? negative (digitsText (d :: ds) ++ rest) = some (e, rest) := by
  unfold readPower? at h
  split at h
  · cases h
  · next ds r' hne hspan =>
    cases h
    obtain ⟨d, ds, rfl⟩ := List.exists_cons_of_ne_nil hne
    exact ⟨d, ds, eq_of_spanDigits hspan, fun rest hrest => readPower?_digits negative hrest⟩

/-- The sign of an exponent, if it has one, with what is read behind it. -/
lemma exists_sign {c : Char} (hc : c = 'e' ∨ c = 'E') (cs : List Char) :
    ∃ sign negative digits, cs = sign ++ digits ∧
      readExponent? (c :: cs) = readPower? negative digits ∧
      ∀ d cs', readExponent? (c :: (sign ++ decimalDigit d :: cs')) =
        readPower? negative (decimalDigit d :: cs') := by
  rw [readExponent?_mark hc]
  split
  · next cs => exact ⟨['-'], true, cs, rfl, rfl, fun d cs' => readExponent?_mark hc _⟩
  · next cs => exact ⟨['+'], false, cs, rfl, rfl, fun d cs' => readExponent?_mark hc _⟩
  · refine ⟨[], false, cs, rfl, rfl, fun d cs' => ?_⟩
    rw [List.nil_append, readExponent?_unsigned hc]

/-- An exponent is read from its mark, its sign and its digits, if there are any. -/
lemma exists_of_readExponent? {e : Option Int} (h : readExponent? cs = some (e, r)) :
    ∃ used, cs = used ++ r ∧ (used = [] ∨ Closed used) ∧
      ∀ rest, Ends rest → NoDigit (used ++ rest) ∧ (∀ tail, used ++ rest ≠ '.' :: tail) ∧
        readExponent? (used ++ rest) = some (e, rest) := by
  by_cases hmark : ∃ c cs', cs = c :: cs' ∧ (c = 'e' ∨ c = 'E')
  · obtain ⟨c, cs, rfl, hc⟩ := hmark
    obtain ⟨sign, negative, digits, rfl, hread, hsign⟩ := exists_sign hc cs
    rw [hread] at h
    obtain ⟨d, ds, rfl, hpower⟩ := exists_of_readPower? h
    refine ⟨c :: (sign ++ digitsText (d :: ds)), by simp, .inr ?_, fun rest hrest => ⟨?_, ?_, ?_⟩⟩
    · exact ((closed_digitsText (by simp)).append sign).cons c
    · refine noDigit_cons.mpr ?_
      rcases hc with rfl | rfl <;> decide
    · rintro tail he
      have hpoint : c = '.' := (List.cons.inj he).1
      rcases hc with rfl | rfl <;> exact absurd hpoint (by decide)
    · rw [List.cons_append, List.append_assoc]
      exact (hsign d _).trans (hpower rest hrest.noDigit)
  · -- nothing is read where no exponent is begun
    have hnone : readExponent? cs = some (none, cs) := by
      cases cs with
      | nil => rfl
      | cons c cs => exact if_neg fun hc => hmark ⟨c, cs, rfl, hc⟩
    rw [hnone] at h
    cases h
    refine ⟨[], rfl, .inl rfl, fun rest hrest => ⟨hrest.noDigit, ?_, readExponent?_part none hrest⟩⟩
    exact exponentPart_ne_point none hrest

lemma exists_of_readParts? {negative : Bool} {n : Numeral}
    (h : readParts? negative cs = some (n, r)) :
    ∃ d used, cs = decimalDigit d :: used ++ r ∧ Closed (decimalDigit d :: used) ∧
      ∀ rest, Ends rest → readParts? negative (decimalDigit d :: used ++ rest) = some (n, rest) := by
  simp only [readParts?, Option.bind_eq_bind, Option.bind_eq_some_iff] at h
  obtain ⟨⟨whole, r₁⟩, hwhole, ⟨fraction, r₂⟩, hfraction, ⟨exponent, r₃⟩, hexponent, he⟩ := h
  cases he
  obtain ⟨ds, hne, rfl, hwhole'⟩ := exists_of_readWhole? hwhole
  obtain rfl := eq_of_readFraction? hfraction
  obtain ⟨power, rfl, hclosed, hexponent'⟩ := exists_of_readExponent? hexponent
  obtain ⟨d, ds, rfl⟩ := List.exists_cons_of_ne_nil hne
  refine ⟨d, digitsText ds ++ fractionPart fraction ++ power, ?_, ?_, fun rest hrest => ?_⟩
  · simp [digitsText]
  · exact ((closed_digitsText hne).append_or (closed_fractionPart fraction)).append_or hclosed
  · obtain ⟨hdigit, hpoint, hread⟩ := hexponent' rest hrest
    have hw := hwhole' _ (noDigit_fractionPart fraction hdigit)
    have hf := readFraction?_part fraction hdigit hpoint
    have hcons : decimalDigit d :: (digitsText ds ++ fractionPart fraction ++ power) ++ rest =
        digitsText (d :: ds) ++ (fractionPart fraction ++ (power ++ rest)) := by simp [digitsText]
    rw [hcons]
    simp only [readParts?, hw, hf, hread, Option.bind_eq_bind, Option.bind_some]

/-- A number is read from the text that spells it, whatever follows, if this does not prolong it. -/
lemma exists_of_read? {n : Numeral} (h : read? cs = some (n, r)) :
    ∃ c used, cs = c :: used ++ r ∧ (c = '-' ∨ ∃ d, c = decimalDigit d) ∧ Closed (c :: used) ∧
      ∀ rest, Ends rest → read? (c :: used ++ rest) = some (n, rest) := by
  cases cs with
  | nil => cases h
  | cons c cs =>
    by_cases hc : c = '-'
    · subst hc
      obtain ⟨d, used, rfl, hclosed, hread⟩ := exists_of_readParts? h
      exact ⟨'-', decimalDigit d :: used, rfl, .inl rfl, hclosed.cons '-', hread⟩
    · rw [read?_of_ne hc] at h
      obtain ⟨d, used, he, hclosed, hread⟩ := exists_of_readParts? h
      refine ⟨decimalDigit d, used, he, .inr ⟨d, rfl⟩, hclosed, fun rest hrest => ?_⟩
      exact (read?_unsigned d _).trans (hread rest hrest)

end Numeral

end BoardAudit
