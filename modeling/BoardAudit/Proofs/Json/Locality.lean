import BoardAudit.Proofs.Json.Leaves

/-!
# What a value is read from

Whatever is read as a value is read from the text in front of what is left, and what is left has no say in
it, if it does not prolong a number (`Json.local_all`). So a text has a value exactly when it is read from
some text behind which there is only white space (`Json.parse?_eq_some_iff`): more white space behind it
changes nothing (`Json.parse?_append_gap`), and anything else spoils it (`Json.parse?_append_eq_none`).
-/

namespace BoardAudit

open Text

namespace Json

/-! ### Readers -/

section

variable {α : Type}

/-- Whether a reader reads something from a text with enough fuel, whatever follows, if this does not
prolong a number. -/
structure Reads (read : ℕ → List Char → Option (α × List Char)) (cs : List Char) (x : α) : Prop where
  closed : Closed cs
  read : ∀ fuel rest, 2 * cs.length ≤ fuel → Numeral.Ends rest → read fuel (cs ++ rest) = some (x, rest)

/-- Whether all that a reader reads with some fuel is read from the text in front of what it leaves. -/
def Local (read : ℕ → List Char → Option (α × List Char)) (fuel : ℕ) : Prop :=
  ∀ cs x r, read fuel cs = some (x, r) → ∃ used, cs = used ++ r ∧ Reads read used x

variable {read : ℕ → List Char → Option (α × List Char)} {cs gap : List Char} {x : α}

/-- White space does not prolong a number. -/
lemma Gap.ends {rest : List Char} (h : Gap gap) (hrest : Numeral.Ends rest) :
    Numeral.Ends (gap ++ rest) := by
  cases gap with
  | nil => exact hrest
  | cons c gap =>
    refine .cons ?_
    rcases (gap_cons.mp h).1 with rfl | rfl | rfl | rfl
    all_goals decide

lemma Reads.of_succ (h : Closed cs)
    (hread : ∀ fuel rest, 2 * cs.length ≤ fuel + 1 → Numeral.Ends rest →
      read (fuel + 1) (cs ++ rest) = some (x, rest)) : Reads read cs x := by
  refine ⟨h, fun fuel rest hf hrest => ?_⟩
  obtain ⟨init, c, rfl, -⟩ := h
  rw [List.length_append, List.length_singleton] at hf
  obtain ⟨fuel, rfl⟩ : ∃ f, fuel = f + 1 := ⟨fuel - 1, by omega⟩
  exact hread fuel rest (by simpa using hf) hrest

lemma Reads.exists_cons (h : Reads read cs x) : ∃ c cs', cs = c :: cs' := by
  obtain ⟨init, c, rfl, -⟩ := h.closed
  cases init with
  | nil => exact ⟨c, [], rfl⟩
  | cons d init => exact ⟨d, init ++ [c], rfl⟩

/-- What stands behind a sign. -/
def readBehind? (sign : Char) (read : List Char → Option (α × List Char)) (cs : List Char) :
    Option (α × List Char) :=
  match skipSpace cs with
  | c :: r => if c = sign then read r else none
  | [] => none

lemma readBehind?_gap {sign : Char} {read : List Char → Option (α × List Char)} (hgap : Gap gap)
    (hsign : ¬IsSpace sign) (cs : List Char) :
    readBehind? sign read (gap ++ sign :: cs) = read cs := by
  rw [readBehind?, skipSpace_append hgap, skipSpace_of_not_isSpace hsign]
  exact if_pos rfl

lemma exists_of_readBehind? {sign : Char} {read : List Char → Option (α × List Char)} {r : List Char}
    (h : readBehind? sign read cs = some (x, r)) :
    ∃ gap rest, Gap gap ∧ cs = gap ++ sign :: rest ∧ ¬IsSpace sign ∧ read rest = some (x, r) := by
  simp only [readBehind?] at h
  split at h
  · next c rest hskip =>
    split at h
    · next hc =>
      subst hc
      obtain ⟨gap, hgap, he, hsign⟩ := exists_gap_of_skipSpace hskip
      exact ⟨gap, rest, hgap, he, hsign, h⟩
    · cases h
  · cases h

/-- What stands between an opening and a closing sign, if anything does. -/
def readBetween? (close : Char) (read : List Char → Option (List α × List Char)) (cs : List Char) :
    Option (List α × List Char) :=
  match skipSpace cs with
  | c :: r => if c = close then some ([], r) else read (c :: r)
  | [] => read []

lemma Local.between {read : ℕ → List Char → Option (List α × List Char)} {fuel : ℕ}
    (h : Local read fuel) {close : Char} (hclose : ¬IsSpace close) :
    Local (fun fuel => readBetween? close (read fuel)) fuel := by
  intro cs xs r hread
  simp only [readBetween?] at hread
  split at hread
  · next c r' hskip =>
    obtain ⟨gap, hgap, rfl, hc⟩ := exists_gap_of_skipSpace hskip
    split at hread
    · next he =>
      subst he
      cases hread
      refine ⟨gap ++ [c], by simp, (closed_singleton hc).append gap, fun fuel rest _ _ => ?_⟩
      simp only [readBetween?]
      rw [List.append_assoc, skipSpace_append hgap, List.singleton_append,
        skipSpace_of_not_isSpace hc]
      exact if_pos rfl
    · next hne =>
      obtain ⟨used, he, hused⟩ := h _ _ _ hread
      obtain ⟨d, used, rfl⟩ := hused.exists_cons
      obtain ⟨rfl, rfl⟩ := List.cons.inj he
      refine ⟨gap ++ c :: used, by simp, hused.closed.append gap, fun fuel rest hf hrest => ?_⟩
      simp only [readBetween?]
      rw [List.append_assoc, skipSpace_append hgap, List.cons_append, skipSpace_of_not_isSpace hc]
      simp only [if_neg hne]
      refine hused.read fuel rest ?_ hrest
      rw [List.length_append] at hf
      omega
  · -- nothing is read from nothing
    obtain ⟨used, he, hused⟩ := h _ _ _ hread
    obtain ⟨d, used, rfl⟩ := hused.exists_cons
    cases he

/-- Something, and what is listed behind it up to the closing sign. -/
def readListed? (close : Char) (read : List Char → Option (α × List Char))
    (readMore : List Char → Option (List α × List Char)) (cs : List Char) :
    Option (List α × List Char) := do
  let (x, r) ← read cs
  match skipSpace r with
  | c :: r =>
    if c = ',' then (readMore r).map fun p => (x :: p.1, p.2)
    else if c = close then some ([x], r)
    else none
  | [] => none

/-- The first element is read, whatever is behind the sign that follows it. -/
lemma Reads.listed {first : List Char} (h : Reads read first x) (hgap : Gap gap) {c : Char}
    (hc : ¬IsSpace c) {rest : List Char} (hends : Numeral.Ends (c :: rest)) {fuel : ℕ}
    (hf : 2 * first.length ≤ fuel) (close : Char)
    (readMore : List Char → Option (List α × List Char)) :
    readListed? close (read fuel) readMore (first ++ (gap ++ c :: rest)) =
      if c = ',' then (readMore rest).map fun p => (x :: p.1, p.2)
      else if c = close then some ([x], rest)
      else none := by
  rw [readListed?, h.read fuel _ hf (hgap.ends hends)]
  simp only [Option.bind_eq_bind, Option.bind_some]
  rw [skipSpace_append hgap, skipSpace_of_not_isSpace hc]

section

variable {readAll : ℕ → List Char → Option (List α × List Char)} {close : Char}
  (hsucc : ∀ fuel cs, readAll (fuel + 1) cs = readListed? close (read fuel) (readAll fuel) cs)

include hsucc

/-- The last element is read with the closing sign behind it. -/
lemma Reads.last {first : List Char} (h : Reads read first x) (hgap : Gap gap) (hspace : ¬IsSpace close)
    (hclose : digitValue? close = none ∧ close ≠ '.' ∧ close ≠ 'e' ∧ close ≠ 'E')
    (hcomma : close ≠ ',') : Reads readAll (first ++ (gap ++ [close])) [x] := by
  refine .of_succ (((closed_singleton hspace).append gap).append first) fun fuel rest hf hrest => ?_
  simp only [List.length_append, List.length_cons, List.length_nil] at hf
  have happend : first ++ (gap ++ [close]) ++ rest = first ++ (gap ++ close :: rest) := by simp
  rw [hsucc, happend, h.listed hgap hspace (.cons hclose) (by omega), if_neg hcomma, if_pos rfl]

/-- An element is read with a comma behind it, and what is listed behind that. -/
lemma Reads.more {first more : List Char} {xs : List α} (h : Reads read first x) (hgap : Gap gap)
    (hmore : Reads readAll more xs) : Reads readAll (first ++ (gap ++ ',' :: more)) (x :: xs) := by
  refine .of_succ (((hmore.closed.cons ',').append gap).append first) fun fuel rest hf hrest => ?_
  simp only [List.length_append, List.length_cons] at hf
  have happend : first ++ (gap ++ ',' :: more) ++ rest = first ++ (gap ++ ',' :: (more ++ rest)) := by
    simp
  rw [hsucc, happend, h.listed hgap (by decide) (.cons (by decide)) (by omega), if_pos rfl,
    hmore.read fuel rest (by omega) hrest]
  rfl

/-- A list is read from its text, if its elements are. -/
lemma Local.listed (hclose : digitValue? close = none ∧ close ≠ '.' ∧ close ≠ 'e' ∧ close ≠ 'E')
    {fuel : ℕ} (h : Local read fuel) (hmore : Local readAll fuel) : Local readAll (fuel + 1) := by
  intro cs xs r hread
  rw [hsucc, readListed?, Option.bind_eq_bind, Option.bind_eq_some_iff] at hread
  obtain ⟨⟨x, r₁⟩, hx, hread⟩ := hread
  obtain ⟨first, rfl, hfirst⟩ := h _ _ _ hx
  simp only at hread
  split at hread
  · next c r₂ hskip =>
    obtain ⟨gap, hgap, rfl, hc⟩ := exists_gap_of_skipSpace hskip
    split at hread
    · next hcomma =>
      subst hcomma
      rw [Option.map_eq_some_iff] at hread
      obtain ⟨⟨ys, r₃⟩, hys, he⟩ := hread
      cases he
      obtain ⟨more, rfl, hused⟩ := hmore _ _ _ hys
      exact ⟨first ++ (gap ++ ',' :: more), by simp, hfirst.more hsucc hgap hused⟩
    · next hcomma =>
      split at hread
      · next he =>
        subst he
        cases hread
        exact ⟨first ++ (gap ++ [c]), by simp, hfirst.last hsucc hgap hc hclose hcomma⟩
      · cases hread
  · cases hread

end

end

/-! ### The parts of a value -/

/-- A member of an object: its key and its value. -/
def readMember? (fuel : ℕ) : List Char → Option ((Option String × Json) × List Char) :=
  readBehind? '"' fun r => (readString? r).bind fun p =>
    readBehind? ':' (fun r => (readValue? fuel r).map fun q => ((p.1, q.1), q.2)) p.2

lemma ne_of_cons_ne {c d : Char} {cs : List Char} (h : ∀ r, c :: cs = d :: r → False) : c ≠ d := by
  rintro rfl
  exact h cs rfl

lemma readItems?_succ (fuel : ℕ) (cs : List Char) :
    readItems? (fuel + 1) cs = readListed? ']' (readValue? fuel) (readItems? fuel) cs := by
  rw [readItems?, readListed?]
  refine Option.bind_congr fun p _ => ?_
  simp only
  generalize skipSpace p.2 = ds
  split
  · exact Option.map_eq_bind.symm
  · rfl
  · next hcomma hclose =>
    cases ds with
    | nil => rfl
    | cons c ds =>
      simp only
      rw [if_neg (ne_of_cons_ne hcomma), if_neg (ne_of_cons_ne hclose)]

lemma readMembers?_succ (fuel : ℕ) (cs : List Char) :
    readMembers? (fuel + 1) cs = readListed? '\x7d' (readMember? fuel) (readMembers? fuel) cs := by
  rw [readMembers?, readListed?, readMember?, readBehind?]
  generalize skipSpace cs = ds
  split
  · next r =>
    simp only [if_pos, Option.bind_eq_bind, Option.bind_assoc, readBehind?]
    refine Option.bind_congr fun p _ => ?_
    generalize skipSpace p.2 = ds
    split
    · next r' =>
      simp only [if_pos, Option.bind_map]
      refine Option.bind_congr fun q _ => ?_
      simp only [Function.comp]
      generalize skipSpace q.2 = ds
      split
      · exact Option.map_eq_bind.symm
      · rfl
      · next hcomma hclose =>
        cases ds with
        | nil => rfl
        | cons c ds =>
          simp only
          rw [if_neg (ne_of_cons_ne hcomma), if_neg (ne_of_cons_ne hclose)]
    · next hcolon =>
      cases ds with
      | nil => rfl
      | cons c ds =>
        simp only
        rw [if_neg (ne_of_cons_ne hcolon), Option.bind_none]
  · next hquote =>
    cases ds with
    | nil => rfl
    | cons c ds =>
      simp only
      rw [if_neg (ne_of_cons_ne hquote)]
      rfl

lemma readValue?_bracket (fuel : ℕ) (cs : List Char) :
    readValue? (fuel + 1) ('[' :: cs) =
      (readBetween? ']' (readItems? fuel) cs).map fun p => (.array p.1, p.2) := by
  have hbracket : skipSpace ('[' :: cs) = '[' :: cs := rfl
  rw [readValue?, hbracket, readBetween?]
  simp only
  generalize skipSpace cs = ds
  split
  · rfl
  · next hclose =>
    cases ds with
    | nil => rfl
    | cons c ds => simp only [if_neg (ne_of_cons_ne hclose)]

lemma readValue?_brace (fuel : ℕ) (cs : List Char) :
    readValue? (fuel + 1) ('\x7b' :: cs) =
      (readBetween? '\x7d' (readMembers? fuel) cs).map fun p => (.object p.1, p.2) := by
  have hbrace : skipSpace ('\x7b' :: cs) = '\x7b' :: cs := rfl
  rw [readValue?, hbrace, readBetween?]
  simp only
  generalize skipSpace cs = ds
  split
  · rfl
  · next hclose =>
    cases ds with
    | nil => rfl
    | cons c ds => simp only [if_neg (ne_of_cons_ne hclose)]

/-! ### Locality -/

lemma readValue?_gap {gap : List Char} (h : Gap gap) (fuel : ℕ) (cs : List Char) :
    readValue? fuel (gap ++ cs) = readValue? fuel cs := by
  cases fuel with
  | zero => simp only [readValue?]
  | succ fuel => rw [readValue?, readValue?, skipSpace_append h]

lemma Reads.gap {gap cs : List Char} {j : Json} (hgap : Gap gap) (h : Reads readValue? cs j) :
    Reads readValue? (gap ++ cs) j := by
  refine ⟨h.closed.append gap, fun fuel rest hf hrest => ?_⟩
  rw [List.length_append] at hf
  rw [List.append_assoc, readValue?_gap hgap, h.read fuel rest (by omega) hrest]

lemma Local.member {fuel : ℕ} (h : Local readValue? fuel) : Local readMember? fuel := by
  intro cs m r hmember
  obtain ⟨gap, rest, hgap, rfl, hquote, hread⟩ := exists_of_readBehind? hmember
  rw [Option.bind_eq_some_iff] at hread
  obtain ⟨⟨key, r₁⟩, hkey, hkeyed⟩ := hread
  obtain ⟨text, rfl, -, htext⟩ := exists_of_readString? hkey
  obtain ⟨gap', rest, hgap', rfl, hcolon, hread⟩ := exists_of_readBehind? hkeyed
  rw [Option.map_eq_some_iff] at hread
  obtain ⟨⟨value, r₂⟩, hvalue, he⟩ := hread
  cases he
  obtain ⟨used, rfl, hused⟩ := h _ _ _ hvalue
  refine ⟨gap ++ '"' :: (text ++ (gap' ++ ':' :: used)), by simp,
    ((((hused.closed.cons ':').append gap').append text).cons '"').append gap,
    fun fuel rest hf hrest => ?_⟩
  simp only [List.length_append, List.length_cons] at hf
  have happend : gap ++ '"' :: (text ++ (gap' ++ ':' :: used)) ++ rest =
      gap ++ '"' :: (text ++ (gap' ++ ':' :: (used ++ rest))) := by simp
  rw [happend, readMember?, readBehind?_gap hgap hquote, htext, Option.bind_some,
    readBehind?_gap hgap' hcolon, hused.read fuel rest (by omega) hrest]
  rfl

/-- What is read of a text that does not begin with white space. -/
lemma exists_of_readValue?_succ {fuel : ℕ} (hitems : Local readItems? fuel)
    (hmembers : Local readMembers? fuel) {cs r : List Char} {j : Json}
    (hcs : skipSpace cs = cs) (h : readValue? (fuel + 1) cs = some (j, r)) :
    ∃ used, cs = used ++ r ∧ Reads readValue? used j := by
  have hread := h
  rw [readValue?, hcs] at hread
  split at hread
  · cases hread
    exact ⟨['n', 'u', 'l', 'l'], rfl, .of_succ ⟨['n', 'u', 'l'], 'l', rfl, by decide⟩
      fun fuel rest _ _ => rfl⟩
  · cases hread
    exact ⟨['t', 'r', 'u', 'e'], rfl, .of_succ ⟨['t', 'r', 'u'], 'e', rfl, by decide⟩
      fun fuel rest _ _ => rfl⟩
  · cases hread
    exact ⟨['f', 'a', 'l', 's', 'e'], rfl, .of_succ ⟨['f', 'a', 'l', 's'], 'e', rfl, by decide⟩
      fun fuel rest _ _ => rfl⟩
  · next cs =>
    rw [Option.map_eq_some_iff] at hread
    obtain ⟨⟨s, r'⟩, hstring, he⟩ := hread
    cases he
    obtain ⟨used, rfl, hclosed, hused⟩ := exists_of_readString? hstring
    refine ⟨'"' :: used, rfl, .of_succ (hclosed.cons '"') fun fuel rest _ _ => ?_⟩
    show (readString? (used ++ rest)).map _ = _
    rw [hused]
    rfl
  · next cs =>
    rw [readValue?_bracket, Option.map_eq_some_iff] at h
    obtain ⟨⟨items, r'⟩, hbetween, he⟩ := h
    cases he
    obtain ⟨used, rfl, hused⟩ := hitems.between (by decide) _ _ _ hbetween
    refine ⟨'[' :: used, rfl, .of_succ (hused.closed.cons '[') fun fuel rest hf hrest => ?_⟩
    rw [List.length_cons] at hf
    rw [List.cons_append, readValue?_bracket, hused.read fuel rest (by omega) hrest]
    rfl
  · next cs =>
    rw [readValue?_brace, Option.map_eq_some_iff] at h
    obtain ⟨⟨members, r'⟩, hbetween, he⟩ := h
    cases he
    obtain ⟨used, rfl, hused⟩ := hmembers.between (by decide) _ _ _ hbetween
    refine ⟨'\x7b' :: used, rfl, .of_succ (hused.closed.cons '\x7b') fun fuel rest hf hrest => ?_⟩
    rw [List.length_cons] at hf
    rw [List.cons_append, readValue?_brace, hused.read fuel rest (by omega) hrest]
    rfl
  · rw [Option.map_eq_some_iff] at hread
    obtain ⟨⟨n, r'⟩, hnumber, he⟩ := hread
    cases he
    obtain ⟨c, used, rfl, hc, hclosed, hused⟩ := Numeral.exists_of_read? hnumber
    refine ⟨c :: used, rfl, .of_succ hclosed fun fuel rest _ hrest => ?_⟩
    rw [List.cons_append, readValue?_number hc, ← List.cons_append, hused rest hrest]
    rfl

lemma local_all (fuel : ℕ) :
    Local readValue? fuel ∧ Local readItems? fuel ∧ Local readMembers? fuel := by
  induction fuel with
  | zero =>
    refine ⟨?_, ?_, ?_⟩
    all_goals
      intro cs x r h
      simp [readValue?, readItems?, readMembers?] at h
  | succ fuel ih =>
    obtain ⟨hvalue, hitems, hmembers⟩ := ih
    refine ⟨?_, hvalue.listed readItems?_succ (by decide) hitems,
      hvalue.member.listed readMembers?_succ (by decide) hmembers⟩
    intro cs j r h
    obtain ⟨gap, hgap, he, -⟩ := exists_gap cs
    have hskip : skipSpace (skipSpace cs) = skipSpace cs := by
      conv_rhs => rw [he, skipSpace_append hgap]
    rw [he, readValue?_gap hgap] at h
    obtain ⟨used, hcs, hused⟩ := exists_of_readValue?_succ hitems hmembers hskip h
    exact ⟨gap ++ used, by rw [List.append_assoc, ← hcs, ← he], hused.gap hgap⟩

/-! ### Whole texts -/

variable {cs gap : List Char} {j : Json}

/-- A text has a value exactly when it is read from some text behind which there is only white space. -/
theorem parse?_eq_some_iff :
    parse? cs = some j ↔ ∃ used gap, cs = used ++ gap ∧ Reads readValue? used j ∧ Gap gap := by
  constructor
  · intro h
    unfold parse? at h
    split at h
    · next j' r hread =>
      split at h
      · next hr =>
        cases h
        obtain ⟨used, he, hused⟩ := (local_all _).1 _ _ _ hread
        exact ⟨used, r, he, hused, skipSpace_eq_nil_iff.mp hr⟩
      · cases h
    · cases h
  · rintro ⟨used, gap, rfl, hused, hgap⟩
    have hends : Numeral.Ends gap := by simpa using hgap.ends Numeral.ends_nil
    have hread := hused.read (2 * (used ++ gap).length + 2) gap
      (by rw [List.length_append]; omega) hends
    rw [parse?, hread]
    exact if_pos (skipSpace_eq_nil_iff.mpr hgap)

/-- White space behind a text does not change its value, nor give it one. -/
theorem parse?_append_gap (h : Gap gap) : parse? (cs ++ gap) = parse? cs := by
  ext j
  rw [parse?_eq_some_iff, parse?_eq_some_iff]
  constructor
  · rintro ⟨used, rest, he, hused, hrest⟩
    obtain ⟨between, rfl, rfl⟩ := exists_of_append_gap hused.closed h he.symm
    exact ⟨used, between, rfl, hused, (gap_append.mp hrest).1⟩
  · rintro ⟨used, between, rfl, hused, hbetween⟩
    exact ⟨used, between ++ gap, by rw [List.append_assoc], hused, gap_append.mpr ⟨hbetween, h⟩⟩

/-- A text that has a value has none any more with something behind it, white space aside. -/
theorem parse?_append_eq_none (h : parse? cs = some j) {ds : List Char} (hends : Numeral.Ends ds)
    (hds : skipSpace ds ≠ []) : parse? (cs ++ ds) = none := by
  obtain ⟨used, gap, rfl, hused, hgap⟩ := parse?_eq_some_iff.mp h
  have hread := hused.read (2 * (used ++ gap ++ ds).length + 2) (gap ++ ds)
    (by simp only [List.length_append]; omega) (hgap.ends hends)
  rw [List.append_assoc] at hread ⊢
  rw [parse?, hread]
  simp only
  rw [skipSpace_append hgap, if_neg hds]

/-! ### White space in front -/

lemma Gap.isBlank (h : Gap cs) : ∀ c ∈ cs, isBlank c = true := by
  intro c hc
  rcases h c hc with rfl | rfl | rfl | rfl
  all_goals rfl

/-- A value is read from its text behind white space. -/
lemma parse?_gap_render (h : Gap gap) (j : Json) : parse? (gap ++ j.render) = some j := by
  have hread := readValue?_render (2 * (gap ++ j.render).length + 2) j []
    (by rw [List.length_append]; omega) Numeral.ends_nil
  rw [List.append_nil] at hread
  rw [parse?, readValue?_gap h, hread]
  rfl

/-- No value begins with a blank character that is not white space of JSON. -/
lemma parse?_blank (hgap : Gap gap) {c : Char} (hc : ¬IsSpace c) (hblank : isBlank c = true)
    (cs : List Char) : parse? (gap ++ c :: cs) = none := by
  have hnumber : Numeral.read? (c :: cs) = none := by
    by_contra h
    obtain ⟨⟨n, r⟩, hread⟩ := Option.ne_none_iff_exists'.mp h
    obtain ⟨c', used, he, hbegin, -⟩ := Numeral.exists_of_read? hread
    obtain ⟨rfl, -⟩ := List.cons.inj he
    rcases hbegin with rfl | ⟨d, rfl⟩
    · cases hblank
    · rw [isBlank_decimalDigit] at hblank
      cases hblank
  have hread (fuel : ℕ) : readValue? (fuel + 1) (c :: cs) = none := by
    rw [readValue?, skipSpace_of_not_isSpace hc]
    split
    -- none of the characters that begin a value is blank
    iterate 6
      · next he =>
        obtain ⟨rfl, -⟩ := List.cons.inj he
        cases hblank
    · rw [hnumber]
      rfl
  rw [parse?, readValue?_gap hgap, hread]

end Json

end BoardAudit
