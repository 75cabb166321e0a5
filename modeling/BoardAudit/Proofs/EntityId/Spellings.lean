import BoardAudit.EntityId.Text
import BoardAudit.Proofs.Text.Hexadecimals
import BoardAudit.Proofs.Text.Trimming

/-!
# What spells an id

An id has four spellings in lower case, and each may be written in letters of any case. These are all the
texts that are read as the id (`ofText?_eq_some_iff`). None of them holds a blank character, so an id is
found between blank ones whenever one is there (`ofText?_trim_eq_some_iff`).
-/

namespace BoardAudit.EntityId

open Text

/-- The spellings of an id in lower case: the digits alone, grouped, grouped in braces, and grouped behind
the mark of a name. -/
def spellings (id : EntityId) : List (List Char) :=
  [hexDigits 32 id.toNat, id.toText, '\x7b' :: (id.toText ++ ['\x7d']), urnMark ++ id.toText]

/-- Whether a text is a spelling of an id, in letters of any case. -/
def Spells (cs : List Char) (id : EntityId) : Prop := cs.map Char.toLower ∈ id.spellings

instance (cs : List Char) (id : EntityId) : Decidable (Spells cs id) :=
  inferInstanceAs (Decidable (_ ∈ _))

variable {cs ds : List Char} {ws : List ℕ} {id : EntityId}

/-! ### Digits alone -/

lemma ofNat?_eq_some_iff {n : ℕ} : ofNat? n = some id ↔ n = id.toNat := by
  unfold ofNat?
  constructor
  · intro h
    split at h
    · cases h
      rfl
    · cases h
  · rintro rfl
    exact dif_pos id.isLt

lemma ofDigits?_eq_some_iff : ofDigits? cs = some id ↔ cs.map Char.toLower = hexDigits 32 id.toNat := by
  have hlt : id.toNat < 16 ^ 32 := Nat.lt_of_lt_of_eq id.isLt rfl
  unfold ofDigits?
  constructor
  · intro h
    split at h
    · next hlength =>
      obtain ⟨n, hn, hid⟩ := Option.bind_eq_some_iff.mp h
      rw [ofNat?_eq_some_iff.mp hid] at hn
      rw [(ofHex?_eq_some_iff.mp hn).2, hlength]
    · cases h
  · intro h
    have hlength : cs.length = 32 := by
      rw [← List.length_map (f := Char.toLower), h, length_hexDigits]
    rw [if_pos hlength, Option.bind_eq_some_iff]
    refine ⟨id.toNat, ofHex?_eq_some_iff.mpr ?_, ofNat?_eq_some_iff.mpr rfl⟩
    rw [hlength]
    exact ⟨hlt, h⟩

/-! ### Groups -/

lemma hyphenate_cons_cons (w w' : ℕ) (ws : List ℕ) (cs : List Char) :
    hyphenate (w :: w' :: ws) cs = cs.take w ++ '-' :: hyphenate (w' :: ws) (cs.drop w) := rfl

lemma unhyphenate?_cons_cons (w w' : ℕ) (ws : List ℕ) (cs : List Char) :
    unhyphenate? (w :: w' :: ws) cs =
      match cs.drop w with
      | '-' :: r => (unhyphenate? (w' :: ws) r).map (cs.take w ++ ·)
      | _ => none := rfl

lemma eq_hyphenate_of_unhyphenate? : ∀ {ws : List ℕ} {cs ds : List Char}, ws ≠ [] →
    unhyphenate? ws cs = some ds → cs = hyphenate ws ds
  | [w], cs, ds, _, h => by
    rw [unhyphenate?] at h
    split at h
    · cases h
      rfl
    · cases h
  | w :: w' :: ws, cs, ds, _, h => by
    rw [unhyphenate?_cons_cons] at h
    split at h
    · next r hr =>
      obtain ⟨es, hes, rfl⟩ := Option.map_eq_some_iff.mp h
      have hlength : (cs.take w).length = w := by
        have hdrop := congrArg List.length hr
        rw [List.length_drop, List.length_cons] at hdrop
        rw [List.length_take]
        omega
      have ih := eq_hyphenate_of_unhyphenate? (by simp : w' :: ws ≠ []) hes
      rw [hyphenate_cons_cons, List.take_left' hlength, List.drop_left' hlength, ← ih, ← hr,
        List.take_append_drop]
    · cases h

lemma map_hyphenate : ∀ (ws : List ℕ) (cs : List Char),
    (hyphenate ws cs).map Char.toLower = hyphenate ws (cs.map Char.toLower)
  | [], _ => rfl
  | [_], _ => rfl
  | w :: w' :: ws, cs => by
    have hhyphen : Char.toLower '-' = '-' := rfl
    rw [hyphenate_cons_cons, hyphenate_cons_cons, List.map_append, List.map_cons, hhyphen,
      map_hyphenate (w' :: ws), List.map_take, List.map_drop]

/-- Hyphens are found in either case of the letters. -/
lemma unhyphenate?_map : ∀ (ws : List ℕ) (cs : List Char),
    unhyphenate? ws (cs.map Char.toLower) = (unhyphenate? ws cs).map (List.map Char.toLower)
  | [], cs => by cases cs <;> simp [unhyphenate?]
  | [w], cs => by
    rw [unhyphenate?, unhyphenate?, List.length_map]
    split <;> simp
  | w :: w' :: ws, cs => by
    rw [unhyphenate?_cons_cons, unhyphenate?_cons_cons, ← List.map_drop]
    cases cs.drop w with
    | nil => rfl
    | cons c r =>
      by_cases hc : c = '-'
      · subst hc
        have hr := unhyphenate?_map (w' :: ws) r
        have hhyphen : Char.toLower '-' = '-' := rfl
        simp only [List.map_cons, hhyphen, hr, Option.map_map]
        cases unhyphenate? (w' :: ws) r <;> simp [List.map_take]
      · have hlower : c.toLower ≠ '-' := fun h => hc (eq_of_toLower_eq h (by decide))
        simp [hc, hlower]

lemma ofGroups?_eq_some_iff : ofGroups? cs = some id ↔ cs.map Char.toLower = id.toText := by
  rw [ofGroups?, Option.bind_eq_some_iff]
  constructor
  · rintro ⟨ds, hds, hid⟩
    rw [eq_hyphenate_of_unhyphenate? (by simp [groups]) hds, map_hyphenate,
      ofDigits?_eq_some_iff.mp hid, toText]
  · intro h
    have hread := unhyphenate?_map groups cs
    rw [h, toText, unhyphenate?_hyphenate (by simp [groups]) (length_hexDigits_groups id)] at hread
    obtain ⟨ds, hds, hdigits⟩ := Option.map_eq_some_iff.mp hread.symm
    exact ⟨ds, hds, ofDigits?_eq_some_iff.mpr hdigits⟩

/-! ### Braces and marks -/

lemma unbrace?_eq_some_iff : unbrace? cs = some ds ↔ cs = '\x7b' :: (ds ++ ['\x7d']) := by
  constructor
  · intro h
    unfold unbrace? at h
    split at h
    · next r =>
      split at h
      · next hlast =>
        obtain ⟨es, rfl⟩ := List.getLast?_eq_some_iff.mp hlast
        rw [List.dropLast_concat] at h
        cases h
        rfl
      · cases h
    · cases h
  · rintro rfl
    simp [unbrace?]

lemma ofGroups?_unbrace? :
    (unbrace? cs).bind ofGroups? = some id ↔
      cs.map Char.toLower = '\x7b' :: (id.toText ++ ['\x7d']) := by
  rw [Option.bind_eq_some_iff]
  constructor
  · rintro ⟨ds, hds, hid⟩
    rw [unbrace?_eq_some_iff.mp hds, ← ofGroups?_eq_some_iff.mp hid, List.map_cons, List.map_append]
    rfl
  · intro h
    obtain ⟨b, r, rfl, hb, hr⟩ := List.map_eq_cons_iff.mp h
    obtain ⟨ds, e, rfl, hds, he⟩ := List.map_eq_append_iff.mp hr
    obtain ⟨b', e', rfl, hb', he'⟩ := List.map_eq_cons_iff.mp he
    obtain rfl := List.map_eq_nil_iff.mp he'
    obtain rfl := eq_of_toLower_eq hb (by decide)
    obtain rfl := eq_of_toLower_eq hb' (by decide)
    exact ⟨ds, unbrace?_eq_some_iff.mpr rfl, ofGroups?_eq_some_iff.mpr hds⟩

lemma ofGroups?_drop (hmark : (cs.take 9).map Char.toLower = urnMark) :
    ofGroups? (cs.drop 9) = some id ↔ cs.map Char.toLower = urnMark ++ id.toText := by
  rw [ofGroups?_eq_some_iff]
  constructor
  · intro h
    rw [← hmark, ← h, ← List.map_append, List.take_append_drop]
  · intro h
    have hlength : urnMark.length = 9 := rfl
    rw [List.map_drop, h, List.drop_left' hlength]

/-! ### All spellings -/

/-- A text is read as an id exactly when it is a spelling of it. -/
theorem ofText?_eq_some_iff : ofText? cs = some id ↔ Spells cs id := by
  have hgroups := length_toText id
  have hlower : (cs.map Char.toLower).length = cs.length := List.length_map ..
  simp only [Spells, spellings, List.mem_cons, List.not_mem_nil, or_false]
  unfold ofText?
  constructor
  · intro h
    split_ifs at h with hdigits hgrouped hbraced hmark
    · exact .inl (ofDigits?_eq_some_iff.mp h)
    · exact .inr (.inl (ofGroups?_eq_some_iff.mp h))
    · exact .inr (.inr (.inl (ofGroups?_unbrace?.mp h)))
    · exact .inr (.inr (.inr ((ofGroups?_drop hmark).mp h)))
  · rintro (h | h | h | h)
    · have hlength : cs.length = 32 := by rw [← hlower, h, length_hexDigits]
      rw [if_pos hlength]
      exact ofDigits?_eq_some_iff.mpr h
    · have hlength : cs.length = 36 := by rw [← hlower, h, hgroups]
      rw [if_neg (by omega), if_pos hlength]
      exact ofGroups?_eq_some_iff.mpr h
    · have hlength : cs.length = 38 := by
        rw [← hlower, h, List.length_cons, List.length_append, hgroups]
        rfl
      rw [if_neg (by omega), if_neg (by omega), if_pos hlength]
      exact ofGroups?_unbrace?.mpr h
    · have hnine : urnMark.length = 9 := rfl
      have hlength : cs.length = 45 := by rw [← hlower, h, List.length_append, hgroups, hnine]
      have hmark : (cs.take 9).map Char.toLower = urnMark := by
        rw [List.map_take, h, List.take_left' hnine]
      rw [if_neg (by omega), if_neg (by omega), if_neg (by omega), if_pos hmark]
      exact (ofGroups?_drop hmark).mpr h

lemma spells_toText (id : EntityId) : Spells id.toText id := ofText?_eq_some_iff.mp (ofText?_toText id)

/-! ### Among blank characters -/

lemma isBlank_hexDigit {n : ℕ} (h : n < 16) : isBlank (hexDigit n) = false := by
  have hdigits : ∀ n : Fin 16, isBlank (hexDigit n) = false := by decide
  exact hdigits ⟨n, h⟩

lemma isBlank_of_mem_hexDigits {w n : ℕ} : ∀ c ∈ hexDigits w n, isBlank c = false := by
  induction w generalizing n with
  | zero => simp [hexDigits]
  | succ w ih =>
    intro c hc
    rcases List.mem_append.mp hc with hc | hc
    · exact ih c hc
    · rw [List.mem_singleton.mp hc]
      exact isBlank_hexDigit (Nat.mod_lt n (by decide))

lemma mem_hyphenate : ∀ {ws : List ℕ} {cs : List Char}, ∀ c ∈ hyphenate ws cs, c = '-' ∨ c ∈ cs
  | [], _, _, hc => .inr hc
  | [_], _, _, hc => .inr hc
  | w :: w' :: ws, cs, c, hc => by
    rw [hyphenate_cons_cons, List.mem_append, List.mem_cons] at hc
    rcases hc with hc | hc | hc
    · exact .inr (List.mem_of_mem_take hc)
    · exact .inl hc
    · exact (mem_hyphenate c hc).imp_right List.mem_of_mem_drop

lemma isBlank_of_mem_spellings (h : ds ∈ id.spellings) : ∀ c ∈ ds, isBlank c = false := by
  have htext : ∀ c ∈ id.toText, isBlank c = false := by
    intro c hc
    rcases mem_hyphenate c hc with rfl | hc
    · rfl
    · exact isBlank_of_mem_hexDigits c hc
  have hmark : ∀ c ∈ urnMark, isBlank c = false := by simp [urnMark, isBlank]
  have hopen : isBlank '\x7b' = false := rfl
  have hclose : isBlank '\x7d' = false := rfl
  simp only [spellings, List.mem_cons, List.not_mem_nil, or_false] at h
  rcases h with h | h | h | h
  all_goals rw [h]
  · exact isBlank_of_mem_hexDigits
  · exact htext
  · rw [List.forall_mem_cons, List.forall_mem_append, List.forall_mem_singleton]
    exact ⟨hopen, htext, hclose⟩
  · rw [List.forall_mem_append]
    exact ⟨hmark, htext⟩

lemma toLower_of_isBlank {c : Char} (h : isBlank c = true) : c.toLower = c := by
  have hcode : c.toNat < 65 ∨ 90 < c.toNat := by
    simp only [isBlank, Bool.or_eq_true, Bool.and_eq_true, decide_eq_true_eq, beq_iff_eq] at h
    omega
  apply Char.toNat_inj.mp
  rw [toNat_toLower, if_neg (by omega)]

/-- A spelling holds nothing blank, so it has nothing blank at its ends. -/
lemma Spells.bare (h : Spells cs id) : Bare cs := by
  have hcs : ∀ c ∈ cs, isBlank c = false := by
    intro c hc
    have hlower := isBlank_of_mem_spellings h c.toLower (List.mem_map_of_mem hc)
    cases hblank : isBlank c with
    | false => rfl
    | true =>
      rw [toLower_of_isBlank hblank, hblank] at hlower
      cases hlower
  exact ⟨fun c hc => hcs c (List.mem_of_mem_head? hc), fun c hc => hcs c (List.mem_of_mem_getLast? hc)⟩

/-- An id is read from what blank characters stand around exactly when that spells the id. -/
theorem ofText?_trim_eq_some_iff {text : List Char} :
    ofText? (trim text) = some id ↔ ∃ cs, Spells cs id ∧ Around cs text := by
  rw [ofText?_eq_some_iff]
  constructor
  · intro h
    exact ⟨trim text, h, around_trim text⟩
  · rintro ⟨cs, h, haround⟩
    rwa [haround.trim_eq h.bare]

end BoardAudit.EntityId
