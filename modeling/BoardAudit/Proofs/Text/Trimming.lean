import BoardAudit.Text.Blank
import Mathlib.Data.List.TakeWhile
import Mathlib.Tactic.Lemma

/-!
# Trimming

A text is trimmed to the part of it that has nothing blank at its ends and has only blank characters
around it. There is just one such part (`trim_eq_iff`).
-/

namespace BoardAudit.Text

/-- Whether a text has no blank character at either of its ends. -/
def Bare (cs : List Char) : Prop :=
  (∀ c ∈ cs.head?, isBlank c = false) ∧ ∀ c ∈ cs.getLast?, isBlank c = false

instance (cs : List Char) : Decidable (Bare cs) :=
  decidable_of_iff ((cs.head?.all fun c => !isBlank c) = true ∧ (cs.getLast?.all fun c => !isBlank c) = true)
    (by simp only [Bare, Option.all_eq_true, Option.mem_def, Bool.not_eq_true'])

/-- Whether a text is another one, `core`, with blank characters around it. -/
def Around (core cs : List Char) : Prop :=
  ∃ before after, (∀ c ∈ before, isBlank c = true) ∧ (∀ c ∈ after, isBlank c = true) ∧
    cs = before ++ core ++ after

variable {cs core : List Char}

/-! ### One end -/

lemma exists_trimStart (cs : List Char) :
    ∃ before, (∀ c ∈ before, isBlank c = true) ∧ cs = before ++ trimStart cs :=
  ⟨cs.takeWhile isBlank, fun _ => List.mem_takeWhile_imp, List.takeWhile_append_dropWhile.symm⟩

lemma head?_trimStart (cs : List Char) : ∀ c ∈ (trimStart cs).head?, isBlank c = false := by
  intro c hc
  have hhead : (cs.dropWhile isBlank).head? = some c := hc
  have h := List.head?_dropWhile_not isBlank cs
  simpa [hhead] using h

lemma trimStart_of_head? (h : ∀ c ∈ cs.head?, isBlank c = false) : trimStart cs = cs := by
  cases cs with
  | nil => rfl
  | cons c cs =>
    have hc : isBlank c = false := h c rfl
    simp [trimStart, hc]

lemma trimEnd_eq (cs : List Char) : trimEnd cs = (trimStart cs.reverse).reverse := rfl

lemma exists_trimEnd (cs : List Char) :
    ∃ after, (∀ c ∈ after, isBlank c = true) ∧ cs = trimEnd cs ++ after := by
  obtain ⟨before, hbefore, hcs⟩ := exists_trimStart cs.reverse
  refine ⟨before.reverse, by simpa using hbefore, ?_⟩
  rw [trimEnd_eq, ← List.reverse_append, ← hcs, List.reverse_reverse]

lemma getLast?_trimEnd : ∀ c ∈ (trimEnd cs).getLast?, isBlank c = false := by
  rw [trimEnd_eq, List.getLast?_reverse]
  exact head?_trimStart _

lemma trimEnd_of_getLast? (h : ∀ c ∈ cs.getLast?, isBlank c = false) : trimEnd cs = cs := by
  rw [trimEnd_eq, trimStart_of_head? (by rwa [List.head?_reverse]), List.reverse_reverse]

/-! ### Both ends -/

lemma bare_trim (cs : List Char) : Bare (trim cs) := by
  refine ⟨?_, getLast?_trimEnd⟩
  obtain ⟨after, -, hcs⟩ := exists_trimEnd (trimStart cs)
  intro c hc
  apply head?_trimStart cs
  rw [hcs, List.head?_append]
  exact Option.or_eq_some_iff.mpr (.inl hc)

lemma around_trim (cs : List Char) : Around (trim cs) cs := by
  obtain ⟨before, hbefore, hcs⟩ := exists_trimStart cs
  obtain ⟨after, hafter, hstart⟩ := exists_trimEnd (trimStart cs)
  exact ⟨before, after, hbefore, hafter, by rw [trim, List.append_assoc, ← hstart, ← hcs]⟩

lemma Around.trim_eq (h : Around core cs) (hcore : Bare core) : trim cs = core := by
  obtain ⟨before, after, hbefore, hafter, rfl⟩ := h
  rw [trim, List.append_assoc, trimStart_blank_append hbefore]
  cases core with
  | nil => exact trim_eq_nil_iff.mpr hafter
  | cons c core =>
    have hstart : trimStart (c :: core ++ after) = c :: core ++ after :=
      trimStart_of_head? hcore.1
    rw [hstart, trimEnd_append_blank hafter, trimEnd_of_getLast? hcore.2]

/-- A text is trimmed to the one part that has blank characters around it and none at its ends. -/
theorem trim_eq_iff : trim cs = core ↔ Around core cs ∧ Bare core := by
  constructor
  · rintro rfl
    exact ⟨around_trim cs, bare_trim cs⟩
  · rintro ⟨h, hcore⟩
    exact h.trim_eq hcore

/-! ### Strings -/

/-- A text without the blank characters at its ends. -/
def trimmed (s : String) : String := String.ofList (trim s.toList)

lemma trimmed_eq_iff {s v : String} : trimmed s = v ↔ Around v.toList s.toList ∧ Bare v.toList := by
  rw [trimmed, ← trim_eq_iff, ← String.toList_inj, String.toList_ofList]

lemma trimmed_eq_empty_iff {s : String} : trimmed s = "" ↔ ∀ c ∈ s.toList, isBlank c = true := by
  rw [trimmed, ← trim_eq_nil_iff, ← String.toList_inj, String.toList_ofList]
  rfl

end BoardAudit.Text
