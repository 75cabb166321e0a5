/-!
# Blank characters

The characters with the Unicode property `White_Space`, and text without the blank characters at its
two ends. `trim_eq_nil_iff`: only blank text has nothing left.
-/

namespace BoardAudit.Text

/-- The Unicode property `White_Space`. -/
def isBlank (c : Char) : Bool :=
  let n := c.toNat
  (9 ≤ n && n ≤ 13) || n == 0x20 || n == 0x85 || n == 0xA0 || n == 0x1680 ||
    (0x2000 ≤ n && n ≤ 0x200A) || n == 0x2028 || n == 0x2029 || n == 0x202F || n == 0x205F ||
    n == 0x3000

/-- The text after its leading blank characters. -/
def trimStart (cs : List Char) : List Char := cs.dropWhile isBlank

/-- The text before its trailing blank characters. -/
def trimEnd (cs : List Char) : List Char := (cs.reverse.dropWhile isBlank).reverse

/-- The text without the blank characters at its two ends. -/
def trim (cs : List Char) : List Char := trimEnd (trimStart cs)

/-! ### Trimming -/

@[simp] theorem trimStart_nil : trimStart [] = [] := rfl

theorem trimStart_blank_append {bs : List Char} (hb : ∀ c ∈ bs, isBlank c = true) (cs : List Char) :
    trimStart (bs ++ cs) = trimStart cs :=
  List.dropWhile_append_of_pos hb

theorem trimEnd_append_blank {bs : List Char} (hb : ∀ c ∈ bs, isBlank c = true) (cs : List Char) :
    trimEnd (cs ++ bs) = trimEnd cs := by
  have hr : ∀ c ∈ bs.reverse, isBlank c = true := by simpa using hb
  have := trimStart_blank_append hr cs.reverse
  simp only [trimStart] at this
  simp [trimEnd, List.reverse_append, this]

theorem trimStart_eq_nil_iff {cs : List Char} :
    trimStart cs = [] ↔ ∀ c ∈ cs, isBlank c = true := by
  induction cs with
  | nil => simp
  | cons c cs ih => by_cases h : isBlank c = true <;> simp_all [trimStart]

theorem trimEnd_eq_nil_iff {cs : List Char} :
    trimEnd cs = [] ↔ ∀ c ∈ cs, isBlank c = true :=
  calc trimEnd cs = [] ↔ trimStart cs.reverse = [] := List.reverse_eq_nil_iff
    _ ↔ ∀ c ∈ cs.reverse, isBlank c = true := trimStart_eq_nil_iff
    _ ↔ ∀ c ∈ cs, isBlank c = true := by simp only [List.mem_reverse]

/-- Only blank text has nothing left. -/
theorem trim_eq_nil_iff {cs : List Char} : trim cs = [] ↔ ∀ c ∈ cs, isBlank c = true := by
  rw [← trimStart_eq_nil_iff, trim, trimEnd_eq_nil_iff]
  refine ⟨fun h => ?_, fun h => by simp [h]⟩
  have : trimStart (trimStart cs) = trimStart cs := by
    induction cs with
    | nil => rfl
    | cons c cs ih => by_cases hc : isBlank c = true <;> simp_all [trimStart]
  rw [← this]
  exact trimStart_eq_nil_iff.2 h

end BoardAudit.Text
