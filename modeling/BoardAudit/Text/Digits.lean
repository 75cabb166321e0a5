/-!
# Digits

Decimal and hexadecimal digits of natural numbers. `ofHex?_hexDigits`: a number of at most `w`
hexadecimal digits reads back from its text of `w` digits.
-/

namespace BoardAudit.Text

/-! ### Decimal digits -/

/-- The decimal digit of a value below ten. -/
def decimalDigit (n : Fin 10) : Char := Char.ofNat (48 + n)

/-- The value of a decimal digit. -/
def digitValue? (c : Char) : Option (Fin 10) :=
  if '0' ≤ c ∧ c ≤ '9' then some (Fin.ofNat 10 (c.toNat - 48)) else none

/-- The number that decimal digits write. -/
def ofDigits (ds : List (Fin 10)) : Nat := ds.foldl (fun (n : Nat) (d : Fin 10) => 10 * n + d) 0

/-- The longest run of decimal digits at the start, and the rest. -/
def spanDigits : List Char → List (Fin 10) × List Char
  | [] => ([], [])
  | c :: cs =>
    match digitValue? c with
    | none => ([], c :: cs)
    | some d => (d :: (spanDigits cs).1, (spanDigits cs).2)

/-- The last `w` decimal digits of a number. -/
def lastDigits (w n : Nat) : List (Fin 10) :=
  match w with
  | 0 => []
  | w + 1 => lastDigits w (n / 10) ++ [Fin.ofNat 10 n]

/-- A number in at least `w` decimal digits. -/
def padded (w n : Nat) : List Char :=
  let ds := (Nat.repr n).toList
  List.replicate (w - ds.length) '0' ++ ds

/-! ### Hexadecimal digits -/

/-- The hexadecimal digit of a value below sixteen, in lower case. -/
def hexDigit (n : Nat) : Char :=
  if n < 10 then Char.ofNat (48 + n) else Char.ofNat (87 + n)

/-- The value of a hexadecimal digit of either case. -/
def hexValue? (c : Char) : Option Nat :=
  if '0' ≤ c ∧ c ≤ '9' then some (c.toNat - 48)
  else if 'a' ≤ c ∧ c ≤ 'f' then some (c.toNat - 87)
  else if 'A' ≤ c ∧ c ≤ 'F' then some (c.toNat - 55)
  else none

/-- The last `w` hexadecimal digits of a number. -/
def hexDigits (w n : Nat) : List Char :=
  match w with
  | 0 => []
  | w + 1 => hexDigits w (n / 16) ++ [hexDigit (n % 16)]

/-- Reads hexadecimal digits behind those whose value is `n`. -/
def ofHexFrom? (n : Nat) : List Char → Option Nat
  | [] => some n
  | c :: cs => (hexValue? c).bind fun d => ofHexFrom? (16 * n + d) cs

/-- The number that hexadecimal digits write. -/
def ofHex? (cs : List Char) : Option Nat := ofHexFrom? 0 cs

/-! ### Reading back -/

@[simp] theorem length_hexDigits (w n : Nat) : (hexDigits w n).length = w := by
  induction w generalizing n with
  | zero => rfl
  | succ w ih => simp [hexDigits, ih]

theorem hexValue?_hexDigit {n : Nat} (h : n < 16) : hexValue? (hexDigit n) = some n := by
  have : ∀ n : Fin 16, hexValue? (hexDigit n) = some n.val := by decide
  exact this ⟨n, h⟩

theorem ofHexFrom?_append (n : Nat) (cs ds : List Char) :
    ofHexFrom? n (cs ++ ds) = (ofHexFrom? n cs).bind fun m => ofHexFrom? m ds := by
  induction cs generalizing n with
  | nil => rfl
  | cons c cs ih => cases h : hexValue? c <;> simp [ofHexFrom?, h, ih]

theorem ofHex?_hexDigits {w n : Nat} (h : n < Nat.pow 16 w) : ofHex? (hexDigits w n) = some n := by
  induction w generalizing n with
  | zero =>
    have : n = 0 := by simpa using h
    subst this
    rfl
  | succ w ih =>
    have hlt : n / 16 < Nat.pow 16 w := Nat.div_lt_of_lt_mul (Nat.mul_comm .. ▸ h)
    have := ih hlt
    simp only [ofHex?] at this ⊢
    rw [hexDigits, ofHexFrom?_append, this]
    simp [ofHexFrom?, hexValue?_hexDigit (Nat.mod_lt n (by decide : 0 < 16))]
    omega

end BoardAudit.Text
