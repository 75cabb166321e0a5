/-!
# Dates

Dates of the proleptic Gregorian calendar, with the year zero, from the year -262143 to the year
262142. `prev?_of_next?`: the day before the day after a date is that date.
-/

namespace BoardAudit

/-- A year with a 29th of February. -/
def LeapYear (year : Int) : Prop := year % 4 = 0 ∧ (year % 100 ≠ 0 ∨ year % 400 = 0)

instance : DecidablePred LeapYear := fun year => by unfold LeapYear; infer_instance

/-- The number of days of a month. -/
def daysIn (year : Int) (month : Nat) : Nat :=
  if month = 2 then (if LeapYear year then 29 else 28)
  else if month = 4 ∨ month = 6 ∨ month = 9 ∨ month = 11 then 30
  else 31

/-- The first and the last year. -/
def InRange (year : Int) : Prop := -262143 ≤ year ∧ year ≤ 262142

instance : DecidablePred InRange := fun year => by unfold InRange; infer_instance

/-- A day that the calendar has. -/
structure Date where
  year : Int
  month : Nat
  day : Nat
  inRange : InRange year
  month_pos : 1 ≤ month
  month_le : month ≤ 12
  day_pos : 1 ≤ day
  day_le : day ≤ daysIn year month
  deriving DecidableEq

namespace Date

/-- The date with the given parts, if the calendar has it. -/
def of? (year : Int) (month day : Nat) : Option Date :=
  if h : InRange year ∧ 1 ≤ month ∧ month ≤ 12 ∧ 1 ≤ day ∧ day ≤ daysIn year month then
    some ⟨year, month, day, h.1, h.2.1, h.2.2.1, h.2.2.2.1, h.2.2.2.2⟩
  else none

def next? (d : Date) : Option Date :=
  if d.day < daysIn d.year d.month then of? d.year d.month (d.day + 1)
  else if d.month < 12 then of? d.year (d.month + 1) 1
  else of? (d.year + 1) 1 1

def prev? (d : Date) : Option Date :=
  if 1 < d.day then of? d.year d.month (d.day - 1)
  else if 1 < d.month then of? d.year (d.month - 1) (daysIn d.year (d.month - 1))
  else of? (d.year - 1) 12 31

@[simp] theorem of?_parts (d : Date) : of? d.year d.month d.day = some d := by
  simp [of?, d.inRange, d.month_pos, d.month_le, d.day_pos, d.day_le]

theorem of?_eq_some_iff {year : Int} {month day : Nat} {d : Date} :
    of? year month day = some d ↔ d.year = year ∧ d.month = month ∧ d.day = day := by
  constructor
  · intro h
    unfold of? at h
    split at h
    · cases h
      exact ⟨rfl, rfl, rfl⟩
    · cases h
  · rintro ⟨rfl, rfl, rfl⟩
    exact of?_parts d

/-- The day before the day after a date is that date. -/
theorem prev?_of_next? {d e : Date} (h : d.next? = some e) : e.prev? = some d := by
  have hm := d.month_pos
  have hd := d.day_pos
  unfold next? at h
  split at h
  · obtain ⟨hy, hm', hd'⟩ := of?_eq_some_iff.1 h
    rw [prev?, if_pos (by omega), hy, hm', hd', Nat.add_sub_cancel]
    exact of?_parts d
  · next hlast =>
    have hle := d.day_le
    split at h
    · obtain ⟨hy, hm', hd'⟩ := of?_eq_some_iff.1 h
      rw [prev?, if_neg (by omega), if_pos (by omega), hy, hm', Nat.add_sub_cancel]
      exact of?_eq_some_iff.2 ⟨rfl, rfl, by omega⟩
    · next hdec =>
      have h12 : d.month = 12 := by have := d.month_le; omega
      obtain ⟨hy, hm', hd'⟩ := of?_eq_some_iff.1 h
      have h31 : daysIn d.year d.month = 31 := by rw [h12]; rfl
      rw [prev?, if_neg (by omega), if_neg (by omega), hy, Int.add_sub_cancel]
      exact of?_eq_some_iff.2 ⟨rfl, h12, by omega⟩

end Date

end BoardAudit
