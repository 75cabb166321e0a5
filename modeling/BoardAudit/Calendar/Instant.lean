import BoardAudit.Calendar.Date

/-!
# Instants

Points in universal time to the nanosecond. A leap second is the last second of a minute with a
billion nanoseconds or more.
-/

namespace BoardAudit

def secondsPerDay : Nat := 86400

def nanosPerSecond : Nat := 1000000000

/-- A point in universal time: a date, a second of that day, and nanoseconds. -/
structure Instant where
  date : Date
  second : Nat
  nanos : Nat
  second_lt : second < secondsPerDay
  nanos_lt : nanos < 2 * nanosPerSecond
  leap : nanosPerSecond ≤ nanos → second % 60 = 59
  deriving DecidableEq

namespace Instant

/-- The instant with the given parts, if there is one. -/
def of? (date : Date) (second nanos : Nat) : Option Instant :=
  if h : second < secondsPerDay ∧ nanos < 2 * nanosPerSecond ∧
      (nanosPerSecond ≤ nanos → second % 60 = 59) then
    some ⟨date, second, nanos, h.1, h.2.1, h.2.2⟩
  else none

/-- The instant of a local time that is ahead of universal time by `offset` minutes, which are less
than a day. -/
def ofLocal? (date : Date) (second nanos : Nat) (offset : Int) : Option Instant :=
  let shifted := (second : Int) - 60 * offset
  if shifted < 0 then do
    of? (← date.prev?) (shifted + secondsPerDay).toNat nanos
  else if shifted < secondsPerDay then of? date shifted.toNat nanos
  else do
    of? (← date.next?) (shifted - secondsPerDay).toNat nanos

/-- The first instant of the year 1970. -/
def epoch : Instant where
  date := ⟨1970, 1, 1, by decide, by decide, by decide, by decide, by decide⟩
  second := 0
  nanos := 0
  second_lt := by decide
  nanos_lt := by decide
  leap := by decide

@[simp] theorem of?_parts (i : Instant) : of? i.date i.second i.nanos = some i := by
  simp only [of?, i.second_lt, i.nanos_lt, true_and]
  exact dif_pos i.leap

/-- A local time without offset is the instant itself. -/
theorem ofLocal?_zero (i : Instant) : ofLocal? i.date i.second i.nanos 0 = some i := by
  have h : (i.second : Int) < secondsPerDay := by exact_mod_cast i.second_lt
  have h0 : ¬(i.second : Int) < 0 := by omega
  simp [ofLocal?, h, h0]

end Instant

end BoardAudit
