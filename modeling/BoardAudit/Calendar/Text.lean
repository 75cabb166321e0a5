import BoardAudit.Calendar.Instant
import BoardAudit.Text.Blank
import BoardAudit.Text.Digits

/-!
# The text of an instant

An instant is written in universal time, with the shortest fraction of zero, three, six or nine
digits that is exact. It is read from any local time with its zone: blank characters may stand before
every number and sign, months to seconds may have one digit, a year may have a sign, and digits of the
fraction beyond nine do not count.
-/

namespace BoardAudit.Instant

open Text

/-! ### Writing -/

/-- A year: four digits, or a sign and at least four digits outside of them. -/
def yearText (year : Int) : List Char :=
  if 0 ≤ year ∧ year ≤ 9999 then padded 4 year.toNat
  else (if year < 0 then '-' else '+') :: padded 4 year.natAbs

/-- A fraction of a second: none, or three, six or nine digits. -/
def fractionText (nanos : Nat) : List Char :=
  if nanos = 0 then []
  else if nanos % 1000000 = 0 then '.' :: padded 3 (nanos / 1000000)
  else if nanos % 1000 = 0 then '.' :: padded 6 (nanos / 1000)
  else '.' :: padded 9 nanos

/-- The text of an instant. A leap second is the sixtieth of its minute. -/
def toText (i : Instant) : List Char :=
  let leap := i.nanos / nanosPerSecond
  yearText i.date.year ++ '-' :: padded 2 i.date.month ++ '-' :: padded 2 i.date.day ++
    'T' :: padded 2 (i.second / 3600) ++ ':' :: padded 2 (i.second / 60 % 60) ++
    ':' :: padded 2 (i.second % 60 + leap) ++ fractionText (i.nanos % nanosPerSecond) ++ ['Z']

def toString (i : Instant) : String := String.ofList i.toText

/-! ### Reading -/

/-- A number of one to `most` digits behind blank characters, and the rest. -/
def readNumber? (most : Nat) (cs : List Char) : Option (Nat × List Char) :=
  let cs := trimStart cs
  match (spanDigits (cs.take most)).1 with
  | [] => none
  | ds => some (ofDigits ds, cs.drop ds.length)

/-- The rest behind blank characters and the character `c`. -/
def readChar? (c : Char) (cs : List Char) : Option (List Char) :=
  match trimStart cs with
  | d :: r => if d = c then some r else none
  | [] => none

/-- All digits at the start, at least one, and the rest. -/
def readDigits? (cs : List Char) : Option (Nat × List Char) :=
  match spanDigits cs with
  | ([], _) => none
  | (ds, r) => some (ofDigits ds, r)

/-- A year behind blank characters: up to four digits, or a sign and any number of digits. -/
def readYear? (cs : List Char) : Option (Int × List Char) :=
  match trimStart cs with
  | '-' :: r => (readDigits? r).map fun (n, r) => (-n, r)
  | '+' :: r => (readDigits? r).map fun (n, r) => (n, r)
  | r => (readNumber? 4 r).map fun (n, r) => (n, r)

/-- A date, and the rest. -/
def readDate? (cs : List Char) : Option (Date × List Char) := do
  let (year, r) ← readYear? cs
  let r ← readChar? '-' r
  let (month, r) ← readNumber? 2 r
  let r ← readChar? '-' r
  let (day, r) ← readNumber? 2 r
  some (← Date.of? year month day, r)

/-- The nanoseconds that the digits of a fraction write. -/
def nanosOfDigits (ds : List (Fin 10)) : Nat :=
  ofDigits ((ds ++ List.replicate 9 (⟨0, by decide⟩ : Fin 10)).take 9)

/-- The fraction of a second, if a point follows, and the rest. -/
def readNanos? : List Char → Option (Nat × List Char)
  | '.' :: r =>
    match spanDigits r with
    | ([], _) => none
    | (ds, r) => some (nanosOfDigits ds, r)
  | cs => some (0, cs)

/-- The second of a day and its nanoseconds, and the rest. The second sixty is the leap second of
its minute. -/
def readTime? (cs : List Char) : Option (Nat × Nat × List Char) := do
  let (hour, r) ← readNumber? 2 cs
  let r ← readChar? ':' r
  let (minute, r) ← readNumber? 2 r
  let r ← readChar? ':' r
  let (second, r) ← readNumber? 2 r
  let (nanos, r) ← readNanos? r
  if 23 < hour ∨ 59 < minute ∨ 60 < second then none
  else if second = 60 then some ((hour * 60 + minute) * 60 + 59, nanosPerSecond + nanos, r)
  else some ((hour * 60 + minute) * 60 + second, nanos, r)

/-- A number of exactly two digits, and the rest. -/
def readPair? : List Char → Option (Nat × List Char)
  | a :: b :: r => do
    let a ← digitValue? a
    let b ← digitValue? b
    some (10 * a.val + b.val, r)
  | _ => none

/-- Hours and minutes of an offset in minutes, and the rest. Colons and blank characters may stand
between them. -/
def readOffset? (cs : List Char) : Option (Nat × List Char) := do
  let (hours, r) ← readPair? cs
  let (minutes, r) ← readPair? (r.dropWhile fun c => c == ':' || isBlank c)
  if 23 < hours ∨ 59 < minutes then none else some (60 * hours + minutes, r)

/-- A zone behind blank characters, as minutes ahead of universal time, and the rest. -/
def readZone? (cs : List Char) : Option (Int × List Char) :=
  match trimStart cs with
  | [] => none
  | c :: r =>
    if c = 'Z' ∨ c = 'z' then some (0, r)
    else if (c :: r.take 2).map Char.toLower = ['u', 't', 'c'] then some (0, r.drop 2)
    else if c = '+' then (readOffset? r).map fun (n, r) => (n, r)
    else if c = '-' ∨ c = '\u2212' then (readOffset? r).map fun (n, r) => (-n, r)
    else none

def ofText? (cs : List Char) : Option Instant := do
  let (date, r) ← readDate? cs
  match r with
  | [] => none
  | c :: r =>
    if c = 'T' ∨ c = 't' ∨ c = ' ' then
      let (second, nanos, r) ← readTime? r
      let (offset, r) ← readZone? r
      if trimStart r = [] then ofLocal? date second nanos offset else none
    else none

def ofString? (s : String) : Option Instant := ofText? s.toList

end BoardAudit.Instant
