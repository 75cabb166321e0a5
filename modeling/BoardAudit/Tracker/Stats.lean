import BoardAudit.Handling

/-!
# Counters

A tracker counts what becomes of each offered trigger, and what its worker does. The counters of the
two sides are apart, since each side writes only its own.
-/

namespace BoardAudit

/-- What became of an offered trigger. -/
inductive Admission where
  | accepted
  | rejected
  | droppedOverflow
  | droppedAfterStop
  deriving DecidableEq

/-- How many offered triggers became what. -/
structure Admissions where
  accepted : Nat
  rejected : Nat
  droppedOverflow : Nat
  droppedAfterStop : Nat
  deriving DecidableEq

namespace Admissions

def zero : Admissions := ⟨0, 0, 0, 0⟩

/-- Counts one more offered trigger. -/
def count (a : Admissions) : Admission → Admissions
  | .accepted => { a with accepted := a.accepted + 1 }
  | .rejected => { a with rejected := a.rejected + 1 }
  | .droppedOverflow => { a with droppedOverflow := a.droppedOverflow + 1 }
  | .droppedAfterStop => { a with droppedAfterStop := a.droppedAfterStop + 1 }

/-- How many offered triggers became this. -/
def number (a : Admissions) : Admission → Nat
  | .accepted => a.accepted
  | .rejected => a.rejected
  | .droppedOverflow => a.droppedOverflow
  | .droppedAfterStop => a.droppedAfterStop

/-- How many offered triggers were valid and yet lost. -/
def dropped (a : Admissions) : Nat := a.droppedOverflow + a.droppedAfterStop

theorem number_count (a : Admissions) (x y : Admission) :
    (a.count x).number y = a.number y + if x = y then 1 else 0 := by
  cases x <;> cases y <;> rfl

end Admissions

/-- How much a worker did. -/
structure Tallies where
  coalesced : Nat
  drains : Nat
  handled : Nat
  logged : Nat
  ignored : Nat
  fetchFailures : Nat
  insertFailures : Nat
  crashes : Nat
  deriving DecidableEq

namespace Tallies

def zero : Tallies := ⟨0, 0, 0, 0, 0, 0, 0, 0⟩

/-- Counts one more handled trigger by its outcome. -/
def count (t : Tallies) (o : Outcome) : Tallies :=
  let t := { t with handled := t.handled + 1 }
  match o with
  | .logged _ => { t with logged := t.logged + 1 }
  | .ignored => { t with ignored := t.ignored + 1 }
  | .baseline | .unchanged => t
  | .failed (.fetch _) => { t with fetchFailures := t.fetchFailures + 1 }
  | .failed (.insert _) => { t with insertFailures := t.insertFailures + 1 }
  | .crashed => { t with crashes := t.crashes + 1 }

end Tallies

/-- All counters of a tracker. -/
structure Stats where
  admissions : Admissions
  tallies : Tallies
  deriving DecidableEq

end BoardAudit
