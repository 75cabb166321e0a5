import Std.Data.ExtTreeMap

/-!
# Entity ids

Ids of 128 bits, ordered by value. The id zero is nil: it names no entity. A random id carries the
version number four and its variant mark among the drawn bits.
-/

namespace BoardAudit

/-- The id of an entity: a number of 128 bits. -/
@[ext] structure EntityId where
  toNat : Nat
  isLt : toNat < 1 <<< 128
  deriving DecidableEq

namespace EntityId

/-- The id zero, which names no entity. -/
def nil : EntityId := ⟨0, by decide⟩

def isNil (id : EntityId) : Bool := id.toNat == 0

/-- The four bits that hold the version number. -/
def version (id : EntityId) : Nat := id.toNat >>> 76 % 16

/-- The id drawn with the given random bits, of which 122 are used. -/
def random (bits : Nat) : EntityId :=
  let high := bits >>> 80 % 1 <<< 48
  let middle := bits >>> 64 % 1 <<< 12
  let low := bits % 1 <<< 62
  ⟨high <<< 80 + 4 <<< 76 + middle <<< 64 + 2 <<< 62 + low, by
    simp only [high, middle, low, Nat.reduceShiftLeft]
    omega⟩

theorem isNil_iff {id : EntityId} : id.isNil = true ↔ id = nil := by
  simp [isNil, nil, EntityId.ext_iff]

/-! ### Order -/

instance : Ord EntityId := ⟨fun a b => compare a.toNat b.toNat⟩

instance : Std.TransOrd EntityId :=
  inferInstanceAs (Std.TransCmp (compareOn EntityId.toNat))

instance : Std.LawfulEqOrd EntityId where
  eq_of_compare {a b} h := by
    have : compare a.toNat b.toNat = .eq := h
    exact EntityId.ext (Std.LawfulEqOrd.eq_of_compare this)

end EntityId

end BoardAudit
