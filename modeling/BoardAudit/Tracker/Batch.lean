import BoardAudit.Trigger.Basic

/-!
# Batches

The triggers that wait for a drain, at most one for each key: a later trigger takes the place of an
earlier one.
-/

namespace BoardAudit

/-- Waiting triggers, each under its own key. -/
@[ext] structure Batch where
  byKey : Std.ExtTreeMap Key Trigger
  key_eq : ∀ (key : Key) (t : Trigger), byKey[key]? = some t → t.key = key

namespace Batch

def empty : Batch := ⟨∅, by simp⟩

/-- The trigger that waits under a key. -/
def find? (b : Batch) (key : Key) : Option Trigger := b.byKey[key]?

def contains (b : Batch) (key : Key) : Bool := (b.find? key).isSome

/-- Lets a trigger wait, in place of an earlier one of its key. -/
def insert (b : Batch) (t : Trigger) : Batch where
  byKey := b.byKey.insert t.key t
  key_eq k u h := by
    rw [Std.ExtTreeMap.getElem?_insert] at h
    split at h
    · next he =>
      cases h
      exact Std.LawfulEqOrd.eq_of_compare he
    · exact b.key_eq k u h

def size (b : Batch) : Nat := b.byKey.size

def isEmpty (b : Batch) : Bool := b.size == 0

/-- The waiting triggers in the order of their keys. -/
def triggers (b : Batch) : List Trigger := b.byKey.toList.map (·.2)

@[simp] theorem find?_empty (key : Key) : empty.find? key = none := by simp [empty, find?]

theorem find?_insert (b : Batch) (t : Trigger) (key : Key) :
    (b.insert t).find? key = if t.key = key then some t else b.find? key := by
  simp [insert, find?, Std.ExtTreeMap.getElem?_insert]

theorem key_of_find? {b : Batch} {key : Key} {t : Trigger} (h : b.find? key = some t) :
    t.key = key := b.key_eq key t h

@[simp] theorem size_empty : empty.size = 0 := by simp [empty, size]

theorem size_insert (b : Batch) (t : Trigger) :
    (b.insert t).size = if b.contains t.key then b.size else b.size + 1 := by
  have h : t.key ∈ b.byKey ↔ b.contains t.key = true := Std.ExtTreeMap.mem_iff_isSome_getElem?
  simp [insert, size, Std.ExtTreeMap.size_insert, h]

@[simp] theorem length_triggers (b : Batch) : b.triggers.length = b.size := by
  simp [triggers, size]

theorem mem_triggers {b : Batch} {t : Trigger} : t ∈ b.triggers ↔ b.find? t.key = some t := by
  simp only [triggers, List.mem_map, Prod.exists, exists_eq_right,
    Std.ExtTreeMap.mem_toList_iff_getElem?_eq_some, find?]
  refine ⟨fun ⟨key, h⟩ => ?_, fun h => ⟨_, h⟩⟩
  rwa [b.key_eq key t h]

/-- No two waiting triggers have the same key. -/
theorem pairwise_triggers (b : Batch) : b.triggers.Pairwise fun t u => t.key ≠ u.key := by
  rw [triggers, List.pairwise_map]
  refine b.byKey.distinct_keys_toList.imp_of_mem fun {x y} hx hy hne he => hne ?_
  rw [Std.ExtTreeMap.mem_toList_iff_getElem?_eq_some] at hx hy
  rw [← b.key_eq _ _ hx, ← b.key_eq _ _ hy, he]
  exact Std.ReflCmp.compare_self

theorem ext_find? {b c : Batch} (h : ∀ key, b.find? key = c.find? key) : b = c :=
  Batch.ext (Std.ExtTreeMap.ext_getElem? h)

theorem isEmpty_iff {b : Batch} : b.isEmpty = true ↔ b = empty := by
  rw [isEmpty, beq_iff_eq, size, ← Std.ExtTreeMap.eq_empty_iff_size_eq_zero, Batch.ext_iff, empty]

@[simp] theorem triggers_empty : empty.triggers = [] := by simp [empty, triggers]

end Batch

end BoardAudit
