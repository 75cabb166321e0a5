import BoardAudit.Board.Row
import Std.Data.ExtTreeMap

/-!
# Tables of rows

Rows of one kind by the id of their entity, and the tables of all three kinds. Every row is kept under
its own id. `Tables.find?_store` and `Tables.find?_erase`: an operation touches one place of one table.
-/

namespace BoardAudit

/-- Rows of a kind, each under its own id. -/
@[ext] structure Table (k : Kind) where
  byId : Std.ExtTreeMap EntityId k.Row
  id_eq : ∀ id row, byId[id]? = some row → Row.id k row = id

namespace Table

variable {k : Kind}

def empty (k : Kind) : Table k := ⟨∅, by simp⟩

def find? (t : Table k) (id : EntityId) : Option k.Row := t.byId[id]?

/-- Keeps a row, in place of an earlier one of its entity. -/
def store (t : Table k) (row : k.Row) : Table k where
  byId := t.byId.insert (Row.id k row) row
  id_eq id r h := by
    rw [Std.ExtTreeMap.getElem?_insert] at h
    split at h
    · next he =>
      cases h
      exact Std.LawfulEqOrd.eq_of_compare he
    · exact t.id_eq id r h

def erase (t : Table k) (id : EntityId) : Table k where
  byId := t.byId.erase id
  id_eq i r h := by
    rw [Std.ExtTreeMap.getElem?_erase] at h
    split at h
    · cases h
    · exact t.id_eq i r h

def size (t : Table k) : Nat := t.byId.size

def isEmpty (t : Table k) : Bool := t.size == 0

def contains (t : Table k) (id : EntityId) : Bool := (t.find? id).isSome

/-! ### What is found -/

@[simp] theorem find?_empty (id : EntityId) : (empty k).find? id = none := by
  simp [empty, find?]

theorem find?_store (t : Table k) (row : k.Row) (id : EntityId) :
    (t.store row).find? id = if Row.id k row = id then some row else t.find? id := by
  simp [store, find?, Std.ExtTreeMap.getElem?_insert]

theorem find?_erase (t : Table k) (id i : EntityId) :
    (t.erase id).find? i = if id = i then none else t.find? i := by
  simp [erase, find?, Std.ExtTreeMap.getElem?_erase]

theorem id_of_find? {t : Table k} {id : EntityId} {row : k.Row} (h : t.find? id = some row) :
    Row.id k row = id := t.id_eq id row h

theorem ext_find? {s t : Table k} (h : ∀ id, s.find? id = t.find? id) : s = t :=
  Table.ext (Std.ExtTreeMap.ext_getElem? h)

end Table

/-- A table of each kind. -/
@[ext] structure Tables where
  projects : Table .project
  statuses : Table .status
  tasks : Table .task

namespace Tables

def empty : Tables := ⟨.empty _, .empty _, .empty _⟩

def get (t : Tables) : (k : Kind) → Table k
  | .project => t.projects
  | .status => t.statuses
  | .task => t.tasks

def set (t : Tables) : (k : Kind) → Table k → Tables
  | .project, p => { t with projects := p }
  | .status, s => { t with statuses := s }
  | .task, s => { t with tasks := s }

def find? (t : Tables) (k : Kind) (id : EntityId) : Option k.Row := (t.get k).find? id

def store (t : Tables) (k : Kind) (row : k.Row) : Tables := t.set k ((t.get k).store row)

def erase (t : Tables) (k : Kind) (id : EntityId) : Tables := t.set k ((t.get k).erase id)

def count (t : Tables) (k : Kind) : Nat := (t.get k).size

def contains (t : Tables) (k : Kind) (id : EntityId) : Bool := (t.get k).contains id

def counts (t : Tables) : List Nat := Kind.all.map t.count

/-! ### What is found -/

@[simp] theorem get_set_self (t : Tables) (k : Kind) (s : Table k) : (t.set k s).get k = s := by
  cases k <;> rfl

theorem get_set_of_ne (t : Tables) {k l : Kind} (h : k ≠ l) (s : Table k) :
    (t.set k s).get l = t.get l := by
  cases k <;> cases l <;> first | rfl | exact absurd rfl h

@[simp] theorem find?_empty (k : Kind) (id : EntityId) : empty.find? k id = none := by
  cases k <;> simp [empty, find?, get]

theorem find?_store (t : Tables) (k : Kind) (row : k.Row) (id : EntityId) :
    (t.store k row).find? k id = if Row.id k row = id then some row else t.find? k id := by
  simp [store, find?, Table.find?_store]

theorem find?_store_of_ne (t : Tables) {k l : Kind} (h : k ≠ l) (row : k.Row) (id : EntityId) :
    (t.store k row).find? l id = t.find? l id := by
  simp [store, find?, get_set_of_ne t h]

theorem find?_erase (t : Tables) (k : Kind) (id i : EntityId) :
    (t.erase k id).find? k i = if id = i then none else t.find? k i := by
  simp [erase, find?, Table.find?_erase]

theorem find?_erase_of_ne (t : Tables) {k l : Kind} (h : k ≠ l) (id i : EntityId) :
    (t.erase k id).find? l i = t.find? l i := by
  simp [erase, find?, get_set_of_ne t h]

theorem ext_find? {s t : Tables} (h : ∀ k id, s.find? k id = t.find? k id) : s = t :=
  Tables.ext (Table.ext_find? (h .project)) (Table.ext_find? (h .status)) (Table.ext_find? (h .task))

end Tables

end BoardAudit
