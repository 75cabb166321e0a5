import BoardAudit.Board.Table
import BoardAudit.Error

/-!
# Repositories

What a tracker reads rows from: a function that finds a row, fails or crashes. A repository in memory
is a table behind a lock, and a crash while the lock is held leaves it unusable.
-/

namespace BoardAudit

/-- What reading a row gives. -/
inductive Fetch (α : Type) where
  | found (row : α)
  | failed (error : RepositoryError)
  | crashed

/-- A source of rows of every kind. -/
abbrev Repositories := (k : Kind) → EntityId → Fetch k.Row

/-- The rows found are rows of the entity that was asked for. -/
def Repositories.Faithful (r : Repositories) : Prop :=
  ∀ k id row, r k id = .found row → Row.id k row = id

/-- A table in memory behind a lock. -/
structure MemoryRepository (k : Kind) where
  table : Table k
  poisoned : Bool

namespace MemoryRepository

variable {k : Kind}

def empty (k : Kind) : MemoryRepository k := ⟨.empty k, false⟩

/-- The error of an operation on a poisoned lock. -/
def lockError (operation : String) : RepositoryError :=
  .backend ("poisoned lock: repository." ++ operation)

/-- The table, if the lock is not poisoned. -/
def locked (r : MemoryRepository k) (operation : String) : Except RepositoryError (Table k) :=
  if r.poisoned then .error (lockError operation) else .ok r.table

/-- Keeps a row, in place of an earlier one of its entity. -/
def upsert (r : MemoryRepository k) (row : k.Row) : Except RepositoryError (MemoryRepository k) := do
  return { r with table := (← r.locked "upsert").store row }

/-- Begins to keep a row whose id cannot be told: the lock is held when that crashes. -/
def upsertCrashing (r : MemoryRepository k) : Except RepositoryError (MemoryRepository k) := do
  let _ ← r.locked "upsert"
  return { r with poisoned := true }

/-- Removes the row of an entity, and tells it. -/
def remove (r : MemoryRepository k) (id : EntityId) :
    Except RepositoryError (Option k.Row × MemoryRepository k) := do
  let table ← r.locked "remove"
  return (table.find? id, { r with table := table.erase id })

def size (r : MemoryRepository k) : Except RepositoryError Nat := do
  return (← r.locked "len").size

def isEmpty (r : MemoryRepository k) : Except RepositoryError Bool := do
  return (← r.size) == 0

def get (r : MemoryRepository k) (id : EntityId) : Except RepositoryError k.Row := do
  match (← r.locked "get_detail").find? id with
  | some row => return row
  | none => throw (.notFound k id)

end MemoryRepository

end BoardAudit
