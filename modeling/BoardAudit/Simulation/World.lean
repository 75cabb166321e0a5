import BoardAudit.Tracker.Basic

/-!
# Simulated worlds

A board and a log in memory whose reads and inserts can be made to fail or crash. A fault of a read
concerns one entity, whether it has a row or not; a fault of an insert concerns the entries whose text
starts in a given way, and of several rules the earliest counts.
-/

namespace BoardAudit.Simulation

/-- How reading a row goes wrong. -/
inductive FetchFault where
  | failing (text : String)
  | crashing
  deriving DecidableEq

/-- How inserting an entry goes wrong. -/
inductive InsertFault where
  | failing (error : SinkError)
  | crashing
  deriving DecidableEq

/-- A board, the faults, and the number of reads so far. -/
structure World where
  board : Tables
  fetchFaults : Std.ExtTreeMap Key FetchFault
  insertFaults : List (String × InsertFault)
  fetches : Nat

namespace World

def empty : World := ⟨.empty, ∅, [], 0⟩

/-- Reads rows from the board, except where there is a fault. -/
def repositories (w : World) : Repositories := fun k id =>
  match w.fetchFaults[(⟨k, id⟩ : Key)]? with
  | some (.failing text) => .failed (.backend text)
  | some .crashing => .crashed
  | none =>
    match w.board.find? k id with
    | some row => .found row
    | none => .failed (.notFound k id)

/-- What becomes of an entry by its text. -/
def verdict (w : World) (entry : String) : Verdict :=
  match w.insertFaults.find? fun rule => entry.startsWith rule.1 with
  | some (_, .failing error) => .refused error
  | some (_, .crashing) => .crashed
  | none => .stored

/-- Keeps entries in memory, except where there is a fault. -/
def sink (w : World) : Sink MemoryLog where
  insert m log :=
    match w.verdict m.entry with
    | .stored => (.stored, log.insert m)
    | v => (v, log)

/-- The world as the environment of a handler. -/
def environment (w : World) : Environment MemoryLog := ⟨w.repositories, w.sink, .epoch⟩

/-- Counts the reads of some handled triggers. -/
def countFetches (w : World) (ds : List Dispatch) : World :=
  { w with fetches := w.fetches + (ds.filter fun d => d.trigger.reads).length }

end World

end BoardAudit.Simulation
