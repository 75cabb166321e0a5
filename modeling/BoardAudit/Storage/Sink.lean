import BoardAudit.Entry.Model
import BoardAudit.Error

/-!
# Sinks

What a tracker writes audit entries to. A sink has a state, so that what it does with one entry may
hang on earlier ones. The log in memory keeps every entry, under an id drawn for it.
-/

namespace BoardAudit

/-- What a sink does with an entry. -/
inductive Verdict where
  | stored
  | refused (error : SinkError)
  | crashed
  deriving DecidableEq

/-- Takes an entry in a state of the sink. -/
structure Sink (σ : Type) where
  insert : LogModel → σ → Verdict × σ

/-- What a generator of random numbers gives, draw by draw, and how often it was drawn from. -/
structure RandomBits where
  number : Nat → Nat
  drawn : Nat

/-- A numeral is the generator that counts up from it. -/
instance (n : Nat) : OfNat RandomBits n := ⟨⟨(n + ·), 0⟩⟩

/-- A source of random ids, whatever its generator gives. -/
structure IdSource where
  bits : RandomBits

/-- The next id, and the source after it. -/
def IdSource.draw (s : IdSource) : EntityId × IdSource :=
  (.random (s.bits.number s.bits.drawn), ⟨⟨s.bits.number, s.bits.drawn + 1⟩⟩)

/-- A log in memory: its entries in the order of insertion. -/
structure MemoryLog where
  entries : List LogEntry
  ids : IdSource

namespace MemoryLog

/-- Appends an entry under a new id. -/
def insert (log : MemoryLog) (m : LogModel) : MemoryLog :=
  let (id, ids) := log.ids.draw
  ⟨log.entries ++ [⟨id, m⟩], ids⟩

def texts (log : MemoryLog) : List String := log.entries.map fun e => e.log.entry

def forProject (log : MemoryLog) (id : EntityId) : List LogEntry :=
  log.entries.filter fun e => e.log.projectId == id

def size (log : MemoryLog) : Nat := log.entries.length

def isEmpty (log : MemoryLog) : Bool := log.entries.isEmpty

/-- The sink that keeps every entry. -/
def sink : Sink MemoryLog := ⟨fun m log => (.stored, log.insert m)⟩

@[simp] theorem models_insert (log : MemoryLog) (m : LogModel) :
    (log.insert m).entries.map LogEntry.log = log.entries.map LogEntry.log ++ [m] := by
  simp [insert, IdSource.draw]

end MemoryLog

end BoardAudit
