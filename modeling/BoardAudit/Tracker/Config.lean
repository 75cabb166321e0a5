import BoardAudit.Calendar.Duration
import BoardAudit.Json.Printer
import BoardAudit.Json.Record

/-!
# Configuration

How many triggers a tracker queues, how often it drains them and what its worker is called. As JSON
the interval is in whole milliseconds, and every field may be left out.
-/

namespace BoardAudit

/-- The settings of a tracker. -/
structure Config where
  queueCapacity : UInt64
  flushInterval : Duration
  threadName : String
  deriving DecidableEq

namespace Config

/-- A queue of 1024 triggers, drained every ten seconds. -/
def default : Config := ⟨1024, .ofMillis 10000, "changetrail-worker"⟩

/-- The capacity with room for at least one trigger. -/
def effectiveCapacity (c : Config) : UInt64 := if c.queueCapacity = 0 then 1 else c.queueCapacity

theorem one_le_effectiveCapacity (c : Config) : 1 ≤ c.effectiveCapacity := by
  unfold effectiveCapacity
  split
  · decide
  · next h => grind

/-- The interval of at least one millisecond. -/
def effectiveInterval (c : Config) : Duration := c.flushInterval.max (.ofMillis 1)

/-! ### JSON -/

def fieldNames : List String := ["queue_capacity", "flush_interval_ms", "thread_name"]

/-- The interval in whole milliseconds, capped at 64 bits. -/
def intervalMillis (c : Config) : Nat := min c.flushInterval.toMillis (UInt64.size - 1)

def toJson (c : Config) : Json :=
  .record [("queue_capacity", .int c.queueCapacity.toNat),
    ("flush_interval_ms", .int c.intervalMillis), ("thread_name", .text c.threadName)]

end Config

/-- An integer of 64 bits without sign. -/
def Json.uint64? (j : Json) : Option UInt64 := do
  let n ← j.int?
  if 0 ≤ n ∧ n < UInt64.size then some n.toNat.toUInt64 else none

def Config.ofJson? (j : Json) : Option Config := do
  let fields ← j.fields? fieldNames
  some {
    queueCapacity := ← fields.withDefault "queue_capacity" default.queueCapacity Json.uint64?
    flushInterval := ← fields.withDefault "flush_interval_ms" default.flushInterval
      fun j => j.uint64?.map Duration.ofMillis
    threadName := ← fields.withDefault "thread_name" default.threadName Json.text? }

end BoardAudit
