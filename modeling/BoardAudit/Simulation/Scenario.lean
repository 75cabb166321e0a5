import BoardAudit.Simulation.World

/-!
# Scenarios

A tracker in a simulated world, worked by hand: what is told and what is logged is kept until it is
reported.
-/

namespace BoardAudit.Simulation

/-- A tracker in its world, with the events not yet reported and the number of reported entries. -/
structure Scenario where
  world : World
  tracker : Tracker MemoryLog
  events : List Event
  reported : Nat

namespace Scenario

/-- A new tracker in an empty world, if it can start. -/
def start? (config : Config) (ids : IdSource) : Option Scenario :=
  (Tracker.start? config (⟨[], ids⟩ : MemoryLog)).map fun tracker => ⟨.empty, tracker, [], 0⟩

/-- A new tracker of the default settings in an empty world. -/
def start (ids : IdSource) : Scenario := ⟨.empty, .start .default ⟨[], ids⟩, [], 0⟩

def snapshots (s : Scenario) : Snapshots := s.tracker.worker.snapshots

def log (s : Scenario) : MemoryLog := s.tracker.worker.log

def tell (s : Scenario) (events : List Event) : Scenario := { s with events := s.events ++ events }

/-- Handles one trigger at once, past the inbox and the batch. -/
def handle (s : Scenario) (t : Trigger) : Outcome × Scenario :=
  let (outcome, snapshots, log) := s.world.environment.handle t s.snapshots s.log
  let d : Dispatch := ⟨t, outcome⟩
  let s := { s with
    world := s.world.countFetches [d]
    tracker := { s.tracker with worker := { s.tracker.worker with snapshots, log } } }
  (outcome, s.tell d.handlerEvents)

def offer (s : Scenario) (t : Trigger) : Admission × Scenario :=
  let (a, inbox) := s.tracker.inbox.offer t
  (a, { s with tracker := { s.tracker with inbox } })

/-- Lets a trigger wait, past the inbox. -/
def receive (s : Scenario) (t : Trigger) : Scenario :=
  { s with tracker := { s.tracker with worker := s.tracker.worker.receive t } }

/-- The worker takes up to `n` triggers from the queue; tells how many it took. -/
def pump (s : Scenario) (n : Nat) : Nat × Scenario :=
  let (taken, tracker) := s.tracker.pump n
  (taken, { s with tracker })

def drain (s : Scenario) : DrainReport × Scenario :=
  let (ds, tracker) := s.tracker.drain s.world.environment
  let s := { s with world := s.world.countFetches ds, tracker }
  (.of ds, s.tell (Event.ofDrain ds))

def finish (s : Scenario) : Ending × Scenario :=
  let (ending, tracker) := s.tracker.finish s.world.environment
  (ending, { s with world := s.world.countFetches ending.dispatches, tracker })

/-- The worker ends and tells how. -/
def finishTelling (s : Scenario) : DrainReport × Scenario :=
  let (ending, s) := s.finish
  (.of ending.dispatches, s.tell ending.events)

/-- Puts triggers into the queue past all checks; those without room are lost. -/
def queueLate (s : Scenario) (ts : List Trigger) : Scenario :=
  let inbox := ts.foldl (fun (i : Inbox) t => (i.send t).2) s.tracker.inbox
  { s with tracker := { s.tracker with inbox } }

def mapInbox (s : Scenario) (f : Inbox → Inbox) : Scenario :=
  { s with tracker := { s.tracker with inbox := f s.tracker.inbox } }

/-- The entries logged since the last report, which this is. -/
def reportEntries (s : Scenario) : List LogModel × Scenario :=
  ((s.log.entries.drop s.reported).map LogEntry.log, { s with reported := s.log.size })

/-- The events told since the last report, which this is. -/
def reportEvents (s : Scenario) : List Event × Scenario := (s.events, { s with events := [] })

end Scenario

end BoardAudit.Simulation
