import BoardAudit.Simulation.Scenario

/-!
# Rehearsals

A tracker whose worker keeps a fixed pace: it drains after every trigger, or only at the end. A worker
may be parked in the middle of reading a row; then nothing leaves the queue until it goes on.
-/

namespace BoardAudit.Simulation

/-- When the worker drains: only at the end, or after every trigger. -/
inductive Pace where
  | window
  | each
  deriving DecidableEq

/-- The settings at a pace: a worker that drains only at the end has an interval that does not elapse. -/
def Pace.adjust (pace : Pace) (config : Config) : Config :=
  match pace with
  | .window => { config with flushInterval := .ofMillis 3600000 }
  | .each => config

/-- A scenario at a pace, whether its worker is parked, and whether it ever was. -/
structure Rehearsal where
  scenario : Scenario
  pace : Pace
  parked : Bool
  everParked : Bool

namespace Rehearsal

/-- A new tracker in an empty world, if it can start. -/
def start? (pace : Pace) (config : Config) (ids : IdSource) : Option Rehearsal :=
  (Scenario.start? (pace.adjust config) ids).map fun scenario => ⟨scenario, pace, false, false⟩

def lifecycle (r : Rehearsal) : Lifecycle := r.scenario.tracker.inbox.lifecycle

/-- Whether the worker's part of the counters may still change by itself. -/
def isBusy (r : Rehearsal) : Bool :=
  r.parked || (r.pace == .window && r.lifecycle == .running)

/-- The worker takes the queue at its pace. What it tells is not heard here. -/
def settle (r : Rehearsal) : Rehearsal :=
  if r.parked then r
  else
    match r.pace with
    | .window => { r with scenario := (r.scenario.pump r.scenario.tracker.inbox.queue.length).2 }
    | .each =>
      let one (s : Scenario) : Scenario :=
        { (s.pump 1).2.drain.2 with events := s.events }
      { r with scenario := Nat.repeat one r.scenario.tracker.inbox.queue.length r.scenario }

/-- Lets the tracker take something in, and then the worker go on. -/
def take (r : Rehearsal) (f : Tracker MemoryLog → List Event × Tracker MemoryLog) : Rehearsal :=
  let (events, tracker) := f r.scenario.tracker
  { r with scenario := { r.scenario with tracker }.tell events }.settle

/-- Offers triggers one after the other. -/
def enqueueAll (r : Rehearsal) (ts : List Trigger) : Rehearsal :=
  ts.foldl (fun r t => r.take fun k => ([], k.enqueue t)) r

/-- The worker ends. What it tells is not heard here. -/
def finish (r : Rehearsal) : Rehearsal := { r with scenario := r.scenario.finish.2 }

/-- Begins the stop; whether it is heard is for the caller. -/
def beginStop (r : Rehearsal) : List Event × Rehearsal :=
  let (events, tracker) := r.scenario.tracker.beginStop
  (events, { r with scenario := { r.scenario with tracker } })

/-- Stops the tracker and waits for its end. -/
def stop (r : Rehearsal) : Rehearsal :=
  let (events, r) := r.beginStop
  let r := { r with scenario := r.scenario.tell events }
  if r.lifecycle = .stopped then r else r.finish

/-- Stops the tracker from elsewhere, so that nothing is heard. -/
def stopUnheard (r : Rehearsal) : Rehearsal :=
  { r.stop with scenario := { r.stop.scenario with events := r.scenario.events } }

/-- Whether the worker can be parked: at the pace of single triggers, while running. -/
def canPark (r : Rehearsal) : Bool := r.pace == .each && !r.parked && r.lifecycle == .running

/-- Records the creation of a task, and parks the worker where it reads that task. -/
def park (r : Rehearsal) (id : EntityId) : Rehearsal :=
  let tracker := (r.scenario.tracker.record .task id .created).pumpAll
  { r with scenario := { r.scenario with tracker }, parked := true, everParked := true }

/-- Lets a parked worker go on: it handles all that waits, and ends if it is to stop. -/
def unpark (r : Rehearsal) : Rehearsal :=
  if r.parked then
    let resumed := { r.scenario.drain.2 with events := r.scenario.events }
    let r := { r with scenario := resumed, parked := false }.settle
    if r.lifecycle = .stopping then r.finish else r
  else r

end Rehearsal

end BoardAudit.Simulation
