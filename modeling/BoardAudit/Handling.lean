import BoardAudit.Board.Changes
import BoardAudit.Entry.Text
import BoardAudit.Storage.Repository
import BoardAudit.Storage.Sink

/-!
# Handling a trigger

A trigger is handled in two steps. First the entity is observed: its current row is read, compared with
the snapshot of its last observed row, and becomes the snapshot. Then the entry that the observation
calls for, if any, goes to the sink.
-/

namespace BoardAudit

/-- The last observed rows. -/
abbrev Snapshots := Tables

/-- What observing an entity calls for. -/
inductive Observation where
  | entry (refs : Refs) (text : String)
  | baseline
  | unchanged
  | ignored
  | failed (error : RepositoryError)
  | crashed
  deriving DecidableEq

/-- What handling a trigger did. -/
inductive Outcome where
  | logged (entry : String)
  | baseline
  | unchanged
  | ignored
  | failed (error : HandlerError)
  | crashed
  deriving DecidableEq

/-- What handling works with: the source of rows, the sink, and the time that entries are given. -/
structure Environment (σ : Type) where
  repositories : Repositories
  sink : Sink σ
  now : Instant

/-! ### Deletion without a snapshot -/

/-- The key of the note that names the project of a deleted entity. -/
def projectNote : String := "project_id"

/-- The project that the notes name, in any spelling of an id, blanks around it aside. -/
def Metadata.project? (m : Metadata) : Option EntityId :=
  m[projectNote]?.bind fun s => EntityId.ofText? (Text.trim s.toList)

/-- What an entry about a deleted entity refers to that was never observed: its own id stands in for
a project that the notes do not name. -/
def Refs.ofDeleted (k : Kind) (id : EntityId) (notes : Metadata) : Refs :=
  let project := (Metadata.project? notes).getD id
  match k with
  | .project => ⟨id, none, none⟩
  | .status => ⟨project, none, some id⟩
  | .task => ⟨project, some id, none⟩

/-! ### Observing -/

/-- Whether handling a trigger reads the current row. -/
def Trigger.reads (t : Trigger) : Bool :=
  match t.action with
  | .created | .updated => true
  | .deleted => false
  | .statusChanged => t.kind.hasStatusChanges

namespace Snapshots

/-- Observes an entity whose current row is `row`. -/
def observeRow (s : Snapshots) (t : Trigger) (row : t.kind.Row) : Observation :=
  match t.action with
  | .updated =>
    match s.find? t.kind t.id with
    | none => .baseline
    | some previous =>
      match Row.changes t.kind previous row with
      | [] => .unchanged
      | fields => .entry (Row.refs t.kind row) (entryText t.kind .updated fields)
  | .statusChanged =>
    .entry (Row.statusChangeRefs t.kind row) (entryText t.kind .statusChanged [])
  | action => .entry (Row.refs t.kind row) (entryText t.kind action [])

/-- Observes the deletion of an entity. -/
def observeDeletion (s : Snapshots) (t : Trigger) : Observation :=
  let refs := match s.find? t.kind t.id with
    | some row => Row.refs t.kind row
    | none => Refs.ofDeleted t.kind t.id t.metadata
  .entry refs (entryText t.kind .deleted [])

/-- Observes the entity of a trigger, and keeps what was seen. -/
def observe (repositories : Repositories) (s : Snapshots) (t : Trigger) : Observation × Snapshots :=
  if t.action = .deleted then (s.observeDeletion t, s.erase t.kind t.id)
  else if t.reads then
    match repositories t.kind t.id with
    | .found row => (s.observeRow t row, s.store t.kind row)
    | .failed error => (.failed error, s)
    | .crashed => (.crashed, s)
  else (.ignored, s)

end Snapshots

/-! ### Handling -/

namespace Environment

variable {σ : Type}

/-- Does what an observation calls for. -/
def settle (env : Environment σ) (o : Observation) (log : σ) : Outcome × σ :=
  match o with
  | .entry refs text =>
    match env.sink.insert { refs with entry := text, createdAt := env.now } log with
    | (.stored, log) => (.logged text, log)
    | (.refused error, log) => (.failed (.insert error), log)
    | (.crashed, log) => (.crashed, log)
  | .baseline => (.baseline, log)
  | .unchanged => (.unchanged, log)
  | .ignored => (.ignored, log)
  | .failed error => (.failed (.fetch error), log)
  | .crashed => (.crashed, log)

def handle (env : Environment σ) (t : Trigger) (s : Snapshots) (log : σ) :
    Outcome × Snapshots × σ :=
  let (o, s) := Snapshots.observe env.repositories s t
  let (outcome, log) := env.settle o log
  (outcome, s, log)

end Environment

/-- A trigger to handle, and what it is handled with. -/
structure Errand (σ : Type) where
  env : Environment σ
  trigger : Trigger

end BoardAudit
