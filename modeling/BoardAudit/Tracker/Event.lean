import BoardAudit.Tracker.Worker

/-!
# Events

What a tracker tells about its work while it works, and the line of text of each event.
-/

namespace BoardAudit

/-- Something a tracker tells about. -/
inductive Event where
  | baselineStored (key : Key)
  | actionIgnored (key : Key)
  | entryWritten (key : Key) (entry : String)
  | triggerSkipped (key : Key) (action : Action) (error : HandlerError)
  | handlerCrashed (key : Key) (action : Action)
  | drained (report : DrainReport)
  | finalSweep (swept pending : Nat)
  | workerStarted (intervalMillis : Nat)
  | workerStopped
  | triggerRejected (kind action : String) (error : TriggerError)
  | stopping
  deriving DecidableEq

/-- The fields of a key, as they stand in a line. -/
def Key.fields (k : Key) : String := " kind=" ++ k.kind.name ++ " id=" ++ k.id.toString

/-- The line of an event: its level, what happened, and the fields. -/
def Event.render : Event → String
  | .baselineStored k => "DEBUG no prior snapshot, storing baseline" ++ k.fields
  | .actionIgnored k => "DEBUG status_changed does not apply, ignoring" ++ k.fields
  | .entryWritten k entry => "DEBUG audit entry written" ++ k.fields ++ " entry=" ++ entry
  | .triggerSkipped k action error =>
    "WARN skipping trigger" ++ k.fields ++ " action=" ++ action.name ++ " error=" ++ error.message
  | .handlerCrashed k action =>
    "ERROR handler panicked, skipping trigger" ++ k.fields ++ " action=" ++ action.name
  | .drained r =>
    "INFO drained pending triggers handled=" ++ r.handled.repr ++ " logged=" ++ r.logged.repr ++
      " failed=" ++ r.failed.repr
  | .finalSweep swept pending =>
    "DEBUG final sweep swept=" ++ swept.repr ++ " pending=" ++ pending.repr
  | .workerStarted ms => "INFO change tracker worker started flush_interval_ms=" ++ ms.repr
  | .workerStopped => "INFO change tracker worker stopped"
  | .triggerRejected kind action error =>
    "DEBUG rejecting trigger kind=" ++ kind ++ " action=" ++ action ++ " error=" ++ error.message
  | .stopping => "INFO stopping change tracker"

/-! ### Events of a drain -/

namespace Dispatch

/-- What the handler tells. -/
def handlerEvents (d : Dispatch) : List Event :=
  match d.outcome with
  | .baseline => [.baselineStored d.trigger.key]
  | .ignored => [.actionIgnored d.trigger.key]
  | _ => []

/-- What the worker tells. -/
def workerEvents (d : Dispatch) : List Event :=
  match d.outcome with
  | .logged entry => [.entryWritten d.trigger.key entry]
  | .failed error => [.triggerSkipped d.trigger.key d.trigger.action error]
  | .crashed => [.handlerCrashed d.trigger.key d.trigger.action]
  | _ => []

end Dispatch

/-- What a drain tells; one that handled nothing tells nothing. -/
def Event.ofDrain : List Dispatch → List Event
  | [] => []
  | ds => (ds.flatMap fun d => d.handlerEvents ++ d.workerEvents) ++ [.drained (.of ds)]

end BoardAudit
