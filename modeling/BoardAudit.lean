import BoardAudit.Simulation.Rehearsal
import BoardAudit.Storage.AuditFile
import BoardAudit.Tracker.System
import BoardAudit.Proofs.Tracker.Coalescing
import BoardAudit.Proofs.Tracker.Moves
import BoardAudit.Proofs.Tracker.Soundness
import BoardAudit.Proofs.Tracker.Shutdown
import BoardAudit.Proofs.Tracker.Balance
import BoardAudit.Proofs.Handling.Sightings
import BoardAudit.Proofs.Handling.Attempts
import BoardAudit.Proofs.Handling.Trail
import BoardAudit.Proofs.Tracker.Runs
import BoardAudit.Proofs.Tracker.Stopping
import BoardAudit.Proofs.Tracker.Watch
import BoardAudit.Proofs.Tracker.Isolation
import BoardAudit.Proofs.Tracker.Schedules
import BoardAudit.Proofs.Handling.Attribution
import BoardAudit.Proofs.Tracker.Independence
import BoardAudit.Proofs.Handling.Owners
import BoardAudit.Proofs.Handling.Orders
import BoardAudit.Proofs.Tracker.Applicability
import BoardAudit.Proofs.Tracker.Visits
import BoardAudit.Proofs.Tracker.Rejection
import BoardAudit.Proofs.Storage.Appending
import BoardAudit.Proofs.Json.Locality
import BoardAudit.Proofs.Storage.Unended
import BoardAudit.Proofs.Handling.Scripts
import BoardAudit.Proofs.Tracker.Reports
import BoardAudit.Proofs.Handling.Filing
import BoardAudit.Proofs.Trigger.Names
import BoardAudit.Proofs.Entry.Texts
import BoardAudit.Proofs.Board.Differences
import BoardAudit.Proofs.Tracker.Settings
import BoardAudit.Proofs.Tracker.Permits
import BoardAudit.Proofs.Simulation.Rehearsals
