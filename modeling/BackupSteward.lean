import BackupSteward.Routine
import BackupSteward.Proofs.Retention.PathIndependence
import BackupSteward.Proofs.Repository.Forget
import BackupSteward.Proofs.Event.Totality
import BackupSteward.Proofs.Engine.Schedule
import BackupSteward.Proofs.Event.Accounts
import BackupSteward.Proofs.Event.Races
import BackupSteward.Proofs.Engine.Delivery
import BackupSteward.Proofs.Engine.Stopping
import BackupSteward.Proofs.Options.Growth
import BackupSteward.Proofs.Engine.Ending
import BackupSteward.Proofs.Repository.Streaming
import BackupSteward.Proofs.Engine.Framing
import BackupSteward.Proofs.Engine.Reading
import BackupSteward.Proofs.Engine.Diagnosis
import BackupSteward.Proofs.Engine.Deadlines
import BackupSteward.Proofs.Engine.Course
import BackupSteward.Proofs.Repository.Events
import BackupSteward.Proofs.Engine.Alike
import BackupSteward.Proofs.Repository.Sinks
import BackupSteward.Proofs.Repository.Diagnostics
import BackupSteward.Proofs.Repository.Password
import BackupSteward.Proofs.Repository.Masking
import BackupSteward.Proofs.Snapshot.Integrity
import BackupSteward.Proofs.Retention.Newest
import BackupSteward.Proofs.Retention.Monotone
import BackupSteward.Proofs.Retention.Ties
import BackupSteward.Proofs.Retention.Survival
import BackupSteward.Proofs.Retention.Copies
import BackupSteward.Proofs.Repository.Environment
import BackupSteward.Proofs.Routine
import BackupSteward.Proofs.Time.Timestamp
import BackupSteward.Proofs.Snapshot.Listing
import BackupSteward.Proofs.Snapshot.Directory
import BackupSteward.Proofs.Engine.Signals
import BackupSteward.Proofs.Repository.Terminal
import BackupSteward.Proofs.Options.Order
import BackupSteward.Proofs.Options.Rendering
import BackupSteward.Proofs.Options.Positional
import BackupSteward.Proofs.Repository.Updates
import BackupSteward.Proofs.Retention.Environment
import BackupSteward.Proofs.Repository.Encoding
import BackupSteward.Proofs.Repository.Forwarding
import BackupSteward.Proofs.Event.Absence
import BackupSteward.Proofs.Retention.Nesting
import BackupSteward.Proofs.Event.Prefilter
