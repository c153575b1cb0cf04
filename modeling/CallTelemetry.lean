import CallTelemetry.Batch
import CallTelemetry.Inspection.Failure
import CallTelemetry.Inspection.Settings
import CallTelemetry.Inspection.Statistics
import CallTelemetry.Inspection.Wire
import CallTelemetry.Intake.Receiver
import CallTelemetry.Monitor.Alarms
import CallTelemetry.Monitor.Collecting
import CallTelemetry.Monitor.Lookup
import CallTelemetry.Monitor.Map
import CallTelemetry.Proofs.Alarm.Counting
import CallTelemetry.Proofs.Alarm.Sharing
import CallTelemetry.Proofs.Bytes.Sequence
import CallTelemetry.Proofs.Intake.Restoring
import CallTelemetry.Proofs.Intake.Streaming
import CallTelemetry.Proofs.Latency.Sums
import CallTelemetry.Proofs.Metadata.LookingUp
import CallTelemetry.Proofs.Metadata.Trailing
import CallTelemetry.Proofs.Pending.Batching
import CallTelemetry.Proofs.Pending.Grouping
import CallTelemetry.Proofs.Pending.Interchange
import CallTelemetry.Proofs.Pending.Outlasting
import CallTelemetry.Proofs.Pending.Peaks
import CallTelemetry.Proofs.Pending.Racing
import CallTelemetry.Proofs.Pending.Reporting
import CallTelemetry.Proofs.Pending.Scripts
import CallTelemetry.Proofs.Settings.Accepting
import CallTelemetry.Proofs.Storage.Naming
import CallTelemetry.Proofs.Storage.Regrouping
import CallTelemetry.Proofs.Topology.Aggregation
import CallTelemetry.Proofs.Topology.Gathering
import CallTelemetry.Proofs.Topology.ObservedServers
import CallTelemetry.Proofs.Topology.References
import CallTelemetry.Proofs.Topology.Registrations
import CallTelemetry.Proofs.Topology.SlotTimes
import CallTelemetry.Proofs.Topology.Unknown
import CallTelemetry.Proofs.Topology.UserCalls
import CallTelemetry.Proofs.Trace.Assembling
import CallTelemetry.Proofs.TransactionId
import CallTelemetry.Proofs.Wire.Cutting
import CallTelemetry.Proofs.Wire.Length
