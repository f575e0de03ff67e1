import GattSync.CommandLine
import GattSync.Main
import GattSync.Rehearsal.CycleTrial
import GattSync.Rehearsal.SessionTrial
import GattSync.Status.Codec
import GattSync.Status.Handles
import GattSync.Proofs.Cycle.Addressees
import GattSync.Proofs.Cycle.Order
import GattSync.Proofs.Cycle.Recovery
import GattSync.Proofs.Resync.Span
import GattSync.Proofs.Cycle.Itinerary
import GattSync.Proofs.Cycle.Reports
import GattSync.Proofs.Adapter.Teardown
import GattSync.Proofs.Device.Abandonment
import GattSync.Proofs.Device.Stopping
import GattSync.Proofs.Device.Isolation
import GattSync.Proofs.Cycle.Strangers
import GattSync.Proofs.Adapter.Fanout
import GattSync.Proofs.Cycle.Completions
import GattSync.Proofs.Cycle.Atomicity
import GattSync.Proofs.Text.Quotation
import GattSync.Proofs.Status.Broadcast
import GattSync.Proofs.Encodings
import GattSync.Proofs.Resync.Conclusion
import GattSync.Proofs.Adapter.Refusal
import GattSync.Proofs.Device.Seeds
import GattSync.Proofs.Device.Continuity
import GattSync.Proofs.Uuid.Grammar
import GattSync.Proofs.Status.Outcome
import GattSync.Proofs.Status.Sharing
import GattSync.Proofs.Adapter.Discovery
import GattSync.Proofs.Adapter.Lookup
import GattSync.Proofs.Resync.Pace
import GattSync.Proofs.Resync.Launch
import GattSync.Proofs.Layout.Faults
import GattSync.Proofs.Spec.Respelling
import GattSync.Proofs.Config.Saving
import GattSync.Proofs.Text.Chunks
import GattSync.Proofs.Arrangements
