import BuildCapture.Main
import BuildCapture.Names.Lemmas
import BuildCapture.Proofs.Json.Literals
import BuildCapture.Proofs.Json.Document
import BuildCapture.Proofs.Json.Spelling
import BuildCapture.Proofs.Json.Indented
import BuildCapture.Proofs.Json.Lawful
import BuildCapture.Proofs.Json.Record
import BuildCapture.Proofs.Json.Accepted
import BuildCapture.Proofs.Json.Focus
import BuildCapture.Proofs.Json.Omission
import BuildCapture.Proofs.Json.Agree
import BuildCapture.Proofs.Json.Fields
import BuildCapture.Proofs.Text.Numeral
import BuildCapture.Proofs.Time.RoundTrip
import BuildCapture.Proofs.Time.Order
import BuildCapture.Proofs.Time.DefaultFormat
import BuildCapture.Proofs.Time.Elapsed
import BuildCapture.Proofs.Time.Pattern
import BuildCapture.Proofs.Toml.Strings
import BuildCapture.Proofs.Toml.Documents
import BuildCapture.Proofs.Config.RoundTrip
import BuildCapture.Proofs.WriteOnce
import BuildCapture.Proofs.Summary.Grouping
import BuildCapture.Proofs.Summary.PassCount
import BuildCapture.Proofs.Report.Lawful
import BuildCapture.Proofs.Report.Omission
import BuildCapture.Proofs.Report.Foreign
import BuildCapture.Proofs.Build.RoundTrip
import BuildCapture.Proofs.Build.Omission
import BuildCapture.Proofs.Build.Reordered
import BuildCapture.Proofs.Build.Attachment
import BuildCapture.Proofs.Build.Names
import BuildCapture.Proofs.Snapshot.RoundTrip
import BuildCapture.Proofs.Snapshot.Omission
import BuildCapture.Proofs.Snapshot.Enrichment
import BuildCapture.Proofs.Snapshot.Trace
import BuildCapture.Proofs.Snapshot.Variables
import BuildCapture.Proofs.Snapshot.Secrecy
import BuildCapture.Proofs.Snapshot.LateCapture
import BuildCapture.Proofs.Snapshot.Root
import BuildCapture.Proofs.Snapshot.Modes
import BuildCapture.Proofs.Snapshot.Duration
import BuildCapture.Proofs.Snapshot.Rearranged
import BuildCapture.Proofs.Snapshot.Timestamp
import BuildCapture.Proofs.Snapshot.Canonical
import BuildCapture.Proofs.Envelope.RoundTrip
import BuildCapture.Proofs.Command.Options
import BuildCapture.Proofs.Command.Arguments
import BuildCapture.Proofs.Command.Run
import BuildCapture.Proofs.Command.Unprintable
import BuildCapture.Proofs.Command.Presentation
import BuildCapture.Proofs.Command.Failure
import BuildCapture.Proofs.Slot
import BuildCapture.Proofs.Config.Overlay
