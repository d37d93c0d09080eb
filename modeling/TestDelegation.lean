import TestDelegation.Calendar
import TestDelegation.ClassName
import TestDelegation.Codec
import TestDelegation.CommandLine.Arguments
import TestDelegation.CommandLine.Job
import TestDelegation.CommandLine.Program
import TestDelegation.Decimal.Binary64
import TestDelegation.Decimal.Digits
import TestDelegation.Decimal.Shortest
import TestDelegation.Decoding.Basic
import TestDelegation.Decoding.Mismatch
import TestDelegation.Decoding.Record
import TestDelegation.Delegation
import TestDelegation.Duration.Basic
import TestDelegation.Duration.Parser
import TestDelegation.Files.Path
import TestDelegation.Files.Tree
import TestDelegation.Json.Basic
import TestDelegation.Json.Printer
import TestDelegation.Json.Scan
import TestDelegation.Json.Scanner
import TestDelegation.Log.Delegation
import TestDelegation.Log.Entry
import TestDelegation.Log.Filter
import TestDelegation.Main
import TestDelegation.Notification.Description
import TestDelegation.Notification.Event
import TestDelegation.Notification.Notifier
import TestDelegation.Outcome
import TestDelegation.Payload.Adapter
import TestDelegation.Payload.Cause
import TestDelegation.Payload.Decoder
import TestDelegation.Payload.Detail
import TestDelegation.Payload.Encoder
import TestDelegation.Report.JsonLines
import TestDelegation.Report.Junit
import TestDelegation.Report.Lines
import TestDelegation.Report.Xml
import TestDelegation.Response
import TestDelegation.Runner
import TestDelegation.Settings
import TestDelegation.SortedMap
import TestDelegation.Text.Quoted
import TestDelegation.Text.Strip
import TestDelegation.Timestamp
import TestDelegation.Toml.Basic
import TestDelegation.Toml.Moment
import TestDelegation.Toml.Parser
import TestDelegation.ValueKind
import TestDelegation.Proofs.Json.Structure
import TestDelegation.Proofs.Json.Validity
import TestDelegation.Proofs.Decimal.Digits
import TestDelegation.Proofs.Json.Literals
import TestDelegation.Proofs.Json.RoundTrip
import TestDelegation.Proofs.Decoding.Values
import TestDelegation.Proofs.Decoding.Records
import TestDelegation.Proofs.Payload.Decoders
import TestDelegation.Proofs.Payload.Spelling
import TestDelegation.Proofs.Payload.Acceptance
import TestDelegation.Proofs.Payload.Encoding
import TestDelegation.Proofs.Codec.Likeness
import TestDelegation.Proofs.Codec.Agreement
import TestDelegation.Proofs.Codec.Decoding
import TestDelegation.Proofs.Codec.RoundTrip
import TestDelegation.Proofs.Repeats
import TestDelegation.Proofs.Outcome
import TestDelegation.Proofs.Outcome.Views
import TestDelegation.Proofs.Outcome.Partitions
import TestDelegation.Proofs.Codec.Kinds
import TestDelegation.Proofs.Codec.Outcomes
import TestDelegation.Proofs.Payload.Grammar
import TestDelegation.Proofs.Notification.Firing
import TestDelegation.Proofs.Notification.Stopping
import TestDelegation.Proofs.Runner.Stages
import TestDelegation.Proofs.Runner.Reports
import TestDelegation.Proofs.Notification.Accounting
import TestDelegation.Proofs.Settings
import TestDelegation.Proofs.Runner.Stopping
import TestDelegation.Proofs.Notification.Bookkeeping
import TestDelegation.Proofs.Runner.Execution
import TestDelegation.Proofs.Codec.ReportedMethods
import TestDelegation.Proofs.Codec.MethodMap
import TestDelegation.Proofs.Decoding.Positions
import TestDelegation.Proofs.Payload.Positions
import TestDelegation.Proofs.Codec.Withheld
import TestDelegation.Proofs.Payload.Depth
import TestDelegation.Proofs.Codec.NormalForm
import TestDelegation.Proofs.Report.Suites
import TestDelegation.Proofs.Report.Runs
import TestDelegation.Proofs.Codec.Fields
import TestDelegation.Proofs.Codec.Markers
import TestDelegation.Proofs.Toml.Entries
import TestDelegation.Proofs.CommandLine.Preparation
import TestDelegation.Proofs.Layers
import TestDelegation.Proofs.Files.Saving
import TestDelegation.Proofs.Report.Writing
import TestDelegation.Proofs.CommandLine.Verdict
import TestDelegation.Proofs.Text.Lines
import TestDelegation.Proofs.Report.Printed
import TestDelegation.Proofs.Json.Lines
import TestDelegation.Proofs.Report.JsonLines
import TestDelegation.Proofs.Report.Document
import TestDelegation.Proofs.Report.Elements
import TestDelegation.Proofs.Report.Histories
import TestDelegation.Proofs.ConfigErrors
import TestDelegation.Proofs.ClassName
import TestDelegation.Proofs.Json.Integers
import TestDelegation.Proofs.Payload.Counters
import TestDelegation.Proofs.Payload.Presence
import TestDelegation.Proofs.ErrorTrail
import TestDelegation.Proofs.Report.Causes
import TestDelegation.Proofs.ResourceUrl
import TestDelegation.Proofs.Response
