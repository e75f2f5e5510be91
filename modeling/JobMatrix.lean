import JobMatrix.Text.Word
import JobMatrix.Text.Quoted
import JobMatrix.Text.Utf8
import JobMatrix.Text.Percent
import JobMatrix.Number.Decimal
import JobMatrix.Calendar
import JobMatrix.Json
import JobMatrix.Digest
import JobMatrix.Text.Lower
import JobMatrix.Platform
import JobMatrix.Failure
import JobMatrix.JobBuilder
import JobMatrix.Plan
import JobMatrix.Revision
import JobMatrix.Yaml.Token.Stream
import JobMatrix.Yaml.Event
import JobMatrix.Yaml.Scalar
import JobMatrix.Yaml.Document
import JobMatrix.Form.Check
import JobMatrix.Load
import JobMatrix.Command.Report
import JobMatrix.Main
import JobMatrix.Json.Read
import JobMatrix.Proofs.Outcome
import JobMatrix.Proofs.Text.Utf8
import JobMatrix.Proofs.Text.Bytes
import JobMatrix.Proofs.Text.Percent
import JobMatrix.Proofs.CacheKey.Reading
import JobMatrix.Proofs.Placeholder.Shape
import JobMatrix.Proofs.Placeholder.Splitting
import JobMatrix.Proofs.Placeholder.Concatenation
import JobMatrix.Proofs.Construction
import JobMatrix.Proofs.Expansion
import JobMatrix.Proofs.CacheKey.Payload
import JobMatrix.Proofs.Distinct
import JobMatrix.Proofs.CacheKey.Scopes
import JobMatrix.Proofs.Json.Members
import JobMatrix.Proofs.Command.ReportedKeys
import JobMatrix.Proofs.Entries
import JobMatrix.Proofs.Form.Shape
import JobMatrix.Proofs.Form.Steps
import JobMatrix.Proofs.Form.Declared
import JobMatrix.Proofs.CacheKey.StepKey
import JobMatrix.Proofs.Yaml.Duplicates
import JobMatrix.Proofs.Building
import JobMatrix.Proofs.Workflow.Checks
import JobMatrix.Proofs.Workflow.Scripts
import JobMatrix.Proofs.Workflow.Validity
import JobMatrix.Proofs.Workflow.Widening
import JobMatrix.Proofs.CacheKey.Agreement
import JobMatrix.Proofs.Form.Failures
import JobMatrix.Proofs.Matrix.Conversion
import JobMatrix.Proofs.Matrix.Acceptance
import JobMatrix.Proofs.Form.Axes
import JobMatrix.Proofs.Placeholder.Variables
import JobMatrix.Proofs.CacheKey.Existence
import JobMatrix.Proofs.Workflow.Typed
import JobMatrix.Proofs.Command.Arguments
import JobMatrix.Proofs.Command.Counts
import JobMatrix.Proofs.Command.Endings
import JobMatrix.Proofs.Files.Writing
import JobMatrix.Proofs.Files.Resolving
import JobMatrix.Proofs.Files.Documents
import JobMatrix.Proofs.Command.WrittenPlan
import JobMatrix.Proofs.Command.Finding
import JobMatrix.Proofs.Json.Serialisable
import JobMatrix.Proofs.Json.Plans
import JobMatrix.Json.Exchange
import JobMatrix.Proofs.Number.Digits
import JobMatrix.Proofs.Number.Rounding
import JobMatrix.Proofs.Number.Shortest
import JobMatrix.Proofs.Number.Layout
import JobMatrix.Proofs.Json.Strings
import JobMatrix.Proofs.Json.Reading
import JobMatrix.Proofs.Json.Exchange
import JobMatrix.Proofs.Json.Recovery
import JobMatrix.Proofs.Form.Paths
import JobMatrix.Proofs.Placeholder.Scoping
import JobMatrix.Proofs.Command.Slices
import JobMatrix.Proofs.Workflow.Calls
