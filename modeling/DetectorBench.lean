import DetectorBench.Main
import DetectorBench.Program
import DetectorBench.CommandLine
import DetectorBench.CommandLine.Grammar
import DetectorBench.Command
import DetectorBench.Session
import DetectorBench.Report
import DetectorBench.Disk.FileTree
import DetectorBench.Manifest.Compiler
import DetectorBench.Disk.Path
import DetectorBench.Disk
import DetectorBench.Manifest.Check
import DetectorBench.Manifest.Image
import DetectorBench.Manifest
import DetectorBench.Routine.Builtin
import DetectorBench.Routine
import DetectorBench.Host
import DetectorBench.Stage
import DetectorBench.Compiler
import DetectorBench.Settings
import DetectorBench.Artifact
import DetectorBench.Output
import DetectorBench.Attribute
import DetectorBench.Metadata
import DetectorBench.Failure
import DetectorBench.SourceUnit
import DetectorBench.Diagnostic
import DetectorBench.Record.Fields
import DetectorBench.Record.Choice
import DetectorBench.Record.Codec
import DetectorBench.Json.Reader
import DetectorBench.Proofs.Text.Lines
import DetectorBench.Proofs.Text.Trimming
import DetectorBench.Proofs.Json.Grammar
import DetectorBench.Proofs.Json.Written
import DetectorBench.Proofs.Json.Reading
import DetectorBench.Proofs.Json.Skipping
import DetectorBench.Proofs.Json.Values
import DetectorBench.Proofs.Json.Causes
import DetectorBench.Proofs.Record.Following
import DetectorBench.Proofs.Record.RoundTrip
import DetectorBench.Proofs.Record.Members
import DetectorBench.Proofs.Record.Shapes
import DetectorBench.Proofs.Record.Choices
import DetectorBench.Proofs.Record.Tagged
import DetectorBench.Proofs.Record.Boundary
import DetectorBench.Proofs.Record.Causes
import DetectorBench.Proofs.Artifact.Base64
import DetectorBench.Proofs.Metadata.Validation
import DetectorBench.Proofs.Metadata.Precedence
import DetectorBench.Proofs.Metadata.Folding
import DetectorBench.Proofs.Host.Pass
import DetectorBench.Proofs.Host.Run
import DetectorBench.Proofs.Host.Readiness
import DetectorBench.Proofs.Host.Export
import DetectorBench.Proofs.Host.Independence
import DetectorBench.Proofs.Manifest.Compilation
import DetectorBench.Proofs.Manifest.RoundTrip
import DetectorBench.Proofs.Manifest.Reload
import DetectorBench.Proofs.Manifest.Checking
import DetectorBench.Proofs.Manifest.Outcome
import DetectorBench.Proofs.Manifest.Grammar
import DetectorBench.Proofs.Manifest.Remarks
import DetectorBench.Proofs.Manifest.Calling
import DetectorBench.Proofs.Manifest.Saving
import DetectorBench.Proofs.Manifest.Wording
import DetectorBench.Proofs.Manifest.Complaints
import DetectorBench.Proofs.Report.RoundTrip
import DetectorBench.Proofs.Disk.Writing
import DetectorBench.Proofs.Disk.Directories
import DetectorBench.Proofs.Session.Opening
import DetectorBench.Proofs.Command.Agreement
import DetectorBench.Proofs.Command.Exchange
import DetectorBench.Proofs.Artifact.Naming
import DetectorBench.Proofs.Manifest.FileName
import DetectorBench.Proofs.Record.Makeup
import DetectorBench.Proofs.Json.Places
import DetectorBench.Proofs.Record.Places
import DetectorBench.Proofs.Manifest.Locating
import DetectorBench.Proofs.Json.Filling
import DetectorBench.Proofs.Record.Filling
import DetectorBench.Proofs.Manifest.Readers
import DetectorBench.Proofs.Steps
import DetectorBench.Proofs.Artifact.Canonical
import DetectorBench.Proofs.Environment.Names
import DetectorBench.Proofs.Session.Lists
import DetectorBench.Proofs.Json.Canonical
import DetectorBench.Proofs.Record.Canonical
import DetectorBench.Proofs.Report.Recovery
import DetectorBench.Proofs.Json.Sound
import DetectorBench.Proofs.Command.Arguments
import DetectorBench.Proofs.Diagnostic.Rendering
import DetectorBench.Proofs.Host.Diagnosis
