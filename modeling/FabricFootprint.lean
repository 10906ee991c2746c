import FabricFootprint.Main
import FabricFootprint.Proofs.Validation
import FabricFootprint.Proofs.Assembly.Refinement
import FabricFootprint.Proofs.Process.ServiceTypes
import FabricFootprint.Proofs.Diff.Comparison
import FabricFootprint.Proofs.Extraction.Provenance
import FabricFootprint.Proofs.Rule.Written
import FabricFootprint.Proofs.Assembly.Diagnostics
import FabricFootprint.Proofs.Extraction.Agreement
import FabricFootprint.Proofs.Diff.Passes
import FabricFootprint.Proofs.Extraction.Captures
import FabricFootprint.Proofs.Extraction.SplitJoin
import FabricFootprint.Proofs.Json.Lexemes
import FabricFootprint.Proofs.Document.Node
import FabricFootprint.Proofs.Json.RoundTrip
import FabricFootprint.Proofs.Binary64.Nearest
import FabricFootprint.Proofs.Document.Reports
import FabricFootprint.Proofs.Json.Scalar
import FabricFootprint.Proofs.Document.ReportFiles
import FabricFootprint.Proofs.Binary64.Neighbours
import FabricFootprint.Proofs.Binary64.Shortest
import FabricFootprint.Proofs.Value.Text
import FabricFootprint.Proofs.Extraction.Suffixes
import FabricFootprint.Proofs.Diff.Patch
import FabricFootprint.Proofs.Diff.Misalignment
import FabricFootprint.Proofs.Extraction.Grouping
import FabricFootprint.Proofs.Extraction.Exchange
import FabricFootprint.Proofs.Extraction.MatchStep
import FabricFootprint.Proofs.Service.Requirements
import FabricFootprint.Proofs.Process.MissingData
import FabricFootprint.Proofs.Classification.Choice
import FabricFootprint.Proofs.Classification.Monotone
import FabricFootprint.Proofs.Footprint.Selection
import FabricFootprint.Proofs.Binary64.Exact
import FabricFootprint.Proofs.Conversion.Whole
import FabricFootprint.Proofs.Conversion.Spelled
import FabricFootprint.Proofs.Extraction.Idle
import FabricFootprint.Proofs.Extraction.Reports
import FabricFootprint.Proofs.EventLog
import FabricFootprint.Proofs.Process.Story
import FabricFootprint.Proofs.Extraction.CaptureHistory
import FabricFootprint.Proofs.Extraction.RowMajor
import FabricFootprint.Proofs.Document.ServiceFiles
