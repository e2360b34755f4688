import Tabular.Buffer.Basic
import Tabular.Buffer.Edit
import Tabular.Case.Codec
import Tabular.Case.Run
import Tabular.Cell.Basic
import Tabular.Cell.Kind
import Tabular.Cell.Lifted
import Tabular.Column.Basic
import Tabular.Column.Inference
import Tabular.Error
import Tabular.Expr.Basic
import Tabular.Expr.Select
import Tabular.Expr.Text
import Tabular.Fixture
import Tabular.Frame.Basic
import Tabular.Frame.Build
import Tabular.Frame.Edit
import Tabular.Frame.Rows
import Tabular.Group.Aggregate
import Tabular.Group.Index
import Tabular.Heap
import Tabular.Join
import Tabular.Json.Basic
import Tabular.Json.Codec
import Tabular.Json.Decode
import Tabular.Json.Literal
import Tabular.Json.Reader
import Tabular.Json.Token
import Tabular.Number.Binary32
import Tabular.Number.Binary64
import Tabular.Number.Format
import Tabular.Number.Shortest
import Tabular.Proofs.Absence
import Tabular.Proofs.Buffer
import Tabular.Proofs.BufferRuns
import Tabular.Proofs.Builds
import Tabular.Proofs.Capacities
import Tabular.Proofs.CaseFiles
import Tabular.Proofs.Coherence
import Tabular.Proofs.Comparisons
import Tabular.Proofs.Contents
import Tabular.Proofs.CopiedChanges
import Tabular.Proofs.Copies
import Tabular.Proofs.Derivation
import Tabular.Proofs.Distinct
import Tabular.Proofs.Edits
import Tabular.Proofs.Except
import Tabular.Proofs.Extremes
import Tabular.Proofs.Fixtures
import Tabular.Proofs.Gather
import Tabular.Proofs.Groups
import Tabular.Proofs.Heap
import Tabular.Proofs.Inference
import Tabular.Proofs.InferredColumns
import Tabular.Proofs.IntegerWords
import Tabular.Proofs.Isolation
import Tabular.Proofs.JoinBack
import Tabular.Proofs.Joins
import Tabular.Proofs.JsonNumbers
import Tabular.Proofs.JsonParts
import Tabular.Proofs.KeyEquality
import Tabular.Proofs.Lifting
import Tabular.Proofs.Merging
import Tabular.Proofs.Offsets
import Tabular.Proofs.Partition
import Tabular.Proofs.Places
import Tabular.Proofs.Retention
import Tabular.Proofs.RollUp
import Tabular.Proofs.RowEdits
import Tabular.Proofs.RowInsertions
import Tabular.Proofs.RowLists
import Tabular.Proofs.RowOrder
import Tabular.Proofs.RowSnapshots
import Tabular.Proofs.Rows
import Tabular.Proofs.ScalarOrder
import Tabular.Proofs.Selections
import Tabular.Proofs.Series
import Tabular.Proofs.Sharing
import Tabular.Proofs.SideBySide
import Tabular.Proofs.Slots
import Tabular.Proofs.Sorting
import Tabular.Proofs.Stacking
import Tabular.Proofs.Stamps
import Tabular.Proofs.SuccessiveSorts
import Tabular.Proofs.Summaries
import Tabular.Proofs.Summation
import Tabular.Proofs.Tallies
import Tabular.Proofs.Windows
import Tabular.Scalar.Arithmetic
import Tabular.Scalar.Basic
import Tabular.Scalar.Operator
import Tabular.Series.Basic
import Tabular.Series.Reduction
import Tabular.Series.Session
import Tabular.Text.Quoted
import Tabular.Workspace
