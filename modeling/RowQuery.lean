import RowQuery.Text.Quoted
import RowQuery.Text.Caseless
import RowQuery.Text.Blank
import RowQuery.Text.Occurrence
import RowQuery.Text.Integer
import RowQuery.Binary64.Rounding
import RowQuery.Binary64.Layout
import RowQuery.Instant.Rfc3339
import RowQuery.Value.Order
import RowQuery.Json.Numeral
import RowQuery.Json.Text
import RowQuery.Json.Doc
import RowQuery.Json.Reader
import RowQuery.Reading
import RowQuery.Expr
import RowQuery.Trace
import RowQuery.Config
import RowQuery.Defaults
import RowQuery.Query
import RowQuery.Request.Text
import RowQuery.Schema.Column
import RowQuery.Proofs.Preorder
import RowQuery.Proofs.Binary64.Monotone
import RowQuery.Proofs.Outcome
import RowQuery.Proofs.Schema.Lookup
import RowQuery.Proofs.Registry.Lookup
import RowQuery.Proofs.Value.SortOrder
import RowQuery.Proofs.Value.AcrossKinds
import RowQuery.Proofs.Value.CellOrder
import RowQuery.Proofs.Value.Comparison
import RowQuery.Proofs.Expr.Truth
import RowQuery.Proofs.Expr.Coherence
import RowQuery.Proofs.Operator
import RowQuery.Proofs.Filter.Leaf
import RowQuery.Proofs.Filter.Meaning
import RowQuery.Proofs.Filter.Inheritance
import RowQuery.Proofs.Filter.Leaves
import RowQuery.Proofs.OrderStep
import RowQuery.Proofs.Query.SortRows
import RowQuery.Proofs.Query.AnySorting
import RowQuery.Proofs.Query.Plan
import RowQuery.Proofs.Query.Eager
import RowQuery.Proofs.Expr.Strict
import RowQuery.Proofs.Filter.Decided
import RowQuery.Proofs.Filter.Guard
import RowQuery.Proofs.Filter.Acceptance
import RowQuery.Proofs.Filter.Duality
import RowQuery.Proofs.Json.Numeral
import RowQuery.Proofs.Json.Text
import RowQuery.Proofs.Json.Written
import RowQuery.Proofs.Json.Record
import RowQuery.Proofs.Json.Scalar
import RowQuery.Proofs.Json.Numbers
import RowQuery.Proofs.Json.Values
import RowQuery.Proofs.Text.Integer
import RowQuery.Proofs.Reading
import RowQuery.Proofs.Reading.Disciplines
import RowQuery.Proofs.Reading.Variants
import RowQuery.Proofs.Filter.JsonLeaf
import RowQuery.Proofs.Filter.Stepwise
import RowQuery.Proofs.Filter.Trichotomy
import RowQuery.Proofs.Filter.Membership
import RowQuery.Proofs.Request.Parts
import RowQuery.Proofs.Request.SortKeys
import RowQuery.Proofs.Request.Ordering
import RowQuery.Proofs.Request.Compose
import RowQuery.Proofs.Request.Paging
import RowQuery.Proofs.Request.PlainKeys
import RowQuery.Proofs.Request.Agreement
import RowQuery.Proofs.Request.RoundTrip
import RowQuery.Proofs.Request.Payload
import RowQuery.Proofs.Request.Shape
import RowQuery.Proofs.Query.Blocks
import RowQuery.Proofs.Request.Conversion
import RowQuery.Proofs.Schema.Recasing
import RowQuery.Proofs.Schema.Catalogue
import RowQuery.Proofs.Defaults.Writes
import RowQuery.Proofs.Defaults.Process
import RowQuery.Proofs.Defaults.Interleaving
