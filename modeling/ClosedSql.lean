import ClosedSql.Calendar.Date
import ClosedSql.Calendar.Instant
import ClosedSql.Calendar.Reading
import ClosedSql.Column.Binding
import ClosedSql.Column.Datum
import ClosedSql.Column.Kind
import ClosedSql.Column.Reading
import ClosedSql.Config
import ClosedSql.Config.Document
import ClosedSql.Database
import ClosedSql.Dialect
import ClosedSql.Error
import ClosedSql.Filter
import ClosedSql.Json.Document
import ClosedSql.Json.Number
import ClosedSql.Json.Token
import ClosedSql.Json.Value
import ClosedSql.Memory
import ClosedSql.NameMap
import ClosedSql.NameMap.Lookup
import ClosedSql.Number.Binary64
import ClosedSql.Number.Decimal
import ClosedSql.Number.Integer
import ClosedSql.Number.FloatStyle
import ClosedSql.Number.Reading
import ClosedSql.Number.Rounding
import ClosedSql.Number.Shortest
import ClosedSql.Record
import ClosedSql.Request
import ClosedSql.RowSet
import ClosedSql.Server
import ClosedSql.Sql.Query
import ClosedSql.Statement.Bound
import ClosedSql.Statement.Form
import ClosedSql.Statement.Parser
import ClosedSql.Statement.Token
import ClosedSql.Text.Blank
import ClosedSql.Text.Case
import ClosedSql.Text.Hex
import ClosedSql.Text.Quoted
import ClosedSql.Text.Uuid
import ClosedSql.Text.Visible
import ClosedSql.Text.Word
import ClosedSql.Toml.Document
import ClosedSql.Toml.Quoted
import ClosedSql.Toml.Scalar
import ClosedSql.Toml.Tree
import ClosedSql.Value
import ClosedSql.Proofs.Statement.Clauses
import ClosedSql.Proofs.Statement.Recognition
import ClosedSql.Proofs.Dialect.Respelling
import ClosedSql.Proofs.Dialect.Idempotence
import ClosedSql.Proofs.Dialect.Untouched
import ClosedSql.Proofs.Dialect.Quoting
import ClosedSql.Proofs.Statement.Print
import ClosedSql.Proofs.Statement.RoundTrip
import ClosedSql.Proofs.Database.MutationSafety
import ClosedSql.Proofs.Sql.Outline
import ClosedSql.Proofs.Statement.Slots
import ClosedSql.Proofs.Statement.Spacing
import ClosedSql.Proofs.Sql.Pairing
import ClosedSql.Proofs.Database.Agreement
import ClosedSql.Proofs.Memory.Counter
import ClosedSql.Proofs.Memory.FreshIds
import ClosedSql.Proofs.Memory.Failures
import ClosedSql.Proofs.Memory.IdHistory
import ClosedSql.Proofs.Database.OneRequest
import ClosedSql.Proofs.Database.RowChanges
import ClosedSql.Proofs.Dialect.Literal
import ClosedSql.Proofs.Statement.Comparison
import ClosedSql.Proofs.Database.Literals
import ClosedSql.Proofs.Dialect.Guides
import ClosedSql.Proofs.Statement.Reordering
import ClosedSql.Proofs.Database.Admission
import ClosedSql.Proofs.Database.Policy
import ClosedSql.Proofs.Statement.Parameters
import ClosedSql.Proofs.Sql.Atoms
import ClosedSql.Proofs.Sql.Lossless
import ClosedSql.Proofs.Memory.Selection
import ClosedSql.Proofs.Database.RowById
import ClosedSql.Proofs.Statement.Counts
import ClosedSql.Proofs.Database.Counts
import ClosedSql.Proofs.Database.Rejection
import ClosedSql.Proofs.Memory.Repetition
import ClosedSql.Proofs.Database.Fetching
import ClosedSql.Proofs.Token.Printing
import ClosedSql.Proofs.Statement.Modifiers
import ClosedSql.Proofs.Column.Integers
import ClosedSql.Proofs.Column.Scalars
import ClosedSql.Proofs.Column.Moments
import ClosedSql.Proofs.Column.Documents
import ClosedSql.Proofs.Memory.Resolution
import ClosedSql.Proofs.Database.Heads
import ClosedSql.Proofs.Database.Columns
import ClosedSql.Proofs.Value.Transitivity
import ClosedSql.Proofs.Value.Mirroring
