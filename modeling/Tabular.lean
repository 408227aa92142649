import Tabular.Text.Basic
import Tabular.Text.Letter
import Tabular.Text.Printable
import Tabular.Text.Utf8
import Tabular.Binary64.Arithmetic
import Tabular.Decimal.Numeral
import Tabular.Decimal.Layout
import Tabular.Json.Reader
import Tabular.Json.Writer
import Tabular.Storage
import Tabular.Token.Lexer
import Tabular.FieldPredicate
import Tabular.Aggregate.Apply
import Tabular.Database
import Tabular.Query.Build
import Tabular.Query.Evaluate
import Tabular.Proofs.Table.Lookup
import Tabular.Proofs.Table.Generated
import Tabular.Proofs.Table.NotNull
import Tabular.Proofs.Query.Select
import Tabular.Proofs.Query.Inserted
import Tabular.Proofs.Query.KeyLookup
import Tabular.Proofs.Query.Chain
import Tabular.Proofs.Table.Chosen
import Tabular.Proofs.Table.Classes
import Tabular.Proofs.Query.Combined
import Tabular.Proofs.Database.Names
import Tabular.Proofs.Written
import Tabular.Proofs.Query.Reordered
import Tabular.Proofs.Aggregate.Sum
import Tabular.Proofs.Query.Like
import Tabular.Proofs.Numeral
import Tabular.Proofs.Table.KeyCell
import Tabular.Proofs.Table.NullKey
import Tabular.Proofs.Query.Count
import Tabular.Proofs.Query.Negation
import Tabular.Proofs.Query.Expansion
import Tabular.Proofs.Query.Extreme
import Tabular.Proofs.Table.Batch
import Tabular.Proofs.Query.Subquery
import Tabular.Proofs.Rebuild
import Tabular.Proofs.Query.Checked
import Tabular.Proofs.Document
import Tabular.Proofs.Comparand
import Tabular.Proofs.Query.Arithmetic
import Tabular.Proofs.Query.Records
import Tabular.Proofs.Table.Schema
import Tabular.Proofs.Aggregate.Call
import Tabular.Proofs.Query.Comparable
import Tabular.Proofs.Cursor
import Tabular.Proofs.Query.CommonLength
import Tabular.Proofs.Query.StableSort
