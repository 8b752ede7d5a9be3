import SearchQuery.Expr.Basic
import SearchQuery.Expr.Build
import SearchQuery.Expr.Json
import SearchQuery.Expr.Prune
import SearchQuery.Expr.Render
import SearchQuery.Expr.WellFormed
import SearchQuery.Json.Depth
import SearchQuery.Json.Document
import SearchQuery.Json.Parse
import SearchQuery.Json.Reading
import SearchQuery.Json.Token
import SearchQuery.Log
import SearchQuery.Number.Binary
import SearchQuery.Number.Integer
import SearchQuery.Number.Nearest
import SearchQuery.Number.Numeral
import SearchQuery.Number.Shortest
import SearchQuery.Number.Written
import SearchQuery.Range.Basic
import SearchQuery.Range.Json
import SearchQuery.Recipe
import SearchQuery.Request.Basic
import SearchQuery.Request.History
import SearchQuery.Request.Json
import SearchQuery.Text.Balance
import SearchQuery.Text.Basic
import SearchQuery.Text.Data
import SearchQuery.Time.Calendar
import SearchQuery.Time.Instant
import SearchQuery.Time.Stamp
import SearchQuery.Proofs.Pruning
import SearchQuery.Proofs.Replacement
import SearchQuery.Proofs.Clean
import SearchQuery.Proofs.Equality
import SearchQuery.Proofs.Escape
import SearchQuery.Proofs.Balance
import SearchQuery.Proofs.QueryReader
import SearchQuery.Proofs.Checks
import SearchQuery.Proofs.Json.Record
import SearchQuery.Proofs.Json.Scan
import SearchQuery.Proofs.Json.Text
import SearchQuery.Proofs.Number.Rounding
import SearchQuery.Proofs.Number.Shortest
import SearchQuery.Proofs.Number.Written
import SearchQuery.Proofs.Reachable
import SearchQuery.Proofs.Number.Widening
import SearchQuery.Proofs.Request.Parameters
import SearchQuery.Proofs.Request.Spelling
import SearchQuery.Proofs.RoundTrip
import SearchQuery.Proofs.Scalar
import SearchQuery.Proofs.WordCount
import SearchQuery.Proofs.Time.Text
import SearchQuery.Proofs.Construction
