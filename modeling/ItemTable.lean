import ItemTable.Number.Layout
import ItemTable.Number.Lexeme
import ItemTable.Text.Blank
import ItemTable.Text.Base64
import ItemTable.Text.Quoted
import ItemTable.Instant.Iso
import ItemTable.Value.Text
import ItemTable.KeySchema
import ItemTable.Validation.Builtin
import ItemTable.Path
import ItemTable.Template
import ItemTable.Where
import ItemTable.Expression.Fragment
import ItemTable.Schema.Normalize
import ItemTable.Schema.Key
import ItemTable.Coercion.Write
import ItemTable.Coercion.Read
import ItemTable.Coercion.Defaults
import ItemTable.Validation.Document
import ItemTable.Validation.Presence
import ItemTable.Expression.Update
import ItemTable.Expression.Projection
import ItemTable.Request.Wire
import ItemTable.Table.Read
import ItemTable.Proofs.Expression.Printing
import ItemTable.Proofs.Outcome
import ItemTable.Proofs.Where.Compiled
import ItemTable.Proofs.Entries
import ItemTable.Proofs.Expression.Numbering
import ItemTable.Proofs.Expression.Meaning
import ItemTable.Proofs.Where.Filter
import ItemTable.Proofs.Expression.Occurrences
import ItemTable.Proofs.Expression.Assignments
import ItemTable.Proofs.Expression.Comparisons
import ItemTable.Proofs.Request.Closure
import ItemTable.Proofs.Request.Fragments
import ItemTable.Proofs.Expression.Allocation
import ItemTable.Proofs.Table.Placeholders
import ItemTable.Proofs.Table.Results
import ItemTable.Proofs.Coercion.Hooks
import ItemTable.Proofs.Schema.Levels
import ItemTable.Proofs.Schema.Normal
import ItemTable.Proofs.Coercion.Fill
import ItemTable.Proofs.Table.Keys
import ItemTable.Proofs.Table.Updates
import ItemTable.Proofs.Table.Queries
import ItemTable.Proofs.Table.KeyQueries
import ItemTable.Proofs.Table.Composites
import ItemTable.Proofs.Instant.Calendar
import ItemTable.Proofs.Instant.Iso
import ItemTable.Proofs.Instant.Stored
import ItemTable.Proofs.Schema.Nested
import ItemTable.Proofs.Validation.Missing
import ItemTable.Proofs.Coercion.Complete
import ItemTable.Proofs.Table.KeyVariables
import ItemTable.Proofs.Coercion.Inside
import ItemTable.Proofs.Coercion.Reading
import ItemTable.Proofs.Validation.Valid
import ItemTable.Proofs.Coercion.RoundTrip
import ItemTable.Proofs.Coercion.Distinct
import ItemTable.Proofs.Coercion.Readable
import ItemTable.Proofs.Coercion.Pipeline
import ItemTable.Proofs.Schema.WellFormed
import ItemTable.Proofs.Schema.Requirement
import ItemTable.Proofs.Schema.KeyFaults
import ItemTable.Proofs.Number
import ItemTable.Proofs.Instant.CalendarOrder
import ItemTable.Proofs.Instant.TextOrder
import ItemTable.Proofs.Expression.DateOrder
import ItemTable.Proofs.Schema.Cycles
import ItemTable.Proofs.Expression.Conjunction
import ItemTable.Proofs.Table.Guards
import ItemTable.Proofs.Location
import ItemTable.Proofs.ErrorPath
import ItemTable.Proofs.Schema.Places
import ItemTable.Proofs.Validation.Presence
import ItemTable.Proofs.Validation.Checks
import ItemTable.Proofs.Coercion.Extension
import ItemTable.Proofs.Coercion.Refill
import ItemTable.Proofs.Coercion.Overwrite
import ItemTable.Proofs.Coercion.Refresh
import ItemTable.Proofs.Where.Operators
import ItemTable.Proofs.Where.Grammar
import ItemTable.Proofs.Where.KeyFilter
import ItemTable.Proofs.Where.Outline
import ItemTable.Proofs.Table.CompleteKeys
import ItemTable.Proofs.Instant.Grammar
import ItemTable.Proofs.Coercion.Unreadable
import ItemTable.Proofs.Coercion.ReadResult
import ItemTable.Proofs.Validation.Bounds
import ItemTable.Proofs.Tokens
import ItemTable.Proofs.Expression.Scanning
import ItemTable.Proofs.Json.Reading
import ItemTable.Proofs.Json.Trees
import ItemTable.Proofs.Json.Values
import ItemTable.Proofs.Json.Records
import ItemTable.Proofs.Request.Wire
import ItemTable.Proofs.Schema.Walk
import ItemTable.Proofs.Validation.Walk
import ItemTable.Proofs.Coercion.Walks
import ItemTable.Proofs.Paths
