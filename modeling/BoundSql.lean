import BoundSql.Fault
import BoundSql.Placeholder
import BoundSql.Decimal.Notation
import BoundSql.Decimal.Reading
import BoundSql.Text.Blank
import BoundSql.KeyedList
import BoundSql.Json.Doc
import BoundSql.Json.Decode
import BoundSql.Value.Json
import BoundSql.Criterion.Json
import BoundSql.Where
import BoundSql.Toml.Document
import BoundSql.Policy.Toml
import BoundSql.Policy.Json
import BoundSql.Registry.Json
import BoundSql.Builder.Basic
import BoundSql.Log.Settings
import BoundSql.Proofs.Naming
import BoundSql.Proofs.Outline
import BoundSql.Proofs.Rendering
import BoundSql.Proofs.Connective
import BoundSql.Proofs.Literal
import BoundSql.Proofs.Secrecy
import BoundSql.Proofs.ClauseReading
import BoundSql.Proofs.Recording
import BoundSql.Proofs.StatementReading
import BoundSql.Proofs.Agreement
import BoundSql.Proofs.Overhearing
import BoundSql.Proofs.Collision
import BoundSql.Proofs.Batch
import BoundSql.Proofs.FirstFault
import BoundSql.Proofs.ReadingOrder
import BoundSql.Proofs.Figures
import BoundSql.Proofs.RoundTrip
import BoundSql.Proofs.Quoting
import BoundSql.Proofs.Confinement
import BoundSql.Proofs.Debugging
import BoundSql.Proofs.OneColumn
import BoundSql.Proofs.PlainColumns
import BoundSql.Proofs.ValueReading
import BoundSql.Proofs.FieldOrder
import BoundSql.Proofs.RegistryRun
import BoundSql.Proofs.RegistryReading
import BoundSql.Proofs.GroupKeys
import BoundSql.Proofs.Extension
import BoundSql.Proofs.Rebinding
import BoundSql.Proofs.Identifiers
import BoundSql.Proofs.Arity
import BoundSql.Proofs.OneRow
import BoundSql.Proofs.TomlText
import BoundSql.Proofs.WrittenPolicy
import BoundSql.Proofs.Conditions
import BoundSql.Proofs.History
import BoundSql.Proofs.Logging
