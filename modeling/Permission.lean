import Permission.NameMap
import Permission.Decimal.Layout
import Permission.Text.Quoted
import Permission.Identifier
import Permission.Resource
import Permission.Json
import Permission.Json.Outline
import Permission.Json.Shape
import Permission.Json.Reading
import Permission.Conditions.Check
import Permission.Conditions.Document
import Permission.Conditions.Compile
import Permission.Store.Collection
import Permission.Query
import Permission.Settings.Reading
import Permission.Proofs.Conditions.FailedCheck
import Permission.Proofs.Enforcement.Listing
import Permission.Proofs.Enforcement.SingleRecords
import Permission.Proofs.Elementwise
import Permission.Proofs.Value.Written
import Permission.Proofs.Conditions.Written
import Permission.Proofs.Binary64.Nearest
import Permission.Proofs.Value.Read
import Permission.Proofs.Conditions.Read
import Permission.Proofs.Filter.Congruence
import Permission.Proofs.Conditions.Indiscernible
import Permission.Proofs.Enforcement.Denial
import Permission.Proofs.Rule.Winner
import Permission.Proofs.Enforcement.Unmentioned
import Permission.Proofs.Value.Order
import Permission.Proofs.Conditions.Order
import Permission.Proofs.Json.Equality
import Permission.Proofs.Filter.Document
import Permission.Proofs.Json.Tree
import Permission.Proofs.Json.Reading
import Permission.Proofs.Settings.Saved
import Permission.Proofs.Json.Text.Numbers
import Permission.Proofs.Json.Text.Strings
import Permission.Proofs.Json.Text.Written
import Permission.Proofs.Json.Text.Floats
import Permission.Proofs.Settings.Reloaded
import Permission.Proofs.Binary64.Truncation
import Permission.Proofs.Value.Size
import Permission.Proofs.Conditions.Obstacle
import Permission.Proofs.Filter.Shape
import Permission.Proofs.Conditions.Grammar
import Permission.Proofs.Value.Equality
import Permission.Proofs.Value.Comparison
import Permission.Proofs.Conditions.Interval
import Permission.Proofs.Conditions.Meaning
import Permission.Proofs.Conditions.Union
import Permission.Proofs.Enforcement.Errors
import Permission.Proofs.Filter.Merging
import Permission.Proofs.Store.Selection
import Permission.Proofs.Store.Lookup
