import Conform.Json.Reader
import Conform.Pattern.Meaning
import Conform.Proofs.Schema.AbsentEntries
import Conform.Proofs.Schema.Accumulation
import Conform.Proofs.Schema.KeyOrder
import Conform.Proofs.Schema.KindIssues
import Conform.Proofs.Schema.Locality
import Conform.Proofs.Schema.PathTranslation
import Conform.Proofs.Schema.Records
import Conform.Proofs.Schema.Revalidation
import Conform.Proofs.Schema.Serialisation
import Conform.Schema.Build
import Conform.Schema.Parse
import Conform.Schema.Shape
import Conform.Session
import Conform.Value.Json
import Conform.Value.Presence
import Conform.Proofs.Entries.Merge
import Conform.Proofs.Run.InTurn
import Conform.Proofs.Schema.Intersections
import Conform.Proofs.Schema.Unions
import Conform.Proofs.Schema.Objects
import Conform.Proofs.Validator.Coercion
import Conform.Proofs.Schema.Coercions
import Conform.Proofs.Calendar.Date
import Conform.Proofs.Calendar.Timestamp
import Conform.Proofs.Number.Shortest
import Conform.Proofs.Number.Style
import Conform.Proofs.Schema.Conversions
import Conform.Proofs.Schema.Steadiness
import Conform.Proofs.Schema.Selections
import Conform.Proofs.Schema.Extensions
import Conform.Proofs.Schema.Shapes
import Conform.Proofs.Schema.OpenObjects
import Conform.Proofs.Schema.Lists
import Conform.Proofs.Issue.Lists
import Conform.Proofs.Path.Display
import Conform.Proofs.Pattern.Language
import Conform.Proofs.Pattern.Standard
import Conform.Proofs.Schema.Formats
import Conform.Proofs.Schema.Constraints
import Conform.Schema.Members
import Conform.Schema.Nested
import Conform.Proofs.Schema.Members
import Conform.Proofs.Schema.Nested
