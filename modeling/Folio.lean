import Folio.Text.Blank
import Folio.Text.Quoted
import Folio.Numeral
import Folio.Json.Printer
import Folio.Html
import Folio.Json.Scalar
import Folio.Json.Skip
import Folio.Json.Schema
import Folio.Json.Schema.Reader
import Folio.Query.Parameters
import Folio.Query.Result
import Folio.RateWindow
import Folio.Config
import Folio.Cache.Session
import Folio.Template.Render
import Folio.Database.Fault
import Folio.Database.Url
import Folio.Database.Stored
import Folio.Database.Rows
import Folio.Folder
import Folio.Command.EnvFile
import Folio.Command.Run
import Folio.Main
import Folio.Proofs.Query.Clean
import Folio.Proofs.Query.Placeholders
import Folio.Proofs.Query.Operands
import Folio.Proofs.Query.Grammar
import Folio.Proofs.Query.Meaning
import Folio.Proofs.Json.NumberText
import Folio.Proofs.Template.Markup
import Folio.Proofs.Template.Meaning
import Folio.Proofs.Cache.Log
import Folio.Proofs.Query.Plain
import Folio.Proofs.Query.Account
import Folio.Proofs.Template.Calls
import Folio.Proofs.Json.Shape
import Folio.Proofs.Query.RoundTrip
import Folio.Proofs.Query.Limit
import Folio.Proofs.Json.Steps
import Folio.Proofs.Json.WellFormed
import Folio.Proofs.Json.ScalarText
import Folio.Proofs.Json.Written
import Folio.Proofs.Query.QueryString
import Folio.Proofs.Template.Places
import Folio.Proofs.Template.Verbatim
import Folio.Proofs.Query.Redacted
import Folio.Proofs.Query.Literals
import Folio.Proofs.Query.Parsable
import Folio.Proofs.RateWindow.Run
import Folio.Proofs.RateWindow.Arrival
import Folio.Proofs.Cache.Room
import Folio.Proofs.Cache.Lifetime
import Folio.Proofs.Decimal.Written
import Folio.Proofs.Decimal.Shortest
import Folio.Proofs.Json.Apart
import Folio.Proofs.Query.Key
import Folio.Proofs.Cache.Invalidation
import Folio.Proofs.Cache.Loading
import Folio.Proofs.Template.Stability
import Folio.Proofs.Template.HelperCalls
import Folio.Proofs.Template.Contexts
import Folio.Proofs.Query.Skipping
import Folio.Proofs.Query.Search
import Folio.Proofs.Text.Trimmed
import Folio.Proofs.Json.Members
import Folio.Proofs.Html.Escaping
import Folio.Proofs.Html.Sanitizing
import Folio.Proofs.Query.Listing
import Folio.Proofs.Decimal.Nearest
import Folio.Proofs.Database.Integers
import Folio.Proofs.Config.Acceptance
import Folio.Proofs.Text.Lenient
import Folio.Proofs.Template.Cursors
