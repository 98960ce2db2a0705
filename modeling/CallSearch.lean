import CallSearch.AgentSearch
import CallSearch.Anomaly.Percentile
import CallSearch.Anomaly.Signals
import CallSearch.Anomaly.Threshold
import CallSearch.Calendar.Date
import CallSearch.Calendar.Iso
import CallSearch.Calendar.Timestamp
import CallSearch.Catalog.Build
import CallSearch.Catalog.Cache
import CallSearch.Catalog.Field
import CallSearch.CommandLine.Arguments
import CallSearch.CommandLine.Commands
import CallSearch.Compile.Query
import CallSearch.Compile.Rule
import CallSearch.Compile.Value
import CallSearch.Configuration
import CallSearch.Document.Numeral
import CallSearch.Document.Reading
import CallSearch.Document.Scalar
import CallSearch.Document.Time
import CallSearch.Double.Basic
import CallSearch.Double.Decimal
import CallSearch.Double.Reader
import CallSearch.Filter.Column
import CallSearch.Filter.Document
import CallSearch.Filter.Edit
import CallSearch.Filter.Group
import CallSearch.Filter.Rule
import CallSearch.Identity
import CallSearch.Json.Basic
import CallSearch.Json.Kind
import CallSearch.Json.Printer
import CallSearch.Json.Same
import CallSearch.Json.Shown
import CallSearch.Main
import CallSearch.Number
import CallSearch.Paging.Event
import CallSearch.Paging.Loading
import CallSearch.Paging.Pager
import CallSearch.Predicate.Basic
import CallSearch.Predicate.Document
import CallSearch.Predicate.Expression
import CallSearch.Predicate.Sort
import CallSearch.Search.Parse
import CallSearch.Search.Query
import CallSearch.Search.Render
import CallSearch.Search.Suggest
import CallSearch.Search.Term
import CallSearch.Search.Token
import CallSearch.Store.Call
import CallSearch.Store.Cell
import CallSearch.Store.Column
import CallSearch.Store.Insert
import CallSearch.Store.Listing
import CallSearch.Store.Pattern
import CallSearch.Store.Session
import CallSearch.Store.Source
import CallSearch.Store.Tables
import CallSearch.Store.Test
import CallSearch.Text.Blank
import CallSearch.Text.Digit
import CallSearch.Text.Lowercase
import CallSearch.Text.Printable
import CallSearch.Text.Quoted
import CallSearch.TimedCache
import CallSearch.View.SavedView
import CallSearch.View.Table
import CallSearch.Proofs.Paging.Listing
import CallSearch.Proofs.Paging.Discipline
import CallSearch.Proofs.Number
import CallSearch.Proofs.Store.Order
import CallSearch.Proofs.Store.Owner
import CallSearch.Proofs.Store.Insert
import CallSearch.Proofs.AgentSearch
import CallSearch.Proofs.Calendar
import CallSearch.Proofs.Compile.Value
import CallSearch.Proofs.Compile.RelativeDay
import CallSearch.Proofs.Compile.Rule
import CallSearch.Proofs.Compile.Check
import CallSearch.Proofs.Store.Match
import CallSearch.Proofs.Store.Pages
import CallSearch.Proofs.Store.Pattern
import CallSearch.Proofs.Calendar.Stored
import CallSearch.Proofs.Calendar.Written
import CallSearch.Proofs.Store.Started
import CallSearch.Proofs.Store.Run
import CallSearch.Proofs.Compile.Day
import CallSearch.Proofs.Compile.Duplicate
import CallSearch.Proofs.Compile.MemberText
import CallSearch.Proofs.Compile.MemberNumber
import CallSearch.Proofs.Compile.Narrowing
import CallSearch.Proofs.Search.Token
import CallSearch.Proofs.Calendar.Order
import CallSearch.Proofs.Search.Render
import CallSearch.Proofs.Search.Phrase
import CallSearch.Proofs.Anomaly.Tail
import CallSearch.Proofs.Anomaly.Charge
import CallSearch.Proofs.Store.Member
import CallSearch.Proofs.Filter.Document
import CallSearch.Proofs.Filter.Session
import CallSearch.Proofs.Filter.Shape
import CallSearch.Proofs.Identity
import CallSearch.Proofs.View.SavedView
import CallSearch.Proofs.View.Table
import CallSearch.Proofs.View.Run
import CallSearch.Proofs.View.Shelf
import CallSearch.Proofs.Store.Session
import CallSearch.Proofs.Predicate.Expression
import CallSearch.Proofs.Store.Key
import CallSearch.Proofs.Catalog.Listed
import CallSearch.Proofs.Double.Order
import CallSearch.Proofs.Double.Shortest
import CallSearch.Proofs.Catalog.Cache
import CallSearch.Proofs.Anomaly.Computed
import CallSearch.Proofs.Anomaly.Watch
import CallSearch.Proofs.Catalog.Types
import CallSearch.Proofs.Catalog.Described
import CallSearch.Proofs.Filter.Tree
import CallSearch.Proofs.Store.Joined
import CallSearch.Proofs.Compile.Numeric
import CallSearch.Proofs.Compile.Parts
import CallSearch.Proofs.Compile.Conjunction
import CallSearch.Proofs.Anomaly.Oversized
import CallSearch.Proofs.Anomaly.Rank
import CallSearch.Proofs.Anomaly.Usable
import CallSearch.Proofs.Paging.Late
import CallSearch.Proofs.Paging.Attendance
import CallSearch.Proofs.Compile.Answered
import CallSearch.Proofs.Compile.Substring
import CallSearch.Proofs.Store.Typed
import CallSearch.Proofs.Search.Parse
import CallSearch.Proofs.Store.Direction
import CallSearch.Proofs.Json.SameValue
import CallSearch.Proofs.Paging.Clicks
import CallSearch.Proofs.Search.Layout
import CallSearch.Proofs.Calendar.Form
import CallSearch.Proofs.Calendar.Leading
import CallSearch.Proofs.Json.Path
import CallSearch.Proofs.Filter.Position
