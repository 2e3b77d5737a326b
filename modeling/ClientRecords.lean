import ClientRecords.Http.Address
import ClientRecords.Http.Service
import ClientRecords.Main
import ClientRecords.Proofs.Token.Nesting
import ClientRecords.Proofs.Token.Spelling
import ClientRecords.Proofs.Text.Collapse
import ClientRecords.Proofs.Token.Context
import ClientRecords.Proofs.Token.Collapsed
import ClientRecords.Proofs.Token.Sign
import ClientRecords.Proofs.Statement.Selection
import ClientRecords.Proofs.Catalog
import ClientRecords.Proofs.Database.Calls
import ClientRecords.Proofs.Query.Names
import ClientRecords.Proofs.Query.Clauses
import ClientRecords.Proofs.Binary64.Exact
import ClientRecords.Proofs.Query.Conditions
import ClientRecords.Proofs.Query.Joins
import ClientRecords.Proofs.Query.RoundTrip
import ClientRecords.Proofs.Files
import ClientRecords.Proofs.Record
import ClientRecords.Proofs.Token.Integer
import ClientRecords.Proofs.Text.Tidy
import ClientRecords.Proofs.Statement.RoundTrip
import ClientRecords.Proofs.Saver.Delivery
import ClientRecords.Proofs.Statement.Positions
import ClientRecords.Proofs.Database.Reload
import ClientRecords.Proofs.Statement.Shape
import ClientRecords.Proofs.Database.Modes
import ClientRecords.Proofs.Statement.Assignments
import ClientRecords.Proofs.Statement.Items
import ClientRecords.Proofs.Document.Carried
import ClientRecords.Proofs.Query.Breakdown
import ClientRecords.Proofs.Query.Counting
import ClientRecords.Proofs.Shell.Durability
import ClientRecords.Proofs.Database.Keeper
import ClientRecords.Proofs.Demo
import ClientRecords.Proofs.Condition.Pattern
import ClientRecords.Proofs.Document.Listed
import ClientRecords.Proofs.Document.Repaired
import ClientRecords.Proofs.Statement.Quoted
import ClientRecords.Proofs.Http.Requests
import ClientRecords.Proofs.Condition.Conjunction
import ClientRecords.Proofs.Query.Ordering
import ClientRecords.Proofs.Query.Sorting
import ClientRecords.Proofs.Token.Appended
import ClientRecords.Proofs.Query.Extended
import ClientRecords.Proofs.Query.Paging
import ClientRecords.Proofs.Token.Parentheses
import ClientRecords.Proofs.Token.Rendered
import ClientRecords.Proofs.Statement.Layout
import ClientRecords.Proofs.Statement.Constant
import ClientRecords.Proofs.Statement.Membership
import ClientRecords.Proofs.Value.Equality
import ClientRecords.Proofs.Database.Duplicates
import ClientRecords.Proofs.Query.Groups
import ClientRecords.Proofs.Query.Trends
import ClientRecords.Proofs.Query.Decorated
import ClientRecords.Proofs.Statement.Overlay
import ClientRecords.Proofs.Database.Inserted
import ClientRecords.Proofs.Binary64.Interval
import ClientRecords.Proofs.Binary64.Shortest
import ClientRecords.Proofs.Binary64.PlainText
import ClientRecords.Proofs.Condition.Numbers
import ClientRecords.Proofs.Shell.History
import ClientRecords.Proofs.Query.Columns
import ClientRecords.Proofs.Database.Scripted
import ClientRecords.Proofs.Database.Seeding
import ClientRecords.Proofs.Token.Numerals
import ClientRecords.Proofs.Token.Lines
import ClientRecords.Proofs.Token.Matching
import ClientRecords.Proofs.Token.Partition
import ClientRecords.Proofs.Shell.Opening
