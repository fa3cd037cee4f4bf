import DocumentDb.Auth.Basic
import DocumentDb.Auth.Users
import DocumentDb.Backend.Basic
import DocumentDb.Backend.Registry
import DocumentDb.Call
import DocumentDb.Client.Basic
import DocumentDb.Client.Session
import DocumentDb.Database.Basic
import DocumentDb.Database.Feed
import DocumentDb.Digest.Sha256
import DocumentDb.Document.Basic
import DocumentDb.Document.Codec
import DocumentDb.Document.Edit
import DocumentDb.Error
import DocumentDb.IdSupply
import DocumentDb.Json.Basic
import DocumentDb.Json.Parser
import DocumentDb.Json.Printer
import DocumentDb.Json.Record
import DocumentDb.Json.RecordBytes
import DocumentDb.Json.Reread
import DocumentDb.Json.Scan
import DocumentDb.Memory
import DocumentDb.Number.Binary64
import DocumentDb.Number.Layout
import DocumentDb.Number.Shortest
import DocumentDb.Options.Basic
import DocumentDb.Options.Query
import DocumentDb.RevTree.Basic
import DocumentDb.Revision.Basic
import DocumentDb.Revision.Hash
import DocumentDb.Server.Basic
import DocumentDb.Server.Handlers
import DocumentDb.Server.Request
import DocumentDb.Server.Response
import DocumentDb.Server.Route
import DocumentDb.Server.Startup
import DocumentDb.Server.Timeline
import DocumentDb.Server.Wire
import DocumentDb.Settings.Basic
import DocumentDb.Settings.Environment
import DocumentDb.SortedMap.Basic
import DocumentDb.SortedMap.Entries
import DocumentDb.Store.Basic
import DocumentDb.Store.Bulk
import DocumentDb.Text.Base64
import DocumentDb.Text.Blank
import DocumentDb.Text.Hex
import DocumentDb.Text.Numeral
import DocumentDb.Text.Percent
import DocumentDb.Text.Printable
import DocumentDb.Text.Quoted
import DocumentDb.Text.Split
import DocumentDb.Text.Utf8
import DocumentDb.Toml.Basic
import DocumentDb.Toml.Parser
import DocumentDb.Toml.Scan
import DocumentDb.Toml.Spelled
import DocumentDb.Toml.Table
import DocumentDb.Proofs.Database.Events
import DocumentDb.Proofs.Feed.Delivery
import DocumentDb.Proofs.Feed.Slice
import DocumentDb.Proofs.Feed.Steps
import DocumentDb.Proofs.Memory.Events
import DocumentDb.Proofs.Options.KeyRange
import DocumentDb.Proofs.RevTree.Accounts
import DocumentDb.Proofs.RevTree.Convergence
import DocumentDb.Proofs.RevTree.Grafts
import DocumentDb.Proofs.RevTree.Growth
import DocumentDb.Proofs.RevTree.Winner
import DocumentDb.Proofs.Revision.Order
import DocumentDb.Proofs.Server.Changes
import DocumentDb.Proofs.SortedMap.Keys
import DocumentDb.Proofs.Store.Convergence
import DocumentDb.Proofs.Store.Log
import DocumentDb.Proofs.Store.LostUpdate
import DocumentDb.Proofs.Store.Refusal
import DocumentDb.Proofs.Store.Views
import DocumentDb.Proofs.Store.Writes
import DocumentDb.Proofs.Document.Wire
import DocumentDb.Proofs.RevTree.Bodies
import DocumentDb.Proofs.Store.Fetch
import DocumentDb.Proofs.Store.Leaves
import DocumentDb.Proofs.Database.Moments
import DocumentDb.Proofs.Feed.Wakeup
import DocumentDb.Proofs.Call.Within
import DocumentDb.Proofs.Memory.Access
import DocumentDb.Proofs.Memory.Kept
import DocumentDb.Proofs.Backend.Kept
import DocumentDb.Proofs.Server.Kept
import DocumentDb.Proofs.Server.Actions
import DocumentDb.Proofs.Server.BulkOfOne
import DocumentDb.Proofs.Json.Quoted
import DocumentDb.Proofs.Json.Alike
import DocumentDb.Proofs.Json.Plain
import DocumentDb.Proofs.Revision.Preimage
import DocumentDb.Proofs.Memory.Shelf
import DocumentDb.Proofs.Memory.Refinement
import DocumentDb.Proofs.Document.Members
import DocumentDb.Proofs.Document.RoundTrip
import DocumentDb.Proofs.Store.Paging
import DocumentDb.Proofs.Store.Apart
import DocumentDb.Proofs.Store.BulkItems
import DocumentDb.Proofs.Memory.BulkIndependence
import DocumentDb.Proofs.Memory.Deliveries
import DocumentDb.Proofs.Store.Acceptance
import DocumentDb.Proofs.Store.Conflicts
import DocumentDb.Proofs.Store.Grafts
import DocumentDb.Proofs.Store.Listing
import DocumentDb.Proofs.Client.Cancelled
import DocumentDb.Proofs.Auth.Chain
import DocumentDb.Proofs.Auth.Credentials
import DocumentDb.Proofs.Server.Protected
import DocumentDb.Proofs.Server.Startup
import DocumentDb.Proofs.Text.Utf8Order
import DocumentDb.Proofs.Document.Grammar
import DocumentDb.Proofs.Feed.Answers
import DocumentDb.Proofs.Feed.Endings
import DocumentDb.Proofs.Server.Posted
import DocumentDb.Proofs.Server.Admins
import DocumentDb.Proofs.RevTree.Edits
import DocumentDb.Proofs.Server.FeedKind
import DocumentDb.Proofs.Json.Reading
import DocumentDb.Proofs.Revision.Ways
import DocumentDb.Proofs.Server.Lines
import DocumentDb.Proofs.Json.Rereading
import DocumentDb.Proofs.Document.Records
import DocumentDb.Proofs.Store.Records
import DocumentDb.Proofs.Store.BulkItems
