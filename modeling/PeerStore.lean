import PeerStore.Backend
import PeerStore.Blob
import PeerStore.Config
import PeerStore.ConfigFile
import PeerStore.Cursor
import PeerStore.Decimal
import PeerStore.Directory
import PeerStore.Dispatcher
import PeerStore.Double.Basic
import PeerStore.Double.Round
import PeerStore.Double.Shortest
import PeerStore.Double.Text
import PeerStore.Entries
import PeerStore.Host
import PeerStore.Json.Basic
import PeerStore.Json.Number
import PeerStore.Json.Reader
import PeerStore.Key
import PeerStore.KeySpace
import PeerStore.Limits
import PeerStore.Manager
import PeerStore.Notice
import PeerStore.Notifier
import PeerStore.Options
import PeerStore.Order
import PeerStore.Query.Builder
import PeerStore.Query.Clause
import PeerStore.Query.Compile
import PeerStore.Query.Document
import PeerStore.Query.Evaluate
import PeerStore.Query.Filter
import PeerStore.Query.Keyword
import PeerStore.Query.Pattern
import PeerStore.Query.Plan
import PeerStore.Query.Token
import PeerStore.Record
import PeerStore.Shelf
import PeerStore.Status
import PeerStore.Store.Basic
import PeerStore.Store.Batch
import PeerStore.Store.Operation
import PeerStore.Store.Publish
import PeerStore.Store.Read
import PeerStore.Store.Transact
import PeerStore.Store.Write
import PeerStore.Subscription
import PeerStore.Sync
import PeerStore.Table
import PeerStore.Text.Blank
import PeerStore.Text.Printable
import PeerStore.Text.Quoted
import PeerStore.Text.Split
import PeerStore.Text.Utf8
import PeerStore.Toml.Decode
import PeerStore.Toml.Quoted
import PeerStore.Toml.Reader
import PeerStore.Toml.Scalar
import PeerStore.Toml.Value
import PeerStore.Transaction
import PeerStore.Proofs.Contents
import PeerStore.Proofs.UndoLog
import PeerStore.Proofs.Replica
import PeerStore.Proofs.Decimal
import PeerStore.Proofs.Backend.Tables
import PeerStore.Proofs.Backend.Scan
import PeerStore.Proofs.Backend.Calls
import PeerStore.Proofs.Store.Effects
import PeerStore.Proofs.Store.Batch
import PeerStore.Proofs.Store.Call
import PeerStore.Proofs.Store.Run
import PeerStore.Proofs.Store.Failure
import PeerStore.Proofs.Store.Rollback
import PeerStore.Proofs.Store.Interleave
import PeerStore.Proofs.Store.Commit
import PeerStore.Proofs.Store.Aside
import PeerStore.Proofs.Store.Replica
import PeerStore.Proofs.Store.Turn
import PeerStore.Proofs.KeySpace
import PeerStore.Proofs.Store.Separation
import PeerStore.Proofs.Store.Records
import PeerStore.Proofs.Store.Confined
import PeerStore.Proofs.Store.Told
import PeerStore.Proofs.Store.Family
import PeerStore.Proofs.Query.Phrase
import PeerStore.Proofs.Query.Token
import PeerStore.Proofs.Query.Literal
import PeerStore.Proofs.Query.Reader
import PeerStore.Proofs.Query.Grammar
import PeerStore.Proofs.Query.Call
import PeerStore.Proofs.Query.RoundTrip
import PeerStore.Proofs.Query.Expression
import PeerStore.Proofs.Query.Descent
import PeerStore.Proofs.Query.Scope
import PeerStore.Proofs.Store.View
import PeerStore.Proofs.Store.Valid
import PeerStore.Proofs.Query.WriteOrder
import PeerStore.Proofs.Store.WriteTime
import PeerStore.Proofs.Store.Authors
import PeerStore.Proofs.Store.Simulation
import PeerStore.Proofs.Notifier.Run
import PeerStore.Proofs.Store.Query
import PeerStore.Proofs.Notifier.Crash
import PeerStore.Proofs.Sync.Pending
import PeerStore.Proofs.Sync.Ends
import PeerStore.Proofs.Sync.Requests
import PeerStore.Proofs.Sync.Run
import PeerStore.Proofs.Sync.Threads
import PeerStore.Proofs.Query.Device
import PeerStore.Proofs.Query.Acceptance
import PeerStore.Proofs.Host
import PeerStore.Proofs.Manager.Run
import PeerStore.Proofs.Manager.Handle
import PeerStore.Proofs.Host.Closed
import PeerStore.Proofs.Store.ResultSet
import PeerStore.Proofs.Manager.History
import PeerStore.Proofs.Manager.Persistence
import PeerStore.Proofs.Host.Outstanding
import PeerStore.Proofs.Host.Accounts
import PeerStore.Proofs.Host.Cursors
import PeerStore.Proofs.Cursor
import PeerStore.Proofs.Query.Pattern
import PeerStore.Proofs.Registry
import PeerStore.Proofs.Json
import PeerStore.Proofs.Query.Order
import PeerStore.Proofs.Query.Evaluate
import PeerStore.Proofs.Sync.Link
import PeerStore.Proofs.Store.Request
import PeerStore.Proofs.Store.Push
import PeerStore.Proofs.Store.Within
import PeerStore.Proofs.Store.Removal
import PeerStore.Proofs.Query.Spelled
import PeerStore.Proofs.Transaction
import PeerStore.Proofs.TransactionSlot
import PeerStore.Proofs.Dispatcher.Run
