import DocStore.Backend
import DocStore.Bound
import DocStore.Bytes
import DocStore.Call
import DocStore.Config
import DocStore.Config.File
import DocStore.Config.Text
import DocStore.Cursor
import DocStore.Database
import DocStore.Database.Catalog
import DocStore.Error
import DocStore.FieldPath
import DocStore.FieldPath.Parser
import DocStore.Index.Bucket
import DocStore.Index.Query
import DocStore.Index.Settle
import DocStore.Index.Sync
import DocStore.Index.Walk
import DocStore.IndexDiff
import DocStore.IndexKey
import DocStore.Json
import DocStore.Json.Text
import DocStore.MessagePack.Encoding
import DocStore.MessagePack.Packed
import DocStore.Name
import DocStore.Number.Binary64
import DocStore.Number.Integer
import DocStore.Number.Shortest
import DocStore.Proofs.Config.Files
import DocStore.Proofs.Database.Catalog
import DocStore.Proofs.Database.Cursors
import DocStore.Proofs.Database.Detached
import DocStore.Proofs.Database.Drops
import DocStore.Proofs.Database.Faults
import DocStore.Proofs.Database.Isolation
import DocStore.Proofs.Database.Orderly
import DocStore.Proofs.Database.Owners
import DocStore.Proofs.Database.Requests
import DocStore.Proofs.Database.Stores
import DocStore.Proofs.Database.Tables
import DocStore.Proofs.Documents.Alone
import DocStore.Proofs.Documents.Budgets
import DocStore.Proofs.Documents.Disturbed
import DocStore.Proofs.Documents.Effects
import DocStore.Proofs.Documents.Linearizability
import DocStore.Proofs.Documents.Memberships
import DocStore.Proofs.Documents.Plans
import DocStore.Proofs.Documents.Rounds
import DocStore.Proofs.Documents.Sequential
import DocStore.Proofs.Documents.Undisturbed
import DocStore.Proofs.Documents.Upkeep
import DocStore.Proofs.FieldPath.Extraction
import DocStore.Proofs.FieldPath.Grammar
import DocStore.Proofs.FieldPath.Positions
import DocStore.Proofs.FieldPath.Printing
import DocStore.Proofs.Index.Atomicity
import DocStore.Proofs.Index.Buckets
import DocStore.Proofs.Index.Budgets
import DocStore.Proofs.Index.Creation
import DocStore.Proofs.Index.Diffs
import DocStore.Proofs.Index.Edits
import DocStore.Proofs.Index.Equality
import DocStore.Proofs.Index.Filing
import DocStore.Proofs.Index.Keys
import DocStore.Proofs.Index.Lists
import DocStore.Proofs.Index.Memberships
import DocStore.Proofs.Index.Mending
import DocStore.Proofs.Index.Order
import DocStore.Proofs.Index.Rounds
import DocStore.Proofs.Index.Settling
import DocStore.Proofs.Index.Slots
import DocStore.Proofs.Index.Steps
import DocStore.Proofs.Index.Undisturbed
import DocStore.Proofs.Index.Walks
import DocStore.Proofs.Json.Order
import DocStore.Proofs.Json.Texts
import DocStore.Proofs.MessagePack.Documents
import DocStore.Proofs.MessagePack.Strings
import DocStore.Proofs.MessagePack.Trees
import DocStore.Proofs.MessagePack.Values
import DocStore.Proofs.Number.Shortest
import DocStore.Proofs.Number.Texts
import DocStore.Proofs.Number.Values
import DocStore.Proofs.Range.Accounts
import DocStore.Proofs.Range.Counts
import DocStore.Proofs.Range.Cursors
import DocStore.Proofs.Range.Drain
import DocStore.Proofs.Range.Moves
import DocStore.Proofs.Range.Scans
import DocStore.Proofs.Run.Alone
import DocStore.Proofs.Run.Attempts
import DocStore.Proofs.Run.Budgets
import DocStore.Proofs.Run.Completion
import DocStore.Proofs.Run.Disturbed
import DocStore.Proofs.Run.Loops
import DocStore.Proofs.Run.Requests
import DocStore.Proofs.Run.System
import DocStore.Proofs.Run.Trace
import DocStore.Proofs.Run.Turns
import DocStore.Proofs.Store.Mutations
import DocStore.Proofs.Store.Versions
import DocStore.Proofs.Table.Damage
import DocStore.Proofs.Table.Effects
import DocStore.Proofs.Table.Exactness
import DocStore.Proofs.Table.History
import DocStore.Proofs.Table.Independence
import DocStore.Proofs.Table.Isolated
import DocStore.Proofs.Table.Numbers
import DocStore.Proofs.Table.Sequential
import DocStore.Proofs.Table.Upkeep
import DocStore.Proofs.Text.Keyspaces
import DocStore.Proofs.Text.Lossy
import DocStore.Proofs.Toml.Lines
import DocStore.Range
import DocStore.Retry
import DocStore.Shape
import DocStore.SortedMap
import DocStore.Store
import DocStore.Store.Slot
import DocStore.Table.Delete
import DocStore.Table.Indexing
import DocStore.Table.Read
import DocStore.Table.Scan
import DocStore.Table.Update
import DocStore.Table.Write
import DocStore.Text.Alphanumeric
import DocStore.Text.CharSet
import DocStore.Text.Quoted
import DocStore.Text.Unprintable
import DocStore.Text.Utf8
import DocStore.Toml
import DocStore.Toml.Moment
import DocStore.Toml.Number
import DocStore.Toml.Quoted
import DocStore.Toml.Text
import DocStore.Value
import DocStore.Proofs.Documents.Attempts
