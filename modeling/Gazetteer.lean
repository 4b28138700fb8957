import Gazetteer.Catalog.Basic
import Gazetteer.Catalog.Hydrate
import Gazetteer.Catalog.Import
import Gazetteer.Catalog.Search
import Gazetteer.Catalog.Session
import Gazetteer.Catalog.Snapshot
import Gazetteer.Catalog.Write
import Gazetteer.Config
import Gazetteer.Dict
import Gazetteer.Digest.Crc32
import Gazetteer.Digest.Sha256
import Gazetteer.Error
import Gazetteer.Geometry.Box
import Gazetteer.Geometry.EnvelopeText
import Gazetteer.Gzip.Bits
import Gazetteer.Gzip.Inflate
import Gazetteer.Gzip.Member
import Gazetteer.Gzip.PrefixCode
import Gazetteer.Interchange.Record
import Gazetteer.Interchange.References
import Gazetteer.Interchange.Requests
import Gazetteer.Interchange.Resources
import Gazetteer.Interchange.Results
import Gazetteer.Interchange.Settings
import Gazetteer.Interchange.Table
import Gazetteer.Json.Decode
import Gazetteer.Json.Reader
import Gazetteer.Json.Token
import Gazetteer.Json.Tree
import Gazetteer.Json.Value
import Gazetteer.Number.Binary64
import Gazetteer.Number.Numeral
import Gazetteer.Number.Rounded
import Gazetteer.Number.Shortest
import Gazetteer.Proofs.Catalog.Access
import Gazetteer.Proofs.Catalog.Append
import Gazetteer.Proofs.Catalog.Bulk
import Gazetteer.Proofs.Catalog.Columns
import Gazetteer.Proofs.Catalog.Dossier
import Gazetteer.Proofs.Catalog.Edit
import Gazetteer.Proofs.Catalog.Export
import Gazetteer.Proofs.Catalog.Flush
import Gazetteer.Proofs.Catalog.Headers
import Gazetteer.Proofs.Catalog.Holdings
import Gazetteer.Proofs.Catalog.Hydration
import Gazetteer.Proofs.Catalog.Import
import Gazetteer.Proofs.Catalog.Interleaving
import Gazetteer.Proofs.Catalog.Links
import Gazetteer.Proofs.Catalog.Reachable
import Gazetteer.Proofs.Catalog.Reads
import Gazetteer.Proofs.Catalog.Recorded
import Gazetteer.Proofs.Catalog.Repeated
import Gazetteer.Proofs.Catalog.Restart
import Gazetteer.Proofs.Catalog.Room
import Gazetteer.Proofs.Catalog.Slice
import Gazetteer.Proofs.Catalog.Storage
import Gazetteer.Proofs.Catalog.Tabular
import Gazetteer.Proofs.Catalog.Title
import Gazetteer.Proofs.Dict
import Gazetteer.Proofs.Except
import Gazetteer.Proofs.Geometry.Envelope
import Gazetteer.Proofs.Geometry.Overlap
import Gazetteer.Proofs.Geometry.Rendering
import Gazetteer.Proofs.Geometry.Spelling
import Gazetteer.Proofs.Interchange.Accepted
import Gazetteer.Proofs.Interchange.Arrangement
import Gazetteer.Proofs.Interchange.Grouping
import Gazetteer.Proofs.Interchange.Headers
import Gazetteer.Proofs.Interchange.Normal
import Gazetteer.Proofs.Interchange.Record
import Gazetteer.Proofs.Interchange.References
import Gazetteer.Proofs.Interchange.Table
import Gazetteer.Proofs.Json.Reader
import Gazetteer.Proofs.Json.RoundTrip
import Gazetteer.Proofs.Keyed
import Gazetteer.Proofs.Ledger.Basic
import Gazetteer.Proofs.Ledger.Read
import Gazetteer.Proofs.Ledger.Rows
import Gazetteer.Proofs.Ledger.Sound
import Gazetteer.Proofs.Ledger.Write
import Gazetteer.Proofs.Migration.Additive
import Gazetteer.Proofs.Migration.Backfill
import Gazetteer.Proofs.Migration.Coupled
import Gazetteer.Proofs.Migration.Envelopes
import Gazetteer.Proofs.Migration.Growth
import Gazetteer.Proofs.Migration.Settled
import Gazetteer.Proofs.Migration.Spelling
import Gazetteer.Proofs.Migration.Values
import Gazetteer.Proofs.Number.Layout
import Gazetteer.Proofs.Number.Literal
import Gazetteer.Proofs.Number.Nearest
import Gazetteer.Proofs.Number.Order
import Gazetteer.Proofs.Number.Pattern
import Gazetteer.Proofs.Number.Shortest
import Gazetteer.Proofs.Query.BestValue
import Gazetteer.Proofs.Query.Binding
import Gazetteer.Proofs.Query.Bucket
import Gazetteer.Proofs.Query.Distinct
import Gazetteer.Proofs.Query.Facet
import Gazetteer.Proofs.Query.FreeText
import Gazetteer.Proofs.Query.HitSet
import Gazetteer.Proofs.Query.Meaning
import Gazetteer.Proofs.Query.Order
import Gazetteer.Proofs.Query.Page
import Gazetteer.Proofs.Query.Predicate
import Gazetteer.Proofs.Query.Ranking
import Gazetteer.Proofs.Query.Search
import Gazetteer.Proofs.Query.Selection
import Gazetteer.Proofs.Query.Test
import Gazetteer.Proofs.Schema
import Gazetteer.Proofs.Store.Cell
import Gazetteer.Proofs.Store.Change
import Gazetteer.Proofs.Store.Consistent
import Gazetteer.Proofs.Store.Contents
import Gazetteer.Proofs.Store.Database
import Gazetteer.Proofs.Store.Layout
import Gazetteer.Proofs.Store.Legacy
import Gazetteer.Proofs.Store.Name
import Gazetteer.Proofs.Store.Row
import Gazetteer.Proofs.Store.Sort
import Gazetteer.Proofs.Store.Table
import Gazetteer.Proofs.Text.Like
import Gazetteer.Proofs.Text.Lowercase
import Gazetteer.Proofs.Text.Part
import Gazetteer.Proofs.Text.Trim
import Gazetteer.Proofs.Text.Words
import Gazetteer.Proofs.Transaction.Batch
import Gazetteer.Proofs.Transaction.Work
import Gazetteer.Proofs.Transaction.Write
import Gazetteer.Query.Fragment
import Gazetteer.Query.Predicate
import Gazetteer.Query.SortKey
import Gazetteer.Query.Test
import Gazetteer.Request
import Gazetteer.Resource
import Gazetteer.Schema.Aardvark
import Gazetteer.Schema.Basic
import Gazetteer.Schema.Field
import Gazetteer.Store.Backfill
import Gazetteer.Store.Cell
import Gazetteer.Store.Database
import Gazetteer.Store.Declaration
import Gazetteer.Store.Layout
import Gazetteer.Store.Legacy
import Gazetteer.Store.Order
import Gazetteer.Store.Table
import Gazetteer.Text.Blank
import Gazetteer.Text.CaseTable
import Gazetteer.Text.Hex
import Gazetteer.Text.Letter
import Gazetteer.Text.Like
import Gazetteer.Text.Lowercase
