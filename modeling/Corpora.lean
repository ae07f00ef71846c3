import Corpora.Cli.Arguments
import Corpora.Cli.Help
import Corpora.Cli.Run
import Corpora.Config.Database
import Corpora.Config.File
import Corpora.Config.Key
import Corpora.Config.Overlay
import Corpora.Config.Settings
import Corpora.Crypto.Sha256
import Corpora.Document.Entry
import Corpora.Document.Filename
import Corpora.Document.Progress
import Corpora.Document.Status
import Corpora.Embedding.Client
import Corpora.Embedding.Provider
import Corpora.Embedding.Response
import Corpora.Failure
import Corpora.Http.JsonBody
import Corpora.Http.MediaType
import Corpora.Http.Message
import Corpora.Http.Multipart
import Corpora.Http.Route
import Corpora.Index.Metadata
import Corpora.Index.Name
import Corpora.Json.Basic
import Corpora.Json.Decoder
import Corpora.Json.Reader
import Corpora.Json.Scanner
import Corpora.Json.Writer
import Corpora.Main
import Corpora.Number.Binary
import Corpora.Number.Decimal
import Corpora.Number.Fixed
import Corpora.Number.Rounding
import Corpora.Number.Shortest
import Corpora.Number.Text
import Corpora.Objects.Store
import Corpora.Order.SortedMap
import Corpora.Order.StableSort
import Corpora.Proofs.Config.Key
import Corpora.Proofs.Config.Overlay
import Corpora.Proofs.Document.Filename
import Corpora.Proofs.Embedding.Count
import Corpora.Proofs.Embedding.ModelName
import Corpora.Proofs.Embedding.Response
import Corpora.Proofs.Embedding.Retry
import Corpora.Proofs.Http.Form
import Corpora.Proofs.Index.Metadata
import Corpora.Proofs.Index.Name
import Corpora.Proofs.Json.Invariant
import Corpora.Proofs.Json.Members
import Corpora.Proofs.Json.Passing
import Corpora.Proofs.Json.Quoted
import Corpora.Proofs.Json.Record
import Corpora.Proofs.Json.Whole
import Corpora.Proofs.Json.Written
import Corpora.Proofs.Number.Comparison
import Corpora.Proofs.Number.Exact
import Corpora.Proofs.Number.Nearest
import Corpora.Proofs.Number.NotANumber
import Corpora.Proofs.Number.Rounding
import Corpora.Proofs.Order.Overwriting
import Corpora.Proofs.Order.SortByKey
import Corpora.Proofs.Order.StableSort
import Corpora.Proofs.Reconcile.Continuity
import Corpora.Proofs.Reconcile.Difference
import Corpora.Proofs.Reconcile.Interleaving
import Corpora.Proofs.Reconcile.Plan
import Corpora.Proofs.Reconcile.Removal
import Corpora.Proofs.Reconcile.Source
import Corpora.Proofs.Records
import Corpora.Proofs.S3.Addressing
import Corpora.Proofs.S3.Deletion
import Corpora.Proofs.S3.Documents
import Corpora.Proofs.S3.Listing
import Corpora.Proofs.S3.Notification
import Corpora.Proofs.S3.Operation
import Corpora.Proofs.S3.Paging
import Corpora.Proofs.S3.Path
import Corpora.Proofs.S3.Request
import Corpora.Proofs.S3.Sending
import Corpora.Proofs.S3.Signing
import Corpora.Proofs.S3.Verifier
import Corpora.Proofs.Search.Answer
import Corpora.Proofs.Search.Canonical
import Corpora.Proofs.Search.Cut
import Corpora.Proofs.Search.Ranking
import Corpora.Proofs.Search.Selection
import Corpora.Proofs.Search.Table
import Corpora.Proofs.Server.Download
import Corpora.Proofs.Server.Handling
import Corpora.Proofs.Server.Upload
import Corpora.Proofs.Service.Agreement
import Corpora.Proofs.Service.Armed
import Corpora.Proofs.Service.Atomicity
import Corpora.Proofs.Service.Calls
import Corpora.Proofs.Service.Catalog
import Corpora.Proofs.Service.Creation
import Corpora.Proofs.Service.Effect
import Corpora.Proofs.Service.Execution
import Corpora.Proofs.Service.Faultless
import Corpora.Proofs.Service.Indifference
import Corpora.Proofs.Service.Listing
import Corpora.Proofs.Service.Lookup
import Corpora.Proofs.Service.Operation
import Corpora.Proofs.Service.Outcome
import Corpora.Proofs.Service.Refinement
import Corpora.Proofs.Service.Representation
import Corpora.Proofs.Service.Update
import Corpora.Proofs.SortedMap
import Corpora.Proofs.Status.Interchange
import Corpora.Proofs.Status.Report
import Corpora.Proofs.Status.Table
import Corpora.Proofs.Text.Blank
import Corpora.Proofs.Text.Digits
import Corpora.Proofs.Text.Encoding
import Corpora.Proofs.Text.Letters
import Corpora.Proofs.Text.Percent
import Corpora.Proofs.Text.Search
import Corpora.Proofs.Time.Calendar
import Corpora.Proofs.Time.Instant
import Corpora.Proofs.Time.Reading
import Corpora.Proofs.Time.Stamp
import Corpora.Proofs.Vector.Blob
import Corpora.Proofs.Vector.Nearest
import Corpora.Proofs.Wire.Url
import Corpora.Proofs.Xml.Block
import Corpora.Proofs.Xml.Decomposition
import Corpora.Proofs.Xml.Entity
import Corpora.Proofs.Xml.Reading
import Corpora.Reconcile.Cycle
import Corpora.Reconcile.InProcess
import Corpora.Reconcile.Plan
import Corpora.Reconcile.Run
import Corpora.Reconcile.Schedule
import Corpora.Reconcile.Source
import Corpora.S3.Address
import Corpora.S3.Client
import Corpora.S3.Listing
import Corpora.S3.Remote
import Corpora.S3.Signature
import Corpora.Search.Backend
import Corpora.Search.ChunkStore
import Corpora.Search.Hit
import Corpora.Search.Ranking
import Corpora.Server.ContextProtocol
import Corpora.Server.Health
import Corpora.Server.IndexApi
import Corpora.Server.Listen
import Corpora.Server.ToolApi
import Corpora.Service.Documents
import Corpora.Service.Error
import Corpora.Service.Indices
import Corpora.Service.Program
import Corpora.Status.Store
import Corpora.Text.Ascii
import Corpora.Text.Blank
import Corpora.Text.Hex
import Corpora.Text.Percent
import Corpora.Text.Search
import Corpora.Text.Utf8
import Corpora.Time.Calendar
import Corpora.Time.Clock
import Corpora.Time.Instant
import Corpora.Time.Reader
import Corpora.Toml.Document
import Corpora.Toml.Scalar
import Corpora.Toml.Text
import Corpora.Tools.Query
import Corpora.Tools.Registry
import Corpora.Vector.Basic
import Corpora.Vector.Blob
import Corpora.Vector.Literal
import Corpora.Wire.Conversation
import Corpora.Wire.Phrase
import Corpora.Wire.Url
import Corpora.Xml.Block
import Corpora.Xml.Entity
