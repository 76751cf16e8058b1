import AuditFlow.Foundation.Exc
import AuditFlow.Foundation.Catalog
import AuditFlow.Foundation.Dict
import AuditFlow.Foundation.Transition
import AuditFlow.Foundation.Filing
import AuditFlow.Foundation.Gather
import AuditFlow.Foundation.JobQueue
import AuditFlow.Foundation.KeyStore
import AuditFlow.Foundation.LeasedCell
import AuditFlow.Foundation.Listing
import AuditFlow.Foundation.Matcher
import AuditFlow.Foundation.ReadCommitted
import AuditFlow.Foundation.Ranking
import AuditFlow.Foundation.Retry
import AuditFlow.Foundation.Shortlist
import AuditFlow.Foundation.Tally
import AuditFlow.Foundation.Text
import AuditFlow.Foundation.Triple
import AuditFlow.Foundation.Str
import AuditFlow.Foundation.Json
import AuditFlow.Foundation.JsonText
import AuditFlow.Foundation.JsonWriter
import AuditFlow.Foundation.Resumption
import AuditFlow.Foundation.StoreRefinement
import AuditFlow.Foundation.Ddl
import AuditFlow.Foundation.Hierarchy
import AuditFlow.Foundation.Html
import AuditFlow.Foundation.Census
import AuditFlow.Foundation.Attempts
import AuditFlow.Schemas
import AuditFlow.Core.JsonExtraction
import AuditFlow.Core.Wrapping
import AuditFlow.Core.Chat
import AuditFlow.Ingest.Agreement
import AuditFlow.Ingest.Announcement
import AuditFlow.Ingest.ChunkIds
import AuditFlow.Ingest.Contents
import AuditFlow.Ingest.Chunker
import AuditFlow.Ingest.Extraction
import AuditFlow.Ingest.Holdings
import AuditFlow.Ingest.IngestionExits
import AuditFlow.Ingest.IngestionService
import AuditFlow.Ingest.Ledger
import AuditFlow.Ingest.Locality
import AuditFlow.Ingest.Models
import AuditFlow.Ingest.Noops
import AuditFlow.Ingest.Order
import AuditFlow.Ingest.Processes
import AuditFlow.Ingest.Provenance
import AuditFlow.Ingest.Recovery
import AuditFlow.Ingest.Registry
import AuditFlow.Ingest.Parts
import AuditFlow.Ingest.Identities
import AuditFlow.Ingest.IdentityCache
import AuditFlow.Ingest.Preflight
import AuditFlow.Ingest.BuildIndex
import AuditFlow.Ingest.Textless
import AuditFlow.Ingest.Stores
import AuditFlow.Ingest.TitleParser
import AuditFlow.Verification.Batch
import AuditFlow.Verification.Verify
import AuditFlow.Retrieval.CacheWatcher
import AuditFlow.Retrieval.Consistency
import AuditFlow.Retrieval.Deployment
import AuditFlow.Retrieval.Fusion
import AuditFlow.Retrieval.Reload
import AuditFlow.Retrieval.Retrieve
import AuditFlow.Generation.Generate
import AuditFlow.Orchestration.RetryLayer
import AuditFlow.Orchestration.Passes
import AuditFlow.Orchestration.Scoping
import AuditFlow.Orchestration.SecondPass
import AuditFlow.Orchestration.Matching
import AuditFlow.Orchestration.Pipeline
import AuditFlow.Orchestration.Exits
import AuditFlow.Orchestration.Answers
import AuditFlow.Orchestration.Candidates
import AuditFlow.Orchestration.Confident
import AuditFlow.Orchestration.Failures
import AuditFlow.Orchestration.Endpoint
import AuditFlow.Orchestration.Grounding
import AuditFlow.Orchestration.History
import AuditFlow.Orchestration.Isolation
import AuditFlow.Orchestration.Memory
import AuditFlow.Orchestration.BestMatch
import AuditFlow.Orchestration.WholeWords
import AuditFlow.Orchestration.Naming
import AuditFlow.Orchestration.Pending
import AuditFlow.Orchestration.Selections
import AuditFlow.Orchestration.SessionStore
import AuditFlow.Orchestration.Sources
import AuditFlow.Orchestration.SessionText
import AuditFlow.Orchestration.RecentTurns
import AuditFlow.Auth.Access
import AuditFlow.Auth.Accounting
import AuditFlow.Auth.Refresh
import AuditFlow.Auth.Retries
import AuditFlow.Auth.Revocation
import AuditFlow.Auth.Rotation
import AuditFlow.Auth.Routes
import AuditFlow.Store.Migrations
import AuditFlow.Store.Pool
import AuditFlow.Auth.Policy
import AuditFlow.Frontend.Page
