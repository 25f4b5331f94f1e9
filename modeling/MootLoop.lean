import MootLoop.Lib.Durable
import MootLoop.Lib.Dict
import MootLoop.Lib.Transition
import MootLoop.Lib.FileTree
import MootLoop.Lib.Lines
import MootLoop.Common
import MootLoop.Matter
import MootLoop.Gates
import MootLoop.Run
import MootLoop.Externals
import MootLoop.Citations
import MootLoop.Task
import MootLoop.TurnGates
import MootLoop.Panels
import MootLoop.Events
import MootLoop.Budget
import MootLoop.Stages
import MootLoop.Pipeline
import MootLoop.Decisions
import MootLoop.Attestations
import MootLoop.Vault
import MootLoop.Orchestrator
import MootLoop.Planner
import MootLoop.Commands
import MootLoop.CitationGates
import MootLoop.CheckRunner
import MootLoop.Attest
import MootLoop.GateLedger
import MootLoop.Master
import MootLoop.ExportService
import MootLoop.System
import MootLoop.VaultFiles
import MootLoop.Backup
import MootLoop.Queue
import MootLoop.Fleet
import MootLoop.Persistence
import MootLoop.JournalFile
import MootLoop.Theorems.Writes
import MootLoop.Theorems.Programs
import MootLoop.Theorems.Actors
import MootLoop.Theorems.Coherence
import MootLoop.Theorems.Recording
import MootLoop.Theorems.Runs
import MootLoop.Theorems.Finished
import MootLoop.Theorems.Cap
import MootLoop.Theorems.Paused
import MootLoop.Theorems.Spend
import MootLoop.Theorems.Ledger
import MootLoop.Theorems.Pending
import MootLoop.Theorems.Served
import MootLoop.Theorems.Agreement
import MootLoop.Theorems.Export
import MootLoop.Theorems.Restore
import MootLoop.Theorems.RoundTrip
import MootLoop.Theorems.Leases
import MootLoop.Theorems.Slots
import MootLoop.Theorems.Planning
import MootLoop.Theorems.Pipelines
import MootLoop.Theorems.Progress
import MootLoop.Theorems.Appends
import MootLoop.Theorems.Reads
import MootLoop.Theorems.AuditChain
import MootLoop.EvidenceFiles
import MootLoop.Facts
import MootLoop.TaskSpecs
import MootLoop.Theorems.QueueIntegrity
import MootLoop.Theorems.Fencing
import MootLoop.Theorems.Delivery
import MootLoop.Theorems.Lineage
import MootLoop.Theorems.TaskStores
import MootLoop.Sessions
import MootLoop.Theorems.Isolation
import MootLoop.Theorems.Planned
import MootLoop.Theorems.Reservation
import MootLoop.EventStream
import MootLoop.Theorems.Streaming
import MootLoop.Research
import MootLoop.Theorems.Curated
import MootLoop.Lib.Scan
import MootLoop.Amounts
import MootLoop.Theorems.Amounts
import MootLoop.Publication
import MootLoop.Theorems.Publishing
import MootLoop.Theorems.Commitment
import MootLoop.Ingest
import MootLoop.Theorems.Ingested
import MootLoop.Lib.Sorted
import MootLoop.Theorems.Rubrics
import MootLoop.Lib.TokenBucket
import MootLoop.RateLimit
import MootLoop.Theorems.RateLimits
import MootLoop.Theorems.Alignment
import MootLoop.Lib.Topological
import MootLoop.Theorems.GateOrder
import MootLoop.Lib.Slice
import MootLoop.Authorities
import MootLoop.Theorems.Excerpts
import MootLoop.Propositions
import MootLoop.Theorems.Propositions
import MootLoop.Lib.Nested
import MootLoop.RunConfig
import MootLoop.Theorems.ConfigLayers
import MootLoop.Drafts
import MootLoop.Theorems.DraftOrder
import MootLoop.Theorems.Freshness
import MootLoop.Theorems.Canonical
import MootLoop.Theorems.LedgerFold
import MootLoop.ContextAssembly
import MootLoop.Theorems.Contributions
import MootLoop.DiscoveryParser
import MootLoop.Theorems.ParsedDiscovery
import MootLoop.Theorems.MasterBlocks
import MootLoop.Sidecars
import MootLoop.Theorems.Sidecars
import MootLoop.StreamJson
import MootLoop.Theorems.StreamJson
import MootLoop.AttestationLog
import MootLoop.Theorems.Invalidations
import MootLoop.Lib.Spacing
import MootLoop.DocxEdits
import MootLoop.Theorems.TrackedChanges
import MootLoop.Lib.Disk
import MootLoop.Closing
import MootLoop.Theorems.Closing
import MootLoop.Estimate
import MootLoop.Theorems.Estimate
import MootLoop.Learnings
import MootLoop.Theorems.Learnings
import MootLoop.Theorems.LearningReviews
import MootLoop.Lib.Base64
import MootLoop.Lib.Dumps
import MootLoop.Links
import MootLoop.Theorems.Links
import MootLoop.Downloads
import MootLoop.Theorems.Downloads
