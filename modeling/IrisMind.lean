import IrisMind.Lib.Dict
import IrisMind.Lib.Machine
import IrisMind.Lib.Rows
import IrisMind.Lib.Text
import IrisMind.Lib.Codec
import IrisMind.Lib.Wire
import IrisMind.Planning.Plan
import IrisMind.Inhibition.Gate
import IrisMind.Inhibition.Striatum
import IrisMind.Inhibition.Evaluation
import IrisMind.Inhibition.Manager
import IrisMind.Tools.Registry
import IrisMind.Execution.Messages
import IrisMind.Execution.NodeType
import IrisMind.Events
import IrisMind.Execution.Routing
import IrisMind.Execution.Effects
import IrisMind.Execution.Engine
import IrisMind.Llm.Repetition
import IrisMind.Llm.Bridge
import IrisMind.Llm.Context
import IrisMind.Llm.ModelConfig
import IrisMind.Execution.Nodes
import IrisMind.Execution.Graph
import IrisMind.Execution.Moves
import IrisMind.Execution.Requests
import IrisMind.Execution.LevelRange
import IrisMind.Execution.Termination
import IrisMind.Execution.Conservation
import IrisMind.Execution.SideEffects
import IrisMind.Execution.ToolBounds
import IrisMind.Execution.Streams
import IrisMind.Execution.Consolidator
import IrisMind.Execution.Executor
import IrisMind.Execution.Isolation
import IrisMind.Accounts.Account
import IrisMind.Accounts.Manager
import IrisMind.Rooms.Room
import IrisMind.Rooms.Manager
import IrisMind.Rooms.Membership
import IrisMind.Sessions.Router
import IrisMind.Sessions.Manager
import IrisMind.Sessions.RoomDelivery
import IrisMind.Sessions.Control
import IrisMind.Sessions.Entitlement
import IrisMind.Gateway.Inbound
import IrisMind.Gateway.Delivery
import IrisMind.Gateway.Presence
import IrisMind.Sessions.Connections
import IrisMind.Transport.Frames
import IrisMind.Transport.Relay
import IrisMind.Transport.Server
import IrisMind.Lib.Splitting
import IrisMind.Transport.Release
import IrisMind.Inhibition.Scopes
import IrisMind.Inhibition.Proactive
import IrisMind.Accounts.Dispatcher
import IrisMind.Rooms.Dispatcher
import IrisMind.Gateway.Control
import IrisMind.Transport.Stream
import IrisMind.Accounts.Writes
import IrisMind.Rooms.Writes
import IrisMind.Transport.Validation
import IrisMind.Execution.Worker
import IrisMind.Execution.Interrupts
import IrisMind.Execution.Queue
import IrisMind.Rooms.Lifecycle
import IrisMind.Rooms.Announcements
import IrisMind.Rooms.Batcher
import IrisMind.Memory.Presence
import IrisMind.Rooms.ConcurrentJoin
import IrisMind.Accounts.Directory
import IrisMind.Lib.Threads
import IrisMind.Accounts.CallSteps
import IrisMind.Accounts.Concurrency
import IrisMind.Lib.Lines
import IrisMind.Lib.JsonText
import IrisMind.Memory.Jsonl
import IrisMind.Memory.Failures
import IrisMind.Lib.Digits
import IrisMind.Memory.Archive
import IrisMind.Lib.Fields
import IrisMind.Memory.Semantic
import IrisMind.Memory.VectorSearch
import IrisMind.Lib.Conversion
import IrisMind.Memory.LongTerm
import IrisMind.Memory.Candidates
import IrisMind.Memory.Handlers
import IrisMind.Lib.Words
import IrisMind.Memory.Promotion
import IrisMind.Memory.Promotions
import IrisMind.Memory.Extraction
import IrisMind.Memory.Pipeline
import IrisMind.Memory.Statuses
import IrisMind.Memory.Schemas
import IrisMind.Lib.PriorityQueue
import IrisMind.Llm.PriorityLock
import IrisMind.Limbic.Relationship
import IrisMind.Event.Bus
import IrisMind.Lib.Topological
import IrisMind.Kernel.Lifecycle
import IrisMind.Kernel.Dependencies
import IrisMind.Memory.Blocks
import IrisMind.Memory.Sensory
import IrisMind.Memory.Assembler
import IrisMind.Memory.SensoryEvents
import IrisMind.Memory.ShortTerm
import IrisMind.Memory.Consolidation
import IrisMind.Memory.ShortTermContext
import IrisMind.Transport.InhibitionMessages
import IrisMind.Rooms.Updates
import IrisMind.Memory.SemanticAdd
import IrisMind.Memory.Layers
import IrisMind.Memory.Clearing
import IrisMind.Memory.Duplicates
import IrisMind.Limbic.Signals
import IrisMind.Memory.Audit
import IrisMind.Lib.KeyOrder
import IrisMind.Memory.CandidateHash
import IrisMind.Memory.CandidateStore
import IrisMind.Event.Tracing
import IrisMind.Memory.SearchRanking
import IrisMind.Memory.Profile
import IrisMind.Memory.Goals
import IrisMind.Memory.Scheduler
import IrisMind.Memory.Records
import IrisMind.Memory.StyleUsage
import IrisMind.Lib.FirstSeen
import IrisMind.Limbic.Snapshots
import IrisMind.Lib.PosixPath
import IrisMind.Memory.PersonaPatch
import IrisMind.Memory.PatchPaths
import IrisMind.Memory.PatchLife
import IrisMind.Llm.Matches
import IrisMind.Llm.Trimming
import IrisMind.Lib.Truncation
import IrisMind.Memory.BlockBudgets
import IrisMind.Lib.Ranking
import IrisMind.Lib.Smoothing
import IrisMind.Limbic.Lexicon
import IrisMind.Limbic.Appraiser
import IrisMind.Limbic.Generator
import IrisMind.Limbic.Mood
import IrisMind.Limbic.Orchestrator
import IrisMind.Limbic.Pipeline
import IrisMind.Limbic.Emotions
import IrisMind.Limbic.MoodRange
import IrisMind.Limbic.Isolation
import IrisMind.Lib.Window
import IrisMind.Limbic.History
import IrisMind.Planning.Modulation
import IrisMind.Limbic.Modulation
import IrisMind.Planning.Scorer
import IrisMind.Planning.Hints
import IrisMind.Planning.Strategies
import IrisMind.Planning.Agency
import IrisMind.Kernel.Hooks
import IrisMind.Kernel.Process
import IrisMind.Heartbeat.TimerService
import IrisMind.Lib.Template
import IrisMind.Kernel.EnvRefs
import IrisMind.Lib.NameTree
import IrisMind.Kernel.Diagnostics
import IrisMind.Llm.Tokenizer
import IrisMind.Kernel.DebugCapture
import IrisMind.Memory.ProactiveTrigger
import IrisMind.Lib.Replacing
import IrisMind.Llm.Invocation
import IrisMind.Llm.Routing
import IrisMind.Execution.SystemPrompt
import IrisMind.Execution.Gateway
import IrisMind.Memory.Readiness
import IrisMind.Memory.ConversationArchive
import IrisMind.Memory.DeferredRuns
