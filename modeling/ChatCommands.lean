import ChatCommands.Audit.Log
import ChatCommands.Audit.Store
import ChatCommands.Cli.Commands
import ChatCommands.Cli.Desk
import ChatCommands.Cli.Grammar
import ChatCommands.Cli.Program
import ChatCommands.Cli.Report
import ChatCommands.Cli.Screen
import ChatCommands.Cli.Source
import ChatCommands.Cli.Suggestion
import ChatCommands.Cli.Value
import ChatCommands.Command
import ChatCommands.Concurrency.Scheduler
import ChatCommands.Concurrency.Semaphore
import ChatCommands.Concurrency.Task
import ChatCommands.Concurrency.TimerHeap
import ChatCommands.Config
import ChatCommands.Cooldown.Limiter
import ChatCommands.Cooldown.Table
import ChatCommands.Deed
import ChatCommands.Delivery
import ChatCommands.Engine.Basic
import ChatCommands.Engine.Pool
import ChatCommands.Engine.Service
import ChatCommands.Fault.Basic
import ChatCommands.Host.Basic
import ChatCommands.Host.Errno
import ChatCommands.Host.FileTree
import ChatCommands.Host.Path
import ChatCommands.Host.Process
import ChatCommands.Journal.Line
import ChatCommands.Journal.Record
import ChatCommands.Journal.Template
import ChatCommands.Journal.Threshold
import ChatCommands.Json.Access
import ChatCommands.Json.Basic
import ChatCommands.Json.Parse
import ChatCommands.Json.Reader
import ChatCommands.Json.Shown
import ChatCommands.Json.Writer
import ChatCommands.Language
import ChatCommands.Main
import ChatCommands.Matching
import ChatCommands.Message
import ChatCommands.Number.Binary64
import ChatCommands.Number.Places
import ChatCommands.Number.Shortest
import ChatCommands.Pattern.Basic
import ChatCommands.Pattern.Parser
import ChatCommands.Proofs.Concurrency.AtOnce
import ChatCommands.Proofs.Concurrency.Charter
import ChatCommands.Proofs.Concurrency.Closed
import ChatCommands.Proofs.Concurrency.Commons
import ChatCommands.Proofs.Concurrency.Custody
import ChatCommands.Proofs.Concurrency.Minding
import ChatCommands.Proofs.Concurrency.Programs
import ChatCommands.Proofs.Concurrency.Reachable
import ChatCommands.Proofs.Concurrency.Regime
import ChatCommands.Proofs.Concurrency.Scene
import ChatCommands.Proofs.Concurrency.Tally
import ChatCommands.Proofs.Concurrency.View
import ChatCommands.Proofs.Concurrency.Wakers
import ChatCommands.Proofs.Cooldown.Calm
import ChatCommands.Proofs.Cooldown.Clock
import ChatCommands.Proofs.Cooldown.Memory
import ChatCommands.Proofs.Cooldown.Operations
import ChatCommands.Proofs.Cooldown.Refinement
import ChatCommands.Proofs.Cooldown.Table
import ChatCommands.Proofs.Engine.Admission
import ChatCommands.Proofs.Engine.Attempts
import ChatCommands.Proofs.Engine.Chronicle
import ChatCommands.Proofs.Engine.Confined
import ChatCommands.Proofs.Engine.Copies
import ChatCommands.Proofs.Engine.Fires
import ChatCommands.Proofs.Engine.Grounds
import ChatCommands.Proofs.Engine.Handling
import ChatCommands.Proofs.Engine.History
import ChatCommands.Proofs.Engine.Knowledge
import ChatCommands.Proofs.Engine.Ledger
import ChatCommands.Proofs.Engine.Milestones
import ChatCommands.Proofs.Engine.Refusals
import ChatCommands.Proofs.Engine.Slots
import ChatCommands.Proofs.Engine.Snapshots
import ChatCommands.Proofs.Engine.Tenants
import ChatCommands.Proofs.Host.FileTree
import ChatCommands.Proofs.Number.Nearest
import ChatCommands.Proofs.Pattern.LineEnds
import ChatCommands.Proofs.Registry.Entries
import ChatCommands.Proofs.Registry.Invalidation
import ChatCommands.Proofs.Registry.Staleness
import ChatCommands.Proofs.Review.LineEnds
import ChatCommands.Proofs.Review.Verdict
import ChatCommands.Proofs.Sandbox.Leftovers
import ChatCommands.Proofs.Sandbox.Scratch
import ChatCommands.Proofs.Sandbox.Supervision
import ChatCommands.Proofs.Text.Ascii
import ChatCommands.Registry.Basic
import ChatCommands.Registry.Cache
import ChatCommands.Registry.File
import ChatCommands.Registry.Store
import ChatCommands.Reply
import ChatCommands.Review.Basic
import ChatCommands.Review.Catalog
import ChatCommands.Run
import ChatCommands.Sandbox.Capture
import ChatCommands.Sandbox.Diagnosis
import ChatCommands.Sandbox.Execution
import ChatCommands.Sandbox.Runtime
import ChatCommands.Sandbox.Scratch
import ChatCommands.Sandbox.Script
import ChatCommands.Sandbox.Standard
import ChatCommands.Sandbox.Supervision
import ChatCommands.Schema.Field
import ChatCommands.Schema.Issue
import ChatCommands.Schema.Record
import ChatCommands.Settings
import ChatCommands.Simulation.AuditSession
import ChatCommands.Simulation.HostScenario
import ChatCommands.Simulation.HostSession
import ChatCommands.Simulation.Run
import ChatCommands.Simulation.Scenario
import ChatCommands.Simulation.Session
import ChatCommands.Simulation.Surroundings
import ChatCommands.Text.Ansi
import ChatCommands.Text.Basic
import ChatCommands.Text.Blank
import ChatCommands.Text.Folding
import ChatCommands.Text.Printable
import ChatCommands.Text.Quoted
import ChatCommands.Text.Ranges
import ChatCommands.Text.Utf8
import ChatCommands.Text.Word
import ChatCommands.World
import ChatCommands.Proofs.Reply.Length
import ChatCommands.Proofs.Reply.Silence
import ChatCommands.Proofs.Cooldown.Histories
import ChatCommands.Proofs.Cooldown.Overtaking
import ChatCommands.Proofs.Cooldown.Pruning
import ChatCommands.Proofs.Concurrency.Alarms
import ChatCommands.Proofs.Concurrency.Moments
import ChatCommands.Proofs.Concurrency.Timekeeping
import ChatCommands.Proofs.Engine.Deadlines
import ChatCommands.Proofs.Cooldown.Waiting
import ChatCommands.Proofs.Cooldown.Changes
import ChatCommands.Proofs.Cooldown.Eviction
import ChatCommands.Proofs.Cooldown.Bound
import ChatCommands.Proofs.Number.Tenths
import ChatCommands.Proofs.Reply.Wait
import ChatCommands.Proofs.Engine.Waits
import ChatCommands.Proofs.Concurrency.Queue
import ChatCommands.Proofs.Concurrency.Pace
import ChatCommands.Proofs.Concurrency.Collection
import ChatCommands.Proofs.Concurrency.Resting
import ChatCommands.Proofs.Concurrency.Rhythm
import ChatCommands.Proofs.Concurrency.Turning
import ChatCommands.Proofs.Concurrency.Ringing
import ChatCommands.Proofs.Concurrency.Rounds
import ChatCommands.Proofs.Concurrency.Sessions
import ChatCommands.Proofs.Delivery.Law
import ChatCommands.Proofs.Delivery.Attempts
import ChatCommands.Proofs.Audit.Store
import ChatCommands.Proofs.Audit.Recording
import ChatCommands.Proofs.Audit.Retention
import ChatCommands.Proofs.Audit.Accounting
import ChatCommands.Proofs.Text.Lines
import ChatCommands.Proofs.Sandbox.Excerpt
import ChatCommands.Proofs.Text.Numerals
import ChatCommands.Proofs.Text.Order
import ChatCommands.Proofs.Json.Strings
import ChatCommands.Proofs.Json.RoundTrip
import ChatCommands.Proofs.Json.Embedding
import ChatCommands.Proofs.Sandbox.Bindings
import ChatCommands.Proofs.Host.Subtree
import ChatCommands.Proofs.Host.Remains
import ChatCommands.Proofs.Sandbox.Removal
import ChatCommands.Proofs.Text.Cutting
import ChatCommands.Proofs.Sandbox.Output
import ChatCommands.Proofs.Text.Folding
import ChatCommands.Proofs.Matching.Folding
import ChatCommands.Proofs.Registry.Contents
import ChatCommands.Proofs.Registry.Edits
import ChatCommands.Proofs.Review.Rules
import ChatCommands.Proofs.Registry.Reload
import ChatCommands.Proofs.Registry.Layouts
import ChatCommands.Proofs.Engine.Discretion
import ChatCommands.Proofs.Concurrency.Solitude
import ChatCommands.Proofs.Concurrency.Companions
import ChatCommands.Proofs.Concurrency.Monologue
import ChatCommands.Proofs.Concurrency.Overseen
import ChatCommands.Proofs.Engine.Solo
import ChatCommands.Proofs.Engine.SoloMessages
import ChatCommands.Proofs.Cli.Snippets
import ChatCommands.Proofs.Cooldown.Flight
import ChatCommands.Proofs.Journal.Context
import ChatCommands.Proofs.Matching.Blank
