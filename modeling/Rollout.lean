import Rollout.Buildstate.Basic
import Rollout.Buildstate.Document
import Rollout.Buildstate.Draft
import Rollout.Buildstate.Store
import Rollout.Cli.App
import Rollout.Cli.Arguments
import Rollout.Command.Course
import Rollout.Command.Overview
import Rollout.Command.Pipeline
import Rollout.Command.Stage
import Rollout.Event.Basic
import Rollout.Event.Document
import Rollout.Executor.Basic
import Rollout.Executor.BuiltIn
import Rollout.Executor.Document
import Rollout.Executor.Mapping
import Rollout.Executor.Placeholder
import Rollout.Executor.Rehearsal
import Rollout.Failure
import Rollout.Files.FilePath
import Rollout.Files.Tree
import Rollout.Graph.Adjacency
import Rollout.Graph.Affected
import Rollout.Graph.Basic
import Rollout.Graph.Document
import Rollout.Graph.OfStack
import Rollout.Graph.Search
import Rollout.Json.Limits
import Rollout.Json.Reader
import Rollout.Json.Tagged
import Rollout.Json.Writer
import Rollout.Main
import Rollout.Number.Binary64
import Rollout.Number.Decimal
import Rollout.Proofs.Buildstate.Lasting
import Rollout.Proofs.Buildstate.Loaded
import Rollout.Proofs.Buildstate.Readable
import Rollout.Proofs.Buildstate.Reloaded
import Rollout.Proofs.Buildstate.Restored
import Rollout.Proofs.Buildstate.Saved
import Rollout.Proofs.Buildstate.Stored
import Rollout.Proofs.Buildstate.Unreadable
import Rollout.Proofs.Command.Protocol
import Rollout.Proofs.Command.Redeployed
import Rollout.Proofs.Executor.Expanded
import Rollout.Proofs.Files.Folders
import Rollout.Proofs.Files.Places
import Rollout.Proofs.Graph.Accepted
import Rollout.Proofs.Graph.Affected
import Rollout.Proofs.Graph.Built
import Rollout.Proofs.Graph.Connected
import Rollout.Proofs.Graph.Cycle
import Rollout.Proofs.Graph.Descendants
import Rollout.Proofs.Graph.Earliest
import Rollout.Proofs.Graph.Edges
import Rollout.Proofs.Graph.Kept
import Rollout.Proofs.Graph.Neighbours
import Rollout.Proofs.Graph.Order
import Rollout.Proofs.Graph.Reach
import Rollout.Proofs.Json.Alike
import Rollout.Proofs.Json.Excess
import Rollout.Proofs.Json.Identified
import Rollout.Proofs.Json.Numeral
import Rollout.Proofs.Json.RoundTrip
import Rollout.Proofs.Json.Spelled
import Rollout.Proofs.Json.Token
import Rollout.Proofs.Json.Unambiguous
import Rollout.Proofs.Json.Writable
import Rollout.Proofs.Number.Digits
import Rollout.Proofs.Number.Rounding
import Rollout.Proofs.Number.Shortest
import Rollout.Proofs.Reference.Grammar
import Rollout.Proofs.Reference.Leaves
import Rollout.Proofs.Reference.Path
import Rollout.Proofs.Reference.Pointer
import Rollout.Proofs.Reference.Reported
import Rollout.Proofs.Reference.Resolver
import Rollout.Proofs.Reference.Substituted
import Rollout.Proofs.Reference.Tokens
import Rollout.Proofs.Run.Abandoned
import Rollout.Proofs.Run.Confluence
import Rollout.Proofs.Run.Considered
import Rollout.Proofs.Run.Contained
import Rollout.Proofs.Run.Deadlines
import Rollout.Proofs.Run.Delivered
import Rollout.Proofs.Run.Downstream
import Rollout.Proofs.Run.Durable
import Rollout.Proofs.Run.Ends
import Rollout.Proofs.Run.Entries
import Rollout.Proofs.Run.Evaluated
import Rollout.Proofs.Run.Evaluation
import Rollout.Proofs.Run.Faultless
import Rollout.Proofs.Run.Filed
import Rollout.Proofs.Run.Framed
import Rollout.Proofs.Run.Halted
import Rollout.Proofs.Run.Hashed
import Rollout.Proofs.Run.Incremental
import Rollout.Proofs.Run.Interpolated
import Rollout.Proofs.Run.Move
import Rollout.Proofs.Run.Ordering
import Rollout.Proofs.Run.Outputs
import Rollout.Proofs.Run.Persisted
import Rollout.Proofs.Run.Plan
import Rollout.Proofs.Run.Queued
import Rollout.Proofs.Run.Redeployed
import Rollout.Proofs.Run.Release
import Rollout.Proofs.Run.Reordered
import Rollout.Proofs.Run.Repeated
import Rollout.Proofs.Run.Resumed
import Rollout.Proofs.Run.Reuse
import Rollout.Proofs.Run.Scheduled
import Rollout.Proofs.Run.Sequential
import Rollout.Proofs.Run.Shown
import Rollout.Proofs.Run.Sound
import Rollout.Proofs.Run.Standing
import Rollout.Proofs.Run.Steps
import Rollout.Proofs.Run.Tampering
import Rollout.Proofs.Run.Textual
import Rollout.Proofs.Run.Tied
import Rollout.Proofs.Run.Told
import Rollout.Proofs.Run.Untimed
import Rollout.Proofs.Run.Verdict
import Rollout.Proofs.Run.Waited
import Rollout.Proofs.Run.Workers
import Rollout.Proofs.Run.Written
import Rollout.Proofs.Stack.Parsed
import Rollout.Proofs.Stack.Sections
import Rollout.Proofs.Table
import Rollout.Proofs.Text.Digest
import Rollout.Proofs.Text.Scan
import Rollout.Proofs.Text.Split
import Rollout.Proofs.View.Cells
import Rollout.Proofs.View.Followed
import Rollout.Proofs.View.Hidden
import Rollout.Proofs.View.Secrets
import Rollout.Proofs.View.Tally
import Rollout.Reference.Basic
import Rollout.Reference.InitStep
import Rollout.Reference.Resolver
import Rollout.Run.Fault
import Rollout.Run.Plan
import Rollout.Run.Redeploy
import Rollout.Run.Report
import Rollout.Run.Scheduler
import Rollout.Run.State
import Rollout.Run.Step
import Rollout.Schema.Check
import Rollout.Shell.Programs
import Rollout.Shell.Run
import Rollout.Shell.Script
import Rollout.Shell.Session
import Rollout.Sorting
import Rollout.Stack.Basic
import Rollout.Stack.Document
import Rollout.Stack.File
import Rollout.Stack.Kind
import Rollout.Stack.Release
import Rollout.Stack.Summary
import Rollout.Table
import Rollout.Text.Calendar
import Rollout.Text.Digest
import Rollout.Text.Encoding
import Rollout.Text.LetterCase
import Rollout.Text.Literal
import Rollout.Text.Printable
import Rollout.Text.Scan
import Rollout.Text.WordChar
import Rollout.Value
import Rollout.Value.Parts
import Rollout.View.Board
import Rollout.View.Failure
import Rollout.View.Graph
import Rollout.View.Layout
import Rollout.View.Output
import Rollout.View.Phases
import Rollout.View.Renderer
import Rollout.View.Wording
import Rollout.Yaml.Cursor
import Rollout.Yaml.Document
import Rollout.Yaml.Node
import Rollout.Yaml.Scalar
import Rollout.Yaml.Text
import Rollout.Yaml.Token
