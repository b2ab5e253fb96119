import Interlock.Calendar.Date
import Interlock.Calendar.Instant
import Interlock.Calendar.Reader
import Interlock.Channel.Basic
import Interlock.Channel.Registry
import Interlock.Config.Basic
import Interlock.Config.Codec
import Interlock.Config.Environment
import Interlock.Config.Layout
import Interlock.Config.Setting
import Interlock.Config.Validity
import Interlock.Device.Basic
import Interlock.Dispatch.Basic
import Interlock.Dispatch.Timer
import Interlock.Formula.Arithmetic
import Interlock.Formula.Builtin
import Interlock.Formula.Condition
import Interlock.Formula.Curve
import Interlock.Formula.Error
import Interlock.Formula.Evaluation
import Interlock.Formula.Group
import Interlock.Formula.Literal
import Interlock.Formula.Logic
import Interlock.Formula.Token
import Interlock.Formula.Validation
import Interlock.Formula.Yard
import Interlock.Graph.Comparison
import Interlock.Graph.Subscription
import Interlock.Graph.Trigger
import Interlock.Graph.Variable
import Interlock.Invocation.Arguments
import Interlock.Invocation.Evaluation
import Interlock.Invocation.Execution
import Interlock.Invocation.Fault
import Interlock.Invocation.Help
import Interlock.Invocation.Response
import Interlock.Invocation.Settings
import Interlock.Json.Reader
import Interlock.Json.Writer
import Interlock.Log.Filter
import Interlock.Log.Level
import Interlock.Log.Record
import Interlock.Main
import Interlock.Number.Binary
import Interlock.Number.Decimal
import Interlock.Number.Radix
import Interlock.Number.Rounding
import Interlock.Plant.Basic
import Interlock.Plant.Channels
import Interlock.Plant.Desk
import Interlock.Plant.Devices
import Interlock.Plant.Reactive
import Interlock.Plant.Run
import Interlock.Plant.Sequencing
import Interlock.Plant.Use
import Interlock.Plant.Workspace
import Interlock.Schedule.Sequence
import Interlock.Schedule.Step
import Interlock.Session.Command
import Interlock.Session.Reply
import Interlock.Session.Report
import Interlock.Text.Blank
import Interlock.Text.Case
import Interlock.Text.Letter
import Interlock.Text.Split
import Interlock.Toml.Draft
import Interlock.Toml.Lexeme
import Interlock.Toml.Reader
import Interlock.Toml.Scalar
import Interlock.Toml.Tree
import Interlock.Toml.Writer
import Interlock.Value.Basic
import Interlock.Value.Comparator
import Interlock.Value.Interchange
import Interlock.Proofs.Formula.Grammar
import Interlock.Proofs.Formula.Numeral
import Interlock.Proofs.Formula.Tree
import Interlock.Proofs.Formula.Enclosure
import Interlock.Proofs.Formula.Scanning
import Interlock.Proofs.Formula.Assembly
import Interlock.Proofs.Formula.Completeness
import Interlock.Proofs.Formula.Compilation
import Interlock.Proofs.Formula.Binding
import Interlock.Proofs.Plant.Move
import Interlock.Proofs.Plant.Quiet
import Interlock.Proofs.Plant.Conduct
import Interlock.Proofs.Plant.Wiring
import Interlock.Proofs.Plant.Sparing
import Interlock.Proofs.Plant.Pulse
import Interlock.Proofs.Plant.Retiring
import Interlock.Proofs.Plant.Course
import Interlock.Proofs.Plant.Detachment
import Interlock.Proofs.Plant.Strokes
import Interlock.Proofs.Plant.Drift
import Interlock.Proofs.Plant.Station
import Interlock.Proofs.Plant.Cancellation
import Interlock.Proofs.Plant.Layers
import Interlock.Proofs.Plant.Holding
import Interlock.Proofs.Plant.Touching
import Interlock.Proofs.Plant.Keeping
import Interlock.Proofs.Plant.Fate
import Interlock.Proofs.Plant.Budget
import Interlock.Proofs.Plant.Release
import Interlock.Proofs.Plant.Gating
import Interlock.Proofs.Plant.Dealing
import Interlock.Proofs.Plant.Lifecycle
import Interlock.Proofs.Plant.Numbering
import Interlock.Proofs.Plant.Ledger
import Interlock.Proofs.Plant.Accounting
import Interlock.Proofs.Plant.Renewal
import Interlock.Proofs.Plant.Rerun
import Interlock.Proofs.Formula.Truth
import Interlock.Proofs.Plant.Calm
import Interlock.Proofs.Plant.Listening
import Interlock.Proofs.Plant.Freshness
import Interlock.Proofs.Plant.Coherence
import Interlock.Proofs.Plant.Linking
import Interlock.Proofs.Plant.Activity
import Interlock.Proofs.Plant.Orders
import Interlock.Proofs.Plant.Upkeep
import Interlock.Proofs.Plant.Quiescence
import Interlock.Proofs.Plant.Hearing
import Interlock.Proofs.Plant.Ripple
import Interlock.Proofs.Plant.Settling
import Interlock.Proofs.Plant.Edges
import Interlock.Proofs.Plant.Ticketing
import Interlock.Proofs.Plant.Matching
import Interlock.Proofs.Plant.Brood
import Interlock.Proofs.Plant.Tidying
import Interlock.Proofs.Plant.Balance
import Interlock.Proofs.Plant.Discretion
import Interlock.Proofs.Plant.Passing
import Interlock.Proofs.Plant.Echo
import Interlock.Proofs.Plant.Propagation
import Interlock.Proofs.Plant.Allowance
import Interlock.Proofs.Formula.Denotation
import Interlock.Proofs.Formula.Parameters
import Interlock.Proofs.Formula.Proposition
import Interlock.Proofs.Formula.Clause
import Interlock.Proofs.Formula.Juncture
import Interlock.Proofs.Formula.Adjacency
import Interlock.Proofs.Text.Lowering
import Interlock.Proofs.Number.Layout
import Interlock.Proofs.Number.Nearest
import Interlock.Proofs.Number.Shortest
import Interlock.Proofs.Number.Exactness
import Interlock.Proofs.Formula.Rendering
import Interlock.Proofs.Formula.Recompilation
import Interlock.Proofs.Formula.Emission
import Interlock.Proofs.Formula.Rereading
import Interlock.Proofs.Plant.Draining
import Interlock.Proofs.Plant.Delivery
import Interlock.Proofs.Plant.Startup
import Interlock.Proofs.Toml.Quoting
import Interlock.Proofs.Toml.Inline
import Interlock.Proofs.Toml.Document
import Interlock.Proofs.Config.Shaping
import Interlock.Proofs.Config.Persistence
import Interlock.Proofs.Plant.Sampling
import Interlock.Proofs.Plant.Ownership
import Interlock.Proofs.Plant.Provenance
import Interlock.Proofs.Plant.Privacy
import Interlock.Proofs.Schedule.Assignment
import Interlock.Proofs.Plant.Enactment
import Interlock.Proofs.Plant.Reaction
import Interlock.Proofs.Plant.Writing
import Interlock.Proofs.Formula.Height
import Interlock.Proofs.Value.Order
import Interlock.Proofs.Graph.Mirroring
import Interlock.Proofs.Value.Conversion
import Interlock.Proofs.Plant.Endurance
import Interlock.Proofs.Plant.Storing
import Interlock.Proofs.Plant.Retention
import Interlock.Proofs.Plant.Utterance
import Interlock.Proofs.Plant.Following
import Interlock.Proofs.Calendar.Cycle
import Interlock.Proofs.Calendar.Spelling
import Interlock.Proofs.Text.Casing
import Interlock.Proofs.Channel.Canonical
import Interlock.Proofs.Channel.Bookkeeping
import Interlock.Proofs.Plant.Reach
import Interlock.Proofs.Invocation.Options
import Interlock.Proofs.Formula.Balance
import Interlock.Proofs.Number.Arithmetic
import Interlock.Proofs.Json.Numeral
import Interlock.Proofs.Json.Roundtrip
import Interlock.Proofs.Value.Recovery
