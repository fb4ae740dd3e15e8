import Southbound.ChangeEvent
import Southbound.Config.Basic
import Southbound.Config.Environment
import Southbound.Config.File
import Southbound.Connection.Basic
import Southbound.Connection.Wire
import Southbound.Digest.SipHash
import Southbound.Failure
import Southbound.Flow.Action
import Southbound.Flow.Basic
import Southbound.Flow.Json
import Southbound.Flow.Key
import Southbound.Flow.Match
import Southbound.Group.Basic
import Southbound.Group.ExistsRule
import Southbound.Group.Json
import Southbound.Identity
import Southbound.Jobs.Lanes
import Southbound.Jobs.Scripted
import Southbound.Json.Basic
import Southbound.Json.Codec
import Southbound.Json.Printer
import Southbound.Json.Reader
import Southbound.Message.Basic
import Southbound.Message.Json
import Southbound.Operation.Basic
import Southbound.Operation.Batch
import Southbound.Operation.Flows
import Southbound.Operation.Groups
import Southbound.Operation.Program
import Southbound.Operation.Request
import Southbound.Pipeline.Basic
import Southbound.Pipeline.Errands
import Southbound.Pipeline.System
import Southbound.Proofs.Jobs.Moves
import Southbound.Proofs.Transaction.Settlement
import Southbound.Registry.FlowRegistry
import Southbound.Registry.GroupPresence
import Southbound.RequestFault
import Southbound.Simulation.Basic
import Southbound.Simulation.Clock
import Southbound.Simulation.Device
import Southbound.Simulation.Gathering
import Southbound.Simulation.Schedule
import Southbound.Simulation.Session
import Southbound.Simulation.Turn
import Southbound.StaleFlow
import Southbound.Store
import Southbound.Table
import Southbound.Text.Blank
import Southbound.Time.Moment
import Southbound.Toml.Basic
import Southbound.Toml.Reader
import Southbound.Toml.Scalar
import Southbound.Toml.Tables
import Southbound.Toml.Text
import Southbound.Transaction.Registry
import Southbound.Proofs.Jobs.Serial
import Southbound.Proofs.Operation.Discipline
import Southbound.Proofs.Operation.GroupFirst
import Southbound.Proofs.Connection.Run
import Southbound.Proofs.System.Event
import Southbound.Proofs.System.Connections
import Southbound.Proofs.System.Effects
import Southbound.Proofs.System.Steps
import Southbound.Proofs.Registry.GroupPresence
import Southbound.Proofs.System.GroupFirst
import Southbound.Proofs.System.OtherGroups
import Southbound.Proofs.Connection.Ledger
import Southbound.Proofs.Jobs.AllJobs
import Southbound.Proofs.System.Wiring
import Southbound.Proofs.Jobs.OneLane
import Southbound.Proofs.System.Queue
import Southbound.Proofs.System.WireOrder
import Southbound.Proofs.Connection.Requests
import Southbound.Proofs.Connection.Holders
import Southbound.Proofs.Connection.Attended
import Southbound.Proofs.Connection.Written
import Southbound.Proofs.Operation.Promises
import Southbound.Proofs.System.Closing
import Southbound.Proofs.System.Lifecycle
import Southbound.Proofs.Registry.FlowRegistry
import Southbound.Proofs.System.DeviceSteps
import Southbound.Proofs.System.Sessions
import Southbound.Proofs.System.ErrandSteps
import Southbound.Proofs.System.Shutdown
import Southbound.Proofs.System.Detached
import Southbound.Proofs.Operation.Lasting
import Southbound.Proofs.System.Drain
import Southbound.Proofs.System.EarlierSessions
import Southbound.Proofs.Json.ReadBack
import Southbound.Proofs.Json.Faithful
import Southbound.Proofs.Flow.Faithful
import Southbound.Proofs.Message.RoundTrip
import Southbound.Proofs.Operation.Answers
import Southbound.Proofs.System.Answers
import Southbound.Proofs.Connection.Answers
import Southbound.Proofs.System.Frames
import Southbound.Proofs.System.Trails
import Southbound.Proofs.System.Successes
import Southbound.Proofs.System.Books
import Southbound.Proofs.System.Tracked
import Southbound.Proofs.System.Presence
import Southbound.Proofs.System.Untouched
import Southbound.Proofs.Operation.Deeds
import Southbound.Proofs.Operation.FlowPlan
import Southbound.Proofs.System.Deeds
import Southbound.Proofs.System.TrailOrder
import Southbound.Proofs.System.Pushes
import Southbound.Proofs.Operation.Bursts
import Southbound.Proofs.Transaction.Allocation
import Southbound.Proofs.Connection.Flight
import Southbound.Proofs.System.Cooperation
import Southbound.Proofs.System.Promptness
import Southbound.Proofs.System.Assurance
import Southbound.Proofs.Operation.Recording
import Southbound.Proofs.System.Rewrites
import Southbound.Proofs.Operation.BatchFailures
import Southbound.Proofs.System.Batches
import Southbound.Proofs.Operation.GroupBatches
import Southbound.Proofs.System.GroupBatches
import Southbound.Proofs.Connection.Together
import Southbound.Proofs.Connection.Behind
import Southbound.Proofs.Operation.Changes
import Southbound.Proofs.System.WireChanges
import Southbound.Proofs.System.AtOnce
import Southbound.Proofs.System.PlanPrefix
import Southbound.Proofs.Connection.Inbound
import Southbound.Proofs.Jobs.Places
import Southbound.Proofs.Jobs.Alike
import Southbound.Proofs.Jobs.Once
import Southbound.Proofs.Operation.Refusals
import Southbound.Proofs.Connection.Results
import Southbound.Proofs.System.Unrefused
import Southbound.Proofs.System.Refusals
import Southbound.Proofs.Table
import Southbound.Proofs.Connection.Sending
import Southbound.Proofs.Connection.Timeouts
import Southbound.Proofs.Registry.Calls
import Southbound.Proofs.Registry.GroupSet
import Southbound.Proofs.Registry.FlowMap
import Southbound.Proofs.Registry.Refinement
import Southbound.Proofs.Registry.AlienIds
import Southbound.Proofs.Toml.Texts
import Southbound.Proofs.Toml.Scalars
import Southbound.Proofs.Toml.Documents
import Southbound.Proofs.Config.Settings
import Southbound.Proofs.Config.Environment
import Southbound.Proofs.Config.Loading
import Southbound.Proofs.Config.Files
import Southbound.Proofs.Time.ReadBack
import Southbound.Proofs.Store.RoundTrip
import Southbound.Proofs.Connection.Safety
import Southbound.Proofs.System.GroupBarriers
import Southbound.Proofs.System.Attaching
import Southbound.Proofs.System.Release
import Southbound.Proofs.Flow.Layout
import Southbound.Proofs.Transaction.Laps
import Southbound.Proofs.Failure.Retrying
