import WayfireIpc.Lib.Machine
import WayfireIpc.Lib.EraseLoop
import WayfireIpc.Lib.Bytes
import WayfireIpc.Lib.LastWrite
import WayfireIpc.Lib.Decimal
import WayfireIpc.Lib.Ledger
import WayfireIpc.Lib.Terminated
import WayfireIpc.Lib.Session
import WayfireIpc.Lib.Serial
import WayfireIpc.Lib.Stopping
import WayfireIpc.Lib.Members
import WayfireIpc.Protocol
import WayfireIpc.Server.State
import WayfireIpc.Server.Queue
import WayfireIpc.Server.Events
import WayfireIpc.Server.Requests
import WayfireIpc.Server.Callbacks
import WayfireIpc.Server.QueueSpec
import WayfireIpc.Server.Moves
import WayfireIpc.Server.ClientView
import WayfireIpc.Server.EventSpec
import WayfireIpc.Server.Handlers
import WayfireIpc.Server.Steps
import WayfireIpc.Server.Lifetime
import WayfireIpc.Server.Delivery
import WayfireIpc.Server.Failure
import WayfireIpc.Server.Replies
import WayfireIpc.Server.Listing
import WayfireIpc.Server.Room
import WayfireIpc.Server.Resources
import WayfireIpc.Server.Reading
import WayfireIpc.Server.Spinning
import WayfireIpc.Client.Recv
import WayfireIpc.Client.Ends
import WayfireIpc.Server.Writing
import WayfireIpc.Text
import WayfireIpc.Compositor.State
import WayfireIpc.Compositor.Describe
import WayfireIpc.Compositor.Tree
import WayfireIpc.Compositor.Shown
import WayfireIpc.Compositor.Ids
import WayfireIpc.Compositor.Once
import WayfireIpc.Compositor.Focus
import WayfireIpc.Compositor.Sorted
import WayfireIpc.Command.Tools
import WayfireIpc.Command.Criteria
import WayfireIpc.Command.Containers
import WayfireIpc.Command.Execute
import WayfireIpc.Command.Rounds
import WayfireIpc.Command.Results
import WayfireIpc.Command.Handlers
import WayfireIpc.Command.Workspace
import WayfireIpc.Command.Navigation
import WayfireIpc.Command.Scratchpad
import WayfireIpc.Command.Kill
import WayfireIpc.Command.Context
import WayfireIpc.Command.Selection
import WayfireIpc.Command.Once
import WayfireIpc.Command.Cut
import WayfireIpc.Command.Scope
import WayfireIpc.Command.InEffect
import WayfireIpc.Command.Words
import WayfireIpc.Command.RoundTrip
import WayfireIpc.Command.Members
import WayfireIpc.Command.Failing
import WayfireIpc.Command.Written
import WayfireIpc.Command.Quoted
import WayfireIpc.Command.Pieces
import WayfireIpc.Command.Stripping
import WayfireIpc.Command.Splitting
import WayfireIpc.Command.BoundedTools
import WayfireIpc.Command.BoundedCriteria
import WayfireIpc.Command.BoundedRun
import WayfireIpc.Command.Silent
import WayfireIpc.Command.Program
import WayfireIpc.Command.ProgramRun
import WayfireIpc.Command.ProgramLaws
import WayfireIpc.Command.Requests
import WayfireIpc.Command.Conjunction
import WayfireIpc.Client.Status
import WayfireIpc.Client.Exchange
import WayfireIpc.Client.Print
import WayfireIpc.Client.Queries
import WayfireIpc.Server.Subscriptions
import WayfireIpc.Server.Conversation
import WayfireIpc.Server.Asked
import WayfireIpc.Server.Draining
import WayfireIpc.Server.Serial
import WayfireIpc.Compositor.Layout
import WayfireIpc.Compositor.RootRect
import WayfireIpc.Compositor.Documents
import WayfireIpc.Compositor.ReadBack
import WayfireIpc.Power.State
import WayfireIpc.Power.Wake
import WayfireIpc.Power.Idle
import WayfireIpc.Output.Config
import WayfireIpc.Output.Confined
import WayfireIpc.Output.Handlers
import WayfireIpc.Output.Subcommands
import WayfireIpc.Output.Moves
import WayfireIpc.Output.Bounds
import WayfireIpc.Output.Failing
import WayfireIpc.Output.Rounds
import WayfireIpc.Output.Modes
import WayfireIpc.Plugin.State
import WayfireIpc.Plugin.Signals
import WayfireIpc.Plugin.Steps
import WayfireIpc.Plugin.Events
import WayfireIpc.Plugin.Bindings
import WayfireIpc.Plugin.Reach
import WayfireIpc.Plugin.Frames
import WayfireIpc.Plugin.Shared
import WayfireIpc.Plugin.Shutdown
import WayfireIpc.Plugin.Teardown
