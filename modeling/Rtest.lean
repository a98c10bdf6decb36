import Rtest.Foundations.ObjectStore
import Rtest.Foundations.Runs
import Rtest.Foundations.Periodic
import Rtest.Foundations.Rounding
import Rtest.Foundations.Agenda
import Rtest.Foundations.Promise
import Rtest.Foundations.SavedCell
import Rtest.Foundations.BufferWrites
import Rtest.Foundations.Switchboard
import Rtest.Foundations.Alarm
import Rtest.Foundations.ShiftedStore
import Rtest.Foundations.Spacing
import Rtest.Foundations.RequestTable
import Rtest.Registry.StaticMocksRegistry
import Rtest.Registry.World
import Rtest.Registry.Effects
import Rtest.Registry.Invariant
import Rtest.Registry.Isolation
import Rtest.Registry.Findable
import Rtest.Registry.PendingActions
import Rtest.Registry.MockTable
import Rtest.Registry.Found
import Rtest.Registry.Candidates
import Rtest.Registry.Delivery
import Rtest.Registry.Holders
import Rtest.Registry.Ahead
import Rtest.Registry.FindsAlike
import Rtest.Registry.InterfaceTypes
import Rtest.Registry.TopicNames
import Rtest.Registry.ServiceNames
import Rtest.Registry.Listing
import Rtest.Registry.Suites
import Rtest.Calls.Traffic
import Rtest.Calls.Fixtures
import Rtest.Service.PruneRequests
import Rtest.Service.NewMessageCallback
import Rtest.Service.Reporter
import Rtest.Service.Requests
import Rtest.Clock.RclTimer
import Rtest.Clock.TestClock
import Rtest.Clock.Consistency
import Rtest.Clock.CallbackCounts
import Rtest.Clock.SteadyClock
import Rtest.Clock.RealTime
import Rtest.Clock.PeriodCast
import Rtest.Clock.Rounds
import Rtest.Clock.Termination
import Rtest.Clock.PlainClock
import Rtest.Clock.FailedWrites
import Rtest.Clock.CurrentTimers
import Rtest.Clock.Stops
import Rtest.Clock.DueTimes
import Rtest.Clock.NodeTimers
import Rtest.Action.GoalHandle
import Rtest.Action.ResultDelivery
import Rtest.Action.Client
import Rtest.Logging.OutputHandler
import Rtest.Logging.Routing
import Rtest.Examples.Publisher
import Rtest.Examples.Debounce
import Rtest.Examples.ActionServer
import Rtest.Examples.ServiceClient
import Rtest.Examples.ActionClient
