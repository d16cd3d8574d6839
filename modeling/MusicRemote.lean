import MusicRemote.Foundation.Lists
import MusicRemote.Foundation.Transition
import MusicRemote.Foundation.Progress
import MusicRemote.Foundation.Loop
import MusicRemote.Foundation.Extraction
import MusicRemote.Foundation.Bytes
import MusicRemote.Foundation.Channel
import MusicRemote.Foundation.Dispatch
import MusicRemote.Foundation.Precedence
import MusicRemote.Foundation.SharedWriter
import MusicRemote.Foundation.BufWriter
import MusicRemote.Foundation.Throttle
import MusicRemote.Protocol.Json
import MusicRemote.Protocol.Message
import MusicRemote.Protocol.Tree
import MusicRemote.Protocol.Deserialize
import MusicRemote.Protocol.Reading
import MusicRemote.Protocol.Size
import MusicRemote.Protocol.Framing
import MusicRemote.Protocol.PollRead
import MusicRemote.Server.SendMessage
import MusicRemote.Server.PollWrite
import MusicRemote.Server.UdpSession
import MusicRemote.Server.UdpServer
import MusicRemote.Server.PingTask
import MusicRemote.Control.SendMessage
import MusicRemote.Protocol.RoundTrip
import MusicRemote.Server.Session
import MusicRemote.Server.Outcome
import MusicRemote.Server.SessionId
import MusicRemote.Server.Handling
import MusicRemote.Server.Frame
import MusicRemote.Server.WellFormed
import MusicRemote.Server.Stream
import MusicRemote.Server.Replies
import MusicRemote.Server.Lifecycle
import MusicRemote.Server.Refinement
import MusicRemote.Server.Registry
import MusicRemote.Server.Addressed
import MusicRemote.Server.WindDown
import MusicRemote.Server.Order
import MusicRemote.Server.Provenance
import MusicRemote.Server.Relay
import MusicRemote.Server.Broadcast
import MusicRemote.Server.Shutdown
import MusicRemote.Server.Process
import MusicRemote.Control.Service
import MusicRemote.Control.Status
import MusicRemote.Control.Agreement
import MusicRemote.Control.Interference
import MusicRemote.Control.Outcome
import MusicRemote.Control.Clicks
import MusicRemote.Control.Settling
import MusicRemote.Control.OneLogin
import MusicRemote.Control.Intake
import MusicRemote.Control.Writers
import MusicRemote.Control.Routing
import MusicRemote.Control.Taken
import MusicRemote.Control.PingForever
import MusicRemote.Protocol.Idle
import MusicRemote.Client.Connections
import MusicRemote.Client.Numbering
import MusicRemote.Client.Seed
import MusicRemote.Client.Channels
import MusicRemote.Client.Desk
import MusicRemote.Client.Queue
import MusicRemote.Client.Recycling
import MusicRemote.Client.Disconnect
import MusicRemote.Client.Startup
import MusicRemote.Client.Unpack
import MusicRemote.App.Receipt
import MusicRemote.App.Activity
import MusicRemote.App.Reconnect
import MusicRemote.App.Single
import MusicRemote.App.Display
import MusicRemote.App.Attribution
import MusicRemote.App.Address
import MusicRemote.App.Place
import MusicRemote.App.Device
import MusicRemote.App.Dialing
import MusicRemote.App.Wiring
import MusicRemote.App.KeyEvents
import MusicRemote.App.Pressed
import MusicRemote.Remote.System
import MusicRemote.Remote.Upstream
import MusicRemote.Remote.Presses
import MusicRemote.Remote.Downstream
