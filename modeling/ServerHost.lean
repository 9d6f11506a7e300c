import ServerHost.Library.Table
import ServerHost.Library.Machine
import ServerHost.Qt
import ServerHost.Protocol
import ServerHost.Relay.State
import ServerHost.Relay.Isolation
import ServerHost.Relay.Account
import ServerHost.Relay.Pairing
import ServerHost.Relay.Revocation
import ServerHost.Relay.Calm
import ServerHost.Relay.Requests
import ServerHost.Lan.Link
import ServerHost.Lan.Host
import ServerHost.Lan.Turn
import ServerHost.Lan.Offers
import ServerHost.Lan.Access
import ServerHost.Lan.Gate
import ServerHost.Lan.Client
import ServerHost.Lan.Answers
import ServerHost.Lan.Checked
import ServerHost.Peer.State
import ServerHost.Peer.Handlers
import ServerHost.Peer.Turn
import ServerHost.Peer.Requests
import ServerHost.Library.Program
import ServerHost.Library.Base64
import ServerHost.Library.Fields
import ServerHost.Files.System
import ServerHost.Files.Share
import ServerHost.Files.Confinement
import ServerHost.Files.Paging
import ServerHost.Files.Reading
import ServerHost.Files.Windows
import ServerHost.Files.Writing
import ServerHost.Files.Writers
import ServerHost.Transport.WebSocket
import ServerHost.Transport.Closing
import ServerHost.Wire.Json
import ServerHost.Wire.Frame
import ServerHost.Wire.Send
import ServerHost.Library.RateLimit
import ServerHost.Relay.Attempts
import ServerHost.Relay.Partners
import ServerHost.Relay.Refusal
import ServerHost.Lan.Approval
import ServerHost.Lan.Phases
import ServerHost.Relay.Reentrant
import ServerHost.Wire.Envelopes
import ServerHost.Library.Tally
import ServerHost.Relay.Directory
import ServerHost.Lan.Reentrant
import ServerHost.Lan.System
import ServerHost.Lan.Framing
import ServerHost.Lan.Greeting
import ServerHost.Lan.Dialling
import ServerHost.Lan.Agreement
import ServerHost.Relay.Targets
import ServerHost.Relay.Descriptor
import ServerHost.Library.Words
import ServerHost.Storage.Server
import ServerHost.Storage.Secrets
import ServerHost.Storage.Bridge
import ServerHost.Storage.Jobs
import ServerHost.Transfer.Request
import ServerHost.Transfer.Perform
import ServerHost.Transfer.Download
import ServerHost.Transport.LifeCycle
import ServerHost.Transport.Fallback
import ServerHost.Peer.Endpoints
import ServerHost.Peer.Links
import ServerHost.Peer.Drivers
import ServerHost.Peer.Waiting
import ServerHost.Wire.Acceptance
import ServerHost.Files.Cursors
import ServerHost.Transfer.Headers
import ServerHost.Http.Dispatch
import ServerHost.Lan.Binding
import ServerHost.Library.Percent
import ServerHost.Wire.Links
import ServerHost.Relay.Routing
import ServerHost.Peer.Transports
import ServerHost.Peer.System
import ServerHost.Peer.Wiring
import ServerHost.Peer.Replays
import ServerHost.Peer.Window
import ServerHost.Peer.Messages
import ServerHost.Relay.Messages
import ServerHost.Peer.Integrity
import ServerHost.Peer.Dialled
import ServerHost.Library.Counters
import ServerHost.Peer.Addressing
import ServerHost.Lan.Messages
import ServerHost.Lan.Served
import ServerHost.Files.RoundTrip
import ServerHost.Transport.Delivery
import ServerHost.Storage.Children
import ServerHost.Peer.Walks
import ServerHost.Peer.Strays
import ServerHost.Peer.Flushes
import ServerHost.Peer.Conserved
import ServerHost.Relay.Integrity
