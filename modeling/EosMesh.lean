import EosMesh.Common.ByteBuffer
import EosMesh.Net.Messages
import EosMesh.Net.Narrowing
import EosMesh.Net.Router.Limits
import EosMesh.Common.Crypto
import EosMesh.Net.SecureChannel
import EosMesh.Net.PeerChannel
import EosMesh.Net.Router.State
import EosMesh.Net.Router.Stream
import EosMesh.Lib.Run
import EosMesh.Net.Router.Machine
import EosMesh.Net.Router.Effects
import EosMesh.Net.Router.Identity
import EosMesh.Net.Router.Lifecycle
import EosMesh.Net.Router.Ordering
import EosMesh.Net.Router.Alternation
import EosMesh.Net.Router.Integrity
import EosMesh.P2P.Agreement
import EosMesh.Net.Handshake
import EosMesh.Net.FailClosed
import EosMesh.Net.Nonces
import EosMesh.Lib.FanOut
import EosMesh.Interfaces.Sessions.Notices
import EosMesh.Interfaces.Sessions.Ids
import EosMesh.Interfaces.Sessions.Copies
import EosMesh.Interfaces.Sessions.Network
import EosMesh.Interfaces.Connect
import EosMesh.Interfaces.Lobby.Operations
import EosMesh.Interfaces.Lobby.Handlers
import EosMesh.Interfaces.Lobby.Steps
import EosMesh.Interfaces.Lobby.Hosting
import EosMesh.Interfaces.Authority
import EosMesh.P2P.Consent
import EosMesh.P2P.Announcements
import EosMesh.P2P.Delivery
import EosMesh.Interfaces.Searches
import EosMesh.Interfaces.Sessions.Searches
import EosMesh.Interfaces.Finding
import EosMesh.Interfaces.Sessions.Completions
import EosMesh.Interfaces.Sessions.Drafts
import EosMesh.Interfaces.Drafts
import EosMesh.Interfaces.Sessions.Orphans
import EosMesh.Interfaces.Lobby.Orphans
import EosMesh.Interfaces.Orphans
import EosMesh.Lib.Flow
import EosMesh.Net.Router.Outbox
import EosMesh.Lib.Pull
import EosMesh.Net.Router.Framing
import EosMesh.Lib.Gate
import EosMesh.Net.Router.Datagrams
import EosMesh.Interfaces.Presence.Operations
import EosMesh.Interfaces.Presence.Announcers
import EosMesh.Interfaces.Presence.Limits
import EosMesh.Net.Router.Envelopes
import EosMesh.Interfaces.PeerViews
import EosMesh.Core.Utf8
import EosMesh.Core.Config
import EosMesh.Core.Precedence
import EosMesh.Core.Validity
import EosMesh.Core.ConfigFile
import EosMesh.Core.ConfigGrammar
import EosMesh.Core.ConfigNumbers
import EosMesh.Core.ConfigStrings
import EosMesh.Core.ConfigParsing
import EosMesh.Common.JsonWriter
import EosMesh.Common.JsonText
import EosMesh.Common.JsonCap
import EosMesh.Common.JsonStrings
import EosMesh.Common.JsonDocuments
import EosMesh.P2P.Sending
import EosMesh.Interfaces.StagedEdits
import EosMesh.Core.Callbacks
import EosMesh.Lib.Scans
import EosMesh.Core.CallbackDelivery
import EosMesh.Core.TraceEvent
import EosMesh.Core.TraceRecords
import EosMesh.Interfaces.Lobby.Election
import EosMesh.P2P.Limits
import EosMesh.Common.ByteCursor
import EosMesh.Net.HandshakeSizes
import EosMesh.P2P.Receiving
import EosMesh.Lib.Delimited
import EosMesh.Net.CanonicalInputs
import EosMesh.Core.Identity
import EosMesh.Net.Router.Loopback
import EosMesh.Core.LabelRegistry
import EosMesh.Lib.Redact
import EosMesh.Lib.Split
import EosMesh.Tools.Sanitize
import EosMesh.Core.IntegerSettings
import EosMesh.Core.TraceSink
import EosMesh.Tools.Staging
import EosMesh.Lib.Network
import EosMesh.Interfaces.Lobby.Seats
import EosMesh.Interfaces.Lobby.SeatSteps
import EosMesh.Interfaces.Lobby.Network
import EosMesh.Interfaces.Lobby.Hosts
import EosMesh.Interfaces.Lobby.OneHost
import EosMesh.Lib.Notices
import EosMesh.Interfaces.Auth
import EosMesh.Interfaces.IntegratedPlatform
import EosMesh.Interfaces.StatusNotices
import EosMesh.Core.Tracer
import EosMesh.Core.CallRecords
import EosMesh.Lib.Pipe
import EosMesh.Net.Router.Link
import EosMesh.Net.Router.LinkTurns
import EosMesh.Net.Router.LinkStages
import EosMesh.Net.Router.Lossless
import EosMesh.Net.Router.Dialing
import EosMesh.Interfaces.Presence.Replicas
import EosMesh.Interfaces.Handles
import EosMesh.Lib.TextOut
import EosMesh.Interfaces.Ids
import EosMesh.Interfaces.Presence.JoinInfo
