import ConsensusNode.Clients.ControlLoop
import ConsensusNode.Clients.ControlRequests
import ConsensusNode.Clients.ControlStreams
import ConsensusNode.Clients.ControlUpdate
import ConsensusNode.Clients.DataPlaneStream
import ConsensusNode.Clients.PublicRelay
import ConsensusNode.Clients.ReplyText
import ConsensusNode.Clients.RequestAnswers
import ConsensusNode.Clients.StreamAccounting
import ConsensusNode.Clients.StreamData
import ConsensusNode.Clients.TunnelIsolation
import ConsensusNode.Clients.UpdateArtifact
import ConsensusNode.Clients.UpdateCommand
import ConsensusNode.Clients.UpdateDownload
import ConsensusNode.Crypto.CanonicalJson
import ConsensusNode.Crypto.SecureChannel
import ConsensusNode.Js.Arithmetic
import ConsensusNode.Js.Buffer
import ConsensusNode.Js.Canonical
import ConsensusNode.Js.Decimal
import ConsensusNode.Js.Encoding
import ConsensusNode.Js.Json
import ConsensusNode.Js.JsonText
import ConsensusNode.Js.KeyOrder
import ConsensusNode.Js.Number
import ConsensusNode.Js.OrdMap
import ConsensusNode.Js.Path
import ConsensusNode.Js.Pretty
import ConsensusNode.Js.RoundTrip
import ConsensusNode.Js.Text
import ConsensusNode.Js.UrlPath
import ConsensusNode.Js.Value
import ConsensusNode.Lib.BoundedQueue
import ConsensusNode.Lib.Evidence
import ConsensusNode.Lib.FileProg
import ConsensusNode.Lib.Files
import ConsensusNode.Lib.IpText
import ConsensusNode.Lib.Jobs
import ConsensusNode.Lib.LockedSection
import ConsensusNode.Lib.Loop
import ConsensusNode.Lib.Mailbox
import ConsensusNode.Lib.PathSteps
import ConsensusNode.Lib.PendingCalls
import ConsensusNode.Lib.Run
import ConsensusNode.Lib.SemVer
import ConsensusNode.Lib.SharedRecord
import ConsensusNode.Lib.ShellWords
import ConsensusNode.Lib.Trace
import ConsensusNode.Lib.Window
import ConsensusNode.Node.DataKey
import ConsensusNode.Node.Identity
import ConsensusNode.Node.IdentityPairs
import ConsensusNode.Node.MachineClaim
import ConsensusNode.Node.MachineLock
import ConsensusNode.Node.PinnedKey
import ConsensusNode.Node.Registration
import ConsensusNode.Node.SecretFiles
import ConsensusNode.Node.SecretStore
import ConsensusNode.Node.State
import ConsensusNode.Node.Supervise
import ConsensusNode.Node.Teardown
import ConsensusNode.Platform
import ConsensusNode.Release.Bump
import ConsensusNode.Release.Installer
import ConsensusNode.Release.InstallerSafety
import ConsensusNode.Release.Retention
import ConsensusNode.Release.Version
import ConsensusNode.Runtime.Bench
import ConsensusNode.Runtime.CacheIsolation
import ConsensusNode.Runtime.Dedupe
import ConsensusNode.Runtime.DedupeBinding
import ConsensusNode.Runtime.DedupeVariants
import ConsensusNode.Runtime.DnsVerdicts
import ConsensusNode.Runtime.Forwarding
import ConsensusNode.Runtime.InetAton
import ConsensusNode.Runtime.ProfileHash
import ConsensusNode.Runtime.ProfileIdem
import ConsensusNode.Runtime.ProfileScope
import ConsensusNode.Runtime.ProfileSlash
import ConsensusNode.Runtime.ProfileV1
import ConsensusNode.Runtime.ProxyServe
import ConsensusNode.Runtime.ProxySession
import ConsensusNode.Runtime.ResponseCache
import ConsensusNode.Runtime.Ssrf
import ConsensusNode.Runtime.SsrfGuard
import ConsensusNode.Runtime.SsrfText
import ConsensusNode.Runtime.StableText
import ConsensusNode.Setup.Gates
import ConsensusNode.Setup.LostUpdates
import ConsensusNode.Setup.RuntimeReuse
import ConsensusNode.Setup.Wizard
import ConsensusNode.Tickets.Acceptance
import ConsensusNode.Tickets.Authenticity
import ConsensusNode.Tickets.Paseto
import ConsensusNode.Tickets.PreAuthEncoding
import ConsensusNode.Tickets.Replay
import ConsensusNode.Tickets.ReplayBounds
import ConsensusNode.Tickets.RequestTicket
import ConsensusNode.Tickets.SingleUse
import ConsensusNode.Tickets.Ticket
import ConsensusNode.Tunnel.Authorization
import ConsensusNode.Tunnel.Completeness
import ConsensusNode.Tunnel.Connect
import ConsensusNode.Tunnel.DataConnection
import ConsensusNode.Tunnel.DataHandshake
import ConsensusNode.Tunnel.DataPlane
import ConsensusNode.Tunnel.Delivery
import ConsensusNode.Tunnel.EndToEnd
import ConsensusNode.Tunnel.FrameIntegrity
import ConsensusNode.Tunnel.Frames
import ConsensusNode.Tunnel.Handshake
import ConsensusNode.Tunnel.HandshakeAgreement
import ConsensusNode.Tunnel.HonestHandshake
import ConsensusNode.Tunnel.InBand
import ConsensusNode.Tunnel.KeyAgreement
import ConsensusNode.Tunnel.Requests
import ConsensusNode.Tunnel.ResponderAuth
import ConsensusNode.Tunnel.SigningRoles
import ConsensusNode.Tunnel.TunnelClient
