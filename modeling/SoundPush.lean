import SoundPush.Lib.OrdMap
import SoundPush.Lib.Table
import SoundPush.Lib.FirstMatch
import SoundPush.Lib.Keyed
import SoundPush.Lib.SortDedup
import SoundPush.Lib.Tokens
import SoundPush.Lib.Machine
import SoundPush.Lib.Mirror
import SoundPush.Lib.BigEndian
import SoundPush.Lib.Bits
import SoundPush.Lib.Reads
import SoundPush.Lib.Framing
import SoundPush.Media.Jitter
import SoundPush.Media.JitterPhase
import SoundPush.Media.JitterLive
import SoundPush.Media.JitterOrder
import SoundPush.Media.JitterBounds
import SoundPush.Media.JitterTurn
import SoundPush.Media.JitterCourse
import SoundPush.Media.JitterResume
import SoundPush.Media.JitterLedger
import SoundPush.Media.Drift
import SoundPush.Media.Profile
import SoundPush.Security.Identity
import SoundPush.Security.Trust
import SoundPush.Security.Durable
import SoundPush.Protocol.Media
import SoundPush.Protocol.Framing
import SoundPush.Protocol.Datagram
import SoundPush.Protocol.Control
import SoundPush.Protocol.Version
import SoundPush.Transport.Tcp
import SoundPush.Transport.TcpWriter
import SoundPush.Transport.TcpReader
import SoundPush.Transport.TcpLink
import SoundPush.Pipeline.Sender
import SoundPush.Pipeline.Timeline
import SoundPush.Pipeline.Receiver
import SoundPush.Pipeline.Redundancy
import SoundPush.Pipeline.Playback
import SoundPush.Pipeline.MixReader
import SoundPush.Pipeline.Dtx
import SoundPush.Pipeline.Convert
import SoundPush.Discovery.Candidates
import SoundPush.Discovery.Registry
import SoundPush.Discovery.Beacon
import SoundPush.Security.DeviceIdText
import SoundPush.Discovery.Mdns
import SoundPush.Discovery.Service
import SoundPush.Engine.Settings
import SoundPush.Engine.Limits
import SoundPush.Engine.Actor
import SoundPush.Engine.Pipelines
import SoundPush.Engine.Routes
import SoundPush.Engine.Profiles
import SoundPush.Engine.LocalAudio
import SoundPush.Engine.NetworkTest
import SoundPush.Engine.Sessions
import SoundPush.Engine.Pairing
import SoundPush.Engine.Handlers
import SoundPush.Engine.Basis
import SoundPush.Engine.World
import SoundPush.Engine.Upkeep
import SoundPush.Engine.Moves
import SoundPush.Engine.Books
import SoundPush.Engine.Bookkeeping
import SoundPush.Engine.Accounts
import SoundPush.Engine.Connections
import SoundPush.Engine.Trusted
import SoundPush.Engine.PairingSound
import SoundPush.Engine.Consent
import SoundPush.Engine.Revocation
import SoundPush.Engine.Prompts
import SoundPush.Engine.Places
import SoundPush.Engine.Blocked
import SoundPush.Engine.Disconnect
import SoundPush.Engine.Board
import SoundPush.Engine.Acts
import SoundPush.Engine.Turns
import SoundPush.Engine.Handling
import SoundPush.Engine.Dispatch
import SoundPush.Engine.Crossing
import SoundPush.Engine.RouteIds
import SoundPush.Engine.Remade
import SoundPush.Engine.RouteKeys
import SoundPush.Engine.Answers
import SoundPush.Engine.TestRuns
import SoundPush.Engine.Receivers
import SoundPush.Engine.Feeds
import SoundPush.Engine.RouteUpdates
import SoundPush.Engine.Takeover
import SoundPush.Engine.MicMute
import SoundPush.Engine.Resume
import SoundPush.Engine.Started
import SoundPush.Engine.PairingLimit
import SoundPush.Engine.QrCode
import SoundPush.Engine.Adaptation
import SoundPush.Engine.ProfileSafety
import SoundPush.Engine.Dialing
import SoundPush.Engine.CrashText
import SoundPush.Engine.Flapping
import SoundPush.Engine.Refused
import SoundPush.Engine.RateLimit
import SoundPush.Engine.SessionTask
import SoundPush.Engine.SessionOrder
import SoundPush.Engine.SessionRuns
import SoundPush.Engine.SessionTurns
import SoundPush.Engine.Handshake
import SoundPush.Engine.Host
import SoundPush.Engine.OverTcp
import SoundPush.Engine.Health
import SoundPush.Engine.AuditLog
import SoundPush.Engine.SettingsFile
import SoundPush.Engine.DebugLogging
import SoundPush.Driver.Cable
import SoundPush.Driver.CableRing
import SoundPush.Desktop.DefaultDevices
import SoundPush.Desktop.Pulse
import SoundPush.Desktop.PulseCalls
import SoundPush.Desktop.PulseBooks
import SoundPush.Desktop.PulseRouting
import SoundPush.Desktop.Hotkeys
import SoundPush.Release.Channels
