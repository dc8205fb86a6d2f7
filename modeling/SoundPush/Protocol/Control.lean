/-
`Control` -- the control messages of `sp-protocol/src/control.rs` and the
capability bits of `sp-protocol/src/version.rs`.

The messages carry what the engine reads from them: fields of a `Hello` or a
`StatsReport` that only a state snapshot or a log shows are left out, and an
integer that the wire gives a fixed width keeps it. Enumerations travel as
`i32`s, which an unknown peer may fill with anything, so a message holds the
number and the engine decodes it.

The order is that of the source: the capability bits first, then the enumerations with their
numbers, then one structure for each message and the sum of them, `Body`. A message is a value
here, and how it is put into a frame and read back is the subject of the modules on framing and on
datagrams.
-/
import SoundPush.Protocol.Media
import SoundPush.Security.Identity
import Mathlib.Data.Rat.Defs

set_option autoImplicit false

namespace SoundPush

/-! ## 1. Capabilities

What a device says it can do, as a set of bits. A bit that a build does not know is kept and never
asked for, so that newer peers are understood as far as they go. -/

/-- Capability bits advertised in hello messages. -/
structure Capabilities where
  bits : BitVec 64
  deriving DecidableEq, Repr

namespace Capabilities

def SOURCE_SYSTEM_AUDIO : BitVec 64 := 1#64 <<< 0
def SOURCE_APP_AUDIO : BitVec 64 := 1#64 <<< 1
def SOURCE_MICROPHONE : BitVec 64 := 1#64 <<< 2
def SOURCE_MIXED : BitVec 64 := 1#64 <<< 3
def SINK_SPEAKER : BitVec 64 := 1#64 <<< 8
def SINK_VIRTUAL_MIC : BitVec 64 := 1#64 <<< 9
def CODEC_OPUS : BitVec 64 := 1#64 <<< 16
def CODEC_PCM : BitVec 64 := 1#64 <<< 17
def FEATURE_REMOTE_CONTROL : BitVec 64 := 1#64 <<< 25
def FEATURE_MIC_MONITOR : BitVec 64 := 1#64 <<< 26
def FEATURE_SESSION_RESUME : BitVec 64 := 1#64 <<< 27
def FEATURE_NETWORK_TEST : BitVec 64 := 1#64 <<< 28
def FEATURE_ROUTE_RECONFIGURE : BitVec 64 := 1#64 <<< 29
def TRANSPORT_TCP : BitVec 64 := 1#64 <<< 30
def FEATURE_DTX : BitVec 64 := 1#64 <<< 31
def FEATURE_RECEIVER_DENOISE : BitVec 64 := 1#64 <<< 32

/-- The device has the capability. -/
def has (c : Capabilities) (bit : BitVec 64) : Bool := c.bits &&& bit == bit

/-- The same device with one capability more. -/
def with_bit (c : Capabilities) (bit : BitVec 64) : Capabilities := ⟨c.bits ||| bit⟩

end Capabilities

/-! ## 2. Enumerations

The numbers of the wire, and the reading of a number that a peer sent. -/

/-- Why a route or a session ends, or a request is refused. -/
inductive StopReason where
  | Unspecified
  | UserStopped
  | PeerStopped
  | PermissionDenied
  | PermissionRevoked
  | DeviceBusy
  | AudioDeviceLost
  | CallInterruption
  | Superseded
  | IncompatibleVersion
  | NetworkLost
  | UnsupportedEndpoint
  | Timeout
  | RateLimited
  | VirtualMicBusy
  deriving DecidableEq, Repr

namespace StopReason

/-- The reason's number on the wire. -/
def code : StopReason → Int
  | Unspecified => 0
  | UserStopped => 1
  | PeerStopped => 2
  | PermissionDenied => 3
  | PermissionRevoked => 4
  | DeviceBusy => 5
  | AudioDeviceLost => 6
  | CallInterruption => 7
  | Superseded => 8
  | IncompatibleVersion => 9
  | NetworkLost => 10
  | UnsupportedEndpoint => 11
  | Timeout => 12
  | RateLimited => 13
  | VirtualMicBusy => 14

/-- Every reason this build knows. -/
def all : List StopReason :=
  [Unspecified, UserStopped, PeerStopped, PermissionDenied, PermissionRevoked, DeviceBusy,
    AudioDeviceLost, CallInterruption, Superseded, IncompatibleVersion, NetworkLost,
    UnsupportedEndpoint, Timeout, RateLimited, VirtualMicBusy]

/-- The reason a peer sent, unless this build does not know it. -/
def try_from (n : Int) : Option StopReason := all.find? (fun r => r.code = n)

/-- What this build sends it also reads. -/
theorem try_from_code (r : StopReason) : try_from r.code = some r := by cases r <;> rfl

end StopReason

/-- Target of a volume or mute command. -/
inductive ControlTarget where
  | RouteStream
  | DeviceSpeakers
  deriving DecidableEq, Repr

/-- The number of a target on the wire. -/
def ControlTarget.code : ControlTarget → Int
  | .RouteStream => 0
  | .DeviceSpeakers => 1

/-! ## 3. Messages

One structure for each message that carries something, in the order of the source. -/

/-- Audio stream parameters for a route. -/
structure StreamProfile where
  codec : Nat
  bitrate : Nat
  channels : Nat
  /-- frame duration in microseconds -/
  frame_us : Nat
  jitter_min_ms : Nat
  jitter_max_ms : Nat
  redundancy : Bool
  adaptive_bitrate : Bool
  /-- the device that plays this stream suppresses noise in it -/
  denoise : Bool
  deriving DecidableEq, Repr

/-- First message in both directions after the secure handshake. The claimed device id is checked
against the authenticated key before the engine sees the message. -/
structure Hello where
  device_id : DeviceId
  device_name : String
  platform : String
  capabilities : Capabilities
  resume_token : Option Bytes
  deriving DecidableEq, Repr

/-- A route is asked for. -/
structure RouteRequest where
  route : UInt32
  source_endpoint : String
  sink_endpoint : String
  /-- the requester is the audio source -/
  requester_is_source : Bool
  profile : Option StreamProfile
  /-- take an endpoint that only accepts one feed away from the route using it -/
  replace : Bool
  deriving DecidableEq, Repr

/-- The route that was asked for runs, with the profile that came of it. -/
structure RouteAccept where
  route : UInt32
  profile : Option StreamProfile
  deriving DecidableEq, Repr

/-- The route that was asked for is refused. -/
structure RouteReject where
  route : UInt32
  reason : Int
  deriving DecidableEq, Repr

/-- A running route gets another profile. -/
structure RouteUpdate where
  route : UInt32
  profile : Option StreamProfile
  deriving DecidableEq, Repr

/-- A route ends. -/
structure RouteStop where
  route : UInt32
  reason : Int
  deriving DecidableEq, Repr

/-- The volume of a route or of the device's speakers. -/
structure VolumeSet where
  route : UInt32
  target : Int
  gain : ℚ
  deriving DecidableEq

/-- A route or the device's speakers are muted, or not any longer. -/
structure MuteSet where
  route : UInt32
  target : Int
  muted : Bool
  deriving DecidableEq, Repr

/-- Receiver feedback to the sender (1 Hz). -/
structure StatsReport where
  route : UInt32
  packets_received : UInt32
  packets_lost : UInt32
  deriving DecidableEq, Repr

/-- A single-use resume token for the next connection to the issuing device. -/
structure SessionTicket where
  token : Bytes
  lifetime_secs : Nat
  deriving DecidableEq, Repr

/-- The peer is asked to echo probes for a while. -/
structure NetTestStart where
  test_id : UInt32
  duration_ms : Nat
  deriving DecidableEq, Repr

/-- Whether it will. -/
structure NetTestReady where
  test_id : UInt32
  accepted : Bool
  deriving DecidableEq, Repr

/-- Sent by an untrusted peer after `Hello` to start pairing; the proof of the QR secret is absent
for code pairing. -/
structure PairRequest where
  qr_proof : Option Bytes
  deriving DecidableEq, Repr

/-- The messages. -/
inductive Body where
  | Hello (hello : Hello)
  | RouteRequest (req : RouteRequest)
  | RouteAccept (acc : RouteAccept)
  | RouteReject (rej : RouteReject)
  | RouteUpdate (update : RouteUpdate)
  | RouteStop (stop : RouteStop)
  | VolumeSet (v : VolumeSet)
  | MuteSet (m : MuteSet)
  | StatsReport (stats : StatsReport)
  | Ping
  | Pong
  | PermissionChanged (permissions : UInt32)
  | Notice (key : String)
  | Goodbye (reason : Int)
  | PairRequest (req : PairRequest)
  | PairResult (accepted : Bool)
  | SessionTicket (ticket : SessionTicket)
  | NetTestStart (start : NetTestStart)
  | NetTestReady (ready : NetTestReady)
  | NetTestStop (test_id : UInt32)
  deriving DecidableEq

end SoundPush
