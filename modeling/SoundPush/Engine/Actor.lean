/-
`Actor` -- the state of the engine actor (`sp-engine/src/actor.rs`), what it
hears from its surroundings and what it does to them.

The actor owns all state and handles one event at a time. A handler here is a
function of the state and of an `Env`: the clock, the platform hooks, the disk
and the random values of that event, all of which hold still while one event is
handled. What a handler sends, starts, answers or asks of the platform is
appended to `out`.

The state is one record, as in the source, in layers. `Standing` is whom the user
decided about: trusted devices, pairings, waiting prompts. `Access` adds what is
remembered of connections (dials, resume tokens), `Tables` the sessions and the
routes, and `Local` holds the rest: settings, audio, timers and the effects.
Messages, answers and audio groups leave `Tables` as it is, as the simp set says.

Left out is what no handler reads back: the published snapshot and its views,
the security log, the texts of notices, discovery and its beacons, the list of
audio devices, link-health badges and the idle timer of the audio backends.
-/
import SoundPush.Engine.Settings
import SoundPush.Engine.Limits

set_option autoImplicit false

namespace SoundPush

/-! ## 1. Errors and answers -/

inductive EngineError where
  | DeviceNotFound
  | Unreachable
  | NetworkBlocked
  | FirewallBlocked
  | NotPaired
  | PairingRejected
  | PairingRateLimited
  | Revoked
  | IncompatibleVersion
  | PeerDenied
  | MicPermissionDenied
  | AudioDevice (detail : String)
  | LoopbackUnsupported
  | VirtualMicMissing
  | VirtualMicBusy
  | RouteNotFound
  | TooManyReceivers
  | InvalidInput (detail : String)
  | Storage
  | Cancelled
  | Internal (detail : String)
  deriving DecidableEq, Repr

/-- A route's key: its peer and its id within the session. -/
structure RouteKey where
  peer : DeviceId
  id : UInt8
  deriving DecidableEq, Repr

/-- What a caller is told when a command succeeds. -/
inductive Answer where
  | Done
  | Started (key : RouteKey)
  | Report (report : Nat)
  deriving DecidableEq, Repr

/-- Where a command's answer goes: to its caller, or nowhere when the engine started the work
itself and dropped the receiving end. -/
inductive Reply where
  | caller (id : Nat)
  | dropped
  deriving DecidableEq, Repr

/-! ## 2. Audio sources and controls -/

/-- What a capture records. -/
inductive CaptureSource where
  | DefaultInput
  | Input (device : String)
  | SystemLoopback (device : Option String)
  | Application (process : String) (exclude : Bool)
  deriving DecidableEq, Repr

inductive RenderTarget where
  | DefaultOutput
  | Output (device : String)
  deriving DecidableEq, Repr

/-- What an encoder group captures. -/
inductive SourceKey where
  | System (device : Option String)
  | Application (process : String) (exclude : Bool)
  | Apps
  | Mic (device : Option String)
  /-- system audio and the microphone summed into one stream -/
  | Mixed (system mic : SourceKey)
  deriving DecidableEq, Repr

/-- Routes with equal keys share one capture and encoder. -/
structure EncoderKey where
  source : SourceKey
  codec : Nat
  bitrate : Nat
  channels : Nat
  frame_us : Nat
  deriving DecidableEq, Repr

/-- Controls of one route's share of an encoder. -/
structure SenderControls where
  muted : Bool
  bitrate : Nat
  expected_loss_pct : Nat
  redundancy : Bool
  deriving DecidableEq, Repr

/-- Controls of an encoder group. -/
structure GroupControls where
  muted : Bool
  gain_db : ℚ
  noise_suppression : Bool
  high_pass : Bool
  echo_ducking : Bool
  system_gain_db : ℚ
  mix_gain_db : ℚ
  mix_muted : Bool
  deriving DecidableEq

structure ReceiverControls where
  muted : Bool
  volume : ℚ
  balance : ℚ
  mono : Bool
  av_offset_ms : Int
  noise_suppression : Bool
  jitter_min_ms : Nat
  jitter_max_ms : Nat
  deriving DecidableEq

/-- A route listening to an encoder group. -/
structure GroupMember where
  /-- the group's number for the subscription -/
  id : Nat
  route : RouteKey
  /-- the connection its packets go out on -/
  conn_id : Nat
  /-- silence goes out as header-only packets -/
  dtx : Bool
  deriving DecidableEq, Repr

/-- A running encoder group: the start it came from, its controls, and who listens. -/
structure RunningSender where
  start_id : Nat
  controls : GroupControls
  subscribers : List GroupMember
  next_subscription : Nat
  deriving DecidableEq

/-- A route's place in a running group; it leaves the group when the subscription is dropped. -/
structure Subscription where
  key : EncoderKey
  start_id : Nat
  id : Nat
  deriving DecidableEq, Repr

inductive EncoderSlot where
  /-- the capture is opening with these controls; these routes subscribe once it is ready -/
  | Starting (start_id : Nat) (waiting : List RouteKey) (group : GroupControls)
  | Running (sender : RunningSender)
  deriving DecidableEq

/-! ## 3. Connections and sessions -/

/-- An authenticated connection: the transport vouches for the peer's key. -/
structure SecureConnection where
  peer_public_key : PublicKey
  remote_address : SocketAddr
  /-- whether keying material can be exported for a pairing code -/
  exporter : Bool
  deriving DecidableEq, Repr

/-- A connection whose handshake is done. -/
structure Established where
  conn_id : Nat
  conn : SecureConnection
  hello : Hello
  /-- this device dialed -/
  dialed : Bool
  deriving DecidableEq, Repr

structure Session where
  conn_id : Nat
  conn : SecureConnection
  hello : Hello
  dialed : Bool
  next_route : UInt8
  connected_at : Instant
  deriving DecidableEq, Repr

/-- The next route id; ids keep the parity the session began with and skip zero and one. -/
def Session.alloc_route (s : Session) : Session × UInt8 :=
  let next := s.next_route + 2
  ({ s with next_route := if next < 2 then next + 2 else next }, s.next_route)

/-- An authenticated connection whose peer is not trusted yet. -/
structure PendingPairing where
  conn_id : Nat
  conn : SecureConnection
  hello : Hello
  local_confirmed : Bool
  peer_confirmed : Bool
  /-- scanner side of QR pairing: the peer key was pinned from the QR code -/
  qr_scanner : Bool
  created : Instant
  dialed : Bool
  deriving DecidableEq, Repr

/-- Content of a pairing QR code. -/
structure QrPairingPayload where
  device_id : DeviceId
  addresses : List SocketAddr
  secret : Secret
  /-- known only to the displaying device; 0 on the scanning side -/
  expires_unix : Nat
  deriving DecidableEq, Repr

def QR_VALIDITY_SECS : Nat := 300

def QrPairingPayload.is_expired (q : QrPairingPayload) (now_unix : Nat) : Bool :=
  q.expires_unix < now_unix

structure DialState where
  backoff : Backoff
  next_attempt : Instant
  in_flight : Bool
  /-- the dial task in progress, by connection id -/
  task : Option Nat
  deriving DecidableEq, Repr

def new_dial (now : Instant) : DialState :=
  { backoff := .default, next_attempt := now, in_flight := false, task := none }

/-! ## 4. Routes -/

inductive RouteStatus where
  | Requesting
  | WaitingForApproval
  | Starting
  | Active
  | Paused
  | Stopped
  deriving DecidableEq, Repr

structure Route where
  peer : DeviceId
  id : UInt8
  kind : RouteKind
  status : RouteStatus
  requested_locally : Bool
  profile : Option StreamProfile
  /-- local source: the encoder group this route listens to -/
  encoder : Option EncoderKey
  subscription : Option Subscription
  /-- local sink: the start its receiver came from -/
  receiver : Option Nat
  /-- pipeline being opened; a result carrying another id is stale -/
  start_id : Nat
  sender_controls : Option SenderControls
  receiver_controls : Option ReceiverControls
  keep_running : Bool
  volume : ℚ
  muted : Bool
  reply : Option Reply
  stable_secs : Nat
  clean_secs : Nat
  last_received : Nat
  last_missing : Nat
  loss_pct : ℚ
  quality_fallback : QualityFallback
  paused_at : Option Instant
  deadline : Option Instant
  deriving DecidableEq

def Route.key (r : Route) : RouteKey := ⟨r.peer, r.id⟩

def new_route (peer : DeviceId) (id : UInt8) (kind : RouteKind) (requested_locally : Bool)
    (volume : ℚ) : Route :=
  { peer, id, kind, requested_locally, volume
    status := .Starting
    profile := none
    encoder := none
    subscription := none
    receiver := none
    start_id := 0
    sender_controls := none
    receiver_controls := none
    keep_running := false
    muted := false
    reply := none
    stable_secs := 0
    clean_secs := 0
    last_received := 0
    last_missing := 0
    loss_pct := 0
    quality_fallback := .default
    paused_at := none
    deadline := none }

/-- A peer's request waiting for the user's answer. -/
structure PendingRequest where
  peer : DeviceId
  request : RouteRequest
  kind : RouteKind
  expires : Instant
  deriving DecidableEq, Repr

/-- What the operating system is asked to keep alive. -/
structure KeepAlive where
  playback : Bool
  microphone : Bool
  app_audio_capture : Bool
  deriving DecidableEq, Repr

def KeepAlive.default : KeepAlive := ⟨false, false, false⟩

inductive Phase where
  | AwaitingReady (deadline : Instant)
  | Running
  | Finished
  deriving DecidableEq, Repr

inductive NetworkTestStatus where
  | Running
  | Done
  | Failed
  | Cancelled
  deriving DecidableEq, Repr

structure NetTest where
  test_id : UInt32
  phase : Phase
  replies : List Reply
  status : NetworkTestStatus
  deriving DecidableEq, Repr

/-- Starting the phone microphone when another app opens the virtual microphone, and routes
reopened after their device failed. -/
structure LocalAudio where
  last_poll : Option Instant
  handled_use : Bool
  auto_route : Option RouteKey
  idle_since : Option Instant
  reopened : Table RouteKey Instant

def LocalAudio.default : LocalAudio := ⟨none, false, none, none, ∅⟩

/-! ## 5. Effects -/

/-- Work on a connection; it reports back with events. -/
inductive Call where
  /-- walk candidate addresses, accepting only the pinned device -/
  | Dial (conn_id : Nat) (pinned : Option DeviceId) (pair : Option PairRequest)
      (target : Option DeviceId)
  /-- exchange hellos on a connection, then pass its control messages on -/
  | RunSession (conn_id : Nat) (conn : SecureConnection) (dialed : Bool) (hello : Hello)
      (pair : Option PairRequest)
  deriving DecidableEq, Repr

/-- The other work the actor starts; each task reports back with an event. -/
inductive Task where
  | OpenSender (key : EncoderKey) (start_id : Nat) (source : CaptureSource)
      (mix : Option CaptureSource)
  | OpenReceiver (peer : DeviceId) (route : UInt8) (start_id : Nat) (target : RenderTarget)
  | NetworkTest (peer : DeviceId) (test_id : UInt32)
  deriving DecidableEq, Repr

inductive Output where
  | Send (conn_id : Nat) (body : Body)
  | Close (conn_id : Nat) (reason : StopReason)
  | AddSink (conn_id : Nat) (route : UInt8)
  | RemoveSink (conn_id : Nat) (route : UInt8)
  | ArmEcho (conn_id : Nat) (test_id : UInt32) (until_ : Instant)
  | ProbeSink (conn_id : Nat) (attached : Bool)
  | Answer (caller : Nat) (result : Except EngineError Answer)
  | Spawn (task : Task)
  | Abort (conn_id : Nat)
  | AbortTest (test_id : UInt32)
  | KeepAlive (reason : KeepAlive)
  | SetSpeakersMuted (muted : Bool)
  | Notice (key : String)
  | ErrorNotice (error : EngineError)

/-- What one event sees of the world outside. -/
structure Env where
  now : Instant
  now_unix : Nat
  /-- platform hooks -/
  platform : String
  supports_loopback : Bool
  app_audio_source : Option CaptureSource
  virtual_mic_target : Option String → Option RenderTarget
  microphone_permitted : Bool
  virtual_mic_in_use : Bool
  speakers_supported : Bool
  inbound_blocked : Bool
  tcp_listening : Bool
  monitor_error : Option EngineError
  /-- the disk takes what is written -/
  trust_saved : Bool
  settings_saved : Bool
  /-- random values, and the addresses this device answers on -/
  rand : DeviceId → Nat
  token : Bytes
  secret : Secret
  local_addresses : List SocketAddr
  /-- packets received and missing on a route, and overruns of the microphone captures -/
  counters : RouteKey → Nat × Nat
  capture_overruns : Nat

/-! ## 6. The state -/

/-- Whom the user decided about, what still waits for a decision, and the connections begun. -/
structure Standing where
  /-- the local device's public key -/
  identity : PublicKey
  trust : TrustStore
  /-- connection id to device, for established sessions -/
  conn_index : Table Nat DeviceId
  pairings : Table DeviceId PendingPairing
  /-- untrusted listener-side connections waiting for a PairRequest -/
  unpaired : Table Nat (Established × Instant)
  /-- outgoing pairing dials by connection id; true for QR pairing -/
  pair_dials : Table Nat Bool
  qr : Option QrPairingPayload
  requests : Table Nat PendingRequest
  next_request_id : Nat
  next_conn_id : Nat
  /-- the work on connections this event has started, in order -/
  calls : List Call

/-- What else the engine remembers of its connections. -/
structure Access extends Standing where
  dials : Table DeviceId DialState
  /-- connection id to the trusted device a dial in progress is for -/
  dial_targets : Table Nat DeviceId
  pairing_limiter : PairingLimiter
  resume : ResumeTokens
  trust_flushed_at : Instant

/-- Who is connected and what streams between us. -/
structure Tables extends Access where
  sessions : Table DeviceId Session
  routes : List Route

/-- The local side: settings, audio, timers, and the effects so far. -/
structure Local where
  settings : Settings
  discovered : Table DeviceId (List SocketAddr)
  mic_muted : Bool
  monitor : Bool
  denoise : DenoiseSupervisor
  keep_alive : KeepAlive
  foreground : Bool
  prefer_lossless : Bool
  peer_speakers_muted : Table DeviceId Bool
  /-- peers that muted this device's speakers remotely -/
  speakers_muted_by : Table DeviceId Unit
  announced_caps : Capabilities
  encoders : Table EncoderKey EncoderSlot
  next_start_id : Nat
  net_tests : Table DeviceId NetTest
  next_test_id : UInt32
  local_audio : LocalAudio
  flaps : Table DeviceId FlapDetector
  stabilized : Table DeviceId Instant
  /-- what has been sent, started, answered and asked for, in order -/
  out : List Output

structure Actor extends Tables, Local

namespace Actor

/-- The engine as it starts, with what it loaded from disk. -/
def start (identity : PublicKey) (trust : TrustStore) (settings : Settings) : Actor :=
  { identity, trust, settings
    conn_index := ∅
    pairings := ∅
    unpaired := ∅
    dials := ∅
    dial_targets := ∅
    pair_dials := ∅
    next_conn_id := 1
    calls := []
    qr := none
    pairing_limiter := .default
    resume := .default
    requests := ∅
    next_request_id := 1
    trust_flushed_at := 0
    discovered := ∅
    sessions := ∅
    routes := []
    mic_muted := false
    monitor := false
    denoise := .default
    keep_alive := .default
    foreground := true
    prefer_lossless := false
    peer_speakers_muted := ∅
    speakers_muted_by := ∅
    announced_caps := ⟨0⟩
    encoders := ∅
    next_start_id := 0
    net_tests := ∅
    next_test_id := 0
    local_audio := .default
    flaps := ∅
    stabilized := ∅
    out := [] }

end Actor

end SoundPush
