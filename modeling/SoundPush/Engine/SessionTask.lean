/-
`SessionTask` -- one task per connection, from `sp-engine/src/session.rs`: the
handshake, then the loop that passes control messages to the engine, executes its
commands, and answers or delivers datagrams.

Every `await` of the source is a phase, and an input is what ends it; what a step
does besides is its list of `SessionOut`s, in order. The time of an input is in
nanoseconds. Control messages are counted in exact arithmetic (`RateLimit`).
-/
import SoundPush.Engine.Actor
import SoundPush.Engine.RateLimit
import SoundPush.Protocol.Datagram
import SoundPush.Protocol.Version

set_option autoImplicit false

namespace SoundPush

/-! ## 1. What a peer sends -/

/-- A hello as it comes from the wire: its device id is a claim, of any length. -/
structure PeerHello where
  device_id : Bytes
  device_name : String
  platform : String
  capabilities : Capabilities
  resume_token : Option Bytes
  protocol_min : UInt32
  protocol_max : UInt32
  deriving DecidableEq, Repr

def DeviceId.try_from_slice (bytes : Bytes) : Option DeviceId :=
  if bytes.length = 16 then some ⟨BitVec.ofNat 128 (get_be bytes)⟩ else none

namespace PeerHello

def claimed (h : PeerHello) : Option DeviceId := DeviceId.try_from_slice h.device_id

/-- The range of versions that the peer supports. -/
def range (h : PeerHello) : VersionRange :=
  ⟨.from_u32 h.protocol_min, .from_u32 h.protocol_max⟩

/-- What the engine reads of it. -/
def hello (h : PeerHello) : Hello :=
  { device_id := h.claimed.getD ⟨0⟩
    device_name := h.device_name
    platform := h.platform
    capabilities := h.capabilities
    resume_token := h.resume_token }

end PeerHello

/-- The hello that an engine sends. -/
def Hello.announced (h : Hello) (versions : VersionRange) : PeerHello :=
  { device_id := put_be 16 h.device_id.bytes.toNat
    device_name := h.device_name
    platform := h.platform
    capabilities := h.capabilities
    resume_token := h.resume_token
    protocol_min := versions.min.to_u32
    protocol_max := versions.max.to_u32 }

/-- A control message with a body this build knows. -/
inductive ControlMsg where
  | Hello (hello : PeerHello)
  | Body (body : SoundPush.Body)
  deriving DecidableEq

/-- What the engine reads of a message. -/
def ControlMsg.body : ControlMsg → SoundPush.Body
  | .Hello hello => .Hello hello.hello
  | .Body body => body

def ControlMsg.is_goodbye : ControlMsg → Bool
  | .Body (.Goodbye _) => true
  | _ => false

/-! ## 2. The task -/

def CONTROL_RATE : ℚ := 100
def CONTROL_BURST : ℚ := 400

/-- A peer that keeps flooding after this many dropped messages is disconnected. -/
def MAX_DROPPED_CONTROL : Nat := 1000

/-- Echoes a responder sends per second at most. -/
def ECHO_RATE : ℚ := 400

inductive SessionCmd where
  | Send (msg : ControlMsg)
  | AddSink (route : UInt8) (sink : Nat)
  | RemoveSink (route : UInt8)
  | ArmEcho (test_id : UInt32) (until_ : Nat)
  | ProbeSink (sink : Option Nat)
  | Close (reason : StopReason)

inductive SessionEvent where
  | Established (est : Established)
  | Control (msg : ControlMsg)
  | Closed (reason : StopReason)
  | HandshakeFailed (incompatible : Bool)
  deriving DecidableEq

/-- What the task waits for. -/
inductive SessionPhase where
  /-- the control stream -/
  | Opening
  /-- its hello to go out, before the peer's is read -/
  | Greeting
  /-- the peer's hello -/
  | Listening
  /-- its hello to go out, after the peer's was read -/
  | Answering (peer : PeerHello)
  /-- the goodbye to a peer without a common version -/
  | Refusing
  /-- the pair request to go out -/
  | Pairing (peer : PeerHello)
  /-- a message, a command or a datagram -/
  | Running
  /-- a message to go out -/
  | Sending (msg : ControlMsg)
  /-- the goodbye of a session that the engine closes -/
  | Leaving (reason : StopReason)
  /-- a moment for the goodbye to leave -/
  | Parting (reason : StopReason)
  | Over
  deriving DecidableEq

inductive SessionOut where
  /-- a message is handed to the transport -/
  | Hand (msg : ControlMsg)
  | Report (event : SessionEvent)
  | CloseConn (code : UInt32)
  | Finish
  | SendDatagram (bytes : Bytes)
  /-- a packet goes to its route's receiver -/
  | Push (sink : Nat) (packet : MediaPacket)
  /-- an echo goes to the running network test -/
  | Probed (sink : Nat) (probe : Probe) (received : Nat)

/-- What ends a wait. -/
inductive SessionAct where
  | Opened (ok : Bool)
  | Sent (ok : Bool)
  | Received (msg : Option ControlMsg)
  | TimedOut
  | Slept
  | Command (cmd : Option SessionCmd)
  | Datagram (bytes : Option Bytes)
  | EngineStopped

structure SessionInput where
  now : Nat
  act : SessionAct

structure SessionTask where
  conn_id : Nat
  conn : SecureConnection
  dialed : Bool
  local_hello : PeerHello
  pair : Option PairRequest
  /-- the versions this build supports -/
  versions : VersionRange
  phase : SessionPhase
  /-- someone receives its events -/
  engine : Bool
  sinks : Table UInt8 Nat
  control_limit : RateLimit
  dropped_control : Nat
  echo : Option (EchoArmed × RateLimit)
  probe_sink : Option Nat

/-- An instant in seconds. -/
def secs (now : Nat) : ℚ := (now : ℚ) / 10 ^ 9

namespace SessionTask

/-- The task of a connection whose transport handshake is done. -/
def start (conn_id : Nat) (conn : SecureConnection) (dialed : Bool) (local_hello : PeerHello)
    (pair : Option PairRequest) (versions : VersionRange) : SessionTask :=
  { conn_id, conn, dialed, local_hello, pair, versions
    phase := .Opening, engine := true, sinks := ∅, control_limit := .new 0 0 0
    dropped_control := 0, echo := none, probe_sink := none }

/-- An event for the engine, while it receives them. -/
def report (t : SessionTask) (event : SessionEvent) : List SessionOut :=
  if t.engine then [.Report event] else []

def ended (t : SessionTask) : SessionTask := { t with phase := .Over }

/-- The handshake fails. -/
def fail (t : SessionTask) (code : UInt32) : SessionTask × List SessionOut :=
  (t.ended, .CloseConn code :: t.report (.HandshakeFailed false))

/-- The end of the loop. -/
def finish (t : SessionTask) (reason : StopReason) : SessionTask × List SessionOut :=
  (t.ended, .CloseConn 0 :: t.report (.Closed reason))

/-- The handshake is done. -/
def establish (t : SessionTask) (now : Nat) (peer : PeerHello) :
    SessionTask × List SessionOut :=
  if t.engine then
    let est : Established :=
      { conn_id := t.conn_id, conn := t.conn, hello := peer.hello, dialed := t.dialed }
    ({ t with
      phase := .Running
      control_limit := .new CONTROL_RATE CONTROL_BURST (secs now) }, [.Report (.Established est)])
  else (t.ended, [.CloseConn 0])

/-- The message whose hand-over the task waits for. -/
def pending (t : SessionTask) : Option ControlMsg :=
  match t.phase with
  | .Greeting | .Answering _ => some (.Hello t.local_hello)
  | .Refusing => some (.Body (.Goodbye StopReason.IncompatibleVersion.code))
  | .Pairing _ => t.pair.map fun pair => .Body (.PairRequest pair)
  | .Sending msg => some msg
  | .Leaving reason => some (.Body (.Goodbye reason.code))
  | _ => none

variable [Crypto]

/-- Both hellos are exchanged: check the claimed device id and the versions. -/
def greeted (t : SessionTask) (now : Nat) (peer : PeerHello) : SessionTask × List SessionOut :=
  if peer.claimed ≠ some t.conn.peer_public_key.device_id then t.fail 2
  else if (t.versions.negotiate peer.range).isNone then ({ t with phase := .Refusing }, [])
  else if t.pair.isSome then ({ t with phase := .Pairing peer }, [])
  else t.establish now peer

/-- A hand-over ends. -/
def sent (t : SessionTask) (now : Nat) (ok : Bool) : SessionTask × List SessionOut :=
  let handed := if ok then t.pending.toList.map .Hand else []
  let next :=
    match t.phase with
    | .Greeting => if ok then ({ t with phase := .Listening }, []) else t.fail 1
    | .Answering peer => if ok then t.greeted now peer else t.fail 1
    | .Refusing => (t.ended, .CloseConn 3 :: t.report (.HandshakeFailed true))
    | .Pairing peer =>
        if ok then t.establish now peer else (t.ended, t.report (.HandshakeFailed false))
    | .Sending _ => if ok then ({ t with phase := .Running }, []) else t.finish .NetworkLost
    | .Leaving reason => ({ t with phase := .Parting reason }, [.Finish])
    | _ => (t, [])
  (next.1, handed ++ next.2)

/-- A control message in the loop. -/
def on_message (t : SessionTask) (now : Nat) (msg : ControlMsg) : SessionTask × List SessionOut :=
  match msg with
  | .Body (.Goodbye reason) => t.finish ((StopReason.try_from reason).getD .PeerStopped)
  | _ =>
      let limit := t.control_limit.allow (secs now)
      let t := { t with control_limit := limit.1 }
      if !limit.2 then
        -- a flood is dropped here instead of queueing in the actor
        let t := { t with dropped_control := t.dropped_control + 1 }
        if MAX_DROPPED_CONTROL < t.dropped_control then t.finish .Unspecified else (t, [])
      else if t.engine then (t, [.Report (.Control msg)])
      else t.finish .UserStopped

def on_command (t : SessionTask) (now : Nat) : SessionCmd → SessionTask × List SessionOut
  | .Send msg => ({ t with phase := .Sending msg }, [])
  | .AddSink route sink => ({ t with sinks := t.sinks.insert route sink }, [])
  | .RemoveSink route => ({ t with sinks := t.sinks.erase route }, [])
  | .ArmEcho test_id until_ =>
      ({ t with echo := some (⟨test_id, until_⟩, .new ECHO_RATE ECHO_RATE (secs now)) }, [])
  | .ProbeSink sink => ({ t with probe_sink := sink }, [])
  | .Close reason => ({ t with phase := .Leaving reason }, [])

/-- A datagram in the loop. -/
def on_datagram (t : SessionTask) (now : Nat) (bytes : Bytes) : SessionTask × List SessionOut :=
  match SoundPush.on_datagram (t.echo.map Prod.fst) now true bytes with
  | .dropped => (t, [])
  | .echoed echo =>
      -- the limit is asked last
      match t.echo with
      | none => (t, [])
      | some (armed, limit) =>
          let allowed := limit.allow (secs now)
          ({ t with echo := some (armed, allowed.1) },
            if allowed.2 then [.SendDatagram echo] else [])
  | .measured probe => (t, (t.probe_sink.map fun sink => .Probed sink probe now).toList)
  | .media packet =>
      (t, ((t.sinks.get packet.header.route).map fun sink => .Push sink packet).toList)

def step (t : SessionTask) (i : SessionInput) : SessionTask × List SessionOut :=
  match i.act with
  | .Opened ok =>
      if ok then ({ t with phase := if t.dialed then .Greeting else .Listening }, [])
      else t.fail 1
  | .Sent ok => t.sent i.now ok
  | .Received msg =>
      match t.phase, msg with
      | .Listening, some (.Hello peer) =>
          if t.dialed then t.greeted i.now peer else ({ t with phase := .Answering peer }, [])
      | .Listening, _ => t.fail 1
      | _, some msg => t.on_message i.now msg
      | _, none => t.finish .NetworkLost
  | .TimedOut => t.fail 1
  | .Slept =>
      match t.phase with
      | .Parting reason => t.finish reason
      | _ => (t, [])
  | .Command (some cmd) => t.on_command i.now cmd
  | .Command none => t.finish .UserStopped
  | .Datagram (some bytes) => t.on_datagram i.now bytes
  | .Datagram none => t.finish .NetworkLost
  | .EngineStopped => ({ t with engine := false }, [])

/-- The inputs that a phase waits for. -/
def waits (t : SessionTask) (act : SessionAct) : Bool :=
  match act with
  | .Opened _ => t.phase = .Opening
  | .Sent _ => t.pending.isSome
  | .Received _ => t.phase = .Listening || t.phase = .Running
  | .TimedOut =>
      match t.phase with
      | .Opening | .Greeting | .Listening | .Answering _ => true
      | _ => false
  | .Slept =>
      match t.phase with
      | .Parting _ => true
      | _ => false
  | .Command _ | .Datagram _ => t.phase = .Running
  | .EngineStopped => true

end SessionTask
end SoundPush
