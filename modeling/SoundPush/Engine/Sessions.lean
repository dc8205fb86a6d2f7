/-
`Sessions` -- who is connected, in the engine actor: dialing, handshakes, pairing,
the session table, and what ends a session.

A connection is in one of three places once its handshake is done: among the
`unpaired` ones, behind one of the `pairings`, or in a session with its entry in
`conn_index`. The handlers below move it between them.
-/
import SoundPush.Engine.LocalAudio
import SoundPush.Engine.NetworkTest

set_option autoImplicit false

namespace SoundPush

namespace Actor

variable [Crypto]

def close (s : Actor) (conn_id : Nat) (reason : StopReason) : Actor :=
  s.emit (.Close conn_id reason)

/-! ## 1. Dialing -/

/-- Race the candidates for a device in a task of its own; the result is the connection id the
session will use. -/
def dial (s : Actor) (pinned : Option DeviceId) (pair : Option PairRequest)
    (target : Option DeviceId) : Actor × Nat :=
  let conn_id := s.next_conn_id
  let s := { s with
    next_conn_id := conn_id + 1
    calls := s.calls ++ [.Dial conn_id pinned pair target] }
  let s :=
    match target with
    | some id =>
        { s with
          dial_targets := s.dial_targets.insert conn_id id
          dials := s.dials.modify id fun d => { d with task := some conn_id } }
    | none => s
  (s, conn_id)

/-- End a dial in progress for `id` and free its dial state. -/
def cancel_dial (s : Actor) (id : DeviceId) : Actor :=
  let s :=
    match (s.dials.get id).bind DialState.task with
    | some conn_id => s.emit (.Abort conn_id)
    | none => s
  { s with
    dials := s.dials.modify id fun d => { d with task := none, in_flight := false }
    dial_targets := s.dial_targets.retain fun _ target => target ≠ id }

/-- Phones dial a computer's `adb reverse` forward on loopback (USB). -/
def usb_possible (env : Env) (peer_platform : Option String) : Bool :=
  let desktop_peer :=
    match peer_platform with
    | none => true
    | some p => p == "windows" || p == "macos" || p == "linux"
  env.platform == "android" && desktop_peer

def try_dial_trusted (env : Env) (s : Actor) (id : DeviceId) : Actor :=
  match s.trust.get id with
  | none => s
  | some device =>
      if s.sessions.has id || device.blocked then s
      else
        let addrs := (s.discovered.get id).getD [] ++ device.last_addresses
        let d := (s.dials.get id).getD (new_dial env.now)
        let s := { s with dials := s.dials.insert id d }
        if d.in_flight || env.now < d.next_attempt then s
        else if addrs.isEmpty && !usb_possible env (some device.platform) then
          let (backoff, delay) := d.backoff.next_delay (env.rand id)
          let d := { d with backoff, next_attempt := env.now + delay }
          { s with dials := s.dials.insert id d }
        else
          let s := { s with dials := s.dials.insert id { d with in_flight := true } }
          -- pinned by device id during the handshake; `on_established` then requires the exact key
          (s.dial (some id) none (some id)).1

/-- A dial or its handshake failed: try again later. -/
def retry_later (env : Env) (id : DeviceId) (d : DialState) : DialState :=
  let (backoff, delay) := d.backoff.next_delay (env.rand id)
  { d with in_flight := false, task := none, backoff, next_attempt := env.now + delay }

def on_dial_failed (env : Env) (s : Actor) (conn_id : Nat) (target : Option DeviceId)
    (error : EngineError) : Actor :=
  let s := { s with
    pair_dials := s.pair_dials.erase conn_id
    dial_targets := s.dial_targets.erase conn_id }
  match target.filter fun id => (s.trust.get id).isSome with
  | some id =>
      let d := (s.dials.get id).getD (new_dial env.now)
      { s with dials := s.dials.insert id (retry_later env id d) }
  | none => s.error_notice env error

def on_handshake_failed (env : Env) (s : Actor) (conn_id : Nat) (incompatible : Bool) : Actor :=
  let s := { s with pair_dials := s.pair_dials.erase conn_id }
  let s :=
    match s.dial_targets.get conn_id with
    | some id =>
        { s with
          dial_targets := s.dial_targets.erase conn_id
          dials := s.dials.modify id (retry_later env id) }
    | none => s
  if incompatible then s.error_notice env .IncompatibleVersion else s

/-- Dial to pair: true for a scanned code, false for code comparison. -/
def pair_dial (s : Actor) (pinned : Option DeviceId) (pair : PairRequest)
    (target : Option DeviceId) (qr : Bool) : Actor :=
  let (s, conn_id) := s.dial pinned (some pair) target
  { s with pair_dials := s.pair_dials.insert conn_id qr }

/-- Pair with the device whose code was scanned; `payload` is the parsed text. -/
def pair_with_qr (s : Actor) (payload : Option QrPairingPayload) :
    Actor × Except EngineError Answer :=
  match payload with
  | none => (s, .error (.InvalidInput "pairing code"))
  | some payload =>
      if payload.device_id = s.identity.device_id then
        (s, .error (.InvalidInput "this is your own pairing code"))
      else
        let proof := pairing_proof payload.secret (.of_public_key s.identity) payload.device_id
        (s.pair_dial (some payload.device_id) { qr_proof := some proof } (some payload.device_id)
          true, .ok .Done)

/-! ## 2. What a session leaves behind -/

/-- The session with `id` ended: its "Mute PC" in either direction ends with it. -/
def forget_speaker_mutes (s : Actor) (id : DeviceId) : Actor :=
  let had := s.speakers_muted_by.has id
  let s := { s with
    peer_speakers_muted := s.peer_speakers_muted.erase id
    speakers_muted_by := s.speakers_muted_by.erase id }
  let sending_muted := s.settings.capture.mute_local_speakers &&
    s.routes.any fun r => r.kind == .SendSystemAudio
  if had && s.speakers_muted_by.is_empty && !sending_muted then s.emit (.SetSpeakersMuted false)
  else s

/-- Anti-flap: more than five drops in two minutes switch the device's routes to the Stable
profile for a while. -/
def record_reconnect (env : Env) (s : Actor) (id : DeviceId) : Actor :=
  let (flap, flapping) := ((s.flaps.get id).getD .default).record env.now
  let s := { s with flaps := s.flaps.insert id flap }
  if s.stabilized.has id then { s with stabilized := s.stabilized.insert id env.now }
  else if flapping then
    { s with stabilized := s.stabilized.insert id env.now }.notice "notice.unstableConnection"
  else s

/-- Take a device's session out of both tables and close its connection. -/
def drop_session (s : Actor) (id : DeviceId) (reason : StopReason) : Actor :=
  match s.sessions.get id with
  | some session =>
      { s with
        sessions := s.sessions.erase id
        conn_index := s.conn_index.erase session.conn_id }.close session.conn_id reason
  | none => s

def forget_dial (s : Actor) (id : DeviceId) : Actor :=
  let s := s.cancel_dial id
  { s with dials := s.dials.erase id }

/-- All that a device has here but its session ends. -/
def retire (env : Env) (s : Actor) (id : DeviceId) : Actor :=
  let s := { s with flaps := s.flaps.erase id, stabilized := s.stabilized.erase id }
  let s := s.remove_routes_for env id
  let s := s.forget_dial id
  let s := { s with resume := s.resume.forget id }
  s.end_network_test id .Revoked

/-- The device was forgotten or blocked. -/
def revoke (env : Env) (s : Actor) (id : DeviceId) : Actor :=
  ((s.retire env id).drop_session id .PermissionRevoked).forget_speaker_mutes id

/-! ## 3. Sessions -/

/-- Hints only: written by the periodic flush, not on every connection. -/
def remember_connection (env : Env) (s : Actor) (id : DeviceId) (est : Established) : Actor :=
  { s with
    trust := s.trust.update_hints id fun d =>
      let addr := est.conn.remote_address
      { d with
        last_seen_unix := env.now_unix
        name := est.hello.device_name
        last_addresses := (addr :: d.last_addresses.filter (· ≠ addr)).take 4 } }

/-- Hand the peer a token to resume this session after a network interruption. -/
def issue_ticket (env : Env) (s : Actor) (est : Established) : Actor :=
  if est.hello.capabilities.has Capabilities.FEATURE_SESSION_RESUME then
    { s with resume := s.resume.issue est.conn.peer_public_key env.token env.now }.emit
      (.Send est.conn_id
        (.SessionTicket { token := env.token, lifetime_secs := TOKEN_LIFETIME_SECS }))
  else s

def new_session (env : Env) (est : Established) : Session :=
  { conn_id := est.conn_id, conn := est.conn, hello := est.hello, dialed := est.dialed
    next_route := if est.dialed then 2 else 1
    connected_at := env.now }

/-- The connection becomes the device's session. -/
def install_session (env : Env) (s : Actor) (id : DeviceId) (est : Established) : Actor :=
  let s := s.remember_connection env id est
  -- a dial still walking candidates for this device is now pointless
  let s := s.cancel_dial id
  let s := { s with
    dials := s.dials.modify id fun d => { d with backoff := d.backoff.reset }
    conn_index := s.conn_index.insert est.conn_id id }
  let s := s.issue_ticket env est
  let s := { s with sessions := s.sessions.insert id (new_session env est) }
  s.resume_routes env id

/-- Deterministic tie-break for simultaneous dials: keep the connection dialed by the device with
the lower id; otherwise the newest wins. -/
def keeps_old (env : Env) (s : Actor) (id : DeviceId) (old : Session) (est : Established) : Bool :=
  let local_lower := s.identity.device_id.below id
  old.dialed == local_lower && est.dialed != local_lower && env.now - old.connected_at < 5000

def promote_session (env : Env) (s : Actor) (id : DeviceId) (est : Established) : Actor :=
  match s.sessions.get id with
  | none => s.install_session env id est
  | some old =>
      if s.keeps_old env id old est then
        -- the rejected connection may be our own dial: free its dial state
        (s.close est.conn_id .Superseded).cancel_dial id
      else
        let s := s.drop_session id .Superseded
        let s := s.pause_routes_for env id
        let s := s.end_network_test id .Unreachable
        s.install_session env id est

/-- A trusted device's session ended by itself: what happens to its routes and its next dial. -/
def after_close (env : Env) (s : Actor) (id : DeviceId) (reason : StopReason) : Actor :=
  match reason with
  | .PermissionDenied | .PermissionRevoked =>
      let s := (s.remove_routes_for env id).forget_dial id
      -- the peer no longer trusts this device: redialing would only repeat the refusal
      let s := { s with
        trust := s.trust.update id (fun d => { d with auto_connect := false }) env.trust_saved }
      s.notice "notice.peerForgotUs"
  | .UserStopped => s.remove_routes_for env id
  | _ =>
      let s := s.pause_routes_for env id
      -- a superseded connection was replaced on purpose; it is not a drop
      let s := if reason = .Superseded then s else s.record_reconnect env id
      if (s.trust.get id).any (·.auto_connect) then
        let d := (s.dials.get id).getD (new_dial env.now)
        let d := { d with
          in_flight := false, backoff := d.backoff.reset, next_attempt := env.now + 300 }
        { s with dials := s.dials.insert id d }
      else s

/-- The device behind a connection that is still pairing. -/
def pairing_on (s : Actor) (conn_id : Nat) : Option DeviceId :=
  (s.pairings.pairs.find? fun e => e.2.conn_id = conn_id).map Prod.fst

/-- What was pairing on a connection ends with it, and the user is told why. -/
def close_pairing (env : Env) (s : Actor) (conn_id : Nat) (reason : StopReason) : Actor :=
  match s.pairing_on conn_id with
  | some id =>
      let s := { s with pairings := s.pairings.erase id }
      match reason with
      | .PermissionDenied => s.error_notice env .PairingRejected
      | .RateLimited => s.error_notice env .PairingRateLimited
      | _ => s
  | none => s

def on_closed (env : Env) (s : Actor) (conn_id : Nat) (reason : StopReason) : Actor :=
  let s := { s with unpaired := s.unpaired.erase conn_id }.close_pairing env conn_id reason
  match s.conn_index.get conn_id with
  | none => s
  | some id =>
      let s := { s with conn_index := s.conn_index.erase conn_id }
      if (s.sessions.get id).map Session.conn_id ≠ some conn_id then s
      else
        let s := { s with sessions := s.sessions.erase id }
        let s := s.forget_speaker_mutes id
        let s := s.end_network_test id .Unreachable
        s.after_close env id reason

end Actor

end SoundPush
