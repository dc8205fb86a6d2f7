/-
`Handlers` -- the events of the engine actor and how each is handled: control
messages, the one-second tick, and the commands of the user interface.

The source is one actor with a mailbox: a method for each command and each event, all on the same
state, and an event loop that takes them one by one. Here each method is a function of the state,
and what it reads of the world (the clock, the disk, the audio system, randomness) comes in an
`Env` that is given with the event. Effects are collected in `out` in the order the source brings
them about.

`handle` at the end is the body of the event loop. Whatever comes before it may be called by another
handler as well, so that invariants are proved function by function and only then for `handle`.
-/
import SoundPush.Engine.Pairing

set_option autoImplicit false

namespace SoundPush

/-! ## 1. Events -/

/-- What the user interface asks for. A command names a device or a route by its id; ids that do not
parse are answered or ignored before they get here. `Shutdown` is not among them: the event loop
ends with it, and the actor with the loop. -/
inductive Command where
  | StartPairing (caller : Nat)
  | StopPairing
  | PairWithQr (payload : Option QrPairingPayload) (caller : Nat)
  | PairWithDevice (device_id : DeviceId) (caller : Nat)
  | ConfirmPairing (device_id : DeviceId) (accept : Bool)
  | Connect (device_id : DeviceId)
  | Disconnect (device_id : DeviceId)
  | ForgetDevice (device_id : DeviceId)
  | SetBlocked (device_id : DeviceId) (blocked : Bool)
  | RenameDevice (device_id : DeviceId) (alias_name : Option String)
  | SetAutoConnect (device_id : DeviceId) (enabled : Bool)
  | SetPermission (device_id : DeviceId) (kind : PermissionKind) (policy : Policy)
  | StartRoute (device_id : DeviceId) (kind : RouteKind) (replace : Bool) (caller : Nat)
  | StopRoute (key : RouteKey)
  | SetRouteVolume (key : RouteKey) (volume : ℚ)
  | SetRouteMuted (key : RouteKey) (muted : Bool)
  | SetRouteKeepRunning (key : RouteKey) (keep : Bool)
  | SetPeerSpeakersMuted (device_id : DeviceId) (muted : Bool)
  | RespondRouteRequest (request_id : Nat) (accept remember : Bool)
  | SetMicMuted (muted : Bool)
  | SetMicMonitor (enabled : Bool)
  | AudioDevicesChanged (default_input default_output : Bool)
  | UpdateSettings (settings : Settings) (caller : Nat)
  | NetworkChanged
  | SetForeground (foreground : Bool)
  | PreferLossless (prefer : Bool)
  | SetDeviceProfile (device_id : DeviceId) (profile : Option DeviceProfile)
  | RunNetworkTest (device_id : DeviceId) (caller : Nat)
  | CancelNetworkTest (device_id : DeviceId)

/-- What the event loop receives, from the user, the transport, discovery and the audio system. -/
inductive Event where
  | Command (cmd : Command)
  /-- a connection came in and its transport handshake finished -/
  | Incoming (conn : SecureConnection)
  | AddressIsSelf (addr : SocketAddr)
  | Dialed (conn_id : Nat) (conn : SecureConnection) (pair : Option PairRequest)
  | DialFailed (conn_id : Nat) (target : Option DeviceId) (error : EngineError)
  | Discovered (device_id : DeviceId) (addresses : List SocketAddr)
  | Lost (device_id : DeviceId)
  | AudioFailed (peer : DeviceId) (route : UInt8) (error : EngineError)
  /-- an address the user typed was resolved; the flag says whether to anything -/
  | PairAddressResolved (found : Bool) (caller : Nat)
  | SenderReady (key : EncoderKey) (start_id : Nat) (result : Except EngineError Unit)
  | ReceiverReady (peer : DeviceId) (route : UInt8) (start_id : Nat)
      (result : Except EngineError Unit)
  | EncoderFailed (key : EncoderKey) (error : EngineError)
  | NetTestFinished (peer : DeviceId) (test_id : UInt32) (report : Nat)
  | Established (est : Established)
  | Control (conn_id : Nat) (body : Body)
  | Closed (conn_id : Nat) (reason : StopReason)
  | HandshakeFailed (conn_id : Nat) (incompatible : Bool)
  | Tick

/-- Loss in percent of what a report counts; the sum saturates. -/
def StatsReport.loss_pct (stats : StatsReport) : ℚ :=
  let total := min (stats.packets_received.toNat + stats.packets_lost.toNat) (2 ^ 32 - 1)
  if 0 < total then (stats.packets_lost.toNat : ℚ) * 100 / total else 0

namespace Actor

variable [Crypto]

/-! ## 2. Control messages

What a peer's messages do once they have reached the engine. A message counts for what its
connection is at that moment: waiting for its pairing, pairing, or a session. -/

/-- The user allows the device to change volumes and mutes here. -/
def peer_may_control (s : Actor) (peer : DeviceId) : Bool :=
  match s.trust.get peer with
  | some d => d.permissions.policy .ControlMe == .Allow
  | none => false

/-- A peer sets the volume of a route that is played here. -/
def on_remote_volume (s : Actor) (peer : DeviceId) (v : VolumeSet) : Actor :=
  if !s.peer_may_control peer then s
  else
    s.set_routes <| s.routes.modify_first (has_key ⟨peer, v.route.toUInt8⟩) fun r =>
      let volume := Settings.clamp_between v.gain 0 2
      { r with
        volume
        receiver_controls := r.receiver_controls.map fun c => { c with volume } }

/-- A peer mutes a route that is played here, or the speakers of this device. -/
def on_remote_mute (env : Env) (s : Actor) (peer : DeviceId) (m : MuteSet) : Actor :=
  if !s.peer_may_control peer then s
  else if m.target = ControlTarget.DeviceSpeakers.code then
    let s := { s with
      speakers_muted_by :=
        if m.muted then s.speakers_muted_by.insert peer () else s.speakers_muted_by.erase peer }
    let s := s.emit (.SetSpeakersMuted m.muted)
    if env.speakers_supported then s else s.notice "notice.muteSpeakersUnsupported"
  else
    s.set_routes <| s.routes.modify_first (has_key ⟨peer, m.route.toUInt8⟩) fun r =>
      { r with
        muted := m.muted
        receiver_controls := r.receiver_controls.map fun c => { c with muted := m.muted } }

/-- Adaptive bitrate: down on loss, up after ten clean reports. -/
def adapt_bitrate (r : Route) : Route :=
  match r.sender_controls, r.profile with
  | some c, some p =>
      if !(p.adaptive_bitrate && p.codec == Codec.Opus.id) then r
      else if 2 < r.loss_pct then
        { r with
          sender_controls := some { c with
            bitrate := max (c.bitrate * 3 / 4) 32000
            expected_loss_pct := (r.loss_pct + 1 / 2).floor.toNat }
          stable_secs := 0 }
      else if r.loss_pct < 1 / 2 then
        if 10 ≤ r.stable_secs + 1 then
          { r with
            sender_controls := some { c with
              bitrate := min (c.bitrate * 5 / 4) (max p.bitrate 128000)
              expected_loss_pct := 0 }
            stable_secs := 0 }
        else { r with stable_secs := r.stable_secs + 1 }
      else r
  | _, _ => r

/-- Automatic redundancy: on above 1 % loss, off after ten clean reports. -/
def adapt_redundancy (r : Route) : Route :=
  match r.sender_controls, r.profile with
  | some c, some p =>
      if 1 < r.loss_pct then
        { r with sender_controls := some { c with redundancy := true }, clean_secs := 0 }
      else if r.loss_pct = 0 then
        let clean_secs := r.clean_secs + 1
        { r with
          clean_secs
          sender_controls :=
            some (if 10 ≤ clean_secs ∧ !p.redundancy then { c with redundancy := false } else c) }
      else r
  | _, _ => r

/-- The receiver's report: the encoder adapts to the loss, and so does the redundancy while it
is on automatic. -/
def on_stats (s : Actor) (peer : DeviceId) (stats : StatsReport) : Actor :=
  let auto := (s.settings.stream_for peer.to_hex).redundancy_auto
  s.set_routes <| s.routes.modify_first (has_key ⟨peer, stats.route.toUInt8⟩) fun r =>
    let r := adapt_bitrate { r with loss_pct := stats.loss_pct }
    if auto then adapt_redundancy r else r

/-- A mid-session hello only updates what the peer can do. -/
def on_hello (s : Actor) (peer : DeviceId) (conn_id : Nat) (hello : Hello) : Actor :=
  match s.sessions.get peer with
  | some session =>
      if session.conn_id = conn_id ∧ hello.device_id = session.hello.device_id then
        let session := { session with
          hello := { session.hello with capabilities := hello.capabilities } }
        { s with sessions := s.sessions.insert peer session }
      else s
  | none => s

/-- A token to resume the session with, from its own device. -/
def on_session_ticket (env : Env) (s : Actor) (peer : DeviceId) (conn_id : Nat)
    (ticket : SessionTicket) : Actor :=
  if (s.sessions.get peer).map Session.conn_id = some conn_id then
    { s with resume := s.resume.hold peer ticket.token ticket.lifetime_secs env.now }
  else s

/-- A message on a trusted device's session. -/
def on_session_message (env : Env) (s : Actor) (peer : DeviceId) (conn_id : Nat) (body : Body) :
    Actor :=
  match body with
  | .RouteRequest req => s.on_route_request env peer req
  | .RouteAccept acc => s.on_route_accept env peer acc
  | .RouteReject rej => s.on_route_reject env peer rej
  | .RouteStop stop => s.stop_route_by_key env ⟨peer, stop.route.toUInt8⟩ .PeerStopped false
  | .RouteUpdate update => s.on_route_update env peer update
  | .VolumeSet v => s.on_remote_volume peer v
  | .MuteSet m => s.on_remote_mute env peer m
  | .StatsReport stats => s.on_stats peer stats
  | .Ping | .Pong | .Notice _ | .PermissionChanged _ => s
  | .Hello hello => s.on_hello peer conn_id hello
  | .Goodbye _ | .PairRequest _ | .PairResult _ => s
  | .SessionTicket ticket => s.on_session_ticket env peer conn_id ticket
  | .NetTestStart start => s.on_net_test_start env peer start
  | .NetTestReady ready => s.on_net_test_ready peer ready
  | .NetTestStop test_id => s.on_net_test_stop env peer test_id

/-- A message, by what its connection is. -/
def on_control (env : Env) (s : Actor) (conn_id : Nat) (body : Body) : Actor :=
  match s.unpaired.get conn_id with
  | some (est, _) =>
      -- messages from not-yet-trusted connections: only pairing is allowed
      let s := { s with unpaired := s.unpaired.erase conn_id }
      match body with
      | .PairRequest req => s.on_pair_request env est req
      | _ => s.close est.conn_id .PermissionDenied
  | none =>
      match s.pairing_on conn_id with
      | some id =>
          match body with
          | .PairResult accepted => s.on_pair_result env id accepted
          | _ => s
      | none =>
          match s.conn_index.get conn_id with
          | some peer => s.on_session_message env peer conn_id body
          | none => s

/-! ## 3. Periodic work

What the tick does once a second, one function for each of its parts, in the order of the source.
Times are in milliseconds. -/

/-- Last-seen times and addresses of trusted devices are written at most this often. -/
def TRUST_FLUSH_INTERVAL : Nat := 30000
/-- A paused route waits this long for its device. -/
def PAUSED_EXPIRY : Nat := 120000
/-- A device is held on the Stable profile this long after its last drop. -/
def STABLE_HOLD : Nat := 600000
/-- An untrusted connection may wait this long before it asks to pair. -/
def UNPAIRED_TIMEOUT : Nat := 30000
/-- A pairing may wait this long for the two users. -/
def PAIRING_TIMEOUT : Nat := 120000

/-- Hints about trusted devices are written. -/
def flush_trust (env : Env) (s : Actor) : Actor :=
  { s with trust := s.trust.flush env.trust_saved, trust_flushed_at := env.now }

/-- Route deadlines and the expiry of paused routes. -/
def expired (env : Env) (r : Route) : Bool :=
  r.deadline.any (fun d => d < env.now) ||
    (r.status = .Paused ∧ !r.keep_running ∧
      r.paused_at.any fun p => PAUSED_EXPIRY < env.now - p)

/-- The caller is answered first, so that the stop finds nobody to tell. -/
def expire_route (env : Env) (s : Actor) (key : RouteKey) : Actor :=
  let s :=
    match s.routes.find? (has_key key) with
    | some r =>
        (s.answer_route r (.error .Unreachable)).set_routes
          (s.routes.modify_first (has_key key) fun r => { r with reply := none })
    | none => s
  s.stop_route_by_key env key .Timeout true

/-- The routes that are due when the tick reaches them. -/
def expire_routes (env : Env) (s : Actor) : Actor :=
  ((s.routes.filter (expired env)).map Route.key).foldl (expire_route env) s

/-- One second of a receiving route: what arrived, what is missing, and the report to its sender. -/
def count_route (env : Env) (s : Actor) (r : Route) : Actor × Route :=
  match r.receiver_controls with
  | none => (s, r)
  | some _ =>
      let (received, missing) := env.counters r.key
      let dr := received - r.last_received
      let dm := missing - r.last_missing
      let r := { r with
        last_received := received
        last_missing := missing
        loss_pct := if 0 < dr + dm then (dm : ℚ) * 100 / (dr + dm : Nat) else 0 }
      (s.send_to r.peer (.StatsReport
        { route := r.id.toUInt32, packets_received := UInt32.ofNat dr,
          packets_lost := UInt32.ofNat dm }), r)

/-- The routes in order; the reports go out as they are counted. -/
def count_each (env : Env) : Actor → List Route → Actor × List Route
  | s, [] => (s, [])
  | s, r :: routes =>
      let (s, r) := s.count_route env r
      let (s, routes) := count_each env s routes
      (s, r :: routes)

def count_routes (env : Env) (s : Actor) : Actor :=
  let (s, routes) := count_each env s s.routes
  s.set_routes routes

/-- Devices held on the Stable profile that have been connected long enough go back to their own
latency setting. -/
def expire_stable_holds (env : Env) (s : Actor) : Actor :=
  let expired := (s.stabilized.pairs.filter fun e => STABLE_HOLD ≤ env.now - e.2).map Prod.fst
  expired.foldl
    (fun s id =>
      let s := { s with stabilized := s.stabilized.erase id, flaps := s.flaps.erase id }
      let active := s.routes.filter fun r => r.peer = id ∧ r.status = .Active
      s.reconfigure_each env (active.map Route.key))
    s

/-- Debug logging that has run out is switched off and the settings are saved. -/
def expire_debug_logging (env : Env) (s : Actor) : Actor :=
  match s.settings.expire_debug_logging env.now_unix with
  | (settings, true) => (s.set_settings settings).save_settings env
  | (_, false) => s

/-- What this device says of itself. `peer` is the trusted device it is for, when known; its resume
token is included. -/
def local_hello (env : Env) (s : Actor) (peer : Option DeviceId) : Hello :=
  { device_id := s.identity.device_id
    device_name := s.settings.device_name
    platform := env.platform
    capabilities := s.capability_bits env
    resume_token := peer.bind fun p => s.resume.held_for p env.now }

/-- What this device can do has changed: every session is told. -/
def announce_capabilities (env : Env) (s : Actor) : Actor :=
  let caps := s.capability_bits env
  if caps = s.announced_caps then s
  else
    let s := { s with announced_caps := caps }
    let hello := s.local_hello env none
    s.sessions.pairs.foldl (fun s e => s.emit (.Send e.2.conn_id (.Hello hello))) s

/-- A prompt nobody answered is refused. -/
def expire_requests (env : Env) (s : Actor) : Actor :=
  (s.requests.pairs.filter fun e => e.2.expires < env.now).foldl
    (fun s e =>
      { s with requests := s.requests.erase e.1 }.reject e.2.peer e.2.request.route .Timeout)
    s

/-- An untrusted connection that never asked to pair is closed. -/
def expire_unpaired (env : Env) (s : Actor) : Actor :=
  (s.unpaired.pairs.filter fun e => UNPAIRED_TIMEOUT < env.now - e.2.2).foldl
    (fun s e => { s with unpaired := s.unpaired.erase e.1 }.close e.2.1.conn_id .Timeout)
    s

/-- A pairing nobody finished is closed. -/
def expire_pairings (env : Env) (s : Actor) : Actor :=
  (s.pairings.pairs.filter fun e => PAIRING_TIMEOUT < env.now - e.2.created).foldl
    (fun s e => (s.set_pairings (s.pairings.erase e.1)).close e.2.conn_id .Timeout)
    s

/-- A code that has expired is taken off the screen. -/
def expire_qr (env : Env) (s : Actor) : Actor :=
  if s.qr.any fun q => q.is_expired env.now_unix then { s with qr := none } else s

/-- Auto-connect trusted devices. -/
def auto_connect (env : Env) (s : Actor) : Actor :=
  if !s.settings.auto_connect_trusted then s
  else
    let candidates := s.trust.list.filter fun d =>
      d.auto_connect && !d.blocked && !s.sessions.has d.device_id
    candidates.foldl (fun s d => s.try_dial_trusted env d.device_id) s

/-- One second. -/
def tick (env : Env) (s : Actor) : Actor :=
  let s := s.tick_network_tests env
  let s := { s with resume := s.resume.prune env.now }
  let s := s.prune_encoders
  let s := if TRUST_FLUSH_INTERVAL ≤ env.now - s.trust_flushed_at then s.flush_trust env else s
  let s := s.expire_routes env
  let s := s.count_routes env
  let s := s.update_quality_fallback env
  let s := s.expire_stable_holds env
  let s := s.expire_debug_logging env
  let s := s.announce_capabilities env
  let s := s.check_virtual_mic_use env
  let s := s.check_capture_health env
  let s := s.expire_requests env
  let s := s.expire_unpaired env
  let s := s.expire_pairings env
  let s := s.expire_qr env
  s.auto_connect env

/-! ## 4. Commands

What the user interface asks for. A command that changes who may do what takes effect at once: it
ends the routes and sessions that it no longer allows. -/

/-- The device disconnects on the user's word: no auto reconnect until the user connects again. -/
def disconnect (env : Env) (s : Actor) (id : DeviceId) : Actor :=
  let s := s.forget_dial id
  let s := s.drop_session id .UserStopped
  let s := s.forget_speaker_mutes id
  let s := s.remove_routes_for env id
  let s := s.end_network_test id .Unreachable
  let s := { s with flaps := s.flaps.erase id, stabilized := s.stabilized.erase id }
  { s with trust := s.trust.update id (fun d => { d with auto_connect := false }) env.trust_saved }

/-- The device is revoked, and everything stored about it is dropped. -/
def forget_device (env : Env) (s : Actor) (id : DeviceId) : Actor :=
  let s := s.revoke env id
  let s := { s with trust := s.trust.remove id env.trust_saved }
  let s := s.forget_network_test id
  let peer_id := id.to_hex
  let had_profile := (s.settings.device_profiles.get peer_id).isSome
  let saved := s.settings.saved_routes.filter fun e => e.peer_id ≠ peer_id
  let changed := had_profile || saved.length != s.settings.saved_routes.length
  let s := s.set_settings { s.settings with
    device_profiles := s.settings.device_profiles.erase peer_id
    saved_routes := saved }
  if changed then s.save_settings env else s

/-- A blocked device is revoked and stays in the store. -/
def set_blocked (env : Env) (s : Actor) (id : DeviceId) (blocked : Bool) : Actor :=
  let s := { s with
    trust := s.trust.update id (fun d => { d with blocked }) env.trust_saved }
  if blocked then s.revoke env id else s

/-- The user decides on a kind of access for a device. -/
def on_set_permission (env : Env) (s : Actor) (id : DeviceId) (kind : PermissionKind)
    (policy : Policy) : Actor :=
  let s := s.set_permission env id kind policy
  -- revocation takes effect immediately
  if policy = .Deny then s.enforce_permissions env id else s

/-- The user asks for a connection, which does not wait for the backoff. -/
def connect (env : Env) (s : Actor) (id : DeviceId) : Actor :=
  let d := (s.dials.get id).getD (new_dial env.now)
  let d := { d with next_attempt := env.now, backoff := d.backoff.reset }
  { s with dials := s.dials.insert id d }.try_dial_trusted env id

/-- The user sets the volume of a route, here or by asking the peer that plays it. -/
def set_route_volume (s : Actor) (key : RouteKey) (volume : ℚ) : Actor :=
  let volume := Settings.clamp_between volume 0 2
  match s.routes.find? (has_key key) with
  | none => s
  | some r =>
      let s := s.set_routes <| s.routes.modify_first (has_key key) fun r =>
        { r with
          volume
          receiver_controls := r.receiver_controls.map fun c => { c with volume } }
      if r.receiver_controls.isSome then s
      else
        s.send_to r.peer (.VolumeSet
          { route := r.id.toUInt32, target := ControlTarget.RouteStream.code, gain := volume })

/-- The microphone mute keeps microphone routes silent whatever the route says. -/
def set_route_muted (s : Actor) (key : RouteKey) (muted : Bool) : Actor :=
  match s.routes.find? (has_key key) with
  | none => s
  | some r =>
      let silent := muted || (r.kind.is_mic && s.mic_muted)
      let s := s.set_routes <| s.routes.modify_first (has_key key) fun r =>
        { r with
          muted
          receiver_controls := r.receiver_controls.map fun c => { c with muted := silent }
          sender_controls := r.sender_controls.map fun c => { c with muted := silent } }
      if r.receiver_controls.isSome then s
      else
        s.send_to r.peer (.MuteSet
          { route := r.id.toUInt32, target := ControlTarget.RouteStream.code, muted })

/-- Whether a route outlives a reconnect and a restart. -/
def set_route_keep_running (env : Env) (s : Actor) (key : RouteKey) (keep : Bool) : Actor :=
  match s.routes.find? (has_key key) with
  | none => s
  | some r =>
      let s := s.set_routes <| s.routes.modify_first (has_key key) fun r =>
        { r with keep_running := keep }
      let peer_id := r.peer.to_hex
      let auto := r.requested_locally && s.settings.resume_routes_on_start
      let saved := s.settings.saved_routes.filter fun e => !e.is_for peer_id r.kind
      let saved := if keep || auto then saved ++ [{ peer_id, kind := r.kind, keep }] else saved
      (s.set_saved_routes saved).save_settings env

/-- The user mutes a peer's speakers, which only the peer can do. -/
def set_peer_speakers_muted (s : Actor) (id : DeviceId) (muted : Bool) : Actor :=
  match s.sessions.get id with
  | none => s
  | some _ =>
      let s := s.send_to id (.MuteSet
        { route := 0, target := ControlTarget.DeviceSpeakers.code, muted })
      { s with peer_speakers_muted := s.peer_speakers_muted.insert id muted }

/-- "Resume streams after restart" changed: save or drop entries for routes started here. -/
def sync_resumable_routes (env : Env) (s : Actor) : Actor :=
  let saved :=
    if s.settings.resume_routes_on_start then
      let active := s.routes.filter fun r => r.requested_locally && r.status == .Active
      let add (saved : List SavedRoute) (r : Route) : List SavedRoute :=
        let peer_id := r.peer.to_hex
        if saved.any (·.is_for peer_id r.kind) then saved
        else saved ++ [{ peer_id, kind := r.kind, keep := false }]
      (active.foldl add s.settings.saved_routes).take 32
    else s.settings.saved_routes.filter (·.keep)
  (s.set_saved_routes saved).save_settings env

/-- Every dial may be tried at once. -/
def reset_dials (env : Env) (s : Actor) : Actor :=
  { s with
    dials := s.dials.map_values fun _ d =>
      { d with backoff := d.backoff.reset, next_attempt := env.now } }

/-- What new settings mean for what runs already. -/
def apply_settings (env : Env) (s : Actor) (old : Settings) : Actor :=
  -- a new transport pin should be tried at once, not after the current backoff
  let s := if old.transport ≠ s.settings.transport then s.reset_dials env else s
  -- live updates to running routes
  let output := s.settings.output
  let s := s.set_routes <| s.routes.map fun r =>
    if r.kind.is_mic then r
    else
      { r with
        receiver_controls := r.receiver_controls.map fun c => { c with
          balance := output.balance, mono := output.mono, av_offset_ms := output.av_offset_ms } }
  -- switching noise suppression off clears a suspension
  let s :=
    if old.mic.noise_suppression ≠ s.settings.mic.noise_suppression then
      { s with denoise := s.denoise.reset }
    else s
  let s := s.update_mic_groups
  -- "mute this computer's speakers while sending" also applies to a stream already running
  let mute := s.settings.capture.mute_local_speakers
  let s :=
    if old.capture.mute_local_speakers ≠ mute ∧ s.speakers_muted_by.is_empty ∧
        s.routes.any fun r => r.kind == .SendSystemAudio && r.sender_controls.isSome then
      s.emit (.SetSpeakersMuted mute)
    else s
  let s := s.reconfigure_routes env old
  let s :=
    if old.resume_routes_on_start ≠ s.settings.resume_routes_on_start then
      s.sync_resumable_routes env
    else s
  if old.mic.monitor ≠ s.settings.mic.monitor then s.set_monitor env s.settings.mic.monitor else s

/-- The user interface replaces the settings as a whole; what it may not set is put right first. -/
def update_settings (env : Env) (s : Actor) (settings : Settings) (caller : Nat) : Actor :=
  let settings := settings.sanitize
  let settings :=
    if settings.device_name = "" then { settings with device_name := s.settings.device_name }
    else settings
  let settings := settings.schedule_debug_logging s.settings.debug_logging env.now_unix
  let old := s.settings
  let s := (s.set_settings settings).save_settings env
  (s.apply_settings env old).answer (.caller caller) (.ok .Done)

/-- The stream settings of one device; empty ones are dropped. -/
def set_device_profile (env : Env) (s : Actor) (id : DeviceId) (profile : Option DeviceProfile) :
    Actor :=
  let old := s.settings
  let device_profiles :=
    match profile.filter fun p => !p.is_empty with
    | some p => s.settings.device_profiles.insert id.to_hex p
    | none => s.settings.device_profiles.erase id.to_hex
  let s := s.set_settings ({ s.settings with device_profiles }.sanitize)
  (s.save_settings env).apply_settings env old

/-- "Auto" quality resolves differently now: routes this device proposed the codec for follow. -/
def set_prefer_lossless (env : Env) (s : Actor) (prefer : Bool) : Actor :=
  if s.prefer_lossless = prefer then s
  else
    let s := { s with prefer_lossless := prefer }
    let active := s.routes.filter fun r => r.status = .Active ∧ r.requested_locally
    s.reconfigure_each env (active.map Route.key)

/-- Start to pair over a code with the device behind some addresses. -/
def pair_by_code (s : Actor) (found : Option EngineError) (caller : Nat) : Actor :=
  match found with
  | some e => s.answer (.caller caller) (.error e)
  | none => (s.pair_dial none { qr_proof := none } none false).answer (.caller caller) (.ok .Done)

/-- A command, by its kind. -/
def handle_command (env : Env) (s : Actor) (cmd : Command) : Actor :=
  match cmd with
  | .StartPairing caller =>
      let payload : QrPairingPayload :=
        { device_id := s.identity.device_id, addresses := env.local_addresses,
          secret := env.secret, expires_unix := env.now_unix + QR_VALIDITY_SECS }
      { s with qr := some payload }.answer (.caller caller) (.ok .Done)
  | .StopPairing => { s with qr := none }
  | .PairWithQr payload caller =>
      let (s, result) := s.pair_with_qr payload
      s.answer (.caller caller) result
  | .PairWithDevice id caller =>
      s.pair_by_code (if s.discovered.has id then none else some .DeviceNotFound) caller
  | .ConfirmPairing id accept => s.confirm_pairing env id accept
  | .Connect id => s.connect env id
  | .Disconnect id => s.disconnect env id
  | .ForgetDevice id => s.forget_device env id
  | .SetBlocked id blocked => s.set_blocked env id blocked
  | .RenameDevice id alias_name =>
      let alias_name := (alias_name.map (trim_take 64)).filter fun a => a ≠ ""
      { s with trust := s.trust.update id (fun d => { d with alias_name }) env.trust_saved }
  | .SetAutoConnect id enabled =>
      { s with
        trust := s.trust.update id (fun d => { d with auto_connect := enabled }) env.trust_saved }
  | .SetPermission id kind policy => s.on_set_permission env id kind policy
  | .StartRoute id kind replace caller => s.start_route env id kind replace (.caller caller)
  | .StopRoute key => s.stop_route_by_key env key .UserStopped true
  | .SetRouteVolume key volume => s.set_route_volume key volume
  | .SetRouteMuted key muted => s.set_route_muted key muted
  | .SetRouteKeepRunning key keep => s.set_route_keep_running env key keep
  | .SetPeerSpeakersMuted id muted => s.set_peer_speakers_muted id muted
  | .RespondRouteRequest request_id accept remember =>
      s.respond_request env request_id accept remember
  | .SetMicMuted muted => s.set_mic_muted muted
  | .SetMicMonitor enabled => s.set_monitor env enabled
  | .AudioDevicesChanged default_input default_output =>
      s.on_audio_devices_changed env default_input default_output
  | .UpdateSettings settings caller => s.update_settings env settings caller
  | .NetworkChanged => s.reset_dials env
  | .SetForeground foreground =>
      let s := { s with foreground }
      -- a backgrounded phone app may be killed without warning
      if foreground then s else s.flush_trust env
  | .PreferLossless prefer => s.set_prefer_lossless env prefer
  | .SetDeviceProfile id profile => s.set_device_profile env id profile
  | .RunNetworkTest id caller => s.start_network_test env id (.caller caller)
  | .CancelNetworkTest id => s.cancel_network_test id

/-! ## 5. The event loop

What is left of the events that others bring, and the body of the loop. -/

/-- The device behind an authenticated connection, if it is trusted. -/
def trusted_peer_of (s : Actor) (conn : SecureConnection) : Option DeviceId :=
  (s.trust.get conn.peer_public_key.device_id).map fun _ => conn.peer_public_key.device_id

/-- Exchange hellos on an authenticated connection. -/
def run_session (env : Env) (s : Actor) (conn_id : Nat) (conn : SecureConnection)
    (dialed : Bool) (pair : Option PairRequest) : Actor :=
  let hello := s.local_hello env (s.trusted_peer_of conn)
  { s with calls := s.calls ++ [.RunSession conn_id conn dialed hello pair] }

/-- Forget an address that turned out to be this device. -/
def forget_own_address (s : Actor) (addr : SocketAddr) : Actor :=
  let ids := (s.trust.list.filter fun d => addr ∈ d.last_addresses).map fun d =>
    d.public_key.device_id
  let forget (trust : TrustStore) (id : DeviceId) : TrustStore :=
    trust.update_hints id fun d =>
      { d with last_addresses := d.last_addresses.filter (· ≠ addr) }
  { s with
    discovered := s.discovered.map_values fun _ addrs => addrs.filter (· ≠ addr)
    trust := ids.foldl forget s.trust }

/-- A device was seen on the network: it is tried at once, unless a dial to it is under way. -/
def on_discovered (env : Env) (s : Actor) (id : DeviceId) (addresses : List SocketAddr) : Actor :=
  { s with
    discovered := s.discovered.insert id addresses
    dials := s.dials.modify id fun d =>
      if d.in_flight then d
      else { d with backoff := d.backoff.reset, next_attempt := env.now } }

/-- One turn of the event loop. -/
def handle (env : Env) (s : Actor) (event : Event) : Actor :=
  match event with
  | .Command cmd => s.handle_command env cmd
  | .Incoming conn =>
      { s with next_conn_id := s.next_conn_id + 1 }.run_session env s.next_conn_id conn false none
  | .AddressIsSelf addr => s.forget_own_address addr
  | .Dialed conn_id conn pair => s.run_session env conn_id conn true pair
  | .DialFailed conn_id target error => s.on_dial_failed env conn_id target error
  | .Discovered id addresses => s.on_discovered env id addresses
  | .Lost id => { s with discovered := s.discovered.erase id }
  | .AudioFailed peer route error => s.on_audio_failed env ⟨peer, route⟩ error
  | .PairAddressResolved found caller =>
      s.pair_by_code (if found then none else some (.InvalidInput "address")) caller
  | .SenderReady key start_id result => s.on_sender_ready env key start_id result
  | .ReceiverReady peer route start_id result =>
      s.on_receiver_ready env peer route start_id result
  | .EncoderFailed key error => s.on_encoder_failed env key error
  | .NetTestFinished peer test_id report => s.on_net_test_finished peer test_id report
  | .Established est => s.on_established env est
  | .Control conn_id body => s.on_control env conn_id body
  | .Closed conn_id reason => s.on_closed env conn_id reason
  | .HandshakeFailed conn_id incompatible => s.on_handshake_failed env conn_id incompatible
  | .Tick => s.tick env

end Actor

end SoundPush
