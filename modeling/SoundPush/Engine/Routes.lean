/-
`Routes` -- the life of a route in the engine actor: started here or asked for by
a peer, activated once its audio is open, paused with its session and resumed
with the next, stopped from either side.

Every handler changes the route table through a few moves, and for the routes a
peer asked for only one of them, `accept_route`, adds to it. `Continues` says what
all the others may do: keep such a route, activate it once its pipeline is ready,
pause it, or drop it.
-/
import SoundPush.Engine.Pipelines

set_option autoImplicit false

namespace SoundPush

def has_key (key : RouteKey) (r : Route) : Bool := r.key = key

/-- The route runs; a caller waiting for it is answered. -/
def Route.activated (r : Route) : Route :=
  { r with
    status := .Active
    deadline := none
    reply := if r.requested_locally then none else r.reply }

namespace Actor

/-! ## 1. Activating, failing and stopping -/

def set_saved_routes (s : Actor) (saved_routes : List SavedRoute) : Actor :=
  s.set_settings { s.settings with saved_routes }

/-- "Resume streams after restart" keeps an entry for each route started here. -/
def save_started_route (env : Env) (s : Actor) (peer : DeviceId) (kind : RouteKind) : Actor :=
  let peer_id := peer.to_hex
  if s.settings.saved_routes.any (·.is_for peer_id kind) then s
  else
    (s.set_saved_routes
    (s.settings.saved_routes ++ [{ peer_id, kind, keep := false }])).save_settings
      env

/-- The pipeline is ready: finish starting the route. Rebuilds of active routes need nothing. -/
def activate_route (env : Env) (s : Actor) (peer : DeviceId) (id : UInt8) : Actor :=
  let key : RouteKey := ⟨peer, id⟩
  match s.routes.find? (has_key key) with
  | none => s
  | some r =>
      if r.status ≠ .Starting then s
      else
        let s := s.set_routes (s.routes.modify_first (has_key key) Route.activated)
        let s :=
          if r.requested_locally then s.answer_route r (.ok (.Started key))
          else s.send_to peer (.RouteAccept { route := id.toUInt32, profile := r.profile })
        let s :=
          if r.requested_locally ∧ s.settings.resume_routes_on_start then
            s.save_started_route env peer r.kind
          else s
        s.update_keep_alive

/-- A peer's "Mute PC" keeps the speakers muted until it is turned off or the peer leaves. -/
def unmute_after (s : Actor) (route : Route) : Actor :=
  if route.kind = .SendSystemAudio ∧ s.settings.capture.mute_local_speakers ∧
      s.speakers_muted_by.is_empty then
    s.emit (.SetSpeakersMuted false)
  else s

/-- The reason a peer is given when its route's pipeline could not start. -/
def reject_reason (error : EngineError) : StopReason :=
  match error with
  | .MicPermissionDenied => .PermissionDenied
  | .VirtualMicMissing | .LoopbackUnsupported => .UnsupportedEndpoint
  | _ => .AudioDeviceLost

/-- The pipeline could not start (or restart): tell the peer and the user. -/
def fail_route (env : Env) (s : Actor) (peer : DeviceId) (id : UInt8) (error : EngineError) :
    Actor :=
  match s.routes.remove_first (has_key ⟨peer, id⟩) with
  | none => s
  | some (route, rest) =>
      let (s, route) := (s.set_routes rest).release_pipelines route
      let s :=
        if route.requested_locally ∨ route.status = .Active then
          s.send_to peer
            (.RouteStop { route := id.toUInt32, reason := StopReason.AudioDeviceLost.code })
        else
          s.send_to peer
            (.RouteReject { route := id.toUInt32, reason := (reject_reason error).code })
      let s := s.answer_route route (.error error)
      let s := s.unmute_after route
      (s.error_notice env error).update_keep_alive

/-- Saved entries that end with a route: "Keep running" ones only when the user stops it. -/
def forget_saved_route (env : Env) (s : Actor) (route : Route) (reason : StopReason) : Actor :=
  let saved := s.settings.saved_routes.filter fun e =>
    !(e.is_for route.peer.to_hex route.kind && (!e.keep || reason = .UserStopped))
  if saved.length ≠ s.settings.saved_routes.length then
    (s.set_saved_routes saved).save_settings env
  else s

def stop_route_by_key (env : Env) (s : Actor) (key : RouteKey) (reason : StopReason)
    (notify_peer : Bool) : Actor :=
  match s.routes.remove_first (has_key key) with
  | none => s
  | some (route, rest) =>
      let (s, route) := (s.set_routes rest).release_pipelines route
      let s :=
        if notify_peer then
          s.send_to route.peer (.RouteStop { route := route.id.toUInt32, reason := reason.code })
        else s
      let s := s.answer_route route (.error .RouteNotFound)
      let s := s.unmute_after route
      -- session-level removal (`Unspecified`) and restarts (`Superseded`) keep saved entries
      let s :=
        if reason = .Superseded ∨ reason = .Unspecified then s
        else s.forget_saved_route env route reason
      s.update_keep_alive

/-- Stop the routes of a list of keys, one after the other. -/
def stop_routes (env : Env) (s : Actor) (keys : List RouteKey) (reason : StopReason)
    (notify_peer : Bool) : Actor :=
  keys.foldl (fun s key => s.stop_route_by_key env key reason notify_peer) s

def remove_routes_for (env : Env) (s : Actor) (peer : DeviceId) : Actor :=
  s.stop_routes env ((s.routes.filter (·.peer = peer)).map Route.key) .Unspecified false

/-! ## 2. Pausing -/

/-- The session of a route went down. A route this device asked for is paused even while it is
still being set up: the next reconnect asks again. -/
def pause_route (env : Env) (s : Actor) (route : Route) : Actor × Route :=
  let (s, route) := s.release_pipelines route
  match route.status with
  | .Active => (s, { route with status := .Paused, paused_at := some env.now })
  | .Paused => (s, route)
  | _ =>
      let s := s.answer_route route (.error .Unreachable)
      let route := { route with reply := none }
      if route.requested_locally then
        (s, { route with status := .Paused, paused_at := some env.now })
      else (s, { route with status := .Stopped })

def pause_each (env : Env) (peer : DeviceId) : Actor → List Route → Actor × List Route
  | s, [] => (s, [])
  | s, route :: routes =>
      let (s, route) := if route.peer = peer then s.pause_route env route else (s, route)
      let (s, routes) := pause_each env peer s routes
      (s, route :: routes)

def pause_routes_for (env : Env) (s : Actor) (peer : DeviceId) : Actor :=
  let (s, routes) := pause_each env peer s s.routes
  (s.set_routes (routes.filter (·.status ≠ .Stopped))).update_keep_alive

/-! ## 3. Starting -/

/-- The route that feeds this device's virtual microphone now, ignoring routes with `except`. -/
def virtual_mic_feed (s : Actor) (except : Option DeviceId) : Option RouteKey :=
  (s.routes.find? fun r =>
    r.kind = .ReceiveMicToVirtualMic ∧ r.status ≠ .Stopped ∧ some r.peer ≠ except).map Route.key

/-- Devices this one already feeds from `source`; paused routes are not counted. -/
def receivers_of (s : Actor) (source : String) : Nat :=
  s.routes.countP fun r =>
    r.status ≠ .Stopped ∧ r.status ≠ .Paused ∧ r.kind.local_is_source ∧ r.kind.endpoints.1 = source

/-- Why a route of this kind cannot run here now, if it cannot. -/
def check_local_capability (env : Env) (s : Actor) (kind : RouteKind) : Option EngineError :=
  let caps := s.local_capabilities env
  if kind.local_is_source ∧ s.settings.max_receivers ≤ s.receivers_of kind.endpoints.1 then
    some .TooManyReceivers
  else
    match kind with
    | .SendSystemAudio => if !caps.system_audio then some .LoopbackUnsupported else none
    | .SendAppAudio => if !caps.app_audio then some .LoopbackUnsupported else none
    | .SendMixed =>
        if !caps.mixed then some .LoopbackUnsupported
        else if !env.microphone_permitted then some .MicPermissionDenied
        else none
    | .ReceiveMicToVirtualMic => if !caps.virtual_mic then some .VirtualMicMissing else none
    | .SendMicToVirtualMic | .SendMicToSpeaker =>
        if !env.microphone_permitted then some .MicPermissionDenied else none
    | _ => none

/-- Whether the peer should suppress noise in a microphone stream this device sends it. -/
def denoise_at_peer (s : Actor) (kind : RouteKind) (peer : DeviceId) : Bool :=
  if !kind.is_mic || !kind.local_is_source then false
  else
    let peer_can :=
      match s.sessions.get peer with
      | some session => session.hello.capabilities.has Capabilities.FEATURE_RECEIVER_DENOISE
      | none => false
    (s.settings.mic.denoise_placement peer_can).2

/-- Profile proposed for a route with `peer`. -/
def profile_for (s : Actor) (kind : RouteKind) (peer : DeviceId) : StreamProfile :=
  let stream := s.settings.stream_for peer.to_hex
  -- anti-flap: a custom buffer is the user's explicit choice and stays
  let stream :=
    if s.stabilized.has peer ∧ stream.latency ≠ .Custom then { stream with latency := .Stable }
    else stream
  let channels := if kind.is_mic then 1 else 2
  let quality :=
    if stream.to_quality = .Auto ∧ s.prefer_lossless then Quality.Lossless else stream.to_quality
  let p := build_profile stream.latency_profile quality channels stream.redundancy_always
  { p with
    -- noise suppression works on 10 ms frames
    frame_us := if kind.is_mic ∧ p.frame_us < 10000 then 10000 else p.frame_us
    denoise := s.denoise_at_peer kind peer }

theorem profile_for_usable (s : Actor) (kind : RouteKind) (peer : DeviceId) :
    (s.profile_for kind peer).Usable := by
  unfold profile_for
  dsimp only
  generalize hp : build_profile _ _ _ _ = p
  have h : p.Usable := hp ▸ build_profile_usable _ _ _ _
  have hchannels : p.channels = clamp (if kind.is_mic then 1 else 2) 1 2 := by
    rw [← hp]
    rfl
  by_cases hmic : kind.is_mic ∧ p.frame_us < 10000
  · rw [if_pos hmic]
    rw [if_pos hmic.1] at hchannels
    refine ⟨h.channels, .inr (.inr (.inl rfl)), fun _ => ?_, h.codec, h.bitrate, h.jitter_min,
      h.jitter_max⟩
    dsimp only
    rw [hchannels]
    exact Nat.le_refl 10000
  · rw [if_neg hmic]
    exact h.with_denoise _

/-- The error for a peer that is not connected. -/
def not_connected (s : Actor) (peer : DeviceId) : EngineError :=
  if (s.trust.get peer).isSome then .Unreachable else .NotPaired

/-- The feed of the virtual microphone that a new route of this kind would replace: only one device
at a time can be the virtual microphone. -/
def feed_in_the_way (s : Actor) (peer : DeviceId) (kind : RouteKind) : Option RouteKey :=
  if kind = .ReceiveMicToVirtualMic then s.virtual_mic_feed (some peer) else none

/-- Stop the feed that is in the way. -/
def make_room (env : Env) (s : Actor) (feed : Option RouteKey) : Actor :=
  match feed with
  | some key => s.stop_route_by_key env key .Superseded true
  | none => s

/-- Ask a connected peer for a route. -/
def request_route (env : Env) (s : Actor) (peer : DeviceId) (kind : RouteKind) (replace : Bool)
    (reply : Reply) (fallback : QualityFallback) : Actor :=
  let profile := s.profile_for kind peer
  let profile := if fallback.active then apply_quality_fallback profile else profile
  match s.sessions.get peer with
  | none => s.answer reply (.error (s.not_connected peer))
  | some session =>
      let (session, id) := session.alloc_route
      let s := { s with sessions := s.sessions.insert peer session }
      let s := s.emit <| .Send session.conn_id <| .RouteRequest
        { route := id.toUInt32
          source_endpoint := kind.endpoints.1
          sink_endpoint := kind.endpoints.2
          requester_is_source := kind.local_is_source
          profile := some profile
          replace }
      let route := { new_route peer id kind true s.settings.output.volume with
        status := .Requesting
        profile := some profile
        quality_fallback := fallback
        reply := some reply
        deadline := some (env.now + 35000) }
      s.set_routes (s.routes ++ [route])

/-- Start a route here. `fallback` is the quality fallback of the route this one replaces. -/
def start_route_keeping (env : Env) (s : Actor) (peer : DeviceId) (kind : RouteKind)
    (replace : Bool) (reply : Reply) (fallback : QualityFallback) : Actor :=
  -- starting a route that already runs is a no-op, answered before anything can refuse it
  match s.routes.find? fun r => r.peer = peer ∧ r.kind = kind ∧ r.status ≠ .Stopped with
  | some existing => s.answer reply (.ok (.Started existing.key))
  | none =>
      match s.check_local_capability env kind with
      | some e => s.answer reply (.error e)
      | none =>
          let feed := s.feed_in_the_way peer kind
          if feed.isSome ∧ !replace then s.answer reply (.error .VirtualMicBusy)
          else (s.make_room env feed).request_route env peer kind replace reply fallback

def start_route (env : Env) (s : Actor) (peer : DeviceId) (kind : RouteKind) (replace : Bool)
    (reply : Reply) : Actor :=
  s.start_route_keeping env peer kind replace reply .default

/-- Ask again for one kind of route after a reconnect. What cannot be started stays paused for
the next reconnect. -/
def resume_kind (env : Env) (peer : DeviceId) (st : Actor × List Route) (kind : RouteKind) :
    Actor × List Route :=
  let (s, paused) := st
  -- restoring a saved route never takes the virtual microphone from a live one
  let s := s.start_route env peer kind false .dropped
  if s.routes.any fun r => r.peer = peer ∧ r.kind = kind then
    let keep := s.settings.saved_routes.any fun e => e.is_for peer.to_hex kind && e.keep
    (s.set_routes <| s.routes.modify_last (fun r => r.peer = peer ∧ r.kind = kind)
      fun r => { r with keep_running := keep }, paused)
  else
    match paused.remove_first (fun r => r.kind = kind) with
    | some (route, paused) => (s.set_routes (s.routes ++ [route]), paused)
    | none => (s, paused)

/-- Re-request routes after a reconnect (only the side that originally requested does this), and
routes saved to run again after a restart. -/
def resume_routes (env : Env) (s : Actor) (peer : DeviceId) : Actor :=
  let mine (r : Route) : Bool := r.peer = peer ∧ r.status = .Paused ∧ r.requested_locally
  let paused := s.routes.filter mine
  let s := s.set_routes (s.routes.filter fun r => !mine r)
  let saved := s.settings.saved_routes.filter fun e =>
    e.peer_id = peer.to_hex ∧ (e.keep ∨ s.settings.resume_routes_on_start)
  let kinds := saved.foldl
    (fun kinds e => if e.kind ∈ kinds then kinds else kinds ++ [e.kind]) (paused.map Route.kind)
  (kinds.foldl (resume_kind env peer) (s, paused)).1

/-! ## 4. Requests from peers -/

def reject (s : Actor) (peer : DeviceId) (route : UInt32) (reason : StopReason) : Actor :=
  s.send_to peer (.RouteReject { route, reason := reason.code })

/-- The profile a peer's request ends up with: where this device's microphone is denoised is its
own setting, and the receiving side's latency preference wins. -/
def accepted_profile (s : Actor) (peer : DeviceId) (req : RouteRequest) (kind : RouteKind) :
    StreamProfile :=
  let wanted := s.profile_for kind peer
  let profile := sanitize_profile (req.profile.getD wanted)
  if kind.local_is_source then { profile with denoise := s.denoise_at_peer kind peer }
  else
    { profile with jitter_min_ms := wanted.jitter_min_ms, jitter_max_ms := wanted.jitter_max_ms }

theorem accepted_profile_sane (s : Actor) (peer : DeviceId) (req : RouteRequest)
    (kind : RouteKind) :
    (s.accepted_profile peer req kind).Sane := by
  have hsane := sanitize_profile_sane (req.profile.getD (s.profile_for kind peer))
  unfold accepted_profile
  dsimp only
  by_cases hk : kind.local_is_source = true
  · rw [if_pos hk]
    exact hsane.with_denoise _
  · rw [if_neg hk]
    exact hsane.with_jitter (s.profile_for_usable kind peer)

/-- A paused copy from before a reconnect is replaced; route ids restart with each session, so a
paused route that happens to reuse this id goes too. -/
def replaced_by (peer : DeviceId) (id : UInt8) (kind : RouteKind) (r : Route) : Bool :=
  r.peer = peer ∧ r.status = .Paused ∧ (r.kind = kind ∨ r.id = id)

/-- Time to open audio devices once a route is accepted. -/
def PIPELINE_START_DEADLINE : Nat := 20000

def accept_route (env : Env) (s : Actor) (peer : DeviceId) (req : RouteRequest)
    (kind : RouteKind) : Actor :=
  let profile := s.accepted_profile peer req kind
  let id := req.route.toUInt8
  let dropped := s.routes.filter (replaced_by peer id kind)
  let s := dropped.foldl (fun s r => s.drop_subscription r.subscription) s
  let s := s.set_routes (s.routes.filter fun r => !replaced_by peer id kind r)
  if s.routes.any (has_key ⟨peer, id⟩) then s -- duplicate request
  else
    let route := { new_route peer id kind false s.settings.output.volume with
      profile := some profile
      deadline := some (env.now + PIPELINE_START_DEADLINE) }
    -- RouteAccept is sent once the audio device is open (`activate_route`)
    match s.begin_pipelines env route with
    | (s, route, .ok ready) =>
        let s := s.set_routes (s.routes ++ [route])
        if ready then s.activate_route env peer id else s
    | (s, route, .error e) =>
        ((s.drop_subscription route.subscription).reject peer req.route
          (reject_reason e)).error_notice env e

/-- The permission a peer's route needs. -/
def permission_for (kind : RouteKind) : PermissionKind :=
  if kind.local_is_source then
    if kind.is_mic then .UseMyMicrophone else .ReceiveMyAudio
  else .SendAudioToMe

/-- What the user decided about a kind of route with a device; an unknown device is denied. -/
def policy_of (s : Actor) (peer : DeviceId) (permission : PermissionKind) : Policy :=
  match s.trust.get peer with
  | some d => d.permissions.policy permission
  | none => .Deny

/-- The peer continues a session in which it had a route of this kind. -/
def resumes (env : Env) (s : Actor) (peer : DeviceId) (kind : RouteKind) : Bool :=
  s.resume.resumed_recently peer env.now &&
    s.routes.any fun r =>
      r.peer = peer ∧ r.kind = kind ∧ r.status = .Paused ∧ r.requested_locally = false

/-- How long a prompt waits for the user. -/
def PROMPT_TIMEOUT : Nat := 30000

/-- Leave a request to the user. -/
def ask (env : Env) (s : Actor) (peer : DeviceId) (req : RouteRequest) (kind : RouteKind) : Actor :=
  { s with
    next_request_id := s.next_request_id + 1
    requests := s.requests.insert s.next_request_id
      { peer, request := req, kind, expires := env.now + PROMPT_TIMEOUT } }

/-- Decide about a request by the peer's permission. -/
def decide_request (env : Env) (s : Actor) (peer : DeviceId) (req : RouteRequest)
    (kind : RouteKind) : Actor :=
  match s.policy_of peer (permission_for kind) with
  | .Allow => s.accept_route env peer req kind
  | .Deny => s.reject peer req.route .PermissionDenied
  | .Ask =>
      -- the user approved this route before the connection dropped, and the peer proved with a
      -- resume token that this connection continues that session
      if s.resumes env peer kind then s.accept_route env peer req kind
      else s.ask env peer req kind

/-- The reason a peer is given when this device cannot run its route. -/
def capability_reason (error : EngineError) : StopReason :=
  match error with
  | .MicPermissionDenied => .PermissionDenied
  | .TooManyReceivers => .DeviceBusy
  | _ => .UnsupportedEndpoint

/-- The kind of route a peer asks for, seen from here. -/
def requested_kind (req : RouteRequest) : Option RouteKind :=
  RouteKind.from_endpoints req.source_endpoint req.sink_endpoint (!req.requester_is_source)

def on_route_request (env : Env) (s : Actor) (peer : DeviceId) (req : RouteRequest) : Actor :=
  match requested_kind req with
  | none => s.reject peer req.route .UnsupportedEndpoint
  | some kind =>
      match s.check_local_capability env kind with
      | some e =>
          let s := if e = .TooManyReceivers then s.error_notice env e else s
          s.reject peer req.route (capability_reason e)
      | none =>
          -- a second device asking for the virtual microphone is refused until its user confirms
          -- and asks again with `replace`
          let feed := s.feed_in_the_way peer kind
          if feed.isSome ∧ !req.replace then s.reject peer req.route .VirtualMicBusy
          else (s.make_room env feed).decide_request env peer req kind

def set_permission (env : Env) (s : Actor) (peer : DeviceId) (kind : PermissionKind)
    (policy : Policy) : Actor :=
  { s with
    trust := s.trust.update peer
      (fun d => { d with permissions := d.permissions.set kind policy }) env.trust_saved }

/-- The user answers a prompt. -/
def respond_request (env : Env) (s : Actor) (request_id : Nat) (accept remember : Bool) : Actor :=
  match s.requests.get request_id with
  | none => s
  | some pending =>
      let s := { s with requests := s.requests.erase request_id }
      let s :=
        if remember then
          s.set_permission env pending.peer (permission_for pending.kind)
            (if accept then .Allow else .Deny)
        else s
      if accept then s.accept_route env pending.peer pending.request pending.kind
      else s.reject pending.peer pending.request.route .PermissionDenied

/-- Stop the routes a peer asked for that its permissions no longer allow. -/
def enforce_permissions (env : Env) (s : Actor) (peer : DeviceId) : Actor :=
  match s.trust.get peer with
  | none => s
  | some d =>
      let denied := s.routes.filter fun r =>
        r.peer = peer ∧ r.requested_locally = false ∧
          d.permissions.policy (permission_for r.kind) = .Deny
      s.stop_routes env (denied.map Route.key) .PermissionRevoked true

/-! ## 5. Answers from peers -/

def on_route_accept (env : Env) (s : Actor) (peer : DeviceId) (acc : RouteAccept) : Actor :=
  let key : RouteKey := ⟨peer, acc.route.toUInt8⟩
  match s.routes.remove_first fun r => has_key key r && r.status = .Requesting with
  | none => s
  | some (route, rest) =>
      let s := s.set_routes rest
      let route := { route with
        profile := (acc.profile.map sanitize_profile).or route.profile
        status := .Starting
        deadline := some (env.now + PIPELINE_START_DEADLINE) }
      match s.begin_pipelines env route with
      | (s, route, .ok ready) =>
          let s := s.set_routes (s.routes ++ [route])
          if ready then s.activate_route env peer route.id else s
      | (s, route, .error e) =>
          let s := s.drop_subscription route.subscription
          let s := s.send_to peer
            (.RouteStop { route := acc.route, reason := StopReason.AudioDeviceLost.code })
          (s.answer_route route (.error e)).error_notice env e

/-- What a refusal means to the user. -/
def rejection_error (reason : StopReason) : EngineError :=
  match reason with
  | .PermissionDenied => .PeerDenied
  | .UnsupportedEndpoint => .VirtualMicMissing
  | .DeviceBusy => .TooManyReceivers
  | .VirtualMicBusy => .VirtualMicBusy
  | .AudioDeviceLost => .AudioDevice "remote"
  | _ => .PeerDenied

/-- The route goes without a release: its subscription is dropped with it. -/
def on_route_reject (env : Env) (s : Actor) (peer : DeviceId) (rej : RouteReject) : Actor :=
  let reason := (StopReason.try_from rej.reason).getD .PeerStopped
  match s.routes.remove_first (has_key ⟨peer, rej.route.toUInt8⟩) with
  | none => s
  | some (route, rest) =>
      let err := rejection_error reason
      let s := ((s.set_routes rest).drop_subscription route.subscription).answer_route route
        (.error err)
      s.error_notice env err

end Actor

end SoundPush
