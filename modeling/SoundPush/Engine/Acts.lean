/-
`Acts` -- the steps by which an event changes the board.

Each constructor of `Act` is one thing a handler does to routes, audio or the
speakers, with what was checked for it. Most acts may happen with any event; the
others name theirs. The list an act is indexed by says whom it asks for a route, or
is about to: it is how many requests a handler can make that decides which route
ids it uses.
-/
import SoundPush.Engine.Board

set_option autoImplicit false

namespace SoundPush

/-! ## 1. What an event may do -/

/-- Why a session's end takes the routes with it, instead of pausing them. -/
def StopReason.ends_routes (reason : StopReason) : Bool :=
  reason == .PermissionDenied || reason == .PermissionRevoked || reason == .UserStopped

namespace Actor

/-- A peer that cannot change a running stream: its routes are stopped and asked for again. -/
def restarts (s : Actor) (peer : DeviceId) : Prop :=
  ∃ session, s.sessions.get peer = some session ∧
    session.hello.capabilities.has Capabilities.FEATURE_ROUTE_RECONFIGURE = false

instance (s : Actor) (peer : DeviceId) : Decidable (s.restarts peer) :=
  decidable_of_iff ((s.sessions.get peer).any fun session =>
      !session.hello.capabilities.has Capabilities.FEATURE_ROUTE_RECONFIGURE) <| by
    unfold restarts
    simp [Option.any_eq_true]

/-- The streams that an event can end, by their keys. -/
def may_end (env : Env) (s : Actor) (event : Event) (key : RouteKey) : Prop :=
  match event with
  | .Command (.StopRoute k) => key = k
  | .Command (.Disconnect id) | .Command (.ForgetDevice id) => key.peer = id
  | .Command (.SetBlocked id blocked) => blocked = true ∧ key.peer = id
  | .Command (.SetPermission id _ policy) => policy = .Deny ∧ key.peer = id
  | .Command (.UpdateSettings ..) | .Command (.SetDeviceProfile ..)
  | .Command (.PreferLossless _) =>
      s.restarts key.peer
  | .Control conn_id (.RouteStop stop) =>
      s.conn_index.get conn_id = some key.peer ∧ key.id = stop.route.toUInt8
  | .Closed conn_id reason => s.conn_index.get conn_id = some key.peer ∧ reason.ends_routes = true
  | .AudioFailed peer id _ => key = ⟨peer, id⟩
  | .ReceiverReady peer id _ (.error _) => key = ⟨peer, id⟩
  | .SenderReady k _ (.error _) | .EncoderFailed k _ =>
      ∃ r ∈ s.routes, r.key = key ∧ r.encoder = some k
  | .Tick => s.restarts key.peer ∨ ∃ r ∈ s.routes, r.key = key ∧ expired env r = true
  | _ => False

/-- The devices whose session an event ends for good, with all their routes. -/
def retires (s : Actor) (event : Event) (id : DeviceId) : Prop :=
  match event with
  | .Closed conn_id reason => s.conn_index.get conn_id = some id ∧ reason.ends_routes = true
  | .Command (.Disconnect device_id) | .Command (.ForgetDevice device_id) => device_id = id
  | .Command (.SetBlocked device_id blocked) => device_id = id ∧ blocked = true
  | _ => False

/-- Routes that an event is about because their device is connected. -/
def serves (s : Actor) (event : Event) (key : RouteKey) : Prop :=
  match event with
  | .Control conn_id (.RouteUpdate _) => s.conn_index.get conn_id = some key.peer
  | .Command (.AudioDevicesChanged ..) => ∃ r ∈ s.routes, r.key = key ∧ r.status = .Active
  | _ => False

/-- The routes a request meets when it is accepted: at once, after the checks of its arrival, or on
the user's word. -/
def deciding (env : Env) (s : Actor) (event : Event) (routes : List Route) (peer : DeviceId)
    (req : RouteRequest) (kind : RouteKind) : Prop :=
  (∃ conn_id, event = .Control conn_id (.RouteRequest req) ∧
    s.check_local_capability env kind = none ∧
    routes = (s.make_room env (s.feed_in_the_way peer kind)).routes) ∨
  ∃ request_id remember, event = .Command (.RespondRouteRequest request_id true remember) ∧
    routes = s.routes

end Actor

/-- The events that a device which opened, failed or changed brings. -/
def Event.is_audio (event : Event) : Prop :=
  match event with
  | .AudioFailed .. | .EncoderFailed .. | .Command (.AudioDevicesChanged ..) => True
  | _ => False

/-- The events that change the settings, and what becomes of the speakers' mute. -/
def Event.configures (event : Event) (old mutes : Bool) : Prop :=
  match event with
  | .Command (.UpdateSettings settings _) => mutes = settings.capture.mute_local_speakers
  | .Command (.SetDeviceProfile ..) => mutes = old
  | _ => False

/-- The events after which running streams may get other profiles. -/
def Event.settles (event : Event) : Prop :=
  match event with
  | .Tick | .Command (.UpdateSettings ..) | .Command (.SetDeviceProfile ..)
  | .Command (.PreferLossless _) => True
  | _ => False

theorem Actor.may_end_of_restarts {env : Env} {s : Actor} {event : Event} {key : RouteKey}
    (he : event.settles) (h : s.restarts key.peer) : s.may_end env event key := by
  unfold Event.settles at he
  split at he
  · exact .inl h
  · exact h
  · exact h
  · exact h
  · exact he.elim

/-! ## 2. Acts -/

/-- A route's own mute, and the microphone mute over it. -/
def Route.silenced (mic_muted muted : Bool) (r : Route) : Route :=
  let silent := muted || (r.kind.is_mic && mic_muted)
  { r with
    muted
    receiver_controls := r.receiver_controls.map fun c => { c with muted := silent }
    sender_controls := r.sender_controls.map fun c => { c with muted := silent } }

/-- A peer's word on a route: only what is played here follows it. -/
def Route.hushed (muted : Bool) (r : Route) : Route :=
  { r with
    muted
    receiver_controls := r.receiver_controls.map fun c => { c with muted } }

/-- The microphone mute on a route. -/
def Route.mic_silenced (muted : Bool) (r : Route) : Route :=
  if r.kind.is_mic then
    { r with
      sender_controls := r.sender_controls.map fun c => { c with muted := muted || r.muted }
      receiver_controls := r.receiver_controls.map fun c => { c with muted := muted || r.muted } }
  else r

/-- A route whose session went down. -/
def Route.suspended (now : Instant) (r : Route) : Route :=
  match r.status with
  | .Active => { r.released with status := .Paused, paused_at := some now }
  | .Paused => r.released
  | _ =>
      if r.requested_locally then
        { r.released with reply := none, status := .Paused, paused_at := some now }
      else { r.released with reply := none, status := .Stopped }

/-- The route that a request for one adds. -/
structure Route.IsRequest (r : Route) (peer : DeviceId) (id : UInt8) (kind : RouteKind) : Prop where
  peer : r.peer = peer
  id : r.id = id
  kind : r.kind = kind
  status : r.status = .Requesting
  requested_locally : r.requested_locally = true
  profile : r.profile.isSome = true
  encoder : r.encoder = none
  subscription : r.subscription = none
  receiver : r.receiver = none
  start_id : r.start_id = 0
  muted : r.muted = false
  sender_controls : r.sender_controls = none
  receiver_controls : r.receiver_controls = none
  fit : r.Fit

/-- The route that an accepted request adds, before its pipeline starts. -/
def admitted (peer : DeviceId) (id : UInt8) (kind : RouteKind) (volume : ℚ)
    (profile : StreamProfile)
    (deadline : Instant) : Route :=
  { new_route peer id kind false volume with profile := some profile, deadline := some deadline }

/-- Routes that waited for a group subscribe to it. -/
inductive Listens (key : EncoderKey) (sessions : Table DeviceId Session) :
    List RouteKey → List Route → RunningSender → List Route → RunningSender → List RouteKey → Prop
  | nil (routes : List Route) (sender : RunningSender) :
      Listens key sessions [] routes sender routes sender []
  | skip {k : RouteKey} {waiting ready : List RouteKey} {routes routes' : List Route}
      {sender sender' : RunningSender}
      (h : ∀ r,
        routes.find? (fun r => has_key k r && r.encoder = some key && r.subscription.isNone) =
        some r → sessions.has k.peer = true → r.sender_controls = none)
      (h' : Listens key sessions waiting routes sender routes' sender' ready) :
      Listens key sessions (k :: waiting) routes sender routes' sender' ready
  | join {k : RouteKey} {waiting ready : List RouteKey} {routes routes' : List Route}
      {sender sender' : RunningSender} (r : Route) (member : GroupMember)
      (h : routes.find? (fun r => has_key k r && r.encoder = some key && r.subscription.isNone) =
        some r)
      (hm : member.id = sender.next_subscription)
      (h' : Listens key sessions waiting
        (routes.modify_first
          (fun r => has_key k r && r.encoder = some key && r.subscription.isNone)
          fun r => { r with
            subscription := some
              { key, start_id := sender.start_id, id := sender.next_subscription } })
        { sender with
          subscribers := sender.subscribers ++ [member]
          next_subscription := sender.next_subscription + 1 }
        routes' sender' ready) :
      Listens key sessions (k :: waiting) routes sender routes' sender' (k :: ready)

/-- Devices this one feeds from a source. -/
def Board.receivers_of (b : Board) (source : String) : Nat :=
  b.routes.countP fun r =>
    r.status ≠ .Stopped ∧ r.status ≠ .Paused ∧ r.kind.local_is_source ∧ r.kind.endpoints.1 = source

/-- The running streams with a device. -/
def Board.active (b : Board) (peer : DeviceId) : Nat :=
  b.routes.countP fun r => r.peer = peer ∧ r.status = .Active

/-- Whether a route feeds the virtual microphone. -/
def Route.feeds (r : Route) : Bool := r.kind = .ReceiveMicToVirtualMic ∧ r.status ≠ .Stopped

/-- The virtual microphone is free for a device, or the user took it from another one's route. -/
def Actor.clears_feed (s : Actor) (event : Event) (peer : DeviceId) (routes : List Route) : Prop :=
  (∀ r ∈ routes, r.feeds = false) ∨
    ∃ key caller, event = .Command (.StartRoute peer .ReceiveMicToVirtualMic true caller) ∧
      s.virtual_mic_feed (some peer) = some key ∧ routes = s.routes.eraseP (has_key key)

/-- What the speakers are told when a session ends. -/
def Board.leaves (b : Board) (id : DeviceId) : List Bool :=
  if b.muted_by.has id && (b.muted_by.erase id).is_empty &&
      !(b.mutes && b.routes.any Route.is_system) then [false]
  else []

/-- What the speakers are told when the user switches their mute on or off. -/
def Board.switches (b : Board) (mutes : Bool) : List Bool :=
  if b.mutes ≠ mutes ∧ b.muted_by.is_empty ∧
      b.routes.any fun r => r.is_system && r.sender_controls.isSome then [mutes]
  else []

/-- The board when the routes with a device are paused. -/
def Board.paused (b : Board) (peer : DeviceId) (now : Instant) : Board :=
  { b with
    routes := (b.routes.map fun r => if r.peer = peer then r.suspended now else r).filter
      fun r => r.status ≠ .Stopped
    encoders := b.routes.foldl
      (fun e r => if r.peer = peer then pruned (dropped e r.subscription) else e) b.encoders }

/-- A stream of this computer's sound ends: the event is about it, or it cannot run. -/
def may_finish (env : Env) (s₀ : Actor) (event : Event) (b : Board) (key : RouteKey)
    (route : Route) : Prop :=
  route.kind = .SendSystemAudio → s₀.may_end env event key ∨
    (b.sessions.has route.peer = false ∧ s₀.serves event key) ∨
    route.profile = none ∨ ¬ (b.routes.map Route.key).Nodup

/-- One step of the handling of `event`, which met the state `s₀`. -/
inductive Act [Crypto] (env : Env) (s₀ : Actor) (event : Event) :
    List DeviceId → Board → Board → Prop
  | tend {b : Board} (routes : List Route) (h : List.Forall₂ Route.Alike b.routes routes) :
      Act env s₀ event [] b { b with routes }
  /-- the user mutes a route -/
  | silence {b : Board} (key : RouteKey) (muted : Bool) :
      Act env s₀ event [] b
        { b with routes := b.routes.modify_first (has_key key) (Route.silenced b.mic_muted muted) }
  /-- a peer mutes a route -/
  | hush {b : Board} (conn_id : Nat) (peer : DeviceId) (m : MuteSet)
      (he : event = .Control conn_id (.MuteSet m)) (hb : b = s₀.board)
      (hc : s₀.conn_index.get conn_id = some peer) (hp : s₀.peer_may_control peer = true)
      (ht : m.target ≠ ControlTarget.DeviceSpeakers.code) :
      Act env s₀ event [] b
        { b with
          routes :=
            b.routes.modify_first (has_key ⟨peer, m.route.toUInt8⟩) (Route.hushed m.muted) }
  | mute_mic {b : Board} (muted : Bool) (encoders : Table EncoderKey EncoderSlot)
      (he : event = .Command (.SetMicMuted muted)) (hb : b = s₀.board)
      (h : Tuned muted b.encoders encoders) :
      Act env s₀ event [] b
        { b with
          mic_muted := muted, encoders, routes := b.routes.map (Route.mic_silenced muted) }
  | tune {b : Board} (encoders : Table EncoderKey EncoderSlot)
      (h : Tuned b.mic_muted b.encoders encoders) : Act env s₀ event [] b { b with encoders }
  | prune {b : Board} : Act env s₀ event [] b { b with encoders := pruned b.encoders }
  | activate {b : Board} (key : RouteKey) (r : Route) (he : ¬ event.settles)
      (hr : b.routes.find? (has_key key) = some r) (hs : r.status = .Starting) :
      Act env s₀ event [] b
        { b with routes := b.routes.modify_first (has_key key) Route.activated }
  /-- a route is stopped, or fails -/
  | finish {b : Board} (key : RouteKey) (route : Route) (rest : List Route)
      (h : b.routes.remove_first (has_key key) = some (route, rest))
      (he : may_finish env s₀ event b key route) :
      Act env s₀ event [] b
        { b with
          routes := rest
          encoders := pruned (dropped b.encoders route.subscription)
          said := b.said ++ b.ends route }
  /-- a peer refuses a route -/
  | refuse {b : Board} (conn_id : Nat) (peer : DeviceId) (rej : RouteReject) (route : Route)
      (rest : List Route) (he : event = .Control conn_id (.RouteReject rej)) (hb : b = s₀.board)
      (hc : s₀.conn_index.get conn_id = some peer)
      (h : b.routes.remove_first (has_key ⟨peer, rej.route.toUInt8⟩) = some (route, rest)) :
      Act env s₀ event [] b
        { b with routes := rest, encoders := dropped b.encoders route.subscription }
  /-- a route the peer accepted cannot start here -/
  | lose {b : Board} (conn_id : Nat) (peer : DeviceId) (acc : RouteAccept) (route : Route)
      (rest : List Route) (he : event = .Control conn_id (.RouteAccept acc)) (hb : b = s₀.board)
      (hc : s₀.conn_index.get conn_id = some peer)
      (h : b.routes.remove_first
        (fun r => has_key ⟨peer, acc.route.toUInt8⟩ r && r.status = .Requesting) =
          some (route, rest))
      (hr : route.kind = .SendSystemAudio →
        b.sessions.has route.peer = false ∨ route.profile = none) :
      Act env s₀ event [] b
        { b with routes := rest, encoders := dropped b.encoders route.subscription }
  /-- a peer accepts a route -/
  | accept {b b₁ : Board} (conn_id : Nat) (peer : DeviceId) (acc : RouteAccept) (route r₁ : Route)
      (rest : List Route) (profile : Option StreamProfile) (deadline : Instant) (ready : Bool)
      (he : event = .Control conn_id (.RouteAccept acc)) (hb : b = s₀.board)
      (h : b.routes.remove_first
        (fun r => has_key ⟨peer, acc.route.toUInt8⟩ r && r.status = .Requesting) =
          some (route, rest))
      (hp : route.profile.isSome = true → profile.isSome = true)
      (hbegun : Begun { b with routes := rest }
        { route with profile, status := .Starting, deadline := some deadline } b₁ r₁ ready)
      (hfit : route.Fit → Route.Fit { route with profile }) :
      Act env s₀ event [] b { b₁ with routes := rest ++ [r₁] }
  /-- a peer's paused routes make way for one it asks for -/
  | supplant {b : Board} (peer : DeviceId) (req : RouteRequest) (kind : RouteKind)
      (hc : s₀.consents env event peer req kind) :
      Act env s₀ event [] b
        { b with
          routes := b.routes.filter fun r => !Actor.replaced_by peer req.route.toUInt8 kind r
          encoders := (b.routes.filter (Actor.replaced_by peer req.route.toUInt8 kind)).foldl
            (fun e r => dropped e r.subscription) b.encoders }
  /-- a route that a peer asked for is accepted -/
  | take_on {b b₁ : Board} (peer : DeviceId) (req : RouteRequest) (kind : RouteKind) (volume : ℚ)
      (profile : StreamProfile) (deadline : Instant) (r₁ : Route) (ready : Bool)
      (hc : s₀.consents env event peer req kind)
      (hmax : b.max_receivers = s₀.settings.max_receivers)
      (hb : s₀.deciding env event b.routes peer req kind)
      (hfree : ∀ r ∈ b.routes, r.key = ⟨peer, req.route.toUInt8⟩ →
        Actor.replaced_by peer req.route.toUInt8 kind r = true)
      (hbegun : Begun
        { b with
          routes := b.routes.filter fun r => !Actor.replaced_by peer req.route.toUInt8 kind r
          encoders := (b.routes.filter (Actor.replaced_by peer req.route.toUInt8 kind)).foldl
            (fun e r => dropped e r.subscription) b.encoders }
        (admitted peer req.route.toUInt8 kind volume profile deadline) b₁ r₁ ready)
      (hsane : profile.Sane) :
      Act env s₀ event [] b
        { b₁ with
          routes :=
            (b.routes.filter fun r => !Actor.replaced_by peer req.route.toUInt8 kind r) ++ [r₁] }
  /-- a running route's pipeline is opened again, for another encoding -/
  | rebuild {b b₁ : Board} (key : RouteKey) (route r₁ : Route) (rest : List Route) (ready : Bool)
      (h : b.routes.remove_first (has_key key) = some (route, rest))
      (hbegun : Begun
        { b with routes := rest, encoders := pruned (dropped b.encoders route.subscription) }
        route.released b₁ r₁ ready)
      (hs : route.status = .Active) :
      Act env s₀ event [] b { b₁ with routes := rest ++ [r₁] }
  /-- the same where it cannot be, with another route of the same key to fail in its place -/
  | unplug {b : Board} (key : RouteKey) (route : Route) (rest : List Route)
      (h : b.routes.remove_first (has_key key) = some (route, rest))
      (hk : ¬ (b.routes.map Route.key).Nodup) :
      Act env s₀ event [] b
        { b with
          routes := rest ++ [route.released]
          encoders := pruned (dropped b.encoders route.subscription) }
  /-- a route moves to the devices there are now -/
  | reopen {b b₁ : Board} (key : RouteKey) (route r₁ : Route) (ready : Bool) (he : event.is_audio)
      (h : b.routes.find? (has_key key) = some route)
      (hbegun : Begun
        { b with
          encoders := pruned (dropped (closed b.encoders route.encoder) route.subscription) }
        route.released b₁ r₁ ready)
      (hs : (s₀.routes.map Route.key).Nodup → route.status = .Active) :
      Act env s₀ event [] b
        { b₁ with routes := b.routes.modify_first (has_key key) fun _ => r₁ }
  | close {b : Board} (key : Option EncoderKey) (he : event.is_audio) :
      Act env s₀ event [] b { b with encoders := closed b.encoders key }
  /-- a group cannot be opened -/
  | give_up {b : Board} (key : EncoderKey) (start_id : Nat) (e : EngineError)
      (waiting : List RouteKey) (group : GroupControls)
      (he : event = .SenderReady key start_id (.error e)) (hb : b = s₀.board)
      (h : b.encoders.get key = some (.Starting start_id waiting group)) :
      Act env s₀ event [] b { b with encoders := b.encoders.erase key }
  /-- a group is open -/
  | run {b : Board} (key : EncoderKey) (start_id : Nat) (waiting ready : List RouteKey)
      (group : GroupControls) (routes : List Route) (sender : RunningSender)
      (encoders : Table EncoderKey EncoderSlot) (he : event = .SenderReady key start_id (.ok ()))
      (hb : b = s₀.board) (h : b.encoders.get key = some (.Starting start_id waiting group))
      (hl : Listens key b.sessions waiting b.routes
        { start_id, controls := group, subscribers := [], next_subscription := 0 }
        routes sender ready)
      (ht : Tuned b.mic_muted ((b.encoders.erase key).insert key (.Running sender)) encoders) :
      Act env s₀ event [] b { b with routes, encoders }
  /-- a playback is open -/
  | receive {b : Board} (peer : DeviceId) (id : UInt8) (start_id : Nat)
      (he : event = .ReceiverReady peer id start_id (.ok ())) (hb : b = s₀.board)
      (hs : b.sessions.has peer = true) :
      Act env s₀ event [] b
        { b with
          routes := b.routes.modify_first
            (fun r => has_key ⟨peer, id⟩ r && r.start_id = start_id)
            fun r => { r with start_id := 0, receiver := some start_id } }
  | receive_late {b : Board} (peer : DeviceId) (id : UInt8) (start_id : Nat)
      (he : event = .ReceiverReady peer id start_id (.ok ())) (hb : b = s₀.board)
      (hs : b.sessions.has peer = false) :
      Act env s₀ event [] b
        { b with
          routes := b.routes.modify_first
            (fun r => has_key ⟨peer, id⟩ r && r.start_id = start_id)
            fun r => { r with start_id := 0 } }
  /-- a peer is asked for a route -/
  | request {b : Board} (peer : DeviceId) (kind : RouteKind) (session : Session) (r : Route)
      (hs : b.sessions.get peer = some session)
      (hr : r.IsRequest peer session.next_route kind)
      (hnew : ∀ r ∈ b.routes, r.peer = peer → r.kind = kind → r.status = .Stopped)
      (hroom : kind.local_is_source = true → b.receivers_of kind.endpoints.1 < b.max_receivers)
      (hfeed : kind = .ReceiveMicToVirtualMic → s₀.clears_feed event peer b.routes) :
      Act env s₀ event [peer] b
        { b with
          routes := b.routes ++ [r]
          sessions := b.sessions.insert peer session.alloc_route.1 }
  /-- paused routes are taken out to be asked for again -/
  | set_aside {b : Board} (peer : DeviceId) (est : Established)
      (he : s₀.installs env event peer est) (ha : b.aside = []) :
      Act env s₀ event [peer] b
        { b with
          routes := b.routes.filter fun r =>
            !(r.peer = peer ∧ r.status = .Paused ∧ r.requested_locally)
          aside :=
            b.routes.filter fun r => r.peer = peer ∧ r.status = .Paused ∧ r.requested_locally }
  /-- what could not be asked for stays paused -/
  | put_back {b : Board} (peer : DeviceId) (kind : RouteKind) (route : Route) (rest : List Route)
      (hp : route.peer = peer)
      (hn : ∀ r ∈ b.routes, r.peer = peer → r.kind ≠ kind)
      (h : b.aside.remove_first (fun r => r.kind = kind) = some (route, rest)) :
      Act env s₀ event [] b { b with routes := b.routes ++ [route], aside := rest }
  /-- the routes that have been asked for again are gone -/
  | discard {b : Board}
      (h : ∀ r ∈ b.aside, ∃ r' ∈ b.routes, r'.peer = r.peer ∧ r'.kind = r.kind) :
      Act env s₀ event [] b { b with aside := [] }
  /-- a session begins -/
  | install {b : Board} (id : DeviceId) (est : Established) (session : Session)
      (he : s₀.installs env event id est) (hb : b.sessions.get id = none)
      (hr : session.next_route = if est.dialed then 2 else 1) :
      Act env s₀ event [] b { b with sessions := b.sessions.insert id session }
  /-- a session makes way for another with the same device -/
  | supersede {b : Board} (id : DeviceId) (est : Established) (session : Session) (conn_id : Nat)
      (now : Instant) (he : s₀.installs env event id est) (hs : b.sessions.has id = true)
      (hb : b.routes = s₀.routes) (hr : session.next_route = if est.dialed then 2 else 1) :
      Act env s₀ event [] b
        { b.paused id now with
          sessions := (b.sessions.erase id).insert id session
          closed := b.closed ++ [conn_id] }
  /-- a session breaks off -/
  | suspend {b : Board} (id : DeviceId) (conn_id : Nat) (reason : StopReason) (now : Instant)
      (he : event = .Closed conn_id reason) (hc : s₀.conn_index.get conn_id = some id)
      (hr : reason.ends_routes = false) (hb : b = s₀.board) :
      Act env s₀ event [] b
        { b.paused id now with
          sessions := b.sessions.erase id
          muted_by := b.muted_by.erase id
          said := b.said ++ b.leaves id }
  /-- a session ends for good -/
  | leave {b : Board} (id : DeviceId) (conn_ids : List Nat) (he : s₀.retires event id) :
      Act env s₀ event [] b
        { b with
          sessions := b.sessions.erase id
          closed := b.closed ++ conn_ids
          muted_by := b.muted_by.erase id
          said := b.said ++ b.leaves id }
  /-- a peer says again what it can do -/
  | greet {b : Board} (conn_id : Nat) (hello : Hello) (peer : DeviceId) (old new : Session)
      (he : event = .Control conn_id (.Hello hello)) (h : b.sessions.get peer = some old)
      (hl : new.link = old.link) (hn : new.next_route = old.next_route) :
      Act env s₀ event [] b { b with sessions := b.sessions.insert peer new }
  | hang_up {b : Board} (conn_id : Nat) :
      Act env s₀ event [] b { b with closed := b.closed ++ [conn_id] }
  /-- a peer mutes this device's speakers, or gives them back -/
  | hear {b : Board} (conn_id : Nat) (peer : DeviceId) (m : MuteSet)
      (he : event = .Control conn_id (.MuteSet m)) (hb : b = s₀.board)
      (hc : s₀.conn_index.get conn_id = some peer) (hp : s₀.peer_may_control peer = true)
      (ht : m.target = ControlTarget.DeviceSpeakers.code) :
      Act env s₀ event [] b
        { b with
          muted_by := if m.muted then b.muted_by.insert peer () else b.muted_by.erase peer
          said := b.said ++ [m.muted] }
  /-- the user's settings change -/
  | settle {b : Board} (mutes auto_mic : Bool) (max_receivers : Nat) (routes : List Route)
      (encoders : Table EncoderKey EncoderSlot) (he : event.configures b.mutes mutes)
      (hb : b = s₀.board) (hr : List.Forall₂ Route.Alike b.routes routes)
      (ht : Tuned b.mic_muted b.encoders encoders) :
      Act env s₀ event [] b
        { b with
          routes, encoders, mutes, max_receivers, auto_mic, said := b.said ++ b.switches mutes }

/-- The handling of an event, from one board to another; `l` are the peers that may have been
asked for routes. -/
inductive Acts [Crypto] (env : Env) (s₀ : Actor) (event : Event) :
    List DeviceId → Board → Board → Prop
  | refl (b : Board) : Acts env s₀ event [] b b
  | tail {l m : List DeviceId} {a b c : Board} (h : Acts env s₀ event l a b)
      (h' : Act env s₀ event m b c) : Acts env s₀ event (m ++ l) a c
  | more {l m : List DeviceId} {a b : Board} (h : Acts env s₀ event l a b) (hl : l.Sublist m) :
      Acts env s₀ event m a b

namespace Acts

variable [Crypto] {env : Env} {s₀ : Actor} {event : Event} {a b c : Board} {l m : List DeviceId}

theorem of_act (h : Act env s₀ event l a b) : Acts env s₀ event l a b := by
  have := (refl a).tail h
  rwa [List.append_nil] at this

theorem trans (h : Acts env s₀ event l a b) (h' : Acts env s₀ event m b c) :
    Acts env s₀ event (m ++ l) a c := by
  induction h' with
  | refl => exact h
  | tail _ hact ih =>
      rw [List.append_assoc]
      exact (ih h).tail hact
  | more _ hl ih => exact (ih h).more (hl.append_right _)

theorem follow (h : Acts env s₀ event [] a b) (h' : Acts env s₀ event l b c) :
    Acts env s₀ event l a c := by
  have := h.trans h'
  rwa [List.append_nil] at this

theorem any (h : Acts env s₀ event [] a b) : Acts env s₀ event l a b := h.more (List.nil_sublist l)

theorem of_eq (h : b = a) : Acts env s₀ event [] a b := by
  rw [h]
  exact refl a

/-- What holds of a board and survives every act holds after the event. -/
theorem invariant {P : Board → Prop} (hP : ∀ l a b, Act env s₀ event l a b → P a → P b)
    (h : Acts env s₀ event l a b) (ha : P a) : P b := by
  induction h with
  | refl => exact ha
  | tail _ hact ih => exact hP _ _ _ hact (ih ha)
  | more _ _ ih => exact ih ha

end Acts

/-- Every session of `b` is one that `a` has, with the same hello. -/
def Greets (a b : Table DeviceId Session) : Prop :=
  ∀ peer session, b.get peer = some session →
    ∃ session₀, a.get peer = some session₀ ∧ session₀.hello = session.hello

theorem Greets.refl (a : Table DeviceId Session) : Greets a a :=
  fun _ session h => ⟨session, h, rfl⟩

theorem Greets.trans {a b c : Table DeviceId Session} (h : Greets a b) (h' : Greets b c) :
    Greets a c := by
  intro peer session hs
  obtain ⟨session₁, hs₁, he₁⟩ := h' peer session hs
  obtain ⟨session₀, hs₀, he₀⟩ := h peer session₁ hs₁
  exact ⟨session₀, hs₀, he₀.trans he₁⟩

theorem Begun.sessions {b b' : Board} {r r' : Route} {ready : Bool} (h : Begun b r b' r' ready) :
    b'.sessions = b.sessions := by
  cases h <;> rfl

section
variable [Crypto] {env : Env} {s₀ : Actor} {event : Event} {a b : Board} {l : List DeviceId}

theorem Actor.not_installs_of_settles {id : DeviceId} {est : Established} (he : event.settles) :
    ¬ s₀.installs env event id est := by
  unfold Event.settles at he
  rintro (⟨rfl, _⟩ | ⟨p, hp, _⟩)
  · exact he
  · unfold Actor.completes at hp
    split at hp
    · exact he
    · exact he
    · exact he
    · exact hp

/-- No session begins at a timer or a setting. -/
theorem Act.greets (he : event.settles) (h : Act env s₀ event l a b) :
    Greets a.sessions b.sessions := by
  cases h with
  | accept _ _ _ _ _ _ _ _ _ _ _ _ _ hbegun =>
      rw [hbegun.sessions]
      exact .refl _
  | take_on _ _ _ _ _ _ _ _ _ _ _ _ hbegun =>
      rw [hbegun.sessions]
      exact .refl _
  | rebuild _ _ _ _ _ _ hbegun =>
      rw [hbegun.sessions]
      exact .refl _
  | reopen _ _ _ _ _ _ hbegun =>
      rw [hbegun.sessions]
      exact .refl _
  | request peer kind session r hs =>
      intro p session' h
      rw [Table.get_insert] at h
      split at h
      · next hp =>
          obtain rfl := Option.some_inj.1 h
          exact ⟨session, hp ▸ hs, rfl⟩
      · exact ⟨session', h, rfl⟩
  | install _ _ _ hi => exact absurd hi (s₀.not_installs_of_settles he)
  | supersede _ _ _ _ _ hi => exact absurd hi (s₀.not_installs_of_settles he)
  | suspend => exact fun p session h => ⟨session, Table.shrinks_erase _ _ p session h, rfl⟩
  | leave => exact fun p session h => ⟨session, Table.shrinks_erase _ _ p session h, rfl⟩
  | greet _ _ _ _ _ hev =>
      subst hev
      exact he.elim
  | _ => exact .refl _

theorem Acts.greets (he : event.settles) (h : Acts env s₀ event l a b) :
    Greets a.sessions b.sessions := by
  induction h with
  | refl => exact .refl _
  | tail _ hact ih => exact ih.trans (hact.greets he)
  | more _ _ ih => exact ih

end

end SoundPush
