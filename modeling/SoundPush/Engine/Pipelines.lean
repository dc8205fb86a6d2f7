/-
`Pipelines` -- encoder groups shared by routes and the opening of audio devices
(`sp-engine/src/actor/pipelines.rs`), and the small helpers every handler uses.

A route is `Starting` until its pipeline is ready; only then is `RouteAccept`
sent (accepting side) or the caller answered (requesting side). Devices open in
tasks of their own, so starting a pipeline appends a task to `out` and its result
comes back as an event with the start's id.

A subscription leaves its group when it is dropped, which in the source happens
wherever a `Route` or its field is: `drop_subscription` is called in each of
these places.
-/
import SoundPush.Engine.Actor
import SoundPush.Lib.FirstMatch

set_option autoImplicit false

namespace SoundPush

namespace Actor

/-! ## 1. Effects -/

def emit (s : Actor) (o : Output) : Actor := { s with out := s.out ++ [o] }

def set_routes (s : Actor) (routes : List Route) : Actor := { s with routes }

def set_encoders (s : Actor) (encoders : Table EncoderKey EncoderSlot) : Actor :=
  { s with encoders }

def set_settings (s : Actor) (settings : Settings) : Actor := { s with settings }

/-- Send a control message to a connected peer. -/
def send_to (s : Actor) (peer : DeviceId) (body : Body) : Actor :=
  match s.sessions.get peer with
  | some session => s.emit (.Send session.conn_id body)
  | none => s

/-- Answer a command, if anyone waits for it. -/
def answer (s : Actor) (reply : Reply) (result : Except EngineError Answer) : Actor :=
  match reply with
  | .caller id => s.emit (.Answer id result)
  | .dropped => s

/-- Answer the start of a route, if it was not answered before. -/
def answer_route (s : Actor) (route : Route) (result : Except EngineError Answer) : Actor :=
  match route.reply with
  | some reply => s.answer reply result
  | none => s

def notice (s : Actor) (key : String) : Actor := s.emit (.Notice key)

/-- When the firewall blocks incoming connections, that is the fix to offer. -/
def error_notice (env : Env) (s : Actor) (error : EngineError) : Actor :=
  if (error = .Unreachable ∨ error = .NetworkBlocked) ∧ env.inbound_blocked then
    s.emit (.ErrorNotice .FirewallBlocked)
  else s.emit (.ErrorNotice error)

def save_settings (env : Env) (s : Actor) : Actor :=
  if env.settings_saved then s else s.error_notice env .Storage

section
variable (env : Env) (s : Actor)

@[simp] theorem emit_tables (o : Output) : (s.emit o).toTables = s.toTables := rfl

@[simp] theorem set_encoders_tables (e : Table EncoderKey EncoderSlot) :
    (s.set_encoders e).toTables = s.toTables := rfl

@[simp] theorem set_settings_tables (c : Settings) : (s.set_settings c).toTables = s.toTables := rfl

@[simp] theorem set_routes_access (r : List Route) : (s.set_routes r).toAccess = s.toAccess := rfl

@[simp] theorem set_routes_sessions (r : List Route) :
    (s.set_routes r).sessions = s.sessions := rfl

@[simp] theorem set_routes_routes (r : List Route) : (s.set_routes r).routes = r := rfl

@[simp] theorem send_to_tables (peer : DeviceId) (body : Body) :
    (s.send_to peer body).toTables = s.toTables := by
  unfold send_to
  split <;> rfl

@[simp] theorem answer_tables (reply : Reply) (result : Except EngineError Answer) :
    (s.answer reply result).toTables = s.toTables := by
  unfold answer
  split <;> rfl

@[simp] theorem answer_route_tables (route : Route) (result : Except EngineError Answer) :
    (s.answer_route route result).toTables = s.toTables := by
  unfold answer_route
  split
  · exact s.answer_tables _ _
  · rfl

@[simp] theorem notice_tables (key : String) : (s.notice key).toTables = s.toTables := rfl

@[simp] theorem error_notice_tables (error : EngineError) :
    (s.error_notice env error).toTables = s.toTables := by
  unfold error_notice
  split <;> rfl

@[simp] theorem save_settings_tables : (s.save_settings env).toTables = s.toTables := by
  unfold save_settings
  split
  · rfl
  · exact s.error_notice_tables env _

end

end Actor

/-! ## 2. What this device can do -/

/-- Sources and sinks this device can offer. -/
structure LocalCapabilities where
  system_audio : Bool
  app_audio : Bool
  microphone : Bool
  mixed : Bool
  speaker : Bool
  virtual_mic : Bool
  deriving DecidableEq, Repr

namespace Actor

def virtual_mic_target (env : Env) (s : Actor) : Option RenderTarget :=
  env.virtual_mic_target s.settings.desktop.virtual_mic_device

def local_capabilities (env : Env) (s : Actor) : LocalCapabilities :=
  { system_audio := env.supports_loopback
    app_audio := env.app_audio_source.isSome
    microphone := true
    -- both halves have to exist for the mixed source
    mixed := env.supports_loopback
    speaker := true
    virtual_mic := (s.virtual_mic_target env).isSome }

def capability_bits (env : Env) (s : Actor) : Capabilities :=
  let caps := s.local_capabilities env
  let always : Capabilities :=
    ⟨Capabilities.CODEC_OPUS ||| Capabilities.CODEC_PCM ||| Capabilities.FEATURE_REMOTE_CONTROL |||
      Capabilities.FEATURE_MIC_MONITOR ||| Capabilities.FEATURE_SESSION_RESUME |||
      Capabilities.FEATURE_NETWORK_TEST ||| Capabilities.FEATURE_ROUTE_RECONFIGURE |||
      Capabilities.FEATURE_DTX ||| Capabilities.FEATURE_RECEIVER_DENOISE⟩
  let with_if (bits : Capabilities) (has : Bool) (bit : BitVec 64) : Capabilities :=
    if has then bits.with_bit bit else bits
  let bits := with_if always env.tcp_listening Capabilities.TRANSPORT_TCP
  let bits := with_if bits caps.system_audio Capabilities.SOURCE_SYSTEM_AUDIO
  let bits := with_if bits caps.app_audio Capabilities.SOURCE_APP_AUDIO
  let bits := with_if bits caps.microphone Capabilities.SOURCE_MICROPHONE
  let bits := with_if bits caps.mixed Capabilities.SOURCE_MIXED
  let bits := with_if bits caps.speaker Capabilities.SINK_SPEAKER
  with_if bits caps.virtual_mic Capabilities.SINK_VIRTUAL_MIC

def mic_source (s : Actor) : CaptureSource :=
  match s.settings.mic.device with
  | some d => .Input d
  | none => .DefaultInput

def speaker_target (s : Actor) : RenderTarget :=
  match s.settings.output.device with
  | some d => .Output d
  | none => .DefaultOutput

/-- What "send this computer's audio" captures: everything, or one app (or all but one). -/
def system_audio_source (s : Actor) : CaptureSource :=
  match s.settings.capture.app with
  | some process => .Application process s.settings.capture.exclude_app
  | none => .SystemLoopback s.settings.capture.system_device

/-- Whether this device denoises a microphone stream itself. -/
def denoise_here (s : Actor) (profile : StreamProfile) : Bool :=
  s.settings.mic.noise_suppression && !profile.denoise && !s.denoise.suspended

def update_keep_alive (s : Actor) : Actor :=
  let live (k : RouteKind → Bool) : Bool :=
    s.routes.any fun r => r.status == .Active && k r.kind
  let ka : KeepAlive :=
    { -- a mixed stream records the microphone too
      microphone :=
        s.monitor || live fun k =>
          k == .SendMicToSpeaker || k == .SendMicToVirtualMic || k == .SendMixed
      app_audio_capture := live fun k => k == .SendAppAudio
      playback := live fun k => !k.local_is_source }
  if ka ≠ s.keep_alive then { s with keep_alive := ka }.emit (.KeepAlive ka) else s

@[simp] theorem update_keep_alive_tables (s : Actor) :
    s.update_keep_alive.toTables = s.toTables := by
  unfold update_keep_alive
  dsimp only
  split <;> rfl

end Actor

/-! ## 3. Encoder groups -/

def SourceKey.of (source : CaptureSource) (is_mic apps : Bool) : SourceKey :=
  if apps then .Apps
  else
    match source with
    | .SystemLoopback device => .System device
    | .Application process exclude => .Application process exclude
    | .Input device => if is_mic then .Mic (some device) else .System (some device)
    | .DefaultInput => .Mic none

namespace EncoderKey

def new (source : CaptureSource) (mix : Option CaptureSource) (is_mic apps : Bool)
    (profile : StreamProfile) : EncoderKey :=
  let first := SourceKey.of source is_mic apps
  { source :=
      match mix with
      | some mic => .Mixed first (SourceKey.of mic true false)
      | none => first
    codec := profile.codec
    bitrate := profile.bitrate
    channels := profile.channels
    frame_us := profile.frame_us }

def is_mic (k : EncoderKey) : Bool :=
  match k.source with
  | .Mic _ => true
  | _ => false

/-- Mixed groups carry a microphone too. -/
def has_mic (k : EncoderKey) : Bool :=
  match k.source with
  | .Mic _ | .Mixed _ _ => true
  | _ => false

end EncoderKey

/-- Whether silence is sent as header-only DTX packets to this peer. -/
def dtx (session : Session) (continuous_capture : Bool) : Bool :=
  !continuous_capture && session.hello.capabilities.has Capabilities.FEATURE_DTX

/-- A route starts to listen; the group numbers its subscriptions. -/
def RunningSender.subscribe (sender : RunningSender) (key : EncoderKey) (route : RouteKey)
    (session : Session) (continuous_capture : Bool) : RunningSender × Subscription :=
  ({ sender with
      subscribers := sender.subscribers ++
        [{ id := sender.next_subscription, route, conn_id := session.conn_id,
           dtx := dtx session continuous_capture }]
      next_subscription := sender.next_subscription + 1 },
    { key, start_id := sender.start_id, id := sender.next_subscription })

namespace Actor

/-- A subscription is dropped: it leaves its group, if that group still runs. -/
def drop_subscription (s : Actor) (subscription : Option Subscription) : Actor :=
  match subscription with
  | none => s
  | some sub =>
      s.set_encoders <| s.encoders.modify sub.key fun slot =>
        match slot with
        | .Running sender =>
            if sender.start_id = sub.start_id then
              .Running { sender with
                subscribers := sender.subscribers.filter fun m => m.id ≠ sub.id }
            else slot
        | .Starting .. => slot

/-- Close encoder groups nobody listens to any more. -/
def prune_encoders (s : Actor) : Actor :=
  s.set_encoders <| s.encoders.retain fun _ slot =>
    match slot with
    | .Running sender => !sender.subscribers.isEmpty
    | .Starting .. => true

/-- Close a running encoder group now (its device failed or changed). A group still opening opens
on the current device anyway. -/
def close_encoder (s : Actor) (key : EncoderKey) : Actor :=
  match s.encoders.get key with
  | some (.Running _) => s.set_encoders (s.encoders.erase key)
  | _ => s

/-- Push microphone and mixed-source settings to the running groups that carry a microphone. -/
def update_mic_groups (s : Actor) : Actor :=
  s.set_encoders <| s.encoders.map_values fun key slot =>
    match slot with
    | .Starting .. => slot
    | .Running sender =>
        if !key.has_mic then slot
        else
          let fed := s.routes.filterMap fun r => if r.encoder = some key then r.profile else none
          -- it denoises here unless every route it feeds is denoised by the device that plays it
          let noise_suppression :=
            if fed.isEmpty then s.settings.mic.noise_suppression && !s.denoise.suspended
            else fed.any s.denoise_here
          let c : GroupControls := { sender.controls with
            gain_db := s.settings.mic.gain_db
            noise_suppression
            high_pass := s.settings.mic.high_pass
            echo_ducking := s.settings.mic.echo_ducking }
          let c : GroupControls :=
            if key.is_mic then { c with muted := s.mic_muted }
            else
              { c with
                mix_muted := s.mic_muted
                system_gain_db := s.settings.mixed.system_gain_db
                mix_gain_db := s.settings.mixed.mic_gain_db }
          .Running { sender with controls := c }

section
variable (s : Actor)

@[simp] theorem drop_subscription_tables (sub : Option Subscription) :
    (s.drop_subscription sub).toTables = s.toTables := by
  cases sub <;> rfl

@[simp] theorem prune_encoders_tables : s.prune_encoders.toTables = s.toTables := rfl

@[simp] theorem close_encoder_tables (key : EncoderKey) :
    (s.close_encoder key).toTables = s.toTables := by
  unfold close_encoder
  split <;> rfl

@[simp] theorem update_mic_groups_tables : s.update_mic_groups.toTables = s.toTables := rfl

end

/-! ## 4. Starting and releasing a route's pipeline -/

/-- `next_start_id`: a fresh number for a pipeline start. -/
def take_start_id (s : Actor) : Actor × Nat :=
  ({ s with next_start_id := s.next_start_id + 1 }, s.next_start_id + 1)

/-- What a receiving route's controls are set to when its pipeline starts. A rebuild keeps the
controls, so volume and mute survive it. -/
def receiver_controls (s : Actor) (route : Route) (profile : StreamProfile) : ReceiverControls :=
  let c : ReceiverControls :=
    match route.receiver_controls with
    | some c => { c with
        jitter_min_ms := profile.jitter_min_ms
        jitter_max_ms := profile.jitter_max_ms }
    | none =>
        { volume := if route.kind.is_mic then 1 else route.volume
          jitter_min_ms := profile.jitter_min_ms
          jitter_max_ms := profile.jitter_max_ms
          -- the microphone mute also silences a phone microphone arriving here
          muted := route.muted || (route.kind.is_mic && s.mic_muted)
          balance := if route.kind.is_mic then 0 else s.settings.output.balance
          mono := !route.kind.is_mic && s.settings.output.mono
          av_offset_ms := if route.kind.is_mic then 0 else s.settings.output.av_offset_ms
          noise_suppression := false }
  { c with noise_suppression := profile.denoise }

def begin_receiver (env : Env) (s : Actor) (route : Route) (profile : StreamProfile) :
    Actor × Route × Except EngineError Bool :=
  let target :=
    if route.kind.endpoints.2 = "virtual-mic" then s.virtual_mic_target env
    else some s.speaker_target
  match target with
  | none => (s, route, .error .VirtualMicMissing)
  | some target =>
      let controls := s.receiver_controls route profile
      let (s, start_id) := s.take_start_id
      (s.emit (.Spawn (.OpenReceiver route.peer route.id start_id target)),
        { route with receiver_controls := some controls, start_id },
        .ok false)

/-- What a new encoder group captures and how it is set up. -/
def group_controls (s : Actor) (kind : RouteKind) (profile : StreamProfile) : GroupControls :=
  let mixed := kind == .SendMixed
  let has_mic := kind.is_mic || mixed
  { gain_db := if has_mic then s.settings.mic.gain_db else 0
    noise_suppression := has_mic && s.denoise_here profile
    muted := kind.is_mic && s.mic_muted
    high_pass := has_mic && s.settings.mic.high_pass
    echo_ducking := has_mic && s.settings.mic.echo_ducking
    mix_muted := mixed && s.mic_muted
    system_gain_db := s.settings.mixed.system_gain_db
    mix_gain_db := s.settings.mixed.mic_gain_db }

/-- The first half of a route's capture: mixed starts from the system audio. -/
def capture_source (env : Env) (s : Actor) (kind : RouteKind) : Option CaptureSource :=
  if kind.endpoints.1 = "system" ∨ kind.endpoints.1 = "mixed" then some s.system_audio_source
  else if kind.endpoints.1 = "apps" then env.app_audio_source
  else some s.mic_source

/-- The microphone that is summed into a mixed route's capture. -/
def mix_source (s : Actor) (kind : RouteKind) : Option CaptureSource :=
  if kind = .SendMixed then some s.mic_source else none

def begin_sender (env : Env) (s : Actor) (route : Route) (profile : StreamProfile) :
    Actor × Route × Except EngineError Bool :=
  match s.capture_source env route.kind with
  | none => (s, route, .error .LoopbackUnsupported)
  | some source =>
      let mix := s.mix_source route.kind
      let is_mic := route.kind.is_mic
      let key := EncoderKey.new source mix is_mic (route.kind.endpoints.1 = "apps") profile
      let controls : SenderControls :=
        { bitrate := profile.bitrate
          expected_loss_pct := 0
          redundancy := profile.redundancy
          muted := route.muted || (is_mic && s.mic_muted) }
      let s := s.drop_subscription route.subscription
      let route := { route with
        sender_controls := some controls, encoder := some key, subscription := none }
      let s :=
        if route.kind = .SendSystemAudio ∧ s.settings.capture.mute_local_speakers then
          s.emit (.SetSpeakersMuted true)
        else s
      match s.encoders.get key with
      -- the encoder is there already
      | some (.Running sender) =>
          match s.sessions.get route.peer with
          | none => (s, route, .error .Unreachable)
          | some session =>
              let (sender, subscription) :=
                sender.subscribe key route.key session s.settings.advanced.continuous_capture
              (s.set_encoders (s.encoders.insert key (.Running sender)),
                { route with subscription := some subscription }, .ok true)
      -- or is being opened for another route
      | some (.Starting start_id waiting group) =>
          (s.set_encoders
            (s.encoders.insert key (.Starting start_id (waiting ++ [route.key]) group)),
            route, .ok false)
      | none =>
          -- the first route of this encoding opens it
          let (s, start_id) := s.take_start_id
          let group := s.group_controls route.kind profile
          let s := s.set_encoders (s.encoders.insert key (.Starting start_id [route.key] group))
          (s.emit (.Spawn (.OpenSender key start_id source mix)), route, .ok false)

/-- Start a route's pipeline; `ok true` when it is ready immediately (joined a running encoder). -/
def begin_pipelines (env : Env) (s : Actor) (route : Route) :
    Actor × Route × Except EngineError Bool :=
  match s.sessions.get route.peer, route.profile with
  | none, _ => (s, route, .error .Unreachable)
  | some _, none => (s, route, .error (.Internal "missing profile"))
  | some _, some profile =>
      if route.kind.local_is_source then s.begin_sender env route profile
      else s.begin_receiver env route profile

/-- Release a route's pipeline; the route stays, e.g. in the route list as paused. -/
def release_pipelines (s : Actor) (route : Route) : Actor × Route :=
  let s := s.drop_subscription route.subscription
  let s :=
    match route.receiver, s.sessions.get route.peer with
    | some _, some session => s.emit (.RemoveSink session.conn_id route.id)
    | _, _ => s
  (s.prune_encoders,
    { route with start_id := 0, encoder := none, subscription := none, receiver := none })

end Actor

/-- What a route is, apart from its pipeline: both descriptions are of one stream. -/
structure Route.Same (r r' : Route) : Prop where
  peer : r'.peer = r.peer
  id : r'.id = r.id
  kind : r'.kind = r.kind
  status : r'.status = r.status
  requested_locally : r'.requested_locally = r.requested_locally

theorem Route.Same.refl (r : Route) : r.Same r := ⟨rfl, rfl, rfl, rfl, rfl⟩

theorem Route.Same.trans {a b c : Route} (h : a.Same b) (h' : b.Same c) : a.Same c :=
  ⟨h'.peer.trans h.peer, h'.id.trans h.id, h'.kind.trans h.kind, h'.status.trans h.status,
    h'.requested_locally.trans h.requested_locally⟩

namespace Actor

section
variable (env : Env) (s : Actor) (route : Route) (profile : StreamProfile)

@[simp] theorem take_start_id_tables : s.take_start_id.1.toTables = s.toTables := rfl

@[simp] theorem begin_receiver_tables :
    (s.begin_receiver env route profile).1.toTables = s.toTables := by
  unfold begin_receiver
  dsimp only
  split <;> simp

@[simp] theorem begin_sender_tables :
    (s.begin_sender env route profile).1.toTables = s.toTables := by
  unfold begin_sender
  split
  · rfl
  · dsimp only
    split
    · split <;> split <;> simp
    · split <;> simp
    · split <;> simp

/-- Starting a pipeline tells the platform and the audio, and changes no table. -/
@[simp] theorem begin_pipelines_tables :
    (s.begin_pipelines env route).1.toTables = s.toTables := by
  unfold begin_pipelines
  split
  · rfl
  · rfl
  · split <;> simp

theorem begin_receiver_same : route.Same (s.begin_receiver env route profile).2.1 := by
  unfold begin_receiver
  dsimp only
  split <;> exact ⟨rfl, rfl, rfl, rfl, rfl⟩

theorem begin_sender_same : route.Same (s.begin_sender env route profile).2.1 := by
  unfold begin_sender
  split
  · exact .refl _
  · dsimp only
    split
    · split <;> split <;> exact ⟨rfl, rfl, rfl, rfl, rfl⟩
    · exact ⟨rfl, rfl, rfl, rfl, rfl⟩
    · exact ⟨rfl, rfl, rfl, rfl, rfl⟩

theorem begin_pipelines_same : route.Same (s.begin_pipelines env route).2.1 := by
  unfold begin_pipelines
  split
  · exact .refl _
  · exact .refl _
  · split
    · exact s.begin_sender_same env route _
    · exact s.begin_receiver_same env route _

/-- What starting a pipeline comes back with. -/
theorem begin_pipelines_eq : ∃ s' route' result,
    s.begin_pipelines env route = (s', route', result) ∧ s'.toTables = s.toTables ∧
      route.Same route' :=
  ⟨_, _, _, rfl, s.begin_pipelines_tables env route, s.begin_pipelines_same env route⟩

@[simp] theorem release_pipelines_tables : (s.release_pipelines route).1.toTables = s.toTables := by
  unfold release_pipelines
  dsimp only
  split <;> simp

theorem release_pipelines_same : route.Same (s.release_pipelines route).2 :=
  ⟨rfl, rfl, rfl, rfl, rfl⟩

end

end Actor

end SoundPush
