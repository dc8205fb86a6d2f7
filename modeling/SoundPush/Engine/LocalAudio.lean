/-
`LocalAudio` -- this device's own audio (`sp-engine/src/actor/local_audio.rs` and
the results of opening devices in `actor/pipelines.rs`): following the system
default device, the microphone mute, the monitor, and starting the phone
microphone when another app opens the virtual microphone.

Opening a device takes a while, so a route that needs one is spawned with a start id and waits;
the answer carries the id back, and one that nobody waits for any longer is dropped. A capture is
shared by all routes with the same encoder key, so that one answer can start several of them and
one failure stop several.
-/
import SoundPush.Engine.Profiles

set_option autoImplicit false

namespace SoundPush

/-- How often the OS is asked whether an app records from the virtual microphone. -/
def IN_USE_POLL : Nat := 2000
/-- An automatically started microphone route stops after the virtual microphone is unused this
long. -/
def AUTO_MIC_IDLE : Nat := 15000
/-- A route whose audio fails again this soon after being reopened is not reopened again. -/
def REOPEN_BACKOFF : Nat := 3000

/-- Whether a route's audio on this device uses the system default device of a changed direction.
Routes pinned to a named device, per-app capture and the virtual microphone never follow it. -/
def follows_default (kind : RouteKind) (settings : Settings)
    (input_changed output_changed : Bool) : Bool :=
  if kind.local_is_source then
    if kind.endpoints.1 = "system" then
      output_changed && settings.capture.system_device.isNone && settings.capture.app.isNone
    else if kind.endpoints.1 = "mic" then input_changed && settings.mic.device.isNone
    else false
  else kind.endpoints.2 == "speaker" && output_changed && settings.output.device.isNone

namespace Actor

/-! ## 1. Mute and monitor -/

/-- The microphone mute reaches both directions: this computer's microphone, and the phone's
microphone feeding the virtual microphone. -/
def set_mic_muted (s : Actor) (muted : Bool) : Actor :=
  let s := { s with mic_muted := muted }.update_mic_groups
  s.set_routes <| s.routes.map fun r =>
    if r.kind.is_mic then
      { r with
        sender_controls := r.sender_controls.map fun c => { c with muted := muted || r.muted }
        receiver_controls := r.receiver_controls.map fun c => { c with muted := muted || r.muted } }
    else r

/-- The user hears the own microphone, or no longer. -/
def set_monitor (env : Env) (s : Actor) (enabled : Bool) : Actor :=
  let s := { s with monitor := false }
  let s :=
    if enabled then
      match env.monitor_error with
      | none => { s with monitor := true }
      | some e => s.error_notice env e
    else s
  s.update_keep_alive

/-! ## 2. Devices that open, change and fail

A route on the system's default device follows it: it is reopened when the default changes, and once
when its device fails. Any other route stops with its device. -/

/-- The waiting routes of a group that has opened subscribe to it, in order. A route that was
stopped or restarted meanwhile is passed over. -/
def subscribe_waiting (key : EncoderKey) (s : Actor) :
    List RouteKey → RunningSender → Actor × RunningSender × List RouteKey
  | [], sender => (s, sender, [])
  | k :: waiting, sender =>
      let mine (r : Route) : Bool :=
        has_key k r && r.encoder = some key && r.subscription.isNone
      match s.routes.find? mine, s.sessions.get k.peer with
      | some r, some session =>
          if r.sender_controls.isSome then
            let (sender, subscription) :=
              sender.subscribe key k session s.settings.advanced.continuous_capture
            let s := s.set_routes <| s.routes.modify_first mine fun r =>
              { r with subscription := some subscription }
            let (s, sender, ready) := subscribe_waiting key s waiting sender
            (s, sender, k :: ready)
          else subscribe_waiting key s waiting sender
      | _, _ => subscribe_waiting key s waiting sender

/-- A capture opened or failed. The routes that waited for it subscribe in the order they came,
or fail with it. -/
def on_sender_ready (env : Env) (s : Actor) (key : EncoderKey) (start_id : Nat)
    (result : Except EngineError Unit) : Actor :=
  match s.encoders.get key with
  | some (.Starting current waiting group) =>
      if current ≠ start_id then s
      else
        let s := s.set_encoders (s.encoders.erase key)
        match result with
        | .ok () =>
            let sender : RunningSender :=
              { start_id, controls := group, subscribers := [], next_subscription := 0 }
            let (s, sender, ready) := subscribe_waiting key s waiting sender
            let s := s.set_encoders (s.encoders.insert key (.Running sender))
            -- settings may have changed while the device was opening
            let s := s.update_mic_groups
            let s := ready.foldl (fun s k => s.activate_route env k.peer k.id) s
            s.prune_encoders
        | .error error =>
            waiting.foldl
              (fun s k =>
                if s.routes.any fun r => has_key k r && r.encoder = some key then
                  s.fail_route env k.peer k.id error
                else s)
              s
  | _ => s

/-- A playback opened or failed, for the start that its route waits for. A session that ended in
between leaves the route without one. -/
def on_receiver_ready (env : Env) (s : Actor) (peer : DeviceId) (id : UInt8) (start_id : Nat)
    (result : Except EngineError Unit) : Actor :=
  let mine (r : Route) : Bool := has_key ⟨peer, id⟩ r && r.start_id = start_id
  if s.routes.any mine then
    match result with
    | .ok () =>
        match s.sessions.get peer with
        | none => s.set_routes (s.routes.modify_first mine fun r => { r with start_id := 0 })
        | some session =>
            let s := s.emit (.AddSink session.conn_id id)
            let s := s.set_routes <| s.routes.modify_first mine fun r =>
              { r with start_id := 0, receiver := some start_id }
            s.activate_route env peer id
    | .error error => s.fail_route env peer id error
  else s

/-- A capture shared with other routes must really reopen, not be joined again. -/
def close_capture (s : Actor) (route : Route) : Actor :=
  match route.encoder with
  | some encoder => s.close_encoder encoder
  | none => s

/-- Restart a route's audio pipeline on the current devices; the flag says whether it still runs.
The route keeps its place in the table, which nothing reads in between. -/
def reopen_route_audio (env : Env) (s : Actor) (key : RouteKey) : Actor × Bool :=
  match s.routes.find? (has_key key) with
  | none => (s, false)
  | some route =>
      let s := s.close_capture route
      let (s, route) := s.release_pipelines route
      match s.begin_pipelines env route with
      | (s, route, .ok _) =>
          (s.set_routes (s.routes.modify_first (has_key key) fun _ => route), true)
      | (s, route, .error e) =>
          let s := s.set_routes (s.routes.modify_first (has_key key) fun _ => route)
          ((s.error_notice env e).stop_route_by_key env key .AudioDeviceLost true, false)

/-- A route's audio device failed. A route on the system default reopens once on whatever is the
default now; the flag says whether it did. -/
def reopen_on_default_device (env : Env) (s : Actor) (key : RouteKey) : Actor × Bool :=
  match s.routes.find? (has_key key) with
  | none => (s, false)
  | some r =>
      if r.status ≠ .Active ∨ !follows_default r.kind s.settings true true then (s, false)
      else
        let reopened := s.local_audio.reopened.retain fun _ t => env.now - t < REOPEN_BACKOFF
        let s := { s with local_audio := { s.local_audio with reopened } }
        if reopened.has key then (s, false)
        else
          let s := { s with
            local_audio := { s.local_audio with reopened := reopened.insert key env.now } }
          s.reopen_route_audio env key

/-- A playback failed while it ran. -/
def on_audio_failed (env : Env) (s : Actor) (key : RouteKey) (error : EngineError) : Actor :=
  let (s, reopened) := s.reopen_on_default_device env key
  if reopened then s
  else (s.error_notice env error).stop_route_by_key env key .AudioDeviceLost true

/-- One route of a failed capture; the flag says whether the user was told. -/
def encoder_failed_for (env : Env) (error : EngineError) (st : Actor × Bool) (k : RouteKey) :
    Actor × Bool :=
  let (s, reopened) := st.1.reopen_on_default_device env k
  if reopened || !s.routes.any (has_key k) then (s, st.2)
  else
    let s := if st.2 then s else s.error_notice env error
    (s.stop_route_by_key env k .AudioDeviceLost true, true)

/-- A shared capture failed. Routes on the system default device reopen on the new default, the
others stop; the user is told once. -/
def on_encoder_failed (env : Env) (s : Actor) (key : EncoderKey) (error : EngineError) : Actor :=
  let s := s.close_encoder key
  let affected := (s.routes.filter fun r => r.encoder = some key).map Route.key
  (affected.foldl (encoder_failed_for env error) (s, false)).1

/-- The OS reported a device change: move running routes that use the system default device of a
changed direction to the new default. -/
def on_audio_devices_changed (env : Env) (s : Actor) (input_changed output_changed : Bool) :
    Actor :=
  if !input_changed && !output_changed then s
  else
    let moved := s.routes.filter fun r =>
      r.status = .Active ∧ follows_default r.kind s.settings input_changed output_changed
    let s := (moved.map Route.key).foldl (fun s k => (s.reopen_route_audio env k).1) s
    let monitor_follows :=
      (input_changed && s.settings.mic.device.isNone) ||
        (output_changed && s.settings.output.device.isNone)
    if s.monitor && monitor_follows then s.set_monitor env true else s

/-! ## 3. The virtual microphone in use -/

/-- Connected devices that could supply the microphone. -/
def mic_candidates (s : Actor) : List DeviceId :=
  (s.sessions.pairs.filter fun (id, session) =>
    ((s.trust.get id).map fun d => !d.blocked) = some true ∧
      session.hello.capabilities.has Capabilities.SOURCE_MICROPHONE).map Prod.fst

/-- The device used last time, or the only connected device that has a microphone. -/
def auto_mic_peer (s : Actor) : Option DeviceId :=
  let candidates := s.mic_candidates
  let last := s.settings.desktop.last_mic_peer.bind DeviceId.from_hex
  match last.filter fun id => id ∈ candidates with
  | some id => some id
  | none =>
      match candidates with
      | [id] => some id
      | _ => none

/-- Start the phone microphone for an app that opened the virtual microphone. False when there is
no device for it yet. -/
def auto_start_mic (env : Env) (s : Actor) : Actor × Bool :=
  if !(s.local_capabilities env).virtual_mic then (s, false)
  else
    match s.auto_mic_peer with
    | none => (s, false)
    | some peer =>
        let s := s.start_route env peer .ReceiveMicToVirtualMic false .dropped
        let auto_route := (s.routes.reverse.find? fun r =>
          r.peer = peer ∧ r.kind = .ReceiveMicToVirtualMic).map Route.key
        ({ s with local_audio := { s.local_audio with auto_route } }.notice
          "notice.autoMicStarted", true)

/-- The device that feeds the virtual microphone is remembered as the one to start next time. -/
def remember_mic_peer (env : Env) (s : Actor) : Actor :=
  match s.routes.find? fun r => r.kind = .ReceiveMicToVirtualMic ∧ r.status = .Active with
  | none => s
  | some r =>
      let hex := r.peer.to_hex
      if s.settings.desktop.last_mic_peer = some hex then s
      else
        (s.set_settings { s.settings with
          desktop := { s.settings.desktop with last_mic_peer := some hex } }).save_settings env

/-- Called every tick: remembers the phone used as microphone, and (when enabled) starts it while
another app has the virtual microphone open, stopping it again afterwards. -/
def check_virtual_mic_use (env : Env) (s : Actor) : Actor :=
  let s := s.remember_mic_peer env
  let set_local (s : Actor) (local_audio : LocalAudio) : Actor := { s with local_audio }
  let la := s.local_audio
  if !s.settings.desktop.auto_start_mic then
    set_local s { la with auto_route := none, handled_use := false }
  else if la.auto_route.isNone && s.mic_candidates.isEmpty then
    set_local s { la with handled_use := false }
  else if la.last_poll.any fun t => env.now - t < IN_USE_POLL then s
  else
    let mic_route := (s.routes.find? fun r =>
      r.kind = .ReceiveMicToVirtualMic ∧ r.status ≠ .Stopped).map Route.key
    -- the automatic route ended some other way
    let auto_route := if la.auto_route = mic_route then la.auto_route else none
    let la := { la with last_poll := some env.now, auto_route }
    if env.virtual_mic_in_use then
      let la := { la with idle_since := none }
      -- react once per use: if the user stops the route, it stays stopped
      if la.handled_use then set_local s la
      else if mic_route.isSome then set_local s { la with handled_use := true }
      else
        let (s, started) := (set_local s la).auto_start_mic env
        set_local s { s.local_audio with handled_use := started }
    else
      let la := { la with handled_use := false }
      match la.auto_route with
      | none => set_local s la
      | some key =>
          let since := la.idle_since.getD env.now
          if AUTO_MIC_IDLE ≤ env.now - since then
            (set_local s { la with auto_route := none, idle_since := none }).stop_route_by_key env
              key .UserStopped true
          else set_local s { la with idle_since := some since }

/-- Let noise suppression switch itself off while the machine cannot keep up. -/
def check_capture_health (env : Env) (s : Actor) : Actor :=
  let (denoise, change) := s.denoise.step env.capture_overruns s.settings.mic.noise_suppression
  let s := { s with denoise }
  match change with
  | none => s
  | some .Suspended => s.update_mic_groups.notice "notice.denoiseSuspended"
  | some .Resumed => s.update_mic_groups

end Actor

end SoundPush
