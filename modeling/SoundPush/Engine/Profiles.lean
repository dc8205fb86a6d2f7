/-
`Profiles` -- stream profiles applied to running routes, and `RouteUpdate`
(`sp-engine/src/actor/profiles.rs`).

Whoever requested a route proposes its codec, bitrate, frame size and redundancy;
the receiving device keeps its own buffer bounds; where a microphone is denoised
is the source device's setting. The three functions of section 1 are these rules;
the handlers read the route table, apply them and put the result into effect.
-/
import SoundPush.Engine.Routes

set_option autoImplicit false

namespace SoundPush

/-! ## 1. The rules -/

/-- The profile a route should have: what the settings want, in the fields this end decides. -/
def next_profile (kind : RouteKind) (requested_locally : Bool) (current wanted : StreamProfile) :
    StreamProfile :=
  let next := current
  let next :=
    if !kind.local_is_source then
      { next with jitter_min_ms := wanted.jitter_min_ms, jitter_max_ms := wanted.jitter_max_ms }
    else next
  let next :=
    if requested_locally then
      { next with
        codec := wanted.codec
        bitrate := wanted.bitrate
        channels := wanted.channels
        frame_us := wanted.frame_us
        redundancy := wanted.redundancy
        adaptive_bitrate := wanted.adaptive_bitrate }
    else next
  let next := if kind.local_is_source then { next with denoise := wanted.denoise } else next
  sanitize_profile next

/-- Whether the peer has to be told about a change. -/
def sends_update (kind : RouteKind) (requested_locally : Bool) (current next : StreamProfile) :
    Bool :=
  (requested_locally && quality_changed current next) ||
    (kind.local_is_source && current.denoise != next.denoise)

/-- The profile a route takes from the peer's update. -/
def updated_profile (kind : RouteKind) (current received : StreamProfile) : StreamProfile :=
  let next := sanitize_profile received
  if kind.local_is_source then { next with denoise := current.denoise }
  else
    { next with jitter_min_ms := current.jitter_min_ms, jitter_max_ms := current.jitter_max_ms }

theorem next_profile_sane (kind : RouteKind) (requested_locally : Bool)
    (current wanted : StreamProfile) : (next_profile kind requested_locally current wanted).Sane :=
  sanitize_profile_sane _

theorem updated_profile_sane (kind : RouteKind) {current : StreamProfile} (h : current.Usable)
    (received : StreamProfile) : (updated_profile kind current received).Sane := by
  have hsane := sanitize_profile_sane received
  unfold updated_profile
  dsimp only
  by_cases hk : kind.local_is_source = true
  · rw [if_pos hk]
    exact hsane.with_denoise _
  · rw [if_neg hk]
    exact hsane.with_jitter h

/-! ## 2. The handlers -/

/-- A route's controls follow its new profile. -/
def Route.with_profile (r : Route) (next : StreamProfile) : Route :=
  { r with
    profile := some next
    receiver_controls := r.receiver_controls.map fun c => { c with
      jitter_min_ms := next.jitter_min_ms
      jitter_max_ms := next.jitter_max_ms
      noise_suppression := next.denoise }
    sender_controls := r.sender_controls.map fun c => { c with
      bitrate := next.bitrate
      redundancy := next.redundancy } }

namespace Actor

/-- Open a route's pipelines again, for an encoding they cannot switch to. -/
def rebuild_route (env : Env) (s : Actor) (key : RouteKey) : Actor :=
  match s.routes.remove_first (has_key key) with
  | none => s
  | some (route, rest) =>
      let (s, route) := (s.set_routes rest).release_pipelines route
      match s.begin_pipelines env route with
      | (s, route, .ok _) => s.set_routes (s.routes ++ [route])
      | (s, route, .error e) =>
          (s.set_routes (s.routes ++ [route])).fail_route env route.peer route.id e

/-- Put a new profile into effect on a route's pipelines. -/
def apply_profile (env : Env) (s : Actor) (key : RouteKey) (next : StreamProfile) : Actor :=
  match s.routes.find? (has_key key) with
  | none => s
  | some r =>
      let rebuild :=
        match r.profile with
        | some current => encoding_changed current next
        | none => false
      let s := s.set_routes (s.routes.modify_first (has_key key) fun r => r.with_profile next)
      -- a microphone group denoises here only for routes the other side does not denoise
      let s := s.update_mic_groups
      if !rebuild || r.status != .Active then s else s.rebuild_route env key

/-- Stop a route and request it again with current settings (peers without reconfiguration). -/
def restart_route (env : Env) (s : Actor) (key : RouteKey) : Actor :=
  match s.routes.find? (has_key key) with
  | none => s
  | some r =>
      -- stopping a route that cannot be started again would lose it
      if !s.sessions.has r.peer then s
      else
        let s := s.stop_route_by_key env key .Superseded true
        if r.requested_locally then
          let s := s.start_route_keeping env r.peer r.kind false .dropped r.quality_fallback
          s.set_routes <| s.routes.modify_last (fun q => q.peer = r.peer ∧ q.kind = r.kind)
            fun q => { q with keep_running := r.keep_running }
        else s

/-- The profile the settings want for a running route: lossless held on Opus stays there. -/
def wanted_profile (s : Actor) (r : Route) : StreamProfile :=
  let wanted := s.profile_for r.kind r.peer
  if r.quality_fallback.active then apply_quality_fallback wanted else wanted

/-- The settings no longer ask for lossless: nothing is left to fall back from. -/
def reset_fallback (s : Actor) (r : Route) : Actor :=
  if (s.profile_for r.kind r.peer).codec = Codec.PcmS16Le.id then s
  else
    s.set_routes <| s.routes.modify_first (has_key r.key) fun r =>
      { r with quality_fallback := .default }

def reconfigure_route (env : Env) (s : Actor) (key : RouteKey) : Actor :=
  match s.routes.find? (has_key key) with
  | none => s
  | some r =>
      -- a route whose session is down is paused, and starts again from the settings as they are
      -- then
      match s.sessions.get r.peer, r.profile with
      | some session, some current =>
          let next := next_profile r.kind r.requested_locally current (s.wanted_profile r)
          let s := s.reset_fallback r
          if next = current then s
          else if encoding_changed current next &&
              !session.hello.capabilities.has Capabilities.FEATURE_ROUTE_RECONFIGURE then
            -- a 1.0 peer cannot switch codec or frame size mid-route
            s.restart_route env key
          else
            let s := s.apply_profile env key next
            if sends_update r.kind r.requested_locally current next then
              s.send_to r.peer (.RouteUpdate { route := r.id.toUInt32, profile := some next })
            else s
      | _, _ => s

def reconfigure_each (env : Env) (s : Actor) (keys : List RouteKey) : Actor :=
  keys.foldl (fun s key => s.reconfigure_route env key) s

/-- Re-apply stream settings to routes whose effective settings changed. -/
def reconfigure_routes (env : Env) (s : Actor) (old : Settings) : Actor :=
  let changed := s.routes.filter fun r =>
    let peer := r.peer.to_hex
    r.status = .Active ∧
      (old.stream_for peer ≠ s.settings.stream_for peer ∨
        -- where this device's microphone is denoised travels with the profile
        (r.kind.is_mic ∧ r.kind.local_is_source ∧ old.mic ≠ s.settings.mic))
  s.reconfigure_each env (changed.map Route.key)

/-- Live profile change from the peer. -/
def on_route_update (env : Env) (s : Actor) (peer : DeviceId) (update : RouteUpdate) : Actor :=
  let key : RouteKey := ⟨peer, update.route.toUInt8⟩
  match s.routes.find? (has_key key), update.profile with
  | some r, some received =>
      match r.profile with
      | some current =>
          let next := updated_profile r.kind current received
          if next ≠ current then s.apply_profile env key next else s
      | none => s
  | _, _ => s

/-- Lossless streams that keep losing packets fall back to Opus, and go back when the link is good
again; only the route's requester runs this. -/
def update_quality_fallback (env : Env) (s : Actor) : Actor :=
  let watched (r : Route) : Bool :=
    r.requested_locally ∧ r.status = .Active ∧
      (r.quality_fallback.active ∨ r.profile.map (·.codec) = some Codec.PcmS16Le.id)
  let changed := s.routes.filter fun r => watched r && (r.quality_fallback.update r.loss_pct).2
  let s := s.set_routes <| s.routes.map fun r =>
    if watched r then { r with quality_fallback := (r.quality_fallback.update r.loss_pct).1 } else r
  changed.foldl
    (fun s r =>
      (s.reconfigure_route env r.key).notice
        (if r.quality_fallback.active then "notice.qualityRestored" else "notice.qualityFallback"))
    s

end Actor

end SoundPush
