/-
`ProfileSafety` -- no pipeline gets a profile it cannot run with.

A profile comes from this device's settings (`profile_for`, `apply_quality_fallback`)
or from a peer (`sanitize_profile`), and several handlers mix the two field by field.
Whatever they make is usable, and sane where a peer asked for the route; `Board.Fit`
says so of every route and every encoder group, and each act keeps it. What an
acceptor sends is sane, which is why its requester takes it over unchanged.

How it is put together. `Safe` is stated in the terms of the pipelines (channels, samples, bytes
of a datagram, the jitter window), `Usable` and `Sane` in those of the profile; § 1 connects them.
§ 2 and § 3 carry `Fit` through the building blocks and the acts, in the way the mute is carried
elsewhere. § 4 is about two devices: the acceptor sends the profile that its route has, and the
requester's sanitizing does nothing to it. § 5 is about whole runs.
-/
import SoundPush.Media.Jitter
import SoundPush.Engine.Dispatch
import SoundPush.Engine.Disconnect

set_option autoImplicit false

namespace SoundPush

/-! ## 1. Safe profiles -/

/-- What the pipelines rely on. -/
structure StreamProfile.Safe (p : StreamProfile) : Prop where
  channels : p.channels = 1 ∨ p.channels = 2
  codec : p.codec = Codec.PcmS16Le.id ∨ p.codec = Codec.Opus.id
  frame : 120 ≤ samples_per_frame p.frame_us
  fits : p.codec = Codec.PcmS16Le.id →
    samples_per_frame p.frame_us * p.channels * 2 ≤ MAX_MEDIA_PAYLOAD
  jitter : 5 ≤ p.jitter_min_ms ∧ p.jitter_min_ms ≤ p.jitter_max_ms ∧ p.jitter_max_ms ≤ 1000

/-- A usable profile is what the pipelines rely on. For PCM that is the sum of a frame: two
bytes for each sample of each channel, which must fit a datagram. -/
theorem StreamProfile.Usable.safe {p : StreamProfile} (h : p.Usable) : p.Safe := by
  have hframe : p.frame_us = 2500 ∨ p.frame_us = 5000 ∨ p.frame_us = 10000 ∨ p.frame_us = 20000 :=
    h.frame_us
  refine ⟨h.channels, h.codec, ?_, fun hpcm => ?_, h.jitter_min.1, h.jitter_max.1, h.jitter_max.2⟩
  · unfold samples_per_frame SAMPLE_RATE
    omega
  · have hfits : p.frame_us ≤ if p.channels = 2 then 5000 else 10000 := h.pcm_fits hpcm
    unfold samples_per_frame SAMPLE_RATE MAX_MEDIA_PAYLOAD
    rcases h.channels with hc | hc
    · have hc : p.channels = 1 := hc
      rw [hc, if_neg (by decide)] at hfits
      rw [hc]
      omega
    · have hc : p.channels = 2 := hc
      rw [hc, if_pos rfl] at hfits
      rw [hc]
      omega

/-! ## 2. Routes and groups -/

namespace Route

theorem Fit.released {r : Route} (h : r.Fit) : r.released.Fit := h

/-- A route that is paused keeps its profile. -/
theorem Fit.suspended {r : Route} (h : r.Fit) (now : Instant) : (r.suspended now).Fit := by
  unfold Route.suspended
  split
  · exact h
  · exact h
  · split <;> exact h

theorem Fit.mic_silenced {r : Route} (h : r.Fit) (muted : Bool) : (r.mic_silenced muted).Fit := by
  unfold Route.mic_silenced
  split <;> exact h

end Route

/-- Every group encodes a profile that can be used. -/
def FitGroups (encoders : Table EncoderKey EncoderSlot) : Prop :=
  ∀ key slot, encoders.get key = some slot → ∃ p : StreamProfile, p.Usable ∧ key.Encodes p

namespace FitGroups

variable {e e' : Table EncoderKey EncoderSlot}

/-- Groups that were there. -/
theorem of_had (h : FitGroups e)
    (he : ∀ key slot', e'.get key = some slot' → ∃ slot, e.get key = some slot) : FitGroups e' := by
  intro key slot' hget
  obtain ⟨slot, hold⟩ := he key slot' hget
  exact h key slot hold

/-- A subscription that goes leaves the profile of its group. -/
theorem dropped (h : FitGroups e) (subscription : Option Subscription) :
    FitGroups (SoundPush.dropped e subscription) := by
  refine h.of_had fun key slot' hget => ?_
  rcases get_dropped hget with hold | ⟨sender, sub, hold, _, _, _, _⟩
  · exact ⟨slot', hold⟩
  · exact ⟨_, hold⟩

theorem dropped_all (h : FitGroups e) (routes : List Route) :
    FitGroups (routes.foldl (fun e r => SoundPush.dropped e r.subscription) e) := by
  induction routes generalizing e with
  | nil => exact h
  | cons r routes ih => exact ih (h.dropped _)

/-- A group that is closed has none. -/
theorem pruned (h : FitGroups e) : FitGroups (SoundPush.pruned e) :=
  h.of_had fun _ slot' hget => ⟨slot', (get_pruned.1 hget).1⟩

theorem paused (h : FitGroups e) (peer : DeviceId) (routes : List Route) :
    FitGroups (routes.foldl (fun e r =>
      if r.peer = peer then SoundPush.pruned (SoundPush.dropped e r.subscription) else e) e) := by
  induction routes generalizing e with
  | nil => exact h
  | cons r routes ih =>
      refine ih ?_
      dsimp only
      split
      · exact (h.dropped _).pruned
      · exact h

theorem closed (h : FitGroups e) (key : Option EncoderKey) : FitGroups (SoundPush.closed e key) :=
  h.of_had fun _ slot' hget => ⟨slot', get_of_get_closed hget⟩

theorem erase (h : FitGroups e) (key : EncoderKey) : FitGroups (e.erase key) :=
  h.of_had fun _ slot' hget => ⟨slot', (Table.get_of_get_erase hget).2⟩

/-- A group with a usable profile may be added. -/
theorem insert (h : FitGroups e) {key : EncoderKey} {p : StreamProfile} (hp : p.Usable)
    (hkey : key.Encodes p) (slot : EncoderSlot) : FitGroups (e.insert key slot) := by
  intro k slot' hget
  rw [Table.get_insert] at hget
  by_cases hk : k = key
  · rw [hk]
    exact ⟨p, hp, hkey⟩
  · rw [if_neg hk] at hget
    exact h k slot' hget

/-- Tuning a group does not look at its profile. -/
theorem of_tuned {mic_muted : Bool} (h : FitGroups e) (ht : Tuned mic_muted e e') :
    FitGroups e' := by
  refine h.of_had fun key slot' hget => ?_
  match slot', hget with
  | .Starting start_id waiting group, hget => exact ⟨_, (ht.starting key _ _ _).1 hget⟩
  | .Running sender', hget =>
      obtain ⟨sender, hold, -⟩ := ht.running key sender' hget
      exact ⟨_, hold⟩

end FitGroups

/-- A pipeline starts with a profile that can be used, and so does its group. -/
theorem Begun.fit {b b' : Board} {r r' : Route} {ready : Bool} (h : Begun b r b' r' ready)
    (hr : r.Fit) (he : FitGroups b.encoders) : r'.Fit ∧ FitGroups b'.encoders := by
  have hdropped := he.dropped r.subscription
  constructor
  · intro p hp
    rw [h.profile] at hp
    rw [h.same.requested_locally]
    exact hr p hp
  · rcases h with ⟨key, _, _, _, _, _, _, _, _, _, p, hp, hkey⟩ |
      ⟨key, _, _, _, _, _, _, _, _, _, p, hp, hkey⟩ |
      ⟨key, _, _, _, _, _, _, _, _, _, p, hp, hkey⟩ | _
    · exact hdropped.insert (hr p hp).1 hkey _
    · exact hdropped.insert (hr p hp).1 hkey _
    · exact hdropped.insert (hr p hp).1 hkey _
    · exact he

/-! ## 3. Acts -/

/-- Every profile on the board is one that its pipeline can run with. -/
structure Board.Fit (b : Board) : Prop where
  routes : ∀ r ∈ b.routes, r.Fit
  aside : ∀ r ∈ b.aside, r.Fit
  groups : FitGroups b.encoders

section
variable [Crypto] {env : Env} {s₀ : Actor} {event : Event} {a b : Board} {l : List DeviceId}

omit [Crypto] in
theorem fit_of_forall₂ {routes routes' : List Route}
    (h : List.Forall₂ (fun r r' : Route => r.Fit → r'.Fit) routes routes')
    (hr : ∀ r ∈ routes, r.Fit) : ∀ r ∈ routes', r.Fit := by
  intro r hr'
  obtain ⟨q, hq, hqr⟩ := h.exists_left hr'
  exact hqr (hr q hq)

omit [Crypto] in
theorem fit_of_alike {routes routes' : List Route} (h : List.Forall₂ Route.Alike routes routes')
    (hr : ∀ r ∈ routes, r.Fit) : ∀ r ∈ routes', r.Fit :=
  fit_of_forall₂ (h.imp fun _ _ h => h.fit) hr

omit [Crypto] in
theorem fit_of_modified {p : Route → Bool} {f : Route → Route} {routes : List Route}
    (hf : ∀ r : Route, r.Fit → (f r).Fit) (hr : ∀ r ∈ routes, r.Fit) :
    ∀ r ∈ routes.modify_first p f, r.Fit := by
  intro r hr'
  rcases List.mem_modify_first hr' with hr' | ⟨q, hq, rfl⟩
  · exact hr r hr'
  · exact hf q (hr q (List.mem_of_find?_eq_some hq))

omit [Crypto] in
theorem fit_concat {routes : List Route} {r : Route} (hr : ∀ q ∈ routes, q.Fit) (h : r.Fit) :
    ∀ q ∈ routes ++ [r], q.Fit := by
  intro q hq
  rcases List.mem_append.1 hq with hq | hq
  · exact hr q hq
  · rw [List.mem_singleton.1 hq]
    exact h

omit [Crypto] in
/-- A session that goes down leaves the board fit. -/
theorem Board.Fit.paused (ha : a.Fit) (peer : DeviceId) (now : Instant) :
    (a.paused peer now).Fit := by
  refine ⟨fun r hr => ?_, ha.aside, ha.groups.paused peer a.routes⟩
  obtain ⟨q, hq, rfl⟩ := List.mem_map.1 (List.mem_of_mem_filter hr)
  split
  · exact (ha.routes q hq).suspended now
  · exact ha.routes q hq

omit [Crypto] in
/-- What is left of a table that a route was taken out of. -/
theorem Board.Fit.rest (ha : a.Fit) {p : Route → Bool} {route : Route} {rest : List Route}
    (h : a.routes.remove_first p = some (route, rest)) : route.Fit ∧ ∀ r ∈ rest, r.Fit :=
  ⟨ha.routes route (List.mem_of_remove_first h).1,
    fun r hr => ha.routes r ((List.sublist_of_remove_first h).subset hr)⟩

/-- Every act keeps the profiles fit. -/
theorem Act.fit (ha : a.Fit) (h : Act env s₀ event l a b) : b.Fit := by
  cases h with
  | tend routes hroutes => exact ⟨fit_of_alike hroutes ha.routes, ha.aside, ha.groups⟩
  | silence key muted => exact ⟨fit_of_modified (fun _ h => h) ha.routes, ha.aside, ha.groups⟩
  | hush conn_id peer m => exact ⟨fit_of_modified (fun _ h => h) ha.routes, ha.aside, ha.groups⟩
  | mute_mic muted encoders he hboard htuned =>
      refine ⟨fun r hr => ?_, ha.aside, ha.groups.of_tuned htuned⟩
      obtain ⟨q, hq, rfl⟩ := List.mem_map.1 hr
      exact (ha.routes q hq).mic_silenced muted
  | tune encoders htuned => exact ⟨ha.routes, ha.aside, ha.groups.of_tuned htuned⟩
  | prune => exact ⟨ha.routes, ha.aside, ha.groups.pruned⟩
  | activate key r => exact ⟨fit_of_modified (fun _ h => h) ha.routes, ha.aside, ha.groups⟩
  | finish key route rest hrest =>
      exact ⟨(ha.rest hrest).2, ha.aside, (ha.groups.dropped _).pruned⟩
  | refuse _ _ _ route rest _ _ _ hrest =>
      exact ⟨(ha.rest hrest).2, ha.aside, ha.groups.dropped _⟩
  | lose _ _ _ route rest _ _ _ hrest =>
      exact ⟨(ha.rest hrest).2, ha.aside, ha.groups.dropped _⟩
  | accept _ _ _ route r₁ rest profile _ _ _ _ hrest _ hbegun hfit =>
      obtain ⟨hroute, hrest⟩ := ha.rest hrest
      obtain ⟨hr₁, he⟩ := hbegun.fit (hfit hroute) ha.groups
      exact ⟨fit_concat hrest hr₁, hbegun.aside ▸ ha.aside, he⟩
  | supplant =>
      exact ⟨fun r hr => ha.routes r (List.mem_of_mem_filter hr), ha.aside, ha.groups.dropped_all _⟩
  | take_on _ _ _ _ _ _ r₁ _ _ _ _ _ hbegun hsane =>
      obtain ⟨hr₁, he⟩ := hbegun.fit (fun p hp => by
        obtain rfl := Option.some.inj hp
        exact ⟨hsane.usable, fun _ => hsane⟩) (ha.groups.dropped_all _)
      exact ⟨fit_concat (fun r hr => ha.routes r (List.mem_of_mem_filter hr)) hr₁,
        hbegun.aside ▸ ha.aside, he⟩
  | rebuild key route r₁ rest _ hrest hbegun =>
      obtain ⟨hroute, hrest⟩ := ha.rest hrest
      obtain ⟨hr₁, he⟩ := hbegun.fit hroute.released (ha.groups.dropped _).pruned
      exact ⟨fit_concat hrest hr₁, hbegun.aside ▸ ha.aside, he⟩
  | unplug key route rest hrest =>
      obtain ⟨hroute, hrest⟩ := ha.rest hrest
      exact ⟨fit_concat hrest hroute.released, ha.aside, (ha.groups.dropped _).pruned⟩
  | reopen key route r₁ _ _ hfind hbegun =>
      have hroute := ha.routes route (List.mem_of_find?_eq_some hfind)
      obtain ⟨hr₁, he⟩ := hbegun.fit hroute.released ((ha.groups.closed _).dropped _).pruned
      exact ⟨fit_of_modified (fun _ _ => hr₁) ha.routes, hbegun.aside ▸ ha.aside, he⟩
  | close key => exact ⟨ha.routes, ha.aside, ha.groups.closed key⟩
  | give_up key => exact ⟨ha.routes, ha.aside, ha.groups.erase key⟩
  -- The encoding of the group was fit when it was being opened, and the routes that join have
  -- that encoding.
  | run key start_id waiting _ group _ sender _ _ _ hget hl ht =>
      refine ⟨fit_of_forall₂ ?_ ha.routes, ha.aside, FitGroups.of_tuned ?_ ht⟩
      · exact hl.forall₂ (fun _ hr => hr) (fun h h' hr => h' (h hr)) fun _ _ hr => hr
      · obtain ⟨p, hp, hkey⟩ := ha.groups key _ hget
        exact (ha.groups.erase key).insert hp hkey _
  | receive | receive_late =>
      exact ⟨fit_of_modified (fun _ h => h) ha.routes, ha.aside, ha.groups⟩
  | supersede id _ _ _ now =>
      have hpaused := ha.paused id now
      exact ⟨hpaused.routes, hpaused.aside, hpaused.groups⟩
  | suspend id _ _ now =>
      have hpaused := ha.paused id now
      exact ⟨hpaused.routes, hpaused.aside, hpaused.groups⟩
  | request peer kind session r hs hr => exact ⟨fit_concat ha.routes hr.fit, ha.aside, ha.groups⟩
  | set_aside =>
      exact ⟨fun r hr => ha.routes r (List.mem_of_mem_filter hr),
        fun r hr => ha.routes r (List.mem_of_mem_filter hr), ha.groups⟩
  | put_back peer kind route rest _ _ hrest =>
      exact ⟨fit_concat ha.routes (ha.aside route (List.mem_of_remove_first hrest).1),
        fun r hr => ha.aside r ((List.sublist_of_remove_first hrest).subset hr), ha.groups⟩
  | discard => exact ⟨ha.routes, fun r hr => absurd hr List.not_mem_nil, ha.groups⟩
  | settle _ _ _ _ _ _ _ hroutes ht =>
      exact ⟨fit_of_alike hroutes ha.routes, ha.aside, ha.groups.of_tuned ht⟩
  | install | leave | greet | hang_up | hear => exact ⟨ha.routes, ha.aside, ha.groups⟩

/-- The handling of any event. -/
theorem Acts.fit (ha : a.Fit) (h : Acts env s₀ event l a b) : b.Fit :=
  h.invariant (P := Board.Fit) (fun _ _ _ hact ha => hact.fit ha) ha

end

/-! ## 4. Both ends of a route -/

/-- Sanitizing twice is sanitizing once. -/
theorem sanitize_profile_idempotent (p : StreamProfile) :
    sanitize_profile (sanitize_profile p) = sanitize_profile p :=
  sanitize_profile_of_sane (sanitize_profile_sane p)

/-- What an end holds for a route. -/
def Route.held (r : Route) : RouteKey × Option StreamProfile := (r.key, r.profile)

namespace Actor

section
variable (env : Env) (s : Actor)

/-- The acceptance that a peer gets names the profile that the route has. -/
theorem activate_route_held (peer : DeviceId) (id : UInt8) :
    (s.activate_route env peer id).routes.map Route.held = s.routes.map Route.held := by
  unfold activate_route
  dsimp only
  split
  · rfl
  · split
    · rfl
    · generalize ht : Actor.update_keep_alive _ = t
      have hb : t.board =
          { s.board with
            routes := s.routes.modify_first (has_key ⟨peer, id⟩) Route.activated } := by
        rw [← ht, update_keep_alive_board, apply_ite Actor.board, save_started_route_board,
          ite_self,
          apply_ite Actor.board, answer_route_board, send_to_board, ite_self, set_routes_board]
      rw [show t.routes = s.routes.modify_first (has_key ⟨peer, id⟩) Route.activated from
        congrArg Board.routes hb]
      have hsame := List.forall₂_modify_first (R := fun r r' : Route => r'.held = r.held)
        (l := s.routes) (p := has_key ⟨peer, id⟩) (f := Route.activated)
        (fun _ => rfl) fun _ _ => rfl
      exact List.Forall₂.map_eq (fun _ _ h => h) hsame

/-- The answer to a request carries the profile that the route has here. -/
theorem activate_route_answers {peer : DeviceId} {id : UInt8} {r : Route} {session : Session}
    (hr : s.routes.find? (has_key ⟨peer, id⟩) = some r) (hs : r.status = .Starting)
    (hlocal : r.requested_locally = false) (hsession : s.sessions.get peer = some session) :
    .Send session.conn_id (.RouteAccept { route := id.toUInt32, profile := r.profile }) ∈
      (s.activate_route env peer id).out := by
  have hmem (s : Actor) {o : Output} (ho : o ∈ s.out) : o ∈ s.update_keep_alive.out := by
    unfold update_keep_alive
    dsimp only
    split
    · exact List.mem_append_left _ ho
    · exact ho
  unfold activate_route
  dsimp only
  rw [hr]
  dsimp only
  rw [if_neg (not_not_intro hs), hlocal, if_neg Bool.false_ne_true, if_neg (fun h => nomatch h.1)]
  refine hmem _ ?_
  unfold send_to
  rw [show (s.set_routes (s.routes.modify_first (has_key ⟨peer, id⟩)
    Route.activated)).sessions.get peer = some session from hsession]
  exact List.mem_append_right _ (List.mem_singleton_self _)

/-- Its requester holds that profile, if the route can start there. -/
theorem on_route_accept_held (peer : DeviceId) {acc : RouteAccept} {p : StreamProfile}
    (hacc : acc.profile = some p) (hsane : p.Sane) {route : Route} {rest : List Route}
    (h : s.routes.remove_first (fun r => has_key ⟨peer, acc.route.toUInt8⟩ r &&
      r.status = .Requesting) = some (route, rest)) :
    (s.on_route_accept env peer acc).routes.map Route.held =
        rest.map Route.held ++ [(route.key, some p)] ∨
      (s.on_route_accept env peer acc).routes.map Route.held = rest.map Route.held := by
  -- A sane profile is what sanitizing leaves alone.
  have hprofile : (acc.profile.map sanitize_profile).or route.profile = some p := by
    rw [hacc, Option.map_some, sanitize_profile_of_sane hsane]
    rfl
  unfold on_route_accept
  dsimp only
  rw [h]
  dsimp only
  rw [hprofile]
  rcases (s.set_routes rest).begin_pipelines_begun env { route with
      profile := some p
      status := .Starting
      deadline := some (env.now + PIPELINE_START_DEADLINE) } with
    ⟨s₂, r₂, ready, he, hbegun⟩ | ⟨e, he, -⟩
  · rw [he]
    dsimp only
    have hsame := hbegun.same
    have hheld : r₂.held = (route.key, some p) := by
      rw [Route.held, hbegun.profile, Route.key, hsame.peer, hsame.id]
      rfl
    have hadded : (s₂.set_routes (s₂.routes ++ [r₂])).routes.map Route.held =
        rest.map Route.held ++ [(route.key, some p)] := by
      rw [show (s₂.set_routes (s₂.routes ++ [r₂])).routes = s₂.routes ++ [r₂] from rfl,
        show s₂.routes = rest from hbegun.routes, List.map_append, List.map_singleton, hheld]
    left
    split
    · rw [activate_route_held, hadded]
    · exact hadded
  · rw [he]
    right
    dsimp only
    generalize ht : Actor.error_notice _ _ _ = t
    have hb : t.board = { s.board with
        routes := rest, encoders := dropped s.board.encoders route.subscription } := by
      rw [← ht, error_notice_board, answer_route_board, send_to_board, drop_subscription_board,
        set_routes_board]
    exact congrArg (fun b => b.routes.map Route.held) hb

end

end Actor

/-! ## 5. Runs -/

section
variable [Crypto]

/-- Every state of every run. -/
theorem profiles_fit {Known : PublicKey → Prop} {tr : List Moment} {w : World}
    (hr : (engine Known).Run tr w) : w.actor.board.Fit := by
  refine hr.invariant (P := fun w => w.actor.board.Fit) ?_ ?_
  · rintro w ⟨identity, trust, settings, _, rfl⟩
    exact ⟨fun r hr => absurd hr List.not_mem_nil, fun r hr => absurd hr List.not_mem_nil,
      fun key slot hget => nomatch hget⟩
  · intro w i hP _
    obtain ⟨l, hacts, _⟩ := w.met.handle_acts i.env i.event
    have hbefore : w.met.board.Fit := ⟨hP.routes, hP.aside, hP.groups⟩
    exact Acts.fit hbefore hacts

/-- Every route and every encoder group has a safe profile; and what an acceptor holds when it
answers is what its requester takes over. -/
theorem profile_safety {Known : PublicKey → Prop} {tr : List Moment} {w : World}
    (hr : (engine Known).Run tr w) :
    (∀ r ∈ w.actor.routes, ∀ p, r.profile = some p → p.Safe) ∧
    (∀ key slot, w.actor.encoders.get key = some slot →
      ∃ p : StreamProfile, p.Safe ∧ key.Encodes p) ∧
    (∀ p, sanitize_profile (sanitize_profile p) = sanitize_profile p) ∧
    (∀ r ∈ w.actor.routes, r.requested_locally = false → ∀ p, r.profile = some p →
      sanitize_profile p = p ∧
      ∀ (env : Env) (s : Actor) (peer : DeviceId) (acc : RouteAccept) (route : Route)
        (rest : List Route), acc.profile = some p →
        s.routes.remove_first (fun r => has_key ⟨peer, acc.route.toUInt8⟩ r &&
          r.status = .Requesting) = some (route, rest) →
        (s.on_route_accept env peer acc).routes.map Route.held =
            rest.map Route.held ++ [(route.key, r.profile)] ∨
          (s.on_route_accept env peer acc).routes.map Route.held = rest.map Route.held) ∧
    ∀ (env : Env) (s : Actor) (peer : DeviceId) (id : UInt8) (r : Route) (session : Session),
      s.routes.find? (has_key ⟨peer, id⟩) = some r → r.status = .Starting →
      r.requested_locally = false → s.sessions.get peer = some session →
      .Send session.conn_id (.RouteAccept { route := id.toUInt32, profile := r.profile }) ∈
          (s.activate_route env peer id).out ∧
        (s.activate_route env peer id).routes.map Route.held = s.routes.map Route.held := by
  have hfit := profiles_fit hr
  refine ⟨fun r hr p hp => ((hfit.routes r hr) p hp).1.safe, fun key slot hget => ?_,
    sanitize_profile_idempotent, fun r hr hlocal p hp => ?_, ?_⟩
  · obtain ⟨p, hp, hkey⟩ := hfit.groups key slot hget
    exact ⟨p, hp.safe, hkey⟩
  · have hsane := ((hfit.routes r hr) p hp).2 hlocal
    refine ⟨sanitize_profile_of_sane hsane, fun env s peer acc route rest hacc hfound => ?_⟩
    rw [hp]
    exact s.on_route_accept_held env peer hacc hsane hfound
  · intro env s peer id r session hfind hs hlocal hsession
    exact ⟨s.activate_route_answers env hfind hs hlocal hsession, s.activate_route_held env peer id⟩

end

namespace Sample

/-- The peer sends its microphone to the speakers here, with a profile that makes no sense. -/
def asks_wildly : List Input :=
  connects 1 peer peer_key ++ [⟨env, .Control 1 (.RouteRequest
    { route := 2, source_endpoint := "mic", sink_endpoint := "speaker"
      requester_is_source := true, replace := false
      profile := some
        { codec := 9, bitrate := 0, channels := 7, frame_us := 1, jitter_min_ms := 0
          jitter_max_ms := 4294967295, redundancy := false, adaptive_bitrate := true
          denoise := false } })⟩]

theorem asks_wildly_admitted : (engine Known).Admits (start .default) asks_wildly := by
  refine ⟨.inl rfl, ⟨⟨_, List.mem_singleton.2 rfl, ?_⟩, ?_⟩, ?_, trivial⟩
  · simp [Call.reports]
    rfl
  · decide
  · exact List.mem_cons_self

end Sample

open Sample in
/-- The route of such a request has a safe profile. -/
theorem profile_safety_wild :
    ((engine Known).exec (start .default) asks_wildly).actor.routes.any
        (fun r => r.profile.isSome) = true ∧
      ∀ r ∈ ((engine Known).exec (start .default) asks_wildly).actor.routes,
        ∀ p, r.profile = some p → p.Safe :=
  ⟨by decide +kernel, (profile_safety
    (Machine.run_of_admits (M := engine Known) (start_init .default) asks_wildly_admitted)).1⟩

end SoundPush
