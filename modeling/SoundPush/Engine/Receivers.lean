/-
`Receivers` -- how many devices one source feeds.

Starting a route, and a peer's request, both compare the receivers of the source
with the limit. A request that was left to the user is compared when it arrives
and not when it is accepted, so `receivers_within` has one exception, which it
names exactly.

`Acts.within` is the common part: whatever an event does to the routes, a receiver
that is admitted was compared with the limit, because only `request_route` and the
decision on a request put new routes on the table. What is left is the accepted
prompt. There the result is worked out exactly, from what `accept_route` leaves in
the table (`accept_route_sends`), so that the theorem is an equivalence for every
state and every event and not only a bound.
-/
import SoundPush.Engine.Dispatch
import SoundPush.Engine.Disconnect

set_option autoImplicit false

namespace SoundPush

/-! ## 1. Admissions -/

/-- A route that `source` feeds, or is about to. -/
def Route.receives (source : String) (r : Route) : Prop :=
  r.status ≠ .Stopped ∧ r.status ≠ .Paused ∧ r.kind.local_is_source = true ∧
    r.kind.endpoints.1 = source

instance (source : String) (r : Route) : Decidable (r.receives source) :=
  inferInstanceAs (Decidable (_ ∧ _ ∧ _ ∧ _))

/-- `routes` has a receiver of `source` that continues none of `old`. -/
def Admitted (source : String) (old routes : List Route) : Prop :=
  ∃ r ∈ routes, r.receives source ∧
    ∀ q ∈ old, q.receives source → q.key = r.key → q.kind ≠ r.kind

/-- Whether the capture of a kind of route can be opened. -/
def can_capture (env : Env) (kind : RouteKind) : Prop :=
  kind.endpoints.1 = "apps" → env.app_audio_source.isSome = true

theorem Board.receivers_of_eq (b : Board) (source : String) :
    b.receivers_of source = b.routes.countP fun r => r.receives source := rfl

theorem Actor.receivers_of_eq (s : Actor) (source : String) :
    s.receivers_of source = s.routes.countP fun r => r.receives source := rfl

/-- The user accepts a request for a route from `source`. -/
def Actor.grants (s : Actor) (event : Event) (source : String) : Prop :=
  ∃ request_id remember p, event = .Command (.RespondRouteRequest request_id true remember) ∧
    s.requests.get request_id = some p ∧ p.kind.local_is_source = true ∧
    p.kind.endpoints.1 = source

/-! ## 2. Acts -/

theorem Begun.max_receivers {b b' : Board} {r r' : Route} {ready : Bool}
    (h : Begun b r b' r' ready) : b'.max_receivers = b.max_receivers := by
  cases h <;> rfl

theorem Route.Turns.receives {event : Event} {r r' : Route} {source : String}
    (h : r.Turns event r') (hr : r'.receives source) : r.receives source := by
  obtain ⟨hs, hp, hk, he⟩ := hr
  obtain ⟨hs', hp'⟩ := h.live hs hp
  rw [h.kind] at hk he
  exact ⟨hs', hp', hk, he⟩

section
variable [Crypto] {env : Env} {s₀ : Actor} {event : Event} {a b : Board} {l : List DeviceId}

/-- The limit changes only with the settings, before anything else does. -/
theorem Act.max_receivers (h : Act env s₀ event l a b) : b.max_receivers = a.max_receivers ∨
    a = s₀.board ∧ List.Forall₂ (Route.Turns event) a.routes b.routes := by
  cases h with
  | accept _ _ _ _ _ _ _ _ _ _ _ _ _ hbegun => exact .inl hbegun.max_receivers
  | take_on _ _ _ _ _ _ _ _ _ _ _ _ hbegun => exact .inl hbegun.max_receivers
  | rebuild _ _ _ _ _ _ hbegun => exact .inl hbegun.max_receivers
  | reopen _ _ _ _ _ _ hbegun => exact .inl hbegun.max_receivers
  | settle _ _ _ _ _ _ hb hr => exact .inr ⟨hb, hr.imp fun _ _ => .of_alike⟩
  | _ => exact .inl rfl

/-- Unless the user accepts a request for it, a receiver is admitted only within the limit. -/
theorem Act.within {source : String} (he : ¬ s₀.grants event source)
    (h : Act env s₀ event l a b) (hp : ∀ r ∈ a.aside, r.status = .Paused)
    (ha : Admitted source s₀.routes a.routes → a.receivers_of source ≤ a.max_receivers) :
    Admitted source s₀.routes b.routes → b.receivers_of source ≤ b.max_receivers := by
  rintro ⟨r, hr, hrec, hnew⟩
  rcases h.max_receivers with hmax | ⟨rfl, hturned⟩
  swap
  · obtain ⟨q, hq, hqr⟩ := hturned.exists_left hr
    exact absurd hqr.kind.symm (hnew q hq (hqr.receives hrec) hqr.key.symm)
  rw [hmax]
  obtain ⟨kept, turned, added, hkept, hturned, hb, hadded⟩ := h.turned
  -- a new receiver among the routes that stay was new before
  have hold (hr : r ∈ turned) : a.receivers_of source ≤ a.max_receivers := by
    obtain ⟨q, hq, hqr⟩ := hturned.exists_left hr
    refine ha ⟨q, hkept.subset hq, hqr.receives hrec, fun o ho horec hkey => ?_⟩
    rw [← hqr.kind]
    exact hnew o ho horec (hkey.trans hqr.key.symm)
  have hle : turned.countP (fun r => r.receives source) ≤ a.receivers_of source := by
    refine le_trans (List.Forall₂.countP_le (fun q q' hqq hq => ?_) hturned) (hkept.countP_le _)
    exact decide_eq_true (hqq.receives (of_decide_eq_true hq))
  rw [Board.receivers_of_eq, hb, List.countP_append]
  rw [hb, List.mem_append] at hr
  have hone {q : Route} (hadded : added = [q])
      (hq : q.receives source → a.receivers_of source < a.max_receivers) :
      turned.countP (fun r => r.receives source) + added.countP (fun r => r.receives source) ≤
        a.max_receivers := by
    subst hadded
    by_cases hqs : q.receives source
    · have hcount : [q].countP (fun r => r.receives source) = 1 := by
        rw [List.countP_singleton, if_pos (decide_eq_true hqs)]
      have := hq hqs
      omega
    · have hcount : [q].countP (fun r => r.receives source) = 0 := by
        rw [List.countP_singleton, if_neg fun h => hqs (of_decide_eq_true h)]
      have := hold (hr.resolve_right fun h => hqs (List.mem_singleton.1 h ▸ hrec))
      omega
  cases hadded with
  | nothing | aside =>
      have := hold (hr.resolve_right List.not_mem_nil)
      exact hle.trans this
  | requested peer kind session q hs hq hnone hroom hfeed =>
      refine hone rfl fun hqs => ?_
      obtain ⟨_, _, hk, hsource⟩ := hqs
      rw [hq.kind] at hk hsource
      rw [← hsource]
      exact hroom hk
  | admitted peer req kind volume q hc hlimit hd hfree hq =>
      refine hone rfl fun hqs => ?_
      obtain ⟨_, _, hk, hsource⟩ := hqs
      rw [hq.kind] at hk hsource
      rcases hd with ⟨conn_id, hev, hcap, hroutes⟩ | ⟨request_id, remember, hev, _⟩
      · have hroom := s₀.receivers_of_check env hcap hk
        have hsub := (s₀.make_room_spec env (s₀.feed_in_the_way peer kind)).2
        rw [hlimit]
        refine lt_of_le_of_lt ?_ hroom
        rw [Board.receivers_of_eq, Actor.receivers_of_eq, hroutes,
          show kind.endpoints.1 = source from hsource]
        exact hsub.countP_le
      · rcases hc with ⟨⟨conn_id, hev', _⟩, _⟩ | ⟨request_id, remember, p, hev', hp, _, _, hpk⟩
        · cases hev.symm.trans hev'
        · exact absurd ⟨request_id, remember, p, hev', hp, hpk ▸ hk, hpk ▸ hsource⟩ he
  | put_back peer kind q rest _ hn hrest =>
      refine hone rfl fun hqs => ?_
      exact absurd (hp q (List.mem_of_remove_first hrest).1) hqs.2.1

theorem Acts.within {source : String} (he : ¬ s₀.grants event source)
    (h : Acts env s₀ event l a b) (hp : ∀ r ∈ a.aside, r.status = .Paused)
    (ha : Admitted source s₀.routes a.routes → a.receivers_of source ≤ a.max_receivers) :
    Admitted source s₀.routes b.routes → b.receivers_of source ≤ b.max_receivers := by
  have hinv := h.invariant
    (P := fun b => (∀ r ∈ b.aside, r.status = .Paused) ∧
      (Admitted source s₀.routes b.routes → b.receivers_of source ≤ b.max_receivers))
    (fun l a b hact ⟨hp, ha⟩ => ⟨hact.aside_paused hp, hact.within he hp ha⟩) ⟨hp, ha⟩
  exact hinv.2

end

/-! ## 3. A prompt is accepted -/

/-- A route that goes on, perhaps from starting to running. -/
structure Route.Lasts (r r' : Route) : Prop where
  key : r'.key = r.key
  kind : r'.kind = r.kind
  status : r'.status = r.status ∨ (r.status = .Starting ∧ r'.status = .Active)

theorem Route.Lasts.refl (r : Route) : r.Lasts r := ⟨rfl, rfl, .inl rfl⟩

theorem Route.Lasts.receives {r r' : Route} {source : String} (h : r.Lasts r') :
    r'.receives source ↔ r.receives source := by
  unfold Route.receives
  rw [h.kind]
  rcases h.status with hs | ⟨hs, hs'⟩
  · rw [hs]
  · rw [hs, hs']
    simp

namespace Actor

variable (env : Env) (s : Actor)

/-- Accepting a peer's request, for a route that this device is the source of, starts it. -/
def accepts (peer : DeviceId) (req : RouteRequest) (kind : RouteKind) : Prop :=
  (∀ r ∈ s.routes, r.key = ⟨peer, req.route.toUInt8⟩ →
    replaced_by peer req.route.toUInt8 kind r = true) ∧
  s.sessions.has peer = true ∧ can_capture env kind

theorem capture_source_eq_none {kind : RouteKind} :
    s.capture_source env kind = none ↔ ¬ can_capture env kind := by
  unfold capture_source can_capture
  by_cases hs : kind.endpoints.1 = "system" ∨ kind.endpoints.1 = "mixed"
  · rw [if_pos hs]
    have : kind.endpoints.1 ≠ "apps" := by
      rcases hs with h | h <;> rw [h] <;> decide
    simp [this]
  · rw [if_neg hs]
    split
    · next h => simp [h]
    · next h => simp [h]

theorem begin_sender_ok {route : Route} {profile : StreamProfile} {source : CaptureSource}
    {session : Session} (hsource : s.capture_source env route.kind = some source)
    (hs : s.sessions.get route.peer = some session) :
    ∃ s' r' ready, s.begin_sender env route profile = (s', r', .ok ready) := by
  unfold begin_sender
  rw [hsource]
  dsimp only
  have hsessions : (if route.kind = .SendSystemAudio ∧
      (s.drop_subscription route.subscription).settings.capture.mute_local_speakers = true then
        (s.drop_subscription route.subscription).emit (.SetSpeakersMuted true)
      else s.drop_subscription route.subscription).sessions = s.sessions := by
    have := congrArg Board.sessions ((s.drop_subscription route.subscription).starts_board route)
    exact this.trans (congrArg Board.sessions (s.drop_subscription_board route.subscription))
  generalize (if route.kind = .SendSystemAudio ∧
      (s.drop_subscription route.subscription).settings.capture.mute_local_speakers = true then
        (s.drop_subscription route.subscription).emit (.SetSpeakersMuted true)
      else s.drop_subscription route.subscription) = s₁ at hsessions ⊢
  split
  · rw [hsessions, hs]
    exact ⟨_, _, _, rfl⟩
  · exact ⟨_, _, _, rfl⟩
  · exact ⟨_, _, _, rfl⟩

/-- When the pipeline of a route from here can start. -/
theorem begin_pipelines_ok (route : Route) {profile : StreamProfile}
    (hk : route.kind.local_is_source = true) (hp : route.profile = some profile) :
    (∃ s' r' ready, s.begin_pipelines env route = (s', r', .ok ready)) ↔
      s.sessions.has route.peer = true ∧ can_capture env route.kind := by
  unfold begin_pipelines
  rw [hp]
  cases hs : s.sessions.get route.peer with
  | none =>
      constructor
      · rintro ⟨_, _, _, h⟩
        cases h
      · rintro ⟨h, _⟩
        unfold Table.has at h
        rw [hs] at h
        cases h
  | some session =>
      dsimp only
      rw [if_pos hk]
      constructor
      · rintro ⟨s', r', ready, h⟩
        refine ⟨Table.has_eq_true.2 ⟨session, hs⟩, ?_⟩
        by_contra hno
        unfold begin_sender at h
        rw [(s.capture_source_eq_none env).2 hno] at h
        cases h
      · rintro ⟨_, hcan⟩
        cases hsource : s.capture_source env route.kind with
        | none => exact absurd hcan ((s.capture_source_eq_none env).1 hsource)
        | some source => exact s.begin_sender_ok env hsource hs

theorem activate_route_lasts (peer : DeviceId) (id : UInt8) :
    List.Forall₂ Route.Lasts s.routes (s.activate_route env peer id).routes ∧
      (s.activate_route env peer id).settings.max_receivers = s.settings.max_receivers := by
  unfold activate_route
  dsimp only
  split
  · exact ⟨List.forall₂_same.2 fun r _ => .refl r, rfl⟩
  · next r hr =>
      split
      · exact ⟨List.forall₂_same.2 fun r _ => .refl r, rfl⟩
      · next hs =>
          generalize ht : Actor.update_keep_alive _ = t
          have hb : t.board =
              { s.board with
                routes := s.routes.modify_first (has_key ⟨peer, id⟩) Route.activated } := by
            rw [← ht, update_keep_alive_board, apply_ite Actor.board, save_started_route_board,
              ite_self,
              apply_ite Actor.board, answer_route_board, send_to_board, ite_self, set_routes_board]
          refine ⟨?_, congrArg Board.max_receivers hb⟩
          rw [show t.routes = s.routes.modify_first (has_key ⟨peer, id⟩) Route.activated from
            congrArg Board.routes hb]
          refine List.forall₂_modify_first Route.Lasts.refl fun q hq => ?_
          obtain rfl := Option.some_inj.1 (hr.symm.trans hq)
          exact ⟨rfl, rfl, .inr ⟨not_not.1 hs, rfl⟩⟩

/-- What accepting a request for a route from here leaves in the table. -/
theorem accept_route_sends (peer : DeviceId) (req : RouteRequest) {kind : RouteKind}
    (hk : kind.local_is_source = true) :
    (s.accept_route env peer req kind).settings.max_receivers = s.settings.max_receivers ∧
    (s.accepts env peer req kind → ∃ r, r.key = ⟨peer, req.route.toUInt8⟩ ∧ r.kind = kind ∧
      r.status = .Starting ∧ List.Forall₂ Route.Lasts
        ((s.routes.filter fun r => !replaced_by peer req.route.toUInt8 kind r) ++ [r])
        (s.accept_route env peer req kind).routes) ∧
    (¬ s.accepts env peer req kind → (s.accept_route env peer req kind).routes =
      s.routes.filter fun r => !replaced_by peer req.route.toUInt8 kind r) := by
  unfold accept_route
  dsimp only
  generalize s.accepted_profile peer req kind = profile
  have hboard := s.drop_subscriptions_board
    (s.routes.filter (replaced_by peer req.route.toUInt8 kind))
  generalize List.foldl _ s (s.routes.filter (replaced_by peer req.route.toUInt8 kind)) = s₁
    at hboard ⊢
  have hroutes : s₁.routes = s.routes := congrArg Board.routes hboard
  have hsessions : s₁.sessions = s.sessions := congrArg Board.sessions hboard
  have hmax : s₁.settings.max_receivers = s.settings.max_receivers :=
    congrArg Board.max_receivers hboard
  rw [hroutes]
  generalize hs₂ : s₁.set_routes _ = s₂
  have hroutes₂ :
      s₂.routes = s.routes.filter fun r => !replaced_by peer req.route.toUInt8 kind r := by
    rw [← hs₂]
    rfl
  have hsessions₂ : s₂.sessions = s.sessions := by
    rw [← hs₂]
    exact hsessions
  have hmax₂ : s₂.settings.max_receivers = s.settings.max_receivers := by
    rw [← hs₂]
    exact hmax
  clear hs₂
  -- The check for a duplicate request, said of the table before the paused routes made way.
  have hfree : s₂.routes.any (has_key ⟨peer, req.route.toUInt8⟩) = false ↔
      ∀ r ∈ s.routes, r.key = ⟨peer, req.route.toUInt8⟩ →
        replaced_by peer req.route.toUInt8 kind r = true := by
    rw [hroutes₂, List.any_eq_false]
    constructor
    · intro h r hr hkey
      by_contra hrep
      exact h r (List.mem_filter.2 ⟨hr, by simpa using hrep⟩) (decide_eq_true hkey)
    · intro h r hr hkey
      obtain ⟨hmem, hrep⟩ := List.mem_filter.1 hr
      rw [h r hmem (of_decide_eq_true hkey)] at hrep
      cases hrep
  have hok := s₂.begin_pipelines_ok env
    (admitted peer req.route.toUInt8 kind s₂.settings.output.volume profile
      (env.now + PIPELINE_START_DEADLINE)) hk rfl
  rw [hsessions₂] at hok
  split
  · next hany =>
      refine ⟨hmax₂, fun h => ?_, fun _ => hroutes₂⟩
      rw [hfree.2 h.1] at hany
      cases hany
  · next hany =>
      have hfree := hfree.1 (Bool.not_eq_true _ ▸ hany)
      rcases s₂.begin_pipelines_begun env (admitted peer req.route.toUInt8 kind
        s₂.settings.output.volume profile (env.now + PIPELINE_START_DEADLINE)) with
        ⟨s₃, r₃, ready, he, hbegun⟩ | ⟨e, he, _⟩
      · have haccepts : s.accepts env peer req kind := ⟨hfree, hok.1 ⟨s₃, r₃, ready, he⟩⟩
        unfold admitted at he
        rw [he]
        dsimp only
        have hsame := hbegun.same
        have hmax₃ : s₃.settings.max_receivers = s.settings.max_receivers :=
          hbegun.max_receivers.trans hmax₂
        rw [show s₃.routes = _ from hbegun.routes, show s₂.board.routes = _ from hroutes₂]
        refine ⟨?_, fun _ => ⟨r₃, ?_, hsame.kind, hsame.status, ?_⟩, fun h => absurd haccepts h⟩
        · split
          · exact (activate_route_lasts env _ peer _).2.trans hmax₃
          · exact hmax₃
        · exact RouteKey.mk.injEq .. ▸ ⟨hsame.peer, hsame.id⟩
        · split
          · exact (activate_route_lasts env (s₃.set_routes (_ ++ [r₃])) peer _).1
          · exact List.forall₂_same.2 fun r _ => .refl r
      · have hno : ¬ s.accepts env peer req kind := by
          rintro ⟨_, haccepts⟩
          obtain ⟨s', r', ready, he'⟩ := hok.2 haccepts
          cases he.symm.trans he'
        unfold admitted at he
        rw [he]
        dsimp only
        generalize ht : Actor.error_notice env _ e = t
        have hb : t.board = s₂.board := by
          rw [← ht, error_notice_board, reject_board, drop_subscription_board]
          rfl
        exact ⟨(congrArg Board.max_receivers hb).trans hmax₂, fun h => absurd h hno,
          fun _ => (congrArg Board.routes hb).trans hroutes₂⟩

theorem respond_request_sends {request_id : Nat} (remember : Bool) {p : PendingRequest}
    (hp : s.requests.get request_id = some p) :
    ∃ t : Actor, s.respond_request env request_id true remember =
        t.accept_route env p.peer p.request p.kind ∧
      t.routes = s.routes ∧ t.sessions = s.sessions ∧ t.settings = s.settings := by
  unfold respond_request
  rw [hp]
  dsimp only
  refine ⟨_, if_pos rfl, ?_⟩
  split <;> exact ⟨rfl, rfl, rfl⟩

end Actor

/-! ## 4. Every event -/

theorem receivers_of_kept {routes : List Route} {peer : DeviceId} {id : UInt8} {kind : RouteKind}
    {source : String} :
    (routes.filter fun r => !Actor.replaced_by peer id kind r).countP (fun r => r.receives source) =
      routes.countP fun r => r.receives source := by
  rw [List.countP_filter]
  refine List.countP_congr fun r _ => ?_
  rw [Bool.and_eq_true_iff]
  refine ⟨And.left, fun h => ⟨h, ?_⟩⟩
  have hpaused := (of_decide_eq_true h).2.1
  unfold Actor.replaced_by
  simp [hpaused]

theorem receivers_of_lasts {routes routes' : List Route} {source : String}
    (h : List.Forall₂ Route.Lasts routes routes') :
    routes'.countP (fun r => r.receives source) = routes.countP fun r => r.receives source := by
  refine le_antisymm ?_ ?_
  · refine List.Forall₂.countP_le (fun r r' hr hrec => ?_) h
    exact decide_eq_true (hr.receives.1 (of_decide_eq_true hrec))
  · refine List.Forall₂.countP_le (R := flip Route.Lasts) (fun r' r hr hrec => ?_) h.flip
    exact decide_eq_true (hr.receives.2 (of_decide_eq_true hrec))

/-- The prompt that is answered is the exception. -/
theorem accept_route_within (env : Env) (s : Actor) (peer : DeviceId) (req : RouteRequest)
    {kind : RouteKind} (hk : kind.local_is_source = true) :
    (Admitted kind.endpoints.1 s.routes (s.accept_route env peer req kind).routes →
      (s.accept_route env peer req kind).receivers_of kind.endpoints.1 ≤
        (s.accept_route env peer req kind).settings.max_receivers) ↔
      ¬ (s.accepts env peer req kind ∧
        s.settings.max_receivers ≤ s.receivers_of kind.endpoints.1) := by
  obtain ⟨hmax, hyes, hno⟩ := s.accept_route_sends env peer req hk
  rw [hmax, Actor.receivers_of_eq, Actor.receivers_of_eq]
  by_cases ha : s.accepts env peer req kind
  · obtain ⟨r, hkey, hkind, hstatus, hlasts⟩ := hyes ha
    have hrec : r.receives kind.endpoints.1 := by
      refine ⟨?_, ?_, hkind ▸ hk, hkind ▸ rfl⟩
      · rw [hstatus]
        decide
      · rw [hstatus]
        decide
    -- The routes that make way are paused and receive nothing, so the count goes up by exactly
    -- one.
    have hcount : (s.accept_route env peer req kind).routes.countP
        (fun r => r.receives kind.endpoints.1) =
          (s.routes.countP fun r => r.receives kind.endpoints.1) + 1 := by
      rw [receivers_of_lasts hlasts, List.countP_append, receivers_of_kept, List.countP_singleton,
        if_pos (decide_eq_true hrec)]
    have hadmitted :
        Admitted kind.endpoints.1 s.routes (s.accept_route env peer req kind).routes := by
      obtain ⟨r', hr', hrr⟩ := hlasts.exists_right
        (List.mem_append_right _ (List.mem_singleton_self r))
      refine ⟨r', hr', hrr.receives.2 hrec, fun q hq hqrec hqkey => ?_⟩
      have hrep := ha.1 q hq (hqkey.trans (hrr.key.trans hkey))
      exact absurd (of_decide_eq_true hrep).2.1 hqrec.2.1
    rw [hcount]
    refine ⟨fun h hover => ?_, fun h _ => ?_⟩
    · have := h hadmitted
      have := hover.2
      omega
    · have := not_le.1 fun hle => h ⟨ha, hle⟩
      omega
  · refine ⟨fun _ h => ha h.1, fun _ ⟨r, hr, hrec, hnew⟩ => ?_⟩
    rw [hno ha] at hr
    exact absurd rfl (hnew r (List.mem_of_mem_filter hr) hrec rfl)

section
variable [Crypto]

/-- The user accepts a request for `source` for which there is no room any more. -/
def Moment.over_limit (q : Moment) (source : String) : Prop :=
  ∃ request_id remember p,
    q.2.event = .Command (.RespondRouteRequest request_id true remember) ∧
    q.1.actor.requests.get request_id = some p ∧
    p.kind.local_is_source = true ∧ p.kind.endpoints.1 = source ∧
    q.1.actor.accepts q.2.env p.peer p.request p.kind ∧
    q.1.actor.settings.max_receivers ≤ q.1.actor.receivers_of source

/-- Whenever an event admits a receiver, its source has no more of them than the limit, except where
the user accepts a request that there was no room for. -/
theorem receivers_within (w : World) (i : Input) (source : String) :
    (Admitted source w.actor.routes (w.step i).actor.routes →
      (w.step i).actor.receivers_of source ≤ (w.step i).actor.settings.max_receivers) ↔
      ¬ Moment.over_limit (w, i) source := by
  obtain ⟨env, event⟩ := i
  rw [World.step_actor]
  dsimp only
  by_cases hgrants : w.met.grants event source
  · obtain ⟨request_id, remember, p, rfl, hp, hk, rfl⟩ := hgrants
    obtain ⟨t, ht, hroutes, hsessions, hsettings⟩ := w.met.respond_request_sends env
      remember hp
    have hover : Moment.over_limit
        (w, ⟨env, .Command (.RespondRouteRequest request_id true remember)⟩) p.kind.endpoints.1 ↔
        t.accepts env p.peer p.request p.kind ∧
          t.settings.max_receivers ≤ t.receivers_of p.kind.endpoints.1 := by
      unfold Actor.accepts Actor.receivers_of
      rw [hroutes, hsessions, hsettings]
      constructor
      · rintro ⟨id, rem, q, hev, hget, _, _, ha, hle⟩
        cases hev
        obtain rfl := Option.some_inj.1 (hp.symm.trans hget)
        exact ⟨ha, hle⟩
      · rintro ⟨ha, hle⟩
        exact ⟨request_id, remember, p, rfl, hp, hk, rfl, ha, hle⟩
    have hwithin := accept_route_within env t p.peer p.request hk
    rw [hover, Actor.handle, Actor.handle_command, ht]
    rw [hroutes] at hwithin
    exact hwithin
  · have hnot : ¬ Moment.over_limit (w, ⟨env, event⟩) source := by
      rintro ⟨request_id, remember, p, hev, hget, hk, he, _⟩
      exact hgrants ⟨request_id, remember, p, hev, hget, hk, he⟩
    obtain ⟨l, hacts, _⟩ := w.met.handle_acts env event
    have hsame : ¬ Admitted source w.actor.routes w.actor.routes := by
      rintro ⟨r, hr, hrec, hnew⟩
      exact absurd rfl (hnew r hr hrec rfl)
    have hwithin := hacts.within hgrants (fun r hr => absurd hr List.not_mem_nil)
      fun hadmitted => absurd hadmitted hsame
    exact ⟨fun _ => hnot, fun _ => hwithin⟩

end

/-! ## 5. A run -/

namespace Sample

/-- One receiver is all that the settings allow. -/
def limited : World :=
  let permissions := { Permissions.default with receive_my_audio := .Ask }
  { actor := .start own_key (trust permissions) { Settings.default with max_receivers := 1 }
    calls := [], tasks := [], opened := [], live := [] }

/-- The peer asks for this computer's sound, which is left to the user; meanwhile the user sends it
to the other device. -/
def asks_and_sends : List Input :=
  connects 1 peer peer_key ++ connects 2 other other_key ++
    [⟨env, .Control 1 (.RouteRequest
      { route := 2, source_endpoint := "system", sink_endpoint := "speaker"
        requester_is_source := false, profile := none, replace := false })⟩,
      ⟨env, .Command (.StartRoute other .SendSystemAudio false 1)⟩]

def accepts : Input := ⟨env, .Command (.RespondRouteRequest 1 true false)⟩

theorem asks_and_sends_reachable :
    (engine Known).Reachable ((engine Known).exec limited asks_and_sends) := by
  have hinit : (engine Known).init limited := ⟨own_key, _, _, trust_loaded _, rfl⟩
  refine ⟨_, Machine.run_of_admits hinit ?_⟩
  refine ⟨.inl rfl, ⟨⟨_, List.mem_singleton.2 rfl, ?_⟩, ?_⟩, .inr rfl,
    ⟨⟨_, List.mem_singleton.2 rfl, ?_⟩, ?_⟩, ?_, trivial, trivial⟩
  · simp [Call.reports]
    rfl
  · decide
  · simp [Call.reports]
    rfl
  · decide
  · exact List.mem_cons_of_mem _ List.mem_cons_self

end Sample

open Sample in
/-- Of the two receivers the limit allows one. -/
theorem receivers_exceeded :
    let w := (engine Known).exec limited asks_and_sends
    (engine Known).Reachable w ∧
      ¬ (Admitted "system" w.actor.routes (w.step accepts).actor.routes →
        (w.step accepts).actor.receivers_of "system" ≤
          (w.step accepts).actor.settings.max_receivers) := by
  refine ⟨asks_and_sends_reachable, fun h => ?_⟩
  have hmax : ¬ ((((engine Known).exec limited asks_and_sends).step accepts).actor.receivers_of
      "system" ≤ (((engine Known).exec limited asks_and_sends).step
        accepts).actor.settings.max_receivers) := by
    decide +kernel
  refine hmax (h ?_)
  unfold Admitted
  decide +kernel

end SoundPush
