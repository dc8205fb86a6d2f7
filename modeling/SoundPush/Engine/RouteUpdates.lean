/-
`RouteUpdates` -- one route between two engines, and its updates on their way between them.

The engines are the actors at the two ends; what travels between them here are the route's
`RouteUpdate`s, in order. An end may do anything else between two events, as long as the route
stays active. `Shows` says that the two engines and the messages between them are a `Negotiation`,
from which `route_updates_converge` has its result.

`Untold` is the frame: most of what a handler does says nothing of profiles and
leaves every route what it was. So the two handlers that matter each have one lemma,
`reconfigure_route_spec` and `on_route_update_spec`, and both allow the route to
fail, which a run of this kind leaves out. `Shows` is kept by an event of either
kind, with the negotiation taking the same step.
-/
import SoundPush.Engine.Negotiation
import SoundPush.Engine.Sent
import SoundPush.Engine.Handling
import SoundPush.Engine.Trusted

set_option autoImplicit false

namespace SoundPush

/-! ## 1. A route at one end -/

/-- The update that an output is, for the route of some id on some connection. -/
def Output.update (conn_id : Nat) (id : UInt8) : Output → Option RouteUpdate
  | .Send c (.RouteUpdate u) => if c = conn_id ∧ u.route.toUInt8 = id then some u else none
  | _ => none

def Output.updates : Output → Bool
  | .Send _ (.RouteUpdate _) => true
  | _ => false

instance : Output.Rare Output.updates where
  plain o h := by
    unfold Output.updates
    split
    · cases h
    · rfl

theorem Output.updates_of_update {conn_id : Nat} {id : UInt8} {o : Output}
    (h : o.updates = false) : o.update conn_id id = none := by
  unfold Output.updates at h
  split at h
  · cases h
  · next hne =>
      unfold Output.update
      split
      · exact absurd rfl (hne _ _)
      · rfl

/-- What the two ends of a route have in common, each with its own profile. -/
def Route.deal (r : Route) : RouteKind × Bool × RouteStatus × Option StreamProfile :=
  (r.kind, r.requested_locally, r.status, r.profile)

namespace Actor

/-- The routes under a key. -/
def deals (s : Actor) (key : RouteKey) :
    List (RouteKind × Bool × RouteStatus × Option StreamProfile) :=
  (s.routes.filter (has_key key)).map Route.deal

/-- The updates sent for a route. -/
def updates (s : Actor) (key : RouteKey) : List RouteUpdate :=
  match s.sessions.get key.peer with
  | some session => s.out.filterMap (Output.update session.conn_id key.id)
  | none => []

def profile_at (s : Actor) (key : RouteKey) : Option StreamProfile :=
  (s.routes.find? (has_key key)).bind Route.profile

/-- Nothing was said of profiles, and the sessions are the same. -/
structure Untold (s s' : Actor) : Prop where
  sessions : s'.sessions = s.sessions
  picked : s'.picked Output.updates = s.picked Output.updates

namespace Untold

theorem refl (s : Actor) : s.Untold s := ⟨rfl, rfl⟩

theorem trans {a b c : Actor} (h : a.Untold b) (h' : b.Untold c) : a.Untold c :=
  ⟨h'.sessions.trans h.sessions, h'.picked.trans h.picked⟩

theorem of_tables {s s' : Actor} (h : s'.toTables = s.toTables)
    (hp : s'.picked Output.updates = s.picked Output.updates) : s.Untold s' :=
  ⟨congrArg Tables.sessions h, hp⟩

theorem updates {s s' : Actor} (h : s.Untold s') (key : RouteKey) :
    s'.updates key = s.updates key := by
  have hpick (out : List Output) (conn_id : Nat) :
      out.filterMap (Output.update conn_id key.id) =
        (out.filter Output.updates).filterMap (Output.update conn_id key.id) := by
    rw [List.filterMap_filter]
    refine congrArg (List.filterMap · out) (funext fun o => ?_)
    cases ho : o.updates with
    | true => rfl
    | false => exact Output.updates_of_update ho
  unfold Actor.updates
  rw [h.sessions]
  cases s.sessions.get key.peer with
  | none => rfl
  | some session =>
      dsimp only
      rw [hpick, hpick s.out]
      exact congrArg _ h.picked

end Untold

section
variable (env : Env) {s : Actor} {key : RouteKey}

theorem has_key_iff {r : Route} : has_key key r = true ↔ r.key = key := decide_eq_true_iff

theorem find?_of_filter {r : Route} {rest : List Route}
    (h : s.routes.filter (has_key key) = r :: rest) : s.routes.find? (has_key key) = some r := by
  rw [← List.head?_filter, h]
  rfl

theorem begin_pipelines_profile (s : Actor) (r : Route) :
    (s.begin_pipelines env r).2.1.profile = r.profile := by
  unfold begin_pipelines
  split
  · rfl
  · rfl
  · split
    · unfold begin_sender
      split
      · rfl
      · dsimp only
        split
        · split <;> split <;> rfl
        · rfl
        · rfl
    · unfold begin_receiver
      dsimp only
      split <;> rfl

theorem fail_route_untold (s : Actor) (peer : DeviceId) (id : UInt8) (error : EngineError) :
    s.Untold (s.fail_route env peer id error) := by
  unfold fail_route
  split
  · exact .refl s
  · next route rest _ =>
      dsimp only
      refine .trans (b := s.set_routes rest) ⟨rfl, rfl⟩ (.of_tables ?_ ?_)
      · simp only [update_keep_alive_tables, error_notice_tables, unmute_after_tables,
          answer_route_tables]
        split <;> simp
      · rw [update_keep_alive_picked, error_notice_picked, unmute_after_picked,
          answer_route_picked, apply_ite (picked Output.updates),
          send_to_unpicked _ _ fun _ => rfl, send_to_unpicked _ _ fun _ => rfl, ite_self,
          release_pipelines_picked]

/-- A route that fails is gone. -/
theorem fail_route_deals {r : Route} (h : s.routes.filter (has_key key) = [r])
    (error : EngineError) :
    (s.fail_route env key.peer key.id error).deals key = [] := by
  unfold deals
  rw [fail_route_routes]
  cases hfirst : s.routes.remove_first (has_key key) with
  | none =>
      rw [List.filter_eq_nil_iff.2
        fun a ha => by simp [List.remove_first_eq_none.1 hfirst a ha]] at h
      cases h
  | some found =>
      rw [List.eraseP_of_remove_first hfirst]
      rw [List.filter_of_remove_first hfirst] at h
      rw [(List.cons.inj h).2]
      rfl

/-- Opened again, the route is as it was but for its pipeline, or it fails. -/
theorem rebuild_route_spec {r : Route} (h : s.routes.filter (has_key key) = [r]) :
    s.Untold (s.rebuild_route env key) ∧
      ((s.rebuild_route env key).deals key = [] ∨
        (s.rebuild_route env key).deals key = [r.deal]) := by
  unfold rebuild_route
  cases hfirst : s.routes.remove_first (has_key key) with
  | none => exact ⟨.refl s, .inr (congrArg (List.map Route.deal) h)⟩
  | some found =>
      obtain ⟨route, rest⟩ := found
      rw [List.filter_of_remove_first hfirst] at h
      obtain ⟨rfl, hrest⟩ := List.cons.inj h
      have hkey := has_key_iff.1 (List.mem_of_remove_first hfirst).2
      dsimp only
      have hrelease : s.Untold ((s.set_routes rest).release_pipelines route).1 :=
        .trans (b := s.set_routes rest) ⟨rfl, rfl⟩
          (.of_tables (release_pipelines_tables _ _) (release_pipelines_picked _ _))
      have hroutes := congrArg Tables.routes (release_pipelines_tables (s.set_routes rest) route)
      rw [release_pipelines_route]
      generalize ((s.set_routes rest).release_pipelines route).1 = s₁ at hrelease hroutes ⊢
      have hsame := s₁.begin_pipelines_same env route.released
      have hprofile := begin_pipelines_profile env s₁ route.released
      have htables := s₁.begin_pipelines_tables env route.released
      generalize hbegin : s₁.begin_pipelines env route.released = begun at hsame hprofile htables ⊢
      obtain ⟨t, route', result⟩ := begun
      have htold : s.Untold t :=
        hrelease.trans (.of_tables htables (begin_pipelines_picked env _ hbegin))
      have hkey' : has_key key route' = true :=
        has_key_iff.2 ((congrArg₂ RouteKey.mk hsame.peer hsame.id).trans hkey)
      have halone : (t.routes ++ [route']).filter (has_key key) = [route'] := by
        rw [show t.routes = rest from (congrArg Tables.routes htables).trans hroutes,
          List.filter_append, hrest, List.filter_cons_of_pos hkey']
        rfl
      -- What the peers have agreed on does not change with the pipeline.
      have hdeal : route'.deal = route.deal := by
        unfold Route.deal
        rw [hsame.kind, hsame.requested_locally, hsame.status, hprofile]
        rfl
      cases result with
      | ok ready =>
          refine ⟨htold.trans ⟨rfl, rfl⟩, .inr ?_⟩
          exact (congrArg (List.map Route.deal) halone).trans (by rw [← hdeal]; rfl)
      | error e =>
          have htold' : s.Untold (t.set_routes (t.routes ++ [route'])) := htold.trans ⟨rfl, rfl⟩
          refine ⟨htold'.trans (fail_route_untold env _ _ _ _), .inl ?_⟩
          have hgone := fail_route_deals env (s := t.set_routes (t.routes ++ [route'])) halone e
          rw [← has_key_iff.1 hkey'] at hgone ⊢
          exact hgone

/-- The route has the profile then, or it has failed. -/
theorem apply_profile_spec {r : Route} (h : s.routes.filter (has_key key) = [r])
    (next : StreamProfile) :
    s.Untold (s.apply_profile env key next) ∧
      ((s.apply_profile env key next).deals key = [] ∨
        (s.apply_profile env key next).deals key = [(r.with_profile next).deal]) := by
  have hr : r.key = key := has_key_iff.1 (List.find?_some (find?_of_filter h))
  have hkey : has_key key (r.with_profile next) = true := has_key_iff.2 hr
  unfold apply_profile
  rw [find?_of_filter h]
  dsimp only
  have hroutes : ((s.set_routes (s.routes.modify_first (has_key key) fun r => r.with_profile
      next)).update_mic_groups).routes.filter (has_key key) = [r.with_profile next] :=
    List.filter_modify_first h hkey
  have htold : s.Untold ((s.set_routes (s.routes.modify_first (has_key key) fun r => r.with_profile
      next)).update_mic_groups) := ⟨rfl, rfl⟩
  generalize (s.set_routes (s.routes.modify_first (has_key key) fun r => r.with_profile
      next)).update_mic_groups = s₁ at hroutes htold ⊢
  obtain ⟨hrebuild, hdeals⟩ := rebuild_route_spec env hroutes
  refine iteInduction (motive := fun t => s.Untold t ∧
    (t.deals key = [] ∨ t.deals key = [(r.with_profile next).deal])) (fun _ => ?_) fun _ => ?_
  · exact ⟨htold, .inr (congrArg (List.map Route.deal) hroutes)⟩
  · exact ⟨htold.trans hrebuild, hdeals⟩

theorem sends_update_self (kind : RouteKind) (requested_locally : Bool) (p : StreamProfile) :
    sends_update kind requested_locally p p = false := by
  unfold sends_update quality_changed encoding_changed
  simp

/-- The settings of an end want something of a route that runs: it has the next profile then, or it
has failed, and the peer is told what concerns it. -/
theorem reconfigure_route_spec {r : Route} {session : Session} {current : StreamProfile}
    (h : s.routes.filter (has_key key) = [r]) (hs : s.sessions.get key.peer = some session)
    (hc : session.hello.capabilities.has Capabilities.FEATURE_ROUTE_RECONFIGURE = true)
    (hp : r.profile = some current) :
    let next := next_profile r.kind r.requested_locally current (s.wanted_profile r)
    ((s.reconfigure_route env key).deals key = [] ∨
        (s.reconfigure_route env key).deals key =
          [(r.kind, r.requested_locally, r.status, some next)]) ∧
      (s.reconfigure_route env key).updates key = s.updates key ++
        if sends_update r.kind r.requested_locally current next then
          [{ route := key.id.toUInt32, profile := some next }]
        else [] := by
  intro next
  have hkey := has_key_iff.1 (List.find?_some (find?_of_filter h))
  have hpeer : r.peer = key.peer := congrArg RouteKey.peer hkey
  have hid : r.id = key.id := congrArg RouteKey.id hkey
  obtain ⟨r₀, hr₀, hdeal₀⟩ : ∃ r₀, (s.reset_fallback r).routes.filter (has_key key) = [r₀] ∧
      r₀.deal = r.deal := by
    unfold reset_fallback
    split
    · exact ⟨r, h, rfl⟩
    · rw [hkey]
      exact ⟨_, List.filter_modify_first h (has_key_iff.2 hkey), rfl⟩
  have hreset : s.Untold (s.reset_fallback r) := by
    unfold reset_fallback
    split
    · exact .refl s
    · exact ⟨rfl, rfl⟩
  unfold reconfigure_route
  rw [find?_of_filter h]
  dsimp only
  rw [hpeer, hs, hp]
  dsimp only
  rw [show next_profile r.kind r.requested_locally current (s.wanted_profile r) = next from rfl,
    hc]
  -- The profile is as it should be, and nobody is told.
  by_cases hsame : next = current
  · rw [if_pos hsame, hsame, sends_update_self, if_neg Bool.false_ne_true, List.append_nil]
    refine ⟨.inr ((congrArg (List.map Route.deal) hr₀).trans ?_), hreset.updates key⟩
    rw [List.map_singleton, hdeal₀, ← hp]
    rfl
  · rw [if_neg hsame, Bool.not_true, Bool.and_false, if_neg Bool.false_ne_true]
    obtain ⟨happly, hdeals⟩ := apply_profile_spec env hr₀ next
    have htold := hreset.trans happly
    have hdeal : (r₀.with_profile next).deal =
        (r.kind, r.requested_locally, r.status, some next) := by
      have h₀ := hdeal₀
      unfold Route.deal at h₀
      simp only [Prod.mk.injEq] at h₀
      obtain ⟨hk, hb, hst, -⟩ := h₀
      exact congrArg₂ Prod.mk hk (congrArg₂ Prod.mk hb (congrArg₂ Prod.mk hst rfl))
    rw [hdeal] at hdeals
    generalize (s.reset_fallback r).apply_profile env key next = s₁ at hdeals htold ⊢
    split
    · have hs₁ : s₁.sessions.get key.peer = some session := htold.sessions ▸ hs
      refine ⟨?_, ?_⟩
      · unfold deals at hdeals ⊢
        rwa [show (s₁.send_to key.peer _).routes = s₁.routes from
          congrArg Tables.routes (send_to_tables _ _ _)]
      · rw [← htold.updates key]
        unfold send_to updates
        rw [hs₁]
        dsimp only [emit]
        rw [hs₁]
        dsimp only
        rw [List.filterMap_append, hid]
        refine congrArg _ ?_
        unfold Output.update
        simp
    · rw [List.append_nil]
      exact ⟨hdeals, htold.updates key⟩

/-- An update arrives for a route that runs. -/
theorem on_route_update_spec {r : Route} {current received : StreamProfile} {u : RouteUpdate}
    (h : s.routes.filter (has_key key) = [r]) (hp : r.profile = some current)
    (hu : u.route.toUInt8 = key.id) (hreceived : u.profile = some received) :
    ((s.on_route_update env key.peer u).deals key = [] ∨
        (s.on_route_update env key.peer u).deals key =
          [(r.kind, r.requested_locally, r.status,
          some (updated_profile r.kind current received))]) ∧
      (s.on_route_update env key.peer u).updates key = s.updates key := by
  unfold on_route_update
  rw [hu, show (RouteKey.mk key.peer key.id) = key from rfl]
  dsimp only
  rw [find?_of_filter h, hreceived]
  dsimp only
  rw [hp]
  dsimp only
  split
  · obtain ⟨happly, hdeals⟩ := apply_profile_spec env h (updated_profile r.kind current received)
    exact ⟨hdeals, happly.updates key⟩
  · next hsame =>
      rw [not_not.1 hsame, ← hp]
      exact ⟨.inr (congrArg (List.map Route.deal) h), rfl⟩

end

end Actor

/-! ## 2. Two engines -/

/-- A route between two engines; `kind` is what it is at its requester. -/
structure Stream where
  id : UInt8
  requester : DeviceId
  responder : DeviceId
  kind : RouteKind

/-- The key of a route at one of its ends. -/
def Stream.key (N : Stream) : Side → RouteKey
  | .Requester => ⟨N.responder, N.id⟩
  | .Responder => ⟨N.requester, N.id⟩

/-- The engines at the two ends, and the updates on their way between them. -/
structure Wire where
  engine : Side → Actor
  /-- the route's updates on their way to an end, oldest first -/
  toward : Side → List RouteUpdate

/-- The settings of an end change, or the oldest update on its way there arrives. -/
structure Wire.Event where
  side : Side
  env : Env
  /-- the engine at that moment, whatever else it has done -/
  now : Actor
  arrives : Bool

namespace Stream

variable (N : Stream)

/-- The route runs at an end, alone under its key. -/
def Runs (side : Side) (s : Actor) : Prop :=
  ∃ p, s.deals (N.key side) = [(side.kind N.kind, side.requested_locally, .Active, some p)]

/-- The engine after an event. -/
def handled (w : Wire) (e : Wire.Event) : Actor :=
  match e.arrives, w.toward e.side with
  | true, u :: _ => e.now.on_route_update e.env (N.key e.side).peer u
  | true, [] => e.now
  | false, _ => e.now.reconfigure_route e.env (N.key e.side)

def step (w : Wire) (e : Wire.Event) : Wire :=
  let s := N.handled w e
  let toward :=
    if e.arrives then Function.update w.toward e.side (w.toward e.side).tail else w.toward
  { engine := Function.update w.engine e.side s
    toward := Function.update toward e.side.peer
      (toward e.side.peer ++ s.updates (N.key e.side)) }

/-- The route runs at both ends with one profile, and stays active. Both peers can change how a
running stream is encoded. -/
def wire : Machine Wire Wire.Event where
  init w :=
    (∃ p : StreamProfile, p.Sane ∧ ∀ side, (w.engine side).deals (N.key side) =
      [(side.kind N.kind, side.requested_locally, .Active, some p)]) ∧
    ∀ side, w.toward side = []
  enabled w e :=
    e.now.deals (N.key e.side) = (w.engine e.side).deals (N.key e.side) ∧
      e.now.updates (N.key e.side) = [] ∧
      (∃ session, e.now.sessions.get (N.key e.side).peer = some session ∧
        session.hello.capabilities.has Capabilities.FEATURE_ROUTE_RECONFIGURE = true) ∧
      (e.arrives = true → w.toward e.side ≠ []) ∧
      N.Runs e.side (N.handled w e)
  step := N.step

/-- The update that carries a profile. -/
def update (p : StreamProfile) : RouteUpdate := { route := N.id.toUInt32, profile := some p }

/-- The engines and the messages between them are a negotiation. -/
structure Shows (w : Wire) (n : Negotiation) : Prop where
  deals : ∀ side, (w.engine side).deals (N.key side) =
    [(side.kind N.kind, side.requested_locally, .Active, some (n.profile side))]
  toward : ∀ side, w.toward side = (n.toward side).map N.update

/-- The profile that the settings of an end want. -/
def wanted (e : Wire.Event) (default : StreamProfile) : StreamProfile :=
  match e.now.routes.find? (has_key (N.key e.side)) with
  | some r => e.now.wanted_profile r
  | none => default

/-- What an event is to the negotiation. -/
def seen (n : Negotiation) (e : Wire.Event) : Negotiation.Event :=
  if e.arrives then .deliver e.side else .change e.side (N.wanted e (n.profile e.side))

/-- The source's denoise flag waits for the requester's quality, and the other way round. A
requester that is the source has nothing to wait for. -/
def Uncrossed (w : Wire) (e : Wire.Event) : Prop :=
  N.kind.local_is_source = false → e.arrives = false →
    ∀ p, e.now.profile_at (N.key e.side) = some p →
      match e.side with
      | .Requester =>
          w.toward .Requester = [] ∨
            (next_profile N.kind true p (N.wanted e p)).quality = p.quality
      | .Responder =>
          (N.wanted e p).denoise = p.denoise ∨
            ((w.engine .Requester).profile_at (N.key .Requester)).map StreamProfile.quality =
              some p.quality

/-! ## 3. The result -/

section
variable {N : Stream} {w : Wire} {n : Negotiation} {e : Wire.Event}

theorem exists_of_deals {s : Actor} {key : RouteKey}
    {d : RouteKind × Bool × RouteStatus × Option StreamProfile} (h : s.deals key = [d]) :
    ∃ r, s.routes.filter (has_key key) = [r] ∧ r.deal = d := by
  obtain ⟨r, hr, hd⟩ := List.map_eq_singleton_iff.1 h
  exact ⟨r, hr, hd⟩

theorem profile_at_of_deals {s : Actor} {key : RouteKey} {kind : RouteKind} {b : Bool}
    {status : RouteStatus} {profile : Option StreamProfile}
    (h : s.deals key = [(kind, b, status, profile)]) : s.profile_at key = profile := by
  obtain ⟨r, hr, hd⟩ := exists_of_deals h
  unfold Actor.profile_at
  rw [Actor.find?_of_filter hr]
  exact congrArg (·.2.2.2) hd

theorem key_id (N : Stream) (side : Side) : (N.key side).id = N.id := by
  cases side <;> rfl

/-- An end has a new profile, and the peer hears what is sent of it. -/
theorem Shows.take (h : N.Shows w n) {side : Side} {s : Actor} {next : StreamProfile}
    {sent : List StreamProfile}
    (hdeals : s.deals (N.key side) =
      [(side.kind N.kind, side.requested_locally, .Active, some next)])
    (hsent : s.updates (N.key side) = sent.map N.update) :
    N.Shows
      { engine := Function.update w.engine side s
        toward := Function.update w.toward side.peer
          (w.toward side.peer ++ s.updates (N.key side)) }
      (n.take side next sent) := by
  refine ⟨fun at_side => ?_, fun at_side => ?_⟩
  · unfold Negotiation.take
    rcases eq_or_ne at_side side with rfl | hne
    · dsimp only
      rw [Function.update_self, Function.update_self]
      exact hdeals
    · dsimp only
      rw [Function.update_of_ne hne, Function.update_of_ne hne]
      exact h.deals at_side
  · unfold Negotiation.take
    rcases eq_or_ne at_side side.peer with rfl | hne
    · dsimp only
      rw [Function.update_self, Function.update_self, hsent, h.toward, List.map_append]
    · dsimp only
      rw [Function.update_of_ne hne, Function.update_of_ne hne]
      exact h.toward at_side

/-- The settings of an end change. -/
theorem Shows.change (h : N.Shows w n) {side : Side} {env : Env} {now : Actor}
    (he : N.wire.enabled w ⟨side, env, now, false⟩) :
    N.Shows (N.step w ⟨side, env, now, false⟩)
      (n.step N.kind (.change side (N.wanted ⟨side, env, now, false⟩ (n.profile side)))) := by
  obtain ⟨hnow, hnone, ⟨session, hs, hc⟩, -, q, hruns⟩ := he
  obtain ⟨r, hr, hd⟩ := exists_of_deals (hnow.trans (h.deals side))
  unfold Route.deal at hd
  simp only [Prod.mk.injEq] at hd
  obtain ⟨hkind, hlocal, hstatus, hp⟩ := hd
  obtain ⟨hdeals, hupdates⟩ := Actor.reconfigure_route_spec env hr hs hc hp
  have hwanted : N.wanted ⟨side, env, now, false⟩ (n.profile side) = now.wanted_profile r := by
    unfold wanted
    rw [Actor.find?_of_filter hr]
  rw [hkind, hlocal, ← hwanted] at hdeals hupdates
  rw [hstatus] at hdeals
  have hdeals := hdeals.resolve_left fun hnil => by cases hnil.symm.trans hruns
  refine h.take hdeals (hupdates.trans ?_)
  rw [show now.updates (N.key side) = [] from hnone, List.nil_append, key_id]
  unfold Negotiation.sent Negotiation.next
  split <;> rfl

/-- An update arrives at an end. -/
theorem Shows.deliver (h : N.Shows w n) {side : Side} {env : Env} {now : Actor}
    (he : N.wire.enabled w ⟨side, env, now, true⟩) :
    N.Shows (N.step w ⟨side, env, now, true⟩) (n.step N.kind (.deliver side)) := by
  obtain ⟨hnow, hnone, -, hsome, q, hruns⟩ := he
  obtain ⟨r, hr, hd⟩ := exists_of_deals (hnow.trans (h.deals side))
  unfold Route.deal at hd
  simp only [Prod.mk.injEq] at hd
  obtain ⟨hkind, hlocal, hstatus, hp⟩ := hd
  have htoward := h.toward side
  cases hn : n.toward side with
  | nil =>
      rw [hn] at htoward
      exact absurd htoward (hsome rfl)
  | cons u rest =>
      rw [hn] at htoward
      have hhandled : N.handled w ⟨side, env, now, true⟩ =
          now.on_route_update env (N.key side).peer (N.update u) := by
        unfold handled
        dsimp only
        rw [htoward]
        rfl
      have hid : (N.update u).route.toUInt8 = (N.key side).id := by
        rw [key_id]
        exact UInt8.toUInt8_toUInt32 N.id
      obtain ⟨hdeals, hupdates⟩ :=
        Actor.on_route_update_spec env hr hp hid (rfl : (N.update u).profile = some u)
      rw [hkind, hlocal, hstatus, ← hhandled] at hdeals
      -- The route still runs after the event, so it has not failed.
      have hdeals := hdeals.resolve_left fun hnil => by cases hnil.symm.trans hruns
      rw [← hhandled, hnone] at hupdates
      unfold step Negotiation.step
      dsimp only
      rw [hn]
      refine ⟨fun at_side => ?_, fun at_side => ?_⟩
      · rcases eq_or_ne at_side side with rfl | hne
        · dsimp only
          rw [Function.update_self, Function.update_self]
          exact hdeals
        · dsimp only
          rw [Function.update_of_ne hne, Function.update_of_ne hne]
          exact h.deals at_side
      · dsimp only
        rw [hupdates, List.append_nil, if_pos rfl, Function.update_eq_self, htoward, List.map_cons,
          List.tail_cons]
        rcases eq_or_ne at_side side with rfl | hne
        · rw [Function.update_self, Function.update_self]
        · rw [Function.update_of_ne hne, Function.update_of_ne hne]
          exact h.toward at_side

theorem Shows.step (h : N.Shows w n) (he : N.wire.enabled w e) :
    N.Shows (N.step w e) (n.step N.kind (N.seen n e)) := by
  obtain ⟨side, env, now, arrives⟩ := e
  cases arrives with
  | false => exact h.change he
  | true => exact h.deliver he

/-- What is not crossed here is not crossed there. -/
theorem Shows.uncrossed (h : N.Shows w n) (he : N.wire.enabled w e) (hu : N.Uncrossed w e) :
    n.Uncrossed N.kind (N.seen n e) := by
  obtain ⟨side, env, now, arrives⟩ := e
  intro hk
  cases arrives with
  | true => trivial
  | false =>
      have hprofile (side : Side) := profile_at_of_deals (h.deals side)
      have hnow := profile_at_of_deals (he.1.trans (h.deals side))
      have hcross := hu hk rfl (n.profile side) hnow
      cases side with
      | Requester =>
          refine hcross.imp_left fun hnil => ?_
          exact List.map_eq_nil_iff.1 ((h.toward .Requester).symm.trans hnil)
      | Responder =>
          refine hcross.imp_right fun heq => ?_
          rw [hprofile .Requester] at heq
          exact (Option.some_inj.1 heq).symm

/-- **Route updates converge.** In every run in which neither end overtakes an update on its way
with a change of what it carries, the two ends agree on the encoding and on the denoising whenever
nothing is on its way. -/
theorem route_updates_converge {tr : List (Wire × Wire.Event)} (hr : N.wire.Run tr w)
    (hu : Machine.Meets N.Uncrossed tr) (hnil : ∀ side, w.toward side = []) :
    ∃ p q, (w.engine .Requester).profile_at (N.key .Requester) = some p ∧
      (w.engine .Responder).profile_at (N.key .Responder) = some q ∧
      p.codec = q.codec ∧ p.channels = q.channels ∧ p.frame_us = q.frame_us ∧
      p.bitrate = q.bitrate ∧ p.redundancy = q.redundancy ∧ p.denoise = q.denoise := by
  obtain ⟨n, hn, hc⟩ : ∃ n, N.Shows w n ∧ n.Coherent N.kind := by
    refine hr.invariant_where (P := fun w => ∃ n, N.Shows w n ∧ n.Coherent N.kind)
      (fun w h0 => ?_) (fun w e hw he hcross => ?_) hu
    · obtain ⟨⟨p, hp, hdeals⟩, hempty⟩ := h0
      refine ⟨⟨fun _ => p, fun _ => []⟩, ⟨hdeals, hempty⟩, ?_⟩
      exact ⟨fun _ => hp, fun _ _ h => absurd h List.not_mem_nil, rfl, rfl,
        fun _ h => absurd h List.not_mem_nil, fun _ => rfl⟩
    · obtain ⟨n, hn, hc⟩ := hw
      exact ⟨_, hn.step he, hc.step (hn.uncrossed he hcross)⟩
  have hempty (side : Side) : n.toward side = [] :=
    List.map_eq_nil_iff.1 ((hn.toward side).symm.trans (hnil side))
  obtain ⟨hquality, hdenoise⟩ := hc.agree hempty
  unfold StreamProfile.quality at hquality
  simp only [Prod.mk.injEq] at hquality
  obtain ⟨hcodec, hchannels, hframe, hbitrate, hredundancy⟩ := hquality
  exact ⟨n.profile .Requester, n.profile .Responder, profile_at_of_deals (hn.deals _),
    profile_at_of_deals (hn.deals _), hcodec.symm, hchannels.symm, hframe.symm, hbitrate.symm,
    hredundancy.symm, hdenoise.symm⟩

end

end Stream

/-! ## 4. Two runs -/

namespace Sample

def own : DeviceId := ⟨0x21fe31dfa154a261626bf854046fd227⟩

/-- This device plays the phone's microphone, and asked for it. -/
def mic_here : Stream :=
  { id := 0, requester := own, responder := peer, kind := .ReceiveMicToSpeaker }

/-- Opus at 128 kb/s, denoised by nobody. -/
def opus : StreamProfile :=
  { codec := Codec.Opus.id, bitrate := 128000, channels := 1, frame_us := 10000
    jitter_min_ms := 20, jitter_max_ms := 80
    redundancy := false, adaptive_bitrate := true, denoise := false }

/-- An engine at one end of the stream. -/
def engine_at (side : Side) : Actor :=
  let key := mic_here.key side
  let hello : Hello :=
    { hello key.peer with
      capabilities :=
        ⟨Capabilities.FEATURE_ROUTE_RECONFIGURE ||| Capabilities.FEATURE_RECEIVER_DENOISE⟩ }
  { Actor.start own_key (trust .default) .default with
    sessions := (∅ : Table DeviceId Session).insert key.peer
      { conn_id := 1, conn := conn peer_key, hello, dialed := false, next_route := 1,
        connected_at := 0 }
    routes :=
      [{ new_route key.peer key.id (side.kind mic_here.kind) side.requested_locally 1 with
        status := .Active, profile := some opus }] }

def both_play : Wire := { engine := engine_at, toward := fun _ => [] }

/-- Here the stream is wanted at 64 kb/s. -/
def lower : Wire.Event :=
  let s := engine_at .Requester
  { side := .Requester, env, arrives := false
    now := s.set_settings { s.settings with
      stream := { s.settings.stream with quality := .Opus, opus_bitrate := 64000 } } }

/-- On the phone it is wanted denoised by the device that plays it. -/
def denoised : Wire.Event :=
  let s := engine_at .Responder
  { side := .Responder, env, arrives := false
    now := s.set_settings { s.settings with
      mic :=
        { s.settings.mic with noise_suppression := true, noise_suppression_at := .Receiver } } }

/-- The update on its way to an end arrives there, which has done nothing since its own change. -/
def hears (side : Side) (e : Wire.Event) : Wire.Event :=
  { side, env, arrives := true
    now := { e.now.reconfigure_route env (mic_here.key side) with out := [] } }

def crossing : List Wire.Event :=
  [lower, denoised, hears .Requester lower, hears .Responder denoised]

theorem both_play_init : mic_here.wire.init both_play := by
  refine ⟨⟨opus, ?_, ?_⟩, fun _ => rfl⟩
  · constructor <;> decide
  · rintro (_ | _)
    · decide +kernel
    · decide +kernel

theorem crossing_admitted : mic_here.wire.Admits both_play crossing := by
  refine ⟨⟨rfl, rfl, ⟨_, rfl, by decide⟩, by decide, ?_⟩,
    ⟨rfl, rfl, ⟨_, rfl, by decide⟩, by decide, ?_⟩,
    ⟨rfl, rfl, ⟨_, rfl, by decide⟩, ?_, ?_⟩,
    ⟨rfl, rfl, ⟨_, rfl, by decide⟩, ?_, ?_⟩, trivial⟩
  · exact ⟨{ opus with bitrate := 64000, adaptive_bitrate := false }, by decide +kernel⟩
  · exact ⟨{ opus with denoise := true }, by decide +kernel⟩
  · decide +kernel
  · exact ⟨{ opus with denoise := true }, by decide +kernel⟩
  · decide +kernel
  · exact ⟨{ opus with bitrate := 64000, adaptive_bitrate := false, denoise := true },
      by decide +kernel⟩

/-- The phone has not changed anything when it hears of the change here. -/
def in_turn : List Wire.Event :=
  [lower, { side := .Responder, env, arrives := true, now := engine_at .Responder }]

theorem in_turn_admitted : mic_here.wire.Admits both_play in_turn := by
  refine ⟨⟨rfl, rfl, ⟨_, rfl, by decide⟩, by decide, ?_⟩,
    ⟨rfl, rfl, ⟨_, rfl, by decide⟩, ?_, ?_⟩, trivial⟩
  · exact ⟨{ opus with bitrate := 64000, adaptive_bitrate := false }, by decide +kernel⟩
  · decide +kernel
  · exact ⟨{ opus with bitrate := 64000, adaptive_bitrate := false }, by decide +kernel⟩

end Sample

open Sample in
/-- A change that arrives before the other end makes one. -/
theorem route_updates_converge_in_turn :
    ∃ p q,
      ((mic_here.wire.exec both_play in_turn).engine .Requester).profile_at
        (mic_here.key .Requester) = some p ∧
      ((mic_here.wire.exec both_play in_turn).engine .Responder).profile_at
        (mic_here.key .Responder) = some q ∧
      p.codec = q.codec ∧ p.channels = q.channels ∧ p.frame_us = q.frame_us ∧
      p.bitrate = q.bitrate ∧ p.redundancy = q.redundancy ∧ p.denoise = q.denoise := by
  refine Stream.route_updates_converge (Machine.run_of_admits both_play_init in_turn_admitted)
    (fun step hstep => ?_) fun side => ?_
  · rcases List.mem_cons.1 hstep with rfl | hstep
    · exact fun _ _ _ _ => .inl rfl
    · rw [List.mem_singleton.1 hstep]
      exact fun _ harrives => by cases harrives
  · cases side with
    | Requester => decide +kernel
    | Responder => decide +kernel

namespace Sample

theorem opus_sane : opus.Sane := by
  constructor <;> decide

/-- The engines and the wire are at the beginning of a negotiation. -/
theorem both_play_shows : mic_here.Shows both_play ⟨fun _ => opus, fun _ => []⟩ := by
  refine ⟨?_, fun _ => rfl⟩
  rintro (_ | _)
  · decide +kernel
  · decide +kernel

/-- The engines show what becomes of two updates that cross. -/
theorem crossing_shows :
    mic_here.Shows (mic_here.wire.exec both_play crossing)
      ([Negotiation.Event.change .Requester (mic_here.wanted lower opus),
        .change .Responder (mic_here.wanted denoised opus), .deliver .Requester,
        .deliver .Responder].foldl (Negotiation.step mic_here.kind)
          ⟨fun _ => opus, fun _ => []⟩) := by
  obtain ⟨hlower, hdenoised, hhere, hthere, -⟩ := crossing_admitted
  exact (((both_play_shows.step hlower).step hdenoised).step hhere).step hthere

end Sample

open Sample in
/-- A bitrate changed here and a denoise flag changed on the phone, at the same time: this device
goes back to the old bitrate, and the phone sends at the new one. -/
theorem route_updates_cross :
    ¬ ∀ (N : Stream) tr w, N.wire.Run tr w → (∀ side, w.toward side = []) →
      ∃ p q, (w.engine .Requester).profile_at (N.key .Requester) = some p ∧
        (w.engine .Responder).profile_at (N.key .Responder) = some q ∧
        p.codec = q.codec ∧ p.channels = q.channels ∧ p.frame_us = q.frame_us ∧
        p.bitrate = q.bitrate ∧ p.redundancy = q.redundancy ∧ p.denoise = q.denoise := by
  intro h
  have hrun := Machine.run_of_admits both_play_init crossing_admitted
  -- each change is of what the other end has not been told of yet
  have hsink : mic_here.kind.local_is_source = false := rfl
  obtain ⟨hempty, hthere, hhere⟩ := Negotiation.crossed_apart (mic_here.wanted lower opus)
    (mic_here.wanted denoised opus) hsink opus_sane (by decide +kernel) (by decide +kernel)
  have hshows := crossing_shows
  obtain ⟨p, q, hp, hq, -, -, -, hbitrate, -⟩ :=
    h mic_here _ _ hrun fun side => (hshows.toward side).trans (congrArg _ (hempty side))
  rw [Stream.profile_at_of_deals (hshows.deals .Requester), Option.some_inj] at hp
  rw [Stream.profile_at_of_deals (hshows.deals .Responder), Option.some_inj] at hq
  rw [hp] at hhere
  rw [hq] at hthere
  -- the bitrate is the fourth part of the quality
  have hkept : p.bitrate = opus.bitrate := congrArg (·.2.2.2.1) hhere
  have hlowered : q.bitrate = 64000 := (congrArg (·.2.2.2.1) hthere).trans (by decide +kernel)
  rw [hkept, hlowered] at hbitrate
  exact absurd hbitrate (by decide)

end SoundPush
