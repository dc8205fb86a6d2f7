/-
`Handling` -- every handler of the engine is a sequence of acts.

One lemma a handler, in the order of the model. A handler that sends, answers or
keeps books leaves the board as it is, as the simp set of `Board` says; the
others are taken apart along their own branches.

Where the work is. An act carries the checks that the handler made before it, and later proofs
read them off the act: that a stream of this computer's sound was stopped by somebody entitled to
it, that a device is below the limit of receivers, that the virtual microphone was free. So each
lemma here has to produce the check from the branch it is in, and to say of which event it speaks
where the act names one. `s₀` is the state that the event met and `s` the one the handler finds,
which for the handlers that come first are the same.

How it is put together. `acts_tend`, `acts_tune` and `acts_prune` are the acts that need no check;
`acts_ite` and `acts_foldl` take a chain through a branch and a loop. A handler whose result later
proofs compare (failing, stopping, pausing, resuming) gets an equation on the board first, ending in
`_board`, and the lemma ending in `_acts` is read off it.
-/
import SoundPush.Engine.Acts
import SoundPush.Engine.Basis

set_option autoImplicit false

namespace SoundPush

/-! ## 1. Routes with the same sound

`Alike` is what a route may change without a listener noticing. Here are the ways in which a whole
table stays alike, and what bringing the microphone groups up to date does to the encoders. -/

theorem alike_map {a : List Route} {f : Route → Route} (h : ∀ r : Route, r.Alike (f r)) :
    List.Forall₂ Route.Alike a (a.map f) :=
  List.forall₂_map_right_iff.2 (List.forall₂_same.2 fun r _ => h r)

/-- Changing one route, where it matters only what happens to the one that is found. -/
theorem alike_modify_first {a : List Route} {p : Route → Bool} {f : Route → Route}
    (h : ∀ r, a.find? p = some r → r.Alike (f r)) :
    List.Forall₂ Route.Alike a (a.modify_first p f) :=
  List.forall₂_modify_first Route.Alike.refl h

/-- Changing the last such route. -/
theorem alike_modify_last {a : List Route} {p : Route → Bool} {f : Route → Route}
    (h : ∀ r : Route, r.Alike (f r)) : List.Forall₂ Route.Alike a (a.modify_last p f) :=
  List.forall₂_modify_last Route.Alike.refl h

/-- Whether a route outlives its device is not heard. -/
theorem alike_keep_running (keep : Bool) (p : Route → Bool) (a : List Route) :
    List.Forall₂ Route.Alike a (a.modify_last p fun r => { r with keep_running := keep }) :=
  alike_modify_last fun _ =>
    ⟨rfl, rfl, rfl, rfl, rfl, fun h => h, rfl, rfl, rfl, rfl, rfl, rfl, rfl, fun h => h⟩

/-- A microphone group has a microphone in it; the mixed group has one as well. -/
theorem EncoderKey.has_mic_of_is_mic (key : EncoderKey) (h : key.is_mic = true) :
    key.has_mic = true := by
  unfold is_mic at h
  unfold has_mic
  split at h
  · next heq => rw [heq]
  · cases h

/-- The groups that hold a microphone take the mute that is set now, and no group changes
otherwise. -/
theorem Actor.update_mic_groups_tuned (s : Actor) :
    Tuned s.mic_muted s.encoders s.update_mic_groups.encoders := by
  have hget (key : EncoderKey) : s.update_mic_groups.encoders.get key = _ :=
    Table.get_map_values s.encoders _ key
  refine ⟨fun key i waiting group => ?_, fun key sender' h => ?_, fun key sender h => ?_⟩
  · rw [hget key]
    cases hslot : s.encoders.get key with
    | none => exact iff_of_false (fun h => by cases h) (fun h => by cases h)
    | some slot =>
        cases slot with
        | Starting _ _ _ => exact .rfl
        | Running sender =>
            refine ⟨fun h => ?_, fun h => by cases h⟩
            have h := Option.some_inj.1 h
            dsimp only at h
            split at h <;> cases h
  · rw [hget key] at h
    obtain ⟨slot, hslot, he⟩ := Option.map_eq_some_iff.1 h
    cases slot with
    | Starting _ _ _ => cases he
    | Running sender =>
        refine ⟨sender, hslot, ?_⟩
        dsimp only at he
        -- A group without a microphone is passed over, and then `is_mic` is false as well.
        by_cases hm : key.has_mic = true
        · rw [hm, Bool.not_true, if_neg Bool.false_ne_true] at he
          obtain rfl := EncoderSlot.Running.inj he
          refine ⟨rfl, rfl, rfl, fun hmic => ?_, fun _ hmic => ?_⟩
          · rw [hmic, if_pos rfl]
          · rw [hmic, if_neg Bool.false_ne_true]
        · have hmic : key.is_mic = false := by
            rw [← Bool.not_eq_true]
            exact fun h => hm (key.has_mic_of_is_mic h)
          rw [Bool.not_eq_true] at hm
          rw [hm, Bool.not_false, if_pos rfl] at he
          obtain rfl := EncoderSlot.Running.inj he
          refine ⟨rfl, rfl, rfl, fun h => ?_, fun h => ?_⟩
          · exact nomatch hmic.symm.trans h
          · exact nomatch hm.symm.trans h
  · rw [show s.update_mic_groups.encoders.get key = _ from hget key, h, Option.map_some]
    dsimp only
    split <;> exact ⟨_, rfl⟩

namespace Actor

variable [Crypto]

section
variable {env : Env} {s₀ : Actor} {event : Event} {s : Actor}

/-- What follows does not concern the board. -/
theorem acts_after {l : List DeviceId} {a : Board} {s s' : Actor}
    (h : Acts env s₀ event l a s.board) (hb : s'.board = s.board) :
    Acts env s₀ event l a s'.board :=
  hb ▸ h

/-- Routes that stay alike are one act. -/
theorem acts_tend {routes : List Route} (h : List.Forall₂ Route.Alike s.routes routes) :
    Acts env s₀ event [] s.board (s.set_routes routes).board :=
  .of_act (.tend routes h)

theorem acts_tune : Acts env s₀ event [] s.board s.update_mic_groups.board :=
  .of_act (.tune _ s.update_mic_groups_tuned)

theorem acts_prune : Acts env s₀ event [] s.board s.prune_encoders.board := .of_act .prune

/-- Acts in both branches are acts of the branch. -/
theorem acts_ite {c : Prop} [Decidable c] {l : List DeviceId} {a : Board} {x y : Actor}
    (hx : Acts env s₀ event l a x.board) (hy : Acts env s₀ event l a y.board) :
    Acts env s₀ event l a (if c then x else y).board := by
  split
  · exact hx
  · exact hy

/-- A loop of acts that ask nobody for a route, by induction on what it runs over. -/
theorem acts_foldl {α : Type} {f : Actor → α → Actor}
    (h : ∀ s a, Acts env s₀ event [] s.board (f s a).board) (l : List α) (s : Actor) :
    Acts env s₀ event [] s.board (l.foldl f s).board := by
  induction l generalizing s with
  | nil => exact .refl _
  | cons a l ih => exact (h s a).trans (ih (f s a))

end

/-! ## 2. Activating, failing, stopping and pausing

Failing and stopping do the same to the board, `finished`; who may do it is the guard `may_finish`,
which only a stream of this computer's sound asks for. -/

section
variable (env : Env) (s₀ : Actor) (event : Event) (s : Actor)

/-- A route becomes active where it is not one of the events that settle profiles. -/
theorem activate_route_acts (peer : DeviceId) (id : UInt8) (he : ¬ event.settles) :
    Acts env s₀ event [] s.board (s.activate_route env peer id).board := by
  unfold activate_route
  dsimp only
  split
  · exact .refl _
  · next r hr =>
      split
      · exact .refl _
      · next hs =>
          have hact : Acts env s₀ event [] s.board
              (s.set_routes (s.routes.modify_first (has_key ⟨peer, id⟩) Route.activated)).board :=
            .of_act (.activate ⟨peer, id⟩ r he hr (not_not.1 hs))
          refine acts_after hact ?_
          rw [update_keep_alive_board, apply_ite Actor.board, save_started_route_board, ite_self,
            apply_ite Actor.board, answer_route_board, send_to_board, ite_self]

/-- A route that ended: its pipeline is released, and the speakers are given back. -/
def finished (b : Board) (route : Route) (rest : List Route) : Board :=
  { b with
    routes := rest
    encoders := pruned (dropped b.encoders route.subscription)
    said := b.said ++ b.ends route }

omit [Crypto] in
/-- Releasing the pipeline and giving the speakers back, on a board without the route. -/
theorem finished_board {route : Route} {rest : List Route} {s' : Actor}
    (h : s'.board = ((s.set_routes rest).release_pipelines route).1.board) :
    (s'.unmute_after route.released).board = finished s.board route rest := by
  rw [unmute_after_board, h, release_pipelines_board]
  rfl

omit [Crypto] in
/-- A route that fails and is there leaves the board finished. -/
theorem fail_route_board {peer : DeviceId} {id : UInt8} (error : EngineError) {route : Route}
    {rest : List Route} (h : s.routes.remove_first (has_key ⟨peer, id⟩) = some (route, rest)) :
    (s.fail_route env peer id error).board = finished s.board route rest := by
  unfold fail_route
  rw [h]
  dsimp only
  rw [update_keep_alive_board, error_notice_board, release_pipelines_route]
  refine finished_board s ?_
  rw [answer_route_board, apply_ite Actor.board, send_to_board, send_to_board, ite_self]

omit [Crypto] in
/-- So does one that is stopped, whether or not the peer is told. -/
theorem stop_route_by_key_board {key : RouteKey} (reason : StopReason) (notify_peer : Bool)
    {route : Route} {rest : List Route}
    (h : s.routes.remove_first (has_key key) = some (route, rest)) :
    (s.stop_route_by_key env key reason notify_peer).board = finished s.board route rest := by
  unfold stop_route_by_key
  rw [h]
  dsimp only
  rw [update_keep_alive_board, release_pipelines_route, apply_ite Actor.board,
    forget_saved_route_board, ite_self]
  refine finished_board s ?_
  rw [answer_route_board, apply_ite Actor.board, send_to_board, ite_self]

omit [Crypto] in
/-- A failing route is taken out of the table, whether or not it is there. -/
theorem fail_route_routes (peer : DeviceId) (id : UInt8) (error : EngineError) :
    (s.fail_route env peer id error).routes = s.routes.eraseP (has_key ⟨peer, id⟩) := by
  cases h : s.routes.remove_first (has_key ⟨peer, id⟩) with
  | none =>
      rw [List.eraseP_of_remove_first_eq_none h]
      unfold fail_route
      rw [h]
  | some p =>
      rw [List.eraseP_of_remove_first h]
      exact congrArg Board.routes (fail_route_board env s error h)

theorem fail_route_acts (peer : DeviceId) (id : UInt8) (error : EngineError)
    (he : ∀ route, s.routes.find? (has_key ⟨peer, id⟩) = some route →
      may_finish env s₀ event s.board ⟨peer, id⟩ route) :
    Acts env s₀ event [] s.board (s.fail_route env peer id error).board := by
  cases h : s.routes.remove_first (has_key ⟨peer, id⟩) with
  | none =>
      unfold fail_route
      rw [h]
      exact .refl _
  | some p =>
      rw [fail_route_board env s error h]
      exact .of_act (.finish ⟨peer, id⟩ p.1 p.2 h (he p.1 (List.find?_eq_of_remove_first h)))

theorem stop_route_by_key_acts (key : RouteKey) (reason : StopReason) (notify_peer : Bool)
    (he : ∀ route, s.routes.find? (has_key key) = some route →
      may_finish env s₀ event s.board key route) :
    Acts env s₀ event [] s.board (s.stop_route_by_key env key reason notify_peer).board := by
  cases h : s.routes.remove_first (has_key key) with
  | none =>
      unfold stop_route_by_key
      rw [h]
      exact .refl _
  | some p =>
      rw [stop_route_by_key_board env s reason notify_peer h]
      exact .of_act (.finish key p.1 p.2 h (he p.1 (List.find?_eq_of_remove_first h)))

/-- Several routes that the event may end, one after the other. -/
theorem stop_routes_acts (keys : List RouteKey) (reason : StopReason) (notify_peer : Bool)
    (he : ∀ key ∈ keys, s₀.may_end env event key) :
    Acts env s₀ event [] s.board (s.stop_routes env keys reason notify_peer).board := by
  unfold stop_routes
  induction keys generalizing s with
  | nil => exact .refl _
  | cons key keys ih =>
      have hkey := he key List.mem_cons_self
      refine (stop_route_by_key_acts env s₀ event s key reason notify_peer
        fun _ _ _ => .inl hkey).trans (ih _ fun k hk => he k (List.mem_cons_of_mem _ hk))

/-- All routes with a device that the event may end. -/
theorem remove_routes_for_acts (peer : DeviceId)
    (he : ∀ key : RouteKey, key.peer = peer → s₀.may_end env event key) :
    Acts env s₀ event [] s.board (s.remove_routes_for env peer).board := by
  unfold remove_routes_for
  refine stop_routes_acts env s₀ event s _ _ _ fun key hkey => he key ?_
  obtain ⟨r, hr, rfl⟩ := List.mem_map.1 hkey
  exact of_decide_eq_true (List.mem_filter.1 hr).2

omit [Crypto] in
/-- A route that is paused gives its subscription back and is suspended. -/
theorem pause_route_suspended (route : Route) :
    (s.pause_route env route).1.board =
        { s.board with encoders := pruned (dropped s.board.encoders route.subscription) } ∧
      (s.pause_route env route).2 = route.suspended env.now := by
  have hrel := s.release_pipelines_board route
  have hstatus : route.released.status = route.status := rfl
  have hlocal : route.released.requested_locally = route.requested_locally := rfl
  unfold pause_route Route.suspended
  dsimp only
  rw [release_pipelines_route, hstatus, hlocal]
  cases hs : route.status with
  | Active | Paused => exact ⟨hrel, rfl⟩
  | _ =>
      dsimp only
      by_cases h : route.requested_locally = true
      · rw [if_pos h, if_pos h]
        exact ⟨(answer_route_board _ _ _).trans hrel, rfl⟩
      · rw [if_neg h, if_neg h]
        exact ⟨(answer_route_board _ _ _).trans hrel, rfl⟩

omit [Crypto] in
/-- Route by route, by induction on the table: the subscriptions go in the order of the routes. -/
theorem pause_each_suspended (peer : DeviceId) (routes : List Route) :
    (pause_each env peer s routes).1.board =
        { s.board with
          encoders := routes.foldl
            (fun e r => if r.peer = peer then pruned (dropped e r.subscription) else e)
            s.board.encoders } ∧
      (pause_each env peer s routes).2 =
        routes.map fun r => if r.peer = peer then r.suspended env.now else r := by
  induction routes generalizing s with
  | nil => exact ⟨rfl, rfl⟩
  | cons r routes ih =>
      obtain ⟨hboard, hroute⟩ := s.pause_route_suspended env r
      rw [pause_each, List.foldl_cons, List.map_cons]
      dsimp only
      by_cases hp : r.peer = peer
      · obtain ⟨hb, hr⟩ := ih (s.pause_route env r).1
        rw [if_pos hp, if_pos hp, if_pos hp, hb, hr, hboard, hroute]
        exact ⟨rfl, rfl⟩
      · obtain ⟨hb, hr⟩ := ih s
        rw [if_neg hp, if_neg hp, if_neg hp, hb, hr]
        exact ⟨rfl, rfl⟩

omit [Crypto] in
/-- The board when a session went down, as `Board.paused` has it. -/
theorem pause_routes_for_board (peer : DeviceId) :
    (s.pause_routes_for env peer).board = s.board.paused peer env.now := by
  obtain ⟨hb, hr⟩ := s.pause_each_suspended env peer s.routes
  unfold pause_routes_for
  dsimp only
  rw [update_keep_alive_board, set_routes_board, hb, hr]
  rfl

end

/-! ## 3. Starting and resuming

A request uses up a route id of the session, which is why every lemma here says how often the device
was asked. Resuming is taken apart into its three stages: the paused routes are set aside, each kind
is asked for again, and what is left aside is discarded. -/

omit [Crypto] in
/-- Two routes of one key. -/
theorem keys_not_nodup {routes : List Route} {r r' : Route} (hr : r ∈ routes) (hr' : r' ∈ routes)
    (hkey : r.key = r'.key) (hne : r ≠ r') : ¬ (routes.map Route.key).Nodup :=
  fun h => hne (List.inj_on_of_nodup_map h hr hr' hkey)

omit [Crypto] in
/-- The feed that is found is a route in the table. -/
theorem virtual_mic_feed_eq_some {s : Actor} {except : Option DeviceId} {key : RouteKey}
    (h : s.virtual_mic_feed except = some key) :
    ∃ r ∈ s.routes, r.key = key ∧ r.kind = .ReceiveMicToVirtualMic := by
  obtain ⟨r, hr, rfl⟩ := Option.map_eq_some_iff.1 h
  have hfeed := List.find?_some hr
  simp only [decide_eq_true_eq] at hfeed
  exact ⟨r, List.mem_of_find?_eq_some hr, rfl, hfeed.1⟩

section
variable (env : Env) (s₀ : Actor) (event : Event) (s : Actor)

/-- A feed of the virtual microphone is stopped, never a stream of this computer's sound. -/
theorem stop_feed_acts {key : RouteKey} (reason : StopReason) (notify_peer : Bool)
    (h : ∃ r ∈ s.routes, r.key = key ∧ r.kind = .ReceiveMicToVirtualMic) :
    Acts env s₀ event [] s.board (s.stop_route_by_key env key reason notify_peer).board := by
  refine stop_route_by_key_acts env s₀ event s key reason notify_peer fun route hroute hkind => ?_
  obtain ⟨r, hr, rfl, hk⟩ := h
  have hfound := List.find?_some hroute
  have hkey : route.key = r.key := of_decide_eq_true hfound
  refine .inr (.inr (.inr (keys_not_nodup (List.mem_of_find?_eq_some hroute) hr hkey fun he => ?_)))
  rw [he, hk] at hkind
  cases hkind

omit [Crypto] in
/-- Stopping the feed in the way leaves the limit of receivers as it is, though it may save
settings. -/
theorem make_room_max (feed : Option RouteKey) :
    (s.make_room env feed).settings.max_receivers = s.settings.max_receivers := by
  unfold make_room
  cases feed with
  | none => rfl
  | some key =>
      dsimp only
      cases h : s.routes.remove_first (has_key key) with
      | none =>
          unfold stop_route_by_key
          rw [h]
      | some p =>
          exact congrArg Board.max_receivers (stop_route_by_key_board env s .Superseded true h)

/-- The feed in the way is a microphone route, so that ending it needs no leave. -/
theorem make_room_acts (peer : DeviceId) (kind : RouteKind) :
    Acts env s₀ event [] s.board (s.make_room env (s.feed_in_the_way peer kind)).board := by
  unfold make_room
  split
  · next key hkey =>
      unfold feed_in_the_way at hkey
      split at hkey
      · exact stop_feed_acts env s₀ event s _ _ (virtual_mic_feed_eq_some hkey)
      · cases hkey
  · exact .refl _

omit [Crypto] in
/-- A request on a session that stands adds one route under the next free id and counts it on. -/
theorem request_route_board (peer : DeviceId) (kind : RouteKind) (replace : Bool) (reply : Reply)
    (fallback : QualityFallback) {session : Session} (hs : s.sessions.get peer = some session) :
    ∃ r : Route, r.IsRequest peer session.next_route kind ∧
      (s.request_route env peer kind replace reply fallback).board =
        { s.board with
          routes := s.routes ++ [r]
          sessions := s.sessions.insert peer session.alloc_route.1 } := by
  unfold request_route
  dsimp only
  rw [hs]
  dsimp only
  rw [set_routes_board, emit_send_board]
  refine ⟨_, ?_, rfl⟩
  refine ⟨rfl, rfl, rfl, rfl, rfl, rfl, rfl, rfl, rfl, rfl, rfl, rfl, rfl, ?_⟩
  intro p hp
  obtain rfl := Option.some.inj hp
  have husable := s.profile_for_usable kind peer
  refine ⟨?_, fun h => nomatch h⟩
  by_cases hf : fallback.active = true
  · rw [if_pos hf]
    exact husable.fallback
  · rw [if_neg hf]
    exact husable

/-- The act of a request, with what was checked before it: no other route of the kind, room for
one more receiver, the virtual microphone free. -/
theorem request_route_acts (peer : DeviceId) (kind : RouteKind) (replace : Bool) (reply : Reply)
    (fallback : QualityFallback)
    (hnew : ∀ r ∈ s.routes, r.peer = peer → r.kind = kind → r.status = .Stopped)
    (hroom : kind.local_is_source = true →
      s.receivers_of kind.endpoints.1 < s.settings.max_receivers)
    (hfeed : kind = .ReceiveMicToVirtualMic → s₀.clears_feed event peer s.routes) :
    Acts env s₀ event [peer] s.board
    (s.request_route env peer kind replace reply fallback).board := by
  cases hs : s.sessions.get peer with
  | none =>
      unfold request_route
      rw [hs]
      dsimp only
      rw [answer_board]
      exact (Acts.refl _).any
  | some session =>
      obtain ⟨r, hr, hb⟩ := s.request_route_board env peer kind replace reply fallback hs
      rw [hb]
      exact .of_act (.request peer kind session r hs hr hnew hroom hfeed)

omit [Crypto] in
/-- What `check_local_capability` has checked. -/
theorem receivers_of_check {kind : RouteKind} (h : s.check_local_capability env kind = none)
    (hk : kind.local_is_source = true) :
    s.receivers_of kind.endpoints.1 < s.settings.max_receivers := by
  unfold check_local_capability at h
  dsimp only at h
  split at h
  · cases h
  · next hroom => exact not_le.1 fun hle => hroom ⟨hk, hle⟩

omit [Crypto] in
/-- With no feed in the way and no route of its own kind, no route at all feeds the virtual
microphone. -/
theorem no_feed_of_none {peer : DeviceId} {kind : RouteKind}
    (hnew : ∀ r ∈ s.routes, r.peer = peer → r.kind = kind → r.status = .Stopped)
    (h : s.feed_in_the_way peer kind = none) (hk : kind = .ReceiveMicToVirtualMic) :
    ∀ r ∈ s.routes, r.feeds = false := by
  intro r hr
  rw [hk] at h
  rw [← Bool.not_eq_true]
  intro hfeeds
  have hf := of_decide_eq_true hfeeds
  have hpeer : r.peer ≠ peer := fun hp => hf.2 (hnew r hr hp (hf.1.trans hk.symm))
  have hfind := List.find?_eq_none.1 (Option.map_eq_none_iff.1 h) r hr
  simp only [decide_eq_true_eq] at hfind
  exact hfind ⟨hf.1, hf.2, fun he => hpeer (Option.some_inj.1 he)⟩

/-- Starting a route asks the device once at most. Only the command of the user may replace a
feed, and then the routes are those that the event met. -/
theorem start_route_keeping_acts (peer : DeviceId) (kind : RouteKind) (replace : Bool)
    (reply : Reply)
    (fallback : QualityFallback)
    (hr : replace = true → s.routes = s₀.routes ∧
      ∃ caller, event = .Command (.StartRoute peer kind true caller)) :
    Acts env s₀ event [peer] s.board
      (s.start_route_keeping env peer kind replace reply fallback).board := by
  unfold start_route_keeping
  split
  · rw [answer_board]
    exact (Acts.refl _).any
  · next hexists =>
      -- The device has no such route under way, so nothing that is asked for here is there
      -- already.
      have hnew : ∀ r ∈ s.routes, r.peer = peer → r.kind = kind → r.status = .Stopped := by
        intro r hr hp hk
        have := List.find?_eq_none.1 hexists r hr
        simp only [decide_eq_true_eq] at this
        by_contra hs
        exact this ⟨hp, hk, hs⟩
      split
      · rw [answer_board]
        exact (Acts.refl _).any
      · next hcap =>
          dsimp only
          split
          · rw [answer_board]
            exact (Acts.refl _).any
          · next hbusy =>
              have hroom := fun hk => s.receivers_of_check env hcap hk
              refine (make_room_acts env s₀ event s peer kind).trans
                (request_route_acts env s₀ event _ peer kind replace reply fallback ?_ ?_ ?_)
              · intro r hr
                exact hnew r ((s.make_room_spec env _).2.subset hr)
              · intro hk
                refine lt_of_le_of_lt ?_ (lt_of_lt_of_eq (hroom hk) ?_)
                · exact List.Sublist.countP_le (s.make_room_spec env _).2
                · exact (s.make_room_max env _).symm
              · intro hk
                cases hfeed : s.feed_in_the_way peer kind with
                | none => exact .inl (s.no_feed_of_none hnew hfeed hk)
                | some key =>
                    -- A feed in the way and no word to replace it would have been answered with
                    -- an error.
                    have hreplace : replace = true := by
                      by_contra h
                      exact hbusy ⟨by rw [hfeed]; rfl, by simpa using h⟩
                    have hroutes : (s.make_room env (some key)).routes =
                        s.routes.eraseP (has_key key) :=
                      congrArg Tables.routes (stop_route_by_key_tables env s key .Superseded true)
                    obtain ⟨hsame, caller, hev⟩ := hr hreplace
                    refine .inr ⟨key, caller, ?_, ?_, ?_⟩
                    · rw [hev, hk]
                    · rw [hk] at hfeed
                      have : s₀.virtual_mic_feed (some peer) = s.virtual_mic_feed (some peer) := by
                        unfold virtual_mic_feed
                        rw [hsame]
                      exact this.trans hfeed
                    · rw [hroutes, hsame]

/-- Whether starting a route comes to asking its peer. -/
def starts (env : Env) (s : Actor) (peer : DeviceId) (kind : RouteKind) (replace : Bool) : Prop :=
  (∀ r ∈ s.routes, r.peer = peer → r.kind = kind → r.status = .Stopped) ∧
    s.check_local_capability env kind = none ∧
    (replace = true ∨ s.feed_in_the_way peer kind = none)

omit [Crypto] in
/-- A start that one of the checks refuses leaves the board. -/
theorem start_route_keeping_none {peer : DeviceId} {kind : RouteKind} {replace : Bool}
    (reply : Reply) (fallback : QualityFallback) (h : ¬ s.starts env peer kind replace) :
    (s.start_route_keeping env peer kind replace reply fallback).board = s.board := by
  unfold start_route_keeping
  split
  · exact answer_board _ _ _
  · next hexists =>
      split
      · exact answer_board _ _ _
      · next hcap =>
          dsimp only
          split
          · exact answer_board _ _ _
          · next hbusy =>
              refine absurd ⟨fun r hr hp hk => ?_, hcap, ?_⟩ h
              · have := List.find?_eq_none.1 hexists r hr
                simp only [decide_eq_true_eq] at this
                by_contra hs
                exact this ⟨hp, hk, hs⟩
              · by_cases hr : replace = true
                · exact .inl hr
                · refine .inr (Option.not_isSome_iff_eq_none.1 fun hsome => hbusy ⟨hsome, ?_⟩)
                  simpa using hr

omit [Crypto] in
/-- A start that all of them pass is the request. -/
theorem start_route_keeping_some {peer : DeviceId} {kind : RouteKind} (reply : Reply)
    (fallback : QualityFallback) (h : s.starts env peer kind false) :
    s.start_route_keeping env peer kind false reply fallback =
      s.request_route env peer kind false reply fallback := by
  obtain ⟨hnew, hcap, hfeed⟩ := h
  have hfeed : s.feed_in_the_way peer kind = none := hfeed.resolve_left Bool.false_ne_true
  have hexists : (s.routes.find? fun r => r.peer = peer ∧ r.kind = kind ∧ r.status ≠ .Stopped) =
      none := by
    refine List.find?_eq_none.2 fun r hr => ?_
    simp only [decide_eq_true_eq]
    exact fun ⟨hp, hk, hs⟩ => hs (hnew r hr hp hk)
  unfold start_route_keeping
  rw [hexists, hcap, hfeed]
  rfl

omit [Crypto] in
/-- Starting a route that replaces none: a peer is asked for it, or the board is as it was. -/
theorem start_route_keeping_board (peer : DeviceId) (kind : RouteKind) (reply : Reply)
    (fallback : QualityFallback) :
    ((s.start_route_keeping env peer kind false reply fallback).board = s.board ∧
      (s.starts env peer kind false → s.sessions.get peer = none)) ∨
      ∃ session r, s.sessions.get peer = some session ∧ s.starts env peer kind false ∧
        r.IsRequest peer session.next_route kind ∧
        (s.start_route_keeping env peer kind false reply fallback).board =
          { s.board with
            routes := s.routes ++ [r]
            sessions := s.sessions.insert peer session.alloc_route.1 } := by
  by_cases h : s.starts env peer kind false
  · rw [s.start_route_keeping_some env reply fallback h]
    cases hs : s.sessions.get peer with
    | none =>
        refine .inl ⟨?_, fun _ => rfl⟩
        unfold request_route
        dsimp only
        rw [hs]
        exact answer_board _ _ _
    | some session =>
        obtain ⟨r, hr, hb⟩ := s.request_route_board env peer kind false reply fallback hs
        exact .inr ⟨session, r, rfl, h, hr, hb⟩
  · exact .inl ⟨s.start_route_keeping_none env reply fallback h, fun h' => absurd h' h⟩

omit [Crypto] in
/-- Both together for a start that replaces nothing: the board as it was, or with one route
more. -/
theorem start_route_board (peer : DeviceId) (kind : RouteKind) (reply : Reply) :
    ((s.start_route env peer kind false reply).board = s.board ∧
      (s.starts env peer kind false → s.sessions.get peer = none)) ∨
      ∃ session r, s.sessions.get peer = some session ∧ s.starts env peer kind false ∧
        r.IsRequest peer session.next_route kind ∧
        (s.start_route env peer kind false reply).board =
          { s.board with
            routes := s.routes ++ [r]
            sessions := s.sessions.insert peer session.alloc_route.1 } :=
  s.start_route_keeping_board env peer kind reply .default

/-- The board while paused routes are asked for again. -/
def resuming (st : Actor × List Route) : Board := { st.1.board with aside := st.2 }

/-- One kind is asked for again; if that adds no route, the paused one is put back. -/
theorem resume_kind_acts (peer : DeviceId) (st : Actor × List Route) (kind : RouteKind)
    (hpeer : ∀ r ∈ st.2, r.peer = peer) :
    Acts env s₀ event [peer] (resuming st) (resuming (resume_kind env peer st kind)) := by
  obtain ⟨s, paused⟩ := st
  have hstart : Acts env s₀ event [peer] (resuming (s, paused))
      (resuming (s.start_route env peer kind false .dropped, paused)) := by
    unfold resuming
    dsimp only
    rcases s.start_route_board env peer kind .dropped with ⟨h, _⟩ | ⟨session, r, hs, hstarts, hr, h⟩
    · rw [h]
      exact (Acts.refl _).any
    · obtain ⟨hnew, hcap, hfeed⟩ := hstarts
      rw [h]
      refine .of_act (.request peer kind session r hs hr hnew
        (fun hk => s.receivers_of_check env hcap hk) fun hk => .inl ?_)
      exact s.no_feed_of_none hnew (hfeed.resolve_left Bool.false_ne_true) hk
  unfold resume_kind
  dsimp only
  generalize s.start_route env peer kind false .dropped = s₁ at hstart ⊢
  split
  · exact Acts.trans hstart (.of_act (.tend _ (alike_keep_running _ _ _)))
  · next hany =>
      have hn : ∀ r ∈ s₁.routes, r.peer = peer → r.kind ≠ kind := fun r hr hp hk =>
        hany (List.any_eq_true.2 ⟨r, hr, decide_eq_true ⟨hp, hk⟩⟩)
      split
      · next route rest h =>
          have hp := hpeer route (List.mem_of_remove_first h).1
          exact Acts.trans hstart (.of_act (.put_back peer kind route rest hp hn h))
      · exact hstart

omit [Crypto] in
/-- What was asked for again is in the table, and stays there. -/
theorem resume_kind_present (peer : DeviceId) (st : Actor × List Route) (kind : RouteKind)
    (hpeer : ∀ r ∈ st.2, r.peer = peer) :
    (∀ p k, (∃ r ∈ st.1.routes, r.peer = p ∧ r.kind = k) →
      ∃ r ∈ (resume_kind env peer st kind).1.routes, r.peer = p ∧ r.kind = k) ∧
    ∀ r ∈ (resume_kind env peer st kind).2, r ∈ st.2 ∧ (r.kind = kind →
      ∃ r' ∈ (resume_kind env peer st kind).1.routes, r'.peer = peer ∧ r'.kind = kind) := by
  obtain ⟨s, paused⟩ := st
  -- Asking again only appends to the table.
  have hstart : ∀ r ∈ s.routes, r ∈ (s.start_route env peer kind false .dropped).routes := by
    intro r hr
    rcases s.start_route_board env peer kind .dropped with ⟨h, _⟩ | ⟨session, q, _, _, _, h⟩
    · rwa [show (s.start_route env peer kind false .dropped).routes = s.routes from
        congrArg Board.routes h]
    · rw [show (s.start_route env peer kind false .dropped).routes = s.routes ++ [q] from
        congrArg Board.routes h]
      exact List.mem_append_left _ hr
  unfold resume_kind
  dsimp only
  generalize s.start_route env peer kind false .dropped = s₁ at hstart ⊢
  split
  · next hany =>
      generalize s₁.settings.saved_routes.any _ = keep
      have hall := alike_keep_running keep (fun r => r.peer = peer ∧ r.kind = kind) s₁.routes
      have hkept : ∀ r ∈ s₁.routes, ∃ r' ∈ s₁.routes.modify_last
          (fun r => r.peer = peer ∧ r.kind = kind) fun r => { r with keep_running := keep },
          r'.peer = r.peer ∧ r'.kind = r.kind := fun r hr =>
        let ⟨r', hr', hsame⟩ := hall.exists_right hr
        ⟨r', hr', hsame.peer, hsame.kind⟩
      refine ⟨fun p k ⟨r, hr, hp, hk⟩ => ?_, fun r hr => ⟨hr, fun _ => ?_⟩⟩
      · obtain ⟨r', hr', hp', hk'⟩ := hkept r (hstart r hr)
        exact ⟨r', hr', hp'.trans hp, hk'.trans hk⟩
      · obtain ⟨q, hq, hqk⟩ := List.any_eq_true.1 hany
        have hqk := of_decide_eq_true hqk
        obtain ⟨r', hr', hp', hk'⟩ := hkept q hq
        exact ⟨r', hr', hp'.trans hqk.1, hk'.trans hqk.2⟩
  · split
    · next route rest h =>
        have hmem := List.mem_of_remove_first h
        have hkind : route.kind = kind := of_decide_eq_true hmem.2
        refine ⟨fun p k ⟨r, hr, hp, hk⟩ => ⟨r, List.mem_append_left _ (hstart r hr), hp, hk⟩,
          fun r hr => ⟨(List.sublist_of_remove_first h).subset hr, fun _ => ?_⟩⟩
        refine ⟨route, List.mem_append_right _ (List.mem_singleton_self _), ?_, hkind⟩
        exact hpeer route hmem.1
    · next h =>
        refine ⟨fun p k ⟨r, hr, hp, hk⟩ => ⟨r, hstart r hr, hp, hk⟩, fun r hr => ⟨hr, fun hk => ?_⟩⟩
        have := List.remove_first_eq_none.1 h r hr
        exact absurd hk (of_decide_eq_false this)

/-- The kinds of route asked for again on a reconnect. -/
def resumed_kinds (s : Actor) (peer : DeviceId) : List RouteKind :=
  let paused := s.routes.filter fun r =>
    r.peer = peer ∧ r.status = .Paused ∧ r.requested_locally
  let saved := s.settings.saved_routes.filter fun e =>
    e.peer_id = peer.to_hex ∧ (e.keep ∨ s.settings.resume_routes_on_start)
  saved.foldl (fun kinds e => if e.kind ∈ kinds then kinds else kinds ++ [e.kind])
    (paused.map Route.kind)

/-- The state and the paused routes that a resume starts from. -/
def set_aside (s : Actor) (peer : DeviceId) : Actor × List Route :=
  (s.set_routes (s.routes.filter fun r =>
      !(r.peer = peer ∧ r.status = .Paused ∧ r.requested_locally)),
    s.routes.filter fun r => r.peer = peer ∧ r.status = .Paused ∧ r.requested_locally)

omit [Crypto] in
/-- Resuming as a loop over the kinds, with its two ingredients named. -/
theorem resume_routes_eq (peer : DeviceId) :
    s.resume_routes env peer =
      ((s.resumed_kinds peer).foldl (resume_kind env peer) (s.set_aside peer)).1 := rfl

omit [Crypto] in
/-- Every kind that was set aside is among those asked for again. -/
theorem paused_kind_resumed {peer : DeviceId} {r : Route} (hr : r ∈ (s.set_aside peer).2) :
    r.kind ∈ s.resumed_kinds peer := by
  have hgrow : ∀ (saved : List SavedRoute) (kinds : List RouteKind), r.kind ∈ kinds →
      r.kind ∈ saved.foldl
        (fun kinds e => if e.kind ∈ kinds then kinds else kinds ++ [e.kind]) kinds := by
    intro saved
    induction saved with
    | nil => exact fun kinds h => h
    | cons e saved ih =>
        intro kinds h
        refine ih _ ?_
        dsimp only
        split
        · exact h
        · exact List.mem_append_left _ h
  exact hgrow _ _ (List.mem_map_of_mem hr)

/-- The loop, by induction on the kinds. What is carried along is that a route still aside has
its kind ahead of the loop or a route of its kind in the table, so that at the end nothing is
lost. -/
theorem resume_each_acts (peer : DeviceId) (kinds : List RouteKind) (st : Actor × List Route)
    (hpeer : ∀ r ∈ st.2, r.peer = peer)
    (hkinds : ∀ r ∈ st.2, r.kind ∈ kinds ∨ ∃ r' ∈ st.1.routes, r'.peer = peer ∧ r'.kind = r.kind) :
    Acts env s₀ event (kinds.map fun _ => peer) (resuming st)
        (resuming (kinds.foldl (resume_kind env peer) st)) ∧
      ∀ r ∈ (kinds.foldl (resume_kind env peer) st).2, r.peer = peer ∧
        ∃ r' ∈ (kinds.foldl (resume_kind env peer) st).1.routes,
          r'.peer = peer ∧ r'.kind = r.kind := by
  induction kinds generalizing st with
  | nil => exact ⟨.refl _, fun r hr => ⟨hpeer r hr, (hkinds r hr).resolve_left List.not_mem_nil⟩⟩
  | cons kind kinds ih =>
      obtain ⟨hpresent, hleft⟩ := resume_kind_present env peer st kind hpeer
      obtain ⟨hacts, hdone⟩ := ih (resume_kind env peer st kind)
        (fun r hr => hpeer r (hleft r hr).1) fun r hr => by
          rcases hkinds r (hleft r hr).1 with hk | hk
          · rcases List.mem_cons.1 hk with hk | hk
            · rw [hk]
              exact .inr ((hleft r hr).2 hk)
            · exact .inl hk
          · exact .inr (hpresent peer r.kind hk)
      refine ⟨?_, hdone⟩
      have := Acts.trans (resume_kind_acts env s₀ event peer st kind hpeer) hacts
      have hcomm : (kinds.map fun _ => peer) ++ [peer] = ((kind :: kinds).map fun _ => peer) := by
        rw [List.map_const', List.map_const', List.length_cons, List.replicate_succ']
      rwa [hcomm] at this

/-- All of resuming, for an event that makes the device a session. -/
theorem resume_routes_acts {peer : DeviceId} {est : Established}
    (he : s₀.installs env event peer est) :
    Acts env s₀ event (((s.resumed_kinds peer).map fun _ => peer) ++ [peer]) s.board
      (s.resume_routes env peer).board := by
  have hpeer : ∀ r ∈ (s.set_aside peer).2, r.peer = peer := fun r hr =>
    (of_decide_eq_true (List.mem_filter.1 hr).2).1
  obtain ⟨hacts, hdone⟩ := resume_each_acts env s₀ event peer (s.resumed_kinds peer)
    (s.set_aside peer) hpeer fun r hr => .inl (s.paused_kind_resumed hr)
  rw [resume_routes_eq]
  have haside : Acts env s₀ event [peer] s.board (resuming (s.set_aside peer)) :=
    .of_act (.set_aside peer est he rfl)
  refine (haside.trans hacts).tail (.discard fun r hr => ?_)
  obtain ⟨hp, r', hr', hp', hk⟩ := hdone r hr
  exact ⟨r', hr', hp'.trans hp.symm, hk⟩

end

/-! ## 4. Requests and answers

A request is accepted at once or on the user's word; `deciding` says which routes it meets then. The
acts of this section name the connection that the message came on, since the peer that sent it is
looked up there. -/

section
variable (env : Env) (s₀ : Actor) (event : Event) (s : Actor)

omit [Crypto] in
@[simp] theorem reject_board (peer : DeviceId) (route : UInt32) (reason : StopReason) :
    (s.reject peer route reason).board = s.board := s.send_to_board _ _

omit [Crypto] in
/-- The routes that make way give their subscriptions back, in order. -/
theorem drop_subscriptions_board (routes : List Route) :
    (routes.foldl (fun s r => s.drop_subscription r.subscription) s).board =
      { s.board with
        encoders := routes.foldl (fun e r => dropped e r.subscription) s.board.encoders } := by
  induction routes generalizing s with
  | nil => rfl
  | cons r routes ih => rw [List.foldl_cons, ih, drop_subscription_board, List.foldl_cons]

/-- A request that was consented to. Its own paused routes make way, and the pipeline of the new
one begins; a route that cannot begin is refused and leaves only the dropped ones gone. -/
theorem accept_route_acts (peer : DeviceId) (req : RouteRequest) (kind : RouteKind)
    (hc : s₀.consents env event peer req kind)
    (hmax : s.settings.max_receivers = s₀.settings.max_receivers)
    (hb : s₀.deciding env event s.routes peer req kind) :
    Acts env s₀ event [] s.board (s.accept_route env peer req kind).board := by
  have hev : ¬ event.settles := by
    rcases hc with ⟨⟨conn_id, rfl, _⟩, _⟩ | ⟨request_id, remember, p, rfl, _⟩ <;> exact id
  unfold accept_route
  dsimp only
  have hsane := s.accepted_profile_sane peer req kind
  generalize s.accepted_profile peer req kind = profile at hsane ⊢
  have hboard : ((List.foldl (fun s r => drop_subscription s r.subscription) s
      (s.routes.filter (replaced_by peer req.route.toUInt8 kind))).set_routes
        (s.routes.filter fun r => !replaced_by peer req.route.toUInt8 kind r)).board =
      { s.board with
        routes := s.board.routes.filter fun r => !replaced_by peer req.route.toUInt8 kind r
        encoders := (s.board.routes.filter (replaced_by peer req.route.toUInt8 kind)).foldl
          (fun e r => dropped e r.subscription) s.board.encoders } := by
    rw [set_routes_board, drop_subscriptions_board]
    rfl
  have hroutes : (List.foldl (fun s r => drop_subscription s r.subscription) s
      (s.routes.filter (replaced_by peer req.route.toUInt8 kind))).routes = s.routes :=
    congrArg Board.routes (drop_subscriptions_board s _)
  rw [hroutes]
  generalize (List.foldl _ s _).set_routes _ = s₁ at hboard ⊢
  have hroutes₁ : s₁.routes =
      s.routes.filter fun r => !replaced_by peer req.route.toUInt8 kind r :=
    congrArg Board.routes hboard
  have hsupplant : Acts env s₀ event [] s.board s₁.board := by
    rw [hboard]
    exact .of_act (.supplant peer req kind hc)
  split
  · exact hsupplant
  · next hany =>
      -- `accept_route` checks the key a second time, after the paused routes are gone: whoever
      -- holds it then is one of those.
      have hfree : ∀ r ∈ s.board.routes, r.key = ⟨peer, req.route.toUInt8⟩ →
          replaced_by peer req.route.toUInt8 kind r = true := by
        intro r hr hkey
        by_contra hrep
        refine hany (List.any_eq_true.2 ⟨r, ?_, decide_eq_true hkey⟩)
        rw [hroutes₁]
        exact List.mem_filter.2 ⟨hr, by simpa using hrep⟩
      rcases s₁.begin_pipelines_begun env
        (admitted peer req.route.toUInt8 kind s₁.settings.output.volume profile
          (env.now + PIPELINE_START_DEADLINE)) with ⟨s₂, r₂, ready, he, hbegun⟩ | ⟨e, he, _⟩
      · unfold admitted at he
        rw [he]
        dsimp only
        rw [hboard] at hbegun
        have htaken : Acts env s₀ event [] s.board (s₂.set_routes (s₂.routes ++ [r₂])).board := by
          rw [set_routes_board, show s₂.routes = _ from hbegun.routes]
          exact .of_act (.take_on peer req kind _ _ _ _ ready hc hmax hb hfree hbegun hsane)
        exact acts_ite (Acts.trans htaken (activate_route_acts env s₀ event _ peer _ hev)) htaken
      · unfold admitted at he
        rw [he]
        dsimp only
        rw [error_notice_board, reject_board, drop_subscription_board]
        exact hsupplant

omit [Crypto] in
theorem ask_board (peer : DeviceId) (req : RouteRequest) (kind : RouteKind) :
    (s.ask env peer req kind).board = s.board := rfl

/-- The checks of a request, one after the other: a kind this device knows, what this device can
do now (the limit of receivers among it), the virtual microphone, and what the user decided
about the device. -/
theorem on_route_request_acts {conn_id : Nat} {peer : DeviceId} (req : RouteRequest)
    (hu : s.unpaired.get conn_id = none) (hp : s.pairing_on conn_id = none)
    (hi : s.conn_index.get conn_id = some peer) :
    Acts env s (.Control conn_id (.RouteRequest req)) [] s.board
      (s.on_route_request env peer req).board := by
  unfold on_route_request
  split
  · rw [reject_board]
    exact .refl _
  · next kind hkind =>
      split
      · dsimp only
        rw [reject_board, apply_ite Actor.board, error_notice_board, ite_self]
        exact .refl _
      · next hcap =>
          dsimp only
          split
          · rw [reject_board]
            exact .refl _
          · have hroom := make_room_acts env s (.Control conn_id (.RouteRequest req)) s
              peer kind
            have haccept (hd : (s.make_room env (s.feed_in_the_way peer kind)).admits_request env
                peer kind) :=
              accept_route_acts env s (.Control conn_id (.RouteRequest req))
                (s.make_room env (s.feed_in_the_way peer kind)) peer req kind
                (.inl ⟨⟨conn_id, rfl, hu, hp, hi, hkind⟩, s.admits_request_of_make_room env hd⟩)
                (s.make_room_max env _) (.inl ⟨conn_id, rfl, hcap, rfl⟩)
            unfold decide_request
            split
            · next hallow => exact hroom.trans (haccept (.inl hallow))
            · rw [reject_board]
              exact hroom
            · next hask =>
                split
                · next hresumes => exact hroom.trans (haccept (.inr ⟨hask, hresumes⟩))
                · rw [ask_board]
                  exact hroom

/-- The user answered. Denying with `remember` stores the denial and stops nothing. -/
theorem respond_request_acts (request_id : Nat) (accept remember : Bool) :
    Acts env s (.Command (.RespondRouteRequest request_id accept remember)) [] s.board
      (s.respond_request env request_id accept remember).board := by
  unfold respond_request
  split
  · exact .refl _
  · next pending hpending =>
      dsimp only
      generalize hs₂ : (if remember = true then
        ({ s with requests := s.requests.erase request_id } : Actor).set_permission env pending.peer
          (permission_for pending.kind) (if accept = true then Policy.Allow else Policy.Deny)
        else { s with requests := s.requests.erase request_id }) = s₂
      have hb : s₂.board = s.board := by
        rw [← hs₂]
        split <;> rfl
      have hset : s₂.settings = s.settings := by
        rw [← hs₂]
        split <;> rfl
      rw [← hb]
      split
      · next haccept =>
          subst haccept
          refine accept_route_acts env s _ s₂ _ _ _
            (.inr ⟨request_id, remember, pending, rfl, hpending, rfl, rfl, rfl⟩)
            (congrArg Settings.max_receivers hset) (.inr ⟨request_id, remember, rfl, ?_⟩)
          exact congrArg Board.routes hb
      · rw [reject_board]
        exact .refl _

/-- The routes that a denied permission covers are stopped; the event must be one that may end
them. -/
theorem enforce_permissions_acts (peer : DeviceId)
    (he : ∀ key : RouteKey, key.peer = peer → s₀.may_end env event key) :
    Acts env s₀ event [] s.board (s.enforce_permissions env peer).board := by
  unfold enforce_permissions
  split
  · exact .refl _
  · refine stop_routes_acts env s₀ event s _ _ _ fun key hkey => he key ?_
    obtain ⟨r, hr, rfl⟩ := List.mem_map.1 hkey
    exact (of_decide_eq_true (List.mem_filter.1 hr).2).1

/-- The peer accepted: the route begins here, or is lost. -/
theorem on_route_accept_acts {conn_id : Nat} {peer : DeviceId} (acc : RouteAccept)
    (hi : s.conn_index.get conn_id = some peer) :
    Acts env s (.Control conn_id (.RouteAccept acc)) [] s.board
      (s.on_route_accept env peer acc).board := by
  unfold on_route_accept
  dsimp only
  split
  · exact .refl _
  · next route rest hrest =>
      rcases (s.set_routes rest).begin_pipelines_begun env { route with
          profile := (acc.profile.map sanitize_profile).or route.profile
          status := .Starting
          deadline := some (env.now + PIPELINE_START_DEADLINE) } with
        ⟨s₂, r₂, ready, he, hbegun⟩ | ⟨e, he, hrefused⟩
      · rw [he]
        dsimp only
        have hp : route.profile.isSome = true →
            ((acc.profile.map sanitize_profile).or route.profile).isSome = true := fun h => by
          rw [Option.isSome_or, h, Bool.or_true]
        -- The profile of the answer is sanitized; without one the profile asked for stays.
        have hfit : route.Fit →
            Route.Fit
              { route with profile := (acc.profile.map sanitize_profile).or route.profile } :=
          fun h p hp => (Option.or_eq_some_iff.1 hp).elim
            (fun hp => by
              obtain ⟨q, -, rfl⟩ := Option.map_eq_some_iff.1 hp
              exact ⟨(sanitize_profile_sane q).usable, fun _ => sanitize_profile_sane q⟩)
            (fun hp => h p hp.2)
        have haccept : Acts env s (.Control conn_id (.RouteAccept acc)) [] s.board
            (s₂.set_routes (s₂.routes ++ [r₂])).board := by
          rw [set_routes_board, show s₂.routes = rest from hbegun.routes]
          exact .of_act
            (.accept conn_id peer acc route r₂ rest _ _ ready rfl rfl hrest hp hbegun hfit)
        exact acts_ite (Acts.trans haccept (activate_route_acts env s _ _ peer _ id)) haccept
      · rw [he]
        dsimp only
        rw [error_notice_board, answer_route_board, send_to_board, drop_subscription_board,
          set_routes_board]
        refine .of_act (.lose conn_id peer acc route rest rfl rfl hi hrest fun hk => ?_)
        refine (hrefused.of_system hk).imp_right fun h => ?_
        have h : (acc.profile.map sanitize_profile).or route.profile = none := h
        exact (Option.or_eq_none_iff.1 h).2

/-- The peer refused: the route goes with its subscription. -/
theorem on_route_reject_acts {conn_id : Nat} {peer : DeviceId} (rej : RouteReject)
    (hi : s.conn_index.get conn_id = some peer) :
    Acts env s (.Control conn_id (.RouteReject rej)) [] s.board
      (s.on_route_reject env peer rej).board := by
  unfold on_route_reject
  dsimp only
  split
  · exact .refl _
  · next route rest hrest =>
      rw [error_notice_board, answer_route_board, drop_subscription_board, set_routes_board]
      exact .of_act (.refuse conn_id peer rej route rest rfl rfl hi hrest)

end

/-! ## 5. Profiles

A profile that is stored was sanitized or came from the settings, so that a route that was fit stays
fit. A peer that cannot change a running stream has the route stopped and asked for again, which is
the one place outside of starting where a device is asked. -/

/-- Whether a stream is stopped and asked for again, because its peer cannot switch it to the
encoding the settings want. -/
def remakes (s : Actor) (r : Route) : Bool :=
  s.restarts r.peer && r.requested_locally && r.profile.any fun current =>
    encoding_changed current (next_profile r.kind r.requested_locally current (s.wanted_profile r))

omit [Crypto] in
/-- A sane profile changes nothing that a listener relies on. -/
theorem with_profile_alike {r : Route} {next : StreamProfile} (h : r.Fit → next.Sane) :
    r.Alike (r.with_profile next) := by
  refine ⟨rfl, rfl, rfl, rfl, rfl, fun _ => rfl, rfl, rfl, rfl, rfl, rfl, ?_, ?_, ?_⟩
  · unfold Route.with_profile
    cases r.sender_controls <;> rfl
  · unfold Route.with_profile
    cases r.receiver_controls <;> rfl
  · intro hr p hp
    obtain rfl := Option.some.inj hp
    exact ⟨(h hr).usable, fun _ => h hr⟩

section
variable (env : Env) (s₀ : Actor) (event : Event) (s : Actor)

/-- A pipeline is opened again, or its route fails. -/
theorem rebuild_route_acts (key : RouteKey)
    (hs : s.sessions.has key.peer = false → s₀.serves event key)
    (hactive : ∀ r, s.routes.find? (has_key key) = some r → r.status = .Active) :
    Acts env s₀ event [] s.board (s.rebuild_route env key).board := by
  unfold rebuild_route
  split
  · exact .refl _
  · next route rest hrest =>
      dsimp only
      have hboard : ((s.set_routes rest).release_pipelines route).1.board =
          { s.board with
            routes := rest, encoders := pruned (dropped s.board.encoders route.subscription) } :=
        release_pipelines_board (s.set_routes rest) route
      rw [release_pipelines_route]
      generalize ((s.set_routes rest).release_pipelines route).1 = s₁ at hboard ⊢
      have hroutes₁ : s₁.routes = rest := congrArg Board.routes hboard
      have hkey : route.key = key := of_decide_eq_true (List.mem_of_remove_first hrest).2
      rcases s₁.begin_pipelines_begun env route.released with
        ⟨s₂, r₂, ready, he, hbegun⟩ | ⟨e, he, hrefused⟩
      · rw [he]
        dsimp only
        rw [hboard] at hbegun
        rw [set_routes_board, show s₂.routes = rest from hbegun.routes]
        exact .of_act (.rebuild key route r₂ rest ready hrest hbegun
          (hactive route (List.find?_eq_of_remove_first hrest)))
      · rw [he]
        dsimp only
        rw [hroutes₁]
        have hfinish (b : Board) (h : b.sessions = s.board.sessions) :
            may_finish env s₀ event b key route := fun hk => by
          rw [h]
          rcases hrefused.of_system hk with h | h
          · rw [hboard] at h
            exact .inr (.inl ⟨h, hs (hkey ▸ h)⟩)
          · exact .inr (.inr (.inl h))
        -- Two routes of one key: the wrong one may be taken out. This is the case that `unplug`
        -- is for; with distinct keys the route that fails is the one just put back.
        by_cases hdup : rest.any (has_key key) = true
        · obtain ⟨q, hq, hqkey⟩ := List.any_eq_true.1 hdup
          have hq : key ∈ rest.map Route.key :=
            List.mem_map.2 ⟨q, hq, of_decide_eq_true hqkey⟩
          have hshared : ¬ (s.routes.map Route.key).Nodup := by
            rw [((List.perm_of_remove_first hrest).map Route.key).nodup_iff, List.map_cons, hkey]
            exact fun h => (List.nodup_cons.1 h).1 hq
          have hshared' : ¬ ((rest ++ [route.released]).map Route.key).Nodup := by
            rw [List.map_append, List.nodup_append]
            intro h
            exact h.2.2 key hq key (List.mem_singleton.2 hkey.symm) rfl
          have hunplug : Acts env s₀ event [] s.board
              (s₁.set_routes (rest ++ [route.released])).board := by
            rw [set_routes_board, hboard]
            exact .of_act (.unplug key route rest hrest hshared)
          refine Acts.trans hunplug (fail_route_acts env s₀ event _ _ _ e fun r _ _ => ?_)
          exact .inr (.inr (.inr hshared'))
        · have hrest' : ∀ r ∈ rest, has_key ⟨route.released.peer, route.released.id⟩ r = false := by
            intro r hr
            rw [← Bool.not_eq_true]
            intro h
            refine hdup (List.any_eq_true.2 ⟨r, hr, decide_eq_true ?_⟩)
            exact (of_decide_eq_true h).trans hkey
          have hlast := List.remove_first_concat hrest' (a := route.released) (decide_eq_true rfl)
          rw [fail_route_board env (s₁.set_routes (rest ++ [route.released])) e hlast]
          have hb : finished (s₁.set_routes (rest ++ [route.released])).board route.released rest =
              finished s.board route rest := by
            rw [set_routes_board, hboard]
            unfold finished
            dsimp only [Route.released]
            rw [show dropped (pruned (dropped s.board.encoders route.subscription)) none =
              pruned (dropped s.board.encoders route.subscription) from rfl, pruned_pruned]
            rfl
          rw [hb]
          exact .of_act (.finish key route rest hrest (hfinish _ rfl))

/-- The profile is stored, and a pipeline with another encoding rebuilt. -/
theorem apply_profile_acts (key : RouteKey) (next : StreamProfile)
    (hnext : ∀ r, s.routes.find? (has_key key) = some r → r.Fit → next.Sane)
    (hs : s.sessions.has key.peer = false → s₀.serves event key) :
    Acts env s₀ event [] s.board (s.apply_profile env key next).board := by
  unfold apply_profile
  split
  · exact .refl _
  · next r hr =>
    dsimp only
    have htend : Acts env s₀ event [] s.board (s.set_routes
        (s.routes.modify_first (has_key key) fun r => r.with_profile next)).board :=
      acts_tend (alike_modify_first fun r hr => with_profile_alike (hnext r hr))
    have htune := Acts.trans htend acts_tune
    have hfound := List.find?_some hr
    have hkey : r.key = key := of_decide_eq_true hfound
    by_cases hactive : r.status = .Active
    · refine acts_ite htune (Acts.trans htune (rebuild_route_acts env s₀ event _ key hs ?_))
      intro q hq
      have hfound : (s.routes.modify_first (has_key key) fun r => r.with_profile next).find?
          (has_key key) = some (r.with_profile next) :=
        List.find?_modify_first hr (decide_eq_true hkey)
      obtain rfl := Option.some_inj.1 (hq.symm.trans hfound)
      exact hactive
    · rw [if_pos (by simp [hactive])]
      exact htune

/-- The route is stopped, and its device asked once if this side had asked for it before. -/
theorem restart_route_acts (key : RouteKey) (he : s₀.may_end env event key) :
    Acts env s₀ event
      (if (s.routes.find? (has_key key)).any Route.requested_locally then [key.peer] else [])
      s.board (s.restart_route env key).board := by
  generalize hl : (if (s.routes.find? (has_key key)).any Route.requested_locally then [key.peer]
    else []) = l
  unfold restart_route
  split
  · exact (Acts.refl _).any
  · next r hr =>
      have hfound := List.find?_some hr
      have hkey : r.key = key := of_decide_eq_true hfound
      have hpeer : r.peer = key.peer := congrArg RouteKey.peer hkey
      dsimp only
      split
      · exact (Acts.refl _).any
      · have hstop := stop_route_by_key_acts env s₀ event s key .Superseded true
          fun _ _ _ => .inl he
        split
        · next hlocal =>
          rw [← hl, hr, Option.any_some, if_pos hlocal, ← hpeer]
          have hstart := hstop.trans (start_route_keeping_acts env s₀ event _ r.peer r.kind false
            .dropped r.quality_fallback (fun h => by cases h))
          exact Acts.trans hstart (.of_act (.tend _ (alike_keep_running _ _ _)))
        · exact hstop.any

theorem reset_fallback_acts (r : Route) :
    Acts env s₀ event [] s.board (s.reset_fallback r).board := by
  unfold reset_fallback
  refine acts_ite (.refl _) (acts_tend (alike_modify_first fun q _ => ?_))
  exact ⟨rfl, rfl, rfl, rfl, rfl, fun h => h, rfl, rfl, rfl, rfl, rfl, rfl, rfl, fun h => h⟩

omit [Crypto] in
/-- Resetting the fallback touches no session. -/
theorem reset_fallback_sessions (r : Route) : (s.reset_fallback r).sessions = s.sessions := by
  unfold reset_fallback
  split <;> rfl

omit [Crypto] in
/-- The route is found again afterwards, with the fields that reconfiguring reads next. -/
theorem reset_fallback_find? (r : Route) {key : RouteKey}
    (hr : s.routes.find? (has_key key) = some r) :
    ∃ q, (s.reset_fallback r).routes.find? (has_key key) = some q ∧
      q.requested_locally = r.requested_locally ∧ q.status = r.status ∧ q.peer = r.peer := by
  unfold reset_fallback
  split
  · exact ⟨r, hr, rfl, rfl, rfl⟩
  · have hfound := List.find?_some hr
    have hkey : r.key = key := of_decide_eq_true hfound
    rw [hkey]
    exact ⟨_, List.find?_modify_first hr (decide_eq_true hkey), rfl, rfl, rfl⟩

/-- A route gets the profile that the settings want for it now; its peer is asked for it again only
if it is remade. -/
theorem reconfigure_route_remakes (key : RouteKey) (he : event.settles)
    (hg : Greets s₀.sessions s.sessions) :
    Acts env s₀ event (if (s.routes.find? (has_key key)).any s.remakes then [key.peer] else [])
      s.board (s.reconfigure_route env key).board := by
  generalize hl : (if (s.routes.find? (has_key key)).any s.remakes then [key.peer] else []) = l
  unfold reconfigure_route
  split
  · exact (Acts.refl _).any
  · next r hr =>
      have hfound := List.find?_some hr
      have hpeer : r.peer = key.peer := congrArg RouteKey.peer (of_decide_eq_true hfound)
      split
      · next session current hs hp =>
          dsimp only
          have hreset := reset_fallback_acts env s₀ event s r
          split
          · exact hreset.any
          · split
            · next hrestart =>
                obtain ⟨hchanged, hold⟩ := Bool.and_eq_true_iff.1 hrestart
                have hold : session.hello.capabilities.has Capabilities.FEATURE_ROUTE_RECONFIGURE =
                    false := by
                  rwa [← Bool.not_eq_true']
                -- The peer cannot be told of a new profile: its stream is stopped and asked for
                -- again, if it was asked for here.
                have hrestarts : s₀.restarts key.peer := by
                  obtain ⟨session₀, hs₀, hh⟩ := hg r.peer session hs
                  exact ⟨session₀, hpeer ▸ hs₀, hh ▸ hold⟩
                have hremakes : s.remakes r = r.requested_locally := by
                  unfold remakes
                  rw [hp, Option.any_some, hchanged, Bool.and_true,
                    decide_eq_true (show s.restarts r.peer from ⟨session, hs, hold⟩), Bool.true_and]
                obtain ⟨q, hq, hlocal, -⟩ := s.reset_fallback_find? r hr
                have h := Acts.trans hreset (restart_route_acts env s₀ event _ key
                  (Actor.may_end_of_restarts he hrestarts))
                rw [hq, Option.any_some, hlocal, List.append_nil] at h
                rwa [← hl, hr, Option.any_some, hremakes]
            · have hhas : (s.reset_fallback r).sessions.has key.peer = true := by
                rw [reset_fallback_sessions]
                exact Table.has_eq_true.2 ⟨session, hpeer ▸ hs⟩
              have happly := Acts.trans hreset (apply_profile_acts env s₀ event _ key
                (next_profile r.kind r.requested_locally current (s.wanted_profile r))
                (fun _ _ _ => next_profile_sane _ _ _ _)
                fun h => nomatch h.symm.trans hhas)
              refine acts_ite (Acts.any ?_) happly.any
              rw [send_to_board]
              exact happly
      · exact (Acts.refl _).any

/-- Reconfiguring a route asks its device at most once, and only one that must be restarted.
`Greets` carries the capabilities of a session over from the state that the event met. -/
theorem reconfigure_route_acts (key : RouteKey) (he : event.settles)
    (hg : Greets s₀.sessions s.sessions) :
    Acts env s₀ event (if s₀.restarts key.peer then [key.peer] else []) s.board
      (s.reconfigure_route env key).board := by
  refine (reconfigure_route_remakes env s₀ event s key he hg).more ?_
  split
  · next hany =>
      obtain ⟨r, hr, hremakes⟩ := (Option.any_eq_true _ _).1 hany
      have hfound := List.find?_some hr
      have hkey : r.key = key := of_decide_eq_true hfound
      unfold remakes at hremakes
      simp only [Bool.and_eq_true, decide_eq_true_eq] at hremakes
      obtain ⟨⟨⟨session, hs, hold⟩, -⟩, -⟩ := hremakes
      obtain ⟨session₀, hs₀, hh⟩ := hg r.peer session hs
      rw [if_pos ⟨session₀, hkey ▸ hs₀, hh ▸ hold⟩]
  · exact List.nil_sublist _

/-- Several routes: the devices asked are among theirs, in order, and all of them must be
restarted. -/
theorem reconfigure_each_acts (keys : List RouteKey) (he : event.settles)
    (hg : Greets s₀.sessions s.sessions) :
    Acts env s₀ event ((keys.reverse.map RouteKey.peer).filter fun p => s₀.restarts p) s.board
      (s.reconfigure_each env keys).board := by
  unfold reconfigure_each
  induction keys generalizing s with
  | nil => exact .refl _
  | cons key keys ih =>
      have hkey := reconfigure_route_acts env s₀ event s key he hg
      have hkeys := ih (s.reconfigure_route env key) (hg.trans (hkey.greets he))
      have h := hkey.trans hkeys
      rwa [List.reverse_cons, List.map_append, List.filter_append, List.map_singleton,
        List.filter_singleton, Bool.cond_decide]

/-- A peer's own update is sanitized before it is stored. -/
theorem on_route_update_acts {conn_id : Nat} {peer : DeviceId} (update : RouteUpdate)
    (hi : s.conn_index.get conn_id = some peer) :
    Acts env s (.Control conn_id (.RouteUpdate update)) [] s.board
      (s.on_route_update env peer update).board := by
  unfold on_route_update
  dsimp only
  split
  · next r received hr _ =>
    split
    · next current hcurrent =>
        refine acts_ite (apply_profile_acts env s _ s _ _ (fun q hq hfit => ?_) fun _ => hi)
          (.refl _)
        obtain rfl := Option.some.inj (hr.symm.trans hq)
        exact updated_profile_sane r.kind (hfit current hcurrent).1 received
    · exact .refl _
  · exact .refl _

omit [Crypto] in
/-- A device that needs no restart is not asked at all. -/
theorem count_restarts_le {l : List DeviceId} {p : DeviceId} {n : Nat}
    (h : s₀.restarts p → l.count p ≤ n) :
    (l.filter fun p => s₀.restarts p).count p ≤ if s₀.restarts p then n else 0 := by
  by_cases hp : s₀.restarts p
  · rw [if_pos hp]
    exact (List.filter_sublist.count_le p).trans (h hp)
  · rw [if_neg hp, Nat.le_zero, List.count_eq_zero]
    exact fun hmem => hp (of_decide_eq_true (List.mem_filter.1 hmem).2)

/-- Each running stream is asked for again at most once. -/
theorem update_quality_fallback_acts (he : event.settles) (hg : Greets s₀.sessions s.sessions) :
    ∃ l, (∀ p, l.count p ≤ if s₀.restarts p then s.board.active p else 0) ∧
      Acts env s₀ event l s.board (s.update_quality_fallback env).board := by
  have hrun : ∀ (changed : List Route) (f : Route → String) (s : Actor),
      Greets s₀.sessions s.sessions →
      Acts env s₀ event ((changed.reverse.map Route.peer).filter fun p => s₀.restarts p) s.board
        (changed.foldl (fun s r => (s.reconfigure_route env r.key).notice (f r)) s).board := by
    intro changed f
    induction changed with
    | nil => exact fun s _ => .refl _
    | cons r changed ih =>
        intro s hg
        have hkey := reconfigure_route_acts env s₀ event s r.key he hg
        have hkeys := ih ((s.reconfigure_route env r.key).notice (f r)) (hg.trans (hkey.greets he))
        rw [notice_board] at hkeys
        have h := hkey.trans hkeys
        rwa [List.reverse_cons, List.map_append, List.filter_append, List.map_singleton,
          List.filter_singleton, Bool.cond_decide]
  unfold update_quality_fallback
  dsimp only
  generalize hchanged : s.routes.filter _ = changed
  refine ⟨(changed.reverse.map Route.peer).filter fun p => s₀.restarts p, fun p => ?_, ?_⟩
  · refine count_restarts_le s₀ fun _ => ?_
    rw [List.count, List.countP_map, List.countP_reverse, ← hchanged, List.countP_filter]
    refine List.countP_mono_left fun r _ hr => ?_
    simp only [Function.comp, Bool.and_eq_true, beq_iff_eq, decide_eq_true_eq] at hr ⊢
    exact ⟨hr.1, hr.2.1.2.1⟩
  · refine Acts.follow (acts_tend (alike_map fun r => ?_)) (hrun changed _ _ hg)
    split
    · exact ⟨rfl, rfl, rfl, rfl, rfl, fun h => h, rfl, rfl, rfl, rfl, rfl, rfl, rfl, fun h => h⟩
    · exact .refl r

end

/-! ## 6. This device's audio

What opened, failed or changed here. A route is found by its key and by the id of the start that it
waits for, so that a late answer from the audio system finds no route. -/

section
variable (env : Env) (s₀ : Actor) (event : Event) (s : Actor)

/-- The microphone mute reaches the groups and the routes in one act. -/
theorem set_mic_muted_acts (muted : Bool) :
    Acts env s (.Command (.SetMicMuted muted)) [] s.board (s.set_mic_muted muted).board :=
  .of_act (.mute_mic muted _ rfl rfl (update_mic_groups_tuned { s with mic_muted := muted }))

omit [Crypto] in
/-- The monitor plays here only, beside the routes. -/
@[simp] theorem set_monitor_board (enabled : Bool) :
    (s.set_monitor env enabled).board = s.board := by
  unfold set_monitor
  dsimp only
  rw [update_keep_alive_board]
  split
  · split
    · rfl
    · rw [error_notice_board]
      rfl
  · rfl

omit [Crypto] in
/-- Routes that wait for a group join it one by one, by induction on who waits. -/
theorem subscribe_waiting_listens (key : EncoderKey) (waiting : List RouteKey)
    (sender : RunningSender) :
    ∃ routes, (subscribe_waiting key s waiting sender).1.board = { s.board with routes } ∧
      Listens key s.board.sessions waiting s.board.routes sender routes
        (subscribe_waiting key s waiting sender).2.1
        (subscribe_waiting key s waiting sender).2.2 := by
  induction waiting generalizing s sender with
  | nil => exact ⟨s.routes, rfl, .nil _ _⟩
  | cons k waiting ih =>
      unfold subscribe_waiting
      dsimp only
      split
      · next r session hr hs =>
          split
          · obtain ⟨routes, hb, hl⟩ := ih _ _
            exact ⟨routes, hb, .join r _ hr rfl hl⟩
          · next hcontrols =>
              obtain ⟨routes, hb, hl⟩ := ih s sender
              refine ⟨routes, hb, .skip (fun q hq _ => ?_) hl⟩
              obtain rfl := Option.some_inj.1 (hr.symm.trans hq)
              exact Option.not_isSome_iff_eq_none.1 hcontrols
      · next hnone =>
          obtain ⟨routes, hb, hl⟩ := ih s sender
          refine ⟨routes, hb, .skip (fun q hq hs => ?_) hl⟩
          obtain ⟨session, hsession⟩ := Table.has_eq_true.1 hs
          exact (hnone q session hq hsession).elim

/-- A group opened: whoever waited for it joins and becomes active. It failed: whoever waited
for it fails with it. -/
theorem on_sender_ready_acts (key : EncoderKey) (start_id : Nat)
    (result : Except EngineError Unit) :
    Acts env s (.SenderReady key start_id result) [] s.board
      (s.on_sender_ready env key start_id result).board := by
  unfold on_sender_ready
  split
  · next current waiting group hslot =>
      dsimp only
      split
      · exact .refl _
      · next hcurrent =>
          obtain rfl : current = start_id := not_not.1 hcurrent
          cases result with
          | ok u =>
              obtain ⟨routes, hb, hl⟩ := subscribe_waiting_listens
                (s.set_encoders (s.encoders.erase key)) key waiting
                { start_id := current, controls := group, subscribers := [],
                  next_subscription := 0 }
              dsimp only
              generalize
                subscribe_waiting key (s.set_encoders (s.encoders.erase key)) waiting _ = st
                at hb hl ⊢
              obtain ⟨s₁, sender, ready⟩ := st
              dsimp only at hb hl ⊢
              have henc : s₁.encoders = s.encoders.erase key := congrArg Board.encoders hb
              have hmic : s₁.mic_muted = s.mic_muted := congrArg Board.mic_muted hb
              -- The new group takes the mute that is set; it is one act with the subscriptions,
              -- since a group never runs untuned.
              have htuned := update_mic_groups_tuned
                (s₁.set_encoders (s₁.encoders.insert key (.Running sender)))
              have hb₂ :
                (s₁.set_encoders (s₁.encoders.insert key (.Running sender))).update_mic_groups.board
                  = { s.board with
                      routes
                      encoders := (s₁.set_encoders
                        (s₁.encoders.insert key
                          (.Running sender))).update_mic_groups.encoders } := by
                have : (s₁.set_encoders
                  (s₁.encoders.insert key (.Running sender))).update_mic_groups.board
                    = { s₁.board with
                        encoders := (s₁.set_encoders
                          (s₁.encoders.insert key
                            (.Running sender))).update_mic_groups.encoders } := rfl
                rw [this, hb]
                rfl
              have hrun : Acts env s (.SenderReady key current (.ok u)) [] s.board
                  (s₁.set_encoders
                    (s₁.encoders.insert key (.Running sender))).update_mic_groups.board := by
                rw [hb₂]
                refine .of_act
                  (.run key current waiting ready group routes sender _ rfl rfl hslot hl ?_)
                have ht : Tuned s₁.mic_muted (s₁.encoders.insert key (.Running sender)) _ := htuned
                rw [hmic, henc] at ht
                rw [henc]
                exact ht
              refine Acts.follow (hrun.follow ?_) acts_prune
              exact acts_foldl (fun t (k : RouteKey) => activate_route_acts env s
                (.SenderReady key current (.ok u)) t k.peer k.id fun h => h) ready _
          | error e =>
              have hgive : Acts env s (.SenderReady key current (.error e)) [] s.board
                  (s.set_encoders (s.encoders.erase key)).board :=
                .of_act (.give_up key current e waiting group rfl rfl hslot)
              -- By induction on those who waited. A route that is failed is gone, so the table
              -- only shrinks on the way.
              have hfail : ∀ (waiting : List RouteKey) (t : Actor), (∀ r ∈ t.routes, r ∈ s.routes) →
                  Acts env s (.SenderReady key current (.error e)) [] t.board
                    (waiting.foldl
                      (fun s k =>
                        if s.routes.any fun r => has_key k r && r.encoder = some key then
                          s.fail_route env k.peer k.id e
                        else s) t).board := by
                intro waiting
                induction waiting with
                | nil => exact fun t _ => .refl _
                | cons k waiting ih =>
                    intro t ht
                    rw [List.foldl_cons]
                    by_cases hany :
                      (t.routes.any fun r => has_key k r && r.encoder = some key) = true
                    · rw [if_pos hany]
                      obtain ⟨r, hr, hrk⟩ := List.any_eq_true.1 hany
                      have hrk := Bool.and_eq_true_iff.1 hrk
                      have hmay : s.may_end env (.SenderReady key current (.error e)) k :=
                        ⟨r, ht r hr, of_decide_eq_true hrk.1, of_decide_eq_true hrk.2⟩
                      refine Acts.follow (fail_route_acts env s _ t k.peer k.id e
                        fun _ _ _ => .inl hmay) (ih _ fun r hr => ht r ?_)
                      rw [fail_route_routes] at hr
                      exact List.eraseP_sublist.subset hr
                    · rw [if_neg hany]
                      exact ih t ht
              exact hgive.follow (hfail waiting _ fun r hr => hr)
  · exact .refl _

/-- A playback opened for the start that the route waits for, or failed. -/
theorem on_receiver_ready_acts (peer : DeviceId) (id : UInt8) (start_id : Nat)
    (result : Except EngineError Unit) :
    Acts env s (.ReceiverReady peer id start_id result) [] s.board
      (s.on_receiver_ready env peer id start_id result).board := by
  unfold on_receiver_ready
  dsimp only
  refine acts_ite ?_ (.refl _)
  cases result with
  | ok u =>
      dsimp only
      cases hs : s.sessions.get peer with
      | none =>
          refine .of_act (.receive_late peer id start_id rfl rfl ?_)
          unfold Table.has
          rw [show s.board.sessions.get peer = none from hs]
          rfl
      | some session =>
          have hreceive : Acts env s (.ReceiverReady peer id start_id (.ok u)) [] s.board
              ((s.emit (.AddSink session.conn_id id)).set_routes (s.routes.modify_first
                (fun r => has_key ⟨peer, id⟩ r && r.start_id = start_id)
                fun r => { r with start_id := 0, receiver := some start_id })).board := by
            rw [set_routes_board, emit_board _ rfl rfl rfl]
            exact .of_act (.receive peer id start_id rfl rfl (Table.has_eq_true.2 ⟨session, hs⟩))
          exact hreceive.follow (activate_route_acts env s _ _ peer id fun h => h)
  | error e => exact fail_route_acts env s _ s peer id e fun _ _ _ => .inl rfl

/-- A route reopened in its place. With keys that are unique it has to be an active one. -/
theorem reopen_route_audio_acts (key : RouteKey) (he : event.is_audio)
    (hs : s₀.may_end env event key ∨ s₀.serves event key)
    (hactive : ∀ r, s.routes.find? (has_key key) = some r →
      (s₀.routes.map Route.key).Nodup → r.status = .Active) :
    Acts env s₀ event [] s.board (s.reopen_route_audio env key).1.board := by
  unfold reopen_route_audio
  split
  · exact .refl _
  · next route hroute =>
      dsimp only
      have hfound := List.find?_some hroute
      have hkey : route.key = key := of_decide_eq_true hfound
      have hboard : ((s.close_capture route).release_pipelines route).1.board =
          { s.board with
            encoders :=
              pruned (dropped (closed s.board.encoders route.encoder) route.subscription) } := by
        rw [release_pipelines_board, close_capture_board]
      rw [release_pipelines_route]
      generalize ((s.close_capture route).release_pipelines route).1 = s₁ at hboard ⊢
      have hroutes₁ : s₁.routes = s.routes := congrArg Board.routes hboard
      rcases s₁.begin_pipelines_begun env route.released with
        ⟨s₂, r₂, ready, hb, hbegun⟩ | ⟨e, hb, hrefused⟩
      · rw [hb]
        dsimp only
        rw [hboard] at hbegun
        rw [set_routes_board, show s₂.routes = s.routes from hbegun.routes]
        exact .of_act (.reopen key route r₂ ready he hroute hbegun (hactive route hroute))
      · rw [hb]
        dsimp only
        -- The route cannot begin again: it is stopped, and on the board that is closing its
        -- capture and then an ordinary end.
        cases hrest : s.routes.remove_first (has_key key) with
        | none =>
            have := List.remove_first_eq_none.1 hrest route (List.mem_of_find?_eq_some hroute)
            exact nomatch this.symm.trans (decide_eq_true hkey)
        | some p =>
            obtain ⟨q, rest⟩ := p
            obtain rfl : route = q := Option.some_inj.1
              (hroute.symm.trans (List.find?_eq_of_remove_first hrest))
            have hmodified : (error_notice env (s₁.set_routes (s₁.routes.modify_first (has_key key)
                fun _ => route.released)) e).routes.remove_first (has_key key) =
                some (route.released, rest) := by
              rw [show (error_notice env (s₁.set_routes (s₁.routes.modify_first (has_key key)
                fun _ => route.released)) e).routes = s.routes.modify_first (has_key key)
                  fun _ => route.released from ?_]
              · exact List.remove_first_modify_first hrest (decide_eq_true hkey)
              · refine (congrArg Board.routes (error_notice_board env _ e)).trans ?_
                exact congrArg (List.modify_first _ _) hroutes₁
            rw [stop_route_by_key_board env _ .AudioDeviceLost true hmodified, error_notice_board,
              set_routes_board, hboard]
            have hb : finished { s.board with
                routes := s₁.routes.modify_first (has_key key) fun _ => route.released
                encoders := pruned (dropped (closed s.board.encoders route.encoder)
                  route.subscription) } route.released rest =
                finished
                  { s.board with encoders := closed s.board.encoders route.encoder }
                  route rest := by
              unfold finished
              dsimp only [Route.released, dropped]
              rw [pruned_pruned]
              rfl
            rw [hb]
            refine (Acts.of_act (.close route.encoder he)).follow (.of_act
              (.finish key route rest hrest fun hk => ?_))
            refine hs.imp_right fun hs => ?_
            rcases hrefused.of_system hk with h | h
            · rw [hboard] at h
              exact .inl ⟨h, hs⟩
            · exact .inr (.inl h)

/-- The same with its guard: an active route on the default device, not reopened a moment ago. -/
theorem reopen_on_default_device_acts (key : RouteKey) (he : event.is_audio)
    (hs : s₀.may_end env event key) :
    Acts env s₀ event [] s.board (s.reopen_on_default_device env key).1.board := by
  unfold reopen_on_default_device
  split
  · exact .refl _
  · next r hr =>
      dsimp only
      split
      · exact .refl _
      · next hrun =>
          have hactive : r.status = .Active := not_not.1 fun h => hrun (.inl h)
          have hreopen (s' : Actor) (hb : s'.board = s.board) :
              Acts env s₀ event [] s.board (s'.reopen_route_audio env key).1.board := by
            rw [← hb]
            refine reopen_route_audio_acts env s₀ event s' key he (.inl hs) fun q hq _ => ?_
            rw [show s'.routes = s.routes from congrArg Board.routes hb] at hq
            rw [Option.some_inj.1 (hq.symm.trans hr)]
            exact hactive
          split
          · exact .refl _
          · exact hreopen _ rfl

/-- Playback failed: the route is reopened or stopped. -/
theorem on_audio_failed_acts (peer : DeviceId) (id : UInt8) (error : EngineError) :
    Acts env s₀ (.AudioFailed peer id error) [] s.board
      (s.on_audio_failed env ⟨peer, id⟩ error).board := by
  have hreopen := reopen_on_default_device_acts env s₀ (.AudioFailed peer id error) s ⟨peer, id⟩
    trivial rfl
  unfold on_audio_failed
  dsimp only
  refine acts_ite hreopen (hreopen.follow ?_)
  rw [← error_notice_board env _ error]
  exact stop_route_by_key_acts env s₀ _ _ _ _ _ fun _ _ _ => .inl rfl

/-- One route of a group that failed. -/
theorem encoder_failed_for_acts (key : EncoderKey) (error e : EngineError) (notified : Bool)
    (k : RouteKey) (he : s₀.may_end env (.EncoderFailed key e) k) :
    Acts env s₀ (.EncoderFailed key e) [] s.board
      (encoder_failed_for env error (s, notified) k).1.board := by
  have hreopen := reopen_on_default_device_acts env s₀ (.EncoderFailed key e) s k trivial he
  unfold encoder_failed_for
  dsimp only
  rw [apply_ite Prod.fst]
  refine acts_ite hreopen (hreopen.follow ?_)
  dsimp only
  split
  · exact stop_route_by_key_acts env s₀ _ _ _ _ _ fun _ _ _ => .inl he
  · rw [← error_notice_board env _ error]
    exact stop_route_by_key_acts env s₀ _ _ _ _ _ fun _ _ _ => .inl he

/-- All routes of a group that failed, by induction over them; each stays one that the event may
end. -/
theorem on_encoder_failed_acts (key : EncoderKey) (error : EngineError) :
    Acts env s (.EncoderFailed key error) [] s.board (s.on_encoder_failed env key error).board := by
  have hclose : Acts env s (.EncoderFailed key error) [] s.board (s.close_encoder key).board := by
    rw [close_encoder_board]
    exact .of_act (.close (some key) trivial)
  have hrun : ∀ (affected : List RouteKey) (st : Actor × Bool),
      (∀ k ∈ affected, s.may_end env (.EncoderFailed key error) k) →
      Acts env s (.EncoderFailed key error) [] st.1.board
        (affected.foldl (encoder_failed_for env error) st).1.board := by
    intro affected
    induction affected with
    | nil => exact fun st _ => .refl _
    | cons k affected ih =>
        intro st h
        refine Acts.follow (encoder_failed_for_acts env s st.1 key error error st.2 k
          (h k List.mem_cons_self)) (ih _ fun k hk => h k (List.mem_cons_of_mem _ hk))
  unfold on_encoder_failed
  dsimp only
  refine hclose.follow (hrun _ (s.close_encoder key, false) fun k hk => ?_)
  obtain ⟨r, hr, rfl⟩ := List.mem_map.1 hk
  have hr := List.mem_filter.1 hr
  have hroutes : (s.close_encoder key).routes = s.routes :=
    congrArg Board.routes (close_encoder_board s key)
  exact ⟨r, hroutes ▸ hr.1, rfl, of_decide_eq_true hr.2⟩

omit [Crypto] in
/-- Stopping a route adds none. -/
theorem stop_route_by_key_subset (key : RouteKey) (reason : StopReason) (notify_peer : Bool) :
    ∀ r ∈ (s.stop_route_by_key env key reason notify_peer).routes, r ∈ s.routes := by
  intro r hr
  cases h : s.routes.remove_first (has_key key) with
  | none =>
      unfold stop_route_by_key at hr
      rwa [h] at hr
  | some p =>
      have hroutes : (s.stop_route_by_key env key reason notify_peer).routes = p.2 :=
        congrArg Board.routes (stop_route_by_key_board env s reason notify_peer h)
      rw [hroutes] at hr
      exact (List.sublist_of_remove_first h).subset hr

omit [Crypto] in
/-- Reopening the audio of a route leaves every route what it is, or ends it. -/
theorem reopen_route_audio_same (key : RouteKey) :
    ∀ r ∈ (s.reopen_route_audio env key).1.routes, ∃ r₀ ∈ s.routes, r₀.Same r := by
  have hself : ∀ r ∈ s.routes, ∃ r₀ ∈ s.routes, r₀.Same r := fun r hr => ⟨r, hr, .refl r⟩
  unfold reopen_route_audio
  split
  · exact hself
  · next route hroute =>
      dsimp only
      have hboard := release_pipelines_board (s.close_capture route) route
      rw [close_capture_board] at hboard
      rw [release_pipelines_route]
      generalize ((s.close_capture route).release_pipelines route).1 = s₁ at hboard ⊢
      have hroutes : s₁.routes = s.routes := congrArg Board.routes hboard
      have hmodified (q : Route) (hq : route.Same q) :
          ∀ r ∈ s.routes.modify_first (has_key key) fun _ => q, ∃ r₀ ∈ s.routes, r₀.Same r := by
        intro r hr
        rcases List.mem_modify_first hr with hr | ⟨r₀, hr₀, rfl⟩
        · exact hself r hr
        · obtain rfl := Option.some_inj.1 (hr₀.symm.trans hroute)
          exact ⟨r₀, List.mem_of_find?_eq_some hr₀, hq⟩
      have hreleased : route.Same route.released := ⟨rfl, rfl, rfl, rfl, rfl⟩
      rcases s₁.begin_pipelines_begun env route.released with
        ⟨s₂, r₂, ready, hb, hbegun⟩ | ⟨e, hb, _⟩
      · rw [hb]
        dsimp only
        have hsame : route.released.Same r₂ := by
          have := s₁.begin_pipelines_same env route.released
          rwa [hb] at this
        rw [set_routes_routes, show s₂.routes = s₁.routes from hbegun.routes, hroutes]
        exact hmodified r₂ (hreleased.trans hsame)
      · rw [hb]
        dsimp only
        intro r hr
        have hr := stop_route_by_key_subset env _ key _ _ r hr
        rw [show (error_notice env (s₁.set_routes (s₁.routes.modify_first (has_key key)
          fun _ => route.released)) e).routes = s.routes.modify_first (has_key key)
            fun _ => route.released from ?_] at hr
        · exact hmodified _ hreleased r hr
        · refine (congrArg Board.routes (error_notice_board env _ e)).trans ?_
          exact congrArg (List.modify_first _ _) hroutes

/-- The active routes on a device that changed, by induction over them; each is one that the
event serves. -/
theorem on_audio_devices_changed_acts (input_changed output_changed : Bool) :
    Acts env s (.Command (.AudioDevicesChanged input_changed output_changed)) [] s.board
      (s.on_audio_devices_changed env input_changed output_changed).board := by
  have hmoved : ∀ (moved : List RouteKey) (t : Actor),
      (∀ key ∈ moved, ∃ r ∈ s.routes, r.key = key ∧ r.status = .Active) →
      (∀ r ∈ t.routes, ∃ r₀ ∈ s.routes, r₀.Same r) →
      Acts env s (.Command (.AudioDevicesChanged input_changed output_changed)) [] t.board
        (moved.foldl (fun s k => (s.reopen_route_audio env k).1) t).board := by
    intro moved
    induction moved with
    | nil => exact fun t _ _ => .refl _
    | cons key moved ih =>
        intro t h ht
        have hkey := h key List.mem_cons_self
        have hreopen := reopen_route_audio_acts env s
          (.Command (.AudioDevicesChanged input_changed output_changed)) t key trivial (.inr hkey)
          fun r hr hnodup => by
            -- with distinct keys it is the route that was active before the event
            obtain ⟨r₁, hr₁, hkey₁, hactive⟩ := hkey
            obtain ⟨r₀, hr₀, hsame⟩ := ht r (List.mem_of_find?_eq_some hr)
            have hfound := List.find?_some hr
            have hkey₀ : r₀.key = r₁.key := by
              rw [hkey₁, ← of_decide_eq_true (p := r.key = key) hfound]
              unfold Route.key
              rw [hsame.peer, hsame.id]
            obtain rfl := List.inj_on_of_nodup_map hnodup hr₀ hr₁ hkey₀
            rw [hsame.status, hactive]
        refine hreopen.follow (ih _ (fun k hk => h k (List.mem_cons_of_mem _ hk)) fun r hr => ?_)
        obtain ⟨r₁, hr₁, hsame₁⟩ := reopen_route_audio_same env t key r hr
        obtain ⟨r₀, hr₀, hsame₀⟩ := ht r₁ hr₁
        exact ⟨r₀, hr₀, hsame₀.trans hsame₁⟩
  have hself : ∀ r ∈ s.routes, ∃ r₀ ∈ s.routes, r₀.Same r := fun r hr => ⟨r, hr, .refl r⟩
  have hactive : ∀ key ∈ (s.routes.filter fun r => r.status = .Active ∧
      follows_default r.kind s.settings input_changed output_changed).map Route.key,
      ∃ r ∈ s.routes, r.key = key ∧ r.status = .Active := by
    intro key hkey
    obtain ⟨r, hr, rfl⟩ := List.mem_map.1 hkey
    have hr := List.mem_filter.1 hr
    exact ⟨r, hr.1, rfl, (of_decide_eq_true hr.2).1⟩
  unfold on_audio_devices_changed
  dsimp only
  refine acts_ite (.refl _) (acts_ite ?_ (hmoved _ s hactive hself))
  rw [set_monitor_board]
  exact hmoved _ s hactive hself

omit [Crypto] in
@[simp] theorem remember_mic_peer_board : (s.remember_mic_peer env).board = s.board := by
  unfold remember_mic_peer
  split
  · rfl
  · dsimp only
    split
    · rfl
    · rw [save_settings_board]
      rfl

/-- An app has the virtual microphone open, nothing has been done about it yet, and the device has a
microphone to offer. -/
def mic_due (env : Env) (s : Actor) (peer : DeviceId) : Bool :=
  s.settings.desktop.auto_start_mic && env.virtual_mic_in_use && !s.local_audio.handled_use &&
    !(s.local_audio.last_poll.any fun t => env.now - t < IN_USE_POLL) &&
    (s.sessions.get peer).any fun session =>
      session.hello.capabilities.has Capabilities.SOURCE_MICROPHONE

omit [Crypto] in
/-- A candidate offers a microphone. -/
theorem offers_of_candidate {peer : DeviceId} (h : peer ∈ s.mic_candidates) :
    (s.sessions.get peer).any (fun session =>
      session.hello.capabilities.has Capabilities.SOURCE_MICROPHONE) = true := by
  unfold mic_candidates at h
  obtain ⟨⟨id, session⟩, hmem, rfl⟩ := List.mem_map.1 h
  obtain ⟨hpair, hcan⟩ := List.mem_filter.1 hmem
  rw [Table.get_eq_some_iff.2 hpair, Option.any_some]
  exact (of_decide_eq_true hcan).2

omit [Crypto] in
/-- The device that is chosen is a candidate. -/
theorem auto_mic_peer_candidate {peer : DeviceId} (h : s.auto_mic_peer = some peer) :
    peer ∈ s.mic_candidates := by
  unfold auto_mic_peer at h
  dsimp only at h
  split at h
  · next id hid =>
      obtain rfl := Option.some_inj.1 h
      exact of_decide_eq_true (Option.filter_eq_some_iff.1 hid).2
  · split at h
    · next hone =>
        obtain rfl := Option.some_inj.1 h
        rw [hone]
        exact List.mem_singleton_self _
    · cases h

/-- The microphone that a program asked for: one candidate is asked at most. -/
theorem auto_start_mic_acts :
    ∃ l, (l = [] ∨ ∃ peer ∈ s.mic_candidates, l = [peer]) ∧
      Acts env s₀ event l s.board (s.auto_start_mic env).1.board := by
  unfold auto_start_mic
  split
  · exact ⟨[], .inl rfl, .refl _⟩
  · split
    · exact ⟨[], .inl rfl, .refl _⟩
    · next peer hpeer =>
        refine ⟨[peer], .inr ⟨peer, s.auto_mic_peer_candidate hpeer, rfl⟩, ?_⟩
        rw [notice_board]
        exact start_route_keeping_acts env s₀ event s peer .ReceiveMicToVirtualMic false .dropped
          .default fun h => nomatch h

/-- The automatic microphone asks one device for a route at most, and stops only what feeds the
virtual microphone. -/
theorem check_virtual_mic_use_acts :
    ∃ l, (l = [] ∨ ∃ peer, s.mic_due env peer = true ∧ l = [peer]) ∧
      Acts env s₀ event l s.board (s.check_virtual_mic_use env).board := by
  have hdue (peer : DeviceId) :
      (s.remember_mic_peer env).mic_due env peer = s.mic_due env peer := by
    have hbasis := s.remember_mic_peer_basis env
    have hauto : (s.remember_mic_peer env).settings.desktop.auto_start_mic =
        s.settings.desktop.auto_start_mic :=
      congrArg (fun b : Basis => b.settings.desktop.auto_start_mic) hbasis
    have hlocal : (s.remember_mic_peer env).local_audio = s.local_audio :=
      congrArg Basis.local_audio hbasis
    have hsessions : (s.remember_mic_peer env).sessions = s.sessions :=
      congrArg Board.sessions (s.remember_mic_peer_board env)
    unfold mic_due
    rw [hauto, hlocal, hsessions]
  simp only [← hdue]
  unfold check_virtual_mic_use
  dsimp only
  rw [← s.remember_mic_peer_board env]
  generalize s.remember_mic_peer env = s
  have hkeep (s' : Actor) (hb : s'.board = s.board) :
      ∃ l, (l = [] ∨ ∃ peer, s.mic_due env peer = true ∧ l = [peer]) ∧
        Acts env s₀ event l s.board s'.board := ⟨[], .inl rfl, .of_eq hb⟩
  -- Only the route that was started automatically is stopped, and only while it still is the
  -- feed.
  have hstop (la : LocalAudio) (key : RouteKey)
      (hkey : (if s.local_audio.auto_route = (s.routes.find? fun r =>
          r.kind = .ReceiveMicToVirtualMic ∧ r.status ≠ .Stopped).map Route.key then
        s.local_audio.auto_route else none) = some key) :
      ∃ l, (l = [] ∨ ∃ peer, s.mic_due env peer = true ∧ l = [peer]) ∧ Acts env s₀ event l s.board
        (({ s with local_audio := la } : Actor).stop_route_by_key env key
          .UserStopped true).board := by
    refine ⟨[], .inl rfl,
      stop_feed_acts env s₀ event { s with local_audio := la } .UserStopped true ?_⟩
    split at hkey
    · next hroute =>
        obtain ⟨r, hr, rfl⟩ := Option.map_eq_some_iff.1 (hroute.symm.trans hkey)
        have hfound := List.find?_some hr
        exact ⟨r, List.mem_of_find?_eq_some hr, rfl, (of_decide_eq_true hfound).1⟩
    · cases hkey
  split
  · exact hkeep _ rfl
  · next hauto =>
      split
      · exact hkeep _ rfl
      · split
        · exact hkeep _ rfl
        · next hpoll =>
            split
            · next huse =>
                split
                · exact hkeep _ rfl
                · next hhandled =>
                    split
                    · exact hkeep _ rfl
                    · -- the microphone of a device that offers one is asked for
                      generalize hla : (LocalAudio.mk _ _ _ _ _ : LocalAudio) = la
                      obtain ⟨l, hl, hacts⟩ := auto_start_mic_acts env s₀ event
                        { s with local_audio := la }
                      refine ⟨l, hl.imp_right fun ⟨peer, hpeer, he⟩ => ⟨peer, ?_, he⟩, hacts⟩
                      have hoffers := offers_of_candidate { s with local_audio := la } hpeer
                      unfold mic_due
                      rw [hoffers, huse, Bool.eq_false_iff.2 hpoll, Bool.eq_false_iff.2 hhandled]
                      simpa using hauto
            · split
              · exact hkeep _ rfl
              · next key hkey =>
                  split
                  · exact hstop _ key hkey
                  · exact hkeep _ rfl

/-- Noise suppression that switches itself off or on again tunes the microphone groups. -/
theorem check_capture_health_acts :
    Acts env s₀ event [] s.board (s.check_capture_health env).board := by
  unfold check_capture_health
  dsimp only
  generalize hs' : ({ s with denoise := _ } : Actor) = s'
  have hb : s'.board = s.board := by rw [← hs']; rfl
  rw [← hb]
  split
  · exact .refl _
  · rw [notice_board]
    exact acts_tune
  · exact acts_tune

end

end Actor

end SoundPush
