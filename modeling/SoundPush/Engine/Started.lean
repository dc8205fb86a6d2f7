/-
`Started` -- what a success of `StartRoute` says about the route.

The success is sent from two places. `activate_route` sends it when the pipeline is
ready, and leaves the route active; whatever the event, nothing comes after it that
takes the route away again (`handle_told`). And a command that finds a route of its
kind that is not stopped is answered at once. That route need not run: one that a
lost session has paused is found too, and its caller is told that it started.

The first half is about silence: `Deed.started_same` says that no deed but the
readiness of a pipeline tells anybody of a start. So a handler is either quiet as
far as its deeds go, or it prepares a state quietly and then activates one route
(`told_of_prepared`), after which that route is active. The second half is the
command itself, which answers at once for what it finds (`start_route_found`). That
a route it finds is one of the phases that count as running, or paused, needs that
no route is ever set to waiting for approval (`Settled`).
-/
import SoundPush.Engine.Answers

set_option autoImplicit false

namespace SoundPush

/-! ## 1. Successes -/

/-- The route that an effect reports as started. -/
def Output.reports_started : Output → Option RouteKey
  | .Answer _ (.ok (.Started key)) => some key
  | _ => none

/-- The routes that callers are told are started, in order. -/
def told_started (out : List Output) : List RouteKey := out.filterMap Output.reports_started

theorem started_append (a b : List Output) :
    told_started (a ++ b) = told_started a ++ told_started b := List.filterMap_append

theorem started_booked (out : List Output) :
    told_started (out.filter Output.booked) = told_started out := by
  unfold told_started
  rw [List.filterMap_filter]
  refine List.filterMap_congr fun o _ => ?_
  cases o with
  | Answer caller result => rfl
  | _ => exact ite_self _

theorem Reply.started_error (reply : Reply) (e : EngineError) :
    told_started (reply.answered (.error e)) = [] := by
  match reply with
  | .caller _ | .dropped => rfl

theorem Route.started_error (r : Route) (e : EngineError) :
    told_started (r.answered (.error e)) = [] := by
  unfold Route.answered
  split
  · exact Reply.started_error _ e
  · rfl

namespace Books

theorem started_tell (b : Books) (out : List Output) :
    told_started (b.tell out).out = told_started b.out ++ told_started out :=
  started_append b.out out

theorem started_kept (b : Books) : told_started b.kept.out = told_started b.out := by
  unfold kept
  by_cases h : b.wakes ≠ b.keep_alive
  · rw [if_pos h, started_tell]
    exact List.append_nil _
  · rw [if_neg h]

theorem started_unplugs (b : Books) (r : Route) : told_started (b.unplugs r) = [] := by
  unfold unplugs
  split <;> rfl

end Books

theorem CutsOff.started_nil {peer : DeviceId} {routes routes' : List Route} {out : List Output}
    (h : CutsOff peer routes routes' out) : told_started out = [] := by
  induction h with
  | nil => rfl
  | skip _ _ ih => exact ih
  | @cut r _ _ _ _ _ _ _ ih =>
      rw [started_append, ih, List.append_nil]
      unfold Route.cut_off
      split
      · rfl
      · rfl
      · exact r.started_error .Unreachable

theorem TestDeed.started_same {s₀ : Actor} {event : Event} {l : List Nat} {b b' : Books}
    (h : TestDeed s₀ event l b b') : told_started b'.out = told_started b.out := by
  cases h with
  | start | measure =>
      rw [Books.started_tell]
      exact List.append_nil _
  | join | forget => rfl
  | finish peer test result status =>
      rw [Books.started_tell, started_append]
      have hreplies : told_started (test.replies.flatMap fun r : Reply =>
          r.answered (result.map Answer.Report)) = [] := by
        induction test.replies with
        | nil => rfl
        | cons reply replies ih =>
            rw [List.flatMap_cons, started_append, ih, List.append_nil]
            match reply, result with
            | .caller _, .ok _ | .caller _, .error _ | .dropped, _ => rfl
      have hsink : told_started ((b.conn peer).toList.map fun conn_id =>
          Output.ProbeSink conn_id false) = [] := by
        match b.conn peer with
        | some _ | none => rfl
      rw [hreplies, hsink]
      exact List.append_nil _

section
variable [Crypto] {env : Env} {s₀ : Actor} {event : Event} {l : List Nat} {b b' : Books}

/-- Nobody is told of a start at other times than a pipeline's readiness and a `StartRoute`. -/
theorem Deed.started_same (h : Deed env s₀ event l b b') (hready : event.readies = false)
    (hstart : event.starts = false) : told_started b'.out = told_started b.out := by
  cases h with
  | activate key r he => exact absurd (he.symm.trans hready) nofun
  | finish key route rest e h =>
      rw [Books.started_kept, Books.started_tell, started_append, b.started_unplugs,
        route.started_error]
      exact List.append_nil _
  | refuse _ _ _ route | lose _ route =>
      rw [Books.started_tell, route.started_error]
      exact List.append_nil _
  | rebuild _ route | reopen _ route =>
      rw [Books.started_tell, b.started_unplugs]
      exact List.append_nil _
  | receive =>
      rw [Books.started_tell]
      exact List.append_nil _
  | give_up _ r =>
      rw [Books.started_tell, r.started_error]
      exact List.append_nil _
  | pause peer routes out _ h =>
      rw [Books.started_kept, Books.started_tell, h.started_nil]
      exact List.append_nil _
  | answer reply result _ hs =>
      rw [Books.started_tell]
      have hnone : told_started (reply.answered result) = [] := by
        match reply, result with
        | .caller caller, .ok (.Started key) =>
            exact absurd ((hs caller key rfl rfl).symm.trans hstart) nofun
        | .caller _, .ok .Done | .caller _, .ok (.Report _) | .caller _, .error _
        | .dropped, _ => rfl
      rw [hnone]
      exact List.append_nil _
  | test h => exact h.started_same
  | watch => exact Books.started_kept _
  | _ => rfl

theorem Deeds.started_same (h : Deeds env s₀ event l b b') (hready : event.readies = false)
    (hstart : event.starts = false) : told_started b'.out = told_started b.out := by
  induction h with
  | refl => rfl
  | tail _ hdeed ih => exact (hdeed.started_same hready hstart).trans ih

end

/-! ## 2. A route that is there -/

/-- A caller is told of its own route alone. -/
theorem Route.mem_told_started {r : Route} {key : RouteKey} (h : key ∈ told_started r.started) :
    key = r.key := by
  unfold Route.started Route.answered at h
  by_cases hlocal : r.requested_locally = true
  · rw [if_pos hlocal] at h
    match hreply : r.reply with
    | none =>
        rw [hreply] at h
        exact absurd h List.not_mem_nil
    | some .dropped =>
        rw [hreply] at h
        exact absurd h List.not_mem_nil
    | some (.caller caller) =>
        rw [hreply] at h
        exact List.mem_singleton.1 h
  · rw [if_neg hlocal] at h
    exact absurd h List.not_mem_nil

namespace Books

/-- The routes that callers are told are started are active. -/
def Told (b : Books) : Prop :=
  ∀ key ∈ told_started b.out, ∃ r ∈ b.routes, r.key = key ∧ r.status = .Active

theorem Told.of_nil {b : Books} (h : told_started b.out = []) : b.Told := by
  intro key hkey
  rw [h] at hkey
  exact absurd hkey List.not_mem_nil

theorem Told.kept {b : Books} (h : b.Told) : b.kept.Told := by
  unfold Told
  rw [b.started_kept, b.kept_routes]
  exact h

theorem Told.activate {b : Books} (h : b.Told) {key : RouteKey} {r : Route}
    (hr : b.routes.find? (has_key key) = some r) (hs : r.status = .Starting) :
    ({ b with
      routes := b.routes.modify_first (has_key key) Route.activated }.tell r.started).Told := by
  intro k hk
  rw [started_tell] at hk
  rcases List.mem_append.1 hk with hk | hk
  · -- an active route is not the one that was starting
    obtain ⟨r', hmem, hkey, hactive⟩ := h k hk
    rcases List.mem_modify_first_of_mem hmem with hmem | hfound
    · exact ⟨r', hmem, hkey, hactive⟩
    · rw [Option.some_inj.1 (hfound.symm.trans hr), hs] at hactive
      cases hactive
  · have hfound := List.find?_some hr
    have hstarted := List.find?_modify_first (f := Route.activated) hr hfound
    rw [Route.mem_told_started hk]
    exact ⟨r.activated, List.mem_of_find?_eq_some hstarted, rfl, rfl⟩

end Books

namespace Actor

variable (env : Env) (s : Actor)

theorem activate_route_told (peer : DeviceId) (id : UInt8) (h : s.books.Told) :
    (s.activate_route env peer id).books.Told := by
  rcases s.activate_route_books env peer id with hsame | ⟨r, hr, hs, hbooks⟩
  · rw [hsame]
    exact h
  · rw [hbooks]
    exact (h.activate hr hs).kept

theorem activate_routes_told (keys : List RouteKey) (h : s.books.Told) :
    (keys.foldl (fun s k => s.activate_route env k.peer k.id) s).books.Told := by
  induction keys generalizing s with
  | nil => exact h
  | cons k keys ih => exact ih _ (s.activate_route_told env k.peer k.id h)

section
variable [Crypto] {s}

/-- What tells nobody, as far as any event goes, and then activates a route. -/
theorem told_of_prepared {t : Actor} (hout : told_started s.books.out = [])
    (h : Deeds env s .Tick [] s.books t.books) : t.books.Told :=
  .of_nil ((h.started_same rfl rfl).trans hout)

theorem accept_route_told (peer : DeviceId) (req : RouteRequest) (kind : RouteKind)
    (hout : told_started s.books.out = []) :
    (s.accept_route env peer req kind).books.Told := by
  obtain ⟨t, hprepared, h | h⟩ := s.accept_route_prepared env peer req kind
  · rw [h]
    exact told_of_prepared env hout (hprepared s .Tick)
  · rw [h]
    exact t.activate_route_told env peer _ (told_of_prepared env hout (hprepared s .Tick))

theorem on_route_accept_told (peer : DeviceId) (acc : RouteAccept)
    (hout : told_started s.books.out = []) :
    (s.on_route_accept env peer acc).books.Told := by
  obtain ⟨t, hprepared, h | ⟨id, h⟩⟩ := s.on_route_accept_prepared env peer acc
  · rw [h]
    exact told_of_prepared env hout (hprepared .Tick)
  · rw [h]
    exact t.activate_route_told env peer id (told_of_prepared env hout (hprepared .Tick))

theorem decide_request_told (peer : DeviceId) (req : RouteRequest) (kind : RouteKind)
    (hout : told_started s.books.out = []) :
    (s.decide_request env peer req kind).books.Told := by
  unfold decide_request
  split
  · exact accept_route_told env peer req kind hout
  · rw [reject_books]
    exact .of_nil hout
  · split
    · exact accept_route_told env peer req kind hout
    · exact .of_nil hout

theorem on_route_request_told (peer : DeviceId) (req : RouteRequest)
    (hout : told_started s.books.out = []) :
    (s.on_route_request env peer req).books.Told := by
  unfold on_route_request
  split
  · rw [reject_books]
    exact .of_nil hout
  · split
    · dsimp only
      rw [reject_books, apply_ite Actor.books, error_notice_books, ite_self]
      exact .of_nil hout
    · dsimp only
      split
      · rw [reject_books]
        exact .of_nil hout
      · refine decide_request_told env peer req _ ?_
        have hroom := make_room_deeds env s .Tick s
        exact ((hroom _).started_same rfl rfl).trans hout

theorem respond_request_told (request_id : Nat) (accept remember : Bool)
    (hout : told_started s.books.out = []) :
    (s.respond_request env request_id accept remember).books.Told := by
  unfold respond_request
  split
  · exact .of_nil hout
  · next pending _ =>
      dsimp only
      generalize hs : (if remember = true then _ else _ : Actor) = t
      have hb : t.books = s.books := by
        rw [← hs]
        split <;> rfl
      rw [← hb] at hout
      split
      · exact accept_route_told env _ _ _ hout
      · rw [reject_books]
        exact .of_nil hout

theorem on_sender_ready_told (key : EncoderKey) (start_id : Nat)
    (result : Except EngineError Unit) (hout : told_started s.books.out = []) :
    (s.on_sender_ready env key start_id result).books.Told := by
  unfold on_sender_ready
  split
  · next current waiting group _ =>
      dsimp only
      split
      · exact .of_nil hout
      · match result with
        | .ok () =>
            dsimp only
            rw [prune_encoders_books]
            refine activate_routes_told env _ _ ?_
            rw [update_mic_groups_books]
            exact told_of_prepared env hout (subscribe_waiting_deeds env s .Tick
              (s.set_encoders (s.encoders.erase key)) key waiting
              { start_id, controls := group, subscribers := [], next_subscription := 0 })
        | .error error =>
            refine told_of_prepared env hout ?_
            refine deeds_foldl (fun s k => ?_) waiting (s.set_encoders (s.encoders.erase key))
            exact deeds_ite (fail_route_deeds env _ .Tick s k.peer k.id error) (.refl _)
  · exact .of_nil hout

theorem on_receiver_ready_told (peer : DeviceId) (id : UInt8) (start_id : Nat)
    (result : Except EngineError Unit) (hout : told_started s.books.out = []) :
    (s.on_receiver_ready env peer id start_id result).books.Told := by
  unfold on_receiver_ready
  dsimp only
  split
  · match result with
    | .error error => exact told_of_prepared env hout (fail_route_deeds env s .Tick s peer id error)
    | .ok () =>
        dsimp only
        split
        · exact .of_nil hout
        · refine activate_route_told env _ peer id (.of_nil ?_)
          rw [set_routes_books, emit_books]
          show told_started (s.books.tell _).out = []
          rw [Books.started_tell, hout]
          rfl
  · exact .of_nil hout

/-- A message that is not about pairing reaches its session, or nobody. -/
theorem on_control_told (conn_id : Nat) (body : Body) (hout : told_started s.books.out = [])
    (hpair : ∀ req, body ≠ .PairRequest req) (hresult : ∀ accepted, body ≠ .PairResult accepted)
    (hmessage : ∀ peer, (s.on_session_message env peer conn_id body).books.Told) :
    (s.on_control env conn_id body).books.Told := by
  unfold on_control
  split
  · dsimp only
    split
    · next req => exact absurd rfl (hpair req)
    · rw [close_books]
      exact .of_nil hout
  · split
    · split
      · next accepted => exact absurd rfl (hresult accepted)
      · exact .of_nil hout
    · split
      · exact hmessage _
      · exact .of_nil hout

end

end Actor

/-- The events at which a route can become ready. -/
theorem Event.readies_cases {event : Event} (h : event.readies = true) :
    (∃ key start_id result, event = .SenderReady key start_id result) ∨
    (∃ peer id start_id result, event = .ReceiverReady peer id start_id result) ∨
    (∃ conn_id req, event = .Control conn_id (.RouteRequest req)) ∨
    (∃ conn_id acc, event = .Control conn_id (.RouteAccept acc)) ∨
    ∃ request_id accept remember,
      event = .Command (.RespondRouteRequest request_id accept remember) := by
  unfold readies at h
  split at h
  · exact .inl ⟨_, _, _, rfl⟩
  · exact .inr (.inl ⟨_, _, _, _, rfl⟩)
  · exact .inr (.inr (.inl ⟨_, _, rfl⟩))
  · exact .inr (.inr (.inr (.inl ⟨_, _, rfl⟩)))
  · exact .inr (.inr (.inr (.inr ⟨_, _, _, rfl⟩)))
  · cases h

namespace Actor

variable [Crypto] (env : Env) {s : Actor}

/-- Whatever the event, unless it is a `StartRoute` itself: a route whose caller is told of its
start is active when the event has been handled. -/
theorem handle_told (event : Event) (hstart : event.starts = false)
    (hout : told_started s.books.out = []) : (s.handle env event).books.Told := by
  by_cases hready : event.readies = true
  · rcases Event.readies_cases hready with ⟨key, start_id, result, rfl⟩ |
      ⟨peer, id, start_id, result, rfl⟩ | ⟨conn_id, req, rfl⟩ | ⟨conn_id, acc, rfl⟩ |
      ⟨request_id, accept, remember, rfl⟩
    · exact on_sender_ready_told env key start_id result hout
    · exact on_receiver_ready_told env peer id start_id result hout
    · exact on_control_told env conn_id _ hout nofun nofun fun peer =>
        on_route_request_told env peer req hout
    · exact on_control_told env conn_id _ hout nofun nofun fun peer =>
        on_route_accept_told env peer acc hout
    · exact respond_request_told env request_id accept remember hout
  · refine .of_nil (((s.handle_deeds env event).started_same ?_ hstart).trans hout)
    exact Bool.eq_false_iff.2 hready

end Actor

/-! ## 3. The command itself -/

/-- The route runs, or is on its way to. -/
def Route.running (r : Route) : Prop :=
  r.status = .Requesting ∨ r.status = .Starting ∨ r.status = .Active

theorem Route.running_of_ne {r : Route} (happroval : r.status ≠ .WaitingForApproval)
    (hstopped : r.status ≠ .Stopped) (hpaused : r.status ≠ .Paused) : r.running := by
  unfold running
  match h : r.status with
  | .Requesting => exact .inl rfl
  | .Starting => exact .inr (.inl rfl)
  | .Active => exact .inr (.inr rfl)
  | .Paused => exact absurd h hpaused
  | .Stopped => exact absurd h hstopped
  | .WaitingForApproval => exact absurd h happroval

theorem Route.running.not_paused {r : Route} (h : r.running) : r.status ≠ .Paused := by
  rcases h with h | h | h
  · rw [h]
    exact nofun
  · rw [h]
    exact nofun
  · rw [h]
    exact nofun

namespace Actor

/-- The route that a command to start one finds. -/
def existing (s : Actor) (peer : DeviceId) (kind : RouteKind) : Option Route :=
  s.routes.find? fun r => r.peer = peer ∧ r.kind = kind ∧ r.status ≠ .Stopped

section
variable (env : Env) {s : Actor} {peer : DeviceId} {kind : RouteKind}

theorem existing_ne_stopped {r : Route} (h : s.existing peer kind = some r) :
    r.status ≠ .Stopped := by
  have hfound := List.find?_some h
  exact (of_decide_eq_true hfound).2.2

/-- A command that finds a route is answered at once, and nothing else happens. -/
theorem start_route_found {r : Route} (h : s.existing peer kind = some r) (replace : Bool)
    (caller : Nat) :
    s.start_route env peer kind replace (.caller caller) =
      s.emit (.Answer caller (.ok (.Started r.key))) := by
  unfold start_route start_route_keeping
  unfold existing at h
  rw [h]
  rfl

/-- A command that finds none tells nobody that a route started. -/
theorem start_route_told_nil [Crypto] (h : s.existing peer kind = none) (replace : Bool)
    (caller : Nat) (hout : told_started s.books.out = []) :
    told_started (s.start_route env peer kind replace (.caller caller)).books.out = [] := by
  have herror (t : Actor) (ht : told_started t.books.out = []) (e : EngineError) :
      told_started (t.answer (.caller caller) (.error e)).books.out = [] := by
    rw [answer_books, Books.started_tell, ht]
    rfl
  unfold start_route start_route_keeping
  unfold existing at h
  rw [h]
  dsimp only
  split
  · exact herror s hout _
  · split
    · exact herror s hout _
    · have hroom := make_room_deeds env s .Tick s (s.feed_in_the_way peer kind)
      have hmade := (hroom.started_same rfl rfl).trans hout
      generalize s.make_room env (s.feed_in_the_way peer kind) = t at hmade ⊢
      rcases t.request_route_books env peer kind replace (.caller caller) .default with
        ⟨e, hbooks⟩ | ⟨conn_id, r, _, _, hbooks⟩
      · rw [hbooks, Books.started_tell, hmade, Reply.started_error]
        rfl
      · rw [hbooks]
        exact hmade

end

end Actor

/-! ## 4. The status that no route has -/

namespace Books

/-- No route waits for approval: this device shows that status for a peer's prompt, and never
sets it. -/
structure Settled (b : Books) : Prop where
  routes : ∀ r ∈ b.routes, r.status ≠ .WaitingForApproval
  aside : ∀ r ∈ b.aside, r.status ≠ .WaitingForApproval

theorem Settled.of_eq {b b' : Books} (h : b.Settled) (hr : b'.routes = b.routes)
    (ha : b'.aside = b.aside) : b'.Settled :=
  ⟨hr ▸ h.routes, ha ▸ h.aside⟩

/-- The routes that are kept, and one more. -/
theorem Settled.push {b b' : Books} (h : b.Settled) {rest : List Route} {r₁ : Route}
    (hsub : rest.Sublist b.routes) (hr : b'.routes = rest ++ [r₁])
    (hs : r₁.status ≠ .WaitingForApproval) (ha : b'.aside = b.aside) : b'.Settled := by
  refine ⟨?_, ha ▸ h.aside⟩
  intro r hmem
  rw [hr] at hmem
  rcases List.mem_append.1 hmem with hmem | hmem
  · exact h.routes r (hsub.subset hmem)
  · rw [List.mem_singleton.1 hmem]
    exact hs

theorem Settled.fewer {b b' : Books} (h : b.Settled) (hsub : b'.routes.Sublist b.routes)
    (ha : b'.aside = b.aside) : b'.Settled :=
  ⟨fun r hr => h.routes r (hsub.subset hr), ha ▸ h.aside⟩

/-- One route is changed. -/
theorem Settled.modify {b b' : Books} (h : b.Settled) {p : Route → Bool} {f : Route → Route}
    (hr : b'.routes = b.routes.modify_first p f)
    (hs : ∀ r ∈ b.routes, (f r).status ≠ .WaitingForApproval) (ha : b'.aside = b.aside) :
    b'.Settled := by
  refine ⟨?_, ha ▸ h.aside⟩
  intro r hmem
  rw [hr] at hmem
  rcases List.mem_modify_first hmem with hmem | ⟨r₀, hfound, rfl⟩
  · exact h.routes r hmem
  · exact hs r₀ (List.mem_of_find?_eq_some hfound)

end Books

theorem CutsOff.settled {peer : DeviceId} {routes routes' : List Route} {out : List Output}
    (h : CutsOff peer routes routes' out) (hr : ∀ r ∈ routes, r.status ≠ .WaitingForApproval) :
    ∀ r ∈ routes', r.status ≠ .WaitingForApproval := by
  induction h with
  | nil => exact hr
  | skip _ _ ih =>
      rw [List.forall_mem_cons] at hr ⊢
      exact ⟨hr.1, ih hr.2⟩
  | cut _ hc _ ih =>
      rw [List.forall_mem_cons] at hr ⊢
      refine ⟨?_, ih hr.2⟩
      rcases hc.status with hs | hs
      · rw [hs]
        exact nofun
      · rw [hs]
        exact nofun

section
variable [Crypto] {env : Env} {s₀ : Actor} {event : Event} {l : List Nat} {b b' : Books}

theorem Deed.settled (h : Deed env s₀ event l b b') (hb : b.Settled) : b'.Settled := by
  cases h with
  | tend routes h =>
      refine ⟨fun r' hr' => ?_, hb.aside⟩
      obtain ⟨r, hr, hs⟩ := h.exists_left hr'
      rw [hs.status]
      exact hb.routes r hr
  | activate => exact hb.modify (Books.kept_routes _) (fun _ _ => nofun) (Books.kept_aside _)
  | finish key route rest e h =>
      refine hb.fewer ?_ (Books.kept_aside _)
      rw [Books.kept_routes]
      exact List.sublist_of_remove_first h
  | refuse _ _ _ route rest e _ _ _ h => exact hb.fewer (List.sublist_of_remove_first h) rfl
  | lose key route rest e _ h => exact hb.fewer (List.sublist_of_remove_first h) rfl
  | accept key route r₁ rest h hs =>
      refine hb.push (List.sublist_of_remove_first h) rfl ?_ rfl
      rw [hs.status]
      exact nofun
  | supplant => exact hb.fewer List.filter_sublist rfl
  | take_on peer id kind volume r₁ hs =>
      refine hb.push (List.Sublist.refl _) rfl ?_ rfl
      rw [hs.status]
      exact nofun
  | rebuild key route r₁ rest h hs =>
      refine hb.push (List.sublist_of_remove_first h) rfl ?_ rfl
      rw [hs.status]
      exact hb.routes route (List.mem_of_remove_first h).1
  | reopen key route r₁ h hs =>
      refine hb.modify rfl (fun _ _ => ?_) rfl
      rw [hs.status]
      exact hb.routes route (List.mem_of_find?_eq_some h)
  | receive => exact hb.modify rfl (fun r hr => hb.routes r hr) rfl
  | give_up => exact hb.modify rfl (fun r hr => hb.routes r hr) rfl
  | pause peer routes out _ h =>
      refine ⟨fun r hr => ?_, ?_⟩
      · rw [Books.kept_routes] at hr
        exact h.settled hb.routes r (List.mem_of_mem_filter hr)
      · rw [Books.kept_aside]
        exact hb.aside
  | request peer kind conn_id reply r _ hasked _ =>
      refine hb.push (List.Sublist.refl _) rfl ?_ rfl
      rw [hasked.status]
      exact nofun
  | set_aside =>
      exact ⟨fun r hr => hb.routes r (List.mem_of_mem_filter hr),
        fun r hr => hb.routes r (List.mem_of_mem_filter hr)⟩
  | put_back kind route rest h =>
      refine ⟨fun r hr => ?_, fun r hr => hb.aside r ((List.sublist_of_remove_first h).subset hr)⟩
      rcases List.mem_append.1 hr with hr | hr
      · exact hb.routes r hr
      · rw [List.mem_singleton.1 hr]
        exact hb.aside route (List.mem_of_remove_first h).1
  | discard => exact ⟨hb.routes, fun _ hr => absurd hr List.not_mem_nil⟩
  | test h => exact hb.of_eq h.routes h.aside
  | watch => exact hb.of_eq (Books.kept_routes _) (Books.kept_aside _)
  | answer | drop | install => exact ⟨hb.routes, hb.aside⟩

theorem reachable_settled {Known : PublicKey → Prop} {w : World}
    (hw : (engine Known).Reachable w) : w.actor.books.Settled := by
  refine hw.invariant (P := fun w => w.actor.books.Settled) ?_ ?_
  · rintro w ⟨identity, trust, settings, _, rfl⟩
    exact ⟨fun _ hr => absurd hr List.not_mem_nil, fun _ hr => absurd hr List.not_mem_nil⟩
  · intro w i hw _
    have hmet : w.met.books.Settled := hw.of_eq rfl rfl
    exact (w.step_deeds i).invariant (fun _ _ _ hdeed hb => hdeed.settled hb) hmet

end

/-! ## 5. Every event -/

/-- The event is a command to start a route that finds a paused one, and no running route has its
key. -/
def World.meets_paused (w : World) (event : Event) : Prop :=
  ∃ peer kind replace caller r, event = .Command (.StartRoute peer kind replace caller) ∧
    w.actor.existing peer kind = some r ∧ r.status = .Paused ∧
    ∀ r' ∈ w.actor.routes, r'.key = r.key → ¬ r'.running

/-- Every route that the event's effects report as started is there afterwards, and runs or is on
its way to. -/
def World.reports_running [Crypto] (w : World) (i : Input) : Prop :=
  ∀ caller key, Output.Answer caller (.ok (.Started key)) ∈ (w.step i).actor.out →
    ∃ r ∈ (w.step i).actor.routes, r.key = key ∧ r.running

theorem mem_told_started {out : List Output} {caller : Nat} {key : RouteKey}
    (h : Output.Answer caller (.ok (.Started key)) ∈ out) : key ∈ told_started out :=
  List.mem_filterMap.2 ⟨_, h, rfl⟩

section
variable [Crypto] (w : World) {i : Input}

theorem World.reports_of_told (h : (w.step i).actor.books.Told) : w.reports_running i := by
  intro caller key hmem
  have hkey : key ∈ told_started (w.step i).actor.books.out := by
    show key ∈ told_started ((w.step i).actor.out.filter Output.booked)
    rw [started_booked]
    exact mem_told_started hmem
  obtain ⟨r, hr, hkey, hactive⟩ := h key hkey
  exact ⟨r, hr, hkey, .inr (.inr hactive)⟩

omit [Crypto] in
theorem World.met_told_nil : told_started w.met.books.out = [] := rfl

/-- A command that finds a route answers for that route. -/
theorem World.step_found {peer : DeviceId} {kind : RouteKind} {replace : Bool} {caller : Nat}
    {r : Route} (he : i.event = .Command (.StartRoute peer kind replace caller))
    (h : w.actor.existing peer kind = some r) :
    (w.step i).actor = w.met.emit (.Answer caller (.ok (.Started r.key))) := by
  rw [World.step_actor, he]
  exact Actor.start_route_found i.env (s := w.met) h replace caller

/-- **A success of `StartRoute` means that the route runs**, exactly where the command does not
find a paused one: in every reachable state and at every event, whoever is told that a route
started can rely on it if and only if the event is no `StartRoute` that finds a route which is
paused. A command that finds one that runs changes nothing. -/
theorem started_is_running {Known : PublicKey → Prop} {w : World}
    (hw : (engine Known).Reachable w) (i : Input) :
    (w.reports_running i ↔ ¬ w.meets_paused i.event) ∧
    ∀ peer kind replace caller r, i.event = .Command (.StartRoute peer kind replace caller) →
      w.actor.existing peer kind = some r → r.running →
        (w.step i).actor = w.met.emit (.Answer caller (.ok (.Started r.key))) := by
  refine ⟨⟨?_, ?_⟩, fun peer kind replace caller r he h _ => w.step_found he h⟩
  · rintro hreports ⟨peer, kind, replace, caller, r, he, hfound, _, hnone⟩
    have hstep := w.step_found he hfound
    have hmem : Output.Answer caller (.ok (.Started r.key)) ∈ (w.step i).actor.out := by
      rw [hstep]
      exact List.mem_singleton_self _
    obtain ⟨r', hr', hkey, hrunning⟩ := hreports caller r.key hmem
    rw [hstep] at hr'
    exact hnone r' hr' hkey hrunning
  · intro hno
    -- Only a `StartRoute` can find a route that is there already; every other success is told
    -- where a pipeline becomes ready.
    by_cases hstart : i.event.starts = true
    · obtain ⟨peer, kind, replace, caller, he⟩ : ∃ peer kind replace caller,
          i.event = .Command (.StartRoute peer kind replace caller) := by
        unfold Event.starts at hstart
        split at hstart
        · exact ⟨_, _, _, _, by assumption⟩
        · cases hstart
      match hfound : w.actor.existing peer kind with
      | none =>
          refine w.reports_of_told (.of_nil ?_)
          rw [World.step_actor, he]
          exact Actor.start_route_told_nil i.env (s := w.met) hfound replace caller w.met_told_nil
      | some r =>
          intro c key hmem
          rw [w.step_found he hfound] at hmem ⊢
          have hkey : key = r.key := by
            have hanswer := List.mem_singleton.1 (show Output.Answer c (.ok (.Started key)) ∈
              [Output.Answer caller (.ok (.Started r.key))] from hmem)
            cases hanswer
            rfl
          rw [hkey]
          -- The route that was found and is answered for does not run: then it was paused.
          by_contra hnone
          refine hno ⟨peer, kind, replace, caller, r, he, hfound, ?_, ?_⟩
          · by_contra hpaused
            have hr := List.mem_of_find?_eq_some hfound
            exact hnone ⟨r, hr, rfl, Route.running_of_ne ((reachable_settled hw).routes r hr)
              (Actor.existing_ne_stopped hfound) hpaused⟩
          · intro r' hr' hsame hrunning
            exact hnone ⟨r', hr', hsame, hrunning⟩
    · refine w.reports_of_told ?_
      rw [World.step_actor]
      exact Actor.handle_told i.env i.event (Bool.eq_false_iff.2 hstart) w.met_told_nil

end

/-! ## 6. A run -/

namespace Sample

/-- The network between the two goes away. -/
def drops : Input := ⟨env, .Closed 1 .NetworkLost⟩

/-- The user asks again. -/
def sends_again : Input := ⟨env, .Command (.StartRoute peer .SendSystemAudio false 2)⟩

theorem sends_dropped_admitted : (engine Known).Admits (start .default)
    (connects 1 peer peer_key ++ [sends, drops]) := by
  refine ⟨.inl rfl, ⟨⟨_, List.mem_singleton.2 rfl, ?_⟩, ?_⟩, trivial, ?_, trivial⟩
  · simp [Call.reports]
    rfl
  · decide
  · exact List.mem_cons_self

end Sample

open Sample in
/-- A second start of a route that its peer has not answered yet is a success, and nothing else
happens. -/
theorem started_is_running_again :
    let w := (engine Known).exec (start .default) (connects 1 peer peer_key ++ [sends])
    w.reports_running sends_again ∧
      (w.step sends_again).actor = w.met.emit (.Answer 2 (.ok (.Started ⟨peer, 1⟩))) := by
  intro w
  have hadmits : (engine Known).Admits (start .default) (connects 1 peer peer_key ++ [sends]) := by
    refine ⟨.inl rfl, ⟨⟨_, List.mem_singleton.2 rfl, ?_⟩, ?_⟩, trivial, trivial⟩
    · simp [Call.reports]
      rfl
    · decide
  have hw : (engine Known).Reachable w := ⟨_, Machine.run_of_admits (start_init .default) hadmits⟩
  have hseen : (w.actor.existing peer .SendSystemAudio).map (fun r => (r.key, r.status)) =
      some (⟨peer, 1⟩, RouteStatus.Requesting) := by
    decide +kernel
  obtain ⟨r, hfound, hr⟩ := Option.map_eq_some_iff.1 hseen
  have hkey : r.key = ⟨peer, 1⟩ := congrArg Prod.fst hr
  have hstatus : r.status = .Requesting := congrArg Prod.snd hr
  refine ⟨(started_is_running hw sends_again).1.2 ?_, ?_⟩
  · rintro ⟨_, _, _, _, r', he, hfound', hpaused, _⟩
    cases he
    obtain rfl := Option.some_inj.1 (hfound'.symm.trans hfound)
    cases hstatus.symm.trans hpaused
  · rw [← hkey]
    exact (started_is_running hw sends_again).2 _ _ _ 2 r rfl hfound (.inl hstatus)

open Sample in
/-- A caller is told that its route started while the route is paused and its peer is gone. -/
theorem paused_reported_started :
    let w := (engine Known).exec (start .default) (connects 1 peer peer_key ++ [sends, drops])
    (engine Known).Reachable w ∧ World.enabled Known w sends_again ∧
    .Answer 2 (.ok (.Started ⟨peer, 1⟩)) ∈ (w.step sends_again).actor.out ∧
    (w.step sends_again).actor.routes.map (fun r => (r.key, r.status)) =
      [(⟨peer, 1⟩, RouteStatus.Paused)] ∧
    (w.step sends_again).actor.sessions.get peer = none ∧ ¬ w.reports_running sends_again := by
  have hroutes : (((engine Known).exec (start .default)
      (connects 1 peer peer_key ++ [sends, drops])).step sends_again).actor.routes.map
        (fun r => (r.key, r.status)) = [(⟨peer, 1⟩, RouteStatus.Paused)] := by
    decide +kernel
  have hmem : Output.Answer 2 (.ok (.Started ⟨peer, 1⟩)) ∈ (((engine Known).exec (start .default)
      (connects 1 peer peer_key ++ [sends, drops])).step sends_again).actor.out := by
    rw [World.step_found (i := sends_again) _ rfl rfl]
    exact List.mem_singleton_self _
  refine ⟨⟨_, Machine.run_of_admits (start_init .default) sends_dropped_admitted⟩, trivial, hmem,
    hroutes, by decide +kernel, ?_⟩
  intro hreports
  obtain ⟨r, hr, _, hrunning⟩ := hreports 2 _ hmem
  have hpaused := List.mem_map_of_mem (f := fun r : Route => (r.key, r.status)) hr
  rw [hroutes] at hpaused
  exact hrunning.not_paused (congrArg Prod.snd (List.mem_singleton.1 hpaused))

end SoundPush
