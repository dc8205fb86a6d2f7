/-
`Upkeep` -- what the handlers of routes leave alone.

`Actor.Upkeep s s'` says that between two states nobody gained or lost access, the
same connections are the sessions, and every route that a peer asked for was
already there: it is as it was, became active, or was paused. All the work on
routes is of this kind but one function, `accept_route`, which is what the results
about consent and permissions then have to look at.

## How to use it

The lemmas follow the source, one for each function and in its order, and a caller
cites those of what it calls. Three rules do most of it. `Upkeep.of_tables` is for what
only sends, answers or moves audio: there all tables are equal. `Upkeep.set_routes` is
for a change of the route table, and reduces it to `Continues`. And `Upkeep.trans`
chains the parts of a function. The lemmas that end in `_tables` are equations, tagged
for `simp` where they are used below a definition; those in `_upkeep` are the relation.

A route that the user or a setting asked for on this device is left free throughout:
it may come, go and change as it likes, because nobody else gains anything by it.
-/
import SoundPush.Engine.Handlers

set_option autoImplicit false

namespace SoundPush

/-! ## 1. The relation -/

/-- `r'` is the same stream as `r`, at a later moment that asked nobody again. -/
structure Route.Continues (r r' : Route) : Prop where
  peer : r'.peer = r.peer
  id : r'.id = r.id
  kind : r'.kind = r.kind
  requested_locally : r'.requested_locally = r.requested_locally
  status : r'.status = r.status ∨ (r.status = .Starting ∧ r'.status = .Active) ∨
    r'.status = .Paused

namespace Route.Continues

theorem refl (r : Route) : r.Continues r := ⟨rfl, rfl, rfl, rfl, .inl rfl⟩

/-- A change of volume, mute or encoder is none of the stream itself. -/
theorem of_same {r r' : Route} (h : r.Same r') : r.Continues r' :=
  ⟨h.peer, h.id, h.kind, h.requested_locally, .inl h.status⟩

theorem trans {a b c : Route} (h : a.Continues b) (h' : b.Continues c) : a.Continues c := by
  refine ⟨h'.peer.trans h.peer, h'.id.trans h.id, h'.kind.trans h.kind,
    h'.requested_locally.trans h.requested_locally, ?_⟩
  rcases h'.status with hc | ⟨hb, hc⟩ | hc
  · rw [hc]
    exact h.status
  · rcases h.status with hs | ⟨_, hs⟩ | hs
    · exact .inr (.inl ⟨hs ▸ hb, hc⟩)
    · exact nomatch hs.symm.trans hb
    · exact nomatch hs.symm.trans hb
  · exact .inr (.inr hc)

end Route.Continues

/-- Every route of `b` that a peer asked for continues one of `a`. -/
def Continues (a b : List Route) : Prop :=
  ∀ r' ∈ b, r'.requested_locally = false → ∃ r ∈ a, r.Continues r'

namespace Continues

/-- Routes may go. -/
theorem of_subset {a b : List Route} (h : ∀ r ∈ b, r ∈ a) : Continues a b :=
  fun r hr _ => ⟨r, h r hr, .refl r⟩

theorem refl (a : List Route) : Continues a a := of_subset fun _ h => h

theorem trans {a b c : List Route} (h : Continues a b) (h' : Continues b c) : Continues a c := by
  intro r'' hr'' hlocal
  obtain ⟨r', hr', hc'⟩ := h' r'' hr'' hlocal
  obtain ⟨r, hr, hc⟩ := h r' hr' (hc'.requested_locally ▸ hlocal)
  exact ⟨r, hr, hc.trans hc'⟩

/-- The source's `retain`. -/
theorem filter (a : List Route) (p : Route → Bool) : Continues a (a.filter p) :=
  of_subset fun _ h => List.mem_of_mem_filter h

/-- One route is taken out, the rest stay as they are. -/
theorem remove_first {a rest : List Route} {p : Route → Bool} {r : Route}
    (h : a.remove_first p = some (r, rest)) : Continues a rest :=
  of_subset fun _ hr => (List.sublist_of_remove_first h).subset hr

/-- A route comes in at the end. If a peer asked for it, it continues one that was there. -/
theorem append {a b : List Route} {r' : Route} (h : Continues a b)
    (h' : r'.requested_locally = false → ∃ r ∈ a, r.Continues r') : Continues a (b ++ [r']) := by
  intro q hq hlocal
  rcases List.mem_append.1 hq with hq | hq
  · exact h q hq hlocal
  · rw [List.mem_singleton.1 hq] at hlocal ⊢
    exact h' hlocal

/-- A route is taken out of the table and put back at its end. -/
theorem move {a rest : List Route} {p : Route → Bool} {r r' : Route}
    (h : a.remove_first p = some (r, rest)) (hr : r.Continues r') : Continues a (rest ++ [r']) :=
  (remove_first h).append fun _ => ⟨r, (List.mem_of_remove_first h).1, hr⟩

/-- Every route is changed. -/
theorem map {a : List Route} {f : Route → Route} (h : ∀ r ∈ a, r.Continues (f r)) :
    Continues a (a.map f) := by
  intro q hq _
  obtain ⟨r, hr, rfl⟩ := List.mem_map.1 hq
  exact ⟨r, hr, h r hr⟩

/-- The first match is changed (`iter_mut().find`). -/
theorem modify_first {a : List Route} {p : Route → Bool} {f : Route → Route}
    (h : ∀ r, a.find? p = some r → r.Continues (f r)) : Continues a (a.modify_first p f) := by
  intro q hq _
  rcases List.mem_modify_first hq with hq | ⟨r, hr, rfl⟩
  · exact ⟨q, hq, .refl q⟩
  · exact ⟨r, List.mem_of_find?_eq_some hr, h r hr⟩

/-- The last match is changed. -/
theorem modify_last {a : List Route} {p : Route → Bool} {f : Route → Route}
    (h : ∀ r : Route, r.Continues (f r)) : Continues a (a.modify_last p f) := by
  intro q hq _
  rcases List.mem_modify_last hq with hq | ⟨r, hr, rfl⟩
  · exact ⟨q, hq, .refl q⟩
  · exact ⟨r, List.mem_reverse.1 (List.mem_of_find?_eq_some hr), h r⟩

end Continues

/-- What makes a session the one it is. -/
structure Link where
  conn_id : Nat
  conn : SecureConnection
  dialed : Bool
  connected_at : Instant

def Session.link (s : Session) : Link := ⟨s.conn_id, s.conn, s.dialed, s.connected_at⟩

namespace Actor

/-- The connection that is a device's session. -/
def link (s : Actor) (peer : DeviceId) : Option Link := (s.sessions.get peer).map Session.link

theorem set_routes_tables (s : Actor) (routes : List Route) :
    (s.set_routes routes).toTables = { s.toTables with routes } := rfl

/-- Links of the session table after a session came or went. -/
theorem link_of_insert {s t : Actor} {id : DeviceId} {session : Session}
    (h : t.sessions = s.sessions.insert id session) (k : DeviceId) :
    t.link k = if k = id then some session.link else s.link k := by
  unfold link
  rw [h, Table.get_insert]
  split <;> rfl

theorem link_of_erase {s t : Actor} {id : DeviceId} (h : t.sessions = s.sessions.erase id)
    (k : DeviceId) : t.link k = if k = id then none else s.link k := by
  unfold link
  rw [h, Table.get_erase]
  split <;> rfl

/-- Nobody gains anything: what waits for a decision may lapse, and nothing else changes. -/
structure Lapses (a b : Standing) : Prop where
  identity : b.identity = a.identity
  trust : b.trust = a.trust
  conn_index : b.conn_index = a.conn_index
  next_request_id : b.next_request_id = a.next_request_id
  next_conn_id : b.next_conn_id = a.next_conn_id
  calls : b.calls = a.calls
  pairings : a.pairings.Shrinks b.pairings
  unpaired : a.unpaired.Shrinks b.unpaired
  pair_dials : a.pair_dials.Shrinks b.pair_dials
  requests : a.requests.Shrinks b.requests
  qr : b.qr = a.qr ∨ b.qr = none

theorem Lapses.refl (a : Standing) : Lapses a a :=
  ⟨rfl, rfl, rfl, rfl, rfl, rfl, .refl _, .refl _, .refl _, .refl _, .inl rfl⟩

theorem Lapses.trans {a b c : Standing} (h : Lapses a b) (h' : Lapses b c) : Lapses a c where
  identity := h'.identity.trans h.identity
  trust := h'.trust.trans h.trust
  conn_index := h'.conn_index.trans h.conn_index
  next_request_id := h'.next_request_id.trans h.next_request_id
  next_conn_id := h'.next_conn_id.trans h.next_conn_id
  calls := h'.calls.trans h.calls
  pairings := h.pairings.trans h'.pairings
  unpaired := h.unpaired.trans h'.unpaired
  pair_dials := h.pair_dials.trans h'.pair_dials
  requests := h.requests.trans h'.requests
  qr := h'.qr.elim (fun hc => hc ▸ h.qr) .inr

/-- Work on routes: standing and sessions stay, and no peer's route appears. -/
structure Upkeep (s s' : Actor) : Prop where
  standing : Lapses s.toStanding s'.toStanding
  link : s'.link = s.link
  routes : Continues s.routes s'.routes

namespace Upkeep

theorem refl (s : Actor) : s.Upkeep s := ⟨.refl _, rfl, .refl _⟩

theorem trans {a b c : Actor} (h : a.Upkeep b) (h' : b.Upkeep c) : a.Upkeep c :=
  ⟨h.standing.trans h'.standing, h'.link.trans h.link, h.routes.trans h'.routes⟩

/-- Messages, answers and audio. -/
theorem of_tables {s s' : Actor} (h : s'.toTables = s.toTables) : s.Upkeep s' := by
  refine ⟨?_, ?_, ?_⟩
  · rw [h]
    exact .refl _
  · unfold Actor.link
    rw [h]
  · rw [h]
    exact .refl _

/-- Dials, tokens and timers. -/
theorem of_eq {s s' : Actor} (h : s'.toStanding = s.toStanding)
    (hs : s'.sessions = s.sessions) (hr : s'.routes = s.routes) : s.Upkeep s' := by
  refine ⟨h ▸ .refl _, ?_, hr ▸ .refl _⟩
  unfold Actor.link
  rw [hs]

/-- The work that follows messages, answers and audio. -/
theorem after {s s₀ s' : Actor} (h : s₀.Upkeep s') (h₀ : s₀.toTables = s.toTables) :
    s.Upkeep s' :=
  (of_tables h₀).trans h

/-- A change of the route table alone. -/
theorem set_routes {s : Actor} {routes : List Route} (h : Continues s.routes routes) :
    s.Upkeep (s.set_routes routes) := ⟨.refl _, rfl, h⟩

/-- Upkeep on either side of a condition is upkeep. -/
theorem ite {s a b : Actor} {c : Prop} [Decidable c] (ha : s.Upkeep a) (hb : s.Upkeep b) :
    s.Upkeep (if c then a else b) := by
  split
  · exact ha
  · exact hb

/-- A side that touches no table may be left out. -/
theorem ite_tables {s a b : Actor} {c : Prop} [Decidable c] (h : s.Upkeep a)
    (hb : b.toTables = a.toTables) : s.Upkeep (if c then b else a) :=
  ite (h.trans (of_tables hb)) h

/-- A loop of upkeep, by induction on what it goes over. -/
theorem foldl {α : Type} {f : Actor → α → Actor} (h : ∀ s a, Upkeep s (f s a)) (l : List α)
    (s : Actor) : s.Upkeep (l.foldl f s) := by
  induction l generalizing s with
  | nil => exact .refl s
  | cons a l ih => exact (h s a).trans (ih (f s a))

end Upkeep

/-! ## 2. Activating, failing, stopping and pausing -/

section
variable (env : Env) (s : Actor)

@[simp] theorem set_saved_routes_tables (saved : List SavedRoute) :
    (s.set_saved_routes saved).toTables = s.toTables := rfl

@[simp] theorem save_started_route_tables (peer : DeviceId) (kind : RouteKind) :
    (s.save_started_route env peer kind).toTables = s.toTables := by
  unfold save_started_route
  dsimp only
  split <;> simp

@[simp] theorem unmute_after_tables (route : Route) :
    (s.unmute_after route).toTables = s.toTables := by
  unfold unmute_after
  split <;> simp

@[simp] theorem forget_saved_route_tables (route : Route) (reason : StopReason) :
    (s.forget_saved_route env route reason).toTables = s.toTables := by
  unfold forget_saved_route
  dsimp only
  split <;> simp

/-- Activation changes the status of one starting route. -/
theorem activate_route_spec (peer : DeviceId) (id : UInt8) :
    (s.activate_route env peer id).toStanding = s.toStanding ∧
      (s.activate_route env peer id).sessions = s.sessions ∧
      ∀ r' ∈ (s.activate_route env peer id).routes,
        ∃ r ∈ s.routes, r' = r ∨ (r.status = .Starting ∧ r' = r.activated) := by
  unfold activate_route
  dsimp only
  split
  · exact ⟨rfl, rfl, fun r hr => ⟨r, hr, .inl rfl⟩⟩
  · next r hr =>
      split
      · exact ⟨rfl, rfl, fun r hr => ⟨r, hr, .inl rfl⟩⟩
      · next hs =>
          simp only [apply_ite Actor.toTables, update_keep_alive_tables, save_started_route_tables,
            answer_route_tables, send_to_tables, ite_self, set_routes_tables, true_and]
          intro r' hr'
          rcases List.mem_modify_first hr' with hr' | ⟨q, hq, rfl⟩
          · exact ⟨r', hr', .inl rfl⟩
          · obtain rfl := Option.some_inj.1 (hr.symm.trans hq)
            exact ⟨r, List.mem_of_find?_eq_some hr, .inr ⟨not_not.1 hs, rfl⟩⟩

/-- A starting route becomes active, and whoever waited for it is told. No other route is
touched. -/
theorem activate_route_upkeep (peer : DeviceId) (id : UInt8) :
    s.Upkeep (s.activate_route env peer id) := by
  obtain ⟨hstanding, hsessions, hroutes⟩ := s.activate_route_spec env peer id
  refine ⟨hstanding ▸ .refl _, ?_, fun r' hr' _ => ?_⟩
  · unfold link
    rw [hsessions]
  · obtain ⟨r, hr, rfl | ⟨hs, rfl⟩⟩ := hroutes r' hr'
    · exact ⟨r', hr, .refl r'⟩
    · exact ⟨r, hr, rfl, rfl, rfl, rfl, .inr (.inl ⟨hs, rfl⟩)⟩

/-- A route is taken out, and what follows only tells others. -/
theorem upkeep_of_remove {p : Route → Bool} {route : Route} {rest : List Route} {s' : Actor}
    (h : s.routes.remove_first p = some (route, rest))
    (h' : s'.toTables = (s.set_routes rest).toTables) : s.Upkeep s' :=
  .trans (.set_routes (.remove_first h)) (.of_tables h')

/-- A route that fails is taken out, and the peer and the user are told. -/
theorem fail_route_upkeep (peer : DeviceId) (id : UInt8) (error : EngineError) :
    s.Upkeep (s.fail_route env peer id error) := by
  unfold fail_route
  split
  · exact .refl s
  · next route rest h =>
      refine s.upkeep_of_remove h ?_
      simp [apply_ite Actor.toTables]

/-- Stopping takes one route out of the table and changes nothing else there. -/
theorem stop_route_by_key_tables (key : RouteKey) (reason : StopReason) (notify_peer : Bool) :
    (s.stop_route_by_key env key reason notify_peer).toTables =
      { s.toTables with routes := s.routes.eraseP (has_key key) } := by
  unfold stop_route_by_key
  split
  · next h => rw [List.eraseP_of_remove_first_eq_none h]
  · next route rest h =>
      rw [List.eraseP_of_remove_first h]
      simp [apply_ite Actor.toTables, set_routes_tables]

/-- A route that is stopped is taken out, whoever stops it. -/
theorem stop_route_by_key_upkeep (key : RouteKey) (reason : StopReason) (notify_peer : Bool) :
    s.Upkeep (s.stop_route_by_key env key reason notify_peer) := by
  have h := s.stop_route_by_key_tables env key reason notify_peer
  refine .trans (b := s.set_routes (s.routes.eraseP (has_key key))) (.set_routes ?_) (.of_tables h)
  exact .of_subset fun r hr => List.eraseP_sublist.subset hr

/-- Several routes are stopped, one after the other. -/
theorem stop_routes_upkeep (keys : List RouteKey) (reason : StopReason) (notify_peer : Bool) :
    s.Upkeep (s.stop_routes env keys reason notify_peer) :=
  .foldl (fun s key => s.stop_route_by_key_upkeep env key reason notify_peer) keys s

/-- All routes of a peer go without a word: there is no session to tell them on. -/
theorem remove_routes_for_upkeep (peer : DeviceId) : s.Upkeep (s.remove_routes_for env peer) :=
  s.stop_routes_upkeep env _ _ _

@[simp] theorem pause_route_tables (route : Route) :
    (s.pause_route env route).1.toTables = s.toTables := by
  unfold pause_route
  dsimp only
  split
  · simp
  · simp
  · split <;> simp

/-- A route that is paused is the stream it was. This is the second of the changes that
`Route.Continues` allows. -/
theorem pause_route_continues (route : Route) :
    (s.pause_route env route).2.status ≠ .Stopped →
      route.Continues (s.pause_route env route).2 := by
  have hsame := s.release_pipelines_same route
  unfold pause_route
  dsimp only
  split
  · exact fun _ => ⟨hsame.peer, hsame.id, hsame.kind, hsame.requested_locally, .inr (.inr rfl)⟩
  · exact fun _ => .of_same hsame
  · split
    · exact fun _ => ⟨hsame.peer, hsame.id, hsame.kind, hsame.requested_locally, .inr (.inr rfl)⟩
    · exact fun h => absurd rfl h

theorem pause_each_tables (peer : DeviceId) (routes : List Route) :
    (pause_each env peer s routes).1.toTables = s.toTables := by
  induction routes generalizing s with
  | nil => rfl
  | cons r routes ih =>
      rw [pause_each]
      dsimp only
      rw [ih]
      split <;> simp

/-- The peer's routes are paused one after the other, by induction on the table. -/
theorem pause_each_continues (peer : DeviceId) (routes : List Route) :
    Continues routes ((pause_each env peer s routes).2.filter (·.status ≠ .Stopped)) := by
  induction routes generalizing s with
  | nil => exact .refl _
  | cons r routes ih =>
      intro r' hr' hlocal
      rw [pause_each, List.mem_filter, List.mem_cons] at hr'
      obtain ⟨rfl | hr', hs⟩ := hr'
      · refine ⟨r, List.mem_cons_self, ?_⟩
        by_cases hp : r.peer = peer
        · rw [if_pos hp] at hs ⊢
          exact s.pause_route_continues env r (of_decide_eq_true hs)
        · rw [if_neg hp]
          exact .refl r
      · obtain ⟨q, hq, hc⟩ := ih _ r' (List.mem_filter.2 ⟨hr', hs⟩) hlocal
        exact ⟨q, List.mem_cons_of_mem _ hq, hc⟩

/-- A peer is gone. What was running is paused; what was still being set up is paused if this
device asked for it, and goes otherwise. -/
theorem pause_routes_for_upkeep (peer : DeviceId) : s.Upkeep (s.pause_routes_for env peer) := by
  unfold pause_routes_for
  dsimp only
  refine .trans (b := pause_each env peer s s.routes |>.1) (.of_tables ?_) ?_
  · exact s.pause_each_tables env peer s.routes
  · refine .trans (.set_routes ?_) (.of_tables (update_keep_alive_tables _))
    rw [s.pause_each_tables env peer s.routes]
    exact s.pause_each_continues env peer s.routes

end

/-! ## 3. Starting and resuming -/

/-- A session keeps its identity when its other fields change. -/
theorem link_insert {s : Actor} {peer : DeviceId} {old new : Session}
    (h : s.sessions.get peer = some old) (hl : new.link = old.link) :
    Actor.link { s with sessions := s.sessions.insert peer new } = s.link := by
  funext id
  unfold link
  rw [Table.get_insert]
  split
  · next he => rw [he, h, Option.map_some, Option.map_some, hl]
  · rfl

section
variable (env : Env) (s : Actor)

/-- The feed that is in the way of a new one is stopped. -/
theorem make_room_upkeep (feed : Option RouteKey) : s.Upkeep (s.make_room env feed) := by
  unfold make_room
  split
  · exact s.stop_route_by_key_upkeep env _ _ _
  · exact .refl s

theorem make_room_spec (feed : Option RouteKey) :
    (s.make_room env feed).toAccess = s.toAccess ∧
      (s.make_room env feed).routes.Sublist s.routes := by
  unfold make_room
  split
  · rw [stop_route_by_key_tables]
    exact ⟨rfl, List.eraseP_sublist⟩
  · exact ⟨rfl, .refl _⟩

/-- A route is asked for. It is in the table from now on, requested here, so it needs nobody's
consent on this device. -/
theorem request_route_upkeep (peer : DeviceId) (kind : RouteKind) (replace : Bool)
    (reply : Reply) (fallback : QualityFallback) :
    s.Upkeep (s.request_route env peer kind replace reply fallback) := by
  unfold request_route
  dsimp only
  split
  · exact .of_tables (answer_tables _ _ _)
  · next session hsession =>
      refine ⟨.refl _, link_insert hsession rfl, .append (.refl _) fun hlocal => ?_⟩
      exact nomatch hlocal

/-- The user's request to start a route, from the checks to the message to the peer. -/
theorem start_route_keeping_upkeep (peer : DeviceId) (kind : RouteKind) (replace : Bool)
    (reply : Reply) (fallback : QualityFallback) :
    s.Upkeep (s.start_route_keeping env peer kind replace reply fallback) := by
  unfold start_route_keeping
  split
  · exact .of_tables (answer_tables _ _ _)
  · split
    · exact .of_tables (answer_tables _ _ _)
    · dsimp only
      split
      · exact .of_tables (answer_tables _ _ _)
      · exact (s.make_room_upkeep env _).trans (request_route_upkeep env _ _ _ _ _ _)

/-- The same, where no paused route is to be kept. -/
theorem start_route_upkeep (peer : DeviceId) (kind : RouteKind) (replace : Bool) (reply : Reply) :
    s.Upkeep (s.start_route env peer kind replace reply) :=
  s.start_route_keeping_upkeep env peer kind replace reply .default

/-- Asking again keeps the table, and puts back only routes that were set aside. -/
theorem resume_kind_upkeep {s₀ : Actor} {peer : DeviceId} (kind : RouteKind)
    {st : Actor × List Route} (h : s₀.Upkeep st.1) (hp : ∀ r ∈ st.2, r.requested_locally = true) :
    s₀.Upkeep (resume_kind env peer st kind).1 ∧
      ∀ r ∈ (resume_kind env peer st kind).2, r.requested_locally = true := by
  obtain ⟨s, paused⟩ := st
  unfold resume_kind
  dsimp only
  have hstart := h.trans (s.start_route_upkeep env peer kind false .dropped)
  split
  · refine ⟨hstart.trans (.set_routes (.modify_last fun r => ?_)), hp⟩
    exact ⟨rfl, rfl, rfl, rfl, .inl rfl⟩
  · split
    · next route rest hrest =>
        have hroute := hp route (List.mem_of_remove_first hrest).1
        refine ⟨hstart.trans (.set_routes (.append (.refl _) fun hlocal => ?_)), fun r hr => ?_⟩
        · exact nomatch hroute.symm.trans hlocal
        · exact hp r ((List.sublist_of_remove_first hrest).subset hr)
    · exact ⟨hstart, hp⟩

/-- What was set aside for a peer is asked for again, kind by kind. The induction carries that
whatever a peer asked for is still among the routes of the start. -/
theorem resume_routes_upkeep (peer : DeviceId) : s.Upkeep (s.resume_routes env peer) := by
  unfold resume_routes
  dsimp only
  generalize List.foldl _ (List.map Route.kind _) _ = kinds
  have hrun : ∀ (kinds : List RouteKind) (st : Actor × List Route), s.Upkeep st.1 →
      (∀ r ∈ st.2, r.requested_locally = true) →
      s.Upkeep (kinds.foldl (resume_kind env peer) st).1 := by
    intro kinds
    induction kinds with
    | nil => exact fun st h _ => h
    | cons kind kinds ih =>
        intro st h hp
        obtain ⟨h', hp'⟩ := resume_kind_upkeep env kind h hp
        exact ih _ h' hp'
  refine hrun kinds _ (.set_routes (.filter _ _)) fun r hr => ?_
  have hmine := (List.mem_filter.1 hr).2
  simp only [decide_eq_true_eq] at hmine
  exact hmine.2.2

end

/-! ## 4. Requests and answers -/

section
variable (env : Env) (s : Actor)

/-- A rejection is a message and nothing else. -/
@[simp] theorem reject_tables (peer : DeviceId) (route : UInt32) (reason : StopReason) :
    (s.reject peer route reason).toTables = s.toTables := s.send_to_tables _ _

theorem drop_subscriptions_tables (routes : List Route) :
    (routes.foldl (fun s r => s.drop_subscription r.subscription) s).toTables = s.toTables := by
  induction routes generalizing s with
  | nil => rfl
  | cons r routes ih => rw [List.foldl_cons, ih, drop_subscription_tables]

/-- Upkeep, and perhaps a new route that a peer asked for. -/
structure Admits (s s' : Actor) (peer : DeviceId) (id : UInt8) (kind : RouteKind) : Prop where
  standing : Lapses s.toStanding s'.toStanding
  link : s'.link = s.link
  routes : ∀ r' ∈ s'.routes, r'.requested_locally = false →
    (∃ r ∈ s.routes, r.Continues r') ∨
      (r'.peer = peer ∧ r'.id = id ∧ r'.kind = kind ∧ (r'.status = .Starting ∨ r'.status = .Active))

variable {s} in
/-- Upkeep that lets nobody in. -/
theorem Upkeep.admits {s' : Actor} (h : s.Upkeep s') (peer : DeviceId) (id : UInt8)
    (kind : RouteKind) : s.Admits s' peer id kind :=
  ⟨h.standing, h.link, fun r' hr' hlocal => .inl (h.routes r' hr' hlocal)⟩

variable {s} in
/-- Upkeep, and then the new route. -/
theorem Upkeep.admits_push {s' : Actor} (h : s.Upkeep s') {r : Route} (hs : r.status = .Starting) :
    s.Admits (s'.set_routes (s'.routes ++ [r])) r.peer r.id r.kind := by
  refine ⟨h.standing, h.link, fun r' hr' hlocal => ?_⟩
  rcases List.mem_append.1 hr' with hr' | hr'
  · exact .inl (h.routes r' hr' hlocal)
  · rw [List.mem_singleton.1 hr']
    exact .inr ⟨rfl, rfl, rfl, .inl hs⟩

variable {s} in
/-- The route that was let in becomes active within the same event. -/
theorem Admits.activate {s' : Actor} {peer : DeviceId} {id : UInt8} {kind : RouteKind}
    (h : s.Admits s' peer id kind) (p : DeviceId) (i : UInt8) :
    s.Admits (s'.activate_route env p i) peer id kind := by
  have hup := s'.activate_route_upkeep env p i
  obtain ⟨_, _, hroutes⟩ := s'.activate_route_spec env p i
  refine ⟨h.standing.trans hup.standing, hup.link.trans h.link, fun r' hr' hlocal => ?_⟩
  obtain ⟨r, hr, rfl | ⟨hs, rfl⟩⟩ := hroutes r' hr'
  · exact h.routes r' hr hlocal
  · rcases h.routes r hr hlocal with ⟨q, hq, hc⟩ | ⟨hp, hi, hk, _⟩
    · exact .inl ⟨q, hq, hc.trans ⟨rfl, rfl, rfl, rfl, .inr (.inl ⟨hs, rfl⟩)⟩⟩
    · exact .inr ⟨hp, hi, hk, .inr rfl⟩

/-- The only way a peer's route comes into the table. -/
theorem accept_route_admits (peer : DeviceId) (req : RouteRequest) (kind : RouteKind) :
    s.Admits (s.accept_route env peer req kind) peer req.route.toUInt8 kind := by
  unfold accept_route
  dsimp only
  generalize hs' : set_routes (List.foldl _ s _) _ = s'
  have htables : s'.toTables =
      { s.toTables with
        routes := s.routes.filter fun r => !replaced_by peer req.route.toUInt8 kind r } := by
    rw [← hs', set_routes_tables, drop_subscriptions_tables]
  have hup : s.Upkeep s' := by
    refine ⟨?_, ?_, ?_⟩
    · rw [htables]
      exact .refl _
    · unfold link
      rw [htables]
    · rw [htables]
      exact .filter _ _
  -- A duplicate, or a pipeline that does not begin, admits nothing.
  split
  · exact hup.admits _ _ _
  · generalize hr : ({ new_route peer _ kind false _ with profile := _, deadline := _ } : Route) = r
    obtain ⟨s'', route, result, he, hbegin, hsame⟩ := begin_pipelines_eq env s' r
    have hup' : s.Upkeep s'' := hup.trans (.of_tables hbegin)
    rw [he]
    cases result with
    | ok ready =>
        have hpush := hup'.admits_push (r := route) (by rw [hsame.status, ← hr]; rfl)
        rw [hsame.peer, hsame.id, hsame.kind, ← hr] at hpush
        dsimp only
        split
        · exact hpush.activate env _ _
        · exact hpush
    | error e =>
        refine (hup'.trans (.of_tables ?_)).admits _ _ _
        simp

/-- A peer refuses: the request is taken out and answered. -/
theorem on_route_reject_upkeep (peer : DeviceId) (rej : RouteReject) :
    s.Upkeep (s.on_route_reject env peer rej) := by
  unfold on_route_reject
  dsimp only
  split
  · exact .refl s
  · next route rest h =>
      refine s.upkeep_of_remove h ?_
      simp

/-- What a peer asked for and may no longer do is stopped. -/
theorem enforce_permissions_upkeep (peer : DeviceId) :
    s.Upkeep (s.enforce_permissions env peer) := by
  unfold enforce_permissions
  split
  · exact .refl s
  · exact s.stop_routes_upkeep env _ _ _

/-- A peer's answer only concerns what this device asked for. -/
theorem on_route_accept_upkeep (peer : DeviceId) (acc : RouteAccept)
    (hs : ∀ r ∈ s.routes, r.requested_locally = false → r.status ≠ .Requesting) :
    s.Upkeep (s.on_route_accept env peer acc) := by
  unfold on_route_accept
  dsimp only
  split
  · exact .refl s
  · next route rest hrest =>
      have hmem := List.mem_of_remove_first hrest
      simp only [Bool.and_eq_true, decide_eq_true_eq] at hmem
      have hlocal : route.requested_locally = true := by
        by_contra h
        exact hs route hmem.1 (Bool.not_eq_true _ ▸ h) hmem.2.2
      generalize hr : ({ route with profile := _, status := _, deadline := _ } : Route) = r
      have hrlocal : r.requested_locally = true := hr ▸ hlocal
      obtain ⟨s', route', result, he, htables, hsame⟩ :=
        begin_pipelines_eq env (s.set_routes rest) r
      have hrest' : s.Upkeep s' := s.upkeep_of_remove hrest htables
      rw [he]
      cases result with
      | ok ready =>
          have hpush : s.Upkeep (s'.set_routes (s'.routes ++ [route'])) := by
            refine hrest'.trans (.set_routes (.append (.refl _) fun h => ?_))
            exact nomatch (hsame.requested_locally.trans hrlocal).symm.trans h
          exact .ite (hpush.trans (activate_route_upkeep env _ _ _)) hpush
      | error e =>
          refine hrest'.trans (.of_tables ?_)
          simp

end

/-! ## 5. Profiles -/

section
variable (env : Env) (s : Actor)

/-- A route's pipeline is torn down and begun again with the same peer and kind. -/
theorem rebuild_route_upkeep (key : RouteKey) : s.Upkeep (s.rebuild_route env key) := by
  unfold rebuild_route
  split
  · exact .refl s
  · next route rest hrest =>
      dsimp only
      obtain ⟨s', route', result, he, htables, hsame⟩ :=
        begin_pipelines_eq env ((s.set_routes rest).release_pipelines route).1
          ((s.set_routes rest).release_pipelines route).2
      rw [release_pipelines_tables] at htables
      have hroutes : s'.routes = rest := congrArg Tables.routes htables
      have hmoved : s.Upkeep (s'.set_routes (s'.routes ++ [route'])) := by
        rw [hroutes]
        refine .trans (b := s.set_routes (rest ++ [route'])) (.set_routes ?_) (.of_tables ?_)
        · exact .move hrest
            (.of_same (((s.set_routes rest).release_pipelines_same route).trans hsame))
        · rw [set_routes_tables, htables]
          rfl
      rw [he]
      cases result with
      | ok ready => exact hmoved
      | error e => exact hmoved.trans (fail_route_upkeep env _ _ _ _)

/-- A new profile, for which the pipeline may have to be rebuilt. -/
theorem apply_profile_upkeep (key : RouteKey) (next : StreamProfile) :
    s.Upkeep (s.apply_profile env key next) := by
  unfold apply_profile
  split
  · exact .refl s
  · dsimp only
    generalize hs' : update_mic_groups _ = s'
    have hup : s.Upkeep s' := by
      rw [← hs']
      refine .trans (.set_routes (.modify_first fun q _ => ?_)) (.of_tables rfl)
      exact ⟨rfl, rfl, rfl, rfl, .inl rfl⟩
    exact .ite hup (hup.trans (s'.rebuild_route_upkeep env key))

/-- A route is stopped and, if this device asked for it, asked for again. -/
theorem restart_route_upkeep (key : RouteKey) : s.Upkeep (s.restart_route env key) := by
  unfold restart_route
  split
  · exact .refl s
  · next r _ =>
      dsimp only
      have hstop := s.stop_route_by_key_upkeep env key .Superseded true
      refine .ite (.refl s) (.ite ?_ hstop)
      have hstart := hstop.trans
        (start_route_keeping_upkeep env _ r.peer r.kind false .dropped r.quality_fallback)
      refine hstart.trans (.set_routes (.modify_last fun q => ?_))
      exact ⟨rfl, rfl, rfl, rfl, .inl rfl⟩

/-- What the fallback has counted is forgotten; the stream stays what it is. -/
theorem reset_fallback_upkeep (r : Route) : s.Upkeep (s.reset_fallback r) := by
  unfold reset_fallback
  refine .ite (.refl s) (.set_routes (.modify_first fun q _ => ?_))
  exact ⟨rfl, rfl, rfl, rfl, .inl rfl⟩

/-- One route is brought in line with the settings. -/
theorem reconfigure_route_upkeep (key : RouteKey) : s.Upkeep (s.reconfigure_route env key) := by
  unfold reconfigure_route
  split
  · exact .refl s
  · next r _ =>
      split
      · dsimp only
        have hreset := s.reset_fallback_upkeep r
        refine .ite hreset (.ite (hreset.trans (restart_route_upkeep env _ key)) ?_)
        have happly (next : StreamProfile) := hreset.trans (apply_profile_upkeep env _ key next)
        exact .ite ((happly _).trans (.of_tables (send_to_tables _ _ _))) (happly _)
      · exact .refl s

/-- The routes are brought in line one after the other. -/
theorem reconfigure_each_upkeep (keys : List RouteKey) : s.Upkeep (s.reconfigure_each env keys) :=
  .foldl (fun s key => s.reconfigure_route_upkeep env key) keys s

/-- After a change of the settings, all routes that they concern are brought in line. -/
theorem reconfigure_routes_upkeep (old : Settings) : s.Upkeep (s.reconfigure_routes env old) :=
  s.reconfigure_each_upkeep env _

/-- A peer changes the profile of a route that exists. An update for any other is ignored. -/
theorem on_route_update_upkeep (peer : DeviceId) (update : RouteUpdate) :
    s.Upkeep (s.on_route_update env peer update) := by
  unfold on_route_update
  dsimp only
  split
  · split
    · exact .ite (s.apply_profile_upkeep env _ _) (.refl s)
    · exact .refl s
  · exact .refl s

/-- Lossless routes that this device asked for fall back to Opus, or go back. Each is brought in
line as after a change of the settings. -/
theorem update_quality_fallback_upkeep : s.Upkeep (s.update_quality_fallback env) := by
  unfold update_quality_fallback
  dsimp only
  refine .trans (.set_routes (.map fun r _ => ?_)) (.foldl (fun s r => ?_) _ _)
  · split
    · exact ⟨rfl, rfl, rfl, rfl, .inl rfl⟩
    · exact .refl r
  · exact (s.reconfigure_route_upkeep env r.key).trans (.of_tables rfl)

end

/-! ## 6. This device's audio -/

section
variable (env : Env) (s : Actor)

/-- Changes of a route's controls. -/
theorem upkeep_of_map (s : Actor) {f : Route → Route} (h : ∀ r : Route, r.Same (f r)) :
    s.Upkeep (s.set_routes (s.routes.map f)) :=
  .set_routes (.map fun r _ => .of_same (h r))

theorem upkeep_of_modify (s : Actor) {p : Route → Bool} {f : Route → Route}
    (h : ∀ r : Route, r.Same (f r)) : s.Upkeep (s.set_routes (s.routes.modify_first p f)) :=
  .set_routes (.modify_first fun r _ => .of_same (h r))

/-- The microphone is muted on every route that carries it. -/
theorem set_mic_muted_upkeep (muted : Bool) : s.Upkeep (s.set_mic_muted muted) := by
  unfold set_mic_muted
  refine .trans (b := update_mic_groups { s with mic_muted := muted }) (.of_tables rfl)
    (upkeep_of_map _ fun r => ?_)
  split
  · exact ⟨rfl, rfl, rfl, rfl, rfl⟩
  · exact .refl r

/-- The monitor is local. -/
theorem set_monitor_tables (enabled : Bool) :
    (s.set_monitor env enabled).toTables = s.toTables := by
  unfold set_monitor
  dsimp only
  rw [update_keep_alive_tables]
  split
  · split
    · rfl
    · rw [error_notice_tables]
  · rfl

/-- The routes that waited for a sender subscribe to it. The induction is on those that wait. -/
theorem subscribe_waiting_upkeep (key : EncoderKey) (waiting : List RouteKey)
    (sender : RunningSender) : s.Upkeep (subscribe_waiting key s waiting sender).1 := by
  induction waiting generalizing s sender with
  | nil => exact .refl s
  | cons k waiting ih =>
      unfold subscribe_waiting
      dsimp only
      split
      · split
        · refine .trans (upkeep_of_modify s fun r => ?_) (ih _ _)
          exact ⟨rfl, rfl, rfl, rfl, rfl⟩
        · exact ih s sender
      · exact ih s sender

/-- A sender is ready, or could not be opened: those that waited become active or fail. -/
theorem on_sender_ready_upkeep (key : EncoderKey) (start_id : Nat)
    (result : Except EngineError Unit) : s.Upkeep (s.on_sender_ready env key start_id result) := by
  unfold on_sender_ready
  split
  · next current waiting group _ =>
      dsimp only
      refine .ite (.refl s) ?_
      cases result with
      | ok u =>
          refine .trans ?_ (.of_tables (prune_encoders_tables _))
          refine .trans ?_
            (.foldl (fun s (k : RouteKey) => s.activate_route_upkeep env k.peer k.id) _ _)
          have hsub := subscribe_waiting_upkeep (s.set_encoders (s.encoders.erase key)) key waiting
            { start_id, controls := group, subscribers := [], next_subscription := 0 }
          have hfirst : s.Upkeep _ := hsub.after rfl
          exact hfirst.trans (.of_tables rfl)
      | error e =>
          dsimp only
          refine .trans (b := s.set_encoders (s.encoders.erase key)) (.of_tables rfl)
            (.foldl (fun s k => ?_) waiting _)
          exact .ite (s.fail_route_upkeep env k.peer k.id e) (.refl s)
  · exact .refl s

/-- A receiver is ready, or could not be opened. -/
theorem on_receiver_ready_upkeep (peer : DeviceId) (id : UInt8) (start_id : Nat)
    (result : Except EngineError Unit) :
    s.Upkeep (s.on_receiver_ready env peer id start_id result) := by
  unfold on_receiver_ready
  dsimp only
  refine .ite ?_ (.refl s)
  cases result with
  | ok u =>
      dsimp only
      split
      · exact upkeep_of_modify s fun r => ⟨rfl, rfl, rfl, rfl, rfl⟩
      · refine .trans ?_ (activate_route_upkeep env _ peer id)
        refine .trans (b := s.emit _) (.of_tables rfl) (upkeep_of_modify _ fun r => ?_)
        exact ⟨rfl, rfl, rfl, rfl, rfl⟩
  | error e => exact s.fail_route_upkeep env peer id e

@[simp] theorem close_capture_tables (route : Route) :
    (s.close_capture route).toTables = s.toTables := by
  unfold close_capture
  split <;> simp

/-- The audio of a route is opened anew, for instance on another device. The route itself stays. -/
theorem reopen_route_audio_upkeep (key : RouteKey) :
    s.Upkeep (s.reopen_route_audio env key).1 := by
  unfold reopen_route_audio
  split
  · exact .refl s
  · next route hroute =>
      dsimp only
      have htables' := s.close_capture_tables route
      generalize s.close_capture route = s' at htables' ⊢
      obtain ⟨s'', route', result, he, htables, hsame⟩ :=
        begin_pipelines_eq env (s'.release_pipelines route).1 (s'.release_pipelines route).2
      rw [release_pipelines_tables, htables'] at htables
      have hroutes : s''.routes = s.routes := congrArg Tables.routes htables
      have hput :
          s.Upkeep (s''.set_routes (s''.routes.modify_first (has_key key) fun _ => route')) := by
        refine .trans (.of_tables htables) (.set_routes (.modify_first fun q hq => ?_))
        rw [hroutes, hroute] at hq
        obtain rfl := Option.some_inj.1 hq
        exact .of_same ((s'.release_pipelines_same route).trans hsame)
      rw [he]
      cases result with
      | ok ready => exact hput
      | error e =>
          refine hput.trans (.trans (.of_tables (error_notice_tables env _ e)) ?_)
          exact stop_route_by_key_upkeep env _ _ _ _

/-- The same for a route that follows the system's default device, and not again soon after. -/
theorem reopen_on_default_device_upkeep (key : RouteKey) :
    s.Upkeep (s.reopen_on_default_device env key).1 := by
  unfold reopen_on_default_device
  split
  · exact .refl s
  · dsimp only
    split
    · exact .refl s
    · split
      · exact .of_tables rfl
      · exact .after (reopen_route_audio_upkeep env _ key) rfl

/-- A route's audio fails: it is opened anew on the default device, or the route is stopped. -/
theorem on_audio_failed_upkeep (key : RouteKey) (error : EngineError) :
    s.Upkeep (s.on_audio_failed env key error) := by
  have hreopen := s.reopen_on_default_device_upkeep env key
  unfold on_audio_failed
  dsimp only
  refine .ite hreopen (hreopen.trans ?_)
  refine .trans (.of_tables (error_notice_tables env _ error)) ?_
  exact stop_route_by_key_upkeep env _ _ _ _

/-- The share of one route in the failure of an encoder. -/
theorem encoder_failed_for_upkeep (error : EngineError) (notified : Bool) (k : RouteKey) :
    s.Upkeep (encoder_failed_for env error (s, notified) k).1 := by
  have hreopen := s.reopen_on_default_device_upkeep env k
  unfold encoder_failed_for
  dsimp only
  rw [apply_ite Prod.fst]
  refine .ite hreopen (hreopen.trans (.trans ?_ (stop_route_by_key_upkeep env _ _ _ _)))
  exact .ite (.refl _) (.of_tables (error_notice_tables env _ error))

/-- An encoder fails for all the routes that it serves. -/
theorem on_encoder_failed_upkeep (key : EncoderKey) (error : EngineError) :
    s.Upkeep (s.on_encoder_failed env key error) := by
  have hrun : ∀ (affected : List RouteKey) (st : Actor × Bool),
      st.1.Upkeep (affected.foldl (encoder_failed_for env error) st).1 := by
    intro affected
    induction affected with
    | nil => exact fun st => .refl st.1
    | cons k affected ih =>
        exact fun st => (st.1.encoder_failed_for_upkeep env error st.2 k).trans (ih _)
  exact .after (hrun _ _) (s.close_encoder_tables key)

/-- The default devices change, and the routes on them move along. -/
theorem on_audio_devices_changed_upkeep (input_changed output_changed : Bool) :
    s.Upkeep (s.on_audio_devices_changed env input_changed output_changed) := by
  unfold on_audio_devices_changed
  dsimp only
  have hmoved := Upkeep.foldl (fun s k => s.reopen_route_audio_upkeep env k)
  exact .ite (.refl s)
    (.ite ((hmoved _ s).trans (.of_tables (set_monitor_tables env _ true))) (hmoved _ s))

@[simp] theorem remember_mic_peer_tables : (s.remember_mic_peer env).toTables = s.toTables := by
  unfold remember_mic_peer
  split
  · rfl
  · dsimp only
    split
    · rfl
    · simp

/-- The microphone is asked for because an app listens to the virtual one. The request is this
device's own. -/
theorem auto_start_mic_upkeep : s.Upkeep (s.auto_start_mic env).1 := by
  unfold auto_start_mic
  split
  · exact .refl s
  · split
    · exact .refl s
    · exact (s.start_route_upkeep env _ .ReceiveMicToVirtualMic false .dropped).trans
        (.of_tables rfl)

/-- The virtual microphone comes into use or falls out of it. -/
theorem check_virtual_mic_use_upkeep : s.Upkeep (s.check_virtual_mic_use env) := by
  unfold check_virtual_mic_use
  dsimp only
  refine .trans (.of_tables (s.remember_mic_peer_tables env)) ?_
  generalize s.remember_mic_peer env = s
  have hset (la : LocalAudio) : s.Upkeep { s with local_audio := la } := .of_tables rfl
  refine .ite (hset _) (.ite (hset _) (.ite (.refl s) (.ite ?_ ?_)))
  · refine .ite (hset _) (.ite (hset _) ?_)
    exact (hset _).trans ((auto_start_mic_upkeep env _).trans (.of_tables rfl))
  · split
    · exact hset _
    · exact .ite ((hset _).trans (stop_route_by_key_upkeep env _ _ _ _)) (hset _)

theorem check_capture_health_tables : (s.check_capture_health env).toTables = s.toTables := by
  unfold check_capture_health
  dsimp only
  split <;> rfl

end

/-! ## 7. Settings, reports and timers -/

section
variable (env : Env) (s : Actor)

theorem cancel_dial_upkeep (id : DeviceId) : s.Upkeep (s.cancel_dial id) := by
  unfold cancel_dial
  dsimp only
  split <;> exact ⟨.refl _, rfl, .refl _⟩

theorem forget_dial_upkeep (id : DeviceId) : s.Upkeep (s.forget_dial id) :=
  (s.cancel_dial_upkeep id).trans ⟨.refl _, rfl, .refl _⟩

theorem reset_dials_upkeep : s.Upkeep (s.reset_dials env) := ⟨.refl _, rfl, .refl _⟩

theorem forget_speaker_mutes_tables (id : DeviceId) :
    (s.forget_speaker_mutes id).toTables = s.toTables := by
  unfold forget_speaker_mutes
  dsimp only
  split <;> rfl

theorem record_reconnect_tables (id : DeviceId) :
    (s.record_reconnect env id).toTables = s.toTables := by
  unfold record_reconnect
  dsimp only
  split
  · rfl
  · split <;> rfl

theorem on_remote_volume_upkeep (peer : DeviceId) (v : VolumeSet) :
    s.Upkeep (s.on_remote_volume peer v) := by
  unfold on_remote_volume
  refine .ite (.refl s) (upkeep_of_modify s fun r => ?_)
  exact ⟨rfl, rfl, rfl, rfl, rfl⟩

theorem on_remote_mute_upkeep (peer : DeviceId) (m : MuteSet) :
    s.Upkeep (s.on_remote_mute env peer m) := by
  unfold on_remote_mute
  refine .ite (.refl s) (.ite (.of_tables ?_) (upkeep_of_modify s fun r => ?_))
  · dsimp only
    split <;> rfl
  · exact ⟨rfl, rfl, rfl, rfl, rfl⟩

theorem adapt_bitrate_same (r : Route) : r.Same (adapt_bitrate r) := by
  unfold adapt_bitrate
  split
  · split
    · exact .refl r
    · split
      · exact ⟨rfl, rfl, rfl, rfl, rfl⟩
      · split
        · split <;> exact ⟨rfl, rfl, rfl, rfl, rfl⟩
        · exact .refl r
  · exact .refl r

theorem adapt_redundancy_same (r : Route) : r.Same (adapt_redundancy r) := by
  unfold adapt_redundancy
  split
  · split
    · exact ⟨rfl, rfl, rfl, rfl, rfl⟩
    · split
      · exact ⟨rfl, rfl, rfl, rfl, rfl⟩
      · exact .refl r
  · exact .refl r

theorem on_stats_upkeep (peer : DeviceId) (stats : StatsReport) :
    s.Upkeep (s.on_stats peer stats) := by
  unfold on_stats
  refine upkeep_of_modify s fun r => ?_
  have hloss : r.Same { r with loss_pct := stats.loss_pct } := ⟨rfl, rfl, rfl, rfl, rfl⟩
  have hrate := hloss.trans (adapt_bitrate_same _)
  dsimp only
  split
  · exact hrate.trans (adapt_redundancy_same _)
  · exact hrate

theorem on_hello_upkeep (peer : DeviceId) (conn_id : Nat) (hello : Hello) :
    s.Upkeep (s.on_hello peer conn_id hello) := by
  unfold on_hello
  split
  · next session hsession =>
      exact .ite ⟨.refl _, link_insert hsession rfl, .refl _⟩ (.refl s)
  · exact .refl s

theorem on_session_ticket_upkeep (peer : DeviceId) (conn_id : Nat) (ticket : SessionTicket) :
    s.Upkeep (s.on_session_ticket env peer conn_id ticket) := by
  unfold on_session_ticket
  exact .ite ⟨.refl _, rfl, .refl _⟩ (.refl s)

theorem expire_route_upkeep (key : RouteKey) : s.Upkeep (s.expire_route env key) := by
  unfold expire_route
  dsimp only
  refine .trans ?_ (stop_route_by_key_upkeep env _ _ _ _)
  split
  · refine .after (.set_routes ?_) (answer_route_tables _ _ _)
    rw [answer_route_tables]
    exact .modify_first fun r _ => ⟨rfl, rfl, rfl, rfl, .inl rfl⟩
  · exact .refl s

theorem expire_routes_upkeep : s.Upkeep (s.expire_routes env) :=
  .foldl (fun s key => s.expire_route_upkeep env key) _ s

theorem count_route_spec (r : Route) :
    (s.count_route env r).1.toTables = s.toTables ∧ r.Same (s.count_route env r).2 := by
  unfold count_route
  split
  · exact ⟨rfl, .refl r⟩
  · exact ⟨send_to_tables _ _ _, ⟨rfl, rfl, rfl, rfl, rfl⟩⟩

theorem count_each_spec (routes : List Route) :
    (count_each env s routes).1.toTables = s.toTables ∧
      Continues routes (count_each env s routes).2 := by
  induction routes generalizing s with
  | nil => exact ⟨rfl, .refl _⟩
  | cons r routes ih =>
      obtain ⟨htables, hsame⟩ := s.count_route_spec env r
      obtain ⟨htables', hc⟩ := ih (s.count_route env r).1
      refine ⟨htables'.trans htables, fun r' hr' hlocal => ?_⟩
      rcases List.mem_cons.1 hr' with rfl | hr'
      · exact ⟨r, List.mem_cons_self, .of_same hsame⟩
      · obtain ⟨q, hq, hqc⟩ := hc r' hr' hlocal
        exact ⟨q, List.mem_cons_of_mem _ hq, hqc⟩

theorem count_routes_upkeep : s.Upkeep (s.count_routes env) := by
  obtain ⟨htables, hc⟩ := s.count_each_spec env s.routes
  unfold count_routes
  refine .after (.set_routes ?_) htables
  rw [htables]
  exact hc

theorem expire_stable_holds_upkeep : s.Upkeep (s.expire_stable_holds env) := by
  unfold expire_stable_holds
  refine .foldl (fun s id => ?_) _ s
  exact .after (reconfigure_each_upkeep env _ _) rfl

theorem expire_debug_logging_tables : (s.expire_debug_logging env).toTables = s.toTables := by
  unfold expire_debug_logging
  split <;> simp

theorem announce_capabilities_tables [Crypto] :
    (s.announce_capabilities env).toTables = s.toTables := by
  unfold announce_capabilities
  dsimp only
  split
  · rfl
  · generalize s.sessions.pairs = sessions
    generalize hs' : ({ s with announced_caps := _ } : Actor) = s'
    have htables : s'.toTables = s.toTables := by rw [← hs']
    generalize s'.local_hello env none = hello
    rw [← htables]
    clear hs' htables
    induction sessions generalizing s' with
    | nil => rfl
    | cons e sessions ih => exact ih _

theorem set_route_volume_upkeep (key : RouteKey) (volume : ℚ) :
    s.Upkeep (s.set_route_volume key volume) := by
  unfold set_route_volume
  dsimp only
  split
  · exact .refl s
  · refine .trans (b := s.set_routes _) (upkeep_of_modify s fun r => ?_)
      (.ite (.refl _) (.of_tables (send_to_tables _ _ _)))
    exact ⟨rfl, rfl, rfl, rfl, rfl⟩

theorem set_route_muted_upkeep (key : RouteKey) (muted : Bool) :
    s.Upkeep (s.set_route_muted key muted) := by
  unfold set_route_muted
  dsimp only
  split
  · exact .refl s
  · refine .trans (b := s.set_routes _) (upkeep_of_modify s fun r => ?_)
      (.ite (.refl _) (.of_tables (send_to_tables _ _ _)))
    exact ⟨rfl, rfl, rfl, rfl, rfl⟩

theorem set_route_keep_running_upkeep (key : RouteKey) (keep : Bool) :
    s.Upkeep (s.set_route_keep_running env key keep) := by
  unfold set_route_keep_running
  dsimp only
  split
  · exact .refl s
  · have hkeep : s.Upkeep (s.set_routes <| s.routes.modify_first (has_key key) fun r =>
        { r with keep_running := keep }) := upkeep_of_modify s fun r => ⟨rfl, rfl, rfl, rfl, rfl⟩
    refine hkeep.trans (.of_tables ?_)
    rw [save_settings_tables, set_saved_routes_tables]

theorem set_peer_speakers_muted_tables (id : DeviceId) (muted : Bool) :
    (s.set_peer_speakers_muted id muted).toTables = s.toTables := by
  unfold set_peer_speakers_muted
  split
  · rfl
  · exact s.send_to_tables _ _

@[simp] theorem sync_resumable_routes_tables :
    (s.sync_resumable_routes env).toTables = s.toTables := by
  unfold sync_resumable_routes
  dsimp only
  rw [save_settings_tables, set_saved_routes_tables]

theorem apply_settings_upkeep (old : Settings) : s.Upkeep (s.apply_settings env old) := by
  unfold apply_settings
  dsimp only
  refine .ite_tables ?_ (set_monitor_tables env _ _)
  refine .ite_tables ?_ (sync_resumable_routes_tables env _)
  refine .trans ?_ (reconfigure_routes_upkeep env _ old)
  refine .ite_tables ?_ rfl
  refine .trans ?_ (.of_tables (update_mic_groups_tables _))
  refine .ite_tables ?_ rfl
  refine .trans (.ite (s.reset_dials_upkeep env) (.refl s)) (upkeep_of_map _ fun r => ?_)
  split
  · exact .refl r
  · exact ⟨rfl, rfl, rfl, rfl, rfl⟩

theorem update_settings_upkeep (settings : Settings) (caller : Nat) :
    s.Upkeep (s.update_settings env settings caller) := by
  unfold update_settings
  dsimp only
  refine .trans (.after (apply_settings_upkeep env _ _) ?_) (.of_tables (answer_tables _ _ _))
  rw [save_settings_tables, set_settings_tables]

theorem set_device_profile_upkeep (id : DeviceId) (profile : Option DeviceProfile) :
    s.Upkeep (s.set_device_profile env id profile) := by
  unfold set_device_profile
  dsimp only
  refine .after (apply_settings_upkeep env _ _) ?_
  rw [save_settings_tables, set_settings_tables]

theorem set_prefer_lossless_upkeep (prefer : Bool) :
    s.Upkeep (s.set_prefer_lossless env prefer) := by
  unfold set_prefer_lossless
  exact .ite (.refl s) (.after (reconfigure_each_upkeep env _ _) rfl)

end

end Actor

end SoundPush
