/-
`Bookkeeping` -- every handler of routes is a sequence of deeds.

One lemma a handler, in the order of the model. A handler that touches no account
leaves the books as they are; the others are taken apart along their own branches.

Where the work is. `Books` says what the engine owes and `Deed` what a handler may do to that; this
module and the next show that nothing else ever happens. From here on no invariant of the accounts
unfolds a handler: it is proved once for each kind of deed and carried over by `Deeds.invariant`.

How it is put together. A lemma that ends in `_books` is an equation, either `s.books` itself or
`s.books` with the effects told and the keep-alive brought up to date. A lemma that ends in
`_deeds` says that the books before and after are joined by deeds, for the event `event` that met
the state `s₀`; the state in between is free, so that handlers can be chained. `deeds_before` and
`deeds_after` move such a chain along an equation between books, `deeds_ite` and `deeds_foldl`
take it through a branch and a loop, and `deeds_tend` is the deed for routes that change in ways
nobody waits for.

The guard `event.readies` is asked of the handlers that can make a route active: a caller may hear
that its route started only at the events where the model starts one.
-/
import SoundPush.Engine.Books

set_option autoImplicit false

namespace SoundPush

namespace Actor

/-! ## 1. What touches no account

Effects, single fields and the small helpers of the handlers. `emit_books` and `emit_unbooked` are
the two facts that everything else is built from: a booked effect is told, any other is not. -/

section
variable (env : Env) (s : Actor)

/-- An effect is told if it is a booked one. -/
theorem emit_books (o : Output) : (s.emit o).books = s.books.tell ([o].filter Output.booked) := by
  unfold emit books Books.tell
  rw [List.filter_append]

/-- Any other effect leaves the books alone. -/
theorem emit_unbooked {o : Output} (h : o.booked = false) : (s.emit o).books = s.books := by
  rw [emit_books, List.filter_singleton, h]
  exact s.books.tell_nil

@[simp] theorem set_routes_books (routes : List Route) :
    (s.set_routes routes).books = { s.books with routes } := rfl

@[simp] theorem set_encoders_books (encoders : Table EncoderKey EncoderSlot) :
    (s.set_encoders encoders).books = s.books := rfl

@[simp] theorem set_net_tests_books (tests : Table DeviceId NetTest) :
    (s.set_net_tests tests).books = { s.books with tests } := rfl

@[simp] theorem set_settings_books (settings : Settings) :
    (s.set_settings settings).books = s.books := rfl

/-- A message that is booked on no connection leaves the books alone, with or without a session. -/
theorem send_to_books {body : Body} (peer : DeviceId)
    (h : ∀ conn_id, (Output.Send conn_id body).booked = false) :
    (s.send_to peer body).books = s.books := by
  unfold send_to
  split
  · exact s.emit_unbooked (h _)
  · rfl

/-- An answer is told to whoever waits for it; a dropped reply tells nothing. -/
@[simp] theorem answer_books (reply : Reply) (result : Except EngineError Answer) :
    (s.answer reply result).books = s.books.tell (reply.answered result) := by
  cases reply with
  | caller id => exact s.emit_books _
  | dropped => exact (s.books.tell_nil).symm

/-- The caller of a route is answered, if the route still has one. -/
@[simp] theorem answer_route_books (r : Route) (result : Except EngineError Answer) :
    (s.answer_route r result).books = s.books.tell (r.answered result) := by
  unfold answer_route Route.answered
  cases r.reply with
  | some reply => exact s.answer_books reply result
  | none => exact (s.books.tell_nil).symm

@[simp] theorem notice_books (key : String) : (s.notice key).books = s.books := s.emit_unbooked rfl

@[simp] theorem error_notice_books (error : EngineError) :
    (s.error_notice env error).books = s.books := by
  unfold error_notice
  split <;> exact s.emit_unbooked rfl

@[simp] theorem save_settings_books : (s.save_settings env).books = s.books := by
  unfold save_settings
  split
  · rfl
  · exact s.error_notice_books env _

/-- Bringing the keep-alive up to date is the same step on the books as on the state. -/
@[simp] theorem update_keep_alive_books : s.update_keep_alive.books = s.books.kept := by
  unfold update_keep_alive Books.kept
  dsimp only
  change (if s.books.wakes ≠ s.books.keep_alive then _ else s).books = _
  split
  · exact emit_books _ _
  · rfl

@[simp] theorem drop_subscription_books (subscription : Option Subscription) :
    (s.drop_subscription subscription).books = s.books := by
  cases subscription <;> rfl

@[simp] theorem prune_encoders_books : s.prune_encoders.books = s.books := rfl

@[simp] theorem close_encoder_books (key : EncoderKey) : (s.close_encoder key).books = s.books := by
  unfold close_encoder
  split <;> rfl

@[simp] theorem close_capture_books (r : Route) : (s.close_capture r).books = s.books := by
  unfold close_capture
  split
  · exact s.close_encoder_books _
  · rfl

@[simp] theorem update_mic_groups_books : s.update_mic_groups.books = s.books := rfl

/-- A receiver that begins only spawns the opening of its playback: the sink comes later. -/
theorem begin_receiver_books (r : Route) (profile : StreamProfile) :
    (s.begin_receiver env r profile).1.books = s.books ∧
      r.Steady (s.begin_receiver env r profile).2.1 := by
  unfold begin_receiver
  dsimp only
  split
  · exact ⟨rfl, .refl r⟩
  · exact ⟨emit_unbooked _ rfl, ⟨rfl, rfl, rfl, rfl, rfl, rfl, rfl⟩⟩

/-- A sender that begins changes its subscription and the encoders, which are not in the books. -/
theorem begin_sender_books (r : Route) (profile : StreamProfile) :
    (s.begin_sender env r profile).1.books = s.books ∧
      r.Steady (s.begin_sender env r profile).2.1 := by
  unfold begin_sender
  split
  · exact ⟨rfl, .refl r⟩
  · next source _ =>
      dsimp only
      have hdrop := s.drop_subscription_books r.subscription
      generalize s.drop_subscription r.subscription = s₁ at hdrop ⊢
      generalize hs : (if r.kind = .SendSystemAudio ∧ s₁.settings.capture.mute_local_speakers = true
        then s₁.emit (.SetSpeakersMuted true) else s₁) = t
      have hb : t.books = s.books := by
        rw [← hs, ← hdrop]
        split
        · exact s₁.emit_unbooked rfl
        · rfl
      rw [← hb]
      split
      · split
        · exact ⟨rfl, ⟨rfl, rfl, rfl, rfl, rfl, rfl, rfl⟩⟩
        · exact ⟨rfl, ⟨rfl, rfl, rfl, rfl, rfl, rfl, rfl⟩⟩
      · exact ⟨rfl, ⟨rfl, rfl, rfl, rfl, rfl, rfl, rfl⟩⟩
      · exact ⟨emit_unbooked _ rfl, ⟨rfl, rfl, rfl, rfl, rfl, rfl, rfl⟩⟩

/-- Starting a pipeline touches no account, and the route stays what it is. -/
theorem begin_pipelines_books (r : Route) :
    (s.begin_pipelines env r).1.books = s.books ∧ r.Steady (s.begin_pipelines env r).2.1 := by
  unfold begin_pipelines
  split
  · exact ⟨rfl, .refl r⟩
  · exact ⟨rfl, .refl r⟩
  · split
    · exact s.begin_sender_books env r _
    · exact s.begin_receiver_books env r _

/-- The same with the results named, for handlers that look at all three. -/
theorem begin_pipelines_booked (r : Route) : ∃ t r₁ result,
    s.begin_pipelines env r = (t, r₁, result) ∧ t.books = s.books ∧ r.Steady r₁ :=
  ⟨_, _, _, rfl, (s.begin_pipelines_books env r).1, (s.begin_pipelines_books env r).2⟩

/-- A route that is played here loses its sink with its pipeline, on the connection its session
has now. -/
@[simp] theorem release_pipelines_books (r : Route) :
    (s.release_pipelines r).1.books = s.books.tell (s.books.unplugs r) := by
  unfold release_pipelines
  dsimp only
  rw [prune_encoders_books]
  have hs : (s.drop_subscription r.subscription).sessions = s.sessions :=
    congrArg Tables.sessions (s.drop_subscription_tables r.subscription)
  have hb := s.drop_subscription_books r.subscription
  generalize s.drop_subscription r.subscription = t at hs hb ⊢
  have hconn : s.books.conn r.peer = (t.sessions.get r.peer).map Session.conn_id := by rw [hs]; rfl
  unfold Books.unplugs
  rw [hconn, ← hb]
  cases r.receiver with
  | none => exact (t.books.tell_nil).symm
  | some start_id =>
      cases t.sessions.get r.peer with
      | none => exact (t.books.tell_nil).symm
      | some session => exact t.emit_books _

/-- But for its receiver the route is as good as before. -/
theorem release_pipelines_steady (r : Route) :
    { r with receiver := none }.Steady (s.release_pipelines r).2 :=
  ⟨rfl, rfl, rfl, rfl, rfl, rfl, rfl⟩

@[simp] theorem set_saved_routes_books (saved : List SavedRoute) :
    (s.set_saved_routes saved).books = s.books := rfl

@[simp] theorem save_started_route_books (peer : DeviceId) (kind : RouteKind) :
    (s.save_started_route env peer kind).books = s.books := by
  unfold save_started_route
  dsimp only
  split
  · rfl
  · exact save_settings_books env _

@[simp] theorem unmute_after_books (r : Route) : (s.unmute_after r).books = s.books := by
  unfold unmute_after
  split
  · exact s.emit_unbooked rfl
  · rfl

@[simp] theorem forget_saved_route_books (r : Route) (reason : StopReason) :
    (s.forget_saved_route env r reason).books = s.books := by
  unfold forget_saved_route
  dsimp only
  split
  · exact save_settings_books env _
  · rfl

@[simp] theorem reject_books (peer : DeviceId) (route : UInt32) (reason : StopReason) :
    (s.reject peer route reason).books = s.books := s.send_to_books peer fun _ => rfl

/-- Switching the monitor asks for another keep-alive, whichever way it goes. -/
@[simp] theorem set_monitor_books (enabled : Bool) :
    ∃ monitor, (s.set_monitor env enabled).books = { s.books with monitor }.kept := by
  unfold set_monitor
  dsimp only
  rw [update_keep_alive_books]
  cases enabled with
  | false => exact ⟨false, rfl⟩
  | true =>
      rw [if_pos rfl]
      cases env.monitor_error with
      | none => exact ⟨true, rfl⟩
      | some e => exact ⟨false, congrArg Books.kept (error_notice_books env _ e)⟩

end

variable [Crypto]

section
variable {env : Env} {s₀ : Actor} {event : Event} {l : List Nat} {a : Books} {s t : Actor}

/-- What follows touches no account. -/
theorem deeds_after (h : Deeds env s₀ event l a s.books) (hb : t.books = s.books) :
    Deeds env s₀ event l a t.books := hb ▸ h

/-- What came before touched no account. -/
theorem deeds_before {b : Books} (h : Deeds env s₀ event l t.books b) (hb : t.books = a) :
    Deeds env s₀ event l a b := hb ▸ h

/-- Routes that changed in ways nobody waits for are one deed. -/
theorem deeds_tend {routes : List Route} (h : List.Forall₂ Route.Steady s.routes routes) :
    Deeds env s₀ event [] s.books (s.set_routes routes).books :=
  .of_deed (.tend routes h)

/-- Deeds in both branches are deeds of the branch. -/
theorem deeds_ite {c : Prop} [Decidable c] (ha : Deeds env s₀ event l a s.books)
    (hb : Deeds env s₀ event l a t.books) :
    Deeds env s₀ event l a (if c then s else t).books := by
  split
  · exact ha
  · exact hb

/-- A loop of deeds that take on no caller, by induction on what it runs over. -/
theorem deeds_foldl {α : Type} {f : Actor → α → Actor}
    (h : ∀ s x, Deeds env s₀ event [] s.books (f s x).books) (xs : List α) (s : Actor) :
    Deeds env s₀ event [] s.books (xs.foldl f s).books := by
  induction xs generalizing s with
  | nil => exact .refl _
  | cons x xs ih => exact (h s x).trans (ih (f s x))

end

omit [Crypto] in
/-- Changing one route steadily changes the table steadily. -/
theorem steady_modify_first {routes : List Route} {p : Route → Bool} {f : Route → Route}
    (h : ∀ r : Route, r.Steady (f r)) :
    List.Forall₂ Route.Steady routes (routes.modify_first p f) :=
  List.forall₂_modify_first Route.Steady.refl fun r _ => h r

omit [Crypto] in
theorem steady_map {routes : List Route} {f : Route → Route} (h : ∀ r : Route, r.Steady (f r)) :
    List.Forall₂ Route.Steady routes (routes.map f) :=
  List.forall₂_map_right_iff.2 (List.forall₂_same.2 fun r _ => h r)

omit [Crypto] in
/-- Whether a route keeps running without its device is nobody else's business. -/
theorem steady_keep_running (keep : Bool) (p : Route → Bool) (routes : List Route) :
    List.Forall₂ Route.Steady routes
    (routes.modify_last p fun r => { r with keep_running := keep }) :=
  List.forall₂_modify_last Route.Steady.refl fun _ => ⟨rfl, rfl, rfl, rfl, rfl, rfl, rfl⟩

/-! ## 2. Activating, failing, stopping and pausing

Each of these ends the wait of a caller or cuts a route off its session. Removing the route, telling
its caller and taking its sink away are one deed, so that no account sees the state in between. -/

section
variable (env : Env) (s₀ : Actor) (event : Event) (s : Actor)

omit [Crypto] in
/-- A route that was starting is there, and its caller is told; otherwise nothing happens. -/
theorem activate_route_books (peer : DeviceId) (id : UInt8) :
    (s.activate_route env peer id).books = s.books ∨
      ∃ r, s.books.routes.find? (has_key ⟨peer, id⟩) = some r ∧ r.status = .Starting ∧
        (s.activate_route env peer id).books =
          ({ s.books with
            routes := s.books.routes.modify_first (has_key ⟨peer, id⟩) Route.activated }.tell
              r.started).kept := by
  unfold activate_route
  dsimp only
  split
  · exact .inl rfl
  · next r hr =>
      split
      · exact .inl rfl
      · next hs =>
          have hfound := List.find?_some hr
          have hkey : r.key = ⟨peer, id⟩ := of_decide_eq_true hfound
          refine .inr ⟨r, hr, not_not.1 hs, ?_⟩
          rw [update_keep_alive_books, apply_ite Actor.books, save_started_route_books, ite_self,
            apply_ite Actor.books, answer_route_books, send_to_books _ _ fun _ => rfl]
          unfold Route.started
          rw [hkey]
          split
          · rfl
          · rw [Books.tell_nil]
            rfl

/-- A route that was starting becomes active and its caller hears so; any other is left alone. -/
theorem activate_route_deeds (he : event.readies = true) (peer : DeviceId) (id : UInt8) :
    Deeds env s₀ event [] s.books (s.activate_route env peer id).books := by
  rcases s.activate_route_books env peer id with h | ⟨r, hr, hs, h⟩
  · exact .of_eq h
  · rw [h]
    exact .of_deed (.activate _ r he hr hs)

/-- A route that fails is gone, its caller hears the error and its sink is removed. -/
theorem fail_route_deeds (peer : DeviceId) (id : UInt8) (error : EngineError) :
    Deeds env s₀ event [] s.books (s.fail_route env peer id error).books := by
  unfold fail_route
  split
  · exact .refl _
  · next route rest h =>
      dsimp only
      rw [update_keep_alive_books, error_notice_books, unmute_after_books, answer_route_books,
        apply_ite Actor.books, send_to_books _ _ fun _ => rfl, send_to_books _ _ fun _ => rfl,
        ite_self, release_pipelines_books, Books.tell_tell]
      exact .of_deed (.finish _ route rest error h)

/-- The same for a route that is stopped, whether or not the peer is told. -/
theorem stop_route_by_key_deeds (key : RouteKey) (reason : StopReason) (notify_peer : Bool) :
    Deeds env s₀ event [] s.books (s.stop_route_by_key env key reason notify_peer).books := by
  unfold stop_route_by_key
  split
  · exact .refl _
  · next route rest h =>
      dsimp only
      rw [update_keep_alive_books, apply_ite Actor.books, forget_saved_route_books, ite_self,
        unmute_after_books, answer_route_books, apply_ite Actor.books,
        send_to_books _ _ fun _ => rfl, ite_self, release_pipelines_books, Books.tell_tell]
      exact .of_deed (.finish key route rest .RouteNotFound h)

theorem stop_routes_deeds (keys : List RouteKey) (reason : StopReason) (notify_peer : Bool) :
    Deeds env s₀ event [] s.books (s.stop_routes env keys reason notify_peer).books :=
  deeds_foldl (fun s key => stop_route_by_key_deeds env s₀ event s key reason notify_peer) keys s

/-- All routes with a device, one stop after the other. -/
theorem remove_routes_for_deeds (peer : DeviceId) :
    Deeds env s₀ event [] s.books (s.remove_routes_for env peer).books :=
  stop_routes_deeds env s₀ event s _ _ _

omit [Crypto] in
/-- A route is cut off: its session is gone already, so no sink is left to remove, and a caller
that still waited hears that the device is unreachable. -/
theorem pause_route_books (r : Route) (hc : s.books.conn r.peer = none) :
    (s.pause_route env r).1.books = s.books.tell r.cut_off ∧
      r.CutOff (s.pause_route env r).2 := by
  have hb := s.release_pipelines_books r
  have hplug : s.books.unplugs r = [] := by
    unfold Books.unplugs
    rw [hc]
    cases r.receiver <;> rfl
  rw [hplug, Books.tell_nil] at hb
  unfold pause_route Route.cut_off
  dsimp only
  have hstatus : (s.release_pipelines r).2.status = r.status := rfl
  have hreply : (s.release_pipelines r).2.reply = r.reply := rfl
  cases hs : r.status with
  | Active =>
      rw [hstatus, hs]
      exact ⟨by rw [Books.tell_nil]; exact hb, rfl, rfl, rfl, .inl rfl, (if_pos (.inl hs)).symm⟩
  | Paused =>
      rw [hstatus, hs]
      exact ⟨by rw [Books.tell_nil]; exact hb, rfl, rfl, rfl, .inl hs, (if_pos (.inr hs)).symm⟩
  | _ =>
      rw [hstatus, hs]
      dsimp only
      have hn : ¬ (r.status = .Active ∨ r.status = .Paused) := by
        rw [hs]
        exact nofun
      have hanswer : ((s.release_pipelines r).1.answer_route (s.release_pipelines r).2
          (.error .Unreachable)).books = s.books.tell (r.answered (.error .Unreachable)) := by
        rw [answer_route_books, hb]
        rfl
      split
      · exact ⟨hanswer, rfl, rfl, rfl, .inl rfl, (if_neg hn).symm⟩
      · exact ⟨hanswer, rfl, rfl, rfl, .inr rfl, (if_neg hn).symm⟩

omit [Crypto] in
/-- Route by route, by induction on the table; the routes of other devices are skipped. -/
theorem pause_each_books (peer : DeviceId) (hc : s.books.conn peer = none) (routes : List Route) :
    ∃ out, (pause_each env peer s routes).1.books = s.books.tell out ∧
      CutsOff peer routes (pause_each env peer s routes).2 out := by
  induction routes generalizing s with
  | nil => exact ⟨[], (s.books.tell_nil).symm, .nil⟩
  | cons r routes ih =>
      rw [pause_each]
      dsimp only
      by_cases hp : r.peer = peer
      · rw [if_pos hp]
        obtain ⟨hb, hcut⟩ := s.pause_route_books env r (hp ▸ hc)
        obtain ⟨out, hout, hrest⟩ := ih (s.pause_route env r).1 (by rw [hb]; exact hc)
        refine ⟨r.cut_off ++ out, ?_, .cut hp hcut hrest⟩
        rw [hout, hb, Books.tell_tell]
      · rw [if_neg hp]
        obtain ⟨out, hout, hrest⟩ := ih s hc
        exact ⟨out, hout, .skip hp hrest⟩

/-- The table after the session went down is one deed, with the keep-alive at its end. -/
theorem pause_routes_for_deeds (peer : DeviceId) (hc : s.books.conn peer = none) :
    Deeds env s₀ event [] s.books (s.pause_routes_for env peer).books := by
  unfold pause_routes_for
  dsimp only
  obtain ⟨out, hout, hcut⟩ := s.pause_each_books env peer hc s.routes
  rw [update_keep_alive_books, set_routes_books, hout]
  exact .of_deed (.pause peer _ out hc hcut)

end

/-! ## 3. Starting and resuming

A request takes on its caller: it is answered at once, or the route it adds holds it. Resuming asks
again for routes that were paused, and these carry the callers they had. The routes set aside while
that goes on are a column of the books of their own, so that none is lost between two requests. -/

omit [Crypto] in
/-- The books do not see what a session learns. -/
theorem session_books {s : Actor} {peer : DeviceId} {old new : Session}
    (h : s.sessions.get peer = some old) (hn : new.conn_id = old.conn_id) :
    ({ s with sessions := s.sessions.insert peer new } : Actor).books = s.books := by
  have hconn : (fun id => ((s.sessions.insert peer new).get id).map Session.conn_id) =
      s.books.conn := by
    funext id
    rw [Table.get_insert]
    by_cases hid : id = peer
    · rw [if_pos hid, Option.map_some, hn, hid]
      exact (congrArg (Option.map Session.conn_id) h).symm
    · rw [if_neg hid]
      rfl
  unfold books at hconn ⊢
  rw [hconn]

section
variable (env : Env) (s₀ : Actor) (event : Event) (s : Actor)

/-- The feed that makes way is stopped like any route. -/
theorem make_room_deeds (feed : Option RouteKey) :
    Deeds env s₀ event [] s.books (s.make_room env feed).books := by
  unfold make_room
  split
  · exact stop_route_by_key_deeds env s₀ event s _ _ _
  · exact .refl _

omit [Crypto] in
/-- A request either answers its caller with an error or adds one route that asks, on a session
that stands. -/
theorem request_route_books (peer : DeviceId) (kind : RouteKind) (replace : Bool) (reply : Reply)
    (fallback : QualityFallback) :
    (∃ e, (s.request_route env peer kind replace reply fallback).books =
        s.books.tell (reply.answered (.error e))) ∨
      ∃ conn_id r, s.books.conn peer = some conn_id ∧ r.Asked peer kind reply ∧
        (s.request_route env peer kind replace reply fallback).books =
          { s.books with routes := s.routes ++ [r] } := by
  unfold request_route
  dsimp only
  split
  · exact .inl ⟨_, s.answer_books reply _⟩
  · next session hs =>
      have hc : s.books.conn peer = some session.conn_id :=
        congrArg (Option.map Session.conn_id) hs
      have hsession := session_books hs (show session.alloc_route.1.conn_id = _ from rfl)
      refine .inr ⟨session.conn_id, ?route, hc, ?asked, ?books⟩
      case books =>
        rw [set_routes_books, emit_unbooked _ rfl, hsession]
        rfl
      case asked => exact ⟨rfl, rfl, rfl, rfl, rfl, rfl⟩

/-- Either way one deed, which takes on exactly the caller that the reply names. -/
theorem request_route_deeds {peer : DeviceId} {kind : RouteKind} (replace : Bool) {reply : Reply}
    (fallback : QualityFallback)
    (he : ∀ caller, reply = .caller caller →
      ∃ replace, event = .Command (.StartRoute peer kind replace caller)) :
    Deeds env s₀ event reply.callers s.books
      (s.request_route env peer kind replace reply fallback).books := by
  rcases s.request_route_books env peer kind replace reply fallback with
    ⟨e, h⟩ | ⟨conn_id, r, hc, hr, h⟩
  · rw [h]
    exact .of_deed (.answer reply _ nofun nofun)
  · rw [h]
    exact .of_deed (.request peer kind conn_id reply r hc hr he)

/-- All of starting a route: the early answers, making room and the request. -/
theorem start_route_keeping_deeds {peer : DeviceId} {kind : RouteKind} (replace : Bool)
    {reply : Reply} (fallback : QualityFallback)
    (he : ∀ caller, reply = .caller caller →
      ∃ replace, event = .Command (.StartRoute peer kind replace caller)) :
    Deeds env s₀ event reply.callers s.books
      (s.start_route_keeping env peer kind replace reply fallback).books := by
  have hstarts (caller : Nat) (hc : reply = .caller caller) : event.starts = true := by
    obtain ⟨replace, h⟩ := he caller hc
    rw [h]
    rfl
  have hanswer (result : Except EngineError Answer) (h : ∀ report, result ≠ .ok (.Report report)) :
      Deeds env s₀ event reply.callers s.books (s.answer reply result).books := by
    rw [answer_books]
    exact .of_deed (.answer reply result h fun caller _ hc _ => hstarts caller hc)
  unfold start_route_keeping
  split
  · exact hanswer _ nofun
  · split
    · exact hanswer _ nofun
    · dsimp only
      split
      · exact hanswer _ nofun
      · exact (make_room_deeds env s₀ event s _).follow
          (request_route_deeds env s₀ event _ replace fallback he)

/-- The engine starts a route itself: nobody waits for it. -/
theorem start_route_itself_deeds (peer : DeviceId) (kind : RouteKind) (replace : Bool)
    (fallback : QualityFallback) :
    Deeds env s₀ event [] s.books
      (s.start_route_keeping env peer kind replace .dropped fallback).books :=
  @start_route_keeping_deeds _ env s₀ event s peer kind replace .dropped fallback
    fun _ h => nomatch h

omit [Crypto] in
/-- A route that replaces none is asked for, or nothing comes of it. -/
theorem start_route_dropped_books (peer : DeviceId) (kind : RouteKind) :
    (s.start_route env peer kind false .dropped).books = s.books ∨
      ∃ conn_id r, s.books.conn peer = some conn_id ∧ r.Asked peer kind .dropped ∧
        (s.start_route env peer kind false .dropped).books =
          { s.books with routes := s.routes ++ [r] } := by
  unfold start_route start_route_keeping
  split
  · exact .inl rfl
  · split
    · exact .inl rfl
    · dsimp only
      by_cases hfeed : (s.feed_in_the_way peer kind).isSome = true
      · rw [if_pos ⟨hfeed, rfl⟩]
        exact .inl rfl
      · rw [if_neg fun h => hfeed h.1, Option.not_isSome_iff_eq_none.1 hfeed]
        rcases s.request_route_books env peer kind false .dropped .default with ⟨e, h⟩ | h
        · rw [show Reply.answered .dropped (.error e) = [] from rfl, Books.tell_nil] at h
          exact .inl h
        · exact .inr h

/-- The books while paused routes are asked for again. -/
def resuming_books (st : Actor × List Route) : Books := { st.1.books with aside := st.2 }

/-- One kind of route is asked for again, and the paused one is put back if that fails. -/
theorem resume_kind_deeds (peer : DeviceId) (st : Actor × List Route) (kind : RouteKind) :
    Deeds env s₀ event [] (resuming_books st) (resuming_books (resume_kind env peer st kind)) := by
  obtain ⟨s, paused⟩ := st
  have hstart : Deeds env s₀ event [] (resuming_books (s, paused))
      (resuming_books (s.start_route env peer kind false .dropped, paused)) := by
    unfold resuming_books
    dsimp only
    rcases s.start_route_dropped_books env peer kind with h | ⟨conn_id, r, hc, hr, h⟩
    · rw [h]
      exact .refl _
    · rw [h]
      exact .of_deed (.request peer kind conn_id .dropped r hc hr nofun)
  unfold resume_kind
  dsimp only
  generalize s.start_route env peer kind false .dropped = s₁ at hstart ⊢
  split
  · exact hstart.tail (.tend _ (steady_keep_running _ _ _))
  · split
    · next route rest h => exact hstart.tail (.put_back kind route rest h)
    · exact hstart

/-- The whole of resuming: set aside, ask again kind by kind, discard what was asked for. -/
theorem resume_routes_deeds (peer : DeviceId) :
    Deeds env s₀ event [] s.books (s.resume_routes env peer).books := by
  have heach (kinds : List RouteKind) (st : Actor × List Route) :
      Deeds env s₀ event [] (resuming_books st)
        (resuming_books (kinds.foldl (resume_kind env peer) st)) := by
    induction kinds generalizing st with
    | nil => exact .refl _
    | cons kind kinds ih =>
        exact (resume_kind_deeds env s₀ event peer st kind).trans
          (ih (resume_kind env peer st kind))
  unfold resume_routes
  dsimp only
  have haside : Deeds env s₀ event [] s.books (resuming_books
      (s.set_routes (s.routes.filter fun r =>
          !(r.peer = peer ∧ r.status = .Paused ∧ r.requested_locally)),
        s.routes.filter fun r => r.peer = peer ∧ r.status = .Paused ∧ r.requested_locally)) :=
    .of_deed (.set_aside peer rfl)
  exact (haside.trans (heach _ _)).tail .discard

end

/-! ## 4. Requests and answers

What a peer asks of this device and what it answers to a request of ours. A route that a peer asked
for has no caller here, so that accepting it takes on nobody. -/

section
variable (env : Env) (s₀ : Actor) (event : Event) (s : Actor)

/-- Accepting a route prepares it, and activates it if its pipeline is ready at once. -/
theorem accept_route_prepared (peer : DeviceId) (req : RouteRequest) (kind : RouteKind) :
    ∃ t : Actor, (∀ s₀ event, Deeds env s₀ event [] s.books t.books) ∧
      ((s.accept_route env peer req kind).books = t.books ∨
        (s.accept_route env peer req kind).books =
          (t.activate_route env peer req.route.toUInt8).books) := by
  unfold accept_route
  dsimp only
  -- Dropping subscriptions is about encoders, which the books do not hold.
  have hdrop (routes : List Route) (s : Actor) :
      (routes.foldl (fun s r => s.drop_subscription r.subscription) s).books = s.books := by
    induction routes generalizing s with
    | nil => rfl
    | cons r routes ih => rw [List.foldl_cons, ih, drop_subscription_books]
  have hb := hdrop (s.routes.filter (replaced_by peer req.route.toUInt8 kind)) s
  generalize List.foldl _ s _ = s₁ at hb ⊢
  have hmade (s₀ : Actor) (event : Event) : Deeds env s₀ event [] s.books
      (s₁.set_routes (s₁.routes.filter fun r =>
        !replaced_by peer req.route.toUInt8 kind r)).books := by
    rw [set_routes_books, ← hb]
    exact .of_deed (.supplant peer req.route.toUInt8 kind)
  generalize s₁.set_routes _ = s₂ at hmade ⊢
  split
  · exact ⟨s₂, hmade, .inl rfl⟩
  · obtain ⟨t, r₁, result, he, ht, hr⟩ := s₂.begin_pipelines_booked env
      { new_route peer req.route.toUInt8 kind false s₂.settings.output.volume with
        profile := some (s.accepted_profile peer req kind)
        deadline := some (env.now + PIPELINE_START_DEADLINE) }
    rw [he]
    cases result with
    | ok ready =>
        dsimp only
        refine ⟨t.set_routes (t.routes ++ [r₁]), fun s₀ event => ?_, ?_⟩
        · refine (hmade s₀ event).tail (?_ : Deed env s₀ event [] s₂.books _)
          rw [set_routes_books, show t.routes = t.books.routes from rfl, ht]
          exact .take_on peer req.route.toUInt8 kind s₂.settings.output.volume r₁
            ⟨hr.peer, hr.id, hr.kind, hr.status, hr.requested_locally, hr.receiver, hr.reply⟩
        · split
          · exact .inr rfl
          · exact .inl rfl
    -- The pipeline does not begin: the request is rejected, after the paused routes have gone.
    | error e =>
        refine ⟨s₂, hmade, .inl ?_⟩
        dsimp only
        rw [error_notice_books, reject_books, drop_subscription_books, ht]

/-- A peer's request is accepted: its paused routes of that kind make way, and the new one
starts. -/
theorem accept_route_deeds (he : event.readies = true) (peer : DeviceId) (req : RouteRequest)
    (kind : RouteKind) :
    Deeds env s₀ event [] s.books (s.accept_route env peer req kind).books := by
  obtain ⟨t, hprepared, h | h⟩ := s.accept_route_prepared env peer req kind
  · rw [h]
    exact hprepared s₀ event
  · rw [h]
    exact (hprepared s₀ event).trans (activate_route_deeds env s₀ event t he peer _)

/-- Accepted, refused or put before the user; only the first touches the routes. -/
theorem decide_request_deeds (he : event.readies = true) (peer : DeviceId) (req : RouteRequest)
    (kind : RouteKind) :
    Deeds env s₀ event [] s.books (s.decide_request env peer req kind).books := by
  unfold decide_request
  split
  · exact accept_route_deeds env s₀ event s he peer req kind
  · rw [reject_books]
    exact .refl _
  · split
    · exact accept_route_deeds env s₀ event s he peer req kind
    · exact .refl _

/-- The checks that come before the decision refuse by a message, which is not booked. -/
theorem on_route_request_deeds (he : event.readies = true) (peer : DeviceId)
    (req : RouteRequest) :
    Deeds env s₀ event [] s.books (s.on_route_request env peer req).books := by
  unfold on_route_request
  split
  · rw [reject_books]
    exact .refl _
  · split
    · dsimp only
      rw [reject_books, apply_ite Actor.books, error_notice_books, ite_self]
      exact .refl _
    · dsimp only
      split
      · rw [reject_books]
        exact .refl _
      · exact (make_room_deeds env s₀ event s _).trans
          (decide_request_deeds env s₀ event _ he peer req _)

/-- The user answered: the prompt is gone and the request is accepted or refused. -/
theorem respond_request_deeds (he : event.readies = true) (request_id : Nat)
    (accept remember : Bool) :
    Deeds env s₀ event [] s.books (s.respond_request env request_id accept remember).books := by
  unfold respond_request
  split
  · exact .refl _
  · next pending _ =>
      dsimp only
      generalize hs : (if remember = true then _ else _ : Actor) = t
      have hb : t.books = s.books := by
        rw [← hs]
        split <;> rfl
      rw [← hb]
      refine deeds_ite (accept_route_deeds env s₀ event t he _ _ _) ?_
      rw [reject_books]
      exact .refl _

/-- Routes that the permissions no longer allow are stopped. -/
theorem enforce_permissions_deeds (peer : DeviceId) :
    Deeds env s₀ event [] s.books (s.enforce_permissions env peer).books := by
  unfold enforce_permissions
  split
  · exact .refl _
  · exact stop_routes_deeds env s₀ event s _ _ _

/-- A route that the peer accepts is prepared, and activated if its pipeline is ready at once. -/
theorem on_route_accept_prepared (peer : DeviceId) (acc : RouteAccept) :
    ∃ t : Actor, (∀ event, Deeds env s event [] s.books t.books) ∧
      ((s.on_route_accept env peer acc).books = t.books ∨
        ∃ id, (s.on_route_accept env peer acc).books = (t.activate_route env peer id).books) := by
  unfold on_route_accept
  dsimp only
  split
  · exact ⟨s, fun _ => .refl _, .inl rfl⟩
  · next route rest h =>
      obtain ⟨t, r₁, result, he, ht, hr⟩ := (s.set_routes rest).begin_pipelines_booked env
        { route with
          profile := (acc.profile.map sanitize_profile).or route.profile
          status := .Starting
          deadline := some (env.now + PIPELINE_START_DEADLINE) }
      rw [he]
      cases result with
      | ok ready =>
          dsimp only
          refine ⟨t.set_routes (t.routes ++ [r₁]), fun event => ?_, ?_⟩
          · rw [set_routes_books, show t.routes = t.books.routes from rfl, ht]
            exact .of_deed (.accept _ route r₁ rest h
              ⟨hr.peer, hr.id, hr.kind, hr.status, hr.requested_locally, hr.receiver, hr.reply⟩)
          · split
            · exact .inr ⟨r₁.id, rfl⟩
            · exact .inl rfl
      | error e =>
          have hanswered : r₁.answered (.error e) = route.answered (.error e) := by
            unfold Route.answered
            rw [hr.reply]
          refine ⟨_, fun event => ?_, .inl rfl⟩
          dsimp only
          rw [error_notice_books, answer_route_books, send_to_books _ _ fun _ => rfl,
            drop_subscription_books, ht, hanswered]
          exact .of_deed (.lose _ route rest e rfl h)

/-- The peer accepted ours: the route starts, or is lost if it cannot start here. -/
theorem on_route_accept_deeds (he : event.readies = true) (peer : DeviceId)
    (acc : RouteAccept) :
    Deeds env s event [] s.books (s.on_route_accept env peer acc).books := by
  obtain ⟨t, hprepared, h | ⟨id, h⟩⟩ := s.on_route_accept_prepared env peer acc
  · rw [h]
    exact hprepared event
  · rw [h]
    exact (hprepared event).trans (activate_route_deeds env s event t he peer id)

/-- The peer refused ours: the route is gone and its caller hears why. The deed names the
connection, since only the device that was asked may refuse. -/
theorem on_route_reject_deeds {conn_id : Nat} {peer : DeviceId} (rej : RouteReject)
    (hc : s.conn_index.get conn_id = some peer) :
    Deeds env s (.Control conn_id (.RouteReject rej)) [] s.books
      (s.on_route_reject env peer rej).books := by
  unfold on_route_reject
  dsimp only
  split
  · exact .refl _
  · next route rest h =>
      rw [error_notice_books, answer_route_books, drop_subscription_books]
      exact .of_deed (.refuse conn_id peer rej route rest _ rfl rfl hc h)

end

/-! ## 5. Profiles

A new profile closes the pipeline and opens another. The route keeps its caller and its status, and
loses the sink that the old pipeline had. -/

omit [Crypto] in
/-- A profile is nothing that anyone waits for. -/
theorem with_profile_steady (r : Route) (next : StreamProfile) : r.Steady (r.with_profile next) :=
  ⟨rfl, rfl, rfl, rfl, rfl, rfl, rfl⟩

section
variable (env : Env) (s₀ : Actor) (event : Event) (s : Actor)

/-- The pipeline is released and begun again; if it cannot be begun, the route fails. -/
theorem rebuild_route_deeds (key : RouteKey) :
    Deeds env s₀ event [] s.books (s.rebuild_route env key).books := by
  unfold rebuild_route
  split
  · exact .refl _
  · next route rest h =>
      dsimp only
      have hrelease := (s.set_routes rest).release_pipelines_books route
      have hsteady := (s.set_routes rest).release_pipelines_steady route
      generalize (s.set_routes rest).release_pipelines route = released at hrelease hsteady ⊢
      obtain ⟨t, r₁, result, he, ht, hr⟩ := released.1.begin_pipelines_booked env released.2
      rw [he]
      have hput : Deeds env s₀ event [] s.books (t.set_routes (t.routes ++ [r₁])).books := by
        rw [set_routes_books, show t.routes = t.books.routes from rfl, ht, hrelease]
        exact .of_deed (.rebuild key route r₁ rest h (hsteady.trans hr))
      cases result with
      | ok ready => exact hput
      | error e => exact hput.trans (fail_route_deeds env s₀ event _ _ _ e)

/-- The new profile is stored, and the pipeline of a running route rebuilt if the encoding
changed. -/
theorem apply_profile_deeds (key : RouteKey) (next : StreamProfile) :
    Deeds env s₀ event [] s.books (s.apply_profile env key next).books := by
  unfold apply_profile
  split
  · exact .refl _
  · dsimp only
    have htend : Deeds env s₀ event [] s.books (s.set_routes
        (s.routes.modify_first (has_key key)
          fun r => r.with_profile next)).update_mic_groups.books := by
      rw [update_mic_groups_books]
      exact deeds_tend (steady_modify_first fun r => with_profile_steady r next)
    exact deeds_ite htend (htend.trans (rebuild_route_deeds env s₀ event _ key))

/-- A route whose peer cannot change a running stream is stopped and, if this device had asked
for it, asked for again with no caller. -/
theorem restart_route_deeds (key : RouteKey) :
    Deeds env s₀ event [] s.books (s.restart_route env key).books := by
  unfold restart_route
  split
  · exact .refl _
  · next r _ =>
      dsimp only
      refine deeds_ite (.refl _) ?_
      have hstop := stop_route_by_key_deeds env s₀ event s key .Superseded true
      refine deeds_ite ?_ hstop
      have hstart := hstop.follow
        (start_route_itself_deeds env s₀ event _ r.peer r.kind false r.quality_fallback)
      exact hstart.tail (.tend _ (steady_keep_running _ _ _))

theorem reset_fallback_deeds (r : Route) :
    Deeds env s₀ event [] s.books (s.reset_fallback r).books := by
  unfold reset_fallback
  refine deeds_ite (.refl _) (deeds_tend (steady_modify_first fun q => ?_))
  exact ⟨rfl, rfl, rfl, rfl, rfl, rfl, rfl⟩

/-- By the branch that reconfiguring takes: nothing, a restart, a new profile, an update for the
peer. -/
theorem reconfigure_route_deeds (key : RouteKey) :
    Deeds env s₀ event [] s.books (s.reconfigure_route env key).books := by
  unfold reconfigure_route
  split
  · exact .refl _
  · next r _ =>
      split
      · next session current _ _ =>
          dsimp only
          have hreset := reset_fallback_deeds env s₀ event s r
          refine deeds_ite hreset (deeds_ite ?_ ?_)
          · exact hreset.trans (restart_route_deeds env s₀ event _ key)
          · have happly := hreset.trans (apply_profile_deeds env s₀ event _ key
              (next_profile r.kind r.requested_locally current (s.wanted_profile r)))
            refine deeds_ite (deeds_after happly ?_) happly
            exact send_to_books _ _ fun _ => rfl
      · exact .refl _

theorem reconfigure_each_deeds (keys : List RouteKey) :
    Deeds env s₀ event [] s.books (s.reconfigure_each env keys).books :=
  deeds_foldl (fun s key => reconfigure_route_deeds env s₀ event s key) keys s

theorem on_route_update_deeds (peer : DeviceId) (update : RouteUpdate) :
    Deeds env s₀ event [] s.books (s.on_route_update env peer update).books := by
  unfold on_route_update
  dsimp only
  split
  · split
    · exact deeds_ite (apply_profile_deeds env s₀ event s _ _) (.refl _)
    · exact .refl _
  · exact .refl _

/-- The fallback of every route is looked at, and the routes that moved are reconfigured. -/
theorem update_quality_fallback_deeds :
    Deeds env s₀ event [] s.books (s.update_quality_fallback env).books := by
  unfold update_quality_fallback
  dsimp only
  refine .trans (deeds_tend (steady_map fun r => ?_)) (deeds_foldl (fun s r => ?_) _ _)
  · split
    · exact ⟨rfl, rfl, rfl, rfl, rfl, rfl, rfl⟩
    · exact .refl r
  · rw [notice_books]
    exact reconfigure_route_deeds env s₀ event s r.key

end

/-! ## 6. Local audio

Encoders and playbacks become ready or fail, devices change, the virtual microphone starts its own
route. `on_receiver_ready` is where a sink is added, and it is the only place. -/

section
variable (env : Env) (s₀ : Actor) (event : Event) (s : Actor)

theorem set_mic_muted_deeds (muted : Bool) :
    Deeds env s₀ event [] s.books (s.set_mic_muted muted).books := by
  unfold set_mic_muted
  refine .of_deed (.tend _ (steady_map fun r => ?_))
  split
  · exact ⟨rfl, rfl, rfl, rfl, rfl, rfl, rfl⟩
  · exact .refl r

theorem set_monitor_deeds (enabled : Bool) :
    Deeds env s₀ event [] s.books (s.set_monitor env enabled).books := by
  obtain ⟨monitor, h⟩ := s.set_monitor_books env enabled
  rw [h]
  exact .of_deed (.watch monitor)

/-- The routes that waited for an encoder get their subscriptions, one after the other. -/
theorem subscribe_waiting_deeds (key : EncoderKey) (waiting : List RouteKey)
    (sender : RunningSender) :
    Deeds env s₀ event [] s.books (subscribe_waiting key s waiting sender).1.books := by
  induction waiting generalizing s sender with
  | nil => exact .refl _
  | cons k waiting ih =>
      unfold subscribe_waiting
      dsimp only
      split
      · split
        · refine .trans (deeds_tend (steady_modify_first fun r => ?_)) (ih _ _)
          exact ⟨rfl, rfl, rfl, rfl, rfl, rfl, rfl⟩
        · exact ih s sender
      · exact ih s sender

/-- An encoder is ready: the routes that waited for it become active, or fail with it. -/
theorem on_sender_ready_deeds (he : event.readies = true) (key : EncoderKey) (start_id : Nat)
    (result : Except EngineError Unit) :
    Deeds env s₀ event [] s.books (s.on_sender_ready env key start_id result).books := by
  unfold on_sender_ready
  split
  · next current waiting group _ =>
      dsimp only
      refine deeds_ite (.refl _) ?_
      cases result with
      | ok u =>
          dsimp only
          rw [prune_encoders_books]
          have hlisten :=
            subscribe_waiting_deeds env s₀ event (s.set_encoders (s.encoders.erase key))
            key waiting { start_id, controls := group, subscribers := [], next_subscription := 0 }
          refine hlisten.follow (deeds_before
            (deeds_foldl
              (fun s (k : RouteKey) => activate_route_deeds env s₀ event s he k.peer k.id)
              _ _) ?_)
          exact update_mic_groups_books _
      | error error =>
          dsimp only
          refine deeds_foldl (fun s k => ?_) waiting (s.set_encoders (s.encoders.erase key))
          exact deeds_ite (fail_route_deeds env s₀ event s k.peer k.id error) (.refl _)
  · exact .refl _

/-- A playback is ready: its sink is added to the connection that the session has now, and the
route becomes active. If it failed, the route fails. -/
theorem on_receiver_ready_deeds (peer : DeviceId) (id : UInt8) (start_id : Nat)
    (result : Except EngineError Unit) :
    Deeds env s (.ReceiverReady peer id start_id result) [] s.books
      (s.on_receiver_ready env peer id start_id result).books := by
  unfold on_receiver_ready
  dsimp only
  split
  · next hany =>
      cases result with
      | error error => exact fail_route_deeds env s _ s peer id error
      | ok u =>
          dsimp only
          split
          · exact deeds_tend (steady_modify_first fun r => ⟨rfl, rfl, rfl, rfl, rfl, rfl, rfl⟩)
          · next session hs =>
              obtain ⟨r, hr⟩ :=
                Option.isSome_iff_exists.1 (List.find?_isSome.2 (List.any_eq_true.1 hany))
              refine .follow (.of_deed ?_) (activate_route_deeds env s _ _ rfl peer id)
              rw [set_routes_books, emit_books]
              exact .receive peer id start_id session.conn_id r rfl rfl
                (congrArg (Option.map Session.conn_id) hs) hr
  · exact .refl _

/-- A route moves to the devices there are now, and loses the sink of the old playback. -/
theorem reopen_route_audio_deeds (key : RouteKey) :
    Deeds env s₀ event [] s.books (s.reopen_route_audio env key).1.books := by
  unfold reopen_route_audio
  split
  · exact .refl _
  · next route h =>
      dsimp only
      have hclose := s.close_capture_books route
      generalize s.close_capture route = s₁ at hclose ⊢
      have hrelease := s₁.release_pipelines_books route
      have hsteady := s₁.release_pipelines_steady route
      generalize s₁.release_pipelines route = released at hrelease hsteady ⊢
      obtain ⟨t, r₁, result, he, ht, hr⟩ := released.1.begin_pipelines_booked env released.2
      rw [he]
      have hput : Deeds env s₀ event [] s.books
          (t.set_routes (t.routes.modify_first (has_key key) fun _ => r₁)).books := by
        rw [set_routes_books, show t.routes = t.books.routes from rfl, ht, hrelease, hclose]
        exact .of_deed (.reopen key route r₁ h (hsteady.trans hr))
      cases result with
      | ok ready => exact hput
      | error e =>
          refine hput.trans ?_
          rw [← error_notice_books env _ e]
          exact stop_route_by_key_deeds env s₀ event _ key _ _

theorem reopen_on_default_device_deeds (key : RouteKey) :
    Deeds env s₀ event [] s.books (s.reopen_on_default_device env key).1.books := by
  unfold reopen_on_default_device
  split
  · exact .refl _
  · dsimp only
    split
    · exact .refl _
    · split
      · exact .refl _
      · exact deeds_before (reopen_route_audio_deeds env s₀ event _ key) rfl

theorem on_audio_failed_deeds (key : RouteKey) (error : EngineError) :
    Deeds env s₀ event [] s.books (s.on_audio_failed env key error).books := by
  have hreopen := reopen_on_default_device_deeds env s₀ event s key
  unfold on_audio_failed
  dsimp only
  refine deeds_ite hreopen (hreopen.trans ?_)
  rw [← error_notice_books env _ error]
  exact stop_route_by_key_deeds env s₀ event _ key _ _

/-- One of the routes of an encoder that failed: reopened on the default device, or stopped. -/
theorem encoder_failed_for_deeds (error : EngineError) (st : Actor × Bool) (k : RouteKey) :
    Deeds env s₀ event [] st.1.books (encoder_failed_for env error st k).1.books := by
  have hreopen := reopen_on_default_device_deeds env s₀ event st.1 k
  unfold encoder_failed_for
  dsimp only
  rw [apply_ite Prod.fst]
  refine deeds_ite hreopen (hreopen.follow (deeds_before
    (stop_route_by_key_deeds env s₀ event _ k .AudioDeviceLost true) ?_))
  rw [apply_ite Actor.books, error_notice_books, ite_self]

theorem on_encoder_failed_deeds (key : EncoderKey) (error : EngineError) :
    Deeds env s₀ event [] s.books (s.on_encoder_failed env key error).books := by
  have hrun (affected : List RouteKey) (st : Actor × Bool) :
      Deeds env s₀ event [] st.1.books
        (affected.foldl (encoder_failed_for env error) st).1.books := by
    induction affected generalizing st with
    | nil => exact .refl _
    | cons k affected ih => exact (encoder_failed_for_deeds env s₀ event error st k).trans (ih _)
  unfold on_encoder_failed
  dsimp only
  exact deeds_before (hrun _ (s.close_encoder key, false)) (s.close_encoder_books key)

/-- The routes on the changed devices are reopened one by one. -/
theorem on_audio_devices_changed_deeds (input_changed output_changed : Bool) :
    Deeds env s₀ event [] s.books
      (s.on_audio_devices_changed env input_changed output_changed).books := by
  have hmove (keys : List RouteKey) (s : Actor) : Deeds env s₀ event [] s.books
      (keys.foldl (fun s k => (s.reopen_route_audio env k).1) s).books :=
    deeds_foldl (fun s k => reopen_route_audio_deeds env s₀ event s k) keys s
  unfold on_audio_devices_changed
  dsimp only
  exact deeds_ite (.refl _)
    (deeds_ite ((hmove _ s).trans (set_monitor_deeds env s₀ event _ true)) (hmove _ s))

omit [Crypto] in
@[simp] theorem remember_mic_peer_books : (s.remember_mic_peer env).books = s.books := by
  unfold remember_mic_peer
  split
  · rfl
  · dsimp only
    split
    · rfl
    · exact save_settings_books env _

/-- The microphone that a program asked for is started with no caller to answer. -/
theorem auto_start_mic_deeds :
    Deeds env s₀ event [] s.books (s.auto_start_mic env).1.books := by
  unfold auto_start_mic
  split
  · exact .refl _
  · split
    · exact .refl _
    · next peer _ =>
        exact deeds_after (start_route_itself_deeds env s₀ event s peer .ReceiveMicToVirtualMic
          false .default) (notice_books _ _)

theorem check_virtual_mic_use_deeds :
    Deeds env s₀ event [] s.books (s.check_virtual_mic_use env).books := by
  unfold check_virtual_mic_use
  dsimp only
  rw [← s.remember_mic_peer_books env]
  generalize s.remember_mic_peer env = s
  have hset (la : LocalAudio) :
      Deeds env s₀ event [] s.books ({ s with local_audio := la } : Actor).books := .refl _
  refine deeds_ite (hset _) (deeds_ite (hset _) (deeds_ite (.refl _) (deeds_ite ?_ ?_)))
  · refine deeds_ite (hset _) (deeds_ite (hset _) ?_)
    exact deeds_before (deeds_after (auto_start_mic_deeds env s₀ event _) rfl) rfl
  · split
    · exact hset _
    · exact deeds_ite (deeds_before (stop_route_by_key_deeds env s₀ event _ _ _ _) rfl) (hset _)

omit [Crypto] in
theorem check_capture_health_books : (s.check_capture_health env).books = s.books := by
  unfold check_capture_health
  dsimp only
  split
  · rfl
  · exact notice_books _ _
  · rfl

end

end Actor

end SoundPush
