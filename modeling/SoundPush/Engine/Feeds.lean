/-
`Feeds` -- who may feed the virtual microphone.

A request for the virtual microphone is refused, or takes the place of the route
that has it, when it arrives. Whether a prompt is answered later, or the peer that
has it asks again under another id, is not looked at. `one_feed` says that nothing
else lets a second feed in.

A feed is counted in whatever phase it is, and `Board.OneFeed` bounds the count
through the acts of one event. It also says whose the routes are that a reconnect
has set aside, since one of them may be a feed and come back. The case that carries
the proof is a request that is admitted (`no_feed_of_admitted`): it takes the place
of the feed it found, or finds none, and the condition `admits_alone` is exactly
what is needed between the arrival of the request and its admission.
-/
import SoundPush.Engine.Dispatch
import SoundPush.Engine.Disconnect

set_option autoImplicit false

namespace SoundPush

/-! ## 1. What a second feed needs -/

/-- A route for the virtual microphone, in whatever phase. -/
def Route.is_feed (r : Route) : Bool := r.kind == .ReceiveMicToVirtualMic

theorem Route.is_feed_iff {r : Route} : r.is_feed = true ↔ r.kind = .ReceiveMicToVirtualMic :=
  beq_iff_eq

theorem Route.is_feed_of_feeds {r : Route} (h : r.feeds = true) : r.is_feed = true :=
  Route.is_feed_iff.2 (of_decide_eq_true h).1

theorem Route.feeds_of_is_feed {r : Route} (h : r.is_feed = true) (hs : r.status ≠ .Stopped) :
    r.feeds = true :=
  decide_eq_true ⟨Route.is_feed_iff.1 h, hs⟩

namespace Actor

/-- A request for the virtual microphone is admitted beside no feed but those that it replaces, or
that are in its way when it arrives. -/
def admits_alone (env : Env) (s : Actor) (event : Event) : Prop :=
  ∀ peer req, s.consents env event peer req .ReceiveMicToVirtualMic →
    ∀ r ∈ s.routes, r.feeds = true →
      r.key = ⟨peer, req.route.toUInt8⟩ ∨
        replaced_by peer req.route.toUInt8 .ReceiveMicToVirtualMic r = true ∨
        (r.peer ≠ peer ∧ ∃ conn_id, event = .Control conn_id (.RouteRequest req))

/-- The virtual microphone is to be taken from a route of another device. -/
def takes_feed (env : Env) (s : Actor) (event : Event) (peer : DeviceId) : Prop :=
  (∃ caller, event = .Command (.StartRoute peer .ReceiveMicToVirtualMic true caller)) ∨
    ∃ conn_id req, event = .Control conn_id (.RouteRequest req) ∧
      s.consents env event peer req .ReceiveMicToVirtualMic

/-- The route it is taken from has a key of its own. -/
def takes_own (env : Env) (s : Actor) (event : Event) : Prop :=
  ∀ peer key, s.takes_feed env event peer → s.virtual_mic_feed (some peer) = some key →
    ∀ r ∈ s.routes, r.key = key → r.is_feed = true

end Actor

/-! ## 2. Acts -/

/-- The board while `event` is handled, where `l` are the peers it may ask for routes: there is one
feed at most, and routes that are set aside are those of the device that connected. -/
structure Board.OneFeed [Crypto] (env : Env) (s₀ : Actor) (event : Event) (l : List DeviceId)
    (b : Board) : Prop where
  running : ∀ r ∈ b.routes, r.status ≠ .Stopped
  one : b.routes.countP Route.is_feed ≤ 1
  paused : ∀ r ∈ b.aside, r.status = .Paused
  aside : ∀ r ∈ b.aside, r.peer ∈ l ∧ ∃ est, s₀.installs env event r.peer est
  apart : ∀ r ∈ b.aside, ∀ q ∈ b.routes, r.is_feed = true → q.is_feed = true → q.peer = r.peer

section
variable [Crypto] {env : Env} {s₀ : Actor} {event : Event} {a b : Board} {l m : List DeviceId}

omit [Crypto] in
theorem Route.Turns.is_feed {r r' : Route} (h : r.Turns event r') : r'.is_feed = r.is_feed := by
  unfold Route.is_feed
  rw [h.kind]

omit [Crypto] in
theorem Route.Turns.running {r r' : Route} (h : r.Turns event r') (hr : r.status ≠ .Stopped) :
    r'.status ≠ .Stopped := by
  rcases h.status with h | h | ⟨_, h, _⟩ | ⟨_, h, _⟩
  · rw [h]
    exact hr
  · rw [h]
    decide
  · rw [h]
    decide
  · rw [h]
    decide

theorem Actor.not_installs_of_consents {peer id : DeviceId} {req : RouteRequest} {kind : RouteKind}
    {est : Established} (h : s₀.consents env event peer req kind) :
    ¬ s₀.installs env event id est := by
  rintro (⟨he, _⟩ | ⟨p, hc, _⟩)
  · subst he
    rcases h with ⟨⟨_, h, _⟩, _⟩ | ⟨_, _, _, h, _⟩ <;> cases h
  · unfold Actor.completes at hc
    split at hc
    · rcases h with ⟨⟨_, h, _⟩, _⟩ | ⟨_, _, _, h, _⟩ <;> cases h
    · rcases h with ⟨⟨_, h, _⟩, _⟩ | ⟨_, _, _, h, _⟩ <;> cases h
    · rcases h with ⟨⟨_, h, _⟩, _⟩ | ⟨_, _, _, h, _⟩ <;> cases h
    · exact hc

omit [Crypto] in
/-- Taking the feed that is in the way leaves none. -/
theorem Actor.no_feed_of_erase {key : RouteKey} {peer : DeviceId} (ho : s₀.takes_own env event)
    (ht : s₀.takes_feed env event peer) (hf : s₀.virtual_mic_feed (some peer) = some key)
    (hone : s₀.routes.countP Route.is_feed ≤ 1) :
    (s₀.routes.eraseP (has_key key)).countP Route.is_feed = 0 := by
  have herase := List.countP_eraseP_add_one (p := Route.is_feed) (q := has_key key) (l := s₀.routes)
    ?_ fun r hr hkey => ho peer key ht hf r hr (of_decide_eq_true hkey)
  · omega
  · obtain ⟨r, hr, hkey, _⟩ := virtual_mic_feed_eq_some hf
    exact ⟨r, hr, decide_eq_true hkey⟩

omit [Crypto] in
/-- A request for the virtual microphone is admitted when the routes that stay are no feeds. -/
theorem no_feed_of_admitted {peer : DeviceId} {req : RouteRequest} {routes : List Route}
    (hg : s₀.admits_alone env event) (ho : s₀.takes_own env event)
    (hrun : ∀ r ∈ s₀.routes, r.status ≠ .Stopped) (hone : s₀.routes.countP Route.is_feed ≤ 1)
    (hc : s₀.consents env event peer req .ReceiveMicToVirtualMic)
    (hd : s₀.deciding env event routes peer req .ReceiveMicToVirtualMic)
    (hfree : ∀ r ∈ routes, r.key = ⟨peer, req.route.toUInt8⟩ →
      Actor.replaced_by peer req.route.toUInt8 .ReceiveMicToVirtualMic r = true) :
    (routes.filter
      fun r => !Actor.replaced_by peer req.route.toUInt8 .ReceiveMicToVirtualMic r).countP
      Route.is_feed = 0 := by
  rw [List.countP_eq_zero]
  intro r hr hfeed
  obtain ⟨hr, hrep⟩ := List.mem_filter.1 hr
  have hrep : ¬ Actor.replaced_by peer req.route.toUInt8 .ReceiveMicToVirtualMic r = true := by
    simpa using hrep
  have hkey : r.key ≠ ⟨peer, req.route.toUInt8⟩ := fun h => hrep (hfree r hr h)
  rcases hd with ⟨conn_id, hev, _, hroutes⟩ | ⟨request_id, remember, hev, hroutes⟩
  · unfold Actor.feed_in_the_way at hroutes
    rw [if_pos rfl] at hroutes
    -- By request: a feed in the way is superseded first, and there was only the one. Where
    -- nothing is in the way, a feed that stays would be the peer's own.
    cases hf : s₀.virtual_mic_feed (some peer) with
    | none =>
        rw [hf] at hroutes
        have hr₀ : r ∈ s₀.routes := hroutes ▸ hr
        have hfeeds := Route.feeds_of_is_feed hfeed (hrun r hr₀)
        rcases hg peer req hc r hr₀ hfeeds with h | h | ⟨hne, _⟩
        · exact hkey h
        · exact hrep h
        · have hfind := List.find?_eq_none.1 (Option.map_eq_none_iff.1 hf) r hr₀
          simp only [decide_eq_true_eq] at hfind
          exact hfind ⟨Route.is_feed_iff.1 hfeed, hrun r hr₀, fun h => hne (Option.some_inj.1 h)⟩
    | some key =>
        rw [hf] at hroutes
        have herase : (s₀.make_room env (some key)).routes = s₀.routes.eraseP (has_key key) :=
          congrArg Tables.routes (Actor.stop_route_by_key_tables env s₀ key .Superseded true)
        have hnone := Actor.no_feed_of_erase ho (.inr ⟨conn_id, req, hev, hc⟩) hf hone
        rw [← herase, ← hroutes, List.countP_eq_zero] at hnone
        exact hnone r hr hfeed
  · rw [hroutes] at hr
    have hfeeds := Route.feeds_of_is_feed hfeed (hrun r hr)
    rcases hg peer req hc r hr hfeeds with h | h | ⟨_, conn_id, h⟩
    · exact hkey h
    · exact hrep h
    · cases hev.symm.trans h

/-- What an act adds to the table is no second feed. -/
theorem Added.keeps_one (hg : s₀.admits_alone env event) (ho : s₀.takes_own env event)
    (hrun : ∀ r ∈ s₀.routes, r.status ≠ .Stopped) (hone : s₀.routes.countP Route.is_feed ≤ 1)
    (hl : ∀ peer est, s₀.installs env event peer est → peer ∈ l → ∀ p ∈ l, p = peer)
    (hm : ∀ p ∈ m, p ∈ l) (ha : a.OneFeed env s₀ event l) {kept added : List Route}
    (hkept : kept.Subperm a.routes) (h : Added env s₀ event a m kept added) :
    ∀ r ∈ added, added = [r] ∧ r.status ≠ .Stopped ∧ (r.is_feed = true →
      kept.countP Route.is_feed = 0 ∧ (∀ q ∈ a.aside, r.peer = q.peer) ∧ ∀ p ∈ m, r.peer = p) := by
  intro r hr
  cases h with
  | nothing | aside => exact absurd hr List.not_mem_nil
  -- The check at the start finds no feed, or the user replaces the one there is.
  | requested peer kind session q hs hq hnone hroom hfeed =>
      obtain rfl := List.mem_singleton.1 hr
      refine ⟨rfl, by rw [hq.status]; decide, fun hf => ?_⟩
      have hkind : kind = .ReceiveMicToVirtualMic := hq.kind.symm.trans (Route.is_feed_iff.1 hf)
      refine ⟨?_, fun q hmem => ?_, fun p hp => hq.peer.trans (List.mem_singleton.1 hp).symm⟩
      · rcases hfeed hkind with hnot | ⟨key, caller, hev, hkey, hroutes⟩
        · rw [List.countP_eq_zero]
          intro q hq hqf
          exact Bool.false_ne_true
            ((hnot q hq).symm.trans (Route.feeds_of_is_feed hqf (ha.running q hq)))
        · rw [hroutes]
          exact Actor.no_feed_of_erase ho (.inl ⟨caller, hev⟩) hkey hone
      · obtain ⟨hin, est, hinst⟩ := ha.aside q hmem
        exact hq.peer.trans (hl q.peer est hinst hin peer (hm peer (List.mem_singleton_self peer)))
  | admitted peer req kind volume q hc hmax hd hfree hq =>
      obtain rfl := List.mem_singleton.1 hr
      refine ⟨rfl, ?_, fun hf => ?_⟩
      · rw [hq.status]
        exact nofun
      · obtain rfl : kind = .ReceiveMicToVirtualMic := hq.kind.symm.trans (Route.is_feed_iff.1 hf)
        refine ⟨no_feed_of_admitted hg ho hrun hone hc hd hfree, fun q hmem => ?_,
          fun _ hp => absurd hp List.not_mem_nil⟩
        obtain ⟨_, est, hinst⟩ := ha.aside q hmem
        exact absurd hinst (Actor.not_installs_of_consents hc)
  | put_back peer kind q rest hp hnone hrest =>
      obtain rfl := List.mem_singleton.1 hr
      obtain ⟨hmem, hkind⟩ := List.mem_of_remove_first hrest
      have hkind : r.kind = kind := of_decide_eq_true hkind
      refine ⟨rfl, by rw [ha.paused r hmem]; decide, fun hf => ⟨?_, fun q hq => ?_,
        fun _ hp => absurd hp List.not_mem_nil⟩⟩
      · rw [List.countP_eq_zero]
        intro q hq hqf
        refine hnone q hq ((ha.apart r hmem q hq hf hqf).trans hp) ?_
        rw [← hkind, Route.is_feed_iff.1 hf, Route.is_feed_iff.1 hqf]
      · obtain ⟨hin, est, hinst⟩ := ha.aside q hq
        exact hl q.peer est hinst hin r.peer (ha.aside r hmem).1

theorem Act.keeps_one (hg : s₀.admits_alone env event) (ho : s₀.takes_own env event)
    (hrun : ∀ r ∈ s₀.routes, r.status ≠ .Stopped) (hone : s₀.routes.countP Route.is_feed ≤ 1)
    (hl : ∀ peer est, s₀.installs env event peer est → peer ∈ l → ∀ p ∈ l, p = peer)
    (hm : ∀ p ∈ m, p ∈ l) (ha : a.OneFeed env s₀ event l) (h : Act env s₀ event m a b) :
    b.OneFeed env s₀ event l := by
  obtain ⟨kept, turned, added, hkept, hturned, hb, hadded⟩ := h.turned
  have hold : ∀ r ∈ turned, ∃ q ∈ a.routes, Route.Turns event q r := fun r hr =>
    let ⟨q, hq, hqr⟩ := hturned.exists_left hr
    ⟨q, hkept.subset hq, hqr⟩
  have hle : turned.countP Route.is_feed ≤ kept.countP Route.is_feed :=
    List.Forall₂.countP_le (fun q r hqr hr => hqr.is_feed ▸ hr) hturned
  have hkept_le := hkept.countP_le Route.is_feed
  have hnew := Added.keeps_one hg ho hrun hone hl hm ha hkept hadded
  refine ⟨fun r hr => ?_, ?_, h.aside_paused ha.paused, fun r hr => ?_, fun r hr q hq hrf hqf => ?_⟩
  · rw [hb] at hr
    rcases List.mem_append.1 hr with hr | hr
    · obtain ⟨q, hq, hqr⟩ := hold r hr
      exact hqr.running (ha.running q hq)
    · exact (hnew r hr).2.1
  · rw [hb, List.countP_append]
    have hone := ha.one
    -- A feed is added only where none is kept.
    by_cases hf : ∃ r ∈ added, r.is_feed = true
    · obtain ⟨r, hr, hf⟩ := hf
      obtain ⟨hsingle, _, hzero⟩ := hnew r hr
      have hcount : added.countP Route.is_feed ≤ 1 := hsingle ▸ List.countP_le_length
      have := (hzero hf).1
      omega
    · have hzero : added.countP Route.is_feed = 0 :=
        List.countP_eq_zero.2 fun r hr h => hf ⟨r, hr, h⟩
      omega
  · rcases h.aside with hsub | ⟨peer, est, hpeer, hinst, haside⟩
    · exact ha.aside r (hsub.subset hr)
    · rw [haside] at hr
      have hp := (of_decide_eq_true (List.mem_filter.1 hr).2).1
      refine ⟨hm _ ?_, est, hp ▸ hinst⟩
      rw [hpeer, hp]
      exact List.mem_singleton_self peer
  · rw [hb] at hq
    rcases h.aside with hsub | ⟨peer, est, hpeer, hinst, haside⟩
    · have hr := hsub.subset hr
      rcases List.mem_append.1 hq with hq | hq
      · obtain ⟨o, ho, hoq⟩ := hold q hq
        exact hoq.peer.trans (ha.apart r hr o ho hrf (hoq.is_feed ▸ hqf))
      · exact ((hnew q hq).2.2 hqf).2.1 r hr
    · rw [haside] at hr
      obtain ⟨hr, hp⟩ := List.mem_filter.1 hr
      rcases List.mem_append.1 hq with hq | hq
      · obtain ⟨o, ho, hoq⟩ := hold q hq
        have hsame := List.eq_of_countP_le_one ha.one ho hr (hoq.is_feed ▸ hqf) hrf
        exact hoq.peer.trans (congrArg Route.peer hsame)
      · have hpeer := ((hnew q hq).2.2 hqf).2.2 peer (hpeer ▸ List.mem_singleton_self peer)
        exact hpeer.trans (of_decide_eq_true hp).1.symm

theorem Acts.keeps_one (hg : s₀.admits_alone env event) (ho : s₀.takes_own env event)
    (hrun : ∀ r ∈ s₀.routes, r.status ≠ .Stopped) (hone : s₀.routes.countP Route.is_feed ≤ 1)
    (hl : ∀ peer est, s₀.installs env event peer est → peer ∈ l → ∀ p ∈ l, p = peer)
    (h : Acts env s₀ event m a b) (ha : a.OneFeed env s₀ event l) (hm : ∀ p ∈ m, p ∈ l) :
    b.OneFeed env s₀ event l := by
  induction h with
  | refl => exact ha
  | tail _ hact ih =>
      refine hact.keeps_one hg ho hrun hone hl (fun p hp => hm p (List.mem_append_left _ hp)) ?_
      exact ih ha fun p hp => hm p (List.mem_append_right _ hp)
  | more _ hsub ih => exact ih ha fun p hp => hm p (hsub.subset hp)

/-! ## 3. Runs -/

/-- What the event lets in finds the virtual microphone free, or takes it from the route that has
it. -/
def Moment.feeds_alone (q : Moment) : Prop :=
  q.1.actor.admits_alone q.2.env q.2.event ∧ q.1.actor.takes_own q.2.env q.2.event

/-- In every run whose steps all let a feed in alone, there is at most one. -/
theorem one_feed {Known : PublicKey → Prop} {tr : List Moment} {w : World}
    (hr : (engine Known).Run tr w) (hg : ∀ q ∈ tr, Moment.feeds_alone q) :
    w.actor.routes.countP Route.feeds ≤ 1 := by
  have hinv := hr.invariant_where (G := fun w i => Moment.feeds_alone (w, i))
    (P := fun w => (∀ r ∈ w.actor.routes, r.status ≠ .Stopped) ∧
      w.actor.routes.countP Route.is_feed ≤ 1) ?_ ?_ hg
  · exact le_trans (List.countP_mono_left fun r _ hf => Route.is_feed_of_feeds hf) hinv.2
  · rintro w ⟨identity, trust, settings, _, rfl⟩
    exact ⟨fun r hr => absurd hr List.not_mem_nil, Nat.zero_le _⟩
  · rintro w i ⟨hrun, hone⟩ _ ⟨hadmits, htakes⟩
    obtain ⟨l, hacts, hl⟩ := w.met.handle_acts i.env i.event
    have hbefore : w.met.board.OneFeed i.env w.met i.event l :=
      ⟨hrun, hone, fun r hr => absurd hr List.not_mem_nil, fun r hr => absurd hr List.not_mem_nil,
        fun r hr => absurd hr List.not_mem_nil⟩
    have hadmits : w.met.admits_alone i.env i.event := hadmits
    have hafter := Acts.keeps_one hadmits htakes hrun hone hl hacts hbefore fun _ hp => hp
    exact ⟨hafter.running, hafter.one⟩

end

/-! ## 4. Two runs -/

namespace Sample

/-- A device asks for the virtual microphone on its connection. -/
def asks_for_feed (conn_id : Nat) : Input :=
  ⟨env, .Control conn_id (.RouteRequest
    { route := 2, source_endpoint := "mic", sink_endpoint := "virtual-mic"
      requester_is_source := true, profile := none, replace := false })⟩

/-- The user is asked about the peer, and not about the other device. -/
def asking : Permissions := { Permissions.default with send_audio_to_me := .Ask }

/-- The peer's request waits for the user when the other device's comes. -/
def two_ask : List Input :=
  connects 1 peer peer_key ++ connects 2 other other_key ++
    [asks_for_feed 1, asks_for_feed 2, ⟨env, .Command (.RespondRouteRequest 1 true false)⟩]

theorem two_ask_admitted : (engine Known).Admits (start asking) two_ask := by
  refine ⟨.inl rfl, ⟨⟨_, List.mem_singleton.2 rfl, ?_⟩, ?_⟩, .inr rfl,
    ⟨⟨_, List.mem_singleton.2 rfl, ?_⟩, ?_⟩, ?_, ?_, trivial, trivial⟩
  · simp [Call.reports]
    rfl
  · decide
  · simp [Call.reports]
    rfl
  · decide
  · exact List.mem_cons_of_mem _ List.mem_cons_self
  · exact List.mem_cons_self

/-- The peer has the virtual microphone when the other device takes it over. -/
def asks_and_takes : List Input :=
  connects 1 peer peer_key ++ connects 2 other other_key ++ [asks_for_feed 1,
    ⟨env, .Control 2 (.RouteRequest
      { route := 2, source_endpoint := "mic", sink_endpoint := "virtual-mic"
        requester_is_source := true, profile := none, replace := true })⟩]

theorem asks_and_takes_admitted : (engine Known).Admits (start .default) asks_and_takes := by
  refine ⟨.inl rfl, ⟨⟨_, List.mem_singleton.2 rfl, ?_⟩, ?_⟩, .inr rfl,
    ⟨⟨_, List.mem_singleton.2 rfl, ?_⟩, ?_⟩, ?_, ?_, trivial⟩
  · simp [Call.reports]
    rfl
  · decide
  · simp [Call.reports]
    rfl
  · decide
  · exact List.mem_cons_of_mem _ List.mem_cons_self
  · exact List.mem_cons_self

end Sample

open Sample in
/-- The user lets a second feed in. -/
theorem two_feeds :
    (engine Known).Run ((engine Known).trace (start asking) two_ask)
        ((engine Known).exec (start asking) two_ask) ∧
      ¬ ((engine Known).exec (start asking) two_ask).actor.routes.countP Route.feeds ≤ 1 :=
  ⟨Machine.run_of_admits (start_init asking) two_ask_admitted, by decide +kernel⟩

open Sample in
/-- A request that finds the virtual microphone free is the only feed, and so is the one that takes
it over. -/
theorem one_feed_taken :
    let w := (engine Known).exec (start .default) asks_and_takes
    w.actor.routes.map Route.key = [⟨other, 2⟩] ∧ w.actor.routes.countP Route.feeds ≤ 1 := by
  refine ⟨by decide +kernel,
    one_feed (Machine.run_of_admits (start_init .default) asks_and_takes_admitted) fun q hq => ?_⟩
  -- there is no feed before the last request
  have hnone (hroutes : q.1.actor.routes = []) : q.feeds_alone := by
    refine ⟨fun _ _ _ r hr => ?_, fun _ _ _ _ r hr => ?_⟩
    · rw [hroutes] at hr
      exact absurd hr List.not_mem_nil
    · rw [hroutes] at hr
      exact absurd hr List.not_mem_nil
  simp only [asks_and_takes, connects, asks_for_feed, Machine.trace, List.cons_append,
    List.nil_append, List.mem_cons, List.not_mem_nil, or_false] at hq
  rcases hq with rfl | rfl | rfl | rfl | rfl | rfl
  · exact hnone rfl
  · exact hnone rfl
  · exact hnone rfl
  · exact hnone rfl
  · exact hnone rfl
  · refine ⟨fun id req hconsents r hr _ => ?_, fun _ _ _ _ r hr hkey => ?_⟩
    · rcases hconsents with ⟨⟨conn_id, he, -, -, hindex, -⟩, -⟩ | ⟨_, _, _, he, -⟩
      · cases he
        refine .inr (.inr ⟨?_, 2, rfl⟩)
        obtain rfl : other = id := Option.some_inj.1 (hindex ▸ by decide +kernel)
        revert r
        decide +kernel
      · cases he
    · clear hkey
      revert r
      decide +kernel

end SoundPush
