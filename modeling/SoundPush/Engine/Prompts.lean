/-
`Prompts` -- on which session a prompt was asked.

A request that waits for the user is kept by itself, and knows its peer but not the
connection it came on. While no session ends with a prompt of its device waiting,
every prompt is one of the current session, and an answer goes where the question
came from.

The invariant is stated for the middle of an event (`Actor.Prompts`), with the
connection that each older request came on as a parameter, so that the moves of an
event can be followed one by one; `World.Prompted` is the same between events. A
move that asks adds a request of the current session, a move that ends a session is
excused by the condition, and the others leave requests and sessions alone. Request
numbers only grow, which makes the connection of a prompt unique
(`prompt_asked_once`).
-/
import SoundPush.Engine.Consent

set_option autoImplicit false

namespace SoundPush

section
variable [Crypto]

/-! ## 1. One event -/

namespace Actor

/-- The waiting requests since an event met `s₀`: each is one of the current session of its device.
`asked` says of the older ones on which connection they came. -/
structure Prompts (asked : Nat → PendingRequest → Nat → Prop) (s₀ : Actor) (event : Event)
    (s : Actor) : Prop where
  le : s₀.next_request_id ≤ s.next_request_id
  link : ∀ conn_id req, event = .Control conn_id (.RouteRequest req) → s.link = s₀.link
  asked : ∀ request_id p, s.requests.get request_id = some p →
    ∃ l, s.link p.peer = some l ∧
      ((s₀.requests.get request_id = some p ∧ asked request_id p l.conn_id) ∨
        (event = .Control l.conn_id (.RouteRequest p.request) ∧
          s₀.conn_index.get l.conn_id = some p.peer ∧ s₀.next_request_id ≤ request_id ∧
          request_id < s.next_request_id))

namespace Prompts

variable {asked : Nat → PendingRequest → Nat → Prop} {env : Env} {s₀ s s' : Actor} {event : Event}

omit [Crypto] in
/-- Nothing is asked, and the sessions of those who asked stay. -/
theorem of_shrinks (h : s₀.Prompts asked event s)
    (hr : s.requests.Shrinks s'.requests) (hn : s'.next_request_id = s.next_request_id)
    (hl : ∀ conn_id req, event = .Control conn_id (.RouteRequest req) → s'.link = s.link)
    (hk : ∀ request_id p, s.requests.get request_id = some p → s'.link p.peer = s.link p.peer) :
    s₀.Prompts asked event s' where
  le := hn ▸ h.le
  link conn_id req he := (hl conn_id req he).trans (h.link conn_id req he)
  asked request_id p hp := by
    have hp := hr _ _ hp
    rw [hk request_id p hp, hn]
    exact h.asked request_id p hp

omit [Crypto] in
theorem of_link (h : s₀.Prompts asked event s) (hr : s.requests.Shrinks s'.requests)
    (hn : s'.next_request_id = s.next_request_id) (hl : s'.link = s.link) :
    s₀.Prompts asked event s' :=
  h.of_shrinks hr hn (fun _ _ _ => hl) fun _ _ _ => congrFun hl _

omit [Crypto] in
/-- A request is left to the user: its connection is the session of its device. -/
theorem ask (h : s₀.Prompts asked event s)
    (hindex : ∀ conn_id id, s₀.conn_index.get conn_id = some id →
      ∃ l, s₀.link id = some l ∧ l.conn_id = conn_id)
    {peer : DeviceId} {req : RouteRequest} {kind : RouteKind}
    (hreq : s₀.requests_route event peer req kind) :
    s₀.Prompts asked event (s.ask env peer req kind) := by
  obtain ⟨conn_id, he, _, _, hi, _⟩ := hreq
  obtain ⟨l, hl, hconn⟩ := hindex conn_id peer hi
  have hle := h.le
  refine ⟨Nat.le_succ_of_le hle, h.link, fun request_id p hp => ?_⟩
  change (s.requests.insert _ _).get request_id = some p at hp
  rw [Table.get_insert] at hp
  split at hp
  · next hid =>
      obtain rfl := Option.some_inj.1 hp
      refine ⟨l, (congrFun (h.link conn_id req he) peer).trans hl, .inr ⟨?_, ?_, ?_, ?_⟩⟩
      · rw [hconn]
        exact he
      · rw [hconn]
        exact hi
      · exact hid ▸ hle
      · exact hid ▸ Nat.lt_succ_self _
  · obtain ⟨l, hl, hasked⟩ := h.asked request_id p hp
    exact ⟨l, hl, hasked.imp_right fun ⟨he, hi, hge, hlt⟩ => ⟨he, hi, hge, Nat.lt_succ_of_lt hlt⟩⟩

end Prompts

theorem Move.next_request_id_le {env : Env} {s₀ s s' : Actor} {event : Event}
    (hmove : Move env s₀ event s s') : s.next_request_id ≤ s'.next_request_id := by
  cases hmove with
  | upkeep hup => exact hup.standing.next_request_id.ge
  | open_route _ _ _ hs _ => exact hs.standing.next_request_id.ge
  | ask => exact Nat.le_succ _
  | _ => exact le_refl _

theorem Move.prompts {asked : Nat → PendingRequest → Nat → Prop} {env : Env} {s₀ s s' : Actor}
    {event : Event} (hmove : Move env s₀ event s s')
    (hindex : ∀ conn_id id, s₀.conn_index.get conn_id = some id →
      ∃ l, s₀.link id = some l ∧ l.conn_id = conn_id)
    (hends : ∀ id, s₀.ends env event id → ∀ request_id p, s₀.requests.get request_id = some p →
      p.peer ≠ id)
    (h : s₀.Prompts asked event s) : s₀.Prompts asked event s' := by
  have hrequest {conn_id : Nat} {req : RouteRequest} {id : DeviceId} {est : Established}
      (he : event = .Control conn_id (.RouteRequest req)) : ¬ s₀.installs env event id est := by
    rw [he]
    rintro (⟨hev, _⟩ | ⟨p, hp, _⟩)
    · cases hev
    · exact hp
  cases hmove with
  | upkeep hup => exact h.of_link hup.standing.requests hup.standing.next_request_id hup.link
  | open_route _ _ _ hs _ =>
      exact h.of_link hs.standing.requests hs.standing.next_request_id hs.link
  | ask peer req kind hreq => exact h.ask hindex hreq
  | drop id session hs hd =>
      have hlink (k : DeviceId) (hk : k ≠ id) :
          Actor.link { s with
            sessions := s.sessions.erase id
            conn_index := s.conn_index.erase session.conn_id } k = s.link k := by
        unfold Actor.link
        dsimp only
        rw [Table.get_erase, if_neg hk]
      -- A request for a route ends no session, so the one that is being asked about is not the
      -- one that goes.
      have hno (conn_id : Nat) (req : RouteRequest)
          (he : event = .Control conn_id (.RouteRequest req)) : False := by
        rw [he] at hd
        obtain ⟨p, hp, _⟩ := hd
        exact hp
      refine h.of_shrinks (.refl _) rfl (fun conn_id req he => (hno conn_id req he).elim)
        fun request_id p hp => hlink _ ?_
      obtain ⟨l, _, ⟨hold, _⟩ | ⟨he, _⟩⟩ := h.asked request_id p hp
      · exact hends id hd request_id p hold
      · exact (hno _ _ he).elim
  | install id est hl _ hi =>
      refine h.of_shrinks (.refl _) rfl (fun conn_id req he => absurd hi (hrequest he))
        fun request_id p hp => ?_
      obtain ⟨l, hlink, _⟩ := h.asked request_id p hp
      unfold Actor.link
      dsimp only
      rw [Table.get_insert, if_neg]
      rintro rfl
      exact nomatch hl.symm.trans hlink
  | _ => exact h.of_link (.refl _) rfl rfl

end Actor

/-! ## 2. Runs -/

namespace Moment

/-- In this step the connection brought the request, and it was left to the user under this
number. -/
def asked (q : Moment) (request_id : Nat) (p : PendingRequest) (conn_id : Nat) : Prop :=
  q.2.event = .Control conn_id (.RouteRequest p.request) ∧
    q.1.actor.conn_index.get conn_id = some p.peer ∧ q.1.actor.next_request_id ≤ request_id ∧
    request_id < (q.1.step q.2).actor.next_request_id

/-- A session that this step ends leaves no prompt of its device waiting. -/
def ends_unprompted (q : Moment) : Prop :=
  ∀ id, q.1.actor.ends q.2.env q.2.event id → ∀ request_id p,
    q.1.actor.requests.get request_id = some p → p.peer ≠ id

end Moment

/-- Every waiting prompt is one of the current session of its device. -/
def World.Prompted (tr : List Moment) (w : World) : Prop :=
  ∀ request_id p, w.actor.requests.get request_id = some p → ∃ q ∈ tr, ∃ conn_id,
    q.asked request_id p conn_id ∧ (w.actor.sessions.get p.peer).map Session.conn_id = some conn_id

section
variable {Known : PublicKey → Prop} {tr : List Moment} {w : World} {i : Input}

theorem World.Sound.prompts (hs : w.Sound Known) (hp : w.Prompted tr)
    (hq : Moment.ends_unprompted (w, i)) :
    w.met.Prompts (fun request_id p conn_id => ∃ q ∈ tr, q.asked request_id p conn_id) i.event
      (w.step i).actor := by
  refine (hs.moves i).invariant (fun a b hmove => hmove.prompts
    (fun conn_id id hi => (hs.wired.index conn_id id).1 hi) hq)
    ⟨le_refl _, fun _ _ _ => rfl, fun request_id p hget => ?_⟩
  obtain ⟨q, hmem, conn_id, hasked, hconn⟩ := hp request_id p hget
  obtain ⟨session, hsession, rfl⟩ := Option.map_eq_some_iff.1 hconn
  have hlink : w.met.link p.peer = some session.link := congrArg (Option.map Session.link) hsession
  exact ⟨session.link, hlink, .inl ⟨hget, q, hmem, hasked⟩⟩

theorem World.Sound.prompted_step (hs : w.Sound Known) (hp : w.Prompted tr)
    (hq : Moment.ends_unprompted (w, i)) : (w.step i).Prompted (tr ++ [(w, i)]) := by
  have hprompts := hs.prompts hp hq
  intro request_id p hget
  obtain ⟨l, hl, hold | ⟨he, hi, hge, hlt⟩⟩ := hprompts.asked request_id p hget
  all_goals
    obtain ⟨session, hsession, rfl⟩ := Option.map_eq_some_iff.1 hl
    have hconn := congrArg (Option.map Session.conn_id) hsession
  · obtain ⟨_, q, hmem, hasked⟩ := hold
    exact ⟨q, List.mem_append_left _ hmem, session.conn_id, hasked, hconn⟩
  · exact ⟨(w, i), List.mem_append_right _ List.mem_cons_self, session.conn_id,
      ⟨he, hi, hge, hlt⟩, hconn⟩

/-- A number is given to one request. -/
theorem prompt_asked_once (hr : (engine Known).Run tr w) :
    (∀ q ∈ tr, ∀ request_id p conn_id, q.asked request_id p conn_id →
      request_id < w.actor.next_request_id) ∧
    ∀ q ∈ tr, ∀ q' ∈ tr, ∀ request_id p p' conn_id conn_id', q.asked request_id p conn_id →
      q'.asked request_id p' conn_id' → conn_id = conn_id' ∧ p.peer = p'.peer := by
  induction hr with
  | start _ =>
      exact ⟨fun q hq => absurd hq List.not_mem_nil, fun q hq => absurd hq List.not_mem_nil⟩
  | @next tr w i hrun _ ih =>
      have hle : w.actor.next_request_id ≤ (w.step i).actor.next_request_id :=
        ((run_sound hrun).moves i).invariant
          (P := fun a => w.actor.next_request_id ≤ a.next_request_id)
          (fun a b hmove ha => ha.trans hmove.next_request_id_le) (le_refl _)
      refine ⟨fun q hq request_id p conn_id hasked => ?_,
        fun q hq q' hq' request_id p p' conn_id conn_id' hasked hasked' => ?_⟩
      · rcases List.mem_append.1 hq with hq | hq
        · exact (ih.1 q hq request_id p conn_id hasked).trans_le hle
        · obtain rfl := List.mem_singleton.1 hq
          exact hasked.2.2.2
      · rcases List.mem_append.1 hq with hq | hq <;> rcases List.mem_append.1 hq' with hq' | hq'
        · exact ih.2 q hq q' hq' request_id p p' conn_id conn_id' hasked hasked'
        · obtain rfl := List.mem_singleton.1 hq'
          exact absurd (ih.1 q hq request_id p conn_id hasked) (Nat.not_lt.2 hasked'.2.2.1)
        · obtain rfl := List.mem_singleton.1 hq
          exact absurd (ih.1 q' hq' request_id p' conn_id' hasked') (Nat.not_lt.2 hasked.2.2.1)
        · obtain rfl := List.mem_singleton.1 hq
          obtain rfl := List.mem_singleton.1 hq'
          obtain ⟨hconn, _⟩ := Event.Control.inj (hasked.1.symm.trans hasked'.1)
          refine ⟨hconn, Option.some_inj.1 (hasked.2.1.symm.trans ?_)⟩
          rw [hconn]
          exact hasked'.2.1

/-- **Prompts.** In every run in which no session ends with a prompt of its device waiting, every
prompt that waits came on the current session of its device; and one that came on a connection
which no longer is that session is gone, so that an answer to it does nothing. -/
theorem prompts_current (hr : (engine Known).Run tr w) (hq : ∀ q ∈ tr, q.ends_unprompted) :
    w.Prompted tr ∧
      ∀ q ∈ tr, ∀ request_id p conn_id, q.asked request_id p conn_id →
        (w.actor.sessions.get p.peer).map Session.conn_id ≠ some conn_id →
          w.actor.requests.get request_id = none ∧
            ∀ env accept remember, (w.step ⟨env, .Command
              (.RespondRouteRequest request_id accept remember)⟩).actor = w.met := by
  have hprompted : w.Prompted tr := by
    induction hr with
    | start h =>
        obtain ⟨identity, trust, settings, _, rfl⟩ := h
        exact fun request_id p hget => nomatch (Table.get_empty request_id).symm.trans hget
    | next hrun _ ih =>
        have hbefore := ih fun q h => hq q (List.mem_append_left _ h)
        exact (run_sound hrun).prompted_step hbefore
          (hq _ (List.mem_append_right _ List.mem_cons_self))
  refine ⟨hprompted, fun q hmem request_id p conn_id hasked hsession => ?_⟩
  have hnone : w.actor.requests.get request_id = none := by
    by_contra hsome
    obtain ⟨p', hget⟩ := Option.ne_none_iff_exists'.1 hsome
    obtain ⟨q', hmem', conn_id', hasked', hsession'⟩ := hprompted request_id p' hget
    obtain ⟨rfl, hpeer⟩ := (prompt_asked_once hr).2 q hmem q' hmem' request_id p p' conn_id conn_id'
      hasked hasked'
    exact hsession (hpeer ▸ hsession')
  refine ⟨hnone, fun env accept remember => ?_⟩
  change w.met.respond_request env request_id accept remember = w.met
  unfold Actor.respond_request
  rw [show w.met.requests.get request_id = none from hnone]

end

end

/-! ## 3. Two runs -/

namespace Sample

/-- The peer asks for the microphone, and connects again before the user answers. -/
def reconnects : List Input :=
  connects 1 peer peer_key ++ [asks_here "mic" "speaker" 2, ⟨env, .Closed 1 .NetworkLost⟩] ++
    connects 2 peer peer_key

theorem reconnects_admitted : (engine Known).Admits (start .default) reconnects := by
  refine ⟨.inl rfl, ⟨⟨_, List.mem_singleton.2 rfl, ?_⟩, ?_⟩, ?_, ?_, .inl rfl, ⟨?_, ?_⟩, trivial⟩
  · simp [Call.reports]
    rfl
  · decide
  · exact List.mem_cons_self
  · exact List.mem_cons_self
  · decide +kernel
  · decide

/-- The user answers before the session ends, and the peer asks again on the next one. -/
def answered_first : List Input :=
  connects 1 peer peer_key ++ [asks_here "mic" "speaker" 2,
    ⟨env, .Command (.RespondRouteRequest 1 false false)⟩, ⟨env, .Closed 1 .NetworkLost⟩] ++
    connects 2 peer peer_key ++ [⟨env, .Control 2 (.RouteRequest
      { route := 2, source_endpoint := "mic", sink_endpoint := "speaker"
        requester_is_source := false, profile := none, replace := false })⟩]

theorem answered_first_admitted : (engine Known).Admits (start .default) answered_first := by
  refine ⟨.inl rfl, ⟨⟨_, List.mem_singleton.2 rfl, ?_⟩, ?_⟩, ?_, trivial, ?_, .inl rfl, ⟨?_, ?_⟩,
    ?_,
    trivial⟩
  · simp [Call.reports]
    rfl
  · decide
  · exact List.mem_cons_self
  · exact List.mem_cons_self
  · exact List.any_eq_true.1 (by decide +kernel)
  · decide
  · exact List.mem_cons_self

end Sample

open Sample in
/-- The answer starts a route on a session that never asked for it. -/
theorem prompt_outlives_session :
    let tr : List Moment := (engine Known).trace (start .default) reconnects
    let w := (engine Known).exec (start .default) reconnects
    (engine Known).Run tr w ∧
      (∃ q ∈ tr, ∃ p, q.asked 1 p 1 ∧ p.peer = peer) ∧
      (w.actor.sessions.get peer).map Session.conn_id = some 2 ∧
      (w.step ⟨env, .Command (.RespondRouteRequest 1 true false)⟩).actor.routes.map Route.peer =
        [peer] := by
  refine ⟨Machine.run_of_admits (start_init .default) reconnects_admitted, ?_, by decide +kernel,
    by decide +kernel⟩
  refine ⟨((engine Known).exec (start .default) (connects 1 peer peer_key),
    asks_here "mic" "speaker" 2), ?_, ?_⟩
  · exact List.mem_cons_of_mem _ (List.mem_cons_of_mem _ List.mem_cons_self)
  · refine ⟨⟨peer, _, .SendMicToSpeaker, 0⟩, ⟨rfl, ?_, ?_, ?_⟩, rfl⟩
    · decide +kernel
    · decide +kernel
    · decide +kernel

open Sample in
/-- The prompt that waits is one of the new session, and an answer to the old one does nothing. -/
theorem prompts_current_answered :
    let w := (engine Known).exec (start .default) answered_first
    w.Prompted ((engine Known).trace (start .default) answered_first) ∧
      w.actor.requests.get 2 ≠ none ∧
      (w.step ⟨env, .Command (.RespondRouteRequest 1 true false)⟩).actor = w.met := by
  intro w
  have hrun := Machine.run_of_admits (start_init .default) answered_first_admitted
  have hends : ∀ q ∈ (engine Known).trace (start .default) answered_first,
      Moment.ends_unprompted q := by
    intro q hq
    have hempty (h : q.1.actor.requests.pairs = []) : Moment.ends_unprompted q := by
      intro id _ request_id p hget
      have hmem := Table.get_eq_some_iff.1 hget
      rw [h] at hmem
      exact absurd hmem List.not_mem_nil
    simp only [answered_first, connects, asks_here, Machine.trace, List.cons_append,
      List.nil_append, List.mem_cons, List.not_mem_nil, or_false] at hq
    rcases hq with rfl | rfl | rfl | rfl | rfl | rfl | rfl | rfl
    · exact hempty rfl
    · exact hempty rfl
    · exact hempty rfl
    · -- the answer ends no session
      rintro id ⟨p, hc, -⟩
      exact hc.elim
    · exact hempty rfl
    · exact hempty rfl
    · exact hempty rfl
    · exact hempty rfl
  obtain ⟨hprompted, hgone⟩ := prompts_current hrun hends
  have hasked : Moment.asked ((engine Known).exec (start .default) (connects 1 peer peer_key),
      asks_here "mic" "speaker" 2) 1 ⟨peer, _, .SendMicToSpeaker, 0⟩ 1 :=
    ⟨rfl, by decide +kernel, by decide +kernel, by decide +kernel⟩
  refine ⟨hprompted, by decide +kernel, (hgone _ ?_ 1 _ 1 hasked ?_).2 env true false⟩
  · exact List.mem_cons_of_mem _ (List.mem_cons_of_mem _ List.mem_cons_self)
  · decide +kernel

end SoundPush
