/-
`Consent` -- whose word a peer's stream runs on.

A route that a peer asked for either was there before an event or was opened by it,
and `Actor.consents` says what the event then had to show for it. The microphone is
sent by three kinds of route, and by two kinds of word: the permission that is in
force, and the user's answer to a prompt.

`Consented` follows the routes that peers asked for through the moves of an event:
each continues one from before or is one that the event consented to. `Trusting`
adds that who is connected is in the store, without which an answer could be about a
device that has no permissions at all. From both, the two ways in are judged apart,
a request (`Moment.spares_request`) and an answer (`Moment.spares_answer`); the
condition of the theorem is what each of the two has to look at and, in the engine,
one of them does not.
-/
import SoundPush.Engine.PairingSound

set_option autoImplicit false

namespace SoundPush

/-! ## 1. What an event does to the routes that peers asked for -/

namespace Actor

section
variable [Crypto]

/-- Every route that a peer asked for was there when the event came, or the event
opened it and may. -/
def Consented (env : Env) (s₀ : Actor) (event : Event) (s : Actor) : Prop :=
  ∀ r' ∈ s.routes, r'.requested_locally = false →
    (∃ r ∈ s₀.routes, r.Continues r') ∨
      ∃ req, s₀.consents env event r'.peer req r'.kind ∧ req.route.toUInt8 = r'.id

omit [Crypto] in
theorem Consented.refl (env : Env) (s : Actor) (event : Event) : s.Consented env event s :=
  fun r hr _ => .inl ⟨r, hr, .refl r⟩

omit [Crypto] in
theorem Consented.continues {env : Env} {s₀ : Actor} {event : Event} {s : Actor}
    (h : s₀.Consented env event s) {r r' : Route} (hr : r ∈ s.routes) (hc : r.Continues r')
    (hlocal : r'.requested_locally = false) :
    (∃ r ∈ s₀.routes, r.Continues r') ∨
      ∃ req, s₀.consents env event r'.peer req r'.kind ∧ req.route.toUInt8 = r'.id := by
  rcases h r hr (hc.requested_locally ▸ hlocal) with ⟨q, hq, hqr⟩ | ⟨req, hreq, hid⟩
  · exact .inl ⟨q, hq, hqr.trans hc⟩
  · refine .inr ⟨req, ?_, hid.trans hc.id.symm⟩
    rw [hc.peer, hc.kind]
    exact hreq

theorem Move.consented {env : Env} {s₀ s s' : Actor} {event : Event}
    (hmove : Move env s₀ event s s') (h : s₀.Consented env event s) :
    s₀.Consented env event s' := by
  cases hmove with
  | upkeep hup =>
      intro r' hr' hlocal
      obtain ⟨r, hr, hc⟩ := hup.routes r' hr' hlocal
      exact h.continues hr hc hlocal
  | open_route peer req kind hs hconsents =>
      intro r' hr' hlocal
      rcases hs.routes r' hr' hlocal with ⟨r, hr, hc⟩ | ⟨rfl, hid, rfl, _⟩
      · exact h.continues hr hc hlocal
      · exact .inr ⟨req, hconsents, hid.symm⟩
  | _ => exact h

/-- A request changes nothing that devices are judged by. -/
theorem Move.vital {env : Env} {s₀ s s' : Actor} {conn_id : Nat} {req : RouteRequest}
    (hmove : Move env s₀ (.Control conn_id (.RouteRequest req)) s s') (id : DeviceId) :
    (s'.trust.get id).map TrustedDevice.vital = (s.trust.get id).map TrustedDevice.vital := by
  cases hmove with
  | upkeep hup => rw [hup.standing.trust]
  | open_route _ _ _ hs _ => rw [hs.standing.trust]
  | trust _ h _ => exact h id
  | judge _ _ _ _ he => cases he
  | forget _ _ _ he => cases he
  | permit _ _ _ h => exact h.elim
  | pair _ _ h => exact h.elim
  | _ => rfl

omit [Crypto] in
theorem policy_of_vital {s s' : Actor} {peer : DeviceId}
    (h : (s'.trust.get peer).map TrustedDevice.vital = (s.trust.get peer).map TrustedDevice.vital)
    (kind : PermissionKind) : s'.policy_of peer kind = s.policy_of peer kind := by
  have hmap (a : Actor) : a.policy_of peer kind =
      (((a.trust.get peer).map TrustedDevice.vital).map
        fun v => v.2.2.2.policy kind).getD .Deny := by
    unfold policy_of
    cases a.trust.get peer <;> rfl
  rw [hmap, hmap, h]

/-- A device that is connected is in the store. -/
def Trusting (s : Actor) : Prop := ∀ id, s.trust.get id = none → s.link id = none

omit [Crypto] in
theorem Trusting.of_trust {s s' : Actor} (h : s.Trusting)
    (ht : ∀ id, s'.trust.get id = none → s.trust.get id = none) (hl : s'.link = s.link) :
    s'.Trusting := by
  intro id hid
  rw [hl]
  exact h id (ht id hid)

theorem Move.trusting {env : Env} {s₀ s s' : Actor} {event : Event}
    (hmove : Move env s₀ event s s') (h : s.Trusting) : s'.Trusting := by
  -- An update makes no device unknown, so one that is unknown after it was so before.
  have hupdate {id k : DeviceId} {f : TrustedDevice → TrustedDevice} {ok : Bool}
      (hk : (s.trust.update id f ok).get k = none) : s.trust.get k = none := by
    rw [TrustStore.get_update] at hk
    split at hk
    · exact Option.map_eq_none_iff.1 hk
    · exact hk
  cases hmove with
  | upkeep hup => exact h.of_trust (fun id hid => hup.standing.trust ▸ hid) hup.link
  | open_route _ _ _ hs _ => exact h.of_trust (fun id hid => hs.standing.trust ▸ hid) hs.link
  | trust t ht _ =>
      refine h.of_trust (fun id hid => ?_) rfl
      have hvital := ht id
      rw [show t.get id = none from hid, Option.map_none] at hvital
      exact Option.map_eq_none_iff.1 hvital.symm
  | judge | permit => exact h.of_trust (fun _ => hupdate) rfl
  -- The device is forgotten once its session is gone.
  | forget id ok hl _ =>
      intro k hk
      rw [TrustStore.get_remove] at hk
      split at hk
      · next he => exact he ▸ hl
      · exact h k hk
  | pair id p _ =>
      refine h.of_trust (fun k hk => ?_) rfl
      rw [TrustStore.get_upsert] at hk
      split at hk
      · cases hk
      · exact hk
  | drop id session _ _ =>
      intro k hk
      have hold := h k hk
      rw [link_eq_none] at hold ⊢
      dsimp only
      rw [Table.get_erase, hold, ite_self]
  | install id est _ hd _ =>
      intro k hk
      have hold := h k hk
      rw [link_eq_none] at hold ⊢
      dsimp only
      rw [Table.get_insert, if_neg, hold]
      rintro rfl
      obtain ⟨d, hget, _⟩ := hd
      exact nomatch hget.symm.trans hk
  | _ => exact h

/-! ## 2. The answer to a prompt -/

end

section
variable (env : Env) (s : Actor)

/-- Without a session nothing is opened for a device. -/
theorem accept_route_unlinked {peer : DeviceId} (h : s.link peer = none) (req : RouteRequest)
    (kind : RouteKind) :
    Continues s.routes (s.accept_route env peer req kind).routes := by
  unfold accept_route
  dsimp only
  generalize hs' : set_routes (List.foldl _ s _) _ = s'
  have htables : s'.toTables =
      { s.toTables with
        routes := s.routes.filter fun r => !replaced_by peer req.route.toUInt8 kind r } := by
    rw [← hs', set_routes_tables, drop_subscriptions_tables]
  have hroutes : Continues s.routes s'.routes := by
    rw [htables]
    exact .filter _ _
  have hsession : s'.sessions.get peer = none := by
    rw [htables]
    exact link_eq_none.1 h
  split
  · exact hroutes
  · have hbegin (r : Route) (hr : r.peer = peer) :
        s'.begin_pipelines env r = (s', r, .error .Unreachable) := by
      unfold begin_pipelines
      rw [hr, hsession]
    rw [hbegin _ rfl]
    dsimp only
    rw [error_notice_tables, reject_tables, drop_subscription_tables]
    exact hroutes

theorem respond_request_routes {request_id : Nat} {p : PendingRequest}
    (h : s.requests.get request_id = some p) (accept remember : Bool) :
    ∀ r' ∈ (s.respond_request env request_id accept remember).routes, r'.requested_locally = false →
      (∃ r ∈ s.routes, r.Continues r') ∨
        (accept = true ∧ s.link p.peer ≠ none ∧ r'.peer = p.peer ∧
          r'.id = p.request.route.toUInt8 ∧ r'.kind = p.kind) := by
  unfold respond_request
  rw [h]
  dsimp only
  generalize hs' : (if remember = true then _ else _ : Actor) = s'
  have hs : s'.routes = s.routes ∧ s'.link = s.link := by
    rw [← hs']
    split <;> exact ⟨rfl, rfl⟩
  intro r' hr' hlocal
  cases accept with
  | false =>
      rw [if_neg Bool.false_ne_true, reject_tables, hs.1] at hr'
      exact .inl ⟨r', hr', .refl r'⟩
  | true =>
      rw [if_pos rfl] at hr'
      by_cases hl : s.link p.peer = none
      · rw [← hs.2] at hl
        rw [← hs.1]
        exact .inl (accept_route_unlinked env s' hl _ _ r' hr' hlocal)
      · rcases (s'.accept_route_admits env _ _ _).routes r' hr' hlocal with hc | ⟨hp, hi, hk, _⟩
        · rw [← hs.1]
          exact .inl hc
        · exact .inr ⟨rfl, hl, hp, hi, hk⟩

theorem respond_request_trust {request_id : Nat} {p : PendingRequest}
    (h : s.requests.get request_id = some p) (accept remember : Bool) :
    (s.respond_request env request_id accept remember).trust =
      if remember then
        s.trust.update p.peer (fun d => { d with
          permissions := d.permissions.set (permission_for p.kind)
            (if accept then .Allow else .Deny) }) env.trust_saved
      else s.trust := by
  unfold respond_request
  rw [h]
  dsimp only
  cases accept with
  | false =>
      rw [if_neg Bool.false_ne_true, reject_tables]
      cases remember <;> rfl
  | true =>
      rw [if_pos rfl, (accept_route_admits env _ _ _ _).standing.trust]
      cases remember <;> rfl

/-- What is in force after an answer. -/
theorem respond_request_policy {request_id : Nat} {p : PendingRequest}
    (h : s.requests.get request_id = some p) (accept remember : Bool) (peer : DeviceId)
    (kind : PermissionKind) :
    (s.respond_request env request_id accept remember).policy_of peer kind =
      if remember = true ∧ peer = p.peer ∧ kind = permission_for p.kind ∧
          s.trust.get p.peer ≠ none then
        if accept then .Allow else .Deny
      else s.policy_of peer kind := by
  unfold policy_of
  rw [s.respond_request_trust env h]
  generalize (if accept = true then Policy.Allow else Policy.Deny) = policy
  cases remember with
  | false => rw [if_neg Bool.false_ne_true, if_neg fun hr => Bool.false_ne_true hr.1]
  | true =>
      rw [if_pos rfl, TrustStore.get_update]
      by_cases hp : peer = p.peer
      · subst hp
        rw [if_pos rfl]
        cases hd : s.trust.get p.peer with
        | none => rw [if_neg fun hr => hr.2.2.2 rfl, Option.map_none]
        | some d =>
            rw [Option.map_some]
            dsimp only
            rw [Permissions.policy_set]
            by_cases hk : kind = permission_for p.kind
            · rw [if_pos hk, if_pos ⟨rfl, rfl, hk, Option.some_ne_none d⟩]
            · rw [if_neg hk, if_neg fun hr => hk hr.2.2.1]
      · rw [if_neg hp, if_neg fun hr => hp hr.2.1]

end

end Actor

section
variable [Crypto] {Known : PublicKey → Prop} {tr : List Moment} {w : World}

theorem run_trusting (hr : (engine Known).Run tr w) : w.actor.Trusting := by
  induction hr with
  | start h =>
      obtain ⟨identity, trust, settings, _, rfl⟩ := h
      exact fun id _ => rfl
  | next hrun _ ih => exact ((run_sound hrun).moves _).invariant (fun _ _ => Actor.Move.trusting) ih

/-- One event of a run, on the routes that peers asked for. -/
theorem World.Sound.consented (h : w.Sound Known) (i : Input) :
    w.met.Consented i.env i.event (w.step i).actor :=
  (h.moves i).invariant (fun _ _ => Actor.Move.consented) (.refl _ _ _)

/-- A request leaves the permissions as they are. -/
theorem World.Sound.policy_of (h : w.Sound Known) {i : Input} {conn_id : Nat} {req : RouteRequest}
    (he : i.event = .Control conn_id (.RouteRequest req)) (peer : DeviceId)
    (kind : PermissionKind) :
    (w.step i).actor.policy_of peer kind = w.actor.policy_of peer kind := by
  have hvital := (h.moves i).invariant
    (P := fun a => (a.trust.get peer).map TrustedDevice.vital =
      (w.met.trust.get peer).map TrustedDevice.vital)
    (fun a b hmove ha => by
      rw [he] at hmove
      exact (hmove.vital peer).trans ha) rfl
  exact Actor.policy_of_vital hvital kind

end

/-! ## 3. The microphone -/

/-- The sender of such a route opens this device's microphone: it is the route's source, or
(`Actor.mix_source`) what is mixed into it. -/
def RouteKind.captures_microphone (kind : RouteKind) : Bool :=
  kind.local_is_source && (kind.is_mic || kind == .SendMixed)

/-- A route that a peer asked for is being started, or runs. -/
def Route.under_way (r : Route) : Prop :=
  r.requested_locally = false ∧ (r.status = .Starting ∨ r.status = .Active)

namespace Moment

variable [Crypto]

/-- Whose word the microphone of a route is sent on that this step accepts: the user's standing
one, the user's answer to the prompt for this request, or an earlier one that a resumed session
brings back. -/
def lends_microphone (q : Moment) (r : Route) : Prop :=
  (q.1.step q.2).actor.policy_of r.peer .UseMyMicrophone = .Allow ∨
    (∃ request_id remember p,
      q.2.event = .Command (.RespondRouteRequest request_id true remember) ∧
        q.1.actor.requests.get request_id = some p ∧ p.peer = r.peer ∧
        p.request.route.toUInt8 = r.id ∧ p.kind = r.kind) ∨
    ((q.1.step q.2).actor.policy_of r.peer .UseMyMicrophone = .Ask ∧
      q.1.actor.resumes q.2.env r.peer r.kind = true)

/-- The microphone goes into no route of a peer without consent to it, and into none that is
denied it. -/
def spares_microphone (q : Moment) : Prop :=
  ∀ r ∈ (q.1.step q.2).actor.routes, r.under_way → r.kind.captures_microphone = true →
    (∃ r₀ ∈ q.1.actor.routes, r₀.under_way ∧ r₀.key = r.key ∧ r₀.kind = r.kind) ∨
      (q.lends_microphone r ∧ (q.1.step q.2).actor.policy_of r.peer .UseMyMicrophone ≠ .Deny)

/-- A mix that the permission for audio admits is admitted by the permission for the microphone as
well; and an answer that accepts a prompt for the microphone meets no denial of it, or allows it. -/
def heeds_microphone (q : Moment) : Prop :=
  (∀ peer req, q.1.actor.requests_route q.2.event peer req .SendMixed →
    q.1.actor.admits_request q.2.env peer .SendMixed →
      q.1.actor.policy_of peer .UseMyMicrophone = .Allow ∨
        (q.1.actor.policy_of peer .UseMyMicrophone = .Ask ∧
          q.1.actor.resumes q.2.env peer .SendMixed = true)) ∧
    ∀ request_id remember p,
      q.2.event = .Command (.RespondRouteRequest request_id true remember) →
        q.1.actor.requests.get request_id = some p → p.kind.captures_microphone = true →
          (remember = true ∧ p.kind.is_mic = true) ∨
            q.1.actor.policy_of p.peer .UseMyMicrophone ≠ .Deny

end Moment

/-- A request is admitted: the permission that admits it is the microphone's own, or the one for
audio and then the microphone's as well. -/
theorem Moment.spares_request [Crypto] {Known : PublicKey → Prop} {q : Moment} {req : RouteRequest}
    {r : Route} (hs : q.1.Sound Known) (hq : q.heeds_microphone)
    (hreq : q.1.actor.requests_route q.2.event r.peer req r.kind)
    (ha : q.1.actor.admits_request q.2.env r.peer r.kind)
    (hmic : r.kind.captures_microphone = true) :
    q.lends_microphone r ∧ (q.1.step q.2).actor.policy_of r.peer .UseMyMicrophone ≠ .Deny := by
  have hpolicy : (q.1.step q.2).actor.policy_of r.peer .UseMyMicrophone =
      q.1.actor.policy_of r.peer .UseMyMicrophone := by
    obtain ⟨conn_id, he, _⟩ := hreq
    exact hs.policy_of he r.peer _
  have hadmits : q.1.actor.policy_of r.peer .UseMyMicrophone = .Allow ∨
      (q.1.actor.policy_of r.peer .UseMyMicrophone = .Ask ∧
        q.1.actor.resumes q.2.env r.peer r.kind = true) := by
    unfold RouteKind.captures_microphone at hmic
    rw [Bool.and_eq_true, Bool.or_eq_true, beq_iff_eq] at hmic
    obtain ⟨hsource, his | hmixed⟩ := hmic
    · unfold Actor.admits_request Actor.permission_for at ha
      rw [if_pos hsource, if_pos his] at ha
      exact ha
    · rw [hmixed] at hreq ha ⊢
      exact hq.1 r.peer req hreq ha
  unfold Moment.lends_microphone
  rw [hpolicy]
  rcases hadmits with h | h
  · exact ⟨.inl h, h ▸ nofun⟩
  · exact ⟨.inr (.inr h), h.1 ▸ nofun⟩

/-- An answer to a prompt accepts a route: the device is connected, and what it is denied is not the
microphone. -/
theorem Moment.spares_answer [Crypto] {q : Moment} {request_id : Nat} {remember : Bool}
    {p : PendingRequest} {r : Route} (ht : q.1.actor.Trusting) (hq : q.heeds_microphone)
    (he : q.2.event = .Command (.RespondRouteRequest request_id true remember))
    (hp : q.1.actor.requests.get request_id = some p) (hl : q.1.actor.link p.peer ≠ none)
    (hpeer : r.peer = p.peer) (hid : r.id = p.request.route.toUInt8) (hkind : r.kind = p.kind)
    (hmic : r.kind.captures_microphone = true) :
    q.lends_microphone r ∧ (q.1.step q.2).actor.policy_of r.peer .UseMyMicrophone ≠ .Deny := by
  refine ⟨.inr (.inl ⟨request_id, remember, p, he, hp, hpeer.symm, hid.symm, hkind.symm⟩), ?_⟩
  have hpolicy := q.1.met.respond_request_policy q.2.env hp true remember r.peer .UseMyMicrophone
  have hstep : (q.1.step q.2).actor = q.1.met.respond_request q.2.env request_id true remember := by
    rw [World.step_actor, he]
    rfl
  rw [hstep, hpolicy]
  split
  · exact nofun
  · next hn =>
      rw [hkind] at hmic
      rcases hq.2 request_id remember p he hp hmic with ⟨hremember, his⟩ | hdeny
      · -- the permission for this kind of route is the one that the answer sets
        refine absurd ⟨hremember, hpeer, ?_, fun hnone => hl (ht p.peer hnone)⟩ hn
        unfold RouteKind.captures_microphone at hmic
        rw [Bool.and_eq_true] at hmic
        unfold Actor.permission_for
        rw [if_pos hmic.1, if_pos his]
      · rw [hpeer]
        exact hdeny

/-- **The microphone.** In every run in which a mix is only admitted where the microphone is, and no
prompt for the microphone is accepted against a denial without changing it, every route of a peer
that sends the microphone was accepted on the user's word for it. -/
theorem microphone_consent [Crypto] {Known : PublicKey → Prop} {tr : List Moment} {w : World}
    (hr : (engine Known).Run tr w) (hh : ∀ q ∈ tr, q.heeds_microphone) :
    ∀ q ∈ tr, q.spares_microphone := by
  intro q hq
  obtain ⟨tr₁, tr₂, rfl⟩ := List.append_of_mem hq
  obtain ⟨hbefore, _⟩ := hr.before
  have hsound := run_sound hbefore
  intro r hmem ⟨hlocal, hstatus⟩ hmic
  -- A route that continues one from before was under way then, under the same key and of the same
  -- kind.
  have hold {r₀ : Route} (hr₀ : r₀ ∈ q.1.actor.routes) (hc : r₀.Continues r) :
      ∃ r₀ ∈ q.1.actor.routes, r₀.under_way ∧ r₀.key = r.key ∧ r₀.kind = r.kind := by
    refine ⟨r₀, hr₀, ⟨hc.requested_locally ▸ hlocal, ?_⟩, ?_, hc.kind.symm⟩
    · rcases hc.status with he | ⟨he, _⟩ | he
      · rw [← he]
        exact hstatus
      · exact .inl he
      · rcases hstatus with hs | hs <;> exact nomatch he.symm.trans hs
    · unfold Route.key
      rw [hc.peer, hc.id]
  -- Otherwise the route is new, and new in answer to a prompt or to a request.
  by_cases he : ∃ request_id remember p,
      q.2.event = .Command (.RespondRouteRequest request_id true remember) ∧
        q.1.actor.requests.get request_id = some p
  · obtain ⟨request_id, remember, p, he, hp⟩ := he
    have hstep :
        (q.1.step q.2).actor = q.1.met.respond_request q.2.env request_id true remember := by
      rw [World.step_actor, he]
      rfl
    rw [hstep] at hmem
    rcases q.1.met.respond_request_routes q.2.env hp true remember r hmem hlocal with
      ⟨r₀, hr₀, hc⟩ | ⟨_, hl, hpeer, hid, hkind⟩
    · exact .inl (hold hr₀ hc)
    · exact .inr
        (Moment.spares_answer (run_trusting hbefore) (hh q hq) he hp hl hpeer hid hkind hmic)
  · rcases hsound.consented q.2 r hmem hlocal with ⟨r₀, hr₀, hc⟩ | ⟨req, hconsents, hid⟩
    · exact .inl (hold hr₀ hc)
    · rcases hconsents with ⟨hrequest, hadmits⟩ | ⟨request_id, remember, p, hev, hp, _⟩
      · exact .inr (Moment.spares_request hsound (hh q hq) hrequest hadmits hmic)
      · exact absurd ⟨request_id, remember, p, hev, hp⟩ he

/-! ## 4. Runs -/

namespace Sample

/-- The connected peer asks this device for a stream. -/
def asks_here (source sink : String) (route : UInt32) : Input :=
  ⟨env, .Control 1 (.RouteRequest
    { route, source_endpoint := source, sink_endpoint := sink, requester_is_source := false
      profile := none, replace := false })⟩

/-- The user lets the peer hear this computer, and not the microphone. -/
def no_microphone : Permissions := { Permissions.default with use_my_microphone := .Deny }

/-- The user lets the peer have the microphone. -/
def microphone : Permissions := { Permissions.default with use_my_microphone := .Allow }

theorem asks_here_admitted (permissions : Permissions) (source sink : String) (route : UInt32) :
    (engine Known).Admits (start permissions)
      (connects 1 peer peer_key ++ [asks_here source sink route]) := by
  refine ⟨.inl rfl, ⟨⟨_, List.mem_singleton.2 rfl, ?_⟩, ?_⟩, ?_, trivial⟩
  · simp [Call.reports]
    rfl
  · decide
  · exact List.mem_cons_self

end Sample

open Sample in
/-- The mix with the microphone goes to a peer that is denied the microphone. -/
theorem microphone_in_mix :
    let es := connects 1 peer peer_key
    let q : Moment :=
      ((engine Known).exec (start no_microphone) es, asks_here "mixed" "speaker" 2)
    (engine Known).Run ((engine Known).trace (start no_microphone) es ++ [q]) (q.1.step q.2) ∧
      ¬ q.spares_microphone := by
  dsimp only
  constructor
  · have hrun := Machine.run_of_admits (start_init no_microphone)
      (asks_here_admitted no_microphone "mixed" "speaker" 2)
    rw [Machine.trace_append] at hrun
    exact hrun
  · intro h
    generalize hw : ((engine Known).exec (start no_microphone) (connects 1 peer peer_key)).step
      (asks_here "mixed" "speaker" 2) = w at h
    have hroute : ∃ r ∈ w.actor.routes, r.requested_locally = false ∧ r.status = .Starting ∧
        r.kind = .SendMixed ∧ r.peer = peer := by
      rw [← hw]
      decide +kernel
    have hdenied : w.actor.policy_of peer .UseMyMicrophone = .Deny := by
      rw [← hw]
      decide +kernel
    have hnone : ((engine Known).exec (start no_microphone)
        (connects 1 peer peer_key)).actor.routes = [] := by
      rfl
    obtain ⟨r, hr, hlocal, hstatus, hkind, hpeer⟩ := hroute
    unfold Moment.spares_microphone at h
    rw [hw] at h
    rcases h r hr ⟨hlocal, .inl hstatus⟩ (hkind ▸ rfl) with ⟨r₀, hr₀, _⟩ | ⟨_, hallowed⟩
    · rw [hnone] at hr₀
      exact absurd hr₀ List.not_mem_nil
    · exact hallowed (hpeer ▸ hdenied)

open Sample in
/-- The microphone goes to a peer that the user lets have it. -/
theorem microphone_consent_allowed :
    let es := connects 1 peer peer_key ++ [asks_here "mic" "speaker" 2]
    (∀ q ∈ (engine Known).trace (start microphone) es, Moment.spares_microphone q) ∧
      ∃ r ∈ ((engine Known).exec (start microphone) es).actor.routes,
        r.kind = .SendMicToSpeaker := by
  refine ⟨microphone_consent (Machine.run_of_admits (start_init microphone)
    (asks_here_admitted microphone "mic" "speaker" 2)) fun q hq => ?_, by decide +kernel⟩
  simp only [connects, asks_here, Machine.trace, List.cons_append, List.nil_append,
    List.mem_cons, List.not_mem_nil, or_false] at hq
  rcases hq with rfl | rfl | rfl
  · constructor
    · rintro _ _ ⟨_, he, _⟩
      cases he
    · intro _ _ _ he
      cases he
  · constructor
    · rintro _ _ ⟨_, he, _⟩
      cases he
    · intro _ _ _ he
      cases he
  · constructor
    · rintro _ _ ⟨_, he, _, _, _, hkind⟩
      cases he
      exact absurd hkind (by decide)
    · intro _ _ _ he
      cases he

end SoundPush
