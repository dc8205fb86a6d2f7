/-
`Revocation` -- a permission that is denied stops what it let in.

Permissions are written in three places: the settings, a remembered answer to a
prompt, and a pairing. Only the settings look for the routes that run on what is
taken away, and a prompt is answered without a look at what is in force by then.

`Actor.Obeyed` is the invariant: no route that a peer asked for is one that its
permissions deny. Most events neither set a permission nor answer a prompt, and for
those every single move keeps it (`Move.obeyed`). The two commands that do are
treated as a whole. For the settings the routes are looked for by key, which finds
the right ones as long as a device has no two of one key; for the answer
`respond_request_obeyed` says what has to be true of the answer itself.
`Moment.enforces` collects both, and the run theorem follows by the rule of
`Machine`.
-/
import SoundPush.Engine.Consent

set_option autoImplicit false

namespace SoundPush

/-! ## 1. What a peer is denied -/

namespace Actor

/-- No route that a peer asked for is one that its permissions deny. -/
def Obeyed (s : Actor) : Prop :=
  ∀ r ∈ s.routes, r.requested_locally = false → ∀ d, s.trust.get r.peer = some d →
    d.permissions.policy (permission_for r.kind) ≠ .Deny

theorem Obeyed.of_continues {s s' : Actor} (h : s.Obeyed) (hr : Continues s.routes s'.routes)
    (ht : ∀ id d', s'.trust.get id = some d' → ∃ d, s.trust.get id = some d ∧
      d'.permissions = d.permissions) : s'.Obeyed := by
  intro r' hr' hlocal d' hd'
  obtain ⟨r, hr, hc⟩ := hr r' hr' hlocal
  obtain ⟨d, hd, he⟩ := ht _ d' hd'
  rw [he, hc.kind]
  exact h r hr (hc.requested_locally ▸ hlocal) d (hc.peer ▸ hd)

section
variable [Crypto]

/-- The handling of an event that neither answers a prompt nor sets a permission. -/
theorem Move.obeyed {env : Env} {s₀ s s' : Actor} {event : Event} (hmove : Move env s₀ event s s')
    (hp : ∀ peer kind policy, ¬ s₀.permits event peer kind policy)
    (ho : ∀ peer req kind, s₀.consents env event peer req kind →
      s.policy_of peer (permission_for kind) ≠ .Deny) (h : s.Obeyed) : s'.Obeyed := by
  have hsame : ∀ id d', s.trust.get id = some d' → ∃ d, s.trust.get id = some d ∧
      d'.permissions = d.permissions := fun id d hd => ⟨d, hd, rfl⟩
  cases hmove with
  | upkeep hup =>
      refine h.of_continues hup.routes ?_
      rw [hup.standing.trust]
      exact hsame
  | open_route peer req kind hs hc =>
      intro r' hr' hlocal d' hd'
      rw [hs.standing.trust] at hd'
      rcases hs.routes r' hr' hlocal with ⟨r, hr, hcont⟩ | ⟨rfl, _, rfl, _⟩
      · rw [hcont.kind]
        exact h r hr (hcont.requested_locally ▸ hlocal) d' (hcont.peer ▸ hd')
      · have hpolicy := ho _ _ _ hc
        unfold policy_of at hpolicy
        rwa [hd'] at hpolicy
  | trust t ht _ =>
      refine h.of_continues (.refl _) fun id d' hd' => ?_
      have hvital := ht id
      rw [show t.get id = some d' from hd', Option.map_some] at hvital
      obtain ⟨d, hd, he⟩ := Option.map_eq_some_iff.1 hvital.symm
      exact ⟨d, hd, (TrustedDevice.vital_eq.1 he).2.2.2.symm⟩
  | judge id blocked ok _ _ =>
      refine h.of_continues (.refl _) fun k d' hd' => ?_
      rw [TrustStore.get_update] at hd'
      split at hd'
      · obtain ⟨d, hd, rfl⟩ := Option.map_eq_some_iff.1 hd'
        exact ⟨d, hd, rfl⟩
      · exact ⟨d', hd', rfl⟩
  | forget id ok _ _ =>
      refine h.of_continues (.refl _) fun k d' hd' => ?_
      rw [TrustStore.get_remove] at hd'
      split at hd'
      · cases hd'
      · exact ⟨d', hd', rfl⟩
  | permit peer kind policy hpermits => exact absurd hpermits (hp _ _ _)
  | pair id p _ =>
      -- a newly paired device is denied nothing
      intro r hr hlocal d hd
      rw [TrustStore.get_upsert] at hd
      split at hd
      · obtain rfl := Option.some_inj.1 hd
        exact Permissions.policy_default _
      · exact h r hr hlocal d hd
  | _ => exact h

end

section
variable (env : Env) (s : Actor)

theorem stop_routes_routes (keys : List RouteKey) (reason : StopReason) (notify_peer : Bool) :
    (s.stop_routes env keys reason notify_peer).routes =
      keys.foldl (fun l k => l.eraseP fun r => r.key = k) s.routes := by
  unfold stop_routes
  induction keys generalizing s with
  | nil => rfl
  | cons key keys ih =>
      rw [List.foldl_cons, List.foldl_cons, ih, stop_route_by_key_tables]
      rfl

/-- The settings deny a permission: the routes that ran on it are found, if their ids are their
own. -/
theorem on_set_permission_obeyed {id : DeviceId} {kind : PermissionKind} {policy : Policy}
    (hone : policy = .Deny → ∀ key : RouteKey, key.peer = id → s.routes.countP (has_key key) ≤ 1)
    (h : s.Obeyed) : (s.on_set_permission env id kind policy).Obeyed := by
  have hget (k : DeviceId) : (s.set_permission env id kind policy).trust.get k =
      if k = id then (s.trust.get k).map fun d =>
        { d with permissions := d.permissions.set kind policy } else s.trust.get k :=
    TrustStore.get_update _ _ _ _ _
  unfold on_set_permission
  dsimp only
  by_cases hdeny : policy = .Deny
  · rw [if_pos hdeny]
    have hroutes : (s.set_permission env id kind policy).routes = s.routes := rfl
    generalize s.set_permission env id kind policy = s₁ at hget hroutes ⊢
    have hup := s₁.enforce_permissions_upkeep env id
    intro r hr hlocal d' hd'
    rw [hup.standing.trust] at hd'
    by_cases hpeer : r.peer = id
    · unfold enforce_permissions at hr
      rw [hpeer] at hd'
      rw [hd'] at hr
      dsimp only at hr
      rw [stop_routes_routes, hroutes] at hr
      have hmem := (List.foldl_eraseP_sublist _ _).subset hr
      -- `enforce_permissions` stops routes by key, which finds the right one where no two share
      -- it.
      have hkeys := List.not_mem_of_foldl_eraseP (fun key hkey => ?_) r hr
      · intro hpolicy
        exact hkeys (List.mem_map.2 ⟨r, List.mem_filter.2 ⟨hmem, by simp [*]⟩, rfl⟩)
      · obtain ⟨q, hq, rfl⟩ := List.mem_map.1 hkey
        have hqpeer := of_decide_eq_true (List.mem_filter.1 hq).2
        exact hone hdeny q.key hqpeer.1
    · obtain ⟨r₀, hr₀, hc⟩ := hup.routes r hr hlocal
      rw [hget, if_neg hpeer] at hd'
      rw [hc.kind]
      exact h r₀ (hroutes ▸ hr₀) (hc.requested_locally ▸ hlocal) d' (hc.peer ▸ hd')
  · rw [if_neg hdeny]
    intro r hr hlocal d' hd'
    rw [hget] at hd'
    split at hd'
    · obtain ⟨d, hd, rfl⟩ := Option.map_eq_some_iff.1 hd'
      dsimp only
      rw [Permissions.policy_set]
      split
      · exact hdeny
      · exact h r hr hlocal d hd
    · exact h r hr hlocal d' hd'

/-- The user answers a prompt: what is accepted is not denied, and nothing runs
on what is denied. -/
theorem respond_request_obeyed {request_id : Nat} {p : PendingRequest}
    (hp : s.requests.get request_id = some p) {accept remember : Bool}
    (haccept : accept = true → remember = true ∨ ∀ d, s.trust.get p.peer = some d →
      d.permissions.policy (permission_for p.kind) ≠ .Deny)
    (hdeny : accept = false → remember = true → ∀ r ∈ s.routes, r.requested_locally = false →
      r.peer = p.peer → permission_for r.kind ≠ permission_for p.kind)
    (h : s.Obeyed) : (s.respond_request env request_id accept remember).Obeyed := by
  intro r' hr' hlocal d' hd'
  rw [s.respond_request_trust env hp] at hd'
  rcases s.respond_request_routes env hp accept remember r' hr' hlocal with
    ⟨r, hr, hc⟩ | ⟨haccepted, _, hpeer, _, hkind⟩
  · have hrlocal := hc.requested_locally ▸ hlocal
    rw [hc.peer] at hd'
    rw [hc.kind]
    -- The answer is for this once: the permissions are as they were.
    cases remember with
    | false => exact h r hr hrlocal d' hd'
    | true =>
        rw [if_pos rfl, TrustStore.get_update] at hd'
        split at hd'
        · next hpeer =>
            obtain ⟨d, hd, rfl⟩ := Option.map_eq_some_iff.1 hd'
            dsimp only
            rw [Permissions.policy_set]
            split
            · next hkind =>
                cases accept with
                | true => exact nofun
                | false => exact absurd hkind (hdeny rfl rfl r hr hrlocal hpeer)
            · exact h r hr hrlocal d hd
        · exact h r hr hrlocal d' hd'
  · rw [hpeer] at hd'
    rw [hkind]
    cases remember with
    | false => exact (haccept haccepted).resolve_left Bool.false_ne_true d' hd'
    | true =>
        rw [if_pos rfl, TrustStore.get_update, if_pos rfl] at hd'
        obtain ⟨d, hd, rfl⟩ := Option.map_eq_some_iff.1 hd'
        dsimp only
        rw [Permissions.policy_set, if_pos rfl, if_pos haccepted]
        exact nofun

end

end Actor

/-! ## 2. Runs -/

namespace Moment

/-- What is denied in this step is found. A permission is denied in the settings while the routes
with the device have ids of their own; an answer that is to be remembered denies what no route of
the device runs on; and a prompt is accepted for good, or against no denial. -/
def enforces (q : Moment) : Prop :=
  match q.2.event with
  | .Command (.SetPermission id _ policy) =>
      policy = .Deny → ∀ key : RouteKey, key.peer = id →
        q.1.actor.routes.countP (has_key key) ≤ 1
  | .Command (.RespondRouteRequest request_id accept remember) =>
      ∀ p, q.1.actor.requests.get request_id = some p →
        (accept = true → remember = true ∨ ∀ d, q.1.actor.trust.get p.peer = some d →
          d.permissions.policy (Actor.permission_for p.kind) ≠ .Deny) ∧
        (accept = false → remember = true → ∀ r ∈ q.1.actor.routes, r.requested_locally = false →
          r.peer = p.peer → Actor.permission_for r.kind ≠ Actor.permission_for p.kind)
  | _ => True

end Moment

section
variable [Crypto]

theorem World.Sound.obeyed_step {Known : PublicKey → Prop} {w : World} {i : Input}
    (hs : w.Sound Known) (hq : Moment.enforces (w, i)) (h : w.actor.Obeyed) :
    (w.step i).actor.Obeyed := by
  unfold Moment.enforces at hq
  split at hq
  · next id kind policy he =>
      rw [World.step_actor, show i.event = _ from he]
      exact w.met.on_set_permission_obeyed i.env hq h
  · next request_id accept remember he =>
      rw [World.step_actor, show i.event = _ from he]
      change (w.met.respond_request i.env request_id accept remember).Obeyed
      cases hp : w.met.requests.get request_id with
      | none =>
          unfold Actor.respond_request
          rw [hp]
          exact h
      | some p => exact w.met.respond_request_obeyed i.env hp (hq p hp).1 (hq p hp).2 h
  -- No other event sets a permission; on the way through its moves the permissions stay those of
  -- the start.
  · next hset hrespond =>
      have hset : ∀ id kind policy, i.event ≠ .Command (.SetPermission id kind policy) :=
        fun id kind policy he => hset id kind policy he
      have hrespond : ∀ request_id accept remember,
          i.event ≠ .Command (.RespondRouteRequest request_id accept remember) :=
        fun request_id accept remember he => hrespond request_id accept remember he
      refine ((hs.moves i).invariant (P := fun a => a.Obeyed ∧
        ∀ conn_id req, i.event = .Control conn_id (.RouteRequest req) → ∀ id,
          (a.trust.get id).map TrustedDevice.vital = (w.met.trust.get id).map TrustedDevice.vital)
        ?_ ⟨h, fun _ _ _ _ => rfl⟩).1
      rintro a b hmove ⟨ha, hvital⟩
      refine ⟨hmove.obeyed ?_ ?_ ha, fun conn_id req he id => ?_⟩
      · intro peer kind policy hpermits
        unfold Actor.permits at hpermits
        split at hpermits
        · next he => exact hset _ _ _ he
        · next he => exact hrespond _ _ _ he
        · exact hpermits
      · rintro peer req kind (⟨⟨conn_id, he, _⟩, hadmits⟩ | ⟨request_id, remember, p, he, _⟩)
        · -- the permissions are those that the request was judged by
          rw [Actor.policy_of_vital (hvital conn_id req he peer)]
          rcases hadmits with hallow | ⟨hask, _⟩
          · rw [hallow]
            decide
          · rw [hask]
            decide
        · exact absurd he (hrespond _ _ _)
      · rw [he] at hmove
        exact (hmove.vital id).trans (hvital conn_id req he id)

/-- **Revocation.** In every run whose steps find what they deny, no route that a trusted peer asked
for is being started, runs or is paused against its permissions. -/
theorem revocation_complete {Known : PublicKey → Prop} {tr : List Moment} {w : World}
    (hr : (engine Known).Run tr w) (hq : ∀ q ∈ tr, q.enforces) :
    ∀ r ∈ w.actor.routes, r.requested_locally = false → r.status ≠ .Stopped →
      ∀ d, w.actor.trust.get r.peer = some d →
        d.permissions.policy (Actor.permission_for r.kind) ≠ .Deny := by
  have hobeyed : w.actor.Obeyed := by
    induction hr with
    | start h =>
        obtain ⟨identity, trust, settings, _, rfl⟩ := h
        exact fun r hr => absurd hr List.not_mem_nil
    | next hrun _ ih =>
        have hbefore := ih fun q h => hq q (List.mem_append_left _ h)
        exact (run_sound hrun).obeyed_step (hq _ (List.mem_append_right _ List.mem_cons_self))
          hbefore
  exact fun r hr hlocal _ => hobeyed r hr hlocal

end

/-! ## 3. Two runs -/

namespace Sample

/-- The user lets the peer have the microphone in one stream, and then denies it for good. -/
def denies_later : List Input :=
  connects 1 peer peer_key ++
    [asks_here "mic" "speaker" 2, ⟨env, .Command (.RespondRouteRequest 1 true false)⟩,
      asks_here "mic" "virtual-mic" 4, ⟨env, .Command (.RespondRouteRequest 2 false true)⟩]

theorem denies_later_admitted : (engine Known).Admits (start .default) denies_later := by
  refine ⟨.inl rfl, ⟨⟨_, List.mem_singleton.2 rfl, ?_⟩, ?_⟩, ?_, trivial, ?_, trivial, trivial⟩
  · simp [Call.reports]
    rfl
  · decide
  · exact List.mem_cons_self
  · exact List.mem_cons_self

/-- The same peer is denied the microphone in the settings while it has it. -/
def revokes : List Input :=
  connects 1 peer peer_key ++
    [asks_here "mic" "speaker" 2, ⟨env, .Command (.SetPermission peer .UseMyMicrophone .Deny)⟩]

theorem revokes_admitted : (engine Known).Admits (start microphone) revokes := by
  refine ⟨.inl rfl, ⟨⟨_, List.mem_singleton.2 rfl, ?_⟩, ?_⟩, ?_, trivial, trivial⟩
  · simp [Call.reports]
    rfl
  · decide
  · exact List.mem_cons_self

end Sample

open Sample in
/-- The first stream goes on when the second is denied for good. -/
theorem denied_stream_runs :
    let w := (engine Known).exec (start .default) denies_later
    (engine Known).Run ((engine Known).trace (start .default) denies_later) w ∧
      ∃ r ∈ w.actor.routes, r.requested_locally = false ∧ r.status = .Starting ∧
        w.actor.policy_of r.peer (Actor.permission_for r.kind) = .Deny ∧
        w.actor.trust.get r.peer ≠ none :=
  ⟨Machine.run_of_admits (start_init .default) denies_later_admitted, by decide +kernel⟩

open Sample in
/-- What the settings deny is stopped. -/
theorem revocation_complete_settings :
    let w := (engine Known).exec (start microphone) revokes
    (∀ r ∈ w.actor.routes, r.requested_locally = false → r.status ≠ .Stopped →
      ∀ d, w.actor.trust.get r.peer = some d →
        d.permissions.policy (Actor.permission_for r.kind) ≠ .Deny) ∧
      ((engine Known).exec (start microphone) (revokes.take 3)).actor.routes ≠ [] := by
  refine ⟨revocation_complete (Machine.run_of_admits (start_init microphone) revokes_admitted)
    fun q hq => ?_, by decide +kernel⟩
  simp only [revokes, connects, asks_here, Machine.trace, List.cons_append, List.nil_append,
    List.mem_cons, List.not_mem_nil, or_false] at hq
  rcases hq with rfl | rfl | rfl | rfl
  · trivial
  · trivial
  · trivial
  · intro _ key _
    have hone :
        ((engine Known).exec (start microphone) (revokes.take 3)).actor.routes.length ≤ 1 := by
      decide +kernel
    exact List.countP_le_length.trans hone

end SoundPush
