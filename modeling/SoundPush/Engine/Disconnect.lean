/-
`Disconnect` -- what keeps a device away that the user disconnected.

Disconnecting aborts the dial in progress and turns automatic reconnection off,
so later dials need the user again. A dial whose transport has connected is past
its task, and nothing looks back at the disconnect when its handshake is done.
`disconnect_sticks` says that such dials are the only way around it.

What a connection id stands for carries the argument: ids are given out in order, so
the number `n` that was next when the user disconnected parts the dials of before
from those of since. `World.Apart n id` says that nothing is left by which a
connection dialed here could become a session with the device: no wish to reconnect,
no pairing that was dialed, and no work since `n` that aims at it.
`World.Apart.move` keeps it for one move of the engine and `step` for one event,
unless the step reopens the device (`Moment.reopens`) or an older dial reaches it
late (`Moment.reaches_late`). The handler of the disconnect begins it
(`Actor.disconnect_apart`).
-/
import SoundPush.Engine.Blocked

set_option autoImplicit false

namespace SoundPush

section
variable [Crypto]

/-! ## 1. What every run keeps -/

namespace Actor

/-- Devices are filed under their ids, and only connections that came in wait to pair. -/
structure Filed (s : Actor) : Prop where
  own : ∀ id d, s.trust.get id = some d → d.device_id = id
  unpaired : ∀ conn_id est since, s.unpaired.get conn_id = some (est, since) → est.dialed = false

omit [Crypto] in
theorem Filed.set_trust {s s' : Actor} (h : s.Filed) (hu : s'.unpaired = s.unpaired)
    (ht : ∀ id d', s'.trust.get id = some d' → d'.device_id = id ∨
      ∃ d, s.trust.get id = some d ∧ d'.device_id = d.device_id) : s'.Filed where
  own id d' hd' := by
    rcases ht id d' hd' with hid | ⟨d, hd, hid⟩
    · exact hid
    · exact hid.trans (h.own id d hd)
  unpaired c e t hget := h.unpaired c e t (hu ▸ hget)

theorem Move.filed {env : Env} {s₀ s s' : Actor} {event : Event} (hmove : Move env s₀ event s s')
    (h : s.Filed) : s'.Filed := by
  have hupdate {k : DeviceId} {f : TrustedDevice → TrustedDevice} {ok : Bool}
      {id : DeviceId} {d' : TrustedDevice} (hd' : (s.trust.update k f ok).get id = some d')
      (hf : ∀ d, (f d).device_id = d.device_id) :
      ∃ d, s.trust.get id = some d ∧ d'.device_id = d.device_id := by
    rw [TrustStore.get_update] at hd'
    split at hd'
    · obtain ⟨d, hd, rfl⟩ := Option.map_eq_some_iff.1 hd'
      exact ⟨d, hd, hf d⟩
    · exact ⟨d', hd', rfl⟩
  cases hmove with
  | upkeep hup =>
      exact ⟨hup.standing.trust ▸ h.own,
        fun c e t hget => h.unpaired c e t (hup.standing.unpaired _ _ hget)⟩
  | open_route _ _ _ hs _ =>
      exact ⟨hs.standing.trust ▸ h.own,
        fun c e t hget => h.unpaired c e t (hs.standing.unpaired _ _ hget)⟩
  | trust t hv _ =>
      refine h.set_trust rfl fun id d' hd' => .inr ?_
      have hvital := hv id
      rw [show t.get id = some d' from hd', Option.map_some] at hvital
      obtain ⟨d, hd, he⟩ := Option.map_eq_some_iff.1 hvital.symm
      exact ⟨d, hd, (TrustedDevice.vital_eq.1 he).1.symm⟩
  | judge => exact h.set_trust rfl fun id d' hd' => .inr (hupdate hd' fun _ => rfl)
  | permit => exact h.set_trust rfl fun id d' hd' => .inr (hupdate hd' fun _ => rfl)
  | forget =>
      refine h.set_trust rfl fun id d' hd' => ?_
      dsimp only at hd'
      rw [TrustStore.get_remove] at hd'
      split at hd'
      · cases hd'
      · exact .inr ⟨d', hd', rfl⟩
  | pair k p _ =>
      refine h.set_trust rfl fun id d' hd' => ?_
      dsimp only at hd'
      rw [TrustStore.get_upsert] at hd'
      split at hd'
      · next hid =>
          obtain rfl := Option.some_inj.1 hd'
          exact .inl hid.symm
      · exact .inr ⟨d', hd', rfl⟩
  | arrive est _ hd =>
      refine ⟨h.own, fun c e t hget => ?_⟩
      dsimp only at hget
      rw [Table.get_insert] at hget
      split at hget
      · obtain ⟨rfl, _⟩ := Prod.mk.inj (Option.some_inj.1 hget)
        exact hd
      · exact h.unpaired c e t hget
  | _ => exact ⟨h.own, h.unpaired⟩

end Actor

theorem run_filed {Known : PublicKey → Prop} {tr : List Moment} {w : World}
    (hr : (engine Known).Run tr w) : w.actor.Filed := by
  induction hr with
  | start h =>
      obtain ⟨identity, trust, settings, hloaded, rfl⟩ := h
      exact ⟨fun id d hd => (hloaded.id_of_key id d hd).1,
        fun c e t hget => nomatch (Table.get_empty c).symm.trans hget⟩
  | @next tr w i hrun _ ih =>
      exact ((run_sound hrun).moves i).invariant (fun a b hmove => hmove.filed)
        ⟨ih.own, ih.unpaired⟩

/-! ## 2. What happened in a run -/

namespace Moment

/-- The user asks for the device again, or a dial to pair that the user asked for reaches it; or the
device itself dials in, or pairs on a connection that it dialed. Dials begun since then have ids
from `n` on. -/
def reopens (q : Moment) (id : DeviceId) (n : Nat) : Prop :=
  match q.2.event with
  | .Command (.Connect device_id) => device_id = id
  | .Command (.SetAutoConnect device_id enabled) => device_id = id ∧ enabled = true
  | .Dialed conn_id conn pair =>
      n ≤ conn_id ∧ pair.isSome = true ∧ conn.peer_public_key.device_id = id
  | .Established est => est.dialed = false ∧ est.conn.peer_public_key.device_id = id
  | event => ∃ p, q.1.met.completes q.2.env event id p ∧ p.dialed = false

/-- A dial from before the connection id `n` reaches the device. -/
def reaches_late (q : Moment) (id : DeviceId) (n : Nat) : Prop :=
  ∃ conn_id conn pair, q.2.event = .Dialed conn_id conn pair ∧ conn_id < n ∧
    conn.peer_public_key.device_id = id

/-- No connection that was dialed to the device is in its handshake, or pairing. -/
def nothing_under_way (p : Moment) (id : DeviceId) : Prop :=
  (∀ conn_id conn hello pair, Call.RunSession conn_id conn true hello pair ∈ p.1.calls →
    conn.peer_public_key.device_id ≠ id) ∧
  ∀ record, p.1.actor.pairings.get id = some record → record.dialed = false

end Moment

/-! ## 3. A disconnected device -/

/-- The work leads to no session with the device on a connection dialed here: dials since `n` are
for others, or the user's to pair, and the handshakes are with others. -/
def Call.spares (n : Nat) (id : DeviceId) : Call → Prop
  | .Dial conn_id pinned pair _ =>
      n ≤ conn_id → pair.isSome = true ∨ ∃ k, pinned = some k ∧ k ≠ id
  | .RunSession _ conn dialed _ _ => dialed = true → conn.peer_public_key.device_id ≠ id

/-- Nothing here brings the device back on a connection dialed here. -/
structure Actor.Apart (n : Nat) (id : DeviceId) (s : Actor) : Prop where
  wishes : ¬ s.trust.wishes id
  calls : ∀ call ∈ s.calls, call.spares n id
  pairings : ∀ p, s.pairings.get id = some p → p.dialed = false
  session : ∀ l, s.link id = some l → l.dialed = false

structure World.Apart (n : Nat) (id : DeviceId) (w : World) : Prop where
  wishes : ¬ w.actor.trust.wishes id
  calls : ∀ call ∈ w.calls, call.spares n id
  pairings : ∀ p, w.actor.pairings.get id = some p → p.dialed = false
  session : ∀ l, w.actor.link id = some l → l.dialed = false

namespace World.Apart

variable {Known : PublicKey → Prop} {n : Nat} {id : DeviceId} {w : World} {i : Input}

theorem established (h : w.Apart n id) (he : w.enabled Known i) {est : Established}
    (hev : i.event = .Established est) (hid : id = est.conn.peer_public_key.device_id) :
    est.dialed = false := by
  obtain ⟨hello, pair, hcall⟩ := he.established hev
  cases hd : est.dialed with
  | false => rfl
  | true => exact absurd hid.symm (h.calls _ hcall hd)

/-- A pairing that completes is one that the device began. -/
theorem reopens_of_completes (h : w.Apart n id) (hf : w.actor.Filed) {p : PendingPairing}
    (hc : w.met.completes i.env i.event id p) : Moment.reopens (w, i) id n := by
  have hcompletes := hc
  have hdialed : p.dialed = false := by
    unfold Actor.completes at hc
    split at hc
    · obtain ⟨_, _, q, hq, _, rfl⟩ := hc
      exact h.pairings q hq
    · obtain ⟨_, _, _, q, hq, _, rfl⟩ := hc
      exact h.pairings q hq
    · obtain ⟨est, since, _, _, hu, hid, _, _, _, _, q, hq, rfl⟩ := hc
      split at hq
      · rw [hq]
        exact hf.unpaired _ est since hu
      · exact h.pairings q hq
    · cases hc
  unfold Actor.completes at hc
  unfold Moment.reopens
  split at hc
  · next hev =>
      rw [hev] at hcompletes ⊢
      exact ⟨p, hcompletes, hdialed⟩
  · next hev =>
      rw [hev] at hcompletes ⊢
      exact ⟨p, hcompletes, hdialed⟩
  · next hev =>
      rw [hev] at hcompletes ⊢
      exact ⟨p, hcompletes, hdialed⟩
  · cases hc

theorem move (h : w.Apart n id) (he : w.enabled Known i) (hf : w.actor.Filed)
    (hno : ¬ Moment.reopens (w, i) id n) (hlate : ¬ Moment.reaches_late (w, i) id n) {s s' : Actor}
    (hmove : Actor.Move i.env w.met i.event s s') (hfiled : s.Filed) (hs : s.Apart n id) :
    s'.Apart n id := by
  -- Each case that could undo the disconnect is one of the two excluded ones: a moment that
  -- reopens the device, or a late dial that reaches it.
  have hpairs (p : PendingPairing) : ¬ w.met.completes i.env i.event id p :=
    fun hc => hno (h.reopens_of_completes hf hc)
  have hcalls {calls : List Call} {call : Call} (hc : calls = s.calls ++ [call])
      (hcall : call.spares n id) : ∀ c ∈ calls, c.spares n id := by
    intro c hmem
    rw [hc, List.mem_append, List.mem_singleton] at hmem
    rcases hmem with hmem | rfl
    · exact hs.calls c hmem
    · exact hcall
  have hset {k : DeviceId} {p : PendingPairing} (hp : k = id → p.dialed = false)
      (q : PendingPairing) (hget : (s.pairings.insert k p).get id = some q) : q.dialed = false := by
    rw [Table.get_insert] at hget
    split at hget
    · next hk =>
        obtain rfl := Option.some_inj.1 hget
        exact hp hk.symm
    · exact hs.pairings q hget
  have hupdate {k : DeviceId} {f : TrustedDevice → TrustedDevice} {ok : Bool}
      (hf : ∀ d, (f d).auto_connect = true → d.auto_connect = true) :
      ¬ (s.trust.update k f ok).wishes id :=
    fun hw => hs.wishes
      (TrustStore.wishes_of_map (TrustStore.get_update _ _ _ _ _) (fun _ => hf) hw)
  cases hmove with
  | upkeep hup =>
      exact ⟨hup.standing.trust ▸ hs.wishes, hup.standing.calls ▸ hs.calls,
        fun p hget => hs.pairings p (hup.standing.pairings _ _ hget), hup.link ▸ hs.session⟩
  | open_route _ _ _ ha _ =>
      exact ⟨ha.standing.trust ▸ hs.wishes, ha.standing.calls ▸ hs.calls,
        fun p hget => hs.pairings p (ha.standing.pairings _ _ hget), ha.link ▸ hs.session⟩
  | trust t _ hw =>
      refine ⟨fun hwish => ?_, hs.calls, hs.pairings, hs.session⟩
      rcases hw id hwish with hold | hev
      · exact hs.wishes hold
      · refine hno ?_
        unfold Moment.reopens
        rw [hev]
        exact ⟨rfl, rfl⟩
  | judge => exact ⟨hupdate fun _ hd => hd, hs.calls, hs.pairings, hs.session⟩
  | permit => exact ⟨hupdate fun _ hd => hd, hs.calls, hs.pairings, hs.session⟩
  | forget k ok _ _ =>
      refine ⟨fun ⟨d, hd, hauto⟩ => ?_, hs.calls, hs.pairings, hs.session⟩
      dsimp only at hd
      rw [TrustStore.get_remove] at hd
      split at hd
      · cases hd
      · exact hs.wishes ⟨d, hd, hauto⟩
  | pair k p hc =>
      refine ⟨fun ⟨d, hd, hauto⟩ => ?_, hs.calls, hs.pairings, hs.session⟩
      dsimp only at hd
      rw [TrustStore.get_upsert] at hd
      split at hd
      · next hk =>
          obtain rfl : id = k := hk
          exact hpairs p hc
      · exact hs.wishes ⟨d, hd, hauto⟩
  | drop k session _ _ =>
      refine ⟨hs.wishes, hs.calls, hs.pairings, fun l hl => ?_⟩
      rw [Actor.link_of_erase (s := s) rfl] at hl
      split at hl
      · cases hl
      · exact hs.session l hl
  | install k est _ _ hi =>
      refine ⟨hs.wishes, hs.calls, hs.pairings, fun l hl => ?_⟩
      rw [Actor.link_of_insert (s := s) rfl] at hl
      split at hl
      · next hk =>
          subst hk
          rcases hi with ⟨hev, hid⟩ | ⟨p, hc, _⟩
          · refine absurd ?_ hno
            unfold Moment.reopens
            rw [hev]
            exact ⟨h.established he hev hid, hid.symm⟩
          · exact absurd hc (hpairs p)
      · exact hs.session l hl
  | begin_pairing k p hb =>
      refine ⟨hs.wishes, hs.calls, hset fun hk => ?_, hs.session⟩
      subst hk
      unfold Actor.begins at hb
      split at hb
      · next est hev =>
          obtain ⟨hid, hdialed, _⟩ := hb
          exact absurd hdialed (by rw [h.established he hev hid]; decide)
      · obtain ⟨est, since, hu, _, rfl⟩ := hb
        exact hf.unpaired _ est since hu
      · cases hb
  | confirm k p _ hp _ =>
      refine ⟨hs.wishes, hs.calls, hset fun hk => ?_, hs.session⟩
      exact h.pairings p (hk ▸ hp)
  | peer_confirm k p hp _ =>
      refine ⟨hs.wishes, hs.calls, hset fun hk => ?_, hs.session⟩
      exact h.pairings p (hk ▸ hp)
  | dial k hk =>
      refine ⟨hs.wishes, hcalls rfl fun _ => .inr ⟨k, rfl, ?_⟩, hs.pairings, hs.session⟩
      rintro rfl
      rcases hk with hev | ⟨_, d, hd, hid, hauto⟩
      · refine hno ?_
        unfold Moment.reopens
        rw [hev]
      -- A tick dials only a device whose record wishes it, and this one's does not.
      · obtain ⟨⟨k', d'⟩, hpair, rfl⟩ := List.mem_map.1 hd
        have hget : s.trust.get k' = some d' := Table.get_eq_some_iff.2 hpair
        obtain rfl := (hfiled.own k' d' hget).symm.trans hid
        exact hs.wishes ⟨d', hget, hauto⟩
  | pair_dial pinned pair target qr _ =>
      exact ⟨hs.wishes, hcalls rfl fun _ => .inl rfl, hs.pairings, hs.session⟩
  | incoming => exact ⟨hs.wishes, hcalls rfl (fun hd => nomatch hd), hs.pairings, hs.session⟩
  | dialed conn_id conn hello pair hev _ =>
      refine ⟨hs.wishes, hcalls rfl fun _ hid => ?_, hs.pairings, hs.session⟩
      obtain ⟨_, pinned, target, hdial, hpinned⟩ := he.dialed hev
      by_cases hlt : conn_id < n
      · exact hlate ⟨conn_id, conn, pair, hev, hlt, hid⟩
      · have hle := Nat.le_of_not_lt hlt
        rcases h.calls _ hdial hle with hpair | ⟨k, hk, hne⟩
        · -- a dial to pair that the user asked for since
          refine hno ?_
          unfold Moment.reopens
          rw [hev]
          exact ⟨hle, hpair, hid⟩
        · exact hne ((hpinned k hk).symm.trans hid)
  | _ => exact ⟨hs.wishes, hs.calls, hs.pairings, hs.session⟩

theorem step (h : w.Apart n id) (hw : w.Sound Known) (he : w.enabled Known i) (hf : w.actor.Filed)
    (hno : ¬ Moment.reopens (w, i) id n) (hlate : ¬ Moment.reaches_late (w, i) id n) :
    (w.step i).Apart n id := by
  obtain ⟨_, hapart⟩ := (hw.moves i).invariant
    (P := fun a => a.Filed ∧ a.Apart n id)
    (fun a b hmove ⟨hfiled, hs⟩ => ⟨hmove.filed hfiled, h.move he hf hno hlate hmove hfiled hs⟩)
    ⟨⟨hf.own, hf.unpaired⟩, h.wishes, nofun, h.pairings, h.session⟩
  refine ⟨hapart.wishes, fun call hcall => ?_, hapart.pairings, hapart.session⟩
  rcases List.mem_append.1 hcall with hcall | hcall
  · exact h.calls call (List.eraseP_subset hcall)
  · exact hapart.calls call hcall

end World.Apart

/-! ## 4. Runs -/

/-- What a disconnect leaves: no session, no wish to connect, and no work that was not there. -/
theorem Actor.disconnect_apart {env : Env} {s : Actor} {n : Nat} {id : DeviceId}
    (hcalls : s.calls = []) (hp : ∀ p, s.pairings.get id = some p → p.dialed = false) :
    (s.disconnect env id).Apart n id := by
  unfold disconnect
  dsimp only
  have hdial := s.forget_dial_upkeep id
  generalize s.forget_dial id = s₁ at hdial ⊢
  have hlink := s₁.drop_session_link id .UserStopped
  have hdrop : (s₁.drop_session id .UserStopped).calls = s₁.calls ∧
      (s₁.drop_session id .UserStopped).pairings = s₁.pairings := by
    unfold drop_session
    split
    · exact ⟨rfl, rfl⟩
    · exact ⟨rfl, rfl⟩
  generalize s₁.drop_session id .UserStopped = s₂ at hlink hdrop ⊢
  have hroutes : s₂.Upkeep ((s₂.forget_speaker_mutes id).remove_routes_for env id) :=
    .after (remove_routes_for_upkeep env _ id) (s₂.forget_speaker_mutes_tables id)
  generalize (s₂.forget_speaker_mutes id).remove_routes_for env id = s₃ at hroutes ⊢
  have htest := hroutes.trans (.of_tables (s₃.end_network_test_tables id .Unreachable))
  generalize s₃.end_network_test id .Unreachable = s₄ at htest ⊢
  refine ⟨fun ⟨d, hd, hauto⟩ => ?_, ?_, fun p hget => ?_, fun l hl => ?_⟩
  · dsimp only at hd
    rw [TrustStore.get_update, if_pos rfl] at hd
    obtain ⟨d', _, rfl⟩ := Option.map_eq_some_iff.1 hd
    cases hauto
  · dsimp only
    rw [htest.standing.calls, hdrop.1, hdial.standing.calls, hcalls]
    exact fun call hcall => absurd hcall List.not_mem_nil
  · have hget₂ := htest.standing.pairings _ _ hget
    rw [hdrop.2] at hget₂
    exact hp p (hdial.standing.pairings _ _ hget₂)
  · have hl₂ : s₂.link id = some l := by
      rw [← htest.link]
      exact hl
    exact nomatch hlink.symm.trans hl₂

/-- In every run in which no connection to the device was in its handshake or pairing when the user
disconnected it, and no earlier dial reaches it later, no connection dialed here is its session
again unless the user asks for it, or pairs with it anew, or the device dials in. -/
theorem disconnect_sticks {Known : PublicKey → Prop} {tr later : List Moment} {p : Moment}
    {w : World} {id : DeviceId} (hr : (engine Known).Run (tr ++ p :: later) w)
    (hp : p.2.event = .Command (.Disconnect id)) (hs : p.nothing_under_way id)
    (hg : ∀ q ∈ later, ¬ q.reaches_late id p.1.actor.next_conn_id) :
    (∀ session, w.actor.sessions.get id = some session → session.dialed = false) ∨
      ∃ q ∈ later, q.reopens id p.1.actor.next_conn_id := by
  have hfirst : (p.1.step p.2).Apart p.1.actor.next_conn_id id := by
    have hactor : (p.1.step p.2).actor.Apart p.1.actor.next_conn_id id := by
      rw [World.step_actor, hp, Actor.handle, Actor.handle_command]
      exact Actor.disconnect_apart rfl hs.2
    refine ⟨hactor.wishes, fun call hcall => ?_, hactor.pairings, hactor.session⟩
    rcases List.mem_append.1 hcall with hcall | hcall
    · have hold := List.eraseP_subset hcall
      have hlt := (run_sound hr.before.1).booked.calls call hold
      cases call with
      | Dial c pinned pair target => exact fun hle => absurd hlt hle.not_gt
      | RunSession c conn dialed hello pair =>
          rintro rfl
          exact hs.1 c conn hello pair hold
    · exact hactor.calls call hcall
  have hapart : (∃ q ∈ later, Moment.reopens q id p.1.actor.next_conn_id) ∨
      w.Apart p.1.actor.next_conn_id id := by
    refine hr.since (P := fun later w => (∀ q ∈ later, ¬ Moment.reaches_late q id _) →
      (∃ q ∈ later, Moment.reopens q id _) ∨ w.Apart _ id) (fun _ => .inr hfirst) ?_ hg
    intro later w i hrun he ih hg
    have hnow : (w, i) ∈ later ++ [(w, i)] := List.mem_append_right _ (List.mem_singleton_self _)
    rcases ih fun q hq => hg q (List.mem_append_left _ hq) with ⟨q, hq, hu⟩ | h
    · exact .inl ⟨q, List.mem_append_left _ hq, hu⟩
    · by_cases hu : Moment.reopens (w, i) id p.1.actor.next_conn_id
      · exact .inl ⟨_, hnow, hu⟩
      · exact .inr (h.step (run_sound hrun) he (run_filed hrun) hu (hg _ hnow))
  refine hapart.symm.imp_left fun h session hsession => ?_
  exact h.session session.link (congrArg (Option.map Session.link) hsession)

end

/-! ## 5. Two runs -/

namespace Sample

/-- The peer is found on the network, and the user connects to it. -/
def dials : List Input :=
  [⟨env, .Discovered peer [⟨.V4 0x0A000002, 7100⟩]⟩, ⟨env, .Command (.Connect peer)⟩]

def disconnects : Input := ⟨env, .Command (.Disconnect peer)⟩

/-- The dial's transport is connected. -/
def dialed : Input := ⟨env, .Dialed 1 (conn peer_key) none⟩

def answered : Input :=
  ⟨env, .Established { conn_id := 1, conn := conn peer_key, hello := hello peer, dialed := true }⟩

theorem dialing : ((engine Known).exec (start .default) dials).calls =
    [Call.Dial 1 (some peer) none (some peer)] := by
  decide +kernel

end Sample

open Sample in
/-- A dial whose transport connected before the disconnect becomes a session after it. -/
theorem disconnect_outrun :
    let w := (engine Known).exec (start .default) (dials ++ [dialed])
    let later : List Moment := [(w.step disconnects, answered)]
    (engine Known).Run ((engine Known).trace (start .default) (dials ++ [dialed]) ++
        (w, disconnects) :: later) ((w.step disconnects).step answered) ∧
      ¬ ((∀ session, ((w.step disconnects).step answered).actor.sessions.get peer = some session →
          session.dialed = false) ∨ ∃ q ∈ later, q.reopens peer w.actor.next_conn_id) := by
  refine ⟨?_, ?_⟩
  · have hadmits : (engine Known).Admits (start .default)
        ((dials ++ [dialed]) ++ [disconnects, answered]) := by
      refine ⟨trivial, trivial, ⟨.inl rfl, some peer, some peer, ?_, ?_⟩, trivial,
        ⟨⟨_, List.mem_singleton.2 rfl, ?_⟩, ?_⟩, trivial⟩
      · exact List.mem_singleton.2 rfl
      · intro id hid
        obtain rfl := Option.some_inj.1 hid
        decide
      · simp [Call.reports]
        rfl
      · decide
    have hrun := Machine.run_of_admits (start_init .default) hadmits
    rw [Machine.trace_append] at hrun
    exact hrun
  · rintro (h | ⟨q, hq, hu⟩)
    · have hsession : (((((engine Known).exec (start .default) (dials ++ [dialed])).step
          disconnects).step answered).actor.sessions.get peer).map Session.dialed = some true := by
        decide +kernel
      obtain ⟨session, hget, hdialed⟩ := Option.map_eq_some_iff.1 hsession
      cases hdialed.symm.trans (h session hget)
    · rw [List.mem_singleton.1 hq] at hu
      cases hu.1

namespace Sample

/-- The user pairs with whoever answers at an address, and it is another device. -/
def pairs_elsewhere : List Input :=
  [⟨env, .Tick⟩, ⟨env, .PairAddressResolved true 7⟩,
    ⟨env, .Dialed 2 (conn other_key) (some { qr_proof := none })⟩]

end Sample

open Sample in
/-- A dial that is still on its way is aborted, the timers leave the device alone, and a dial to
pair that reaches another device is no excuse. -/
theorem disconnect_sticks_dialing :
    let w := (engine Known).exec (start .default) dials
    let w' := (engine Known).exec (w.step disconnects) pairs_elsewhere
    w'.calls.length = 2 ∧
      ∀ session, w'.actor.sessions.get peer = some session → session.dialed = false := by
  refine ⟨by decide +kernel, ?_⟩
  have hadmits : (engine Known).Admits (start .default)
      (dials ++ (disconnects :: pairs_elsewhere)) := by
    refine ⟨trivial, trivial, trivial, trivial, trivial, ⟨.inr rfl, none, none, ?_, ?_⟩, trivial⟩
    · decide +kernel
    · intro id hid
      cases hid
  have hrun := Machine.run_of_admits (start_init .default) hadmits
  rw [Machine.trace_append] at hrun
  -- Nothing of the device is past its dial when `Disconnect` is handled.
  have hquiet : Moment.nothing_under_way ((engine Known).exec (start .default) dials, disconnects)
      peer := by
    refine ⟨fun c cn h p hcall => ?_, fun record hget => ?_⟩
    · rw [dialing, List.mem_singleton] at hcall
      cases hcall
    · have hnone : ((engine Known).exec (start .default) dials).actor.pairings.get peer = none := by
        decide +kernel
      cases hnone.symm.trans hget
  have hsteps {q : Moment} (hq : q ∈ (engine Known).trace
      (((engine Known).exec (start .default) dials).step disconnects) pairs_elsewhere) :
      q.2.event = .Tick ∨ q.2.event = .PairAddressResolved true 7 ∨
        q.2.event = .Dialed 2 (conn other_key) (some { qr_proof := none }) := by
    simp only [pairs_elsewhere, Machine.trace, List.mem_cons, List.not_mem_nil, or_false] at hq
    rcases hq with rfl | rfl | rfl
    · exact .inl rfl
    · exact .inr (.inl rfl)
    · exact .inr (.inr rfl)
  -- The only dial that arrives afterwards reaches the other device.
  have hlate : ∀ q ∈ (engine Known).trace
      (((engine Known).exec (start .default) dials).step disconnects) pairs_elsewhere,
      ¬ Moment.reaches_late q peer
        ((engine Known).exec (start .default) dials).actor.next_conn_id := by
    rintro q hq ⟨c, cn, pair, hev, -, hid⟩
    rcases hsteps hq with he | he | he
    · cases he.symm.trans hev
    · cases he.symm.trans hev
    · cases he.symm.trans hev
      exact absurd hid (by decide)
  intro session hsession
  rcases disconnect_sticks hrun rfl hquiet hlate with hno | ⟨q, hq, hu⟩
  · exact hno session hsession
  · -- none of the three steps is about the device
    unfold Moment.reopens at hu
    rcases hsteps hq with he | he | he
    · rw [he] at hu
      obtain ⟨_, hc, _⟩ := hu
      exact hc.elim
    · rw [he] at hu
      obtain ⟨_, hc, _⟩ := hu
      exact hc.elim
    · rw [he] at hu
      exact absurd hu.2.2 (by decide)

end SoundPush
