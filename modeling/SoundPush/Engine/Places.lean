/-
`Places` -- a connection is in one place at a time, and a device's session once.

Among the `unpaired`, behind a pairing, or in a session: no connection is in two of
these. It leaves the first two for good, since nothing puts a connection back that
was established before. So a connection that becomes a session never was one.

`Placed` states this for one state. Handlers that only let connections go are all
covered by one notion, `Narrows`: whatever was in a place either still is there or
is nowhere. A handler that moves a connection is a narrowing first, which frees the
connection, and then one of the three moves of section 1. So the lemma of each
handler is the two put together, and `handle_placed` has one case for each event
that settles anything. Over a run, ids are never used again (`Sound.not_opened`),
which turns the statement about a state into the one about the past.
-/
import SoundPush.Engine.Connections
import SoundPush.Engine.PairingSound

set_option autoImplicit false

namespace SoundPush

namespace Actor

/-- The connection is a session's. -/
def carries (s : Actor) (conn_id : Nat) : Prop := ∃ id l, s.link id = some l ∧ l.conn_id = conn_id

/-- The connection may become a session's. -/
def awaits (s : Actor) (conn_id : Nat) : Prop :=
  s.unpaired.get conn_id ≠ none ∨ ∃ id p, s.pairings.get id = some p ∧ p.conn_id = conn_id

/-- Every connection is in one place. -/
structure Placed (s : Actor) : Prop where
  paired : ∀ id p, s.pairings.get id = some p → s.unpaired.get p.conn_id = none
  alone : ∀ id p id' p', s.pairings.get id = some p → s.pairings.get id' = some p' →
    p.conn_id = p'.conn_id → id = id'
  session : ∀ conn_id, s.carries conn_id → ¬ s.awaits conn_id

/-- Connections only leave their places. -/
structure Narrows (s s' : Actor) : Prop where
  unpaired : s.unpaired.Shrinks s'.unpaired
  pairings : ∀ id p', s'.pairings.get id = some p' →
    ∃ p, s.pairings.get id = some p ∧ p.conn_id = p'.conn_id
  link : ∀ id l, s'.link id = some l → s.link id = some l

namespace Narrows

variable {s t u : Actor}

theorem refl (s : Actor) : s.Narrows s := ⟨.refl _, fun _ p hp => ⟨p, hp, rfl⟩, fun _ _ h => h⟩

theorem trans (h : s.Narrows t) (h' : t.Narrows u) : s.Narrows u := by
  refine ⟨h.unpaired.trans h'.unpaired, fun id p'' hp => ?_,
    fun id l hl => h.link id l (h'.link id l hl)⟩
  obtain ⟨p', hp', hc'⟩ := h'.pairings id p'' hp
  obtain ⟨p, hp, hc⟩ := h.pairings id p' hp'
  exact ⟨p, hp, hc.trans hc'⟩

theorem of_eq (hu : t.unpaired = s.unpaired) (hp : t.pairings = s.pairings)
    (hl : t.link = s.link) : s.Narrows t := by
  refine ⟨?_, fun id p h => ?_, fun id l h => ?_⟩
  · rw [hu]
    exact .refl _
  · rw [hp] at h
    exact ⟨p, h, rfl⟩
  · rwa [hl] at h

theorem of_upkeep (h : s.Upkeep t) : s.Narrows t :=
  ⟨h.standing.unpaired, fun id p hp => ⟨p, h.standing.pairings id p hp, rfl⟩,
    fun id l hl => by rwa [h.link] at hl⟩

theorem of_tables (h : t.toTables = s.toTables) : s.Narrows t := .of_upkeep (.of_tables h)

/-- A pairing goes on. -/
theorem update_pairing {id : DeviceId} {p q : PendingPairing} (hp : s.pairings.get id = some p)
    (hq : q.conn_id = p.conn_id) : s.Narrows (s.set_pairings (s.pairings.insert id q)) := by
  refine ⟨.refl _, fun k q' hq' => ?_, fun _ _ h => h⟩
  change (s.pairings.insert id q).get k = some q' at hq'
  rw [Table.get_insert] at hq'
  split at hq'
  · next hk =>
      obtain rfl := Option.some_inj.1 hq'
      exact ⟨p, hk ▸ hp, hq.symm⟩
  · exact ⟨q', hq', rfl⟩

theorem modify_pairing (id : DeviceId) {f : PendingPairing → PendingPairing}
    (hf : ∀ p, (f p).conn_id = p.conn_id) :
    s.Narrows (s.set_pairings (s.pairings.modify id f)) := by
  refine ⟨.refl _, fun k q' hq' => ?_, fun _ _ h => h⟩
  change (s.pairings.modify id f).get k = some q' at hq'
  rw [Table.get_modify] at hq'
  split at hq'
  · obtain ⟨p, hp, rfl⟩ := Option.map_eq_some_iff.1 hq'
    exact ⟨p, hp, (hf p).symm⟩
  · exact ⟨q', hq', rfl⟩

/-- A session ends. -/
theorem erase {id : DeviceId} (hu : t.unpaired = s.unpaired) (hp : t.pairings = s.pairings)
    (hs : t.sessions = s.sessions.erase id) : s.Narrows t := by
  refine ⟨?_, fun k p h => ?_, fun k l hl => ?_⟩
  · rw [hu]
    exact .refl _
  · rw [hp] at h
    exact ⟨p, h, rfl⟩
  · rw [Actor.link, hs, Table.get_erase] at hl
    split at hl
    · cases hl
    · exact hl

theorem unpaired_none (h : s.Narrows t) {conn_id : Nat} (hn : s.unpaired.get conn_id = none) :
    t.unpaired.get conn_id = none := by
  rw [Option.eq_none_iff_forall_ne_some]
  intro e he
  exact nomatch hn.symm.trans (h.unpaired conn_id e he)

theorem awaits (h : s.Narrows t) {conn_id : Nat} (ha : t.awaits conn_id) : s.awaits conn_id := by
  rcases ha with ha | ⟨id, p', hp', hc'⟩
  · exact .inl fun hn => ha (h.unpaired_none hn)
  · obtain ⟨p, hp, hc⟩ := h.pairings id p' hp'
    exact .inr ⟨id, p, hp, hc.trans hc'⟩

theorem carries (h : s.Narrows t) {conn_id : Nat} (hs : t.carries conn_id) : s.carries conn_id := by
  obtain ⟨id, l, hl, hc⟩ := hs
  exact ⟨id, l, h.link id l hl, hc⟩

end Narrows

theorem Placed.narrow {s t : Actor} (hp : s.Placed) (h : s.Narrows t) : t.Placed where
  paired id p' hget := by
    obtain ⟨p, hp', hc⟩ := h.pairings id p' hget
    rw [← hc]
    exact h.unpaired_none (hp.paired id p hp')
  alone id p' id' q' hget hget' hconn := by
    obtain ⟨p, hp', hc⟩ := h.pairings id p' hget
    obtain ⟨q, hq', hc'⟩ := h.pairings id' q' hget'
    exact hp.alone id p id' q hp' hq' (hc.trans (hconn.trans hc'.symm))
  session conn_id hs ha := hp.session conn_id (h.carries hs) (h.awaits ha)

/-! ## 1. What moves a connection -/

/-- A connection that was nowhere waits to pair. -/
theorem Placed.arrive {s t : Actor} (h : s.Placed) {conn_id : Nat} {e : Established × Instant}
    (hu : t.unpaired = s.unpaired.insert conn_id e) (hp : t.pairings = s.pairings)
    (hl : t.link = s.link) (hs : ¬ s.carries conn_id) (ha : ¬ s.awaits conn_id) : t.Placed := by
  have hget (c : Nat) : t.unpaired.get c = if c = conn_id then some e else s.unpaired.get c := by
    rw [hu, Table.get_insert]
  have hserves {c : Nat} (hc : t.carries c) : s.carries c := by
    unfold carries at hc
    rwa [hl] at hc
  refine ⟨fun id p hget' => ?_, ?_, fun c hc hawaits => ?_⟩
  · rw [hp] at hget'
    rw [hget, if_neg fun hc => ha (.inr ⟨id, p, hget', hc⟩)]
    exact h.paired id p hget'
  · rw [hp]
    exact h.alone
  · rcases hawaits with hunp | hpair
    · rw [hget] at hunp
      by_cases heq : c = conn_id
      · exact hs (heq ▸ hserves hc)
      · rw [if_neg heq] at hunp
        exact h.session c (hserves hc) (.inl hunp)
    · rw [hp] at hpair
      exact h.session c (hserves hc) (.inr hpair)

/-- A connection that was nowhere, or behind the same pairing, is behind a pairing. -/
theorem Placed.set_pairing {s : Actor} (h : s.Placed) {id : DeviceId} {p : PendingPairing}
    (hu : s.unpaired.get p.conn_id = none) (hs : ¬ s.carries p.conn_id)
    (ha : ∀ id' p', s.pairings.get id' = some p' → p'.conn_id = p.conn_id → id' = id) :
    (s.set_pairings (s.pairings.insert id p)).Placed := by
  have hget (k : DeviceId) : (s.set_pairings (s.pairings.insert id p)).pairings.get k =
      if k = id then some p else s.pairings.get k := Table.get_insert _ _ _ _
  refine ⟨fun k q hq => ?_, fun k q k' q' hq hq' hc => ?_, fun c hc hawaits => ?_⟩
  · rw [hget] at hq
    split at hq
    · obtain rfl := Option.some_inj.1 hq
      exact hu
    · exact h.paired k q hq
  · rw [hget] at hq hq'
    split at hq <;> split at hq'
    · next hk hk' => exact hk.trans hk'.symm
    · next hk _ =>
        obtain rfl := Option.some_inj.1 hq
        exact hk.trans (ha k' q' hq' hc.symm).symm
    · next _ hk' =>
        obtain rfl := Option.some_inj.1 hq'
        exact (ha k q hq hc).trans hk'.symm
    · exact h.alone k q k' q' hq hq' hc
  · rcases hawaits with hunp | ⟨k, q, hq, rfl⟩
    · exact h.session c hc (.inl hunp)
    · rw [hget] at hq
      split at hq
      · obtain rfl := Option.some_inj.1 hq
        exact hs hc
      · exact h.session _ hc (.inr ⟨k, q, hq, rfl⟩)

/-- A connection that waits nowhere becomes a session. -/
theorem Placed.install {s t : Actor} (h : s.Placed) {id : DeviceId} {session : Session}
    (hu : t.unpaired = s.unpaired) (hp : t.pairings = s.pairings)
    (hl : t.sessions = s.sessions.insert id session) (ha : ¬ s.awaits session.conn_id) :
    t.Placed := by
  have hawaits {c : Nat} (hc : t.awaits c) : s.awaits c := by
    unfold awaits at hc
    rwa [hu, hp] at hc
  refine ⟨by rw [hu, hp]; exact h.paired, by rw [hp]; exact h.alone, fun c hc hawait => ?_⟩
  obtain ⟨k, l, hlink, rfl⟩ := hc
  rw [link, hl, Table.get_insert] at hlink
  split at hlink
  · obtain rfl := Option.some_inj.1 hlink
    exact ha (hawaits hawait)
  · exact h.session _ ⟨k, l, hlink, rfl⟩ (hawaits hawait)

/-! ## 2. The handlers that move connections -/

section
variable [Crypto] (env : Env) {s : Actor}

omit [Crypto] in
theorem drop_session_narrows (s : Actor) (id : DeviceId) (reason : StopReason) :
    s.Narrows (s.drop_session id reason) := by
  unfold drop_session
  split
  · exact .erase rfl rfl rfl
  · exact .refl s

omit [Crypto] in
theorem install_session_placed (h : s.Placed) {id : DeviceId} {est : Established}
    (ha : ¬ s.awaits est.conn_id) : (s.install_session env id est).Placed := by
  unfold install_session
  dsimp only
  have hremember : s.Narrows (s.remember_connection env id est) := .of_eq rfl rfl rfl
  have hnarrow := hremember.trans
    (.of_upkeep (cancel_dial_upkeep (s.remember_connection env id est) id))
  have hplaced := h.narrow hnarrow
  have hawaits : ¬ ((s.remember_connection env id est).cancel_dial id).awaits est.conn_id :=
    fun hc => ha (hnarrow.awaits hc)
  generalize (s.remember_connection env id est).cancel_dial id = t at hplaced hawaits ⊢
  refine Placed.narrow ?_ (.of_upkeep (resume_routes_upkeep env _ id))
  refine @Placed.install _ _ hplaced id (new_session env est) ?_ ?_ ?_ hawaits
  · unfold issue_ticket
    split <;> rfl
  · unfold issue_ticket
    split <;> rfl
  · unfold issue_ticket
    split <;> rfl

theorem promote_session_placed (h : s.Placed) {id : DeviceId} {est : Established}
    (ha : ¬ s.awaits est.conn_id) : (s.promote_session env id est).Placed := by
  unfold promote_session
  split
  · exact install_session_placed env h ha
  · next old hold =>
      dsimp only
      split
      · have hclose : s.Narrows (s.close est.conn_id .Superseded) := .of_eq rfl rfl rfl
        exact h.narrow (hclose.trans (.of_upkeep (cancel_dial_upkeep _ id)))
      · have hdrop := s.drop_session_narrows id .Superseded
        have hpause := hdrop.trans (.of_upkeep (pause_routes_for_upkeep env _ id))
        have hnarrow := hpause.trans (.of_tables (end_network_test_tables _ id .Unreachable))
        exact install_session_placed env (h.narrow hnarrow) fun hc => ha (hnarrow.awaits hc)

theorem complete_pairing_placed (h : s.Placed) (id : DeviceId) :
    (s.complete_pairing env id).Placed := by
  unfold complete_pairing
  split
  · exact h
  · next p hp =>
      dsimp only
      have herase := h.narrow (.of_upkeep (erase_pairing_upkeep s id))
      have hawaits : ¬ (s.set_pairings (s.pairings.erase id)).awaits p.conn_id := by
        rintro (hu | ⟨k, q, hq, hc⟩)
        · exact hu (h.paired id p hp)
        · obtain ⟨hne, hq⟩ := Table.get_of_get_erase hq
          exact hne (h.alone k q id p hq hp hc)
      generalize s.set_pairings (s.pairings.erase id) = t at herase hawaits ⊢
      have hpaired : t.Narrows
          { t with trust := t.trust.upsert (paired_device env id p) env.trust_saved } :=
        .of_eq rfl rfl rfl
      have hplaced := herase.narrow hpaired
      have hwaits := fun hc => hawaits (hpaired.awaits hc)
      generalize ({ t with trust := _ } : Actor) = u at hplaced hwaits ⊢
      split
      · exact hplaced.narrow (.of_tables (error_notice_tables env _ _))
      · have hnotice : u.Narrows (u.notice "notice.pairingSuccess") := .of_eq rfl rfl rfl
        exact promote_session_placed env (hplaced.narrow hnotice) fun hc => hwaits
          (hnotice.awaits hc)

omit [Crypto] in
theorem begin_pairing_placed (h : s.Placed) {id : DeviceId} {est : Established} (qr_scanner : Bool)
    (hs : ¬ s.carries est.conn_id) (ha : ¬ s.awaits est.conn_id) :
    (s.begin_pairing env id est qr_scanner).Placed := by
  have htables := s.begin_pairing_tables env id est qr_scanner
  have hset : (s.set_pairings (s.pairings.insert id (new_pairing env est qr_scanner))).Placed := by
    refine h.set_pairing ?_ hs fun id' p' hp' hc => absurd (.inr ⟨id', p', hp', hc⟩) ha
    by_contra hu
    exact ha (.inl hu)
  by_cases hexp : est.conn.exporter = true
  · rw [if_pos hexp] at htables
    exact hset.narrow (.of_tables htables)
  · rw [if_neg hexp] at htables
    exact h.narrow (.of_tables htables)

theorem on_established_placed (h : s.Placed) {est : Established} (hs : ¬ s.carries est.conn_id)
    (ha : ¬ s.awaits est.conn_id) : (s.on_established env est).Placed := by
  unfold on_established
  dsimp only
  generalize hs₁ : ({ s with
    dial_targets := s.dial_targets.erase est.conn_id
    pair_dials := s.pair_dials.erase est.conn_id } : Actor) = s₁
  have hnarrow : s.Narrows s₁ := by
    rw [← hs₁]
    exact .of_eq rfl rfl rfl
  have h₁ := h.narrow hnarrow
  have hserves : ¬ s₁.carries est.conn_id := fun hc => hs (hnarrow.carries hc)
  have hawaits : ¬ s₁.awaits est.conn_id := fun hc => ha (hnarrow.awaits hc)
  split
  · split
    · exact h₁.narrow (.of_eq rfl rfl rfl)
    · have hredeem := Narrows.of_upkeep (redeem_token_upkeep env s₁ est)
      exact promote_session_placed env (h₁.narrow hredeem) fun hc => hawaits (hredeem.awaits hc)
  · unfold admit_untrusted
    split
    · split
      · exact begin_pairing_placed env h₁ _ hserves hawaits
      · exact h₁.narrow (.of_eq rfl rfl rfl)
    · dsimp only
      split
      · split <;> exact h₁.narrow (.of_eq rfl rfl rfl)
      · exact h₁.arrive rfl rfl rfl hserves hawaits

theorem confirm_pairing_placed (h : s.Placed) (id : DeviceId) (accept : Bool) :
    (s.confirm_pairing env id accept).Placed := by
  unfold confirm_pairing
  split
  · exact h
  · next p hp =>
      dsimp only
      have hset := h.narrow (.update_pairing hp (q := { p with local_confirmed := accept }) rfl)
      generalize s.set_pairings _ = t at hset ⊢
      have hemit : (t.emit (.Send p.conn_id (.PairResult accept))).Placed :=
        hset.narrow (.of_eq rfl rfl rfl)
      generalize t.emit _ = u at hemit ⊢
      split
      · exact hemit.narrow (.of_upkeep (reject_pairing_upkeep u id))
      · split
        · exact complete_pairing_placed env hemit id
        · exact hemit

theorem on_pair_result_placed (h : s.Placed) (id : DeviceId) (accepted : Bool) :
    (s.on_pair_result env id accepted).Placed := by
  unfold on_pair_result
  split
  · exact h
  · next p hp =>
      split
      · have hreject := Narrows.of_upkeep (reject_pairing_upkeep s id)
        exact h.narrow (hreject.trans (.of_tables (error_notice_tables env _ _)))
      · dsimp only
        have hset := h.narrow (.update_pairing hp (q := { p with peer_confirmed := true }) rfl)
        generalize s.set_pairings _ = t at hset ⊢
        split
        · split
          · refine complete_pairing_placed env ?_ id
            exact hset.narrow (.of_eq rfl rfl rfl)
          · exact complete_pairing_placed env hset id
        · exact hset

theorem on_pair_request_placed (h : s.Placed) {est : Established} (req : PairRequest)
    (hs : ¬ s.carries est.conn_id) (ha : ¬ s.awaits est.conn_id) :
    (s.on_pair_request env est req).Placed := by
  unfold on_pair_request
  split
  · split
    · exact h.narrow (.of_eq rfl rfl rfl)
    · split
      · exact h.narrow (.of_eq rfl rfl rfl)
      · unfold admit_proven
        dsimp only
        generalize hs₁ : ({ s with qr := none } : Actor) = s₁
        have hnarrow : s.Narrows s₁ := by
          rw [← hs₁]
          exact .of_eq rfl rfl rfl
        generalize est.conn.peer_public_key.device_id = id
        have hbegin : (s₁.begin_pairing env id est false).Placed :=
          begin_pairing_placed env (h.narrow hnarrow) false
            (fun hc => hs (hnarrow.carries hc)) fun hc => ha (hnarrow.awaits hc)
        generalize s₁.begin_pairing env id est false = t at hbegin ⊢
        have hmodify := hbegin.narrow (.modify_pairing id (f := fun p =>
          { p with local_confirmed := true, peer_confirmed := true }) fun _ => rfl)
        generalize t.set_pairings _ = u at hmodify ⊢
        refine complete_pairing_placed env ?_ id
        exact hmodify.narrow (.of_eq rfl rfl rfl)
  · exact begin_pairing_placed env h false hs ha
  · exact h.narrow (.of_eq rfl rfl rfl)

/-! ## 3. Events -/

/-- The events that find a connection another place. -/
def settling (event : Event) : Bool :=
  match event with
  | .Established _ | .Command (.ConfirmPairing ..) | .Control _ (.PairRequest _)
  | .Control _ (.PairResult _) => true
  | _ => false

theorem Move.narrows {s₀ t : Actor} {event : Event} (hmove : Move env s₀ event s t)
    (he : settling event = false) : s.Narrows t := by
  cases hmove with
  | upkeep h => exact .of_upkeep h
  | open_route _ _ _ hs _ => exact ⟨hs.standing.unpaired,
      fun id p hp => ⟨p, hs.standing.pairings id p hp, rfl⟩, fun id l hl => by rwa [hs.link] at hl⟩
  | drop id session hs _ => exact .erase rfl rfl rfl
  | install id est _ _ h =>
      rcases h with ⟨rfl, _⟩ | ⟨p, hc, _⟩
      · cases he
      · unfold completes at hc
        split at hc <;> first | cases he | exact hc.elim
  | begin_pairing id p h =>
      unfold begins at h
      split at h <;> first | cases he | exact h.elim
  | confirm id p accept _ h =>
      rw [h] at he
      cases he
  | peer_confirm id p _ h =>
      rw [h] at he
      cases he
  | arrive est h _ =>
      rw [h] at he
      cases he
  | _ => exact .of_eq rfl rfl rfl

theorem on_control_placed (h : s.Placed) (conn_id : Nat) (body : Body)
    (hunpaired : ∀ conn_id est since, s.unpaired.get conn_id = some (est, since) →
      est.conn_id = conn_id) (he : settling (.Control conn_id body) = true) :
    (s.on_control env conn_id body).Placed := by
  unfold on_control
  split
  · next est since hu =>
      dsimp only
      generalize hs₁ : ({ s with unpaired := s.unpaired.erase conn_id } : Actor) = s₁
      have hnarrow : s.Narrows s₁ := by
        rw [← hs₁]
        exact ⟨s.unpaired.shrinks_erase conn_id, fun _ p hp => ⟨p, hp, rfl⟩, fun _ _ hl => hl⟩
      have hconn := hunpaired conn_id est since hu
      -- The message is on an unpaired connection, so that connection is in no session and, once
      -- taken out, waits nowhere.
      have hwaits : s.awaits est.conn_id := by
        rw [hconn]
        exact .inl (by rw [hu]; exact nofun)
      have hserves : ¬ s₁.carries est.conn_id :=
        fun hc => h.session _ (hnarrow.carries hc) hwaits
      have hawaits : ¬ s₁.awaits est.conn_id := by
        rw [← hs₁, hconn]
        rintro (hc | ⟨id, p, hp, hc⟩)
        · exact hc (Table.get_erase_self _ _)
        · have hnone := h.paired id p hp
          rw [hc, hu] at hnone
          cases hnone
      split
      · exact on_pair_request_placed env (h.narrow hnarrow) _ hserves hawaits
      · exact (h.narrow hnarrow).narrow (.of_eq rfl rfl rfl)
  · split
    · split
      · exact on_pair_result_placed env h _ _
      · exact h
    · split
      · -- a session takes no part in pairing
        cases body with
        | PairRequest | PairResult => exact h
        | _ => cases he
      · exact h

/-- Every event leaves every connection in one place, if one that is established is in none. -/
theorem handle_placed {s' : Actor} {event : Event} (h : s.Placed)
    (hmoves : Moves env s event s s')
    (hev : ∀ est, event = .Established est → ¬ s.carries est.conn_id ∧ ¬ s.awaits est.conn_id)
    (hunpaired : ∀ conn_id est since, s.unpaired.get conn_id = some (est, since) →
      est.conn_id = conn_id) (hs' : s' = s.handle env event) : s'.Placed := by
  by_cases he : settling event = false
  · have hnarrow : s.Narrows s' := by
      refine hmoves.invariant (P := fun t => s.Narrows t) (fun a b hmove ha => ?_) (.refl s)
      exact ha.trans (hmove.narrows env he)
    exact h.narrow hnarrow
  · rw [hs']
    cases event with
    | Established est => exact on_established_placed env h (hev est rfl).1 (hev est rfl).2
    | Command cmd =>
        cases cmd with
        | ConfirmPairing id accept => exact confirm_pairing_placed env h id accept
        | _ => exact absurd rfl he
    | Control conn_id body =>
        exact on_control_placed env h conn_id body hunpaired (by simpa using he)
    | _ => exact absurd rfl he

/-- What waits after an event waited before, or is established by it. -/
theorem Move.awaits {s₀ t : Actor} {event : Event} (hmove : Move env s₀ event s t)
    (hunpaired : ∀ conn_id est since, s₀.unpaired.get conn_id = some (est, since) →
      est.conn_id = conn_id)
    (h : ∀ c, s.awaits c → s₀.awaits c ∨ ∃ est, event = .Established est ∧ est.conn_id = c) :
    ∀ c, t.awaits c → s₀.awaits c ∨ ∃ est, event = .Established est ∧ est.conn_id = c := by
  intro c hc
  -- a pairing that is written is the only one that can be new
  have hset {id : DeviceId} {p : PendingPairing}
      (hp : s₀.awaits p.conn_id ∨ ∃ est, event = .Established est ∧ est.conn_id = p.conn_id)
      (hc : (s.set_pairings (s.pairings.insert id p)).awaits c) :
      s₀.awaits c ∨ ∃ est, event = .Established est ∧ est.conn_id = c := by
    rcases hc with hu | ⟨k, q, hq, rfl⟩
    · exact h c (.inl hu)
    · change (s.pairings.insert id p).get k = some q at hq
      rw [Table.get_insert] at hq
      split at hq
      · obtain rfl := Option.some_inj.1 hq
        exact hp
      · exact h _ (.inr ⟨k, q, hq, rfl⟩)
  cases hmove with
  | upkeep hup => exact h c ((Narrows.of_upkeep hup).awaits hc)
  | open_route _ _ _ hs _ =>
      refine h c (Narrows.awaits ⟨hs.standing.unpaired, fun id p hp => ?_, fun id l hl => ?_⟩ hc)
      · exact ⟨p, hs.standing.pairings id p hp, rfl⟩
      · rwa [hs.link] at hl
  | begin_pairing id p hb =>
      refine hset ?_ hc
      unfold begins at hb
      split at hb
      · obtain ⟨_, _, qr, _, rfl⟩ := hb
        exact .inr ⟨_, rfl, rfl⟩
      · obtain ⟨est, since, hu, _, rfl⟩ := hb
        left
        rw [show (new_pairing env est false).conn_id = est.conn_id from rfl, hunpaired _ _ _ hu]
        exact .inl (by rw [hu]; exact nofun)
      · exact hb.elim
  | confirm id p accept hp _ =>
      refine hset ?_ hc
      exact .inl (.inr ⟨id, p, hp, rfl⟩)
  | peer_confirm id p hp _ =>
      refine hset ?_ hc
      exact .inl (.inr ⟨id, p, hp, rfl⟩)
  | arrive est he _ =>
      rcases hc with hu | hp
      · dsimp only at hu
        rw [Table.get_insert] at hu
        by_cases hce : c = est.conn_id
        · exact .inr ⟨est, he, hce.symm⟩
        · rw [if_neg hce] at hu
          exact h c (.inl hu)
      · exact h c (.inr hp)
  | _ => exact h c hc

/-- What is a session's after an event was one's before, or is installed by it. -/
theorem Move.carries {s₀ t : Actor} {event : Event} (hmove : Move env s₀ event s t)
    (h : ∀ c, s.carries c →
      s₀.carries c ∨ ∃ id est, s₀.installs env event id est ∧ est.conn_id = c) :
    ∀ c, t.carries c → s₀.carries c ∨ ∃ id est, s₀.installs env event id est ∧ est.conn_id = c := by
  intro c hc
  cases hmove with
  | upkeep hup => exact h c ((Narrows.of_upkeep hup).carries hc)
  | open_route _ _ _ hs _ =>
      obtain ⟨id, l, hl, hlc⟩ := hc
      rw [hs.link] at hl
      exact h c ⟨id, l, hl, hlc⟩
  | drop id session hs _ =>
      have hnarrow : s.Narrows { s with
          sessions := s.sessions.erase id, conn_index := s.conn_index.erase session.conn_id } :=
        .erase rfl rfl rfl
      exact h c (hnarrow.carries hc)
  | install id est _ _ hi =>
      obtain ⟨k, l, hl, rfl⟩ := hc
      rw [link, Table.get_insert] at hl
      split at hl
      · obtain rfl := Option.some_inj.1 hl
        exact .inr ⟨id, est, hi, rfl⟩
      · exact h _ ⟨k, l, hl, rfl⟩
  | _ => exact h c hc

/-- A pairing that completes was waiting. -/
theorem completes.awaits {event : Event} {id : DeviceId} {p : PendingPairing}
    (hunpaired : ∀ conn_id est since, s.unpaired.get conn_id = some (est, since) →
      est.conn_id = conn_id) (h : s.completes env event id p) : s.awaits p.conn_id := by
  unfold completes at h
  split at h
  · obtain ⟨_, _, q, hq, _, rfl⟩ := h
    exact .inr ⟨id, q, hq, rfl⟩
  · obtain ⟨_, _, _, q, hq, _, rfl⟩ := h
    exact .inr ⟨id, q, hq, rfl⟩
  · obtain ⟨est, since, _, _, hu, _, _, _, _, _, q, hq, rfl⟩ := h
    split at hq
    · rw [hq]
      change s.awaits est.conn_id
      rw [hunpaired _ _ _ hu]
      exact .inl (by rw [hu]; exact nofun)
    · exact .inr ⟨id, q, hq, rfl⟩
  · exact h.elim

end

end Actor

/-! ## 4. Runs -/

section
variable [Crypto] {Known : PublicKey → Prop} {tr : List Moment} {w : World}

theorem World.Sound.unpaired (h : w.Sound Known) (conn_id : Nat) (est : Established)
    (since : Instant) (hu : w.met.unpaired.get conn_id = some (est, since)) :
    est.conn_id = conn_id := (h.wired.unpaired conn_id est since hu).2

/-- What waits is established. -/
theorem World.Sound.opened_of_awaits (h : w.Sound Known) {conn_id : Nat}
    (ha : w.actor.awaits conn_id) : ∃ e ∈ w.opened, e.conn_id = conn_id := by
  rcases ha with hu | ⟨id, p, hp, rfl⟩
  · obtain ⟨⟨est, since⟩, hget⟩ := Option.ne_none_iff_exists'.1 hu
    obtain ⟨hopened, hconn⟩ := h.wired.unpaired conn_id est since hget
    exact ⟨est, hopened, hconn⟩
  · exact ⟨p.established, (h.wired.pairings id p hp).1, rfl⟩

/-- What is being established has not been before. -/
theorem World.Sound.not_opened (h : w.Sound Known) {i : Input} (he : w.enabled Known i)
    {est : Established} (hev : i.event = .Established est) :
    ¬ ∃ e ∈ w.opened, e.conn_id = est.conn_id := by
  rintro ⟨e, hopened, hconn⟩
  obtain ⟨hello, pair, hmem⟩ := he.established hev
  refine (h.booked.opened e hopened).2 ?_
  rw [hconn]
  exact List.mem_map.2 ⟨_, hmem, rfl⟩

/-- In every run each connection is in one place, and one that is or was a session's is
established and waits no more. -/
theorem run_placed (hr : (engine Known).Run tr w) :
    w.actor.Placed ∧ ∀ conn_id,
      (w.actor.carries conn_id ∨ ∃ q ∈ tr, q.1.actor.carries conn_id) →
        ¬ w.actor.awaits conn_id ∧ ∃ e ∈ w.opened, e.conn_id = conn_id := by
  induction hr with
  | start h =>
      obtain ⟨identity, trust, settings, _, rfl⟩ := h
      have hserves (c : Nat) :
          ¬ (Actor.start identity trust settings).carries c := fun ⟨id, l, hl, _⟩ => nomatch hl
      refine ⟨⟨fun id p hp => ?_, fun id p _ _ hp => ?_, fun c hc => absurd hc (hserves c)⟩,
        fun c hc => ?_⟩
      · cases hp
      · cases hp
      rcases hc with hc | ⟨q, hq, _⟩
      · exact absurd hc (hserves c)
      · exact absurd hq List.not_mem_nil
  | @next tr w i hrun he ih =>
      obtain ⟨hplaced, hspent⟩ := ih
      have hsound := run_sound hrun
      have hev (est : Established) (hev : i.event = .Established est) :
          ¬ w.met.carries est.conn_id ∧ ¬ w.met.awaits est.conn_id :=
        ⟨fun hs => hsound.not_opened he hev (hspent _ (.inl hs)).2,
          fun ha => hsound.not_opened he hev (hsound.opened_of_awaits ha)⟩
      have hplaced' : (w.step i).actor.Placed :=
        Actor.handle_placed i.env (s := w.met) ⟨hplaced.paired, hplaced.alone, hplaced.session⟩
          (hsound.moves i) hev hsound.unpaired rfl
      refine ⟨hplaced', fun c hc => ?_⟩
      -- A connection that was a session's before stays spent: nothing makes it wait again, since
      -- its id is not established twice.
      by_cases hold : w.actor.carries c ∨ ∃ q ∈ tr, q.1.actor.carries c
      · obtain ⟨hawaits, e, hopened, hconn⟩ := hspent c hold
        refine ⟨fun ha => ?_, e, w.opened_subset_step i hopened, hconn⟩
        rcases (hsound.moves i).invariant
          (P := fun s => ∀ c, s.awaits c →
            w.met.awaits c ∨ ∃ est, i.event = .Established est ∧ est.conn_id = c)
          (fun a b hmove ha => hmove.awaits i.env hsound.unpaired ha) (fun c hc => .inl hc) c
            ha with
          ha | ⟨est, hest, rfl⟩
        · exact hawaits ha
        · exact hsound.not_opened he hest ⟨e, hopened, hconn⟩
      -- One that is a session's only now was installed in this step.
      · have hnow : (w.step i).actor.carries c := by
          rcases hc with hc | ⟨q, hq, hc⟩
          · exact hc
          · rcases List.mem_append.1 hq with hq | hq
            · exact absurd (.inr ⟨q, hq, hc⟩) hold
            · rw [List.mem_singleton.1 hq] at hc
              exact absurd (.inl hc) hold
        refine ⟨hplaced'.session c hnow, ?_⟩
        rcases (hsound.moves i).invariant
          (P := fun s => ∀ c, s.carries c →
            w.met.carries c ∨ ∃ id est, w.met.installs i.env i.event id est ∧ est.conn_id = c)
          (fun a b hmove hs => hmove.carries i.env hs) (fun c hc => .inl hc) c hnow with
          hs | ⟨id, est, hi, rfl⟩
        · exact absurd (.inl hs) hold
        · refine ⟨est, ?_, rfl⟩
          exact ((hsound.met_wired i).installs (fun _ hev => World.opened_of_established hev) hi).1

/-- A connection that an event makes a session never was one. -/
theorem run_installs_new (hr : (engine Known).Run tr w) {i : Input} (he : w.enabled Known i)
    {id : DeviceId} {est : Established} (hi : w.met.installs i.env i.event id est) :
    ¬ w.actor.carries est.conn_id ∧ ∀ q ∈ tr, ¬ q.1.actor.carries est.conn_id := by
  obtain ⟨hplaced, hspent⟩ := run_placed hr
  have hnever : ¬ (w.actor.carries est.conn_id ∨ ∃ q ∈ tr, q.1.actor.carries est.conn_id) := by
    intro hc
    obtain ⟨hawaits, hopened⟩ := hspent _ hc
    rcases hi with ⟨hev, _⟩ | ⟨p, hcomplete, rfl⟩
    · exact (run_sound hr).not_opened he hev hopened
    · exact hawaits (hcomplete.awaits i.env (run_sound hr).unpaired)
  exact ⟨fun hc => hnever (.inl hc), fun q hq hc => hnever (.inr ⟨q, hq, hc⟩)⟩

end

end SoundPush
