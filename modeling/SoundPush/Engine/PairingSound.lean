/-
`PairingSound` -- a key gets into the trust store in one of three ways, each of
them on one connection.

Three flows share the pending records and the code that completes them, so what a
record says is traced back to what happened: its flags stand for steps of the run
on the connection of the record, and a dial for a scanned code, with the
connection that came of it, reaches no device but the one of the code.

`World.Backed` is the invariant. A record's `local_confirmed` stands for a
confirmation by the user on its connection, `peer_confirmed` for an accepting answer
that came on it, and `qr_scanner` for a scan of the device that the record is about.
For the last one the dials have to be followed as well: a dial for a scanned code is
work that aims at the device of the code, and a new code cannot fall on an older
connection, because ids are given out in order. What is left is which of the three
completed the pairing, and that is read off the move that adds the key
(`Move.trusts`).
-/
import SoundPush.Engine.Trusted

set_option autoImplicit false

namespace SoundPush

section
variable [Crypto]

/-! ## 1. What happened in a run -/

/-- An event of a run, with the state it met. -/
abbrev Moment := World × Input

namespace Moment

/-- The user confirmed the pairing that is pending on a connection. -/
def confirms (p : Moment) (conn_id : Nat) : Prop :=
  ∃ id record, p.2.event = .Command (.ConfirmPairing id true) ∧
    p.1.actor.pairings.get id = some record ∧ record.conn_id = conn_id

/-- The connection delivered an accepting `PairResult`. -/
def accepts (p : Moment) (conn_id : Nat) : Prop := p.2.event = .Control conn_id (.PairResult true)

/-- The user scanned the code of a device, and this dialed the connection. -/
def scans (p : Moment) (conn_id : Nat) (id : DeviceId) : Prop :=
  ∃ payload caller, p.2.event = .Command (.PairWithQr (some payload) caller) ∧
    payload.device_id = id ∧ p.1.actor.next_conn_id ≤ conn_id ∧
    conn_id < (p.1.step p.2).actor.next_conn_id

/-- The connection's `PairRequest` proved, for the key of the connection, that its peer saw the code
which is shown and has not expired. -/
def proves (p : Moment) (est : Established) : Prop :=
  ∃ req since proof qr, p.2.event = .Control est.conn_id (.PairRequest req) ∧
    p.1.actor.unpaired.get est.conn_id = some (est, since) ∧
    req.qr_proof = some proof ∧ p.1.actor.qr = some qr ∧
    qr.is_expired p.2.env.now_unix = false ∧
    verify_pairing_proof qr.secret (.of_public_key est.conn.peer_public_key)
      p.1.actor.identity.device_id proof = true

/-- The user had a new code shown. -/
def shows (p : Moment) : Prop := ∃ caller, p.2.event = .Command (.StartPairing caller)

end Moment

/-! ## 2. Dials for a scanned code -/

/-- The work is on a connection to this device only. -/
def Call.aims (id : DeviceId) : Call → Prop
  | .Dial _ pinned _ _ => pinned = some id
  | .RunSession _ conn _ _ _ => conn.peer_public_key.device_id = id

/-- The dials for a scanned code, since an event met `s₀`. -/
def Actor.Scans (s₀ : Actor) (event : Event) (s : Actor) : Prop :=
  ∀ c, s.pair_dials.get c = some true → s₀.pair_dials.get c = some true ∨
    (s₀.next_conn_id ≤ c ∧ c < s.next_conn_id ∧
      ∃ payload caller, event = .Command (.PairWithQr (some payload) caller) ∧
        ∀ call ∈ s.calls, call.conn_id = c → call.aims payload.device_id)

/-- A call on a new connection is none of the dials so far. -/
theorem Actor.Scans.call {s₀ s s' : Actor} {event : Event} (h : s₀.Scans event s) {call : Call}
    (hc : call.conn_id = s.next_conn_id) (hdials : s'.pair_dials = s.pair_dials)
    (hnext : s'.next_conn_id = s.next_conn_id + 1) (hcalls : s'.calls = s.calls ++ [call]) :
    s₀.Scans event s' := by
  intro c hget
  rw [hdials] at hget
  refine (h c hget).imp_right fun ⟨hle, hlt, payload, caller, he, haims⟩ => ?_
  refine ⟨hle, by omega, payload, caller, he, fun d hd hdc => ?_⟩
  rw [hcalls, List.mem_append, List.mem_singleton] at hd
  rcases hd with hd | rfl
  · exact haims d hd hdc
  · omega

omit [Crypto] in
/-- Only a scan dials for a code. -/
theorem Actor.pairs_by_qr {event : Event} {pinned : Option DeviceId} {qr : Bool}
    (h : Actor.pairs_by event pinned qr) (hqr : qr = true) : ∃ payload caller,
      event = .Command (.PairWithQr (some payload) caller) ∧ pinned = some payload.device_id := by
  unfold Actor.pairs_by at h
  split at h
  · next payload caller => exact ⟨payload, caller, rfl, h.2⟩
  · exact nomatch h.symm.trans hqr
  · exact nomatch h.symm.trans hqr
  · cases h

theorem Actor.Move.scans {env : Env} {s₀ s s' : Actor} {event : Event}
    (hmove : Move env s₀ event s s') (hf : s.Fresh event s₀.next_conn_id) (h : s₀.Scans event s) :
    s₀.Scans event s' := by
  cases hmove with
  | upkeep hup =>
      intro c hget
      rw [hup.standing.next_conn_id, hup.standing.calls]
      exact h c (hup.standing.pair_dials _ _ hget)
  | open_route _ _ _ hs _ =>
      intro c hget
      rw [hs.standing.next_conn_id, hs.standing.calls]
      exact h c (hs.standing.pair_dials _ _ hget)
  | dial => exact h.call rfl rfl rfl rfl
  | incoming => exact h.call rfl rfl rfl rfl
  | pair_dial pinned pair target qr hqr =>
      intro c hget
      dsimp only at hget
      rw [Table.get_insert] at hget
      split at hget
      · next hc =>
          obtain ⟨payload, caller, he, rfl⟩ := pairs_by_qr hqr (Option.some_inj.1 hget)
          -- The dial of a scanned code: it is new, so no other call of this turn has its id.
          have hle := hf.le
          refine .inr ⟨by omega, ?_, payload, caller, he, fun d hd hdc => ?_⟩
          · dsimp only
            omega
          rw [List.mem_append, List.mem_singleton] at hd
          rcases hd with hd | rfl
          · rcases hf.calls d hd with hb | ⟨conn, p, hev⟩
            · omega
            · exact nomatch he.symm.trans hev
          · rfl
      · refine (h c hget).imp_right fun ⟨hle, hlt, payload, caller, he, haims⟩ => ?_
        refine ⟨hle, Nat.lt_succ_of_lt hlt, payload, caller, he, fun d hd hdc => ?_⟩
        rw [List.mem_append, List.mem_singleton] at hd
        rcases hd with hd | rfl
        · exact haims d hd hdc
        · exact absurd hdc hlt.ne'
  | dialed conn_id conn hello pair he _ =>
      intro c hget
      refine (h c hget).imp_right fun ⟨_, _, payload, caller, hev, _⟩ => ?_
      exact nomatch he.symm.trans hev
  | _ => exact h

/-! ## 3. What the records stand for -/

/-- The flags of a record stand for steps of the run on its connection. -/
structure PendingPairing.Backed (tr : List Moment) (p : PendingPairing) : Prop where
  confirmed : p.local_confirmed = true → ∃ q ∈ tr, q.confirms p.conn_id
  accepted : p.peer_confirmed = true → ∃ q ∈ tr, q.accepts p.conn_id
  scanned : p.qr_scanner = true →
    p.dialed = true ∧ ∃ q ∈ tr, q.scans p.conn_id p.conn.peer_public_key.device_id

theorem PendingPairing.Backed.mono {tr tr' : List Moment} {p : PendingPairing} (h : p.Backed tr)
    (hsub : tr ⊆ tr') : p.Backed tr' where
  confirmed hl := (h.confirmed hl).imp fun _ hq => hq.imp_left (hsub ·)
  accepted hl := (h.accepted hl).imp fun _ hq => hq.imp_left (hsub ·)
  scanned hl := (h.scanned hl).imp_right fun hs => hs.imp fun _ hq => hq.imp_left (hsub ·)

/-- What every run keeps of its pairings. -/
structure World.Backed (tr : List Moment) (w : World) : Prop where
  pairings : ∀ id p, w.actor.pairings.get id = some p → p.Backed tr
  scans : ∀ c, w.actor.pair_dials.get c = some true → c < w.actor.next_conn_id ∧
    ∃ id, (∃ q ∈ tr, q.scans c id) ∧ ∀ call ∈ w.calls, call.conn_id = c → call.aims id

namespace World.Backed

variable {Known : PublicKey → Prop} {tr : List Moment} {w : World} {i : Input}

/-- A record that begins has no decision in it; that of a scan is of the device that was scanned. -/
theorem begins (h : w.Backed tr) (he : w.enabled Known i) {id : DeviceId} {p : PendingPairing}
    (hb : w.met.begins i.env i.event id p) : p.Backed tr := by
  unfold Actor.begins at hb
  split at hb
  · next est hev =>
      obtain ⟨_, hdialed, qr_scanner, hdial, rfl⟩ := hb
      refine ⟨nofun, nofun, fun hqr => ⟨hdialed, ?_⟩⟩
      obtain rfl : qr_scanner = true := hqr
      obtain ⟨_, d, hscan, haims⟩ := h.scans est.conn_id hdial
      obtain ⟨hello, pair, hcall⟩ := he.established hev
      obtain rfl : est.conn.peer_public_key.device_id = d := haims _ hcall rfl
      exact hscan
  · obtain ⟨est, since, _, _, rfl⟩ := hb
    exact ⟨nofun, nofun, nofun⟩
  · cases hb

theorem move (h : w.Backed tr) (he : w.enabled Known i) {s s' : Actor}
    (hmove : Actor.Move i.env w.met i.event s s')
    (hs : ∀ id p, s.pairings.get id = some p → p.Backed (tr ++ [(w, i)])) :
    ∀ id p, s'.pairings.get id = some p → p.Backed (tr ++ [(w, i)]) := by
  have hold : tr ⊆ tr ++ [(w, i)] := List.subset_append_left _ _
  have hnow : (w, i) ∈ tr ++ [(w, i)] := List.mem_append_right _ (List.mem_singleton_self _)
  -- one record is set, the others stay
  have hset {id : DeviceId} {p : PendingPairing} (hp : p.Backed (tr ++ [(w, i)])) (k : DeviceId)
      (q : PendingPairing) (hget : (s.pairings.insert id p).get k = some q) :
      q.Backed (tr ++ [(w, i)]) := by
    rw [Table.get_insert] at hget
    split at hget
    · obtain rfl := Option.some_inj.1 hget
      exact hp
    · exact hs k q hget
  cases hmove with
  | upkeep hup => exact fun id p hget => hs id p (hup.standing.pairings _ _ hget)
  | open_route _ _ _ hopened _ =>
      exact fun id p hget => hs id p (hopened.standing.pairings _ _ hget)
  | begin_pairing id p hb => exact hset ((h.begins he hb).mono hold)
  | confirm id p accept hp hev =>
      have hback := (h.pairings id p hp).mono hold
      refine hset ⟨fun hl => ?_, hback.accepted, hback.scanned⟩
      obtain rfl : accept = true := hl
      exact ⟨(w, i), hnow, id, p, hev, hp, rfl⟩
  | peer_confirm id p hp hev =>
      have hback := (h.pairings id p hp).mono hold
      exact hset ⟨hback.confirmed, fun _ => ⟨(w, i), hnow, hev⟩, hback.scanned⟩
  | _ => exact hs

theorem step (h : w.Backed tr) (hw : w.Sound Known) (he : w.enabled Known i) :
    (w.step i).Backed (tr ++ [(w, i)]) := by
  have hold : tr ⊆ tr ++ [(w, i)] := List.subset_append_left _ _
  have hnow : (w, i) ∈ tr ++ [(w, i)] := List.mem_append_right _ (List.mem_singleton_self _)
  have hlt := hw.booked.dialed_lt he
  obtain ⟨hfresh, hscans⟩ := (hw.moves i).invariant
    (P := fun a => a.Fresh i.event w.actor.next_conn_id ∧ w.met.Scans i.event a)
    (fun a b hmove ⟨hf, hs⟩ => ⟨hmove.fresh hlt hf, hmove.scans hf hs⟩)
    ⟨Sound.met_fresh w i, fun c hget => .inl hget⟩
  constructor
  case pairings =>
    exact (hw.moves i).invariant (fun a b hmove hs => h.move he hmove hs)
      fun id p hget => (h.pairings id p hget).mono hold
  case scans =>
    intro c hget
    rcases hscans c hget with hget | ⟨hle, hlt', payload, caller, hev, haims⟩
    · obtain ⟨hc, id, ⟨q, hq, hscan⟩, haims⟩ := h.scans c hget
      refine ⟨hc.trans_le hfresh.le, id, ⟨q, hold hq, hscan⟩, fun call hcall hid => ?_⟩
      rcases List.mem_append.1 hcall with hcall | hcall
      · exact haims call (List.eraseP_subset hcall) hid
      · -- new work on an old connection is the session of the dial that succeeded
        cases call with
        | Dial d pinned pair target =>
            have := hfresh.dials _ _ _ _ hcall
            obtain rfl : d = c := hid
            omega
        | RunSession d conn dialed hello pair =>
            obtain rfl : d = c := hid
            rcases hfresh.calls _ hcall with hb | ⟨conn', pair', hev⟩
            · exact absurd hc hb.1.not_gt
            · rcases hfresh.sessions _ _ _ _ _ hcall with hev' | ⟨p, hev'⟩
              · exact nomatch hev.symm.trans hev'
              · obtain ⟨_, pinned, target, hdial, hpinned⟩ := he.dialed hev'
                exact hpinned id (haims _ hdial rfl)
    -- A code scanned in this very step: every older call has a smaller id.
    · refine ⟨hlt', payload.device_id, ⟨(w, i), hnow, payload, caller, hev, rfl, hle, hlt'⟩,
        fun call hcall hid => ?_⟩
      rcases List.mem_append.1 hcall with hcall | hcall
      · have := hw.booked.calls call (List.eraseP_subset hcall)
        have : w.actor.next_conn_id ≤ c := hle
        omega
      · exact haims call hcall hid

end World.Backed

theorem run_backed {Known : PublicKey → Prop} {tr : List Moment} {w : World}
    (hr : (engine Known).Run tr w) : w.Backed tr := by
  induction hr with
  | start h =>
      obtain ⟨identity, trust, settings, _, rfl⟩ := h
      refine ⟨fun id p hget => ?_, fun c hget => ?_⟩
      · exact nomatch (Table.get_empty id).symm.trans hget
      · exact nomatch (Table.get_empty c).symm.trans hget
  | next hr he ih => exact ih.step (run_sound hr) he

/-! ## 4. What an event adds to the store -/

namespace Actor

variable {env : Env} {s₀ s s' : Actor} {event : Event}

/-- Only a completed pairing adds a key. -/
theorem Move.trusts (hmove : Move env s₀ event s s') {key : PublicKey}
    (hk : s'.trust.trusts key) :
    s.trust.trusts key ∨ ∃ id p, s₀.completes env event id p ∧ p.conn.peer_public_key = key := by
  simp only [TrustStore.trusts_iff] at hk ⊢
  -- the devices of the new store have the keys they had
  have hkeep (hget : ∀ id d', s'.trust.get id = some d' →
      ∃ d, s.trust.get id = some d ∧ d'.public_key = d.public_key) :
      ∃ id d, s.trust.get id = some d ∧ d.public_key = key := by
    obtain ⟨id, d', hd', rfl⟩ := hk
    obtain ⟨d, hd, hkey⟩ := hget id d' hd'
    exact ⟨id, d, hd, hkey.symm⟩
  have hupdate {t : TrustStore} {id : DeviceId} {f : TrustedDevice → TrustedDevice} {ok : Bool}
      (hf : ∀ d, (f d).public_key = d.public_key) (k : DeviceId) (d' : TrustedDevice)
      (hd' : (t.update id f ok).get k = some d') :
      ∃ d, t.get k = some d ∧ d'.public_key = d.public_key := by
    rw [TrustStore.get_update] at hd'
    split at hd'
    · obtain ⟨d, hd, rfl⟩ := Option.map_eq_some_iff.1 hd'
      exact ⟨d, hd, hf d⟩
    · exact ⟨d', hd', rfl⟩
  cases hmove with
  | upkeep hup => exact .inl (hup.standing.trust ▸ hk)
  | open_route _ _ _ hs _ => exact .inl (hs.standing.trust ▸ hk)
  | trust t ht _ =>
      refine .inl (hkeep fun id d' hd' => ?_)
      have hvital := ht id
      rw [show t.get id = some d' from hd', Option.map_some] at hvital
      obtain ⟨d, hd, he⟩ := Option.map_eq_some_iff.1 hvital.symm
      exact ⟨d, hd, (TrustedDevice.vital_eq.1 he).2.1.symm⟩
  | judge id blocked ok _ _ => exact .inl (hkeep (hupdate fun _ => rfl))
  | permit peer kind policy _ => exact .inl (hkeep (hupdate fun _ => rfl))
  | forget id ok _ _ =>
      refine .inl (hkeep fun k d' hd' => ?_)
      dsimp only at hd'
      rw [TrustStore.get_remove] at hd'
      split at hd'
      · cases hd'
      · exact ⟨d', hd', rfl⟩
  | pair id p hc =>
      obtain ⟨k, d', hd', rfl⟩ := hk
      dsimp only at hd'
      rw [TrustStore.get_upsert] at hd'
      split at hd'
      · obtain rfl := Option.some_inj.1 hd'
        exact .inr ⟨id, p, hc, rfl⟩
      · exact .inl ⟨k, d', hd', rfl⟩
  | _ => exact .inl hk

/-- A new code is shown only when the user asks for one. -/
theorem Move.qr_none (hmove : Move env s₀ event s s')
    (hev : ∀ caller, event ≠ .Command (.StartPairing caller)) (h : s.qr = none) : s'.qr = none := by
  cases hmove with
  | upkeep hup => exact hup.standing.qr.elim (·.trans h) id
  | open_route _ _ _ hs _ => exact hs.standing.qr.elim (·.trans h) id
  | show_qr qr caller he => exact absurd he (hev caller)
  | _ => exact h

end Actor

namespace World.Sound

variable {Known : PublicKey → Prop} {w : World} {i : Input}

theorem trusts_step (h : w.Sound Known) {key : PublicKey} (hold : ¬ w.actor.trust.trusts key)
    (hnew : (w.step i).actor.trust.trusts key) :
    ∃ id p, w.met.completes i.env i.event id p ∧ p.conn.peer_public_key = key := by
  have hadds : w.actor.trust.trusts key ∨
      ∃ id p, w.met.completes i.env i.event id p ∧ p.conn.peer_public_key = key := by
    refine (h.moves i).invariant (P := fun a => a.trust.trusts key → _) ?_ .inl hnew
    exact fun a b hmove ha hb => (hmove.trusts hb).elim ha .inr
  exact hadds.resolve_left hold

end World.Sound

/-- A proof that counts uses the code up. -/
theorem Moment.proves.spends {w : World} {i : Input} {est : Established}
    (hp : Moment.proves (w, i) est) : (w.step i).actor.qr = none := by
  obtain ⟨req, since, proof, qr, hev, hu, hproof, hqr, hexpired, hverify⟩ := hp
  have hstep : (w.step i).actor =
      { w.met with unpaired := w.met.unpaired.erase est.conn_id }.admit_proven i.env est := by
    have hu' : w.met.unpaired.get est.conn_id = some (est, since) := hu
    have hqr' : w.met.qr = some qr := hqr
    have hverify' : verify_pairing_proof qr.secret (.of_public_key est.conn.peer_public_key)
        w.met.identity.device_id proof = true := hverify
    dsimp only at hev
    rw [World.step_actor, hev]
    change w.met.on_control i.env est.conn_id (.PairRequest req) = _
    unfold Actor.on_control
    rw [hu']
    unfold Actor.on_pair_request
    dsimp only
    rw [hproof, hqr']
    dsimp only at hexpired ⊢
    rw [hexpired, hverify']
    rfl
  have hmoves := Actor.on_proof_moves (s := w.met) i.env hu hproof hqr hexpired hverify
  rw [hstep]
  exact hmoves.invariant (fun a b hmove => hmove.qr_none (fun _ hev => by cases hev)) rfl

/-! ## 5. Soundness -/

/-- In every run, an event that adds a key to the trust store has behind it an established
connection of that key, and on this one connection: the user confirmed its pairing and it delivered
an accepting `PairResult`; or the event is its `PairRequest` with a proof for its key of the code
shown, which is then shown no more; or it was dialed for a scanned code, has the device id of that
code, and delivered an accepting `PairResult`. And between two proofs that count the user has a new
code shown. -/
theorem pairing_sound {Known : PublicKey → Prop} (hinj : Distinct Known) {tr : List Moment}
    {w : World} (hr : (engine Known).Run tr w) :
    (∀ i key, w.enabled Known i → ¬ w.actor.trust.trusts key →
      (w.step i).actor.trust.trusts key →
      ∃ est ∈ (w.step i).opened, est.conn.peer_public_key = key ∧
        (((∃ p ∈ tr ++ [(w, i)], p.confirms est.conn_id) ∧
            ∃ p ∈ tr ++ [(w, i)], p.accepts est.conn_id) ∨
          (Moment.proves (w, i) est ∧ (w.step i).actor.qr = none) ∨
          (est.dialed = true ∧ (∃ p ∈ tr, p.scans est.conn_id key.device_id) ∧
            ∃ p ∈ tr ++ [(w, i)], p.accepts est.conn_id))) ∧
    (∀ tr₁ p tr₂ q tr₃ est est', tr = tr₁ ++ p :: (tr₂ ++ q :: tr₃) → p.proves est →
      q.proves est' → ∃ r ∈ tr₂, r.shows) := by
  constructor
  · intro i key he hold hnew
    have hs := run_sound hr
    have hback := run_backed hr
    have hnow : (w, i) ∈ tr ++ [(w, i)] := List.mem_append_right _ (List.mem_singleton_self _)
    have hmono {p : PendingPairing} (hp : p.Backed tr) : p.Backed (tr ++ [(w, i)]) :=
      hp.mono (List.subset_append_left _ _)
    obtain ⟨id, p, hc, rfl⟩ := hs.trusts_step hold hnew
    obtain ⟨hopened, _⟩ := (hs.met_wired i).completes hc
    unfold Actor.completes at hc
    split at hc
    · next device_id accept hev =>
        obtain ⟨rfl, rfl, q, hq, hpeer, rfl⟩ := hc
        refine ⟨_, hopened, rfl, .inl ⟨⟨(w, i), hnow, device_id, q, hev, hq, rfl⟩, ?_⟩⟩
        exact (hmono (hback.pairings _ q hq)).accepted hpeer
    · next conn_id accepted hev =>
        obtain ⟨rfl, _, hon, q, hq, hflow, rfl⟩ := hc
        obtain ⟨q', hq', rfl⟩ := Actor.pairing_on_eq_some hon
        obtain rfl := Option.some_inj.1 (hq.symm.trans hq')
        have haccepts : ∃ p ∈ tr ++ [(w, i)], p.accepts q.conn_id := ⟨(w, i), hnow, hev⟩
        refine ⟨_, hopened, rfl, ?_⟩
        rcases hflow with hscanner | hlocal
        · obtain ⟨hdialed, hscan⟩ := (hback.pairings _ q hq).scanned hscanner
          exact .inr (.inr ⟨hdialed, hscan, haccepts⟩)
        · exact .inl ⟨(hmono (hback.pairings _ q hq)).confirmed hlocal, haccepts⟩
    · next conn_id req hev =>
        obtain ⟨est, since, proof, qr, hu, rfl, hproof, hqr, hexpired, hverify, q, hq, rfl⟩ := hc
        obtain ⟨hest, rfl⟩ := (hs.met_wired i).unpaired _ _ _ hu
        have hproves : Moment.proves (w, i) est :=
          ⟨req, since, proof, qr, hev, hu, hproof, hqr, hexpired, hverify⟩
        have hknown := (hs.step he).booked.known
        -- without keying material the record of an earlier connection completes: of the same key
        have hkey : q.conn.peer_public_key = est.conn.peer_public_key := by
          split at hq
          · rw [hq]
            rfl
          · obtain ⟨hq', hid⟩ := (hs.met_wired i).pairings _ q hq
            exact hinj _ _ (hknown _ hq') (hknown _ hest) hid.symm
        exact ⟨est, hest, hkey.symm, .inr (.inl ⟨hproves, hproves.spends⟩)⟩
    · cases hc
  · rintro tr₁ p tr₂ q tr₃ est est' rfl hp hq
    rw [← List.cons_append, ← List.append_assoc] at hr
    have hrun := hr.before.1
    have hspent : (p.1.step p.2).actor.qr = none := hp.spends
    obtain ⟨_, _, _, qr, _, _, _, hqr, _⟩ := hq
    obtain ⟨tr₄, r, tr₅, rfl, hr₀, hr₁⟩ := hrun.flip_after
      (P := fun w => w.actor.qr ≠ none) (fun h => h hspent) (fun h => nomatch hqr.symm.trans h)
    refine ⟨r, List.mem_append_right _ List.mem_cons_self, ?_⟩
    rw [← List.cons_append, ← List.append_assoc] at hrun
    have hsound := run_sound hrun.before.1
    by_contra hshows
    refine hr₁ ((hsound.moves r.2).invariant (fun a b hmove => hmove.qr_none ?_) (not_not.1 hr₀))
    exact fun caller hev => hshows ⟨caller, hev⟩

end

/-! ## 6. A run -/

namespace Sample

/-- The user forgets the peer, opens pairing, and the peer connects and asks; the user confirms. -/
def pairs : List Input :=
  ⟨env, .Command (.ForgetDevice peer)⟩ :: ⟨env, .Command (.StartPairing 1)⟩ ::
    (connects 1 peer peer_key ++
      [⟨env, .Control 1 (.PairRequest ⟨none⟩)⟩, ⟨env, .Command (.ConfirmPairing peer true)⟩])

theorem pairs_admitted : (engine Known).Admits (start .default) pairs := by
  refine ⟨trivial, trivial, .inl rfl, ⟨⟨_, List.mem_singleton.2 rfl, ?_⟩, ?_⟩, ?_, trivial, trivial⟩
  · simp [Call.reports]
    rfl
  · decide
  · exact List.mem_singleton.2 rfl

end Sample

open Sample in
/-- The peer accepts what the user confirmed, and is trusted. -/
theorem pairing_sound_confirmed :
    let w := (engine Known).exec (start .default) pairs
    let i : Input := ⟨env, .Control 1 (.PairResult true)⟩
    ¬ w.actor.trust.trusts peer_key ∧ (w.step i).actor.trust.trusts peer_key ∧
      ∃ est ∈ (w.step i).opened, est.conn.peer_public_key = peer_key := by
  refine ⟨by decide +kernel, by decide +kernel, ?_⟩
  have hrun := Machine.run_of_admits (start_init .default) pairs_admitted
  obtain ⟨est, hest, hkey, _⟩ := (pairing_sound known_distinct hrun).1
    ⟨env, .Control 1 (.PairResult true)⟩ peer_key (show 1 ∈ World.live _ by decide +kernel)
    (by decide +kernel) (by decide +kernel)
  exact ⟨est, hest, hkey⟩

end SoundPush
