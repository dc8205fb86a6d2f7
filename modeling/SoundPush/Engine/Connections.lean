/-
`Connections` -- what every run of the engine keeps about connections: their ids
are given out once, each is established at most once, and whatever the engine
holds under a connection id belongs to the connection that was established with
that id.

How it is put together. A world is the engine with what is under way outside of it: the dials and
handshakes that the transport was asked for, and the connections that have been established so
far. Within one event `Fresh` says that a handler uses the next connection id for every call and
no other. Over a run there are three invariants: `Booked`, that a call is reported once and its id
belongs to nobody else; `Granted`, that a route of a peer never waits to be accepted; and `Wired`,
that pairings, waiting connections and sessions are of connections that were established. Each is
proved from the moves of the engine alone; `Sound` is the three together, and what other modules
cite.
-/
import SoundPush.Engine.Moves
import SoundPush.Engine.World

set_option autoImplicit false

namespace SoundPush

/-! ## 1. Connection ids

The calls of a handler, compared with the counter that the event met. -/

namespace Actor

/-- The work an event starts is on new connections, or on the one that was dialed; `n` is the next
connection id at the start of the event. -/
structure Fresh (event : Event) (n : Nat) (s : Actor) : Prop where
  le : n ≤ s.next_conn_id
  calls : ∀ call ∈ s.calls,
    (n ≤ call.conn_id ∧ call.conn_id < s.next_conn_id) ∨
      ∃ conn pair, event = .Dialed call.conn_id conn pair
  nodup : (s.calls.map Call.conn_id).Nodup
  dials : ∀ conn_id pinned pair target, Call.Dial conn_id pinned pair target ∈ s.calls → n ≤ conn_id
  sessions : ∀ conn_id conn dialed hello pair,
    Call.RunSession conn_id conn dialed hello pair ∈ s.calls →
      event = .Incoming conn ∨ ∃ p, event = .Dialed conn_id conn p

/-- Another call, on the next connection id. -/
theorem Fresh.call {event : Event} {n : Nat} {s : Actor} (h : s.Fresh event n)
    (hd : ∀ conn_id conn pair, event = .Dialed conn_id conn pair → conn_id < n) {call : Call}
    (hc : call.conn_id = s.next_conn_id)
    (hs : ∀ conn_id conn dialed hello pair, call = .RunSession conn_id conn dialed hello pair →
      event = .Incoming conn) {s' : Actor}
    (hnext : s'.next_conn_id = s.next_conn_id + 1) (hcalls : s'.calls = s.calls ++ [call]) :
    s'.Fresh event n := by
  have hle := h.le
  refine ⟨by omega, fun c hmem => ?_, ?_, fun conn_id pinned pair target hmem => ?_,
    fun conn_id conn dialed hello pair hmem => ?_⟩
  · rw [hcalls, List.mem_append, List.mem_singleton] at hmem
    rcases hmem with hmem | rfl
    · exact (h.calls c hmem).imp_left fun hb => ⟨hb.1, by omega⟩
    · exact .inl ⟨by omega, by omega⟩
  · rw [hcalls, List.map_append, List.map_singleton, List.nodup_append]
    refine ⟨h.nodup, List.nodup_singleton _, fun i hi j hj => ?_⟩
    obtain ⟨c, hc', rfl⟩ := List.mem_map.1 hi
    rw [List.mem_singleton.1 hj, hc]
    rcases h.calls c hc' with hb | ⟨conn, pair, he⟩
    · omega
    · have := hd _ _ _ he
      omega
  · rw [hcalls, List.mem_append, List.mem_singleton] at hmem
    rcases hmem with hmem | rfl
    · exact h.dials conn_id pinned pair target hmem
    · exact h.le.trans hc.ge
  · rw [hcalls, List.mem_append, List.mem_singleton] at hmem
    rcases hmem with hmem | he
    · exact h.sessions conn_id conn dialed hello pair hmem
    · exact .inl (hs _ _ _ _ _ he.symm)

/-- A move that dials or answers a connection takes the next id and counts on; a move that was
told of a transport uses the id of its dial, which is an older one. -/
theorem Move.fresh [Crypto] {env : Env} {s₀ s s' : Actor} {event : Event} {n : Nat}
    (hd : ∀ conn_id conn pair, event = .Dialed conn_id conn pair → conn_id < n)
    (hmove : Move env s₀ event s s') (h : s.Fresh event n) : s'.Fresh event n := by
  cases hmove with
  | upkeep hup =>
      exact ⟨hup.standing.next_conn_id ▸ h.le, by
        rw [hup.standing.next_conn_id, hup.standing.calls]
        exact h.calls, hup.standing.calls ▸ h.nodup, hup.standing.calls ▸ h.dials,
        hup.standing.calls ▸ h.sessions⟩
  | open_route _ _ _ hs _ =>
      exact ⟨hs.standing.next_conn_id ▸ h.le, by
        rw [hs.standing.next_conn_id, hs.standing.calls]
        exact h.calls, hs.standing.calls ▸ h.nodup, hs.standing.calls ▸ h.dials,
        hs.standing.calls ▸ h.sessions⟩
  | dial => exact h.call hd rfl (by rintro _ _ _ _ _ ⟨⟩) rfl rfl
  | pair_dial => exact h.call hd rfl (by rintro _ _ _ _ _ ⟨⟩) rfl rfl
  | incoming conn hello he =>
      refine h.call hd rfl (fun _ _ _ _ _ hc => ?_) rfl rfl
      cases hc
      exact he
  | dialed conn_id conn hello pair he hc =>
      refine ⟨h.le, fun c hmem => ?_, ?_, fun i p q t hmem => ?_, fun i cn d hl p hmem => ?_⟩
      · rw [hc, List.nil_append, List.mem_singleton] at hmem
        exact .inr ⟨conn, pair, hmem ▸ he⟩
      · rw [hc]
        exact List.nodup_singleton _
      · rw [hc, List.nil_append, List.mem_singleton] at hmem
        cases hmem
      · rw [hc, List.nil_append, List.mem_singleton] at hmem
        cases hmem
        exact .inr ⟨pair, he⟩
  | _ => exact ⟨h.le, h.calls, h.nodup, h.dials, h.sessions⟩

end Actor

/-! ## 2. The connections of a run

What the transport has been asked for and has not reported yet, and what has been established. -/

/-- The connection whose work reports with an event. -/
theorem Call.conn_id_of_reports {event : Event} {call : Call} (h : call.reports event = true) :
    (∀ conn_id conn pair, event = .Dialed conn_id conn pair → call.conn_id = conn_id) ∧
      (∀ est, event = .Established est → call.conn_id = est.conn_id ∧
        ∃ hello pair, call = .RunSession est.conn_id est.conn est.dialed hello pair) := by
  refine ⟨?_, ?_⟩
  · rintro conn_id conn pair rfl
    cases call with
    | Dial c p q t =>
        simp only [reports, Bool.and_eq_true, beq_iff_eq] at h
        exact h.1.symm
    | RunSession => cases h
  · rintro est rfl
    cases call with
    | Dial => cases h
    | RunSession c conn dialed hello pair =>
        simp only [reports, Bool.and_eq_true, beq_iff_eq] at h
        obtain ⟨⟨rfl, rfl⟩, rfl⟩ := h
        exact ⟨rfl, hello, pair, rfl⟩

variable [Crypto]

/-- The connection ids in use are distinct, and belong to keys the run knows. -/
structure World.Booked (Known : PublicKey → Prop) (w : World) : Prop where
  calls : ∀ call ∈ w.calls, call.conn_id < w.actor.next_conn_id
  nodup : (w.calls.map Call.conn_id).Nodup
  opened : ∀ e ∈ w.opened,
    e.conn_id < w.actor.next_conn_id ∧ e.conn_id ∉ w.calls.map Call.conn_id
  unique : ∀ e ∈ w.opened, ∀ e' ∈ w.opened, e.conn_id = e'.conn_id → e = e'
  known_calls : ∀ conn_id conn dialed hello pair,
    Call.RunSession conn_id conn dialed hello pair ∈ w.calls → Known conn.peer_public_key
  known : ∀ e ∈ w.opened, Known e.conn.peer_public_key

/-- A connection that was established before, or is now. -/
theorem World.mem_opened_step {w : World} {i : Input} {e : Established}
    (h : e ∈ (w.step i).opened) : e ∈ w.opened ∨ i.event = .Established e := by
  unfold World.step at h
  dsimp only at h
  split at h
  · next est hev =>
      rcases List.mem_cons.1 h with rfl | h
      · exact .inr hev
      · exact .inl h
  · exact .inl h

/-- A connection that was established stays among those that were. -/
theorem World.opened_subset_step (w : World) (i : Input) : w.opened ⊆ (w.step i).opened := by
  unfold World.step
  dsimp only
  split
  · exact List.subset_cons_self _ _
  · exact fun _ h => h

/-- And the one that an event reports comes to them. -/
theorem World.opened_of_established {w : World} {i : Input} {est : Established}
    (h : i.event = .Established est) : est ∈ (w.step i).opened := by
  unfold World.step
  dsimp only
  rw [h]
  exact List.mem_cons_self

/-- A session is established by a call that was waiting. -/
theorem World.enabled.established {Known : PublicKey → Prop} {w : World} {i : Input}
    (he : w.enabled Known i) {est : Established} (hev : i.event = .Established est) :
    ∃ hello pair, Call.RunSession est.conn_id est.conn est.dialed hello pair ∈ w.calls := by
  unfold World.enabled at he
  rw [hev] at he
  obtain ⟨⟨call, hmem, hr⟩, _⟩ := he
  obtain ⟨_, hello, pair, rfl⟩ := (Call.conn_id_of_reports hr).2 est rfl
  exact ⟨hello, pair, hmem⟩

/-- A dial that succeeds was waiting, and reached the device it was pinned to. -/
theorem World.enabled.dialed {Known : PublicKey → Prop} {w : World} {i : Input}
    (he : w.enabled Known i) {conn_id : Nat} {conn : SecureConnection} {pair : Option PairRequest}
    (hev : i.event = .Dialed conn_id conn pair) :
    Known conn.peer_public_key ∧
      ∃ pinned target, Call.Dial conn_id pinned pair target ∈ w.calls ∧
        ∀ id, pinned = some id → conn.peer_public_key.device_id = id := by
  unfold World.enabled at he
  rw [hev] at he
  exact he

namespace World.Booked

variable {Known : PublicKey → Prop} {w : World} {i : Input}

/-- A transport that is reported was dialed under an id that was given out. -/
theorem dialed_lt (h : w.Booked Known) (he : w.enabled Known i) (conn_id : Nat)
    (conn : SecureConnection) (pair : Option PairRequest)
    (hev : i.event = .Dialed conn_id conn pair) : conn_id < w.actor.next_conn_id := by
  obtain ⟨_, pinned, target, hmem, _⟩ := he.dialed hev
  exact h.calls _ hmem

/-- The call that reports is no longer among the calls. -/
theorem not_mem_of_dialed (h : w.Booked Known) (he : w.enabled Known i) {conn_id : Nat}
    {conn : SecureConnection} {pair : Option PairRequest}
    (hev : i.event = .Dialed conn_id conn pair) :
    conn_id ∉ (w.calls.eraseP (Call.reports i.event)).map Call.conn_id := by
  obtain ⟨_, pinned, target, hmem, _⟩ := he.dialed hev
  refine List.not_mem_map_eraseP (fun call _ hr => ?_) ⟨_, hmem, ?_⟩ h.nodup
  · exact (Call.conn_id_of_reports hr).1 _ _ _ hev
  · simp [Call.reports, hev]

/-- A connection that is reported leaves the calls, and no other call has its id. -/
theorem not_mem_of_established (h : w.Booked Known) (he : w.enabled Known i) {est : Established}
    (hev : i.event = .Established est) :
    est.conn_id ∉ (w.calls.eraseP (Call.reports i.event)).map Call.conn_id := by
  obtain ⟨hello, pair, hmem⟩ := he.established hev
  refine List.not_mem_map_eraseP (fun call _ hr => ?_) ⟨_, hmem, ?_⟩ h.nodup
  · exact ((Call.conn_id_of_reports hr).2 _ hev).1
  · simp [Call.reports, hev]

/-- One turn of the world, given that the engine used the ids as it should. -/
theorem step (h : w.Booked Known) (he : w.enabled Known i)
    (hfresh : (w.actor.step i).Fresh i.event w.actor.next_conn_id) :
    (w.step i).Booked Known := by
  have hsub : (w.calls.eraseP (Call.reports i.event)).Sublist w.calls := List.eraseP_sublist
  have hle : w.actor.next_conn_id ≤ (w.step i).actor.next_conn_id := hfresh.le
  have hmem {call : Call} (hc : call ∈ (w.step i).calls) :
      call ∈ w.calls.eraseP (Call.reports i.event) ∨ call ∈ (w.actor.step i).calls :=
    List.mem_append.1 hc
  -- an id known before the event is no id of a call the event started
  have hnew {c : Nat} (hlt : c < w.actor.next_conn_id)
      (hc : c ∈ (w.actor.step i).calls.map Call.conn_id) :
      ∃ conn pair, i.event = .Dialed c conn pair := by
    obtain ⟨call, hcall, rfl⟩ := List.mem_map.1 hc
    rcases hfresh.calls call hcall with hb | hd
    · omega
    · exact hd
  have hest {est : Established} (hev : i.event = .Established est) :
      est.conn_id < w.actor.next_conn_id ∧ est.conn_id ∈ w.calls.map Call.conn_id := by
    obtain ⟨hello, pair, hmem⟩ := he.established hev
    exact ⟨h.calls _ hmem, List.mem_map.2 ⟨_, hmem, rfl⟩⟩
  constructor
  case calls =>
    intro call hcall
    rcases hmem hcall with hcall | hcall
    · exact (h.calls call (hsub.subset hcall)).trans_le hle
    · rcases hfresh.calls call hcall with hb | ⟨conn, pair, hd⟩
      · exact hb.2
      · exact (h.dialed_lt he _ _ _ hd).trans_le hle
  case nodup =>
    refine (List.map_append ▸ List.nodup_append.2 ⟨?_, hfresh.nodup, ?_⟩ : List.Nodup _)
    · exact h.nodup.sublist (hsub.map _)
    · rintro c hold _ hc rfl
      obtain ⟨call, hcall, rfl⟩ := List.mem_map.1 hold
      obtain ⟨conn, pair, hd⟩ := hnew (h.calls call (hsub.subset hcall)) hc
      exact h.not_mem_of_dialed he hd hold
  case opened =>
    intro e hopened
    have hlt : e.conn_id < w.actor.next_conn_id := by
      rcases World.mem_opened_step hopened with ho | hev
      · exact (h.opened e ho).1
      · exact (hest hev).1
    refine ⟨hlt.trans_le hle, fun hc => ?_⟩
    obtain ⟨call, hcall, hcid⟩ := List.mem_map.1 hc
    rcases World.mem_opened_step hopened with ho | hev
    · refine (h.opened e ho).2 ?_
      rcases hmem hcall with hcall | hcall
      · exact List.mem_map.2 ⟨call, hsub.subset hcall, hcid⟩
      · obtain ⟨conn, pair, hd⟩ := hnew hlt (List.mem_map.2 ⟨call, hcall, hcid⟩)
        obtain ⟨_, pinned, target, hdial, _⟩ := he.dialed hd
        exact List.mem_map.2 ⟨_, hdial, rfl⟩
    · rcases hmem hcall with hcall | hcall
      · exact h.not_mem_of_established he hev (List.mem_map.2 ⟨call, hcall, hcid⟩)
      · obtain ⟨conn, pair, hd⟩ := hnew hlt (List.mem_map.2 ⟨call, hcall, hcid⟩)
        exact nomatch hev.symm.trans hd
  case unique =>
    intro e hopened e' hopened' hid
    rcases World.mem_opened_step hopened with ho | hev <;>
      rcases World.mem_opened_step hopened' with ho' | hev'
    · exact h.unique e ho e' ho' hid
    · exact absurd (hid ▸ (hest hev').2) (h.opened e ho).2
    · exact absurd (hid ▸ (hest hev).2) (h.opened e' ho').2
    · exact Event.Established.inj (hev.symm.trans hev')
  case known_calls =>
    intro conn_id conn dialed hello pair hcall
    rcases hmem hcall with hcall | hcall
    · exact h.known_calls _ _ _ _ _ (hsub.subset hcall)
    · rcases hfresh.sessions _ _ _ _ _ hcall with hev | ⟨p, hev⟩
      · unfold World.enabled at he
        rw [hev] at he
        exact he
      · exact (he.dialed hev).1
  case known =>
    intro e hopened
    rcases World.mem_opened_step hopened with ho | hev
    · exact h.known e ho
    · obtain ⟨hello, pair, hcall⟩ := he.established hev
      exact h.known_calls _ _ _ _ _ hcall

end World.Booked

/-! ## 3. What is held under a connection id

Every table of the engine that is keyed by connections or holds one. The invariant is about the
state between the moves of one event as well, since `s₀` and `s` may differ there. -/

namespace Actor

/-- A peer's route is being started, runs, or waits for its session: it is never asked for here. -/
def Granted (s : Actor) : Prop :=
  ∀ r ∈ s.routes, r.requested_locally = false →
    r.status = .Starting ∨ r.status = .Active ∨ r.status = .Paused

omit [Crypto] in
/-- Routes that go on as they were keep it. -/
theorem Granted.continues {s t : Actor} (h : s.Granted)
    (hc : Continues s.routes t.routes) : t.Granted := by
  intro r' hr' hlocal
  obtain ⟨r, hr, hcont⟩ := hc r' hr' hlocal
  have hs := h r hr (hcont.requested_locally ▸ hlocal)
  rcases hcont.status with he | ⟨_, he⟩ | he
  · rw [he]
    exact hs
  · exact .inr (.inl he)
  · exact .inr (.inr he)

/-- A move keeps it: a route that a peer asked for is opened as one that starts or runs. -/
theorem Move.granted {env : Env} {s₀ s s' : Actor} {event : Event}
    (hmove : Move env s₀ event s s') (h : s.Granted) : s'.Granted := by
  cases hmove with
  | upkeep hup => exact h.continues hup.routes
  | open_route peer req kind hs _ =>
      intro r' hr' hlocal
      rcases hs.routes r' hr' hlocal with ⟨r, hr, hcont⟩ | ⟨_, _, _, hstart⟩
      · exact h.continues (t := { s' with routes := [r'] })
          (fun q hq hl => by
            rw [List.mem_singleton.1 hq]
            exact ⟨r, hr, hcont⟩) r' (List.mem_singleton_self r') hlocal
      · exact hstart.imp_right .inl
  | _ => exact h

/-- Everything under a connection id belongs to the connection that was established with it, and
the index and the session table are inverse to each other. -/
structure Wired (opened : List Established) (s : Actor) : Prop where
  unpaired : ∀ conn_id est since, s.unpaired.get conn_id = some (est, since) →
    est ∈ opened ∧ est.conn_id = conn_id
  pairings : ∀ id p, s.pairings.get id = some p →
    p.established ∈ opened ∧ id = p.conn.peer_public_key.device_id
  sessions : ∀ id l, s.link id = some l →
    ∃ e ∈ opened, e.conn_id = l.conn_id ∧ e.conn = l.conn ∧
      id = l.conn.peer_public_key.device_id
  index : ∀ conn_id id, s.conn_index.get conn_id = some id ↔
    ∃ l, s.link id = some l ∧ l.conn_id = conn_id

namespace Wired

variable {env : Env} {opened : List Established} {s₀ s s' : Actor} {event : Event}

/-- More established connections do no harm. -/
theorem mono {opened' : List Established} (h : s.Wired opened) (hsub : opened ⊆ opened') :
    s.Wired opened' where
  unpaired c e t hget := (h.unpaired c e t hget).imp_left (hsub ·)
  pairings id p hget := (h.pairings id p hget).imp_left (hsub ·)
  sessions id l hl :=
    let ⟨e, he, hrest⟩ := h.sessions id l hl
    ⟨e, hsub he, hrest⟩
  index := h.index

/-- A pairing that completes stands on an established connection of its device. -/
theorem completes (h : s₀.Wired opened) {id : DeviceId} {p : PendingPairing}
    (hc : s₀.completes env event id p) :
    p.established ∈ opened ∧ id = p.conn.peer_public_key.device_id := by
  unfold Actor.completes at hc
  split at hc
  · obtain ⟨_, _, q, hq, _, rfl⟩ := hc
    exact h.pairings id q hq
  · obtain ⟨_, _, _, q, hq, _, rfl⟩ := hc
    exact h.pairings id q hq
  · obtain ⟨est, since, _, _, hu, rfl, _, _, _, _, q, hq, rfl⟩ := hc
    split at hq
    · rw [hq]
      exact ⟨(h.unpaired _ _ _ hu).1, rfl⟩
    · exact h.pairings _ q hq
  · cases hc

/-- A pairing that an event begins is of a connection that was established. -/
theorem begins (h : s₀.Wired opened) (hev : ∀ est, event = .Established est → est ∈ opened)
    {id : DeviceId} {p : PendingPairing} (hb : s₀.begins env event id p) :
    p.established ∈ opened ∧ id = p.conn.peer_public_key.device_id := by
  unfold Actor.begins at hb
  split at hb
  · obtain ⟨rfl, _, qr, _, rfl⟩ := hb
    exact ⟨hev _ rfl, rfl⟩
  · obtain ⟨est, since, hu, rfl, rfl⟩ := hb
    exact ⟨(h.unpaired _ _ _ hu).1, rfl⟩
  · cases hb

/-- So is a session that an event brings. -/
theorem installs (h : s₀.Wired opened) (hev : ∀ est, event = .Established est → est ∈ opened)
    {id : DeviceId} {est : Established} (hi : s₀.installs env event id est) :
    est ∈ opened ∧ id = est.conn.peer_public_key.device_id := by
  rcases hi with ⟨he, rfl⟩ | ⟨p, hc, rfl⟩
  · exact ⟨hev _ he, rfl⟩
  · exact h.completes hc

/-- What only drops entries keeps the rest wired. -/
theorem of_lapses (h : s.Wired opened) (hst : Lapses s.toStanding s'.toStanding)
    (hl : s'.link = s.link) : s'.Wired opened where
  unpaired c e t hget := h.unpaired c e t (hst.unpaired _ _ hget)
  pairings id p hget := h.pairings id p (hst.pairings _ _ hget)
  sessions := hl ▸ h.sessions
  index := by
    rw [hst.conn_index, hl]
    exact h.index

/-- A pairing of an established connection may be entered. -/
theorem set_pairing (h : s.Wired opened) {id : DeviceId} {p : PendingPairing}
    (hp : p.established ∈ opened ∧ id = p.conn.peer_public_key.device_id) :
    (s.set_pairings (s.pairings.insert id p)).Wired opened where
  unpaired := h.unpaired
  pairings k q hget := by
    rw [set_pairings, Table.get_insert] at hget
    split at hget
    · next hk =>
        obtain rfl := Option.some_inj.1 hget
        rw [hk]
        exact hp
    · exact h.pairings k q hget
  sessions := h.sessions
  index := h.index

/-- A session goes from both tables. -/
theorem drop (h : s.Wired opened) {id : DeviceId} {session : Session}
    (hs : s.sessions.get id = some session) :
    Wired opened { s with
      sessions := s.sessions.erase id
      conn_index := s.conn_index.erase session.conn_id } := by
  have hlink : s.link id = some session.link := by
    unfold link
    rw [hs, Option.map_some]
  have hafter := fun k => link_of_erase (s := s) (t := { s with
    sessions := s.sessions.erase id, conn_index := s.conn_index.erase session.conn_id }) rfl k
  refine ⟨h.unpaired, h.pairings, fun k l hl => ?_, fun c k => ?_⟩
  · rw [hafter] at hl
    split at hl
    · cases hl
    · exact h.sessions k l hl
  · have hindex := h.index c k
    rw [hafter]
    dsimp only
    rw [Table.get_erase]
    by_cases hc : c = session.conn_id
    · rw [if_pos hc]
      refine ⟨fun hcon => (nomatch hcon), fun ⟨l, hl, hlc⟩ => ?_⟩
      split at hl
      · cases hl
      · next hk =>
          -- two devices with one connection would share the index entry
          have hid := (h.index c id).2 ⟨session.link, hlink, hc.symm⟩
          exact absurd (Option.some_inj.1 ((hindex.2 ⟨l, hl, hlc⟩).symm.trans hid)) hk
    · rw [if_neg hc, hindex]
      by_cases hk : k = id
      · rw [if_pos hk, hk, hlink]
        refine ⟨fun ⟨l, hl, hlc⟩ => ?_, fun ⟨l, hl, _⟩ => (nomatch hl)⟩
        obtain rfl := Option.some_inj.1 hl
        exact absurd hlc.symm hc
      · rw [if_neg hk]

/-- A connection becomes a session in both tables. -/
theorem install (h : s.Wired opened)
    (hu : ∀ e ∈ opened, ∀ e' ∈ opened, e.conn_id = e'.conn_id → e = e') {id : DeviceId}
    {est : Established} (hl : s.link id = none) (hest : est ∈ opened)
    (hid : id = est.conn.peer_public_key.device_id) :
    Wired opened { s with
      conn_index := s.conn_index.insert est.conn_id id
      sessions := s.sessions.insert id (new_session env est) } := by
  have hafter := fun k => link_of_insert (s := s) (t := { s with
    conn_index := s.conn_index.insert est.conn_id id
    sessions := s.sessions.insert id (new_session env est) }) rfl k
  refine ⟨h.unpaired, h.pairings, fun k l hk => ?_, fun c k => ?_⟩
  · rw [hafter] at hk
    split at hk
    · next he =>
        obtain rfl := Option.some_inj.1 hk
        exact ⟨est, hest, rfl, rfl, he.trans hid⟩
    · exact h.sessions k l hk
  · have hindex := h.index c k
    rw [hafter]
    dsimp only
    rw [Table.get_insert]
    -- The index is exact in both directions. A second device under this id would have been
    -- established on the same connection, which the ids rule out.
    by_cases hc : c = est.conn_id
    · rw [if_pos hc]
      by_cases hk : k = id
      · rw [if_pos hk, hk]
        exact ⟨fun _ => ⟨_, rfl, hc.symm⟩, fun _ => rfl⟩
      · rw [if_neg hk]
        refine ⟨fun he => absurd (Option.some_inj.1 he).symm hk, fun ⟨l, hlk, hlc⟩ => ?_⟩
        obtain ⟨e, he, hec, hconn, hkey⟩ := h.sessions k l hlk
        obtain rfl := hu e he est hest (hec.trans (hlc.trans hc))
        exact absurd (hkey.trans (hconn ▸ hid.symm)) hk
    · rw [if_neg hc, hindex]
      by_cases hk : k = id
      · rw [if_pos hk, hk, hl]
        refine ⟨fun ⟨l, hl, _⟩ => (nomatch hl), fun ⟨l, hl, hlc⟩ => ?_⟩
        obtain rfl := Option.some_inj.1 hl
        exact absurd hlc.symm hc
      · rw [if_neg hk]

end Wired

/-- A move keeps the engine wired, given that established connections differ in their ids. -/
theorem Move.wired {env : Env} {opened : List Established} {s₀ s s' : Actor} {event : Event}
    (hmove : Move env s₀ event s s')
    (hu : ∀ e ∈ opened, ∀ e' ∈ opened, e.conn_id = e'.conn_id → e = e')
    (hev : ∀ est, event = .Established est → est ∈ opened) (h₀ : s₀.Wired opened)
    (h : s.Wired opened) : s'.Wired opened := by
  cases hmove with
  | upkeep hup => exact h.of_lapses hup.standing hup.link
  | open_route _ _ _ hs _ => exact h.of_lapses hs.standing hs.link
  | drop id session hs _ => exact h.drop hs
  -- Only an entry that no session stands behind is taken out.
  | unindex c hc =>
      refine ⟨h.unpaired, h.pairings, h.sessions, fun c' k => ?_⟩
      have hindex := h.index c' k
      dsimp only
      rw [Table.get_erase]
      split
      · next he =>
          refine ⟨fun hcon => (nomatch hcon), fun hl => ?_⟩
          obtain ⟨l, hlk, hlc⟩ := hl
          refine absurd ?_ (hc k (he ▸ hindex.2 ⟨l, hlk, hlc⟩))
          obtain ⟨session, hs, rfl⟩ := Option.map_eq_some_iff.1 hlk
          rw [hs, Option.map_some]
          exact congrArg some (hlc.trans he)
      · exact hindex
  | install id est hl _ hi =>
      obtain ⟨hest, hid⟩ := h₀.installs hev hi
      exact h.install hu hl hest hid
  | begin_pairing id p hb => exact h.set_pairing (h₀.begins hev hb)
  | confirm id p accept hp _ => exact h.set_pairing (h₀.pairings id p hp)
  | peer_confirm id p hp _ => exact h.set_pairing (h₀.pairings id p hp)
  | arrive est he _ =>
      refine ⟨fun c e t hget => ?_, h.pairings, h.sessions, h.index⟩
      dsimp only at hget
      rw [Table.get_insert] at hget
      split at hget
      · next hc =>
          obtain ⟨rfl, _⟩ := Prod.mk.inj (Option.some_inj.1 hget)
          exact ⟨hev _ he, hc.symm⟩
      · exact h.unpaired c e t hget
  | _ => exact ⟨h.unpaired, h.pairings, h.sessions, h.index⟩

end Actor

/-! ## 4. Runs

The three invariants along a run of the world. -/

/-- The actor as an event meets it. -/
def World.met (w : World) : Actor := { w.actor with calls := [], out := [] }

/-- What every run keeps. -/
structure World.Sound (Known : PublicKey → Prop) (w : World) : Prop where
  booked : w.Booked Known
  granted : w.actor.Granted
  wired : w.actor.Wired w.opened

/-- The engine's own part of a turn. -/
theorem World.step_actor (w : World) (i : Input) :
    (w.step i).actor = w.met.handle i.env i.event := rfl

namespace World.Sound

variable {Known : PublicKey → Prop} {w : World} {i : Input}

/-- One event of a run, as moves. -/
theorem moves (h : w.Sound Known) (i : Input) :
    Actor.Moves i.env w.met i.event w.met (w.step i).actor := by
  refine w.met.handle_moves i.env i.event (fun r hr hlocal hreq => ?_) rfl
  rcases h.granted r hr hlocal with hs | hs | hs <;> exact nomatch hreq.symm.trans hs

omit [Crypto] in
/-- The engine meets every event without calls of an earlier one. -/
theorem met_fresh (w : World) (i : Input) : w.met.Fresh i.event w.actor.next_conn_id :=
  ⟨le_refl _, nofun, List.nodup_nil, nofun, nofun⟩

theorem step_booked (h : w.Sound Known) (he : w.enabled Known i) : (w.step i).Booked Known := by
  refine h.booked.step he ((h.moves i).invariant ?_ (met_fresh w i))
  exact fun a b hmove hf => hmove.fresh (h.booked.dialed_lt he) hf

/-- The state an event meets, seen with the connections established by then. -/
theorem met_wired (h : w.Sound Known) (i : Input) : w.met.Wired (w.step i).opened :=
  ⟨(h.wired.mono (w.opened_subset_step i)).unpaired,
    (h.wired.mono (w.opened_subset_step i)).pairings,
    (h.wired.mono (w.opened_subset_step i)).sessions, h.wired.index⟩

/-- One turn keeps all three. -/
theorem step (h : w.Sound Known) (he : w.enabled Known i) : (w.step i).Sound Known where
  booked := h.step_booked he
  granted := (h.moves i).invariant (fun _ _ hmove => hmove.granted) h.granted
  wired := (h.moves i).invariant
    (fun _ _ hmove => hmove.wired (h.step_booked he).unique
      (fun _ hev => World.opened_of_established hev) (h.met_wired i))
    (h.met_wired i)

end World.Sound

/-- And they hold at the start. -/
theorem start_sound {Known : PublicKey → Prop} {w : World} (h : (engine Known).init w) :
    w.Sound Known := by
  obtain ⟨identity, trust, settings, _, rfl⟩ := h
  have hnil {α : Type} {a : α} (h : a ∈ ([] : List α)) : False := List.not_mem_nil h
  constructor
  case booked => exact ⟨fun _ h => (hnil h).elim, List.nodup_nil, fun _ h => (hnil h).elim,
    fun _ h => (hnil h).elim, fun _ _ _ _ _ h => (hnil h).elim, fun _ h => (hnil h).elim⟩
  case granted => exact fun _ h => (hnil h).elim
  case wired =>
    refine ⟨fun c e t h => ?_, fun id p h => ?_, fun id l h => ?_, fun c id => ?_⟩
    · exact nomatch (Table.get_empty c).symm.trans h
    · exact nomatch (Table.get_empty id).symm.trans h
    · exact nomatch (congrArg (Option.map Session.link) (Table.get_empty id)).symm.trans h
    · refine ⟨fun h => ?_, fun ⟨l, h, _⟩ => ?_⟩
      · exact nomatch (Table.get_empty c).symm.trans h
      · exact nomatch (congrArg (Option.map Session.link) (Table.get_empty id)).symm.trans h

/-- Every run is sound. -/
theorem run_sound {Known : PublicKey → Prop} {tr : List (World × Input)} {w : World}
    (hr : (engine Known).Run tr w) : w.Sound Known :=
  hr.invariant (fun _ => start_sound) fun _ _ h he => h.step he

end SoundPush
