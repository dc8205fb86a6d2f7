/-
`Crossing` -- two devices that dial each other at the same time.

Both connections come up, and each engine learns of them in its own order. It keeps the
connection that the device with the lower id dialed, and closes the other; whether it
learned of that one first or last, and whether it hears of the close before or after it
has decided, both engines end with the same session (`simultaneous_dials_agree`).

What else the engines do meanwhile is left open, but for work on these two connections.
-/
import SoundPush.Engine.Connections
import SoundPush.Engine.Dispatch
import SoundPush.Engine.Trusted

set_option autoImplicit false

namespace SoundPush

/-! ## 1. Wires -/

/-- What an engine holds about connections. -/
structure Wires where
  /-- the connections that are sessions -/
  link : DeviceId → Option Link
  index : Table Nat DeviceId
  /-- those that the event has closed -/
  hung_up : List Nat

namespace Wires

variable (w : Wires)

/-- A connection becomes the session with a device. -/
def install (id : DeviceId) (l : Link) : Wires :=
  { w with link := Function.update w.link id (some l), index := w.index.insert l.conn_id id }

def drop (id : DeviceId) (conn_id : Nat) : Wires :=
  { w with link := Function.update w.link id none, index := w.index.erase conn_id }

def hang_up (conn_id : Nat) : Wires := { w with hung_up := w.hung_up ++ [conn_id] }

section
variable {w}

theorem install_link (id : DeviceId) (l : Link) (k : DeviceId) :
    (w.install id l).link k = if k = id then some l else w.link k :=
  Function.update_apply w.link id (some l) k

theorem install_index (id : DeviceId) (l : Link) (k : Nat) :
    (w.install id l).index.get k = if k = l.conn_id then some id else w.index.get k :=
  Table.get_insert _ _ _ _

theorem drop_link (id : DeviceId) (conn_id : Nat) (k : DeviceId) :
    (w.drop id conn_id).link k = if k = id then none else w.link k :=
  Function.update_apply w.link id none k

theorem drop_index (id : DeviceId) (conn_id k : Nat) :
    (w.drop id conn_id).index.get k = if k = conn_id then none else w.index.get k :=
  Table.get_erase _ _ _

end

end Wires

namespace Actor

def wires (s : Actor) : Wires :=
  { link := s.link, index := s.conn_index, hung_up := s.out.filterMap Output.closes }

section
variable (env : Env) {s t : Actor}

theorem wires_ext {w : Wires} (hlink : s.link = w.link) (hindex : s.conn_index = w.index)
    (hclosed : s.board.closed = w.hung_up) : s.wires = w := by
  unfold wires
  rw [hlink, hindex]
  exact congrArg (Wires.mk w.link w.index) hclosed

theorem Upkeep.wires (h : s.Upkeep t) (hclosed : t.board.closed = s.board.closed) :
    t.wires = s.wires :=
  wires_ext h.link h.standing.conn_index hclosed

theorem wires_of_tables (h : t.toTables = s.toTables) (hclosed : t.board.closed = s.board.closed) :
    t.wires = s.wires :=
  (Upkeep.of_tables h).wires hclosed

/-- A session goes out of the tables. -/
theorem wires_of_drop {id : DeviceId} {conn_id : Nat} (hs : t.sessions = s.sessions.erase id)
    (hindex : t.conn_index = s.conn_index.erase conn_id)
    (hclosed : t.board.closed = s.board.closed) : t.wires = s.wires.drop id conn_id := by
  refine wires_ext (funext fun k => ?_) hindex hclosed
  exact (link_of_erase hs k).trans (Function.update_apply s.link id none k).symm

theorem wires_of_install {id : DeviceId} {session : Session}
    (hs : t.sessions = s.sessions.insert id session)
    (hindex : t.conn_index = s.conn_index.insert session.conn_id id)
    (hclosed : t.board.closed = s.board.closed) : t.wires = s.wires.install id session.link := by
  refine wires_ext (funext fun k => ?_) hindex hclosed
  exact (link_of_insert hs k).trans (Function.update_apply s.link id _ k).symm

variable (s)

theorem start_route_closed (peer : DeviceId) (kind : RouteKind) (reply : Reply) :
    (s.start_route env peer kind false reply).board.closed = s.board.closed := by
  rcases s.start_route_board env peer kind reply with ⟨h, _⟩ | ⟨_, _, _, _, _, h⟩
  · rw [h]
  · rw [h]

theorem resume_kind_closed (peer : DeviceId) (st : Actor × List Route) (kind : RouteKind) :
    (resume_kind env peer st kind).1.board.closed = st.1.board.closed := by
  have hstart := st.1.start_route_closed env peer kind .dropped
  unfold resume_kind
  dsimp only
  generalize st.1.start_route env peer kind false .dropped = s₁ at hstart ⊢
  split
  · exact hstart
  · split
    · exact hstart
    · exact hstart

theorem resume_routes_closed (peer : DeviceId) :
    (s.resume_routes env peer).board.closed = s.board.closed := by
  have heach (kinds : List RouteKind) (st : Actor × List Route) :
      (kinds.foldl (resume_kind env peer) st).1.board.closed = st.1.board.closed := by
    induction kinds generalizing st with
    | nil => rfl
    | cons kind kinds ih => exact (ih _).trans (resume_kind_closed env peer st kind)
  rw [resume_routes_eq]
  exact heach _ _

/-- Who the two devices are to each other has not changed. -/
structure Stays (t : Actor) : Prop where
  identity : t.identity = s.identity
  vital : ∀ id, (t.trust.get id).map TrustedDevice.vital = (s.trust.get id).map TrustedDevice.vital

variable {s}

theorem Stays.vouches (h : s.Stays t) {id : DeviceId} {key : PublicKey}
    (hv : s.trust.vouches id key) : t.trust.vouches id key :=
  TrustStore.vouches_of_vital (h.vital id) hv

theorem Stays.refl (s : Actor) : s.Stays s := ⟨rfl, fun _ => rfl⟩

theorem Stays.trans {a b c : Actor} (h : a.Stays b) (h' : b.Stays c) : a.Stays c :=
  ⟨h'.identity.trans h.identity, fun id => (h'.vital id).trans (h.vital id)⟩

theorem Upkeep.stays (h : s.Upkeep t) : s.Stays t :=
  ⟨h.standing.identity, fun id => by rw [h.standing.trust]⟩

end

/-! ## 2. A connection comes up -/

section
variable (env : Env) (s : Actor)

theorem cancel_dial_wires (id : DeviceId) : (s.cancel_dial id).wires = s.wires :=
  (s.cancel_dial_upkeep id).wires (congrArg Board.closed (s.cancel_dial_board id))

theorem end_network_test_wires (id : DeviceId) (error : EngineError) :
    (s.end_network_test id error).wires = s.wires :=
  wires_of_tables (s.end_network_test_tables id error)
    (congrArg Board.closed (s.end_network_test_board id error))

theorem pause_routes_for_wires (id : DeviceId) : (s.pause_routes_for env id).wires = s.wires :=
  (s.pause_routes_for_upkeep env id).wires (by
    rw [s.pause_routes_for_board env id]
    rfl)

theorem close_wires (conn_id : Nat) (reason : StopReason) :
    (s.close conn_id reason).wires = s.wires.hang_up conn_id :=
  wires_ext rfl rfl (congrArg Board.closed (s.close_board conn_id reason))

theorem drop_session_wires {id : DeviceId} {session : Session}
    (h : s.sessions.get id = some session) (reason : StopReason) :
    (s.drop_session id reason).wires =
      (s.wires.drop id session.conn_id).hang_up session.conn_id := by
  unfold drop_session
  rw [h]
  dsimp only
  rw [close_wires]
  exact congrArg (Wires.hang_up · session.conn_id) (wires_of_drop rfl rfl rfl)

theorem install_session_stays (id : DeviceId) (est : Established) :
    s.Stays (s.install_session env id est) ∧
      (s.install_session env id est).wires = s.wires.install id (new_session env est).link := by
  -- The five steps of `install_session` in turn, each replaced by the state it leaves; only the
  -- fourth touches the sessions.
  have hcancel := cancel_dial_upkeep (s.remember_connection env id est) id
  have hwires := cancel_dial_wires (s.remember_connection env id est) id
  unfold install_session
  dsimp only
  generalize (s.remember_connection env id est).cancel_dial id = s₁ at hcancel hwires ⊢
  generalize hs₂ : ({ s₁ with dials := _, conn_index := _ } : Actor) = s₂
  have hticket : s₂.Upkeep (s₂.issue_ticket env est) ∧
      (s₂.issue_ticket env est).board = s₂.board ∧
      (s₂.issue_ticket env est).conn_index = s₂.conn_index := by
    unfold issue_ticket
    split
    · exact ⟨.of_eq rfl rfl rfl, emit_send_board _ _ _, rfl⟩
    · exact ⟨.refl _, rfl, rfl⟩
  obtain ⟨hup, hboard, hindex⟩ := hticket
  generalize s₂.issue_ticket env est = s₃ at hup hboard hindex ⊢
  generalize hs₄ : ({ s₃ with sessions := _ } : Actor) = s₄
  have hresume := resume_routes_upkeep env s₄ id
  have hnamed : s.Stays (s.remember_connection env id est) := by
    refine ⟨rfl, fun k => ?_⟩
    apply vital_update_hints
    exact fun d => rfl
  have hindexed : s₁.Stays s₂ := by
    rw [← hs₂]
    exact ⟨rfl, fun _ => rfl⟩
  have htaken : s₃.Stays s₄ := by
    rw [← hs₄]
    exact ⟨rfl, fun _ => rfl⟩
  refine ⟨?_, ?_⟩
  · exact hnamed.trans (hcancel.stays.trans (hindexed.trans (hup.stays.trans
      (htaken.trans hresume.stays))))
  · rw [hresume.wires (s₄.resume_routes_closed env id)]
    have hlink₁ : s₁.link = s.link := congrArg Wires.link hwires
    have hlink₃ : s₃.link = s₁.link := by
      rw [hup.link, ← hs₂]
      rfl
    refine wires_ext (funext fun k => ?_) ?_ ?_
    · rw [link_of_insert (s := s₃) (by rw [← hs₄]) k, hlink₃, hlink₁]
      exact (Function.update_apply s.link id _ k).symm
    · rw [← hs₄]
      refine hindex.trans ?_
      rw [← hs₂]
      exact congrArg (fun w => w.index.insert est.conn_id id) hwires
    · rw [← hs₄]
      refine (congrArg Board.closed hboard).trans ?_
      rw [← hs₂]
      exact congrArg Wires.hung_up hwires

variable [Crypto] {s}

/-- What `on_established` does with a trusted device. -/
theorem on_established_trusted {id : DeviceId} {est : Established}
    (hid : est.conn.peer_public_key.device_id = id)
    (hv : s.trust.vouches id est.conn.peer_public_key) :
    ∃ s₁ : Actor, s.on_established env est = s₁.promote_session env id est ∧ s.Stays s₁ ∧
      s₁.sessions = s.sessions ∧ s₁.wires = s.wires := by
  obtain ⟨device, hget, hblocked, hkey⟩ := hv
  unfold on_established
  dsimp only
  rw [hid]
  generalize hs₁ : ({ s with dial_targets := _, pair_dials := _ } : Actor) = s₁
  have hok : ¬ (device.blocked = true ∨ device.public_key ≠ est.conn.peer_public_key) := by
    rw [hblocked, hkey]
    simp
  rw [hget]
  dsimp only
  rw [if_neg hok]
  have hredeem : s₁.Stays (s₁.redeem_token env est) ∧
      (s₁.redeem_token env est).sessions = s₁.sessions ∧
      (s₁.redeem_token env est).wires = s₁.wires := by
    unfold redeem_token
    split <;> exact ⟨⟨rfl, fun _ => rfl⟩, rfl, rfl⟩
  obtain ⟨hstays, hsessions, hwires⟩ := hredeem
  have hstart : s.Stays s₁ ∧ s₁.sessions = s.sessions ∧ s₁.wires = s.wires := by
    rw [← hs₁]
    exact ⟨⟨rfl, fun _ => rfl⟩, rfl, rfl⟩
  exact ⟨_, rfl, hstart.1.trans hstays, hsessions.trans hstart.2.1, hwires.trans hstart.2.2⟩

section
variable {id : DeviceId} {est : Established} {old : Session}

variable {env} in
theorem Stays.keeps_old {t : Actor} (h : s.Stays t) :
    t.keeps_old env id old est = s.keeps_old env id old est := by
  unfold Actor.keeps_old
  rw [h.identity]

/-- A connection with a trusted device that has no session. -/
theorem on_established_first (hid : est.conn.peer_public_key.device_id = id)
    (hv : s.trust.vouches id est.conn.peer_public_key) (hnone : s.link id = none) :
    s.Stays (s.on_established env est) ∧
      (s.on_established env est).wires = s.wires.install id (new_session env est).link := by
  obtain ⟨s₁, hs₁, hstays, hsessions, hwires⟩ := on_established_trusted env hid hv
  obtain ⟨hinstalled, hnew⟩ := s₁.install_session_stays env id est
  rw [hs₁]
  unfold promote_session
  rw [hsessions, link_eq_none.1 hnone]
  exact ⟨hstays.trans hinstalled, hnew.trans (by rw [hwires])⟩

/-- A connection that the tie-break turns down. -/
theorem on_established_turned_down (hid : est.conn.peer_public_key.device_id = id)
    (hv : s.trust.vouches id est.conn.peer_public_key) (hold : s.sessions.get id = some old)
    (hkeeps : s.keeps_old env id old est = true) :
    s.Stays (s.on_established env est) ∧
      (s.on_established env est).wires = s.wires.hang_up est.conn_id := by
  obtain ⟨s₁, hs₁, hstays, hsessions, hwires⟩ := on_established_trusted env hid hv
  rw [hs₁]
  unfold promote_session
  rw [hsessions, hold]
  dsimp only
  rw [if_pos (hstays.keeps_old.trans hkeeps)]
  have hcancel := cancel_dial_upkeep (s₁.close est.conn_id .Superseded) id
  have hclose : s₁.Stays (s₁.close est.conn_id .Superseded) := ⟨rfl, fun _ => rfl⟩
  refine ⟨hstays.trans (hclose.trans hcancel.stays), ?_⟩
  rw [cancel_dial_wires, close_wires, hwires]

/-- A connection that takes the place of another. -/
theorem on_established_supersedes (hid : est.conn.peer_public_key.device_id = id)
    (hv : s.trust.vouches id est.conn.peer_public_key) (hold : s.sessions.get id = some old)
    (hkeeps : s.keeps_old env id old est = false) :
    s.Stays (s.on_established env est) ∧
      (s.on_established env est).wires =
        ((s.wires.drop id old.conn_id).hang_up old.conn_id).install id
          (new_session env est).link := by
  obtain ⟨s₁, hs₁, hstays, hsessions, hwires⟩ := on_established_trusted env hid hv
  rw [hs₁]
  unfold promote_session
  rw [hsessions, hold]
  dsimp only
  rw [if_neg (by rw [hstays.keeps_old, hkeeps]; exact Bool.false_ne_true)]
  have hdropped : s₁.Stays (s₁.drop_session id .Superseded) := by
    unfold drop_session
    rw [hsessions, hold]
    exact ⟨rfl, fun _ => rfl⟩
  have hdrop := s₁.drop_session_wires (hsessions ▸ hold) .Superseded
  generalize s₁.drop_session id .Superseded = s₂ at hdropped hdrop ⊢
  have hpause := s₂.pause_routes_for_upkeep env id
  have hpaused := s₂.pause_routes_for_wires env id
  generalize s₂.pause_routes_for env id = s₃ at hpause hpaused ⊢
  have hend : s₃.Upkeep _ := .of_tables (s₃.end_network_test_tables id .Unreachable)
  have hended := s₃.end_network_test_wires id .Unreachable
  generalize s₃.end_network_test id .Unreachable = s₄ at hend hended ⊢
  obtain ⟨hinstalled, hnew⟩ := s₄.install_session_stays env id est
  refine ⟨hstays.trans (hdropped.trans (hpause.stays.trans (hend.stays.trans hinstalled))), ?_⟩
  rw [hnew, hended, hpaused, hdrop, hwires]

end

end

/-! ## 3. A connection closes -/

section
variable (env : Env) (s : Actor)

/-- What waits for pairing goes with its connection. -/
theorem unpairs_wires (conn_id : Nat) (reason : StopReason) :
    let after := close_pairing env { s with unpaired := s.unpaired.erase conn_id } conn_id reason
    s.Upkeep after ∧ after.wires = s.wires := by
  have hlapse : s.Upkeep { s with unpaired := s.unpaired.erase conn_id } :=
    ⟨{ Lapses.refl s.toStanding with unpaired := s.unpaired.shrinks_erase conn_id }, rfl, .refl _⟩
  have hup := hlapse.trans (close_pairing_upkeep env _ conn_id reason)
  have hboard :=
    close_pairing_board env { s with unpaired := s.unpaired.erase conn_id } conn_id reason
  exact ⟨hup, hup.wires (congrArg Board.closed hboard)⟩

/-- A connection that is nobody's session closes. -/
theorem on_closed_other (conn_id : Nat) (reason : StopReason)
    (hother : ∀ id, s.conn_index.get conn_id = some id →
      (s.link id).map Link.conn_id ≠ some conn_id) :
    s.Stays (s.on_closed env conn_id reason) ∧
      ∃ index, s.conn_index.Shrinks index ∧
        (∀ k, k ≠ conn_id → index.get k = s.conn_index.get k) ∧
        (s.on_closed env conn_id reason).wires = { s.wires with index } := by
  obtain ⟨hup, hwires⟩ := s.unpairs_wires env conn_id reason
  unfold on_closed
  dsimp only
  generalize close_pairing env _ conn_id reason = s₁ at hup hwires ⊢
  split
  · exact ⟨hup.stays, _, .refl _, fun _ _ => rfl, hwires⟩
  · next id hid =>
      rw [hup.standing.conn_index] at hid
      have hne : (s₁.sessions.get id).map Session.conn_id ≠ some conn_id := by
        have hconn := hother id hid
        rw [← hup.link] at hconn
        unfold link at hconn
        rw [Option.map_map] at hconn
        exact hconn
      rw [if_pos hne]
      have hunindexed : s₁.Stays { s₁ with conn_index := s₁.conn_index.erase conn_id } :=
        ⟨rfl, fun _ => rfl⟩
      refine ⟨hup.stays.trans hunindexed, s.conn_index.erase conn_id, s.conn_index.shrinks_erase _,
        fun k hk => by rw [Table.get_erase, if_neg hk], ?_⟩
      rw [← hwires]
      exact wires_ext rfl (by rw [← hup.standing.conn_index]) rfl

variable {s} {conn_id : Nat} {reason : StopReason}

/-- What follows when a session breaks off. -/
theorem after_close_breaks (id : DeviceId) (hr : reason.ends_routes = false) :
    s.Upkeep (s.after_close env id reason) ∧ (s.after_close env id reason).wires = s.wires := by
  have hboard := s.pause_after_board env id reason hr
  have hup : s.Upkeep (s.after_close env id reason) := by
    unfold after_close
    split
    · cases hr
    · cases hr
    · cases hr
    · dsimp only
      refine .trans (s.pause_routes_for_upkeep env id) ?_
      generalize s.pause_routes_for env id = s
      refine .trans (b := if reason = .Superseded then s else s.record_reconnect env id) ?_ ?_
      · exact .ite (.refl s) (.of_tables (s.record_reconnect_tables env id))
      · exact .ite (.of_eq rfl rfl rfl) (.refl _)
  refine ⟨hup, hup.wires ?_⟩
  rw [hboard]
  rfl

/-- The connection of a session closes. -/
theorem on_closed_session {id : DeviceId} {l : Link} (hindex : s.conn_index.get conn_id = some id)
    (hl : s.link id = some l) (hconn : l.conn_id = conn_id) (hr : reason.ends_routes = false) :
    s.Stays (s.on_closed env conn_id reason) ∧
      (s.on_closed env conn_id reason).wires = s.wires.drop id conn_id := by
  obtain ⟨hup, hwires⟩ := s.unpairs_wires env conn_id reason
  unfold on_closed
  dsimp only
  generalize close_pairing env _ conn_id reason = s₁ at hup hwires ⊢
  rw [hup.standing.conn_index, hindex]
  dsimp only
  have hsession : (s₁.sessions.get id).map Session.conn_id = some conn_id := by
    have hconn' : (s₁.link id).map Link.conn_id = some conn_id := by
      rw [hup.link, hl, Option.map_some, hconn]
    unfold link at hconn'
    rw [Option.map_map] at hconn'
    exact hconn'
  rw [if_neg (not_not.2 hsession)]
  generalize hs₂ : ({ s₁ with conn_index := _, sessions := _ } : Actor) = s₂
  have hgone : s₁.Stays s₂ ∧ s₂.wires = s₁.wires.drop id conn_id := by
    rw [← hs₂]
    refine ⟨⟨rfl, fun _ => rfl⟩, wires_of_drop rfl ?_ rfl⟩
    exact congrArg (fun index => index.erase conn_id) hup.standing.conn_index.symm
  have hmutes : s₂.Upkeep (s₂.forget_speaker_mutes id) :=
    .of_tables (s₂.forget_speaker_mutes_tables id)
  have hmuted : (s₂.forget_speaker_mutes id).wires = s₂.wires :=
    hmutes.wires (by rw [forget_speaker_mutes_board])
  generalize s₂.forget_speaker_mutes id = s₃ at hmutes hmuted ⊢
  have htest : s₃.Upkeep _ := .of_tables (s₃.end_network_test_tables id .Unreachable)
  have htested := s₃.end_network_test_wires id .Unreachable
  generalize s₃.end_network_test id .Unreachable = s₄ at htest htested ⊢
  obtain ⟨hafter, hwired⟩ := s₄.after_close_breaks env id hr
  refine ⟨hup.stays.trans (hgone.1.trans (hmutes.stays.trans (htest.stays.trans hafter.stays))), ?_⟩
  rw [hwired, htested, hmuted, hgone.2, hwires]

end

end Actor

/-! ## 4. Both devices -/

/-- A device, and the connection that it dialed. -/
inductive Dialer where
  | Lower
  | Higher
  deriving DecidableEq

def Dialer.other : Dialer → Dialer
  | .Lower => .Higher
  | .Higher => .Lower

section
variable [Crypto]

/-- Two devices and, at each of them, the numbers of the two connections. -/
structure Crossing where
  key : Dialer → PublicKey
  ordered : (key .Lower).device_id.below (key .Higher).device_id = true
  conn_id : Dialer → Dialer → Nat
  distinct : ∀ e, conn_id e .Lower ≠ conn_id e .Higher

/-- A device, and what it has heard of the two connections. -/
structure CrossEnd where
  actor : Actor
  greeted : Dialer → Bool
  parted : Dialer → Bool

structure CrossState where
  ends : Dialer → CrossEnd
  /-- the connections that a device has closed -/
  closing : Dialer → Bool

inductive CrossAct where
  | Established (conn : Dialer) (env : Env) (est : Established)
  | Closed (conn : Dialer) (env : Env) (reason : StopReason)
  /-- other work -/
  | Work (i : Input)

namespace Crossing

variable (c : Crossing)

def peer (e : Dialer) : DeviceId := (c.key e.other).device_id

def input (e : Dialer) : CrossAct → Input
  | .Established _ env est => ⟨env, .Established est⟩
  | .Closed conn env reason => ⟨env, .Closed (c.conn_id e conn) reason⟩
  | .Work i => i

/-- Work that has nothing to do with the two connections: no command ends, blocks or forgets the
peer, what becomes a session is another device's on another connection, and neither of the two is
hung up. The last is assumed as well, not derived from the others: an engine hangs up on sessions
that end and on connections that do not become one, and these are its other connections. -/
structure Apart (e : Dialer) (a : Actor) (i : Input) : Prop where
  ends : ¬ a.ends i.env i.event (c.peer e)
  installs : ∀ id est, a.installs i.env i.event id est →
    id ≠ c.peer e ∧ ∀ conn, est.conn_id ≠ c.conn_id e conn
  blocks : ∀ blocked, i.event ≠ .Command (.SetBlocked (c.peer e) blocked)
  forgets : i.event ≠ .Command (.ForgetDevice (c.peer e))
  closes : ∀ conn, c.conn_id e conn ∉ (a.step i).wires.hung_up

/-- What the transport and the user do. Each device hears of a connection once that it is up and,
when one of them has closed it, once that it is closed. The second comes up soon after the
first. -/
def enabled (s : CrossState) (x : Dialer × CrossAct) : Prop :=
  let own := s.ends x.1
  match x.2 with
  | .Established conn env est =>
      own.greeted conn = false ∧ est.conn_id = c.conn_id x.1 conn ∧
        est.dialed = decide (conn = x.1) ∧ est.conn.peer_public_key = c.key x.1.other ∧
        ∀ l, own.actor.link (c.peer x.1) = some l → env.now - l.connected_at < 5000
  | .Closed conn _ reason =>
      own.greeted conn = true ∧ own.parted conn = false ∧ s.closing conn = true ∧
        reason.ends_routes = false
  | .Work i => c.Apart x.1 { own.actor with calls := [], out := [] } i

def step (s : CrossState) (x : Dialer × CrossAct) : CrossState :=
  let own := s.ends x.1
  let actor := own.actor.step (c.input x.1 x.2)
  let after : CrossEnd :=
    match x.2 with
    | .Established conn _ _ => { own with actor, greeted := Function.update own.greeted conn true }
    | .Closed conn _ _ => { own with actor, parted := Function.update own.parted conn true }
    | .Work _ => { own with actor }
  { ends := Function.update s.ends x.1 after
    closing := fun conn => s.closing conn || decide (c.conn_id x.1 conn ∈ actor.wires.hung_up) }

/-- Nothing is left of the two connections at the start: the devices trust each other, and have no
session. -/
structure Apartness (e : Dialer) (a : Actor) : Prop where
  identity : a.identity = c.key e
  vouches : a.trust.vouches (c.peer e) (c.key e.other)
  session : a.link (c.peer e) = none
  granted : a.Granted
  unused : ∀ id l conn, a.link id = some l → l.conn_id ≠ c.conn_id e conn
  unindexed : ∀ conn, a.conn_index.get (c.conn_id e conn) = none

def machine : Machine CrossState (Dialer × CrossAct) where
  init s :=
    (∀ e, c.Apartness e (s.ends e).actor ∧
      (s.ends e).greeted = (fun _ => false) ∧ (s.ends e).parted = fun _ => false) ∧
      s.closing = fun _ => false
  enabled := c.enabled
  step := c.step

end Crossing

omit [Crypto] in
theorem Actor.Granted.not_requesting {s : Actor} (h : s.Granted) :
    ∀ r ∈ s.routes, r.requested_locally = false → r.status ≠ .Requesting := by
  intro r hr hlocal hstatus
  have hs := h r hr hlocal
  rw [hstatus] at hs
  simp at hs

theorem Actor.Granted.step {s : Actor} (h : s.Granted) (i : Input) : (s.step i).Granted := by
  have hmet : ({ s with calls := [], out := [] } : Actor).Granted := h
  exact (handle_moves i.env _ i.event hmet.not_requesting rfl).invariant
    (fun _ _ hmove ha => hmove.granted ha) hmet

/-! ## 5. What an engine knows of its two connections -/

namespace Crossing

variable (c : Crossing) (e : Dialer)

/-- The two connections are the peer's, if anybody's, and the index finds the one in use. -/
structure Owns (w : Wires) : Prop where
  session : ∀ l, w.link (c.peer e) = some l →
    w.index.get l.conn_id = some (c.peer e) ∧ ∃ conn, l.conn_id = c.conn_id e conn
  link : ∀ id l conn, w.link id = some l → l.conn_id = c.conn_id e conn → id = c.peer e
  index : ∀ id conn, w.index.get (c.conn_id e conn) = some id → id = c.peer e

variable {c e}

section
variable {w w' : Wires}

/-- One of the two becomes the session. -/
theorem Owns.install (h : c.Owns e w) {l : Link} (conn : Dialer)
    (hconn : l.conn_id = c.conn_id e conn) : c.Owns e (w.install (c.peer e) l) where
  session l' hl' := by
    rw [Wires.install_link, if_pos rfl] at hl'
    obtain rfl := Option.some_inj.1 hl'
    rw [Wires.install_index, if_pos rfl]
    exact ⟨rfl, conn, hconn⟩
  link id l' conn' hl' hc := by
    by_contra hne
    rw [Wires.install_link, if_neg hne] at hl'
    exact hne (h.link id l' conn' hl' hc)
  index id conn' hi := by
    rw [Wires.install_index] at hi
    split at hi
    · exact (Option.some_inj.1 hi).symm
    · exact h.index id conn' hi

theorem Owns.drop (h : c.Owns e w) (conn_id : Nat) : c.Owns e (w.drop (c.peer e) conn_id) where
  session l hl := by
    rw [Wires.drop_link, if_pos rfl] at hl
    cases hl
  link id l conn hl hc := by
    by_contra hne
    rw [Wires.drop_link, if_neg hne] at hl
    exact hne (h.link id l conn hl hc)
  index id conn hi := by
    rw [Wires.drop_index] at hi
    split at hi
    · cases hi
    · exact h.index id conn hi

theorem Owns.hang_up (h : c.Owns e w) (conn_id : Nat) : c.Owns e (w.hang_up conn_id) :=
  ⟨h.session, h.link, h.index⟩

/-- What is used stays in the index. -/
theorem Owns.unindex (h : c.Owns e w) {index : Table Nat DeviceId} (hs : w.index.Shrinks index)
    (hused : ∀ l, w.link (c.peer e) = some l → index.get l.conn_id = w.index.get l.conn_id) :
    c.Owns e { w with index } where
  session l hl := ⟨(hused l hl).trans (h.session l hl).1, (h.session l hl).2⟩
  link := h.link
  index id conn hi := h.index id conn (hs _ _ hi)

/-- Another device's session begins. -/
theorem Owns.install_other (h : c.Owns e w) {id : DeviceId} {l : Link} (hid : id ≠ c.peer e)
    (hconn : ∀ conn, l.conn_id ≠ c.conn_id e conn) : c.Owns e (w.install id l) where
  session l' hl' := by
    rw [Wires.install_link, if_neg hid.symm] at hl'
    obtain ⟨hi, conn, hc⟩ := h.session l' hl'
    rw [Wires.install_index, if_neg fun he => hconn conn (he.symm.trans hc)]
    exact ⟨hi, conn, hc⟩
  link id' l' conn hl' hc := by
    rw [Wires.install_link] at hl'
    split at hl'
    · obtain rfl := Option.some_inj.1 hl'
      exact absurd hc (hconn conn)
    · exact h.link id' l' conn hl' hc
  index id' conn hi := by
    rw [Wires.install_index, if_neg fun he => hconn conn he.symm] at hi
    exact h.index id' conn hi

/-- Another device's session ends. -/
theorem Owns.drop_other (h : c.Owns e w) {id : DeviceId} {l : Link} (hid : id ≠ c.peer e)
    (hl : w.link id = some l) : c.Owns e (w.drop id l.conn_id) where
  session l' hl' := by
    rw [Wires.drop_link, if_neg hid.symm] at hl'
    obtain ⟨hi, conn, hc⟩ := h.session l' hl'
    rw [Wires.drop_index, if_neg fun he => hid (h.link id l conn hl (he.symm.trans hc))]
    exact ⟨hi, conn, hc⟩
  link id' l' conn hl' hc := by
    rw [Wires.drop_link] at hl'
    split at hl'
    · cases hl'
    · exact h.link id' l' conn hl' hc
  index id' conn hi := by
    rw [Wires.drop_index] at hi
    split at hi
    · cases hi
    · exact h.index id' conn hi

end

/-- What other work leaves alone. -/
structure Leaves (c : Crossing) (e : Dialer) (s t : Actor) : Prop where
  identity : t.identity = s.identity
  vouches : s.trust.vouches (c.peer e) (c.key e.other) → t.trust.vouches (c.peer e) (c.key e.other)
  link : t.link (c.peer e) = s.link (c.peer e)
  owns : c.Owns e s.wires → c.Owns e t.wires

section
variable {env : Env} {s₀ s t : Actor} {event : Event}

theorem Leaves.trans {r : Actor} (h : c.Leaves e r s) (h' : c.Leaves e s t) : c.Leaves e r t where
  identity := h'.identity.trans h.identity
  vouches hv := h'.vouches (h.vouches hv)
  link := h'.link.trans h.link
  owns ho := h'.owns (h.owns ho)

/-- The tables about connections are not touched. -/
theorem Leaves.of_eq (hidentity : t.identity = s.identity)
    (hv : s.trust.vouches (c.peer e) (c.key e.other) → t.trust.vouches (c.peer e) (c.key e.other))
    (hlink : t.link = s.link) (hindex : t.conn_index = s.conn_index) : c.Leaves e s t where
  identity := hidentity
  vouches := hv
  link := by rw [hlink]
  owns h := by
    have hw : t.wires = { s.wires with hung_up := t.wires.hung_up } :=
      Actor.wires_ext hlink hindex rfl
    rw [hw]
    exact ⟨h.session, h.link, h.index⟩

theorem Leaves.refl (s : Actor) : c.Leaves e s s := .of_eq rfl (fun h => h) rfl rfl

theorem Leaves.of_lapses (hst : Actor.Lapses s.toStanding t.toStanding) (hlink : t.link = s.link) :
    c.Leaves e s t :=
  .of_eq hst.identity (fun h => hst.trust ▸ h) hlink hst.conn_index

omit [Crypto] in
/-- A device stays trusted where another is judged, and where it is not blocked itself. -/
theorem vouches_update {trust : TrustStore} {id peer : DeviceId} {key : PublicKey} {ok : Bool}
    {f : TrustedDevice → TrustedDevice} (hv : trust.vouches peer key)
    (hf : peer = id → ∀ d, (f d).blocked = d.blocked ∧ (f d).public_key = d.public_key) :
    (trust.update id f ok).vouches peer key := by
  obtain ⟨d, hget, hblocked, hkey⟩ := hv
  unfold TrustStore.vouches
  rw [TrustStore.get_update]
  split
  · next he =>
      obtain ⟨hb, hk⟩ := hf he d
      exact ⟨f d, by rw [hget, Option.map_some], hb.trans hblocked, hk.trans hkey⟩
  · exact ⟨d, hget, hblocked, hkey⟩

/-- Nothing that other work does is about the two connections. -/
theorem Apart.leaves_move {env : Env} {event : Event} (ha : c.Apart e s₀ ⟨env, event⟩)
    (hmove : Actor.Move env s₀ event s t) : c.Leaves e s t := by
  cases hmove with
  | upkeep hup => exact .of_lapses hup.standing hup.link
  | open_route _ _ _ hs _ => exact .of_lapses hs.standing hs.link
  | trust trust hvital _ =>
      exact .of_eq rfl (TrustStore.vouches_of_vital (hvital _)) rfl rfl
  | judge id blocked ok _ he =>
      refine .of_eq rfl (fun hv => vouches_update hv fun hid => ?_) rfl rfl
      exact absurd (hid ▸ he) (ha.blocks blocked)
  | forget id ok _ he =>
      refine .of_eq rfl (fun ⟨d, hget, hd⟩ => ?_) rfl rfl
      have hne : c.peer e ≠ id := by
        rintro rfl
        exact ha.forgets he
      exact ⟨d, by rw [TrustStore.get_remove, if_neg hne, hget], hd⟩
  | permit peer kind policy _ =>
      exact .of_eq rfl (fun hv => vouches_update hv fun _ _ => ⟨rfl, rfl⟩) rfl rfl
  | pair id p hcompletes =>
      have hne : c.peer e ≠ id :=
        fun hid => (ha.installs id _ (.inr ⟨p, hcompletes, rfl⟩)).1 hid.symm
      refine .of_eq rfl (fun ⟨d, hget, hd⟩ => ?_) rfl rfl
      exact ⟨d, (TrustStore.get_upsert _ _ _ _).trans ((if_neg hne).trans hget), hd⟩
  -- A session that goes is another device's.
  | drop id session hs hends =>
      have hne : id ≠ c.peer e := by
        rintro rfl
        exact ha.ends hends
      have hlink : s.link id = some session.link := by
        unfold Actor.link
        rw [hs, Option.map_some]
      have hw : ({ s with
          sessions := s.sessions.erase id
          conn_index := s.conn_index.erase session.conn_id } : Actor).wires =
          s.wires.drop id session.conn_id := Actor.wires_of_drop rfl rfl rfl
      refine ⟨rfl, fun hv => hv, ?_, fun howns => hw ▸ howns.drop_other hne hlink⟩
      rw [Actor.link_of_erase (s := s) rfl, if_neg hne.symm]
  | unindex conn_id hfree =>
      refine ⟨rfl, fun hv => hv, rfl, fun howns => ?_⟩
      apply howns.unindex (s.conn_index.shrinks_erase conn_id)
      intro l hl
      rw [Table.get_erase, if_neg]
      · rfl
      · rintro rfl
        have hindex := (howns.session l hl).1
        -- An index entry is taken out only where no session uses it, and ours is used.
        refine hfree _ hindex ?_
        obtain ⟨session, hs, rfl⟩ := Option.map_eq_some_iff.1 hl
        rw [hs]
        rfl
  | install id est _ _ hi =>
      obtain ⟨hne, hconn⟩ := ha.installs id est hi
      have hw : ({ s with
          conn_index := s.conn_index.insert est.conn_id id
          sessions := s.sessions.insert id (Actor.new_session env est) } : Actor).wires =
          s.wires.install id (Actor.new_session env est).link :=
        Actor.wires_of_install rfl rfl rfl
      refine ⟨rfl, fun hv => hv, ?_, fun howns => hw ▸ howns.install_other hne hconn⟩
      rw [Actor.link_of_insert (s := s) rfl, if_neg hne.symm]
  | _ => exact .of_eq rfl (fun h => h) rfl rfl

theorem Apart.leaves {i : Input} (ha : c.Apart e s i) (hgranted : s.Granted) (hs : s.calls = [])
    (hout : s.out = []) : c.Leaves e s (s.step i) := by
  have hmet : ({ s with calls := [], out := [] } : Actor) = s := by
    rw [← hs, ← hout]
  unfold Actor.step
  rw [hmet]
  exact Actor.Moves.invariant (P := fun t => c.Leaves e s t)
    (fun _ _ hmove h => h.trans (ha.leaves_move hmove))
    (s.handle_moves i.env i.event hgranted.not_requesting hs) (.refl s)

end

/-! ## 6. What a device knows, at every moment -/

/-- What holds at one end, when `closing` are the connections that have been closed. -/
structure Sound (c : Crossing) (e : Dialer) (closing : Dialer → Bool) (x : CrossEnd) : Prop where
  identity : x.actor.identity = c.key e
  vouches : x.actor.trust.vouches (c.peer e) (c.key e.other)
  granted : x.actor.Granted
  owns : c.Owns e x.actor.wires
  /-- the session is a connection that has come up, and the higher id's only while the other has
  not -/
  session : ∀ l, x.actor.link (c.peer e) = some l → ∃ conn, l.conn_id = c.conn_id e conn ∧
    l.dialed = decide (conn = e) ∧ x.greeted conn = true ∧ x.parted conn = false ∧
      (conn = .Higher → x.greeted .Lower = false)
  /-- without a session, what has come up has gone down again -/
  idle : x.actor.link (c.peer e) = none → ∀ conn, x.greeted conn = true → x.parted conn = true
  parted : ∀ conn, x.parted conn = true → x.greeted conn = true ∧ closing conn = true
  both : x.greeted .Lower = true → x.greeted .Higher = true → closing .Higher = true

/-- The connections that a device has closed by now. -/
def closed (c : Crossing) (e : Dialer) (closing : Dialer → Bool) (a : Actor) (conn : Dialer) :
    Bool :=
  closing conn || decide (c.conn_id e conn ∈ a.wires.hung_up)

section
variable {closing closing' : Dialer → Bool} {x : CrossEnd}

/-- The other device closes a connection, too. -/
theorem Sound.mono (h : c.Sound e closing x)
    (hsub : ∀ conn, closing conn = true → closing' conn = true) : c.Sound e closing' x :=
  { h with
    parted := fun conn hp => (h.parted conn hp).imp_right (hsub conn)
    both := fun hl hh => hsub _ (h.both hl hh) }

theorem below_peer (c : Crossing) (e : Dialer) :
    (c.key e).device_id.below (c.peer e) = decide (e = .Lower) := by
  have hordered := c.ordered
  cases e with
  | Lower => exact hordered
  | Higher =>
      unfold DeviceId.below at hordered
      show (c.key .Higher).device_id.below (c.key .Lower).device_id = _
      unfold DeviceId.below
      have hlt := of_decide_eq_true hordered
      simp only [reduceCtorEq, decide_false, decide_eq_false_iff_not]
      omega

/-- The connection that is there stays if the lower id dialed it. -/
theorem keeps_lower {s : Actor} (hs : s.identity = c.key e) {env : Env} {old : Session}
    {est : Established} {a b : Dialer} (hold : old.dialed = decide (a = e))
    (hest : est.dialed = decide (b = e)) (hne : b ≠ a) (hsoon : env.now - old.connected_at < 5000) :
    s.keeps_old env (c.peer e) old est = decide (a = .Lower) := by
  have hlower : s.identity.device_id.below (c.peer e) = decide (e = .Lower) := by
    rw [hs]
    exact c.below_peer e
  unfold Actor.keeps_old
  dsimp only
  rw [hlower, hold, hest, decide_eq_true hsoon, Bool.and_true]
  cases e <;> cases a <;> cases b <;> simp_all

/-- What an end's actor meets at the start of an event. -/
theorem Sound.met (h : c.Sound e closing x) :
    c.Sound e closing { x with actor := { x.actor with calls := [], out := [] } } :=
  ⟨h.identity, h.vouches, h.granted, ⟨h.owns.session, h.owns.link, h.owns.index⟩, h.session, h.idle,
    h.parted, h.both⟩

section
variable {t : Actor} {l old : Link} {conn : Dialer}

/-- Nothing is closed. -/
theorem closed_of_same (hw : t.wires.hung_up = []) : c.closed e closing t = closing := by
  funext k
  unfold closed
  rw [hw]
  simp

/-- The connection that the higher id dialed is closed. -/
theorem closed_higher (closing : Dialer → Bool) (hw : t.wires.hung_up = [c.conn_id e .Higher]) :
    c.closed e closing t .Higher = true ∧ c.closed e closing t .Lower = closing .Lower ∧
      ∀ k, closing k = true → c.closed e closing t k = true := by
  have hne := c.distinct e
  unfold closed
  rw [hw]
  refine ⟨by simp, by simp [hne], fun k hk => ?_⟩
  rw [hk, Bool.true_or]

omit [Crypto] in
theorem true_of_update {f : Dialer → Bool} {k : Dialer} (hk : f k = true) :
    Function.update f conn true k = true := by
  rw [Function.update_apply]
  split
  · rfl
  · exact hk

/-- What has not come up has not gone down. -/
theorem Sound.not_parted (h : c.Sound e closing x) (hnew : x.greeted conn = false) :
    x.parted conn = false := by
  by_contra hp
  rw [Bool.not_eq_false] at hp
  exact Bool.false_ne_true (hnew.symm.trans (h.parted conn hp).1)

/-- The first of the two to come up, or the only one there is. -/
theorem Sound.first (h : c.Sound e closing x) (hlower : closing .Lower = false)
    (hfresh : x.actor.wires.hung_up = []) (hnew : x.greeted conn = false)
    (hstays : x.actor.Stays t) (hgranted : t.Granted) (hconn : l.conn_id = c.conn_id e conn)
    (hdialed : l.dialed = decide (conn = e)) (hnone : x.actor.link (c.peer e) = none)
    (hw : t.wires = x.actor.wires.install (c.peer e) l) :
    c.Sound e (c.closed e closing t)
        { x with actor := t, greeted := Function.update x.greeted conn true } ∧
      c.closed e closing t .Lower = false := by
  have hclosed : c.closed e closing t = closing := by
    apply closed_of_same
    rw [hw]
    exact hfresh
  -- what has gone down was closed, and nobody closes the lower id's
  have hfirst : x.greeted .Lower = false := by
    by_contra hg
    rw [Bool.not_eq_false] at hg
    exact Bool.false_ne_true (hlower.symm.trans (h.parted _ (h.idle hnone _ hg)).2)
  have hlink : t.link (c.peer e) = some l := by
    have := congrArg (fun w => w.link (c.peer e)) hw
    exact this.trans ((Wires.install_link _ _ _).trans (if_pos rfl))
  rw [hclosed]
  refine ⟨?_, hlower⟩
  constructor
  case identity => exact hstays.identity.trans h.identity
  case vouches => exact hstays.vouches h.vouches
  case granted => exact hgranted
  case owns => exact hw ▸ h.owns.install conn hconn
  case session =>
    intro l' hl'
    obtain rfl := Option.some_inj.1 (hlink.symm.trans hl')
    refine ⟨conn, hconn, hdialed, Function.update_self _ _ _, h.not_parted hnew, ?_⟩
    rintro rfl
    exact hfirst
  case idle => exact fun hnone' => absurd (hlink.symm.trans hnone') (Option.some_ne_none l)
  case parted => exact fun k hk => (h.parted k hk).imp_left true_of_update
  case both =>
    intro hlow hhigh
    cases conn with
    | Lower =>
        have hhigh : x.greeted .Higher = true := hhigh
        exact (h.parted _ (h.idle hnone _ hhigh)).2
    | Higher =>
        have hlow : x.greeted .Lower = true := hlow
        exact absurd (hfirst.symm.trans hlow) Bool.false_ne_true

/-- The higher id's comes up when the lower id's is the session. -/
theorem Sound.turned_down (h : c.Sound e closing x) (hlower : closing .Lower = false)
    (hfresh : x.actor.wires.hung_up = []) (hstays : x.actor.Stays t) (hgranted : t.Granted)
    (hold : x.actor.link (c.peer e) = some old)
    (hw : t.wires = x.actor.wires.hang_up (c.conn_id e .Higher)) :
    c.Sound e (c.closed e closing t)
        { x with actor := t, greeted := Function.update x.greeted .Higher true } ∧
      c.closed e closing t .Lower = false := by
  have hhung : t.wires.hung_up = [c.conn_id e .Higher] := by
    rw [hw]
    show x.actor.wires.hung_up ++ _ = _
    rw [hfresh, List.nil_append]
  obtain ⟨hhigher, hsame, hmore⟩ := closed_higher closing hhung
  have hlink : t.link (c.peer e) = x.actor.link (c.peer e) :=
    congrArg (fun w => w.link (c.peer e)) hw
  refine ⟨?_, hsame.trans hlower⟩
  constructor
  case identity => exact hstays.identity.trans h.identity
  case vouches => exact hstays.vouches h.vouches
  case granted => exact hgranted
  case owns => exact hw ▸ h.owns.hang_up _
  case session =>
    intro l hl
    obtain ⟨k, hconn, hdialed, hup, hstill, halone⟩ := h.session l (hlink ▸ hl)
    refine ⟨k, hconn, hdialed, true_of_update hup, hstill, halone⟩
  case idle => exact fun hnone => absurd (hold.symm.trans (hlink ▸ hnone)) (Option.some_ne_none old)
  case parted => exact fun k hk => (h.parted k hk).imp true_of_update (hmore k)
  case both => exact fun _ _ => hhigher

/-- The lower id's comes up when the higher id's is the session. -/
theorem Sound.supersedes (h : c.Sound e closing x) (hlower : closing .Lower = false)
    (hfresh : x.actor.wires.hung_up = []) (hnew : x.greeted .Lower = false)
    (hstays : x.actor.Stays t) (hgranted : t.Granted) (hconn : l.conn_id = c.conn_id e .Lower)
    (hdialed : l.dialed = decide (.Lower = e))
    (hw : t.wires = ((x.actor.wires.drop (c.peer e) (c.conn_id e .Higher)).hang_up
      (c.conn_id e .Higher)).install (c.peer e) l) :
    c.Sound e (c.closed e closing t)
        { x with actor := t, greeted := Function.update x.greeted .Lower true } ∧
      c.closed e closing t .Lower = false := by
  have hhung : t.wires.hung_up = [c.conn_id e .Higher] := by
    rw [hw]
    show x.actor.wires.hung_up ++ _ = _
    rw [hfresh, List.nil_append]
  obtain ⟨hhigher, hsame, hmore⟩ := closed_higher closing hhung
  have hlink : t.link (c.peer e) = some l := by
    have := congrArg (fun w => w.link (c.peer e)) hw
    exact this.trans ((Wires.install_link _ _ _).trans (if_pos rfl))
  refine ⟨?_, hsame.trans hlower⟩
  constructor
  case identity => exact hstays.identity.trans h.identity
  case vouches => exact hstays.vouches h.vouches
  case granted => exact hgranted
  case owns => exact hw ▸ ((h.owns.drop _).hang_up _).install .Lower hconn
  case session =>
    intro l' hl'
    obtain rfl := Option.some_inj.1 (hlink.symm.trans hl')
    refine ⟨.Lower, hconn, hdialed, rfl, h.not_parted hnew, fun hk => ?_⟩
    cases hk
  case idle => exact fun hnone' => absurd (hlink.symm.trans hnone') (Option.some_ne_none l)
  case parted => exact fun k hk => (h.parted k hk).imp true_of_update (hmore k)
  case both => exact fun _ _ => hhigher

/-- A connection comes up. -/
theorem Sound.established (h : c.Sound e closing x) (hlower : closing .Lower = false)
    (hcalls : x.actor.calls = []) (hout : x.actor.out = []) {env : Env} {est : Established}
    (hnew : x.greeted conn = false) (hconn : est.conn_id = c.conn_id e conn)
    (hdialed : est.dialed = decide (conn = e)) (hkey : est.conn.peer_public_key = c.key e.other)
    (hsoon : ∀ l, x.actor.link (c.peer e) = some l → env.now - l.connected_at < 5000)
    (hstep : t = x.actor.step ⟨env, .Established est⟩) :
    c.Sound e (c.closed e closing t)
        { x with actor := t, greeted := Function.update x.greeted conn true } ∧
      c.closed e closing t .Lower = false := by
  have hgranted : t.Granted := hstep ▸ h.granted.step _
  have hmet : ({ x.actor with calls := [], out := [] } : Actor) = x.actor := by
    rw [← hcalls, ← hout]
  replace hstep : t = x.actor.on_established env est := by
    unfold Actor.step at hstep
    rw [hmet] at hstep
    exact hstep
  have hfresh : x.actor.wires.hung_up = [] := by
    unfold Actor.wires
    rw [hout]
    rfl
  have hid : est.conn.peer_public_key.device_id = c.peer e := congrArg PublicKey.device_id hkey
  have hv : x.actor.trust.vouches (c.peer e) est.conn.peer_public_key := hkey ▸ h.vouches
  -- The first of the two is simply installed. The second meets the first, and the tie-break
  -- decides for the lower id's on both sides.
  cases hcase : x.actor.link (c.peer e) with
  | none =>
      obtain ⟨hstays, hw⟩ := Actor.on_established_first env hid hv hcase
      rw [← hstep] at hstays hw
      exact h.first hlower hfresh hnew hstays hgranted hconn hdialed hcase hw
  | some l =>
      obtain ⟨a, haconn, hadialed, hup, _, halone⟩ := h.session l hcase
      obtain ⟨session, hs, rfl⟩ := Option.map_eq_some_iff.1 hcase
      have hne : conn ≠ a := by
        rintro rfl
        exact Bool.false_ne_true (hnew.symm.trans hup)
      have hkeeps := keeps_lower h.identity hadialed hdialed hne (hsoon _ hcase)
      cases a with
      | Lower =>
          obtain rfl : conn = .Higher := by
            cases conn with
            | Lower => exact absurd rfl hne
            | Higher => rfl
          obtain ⟨hstays, hw⟩ := Actor.on_established_turned_down env hid hv hs hkeeps
          rw [← hstep, hconn] at hw
          rw [← hstep] at hstays
          exact h.turned_down hlower hfresh hstays hgranted hcase hw
      | Higher =>
          obtain rfl : conn = .Lower := by
            cases conn with
            | Lower => rfl
            | Higher => exact absurd rfl hne
          obtain ⟨hstays, hw⟩ := Actor.on_established_supersedes env hid hv hs hkeeps
          have hold : session.conn_id = c.conn_id e .Higher := haconn
          rw [← hstep, hold] at hw
          rw [← hstep] at hstays
          exact h.supersedes hlower hfresh hnew hstays hgranted hconn hdialed hw

/-- The higher id's connection goes down when it is no session. -/
theorem Sound.parts_unused (h : c.Sound e closing x) (hlower : closing .Lower = false)
    (hfresh : x.actor.wires.hung_up = []) {env : Env} {reason : StopReason}
    (hgranted : t.Granted) (hup : x.greeted .Higher = true) (hclosing : closing .Higher = true)
    (hother : ∀ l, x.actor.link (c.peer e) = some l → l.conn_id ≠ c.conn_id e .Higher)
    (hstep : t = x.actor.on_closed env (c.conn_id e .Higher) reason) :
    c.Sound e (c.closed e closing t)
        { x with actor := t, parted := Function.update x.parted .Higher true } ∧
      c.closed e closing t .Lower = false := by
  obtain ⟨hstays, index, hshrinks, hsame, hw⟩ := x.actor.on_closed_other env
    (c.conn_id e .Higher) reason fun id hid hconn => by
      obtain rfl := h.owns.index id .Higher hid
      obtain ⟨l, hl, hc⟩ := Option.map_eq_some_iff.1 hconn
      exact hother l hl hc
  rw [← hstep] at hstays hw
  have hclosed : c.closed e closing t = closing := by
    apply closed_of_same
    rw [hw]
    exact hfresh
  have hlink : t.link = x.actor.link := congrArg Wires.link hw
  rw [hclosed]
  refine ⟨?_, hlower⟩
  -- Only the index may lose an entry; the session there is stays the one it was.
  constructor
  case identity => exact hstays.identity.trans h.identity
  case vouches => exact hstays.vouches h.vouches
  case granted => exact hgranted
  case owns => exact hw ▸ h.owns.unindex hshrinks fun l hl => hsame _ (hother l hl)
  case session =>
    intro l hl
    have hl : x.actor.link (c.peer e) = some l := hlink ▸ hl
    obtain ⟨k, hconn, hdialed, hk, hstill, halone⟩ := h.session l hl
    refine ⟨k, hconn, hdialed, hk, ?_, halone⟩
    cases k with
    | Lower => exact hstill
    | Higher => exact absurd hconn (hother l hl)
  case idle => exact fun hnone k hk => true_of_update (h.idle (hlink ▸ hnone) k hk)
  case parted =>
    intro k hk
    cases k with
    | Lower => exact h.parted .Lower hk
    | Higher => exact ⟨hup, hclosing⟩
  case both => exact h.both

/-- The higher id's connection goes down when it is the session. -/
theorem Sound.parts_used (h : c.Sound e closing x) (hlower : closing .Lower = false)
    (hfresh : x.actor.wires.hung_up = []) {env : Env} {reason : StopReason}
    (hr : reason.ends_routes = false) (hgranted : t.Granted) (hup : x.greeted .Higher = true)
    (hclosing : closing .Higher = true) (hl : x.actor.link (c.peer e) = some l)
    (hconn : l.conn_id = c.conn_id e .Higher) (halone : x.greeted .Lower = false)
    (hstep : t = x.actor.on_closed env (c.conn_id e .Higher) reason) :
    c.Sound e (c.closed e closing t)
        { x with actor := t, parted := Function.update x.parted .Higher true } ∧
      c.closed e closing t .Lower = false := by
  have hindex := (h.owns.session l hl).1
  rw [hconn] at hindex
  obtain ⟨hstays, hw⟩ := Actor.on_closed_session env hindex hl hconn hr
  rw [← hstep] at hstays hw
  have hclosed : c.closed e closing t = closing := by
    apply closed_of_same
    rw [hw]
    exact hfresh
  have hlink : t.link (c.peer e) = none := by
    have := congrArg (fun w => w.link (c.peer e)) hw
    exact this.trans ((Wires.drop_link _ _ _).trans (if_pos rfl))
  rw [hclosed]
  refine ⟨?_, hlower⟩
  constructor
  case identity => exact hstays.identity.trans h.identity
  case vouches => exact hstays.vouches h.vouches
  case granted => exact hgranted
  case owns => exact hw ▸ h.owns.drop _
  case session => exact fun l' hl' => absurd (hl'.symm.trans hlink) (Option.some_ne_none l')
  case idle =>
    intro _ k hk
    cases k with
    | Lower => exact absurd (halone.symm.trans hk) Bool.false_ne_true
    | Higher => rfl
  case parted =>
    intro k hk
    cases k with
    | Lower => exact h.parted .Lower hk
    | Higher => exact ⟨hup, hclosing⟩
  case both => exact h.both

/-- A connection goes down: it is the higher id's. -/
theorem Sound.parts (h : c.Sound e closing x) (hlower : closing .Lower = false)
    (hcalls : x.actor.calls = []) (hout : x.actor.out = []) {env : Env} {reason : StopReason}
    (hup : x.greeted conn = true) (hclosing : closing conn = true) (hr : reason.ends_routes = false)
    (hstep : t = x.actor.step ⟨env, .Closed (c.conn_id e conn) reason⟩) :
    c.Sound e (c.closed e closing t)
        { x with actor := t, parted := Function.update x.parted conn true } ∧
      c.closed e closing t .Lower = false := by
  have hgranted : t.Granted := hstep ▸ h.granted.step _
  have hmet : ({ x.actor with calls := [], out := [] } : Actor) = x.actor := by
    rw [← hcalls, ← hout]
  replace hstep : t = x.actor.on_closed env (c.conn_id e conn) reason := by
    unfold Actor.step at hstep
    rw [hmet] at hstep
    exact hstep
  have hfresh : x.actor.wires.hung_up = [] := by
    unfold Actor.wires
    rw [hout]
    rfl
  obtain rfl : conn = .Higher := by
    cases conn with
    | Lower => exact absurd (hlower.symm.trans hclosing) Bool.false_ne_true
    | Higher => rfl
  by_cases hused : ∃ l, x.actor.link (c.peer e) = some l ∧ l.conn_id = c.conn_id e .Higher
  · obtain ⟨l, hl, hconn⟩ := hused
    obtain ⟨k, hk, _, _, _, halone⟩ := h.session l hl
    have hhigher : k = .Higher := by
      cases k with
      | Lower => exact absurd (hk.symm.trans hconn) (c.distinct e)
      | Higher => rfl
    exact h.parts_used hlower hfresh hr hgranted hup hclosing hl hconn (halone hhigher) hstep
  · exact h.parts_unused hlower hfresh hgranted hup hclosing
      (fun l hl hconn => hused ⟨l, hl, hconn⟩) hstep

/-- Other work. -/
theorem Sound.works (h : c.Sound e closing x) (hlower : closing .Lower = false)
    (hcalls : x.actor.calls = []) (hout : x.actor.out = []) {i : Input}
    (ha : c.Apart e x.actor i) (hstep : t = x.actor.step i) :
    c.Sound e (c.closed e closing t) { x with actor := t } ∧
      c.closed e closing t .Lower = false := by
  have hgranted : t.Granted := hstep ▸ h.granted.step _
  have hleaves := ha.leaves h.granted hcalls hout
  rw [← hstep] at hleaves
  have hclosed : c.closed e closing t = closing := by
    funext k
    unfold closed
    rw [hstep, decide_eq_false (ha.closes k), Bool.or_false]
  rw [hclosed]
  refine ⟨⟨hleaves.identity.trans h.identity, hleaves.vouches h.vouches, hgranted,
    hleaves.owns h.owns, fun l hl => h.session l (hleaves.link ▸ hl),
    fun hnone => h.idle (hleaves.link ▸ hnone), h.parted, h.both⟩, hlower⟩

end

end

/-! ## 7. Every order -/

/-- What holds of both devices. -/
structure Agrees (c : Crossing) (s : CrossState) : Prop where
  ends : ∀ e, c.Sound e s.closing (s.ends e)
  kept : s.closing .Lower = false

theorem Agrees.step {c : Crossing} {s : CrossState} {x : Dialer × CrossAct} (h : c.Agrees s)
    (henabled : c.enabled s x) : c.Agrees (c.step s x) := by
  obtain ⟨e, act⟩ := x
  have hmet := (h.ends e).met
  -- the end that acts
  suffices hown : c.Sound e (c.closed e s.closing ((s.ends e).actor.step (c.input e act)))
      ((c.step s ⟨e, act⟩).ends e) ∧
      c.closed e s.closing ((s.ends e).actor.step (c.input e act)) .Lower = false by
    refine ⟨fun k => ?_, hown.2⟩
    by_cases hk : k = e
    · rw [hk]
      exact hown.1
    · have hother : (c.step s ⟨e, act⟩).ends k = s.ends k := Function.update_of_ne hk _ _
      rw [hother]
      refine (h.ends k).mono fun conn hconn => ?_
      show (s.closing conn || _) = true
      rw [hconn, Bool.true_or]
  have hends : (c.step s ⟨e, act⟩).ends e = _ := Function.update_self _ _ _
  rw [hends]
  cases act with
  | Established conn env est =>
      obtain ⟨hnew, hconn, hdialed, hkey, hsoon⟩ := henabled
      exact hmet.established h.kept rfl rfl hnew hconn hdialed hkey hsoon rfl
  | Closed conn env reason =>
      obtain ⟨hup, _, hclosing, hr⟩ := henabled
      exact hmet.parts h.kept rfl rfl hup hclosing hr rfl
  | Work i => exact hmet.works h.kept rfl rfl henabled rfl

theorem agrees {c : Crossing} {s : CrossState} (hs : c.machine.Reachable s) : c.Agrees s := by
  refine hs.invariant ?_ fun _ _ h henabled => h.step henabled
  rintro s ⟨hends, hclosing⟩
  refine ⟨fun e => ?_, by rw [hclosing]⟩
  obtain ⟨ha, hgreeted, hparted⟩ := hends e
  have hnone (l : Link) (hl : (s.ends e).actor.link (c.peer e) = some l) : False :=
    Option.some_ne_none l (hl.symm.trans ha.session)
  have hquiet (conn : Dialer) : (s.ends e).greeted conn = false := by rw [hgreeted]
  have hstill (conn : Dialer) : (s.ends e).parted conn = false := by rw [hparted]
  refine ⟨ha.identity, ha.vouches, ha.granted, ⟨fun l hl => (hnone l hl).elim,
    fun id l conn hl hc => absurd hc (ha.unused id l conn hl), fun id conn hi => ?_⟩,
    fun l hl => (hnone l hl).elim, fun _ conn hg => ?_, fun conn hp => ?_, fun hg _ => ?_⟩
  · exact absurd (hi.symm.trans (ha.unindexed conn)) (Option.some_ne_none id)
  · exact absurd ((hquiet conn).symm.trans hg) Bool.false_ne_true
  · exact absurd ((hstill conn).symm.trans hp) Bool.false_ne_true
  · exact absurd ((hquiet _).symm.trans hg) Bool.false_ne_true

end Crossing

/-- Each device has heard of both connections, and of the end of each that has been closed. -/
def CrossState.quiet (s : CrossState) : Prop :=
  ∀ e conn, (s.ends e).greeted conn = true ∧
    (s.closing conn = true → (s.ends e).parted conn = true)

/-- **Simultaneous dials.** In whatever order two devices learn of the connections that they have
dialed to each other, and of their ends, neither ever closes the one that the device with the lower
id dialed; and once nothing is on its way, that one is the session at both, and the other is
closed. -/
theorem simultaneous_dials_agree (c : Crossing) (s : CrossState) (hs : c.machine.Reachable s) :
    s.closing .Lower = false ∧
      (s.quiet → s.closing .Higher = true ∧
        ∀ e, ∃ l, (s.ends e).actor.link (c.peer e) = some l ∧
          l.conn_id = c.conn_id e .Lower ∧ l.dialed = decide (e = .Lower)) := by
  have h := Crossing.agrees hs
  refine ⟨h.kept, fun hquiet => ⟨?_, fun e => ?_⟩⟩
  · exact (h.ends .Lower).both (hquiet .Lower .Lower).1 (hquiet .Lower .Higher).1
  · cases hcase : (s.ends e).actor.link (c.peer e) with
    | none =>
        have hparted := (h.ends e).idle hcase .Lower (hquiet e .Lower).1
        exact absurd (h.kept.symm.trans ((h.ends e).parted _ hparted).2) Bool.false_ne_true
    | some l =>
        obtain ⟨conn, hconn, hdialed, _, _, halone⟩ := (h.ends e).session l hcase
        cases conn with
        | Lower => exact ⟨l, rfl, hconn, hdialed.trans (decide_eq_decide.2 eq_comm)⟩
        | Higher =>
            exact absurd ((halone rfl).symm.trans (hquiet e .Lower).1) Bool.false_ne_true

end

namespace Sample

/-- Two devices that know each other. -/
def two_devices : Crossing where
  key
    | .Lower => own_key
    | .Higher => peer_key
  ordered := by decide
  conn_id _
    | .Lower => 1
    | .Higher => 2
  distinct _ := by decide

def friend (e : Dialer) : TrustStore :=
  let devices := (∅ : Table DeviceId TrustedDevice).insert (two_devices.peer e)
    (device (two_devices.peer e) (two_devices.key e.other) .default)
  { devices, dirty := false, file := devices }

def cross_start : CrossState where
  ends e :=
    { actor := .start (two_devices.key e) (friend e) .default
      greeted := fun _ => false, parted := fun _ => false }
  closing _ := false

/-- The connection that `dialer` dialed comes up at `e`. -/
def comes_up (e dialer : Dialer) : Dialer × CrossAct :=
  (e, .Established dialer env
    { conn_id := two_devices.conn_id e dialer, conn := conn (two_devices.key e.other)
      hello := hello (two_devices.peer e), dialed := decide (dialer = e) })

/-- Each device learns first of the connection that it dialed itself. -/
def crosses : List (Dialer × CrossAct) :=
  [comes_up .Lower .Lower, comes_up .Higher .Higher, comes_up .Lower .Higher,
    (.Higher, .Closed .Higher env .Superseded), comes_up .Higher .Lower,
    (.Lower, .Closed .Higher env .Superseded)]

theorem cross_start_init : two_devices.machine.init cross_start := by
  refine ⟨fun e => ⟨⟨rfl, ?_, rfl, ?_, ?_, fun _ => rfl⟩, rfl, rfl⟩, rfl⟩
  · exact ⟨_, Table.get_insert_self _ _ _, rfl, rfl⟩
  · exact fun r hr => absurd hr List.not_mem_nil
  · rintro id l conn ⟨⟩

theorem comes_up_enabled {s : CrossState} {e dialer : Dialer}
    (hnew : (s.ends e).greeted dialer = false)
    (hsoon : ((s.ends e).actor.link (two_devices.peer e)).all
      (fun l => env.now - l.connected_at < 5000) = true) :
    two_devices.enabled s (comes_up e dialer) := by
  refine ⟨hnew, rfl, rfl, rfl, fun l hl => ?_⟩
  have hall : (some l).all (fun l => env.now - l.connected_at < 5000) = true := hl ▸ hsoon
  exact of_decide_eq_true hall

theorem crosses_admitted : two_devices.machine.Admits cross_start crosses := by
  refine ⟨comes_up_enabled rfl ?_, comes_up_enabled rfl ?_, comes_up_enabled rfl ?_,
    ⟨?_, ?_, ?_, rfl⟩, comes_up_enabled ?_ ?_, ⟨?_, ?_, ?_, rfl⟩, trivial⟩
  all_goals decide +kernel

end Sample

open Sample in
theorem simultaneous_dials_agree_sample :
    let s := two_devices.machine.exec cross_start crosses
    s.closing .Higher = true ∧
      ∀ e, ∃ l, (s.ends e).actor.link (two_devices.peer e) = some l ∧
        l.conn_id = two_devices.conn_id e .Lower ∧ l.dialed = decide (e = .Lower) := by
  have hrun := Machine.run_of_admits cross_start_init crosses_admitted
  refine (simultaneous_dials_agree two_devices _ ⟨_, hrun⟩).2 fun e conn => ?_
  cases e <;> cases conn <;> decide +kernel

end SoundPush
