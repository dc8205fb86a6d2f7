/-
`Moves` -- what one event can do to who is connected, trusted and heard.

Every handler is a sequence of moves: upkeep, and the few steps that give a device
something or take it away. A move carries what the source checked before it, in
terms of the event and of the state the event met, so that an invariant of the
engine has to be proved of each kind of move and of nothing else.

How to read it. § 1 says for each kind of change which events may bring it about and what has to
hold of the state they meet; these predicates are the vocabulary of every invariant of the engine.
§ 2 is the relation, § 3 to § 6 take the handlers apart in the order of the model, and the last
theorem joins them. `s₀` is the state that the event met and `s` the state a handler finds.

Where the work is. Most of what a handler does is upkeep and is passed over in one step by the
lemmas of `Upkeep`. What needs an argument is that a guard checked early is still true when the
step it guards is taken: that a device's trust was not touched between the look at it and the
session, that a session was dropped before its device is forgotten, that a pairing which is
completed is the one that the event found.
-/
import SoundPush.Engine.Upkeep
import Mathlib.Logic.Relation

set_option autoImplicit false

namespace SoundPush

/-- What a trusted device is judged by; the rest are names and hints. -/
def TrustedDevice.vital (d : TrustedDevice) : DeviceId × PublicKey × Bool × Permissions :=
  (d.device_id, d.public_key, d.blocked, d.permissions)

/-- Two devices are judged alike exactly if these four fields agree. -/
theorem TrustedDevice.vital_eq {d d' : TrustedDevice} :
    d'.vital = d.vital ↔ d'.device_id = d.device_id ∧ d'.public_key = d.public_key ∧
      d'.blocked = d.blocked ∧ d'.permissions = d.permissions := by
  simp [vital]

/-- The device is trusted under this key, and not blocked. -/
def TrustStore.vouches (t : TrustStore) (id : DeviceId) (key : PublicKey) : Prop :=
  ∃ d, t.get id = some d ∧ d.blocked = false ∧ d.public_key = key

/-- A store in which the device is judged alike vouches for the same key. -/
theorem TrustStore.vouches_of_vital {t t' : TrustStore} {id : DeviceId} {key : PublicKey}
    (h : (t'.get id).map TrustedDevice.vital = (t.get id).map TrustedDevice.vital)
    (hv : t.vouches id key) : t'.vouches id key := by
  obtain ⟨d, hget, hblocked, hkey⟩ := hv
  rw [hget, Option.map_some] at h
  obtain ⟨d', hget', hvital⟩ := Option.map_eq_some_iff.1 h
  obtain ⟨_, hkey', hblocked', _⟩ := TrustedDevice.vital_eq.1 hvital
  exact ⟨d', hget', hblocked'.trans hblocked, hkey'.trans hkey⟩

/-- The device is in the store, and is connected to by itself. -/
def TrustStore.wishes (t : TrustStore) (id : DeviceId) : Prop :=
  ∃ d, t.get id = some d ∧ d.auto_connect = true

/-- A change of one device which switches no automatic connection on makes no device wished for
that was not. -/
theorem TrustStore.wishes_of_map {t t' : TrustStore} {id k : DeviceId}
    {f : TrustedDevice → TrustedDevice}
    (hget : t'.get k = if k = id then (t.get k).map f else t.get k)
    (hf : k = id → ∀ d, (f d).auto_connect = true → d.auto_connect = true) (h : t'.wishes k) :
    t.wishes k := by
  obtain ⟨d', hd', hauto⟩ := h
  rw [hget] at hd'
  split at hd'
  · next hk =>
      obtain ⟨d, hd, rfl⟩ := Option.map_eq_some_iff.1 hd'
      exact ⟨d, hd, hf hk d hauto⟩
  · exact ⟨d', hd', hauto⟩

/-- In particular a change of hints. -/
theorem TrustStore.wishes_of_update_hints {t : TrustStore} {id k : DeviceId}
    {f : TrustedDevice → TrustedDevice} (h : (t.update_hints id f).wishes k)
    (hf : ∀ d, (f d).auto_connect = true → d.auto_connect = true) : t.wishes k :=
  wishes_of_map (t.get_update_hints id f k) (fun _ => hf) h

/-- The connection it works on. -/
def Call.conn_id : Call → Nat
  | .Dial conn_id .. | .RunSession conn_id .. => conn_id

namespace Actor

/-- A device has no link exactly if it has no session. -/
theorem link_eq_none {s : Actor} {id : DeviceId} : s.link id = none ↔ s.sessions.get id = none :=
  Option.map_eq_none_iff

/-- Hints are nothing a device is judged by. -/
theorem vital_update_hints (t : TrustStore) (id : DeviceId) (f : TrustedDevice → TrustedDevice)
    (hf : ∀ d, (f d).device_id = d.device_id) (k : DeviceId) :
    ((t.update_hints id f).get k).map TrustedDevice.vital = (t.get k).map TrustedDevice.vital := by
  rw [TrustStore.get_update_hints]
  split
  · rw [Option.map_map]
    congr 1
    funext d
    simp [TrustedDevice.vital, hf]
  · rfl

/-- Nor is anything else that a change leaves alone. -/
theorem vital_update (t : TrustStore) (id : DeviceId) (f : TrustedDevice → TrustedDevice)
    (ok : Bool)
    (hf : ∀ d, (f d).vital = d.vital) (k : DeviceId) :
    ((t.update id f ok).get k).map TrustedDevice.vital = (t.get k).map TrustedDevice.vital := by
  rw [TrustStore.get_update]
  split
  · rw [Option.map_map]
    congr 1
    funext d
    exact hf d
  · rfl

/-- After a session was dropped its device has no link, whether or not there was one. -/
theorem drop_session_link (s : Actor) (id : DeviceId) (reason : StopReason) :
    (s.drop_session id reason).link id = none := by
  rw [link_eq_none]
  unfold drop_session
  split
  · exact Table.get_erase_self _ _
  · assumption

theorem drop_session_trust (s : Actor) (id : DeviceId) (reason : StopReason) :
    (s.drop_session id reason).trust = s.trust := by
  unfold drop_session
  split <;> rfl

/-- The pairing on a connection is one in the table. -/
theorem pairing_on_eq_some {s : Actor} {conn_id : Nat} {id : DeviceId}
    (h : s.pairing_on conn_id = some id) :
    ∃ p, s.pairings.get id = some p ∧ p.conn_id = conn_id := by
  obtain ⟨⟨k, p⟩, he, rfl⟩ := Option.map_eq_some_iff.1 h
  have hconn := List.find?_some he
  exact ⟨p, Table.get_eq_some_iff.2 (List.mem_of_find?_eq_some he), of_decide_eq_true hconn⟩

/-- A connection that closes in the middle of its pairing takes only the pairing away. -/
theorem close_pairing_upkeep (env : Env) (s : Actor) (conn_id : Nat) (reason : StopReason) :
    s.Upkeep (s.close_pairing env conn_id reason) := by
  unfold close_pairing
  split
  · next id _ =>
      have hlapse : s.Upkeep { s with pairings := s.pairings.erase id } :=
        ⟨{ Lapses.refl s.toStanding with pairings := s.pairings.shrinks_erase id }, rfl, .refl _⟩
      refine hlapse.trans ?_
      dsimp only
      split
      · exact .of_tables (error_notice_tables env _ _)
      · exact .of_tables (error_notice_tables env _ _)
      · exact .refl _
  · exact .refl s

theorem reject_pairing_upkeep (s : Actor) (id : DeviceId) : s.Upkeep (s.reject_pairing id) := by
  unfold reject_pairing
  split
  · exact .refl s
  · exact ⟨{ Lapses.refl s.toStanding with pairings := s.pairings.shrinks_erase id }, rfl, .refl _⟩

theorem erase_pairing_upkeep (s : Actor) (id : DeviceId) :
    s.Upkeep (s.set_pairings (s.pairings.erase id)) :=
  ⟨{ Lapses.refl s.toStanding with pairings := s.pairings.shrinks_erase id }, rfl, .refl _⟩

/-- A pairing begins if there is a code for both users to compare, and otherwise not. -/
theorem begin_pairing_tables (env : Env) (s : Actor) (id : DeviceId) (est : Established)
    (qr_scanner : Bool) :
    (s.begin_pairing env id est qr_scanner).toTables =
      { s.toTables with
        pairings :=
          if est.conn.exporter then s.pairings.insert id (new_pairing env est qr_scanner)
          else s.pairings } := by
  unfold begin_pairing
  cases est.conn.exporter with
  | false =>
      simp only [Bool.not_false, if_true, error_notice_tables]
      rfl
  | true =>
      rw [if_neg (by decide)]
      dsimp only
      split <;> rfl

variable [Crypto]

/-! ## 1. What an event may bring about

Each predicate reads the event and the state it met, never a state in between. That is what makes a
move mean something: the guard cannot have been made true by the handling itself. -/

/-- The pairing record an event completes. -/
def completes (env : Env) (s : Actor) (event : Event) (id : DeviceId) (p : PendingPairing) : Prop :=
  match event with
  | .Command (.ConfirmPairing device_id accept) =>
      device_id = id ∧ accept = true ∧ ∃ q, s.pairings.get id = some q ∧ q.peer_confirmed = true ∧
        p = { q with local_confirmed := true }
  | .Control conn_id (.PairResult accepted) =>
      accepted = true ∧ s.unpaired.get conn_id = none ∧ s.pairing_on conn_id = some id ∧
        ∃ q, s.pairings.get id = some q ∧ (q.qr_scanner = true ∨ q.local_confirmed = true) ∧
          p = { q with peer_confirmed := true }
  | .Control conn_id (.PairRequest req) =>
      ∃ est since proof qr, s.unpaired.get conn_id = some (est, since) ∧
        id = est.conn.peer_public_key.device_id ∧
        req.qr_proof = some proof ∧ s.qr = some qr ∧ qr.is_expired env.now_unix = false ∧
        verify_pairing_proof qr.secret (.of_public_key est.conn.peer_public_key)
          s.identity.device_id proof = true ∧
        ∃ q, (if est.conn.exporter then q = new_pairing env est false
            else s.pairings.get id = some q) ∧
          p = { q with local_confirmed := true, peer_confirmed := true }
  | _ => False

/-- The pairing records an event may begin. -/
def begins (env : Env) (s : Actor) (event : Event) (id : DeviceId) (p : PendingPairing) : Prop :=
  match event with
  | .Established est =>
      id = est.conn.peer_public_key.device_id ∧ est.dialed = true ∧
        ∃ qr_scanner, s.pair_dials.get est.conn_id = some qr_scanner ∧
          p = new_pairing env est qr_scanner
  | .Control conn_id (.PairRequest _) =>
      ∃ est since, s.unpaired.get conn_id = some (est, since) ∧
        id = est.conn.peer_public_key.device_id ∧ p = new_pairing env est false
  | _ => False

/-- The connection an event may make a device's session. -/
def installs (env : Env) (s : Actor) (event : Event) (id : DeviceId) (est : Established) : Prop :=
  (event = .Established est ∧ id = est.conn.peer_public_key.device_id) ∨
    ∃ p, s.completes env event id p ∧ est = p.established

/-- A new connection with a device takes the place of its session. -/
def replaces (env : Env) (s : Actor) (id : DeviceId) (est : Established) : Prop :=
  ∃ old, s.sessions.get id = some old ∧ s.keeps_old env id old est = false

/-- The devices whose session an event ends. -/
def ends (env : Env) (s : Actor) (event : Event) (id : DeviceId) : Prop :=
  match event with
  | .Closed conn_id _ => s.conn_index.get conn_id = some id
  | .Command (.Disconnect device_id) | .Command (.ForgetDevice device_id) => device_id = id
  | .Command (.SetBlocked device_id blocked) => device_id = id ∧ blocked = true
  | .Established est =>
      id = est.conn.peer_public_key.device_id ∧ s.replaces env id est ∧
        s.trust.vouches id est.conn.peer_public_key
  | event => ∃ p, s.completes env event id p ∧ s.replaces env id p.established

/-- The user's word on a permission. -/
def permits (s : Actor) (event : Event) (peer : DeviceId) (kind : PermissionKind)
    (policy : Policy) : Prop :=
  match event with
  | .Command (.SetPermission device_id k p) => device_id = peer ∧ k = kind ∧ p = policy
  | .Command (.RespondRouteRequest request_id accept remember) =>
      remember = true ∧ ∃ p, s.requests.get request_id = some p ∧ p.peer = peer ∧
        permission_for p.kind = kind ∧ policy = if accept then .Allow else .Deny
  | _ => False

/-- A request for a route, on the session of a device. -/
def requests_route (s : Actor) (event : Event) (peer : DeviceId) (req : RouteRequest)
    (kind : RouteKind) : Prop :=
  ∃ conn_id, event = .Control conn_id (.RouteRequest req) ∧ s.unpaired.get conn_id = none ∧
    s.pairing_on conn_id = none ∧ s.conn_index.get conn_id = some peer ∧
    requested_kind req = some kind

/-- A request that the user's standing decision admits. -/
def admits_request (env : Env) (s : Actor) (peer : DeviceId) (kind : RouteKind) : Prop :=
  s.policy_of peer (permission_for kind) = .Allow ∨
    (s.policy_of peer (permission_for kind) = .Ask ∧ s.resumes env peer kind = true)

/-- The routes an event may start for a peer. -/
def consents (env : Env) (s : Actor) (event : Event) (peer : DeviceId) (req : RouteRequest)
    (kind : RouteKind) : Prop :=
  (s.requests_route event peer req kind ∧ s.admits_request env peer kind) ∨
    ∃ request_id remember p,
      event = .Command (.RespondRouteRequest request_id true remember) ∧
        s.requests.get request_id = some p ∧ p.peer = peer ∧ p.request = req ∧ p.kind = kind

/-- The dials to pair that the user asks for. -/
def pairs_by (event : Event) (pinned : Option DeviceId) (qr : Bool) : Prop :=
  match event with
  | .Command (.PairWithQr (some payload) _) => qr = true ∧ pinned = some payload.device_id
  | .Command (.PairWithDevice _ _) | .PairAddressResolved true _ => qr = false
  | _ => False

/-! ## 2. Moves

One constructor for each thing that can happen to trust, sessions, pairings, prompts, routes of
peers and calls to the transport. The states are those of the engine, not an abstraction of them.
-/

/-- One step of the handling of `event`, which met the state `s₀`. -/
inductive Move (env : Env) (s₀ : Actor) (event : Event) : Actor → Actor → Prop
  /-- nothing but upkeep -/
  | upkeep {s s' : Actor} (h : s.Upkeep s') : Move env s₀ event s s'
  /-- names, hints and flushes -/
  | trust {s : Actor} (trust : TrustStore)
      (h : ∀ id, (trust.get id).map TrustedDevice.vital = (s.trust.get id).map TrustedDevice.vital)
      (hw : ∀ id, trust.wishes id →
        s.trust.wishes id ∨ event = .Command (.SetAutoConnect id true)) :
      Move env s₀ event s { s with trust }
  /-- the user blocks a device, which is then without a session, or unblocks it -/
  | judge {s : Actor} (id : DeviceId) (blocked ok : Bool) (h : blocked = true → s.link id = none)
      (he : event = .Command (.SetBlocked id blocked)) :
      Move env s₀ event s { s with trust := s.trust.update id (fun d => { d with blocked }) ok }
  /-- the user forgets a device -/
  | forget {s : Actor} (id : DeviceId) (ok : Bool) (h : s.link id = none)
      (he : event = .Command (.ForgetDevice id)) :
      Move env s₀ event s { s with trust := s.trust.remove id ok }
  /-- a permission is set, by the user or by an answer to be remembered -/
  | permit {s : Actor} (peer : DeviceId) (kind : PermissionKind) (policy : Policy)
      (h : s₀.permits event peer kind policy) :
      Move env s₀ event s (s.set_permission env peer kind policy)
  /-- a pairing is complete: the device is trusted -/
  | pair {s : Actor} (id : DeviceId) (p : PendingPairing) (h : s₀.completes env event id p) :
      Move env s₀ event s
        { s with trust := s.trust.upsert (paired_device env id p) env.trust_saved }
  /-- a session goes -/
  | drop {s : Actor} (id : DeviceId) (session : Session) (hs : s.sessions.get id = some session)
      (h : s₀.ends env event id) :
      Move env s₀ event s
        { s with
          sessions := s.sessions.erase id
          conn_index := s.conn_index.erase session.conn_id }
  /-- an index entry without its session -/
  | unindex {s : Actor} (conn_id : Nat)
      (h : ∀ id, s.conn_index.get conn_id = some id →
        (s.sessions.get id).map Session.conn_id ≠ some conn_id) :
      Move env s₀ event s { s with conn_index := s.conn_index.erase conn_id }
  /-- a connection becomes the session of a trusted device -/
  | install {s : Actor} (id : DeviceId) (est : Established) (hl : s.link id = none)
      (hd : s.trust.vouches id est.conn.peer_public_key)
      (h : s₀.installs env event id est) :
      Move env s₀ event s
        { s with
          conn_index := s.conn_index.insert est.conn_id id
          sessions := s.sessions.insert id (new_session env est) }
  /-- a pairing begins -/
  | begin_pairing {s : Actor} (id : DeviceId) (p : PendingPairing) (h : s₀.begins env event id p) :
      Move env s₀ event s (s.set_pairings (s.pairings.insert id p))
  /-- the user confirms a pairing -/
  | confirm {s : Actor} (id : DeviceId) (p : PendingPairing) (accept : Bool)
      (hp : s₀.pairings.get id = some p) (h : event = .Command (.ConfirmPairing id accept)) :
      Move env s₀ event s
        (s.set_pairings (s.pairings.insert id { p with local_confirmed := accept }))
  /-- the peer confirms it -/
  | peer_confirm {s : Actor} (id : DeviceId) (p : PendingPairing)
      (hp : s₀.pairings.get id = some p) (h : event = .Control p.conn_id (.PairResult true)) :
      Move env s₀ event s
        (s.set_pairings (s.pairings.insert id { p with peer_confirmed := true }))
  /-- an unknown device has dialed in and may ask to pair -/
  | arrive {s : Actor} (est : Established) (h : event = .Established est)
      (hd : est.dialed = false) :
      Move env s₀ event s { s with unpaired := s.unpaired.insert est.conn_id (est, env.now) }
  /-- a QR code is shown -/
  | show_qr {s : Actor} (qr : QrPairingPayload) (caller : Nat)
      (h : event = .Command (.StartPairing caller)) : Move env s₀ event s { s with qr := some qr }
  /-- the user is asked about a request -/
  | ask {s : Actor} (peer : DeviceId) (req : RouteRequest) (kind : RouteKind)
      (h : s₀.requests_route event peer req kind) : Move env s₀ event s (s.ask env peer req kind)
  /-- a route that a peer asked for is consented to -/
  | open_route {s s' : Actor} (peer : DeviceId) (req : RouteRequest) (kind : RouteKind)
      (hs : s.Admits s' peer req.route.toUInt8 kind) (h : s₀.consents env event peer req kind) :
      Move env s₀ event s s'
  /-- a dial to connect: the user asks, or wishes it at every tick -/
  | dial {s : Actor} (id : DeviceId)
      (h : event = .Command (.Connect id) ∨
        (event = .Tick ∧ ∃ d ∈ s.trust.list, d.device_id = id ∧ d.auto_connect = true)) :
      Move env s₀ event s
        { s with
          next_conn_id := s.next_conn_id + 1
          calls := s.calls ++ [.Dial s.next_conn_id (some id) none (some id)] }
  /-- a dial to pair; one for a scanned code goes to the device of that code -/
  | pair_dial {s : Actor} (pinned : Option DeviceId) (pair : PairRequest)
      (target : Option DeviceId) (qr : Bool) (h : pairs_by event pinned qr) :
      Move env s₀ event s
        { s with
          next_conn_id := s.next_conn_id + 1
          calls := s.calls ++ [.Dial s.next_conn_id pinned (some pair) target]
          pair_dials := s.pair_dials.insert s.next_conn_id qr }
  /-- a connection comes in, and its session task starts -/
  | incoming {s : Actor} (conn : SecureConnection) (hello : Hello) (h : event = .Incoming conn) :
      Move env s₀ event s
        { s with
          next_conn_id := s.next_conn_id + 1
          calls := s.calls ++ [.RunSession s.next_conn_id conn false hello none] }
  /-- a dial succeeded, and its session task starts -/
  | dialed {s : Actor} (conn_id : Nat) (conn : SecureConnection) (hello : Hello)
      (pair : Option PairRequest) (h : event = .Dialed conn_id conn pair) (hc : s.calls = []) :
      Move env s₀ event s
        { s with calls := s.calls ++ [.RunSession conn_id conn true hello pair] }

/-- The handling of an event, from one state to another. -/
def Moves (env : Env) (s₀ : Actor) (event : Event) : Actor → Actor → Prop :=
  Relation.ReflTransGen (Move env s₀ event)

namespace Moves

variable {env : Env} {s₀ a b c : Actor} {event : Event}

theorem refl : Moves env s₀ event a a := Relation.ReflTransGen.refl

theorem trans (h : Moves env s₀ event a b) (h' : Moves env s₀ event b c) :
    Moves env s₀ event a c := Relation.ReflTransGen.trans h h'

theorem of_move (h : Move env s₀ event a b) : Moves env s₀ event a b :=
  Relation.ReflTransGen.single h

theorem of_upkeep (h : a.Upkeep b) : Moves env s₀ event a b := of_move (.upkeep h)

/-- A loop of moves, by induction on what it runs over. -/
theorem foldl {α : Type} {f : Actor → α → Actor} (h : ∀ s a, Moves env s₀ event s (f s a))
    (l : List α) (s : Actor) : Moves env s₀ event s (l.foldl f s) := by
  induction l generalizing s with
  | nil => exact refl
  | cons a l ih => exact (h s a).trans (ih (f s a))

/-- Moves in both branches are moves of the branch. -/
theorem ite {c : Prop} [Decidable c] {s : Actor} (ha : Moves env s₀ event s a)
    (hb : Moves env s₀ event s b) : Moves env s₀ event s (if c then a else b) := by
  split
  · exact ha
  · exact hb

/-- What holds of a state and survives every move holds after the event. -/
theorem invariant {P : Actor → Prop} (hP : ∀ a b, Move env s₀ event a b → P a → P b)
    (h : Moves env s₀ event a b) (ha : P a) : P b := by
  induction h with
  | refl => exact ha
  | tail _ hmove ih => exact hP _ _ hmove ih

end Moves

/-! ## 3. Sessions begin and end

A session begins on a device without a link that is vouched for at that moment. Where a new
connection replaces an old one, the old one is dropped first, and the event must be one that ends a
session. -/

section
variable (env : Env) (s₀ : Actor) (event : Event) (s : Actor)

/-- The session is put in both tables; the ticket and the resume that follow are upkeep. -/
theorem install_session_moves {id : DeviceId} {est : Established} (hl : s.link id = none)
    (hd : s.trust.vouches id est.conn.peer_public_key)
    (hi : s₀.installs env event id est) :
    Moves env s₀ event s (s.install_session env id est) := by
  unfold install_session
  dsimp only
  have hvital (k : DeviceId) :
      ((s.remember_connection env id est).trust.get k).map TrustedDevice.vital =
        (s.trust.get k).map TrustedDevice.vital := by
    apply vital_update_hints
    exact fun d => rfl
  have hwishes (k : DeviceId) (hk : (s.remember_connection env id est).trust.wishes k) :
      s.trust.wishes k := by
    apply TrustStore.wishes_of_update_hints hk
    exact fun d hd => hd
  have hcancel := cancel_dial_upkeep (s.remember_connection env id est) id
  refine .trans (.of_move (.trust _ hvital fun k hk => .inl (hwishes k hk)))
    (.trans (.of_upkeep hcancel) ?_)
  have hd' : ((s.remember_connection env id est).cancel_dial id).trust.vouches id
      est.conn.peer_public_key := by
    rw [hcancel.standing.trust]
    exact TrustStore.vouches_of_vital (hvital id) hd
  have hl' : ((s.remember_connection env id est).cancel_dial id).link id = none := by
    rw [hcancel.link]
    exact hl
  generalize (s.remember_connection env id est).cancel_dial id = s at hd' hl' ⊢
  refine .trans (.of_move (.install id est hl' hd' hi))
    (.of_upkeep (.trans ?_ (resume_routes_upkeep env _ id)))
  unfold issue_ticket
  split <;> exact .of_eq rfl rfl rfl

/-- A session is dropped where it is allowed to end; the others stay. -/
theorem drop_session_moves {id : DeviceId} (reason : StopReason) (he : s₀.ends env event id) :
    Moves env s₀ event s (s.drop_session id reason) := by
  unfold drop_session
  split
  · next session hs =>
      exact .trans (.of_move (.drop id session hs he)) (.of_upkeep (.of_tables rfl))
  · exact .refl

/-- A connection that loses the tie-break is closed. Otherwise it replaces the session there is,
if any, and is installed. -/
theorem promote_session_moves {id : DeviceId} {est : Established}
    (hd : s.trust.vouches id est.conn.peer_public_key)
    (hi : s₀.installs env event id est) (he : s.replaces env id est → s₀.ends env event id) :
    Moves env s₀ event s (s.promote_session env id est) := by
  unfold promote_session
  split
  · next h => exact install_session_moves env s₀ event s (link_eq_none.2 h) hd hi
  · next old h =>
      split
      · exact .of_upkeep (.after (cancel_dial_upkeep _ id) rfl)
      · next hold =>
          have hends := he ⟨old, h, Bool.not_eq_true _ ▸ hold⟩
          refine (drop_session_moves env s₀ event s .Superseded hends).trans ?_
          have hpause := (pause_routes_for_upkeep env (s.drop_session id .Superseded) id).trans
            (.of_tables (end_network_test_tables _ id .Unreachable))
          refine (Moves.of_upkeep hpause).trans (install_session_moves env s₀ event _ ?_ ?_ hi)
          · rw [hpause.link]
            exact s.drop_session_link id _
          · rw [hpause.standing.trust, drop_session_trust]
            exact hd

/-- The user's wish to connect by itself, and names: nothing a device is judged by. -/
theorem update_trust_moves (id : DeviceId) {f : TrustedDevice → TrustedDevice} (ok : Bool)
    (hf : ∀ d, (f d).vital = d.vital)
    (hw : ∀ d, (f d).auto_connect = true →
      d.auto_connect = true ∨ event = .Command (.SetAutoConnect id true)) :
    Moves env s₀ event s { s with trust := s.trust.update id f ok } := by
  refine .of_move (.trust _ (vital_update s.trust id f ok hf) fun k hk => ?_)
  by_cases he : event = .Command (.SetAutoConnect k true)
  · exact .inr he
  · refine .inl
      (TrustStore.wishes_of_map (TrustStore.get_update _ _ _ _ _) (fun hkid d hd => ?_) hk)
    exact (hw d hd).resolve_right (hkid ▸ he)

/-- What follows the end of a session: a peer that no longer trusts this device is not dialed
any more. -/
theorem after_close_moves (id : DeviceId) (reason : StopReason) :
    Moves env s₀ event s (s.after_close env id reason) := by
  have hremove := s.remove_routes_for_upkeep env id
  have hrefused : Moves env s₀ event s (notice { (s.remove_routes_for env id).forget_dial id with
      trust := ((s.remove_routes_for env id).forget_dial id).trust.update id
        (fun d => { d with auto_connect := false }) env.trust_saved } "notice.peerForgotUs") := by
    refine .trans (.of_upkeep (hremove.trans (forget_dial_upkeep _ id))) ?_
    refine .trans (update_trust_moves env s₀ event _ id _ (fun d => ?_) fun d hd => ?_)
      (.of_upkeep (.of_tables rfl))
    · rfl
    · cases hd
  unfold after_close
  split
  · exact hrefused
  · exact hrefused
  · exact .of_upkeep hremove
  · dsimp only
    refine .of_upkeep (.trans (s.pause_routes_for_upkeep env id) ?_)
    generalize s.pause_routes_for env id = s
    refine .trans (b := if reason = .Superseded then s else s.record_reconnect env id) ?_ ?_
    · exact .ite (.refl s) (.of_tables (s.record_reconnect_tables env id))
    · exact .ite (.of_eq rfl rfl rfl) (.refl _)

theorem retire_upkeep (id : DeviceId) : s.Upkeep (s.retire env id) := by
  unfold retire
  dsimp only
  refine .trans ?_ (.of_tables (end_network_test_tables _ id .Revoked))
  have hroutes := remove_routes_for_upkeep env
    { s with flaps := s.flaps.erase id, stabilized := s.stabilized.erase id } id
  exact .after ((hroutes.trans (forget_dial_upkeep _ id)).trans (.of_eq rfl rfl rfl)) rfl

/-- A device is cut off: its routes and its dial by upkeep, its session by a drop. -/
theorem revoke_moves {id : DeviceId} (he : s₀.ends env event id) :
    Moves env s₀ event s (s.revoke env id) :=
  .trans (.of_upkeep (s.retire_upkeep env id)) <|
    .trans (drop_session_moves env s₀ event _ _ he)
      (.of_upkeep (.of_tables (forget_speaker_mutes_tables _ id)))

/-- The trust itself is untouched by that, -/
theorem revoke_trust (id : DeviceId) : (s.revoke env id).trust = s.trust := by
  unfold revoke
  rw [forget_speaker_mutes_tables, drop_session_trust]
  exact (s.retire_upkeep env id).standing.trust

/-- and the link is gone, so that forgetting and blocking may follow. -/
theorem revoke_link (id : DeviceId) : (s.revoke env id).link id = none := by
  rw [← (s.retire env id).drop_session_link id .PermissionRevoked]
  unfold revoke link
  rw [forget_speaker_mutes_tables]

/-- A connection that ends takes along what it stood for. -/
theorem on_closed_moves (conn_id : Nat) (reason : StopReason) :
    Moves env s (.Closed conn_id reason) s (s.on_closed env conn_id reason) := by
  unfold on_closed
  dsimp only
  have hlapse : s.Upkeep { s with unpaired := s.unpaired.erase conn_id } :=
    ⟨{ Lapses.refl s.toStanding with unpaired := s.unpaired.shrinks_erase conn_id }, rfl, .refl _⟩
  have hup := hlapse.trans (close_pairing_upkeep env _ conn_id reason)
  have hindex := hup.standing.conn_index
  refine .trans (.of_upkeep hup) ?_
  generalize close_pairing env _ conn_id reason = s' at hindex ⊢
  split
  · exact .refl
  · next id hid =>
      have hends : s.ends env (.Closed conn_id reason) id := by
        rw [hindex] at hid
        exact hid
      split
      · next hne =>
          refine .of_move (.unindex conn_id fun k hk => ?_)
          obtain rfl := Option.some_inj.1 (hid.symm.trans hk)
          exact hne
      · next heq =>
          obtain ⟨session, hs, hconn⟩ := Option.map_eq_some_iff.1 (not_not.1 heq)
          have hdrop : Move env s (.Closed conn_id reason) s' _ := .drop id session hs hends
          rw [hconn] at hdrop
          refine .trans (.of_move hdrop) (.trans (.of_upkeep (.of_tables ?_))
            (after_close_moves env _ _ _ id reason))
          rw [end_network_test_tables, forget_speaker_mutes_tables]

end

/-! ## 4. Pairing

A key is trusted by the move `pair` alone, and that names the record which the event completed. A
proof of the QR code sets both words at once; by code each side gives its own. -/

section
variable (env : Env) (s₀ : Actor) (event : Event) (s : Actor)

/-- A record for a connection that the event brought, if there is a code to compare. -/
theorem begin_pairing_moves {id : DeviceId} {est : Established} {qr_scanner : Bool}
    (h : s₀.begins env event id (new_pairing env est qr_scanner)) :
    Moves env s₀ event s (s.begin_pairing env id est qr_scanner) := by
  unfold begin_pairing
  split
  · exact .of_upkeep (.of_tables (error_notice_tables env _ _))
  · dsimp only
    refine .trans (.of_upkeep (.of_tables ?_)) (.of_move (.begin_pairing id _ h))
    split <;> rfl

/-- The record is taken out before anything comes of it, so what counts is the state without it. -/
theorem complete_pairing_moves {s₁ : Actor} {id : DeviceId} {p : PendingPairing}
    (h₁ : s₁.Upkeep (s.set_pairings (s.pairings.erase id)))
    (hp : s.pairings.get id = some p) (hc : s₀.completes env event id p)
    (he : s.replaces env id p.established → s₀.ends env event id) :
    Moves env s₀ event s₁ (s.complete_pairing env id) := by
  unfold complete_pairing
  rw [hp]
  dsimp only
  refine .trans (.of_upkeep h₁) (.trans (.of_move (.pair id p hc)) ?_)
  split
  · exact .of_upkeep (.of_tables (error_notice_tables env _ _))
  · refine .trans (.of_upkeep (.of_tables (notice_tables _ "notice.pairingSuccess"))) ?_
    refine promote_session_moves env s₀ event _ ?_ (.inr ⟨p, hc, rfl⟩) he
    refine ⟨paired_device env id p, ?_, rfl, rfl⟩
    exact (TrustStore.get_upsert _ _ _ _).trans (if_pos rfl)

/-- The user's word is written down first, and completes the pairing if the peer's is there. -/
theorem confirm_pairing_moves (id : DeviceId) (accept : Bool) :
    Moves env s (.Command (.ConfirmPairing id accept)) s (s.confirm_pairing env id accept) := by
  unfold confirm_pairing
  split
  · exact .refl
  · next p hp =>
      dsimp only
      refine .trans (.of_move (.confirm id p accept hp rfl)) ?_
      generalize hs' : (s.set_pairings _).emit _ = s'
      have hget : s'.pairings.get id = some { p with local_confirmed := accept } := by
        rw [← hs']
        exact Table.get_insert_self _ _ _
      refine .trans (b := s') (.of_upkeep (.of_tables ?_)) ?_
      · rw [← hs']
        rfl
      split
      · exact .of_upkeep (s'.reject_pairing_upkeep id)
      · next haccept =>
          obtain rfl : accept = true := by simpa using haccept
          split
          · next hpeer =>
              have hc : s.completes env (.Command (.ConfirmPairing id true)) id
                  { p with local_confirmed := true } := ⟨rfl, rfl, p, hp, hpeer, rfl⟩
              refine complete_pairing_moves env s _ s' (s'.erase_pairing_upkeep id) hget hc
                fun hr => ⟨_, hc, ?_⟩
              rw [← hs'] at hr
              exact hr
          · exact .refl

/-- The same for the peer's word; one who scanned the code needs no other. -/
theorem on_pair_result_moves {conn_id : Nat} {id : DeviceId} (accepted : Bool)
    (hu : s.unpaired.get conn_id = none) (hid : s.pairing_on conn_id = some id) :
    Moves env s (.Control conn_id (.PairResult accepted)) s (s.on_pair_result env id accepted) := by
  obtain ⟨p, hp, rfl⟩ := pairing_on_eq_some hid
  unfold on_pair_result
  rw [hp]
  dsimp only
  split
  · exact .of_upkeep ((s.reject_pairing_upkeep id).trans (.of_tables (error_notice_tables env _ _)))
  · next haccepted =>
      obtain rfl : accepted = true := by simpa using haccepted
      refine .trans (.of_move (.peer_confirm id p hp rfl)) ?_
      split
      · next hflow =>
          have hc : s.completes env (.Control p.conn_id (.PairResult true)) id
              { p with peer_confirmed := true } := ⟨rfl, hu, hid, p, hp, hflow, rfl⟩
          generalize hs' :
            s.set_pairings (s.pairings.insert id { p with peer_confirmed := true }) = s'
          generalize hs'' : (if p.qr_scanner = true then s'.emit _ else s') = s''
          have htables : s''.toTables = s'.toTables := by
            rw [← hs'']
            split <;> rfl
          refine .trans (b := s'') (.of_upkeep (.of_tables htables)) ?_
          refine complete_pairing_moves env s _ s'' (s''.erase_pairing_upkeep id) ?_ hc
            fun hr => ⟨_, hc, ?_⟩
          · rw [htables, ← hs']
            exact Table.get_insert_self _ _ _
          · unfold replaces keeps_old at hr
            rw [htables, ← hs'] at hr
            exact hr
      · exact .refl

/-- A verified proof stands for both confirmations. -/
theorem admit_proven_moves {est : Established} {p : PendingPairing → PendingPairing}
    (hb : s₀.begins env event est.conn.peer_public_key.device_id (new_pairing env est false))
    (hp : p = fun q => { q with local_confirmed := true, peer_confirmed := true })
    (hc : ∀ q, (if est.conn.exporter then q = new_pairing env est false
        else s.pairings.get est.conn.peer_public_key.device_id = some q) →
      s₀.completes env event est.conn.peer_public_key.device_id (p q))
    (he : ∀ q, s₀.completes env event est.conn.peer_public_key.device_id q →
      s.replaces env est.conn.peer_public_key.device_id q.established →
      s₀.ends env event est.conn.peer_public_key.device_id) :
    Moves env s₀ event { s with qr := none } (s.admit_proven env est) := by
  generalize hid : est.conn.peer_public_key.device_id = id at hb hc he
  unfold admit_proven
  dsimp only
  rw [hid, ← hp]
  generalize hs₂ : ({ s with qr := none } : Actor) = s₂
  have htables := begin_pairing_tables env s₂ id est false
  refine .trans (begin_pairing_moves env s₀ event s₂ hb) ?_
  generalize s₂.begin_pairing env id est false = s₃ at htables ⊢
  generalize hs₄ : emit (set_pairings s₃ _) _ = s₄
  have h₄ : s₄.toTables = { s₃.toTables with pairings := s₃.pairings.modify id p } := by
    rw [← hs₄]
    rfl
  have hpairings : s₃.pairings =
      if est.conn.exporter then s.pairings.insert id (new_pairing env est false)
      else s.pairings := by
    rw [htables, ← hs₂]
  -- Without exported keys no pairing was begun, and there may be none to complete.
  cases hq : s₃.pairings.get id with
  | none =>
      have hget : s₄.pairings.get id = none := by
        rw [h₄, Table.get_modify, if_pos rfl, hq, Option.map_none]
      unfold complete_pairing
      rw [hget, ← hs₄]
      exact .of_upkeep
        ⟨{ Lapses.refl _ with pairings := Table.shrinks_modify_of_none hq p }, rfl, .refl _⟩
  | some q =>
      have hget : s₄.pairings.get id = some (p q) := by
        rw [h₄, Table.get_modify, if_pos rfl, hq, Option.map_some]
      have hrecord : if est.conn.exporter then q = new_pairing env est false
          else s.pairings.get id = some q := by
        rw [hpairings] at hq
        split at hq
        · next hexporter =>
            rw [Table.get_insert_self] at hq
            rw [if_pos hexporter]
            exact (Option.some_inj.1 hq).symm
        · next hexporter =>
            rw [if_neg hexporter]
            exact hq
      refine complete_pairing_moves env s₀ event s₄ ?_ hget (hc q hrecord) fun hr => ?_
      · rw [← hs₄]
        exact ⟨{ Lapses.refl _ with pairings := Table.shrinks_erase_modify _ _ _ }, rfl, .refl _⟩
      · refine he _ (hc q hrecord) ?_
        unfold replaces keeps_old at hr ⊢
        rw [h₄, htables, ← hs₂] at hr
        exact hr

section
variable {s} {conn_id : Nat} {est : Established} {since : Instant}
  (hu : s.unpaired.get conn_id = some (est, since))
include hu

/-- A connection that waits for its request may begin a pairing with it. -/
theorem begins_of_unpaired (req : PairRequest) :
    s.begins env (.Control conn_id (.PairRequest req)) est.conn.peer_public_key.device_id
      (new_pairing env est false) := ⟨est, since, hu, rfl, rfl⟩

/-- The code is spent before the device that proved it is let in. -/
theorem on_proof_moves {req : PairRequest} {proof : Bytes} {qr : QrPairingPayload}
    (hproof : req.qr_proof = some proof) (hqr : s.qr = some qr)
    (hexpired : qr.is_expired env.now_unix = false)
    (hverify : verify_pairing_proof qr.secret (.of_public_key est.conn.peer_public_key)
      s.identity.device_id proof = true) :
    Moves env s (.Control conn_id (.PairRequest req))
      { s with unpaired := s.unpaired.erase conn_id, qr := none }
      (admit_proven env { s with unpaired := s.unpaired.erase conn_id } est) := by
  refine admit_proven_moves env s _ { s with unpaired := s.unpaired.erase conn_id }
    (begins_of_unpaired env hu req) rfl (fun q hq => ?_) fun q hc hr => ⟨q, hc, hr⟩
  exact ⟨est, since, proof, qr, hu, rfl, hproof, hqr, hexpired, hverify, q, hq, rfl⟩

/-- The request to pair. Without pairing mode, or with a proof that does not check, the
connection is closed. -/
theorem on_pair_request_moves (req : PairRequest) :
    Moves env s (.Control conn_id (.PairRequest req))
      { s with unpaired := s.unpaired.erase conn_id }
      (on_pair_request env { s with unpaired := s.unpaired.erase conn_id } est req) := by
  have hbegin := begins_of_unpaired env hu req
  unfold on_pair_request
  dsimp only
  split
  · next proof qr hproof hqr =>
      split
      · exact .of_upkeep (.of_tables rfl)
      · next hexpired =>
          split
          · exact .of_upkeep (.of_tables rfl)
          · next hverify =>
              have hlapse : Upkeep { s with unpaired := s.unpaired.erase conn_id }
                  { s with unpaired := s.unpaired.erase conn_id, qr := none } :=
                ⟨{ Lapses.refl _ with qr := .inr rfl }, rfl, .refl _⟩
              refine .trans (.of_upkeep hlapse) (on_proof_moves env hu hproof hqr ?_ ?_)
              · simpa using hexpired
              · simpa using hverify
  · exact begin_pairing_moves env s _ _ hbegin
  · exact .of_upkeep (.of_tables rfl)

end

/-- An unknown device on a connection: one that this device dialed to pair begins, any other one
that it dialed is closed, and one that dialed here waits within the limit. -/
theorem admit_untrusted_moves {est : Established} {pair_dial : Option Bool}
    (hdial : s₀.pair_dials.get est.conn_id = pair_dial) :
    Moves env s₀ (.Established est) s
      (s.admit_untrusted env est.conn.peer_public_key.device_id est pair_dial) := by
  unfold admit_untrusted
  split
  · next hdialed =>
      split
      · next qr_scanner =>
          exact begin_pairing_moves env s₀ _ s ⟨rfl, hdialed, qr_scanner, hdial, rfl⟩
      · exact .of_upkeep (.of_tables rfl)
  · next hdialed =>
      dsimp only
      split
      · refine .of_upkeep (.ite ?_ ?_)
        · exact .of_eq rfl rfl rfl
        · exact .of_eq rfl rfl rfl
      · refine .trans (.of_move (.arrive est rfl ?_)) (.of_upkeep (.of_eq rfl rfl rfl))
        simpa using hdialed

theorem redeem_token_upkeep (est : Established) : s.Upkeep (s.redeem_token env est) := by
  unfold redeem_token
  split
  · exact .of_eq rfl rfl rfl
  · exact .refl s

/-- A token that is redeemed leaves everything that sessions and trust are about. -/
theorem redeem_token_standing (est : Established) :
    (s.redeem_token env est).toStanding = s.toStanding ∧
      (s.redeem_token env est).sessions = s.sessions := by
  unfold redeem_token
  split
  · exact ⟨rfl, rfl⟩
  · exact ⟨rfl, rfl⟩

/-- A connection is up. The trust is looked at once, and nothing changes it before the session. -/
theorem on_established_moves (est : Established) :
    Moves env s (.Established est) s (s.on_established env est) := by
  unfold on_established
  dsimp only
  generalize hs₁ : ({ s with dial_targets := _, pair_dials := _ } : Actor) = s₁
  have hlapse : s.Upkeep s₁ := by
    rw [← hs₁]
    exact ⟨{ Lapses.refl s.toStanding with pair_dials := s.pair_dials.shrinks_erase est.conn_id },
      rfl, .refl _⟩
  refine .trans (.of_upkeep hlapse) ?_
  split
  · next device hdevice =>
      split
      · exact .of_upkeep (.of_tables rfl)
      · next hok =>
          simp only [not_or, not_not, Bool.not_eq_true] at hok
          have hd : s₁.trust.vouches est.conn.peer_public_key.device_id est.conn.peer_public_key :=
            hlapse.standing.trust ▸ ⟨device, hdevice, hok⟩
          obtain ⟨hstanding, hsessions⟩ := redeem_token_standing env s₁ est
          refine .trans (.of_upkeep (redeem_token_upkeep env s₁ est)) ?_
          refine promote_session_moves env s _ _ ?_ (.inl ⟨rfl, rfl⟩) fun hr => ⟨rfl, ?_, ?_⟩
          · rw [hstanding]
            exact hd
          · unfold replaces keeps_old at hr
            rw [hstanding, hsessions, ← hs₁] at hr
            exact hr
          · rw [hlapse.standing.trust] at hd
            exact hd
  · refine admit_untrusted_moves env s s₁ rfl

end

/-! ## 5. Routes that peers ask for

A route that a peer asked for is opened by `open_route` alone, which carries the consent: the
standing decision of the user, a resumed stream, or the answer to a prompt. -/

section
variable (env : Env) (s : Actor)

omit [Crypto] in
/-- Making room changes nothing that the decision about a request looks at. -/
theorem admits_request_of_make_room {feed : Option RouteKey} {peer : DeviceId} {kind : RouteKind}
    (h : (s.make_room env feed).admits_request env peer kind) : s.admits_request env peer kind := by
  obtain ⟨haccess, hroutes⟩ := s.make_room_spec env feed
  unfold admits_request policy_of resumes at h ⊢
  rw [haccess] at h
  refine h.imp_right fun ⟨hask, hresumes⟩ => ⟨hask, ?_⟩
  simp only [Bool.and_eq_true, List.any_eq_true] at hresumes ⊢
  obtain ⟨hgrant, r, hr, hpaused⟩ := hresumes
  exact ⟨hgrant, r, hroutes.subset hr, hpaused⟩

/-- Room is made before the decision, and the decision reads nothing that this changes. -/
theorem decide_request_moves {event : Event} {feed : Option RouteKey} {peer : DeviceId}
    {req : RouteRequest} {kind : RouteKind} (h : s.requests_route event peer req kind) :
    Moves env s event (s.make_room env feed)
    ((s.make_room env feed).decide_request env peer req kind) := by
  have hopened (hd : (s.make_room env feed).admits_request env peer kind) :
      Moves env s event (s.make_room env feed)
        ((s.make_room env feed).accept_route env peer req kind) :=
    .of_move (.open_route peer req kind (accept_route_admits env _ peer req kind)
      (.inl ⟨h, s.admits_request_of_make_room env hd⟩))
  unfold decide_request
  split
  · next hallow => exact hopened (.inl hallow)
  · exact .of_upkeep (.of_tables (reject_tables _ _ _ _))
  · next hask =>
      split
      · next hresumes => exact hopened (.inr ⟨hask, hresumes⟩)
      · exact .of_move (.ask peer req kind h)

/-- A request on a session, after the checks that refuse it outright. -/
theorem on_route_request_moves {conn_id : Nat} {peer : DeviceId} (req : RouteRequest)
    (hu : s.unpaired.get conn_id = none) (hp : s.pairing_on conn_id = none)
    (hi : s.conn_index.get conn_id = some peer) :
    Moves env s (.Control conn_id (.RouteRequest req)) s (s.on_route_request env peer req) := by
  unfold on_route_request
  split
  · exact .of_upkeep (.of_tables (reject_tables _ _ _ _))
  · next kind hkind =>
      split
      · refine .of_upkeep (.of_tables ?_)
        dsimp only
        rw [reject_tables]
        split
        · exact s.error_notice_tables env _
        · rfl
      · dsimp only
        split
        · exact .of_upkeep (.of_tables (reject_tables _ _ _ _))
        · exact .trans (.of_upkeep (s.make_room_upkeep env _))
            (s.decide_request_moves env ⟨conn_id, rfl, hu, hp, hi, hkind⟩)

/-- The answer to a prompt: the permission that is remembered first, then the route. -/
theorem respond_request_moves (request_id : Nat) (accept remember : Bool) :
    Moves env s (.Command (.RespondRouteRequest request_id accept remember)) s
      (s.respond_request env request_id accept remember) := by
  unfold respond_request
  split
  · exact .refl
  · next pending hpending =>
      dsimp only
      generalize hs₁ : ({ s with requests := s.requests.erase request_id } : Actor) = s₁
      have hlapse : s.Upkeep s₁ := by
        rw [← hs₁]
        exact ⟨{ Lapses.refl s.toStanding with requests := s.requests.shrinks_erase request_id },
          rfl, .refl _⟩
      refine .trans (.of_upkeep hlapse) ?_
      refine .trans (b := if remember then s₁.set_permission env pending.peer
        (permission_for pending.kind) (if accept then .Allow else .Deny) else s₁) ?_ ?_
      · split
        · next hremember =>
            exact .of_move (.permit _ _ _ ⟨hremember, pending, hpending, rfl, rfl, rfl⟩)
        · exact .refl
      · generalize (if remember = true then _ else s₁) = s₂
        split
        · next haccept =>
            subst haccept
            exact .of_move (.open_route _ _ _ (accept_route_admits env _ _ _ _)
              (.inr ⟨request_id, remember, pending, rfl, hpending, rfl, rfl, rfl⟩))
        · exact .of_upkeep (.of_tables (reject_tables _ _ _ _))

/-- A permission, with the routes that a denial stops. -/
theorem on_set_permission_moves (id : DeviceId) (kind : PermissionKind) (policy : Policy) :
    Moves env s (.Command (.SetPermission id kind policy)) s
      (s.on_set_permission env id kind policy) := by
  unfold on_set_permission
  refine .trans (.of_move (.permit id kind policy ⟨rfl, rfl, rfl⟩)) ?_
  split
  · exact .of_upkeep (enforce_permissions_upkeep env _ id)
  · exact .refl

/-- A message on a device's session. -/
theorem on_session_message_moves {conn_id : Nat} {peer : DeviceId} (body : Body)
    (hr : ∀ r ∈ s.routes, r.requested_locally = false → r.status ≠ .Requesting)
    (hu : s.unpaired.get conn_id = none) (hp : s.pairing_on conn_id = none)
    (hi : s.conn_index.get conn_id = some peer) :
    Moves env s (.Control conn_id body) s (s.on_session_message env peer conn_id body) := by
  cases body with
  | RouteRequest req => exact s.on_route_request_moves env req hu hp hi
  | RouteAccept acc => exact .of_upkeep (s.on_route_accept_upkeep env peer acc hr)
  | RouteReject rej => exact .of_upkeep (s.on_route_reject_upkeep env peer rej)
  | RouteStop stop => exact .of_upkeep (s.stop_route_by_key_upkeep env _ _ _)
  | RouteUpdate update => exact .of_upkeep (s.on_route_update_upkeep env peer update)
  | VolumeSet v => exact .of_upkeep (s.on_remote_volume_upkeep peer v)
  | MuteSet m => exact .of_upkeep (s.on_remote_mute_upkeep env peer m)
  | StatsReport stats => exact .of_upkeep (s.on_stats_upkeep peer stats)
  | Hello hello => exact .of_upkeep (s.on_hello_upkeep peer conn_id hello)
  | SessionTicket ticket => exact .of_upkeep (s.on_session_ticket_upkeep env peer conn_id ticket)
  | NetTestStart start => exact .of_upkeep (.of_tables (s.on_net_test_start_tables env peer start))
  | NetTestReady ready => exact .of_upkeep (.of_tables (s.on_net_test_ready_tables peer ready))
  | NetTestStop test_id =>
      exact .of_upkeep (.of_tables (s.on_net_test_stop_tables env peer test_id))
  | Ping | Pong | Notice _ | PermissionChanged _ | Goodbye _ | PairRequest _ | PairResult _ =>
      exact .refl

/-- Any message, by the connection it came on. A route that a peer asked for never waits for
that peer's answer, so that `RouteAccept` opens no such route. -/
theorem on_control_moves (conn_id : Nat) (body : Body)
    (hr : ∀ r ∈ s.routes, r.requested_locally = false → r.status ≠ .Requesting) :
    Moves env s (.Control conn_id body) s (s.on_control env conn_id body) := by
  unfold on_control
  split
  · next est since hu =>
      have hlapse : s.Upkeep { s with unpaired := s.unpaired.erase conn_id } :=
        ⟨{ Lapses.refl s.toStanding with unpaired := s.unpaired.shrinks_erase conn_id }, rfl,
          .refl _⟩
      refine .trans (.of_upkeep hlapse) ?_
      dsimp only
      split
      · next req => exact on_pair_request_moves env hu req
      · exact .of_upkeep (.of_tables rfl)
  · next hu =>
      split
      · next id hid =>
          split
          · next accepted => exact on_pair_result_moves env s accepted hu hid
          · exact .refl
      · next hp =>
          split
          · next peer hi => exact s.on_session_message_moves env body hr hu hp hi
          · exact .refl

end

/-! ## 6. Dials, timers and the user

The rest of the engine. A dial is a move because it says who asked for it. -/

section
variable (env : Env) (s₀ : Actor) (event : Event) (s : Actor)

/-- A dial to connect, for the user or for a device that is wished at every tick. -/
theorem try_dial_trusted_moves {id : DeviceId}
    (h : event = .Command (.Connect id) ∨
      (event = .Tick ∧ ∃ d ∈ s.trust.list, d.device_id = id ∧ d.auto_connect = true)) :
    Moves env s₀ event s (s.try_dial_trusted env id) := by
  unfold try_dial_trusted
  split
  · exact .refl
  · dsimp only
    split
    · exact .refl
    · split
      · exact .of_upkeep (.of_eq rfl rfl rfl)
      · split
        · exact .of_upkeep (.of_eq rfl rfl rfl)
        · generalize hs₁ : ({ s with dials := _ } : Actor) = s₁
          have hup : s.Upkeep s₁ := by
            rw [← hs₁]
            exact .of_eq rfl rfl rfl
          refine .trans (.of_upkeep hup) (.trans (.of_move (.dial id ?_)) (.of_upkeep ?_))
          · rw [hup.standing.trust]
            exact h
          · exact .of_eq rfl rfl rfl

/-- A dial to pair, with what it is pinned to. -/
theorem pair_dial_moves (pinned : Option DeviceId) (pair : PairRequest)
    (target : Option DeviceId) (qr : Bool) (h : pairs_by event pinned qr) :
    Moves env s₀ event s (s.pair_dial pinned pair target qr) := by
  refine .trans (.of_move (.pair_dial pinned pair target qr h)) (.of_upkeep ?_)
  unfold pair_dial dial
  dsimp only
  split <;> exact .of_eq rfl rfl rfl

theorem pair_by_code_moves (found : Option EngineError) (caller : Nat)
    (h : found = none → pairs_by event none false) :
    Moves env s₀ event s (s.pair_by_code found caller) := by
  unfold pair_by_code
  split
  · exact .of_upkeep (.of_tables (answer_tables _ _ _))
  · refine .trans ?_ (.of_upkeep (.of_tables (answer_tables _ _ _)))
    exact pair_dial_moves env s₀ event s none _ none false (h rfl)

/-- A scanned code pins the dial to its device. -/
theorem pair_with_qr_moves (payload : Option QrPairingPayload) (caller : Nat) :
    Moves env s₀ (.Command (.PairWithQr payload caller)) s (s.pair_with_qr payload).1 := by
  unfold pair_with_qr
  split
  · exact .refl
  · next payload =>
      split
      · exact .refl
      · dsimp only
        exact pair_dial_moves env s₀ _ s _ _ _ true ⟨rfl, rfl⟩

omit [Crypto] in
theorem on_dial_failed_upkeep (conn_id : Nat) (target : Option DeviceId) (error : EngineError) :
    s.Upkeep (s.on_dial_failed env conn_id target error) := by
  have hlapse := s.pair_dials.shrinks_erase conn_id
  unfold on_dial_failed
  dsimp only
  split
  · exact ⟨{ Lapses.refl s.toStanding with pair_dials := hlapse }, rfl, .refl _⟩
  · refine .trans ?_ (.of_tables (error_notice_tables env _ _))
    exact ⟨{ Lapses.refl s.toStanding with pair_dials := hlapse }, rfl, .refl _⟩

omit [Crypto] in
theorem on_handshake_failed_upkeep (conn_id : Nat) (incompatible : Bool) :
    s.Upkeep (s.on_handshake_failed env conn_id incompatible) := by
  have hlapse := s.pair_dials.shrinks_erase conn_id
  unfold on_handshake_failed
  dsimp only
  refine .ite_tables ?_ (error_notice_tables env _ _)
  split <;> exact ⟨{ Lapses.refl s.toStanding with pair_dials := hlapse }, rfl, .refl _⟩

theorem connect_moves (id : DeviceId) :
    Moves env s₀ (.Command (.Connect id)) s (s.connect env id) := by
  unfold connect
  dsimp only
  generalize hs₁ : ({ s with dials := _ } : Actor) = s₁
  refine .trans (b := s₁) (.of_upkeep ?_) (try_dial_trusted_moves env s₀ _ s₁ (.inl rfl))
  rw [← hs₁]
  exact .of_eq rfl rfl rfl

/-- The user disconnects a device, which is not wished for any longer. -/
theorem disconnect_moves (id : DeviceId) :
    Moves env s₀ (.Command (.Disconnect id)) s (s.disconnect env id) := by
  unfold disconnect
  dsimp only
  refine .trans (.of_upkeep (s.forget_dial_upkeep id)) ?_
  refine .trans (drop_session_moves env s₀ _ _ .UserStopped rfl) ?_
  generalize (s.forget_dial id).drop_session id .UserStopped = s
  have hroutes := remove_routes_for_upkeep env (s.forget_speaker_mutes id) id
  refine .trans (.of_upkeep (.after hroutes (s.forget_speaker_mutes_tables id))) ?_
  generalize (s.forget_speaker_mutes id).remove_routes_for env id = s
  have htest := s.end_network_test_tables id .Unreachable
  refine .trans (.of_upkeep (.of_tables htest)) ?_
  generalize s.end_network_test id .Unreachable = s
  refine .trans (b := { s with flaps := s.flaps.erase id, stabilized := s.stabilized.erase id })
    (.of_upkeep (.of_tables rfl)) ?_
  exact update_trust_moves env s₀ _ _ id _ (fun d => rfl) fun d hd => nomatch hd

/-- The session goes before the trust, as the move `forget` demands. -/
theorem forget_device_moves (id : DeviceId) :
    Moves env s₀ (.Command (.ForgetDevice id)) s (s.forget_device env id) := by
  unfold forget_device
  dsimp only
  refine .trans (revoke_moves env s₀ _ s rfl) ?_
  refine .trans (.of_move (.forget id env.trust_saved (s.revoke_link env id) rfl)) (.of_upkeep ?_)
  refine .ite_tables (.of_tables ?_) (save_settings_tables env _)
  rw [set_settings_tables, forget_network_test_tables]

/-- A device is blocked once its session is gone. -/
theorem set_blocked_moves (id : DeviceId) (blocked : Bool) :
    Moves env s₀ (.Command (.SetBlocked id blocked)) s (s.set_blocked env id blocked) := by
  unfold set_blocked
  dsimp only
  cases blocked with
  | false => exact .of_move (.judge id false _ (fun h => nomatch h) rfl)
  | true =>
      rw [if_pos rfl]
      generalize ht : s.trust.update id (fun d => { d with blocked := true }) env.trust_saved = t
      have hretire := retire_upkeep env { s with trust := t } id
      unfold revoke
      generalize retire env { s with trust := t } id = s₁ at hretire ⊢
      -- the same work before the block
      have hbefore : s.Upkeep { s₁ with trust := s.trust } :=
        ⟨{ hretire.standing with trust := rfl }, hretire.link, hretire.routes⟩
      refine .trans (.of_upkeep hbefore) ?_
      have hends : s₀.ends env (.Command (.SetBlocked id true)) id := ⟨rfl, rfl⟩
      refine .trans (drop_session_moves env s₀ _ _ .PermissionRevoked hends) ?_
      have hlink := drop_session_link { s₁ with trust := s.trust } id .PermissionRevoked
      refine .trans (.of_move (.judge id true env.trust_saved (fun _ => hlink) rfl)) (.of_upkeep ?_)
      refine .of_tables ?_
      have htrust : s₁.trust = t := hretire.standing.trust
      rw [forget_speaker_mutes_tables, drop_session_trust, ht, ← htrust]
      unfold drop_session
      dsimp only
      split <;> rfl

/-- Writing hints changes no lookup. -/
theorem flush_trust_moves : Moves env s₀ event s (s.flush_trust env) := by
  refine .trans (.of_move (.trust (s.trust.flush env.trust_saved) (fun id => ?_) fun id hid => ?_))
    (.of_upkeep (.of_eq rfl rfl rfl))
  · rw [TrustStore.get_flush]
  · unfold TrustStore.wishes at hid
    rw [TrustStore.get_flush] at hid
    exact .inl hid

omit [Crypto] in
theorem expire_requests_upkeep : s.Upkeep (s.expire_requests env) := by
  unfold expire_requests
  refine .foldl (fun s e => .trans ?_ (.of_tables (reject_tables _ _ _ _))) _ s
  exact ⟨{ Lapses.refl s.toStanding with requests := s.requests.shrinks_erase e.1 }, rfl, .refl _⟩

omit [Crypto] in
theorem expire_unpaired_upkeep : s.Upkeep (s.expire_unpaired env) := by
  unfold expire_unpaired
  refine .foldl (fun s e => ?_) _ s
  exact ⟨{ Lapses.refl s.toStanding with unpaired := s.unpaired.shrinks_erase e.1 }, rfl, .refl _⟩

omit [Crypto] in
theorem expire_pairings_upkeep : s.Upkeep (s.expire_pairings env) := by
  unfold expire_pairings
  refine .foldl (fun s e => ?_) _ s
  exact ⟨{ Lapses.refl s.toStanding with pairings := s.pairings.shrinks_erase e.1 }, rfl, .refl _⟩

omit [Crypto] in
theorem expire_qr_upkeep : s.Upkeep (s.expire_qr env) := by
  unfold expire_qr
  exact .ite ⟨{ Lapses.refl s.toStanding with qr := .inr rfl }, rfl, .refl _⟩ (.refl s)

omit [Crypto] in
/-- Dialing changes no trust, -/
theorem try_dial_trusted_trust (id : DeviceId) : (s.try_dial_trusted env id).trust = s.trust := by
  unfold try_dial_trusted
  split
  · rfl
  · dsimp only
    split
    · rfl
    · split
      · rfl
      · split
        · rfl
        · unfold dial
          rfl

/-- so that a device which was wished for when the tick began still is when its turn comes. By
induction on the devices. -/
theorem try_dial_each_moves (candidates : List TrustedDevice)
    (h : ∀ d ∈ candidates, d ∈ s.trust.list ∧ d.auto_connect = true) :
    Moves env s₀ .Tick s (candidates.foldl (fun s d => s.try_dial_trusted env d.device_id) s) := by
  induction candidates generalizing s with
  | nil => exact .refl
  | cons d candidates ih =>
      obtain ⟨hmem, hauto⟩ := h d List.mem_cons_self
      refine .trans (try_dial_trusted_moves env s₀ _ s (.inr ⟨rfl, d, hmem, rfl, hauto⟩)) ?_
      refine ih _ fun d' hd' => ?_
      rw [try_dial_trusted_trust]
      exact h d' (List.mem_cons_of_mem _ hd')

/-- The devices that are wished for are dialed, those among them that may be. -/
theorem auto_connect_moves : Moves env s₀ .Tick s (s.auto_connect env) := by
  unfold auto_connect
  split
  · exact .refl
  · dsimp only
    generalize hl : s.trust.list.filter _ = candidates
    have hwish : ∀ d ∈ candidates, d ∈ s.trust.list ∧ d.auto_connect = true := by
      intro d hd
      rw [← hl, List.mem_filter] at hd
      simp only [Bool.and_eq_true] at hd
      exact ⟨hd.1, hd.2.1.1⟩
    clear hl
    exact try_dial_each_moves env s₀ s candidates hwish

/-- A whole tick. All of it up to the dials is upkeep, with one flush of the hints. -/
theorem tick_moves : Moves env s₀ .Tick s (s.tick env) := by
  unfold tick
  dsimp only
  refine .trans ?_ (auto_connect_moves env s₀ _)
  refine .trans ?_ (.of_upkeep (expire_qr_upkeep env _))
  refine .trans ?_ (.of_upkeep (expire_pairings_upkeep env _))
  refine .trans ?_ (.of_upkeep (expire_unpaired_upkeep env _))
  refine .trans ?_ (.of_upkeep (expire_requests_upkeep env _))
  refine .trans ?_ (.of_upkeep (.of_tables (check_capture_health_tables env _)))
  refine .trans ?_ (.of_upkeep (check_virtual_mic_use_upkeep env _))
  refine .trans ?_ (.of_upkeep (.of_tables (announce_capabilities_tables env _)))
  refine .trans ?_ (.of_upkeep (.of_tables (expire_debug_logging_tables env _)))
  refine .trans ?_ (.of_upkeep (expire_stable_holds_upkeep env _))
  refine .trans ?_ (.of_upkeep (update_quality_fallback_upkeep env _))
  refine .trans ?_ (.of_upkeep (count_routes_upkeep env _))
  refine .trans ?_ (.of_upkeep (expire_routes_upkeep env _))
  have htests : s.Upkeep (s.tick_network_tests env) := .of_tables (s.tick_network_tests_tables env)
  have hprune : s.Upkeep (prune_encoders { s.tick_network_tests env with
      resume := (s.tick_network_tests env).resume.prune env.now }) :=
    htests.trans (.of_eq rfl rfl rfl)
  exact .trans (.of_upkeep hprune) (.ite (flush_trust_moves env s₀ _ _) .refl)

/-- Every command, by its handler. -/
theorem handle_command_moves (cmd : Command) :
    Moves env s (.Command cmd) s (s.handle_command env cmd) := by
  cases cmd with
  | StartPairing caller =>
      exact .trans (.of_move (.show_qr _ caller rfl))
        (.of_upkeep (.of_tables (answer_tables _ _ _)))
  | StopPairing =>
      exact .of_upkeep ⟨{ Lapses.refl s.toStanding with qr := .inr rfl }, rfl, .refl _⟩
  | PairWithQr payload caller =>
      exact .trans (pair_with_qr_moves env s s payload caller)
        (.of_upkeep (.of_tables (answer_tables _ _ _)))
  | PairWithDevice id caller => exact pair_by_code_moves env s _ s _ caller fun _ => rfl
  | ConfirmPairing id accept => exact confirm_pairing_moves env s id accept
  | Connect id => exact connect_moves env s s id
  | Disconnect id => exact disconnect_moves env s s id
  | ForgetDevice id => exact forget_device_moves env s s id
  | SetBlocked id blocked => exact set_blocked_moves env s s id blocked
  | RenameDevice id alias_name =>
      exact update_trust_moves env s _ s id _ (fun d => rfl) fun d hd => .inl hd
  | SetAutoConnect id enabled =>
      refine update_trust_moves env s _ s id _ (fun d => rfl) fun d hd => .inr ?_
      obtain rfl : enabled = true := hd
      rfl
  | SetPermission id kind policy => exact s.on_set_permission_moves env id kind policy
  | StartRoute id kind replace caller => exact .of_upkeep (s.start_route_upkeep env _ _ _ _)
  | StopRoute key => exact .of_upkeep (s.stop_route_by_key_upkeep env _ _ _)
  | SetRouteVolume key volume => exact .of_upkeep (s.set_route_volume_upkeep key volume)
  | SetRouteMuted key muted => exact .of_upkeep (s.set_route_muted_upkeep key muted)
  | SetRouteKeepRunning key keep => exact .of_upkeep (s.set_route_keep_running_upkeep env key keep)
  | SetPeerSpeakersMuted id muted =>
      exact .of_upkeep (.of_tables (s.set_peer_speakers_muted_tables id muted))
  | RespondRouteRequest request_id accept remember =>
      exact s.respond_request_moves env request_id accept remember
  | SetMicMuted muted => exact .of_upkeep (s.set_mic_muted_upkeep muted)
  | SetMicMonitor enabled => exact .of_upkeep (.of_tables (s.set_monitor_tables env enabled))
  | AudioDevicesChanged input output =>
      exact .of_upkeep (s.on_audio_devices_changed_upkeep env input output)
  | UpdateSettings settings caller =>
      exact .of_upkeep (s.update_settings_upkeep env settings caller)
  | NetworkChanged => exact .of_upkeep (s.reset_dials_upkeep env)
  | SetForeground foreground =>
      refine .trans (b := { s with foreground }) (.of_upkeep (.of_tables rfl)) ?_
      exact .ite .refl (flush_trust_moves env s _ _)
  | PreferLossless prefer => exact .of_upkeep (s.set_prefer_lossless_upkeep env prefer)
  | SetDeviceProfile id profile => exact .of_upkeep (s.set_device_profile_upkeep env id profile)
  | RunNetworkTest id caller => exact .of_upkeep (.of_tables (s.start_network_test_tables env id _))
  | CancelNetworkTest id => exact .of_upkeep (.of_tables (s.cancel_network_test_tables id))

theorem forget_own_address_moves (addr : SocketAddr) :
    Moves env s₀ event s (s.forget_own_address addr) := by
  unfold forget_own_address
  dsimp only
  generalize (s.trust.list.filter _).map _ = ids
  refine .trans (.of_move (.trust (s := s) _ ?_ ?_)) (.of_upkeep (.of_tables rfl))
  · intro id
    generalize s.trust = t
    induction ids generalizing t with
    | nil => rfl
    | cons i ids ih =>
        rw [List.foldl_cons, ih]
        apply vital_update_hints
        exact fun d => rfl
  · intro id hid
    refine .inl ?_
    generalize s.trust = t at hid ⊢
    induction ids generalizing t with
    | nil => exact hid
    | cons i ids ih =>
        rw [List.foldl_cons] at hid
        apply TrustStore.wishes_of_update_hints (ih _ hid)
        exact fun d hd => hd

/-- The handling of every event, as moves. -/
theorem handle_moves (event : Event)
    (hr : ∀ r ∈ s.routes, r.requested_locally = false → r.status ≠ .Requesting)
    (hc : s.calls = []) : Moves env s event s (s.handle env event) := by
  cases event with
  | Command cmd => exact s.handle_command_moves env cmd
  | Incoming conn => exact .of_move (.incoming conn _ rfl)
  | AddressIsSelf addr => exact forget_own_address_moves env s _ s addr
  | Dialed conn_id conn pair => exact .of_move (.dialed conn_id conn _ pair rfl hc)
  | DialFailed conn_id target error => exact .of_upkeep (s.on_dial_failed_upkeep env _ _ _)
  | Discovered id addresses => exact .of_upkeep (.of_eq rfl rfl rfl)
  | Lost id => exact .of_upkeep (.of_tables rfl)
  | AudioFailed peer route error => exact .of_upkeep (s.on_audio_failed_upkeep env _ error)
  | PairAddressResolved found caller =>
      refine pair_by_code_moves env s _ s _ caller fun h => ?_
      cases found with
      | false => cases h
      | true => rfl
  | SenderReady key start_id result =>
      exact .of_upkeep (s.on_sender_ready_upkeep env key start_id result)
  | ReceiverReady peer route start_id result =>
      exact .of_upkeep (s.on_receiver_ready_upkeep env peer route start_id result)
  | EncoderFailed key error => exact .of_upkeep (s.on_encoder_failed_upkeep env key error)
  | NetTestFinished peer test_id report =>
      exact .of_upkeep (.of_tables (s.on_net_test_finished_tables peer test_id report))
  | Established est => exact s.on_established_moves env est
  | Control conn_id body => exact s.on_control_moves env conn_id body hr
  | Closed conn_id reason => exact s.on_closed_moves env conn_id reason
  | HandshakeFailed conn_id incompatible =>
      exact .of_upkeep (s.on_handshake_failed_upkeep env conn_id incompatible)
  | Tick => exact tick_moves env s s

end

end Actor

end SoundPush
