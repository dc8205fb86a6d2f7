/-
`Trusted` -- a session is always with a device the user trusts, under the key the
connection authenticated.

A device id is half a hash of its key, so a store that is keyed by ids can only
promise this for keys that do not collide; `Known` is the set of keys a run meets,
and the results take as a hypothesis that ids tell these apart.

How it is put together. `Vouched` says of a state that the store is keyed as it should be and
vouches for every session under the session's own key. A move keeps it: a device is blocked or
forgotten only without a session, and a session is installed only on a device that the store
vouches for at that moment. Along a run that gives § 1, and with what is held under a connection
id it gives § 2, who is listened to.

The last section sets up what concrete runs here and in later modules start from: three real keys,
an engine that trusts two of them, and the inputs by which a device connects.
-/
import SoundPush.Engine.Connections

set_option autoImplicit false

namespace SoundPush

section
variable [Crypto]

/-- No two keys of the set have one device id. -/
def Distinct (Known : PublicKey → Prop) : Prop :=
  ∀ a b : PublicKey, Known a → Known b → a.device_id = b.device_id → a = b

/-! ## 1. The trust store vouches for every session -/

namespace Actor

/-- The trust store is keyed by the ids of its devices, and vouches for every session. -/
structure Vouched (Known : PublicKey → Prop) (s : Actor) : Prop where
  own : ∀ id d, s.trust.get id = some d →
    d.device_id = id ∧ d.public_key.device_id = id ∧ Known d.public_key
  sessions : ∀ id l, s.link id = some l → s.trust.vouches id l.conn.peer_public_key

namespace Vouched

variable {Known : PublicKey → Prop} {env : Env} {s s' : Actor}

/-- What touches neither trust nor links keeps it. -/
theorem of_trust (h : s.Vouched Known) (ht : s'.trust = s.trust) (hl : s'.link = s.link) :
    s'.Vouched Known := by
  refine ⟨?_, ?_⟩
  · rw [ht]
    exact h.own
  · rw [ht, hl]
    exact h.sessions

/-- A change of the store that keeps what devices are judged by, but for blocking a device that has
no session. -/
theorem set_trust (h : s.Vouched Known) {t : TrustStore}
    (hget : ∀ id d', t.get id = some d' → ∃ d, s.trust.get id = some d ∧
      d'.device_id = d.device_id ∧ d'.public_key = d.public_key)
    (hsession : ∀ id l, s.link id = some l → ∀ d, s.trust.get id = some d → d.blocked = false →
      ∃ d', t.get id = some d' ∧ d'.blocked = false ∧ d'.public_key = d.public_key) :
    Vouched Known { s with trust := t } where
  own id d' hd' := by
    obtain ⟨d, hd, hid, hkey⟩ := hget id d' hd'
    rw [hid, hkey]
    exact h.own id d hd
  sessions id l hl := by
    obtain ⟨d, hd, hblocked, hkey⟩ := h.sessions id l hl
    obtain ⟨d', hd', hblocked', hkey'⟩ := hsession id l hl d hd hblocked
    exact ⟨d', hd', hblocked', hkey'.trans hkey⟩

/-- Nor does a change of names and hints matter. -/
theorem set_vital (h : s.Vouched Known) {t : TrustStore}
    (ht : ∀ id, (t.get id).map TrustedDevice.vital = (s.trust.get id).map TrustedDevice.vital) :
    Vouched Known { s with trust := t } := by
  refine h.set_trust (fun id d' hd' => ?_) fun id l _ d hd hblocked => ?_
  · have hvital := ht id
    rw [hd', Option.map_some] at hvital
    obtain ⟨d, hd, he⟩ := Option.map_eq_some_iff.1 hvital.symm
    obtain ⟨hid, hkey, _⟩ := TrustedDevice.vital_eq.1 he
    exact ⟨d, hd, hid.symm, hkey.symm⟩
  · have hvital := ht id
    rw [hd, Option.map_some] at hvital
    obtain ⟨d', hd', he⟩ := Option.map_eq_some_iff.1 hvital
    obtain ⟨_, hkey, hb, _⟩ := TrustedDevice.vital_eq.1 he
    exact ⟨d', hd', hb.trans hblocked, hkey⟩

/-- A device is updated in fields it is not known by, and not blocked while it has a session. -/
theorem update (h : s.Vouched Known) (id : DeviceId) (f : TrustedDevice → TrustedDevice) (ok : Bool)
    (hf : ∀ d, (f d).device_id = d.device_id ∧ (f d).public_key = d.public_key)
    (hb : ∀ d, (f d).blocked = d.blocked ∨ (f d).blocked = false ∨ s.link id = none) :
    Vouched Known { s with trust := s.trust.update id f ok } := by
  refine h.set_trust (fun k d' hd' => ?_) fun k l hl d hd hblocked => ?_
  · rw [TrustStore.get_update] at hd'
    split at hd'
    · obtain ⟨d, hd, rfl⟩ := Option.map_eq_some_iff.1 hd'
      exact ⟨d, hd, hf d⟩
    · exact ⟨d', hd', rfl, rfl⟩
  · rw [TrustStore.get_update]
    split
    · next hk =>
        rw [hd]
        refine ⟨f d, rfl, ?_, (hf d).2⟩
        rcases hb d with he | he | he
        · exact he.trans hblocked
        · exact he
        · exact nomatch (hk ▸ he).symm.trans hl
    · exact ⟨d, hd, hblocked, rfl⟩

end Vouched

/-- One move. Blocking, forgetting and installing are the cases with something to check; each of
them carries it. -/
theorem Move.vouched {Known : PublicKey → Prop} (hinj : Distinct Known) {env : Env}
    {opened : List Established} {s₀ s s' : Actor} {event : Event} (hmove : Move env s₀ event s s')
    (hknown : ∀ e ∈ opened, Known e.conn.peer_public_key) (h₀ : s₀.Wired opened)
    (hw : s.Wired opened) (h : s.Vouched Known) : s'.Vouched Known := by
  cases hmove with
  | upkeep hup => exact h.of_trust hup.standing.trust hup.link
  | open_route _ _ _ hs _ => exact h.of_trust hs.standing.trust hs.link
  | trust t ht _ => exact h.set_vital ht
  | judge id blocked ok hl _ =>
      refine h.update id _ ok (fun d => ⟨rfl, rfl⟩) fun d => ?_
      cases blocked with
      | false => exact .inr (.inl rfl)
      | true => exact .inr (.inr (hl rfl))
  | permit peer kind policy _ =>
      exact h.update peer _ _ (fun d => ⟨rfl, rfl⟩) fun d => .inl rfl
  | forget id ok hl _ =>
      refine ⟨fun k d hd => ?_, fun k l hk => ?_⟩
      · dsimp only at hd
        rw [TrustStore.get_remove] at hd
        split at hd
        · cases hd
        · exact h.own k d hd
      · obtain ⟨d, hd, hrest⟩ := h.sessions k l hk
        refine ⟨d, ?_, hrest⟩
        dsimp only
        rw [TrustStore.get_remove, if_neg, hd]
        rintro rfl
        exact nomatch hl.symm.trans hk
  | pair id p hc =>
      obtain ⟨hopened, hid⟩ := h₀.completes hc
      have hkey : Known p.conn.peer_public_key := hknown _ hopened
      refine ⟨fun k d hd => ?_, fun k l hk => ?_⟩
      · dsimp only at hd
        rw [TrustStore.get_upsert] at hd
        split at hd
        · next hk =>
            obtain rfl := Option.some_inj.1 hd
            exact ⟨hk.symm, hid.symm.trans hk.symm, hkey⟩
        · exact h.own k d hd
      · obtain ⟨d, hd, hrest⟩ := h.sessions k l hk
        unfold TrustStore.vouches
        dsimp only
        rw [TrustStore.get_upsert]
        split
        · next he =>
            -- a session with this device is under the key that pairs now
            obtain ⟨e, he', _, hconn, hdev⟩ := hw.sessions k l hk
            refine ⟨_, rfl, rfl, hinj _ _ hkey (hconn ▸ hknown e he') ?_⟩
            exact hid.symm.trans (Eq.trans he.symm hdev)
        · exact ⟨d, hd, hrest⟩
  | drop id session hs _ =>
      refine ⟨h.own, fun k l hk => ?_⟩
      rw [link_of_erase (s := s) rfl] at hk
      split at hk
      · cases hk
      · exact h.sessions k l hk
  | install id est hl hd _ =>
      refine ⟨h.own, fun k l hk => ?_⟩
      rw [link_of_insert (s := s) rfl] at hk
      split at hk
      · next he =>
          obtain rfl := Option.some_inj.1 hk
          rw [he]
          exact hd
      · exact h.sessions k l hk
  | _ => exact ⟨h.own, h.sessions⟩

end Actor

/-- Every state of every run. -/
theorem run_vouched {Known : PublicKey → Prop} (hinj : Distinct Known)
    {tr : List (World × Input)} {w : World} (hr : (engine Known).Run tr w) :
    w.actor.Vouched Known := by
  have hrun : w.Sound Known ∧ w.actor.Vouched Known := by
    refine hr.invariant (P := fun w => w.Sound Known ∧ w.actor.Vouched Known) ?_ ?_
    · rintro w hw
      refine ⟨start_sound hw, ?_⟩
      obtain ⟨identity, trust, settings, hloaded, rfl⟩ := hw
      refine ⟨fun id d hd => ?_, fun id l hl => ?_⟩
      · obtain ⟨hid, hkey⟩ := hloaded.id_of_key id d hd
        exact ⟨hid, hkey, hloaded.known id d hd⟩
      · exact nomatch (congrArg (Option.map Session.link) (Table.get_empty id)).symm.trans hl
    · rintro w i ⟨hs, hv⟩ he
      have hs' := hs.step he
      have hu := hs'.booked.unique
      refine ⟨hs', ?_⟩
      have hboth := (hs.moves i).invariant
        (P := fun a => a.Wired (w.step i).opened ∧ a.Vouched Known)
        (fun a b hmove ⟨hwired, hvouched⟩ =>
          ⟨hmove.wired hu (fun _ hev => World.opened_of_established hev) (hs.met_wired i) hwired,
            hmove.vouched hinj hs'.booked.known (hs.met_wired i) hwired hvouched⟩)
        ⟨hs.met_wired i, hv.own, hv.sessions⟩
      exact hboth.2
  exact hrun.2

/-! ## 2. Who is heard -/

/-- The messages that take part in pairing; they are for connections that are not trusted yet. -/
def Body.pairs : Body → Bool
  | .PairRequest _ | .PairResult _ => true
  | _ => false

namespace Actor

/-- The connection is waiting to pair, is pairing, or is no session's. -/
def Stray (s : Actor) (conn_id : Nat) : Prop :=
  s.unpaired.get conn_id ≠ none ∨ s.pairing_on conn_id ≠ none ∨
    ∀ id session, s.sessions.get id = some session → session.conn_id ≠ conn_id

/-- A message that reaches no session moves nothing. -/
theorem on_control_stray {s : Actor} {conn_id : Nat} (env : Env) {body : Body}
    (hb : body.pairs = false) (hindex : ∀ id, s.conn_index.get conn_id = some id →
      ∃ l, s.link id = some l ∧ l.conn_id = conn_id) (hs : s.Stray conn_id) :
    (s.on_control env conn_id body).routes = s.routes ∧
      (s.on_control env conn_id body).trust = s.trust ∧
      (s.on_control env conn_id body).speakers_muted_by = s.speakers_muted_by := by
  unfold on_control
  split
  · split
    · cases hb
    · exact ⟨rfl, rfl, rfl⟩
  · next hu =>
      split
      · split
        · cases hb
        · exact ⟨rfl, rfl, rfl⟩
      · next hp =>
          split
          · next peer hi =>
              -- an indexed connection is a session's
              obtain ⟨l, hl, hc⟩ := hindex peer hi
              obtain ⟨session, hsession, rfl⟩ := Option.map_eq_some_iff.1 hl
              rcases hs with h | h | h
              · exact absurd hu h
              · exact absurd hp h
              · exact absurd hc (h peer session hsession)
          · exact ⟨rfl, rfl, rfl⟩

end Actor

/-- In every run the index and the session table are inverse to each other, every session is with a
device that is trusted under the very key of its connection and not blocked, and a message on any
other connection moves no route, no permission and no volume. -/
theorem sessions_trusted {Known : PublicKey → Prop} (hinj : Distinct Known)
    {tr : List (World × Input)} {w : World} (hr : (engine Known).Run tr w) :
    (∀ conn_id id, w.actor.conn_index.get conn_id = some id ↔
      ∃ session, w.actor.sessions.get id = some session ∧ session.conn_id = conn_id) ∧
    (∀ id session, w.actor.sessions.get id = some session →
      ∃ device, w.actor.trust.get id = some device ∧ device.blocked = false ∧
        device.public_key = session.conn.peer_public_key) ∧
    (∀ env conn_id body, body.pairs = false → w.actor.Stray conn_id →
      (w.step ⟨env, .Control conn_id body⟩).actor.routes = w.actor.routes ∧
      (w.step ⟨env, .Control conn_id body⟩).actor.trust = w.actor.trust ∧
      (w.step ⟨env, .Control conn_id body⟩).actor.speakers_muted_by =
        w.actor.speakers_muted_by) := by
  have hwired := (run_sound hr).wired
  have hvouched := run_vouched hinj hr
  refine ⟨fun conn_id id => ?_, fun id session hs => ?_, fun env conn_id body hb hs => ?_⟩
  · rw [hwired.index]
    constructor
    · rintro ⟨l, hl, hc⟩
      obtain ⟨session, hsession, rfl⟩ := Option.map_eq_some_iff.1 hl
      exact ⟨session, hsession, hc⟩
    · rintro ⟨session, hsession, hc⟩
      exact ⟨session.link, congrArg (Option.map Session.link) hsession, hc⟩
  · exact hvouched.sessions id session.link (congrArg (Option.map Session.link) hs)
  · exact w.met.on_control_stray env hb (fun id hi => (hwired.index conn_id id).1 hi) hs

end

/-! ## 3. A run -/

namespace Sample

/-- Three Ed25519 keys: this device's, and two of peers. -/
def own_key : PublicKey := ⟨0xd75a980182b10ab7d54bfed3c964073a0ee172f3daa62325af021a68f707511a⟩
def peer_key : PublicKey := ⟨0x3d4017c3e843895a92b70aa74d1b7ebc9c982ccf2ec4968cc0cd55f12af4660c⟩
def other_key : PublicKey := ⟨0xfc51cd8e6218a1a38da47ed00230f0580816ed13ba3303ac5deb911548908025⟩

/-- SHA-256 at these keys; no pairing code is shown in the runs that use it. -/
scoped instance crypto : Crypto where
  sha256 key :=
    if key = own_key then
      ⟨0x21fe31dfa154a261626bf854046fd2271b7bed4b6abe45aa58877ef47f9721b9⟩
    else if key = peer_key then
      ⟨0x39f713d0a644253f04529421b9f51b9b08979d08295959c4f3990ee617f5139f⟩
    else if key = other_key then
      ⟨0xdac073e0123bdea59dd9b3bda9cf6037f63aca82627d7abcd5c4ac29dd74003e⟩
    else ⟨key.bytes⟩
  proof_mac _ _ _ := []

/-- The ids of the two peers, as the source derives them. -/
def peer : DeviceId := ⟨0x39f713d0a644253f04529421b9f51b9b⟩
def other : DeviceId := ⟨0xdac073e0123bdea59dd9b3bda9cf6037⟩

/-- The keys that the runs below meet. -/
def Known (key : PublicKey) : Prop := key = peer_key ∨ key = other_key

/-- Their ids differ. -/
theorem known_distinct : Distinct Known := by
  rintro a b (rfl | rfl) (rfl | rfl) h
  · rfl
  · exact absurd h (by decide)
  · exact absurd h (by decide)
  · rfl

/-- A desktop computer with a virtual microphone. -/
def env : Env :=
  { now := 1000, now_unix := 1000
    platform := "linux"
    supports_loopback := true
    app_audio_source := none
    virtual_mic_target := fun _ => some (.Output "virtual-mic")
    microphone_permitted := true
    virtual_mic_in_use := false
    speakers_supported := true
    inbound_blocked := false
    tcp_listening := true
    monitor_error := none
    trust_saved := true
    settings_saved := true
    rand := fun _ => 0
    token := []
    secret := 0
    local_addresses := []
    counters := fun _ => (0, 0)
    capture_overruns := 0 }

/-- A phone that was paired before. -/
def device (id : DeviceId) (key : PublicKey) (permissions : Permissions) : TrustedDevice :=
  { device_id := id, public_key := key, permissions
    name := "phone", alias_name := none, platform := "android"
    auto_connect := false, blocked := false
    paired_at_unix := 0, last_seen_unix := 0, last_addresses := [] }

/-- The store with both peers, the first with the given permissions. -/
def trust (permissions : Permissions) : TrustStore :=
  let devices := ((∅ : Table DeviceId TrustedDevice).insert peer
    (device peer peer_key permissions)).insert other (device other other_key .default)
  { devices, dirty := false, file := devices }

/-- An engine that has just started. -/
def start (permissions : Permissions) : World :=
  { actor := .start own_key (trust permissions) .default
    calls := [], tasks := [], opened := [], live := [] }

theorem trust_loaded (permissions : Permissions) : (trust permissions).Loaded Known := by
  have hget (id : DeviceId) : (trust permissions).get id =
      if id = other then some (device other other_key .default)
      else if id = peer then some (device peer peer_key permissions) else none := by
    rw [trust, TrustStore.get, Table.get_insert, Table.get_insert, Table.get_empty]
  constructor <;> intro id d hd <;> rw [hget] at hd <;> split at hd
  · next h =>
      obtain rfl := Option.some_inj.1 hd
      subst h
      exact ⟨rfl, by decide⟩
  · split at hd
    · next h =>
        obtain rfl := Option.some_inj.1 hd
        subst h
        exact ⟨rfl, show peer_key.device_id = peer by decide⟩
    · cases hd
  · obtain rfl := Option.some_inj.1 hd
    exact .inr rfl
  · split at hd
    · obtain rfl := Option.some_inj.1 hd
      exact .inl rfl
    · cases hd

theorem start_init (permissions : Permissions) : (engine Known).init (start permissions) :=
  ⟨own_key, trust permissions, .default, trust_loaded permissions, rfl⟩

/-- A connection with the device of a key. -/
def conn (key : PublicKey) : SecureConnection :=
  { peer_public_key := key, remote_address := ⟨.V4 0x0A000002, 7100⟩, exporter := true }

/-- What a phone says of itself. -/
def hello (id : DeviceId) : Hello :=
  { device_id := id, device_name := "phone", platform := "android", capabilities := ⟨0⟩
    resume_token := none }

/-- A peer connects: the transport is done, then the hellos. -/
def connects (conn_id : Nat) (id : DeviceId) (key : PublicKey) : List Input :=
  [⟨env, .Incoming (conn key)⟩,
    ⟨env, .Established { conn_id, conn := conn key, hello := hello id, dialed := false }⟩]

theorem connects_admitted (permissions : Permissions) :
    (engine Known).Admits (start permissions) (connects 1 peer peer_key) := by
  refine ⟨.inl rfl, ⟨⟨_, List.mem_singleton.2 rfl, ?_⟩, ?_⟩, trivial⟩
  · simp [Call.reports]
    rfl
  · decide

end Sample

open Sample in
/-- A peer that connects is the session of its connection, and is trusted; what comes on a
connection that nobody knows leaves the routes alone. -/
theorem sessions_trusted_connected :
    let w := (engine Known).exec (start .default) (connects 1 peer peer_key)
    (∃ session, w.actor.sessions.get peer = some session ∧ session.conn_id = 1) ∧
    (∃ device, w.actor.trust.get peer = some device ∧ device.blocked = false ∧
      device.public_key = peer_key) ∧
    (w.step ⟨env, .Control 7 (.RouteRequest
      { route := 2, source_endpoint := "system", sink_endpoint := "speaker"
        requester_is_source := true, profile := none, replace := false })⟩).actor.routes = [] := by
  intro w
  obtain ⟨hindex, htrust, hstray⟩ := sessions_trusted known_distinct
    (Machine.run_of_admits (start_init .default) (connects_admitted .default))
  obtain ⟨session, hsession, hconn⟩ := (hindex 1 peer).1 (by decide +kernel)
  have hkey :
      (w.actor.sessions.get peer).map (fun s => s.conn.peer_public_key) = some peer_key := by
    decide +kernel
  have hkey : session.conn.peer_public_key = peer_key :=
    Option.some_inj.1 ((congrArg (Option.map _) hsession).symm.trans hkey)
  refine ⟨⟨session, hsession, hconn⟩, ?_, ?_⟩
  · obtain ⟨device, hdevice, hblocked, hsame⟩ := htrust peer session hsession
    exact ⟨device, hdevice, hblocked, hsame.trans hkey⟩
  · refine (hstray env 7 _ rfl (.inr (.inr fun id session hs hid => ?_))).1
    have hseven : w.actor.conn_index.get 7 = some id := (hindex 7 id).2 ⟨session, hs, hid⟩
    have hnone : w.actor.conn_index.get 7 = none := by decide +kernel
    rw [hnone] at hseven
    cases hseven

end SoundPush
