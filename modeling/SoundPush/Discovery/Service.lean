/-
`Service` -- the discovery service and what the engine knows by it
(`sp-discovery/src/service.rs`).

Adverts come in from mDNS, from beacons and from the engine, each over its own queue; the
service merges them and tells the engine what changed, over two more queues. The runtime
takes whichever queue it likes next, so a run is any order of these steps.

Whatever waits on the way, the engine's map is the registry's once it has heard it
(`discovery_mirrored`), a key in it has signed a beacon (`discovery_authentic`), and
what the device says of itself is what its visibility allows (`visibility_kept`).
-/
import SoundPush.Discovery.Beacon
import SoundPush.Discovery.Mdns
import SoundPush.Lib.Mirror

set_option autoImplicit false

namespace SoundPush

open Mirror

/-! ## 1. The service -/

/-- Who may see this device. -/
inductive Visibility where
  /-- name and presence advertised to everyone on the network -/
  | Everyone
  /-- presence advertised without a name -/
  | TrustedOnly
  /-- nothing advertised -/
  | Hidden
  deriving DecidableEq

structure DiscoveryConfig where
  name : String
  platform : String
  port : UInt16
  capabilities : Capabilities
  protocol_max : UInt32
  visibility : Visibility

namespace DiscoveryConfig

variable (config : DiscoveryConfig)

/-- What is to be published; nothing of a hidden device. -/
def record (own : DeviceId) : Option MdnsRecord :=
  if config.visibility = .Hidden then none
  else
    some {
      device_id := own
      name := if config.visibility = .Everyone then some config.name else none
      platform := config.platform
      port := config.port
      capabilities := config.capabilities
      protocol_max := config.protocol_max }

/-- What `send_beacon` encodes. -/
def beacon (own_key : PublicKey) : Beacon where
  public_key := own_key
  port := config.port
  capabilities := config.capabilities
  protocol_max := config.protocol_max
  flags := if config.visibility = .Everyone then 0 else FLAG_NAME_HIDDEN
  platform := config.platform
  name := config.name

end DiscoveryConfig

/-- Publish what the settings allow, or nothing (`publish` of the service). -/
def MdnsAdvertiser.follow (m : MdnsAdvertiser) (own : DeviceId) (config : DiscoveryConfig)
    (answers : MdnsAnswers) : MdnsAdvertiser :=
  match config.record own with
  | none => m.unpublish answers
  | some record => m.publish record answers

inductive DiscoveryCommand where
  | Update (config : DiscoveryConfig)
  | Ingest (advert : PeerAdvert)

structure DiscoveryService where
  identity : PublicKey
  config : DiscoveryConfig
  registry : PeerRegistry
  /-- none where mDNS is unavailable -/
  mdns : Option MdnsAdvertiser
  commands : List DiscoveryCommand
  found : List PeerAdvert
  lost : List DeviceId
  /-- what the engine has not been told yet -/
  events : List DiscoveryEvent

namespace DiscoveryService

variable (s : DiscoveryService)

/-- An advert is merged, and what became visible is told. -/
def merge (advert : PeerAdvert) (now : Nat) : DiscoveryService :=
  let (registry, event) := s.registry.ingest advert now
  { s with registry, events := s.events ++ event.toList }

/-- The next command. -/
def command [Crypto] (now : Nat) (answers : MdnsAnswers) : DiscoveryService :=
  match s.commands with
  | [] => s
  | .Update config :: commands =>
      { s with
        config, commands
        mdns := s.mdns.map fun m => m.follow s.identity.device_id config answers }
  | .Ingest advert :: commands => { s with commands }.merge advert now

def take_found (now : Nat) : DiscoveryService :=
  match s.found with
  | [] => s
  | advert :: found => { s with found }.merge advert now

def take_lost : DiscoveryService :=
  match s.lost with
  | [] => s
  | id :: lost =>
      let (registry, event) := s.registry.remove id
      { s with registry, lost, events := s.events ++ event.toList }

def sweep_tick (now : Nat) : DiscoveryService :=
  let (registry, lost) := s.registry.sweep now
  { s with registry, events := s.events ++ lost }

/-- The datagram of a beacon tick. -/
def beacon_tick [Signatures] : Option Bytes :=
  if s.config.visibility = .Hidden then none
  else some ((s.config.beacon s.identity).encode s.identity)

/-- What the beacon task makes of a datagram. -/
def hear [Signatures] [Crypto] (data : Bytes) (sender : IpAddr) : DiscoveryService :=
  match Beacon.decode data with
  | .error _ => s
  | .ok b =>
      { s with
        found := s.found ++ [{
          device_id := b.public_key.device_id
          public_key := some b.public_key
          name := b.name
          platform := b.platform
          addresses := [.new sender b.port]
          capabilities := b.capabilities
          protocol_max := b.protocol_max.toNat
          source := .Beacon }] }

/-- What the browser makes of a service that was resolved. -/
def resolved (info : ServiceInfo) : DiscoveryService :=
  { s with found := s.found ++ (advert_from_info info).toList }

def removed (fullname : String) : DiscoveryService :=
  { s with lost := s.lost ++ (removed_id fullname).toList }

end DiscoveryService

/-! ## 2. The engine's side -/

/-- What a word from discovery does to the devices that the engine knows of. -/
def on_discovery (discovered : Table DeviceId PeerAdvert) :
    DiscoveryEvent → Table DeviceId PeerAdvert
  | .Updated advert => discovered.insert advert.device_id advert
  | .Lost id => discovered.erase id

/-- An advert without an address. -/
def PeerAdvert.forget (addr : ScopedAddr) (a : PeerAdvert) : PeerAdvert :=
  { a with addresses := a.addresses.filter (· ≠ addr) }

/-- Forget an address that turned out to be this device. -/
def forget_own (addr : ScopedAddr) (discovered : Table DeviceId PeerAdvert) :
    Table DeviceId PeerAdvert :=
  discovered.map_values fun _ a => a.forget addr

/-! ## 3. Runs -/

/-- What has happened so far. -/
structure DiscoveryLog where
  clock : Nat
  /-- when the registry was last swept -/
  swept : Option Nat
  /-- the datagrams that came in -/
  heard : List Bytes
  /-- the adverts that the engine brought -/
  brought : List PeerAdvert
  /-- addresses that turned out to be this device -/
  own : List ScopedAddr
  /-- the datagrams that went out, with the visibility of that moment -/
  sent : List (Visibility × Bytes)

structure DiscoveryState where
  service : DiscoveryService
  /-- words that the engine has in its queue -/
  inbox : List DiscoveryEvent
  discovered : Table DeviceId PeerAdvert
  log : DiscoveryLog

inductive DiscoveryAct where
  /-- the engine's calls -/
  | Update (config : DiscoveryConfig)
  | Ingest (advert : PeerAdvert)
  /-- the network's words -/
  | Heard (data : Bytes) (sender : IpAddr)
  | Resolved (info : ServiceInfo)
  | Removed (fullname : String)
  /-- the service's turns -/
  | Command (now : Nat) (answers : MdnsAnswers)
  | Found (now : Nat)
  | Lost
  | Beacon
  | Sweep (now : Nat)
  /-- a word goes on to the engine's queue -/
  | Forward
  /-- the engine's turns -/
  | Deliver
  | AddressIsSelf (addr : ScopedAddr)

namespace DiscoveryAct

def time : DiscoveryAct → Option Nat
  | .Command now _ | .Found now | .Sweep now => some now
  | _ => none

end DiscoveryAct

namespace DiscoveryState

variable [Signatures] [Crypto]

/-- The service at its start; `mdns` is what the daemon answers, if there is one. -/
def start (identity : PublicKey) (config : DiscoveryConfig) (mdns : Option MdnsAnswers) :
    DiscoveryState where
  service := {
    identity, config
    registry := .new identity.device_id
    mdns := mdns.map fun answers =>
      MdnsAdvertiser.new.follow identity.device_id config answers
    commands := [], found := [], lost := [], events := [] }
  inbox := []
  discovered := ∅
  log := { clock := 0, swept := none, heard := [], brought := [], own := [], sent := [] }

/-- The engine takes a word. -/
def deliver (s : DiscoveryState) : DiscoveryState :=
  match s.inbox with
  | [] => s
  | event :: inbox => { s with inbox, discovered := on_discovery s.discovered event }

def step (s : DiscoveryState) (act : DiscoveryAct) : DiscoveryState :=
  let s := { s with log := { s.log with clock := act.time.getD s.log.clock } }
  match act with
  | .Update config =>
      { s with service := { s.service with commands := s.service.commands ++ [.Update config] } }
  | .Ingest advert =>
      { s with
        service := { s.service with commands := s.service.commands ++ [.Ingest advert] }
        log := { s.log with brought := advert :: s.log.brought } }
  | .Heard data sender =>
      { s with
        service := s.service.hear data sender
        log := { s.log with heard := data :: s.log.heard } }
  | .Resolved info => { s with service := s.service.resolved info }
  | .Removed fullname => { s with service := s.service.removed fullname }
  | .Command now answers => { s with service := s.service.command now answers }
  | .Found now => { s with service := s.service.take_found now }
  | .Lost => { s with service := s.service.take_lost }
  | .Beacon =>
      { s with
        log := { s.log with
          sent := (s.service.beacon_tick.map (s.service.config.visibility, ·)).toList ++
            s.log.sent } }
  | .Sweep now =>
      { s with service := s.service.sweep_tick now, log := { s.log with swept := some now } }
  | .Forward =>
      { s with
        service := { s.service with events := s.service.events.tail }
        inbox := s.inbox ++ s.service.events.head?.toList }
  | .Deliver => s.deliver
  | .AddressIsSelf addr =>
      { s with
        discovered := forget_own addr s.discovered
        log := { s.log with own := addr :: s.log.own } }

/-- Time does not go back. -/
def enabled (s : DiscoveryState) (act : DiscoveryAct) : Prop :=
  ∀ now, act.time = some now → s.log.clock ≤ now

omit [Signatures] [Crypto] in
theorem enabled_untimed {s : DiscoveryState} {act : DiscoveryAct} (h : act.time = none) :
    s.enabled act := by
  intro now hnow
  rw [h] at hnow
  cases hnow

end DiscoveryState

/-- The discovery of a device. -/
def discovery [Signatures] [Crypto] (identity : PublicKey) :
    Machine DiscoveryState DiscoveryAct where
  init s := ∃ config mdns, s = .start identity config mdns
  enabled := DiscoveryState.enabled
  step := DiscoveryState.step

/-! ## 4. What the registry tells -/

/-- What a word from discovery says of the devices there are. -/
def heed (known : DeviceId → Option PeerAdvert) : DiscoveryEvent → DeviceId → Option PeerAdvert
  | .Updated advert => Function.update known advert.device_id (some advert)
  | .Lost id => Function.update known id none

namespace PeerRegistry

variable {r : PeerRegistry} {advert : PeerAdvert} {now : Nat} {id : DeviceId}

/-- Every advert is kept under the id of its device. -/
def Named (r : PeerRegistry) : Prop := ∀ id a, r.get id = some a → a.device_id = id

theorem updated_device_id (h : r.Named) : (r.updated advert).device_id = advert.device_id := by
  unfold updated
  cases hget : r.get advert.device_id with
  | none => rfl
  | some a => exact h _ a hget

theorem ingest_leads (h : r.Named) :
    Leads heed (r.ingest advert now).2.toList r.get (r.ingest advert now).1.get := by
  by_cases hown : some advert.device_id = r.own
  · rw [ingest_own hown]
    exact .nil
  · have hafter : (r.ingest advert now).1.get =
        Function.update r.get advert.device_id (some (r.updated advert)) := by
      funext id
      rw [get_ingest hown, Function.update_apply]
    rw [hafter, ingest_eq hown]
    by_cases hsame : r.get advert.device_id = some (r.updated advert)
    · -- nothing new, and nothing to tell
      rw [if_pos hsame, ← hsame, Function.update_eq_self]
      exact .nil
    · rw [if_neg hsame, ← updated_device_id h]
      exact .one

theorem ingest_named (h : r.Named) : (r.ingest advert now).1.Named := by
  intro id a ha
  by_cases hown : some advert.device_id = r.own
  · rw [ingest_own hown] at ha
    exact h id a ha
  · rw [get_ingest hown] at ha
    split at ha
    · next hid =>
        rw [← Option.some_inj.1 ha, updated_device_id h, hid]
    · exact h id a ha

theorem ingest_registry_own : (r.ingest advert now).1.own = r.own := by
  by_cases hown : some advert.device_id = r.own
  · rw [ingest_own hown]
  · rw [ingest_eq hown]

theorem get_remove (k : DeviceId) :
    (r.remove id).1.get k = if k = id then none else r.get k := by
  unfold remove get
  rw [Table.get_erase]
  split <;> rfl

theorem remove_leads : Leads heed (r.remove id).2.toList r.get (r.remove id).1.get := by
  have hafter : (r.remove id).1.get = Function.update r.get id none := by
    funext k
    rw [get_remove, Function.update_apply]
  rw [hafter]
  unfold remove
  cases hget : r.peers.get id with
  | none =>
      have hnone : r.get id = none := by
        unfold get
        rw [hget, Option.map_none]
      rw [Option.map_none, ← hnone, Function.update_eq_self]
      exact .nil
  | some entry => exact .one

/-- The peers that a sweep at `now` expires. -/
def stale (r : PeerRegistry) (now : Nat) : List DeviceId :=
  (r.peers.pairs.filter fun e => PEER_TTL < now - e.2.last_seen).map Prod.fst

/-- Taking peers out one by one, with the words for it so far. -/
def remove_each (ids : List DeviceId) (st : PeerRegistry × List DiscoveryEvent) :
    PeerRegistry × List DiscoveryEvent :=
  ids.foldl (fun (r, lost) id =>
    let (r, event) := r.remove id
    (r, lost ++ event.toList)) st

theorem sweep_eq (r : PeerRegistry) (now : Nat) : r.sweep now = remove_each (r.stale now) (r, []) :=
  rfl

theorem remove_each_leads (ids : List DeviceId) {lost : List DiscoveryEvent}
    {known : DeviceId → Option PeerAdvert} (h : Leads heed lost known r.get) :
    Leads heed (remove_each ids (r, lost)).2 known (remove_each ids (r, lost)).1.get := by
  induction ids generalizing r lost with
  | nil => exact h
  | cons id ids ih => exact ih (h.trans remove_leads)

theorem peers_remove_each (ids : List DeviceId) {lost : List DiscoveryEvent} (k : DeviceId) :
    (remove_each ids (r, lost)).1.peers.get k = if k ∈ ids then none else r.peers.get k := by
  induction ids generalizing r lost with
  | nil => rw [if_neg List.not_mem_nil]; rfl
  | cons id ids ih =>
      refine ih.trans ?_
      show (if k ∈ ids then none else (r.peers.erase id).get k) = _
      rw [Table.get_erase]
      by_cases hk : k = id
      · rw [if_pos hk, ite_self, if_pos (List.mem_cons.2 (.inl hk))]
      · rw [if_neg hk]
        simp only [List.mem_cons, hk, false_or]

theorem remove_each_own (ids : List DeviceId) {lost : List DiscoveryEvent} :
    (remove_each ids (r, lost)).1.own = r.own := by
  induction ids generalizing r lost with
  | nil => rfl
  | cons id ids ih => exact ih

theorem sweep_leads : Leads heed (r.sweep now).2 r.get (r.sweep now).1.get :=
  remove_each_leads _ .nil

/-- A sweep tells of losses only. -/
theorem updated_not_mem_sweep (a : PeerAdvert) : DiscoveryEvent.Updated a ∉ (r.sweep now).2 := by
  have heach (ids : List DeviceId) {r : PeerRegistry} {lost : List DiscoveryEvent}
      (h : DiscoveryEvent.Updated a ∉ lost) :
      DiscoveryEvent.Updated a ∉ (remove_each ids (r, lost)).2 := by
    induction ids generalizing r lost with
    | nil => exact h
    | cons id ids ih =>
        refine ih fun hmem => ?_
        rcases List.mem_append.1 hmem with hmem | hmem
        · exact h hmem
        · simp at hmem
  exact heach _ List.not_mem_nil

theorem mem_stale {entry : PeerEntry} (h : r.peers.get id = some entry) :
    id ∈ r.stale now ↔ entry.last_seen + PEER_TTL < now := by
  unfold stale
  simp only [List.mem_map, List.mem_filter, decide_eq_true_eq]
  constructor
  · rintro ⟨⟨k, e⟩, ⟨he, hlate⟩, rfl⟩
    obtain rfl := Option.some_inj.1 (h.symm.trans (Table.get_eq_some_iff.2 he))
    dsimp only at hlate
    omega
  · intro hlate
    have hsilent : PEER_TTL < now - entry.last_seen := by omega
    exact ⟨(id, entry), ⟨Table.get_eq_some_iff.1 h, hsilent⟩, rfl⟩

/-- A sweep takes out those that have been silent for too long, and no others. -/
theorem peers_sweep {entry : PeerEntry} :
    (r.sweep now).1.peers.get id = some entry ↔
      r.peers.get id = some entry ∧ now ≤ entry.last_seen + PEER_TTL := by
  rw [sweep_eq, peers_remove_each]
  constructor
  · intro h
    split at h
    · cases h
    · next hstale =>
        have := mt (mem_stale h).2 hstale
        exact ⟨h, by omega⟩
  · rintro ⟨h, hfresh⟩
    rw [if_neg, h]
    intro hstale
    have := (mem_stale h).1 hstale
    omega

/-- An advert's device is seen now, the others when they were. -/
theorem peers_ingest {entry : PeerEntry}
    (h : (r.ingest advert now).1.peers.get id = some entry) :
    entry.last_seen = now ∨ r.peers.get id = some entry := by
  by_cases hown : some advert.device_id = r.own
  · rw [ingest_own hown] at h
    exact .inr h
  · rw [ingest_eq hown] at h
    dsimp only at h
    rw [Table.get_insert] at h
    split at h
    · obtain rfl := Option.some_inj.1 h
      exact .inl rfl
    · exact .inr h

theorem get_sweep_none (h : r.get id = none) : (r.sweep now).1.get id = none := by
  cases hget : (r.sweep now).1.get id with
  | none => rfl
  | some a => exact absurd (h.symm.trans (get_of_get_sweep hget)) (Option.some_ne_none a).symm

end PeerRegistry

namespace DiscoveryService

variable {s t : DiscoveryService} {now : Nat}

/-- What a turn does to the registry, and what it tells. -/
inductive Does (s : DiscoveryService) (now : Nat) : PeerRegistry → List DiscoveryEvent → Prop
  | nothing : Does s now s.registry []
  | ingest (advert : PeerAdvert)
      (h : advert ∈ s.found ∨ DiscoveryCommand.Ingest advert ∈ s.commands) :
      Does s now (s.registry.ingest advert now).1 (s.registry.ingest advert now).2.toList
  | remove (id : DeviceId) : Does s now (s.registry.remove id).1 (s.registry.remove id).2.toList
  | sweep : Does s now (s.registry.sweep now).1 (s.registry.sweep now).2

/-- A turn of the service at the time `now`. -/
structure Turn (s : DiscoveryService) (now : Nat) (t : DiscoveryService) : Prop where
  identity : t.identity = s.identity
  does : ∃ told, s.Does now t.registry told ∧ t.events = s.events ++ told
  found : t.found ⊆ s.found
  commands : t.commands ⊆ s.commands

theorem Turn.refl (s : DiscoveryService) (now : Nat) : s.Turn now s :=
  ⟨rfl, ⟨[], .nothing, (List.append_nil _).symm⟩, List.Subset.refl _, List.Subset.refl _⟩

theorem command_turn [Crypto] (s : DiscoveryService) (now : Nat) (answers : MdnsAnswers) :
    s.Turn now (s.command now answers) := by
  unfold command
  split
  · exact .refl s now
  · next config commands hcommands =>
      refine ⟨rfl, ⟨[], .nothing, (List.append_nil _).symm⟩, List.Subset.refl _, ?_⟩
      rw [hcommands]
      exact List.subset_cons_self _ _
  · next advert commands hcommands =>
      refine ⟨rfl, ⟨_, .ingest advert (.inr ?_), rfl⟩, List.Subset.refl _, ?_⟩
      · rw [hcommands]
        exact List.mem_cons_self
      · rw [hcommands]
        exact List.subset_cons_self _ _

theorem take_found_turn (s : DiscoveryService) (now : Nat) : s.Turn now (s.take_found now) := by
  unfold take_found
  split
  · exact .refl s now
  · next advert found hfound =>
      refine ⟨rfl, ⟨_, .ingest advert (.inl ?_), rfl⟩, ?_, List.Subset.refl _⟩
      · rw [hfound]
        exact List.mem_cons_self
      · rw [hfound]
        exact List.subset_cons_self _ _

theorem take_lost_turn (s : DiscoveryService) (now : Nat) : s.Turn now s.take_lost := by
  unfold take_lost
  split
  · exact .refl s now
  · next id lost _ =>
      exact ⟨rfl, ⟨_, .remove id, rfl⟩, List.Subset.refl _, List.Subset.refl _⟩

theorem sweep_tick_turn (s : DiscoveryService) (now : Nat) : s.Turn now (s.sweep_tick now) :=
  ⟨rfl, ⟨_, .sweep, rfl⟩, List.Subset.refl _, List.Subset.refl _⟩

end DiscoveryService

/-! ## 5. The engine's map -/

/-- An advert without the addresses `own`. -/
def PeerAdvert.without (own : List ScopedAddr) (a : PeerAdvert) : PeerAdvert :=
  { a with addresses := a.addresses.filter (· ∉ own) }

/-- The same device or none, but for addresses that turned out to be this device. -/
def Trimmed (own : List ScopedAddr) (a b : Option PeerAdvert) : Prop :=
  ∃ gone ⊆ own, b = a.map (PeerAdvert.without gone)

section
variable {own own' : List ScopedAddr} {a b : Option PeerAdvert}

theorem Trimmed.none : Trimmed own none none := ⟨[], List.nil_subset _, rfl⟩

theorem Trimmed.some (advert : PeerAdvert) : Trimmed own (some advert) (some advert) := by
  refine ⟨[], List.nil_subset _, ?_⟩
  have hall : advert.without [] = advert := by
    unfold PeerAdvert.without
    simp
  rw [Option.map_some, hall]

theorem Trimmed.mono (h : Trimmed own a b) (hsub : own ⊆ own') : Trimmed own' a b := by
  obtain ⟨gone, hgone, hb⟩ := h
  exact ⟨gone, List.Subset.trans hgone hsub, hb⟩

theorem without_forget (gone : List ScopedAddr) (addr : ScopedAddr) (advert : PeerAdvert) :
    (advert.without gone).forget addr = advert.without (addr :: gone) := by
  unfold PeerAdvert.forget PeerAdvert.without
  dsimp only
  rw [List.filter_filter]
  refine congrArg (fun addresses => { advert with addresses }) (List.filter_congr fun x _ => ?_)
  simp

theorem Trimmed.forget (h : Trimmed own a b) (addr : ScopedAddr) :
    Trimmed (addr :: own) a (b.map (PeerAdvert.forget addr)) := by
  obtain ⟨gone, hgone, rfl⟩ := h
  refine ⟨addr :: gone, List.cons_subset_cons addr hgone, ?_⟩
  rw [Option.map_map]
  refine congrArg (fun f => a.map f) (funext fun advert => ?_)
  exact without_forget gone addr advert

/-- The engine knows what it has been told, but for its own addresses. -/
def Reflects (own : List ScopedAddr) (known : DeviceId → Option PeerAdvert)
    (discovered : Table DeviceId PeerAdvert) : Prop :=
  ∀ id, Trimmed own (known id) (discovered.get id)

theorem Reflects.follow {known : DeviceId → Option PeerAdvert}
    {discovered : Table DeviceId PeerAdvert} {event : DiscoveryEvent}
    (h : Reflects own known discovered) :
    Reflects own (heed known event) (on_discovery discovered event) := by
  intro id
  cases event with
  | Updated advert =>
      unfold heed on_discovery
      dsimp only
      rw [Function.update_apply, Table.get_insert]
      split
      · exact .some advert
      · exact h id
  | Lost k =>
      unfold heed on_discovery
      dsimp only
      rw [Function.update_apply, Table.get_erase]
      split
      · exact .none
      · exact h id

theorem Reflects.forget {known : DeviceId → Option PeerAdvert}
    {discovered : Table DeviceId PeerAdvert} (h : Reflects own known discovered)
    (addr : ScopedAddr) : Reflects (addr :: own) known (forget_own addr discovered) := by
  intro id
  unfold forget_own
  rw [Table.get_map_values]
  exact (h id).forget addr

end

namespace DiscoveryState

variable [Signatures] [Crypto] {identity : PublicKey} {s : DiscoveryState} {act : DiscoveryAct}

/-- The words that the engine has not taken yet. -/
def pending (s : DiscoveryState) : List DiscoveryEvent := s.inbox ++ s.service.events

/-- What holds between the registry, the words on their way and the engine's map. -/
structure Mirrored (identity : PublicKey) (s : DiscoveryState) : Prop where
  key : s.service.identity = identity
  own : s.service.registry.own = some identity.device_id
  absent : s.service.registry.get identity.device_id = none
  named : s.service.registry.Named
  told : ∃ known, Leads heed s.pending known s.service.registry.get ∧
    Reflects s.log.own known s.discovered

omit [Signatures] [Crypto] in
/-- A turn keeps the registry's shape, and tells all that it changes. -/
theorem does_leads {service : DiscoveryService} {now : Nat} {registry : PeerRegistry}
    {told : List DiscoveryEvent} {id : DeviceId} (hdoes : service.Does now registry told)
    (hown : service.registry.own = some id) (habsent : service.registry.get id = none)
    (hnamed : service.registry.Named) :
    registry.own = some id ∧ registry.get id = none ∧ registry.Named ∧
      Leads heed told service.registry.get registry.get := by
  cases hdoes with
  | nothing => exact ⟨hown, habsent, hnamed, .nil⟩
  | ingest advert _ =>
      refine ⟨PeerRegistry.ingest_registry_own.trans hown, ?_, PeerRegistry.ingest_named hnamed,
        PeerRegistry.ingest_leads hnamed⟩
      by_cases hself : some advert.device_id = service.registry.own
      · rw [PeerRegistry.ingest_own hself]
        exact habsent
      · rw [PeerRegistry.get_ingest hself, if_neg, habsent]
        rintro rfl
        exact hself hown.symm
  | remove k =>
      refine ⟨hown, ?_, fun i a ha => hnamed i a (PeerRegistry.get_of_get_remove ha),
        PeerRegistry.remove_leads⟩
      rw [PeerRegistry.get_remove, habsent, ite_self]
  | sweep =>
      exact ⟨(PeerRegistry.remove_each_own _).trans hown, PeerRegistry.get_sweep_none habsent,
        fun i a ha => hnamed i a (PeerRegistry.get_of_get_sweep ha), PeerRegistry.sweep_leads⟩

omit [Signatures] in
theorem Mirrored.turn {t : DiscoveryState} {now : Nat} (h : s.Mirrored identity)
    (hturn : s.service.Turn now t.service) (hinbox : t.inbox = s.inbox)
    (hdiscovered : t.discovered = s.discovered) (hlog : t.log.own = s.log.own) :
    t.Mirrored identity := by
  obtain ⟨known, hknown, hreflects⟩ := h.told
  obtain ⟨told, hdoes, hevents⟩ := hturn.does
  obtain ⟨hown, habsent, hnamed, hleads⟩ := does_leads hdoes h.own h.absent h.named
  refine ⟨hturn.identity.trans h.key, hown, habsent, hnamed, known, ?_, ?_⟩
  · unfold pending at hknown ⊢
    rw [hinbox, hevents, ← List.append_assoc]
    exact hknown.trans hleads
  · rw [hlog, hdiscovered]
    exact hreflects

omit [Signatures] in
/-- Nothing happens to the registry or to what is told. -/
theorem Mirrored.same {t : DiscoveryState} (h : s.Mirrored identity)
    (hidentity : t.service.identity = s.service.identity)
    (hregistry : t.service.registry = s.service.registry) (hpending : t.pending = s.pending)
    (hdiscovered : t.discovered = s.discovered) (hlog : t.log.own = s.log.own) :
    t.Mirrored identity := by
  obtain ⟨known, hknown, hreflects⟩ := h.told
  refine ⟨hidentity.trans h.key, ?_, ?_, ?_, known, ?_, ?_⟩
  · rw [hregistry]
    exact h.own
  · rw [hregistry]
    exact h.absent
  · rw [hregistry]
    exact h.named
  · rw [hpending, hregistry]
    exact hknown
  · rw [hlog, hdiscovered]
    exact hreflects

omit [Crypto] in
theorem hear_same [Crypto] (service : DiscoveryService) (data : Bytes) (sender : IpAddr) :
    (service.hear data sender).identity = service.identity ∧
      (service.hear data sender).registry = service.registry ∧
      (service.hear data sender).events = service.events := by
  unfold DiscoveryService.hear
  split <;> exact ⟨rfl, rfl, rfl⟩

omit [Signatures] in
theorem Mirrored.deliver (h : s.Mirrored identity) : s.deliver.Mirrored identity := by
  unfold DiscoveryState.deliver
  split
  · exact h
  · next event inbox hinbox =>
      obtain ⟨known, hknown, hreflects⟩ := h.told
      unfold pending at hknown
      rw [hinbox, List.cons_append] at hknown
      exact ⟨h.key, h.own, h.absent, h.named, _, hknown.take, hreflects.follow⟩

theorem Mirrored.step (h : s.Mirrored identity) (act : DiscoveryAct) :
    (s.step act).Mirrored identity := by
  have hclock : DiscoveryState.Mirrored identity
      { s with log := { s.log with clock := act.time.getD s.log.clock } } :=
    h.same rfl rfl rfl rfl rfl
  cases act with
  | Heard data sender =>
      obtain ⟨hidentity, hregistry, hevents⟩ := hear_same s.service data sender
      exact h.same hidentity hregistry (congrArg (s.inbox ++ ·) hevents) rfl rfl
  | Command now answers => exact h.turn (s.service.command_turn now answers) rfl rfl rfl
  | Found now => exact h.turn (s.service.take_found_turn now) rfl rfl rfl
  | Lost => exact h.turn (s.service.take_lost_turn 0) rfl rfl rfl
  | Sweep now => exact h.turn (s.service.sweep_tick_turn now) rfl rfl rfl
  | Forward =>
      refine h.same rfl rfl ?_ rfl rfl
      show s.inbox ++ s.service.events.head?.toList ++ s.service.events.tail =
        s.inbox ++ s.service.events
      rw [List.append_assoc]
      cases s.service.events <;> rfl
  | Deliver => exact hclock.deliver
  | AddressIsSelf addr =>
      obtain ⟨known, hknown, hreflects⟩ := h.told
      exact ⟨h.key, h.own, h.absent, h.named, known, hknown, hreflects.forget addr⟩
  | _ => exact h.same rfl rfl rfl rfl rfl

theorem run_mirrored (hs : (discovery identity).Reachable s) : s.Mirrored identity := by
  refine hs.invariant ?_ fun s act h _ => h.step act
  rintro s ⟨config, mdns, rfl⟩
  exact ⟨rfl, rfl, rfl, fun id a ha => (Option.some_ne_none a ha.symm).elim, fun _ => none, .nil,
    fun id => .none⟩

/-! ## 6. Times -/

/-- Who is in the registry was heard of lately enough when it was last swept. -/
structure Timely (s : DiscoveryState) : Prop where
  seen : ∀ id entry, s.service.registry.peers.get id = some entry →
    entry.last_seen ≤ s.log.clock ∧ ∀ t ∈ s.log.swept, t ≤ entry.last_seen + PEER_TTL
  swept : ∀ t ∈ s.log.swept, t ≤ s.log.clock

omit [Signatures] [Crypto] in
theorem Timely.turn {t : DiscoveryState} {now : Nat} (h : s.Timely)
    (hturn : s.service.Turn now t.service) (hnow : s.log.clock ≤ now) (hclock : t.log.clock = now)
    (hswept : t.log.swept = s.log.swept) : t.Timely := by
  have hold (id : DeviceId) (entry : PeerEntry)
      (hentry : s.service.registry.peers.get id = some entry) :
      entry.last_seen ≤ t.log.clock ∧ ∀ u ∈ t.log.swept, u ≤ entry.last_seen + PEER_TTL := by
    obtain ⟨hseen, hlate⟩ := h.seen id entry hentry
    rw [hclock, hswept]
    exact ⟨hseen.trans hnow, hlate⟩
  constructor
  · intro id entry hentry
    obtain ⟨told, hdoes, _⟩ := hturn.does
    generalize t.service.registry = registry at hentry hdoes
    cases hdoes with
    | nothing => exact hold id entry hentry
    | ingest advert _ =>
        rcases PeerRegistry.peers_ingest hentry with hseen | hentry
        · rw [hseen, hclock, hswept]
          refine ⟨le_rfl, fun u hu => ?_⟩
          have := h.swept u hu
          omega
        · exact hold id entry hentry
    | remove k => exact hold id entry (Table.get_of_get_erase hentry).2
    | sweep => exact hold id entry (PeerRegistry.peers_sweep.1 hentry).1
  · rw [hswept, hclock]
    exact fun u hu => (h.swept u hu).trans hnow

omit [Signatures] [Crypto] in
theorem Timely.same {t : DiscoveryState} (h : s.Timely)
    (hregistry : t.service.registry = s.service.registry) (hclock : t.log.clock = s.log.clock)
    (hswept : t.log.swept = s.log.swept) : t.Timely := by
  refine ⟨?_, ?_⟩
  · rw [hregistry, hclock, hswept]
    exact h.seen
  · rw [hclock, hswept]
    exact h.swept

theorem Timely.step (h : s.Timely) (hact : s.enabled act) : (s.step act).Timely := by
  cases act with
  | Heard data sender => exact h.same (hear_same s.service data sender).2.1 rfl rfl
  | Command now answers =>
      exact h.turn (s.service.command_turn now answers) (hact now rfl) rfl rfl
  | Found now => exact h.turn (s.service.take_found_turn now) (hact now rfl) rfl rfl
  | Lost => exact h.turn (s.service.take_lost_turn s.log.clock) le_rfl rfl rfl
  | Sweep now =>
      have hnow := hact now rfl
      refine ⟨fun id entry hentry => ?_, ?_⟩
      · obtain ⟨hentry, hfresh⟩ := PeerRegistry.peers_sweep.1 hentry
        refine ⟨(h.seen id entry hentry).1.trans hnow, ?_⟩
        rintro u ⟨rfl⟩
        exact hfresh
      · rintro u ⟨rfl⟩
        exact le_rfl
  | Deliver =>
      have hsame : (s.step .Deliver).service = s.service ∧ (s.step .Deliver).log = s.log := by
        show (deliver _).service = _ ∧ (deliver _).log = _
        unfold deliver
        split <;> exact ⟨rfl, rfl⟩
      exact h.same (congrArg _ hsame.1) (congrArg _ hsame.2) (congrArg _ hsame.2)
  | _ => exact h.same rfl rfl rfl

theorem run_timely (hs : (discovery identity).Reachable s) : s.Timely := by
  refine hs.invariant ?_ fun s act h hact => h.step hact
  rintro s ⟨config, mdns, rfl⟩
  refine ⟨fun id entry hentry => ?_, fun u hu => ?_⟩
  · cases hentry
  · cases hu

/-! ## 7. Keys -/

/-- A datagram with a signature by a key. -/
def SignedBy (key : PublicKey) (data : Bytes) : Prop :=
  ∃ body sig, data = body ++ sig ∧ sig.length = 64 ∧
    Signatures.verify_signature key body sig = true

/-- The key in an advert is its device's and has signed a datagram that came in, or the engine has
brought it. -/
def Attested (log : DiscoveryLog) (a : PeerAdvert) : Prop :=
  ∀ key, a.public_key = some key →
    (key.device_id = a.device_id ∧ ∃ data ∈ log.heard, SignedBy key data) ∨
      ∃ b ∈ log.brought, b.device_id = a.device_id ∧ b.public_key = some key

theorem Attested.mono {log log' : DiscoveryLog} {a : PeerAdvert} (h : Attested log a)
    (hheard : log.heard ⊆ log'.heard) (hbrought : log.brought ⊆ log'.brought) :
    Attested log' a := by
  intro key hkey
  rcases h key hkey with ⟨hid, data, hdata, hsigned⟩ | ⟨b, hb, hsame⟩
  · exact .inl ⟨hid, data, hheard hdata, hsigned⟩
  · exact .inr ⟨b, hbrought hb, hsame⟩

theorem Attested.brought {log : DiscoveryLog} {a : PeerAdvert} (h : a ∈ log.brought) :
    Attested log a := fun _ hkey => .inr ⟨a, h, rfl, hkey⟩

theorem Attested.keyless {log : DiscoveryLog} {a : PeerAdvert} (h : a.public_key = none) :
    Attested log a := fun key hkey => absurd (h.symm.trans hkey) (Option.some_ne_none key).symm

/-- A key that is known of a device stays. -/
theorem Attested.updated {log : DiscoveryLog} {r : PeerRegistry} {advert : PeerAdvert}
    (hnamed : r.Named) (hr : ∀ id a, r.get id = some a → Attested log a)
    (h : Attested log advert) : Attested log (r.updated advert) := by
  intro key hkey
  rw [PeerRegistry.updated_device_id hnamed]
  unfold PeerRegistry.updated at hkey
  cases hget : r.get advert.device_id with
  | none =>
      rw [hget] at hkey
      exact h key hkey
  | some a =>
      rw [hget] at hkey
      have hid := hnamed _ a hget
      cases hknown : a.public_key with
      | some known =>
          have hsame : some known = some key := by
            rw [← hkey]
            simp [PeerAdvert.merge, hknown]
          obtain rfl := Option.some_inj.1 hsame
          exact hid ▸ hr _ a hget known hknown
      | none =>
          have hsame : advert.public_key = some key := by
            rw [← hkey]
            simp [PeerAdvert.merge, hknown]
          exact h key hsame

/-- Every advert on its way is attested, and so is what is known. -/
structure Vouched (s : DiscoveryState) : Prop where
  found : ∀ a ∈ s.service.found, Attested s.log a
  commands : ∀ a, DiscoveryCommand.Ingest a ∈ s.service.commands → a ∈ s.log.brought
  named : s.service.registry.Named
  registry : ∀ id a, s.service.registry.get id = some a → Attested s.log a
  pending : ∀ a, DiscoveryEvent.Updated a ∈ s.pending → Attested s.log a
  discovered : ∀ id a, s.discovered.get id = some a → a.device_id = id ∧ Attested s.log a

/-- What a turn tells, and what the registry then holds. -/
theorem Vouched.does (h : s.Vouched) {now : Nat} {registry : PeerRegistry}
    {told : List DiscoveryEvent} (hdoes : s.service.Does now registry told) :
    registry.Named ∧ (∀ id a, registry.get id = some a → Attested s.log a) ∧
      ∀ a, DiscoveryEvent.Updated a ∈ told → Attested s.log a := by
  cases hdoes with
  | nothing => exact ⟨h.named, h.registry, fun a ha => absurd ha List.not_mem_nil⟩
  | ingest advert hadvert =>
      -- Told on the network, or brought by the engine: either way the record is attested, and
      -- merging it with the one held keeps that.
      have hattested : Attested s.log advert :=
        hadvert.elim (h.found advert) fun hbrought => .brought (h.commands advert hbrought)
      have hupdated := Attested.updated h.named h.registry hattested
      refine ⟨PeerRegistry.ingest_named h.named, fun id a ha => ?_, fun a ha => ?_⟩
      · by_cases hown : some advert.device_id = s.service.registry.own
        · rw [PeerRegistry.ingest_own hown] at ha
          exact h.registry id a ha
        · rw [PeerRegistry.get_ingest hown] at ha
          split at ha
          · exact Option.some_inj.1 ha ▸ hupdated
          · exact h.registry id a ha
      · by_cases hown : some advert.device_id = s.service.registry.own
        · rw [PeerRegistry.ingest_own hown] at ha
          exact absurd ha List.not_mem_nil
        · rw [PeerRegistry.ingest_eq hown] at ha
          split at ha
          · exact absurd ha List.not_mem_nil
          · obtain rfl : a = _ := DiscoveryEvent.Updated.inj (List.mem_singleton.1 ha)
            exact hupdated
  -- Nothing new is held and nothing is announced as updated, here and at a sweep.
  | remove k =>
      refine ⟨fun i a ha => h.named i a (PeerRegistry.get_of_get_remove ha),
        fun i a ha => h.registry i a (PeerRegistry.get_of_get_remove ha), fun a ha => ?_⟩
      unfold PeerRegistry.remove at ha
      simp at ha
  | sweep =>
      refine ⟨fun i a ha => h.named i a (PeerRegistry.get_of_get_sweep ha),
        fun i a ha => h.registry i a (PeerRegistry.get_of_get_sweep ha), fun a ha => ?_⟩
      exact absurd ha (PeerRegistry.updated_not_mem_sweep a)

theorem Vouched.turn {t : DiscoveryState} {now : Nat} (h : s.Vouched)
    (hturn : s.service.Turn now t.service) (hinbox : t.inbox = s.inbox)
    (hdiscovered : t.discovered = s.discovered) (hheard : s.log.heard ⊆ t.log.heard)
    (hbrought : s.log.brought ⊆ t.log.brought) : t.Vouched := by
  obtain ⟨told, hdoes, hevents⟩ := hturn.does
  obtain ⟨hnamed, hregistry, htold⟩ := h.does hdoes
  refine ⟨fun a ha => (h.found a (hturn.found ha)).mono hheard hbrought,
    fun a ha => hbrought (h.commands a (hturn.commands ha)), hnamed,
    fun id a ha => (hregistry id a ha).mono hheard hbrought, fun a ha => ?_, fun id a ha => ?_⟩
  · unfold DiscoveryState.pending at ha
    rw [hinbox, hevents, ← List.append_assoc, List.mem_append] at ha
    rcases ha with ha | ha
    · exact (h.pending a ha).mono hheard hbrought
    · exact (htold a ha).mono hheard hbrought
  · rw [hdiscovered] at ha
    exact (h.discovered id a ha).imp_right fun hatt => hatt.mono hheard hbrought

theorem Vouched.deliver (h : s.Vouched) : s.deliver.Vouched := by
  unfold DiscoveryState.deliver
  split
  · exact h
  · next event inbox hinbox =>
      have hpending (a : PeerAdvert) (ha : DiscoveryEvent.Updated a ∈ event :: inbox) :
          Attested s.log a :=
        h.pending a (List.mem_append_left _ (hinbox ▸ ha))
      refine ⟨h.found, h.commands, h.named, h.registry, fun a ha => h.pending a ?_,
        fun id a ha => ?_⟩
      · unfold DiscoveryState.pending at ha ⊢
        rw [hinbox]
        exact List.mem_cons_of_mem _ ha
      · cases event with
        | Updated advert =>
            change (s.discovered.insert advert.device_id advert).get id = some a at ha
            rw [Table.get_insert] at ha
            split at ha
            · next hid =>
                obtain rfl := Option.some_inj.1 ha
                exact ⟨hid.symm, hpending advert List.mem_cons_self⟩
            · exact h.discovered id a ha
        | Lost k => exact h.discovered id a (Table.get_of_get_erase ha).2

omit [Crypto] in
/-- A beacon that is accepted was signed by the key in it. -/
theorem signed_of_decode {data : Bytes} {b : Beacon} (h : Beacon.decode data = .ok b) :
    SignedBy b.public_key data := by
  obtain ⟨platform_len, name_len, sig, _, hsig, hdata, hverify⟩ := Beacon.decode_eq_ok.1 h
  exact ⟨_, sig, hdata, hsig, hverify⟩

omit [Signatures] [Crypto] in
theorem advert_from_info_keyless {info : ServiceInfo} {a : PeerAdvert}
    (h : advert_from_info info = some a) : a.public_key = none := by
  unfold advert_from_info at h
  simp only [Option.bind_eq_bind, Option.pure_def, Option.bind_eq_some_iff, Option.some_inj] at h
  obtain ⟨_, _, _, _, rfl⟩ := h
  rfl

/-- Adverts come in, and nothing else changes. -/
theorem Vouched.kept {t : DiscoveryState} (h : s.Vouched)
    (hfound : ∀ a ∈ t.service.found, a ∈ s.service.found ∨ Attested t.log a)
    (hcommands : ∀ a, DiscoveryCommand.Ingest a ∈ t.service.commands →
      DiscoveryCommand.Ingest a ∈ s.service.commands ∨ a ∈ t.log.brought)
    (hregistry : t.service.registry = s.service.registry) (hpending : t.pending = s.pending)
    (hdiscovered : t.discovered = s.discovered) (hheard : s.log.heard ⊆ t.log.heard)
    (hbrought : s.log.brought ⊆ t.log.brought) : t.Vouched where
  found a ha :=
    (hfound a ha).elim (fun hold => (h.found a hold).mono hheard hbrought) fun hnew => hnew
  commands a ha := (hcommands a ha).elim (fun hold => hbrought (h.commands a hold)) fun hnew => hnew
  named := hregistry ▸ h.named
  registry id a ha := (h.registry id a (hregistry ▸ ha)).mono hheard hbrought
  pending a ha := (h.pending a (hpending ▸ ha)).mono hheard hbrought
  discovered id a ha :=
    (h.discovered id a (hdiscovered ▸ ha)).imp_right fun hatt => hatt.mono hheard hbrought

theorem Vouched.heard (h : s.Vouched) (data : Bytes) (sender : IpAddr) :
    (s.step (.Heard data sender)).Vouched := by
  obtain ⟨_, hregistry, hevents⟩ := hear_same s.service data sender
  refine h.kept (fun a ha => ?_) (fun a ha => .inl ?_) hregistry
    (congrArg (s.inbox ++ ·) hevents) rfl (List.subset_cons_self _ _) (List.Subset.refl _)
  · change a ∈ (s.service.hear data sender).found at ha
    unfold DiscoveryService.hear at ha
    split at ha
    · exact .inl ha
    · next b hdecode =>
        rcases List.mem_append.1 ha with ha | ha
        · exact .inl ha
        · obtain rfl := List.mem_singleton.1 ha
          refine .inr fun key hkey => .inl ?_
          obtain rfl := Option.some_inj.1 hkey
          exact ⟨rfl, data, List.mem_cons_self, signed_of_decode hdecode⟩
  · change DiscoveryCommand.Ingest a ∈ (s.service.hear data sender).commands at ha
    unfold DiscoveryService.hear at ha
    split at ha <;> exact ha

theorem Vouched.step (h : s.Vouched) (act : DiscoveryAct) : (s.step act).Vouched := by
  have hall {l : List Bytes} : l ⊆ l := List.Subset.refl l
  have hevery {l : List PeerAdvert} : l ⊆ l := List.Subset.refl l
  cases act with
  | Update config =>
      refine h.kept (fun a ha => .inl ha) (fun a ha => .inl ?_) rfl rfl rfl hall hevery
      exact (List.mem_append.1 ha).resolve_right (by simp)
  | Ingest advert =>
      refine h.kept (fun a ha => .inl ha) (fun a ha => ?_) rfl rfl rfl hall
        (List.subset_cons_self _ _)
      refine (List.mem_append.1 ha).imp_right fun hnew => ?_
      obtain rfl := DiscoveryCommand.Ingest.inj (List.mem_singleton.1 hnew)
      exact List.mem_cons_self
  | Heard data sender => exact h.heard data sender
  -- An advert from the mDNS browser carries no key, whatever the service answered.
  | Resolved info =>
      refine h.kept (fun a ha => ?_) (fun a ha => .inl ha) rfl rfl rfl hall hevery
      refine (List.mem_append.1 ha).imp_right fun hnew => ?_
      exact .keyless (advert_from_info_keyless (Option.mem_toList.1 hnew))
  | Command now answers =>
      exact h.turn (s.service.command_turn now answers) rfl rfl hall hevery
  | Found now => exact h.turn (s.service.take_found_turn now) rfl rfl hall hevery
  | Lost => exact h.turn (s.service.take_lost_turn 0) rfl rfl hall hevery
  | Sweep now => exact h.turn (s.service.sweep_tick_turn now) rfl rfl hall hevery
  | Forward =>
      refine h.kept (fun a ha => .inl ha) (fun a ha => .inl ha) rfl ?_ rfl hall hevery
      show s.inbox ++ s.service.events.head?.toList ++ s.service.events.tail =
        s.inbox ++ s.service.events
      rw [List.append_assoc]
      cases s.service.events <;> rfl
  | Deliver =>
      have hclock : Vouched { s with log := { s.log with clock := s.log.clock } } := h
      exact hclock.deliver
  -- Forgetting an own address changes the addresses of records, never whose they are.
  | AddressIsSelf addr =>
      refine ⟨h.found, h.commands, h.named, h.registry, h.pending, fun id a ha => ?_⟩
      change (forget_own addr s.discovered).get id = some a at ha
      unfold forget_own at ha
      rw [Table.get_map_values] at ha
      obtain ⟨b, hb, rfl⟩ := Option.map_eq_some_iff.1 ha
      exact h.discovered id b hb
  | Removed fullname =>
      exact h.kept (fun a ha => .inl ha) (fun a ha => .inl ha) rfl rfl rfl hall hevery
  | Beacon => exact h.kept (fun a ha => .inl ha) (fun a ha => .inl ha) rfl rfl rfl hall hevery

theorem run_vouched (hs : (discovery identity).Reachable s) : s.Vouched := by
  refine hs.invariant ?_ fun s act h _ => h.step act
  rintro s ⟨config, mdns, rfl⟩
  refine ⟨fun a ha => absurd ha List.not_mem_nil, fun a ha => absurd ha List.not_mem_nil,
    fun id a ha => (Option.some_ne_none a ha.symm).elim,
    fun id a ha => (Option.some_ne_none a ha.symm).elim, fun a ha => absurd ha List.not_mem_nil,
    fun id a ha => ?_⟩
  cases ha

/-! ## 8. What the device says of itself -/

/-- What the settings in force allow to be registered. -/
def Allows (config : DiscoveryConfig) (r : MdnsRecord) : Prop :=
  config.visibility ≠ .Hidden ∧ (config.visibility ≠ .Everyone → r.name = none)

/-- The daemon takes out what is registered whenever new settings are followed; the code does not
look at its answer, and asks only once. -/
def Unregisters (s : DiscoveryState) : DiscoveryAct → Prop
  | .Command _ answers =>
      ∀ config commands m name, s.service.commands = .Update config :: commands →
      s.service.mdns = some m → m.daemon.get name ≠ none → answers.unregisters = true
  | _ => True

/-- What is registered is what the settings allow, and goes by the name that the advertiser will
take it out by. -/
structure Filed (s : DiscoveryState) : Prop where
  published : ∀ m name r, s.service.mdns = some m → m.daemon.get name = some r →
    m.fullname = some name ∧ Allows s.service.config r

/-- A beacon's name is said to everyone or to nobody, and a hidden device sends none. -/
structure Discreet (s : DiscoveryState) : Prop where
  sent : ∀ visibility data, (visibility, data) ∈ s.log.sent → visibility ≠ .Hidden ∧
    (visibility ≠ .Everyone → ∀ b, Beacon.decode data = .ok b → b.name = "")

omit [Signatures] [Crypto] in
theorem record_discreet {config : DiscoveryConfig} {own : DeviceId} {r : MdnsRecord}
    (h : config.record own = some r) : Allows config r := by
  unfold DiscoveryConfig.record at h
  split at h
  · cases h
  · next hvisible =>
      obtain rfl := Option.some_inj.1 h
      exact ⟨hvisible, fun hne => if_neg hne⟩

omit [Crypto] in
/-- Who reads a beacon of a device that hides its name reads none. -/
theorem beacon_discreet (hexact : Signatures.Exact) {service : DiscoveryService} {data : Bytes}
    (h : service.beacon_tick = some data) :
    service.config.visibility ≠ .Hidden ∧ (service.config.visibility ≠ .Everyone →
      ∀ b, Beacon.decode data = .ok b → b.name = "") := by
  unfold DiscoveryService.beacon_tick at h
  split at h
  · cases h
  · next hvisible =>
      obtain rfl := Option.some_inj.1 h
      refine ⟨hvisible, fun hne b hb => ?_⟩
      rw [Beacon.decode_encode hexact] at hb
      obtain rfl := Except.ok.inj hb
      unfold Beacon.sent DiscoveryConfig.beacon
      dsimp only
      rw [if_neg hne, if_pos (by decide)]
      rfl

omit [Signatures] [Crypto] in
/-- New settings are followed: what was registered goes, and at most their record takes its
place. -/
theorem filed_follow {m : MdnsAdvertiser} {own : DeviceId} {config : DiscoveryConfig}
    {answers : MdnsAnswers} (hm : ∀ name, m.daemon.get name ≠ none → m.fullname = some name)
    (hanswers : ∀ name, m.daemon.get name ≠ none → answers.unregisters = true)
    {name : String} {r : MdnsRecord}
    (hr : (m.follow own config answers).daemon.get name = some r) :
    (m.follow own config answers).fullname = some name ∧ Allows config r := by
  -- nothing is left of what was registered
  have hgone : ∀ k, (m.unpublish answers).daemon.get k = none := by
    intro k
    by_cases hk : m.daemon.get k = none
    · unfold MdnsAdvertiser.unpublish
      split
      · split
        · rw [Table.get_erase, hk, ite_self]
        · exact hk
      · exact hk
    · unfold MdnsAdvertiser.unpublish
      rw [hm k hk]
      dsimp only
      rw [if_pos (hanswers k hk), Table.get_erase, if_pos rfl]
  unfold MdnsAdvertiser.follow at hr ⊢
  split at hr
  · rw [hgone name] at hr
    cases hr
  · next record hrecord =>
      unfold MdnsAdvertiser.publish at hr ⊢
      dsimp only at hr ⊢
      split at hr
      · rw [hgone name] at hr
        cases hr
      · next haccepts =>
          rw [if_neg haccepts]
          dsimp only at hr ⊢
          split at hr
          · rw [Table.get_insert, hgone name] at hr
            split at hr
            · next hname =>
                obtain rfl := Option.some_inj.1 hr
                exact ⟨congrArg some hname.symm, record_discreet hrecord⟩
            · cases hr
          · rw [hgone name] at hr
            cases hr

omit [Signatures] [Crypto] in
/-- The settings, and what is registered, stay. -/
theorem Filed.same {t : DiscoveryState} (h : s.Filed)
    (hconfig : t.service.config = s.service.config) (hmdns : t.service.mdns = s.service.mdns) :
    t.Filed := by
  refine ⟨?_⟩
  rw [hconfig, hmdns]
  exact h.published

theorem Filed.command (h : s.Filed) {now : Nat} {answers : MdnsAnswers}
    (hanswers : s.Unregisters (.Command now answers)) : (s.step (.Command now answers)).Filed := by
  have hnow : (s.step (.Command now answers)).service = s.service.command now answers := rfl
  have hcommand := hanswers
  unfold DiscoveryService.command at hnow
  split at hnow
  · exact h.same (congrArg _ hnow) (congrArg _ hnow)
  · next config commands hcommands =>
      refine ⟨fun m name r hm hr => ?_⟩
      rw [hnow] at hm ⊢
      obtain ⟨m₀, hm₀, rfl⟩ := Option.map_eq_some_iff.1 hm
      refine filed_follow (fun k hk => ?_) (fun k hk => ?_) hr
      · obtain ⟨r₀, hr₀⟩ := Option.ne_none_iff_exists'.1 hk
        exact (h.published m₀ k r₀ hm₀ hr₀).1
      · exact hcommand config commands m₀ k hcommands hm₀ hk
  · exact h.same (by rw [hnow]; rfl) (by rw [hnow]; rfl)

/-- An act that is neither a command nor a beacon leaves the settings, what is registered and what
was sent. -/
theorem step_quiet (s : DiscoveryState) {act : DiscoveryAct}
    (hcommand : ∀ now answers, act ≠ .Command now answers) (hbeacon : act ≠ .Beacon) :
    (s.step act).service.config = s.service.config ∧
      (s.step act).service.mdns = s.service.mdns ∧ (s.step act).log.sent = s.log.sent := by
  cases act with
  | Command now answers => exact absurd rfl (hcommand now answers)
  | Beacon => exact absurd rfl hbeacon
  | Heard data sender =>
      show (s.service.hear data sender).config = _ ∧ (s.service.hear data sender).mdns = _ ∧ _
      unfold DiscoveryService.hear
      split <;> exact ⟨rfl, rfl, rfl⟩
  | Found now =>
      show (s.service.take_found now).config = _ ∧ (s.service.take_found now).mdns = _ ∧ _
      unfold DiscoveryService.take_found
      split <;> exact ⟨rfl, rfl, rfl⟩
  | Lost =>
      show s.service.take_lost.config = _ ∧ s.service.take_lost.mdns = _ ∧ _
      unfold DiscoveryService.take_lost
      split <;> exact ⟨rfl, rfl, rfl⟩
  | Deliver =>
      show (deliver _).service.config = _ ∧ (deliver _).service.mdns = _ ∧ (deliver _).log.sent = _
      unfold deliver
      split <;> exact ⟨rfl, rfl, rfl⟩
  | _ => exact ⟨rfl, rfl, rfl⟩

theorem Filed.step (h : s.Filed) {act : DiscoveryAct} (hact : s.Unregisters act) :
    (s.step act).Filed := by
  by_cases hcommand : ∃ now answers, act = .Command now answers
  · obtain ⟨now, answers, rfl⟩ := hcommand
    exact h.command hact
  · by_cases hbeacon : act = .Beacon
    · subst hbeacon
      exact h.same rfl rfl
    · obtain ⟨hconfig, hmdns, -⟩ := s.step_quiet
        (fun now answers he => hcommand ⟨now, answers, he⟩) hbeacon
      exact h.same hconfig hmdns

theorem run_filed {tr : List (DiscoveryState × DiscoveryAct)}
    (hr : (discovery identity).Run tr s) (hkeeps : Machine.Meets Unregisters tr) : s.Filed := by
  refine hr.invariant_where (P := Filed) ?_ (fun s act h _ hact => h.step hact) hkeeps
  rintro s ⟨config, mdns, rfl⟩
  refine ⟨fun m name r hm hr => ?_⟩
  obtain ⟨answers, -, rfl⟩ := Option.map_eq_some_iff.1 hm
  have hnone (k : String) : MdnsAdvertiser.new.daemon.get k = none := Table.get_empty k
  exact filed_follow (fun k hk => absurd (hnone k) hk) (fun k hk => absurd (hnone k) hk) hr

theorem Discreet.beacon (hexact : Signatures.Exact) (h : s.Discreet) :
    (s.step .Beacon).Discreet := by
  refine ⟨fun visibility data hmem => ?_⟩
  rcases List.mem_append.1 hmem with hnew | hold
  · obtain ⟨wire, hwire, hpair⟩ := Option.map_eq_some_iff.1 (Option.mem_toList.1 hnew)
    obtain ⟨rfl, rfl⟩ := Prod.mk.inj hpair
    exact beacon_discreet hexact hwire
  · exact h.sent visibility data hold

theorem Discreet.step (hexact : Signatures.Exact) (h : s.Discreet) (act : DiscoveryAct) :
    (s.step act).Discreet := by
  by_cases hbeacon : act = .Beacon
  · subst hbeacon
    exact h.beacon hexact
  · by_cases hcommand : ∃ now answers, act = .Command now answers
    · obtain ⟨now, answers, rfl⟩ := hcommand
      exact ⟨h.sent⟩
    · obtain ⟨-, -, hsent⟩ := s.step_quiet
        (fun now answers he => hcommand ⟨now, answers, he⟩) hbeacon
      refine ⟨?_⟩
      rw [hsent]
      exact h.sent

theorem run_discreet (hexact : Signatures.Exact) (hs : (discovery identity).Reachable s) :
    s.Discreet := by
  refine hs.invariant ?_ fun s act h _ => h.step hexact act
  rintro s ⟨config, mdns, rfl⟩
  exact ⟨fun visibility data hmem => absurd hmem List.not_mem_nil⟩

end DiscoveryState

/-! ## 9. Runs -/

section
variable [Signatures] [Crypto] {identity : PublicKey} {s : DiscoveryState}

/-- **What the engine knows.** In whatever order adverts, words and ticks come, the engine's map is
the registry's once it has followed the words on their way, but for addresses that turned out to be
this device; this device is not in it. Who is in the registry was heard of in the last `PEER_TTL`
before it was last swept, and a sweep takes out nobody else. -/
theorem discovery_mirrored (hs : (discovery identity).Reachable s) :
    (∀ id, Trimmed s.log.own (s.service.registry.get id)
      ((s.pending.foldl on_discovery s.discovered).get id)) ∧
      s.service.registry.get identity.device_id = none ∧
      (∀ id entry, s.service.registry.peers.get id = some entry →
        ∀ t ∈ s.log.swept, t ≤ entry.last_seen + PEER_TTL) ∧
      ∀ id entry now, (s.service.registry.sweep now).1.peers.get id = some entry ↔
        s.service.registry.peers.get id = some entry ∧ now ≤ entry.last_seen + PEER_TTL := by
  have h := DiscoveryState.run_mirrored hs
  obtain ⟨known, hknown, hreflects⟩ := h.told
  have hseen := (DiscoveryState.run_timely hs).seen
  refine ⟨?_, h.absent, fun id entry hentry => (hseen id entry hentry).2,
    fun id entry now => PeerRegistry.peers_sweep⟩
  exact hknown.rel (fun _ _ _ hsame => hsame.follow) hreflects

/-- **Keys.** In whatever order datagrams come, whatever is in them, a key that the engine knows of
a device hashes to the device's id and has signed a datagram that came in, unless the engine itself
has brought it with an advert of that device. -/
theorem discovery_authentic (hs : (discovery identity).Reachable s) {id : DeviceId} {a : PeerAdvert}
    {key : PublicKey} (ha : s.discovered.get id = some a) (hkey : a.public_key = some key) :
    a.device_id = id ∧
      ((key.device_id = id ∧ ∃ data ∈ s.log.heard, DiscoveryState.SignedBy key data) ∨
        ∃ b ∈ s.log.brought, b.device_id = id ∧ b.public_key = some key) := by
  obtain ⟨hid, hattested⟩ := (DiscoveryState.run_vouched hs).discovered id a ha
  refine ⟨hid, ?_⟩
  rw [← hid]
  exact hattested key hkey

/-- **Visibility.** However the settings change, and whatever else the mDNS daemon answers: as long
as it takes out what is registered when it is asked to, all that is registered is what the settings
in force allow. And every beacon was allowed when it went out: nothing of a hidden device, and no
name, for whoever reads it, unless everyone may see the device. -/
theorem visibility_kept (hexact : Signatures.Exact) {tr : List (DiscoveryState × DiscoveryAct)}
    (hr : (discovery identity).Run tr s) :
    (Machine.Meets DiscoveryState.Unregisters tr → ∀ m name r, s.service.mdns = some m →
      m.daemon.get name = some r → s.service.config.visibility ≠ .Hidden ∧
        (s.service.config.visibility ≠ .Everyone → r.name = none)) ∧
      ∀ visibility data, (visibility, data) ∈ s.log.sent → visibility ≠ .Hidden ∧
        (visibility ≠ .Everyone → ∀ b, Beacon.decode data = .ok b → b.name = "") :=
  ⟨fun hkeeps m name r hm hget =>
      ((DiscoveryState.run_filed hr hkeeps).published m name r hm hget).2,
    (DiscoveryState.run_discreet hexact ⟨tr, hr⟩).sent⟩

end

namespace DiscoveryState.Sample

/-- Stands for the hash; the two keys of the run have different ids. -/
scoped instance low_bytes : Crypto where
  sha256 key := ⟨key.bytes⟩
  proof_mac _ _ _ := []

def laptop : PublicKey := ⟨0x100000000000000000000000000000000⟩

def trusted_only : DiscoveryConfig where
  name := "Laptop"
  platform := "linux"
  port := 47650
  capabilities := ⟨0⟩
  protocol_max := 65536
  visibility := .TrustedOnly

/-- The daemon does as it is asked. -/
def agrees : MdnsAnswers := { unregisters := true, accepts := true, registers := true }

/-- A beacon comes in, and is known to the engine in the end; this device sends its own. -/
def beacons : List DiscoveryAct :=
  [.Heard (Beacon.Sample.desk.encode ⟨9⟩) (.V4 0xC0A80109), .Found 10, .Beacon, .Forward, .Deliver,
    .Sweep 2000]

theorem beacons_admitted :
    (discovery laptop).Admits (.start laptop trusted_only (some agrees)) beacons := by
  refine ⟨enabled_untimed rfl, ?_, enabled_untimed rfl, enabled_untimed rfl, enabled_untimed rfl,
    ?_, trivial⟩
  · rintro now ⟨rfl⟩
    exact Nat.zero_le _
  · rintro now ⟨rfl⟩
    decide +kernel

theorem beacons_run :
    (discovery laptop).Reachable
      ((discovery laptop).exec (.start laptop trusted_only (some agrees)) beacons) := by
  have hinit : (discovery laptop).init (.start laptop trusted_only (some agrees)) :=
    ⟨trusted_only, some agrees, rfl⟩
  exact ⟨_, Machine.run_of_admits hinit beacons_admitted⟩

def everyone : DiscoveryConfig := { trusted_only with visibility := .Everyone }

/-- The device is seen by everyone, and then by trusted devices only. -/
def withdraws : List DiscoveryAct := [.Beacon, .Update trusted_only, .Command 5 agrees, .Beacon]

theorem withdraws_run :
    (discovery laptop).Run
      ((discovery laptop).trace (.start laptop everyone (some agrees)) withdraws)
      ((discovery laptop).exec (.start laptop everyone (some agrees)) withdraws) := by
  have hinit : (discovery laptop).init (.start laptop everyone (some agrees)) :=
    ⟨everyone, some agrees, rfl⟩
  refine Machine.run_of_admits hinit ⟨enabled_untimed rfl, enabled_untimed rfl, ?_,
    enabled_untimed rfl, trivial⟩
  rintro now ⟨rfl⟩
  exact Nat.zero_le _

end DiscoveryState.Sample

open DiscoveryState.Sample in
theorem discovery_mirrored_beacons :
    let s := (discovery laptop).exec (.start laptop trusted_only (some agrees)) beacons
    (∀ id, Trimmed s.log.own (s.service.registry.get id)
      ((s.pending.foldl on_discovery s.discovered).get id)) ∧
      (s.discovered.get (PublicKey.device_id ⟨9⟩)).map PeerAdvert.name = some "Desk" :=
  ⟨(discovery_mirrored beacons_run).1, by decide +kernel⟩

open DiscoveryState.Sample in
theorem discovery_authentic_beacons :
    let s := (discovery laptop).exec (.start laptop trusted_only (some agrees)) beacons
    ∃ a, s.discovered.get (PublicKey.device_id ⟨9⟩) = some a ∧
      a.device_id = PublicKey.device_id ⟨9⟩ ∧
      (((⟨9⟩ : PublicKey).device_id = PublicKey.device_id ⟨9⟩ ∧
          ∃ data ∈ s.log.heard, DiscoveryState.SignedBy ⟨9⟩ data) ∨
        ∃ b ∈ s.log.brought, b.device_id = PublicKey.device_id ⟨9⟩ ∧ b.public_key = some ⟨9⟩) := by
  intro s
  have hknown :
      (s.discovered.get (PublicKey.device_id ⟨9⟩)).bind PeerAdvert.public_key = some ⟨9⟩ := by
    decide +kernel
  obtain ⟨a, ha, hkey⟩ := Option.bind_eq_some_iff.1 hknown
  exact ⟨a, ha, discovery_authentic beacons_run ha hkey⟩

open DiscoveryState.Sample in
/-- The record with the name is gone, and so is the name from the second beacon. -/
theorem visibility_kept_withdraws :
    let s := (discovery laptop).exec (.start laptop everyone (some agrees)) withdraws
    s.service.mdns.map (fun m => m.daemon.pairs.length) = some 1 ∧
      (∀ m name r, s.service.mdns = some m → m.daemon.get name = some r → r.name = none) ∧
      s.log.sent.map Prod.fst = [.TrustedOnly, .Everyone] ∧
      ∀ data, (.TrustedOnly, data) ∈ s.log.sent →
        ∀ b, Beacon.decode data = .ok b → b.name = "" := by
  intro s
  have hvisibility : s.service.config.visibility = .TrustedOnly := by decide +kernel
  have hkeeps : Machine.Meets DiscoveryState.Unregisters
      ((discovery laptop).trace (.start laptop everyone (some agrees)) withdraws) := by
    simp only [Machine.Meets, Machine.trace, withdraws, List.forall_mem_cons]
    refine ⟨trivial, trivial, fun _ _ _ _ _ _ _ => rfl, trivial, ?_⟩
    exact fun _ hmem => absurd hmem List.not_mem_nil
  obtain ⟨hrecords, hbeacons⟩ := visibility_kept Beacon.Sample.spelled_exact withdraws_run
  refine ⟨by decide +kernel, fun m name r hm hr => ?_, by decide +kernel, fun data hsent => ?_⟩
  · exact (hrecords hkeeps m name r hm hr).2 (by rw [hvisibility]; decide)
  · exact (hbeacons .TrustedOnly data hsent).2 (by decide)

open DiscoveryState.Sample in
/-- A service that the daemon does not take out when the device hides stays, name and all. -/
example :
    let refuses : MdnsAnswers := { agrees with unregisters := false }
    let hides : List DiscoveryAct :=
      [.Update { everyone with visibility := .Hidden }, .Command 5 refuses]
    let s := (discovery laptop).exec (.start laptop everyone (some agrees)) hides
    s.service.mdns.map (fun m => (m.daemon.pairs.map fun e => e.2.name, m.fullname)) =
      some ([some "Laptop"], none) := by
  decide +kernel

end SoundPush
