/-
`Registry` -- the peers that discovery knows (`sp-discovery/src/registry.rs`).

Adverts of one device are merged. What an advert leaves behind does not depend on
whether the device was known (`PeerRegistry.updated`), and an event is returned
when that differs from what was visible before (`ingest_eq`).

The addresses are the old ones and the new ones, put in order. Nothing removes a
repeat that another address of its rank parts from the first one, so a list without
repeats stays one as long as no advert brings that about (`Keeps`); then an advert
that comes twice changes nothing the second time.
-/
import SoundPush.Discovery.Candidates
import SoundPush.Lib.Machine
import SoundPush.Lib.Table
import SoundPush.Protocol.Control

set_option autoImplicit false

namespace SoundPush

/-! ## 1. Adverts -/

/-- How an advert was learned. -/
inductive AdvertSource where
  | Mdns
  | Beacon
  | External
  deriving DecidableEq

/-- A discovered peer. -/
structure PeerAdvert where
  device_id : DeviceId
  /-- present when the advert carried a verifiable public key -/
  public_key : Option PublicKey
  name : String
  platform : String
  addresses : List ScopedAddr
  capabilities : Capabilities
  protocol_max : Nat
  source : AdvertSource
  deriving DecidableEq

inductive DiscoveryEvent where
  | Updated (advert : PeerAdvert)
  | Lost (device_id : DeviceId)
  deriving DecidableEq

/-- A later advert of a device that is known. -/
def PeerAdvert.merge (known advert : PeerAdvert) : PeerAdvert :=
  { known with
    addresses := order (known.addresses ++ advert.addresses)
    name := if advert.name = "" then known.name else advert.name
    platform := if advert.platform = "" then known.platform else advert.platform
    public_key := known.public_key <|> advert.public_key
    capabilities := advert.capabilities
    protocol_max := max advert.protocol_max known.protocol_max }

/-! ## 2. The registry -/

/-- A peer is considered gone when no advert arrived for this long, in milliseconds. -/
def PEER_TTL : Nat := 15 * 1000

structure PeerEntry where
  advert : PeerAdvert
  last_seen : Nat

structure PeerRegistry where
  peers : Table DeviceId PeerEntry
  /-- this device -/
  own : Option DeviceId

namespace PeerRegistry

def new (own : DeviceId) : PeerRegistry := ⟨∅, some own⟩

/-- Merge an advert. Returns an event when something visible changed. -/
def ingest (r : PeerRegistry) (advert : PeerAdvert) (now : Nat) :
    PeerRegistry × Option DiscoveryEvent :=
  if some advert.device_id = r.own then (r, none)
  else
    match r.peers.get advert.device_id with
    | some entry =>
        let merged := entry.advert.merge advert
        if merged ≠ entry.advert then
          ({ r with peers := r.peers.insert advert.device_id ⟨merged, now⟩ },
            some (.Updated merged))
        else
          ({ r with peers := r.peers.insert advert.device_id { entry with last_seen := now } },
            none)
    | none =>
        let advert := { advert with addresses := order advert.addresses }
        ({ r with peers := r.peers.insert advert.device_id ⟨advert, now⟩ },
          some (.Updated advert))

/-- Remove a peer immediately. -/
def remove (r : PeerRegistry) (id : DeviceId) : PeerRegistry × Option DiscoveryEvent :=
  ({ r with peers := r.peers.erase id }, (r.peers.get id).map fun _ => .Lost id)

/-- Expire peers not seen within `PEER_TTL`. -/
def sweep (r : PeerRegistry) (now : Nat) : PeerRegistry × List DiscoveryEvent :=
  let stale := (r.peers.pairs.filter fun e => PEER_TTL < now - e.2.last_seen).map Prod.fst
  stale.foldl (fun (r, lost) id =>
    let (r, event) := r.remove id
    (r, lost ++ event.toList)) (r, [])

def get (r : PeerRegistry) (id : DeviceId) : Option PeerAdvert :=
  (r.peers.get id).map PeerEntry.advert

/-- A call of the registry. -/
inductive Call where
  | Ingest (advert : PeerAdvert) (now : Nat)
  | Remove (id : DeviceId)
  | Sweep (now : Nat)

def handle (r : PeerRegistry) : Call → PeerRegistry
  | .Ingest advert now => (r.ingest advert now).1
  | .Remove id => (r.remove id).1
  | .Sweep now => (r.sweep now).1

/-- The registry of a device, called in any order. -/
def machine (own : DeviceId) : Machine PeerRegistry Call where
  init := fun r => r = new own
  enabled := fun _ _ => True
  step := handle

/-! ## 3. What a call leaves behind -/

section Calls

variable {r : PeerRegistry} {advert : PeerAdvert} {now : Nat} {id : DeviceId}

/-- The addresses known of a device. -/
def known (r : PeerRegistry) (id : DeviceId) : List ScopedAddr :=
  ((r.get id).map PeerAdvert.addresses).getD []

/-- What is visible of a device after its advert. -/
def updated (r : PeerRegistry) (advert : PeerAdvert) : PeerAdvert :=
  ((r.get advert.device_id).map (·.merge advert)).getD
    { advert with addresses := order advert.addresses }

theorem updated_addresses (r : PeerRegistry) (advert : PeerAdvert) :
    (r.updated advert).addresses = order (r.known advert.device_id ++ advert.addresses) := by
  unfold updated known
  cases r.get advert.device_id <;> rfl

/-- The device's entry is replaced, and an event tells what was not visible before. -/
theorem ingest_eq (hown : some advert.device_id ≠ r.own) :
    r.ingest advert now =
      ({ r with peers := r.peers.insert advert.device_id ⟨r.updated advert, now⟩ },
        if r.get advert.device_id = some (r.updated advert) then none
        else some (.Updated (r.updated advert))) := by
  unfold ingest updated get
  rw [if_neg hown]
  cases hget : r.peers.get advert.device_id with
  | none => rfl
  | some entry =>
      simp only [Option.map_some, Option.getD_some, Option.some_inj]
      by_cases hsame : entry.advert.merge advert = entry.advert
      · rw [if_neg (not_not.2 hsame), if_pos hsame.symm, hsame]
      · rw [if_pos hsame, if_neg fun h => hsame h.symm]

theorem ingest_own (hown : some advert.device_id = r.own) : r.ingest advert now = (r, none) :=
  if_pos hown

theorem get_ingest (hown : some advert.device_id ≠ r.own) (id : DeviceId) :
    (r.ingest advert now).1.get id =
      if id = advert.device_id then some (r.updated advert) else r.get id := by
  rw [ingest_eq hown]
  unfold get
  rw [Table.get_insert]
  by_cases h : id = advert.device_id
  · rw [if_pos h, if_pos h]
    rfl
  · rw [if_neg h, if_neg h]

theorem get_of_get_remove {a : PeerAdvert} {id' : DeviceId}
    (h : (r.remove id).1.get id' = some a) : r.get id' = some a := by
  unfold get remove at h
  obtain ⟨entry, hentry, rfl⟩ := Option.map_eq_some_iff.1 h
  unfold get
  rw [(Table.get_of_get_erase hentry).2]
  rfl

/-- A sweep only takes peers away. -/
theorem get_of_get_sweep {a : PeerAdvert} (h : (r.sweep now).1.get id = some a) :
    r.get id = some a := by
  unfold sweep at h
  dsimp only at h
  generalize (r.peers.pairs.filter fun e => PEER_TTL < now - e.2.last_seen).map Prod.fst = stale
    at h
  generalize ([] : List DiscoveryEvent) = lost at h
  induction stale generalizing r lost with
  | nil => exact h
  | cons id' stale ih => exact get_of_get_remove (ih _ h)

end Calls

/-! ## 4. No address twice -/

section Keeps

variable {r : PeerRegistry} {advert : PeerAdvert} {now : Nat}

/-- The call parts no address from its repeat: in the addresses known of the device and those of
its advert, none comes again after another of its rank. -/
def Keeps (r : PeerRegistry) : Call → Prop
  | .Ingest advert _ =>
      some advert.device_id = r.own ∨ ¬ ComesAgain (r.known advert.device_id ++ advert.addresses)
  | .Remove _ => True
  | .Sweep _ => True

/-- Every device's addresses are in order, and none is there twice. -/
def Unique (r : PeerRegistry) : Prop := ∀ id a, r.get id = some a → Ordered a.addresses

theorem new_unique (own : DeviceId) : (new own).Unique := fun _ _ h => nomatch h

theorem handle_unique (h : r.Unique) {call : Call} (hkeeps : r.Keeps call) :
    (r.handle call).Unique := by
  intro id a ha
  cases call with
  | Ingest advert now =>
      change (r.ingest advert now).1.get id = some a at ha
      by_cases hown : some advert.device_id = r.own
      · rw [ingest_own hown] at ha
        exact h id a ha
      · rw [get_ingest hown] at ha
        by_cases hid : id = advert.device_id
        · rw [if_pos hid, Option.some_inj] at ha
          rw [← ha, updated_addresses]
          exact order_ordered (hkeeps.resolve_left hown)
        · rw [if_neg hid] at ha
          exact h id a ha
  | Remove id' => exact h id a (get_of_get_remove ha)
  | Sweep now => exact h id a (get_of_get_sweep ha)

theorem run_unique {own : DeviceId} {tr : List (PeerRegistry × Call)}
    (hr : (machine own).Run tr r) (hkeeps : Machine.Meets Keeps tr) : r.Unique :=
  hr.invariant_where (G := Keeps) (P := Unique)
    (fun s (h0 : s = new own) => by rw [h0]; exact new_unique own)
    (fun _ _ h _ hcall => handle_unique h hcall) hkeeps

/-- An advert that was just merged has nothing to add. -/
theorem merge_updated (hclear : ¬ ComesAgain (r.known advert.device_id ++ advert.addresses))
    (hagain : ¬ ComesAgain ((r.updated advert).addresses ++ advert.addresses)) :
    (r.updated advert).merge advert = r.updated advert := by
  have haddresses : order ((r.updated advert).addresses ++ advert.addresses) =
      (r.updated advert).addresses := by
    refine order_append_known ?_ (fun a ha husable => ?_) hagain
    · rw [updated_addresses]
      exact order_ordered hclear
    · rw [updated_addresses, mem_order]
      exact ⟨List.mem_append_right _ ha, husable⟩
  unfold PeerAdvert.merge
  rw [haddresses]
  unfold updated
  cases r.get advert.device_id with
  | none =>
      cases advert.public_key <;> simp
  | some a =>
      cases hkey : a.public_key <;> by_cases hname : advert.name = "" <;>
        by_cases hplatform : advert.platform = "" <;>
          simp [PeerAdvert.merge, hkey, hname, hplatform]

/-- **The registry holds no address twice**, and an advert that comes twice changes nothing the
second time, in every run whose adverts part no address from its repeat. -/
theorem stays_duplicate_free {own : DeviceId} {tr : List (PeerRegistry × Call)}
    (hr : (machine own).Run tr r) (hkeeps : Machine.Meets Keeps tr) :
    (∀ id a, r.get id = some a → a.addresses.Nodup) ∧
      ∀ advert t t', r.Keeps (.Ingest advert t) →
        (r.ingest advert t).1.Keeps (.Ingest advert t') →
          ((r.ingest advert t).1.ingest advert t').2 = none ∧
          ∀ id, ((r.ingest advert t).1.ingest advert t').1.get id =
            (r.ingest advert t).1.get id := by
  refine ⟨fun id a ha => (run_unique hr hkeeps id a ha).nodup, ?_⟩
  intro advert t t' hfirst hsecond
  by_cases hown : some advert.device_id = r.own
  · rw [ingest_own hown, ingest_own hown]
    exact ⟨rfl, fun _ => rfl⟩
  · have hown' : some advert.device_id ≠ (r.ingest advert t).1.own := by
      rw [ingest_eq hown]
      exact hown
    have hvisible : (r.ingest advert t).1.get advert.device_id = some (r.updated advert) := by
      rw [get_ingest hown, if_pos rfl]
    have hknown : (r.ingest advert t).1.known advert.device_id = (r.updated advert).addresses := by
      unfold known
      rw [hvisible]
      rfl
    have hclear := hsecond.resolve_left hown'
    rw [hknown] at hclear
    have hsame : (r.ingest advert t).1.updated advert = r.updated advert := by
      rw [updated, hvisible]
      exact merge_updated (hfirst.resolve_left hown) hclear
    constructor
    · rw [ingest_eq hown']
      dsimp only
      rw [hvisible, hsame, if_pos rfl]
    · intro id
      rw [get_ingest hown', hsame]
      by_cases hid : id = advert.device_id
      · rw [if_pos hid, hid, hvisible]
      · rw [if_neg hid]

end Keeps

namespace Sample

/-- A device that advertises one port on its addresses of the home network. -/
def host (addresses : List (BitVec 32)) : PeerAdvert where
  device_id := ⟨2⟩
  public_key := none
  name := "Phone"
  platform := "android"
  addresses := addresses.map fun ip => .V4 ip 47650
  capabilities := ⟨0⟩
  protocol_max := 65536
  source := .Mdns

/-- A device with two addresses of different ranks, whose advert came three times. -/
theorem host_of_two_ranks :
    let advert := host [0xC0A80109#32, 0x0A000004#32]
    let r := (machine ⟨1⟩).exec (new ⟨1⟩) [.Ingest advert 0]
    (∀ id a, r.get id = some a → a.addresses.Nodup) ∧
      ((r.ingest advert 2000).1.ingest advert 4000).2 = none ∧
      ∀ id, ((r.ingest advert 2000).1.ingest advert 4000).1.get id =
        (r.ingest advert 2000).1.get id := by
  let calls : List Call := [.Ingest (host [0xC0A80109#32, 0x0A000004#32]) 0]
  have hkeeps : Machine.Meets Keeps ((machine ⟨1⟩).trace (new ⟨1⟩) calls) := by
    intro p hp
    obtain rfl := List.mem_singleton.1 hp
    exact .inr (nodup_order.1 (by decide))
  have hadmits : (machine ⟨1⟩).Admits (new ⟨1⟩) calls := ⟨trivial, trivial⟩
  have hrun := stays_duplicate_free (Machine.run_of_admits rfl hadmits) hkeeps
  exact ⟨hrun.1, hrun.2 (host [0xC0A80109#32, 0x0A000004#32]) 2000 4000
    (.inr (nodup_order.1 (by decide))) (.inr (nodup_order.1 (by decide)))⟩

/-- A device with two addresses on one network: its second advert lists both again. -/
theorem host_listed_twice :
    let advert := host [0xC0A80109#32, 0xC0A80102#32]
    let once := ((new ⟨1⟩).ingest advert 0).1
    let twice := once.ingest advert 2000
    twice.2 ≠ none ∧ twice.1.get ⟨2⟩ ≠ once.get ⟨2⟩ ∧
      (twice.1.get ⟨2⟩).map PeerAdvert.addresses =
        some (advert.addresses ++ advert.addresses) ∧
      ¬ (advert.addresses ++ advert.addresses).Nodup := by
  decide

end Sample

end PeerRegistry

end SoundPush
