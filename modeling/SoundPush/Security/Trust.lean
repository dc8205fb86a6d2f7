/-
`Trust` -- what each paired device may do (`sp-security/src/permissions.rs`)
and the store of paired devices (`sp-security/src/trust.rs`).

The store keeps its devices in memory and writes the whole of them to an
encrypted file. Whether a write succeeds is up to the disk, so every operation
that saves takes the outcome as an argument; a write that fails leaves the file
as it was. The in-memory change stands either way, as in the source.

A device is looked up by its id, which is a digest of its public key; the key itself is kept beside
it and compared on every connection. What the user decides about a device (its permissions, whether
it is blocked) is written at once, and what merely helps to reach it (name, addresses, when it was
seen last) is marked dirty and written by the next flush.

How it is put together. Each operation has one lemma on `get`, which says what every lookup sees
afterwards, whether or not the write succeeded; the engine's invariants use nothing else. What the
file holds, and so what survives a crash, is the subject of a module of its own.
-/
import SoundPush.Security.Identity
import SoundPush.Lib.Table

set_option autoImplicit false

namespace SoundPush

/-! ## 1. Permissions

Four kinds of access, each with a policy. The kinds are an enumeration in the messages to the user
interface and fields in the store; `policy` and `set` go from one to the other. -/

/-- What the user decided about a kind of access: granted, asked for each time, or refused. -/
inductive Policy where
  | Allow
  | Ask
  | Deny
  deriving DecidableEq, Repr

inductive PermissionKind where
  /-- the peer may receive this device's system or app audio -/
  | ReceiveMyAudio
  /-- the peer may receive this device's microphone -/
  | UseMyMicrophone
  /-- the peer may send audio to be played or used here -/
  | SendAudioToMe
  /-- the peer may start/stop routes, change volume, or mute this device -/
  | ControlMe
  deriving DecidableEq, Repr

structure Permissions where
  receive_my_audio : Policy
  use_my_microphone : Policy
  send_audio_to_me : Policy
  control_me : Policy
  deriving DecidableEq, Repr

namespace Permissions

/-- A device that was just paired may play audio here and control this one; its use of the
microphone is asked for. -/
def default : Permissions :=
  { receive_my_audio := .Allow, use_my_microphone := .Ask,
    send_audio_to_me := .Allow, control_me := .Allow }

/-- The policy of a kind. -/
def policy (p : Permissions) : PermissionKind → Policy
  | .ReceiveMyAudio => p.receive_my_audio
  | .UseMyMicrophone => p.use_my_microphone
  | .SendAudioToMe => p.send_audio_to_me
  | .ControlMe => p.control_me

def set (p : Permissions) (kind : PermissionKind) (policy : Policy) : Permissions :=
  match kind with
  | .ReceiveMyAudio => { p with receive_my_audio := policy }
  | .UseMyMicrophone => { p with use_my_microphone := policy }
  | .SendAudioToMe => { p with send_audio_to_me := policy }
  | .ControlMe => { p with control_me := policy }

/-- Setting the policy of one kind leaves the others. -/
theorem policy_set (p : Permissions) (kind k : PermissionKind) (policy : Policy) :
    (p.set kind policy).policy k = if k = kind then policy else p.policy k := by
  cases kind <;> cases k <;> rfl

/-- A newly paired device is denied nothing. -/
theorem policy_default (k : PermissionKind) : default.policy k ≠ .Deny := by
  cases k <;> decide

end Permissions

/-! ## 2. The trust store

Devices in memory, the flag for hints that are not written yet, and the file. The operations come in
the order of the source, and their lemmas after them. -/

/-- A device the user has paired with. -/
structure TrustedDevice where
  device_id : DeviceId
  public_key : PublicKey
  /-- name reported by the device -/
  name : String
  /-- `alias`: local rename chosen by the user -/
  alias_name : Option String
  platform : String
  permissions : Permissions
  auto_connect : Bool
  blocked : Bool
  paired_at_unix : Nat
  last_seen_unix : Nat
  /-- last addresses where the device was reachable (hints only) -/
  last_addresses : List SocketAddr
  deriving DecidableEq

/-- The store with its file. -/
structure TrustStore where
  devices : Table DeviceId TrustedDevice
  /-- hint fields changed in memory and not written yet -/
  dirty : Bool
  /-- what the file holds -/
  file : Table DeviceId TrustedDevice

namespace TrustStore

def get (t : TrustStore) (id : DeviceId) : Option TrustedDevice := t.devices.get id

def list (t : TrustStore) : List TrustedDevice := t.devices.pairs.map Prod.snd

/-- The store holds the key, whatever it was stored under. -/
def trusts (t : TrustStore) (key : PublicKey) : Prop := ∃ d ∈ t.list, d.public_key = key

instance (t : TrustStore) (key : PublicKey) : Decidable (t.trusts key) :=
  inferInstanceAs (Decidable (∃ d ∈ t.list, d.public_key = key))

/-- Write the devices out, if the disk takes them. -/
def save (t : TrustStore) (ok : Bool) : TrustStore :=
  if ok then { t with dirty := false, file := t.devices } else t

/-- A device is added, or replaces the one with its id. -/
def upsert (t : TrustStore) (device : TrustedDevice) (ok : Bool) : TrustStore :=
  { t with devices := t.devices.insert device.device_id device }.save ok

/-- A device is changed, if it is known; an unknown one writes nothing. -/
def update (t : TrustStore) (id : DeviceId) (f : TrustedDevice → TrustedDevice) (ok : Bool) :
    TrustStore :=
  match t.get id with
  | none => t
  | some _ => { t with devices := t.devices.modify id f }.save ok

/-- A device is removed, if it is known. -/
def remove (t : TrustStore) (id : DeviceId) (ok : Bool) : TrustStore :=
  match t.get id with
  | none => t
  | some _ => { t with devices := t.devices.erase id }.save ok

/-- Change hint fields without writing to disk. The security fields are put back if a caller
touched them. -/
def update_hints (t : TrustStore) (id : DeviceId) (f : TrustedDevice → TrustedDevice) :
    TrustStore :=
  match t.get id with
  | none => t
  | some _ =>
      { t with
        dirty := true
        devices := t.devices.modify id fun d =>
          { f d with public_key := d.public_key, blocked := d.blocked,
                     permissions := d.permissions } }

/-- Hints that are not written yet are written. -/
def flush (t : TrustStore) (ok : Bool) : TrustStore := if t.dirty then t.save ok else t

/-- A key is trusted if some lookup finds a device with it. -/
theorem trusts_iff {t : TrustStore} {key : PublicKey} :
    t.trusts key ↔ ∃ id d, t.get id = some d ∧ d.public_key = key := by
  unfold trusts list
  constructor
  · rintro ⟨d, hd, hkey⟩
    obtain ⟨⟨id, d⟩, hpair, rfl⟩ := List.mem_map.1 hd
    exact ⟨id, d, Table.get_eq_some_iff.2 hpair, hkey⟩
  · rintro ⟨id, d, hget, hkey⟩
    exact ⟨d, List.mem_map.2 ⟨(id, d), Table.get_eq_some_iff.1 hget, rfl⟩, hkey⟩

/-- Writing changes no lookup, whether or not it succeeds. -/
@[simp] theorem get_save (t : TrustStore) (ok : Bool) (id : DeviceId) :
    (t.save ok).get id = t.get id := by
  unfold save
  split <;> rfl

@[simp] theorem get_flush (t : TrustStore) (ok : Bool) (id : DeviceId) :
    (t.flush ok).get id = t.get id := by
  unfold flush
  split
  · rw [get_save]
  · rfl

/-- After adding a device its id finds it, and every other id what it found before. -/
theorem get_upsert (t : TrustStore) (d : TrustedDevice) (ok : Bool) (id : DeviceId) :
    (t.upsert d ok).get id = if id = d.device_id then some d else t.get id := by
  rw [upsert, get_save]
  exact Table.get_insert _ _ _ _

/-- After a change the device is found changed, if it was there. -/
theorem get_update (t : TrustStore) (id : DeviceId) (f : TrustedDevice → TrustedDevice)
    (ok : Bool) (id' : DeviceId) :
    (t.update id f ok).get id' = if id' = id then (t.get id').map f else t.get id' := by
  unfold update
  split
  · next h =>
      split
      · next he => rw [he, h, Option.map_none]
      · rfl
  · rw [get_save]
    exact Table.get_modify _ _ _ _

/-- After removing a device its id finds nothing. -/
theorem get_remove (t : TrustStore) (id : DeviceId) (ok : Bool) (id' : DeviceId) :
    (t.remove id ok).get id' = if id' = id then none else t.get id' := by
  unfold remove
  split
  · next h =>
      split
      · next he => rw [he, h]
      · rfl
  · rw [get_save]
    exact Table.get_erase _ _ _

/-- Hints leave the fields that decide about access, whatever the caller did to them. -/
theorem get_update_hints (t : TrustStore) (id : DeviceId) (f : TrustedDevice → TrustedDevice)
    (id' : DeviceId) :
    (t.update_hints id f).get id' =
      if id' = id then
        (t.get id').map fun d =>
          { f d with public_key := d.public_key, blocked := d.blocked,
                     permissions := d.permissions }
      else t.get id' := by
  unfold update_hints
  split
  · next h =>
      split
      · next he => rw [he, h, Option.map_none]
      · rfl
  · exact Table.get_modify _ _ _ _

end TrustStore

end SoundPush
