/-
`Mdns` -- what a device publishes over mDNS, and how it is read
(`sp-discovery/src/mdns.rs`).

The daemon is a crate's. What it hands over of a service is its full name, its port, its
addresses and its TXT properties; a record reads back as what it says of the device, with
its name cut to 64 characters and none where it hides it (`mdns_round_trip`). What it has
registered it files by full name, and each of its answers may be an error, which `publish`
reports and `unpublish` ignores.
-/
import SoundPush.Discovery.Registry
import SoundPush.Security.DeviceIdText

set_option autoImplicit false

namespace SoundPush

/-! ## 1. Numbers in text -/

/-- `str::parse` of an unsigned integer that is at most `max`. -/
def parse_uint (max : Nat) (text : String) : Option Nat :=
  let digits :=
    match text.toList with
    | '+' :: rest => rest
    | chars => chars
  if digits ≠ [] ∧ digits.all Char.isDigit = true ∧ Nat.ofDigitChars 10 digits 0 ≤ max then
    some (Nat.ofDigitChars 10 digits 0)
  else none

/-- A number reads back from its digits. -/
theorem parse_uint_repr {max n : Nat} (h : n ≤ max) : parse_uint max n.repr = some n := by
  have htext : n.repr.toList = Nat.toDigits 10 n := by
    rw [Nat.repr_eq_ofList_toDigits, String.toList_ofList]
  have hdigits : ∀ c ∈ Nat.toDigits 10 n, c.isDigit = true := fun c hc =>
    Nat.isDigit_of_mem_toDigits (by decide) (by decide) hc
  have hne : Nat.toDigits 10 n ≠ [] := Nat.toDigits_ne_nil
  unfold parse_uint
  rw [htext]
  have hplain : (match Nat.toDigits 10 n with
      | '+' :: rest => rest
      | chars => chars) = Nat.toDigits 10 n := by
    split
    · next rest hplus =>
        have hmem := hdigits '+' (hplus ▸ List.mem_cons_self)
        simp at hmem
    · rfl
  dsimp only
  rw [hplain, Nat.ofDigitChars_ten_toDigits, if_pos ⟨hne, List.all_eq_true.2 hdigits, h⟩]

/-! ## 2. Records -/

/-- `SocketAddr::new`. -/
def ScopedAddr.new (ip : IpAddr) (port : UInt16) : ScopedAddr :=
  match ip with
  | .V4 octets => .V4 octets port
  | .V6 octets => .V6 octets port 0 0

/-- mDNS service type. -/
def SERVICE_TYPE : String := "_soundpush._udp.local."

/-- What to publish in TXT records. -/
structure MdnsRecord where
  device_id : DeviceId
  name : Option String
  platform : String
  port : UInt16
  capabilities : Capabilities
  protocol_max : UInt32
  deriving DecidableEq

namespace MdnsRecord

/-- The TXT properties. -/
def props (r : MdnsRecord) : List (String × String) :=
  [("v", toString r.protocol_max.toNat), ("id", r.device_id.to_hex),
    ("c", toString r.capabilities.bits.toNat), ("pl", r.platform)] ++
    (r.name.map fun name => ("n", String.ofList (name.toList.take 64))).toList

/-- The full name that the crate gives the service: the instance, and the type. -/
def fullname (r : MdnsRecord) : String := r.device_id.to_hex ++ "." ++ SERVICE_TYPE

end MdnsRecord

/-- What the daemon, and the crate before it, answers a call of `publish` or `unpublish`. -/
structure MdnsAnswers where
  /-- the daemon takes the service out that was registered -/
  unregisters : Bool
  /-- the crate makes a service of the new record -/
  accepts : Bool
  /-- the daemon takes the new service in -/
  registers : Bool

structure MdnsAdvertiser where
  /-- the services that the daemon has registered, by their full names -/
  daemon : Table String MdnsRecord
  fullname : Option String

namespace MdnsAdvertiser

def new : MdnsAdvertiser := { daemon := ∅, fullname := none }

def unpublish (m : MdnsAdvertiser) (answers : MdnsAnswers) : MdnsAdvertiser :=
  match m.fullname with
  | some fullname =>
      { daemon := if answers.unregisters then m.daemon.erase fullname else m.daemon
        fullname := none }
  | none => m

/-- Publish (or re-publish) this device. -/
def publish (m : MdnsAdvertiser) (record : MdnsRecord) (answers : MdnsAnswers) : MdnsAdvertiser :=
  let m := m.unpublish answers
  if !answers.accepts then m
  else
    { daemon := if answers.registers then m.daemon.insert record.fullname record else m.daemon
      fullname := some record.fullname }

end MdnsAdvertiser

/-- A service that the daemon has resolved. -/
structure ServiceInfo where
  fullname : String
  port : UInt16
  addresses : List IpAddr
  get_property_val_str : String → Option String

def advert_from_info (info : ServiceInfo) : Option PeerAdvert := do
  let device_id ← DeviceId.from_hex (← info.get_property_val_str "id")
  return {
    device_id
    public_key := none
    name := (info.get_property_val_str "n").getD ""
    platform := (info.get_property_val_str "pl").getD ""
    addresses := info.addresses.map fun ip => .new ip info.port
    capabilities := ⟨BitVec.ofNat 64
      (((info.get_property_val_str "c").bind (parse_uint 18446744073709551615)).getD 0)⟩
    protocol_max := ((info.get_property_val_str "v").bind (parse_uint 4294967295)).getD 0
    source := .Mdns }

/-- The device whose service is gone: the first part of the service's name. -/
def removed_id (fullname : String) : Option DeviceId :=
  DeviceId.from_hex (String.ofList (fullname.toList.takeWhile (· ≠ '.')))

/-- The daemon hands over what was published. -/
structure ServiceInfo.Carries (info : ServiceInfo) (r : MdnsRecord) : Prop where
  fullname : info.fullname = r.fullname
  port : info.port = r.port
  given : ∀ key value, (key, value) ∈ r.props → info.get_property_val_str key = some value
  hidden : (∀ value, ("n", value) ∉ r.props) → info.get_property_val_str "n" = none

/-! ## 3. Reading a record -/

theorem dot_not_mem_to_hex (id : DeviceId) : '.' ∉ id.to_hex.toList := by
  rw [DeviceId.to_hex, String.toList_ofList, hex_eq]
  intro hmem
  obtain ⟨d, hd, hdot⟩ := List.mem_map.1 hmem
  have hall : ∀ d : Fin 16, Nat.digitChar d.val ≠ '.' := by decide
  exact hall ⟨d, hex_digits_lt hd⟩ hdot

/-- The instance of a service is its device. -/
theorem removed_id_fullname (r : MdnsRecord) : removed_id r.fullname = some r.device_id := by
  have hinstance : r.fullname.toList.takeWhile (· ≠ '.') = r.device_id.to_hex.toList := by
    have htext : r.fullname.toList =
        r.device_id.to_hex.toList ++ '.' :: SERVICE_TYPE.toList := by
      unfold MdnsRecord.fullname
      simp [String.toList_append]
    have hplain : ∀ c ∈ r.device_id.to_hex.toList, decide (c ≠ '.') = true := by
      intro c hc
      apply decide_eq_true
      rintro rfl
      exact dot_not_mem_to_hex r.device_id hc
    rw [htext, List.takeWhile_append_of_pos hplain, List.takeWhile_cons]
    simp
  unfold removed_id
  rw [hinstance, String.ofList_toList]
  exact DeviceId.from_hex_to_hex r.device_id

/-- **A record reads back**, with a name of at most 64 characters, and none if it is hidden; and the
service's name is that of its device. -/
theorem mdns_round_trip (r : MdnsRecord) (info : ServiceInfo) (h : info.Carries r) :
    advert_from_info info = some {
        device_id := r.device_id
        public_key := none
        name := (r.name.map fun name => String.ofList (name.toList.take 64)).getD ""
        platform := r.platform
        addresses := info.addresses.map fun ip => .new ip r.port
        capabilities := r.capabilities
        protocol_max := r.protocol_max.toNat
        source := .Mdns } ∧
      removed_id info.fullname = some r.device_id := by
  refine ⟨?_, h.fullname ▸ removed_id_fullname r⟩
  have hid := h.given "id" r.device_id.to_hex (by simp [MdnsRecord.props])
  have hversion := h.given "v" (toString r.protocol_max.toNat) (by simp [MdnsRecord.props])
  have hcaps := h.given "c" (toString r.capabilities.bits.toNat) (by simp [MdnsRecord.props])
  have hplatform := h.given "pl" r.platform (by simp [MdnsRecord.props])
  have hname : (info.get_property_val_str "n").getD "" =
      (r.name.map fun name => String.ofList (name.toList.take 64)).getD "" := by
    cases hr : r.name with
    | none =>
        rw [h.hidden fun value => by simp [MdnsRecord.props, hr]]
        rfl
    | some name =>
        rw [h.given "n" (String.ofList (name.toList.take 64)) (by simp [MdnsRecord.props, hr])]
        rfl
  have hmax : r.protocol_max.toNat ≤ 4294967295 := Nat.le_of_lt_succ r.protocol_max.toNat_lt
  have hbits : r.capabilities.bits.toNat ≤ 18446744073709551615 :=
    Nat.le_of_lt_succ r.capabilities.bits.isLt
  unfold advert_from_info
  rw [hid, hname, hplatform, hversion, hcaps, h.port]
  simp [DeviceId.from_hex_to_hex, parse_uint_repr hmax, parse_uint_repr hbits]

namespace Sample

def desk_record : MdnsRecord where
  device_id := ⟨0x39f713d0a644253f04529421b9f51b9b⟩
  name := some "Desk"
  platform := "linux"
  port := 47650
  capabilities := ⟨3⟩
  protocol_max := 65536

/-- The service as another device resolves it. -/
def desk_info : ServiceInfo where
  fullname := "39f713d0a644253f04529421b9f51b9b._soundpush._udp.local."
  port := 47650
  addresses := [.V4 0xC0A80109]
  get_property_val_str key := desk_record.props.lookup key

end Sample

open Sample in
theorem mdns_round_trip_desk :
    (advert_from_info desk_info).map PeerAdvert.name = some "Desk" ∧
      removed_id "39f713d0a644253f04529421b9f51b9b._soundpush._udp.local." =
        some desk_record.device_id := by
  have hcarries : desk_info.Carries desk_record := by
    refine ⟨by decide, rfl, fun key value hmem => ?_, fun hnone => ?_⟩
    · simp only [desk_record, MdnsRecord.props, Option.map_some, Option.toList_some,
        List.cons_append, List.nil_append, List.mem_cons, List.not_mem_nil, or_false] at hmem
      obtain h | h | h | h | h := hmem <;> obtain ⟨rfl, rfl⟩ := Prod.mk.inj h <;> rfl
    · exact absurd (by simp [desk_record, MdnsRecord.props]) (hnone "Desk")
  obtain ⟨hadvert, hremoved⟩ := mdns_round_trip desk_record desk_info hcarries
  refine ⟨?_, hremoved⟩
  rw [hadvert]
  rfl

end SoundPush
