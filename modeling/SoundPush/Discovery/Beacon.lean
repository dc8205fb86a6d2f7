/-
`Beacon` -- the signed UDP broadcast beacon (`sp-discovery/src/beacon.rs`).

    magic "SPB1" (4) | public_key (32) | port u16 | capabilities u64 | protocol_max u32
    | flags u8 | platform_len u8 | platform | name_len u8 | name | signature (64)

The signature covers every preceding byte. The reader takes off exactly what the
writer puts on, whatever follows (`read_fields_put`, `of_read_fields`), except for the
two lengths: a length above the limit of its text is read as the limit. So a beacon
that was encoded decodes to what it says, and one that was accepted is the encoding
of its result when its lengths keep to the limits and a hidden name is empty
(`beacon_round_trip`).
-/
import SoundPush.Lib.BigEndian
import SoundPush.Lib.Reads
import SoundPush.Protocol.Control
import SoundPush.Security.Identity
import Mathlib.Data.List.GetD
import Mathlib.Data.List.Infix

set_option autoImplicit false

namespace SoundPush

/-! ## 1. Texts -/

/-- `str::as_bytes`. -/
def as_bytes (s : String) : Bytes := s.toUTF8.data.toList

/-- `String::from_utf8`. -/
def from_utf8 (bytes : Bytes) : Option String := String.fromUTF8? ⟨bytes.toArray⟩

/-- The bytes that characters take. -/
def utf8_len (text : List Char) : Nat := (text.map Char.utf8Size).sum

/-- `str::is_char_boundary`. -/
def is_char_boundary (text : List Char) (n : Nat) : Bool :=
  text.inits.any fun before => utf8_len before = n

/-- `while !s.is_char_boundary(end) { end -= 1; }` -/
def floor_char_boundary (text : List Char) : Nat → Nat
  | 0 => 0
  | n + 1 => if is_char_boundary text (n + 1) then n + 1 else floor_char_boundary text n

/-- `&s[..end]`, at a boundary. -/
def slice_to (text : List Char) (n : Nat) : List Char :=
  (text.inits.find? fun before => utf8_len before = n).getD []

def truncate_utf8 (s : String) (max : Nat) : String :=
  if (as_bytes s).length ≤ max then s
  else String.ofList (slice_to s.toList (floor_char_boundary s.toList max))

/-! ## 2. Beacons -/

/-- `DiscoveryError`, as far as beacons go. -/
inductive BeaconError where
  | MalformedBeacon
  | BadSignature
  deriving DecidableEq

/-- What the beacon takes from the signature crate: a device signs with the key whose public half
is its identity. -/
class Signatures where
  sign : PublicKey → Bytes → Bytes
  verify_signature : PublicKey → Bytes → Bytes → Bool

/-- Signatures verify exactly when they were made by the key. -/
structure Signatures.Exact [Signatures] : Prop where
  length_sign : ∀ key body, (sign key body).length = 64
  verify_iff : ∀ key body sig, verify_signature key body sig = true ↔ sig = sign key body

def BEACON_MAGIC : Bytes := [0x53, 0x50, 0x42, 0x31]

def MAX_NAME : Nat := 64

def MAX_PLATFORM : Nat := 16

def MAX_BEACON_LEN : Nat := 4 + 32 + 2 + 8 + 4 + 1 + 1 + MAX_PLATFORM + 1 + MAX_NAME + 64

def FLAG_NAME_HIDDEN : UInt8 := 1

structure Beacon where
  public_key : PublicKey
  port : UInt16
  capabilities : Capabilities
  protocol_max : UInt32
  flags : UInt8
  platform : String
  name : String
  deriving DecidableEq

namespace Beacon

/-- What is written between the magic and the signature. -/
def put_fields (b : Beacon) (platform_len name_len : Nat) : Bytes :=
  put_be 32 b.public_key.bytes.toNat ++ (put_be 2 b.port.toNat ++
    (put_be 8 b.capabilities.bits.toNat ++ (put_be 4 b.protocol_max.toNat ++
      (put_be 1 b.flags.toNat ++ (put_be 1 platform_len ++ (as_bytes b.platform ++
        (put_be 1 name_len ++ as_bytes b.name)))))))

/-- The texts that `encode` sends, and the key of the device that sends them. -/
def sent (b : Beacon) (identity : PublicKey) : Beacon :=
  { b with
    public_key := identity
    platform := truncate_utf8 b.platform MAX_PLATFORM
    name := truncate_utf8 (if b.flags &&& FLAG_NAME_HIDDEN ≠ 0 then "" else b.name) MAX_NAME }

/-- Everything before the signature. -/
def body (b : Beacon) (identity : PublicKey) : Bytes :=
  BEACON_MAGIC ++ (b.sent identity).put_fields (as_bytes (b.sent identity).platform).length
    (as_bytes (b.sent identity).name).length

def encode [Signatures] (b : Beacon) (identity : PublicKey) : Bytes :=
  b.body identity ++ Signatures.sign identity (b.body identity)

/-- `Reader::take`: the next `n` bytes, and what is left. -/
def take (n : Nat) (buf : Bytes) : Except BeaconError (Bytes × Bytes) :=
  if n ≤ buf.length then .ok (buf.take n, buf.drop n) else .error .MalformedBeacon

/-- `from_be_bytes(r.array()?)`. -/
def read_be (n : Nat) (buf : Bytes) : Except BeaconError (Nat × Bytes) := do
  let (bytes, buf) ← take n buf
  return (get_be bytes, buf)

/-- `Reader::string`. -/
def read_string (n : Nat) (buf : Bytes) : Except BeaconError (String × Bytes) := do
  let (bytes, buf) ← take n buf
  match from_utf8 bytes with
  | some s => return (s, buf)
  | none => throw .MalformedBeacon

/-- The fields between the magic and the signature. -/
def read_fields (r : Bytes) : Except BeaconError (Beacon × Bytes) := do
  let (public_key, r) ← read_be 32 r
  let (port, r) ← read_be 2 r
  let (capabilities, r) ← read_be 8 r
  let (protocol_max, r) ← read_be 4 r
  let (flags, r) ← read_be 1 r
  let (platform_len, r) ← read_be 1 r
  let (platform, r) ← read_string (min platform_len MAX_PLATFORM) r
  let (name_len, r) ← read_be 1 r
  let (name, r) ← read_string (min name_len MAX_NAME) r
  return ({
    public_key := ⟨BitVec.ofNat 256 public_key⟩
    port := UInt16.ofNat port
    capabilities := ⟨BitVec.ofNat 64 capabilities⟩
    protocol_max := UInt32.ofNat protocol_max
    flags := UInt8.ofNat flags
    platform
    name }, r)

/-- Parse and verify an untrusted beacon. -/
def decode [Signatures] (data : Bytes) : Except BeaconError Beacon :=
  if data.length < 4 + 32 + 2 + 8 + 4 + 1 + 1 + 1 + 64 ∨ MAX_BEACON_LEN < data.length then
    .error .MalformedBeacon
  else
    let body := data.take (data.length - 64)
    let sig := data.drop (data.length - 64)
    if body.take 4 ≠ BEACON_MAGIC then .error .MalformedBeacon
    else
      match read_fields (body.drop 4) with
      | .error e => .error e
      | .ok (b, rest) =>
          if rest ≠ [] then .error .MalformedBeacon
          else if Signatures.verify_signature b.public_key body sig then .ok b
          else .error .BadSignature

end Beacon

/-! ## 3. Cutting a text -/

section Texts

theorem from_utf8_as_bytes (s : String) : from_utf8 (as_bytes s) = some s := by
  unfold from_utf8 as_bytes String.fromUTF8?
  rw [String.toUTF8_eq_toByteArray, Array.toArray_toList]
  exact dif_pos s.isValidUTF8

theorem of_from_utf8 {bytes : Bytes} {s : String} (h : from_utf8 bytes = some s) :
    bytes = as_bytes s := by
  unfold from_utf8 String.fromUTF8? at h
  split at h
  · obtain rfl := Option.some_inj.1 h
    rfl
  · exact absurd h nofun

theorem length_as_bytes (s : String) : (as_bytes s).length = utf8_len s.toList := by
  unfold as_bytes utf8_len
  rw [String.toUTF8_eq_toByteArray, ← String.utf8Encode_toList, List.utf8Encode]
  simp [List.length_flatMap]

/-- A longer text takes more bytes. -/
theorem utf8_len_lt {a b : List Char} (h : a <+: b) (hne : a ≠ b) : utf8_len a < utf8_len b := by
  obtain ⟨rest, rfl⟩ := h
  have hrest : rest ≠ [] := by
    rintro rfl
    exact hne (List.append_nil a).symm
  obtain ⟨c, rest, rfl⟩ := List.exists_cons_of_ne_nil hrest
  have hpos := c.utf8Size_pos
  unfold utf8_len
  rw [List.map_append, List.sum_append, List.map_cons, List.sum_cons]
  omega

theorem as_bytes_eq_nil {s : String} (h : (as_bytes s).length = 0) : s = "" := by
  by_contra hne
  have hlist : [] ≠ s.toList := fun heq => hne (by
    rw [← String.ofList_toList (s := s), ← heq])
  have hnil := List.nil_prefix (l := s.toList)
  have hlt := utf8_len_lt hnil hlist
  rw [length_as_bytes] at h
  omega

theorem is_char_boundary_iff {text : List Char} {n : Nat} :
    is_char_boundary text n = true ↔ ∃ before, before <+: text ∧ utf8_len before = n := by
  simp [is_char_boundary]

theorem floor_char_boundary_spec (text : List Char) (n : Nat) :
    is_char_boundary text (floor_char_boundary text n) = true ∧ floor_char_boundary text n ≤ n ∧
      ∀ m ≤ n, is_char_boundary text m = true → m ≤ floor_char_boundary text n := by
  induction n with
  | zero =>
      refine ⟨is_char_boundary_iff.2 ⟨[], List.nil_prefix, rfl⟩, Nat.le_refl 0, ?_⟩
      exact fun m hm _ => hm
  | succ n ih =>
      unfold floor_char_boundary
      by_cases h : is_char_boundary text (n + 1) = true
      · rw [if_pos h]
        exact ⟨h, Nat.le_refl _, fun m hm _ => hm⟩
      · rw [if_neg h]
        refine ⟨ih.1, Nat.le_succ_of_le ih.2.1, fun m hm hb => ?_⟩
        by_cases hlast : m = n + 1
        · rw [hlast] at hb
          exact absurd hb h
        · exact ih.2.2 m (by omega) hb

theorem slice_to_spec {text : List Char} {n : Nat} (h : is_char_boundary text n = true) :
    slice_to text n <+: text ∧ utf8_len (slice_to text n) = n := by
  unfold slice_to
  cases hfind : text.inits.find? fun before => utf8_len before = n with
  | none =>
      obtain ⟨before, hbefore, hlen⟩ := is_char_boundary_iff.1 h
      rw [List.find?_eq_none] at hfind
      have := hfind before ((List.mem_inits _ _).2 hbefore)
      simp [hlen] at this
  | some before =>
      have hmem := List.mem_of_find?_eq_some hfind
      have hlen := List.find?_some hfind
      exact ⟨(List.mem_inits _ _).1 hmem, by simpa using hlen⟩

/-- `t` is `s` cut to a limit of bytes on a character boundary: what fits of it, and no less. -/
structure CutTo (max : Nat) (s t : String) : Prop where
  begins : t.toList <+: s.toList
  fits : (as_bytes t).length ≤ max
  longest : ∀ u, u <+: s.toList → utf8_len u ≤ max → u <+: t.toList

theorem truncate_utf8_cuts (s : String) (max : Nat) : CutTo max s (truncate_utf8 s max) := by
  unfold truncate_utf8
  by_cases h : (as_bytes s).length ≤ max
  · rw [if_pos h]
    exact ⟨List.prefix_rfl, h, fun u hu _ => hu⟩
  · rw [if_neg h]
    obtain ⟨hbound, hle, hmost⟩ := floor_char_boundary_spec s.toList max
    obtain ⟨hpre, hlen⟩ := slice_to_spec hbound
    refine ⟨by rw [String.toList_ofList]; exact hpre, ?_, fun u hu hfits => ?_⟩
    · rw [length_as_bytes, String.toList_ofList, hlen]
      exact hle
    · rw [String.toList_ofList]
      -- of two prefixes the one that takes more bytes is the longer one
      obtain hcut | hcut := List.prefix_or_prefix_of_prefix hu hpre
      · exact hcut
      · by_cases heq : slice_to s.toList (floor_char_boundary s.toList max) = u
        · rw [heq]
        · have hlt := utf8_len_lt hcut heq
          have hmax := hmost (utf8_len u) hfits (is_char_boundary_iff.2 ⟨u, hu, rfl⟩)
          omega

theorem truncate_utf8_of_fits {s : String} {max : Nat} (h : (as_bytes s).length ≤ max) :
    truncate_utf8 s max = s := if_pos h

end Texts

namespace Beacon

/-! ## 4. The reader takes off what the writer puts on -/

section Reader

theorem reads_take (n : Nat) : Reads (fun bytes : Bytes => bytes.length = n) id (take n) where
  back := by
    rintro bytes rest rfl
    have hle : bytes.length ≤ (bytes ++ rest).length := by
      rw [List.length_append]
      exact Nat.le_add_right _ _
    rw [take, id, if_pos hle, List.take_left, List.drop_left]
  only := by
    intro buf bytes rest h
    unfold take at h
    split at h
    · obtain ⟨rfl, rfl⟩ := Prod.mk.inj (Except.ok.inj h)
      exact ⟨by rw [List.length_take]; omega, (List.take_append_drop n buf).symm⟩
    · exact absurd h nofun

theorem reads_be (n : Nat) : Reads (fun v : Nat => v < 256 ^ n) (put_be n) (read_be n) where
  back := by
    intro v rest hv
    have hback : take n (id (put_be n v) ++ rest) = .ok (put_be n v, rest) :=
      (reads_take n).back (put_be_length n v)
    rw [id] at hback
    rw [read_be, hback, ok_bind]
    dsimp only
    rw [get_be_of_lt hv]
    rfl
  only := by
    intro buf v rest h
    rw [read_be, bind_eq_ok] at h
    obtain ⟨⟨bytes, rest'⟩, hbytes, h⟩ := h
    obtain ⟨rfl, rfl⟩ := Prod.mk.inj (Except.ok.inj h)
    obtain ⟨rfl, hbuf⟩ := (reads_take n).only hbytes
    exact ⟨get_be_lt bytes, by rw [put_be_get_be]; exact hbuf⟩

theorem reads_string (n : Nat) :
    Reads (fun s : String => (as_bytes s).length = n) as_bytes (read_string n) where
  back := by
    intro s rest hs
    have hback : take n (id (as_bytes s) ++ rest) = .ok (as_bytes s, rest) :=
      (reads_take n).back hs
    rw [id] at hback
    rw [read_string, hback, ok_bind]
    dsimp only
    rw [from_utf8_as_bytes]
    rfl
  only := by
    intro buf s rest h
    rw [read_string, bind_eq_ok] at h
    obtain ⟨⟨bytes, rest'⟩, hbytes, h⟩ := h
    obtain ⟨hlen, hbuf⟩ := (reads_take n).only hbytes
    dsimp only at h
    cases hutf : from_utf8 bytes with
    | none =>
        rw [hutf] at h
        exact absurd h nofun
    | some s' =>
        rw [hutf] at h
        obtain ⟨rfl, rfl⟩ := Prod.mk.inj (Except.ok.inj h)
        rw [← of_from_utf8 hutf]
        exact ⟨hlen, hbuf⟩

variable {b : Beacon} {platform_len name_len : Nat} {buf rest : Bytes}

/-- The lengths that a reader takes for those of the texts. -/
structure Lengths (b : Beacon) (platform_len name_len : Nat) : Prop where
  platform_byte : platform_len < 256
  name_byte : name_len < 256
  platform : (as_bytes b.platform).length = min platform_len MAX_PLATFORM
  name : (as_bytes b.name).length = min name_len MAX_NAME

theorem read_fields_put (h : b.Lengths platform_len name_len) (rest : Bytes) :
    read_fields (b.put_fields platform_len name_len ++ rest) = .ok (b, rest) := by
  have hbyte : ∀ v, v < 256 → v < 256 ^ 1 := fun v hv => by rw [Nat.pow_one]; exact hv
  unfold put_fields read_fields
  simp only [List.append_assoc]
  rw [(reads_be 32).back (by exact b.public_key.bytes.isLt), ok_bind]
  dsimp only
  rw [(reads_be 2).back (by exact b.port.toNat_lt), ok_bind]
  dsimp only
  rw [(reads_be 8).back (by exact b.capabilities.bits.isLt), ok_bind]
  dsimp only
  rw [(reads_be 4).back (by exact b.protocol_max.toNat_lt), ok_bind]
  dsimp only
  rw [(reads_be 1).back (hbyte _ b.flags.toNat_lt), ok_bind]
  dsimp only
  rw [(reads_be 1).back (hbyte _ h.platform_byte), ok_bind]
  dsimp only
  rw [(reads_string _).back h.platform, ok_bind]
  dsimp only
  rw [(reads_be 1).back (hbyte _ h.name_byte), ok_bind]
  dsimp only
  rw [(reads_string _).back h.name, ok_bind]
  dsimp only
  simp
  rfl

/-- What was read was written so. -/
theorem of_read_fields (h : read_fields buf = .ok (b, rest)) :
    ∃ platform_len name_len, b.Lengths platform_len name_len ∧
      buf = b.put_fields platform_len name_len ++ rest := by
  unfold read_fields at h
  -- The nine reads are taken apart in their order; `only` of each says which bytes it consumed.
  rw [bind_eq_ok] at h
  obtain ⟨⟨public_key, r⟩, hkey, h⟩ := h
  dsimp only at h
  rw [bind_eq_ok] at h
  obtain ⟨⟨port, r⟩, hport, h⟩ := h
  dsimp only at h
  rw [bind_eq_ok] at h
  obtain ⟨⟨capabilities, r⟩, hcaps, h⟩ := h
  dsimp only at h
  rw [bind_eq_ok] at h
  obtain ⟨⟨protocol_max, r⟩, hproto, h⟩ := h
  dsimp only at h
  rw [bind_eq_ok] at h
  obtain ⟨⟨flags, r⟩, hflags, h⟩ := h
  dsimp only at h
  rw [bind_eq_ok] at h
  obtain ⟨⟨platform_len, r⟩, hplen, h⟩ := h
  dsimp only at h
  rw [bind_eq_ok] at h
  obtain ⟨⟨platform, r⟩, hplatform, h⟩ := h
  dsimp only at h
  rw [bind_eq_ok] at h
  obtain ⟨⟨name_len, r⟩, hnlen, h⟩ := h
  dsimp only at h
  rw [bind_eq_ok] at h
  obtain ⟨⟨name, r⟩, hname, h⟩ := h
  obtain ⟨rfl, rfl⟩ := Prod.mk.inj (Except.ok.inj h)
  have hkey := (reads_be 32).only hkey
  have hport := (reads_be 2).only hport
  have hcaps := (reads_be 8).only hcaps
  have hproto := (reads_be 4).only hproto
  have hflags := (reads_be 1).only hflags
  have hplen := (reads_be 1).only hplen
  have hplatform := (reads_string _).only hplatform
  have hnlen := (reads_be 1).only hnlen
  have hname := (reads_string _).only hname
  refine ⟨platform_len, name_len, ⟨hplen.1, hnlen.1, hplatform.1, hname.1⟩, ?_⟩
  rw [hkey.2, hport.2, hcaps.2, hproto.2, hflags.2, hplen.2, hplatform.2, hnlen.2, hname.2]
  -- The fields are fixed-width in the beacon and numbers in the reader: what was read from `n`
  -- bytes is below `256 ^ n`, so nothing is cut off on the way back.
  have hkey' : (BitVec.ofNat 256 public_key).toNat = public_key :=
    Nat.mod_eq_of_lt (by rw [show (2 : Nat) ^ 256 = 256 ^ 32 from rfl]; exact hkey.1)
  have hport' : (UInt16.ofNat port).toNat = port :=
    Nat.mod_eq_of_lt (by rw [show (2 : Nat) ^ 16 = 256 ^ 2 from rfl]; exact hport.1)
  have hcaps' : (BitVec.ofNat 64 capabilities).toNat = capabilities :=
    Nat.mod_eq_of_lt (by rw [show (2 : Nat) ^ 64 = 256 ^ 8 from rfl]; exact hcaps.1)
  have hproto' : (UInt32.ofNat protocol_max).toNat = protocol_max :=
    Nat.mod_eq_of_lt (by rw [show (2 : Nat) ^ 32 = 256 ^ 4 from rfl]; exact hproto.1)
  have hflags' : (UInt8.ofNat flags).toNat = flags :=
    Nat.mod_eq_of_lt (by rw [show (2 : Nat) ^ 8 = 256 ^ 1 from rfl]; exact hflags.1)
  unfold put_fields
  dsimp only
  rw [hkey', hport', hcaps', hproto', hflags']
  simp only [List.append_assoc]

theorem length_put_fields (b : Beacon) (platform_len name_len : Nat) :
    (b.put_fields platform_len name_len).length =
      49 + (as_bytes b.platform).length + (as_bytes b.name).length := by
  unfold put_fields
  simp only [List.length_append, put_be_length]
  omega

theorem put_be_one {v : Nat} (rest : Bytes) : put_be 1 v ++ rest = UInt8.ofNat v :: rest := rfl

theorem toNat_ofNat_of_lt {v : Nat} (h : v < 256) : (UInt8.ofNat v).toNat = v := by
  rw [UInt8.toNat_ofNat']
  exact Nat.mod_eq_of_lt h

theorem getD_length_append {before after : Bytes} {n : Nat} {byte : UInt8}
    (h : before.length = n) : (before ++ byte :: after).getD n 0 = byte := by
  rw [← h, List.getD_append_right _ _ _ _ (Nat.le_refl _), Nat.sub_self]
  rfl

/-- The lengths that are sent are those of the texts. -/
theorem sent_lengths (b : Beacon) (identity : PublicKey) :
    (b.sent identity).Lengths (as_bytes (b.sent identity).platform).length
      (as_bytes (b.sent identity).name).length := by
  have hplatform : (as_bytes (b.sent identity).platform).length ≤ 16 :=
    (truncate_utf8_cuts b.platform MAX_PLATFORM).fits
  have hname : (as_bytes (b.sent identity).name).length ≤ 64 := (truncate_utf8_cuts _ MAX_NAME).fits
  refine ⟨by omega, by omega, ?_, ?_⟩
  · unfold MAX_PLATFORM
    omega
  · unfold MAX_NAME
    omega

/-- A beacon whose texts fit and that hides no name is sent as it is. -/
theorem sent_self {r : Beacon} (hplatform : (as_bytes r.platform).length ≤ MAX_PLATFORM)
    (hname : (as_bytes r.name).length ≤ MAX_NAME)
    (hhidden : r.flags &&& FLAG_NAME_HIDDEN ≠ 0 → r.name = "") : r.sent r.public_key = r := by
  have htext : (if r.flags &&& FLAG_NAME_HIDDEN ≠ 0 then "" else r.name) = r.name := by
    split
    · exact (hhidden ‹_›).symm
    · rfl
  unfold sent
  rw [htext, truncate_utf8_of_fits hplatform, truncate_utf8_of_fits hname]

end Reader

/-! ## 5. What is accepted -/

section Decode

variable [Signatures] {data : Bytes} {r : Beacon}

/-- The accepted bytes: the magic, the fields, and a signature of both that verifies. -/
theorem decode_eq_ok :
    decode data = .ok r ↔ ∃ platform_len name_len sig, r.Lengths platform_len name_len ∧
      sig.length = 64 ∧ data = BEACON_MAGIC ++ r.put_fields platform_len name_len ++ sig ∧
      Signatures.verify_signature r.public_key
        (BEACON_MAGIC ++ r.put_fields platform_len name_len) sig = true := by
  constructor
  · intro h
    unfold decode at h
    split at h
    · exact absurd h nofun
    · rename_i hsize
      dsimp only at h
      split at h
      · exact absurd h nofun
      · rename_i hmagic
        -- The signature is the last 64 bytes, the body all before it. Every branch but one is an
        -- error.
        generalize hbody : data.take (data.length - 64) = body at h hmagic
        generalize hsig : data.drop (data.length - 64) = sig at h
        cases hread : read_fields (body.drop 4) with
        | error e =>
            rw [hread] at h
            exact absurd h nofun
        | ok result =>
            obtain ⟨b, rest⟩ := result
            rw [hread] at h
            dsimp only at h
            split at h
            · exact absurd h nofun
            · rename_i hrest
              split at h
              · rename_i hverify
                obtain rfl := Except.ok.inj h
                obtain ⟨platform_len, name_len, hlen, hfields⟩ := of_read_fields hread
                rw [not_not.1 hrest, List.append_nil] at hfields
                have hall : body = BEACON_MAGIC ++ b.put_fields platform_len name_len := by
                  rw [← not_not.1 hmagic, ← hfields, List.take_append_drop]
                refine ⟨platform_len, name_len, sig, hlen, ?_, ?_, ?_⟩
                · rw [← hsig, List.length_drop]
                  omega
                · rw [← hall, ← hbody, ← hsig, List.take_append_drop]
                · rw [← hall]
                  exact hverify
              · exact absurd h nofun
  · rintro ⟨platform_len, name_len, sig, hlen, hsig, rfl, hverify⟩
    have hfields := length_put_fields r platform_len name_len
    have hplatform := hlen.platform
    have hname := hlen.name
    have hmagic : BEACON_MAGIC.length = 4 := rfl
    have hsize : (BEACON_MAGIC ++ r.put_fields platform_len name_len).length =
        53 + (as_bytes r.platform).length + (as_bytes r.name).length := by
      rw [List.length_append, hmagic, hfields]
      omega
    -- Conversely the lengths put the cut between body and signature exactly where it was made.
    have hwhole : (BEACON_MAGIC ++ r.put_fields platform_len name_len ++ sig).length - 64 =
        (BEACON_MAGIC ++ r.put_fields platform_len name_len).length := by
      rw [List.length_append, hsig, Nat.add_sub_cancel]
    have hread := read_fields_put hlen []
    rw [List.append_nil] at hread
    unfold decode
    rw [if_neg (by
      rw [List.length_append, hsize, hsig]
      unfold MAX_BEACON_LEN MAX_PLATFORM MAX_NAME at *
      omega)]
    dsimp only
    rw [hwhole, List.take_left, List.drop_left, ← hmagic, List.take_left, List.drop_left, hread,
      if_neg (not_not.2 rfl)]
    dsimp only
    rw [if_neg (not_not.2 rfl), if_pos hverify]

/-- The bytes at the places that a reader takes for the flags and the lengths. -/
def flags_at (data : Bytes) : UInt8 := data.getD 50 0

def platform_len_at (data : Bytes) : Nat := (data.getD 51 0).toNat

def name_len_at (data : Bytes) : Nat :=
  (data.getD (52 + min (platform_len_at data) MAX_PLATFORM) 0).toNat

omit [Signatures] in
/-- What stands at the three places of the bytes that were read. -/
theorem at_put_fields {platform_len name_len : Nat} {sig : Bytes}
    (h : r.Lengths platform_len name_len)
    (hdata : data = BEACON_MAGIC ++ r.put_fields platform_len name_len ++ sig) :
    flags_at data = r.flags ∧ platform_len_at data = platform_len ∧
      name_len_at data = name_len := by
  have hmagic : BEACON_MAGIC.length = 4 := rfl
  have hflags : flags_at data = r.flags := by
    -- Each of the three bytes is split off at its place; `getD_length_append` then reads it.
    have hsplit : data = (BEACON_MAGIC ++ put_be 32 r.public_key.bytes.toNat ++
        put_be 2 r.port.toNat ++ put_be 8 r.capabilities.bits.toNat ++
        put_be 4 r.protocol_max.toNat) ++ UInt8.ofNat r.flags.toNat ::
          (put_be 1 platform_len ++ as_bytes r.platform ++ put_be 1 name_len ++
            as_bytes r.name ++ sig) := by
      rw [hdata, ← put_be_one]
      simp only [put_fields, List.append_assoc]
    rw [flags_at, hsplit, getD_length_append (by simp [hmagic]), UInt8.ofNat_toNat]
  have hplatform : platform_len_at data = platform_len := by
    have hsplit : data = (BEACON_MAGIC ++ put_be 32 r.public_key.bytes.toNat ++
        put_be 2 r.port.toNat ++ put_be 8 r.capabilities.bits.toNat ++
        put_be 4 r.protocol_max.toNat ++ put_be 1 r.flags.toNat) ++ UInt8.ofNat platform_len ::
          (as_bytes r.platform ++ put_be 1 name_len ++ as_bytes r.name ++ sig) := by
      rw [hdata, ← put_be_one]
      simp only [put_fields, List.append_assoc]
    rw [platform_len_at, hsplit, getD_length_append (by simp [hmagic]),
      toNat_ofNat_of_lt h.platform_byte]
  refine ⟨hflags, hplatform, ?_⟩
  have hsplit : data = (BEACON_MAGIC ++ put_be 32 r.public_key.bytes.toNat ++
      put_be 2 r.port.toNat ++ put_be 8 r.capabilities.bits.toNat ++
      put_be 4 r.protocol_max.toNat ++ put_be 1 r.flags.toNat ++ put_be 1 platform_len ++
      as_bytes r.platform) ++ UInt8.ofNat name_len :: (as_bytes r.name ++ sig) := by
    rw [hdata, ← put_be_one]
    simp only [put_fields, List.append_assoc]
  rw [name_len_at, hplatform, ← h.platform, hsplit, getD_length_append (by simp [hmagic]; omega),
    toNat_ofNat_of_lt h.name_byte]

end Decode

/-! ## 6. Round trips -/

section RoundTrip

variable [Signatures]

theorem decode_encode (h : Signatures.Exact) (b : Beacon) (identity : PublicKey) :
    decode (b.encode identity) = .ok (b.sent identity) :=
  decode_eq_ok.2 ⟨_, _, _, sent_lengths b identity, h.length_sign _ _, rfl,
    (h.verify_iff _ _ _).2 rfl⟩

/-- The lengths in the bytes are those of the texts, and the bytes are what the beacon encodes
to. -/
structure IsEncoding (data : Bytes) (r : Beacon) : Prop where
  platform_len : platform_len_at data = (as_bytes r.platform).length
  name_len : name_len_at data = (as_bytes r.name).length
  encoded : data = r.encode r.public_key

/-- The lengths keep to the limits, and a beacon that hides its name has none. -/
structure Plain (data : Bytes) : Prop where
  platform : platform_len_at data ≤ MAX_PLATFORM
  name : name_len_at data ≤ MAX_NAME
  hidden : flags_at data &&& FLAG_NAME_HIDDEN ≠ 0 → name_len_at data = 0

/-- **The beacon.** What is encoded decodes to itself, with the sender's key and its texts cut; and
accepted bytes are the encoding of the result if and only if their lengths keep to the limits and a
hidden name is empty. -/
theorem beacon_round_trip (h : Signatures.Exact) (b : Beacon) (identity : PublicKey)
    (data : Bytes) :
    (∃ platform name,
      decode (b.encode identity) = .ok { b with public_key := identity, platform, name } ∧
      CutTo MAX_PLATFORM b.platform platform ∧
      (b.flags &&& FLAG_NAME_HIDDEN ≠ 0 → name = "") ∧
      (b.flags &&& FLAG_NAME_HIDDEN = 0 → CutTo MAX_NAME b.name name)) ∧
    ∀ r, decode data = .ok r → (IsEncoding data r ↔ Plain data) := by
  constructor
  · refine ⟨_, _, decode_encode h b identity, truncate_utf8_cuts _ _, fun hhidden => ?_,
      fun hshown => ?_⟩
    · rw [if_pos hhidden]
      rfl
    · rw [if_neg (not_not.2 hshown)]
      exact truncate_utf8_cuts _ _
  · intro r hdecode
    obtain ⟨platform_len, name_len, sig, hlen, hsig, hdata, hverify⟩ := decode_eq_ok.1 hdecode
    obtain ⟨hflags, hplatform, hname⟩ := at_put_fields hlen hdata
    rw [(h.verify_iff _ _ _).1 hverify] at hdata
    have hp := hlen.platform
    have hn := hlen.name
    constructor
    · intro henc
      have hp' := henc.platform_len
      have hn' := henc.name_len
      refine ⟨by omega, by omega, fun hhidden => ?_⟩
      -- the encoding has no name, and is as long
      rw [hflags] at hhidden
      have hsame := congrArg List.length (hdata.symm.trans henc.encoded)
      have hplat : (r.sent r.public_key).platform = r.platform :=
        truncate_utf8_of_fits (by omega)
      have hnone : (r.sent r.public_key).name = "" := by
        change truncate_utf8 (if _ then _ else _) MAX_NAME = _
        rw [if_pos hhidden]
        rfl
      rw [encode, body, List.length_append, List.length_append, List.length_append,
        List.length_append, length_put_fields, length_put_fields, h.length_sign, h.length_sign,
        hplat, hnone] at hsame
      have hzero : (as_bytes "").length = 0 := rfl
      omega
    · intro hplain
      have hp' := hplain.platform
      have hn' := hplain.name
      refine ⟨by omega, by omega, ?_⟩
      have hsent : r.sent r.public_key = r :=
        sent_self (by omega) (by omega) fun hhidden => by
          rw [← hflags] at hhidden
          have := hplain.hidden hhidden
          exact as_bytes_eq_nil (by omega)
      rw [encode, body, hsent, hdata]
      have hpl : (as_bytes r.platform).length = platform_len := by omega
      have hnl : (as_bytes r.name).length = name_len := by omega
      rw [hpl, hnl]

end RoundTrip

namespace Sample

/-- A signature that spells the key and the low bytes of what was signed. -/
instance spelled : Signatures where
  sign key body := put_be 32 key.bytes.toNat ++ put_be 32 (get_be body)
  verify_signature key body sig := sig = put_be 32 key.bytes.toNat ++ put_be 32 (get_be body)

theorem spelled_exact : Signatures.Exact where
  length_sign := fun key body => by
    change (put_be 32 key.bytes.toNat ++ put_be 32 (get_be body)).length = 64
    rw [List.length_append, put_be_length, put_be_length]
  verify_iff := fun key body sig => by
    change decide (sig = _) = true ↔ _
    rw [decide_eq_true_iff]
    rfl

def desk : Beacon where
  public_key := ⟨7⟩
  port := 47650
  capabilities := ⟨0x100⟩
  protocol_max := 0x10000
  flags := 0
  platform := "windows-windows-"
  name := "Desk"

/-- A datagram whose sender writes a length of 200 before a platform of sixteen bytes. -/
def long_length : Bytes :=
  let body := BEACON_MAGIC ++ desk.put_fields 200 4
  body ++ Signatures.sign desk.public_key body

/-- It is accepted, and it is not what its result encodes to. -/
theorem long_length_accepted : decode long_length = .ok desk ∧ ¬ IsEncoding long_length desk :=
  ⟨by decide +kernel, fun h => absurd h.platform_len (by decide +kernel)⟩

/-- The same beacon with the length that it has. -/
theorem beacon_round_trip_desk :
    (∃ platform name,
      decode (desk.encode ⟨9⟩) = .ok { desk with public_key := ⟨9⟩, platform, name } ∧
      CutTo MAX_PLATFORM desk.platform platform ∧
      (desk.flags &&& FLAG_NAME_HIDDEN ≠ 0 → name = "") ∧
      (desk.flags &&& FLAG_NAME_HIDDEN = 0 → CutTo MAX_NAME desk.name name)) ∧
    ∀ r, decode (desk.encode ⟨9⟩) = .ok r →
      (IsEncoding (desk.encode ⟨9⟩) r ↔ Plain (desk.encode ⟨9⟩)) :=
  beacon_round_trip spelled_exact desk ⟨9⟩ (desk.encode ⟨9⟩)

end Sample

end Beacon

end SoundPush
