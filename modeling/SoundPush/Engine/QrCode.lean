/-
`QrCode` -- the text of a pairing code (`sp-security/src/pairing.rs`): `SP1:` and the
base32 of a few bytes.

Both directions of the base32 are read as bits (`Bits`): the characters of an encoding
are the bits of its bytes and less than a character of zeros (`base32_encode_bits`), and
the bits of any characters are those of the bytes they decode to and less than a byte that
is dropped (`dropped_bits`). The layout of the bytes is read back as it was written
(`Carried.parse_to_bytes`), and what is read was written so (`of_parse`).
-/
import SoundPush.Lib.Bits
import SoundPush.Lib.Reads
import SoundPush.Engine.Actor
import SoundPush.Engine.Settings

set_option autoImplicit false

namespace SoundPush

/-! ## 1. Base32 -/

/-- `const BASE32`. -/
def BASE32 : List Char := "ABCDEFGHIJKLMNOPQRSTUVWXYZ234567".toList

/-- `BASE32[i]`. -/
def base32_char (i : Nat) : Char := BASE32.getD i 'A'

/-- `while bits >= 5`: the characters that are complete, and how many bits are left. -/
def base32_emit (buffer : Nat) : Nat → List Char × Nat
  | left + 5 =>
      let (out, rest) := base32_emit buffer left
      (base32_char (buffer >>> left &&& 0x1F) :: out, rest)
  | left => ([], left)

/-- One byte into the 32-bit buffer. -/
def base32_push (st : List Char × Nat × Nat) (b : UInt8) : List Char × Nat × Nat :=
  let (out, buffer, left) := st
  let buffer := (buffer <<< 8 ||| b.toNat) % 2 ^ 32
  let (more, left) := base32_emit buffer (left + 8)
  (out ++ more, buffer, left)

/-- RFC 4648 base32, uppercase, no padding. -/
def base32_encode (bytes : Bytes) : List Char :=
  let (out, buffer, left) := bytes.foldl base32_push ([], 0, 0)
  if 0 < left then out ++ [base32_char (buffer <<< (5 - left) &&& 0x1F)] else out

def base32_value (c : Char) : Option Nat :=
  let n := c.toNat
  if 65 ≤ n ∧ n ≤ 90 then some (n - 65)
  else if 97 ≤ n ∧ n ≤ 122 then some (n - 97)
  else if 50 ≤ n ∧ n ≤ 55 then some (n - 50 + 26)
  else none

/-- Five bits into the 32-bit buffer. -/
def base32_shift (st : Bytes × Nat × Nat) (value : Nat) : Bytes × Nat × Nat :=
  let (out, buffer, left) := st
  let buffer := (buffer <<< 5 ||| value) % 2 ^ 32
  let left := left + 5
  if 8 ≤ left then (out ++ [UInt8.ofNat (buffer >>> (left - 8))], buffer, left - 8)
  else (out, buffer, left)

/-- A byte that is not of the alphabet ends the decoding; a character beyond ASCII has none that
is. -/
def base32_decode (text : List Char) : Option Bytes :=
  (text.foldlM (fun st c => (base32_value c).map (base32_shift st)) ([], 0, 0)).map Prod.fst

/-! ## 2. The payload -/

def QR_PREFIX : String := "SP1:"

/-- Addresses included in a code. -/
def MAX_QR_ADDRESSES : Nat := 3

def CODE_VERSION : UInt8 := 1

/-- `SecurityError::InvalidPairingPayload`. -/
structure InvalidPairingPayload where
  reason : String
  deriving DecidableEq, Repr

def IpAddr.to_bytes : IpAddr → Bytes
  | .V4 octets => 4 :: put_be 4 octets.toNat
  | .V6 octets => 6 :: put_be 16 octets.toNat

namespace QrPairingPayload

/-- `version u8 | device_id [16] | secret [16] | port u16 | count u8 | (4 + ipv4 [4] | 6 + ipv6
[16])*` -/
def to_bytes (p : QrPairingPayload) : Bytes :=
  let port := ((p.addresses.head?).map SocketAddr.port).getD 0
  let addrs := ((p.addresses.filter fun a => a.port = port).map SocketAddr.ip).take MAX_QR_ADDRESSES
  CODE_VERSION :: (put_be 16 p.device_id.bytes.toNat ++ (put_be 16 p.secret.toNat ++
    (put_be 2 port.toNat ++ (UInt8.ofNat addrs.length :: addrs.flatMap IpAddr.to_bytes))))

/-- Encode as `SP1:<BASE32>`. -/
def to_uri (p : QrPairingPayload) : String := QR_PREFIX ++ String.ofList (base32_encode p.to_bytes)

end QrPairingPayload

/-- `Reader::array`: the next `n` bytes, and what is left. -/
def read_array (n : Nat) (buf : Bytes) : Except InvalidPairingPayload (Bytes × Bytes) :=
  if n ≤ buf.length then .ok (buf.take n, buf.drop n) else .error ⟨"truncated"⟩

/-- `Reader::u8`. -/
def read_u8 (buf : Bytes) : Except InvalidPairingPayload (UInt8 × Bytes) :=
  match read_array 1 buf with
  | .ok (bytes, rest) => .ok (bytes.headD 0, rest)
  | .error e => .error e

def read_ip (buf : Bytes) : Except InvalidPairingPayload (IpAddr × Bytes) := do
  let (kind, buf) ← read_u8 buf
  if kind = 4 then
    let (octets, buf) ← read_array 4 buf
    return (.V4 (BitVec.ofNat 32 (get_be octets)), buf)
  else if kind = 6 then
    let (octets, buf) ← read_array 16 buf
    return (.V6 (BitVec.ofNat 128 (get_be octets)), buf)
  else throw ⟨"address type"⟩

/-- `for _ in 0..count`. -/
def read_ips (count : Nat) (buf : Bytes) : Except InvalidPairingPayload (List IpAddr × Bytes) :=
  read_list read_ip count buf

namespace QrPairingPayload

/-- The bytes of a code. -/
def parse (bytes : Bytes) : Except InvalidPairingPayload QrPairingPayload := do
  let (version, r) ← read_u8 bytes
  if version ≠ CODE_VERSION then throw ⟨"unsupported version"⟩
  let (device_id, r) ← read_array 16 r
  let (secret, r) ← read_array 16 r
  let (port, r) ← read_array 2 r
  let (count, r) ← read_u8 r
  if count = 0 ∨ MAX_QR_ADDRESSES < count.toNat ∨ get_be port = 0 then throw ⟨"addresses"⟩
  let (ips, r) ← read_ips count.toNat r
  if r ≠ [] then throw ⟨"trailing data"⟩
  return {
    device_id := ⟨BitVec.ofNat 128 (get_be device_id)⟩
    addresses := ips.map fun ip => ⟨ip, UInt16.ofNat (get_be port)⟩
    secret := BitVec.ofNat 128 (get_be secret)
    expires_unix := 0 }

/-- `str::strip_prefix`. -/
def strip_prefix (pre text : List Char) : Option (List Char) :=
  if pre.isPrefixOf text then some (text.drop pre.length) else none

/-- Parse an untrusted scanned code. -/
def from_uri (text : String) : Except InvalidPairingPayload QrPairingPayload :=
  let text := trim text.toList
  if 256 < (text.map Char.utf8Size).sum then .error ⟨"too long"⟩
  else
    match strip_prefix QR_PREFIX.toList text with
    | none => .error ⟨"not a SoundPush pairing code"⟩
    | some body =>
        match base32_decode body with
        | none => .error ⟨"encoding"⟩
        | some bytes => parse bytes

end QrPairingPayload

/-! ## 3. Base32 as bits -/

theorem base32_value_char {i : Nat} (h : i < 32) : base32_value (base32_char i) = some i := by
  have hall : ∀ j : Fin 32, base32_value (base32_char j) = some j.val := by decide
  exact hall ⟨i, h⟩

theorem base32_value_lt {c : Char} {v : Nat} (h : base32_value c = some v) : v < 32 := by
  unfold base32_value at h
  grind

/-- A character of the alphabet in either case, and its upper case one. -/
theorem toUpper_of_value {c : Char} {v : Nat} (h : base32_value c = some v) :
    c.toUpper = base32_char v := by
  have hsmall : c.toNat < 128 := by
    unfold base32_value at h
    grind
  have hall : ∀ n : Fin 128, ∀ v : Fin 32, base32_value (Char.ofNat n) = some v.val →
      (Char.ofNat n).toUpper = base32_char v := by decide +kernel
  have hc := hall ⟨c.toNat, hsmall⟩ ⟨v, base32_value_lt h⟩
  rw [Char.ofNat_toNat] at hc
  exact hc h

/-- Letters count the same in either case. -/
theorem base32_value_toUpper (c : Char) : base32_value c.toUpper = base32_value c := by
  by_cases hsmall : c.toNat < 128
  · have hall : ∀ n : Fin 128,
        base32_value (Char.ofNat n).toUpper = base32_value (Char.ofNat n) := by decide +kernel
    have hc := hall ⟨c.toNat, hsmall⟩
    rw [Char.ofNat_toNat] at hc
    exact hc
  · have hc : ¬ ('a'.val ≤ c.val ∧ c.val ≤ 'z'.val) := by
      rintro ⟨-, hz⟩
      have hle : c.toNat ≤ 122 := hz
      omega
    have hsame : c.toUpper = c := dif_neg hc
    rw [hsame]

/-- Words of five bits. -/
def Fives (values : List Nat) : Prop := ∀ v ∈ values, v < 2 ^ 5

theorem Fives.append {l l' : List Nat} (h : Fives l) (h' : Fives l') : Fives (l ++ l') := by
  intro v hv
  rcases List.mem_append.1 hv with hv | hv
  · exact h v hv
  · exact h' v hv

/-- The low five bits of the buffer. -/
theorem bits_and_31 (x : Nat) : x &&& 0x1F < 2 ^ 5 ∧ bits 5 (x &&& 0x1F) = bits 5 x := by
  have hmod : x &&& 0x1F = x % 2 ^ 5 := Nat.and_two_pow_sub_one_eq_mod x 5
  rw [hmod]
  exact ⟨Nat.mod_lt _ (by decide), bits_mod (Nat.le_refl 5) x⟩

theorem base32_emit_add (buffer left : Nat) : base32_emit buffer (left + 5) =
    (base32_char (buffer >>> left &&& 0x1F) :: (base32_emit buffer left).1,
      (base32_emit buffer left).2) := by
  rw [base32_emit]

theorem base32_emit_of_lt (buffer : Nat) {left : Nat} (h : left < 5) :
    base32_emit buffer left = ([], left) := by
  unfold base32_emit
  split
  · omega
  · rfl

/-- What is emitted and what stays are the bits that were there. -/
theorem base32_emit_bits (buffer left : Nat) : ∃ values, Fives values ∧
    (base32_emit buffer left).1 = values.map base32_char ∧
    bits left buffer = values.flatMap (bits 5) ++ bits (base32_emit buffer left).2 buffer ∧
    (base32_emit buffer left).2 < 5 := by
  induction left using Nat.strong_induction_on with
  | _ left ih =>
      by_cases h5 : left < 5
      · rw [base32_emit_of_lt buffer h5]
        exact ⟨[], fun v hv => absurd hv List.not_mem_nil, rfl, rfl, h5⟩
      · obtain ⟨k, rfl⟩ := Nat.exists_eq_add_of_le' (Nat.le_of_not_lt h5)
        obtain ⟨values, hfives, hout, hbits, hleft⟩ := ih k (by omega)
        obtain ⟨hlt, hlow⟩ := bits_and_31 (buffer >>> k)
        rw [base32_emit_add]
        refine ⟨(buffer >>> k &&& 0x1F) :: values, ?_, ?_, ?_, hleft⟩
        · exact List.forall_mem_cons.2 ⟨hlt, hfives⟩
        · rw [List.map_cons, ← hout]
        · rw [Nat.add_comm k 5, bits_add, List.flatMap_cons, List.append_assoc, hlow, hbits]

/-- The loop over the bytes: what was emitted and what waits are the bits of the bytes. -/
def Encoded (done : Bytes) (st : List Char × Nat × Nat) : Prop :=
  ∃ values, Fives values ∧ st.1 = values.map base32_char ∧
    (done.map UInt8.toNat).flatMap (bits 8) = values.flatMap (bits 5) ++ bits st.2.2 st.2.1 ∧
    st.2.2 < 5

theorem Encoded.push {done : Bytes} {st : List Char × Nat × Nat} (h : Encoded done st) (b : UInt8) :
    Encoded (done ++ [b]) (base32_push st b) := by
  obtain ⟨out, buffer, left⟩ := st
  obtain ⟨values, hfives, hout, hbits, hleft⟩ := h
  obtain ⟨more, hmore, hemit, hrest, hlt⟩ :=
    base32_emit_bits ((buffer <<< 8 ||| b.toNat) % 2 ^ 32) (left + 8)
  -- at most twelve bits wait, so that reducing the buffer drops none of them
  have hbuffer : bits (left + 8) ((buffer <<< 8 ||| b.toNat) % 2 ^ 32) =
      bits left buffer ++ bits 8 b.toNat := by
    rw [bits_mod (by dsimp only at hleft; omega), bits_shift_or b.toNat_lt]
  refine ⟨values ++ more, hfives.append hmore, ?_, ?_, hlt⟩
  · rw [List.map_append, ← hout, ← hemit]
    rfl
  · rw [List.map_append, List.flatMap_append, hbits, List.flatMap_append, List.append_assoc,
      List.append_assoc]
    congr 1
    rw [hbuffer] at hrest
    rw [List.map_singleton, List.flatMap_singleton]
    exact hrest

theorem encoded_foldl (bytes : Bytes) : Encoded bytes (bytes.foldl base32_push ([], 0, 0)) := by
  induction bytes using List.reverseRecOn with
  | nil => exact ⟨[], fun v hv => absurd hv List.not_mem_nil, rfl, rfl, by decide⟩
  | append_singleton bytes b ih =>
      rw [List.foldl_append, List.foldl_cons, List.foldl_nil]
      exact ih.push b

/-- An encoding is the bits of the bytes, and zeros up to a whole character. -/
theorem base32_encode_bits (bytes : Bytes) : ∃ values pad, Fives values ∧ pad < 5 ∧
    base32_encode bytes = values.map base32_char ∧
    values.flatMap (bits 5) =
      (bytes.map UInt8.toNat).flatMap (bits 8) ++ List.replicate pad false := by
  obtain ⟨values, hfives, hout, hbits, hleft⟩ := encoded_foldl bytes
  unfold base32_encode
  generalize bytes.foldl base32_push ([], 0, 0) = st at *
  obtain ⟨out, buffer, left⟩ := st
  dsimp only at hout hbits hleft ⊢
  by_cases h0 : 0 < left
  · obtain ⟨hlt, hlow⟩ := bits_and_31 (buffer <<< (5 - left))
    refine ⟨values ++ [buffer <<< (5 - left) &&& 0x1F], 5 - left, ?_, by omega, ?_, ?_⟩
    · exact hfives.append (List.forall_mem_singleton.2 hlt)
    · rw [if_pos h0, List.map_append, hout]
      rfl
    · have hlast := bits_shift left (5 - left) buffer
      rw [Nat.add_sub_cancel' (Nat.le_of_lt hleft)] at hlast
      rw [List.flatMap_append, List.flatMap_singleton, hlow, hlast, hbits, List.append_assoc]
  · have hzero : left = 0 := by omega
    rw [if_neg h0]
    refine ⟨values, 0, hfives, by decide, hout, ?_⟩
    rw [hbits, hzero, bits, List.append_nil, List.replicate_zero, List.append_nil]

/-! ## 4. Decoding as bits -/

/-- The loop over the characters: the bytes and what waits are the bits of the words. -/
def Decoded (done : List Nat) (st : Bytes × Nat × Nat) : Prop :=
  done.flatMap (bits 5) = (st.1.map UInt8.toNat).flatMap (bits 8) ++ bits st.2.2 st.2.1 ∧ st.2.2 < 8

theorem Decoded.shift {done : List Nat} {st : Bytes × Nat × Nat} (h : Decoded done st) {v : Nat}
    (hv : v < 2 ^ 5) : Decoded (done ++ [v]) (base32_shift st v) := by
  obtain ⟨out, buffer, left⟩ := st
  obtain ⟨hbits, hleft⟩ := h
  dsimp only at hbits hleft
  have hbuffer :
      bits (left + 5) ((buffer <<< 5 ||| v) % 2 ^ 32) = bits left buffer ++ bits 5 v := by
    rw [bits_mod (by omega), bits_shift_or hv]
  have hall : (done ++ [v]).flatMap (bits 5) =
      (out.map UInt8.toNat).flatMap (bits 8) ++
        bits (left + 5) ((buffer <<< 5 ||| v) % 2 ^ 32) := by
    rw [List.flatMap_append, List.flatMap_singleton, hbits, hbuffer, List.append_assoc]
  unfold base32_shift
  dsimp only
  by_cases h8 : 8 ≤ left + 5
  · rw [if_pos h8]
    -- the upper eight of the bits that wait are the byte
    have hbyte : bits 8 (UInt8.ofNat (((buffer <<< 5 ||| v) % 2 ^ 32) >>> (left + 5 - 8))).toNat =
        bits 8 (((buffer <<< 5 ||| v) % 2 ^ 32) >>> (left + 5 - 8)) := by
      rw [UInt8.toNat_ofNat']
      exact bits_mod (Nat.le_refl 8) _
    have hsplit := bits_add 8 (left + 5 - 8) ((buffer <<< 5 ||| v) % 2 ^ 32)
    rw [Nat.add_sub_cancel' h8] at hsplit
    refine ⟨?_, by dsimp only; omega⟩
    rw [hall, List.map_append, List.flatMap_append, List.map_singleton, List.flatMap_singleton,
      hbyte, List.append_assoc, ← hsplit]
  · rw [if_neg h8]
    exact ⟨hall, Nat.lt_of_not_le h8⟩

theorem decoded_foldl {values : List Nat} (h : Fives values) :
    Decoded values (values.foldl base32_shift ([], 0, 0)) := by
  induction values using List.reverseRecOn with
  | nil => exact ⟨rfl, by decide⟩
  | append_singleton values v ih =>
      rw [List.foldl_append, List.foldl_cons, List.foldl_nil]
      exact (ih fun x hx => h x (List.mem_append_left _ hx)).shift
        (h v (List.mem_append_right _ List.mem_cons_self))

theorem foldlM_base32 (text : List Char) (st : Bytes × Nat × Nat) :
    text.foldlM (fun st c => (base32_value c).map (base32_shift st)) st =
      (text.mapM base32_value).map (List.foldl base32_shift st) := by
  induction text generalizing st with
  | nil => rfl
  | cons c text ih =>
      rw [List.foldlM_cons, List.mapM_cons]
      match base32_value c with
      | none => rfl
      | some v =>
          have hrest := ih (base32_shift st v)
          match htext : text.mapM base32_value with
          | none => rw [htext] at hrest; simpa using hrest
          | some vs => rw [htext] at hrest; simpa using hrest

theorem fives_of_mapM {text : List Char} {values : List Nat}
    (h : text.mapM base32_value = some values) : Fives values := by
  induction text generalizing values with
  | nil =>
      rw [List.mapM_nil] at h
      obtain rfl := Option.some.inj h
      exact fun v hv => absurd hv List.not_mem_nil
  | cons c text ih =>
      rw [List.mapM_cons] at h
      obtain ⟨v, hv, h⟩ := Option.bind_eq_some_iff.1 h
      obtain ⟨vs, hvs, h⟩ := Option.bind_eq_some_iff.1 h
      obtain rfl := Option.some.inj h
      exact List.forall_mem_cons.2 ⟨base32_value_lt hv, ih hvs⟩

/-- What the characters decode to, and the rest of less than a byte. -/
theorem base32_decode_bits {text : List Char} {bytes : Bytes}
    (h : base32_decode text = some bytes) :
    ∃ values rest, text.mapM base32_value = some values ∧ Fives values ∧ rest.length < 8 ∧
      values.flatMap (bits 5) = (bytes.map UInt8.toNat).flatMap (bits 8) ++ rest := by
  unfold base32_decode at h
  rw [foldlM_base32, Option.map_map, Option.map_eq_some_iff] at h
  obtain ⟨values, hvalues, hout⟩ := h
  have hfives := fives_of_mapM hvalues
  obtain ⟨hbits, hleft⟩ := decoded_foldl hfives
  rw [← hout]
  exact ⟨values, _, hvalues, hfives, by rw [length_bits]; exact hleft, hbits⟩

/-- The bits beyond the last whole byte, which the decoding drops. -/
def dropped_bits (body : List Char) : List Bool :=
  let all := (body.filterMap base32_value).flatMap (bits 5)
  all.drop (8 * (all.length / 8))

theorem filterMap_of_mapM {text : List Char} {values : List Nat}
    (h : text.mapM base32_value = some values) : text.filterMap base32_value = values := by
  induction text generalizing values with
  | nil =>
      rw [List.mapM_nil] at h
      exact Option.some.inj h
  | cons c text ih =>
      rw [List.mapM_cons] at h
      obtain ⟨v, hv, h⟩ := Option.bind_eq_some_iff.1 h
      obtain ⟨vs, hvs, h⟩ := Option.bind_eq_some_iff.1 h
      rw [List.filterMap_cons_some hv, ih hvs]
      exact Option.some.inj h

/-- The words that are decoded: the bytes, and the bits that are dropped. -/
theorem dropped_bits_spec {text : List Char} {bytes : Bytes} {values : List Nat}
    (h : base32_decode text = some bytes) (hvalues : text.mapM base32_value = some values) :
    values.flatMap (bits 5) = (bytes.map UInt8.toNat).flatMap (bits 8) ++ dropped_bits text ∧
      (dropped_bits text).length < 8 := by
  obtain ⟨values', rest, hvalues', -, hrest, hbits⟩ := base32_decode_bits h
  obtain rfl := Option.some.inj (hvalues'.symm.trans hvalues)
  have hwhole : ((bytes.map UInt8.toNat).flatMap (bits 8)).length = 8 * bytes.length := by
    rw [length_flatMap_bits, List.length_map]
  have hcount : 8 * ((8 * bytes.length + rest.length) / 8) = 8 * bytes.length := by omega
  have hdrop : dropped_bits text = rest := by
    unfold dropped_bits
    dsimp only
    rw [filterMap_of_mapM hvalues, hbits, List.length_append, hwhole, hcount, ← hwhole,
      List.drop_left]
  rw [hdrop]
  exact ⟨hbits, hrest⟩

theorem toNat_lt_of_mem {bytes : Bytes} : ∀ x ∈ bytes.map UInt8.toNat, x < 2 ^ 8 := by
  intro x hx
  obtain ⟨b, -, rfl⟩ := List.mem_map.1 hx
  exact b.toNat_lt

theorem bytes_inj {bytes bytes' : Bytes} (h : bytes.map UInt8.toNat = bytes'.map UInt8.toNat) :
    bytes = bytes' :=
  List.map_injective_iff.2 (fun _ _ => UInt8.toNat.inj) h

/-- Characters that are an encoding, in either case, stand for its words. -/
theorem mapM_of_toUpper {body : List Char} {values : List Nat} (hfives : Fives values)
    (h : body.map Char.toUpper = values.map base32_char) :
    body.mapM base32_value = some values := by
  induction body generalizing values with
  | nil =>
      rw [List.map_nil] at h
      rw [List.map_eq_nil_iff.1 h.symm]
      rfl
  | cons c body ih =>
      match values, hfives, h with
      | v :: values, hfives, h =>
          rw [List.map_cons, List.map_cons, List.cons.injEq] at h
          obtain ⟨hv, hrest⟩ := List.forall_mem_cons.1 hfives
          have hc : base32_value c = some v := by
            rw [← base32_value_toUpper, h.1, base32_value_char hv]
          rw [List.mapM_cons, hc, ih hrest h.2]
          rfl

/-- And what stands for words is their characters, up to case. -/
theorem toUpper_of_mapM {body : List Char} {values : List Nat}
    (h : body.mapM base32_value = some values) :
    body.map Char.toUpper = values.map base32_char := by
  induction body generalizing values with
  | nil =>
      rw [List.mapM_nil] at h
      rw [← Option.some.inj h]
      rfl
  | cons c body ih =>
      rw [List.mapM_cons] at h
      obtain ⟨v, hv, h⟩ := Option.bind_eq_some_iff.1 h
      obtain ⟨vs, hvs, h⟩ := Option.bind_eq_some_iff.1 h
      rw [← Option.some.inj h, List.map_cons, List.map_cons, toUpper_of_value hv, ih hvs]

/-- An encoding is in upper case. -/
theorem base32_encode_upper (bytes : Bytes) :
    (base32_encode bytes).map Char.toUpper = base32_encode bytes := by
  obtain ⟨values, pad, hfives, -, hencode, -⟩ := base32_encode_bits bytes
  rw [hencode, List.map_map]
  refine List.map_congr_left fun v hv => ?_
  exact toUpper_of_value (base32_value_char (hfives v hv))

/-- An encoding in either case is decoded to what was encoded. -/
theorem base32_decode_of_toUpper {body : List Char} {bytes : Bytes}
    (h : body.map Char.toUpper = base32_encode bytes) : base32_decode body = some bytes := by
  obtain ⟨values, pad, hfives, hpad, hencode, hbits⟩ := base32_encode_bits bytes
  rw [hencode] at h
  have hvalues := mapM_of_toUpper hfives h
  have hdecode : base32_decode body = some (values.foldl base32_shift ([], 0, 0)).1 := by
    unfold base32_decode
    rw [foldlM_base32, hvalues]
    rfl
  obtain ⟨hdropped, hlen⟩ := dropped_bits_spec hdecode hvalues
  rw [hbits] at hdropped
  obtain ⟨hsame, -⟩ := flatMap_bits_append_inj toNat_lt_of_mem toNat_lt_of_mem
    (by rw [List.length_replicate]; omega) hlen hdropped
  rw [hdecode, ← bytes_inj hsame]

/-- A decoded text is the encoding of what it decodes to, up to case, if and only if what is
dropped is less than a character and zeros. -/
theorem encode_of_decode {body : List Char} {bytes : Bytes} (h : base32_decode body = some bytes) :
    body.map Char.toUpper = base32_encode bytes ↔
      (dropped_bits body).length < 5 ∧ ∀ b ∈ dropped_bits body, b = false := by
  obtain ⟨values, -, hvalues, hfives, -, -⟩ := base32_decode_bits h
  obtain ⟨hdecoded, hlen⟩ := dropped_bits_spec h hvalues
  obtain ⟨values', pad, hfives', hpad, hencode, hencoded⟩ := base32_encode_bits bytes
  rw [hencode]
  constructor
  · intro hsame
    have hwords : values = values' :=
      Option.some.inj (hvalues.symm.trans (mapM_of_toUpper hfives' hsame))
    rw [hwords, hencoded] at hdecoded
    have hpads := List.append_cancel_left hdecoded
    rw [← hpads, List.length_replicate]
    exact ⟨hpad, fun b hb => List.eq_of_mem_replicate hb⟩
  · rintro ⟨hfew, hzeros⟩
    have hreplicate := List.eq_replicate_of_mem hzeros
    have hwords : values = values' := by
      have h₁ := congrArg List.length hdecoded
      have h₂ := congrArg List.length hencoded
      rw [length_flatMap_bits, List.length_append, length_flatMap_bits] at h₁ h₂
      rw [List.length_replicate] at h₂
      have hpads : (dropped_bits body).length = pad := by omega
      refine flatMap_bits_inj (by decide) hfives hfives' ?_
      rw [hdecoded, hencoded, hreplicate, hpads]
    rw [toUpper_of_mapM hvalues, hwords]

/-! ## 5. The layout of the bytes -/

/-- As many bytes as are asked for. -/
theorem reads_array (n : Nat) : Reads (fun bs : Bytes => bs.length = n) id (read_array n) where
  back := by
    rintro bs rest rfl
    rw [id, read_array, if_pos (by rw [List.length_append]; omega), List.take_left, List.drop_left]
  only := by
    intro buf bs rest h
    unfold read_array at h
    by_cases hle : n ≤ buf.length
    · rw [if_pos hle] at h
      obtain ⟨rfl, rfl⟩ := Prod.mk.inj (Except.ok.inj h)
      exact ⟨List.length_take_of_le hle, (List.take_append_drop n buf).symm⟩
    · rw [if_neg hle] at h
      exact nomatch h

theorem reads_u8 : Reads (fun _ : UInt8 => True) (fun b => [b]) read_u8 where
  back := by
    intro b rest _
    have h : read_array 1 ([b] ++ rest) = .ok ([b], rest) := (reads_array 1).back rfl
    rw [read_u8, h]
    rfl
  only := by
    intro buf b rest h
    refine ⟨trivial, ?_⟩
    unfold read_u8 at h
    split at h
    case h_1 bs rest' hread =>
      obtain ⟨hb, rfl⟩ := Prod.mk.inj (Except.ok.inj h)
      obtain ⟨hlen, rfl⟩ := (reads_array 1).only hread
      obtain ⟨b', rfl⟩ := List.length_eq_one_iff.1 hlen
      rw [← hb]
      rfl
    case h_2 => exact nomatch h

theorem read_u8_cons (b : UInt8) (rest : Bytes) : read_u8 (b :: rest) = .ok (b, rest) :=
  reads_u8.back trivial

/-- Fixed-width numbers are read back. -/
theorem ofNat_get_put {w n : Nat} (hw : 2 ^ w = 256 ^ n) (x : BitVec w) :
    BitVec.ofNat w (get_be (put_be n x.toNat)) = x := by
  rw [get_be_of_lt (hw ▸ x.isLt), BitVec.ofNat_toNat, BitVec.setWidth_eq]

theorem put_ofNat_get {w n : Nat} {bs : Bytes} (hlen : bs.length = n) (hw : 2 ^ w = 256 ^ n) :
    put_be n (BitVec.ofNat w (get_be bs)).toNat = bs := by
  subst hlen
  rw [BitVec.toNat_ofNat, hw, Nat.mod_eq_of_lt (get_be_lt bs), put_be_get_be]

theorem read_put_array (n v : Nat) (rest : Bytes) :
    read_array n (put_be n v ++ rest) = .ok (put_be n v, rest) :=
  (reads_array n).back (put_be_length n v)

theorem reads_ip : Reads (fun _ : IpAddr => True) IpAddr.to_bytes read_ip where
  back := by
    intro ip rest _
    match ip with
    | .V4 octets =>
        rw [IpAddr.to_bytes, List.cons_append, read_ip, read_u8_cons, ok_bind]
        dsimp only
        rw [if_pos rfl, read_put_array, ok_bind]
        dsimp only
        rw [ofNat_get_put (by decide)]
        rfl
    | .V6 octets =>
        rw [IpAddr.to_bytes, List.cons_append, read_ip, read_u8_cons, ok_bind]
        dsimp only
        rw [if_neg (by decide), if_pos rfl, read_put_array, ok_bind]
        dsimp only
        rw [ofNat_get_put (by decide)]
        rfl
  only := by
    intro buf ip rest h
    refine ⟨trivial, ?_⟩
    rw [read_ip, bind_eq_ok] at h
    obtain ⟨⟨kind, buf'⟩, hkind, h⟩ := h
    obtain ⟨-, rfl⟩ := reads_u8.only hkind
    dsimp only at h
    -- The first byte says which kind of address follows; any other value is an error.
    by_cases h4 : kind = 4
    · rw [if_pos h4] at h
      rw [bind_eq_ok] at h
      obtain ⟨⟨octets, buf''⟩, hoctets, h⟩ := h
      obtain ⟨hlen, rfl⟩ := (reads_array 4).only hoctets
      obtain ⟨rfl, rfl⟩ := Prod.mk.inj (Except.ok.inj h)
      rw [IpAddr.to_bytes, put_ofNat_get hlen (by decide), h4]
      rfl
    · rw [if_neg h4] at h
      by_cases h6 : kind = 6
      · rw [if_pos h6] at h
        rw [bind_eq_ok] at h
        obtain ⟨⟨octets, buf''⟩, hoctets, h⟩ := h
        obtain ⟨hlen, rfl⟩ := (reads_array 16).only hoctets
        obtain ⟨rfl, rfl⟩ := Prod.mk.inj (Except.ok.inj h)
        rw [IpAddr.to_bytes, put_ofNat_get hlen (by decide), h6]
        rfl
      · rw [if_neg h6] at h
        exact nomatch h

namespace QrPairingPayload

/-- What a code can carry: one to three addresses that share a port, which is not zero. -/
structure Carried (p : QrPairingPayload) (port : UInt16) : Prop where
  some_address : p.addresses ≠ []
  at_most_three : p.addresses.length ≤ MAX_QR_ADDRESSES
  shared : ∀ a ∈ p.addresses, a.port = port
  nonzero : port ≠ 0

/-- The bytes of such a payload name the port once. -/
theorem Carried.to_bytes_eq {p : QrPairingPayload} {port : UInt16} (h : p.Carried port) :
    p.to_bytes = CODE_VERSION :: (put_be 16 p.device_id.bytes.toNat ++
      (put_be 16 p.secret.toNat ++ (put_be 2 port.toNat ++ (UInt8.ofNat p.addresses.length ::
        (p.addresses.map SocketAddr.ip).flatMap IpAddr.to_bytes)))) := by
  have hport : ((p.addresses.head?).map SocketAddr.port).getD 0 = port := by
    match haddr : p.addresses with
    | [] => exact absurd haddr h.some_address
    | a :: _ => exact h.shared a (haddr ▸ List.mem_cons_self)
  have hall : (p.addresses.filter fun a => a.port = port) = p.addresses :=
    List.filter_eq_self.2 fun a ha => decide_eq_true (h.shared a ha)
  have htake : (p.addresses.map SocketAddr.ip).take MAX_QR_ADDRESSES =
      p.addresses.map SocketAddr.ip :=
    List.take_of_length_le (by rw [List.length_map]; exact h.at_most_three)
  unfold to_bytes
  dsimp only
  rw [hport, hall, htake, List.length_map]

theorem with_port {addrs : List SocketAddr} {port : UInt16} (h : ∀ a ∈ addrs, a.port = port) :
    (addrs.map SocketAddr.ip).map (fun ip => (⟨ip, port⟩ : SocketAddr)) = addrs := by
  induction addrs with
  | nil => rfl
  | cons a addrs ih =>
      obtain ⟨ha, hrest⟩ := List.forall_mem_cons.1 h
      rw [List.map_cons, List.map_cons, ih hrest, ← ha]

/-- The layout is read back. -/
theorem Carried.parse_to_bytes {p : QrPairingPayload} {port : UInt16} (h : p.Carried port) :
    parse p.to_bytes = .ok { p with expires_unix := 0 } := by
  have hpos : 0 < p.addresses.length := List.length_pos_iff.2 h.some_address
  have hle : p.addresses.length ≤ 3 := h.at_most_three
  have hcount : (UInt8.ofNat p.addresses.length).toNat = p.addresses.length := by
    rw [UInt8.toNat_ofNat', Nat.mod_eq_of_lt (by omega)]
  have hget : get_be (put_be 2 port.toNat) = port.toNat := get_be_of_lt port.toNat_lt
  -- Neither of the three checks after the count turns the payload away.
  have hsome : ¬ (UInt8.ofNat p.addresses.length = 0 ∨
      MAX_QR_ADDRESSES < (UInt8.ofNat p.addresses.length).toNat ∨ port.toNat = 0) := by
    rintro (hz | hmany | hz)
    · rw [hz] at hcount
      rw [← hcount] at hpos
      exact absurd hpos (by decide)
    · rw [hcount] at hmany
      exact absurd hmany (Nat.not_lt.2 hle)
    · exact h.nonzero (UInt16.toNat.inj hz)
  have hips : read_ips p.addresses.length
      ((p.addresses.map SocketAddr.ip).flatMap IpAddr.to_bytes) =
        .ok (p.addresses.map SocketAddr.ip, []) := by
    have hread : _ = Except.ok (_, ([] : Bytes)) := (reads_ip.list p.addresses.length).back
      ⟨List.length_map SocketAddr.ip, fun _ _ => trivial⟩
    rw [List.append_nil] at hread
    exact hread
  rw [h.to_bytes_eq]
  unfold parse
  rw [read_u8_cons, ok_bind]
  dsimp only
  rw [if_neg (not_not_intro rfl)]
  rw [read_put_array, ok_bind]
  dsimp only
  rw [read_put_array, ok_bind]
  dsimp only
  rw [read_put_array, ok_bind]
  dsimp only
  rw [read_u8_cons, ok_bind]
  dsimp only
  rw [hget, if_neg hsome, hcount, hips, ok_bind]
  dsimp only
  rw [if_neg (not_not_intro rfl), ofNat_get_put (by decide), ofNat_get_put (by decide),
    UInt16.ofNat_toNat, with_port h.shared]
  rfl

/-- What is read was written so, and can be carried. -/
theorem of_parse {bytes : Bytes} {p : QrPairingPayload} (h : parse bytes = .ok p) :
    p.to_bytes = bytes ∧ ∃ port, p.Carried port := by
  rw [parse, bind_eq_ok] at h
  obtain ⟨⟨version, r₀⟩, hversion, h⟩ := h
  obtain ⟨-, rfl⟩ := reads_u8.only hversion
  dsimp only at h
  by_cases hv : version ≠ CODE_VERSION
  · rw [if_pos hv] at h
    exact nomatch h
  rw [if_neg hv] at h
  rw [bind_eq_ok] at h
  obtain ⟨⟨device_id, r₁⟩, hdevice, h⟩ := h
  obtain ⟨hdevice_len, rfl⟩ := (reads_array 16).only hdevice
  rw [bind_eq_ok] at h
  obtain ⟨⟨secret, r₂⟩, hsecret, h⟩ := h
  obtain ⟨hsecret_len, rfl⟩ := (reads_array 16).only hsecret
  rw [bind_eq_ok] at h
  obtain ⟨⟨port, r₃⟩, hport, h⟩ := h
  obtain ⟨hport_len, rfl⟩ := (reads_array 2).only hport
  rw [bind_eq_ok] at h
  obtain ⟨⟨count, r₄⟩, hcount, h⟩ := h
  obtain ⟨-, rfl⟩ := reads_u8.only hcount
  dsimp only at h
  by_cases hbad : count = 0 ∨ MAX_QR_ADDRESSES < count.toNat ∨ get_be port = 0
  · rw [if_pos hbad] at h
    exact nomatch h
  rw [if_neg hbad] at h
  rw [bind_eq_ok] at h
  obtain ⟨⟨ips, r₅⟩, hips, h⟩ := h
  obtain ⟨⟨hlen, -⟩, rfl⟩ := (reads_ip.list count.toNat).only hips
  dsimp only at h
  by_cases hrest : r₅ ≠ []
  · rw [if_pos hrest] at h
    exact nomatch h
  rw [if_neg hrest] at h
  obtain rfl := Except.ok.inj h
  obtain rfl := not_not.1 hrest
  obtain rfl := not_not.1 hv
  obtain ⟨hsome, hmany, hnonzero⟩ := not_or.1 hbad |>.imp_right not_or.1
  -- Field by field, what was read from `n` bytes is below `256 ^ n`.
  have hport_lt : get_be port < 2 ^ 16 := by
    have hlt := get_be_lt port
    rw [hport_len] at hlt
    exact hlt
  have hport_get : (UInt16.ofNat (get_be port)).toNat = get_be port := by
    rw [UInt16.toNat_ofNat', Nat.mod_eq_of_lt hport_lt]
  have hcarried : Carried
      { device_id := ⟨BitVec.ofNat 128 (get_be device_id)⟩,
        addresses := ips.map fun ip => ⟨ip, UInt16.ofNat (get_be port)⟩,
        secret := BitVec.ofNat 128 (get_be secret), expires_unix := 0 }
      (UInt16.ofNat (get_be port)) := by
    refine ⟨?_, ?_, ?_, ?_⟩
    · intro hnil
      rw [List.map_eq_nil_iff.1 hnil] at hlen
      exact hsome (UInt8.toNat.inj hlen.symm)
    · rw [List.length_map, hlen]
      exact Nat.le_of_not_lt hmany
    · intro a ha
      obtain ⟨ip, -, rfl⟩ := List.mem_map.1 ha
      rfl
    · intro hz
      rw [hz] at hport_get
      exact hnonzero hport_get.symm
  refine ⟨?_, _, hcarried⟩
  -- And written again it gives the bytes that were read.
  have hback : put_be 2 (get_be port) = port := by
    rw [← hport_len]
    exact put_be_get_be port
  have hips_back : (ips.map fun ip => (⟨ip, UInt16.ofNat (get_be port)⟩ : SocketAddr)).map
      SocketAddr.ip = ips := by
    rw [List.map_map]
    exact List.map_id ips
  rw [hcarried.to_bytes_eq]
  dsimp only
  rw [put_ofNat_get hdevice_len (by decide), put_ofNat_get hsecret_len (by decide), hport_get,
    hback, hips_back, List.length_map, hlen, UInt8.ofNat_toNat, List.append_nil]
  rfl

theorem Carried.length_to_bytes {p : QrPairingPayload} {port : UInt16} (h : p.Carried port) :
    p.to_bytes.length ≤ 87 := by
  have hips : ∀ addrs : List SocketAddr,
      ((addrs.map SocketAddr.ip).flatMap IpAddr.to_bytes).length ≤ 17 * addrs.length := by
    intro addrs
    induction addrs with
    | nil => exact Nat.le_refl 0
    | cons a addrs ih =>
        have hip : a.ip.to_bytes.length ≤ 17 := by
          match a.ip with
          | .V4 octets => rw [IpAddr.to_bytes, List.length_cons, put_be_length]; decide
          | .V6 octets => rw [IpAddr.to_bytes, List.length_cons, put_be_length]
        rw [List.map_cons, List.flatMap_cons, List.length_append, List.length_cons]
        omega
  have hsum := hips p.addresses
  have hle : p.addresses.length ≤ 3 := h.at_most_three
  rw [h.to_bytes_eq]
  simp only [List.length_cons, List.length_append, put_be_length]
  omega

/-! ## 6. The text -/

/-- The characters of an encoding are single bytes, and no white space. -/
theorem plain_of_value {c : Char} {v : Nat} (h : base32_value c = some v) :
    is_whitespace c = false ∧ c.utf8Size = 1 := by
  have hsmall : c.toNat < 128 := by
    unfold base32_value at h
    grind
  have hall : ∀ n : Fin 128, (base32_value (Char.ofNat n)).isSome →
      is_whitespace (Char.ofNat n) = false ∧ (Char.ofNat n).utf8Size = 1 := by decide +kernel
  have hc := hall ⟨c.toNat, hsmall⟩
  rw [Char.ofNat_toNat] at hc
  exact hc (Option.isSome_iff_exists.2 ⟨v, h⟩)

theorem plain_of_mapM {body : List Char} {values : List Nat}
    (h : body.mapM base32_value = some values) :
    body.length = values.length ∧
      ∀ c ∈ body, is_whitespace c = false ∧ c.utf8Size = 1 := by
  induction body generalizing values with
  | nil =>
      rw [List.mapM_nil] at h
      rw [← Option.some.inj h]
      exact ⟨rfl, fun c hc => absurd hc List.not_mem_nil⟩
  | cons c body ih =>
      rw [List.mapM_cons] at h
      obtain ⟨v, hv, h⟩ := Option.bind_eq_some_iff.1 h
      obtain ⟨vs, hvs, h⟩ := Option.bind_eq_some_iff.1 h
      obtain ⟨hlen, hplain⟩ := ih hvs
      rw [← Option.some.inj h, List.length_cons, List.length_cons, hlen]
      exact ⟨rfl, List.forall_mem_cons.2 ⟨plain_of_value hv, hplain⟩⟩

theorem dropWhile_plain {s : List Char} (h : ∀ c ∈ s, is_whitespace c = false) :
    s.dropWhile is_whitespace = s := by
  match s with
  | [] => rfl
  | c :: s => rw [List.dropWhile_cons, if_neg (by rw [h c List.mem_cons_self]; decide)]

theorem trim_plain {s : List Char} (h : ∀ c ∈ s, is_whitespace c = false) : trim s = s := by
  rw [trim, dropWhile_plain h, dropWhile_plain fun c hc => h c (List.mem_reverse.1 hc),
    List.reverse_reverse]

theorem sum_utf8Size_plain {s : List Char} (h : ∀ c ∈ s, c.utf8Size = 1) :
    (s.map Char.utf8Size).sum = s.length := by
  induction s with
  | nil => rfl
  | cons c s ih =>
      obtain ⟨hc, hrest⟩ := List.forall_mem_cons.1 h
      rw [List.map_cons, List.sum_cons, hc, ih hrest, List.length_cons, Nat.add_comm]

theorem strip_prefix_append (pre body : List Char) :
    strip_prefix pre (pre ++ body) = some body := by
  unfold strip_prefix
  rw [if_pos (List.isPrefixOf_iff_prefix.2 (List.prefix_append pre body)), List.drop_left]

theorem of_strip_prefix {pre text body : List Char} (h : strip_prefix pre text = some body) :
    text = pre ++ body := by
  unfold strip_prefix at h
  by_cases hpre : pre.isPrefixOf text
  · rw [if_pos hpre] at h
    obtain ⟨rest, rfl⟩ := List.isPrefixOf_iff_prefix.1 hpre
    rw [List.drop_left] at h
    rw [Option.some.inj h]
  · rw [if_neg hpre] at h
    exact nomatch h

theorem to_uri_toList (p : QrPairingPayload) :
    p.to_uri.toList = QR_PREFIX.toList ++ base32_encode p.to_bytes := by
  rw [to_uri, String.toList_append, String.toList_ofList]

/-- The steps of an accepted text. -/
theorem of_from_uri {text : String} {p : QrPairingPayload} (h : from_uri text = .ok p) :
    ∃ body bytes, trim text.toList = QR_PREFIX.toList ++ body ∧
      base32_decode body = some bytes ∧ parse bytes = .ok p := by
  unfold from_uri at h
  dsimp only at h
  split at h
  · exact nomatch h
  · split at h
    · exact nomatch h
    · rename_i body hbody
      split at h
      · exact nomatch h
      · rename_i bytes hbytes
        exact ⟨body, bytes, of_strip_prefix hbody, hbytes, h⟩

/-- The prefix and an encoding of few bytes, in either case, are parsed. -/
theorem from_uri_of_toUpper {body : List Char} {bytes : Bytes} (hlen : bytes.length ≤ 87)
    (h : body.map Char.toUpper = base32_encode bytes) :
    (((QR_PREFIX.toList ++ body).map Char.utf8Size).sum ≤ 144) ∧
      from_uri (QR_PREFIX ++ String.ofList body) = parse bytes := by
  obtain ⟨values, pad, hfives, hpad, hencode, hbits⟩ := base32_encode_bits bytes
  have hvalues := mapM_of_toUpper hfives (h.trans hencode)
  obtain ⟨hcount, hplain⟩ := plain_of_mapM hvalues
  have hpre : ∀ c ∈ QR_PREFIX.toList, is_whitespace c = false ∧ c.utf8Size = 1 := by
    have hall : QR_PREFIX.toList.all (fun c => !is_whitespace c && c.utf8Size == 1) = true := by
      decide
    intro c hc
    simpa using List.all_eq_true.1 hall c hc
  have hall : ∀ c ∈ QR_PREFIX.toList ++ body, is_whitespace c = false ∧ c.utf8Size = 1 :=
    fun c hc => (List.mem_append.1 hc).elim (hpre c) (hplain c)
  have hsum : ((QR_PREFIX.toList ++ body).map Char.utf8Size).sum ≤ 144 := by
    have hwords := congrArg List.length hbits
    rw [List.length_append, length_flatMap_bits, length_flatMap_bits, List.length_map,
      List.length_replicate] at hwords
    rw [sum_utf8Size_plain fun c hc => (hall c hc).2, List.length_append, hcount]
    have hfour : QR_PREFIX.toList.length = 4 := by decide
    omega
  refine ⟨hsum, ?_⟩
  unfold from_uri
  rw [String.toList_append, String.toList_ofList, trim_plain fun c hc => (hall c hc).1]
  dsimp only
  rw [if_neg (by omega), strip_prefix_append]
  dsimp only
  rw [base32_decode_of_toUpper h]

/-- A code is read back, whatever the case of its letters after the prefix, and is short enough. -/
theorem from_uri_to_uri {p : QrPairingPayload} {port : UInt16} (h : p.Carried port) :
    from_uri p.to_uri = .ok { p with expires_unix := 0 } ∧
    (∀ body : List Char, body.map Char.toUpper = p.to_uri.toList.drop QR_PREFIX.toList.length →
      from_uri (QR_PREFIX ++ String.ofList body) = .ok { p with expires_unix := 0 }) ∧
    (p.to_uri.toList.map Char.utf8Size).sum ≤ 256 := by
  have hread : ∀ body : List Char, body.map Char.toUpper = base32_encode p.to_bytes →
      from_uri (QR_PREFIX ++ String.ofList body) = .ok { p with expires_unix := 0 } :=
    fun body hbody => (from_uri_of_toUpper h.length_to_bytes hbody).2.trans h.parse_to_bytes
  have hupper := base32_encode_upper p.to_bytes
  refine ⟨hread _ hupper, fun body hbody => hread body ?_, ?_⟩
  · rw [hbody, to_uri_toList, List.drop_left]
  · rw [to_uri_toList]
    have := (from_uri_of_toUpper h.length_to_bytes hupper).1
    omega

/-- Two addresses, one of each kind, in both cases of the letters. -/
theorem from_uri_to_uri_both_kinds :
    let p : QrPairingPayload :=
      { device_id := ⟨0x0102⟩
        addresses := [⟨.V4 0xC0A80114, 47650⟩, ⟨.V6 0x20010DB8000000000000000000000001, 47650⟩]
        secret := 7
        expires_unix := 9 }
    from_uri p.to_uri = .ok { p with expires_unix := 0 } ∧
    (∀ body : List Char, body.map Char.toUpper = p.to_uri.toList.drop QR_PREFIX.toList.length →
      from_uri (QR_PREFIX ++ String.ofList body) = .ok { p with expires_unix := 0 }) ∧
    (p.to_uri.toList.map Char.utf8Size).sum ≤ 256 :=
  @from_uri_to_uri _ 47650 ⟨by decide, by decide, by decide, by decide⟩

/-- An accepted text is the code of what it decodes to, up to letter case and surrounding white
space, if and only if the bits beyond the last byte are fewer than a character and zeros. -/
theorem uri_canonical {text : String} {p : QrPairingPayload} (h : from_uri text = .ok p) :
    (trim text.toList).map Char.toUpper = p.to_uri.toList.map Char.toUpper ↔
      (dropped_bits ((trim text.toList).drop QR_PREFIX.toList.length)).length < 5 ∧
        ∀ b ∈ dropped_bits ((trim text.toList).drop QR_PREFIX.toList.length), b = false := by
  obtain ⟨body, bytes, htrim, hdecode, hparse⟩ := of_from_uri h
  obtain ⟨hbytes, -⟩ := of_parse hparse
  rw [htrim, to_uri_toList, hbytes, List.drop_left, ← encode_of_decode hdecode, List.map_append,
    List.map_append, List.append_cancel_left_eq, base32_encode_upper]

/-- A code as typed by hand. -/
theorem uri_canonical_plain :
    (dropped_bits ((trim
        " SP1:aeaaaaaaaaaaaaaaaaaaaaaaaebaaaaaaaaaaaaaaaaaaaaaaaaaporcaecmbkabci".toList).drop
          QR_PREFIX.toList.length)).length < 5 :=
  ((uri_canonical (p :=
    { device_id := ⟨0x0102⟩, addresses := [⟨.V4 0xC0A80112, 47650⟩], secret := 7,
      expires_unix := 0 }) (by decide +kernel)).1 (by decide +kernel)).1

/-- One more character, with bits that are not zeros, is not seen. -/
theorem uri_with_extra_character :
    let p : QrPairingPayload :=
      { device_id := ⟨0x0102⟩, addresses := [⟨.V4 0xC0A80112, 47650⟩], secret := 7,
        expires_unix := 0 }
    from_uri (p.to_uri ++ "B") = .ok p ∧
      (trim (p.to_uri ++ "B").toList).map Char.toUpper ≠ p.to_uri.toList.map Char.toUpper := by
  decide +kernel

end QrPairingPayload

end SoundPush
