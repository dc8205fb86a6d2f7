/-
`Identity` -- device identities of `sp-security/src/identity.rs`, and the
primitives the pairing code takes from its cryptography crates.

Trust is bound to a device's public key; its id is the first half of the
SHA-256 of the key. The hash and the MAC are the `Crypto` parameter: the engine
only compares their values.
-/
import SoundPush.Protocol.Media

set_option autoImplicit false

namespace SoundPush

/-- An Ed25519 public key. -/
structure PublicKey where
  bytes : BitVec 256
  deriving DecidableEq, Repr

/-- SHA-256 of the device public key. -/
structure Fingerprint where
  bytes : BitVec 256
  deriving DecidableEq, Repr

/-- Stable, public device identifier: first 16 bytes of the fingerprint. -/
structure DeviceId where
  bytes : BitVec 128
  deriving DecidableEq, Repr

def Fingerprint.device_id (f : Fingerprint) : DeviceId := ⟨f.bytes.extractLsb' 128 128⟩

/-- Ids are ordered as byte strings. -/
def DeviceId.below (a b : DeviceId) : Bool := a.bytes.toNat < b.bytes.toNat

/-- Lower-case hexadecimal digits of the `n` low nibbles of `x`, highest first. -/
def hex : Nat → Nat → List Char
  | 0, _ => []
  | n + 1, x => hex n (x / 16) ++ [Nat.digitChar (x % 16)]

def DeviceId.to_hex (id : DeviceId) : String := String.ofList (hex 32 id.bytes.toNat)

def hex_digit (b : UInt8) : Option Nat :=
  let n := b.toNat
  if 48 ≤ n ∧ n ≤ 57 then some (n - 48)
  else if 97 ≤ n ∧ n ≤ 102 then some (n - 87)
  else if 65 ≤ n ∧ n ≤ 70 then some (n - 55)
  else none

/-- `u8::from_str_radix(.., 16)` on two bytes of text; a leading plus sign is a sign. -/
def from_str_radix_16 (a b : UInt8) : Option Nat :=
  if a = 43 then hex_digit b
  else do return (← hex_digit a) * 16 + (← hex_digit b)

def unhex : Bytes → Option (List Nat)
  | [] => some []
  | [_] => none
  | a :: b :: rest => do return (← from_str_radix_16 a b) :: (← unhex rest)

def DeviceId.from_hex (s : String) : Option DeviceId := do
  let bytes ← unhex s.toUTF8.data.toList
  if bytes.length = 16 then some ⟨BitVec.ofNat 128 (bytes.foldl (fun n b => n * 256 + b) 0)⟩
  else none

/-- The single-use secret of a pairing code. -/
abbrev Secret := BitVec 128

/-- What the engine takes from its cryptography crates. -/
class Crypto where
  /-- SHA-256 of a public key -/
  sha256 : PublicKey → Fingerprint
  /-- HMAC-SHA-256 under the secret, of the scanner's fingerprint and the displayer's id -/
  proof_mac : Secret → Fingerprint → DeviceId → Bytes

section
variable [Crypto]

def Fingerprint.of_public_key (key : PublicKey) : Fingerprint := Crypto.sha256 key

def PublicKey.device_id (key : PublicKey) : DeviceId := (Fingerprint.of_public_key key).device_id

/-- Proof that the scanner saw the QR secret, bound to both identities. -/
def pairing_proof (secret : Secret) (scanner : Fingerprint) (displayer : DeviceId) : Bytes :=
  Crypto.proof_mac secret scanner displayer

def verify_pairing_proof (secret : Secret) (scanner : Fingerprint) (displayer : DeviceId)
    (proof : Bytes) : Bool :=
  proof = Crypto.proof_mac secret scanner displayer

end

/-! ## Addresses -/

inductive IpAddr where
  | V4 (octets : BitVec 32)
  | V6 (octets : BitVec 128)
  deriving DecidableEq, Repr

/-- One form per host: an IPv4 peer reached through a dual-stack socket appears IPv4-mapped. -/
def IpAddr.to_canonical : IpAddr → IpAddr
  | .V6 o => if o.extractLsb' 32 96 = 0xFFFF#96 then .V4 (o.extractLsb' 0 32) else .V6 o
  | .V4 o => .V4 o

structure SocketAddr where
  ip : IpAddr
  port : UInt16
  deriving DecidableEq, Repr

end SoundPush
