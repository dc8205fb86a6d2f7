/-
`Media` -- media datagrams, from `sp-protocol/src/media.rs`.

A datagram is a 16-byte header and a payload. The flags are the bits of one
byte; a sender builds the packet once and then sets the route byte and two flag
bits for each receiver, which on the decoded form are the updates of the two
header fields. Timestamps are `u64`s and are kept as naturals.
-/
import SoundPush.Lib.BigEndian
import Mathlib.Data.List.Basic
import Mathlib.Tactic.Common

set_option autoImplicit false

namespace SoundPush

abbrev Bytes := List UInt8

/-- Errors produced while decoding untrusted protocol input. -/
inductive ProtocolError where
  | TooShort (len need : Nat)
  | UnsupportedVersion (version : UInt8)
  | UnknownCodec (id : UInt8)
  | PayloadTooLarge (len max : Nat)
  | FrameTooLarge (len max : Nat)
  | Decode (text : String)
  | UnknownFrameKind (kind : UInt8)
  deriving DecidableEq, Repr

/-! ## Integers on the wire, big-endian -/

def put_u32 (v : UInt32) : Bytes := put_be 4 v.toNat

def put_u64 (v : UInt64) : Bytes := put_be 8 v.toNat

/-- The integer in the first four bytes. -/
def get_u32 (bs : Bytes) : UInt32 := UInt32.ofNat (get_be (bs.take 4))

/-- The integer in the first eight bytes. -/
def get_u64 (bs : Bytes) : UInt64 := UInt64.ofNat (get_be (bs.take 8))

@[simp] theorem put_u32_length (v : UInt32) : (put_u32 v).length = 4 := put_be_length 4 _

@[simp] theorem put_u64_length (v : UInt64) : (put_u64 v).length = 8 := put_be_length 8 _

theorem get_u32_put_u32 (v : UInt32) (rest : Bytes) : get_u32 (put_u32 v ++ rest) = v := by
  have htake : (put_u32 v ++ rest).take 4 = put_u32 v := by
    rw [← put_u32_length v, List.take_left]
  have hlt : v.toNat < 256 ^ 4 := v.toNat_lt
  unfold get_u32
  rw [htake, put_u32, get_be_of_lt hlt, UInt32.ofNat_toNat]

theorem get_u64_put_u64 (v : UInt64) (rest : Bytes) : get_u64 (put_u64 v ++ rest) = v := by
  have htake : (put_u64 v ++ rest).take 8 = put_u64 v := by
    rw [← put_u64_length v, List.take_left]
  have hlt : v.toNat < 256 ^ 8 := v.toNat_lt
  unfold get_u64
  rw [htake, put_u64, get_be_of_lt hlt, UInt64.ofNat_toNat]

theorem put_u32_get_u32 {bs : Bytes} (h : 4 ≤ bs.length) : put_u32 (get_u32 bs) = bs.take 4 := by
  have hlen : (bs.take 4).length = 4 := by rw [List.length_take]; omega
  have hlt : get_be (bs.take 4) < 2 ^ 32 := by
    have hbound := get_be_lt (bs.take 4)
    rw [hlen] at hbound
    exact hbound
  unfold put_u32 get_u32
  rw [UInt32.toNat_ofNat', Nat.mod_eq_of_lt hlt]
  have hput := put_be_get_be (bs.take 4)
  rwa [hlen] at hput

theorem put_u64_get_u64 {bs : Bytes} (h : 8 ≤ bs.length) : put_u64 (get_u64 bs) = bs.take 8 := by
  have hlen : (bs.take 8).length = 8 := by rw [List.length_take]; omega
  have hlt : get_be (bs.take 8) < 2 ^ 64 := by
    have hbound := get_be_lt (bs.take 8)
    rw [hlen] at hbound
    exact hbound
  unfold put_u64 get_u64
  rw [UInt64.toNat_ofNat', Nat.mod_eq_of_lt hlt]
  have hput := put_be_get_be (bs.take 8)
  rwa [hlen] at hput

def MEDIA_HEADER_VERSION : UInt8 := 1

/-- Size of the fixed media header in bytes. -/
def MEDIA_HEADER_LEN : Nat := 16

/-- Largest payload a sender produces. -/
def MAX_MEDIA_PAYLOAD : Nat := 1100

/-- Largest payload a receiver accepts. -/
def MAX_ACCEPTED_MEDIA_PAYLOAD : Nat := 1200

/-- Audio codec carried in a media packet. -/
inductive Codec where
  | PcmS16Le
  | Opus
  deriving DecidableEq, Repr

/-- The codec's number on the wire. -/
def Codec.id : Codec → Nat
  | .PcmS16Le => 1
  | .Opus => 2

/-! ## Flags -/

/-- The flag bits of a media header. -/
structure MediaFlags where
  bits : BitVec 8
  deriving DecidableEq, Repr

namespace MediaFlags

/-- The sender is silent; the payload may be empty. -/
def DTX : BitVec 8 := 0b00000001

/-- The payload holds a copy of the previous frame after the primary one. -/
def REDUNDANT : BitVec 8 := 0b00000010

/-- Timeline discontinuity (source changed, device reopened). -/
def DISCONTINUITY : BitVec 8 := 0b00000100

/-- First packet of a stream. -/
def MARKER : BitVec 8 := 0b00001000

def empty : MediaFlags := ⟨0⟩

def contains (f : MediaFlags) (flag : BitVec 8) : Bool := f.bits &&& flag == flag

def with_flag (f : MediaFlags) (flag : BitVec 8) : MediaFlags := ⟨f.bits ||| flag⟩

/-- A flag just set is set. -/
@[simp] theorem contains_with_flag (f : MediaFlags) (flag : BitVec 8) :
    (f.with_flag flag).contains flag = true := by
  simp only [contains, with_flag, beq_iff_eq]
  ext i hi
  simp only [BitVec.getElem_and, BitVec.getElem_or]
  cases flag[i] <;> simp

end MediaFlags

/-! ## Packets -/

structure MediaHeader where
  /-- route identifier within the session -/
  route : UInt8
  codec : Codec
  flags : MediaFlags
  /-- sender sample clock position of the first sample in this packet -/
  sample_timestamp : Nat
  /-- packet sequence number (wraps) -/
  seq : UInt32
  deriving DecidableEq, Repr

structure MediaPacket where
  header : MediaHeader
  payload : Bytes
  deriving DecidableEq, Repr

/-- Whether the packet can be serialized: the payload is not too large. -/
def MediaPacket.encodable (p : MediaPacket) : Bool := p.payload.length ≤ MAX_MEDIA_PAYLOAD

end SoundPush
