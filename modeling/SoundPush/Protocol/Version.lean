/-
`Version` -- protocol versions and their negotiation, from `sp-protocol/src/version.rs`.

Two ends that each know both ranges pick the same version, the highest that both
support, or neither picks one.

A range is the interval of versions between its ends, in the order of major before minor, and the
versions two devices share are the intersection of two intervals. So what negotiation picks is the
greatest element of that intersection, and that the two sides agree is its commutativity.
-/
import Mathlib.Data.Prod.Lex
import Mathlib.Order.Bounds.Basic
import Mathlib.Order.Interval.Set.Basic

set_option autoImplicit false

namespace SoundPush

/-- A protocol version (major.minor). Major changes are breaking. -/
structure ProtocolVersion where
  major : UInt16
  minor : UInt16
  deriving DecidableEq, Repr

namespace ProtocolVersion

/-- The version as it travels in a hello. -/
def to_u32 (v : ProtocolVersion) : UInt32 := v.major.toUInt32 <<< 16 ||| v.minor.toUInt32

/-- The version a hello names. -/
def from_u32 (v : UInt32) : ProtocolVersion := ⟨(v >>> 16).toUInt16, (v &&& 0xFFFF).toUInt16⟩

/-- Versions are compared by their major part first. -/
def rank (v : ProtocolVersion) : ℕ ×ₗ ℕ := toLex (v.major.toNat, v.minor.toNat)

/-- The order tells any two versions apart. -/
theorem rank_injective : Function.Injective rank := by
  rintro ⟨major, minor⟩ ⟨major', minor'⟩ h
  obtain ⟨hmajor, hminor⟩ := Prod.mk.inj (toLex.injective h)
  obtain rfl := UInt16.toNat_inj.1 hmajor
  obtain rfl := UInt16.toNat_inj.1 hminor
  rfl

instance : LinearOrder ProtocolVersion := LinearOrder.lift' rank rank_injective

/-- The number is the major version times 2^16 and the minor one. -/
theorem to_u32_toNat (v : ProtocolVersion) :
    v.to_u32.toNat = v.major.toNat * 65536 + v.minor.toNat := by
  have hmajor := v.major.toNat_lt
  have hminor := v.minor.toNat_lt
  have hor := Nat.shiftLeft_add_eq_or_of_lt hminor v.major.toNat
  unfold to_u32
  rw [UInt32.toNat_or, UInt32.toNat_shiftLeft, UInt16.toNat_toUInt32, UInt16.toNat_toUInt32]
  have hshift : v.major.toNat <<< (UInt32.toNat 16 % 32) % 2 ^ 32 = v.major.toNat <<< 16 := by
    rw [show UInt32.toNat 16 % 32 = 16 from rfl, Nat.shiftLeft_eq]
    exact Nat.mod_eq_of_lt (by omega)
  rw [hshift, ← hor, Nat.shiftLeft_eq]

/-- A version survives the wire. -/
theorem from_u32_to_u32 (v : ProtocolVersion) : from_u32 v.to_u32 = v := by
  have hn := v.to_u32_toNat
  have hmajor := v.major.toNat_lt
  have hminor := v.minor.toNat_lt
  obtain ⟨major, minor⟩ := v
  unfold from_u32
  congr 1
  · apply UInt16.toNat_inj.1
    rw [UInt32.toNat_toUInt16, UInt32.toNat_shiftRight, hn,
      show UInt32.toNat 16 % 32 = 16 from rfl, Nat.shiftRight_eq_div_pow]
    dsimp only at hmajor hminor ⊢
    omega
  · apply UInt16.toNat_inj.1
    rw [UInt32.toNat_toUInt16, UInt32.toNat_and, hn,
      show UInt32.toNat 0xFFFF = 2 ^ 16 - 1 from rfl, Nat.and_two_pow_sub_one_eq_mod]
    dsimp only at hmajor hminor ⊢
    omega

end ProtocolVersion

/-- Inclusive range of supported protocol versions. -/
structure VersionRange where
  min : ProtocolVersion
  max : ProtocolVersion
  deriving DecidableEq, Repr

/-- The range this build supports. -/
def LOCAL_VERSIONS : VersionRange := ⟨⟨1, 0⟩, ⟨1, 1⟩⟩

namespace VersionRange

/-- The versions a range contains. -/
def versions (r : VersionRange) : Set ProtocolVersion := Set.Icc r.min r.max

/-- Highest version supported by both sides, or nothing where the source names the two ranges. -/
def negotiate (r peer : VersionRange) : Option ProtocolVersion :=
  let low := Max.max r.min peer.min
  let high := Min.min r.max peer.max
  if low ≤ high then some high else none

variable {r peer : VersionRange} {v : ProtocolVersion}

/-- What is picked is the highest version in both ranges. -/
theorem negotiate_eq_some :
    r.negotiate peer = some v ↔ IsGreatest (r.versions ∩ peer.versions) v := by
  have hcommon : r.versions ∩ peer.versions =
      Set.Icc (Max.max r.min peer.min) (Min.min r.max peer.max) := Set.Icc_inter_Icc
  rw [hcommon]
  unfold negotiate
  dsimp only
  by_cases h : Max.max r.min peer.min ≤ Min.min r.max peer.max
  · rw [if_pos h, Option.some_inj]
    constructor
    · rintro rfl
      exact isGreatest_Icc h
    · intro hv
      exact (isGreatest_Icc h).unique hv
  · rw [if_neg h]
    constructor
    · intro hnone
      cases hnone
    · intro hv
      exact absurd (hv.1.1.trans hv.1.2) h

/-- It does not matter which side picks. -/
theorem negotiate_comm (r peer : VersionRange) : r.negotiate peer = peer.negotiate r := by
  apply Option.ext
  intro v
  rw [negotiate_eq_some, negotiate_eq_some, Set.inter_comm]

end VersionRange

end SoundPush
