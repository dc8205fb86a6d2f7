/-
`Candidates` -- ranking of the candidate addresses of a peer
(`sp-discovery/src/candidates.rs`).

An address here carries the flow and the scope of IPv6, as the source's does: two
addresses that differ in nothing else are different, and the dialer looks at the
scope.

Candidates come from adverts, from the trust store and from codes. They are filtered, sorted by a
rank and then deduplicated among neighbours, as `Vec::dedup` does; the sort is stable and the rank
is not injective, so an address may survive twice. The last section says exactly when, and what
holds of a list in which it does not happen.
-/
import SoundPush.Lib.SortDedup
import SoundPush.Security.Identity
import Mathlib.Data.Prod.Lex

set_option autoImplicit false

namespace SoundPush

/-! ## 1. Addresses -/

/-- `SocketAddr`, with all that its equality looks at. -/
inductive ScopedAddr where
  | V4 (ip : BitVec 32) (port : UInt16)
  | V6 (ip : BitVec 128) (port : UInt16) (flowinfo scope_id : UInt32)
  deriving DecidableEq, Repr

namespace ScopedAddr

/-- The address without its port. -/
def ip : ScopedAddr → IpAddr
  | .V4 ip _ => .V4 ip
  | .V6 ip _ _ _ => .V6 ip

/-- Its port. -/
def port : ScopedAddr → UInt16
  | .V4 _ port => port
  | .V6 _ port _ _ => port

/-- Whether it is one of IPv6, which is tried after IPv4 of the same rank. -/
def is_ipv6 : ScopedAddr → Bool
  | .V4 _ _ => false
  | .V6 _ _ _ _ => true

end ScopedAddr

/-- An octet of an IPv4 address, the first one being 0. -/
def octet (v4 : BitVec 32) (i : Nat) : Nat := (v4.extractLsb' (24 - 8 * i) 8).toNat

/-- The first segment of an IPv6 address. -/
def first_segment (v6 : BitVec 128) : BitVec 16 := v6.extractLsb' 112 16

/-- `IpAddr::is_loopback`. -/
def IpAddr.is_loopback : IpAddr → Bool
  | .V4 v4 => octet v4 0 = 127
  | .V6 v6 => v6 = 1

/-- `IpAddr::is_unspecified`. -/
def IpAddr.is_unspecified : IpAddr → Bool
  | .V4 v4 => v4 = 0
  | .V6 v6 => v6 = 0

/-- `Ipv6Addr::is_unicast_link_local`. -/
def is_unicast_link_local (v6 : BitVec 128) : Bool := first_segment v6 &&& 0xffc0#16 = 0xfe80#16

/-! ## 2. The order of candidates

Addresses of home networks first, then the ones that are rarely reachable; what can never be reached
has the rank 255 and is dropped. -/

/-- Lower is better. -/
def rank (addr : ScopedAddr) : Nat :=
  match addr.ip with
  | .V4 v4 =>
      if addr.ip.is_loopback || addr.ip.is_unspecified || v4 = 0xFFFFFFFF#32 then 255
      else if octet v4 0 = 192 ∧ octet v4 1 = 168 then 0
      else if octet v4 0 = 10 then 1
      else if octet v4 0 = 172 ∧ 16 ≤ octet v4 1 ∧ octet v4 1 ≤ 31 then
        -- Docker and WSL bridges commonly use 172.17 to 172.31
        if 17 ≤ octet v4 1 then 20 else 2
      else if octet v4 0 = 169 ∧ octet v4 1 = 254 then 30
      else 10
  | .V6 v6 =>
      if addr.ip.is_loopback || addr.ip.is_unspecified then 255
      else if is_unicast_link_local v6 then 15
      else if first_segment v6 &&& 0xfe00#16 = 0xfc00#16 then 5
      else 12

/-- What `order` keeps. -/
def orderable (a : ScopedAddr) : Bool := rank a < 255 && a.port ≠ 0

/-- What `order` sorts by. -/
def order_key (a : ScopedAddr) : ℕ ×ₗ Bool := toLex (rank a, a.is_ipv6)

/-- Deduplicate and sort candidates best-first, dropping unusable addresses. -/
def order (addrs : List ScopedAddr) : List ScopedAddr :=
  ((addrs.filter orderable).sort_by_key order_key).dedup_adjacent

/-! ## 3. What it keeps

The members and the order hold of any list. That no address is there twice needs a list in which
none comes again after another one of its rank and kind. -/

/-- Exactly the usable addresses are kept. -/
theorem mem_order {addrs : List ScopedAddr} {a : ScopedAddr} :
    a ∈ order addrs ↔ a ∈ addrs ∧ orderable a = true := by
  unfold order
  rw [List.mem_sort_dedup, List.mem_filter]

/-- They come best first. -/
theorem pairwise_order (addrs : List ScopedAddr) :
    (order addrs).Pairwise fun a b => order_key a ≤ order_key b :=
  List.pairwise_sort_dedup _

/-- A usable address that comes again after another one of its rank and kind. -/
def ComesAgain (addrs : List ScopedAddr) : Prop :=
  ∃ a b, order_key a = order_key b ∧ (addrs.filter orderable).Returns a b

/-- The result holds an address twice exactly when one came again after another of its rank. -/
theorem nodup_order {addrs : List ScopedAddr} : (order addrs).Nodup ↔ ¬ ComesAgain addrs := by
  unfold order ComesAgain
  rw [List.nodup_sort_dedup]
  constructor
  · rintro h ⟨a, b, hkey, hab⟩
    exact h a b hkey hab
  · intro h a b hkey hab
    exact h ⟨a, b, hkey, hab⟩

/-- A list as `order` leaves it, with no address twice. -/
structure Ordered (addrs : List ScopedAddr) : Prop where
  nodup : addrs.Nodup
  sorted : addrs.Pairwise fun a b => order_key a ≤ order_key b
  usable : ∀ a ∈ addrs, orderable a = true

/-- Where none comes again, the result is ordered in every respect. -/
theorem order_ordered {addrs : List ScopedAddr} (h : ¬ ComesAgain addrs) :
    Ordered (order addrs) where
  nodup := nodup_order.2 h
  sorted := pairwise_order addrs
  usable := fun _ ha => (mem_order.1 ha).2

/-- Addresses that are there already change nothing. -/
theorem order_append_known {known addrs : List ScopedAddr} (h : Ordered known)
    (hsub : ∀ a ∈ addrs, orderable a = true → a ∈ known)
    (hclear : ¬ ComesAgain (known ++ addrs)) : order (known ++ addrs) = known := by
  have hknown : known.filter orderable = known := List.filter_eq_self.2 h.usable
  unfold ComesAgain at hclear
  unfold order
  rw [List.filter_append, hknown] at hclear ⊢
  refine List.sort_dedup_append_self h.sorted h.nodup (fun a ha => ?_) fun a b hkey hab =>
    hclear ⟨a, b, hkey, hab⟩
  rw [List.mem_filter] at ha
  exact hsub a ha.1 ha.2

end SoundPush
