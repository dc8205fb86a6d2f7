/-
`BigEndian` -- unsigned integers as bytes, the most significant byte first.

`put_be n v` is the low `n` bytes of `v`; `get_be` reads a number back from any
bytes. The two are inverse on numbers that fit and on bytes of the right length
(`get_be_put_be`, `put_be_get_be`).
-/
import Mathlib.Algebra.GroupWithZero.Nat
import Mathlib.Data.List.Induction
import Mathlib.Tactic.Common

set_option autoImplicit false

/-- The low `n` bytes of a number, the highest first. -/
def put_be : Nat → Nat → List UInt8
  | 0, _ => []
  | n + 1, v => put_be n (v / 256) ++ [UInt8.ofNat v]

/-- The number that the bytes spell. -/
def get_be (bs : List UInt8) : Nat := bs.foldl (fun v b => v * 256 + b.toNat) 0

@[simp] theorem put_be_length (n v : Nat) : (put_be n v).length = n := by
  induction n generalizing v with
  | zero => rfl
  | succ n ih => rw [put_be, List.length_append, ih, List.length_singleton]

theorem get_be_concat (bs : List UInt8) (b : UInt8) :
    get_be (bs ++ [b]) = get_be bs * 256 + b.toNat := by
  unfold get_be
  rw [List.foldl_append, List.foldl_cons, List.foldl_nil]

theorem get_be_lt (bs : List UInt8) : get_be bs < 256 ^ bs.length := by
  induction bs using List.reverseRecOn with
  | nil => decide
  | append_singleton bs b ih =>
      have hb := b.toNat_lt
      rw [get_be_concat, List.length_append, List.length_singleton, Nat.pow_succ]
      omega

theorem get_be_put_be (n v : Nat) : get_be (put_be n v) = v % 256 ^ n := by
  induction n generalizing v with
  | zero => rw [Nat.pow_zero, Nat.mod_one]; rfl
  | succ n ih =>
      have hbyte : (UInt8.ofNat v).toNat = v % 256 := UInt8.toNat_ofNat'
      rw [put_be, get_be_concat, ih, hbyte, Nat.pow_succ, Nat.mul_comm (256 ^ n), Nat.mod_mul]
      omega

/-- A number that fits is read back. -/
theorem get_be_of_lt {n v : Nat} (h : v < 256 ^ n) : get_be (put_be n v) = v := by
  rw [get_be_put_be, Nat.mod_eq_of_lt h]

/-- Bytes are written back. -/
theorem put_be_get_be (bs : List UInt8) : put_be bs.length (get_be bs) = bs := by
  induction bs using List.reverseRecOn with
  | nil => rfl
  | append_singleton bs b ih =>
      have hb := b.toNat_lt
      have hhigh : (get_be bs * 256 + b.toNat) / 256 = get_be bs := by omega
      have hlow : UInt8.ofNat (get_be bs * 256 + b.toNat) = b := by
        rw [← UInt8.toNat_inj, UInt8.toNat_ofNat']
        omega
      rw [List.length_append, List.length_singleton, put_be, get_be_concat, hhigh, ih, hlow]
