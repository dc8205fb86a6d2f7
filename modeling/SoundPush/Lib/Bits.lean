/-
`Bits` -- the bits of words, the highest first, and words packed one after another.

`bits w x` is the low `w` bits of `x`. A program that repacks words keeps a few bits
in an accumulator that it shifts; the low bits of the accumulator are read off it by
`bits_add` and `bits_shift_or`. What is packed from words is unpacked in one way only
(`flatMap_bits_append_inj`).
-/
import Mathlib.Data.List.Basic
import Mathlib.Data.Nat.Bitwise
import Mathlib.Tactic.Common

set_option autoImplicit false

/-- The low `w` bits, the highest first. -/
def bits : Nat → Nat → List Bool
  | 0, _ => []
  | w + 1, x => x.testBit w :: bits w x

@[simp] theorem length_bits (w x : Nat) : (bits w x).length = w := by
  induction w with
  | zero => rfl
  | succ w ih => rw [bits, List.length_cons, ih]

/-- Only the low bits count. -/
theorem bits_congr {w x y : Nat} (h : ∀ i < w, x.testBit i = y.testBit i) :
    bits w x = bits w y := by
  induction w with
  | zero => rfl
  | succ w ih =>
      rw [bits, bits, h w (Nat.lt_succ_self w), ih fun i hi => h i (Nat.lt_succ_of_lt hi)]

theorem testBit_of_bits_eq {w x y : Nat} (h : bits w x = bits w y) :
    ∀ i < w, x.testBit i = y.testBit i := by
  induction w with
  | zero => exact fun i hi => absurd hi (Nat.not_lt_zero i)
  | succ w ih =>
      rw [bits, bits, List.cons.injEq] at h
      intro i hi
      rcases Nat.lt_succ_iff_lt_or_eq.1 hi with hi | rfl
      · exact ih h.2 i hi
      · exact h.1

/-- A word is known by its bits. -/
theorem bits_inj {w x y : Nat} (hx : x < 2 ^ w) (hy : y < 2 ^ w) (h : bits w x = bits w y) :
    x = y := by
  apply Nat.eq_of_testBit_eq
  intro i
  by_cases hi : i < w
  · exact testBit_of_bits_eq h i hi
  · have hle : 2 ^ w ≤ 2 ^ i := Nat.pow_le_pow_right (by decide) (Nat.le_of_not_lt hi)
    rw [Nat.testBit_lt_two_pow (Nat.lt_of_lt_of_le hx hle),
      Nat.testBit_lt_two_pow (Nat.lt_of_lt_of_le hy hle)]

/-- The high part, then the low part. -/
theorem bits_add (a b x : Nat) : bits (a + b) x = bits a (x >>> b) ++ bits b x := by
  induction a with
  | zero => rw [Nat.zero_add]; rfl
  | succ a ih =>
      rw [Nat.add_right_comm, bits, bits, ih, Nat.testBit_shiftRight, Nat.add_comm b a,
        List.cons_append]

/-- A word shifted in from below. -/
theorem bits_shift_or {a b x y : Nat} (hy : y < 2 ^ b) :
    bits (a + b) (x <<< b ||| y) = bits a x ++ bits b y := by
  have hhigh : (x <<< b ||| y) >>> b = x := by
    rw [Nat.shiftRight_or_distrib, Nat.shiftLeft_shiftRight, Nat.shiftRight_eq_div_pow,
      Nat.div_eq_of_lt hy, Nat.or_zero]
  have hlow : bits b (x <<< b ||| y) = bits b y := by
    refine bits_congr fun i hi => ?_
    rw [Nat.testBit_or, Nat.testBit_shiftLeft, decide_eq_false (Nat.not_le.2 hi)]
    rfl
  rw [bits_add, hhigh, hlow]

/-- Reducing a word to some of its low bits. -/
theorem bits_mod {w n : Nat} (h : w ≤ n) (x : Nat) : bits w (x % 2 ^ n) = bits w x := by
  refine bits_congr fun i hi => ?_
  rw [Nat.testBit_mod_two_pow, decide_eq_true (Nat.lt_of_lt_of_le hi h), Bool.true_and]

theorem bits_zero (w : Nat) : bits w 0 = List.replicate w false := by
  induction w with
  | zero => rfl
  | succ w ih => rw [bits, Nat.zero_testBit, ih, List.replicate_succ]

/-- A word followed by zeros. -/
theorem bits_shift (a b x : Nat) : bits (a + b) (x <<< b) = bits a x ++ List.replicate b false := by
  have h := bits_shift_or (a := a) (x := x) (Nat.two_pow_pos b)
  rw [Nat.or_zero, bits_zero] at h
  exact h

theorem length_flatMap_bits (w : Nat) (l : List Nat) :
    (l.flatMap (bits w)).length = w * l.length := by
  induction l with
  | nil => rfl
  | cons x l ih =>
      rw [List.flatMap_cons, List.length_append, length_bits, ih, List.length_cons, Nat.mul_succ,
        Nat.add_comm]

/-- Words of one width are known by their bits, one after another. -/
theorem flatMap_bits_inj {w : Nat} (hw : 0 < w) {l l' : List Nat} (hl : ∀ x ∈ l, x < 2 ^ w)
    (hl' : ∀ x ∈ l', x < 2 ^ w) (h : l.flatMap (bits w) = l'.flatMap (bits w)) : l = l' := by
  have hcount : l.length = l'.length := by
    have hlen := congrArg List.length h
    rw [length_flatMap_bits, length_flatMap_bits] at hlen
    exact Nat.eq_of_mul_eq_mul_left hw hlen
  induction l generalizing l' with
  | nil => exact (List.eq_nil_of_length_eq_zero hcount.symm).symm
  | cons x l ih =>
      match l', hcount with
      | y :: l', hcount =>
          rw [List.flatMap_cons, List.flatMap_cons] at h
          obtain ⟨hhead, htail⟩ := List.append_inj h (by rw [length_bits, length_bits])
          have hxy := bits_inj (hl x List.mem_cons_self) (hl' y List.mem_cons_self) hhead
          have hrest := ih (fun z hz => hl z (List.mem_cons_of_mem _ hz))
            (fun z hz => hl' z (List.mem_cons_of_mem _ hz)) htail (Nat.succ_inj.1 hcount)
          rw [hxy, hrest]

/-- Words and a rest that is shorter than a word. -/
theorem flatMap_bits_append_inj {w : Nat} {l l' : List Nat} {r r' : List Bool}
    (hl : ∀ x ∈ l, x < 2 ^ w) (hl' : ∀ x ∈ l', x < 2 ^ w) (hr : r.length < w) (hr' : r'.length < w)
    (h : l.flatMap (bits w) ++ r = l'.flatMap (bits w) ++ r') : l = l' ∧ r = r' := by
  have hlen := congrArg List.length h
  rw [List.length_append, List.length_append, length_flatMap_bits, length_flatMap_bits] at hlen
  have hmod : r.length = r'.length := by
    have h₁ : (w * l.length + r.length) % w = r.length := by
      rw [Nat.mul_add_mod, Nat.mod_eq_of_lt hr]
    have h₂ : (w * l'.length + r'.length) % w = r'.length := by
      rw [Nat.mul_add_mod, Nat.mod_eq_of_lt hr']
    rw [← h₁, ← h₂, hlen]
  obtain ⟨hwords, hrest⟩ := List.append_inj' h hmod
  exact ⟨flatMap_bits_inj (by omega) hl hl' hwords, hrest⟩
