/-
`RateLimit` -- the token bucket in front of a session's control messages
(`sp-engine/src/session.rs`), over exact arithmetic.

A bucket keeps its two promises over every interval of a run: no more attempts
pass than the burst and the rate allow, and a peer that makes no more attempts than
that loses none. The first is an upper bound on the tokens, the second a lower one:
since some earlier attempt, the bucket has been refilled without overflowing.
-/
import Mathlib.Algebra.Order.Field.Rat
import Mathlib.Data.List.Infix
import Mathlib.Data.List.Pairwise
import Mathlib.Tactic.Linarith
import Mathlib.Tactic.Push
import Mathlib.Tactic.Ring

set_option autoImplicit false

namespace SoundPush

/-! ## 1. The bucket -/

/-- Token bucket. Times are in seconds. -/
structure RateLimit where
  tokens : ℚ
  rate : ℚ
  burst : ℚ
  last : ℚ

namespace RateLimit

def new (rate burst now : ℚ) : RateLimit := { tokens := burst, rate, burst, last := now }

def allow (l : RateLimit) (now : ℚ) : RateLimit × Bool :=
  let elapsed := max (now - l.last) 0
  let tokens := min (l.tokens + elapsed * l.rate) l.burst
  if 1 ≤ tokens then ({ l with last := now, tokens := tokens - 1 }, true)
  else ({ l with last := now, tokens }, false)

/-- The attempts of a sequence that pass. -/
def allowed (l : RateLimit) : List ℚ → List ℚ
  | [] => []
  | now :: times =>
      if (l.allow now).2 then now :: (l.allow now).1.allowed times
      else (l.allow now).1.allowed times

/-- The bucket after the attempts of a sequence. -/
def after (l : RateLimit) (times : List ℚ) : RateLimit :=
  times.foldl (fun l now => (l.allow now).1) l

/-- The attempts from `a` to `b`. -/
def between (a b : ℚ) (times : List ℚ) : Nat := times.countP fun t => a ≤ t ∧ t ≤ b

variable {l : RateLimit} {now a b : ℚ} {times : List ℚ}

/-- The tokens that an attempt meets. -/
def refilled (l : RateLimit) (now : ℚ) : ℚ :=
  min (l.tokens + max (now - l.last) 0 * l.rate) l.burst

/-- What an attempt costs. -/
def cost (l : RateLimit) (now : ℚ) : ℚ := if (l.allow now).2 then 1 else 0

theorem allow_eq (l : RateLimit) (now : ℚ) :
    (l.allow now).1 = { l with last := now, tokens := l.refilled now - l.cost now } ∧
      ((l.allow now).2 = true ↔ 1 ≤ l.refilled now) := by
  unfold cost
  by_cases h : 1 ≤ l.refilled now
  · have hpass : l.allow now = ({ l with last := now, tokens := l.refilled now - 1 }, true) :=
      if_pos h
    rw [hpass]
    exact ⟨rfl, iff_of_true rfl h⟩
  · have hlost : l.allow now = ({ l with last := now, tokens := l.refilled now }, false) := if_neg h
    rw [hlost, if_neg Bool.false_ne_true, sub_zero]
    exact ⟨rfl, iff_of_false Bool.false_ne_true h⟩

/-- A bucket is never fuller than its burst, nor empty beyond zero. -/
structure Sound (l : RateLimit) : Prop where
  rate : 0 ≤ l.rate
  burst : 1 ≤ l.burst
  nonneg : 0 ≤ l.tokens
  full : l.tokens ≤ l.burst

theorem new_sound {rate burst : ℚ} (hrate : 0 ≤ rate) (hburst : 1 ≤ burst) (now : ℚ) :
    (new rate burst now).Sound :=
  ⟨hrate, hburst, zero_le_one.trans hburst, le_rfl⟩

theorem refilled_le : l.refilled now ≤ l.burst := min_le_right _ _

theorem Sound.refilled_nonneg (h : l.Sound) : 0 ≤ l.refilled now :=
  le_min (add_nonneg h.nonneg (mul_nonneg (le_max_right _ _) h.rate)) (zero_le_one.trans h.burst)

theorem Sound.cost_le (h : l.Sound) : l.cost now ≤ l.refilled now := by
  unfold cost
  split
  · next hpass => exact (l.allow_eq now).2.1 hpass
  · exact h.refilled_nonneg

theorem cost_nonneg : 0 ≤ l.cost now := by
  unfold cost
  split <;> norm_num

theorem Sound.allow (h : l.Sound) (now : ℚ) : (l.allow now).1.Sound := by
  rw [(l.allow_eq now).1]
  refine ⟨h.rate, h.burst, sub_nonneg.2 h.cost_le, ?_⟩
  exact (sub_le_self _ cost_nonneg).trans refilled_le

theorem after_concat (l : RateLimit) (times : List ℚ) (now : ℚ) :
    l.after (times ++ [now]) = ((l.after times).allow now).1 := by
  unfold after
  rw [List.foldl_append, List.foldl_cons, List.foldl_nil]

/-- One more attempt. -/
theorem allowed_concat (l : RateLimit) (times : List ℚ) (now : ℚ) :
    l.allowed (times ++ [now]) =
      l.allowed times ++ if ((l.after times).allow now).2 then [now] else [] := by
  induction times generalizing l with
  | nil => rw [List.nil_append, allowed, allowed, allowed, List.nil_append, after, List.foldl_nil]
  | cons t times ih =>
      rw [List.cons_append, allowed, allowed, ih]
      split
      · rw [List.cons_append]
        rfl
      · rfl

/-! ## 2. No more than the limit -/

theorem between_nil : between a b [] = 0 := rfl

theorem between_cons (t : ℚ) : between a b (t :: times) =
    between a b times + if a ≤ t ∧ t ≤ b then 1 else 0 := by
  unfold between
  rw [List.countP_cons]
  by_cases h : a ≤ t ∧ t ≤ b
  · rw [if_pos h, if_pos (decide_eq_true h)]
  · rw [if_neg h, if_neg (mt of_decide_eq_true h)]

theorem between_append (times times' : List ℚ) :
    between a b (times ++ times') = between a b times + between a b times' := List.countP_append

theorem allowed_sublist (l : RateLimit) (times : List ℚ) : (l.allowed times).Sublist times := by
  induction times generalizing l with
  | nil => exact .slnil
  | cons now times ih =>
      rw [allowed]
      split
      · exact .cons_cons now (ih _)
      · exact .cons now (ih _)

theorem between_eq_zero (h : ∀ t ∈ times, b < t) : between a b times = 0 :=
  List.countP_eq_zero.2 fun t ht hin => absurd (of_decide_eq_true hin).2 (not_le.2 (h t ht))

/-- An attempt counts for what it costs, if it is in the interval. -/
theorem between_allowed_cons (l : RateLimit) (now : ℚ) (times : List ℚ) :
    (between a b (l.allowed (now :: times)) : ℚ) =
      between a b ((l.allow now).1.allowed times) +
        if a ≤ now ∧ now ≤ b then l.cost now else 0 := by
  rw [allowed]
  unfold cost
  by_cases hpass : (l.allow now).2 = true
  · rw [if_pos hpass, if_pos hpass, between_cons, Nat.cast_add, Nat.cast_ite, Nat.cast_one,
      Nat.cast_zero]
  · rw [if_neg hpass, if_neg hpass, ite_self, add_zero]

/-- From now on: what is in the bucket, and what comes in. -/
theorem Sound.allowed_until (h : l.Sound) (hlast : ∀ t ∈ times, l.last ≤ t)
    (hsorted : times.Pairwise (· ≤ ·)) (hb : l.last ≤ b) :
    (between a b (l.allowed times) : ℚ) ≤ l.tokens + l.rate * (b - l.last) := by
  have hroom : 0 ≤ l.tokens + l.rate * (b - l.last) :=
    add_nonneg h.nonneg (mul_nonneg h.rate (sub_nonneg.2 hb))
  induction times generalizing l with
  | nil =>
      rw [allowed, between_nil, Nat.cast_zero]
      exact hroom
  | cons now times ih =>
      obtain ⟨hle, hrest⟩ := List.pairwise_cons.1 hsorted
      have hnow := hlast now List.mem_cons_self
      have hrefill : l.refilled now ≤ l.tokens + l.rate * (now - l.last) := by
        refine (min_le_left _ _).trans_eq ?_
        rw [max_eq_left (sub_nonneg.2 hnow), mul_comm]
      -- The time until `b` is split at the attempt: what it takes from the bucket is paid by what
      -- was refilled.
      have hsplit : l.rate * (b - l.last) = l.rate * (now - l.last) + l.rate * (b - now) := by ring
      by_cases hlate : b < now
      · rw [between_eq_zero, Nat.cast_zero]
        · exact hroom
        · intro t ht
          rcases List.mem_cons.1 ((allowed_sublist l _).subset ht) with rfl | ht
          · exact hlate
          · exact hlate.trans_le (hle t ht)
      · have hnow' := not_lt.1 hlate
        have hsound := h.allow now
        rw [(l.allow_eq now).1] at hsound
        have hrec := ih hsound hle hrest hnow'
          (add_nonneg hsound.nonneg (mul_nonneg h.rate (sub_nonneg.2 hnow')))
        rw [between_allowed_cons, (l.allow_eq now).1]
        dsimp only at hrec
        have hcost : (if a ≤ now ∧ now ≤ b then l.cost now else 0) ≤ l.cost now := by
          split
          · exact le_rfl
          · exact cost_nonneg
        linarith

/-- In an interval: the bucket is full at its first attempt at best. -/
theorem Sound.allowed_between (h : l.Sound) (hsorted : times.Pairwise (· ≤ ·)) (hab : a ≤ b) :
    (between a b (l.allowed times) : ℚ) ≤ l.burst + l.rate * (b - a) := by
  have hroom : 0 ≤ l.burst + l.rate * (b - a) :=
    add_nonneg (zero_le_one.trans h.burst) (mul_nonneg h.rate (sub_nonneg.2 hab))
  induction times generalizing l with
  | nil =>
      rw [allowed, between_nil, Nat.cast_zero]
      exact hroom
  | cons now times ih =>
      obtain ⟨hle, hrest⟩ := List.pairwise_cons.1 hsorted
      have hsound := h.allow now
      rw [between_allowed_cons]
      rw [(l.allow_eq now).1] at hsound ⊢
      by_cases hin : a ≤ now ∧ now ≤ b
      · have hlater : l.rate * (b - now) ≤ l.rate * (b - a) :=
          mul_le_mul_of_nonneg_left (sub_le_sub_left hin.1 b) h.rate
        have hfull : l.refilled now ≤ l.burst := refilled_le
        have hrec := hsound.allowed_until (a := a) hle hrest hin.2
        rw [if_pos hin]
        dsimp only at hrec
        linarith
      · rw [if_neg hin, add_zero]
        exact ih hsound hrest hroom

/-! ## 3. No less than the limit -/

/-- Since some earlier attempt the bucket has not overflowed: it holds what came in since, less the
attempts since. -/
def Owes (l : RateLimit) (since : List ℚ) : Prop :=
  (since = [] ∧ l.tokens = l.burst) ∨
    ∃ start ∈ since.head?, l.tokens = l.burst + l.rate * (l.last - start) - since.length

/-- A peer that keeps to the limit loses nothing. -/
theorem Sound.allowed_all (h : l.Sound) {since : List ℚ} (howes : l.Owes since)
    (hsorted : (since ++ times).Pairwise (· ≤ ·)) (hlast : since ≠ [] → ∀ t ∈ times, l.last ≤ t)
    (hkeeps : ∀ a b, a ≤ b →
      (between a b (since ++ times) : ℚ) ≤ l.burst + l.rate * (b - a)) :
    l.allowed times = times := by
  induction times generalizing l since with
  | nil => rfl
  | cons now times ih =>
      have hrest : (now :: times).Pairwise (· ≤ ·) := (List.pairwise_append.1 hsorted).2.1
      have hle := (List.pairwise_cons.1 hrest).1
      -- an attempt that passes leaves the rest to the induction
      have hgo (since' : List ℚ) (hpass : 1 ≤ l.refilled now)
          (hsub : (since' ++ times).Sublist (since ++ now :: times))
            (howes' : Owes { l with last := now, tokens := l.refilled now - 1 }
            since') : l.allowed (now :: times) = now :: times := by
        have hyes := (l.allow_eq now).2.2 hpass
        have hstate : (l.allow now).1 = { l with last := now, tokens := l.refilled now - 1 } := by
          rw [(l.allow_eq now).1]
          unfold cost
          rw [if_pos hyes]
        have hsound := h.allow now
        rw [allowed, if_pos hyes, hstate]
        rw [hstate] at hsound
        refine congrArg (now :: ·) (ih hsound howes' (hsorted.sublist hsub) (fun _ => hle) ?_)
        exact fun a b hab => (Nat.cast_le.2 hsub.countP_le).trans (hkeeps a b hab)
      by_cases hfull : l.refilled now = l.burst
      · refine hgo [now] (hfull ▸ h.burst) (List.sublist_append_right _ _) ?_
        refine .inr ⟨now, rfl, ?_⟩
        rw [hfull, sub_self, mul_zero, add_zero, List.length_singleton, Nat.cast_one]
      · have hopen : l.refilled now = l.tokens + max (now - l.last) 0 * l.rate :=
          (min_choice _ _).resolve_right hfull
        rcases howes with ⟨-, htokens⟩ | ⟨start, hstart, htokens⟩
        · refine absurd (min_eq_right ?_) hfull
          rw [htokens]
          exact le_add_of_nonneg_right (mul_nonneg (le_max_right _ _) h.rate)
        · obtain ⟨earlier, rfl⟩ : ∃ earlier, since = start :: earlier :=
            List.head?_eq_some_iff.1 hstart
          have hnow := hlast (List.cons_ne_nil _ _) now List.mem_cons_self
          have htokens' : l.refilled now =
              l.burst + l.rate * (now - start) - (start :: earlier).length := by
            rw [hopen, htokens, max_eq_left (sub_nonneg.2 hnow)]
            ring
          have hin : ∀ t ∈ start :: earlier, start ≤ t ∧ t ≤ now := by
            intro t ht
            refine ⟨?_, (List.pairwise_append.1 hsorted).2.2 t ht now List.mem_cons_self⟩
            rcases List.mem_cons.1 ht with rfl | ht
            · exact le_rfl
            · exact (List.pairwise_cons.1 (List.pairwise_append.1 hsorted).1).1 t ht
          have hmade : (start :: earlier).length + 1 ≤
              between start now (start :: earlier ++ now :: times) := by
            have hself := (hin start List.mem_cons_self).2
            have hall : between start now (start :: earlier) = (start :: earlier).length :=
              List.countP_eq_length.2 fun t ht => decide_eq_true (hin t ht)
            rw [between_append, hall, between_cons, if_pos ⟨hself, le_rfl⟩]
            omega
          have hkept :=
            (Nat.cast_le.2 hmade).trans (hkeeps start now (hin start List.mem_cons_self).2)
          rw [Nat.cast_add, Nat.cast_one] at hkept
          refine hgo (start :: earlier ++ [now]) (by linarith) ?_ (.inr ⟨start, rfl, ?_⟩)
          · rw [List.append_assoc, List.singleton_append]
          · rw [htokens', List.length_append, List.length_singleton, Nat.cast_add, Nat.cast_one]
            ring

/-- **Rate limit.** In every interval the bucket lets no more attempts pass than the limit; and if
in every interval no more are made, all pass. -/
theorem rate_limit {rate burst : ℚ} (hrate : 0 ≤ rate) (hburst : 1 ≤ burst) (start : ℚ)
    {times : List ℚ} (hsorted : times.Pairwise (· ≤ ·)) :
    (∀ a b, a ≤ b →
      (between a b ((new rate burst start).allowed times) : ℚ) ≤ burst + rate * (b - a)) ∧
    ((∀ a b, a ≤ b → (between a b times : ℚ) ≤ burst + rate * (b - a)) →
      (new rate burst start).allowed times = times) :=
  ⟨fun _ _ hab => (new_sound hrate hburst start).allowed_between hsorted hab,
    fun hkeeps => (new_sound hrate hburst start).allowed_all (.inl ⟨rfl, rfl⟩) hsorted
      (fun hne => absurd rfl hne) hkeeps⟩

/-- Of twenty-one attempts in the first second a burst of five lets fifteen in at most; four in two
seconds all come in. -/
theorem rate_limit_flood :
    let times := (List.range 21).map fun i => (i : ℚ) / 20
    (between 0 1 ((new 10 5 0).allowed times) : ℚ) ≤ 5 + 10 * (1 - 0) ∧
      (new 10 5 0).allowed [0, 0, 1, 2] = [0, 0, 1, 2] := by
  refine ⟨(rate_limit (by norm_num) (by norm_num) 0 (by decide +kernel)).1 0 1 (by norm_num), ?_⟩
  refine (rate_limit (by norm_num) (by norm_num) 0 (by decide +kernel)).2 fun a b hab => ?_
  have hlength : (between a b [0, 0, 1, 2] : ℚ) ≤ 4 := Nat.cast_le_ofNat.2 List.countP_le_length
  linarith

end RateLimit

end SoundPush
