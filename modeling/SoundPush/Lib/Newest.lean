/-
`Newest` -- bounded lists that keep the newest elements.

`newest n p l` are the last `n` of the elements that pass a test. On a list where
everything after a passing element passes too (times in order against a cutoff),
a list kept this way step by step, testing and cutting each time, is what testing
and cutting once at the end gives: `filter_newest` and `newest_concat`.
-/
import Mathlib.Data.List.DropRight

set_option autoImplicit false

namespace List

variable {α : Type*} {p q : α → Bool} {n : Nat} {l : List α} {x : α}

/-- What comes after an element that passes also passes. -/
def Settles (p : α → Bool) (l : List α) : Prop := l.Pairwise fun a b => p a = true → p b = true

/-- The last `n` of the elements that pass. -/
def newest (n : Nat) (p : α → Bool) (l : List α) : List α := (l.filter p).rtake n

theorem length_rtake (n : Nat) (l : List α) : (l.rtake n).length = min n l.length := by
  simp only [rtake, length_drop]
  omega

theorem rtake_of_length_le (h : l.length ≤ n) : l.rtake n = l := by
  simp [rtake, Nat.sub_eq_zero_of_le h]

theorem rtake_sublist (n : Nat) (l : List α) : (l.rtake n).Sublist l := drop_sublist _ _

/-- Cutting before one more element is added makes no difference to cutting after. -/
theorem rtake_rtake_concat (n : Nat) (l : List α) (x : α) :
    (l.rtake n ++ [x]).rtake n = (l ++ [x]).rtake n := by
  have hlen := length_rtake n l
  unfold rtake at hlen ⊢
  rw [length_append, length_append, length_singleton, hlen]
  by_cases hn : l.length ≤ n
  · rw [Nat.min_eq_right hn, Nat.sub_eq_zero_of_le hn, drop_zero]
  · -- the cut list is full, so one more pushes its first out
    cases n with
    | zero => simp
    | succ n =>
        rw [Nat.min_eq_left (by omega), drop_append_of_le_length (by rw [hlen]; omega), drop_drop,
          drop_append_of_le_length (by omega)]
        congr 2
        omega

/-- A list that is one too long loses its first. -/
theorem tail_if_longer (h : l.length ≤ n) :
    (if n < (l ++ [x]).length then (l ++ [x]).tail else l ++ [x]) = (l ++ [x]).rtake n := by
  split
  · rename_i hover
    rw [length_append, length_singleton] at hover
    rw [rtake, length_append, length_singleton, show l.length + 1 - n = 1 by omega, drop_one]
  · rw [rtake_of_length_le (by omega)]

theorem length_newest_le : (newest n p l).length ≤ n := by
  rw [newest, length_rtake]
  exact Nat.min_le_left _ _

theorem newest_sublist (n : Nat) (p : α → Bool) (l : List α) : (newest n p l).Sublist l :=
  (rtake_sublist n _).trans filter_sublist

/-- What is kept and passes is kept again. -/
theorem newest_of_forall (hp : ∀ x ∈ l, p x = true) (hlen : l.length ≤ n) : newest n p l = l := by
  rw [newest, filter_eq_self.2 hp, rtake_of_length_le hlen]

theorem of_mem_newest (h : x ∈ newest n p l) : p x = true :=
  (mem_filter.1 ((rtake_sublist n _).subset h)).2

/-- Of a list that settles, what passes are the last elements. -/
theorem Settles.suffix (h : l.Settles p) :
    ∃ before, l = before ++ l.filter p ∧ ∀ y ∈ before, ¬ p y = true := by
  induction l with
  | nil => exact ⟨[], by simp, by simp⟩
  | cons y l ih =>
      obtain ⟨hy, hl⟩ := pairwise_cons.1 h
      by_cases hp : p y = true
      · have hall : ∀ z ∈ y :: l, p z = true := by
          intro z hz
          rcases mem_cons.1 hz with rfl | hz
          · exact hp
          · exact hy z hz hp
        exact ⟨[], by simp [filter_eq_self.2 hall], by simp⟩
      · obtain ⟨before, heq, hbefore⟩ := ih hl
        refine ⟨y :: before, ?_, ?_⟩
        · rw [filter_cons, if_neg hp, cons_append, ← heq]
        · intro z hz
          rcases mem_cons.1 hz with rfl | hz
          · exact hp
          · exact hbefore z hz

theorem Settles.sublist {m : List α} (h : l.Settles p) (hm : m.Sublist l) : m.Settles p :=
  Pairwise.sublist hm h

/-- Dropping what does not pass from the front is all there is to filtering. -/
theorem Settles.dropWhile_eq_filter (h : l.Settles p) :
    l.dropWhile (fun y => !p y) = l.filter p := by
  obtain ⟨before, heq, hbefore⟩ := h.suffix
  have hdrop : before.dropWhile (fun y => !p y) = [] := by
    rw [dropWhile_eq_nil_iff]
    intro y hy
    simp [hbefore y hy]
  have hkept : (l.filter p).dropWhile (fun y => !p y) = l.filter p := by
    rw [dropWhile_eq_self_iff]
    intro hl
    simp [(mem_filter.1 (getElem_mem hl)).2]
  conv_lhs => rw [heq]
  rw [dropWhile_append, hdrop]
  simpa using hkept

theorem Settles.filter_rtake (h : l.Settles p) (n : Nat) :
    (l.rtake n).filter p = (l.filter p).rtake n := by
  obtain ⟨before, heq, hbefore⟩ := h.suffix
  have hnone : ∀ k, (before.drop k).filter p = [] := by
    intro k
    rw [filter_eq_nil_iff]
    exact fun y hy => hbefore y (mem_of_mem_drop hy)
  have hall : ∀ k, ((l.filter p).drop k).filter p = (l.filter p).drop k := by
    intro k
    rw [filter_eq_self]
    exact fun y hy => (mem_filter.1 (mem_of_mem_drop hy)).2
  have hlen : l.length = before.length + (l.filter p).length := by
    rw [← length_append, ← heq]
  have hdrop (k : Nat) : l.drop k = before.drop k ++ (l.filter p).drop (k - before.length) := by
    conv_lhs => rw [heq]
    rw [drop_append]
  unfold rtake
  rw [hdrop, filter_append, hnone, hall, nil_append, hlen]
  congr 1
  omega

/-- A stricter test later is the stricter test at once. -/
theorem filter_newest (h : l.Settles q) (hqp : ∀ y, q y = true → p y = true) :
    (newest n p l).filter q = newest n q l := by
  have hboth : (l.filter p).filter q = l.filter q := by
    rw [filter_filter]
    apply filter_congr
    intro y _
    by_cases hq : q y = true
    · simp [hq, hqp y hq]
    · simp [hq]
  unfold newest
  rw [(h.sublist filter_sublist).filter_rtake, hboth]

/-- One more element: test what was kept, add it, cut. -/
theorem newest_concat (h : l.Settles q) (hqp : ∀ y, q y = true → p y = true) (hx : q x = true) :
    newest n q (l ++ [x]) = ((newest n p l).filter q ++ [x]).rtake n := by
  rw [filter_newest h hqp]
  unfold newest
  rw [rtake_rtake_concat, filter_append, filter_cons, if_pos hx, filter_nil]

end List
