/-
`Streaks` -- switches that follow streaks, said by the history they saw.

A switch with hysteresis goes on after so many measurements of one kind in a row
and off after so many of another kind. It keeps two counters and no history;
`Lingers` says the same of the history alone, and `lingers_concat` how one more
measurement moves it. That is the step by which a counting implementation is
compared with its history.
-/
import Mathlib.Data.List.DropRight

set_option autoImplicit false

namespace List

variable {α : Type*} {p q : α → Bool} {n enter leave : Nat} {l : List α} {x : α}

/-- How many elements at the end pass the test. -/
def streak (p : α → Bool) (l : List α) : Nat := (l.rtakeWhile p).length

@[simp] theorem streak_nil : streak p ([] : List α) = 0 := by
  unfold streak
  rw [rtakeWhile_nil, length_nil]

theorem streak_concat : streak p (l ++ [x]) = if p x then streak p l + 1 else 0 := by
  unfold streak
  rw [rtakeWhile_concat]
  split
  · rw [length_append, length_singleton]
  · rfl

/-- A streak as a part of the list. -/
theorem le_streak_iff :
    n ≤ streak p l ↔ ∃ before run, l = before ++ run ∧ run.length = n ∧ ∀ y ∈ run, p y = true := by
  induction l using reverseRecOn generalizing n with
  | nil =>
      rw [streak_nil, Nat.le_zero]
      constructor
      · rintro rfl
        exact ⟨[], [], rfl, rfl, fun y hy => absurd hy not_mem_nil⟩
      · rintro ⟨before, run, h, rfl, -⟩
        rw [(append_eq_nil_iff.1 h.symm).2, length_nil]
  | append_singleton l x ih =>
      cases n with
      | zero =>
          refine iff_of_true (Nat.zero_le _) ⟨l ++ [x], [], (append_nil _).symm, rfl, ?_⟩
          exact fun y hy => absurd hy not_mem_nil
      | succ n =>
          rw [streak_concat]
          constructor
          · intro h
            -- The streak goes on with `x`, or is broken by it.
            by_cases hx : p x = true
            · rw [if_pos hx] at h
              obtain ⟨before, run, rfl, hlen, hrun⟩ := ih.1 (Nat.le_of_succ_le_succ h)
              refine ⟨before, run ++ [x], append_assoc _ _ _, ?_, fun y hy => ?_⟩
              · rw [length_append, hlen, length_singleton]
              · rcases mem_append.1 hy with hy | hy
                · exact hrun y hy
                · rwa [mem_singleton.1 hy]
            · rw [if_neg hx] at h
              exact absurd h (Nat.not_succ_le_zero n)
          · rintro ⟨before, run, heq, hlen, hrun⟩
            rcases eq_nil_or_concat run with rfl | ⟨run, y, rfl⟩
            · exact absurd hlen (Nat.succ_ne_zero n).symm
            · rw [concat_eq_append] at heq hlen hrun
              rw [← append_assoc] at heq
              obtain ⟨rfl, hy⟩ := append_inj' heq rfl
              obtain rfl := singleton_inj.1 hy
              rw [if_pos (hrun x (mem_append_right _ (mem_singleton_self x)))]
              rw [length_append, length_singleton] at hlen
              refine Nat.succ_le_succ (ih.2 ⟨before, run, rfl, Nat.succ.inj hlen, ?_⟩)
              exact fun y hy => hrun y (mem_append_left _ hy)

/-- Somewhere, so many elements in a row pass the test. -/
def HasRun (p : α → Bool) (n : Nat) (l : List α) : Prop :=
  ∃ before run after, l = before ++ run ++ after ∧ run.length = n ∧ ∀ y ∈ run, p y = true

theorem has_run_concat : HasRun p n (l ++ [x]) ↔ HasRun p n l ∨ n ≤ streak p (l ++ [x]) := by
  constructor
  · rintro ⟨before, run, after, heq, hlen, hrun⟩
    rcases eq_nil_or_concat after with rfl | ⟨after, y, rfl⟩
    · rw [append_nil] at heq
      exact .inr (le_streak_iff.2 ⟨before, run, heq, hlen, hrun⟩)
    · rw [concat_eq_append, ← append_assoc] at heq
      exact .inl ⟨before, run, after, (append_inj' heq rfl).1, hlen, hrun⟩
  · rintro (⟨before, run, after, rfl, hlen, hrun⟩ | h)
    · exact ⟨before, run, after ++ [x], append_assoc _ _ _, hlen, hrun⟩
    · obtain ⟨before, run, heq, hlen, hrun⟩ := le_streak_iff.1 h
      exact ⟨before, run, [], heq.trans (append_nil _).symm, hlen, hrun⟩

/-- There is a run of `enter` elements that pass one test, and after it none of `leave` elements
that pass the other. -/
def Lingers (p q : α → Bool) (enter leave : Nat) (l : List α) : Prop :=
  ∃ before run after, l = before ++ run ++ after ∧ run.length = enter ∧
    (∀ y ∈ run, p y = true) ∧ ¬ HasRun q leave after

theorem not_lingers_nil (h : 0 < enter) : ¬ Lingers p q enter leave ([] : List α) := by
  rintro ⟨before, run, after, heq, rfl, -⟩
  rw [(append_eq_nil_iff.1 (append_eq_nil_iff.1 heq.symm).1).2, length_nil] at h
  exact absurd h (Nat.lt_irrefl 0)

theorem not_has_run_nil (h : 0 < n) : ¬ HasRun p n ([] : List α) := by
  rintro ⟨before, run, after, heq, rfl, -⟩
  rw [(append_eq_nil_iff.1 (append_eq_nil_iff.1 heq.symm).1).2, length_nil] at h
  exact absurd h (Nat.lt_irrefl 0)

/-- A streak of one kind after a run of the other is all after it. -/
theorem le_streak_after {before run after : List α} (hpq : ∀ y, p y = true → q y = false)
    (hrun : ∀ y ∈ run, p y = true) (hne : run ≠ [])
    (h : n ≤ streak q (before ++ run ++ after)) : n ≤ streak q after := by
  obtain ⟨before', run', heq, hlen, hrun'⟩ := le_streak_iff.1 h
  rcases append_eq_append_iff.1 heq with ⟨middle, -, hafter⟩ | ⟨middle, hbefore, hrest⟩
  · exact le_streak_iff.2 ⟨middle, run', hafter, hlen, hrun'⟩
  · rcases eq_nil_or_concat middle with rfl | ⟨middle, y, rfl⟩
    · exact le_streak_iff.2 ⟨[], run', hrest.symm, hlen, hrun'⟩
    · -- the last element of the run would pass both tests
      obtain ⟨run, z, rfl⟩ := (eq_nil_or_concat run).resolve_left hne
      rw [concat_eq_append, concat_eq_append, ← append_assoc, ← append_assoc] at hbefore
      obtain ⟨-, hz⟩ := append_inj' hbefore rfl
      obtain rfl := singleton_inj.1 hz
      have hp := hrun z (by rw [concat_eq_append]; exact mem_append_right _ (mem_singleton_self z))
      have hq := hrun' z (by
        rw [hrest, concat_eq_append]
        exact mem_append_left _ (mem_append_right _ (mem_singleton_self z)))
      rw [hpq z hp] at hq
      cases hq

/-- One more element: what lingers does so until the other streak is long enough, and what does not
begins with a streak of its own. -/
theorem lingers_concat (hpq : ∀ y, p y = true → q y = false) (he : 0 < enter) (hl : 0 < leave) :
    Lingers p q enter leave (l ++ [x]) ↔
      (Lingers p q enter leave l ∧ streak q (l ++ [x]) < leave) ∨
        (¬ Lingers p q enter leave l ∧ enter ≤ streak p (l ++ [x])) := by
  have hne {run : List α} (hlen : run.length = enter) : run ≠ [] := by
    rintro rfl
    exact absurd hlen (Nat.ne_of_lt he)
  by_cases hlinger : Lingers p q enter leave l
  · rw [iff_true_intro hlinger, not_true, false_and, or_false, true_and]
    constructor
    · rintro ⟨before, run, after, heq, hlen, hrun, hno⟩
      by_contra hlong
      have hstreak := not_lt.1 hlong
      rw [heq] at hstreak
      obtain ⟨a, r, rfl, hr, hall⟩ := le_streak_iff.1 (le_streak_after hpq hrun (hne hlen) hstreak)
      exact hno ⟨a, r, [], (append_nil _).symm, hr, hall⟩
    · intro hshort
      obtain ⟨before, run, after, rfl, hlen, hrun, hno⟩ := hlinger
      refine ⟨before, run, after ++ [x], append_assoc _ _ _, hlen, hrun, fun h => ?_⟩
      rcases has_run_concat.1 h with h | h
      · exact hno h
      · obtain ⟨a, r, heq, hr, hall⟩ := le_streak_iff.1 h
        refine absurd (le_streak_iff.2 ⟨before ++ run ++ a, r, ?_, hr, hall⟩) (not_le.2 hshort)
        rw [append_assoc, heq]
        simp only [append_assoc]
  · rw [iff_false_intro hlinger, not_false_iff, false_and, false_or, true_and]
    constructor
    · rintro ⟨before, run, after, heq, hlen, hrun, hno⟩
      rcases eq_nil_or_concat after with rfl | ⟨after, y, rfl⟩
      · rw [append_nil] at heq
        exact le_streak_iff.2 ⟨before, run, heq, hlen, hrun⟩
      · rw [concat_eq_append] at heq hno
        rw [← append_assoc] at heq
        exact absurd ⟨before, run, after, (append_inj' heq rfl).1, hlen, hrun,
          fun h => hno (has_run_concat.2 (.inl h))⟩ hlinger
    · intro hstreak
      obtain ⟨before, run, heq, hlen, hrun⟩ := le_streak_iff.1 hstreak
      exact ⟨before, run, [], heq.trans (append_nil _).symm, hlen, hrun, not_has_run_nil hl⟩

end List
