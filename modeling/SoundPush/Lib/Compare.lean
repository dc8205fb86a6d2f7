/-
`Compare` -- comparisons that may have no answer.

A comparison of numbers that are not all numbers gives no answer for some pairs.
What is left of an order is `Coherent`: turning the pair turns the answer, and
"equal" and "greater" chain. Taking the first answer that is not "equal", of two
comparisons or along two lists, keeps this, and so does comparing by a key. On a
coherent comparison a scan for the newest element finds one that none exceeds
(`scan_unexceeded`); where there is always an answer, it is a total preorder
(`Coherent.le_trans`).
-/
import Mathlib.Data.List.Induction
import Mathlib.Order.Compare
import Mathlib.Order.WithBot

set_option autoImplicit false

namespace SoundPush

/-- A comparison; `none` is no answer. -/
abbrev Comparison (α : Type*) := α → α → Option Ordering

namespace Comparison

variable {α β : Type*}

structure Coherent (c : Comparison α) : Prop where
  swap : ∀ x y, c y x = (c x y).map Ordering.swap
  chain : ∀ x y z o o', c x y = some o → c y z = some o' → o ≠ .lt → o' ≠ .lt →
    c x z = some (o.then o')

/-- A comparison that always has an answer. -/
def total (c : α → α → Ordering) : Comparison α := fun x y => some (c x y)

/-- Compare by a key. -/
def by_key (f : α → β) (c : Comparison β) : Comparison α := fun x y => c (f x) (f y)

/-- The first answer that is not "equal". -/
def or_else (answer rest : Option Ordering) : Option Ordering :=
  match answer with
  | some .eq => rest
  | answer => answer

/-- The second comparison decides between what is equal for the first. -/
def lex (c c' : Comparison α) : Comparison α := fun x y => or_else (c x y) (c' x y)

/-- Compare element by element; a list that goes on is greater. -/
def lex_list (c : Comparison α) : Comparison (List α)
  | [], [] => some .eq
  | [], _ :: _ => some .lt
  | _ :: _, [] => some .gt
  | x :: xs, y :: ys => or_else (c x y) (lex_list c xs ys)

/-- Compare what is there; what is missing is greatest. -/
def none_greatest (c : Comparison α) : Comparison (Option α)
  | none, none => some .eq
  | none, some _ => some .gt
  | some _, none => some .lt
  | some x, some y => c x y

@[simp] theorem or_else_eq (rest : Option Ordering) : or_else (some .eq) rest = rest := rfl
@[simp] theorem or_else_lt (rest : Option Ordering) : or_else (some .lt) rest = some .lt := rfl
@[simp] theorem or_else_gt (rest : Option Ordering) : or_else (some .gt) rest = some .gt := rfl
@[simp] theorem or_else_none (rest : Option Ordering) : or_else none rest = none := rfl

theorem or_else_swap (answer rest : Option Ordering) :
    or_else (answer.map Ordering.swap) (rest.map Ordering.swap) =
      (or_else answer rest).map Ordering.swap := by
  rcases answer with _ | answer
  · rfl
  · cases answer <;> rfl

theorem coherent_cmp [LinearOrder α] : Coherent (total (cmp : α → α → Ordering)) := by
  refine ⟨?_, ?_⟩
  · intro x y
    exact congrArg some (cmp_swap x y).symm
  · intro x y z o o' hxy hyz ho ho'
    obtain rfl : cmp x y = o := Option.some_inj.1 hxy
    obtain rfl : cmp y z = o' := Option.some_inj.1 hyz
    refine congrArg some ?_
    rcases lt_trichotomy x y with hlt | rfl | hgt
    · exact absurd (cmp_eq_lt_iff x y |>.2 hlt) ho
    · rw [cmp_self_eq_eq]
      rfl
    · rw [(cmp_eq_gt_iff x y).2 hgt]
      rcases lt_trichotomy y z with hlt | rfl | hgt'
      · exact absurd (cmp_eq_lt_iff y z |>.2 hlt) ho'
      · exact (cmp_eq_gt_iff x y).2 hgt
      · exact (cmp_eq_gt_iff x z).2 (hgt'.trans hgt)

namespace Coherent

variable {c c' : Comparison α}

theorem by_key {c : Comparison β} (h : c.Coherent) (f : α → β) : (by_key f c).Coherent :=
  ⟨fun x y => h.swap (f x) (f y), fun x y z => h.chain (f x) (f y) (f z)⟩

/-- Three pairs that are compared in two rounds chain if they do in each round. -/
theorem chain_or_else (h : c.Coherent) {x y z : α} {rxy ryz rxz : Option Ordering}
    (hrest : ∀ o o', rxy = some o → ryz = some o' → o ≠ .lt → o' ≠ .lt → rxz = some (o.then o'))
    (o o' : Ordering) (hxy : or_else (c x y) rxy = some o) (hyz : or_else (c y z) ryz = some o')
    (ho : o ≠ .lt) (ho' : o' ≠ .lt) : or_else (c x z) rxz = some (o.then o') := by
  cases hcxy : c x y with
  | none => simp [hcxy] at hxy
  | some a =>
      cases hcyz : c y z with
      | none => simp [hcyz] at hyz
      | some b =>
          have hchain := h.chain x y z a b hcxy hcyz
          rw [hcxy] at hxy
          rw [hcyz] at hyz
          cases a with
          | lt => simp [ho.symm] at hxy
          | eq =>
              cases b with
              | lt => simp [ho'.symm] at hyz
              | eq =>
                  rw [hchain (by decide) (by decide)]
                  exact hrest o o' hxy hyz ho ho'
              | gt =>
                  -- the second pair is decided, and so is the third
                  obtain rfl : Ordering.gt = o' := Option.some_inj.1 hyz
                  rw [hchain (by decide) (by decide)]
                  cases o with
                  | lt => exact absurd rfl ho
                  | eq => rfl
                  | gt => rfl
          | gt =>
              obtain rfl : Ordering.gt = o := Option.some_inj.1 hxy
              have hb : b ≠ .lt := by
                rintro rfl
                exact ho' (Option.some_inj.1 hyz).symm
              rw [hchain (by decide) hb]
              rfl

theorem lex (h : c.Coherent) (h' : c'.Coherent) : (lex c c').Coherent := by
  refine ⟨?_, ?_⟩
  · intro x y
    unfold Comparison.lex
    rw [h.swap, h'.swap, or_else_swap]
  · intro x y z
    exact h.chain_or_else (h'.chain x y z)

theorem lex_list (h : c.Coherent) : (lex_list c).Coherent := by
  refine ⟨?_, ?_⟩
  · intro xs
    induction xs with
    -- A list that ends first is the lesser one, whatever follows.
    | nil =>
        intro ys
        cases ys <;> rfl
    | cons x xs ih =>
        intro ys
        cases ys with
        | nil => rfl
        | cons y ys =>
            simp only [Comparison.lex_list]
            rw [h.swap, ih, or_else_swap]
  · intro xs
    induction xs with
    | nil =>
        intro ys zs o o' hxy hyz ho ho'
        cases ys with
        | nil =>
            obtain rfl : Ordering.eq = o := Option.some_inj.1 hxy
            exact hyz
        | cons y ys => exact absurd (Option.some_inj.1 hxy).symm ho
    | cons x xs ih =>
        intro ys zs o o' hxy hyz ho ho'
        cases ys with
        | nil =>
            obtain rfl : Ordering.gt = o := Option.some_inj.1 hxy
            cases zs with
            | nil => rfl
            | cons z zs => exact absurd (Option.some_inj.1 hyz).symm ho'
        | cons y ys =>
            cases zs with
            | nil =>
                obtain rfl : Ordering.gt = o' := Option.some_inj.1 hyz
                cases o with
                | lt => exact absurd rfl ho
                | eq => rfl
                | gt => rfl
            | cons z zs => exact h.chain_or_else (ih ys zs) o o' hxy hyz ho ho'

theorem none_greatest (h : c.Coherent) : (none_greatest c).Coherent := by
  refine ⟨?_, ?_⟩
  · intro x y
    cases x with
    | none => cases y <;> rfl
    | some x =>
        cases y with
        | none => rfl
        | some y => exact h.swap x y
  · intro x y z o o' hxy hyz ho ho'
    cases x with
    | none =>
        cases y with
        | none =>
            obtain rfl : Ordering.eq = o := Option.some_inj.1 hxy
            exact hyz
        | some y =>
            obtain rfl : Ordering.gt = o := Option.some_inj.1 hxy
            cases z with
            | none => exact absurd (Option.some_inj.1 hyz).symm ho'
            | some z => rfl
    | some x =>
        cases y with
        | none => exact absurd (Option.some_inj.1 hxy).symm ho
        | some y =>
            cases z with
            | none => exact absurd (Option.some_inj.1 hyz).symm ho'
            | some z => exact h.chain x y z o o' hxy hyz ho ho'

/-- Nothing exceeds itself. -/
theorem not_gt_self (h : c.Coherent) (x : α) : c x x ≠ some .gt := by
  intro hx
  have hswap := h.swap x x
  rw [hx] at hswap
  cases hswap

theorem gt_trans (h : c.Coherent) {x y z : α} (hxy : c x y = some .gt) (hyz : c y z = some .gt) :
    c x z = some .gt :=
  h.chain x y z _ _ hxy hyz (by decide) (by decide)

/-- Where there is always an answer, "not greater" is transitive. -/
theorem le_trans (h : c.Coherent) {x y z : α} (hxy : (c x y).isSome) (hyz : (c y z).isSome)
    (hle : c x y ≠ some .gt) (hle' : c y z ≠ some .gt) : c x z ≠ some .gt := by
  -- turn all pairs, so that "not greater" is "not less"
  obtain ⟨o, ho⟩ := Option.isSome_iff_exists.1 hxy
  obtain ⟨o', ho'⟩ := Option.isSome_iff_exists.1 hyz
  have hyx : c y x = some o.swap := by rw [h.swap x y, ho, Option.map_some]
  have hzy : c z y = some o'.swap := by rw [h.swap y z, ho', Option.map_some]
  rw [ho] at hle
  rw [ho'] at hle'
  have hzx := h.chain z y x _ _ hzy hyx
    (by cases o' <;> simp at hle' ⊢) (by cases o <;> simp at hle ⊢)
  rw [h.swap z x, hzx]
  cases o <;> cases o' <;> simp at hle hle' ⊢

end Coherent

/-- There is always an answer. -/
def Answers (c : Comparison α) : Prop := ∀ x y, (c x y).isSome = true

theorem isSome_or_else {answer rest : Option Ordering} (h : answer.isSome = true)
    (hrest : rest.isSome = true) : (or_else answer rest).isSome = true := by
  rcases answer with _ | answer
  · cases h
  · cases answer
    · rfl
    · exact hrest
    · rfl

theorem Answers.lex_list {c : Comparison α} (h : c.Answers) : (lex_list c).Answers := by
  intro xs
  induction xs with
  | nil =>
      intro ys
      cases ys <;> rfl
  | cons x xs ih =>
      intro ys
      cases ys with
      | nil => rfl
      | cons y ys => exact isSome_or_else (h x y) (ih ys)

theorem Answers.none_greatest {c : Comparison α} (h : c.Answers) : (none_greatest c).Answers := by
  intro x y
  cases x with
  | none => cases y <;> rfl
  | some x =>
      cases y with
      | none => rfl
      | some y => exact h x y

/-! ## Scanning for the newest -/

/-- What is greatest so far, and one more. -/
def keep_greater (c : Comparison α) (best : Option α) (x : α) : Option α :=
  match best with
  | none => some x
  | some best => if c x best = some .gt then some x else some best

/-- Elements of a list that none of its elements exceeds. -/
def Unexceeded (c : Comparison α) (l : List α) : Option α → Prop
  | none => l = []
  | some best => best ∈ l ∧ ∀ x ∈ l, c x best ≠ some .gt

theorem scan_unexceeded {c : Comparison α} (h : c.Coherent) (l : List α) :
    Unexceeded c l (l.foldl (keep_greater c) none) := by
  induction l using List.reverseRecOn with
  | nil => rfl
  | append_singleton l x ih =>
      rw [List.foldl_append, List.foldl_cons, List.foldl_nil]
      cases hbest : l.foldl (keep_greater c) none with
      | none =>
          rw [hbest] at ih
          rw [show l = [] from ih]
          refine ⟨by simp, ?_⟩
          intro y hy
          rw [List.mem_singleton.1 hy]
          exact h.not_gt_self x
      | some best =>
          rw [hbest] at ih
          obtain ⟨hmem, hmax⟩ := ih
          unfold keep_greater
          dsimp only
          split
          · rename_i hgt
            refine ⟨by simp, ?_⟩
            intro y hy hexceeds
            rcases List.mem_append.1 hy with hy | hy
            · exact hmax y hy (h.gt_trans hexceeds hgt)
            · rw [List.mem_singleton.1 hy] at hexceeds
              exact h.not_gt_self x hexceeds
          · rename_i hle
            refine ⟨List.mem_append_left _ hmem, ?_⟩
            intro y hy
            rcases List.mem_append.1 hy with hy | hy
            · exact hmax y hy
            · rwa [List.mem_singleton.1 hy]

end Comparison

end SoundPush
