/-
`Tokens` -- text taken apart into tokens that are rewritten and separators that are
kept, in one pass that collects a token until a separator or the end flushes it.

Where a separator stands, the text before it and the text after it do not know of
each other (`scan_append_sep`), so what is done to a piece between separators is what
is done to it alone (`scan_between`). And a word of token characters that occurs in
the result occurs in one of the pieces (`infix_of_infix_sep`).
-/
import Mathlib.Data.List.Basic

set_option autoImplicit false

namespace Tokens

variable {α : Type} {p : α → Bool} {f : List α → List α}

/-- One element: the token that is being collected, and what was put out. -/
def push (p : α → Bool) (f : List α → List α) (st : List α × List α) (c : α) :
    List α × List α :=
  if p c then (st.1 ++ [c], st.2) else ([], st.2 ++ f st.1 ++ [c])

/-- Rewrite every token, a run of elements that pass the test. -/
def scan (p : α → Bool) (f : List α → List α) (text : List α) : List α :=
  let st := text.foldl (push p f) ([], [])
  st.2 ++ f st.1

/-- What was put out before is kept in front. -/
theorem foldl_push_out (text token out : List α) :
    text.foldl (push p f) (token, out) =
      ((text.foldl (push p f) (token, [])).1,
        out ++ (text.foldl (push p f) (token, [])).2) := by
  induction text generalizing token out with
  | nil => simp
  | cons c text ih =>
      rw [List.foldl_cons, List.foldl_cons]
      by_cases h : p c = true
      · have hpush : ∀ o, push p f (token, o) c = (token ++ [c], o) := fun o => if_pos h
        rw [hpush, hpush]
        exact ih _ _
      · have hpush : ∀ o, push p f (token, o) c = ([], o ++ f token ++ [c]) :=
          fun o => if_neg h
        rw [hpush, hpush, ih [] (out ++ f token ++ [c]), ih [] ([] ++ f token ++ [c])]
        simp [List.append_assoc]

/-- A separator parts what is before it from what is after it. -/
theorem scan_append_sep {c : α} (hc : p c = false) (u w : List α) :
    scan p f (u ++ c :: w) = scan p f u ++ c :: scan p f w := by
  have hsep : ∀ st : List α × List α,
      push p f st c = ([], st.2 ++ f st.1 ++ [c]) := by
    intro st
    unfold push
    rw [hc]
    exact if_neg Bool.false_ne_true
  unfold scan
  rw [List.foldl_append, List.foldl_cons, hsep, foldl_push_out]
  simp [List.append_assoc]

/-- A token is flushed. -/
theorem scan_token {t : List α} (h : ∀ c ∈ t, p c = true) : scan p f t = f t := by
  have hall : ∀ token : List α, t.foldl (push p f) (token, []) = (token ++ t, []) := by
    intro token
    induction t generalizing token with
    | nil => simp
    | cons c t ih =>
        have hpush : push p f (token, []) c = (token ++ [c], []) :=
          if_pos (h c List.mem_cons_self)
        rw [List.foldl_cons, hpush, ih (fun d hd => h d (List.mem_cons_of_mem _ hd))]
        simp
  unfold scan
  rw [hall]
  simp

/-- A piece of text that no token crosses the ends of is rewritten alone. -/
theorem scan_between (hnil : f [] = []) {u x v : List α}
    (hu : ∀ c ∈ u.getLast?, p c = false) (hv : ∀ c ∈ v.head?, p c = false) :
    scan p f (u ++ x ++ v) = scan p f u ++ scan p f x ++ scan p f v := by
  have hempty : scan p f [] = [] := hnil
  have hright : scan p f (u ++ x ++ v) = scan p f (u ++ x) ++ scan p f v := by
    cases v with
    | nil => rw [List.append_nil, hempty, List.append_nil]
    | cons c v =>
        have hc := hv c rfl
        have hv' := scan_append_sep (f := f) hc [] v
        rw [List.nil_append, hempty, List.nil_append] at hv'
        rw [scan_append_sep hc, hv']
  rw [hright]
  refine congrArg (· ++ scan p f v) ?_
  obtain rfl | ⟨u, c, rfl⟩ := List.eq_nil_or_concat u
  · rw [hempty]
    rfl
  · rw [List.concat_eq_append] at hu ⊢
    have hc := hu c (by simp)
    have hu' := scan_append_sep (f := f) hc u []
    rw [hempty] at hu'
    rw [List.append_assoc, List.singleton_append, scan_append_sep hc, hu']
    simp

/-- A word of token characters lies on one side of a separator. -/
theorem infix_of_infix_sep {a l r : List α} {c : α} (ha : c ∉ a) (h : a <:+: l ++ c :: r) :
    a <:+: l ∨ a <:+: r := by
  obtain h | h | ⟨a₁, a₂, rfl, hl, hr⟩ := List.infix_append_iff.1 h
  · exact .inl h
  · obtain h | h := List.infix_cons_iff.1 h
    · -- a prefix that begins with the separator is empty
      cases a with
      | nil => exact .inl List.nil_infix
      | cons d a =>
          obtain ⟨rfl, -⟩ := List.cons_prefix_cons.1 h
          exact absurd List.mem_cons_self ha
    · exact .inr h
  · cases a₂ with
    | nil =>
        rw [List.append_nil]
        exact .inl hl.isInfix
    | cons d a₂ =>
        obtain ⟨rfl, -⟩ := List.cons_prefix_cons.1 hr
        exact absurd (List.mem_append_right _ List.mem_cons_self) ha

end Tokens
