/-
`FirstMatch` -- list updates that touch only the first element passing a test,
as programs make them through `iter_mut().find(..)` and `position(..)` followed
by `remove`.

Three operations: `modify_first` and `modify_last` change one element in its place, `remove_first`
takes one out and returns it with the rest. Each comes with what the usual questions about a list
(membership, `find?`, `filter`, `countP`, a relation between old and new elements) have for an
answer afterwards. `List.eraseP` is what `remove_first` leaves, so that the lemmas of the library
about it can be used; `Forall₂` says that a list was changed element by element.
-/
import Mathlib.Data.List.Basic
import Mathlib.Data.List.Nodup
import Mathlib.Tactic.Common

set_option autoImplicit false

namespace List

variable {α : Type*}

/-- Change the first element that passes the test. -/
def modify_first (p : α → Bool) (f : α → α) : List α → List α
  | [] => []
  | a :: l => if p a then f a :: l else a :: modify_first p f l

/-- Take out the first element that passes the test: it, and the rest. -/
def remove_first (p : α → Bool) : List α → Option (α × List α)
  | [] => none
  | a :: l => if p a then some (a, l) else (remove_first p l).map (fun r => (r.1, a :: r.2))

/-- Change the last element that passes the test. -/
def modify_last (p : α → Bool) (f : α → α) (l : List α) : List α :=
  (l.reverse.modify_first p f).reverse

/-- An element of the changed list is an old one, or the one the test finds, changed. -/
theorem mem_modify_first {p : α → Bool} {f : α → α} {l : List α} {b : α}
    (h : b ∈ l.modify_first p f) : b ∈ l ∨ ∃ a, l.find? p = some a ∧ b = f a := by
  induction l with
  | nil => exact .inl h
  | cons a l ih =>
      rw [modify_first] at h
      split at h
      · next hp =>
          rw [find?_cons_of_pos hp]
          rcases mem_cons.1 h with rfl | h
          · exact .inr ⟨a, rfl, rfl⟩
          · exact .inl (mem_cons_of_mem _ h)
      · next hp =>
          rw [find?_cons_of_neg hp]
          rcases mem_cons.1 h with rfl | h
          · exact .inl mem_cons_self
          · exact (ih h).imp_left (mem_cons_of_mem _)

/-- An old element is still there, unless it is the one that is changed. -/
theorem mem_modify_first_of_mem {p : α → Bool} {f : α → α} {l : List α} {a : α} (h : a ∈ l) :
    a ∈ l.modify_first p f ∨ l.find? p = some a := by
  induction l with
  | nil => exact .inl h
  | cons b l ih =>
      rw [modify_first]
      by_cases hp : p b = true
      · rw [if_pos hp, find?_cons_of_pos hp]
        rcases mem_cons.1 h with rfl | h
        · exact .inr rfl
        · exact .inl (mem_cons_of_mem _ h)
      · rw [if_neg hp, find?_cons_of_neg hp]
        rcases mem_cons.1 h with rfl | h
        · exact .inl mem_cons_self
        · exact (ih h).imp_left (mem_cons_of_mem _)

/-- An element of the result was there or is the changed one. -/
theorem mem_modify_last {p : α → Bool} {f : α → α} {l : List α} {b : α}
    (h : b ∈ l.modify_last p f) : b ∈ l ∨ ∃ a, l.reverse.find? p = some a ∧ b = f a :=
  (mem_modify_first (mem_reverse.1 h)).imp_left mem_reverse.1

/-- Every new element comes from an old one. -/
theorem Forall₂.exists_left {β : Type*} {R : α → β → Prop} {l : List α} {l' : List β}
    (h : Forall₂ R l l') {b : β} (hb : b ∈ l') : ∃ a ∈ l, R a b := by
  induction h with
  | nil => cases hb
  | @cons a b' l l' hab _ ih =>
      rcases mem_cons.1 hb with rfl | hb
      · exact ⟨a, mem_cons_self, hab⟩
      · obtain ⟨c, hc, hcb⟩ := ih hb
        exact ⟨c, mem_cons_of_mem _ hc, hcb⟩

/-- Every old element goes to a new one. -/
theorem Forall₂.exists_right {β : Type*} {R : α → β → Prop} {l : List α} {l' : List β}
    (h : Forall₂ R l l') {a : α} (ha : a ∈ l) : ∃ b ∈ l', R a b :=
  h.flip.exists_left ha

/-- Two changes after each other, for a relation that composes. -/
theorem Forall₂.trans_of {R : α → α → Prop} (hR : ∀ {a b c}, R a b → R b c → R a c)
    {l l' l'' : List α} (h : Forall₂ R l l') (h' : Forall₂ R l' l'') : Forall₂ R l l'' := by
  induction h generalizing l'' with
  | nil => exact h'
  | cons hab _ ih =>
      cases h' with
      | cons hbc h' => exact .cons (hR hab hbc) (ih h')

/-- What counts afterwards counted before. -/
theorem Forall₂.countP_le {β : Type*} {R : α → β → Prop} {p : α → Bool} {q : β → Bool}
    (hR : ∀ a b, R a b → q b = true → p a = true) {l : List α} {l' : List β} (h : Forall₂ R l l') :
    l'.countP q ≤ l.countP p := by
  induction h with
  | nil => exact Nat.le_refl _
  | @cons a b l l' hab _ ih =>
      rw [countP_cons, countP_cons]
      refine Nat.add_le_add ih ?_
      by_cases hq : q b = true
      · exact Nat.le_of_eq (by rw [if_pos hq, if_pos (hR a b hab hq)])
      · rw [if_neg hq]
        exact Nat.zero_le _

/-- What the relation preserves is the same list before and after. -/
theorem Forall₂.map_eq {β γ : Type*} {R : α → β → Prop} {f : α → γ} {g : β → γ}
    (hR : ∀ a b, R a b → g b = f a) {l : List α} {l' : List β} (h : Forall₂ R l l') :
    l'.map g = l.map f := by
  induction h with
  | nil => rfl
  | @cons a b l l' hab _ ih => rw [map_cons, map_cons, hR a b hab, ih]

/-- Only the first match changes. -/
theorem forall₂_modify_first {R : α → α → Prop} (hrefl : ∀ a, R a a) {p : α → Bool} {f : α → α}
    {l : List α} (h : ∀ a, l.find? p = some a → R a (f a)) : Forall₂ R l (l.modify_first p f) := by
  induction l with
  | nil => exact .nil
  | cons a l ih =>
      rw [modify_first]
      split
      · next hp =>
          exact .cons (h a (find?_cons_of_pos hp)) (forall₂_same.2 fun a _ => hrefl a)
      · next hp =>
          exact .cons (hrefl a) (ih fun b hb => h b ((find?_cons_of_neg hp).trans hb))

/-- Changing the last match changes no other element. -/
theorem forall₂_modify_last {R : α → α → Prop} (hrefl : ∀ a, R a a) {p : α → Bool} {f : α → α}
    {l : List α} (h : ∀ a, R a (f a)) : Forall₂ R l (l.modify_last p f) := by
  have hrev := forall₂_modify_first (l := l.reverse) hrefl (p := p) fun a _ => h a
  exact forall₂_reverse_iff.1 (by rwa [modify_last, reverse_reverse])

/-- Only the value at the first match matters. -/
theorem modify_first_congr {p : α → Bool} {f g : α → α} {l : List α}
    (h : ∀ a, l.find? p = some a → f a = g a) : l.modify_first p f = l.modify_first p g := by
  induction l with
  | nil => rfl
  | cons a l ih =>
      rw [modify_first, modify_first]
      split
      · next hp => rw [h a (find?_cons_of_pos hp)]
      · next hp => rw [ih fun b hb => h b ((find?_cons_of_neg hp).trans hb)]

/-- The element taken out is the one that is found. -/
theorem find?_eq_of_remove_first {p : α → Bool} {l rest : List α} {a : α}
    (h : l.remove_first p = some (a, rest)) : l.find? p = some a := by
  induction l generalizing rest with
  | nil => cases h
  | cons b l ih =>
      rw [remove_first] at h
      split at h
      · next hp =>
          cases h
          rw [find?_cons_of_pos hp]
      · next hp =>
          obtain ⟨r, hr, he⟩ := Option.map_eq_some_iff.1 h
          obtain ⟨rfl, _⟩ := Prod.mk.inj he
          rw [find?_cons_of_neg hp]
          exact ih hr

/-- Nothing is taken out exactly if nothing passes. -/
theorem remove_first_eq_none {p : α → Bool} {l : List α} :
    l.remove_first p = none ↔ ∀ a ∈ l, p a = false := by
  induction l with
  | nil => simp [remove_first]
  | cons a l ih =>
      rw [remove_first]
      split
      · next hp => simp [hp]
      · next hp => simp [ih, hp]

/-- What is taken out passes the test and was in the list. -/
theorem mem_of_remove_first {p : α → Bool} {l rest : List α} {a : α}
    (h : l.remove_first p = some (a, rest)) : a ∈ l ∧ p a = true := by
  have hfind := find?_eq_of_remove_first h
  exact ⟨mem_of_find?_eq_some hfind, find?_some hfind⟩

/-- What is found can be taken out. -/
theorem remove_first_of_find? {p : α → Bool} {l : List α} {a : α} (h : l.find? p = some a) :
    ∃ rest, l.remove_first p = some (a, rest) := by
  cases hfirst : l.remove_first p with
  | none =>
      have hno := remove_first_eq_none.1 hfirst a (mem_of_find?_eq_some h)
      rw [find?_some h] at hno
      cases hno
  | some found =>
      obtain ⟨b, rest⟩ := found
      obtain rfl := Option.some_inj.1 ((find?_eq_of_remove_first hfirst).symm.trans h)
      exact ⟨rest, rfl⟩

/-- The rest is the list without its first match. -/
theorem eraseP_of_remove_first {p : α → Bool} {l rest : List α} {a : α}
    (h : l.remove_first p = some (a, rest)) : l.eraseP p = rest := by
  induction l generalizing rest with
  | nil => cases h
  | cons b l ih =>
      rw [remove_first] at h
      split at h
      · next hp =>
          cases h
          exact eraseP_cons_of_pos hp
      · next hp =>
          obtain ⟨r, hr, he⟩ := Option.map_eq_some_iff.1 h
          obtain ⟨rfl, rfl⟩ := Prod.mk.inj he
          rw [eraseP_cons_of_neg hp, ih hr]

/-- If nothing passes, erasing leaves the list. -/
theorem eraseP_of_remove_first_eq_none {p : α → Bool} {l : List α}
    (h : l.remove_first p = none) : l.eraseP p = l :=
  eraseP_of_forall_not fun a ha => by simp [remove_first_eq_none.1 h a ha]

/-- The rest is a part of the list, in order. -/
theorem sublist_of_remove_first {p : α → Bool} {l rest : List α} {a : α}
    (h : l.remove_first p = some (a, rest)) : rest.Sublist l :=
  eraseP_of_remove_first h ▸ eraseP_sublist

/-- The element and the rest are the list, but for the order. -/
theorem perm_of_remove_first {p : α → Bool} {l rest : List α} {a : α}
    (h : l.remove_first p = some (a, rest)) : l.Perm (a :: rest) := by
  induction l generalizing rest with
  | nil => cases h
  | cons b l ih =>
      rw [remove_first] at h
      split at h
      · cases h
        exact .refl _
      · obtain ⟨r, hr, he⟩ := Option.map_eq_some_iff.1 h
        obtain ⟨rfl, rfl⟩ := Prod.mk.inj he
        exact ((ih hr).cons b).trans (.swap _ _ _)

/-- The first match stays the first match when it is changed. -/
theorem remove_first_modify_first {p : α → Bool} {f : α → α} {l rest : List α} {a : α}
    (h : l.remove_first p = some (a, rest)) (hf : p (f a) = true) :
    (l.modify_first p f).remove_first p = some (f a, rest) := by
  induction l generalizing rest with
  | nil => cases h
  | cons b l ih =>
      rw [remove_first] at h
      rw [modify_first]
      split at h
      · next hp =>
          cases h
          rw [if_pos hp, remove_first, if_pos hf]
      · next hp =>
          obtain ⟨r, hr, he⟩ := Option.map_eq_some_iff.1 h
          obtain ⟨rfl, rfl⟩ := Prod.mk.inj he
          rw [if_neg hp, remove_first, if_neg hp, ih hr, Option.map_some]

/-- An element that still passes is found again, changed. -/
theorem find?_modify_first {p : α → Bool} {f : α → α} {l : List α} {a : α}
    (h : l.find? p = some a) (hf : p (f a) = true) : (l.modify_first p f).find? p = some (f a) := by
  induction l with
  | nil => cases h
  | cons b l ih =>
      unfold modify_first
      by_cases hb : p b = true
      · rw [find?_cons_of_pos hb] at h
        obtain rfl := Option.some_inj.1 h
        rw [if_pos hb, find?_cons_of_pos hf]
      · rw [find?_cons_of_neg hb] at h
        rw [if_neg hb, find?_cons_of_neg hb]
        exact ih h

/-- The first match is the first of all matches. -/
theorem filter_of_remove_first {p : α → Bool} {l rest : List α} {a : α}
    (h : l.remove_first p = some (a, rest)) : l.filter p = a :: rest.filter p := by
  induction l generalizing rest with
  | nil => cases h
  | cons b l ih =>
      rw [remove_first] at h
      split at h
      · next hp =>
          cases h
          rw [filter_cons_of_pos hp]
      · next hp =>
          obtain ⟨r, hr, he⟩ := Option.map_eq_some_iff.1 h
          obtain ⟨rfl, rfl⟩ := Prod.mk.inj he
          rw [filter_cons_of_neg hp, filter_cons_of_neg hp, ih hr]

/-- And is the first of those that pass. -/
theorem filter_modify_first {p : α → Bool} {f : α → α} {l rest : List α} {a : α}
    (h : l.filter p = a :: rest) (hf : p (f a) = true) :
    (l.modify_first p f).filter p = f a :: rest := by
  induction l with
  | nil => cases h
  | cons b l ih =>
      rw [modify_first]
      by_cases hb : p b = true
      · rw [filter_cons_of_pos hb] at h
        obtain ⟨rfl, rfl⟩ := List.cons.inj h
        rw [if_pos hb, filter_cons_of_pos hf]
      · rw [filter_cons_of_neg hb] at h
        rw [if_neg hb, filter_cons_of_neg hb, ih h]

/-- The last element is the first match where none before it is one. -/
theorem remove_first_concat {p : α → Bool} {l : List α} {a : α} (hl : ∀ b ∈ l, p b = false)
    (ha : p a = true) : (l ++ [a]).remove_first p = some (a, l) := by
  induction l with
  | nil => rw [nil_append, remove_first, if_pos ha]
  | cons b l ih =>
      rw [cons_append, remove_first, hl b mem_cons_self, if_neg Bool.false_ne_true,
        ih fun c hc => hl c (mem_cons_of_mem _ hc), Option.map_some]

/-- Of values that are all different, the one of the element taken out is gone. -/
theorem not_mem_map_eraseP {β : Type*} {p : α → Bool} {f : α → β} {b : β} {l : List α}
    (hp : ∀ a ∈ l, p a = true → f a = b) (hex : ∃ a ∈ l, p a = true) (hnodup : (l.map f).Nodup) :
    b ∉ (l.eraseP p).map f := by
  obtain ⟨a, ha, hpa⟩ := hex
  obtain ⟨a, l₁, l₂, _, hpa, hl, herase⟩ := List.exists_of_eraseP ha hpa
  rw [hl, List.map_append, List.map_cons, List.nodup_middle, List.nodup_cons] at hnodup
  rw [herase, List.map_append, ← hp a (by simp [hl]) hpa]
  exact hnodup.1

/-- Erasing an element that counts lowers the count by one. -/
theorem countP_eraseP_add_one {p q : α → Bool} {l : List α} (h : ∃ a ∈ l, q a = true)
    (hq : ∀ a ∈ l, q a = true → p a = true) : (l.eraseP q).countP p + 1 = l.countP p := by
  obtain ⟨a, ha, hqa⟩ := h
  obtain ⟨b, l₁, l₂, _, hb, hl, he⟩ := exists_of_eraseP ha hqa
  have hpb : p b = true := hq b (hl ▸ mem_append_right _ mem_cons_self) hb
  rw [he, hl, countP_append, countP_append, countP_cons, if_pos hpb]
  omega

/-- What changing the first match does to a count. -/
theorem countP_modify_first {p q : α → Bool} {f : α → α} {l : List α} {a : α}
    (h : l.find? p = some a) :
    (l.modify_first p f).countP q + (if q a then 1 else 0) =
      l.countP q + if q (f a) then 1 else 0 := by
  induction l with
  | nil => cases h
  | cons b l ih =>
      rw [modify_first]
      split
      · next hp =>
          rw [find?_cons_of_pos hp] at h
          obtain rfl := Option.some_inj.1 h
          rw [countP_cons, countP_cons]
          omega
      · next hp =>
          rw [find?_cons_of_neg hp] at h
          have := ih h
          rw [countP_cons, countP_cons]
          omega

/-- What taking out the first match does to a count. -/
theorem countP_remove_first {p q : α → Bool} {l rest : List α} {a : α}
    (h : l.remove_first p = some (a, rest)) :
    l.countP q = rest.countP q + if q a then 1 else 0 := by
  rw [(perm_of_remove_first h).countP_eq q, countP_cons]

/-- If at most one passes, two that pass are the same. -/
theorem eq_of_countP_le_one {p : α → Bool} {l : List α} {a b : α} (h : l.countP p ≤ 1) (ha : a ∈ l)
    (hb : b ∈ l) (hpa : p a = true) (hpb : p b = true) : a = b := by
  rw [countP_eq_length_filter] at h
  have ha := mem_filter.2 ⟨ha, hpa⟩
  have hb := mem_filter.2 ⟨hb, hpb⟩
  generalize l.filter p = l' at h ha hb
  match l', h with
  | [], _ => exact absurd ha not_mem_nil
  | [c], _ => rw [mem_singleton.1 ha, mem_singleton.1 hb]

section
variable {κ : Type*} [DecidableEq κ] {f : α → κ}

/-- Erasing by several keys leaves a part of the list. -/
theorem foldl_eraseP_sublist (keys : List κ) (l : List α) :
    (keys.foldl (fun l k => l.eraseP fun a => f a = k) l).Sublist l := by
  induction keys generalizing l with
  | nil => exact .refl l
  | cons k keys ih => exact (ih _).trans eraseP_sublist

/-- Where no two elements share one of the keys, removing the first of each key removes all. -/
theorem not_mem_of_foldl_eraseP {keys : List κ} {l : List α}
    (h : ∀ k ∈ keys, l.countP (fun a => f a = k) ≤ 1) :
    ∀ a ∈ keys.foldl (fun l k => l.eraseP fun a => f a = k) l, f a ∉ keys := by
  induction keys generalizing l with
  | nil => exact fun _ _ => not_mem_nil
  | cons k keys ih =>
      intro a ha
      rw [foldl_cons] at ha
      have hrest := ih (l := l.eraseP fun a => f a = k)
        (fun k' hk' => Nat.le_trans eraseP_sublist.countP_le (h k' (mem_cons_of_mem _ hk'))) a ha
      rw [mem_cons, not_or]
      refine ⟨fun hk => ?_, hrest⟩
      -- the one element with this key is gone
      have hmem := (foldl_eraseP_sublist _ _).subset ha
      have hcount := countP_eraseP_add_one (p := fun a => decide (f a = k))
        (q := fun a => decide (f a = k)) (l := l)
        ⟨a, eraseP_sublist.subset hmem, decide_eq_true hk⟩ fun _ _ h => h
      have hone := h k mem_cons_self
      have hzero : (l.eraseP fun a => f a = k).countP (fun a => f a = k) = 0 := by omega
      exact countP_eq_zero.1 hzero a hmem (decide_eq_true hk)

end

end List
