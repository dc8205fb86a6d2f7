/-
`SortDedup` -- sorting by a key, then dropping repeats of the element just before,
as programs do to a list that should hold nothing twice.

The sort is stable, so the elements of one key keep their order, and two equal
elements stay apart when another of their key stood between them. That is the only
way a repeat survives (`nodup_sort_dedup`). How far into the result the first one
lies is counted from the list that went in: the elements of smaller keys come
before it, and those of its own key that stood before it (`nodup_take_sort_dedup`).
-/
import Mathlib.Data.List.Destutter
import Mathlib.Data.List.Sort
import Mathlib.Data.Finset.Card
import Mathlib.Data.Finset.Dedup
import Mathlib.Order.Defs.LinearOrder

set_option autoImplicit false

namespace List

variable {α κ : Type}

/-! ## 1. Dropping repeats -/

section Dedup

variable [DecidableEq α]

/-- Drop every element that equals the one before it. -/
def dedup_adjacent (l : List α) : List α := l.destutter (· ≠ ·)

theorem dedup_adjacent_sublist (l : List α) : l.dedup_adjacent <+ l := destutter_sublist _ l

/-- A list with no two equal neighbours in it is kept where it stood. -/
theorem sublist_destutter'_of_isChain {l c : List α} {b : α} (hc : c.IsChain (· ≠ ·))
    (h : c <+ b :: l) : c <+ l.destutter' (· ≠ ·) b := by
  induction l generalizing b c with
  | nil => exact h
  | cons x xs ih =>
      by_cases hbx : b = x
      · rw [destutter'_cons_neg _ (not_not.2 hbx)]
        apply ih hc
        rw [← hbx] at h
        cases h with
        | cons _ h => exact h
        | cons_cons _ h =>
            cases h with
            | cons _ h => exact h.cons_cons b
            | cons_cons _ h =>
                rw [isChain_cons_cons] at hc
                exact absurd rfl hc.1
      · rw [destutter'_cons_pos _ hbx]
        cases h with
        | cons _ h => exact (ih hc h).cons b
        | cons_cons _ h => exact (ih hc.tail h).cons_cons b

theorem sublist_dedup_adjacent_of_isChain {l c : List α} (hc : c.IsChain (· ≠ ·)) (h : c <+ l) :
    c <+ l.dedup_adjacent := by
  cases l with
  | nil => exact h
  | cons b l => exact sublist_destutter'_of_isChain hc h

theorem mem_dedup_adjacent {l : List α} {a : α} : a ∈ l.dedup_adjacent ↔ a ∈ l := by
  constructor
  · exact fun h => (dedup_adjacent_sublist l).subset h
  · intro h
    have hsingle := sublist_dedup_adjacent_of_isChain (isChain_singleton a)
      (singleton_sublist.2 h)
    exact singleton_sublist.1 hsingle

/-- Two equal elements, and another between them. -/
def Returns (l : List α) (a b : α) : Prop := a ≠ b ∧ [a, b, a] <+ l

omit [DecidableEq α] in
/-- Between two equal elements of a list without equal neighbours stands another. -/
theorem exists_returns_of_isChain {t : List α} {a : α} (ht : t.IsChain (· ≠ ·))
    (h : [a, a] <+ t) : ∃ b, t.Returns a b := by
  induction t with
  | nil => exact absurd h.subset (by simp)
  | cons x t ih =>
      cases h with
      | cons _ h =>
          obtain ⟨b, hne, hb⟩ := ih ht.tail h
          exact ⟨b, hne, hb.cons x⟩
      | cons_cons _ h =>
          cases t with
          | nil => exact absurd h.subset (by simp)
          | cons y t =>
              rw [isChain_cons_cons] at ht
              have hmem : a ∈ t := by
                have := singleton_sublist.1 h
                rw [mem_cons] at this
                exact this.resolve_left ht.1
              exact ⟨y, ht.1, ((singleton_sublist.2 hmem).cons_cons y).cons_cons a⟩

/-- A repeat survives if and only if something else stood between. -/
theorem nodup_dedup_adjacent {l : List α} :
    l.dedup_adjacent.Nodup ↔ ∀ a b, ¬ l.Returns a b := by
  constructor
  · rintro h a b ⟨hne, hsub⟩
    have hkept : [a, b, a] <+ l.dedup_adjacent := by
      refine sublist_dedup_adjacent_of_isChain ?_ hsub
      simp [isChain_cons_cons, hne, hne.symm]
    have hnodup := h.sublist hkept
    simp at hnodup
  · intro h
    rw [nodup_iff_sublist]
    intro a hsub
    obtain ⟨b, hne, hb⟩ := exists_returns_of_isChain (isChain_destutter _ l) hsub
    exact h a b ⟨hne, hb.trans (dedup_adjacent_sublist l)⟩

theorem destutter'_concat (l : List α) (b x : α) :
    (l ++ [x]).destutter' (· ≠ ·) b =
      if (b :: l).getLast? = some x then l.destutter' (· ≠ ·) b
      else l.destutter' (· ≠ ·) b ++ [x] := by
  induction l generalizing b with
  | nil =>
      by_cases h : b = x
      · rw [nil_append, destutter'_cons_neg _ (not_not.2 h), if_pos (by rw [h]; rfl)]
      · rw [nil_append, destutter'_cons_pos _ h, if_neg (by simpa using h)]
        rfl
  | cons y l ih =>
      rw [cons_append, getLast?_cons_cons]
      by_cases h : b = y
      · rw [destutter'_cons_neg _ (not_not.2 h), destutter'_cons_neg _ (not_not.2 h), ih, h]
      · rw [destutter'_cons_pos _ h, destutter'_cons_pos _ h, ih]
        by_cases hlast : (y :: l).getLast? = some x
        · rw [if_pos hlast, if_pos hlast]
        · rw [if_neg hlast, if_neg hlast, cons_append]

/-- One more element at the end. -/
theorem dedup_adjacent_concat (l : List α) (x : α) :
    (l ++ [x]).dedup_adjacent =
      if l.getLast? = some x then l.dedup_adjacent else l.dedup_adjacent ++ [x] := by
  cases l with
  | nil => rfl
  | cons b l => exact destutter'_concat l b x

theorem toFinset_dedup_adjacent (l : List α) : l.dedup_adjacent.toFinset = l.toFinset := by
  ext a
  rw [mem_toFinset, mem_toFinset, mem_dedup_adjacent]

/-- An element that comes again after another one, while fewer than `n` different ones came. -/
def ReturnsWithin (n : Nat) (l : List α) : Prop :=
  ∃ p x q b, l = p ++ x :: q ∧ b ≠ x ∧ [x, b] <+ p ∧ p.toFinset.card < n

theorem ReturnsWithin.concat {n : Nat} {l : List α} (h : l.ReturnsWithin n) (x : α) :
    (l ++ [x]).ReturnsWithin n := by
  obtain ⟨p, y, q, b, rfl, hb, hsub, hcard⟩ := h
  exact ⟨p, y, q ++ [x], b, by simp, hb, hsub, hcard⟩

/-- A return in a longer list is one in the list, or the last element is it. -/
theorem returnsWithin_concat {n : Nat} {l : List α} {x : α} (h : (l ++ [x]).ReturnsWithin n) :
    l.ReturnsWithin n ∨ ∃ b, b ≠ x ∧ [x, b] <+ l ∧ l.toFinset.card < n := by
  obtain ⟨p, y, q, b, heq, hb, hsub, hcard⟩ := h
  obtain rfl | ⟨q, z, rfl⟩ := eq_nil_or_concat q
  · obtain ⟨rfl, hx⟩ := append_inj' heq rfl
    obtain rfl : x = y := by simpa using hx
    exact .inr ⟨b, hb, hsub, hcard⟩
  · rw [concat_eq_append, ← cons_append, ← append_assoc] at heq
    obtain ⟨rfl, -⟩ := append_inj' heq rfl
    exact .inl ⟨p, y, q, b, rfl, hb, hsub, hcard⟩

omit [DecidableEq α] in
theorem sublist_of_sublist_concat {l : List α} {x y b : α} (h : [x, b] <+ l ++ [y])
    (hb : b ≠ y) : [x, b] <+ l := by
  have hrev := h.reverse
  rw [reverse_append] at hrev
  cases hrev with
  | cons _ hrev => simpa using hrev.reverse
  | cons_cons _ _ => exact absurd rfl hb

/-- The first elements of what is kept are different if and only if none of them comes again. -/
theorem nodup_take_dedup_adjacent {n : Nat} {l : List α} :
    (l.dedup_adjacent.take n).Nodup ↔ ¬ l.ReturnsWithin n := by
  induction l using reverseRecOn with
  | nil =>
      have hnone : ¬ ([] : List α).ReturnsWithin n := by
        rintro ⟨p, x, q, b, heq, -⟩
        simp at heq
      simp [dedup_adjacent, hnone]
  | append_singleton l x ih =>
      have hcard : l.toFinset.card ≤ l.dedup_adjacent.length := by
        rw [← toFinset_dedup_adjacent]
        exact toFinset_card_le _
      by_cases hlast : l.getLast? = some x
      · -- the last element is dropped, and whatever it returns after came before it as well
        rw [dedup_adjacent_concat, if_pos hlast, ih]
        refine not_congr ⟨fun h => h.concat x, fun h => ?_⟩
        obtain h | ⟨b, hb, hsub, hn⟩ := returnsWithin_concat h
        · exact h
        · obtain ⟨l₀, rfl⟩ := getLast?_eq_some_iff.1 hlast
          refine ⟨l₀, x, [], b, rfl, hb, ?_, ?_⟩
          · exact sublist_of_sublist_concat hsub hb
          · exact Nat.lt_of_le_of_lt (Finset.card_le_card (by
              intro y hy
              rw [mem_toFinset] at hy ⊢
              exact mem_append_left _ hy)) hn
      · rw [dedup_adjacent_concat, if_neg hlast]
        by_cases hlen : n ≤ l.dedup_adjacent.length
        · rw [take_append_of_le_length hlen, ih]
          refine not_congr ⟨fun h => h.concat x, fun h => ?_⟩
          obtain h | ⟨b, hb, hsub, hn⟩ := returnsWithin_concat h
          · exact h
          · -- fewer elements than were kept: two of the kept ones are the same
            by_contra hnot
            have hnodup := ih.2 hnot
            have hsubset : (l.dedup_adjacent.take n).toFinset ⊆ l.toFinset := by
              intro y hy
              rw [mem_toFinset] at hy ⊢
              exact mem_dedup_adjacent.1 (mem_of_mem_take hy)
            have hle := Finset.card_le_card hsubset
            rw [toFinset_card_of_nodup hnodup, length_take, Nat.min_eq_left hlen] at hle
            omega
        · have hall : (l.dedup_adjacent ++ [x]).take n = l.dedup_adjacent ++ [x] := by
            refine take_of_length_le ?_
            rw [length_append, length_singleton]
            omega
          have hkept : l.dedup_adjacent.take n = l.dedup_adjacent :=
            take_of_length_le (by omega)
          rw [hkept] at ih
          rw [hall]
          constructor
          · intro hnodup hret
            obtain h | ⟨b, -, hsub, -⟩ := returnsWithin_concat hret
            · exact ih.1 (hnodup.sublist (sublist_append_left _ _)) h
            · have hx : x ∈ l.dedup_adjacent := mem_dedup_adjacent.2 (hsub.subset mem_cons_self)
              exact (nodup_append.1 hnodup).2.2 x hx x mem_cons_self rfl
          · intro hno
            have hnodup := ih.2 fun h => hno (h.concat x)
            refine nodup_append.2 ⟨hnodup, nodup_singleton x, fun a ha y hy hay => ?_⟩
            obtain rfl := mem_singleton.1 hy
            rw [hay, mem_dedup_adjacent] at ha
            -- what stands last is another element, and `y` came before it
            obtain rfl | ⟨l₀, b, rfl⟩ := eq_nil_or_concat l
            · exact not_mem_nil ha
            · rw [concat_eq_append] at ha hlast hcard hlen hno
              have hb : b ≠ y := by
                rintro rfl
                exact hlast getLast?_concat
              have hmem : y ∈ l₀ := (mem_append.1 ha).resolve_right fun h =>
                hb (mem_singleton.1 h).symm
              exact hno ⟨l₀ ++ [b], y, [], b, rfl, hb,
                (singleton_sublist.2 hmem).append (Sublist.refl [b]), by omega⟩

end Dedup

/-! ## 2. Sorting by a key -/

section Sorting

variable [LinearOrder κ] (key : α → κ)

/-- Sort by a key; elements of one key keep their order. -/
def sort_by_key (l : List α) : List α := l.insertionSort fun a b => key a ≤ key b

variable {key}

variable (key) in
theorem perm_sort_by_key (l : List α) : l.sort_by_key key ~ l := perm_insertionSort _ l

variable (key) in
theorem pairwise_sort_by_key (l : List α) :
    (l.sort_by_key key).Pairwise fun a b => key a ≤ key b := by
  have : Std.Total fun a b : α => key a ≤ key b := ⟨fun a b => le_total (key a) (key b)⟩
  have : IsTrans α fun a b => key a ≤ key b := ⟨fun _ _ _ => le_trans⟩
  exact pairwise_insertionSort _ l

theorem filter_orderedInsert (k : κ) (a : α) (s : List α) :
    (s.orderedInsert (fun a b => key a ≤ key b) a).filter (key · = k) =
      (a :: s).filter (key · = k) := by
  induction s with
  | nil => rfl
  | cons b s ih =>
      by_cases hle : key a ≤ key b
      · rw [orderedInsert_cons, if_pos hle]
      · rw [orderedInsert_cons, if_neg hle, filter_cons, ih]
        have hlt : key b < key a := lt_of_not_ge hle
        by_cases hb : key b = k
        · have ha : ¬ key a = k := by
            intro ha
            rw [ha, hb] at hlt
            exact lt_irrefl k hlt
          simp [hb, ha]
        · simp [hb, filter_cons]

variable (key) in
/-- The elements of one key keep their order. -/
theorem filter_sort_by_key (k : κ) (l : List α) :
    (l.sort_by_key key).filter (key · = k) = l.filter (key · = k) := by
  unfold sort_by_key
  induction l with
  | nil => rfl
  | cons a l ih =>
      rw [insertionSort_cons, filter_orderedInsert, filter_cons, filter_cons, ih]

/-- Two equal elements stay apart when another of their key stood between them. -/
theorem returns_sort_by_key {l : List α} {a b : α} :
    (l.sort_by_key key).Returns a b ↔ key a = key b ∧ l.Returns a b := by
  constructor
  · rintro ⟨hne, hsub⟩
    have hsorted := (pairwise_sort_by_key key l).sublist hsub
    have hkey : key a = key b := by
      simp only [pairwise_cons, mem_cons, not_mem_nil, or_false, forall_eq_or_imp,
        forall_eq] at hsorted
      exact le_antisymm hsorted.1.1 hsorted.2.1
    refine ⟨hkey, hne, ?_⟩
    have hgroup := hsub.filter (key · = key a)
    rw [filter_sort_by_key] at hgroup
    have hall : [a, b, a].filter (key · = key a) = [a, b, a] := by simp [hkey]
    rw [hall] at hgroup
    exact hgroup.trans filter_sublist
  · rintro ⟨hkey, hne, hsub⟩
    refine ⟨hne, ?_⟩
    have hgroup := hsub.filter (key · = key a)
    rw [← filter_sort_by_key key (key a) l] at hgroup
    have hall : [a, b, a].filter (key · = key a) = [a, b, a] := by simp [hkey]
    rw [hall] at hgroup
    exact hgroup.trans filter_sublist

end Sorting

/-! ## 3. Both -/

section Both

variable [LinearOrder κ] [DecidableEq α] {key : α → κ}

/-- Sort, then drop repeats. -/
theorem nodup_sort_dedup {l : List α} :
    (l.sort_by_key key).dedup_adjacent.Nodup ↔ ∀ a b, key a = key b → ¬ l.Returns a b := by
  rw [nodup_dedup_adjacent]
  constructor
  · exact fun h a b hkey hab => h a b (returns_sort_by_key.2 ⟨hkey, hab⟩)
  · intro h a b hab
    obtain ⟨hkey, hl⟩ := returns_sort_by_key.1 hab
    exact h a b hkey hl

theorem mem_sort_dedup {l : List α} {a : α} : a ∈ (l.sort_by_key key).dedup_adjacent ↔ a ∈ l := by
  rw [mem_dedup_adjacent, (perm_sort_by_key key l).mem_iff]

theorem pairwise_sort_dedup (l : List α) :
    (l.sort_by_key key).dedup_adjacent.Pairwise fun a b => key a ≤ key b :=
  (pairwise_sort_by_key key l).sublist (dedup_adjacent_sublist _)

/-- An element that comes again after another one of its key, while fewer than `n` different ones
are of smaller keys or came before it with its own. -/
def ReturnsByKey (key : α → κ) (n : Nat) (l : List α) : Prop :=
  ∃ p x q b, l = p ++ x :: q ∧ b ≠ x ∧ key b = key x ∧ [x, b] <+ p ∧
    (l.filter (key · < key x)).toFinset.card + (p.filter (key · = key x)).toFinset.card < n

omit [LinearOrder κ] [DecidableEq α] in
/-- A list with the same elements under a filter splits where the other one does. -/
theorem exists_split_of_filter_eq {f : α → Bool} {p q s : List α} {x : α} (hx : f x = true)
    (h : s.filter f = (p ++ x :: q).filter f) :
    ∃ s₁ s₂, s = s₁ ++ x :: s₂ ∧ s₁.filter f = p.filter f := by
  rw [filter_append, filter_cons_of_pos hx, filter_eq_append_iff] at h
  obtain ⟨s₁, s₂, rfl, hp, hq⟩ := h
  obtain ⟨t₁, t₂, rfl, hnone, -, -⟩ := filter_eq_cons_iff.1 hq
  refine ⟨s₁ ++ t₁, t₂, by simp, ?_⟩
  rw [filter_append, hp, filter_eq_nil_iff.2 hnone, append_nil]

/-- What stands before an element of a sorted list: all of the smaller keys, and of its own key
what stood before it. -/
theorem toFinset_before {l p q : List α} {x : α} {k : κ} (hk : key x = k)
    (h : l.sort_by_key key = p ++ x :: q) :
    p.toFinset = (l.filter (key · < k)).toFinset ∪ (p.filter (key · = k)).toFinset := by
  have hsorted := pairwise_sort_by_key key l
  rw [h, pairwise_append, pairwise_cons] at hsorted
  obtain ⟨-, ⟨hq, -⟩, hp⟩ := hsorted
  ext y
  simp only [mem_toFinset, Finset.mem_union, mem_filter, decide_eq_true_eq]
  constructor
  · intro hy
    have hle := hp y hy x mem_cons_self
    rw [hk] at hle
    have hmem : y ∈ l := by
      rw [← (perm_sort_by_key key l).mem_iff, h]
      exact mem_append_left _ hy
    exact (lt_or_eq_of_le hle).imp (fun hlt => ⟨hmem, hlt⟩) fun heq => ⟨hy, heq⟩
  · rintro (⟨hy, hlt⟩ | ⟨hy, -⟩)
    · rw [← (perm_sort_by_key key l).mem_iff, h, mem_append, mem_cons] at hy
      obtain hy | rfl | hy := hy
      · exact hy
      · exact absurd hlt (by rw [hk]; exact lt_irrefl k)
      · have hge := hq y hy
        rw [hk] at hge
        exact absurd hlt (not_lt_of_ge hge)
    · exact hy

theorem card_before {l p q : List α} {x : α} (h : l.sort_by_key key = p ++ x :: q) :
    p.toFinset.card =
      (l.filter (key · < key x)).toFinset.card + (p.filter (key · = key x)).toFinset.card := by
  rw [toFinset_before rfl h, Finset.card_union_of_disjoint]
  rw [Finset.disjoint_left]
  intro y hy hy'
  simp only [mem_toFinset, mem_filter, decide_eq_true_eq] at hy hy'
  exact absurd hy'.2 (ne_of_lt hy.2)

/-- A return in the sorted list is a return among the elements of one key. -/
theorem returnsWithin_sort_by_key {n : Nat} {l : List α} :
    (l.sort_by_key key).ReturnsWithin n ↔ l.ReturnsByKey key n := by
  constructor
  · rintro ⟨p, x, q, b, heq, hb, hsub, hcard⟩
    have hret : (l.sort_by_key key).Returns x b := by
      refine ⟨hb.symm, ?_⟩
      rw [heq]
      exact hsub.append (singleton_sublist.2 mem_cons_self)
    have hkey := (returns_sort_by_key.1 hret).1
    have hfilter := filter_sort_by_key key (key x) l
    rw [heq] at hfilter
    obtain ⟨p', q', rfl, hp'⟩ := exists_split_of_filter_eq
      (f := fun y => decide (key y = key x)) (decide_eq_true rfl) hfilter.symm
    refine ⟨p', x, q', b, rfl, hb, hkey.symm, ?_, ?_⟩
    · have hgroup := hsub.filter (key · = key x)
      rw [← hp'] at hgroup
      have hall : [x, b].filter (key · = key x) = [x, b] := by simp [hkey]
      rw [hall] at hgroup
      exact hgroup.trans filter_sublist
    · rw [hp', ← card_before heq]
      exact hcard
  · rintro ⟨p, x, q, b, rfl, hb, hkey, hsub, hcard⟩
    obtain ⟨p', q', heq, hp'⟩ := exists_split_of_filter_eq
      (f := fun y => decide (key y = key x)) (decide_eq_true rfl)
      (filter_sort_by_key key (key x) (p ++ x :: q))
    refine ⟨p', x, q', b, heq, hb, ?_, ?_⟩
    · have hgroup := hsub.filter (key · = key x)
      rw [← hp'] at hgroup
      have hall : [x, b].filter (key · = key x) = [x, b] := by simp [hkey]
      rw [hall] at hgroup
      exact hgroup.trans filter_sublist
    · rw [card_before heq, hp']
      exact hcard

/-- The first elements of the result are different if and only if none of them returned. -/
theorem nodup_take_sort_dedup {n : Nat} {l : List α} :
    ((l.sort_by_key key).dedup_adjacent.take n).Nodup ↔ ¬ l.ReturnsByKey key n := by
  rw [nodup_take_dedup_adjacent, returnsWithin_sort_by_key]

/-- A sorted list is not changed by what it holds already, if nothing returns in the two. -/
theorem sort_dedup_append_self {l m : List α} (hl : l.Pairwise fun a b => key a ≤ key b)
    (hnodup : l.Nodup) (hsub : m ⊆ l) (h : ∀ a b, key a = key b → ¬ (l ++ m).Returns a b) :
    ((l ++ m).sort_by_key key).dedup_adjacent = l := by
  have hchain : l.IsChain (· ≠ ·) := hnodup.isChain
  have hkept : l <+ ((l ++ m).sort_by_key key).dedup_adjacent :=
    sublist_dedup_adjacent_of_isChain hchain
      (sublist_insertionSort hl (sublist_append_left l m))
  refine (hkept.eq_of_length_le ?_).symm
  have hsame : ((l ++ m).sort_by_key key).dedup_adjacent ⊆ l := by
    intro a ha
    rw [mem_sort_dedup, mem_append] at ha
    exact ha.elim id fun h => hsub h
  exact ((nodup_sort_dedup.2 h).subperm hsame).length_le

end Both

end List
