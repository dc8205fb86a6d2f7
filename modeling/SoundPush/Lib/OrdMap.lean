/-
`OrdMap` -- finite maps kept in key order, the model of an ordered tree map.

A map is its list of bindings together with the proof that the keys strictly
increase. The field is what later proofs read: a key has at most one binding,
the head of the list is the smallest key, and removing a prefix is the same as
dropping every key below a bound. Nothing here mentions the program that uses
it; keys come from any linear order.
-/
import Mathlib.Algebra.GroupWithZero.Nat
import Mathlib.Data.List.Pairwise
import Mathlib.Data.List.Sort
import Mathlib.Data.Finset.Card
import Mathlib.Data.Finset.Range
import Mathlib.Order.Basic
import Mathlib.Tactic.Common

set_option autoImplicit false

/-- A finite map: bindings in strictly increasing key order. -/
structure OrdMap (K V : Type*) [LinearOrder K] where
  entries : List (K × V)
  sorted : entries.Pairwise (fun a b => a.1 < b.1)

namespace OrdMap

variable {K V : Type*} [LinearOrder K]

/-! ## 1. Operations -/

def empty : OrdMap K V := ⟨[], List.Pairwise.nil⟩

instance : EmptyCollection (OrdMap K V) := ⟨empty⟩

/-- The number of bindings. -/
def len (m : OrdMap K V) : Nat := m.entries.length

def isEmpty (m : OrdMap K V) : Bool := m.entries.isEmpty

/-- The keys, smallest first. -/
def keys (m : OrdMap K V) : List K := m.entries.map Prod.fst

/-- The binding of `k`. -/
def get (m : OrdMap K V) (k : K) : Option V :=
  (m.entries.find? (fun e => e.1 = k)).map Prod.snd

/-- The smallest binding. -/
def first (m : OrdMap K V) : Option (K × V) := m.entries.head?

/-- The bindings whose key satisfies `p`. -/
def keep (m : OrdMap K V) (p : K → Bool) : OrdMap K V :=
  ⟨m.entries.filter (fun e => p e.1), m.sorted.filter _⟩

/-- Remove the binding of `k`. -/
def erase (m : OrdMap K V) (k : K) : OrdMap K V := m.keep (fun k' => k' ≠ k)

/-- The bindings at or above `k` (the tree map's `split_off`). -/
def splitOff (m : OrdMap K V) (k : K) : OrdMap K V := m.keep (fun k' => k ≤ k')

/-- Remove the `n` smallest bindings (`n` times the tree map's `pop_first`). -/
def dropFirst (m : OrdMap K V) (n : Nat) : OrdMap K V := ⟨m.entries.drop n, m.sorted.drop⟩

/-- Keep the bindings that pass the test. -/
def retain (m : OrdMap K V) (p : K → V → Bool) : OrdMap K V :=
  ⟨m.entries.filter (fun e => p e.1 e.2), m.sorted.filter _⟩

/-- Change every value. -/
def mapValues {W : Type*} (m : OrdMap K V) (f : V → W) : OrdMap K W :=
  ⟨m.entries.map (fun e => (e.1, f e.2)), by
    rw [List.pairwise_map]
    exact m.sorted⟩

/-- Keep the first `n` bindings. -/
def takeFirst (m : OrdMap K V) (n : Nat) : OrdMap K V := ⟨m.entries.take n, m.sorted.take⟩

theorem eq_of_entries {m m' : OrdMap K V} (h : m.entries = m'.entries) : m = m' := by
  cases m
  cases m'
  rw [mk.injEq]
  exact h

theorem insert_sorted (m : OrdMap K V) (k : K) (v : V) :
    (m.entries.filter (fun e => e.1 < k) ++
      (k, v) :: m.entries.filter (fun e => k < e.1)).Pairwise (fun a b => a.1 < b.1) := by
  refine List.pairwise_append.2
    ⟨m.sorted.filter _, List.pairwise_cons.2 ⟨?_, m.sorted.filter _⟩, ?_⟩
  · intro e he
    simpa using (List.mem_filter.1 he).2
  · intro a ha b hb
    have hak : a.1 < k := by simpa using (List.mem_filter.1 ha).2
    rcases List.mem_cons.1 hb with rfl | hb
    · exact hak
    · exact hak.trans (by simpa using (List.mem_filter.1 hb).2)

/-- Bind `k` to `v`, replacing what it had. -/
def insert (m : OrdMap K V) (k : K) (v : V) : OrdMap K V :=
  ⟨_, m.insert_sorted k v⟩

/-! ## 2. Bindings and keys -/

instance : Membership K (OrdMap K V) := ⟨fun m k => k ∈ m.keys⟩

instance (m : OrdMap K V) (k : K) : Decidable (k ∈ m) :=
  inferInstanceAs (Decidable (k ∈ m.keys))

theorem mem_iff_entry {m : OrdMap K V} {k : K} : k ∈ m ↔ ∃ v, (k, v) ∈ m.entries := by
  change k ∈ m.keys ↔ _
  simp [keys]

/-- A key has at most one binding. -/
theorem entry_unique (m : OrdMap K V) {k : K} {v w : V}
    (hv : (k, v) ∈ m.entries) (hw : (k, w) ∈ m.entries) : v = w := by
  have hinj := List.pairwise_iff_getElem.1 m.sorted
  obtain ⟨i, hi, hie⟩ := List.getElem_of_mem hv
  obtain ⟨j, hj, hje⟩ := List.getElem_of_mem hw
  rcases lt_trichotomy i j with hij | rfl | hij
  · simpa [hie, hje] using hinj i j hi hj hij
  · exact (Prod.mk.inj (hie.symm.trans hje)).2
  · simpa [hie, hje] using hinj j i hj hi hij

/-- Looking a key up finds exactly its binding. -/
theorem get_eq_some_iff {m : OrdMap K V} {k : K} {v : V} :
    m.get k = some v ↔ (k, v) ∈ m.entries := by
  constructor
  · intro h
    obtain ⟨e, he, rfl⟩ := Option.map_eq_some_iff.1 h
    have hk : e.1 = k := by simpa using List.find?_some he
    exact hk ▸ List.mem_of_find?_eq_some he
  · intro h
    cases hf : m.entries.find? (fun e => decide (e.1 = k)) with
    | none => simpa using List.find?_eq_none.1 hf _ h
    | some e =>
        have hk : e.1 = k := by simpa using List.find?_some hf
        have he : (k, e.2) ∈ m.entries := hk ▸ List.mem_of_find?_eq_some hf
        simp [get, hf, m.entry_unique he h]

theorem get_eq_none_iff {m : OrdMap K V} {k : K} : m.get k = none ↔ k ∉ m := by
  rw [mem_iff_entry, Option.eq_none_iff_forall_ne_some]
  simp [get_eq_some_iff]

theorem mem_iff_get {m : OrdMap K V} {k : K} : k ∈ m ↔ ∃ v, m.get k = some v := by
  simp [mem_iff_entry, get_eq_some_iff]

theorem isEmpty_iff {m : OrdMap K V} : m.isEmpty = true ↔ ∀ k, k ∉ m := by
  simp only [isEmpty, List.isEmpty_iff, mem_iff_entry]
  constructor
  · intro h k hk
    simp [h] at hk
  · intro h
    refine List.eq_nil_iff_forall_not_mem.2 (fun e he => h e.1 ⟨e.2, he⟩)

@[simp] theorem not_mem_empty (k : K) : k ∉ (∅ : OrdMap K V) := List.not_mem_nil

@[simp] theorem get_empty (k : K) : (∅ : OrdMap K V).get k = none := rfl

theorem len_eq_zero_iff {m : OrdMap K V} : m.len = 0 ↔ ∀ k, k ∉ m := by
  rw [← isEmpty_iff, isEmpty, List.isEmpty_iff]
  exact List.length_eq_zero_iff

/-! ## 3. What each operation leaves -/

@[simp] theorem mem_keep {m : OrdMap K V} {p : K → Bool} {k : K} :
    k ∈ m.keep p ↔ k ∈ m ∧ p k = true := by
  simp only [mem_iff_entry, keep, List.mem_filter, exists_and_right]

@[simp] theorem mem_erase {m : OrdMap K V} {k k' : K} : k' ∈ m.erase k ↔ k' ∈ m ∧ k' ≠ k := by
  simp [erase]

@[simp] theorem mem_splitOff {m : OrdMap K V} {k k' : K} :
    k' ∈ m.splitOff k ↔ k' ∈ m ∧ k ≤ k' := by
  simp [splitOff]

theorem len_keep_le (m : OrdMap K V) (p : K → Bool) : (m.keep p).len ≤ m.len :=
  List.length_filter_le _ _

theorem len_splitOff_le (m : OrdMap K V) (k : K) : (m.splitOff k).len ≤ m.len := len_keep_le m _

theorem len_erase_le (m : OrdMap K V) (k : K) : (m.erase k).len ≤ m.len := len_keep_le m _

theorem entries_insert {m : OrdMap K V} {k : K} {v : V} {e : K × V} :
    e ∈ (m.insert k v).entries ↔ e = (k, v) ∨ (e ∈ m.entries ∧ e.1 ≠ k) := by
  simp only [insert, List.mem_append, List.mem_filter, List.mem_cons, decide_eq_true_eq]
  have := @lt_or_lt_iff_ne _ _ e.1 k
  tauto

@[simp] theorem mem_insert {m : OrdMap K V} {k k' : K} {v : V} :
    k' ∈ m.insert k v ↔ k' = k ∨ k' ∈ m := by
  simp only [mem_iff_entry, entries_insert, Prod.mk.injEq]
  by_cases h : k' = k <;> simp [h]

theorem get_keep {m : OrdMap K V} {p : K → Bool} {k : K} :
    (m.keep p).get k = if p k = true then m.get k else none := by
  ext v
  split <;> rename_i h <;> simp [get_eq_some_iff, keep, h]

theorem get_erase {m : OrdMap K V} {k k' : K} :
    (m.erase k).get k' = if k' = k then none else m.get k' := by
  by_cases h : k' = k <;> simp [erase, get_keep, h]

theorem get_splitOff {m : OrdMap K V} {k k' : K} :
    (m.splitOff k).get k' = if k ≤ k' then m.get k' else none := by
  by_cases h : k ≤ k' <;> simp [splitOff, get_keep, h]

theorem get_insert {m : OrdMap K V} {k k' : K} {v : V} :
    (m.insert k v).get k' = if k' = k then some v else m.get k' := by
  ext w
  rw [get_eq_some_iff, entries_insert]
  by_cases h : k' = k
  · simp [h, eq_comm]
  · simp [h, get_eq_some_iff]

/-! ## 4. The smallest key -/

theorem first_eq_some_iff {m : OrdMap K V} {k : K} {v : V} :
    m.first = some (k, v) ↔ m.get k = some v ∧ ∀ k' ∈ m, k ≤ k' := by
  rw [get_eq_some_iff]
  constructor
  · intro h
    cases hm : m.entries with
    | nil => simp [first, hm] at h
    | cons e es =>
        obtain rfl : e = (k, v) := by simpa [first, hm] using h
        refine ⟨by simp, fun k' hk' => ?_⟩
        obtain ⟨w, hw⟩ := mem_iff_entry.1 hk'
        have hs := m.sorted
        rw [hm] at hw hs
        rcases List.mem_cons.1 hw with hw | hw
        · simp [(Prod.mk.inj hw).1]
        · exact ((List.pairwise_cons.1 hs).1 _ hw).le
  · rintro ⟨h, hmin⟩
    cases hm : m.entries with
    | nil => simp [hm] at h
    | cons e es =>
        have hs := m.sorted
        rw [hm] at h hs
        rcases List.mem_cons.1 h with rfl | h'
        · simp [first, hm]
        · have hlt : e.1 < k := (List.pairwise_cons.1 hs).1 _ h'
          have hle : k ≤ e.1 := hmin e.1 (mem_iff_entry.2 ⟨e.2, by simp [hm]⟩)
          exact absurd hle (not_le.2 hlt)

theorem first_eq_none_iff {m : OrdMap K V} : m.first = none ↔ ∀ k, k ∉ m := by
  rw [← isEmpty_iff]
  simp [first, isEmpty]

/-- The smallest binding's key. -/
def firstKey (m : OrdMap K V) : Option K := m.first.map Prod.fst

theorem firstKey_eq_some_iff {m : OrdMap K V} {k : K} :
    m.firstKey = some k ↔ k ∈ m ∧ ∀ k' ∈ m, k ≤ k' := by
  constructor
  · intro h
    obtain ⟨⟨k₀, v⟩, he, rfl⟩ := Option.map_eq_some_iff.1 h
    have := first_eq_some_iff.1 he
    exact ⟨mem_iff_get.2 ⟨v, this.1⟩, this.2⟩
  · rintro ⟨hk, hmin⟩
    obtain ⟨v, hv⟩ := mem_iff_get.1 hk
    simp [firstKey, first_eq_some_iff.2 ⟨hv, hmin⟩]

theorem firstKey_eq_none_iff {m : OrdMap K V} : m.firstKey = none ↔ ∀ k, k ∉ m := by
  simp [firstKey, first_eq_none_iff]

/-- A map with a key has a smallest one. -/
theorem exists_firstKey {m : OrdMap K V} {k : K} (hk : k ∈ m) : ∃ k₀, m.firstKey = some k₀ := by
  cases h : m.firstKey with
  | none => exact absurd hk (firstKey_eq_none_iff.1 h k)
  | some k₀ => exact ⟨k₀, rfl⟩

/-! ## 5. Dropping the smallest bindings

A key survives `dropFirst n` when few enough bindings lie at or above it. The
bound on how many there can be comes from counting: strictly increasing
numbers below `n` are at most `n`. -/

@[simp] theorem dropFirst_zero (m : OrdMap K V) : m.dropFirst 0 = m := rfl

theorem mem_of_mem_dropFirst {m : OrdMap K V} {n : Nat} {k : K} (h : k ∈ m.dropFirst n) :
    k ∈ m := by
  obtain ⟨v, hv⟩ := mem_iff_entry.1 h
  exact mem_iff_entry.2 ⟨v, List.mem_of_mem_drop hv⟩

theorem get_dropFirst_of_mem {m : OrdMap K V} {n : Nat} {k : K} (h : k ∈ m.dropFirst n) :
    (m.dropFirst n).get k = m.get k := by
  obtain ⟨v, hv⟩ := mem_iff_get.1 h
  have hm : (k, v) ∈ m.entries := List.mem_of_mem_drop (get_eq_some_iff.1 hv)
  rw [hv, get_eq_some_iff.2 hm]

theorem len_dropFirst (m : OrdMap K V) (n : Nat) : (m.dropFirst n).len = m.len - n :=
  List.length_drop

/-- What is dropped lies below everything that stays. -/
theorem mem_dropFirst_of_le {m : OrdMap K V} {n : Nat} {k k' : K}
    (h : k ∈ m.dropFirst n) (hk' : k' ∈ m) (hle : k ≤ k') : k' ∈ m.dropFirst n := by
  obtain ⟨v, hv⟩ := mem_iff_entry.1 h
  obtain ⟨w, hw⟩ := mem_iff_entry.1 hk'
  have hs := m.sorted
  rw [← List.take_append_drop n m.entries] at hw hs
  rcases List.mem_append.1 hw with hw | hw
  · exact absurd ((List.pairwise_append.1 hs).2.2 _ hw _ hv) (not_lt.2 hle)
  · exact mem_iff_entry.2 ⟨w, hw⟩

/-- Something at or above any key is left, unless everything is dropped. -/
theorem exists_mem_dropFirst {m : OrdMap K V} {n : Nat} {k : K} (hk : k ∈ m) (hn : n < m.len) :
    ∃ k' ∈ m.dropFirst n, k ≤ k' := by
  have hpos : 0 < (m.entries.drop n).length := by
    rw [List.length_drop]
    exact Nat.sub_pos_of_lt hn
  obtain ⟨e, he⟩ := List.exists_mem_of_length_pos hpos
  have hmem : e.1 ∈ m.dropFirst n := mem_iff_entry.2 ⟨e.2, he⟩
  rcases le_total k e.1 with hle | hle
  · exact ⟨e.1, hmem, hle⟩
  · exact ⟨k, mem_dropFirst_of_le hmem hk hle, le_refl k⟩

/-- A key stays when the bindings at or above it fit in what is left. -/
theorem mem_dropFirst {m : OrdMap K V} {n : Nat} {k : K} (hk : k ∈ m)
    (hfit : (m.splitOff k).len + n ≤ m.len) : k ∈ m.dropFirst n := by
  by_contra hout
  obtain ⟨v, hv⟩ := mem_iff_entry.1 hk
  have hv' := hv
  rw [← List.take_append_drop n m.entries] at hv'
  have htake : (k, v) ∈ m.entries.take n := by
    rcases List.mem_append.1 hv' with h | h
    · exact h
    · exact absurd (mem_iff_entry.2 ⟨v, h⟩) hout
  have hs := m.sorted
  rw [← List.take_append_drop n m.entries] at hs
  have habove : ∀ e ∈ m.entries.drop n, k ≤ e.1 := fun e he =>
    ((List.pairwise_append.1 hs).2.2 _ htake _ he).le
  have hdrop : (m.entries.drop n).filter (fun e => decide (k ≤ e.1)) = m.entries.drop n :=
    List.filter_eq_self.2 (fun e he => by simpa using habove e he)
  have hlen : (m.splitOff k).len =
      ((m.entries.take n).filter (fun e => k ≤ e.1)).length + (m.entries.drop n).length := by
    change (m.entries.filter _).length = _
    conv_lhs => rw [← List.take_append_drop n m.entries, List.filter_append, List.length_append]
    rw [hdrop]
  have hpos : 0 < ((m.entries.take n).filter (fun e => k ≤ e.1)).length :=
    List.length_pos_of_mem (List.mem_filter.2 ⟨htake, by simp⟩)
  have hn : n < m.len := by
    by_contra hn
    have : (m.splitOff k).len ≤ 0 := by omega
    omega
  simp only [List.length_drop] at hlen
  change _ + n ≤ m.entries.length at hfit
  change n < m.entries.length at hn
  omega

/-! ## 6. Where the bindings go

Each operation splits the bindings between what it leaves and what it takes out. -/

/-- The binding of `k`, as a list. -/
def at_key (m : OrdMap K V) (k : K) : List (K × V) := (m.get k).toList.map fun v => (k, v)

theorem at_key_perm (m : OrdMap K V) (k : K) :
    (m.entries.filter fun e => decide (e.1 = k)).Perm (m.at_key k) := by
  have hnd : m.entries.Nodup := m.sorted.imp fun {a b} hab heq => absurd (heq ▸ hab) (lt_irrefl _)
  unfold at_key
  cases hget : m.get k with
  | none =>
      have hnil : m.entries.filter (fun e => decide (e.1 = k)) = [] := by
        refine List.filter_eq_nil_iff.2 fun e he hk => ?_
        exact get_eq_none_iff.1 hget (mem_iff_entry.2 ⟨e.2, of_decide_eq_true hk ▸ he⟩)
      rw [hnil]
      exact List.Perm.refl _
  | some v =>
      refine (List.perm_ext_iff_of_nodup (hnd.filter _) (List.nodup_singleton _)).2 fun e => ?_
      rw [List.mem_filter, decide_eq_true_iff]
      constructor
      · rintro ⟨he, hk⟩
        have hv : (k, e.2) ∈ m.entries := hk ▸ he
        exact List.mem_singleton.2 (Prod.ext hk (m.entry_unique hv (get_eq_some_iff.1 hget)))
      · intro he
        rw [List.mem_singleton.1 he]
        exact ⟨get_eq_some_iff.1 hget, rfl⟩

theorem erase_perm (m : OrdMap K V) (k : K) :
    m.entries.Perm ((m.erase k).entries ++ m.at_key k) := by
  have hrest : (m.erase k).entries = m.entries.filter fun e => !decide (e.1 = k) := by
    refine List.filter_congr fun e _ => ?_
    by_cases h : e.1 = k
    · simp [h]
    · simp [h]
  rw [hrest]
  exact ((List.filter_append_perm (fun e => decide (e.1 = k)) m.entries).symm.trans
    List.perm_append_comm).trans ((m.at_key_perm k).append_left _)

theorem insert_perm (m : OrdMap K V) (k : K) (v : V) :
    ((k, v) :: m.entries).Perm ((m.insert k v).entries ++ m.at_key k) := by
  have hge := List.filter_append_perm (fun e => decide (e.1 < k)) m.entries
  have hgt := List.filter_append_perm (fun e => decide (k < e.1))
    (m.entries.filter fun e => !decide (e.1 < k))
  have habove : (m.entries.filter fun e => !decide (e.1 < k)).filter (fun e => decide (k < e.1)) =
      m.entries.filter fun e => decide (k < e.1) := by
    rw [List.filter_filter]
    refine List.filter_congr fun e _ => ?_
    by_cases h : k < e.1
    · simp [h, h.le]
    · simp [h]
  have hthere : (m.entries.filter fun e => !decide (e.1 < k)).filter
      (fun e => !decide (k < e.1)) = m.entries.filter fun e => decide (e.1 = k) := by
    rw [List.filter_filter]
    refine List.filter_congr fun e _ => ?_
    rcases lt_trichotomy e.1 k with h | h | h
    · simp [h, h.ne, h.not_gt]
    · simp [h]
    · simp [h, h.ne', h.not_gt]
  rw [habove, hthere] at hgt
  have hparts : m.entries.Perm (m.entries.filter (fun e => decide (e.1 < k)) ++
      (m.entries.filter (fun e => decide (k < e.1)) ++ m.at_key k)) :=
    hge.symm.trans ((hgt.symm.trans ((m.at_key_perm k).append_left _)).append_left _)
  refine (hparts.cons (k, v)).trans ?_
  rw [insert, List.append_assoc, List.cons_append]
  exact List.perm_middle.symm

theorem splitOff_perm (m : OrdMap K V) (k : K) :
    m.entries.Perm ((m.splitOff k).entries ++ m.entries.filter fun e => decide (e.1 < k)) := by
  have hbelow : (m.entries.filter fun e => decide (e.1 < k)) =
      m.entries.filter fun e => !decide (k ≤ e.1) := by
    refine List.filter_congr fun e _ => ?_
    by_cases h : k ≤ e.1
    · simp [h, not_lt.2 h]
    · simp [h, not_le.1 h]
  rw [hbelow]
  exact (List.filter_append_perm (fun e => decide (k ≤ e.1)) m.entries).symm

theorem dropFirst_perm (m : OrdMap K V) (n : Nat) :
    m.entries.Perm ((m.dropFirst n).entries ++ m.entries.take n) := by
  conv_lhs => rw [← List.take_append_drop n m.entries]
  exact List.perm_append_comm

/-- A split below every key takes nothing out. -/
theorem splitOff_entries {m : OrdMap K V} {k : K} (h : ∀ k' ∈ m, k ≤ k') :
    (m.splitOff k).entries = m.entries := by
  refine List.filter_eq_self.2 fun e he => decide_eq_true ?_
  exact h e.1 (mem_iff_entry.2 ⟨e.2, he⟩)

end OrdMap

/-- Strictly increasing numbers below `n` are at most `n` many. -/
theorem OrdMap.increasing_length_le {l : List Nat} (h : l.Pairwise (· < ·)) {n : Nat}
    (hn : ∀ k ∈ l, k < n) : l.length ≤ n := by
  have hnd : l.Nodup := h.imp (fun hab => hab.ne)
  have hsub : l.toFinset ⊆ Finset.range n := fun k hk =>
    Finset.mem_range.2 (hn k (List.mem_toFinset.1 hk))
  have hcard := Finset.card_le_card hsub
  rwa [List.toFinset_card_of_nodup hnd, Finset.card_range] at hcard

/-- A map with no room for more than the keys of `l` has no others. -/
theorem OrdMap.mem_of_len_le {K V : Type*} [LinearOrder K] {m : OrdMap K V} {l : List K}
    (hnd : l.Nodup) (hmem : ∀ k ∈ l, k ∈ m) (hlen : m.len ≤ l.length) {k : K} (hk : k ∈ m) :
    k ∈ l := by
  have hsub : l.toFinset ⊆ m.keys.toFinset := fun x hx =>
    List.mem_toFinset.2 (hmem x (List.mem_toFinset.1 hx))
  have hcard : m.keys.toFinset.card ≤ l.toFinset.card := by
    rw [List.toFinset_card_of_nodup hnd]
    refine (List.toFinset_card_le _).trans ?_
    rw [OrdMap.keys, List.length_map]
    exact hlen
  have heq := Finset.eq_of_subset_of_card_le hsub hcard
  exact List.mem_toFinset.1 (heq ▸ List.mem_toFinset.2 hk)

/-- A map whose keys at or above `p` lie on the grid `p, p + F, p + 2F, ...` below the `n`-th
point holds at most `n` of them. -/
theorem OrdMap.splitOff_len_le {V : Type*} {m : OrdMap Nat V} {p k F n : Nat} (hF : 0 < F)
    (hpk : p ≤ k) (hgrid : ∀ j ∈ m, k ≤ j → F ∣ j - p ∧ j < p + n * F) :
    (m.splitOff k).len ≤ n := by
  have hkey : ∀ e ∈ (m.splitOff k).entries, F ∣ e.1 - p ∧ k ≤ e.1 ∧ e.1 < p + n * F := by
    intro e he
    obtain ⟨hmem, hle⟩ := OrdMap.mem_splitOff.1
      (OrdMap.mem_iff_entry.2 ⟨e.2, he⟩ : e.1 ∈ m.splitOff k)
    exact ⟨(hgrid _ hmem hle).1, hle, (hgrid _ hmem hle).2⟩
  have hinc : ((m.splitOff k).entries.map (fun e => (e.1 - p) / F)).Pairwise (· < ·) := by
    refine List.pairwise_map.2 ((m.splitOff k).sorted.imp_of_mem (fun {a b} ha hb hab => ?_))
    have hka := hkey a ha
    have hkb := hkey b hb
    exact Nat.div_lt_div_of_lt_of_dvd hkb.1 (by omega)
  have hlen := OrdMap.increasing_length_le hinc (n := n) (by
    intro j hj
    obtain ⟨e, he, rfl⟩ := List.mem_map.1 hj
    have := (hkey e he).2
    exact (Nat.div_lt_iff_lt_mul hF).2 (by omega))
  simpa [OrdMap.len] using hlen
