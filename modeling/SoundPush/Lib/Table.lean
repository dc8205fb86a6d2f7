/-
`Table` -- finite maps with unordered keys, as programs keep them: looked up,
inserted into, filtered in place and walked.

The representation is Mathlib's association list without duplicate keys
(`AList`), which has the lookup laws of insertion and erasure. What a program
needs besides are the updates that visit every entry: `retain` drops the
entries that fail a test, `modify` changes the entry of one key, and
`map_values` changes all of them. `Shrinks` says that updates only took entries
away.
-/
import Mathlib.Algebra.GroupWithZero.Nat
import Mathlib.Data.List.AList
import Mathlib.Data.List.MinMax
import Mathlib.Data.Nat.Basic
import Mathlib.Tactic.Common

set_option autoImplicit false

/-- A finite map from `κ` to `α`. -/
abbrev Table (κ α : Type) := AList (fun _ : κ => α)

namespace Table

variable {κ α β : Type} [DecidableEq κ]

/-- The value of a key. -/
def get (t : Table κ α) (k : κ) : Option α := AList.lookup k t

/-- Give a key a value, replacing what it had. -/
def insert (t : Table κ α) (k : κ) (a : α) : Table κ α := AList.insert k a t

/-- Take a key out. -/
def erase (t : Table κ α) (k : κ) : Table κ α := AList.erase k t

/-- Whether the key has a value. -/
def has (t : Table κ α) (k : κ) : Bool := (t.get k).isSome

/-- The entries, in the order a walk visits them. -/
def pairs (t : Table κ α) : List (κ × α) := t.entries.map (fun e => (e.1, e.2))

def is_empty (t : Table κ α) : Bool := t.pairs.isEmpty

/-- Keep the entries that pass the test. -/
def retain (t : Table κ α) (p : κ → α → Bool) : Table κ α :=
  ⟨t.entries.filter (fun e => p e.1 e.2), t.nodupKeys.sublist (List.filter_sublist)⟩

/-- Change every value. -/
def map_values (t : Table κ α) (f : κ → α → β) : Table κ β :=
  ⟨t.entries.map (fun e => ⟨e.1, f e.1 e.2⟩), by
    have h := t.nodupKeys
    rw [List.NodupKeys, List.keys] at h ⊢
    rwa [List.map_map]⟩

/-- Change the value of one key, if it has one. -/
def modify (t : Table κ α) (k : κ) (f : α → α) : Table κ α :=
  t.map_values (fun k' a => if k' = k then f a else a)

/-- The key whose value has the smallest `f`. -/
def min_by_key (t : Table κ α) (f : α → Nat) : Option κ :=
  (t.pairs.argmin (fun e => f e.2)).map Prod.fst

@[simp] theorem get_empty (k : κ) : (∅ : Table κ α).get k = none := rfl

theorem get_insert (t : Table κ α) (k k' : κ) (a : α) :
    (t.insert k a).get k' = if k' = k then some a else t.get k' := by
  unfold get insert
  by_cases h : k' = k
  · rw [if_pos h, h, AList.lookup_insert]
  · rw [if_neg h, AList.lookup_insert_ne h]

@[simp] theorem get_insert_self (t : Table κ α) (k : κ) (a : α) :
    (t.insert k a).get k = some a := by
  rw [get_insert, if_pos rfl]

/-- What is there after an insertion was inserted, or was there before. -/
theorem get_of_get_insert {t : Table κ α} {k k' : κ} {a b : α}
    (h : (t.insert k a).get k' = some b) : k' = k ∧ b = a ∨ k' ≠ k ∧ t.get k' = some b := by
  rw [get_insert] at h
  by_cases hk : k' = k
  · rw [if_pos hk, Option.some_inj] at h
    exact .inl ⟨hk, h.symm⟩
  · rw [if_neg hk] at h
    exact .inr ⟨hk, h⟩

theorem get_erase (t : Table κ α) (k k' : κ) :
    (t.erase k).get k' = if k' = k then none else t.get k' := by
  unfold get erase
  by_cases h : k' = k
  · rw [if_pos h, h, AList.lookup_erase]
  · rw [if_neg h, AList.lookup_erase_ne h]

@[simp] theorem get_erase_self (t : Table κ α) (k : κ) :
    (t.erase k).get k = none := by
  rw [get_erase, if_pos rfl]

/-- A key that has no value is not taken out. -/
theorem erase_of_get_eq_none {t : Table κ α} {k : κ} (h : t.get k = none) : t.erase k = t := by
  unfold erase
  refine AList.ext ?_
  have hkeys : k ∉ t := AList.lookup_eq_none.1 h
  exact List.kerase_of_notMem_keys hkeys

/-- What is left after an erasure was there before. -/
theorem get_of_get_erase {t : Table κ α} {k k' : κ} {a : α}
    (h : (t.erase k).get k' = some a) : k' ≠ k ∧ t.get k' = some a := by
  rw [get_erase] at h
  split at h
  · cases h
  · exact ⟨‹_›, h⟩

theorem get_eq_some_iff {t : Table κ α} {k : κ} {a : α} :
    t.get k = some a ↔ (k, a) ∈ t.pairs := by
  unfold get pairs
  rw [← Option.mem_def, AList.mem_lookup_iff, List.mem_map]
  constructor
  · exact fun h => ⟨⟨k, a⟩, h, rfl⟩
  · rintro ⟨⟨k', a'⟩, h, he⟩
    obtain ⟨rfl, rfl⟩ := Prod.mk.inj he
    exact h

omit [DecidableEq κ] in
theorem nodup_keys (t : Table κ α) : (t.pairs.map Prod.fst).Nodup := by
  have h := t.nodupKeys
  rw [List.NodupKeys, List.keys] at h
  unfold pairs
  rw [List.map_map]
  exact h

theorem get_retain (t : Table κ α) (p : κ → α → Bool) (k : κ) :
    (t.retain p).get k = (t.get k).filter (p k) := by
  have hmem : ∀ a, (t.retain p).get k = some a ↔ t.get k = some a ∧ p k a = true := by
    intro a
    rw [get_eq_some_iff, get_eq_some_iff]
    simp [pairs, retain, Sigma.exists]
  cases hk : t.get k with
  | none =>
      rw [Option.filter_none, Option.eq_none_iff_forall_ne_some]
      intro a ha
      rw [hmem, hk] at ha
      exact nomatch ha.1
  | some a =>
      rw [Option.filter_some]
      by_cases hp : p k a = true
      · rw [if_pos hp, hmem, hk]
        exact ⟨rfl, hp⟩
      · rw [if_neg hp, Option.eq_none_iff_forall_ne_some]
        intro b hb
        rw [hmem, hk] at hb
        obtain ⟨hab, hb⟩ := hb
        rw [← Option.some_inj.1 hab] at hb
        exact hp hb

omit [DecidableEq κ] in
/-- A test that was made changes nothing when it is made again. -/
theorem retain_retain (t : Table κ α) (p : κ → α → Bool) : (t.retain p).retain p = t.retain p := by
  have h : (t.entries.filter fun e => p e.1 e.2).filter (fun e => p e.1 e.2) =
      t.entries.filter fun e => p e.1 e.2 := by
    rw [List.filter_filter]
    exact List.filter_congr fun _ _ => Bool.and_self _
  exact AList.ext h

theorem get_map_values (t : Table κ α) (f : κ → α → β) (k : κ) :
    (t.map_values f).get k = (t.get k).map (f k) := by
  have hmem : ∀ b, (t.map_values f).get k = some b ↔ ∃ a, t.get k = some a ∧ f k a = b := by
    intro b
    simp only [get_eq_some_iff]
    simp [pairs, map_values, Sigma.exists]
  cases hk : t.get k with
  | none =>
      rw [Option.map_none, Option.eq_none_iff_forall_ne_some]
      intro b hb
      obtain ⟨a, ha, _⟩ := (hmem b).1 hb
      rw [hk] at ha
      exact nomatch ha
  | some a => exact (hmem _).2 ⟨a, hk, rfl⟩

theorem get_modify (t : Table κ α) (k k' : κ) (f : α → α) :
    (t.modify k f).get k' = if k' = k then (t.get k').map f else t.get k' := by
  rw [modify, get_map_values]
  by_cases h : k' = k
  · simp [h]
  · simp [h]

/-! ## Sums over a table -/

/-- The sum of `f` over the values. -/
def total (t : Table κ α) (f : α → Nat) : Nat := (t.pairs.map fun e => f e.2).sum

omit [DecidableEq κ] in
theorem total_eq (t : Table κ α) (f : α → Nat) :
    t.total f = (t.entries.map fun e => f e.2).sum := by
  unfold total pairs
  rw [List.map_map]
  rfl

theorem total_erase (t : Table κ α) (k : κ) (f : α → Nat) :
    (t.erase k).total f + (t.get k).elim 0 f = t.total f := by
  rw [total_eq, total_eq]
  change ((List.kerase k t.entries).map _).sum + (List.dlookup k t.entries).elim 0 f = _
  induction t.entries with
  | nil => rfl
  | cons e l ih =>
      by_cases h : e.1 = k
      · subst h
        rw [List.kerase_cons_eq rfl, List.dlookup_cons_eq, List.map_cons, List.sum_cons,
          Nat.add_comm]
        rfl
      · rw [List.kerase_cons_ne (Ne.symm h), List.dlookup_cons_ne _ _ (Ne.symm h), List.map_cons,
          List.sum_cons, List.map_cons, List.sum_cons, Nat.add_assoc, ih]

theorem total_insert (t : Table κ α) (k : κ) (a : α) (f : α → Nat) :
    (t.insert k a).total f + (t.get k).elim 0 f = t.total f + f a := by
  have h : (t.insert k a).total f = f a + (t.erase k).total f := by
    rw [total_eq, total_eq]
    change ((List.kinsert k a t.entries).map _).sum = _ + ((List.kerase k t.entries).map _).sum
    rw [List.kinsert_def, List.map_cons, List.sum_cons]
  rw [h, Nat.add_assoc, total_erase, Nat.add_comm]

theorem total_eq_zero {t : Table κ α} {f : α → Nat} :
    t.total f = 0 ↔ ∀ k a, t.get k = some a → f a = 0 := by
  unfold total
  rw [List.sum_eq_zero_iff_forall_eq_nat]
  constructor
  · intro h k a hk
    exact h _ (List.mem_map.2 ⟨(k, a), get_eq_some_iff.1 hk, rfl⟩)
  · intro h n hn
    obtain ⟨⟨k, a⟩, hmem, rfl⟩ := List.mem_map.1 hn
    exact h k a (get_eq_some_iff.2 hmem)

/-! ## How many entries there are -/

omit [DecidableEq κ] in
theorem total_one (t : Table κ α) : (t.total fun _ => 1) = t.pairs.length := by
  unfold total
  rw [List.map_const', List.sum_replicate_nat, Nat.mul_one]

theorem length_erase (t : Table κ α) (k : κ) :
    (t.erase k).pairs.length + (if t.has k then 1 else 0) = t.pairs.length := by
  have h := t.total_erase k fun _ => 1
  rw [total_one, total_one] at h
  rw [← h]
  unfold has
  cases t.get k <;> rfl

theorem length_insert (t : Table κ α) (k : κ) (a : α) :
    (t.insert k a).pairs.length + (if t.has k then 1 else 0) = t.pairs.length + 1 := by
  have h := t.total_insert k a fun _ => 1
  rw [total_one, total_one] at h
  rw [← h]
  unfold has
  cases t.get k <;> rfl

omit [DecidableEq κ] in
theorem length_retain_le (t : Table κ α) (p : κ → α → Bool) :
    (t.retain p).pairs.length ≤ t.pairs.length := by
  unfold pairs retain
  rw [List.length_map, List.length_map]
  exact List.length_filter_le _ _

/-- A table with entries has a smallest one. -/
theorem exists_min_by_key {t : Table κ α} (h : 0 < t.pairs.length) (f : α → Nat) :
    ∃ k, t.min_by_key f = some k ∧ t.has k = true := by
  unfold min_by_key
  cases hmin : t.pairs.argmin fun e => f e.2 with
  | none =>
      rw [List.argmin_eq_none] at hmin
      rw [hmin] at h
      exact absurd h (Nat.lt_irrefl 0)
  | some e =>
      have hmem : (e.1, e.2) ∈ t.pairs := List.argmin_mem hmin
      refine ⟨e.1, rfl, ?_⟩
      unfold has
      rw [get_eq_some_iff.2 hmem]
      rfl

/-! ## Tables that only lose entries -/

/-- `t'` has no entry that `t` does not have. -/
def Shrinks (t t' : Table κ α) : Prop := ∀ k a, t'.get k = some a → t.get k = some a

theorem Shrinks.refl (t : Table κ α) : t.Shrinks t := fun _ _ h => h

theorem Shrinks.trans {t t' t'' : Table κ α} (h : t.Shrinks t') (h' : t'.Shrinks t'') :
    t.Shrinks t'' :=
  fun k a ha => h k a (h' k a ha)

theorem shrinks_erase (t : Table κ α) (k : κ) : t.Shrinks (t.erase k) :=
  fun _ _ h => (get_of_get_erase h).2

theorem shrinks_erase_modify (t : Table κ α) (k : κ) (f : α → α) :
    t.Shrinks ((t.modify k f).erase k) := by
  intro k' a h
  obtain ⟨hne, h⟩ := get_of_get_erase h
  rwa [get_modify, if_neg hne] at h

theorem shrinks_modify_of_none {t : Table κ α} {k : κ} (h : t.get k = none) (f : α → α) :
    t.Shrinks (t.modify k f) := by
  intro k' a ha
  rw [get_modify] at ha
  split at ha
  · next he =>
      rw [he, h] at ha
      cases ha
  · exact ha

@[simp] theorem has_eq_true {t : Table κ α} {k : κ} : t.has k = true ↔ ∃ a, t.get k = some a := by
  rw [has, Option.isSome_iff_exists]

end Table
