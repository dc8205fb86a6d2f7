/-
`Keyed` -- lists of records that differ in their keys, as a server hands them out:
a record is found by its key, and a program that walks such a list can change each
record, or note something about it, under the key it has.
-/
import SoundPush.Lib.Table
import Mathlib.Data.List.Nodup

set_option autoImplicit false

namespace List

variable {α β κ : Type} [DecidableEq κ] {key : α → κ} {l : List α}

theorem find?_eq_of_mem {l : List κ} {y : κ} (hy : y ∈ l) : (l.find? (· = y)) = some y := by
  cases h : l.find? (· = y) with
  | none => exact absurd (decide_eq_true rfl) (find?_eq_none.1 h y hy)
  | some x =>
      have hx := find?_some h
      rw [decide_eq_true_eq] at hx
      rw [hx]

/-- A record is the one found under its key. -/
theorem find?_key_of_mem (hl : (l.map key).Nodup) {y : α} (hy : y ∈ l) :
    (l.find? fun x => key x = key y) = some y := by
  cases h : l.find? fun x => key x = key y with
  | none => exact absurd (decide_eq_true rfl) (find?_eq_none.1 h y hy)
  | some x =>
      have hx := find?_some h
      rw [decide_eq_true_eq] at hx
      rw [inj_on_of_nodup_map hl (mem_of_find?_eq_some h) hy hx]

/-- Walking `l` and changing, at each of its records, those of `m` with the same key: a record of
`m` meets the one record of `l` that has its key. -/
theorem foldl_map_key {f : α → α → α} (hkey : ∀ x y, key (f x y) = key y)
    (hl : (l.map key).Nodup) (m : List α) :
    l.foldl (fun acc x => acc.map fun y => if key y = key x then f x y else y) m =
      m.map fun y => (l.find? fun x => key x = key y).elim y fun x => f x y := by
  induction l generalizing m with
  | nil => exact (map_id m).symm
  | cons x l ih =>
      rw [map_cons, nodup_cons] at hl
      rw [foldl_cons, ih hl.2, map_map]
      refine map_congr_left fun y _ => ?_
      rw [Function.comp_apply]
      by_cases h : key y = key x
      · -- `x` is the record that `y` meets; no later one has this key
        have hnone : (l.find? fun z => key z = key y) = none := by
          rw [find?_eq_none]
          intro z hz hzy
          rw [decide_eq_true_eq, h] at hzy
          exact hl.1 (hzy ▸ mem_map_of_mem hz)
        have hx : ((x :: l).find? fun z => key z = key y) = some x :=
          find?_cons_of_pos (decide_eq_true h.symm)
        rw [if_pos h, hkey, hnone, hx]
        rfl
      · rw [if_neg h, find?_cons_of_neg (by simpa using Ne.symm h)]

/-- Walking a list and changing each record where it stands. -/
theorem foldl_map_key_self {f : α → α → α} (hkey : ∀ x y, key (f x y) = key y)
    (hl : (l.map key).Nodup) :
    l.foldl (fun acc x => acc.map fun y => if key y = key x then f x y else y) l =
      l.map fun y => f y y := by
  rw [foldl_map_key hkey hl]
  refine map_congr_left fun y hy => ?_
  rw [find?_key_of_mem hl hy]
  rfl

/-- Walking a list and noting something about some of its records under their keys. -/
theorem get_foldl_insert_key {p : α → Bool} {val : α → β} (hl : (l.map key).Nodup)
    (t : Table κ β) {y : α} (hy : y ∈ l) :
    (l.foldl (fun acc x => if p x then acc.insert (key x) (val x) else acc) t).get (key y) =
      if p y then some (val y) else t.get (key y) := by
  -- what is noted before `y` is under other keys, and so is what is noted after it
  have hother : ∀ (l' : List α) (t : Table κ β), (∀ x ∈ l', key x ≠ key y) →
      (l'.foldl (fun acc x => if p x then acc.insert (key x) (val x) else acc) t).get (key y) =
        t.get (key y) := by
    intro l' t hl'
    refine foldlRecOn (motive := fun acc : Table κ β => acc.get (key y) = t.get (key y))
      l' _ rfl fun acc hacc x hx => ?_
    by_cases hp : p x = true
    · rw [if_pos hp, Table.get_insert, if_neg (Ne.symm (hl' x hx)), hacc]
    · rw [if_neg hp, hacc]
  obtain ⟨l₁, l₂, rfl⟩ := append_of_mem hy
  rw [map_append, map_cons, nodup_append, nodup_cons] at hl
  have hfirst : ∀ x ∈ l₁, key x ≠ key y := fun x hx =>
    hl.2.2 _ (mem_map_of_mem hx) _ mem_cons_self
  have hlast : ∀ x ∈ l₂, key x ≠ key y := fun x hx h => hl.2.1.1 (h ▸ mem_map_of_mem hx)
  rw [foldl_append, foldl_cons, hother l₂ _ hlast]
  by_cases hp : p y = true
  · rw [if_pos hp, if_pos hp, Table.get_insert_self]
  · rw [if_neg hp, if_neg hp, hother l₁ _ hfirst]

end List
