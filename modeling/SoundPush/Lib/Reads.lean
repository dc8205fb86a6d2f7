/-
`Reads` -- readers that take off a buffer exactly what a writer puts on it.

A reader returns a value and what is left, or an error. `Reads fits put read` has both
directions: what `put` writes is read back whatever follows it, and what is read was
written so. A reader in several steps is taken apart by `bind_eq_ok` and put together
by `ok_bind`; one that reads a count of values is `read_list`.
-/
import Mathlib.Data.List.Basic

set_option autoImplicit false

universe u v

section Steps

variable {ε : Type v} {α γ : Type u}

theorem ok_bind (x : α) (f : α → Except ε γ) : (Except.ok x >>= f) = f x := rfl

/-- The steps of a computation that succeeds. -/
theorem bind_eq_ok {x : Except ε α} {f : α → Except ε γ} {y : γ} :
    x >>= f = .ok y ↔ ∃ a, x = .ok a ∧ f a = .ok y := by
  constructor
  · intro h
    match x, h with
    | .ok a, h => exact ⟨a, rfl, h⟩
  · rintro ⟨a, rfl, h⟩
    exact h

end Steps

variable {ε : Type v} {α β : Type u}

/-- `read` takes off exactly what `put` writes, for the values that fit. -/
structure Reads (fits : α → Prop) (put : α → List β)
    (read : List β → Except ε (α × List β)) : Prop where
  back : ∀ {x rest}, fits x → read (put x ++ rest) = .ok (x, rest)
  only : ∀ {buf x rest}, read buf = .ok (x, rest) → fits x ∧ buf = put x ++ rest

/-- Take off `n` values. -/
def read_list (read : List β → Except ε (α × List β)) :
    Nat → List β → Except ε (List α × List β)
  | 0, buf => .ok ([], buf)
  | n + 1, buf => do
      let (x, buf) ← read buf
      let (xs, buf) ← read_list read n buf
      return (x :: xs, buf)

/-- So many values, one after another. -/
theorem Reads.list {fits : α → Prop} {put : α → List β} {read : List β → Except ε (α × List β)}
    (h : Reads fits put read) (n : Nat) :
    Reads (fun xs : List α => xs.length = n ∧ ∀ x ∈ xs, fits x) (List.flatMap put)
      (read_list read n) where
  back := by
    intro xs rest hxs
    induction xs generalizing n with
    | nil =>
        obtain rfl := hxs.1
        rfl
    | cons x xs ih =>
        obtain ⟨rfl, hfits⟩ := hxs
        obtain ⟨hx, hrest⟩ := List.forall_mem_cons.1 hfits
        rw [List.flatMap_cons, List.append_assoc, List.length_cons, read_list, h.back hx, ok_bind]
        dsimp only
        rw [ih xs.length ⟨rfl, hrest⟩, ok_bind]
        rfl
  only := by
    intro buf xs rest hread
    induction n generalizing buf xs with
    | zero =>
        obtain ⟨rfl, rfl⟩ := Prod.mk.inj (Except.ok.inj hread)
        exact ⟨⟨rfl, fun x hx => absurd hx List.not_mem_nil⟩, rfl⟩
    | succ n ih =>
        obtain ⟨⟨x, buf'⟩, hx, hread⟩ := bind_eq_ok.1 hread
        obtain ⟨⟨xs', buf''⟩, hxs, hread⟩ := bind_eq_ok.1 hread
        obtain ⟨rfl, rfl⟩ := Prod.mk.inj (Except.ok.inj hread)
        obtain ⟨hfit, rfl⟩ := h.only hx
        obtain ⟨⟨rfl, hfits⟩, rfl⟩ := ih hxs
        refine ⟨⟨rfl, List.forall_mem_cons.2 ⟨hfit, hfits⟩⟩, ?_⟩
        rw [List.flatMap_cons, List.append_assoc]
