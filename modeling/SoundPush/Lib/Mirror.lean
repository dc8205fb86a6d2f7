/-
`Mirror` -- a copy that is kept up by the changes it is told of.

A source says what each of its changes did, the words wait on their way, and the copy
follows them one by one. Whatever is on its way, following all of it makes the copy the
source (`Leads`); so a copy that has heard everything is the source.
-/
import Mathlib.Tactic.Common

set_option autoImplicit false

namespace Mirror

variable {σ ε : Type*} {follow : σ → ε → σ}

/-- Following `told`, in order, leads from `s` to `t`. -/
def Leads (follow : σ → ε → σ) (told : List ε) (s t : σ) : Prop := told.foldl follow s = t

variable {told more : List ε} {s t u : σ} {e : ε}

theorem Leads.nil : Leads follow [] s s := rfl

theorem Leads.one : Leads follow [e] s (follow s e) := rfl

theorem Leads.trans (h : Leads follow told s t) (h' : Leads follow more t u) :
    Leads follow (told ++ more) s u := by
  unfold Leads at h h' ⊢
  rw [List.foldl_append, h, h']

/-- The copy takes the first word. -/
theorem Leads.take (h : Leads follow (e :: told) s t) : Leads follow told (follow s e) t := h

/-- Two copies that follow alike, in ways that keep `R` between them. -/
theorem Leads.rel {τ : Type*} {follow' : τ → ε → τ} {R : σ → τ → Prop}
    (hR : ∀ s t e, R s t → R (follow s e) (follow' t e)) {x : τ} (h : Leads follow told s t)
    (hs : R s x) : R t (told.foldl follow' x) := by
  induction told generalizing s x with
  | nil => exact h ▸ hs
  | cons e told ih => exact ih h.take (hR s x e hs)

end Mirror
