/-
`Machine` -- event-driven state machines, their runs, and the rules to reason
about them.

A machine is what a component owns (its step function) together with what its
environment may do to it (the initial states and the events it can deliver in
a state). A run is the list of the events delivered, each with the state it
met. Three rules carry every result about runs:

* `Run.invariant` -- what holds at the start and survives a step holds throughout;
* `Run.invariant_where` -- the same when only the steps that meet a condition keep it;
* `Run.flip` -- what does not hold at the start and holds now was made true by
  one particular step of the run.
-/
import Mathlib.Data.List.Basic
import Mathlib.Tactic.Common

set_option autoImplicit false

/-- A deterministic component and what its environment may do to it. -/
structure Machine (σ ε : Type*) where
  /-- the states a run may begin in -/
  init : σ → Prop
  /-- the events the environment can deliver in a state -/
  enabled : σ → ε → Prop
  /-- what the component does with an event -/
  step : σ → ε → σ

namespace Machine

variable {σ ε : Type*} (M : Machine σ ε)

/-- `M.Run tr s`: a run whose events, each with the state it met, are `tr` (oldest first), and
that has reached `s`. -/
inductive Run : List (σ × ε) → σ → Prop
  | start {s : σ} : M.init s → Run [] s
  | next {tr : List (σ × ε)} {s : σ} {e : ε} :
      Run tr s → M.enabled s e → Run (tr ++ [(s, e)]) (M.step s e)

/-- The states of all runs. -/
def Reachable (s : σ) : Prop := ∃ tr, M.Run tr s

/-- Every event of the run met a state in which `G` allows it. -/
def Meets (G : σ → ε → Prop) (tr : List (σ × ε)) : Prop := ∀ p ∈ tr, G p.1 p.2

variable {M}

/-- The machine whose environment also keeps to `G`. -/
def restrict (M : Machine σ ε) (G : σ → ε → Prop) : Machine σ ε :=
  { M with enabled := fun s e => M.enabled s e ∧ G s e }

theorem Reachable.start {s : σ} (h : M.init s) : M.Reachable s := ⟨[], .start h⟩

theorem Reachable.next {s : σ} {e : ε} (h : M.Reachable s) (he : M.enabled s e) :
    M.Reachable (M.step s e) :=
  let ⟨_, hr⟩ := h
  ⟨_, .next hr he⟩

/-- What holds at the start and survives every step holds in every state of every run. -/
theorem Run.invariant {P : σ → Prop} (h0 : ∀ s, M.init s → P s)
    (hstep : ∀ s e, P s → M.enabled s e → P (M.step s e))
    {tr : List (σ × ε)} {s : σ} (hr : M.Run tr s) : P s := by
  induction hr with
  | start h => exact h0 _ h
  | next _ he ih => exact hstep _ _ ih he

theorem Reachable.invariant {P : σ → Prop} (h0 : ∀ s, M.init s → P s)
    (hstep : ∀ s e, P s → M.enabled s e → P (M.step s e)) {s : σ} (hr : M.Reachable s) : P s :=
  let ⟨_, h⟩ := hr
  h.invariant h0 hstep

/-- The same when the steps that keep `P` are those that meet `G`: it holds at the end of every
run all of whose steps do. -/
theorem Run.invariant_where {G : σ → ε → Prop} {P : σ → Prop} (h0 : ∀ s, M.init s → P s)
    (hstep : ∀ s e, P s → M.enabled s e → G s e → P (M.step s e))
    {tr : List (σ × ε)} {s : σ} (hr : M.Run tr s) (hG : Meets G tr) : P s := by
  induction hr with
  | start h => exact h0 _ h
  | next _ he ih =>
      have hlast := hG _ (List.mem_append_right _ (List.mem_singleton_self _))
      exact hstep _ _ (ih (fun p hp => hG p (List.mem_append_left _ hp))) he hlast

/-- A run whose steps all meet `G` is a run of the restricted machine. -/
theorem Run.restrict {G : σ → ε → Prop} {tr : List (σ × ε)} {s : σ} (hr : M.Run tr s)
    (hG : Meets G tr) : (M.restrict G).Run tr s := by
  induction hr with
  | start h => exact .start h
  | next _ he ih =>
      have hlast := hG _ (List.mem_append_right _ (List.mem_singleton_self _))
      exact .next (ih (fun p hp => hG p (List.mem_append_left _ hp))) ⟨he, hlast⟩

/-- The states a run met are themselves reached by a run, the run up to there. -/
theorem Run.before {tr₁ tr₂ : List (σ × ε)} {p : σ × ε} {s : σ}
    (hr : M.Run (tr₁ ++ p :: tr₂) s) : M.Run tr₁ p.1 ∧ M.enabled p.1 p.2 := by
  generalize htr : tr₁ ++ p :: tr₂ = tr at hr
  induction hr generalizing tr₂ with
  | start _ => simp at htr
  | next hrun he ih =>
      rcases List.eq_nil_or_concat tr₂ with rfl | ⟨l, q, rfl⟩
      · obtain ⟨rfl, hp⟩ := List.append_inj' htr rfl
        obtain rfl := List.singleton_inj.1 hp
        exact ⟨hrun, he⟩
      · rw [List.concat_eq_append, ← List.cons_append, ← List.append_assoc] at htr
        exact ih (List.append_inj' htr rfl).1

/-- What does not hold at the start and holds now was made true by a step of the run. -/
theorem Run.flip {P : σ → Prop} (h0 : ∀ s, M.init s → ¬ P s)
    {tr : List (σ × ε)} {s : σ} (hr : M.Run tr s) (hP : P s) :
    ∃ tr₁ p tr₂, tr = tr₁ ++ p :: tr₂ ∧ ¬ P p.1 ∧ P (M.step p.1 p.2) := by
  induction hr with
  | start h => exact absurd hP (h0 _ h)
  | @next tr s e hrun he ih =>
      by_cases hs : P s
      · obtain ⟨tr₁, p, tr₂, rfl, hp⟩ := ih hs
        exact ⟨tr₁, p, tr₂ ++ [(s, e)], by simp, hp⟩
      · exact ⟨tr, (s, e), [], rfl, hs, hP⟩

/-- Induction on the last part of a run. -/
theorem Run.stretch {P : List (σ × ε) → σ → Prop} {tr seg : List (σ × ε)} {s : σ}
    (hr : M.Run (tr ++ seg) s) (h0 : ∀ s₀, M.Run tr s₀ → P [] s₀)
    (hstep : ∀ seg s e, M.Run (tr ++ seg) s → M.enabled s e → P seg s →
      P (seg ++ [(s, e)]) (M.step s e)) : P seg s := by
  generalize htr : tr ++ seg = full at hr
  induction hr generalizing seg with
  | @start s h =>
      obtain ⟨rfl, rfl⟩ := List.append_eq_nil_iff.1 htr
      exact h0 s (.start h)
  | @next full s e hrun he ih =>
      rcases List.eq_nil_or_concat seg with rfl | ⟨l, q, rfl⟩
      · rw [List.append_nil] at htr
        exact h0 _ (htr ▸ hrun.next he)
      · rw [List.concat_eq_append] at htr ⊢
        rw [← List.append_assoc] at htr
        obtain ⟨rfl, hq⟩ := List.append_inj' htr rfl
        obtain rfl := List.singleton_inj.1 hq
        exact hstep l s e hrun he (ih rfl)

/-- Induction on the rest of a run, from the step `p` on. -/
theorem Run.since {P : List (σ × ε) → σ → Prop} {tr₁ tr₂ : List (σ × ε)} {p : σ × ε} {s : σ}
    (hr : M.Run (tr₁ ++ p :: tr₂) s) (h0 : P [] (M.step p.1 p.2))
    (hstep : ∀ tr s e, M.Run (tr₁ ++ p :: tr) s → M.enabled s e → P tr s →
      P (tr ++ [(s, e)]) (M.step s e)) : P tr₂ s := by
  rw [List.append_cons] at hr
  refine hr.stretch (fun s₀ hrun => ?_) (fun tr s e hrun => hstep tr s e ?_)
  · -- the run up to `p` ends in the state that `p` leaves
    generalize htr : tr₁ ++ [p] = tr at hrun
    cases hrun with
    | start _ => simp at htr
    | next hrun he =>
        obtain ⟨_, hp⟩ := List.append_inj' htr rfl
        obtain rfl := List.singleton_inj.1 hp
        exact h0
  · rwa [List.append_cons]

/-- The rest of a run is a run from the state that its first part reached. -/
theorem Run.after {tr₁ tr₂ : List (σ × ε)} {p : σ × ε} {s : σ} (hr : M.Run (tr₁ ++ p :: tr₂) s) :
    ({ M with init := fun s₀ => s₀ = M.step p.1 p.2 } : Machine σ ε).Run tr₂ s :=
  hr.since (.start rfl) fun _ _ _ _ he ih =>
    Run.next (M := { M with init := fun s₀ => s₀ = M.step p.1 p.2 }) ih he

/-- What a step left false and is true later was made true by a step between. -/
theorem Run.flip_after {P : σ → Prop} {tr₁ tr₂ : List (σ × ε)} {p : σ × ε} {s : σ}
    (hr : M.Run (tr₁ ++ p :: tr₂) s) (h0 : ¬ P (M.step p.1 p.2)) (hP : P s) :
    ∃ tr₃ r tr₄, tr₂ = tr₃ ++ r :: tr₄ ∧ ¬ P r.1 ∧ P (M.step r.1 r.2) :=
  hr.after.flip (fun _ hs => hs ▸ h0) hP

/-! ## Concrete runs -/

/-- The events of `es` are each enabled where they come, from `s` on. -/
def Admits (M : Machine σ ε) : σ → List ε → Prop
  | _, [] => True
  | s, e :: es => M.enabled s e ∧ M.Admits (M.step s e) es

/-- The events of `es` with the states they meet, from `s` on. -/
def trace (M : Machine σ ε) : σ → List ε → List (σ × ε)
  | _, [] => []
  | s, e :: es => (s, e) :: M.trace (M.step s e) es

/-- The state after the events of `es`. -/
def exec (M : Machine σ ε) (s : σ) (es : List ε) : σ := es.foldl M.step s

theorem trace_append (M : Machine σ ε) (s : σ) (es es' : List ε) :
    M.trace s (es ++ es') = M.trace s es ++ M.trace (M.exec s es) es' := by
  induction es generalizing s with
  | nil => rfl
  | cons e es ih => exact congrArg _ (ih (M.step s e))

theorem Run.extend {tr : List (σ × ε)} {s : σ} (hr : M.Run tr s) {es : List ε}
    (h : M.Admits s es) : M.Run (tr ++ M.trace s es) (M.exec s es) := by
  induction es generalizing tr s with
  | nil => simpa [trace, exec] using hr
  | cons e es ih =>
      have := ih (hr.next h.1) h.2
      simpa [trace, exec] using this

/-- Admitted events are a run from any initial state. -/
theorem run_of_admits {s : σ} (h0 : M.init s) {es : List ε} (h : M.Admits s es) :
    M.Run (M.trace s es) (M.exec s es) := (Run.start h0).extend h

/-- A condition on what came before each event of a list, read off from its first event on. -/
theorem forall_split_cons {β : Type*} {P : List β → β → Prop} (x : β) (l : List β) :
    (∀ l₁ p l₂, x :: l = l₁ ++ p :: l₂ → P l₁ p) ↔
      P [] x ∧ ∀ l₁ p l₂, l = l₁ ++ p :: l₂ → P (x :: l₁) p := by
  constructor
  · intro h
    exact ⟨h [] x l rfl, fun l₁ p l₂ hl => h (x :: l₁) p l₂ (congrArg _ hl)⟩
  · rintro ⟨hx, hl⟩ l₁ p l₂ he
    cases l₁ with
    | nil =>
        obtain ⟨rfl, -⟩ := List.cons.inj he
        exact hx
    | cons y l₁ =>
        obtain ⟨rfl, hrest⟩ := List.cons.inj he
        exact hl l₁ p l₂ hrest

theorem forall_split_nil {β : Type*} {P : List β → β → Prop} :
    (∀ l₁ p l₂, ([] : List β) = l₁ ++ p :: l₂ → P l₁ p) ↔ True := by
  simp

end Machine
