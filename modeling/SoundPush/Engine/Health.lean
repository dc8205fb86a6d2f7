/-
`Health` -- the degraded state of a session and the lossless fallback
(`health.rs`), against everything they have measured.

Both are switches that follow streaks: so many bad seconds in a row turn them on,
so many good ones off, and a second that is neither ends both streaks. They keep
two counters. `LinkHealth` lets the counters run on when it switches, and
`QualityFallback` clears both; that makes no difference, because the second that
switches is the end of the other streak anyway.

`Follows` is the common invariant of both: the switch is on as the history says, and
the counter of the streak that would turn it has the length of that streak. Of the
other counter it says nothing, which is why it does not matter whether it is
cleared. The two measures of a second, percent and milliseconds, are numbers of the
source that need not compare with anything, so a second may be neither good nor bad.
-/
import SoundPush.Engine.Limits
import SoundPush.Lib.Streaks

set_option autoImplicit false

namespace SoundPush

open List (Lingers streak streak_concat)

/-! ## 1. Measurements -/

namespace F64

theorem below_of_above {x : F64} {low high : ℚ} (hle : low ≤ high) (h : x.above high = true) :
    x.below low = false := by
  cases x with
  | nan => rfl
  | neg_infinity => cases h
  | number value =>
      have hlt : high < value := of_decide_eq_true h
      exact decide_eq_false (not_lt.2 (hle.trans hlt.le))
  | infinity => rfl

end F64

/-! ## 2. The switches -/

def DEGRADED_LOSS_PCT : ℚ := 3
def DEGRADED_JITTER_MS : ℚ := 30
def RECOVERED_LOSS_PCT : ℚ := 1
def RECOVERED_JITTER_MS : ℚ := 15
def ENTER_SECS : Nat := 3
def RECOVER_SECS : Nat := 5

/-- Whether a session's link is degraded. -/
structure LinkHealth where
  degraded : Bool
  bad_secs : Nat
  good_secs : Nat
  deriving DecidableEq, Repr

namespace LinkHealth

def default : LinkHealth := ⟨false, 0, 0⟩

/-- A second with too much loss or too much jitter. -/
def bad (measured : F64 × F64) : Bool :=
  measured.1.above DEGRADED_LOSS_PCT || measured.2.above DEGRADED_JITTER_MS

/-- A second with little of both. -/
def good (measured : F64 × F64) : Bool :=
  measured.1.below RECOVERED_LOSS_PCT && measured.2.below RECOVERED_JITTER_MS

/-- Feed one second of measurements; the flag says whether the state changed. -/
def update (h : LinkHealth) (loss_pct jitter_ms : F64) : LinkHealth × Bool :=
  let bad := bad (loss_pct, jitter_ms)
  let good := good (loss_pct, jitter_ms)
  let bad_secs := count_secs bad h.bad_secs
  let good_secs := count_secs good h.good_secs
  let next : Bool := if h.degraded then good_secs < RECOVER_SECS else ENTER_SECS ≤ bad_secs
  let changed : Bool := next ≠ h.degraded
  (⟨next, bad_secs, good_secs⟩, changed)

theorem good_of_bad (measured : F64 × F64) (h : bad measured = true) : good measured = false := by
  rcases (Bool.or_eq_true_iff ..).1 h with h | h
  · rw [good, F64.below_of_above (by decide +kernel) h, Bool.false_and]
  · rw [good, F64.below_of_above (by decide +kernel) h, Bool.and_false]

end LinkHealth

namespace QualityFallback

def bad (loss_pct : F64) : Bool := loss_pct.above FALLBACK_LOSS_PCT
def good (loss_pct : F64) : Bool := loss_pct.below FALLBACK_RECOVER_LOSS_PCT

theorem good_of_bad (loss_pct : F64) (h : bad loss_pct = true) : good loss_pct = false :=
  F64.below_of_above (by decide +kernel) h

end QualityFallback

/-! ## 3. The counters and the history -/

section

variable {α : Type} {p q : α → Bool} {enter leave : Nat} {on : Bool} {bad_secs good_secs : Nat}
  {history : List α}

theorem count_secs_streak (p : α → Bool) (history : List α) (x : α) :
    count_secs (p x) (min (streak p history) SECS_MAX) =
      min (streak p (history ++ [x])) SECS_MAX := by
  rw [streak_concat, count_secs]
  split
  · omega
  · rfl

/-- A switch follows its history: it is on as the history says, and counts the streak that would
turn it. The other counter may be anything. -/
structure Follows (p q : α → Bool) (enter leave : Nat) (history : List α) (on : Bool)
    (bad_secs good_secs : Nat) : Prop where
  state : on = true ↔ history.Lingers p q enter leave
  off : on = false → bad_secs = min (streak p history) SECS_MAX
  on : on = true → good_secs = min (streak q history) SECS_MAX

/-- What both switches do with their counters to see whether they turn. -/
def turns_to (on : Bool) (bad_secs good_secs enter leave : Nat) : Bool :=
  if on then good_secs < leave else enter ≤ bad_secs

variable (hpq : ∀ y, p y = true → q y = false) (henter : 0 < enter) (hleave : 0 < leave)
include hpq henter hleave

theorem Follows.turns (h : Follows p q enter leave history on bad_secs good_secs)
    (hemax : enter ≤ SECS_MAX) (hlmax : leave ≤ SECS_MAX) (x : α) :
    turns_to on (count_secs (p x) bad_secs) (count_secs (q x) good_secs) enter leave = true ↔
      (history ++ [x]).Lingers p q enter leave := by
  rw [List.lingers_concat hpq henter hleave, ← h.state]
  cases on with
  | false =>
      rw [h.off rfl, count_secs_streak]
      simp [turns_to]
      omega
  | true =>
      rw [h.on rfl, count_secs_streak]
      simp [turns_to]
      omega

/-- The second that turns the switch ends the streak that would turn it back. -/
theorem Follows.turned (h : Follows p q enter leave history on bad_secs good_secs) (x : α)
    (hturn :
      turns_to on (count_secs (p x) bad_secs) (count_secs (q x) good_secs) enter leave ≠ on) :
    (on = true → streak p (history ++ [x]) = 0 ∧ count_secs (p x) bad_secs = 0) ∧
      (on = false → streak q (history ++ [x]) = 0 ∧ count_secs (q x) good_secs = 0) := by
  constructor
  · rintro rfl
    have hq : q x = true := by
      by_contra hq
      apply hturn
      simp [turns_to, count_secs, hq, hleave]
    have hp : p x = false := by
      by_contra hp
      rw [hpq x (Bool.not_eq_false _ ▸ hp)] at hq
      cases hq
    simp [streak_concat, count_secs, hp]
  · rintro rfl
    have hp : p x = true := by
      by_contra hp
      apply hturn
      simp [turns_to, count_secs, hp]
      omega
    simp [streak_concat, count_secs, hpq x hp]

/-- One more second, with the counters as they are. -/
theorem Follows.keep (h : Follows p q enter leave history on bad_secs good_secs)
    (hemax : enter ≤ SECS_MAX) (hlmax : leave ≤ SECS_MAX) (x : α) :
    Follows p q enter leave (history ++ [x])
      (turns_to on (count_secs (p x) bad_secs) (count_secs (q x) good_secs) enter leave)
      (count_secs (p x) bad_secs) (count_secs (q x) good_secs) := by
  refine ⟨h.turns hpq henter hleave hemax hlmax x, fun hoff => ?_, fun hon => ?_⟩
  · cases on with
    | false => rw [h.off rfl, count_secs_streak]
    | true =>
        have hturned := (h.turned hpq henter hleave x (by rw [hoff]; decide)).1 rfl
        rw [hturned.1, hturned.2, Nat.zero_min]
  · cases on with
    | true => rw [h.on rfl, count_secs_streak]
    | false =>
        have hturned := (h.turned hpq henter hleave x (by rw [hon]; decide)).2 rfl
        rw [hturned.1, hturned.2, Nat.zero_min]

/-- One more second, when the counters are cleared because it turned the switch. -/
theorem Follows.clear (h : Follows p q enter leave history on bad_secs good_secs)
    (hemax : enter ≤ SECS_MAX) (hlmax : leave ≤ SECS_MAX) (x : α)
    (hturn :
      turns_to on (count_secs (p x) bad_secs) (count_secs (q x) good_secs) enter leave ≠ on) :
    Follows p q enter leave (history ++ [x])
      (turns_to on (count_secs (p x) bad_secs) (count_secs (q x) good_secs) enter leave) 0 0 := by
  have hturned := h.turned hpq henter hleave x hturn
  refine ⟨h.turns hpq henter hleave hemax hlmax x, fun hoff => ?_, fun hon => ?_⟩
  · rw [hoff] at hturn
    rw [(hturned.1 (Bool.eq_true_of_not_eq_false hturn.symm)).1, Nat.zero_min]
  · rw [hon] at hturn
    rw [(hturned.2 (Bool.eq_false_of_not_eq_true hturn.symm)).1, Nat.zero_min]

omit hpq hleave in
theorem follows_nil : Follows p q enter leave [] false 0 0 := by
  refine ⟨?_, ?_, ?_⟩
  · simp [List.not_lingers_nil henter]
  · simp
  · simp

end

/-! ## 4. The switches and the history -/

namespace LinkHealth

/-- The state after a sequence of measurements. -/
def after (history : List (F64 × F64)) : LinkHealth :=
  history.foldl (fun h measured => (h.update measured.1 measured.2).1) default

theorem after_concat (history : List (F64 × F64)) (measured : F64 × F64) :
    after (history ++ [measured]) = ((after history).update measured.1 measured.2).1 := by
  simp [after]

theorem after_follows (history : List (F64 × F64)) :
    Follows bad good ENTER_SECS RECOVER_SECS history (after history).degraded
      (after history).bad_secs (after history).good_secs := by
  induction history using List.reverseRecOn with
  | nil => exact follows_nil (by decide)
  | append_singleton history measured ih =>
      rw [after_concat]
      exact ih.keep good_of_bad (by decide) (by decide) (by decide) (by decide) measured

end LinkHealth

namespace QualityFallback

/-- The state after a sequence of measurements. -/
def after (history : List F64) : QualityFallback :=
  history.foldl (fun f loss_pct => (f.update_f64 loss_pct).1) default

theorem after_concat (history : List F64) (loss_pct : F64) :
    after (history ++ [loss_pct]) = ((after history).update_f64 loss_pct).1 := by
  simp [after]

/-- What `update_f64` makes of the state: the counters stay as they are, or it turned and both are
cleared. -/
theorem update_f64_cases (f : QualityFallback) (loss_pct : F64) :
    let bad_secs := count_secs (bad loss_pct) f.bad_secs
    let good_secs := count_secs (good loss_pct) f.good_secs
    let next := turns_to f.active bad_secs good_secs FALLBACK_SECS FALLBACK_RECOVER_SECS
    (next = f.active ∧ f.update_f64 loss_pct = (⟨next, bad_secs, good_secs⟩, false)) ∨
      (next ≠ f.active ∧ f.update_f64 loss_pct = (⟨next, 0, 0⟩, true)) := by
  intro bad_secs good_secs next
  have hupdate : f.update_f64 loss_pct =
      if decide (next ≠ f.active) then (⟨next, 0, 0⟩, decide (next ≠ f.active))
      else (⟨next, bad_secs, good_secs⟩, decide (next ≠ f.active)) := rfl
  by_cases hturn : next = f.active
  · simp [hupdate, hturn]
  · simp [hupdate, hturn]

theorem after_follows (history : List F64) :
    Follows bad good FALLBACK_SECS FALLBACK_RECOVER_SECS history (after history).active
      (after history).bad_secs (after history).good_secs := by
  induction history using List.reverseRecOn with
  | nil => exact follows_nil (by decide)
  | append_singleton history loss_pct ih =>
      rw [after_concat]
      rcases update_f64_cases (after history) loss_pct with ⟨-, heq⟩ | ⟨hturn, heq⟩
      · rw [heq]
        exact ih.keep good_of_bad (by decide) (by decide) (by decide) (by decide) loss_pct
      · rw [heq]
        exact ih.clear good_of_bad (by decide) (by decide) (by decide) (by decide) loss_pct hturn

/-- The flag of one more measurement. -/
theorem changed_iff (history : List F64) (loss_pct : F64) :
    ((after history).update_f64 loss_pct).2 = true ↔
      (after (history ++ [loss_pct])).active ≠ (after history).active := by
  rw [after_concat]
  rcases update_f64_cases (after history) loss_pct with ⟨hstay, heq⟩ | ⟨hturn, heq⟩
  · simp [heq, hstay]
  · simp [heq, hturn]

end QualityFallback

/-- Both switches after any measurements: on exactly when there was a run of bad seconds long enough
and after it no long enough run of good ones, and reporting exactly the seconds that change this. A
measurement that is not a number is neither bad nor good. -/
theorem switches_follow_history :
    (∀ history : List (F64 × F64),
      ((LinkHealth.after history).degraded = true ↔
          history.Lingers LinkHealth.bad LinkHealth.good ENTER_SECS RECOVER_SECS) ∧
        ∀ measured : F64 × F64,
          ((LinkHealth.after history).update measured.1 measured.2).2 = true ↔
            ¬ ((history ++ [measured]).Lingers LinkHealth.bad LinkHealth.good
                ENTER_SECS RECOVER_SECS ↔
              history.Lingers LinkHealth.bad LinkHealth.good ENTER_SECS RECOVER_SECS)) ∧
    (∀ history : List F64,
      ((QualityFallback.after history).active = true ↔
          history.Lingers QualityFallback.bad QualityFallback.good
            FALLBACK_SECS FALLBACK_RECOVER_SECS) ∧
        ∀ loss_pct : F64,
          ((QualityFallback.after history).update_f64 loss_pct).2 = true ↔
            ¬ ((history ++ [loss_pct]).Lingers QualityFallback.bad QualityFallback.good
                FALLBACK_SECS FALLBACK_RECOVER_SECS ↔
              history.Lingers QualityFallback.bad QualityFallback.good
                FALLBACK_SECS FALLBACK_RECOVER_SECS)) ∧
    (LinkHealth.bad (.nan, .nan) = false ∧ LinkHealth.good (.nan, .nan) = false ∧
      QualityFallback.bad .nan = false ∧ QualityFallback.good .nan = false) := by
  refine ⟨fun history => ?_, fun history => ?_, rfl, rfl, rfl, rfl⟩
  · have hstate := LinkHealth.after_follows
    refine ⟨(hstate history).state, fun measured => ?_⟩
    rw [← (hstate history).state, ← (hstate (history ++ [measured])).state,
      LinkHealth.after_concat, ← Bool.eq_iff_iff]
    simp [LinkHealth.update]
  · have hstate := QualityFallback.after_follows
    refine ⟨(hstate history).state, fun loss_pct => ?_⟩
    rw [← (hstate history).state, ← (hstate (history ++ [loss_pct])).state, ← Bool.eq_iff_iff]
    exact QualityFallback.changed_iff history loss_pct

end SoundPush
