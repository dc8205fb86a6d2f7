/-
`Flapping` -- the flap detector against all of the reconnects it was told.

The detector keeps no more than the newest reconnects of the last window, and
drops the others for good. What it has dropped never matters again: while a
dropped reconnect is still in the window, the detector is full.

`Keeps` is the relation between the detector and the whole history: what it holds is
a suffix, and a reconnect that it has dropped either no longer counts or is made up
for by `LIMIT` newer ones. One reconnect keeps the relation (`Keeps.record`), by the
two clean-ups of the source in their order, the window first and the length after.
The answer is then read off the suffix.
-/
import SoundPush.Engine.Limits

set_option autoImplicit false

namespace SoundPush

namespace FlapDetector

/-- The detector after a sequence of reconnects. -/
def after (times : List Instant) : FlapDetector :=
  times.foldl (fun f now => (f.record now).1) default

theorem after_concat (times : List Instant) (now : Instant) :
    after (times ++ [now]) = ((after times).record now).1 := by
  unfold after
  rw [List.foldl_append]
  rfl

/-- Whether a reconnect lies within the last window. -/
def recent (now t : Instant) : Bool := now - t < WINDOW

theorem recent_of_le {now t t' : Instant} (h : recent now t = true) (ht : t ≤ t') :
    recent now t' = true := by
  have hlt : now - t < WINDOW := of_decide_eq_true h
  exact decide_eq_true (Nat.lt_of_le_of_lt (Nat.sub_le_sub_left ht now) hlt)

theorem recent_before {now now' t : Instant} (h : recent now' t = true) (hnow : now ≤ now') :
    recent now t = true := by
  have hlt : now' - t < WINDOW := of_decide_eq_true h
  exact decide_eq_true (Nat.lt_of_le_of_lt (Nat.sub_le_sub_right hnow t) hlt)

/-- Of reconnects in order, the recent ones are the last ones. -/
theorem recent_suffix (now : Instant) {events : List Instant} (h : events.Pairwise (· ≤ ·)) :
    ∃ old, events = old ++ events.filter (recent now) ∧ ∀ t ∈ old, recent now t = false := by
  induction events with
  | nil => exact ⟨[], rfl, fun t ht => absurd ht List.not_mem_nil⟩
  | cons t events ih =>
      obtain ⟨hle, hrest⟩ := List.pairwise_cons.1 h
      by_cases ht : recent now t = true
      · have hall : (t :: events).filter (recent now) = t :: events := by
          refine List.filter_eq_self.2 fun t' ht' => ?_
          rcases List.mem_cons.1 ht' with rfl | ht'
          · exact ht
          · exact recent_of_le ht (hle t' ht')
        exact ⟨[], hall.symm, fun t ht => absurd ht List.not_mem_nil⟩
      · obtain ⟨old, heq, hold⟩ := ih hrest
        refine ⟨t :: old, ?_, ?_⟩
        · rw [List.filter_cons_of_neg ht, List.cons_append, ← heq]
        · intro t' ht'
          rcases List.mem_cons.1 ht' with rfl | ht'
          · exact Bool.not_eq_true _ ▸ ht
          · exact hold t' ht'

/-- What the detector still knows of all reconnects: the last ones, and if it has dropped one that
may still count, then as many as it needs to answer without it. -/
structure Keeps (times : List Instant) (f : FlapDetector) : Prop where
  bounded : f.events.length ≤ LIMIT + 1
  dropped : ∃ dropped, times = dropped ++ f.events ∧
    ∀ now, (∀ t ∈ times, t ≤ now) → ∀ d ∈ dropped, recent now d = true →
      f.events.length = LIMIT + 1

theorem keeps_default : default.Keeps [] :=
  ⟨Nat.zero_le _, [], rfl, fun _ _ _ hd => absurd hd List.not_mem_nil⟩

/-- One more reconnect. -/
theorem Keeps.record {times : List Instant} {f : FlapDetector} (h : f.Keeps times) {now : Instant}
    (hsorted : (times ++ [now]).Pairwise (· ≤ ·)) :
    (f.record now).1.Keeps (times ++ [now]) ∧
      ((f.record now).2 = true ↔ LIMIT < (times ++ [now]).countP (recent now)) := by
  obtain ⟨hbounded, dropped, htimes, hfull⟩ := h
  obtain ⟨hbefore, -, hnow⟩ := List.pairwise_append.1 hsorted
  have hle : ∀ t ∈ times, t ≤ now := fun t ht => hnow t ht now (List.mem_singleton_self now)
  rw [htimes] at hbefore
  obtain ⟨-, hevents, hacross⟩ := List.pairwise_append.1 hbefore
  obtain ⟨old, hsplit, hold⟩ := recent_suffix now hevents
  -- a dropped reconnect that is recent leaves the detector full of recent ones
  have hrecent : ∀ d ∈ dropped, recent now d = true →
      (f.events.filter (recent now)).length = LIMIT + 1 := by
    intro d hd hrec
    rw [List.filter_eq_self.2 fun t ht => recent_of_le hrec (hacross d hd t ht)]
    exact hfull now hle d hd hrec
  have hcount : (times ++ [now]).countP (recent now) =
      dropped.countP (recent now) + (f.events.filter (recent now)).length + 1 := by
    have hself : recent now now = true := decide_eq_true (by rw [Nat.sub_self]; decide)
    rw [htimes, List.countP_append, List.countP_append, List.countP_singleton, if_pos hself,
      List.countP_eq_length_filter (l := f.events)]
  have hkept : (f.events.filter (recent now)).length ≤ LIMIT + 1 :=
    (List.length_filter_le _ _).trans hbounded
  have hnone : dropped.countP (recent now) = 0 ∨
      (f.events.filter (recent now)).length = LIMIT + 1 := by
    by_cases h : ∃ d ∈ dropped, recent now d = true
    · obtain ⟨d, hd, hrec⟩ := h
      exact .inr (hrecent d hd hrec)
    · exact .inl (List.countP_eq_zero.2 fun d hd hrec => h ⟨d, hd, hrec⟩)
  have hlater : ∀ now', (∀ t ∈ times ++ [now], t ≤ now') → ∀ d ∈ dropped ++ old,
      recent now' d = true → (f.events.filter (recent now)).length = LIMIT + 1 := by
    intro now' hle' d hd hrec
    have hrec := recent_before hrec (hle' now (List.mem_append_right _ List.mem_cons_self))
    rcases List.mem_append.1 hd with hd | hd
    · exact hrecent d hd hrec
    · rw [hold d hd] at hrec
      cases hrec
  unfold FlapDetector.record
  dsimp only
  change Keeps _ ⟨if LIMIT + 1 < (f.events.filter (recent now) ++ [now]).length then
    (f.events.filter (recent now) ++ [now]).tail else f.events.filter (recent now) ++ [now]⟩ ∧
    (decide (LIMIT < (if LIMIT + 1 < (f.events.filter (recent now) ++ [now]).length then
      (f.events.filter (recent now) ++ [now]).tail
        else f.events.filter (recent now) ++ [now]).length) = true ↔ _)
  rw [hcount, decide_eq_true_eq]
  generalize f.events.filter (recent now) = kept at hsplit hkept hnone hlater
  have hlen : (kept ++ [now]).length = kept.length + 1 := List.length_append
  by_cases htrunc : LIMIT + 1 < (kept ++ [now]).length
  · rw [if_pos htrunc, List.length_tail, hlen]
    rw [hlen] at htrunc
    refine ⟨⟨?_, dropped ++ old ++ (kept ++ [now]).take 1, ?_, fun _ _ _ _ _ => ?_⟩, by omega⟩
    · rw [List.length_tail, hlen]
      omega
    · rw [htimes, hsplit, ← List.drop_one, List.append_assoc _ (List.take 1 _),
        List.take_append_drop]
      simp only [List.append_assoc]
    · rw [List.length_tail, hlen]
      omega
  · rw [if_neg htrunc, hlen]
    rw [hlen] at htrunc
    refine ⟨⟨by rw [hlen]; omega, dropped ++ old, ?_, fun now' hle' d hd hrec => ?_⟩, by omega⟩
    · rw [htimes, hsplit]
      simp only [List.append_assoc]
    · have := hlater now' hle' d hd hrec
      omega

theorem after_keeps {times : List Instant} (h : times.Pairwise (· ≤ ·)) :
    (after times).Keeps times := by
  induction times using List.reverseRecOn with
  | nil => exact keeps_default
  | append_singleton times now ih =>
      rw [after_concat]
      exact ((ih (List.pairwise_append.1 h).1).record h).1

/-- **Flapping.** The answer to a reconnect is the one that all reconnects so far give: more than
`LIMIT` of them, this one included, lie within the last `WINDOW`. -/
theorem flapping_iff {times : List Instant} {now : Instant}
    (h : (times ++ [now]).Pairwise (· ≤ ·)) :
    ((after times).record now).2 = true ↔
      LIMIT < (times ++ [now]).countP fun t => now - t < WINDOW :=
  ((after_keeps (List.pairwise_append.1 h).1).record h).2

/-- The first of six reconnects is exactly at the edge of the window and does not count;
of seven, six do. -/
theorem flapping_edge :
    (((after [0, 1, 2, 3, 4]).record 120000).2 = false) ∧
      ((after [0, 1, 2, 3, 4, 120000]).record 120000).2 = true :=
  ⟨Bool.eq_false_iff.2 (mt (flapping_iff (by decide)).1 (by decide)),
    (flapping_iff (by decide)).2 (by decide)⟩

end FlapDetector

end SoundPush
