/-
`JitterBounds` -- how far the jitter buffer's figures go.

The delay target never leaves the range of the bounds in force, the cap on the
frames holds after every call, and the timestamps that the buffer keeps are
64-bit values. A push that lets its frame in bounds the span as well: either it
is below the limit at which playout jumps, or the jump has cut it down to the
target. A late frame is turned away before that is looked at.
-/
import SoundPush.Media.JitterOrder

set_option autoImplicit false

namespace SoundPush.JitterBuffer

variable {α : Type*} {jb : JitterBuffer α}

/-! ## 1. The span after a push -/

theorem is_late_iff {ts : Nat} :
    jb.is_late ts = true ↔ ∃ play, jb.play_ts = some play ∧ ts < play := by
  unfold is_late
  rw [Option.any_eq_true]
  constructor
  · rintro ⟨play, hplay, hlt⟩
    exact ⟨play, hplay, of_decide_eq_true hlt⟩
  · rintro ⟨play, hplay, hlt⟩
    exact ⟨play, hplay, decide_eq_true hlt⟩

/-- A late frame is counted, as received and as late, and leaves everything buffered as it was. -/
theorem push_late {ts : Nat} (h : jb.is_late ts = true) (samples : Samples α) (arrival : Nat) :
    (jb.push ts samples arrival).frames = jb.frames ∧
      (jb.push ts samples arrival).play_ts = jb.play_ts ∧
      (jb.push ts samples arrival).newest_end_ts = jb.newest_end_ts ∧
      (jb.push ts samples arrival).stats =
        { jb.stats with received := jb.stats.received + 1, late := jb.stats.late + 1 } := by
  obtain ⟨play, hplay, hlt⟩ := is_late_iff.1 h
  rcases push_cases jb ts samples arrival with ⟨-, hframes, hpos, hnewest⟩ | ⟨hle, -⟩ |
    ⟨⟨q, hq, hle, -⟩, -⟩
  · exact ⟨hframes, hpos, hnewest, by rw [push_stats, if_pos h]⟩
  · have := hle play hplay
    omega
  · obtain rfl := Option.some.inj (hplay.symm.trans hq)
    omega

/-- Any other frame leaves at most the target, or the limit, ahead of the position. -/
theorem push_span {ts : Nat} (h : jb.is_late ts = false) (samples : Samples α) (arrival : Nat)
    {play : Nat} (hplay : (jb.push ts samples arrival).play_ts = some play) :
    (jb.push ts samples arrival).newest_end_ts - play ≤
      max (jb.push ts samples arrival).target_samples
        (jump_limit (jb.push ts samples arrival).cfg) := by
  rw [push_target, push_cfg]
  rcases push_cases jb ts samples arrival with ⟨hlate, -⟩ | ⟨hle, hno, -, hp, hn⟩ |
    ⟨-, -, hp, hn⟩
  · rw [is_late_iff.2 hlate] at h
    cases h
  · -- no jump, so the span is within the limit
    rw [hp] at hplay
    rw [hn]
    have hspan : ¬ jb.newest_with ts samples - play > jump_limit jb.cfg := fun hlt =>
      hno ⟨play, hplay, hle play hplay, hlt⟩
    omega
  · -- the new position is a frame at or after the cut
    rw [hp] at hplay
    rw [hn]
    have hcut := (OrdMap.mem_splitOff.1 (OrdMap.firstKey_eq_some_iff.1 hplay).1).2
    unfold jump_to at hcut
    omega

/-! ## 2. The target and the position after a call -/

/-- The target lies between the bounds in force. -/
def InRange (jb : JitterBuffer α) : Prop :=
  min_target jb.cfg ≤ jb.target_samples ∧ jb.target_samples ≤ max_target jb.cfg

theorem clamp_target_inRange (jb : JitterBuffer α) (n : Nat) :
    min_target jb.cfg ≤ jb.clamp_target n ∧ jb.clamp_target n ≤ max_target jb.cfg := by
  unfold clamp_target max_target
  omega

/-- The position is a 64-bit value. -/
def Placed (jb : JitterBuffer α) : Prop := ∀ play, jb.play_ts = some play → play ≤ U64_MAX

theorem placed_sat_add {a b : Nat} (h : jb.play_ts = some (sat_add a b)) : jb.Placed := by
  intro play hplay
  rw [h] at hplay
  rw [← Option.some.inj hplay]
  exact min_le_right _ _

/-- What a pop does to the target and the position. -/
theorem pop_at_bounds [Zero α] {play : Nat} (hp : jb.play_ts = some play) (hplaced : jb.Placed)
    (hrange : jb.InRange) (out : List α) :
    (jb.pop_at play out).2.2.InRange ∧ (jb.pop_at play out).2.2.Placed := by
  cases hg : jb.frames.get play with
  | some x =>
      by_cases hx : x = []
      · rw [hx] at hg
        obtain ⟨_, he⟩ := pop_at_marker out hg
        rw [he]
        exact ⟨hrange, placed_sat_add rfl⟩
      · obtain ⟨_, he⟩ := pop_at_audio out hg hx
        rw [he]
        exact ⟨hrange, placed_sat_add rfl⟩
  | none =>
      by_cases hs : jb.silent = true
      · obtain ⟨_, he⟩ := pop_at_silent_gap out hg hs
        rw [he]
        exact ⟨hrange, placed_sat_add rfl⟩
      · obtain ⟨_, ⟨-, he⟩ | ⟨-, -, he⟩ | ⟨-, he⟩⟩ :=
          pop_at_gap out hp hg (Bool.eq_false_of_not_eq_true hs)
        · rw [he]
          exact ⟨hrange, hplaced⟩
        · -- an underrun raises the target, within its range, and gives the position up
          rw [he]
          exact ⟨clamp_target_inRange jb _, fun _ h => (nomatch h)⟩
        · rw [he]
          exact ⟨hrange, placed_sat_add rfl⟩

theorem pop_bounds [Zero α] (hw : jb.WellFormed) (hplaced : jb.Placed) (hrange : jb.InRange)
    (out : List α) : (jb.pop out).2.2.InRange ∧ (jb.pop out).2.2.Placed := by
  rcases pop_cases hw out with ⟨-, he⟩ | ⟨-, -, he⟩ | ⟨play, -, hp, he⟩ |
    ⟨play, -, -, hfirst, he⟩
  · rw [he]
    exact ⟨hrange, hplaced⟩
  · rw [he]
    exact ⟨hrange, hplaced⟩
  · rw [he]
    exact pop_at_bounds hp hplaced hrange out
  · rw [he]
    have hplay : play ≤ U64_MAX :=
      (hw.keys_le play (OrdMap.firstKey_eq_some_iff.1 hfirst).1).trans hw.newest_le
    have hstart : ({ jb with buffering := false, play_ts := some play } : JitterBuffer α).Placed :=
      fun q hq => Option.some.inj hq ▸ hplay
    exact pop_at_bounds rfl hstart hrange out

theorem push_placed (hw : jb.WellFormed) (hplaced : jb.Placed) {ts : Nat} (hts : ts ≤ U64_MAX)
    (samples : Samples α) (arrival : Nat) : (jb.push ts samples arrival).Placed := by
  have hw' := push_wellFormed hw hts samples arrival
  intro play hplay
  rcases push_cases jb ts samples arrival with ⟨-, -, hp, -⟩ | ⟨-, -, -, hp, -⟩ | ⟨-, hf, hp, -⟩
  · exact hplaced play (hp ▸ hplay)
  · exact hplaced play (hp ▸ hplay)
  · rw [hp, ← hf] at hplay
    exact (hw'.keys_le play (OrdMap.firstKey_eq_some_iff.1 hplay).1).trans hw'.newest_le

theorem apply_bounds [Zero α] (hw : jb.WellFormed) (hplaced : jb.Placed) (hrange : jb.InRange)
    {op : Op α} (hop : op.Typed) : (jb.apply op).InRange ∧ (jb.apply op).Placed := by
  have hpush (ts : Nat) (hts : ts ≤ U64_MAX) (samples : Samples α) (arrival : Nat) :
      (jb.push ts samples arrival).InRange ∧ (jb.push ts samples arrival).Placed := by
    refine ⟨?_, push_placed hw hplaced hts samples arrival⟩
    unfold InRange
    rw [push_target, push_cfg]
    exact hrange
  cases op with
  | push ts samples arrival => exact hpush ts hop samples arrival
  | push_silence ts arrival => exact hpush ts hop [] arrival
  | pop out => exact pop_bounds hw hplaced hrange out
  | adapt =>
      unfold apply adapt
      dsimp only
      split
      · exact ⟨clamp_target_inRange jb _, hplaced⟩
      · exact ⟨clamp_target_inRange jb _, hplaced⟩
  | set_bounds a b => exact ⟨clamp_target_inRange _ _, hplaced⟩
  | reset => exact ⟨hrange, fun _ h => (nomatch h)⟩

/-! ## 3. Runs -/

theorem reachable_bounds [Zero α] {cfg : JitterConfig} {tr : List (JitterBuffer α × Op α)}
    (hr : (machine α cfg).Run tr jb) : jb.WellFormed ∧ jb.InRange ∧ jb.Placed := by
  refine hr.invariant (P := fun jb => jb.WellFormed ∧ jb.InRange ∧ jb.Placed) ?_ ?_
  · rintro _ rfl
    exact ⟨new_wellFormed cfg, ⟨le_refl _, le_max_right _ _⟩, fun _ h => (nomatch h)⟩
  · rintro jb op ⟨hw, hrange, hplaced⟩ hop
    exact ⟨apply_wellFormed hw hop, apply_bounds hw hplaced hrange hop⟩

/-- **Bounds.** In every state that calls lead to: the target lies in its range, the frames within
their cap, every timestamp kept within 64 bits, and a further push bounds the span, unless its
frame is late, which is counted and changes nothing else. -/
theorem bounds_hold [Zero α] {cfg : JitterConfig} {tr : List (JitterBuffer α × Op α)}
    (hr : (machine α cfg).Run tr jb) :
    (min_target jb.cfg ≤ jb.target_samples ∧ jb.target_samples ≤ max_target jb.cfg) ∧
    jb.frames.len ≤ MAX_FRAMES ∧
    (jb.newest_end_ts ≤ U64_MAX ∧ (∀ play, jb.play_ts = some play → play ≤ U64_MAX) ∧
      ∀ k ∈ jb.frames, k ≤ U64_MAX) ∧
    ∀ ts samples arrival, if jb.is_late ts = true then
        (jb.push ts samples arrival).frames = jb.frames ∧
          (jb.push ts samples arrival).play_ts = jb.play_ts ∧
          (jb.push ts samples arrival).newest_end_ts = jb.newest_end_ts ∧
          (jb.push ts samples arrival).stats =
            { jb.stats with received := jb.stats.received + 1, late := jb.stats.late + 1 }
      else ∀ play, (jb.push ts samples arrival).play_ts = some play →
        (jb.push ts samples arrival).newest_end_ts - play ≤
          max (jb.push ts samples arrival).target_samples
            (jump_limit (jb.push ts samples arrival).cfg) := by
  obtain ⟨hw, hrange, hplaced⟩ := reachable_bounds hr
  refine ⟨hrange, hw.len_le, ⟨hw.newest_le, hplaced, fun k hk => ?_⟩, fun ts samples arrival => ?_⟩
  · exact (hw.keys_le k hk).trans hw.newest_le
  · by_cases hlate : jb.is_late ts = true
    · rw [if_pos hlate]
      exact push_late hlate samples arrival
    · rw [if_neg hlate]
      intro play hplay
      exact push_span (Bool.eq_false_of_not_eq_true hlate) samples arrival hplay

/-- A frame far ahead comes before playout starts, and a late one after it. -/
def late_calls : List (Op Nat) :=
  [.push 480 full_frame 0, .push 100000 full_frame 0, .pop [], .push 0 full_frame 0]

theorem late_calls_typed : ∀ op ∈ late_calls, op.Typed := by
  simp only [late_calls, List.forall_mem_cons, Op.Typed, U64_MAX]
  simp

/-- The last push leaves a position, and more than two seconds ahead of it. -/
theorem late_push_leaves_span :
    let jb := (machine Nat balanced_mono).exec (new balanced_mono) late_calls
    (∃ tr, (machine Nat balanced_mono).Run tr jb) ∧
      ∃ play, jb.play_ts = some play ∧
        max jb.target_samples (jump_limit jb.cfg) < jb.newest_end_ts - play := by
  refine ⟨⟨_, calls_run balanced_mono late_calls late_calls_typed⟩, 960, ?_⟩
  decide +kernel

/-- After those calls one more late frame is counted, and a frame still further ahead brings the
span back into its limit. -/
theorem bounds_hold_after_late :
    let jb := (machine Nat balanced_mono).exec (new balanced_mono) late_calls
    (min_target jb.cfg ≤ jb.target_samples ∧ jb.target_samples ≤ max_target jb.cfg) ∧
      jb.frames.len ≤ MAX_FRAMES ∧ jb.newest_end_ts ≤ U64_MAX ∧
      (jb.push 0 full_frame 0).play_ts = some 960 ∧ (jb.push 0 full_frame 0).stats.late = 2 ∧
      (jb.push 200000 full_frame 0).play_ts = some 200000 ∧
      (jb.push 200000 full_frame 0).newest_end_ts - 200000 ≤
        max (jb.push 200000 full_frame 0).target_samples
          (jump_limit (jb.push 200000 full_frame 0).cfg) := by
  obtain ⟨htarget, hcap, ⟨hnewest, -, -⟩, hpush⟩ :=
    bounds_hold (calls_run balanced_mono late_calls late_calls_typed)
  have hstate : ((machine Nat balanced_mono).exec (new balanced_mono) late_calls).is_late 0 = true ∧
      ((machine Nat balanced_mono).exec (new balanced_mono) late_calls).is_late 200000 = false ∧
      ((machine Nat balanced_mono).exec (new balanced_mono) late_calls).play_ts = some 960 ∧
      ((machine Nat balanced_mono).exec (new balanced_mono) late_calls).stats.late = 1 ∧
      (((machine Nat balanced_mono).exec (new balanced_mono) late_calls).push 200000
        full_frame 0).play_ts = some 200000 := by decide +kernel
  generalize (machine Nat balanced_mono).exec (new balanced_mono) late_calls = jb at *
  obtain ⟨hislate, hontime, hplay, hcount, hjumps⟩ := hstate
  have hlate := hpush 0 full_frame 0
  rw [if_pos hislate] at hlate
  have hahead := hpush 200000 full_frame 0
  rw [hontime, if_neg Bool.false_ne_true] at hahead
  refine ⟨htarget, hcap, hnewest, hlate.2.1.trans hplay, ?_, hjumps, hahead 200000 hjumps⟩
  rw [hlate.2.2.2, hcount]

/-- A frame shorter than the configured one, and a frame at the end of the timeline. -/
def far_calls : List (Op Nat) := [.push 0 [1] 0, .push U64_MAX full_frame 0, .pop []]

/-- What `pop` adds to decide whether to hold the position can be more than 64 bits hold. -/
example :
    let jb := (machine Nat balanced_mono).exec (new balanced_mono) far_calls
    jb.frames.get 1 = none ∧ jb.play_ts = some 1 ∧ jb.silent = false ∧
      U64_MAX < jb.buffered_samples + jb.cfg.frame_samples := by
  decide +kernel

end SoundPush.JitterBuffer
