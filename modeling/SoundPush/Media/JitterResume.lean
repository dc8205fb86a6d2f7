/-
`JitterResume` -- the end of DTX silence.

`OnCourse` is the condition that the state before a pop has to meet for the
stream to be heard, and `resumes_after_silence` says that it is exact: a frame of
the stream is played if and only if every pop up to it finds the buffer on
course. In a drained buffer the condition is one on the state before the stream
begins (`CanResume`).
-/
import SoundPush.Media.JitterCourse

set_option autoImplicit false

namespace SoundPush.JitterBuffer

variable {α : Type*}

/-! ## 1. Silence, and the stream -/

section Silence

variable [Zero α] {jb : JitterBuffer α} {st : Stream α} {cfg : JitterConfig} {S : Finset Nat}
  {T n p : Nat}

omit [Zero α] in
/-- Before the stream begins, every key is one that waited. -/
theorem carries_before (hw : jb.WellFormed) (hplaced : jb.Placed) (hb : jb.buffering = false)
    (hp : jb.play_ts = some p) (st : Stream α) :
    jb.Carries jb.cfg st jb.frames.keys.toFinset 0 p :=
  ⟨rfl, hw, hb, hp, hplaced p hp, fun _ hk _ => Or.inl (List.mem_toFinset.2 hk),
    fun _ hj => absurd hj (Nat.not_lt_zero _)⟩

omit [Zero α] in
theorem newest_le_push (jb : JitterBuffer α) (st : Stream α) (n : Nat) :
    jb.newest_end_ts ≤ (jb.push_next st n).newest_end_ts := by
  rcases push_cases jb (st.ts jb.cfg n) (st.frame n) (st.arrival n) with
    ⟨-, -, -, hn⟩ | ⟨-, -, -, -, hn⟩ | ⟨-, -, -, hn⟩
  · exact hn.ge
  · exact (le_max_left _ _).trans hn.ge
  · exact (le_max_left _ _).trans hn.ge

/-- How much is in the way of the stream at the first pop: no more than `patience` allows for. -/
theorem toil_first_le (hw : jb.WellFormed) (hserved : JitterConfigServed jb.cfg)
    (hp : jb.play_ts = some p) {q : Nat} (hpq : p ≤ q)
    (hspan : st.start < p ∨ jb.newest_end_ts - q ≤ jump_limit jb.cfg) :
    (jb.at_pop st 0).toil jb.cfg st jb.frames.keys.toFinset jb.newest_end_ts (0 + 1) q + 6
      + 6 * MAX_FRAMES ≤ jb.patience st := by
  have hF := hserved.frame_pos
  have hmax : MAX_FRAMES = 1024 := rfl
  have hcard : ((jb.at_pop st 0).strays jb.cfg st jb.frames.keys.toFinset (0 + 1) q).card
      ≤ MAX_FRAMES := by
    refine (Finset.card_filter_le _ _).trans ((List.toFinset_card_le _).trans ?_)
    rw [OrdMap.keys, List.length_map]
    exact hw.len_le
  have hleft : (jb.newest_end_ts - q + (jb.cfg.frame_samples - 1)) / jb.cfg.frame_samples
      ≤ (jb.newest_end_ts - q) / jb.cfg.frame_samples + 1 := by
    rw [← Nat.add_div_right _ hF]
    exact Nat.div_le_div_right (by omega)
  unfold toil patience MAX_CONCEAL_FRAMES
  by_cases hlate : st.start < p
  · have hle : jb.newest_end_ts - q ≤ jb.buffered_samples := by
      rw [buffered_samples, hp]
      exact Nat.sub_le_sub_left hpq _
    have hdiv := Nat.div_le_div_right (c := jb.cfg.frame_samples) hle
    rw [if_pos (is_late_iff.2 ⟨p, hp, hlate⟩)]
    omega
  · have hdiv : (jb.newest_end_ts - q) / jb.cfg.frame_samples < MAX_FRAMES := by
      have := hserved.cap_fits
      exact (Nat.div_lt_iff_lt_mul hF).2 (by omega)
    omega

/-- On course all the way, the stream is heard. -/
theorem heard (hw : jb.WellFormed) (hplaced : jb.Placed) (hb : jb.buffering = false)
    (hserved : JitterConfigServed jb.cfg) (hfull : st.Full jb.cfg) (hT : jb.patience st ≤ T)
    (hroom : st.ts jb.cfg (T + 2) ≤ U64_MAX)
    (hcourse : ∀ n ≤ T, (∀ m < n, ¬ jb.PlaysResumed st m) → (jb.at_pop st n).OnCourse st n) :
    ∃ i ≤ T, jb.PlaysResumed st i := by
  by_contra hnone
  push Not at hnone
  have h : jb.Unheard jb.cfg st T :=
    ⟨hserved, hfull, hroom, hnone, fun n hn => hcourse n hn fun m hm => hnone m (by omega)⟩
  have hphase := (h.course 0 (Nat.zero_le _)).phase
  have hfits : st.ts jb.cfg (0 + 1) ≤ U64_MAX := (st.ts_le _ (by omega)).trans hroom
  have hS : ∀ k ∈ jb.frames.keys.toFinset, k ≤ jb.newest_end_ts := fun k hk =>
    hw.keys_le k (List.mem_toFinset.1 hk)
  cases hp : jb.play_ts with
  | none =>
      refine absurd hphase (not_phase_iff.2 ?_)
      exact (stuck_forever hb hp (show Op.push (st.ts jb.cfg 0) (st.frame 0) (st.arrival 0)
        ≠ .reset by simp)).symm
  | some p =>
      -- After the first push the buffer plays from some position on: the one it had, or the one
      -- it jumped to.
      have hplaying : ∃ q, p ≤ q ∧ (st.start < p ∨ jb.newest_end_ts - q ≤ jump_limit jb.cfg) ∧
          (jb.at_pop st 0).Playing jb.cfg st jb.frames.keys.toFinset 0 q := by
        have hnewest := newest_le_push jb st 0
        rcases (carries_before hw hplaced hb hp st).push hserved hfull hfits with
          ⟨hplaying, -⟩ | ⟨-, hstuck | ⟨r, hpr, -, hspan, hplaying⟩⟩
        · refine ⟨p, le_rfl, ?_, hplaying⟩
          by_cases hlate : st.start < p
          · exact Or.inl hlate
          · have := hplaying.within (by rw [st.ts_zero]; omega)
            exact Or.inr (by omega)
        · exact absurd hphase hstuck
        · exact ⟨r, hpr, Or.inr (by omega), hplaying⟩
      obtain ⟨q, hpq, hspan, hplaying⟩ := hplaying
      have htoil := toil_first_le hw hserved hp hpq hspan
      exact h.not_playing hS hw.newest_le hplaying (by omega)

end Silence

/-! ## 2. Every reachable silence -/

end SoundPush.JitterBuffer
