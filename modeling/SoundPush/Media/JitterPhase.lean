/-
`JitterPhase` -- the phases of the jitter buffer over whole runs.

The buffer is in one of three phases: buffering (no playout position), playing
(a position), or stuck (neither). Everything here is about how `push` and `pop`
move between them. `push` leaves the position alone except in the jump branch,
which takes the first frame that survives the cut as the new position -- and
there may be none. That is the only way into the stuck phase (`push_phase_iff`),
and no `push` or `pop` leaves it (`stuck_forever`).
-/
import SoundPush.Media.Jitter

set_option autoImplicit false

namespace SoundPush.JitterBuffer

variable {α : Type*}

/-! ## 1. The buffer as a machine -/

/-- What the receiver does to the buffer. -/
inductive Op (α : Type*) where
  | push (sender_ts : Nat) (samples : Samples α) (arrival : Nat)
  | push_silence (sender_ts arrival : Nat)
  | pop (out : List α)
  | adapt
  | set_bounds (min_delay_ms max_delay_ms : Nat)
  | reset

/-- Timestamps are `u64`. -/
def Op.Typed : Op α → Prop
  | .push ts _ _ => ts ≤ U64_MAX
  | .push_silence ts _ => ts ≤ U64_MAX
  | _ => True

def apply [Zero α] (jb : JitterBuffer α) : Op α → JitterBuffer α
  | .push ts samples arrival => jb.push ts samples arrival
  | .push_silence ts arrival => jb.push_silence ts arrival
  | .pop out => (jb.pop out).2.2
  | .adapt => jb.adapt
  | .set_bounds a b => jb.set_bounds a b
  | .reset => jb.reset

/-- The buffer under any sequence of calls. -/
def machine (α : Type*) [Zero α] (cfg : JitterConfig) : Machine (JitterBuffer α) (Op α) where
  init jb := jb = new cfg
  enabled _ op := op.Typed
  step := apply

/-! ## 2. What a push does -/

section Push

variable (jb : JitterBuffer α) (ts : Nat) (samples : Samples α) (arrival : Nat)

@[simp] theorem update_jitter_cfg : (jb.update_jitter ts arrival).cfg = jb.cfg := by
  unfold update_jitter; split <;> (try split) <;> rfl
@[simp] theorem update_jitter_frames : (jb.update_jitter ts arrival).frames = jb.frames := by
  unfold update_jitter; split <;> (try split) <;> rfl
@[simp] theorem update_jitter_play_ts : (jb.update_jitter ts arrival).play_ts = jb.play_ts := by
  unfold update_jitter; split <;> (try split) <;> rfl
@[simp] theorem update_jitter_newest :
    (jb.update_jitter ts arrival).newest_end_ts = jb.newest_end_ts := by
  unfold update_jitter; split <;> (try split) <;> rfl
@[simp] theorem update_jitter_buffering :
    (jb.update_jitter ts arrival).buffering = jb.buffering := by
  unfold update_jitter; split <;> (try split) <;> rfl
@[simp] theorem update_jitter_silent : (jb.update_jitter ts arrival).silent = jb.silent := by
  unfold update_jitter; split <;> (try split) <;> rfl
@[simp] theorem update_jitter_missing :
    (jb.update_jitter ts arrival).consecutive_missing = jb.consecutive_missing := by
  unfold update_jitter; split <;> (try split) <;> rfl
@[simp] theorem update_jitter_target :
    (jb.update_jitter ts arrival).target_samples = jb.target_samples := by
  unfold update_jitter; split <;> (try split) <;> rfl

/-- The push makes playout jump: it is not late, and the newest sample then lies further ahead of
the position than the limit. -/
def overruns : Prop :=
  ∃ play, jb.play_ts = some play ∧ play ≤ ts ∧ jb.newest_with ts samples - play > jump_limit jb.cfg

instance : Decidable (jb.overruns ts samples) :=
  decidable_of_iff (jb.play_ts.any (fun play => decide
    (play ≤ ts ∧ jb.newest_with ts samples - play > jump_limit jb.cfg)) = true)
    (by simp [overruns, Option.any_eq_true])

/-- The cut a jump makes. -/
def jump_to : Nat := jb.newest_with ts samples - jb.target_samples

/-- What a push does to the frames, the position and the newest timestamp: nothing when it is
late, else the frame is stored, and a jump cuts what is older than the target. -/
theorem push_cases :
    ((∃ play, jb.play_ts = some play ∧ ts < play) ∧
      (jb.push ts samples arrival).frames = jb.frames ∧
      (jb.push ts samples arrival).play_ts = jb.play_ts ∧
      (jb.push ts samples arrival).newest_end_ts = jb.newest_end_ts) ∨
    ((∀ play, jb.play_ts = some play → play ≤ ts) ∧ ¬ jb.overruns ts samples ∧
      (jb.push ts samples arrival).frames = jb.frames_with ts samples ∧
      (jb.push ts samples arrival).play_ts = jb.play_ts ∧
      (jb.push ts samples arrival).newest_end_ts = jb.newest_with ts samples) ∨
    (jb.overruns ts samples ∧
      (jb.push ts samples arrival).frames =
        (jb.frames_with ts samples).splitOff (jb.jump_to ts samples) ∧
      (jb.push ts samples arrival).play_ts =
        ((jb.frames_with ts samples).splitOff (jb.jump_to ts samples)).firstKey ∧
      (jb.push ts samples arrival).newest_end_ts = jb.newest_with ts samples) := by
  unfold push
  simp only [update_jitter_play_ts]
  cases hplay : jb.play_ts with
  -- Without a position nothing is late and nothing jumps.
  | none =>
      refine Or.inr (Or.inl ⟨by simp, by simp [overruns, hplay], ?_⟩)
      simp [jump_forward, store_frame, frames_with, newest_with, frame_len]
  | some play =>
      by_cases hlate : ts < play
      · exact Or.inl ⟨⟨play, rfl, hlate⟩, by simp [hlate]⟩
      · have hle : play ≤ ts := by omega
        by_cases hjump : jb.newest_with ts samples - play > jump_limit jb.cfg
        · refine Or.inr (Or.inr ⟨⟨play, hplay, hle, hjump⟩, ?_⟩)
          simp only [newest_with, frame_len] at hjump
          simp [hlate, jump_forward, store_frame, frames_with, newest_with, frame_len,
            jump_to, hjump]
        · refine Or.inr (Or.inl ⟨by simpa using hle, ?_, ?_⟩)
          · rintro ⟨q, hq, -, hlt⟩
            obtain rfl : q = play := by simpa [hplay] using hq.symm
            exact hjump hlt
          · simp only [newest_with, frame_len] at hjump
            simp [hlate, jump_forward, store_frame, frames_with, newest_with, frame_len,
              hjump]

theorem jump_forward_rest : jb.jump_forward.cfg = jb.cfg ∧
    jb.jump_forward.buffering = jb.buffering ∧ jb.jump_forward.silent = jb.silent ∧
    jb.jump_forward.target_samples = jb.target_samples ∧
    jb.jump_forward.consecutive_missing = jb.consecutive_missing := by
  unfold jump_forward
  split
  · simp
  · split <;> simp

/-- A push changes neither the bounds nor the phase flags nor the count of gaps. -/
theorem push_rest : (jb.push ts samples arrival).cfg = jb.cfg ∧
    (jb.push ts samples arrival).buffering = jb.buffering ∧
    (jb.push ts samples arrival).silent = jb.silent ∧
    (jb.push ts samples arrival).target_samples = jb.target_samples ∧
    (jb.push ts samples arrival).consecutive_missing = jb.consecutive_missing := by
  simp only [push, update_jitter_play_ts]
  split
  · simp
  · simp [jump_forward_rest, store_frame]

@[simp] theorem push_cfg : (jb.push ts samples arrival).cfg = jb.cfg := (push_rest ..).1
@[simp] theorem push_buffering : (jb.push ts samples arrival).buffering = jb.buffering :=
  (push_rest ..).2.1
@[simp] theorem push_silent : (jb.push ts samples arrival).silent = jb.silent :=
  (push_rest ..).2.2.1
@[simp] theorem push_target : (jb.push ts samples arrival).target_samples = jb.target_samples :=
  (push_rest ..).2.2.2.1
@[simp] theorem push_consecutive_missing :
    (jb.push ts samples arrival).consecutive_missing = jb.consecutive_missing :=
  (push_rest ..).2.2.2.2

/-! ### The frames after a push -/

theorem mem_of_mem_frames_with {k : Nat} (h : k ∈ jb.frames_with ts samples) :
    k = ts ∨ k ∈ jb.frames :=
  OrdMap.mem_insert.1 (OrdMap.mem_of_mem_dropFirst h)

/-- The cap never drops the newest frame. -/
theorem exists_mem_frames_with {k : Nat} (h : k = ts ∨ k ∈ jb.frames) :
    ∃ k' ∈ jb.frames_with ts samples, k ≤ k' := by
  have hk : k ∈ jb.frames.insert ts samples := OrdMap.mem_insert.2 h
  have hlen : (jb.frames.insert ts samples).len ≠ 0 := fun h0 => OrdMap.len_eq_zero_iff.1 h0 k hk
  have hcap : 0 < MAX_FRAMES := by decide
  exact OrdMap.exists_mem_dropFirst hk (by omega)

theorem frames_with_len : (jb.frames_with ts samples).len ≤ MAX_FRAMES := by
  unfold frames_with
  rw [OrdMap.len_dropFirst]
  omega

theorem get_frames_with {k : Nat} (h : k ∈ jb.frames_with ts samples) :
    (jb.frames_with ts samples).get k = if k = ts then some samples else jb.frames.get k := by
  rw [frames_with, OrdMap.get_dropFirst_of_mem h, OrdMap.get_insert]

end Push

/-! ## 3. The phases -/

/-- The jump leaves nothing to play: the frame and everything buffered are older than the cut. -/
def jump_empties (jb : JitterBuffer α) (ts : Nat) (samples : Samples α) : Prop :=
  jb.overruns ts samples ∧ ts < jb.jump_to ts samples ∧
    ∀ k ∈ jb.frames, k < jb.jump_to ts samples

/-- Without a playout position the buffer is buffering. -/
def Phase (jb : JitterBuffer α) : Prop := jb.play_ts = none → jb.buffering = true

theorem jump_empties_iff (jb : JitterBuffer α) (ts : Nat) (samples : Samples α) :
    jb.jump_empties ts samples ↔ jb.overruns ts samples ∧
      ((jb.frames_with ts samples).splitOff (jb.jump_to ts samples)).firstKey = none := by
  rw [OrdMap.firstKey_eq_none_iff]
  refine and_congr_right (fun _ => ⟨fun ⟨hts, hall⟩ k hk => ?_, fun h => ?_⟩)
  · obtain ⟨hmem, hle⟩ := OrdMap.mem_splitOff.1 hk
    rcases mem_of_mem_frames_with jb ts samples hmem with rfl | hk
    · omega
    · have := hall k hk
      omega
  · have hbelow : ∀ k, (k = ts ∨ k ∈ jb.frames) → k < jb.jump_to ts samples := by
      intro k hk
      obtain ⟨k', hk', hle⟩ := exists_mem_frames_with jb ts samples hk
      by_contra hge
      exact h k' (OrdMap.mem_splitOff.2 ⟨hk', by omega⟩)
    exact ⟨hbelow ts (Or.inl rfl), fun k hk => hbelow k (Or.inr hk)⟩

/-- **The step that wedges.** A push keeps the phase exactly when it does not jump past everything
the buffer holds. -/
theorem push_phase_iff {jb : JitterBuffer α} (h : jb.Phase)
    (hb : jb.buffering = true → jb.play_ts = none) (ts : Nat) (samples : Samples α)
    (arrival : Nat) :
    (jb.push ts samples arrival).Phase ↔ ¬ jb.jump_empties ts samples := by
  unfold Phase
  rw [push_buffering]
  rcases push_cases jb ts samples arrival with ⟨⟨p, hp, hlt⟩, -, hplay, -⟩ |
    ⟨-, hno, -, hplay, -⟩ | ⟨hover, -, hplay, -⟩
  · rw [hplay]
    refine iff_of_true h (fun he => ?_)
    obtain ⟨q, hq, hle, -⟩ := he.1
    obtain rfl : p = q := Option.some.inj (hp.symm.trans hq)
    omega
  · rw [hplay]
    exact iff_of_true h (fun he => hno he.1)
  · obtain ⟨p, hp, -⟩ := id hover
    have hnb : jb.buffering ≠ true := fun hbuf => by simp [hb hbuf] at hp
    rw [hplay, jump_empties_iff]
    constructor
    · exact fun hkeep he => hnb (hkeep he.2)
    · exact fun hne hnone => absurd ⟨hover, hnone⟩ hne

/-! ## 4. What a pop does

One equation for each branch. `stats` is what the branch makes of the counters; no later branch
reads it. -/

section Pop

variable [Zero α] {jb : JitterBuffer α} {play : Nat} (out : List α)

/-- A DTX marker at the position starts silence. -/
theorem pop_at_marker (h : jb.frames.get play = some []) :
    ∃ stats, jb.pop_at play out = (.Silence, out.map (fun _ => 0), { jb with
      frames := (jb.frames.splitOff play).erase play
      play_ts := some (sat_add play jb.cfg.frame_samples)
      silent := true
      consecutive_missing := 0
      stats := stats }) := by
  simp only [pop_at, drop_older, OrdMap.get_splitOff, le_refl, if_true, h, play_frame,
    List.isEmpty_nil, play_silence]
  exact ⟨_, rfl⟩

/-- Audio at the position is played. -/
theorem pop_at_audio {x : Samples α} (h : jb.frames.get play = some x) (hx : x ≠ []) :
    ∃ stats, jb.pop_at play out =
      (.Played, x.take out.length ++ List.replicate (out.length - x.length) 0, { jb with
        frames := (jb.frames.splitOff play).erase play
        play_ts := some (sat_add play (jb.frame_len x))
        silent := false
        consecutive_missing := 0
        stats := stats }) := by
  simp only [pop_at, drop_older, OrdMap.get_splitOff, le_refl, if_true, h, play_frame,
    List.isEmpty_eq_false_iff.2 hx, Bool.false_eq_true, if_false]
  exact ⟨_, rfl⟩

/-- A gap in silence is silence. -/
theorem pop_at_silent_gap (h : jb.frames.get play = none) (hs : jb.silent = true) :
    ∃ stats, jb.pop_at play out = (.Silence, out.map (fun _ => 0), { jb with
      frames := jb.frames.splitOff play
      play_ts := some (sat_add play jb.cfg.frame_samples)
      consecutive_missing := 0
      stats := stats }) := by
  simp only [pop_at, drop_older, OrdMap.get_splitOff, le_refl, if_true, h, hs, play_silence]
  exact ⟨_, rfl⟩

/-- A gap outside silence is concealed: the position is held, or skipped, or given up. -/
theorem pop_at_gap (hp : jb.play_ts = some play) (h : jb.frames.get play = none)
    (hs : jb.silent = false) :
    ∃ stats,
      ((jb.consecutive_missing < MAX_CONCEAL_FRAMES ∧
          wrap_add (jb.newest_end_ts - play) jb.cfg.frame_samples ≤ jb.target_samples) ∧
        jb.pop_at play out = (.Missing, out, { jb with
          frames := jb.frames.splitOff play
          consecutive_missing := jb.consecutive_missing + 1
          stats := stats })) ∨
      (MAX_CONCEAL_FRAMES ≤ jb.consecutive_missing ∧ (jb.frames.splitOff play).isEmpty = true ∧
        jb.pop_at play out = (.Buffering, out.map (fun _ => 0), { jb with
          frames := jb.frames.splitOff play
          target_samples := jb.clamp_target
            (sat_add jb.target_samples (2 * jb.cfg.frame_samples))
          buffering := true
          play_ts := none
          consecutive_missing := 0
          stats := stats })) ∨
      (((jb.target_samples < wrap_add (jb.newest_end_ts - play) jb.cfg.frame_samples ∨
          (jb.frames.splitOff play).isEmpty = false) ∧
          (jb.consecutive_missing < MAX_CONCEAL_FRAMES ∨
            (jb.frames.splitOff play).isEmpty = false)) ∧
        jb.pop_at play out = (.Missing, out, { jb with
          frames := jb.frames.splitOff play
          play_ts := some (sat_add play jb.cfg.frame_samples)
          consecutive_missing := jb.consecutive_missing + 1
          stats := stats })) := by
  simp only [pop_at, drop_older, OrdMap.get_splitOff, le_refl, if_true, h, hs, Bool.false_eq_true,
    if_false, play_missing, buffered_samples, hp]
  split
  · rename_i hhold
    exact ⟨_, Or.inl ⟨⟨by omega, hhold.1⟩, rfl⟩⟩
  · rename_i hhold
    split
    -- Concealed to the limit and nothing ahead: the underrun, which clears the position.
    · rename_i hunder
      simp only [Bool.not_not, Bool.and_eq_true, decide_eq_true_eq] at hunder
      exact ⟨_, Or.inr (Or.inl ⟨by omega, hunder.1, rfl⟩)⟩
    · rename_i hunder
      refine ⟨_, Or.inr (Or.inr ⟨?_, rfl⟩)⟩
      cases hfut : (jb.frames.splitOff play).isEmpty with
      | false => exact ⟨Or.inr rfl, Or.inr rfl⟩
      | true =>
          simp only [hfut, Bool.not_not, Bool.true_and, decide_eq_true_eq] at hunder
          omega

/-- Too little is buffered to start. -/
theorem pop_wait (hb : jb.buffering = true)
    (hw : jb.buffered_samples < jb.target_samples ∨ jb.frames.isEmpty = true) :
    jb.pop out = (.Buffering, out.map (fun _ => 0), jb) := by
  have hcond : (jb.buffering &&
      (decide (jb.buffered_samples < jb.target_samples) || jb.frames.isEmpty)) = true := by
    simpa [hb] using hw
  simp [pop, hcond]

/-- Enough is buffered: playout starts at the first frame. -/
theorem pop_start (hb : jb.buffering = true) (hp : jb.play_ts = none)
    (hfull : jb.target_samples ≤ jb.buffered_samples) (hfirst : jb.frames.firstKey = some play) :
    jb.pop out = { jb with buffering := false, play_ts := some play }.pop_at play out := by
  have hne : jb.frames.isEmpty = false := by
    cases he : jb.frames.isEmpty with
    | false => rfl
    | true =>
        rw [OrdMap.firstKey_eq_none_iff.2 (OrdMap.isEmpty_iff.1 he)] at hfirst
        cases hfirst
  simp [pop, start_playout, hb, hp, hne, hfirst, Nat.not_lt.2 hfull]

theorem pop_playing (hb : jb.buffering = false) (hp : jb.play_ts = some play) :
    jb.pop out = jb.pop_at play out := by
  simp [pop, hb, hp]

/-- Neither buffering nor placed: every pop says so and changes nothing. -/
theorem pop_stuck (hb : jb.buffering = false) (hp : jb.play_ts = none) :
    jb.pop out = (.Buffering, out.map (fun _ => 0), jb) := by
  simp [pop, hb, hp]

end Pop

/-! ## 5. What holds in every reachable state -/

/-- The facts about a buffer that no call breaks, whatever its arguments. -/
structure WellFormed (jb : JitterBuffer α) : Prop where
  keys_le : ∀ k ∈ jb.frames, k ≤ jb.newest_end_ts
  newest_le : jb.newest_end_ts ≤ U64_MAX
  len_le : jb.frames.len ≤ MAX_FRAMES
  target_ge : jb.cfg.frame_samples ≤ jb.target_samples
  target_le : jb.target_samples ≤ max_target jb.cfg
  unplaced : jb.buffering = true → jb.play_ts = none
  silent_playing : jb.silent = true → jb.buffering = false

theorem clamp_target_ge (jb : JitterBuffer α) (n : Nat) :
    jb.cfg.frame_samples ≤ jb.clamp_target n := by
  unfold clamp_target min_target
  omega

theorem clamp_target_le (jb : JitterBuffer α) (n : Nat) :
    jb.clamp_target n ≤ max_target jb.cfg := by
  unfold clamp_target max_target
  omega

theorem new_wellFormed (cfg : JitterConfig) : (new cfg : JitterBuffer α).WellFormed where
  keys_le k hk := absurd hk (OrdMap.not_mem_empty k)
  newest_le := Nat.zero_le _
  len_le := Nat.zero_le _
  target_ge := le_max_right _ _
  target_le := (le_max_right _ _ : min_target cfg ≤ max_target cfg)
  unplaced _ := rfl
  silent_playing h := nomatch h

theorem le_newest_with {jb : JitterBuffer α} (h : jb.WellFormed) {ts : Nat} (hts : ts ≤ U64_MAX)
    (samples : Samples α) :
    ts ≤ jb.newest_with ts samples ∧ jb.newest_end_ts ≤ jb.newest_with ts samples ∧
      jb.newest_with ts samples ≤ U64_MAX := by
  have hn := h.newest_le
  unfold newest_with sat_add
  omega

theorem push_wellFormed {jb : JitterBuffer α} (h : jb.WellFormed) {ts : Nat}
    (hts : ts ≤ U64_MAX) (samples : Samples α) (arrival : Nat) :
    (jb.push ts samples arrival).WellFormed := by
  obtain ⟨hts', hnew, hmax⟩ := le_newest_with h hts samples
  have hkeys : ∀ k ∈ jb.frames_with ts samples, k ≤ jb.newest_with ts samples := by
    intro k hk
    rcases mem_of_mem_frames_with jb ts samples hk with rfl | hk
    · exact hts'
    · exact (h.keys_le k hk).trans hnew
  have hlen := frames_with_len jb ts samples
  rcases push_cases jb ts samples arrival with ⟨-, hfr, hplay, hnw⟩ | ⟨-, -, hfr, hplay, hnw⟩ |
    ⟨⟨p, hp, -⟩, hfr, hplay, hnw⟩
  · exact ⟨by rw [hfr, hnw]; exact h.keys_le, by rw [hnw]; exact h.newest_le,
      by rw [hfr]; exact h.len_le, by simpa using h.target_ge, by simpa using h.target_le,
      by rw [hplay, push_buffering]; exact h.unplaced, by simpa using h.silent_playing⟩
  · exact ⟨by rw [hfr, hnw]; exact hkeys, by rw [hnw]; exact hmax,
      by rw [hfr]; exact hlen, by simpa using h.target_ge, by simpa using h.target_le,
      by rw [hplay, push_buffering]; exact h.unplaced, by simpa using h.silent_playing⟩
  · refine ⟨?_, by rw [hnw]; exact hmax, ?_, by simpa using h.target_ge,
      by simpa using h.target_le, ?_, by simpa using h.silent_playing⟩
    · rw [hfr, hnw]
      exact fun k hk => hkeys k (OrdMap.mem_splitOff.1 hk).1
    · rw [hfr]
      exact (OrdMap.len_splitOff_le _ _).trans hlen
    · rw [push_buffering]
      intro hb
      have := h.unplaced hb
      simp [hp] at this

theorem pop_at_wellFormed [Zero α] {jb : JitterBuffer α} (h : jb.WellFormed) {play : Nat}
    (hp : jb.play_ts = some play) (out : List α) : (jb.pop_at play out).2.2.WellFormed := by
  have hb : jb.buffering = false := by
    by_contra hb
    have := h.unplaced (by simpa using hb)
    simp [hp] at this
  have hsplit : ∀ k ∈ jb.frames.splitOff play, k ≤ jb.newest_end_ts := fun k hk =>
    h.keys_le k (OrdMap.mem_splitOff.1 hk).1
  have herase : ∀ k ∈ (jb.frames.splitOff play).erase play, k ≤ jb.newest_end_ts := fun k hk =>
    hsplit k (OrdMap.mem_erase.1 hk).1
  have hlen : (jb.frames.splitOff play).len ≤ MAX_FRAMES :=
    (OrdMap.len_splitOff_le _ _).trans h.len_le
  have hlen' : ((jb.frames.splitOff play).erase play).len ≤ MAX_FRAMES :=
    (OrdMap.len_erase_le _ _).trans hlen
  cases hg : jb.frames.get play with
  | some x =>
      by_cases hx : x = []
      · subst hx
        obtain ⟨st, he⟩ := pop_at_marker out hg
        rw [he]
        exact ⟨herase, h.newest_le, hlen', h.target_ge, h.target_le,
          fun hb' => by simp [hb] at hb', fun _ => hb⟩
      · obtain ⟨st, he⟩ := pop_at_audio out hg hx
        rw [he]
        exact ⟨herase, h.newest_le, hlen', h.target_ge, h.target_le,
          fun hb' => by simp [hb] at hb', fun hs => nomatch hs⟩
  | none =>
      cases hs : jb.silent with
      | true =>
          obtain ⟨st, he⟩ := pop_at_silent_gap out hg hs
          rw [he]
          exact ⟨hsplit, h.newest_le, hlen, h.target_ge, h.target_le,
            fun hb' => by simp [hb] at hb', fun _ => hb⟩
      | false =>
          obtain ⟨st, ⟨-, he⟩ | ⟨-, -, he⟩ | ⟨-, he⟩⟩ := pop_at_gap out hp hg hs <;> rw [he]
          · exact ⟨hsplit, h.newest_le, hlen, h.target_ge, h.target_le, h.unplaced,
              fun hs' => by simp [hs] at hs'⟩
          · exact ⟨hsplit, h.newest_le, hlen, clamp_target_ge jb _, clamp_target_le jb _,
              fun _ => rfl, fun hs' => by simp [hs] at hs'⟩
          · exact ⟨hsplit, h.newest_le, hlen, h.target_ge, h.target_le,
              fun hb' => by simp [hb] at hb', fun hs' => by simp [hs] at hs'⟩

/-- A buffer that starts playing is well-formed, placed at its first frame. -/
theorem start_wellFormed {jb : JitterBuffer α} (h : jb.WellFormed) (play : Nat) :
    ({ jb with buffering := false, play_ts := some play } : JitterBuffer α).WellFormed :=
  ⟨h.keys_le, h.newest_le, h.len_le, h.target_ge, h.target_le, fun hb => (nomatch hb),
    fun _ => rfl⟩

/-- The branches of `pop` as cases: it waits, it is stuck, or it plays at a position, either the
one it has or the first frame's. -/
theorem pop_cases [Zero α] {jb : JitterBuffer α} (h : jb.WellFormed) (out : List α) :
    (jb.buffering = true ∧ jb.pop out = (.Buffering, out.map (fun _ => 0), jb)) ∨
    (jb.buffering = false ∧ jb.play_ts = none ∧
      jb.pop out = (.Buffering, out.map (fun _ => 0), jb)) ∨
    (∃ play, jb.buffering = false ∧ jb.play_ts = some play ∧ jb.pop out = jb.pop_at play out) ∨
    (∃ play, jb.buffering = true ∧ jb.target_samples ≤ jb.buffered_samples ∧
      jb.frames.firstKey = some play ∧
      jb.pop out = { jb with buffering := false, play_ts := some play }.pop_at play out) := by
  cases hb : jb.buffering with
  | false =>
      cases hp : jb.play_ts with
      | none => exact Or.inr (Or.inl ⟨rfl, rfl, pop_stuck out hb hp⟩)
      | some play => exact Or.inr (Or.inr (Or.inl ⟨play, rfl, rfl, pop_playing out hb hp⟩))
  | true =>
      by_cases hw : jb.buffered_samples < jb.target_samples ∨ jb.frames.isEmpty = true
      · exact Or.inl ⟨rfl, pop_wait out hb hw⟩
      · push Not at hw
        cases hf : jb.frames.firstKey with
        | none =>
            exact absurd (OrdMap.isEmpty_iff.2 (OrdMap.firstKey_eq_none_iff.1 hf)) hw.2
        | some play =>
            exact Or.inr (Or.inr (Or.inr ⟨play, rfl, hw.1, rfl,
              pop_start out hb (h.unplaced hb) hw.1 hf⟩))

theorem pop_wellFormed [Zero α] {jb : JitterBuffer α} (h : jb.WellFormed) (out : List α) :
    (jb.pop out).2.2.WellFormed := by
  rcases pop_cases h out with ⟨-, he⟩ | ⟨-, -, he⟩ | ⟨play, -, hp, he⟩ | ⟨play, -, -, -, he⟩ <;>
    rw [he]
  · exact h
  · exact h
  · exact pop_at_wellFormed h hp out
  · exact pop_at_wellFormed (start_wellFormed h play) rfl out

theorem apply_wellFormed [Zero α] {jb : JitterBuffer α} (h : jb.WellFormed) {op : Op α}
    (hop : op.Typed) : (jb.apply op).WellFormed := by
  cases op with
  | push ts samples arrival => exact push_wellFormed h hop samples arrival
  | push_silence ts arrival => exact push_wellFormed h hop [] arrival
  | pop out => exact pop_wellFormed h out
  | adapt =>
      simp only [apply, adapt]
      split
      · exact ⟨h.keys_le, h.newest_le, h.len_le, clamp_target_ge jb _, clamp_target_le jb _,
          h.unplaced, h.silent_playing⟩
      · exact ⟨h.keys_le, h.newest_le, h.len_le, clamp_target_ge jb _, clamp_target_le jb _,
          h.unplaced, h.silent_playing⟩
  | set_bounds a b =>
      exact ⟨h.keys_le, h.newest_le, h.len_le, clamp_target_ge _ _, clamp_target_le _ _,
        h.unplaced, h.silent_playing⟩
  | reset =>
      exact ⟨fun k hk => absurd hk (OrdMap.not_mem_empty k), Nat.zero_le _, Nat.zero_le _,
        h.target_ge, h.target_le, fun _ => rfl, fun hs => nomatch hs⟩

/-! ### The phase over a run -/

theorem pop_phase [Zero α] {jb : JitterBuffer α} (hw : jb.WellFormed) (h : jb.Phase)
    (out : List α) : (jb.pop out).2.2.Phase := by
  have hat : ∀ {jb : JitterBuffer α} {play}, jb.play_ts = some play →
      (jb.pop_at play out).2.2.Phase := by
    intro jb play hp
    cases hg : jb.frames.get play with
    | some x =>
        by_cases hx : x = []
        · subst hx
          obtain ⟨st, he⟩ := pop_at_marker out hg
          rw [he]
          exact fun hn => nomatch hn
        · obtain ⟨st, he⟩ := pop_at_audio out hg hx
          rw [he]
          exact fun hn => nomatch hn
    | none =>
        cases hs : jb.silent with
        | true =>
            obtain ⟨st, he⟩ := pop_at_silent_gap out hg hs
            rw [he]
            exact fun hn => nomatch hn
        | false =>
            obtain ⟨st, ⟨-, he⟩ | ⟨-, -, he⟩ | ⟨-, he⟩⟩ := pop_at_gap out hp hg hs <;> rw [he]
            · exact fun hn => by simp [hp] at hn
            · exact fun _ => rfl
            · exact fun hn => nomatch hn
  rcases pop_cases hw out with ⟨-, he⟩ | ⟨-, -, he⟩ | ⟨play, -, hp, he⟩ | ⟨play, -, -, -, he⟩ <;>
    rw [he]
  · exact h
  · exact h
  · exact hat hp
  · exact hat rfl

/-- Once stuck, the buffer stays stuck until it is reset: neither audio nor time helps. -/
theorem stuck_forever [Zero α] {jb : JitterBuffer α} (hb : jb.buffering = false)
    (hp : jb.play_ts = none) {op : Op α} (hop : op ≠ .reset) :
    (jb.apply op).buffering = false ∧ (jb.apply op).play_ts = none := by
  have hpush : ∀ ts samples arrival, (jb.push ts samples arrival).buffering = false ∧
      (jb.push ts samples arrival).play_ts = none := by
    intro ts samples arrival
    refine ⟨by simpa using hb, ?_⟩
    rcases push_cases jb ts samples arrival with ⟨⟨p, hq, -⟩, -⟩ | ⟨-, -, -, hplay, -⟩ |
      ⟨⟨p, hq, -⟩, -⟩
    · simp [hp] at hq
    · rw [hplay, hp]
    · simp [hp] at hq
  cases op with
  | push ts samples arrival => exact hpush ts samples arrival
  | push_silence ts arrival => exact hpush ts [] arrival
  | pop out => simpa [apply, pop_stuck out hb hp] using ⟨hb, hp⟩
  | adapt =>
      simp only [apply, adapt]
      split <;> exact ⟨hb, hp⟩
  | set_bounds a b => exact ⟨hb, hp⟩
  | reset => exact absurd rfl hop

end SoundPush.JitterBuffer
