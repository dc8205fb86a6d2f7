/-
`JitterTurn` -- one frame of a stream before each pop.

While the sender is silent no packet arrives and the playout position advances
by itself, one frame at a time. The sender then resumes with consecutive full
frames, one before each pop. This module says what such a turn keeps. With a
position, all that waits from there on is the stream's or waited before it began
(`Playing`); after an underrun the buffer fills with the stream (`Filling`); and
a jump that leaves nothing makes it stuck.
-/
import SoundPush.Media.JitterBounds

set_option autoImplicit false

namespace SoundPush.JitterBuffer

variable {α : Type*}

/-! ## 1. One frame before each pop -/

/-- Nothing but the first `n` frames of the stream lies at `q` or beyond. -/
def Clear (jb : JitterBuffer α) (cfg : JitterConfig) (st : Stream α) (n q : Nat) : Prop :=
  ∀ k ∈ jb.frames, q ≤ k → ∃ j < n, k = st.ts cfg j

/-- Before the `n`-th pop the buffer is not stuck. Where only the stream is left ahead of a
position, and the next pop does not give the position up, the position is not past the newest
frame of the stream and lies on its frame grid. -/
structure OnCourse (jb : JitterBuffer α) (st : Stream α) (n : Nat) : Prop where
  phase : jb.Phase
  placed : ∀ q, jb.play_ts = some q → jb.Clear jb.cfg st (n + 1) q →
    (jb.silent = true ∨ ∃ k ∈ jb.frames, q ≤ k) →
    q ≤ st.ts jb.cfg n ∧ jb.cfg.frame_samples ∣ st.ts jb.cfg n - q

/-- How many pops it takes at most to settle whether the stream is heard. A stream that starts
behind the position waits for what reaches further ahead. -/
def patience (jb : JitterBuffer α) (st : Stream α) : Nat :=
  20 * MAX_FRAMES +
    if jb.is_late st.start then 6 * (jb.buffered_samples / jb.cfg.frame_samples) else 0

section Turns

variable [Zero α]

/-- The next pop plays one of the stream's first `n + 1` frames: its position is that frame's
timestamp, and what comes out are that frame's samples. -/
def PlaysStream (jb : JitterBuffer α) (st : Stream α) (n : Nat) : Prop :=
  ∃ j ≤ n, jb.next_ts = some (st.ts jb.cfg j) ∧
    ∀ out, (jb.pop out).1 = .Played ∧ (jb.pop out).2.1 =
      (st.frame j).take out.length ++ List.replicate (out.length - (st.frame j).length) 0

/-- From one pop to the next: the pop, and the push of the stream's next frame. -/
def turn (jb : JitterBuffer α) (st : Stream α) (n : Nat) : JitterBuffer α :=
  (jb.pop []).2.2.push_next st (n + 1)

/-- The buffer at the `n`-th pop. -/
def at_pop (jb : JitterBuffer α) (st : Stream α) : Nat → JitterBuffer α
  | 0 => jb.push_next st 0
  | n + 1 => (jb.at_pop st n).turn st n

/-- The `n`-th pop plays a frame of the stream. -/
def PlaysResumed (jb : JitterBuffer α) (st : Stream α) (n : Nat) : Prop :=
  (jb.at_pop st n).PlaysStream st n

end Turns

/-- The configurations a receiver runs with: frames are not empty, every delay target lies within
the limit at which playout jumps, and that limit within the frame cap and the sample counts. -/
structure JitterConfigServed (cfg : JitterConfig) : Prop where
  frame_pos : 0 < cfg.frame_samples
  target_fits : max_target cfg ≤ jump_limit cfg
  cap_fits : jump_limit cfg < MAX_FRAMES * cfg.frame_samples
  sum_fits : jump_limit cfg + cfg.frame_samples ≤ U64_MAX

/-- Unless what waits ahead reaches beyond the limit at which playout jumps, the wait has a bound
that is the same for all streams and states. -/
theorem patience_le {jb : JitterBuffer α} {st : Stream α} (hserved : JitterConfigServed jb.cfg)
    (h : jb.is_late st.start = true → jb.buffered_samples ≤ jump_limit jb.cfg) :
    jb.patience st ≤ 26 * MAX_FRAMES := by
  unfold patience
  split
  · next hlate =>
      have hlt : jb.buffered_samples / jb.cfg.frame_samples < MAX_FRAMES :=
        (Nat.div_lt_iff_lt_mul hserved.frame_pos).2 (by
          have := h hlate
          have := hserved.cap_fits
          omega)
      omega
  · omega

/-! ## 2. What a turn keeps -/

/-- At position `q`, with the first `n` frames of the stream pushed: what waits from there on is
the stream's, or its key is one of `S`, the keys that waited before the stream began. -/
structure Carries (jb : JitterBuffer α) (cfg : JitterConfig) (st : Stream α) (S : Finset Nat)
    (n q : Nat) : Prop where
  cfg_eq : jb.cfg = cfg
  wf : jb.WellFormed
  playing : jb.buffering = false
  placed : jb.play_ts = some q
  fits : q ≤ U64_MAX
  known : ∀ k ∈ jb.frames, q ≤ k → k ∈ S ∨ ∃ j < n, k = st.ts cfg j
  stream : ∀ j < n, ∀ x, jb.frames.get (st.ts cfg j) = some x → q ≤ st.ts cfg j → x = st.frame j

/-- Before the `n`-th pop: frame `n` has been pushed, and unless it was late it is not lost, and
what lies ahead is within the limit at which playout jumps. -/
structure Playing (jb : JitterBuffer α) (cfg : JitterConfig) (st : Stream α) (S : Finset Nat)
    (n q : Nat) : Prop extends jb.Carries cfg st S (n + 1) q where
  within : q ≤ st.ts cfg n → jb.newest_end_ts - q ≤ jump_limit cfg
  newest_ge : q ≤ st.ts cfg n → st.ts cfg (n + 1) ≤ jb.newest_end_ts
  reaches : q ≤ st.ts cfg n → ∃ k ∈ jb.frames, st.ts cfg n ≤ k

/-- Before the `n`-th pop, after an underrun: the buffer fills with the stream
from frame `j₀` on. -/
structure Filling (jb : JitterBuffer α) (cfg : JitterConfig) (st : Stream α) (j₀ n : Nat) :
    Prop where
  cfg_eq : jb.cfg = cfg
  wf : jb.WellFormed
  waiting : jb.buffering = true
  from_le : j₀ ≤ n
  newest_ge : st.ts cfg (n + 1) ≤ jb.newest_end_ts
  only : ∀ k ∈ jb.frames, ∃ j ≤ n, j₀ ≤ j ∧ k = st.ts cfg j
  there : jb.frames.get (st.ts cfg j₀) = some (st.frame j₀)

section Turn

variable {jb jb' : JitterBuffer α} {st : Stream α} {cfg : JitterConfig} {S : Finset Nat}
  {n q r k : Nat}

@[simp] theorem Stream.ts_zero (st : Stream α) (cfg : JitterConfig) : st.ts cfg 0 = st.start := by
  simp [Stream.ts]

theorem Stream.ts_lt (st : Stream α) (hF : 0 < cfg.frame_samples) {i j : Nat} (h : i < j) :
    st.ts cfg i < st.ts cfg j := by
  have := st.ts_add_le cfg h
  omega

theorem Stream.ts_inj (st : Stream α) (hF : 0 < cfg.frame_samples) {i j : Nat}
    (h : st.ts cfg i = st.ts cfg j) : i = j := by
  rcases Nat.lt_trichotomy i j with hij | hij | hij
  · have := st.ts_lt hF hij
    omega
  · exact hij
  · have := st.ts_lt hF hij
    omega

/-- Two frames of the stream are whole frames apart. -/
theorem Stream.dvd_ts (st : Stream α) {i j : Nat} (h : i ≤ j) :
    cfg.frame_samples ∣ st.ts cfg j - st.ts cfg i := by
  obtain ⟨d, rfl⟩ := Nat.exists_eq_add_of_le h
  exact st.dvd_ts_sub cfg i d

/-- Further ahead, with fewer frames. -/
theorem Carries.moved (h : jb.Carries cfg st S n q) (hc : jb'.cfg = jb.cfg) (hw : jb'.WellFormed)
    (hb : jb'.buffering = false) (hp : jb'.play_ts = some r) (hr : r ≤ U64_MAX) (hle : q ≤ r)
    (hkeep : ∀ k x, jb'.frames.get k = some x → jb.frames.get k = some x) :
    jb'.Carries cfg st S n r := by
  refine ⟨hc.trans h.cfg_eq, hw, hb, hp, hr, fun k hk hrk => ?_, fun j hj x hx hrj => ?_⟩
  · obtain ⟨x, hx⟩ := OrdMap.mem_iff_get.1 hk
    exact h.known k (OrdMap.mem_iff_get.2 ⟨x, hkeep k x hx⟩) (hle.trans hrk)
  · exact h.stream j hj x (hkeep _ x hx) (hle.trans hrj)

theorem le_sat_add (h : q ≤ U64_MAX) (d : Nat) : q ≤ sat_add q d :=
  le_min (Nat.le_add_right q d) h

section Pop

variable [Zero α]

/-- A frame of the stream at the position is played. -/
theorem Carries.plays (h : jb.Carries cfg st S (n + 1) q) (hserved : JitterConfigServed cfg)
    (hfull : st.Full cfg) {j : Nat} (hj : j < n + 1) (hq : q = st.ts cfg j)
    (hmem : q ∈ jb.frames) : jb.PlaysStream st n := by
  obtain ⟨x, hx⟩ := OrdMap.mem_iff_get.1 hmem
  have hframe : x = st.frame j := h.stream j hj x (hq ▸ hx) hq.le
  refine ⟨j, by omega, ?_, fun out => ?_⟩
  · rw [next_ts, h.playing, if_neg Bool.false_ne_true, h.placed, hq, h.cfg_eq]
  · have hne := hfull.ne_nil hserved.frame_pos j
    obtain ⟨stats, he⟩ := pop_at_audio out hx (hframe ▸ hne)
    rw [pop_playing out h.playing h.placed, he, hframe]
    exact ⟨rfl, rfl⟩

/-- Anything else at the position is taken out, and the position moves by its length. -/
theorem Carries.pop_stray (h : jb.Carries cfg st S n q) (hmem : q ∈ jb.frames) :
    ∃ r, q ≤ r ∧ (jb.pop []).2.2.Carries cfg st S n r ∧ q ∉ (jb.pop []).2.2.frames ∧
      ∀ k ∈ (jb.pop []).2.2.frames, k ∈ jb.frames := by
  obtain ⟨x, hx⟩ := OrdMap.mem_iff_get.1 hmem
  have hw := pop_wellFormed h.wf ([] : List α)
  have hkeep : ∀ k x', (jb.pop []).2.2.frames.get k = some x' → jb.frames.get k = some x' :=
    fun k x' hk => get_pop hk
  have hmem' : ∀ k ∈ (jb.pop []).2.2.frames, k ∈ jb.frames := by
    intro k hk
    obtain ⟨x', hx'⟩ := OrdMap.mem_iff_get.1 hk
    exact OrdMap.mem_iff_get.2 ⟨x', hkeep k x' hx'⟩
  by_cases hne : x = []
  · subst hne
    obtain ⟨stats, he⟩ := pop_at_marker [] hx
    rw [pop_playing [] h.playing h.placed, he] at hw hkeep hmem' ⊢
    refine ⟨_, le_sat_add h.fits jb.cfg.frame_samples, h.moved rfl hw h.playing rfl
      (min_le_right _ _) (le_sat_add h.fits _) hkeep, ?_, hmem'⟩
    simp
  · obtain ⟨stats, he⟩ := pop_at_audio [] hx hne
    rw [pop_playing [] h.playing h.placed, he] at hw hkeep hmem' ⊢
    refine ⟨_, le_sat_add h.fits (jb.frame_len x), h.moved rfl hw h.playing rfl
      (min_le_right _ _) (le_sat_add h.fits _) hkeep, ?_, hmem'⟩
    simp

/-- A gap in silence. -/
theorem Carries.pop_silent_gap (h : jb.Carries cfg st S n q) (hmem : q ∉ jb.frames)
    (hs : jb.silent = true) :
    (jb.pop []).2.2.Carries cfg st S n (sat_add q cfg.frame_samples) ∧
      (jb.pop []).2.2.frames = jb.frames.splitOff q ∧ (jb.pop []).2.2.silent = true ∧
      (jb.pop []).2.2.newest_end_ts = jb.newest_end_ts := by
  have hw := pop_wellFormed h.wf ([] : List α)
  have hkeep : ∀ k x, (jb.pop []).2.2.frames.get k = some x → jb.frames.get k = some x :=
    fun k x hk => get_pop hk
  obtain ⟨stats, he⟩ := pop_at_silent_gap [] (OrdMap.get_eq_none_iff.2 hmem) hs
  rw [pop_playing [] h.playing h.placed, he, h.cfg_eq] at hw hkeep ⊢
  exact ⟨h.moved h.cfg_eq.symm hw h.playing rfl (min_le_right _ _) (le_sat_add h.fits _) hkeep,
    rfl, hs, rfl⟩

/-- A gap outside silence: the position is given up, because nothing lies ahead and the gap has
lasted, or held, or moves by a frame. -/
theorem Carries.pop_gap (h : jb.Carries cfg st S n q) (hmem : q ∉ jb.frames)
    (hs : jb.silent = false) :
    ((∀ k ∈ jb.frames, k < q) ∧ (jb.pop []).2.2.buffering = true ∧
      (jb.pop []).2.2.WellFormed ∧ (jb.pop []).2.2.cfg = cfg ∧
      ∀ k, k ∉ (jb.pop []).2.2.frames) ∨
    ∃ r, (jb.pop []).2.2.Carries cfg st S n r ∧
      (jb.pop []).2.2.frames = jb.frames.splitOff q ∧ (jb.pop []).2.2.silent = false ∧
      (jb.pop []).2.2.newest_end_ts = jb.newest_end_ts ∧
      (jb.pop []).2.2.consecutive_missing = jb.consecutive_missing + 1 ∧
      (r = q ∧ jb.consecutive_missing < MAX_CONCEAL_FRAMES ∧
          wrap_add (jb.newest_end_ts - q) cfg.frame_samples ≤ jb.target_samples ∨
        r = sat_add q cfg.frame_samples ∧
          (jb.consecutive_missing < MAX_CONCEAL_FRAMES ∨ ∃ k ∈ jb.frames, q ≤ k)) := by
  have hw := pop_wellFormed h.wf ([] : List α)
  have hkeep : ∀ k x, (jb.pop []).2.2.frames.get k = some x → jb.frames.get k = some x :=
    fun k x hk => get_pop hk
  obtain ⟨stats, ⟨⟨hcm, hhold⟩, he⟩ | ⟨-, hempty, he⟩ | ⟨⟨-, hcm⟩, he⟩⟩ :=
    pop_at_gap [] h.placed (OrdMap.get_eq_none_iff.2 hmem) hs
  · rw [pop_playing [] h.playing h.placed, he] at hw hkeep ⊢
    refine Or.inr ⟨q, h.moved rfl hw h.playing h.placed h.fits le_rfl hkeep, rfl, hs, rfl, rfl, ?_⟩
    exact Or.inl ⟨rfl, hcm, h.cfg_eq ▸ hhold⟩
  · rw [pop_playing [] h.playing h.placed, he] at hw hkeep ⊢
    have hnone := OrdMap.isEmpty_iff.1 hempty
    refine Or.inl ⟨fun k hk => ?_, rfl, hw, h.cfg_eq, hnone⟩
    by_contra hle
    exact hnone k (OrdMap.mem_splitOff.2 ⟨hk, by omega⟩)
  · rw [pop_playing [] h.playing h.placed, he, h.cfg_eq] at hw hkeep ⊢
    refine Or.inr ⟨_, h.moved h.cfg_eq.symm hw h.playing rfl (min_le_right _ _)
      (le_sat_add h.fits _) hkeep, rfl, hs, rfl, rfl, Or.inr ⟨rfl, hcm.imp_right fun hne => ?_⟩⟩
    by_contra hnone
    push Not at hnone
    refine Bool.false_ne_true (hne.symm.trans (OrdMap.isEmpty_iff.2 fun k hk => ?_))
    obtain ⟨hk, hle⟩ := OrdMap.mem_splitOff.1 hk
    -- Something is ahead, so this is no underrun.
    have := hnone k hk
    omega

end Pop

/-! ### The push -/

theorem push_next_keys (hc : jb.cfg = cfg) (hk : k ∈ (jb.push_next st n).frames) :
    k ∈ jb.frames ∨ k = st.ts cfg n := by
  obtain ⟨x, hx⟩ := OrdMap.mem_iff_get.1 hk
  rcases get_push hx with hx | ⟨rfl, -⟩
  · exact Or.inl (OrdMap.mem_iff_get.2 ⟨x, hx⟩)
  · exact Or.inr (by rw [hc])

/-- The frames that a push which is not late stores. -/
theorem Carries.get_stored (h : jb.Carries cfg st S n q) (hF : 0 < cfg.frame_samples)
    {x : Samples α}
    (hx : (jb.frames_with (st.ts cfg n) (st.frame n)).get k = some x) (hq : q ≤ k) :
    (k ∈ S ∨ ∃ j < n + 1, k = st.ts cfg j) ∧ ∀ j < n + 1, k = st.ts cfg j → x = st.frame j := by
  have hk := OrdMap.mem_iff_get.2 ⟨x, hx⟩
  rw [get_frames_with _ _ _ hk] at hx
  by_cases hkn : k = st.ts cfg n
  · rw [if_pos hkn] at hx
    refine ⟨Or.inr ⟨n, by omega, hkn⟩, fun j hj hkj => ?_⟩
    rw [st.ts_inj hF (hkj.symm.trans hkn)]
    exact (Option.some.inj hx).symm
  · rw [if_neg hkn] at hx
    refine ⟨?_, fun j hj hkj => ?_⟩
    · rcases h.known k (OrdMap.mem_iff_get.2 ⟨x, hx⟩) hq with hS | ⟨j, hj, hkj⟩
      · exact Or.inl hS
      · exact Or.inr ⟨j, by omega, hkj⟩
    · have hjn : j ≠ n := fun he => hkn (he ▸ hkj)
      exact h.stream j (by omega) x (hkj ▸ hx) (hkj ▸ hq)

/-- The push of the next frame: it is late or stored, and the position stays; or playout jumps, to
a frame that is left or to none. -/
theorem Carries.push (h : jb.Carries cfg st S n q) (hserved : JitterConfigServed cfg)
    (hfull : st.Full cfg) (hfits : st.ts cfg (n + 1) ≤ U64_MAX) :
    ((jb.push_next st n).Playing cfg st S n q ∧
      (st.ts cfg n < q ∨
        (jb.push_next st n).frames = jb.frames_with (st.ts cfg n) (st.frame n))) ∨
    (jump_limit cfg < max jb.newest_end_ts (st.ts cfg (n + 1)) - q ∧
      (¬ (jb.push_next st n).Phase ∨
        ∃ r, q ≤ r ∧ r ∈ (jb.push_next st n).frames ∧
          (jb.push_next st n).newest_end_ts - r ≤ jump_limit cfg ∧
          (jb.push_next st n).Playing cfg st S n r)) := by
  have hF := hserved.frame_pos
  have hc := h.cfg_eq
  have hts := st.ts_succ cfg n
  have hw : (jb.push_next st n).WellFormed := push_wellFormed h.wf (by rw [hc]; omega) _ _
  have hb : (jb.push_next st n).buffering = false := (push_buffering ..).trans h.playing
  have hc' : (jb.push_next st n).cfg = cfg := (push_next_cfg ..).trans hc
  have hnew : jb.newest_with (st.ts cfg n) (st.frame n)
      = max jb.newest_end_ts (st.ts cfg (n + 1)) := by
    have hlen : jb.frame_len (st.frame n) = cfg.frame_samples := by
      rw [Stream.Full.frame_len (hc.symm ▸ hfull), hc]
    rw [newest_with, hlen, hts, sat_add_eq (by omega)]
  have htarget : jb.target_samples ≤ jump_limit cfg :=
    (hc ▸ h.wf.target_le).trans hserved.target_fits
  have hpush := push_cases jb (st.ts jb.cfg n) (st.frame n) (st.arrival n)
  rw [hc] at hpush
  rcases hpush with ⟨⟨p, hp, hlt⟩, hfr, hpl, -⟩ | ⟨hle, hno, hfr, hpl, hnw⟩ |
    ⟨⟨p, hp, hle, hjump⟩, hfr, hpl, hnw⟩
  · -- late: nothing changes
    obtain rfl := Option.some.inj (h.placed.symm.trans hp)
    have hfr' : (jb.push_next st n).frames = jb.frames := by rw [push_next, hc, hfr]
    have hpl' : (jb.push_next st n).play_ts = some q := by rw [push_next, hc, hpl, hp]
    refine Or.inl ⟨⟨⟨hc', hw, hb, hpl', h.fits, fun k hk hqk => ?_, fun j hj x hx hqj => ?_⟩,
      fun hqn => ?_, fun hqn => ?_, fun hqn => ?_⟩, Or.inl hlt⟩
    · rcases h.known k (hfr' ▸ hk) hqk with hS | ⟨j, hj, hkj⟩
      · exact Or.inl hS
      · exact Or.inr ⟨j, by omega, hkj⟩
    · by_cases hjn : j = n
      · subst hjn
        omega
      · exact h.stream j (by omega) x (hfr' ▸ hx) hqj
    · omega
    · omega
    · omega
  · -- stored
    have hfr' : (jb.push_next st n).frames = jb.frames_with (st.ts cfg n) (st.frame n) := by
      rw [push_next, hc, hfr]
    have hpl' : (jb.push_next st n).play_ts = some q := by rw [push_next, hc, hpl, h.placed]
    have hnw' : (jb.push_next st n).newest_end_ts = max jb.newest_end_ts (st.ts cfg (n + 1)) := by
      rw [push_next, hc, hnw, hnew]
    refine Or.inl ⟨⟨⟨hc', hw, hb, hpl', h.fits, fun k hk hqk => ?_, fun j hj x hx hqj => ?_⟩,
      fun hqn => ?_, fun hqn => ?_, fun hqn => ?_⟩, Or.inr hfr'⟩
    · obtain ⟨x, hx⟩ := OrdMap.mem_iff_get.1 (hfr' ▸ hk)
      exact (h.get_stored hF hx hqk).1
    · exact (h.get_stored hF (hfr' ▸ hx) hqj).2 j hj rfl
    · rw [hnw', ← hnew]
      by_contra hlt
      exact hno ⟨q, h.placed, hqn, by rw [hc]; omega⟩
    · rw [hnw']
      exact le_max_right _ _
    · rw [hfr']
      exact exists_mem_frames_with jb _ _ (Or.inl rfl)
  · -- playout jumps
    obtain rfl := Option.some.inj (h.placed.symm.trans hp)
    rw [hc, hnew] at hjump
    refine Or.inr ⟨hjump, ?_⟩
    have hfr' : (jb.push_next st n).frames =
        (jb.frames_with (st.ts cfg n) (st.frame n)).splitOff
          (jb.jump_to (st.ts cfg n) (st.frame n)) := by rw [push_next, hc, hfr]
    have hpl' : (jb.push_next st n).play_ts = (jb.push_next st n).frames.firstKey := by
      rw [hfr', push_next, hc, hpl]
    have hnw' : (jb.push_next st n).newest_end_ts = max jb.newest_end_ts (st.ts cfg (n + 1)) := by
      rw [push_next, hc, hnw, hnew]
    have hcut : jb.jump_to (st.ts cfg n) (st.frame n)
        = max jb.newest_end_ts (st.ts cfg (n + 1)) - jb.target_samples := by rw [jump_to, hnew]
    cases hfirst : (jb.push_next st n).frames.firstKey with
    | none =>
        refine Or.inl fun hphase => ?_
        rw [hphase (hpl'.trans hfirst)] at hb
        cases hb
    | some r =>
        have hr := (OrdMap.firstKey_eq_some_iff.1 hfirst).1
        have hrcut : jb.jump_to (st.ts cfg n) (st.frame n) ≤ r := by
          rw [hfr'] at hr
          exact (OrdMap.mem_splitOff.1 hr).2
        have hqr : q ≤ r := by omega
        have hget : ∀ k x, (jb.push_next st n).frames.get k = some x →
            (jb.frames_with (st.ts cfg n) (st.frame n)).get k = some x := by
          intro k x hx
          rw [hfr', OrdMap.get_splitOff] at hx
          split at hx
          · exact hx
          · cases hx
        have hspan : (jb.push_next st n).newest_end_ts - r ≤ jump_limit cfg := by
          rw [hnw']
          omega
        refine Or.inr ⟨r, hqr, hr, hspan, ⟨⟨hc', hw, hb, hpl'.trans hfirst,
          (hw.keys_le r hr).trans hw.newest_le, fun k hk hrk => ?_, fun j hj x hx hrj => ?_⟩,
          fun _ => hspan, fun _ => ?_, fun hrn => ?_⟩⟩
        · obtain ⟨x, hx⟩ := OrdMap.mem_iff_get.1 hk
          exact (h.get_stored hF (hget k x hx) (hqr.trans hrk)).1
        · exact (h.get_stored hF (hget _ x hx) (hqr.trans hrj)).2 j hj rfl
        · rw [hnw']
          exact le_max_right _ _
        · -- the frame that the cap leaves at or past frame `n` is past the cut as well
          obtain ⟨k, hk, hle'⟩ := exists_mem_frames_with jb (st.ts cfg n) (st.frame n) (Or.inl rfl)
          rw [hfr']
          exact ⟨k, OrdMap.mem_splitOff.2 ⟨hk, by omega⟩, hle'⟩

end Turn

/-! ### Filling -/

section Fill

variable {jb : JitterBuffer α} {st : Stream α} {cfg : JitterConfig} {j₀ n : Nat}

/-- The first frame after an underrun, which leaves nothing behind. -/
theorem filling_first (hc : jb.cfg = cfg) (hw : jb.WellFormed) (hb : jb.buffering = true)
    (hnone : ∀ k, k ∉ jb.frames) (hfull : st.Full cfg) (hfits : st.ts cfg (n + 1) ≤ U64_MAX) :
    (jb.push_next st n).Filling cfg st n n := by
  have hts := st.ts_succ cfg n
  obtain ⟨hfr, -, hnw⟩ := push_next_unplaced st hc (hw.unplaced hb) n
  have honly : ∀ k ∈ (jb.push_next st n).frames, k = st.ts cfg n := by
    intro k hk
    exact (push_next_keys hc hk).resolve_left (hnone k)
  refine ⟨(push_next_cfg ..).trans hc, push_wellFormed hw (by rw [hc]; omega) _ _,
    (push_buffering ..).trans hb, le_rfl, ?_, fun k hk => ⟨n, le_rfl, le_rfl, honly k hk⟩, ?_⟩
  · have hlen : jb.frame_len (st.frame n) = cfg.frame_samples := by
      rw [Stream.Full.frame_len (hc.symm ▸ hfull), hc]
    rw [hnw, newest_with, hlen, hts, sat_add_eq (by omega)]
    exact le_max_right _ _
  · obtain ⟨k, hk, -⟩ := exists_mem_frames_with jb (st.ts cfg n) (st.frame n) (Or.inl rfl)
    rw [← hfr] at hk
    obtain rfl := honly k hk
    rw [hfr] at hk ⊢
    rw [get_frames_with _ _ _ hk, if_pos rfl]

variable [Zero α]

/-- While the buffer fills, the pop starts with the first frame of the stream that is there, or too
little is there for the target, and then the cap is far away. -/
theorem Filling.turn (h : jb.Filling cfg st j₀ n) (hserved : JitterConfigServed cfg)
    (hfull : st.Full cfg) (hfits : st.ts cfg (n + 1 + 1) ≤ U64_MAX) (hno : ¬ jb.PlaysStream st n) :
    n + 1 < j₀ + MAX_FRAMES ∧ (jb.turn st n).Filling cfg st j₀ (n + 1) := by
  have hF := hserved.frame_pos
  have hp := h.wf.unplaced h.waiting
  have hfirst : jb.frames.firstKey = some (st.ts cfg j₀) := by
    refine OrdMap.firstKey_eq_some_iff.2 ⟨OrdMap.mem_iff_get.2 ⟨_, h.there⟩, fun k hk => ?_⟩
    obtain ⟨j, -, hj, rfl⟩ := h.only k hk
    exact st.ts_le cfg hj
  have hbuffered : jb.buffered_samples = jb.newest_end_ts - st.ts cfg j₀ := by
    simp only [buffered_samples, hp, hfirst, Option.elim_some]
  by_cases hstart : jb.target_samples ≤ jb.buffered_samples
  · -- playout starts at the first frame, which is the stream's
    refine absurd ⟨j₀, h.from_le, ?_, fun out => ?_⟩ hno
    · rw [next_ts, h.waiting, if_pos rfl, start_playout, hp, h.cfg_eq]
      exact hfirst
    · have hget : ({ jb with buffering := false, play_ts := some (st.ts cfg j₀) } :
          JitterBuffer α).frames.get (st.ts cfg j₀) = some (st.frame j₀) := h.there
      obtain ⟨stats, he⟩ := pop_at_audio out hget (hfull.ne_nil hF j₀)
      rw [pop_start out h.waiting hp hstart hfirst, he]
      exact ⟨rfl, rfl⟩
  · have hwait := pop_wait [] h.waiting (Or.inl (Nat.lt_of_not_le hstart))
    have hturn : jb.turn st n = jb.push_next st (n + 1) := by rw [JitterBuffer.turn, hwait]
    -- what is buffered spans less than the largest target
    have hspan : n + 1 < j₀ + MAX_FRAMES := by
      by_contra hge
      have hcap := hserved.cap_fits
      have htarget := (h.cfg_eq ▸ h.wf.target_le).trans hserved.target_fits
      have hadd := st.ts_add cfg j₀ MAX_FRAMES
      have hle := st.ts_le cfg (show j₀ + MAX_FRAMES ≤ n + 1 by omega)
      have hnewest := h.newest_ge
      omega
    have hts := st.ts_succ cfg (n + 1)
    obtain ⟨hfr, -, hnw⟩ := push_next_unplaced st h.cfg_eq hp (n + 1)
    have honly : ∀ k ∈ jb.frames.insert (st.ts cfg (n + 1)) (st.frame (n + 1)),
        ∃ j ≤ n + 1, j₀ ≤ j ∧ k = st.ts cfg j := by
      intro k hk
      rcases OrdMap.mem_insert.1 hk with rfl | hk
      · have := h.from_le
        exact ⟨n + 1, le_rfl, by omega, rfl⟩
      · obtain ⟨j, hj, hj₀, hkj⟩ := h.only k hk
        exact ⟨j, by omega, hj₀, hkj⟩
    have hstays : st.ts cfg j₀ ∈ jb.frames_with (st.ts cfg (n + 1)) (st.frame (n + 1)) := by
      refine mem_frames_with (Or.inr (OrdMap.mem_iff_get.2 ⟨_, h.there⟩)) ?_
      refine OrdMap.splitOff_len_le hF le_rfl fun k hk _ => ?_
      obtain ⟨j, hj, hj₀, rfl⟩ := honly k hk
      have hadd := st.ts_add cfg j₀ MAX_FRAMES
      have hlt : st.ts cfg j < st.ts cfg (j₀ + MAX_FRAMES) := st.ts_lt hF (by omega)
      exact ⟨st.dvd_ts hj₀, by omega⟩
    rw [hturn]
    refine ⟨hspan, (push_next_cfg ..).trans h.cfg_eq,
      push_wellFormed h.wf (by rw [h.cfg_eq]; omega) _ _, (push_buffering ..).trans h.waiting,
      h.from_le.trans (Nat.le_succ n), ?_, fun k hk => ?_, ?_⟩
    · have hlen : jb.frame_len (st.frame (n + 1)) = cfg.frame_samples := by
        rw [Stream.Full.frame_len (h.cfg_eq.symm ▸ hfull), h.cfg_eq]
      rw [hnw, newest_with, hlen, hts, sat_add_eq (by omega)]
      exact le_max_right _ _
    · rw [hfr] at hk
      exact honly k (OrdMap.mem_of_mem_dropFirst hk)
    · have hne : st.ts cfg j₀ ≠ st.ts cfg (n + 1) := by
        intro he
        have := st.ts_inj hF he
        have := h.from_le
        omega
      rw [hfr, get_frames_with _ _ _ hstays, if_neg hne, h.there]

end Fill

/-! ### The phases of the resumption -/

/-- What the buffer can be like before the `n`-th pop. -/
inductive Tracked (jb : JitterBuffer α) (cfg : JitterConfig) (st : Stream α) (S : Finset Nat)
    (n : Nat) : Prop
  | playing {q : Nat} (h : jb.Playing cfg st S n q)
  | filling {j₀ : Nat} (h : jb.Filling cfg st j₀ n)
  | stuck (h : ¬ jb.Phase)

section Phases

variable [Zero α] {jb : JitterBuffer α} {st : Stream α} {cfg : JitterConfig} {S : Finset Nat}
  {n q : Nat}

omit [Zero α] in
theorem not_phase_iff : ¬ jb.Phase ↔ jb.play_ts = none ∧ jb.buffering = false := by
  rw [Phase, Classical.not_imp, Bool.not_eq_true]

/-- Stuck, the buffer stays stuck through pops and pushes. -/
theorem turn_stuck (h : ¬ jb.Phase) : ¬ (jb.turn st n).Phase := by
  obtain ⟨hp, hb⟩ := not_phase_iff.1 h
  rw [turn, pop_stuck [] hb hp]
  exact not_phase_iff.2 (stuck_forever hb hp (show Op.push (st.ts jb.cfg (n + 1))
    (st.frame (n + 1)) (st.arrival (n + 1)) ≠ .reset by simp)).symm

/-- A pop with a position that plays no frame of the stream moves on, or is an underrun. -/
theorem Carries.pop (h : jb.Carries cfg st S (n + 1) q) :
    ((jb.pop []).2.2.buffering = true ∧ (jb.pop []).2.2.WellFormed ∧ (jb.pop []).2.2.cfg = cfg ∧
      ∀ k, k ∉ (jb.pop []).2.2.frames) ∨
    ∃ r, (jb.pop []).2.2.Carries cfg st S (n + 1) r := by
  by_cases hmem : q ∈ jb.frames
  · obtain ⟨r, -, hr, -⟩ := h.pop_stray hmem
    exact Or.inr ⟨r, hr⟩
  · by_cases hs : jb.silent = true
    · exact Or.inr ⟨_, (h.pop_silent_gap hmem hs).1⟩
    · rcases h.pop_gap hmem (Bool.eq_false_of_not_eq_true hs) with ⟨-, hunder⟩ | ⟨r, hr, -⟩
      · exact Or.inl hunder
      · exact Or.inr ⟨r, hr⟩

theorem Tracked.turn (h : jb.Tracked cfg st S n) (hserved : JitterConfigServed cfg)
    (hfull : st.Full cfg) (hfits : st.ts cfg (n + 1 + 1) ≤ U64_MAX) (hno : ¬ jb.PlaysStream st n) :
    (jb.turn st n).Tracked cfg st S (n + 1) := by
  cases h with
  | playing h =>
      rcases h.toCarries.pop with ⟨hb, hw, hc, hnone⟩ | ⟨r, hr⟩
      · exact .filling (filling_first hc hw hb hnone hfull hfits)
      · have hpush := hr.push hserved hfull hfits
        rcases hpush with ⟨hplaying, -⟩ | ⟨-, hstuck | ⟨r', -, -, -, hplaying⟩⟩
        · exact .playing hplaying
        · exact .stuck hstuck
        · exact .playing hplaying
  | filling h => exact .filling (h.turn hserved hfull hfits hno).2
  | stuck h => exact .stuck (turn_stuck h)

end Phases

end SoundPush.JitterBuffer
