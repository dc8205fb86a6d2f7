/-
`JitterCourse` -- where the turns of a resumed stream lead.

Whatever still waits ahead of the position when the sender resumes (audio,
further markers, frames of any length) is passed first, and each of these frames
may move the position by something else than a frame. Once only the stream is
left ahead, everything is decided: a position past the stream makes every frame
late, a position off the stream's frame grid passes every frame between two
pops, and in both cases this never ends, because the sender and the playout then
advance in step (`Lost.turn`). A position on the grid reaches a frame of the
stream, because what is in the way gets less with every turn
(`Unheard.not_playing`).
-/
import SoundPush.Media.JitterTurn

set_option autoImplicit false

namespace SoundPush.JitterBuffer

variable {α : Type*}

/-! ## 1. Never heard

Three things go wrong, and each of them keeps going wrong. -/

/-- No frame of the stream will be played from the `n`-th pop on: the buffer is stuck; or the
position runs ahead of the stream in silence; or only the stream is left, off the grid of the
position. -/
inductive Lost (jb : JitterBuffer α) (cfg : JitterConfig) (st : Stream α) (S : Finset Nat)
    (n : Nat) : Prop
  | stuck (h : ¬ jb.Phase)
  | late {q : Nat} (h : jb.Carries cfg st S (n + 1) q) (silent : jb.silent = true)
      (empty : ∀ k ∈ jb.frames, k < q) (behind : st.ts cfg n < q)
  | off_grid {q : Nat} (h : jb.Playing cfg st S n q) (clear : jb.Clear cfg st (n + 1) q)
      (on_time : q ≤ st.ts cfg n) (off : ¬ cfg.frame_samples ∣ st.ts cfg n - q)

section Never

variable [Zero α] {jb : JitterBuffer α} {st : Stream α} {cfg : JitterConfig} {S : Finset Nat}
  {n q : Nat}

omit [Zero α] in
/-- Off the grid of the stream, nothing of it is at the position. -/
theorem not_mem_of_off (hclear : jb.Clear cfg st (n + 1) q)
    (hoff : ¬ cfg.frame_samples ∣ st.ts cfg n - q) : q ∉ jb.frames := by
  intro hq
  obtain ⟨j, hj, rfl⟩ := hclear q hq le_rfl
  exact hoff (st.dvd_ts (by omega))

theorem Lost.turn (h : jb.Lost cfg st S n) (hserved : JitterConfigServed cfg) (hfull : st.Full cfg)
    (hfits : st.ts cfg (n + 1 + 1) ≤ U64_MAX) : (jb.turn st n).Lost cfg st S (n + 1) := by
  have hF := hserved.frame_pos
  have hts := st.ts_succ cfg n
  have hts' := st.ts_succ cfg (n + 1)
  cases h with
  | stuck h => exact .stuck (turn_stuck h)
  | @late q h hs hempty hbehind =>
      have hmem : q ∉ jb.frames := fun hq => Nat.lt_irrefl q (hempty q hq)
      obtain ⟨hr, hframes, hs', -⟩ := h.pop_silent_gap hmem hs
      have hlate : st.ts cfg (n + 1) < sat_add q cfg.frame_samples := by
        unfold sat_add
        omega
      have hempty' : ∀ k, k ∉ (jb.pop []).2.2.frames := by
        intro k hk
        rw [hframes] at hk
        obtain ⟨hk, hle⟩ := OrdMap.mem_splitOff.1 hk
        have := hempty k hk
        omega
      rcases hr.push hserved hfull hfits with ⟨hplaying, -⟩ | ⟨-, hstuck | ⟨r, hle, hmem', -⟩⟩
      · refine .late hplaying.toCarries ((push_silent ..).trans hs') (fun k hk => ?_) hlate
        rcases push_next_keys hr.cfg_eq hk with hk | rfl
        · exact absurd hk (hempty' k)
        · exact hlate
      · exact .stuck hstuck
      · -- a jump would land on the frame that was too late for it
        rcases push_next_keys hr.cfg_eq hmem' with hk | rfl
        · exact absurd hk (hempty' r)
        · omega
  | @off_grid q h hclear hle hoff =>
      have hmem := not_mem_of_off hclear hoff
      have hwithin := h.within hle
      have hnewest := h.newest_ge hle
      have hsat : sat_add q cfg.frame_samples = q + cfg.frame_samples := sat_add_eq (by omega)
      have hahead : ∃ k ∈ jb.frames, q ≤ k := by
        obtain ⟨k, hk, hnk⟩ := h.reaches hle
        exact ⟨k, hk, hle.trans hnk⟩
      have htarget := (h.cfg_eq ▸ h.wf.target_le).trans hserved.target_fits
      have hsum := hserved.sum_fits
      -- the position moves by a frame or is held below the target, so playout is not about to jump
      have hpop : ∃ r, (jb.pop []).2.2.Carries cfg st S (n + 1) r ∧
          (jb.pop []).2.2.frames = jb.frames.splitOff q ∧
          (jb.pop []).2.2.newest_end_ts = jb.newest_end_ts ∧
          (r = q ∧ jb.newest_end_ts - q + cfg.frame_samples ≤ jump_limit cfg ∨
            r = q + cfg.frame_samples) := by
        by_cases hs : jb.silent = true
        · obtain ⟨hr, hframes, -, hn⟩ := h.toCarries.pop_silent_gap hmem hs
          exact ⟨_, hr, hframes, hn, Or.inr hsat⟩
        · rcases h.toCarries.pop_gap hmem (Bool.eq_false_of_not_eq_true hs) with
            ⟨hempty, -⟩ | ⟨r, hr, hframes, -, hn, -, ⟨hrq, -, hhold⟩ | ⟨hrq, -⟩⟩
          · obtain ⟨k, hk, hqk⟩ := hahead
            have := hempty k hk
            omega
          · rw [wrap_add_eq (by omega)] at hhold
            exact ⟨r, hr, hframes, hn, Or.inl ⟨hrq, by omega⟩⟩
          · exact ⟨r, hr, hframes, hn, Or.inr (hrq.trans hsat)⟩
      obtain ⟨r, hr, hframes, hn, hmove⟩ := hpop
      have hoff' : ¬ cfg.frame_samples ∣ st.ts cfg (n + 1) - r := by
        intro hdvd
        rcases hmove with ⟨rfl, -⟩ | rfl
        · have heq : st.ts cfg n - r = st.ts cfg (n + 1) - r - cfg.frame_samples := by omega
          exact hoff (heq ▸ Nat.dvd_sub hdvd (Nat.dvd_refl _))
        · have heq : st.ts cfg n - q = st.ts cfg (n + 1) - (q + cfg.frame_samples) := by omega
          exact hoff (heq ▸ hdvd)
      rcases hr.push hserved hfull hfits with ⟨hplaying, -⟩ | ⟨hjump, -⟩
      · refine .off_grid hplaying (fun k hk hrk => ?_) (by omega) hoff'
        rcases push_next_keys hr.cfg_eq hk with hk | rfl
        · rw [hframes] at hk
          obtain ⟨hk, hqk⟩ := OrdMap.mem_splitOff.1 hk
          obtain ⟨j, hj, hkj⟩ := hclear k hk hqk
          exact ⟨j, by omega, hkj⟩
        · exact ⟨n + 1, by omega, rfl⟩
      · rw [hn] at hjump
        omega

omit [Zero α] in
/-- Off course means lost. -/
theorem Tracked.lost (h : jb.Tracked cfg st S n) (hoff : ¬ jb.OnCourse st n) :
    jb.Lost cfg st S n := by
  cases h with
  | stuck h => exact .stuck h
  | filling h =>
      refine absurd ⟨fun _ => h.waiting, fun q hq => ?_⟩ hoff
      rw [h.wf.unplaced h.waiting] at hq
      cases hq
  | @playing q h =>
      have hphase : jb.Phase := fun hp => by simp [h.placed] at hp
      by_cases hcourse : jb.Clear cfg st (n + 1) q →
          (jb.silent = true ∨ ∃ k ∈ jb.frames, q ≤ k) →
          q ≤ st.ts cfg n ∧ cfg.frame_samples ∣ st.ts cfg n - q
      · refine absurd ⟨hphase, fun p hp => ?_⟩ hoff
        obtain rfl := Option.some.inj (h.placed.symm.trans hp)
        rw [h.cfg_eq]
        exact hcourse
      · push Not at hcourse
        obtain ⟨hclear, hgoes, hmiss⟩ := hcourse
        by_cases hle : q ≤ st.ts cfg n
        · exact .off_grid h hclear hle (hmiss hle)
        · -- the stream is behind the position, so nothing is left ahead of it
          have hempty : ∀ k ∈ jb.frames, k < q := by
            intro k hk
            by_contra hqk
            obtain ⟨j, hj, rfl⟩ := hclear k hk (by omega)
            have := st.ts_le cfg (show j ≤ n by omega)
            omega
          refine .late h.toCarries (hgoes.resolve_right ?_) hempty (by omega)
          rintro ⟨k, hk, hqk⟩
          have := hempty k hk
          omega

end Never

/-! ## 2. Heard

Suppose that the buffer is on course at each of a number of pops and none of them plays a frame of
the stream. The further the turns go, the less is left in the way. -/

/-- On course at every pop up to the `T`-th, and the stream is not heard. -/
structure Unheard [Zero α] (jb : JitterBuffer α) (cfg : JitterConfig) (st : Stream α) (T : Nat) :
    Prop where
  served : JitterConfigServed cfg
  full : st.Full cfg
  room : st.ts cfg (T + 2) ≤ U64_MAX
  unplayed : ∀ n ≤ T, ¬ jb.PlaysResumed st n
  course : ∀ n ≤ T, (jb.at_pop st n).OnCourse st n

/-- The frames in the way that are not the stream's. -/
def strays (jb : JitterBuffer α) (cfg : JitterConfig) (st : Stream α) (S : Finset Nat) (n q : Nat) :
    Finset Nat :=
  S.filter fun k => k ∈ jb.frames ∧ q ≤ k ∧ ∀ j < n, k ≠ st.ts cfg j

/-- What is left in the way up to the timestamp `N`, with the number of times that the position can
still be held. -/
def toil (jb : JitterBuffer α) (cfg : JitterConfig) (st : Stream α) (S : Finset Nat) (N n q : Nat) :
    Nat :=
  (MAX_CONCEAL_FRAMES + 1) * ((N - q + (cfg.frame_samples - 1)) / cfg.frame_samples
    + (jb.strays cfg st S n q).card) + (MAX_CONCEAL_FRAMES - jb.consecutive_missing)

section Toil

variable {jb jb' : JitterBuffer α} {st : Stream α} {cfg : JitterConfig} {S : Finset Nat}
  {N n q q' : Nat}

theorem mem_strays {k : Nat} : k ∈ jb.strays cfg st S n q ↔
    k ∈ S ∧ k ∈ jb.frames ∧ q ≤ k ∧ ∀ j < n, k ≠ st.ts cfg j := Finset.mem_filter

theorem strays_subset (hq : q ≤ q') (hkeys : ∀ k ∈ jb'.frames, k ∈ jb.frames ∨ k = st.ts cfg n) :
    jb'.strays cfg st S (n + 1) q' ⊆ jb.strays cfg st S n q := by
  intro k hk
  obtain ⟨hS, hmem, hle, hne⟩ := mem_strays.1 hk
  exact mem_strays.2 ⟨hS, (hkeys k hmem).resolve_right (hne n (by omega)), hq.trans hle,
    fun j hj => hne j (by omega)⟩

/-- A frame further, one frame less is left up to `N`. -/
theorem frames_left_lt {F : Nat} (hF : 0 < F) (hN : N ≤ U64_MAX) (hq : q < N) :
    (N - sat_add q F + (F - 1)) / F < (N - q + (F - 1)) / F := by
  unfold sat_add
  by_cases hle : q + F ≤ N
  · have heq : N - q + (F - 1) = (N - min (q + F) U64_MAX + (F - 1)) + F := by omega
    rw [heq, Nat.add_div_right _ hF]
    exact Nat.lt_succ_self _
  · have hzero : N - min (q + F) U64_MAX + (F - 1) < F := by omega
    rw [Nat.div_eq_of_lt hzero]
    exact Nat.div_pos (by omega) hF

theorem frames_left_le {F : Nat} (hq : q ≤ q') :
    (N - q' + (F - 1)) / F ≤ (N - q + (F - 1)) / F :=
  Nat.div_le_div_right (by omega)

/-- A turn that passes a frame length, or takes a stray frame out, or holds the position once more,
leaves less. -/
theorem toil_lt (hq : q ≤ q') (hkeys : ∀ k ∈ jb'.frames, k ∈ jb.frames ∨ k = st.ts cfg n)
    (h : (N - q' + (cfg.frame_samples - 1)) / cfg.frame_samples <
        (N - q + (cfg.frame_samples - 1)) / cfg.frame_samples ∨
      (∃ k ∈ jb.strays cfg st S n q, k ∉ jb'.strays cfg st S (n + 1) q') ∨
      jb.consecutive_missing < MAX_CONCEAL_FRAMES ∧
        jb'.consecutive_missing = jb.consecutive_missing + 1) :
    jb'.toil cfg st S N (n + 1) q' < jb.toil cfg st S N n q := by
  have hsub := strays_subset (S := S) hq hkeys
  have hcard := Finset.card_le_card hsub
  have hleft := frames_left_le (N := N) (F := cfg.frame_samples) hq
  unfold toil MAX_CONCEAL_FRAMES at *
  rcases h with hless | ⟨k, hk, hk'⟩ | hheld
  · omega
  · have := Finset.card_lt_card ((Finset.ssubset_iff_of_subset hsub).2 ⟨k, hk, hk'⟩)
    omega
  · omega

end Toil

section Heard

variable [Zero α] {jb : JitterBuffer α} {st : Stream α} {cfg : JitterConfig} {S : Finset Nat}
  {T N n q : Nat}

theorem Unheard.fits (h : jb.Unheard cfg st T) (hn : n ≤ T) : st.ts cfg (n + 1 + 1) ≤ U64_MAX :=
  (st.ts_le cfg (by omega)).trans h.room

/-- After a pop with a position, the next push keeps one. -/
theorem Unheard.next (h : jb.Unheard cfg st T) (hn : n < T) {r : Nat}
    (hr : ((jb.at_pop st n).pop []).2.2.Carries cfg st S (n + 1) r) :
    ∃ q', r ≤ q' ∧ (jb.at_pop st (n + 1)).Playing cfg st S (n + 1) q' ∧
      (q' ∈ (jb.at_pop st (n + 1)).frames ∨ q' = r ∧ (st.ts cfg (n + 1) < r ∨
        (jb.at_pop st (n + 1)).frames = ((jb.at_pop st n).pop []).2.2.frames_with
          (st.ts cfg (n + 1)) (st.frame (n + 1)))) := by
  have hpush := hr.push h.served h.full (h.fits hn.le)
  rcases hpush with ⟨hp, hfr⟩ | ⟨-, hstuck | ⟨q', hle, hmem, -, hp⟩⟩
  · exact ⟨r, le_rfl, hp, Or.inr ⟨rfl, hfr⟩⟩
  · exact absurd (h.course (n + 1) hn).phase hstuck
  · exact ⟨q', hle, hp, Or.inl hmem⟩

/-- Only the stream is left ahead, and stays so. -/
theorem clear_turn {r q' : Nat} (hr : ((jb.at_pop st n).pop []).2.2.Carries cfg st S (n + 1) r)
    (hclear : (jb.at_pop st n).Clear cfg st (n + 1) q)
    (hframes : ((jb.at_pop st n).pop []).2.2.frames = (jb.at_pop st n).frames.splitOff q) :
    (jb.at_pop st (n + 1)).Clear cfg st (n + 1 + 1) q' := by
  intro k hk _
  rcases push_next_keys hr.cfg_eq hk with hk | rfl
  · rw [hframes] at hk
    obtain ⟨hk, hqk⟩ := OrdMap.mem_splitOff.1 hk
    obtain ⟨j, hj, hkj⟩ := hclear k hk hqk
    exact ⟨j, by omega, hkj⟩
  · exact ⟨n + 1, by omega, rfl⟩

/-- Nothing of the stream is at an unheard position. -/
theorem Unheard.not_mem (h : jb.Unheard cfg st T) (hn : n ≤ T)
    (hp : (jb.at_pop st n).Playing cfg st S n q)
    (hclear : (jb.at_pop st n).Clear cfg st (n + 1) q) : q ∉ (jb.at_pop st n).frames := by
  intro hmem
  obtain ⟨j, hj, hq⟩ := hclear q hmem le_rfl
  exact h.unplayed n hn (hp.toCarries.plays h.served h.full hj hq hmem)

/-- The buffer cannot go on filling. -/
theorem Unheard.not_filling (h : jb.Unheard cfg st T) {j₀ : Nat}
    (hf : (jb.at_pop st n).Filling cfg st j₀ n) (hn : n ≤ T) (hT : j₀ + MAX_FRAMES ≤ T) :
    False := by
  induction hd : j₀ + MAX_FRAMES - n using Nat.strongRecOn generalizing n with
  | ind d ih =>
      obtain ⟨hlt, hnext⟩ := hf.turn h.served h.full (h.fits hn) (h.unplayed n hn)
      exact ih (j₀ + MAX_FRAMES - (n + 1)) (by omega) (n := n + 1) hnext (by omega) rfl

/-- The position cannot go on short of a frame of the stream that is on its grid. -/
theorem Unheard.not_approaching (h : jb.Unheard cfg st T) {j c : Nat}
    (hp : (jb.at_pop st n).Playing cfg st S n q)
    (hclear : (jb.at_pop st n).Clear cfg st (n + 1) q) (hj : j ≤ n)
    (hmem : st.ts cfg j ∈ (jb.at_pop st n).frames) (hc : st.ts cfg j = q + c * cfg.frame_samples)
    (hT : n + (6 * c + (MAX_CONCEAL_FRAMES - (jb.at_pop st n).consecutive_missing)) < T) :
    False := by
  induction hm : 6 * c + (MAX_CONCEAL_FRAMES - (jb.at_pop st n).consecutive_missing)
    using Nat.strongRecOn generalizing n q c with
  | ind m ih =>
      have hF := h.served.frame_pos
      have hnone := h.not_mem (by omega) hp hclear
      have hjle := st.ts_le cfg hj
      have hts := st.ts_succ cfg n
      have hts' := st.ts_succ cfg (n + 1)
      have hfits := h.fits (n := n) (by omega)
      -- the frame is not at the position, so it is at least one frame further
      obtain ⟨c, rfl⟩ : ∃ c', c = c' + 1 := by
        refine Nat.exists_eq_succ_of_ne_zero fun h0 => hnone ?_
        rwa [hc, h0, Nat.zero_mul, Nat.add_zero] at hmem
      rw [Nat.add_mul, Nat.one_mul] at hc
      have hsat : sat_add q cfg.frame_samples = q + cfg.frame_samples := sat_add_eq (by omega)
      have hpop : ∃ r, ((jb.at_pop st n).pop []).2.2.Carries cfg st S (n + 1) r ∧
          ((jb.at_pop st n).pop []).2.2.frames = (jb.at_pop st n).frames.splitOff q ∧
          (r = q + cfg.frame_samples ∨ r = q ∧
            (jb.at_pop st n).consecutive_missing < MAX_CONCEAL_FRAMES ∧
            ((jb.at_pop st n).pop []).2.2.consecutive_missing
              = (jb.at_pop st n).consecutive_missing + 1) := by
        by_cases hs : (jb.at_pop st n).silent = true
        · obtain ⟨hr, hframes, -⟩ := hp.toCarries.pop_silent_gap hnone hs
          exact ⟨_, hr, hframes, Or.inl hsat⟩
        · rcases hp.toCarries.pop_gap hnone (Bool.eq_false_of_not_eq_true hs) with
            ⟨hempty, -⟩ | ⟨r, hr, hframes, -, -, hcm, ⟨hrq, hlt, -⟩ | ⟨hrq, -⟩⟩
          · have := hempty _ hmem
            omega
          · exact ⟨r, hr, hframes, Or.inr ⟨hrq, hlt, hcm⟩⟩
          · exact ⟨r, hr, hframes, Or.inl (hrq.trans hsat)⟩
      obtain ⟨r, hr, hframes, hmove⟩ := hpop
      obtain ⟨q', hle, hp', hlands⟩ := h.next (by omega) hr
      have hclear' : (jb.at_pop st (n + 1)).Clear cfg st (n + 1 + 1) q' :=
        clear_turn hr hclear hframes
      rcases hlands with hjump | ⟨rfl, hlate | hstored⟩
      · exact h.not_mem (by omega) hp' hclear' hjump
      · omega
      · have hwithin := hp'.within (by omega)
        have hnewest := hp'.newest_ge (by omega)
        have hcap := h.served.cap_fits
        have hkept : st.ts cfg j ∈ ((jb.at_pop st n).pop []).2.2.frames := by
          rw [hframes]
          exact OrdMap.mem_splitOff.2 ⟨hmem, by omega⟩
        have hmem' : st.ts cfg j ∈ (jb.at_pop st (n + 1)).frames := by
          rw [hstored]
          refine mem_frames_with (Or.inr hkept)
            (OrdMap.splitOff_len_le hF le_rfl fun k hk hjk => ?_)
          obtain ⟨i, hi, rfl⟩ : ∃ i ≤ n + 1, k = st.ts cfg i := by
            rcases OrdMap.mem_insert.1 hk with rfl | hk
            · exact ⟨n + 1, le_rfl, rfl⟩
            · rw [hframes] at hk
              obtain ⟨hk, hqk⟩ := OrdMap.mem_splitOff.1 hk
              obtain ⟨i, hi, rfl⟩ := hclear k hk hqk
              exact ⟨i, by omega, rfl⟩
          have hji : j ≤ i := by
            by_contra hlt
            have : st.ts cfg i < st.ts cfg j := st.ts_lt hF (Nat.lt_of_not_le hlt)
            omega
          have hile := st.ts_le cfg hi
          exact ⟨st.dvd_ts hji, by omega⟩
        have hcm : (jb.at_pop st (n + 1)).consecutive_missing
            = ((jb.at_pop st n).pop []).2.2.consecutive_missing := push_consecutive_missing ..
        rcases hmove with hrq | ⟨hrq, hlt, hcm'⟩
        · exact ih _ (by unfold MAX_CONCEAL_FRAMES at *; omega) hp' hclear' (by omega) hmem'
            (c := c) (by omega) (by unfold MAX_CONCEAL_FRAMES at *; omega) rfl
        · refine ih _ (by omega) hp' hclear' (by omega) hmem' (c := c + 1) ?_ (by omega) rfl
          rw [Nat.add_mul, Nat.one_mul]
          omega

/-- With only the stream ahead, the position is short of a frame of it, or runs into an underrun,
after which the buffer fills. -/
theorem Unheard.not_clear (h : jb.Unheard cfg st T) (hp : (jb.at_pop st n).Playing cfg st S n q)
    (hclear : (jb.at_pop st n).Clear cfg st (n + 1) q)
    (hT : n + (6 - (jb.at_pop st n).consecutive_missing) + 6 * MAX_FRAMES ≤ T) : False := by
  induction hm : 6 - (jb.at_pop st n).consecutive_missing using Nat.strongRecOn
    generalizing n q with
  | ind m ih =>
      have hmax : MAX_FRAMES = 1024 := rfl
      have hconceal : MAX_CONCEAL_FRAMES = 5 := rfl
      have hnone := h.not_mem (by omega) hp hclear
      by_cases hgoes : (jb.at_pop st n).silent = true ∨ ∃ k ∈ (jb.at_pop st n).frames, q ≤ k
      · -- on course: the newest frame of the stream is there, on the grid
        have hcourse := (h.course n (by omega)).placed q hp.placed
        rw [hp.cfg_eq] at hcourse
        obtain ⟨hle, c, hc⟩ := hcourse hclear hgoes
        obtain ⟨k, hk, hnk⟩ := hp.reaches hle
        obtain ⟨j, hj, rfl⟩ := hclear k hk (hle.trans hnk)
        have hjn : j = n := by
          by_contra hne
          have : st.ts cfg j < st.ts cfg n := st.ts_lt h.served.frame_pos (by omega)
          omega
        subst hjn
        have hts := st.ts_succ cfg j
        have hwithin := hp.within hle
        have hnewest := hp.newest_ge hle
        have hcap := h.served.cap_fits
        rw [Nat.mul_comm] at hc
        have hcmax : c < MAX_FRAMES := by
          refine Nat.lt_of_mul_lt_mul_right (a := cfg.frame_samples) ?_
          omega
        exact h.not_approaching hp hclear le_rfl hk (c := c) (by omega) (by omega)
      -- Nothing ahead and no silence: the gap is concealed, and each such turn brings the
      -- underrun nearer.
      · push Not at hgoes
        have hs := Bool.eq_false_of_not_eq_true hgoes.1
        rcases hp.toCarries.pop_gap hnone hs with
          ⟨-, hb, hw, hcfg, hempty⟩ | ⟨r, hr, hframes, -, -, hcm, hmove⟩
        · have hfill := filling_first hcfg hw hb hempty h.full (h.fits (n := n) (by omega))
          exact h.not_filling (n := n + 1) hfill (by omega) (by omega)
        · have hlt : (jb.at_pop st n).consecutive_missing < MAX_CONCEAL_FRAMES := by
            rcases hmove with ⟨-, hlt, -⟩ | ⟨-, hlt | ⟨k, hk, hqk⟩⟩
            · exact hlt
            · exact hlt
            · have := hgoes.2 k hk
              omega
          obtain ⟨q', -, hp', -⟩ := h.next (by omega) hr
          have hcm' : (jb.at_pop st (n + 1)).consecutive_missing
              = ((jb.at_pop st n).pop []).2.2.consecutive_missing := push_consecutive_missing ..
          exact ih _ (by omega) hp' (clear_turn hr hclear hframes) (by omega) rfl

/-- What is in the way gets less with every turn. -/
theorem Unheard.not_playing (h : jb.Unheard cfg st T) (hS : ∀ k ∈ S, k ≤ N) (hN : N ≤ U64_MAX)
    (hp : (jb.at_pop st n).Playing cfg st S n q)
    (hT : n + (jb.at_pop st n).toil cfg st S N (n + 1) q + 6 + 6 * MAX_FRAMES ≤ T) : False := by
  induction hm : (jb.at_pop st n).toil cfg st S N (n + 1) q using Nat.strongRecOn
    generalizing n q with
  | ind m ih =>
      have hF := h.served.frame_pos
      by_cases hclear : (jb.at_pop st n).Clear cfg st (n + 1) q
      · exact h.not_clear hp hclear (by omega)
      -- the next turn with what it leaves in the way
      have hturn : ∀ r, ((jb.at_pop st n).pop []).2.2.Carries cfg st S (n + 1) r → q ≤ r →
          (∀ k ∈ ((jb.at_pop st n).pop []).2.2.frames, k ∈ (jb.at_pop st n).frames) →
          ((N - r + (cfg.frame_samples - 1)) / cfg.frame_samples <
              (N - q + (cfg.frame_samples - 1)) / cfg.frame_samples ∨
            (∃ k ∈ (jb.at_pop st n).strays cfg st S (n + 1) q,
              k ∉ ((jb.at_pop st n).pop []).2.2.frames) ∨
            (jb.at_pop st n).consecutive_missing < MAX_CONCEAL_FRAMES ∧
              ((jb.at_pop st n).pop []).2.2.consecutive_missing
                = (jb.at_pop st n).consecutive_missing + 1) → False := by
        intro r hr hqr hsub hless
        obtain ⟨q', hle, hp', -⟩ := h.next (by omega) hr
        have hkeys : ∀ k ∈ (jb.at_pop st (n + 1)).frames,
            k ∈ (jb.at_pop st n).frames ∨ k = st.ts cfg (n + 1) := fun k hk =>
          (push_next_keys hr.cfg_eq hk).imp_left (hsub k)
        have hlt := toil_lt (S := S) (N := N) (hqr.trans hle) hkeys (by
          rcases hless with hless | ⟨k, hk, hgone⟩ | ⟨hlt, hcm⟩
          · exact Or.inl ((frames_left_le hle).trans_lt hless)
          · refine Or.inr (Or.inl ⟨k, hk, fun hk' => ?_⟩)
            obtain ⟨-, hmem, -, hne⟩ := mem_strays.1 hk'
            rcases push_next_keys hr.cfg_eq hmem with hmem | he
            · exact hgone hmem
            · exact hne (n + 1) (by omega) he
          · exact Or.inr (Or.inr ⟨hlt, (push_consecutive_missing ..).trans hcm⟩))
        exact ih _ (by omega) hp' (by omega) rfl
      have hstray : ∃ k ∈ (jb.at_pop st n).frames, q ≤ k ∧ ∀ j < n + 1, k ≠ st.ts cfg j := by
        unfold Clear at hclear
        push Not at hclear
        exact hclear
      obtain ⟨k, hk, hqk, hne⟩ := hstray
      have hkN : k ≤ N := by
        rcases hp.known k hk hqk with hkS | ⟨j, hj, hkj⟩
        · exact hS k hkS
        · exact absurd hkj (hne j hj)
      by_cases hmem : q ∈ (jb.at_pop st n).frames
      · by_cases hstream : ∃ j < n + 1, q = st.ts cfg j
        · obtain ⟨j, hj, hq⟩ := hstream
          exact h.unplayed n (by omega) (hp.toCarries.plays h.served h.full hj hq hmem)
        · -- a stray frame at the position is taken out
          push Not at hstream
          obtain ⟨r, hqr, hr, hgone, hsub⟩ := hp.toCarries.pop_stray hmem
          have hqS : q ∈ S := (hp.known q hmem le_rfl).resolve_right (by
            rintro ⟨j, hj, hq⟩
            exact hstream j hj hq)
          refine hturn r hr hqr hsub (Or.inr (Or.inl ⟨q, ?_, hgone⟩))
          exact mem_strays.2 ⟨hqS, hmem, le_rfl, hstream⟩
      · have hqN : q < N := by
          have : k ≠ q := fun he => hmem (he ▸ hk)
          omega
        have hsub : ∀ hframes : ((jb.at_pop st n).pop []).2.2.frames
            = (jb.at_pop st n).frames.splitOff q,
            ∀ k ∈ ((jb.at_pop st n).pop []).2.2.frames, k ∈ (jb.at_pop st n).frames := by
          intro hframes k hk
          rw [hframes] at hk
          exact (OrdMap.mem_splitOff.1 hk).1
        by_cases hs : (jb.at_pop st n).silent = true
        · obtain ⟨hr, hframes, -⟩ := hp.toCarries.pop_silent_gap hmem hs
          exact hturn _ hr (le_sat_add hp.fits _) (hsub hframes)
            (Or.inl (frames_left_lt hF hN hqN))
        · rcases hp.toCarries.pop_gap hmem (Bool.eq_false_of_not_eq_true hs) with
            ⟨hempty, -⟩ | ⟨r, hr, hframes, -, -, hcm, ⟨rfl, hlt, -⟩ | ⟨rfl, -⟩⟩
          · have := hempty k hk
            omega
          · exact hturn r hr le_rfl (hsub hframes) (Or.inr (Or.inr ⟨hlt, hcm⟩))
          · exact hturn _ hr (le_sat_add hp.fits _) (hsub hframes)
              (Or.inl (frames_left_lt hF hN hqN))

end Heard

end SoundPush.JitterBuffer
