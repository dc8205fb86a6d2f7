/-
`JitterLive` -- the buffer plays again.

The sender delivers consecutive full frames from some timestamp on. From every
well-formed state that is not stuck there is a finite number of pushes and pops
after which a pop plays. How many frames that takes at most is a figure of the
state and of the stream's first timestamp alone (`recovery`). The schedule
depends on the phase:

* buffering: push until the buffer holds nothing but the new frames, which is
  more than any target that fits the frame cap, and start (`plays_from_buffering`);
* placed, with nothing left to play: push until playout jumps, which leaves the
  newest frames (`plays_from_drained`);
* placed, with something left: pop until one of the above is reached, or
  something plays on the way (`drain`).
-/
import SoundPush.Media.JitterPhase

set_option autoImplicit false

namespace SoundPush.JitterBuffer

variable {α : Type*}

/-! ## 1. Consecutive frames -/

/-- What a sender delivers: frame `i` is `frame i`, at `start` plus `i` frames. -/
structure Stream (α : Type*) where
  start : Nat
  frame : Nat → Samples α
  arrival : Nat → Nat

/-- Every frame is a full frame of the buffer's configuration. -/
def Stream.Full (st : Stream α) (cfg : JitterConfig) : Prop :=
  ∀ i, (st.frame i).length = cfg.frame_samples * max cfg.channels 1

/-- The timestamp of frame `i`. -/
def Stream.ts (st : Stream α) (cfg : JitterConfig) (i : Nat) : Nat :=
  st.start + i * cfg.frame_samples

def push_next (jb : JitterBuffer α) (st : Stream α) (i : Nat) : JitterBuffer α :=
  jb.push (st.ts jb.cfg i) (st.frame i) (st.arrival i)

/-- `Fed st jb i jb' j`: frames `i ≤ · < j` were pushed in order, with any pops in between. -/
inductive Fed [Zero α] (st : Stream α) (jb : JitterBuffer α) (i : Nat) :
    JitterBuffer α → Nat → Prop
  | refl : Fed st jb i jb i
  | push {jb' : JitterBuffer α} {j : Nat} :
      Fed st jb i jb' j → Fed st jb i (jb'.push_next st j) (j + 1)
  | pop {jb' : JitterBuffer α} {j : Nat} (out : List α) :
      Fed st jb i jb' j → Fed st jb i (jb'.pop out).2.2 j

theorem Fed.trans [Zero α] {st : Stream α} {a b c : JitterBuffer α} {i j k : Nat}
    (hab : Fed st a i b j) (hbc : Fed st b j c k) : Fed st a i c k := by
  induction hbc with
  | refl => exact hab
  | push _ ih => exact ih.push
  | pop out _ ih => exact ih.pop out

theorem Stream.Full.frame_len {st : Stream α} {jb : JitterBuffer α} (h : st.Full jb.cfg) (i : Nat) :
    jb.frame_len (st.frame i) = jb.cfg.frame_samples := by
  rw [JitterBuffer.frame_len, h i]
  exact Nat.mul_div_cancel _ (by omega)

theorem Stream.Full.ne_nil {st : Stream α} {cfg : JitterConfig} (h : st.Full cfg)
    (hF : 0 < cfg.frame_samples) (i : Nat) : st.frame i ≠ [] := by
  intro he
  have hlen := h i
  rw [he, List.length_nil] at hlen
  have : 0 < cfg.frame_samples * max cfg.channels 1 := Nat.mul_pos hF (by omega)
  omega

theorem Stream.ts_succ (st : Stream α) (cfg : JitterConfig) (i : Nat) :
    st.ts cfg (i + 1) = st.ts cfg i + cfg.frame_samples := by
  simp only [Stream.ts, Nat.add_mul, Nat.one_mul]
  omega

theorem Stream.ts_le (st : Stream α) (cfg : JitterConfig) {i j : Nat} (h : i ≤ j) :
    st.ts cfg i ≤ st.ts cfg j :=
  Nat.add_le_add_left (Nat.mul_le_mul_right _ h) _

theorem Stream.ts_add_le (st : Stream α) (cfg : JitterConfig) {i j : Nat} (h : i < j) :
    st.ts cfg i + cfg.frame_samples ≤ st.ts cfg j := by
  have := st.ts_le cfg (Nat.succ_le_of_lt h)
  rwa [Nat.succ_eq_add_one, st.ts_succ] at this

/-- How many frames lie between the stream's start and its first frame past `goal`. -/
def Stream.passing (st : Stream α) (cfg : JitterConfig) (goal : Nat) : Nat :=
  (goal - st.start) / cfg.frame_samples + 1

theorem Stream.lt_ts_passing (st : Stream α) {cfg : JitterConfig} (hF : 0 < cfg.frame_samples)
    (goal : Nat) : goal < st.ts cfg (st.passing cfg goal) := by
  have hlt := Nat.lt_div_mul_add (a := goal - st.start) hF
  unfold Stream.ts Stream.passing
  rw [Nat.add_mul, Nat.one_mul]
  omega

theorem Stream.passing_mono (st : Stream α) (cfg : JitterConfig) {g g' : Nat} (h : g ≤ g') :
    st.passing cfg g ≤ st.passing cfg g' := by
  have hle : g - st.start ≤ g' - st.start := by omega
  exact Nat.succ_le_succ (Nat.div_le_div_right hle)

/-- Pushing `n` frames from index `i`. -/
def feed (jb : JitterBuffer α) (st : Stream α) (i : Nat) : Nat → JitterBuffer α
  | 0 => jb
  | n + 1 => (feed jb st i n).push_next st (i + n)

theorem fed_feed [Zero α] (jb : JitterBuffer α) (st : Stream α) (i n : Nat) :
    Fed st jb i (feed jb st i n) (i + n) := by
  induction n with
  | zero => exact .refl
  | succ n ih => exact ih.push

@[simp] theorem push_next_cfg (jb : JitterBuffer α) (st : Stream α) (i : Nat) :
    (jb.push_next st i).cfg = jb.cfg := push_cfg ..

@[simp] theorem feed_cfg (jb : JitterBuffer α) (st : Stream α) (i n : Nat) :
    (feed jb st i n).cfg = jb.cfg := by
  induction n with
  | zero => rfl
  | succ n ih => simpa [feed] using ih

@[simp] theorem feed_buffering (jb : JitterBuffer α) (st : Stream α) (i n : Nat) :
    (feed jb st i n).buffering = jb.buffering := by
  induction n with
  | zero => rfl
  | succ n ih => simpa [feed, push_next] using ih

@[simp] theorem feed_target (jb : JitterBuffer α) (st : Stream α) (i n : Nat) :
    (feed jb st i n).target_samples = jb.target_samples := by
  induction n with
  | zero => rfl
  | succ n ih => simpa [feed, push_next] using ih

/-! ## 2. One consecutive frame -/

section Step

variable {jb : JitterBuffer α} {st : Stream α} {cfg : JitterConfig}

/-- A key whose upper neighbours fit under the cap is not dropped. -/
theorem mem_frames_with {ts k : Nat} {samples : Samples α} (hk : k = ts ∨ k ∈ jb.frames)
    (hfit : ((jb.frames.insert ts samples).splitOff k).len ≤ MAX_FRAMES) :
    k ∈ jb.frames_with ts samples := by
  have hle := OrdMap.len_splitOff_le (jb.frames.insert ts samples) k
  exact OrdMap.mem_dropFirst (OrdMap.mem_insert.2 hk) (by omega)

/-- The newest timestamp once a full frame is in that lies past everything so far. -/
theorem newest_with_full (hc : jb.cfg = cfg) (hfull : st.Full cfg) {i : Nat}
    (hnew : jb.newest_end_ts ≤ st.ts cfg (i + 1)) (hfits : st.ts cfg (i + 1) ≤ U64_MAX) :
    jb.newest_with (st.ts cfg i) (st.frame i) = st.ts cfg (i + 1) := by
  subst hc
  rw [st.ts_succ] at *
  rw [newest_with, hfull.frame_len, sat_add_eq hfits]
  exact max_eq_right hnew

/-- Without a position a push only stores. -/
theorem push_next_unplaced (st : Stream α) (hc : jb.cfg = cfg) (hp : jb.play_ts = none) (i : Nat) :
    (jb.push_next st i).frames = jb.frames_with (st.ts cfg i) (st.frame i) ∧
      (jb.push_next st i).play_ts = none ∧
      (jb.push_next st i).newest_end_ts = jb.newest_with (st.ts cfg i) (st.frame i) := by
  subst hc
  rcases push_cases jb (st.ts jb.cfg i) (st.frame i) (st.arrival i) with ⟨⟨p, hq, -⟩, -⟩ |
    ⟨-, -, hfr, hplay, hnw⟩ | ⟨⟨p, hq, -⟩, -⟩
  · simp [hp] at hq
  · exact ⟨hfr, hplay.trans hp, hnw⟩
  · simp [hp] at hq

/-- The points `a, a + 1, ..., a + j` of a stream, seen as a grid from frame `a`. -/
theorem Stream.dvd_ts_sub (st : Stream α) (cfg : JitterConfig) (a i : Nat) :
    cfg.frame_samples ∣ st.ts cfg (a + i) - st.ts cfg a := by
  refine ⟨i, ?_⟩
  simp only [Stream.ts, Nat.add_mul, Nat.mul_comm cfg.frame_samples]
  omega

theorem Stream.ts_add (st : Stream α) (cfg : JitterConfig) (a i : Nat) :
    st.ts cfg (a + i) = st.ts cfg a + i * cfg.frame_samples := by
  simp only [Stream.ts, Nat.add_mul]
  omega

theorem feed_wellFormed (st : Stream α) (i n : Nat) (hc : jb.cfg = cfg) (h : jb.WellFormed)
    (hfits : st.ts cfg (i + n) ≤ U64_MAX) : (feed jb st i n).WellFormed := by
  induction n with
  | zero => exact h
  | succ n ih =>
      have hts : st.ts cfg (i + n) ≤ U64_MAX := (st.ts_le cfg (by omega)).trans hfits
      refine push_wellFormed (ih hts) ?_ _ _
      rwa [feed_cfg, hc]

end Step

/-! ## 3. From buffering

Two stretches. The first brings the stream past everything the buffer holds, so
that its frames are the newest; the second fills the whole buffer with them. -/

/-- No playout position, nothing but the stream at or above frame `a`, and `j` frames of it. -/
structure Topped (jb : JitterBuffer α) (cfg : JitterConfig) (st : Stream α) (a j : Nat) :
    Prop where
  cfg_eq : jb.cfg = cfg
  unplaced : jb.play_ts = none
  newest_le : jb.newest_end_ts ≤ st.ts cfg (a + j)
  newest_eq : 0 < j → jb.newest_end_ts = st.ts cfg (a + j)
  only : ∀ k ∈ jb.frames, st.ts cfg a ≤ k → ∃ i < j, k = st.ts cfg (a + i)
  there : ∀ i < j, jb.frames.get (st.ts cfg (a + i)) = some (st.frame (a + i))

section Buffering

variable {jb : JitterBuffer α} {st : Stream α} {cfg : JitterConfig}

theorem feed_past (hc : jb.cfg = cfg) (hF : 0 < cfg.frame_samples) (hfull : st.Full cfg)
    (hp : jb.play_ts = none) (h : jb.WellFormed) (n : Nat) :
    (feed jb st 0 n).play_ts = none ∧
      (feed jb st 0 n).newest_end_ts ≤ max jb.newest_end_ts (st.ts cfg n) ∧
      ∀ k ∈ (feed jb st 0 n).frames, k ≤ jb.newest_end_ts ∨ k < st.ts cfg n := by
  induction n with
  | zero => exact ⟨hp, le_max_left _ _, fun k hk => Or.inl (h.keys_le k hk)⟩
  | succ n ih =>
      obtain ⟨hp', hnew, hkeys⟩ := ih
      have hcfg : (feed jb st 0 n).cfg = cfg := (feed_cfg jb st 0 n).trans hc
      have hlen : (feed jb st 0 n).frame_len (st.frame n) = cfg.frame_samples := by
        rw [Stream.Full.frame_len (hcfg.symm ▸ hfull), hcfg]
      have hstep : feed jb st 0 (n + 1) = (feed jb st 0 n).push_next st n := by simp [feed]
      obtain ⟨hfr, hpl, hnw⟩ := push_next_unplaced st hcfg hp' n
      have hts := st.ts_succ cfg n
      rw [hstep]
      refine ⟨hpl, ?_, fun k hk => ?_⟩
      · have hsat : sat_add (st.ts cfg n) cfg.frame_samples ≤ st.ts cfg (n + 1) := by
          rw [hts]
          exact min_le_left _ _
        rw [hnw, newest_with, hlen]
        omega
      · rw [hfr] at hk
        rcases mem_of_mem_frames_with _ _ _ hk with rfl | hk
        · exact Or.inr (by omega)
        · rcases hkeys k hk with hk | hk
          · exact Or.inl hk
          · exact Or.inr (by omega)

/-- One more frame on top: under the cap, none of the stream's is dropped. -/
theorem Topped.push (hF : 0 < cfg.frame_samples) (hfull : st.Full cfg) {a j : Nat}
    (h : jb.Topped cfg st a j) (hj : j < MAX_FRAMES)
    (hfits : st.ts cfg (a + j + 1) ≤ U64_MAX) :
    (jb.push_next st (a + j)).Topped cfg st a (j + 1) := by
  obtain ⟨hfr, hpl, hnw⟩ := push_next_unplaced st h.cfg_eq h.unplaced (a + j)
  have hnew := newest_with_full h.cfg_eq hfull
    (h.newest_le.trans (st.ts_le cfg (Nat.le_succ (a + j)))) hfits
  -- the keys from frame `a` on, the new one included, are the stream's
  have honly : ∀ k ∈ jb.frames.insert (st.ts cfg (a + j)) (st.frame (a + j)),
      st.ts cfg a ≤ k → ∃ i < j + 1, k = st.ts cfg (a + i) := by
    intro k hk hle
    rcases OrdMap.mem_insert.1 hk with rfl | hk
    · exact ⟨j, by omega, rfl⟩
    · obtain ⟨i, hi, he⟩ := h.only k hk hle
      exact ⟨i, by omega, he⟩
  have hstays : ∀ i < j + 1, st.ts cfg (a + i) ∈
      jb.frames_with (st.ts cfg (a + j)) (st.frame (a + j)) := by
    intro i hi
    refine mem_frames_with ?_ ?_
    · rcases Nat.lt_succ_iff_lt_or_eq.1 hi with hi | rfl
      · exact Or.inr (OrdMap.mem_iff_get.2 ⟨_, h.there i hi⟩)
      · exact Or.inl rfl
    · refine (OrdMap.splitOff_len_le (p := st.ts cfg a) (n := j + 1) hF
        (st.ts_le cfg (by omega)) (fun k hk hle => ?_)).trans (by omega)
      obtain ⟨i', hi', rfl⟩ := honly k hk ((st.ts_le cfg (by omega)).trans hle)
      refine ⟨st.dvd_ts_sub cfg a i', ?_⟩
      rw [st.ts_add]
      exact Nat.add_lt_add_left (Nat.mul_lt_mul_of_pos_right hi' hF) _
  refine ⟨by rw [push_next_cfg, h.cfg_eq], hpl, (hnw.trans hnew).le, fun _ => hnw.trans hnew,
    fun k hk hle => ?_, fun i hi => ?_⟩
  · rw [hfr] at hk
    exact honly k (OrdMap.mem_of_mem_dropFirst hk) hle
  · rw [hfr, get_frames_with _ _ _ (hstays i hi)]
    rcases Nat.lt_succ_iff_lt_or_eq.1 hi with hi | rfl
    · have hlt := st.ts_add_le cfg (show a + i < a + j by omega)
      rw [if_neg (by omega), h.there i hi]
    · rw [if_pos rfl]

theorem Topped.feed (hF : 0 < cfg.frame_samples) (hfull : st.Full cfg) {a : Nat}
    (h0 : jb.Topped cfg st a 0) {n : Nat} (hn : n ≤ MAX_FRAMES)
    (hfits : st.ts cfg (a + n) ≤ U64_MAX) :
    (JitterBuffer.feed jb st a n).Topped cfg st a n := by
  induction n with
  | zero => exact h0
  | succ n ih =>
      exact (ih (by omega) ((st.ts_le _ (by omega)).trans hfits)).push hF hfull (by omega) hfits

/-- A full buffer holds the stream alone. -/
theorem Topped.first_of_full (hF : 0 < cfg.frame_samples) {a : Nat}
    (h : jb.Topped cfg st a MAX_FRAMES) (hlen : jb.frames.len ≤ MAX_FRAMES) :
    jb.frames.firstKey = some (st.ts cfg a) := by
  have hnd : ((List.range MAX_FRAMES).map (fun i => st.ts cfg (a + i))).Nodup := by
    refine List.nodup_range.map_on (fun i _ j _ he => ?_)
    simp only [st.ts_add, Nat.add_left_cancel_iff] at he
    exact Nat.eq_of_mul_eq_mul_right hF he
  have hall : ∀ k ∈ jb.frames, st.ts cfg a ≤ k := by
    intro k hk
    have hmem := OrdMap.mem_of_len_le hnd (fun x hx => ?_) (by simpa using hlen) hk
    · obtain ⟨i, -, rfl⟩ := List.mem_map.1 hmem
      exact st.ts_le cfg (Nat.le_add_right _ _)
    · obtain ⟨i, hi, rfl⟩ := List.mem_map.1 hx
      exact OrdMap.mem_iff_get.2 ⟨_, h.there i (List.mem_range.1 hi)⟩
  have hcap : 0 < MAX_FRAMES := by decide
  exact OrdMap.firstKey_eq_some_iff.2
    ⟨OrdMap.mem_iff_get.2 ⟨_, h.there 0 hcap⟩, hall⟩

/-- The buffer starts, and what it plays first is the stream's. -/
theorem Topped.pop_of_full [Zero α] (hF : 0 < cfg.frame_samples) (hfull : st.Full cfg) {a : Nat}
    (h : jb.Topped cfg st a MAX_FRAMES) (hw : jb.WellFormed) (hb : jb.buffering = true)
    (hcap : max_target cfg ≤ MAX_FRAMES * cfg.frame_samples) (out : List α) :
    (jb.pop out).1 = .Played := by
  have hfirst := h.first_of_full hF hw.len_le
  have hmax : 0 < MAX_FRAMES := by decide
  have htarget : jb.target_samples ≤ jb.buffered_samples := by
    have hle := hw.target_le
    rw [h.cfg_eq] at hle
    have hts := st.ts_add cfg a MAX_FRAMES
    simp only [buffered_samples, h.unplaced, hfirst, Option.elim_some, h.newest_eq hmax]
    omega
  have hget : jb.frames.get (st.ts cfg a) = some (st.frame a) := h.there 0 hmax
  rw [pop_start out hb h.unplaced htarget hfirst]
  have hget' : ({ jb with buffering := false, play_ts := some (st.ts cfg a) } :
      JitterBuffer α).frames.get (st.ts cfg a) = some (st.frame a) := hget
  obtain ⟨stats, he⟩ := pop_at_audio out hget' (hfull.ne_nil hF a)
  rw [he]

theorem plays_from_buffering [Zero α] (hc : jb.cfg = cfg) (hF : 0 < cfg.frame_samples)
    (hfull : st.Full cfg) (h : jb.WellFormed) (hb : jb.buffering = true)
    (hcap : max_target cfg ≤ MAX_FRAMES * cfg.frame_samples) {a : Nat}
    (hpast : jb.newest_end_ts < st.ts cfg a)
    (hfits : st.ts cfg (a + MAX_FRAMES) ≤ U64_MAX) (out : List α) :
    ((feed (feed jb st 0 a) st a MAX_FRAMES).pop out).1 = .Played := by
  obtain ⟨hp, hnew, hkeys⟩ := feed_past hc hF hfull (h.unplaced hb) h a
  -- after `a` frames the stream is past everything, so what it adds from there on is the newest
  have h0 : (feed jb st 0 a).Topped cfg st a 0 := by
    refine ⟨(feed_cfg ..).trans hc, hp, ?_, fun h => absurd h (Nat.lt_irrefl 0), fun k hk hle => ?_,
      fun i hi => absurd hi (Nat.not_lt_zero i)⟩
    · rw [Nat.add_zero]
      omega
    · have := hkeys k hk
      omega
  have hw₀ := feed_wellFormed st 0 a hc h
    ((st.ts_le cfg (by omega)).trans hfits)
  have hw := feed_wellFormed st _ _ h0.cfg_eq hw₀ hfits
  exact (h0.feed hF hfull le_rfl hfits).pop_of_full hF hfull hw (by simpa using hb) hcap out

end Buffering

/-! ## 4. From a drained position

Nothing is buffered and the position has passed everything that was. Late frames
change nothing; the others pile up until playout jumps, and a jump always keeps
the frame that caused it, because the target is at least one frame. -/

/-- A position, and nothing buffered but the first `j` frames of the stream. -/
structure Piled (jb : JitterBuffer α) (cfg : JitterConfig) (st : Stream α) (p j : Nat) :
    Prop where
  cfg_eq : jb.cfg = cfg
  target_ge : cfg.frame_samples ≤ jb.target_samples
  playing : jb.buffering = false
  placed : jb.play_ts = some p
  newest_le : jb.newest_end_ts ≤ max p (st.ts cfg j)
  only : ∀ k v, jb.frames.get k = some v → ∃ i < j, k = st.ts cfg i ∧ v = st.frame i

section Drained

variable {jb : JitterBuffer α} {st : Stream α} {cfg : JitterConfig} {p j : Nat}

theorem Piled.frames_with (h : jb.Piled cfg st p j) {k : Nat}
    (hk : k ∈ jb.frames_with (st.ts cfg j) (st.frame j)) :
    ∃ i < j + 1, k = st.ts cfg i ∧
      (jb.frames_with (st.ts cfg j) (st.frame j)).get k = some (st.frame i) := by
  rw [get_frames_with _ _ _ hk]
  by_cases hkj : k = st.ts cfg j
  · exact ⟨j, Nat.lt_succ_self j, hkj, if_pos hkj⟩
  · rw [if_neg hkj]
    obtain ⟨v, hv⟩ := OrdMap.mem_iff_get.1
      ((mem_of_mem_frames_with _ _ _ hk).resolve_left hkj)
    obtain ⟨i, hi, rfl, rfl⟩ := h.only k v hv
    exact ⟨i, by omega, rfl, hv⟩

theorem Piled.newest_with (h : jb.Piled cfg st p j) (hfull : st.Full cfg)
    (hp : p ≤ st.ts cfg j) (hfits : st.ts cfg (j + 1) ≤ U64_MAX) :
    jb.newest_with (st.ts cfg j) (st.frame j) = st.ts cfg (j + 1) := by
  have := st.ts_succ cfg j
  exact newest_with_full h.cfg_eq hfull (h.newest_le.trans (by omega)) hfits

/-- A push that does not make playout jump adds to the pile. -/
theorem Piled.push (hfull : st.Full cfg) (h : jb.Piled cfg st p j)
    (hno : st.ts cfg j < p ∨ st.ts cfg (j + 1) - p ≤ jump_limit cfg)
    (hfits : st.ts cfg (j + 1) ≤ U64_MAX) : (jb.push_next st j).Piled cfg st p (j + 1) := by
  have hts := st.ts_succ cfg j
  have hc := h.cfg_eq
  rcases push_cases jb (st.ts jb.cfg j) (st.frame j) (st.arrival j) with
    ⟨-, hfr, hpl, hnw⟩ | ⟨hle, -, hfr, hpl, hnw⟩ | ⟨⟨q, hq, hle, hjump⟩, -⟩
  · refine ⟨by rw [push_next_cfg, hc], by simpa [push_next] using h.target_ge,
      by simpa [push_next] using h.playing, hpl.trans h.placed, ?_, fun k v hv => ?_⟩
    · exact (hnw.trans_le h.newest_le).trans (by omega)
    · obtain ⟨i, hi, he⟩ := h.only k v (by rwa [push_next, hfr] at hv)
      exact ⟨i, by omega, he⟩
  · rw [hc] at hfr hnw hle
    have hnew := h.newest_with hfull (hle p h.placed) hfits
    refine ⟨by rw [push_next_cfg, hc], by simpa [push_next] using h.target_ge,
      by simpa [push_next] using h.playing, hpl.trans h.placed, ?_, fun k v hv => ?_⟩
    · rw [push_next, hc, hnw, hnew]
      exact le_max_right _ _
    · rw [push_next, hc, hfr] at hv
      obtain ⟨i, hi, rfl, hg⟩ := h.frames_with (OrdMap.mem_iff_get.2 ⟨v, hv⟩)
      exact ⟨i, hi, rfl, Option.some.inj (hv.symm.trans hg)⟩
  · rw [hc] at hle hjump
    obtain rfl : p = q := Option.some.inj (h.placed.symm.trans hq)
    rw [h.newest_with hfull hle hfits] at hjump
    omega

/-- A push that does makes it jump to the stream, and the next pop plays. -/
theorem Piled.jump [Zero α] (hF : 0 < cfg.frame_samples) (hfull : st.Full cfg)
    (h : jb.Piled cfg st p j) (hp : p ≤ st.ts cfg j)
    (hover : jump_limit cfg < st.ts cfg (j + 1) - p) (hfits : st.ts cfg (j + 1) ≤ U64_MAX)
    (out : List α) : ((jb.push_next st j).pop out).1 = .Played := by
  have hts := st.ts_succ cfg j
  have hc := h.cfg_eq
  have hnew := h.newest_with hfull hp hfits
  have htarget := h.target_ge
  have hoverruns : jb.overruns (st.ts cfg j) (st.frame j) := by
    refine ⟨p, h.placed, hp, ?_⟩
    rwa [hnew, hc]
  obtain ⟨k₀, hk₀, hle₀⟩ := exists_mem_frames_with jb (st.ts cfg j) (st.frame j) (Or.inl rfl)
  have hcut : k₀ ∈ (jb.frames_with (st.ts cfg j) (st.frame j)).splitOff
      (jb.jump_to (st.ts cfg j) (st.frame j)) := by
    refine OrdMap.mem_splitOff.2 ⟨hk₀, ?_⟩
    rw [jump_to, hnew]
    omega
  obtain ⟨k, hk⟩ := OrdMap.exists_firstKey hcut
  rcases push_cases jb (st.ts cfg j) (st.frame j) (st.arrival j) with
    ⟨⟨q, hq, hlt⟩, -⟩ | ⟨-, hno, -⟩ | ⟨-, hfr, hpl, -⟩
  · obtain rfl : p = q := Option.some.inj (h.placed.symm.trans hq)
    omega
  · exact absurd hoverruns hno
  · obtain ⟨hmem, hle⟩ := OrdMap.mem_splitOff.1 (OrdMap.firstKey_eq_some_iff.1 hk).1
    obtain ⟨i, hi, rfl, hg⟩ := h.frames_with hmem
    rw [push_next, hc, pop_playing out (by simpa using h.playing) (hpl.trans hk)]
    have hget : (jb.push (st.ts cfg j) (st.frame j) (st.arrival j)).frames.get (st.ts cfg i)
        = some (st.frame i) := by
      rw [hfr, OrdMap.get_splitOff, if_pos hle, hg]
    obtain ⟨stats, he⟩ := pop_at_audio out hget (hfull.ne_nil hF i)
    rw [he]

theorem plays_from_drained [Zero α] (hF : 0 < cfg.frame_samples) (hfull : st.Full cfg)
    (h : jb.Piled cfg st p 0)
    (hfits : st.ts cfg (st.passing cfg (p + jump_limit cfg) + 1) ≤ U64_MAX) :
    ∃ n ≤ st.passing cfg (p + jump_limit cfg) + 1,
      ∀ out, ((feed jb st 0 n).pop out).1 = .Played := by
  -- the frame whose push makes playout jump
  have hover : p ≤ st.ts cfg (st.passing cfg (p + jump_limit cfg)) ∧
      jump_limit cfg < st.ts cfg (st.passing cfg (p + jump_limit cfg) + 1) - p := by
    have hlt := st.lt_ts_passing hF (p + jump_limit cfg)
    have hsucc := st.ts_succ cfg (st.passing cfg (p + jump_limit cfg))
    omega
  have hex : ∃ j, p ≤ st.ts cfg j ∧ jump_limit cfg < st.ts cfg (j + 1) - p := ⟨_, hover⟩
  classical
  let j := Nat.find hex
  have hj : p ≤ st.ts cfg j ∧ jump_limit cfg < st.ts cfg (j + 1) - p := Nat.find_spec hex
  have hjle : j ≤ st.passing cfg (p + jump_limit cfg) := Nat.find_min' hex hover
  have hfits' : ∀ n, n ≤ j + 1 → st.ts cfg n ≤ U64_MAX := fun n hn =>
    (st.ts_le cfg (by omega)).trans hfits
  have hpile : ∀ n ≤ j, (feed jb st 0 n).Piled cfg st p n := by
    intro n hn
    induction n with
    | zero => exact h
    | succ n ih =>
        have hnot := Nat.find_min hex (m := n) (by omega)
        rw [not_and_or] at hnot
        have := (ih (by omega)).push hfull (by omega) (hfits' _ (by omega))
        simpa [feed] using this
  refine ⟨j + 1, by omega, fun out => ?_⟩
  simpa [feed] using (hpile j le_rfl).jump hF hfull hj.1 hj.2 (hfits' _ le_rfl) out

end Drained

/-! ## 5. Popping until nothing is left -/

section Drain

variable {jb : JitterBuffer α} {p B : Nat}

/-- How far the position is from having passed everything, and within one position how many times
it can still be held. -/
def backlog (jb : JitterBuffer α) (p : Nat) : Nat :=
  (jb.newest_end_ts + 1 - p) * (MAX_CONCEAL_FRAMES + 1) +
    (MAX_CONCEAL_FRAMES - jb.consecutive_missing)

theorem backlog_lt {jb jb' : JitterBuffer α} {p q : Nat} (hn : jb'.newest_end_ts = jb.newest_end_ts)
    (hp : p ≤ jb.newest_end_ts) (hq : p < q) : jb'.backlog q < jb.backlog p := by
  simp only [backlog, MAX_CONCEAL_FRAMES]
  omega

variable [Zero α]

/-- One pop at a position: it plays, or gives up, or moves on; past everything it finds nothing. -/
theorem pop_at_progress (h : jb.WellFormed) (hF : 0 < jb.cfg.frame_samples)
    (hb : jb.buffering = false) (hp : jb.play_ts = some p)
    (hfits : p + jb.cfg.frame_samples ≤ U64_MAX) :
    (∀ out, (jb.pop out).1 = .Played) ∨ (jb.pop []).2.2.buffering = true ∨
    ∃ q, (jb.pop []).2.2.play_ts = some q ∧ (jb.pop []).2.2.buffering = false ∧
      q ≤ p + jb.cfg.frame_samples ∧
      (p ≤ jb.newest_end_ts → (jb.pop []).2.2.backlog q < jb.backlog p) ∧
      (jb.newest_end_ts < p → jb.newest_end_ts ≤ q ∧ ∀ k, k ∉ (jb.pop []).2.2.frames) := by
  have hsat : sat_add p jb.cfg.frame_samples = p + jb.cfg.frame_samples := sat_add_eq hfits
  have hpast : jb.newest_end_ts < p → ∀ k, k ∉ jb.frames.splitOff p := by
    intro hlt k hk
    obtain ⟨hmem, hle⟩ := OrdMap.mem_splitOff.1 hk
    have := h.keys_le k hmem
    omega
  simp only [pop_playing _ hb hp]
  cases hg : jb.frames.get p with
  | some x =>
      have hle : p ≤ jb.newest_end_ts := h.keys_le p (OrdMap.mem_iff_get.2 ⟨x, hg⟩)
      -- A marker is passed like a gap in silence: the position moves on by a frame.
      by_cases hx : x = []
      · subst hx
        obtain ⟨st, he⟩ := pop_at_marker [] hg
        refine Or.inr (Or.inr ⟨_, by rw [he], by rw [he]; exact hb, hsat.le, fun _ => ?_,
          fun hlt => absurd hle (by omega)⟩)
        exact backlog_lt (by rw [he]) hle (by omega)
      · refine Or.inl (fun out => ?_)
        obtain ⟨st, he⟩ := pop_at_audio out hg hx
        rw [he]
  | none =>
      cases hs : jb.silent with
      | true =>
          obtain ⟨st, he⟩ := pop_at_silent_gap [] hg hs
          refine Or.inr (Or.inr ⟨_, by rw [he], by rw [he]; exact hb, hsat.le,
            fun hle => backlog_lt (by rw [he]) hle (by omega),
            fun hlt => ⟨by omega, by rw [he]; exact hpast hlt⟩⟩)
      | false =>
          obtain ⟨st, ⟨hcm, he⟩ | ⟨-, -, he⟩ | ⟨-, he⟩⟩ := pop_at_gap [] hp hg hs
          -- Held: the backlog shrinks all the same, since it counts the concealments that are
          -- left.
          · refine Or.inr (Or.inr ⟨p, by rw [he]; exact hp, by rw [he]; exact hb, by omega,
              fun _ => ?_, fun hlt => ⟨by omega, by rw [he]; exact hpast hlt⟩⟩)
            simp only [he, backlog]
            omega
          · exact Or.inr (Or.inl (by rw [he]))
          · refine Or.inr (Or.inr ⟨_, by rw [he], by rw [he]; exact hb, hsat.le,
              fun hle => backlog_lt (by rw [he]) hle (by omega),
              fun hlt => ⟨by omega, by rw [he]; exact hpast hlt⟩⟩)

theorem pop_cfg (h : jb.WellFormed) (out : List α) :
    (jb.pop out).2.2.cfg = jb.cfg ∧ (jb.pop out).2.2.newest_end_ts = jb.newest_end_ts := by
  have hat : ∀ {jb : JitterBuffer α} {play}, jb.play_ts = some play →
      (jb.pop_at play out).2.2.cfg = jb.cfg ∧
        (jb.pop_at play out).2.2.newest_end_ts = jb.newest_end_ts := by
    intro jb play hp
    cases hg : jb.frames.get play with
    | some x =>
        by_cases hx : x = []
        · subst hx
          obtain ⟨st, he⟩ := pop_at_marker out hg
          rw [he]
          exact ⟨rfl, rfl⟩
        · obtain ⟨st, he⟩ := pop_at_audio out hg hx
          rw [he]
          exact ⟨rfl, rfl⟩
    | none =>
        cases hs : jb.silent with
        | true =>
            obtain ⟨st, he⟩ := pop_at_silent_gap out hg hs
            rw [he]
            exact ⟨rfl, rfl⟩
        | false =>
            obtain ⟨st, ⟨-, he⟩ | ⟨-, -, he⟩ | ⟨-, he⟩⟩ := pop_at_gap out hp hg hs <;> rw [he] <;>
              exact ⟨rfl, rfl⟩
  rcases pop_cases h out with ⟨-, he⟩ | ⟨-, -, he⟩ | ⟨play, -, hp, he⟩ | ⟨play, -, -, -, he⟩ <;>
    rw [he]
  · exact ⟨rfl, rfl⟩
  · exact ⟨rfl, rfl⟩
  · exact hat hp
  · exact hat rfl

/-- Popping alone reaches a pop that plays, or rebuffering, or a position past everything with
nothing buffered. -/
theorem drain (st : Stream α) (h : jb.WellFormed) (hF : 0 < jb.cfg.frame_samples)
    (hb : jb.buffering = false) (hp : jb.play_ts = some p)
    (hpB : p + jb.cfg.frame_samples ≤ B)
    (hnB : jb.newest_end_ts + 2 * jb.cfg.frame_samples ≤ B) (hB : B ≤ U64_MAX) :
    ∃ jb', Fed st jb 0 jb' 0 ∧ jb'.cfg = jb.cfg ∧ jb'.newest_end_ts = jb.newest_end_ts ∧
      jb'.WellFormed ∧
      ((∀ out, (jb'.pop out).1 = .Played) ∨ jb'.buffering = true ∨
        ∃ q ≤ B, jb'.play_ts = some q ∧ jb'.buffering = false ∧ jb.newest_end_ts ≤ q ∧
          ∀ k, k ∉ jb'.frames) := by
  induction hm : jb.backlog p using Nat.strongRecOn generalizing jb p with
  | ind m ih =>
      have hw' := pop_wellFormed h ([] : List α)
      obtain ⟨hc, hn⟩ := pop_cfg h ([] : List α)
      have hfed : Fed st jb 0 (jb.pop []).2.2 0 := Fed.refl.pop []
      have hpop := pop_at_progress h hF hb hp (hpB.trans hB)
      rcases hpop with hplay | hbuf | ⟨q, hq, hb', hle, hlt, hdone⟩
      · exact ⟨jb, .refl, rfl, rfl, h, Or.inl hplay⟩
      · exact ⟨_, hfed, hc, hn, hw', Or.inr (Or.inl hbuf)⟩
      · by_cases hpn : p ≤ jb.newest_end_ts
        · obtain ⟨jb', hfed', hc', hn', hwf, hout⟩ := ih _ (hm ▸ hlt hpn) hw' (by rwa [hc]) hb' hq
            (by rw [hc]; omega) (by rw [hc, hn]; exact hnB) rfl
          rw [hn] at hout
          exact ⟨jb', hfed.trans hfed', hc'.trans hc, hn'.trans hn, hwf, hout⟩
        · obtain ⟨hnq, hempty⟩ := hdone (by omega)
          exact ⟨_, hfed, hc, hn, hw', Or.inr (Or.inr ⟨q, by omega, hq, hb', hnq, hempty⟩)⟩

end Drain

/-! ## 6. It plays again -/

/-- How far the timeline of the buffer has come at most once it has drained: its newest sample or
its position, and two frames. -/
def reach (jb : JitterBuffer α) : Nat :=
  max jb.newest_end_ts (jb.play_ts.getD 0) + 2 * jb.cfg.frame_samples

/-- How many frames of the stream bring the buffer to play, at most. They have to pass what it
holds and its position, then the jump limit beyond that, and may have to fill the buffer. The
figure is one of the state and of the stream's first timestamp. -/
def recovery (jb : JitterBuffer α) (st : Stream α) : Nat :=
  st.passing jb.cfg (jb.reach + jump_limit jb.cfg) + MAX_FRAMES

/-- From every well-formed state that is not stuck, a bounded number of consecutive frames and some
pops lead to a pop that plays. -/
theorem plays_again [Zero α] {jb : JitterBuffer α} (h : jb.WellFormed) (hphase : jb.Phase)
    (hF : 0 < jb.cfg.frame_samples)
    (hcap : max_target jb.cfg ≤ MAX_FRAMES * jb.cfg.frame_samples)
    {st : Stream α} (hfull : st.Full jb.cfg) (hfits : st.ts jb.cfg (jb.recovery st) ≤ U64_MAX) :
    ∃ jb' j, Fed st jb 0 jb' j ∧ j ≤ jb.recovery st ∧ ∀ out, (jb'.pop out).1 = .Played := by
  have hmax : MAX_FRAMES = 1024 := rfl
  have hfits' : ∀ n ≤ jb.recovery st, st.ts jb.cfg n ≤ U64_MAX :=
    fun n hn => (st.ts_le _ hn).trans hfits
  have hreach : jb.reach ≤ U64_MAX := by
    have hlt := st.lt_ts_passing hF (jb.reach + jump_limit jb.cfg)
    have := hfits' (st.passing jb.cfg (jb.reach + jump_limit jb.cfg)) (Nat.le_add_right _ _)
    omega
  -- the way from a buffering state, wherever it was reached
  have hbuffering : ∀ jb' : JitterBuffer α, jb'.cfg = jb.cfg →
      jb'.newest_end_ts = jb.newest_end_ts → jb'.WellFormed → jb'.buffering = true →
      ∃ jb'' j, Fed st jb' 0 jb'' j ∧ j ≤ jb.recovery st ∧
        ∀ out, (jb''.pop out).1 = .Played := by
    intro jb' hc hn hw hb
    let a := st.passing jb.cfg jb'.newest_end_ts
    have ha : a + MAX_FRAMES ≤ jb.recovery st := by
      refine Nat.add_le_add_right (st.passing_mono _ ?_) _
      rw [hn, reach]
      omega
    have hpast := fed_feed jb' st 0 a
    rw [Nat.zero_add] at hpast
    exact ⟨_, _, hpast.trans (fed_feed _ st _ MAX_FRAMES), ha,
      plays_from_buffering hc hF hfull hw hb hcap (st.lt_ts_passing hF _) (hfits' _ ha)⟩
  cases hb : jb.buffering with
  | true => exact hbuffering jb rfl rfl h hb
  | false =>
      cases hp : jb.play_ts with
      | none => exact absurd (hphase hp) (by simp [hb])
      | some p =>
          have hle : max jb.newest_end_ts p + 2 * jb.cfg.frame_samples = jb.reach := by
            rw [reach, hp, Option.getD_some]
          obtain ⟨jb', hfed, hc, hn, hw, hplay | hbuf | ⟨q, hq_le, hq, hb', hnq, hempty⟩⟩ :=
            drain (B := jb.reach) st h hF hb hp (by omega) (by omega) hreach
          · exact ⟨jb', 0, hfed, Nat.zero_le _, hplay⟩
          · obtain ⟨jb'', j, hfed', hj, hplay⟩ := hbuffering jb' hc hn hw hbuf
            exact ⟨jb'', j, hfed.trans hfed', hj, hplay⟩
          · have hpile : jb'.Piled jb.cfg st q 0 := by
              refine ⟨hc, hc ▸ hw.target_ge, hb', hq, (hn.trans_le hnq).trans (le_max_left _ _),
                fun k v hv => absurd (OrdMap.mem_iff_get.2 ⟨v, hv⟩) (hempty k)⟩
            have hpass : st.passing jb.cfg (q + jump_limit jb.cfg) + 1 ≤ jb.recovery st := by
              have := st.passing_mono jb.cfg (Nat.add_le_add_right hq_le (jump_limit jb.cfg))
              rw [recovery]
              omega
            obtain ⟨j, hj, hplay⟩ := plays_from_drained hF hfull hpile (hfits' _ hpass)
            have hfeed := fed_feed jb' st 0 j
            rw [Nat.zero_add] at hfeed
            exact ⟨_, j, hfed.trans hfeed, hj.trans hpass, hplay⟩

/-! ## 7. Runs -/

/-- A push that jumps still has a frame to jump to. -/
def Lands (jb : JitterBuffer α) : Op α → Prop
  | .push ts samples _ => ¬ jb.jump_empties ts samples
  | .push_silence ts _ => ¬ jb.jump_empties ts []
  | _ => True

theorem apply_phase [Zero α] {jb : JitterBuffer α} (hw : jb.WellFormed) (h : jb.Phase) {op : Op α}
    (hop : jb.Lands op) : (jb.apply op).Phase := by
  cases op with
  | push ts samples arrival => exact (push_phase_iff h hw.unplaced ts samples arrival).2 hop
  | push_silence ts arrival => exact (push_phase_iff h hw.unplaced ts [] arrival).2 hop
  | pop out => exact pop_phase hw h out
  | adapt =>
      simp only [apply, adapt]
      split <;> exact h
  | set_bounds a b => exact h
  | reset => exact fun _ => rfl

/-- **The buffer never wedges, unless a jump leaves it nothing.** In every run whose pushes all
land, a buffer without a position is buffering; and while the delay bounds in force fit the frame
cap, the first `recovery` frames of any stream of consecutive full frames whose timestamps are
64-bit values, with pops between them, lead to a pop that plays. -/
theorem never_wedges [Zero α] {cfg : JitterConfig} {tr : List (JitterBuffer α × Op α)}
    {jb : JitterBuffer α} (hr : (machine α cfg).Run tr jb) (hland : Machine.Meets Lands tr) :
    jb.Phase ∧
      (0 < jb.cfg.frame_samples → max_target jb.cfg ≤ MAX_FRAMES * jb.cfg.frame_samples →
        ∀ st : Stream α, st.Full jb.cfg → st.ts jb.cfg (jb.recovery st) ≤ U64_MAX →
          ∃ jb' j, Fed st jb 0 jb' j ∧ j ≤ jb.recovery st ∧ ∀ out, (jb'.pop out).1 = .Played) := by
  have hphase : jb.WellFormed ∧ jb.Phase := by
    refine hr.invariant_where (P := fun jb => jb.WellFormed ∧ jb.Phase) ?_ ?_ hland
    · rintro jb rfl
      exact ⟨new_wellFormed cfg, fun _ => rfl⟩
    · intro jb op h hop hl
      exact ⟨apply_wellFormed h.1 hop, apply_phase h.1 h.2 hl⟩
  exact ⟨hphase.2, fun hF hcap st hfull hfits => plays_again hphase.1 hphase.2 hF hcap hfull hfits⟩

/-- Any list of calls whose arguments have their types is a run. -/
theorem calls_run [Zero α] (cfg : JitterConfig) (ops : List (Op α)) (h : ∀ op ∈ ops, op.Typed) :
    (machine α cfg).Run ((machine α cfg).trace (new cfg) ops)
      ((machine α cfg).exec (new cfg) ops) := by
  have hadmits : ∀ jb, (machine α cfg).Admits jb ops := by
    induction ops with
    | nil => exact fun _ => trivial
    | cons op ops ih =>
        exact fun jb =>
          ⟨h op List.mem_cons_self, ih (fun o ho => h o (List.mem_cons_of_mem _ ho)) _⟩
  exact Machine.run_of_admits (M := machine α cfg) rfl (hadmits _)

/-- A push that does not fall behind the cut of its own jump lands. -/
theorem lands_of_le {jb : JitterBuffer α} {ts : Nat} {samples : Samples α}
    (h : jb.jump_to ts samples ≤ ts) (arrival : Nat) : jb.Lands (.push ts samples arrival) := by
  rintro ⟨-, hlt, -⟩
  omega

/-- 10 ms mono frames in the balanced profile's bounds. -/
def balanced_mono : JitterConfig :=
  { channels := 1, frame_samples := 480, min_delay_ms := 20, max_delay_ms := 80 }

def full_frame : Samples Nat := List.replicate 480 1

/-- Full frames from `start` on. -/
def full_stream (start : Nat) : Stream Nat :=
  { start := start, frame := fun _ => full_frame, arrival := fun _ => 0 }

theorem full_stream_full (start : Nat) : (full_stream start).Full balanced_mono :=
  fun _ => List.length_replicate

/-- A copy of the first frame is late, and the frame after it is two seconds ahead, so that playout
jumps to it. -/
def skip_calls : List (Op Nat) :=
  [.push 0 full_frame 0, .push 480 full_frame 480, .pop [], .push 0 full_frame 960,
    .push 96000 full_frame 96000]

theorem skip_calls_typed : ∀ op ∈ skip_calls, op.Typed := by
  simp only [skip_calls, List.forall_mem_cons, Op.Typed, U64_MAX]
  simp

theorem never_wedges_skip :
    let jb := (machine Nat balanced_mono).exec (new balanced_mono) skip_calls
    jb.play_ts = some 96000 ∧ jb.stats.late = 1 ∧ jb.Phase ∧
      ∃ jb' j, Fed (full_stream 96480) jb 0 jb' j ∧ j ≤ 1055 ∧
        ∀ out, (jb'.pop out).1 = .Played := by
  have hrun := calls_run balanced_mono skip_calls skip_calls_typed
  have hland : Machine.Meets Lands
      ((machine Nat balanced_mono).trace (new balanced_mono) skip_calls) := by
    simp only [Machine.Meets, Machine.trace, skip_calls, List.forall_mem_cons]
    refine ⟨lands_of_le (by decide +kernel) _, lands_of_le (by decide +kernel) _, trivial, ?_,
      lands_of_le (by decide +kernel) _, fun _ h => absurd h List.not_mem_nil⟩
    exact lands_of_le (by decide +kernel) _
  obtain ⟨hphase, hagain⟩ := never_wedges hrun hland
  have hc : ((machine Nat balanced_mono).exec (new balanced_mono) skip_calls).cfg
      = balanced_mono := by decide +kernel
  have hrec : ((machine Nat balanced_mono).exec (new balanced_mono) skip_calls).recovery
      (full_stream 96480) = 1055 := by decide +kernel
  have hplays := hagain (by rw [hc]; decide) (by rw [hc]; decide) (full_stream 96480)
    (by rw [hc]; exact full_stream_full _) (by rw [hrec, hc]; decide)
  rw [hrec] at hplays
  exact ⟨by decide +kernel, by decide +kernel, hphase, hplays⟩

/-- The sender is at two seconds, goes away, and comes back with a timeline that starts at zero: an
underrun clears the position but not the newest timestamp. -/
def restart_calls : List (Op Nat) :=
  [.push 96000 full_frame 0, .push 96480 full_frame 0, .pop [], .pop [],
    .pop [], .pop [], .pop [], .pop [], .pop [], .pop [],
    .push 0 full_frame 0, .pop [], .push 480 full_frame 0]

/-- The second frame of the restarted timeline makes playout jump to the end of the old one, past
all there is. From then on no pop plays, whatever is pushed. -/
theorem wedges_after_restart :
    let jb := restart_calls.foldl apply (new balanced_mono)
    (∃ tr, (machine Nat balanced_mono).Run tr jb) ∧ ¬ jb.Phase ∧
      ∀ ops : List (Op Nat), (∀ op ∈ ops, op ≠ .reset) →
        ∀ out, ((ops.foldl apply jb).pop out).1 = .Buffering := by
  have hstuck : (restart_calls.foldl apply (new balanced_mono)).buffering = false ∧
      (restart_calls.foldl apply (new balanced_mono)).play_ts = none := by decide +kernel
  generalize hjb : restart_calls.foldl apply (new balanced_mono) = jb at hstuck
  refine ⟨hjb ▸ ⟨_, calls_run balanced_mono restart_calls ?_⟩, fun h => ?_, fun ops hops out => ?_⟩
  · have htyped : ∀ op ∈ restart_calls, op.Typed := by
      simp only [restart_calls, List.forall_mem_cons, Op.Typed, U64_MAX]
      simp
    exact htyped
  · have hb := h hstuck.2
    rw [hstuck.1] at hb
    exact nomatch hb
  · have hall : (ops.foldl apply jb).buffering = false ∧ (ops.foldl apply jb).play_ts = none := by
      induction ops using List.reverseRecOn with
      | nil => exact hstuck
      | append_singleton ops op ih =>
          rw [List.foldl_append]
          have h := ih (fun o ho => hops o (List.mem_append_left _ ho))
          exact stuck_forever h.1 h.2 (hops op (by simp))
    rw [pop_stuck out hall.1 hall.2]

end SoundPush.JitterBuffer
