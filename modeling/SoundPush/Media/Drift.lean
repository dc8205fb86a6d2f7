/-
`Drift` -- clock drift compensation (`sp-media/src/drift.rs`), over the rationals.

The resampler keeps four frames of history and a phase between the middle two; a
frame that comes in is followed by the output samples whose position lies before
the next one. Interleaved input is taken apart into frames first, so that feeding
chunks one by one is feeding the frames of all of them (`process_flatten`). How
much comes out is read off the phase: each output sample moves it by the ratio and
each frame moves it back by one (`process_moves`).
-/
import Mathlib.Data.List.GetD
import Mathlib.Data.Rat.Floor
import Mathlib.Algebra.Order.Field.Basic
import Mathlib.Algebra.Order.Floor.Semiring
import Mathlib.Tactic.Linarith
import Mathlib.Tactic.Ring
import Mathlib.Tactic.FieldSimp

set_option autoImplicit false

namespace SoundPush

/-! ## 1. The controller -/

/-- Maximum correction applied (±0.5 %). -/
def MAX_CORRECTION : ℚ := 5 / 1000

/-- `f64::clamp`. -/
def clamp_rat (x lo hi : ℚ) : ℚ := max lo (min x hi)

structure DriftController where
  kp : ℚ
  ki : ℚ
  integral : ℚ
  filtered_error : Option ℚ
  ratio : ℚ

namespace DriftController

def new : DriftController where
  kp := 2 / 1000000
  ki := 2 / 1000000000
  integral := 0
  filtered_error := none
  ratio := 1

/-- One turn of the controller on the fill level, in samples. -/
def update (d : DriftController) (buffered target : Nat) : DriftController :=
  let error : ℚ := buffered - target
  let filtered :=
    match d.filtered_error with
    | some prev => prev + (error - prev) * (2 / 100)
    | none => error
  let integral := clamp_rat (d.integral + filtered) (-2000000) 2000000
  let correction :=
    clamp_rat (d.kp * filtered + d.ki * integral) (-MAX_CORRECTION) MAX_CORRECTION
  { d with filtered_error := some filtered, integral, ratio := 1 + correction }

def reset (d : DriftController) : DriftController :=
  { d with integral := 0, filtered_error := none, ratio := 1 }

end DriftController

/-- The ratios that the controller gives. -/
def InClamp (ratio : ℚ) : Prop := 1 - MAX_CORRECTION ≤ ratio ∧ ratio ≤ 1 + MAX_CORRECTION

theorem InClamp.pos {ratio : ℚ} (h : InClamp ratio) : 0 < ratio := by
  have := h.1
  unfold MAX_CORRECTION at this
  linarith

theorem inClamp_one : InClamp 1 := by
  unfold InClamp MAX_CORRECTION
  norm_num

theorem DriftController.update_inClamp (d : DriftController) (buffered target : Nat) :
    InClamp (d.update buffered target).ratio := by
  unfold update InClamp clamp_rat
  dsimp only
  have hpos : (0 : ℚ) ≤ MAX_CORRECTION := by
    unfold MAX_CORRECTION
    norm_num
  constructor
  · rw [sub_eq_add_neg]
    exact add_le_add_right (le_max_left _ _) 1
  · refine add_le_add_right (max_le ?_ (min_le_right _ _)) 1
    linarith

/-! ## 2. The resampler -/

/-- The last four input samples of a channel. -/
structure History where
  y0 : ℚ
  y1 : ℚ
  y2 : ℚ
  y3 : ℚ
  deriving DecidableEq

def History.zero : History := ⟨0, 0, 0, 0⟩

/-- `rotate_left(1)`, and the new sample last. -/
def History.push (h : History) (x : ℚ) : History := ⟨h.y1, h.y2, h.y3, x⟩

def hermite (h : History) (t : ℚ) : ℚ :=
  let c0 := h.y1
  let c1 := 1 / 2 * (h.y2 - h.y0)
  let c2 := h.y0 - 5 / 2 * h.y1 + 2 * h.y2 - 1 / 2 * h.y3
  let c3 := 1 / 2 * (h.y3 - h.y0) + 3 / 2 * (h.y1 - h.y2)
  ((c3 * t + c2) * t + c1) * t + c0

/-- Streaming variable-ratio resampler for interleaved audio. -/
structure FractionalResampler where
  channels : Nat
  history : List History
  /-- read position between the middle two samples of the history -/
  phase : ℚ
  primed : Nat
  deriving DecidableEq

namespace FractionalResampler

def new (channels : Nat) : FractionalResampler where
  channels := max channels 1
  history := List.replicate (max channels 1) .zero
  phase := 0
  primed := 0

def reset (r : FractionalResampler) : FractionalResampler :=
  { r with history := r.history.map fun _ => .zero, phase := 0, primed := 0 }

/-- The interleaved samples, frame by frame. -/
def frames (channels : Nat) (input : List ℚ) : List (List ℚ) :=
  (List.range (input.length / channels)).map fun f =>
    (List.range channels).map fun c => input.getD (f * channels + c) 0

/-- Output samples while the position lies before the next input sample, at most `n` per channel. -/
def emit : Nat → List History → ℚ → ℚ → List ℚ × ℚ
  | 0, _, phase, _ => ([], phase)
  | n + 1, history, phase, ratio =>
      if phase < 1 then
        let (output, after) := emit n history (phase + ratio) ratio
        (history.map (fun h => hermite h phase) ++ output, after)
      else ([], phase)

/-- How often the position can move by `ratio` before it passes the next input sample: the rounds
of the source's `while` loop (`emit_rounds`). -/
def rounds (phase ratio : ℚ) : Nat := ⌈(1 - phase) / ratio⌉₊

/-- One turn of the loop over the input frames. -/
def process_frame (r : FractionalResampler) (ratio : ℚ) (frame : List ℚ) :
    List ℚ × FractionalResampler :=
  let r := { r with
    history := List.zipWith History.push r.history frame
    primed := min (r.primed + 1) 4 }
  if r.primed < 4 then ([], r)
  else
    let (output, phase) := emit (rounds r.phase ratio) r.history r.phase ratio
    (output, { r with phase := phase - 1 })

def process_frames (r : FractionalResampler) (ratio : ℚ) :
    List (List ℚ) → List ℚ × FractionalResampler
  | [] => ([], r)
  | frame :: rest =>
      let (output, r) := r.process_frame ratio frame
      let (more, r) := r.process_frames ratio rest
      (output ++ more, r)

theorem process_frames_cons (r : FractionalResampler) (ratio : ℚ) (frame : List ℚ)
    (rest : List (List ℚ)) : r.process_frames ratio (frame :: rest) =
      ((r.process_frame ratio frame).1 ++
          ((r.process_frame ratio frame).2.process_frames ratio rest).1,
        ((r.process_frame ratio frame).2.process_frames ratio rest).2) := rfl

/-- Resample `input`, `ratio` input samples per output sample. -/
def process (r : FractionalResampler) (input : List ℚ) (ratio : ℚ) :
    List ℚ × FractionalResampler := r.process_frames ratio (frames r.channels input)

/-- The chunks one after another. -/
def process_all (r : FractionalResampler) (ratio : ℚ) :
    List (List ℚ) → List ℚ × FractionalResampler
  | [] => ([], r)
  | chunk :: rest =>
      let (output, r) := r.process chunk ratio
      let (more, r) := r.process_all ratio rest
      (output ++ more, r)

theorem process_all_cons (r : FractionalResampler) (ratio : ℚ) (chunk : List ℚ)
    (rest : List (List ℚ)) : r.process_all ratio (chunk :: rest) =
      ((r.process chunk ratio).1 ++ ((r.process chunk ratio).2.process_all ratio rest).1,
        ((r.process chunk ratio).2.process_all ratio rest).2) := rfl

/-! ## 3. The rounds of the loop -/

section Rounds

variable {phase ratio : ℚ}

theorem rounds_eq_zero (hr : 0 < ratio) : rounds phase ratio = 0 ↔ 1 ≤ phase := by
  unfold rounds
  rw [Nat.ceil_eq_zero, div_le_iff₀ hr, zero_mul]
  constructor <;> intro h <;> linarith

/-- A round moves the position by the ratio. -/
theorem rounds_succ (hr : 0 < ratio) (h : phase < 1) :
    rounds phase ratio = rounds (phase + ratio) ratio + 1 := by
  have hsub : (1 - (phase + ratio)) / ratio = (1 - phase) / ratio - 1 := by
    field_simp
    ring
  have hpos : 0 < rounds phase ratio := by
    rw [Nat.pos_iff_ne_zero, Ne, rounds_eq_zero hr]
    exact not_le.2 h
  have hstep : rounds (phase + ratio) ratio = rounds phase ratio - 1 := by
    unfold rounds
    rw [hsub, Nat.ceil_sub_one]
  omega

/-- The rounds are those of the loop: it goes on while the position lies before the next sample. -/
theorem emit_rounds (hr : 0 < ratio) (history : List History) :
    emit (rounds phase ratio) history phase ratio =
      if phase < 1 then
        (history.map (fun h => hermite h phase) ++
            (emit (rounds (phase + ratio) ratio) history (phase + ratio) ratio).1,
          (emit (rounds (phase + ratio) ratio) history (phase + ratio) ratio).2)
      else ([], phase) := by
  by_cases h : phase < 1
  · rw [if_pos h, rounds_succ hr h]
    exact if_pos h
  · rw [if_neg h, (rounds_eq_zero hr).2 (not_lt.1 h)]
    rfl

/-- What the loop does to the position. -/
theorem emit_moves (hr : 0 < ratio) (history : List History) (n : Nat)
    (hn : rounds phase ratio = n) :
    (emit n history phase ratio).1.length = n * history.length ∧
      (emit n history phase ratio).2 = phase + n * ratio := by
  induction n generalizing phase with
  | zero => simp [emit]
  | succ n ih =>
      have h : phase < 1 := by
        by_contra hge
        rw [(rounds_eq_zero hr).2 (not_lt.1 hge)] at hn
        exact absurd hn (Nat.succ_ne_zero n).symm
      have hless : rounds (phase + ratio) ratio = n := by
        rw [rounds_succ hr h] at hn
        omega
      have hrest := ih hless
      unfold emit
      rw [if_pos h]
      dsimp only
      rw [List.length_append, List.length_map, hrest.1, hrest.2]
      constructor
      · ring
      · push_cast
        ring

/-- The loop leaves the position at or after the next sample, by less than a step. -/
theorem rounds_bounds (phase : ℚ) (hr : 0 < ratio) :
    1 ≤ phase + rounds phase ratio * ratio ∧
      (phase < 1 → phase + rounds phase ratio * ratio < 1 + ratio) := by
  have hle : (1 - phase) / ratio ≤ rounds phase ratio := Nat.le_ceil _
  rw [div_le_iff₀ hr] at hle
  refine ⟨by linarith, fun h => ?_⟩
  have hlt : (rounds phase ratio : ℚ) < (1 - phase) / ratio + 1 :=
    Nat.ceil_lt_add_one (div_nonneg (by linarith) hr.le)
  have hmul : (rounds phase ratio : ℚ) * ratio < ((1 - phase) / ratio + 1) * ratio :=
    mul_lt_mul_of_pos_right hlt hr
  rw [add_mul, div_mul_cancel₀ _ hr.ne', one_mul] at hmul
  linarith

end Rounds

/-! ## 4. What a call does to the position -/

/-- A resampler as it is between calls. -/
structure Ready (r : FractionalResampler) : Prop where
  channels_pos : 0 < r.channels
  history_length : r.history.length = r.channels
  phase_nonneg : 0 ≤ r.phase
  primed_le : r.primed ≤ 4

theorem new_ready (channels : Nat) : (new channels).Ready where
  channels_pos := Nat.lt_of_lt_of_le Nat.zero_lt_one (le_max_right _ _)
  history_length := List.length_replicate
  phase_nonneg := le_refl 0
  primed_le := Nat.zero_le 4

/-- How many of `n` frames find the history full, when `primed` frames came before. -/
def counted (primed n : Nat) : Nat := primed + n - 3 - (primed - 3)

/-- What `n` frames at one ratio do: the phase moves by the ratio for each output frame and back by
one for each frame that counts. -/
structure Moves (r : FractionalResampler) (ratio : ℚ) (n : Nat) (output : List ℚ)
    (r' : FractionalResampler) : Prop where
  channels_eq : r'.channels = r.channels
  primed_eq : r'.primed = min (r.primed + n) 4
  ready : r'.Ready
  moves : ∃ k : Nat, output.length = r.channels * k ∧
    r'.phase = r.phase + k * ratio - counted r.primed n
  bound : ∀ b, r.phase < b → ratio ≤ b → r'.phase < b

section Moves

variable {r : FractionalResampler} {ratio : ℚ}

theorem process_frame_moves (h : r.Ready) (hr : 0 < ratio) {frame : List ℚ}
    (hframe : frame.length = r.channels) :
    r.Moves ratio 1 (r.process_frame ratio frame).1 (r.process_frame ratio frame).2 := by
  have hlen : (List.zipWith History.push r.history frame).length = r.channels := by
    rw [List.length_zipWith, h.history_length, hframe, min_self]
  have hprimed := h.primed_le
  unfold process_frame
  dsimp only
  -- Nothing is put out until the history is full.
  by_cases hfull : min (r.primed + 1) 4 < 4
  · rw [if_pos hfull]
    refine ⟨rfl, rfl, ⟨h.channels_pos, hlen, h.phase_nonneg, min_le_right _ _⟩, ⟨0, rfl, ?_⟩,
      fun b hb _ => hb⟩
    have hzero : counted r.primed 1 = 0 := by
      unfold counted
      omega
    rw [hzero]
    simp
  · rw [if_neg hfull]
    obtain ⟨hout, hphase⟩ := emit_moves hr (List.zipWith History.push r.history frame) _
      (rfl : rounds r.phase ratio = rounds r.phase ratio)
    obtain ⟨hge, hlt⟩ := rounds_bounds r.phase hr
    have hone : counted r.primed 1 = 1 := by
      unfold counted
      omega
    refine ⟨rfl, rfl, ⟨h.channels_pos, hlen, ?_, min_le_right _ _⟩, ⟨rounds r.phase ratio, ?_, ?_⟩,
      fun b hb hrb => ?_⟩
    · dsimp only
      rw [hphase]
      linarith
    · rw [hout, hlen, Nat.mul_comm]
    · dsimp only
      rw [hphase, hone]
      norm_num
    · dsimp only
      rw [hphase]
      by_cases h1 : r.phase < 1
      · have := hlt h1
        linarith
      · rw [(rounds_eq_zero hr).2 (not_lt.1 h1)]
        push_cast
        linarith

theorem process_frames_moves (h : r.Ready) (hr : 0 < ratio) {l : List (List ℚ)}
    (hl : ∀ frame ∈ l, frame.length = r.channels) :
    r.Moves ratio l.length (r.process_frames ratio l).1 (r.process_frames ratio l).2 := by
  induction l generalizing r with
  | nil =>
      refine ⟨rfl, (min_eq_left h.primed_le).symm, h, ⟨0, rfl, ?_⟩, fun b hb _ => hb⟩
      have hzero : counted r.primed 0 = 0 := by
        unfold counted
        omega
      rw [List.length_nil, hzero]
      simp [process_frames]
  | cons frame rest ih =>
      have hfirst := process_frame_moves h hr (hl frame List.mem_cons_self)
      have hrest := ih hfirst.ready fun f hf => by
        rw [hfirst.channels_eq]
        exact hl f (List.mem_cons_of_mem _ hf)
      obtain ⟨k, hk, hkp⟩ := hfirst.moves
      obtain ⟨k', hk', hkp'⟩ := hrest.moves
      have hprimed := h.primed_le
      refine ⟨hrest.channels_eq.trans hfirst.channels_eq, ?_, hrest.ready, ⟨k + k', ?_, ?_⟩,
        fun b hb hrb => hrest.bound b (hfirst.bound b hb hrb) hrb⟩
      · rw [List.length_cons]
        have h1 := hfirst.primed_eq
        have h2 := hrest.primed_eq
        rw [process_frames_cons]
        dsimp only
        omega
      · rw [process_frames_cons, List.length_append, hk, hk', hfirst.channels_eq, Nat.mul_add]
      · rw [process_frames_cons]
        dsimp only
        -- Frames that only fill the history count for nothing, the others for one each.
        have hcount : counted r.primed (frame :: rest).length =
            counted r.primed 1 + counted (min (r.primed + 1) 4) rest.length := by
          unfold counted
          rw [List.length_cons]
          omega
        rw [hkp', hkp, hfirst.primed_eq, hcount]
        push_cast
        ring

end Moves

/-! ## 5. Frames and chunks -/

theorem length_frames (channels : Nat) (input : List ℚ) :
    (frames channels input).length = input.length / channels := by
  unfold frames
  rw [List.length_map, List.length_range]

theorem length_of_mem_frames {channels : Nat} {input frame : List ℚ}
    (h : frame ∈ frames channels input) : frame.length = channels := by
  unfold frames at h
  obtain ⟨_, _, rfl⟩ := List.mem_map.1 h
  rw [List.length_map, List.length_range]

/-- Whole frames, then more. -/
theorem frames_append {channels : Nat} (hc : 0 < channels) {a : List ℚ} (ha : channels ∣ a.length)
    (b : List ℚ) : frames channels (a ++ b) = frames channels a ++ frames channels b := by
  obtain ⟨m, hm⟩ := ha
  have hdiv : a.length / channels = m := by
    rw [hm]
    exact Nat.mul_div_cancel_left m hc
  have hsum : (a ++ b).length / channels = m + b.length / channels := by
    rw [List.length_append, hm, Nat.mul_add_div hc]
  unfold frames
  rw [hsum, hdiv, List.range_add, List.map_append, List.map_map]
  congr 1
  · refine List.map_congr_left fun f hf => List.map_congr_left fun c hc => ?_
    have hf := List.mem_range.1 hf
    have hc := List.mem_range.1 hc
    have hin : f * channels + c < a.length := by
      have : (f + 1) * channels ≤ m * channels := Nat.mul_le_mul_right _ hf
      rw [Nat.add_mul, Nat.one_mul] at this
      rw [hm, Nat.mul_comm channels m]
      omega
    exact List.getD_append _ _ _ _ hin
  · refine List.map_congr_left fun f _ => List.map_congr_left fun c _ => ?_
    have hidx : (m + f) * channels + c = a.length + (f * channels + c) := by
      rw [hm]
      ring
    rw [hidx, List.getD_append_right _ _ _ _ (Nat.le_add_right _ _), Nat.add_sub_cancel_left]

theorem process_frames_append (r : FractionalResampler) (ratio : ℚ) (l l' : List (List ℚ)) :
    r.process_frames ratio (l ++ l') =
      ((r.process_frames ratio l).1 ++ ((r.process_frames ratio l).2.process_frames ratio l').1,
        ((r.process_frames ratio l).2.process_frames ratio l').2) := by
  induction l generalizing r with
  | nil => rfl
  | cons frame rest ih =>
      rw [List.cons_append, process_frames_cons, process_frames_cons, ih, List.append_assoc]

theorem process_frames_channels (r : FractionalResampler) (ratio : ℚ) (l : List (List ℚ)) :
    (r.process_frames ratio l).2.channels = r.channels := by
  induction l generalizing r with
  | nil => rfl
  | cons frame rest ih =>
      rw [process_frames_cons]
      refine (ih (r.process_frame ratio frame).2).trans ?_
      unfold process_frame
      dsimp only
      split <;> rfl

/-- Whole frames, then more, in one call or in two. -/
theorem process_append {r : FractionalResampler} (hc : 0 < r.channels) {a : List ℚ}
    (ha : r.channels ∣ a.length) (b : List ℚ) (ratio : ℚ) :
    r.process (a ++ b) ratio = ((r.process a ratio).1 ++ ((r.process a ratio).2.process b ratio).1,
      ((r.process a ratio).2.process b ratio).2) := by
  unfold process
  rw [frames_append hc ha, process_frames_append, process_frames_channels]

/-- **Chunk invariance.** Chunks of whole frames one by one, or all of them at once. -/
theorem process_all_eq {r : FractionalResampler} (hc : 0 < r.channels) (ratio : ℚ)
    {chunks : List (List ℚ)} (h : ∀ chunk ∈ chunks, r.channels ∣ chunk.length) :
    r.process_all ratio chunks = r.process chunks.flatten ratio := by
  induction chunks generalizing r with
  | nil =>
      have hnil : frames r.channels [] = [] := by
        unfold frames
        rw [List.length_nil, Nat.zero_div]
        rfl
      unfold process_all process
      rw [List.flatten_nil, hnil]
      rfl
  | cons chunk rest ih =>
      have hchannels : (r.process chunk ratio).2.channels = r.channels :=
        process_frames_channels _ _ _
      have hrest := ih (by rwa [hchannels]) fun c hmem => by
        rw [hchannels]
        exact h c (List.mem_cons_of_mem _ hmem)
      rw [List.flatten_cons, process_append hc (h chunk List.mem_cons_self), process_all_cons,
        hrest]

theorem process_moves {r : FractionalResampler} (h : r.Ready) {ratio : ℚ} (hr : 0 < ratio)
    (input : List ℚ) :
    r.Moves ratio (input.length / r.channels) (r.process input ratio).1
      (r.process input ratio).2 := by
  unfold process
  rw [← length_frames]
  exact process_frames_moves h hr fun frame hframe => length_of_mem_frames hframe

/-- How much comes out of a fresh resampler, and where it stands afterwards. -/
theorem process_new (channels : Nat) {ratio : ℚ} (hr : 0 < ratio) (input : List ℚ) :
    let n := input.length / max channels 1
    (((new channels).process input ratio).1.length =
        max channels 1 * if n < 3 then 0 else ⌈((n : ℚ) - 3) / ratio⌉₊) ∧
      0 ≤ ((new channels).process input ratio).2.phase ∧
      ((new channels).process input ratio).2.phase < ratio := by
  intro n
  have hmoves := process_moves (new_ready channels) hr input
  obtain ⟨k, hk, hphase⟩ := hmoves.moves
  have hnonneg := hmoves.ready.phase_nonneg
  have hlt := hmoves.bound ratio hr le_rfl
  refine ⟨?_, hnonneg, hlt⟩
  rw [hk]
  refine congrArg (max channels 1 * ·) ?_
  change _ = (0 : ℚ) + k * ratio - counted 0 n at hphase
  by_cases hn : n < 3
  · rw [if_pos hn]
    have hzero : counted 0 n = 0 := by
      unfold counted
      omega
    rw [hphase, hzero] at hlt
    -- less than one step was made
    have hkr : (k : ℚ) * ratio < 1 * ratio := by
      push_cast at hlt
      linarith
    have hk1 := lt_of_mul_lt_mul_right hkr hr.le
    exact Nat.lt_one_iff.1 (by exact_mod_cast hk1)
  · rw [if_neg hn]
    have hcount : (counted 0 n : ℚ) = n - 3 := by
      have : counted 0 n = n - 3 := by
        unfold counted
        omega
      rw [this, Nat.cast_sub (Nat.le_of_not_lt hn)]
      norm_num
    rw [hphase, hcount, zero_add] at hlt hnonneg
    symm
    by_cases hk0 : k = 0
    · rw [hk0, Nat.ceil_eq_zero, div_le_iff₀ hr, zero_mul]
      rw [hk0, Nat.cast_zero, zero_mul] at hnonneg
      linarith
    · rw [Nat.ceil_eq_iff hk0, lt_div_iff₀ hr, div_le_iff₀ hr,
        Nat.cast_sub (Nat.one_le_iff_ne_zero.2 hk0)]
      push_cast
      constructor <;> linarith

end FractionalResampler

end SoundPush
