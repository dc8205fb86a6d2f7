/-
`MixReader` -- a mixed source's second capture, taken a frame at a time
(`MixReader::take` and `fill_ring` of `sp-engine/src/pipeline/sender.rs`).

The capture's callbacks run on their own thread, so a take sees the ring only when
it asks how much is queued; the callbacks that ran before each look are given with
the take. What leaves the ring is noted beside it, move by move: it is what the
claims about the stream are about, and nothing in the code reads it.
-/
import SoundPush.Lib.Machine
import SoundPush.Media.Drift

set_option autoImplicit false

namespace SoundPush

/-- More than this much waiting audio is dropped. -/
def MIX_MAX_BACKLOG_FRAMES : Nat := 6

/-- Frames held back before the mix takes from the second capture. -/
def MIX_PREFILL_FRAMES : Nat := 2

/-- A drift controller with any state, whose ratios stay in the clamp. -/
structure Controller (κ : Type) where
  new : κ
  update : κ → Nat → Nat → κ
  reset : κ → κ
  ratio : κ → ℚ
  inClamp : ∀ k, InClamp (ratio k)

/-- The samples queued between the capture callback and the encode thread. -/
structure Ring where
  samples : List ℚ
  capacity : Nat
  capture_overruns : Nat

/-- What a capture callback writes: as much as there is room for. -/
def fill_ring (ring : Ring) (samples : List ℚ) : Ring :=
  let n := min samples.length (ring.capacity - ring.samples.length)
  { ring with
    samples := ring.samples ++ samples.take n
    capture_overruns := ring.capture_overruns + if n < samples.length then 1 else 0 }

structure MixReader (κ : Type) where
  primed : Bool
  channels : Nat
  drift : κ
  resampler : FractionalResampler
  /-- resampled audio not yet mixed -/
  pending : List ℚ

/-- What the reader does to the stream. -/
inductive Move where
  | drop (samples : List ℚ)
  | read (samples : List ℚ) (ratio : ℚ)
  | underrun
  deriving DecidableEq

def Move.samples : Move → List ℚ
  | .drop samples => samples
  | .read samples _ => samples
  | .underrun => []

/-- A take under way. -/
structure Taking (κ : Type) where
  reader : MixReader κ
  ring : Ring
  /-- the callbacks that run before each further look at the ring -/
  coming : List (List (List ℚ))
  /-- what the callbacks have put in since the take began -/
  arrived : List ℚ
  moves : List Move

namespace MixReader

variable {κ : Type}

def new (controller : Controller κ) (channels : Nat) : MixReader κ where
  primed := false
  channels := max channels 1
  drift := controller.new
  resampler := .new (max channels 1)
  pending := []

/-- Whole interleaved frames only. -/
def whole (channels n : Nat) : Nat := n - n % channels

/-- `f64::round` of a number that is not negative. -/
def round (x : ℚ) : Nat := ⌊x + 1 / 2⌋₊

end MixReader

namespace Taking

variable {κ : Type}

/-- One callback. -/
def arrive (t : Taking κ) (samples : List ℚ) : Taking κ :=
  let ring := fill_ring t.ring samples
  { t with ring, arrived := t.arrived ++ ring.samples.drop t.ring.samples.length }

/-- The callbacks before the next look. -/
def look (t : Taking κ) : Taking κ :=
  { (t.coming.headD []).foldl arrive t with coming := t.coming.tail }

def slots (t : Taking κ) : Nat := t.ring.samples.length

/-- Samples dropped unheard. -/
def skip (t : Taking κ) (n : Nat) : Taking κ :=
  { t with
    ring := { t.ring with samples := t.ring.samples.drop n }
    moves := t.moves ++ [.drop (t.ring.samples.take n)] }

/-- Samples resampled into `pending`. -/
def read (controller : Controller κ) (t : Taking κ) (n : Nat) : Taking κ :=
  let scratch := t.ring.samples.take n
  let ratio := controller.ratio t.reader.drift
  let (output, resampler) := t.reader.resampler.process scratch ratio
  { t with
    reader := { t.reader with resampler, pending := t.reader.pending ++ output }
    ring := { t.ring with samples := t.ring.samples.drop n }
    moves := t.moves ++ [.read scratch ratio] }

section Read

variable (controller : Controller κ) (t : Taking κ) (n : Nat)

theorem read_pending : (t.read controller n).reader.pending = t.reader.pending ++
    (t.reader.resampler.process (t.ring.samples.take n) (controller.ratio t.reader.drift)).1 := rfl

theorem read_resampler : (t.read controller n).reader.resampler =
    (t.reader.resampler.process (t.ring.samples.take n) (controller.ratio t.reader.drift)).2 := rfl

theorem read_samples : (t.read controller n).ring.samples = t.ring.samples.drop n := rfl

theorem read_moves : (t.read controller n).moves =
    t.moves ++ [.read (t.ring.samples.take n) (controller.ratio t.reader.drift)] := rfl

end Read

/-- The capture ran dry: one silent frame, and start over from a fresh cushion. -/
def underrun (controller : Controller κ) (t : Taking κ) : Taking κ :=
  { t with
    reader := { t.reader with
      primed := false
      pending := []
      resampler := t.reader.resampler.reset
      drift := controller.reset t.reader.drift }
    moves := t.moves ++ [.underrun] }

/-- The frame is whole. -/
def finish (frame : Nat) (t : Taking κ) : List ℚ × Taking κ :=
  (t.reader.pending.take frame,
    { t with reader := { t.reader with primed := true, pending := t.reader.pending.drop frame } })

def silence (frame : Nat) : List ℚ := List.replicate frame 0

/-- One sample frame at a time until the output frame is whole, as long as the ring has them; in at
most `fuel` turns. -/
def top_up (controller : Controller κ) (frame : Nat) : Nat → Taking κ → Option (List ℚ × Taking κ)
  | 0, t => if t.reader.pending.length < frame then none else some (t.finish frame)
  | fuel + 1, t =>
      if t.reader.pending.length < frame then
        let t := t.look
        if t.slots < t.reader.channels then some (silence frame, t.underrun controller)
        else top_up controller frame fuel (t.read controller t.reader.channels)
      else some (t.finish frame)

/-- Backlog beyond the limit is dropped as a last resort. -/
def drop_stale (keep : Nat) (t : Taking κ) : Taking κ :=
  let t := t.look
  if t.slots > keep then
    let t := t.look
    t.skip (t.slots - keep)
  else t

/-- The controller sees the cushion without the backlog that the encoder shares. -/
def steer (controller : Controller κ) (frame behind : Nat) (t : Taking κ) : Taking κ :=
  { t with reader := { t.reader with
    drift := controller.update t.reader.drift (t.slots + t.reader.pending.length - behind)
      (frame * (MIX_PREFILL_FRAMES + 1)) } }

/-- What resampling needs to produce the rest of the frame, and the history the first time. -/
def need (controller : Controller κ) (frame : Nat) (t : Taking κ) : Nat :=
  let wanted := frame - t.reader.pending.length
  let need := MixReader.whole t.reader.channels
    (MixReader.round (wanted * controller.ratio t.reader.drift))
  if !t.reader.primed then need + 3 * t.reader.channels else need

/-- One frame of `frame` samples, `behind` samples of the other capture still queued. -/
def take (controller : Controller κ) (frame behind fuel : Nat) (t : Taking κ) :
    Option (List ℚ × Taking κ) :=
  let keep := frame * MIX_MAX_BACKLOG_FRAMES + behind
  let t := (t.drop_stale keep).look
  if !t.reader.primed && t.slots < frame * MIX_PREFILL_FRAMES then some (silence frame, t)
  else
    let t' := t.steer controller frame behind
    if t.slots < t'.need controller frame then some (silence frame, t'.underrun controller)
    else top_up controller frame fuel (t'.read controller (t'.need controller frame))

end Taking

/-! ## 1. What the moves make of the stream -/

/-- What has come out of the resampler since the last underrun, and the resampler. -/
def hear (acc : List ℚ × FractionalResampler) : Move → List ℚ × FractionalResampler
  | .drop _ => acc
  | .read samples ratio =>
      (acc.1 ++ (acc.2.process samples ratio).1, (acc.2.process samples ratio).2)
  | .underrun => ([], acc.2.reset)

def replay (base : List ℚ × FractionalResampler) (moves : List Move) :
    List ℚ × FractionalResampler := moves.foldl hear base

theorem replay_append (base : List ℚ × FractionalResampler) (a b : List Move) :
    replay base (a ++ b) = replay (replay base a) b := List.foldl_append

theorem reset_ready {r : FractionalResampler} (h : r.Ready) : r.reset.Ready where
  channels_pos := h.channels_pos
  history_length := (List.length_map _).trans h.history_length
  phase_nonneg := le_refl 0
  primed_le := Nat.zero_le 4

theorem whole_dvd (channels n : Nat) : channels ∣ MixReader.whole channels n := Nat.dvd_sub_mod n

namespace Taking

variable {κ : Type} (controller : Controller κ)

/-- How a take stands: `queued` was in the ring when it began, `base` is what had been resampled,
`given` what has been mixed of it since the last underrun. -/
structure Along (channels : Nat) (queued : List ℚ) (base : List ℚ × FractionalResampler)
    (given : List ℚ) (t : Taking κ) : Prop where
  channels_eq : t.reader.channels = channels
  resampler_channels : t.reader.resampler.channels = channels
  ready : t.reader.resampler.Ready
  phase_lt : t.reader.resampler.phase < 1 + MAX_CORRECTION
  pending_whole : channels ∣ t.reader.pending.length
  ring_whole : channels ∣ t.ring.samples.length
  capacity_whole : channels ∣ t.ring.capacity
  coming_whole : ∀ batch ∈ t.coming, ∀ samples ∈ batch, channels ∣ samples.length
  arrived_whole : channels ∣ t.arrived.length
  moves_whole : ∀ move ∈ t.moves, channels ∣ move.samples.length
  conserved : queued ++ t.arrived = t.moves.flatMap Move.samples ++ t.ring.samples
  heard : replay base t.moves = (given ++ t.reader.pending, t.reader.resampler)

section Steps

variable {channels : Nat} {queued : List ℚ} {base : List ℚ × FractionalResampler}
  {given : List ℚ} {t : Taking κ}

theorem Along.arrive (h : t.Along channels queued base given) {samples : List ℚ}
    (hwhole : channels ∣ samples.length) : (t.arrive samples).Along channels queued base given := by
  have htaken : channels ∣ min samples.length (t.ring.capacity - t.ring.samples.length) := by
    rcases min_choice samples.length (t.ring.capacity - t.ring.samples.length) with hm | hm
    · rw [hm]
      exact hwhole
    · rw [hm]
      exact Nat.dvd_sub h.capacity_whole h.ring_whole
  have hlen : (samples.take
      (min samples.length (t.ring.capacity - t.ring.samples.length))).length =
        min samples.length (t.ring.capacity - t.ring.samples.length) := by
    rw [List.length_take]
    omega
  have hnew : (t.arrive samples).arrived = t.arrived ++ samples.take
      (min samples.length (t.ring.capacity - t.ring.samples.length)) := by
    change t.arrived ++ List.drop _ (t.ring.samples ++ _) = _
    rw [List.drop_left]
  refine ⟨h.channels_eq, h.resampler_channels, h.ready, h.phase_lt, h.pending_whole, ?_,
    h.capacity_whole, h.coming_whole, ?_, h.moves_whole, ?_, h.heard⟩
  · change channels ∣ (t.ring.samples ++ _).length
    rw [List.length_append, hlen]
    exact Nat.dvd_add h.ring_whole htaken
  · rw [hnew, List.length_append, hlen]
    exact Nat.dvd_add h.arrived_whole htaken
  · rw [hnew, ← List.append_assoc, h.conserved, List.append_assoc]
    rfl

theorem Along.arrive_all (h : t.Along channels queued base given) {batch : List (List ℚ)}
    (hwhole : ∀ samples ∈ batch, channels ∣ samples.length) :
    (batch.foldl Taking.arrive t).Along channels queued base given := by
  induction batch generalizing t with
  | nil => exact h
  | cons samples rest ih =>
      exact ih (h.arrive (hwhole samples List.mem_cons_self)) fun s hs =>
        hwhole s (List.mem_cons_of_mem _ hs)

theorem Along.look (h : t.Along channels queued base given) :
    t.look.Along channels queued base given := by
  have hhead : ∀ samples ∈ t.coming.headD [], channels ∣ samples.length := by
    cases hcoming : t.coming with
    | nil => exact fun _ hs => absurd hs List.not_mem_nil
    | cons batch rest =>
        exact h.coming_whole batch (by rw [hcoming]; exact List.mem_cons_self)
  have hall := h.arrive_all hhead
  exact ⟨hall.channels_eq, hall.resampler_channels, hall.ready, hall.phase_lt, hall.pending_whole,
    hall.ring_whole, hall.capacity_whole,
    fun batch hb => h.coming_whole batch (List.mem_of_mem_tail hb), hall.arrived_whole,
    hall.moves_whole, hall.conserved, hall.heard⟩

theorem dvd_take_length {l : List ℚ} {n : Nat} (hl : channels ∣ l.length) (hn : channels ∣ n) :
    channels ∣ (l.take n).length := by
  rw [List.length_take]
  rcases min_choice n l.length with hm | hm
  · rwa [hm]
  · rwa [hm]

theorem Along.skip (h : t.Along channels queued base given) {n : Nat} (hn : channels ∣ n) :
    (t.skip n).Along channels queued base given := by
  refine ⟨h.channels_eq, h.resampler_channels, h.ready, h.phase_lt, h.pending_whole, ?_,
    h.capacity_whole, h.coming_whole, h.arrived_whole, ?_, ?_, ?_⟩
  · change channels ∣ (t.ring.samples.drop n).length
    rw [List.length_drop]
    exact Nat.dvd_sub h.ring_whole hn
  · intro move hmove
    rcases List.mem_append.1 hmove with hmove | hmove
    · exact h.moves_whole move hmove
    · rw [List.mem_singleton.1 hmove]
      exact dvd_take_length h.ring_whole hn
  · change _ = (t.moves ++ [_]).flatMap Move.samples ++ t.ring.samples.drop n
    rw [List.flatMap_append, List.flatMap_singleton, List.append_assoc]
    change _ = _ ++ (t.ring.samples.take n ++ t.ring.samples.drop n)
    rw [List.take_append_drop]
    exact h.conserved
  · change replay base (t.moves ++ [_]) = _
    rw [replay_append, h.heard]
    rfl

theorem Along.read (h : t.Along channels queued base given) {n : Nat} (hn : channels ∣ n) :
    (t.read controller n).Along channels queued base given := by
  have hr := controller.inClamp t.reader.drift
  have hmoves := FractionalResampler.process_moves h.ready hr.pos (t.ring.samples.take n)
  obtain ⟨k, hk, -⟩ := hmoves.moves
  refine ⟨h.channels_eq, hmoves.channels_eq.trans h.resampler_channels, hmoves.ready,
    hmoves.bound _ h.phase_lt hr.2, ?_, ?_, h.capacity_whole, h.coming_whole, h.arrived_whole, ?_,
    ?_, ?_⟩
  · rw [read_pending, List.length_append, hk, h.resampler_channels]
    exact Nat.dvd_add h.pending_whole (Nat.dvd_mul_right _ _)
  · rw [read_samples, List.length_drop]
    exact Nat.dvd_sub h.ring_whole hn
  · intro move hmove
    rw [read_moves] at hmove
    rcases List.mem_append.1 hmove with hmove | hmove
    · exact h.moves_whole move hmove
    · rw [List.mem_singleton.1 hmove]
      exact dvd_take_length h.ring_whole hn
  · rw [read_moves, read_samples, List.flatMap_append, List.flatMap_singleton, List.append_assoc]
    change _ = _ ++ (t.ring.samples.take n ++ t.ring.samples.drop n)
    rw [List.take_append_drop]
    exact h.conserved
  · rw [read_moves, read_pending, read_resampler, replay_append, h.heard, ← List.append_assoc]
    rfl

/-- An underrun: what had been resampled and not mixed is given up. -/
theorem Along.underrun (h : t.Along channels queued base given) :
    (t.underrun controller).Along channels queued base [] := by
  refine ⟨h.channels_eq, h.resampler_channels, reset_ready h.ready, ?_, Nat.dvd_zero _,
    h.ring_whole, h.capacity_whole, h.coming_whole, h.arrived_whole, ?_, ?_, ?_⟩
  · change (0 : ℚ) < 1 + MAX_CORRECTION
    unfold MAX_CORRECTION
    norm_num
  · intro move hmove
    rcases List.mem_append.1 hmove with hmove | hmove
    · exact h.moves_whole move hmove
    · rw [List.mem_singleton.1 hmove]
      exact Nat.dvd_zero _
  · change _ = (t.moves ++ [_]).flatMap Move.samples ++ t.ring.samples
    rw [List.flatMap_append, List.flatMap_singleton, List.append_assoc]
    exact h.conserved
  · change replay base (t.moves ++ [_]) = _
    rw [replay_append, h.heard]
    rfl

theorem Along.finish (h : t.Along channels queued base given) {frame : Nat}
    (hframe : channels ∣ frame) :
    (t.finish frame).2.Along channels queued base (given ++ (t.finish frame).1) := by
  refine ⟨h.channels_eq, h.resampler_channels, h.ready, h.phase_lt, ?_, h.ring_whole,
    h.capacity_whole, h.coming_whole, h.arrived_whole, h.moves_whole, h.conserved, ?_⟩
  · change channels ∣ (t.reader.pending.drop frame).length
    rw [List.length_drop]
    exact Nat.dvd_sub h.pending_whole hframe
  · change replay base t.moves =
      (given ++ t.reader.pending.take frame ++ t.reader.pending.drop frame, t.reader.resampler)
    rw [List.append_assoc, List.take_append_drop]
    exact h.heard

end Steps

/-! ## 2. How full the ring is -/

section Fill

variable {keep : Nat} {t : Taking κ}

/-- The ring holds no more than `keep`, apart from what arrived. -/
def Bounded (keep : Nat) (t : Taking κ) : Prop := t.slots ≤ keep + t.arrived.length

theorem Bounded.arrive (h : t.Bounded keep) (samples : List ℚ) :
    (t.arrive samples).Bounded keep := by
  have hslots : (t.arrive samples).slots = t.slots + (samples.take
      (min samples.length (t.ring.capacity - t.ring.samples.length))).length := List.length_append
  have harrived : (t.arrive samples).arrived.length = t.arrived.length + (samples.take
      (min samples.length (t.ring.capacity - t.ring.samples.length))).length := by
    change (t.arrived ++ List.drop _ (t.ring.samples ++ _)).length = _
    rw [List.drop_left, List.length_append]
  unfold Bounded at h ⊢
  omega

theorem Bounded.look (h : t.Bounded keep) : t.look.Bounded keep := by
  have hall : ((t.coming.headD []).foldl Taking.arrive t).Bounded keep := by
    generalize t.coming.headD [] = batch
    induction batch generalizing t with
    | nil => exact h
    | cons samples rest ih => exact ih (h.arrive samples)
  exact hall

theorem Bounded.read (h : t.Bounded keep) (n : Nat) : (t.read controller n).Bounded keep := by
  have hslots : (t.read controller n).slots ≤ t.slots := by
    unfold slots
    rw [read_samples, List.length_drop]
    exact Nat.sub_le _ _
  exact hslots.trans h

theorem drop_stale_bounded (keep : Nat) (t : Taking κ) : (t.drop_stale keep).Bounded keep := by
  unfold drop_stale Bounded
  dsimp only
  split
  · change (t.look.look.ring.samples.drop (t.look.look.slots - keep)).length ≤ _
    rw [List.length_drop]
    unfold slots
    omega
  · omega

end Fill

/-! ## 3. A take -/

section Take

variable {channels frame keep : Nat} {queued : List ℚ} {base : List ℚ × FractionalResampler}
  {given : List ℚ} {t : Taking κ}

/-- Twice the samples that are missing, and one more for each read that may yield nothing: while the
history fills, and once when the position lies past the next sample. -/
def left (frame : Nat) (t : Taking κ) : Nat :=
  2 * (frame - t.reader.pending.length) + (if 1 ≤ t.reader.resampler.phase then 1 else 0) +
    (3 - t.reader.resampler.primed)

theorem Along.read_left (h : t.Along channels queued base given)
    (hmore : t.reader.pending.length < frame) (hthere : channels ≤ t.slots) :
    (t.read controller channels).left frame < t.left frame := by
  have hr := controller.inClamp t.reader.drift
  have hmoves := FractionalResampler.process_moves h.ready hr.pos (t.ring.samples.take channels)
  have hpos : 0 < channels := h.resampler_channels ▸ h.ready.channels_pos
  -- A turn of the loop reads one frame.
  have hone : (t.ring.samples.take channels).length / t.reader.resampler.channels = 1 := by
    have hmin : min channels t.ring.samples.length = channels := Nat.min_eq_left hthere
    rw [List.length_take, hmin, h.resampler_channels]
    exact Nat.div_self hpos
  rw [hone] at hmoves
  obtain ⟨k, hk, hphase⟩ := hmoves.moves
  have hprimed := hmoves.primed_eq
  have hnonneg := hmoves.ready.phase_nonneg
  have hlt := h.phase_lt
  unfold left
  rw [read_pending, read_resampler, List.length_append, hk, h.resampler_channels, hprimed]
  by_cases hk0 : k = 0
  · rw [hk0, Nat.cast_zero, zero_mul, add_zero] at hphase
    by_cases hfull : t.reader.resampler.primed < 3
    · -- the history fills, and the position stays
      have hcounted : FractionalResampler.counted t.reader.resampler.primed 1 = 0 := by
        unfold FractionalResampler.counted
        omega
      rw [hcounted, Nat.cast_zero, sub_zero] at hphase
      rw [hk0, hphase]
      omega
    · -- nothing came out, so the position was past the sample and no longer is
      have hcounted : FractionalResampler.counted t.reader.resampler.primed 1 = 1 := by
        unfold FractionalResampler.counted
        omega
      rw [hcounted, Nat.cast_one] at hphase
      have hpast : 1 ≤ t.reader.resampler.phase := by linarith
      have hback : ¬ 1 ≤ t.reader.resampler.phase - 1 := by
        unfold MAX_CORRECTION at hlt
        linarith
      rw [hk0, hphase, if_pos hpast, if_neg hback]
      omega
  · have hout : 1 ≤ channels * k := Nat.mul_pos hpos (Nat.pos_of_ne_zero hk0)
    split <;> split <;> omega

/-- What a take comes to. -/
structure Took (channels frame keep : Nat) (queued : List ℚ)
    (base : List ℚ × FractionalResampler) (given : List ℚ) (out : List ℚ) (t : Taking κ) :
    Prop where
  bounded : t.Bounded keep
  outcome :
    (t.reader.primed = true ∧ out.length = frame ∧ .underrun ∉ t.moves ∧
      t.Along channels queued base (given ++ out)) ∨
    (t.reader.primed = false ∧ out = silence frame ∧ .underrun ∉ t.moves ∧
      t.Along channels queued base given) ∨
    (out = silence frame ∧ .underrun ∈ t.moves ∧ t.Along channels queued base [])

theorem Along.took_underrun (h : t.Along channels queued base given) (hb : t.Bounded keep) :
    Took channels frame keep queued base given (silence frame) (t.underrun controller) :=
  ⟨hb, .inr (.inr ⟨rfl, List.mem_append_right _ (List.mem_singleton_self _),
    h.underrun controller⟩)⟩

theorem Along.took_finish (h : t.Along channels queued base given) (hb : t.Bounded keep)
    (hcalm : .underrun ∉ t.moves) (hframe : channels ∣ frame)
    (hwhole : frame ≤ t.reader.pending.length) :
    Took channels frame keep queued base given (t.finish frame).1 (t.finish frame).2 := by
  refine ⟨hb, .inl ⟨rfl, ?_, hcalm, h.finish hframe⟩⟩
  change (t.reader.pending.take frame).length = frame
  rw [List.length_take]
  exact Nat.min_eq_left hwhole

theorem look_moves (t : Taking κ) : t.look.moves = t.moves := by
  change ((t.coming.headD []).foldl Taking.arrive t).moves = t.moves
  generalize t.coming.headD [] = batch
  induction batch generalizing t with
  | nil => rfl
  | cons samples rest ih => exact ih (t.arrive samples)

theorem look_reader (t : Taking κ) : t.look.reader = t.reader := by
  change ((t.coming.headD []).foldl Taking.arrive t).reader = t.reader
  generalize t.coming.headD [] = batch
  induction batch generalizing t with
  | nil => rfl
  | cons samples rest ih => exact ih (t.arrive samples)

theorem read_calm {n : Nat} (h : .underrun ∉ t.moves) :
    .underrun ∉ (t.read controller n).moves := by
  rw [read_moves, List.mem_append, not_or]
  exact ⟨h, fun hmem => nomatch List.mem_singleton.1 hmem⟩

/-- The loop ends: each read brings the frame closer. -/
theorem top_up_took {fuel : Nat} (h : t.Along channels queued base given) (hb : t.Bounded keep)
    (hcalm : .underrun ∉ t.moves) (hframe : channels ∣ frame) (hfuel : t.left frame ≤ fuel) :
    ∃ out t', top_up controller frame fuel t = some (out, t') ∧
      Took channels frame keep queued base given out t' := by
  induction fuel generalizing t with
  | zero =>
      have hdone : ¬ t.reader.pending.length < frame := by
        unfold left at hfuel
        omega
      refine ⟨_, _, if_neg hdone, ?_⟩
      exact h.took_finish hb hcalm hframe (Nat.le_of_not_lt hdone)
  | succ fuel ih =>
      unfold top_up
      by_cases hmore : t.reader.pending.length < frame
      · rw [if_pos hmore]
        dsimp only
        by_cases hdry : t.look.slots < t.look.reader.channels
        · rw [if_pos hdry]
          exact ⟨_, _, rfl, h.look.took_underrun controller hb.look⟩
        · rw [if_neg hdry]
          have hlook := h.look
          rw [hlook.channels_eq] at hdry ⊢
          have hless := hlook.read_left controller (by rwa [look_reader])
            (Nat.le_of_not_lt hdry)
          have hsame : t.look.left frame = t.left frame := by
            unfold left
            rw [look_reader]
          refine ih (hlook.read controller (Nat.dvd_refl _)) (hb.look.read controller _) ?_
            (by omega)
          exact read_calm controller (by rwa [look_moves])
      · rw [if_neg hmore]
        exact ⟨_, _, rfl, h.took_finish hb hcalm hframe (Nat.le_of_not_lt hmore)⟩

theorem Along.drop_stale (h : t.Along channels queued base given) (hkeep : channels ∣ keep)
    (hcalm : .underrun ∉ t.moves) :
    (t.drop_stale keep).Along channels queued base given ∧
      .underrun ∉ (t.drop_stale keep).moves := by
  have hlook := h.look
  unfold Taking.drop_stale
  dsimp only
  split
  · refine ⟨hlook.look.skip (Nat.dvd_sub hlook.look.ring_whole hkeep), ?_⟩
    intro hmem
    rcases List.mem_append.1 hmem with hmem | hmem
    · rw [look_moves, look_moves] at hmem
      exact hcalm hmem
    · exact nomatch List.mem_singleton.1 hmem
  · exact ⟨hlook, by rwa [look_moves]⟩

theorem Along.need_dvd (h : t.Along channels queued base given) (frame : Nat) :
    channels ∣ t.need controller frame := by
  unfold need
  dsimp only
  rw [h.channels_eq]
  split
  · exact Nat.dvd_add (whole_dvd _ _) (Nat.dvd_mul_left _ _)
  · exact whole_dvd _ _

theorem Along.steer (h : t.Along channels queued base given) (frame behind : Nat) :
    (t.steer controller frame behind).Along channels queued base given :=
  ⟨h.channels_eq, h.resampler_channels, h.ready, h.phase_lt, h.pending_whole, h.ring_whole,
    h.capacity_whole, h.coming_whole, h.arrived_whole, h.moves_whole, h.conserved, h.heard⟩

/-- A take ends, with silence or with a frame. -/
theorem take_took (h : t.Along channels queued base given) (hcalm : .underrun ∉ t.moves)
    (hframe : channels ∣ frame) {behind : Nat} (hbehind : channels ∣ behind) :
    ∃ out t', take controller frame behind (2 * frame + 4) t = some (out, t') ∧
      Took channels frame (frame * MIX_MAX_BACKLOG_FRAMES + behind) queued base given out t' := by
  have hkeep : channels ∣ frame * MIX_MAX_BACKLOG_FRAMES + behind :=
    Nat.dvd_add (Nat.dvd_mul_right_of_dvd hframe _) hbehind
  obtain ⟨hstale, hcalm'⟩ := h.drop_stale hkeep hcalm
  have hb := (drop_stale_bounded (frame * MIX_MAX_BACKLOG_FRAMES + behind) t).look
  have h₁ := hstale.look
  rw [← look_moves] at hcalm'
  unfold take
  dsimp only
  generalize (t.drop_stale (frame * MIX_MAX_BACKLOG_FRAMES + behind)).look = t₁ at hb h₁ hcalm' ⊢
  by_cases hwait : (!t₁.reader.primed && decide (t₁.slots < frame * MIX_PREFILL_FRAMES)) = true
  · rw [if_pos hwait]
    rw [Bool.and_eq_true, Bool.not_eq_true'] at hwait
    exact ⟨_, _, rfl, hb, .inr (.inl ⟨hwait.1, rfl, hcalm', h₁⟩)⟩
  · rw [if_neg hwait]
    have h₂ := h₁.steer controller frame behind
    by_cases hshort : t₁.slots < (t₁.steer controller frame behind).need controller frame
    · rw [if_pos hshort]
      exact ⟨_, _, rfl, h₂.took_underrun controller hb⟩
    · rw [if_neg hshort]
      have h₃ := h₂.read controller (h₂.need_dvd controller frame)
      refine top_up_took controller h₃
        (Bounded.read (t := t₁.steer controller frame behind) controller hb _)
        (read_calm (t := t₁.steer controller frame behind) controller hcalm') hframe ?_
      unfold left
      split <;> omega

end Take

end Taking

/-! ## 4. Runs -/

/-- The second capture of a mixed source, and what has become of its stream. -/
structure Mixing (κ : Type) where
  reader : MixReader κ
  ring : Ring
  /-- what the callbacks got into the ring, oldest first -/
  accepted : List ℚ
  moves : List Move
  /-- what has been mixed since the last underrun -/
  given : List ℚ

inductive MixEvent where
  | callback (samples : List ℚ)
  | take (frame behind : Nat) (coming : List (List (List ℚ)))

namespace Mixing

variable {κ : Type}

/-- A take begins. -/
def begin_take (m : Mixing κ) (coming : List (List (List ℚ))) : Taking κ :=
  { reader := m.reader, ring := m.ring, coming, arrived := [], moves := [] }

/-- Each read brings a sample out, or is one of a few that do not, so these turns are enough
(`takes_whole_frames`). -/
def turns (frame : Nat) : Nat := 2 * frame + 4

/-- A take has ended. -/
def after_take (m : Mixing κ) (out : List ℚ) (t : Taking κ) : Mixing κ where
  reader := t.reader
  ring := t.ring
  accepted := m.accepted ++ t.arrived
  moves := m.moves ++ t.moves
  given :=
    if .underrun ∈ t.moves then []
    else if t.reader.primed then m.given ++ out
    else m.given

def step (controller : Controller κ) (m : Mixing κ) : MixEvent → Mixing κ
  | .callback samples =>
      let ring := fill_ring m.ring samples
      { m with ring, accepted := m.accepted ++ ring.samples.drop m.ring.samples.length }
  | .take frame behind coming =>
      match (m.begin_take coming).take controller frame behind (turns frame) with
      | some (out, t) => m.after_take out t
      | none => m

/-- Callbacks deliver whole frames, and takes ask for one, in any order; the ring's room is a whole
number of frames (one second). -/
def machine (controller : Controller κ) (channels : Nat) : Machine (Mixing κ) MixEvent where
  init m := ∃ capacity, max channels 1 ∣ capacity ∧ m =
    { reader := .new controller channels
      ring := { samples := [], capacity, capture_overruns := 0 }
      accepted := [], moves := [], given := [] }
  enabled _
    | .callback samples => max channels 1 ∣ samples.length
    | .take frame behind coming => max channels 1 ∣ frame ∧ max channels 1 ∣ behind ∧
        ∀ batch ∈ coming, ∀ samples ∈ batch, max channels 1 ∣ samples.length
  step := step controller

/-- The stream and what has been made of it. -/
structure InOrder (channels : Nat) (m : Mixing κ) : Prop where
  channels_eq : m.reader.channels = channels
  resampler_channels : m.reader.resampler.channels = channels
  ready : m.reader.resampler.Ready
  phase_lt : m.reader.resampler.phase < 1 + MAX_CORRECTION
  pending_whole : channels ∣ m.reader.pending.length
  ring_whole : channels ∣ m.ring.samples.length
  capacity_whole : channels ∣ m.ring.capacity
  accepted_whole : channels ∣ m.accepted.length
  moves_whole : ∀ move ∈ m.moves, channels ∣ move.samples.length
  conserved : m.accepted = m.moves.flatMap Move.samples ++ m.ring.samples
  heard : replay ([], .new channels) m.moves =
    (m.given ++ m.reader.pending, m.reader.resampler)

variable (controller : Controller κ) {channels : Nat} {m : Mixing κ}

theorem InOrder.along (h : m.InOrder channels) {coming : List (List (List ℚ))}
    (hcoming : ∀ batch ∈ coming, ∀ samples ∈ batch, channels ∣ samples.length) :
    (m.begin_take coming).Along channels m.ring.samples
      (m.given ++ m.reader.pending, m.reader.resampler) m.given :=
  ⟨h.channels_eq, h.resampler_channels, h.ready, h.phase_lt, h.pending_whole, h.ring_whole,
    h.capacity_whole, hcoming, Nat.dvd_zero _, fun _ hm => absurd hm List.not_mem_nil,
    List.append_nil _, rfl⟩

/-- What a take along the stream leaves. -/
theorem InOrder.after (h : m.InOrder channels) {t : Taking κ} {given out : List ℚ}
    (ht : t.Along channels m.ring.samples (m.given ++ m.reader.pending, m.reader.resampler) given)
    (hgiven : (m.after_take out t).given = given) : (m.after_take out t).InOrder channels := by
  refine ⟨ht.channels_eq, ht.resampler_channels, ht.ready, ht.phase_lt, ht.pending_whole,
    ht.ring_whole, ht.capacity_whole, ?_, ?_, ?_, ?_⟩
  · change channels ∣ (m.accepted ++ t.arrived).length
    rw [List.length_append]
    exact Nat.dvd_add h.accepted_whole ht.arrived_whole
  · intro move hmove
    rcases List.mem_append.1 hmove with hmove | hmove
    · exact h.moves_whole move hmove
    · exact ht.moves_whole move hmove
  · change m.accepted ++ t.arrived = (m.moves ++ t.moves).flatMap Move.samples ++ t.ring.samples
    rw [h.conserved, List.flatMap_append, List.append_assoc, ht.conserved, List.append_assoc]
  · rw [hgiven]
    change replay _ (m.moves ++ t.moves) = (given ++ t.reader.pending, t.reader.resampler)
    rw [replay_append, h.heard]
    exact ht.heard

theorem InOrder.callback (h : m.InOrder channels) {samples : List ℚ}
    (hwhole : channels ∣ samples.length) :
    (m.step controller (.callback samples)).InOrder channels := by
  -- a callback is one that comes in a take that does nothing
  have hnone : ∀ batch ∈ ([] : List (List (List ℚ))), ∀ samples ∈ batch,
      channels ∣ samples.length := fun _ hb => absurd hb List.not_mem_nil
  have ht := (h.along hnone).arrive hwhole
  have hsame : m.step controller (.callback samples) =
      { m with
        ring := ((m.begin_take []).arrive samples).ring
        accepted := m.accepted ++ ((m.begin_take []).arrive samples).arrived } := rfl
  have hconserved := ht.conserved
  refine ⟨h.channels_eq, h.resampler_channels, h.ready, h.phase_lt, h.pending_whole, ht.ring_whole,
    ht.capacity_whole, ?_, h.moves_whole, ?_, h.heard⟩
  · rw [hsame, List.length_append]
    exact Nat.dvd_add h.accepted_whole ht.arrived_whole
  · rw [hsame]
    change m.accepted ++ _ = _
    rw [h.conserved, List.append_assoc, hconserved]
    rfl

/-- A take, from a stream in order. -/
theorem InOrder.take (h : m.InOrder channels) {frame behind : Nat} {coming : List (List (List ℚ))}
    (hframe : channels ∣ frame) (hbehind : channels ∣ behind)
    (hcoming : ∀ batch ∈ coming, ∀ samples ∈ batch, channels ∣ samples.length) :
    ∃ out t, (m.begin_take coming).take controller frame behind (turns frame) = some (out, t) ∧
      (out = Taking.silence frame ∨
        out.length = frame ∧ (m.after_take out t).given = m.given ++ out) ∧
      (m.after_take out t).InOrder channels ∧
      t.ring.samples.length ≤ frame * MIX_MAX_BACKLOG_FRAMES + behind + t.arrived.length := by
  obtain ⟨out, t, he, hb, hout⟩ := Taking.take_took controller (h.along hcoming)
    List.not_mem_nil hframe hbehind
  refine ⟨out, t, he, ?_⟩
  rcases hout with ⟨hprimed, hlen, hcalm, ht⟩ | ⟨hprimed, hsilent, hcalm, ht⟩ |
    ⟨hsilent, hdry, ht⟩
  · have hgiven : (m.after_take out t).given = m.given ++ out := by
      unfold after_take
      dsimp only
      rw [if_neg hcalm, if_pos hprimed]
    exact ⟨.inr ⟨hlen, hgiven⟩, h.after ht hgiven, hb⟩
  · refine ⟨.inl hsilent, h.after ht ?_, hb⟩
    unfold after_take
    dsimp only
    rw [if_neg hcalm, hprimed]
    rfl
  · exact ⟨.inl hsilent, h.after ht (if_pos hdry), hb⟩

theorem reachable_inOrder {tr : List (Mixing κ × MixEvent)}
    (hr : (machine controller channels).Run tr m) : m.InOrder (max channels 1) := by
  refine hr.invariant ?_ ?_
  · rintro _ ⟨capacity, hcapacity, rfl⟩
    have hch : max (max channels 1) 1 = max channels 1 := max_eq_left (le_max_right _ _)
    refine ⟨rfl, hch, FractionalResampler.new_ready _, ?_, Nat.dvd_zero _, Nat.dvd_zero _,
      hcapacity, Nat.dvd_zero _, fun _ hm => absurd hm List.not_mem_nil, rfl, rfl⟩
    change (0 : ℚ) < 1 + MAX_CORRECTION
    unfold MAX_CORRECTION
    norm_num
  · intro m e h he
    cases e with
    | callback samples => exact h.callback controller he
    | take frame behind coming =>
        obtain ⟨hframe, hbehind, hcoming⟩ := he
        obtain ⟨out, t, htake, -, hnext, -⟩ := h.take controller hframe hbehind
          hcoming
        change (step controller m (.take frame behind coming)).InOrder _
        unfold step
        dsimp only
        rw [htake]
        exact hnext

/-- **Whole frames.** In every run of callbacks and takes: what was accepted is what left the ring,
in order, and what is queued, all of it in whole frames; what was mixed since the last underrun and
what waits to be is the resampling of what was read; and a take ends with silence or with the next
frame of that, and the ring within its limit. -/
theorem takes_whole_frames {tr : List (Mixing κ × MixEvent)}
    (hr : (machine controller channels).Run tr m) :
    (m.accepted = m.moves.flatMap Move.samples ++ m.ring.samples ∧
      max channels 1 ∣ m.accepted.length ∧ ∀ move ∈ m.moves, max channels 1 ∣ move.samples.length) ∧
    (replay ([], .new (max channels 1)) m.moves).1 = m.given ++ m.reader.pending ∧
    ∀ frame behind coming,
      (machine controller channels).enabled m (.take frame behind coming) → ∃ out t,
        (m.begin_take coming).take controller frame behind (turns frame) = some (out, t) ∧
        m.step controller (.take frame behind coming) = m.after_take out t ∧
        (out = Taking.silence frame ∨ out.length = frame ∧
          (m.after_take out t).given = m.given ++ out) ∧
        t.ring.samples.length ≤
          frame * MIX_MAX_BACKLOG_FRAMES + behind + t.arrived.length := by
  have h := reachable_inOrder controller hr
  refine ⟨⟨h.conserved, h.accepted_whole, h.moves_whole⟩, by rw [h.heard], ?_⟩
  rintro frame behind coming ⟨hframe, hbehind, hcoming⟩
  obtain ⟨out, t, htake, hout, -, hlimit⟩ := h.take controller hframe hbehind hcoming
  refine ⟨out, t, htake, ?_, hout, hlimit⟩
  unfold step
  dsimp only
  rw [htake]

/-- A controller that never corrects. -/
def steady : Controller Unit := ⟨(), fun _ _ _ => (), fun _ => (), fun _ => 1, fun _ => inClamp_one⟩

def fresh : Mixing Unit where
  reader := .new steady 2
  ring := { samples := [], capacity := 96000, capture_overruns := 0 }
  accepted := []
  moves := []
  given := []

/-- Eight stereo frames come in, and two are mixed. -/
def eight_frames : List MixEvent :=
  [.callback [1, 2, 3, 4, 5, 6, 7, 8, 9, 10, 11, 12, 13, 14, 15, 16], .take 4 0 []]

theorem takes_whole_frames_stereo :
    ((machine steady 2).exec fresh eight_frames).given = [3, 4, 5, 6] ∧
      (replay ([], .new 2) ((machine steady 2).exec fresh eight_frames).moves).1 =
        [3, 4, 5, 6] ++ ((machine steady 2).exec fresh eight_frames).reader.pending := by
  have hwhole : (machine steady 2).Admits fresh eight_frames := by
    refine ⟨⟨8, rfl⟩, ⟨⟨2, rfl⟩, ⟨0, rfl⟩, ?_⟩, trivial⟩
    exact fun _ hb => absurd hb List.not_mem_nil
  have hgiven : ((machine steady 2).exec fresh eight_frames).given = [3, 4, 5, 6] := by
    decide +kernel
  have hr := Machine.run_of_admits (M := machine steady 2) ⟨96000, ⟨48000, rfl⟩, rfl⟩ hwhole
  refine ⟨hgiven, ?_⟩
  rw [← hgiven]
  exact (takes_whole_frames steady hr).2.1

end Mixing

end SoundPush
