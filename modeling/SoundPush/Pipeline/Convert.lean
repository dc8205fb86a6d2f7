/-
`Convert` -- from pipeline blocks to device buffers (`sp-audio-io/src/convert.rs`),
over the rationals.

A call fills one buffer of the device and pulls a block of 480 frames whenever the
frames it converted before are used up; what is left over is carried to the next
call. Every access the source makes by index is checked here, and the loop of a
call runs on fuel, so that neither a panic nor an endless call can be missed. The
loop also notes, for each block it pulls, how many samples the device had been
given by then; the source has no such record, and nothing reads it back.

The specification looks at neither buffers nor leftovers: the pulled blocks one
after another, resampled as one piece, and of every frame what each channel of the
device is to play (`device_sample`). A converter in use has delivered a prefix of
that and carries the rest (`Serving`), and a call moves the boundary.
-/
import SoundPush.Media.Drift
import SoundPush.Media.Jitter
import SoundPush.Media.Profile

set_option autoImplicit false

namespace SoundPush

/-! ## 1. The converter -/

/-- What keeps a call from returning: an index out of range, or more turns than it was given. -/
inductive Stuck where
  | OutOfRange
  | OutOfFuel
  deriving DecidableEq

/-- Pulls 48 kHz frames from a pipeline callback and produces device buffers. -/
structure RenderConverter where
  device_rate : Nat
  device_channels : Nat
  in_channels : Nat
  resampler : Option FractionalResampler
  pipeline : List ℚ
  /-- converted device-rate samples not yet delivered -/
  pending : List ℚ
  pending_pos : Nat
  deriving DecidableEq

/-- `&list[start..][..len]`. -/
def slice (list : List ℚ) (start len : Nat) : Except Stuck (List ℚ) :=
  if start + len ≤ list.length then .ok ((list.drop start).take len) else .error .OutOfRange

/-- What is written over `n` samples of the device for one frame of the pipeline. -/
def map_channels (src : List ℚ) (n : Nat) : List ℚ :=
  if src.length = n then src
  else
    match src, n with
    | [x], n => List.replicate n x
    | [l, r], 1 => [(l + r) * (1 / 2)]
    | [l, r], n => l :: r :: List.replicate (n - 2) 0
    | _, n => List.replicate n 0

namespace RenderConverter

def new (device_rate device_channels in_channels : Nat) : RenderConverter where
  device_rate
  device_channels := max device_channels 1
  in_channels := clamp in_channels 1 2
  resampler :=
    if device_rate = SAMPLE_RATE then none
    else some (FractionalResampler.new (clamp in_channels 1 2))
  pipeline := List.replicate (480 * clamp in_channels 1 2) 0
  pending := []
  pending_pos := 0

/-- Convert the block that `pull` left in the pipeline buffer. -/
def refill (c : RenderConverter) (block : List ℚ) : RenderConverter :=
  match c.resampler with
  | none => { c with pipeline := block, pending := block, pending_pos := 0 }
  | some r =>
      let (resampled, r) := r.process block ((SAMPLE_RATE : ℚ) / c.device_rate)
      { c with pipeline := block, resampler := some r, pending := resampled, pending_pos := 0 }

/-- One turn of the `for` loop: frame `f` goes from the leftovers to the buffer. -/
def copy_frame (c : RenderConverter) (written : Nat) (out : List ℚ) (f : Nat) :
    Except Stuck (List ℚ) := do
  let src ← slice c.pending (c.pending_pos + f * c.in_channels) c.in_channels
  let dst ← slice out (written + f * c.device_channels) c.device_channels
  .ok (out.take (written + f * c.device_channels) ++ map_channels src dst.length ++
    out.drop (written + f * c.device_channels + dst.length))

def copy_frames (c : RenderConverter) (written frames : Nat) (out : List ℚ) :
    Except Stuck (List ℚ) := (List.range frames).foldlM (c.copy_frame written) out

/-- The `while` loop of a call, when earlier calls have filled `start` samples. `blocks n` is what
the callback leaves in the pipeline buffer when it is called after `n` other calls, and `pulls` has
an entry for each of these: how many samples the device had been given. -/
def fill_loop (blocks : Nat → List ℚ) (start : Nat) :
    Nat → RenderConverter → List Nat → List ℚ → Nat →
    Except Stuck (RenderConverter × List Nat × List ℚ)
  | 0, _, _, _, _ => .error .OutOfFuel
  | fuel + 1, c, pulls, out, written =>
      if written < out.length then
        -- a difference below zero would be out of range as well
        if c.pending.length < c.pending_pos then .error .OutOfRange
        else
          let available := (c.pending.length - c.pending_pos) / c.in_channels
          if available = 0 then
            fill_loop blocks start fuel (c.refill (blocks pulls.length))
              (pulls ++ [start + written]) out written
          else do
            let wanted := (out.length - written) / c.device_channels
            let frames := min available (max wanted 1)
            let out ← c.copy_frames written frames out
            let c := { c with pending_pos := c.pending_pos + frames * c.in_channels }
            if wanted = 0 then .ok (c, pulls, out)
            else fill_loop blocks start fuel c pulls out (written + frames * c.device_channels)
      else .ok (c, pulls, out)

/-- Fill `out` (device format) by pulling 10 ms 48 kHz blocks as needed. -/
def fill (blocks : Nat → List ℚ) (fuel start : Nat) (c : RenderConverter) (pulls : List Nat)
    (out : List ℚ) : Except Stuck (RenderConverter × List Nat × List ℚ) :=
  fill_loop blocks start fuel c pulls out 0

/-- The buffers of the device one after another. -/
def fill_all (blocks : Nat → List ℚ) (fuel : Nat) :
    Nat → RenderConverter → List Nat → List (List ℚ) →
    Except Stuck (RenderConverter × List Nat × List (List ℚ))
  | _, c, pulls, [] => .ok (c, pulls, [])
  | start, c, pulls, out :: rest => do
      let (c, pulls, filled) ← c.fill blocks fuel start pulls out
      let (c, pulls, more) ← fill_all blocks fuel (start + out.length) c pulls rest
      .ok (c, pulls, filled :: more)

end RenderConverter

/-! ## 2. What it is for -/

/-- The first `n` blocks, one after another. -/
def blocks_before (blocks : Nat → List ℚ) (n : Nat) : List ℚ := (List.range n).flatMap blocks

/-- Pipeline audio at the device's rate, all of it in one piece. -/
def resampling (device_rate in_channels : Nat) (input : List ℚ) : List ℚ :=
  if device_rate = SAMPLE_RATE then input
  else ((FractionalResampler.new in_channels).process input ((SAMPLE_RATE : ℚ) / device_rate)).1

/-- What a channel of the device is to play of a frame: mono on every channel, anything else on a
mono device as the mean of its channels, and otherwise each channel its own, with silence on the
channels that the frame does not have. -/
def device_sample (frame : List ℚ) (device_channels channel : Nat) : ℚ :=
  if frame.length = 1 then frame.getD 0 0
  else if device_channels = 1 then frame.sum / frame.length
  else frame.getD channel 0

/-- A frame as the device plays it, interleaved. -/
def device_frame (frame : List ℚ) (device_channels : Nat) : List ℚ :=
  (List.range device_channels).map (device_sample frame device_channels)

/-- Every frame of it, on the channels of the device. -/
def channel_mapping (in_channels device_channels : Nat) (input : List ℚ) : List ℚ :=
  (FractionalResampler.frames in_channels input).flatMap (device_frame · device_channels)

/-! ## 3. Frames on other channels -/

section Mapping

variable {k dev : Nat}

theorem length_device_frame (frame : List ℚ) (dev : Nat) :
    (device_frame frame dev).length = dev := by
  simp [device_frame]

/-- Mono and stereo frames are written as the device is to play them. -/
theorem map_channels_eq {frame : List ℚ} (hframe : 0 < frame.length) (hle : frame.length ≤ 2)
    (hdev : 0 < dev) : map_channels frame dev = device_frame frame dev := by
  obtain ⟨x, rfl⟩ | ⟨l, r, rfl⟩ : (∃ x, frame = [x]) ∨ ∃ l r, frame = [l, r] := by
    rcases frame with _ | ⟨x, _ | ⟨y, _ | ⟨z, l⟩⟩⟩
    · simp at hframe
    · exact .inl ⟨x, rfl⟩
    · exact .inr ⟨x, y, rfl⟩
    · simp at hle
  · have hmono : device_frame [x] dev = List.replicate dev x := by
      refine List.ext_getElem (by simp [device_frame]) fun i hi _ => ?_
      simp [device_frame, device_sample]
    rw [hmono]
    by_cases h : 1 = dev
    · subst h
      simp [map_channels]
    · simp [map_channels, h]
  · by_cases h1 : dev = 1
    · subst h1
      simp [map_channels, device_frame, device_sample, List.range_succ]
      ring
    · obtain ⟨n, rfl⟩ : ∃ n, dev = n + 2 := ⟨dev - 2, by omega⟩
      have hrest : (List.range n).map ((device_sample [l, r] (n + 2)) ∘ (· + 2)) =
          List.replicate n 0 := by
        refine List.ext_getElem (by simp) fun i hi _ => ?_
        simp [device_sample]
      have hstereo : device_frame [l, r] (n + 2) = l :: r :: List.replicate n 0 := by
        rw [device_frame, List.range_succ_eq_map, List.range_succ_eq_map, ← hrest]
        simp [device_sample, Function.comp_def]
      rw [hstereo]
      by_cases h2 : n = 0
      · subst h2
        simp [map_channels]
      · simp [map_channels, h2]

theorem length_flatMap_device_frame (l : List (List ℚ)) :
    (l.flatMap (device_frame · dev)).length = l.length * dev := by
  induction l with
  | nil => simp
  | cons src rest ih =>
      rw [List.flatMap_cons, List.length_append, ih, length_device_frame, List.length_cons]
      ring

theorem length_channel_mapping (input : List ℚ) :
    (channel_mapping k dev input).length = input.length / k * dev := by
  unfold channel_mapping
  rw [length_flatMap_device_frame, FractionalResampler.length_frames]

/-- A list as long as a frame is one. -/
theorem frames_single (hk : 0 < k) {frame : List ℚ} (h : frame.length = k) :
    FractionalResampler.frames k frame = [frame] := by
  unfold FractionalResampler.frames
  rw [h, Nat.div_self hk, List.range_one, List.map_singleton]
  refine congrArg (fun l => [l]) (List.ext_getElem (by simp [h]) fun i hi _ => ?_)
  have hlt : i < frame.length := by
    rw [List.length_map, List.length_range] at hi
    omega
  rw [List.getElem_map, List.getElem_range, Nat.zero_mul, Nat.zero_add,
    List.getD_eq_getElem _ _ hlt]

theorem channel_mapping_append (hk : 0 < k) {a : List ℚ} (ha : k ∣ a.length) (b : List ℚ) :
    channel_mapping k dev (a ++ b) = channel_mapping k dev a ++ channel_mapping k dev b := by
  unfold channel_mapping
  rw [FractionalResampler.frames_append hk ha, List.flatMap_append]

theorem channel_mapping_single (hk : 0 < k) {frame : List ℚ} (h : frame.length = k) :
    channel_mapping k dev frame = device_frame frame dev := by
  unfold channel_mapping
  rw [frames_single hk h, List.flatMap_singleton]

end Mapping

namespace RenderConverter

/-! ## 4. The inner loop -/

section CopyFrames

variable {c : RenderConverter} {out : List ℚ} {written : Nat}

theorem slice_eq {list : List ℚ} {start len : Nat} (h : start + len ≤ list.length) :
    slice list start len = .ok ((list.drop start).take len) := if_pos h

/-- The frames land behind each other, and the rest of the buffer is left alone. -/
theorem copy_frames_eq (hk : 0 < c.in_channels) (hstereo : c.in_channels ≤ 2)
    (hdev : 0 < c.device_channels) (frames : Nat)
    (hsrc : c.pending_pos + frames * c.in_channels ≤ c.pending.length)
    (hdst : written + frames * c.device_channels ≤ out.length) :
    c.copy_frames written frames out = .ok (out.take written ++
      channel_mapping c.in_channels c.device_channels
        ((c.pending.drop c.pending_pos).take (frames * c.in_channels)) ++
      out.drop (written + frames * c.device_channels)) := by
  unfold copy_frames
  induction frames with
  | zero => simp [channel_mapping, FractionalResampler.frames, pure, Except.pure]
  | succ f ih =>
      have hf : (f + 1) * c.in_channels = f * c.in_channels + c.in_channels := by ring
      have hg : (f + 1) * c.device_channels = f * c.device_channels + c.device_channels := by ring
      rw [hf] at hsrc
      rw [hg] at hdst
      rw [List.range_succ, List.foldlM_append, ih (by omega) (by omega)]
      have hrest : (c.pending.drop c.pending_pos).length =
          c.pending.length - c.pending_pos := List.length_drop
      generalize hpre : (c.pending.drop c.pending_pos).take (f * c.in_channels) = before
      have hbefore : before.length = f * c.in_channels := by
        rw [← hpre, List.length_take, hrest]
        omega
      have hdiv : before.length / c.in_channels = f := by
        rw [hbefore]
        exact Nat.mul_div_cancel f hk
      generalize hhead : out.take written ++
        channel_mapping c.in_channels c.device_channels before = head
      have hlen : head.length = written + f * c.device_channels := by
        rw [← hhead, List.length_append, List.length_take, length_channel_mapping, hdiv]
        omega
      -- the frame that the turn reads
      generalize hframe : ((c.pending.drop c.pending_pos).drop (f * c.in_channels)).take
        c.in_channels = frame
      have hlenframe : frame.length = c.in_channels := by
        rw [← hframe, List.length_take, List.length_drop, hrest]
        omega
      have hsplit : (c.pending.drop c.pending_pos).take ((f + 1) * c.in_channels) =
          before ++ frame := by
        rw [hf, List.take_add, hpre, hframe]
      have hread : slice c.pending (c.pending_pos + f * c.in_channels) c.in_channels =
          .ok frame := by
        rw [slice_eq (by omega), ← List.drop_drop, hframe]
      have hwrite : slice (head ++ out.drop (written + f * c.device_channels))
          (written + f * c.device_channels) c.device_channels =
            .ok ((out.drop (written + f * c.device_channels)).take c.device_channels) := by
        rw [slice_eq (by rw [List.length_append, List.length_drop]; omega), ← hlen,
          List.drop_left]
      have hdstlen : ((out.drop (written + f * c.device_channels)).take
          c.device_channels).length = c.device_channels := by
        rw [List.length_take, List.length_drop]
        omega
      have hstep : c.copy_frame written (head ++ out.drop (written + f * c.device_channels)) f =
          .ok (head ++ device_frame frame c.device_channels ++
            out.drop (written + (f * c.device_channels + c.device_channels))) := by
        unfold copy_frame
        rw [hread]
        change (slice _ _ _ >>= _) = _
        rw [hwrite]
        change Except.ok _ = _
        rw [hdstlen, map_channels_eq (by omega) (by omega) hdev, ← hlen, List.take_left,
          List.drop_append, Nat.add_sub_cancel_left,
          List.drop_eq_nil_of_le (Nat.le_add_right _ _), List.nil_append, List.drop_drop, hlen,
          Nat.add_assoc]
      change (c.copy_frame written _ f >>= pure) = _
      rw [hstep, hsplit, channel_mapping_append hk (by rw [hbefore]; exact Dvd.intro_left f rfl),
        channel_mapping_single hk hlenframe, ← List.append_assoc, hhead, hg]
      rfl

end CopyFrames

/-! ## 5. The pulled audio -/

section Stream

variable {rate k : Nat} {blocks : Nat → List ℚ}

/-- The resampler after the first `n` blocks. -/
def resampler_after (rate k : Nat) (blocks : Nat → List ℚ) (n : Nat) :
    Option FractionalResampler :=
  if rate = SAMPLE_RATE then none
  else some ((FractionalResampler.new k).process (blocks_before blocks n)
    ((SAMPLE_RATE : ℚ) / rate)).2

theorem blocks_before_succ (blocks : Nat → List ℚ) (n : Nat) :
    blocks_before blocks (n + 1) = blocks_before blocks n ++ blocks n := by
  unfold blocks_before
  rw [List.range_succ, List.flatMap_append, List.flatMap_singleton]

theorem length_blocks_before (hblocks : ∀ n, (blocks n).length = 480 * k) (n : Nat) :
    (blocks_before blocks n).length = n * 480 * k := by
  induction n with
  | zero => simp [blocks_before]
  | succ n ih =>
      rw [blocks_before_succ, List.length_append, ih, hblocks]
      ring

theorem new_channels (hk : 0 < k) : (FractionalResampler.new k).channels = k :=
  max_eq_left hk

/-- One more block: what was converted stays, and the rest follows it. -/
theorem resampling_succ (hk : 0 < k) (hrate : 0 < rate)
    (hblocks : ∀ n, (blocks n).length = 480 * k) {c : RenderConverter} {n : Nat}
    (hr : c.device_rate = rate) (hc : c.resampler = resampler_after rate k blocks n) :
    (c.refill (blocks n)).resampler = resampler_after rate k blocks (n + 1) ∧
      resampling rate k (blocks_before blocks (n + 1)) =
        resampling rate k (blocks_before blocks n) ++ (c.refill (blocks n)).pending ∧
      k ∣ (c.refill (blocks n)).pending.length := by
  have hbefore : k ∣ (blocks_before blocks n).length := by
    rw [length_blocks_before hblocks]
    exact Dvd.intro_left _ rfl
  -- At the rate of the pipeline the blocks pass through as they are.
  by_cases h : rate = SAMPLE_RATE
  · unfold resampler_after at hc
    rw [if_pos h] at hc
    unfold resampler_after resampling refill
    rw [if_pos h, if_pos h, if_pos h, hc]
    dsimp only
    refine ⟨rfl, blocks_before_succ blocks n, ?_⟩
    rw [hblocks]
    exact Dvd.intro_left 480 rfl
  · unfold resampler_after at hc
    rw [if_neg h] at hc
    have hratio : (0 : ℚ) < (SAMPLE_RATE : ℚ) / rate := by
      refine div_pos ?_ (by exact_mod_cast hrate)
      unfold SAMPLE_RATE
      norm_num
    have hstep := FractionalResampler.process_append (r := .new k)
      (by rw [new_channels hk]; exact hk) (by rw [new_channels hk]; exact hbefore) (blocks n)
      ((SAMPLE_RATE : ℚ) / rate)
    have hmoves := FractionalResampler.process_moves (FractionalResampler.new_ready k) hratio
      (blocks_before blocks n)
    obtain ⟨m, hm, -⟩ := (FractionalResampler.process_moves hmoves.ready hratio (blocks n)).moves
    rw [hmoves.channels_eq, new_channels hk] at hm
    unfold resampler_after resampling refill
    rw [if_neg h, if_neg h, if_neg h, hc, blocks_before_succ, hstep, hr]
    refine ⟨rfl, rfl, ?_⟩
    dsimp only
    rw [hm]
    exact Dvd.intro m rfl

/-- Enough blocks give as much as is wanted. -/
theorem resampling_grows (hk : 0 < k) (hrate : 0 < rate)
    (hblocks : ∀ n, (blocks n).length = 480 * k) (wanted : Nat) :
    ∃ n, wanted * k ≤ (resampling rate k (blocks_before blocks n)).length := by
  unfold resampling
  by_cases h : rate = SAMPLE_RATE
  · refine ⟨wanted, ?_⟩
    rw [if_pos h, length_blocks_before hblocks]
    refine Nat.mul_le_mul_right k ?_
    omega
  · have hratio : (0 : ℚ) < (SAMPLE_RATE : ℚ) / rate := by
      refine div_pos ?_ (by exact_mod_cast hrate)
      unfold SAMPLE_RATE
      norm_num
    generalize hdef : (SAMPLE_RATE : ℚ) / rate = ratio at hratio
    refine ⟨⌈wanted * ratio⌉₊ + 1, ?_⟩
    generalize hn : ⌈wanted * ratio⌉₊ + 1 = n
    have hcount : (blocks_before blocks n).length / max k 1 = n * 480 := by
      rw [length_blocks_before hblocks, max_eq_left hk]
      exact Nat.mul_div_cancel _ hk
    obtain ⟨hlen, -⟩ := FractionalResampler.process_new k hratio (blocks_before blocks n)
    rw [if_neg h, hlen, hcount, max_eq_left hk, if_neg (by omega), Nat.mul_comm]
    refine Nat.mul_le_mul_left k ?_
    -- The resampler needs three frames to begin with; a block has 480.
    have hceil : wanted * ratio ≤ ((n * 480 : Nat) : ℚ) - 3 := by
      have hle : (wanted : ℚ) * ratio ≤ ⌈wanted * ratio⌉₊ := Nat.le_ceil _
      have hn1 : (n : ℚ) = ⌈wanted * ratio⌉₊ + 1 := by
        rw [← hn]
        push_cast
        rfl
      have hpos : (0 : ℚ) ≤ ⌈wanted * ratio⌉₊ := Nat.cast_nonneg _
      push_cast
      rw [hn1]
      linarith
    have hdiv : (wanted : ℚ) ≤ (((n * 480 : Nat) : ℚ) - 3) / ratio := by
      rw [le_div_iff₀ hratio]
      exact hceil
    exact_mod_cast hdiv.trans (Nat.le_ceil _)

end Stream

/-! ## 6. A converter in use -/

section Serving

variable {rate dev k : Nat} {blocks : Nat → List ℚ}

/-- A converter that has pulled `n` blocks and delivered `given`: what it converted is what it
delivered the frames of, then what it still holds. -/
structure Serving (rate dev k : Nat) (blocks : Nat → List ℚ) (c : RenderConverter) (n : Nat)
    (given : List ℚ) : Prop where
  device_rate : c.device_rate = rate
  device_channels : c.device_channels = dev
  in_channels : c.in_channels = k
  resampler : c.resampler = resampler_after rate k blocks n
  pos_le : c.pending_pos ≤ c.pending.length
  frames : k ∣ c.pending.length - c.pending_pos
  delivered : ∃ used, k ∣ used.length ∧ given = channel_mapping k dev used ∧
    resampling rate k (blocks_before blocks n) = used ++ c.pending.drop c.pending_pos

/-- What the device can be given after `n` blocks. -/
def playable (rate dev k : Nat) (blocks : Nat → List ℚ) (n : Nat) : List ℚ :=
  channel_mapping k dev (resampling rate k (blocks_before blocks n))

theorem playable_mono (hk : 0 < k) (hrate : 0 < rate)
    (hblocks : ∀ n, (blocks n).length = 480 * k) {m n : Nat} (h : m ≤ n) :
    (playable rate dev k blocks m).length ≤ (playable rate dev k blocks n).length := by
  refine monotone_nat_of_le_succ (f := fun n => (playable rate dev k blocks n).length)
    (fun n => ?_) h
  have hstep := resampling_succ hk hrate hblocks (n := n)
    (c := ⟨rate, dev, k, resampler_after rate k blocks n, [], [], 0⟩) rfl rfl
  unfold playable
  rw [length_channel_mapping, length_channel_mapping, hstep.2.1, List.length_append]
  exact Nat.mul_le_mul_right dev (Nat.div_le_div_right (Nat.le_add_right _ _))

theorem playable_grows (hk : 0 < k) (hdev : 0 < dev) (hrate : 0 < rate)
    (hblocks : ∀ n, (blocks n).length = 480 * k) (wanted : Nat) :
    ∃ n, wanted ≤ (playable rate dev k blocks n).length := by
  obtain ⟨n, hn⟩ := resampling_grows hk hrate hblocks wanted
  refine ⟨n, ?_⟩
  unfold playable
  rw [length_channel_mapping]
  have hframes : wanted ≤ (resampling rate k (blocks_before blocks n)).length / k :=
    (Nat.le_div_iff_mul_le hk).2 hn
  exact hframes.trans (Nat.le_mul_of_pos_right _ hdev)

namespace Serving

variable {c : RenderConverter} {n : Nat} {given : List ℚ}

theorem given_begins (h : Serving rate dev k blocks c n given) (hk : 0 < k) :
    given <+: playable rate dev k blocks n := by
  obtain ⟨used, hused, rfl, hsplit⟩ := h.delivered
  unfold playable
  rw [hsplit, channel_mapping_append hk hused]
  exact List.prefix_append _ _

/-- A converter with no whole frame left has delivered everything. -/
theorem given_eq (h : Serving rate dev k blocks c n given)
    (hempty : (c.pending.length - c.pending_pos) / k = 0) :
    given = playable rate dev k blocks n := by
  obtain ⟨used, -, rfl, hsplit⟩ := h.delivered
  have hnone : c.pending.length - c.pending_pos = 0 := by
    rw [← Nat.div_mul_cancel h.frames, hempty, Nat.zero_mul]
  unfold playable
  rw [hsplit, List.drop_eq_nil_of_le (by omega), List.append_nil]

theorem refill (h : Serving rate dev k blocks c n given) (hk : 0 < k) (hrate : 0 < rate)
    (hblocks : ∀ n, (blocks n).length = 480 * k)
    (hempty : (c.pending.length - c.pending_pos) / k = 0) :
    Serving rate dev k blocks (c.refill (blocks n)) (n + 1) given := by
  obtain ⟨hres, hsplit', hdvd⟩ := resampling_succ hk hrate hblocks h.device_rate h.resampler
  obtain ⟨used, hused, hgiven, hsplit⟩ := h.delivered
  have hnone : c.pending.length - c.pending_pos = 0 := by
    rw [← Nat.div_mul_cancel h.frames, hempty, Nat.zero_mul]
  rw [List.drop_eq_nil_of_le (by omega), List.append_nil] at hsplit
  have hpos : (c.refill (blocks n)).pending_pos = 0 := by
    unfold RenderConverter.refill
    split <;> rfl
  have hsame : (c.refill (blocks n)).device_rate = c.device_rate ∧
      (c.refill (blocks n)).device_channels = c.device_channels ∧
      (c.refill (blocks n)).in_channels = c.in_channels := by
    unfold RenderConverter.refill
    split <;> exact ⟨rfl, rfl, rfl⟩
  refine ⟨hsame.1.trans h.device_rate, hsame.2.1.trans h.device_channels,
    hsame.2.2.trans h.in_channels, hres, ?_, ?_, used, hused, hgiven, ?_⟩
  · rw [hpos]
    exact Nat.zero_le _
  · rw [hpos]
    exact hdvd
  · rw [hsplit', hsplit, hpos, List.drop_zero]

/-- The next frames are delivered. -/
theorem advance (h : Serving rate dev k blocks c n given) (hk : 0 < k) {m : Nat}
    (hm : c.pending_pos + m * k ≤ c.pending.length) :
    Serving rate dev k blocks { c with pending_pos := c.pending_pos + m * k } n
      (given ++ channel_mapping k dev ((c.pending.drop c.pending_pos).take (m * k))) := by
  obtain ⟨used, hused, hgiven, hsplit⟩ := h.delivered
  have hlen : ((c.pending.drop c.pending_pos).take (m * k)).length = m * k := by
    rw [List.length_take, List.length_drop]
    omega
  refine ⟨h.device_rate, h.device_channels, h.in_channels, h.resampler, hm, ?_,
    used ++ (c.pending.drop c.pending_pos).take (m * k), ?_, ?_, ?_⟩
  · dsimp only
    rw [Nat.sub_add_eq]
    exact Nat.dvd_sub h.frames (Dvd.intro_left m rfl)
  · rw [List.length_append, hlen]
    exact Dvd.dvd.add hused (Dvd.intro_left m rfl)
  · rw [hgiven, channel_mapping_append hk hused]
  · dsimp only
    rw [hsplit, ← List.drop_drop, List.append_assoc, List.take_append_drop]

/-- What the inner loop copies is what comes next. -/
theorem copy {before out : List ℚ} {written m : Nat}
    (h : Serving rate c.device_channels c.in_channels blocks c n (before ++ out.take written))
    (hk : 0 < c.in_channels) (hstereo : c.in_channels ≤ 2) (hdev : 0 < c.device_channels)
    (hsrc : c.pending_pos + m * c.in_channels ≤ c.pending.length)
    (hdst : written + m * c.device_channels ≤ out.length) :
    ∃ out', c.copy_frames written m out = .ok out' ∧ out'.length = out.length ∧
      Serving rate c.device_channels c.in_channels blocks
        { c with pending_pos := c.pending_pos + m * c.in_channels } n
        (before ++ out'.take (written + m * c.device_channels)) := by
  have hserve := h.advance hk hsrc
  have hcopy := copy_frames_eq hk hstereo hdev m hsrc hdst
  generalize hcopied : channel_mapping c.in_channels c.device_channels
    ((c.pending.drop c.pending_pos).take (m * c.in_channels)) = copied at hserve hcopy
  have hlen : copied.length = m * c.device_channels := by
    rw [← hcopied, length_channel_mapping, List.length_take, List.length_drop,
      min_eq_left (by omega), Nat.mul_div_cancel m hk]
  have hnow : (out.take written ++ copied).length = written + m * c.device_channels := by
    rw [List.length_append, List.length_take, hlen]
    omega
  refine ⟨_, hcopy, ?_, ?_⟩
  · rw [List.length_append, hnow, List.length_drop]
    omega
  · rw [← hnow, List.take_left, ← List.append_assoc]
    exact hserve

end Serving

/-- The pulls so far: before each of them the device had all that the blocks before it gave. -/
def Logged (rate dev k : Nat) (blocks : Nat → List ℚ) (pulls : List Nat) : Prop :=
  pulls = (List.range pulls.length).map fun m => (playable rate dev k blocks m).length

theorem Logged.next {pulls : List Nat} (h : Logged rate dev k blocks pulls) {given : Nat}
    (hgiven : given = (playable rate dev k blocks pulls.length).length) :
    Logged rate dev k blocks (pulls ++ [given]) := by
  unfold Logged at h ⊢
  rw [List.length_append, List.length_singleton, List.range_succ, List.map_append,
    List.map_singleton, ← h, hgiven]

/-- One call. `N` is a number of blocks that holds enough for it: every turn of the loop either
writes a frame or pulls one of them. -/
theorem fill_loop_serves (hk : 0 < k) (hstereo : k ≤ 2) (hdev : 0 < dev) (hrate : 0 < rate)
    (hblocks : ∀ n, (blocks n).length = 480 * k) {N turns : Nat} {c : RenderConverter}
    {pulls : List Nat} {written : Nat} {out before : List ℚ} (hout : dev ∣ out.length)
    (hwritten : dev ∣ written) (hle : written ≤ out.length)
    (h : Serving rate dev k blocks c pulls.length (before ++ out.take written))
    (hN : before.length + out.length ≤ (playable rate dev k blocks N).length)
    (hlog : Logged rate dev k blocks pulls)
    (hneed : ∀ given ∈ pulls, given < before.length + out.length)
    (hturns : out.length - written + (N - pulls.length) < turns) :
    ∃ c' pulls' filled,
      (∀ fuel ≥ turns, fill_loop blocks before.length fuel c pulls out written =
        .ok (c', pulls', filled)) ∧
      filled.length = out.length ∧
      Serving rate dev k blocks c' pulls'.length (before ++ filled) ∧
      Logged rate dev k blocks pulls' ∧
      ∀ given ∈ pulls', given < before.length + out.length := by
  induction turns generalizing c pulls written out with
  | zero => omega
  | succ turns ih =>
      obtain rfl := h.in_channels
      obtain rfl := h.device_channels
      by_cases hmore : written < out.length
      · by_cases hempty : (c.pending.length - c.pending_pos) / c.in_channels = 0
        · -- everything pulled is delivered, and more is needed
          have hgiven := congrArg List.length (h.given_eq hempty)
          rw [List.length_append, List.length_take_of_le hle] at hgiven
          -- With `N` blocks pulled there would be enough for the buffer, and the loop would be
          -- through.
          have hnN : pulls.length < N := by
            by_contra hge
            have hmono : (playable rate c.device_channels c.in_channels blocks N).length ≤
                (playable rate c.device_channels c.in_channels blocks pulls.length).length :=
              playable_mono hk hrate hblocks (Nat.not_lt.1 hge)
            omega
          have hserve := h.refill hk hrate hblocks hempty
          have hlen : (pulls ++ [before.length + written]).length = pulls.length + 1 := by
            rw [List.length_append, List.length_singleton]
          rw [← hlen] at hserve
          obtain ⟨c', pulls', filled, hrun, hrest⟩ := ih hout hwritten hle hserve hN
            (hlog.next hgiven) (fun given hmem => by
              rcases List.mem_append.1 hmem with hmem | hmem
              · exact hneed given hmem
              · rw [List.mem_singleton.1 hmem]
                omega) (by rw [hlen]; omega)
          refine ⟨c', pulls', filled, fun fuel hfuel => ?_, hrest⟩
          obtain ⟨fuel, rfl⟩ := Nat.exists_eq_succ_of_ne_zero (by omega : fuel ≠ 0)
          rw [fill_loop, if_pos hmore, if_neg (Nat.not_lt.2 h.pos_le)]
          dsimp only
          rw [if_pos hempty]
          exact hrun fuel (by omega)
        · generalize hav : (c.pending.length - c.pending_pos) / c.in_channels = available at hempty
          have hdvd : c.device_channels ∣ out.length - written := Nat.dvd_sub hout hwritten
          generalize hwant : (out.length - written) / c.device_channels = wanted
          have hroom : wanted * c.device_channels = out.length - written := by
            rw [← hwant, Nat.div_mul_cancel hdvd]
          have hheld : available * c.in_channels = c.pending.length - c.pending_pos := by
            rw [← hav, Nat.div_mul_cancel h.frames]
          have hwant0 : wanted ≠ 0 := by
            rintro rfl
            omega
          -- As many frames as are pending and as there is room for, and at least one, so the loop
          -- gets on.
          generalize hmin : min available (max wanted 1) = m
          have hm : 0 < m ∧ m ≤ available ∧ m ≤ wanted := by omega
          have hsrc : c.pending_pos + m * c.in_channels ≤ c.pending.length := by
            have := Nat.mul_le_mul_right c.in_channels hm.2.1
            have := h.pos_le
            omega
          have hdst : written + m * c.device_channels ≤ out.length := by
            have := Nat.mul_le_mul_right c.device_channels hm.2.2
            omega
          obtain ⟨out', hcopy, houtlen, hserve⟩ := h.copy hk hstereo hdev hsrc hdst
          have hprogress : 0 < m * c.device_channels := Nat.mul_pos hm.1 hdev
          rw [← houtlen] at hout hdst hN hneed
          obtain ⟨c', pulls', filled, hrun, hfilled, hrest⟩ :=
            ih hout (Dvd.dvd.add hwritten (Dvd.intro_left m rfl)) hdst hserve hN hlog hneed
              (by omega)
          rw [houtlen] at hfilled hrest
          refine ⟨c', pulls', filled, fun fuel hfuel => ?_, hfilled, hrest⟩
          obtain ⟨fuel, rfl⟩ := Nat.exists_eq_succ_of_ne_zero (by omega : fuel ≠ 0)
          rw [fill_loop, if_pos hmore, if_neg (Nat.not_lt.2 h.pos_le), hav]
          dsimp only
          rw [if_neg hempty, hwant, hmin, hcopy]
          dsimp only [bind, Except.bind]
          rw [if_neg hwant0]
          exact hrun fuel (by omega)
      · have hall : out.take written = out := List.take_of_length_le (by omega)
        rw [hall] at h
        refine ⟨c, pulls, out, fun fuel hfuel => ?_, rfl, h, hlog, hneed⟩
        obtain ⟨fuel, rfl⟩ := Nat.exists_eq_succ_of_ne_zero (by omega : fuel ≠ 0)
        rw [fill_loop, if_neg hmore]

/-- All the calls. -/
theorem fill_all_serves (hk : 0 < k) (hstereo : k ≤ 2) (hdev : 0 < dev) (hrate : 0 < rate)
    (hblocks : ∀ n, (blocks n).length = 480 * k) {N turns : Nat} {outs : List (List ℚ)}
    {c : RenderConverter} {pulls : List Nat} {before : List ℚ}
    (houts : ∀ out ∈ outs, dev ∣ out.length)
    (h : Serving rate dev k blocks c pulls.length before)
    (hN : before.length + outs.flatten.length ≤ (playable rate dev k blocks N).length)
    (hlog : Logged rate dev k blocks pulls) (hneed : ∀ given ∈ pulls, given < before.length)
    (hturns : outs.flatten.length + N < turns) :
    ∃ c' pulls' filled,
      (∀ fuel ≥ turns, fill_all blocks fuel before.length c pulls outs =
        .ok (c', pulls', filled)) ∧
      filled.map List.length = outs.map List.length ∧
      Serving rate dev k blocks c' pulls'.length (before ++ filled.flatten) ∧
      Logged rate dev k blocks pulls' ∧
      ∀ given ∈ pulls', given < (before ++ filled.flatten).length := by
  induction outs generalizing c pulls before with
  | nil =>
      refine ⟨c, pulls, [], fun _ _ => rfl, rfl, ?_, hlog, ?_⟩
      · rw [List.flatten_nil, List.append_nil]
        exact h
      · rw [List.flatten_nil, List.append_nil]
        exact hneed
  | cons out rest ih =>
      rw [List.flatten_cons, List.length_append] at hN hturns
      have hstart : Serving rate dev k blocks c pulls.length (before ++ out.take 0) := by
        rw [List.take_zero, List.append_nil]
        exact h
      obtain ⟨c₁, pulls₁, filled, hrun, hlen, hserve, hlog₁, hneed₁⟩ :=
        fill_loop_serves hk hstereo hdev hrate hblocks (houts out List.mem_cons_self)
          (Nat.dvd_zero dev) (Nat.zero_le _) hstart (N := N) (by omega) hlog
          (fun given hmem => Nat.lt_of_lt_of_le (hneed given hmem) (Nat.le_add_right _ _))
          (by omega : out.length - 0 + (N - pulls.length) < turns)
      have hbefore : (before ++ filled).length = before.length + out.length := by
        rw [List.length_append, hlen]
      obtain ⟨c₂, pulls₂, more, hmore, hlens, hserve₂, hlog₂, hneed₂⟩ :=
        ih (fun out' hout' => houts out' (List.mem_cons_of_mem _ hout')) hserve
          (by rw [hbefore]; omega) hlog₁ (by rw [hbefore]; exact hneed₁) (by omega)
      rw [hbefore] at hmore
      refine ⟨c₂, pulls₂, filled :: more, ?_, ?_, ?_, hlog₂, ?_⟩
      · intro fuel hfuel
        rw [fill_all, fill, hrun fuel hfuel]
        dsimp only [bind, Except.bind]
        rw [hmore fuel hfuel]
      · rw [List.map_cons, List.map_cons, hlen, hlens]
      · rw [List.flatten_cons, ← List.append_assoc]
        exact hserve₂
      · rw [List.flatten_cons, ← List.append_assoc]
        exact hneed₂

end Serving

/-- A new converter has delivered nothing. -/
theorem new_serves (blocks : Nat → List ℚ) (rate device_channels in_channels : Nat) :
    Serving rate (max device_channels 1) (clamp in_channels 1 2) blocks
      (new rate device_channels in_channels) 0 [] := by
  have hnone : resampling rate (clamp in_channels 1 2) (blocks_before blocks 0) = [] ∧
      (new rate device_channels in_channels).resampler =
        resampler_after rate (clamp in_channels 1 2) blocks 0 := by
    unfold resampling resampler_after new
    by_cases h : rate = SAMPLE_RATE
    · rw [if_pos h, if_pos h]
      simp [blocks_before, h]
    · rw [if_neg h, if_neg h]
      simp [blocks_before, h, FractionalResampler.process, FractionalResampler.frames,
        FractionalResampler.process_frames]
  refine ⟨rfl, rfl, rfl, hnone.2, Nat.le_refl 0, Nat.dvd_zero _, [], Nat.dvd_zero _, ?_, ?_⟩
  · simp [channel_mapping, FractionalResampler.frames]
  · rw [hnone.1]
    rfl

/-- **Playback conversion loses nothing.** Whatever the lengths of the device's buffers: every call
returns and fills its buffer, no index is out of range, the buffers together are a prefix of the
mapped and resampled blocks, and at each pull the device had been given all of the blocks before it
and its buffers were not yet full. -/
theorem fills_exactly (device_rate device_channels in_channels : Nat) (hrate : 0 < device_rate)
    (blocks : Nat → List ℚ) (hblocks : ∀ n, (blocks n).length = 480 * clamp in_channels 1 2)
    (outs : List (List ℚ)) (houts : ∀ out ∈ outs, max device_channels 1 ∣ out.length) :
    ∃ c pulls filled enough,
      (∀ fuel ≥ enough,
        fill_all blocks fuel 0 (new device_rate device_channels in_channels) [] outs =
          .ok (c, pulls, filled)) ∧
      filled.map List.length = outs.map List.length ∧
      filled.flatten <+: channel_mapping (clamp in_channels 1 2) (max device_channels 1)
        (resampling device_rate (clamp in_channels 1 2) (blocks_before blocks pulls.length)) ∧
      pulls = (List.range pulls.length).map (fun m =>
        (channel_mapping (clamp in_channels 1 2) (max device_channels 1)
          (resampling device_rate (clamp in_channels 1 2) (blocks_before blocks m))).length) ∧
      ∀ given ∈ pulls, given < filled.flatten.length := by
  have hk : 0 < clamp in_channels 1 2 := le_clamp in_channels 1 2
  have hstereo : clamp in_channels 1 2 ≤ 2 := clamp_le (by decide)
  have hdev : 0 < max device_channels 1 := Nat.lt_of_lt_of_le Nat.zero_lt_one (le_max_right _ _)
  obtain ⟨N, hN⟩ := playable_grows hk hdev hrate hblocks outs.flatten.length
  -- nothing has been pulled or given at the start
  have hstart : Serving device_rate (max device_channels 1) (clamp in_channels 1 2) blocks
      (new device_rate device_channels in_channels) ([] : List Nat).length [] :=
    new_serves blocks device_rate device_channels in_channels
  obtain ⟨c, pulls, filled, hrun, hlens, hserve, hlog, hneed⟩ :=
    fill_all_serves hk hstereo hdev hrate hblocks houts hstart
      (by rw [List.length_nil, Nat.zero_add]; exact hN) rfl
      (fun given hmem => absurd hmem List.not_mem_nil) (Nat.lt_succ_self _)
  rw [List.nil_append] at hserve hneed
  exact ⟨c, pulls, filled, _, hrun, hlens, hserve.given_begins hk, hlog, hneed⟩

/-- Buffers of 500 frames, which is more than one block gives, of none and of one, at 44.1 kHz. -/
theorem fills_exactly_44k : ∃ c pulls filled enough,
    (∀ fuel ≥ enough, fill_all (fun n => List.replicate 480 (n : ℚ)) fuel 0 (new 44100 2 1) []
      [List.replicate 1000 0, [], [0, 0]] = .ok (c, pulls, filled)) ∧
    filled.map List.length = [1000, 0, 2] ∧
    filled.flatten <+: channel_mapping 1 2
      (resampling 44100 1 (blocks_before (fun n => List.replicate 480 (n : ℚ)) pulls.length)) ∧
    pulls = (List.range pulls.length).map (fun m => (channel_mapping 1 2 (resampling 44100 1
      (blocks_before (fun n => List.replicate 480 (n : ℚ)) m))).length) ∧
    ∀ given ∈ pulls, given < filled.flatten.length := by
  have houts : ∀ out ∈ [List.replicate 1000 (0 : ℚ), [], [0, 0]], max 2 1 ∣ out.length := by
    intro out hout
    simp only [List.mem_cons, List.not_mem_nil, or_false] at hout
    obtain rfl | rfl | rfl := hout
    · rw [List.length_replicate]
      decide
    · decide
    · decide
  obtain ⟨c, pulls, filled, enough, hrun, hlens, hrest⟩ :=
    fills_exactly 44100 2 1 (by decide) (fun n => List.replicate 480 (n : ℚ))
      (fun _ => List.length_replicate) _ houts
  refine ⟨c, pulls, filled, enough, hrun, ?_, hrest⟩
  rw [hlens, List.map_cons, List.length_replicate]
  rfl

end RenderConverter

end SoundPush
