/-
`Playback` -- the render callback (`Playout::fill` of
`sp-engine/src/pipeline/receiver.rs`).

A call takes the packets that are waiting, then pops frames from the jitter buffer
and resamples them until there is as much as the device asked for. Every frame
yields at least one output sample, so as many turns as samples are asked for are
enough (`fill_acc_some`). What decodes, conceals a loss or suppresses noise is a
parameter; it rewrites the frame buffer where it is and cannot change its length.
What happens to the finished samples (volume, balance, meter) is left out.
-/
import SoundPush.Media.Drift
import SoundPush.Media.JitterLive
import SoundPush.Media.Profile
import SoundPush.Pipeline.Receiver

set_option autoImplicit false

namespace SoundPush

/-- A step that rewrites a buffer where it is, with a state of its own. -/
structure InPlace (σ : Type) where
  run : σ → List ℚ → List ℚ × σ
  length_run : ∀ s buf, (run s buf).1.length = buf.length

/-- The audio thread; `ν` is the noise suppressor's state. -/
structure Playback (δ ν : Type) extends Playout δ ℚ where
  channels : Nat
  drift : DriftController
  resampler : FractionalResampler
  frame_buf : List ℚ
  acc : List ℚ
  /-- built on first use -/
  denoiser : Option ν
  pulls : Nat
  /-- delay bounds in ms, and the audio-video offset, as last applied -/
  bounds : Nat × Nat × Int

/-- One call of the render callback: what the controls say and the network delivers meanwhile, and
how many samples the device asks for. -/
structure Pull where
  bounds : Nat × Nat × Int
  packets : List InboundPacket
  /-- whether noise suppression is on, turn by turn -/
  noise_suppression : Nat → Bool
  length : Nat

namespace Playback

variable {δ ν : Type}

def new (profile : StreamProfile) (decoder : δ) (min_ms max_ms : Nat) : Playback δ ν :=
  let channels := clamp profile.channels 1 2
  let frame := samples_per_frame profile.frame_us
  { frame_samples := frame
    codec := if profile.codec % 256 = Codec.PcmS16Le.id then .PcmS16Le else .Opus
    decoder
    jitter := JitterBuffer.new
      { channels, frame_samples := frame, min_delay_ms := min_ms, max_delay_ms := max_ms }
    packets_received := 0
    packets_recovered := 0
    decode_errors := 0
    channels
    drift := .new
    resampler := .new channels
    frame_buf := List.replicate (frame * channels) 0
    acc := []
    denoiser := none
    pulls := 0
    bounds := (min_ms, max_ms, 0) }

/-- The delay bounds follow the controls. -/
def apply_bounds (p : Playback δ ν) (bounds : Nat × Nat × Int) : Playback δ ν :=
  if bounds ≠ p.bounds then
    let (min_ms, max_ms, offset) := bounds
    let extra := (max offset 0).toNat
    { p with jitter := p.jitter.set_bounds (min_ms + extra) (max_ms + extra), bounds }
  else p

/-- One packet of `drain_network`; a new timeline resets the drift estimate too. -/
def receive (decode : δ → Bytes → Option (Samples ℚ) × δ) (p : Playback δ ν)
    (packet : InboundPacket) : Playback δ ν :=
  { p with
    toPlayout := p.toPlayout.receive decode packet
    drift := if packet.codec = p.codec ∧ packet.discontinuity then p.drift.reset else p.drift }

/-- What becomes of the popped frame, and the ratio it is resampled with. -/
def conceal_frame (conceal : InPlace δ) (p : Playback δ ν) (status : PopStatus) (buf : List ℚ) :
    List ℚ × ℚ × Playback δ ν :=
  match status with
  | .Played =>
      let drift := p.drift.update p.jitter.buffered_samples p.jitter.target_samples
      (buf, drift.ratio, { p with drift })
  | .Missing =>
      let (buf, decoder) := conceal.run p.decoder buf
      (buf, p.drift.ratio, { p with decoder })
  | .Buffering => (buf.map fun _ => 0, 1, p)
  -- comfort silence; the drift estimate holds
  | .Silence => (buf, p.drift.ratio, p)

/-- Noise suppression runs on whole 10 ms frames, before the resampler. -/
def denoise (suppress : InPlace ν) (fresh : ν) (p : Playback δ ν) (on : Bool) (buf : List ℚ) :
    List ℚ × Playback δ ν :=
  if on ∧ p.channels = 1 ∧ p.frame_samples % 480 = 0 then
    let (buf, denoiser) := suppress.run (p.denoiser.getD fresh) buf
    (buf, { p with denoiser := some denoiser })
  else (buf, { p with denoiser := none })

/-- One turn of the loop: a frame is popped, made good, and resampled. -/
def turn (conceal : InPlace δ) (suppress : InPlace ν) (fresh : ν) (on : Bool)
    (p : Playback δ ν) : Playback δ ν :=
  let (status, buf, jitter) := p.jitter.pop p.frame_buf
  let (buf, ratio, p) := { p with jitter := jitter }.conceal_frame conceal status buf
  let (buf, p) := p.denoise suppress fresh on buf
  let (output, resampler) := p.resampler.process buf ratio
  { p with frame_buf := buf, resampler, acc := p.acc ++ output }

/-- The loop from its `i`-th turn on: until `n` samples are there, in at most `fuel` turns. -/
def fill_acc (conceal : InPlace δ) (suppress : InPlace ν) (fresh : ν) (on : Nat → Bool) (n : Nat) :
    Nat → Nat → Playback δ ν → Option (Playback δ ν)
  | 0, _, p => if p.acc.length < n then none else some p
  | fuel + 1, i, p =>
      if p.acc.length < n then
        fill_acc conceal suppress fresh on n fuel (i + 1) (p.turn conceal suppress fresh (on i))
      else some p

/-- The first samples go to the device; the delay target adapts every hundredth time. -/
def finish (p : Playback δ ν) (n : Nat) : List ℚ × Playback δ ν :=
  (p.acc.take n,
    { p with
      acc := p.acc.drop n
      pulls := p.pulls + 1
      jitter := if (p.pulls + 1) % 100 = 0 then p.jitter.adapt else p.jitter })

/-- The render callback, given `fuel` turns. -/
def fill (decode : δ → Bytes → Option (Samples ℚ) × δ) (conceal : InPlace δ)
    (suppress : InPlace ν) (fresh : ν) (fuel : Nat) (p : Playback δ ν) (pull : Pull) :
    Option (List ℚ × Playback δ ν) :=
  let p := pull.packets.foldl (receive decode) (p.apply_bounds pull.bounds)
  (fill_acc conceal suppress fresh pull.noise_suppression pull.length fuel 0 p).map
    fun p => p.finish pull.length

/-! ## 1. One turn -/

/-- What holds of the audio thread between calls. -/
structure Fit (p : Playback δ ν) : Prop where
  channels_eq : p.resampler.channels = p.channels
  ready : p.resampler.Ready
  phase_lt : p.resampler.phase < 1 + MAX_CORRECTION
  frame_buf : p.frame_buf.length = p.frame_samples * p.channels
  frame_samples : 120 ≤ p.frame_samples
  ratio : InClamp p.drift.ratio

theorem pop_length (jb : JitterBuffer ℚ) (out : List ℚ) : (jb.pop out).2.1.length = out.length := by
  have hsilence (jb : JitterBuffer ℚ) (play advance : Nat) :
      (jb.play_silence play advance out).2.1.length = out.length := List.length_map _
  have hmissing (jb : JitterBuffer ℚ) (play : Nat) :
      (jb.play_missing play out).2.1.length = out.length := by
    unfold JitterBuffer.play_missing
    dsimp only
    split
    · rfl
    · split
      · exact List.length_map _
      · rfl
  have hframe (jb : JitterBuffer ℚ) (play : Nat) (frame : Samples ℚ) :
      (jb.play_frame play frame out).2.1.length = out.length := by
    unfold JitterBuffer.play_frame
    dsimp only
    split
    · exact hsilence _ _ _
    · rw [List.length_append, List.length_take, List.length_replicate]
      omega
  unfold JitterBuffer.pop
  split
  · exact List.length_map _
  · dsimp only
    generalize (if jb.buffering then jb.start_playout else jb) = jb'
    split
    · exact List.length_map _
    · unfold JitterBuffer.pop_at
      dsimp only
      split
      · exact hframe _ _ _
      · split
        · exact hsilence _ _ _
        · exact hmissing _ _

variable {p : Playback δ ν} (conceal : InPlace δ) (suppress : InPlace ν) (fresh : ν)

theorem conceal_frame_fit (h : p.Fit) (status : PopStatus) {buf : List ℚ}
    (hbuf : buf.length = p.frame_buf.length) :
    (p.conceal_frame conceal status buf).2.2.Fit ∧
      (p.conceal_frame conceal status buf).2.2.acc = p.acc ∧
      (p.conceal_frame conceal status buf).1.length =
        (p.conceal_frame conceal status buf).2.2.frame_buf.length ∧
      InClamp (p.conceal_frame conceal status buf).2.1 := by
  obtain ⟨hch, hready, hphase, hfb, hfs, hratio⟩ := h
  cases status with
  | Played =>
      have hupdate := p.drift.update_inClamp p.jitter.buffered_samples p.jitter.target_samples
      exact ⟨⟨hch, hready, hphase, hfb, hfs, hupdate⟩, rfl, hbuf, hupdate⟩
  | Missing =>
      exact ⟨⟨hch, hready, hphase, hfb, hfs, hratio⟩, rfl, (conceal.length_run _ _).trans hbuf,
        hratio⟩
  | Buffering =>
      exact ⟨⟨hch, hready, hphase, hfb, hfs, hratio⟩, rfl, (List.length_map _).trans hbuf,
        inClamp_one⟩
  | Silence => exact ⟨⟨hch, hready, hphase, hfb, hfs, hratio⟩, rfl, hbuf, hratio⟩

theorem denoise_fit (h : p.Fit) (on : Bool) {buf : List ℚ}
    (hbuf : buf.length = p.frame_buf.length) :
    (p.denoise suppress fresh on buf).2.Fit ∧
      (p.denoise suppress fresh on buf).2.acc = p.acc ∧
      (p.denoise suppress fresh on buf).1.length =
        (p.denoise suppress fresh on buf).2.frame_buf.length := by
  obtain ⟨hch, hready, hphase, hfb, hfs, hratio⟩ := h
  unfold denoise
  split
  · exact ⟨⟨hch, hready, hphase, hfb, hfs, hratio⟩, rfl, (suppress.length_run _ _).trans hbuf⟩
  · exact ⟨⟨hch, hready, hphase, hfb, hfs, hratio⟩, rfl, hbuf⟩

/-- The frames of the buffer move the position by more than the history and the phase can hold
back, so at least one output frame comes out. -/
theorem process_some (h : p.Fit) {buf : List ℚ} (hbuf : buf.length = p.frame_buf.length) {ratio : ℚ}
    (hr : InClamp ratio) : 0 < (p.resampler.process buf ratio).1.length := by
  have hpos := h.ready.channels_pos
  have hmoves := FractionalResampler.process_moves h.ready hr.pos buf
  obtain ⟨k, hk, hphase⟩ := hmoves.moves
  have hnonneg := hmoves.ready.phase_nonneg
  have hframes : buf.length / p.resampler.channels = p.frame_samples := by
    rw [hbuf, h.frame_buf, h.channels_eq]
    exact Nat.mul_div_cancel _ (h.channels_eq ▸ hpos)
  have hcounted : 117 ≤ FractionalResampler.counted p.resampler.primed p.frame_samples := by
    have := h.frame_samples
    have := h.ready.primed_le
    unfold FractionalResampler.counted
    omega
  have hcast : (117 : ℚ) ≤ FractionalResampler.counted p.resampler.primed p.frame_samples := by
    exact_mod_cast hcounted
  have hlt := h.phase_lt
  rw [hframes] at hphase
  rw [hphase] at hnonneg
  have hk0 : k ≠ 0 := by
    rintro rfl
    unfold MAX_CORRECTION at hlt
    push_cast at hnonneg
    linarith
  rw [hk]
  exact Nat.mul_pos hpos (Nat.pos_of_ne_zero hk0)

/-- Resampling a frame keeps the audio thread fit. -/
theorem resample_fit (h : p.Fit) {buf : List ℚ} (hbuf : buf.length = p.frame_buf.length) {ratio : ℚ}
    (hr : InClamp ratio) (acc : List ℚ) :
    ({ p with
      frame_buf := buf
      resampler := (p.resampler.process buf ratio).2
      acc := acc } : Playback δ ν).Fit := by
  have hmoves := FractionalResampler.process_moves h.ready hr.pos buf
  have hle : ratio ≤ 1 + MAX_CORRECTION := hr.2
  exact ⟨hmoves.channels_eq.trans h.channels_eq, hmoves.ready, hmoves.bound _ h.phase_lt hle,
    hbuf.trans h.frame_buf, h.frame_samples, h.ratio⟩

theorem turn_fit (h : p.Fit) (on : Bool) :
    (p.turn conceal suppress fresh on).Fit ∧
      p.acc.length < (p.turn conceal suppress fresh on).acc.length := by
  have hpop := pop_length p.jitter p.frame_buf
  unfold turn
  dsimp only
  generalize (p.jitter.pop p.frame_buf).1 = status
  generalize (p.jitter.pop p.frame_buf).2.1 = buf at hpop ⊢
  generalize (p.jitter.pop p.frame_buf).2.2 = jitter
  have h₀ : ({ p with jitter := jitter } : Playback δ ν).Fit :=
    ⟨h.channels_eq, h.ready, h.phase_lt, h.frame_buf, h.frame_samples, h.ratio⟩
  obtain ⟨h₁, hacc₁, hbuf₁, hratio⟩ := conceal_frame_fit conceal h₀ status hpop
  generalize conceal_frame conceal _ status buf = concealed at h₁ hacc₁ hbuf₁ hratio ⊢
  obtain ⟨h₂, hacc₂, hbuf₂⟩ := denoise_fit suppress fresh h₁ on hbuf₁
  generalize concealed.2.2.denoise suppress fresh on concealed.1 = denoised at h₂ hacc₂ hbuf₂ ⊢
  refine ⟨resample_fit h₂ hbuf₂ hratio _, ?_⟩
  have hsome := process_some h₂ hbuf₂ hratio
  have hacc : denoised.2.acc = p.acc := hacc₂.trans hacc₁
  change p.acc.length <
    (denoised.2.acc ++ (denoised.2.resampler.process denoised.1 concealed.2.1).1).length
  rw [List.length_append, hacc]
  exact Nat.lt_add_of_pos_right hsome

/-! ## 2. The loop -/

/-- A turn for every sample that is missing is enough. -/
theorem fill_acc_some (h : p.Fit) (on : Nat → Bool) {n fuel : Nat} (i : Nat)
    (hfuel : n ≤ p.acc.length + fuel) :
    ∃ p', fill_acc conceal suppress fresh on n fuel i p = some p' ∧ p'.Fit ∧ n ≤ p'.acc.length := by
  induction fuel generalizing p i with
  | zero => exact ⟨p, if_neg (Nat.not_lt.2 hfuel), h, hfuel⟩
  | succ fuel ih =>
      by_cases hmore : p.acc.length < n
      · obtain ⟨hfit, hgrow⟩ := turn_fit conceal suppress fresh h (on i)
        obtain ⟨p', he, hp'⟩ := ih hfit (i + 1) (by omega)
        refine ⟨p', ?_, hp'⟩
        unfold fill_acc
        rw [if_pos hmore]
        exact he
      · refine ⟨p, ?_, h, Nat.le_of_not_lt hmore⟩
        unfold fill_acc
        rw [if_neg hmore]

/-- More turns than are needed change nothing. -/
theorem fill_acc_mono {on : Nat → Bool} {n fuel more i : Nat} {p' : Playback δ ν}
    (h : fill_acc conceal suppress fresh on n fuel i p = some p') (hle : fuel ≤ more) :
    fill_acc conceal suppress fresh on n more i p = some p' := by
  induction fuel generalizing p i more with
  | zero =>
      unfold fill_acc at h
      by_cases hmore : p.acc.length < n
      · rw [if_pos hmore] at h
        cases h
      · rw [if_neg hmore] at h
        cases more with
        | zero =>
            unfold fill_acc
            rwa [if_neg hmore]
        | succ more =>
            unfold fill_acc
            rwa [if_neg hmore]
  | succ fuel ih =>
      obtain ⟨more, rfl⟩ := Nat.exists_eq_succ_of_ne_zero (Nat.ne_zero_of_lt hle)
      unfold fill_acc at h ⊢
      by_cases hmore : p.acc.length < n
      · rw [if_pos hmore] at h ⊢
        exact ih h (Nat.le_of_succ_le_succ hle)
      · rw [if_neg hmore] at h ⊢
        exact h

/-! ## 3. Runs -/

section Runs

variable (decode : δ → Bytes → Option (Samples ℚ) × δ)

theorem new_fit (profile : StreamProfile) (decoder : δ) (min_ms max_ms : Nat) :
    (new (sanitize_profile profile) decoder min_ms max_ms : Playback δ ν).Fit where
  channels_eq := by
    have := le_clamp (sanitize_profile profile).channels 1 2
    exact max_eq_left this
  ready := FractionalResampler.new_ready _
  phase_lt := by
    change (0 : ℚ) < 1 + MAX_CORRECTION
    unfold MAX_CORRECTION
    norm_num
  frame_buf := List.length_replicate
  frame_samples := by
    change 120 ≤ samples_per_frame _
    rcases (sanitize_profile_sane profile).frame_us with h | h | h | h <;> rw [h] <;> decide
  ratio := inClamp_one

theorem apply_bounds_fit (h : p.Fit) (bounds : Nat × Nat × Int) : (p.apply_bounds bounds).Fit := by
  unfold apply_bounds
  split
  · exact ⟨h.channels_eq, h.ready, h.phase_lt, h.frame_buf, h.frame_samples, h.ratio⟩
  · exact h

theorem receive_frame_samples (p : Playout δ ℚ) (packet : InboundPacket) :
    (p.receive decode packet).frame_samples = p.frame_samples := by
  have hcopy (p : Playout δ ℚ) (ts arrival : Nat) (copy : Bytes) :
      (p.insert_copy decode ts arrival copy).frame_samples = p.frame_samples := by
    unfold Playout.insert_copy
    split
    · rfl
    · split <;> rfl
  have hprimary (p : Playout δ ℚ) (ts arrival : Nat) (primary : Bytes) :
      (p.insert_primary decode ts arrival primary).frame_samples = p.frame_samples := by
    unfold Playout.insert_primary
    split <;> rfl
  unfold Playout.receive
  split
  · rfl
  · dsimp only
    split
    · rfl
    · rw [hprimary]
      split
      · split
        · rfl
        · rw [hcopy]
          rfl
      · rfl

theorem receive_fit (h : p.Fit) (packet : InboundPacket) : (p.receive decode packet).Fit := by
  have hfs := receive_frame_samples decode p.toPlayout packet
  refine ⟨h.channels_eq, h.ready, h.phase_lt, ?_, ?_, ?_⟩
  · exact h.frame_buf.trans (congrArg (· * p.channels) hfs.symm)
  · exact hfs.symm ▸ h.frame_samples
  · unfold receive
    dsimp only
    split
    · exact inClamp_one
    · exact h.ratio

theorem receive_all_fit (h : p.Fit) (packets : List InboundPacket) :
    (packets.foldl (receive decode) p).Fit := by
  induction packets generalizing p with
  | nil => exact h
  | cons packet rest ih => exact ih (receive_fit decode h packet)

/-- A call with a turn for each sample that is asked for fills the output. -/
theorem fill_some (h : p.Fit) (pull : Pull) :
    ∃ out p', fill decode conceal suppress fresh pull.length p pull = some (out, p') ∧
      out.length = pull.length ∧ p'.Fit := by
  have hreceived := receive_all_fit decode (apply_bounds_fit h pull.bounds) pull.packets
  obtain ⟨p', he, hfit, hlen⟩ := fill_acc_some conceal suppress fresh hreceived
    pull.noise_suppression 0 (Nat.le_add_left pull.length _)
  refine ⟨p'.acc.take pull.length, (p'.finish pull.length).2, ?_, ?_, ?_⟩
  · unfold fill
    dsimp only
    rw [he]
    rfl
  · rw [List.length_take]
    exact min_eq_left hlen
  · exact ⟨hfit.channels_eq, hfit.ready, hfit.phase_lt, hfit.frame_buf, hfit.frame_samples,
      hfit.ratio⟩

/-- The render callback on a stream of a sanitized profile, called again and again. -/
def machine (decode : δ → Bytes → Option (Samples ℚ) × δ) (conceal : InPlace δ)
    (suppress : InPlace ν) (fresh : ν) : Machine (Playback δ ν) Pull where
  init p := ∃ profile decoder min_ms max_ms,
    p = new (sanitize_profile profile) decoder min_ms max_ms
  enabled _ _ := True
  step p pull :=
    ((fill decode conceal suppress fresh pull.length p pull).map Prod.snd).getD p

theorem reachable_fit {tr : List (Playback δ ν × Pull)}
    (hr : (machine decode conceal suppress fresh).Run tr p) : p.Fit := by
  refine hr.invariant ?_ ?_
  · rintro _ ⟨profile, decoder, min_ms, max_ms, rfl⟩
    exact new_fit profile decoder min_ms max_ms
  · intro p pull h _
    obtain ⟨out, p', he, -, hfit⟩ := fill_some conceal suppress fresh decode h pull
    change (((fill decode conceal suppress fresh pull.length p pull).map Prod.snd).getD p).Fit
    rw [he]
    exact hfit

end Runs

/-- **The resampler and the callback.** Chunks of whole frames are resampled as their
concatenation; what comes out of a fresh resampler is counted by its input, and the phase stays
below the ratio; and in every run of the render callback a call fills its output. -/
theorem resampled_and_filled (decode : δ → Bytes → Option (Samples ℚ) × δ) (conceal : InPlace δ)
    (suppress : InPlace ν) (fresh : ν) :
    (∀ (channels : Nat) (ratio : ℚ), InClamp ratio → ∀ chunks : List (List ℚ),
      (∀ chunk ∈ chunks, max channels 1 ∣ chunk.length) →
      let n := chunks.flatten.length / max channels 1
      let r := (FractionalResampler.new channels).process_all ratio chunks
      (∀ r₀ : FractionalResampler, r₀.channels = max channels 1 →
        r₀.process_all ratio chunks = r₀.process chunks.flatten ratio) ∧
      r.1.length = max channels 1 * (if n < 3 then 0 else ⌈((n : ℚ) - 3) / ratio⌉₊) ∧
      0 ≤ r.2.phase ∧ r.2.phase < ratio) ∧
    ∀ (tr : List (Playback δ ν × Pull)) (p : Playback δ ν),
      (machine decode conceal suppress fresh).Run tr p → ∀ pull : Pull, ∃ out p',
        fill decode conceal suppress fresh pull.length p pull = some (out, p') ∧
          out.length = pull.length := by
  refine ⟨fun channels ratio hr chunks hwhole => ?_, fun tr p hr pull => ?_⟩
  · have hpos : 0 < max channels 1 := Nat.lt_of_lt_of_le Nat.zero_lt_one (le_max_right _ _)
    have hall (r₀ : FractionalResampler) (hr₀ : r₀.channels = max channels 1) :
        r₀.process_all ratio chunks = r₀.process chunks.flatten ratio := by
      rw [← hr₀] at hpos hwhole
      exact FractionalResampler.process_all_eq hpos ratio hwhole
    refine ⟨hall, ?_⟩
    rw [hall _ rfl]
    exact FractionalResampler.process_new channels hr.pos chunks.flatten
  · obtain ⟨out, p', he, hlen, -⟩ := fill_some conceal suppress fresh decode
      (reachable_fit conceal suppress fresh decode hr) pull
    exact ⟨out, p', he, hlen⟩

/-- Nothing is decoded, and losses stay as they are. -/
def untouched (σ : Type) : InPlace σ := ⟨fun s buf => (buf, s), fun _ _ => rfl⟩

/-- Ten milliseconds of stereo are asked for, and nothing has come in. -/
def ten_ms : Pull := ⟨(20, 80, 0), [], fun _ => false, 960⟩

/-- Five stereo frames in two chunks: two come out. And the second call on a stream that nothing is
received of fills its output like the first. -/
theorem resampled_and_filled_stereo :
    let callback := machine (fun d _ => (none, d)) (untouched Unit) (untouched Unit) ()
    let profile := sanitize_profile (build_profile .Balanced .Auto 2 false)
    let p : Playback Unit Unit := new profile () 20 80
    ((FractionalResampler.new 2).process_all 1
      [[1, 2, 3, 4], [5, 6, 7, 8, 9, 10]]).1.length = 4 ∧
    ∃ out p', fill (fun d _ => (none, d)) (untouched Unit) (untouched Unit) () 960
      (callback.step p ten_ms) ten_ms = some (out, p') ∧ out.length = 960 := by
  intro callback profile p
  obtain ⟨hprocess, hfill⟩ :=
    resampled_and_filled (fun d _ => (none, d)) (untouched Unit) (untouched Unit) ()
  have hinit : callback.init p := ⟨_, _, _, _, rfl⟩
  have hrun : callback.Run [(p, ten_ms)] (callback.step p ten_ms) := .next (.start hinit) trivial
  refine ⟨?_, hfill _ _ hrun ten_ms⟩
  refine (hprocess 2 1 inClamp_one [[1, 2, 3, 4], [5, 6, 7, 8, 9, 10]] (by decide)).2.1.trans ?_
  norm_num

end Playback

end SoundPush
