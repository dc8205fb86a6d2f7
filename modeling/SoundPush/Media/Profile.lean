/-
`Profile` -- stream profiles: how settings become one (`sp-media/src/profile.rs`),
how a peer's is made safe (`sanitize_profile` of the engine actor) and how two of
them are compared (`actor/profiles.rs`).

Two predicates carry what the engine relies on. A profile that is `Sane` can be given to the
encoder and the jitter buffer as it is: a frame duration that Opus knows, PCM frames that fit a
datagram, a jitter window that is not empty. A `Usable` one is sane but for its bitrate, which
lossless audio does not have. What a peer sends is sane after `sanitize_profile`, and what the
settings ask for is usable, whatever the settings say; every other change of a profile keeps one
or the other.
-/
import SoundPush.Protocol.Control
import Mathlib.Order.Lattice

set_option autoImplicit false

namespace SoundPush

/-- `Ord::clamp`. -/
def clamp (x lo hi : Nat) : Nat := max lo (min x hi)

/-- A clamped value is within the upper bound. -/
theorem clamp_le {x lo hi : Nat} (h : lo ≤ hi) : clamp x lo hi ≤ hi := by unfold clamp; omega

/-- And within the lower one, even where the bounds are crossed. -/
theorem le_clamp (x lo hi : Nat) : lo ≤ clamp x lo hi := by unfold clamp; omega

/-- A value in range is left alone. -/
theorem clamp_of_mem {x lo hi : Nat} (h : lo ≤ x) (h' : x ≤ hi) : clamp x lo hi = x := by
  unfold clamp; omega

/-! ## 1. From settings to a profile

The user picks a latency and a quality; a custom latency is two numbers that are clamped here. -/

/-- How much delay the user accepts. -/
inductive LatencyProfile where
  | LowLatency
  | Balanced
  | Stable
  | Custom (min_ms max_ms : Nat)
  deriving DecidableEq, Repr

/-- (jitter min ms, jitter max ms, frame duration µs) -/
def LatencyProfile.params : LatencyProfile → Nat × Nat × Nat
  | .LowLatency => (10, 40, 5000)
  | .Balanced => (20, 80, 10000)
  | .Stable => (60, 250, 20000)
  | .Custom min_ms max_ms =>
      let min := clamp min_ms 5 500
      (min, clamp max_ms min 1000, 10000)

/-- How the user wants a stream encoded. -/
inductive Quality where
  /-- Opus with adaptive bitrate starting at 128 kb/s -/
  | Auto
  /-- fixed Opus bitrate in bits/s -/
  | Opus (bps : Nat)
  /-- uncompressed 16-bit PCM -/
  | Lossless
  deriving DecidableEq, Repr

/-- The profile that the settings ask for. The frame duration follows the latency, but lossless
frames are cut to what one datagram holds. -/
def build_profile (latency : LatencyProfile) (quality : Quality) (channels : Nat)
    (redundancy : Bool) : StreamProfile :=
  let (jitter_min_ms, jitter_max_ms, frame_us) := latency.params
  let (codec, bitrate, adaptive) : Codec × Nat × Bool :=
    match quality with
    | .Auto => (.Opus, 128000, true)
    | .Opus bps => (.Opus, clamp bps 6000 510000, false)
    | .Lossless => (.PcmS16Le, 0, false)
  -- PCM frames must fit in one datagram: 5 ms stereo or 10 ms mono
  let frame_us :=
    if codec = .PcmS16Le then min frame_us (if 1 < channels then 5000 else 10000) else frame_us
  { codec := codec.id
    bitrate
    channels := clamp channels 1 2
    frame_us
    jitter_min_ms
    jitter_max_ms
    redundancy
    adaptive_bitrate := adaptive
    denoise := false }

/-! ## 2. Making a peer's profile safe

A peer may send any numbers. They are brought into range one by one, in the order of the source, and
`Sane` says what the result is good for. -/

/-- A frame duration that Opus does not know becomes ten milliseconds. -/
def sanitize_frame_us (frame_us : Nat) : Nat :=
  if frame_us = 2500 ∨ frame_us = 5000 ∨ frame_us = 10000 ∨ frame_us = 20000 then frame_us
  else 10000

/-- Clamp a peer-supplied profile to safe values. -/
def sanitize_profile (p : StreamProfile) : StreamProfile :=
  let channels := clamp p.channels 1 2
  let frame_us := sanitize_frame_us p.frame_us
  let frame_us :=
    if p.codec = Codec.PcmS16Le.id then min frame_us (if channels = 2 then 5000 else 10000)
    else frame_us
  let codec :=
    if p.codec ≠ Codec.PcmS16Le.id ∧ p.codec ≠ Codec.Opus.id then Codec.Opus.id else p.codec
  let jitter_min_ms := clamp p.jitter_min_ms 5 500
  { p with
    channels
    frame_us
    codec
    bitrate := clamp p.bitrate 6000 510000
    jitter_min_ms
    jitter_max_ms := clamp p.jitter_max_ms jitter_min_ms 1000 }

/-- What `sanitize_profile` guarantees of its result. -/
structure StreamProfile.Sane (p : StreamProfile) : Prop where
  channels : p.channels = 1 ∨ p.channels = 2
  frame_us : p.frame_us = 2500 ∨ p.frame_us = 5000 ∨ p.frame_us = 10000 ∨ p.frame_us = 20000
  pcm_fits : p.codec = Codec.PcmS16Le.id → p.frame_us ≤ if p.channels = 2 then 5000 else 10000
  codec : p.codec = Codec.PcmS16Le.id ∨ p.codec = Codec.Opus.id
  bitrate : 6000 ≤ p.bitrate ∧ p.bitrate ≤ 510000
  jitter_min : 5 ≤ p.jitter_min_ms ∧ p.jitter_min_ms ≤ 500
  jitter_max : p.jitter_min_ms ≤ p.jitter_max_ms ∧ p.jitter_max_ms ≤ 1000

/-- So there are four of them. -/
theorem sanitize_frame_us_sane (f : Nat) :
    sanitize_frame_us f = 2500 ∨ sanitize_frame_us f = 5000 ∨ sanitize_frame_us f = 10000 ∨
      sanitize_frame_us f = 20000 := by
  unfold sanitize_frame_us
  split <;> simp_all

/-- One channel or two. -/
theorem clamp_channels (x : Nat) : clamp x 1 2 = 1 ∨ clamp x 1 2 = 2 := by unfold clamp; omega

/-- Whatever a peer sends, the result is sane. -/
theorem sanitize_profile_sane (p : StreamProfile) : (sanitize_profile p).Sane := by
  have hmin : clamp p.jitter_min_ms 5 500 ≤ 500 := clamp_le (by decide)
  have hframe := sanitize_frame_us_sane p.frame_us
  have hch := clamp_channels p.channels
  constructor
  case channels => exact hch
  case frame_us =>
    simp only [sanitize_profile]
    split
    · split <;> omega
    · exact hframe
  case pcm_fits =>
    simp only [sanitize_profile]
    intro hcodec
    split at hcodec
    · cases hcodec
    · rw [if_pos hcodec]
      exact min_le_right _ _
  case codec =>
    simp only [sanitize_profile]
    split
    · exact .inr rfl
    · next h => exact or_iff_not_and_not.2 h
  case bitrate => exact ⟨le_clamp _ _ _, clamp_le (by decide)⟩
  case jitter_min => exact ⟨le_clamp _ _ _, hmin⟩
  case jitter_max => exact ⟨le_clamp _ _ _, clamp_le (by omega)⟩

/-- A sane profile is left as it is. -/
theorem sanitize_profile_of_sane {p : StreamProfile} (h : p.Sane) : sanitize_profile p = p := by
  have hchannels : clamp p.channels 1 2 = p.channels := by
    rcases h.channels with hc | hc <;> rw [hc] <;> rfl
  have hframe : sanitize_frame_us p.frame_us = p.frame_us := if_pos h.frame_us
  have hfits : (if p.codec = Codec.PcmS16Le.id then
      min p.frame_us (if p.channels = 2 then 5000 else 10000) else p.frame_us) = p.frame_us := by
    split
    · next hc => exact min_eq_left (h.pcm_fits hc)
    · rfl
  have hcodec : (if p.codec ≠ Codec.PcmS16Le.id ∧ p.codec ≠ Codec.Opus.id then Codec.Opus.id
      else p.codec) = p.codec := if_neg (or_iff_not_and_not.1 h.codec)
  have hbitrate := clamp_of_mem h.bitrate.1 h.bitrate.2
  have hmin := clamp_of_mem h.jitter_min.1 h.jitter_min.2
  have hmax := clamp_of_mem h.jitter_max.1 h.jitter_max.2
  simp only [sanitize_profile, hchannels, hframe, hfits, hcodec, hbitrate, hmin, hmax]

/-- As `Sane`, with any bitrate: lossless has none. -/
def StreamProfile.Usable (p : StreamProfile) : Prop :=
  ({ p with bitrate := 6000 } : StreamProfile).Sane

theorem bitrate_in_range : 6000 ≤ 6000 ∧ 6000 ≤ 510000 := by decide

theorem opus_ne_pcm : Codec.Opus.id ≠ Codec.PcmS16Le.id := by decide

/-- A sane profile is usable. -/
theorem StreamProfile.Sane.usable {p : StreamProfile} (h : p.Sane) : p.Usable :=
  ⟨h.channels, h.frame_us, h.pcm_fits, h.codec, bitrate_in_range, h.jitter_min,
    h.jitter_max⟩

/-- The receiving side's latency preference in a sane profile. -/
theorem StreamProfile.Sane.with_jitter {p q : StreamProfile} (h : p.Sane) (hq : q.Usable) :
    StreamProfile.Sane
      { p with jitter_min_ms := q.jitter_min_ms, jitter_max_ms := q.jitter_max_ms } :=
  ⟨h.channels, h.frame_us, h.pcm_fits, h.codec, h.bitrate, hq.jitter_min, hq.jitter_max⟩

/-- Where noise is suppressed does not matter. -/
theorem StreamProfile.Sane.with_denoise {p : StreamProfile} (h : p.Sane) (denoise : Bool) :
    StreamProfile.Sane { p with denoise } :=
  ⟨h.channels, h.frame_us, h.pcm_fits, h.codec, h.bitrate, h.jitter_min, h.jitter_max⟩

/-- Every latency, a custom one too, has a jitter window in range and a frame duration that Opus
knows. -/
theorem LatencyProfile.params_bounds (latency : LatencyProfile) :
    (5 ≤ latency.params.1 ∧ latency.params.1 ≤ 500) ∧
      (latency.params.1 ≤ latency.params.2.1 ∧ latency.params.2.1 ≤ 1000) ∧
      (latency.params.2.2 = 5000 ∨ latency.params.2.2 = 10000 ∨ latency.params.2.2 = 20000) := by
  match latency with
  | .LowLatency | .Balanced | .Stable => decide
  | .Custom min_ms max_ms =>
      have hmin : clamp min_ms 5 500 ≤ 500 := clamp_le (by decide)
      exact ⟨⟨le_clamp _ _ _, hmin⟩, ⟨le_clamp _ _ _, clamp_le (by omega)⟩, .inr (.inl rfl)⟩

/-- What the settings ask for is usable. -/
theorem build_profile_usable (latency : LatencyProfile) (quality : Quality) (channels : Nat)
    (redundancy : Bool) : (build_profile latency quality channels redundancy).Usable := by
  obtain ⟨hmin, hmax, hframe⟩ := latency.params_bounds
  have hfits : min latency.params.2.2 (if 1 < channels then 5000 else 10000) ≤
      if clamp channels 1 2 = 2 then 5000 else 10000 := by
    unfold clamp
    split <;> split <;> omega
  have hlow : min latency.params.2.2 (if 1 < channels then 5000 else 10000) = 5000 ∨
      min latency.params.2.2 (if 1 < channels then 5000 else 10000) = 10000 := by
    split <;> omega
  match quality with
  | .Auto | .Opus _ =>
      exact ⟨clamp_channels channels, .inr hframe, fun h => absurd h opus_ne_pcm, .inr rfl,
        bitrate_in_range, hmin, hmax⟩
  | .Lossless =>
      exact ⟨clamp_channels channels, .inr (hlow.imp_right .inl), fun _ => hfits, .inl rfl,
        bitrate_in_range, hmin, hmax⟩

/-! ## 3. Comparing and lowering profiles

A change of encoding makes the pipeline open again; a change of quality alone is told to the other
side. -/

/-- Bitrate the lossless fallback encodes at. -/
def FALLBACK_BITRATE : Nat := 256000

/-- Replace lossless with Opus on a route that keeps losing packets. -/
def apply_quality_fallback (p : StreamProfile) : StreamProfile :=
  if p.codec ≠ Codec.PcmS16Le.id then p
  else { p with codec := Codec.Opus.id, bitrate := FALLBACK_BITRATE, adaptive_bitrate := false }

/-- Falling back from lossless keeps a profile usable. -/
theorem StreamProfile.Usable.fallback {p : StreamProfile} (h : p.Usable) :
    (apply_quality_fallback p).Usable := by
  unfold apply_quality_fallback
  by_cases hcodec : p.codec ≠ Codec.PcmS16Le.id
  · rw [if_pos hcodec]
    exact h
  · rw [if_neg hcodec]
    exact ⟨h.channels, h.frame_us, fun hpcm => absurd hpcm opus_ne_pcm, .inr rfl,
      bitrate_in_range, h.jitter_min, h.jitter_max⟩

/-- The pipeline has to be opened again. -/
def encoding_changed (a b : StreamProfile) : Bool :=
  a.codec != b.codec || a.channels != b.channels || a.frame_us != b.frame_us

/-- The sender has something to change. -/
def quality_changed (a b : StreamProfile) : Bool :=
  encoding_changed a b || a.bitrate != b.bitrate || a.redundancy != b.redundancy ||
    a.adaptive_bitrate != b.adaptive_bitrate

end SoundPush
