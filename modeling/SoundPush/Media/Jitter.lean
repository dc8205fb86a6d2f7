/-
`Jitter` -- the adaptive jitter buffer of `sp-media/src/jitter.rs`.

The buffer holds decoded frames in the order of their sender timestamps and
plays them at the receiver's pace. Timestamps are the `u64`s of the source as
naturals, with its saturating operations and the one sum that wraps written out
(`sat_add`, `wrap_add`); subtraction on naturals is its `saturating_sub`. A sample is a value of any
type with a zero, because the buffer only moves samples. The transit estimate wraps, so it
is a 64-bit vector. The floating-point estimate `jitter_samples` feeds the
statistics alone and is left out with the three figures derived from it.
-/
import SoundPush.Lib.OrdMap
import SoundPush.Lib.Machine

set_option autoImplicit false

namespace SoundPush

/-! ## 1. Sample arithmetic (`sp-media/src/lib.rs`) -/

/-- The sample rate used on the wire and inside the pipeline. -/
def SAMPLE_RATE : Nat := 48000

/-- Samples per channel in a frame of `frame_us` microseconds. -/
def samples_per_frame (frame_us : Nat) : Nat := SAMPLE_RATE * frame_us / 1000000

/-- Milliseconds as samples per channel. -/
def ms_to_samples (ms : Nat) : Nat := SAMPLE_RATE * ms / 1000

def U64_MAX : Nat := 2 ^ 64 - 1

def U32_MAX : Nat := 2 ^ 32 - 1

/-- `u64::saturating_add`. -/
def sat_add (a b : Nat) : Nat := min (a + b) U64_MAX

/-- `+` on `u64`, which wraps in a release build. -/
def wrap_add (a b : Nat) : Nat := (a + b) % 2 ^ 64

theorem sat_add_eq {a b : Nat} (h : a + b ≤ U64_MAX) : sat_add a b = a + b := min_eq_left h

theorem wrap_add_eq {a b : Nat} (h : a + b ≤ U64_MAX) : wrap_add a b = a + b :=
  Nat.mod_eq_of_lt (Nat.lt_of_le_pred (by decide) h)

/-! ## 2. The buffer -/

structure JitterConfig where
  channels : Nat
  /-- samples per channel in one frame -/
  frame_samples : Nat
  min_delay_ms : Nat
  max_delay_ms : Nat
  deriving DecidableEq, Repr

/-- What the buffer produced for one output frame. -/
inductive PopStatus where
  | Played
  | Missing
  | Buffering
  | Silence
  deriving DecidableEq, Repr

/-- The counters of the source's `JitterStats`. -/
structure JitterStats where
  received : Nat := 0
  played : Nat := 0
  missing : Nat := 0
  late : Nat := 0
  underruns : Nat := 0
  silent : Nat := 0
  deriving DecidableEq, Repr

/-- A received frame: interleaved samples, none at all for a DTX marker. -/
abbrev Samples (α : Type*) := List α

structure JitterBuffer (α : Type*) where
  cfg : JitterConfig
  frames : OrdMap Nat (Samples α)
  /-- sender timestamp of the next frame to play -/
  play_ts : Option Nat
  /-- highest end timestamp received -/
  newest_end_ts : Nat
  buffering : Bool
  /-- a DTX marker played and no audio since -/
  silent : Bool
  consecutive_missing : Nat
  target_samples : Nat
  last_transit : Option (BitVec 64)
  deviations : List Nat
  dev_cursor : Nat
  stats : JitterStats

def WINDOW : Nat := 512

/-- Frames of concealment before falling back to rebuffering. -/
def MAX_CONCEAL_FRAMES : Nat := 5

/-- Hard cap on buffered frames. -/
def MAX_FRAMES : Nat := 1024

namespace JitterBuffer

variable {α : Type*}

def new (cfg : JitterConfig) : JitterBuffer α where
  cfg := cfg
  frames := ∅
  play_ts := none
  newest_end_ts := 0
  buffering := true
  silent := false
  consecutive_missing := 0
  target_samples := max (ms_to_samples cfg.min_delay_ms) cfg.frame_samples
  last_transit := none
  deviations := []
  dev_cursor := 0
  stats := {}

/-! ### Delay target -/

/-- The lower end of the target's range. -/
def min_target (cfg : JitterConfig) : Nat :=
  max (ms_to_samples cfg.min_delay_ms) cfg.frame_samples

/-- The upper end of the target's range. -/
def max_target (cfg : JitterConfig) : Nat :=
  max (ms_to_samples cfg.max_delay_ms) (min_target cfg)

def clamp_target (jb : JitterBuffer α) (samples : Nat) : Nat :=
  max (min_target jb.cfg) (min samples (max_target jb.cfg))

/-- Change the delay bounds live. -/
def set_bounds (jb : JitterBuffer α) (min_delay_ms max_delay_ms : Nat) : JitterBuffer α :=
  let jb := { jb with cfg := { jb.cfg with
    min_delay_ms := min_delay_ms, max_delay_ms := max max_delay_ms min_delay_ms } }
  { jb with target_samples := jb.clamp_target jb.target_samples }

/-! ### Inserting -/

/-- `i64::unsigned_abs`. -/
def unsigned_abs (x : BitVec 64) : Nat := x.toInt.natAbs

/-- The transit window; `arrival - sender_ts` wraps. -/
def update_jitter (jb : JitterBuffer α) (sender_ts arrival : Nat) : JitterBuffer α :=
  let transit := BitVec.ofNat 64 arrival - BitVec.ofNat 64 sender_ts
  let jb := match jb.last_transit with
    | none => jb
    | some last =>
      let d := min (unsigned_abs (transit - last)) U32_MAX
      if jb.deviations.length < WINDOW then { jb with deviations := jb.deviations ++ [d] }
      else { jb with
        deviations := jb.deviations.set jb.dev_cursor d
        dev_cursor := (jb.dev_cursor + 1) % WINDOW }
  { jb with last_transit := some transit }

/-- Samples per channel of a received frame. -/
def frame_len (jb : JitterBuffer α) (samples : Samples α) : Nat :=
  samples.length / max jb.cfg.channels 1

/-- How far the newest sample may lie ahead of the playout position. -/
def jump_limit (cfg : JitterConfig) : Nat := ms_to_samples cfg.max_delay_ms + ms_to_samples 200

/-- The last part of `push`: far too much is buffered, so playout jumps forward to the first
frame of the newest `target_samples`. -/
def jump_forward (jb : JitterBuffer α) : JitterBuffer α :=
  match jb.play_ts with
  | none => jb
  | some play =>
    if jb.newest_end_ts - play > jump_limit jb.cfg then
      let new_play := jb.newest_end_ts - jb.target_samples
      let frames := jb.frames.splitOff new_play
      { jb with frames := frames, play_ts := frames.firstKey }
    else jb

/-- The newest end timestamp once a frame is in; `u64::saturating_add` because timestamps are
untrusted. -/
def newest_with (jb : JitterBuffer α) (sender_ts : Nat) (samples : Samples α) : Nat :=
  max jb.newest_end_ts (sat_add sender_ts (jb.frame_len samples))

/-- The frames once one more is in and the cap has dropped the oldest. -/
def frames_with (jb : JitterBuffer α) (sender_ts : Nat) (samples : Samples α) :
    OrdMap Nat (Samples α) :=
  let frames := jb.frames.insert sender_ts samples
  frames.dropFirst (frames.len - MAX_FRAMES)

/-- The middle part of `push`: the frame enters the buffer. -/
def store_frame (jb : JitterBuffer α) (sender_ts : Nat) (samples : Samples α) : JitterBuffer α :=
  { jb with
    newest_end_ts := jb.newest_with sender_ts samples
    frames := jb.frames_with sender_ts samples
    stats := { jb.stats with
      late := jb.stats.late + ((jb.frames.insert sender_ts samples).len - MAX_FRAMES) } }

/-- Insert a decoded frame that arrived at `arrival_samples` on the receiver's clock. -/
def push (jb : JitterBuffer α) (sender_ts : Nat) (samples : Samples α) (arrival_samples : Nat) :
    JitterBuffer α :=
  let jb := { jb with stats := { jb.stats with received := jb.stats.received + 1 } }
  let jb := jb.update_jitter sender_ts arrival_samples
  if jb.play_ts.any (fun play => sender_ts < play) then
    { jb with stats := { jb.stats with late := jb.stats.late + 1 } }
  else (jb.store_frame sender_ts samples).jump_forward

/-- The sender went silent at `sender_ts`: an empty frame. -/
def push_silence (jb : JitterBuffer α) (sender_ts arrival_samples : Nat) : JitterBuffer α :=
  jb.push sender_ts [] arrival_samples

/-- A frame at `ts` is buffered or has been played. -/
def has (jb : JitterBuffer α) (ts : Nat) : Bool :=
  decide (ts ∈ jb.frames) || jb.play_ts.any (fun p => ts < p)

/-! ### Playing -/

/-- Samples buffered ahead of the play position. -/
def buffered_samples (jb : JitterBuffer α) : Nat :=
  match jb.play_ts with
  | some play => jb.newest_end_ts - play
  | none => jb.frames.firstKey.elim 0 (fun first => jb.newest_end_ts - first)

/-- The frames older than the play position, dropped by `pop`; each one that held audio counts as
late. -/
def drop_older (jb : JitterBuffer α) (play : Nat) : JitterBuffer α :=
  let older := jb.frames.entries.filter (fun e => e.1 < play)
  { jb with
    frames := jb.frames.splitOff play
    stats := { jb.stats with
      late := jb.stats.late + older.countP (fun e => !e.2.isEmpty) } }

variable [Zero α]

def play_silence (jb : JitterBuffer α) (play advance : Nat) (out : List α) :
    PopStatus × List α × JitterBuffer α :=
  (.Silence, out.map (fun _ => 0),
    { jb with
      play_ts := some (sat_add play advance)
      consecutive_missing := 0
      stats := { jb.stats with silent := jb.stats.silent + 1 } })

/-- The frame at the play position is there: a DTX marker starts silence, audio is played. -/
def play_frame (jb : JitterBuffer α) (play : Nat) (frame : Samples α) (out : List α) :
    PopStatus × List α × JitterBuffer α :=
  let jb := { jb with frames := jb.frames.erase play }
  if frame.isEmpty then
    { jb with silent := true }.play_silence play jb.cfg.frame_samples out
  else
    (.Played, frame.take out.length ++ List.replicate (out.length - frame.length) 0,
      { jb with
        silent := false
        play_ts := some (sat_add play (jb.frame_len frame))
        consecutive_missing := 0
        stats := { jb.stats with played := jb.stats.played + 1 } })

/-- The frame at the play position is missing and the sender is not silent: hold the position
while below target, rebuffer after a run of losses with nothing left, else skip it. -/
def play_missing (jb : JitterBuffer α) (play : Nat) (out : List α) :
    PopStatus × List α × JitterBuffer α :=
  let advance := jb.cfg.frame_samples
  let jb := { jb with
    consecutive_missing := jb.consecutive_missing + 1
    stats := { jb.stats with missing := jb.stats.missing + 1 } }
  let have_future := !jb.frames.isEmpty
  if wrap_add jb.buffered_samples advance ≤ jb.target_samples
      ∧ jb.consecutive_missing ≤ MAX_CONCEAL_FRAMES then
    (.Missing, out, jb)
  else if !have_future && jb.consecutive_missing > MAX_CONCEAL_FRAMES then
    (.Buffering, out.map (fun _ => 0),
      { jb with
        stats := { jb.stats with underruns := jb.stats.underruns + 1 }
        target_samples := jb.clamp_target (sat_add jb.target_samples (2 * advance))
        buffering := true
        play_ts := none
        consecutive_missing := 0 })
  else (.Missing, out, { jb with play_ts := some (sat_add play advance) })

/-- Produce the frame at the play position. -/
def pop_at (jb : JitterBuffer α) (play : Nat) (out : List α) :
    PopStatus × List α × JitterBuffer α :=
  let jb := jb.drop_older play
  match jb.frames.get play with
  | some frame => jb.play_frame play frame out
  | none =>
    if jb.silent then jb.play_silence play jb.cfg.frame_samples out
    else jb.play_missing play out

/-- The start of playout: enough is buffered, and the first frame fixes the position. -/
def start_playout (jb : JitterBuffer α) : JitterBuffer α :=
  { jb with
    buffering := false
    play_ts := if jb.play_ts.isNone then jb.frames.firstKey else jb.play_ts }

/-- Produce the next frame into `out`. -/
def pop (jb : JitterBuffer α) (out : List α) : PopStatus × List α × JitterBuffer α :=
  if jb.buffering && (jb.buffered_samples < jb.target_samples || jb.frames.isEmpty) then
    (.Buffering, out.map (fun _ => 0), jb)
  else
    let jb := if jb.buffering then jb.start_playout else jb
    match jb.play_ts with
    | none => (.Buffering, out.map (fun _ => 0), jb)
    | some play => jb.pop_at play out

omit [Zero α]

/-! ### Adapting -/

/-- The 98th percentile of the window. The index is `((len - 1) * 0.98).round()`: for every window
of at most `WINDOW` entries the floating-point product rounds to the exact one, so this is the
nearest integer, halves upwards. -/
def percentile_deviation (jb : JitterBuffer α) : Nat :=
  let sorted := jb.deviations.mergeSort (· ≤ ·)
  let idx := (98 * (sorted.length - 1) + 50) / 100
  sorted.getD (min idx (sorted.length - 1)) 0

/-- Slowly converge the target towards what the measured jitter needs. -/
def adapt (jb : JitterBuffer α) : JitterBuffer α :=
  let needed := sat_add (min (jb.percentile_deviation * 2) U64_MAX) jb.cfg.frame_samples
  let needed := jb.clamp_target needed
  if needed > jb.target_samples then { jb with target_samples := needed }
  else
    let step := ms_to_samples 1
    { jb with target_samples := jb.clamp_target (max (jb.target_samples - step) needed) }

/-- Clear everything (a discontinuity). -/
def reset (jb : JitterBuffer α) : JitterBuffer α :=
  { jb with
    frames := ∅
    play_ts := none
    newest_end_ts := 0
    buffering := true
    silent := false
    consecutive_missing := 0
    last_transit := none }

end JitterBuffer

end SoundPush
