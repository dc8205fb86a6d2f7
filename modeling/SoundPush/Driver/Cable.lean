/-
`Cable` -- the ring that joins the two endpoints of the virtual microphone
(`drivers/windows-virtual-audio/src/cable.cpp`): one writer, one reader, no lock.

A call is not one step: what it does between two accesses to what both sides share is
one, and samples are stored and loaded one at a time. Each side makes its calls one
after the other, as the streams do, and the steps of the two come in any order.

The counters are frames since the driver was loaded, far from the end of 64 bits. The
ring is there: `Initialize` makes it before there is a stream. What the `CableLog`
keeps the code does not: it is what has gone through the cable so far.
-/
import Mathlib.Order.Nat
import SoundPush.Lib.Machine
import SoundPush.Protocol.Media

set_option autoImplicit false

namespace SoundPush

/-! ## 1. Samples -/

/-- A validated integer PCM stream format. -/
structure SP_PCM_FORMAT where
  Channels : Nat
  BytesPerSample : Nat
  BlockAlign : Nat
  deriving DecidableEq

def SP_MAX_CHANNELS : Nat := 2

/-- True when the format has one of the shapes above. -/
def SpIsValidFormat (Format : SP_PCM_FORMAT) : Prop :=
  1 ≤ Format.Channels ∧ Format.Channels ≤ SP_MAX_CHANNELS ∧ 2 ≤ Format.BytesPerSample ∧
    Format.BytesPerSample ≤ 4 ∧ Format.BlockAlign = Format.Channels * Format.BytesPerSample

instance (Format : SP_PCM_FORMAT) : Decidable (SpIsValidFormat Format) :=
  inferInstanceAs (Decidable (_ ∧ _ ∧ _ ∧ _ ∧ _))

/-- The low byte of a value, as a cast to `UCHAR` takes it. -/
def UCHAR (value : BitVec 32) : UInt8 := ⟨value.setWidth 8⟩

/-- The byte of `Source` at `i`, as an unsigned 32-bit value. -/
def UINT32_at (Source : Bytes) (i : Nat) : BitVec 32 := (Source.getD i 0).toBitVec.setWidth 32

/-- Decodes one little-endian integer sample into a left-justified 32-bit sample. -/
def LoadSample (Source : Bytes) (size : Nat) : BitVec 32 :=
  match size with
  | 2 => UINT32_at Source 0 <<< 16 ||| UINT32_at Source 1 <<< 24
  | 3 => UINT32_at Source 0 <<< 8 ||| UINT32_at Source 1 <<< 16 ||| UINT32_at Source 2 <<< 24
  | _ => UINT32_at Source 0 ||| UINT32_at Source 1 <<< 8 ||| UINT32_at Source 2 <<< 16 |||
      UINT32_at Source 3 <<< 24

/-- Encodes a left-justified 32-bit sample as a little-endian integer of `size` bytes, keeping the
most significant bits. -/
def StoreSample (Sample : BitVec 32) (size : Nat) : Bytes :=
  match size with
  | 2 => [UCHAR (Sample >>> 16), UCHAR (Sample >>> 24)]
  | 3 => [UCHAR (Sample >>> 8), UCHAR (Sample >>> 16), UCHAR (Sample >>> 24)]
  | _ => [UCHAR Sample, UCHAR (Sample >>> 8), UCHAR (Sample >>> 16), UCHAR (Sample >>> 24)]

/-- The left and the right sample of a frame. -/
abbrev CableFrame := BitVec 32 × BitVec 32

/-- A frame as `Write` takes it out of a block of its source. -/
def LoadFrame (Format : SP_PCM_FORMAT) (block : Bytes) : CableFrame :=
  let left := LoadSample block Format.BytesPerSample
  let right :=
    if Format.Channels = 2 then
      LoadSample (block.drop Format.BytesPerSample) Format.BytesPerSample
    else
      left
  (left, right)

/-- A frame as `Read` puts it into its destination. -/
def StoreFrame (Format : SP_PCM_FORMAT) (frame : CableFrame) : Bytes :=
  if Format.Channels = 2 then
    StoreSample frame.1 Format.BytesPerSample ++ StoreSample frame.2 Format.BytesPerSample
  else
    -- both channels in one, in 64 bits, rounded towards zero
    StoreSample (BitVec.ofInt 32 ((frame.1.toInt + frame.2.toInt).tdiv 2)) Format.BytesPerSample

section
variable {size : Nat} {value : BitVec 32} {byte : UInt8}

theorem UCHAR_eq (h : ∀ i < 8, value.getLsbD i = byte.toBitVec.getLsbD i) : UCHAR value = byte := by
  rw [← UInt8.toBitVec_inj]
  apply BitVec.eq_of_getLsbD_eq
  intro i hi
  simp [UCHAR, hi, h i hi]

/-- What is loaded from a sample of two to four bytes is stored as these bytes. -/
theorem StoreSample_LoadSample {Source : Bytes} (hsize : 2 ≤ size ∧ size ≤ 4)
    (hlength : Source.length = size) : StoreSample (LoadSample Source size) size = Source := by
  obtain rfl | rfl | rfl : size = 2 ∨ size = 3 ∨ size = 4 := by omega
  · obtain ⟨a, b, rfl⟩ := List.length_eq_two.1 hlength
    simp only [StoreSample, LoadSample, List.cons.injEq, and_true]
    refine ⟨?_, ?_⟩ <;>
      apply UCHAR_eq <;> intro i hi <;> simp [UINT32_at] <;> grind
  · obtain ⟨a, b, c, rfl⟩ := List.length_eq_three.1 hlength
    simp only [StoreSample, LoadSample, List.cons.injEq, and_true]
    refine ⟨?_, ?_, ?_⟩ <;>
      apply UCHAR_eq <;> intro i hi <;> simp [UINT32_at] <;> grind
  · obtain ⟨a, b, c, d, rfl⟩ := List.length_eq_four.1 hlength
    simp only [StoreSample, LoadSample, List.cons.injEq, and_true]
    refine ⟨?_, ?_, ?_, ?_⟩ <;>
      apply UCHAR_eq <;> intro i hi <;> simp [UINT32_at] <;> grind

/-- A sample is in its own bytes. -/
theorem LoadSample_take (Source : Bytes) (hsize : 2 ≤ size ∧ size ≤ 4) :
    LoadSample (Source.take size) size = LoadSample Source size := by
  have hat {i : Nat} (hi : i < size) : UINT32_at (Source.take size) i = UINT32_at Source i := by
    unfold UINT32_at
    rw [List.getD_eq_getElem?_getD, List.getD_eq_getElem?_getD, List.getElem?_take_of_lt hi]
  obtain rfl | rfl | rfl : size = 2 ∨ size = 3 ∨ size = 4 := by omega
  all_goals
    unfold LoadSample
    simp only [hat (Nat.zero_lt_succ _), hat (i := 1) (by omega)]
  · rw [hat (i := 2) (by omega)]
  · rw [hat (i := 2) (by omega), hat (i := 3) (by omega)]

theorem mix_self (x : BitVec 32) : BitVec.ofInt 32 ((x.toInt + x.toInt).tdiv 2) = x := by
  have hdouble : x.toInt + x.toInt = x.toInt * 2 := by omega
  rw [hdouble, Int.mul_tdiv_cancel _ (by omega), BitVec.ofInt_toInt]

/-- A frame goes through the cable as it is when both sides have one format. -/
theorem StoreFrame_LoadFrame {Format : SP_PCM_FORMAT} {block : Bytes} (h : SpIsValidFormat Format)
    (hlength : block.length = Format.BlockAlign) :
    StoreFrame Format (LoadFrame Format block) = block := by
  obtain ⟨hchannels, hmax, hlow, hhigh, halign⟩ := h
  have hsize : 2 ≤ Format.BytesPerSample ∧ Format.BytesPerSample ≤ 4 := ⟨hlow, hhigh⟩
  unfold StoreFrame LoadFrame
  by_cases hstereo : Format.Channels = 2
  · rw [hstereo] at halign
    have hleft : (block.take Format.BytesPerSample).length = Format.BytesPerSample := by
      rw [List.length_take]
      omega
    have hright : (block.drop Format.BytesPerSample).length = Format.BytesPerSample := by
      rw [List.length_drop]
      omega
    simp only [if_pos hstereo]
    rw [← LoadSample_take block hsize, StoreSample_LoadSample hsize hleft,
      StoreSample_LoadSample hsize hright, List.take_append_drop]
  · have hmono : Format.Channels = 1 := by
      unfold SP_MAX_CHANNELS at hmax
      omega
    rw [hmono, Nat.one_mul] at halign
    simp only [if_neg hstereo, mix_self]
    exact StoreSample_LoadSample hsize (hlength.trans halign)

end

/-! ## 2. The ring -/

/-- Ring capacity in frames (~341 ms at 48 kHz). -/
def kCapacityFrames : Nat := 16384

/-- Frames the reader keeps queued before it starts reading (30 ms). -/
def kPrimeFrames : Nat := 1440

/-- Beyond this backlog (100 ms) the reader drops stale audio down to `kPrimeFrames`. -/
def kMaxQueuedFrames : Nat := 4800

/-- The slot of the left sample (`side` 0) or the right one (`side` 1) of a frame. -/
def cable_slot (frame side : Nat) : Nat := frame % kCapacityFrames * 2 + side

/-- A difference of two 64-bit counters, as a cast to `ULONG64` takes it. -/
def ULONG64_sub (write read : Nat) : Nat := (((write : ℤ) - read) % 18446744073709551616).toNat

structure Cable where
  Samples : Nat → BitVec 32
  /-- total frames ever written (owned by the writer) -/
  WriteFrame : Nat
  /-- and read (owned by the reader) -/
  ReadFrame : Nat
  /-- a capture stream is running -/
  ReaderActive : Bool
  /-- `kPrimeFrames` were queued since the last underrun -/
  Primed : Bool
  /-- writer: frames lost because the ring was full -/
  DroppedFrames : Nat
  /-- reader: reads that ran out of audio -/
  Underruns : Nat
  /-- reader: stale frames dropped to bound latency -/
  SkippedFrames : Nat

/-- Where `Write` is, with what it holds there. -/
inductive CableWriter where
  | Idle
  /-- a reader is active -/
  | Called (Source : Bytes) (Frames : Nat) (Format : SP_PCM_FORMAT)
  /-- `stored` samples of `frames` frames are in the ring -/
  | Storing (Source : Bytes) (Format : SP_PCM_FORMAT) (write frames stored : Nat)
  deriving DecidableEq

/-- Where `StartReader` or `Read` is. -/
inductive CableReader where
  | Idle
  /-- `StartReader` knows where the writer is -/
  | Starting (write : Nat)
  /-- and has thrown away what was queued -/
  | Started
  /-- `Read` has too little to play -/
  | Silent (Frames : Nat) (Format : SP_PCM_FORMAT) (write read : Nat)
  /-- `loaded` samples of `available` frames are out of the ring, `left` is the last left one -/
  | Loading (Frames : Nat) (Format : SP_PCM_FORMAT) (write read available loaded : Nat)
      (left : BitVec 32) (Destination : Bytes)
  deriving DecidableEq

/-- A `Read` that has returned. -/
structure ReadCall where
  Frames : Nat
  Format : SP_PCM_FORMAT
  /-- the writer's counter, when it was looked at -/
  write : Nat
  /-- the first frame that was read, and how many were -/
  read : Nat
  available : Nat
  Destination : Bytes

/-- What has gone through the cable. -/
structure CableLog where
  /-- the frames that were put into the ring, each as it was handed over -/
  written : List (SP_PCM_FORMAT × Bytes)
  reads : List ReadCall
  /-- frames handed over by calls that found a reader -/
  offered : Nat
  /-- frames that a new reader has thrown away -/
  discarded : Nat

structure CableState where
  cable : Cable
  writer : CableWriter
  reader : CableReader
  log : CableLog

inductive CableEvent where
  | Write (Source : Bytes) (Frames : Nat) (Format : SP_PCM_FORMAT)
  | Read (Frames : Nat) (Format : SP_PCM_FORMAT)
  | StartReader
  | StopReader
  /-- the next step of a call under way -/
  | WriterGoes
  | ReaderGoes

/-- The block of a frame in a source. -/
def block_at (Source : Bytes) (Format : SP_PCM_FORMAT) (i : Nat) : Bytes :=
  (Source.drop (i * Format.BlockAlign)).take Format.BlockAlign

/-- The first blocks of a source, with their format. -/
def blocks (Source : Bytes) (Format : SP_PCM_FORMAT) (frames : Nat) :
    List (SP_PCM_FORMAT × Bytes) :=
  (List.range frames).map fun i => (Format, block_at Source Format i)

/-- The left sample of a frame, or the right one. -/
def CableFrame.sample (frame : CableFrame) (side : Nat) : BitVec 32 :=
  if side = 0 then frame.1 else frame.2

namespace CableState

/-- `Write`, once a reader is active: as much as there is room for. -/
def writer_looks (s : CableState) (Source : Bytes) (Frames : Nat) (Format : SP_PCM_FORMAT) :
    CableState :=
  let write := s.cable.WriteFrame
  let read := s.cable.ReadFrame
  let queued := ULONG64_sub write read
  let space := if queued ≥ kCapacityFrames then 0 else kCapacityFrames - queued
  let log := { s.log with offered := s.log.offered + Frames }
  if Frames > space then
    { s with
      cable.DroppedFrames := s.cable.DroppedFrames + (Frames - space)
      writer := .Storing Source Format write space 0
      log := log }
  else
    { s with writer := .Storing Source Format write Frames 0, log := log }

/-- One sample of `Write`'s loop, or its end. -/
def writer_stores (s : CableState) (Source : Bytes) (Format : SP_PCM_FORMAT)
    (write frames stored : Nat) : CableState :=
  if stored < 2 * frames then
    let frame := LoadFrame Format (block_at Source Format (stored / 2))
    let slot := cable_slot (write + stored / 2) (stored % 2)
    { s with
      cable.Samples := Function.update s.cable.Samples slot (frame.sample (stored % 2))
      writer := .Storing Source Format write frames (stored + 1) }
  else
    -- publish the new frames only after they are fully written
    { s with
      cable.WriteFrame := write + frames
      writer := .Idle
      log.written := s.log.written ++ blocks Source Format frames }

/-- `Read`, up to its loop. -/
def reader_looks (s : CableState) (Frames : Nat) (Format : SP_PCM_FORMAT) : CableState :=
  let read := s.cable.ReadFrame
  let write := s.cable.WriteFrame
  let queued := ULONG64_sub write read
  let late := queued > kMaxQueuedFrames
  -- too far behind the feed: drop stale audio instead of adding latency
  let skipped := if late then s.cable.SkippedFrames + (queued - kPrimeFrames)
    else s.cable.SkippedFrames
  let read := if late then write - kPrimeFrames else read
  let queued := if late then kPrimeFrames else queued
  let cable := { s.cable with SkippedFrames := skipped }
  if !cable.Primed && decide (queued < kPrimeFrames) then
    { s with cable := cable, reader := .Silent Frames Format write read }
  else
    let available := if queued < Frames then queued else Frames
    { s with
      cable := { cable with Primed := true }
      reader := .Loading Frames Format write read available 0 0 [] }

/-- A `Read` returns, having read `available` frames. -/
def reader_returns (s : CableState) (call : ReadCall) (cable : Cable) : CableState :=
  { s with
    cable := { cable with ReadFrame := call.read + call.available }
    reader := .Idle
    log.reads := s.log.reads ++ [call] }

/-- One sample of `Read`'s loop, or its end. -/
def reader_loads (s : CableState) (Frames : Nat) (Format : SP_PCM_FORMAT)
    (write read available loaded : Nat) (left : BitVec 32) (Destination : Bytes) : CableState :=
  if loaded < 2 * available then
    let sample := s.cable.Samples (cable_slot (read + loaded / 2) (loaded % 2))
    if loaded % 2 = 0 then
      { s with
        reader := .Loading Frames Format write read available (loaded + 1) sample Destination }
    else
      { s with
        reader := .Loading Frames Format write read available (loaded + 1) left
          (Destination ++ StoreFrame Format (left, sample)) }
  else
    let rest := List.replicate ((Frames - available) * Format.BlockAlign) 0
    let call := ⟨Frames, Format, write, read, available, Destination ++ rest⟩
    if available < Frames then
      -- the feed stopped or fell behind: silence for the rest, then prime again
      s.reader_returns call
        { s.cable with Underruns := s.cable.Underruns + 1, Primed := false }
    else
      s.reader_returns call s.cable

/-- What an event does: a call up to its first look at what the other side has changed, or a step
of the call that is under way. -/
def step (s : CableState) : CableEvent → CableState
  | .Write Source Frames Format =>
      if Frames = 0 ∨ ¬ SpIsValidFormat Format then s
      else if s.cable.ReaderActive then { s with writer := .Called Source Frames Format }
      else s
  | .Read Frames Format =>
      if Frames = 0 ∨ ¬ SpIsValidFormat Format then s else s.reader_looks Frames Format
  | .StartReader => { s with reader := .Starting s.cable.WriteFrame }
  | .StopReader => { s with cable.ReaderActive := false }
  | .WriterGoes =>
      match s.writer with
      | .Idle => s
      | .Called Source Frames Format => s.writer_looks Source Frames Format
      | .Storing Source Format write frames stored =>
          s.writer_stores Source Format write frames stored
  | .ReaderGoes =>
      match s.reader with
      | .Idle => s
      | .Starting write =>
          { s with
            cable.ReadFrame := write
            reader := .Started
            log.discarded := s.log.discarded + (write - s.cable.ReadFrame) }
      | .Started => { s with cable.Primed := false, cable.ReaderActive := true, reader := .Idle }
      | .Silent Frames Format write read =>
          let rest := List.replicate (Frames * Format.BlockAlign) 0
          s.reader_returns ⟨Frames, Format, write, read, 0, rest⟩ s.cable
      | .Loading Frames Format write read available loaded left Destination =>
          s.reader_loads Frames Format write read available loaded left Destination

/-- Each side has one call under way at most, and a source is as long as it is said to be. -/
def can (s : CableState) : CableEvent → Prop
  | .Write Source Frames Format => s.writer = .Idle ∧ Source.length = Frames * Format.BlockAlign
  | .Read _ _ | .StartReader | .StopReader => s.reader = .Idle
  | .WriterGoes => s.writer ≠ .Idle
  | .ReaderGoes => s.reader ≠ .Idle

instance (s : CableState) (event : CableEvent) : Decidable (s.can event) :=
  match event with
  | .Write _ _ _ => inferInstanceAs (Decidable (_ ∧ _))
  | .Read _ _ | .StartReader | .StopReader => inferInstanceAs (Decidable (_ = _))
  | .WriterGoes | .ReaderGoes => inferInstanceAs (Decidable (_ ≠ _))

/-- The cable as `Initialize` leaves it, with whatever is in its memory. -/
def start (Samples : Nat → BitVec 32) : CableState :=
  { cable :=
      { Samples := Samples, WriteFrame := 0, ReadFrame := 0, ReaderActive := false, Primed := false
        DroppedFrames := 0, Underruns := 0, SkippedFrames := 0 }
    writer := .Idle
    reader := .Idle
    log := { written := [], reads := [], offered := 0, discarded := 0 } }

end CableState

/-- A cable with a render stream and a capture stream at its ends. -/
def cable : Machine CableState CableEvent where
  init s := ∃ Samples, s = .start Samples
  enabled := CableState.can
  step := CableState.step

instance (s : CableState) (event : CableEvent) : Decidable (cable.enabled s event) :=
  inferInstanceAs (Decidable (s.can event))

end SoundPush
