/-
`Redundancy` -- the copy of the preceding frame in a redundant packet.

The encode thread keeps the last frame's packet in `previous`. Every way out of a
frame replaces or clears it, except one: when the encoder fails, the frame is
skipped and `previous` is still the packet of the frame before. A redundant
packet sent next carries that older frame, and the receiver, which only
subtracts one frame length, puts it where the failed frame belongs. Nothing else
goes wrong (`copy_precedes_iff`).
-/
import SoundPush.Pipeline.Receiver
import SoundPush.Pipeline.Timeline

set_option autoImplicit false

namespace SoundPush

/-! ## 1. Runs of one sender -/

inductive SenderOp where
  | subscribe (subscriber : Subscriber)
  | unsubscribe (id : Nat)
  /-- one frame of the capture -/
  | frame (inp : FrameInput)

def Datagram.redundant (d : Datagram) : Bool :=
  d.packet.header.flags.contains MediaFlags.REDUNDANT

namespace Sender

def apply (s : Sender) : SenderOp → Sender
  | .subscribe subscriber => (s.subscribe subscriber).1
  | .unsubscribe id => s.unsubscribe id
  | .frame inp => (s.encode_frame inp).1

def machine : Machine Sender SenderOp where
  init s := ∃ codec frame, 0 < frame ∧ s = start codec frame
  enabled _ _ := True
  step := apply

/-- The encoder is asked for this frame. -/
def encodes (s : Sender) (inp : FrameInput) : Bool :=
  !(s.begun inp).targets.isEmpty && (s.begun inp).needs_audio

/-- The encodings of the frames so far, each with its timestamp. -/
def coded (tr : List (Sender × SenderOp)) : List (Nat × Bytes) :=
  tr.filterMap fun p =>
    match p.2 with
    | .frame inp => if p.1.encodes inp then inp.encoded.map (p.1.timestamp, ·) else none
    | _ => none

/-- The encoder failed at the last frame. -/
def failed (tr : List (Sender × SenderOp)) : Bool :=
  tr.foldl
    (fun b p =>
      match p.2 with
      | .frame inp => p.1.encodes inp && inp.encoded.isNone
      | _ => b) false

/-- A receiver that gets the frame as audio with redundancy. -/
def wants_copy (s : Sender) (inp : FrameInput) (t : Target) : Bool :=
  !inp.muted t.id && !((s.begun inp).in_dtx && t.dtx) && inp.redundancy t.id && inp.send_ok t.id

/-- A redundant packet of the frame can be built and goes out. -/
def repeats (s : Sender) (inp : FrameInput) : Prop :=
  s.encodes inp = true ∧
    (∃ packet, inp.encoded = some packet ∧
      ((s.begun inp).frame_of s.timestamp s.seq packet).can_add_redundancy = true) ∧
    ∃ t ∈ (s.begun inp).targets, s.wants_copy inp t = true

/-- What a redundant datagram should be: the frame's encoding with its length before it and the
preceding frame's encoding after it. The receiver makes of it a copy one frame length earlier and
the frame itself, whatever its decoder and its buffer. -/
def CopyPrecedes (tr : List (Sender × SenderOp)) (s : Sender) (inp : FrameInput) (d : Datagram) :
    Prop :=
  ∃ packet copy,
    (d.ts, packet) ∈ coded (tr ++ [(s, .frame inp)]) ∧
    s.frame ≤ d.ts ∧ (d.ts - s.frame, copy) ∈ coded tr ∧
    d.packet.payload =
      UInt8.ofNat (packet.length / 256) :: UInt8.ofNat packet.length :: (packet ++ copy) ∧
    split_redundant true d.packet.payload = (packet, some copy) ∧
    ∀ (δ α : Type) (decode : δ → Bytes → Option (Samples α) × δ) (p : Playout δ α) (arrival : Nat),
      p.frame_samples = s.frame → p.codec = s.codec →
        p.receive decode (.of arrival d.packet) =
          ((p.begin_packet (.of arrival d.packet)).insert_copy decode (d.ts - s.frame) arrival
            copy).insert_primary decode d.ts arrival packet

/-! ## 2. Packets and their split -/

/-- Setting one flag leaves another as it was. -/
theorem contains_with_other {f : MediaFlags} {flag other : BitVec 8} (h : other &&& flag = 0) :
    (f.with_flag other).contains flag = f.contains flag := by
  unfold MediaFlags.contains MediaFlags.with_flag
  have hzero : (0 : BitVec 8) = 0#8 := rfl
  rw [BitVec.and_or_distrib_right, h, hzero, BitVec.or_zero]

/-- A receiver's patch leaves a flag that is neither the marker nor the discontinuity. -/
theorem contains_patch (t : Target) (p : MediaPacket) {flag : BitVec 8}
    (hm : MediaFlags.MARKER &&& flag = 0) (hd : MediaFlags.DISCONTINUITY &&& flag = 0) :
    (patch t p).header.flags.contains flag = p.header.flags.contains flag := by
  unfold patch
  dsimp only
  by_cases hr : t.restart = true
  · rw [if_pos hr, contains_with_other hd]
    by_cases hf : t.first = true
    · rw [if_pos hf, contains_with_other hm]
    · rw [if_neg hf]
  · rw [if_neg hr]
    by_cases hf : t.first = true
    · rw [if_pos hf, contains_with_other hm]
    · rw [if_neg hf]

/-- The split of a redundant payload gives back its two parts. -/
theorem split_audio_payload {packet copy : Bytes} (h : packet.length < 2 ^ 16) :
    split_redundant true (audio_payload packet copy true) = (packet, some copy) := by
  have hlen : get_be [UInt8.ofNat (packet.length / 256), UInt8.ofNat packet.length] =
      packet.length := by
    have hput : [UInt8.ofNat (packet.length / 256), UInt8.ofNat packet.length] =
        put_be 2 packet.length := rfl
    rw [hput, get_be_of_lt h]
  unfold audio_payload split_redundant
  rw [if_pos rfl]
  dsimp only
  rw [if_pos rfl, hlen, if_pos (by rw [List.length_append]; omega), List.take_left, List.drop_left]

/-! ## 3. One frame -/

variable {s : Sender} {inp : FrameInput} {d : Datagram} {packet : Bytes}

theorem begun_rest (s : Sender) (inp : FrameInput) :
    (s.begun inp).previous = s.previous ∧ (s.begun inp).codec = s.codec ∧
      s.refresh_targets.seq = s.seq ∧ s.refresh_targets.timestamp = s.timestamp := by
  unfold begun refresh_targets
  split
  · exact ⟨rfl, rfl, rfl, rfl⟩
  · exact ⟨rfl, rfl, rfl, rfl⟩

theorem encode_frame_empty (h : (s.begun inp).targets.isEmpty = true) :
    s.encode_frame inp = ({ s.begun inp with previous := [] }, []) := by
  unfold begun at h
  unfold encode_frame
  rw [if_pos h]
  rfl

theorem encode_frame_failed (h : s.encodes inp = true) (he : inp.encoded = none) :
    s.encode_frame inp = (s.begun inp, []) := by
  obtain ⟨htargets, hneeds⟩ := Bool.and_eq_true_iff.1 h
  unfold begun at htargets hneeds
  unfold encode_frame
  rw [if_neg (by simpa using htargets), if_pos hneeds, he]
  rfl

theorem encode_frame_audio (h : s.encodes inp = true) (he : inp.encoded = some packet) :
    s.encode_frame inp =
      (s.begun inp).send_frame ((s.begun inp).frame_of s.timestamp s.seq packet) inp := by
  obtain ⟨htargets, hneeds⟩ := Bool.and_eq_true_iff.1 h
  obtain ⟨_, _, hseq, hts⟩ := begun_rest s inp
  unfold begun at htargets hneeds
  unfold encode_frame
  rw [if_neg (by simpa using htargets), if_pos hneeds, he]
  dsimp only
  rw [hseq, hts]
  rfl

theorem encode_frame_silence (ht : (s.begun inp).targets.isEmpty = false)
    (hn : (s.begun inp).needs_audio = false) :
    s.encode_frame inp =
      (s.begun inp).send_frame ((s.begun inp).frame_of s.timestamp s.seq []) inp := by
  obtain ⟨_, _, hseq, hts⟩ := begun_rest s inp
  unfold begun at ht hn
  unfold encode_frame
  rw [if_neg (by rw [ht]; decide), if_neg (by rw [hn]; decide), hseq, hts]
  rfl

/-- A datagram of a frame is redundant if its receiver gets audio and asks for redundancy, and the
frame allows it; then it carries the packet and `previous`. -/
theorem send_target_redundant {f : Frame} {t : Target}
    (h : (s.send_target f inp t).2 = some d) (hr : d.redundant = true) :
    f.can_add_redundancy = true ∧ inp.muted t.id = false ∧ (f.dtx && t.dtx) = false ∧
      inp.redundancy t.id = true ∧ inp.send_ok t.id = true ∧ d.ts = f.ts ∧
      d.packet.header.codec = s.codec ∧ d.packet.header.flags.contains MediaFlags.DTX = false ∧
      d.packet.payload = audio_payload f.packet s.previous true := by
  unfold send_target at h
  by_cases hmuted : inp.muted t.id = true
  · rw [if_pos hmuted] at h
    cases h
  rw [if_neg hmuted] at h
  dsimp only at h
  by_cases hquiet : (f.dtx && t.dtx && !f.dtx_signal) = true
  · rw [if_pos hquiet] at h
    cases h
  rw [if_neg hquiet] at h
  split at h
  · cases h
  split at h
  · next hok =>
      obtain rfl := Option.some.inj h
      have hflag : (s.build_packet f.ts f.seq f.packet (f.dtx && t.dtx)
          (!(f.dtx && t.dtx) && f.can_add_redundancy && inp.redundancy t.id)).header.flags.contains
            MediaFlags.REDUNDANT = true := by
        rw [← @contains_patch t _ MediaFlags.REDUNDANT (by decide) (by decide)]
        exact hr
      -- The flag is on the packet only if a copy was wanted, allowed, and not silenced.
      have hwith : (!(f.dtx && t.dtx) && f.can_add_redundancy && inp.redundancy t.id) = true ∧
          (f.dtx && t.dtx) = false := by
        unfold build_packet at hflag
        dsimp only at hflag
        by_cases hsilent : (f.dtx && t.dtx) = true
        · rw [if_pos hsilent] at hflag
          exact absurd hflag (by decide)
        · rw [if_neg hsilent] at hflag
          refine ⟨?_, Bool.eq_false_iff.2 hsilent⟩
          by_contra hno
          rw [if_neg hno] at hflag
          exact absurd hflag (by decide)
      obtain ⟨hwith, hsilent⟩ := hwith
      have hparts := hwith
      rw [Bool.and_eq_true, Bool.and_eq_true] at hparts
      refine ⟨hparts.1.2, Bool.eq_false_iff.2 hmuted, hsilent, hparts.2, hok, rfl, rfl, ?_, ?_⟩
      · show (patch t _).header.flags.contains MediaFlags.DTX = false
        rw [contains_patch t _ (by decide) (by decide), hwith, hsilent]
        show (MediaFlags.empty.with_flag MediaFlags.REDUNDANT).contains MediaFlags.DTX = false
        decide
      · show (s.build_packet f.ts f.seq f.packet _ _).payload = _
        rw [hwith, hsilent]
        rfl
  · cases h

/-- The receiver gets a redundant datagram. -/
theorem send_target_sends {f : Frame} {t : Target} (hc : f.can_add_redundancy = true)
    (hsize : 2 + f.packet.length + s.previous.length ≤ MAX_MEDIA_PAYLOAD)
    (hm : inp.muted t.id = false) (hd : (f.dtx && t.dtx) = false)
    (hr : inp.redundancy t.id = true) (hok : inp.send_ok t.id = true) :
    ∃ d, (s.send_target f inp t).2 = some d ∧ d.redundant = true := by
  have hfits : (s.build_packet f.ts f.seq f.packet false true).encodable = true := by
    unfold MediaPacket.encodable
    show decide ((UInt8.ofNat _ :: UInt8.ofNat _ :: (f.packet ++ s.previous)).length ≤ _) = true
    rw [decide_eq_true_eq, List.length_cons, List.length_cons, List.length_append]
    omega
  refine ⟨⟨t.sink, patch t (s.build_packet f.ts f.seq f.packet false true)⟩, ?_, ?_⟩
  · unfold send_target
    dsimp only
    rw [hm, hd, hc, hr, if_neg Bool.false_ne_true, Bool.false_and, if_neg Bool.false_ne_true]
    show (if !(s.build_packet f.ts f.seq f.packet false true).encodable then _ else _ :
      Target × Option Datagram).2 = _
    rw [hfits, if_neg (by decide), if_pos hok]
    rfl
  · show (patch t _).header.flags.contains MediaFlags.REDUNDANT = true
    rw [contains_patch t _ (by decide) (by decide)]
    show (MediaFlags.empty.with_flag MediaFlags.REDUNDANT).contains MediaFlags.REDUNDANT = true
    decide

/-- What a redundant datagram is. -/
theorem redundant_sent (hd : d ∈ (s.encode_frame inp).2) (hr : d.redundant = true) :
    s.repeats inp ∧ d.ts = s.timestamp ∧ d.packet.header.codec = s.codec ∧
      d.packet.header.flags.contains MediaFlags.DTX = false ∧
      ∃ packet, inp.encoded = some packet ∧
        d.packet.payload = audio_payload packet s.previous true := by
  obtain ⟨hprev, hcodec, _⟩ := begun_rest s inp
  by_cases hempty : (s.begun inp).targets.isEmpty = true
  · rw [encode_frame_empty hempty] at hd
    cases hd
  have htargets : (s.begun inp).targets.isEmpty = false := Bool.eq_false_iff.2 hempty
  by_cases hneeds : (s.begun inp).needs_audio = true
  · have hencodes : s.encodes inp = true := by
      unfold encodes
      rw [htargets, hneeds]
      rfl
    cases hpacket : inp.encoded with
    | none =>
        rw [encode_frame_failed hencodes hpacket] at hd
        cases hd
    | some packet =>
        rw [encode_frame_audio hencodes hpacket] at hd
        obtain ⟨t, ht, hsend⟩ := mem_send_frame.1 hd
        obtain ⟨hcan, hm, hq, hwant, hok, hts, hc, hdtx, hpay⟩ := send_target_redundant hsend hr
        rw [hprev] at hpay
        refine ⟨⟨hencodes, ⟨packet, hpacket, hcan⟩, t, ht, ?_⟩, hts, hc.trans hcodec, hdtx, packet,
          rfl, hpay⟩
        have hq' : ((s.begun inp).in_dtx && t.dtx) = false := hq
        unfold wants_copy
        rw [hm, hq', hwant, hok]
        rfl
  -- Without audio to encode there is no packet, and nothing that could be repeated.
  · have hno : (s.begun inp).needs_audio = false := Bool.eq_false_iff.2 hneeds
    rw [encode_frame_silence htargets hno] at hd
    obtain ⟨t, ht, hsend⟩ := mem_send_frame.1 hd
    obtain ⟨hcan, _⟩ := send_target_redundant hsend hr
    have hfalse : ((s.begun inp).frame_of s.timestamp s.seq []).can_add_redundancy = false := by
      unfold frame_of
      dsimp only
      rw [hno, Bool.and_false, Bool.false_and, Bool.false_and]
    rw [hfalse] at hcan
    cases hcan

/-- What the frame allows of redundancy. -/
theorem can_add_redundancy_iff {ts : Nat} {seq : UInt32} :
    (s.frame_of ts seq packet).can_add_redundancy = true ↔
      s.codec = .Opus ∧ s.needs_audio = true ∧ s.previous ≠ [] ∧
        2 + packet.length + s.previous.length ≤ MAX_MEDIA_PAYLOAD := by
  unfold frame_of
  dsimp only
  rw [Bool.and_eq_true, Bool.and_eq_true, Bool.and_eq_true, decide_eq_true_eq, decide_eq_true_eq,
    Bool.not_eq_true', List.isEmpty_eq_false_iff, and_assoc, and_assoc]

theorem repeats_sends (h : s.repeats inp) :
    ∃ d ∈ (s.encode_frame inp).2, d.redundant = true := by
  obtain ⟨hencodes, ⟨packet, hpacket, hcan⟩, t, ht, hwant⟩ := h
  have hsize := (can_add_redundancy_iff.1 hcan).2.2.2
  unfold wants_copy at hwant
  rw [Bool.and_eq_true, Bool.and_eq_true, Bool.and_eq_true, Bool.not_eq_true',
    Bool.not_eq_true'] at hwant
  obtain ⟨⟨⟨hm, hq⟩, hr⟩, hok⟩ := hwant
  obtain ⟨d, hsend, hred⟩ := send_target_sends (s := s.begun inp) hcan hsize hm hq hr hok
  rw [encode_frame_audio hencodes hpacket]
  exact ⟨d, mem_send_frame.2 ⟨t, ht, hsend⟩, hred⟩

/-! ## 4. A whole run -/

variable {tr : List (Sender × SenderOp)}

theorem coded_frame (tr : List (Sender × SenderOp)) (s : Sender) (inp : FrameInput) :
    coded (tr ++ [(s, .frame inp)]) =
      coded tr ++ if s.encodes inp then (inp.encoded.map (s.timestamp, ·)).toList else [] := by
  unfold coded
  rw [List.filterMap_append]
  by_cases h : s.encodes inp = true
  · rw [if_pos h]
    cases he : inp.encoded with
    | none => simp [he]
    | some packet => simp [h, he]
  · rw [if_neg h]
    simp [h]

theorem failed_frame (tr : List (Sender × SenderOp)) (s : Sender) (inp : FrameInput) :
    failed (tr ++ [(s, .frame inp)]) = (s.encodes inp && inp.encoded.isNone) := by
  unfold failed
  rw [List.foldl_append]
  rfl

/-- What the encode thread knows of the frames so far: their places, and in `previous` the one just
before the clock, unless the encoder failed at it. -/
structure Kept (tr : List (Sender × SenderOp)) (s : Sender) : Prop where
  pos : 0 < s.frame
  behind : ∀ c ∈ coded tr, c.1 + s.frame ≤ s.timestamp
  gap : failed tr = true → ∀ c ∈ coded tr, c.1 + s.frame < s.timestamp
  copy : failed tr = false → s.previous ≠ [] →
    s.frame ≤ s.timestamp ∧ (s.timestamp - s.frame, s.previous) ∈ coded tr

theorem Kept.frame (h : Kept tr s) (inp : FrameInput) :
    Kept (tr ++ [(s, .frame inp)]) (s.encode_frame inp).1 := by
  obtain ⟨_, hframe, _, hts, _⟩ := encode_frame_group s inp
  have hpos := h.pos
  have hprev := (begun_rest s inp).1
  have hold : ∀ c ∈ coded tr, c.1 + s.frame < s.timestamp + s.frame := by
    intro c hc
    have hle := h.behind c hc
    omega
  by_cases hencodes : s.encodes inp = true
  · cases hpacket : inp.encoded with
    | none =>
        -- the frame is skipped, and `previous` stays behind the clock
        have hcoded : coded (tr ++ [(s, .frame inp)]) = coded tr := by
          rw [coded_frame, hpacket, if_pos hencodes]
          exact List.append_nil _
        have hfailed : failed (tr ++ [(s, .frame inp)]) = true := by
          rw [failed_frame, hencodes, hpacket]
          rfl
        refine ⟨by rwa [hframe], fun c hc => ?_, fun _ c hc => ?_, fun hno => ?_⟩
        · rw [hcoded] at hc
          rw [hframe, hts]
          exact (hold c hc).le
        · rw [hcoded] at hc
          rw [hframe, hts]
          exact hold c hc
        · rw [hfailed] at hno
          cases hno
    | some packet =>
        have hcoded : coded (tr ++ [(s, .frame inp)]) = coded tr ++ [(s.timestamp, packet)] := by
          rw [coded_frame, hpacket, if_pos hencodes]
          rfl
        have hfailed : failed (tr ++ [(s, .frame inp)]) = false := by
          rw [failed_frame, hpacket, Option.isNone_some, Bool.and_false]
        have hnext : (s.encode_frame inp).1.previous = packet := by
          rw [encode_frame_audio hencodes hpacket]
          exact if_pos (Bool.and_eq_true_iff.1 hencodes).2
        refine ⟨by rwa [hframe], fun c hc => ?_, fun hyes => ?_, fun _ _ => ?_⟩
        · rw [hframe, hts]
          rw [hcoded] at hc
          rcases List.mem_append.1 hc with hc | hc
          · exact (hold c hc).le
          · rw [List.mem_singleton.1 hc]
        · rw [hfailed] at hyes
          cases hyes
        · rw [hframe, hts, hnext, hcoded]
          refine ⟨by omega, List.mem_append_right _ (List.mem_singleton.2 ?_)⟩
          rw [Nat.add_sub_cancel]
  · have hcoded : coded (tr ++ [(s, .frame inp)]) = coded tr := by
      rw [coded_frame, if_neg hencodes]
      exact List.append_nil _
    have hfailed : failed (tr ++ [(s, .frame inp)]) = false := by
      rw [failed_frame, Bool.eq_false_iff.2 hencodes, Bool.false_and]
    have hnext : (s.encode_frame inp).1.previous = [] := by
      by_cases hempty : (s.begun inp).targets.isEmpty = true
      · rw [encode_frame_empty hempty]
      · have htargets := Bool.eq_false_iff.2 hempty
        have hneeds : (s.begun inp).needs_audio = false := by
          unfold encodes at hencodes
          rw [htargets] at hencodes
          exact Bool.eq_false_iff.2 hencodes
        rw [encode_frame_silence htargets hneeds]
        exact if_neg (by rw [hneeds]; decide)
    refine ⟨by rwa [hframe], fun c hc => ?_, fun hyes => ?_, fun _ hne => absurd hnext hne⟩
    · rw [hcoded] at hc
      rw [hframe, hts]
      exact (hold c hc).le
    · rw [hfailed] at hyes
      cases hyes

theorem run_kept (hr : machine.Run tr s) : Kept tr s := by
  induction hr with
  | start h =>
      obtain ⟨codec, frame, hpos, rfl⟩ := h
      exact ⟨hpos, nofun, nofun, fun _ hne => absurd rfl hne⟩
  | @next tr s op _ _ ih =>
      cases op with
      | subscribe subscriber =>
          have hcoded : coded (tr ++ [(s, .subscribe subscriber)]) = coded tr := by
            unfold coded
            rw [List.filterMap_append]
            exact List.append_nil _
          have hfailed : failed (tr ++ [(s, .subscribe subscriber)]) = failed tr := by
            unfold failed
            rw [List.foldl_append]
            rfl
          exact ⟨ih.pos, hcoded ▸ ih.behind, hcoded ▸ hfailed ▸ ih.gap, hcoded ▸ hfailed ▸ ih.copy⟩
      | unsubscribe id =>
          have hcoded : coded (tr ++ [(s, .unsubscribe id)]) = coded tr := by
            unfold coded
            rw [List.filterMap_append]
            exact List.append_nil _
          have hfailed : failed (tr ++ [(s, .unsubscribe id)]) = failed tr := by
            unfold failed
            rw [List.foldl_append]
            rfl
          exact ⟨ih.pos, hcoded ▸ ih.behind, hcoded ▸ hfailed ▸ ih.gap, hcoded ▸ hfailed ▸ ih.copy⟩
      | frame inp => exact ih.frame inp

/-- What the receiver makes of a packet with a copy. -/
theorem receive_redundant {δ α : Type} {decode : δ → Bytes → Option (Samples α) × δ}
    {p : Playout δ α} {arrival : Nat} {copy : Bytes} (hr : d.redundant = true)
    (hdtx : d.packet.header.flags.contains MediaFlags.DTX = false)
    (hsplit : split_redundant true d.packet.payload = (packet, some copy)) (hcopy : copy ≠ [])
    (hc : d.packet.header.codec = p.codec) (hts : p.frame_samples ≤ d.ts) :
    p.receive decode (.of arrival d.packet) =
      ((p.begin_packet (.of arrival d.packet)).insert_copy decode (d.ts - p.frame_samples) arrival
        copy).insert_primary decode d.ts arrival packet := by
  have hred : (InboundPacket.of arrival d.packet).redundant = true := hr
  have hno : (InboundPacket.of arrival d.packet).dtx = false := hdtx
  have hcodec : (InboundPacket.of arrival d.packet).codec = p.codec := hc
  have hpayload : (InboundPacket.of arrival d.packet).payload = d.packet.payload := rfl
  have hplace : ¬ (copy.isEmpty = true ∨ d.ts < p.frame_samples) := by
    rintro (hempty | hearly)
    · exact hcopy (List.isEmpty_iff.1 hempty)
    · omega
  unfold Playout.receive
  rw [if_neg (not_not.2 hcodec)]
  dsimp only
  rw [hno, if_neg Bool.false_ne_true, hred, hpayload, hsplit]
  dsimp only
  rw [show (InboundPacket.of arrival d.packet).timestamp = d.ts from rfl]
  show Playout.insert_primary decode (if copy.isEmpty = true ∨ d.ts < p.frame_samples then _ else _)
    _ _ _ = _
  rw [if_neg hplace]
  rfl

/-- A redundant packet of a frame carries the frame before it, and the receiver puts that into its
place, exactly when it does not come right after a frame that failed to encode. -/
theorem copy_precedes_iff (hr : machine.Run tr s) (inp : FrameInput) :
    (∀ d ∈ (s.encode_frame inp).2, d.redundant = true → CopyPrecedes tr s inp d) ↔
      ¬ (failed tr = true ∧ s.repeats inp) := by
  have hkept := run_kept hr
  constructor
  · rintro hall ⟨hfailed, hrepeats⟩
    obtain ⟨d, hd, hred⟩ := repeats_sends hrepeats
    obtain ⟨packet, copy, _, hle, hcopy, _⟩ := hall d hd hred
    have hgap := hkept.gap hfailed _ hcopy
    have hts := (redundant_sent hd hred).2.1
    dsimp only at hgap
    omega
  · intro hno d hd hred
    obtain ⟨hrepeats, hts, hcodec, hdtx, packet, hpacket, hpayload⟩ := redundant_sent hd hred
    have hfailed : failed tr = false := by
      by_contra hfailed
      exact hno ⟨Bool.not_eq_false _ ▸ hfailed, hrepeats⟩
    obtain ⟨hencodes, ⟨packet', hpacket', hcan⟩, _⟩ := hrepeats
    obtain rfl := Option.some.inj (hpacket'.symm.trans hpacket)
    obtain ⟨_, _, hne, hsize⟩ := can_add_redundancy_iff.1 hcan
    rw [(begun_rest s inp).1] at hne hsize
    obtain ⟨hle, hcopy⟩ := hkept.copy hfailed hne
    have hshort : packet'.length < 2 ^ 16 := by
      have hmax : MAX_MEDIA_PAYLOAD = 1100 := rfl
      omega
    have hsplit := @split_audio_payload _ s.previous hshort
    rw [← hpayload] at hsplit
    refine ⟨packet', s.previous, ?_, by omega, by rwa [hts], hpayload, hsplit, ?_⟩
    · rw [coded_frame, if_pos hencodes, hpacket, hts]
      exact List.mem_append_right _ (List.mem_singleton.2 rfl)
    · intro δ α decode p arrival hframe hcod
      rw [← hframe]
      exact receive_redundant hred hdtx hsplit hne (hcodec.trans hcod.symm) (by omega)

/-! ## 5. A frame that does not encode -/

/-- An audible frame for a receiver that asks for redundancy. -/
def speech (encoded : Option Bytes) : FrameInput where
  is_silent := false
  encoded := encoded
  muted _ := false
  redundancy _ := true
  send_ok _ := true

/-- Three frames, of which the second does not encode. -/
def skip_ops : List SenderOp :=
  [.subscribe { route := 1, sink := 7, dtx := true }, .frame (speech (some [10])),
    .frame (speech none)]

/-- Three frames that all encode. -/
def speech_ops : List SenderOp :=
  [.subscribe { route := 1, sink := 7, dtx := true }, .frame (speech (some [10])),
    .frame (speech (some [11]))]

def opus_sender : Sender := start .Opus 480

/-- Nothing restricts what happens to a sender. -/
theorem admits_all (s : Sender) (ops : List SenderOp) : machine.Admits s ops := by
  induction ops generalizing s with
  | nil => trivial
  | cons op ops ih => exact ⟨trivial, ih _⟩

theorem opus_sender_run (ops : List SenderOp) :
    machine.Run (machine.trace opus_sender ops) (machine.exec opus_sender ops) := by
  have hstart : machine.init opus_sender := ⟨.Opus, 480, by decide, rfl⟩
  exact Machine.run_of_admits hstart (admits_all opus_sender ops)

/-- What goes out of a third frame. -/
def skip_datagram : Datagram where
  sink := 7
  packet :=
    { header :=
        { route := 1
          codec := .Opus
          flags := ⟨MediaFlags.REDUNDANT⟩
          sample_timestamp := 960
          seq := 2 }
      payload := [0, 1, 12, 10] }

/-- The third frame's copy is the first frame, in the second frame's place. -/
theorem copy_after_failure :
    machine.Run (machine.trace opus_sender skip_ops) (machine.exec opus_sender skip_ops) ∧
    ∃ d ∈ ((machine.exec opus_sender skip_ops).encode_frame (speech (some [12]))).2,
      d.redundant = true ∧ d.ts = 960 ∧ d.packet.payload = [0, 1, 12, 10] ∧
        split_redundant true d.packet.payload = ([12], some [10]) ∧
        coded (machine.trace opus_sender skip_ops) = [(0, [10])] ∧
        ¬ CopyPrecedes (machine.trace opus_sender skip_ops) (machine.exec opus_sender skip_ops)
          (speech (some [12])) d := by
  have hcoded : coded (machine.trace opus_sender skip_ops) = [(0, [10])] := by decide
  refine ⟨opus_sender_run skip_ops, skip_datagram, by decide, by decide, rfl, rfl, by decide,
    hcoded, ?_⟩
  rintro ⟨packet, copy, _, _, hcopy, _⟩
  rw [hcoded] at hcopy
  have hplace : skip_datagram.ts - (machine.exec opus_sender skip_ops).frame = 480 := by decide
  have hfirst := congrArg Prod.fst (List.mem_singleton.1 hcopy)
  exact absurd (hplace.symm.trans hfirst) (by decide)

theorem copy_precedes_iff_speech :
    (∀ d ∈ ((machine.exec opus_sender speech_ops).encode_frame (speech (some [12]))).2,
      d.redundant = true →
        CopyPrecedes (machine.trace opus_sender speech_ops) (machine.exec opus_sender speech_ops)
          (speech (some [12])) d) ↔
    ¬ (failed (machine.trace opus_sender speech_ops) = true ∧
      (machine.exec opus_sender speech_ops).repeats (speech (some [12]))) :=
  copy_precedes_iff (opus_sender_run speech_ops) (speech (some [12]))

end Sender

end SoundPush
