/-
`TcpReader` -- what one end of a connection has made of what it has read, and the
stream that brought it.

`Carries` says where the bytes are that were written and not yet taken: in the
stream or in the decoder, and a frame that the writer did not finish is at the end
of them. So the reader never sees anything but the frames that were written, in
order; it may hand on less (`Incoming.Sound`).
-/
import SoundPush.Transport.TcpWriter

set_option autoImplicit false

namespace SoundPush

/-! ## 1. The stream -/

/-- What was written is what has been read, what is in the stream or the decoder, and the beginning
of a frame if the writer has failed. -/
structure CarriesBytes (written : List (StreamFrameKind × Bytes)) (writes : Bool) (wire : Bytes)
    (read : List (StreamFrameKind × Bytes)) (buf : Bytes) : Prop where
  fits : ∀ f ∈ written, f.2.length ≤ f.1.max_len
  stream : ∃ unread cut, written = read ++ unread ∧
    buf ++ wire = (unread.map stream_frame_bytes).flatten ++ cut ∧
    stream_framing.next cut = (.ok none, cut) ∧ (writes = true → cut = [])

/-- What the reader `dst` sees of the writer `src`. -/
def Carries (src dst : TcpEnd) : Prop :=
  CarriesBytes src.log.written src.writes src.wire dst.log.read dst.decoder.buf

section
variable {written read : List (StreamFrameKind × Bytes)} {writes : Bool} {wire buf : Bytes}
  {frame : StreamFrameKind × Bytes}

namespace CarriesBytes

theorem empty : CarriesBytes [] true [] [] [] where
  fits _ hmem := absurd hmem List.not_mem_nil
  stream := ⟨[], [], rfl, rfl, Framing.next_of_short stream_framing.header_pos, fun _ => rfl⟩

theorem stop (h : CarriesBytes written writes wire read buf) :
    CarriesBytes written false wire read buf where
  fits := h.fits
  stream := by
    obtain ⟨unread, cut, hwritten, hbytes, hcut, -⟩ := h.stream
    exact ⟨unread, cut, hwritten, hbytes, hcut, fun hw => absurd hw Bool.false_ne_true⟩

theorem wrote (h : CarriesBytes written true wire read buf)
    (hfits : frame.2.length ≤ frame.1.max_len) :
    CarriesBytes (written ++ [frame]) true (wire ++ stream_frame_bytes frame) read buf where
  fits f hmem := by
    obtain hmem | hmem := List.mem_append.1 hmem
    · exact h.fits f hmem
    · rw [List.mem_singleton.1 hmem]
      exact hfits
  stream := by
    obtain ⟨unread, cut, hwritten, hbytes, hcut, hnone⟩ := h.stream
    obtain rfl := hnone rfl
    refine ⟨unread ++ [frame], [], ?_, ?_, hcut, fun _ => rfl⟩
    · rw [hwritten, List.append_assoc]
    · rw [← List.append_assoc, hbytes]
      simp

/-- The socket takes the beginning of a frame and fails. -/
theorem broke (h : CarriesBytes written true wire read buf)
    (hfits : frame.2.length ≤ frame.1.max_len) {k : Nat}
    (hk : k < (stream_frame_bytes frame).length) :
    CarriesBytes written false (wire ++ (stream_frame_bytes frame).take k) read buf where
  fits := h.fits
  stream := by
    obtain ⟨unread, cut, hwritten, hbytes, -, hnone⟩ := h.stream
    obtain rfl := hnone rfl
    refine ⟨unread, (stream_frame_bytes frame).take k, hwritten, ?_, ?_,
      fun hw => absurd hw Bool.false_ne_true⟩
    · rw [← List.append_assoc, hbytes, List.append_nil]
    · have henc := encodes_stream_frame hfits
      rw [← List.take_append_drop k (stream_frame_bytes frame)] at henc
      refine Framing.next_of_cut henc fun hnil => ?_
      have hlen := congrArg List.length hnil
      rw [List.length_drop, List.length_nil] at hlen
      omega

/-- Some bytes go from the stream to the decoder. -/
theorem moved (h : CarriesBytes written writes wire read buf) (n : Nat) :
    CarriesBytes written writes (wire.drop n) read (buf ++ wire.take n) where
  fits := h.fits
  stream := by
    obtain ⟨unread, cut, hwritten, hbytes, hrest⟩ := h.stream
    refine ⟨unread, cut, hwritten, ?_, hrest⟩
    rw [List.append_assoc, List.take_append_drop]
    exact hbytes

/-- What the decoder makes of what it has: nothing yet, or the next frame that was written. -/
theorem next_frame {decoder : StreamFrameDecoder}
    (h : CarriesBytes written writes wire read decoder.buf) :
    decoder.next_frame = (.ok none, decoder) ∨
      ∃ frame decoder', decoder.next_frame = (.ok (some frame), decoder') ∧ frame ∈ written ∧
        CarriesBytes written writes wire (read ++ [frame]) decoder'.buf := by
  obtain ⟨unread, cut, hwritten, hbytes, hcut, hnone⟩ := h.stream
  have hencodes : ∀ f ∈ unread, stream_framing.Encodes f (stream_frame_bytes f) := by
    intro f hf
    refine encodes_stream_frame (h.fits f ?_)
    rw [hwritten]
    exact List.mem_append_right _ hf
  rw [decoder.next_frame_eq]
  obtain hnext | ⟨f, rest, buf', rfl, hnext, hleft⟩ :=
    Framing.next_of_stream hencodes hcut hbytes
  · rw [hnext]
    exact .inl rfl
  · rw [hnext]
    refine .inr ⟨f, ⟨buf'⟩, rfl, ?_, h.fits, rest, cut, ?_, hleft, hcut, hnone⟩
    · rw [hwritten]
      exact List.mem_append_right _ List.mem_cons_self
    · rw [hwritten, List.append_assoc]
      rfl

end CarriesBytes
end

/-! ## 2. The receiving part of an end -/

structure Incoming where
  control_in : List Bytes
  datagram_in : List Bytes
  reads : Bool
  receiver : Bool
  read : List (StreamFrameKind × Bytes)
  got_control : List Bytes
  got_datagrams : List Bytes

def TcpEnd.incoming (e : TcpEnd) : Incoming :=
  { control_in := e.control_in, datagram_in := e.datagram_in, reads := e.reads
    receiver := e.receiver, read := e.log.read, got_control := e.log.got_control
    got_datagrams := e.log.got_datagrams }

namespace Incoming

structure Sound (i : Incoming) : Prop where
  /-- handed on, or waiting, or lost because nobody is there to take it -/
  control : ∃ gone, i.got_control ++ i.control_in ++ gone = payloads .Control i.read ∧
    (i.reads = true → i.receiver = true → gone = [])
  datagrams : (i.got_datagrams ++ i.datagram_in).Sublist (payloads .Datagram i.read)

variable {i : Incoming}

theorem Sound.stop (h : i.Sound) : Sound { i with reads := false } where
  control := by
    obtain ⟨gone, hread, -⟩ := h.control
    exact ⟨gone, hread, fun hr => absurd hr Bool.false_ne_true⟩
  datagrams := h.datagrams

/-- A frame that is neither a control message nor a datagram, or that is dropped. -/
theorem Sound.skip (h : i.Sound) {kind : StreamFrameKind} (hkind : kind ≠ .Control)
    (payload : Bytes) : Sound { i with read := i.read ++ [(kind, payload)] } where
  control := by
    obtain ⟨gone, hread, hnone⟩ := h.control
    refine ⟨gone, ?_, hnone⟩
    rw [payloads_append, ← hread, payloads_other hkind, List.append_nil]
  datagrams := by
    rw [payloads_append]
    exact h.datagrams.trans (List.sublist_append_left _ _)

theorem Sound.control_frame (h : i.Sound) (hreads : i.reads = true) (hreceiver : i.receiver = true)
    (payload : Bytes) :
    Sound
      { i with
        read := i.read ++ [(.Control, payload)]
        control_in := i.control_in ++ [payload] } where
  control := by
    obtain ⟨gone, hread, hnone⟩ := h.control
    refine ⟨[], ?_, fun _ _ => rfl⟩
    rw [payloads_append, ← hread, hnone hreads hreceiver, payloads_same]
    simp
  datagrams := by
    rw [payloads_append]
    exact h.datagrams.trans (List.sublist_append_left _ _)

/-- A control message that nobody is there to take. -/
theorem Sound.unheard (h : i.Sound) (payload : Bytes) :
    Sound { i with read := i.read ++ [(.Control, payload)], reads := false } where
  control := by
    obtain ⟨gone, hread, -⟩ := h.control
    refine ⟨gone ++ [payload], ?_, fun hr => absurd hr Bool.false_ne_true⟩
    rw [payloads_append, ← hread, payloads_same, List.append_assoc]
    simp
  datagrams := by
    rw [payloads_append]
    exact h.datagrams.trans (List.sublist_append_left _ _)

theorem Sound.datagram_frame (h : i.Sound) (payload : Bytes) :
    Sound
      { i with
        read := i.read ++ [(.Datagram, payload)]
        datagram_in := i.datagram_in ++ [payload] } where
  control := by
    obtain ⟨gone, hread, hnone⟩ := h.control
    refine ⟨gone, ?_, hnone⟩
    rw [payloads_append, ← hread, payloads_other (by decide), List.append_nil]
  datagrams := by
    rw [payloads_append, payloads_same, ← List.append_assoc]
    exact h.datagrams.append (List.Sublist.refl _)

theorem Sound.recv_control (h : i.Sound) :
    Sound
      { i with
        control_in := i.control_in.tail
        got_control := i.got_control ++ i.control_in.head?.toList } where
  control := by
    obtain ⟨gone, hread, hnone⟩ := h.control
    refine ⟨gone, ?_, hnone⟩
    rw [← hread]
    cases i.control_in <;> simp
  datagrams := h.datagrams

theorem Sound.read_datagram (h : i.Sound) :
    Sound
      { i with
        datagram_in := i.datagram_in.tail
        got_datagrams := i.got_datagrams ++ i.datagram_in.head?.toList } where
  control := h.control
  datagrams := by
    refine List.Sublist.trans ?_ h.datagrams
    cases i.datagram_in <;> simp

/-- Whoever received control messages is gone, with what was waiting. -/
theorem Sound.drop_receiver (h : i.Sound) :
    Sound { i with receiver := false, control_in := [] } where
  control := by
    obtain ⟨gone, hread, -⟩ := h.control
    refine ⟨i.control_in ++ gone, ?_, fun _ hr => absurd hr Bool.false_ne_true⟩
    rw [← hread]
    simp
  datagrams := h.datagrams

theorem Sound.drop_datagrams (h : i.Sound) : Sound { i with datagram_in := [] } where
  control := h.control
  datagrams := by
    refine List.Sublist.trans ?_ h.datagrams
    simp

end Incoming

/-! ## 3. What the reader does with a frame -/

namespace TcpEnd

variable {e : TcpEnd} {now : Nat} {frame : StreamFrameKind × Bytes}

/-- The end with one more frame in its log. -/
def with_read (e : TcpEnd) (now : Nat) (frame : StreamFrameKind × Bytes) : TcpEnd :=
  { e with log := e.log.with_frame now frame }

theorem on_frame_incoming (h : e.incoming.Sound) (hreads : e.reads = true) :
    ((e.with_read now frame).on_frame now frame).incoming.Sound := by
  obtain ⟨kind, payload⟩ := frame
  cases kind with
  | Control =>
      simp only [on_frame]
      split
      · exact h.unheard payload
      · next hreceiver =>
          have hheld : (e.with_read now (.Control, payload)).receiver = true := by
            simpa using hreceiver
          exact h.control_frame hreads hheld payload
  | Datagram =>
      have hskip := h.skip (by decide : StreamFrameKind.Datagram ≠ .Control) payload
      simp only [on_frame]
      split
      · exact hskip.stop
      split
      · exact h.datagram_frame payload
      · exact hskip
  | Ping =>
      have hskip := h.skip (by decide : StreamFrameKind.Ping ≠ .Control) payload
      simp only [on_frame]
      split
      · split <;> exact hskip
      · exact hskip.stop
  | Pong =>
      have hskip := h.skip (by decide : StreamFrameKind.Pong ≠ .Control) payload
      simp only [on_frame]
      split <;> exact hskip
  | Close => exact (h.skip (by decide : StreamFrameKind.Close ≠ .Control) payload).stop

/-- A ping with a clock in it is answered through the queue; nothing else is sent. -/
theorem on_frame_outgoing (h : e.outgoing.Sound) :
    ((e.with_read now frame).on_frame now frame).outgoing.Sound := by
  obtain ⟨kind, payload⟩ := frame
  cases kind with
  | Control =>
      simp only [on_frame]
      split <;> exact h
  | Datagram =>
      simp only [on_frame]
      split
      · exact h
      split <;> exact h
  | Ping =>
      simp only [on_frame]
      split
      · next hlen =>
          have hpong : payload.length = 8 := of_decide_eq_true (Bool.and_eq_true_iff.1 hlen).1
          split
          · exact h.queue (fun _ => Outbound.noConfusion)
              fun p hp => (Outbound.Pong.inj hp) ▸ hpong
          · exact h
      · exact h
  | Pong =>
      simp only [on_frame]
      split <;> exact h
  | Close => exact h

/-- Whatever is in the frame, the stream is not touched. -/
theorem on_frame_stream (e : TcpEnd) (now : Nat) (frame : StreamFrameKind × Bytes) :
    (e.on_frame now frame).wire = e.wire ∧ (e.on_frame now frame).writes = e.writes ∧
      (e.on_frame now frame).log.written = e.log.written ∧
      (e.on_frame now frame).log.read = e.log.read ∧
      (e.on_frame now frame).decoder = e.decoder := by
  obtain ⟨kind, payload⟩ := frame
  cases kind <;> simp only [on_frame] <;> repeat' split
  all_goals exact ⟨rfl, rfl, rfl, rfl, rfl⟩

/-! ## 4. Answers to keep-alives -/

/-- Every answer is to a keep-alive that was read. -/
def Echoes (e : TcpEnd) : Prop :=
  ∀ payload, .Pong payload ∈ e.control_out ∨ (.Pong, payload) ∈ e.log.written →
    (.Ping, payload) ∈ e.log.read

theorem on_frame_echoes (h : e.Echoes) : ((e.with_read now frame).on_frame now frame).Echoes := by
  have hkeep : (e.with_read now frame).Echoes :=
    fun payload hpong => List.mem_append_left _ (h payload hpong)
  obtain ⟨kind, payload⟩ := frame
  cases kind with
  | Ping =>
      simp only [on_frame]
      split
      · split
        · intro p hpong
          obtain hmem | hmem := hpong
          · obtain hmem | hmem := List.mem_append.1 hmem
            · exact hkeep p (.inl hmem)
            · obtain rfl := Outbound.Pong.inj (List.mem_singleton.1 hmem)
              exact List.mem_append_right _ (List.mem_singleton_self _)
          · exact hkeep p (.inr hmem)
        · exact hkeep
      · exact hkeep
  | Control =>
      simp only [on_frame]
      split <;> exact hkeep
  | Datagram =>
      simp only [on_frame]
      split
      · exact hkeep
      split <;> exact hkeep
  | Pong =>
      simp only [on_frame]
      split <;> exact hkeep
  | Close => exact hkeep

theorem Writes.echoes {fails : Option Nat} {e' : TcpEnd} (h : e.Writes now fails e')
    (hs : e.Echoes) : e'.Echoes := by
  -- what a turn picks it takes from the queue
  have hpicked : ∀ {e₁ frame}, e.Picks now e₁ frame → ∀ payload,
      (.Pong payload ∈ e₁.control_out ∨ (.Pong, payload) ∈ e₁.log.written ++ [frame]) →
        (.Ping, payload) ∈ e₁.log.read := by
    intro e₁ frame hpick payload hpong
    cases hpick with
    | control hq =>
        refine hs payload (hpong.imp (fun hmem => hq ▸ List.mem_cons_of_mem _ hmem) fun hmem => ?_)
        simpa using hmem
    | pong hq =>
        refine hs payload ?_
        obtain hmem | hmem := hpong
        · exact .inl (hq ▸ List.mem_cons_of_mem _ hmem)
        · obtain hmem | hmem := List.mem_append.1 hmem
          · exact .inr hmem
          · obtain ⟨-, rfl⟩ := Prod.mk.inj (List.mem_singleton.1 hmem)
            exact .inl (hq.symm ▸ List.mem_cons_self)
    | close hq =>
        refine hs payload (hpong.imp (fun hmem => hq ▸ List.mem_cons_of_mem _ hmem) fun hmem => ?_)
        simpa using hmem
    | datagram hq hfresh => exact hs payload (hpong.imp id fun hmem => by simpa using hmem)
    | ping => exact hs payload (hpong.imp id fun hmem => by simpa using hmem)
  cases h with
  | stop => exact fun payload hpong => hs payload (hpong.imp (absurd · List.not_mem_nil) id)
  | stale hq => exact hs
  | wrote hpick => exact hpicked hpick
  | closed hpick =>
      exact fun payload hpong => hpicked hpick payload (hpong.imp (absurd · List.not_mem_nil) id)
  | broke hpick =>
      exact fun payload hpong => hpicked hpick payload
        (hpong.imp (absurd · List.not_mem_nil) (List.mem_append_left _))

/-! ## 5. Round trips -/

/-- Every answer to a keep-alive that was read gave one round trip, in this order: the time from
when the end wrote that keep-alive to when it read the answer. The answer is known by the time it
carries, which is when the keep-alive was written. The mean is no better and no worse than all round
trips, as long as these stay below 73000 years. -/
structure Measured (e : TcpEnd) : Prop where
  answers : e.log.pongs.map Prod.snd = payloads .Pong e.log.read
  samples : List.Forall₂ (fun pong sample => ∃ sent ∈ e.log.pings,
    pong.2 = put_u64 (now_us sent) ∧ sent ≤ pong.1 ∧
      sample.toNat = pong.1 / 1000 - sent / 1000) e.log.pongs e.log.samples
  mean : ∀ lo hi, hi < 2 ^ 61 → e.log.samples ≠ [] →
    (∀ x ∈ e.log.samples, lo ≤ x.toNat ∧ x.toNat ≤ hi) →
      lo ≤ e.stats.rtt_us.toNat ∧ e.stats.rtt_us.toNat ≤ hi
  unmeasured : e.log.samples = [] → e.stats.rtt_us = 0

theorem saturating_sub_toNat (a b : UInt64) : (saturating_sub a b).toNat = a.toNat - b.toNat := by
  unfold saturating_sub
  split
  · next hlt =>
      have := UInt64.lt_iff_toNat_lt.1 hlt
      rw [UInt64.toNat_zero]
      omega
  · next hle => exact UInt64.toNat_sub_of_le _ _ (UInt64.not_lt.1 hle)

theorem smoothed_between {old sample : UInt64} {lo hi : Nat} (hhi : hi < 2 ^ 61)
    (hsample : lo ≤ sample.toNat ∧ sample.toNat ≤ hi)
    (hold : old ≠ 0 → lo ≤ old.toNat ∧ old.toNat ≤ hi) :
    lo ≤ (smoothed old sample).toNat ∧ (smoothed old sample).toNat ≤ hi := by
  unfold smoothed
  split
  · exact hsample
  · next hne =>
      have hbounds := hold hne
      -- the sum does not wrap
      have hsum : ((old * 7 + sample) / 8).toNat = (old.toNat * 7 + sample.toNat) / 8 := by
        rw [UInt64.toNat_div, UInt64.toNat_add, UInt64.toNat_mul]
        have h7 : (7 : UInt64).toNat = 7 := rfl
        have h8 : (8 : UInt64).toNat = 8 := rfl
        rw [h7, h8]
        omega
      rw [hsum]
      omega

theorem Measured.sample (h : e.Measured) {sent : Nat} (hping : sent ∈ e.log.pings)
    (hpast : sent ≤ now) {x : UInt64} (hx : x.toNat = now / 1000 - sent / 1000) :
    Measured
      { e.with_read now (.Pong, put_u64 (now_us sent)) with
        stats := { e.stats with rtt_us := smoothed e.stats.rtt_us x }
        log :=
          { e.log.with_frame now (.Pong, put_u64 (now_us sent)) with
            samples := e.log.samples ++ [x] } } where
  answers := by
    simp only [TcpLog.with_frame, if_true, List.map_append, List.map_singleton, payloads_append,
      payloads_same, h.answers]
  samples := by
    simp only [TcpLog.with_frame, if_true]
    exact List.rel_append h.samples (.cons ⟨sent, hping, rfl, hpast, hx⟩ .nil)
  mean lo hi hhi _ hall := by
    have hnew := hall x (List.mem_append_right _ (List.mem_singleton_self _))
    refine smoothed_between hhi hnew fun hne => h.mean lo hi hhi (fun hnil => ?_) fun y hy =>
      hall y (List.mem_append_left _ hy)
    exact hne (h.unmeasured hnil)
  unmeasured hnil := absurd hnil (by simp)

/-- A frame that is no answer. -/
theorem Measured.skip (h : e.Measured) {kind : StreamFrameKind} (hkind : kind ≠ .Pong)
    (payload : Bytes) : (e.with_read now (kind, payload)).Measured where
  answers := by
    simp only [with_read, TcpLog.with_frame, if_neg hkind, payloads_append, payloads_other hkind,
      List.append_nil, h.answers]
  samples := by
    simp only [with_read, TcpLog.with_frame, if_neg hkind]
    exact h.samples
  mean := h.mean
  unmeasured := h.unmeasured

end TcpEnd
end SoundPush
