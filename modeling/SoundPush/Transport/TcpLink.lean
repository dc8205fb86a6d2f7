/-
`TcpLink` -- what a TLS-over-TCP connection guarantees its two ends, in every order
of turns of its four tasks.

Both ends keep `TcpEnd.Sound`, and the stream in each direction carries what was
written (`LinkSound`). From it: control messages arrive in order, each once, and
none is skipped; datagrams may be lost on the way but are neither reordered nor
repeated, and a socket that is backed up loses audio instead of delaying it; the
stream is never corrupt; and a round trip is the time between the writing of one
keep-alive and the reading of its answer, by the end's own clock.

## How it is put together

`LinkSound own other` is symmetric (`swap`), so each act is looked at once, from the
end that acts. Most acts leave the stream between the two alone, and for these
`LinkSound.change` asks for nothing but the acting end. Two do not: a turn of the
writer (`LinkSound.write`), which puts a frame or the beginning of one behind the
stream, and a turn of the reader (`LinkSound.frame_turn`), which takes the next frame
off it. That the reader meets exactly the frames written, however the bytes are cut, is
what the framing gives (`Carries`), and it is used in these two places only.
-/
import SoundPush.Transport.TcpReader

set_option autoImplicit false

namespace SoundPush

/-! ## 1. Both ends and the stream -/

/-- What one end keeps by itself: its sending part, its receiving part, that a pong answers a
keep-alive that came, and what it has measured. -/
structure TcpEnd.Sound (e : TcpEnd) : Prop where
  outgoing : e.outgoing.Sound
  incoming : e.incoming.Sound
  echoes : e.Echoes
  measured : e.Measured

/-- What two ends keep between them, as the one that acts sees it: both are sound, and in each
direction the stream carries what was written. -/
structure LinkSound (own other : TcpEnd) : Prop where
  near : own.Sound
  far : other.Sound
  there : Carries own other
  back : Carries other own

/-- The same, as the other end sees it. -/
theorem LinkSound.swap {own other : TcpEnd} (h : LinkSound own other) : LinkSound other own :=
  ⟨h.far, h.near, h.back, h.there⟩

/-- A new end: nothing is queued, written, read or measured. -/
theorem TcpEnd.start_sound : TcpEnd.start.Sound where
  outgoing :=
    { fits_control := fun _ hmem => absurd hmem List.not_mem_nil
      fits_pong := fun _ hmem => absurd hmem List.not_mem_nil
      fits_datagram := fun _ hmem => absurd hmem List.not_mem_nil
      control := ⟨[], rfl, fun _ => rfl⟩
      datagrams := List.Sublist.refl []
      counted := ⟨Nat.le_refl 0, fun _ => rfl⟩
      sent := ⟨Nat.le_refl 0, fun _ => rfl⟩
      delays := ⟨rfl, fun _ hmem => absurd hmem List.not_mem_nil⟩
      pings := fun _ hmem => absurd hmem List.not_mem_nil
      past := fun _ hmem => absurd hmem List.not_mem_nil }
  incoming := ⟨⟨[], rfl, fun _ _ => rfl⟩, List.Sublist.refl []⟩
  echoes := fun _ hpong => (hpong.elim (absurd · List.not_mem_nil) (absurd · List.not_mem_nil))
  measured :=
    ⟨rfl, .nil, fun _ _ _ hne => absurd rfl hne, fun _ => rfl⟩

theorem LinkSound.start : LinkSound .start .start :=
  ⟨TcpEnd.start_sound, TcpEnd.start_sound, .empty, .empty⟩

/-! ## 2. One act -/

section Act

variable {own other : TcpEnd} {now : Nat}

/-- The end looks at its clock. -/
def TcpEnd.at_time (e : TcpEnd) (now : Nat) : TcpEnd :=
  { e with log := { e.log with clock := now } }

/-- The clock is read before an act, and goes forward. -/
theorem TcpEnd.Sound.at_time {e : TcpEnd} (h : e.Sound) (hnow : e.log.clock ≤ now) :
    (e.at_time now).Sound where
  outgoing := h.outgoing.later hnow
  incoming := h.incoming
  echoes := h.echoes
  measured := ⟨h.measured.1, h.measured.2, h.measured.3, h.measured.4⟩

/-- An act that leaves the stream and the decoder alone. -/
theorem LinkSound.change (h : LinkSound own other) {own' : TcpEnd} (hown : own'.Sound)
    (hstream : own'.log.written = own.log.written ∧ own'.writes = own.writes ∧
      own'.wire = own.wire ∧ own'.log.read = own.log.read ∧ own'.decoder = own.decoder) :
    LinkSound own' other := by
  obtain ⟨hwritten, hwrites, hwire, hread, hdecoder⟩ := hstream
  refine ⟨hown, h.far, ?_, ?_⟩
  · have hthere := h.there
    unfold Carries at hthere ⊢
    rwa [hwritten, hwrites, hwire]
  · have hback := h.back
    unfold Carries at hback ⊢
    rwa [hread, hdecoder]

/-- Reading the clock leaves the stream alone. -/
theorem LinkSound.at_time (h : LinkSound own other) (hnow : own.log.clock ≤ now) :
    LinkSound (own.at_time now) other :=
  h.change (h.near.at_time hnow) ⟨rfl, rfl, rfl, rfl, rfl⟩

/-- The session takes the control channel, once. It touches no frame. -/
theorem LinkSound.take_control (h : LinkSound own other) : LinkSound own.take_control other := by
  unfold TcpEnd.take_control
  split
  · exact h
  · exact h.change ⟨h.near.outgoing, h.near.incoming, h.near.echoes,
      ⟨h.near.measured.1, h.near.measured.2, h.near.measured.3, h.near.measured.4⟩⟩
        ⟨rfl, rfl, rfl, rfl, rfl⟩

/-- The session hands a control message over. It is taken only when it fits in a frame and the
writer runs; otherwise nothing changes, and the session is told so. -/
theorem LinkSound.send_control (h : LinkSound own other) (bytes : Bytes) :
    LinkSound (own.send_control bytes) other := by
  unfold TcpEnd.send_control TcpEnd.accepts_control
  split
  · exact h
  · next haccepts =>
      split at haccepts
      · cases haccepts
      next hfits =>
        split at haccepts
        · cases haccepts
        next hwrites =>
          have hopen : own.writes = true := by simpa using hwrites
          refine h.change ⟨h.near.outgoing.send_control (Nat.not_lt.1 hfits) hopen, h.near.incoming,
            fun payload hpong => h.near.echoes payload (hpong.imp (fun hmem => ?_) id),
            ⟨h.near.measured.1, h.near.measured.2, h.near.measured.3, h.near.measured.4⟩⟩
              ⟨rfl, rfl, rfl, rfl, rfl⟩
          obtain hmem | hmem := List.mem_append.1 hmem
          · exact hmem
          · cases List.mem_singleton.1 hmem

/-- The session hands a datagram over: it is queued or, with the queue full, counted as lost.
One that is too large for a frame, or comes after the writer has ended, is not taken at all. -/
theorem LinkSound.send_datagram (h : LinkSound own other) (data : Bytes) :
    LinkSound (own.send_datagram now data) other := by
  have hmeasured := h.near.measured
  unfold TcpEnd.send_datagram
  split
  · exact h
  next hfits =>
    split
    · exact h
    split
    · exact h.change ⟨h.near.outgoing.send_datagram now (Nat.not_lt.1 hfits), h.near.incoming,
        h.near.echoes, ⟨hmeasured.1, hmeasured.2, hmeasured.3, hmeasured.4⟩⟩
          ⟨rfl, rfl, rfl, rfl, rfl⟩
    · exact h.change ⟨h.near.outgoing.drop_newest data, h.near.incoming,
        h.near.echoes, ⟨hmeasured.1, hmeasured.2, hmeasured.3, hmeasured.4⟩⟩
          ⟨rfl, rfl, rfl, rfl, rfl⟩

/-- The session closes the connection: the close waits its turn behind the control messages, or,
with that queue full, the connection is closed at once. -/
theorem LinkSound.close (h : LinkSound own other) (code : UInt32) :
    LinkSound (own.close code) other := by
  have hmeasured := h.near.measured
  unfold TcpEnd.close
  split
  · refine h.change ⟨h.near.outgoing.queue (fun _ => Outbound.noConfusion)
        fun _ => Outbound.noConfusion, h.near.incoming,
      fun payload hpong => h.near.echoes payload (hpong.imp (fun hmem => ?_) id),
      ⟨hmeasured.1, hmeasured.2, hmeasured.3, hmeasured.4⟩⟩ ⟨rfl, rfl, rfl, rfl, rfl⟩
    obtain hmem | hmem := List.mem_append.1 hmem
    · exact hmem
    · cases List.mem_singleton.1 hmem
  · exact h.change ⟨h.near.outgoing, h.near.incoming, h.near.echoes,
      ⟨hmeasured.1, hmeasured.2, hmeasured.3, hmeasured.4⟩⟩ ⟨rfl, rfl, rfl, rfl, rfl⟩

/-- What the session takes, and what goes with whoever held it. -/
theorem LinkSound.receive (h : LinkSound own other) {own' : TcpEnd} (hin : own'.incoming.Sound)
    (hout : own'.outgoing = own.outgoing) (hstats : own'.stats = own.stats)
    (hsamples : own'.log.samples = own.log.samples)
    (hpongs : own'.log.pongs = own.log.pongs)
    (hstream : own'.wire = own.wire ∧ own'.log.read = own.log.read ∧
      own'.decoder = own.decoder) : LinkSound own' other := by
  obtain ⟨hwire, hread, hdecoder⟩ := hstream
  have hcontrol : own'.control_out = own.control_out := congrArg Outgoing.control_out hout
  have hwritten : own'.log.written = own.log.written := congrArg Outgoing.written hout
  have hpings : own'.log.pings = own.log.pings := congrArg Outgoing.pings hout
  refine h.change ⟨hout ▸ h.near.outgoing, hin, fun payload hpong => ?_, ?_⟩
    ⟨hwritten, congrArg Outgoing.writes hout, hwire, hread, hdecoder⟩
  · rw [hread]
    rw [hcontrol, hwritten] at hpong
    exact h.near.echoes payload hpong
  · have hmeasured := h.near.measured
    refine ⟨?_, ?_, ?_, ?_⟩
    · rw [hpongs, hread]
      exact hmeasured.answers
    · rw [hsamples, hpings, hpongs]
      exact hmeasured.samples
    · rw [hsamples, hstats]
      exact hmeasured.mean
    · rw [hsamples, hstats]
      exact hmeasured.unmeasured

/-- The last user of the connection lets go of it. The datagrams not yet taken go with it, and
so do the control messages of a channel that nobody took. -/
theorem LinkSound.drop_connection (h : LinkSound own other) :
    LinkSound own.drop_connection other := by
  refine h.receive ?_ rfl rfl rfl rfl ⟨rfl, rfl, rfl⟩
  have hmedia := h.near.incoming.drop_datagrams
  cases htaken : own.taken with
  | true =>
      have hsame : own.drop_connection.incoming =
          { own.incoming with datagram_in := [] } := by
        unfold TcpEnd.drop_connection TcpEnd.incoming
        simp [htaken]
      rw [hsame]
      exact hmedia
  | false =>
      have hsame : own.drop_connection.incoming =
          { own.incoming with datagram_in := [], receiver := false, control_in := [] } := by
        unfold TcpEnd.drop_connection TcpEnd.incoming
        simp [htaken]
      rw [hsame]
      exact hmedia.drop_receiver

/-- The reader ends. What is still in the stream stays there. -/
theorem LinkSound.stop_reading (h : LinkSound own other) : LinkSound own.stop_reading other :=
  h.receive h.near.incoming.stop rfl rfl rfl rfl ⟨rfl, rfl, rfl⟩

/-- Bytes arrive at an end. -/
theorem LinkSound.read (h : LinkSound own other) (n : Nat) :
    LinkSound
      { own with decoder := own.decoder.extend (other.wire.take n), draining := true }
      { other with wire := other.wire.drop n } where
  near :=
    ⟨h.near.outgoing, h.near.incoming, h.near.echoes,
      ⟨h.near.measured.1, h.near.measured.2, h.near.measured.3, h.near.measured.4⟩⟩
  far :=
    ⟨h.far.outgoing, h.far.incoming, h.far.echoes,
      ⟨h.far.measured.1, h.far.measured.2, h.far.measured.3, h.far.measured.4⟩⟩
  there := h.there
  back := h.back.moved n

/-- A write measures nothing: a keep-alive that is written only adds to those that may be
answered. -/
theorem TcpEnd.Writes.measured {e e' : TcpEnd} {fails : Option Nat} (h : e.Writes now fails e')
    (hm : e.Measured) : e'.Measured := by
  -- at most a keep-alive is added
  have hpicked : ∀ {e₁ frame}, e.Picks now e₁ frame → e₁.Measured := by
    intro e₁ frame hpick
    cases hpick with
    | ping =>
        refine ⟨hm.1, hm.samples.imp fun pong sample hsample => ?_, hm.3, hm.4⟩
        obtain ⟨sent, hsent, hrest⟩ := hsample
        exact ⟨sent, List.mem_append_left _ hsent, hrest⟩
    | control hq => exact ⟨hm.1, hm.2, hm.3, hm.4⟩
    | pong hq => exact ⟨hm.1, hm.2, hm.3, hm.4⟩
    | close hq => exact ⟨hm.1, hm.2, hm.3, hm.4⟩
    | datagram hq hfresh => exact ⟨hm.1, hm.2, hm.3, hm.4⟩
  cases h with
  | stop => exact ⟨hm.1, hm.2, hm.3, hm.4⟩
  | stale hq => exact ⟨hm.1, hm.2, hm.3, hm.4⟩
  | wrote hpick =>
      have hm := hpicked hpick
      exact ⟨hm.1, hm.2, hm.3, hm.4⟩
  | closed hpick =>
      have hm := hpicked hpick
      exact ⟨hm.1, hm.2, hm.3, hm.4⟩
  | broke hpick =>
      have hm := hpicked hpick
      exact ⟨hm.1, hm.2, hm.3, hm.4⟩

/-- Picking a frame leaves the receiving part alone. -/
theorem TcpEnd.Picks.incoming {e e₁ : TcpEnd} {frame : StreamFrameKind × Bytes}
    (h : e.Picks now e₁ frame) : e₁.incoming = e.incoming := by
  cases h <;> rfl

/-- A turn of the writer puts a frame, or the beginning of one, behind what is in the stream. -/
theorem LinkSound.write (h : LinkSound own other) {own' : TcpEnd} {fails : Option Nat}
    (hw : own.Writes now fails own') (hwrites : own.writes = true) (hnow : now ≤ own.log.clock)
    (hclock : now / 1000 < 2 ^ 64) : LinkSound own' other := by
  have hout := hw.sound h.near.outgoing hnow hclock
  have hechoes := hw.echoes h.near.echoes
  have hmeasured := hw.measured h.near.measured
  have hthere := h.there
  have hback := h.back
  unfold Carries at hthere hback
  rw [hwrites] at hthere
  cases hw with
  | stop => exact ⟨⟨hout, h.near.incoming, hechoes, hmeasured⟩, h.far, hthere.stop, hback⟩
  | stale hq =>
      refine ⟨⟨hout, h.near.incoming, hechoes, hmeasured⟩, h.far, ?_, hback⟩
      unfold Carries
      dsimp only
      rw [hwrites]
      exact hthere
  | wrote hpick hfits =>
      have hin := hpick.incoming
      obtain ⟨hwire, hkept, hdecoder, hread, hwritten⟩ := hpick.untouched
      refine ⟨⟨hout, ?_, hechoes, hmeasured⟩, h.far, ?_, ?_⟩
      · exact hin ▸ h.near.incoming
      · unfold Carries
        dsimp only
        rw [hwire, hwritten, hkept, hwrites]
        exact hthere.wrote hfits
      · unfold Carries
        dsimp only
        rw [hread, hdecoder]
        exact hback
  -- The goodbye is written whole, and the write side stops after it.
  | closed hpick hfits =>
      have hin := hpick.incoming
      obtain ⟨hwire, -, hdecoder, hread, hwritten⟩ := hpick.untouched
      refine ⟨⟨hout, ?_, hechoes, hmeasured⟩, h.far, ?_, ?_⟩
      · exact hin ▸ h.near.incoming
      · unfold Carries TcpEnd.stop_writing
        dsimp only
        rw [hwire, hwritten]
        exact (hthere.wrote hfits).stop
      · unfold Carries TcpEnd.stop_writing
        dsimp only
        rw [hread, hdecoder]
        exact hback
  -- A failing write leaves the beginning of the frame in the stream, and stops the side as well.
  | broke hpick hfits hk =>
      have hin := hpick.incoming
      obtain ⟨hwire, -, hdecoder, hread, hwritten⟩ := hpick.untouched
      refine ⟨⟨hout, ?_, hechoes, hmeasured⟩, h.far, ?_, ?_⟩
      · exact hin ▸ h.near.incoming
      · unfold Carries TcpEnd.stop_writing
        dsimp only
        rw [hwire, hwritten]
        exact hthere.broke hfits hk
      · unfold Carries TcpEnd.stop_writing
        dsimp only
        rw [hread, hdecoder]
        exact hback

/-- Who answers a keep-alive answers one of this end's. -/
theorem LinkSound.ping_of_pong (h : LinkSound own other) {payload : Bytes}
    (hpong : (.Pong, payload) ∈ other.log.written) :
    ∃ sent ∈ own.log.pings, payload = put_u64 (now_us sent) := by
  have hread := h.far.echoes payload (.inr hpong)
  obtain ⟨unread, cut, hwritten, -⟩ := h.there.stream
  refine h.near.outgoing.pings payload ?_
  show _ ∈ own.log.written
  rw [hwritten]
  exact List.mem_append_left _ hread

/-- A frame is read. Only a pong is measured; it answers a keep-alive written here, and the time
between the two is the next sample. -/
theorem TcpEnd.Measured.on_frame {e : TcpEnd} (h : e.Measured) {frame : StreamFrameKind × Bytes}
    (hnow : e.log.clock = now) (hclock : now / 1000 < 2 ^ 64)
    (hpast : ∀ sent ∈ e.log.pings, sent ≤ e.log.clock ∧ sent / 1000 < 2 ^ 64)
    (hpong : ∀ payload, frame = (.Pong, payload) →
      ∃ sent ∈ e.log.pings, payload = put_u64 (now_us sent)) :
    ((e.with_read now frame).on_frame now frame).Measured := by
  obtain ⟨kind, payload⟩ := frame
  cases kind with
  | Pong =>
      obtain ⟨sent, hsent, rfl⟩ := hpong payload rfl
      have hbounds := hpast sent hsent
      simp only [TcpEnd.on_frame]
      rw [if_pos (put_u64_length _)]
      refine h.sample hsent (hnow ▸ hbounds.1) ?_
      -- both clocks are this end's own
      have hread := get_u64_put_u64 (now_us sent) []
      rw [List.append_nil] at hread
      rw [hread, TcpEnd.saturating_sub_toNat, now_us, now_us, UInt64.toNat_ofNat',
        UInt64.toNat_ofNat', Nat.mod_eq_of_lt hclock, Nat.mod_eq_of_lt hbounds.2]
  | Control =>
      have hkeep : (e.with_read now (.Control, payload)).Measured := h.skip (by decide) payload
      simp only [TcpEnd.on_frame]
      split <;> exact ⟨hkeep.1, hkeep.2, hkeep.3, hkeep.4⟩
  | Datagram =>
      have hkeep : (e.with_read now (.Datagram, payload)).Measured := h.skip (by decide) payload
      simp only [TcpEnd.on_frame]
      split
      · exact ⟨hkeep.1, hkeep.2, hkeep.3, hkeep.4⟩
      split <;> exact ⟨hkeep.1, hkeep.2, hkeep.3, hkeep.4⟩
  | Ping =>
      have hkeep : (e.with_read now (.Ping, payload)).Measured := h.skip (by decide) payload
      simp only [TcpEnd.on_frame]
      split
      · split <;> exact ⟨hkeep.1, hkeep.2, hkeep.3, hkeep.4⟩
      · exact ⟨hkeep.1, hkeep.2, hkeep.3, hkeep.4⟩
  | Close =>
      have hkeep : (e.with_read now (.Close, payload)).Measured := h.skip (by decide) payload
      exact ⟨hkeep.1, hkeep.2, hkeep.3, hkeep.4⟩

/-- The reader looks at what it has: it is the next frame that was written, or the beginning of
one. -/
theorem LinkSound.frame_turn (h : LinkSound own other) (hreads : own.reads = true)
    (hnow : own.log.clock = now) (hclock : now / 1000 < 2 ^ 64) :
    LinkSound (own.frame_turn now) other := by
  unfold TcpEnd.frame_turn
  obtain hnone | ⟨frame, decoder, hnext, hwritten, hback⟩ := h.back.next_frame
  · rw [hnone]
    exact h.receive h.near.incoming rfl rfl rfl rfl ⟨rfl, rfl, rfl⟩
  · rw [hnext]
    -- the frame is in the log before it is acted upon
    have hpong : ∀ payload, frame = (.Pong, payload) →
        ∃ sent ∈ own.log.pings, payload = put_u64 (now_us sent) :=
      fun payload hframe => h.ping_of_pong (hframe ▸ hwritten)
    have hmeasured : TcpEnd.Measured { own with decoder } :=
      ⟨h.near.measured.1, h.near.measured.2, h.near.measured.3, h.near.measured.4⟩
    generalize hstart : ({ own with decoder } : TcpEnd) = e at hmeasured
    have hlog : e.log = own.log := by rw [← hstart]
    have hout : e.outgoing.Sound := by
      rw [← hstart]
      exact h.near.outgoing
    have hin : e.incoming.Sound := by
      rw [← hstart]
      exact h.near.incoming
    have hechoes : e.Echoes := by
      rw [← hstart]
      exact h.near.echoes
    have hread : e.reads = true := by rw [← hstart]; exact hreads
    have hsame : ({ own with decoder, log := own.log.with_frame now frame } : TcpEnd) =
        e.with_read now frame := by rw [← hstart]; rfl
    dsimp only
    rw [hsame]
    obtain ⟨hwire, hwrites, hlogged, hreads', hdecoder⟩ :=
      TcpEnd.on_frame_stream (e.with_read now frame) now frame
    refine ⟨⟨TcpEnd.on_frame_outgoing hout, TcpEnd.on_frame_incoming hin hread,
      TcpEnd.on_frame_echoes hechoes, hmeasured.on_frame (hlog ▸ hnow) hclock
        (hlog ▸ h.near.outgoing.past) (hlog ▸ hpong)⟩, h.far, ?_, ?_⟩
    · unfold Carries
      rw [hwire, hwrites, hlogged, ← hstart]
      exact h.there
    · unfold Carries
      rw [hreads', hdecoder, ← hstart]
      exact hback

/-- An act that has a time of its own does not go back behind the clock, and its time fits the
payload of a keep-alive. -/
theorem TcpAct.on_time_some {act : TcpAct} (h : act.on_time own = true)
    (htime : act.time = some now) :
    own.log.clock ≤ now ∧ now / 1000 < 2 ^ 64 := by
  unfold TcpAct.on_time at h
  rw [htime] at h
  simpa using h

/-- Whatever one end does, in whatever order, both stay sound. The step lemma of this file. -/
theorem TcpAct.sound (h : LinkSound own other) {act : TcpAct} (hcan : act.can own other = true) :
    LinkSound (act.apply own other).1 (act.apply own other).2 := by
  obtain ⟨htime, hcan⟩ := Bool.and_eq_true_iff.1 hcan
  cases act with
  | TakeControl => exact h.take_control
  | SendControl bytes => exact h.send_control bytes
  | SendDatagram now data => exact (h.at_time (on_time_some htime rfl).1).send_datagram data
  | Close code => exact h.close code
  | RecvControl => exact h.receive h.near.incoming.recv_control rfl rfl rfl rfl ⟨rfl, rfl, rfl⟩
  | ReadDatagram => exact h.receive h.near.incoming.read_datagram rfl rfl rfl rfl ⟨rfl, rfl, rfl⟩
  | DropConnection => exact h.drop_connection
  | DropSender => exact h.receive h.near.incoming rfl rfl rfl rfl ⟨rfl, rfl, rfl⟩
  | DropReceiver => exact h.receive h.near.incoming.drop_receiver rfl rfl rfl rfl ⟨rfl, rfl, rfl⟩
  | Write now fails =>
      obtain ⟨hnow, hclock⟩ := on_time_some htime rfl
      have hlater := h.at_time hnow
      exact hlater.write (TcpEnd.write_cases hlater.near.outgoing (Nat.le_refl now) hclock fails)
        hcan (Nat.le_refl now) hclock
  | Read n => exact h.read n
  | Frame now =>
      obtain ⟨hnow, hclock⟩ := on_time_some htime rfl
      obtain ⟨hruns, -⟩ := Bool.and_eq_true_iff.1 hcan
      exact (h.at_time hnow).frame_turn (Bool.and_eq_true_iff.1 hruns).1 rfl hclock
  | EndRead => exact h.stop_reading

end Act

/-- Every reachable connection is sound, by induction on the run that reaches it. -/
theorem tcp_sound {l : TcpLink} (h : tcp.Reachable l) : LinkSound l.dialer l.listener := by
  refine Machine.Reachable.invariant (P := fun l => LinkSound l.dialer l.listener)
    (fun l hl => ?_) (fun l event hs hcan => ?_) h
  · obtain rfl := hl
    exact .start
  · cases event with
    | Dialer act => exact act.sound hs hcan
    | Listener act => exact (act.sound hs.swap hcan).swap

/-! ## 3. What a connection guarantees -/

/-- The control channel from `src` to `dst`. -/
structure Delivers (src dst : TcpEnd) : Prop where
  /-- what the session was given is the beginning of what the other one sent -/
  in_order : dst.log.got_control <+: src.log.sent_control
  /-- while both tasks run, what it has not been given is somewhere between -/
  accounted : src.writes = true → dst.reads = true → dst.receiver = true →
    ∃ unread, dst.decoder.buf ++ src.wire = (unread.map stream_frame_bytes).flatten ∧
      src.log.sent_control = dst.log.got_control ++ dst.control_in ++
        payloads .Control unread ++ queued_control src.control_out
  /-- the stream is never taken for a corrupt one -/
  intact : ∀ e, dst.decoder.next_frame.1 ≠ .error e

/-- The datagrams from `src` to `dst`. -/
structure Streams (src dst : TcpEnd) : Prop where
  in_order : dst.log.got_datagrams.Sublist src.log.sent_datagrams
  /-- none is written that has waited too long -/
  fresh : src.log.delays.length = src.stats.sent ∧ ∀ d ∈ src.log.delays, d ≤ STALE_AFTER
  /-- each is sent, lost, still queued, or gone with the queue when the writer ended -/
  counted :
    src.stats.sent + src.stats.lost + src.datagram_out.length ≤ src.log.sent_datagrams.length ∧
      (src.writes = true →
        src.stats.sent + src.stats.lost + src.datagram_out.length = src.log.sent_datagrams.length)
  /-- one that is counted as sent is written, or was being written when the writer ended -/
  written : (payloads .Datagram src.log.written).length ≤ src.stats.sent ∧
    (src.writes = true → (payloads .Datagram src.log.written).length = src.stats.sent)

theorem LinkSound.delivers {own other : TcpEnd} (h : LinkSound own other) :
    Delivers own other where
  in_order := by
    obtain ⟨lost, hgot, -⟩ := h.far.incoming.control
    obtain ⟨gone, hsent, -⟩ := h.near.outgoing.control
    obtain ⟨unread, cut, hwritten, -⟩ := h.there.stream
    -- Three prefixes: what was delivered of what was read, that of what was written, and that of
    -- what was handed over.
    have hread : other.log.got_control <+: payloads .Control other.log.read :=
      ⟨other.control_in ++ lost, (List.append_assoc _ _ _).symm.trans hgot⟩
    have hstream : payloads .Control other.log.read <+: payloads .Control own.log.written :=
      ⟨payloads .Control unread, by rw [hwritten, payloads_append]⟩
    have hqueue : payloads .Control own.log.written <+: own.log.sent_control :=
      ⟨queued_control own.control_out ++ gone, (List.append_assoc _ _ _).symm.trans hsent⟩
    exact hread.trans (hstream.trans hqueue)
  accounted hwrites hreads hreceiver := by
    obtain ⟨lost, hgot, hnolost⟩ := h.far.incoming.control
    obtain ⟨gone, hsent, hnogone⟩ := h.near.outgoing.control
    obtain ⟨unread, cut, hwritten, hbytes, -, hcut⟩ := h.there.stream
    rw [hnolost hreads hreceiver, List.append_nil] at hgot
    rw [hnogone hwrites, List.append_nil] at hsent
    rw [hcut hwrites, List.append_nil] at hbytes
    refine ⟨unread, hbytes, ?_⟩
    change own.log.written = _ at hwritten
    change payloads .Control own.log.written ++ queued_control own.control_out =
      own.log.sent_control at hsent
    rw [← hsent, hwritten, payloads_append]
    exact congrArg (· ++ payloads .Control unread ++ queued_control own.control_out) hgot.symm
  intact e he := by
    obtain hnone | ⟨frame, decoder, hnext, -⟩ := h.there.next_frame
    · rw [hnone] at he
      cases he
    · rw [hnext] at he
      cases he

theorem LinkSound.streams {own other : TcpEnd} (h : LinkSound own other) : Streams own other where
  in_order := by
    obtain ⟨unread, cut, hwritten, -⟩ := h.there.stream
    have hread := (List.sublist_append_left _ _).trans h.far.incoming.datagrams
    have hqueue := (List.sublist_append_left _ _).trans h.near.outgoing.datagrams
    change own.log.written = _ at hwritten
    change (payloads .Datagram own.log.written).Sublist _ at hqueue
    rw [hwritten, payloads_append] at hqueue
    exact hread.trans ((List.sublist_append_left _ _).trans hqueue)
  fresh := h.near.outgoing.delays
  counted := h.near.outgoing.counted
  written := h.near.outgoing.sent

/-- Control messages arrive in the order they were sent, each once, and while the two tasks run
none is skipped; the reader never sees a corrupt stream, wherever a write may have failed. -/
theorem tcp_control_delivered {l : TcpLink} (h : tcp.Reachable l) :
    Delivers l.dialer l.listener ∧ Delivers l.listener l.dialer :=
  ⟨(tcp_sound h).delivers, (tcp_sound h).swap.delivers⟩

/-- Media is never reordered, repeated or sent late; no datagram is counted twice, and while the
writer runs every one is accounted for. -/
theorem tcp_media_fresh {l : TcpLink} (h : tcp.Reachable l) :
    Streams l.dialer l.listener ∧ Streams l.listener l.dialer :=
  ⟨(tcp_sound h).streams, (tcp_sound h).swap.streams⟩

/-- Each answer to a keep-alive gives one round trip, from the writing of that keep-alive to the
reading of the answer by the end's own clock, whatever the other end's clock shows. -/
theorem tcp_round_trips {l : TcpLink} (h : tcp.Reachable l) :
    l.dialer.Measured ∧ l.listener.Measured :=
  ⟨(tcp_sound h).near.measured, (tcp_sound h).far.measured⟩

/-! ## 4. A connection -/

namespace Sample

/-- A control message and a datagram, in one read each, and an answered keep-alive. -/
def tcp_events : List TcpEvent :=
  [.Dialer .TakeControl, .Dialer (.SendControl [7]), .Dialer (.SendDatagram 1000 [9, 9]),
    .Dialer (.Write 2000 none), .Dialer (.Write 5000 none), .Dialer (.Write 6000 none),
    .Listener (.Read 8), .Listener (.Frame 100), .Listener .RecvControl, .Listener (.Frame 100),
    .Listener (.Read 18), .Listener (.Frame 100), .Listener .ReadDatagram,
    .Listener (.Frame 100), .Listener (.Write 200 none), .Dialer (.Read 13),
    .Dialer (.Frame 90000)]

def tcp_link : TcpLink := tcp.exec ⟨.start, .start⟩ tcp_events

theorem tcp_link_reached : tcp.Reachable tcp_link := by
  have hadmits : tcp.Admits ⟨.start, .start⟩ tcp_events := by
    refine ⟨?_, ?_, ?_, ?_, ?_, ?_, ?_, ?_, ?_, ?_, ?_, ?_, ?_, ?_, ?_, ?_, ?_, trivial⟩ <;>
      decide +kernel
  exact ⟨_, Machine.run_of_admits rfl hadmits⟩

/-- Two more datagrams, and the socket fails after the first byte of the first of them. -/
def tcp_failing : List TcpEvent :=
  [.Dialer (.SendDatagram 91000 [1]), .Dialer (.SendDatagram 91000 [2]),
    .Dialer (.Write 92000 (some 1))]

def tcp_broken : TcpLink := tcp.exec tcp_link tcp_failing

theorem tcp_broken_reached : tcp.Reachable tcp_broken := by
  obtain ⟨_, hrun⟩ := tcp_link_reached
  have hadmits : tcp.Admits tcp_link tcp_failing := by
    refine ⟨?_, ?_, ?_, trivial⟩ <;> decide +kernel
  exact ⟨_, hrun.extend hadmits⟩

end Sample

/-- What was sent has arrived, and nothing is on the way. -/
theorem tcp_control_delivered_sample :
    Sample.tcp_link.listener.log.got_control = [[7]] ∧
      Delivers Sample.tcp_link.dialer Sample.tcp_link.listener :=
  ⟨by decide +kernel, (tcp_control_delivered Sample.tcp_link_reached).1⟩

/-- Of three datagrams one arrived, one is cut off, and one is gone with the queue. -/
theorem tcp_media_fresh_sample :
    Sample.tcp_broken.listener.log.got_datagrams = [[9, 9]] ∧
      Sample.tcp_broken.dialer.stats.sent = 2 ∧
      Sample.tcp_broken.dialer.log.sent_datagrams.length = 3 ∧
      Streams Sample.tcp_broken.dialer Sample.tcp_broken.listener :=
  ⟨by decide +kernel, by decide +kernel, by decide +kernel,
    (tcp_media_fresh Sample.tcp_broken_reached).1⟩

/-- The keep-alive was written after 6 µs and its answer read after 90. -/
theorem tcp_round_trips_sample :
    Sample.tcp_link.dialer.log.pings = [6000] ∧
      Sample.tcp_link.dialer.log.pongs.map Prod.fst = [90000] ∧
      Sample.tcp_link.dialer.log.samples = [84] ∧ Sample.tcp_link.dialer.stats.rtt_us = 84 ∧
      Sample.tcp_link.dialer.Measured :=
  ⟨by decide +kernel, by decide +kernel, by decide +kernel, by decide +kernel,
    (tcp_round_trips Sample.tcp_link_reached).1⟩

end SoundPush
