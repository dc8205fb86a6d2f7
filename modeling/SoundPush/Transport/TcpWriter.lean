/-
`TcpWriter` -- what one end of a connection has made of what it was given to send.

`Outgoing` is the part of an end that sending touches; the rest of what an end does
leaves it alone, which is `rfl` below. `Outgoing.Sound` holds from the start on:
control messages leave in the order in which they were taken over, datagrams may be
lost but are all counted, and none is written that has waited too long.

## Where the work is

A datagram is handed over, refused, dropped as late, or written; each of these has its
own lemma (`send_datagram`, `drop_newest`, `drop_stale`, `put_datagram`), and the sum
in `counted` is what they have to agree on. The case with an argument in it is the
write that fails: the writer has counted the frame and then ends with a part of it
written. The counters are then ahead of the stream, which is why `counted` and `sent`
are equalities only while the writer runs. `Sound.lose` is that case: it starts from
what holds once the frame is written, and takes the frame away again.

A turn of the writer first picks and then writes. `Picks` is the first half, so that
every kind of frame is looked at once, and `write_cases` puts the write behind it.
-/
import SoundPush.Transport.Tcp

set_option autoImplicit false

namespace SoundPush

/-! ## 1. Frames by kind -/

/-- The payloads of the frames of one kind. -/
def payloads (kind : StreamFrameKind) (frames : List (StreamFrameKind × Bytes)) : List Bytes :=
  (frames.filter fun f => f.1 = kind).map Prod.snd

section
variable {kind : StreamFrameKind} {frames : List (StreamFrameKind × Bytes)} {payload : Bytes}

theorem payloads_append (kind : StreamFrameKind) (frames more : List (StreamFrameKind × Bytes)) :
    payloads kind (frames ++ more) = payloads kind frames ++ payloads kind more := by
  unfold payloads
  rw [List.filter_append, List.map_append]

@[simp] theorem payloads_same : payloads kind [(kind, payload)] = [payload] := by
  simp [payloads]

@[simp] theorem payloads_other {other : StreamFrameKind} (h : other ≠ kind) :
    payloads kind [(other, payload)] = [] := by
  simp [payloads, h]

end

/-- The control messages among what is queued for the writer. -/
def queued_control (queue : List Outbound) : List Bytes :=
  queue.filterMap fun o =>
    match o with
    | .Control bytes => some bytes
    | _ => none

theorem queued_control_append (queue more : List Outbound) :
    queued_control (queue ++ more) = queued_control queue ++ queued_control more :=
  List.filterMap_append

/-! ## 2. The sending part of an end -/

/-- The sending part of an end: its two queues, its counters, whether the writer still runs, and
what the log says of all that was taken over and written. -/
structure Outgoing where
  control_out : List Outbound
  datagram_out : List (Nat × Bytes)
  stats_sent : Nat
  stats_lost : Nat
  writes : Bool
  sent_control : List Bytes
  sent_datagrams : List Bytes
  written : List (StreamFrameKind × Bytes)
  delays : List Nat
  pings : List Nat
  clock : Nat

/-- The sending part of `e`. Every field is one of `e`, so an act of the reader leaves it alone
by `rfl`. -/
def TcpEnd.outgoing (e : TcpEnd) : Outgoing :=
  { control_out := e.control_out, datagram_out := e.datagram_out, stats_sent := e.stats.sent
    stats_lost := e.stats.lost, writes := e.writes, sent_control := e.log.sent_control
    sent_datagrams := e.log.sent_datagrams, written := e.log.written, delays := e.log.delays
    pings := e.log.pings, clock := e.log.clock }

namespace Outgoing

/-- The writer ends, and its queues with it. -/
def stop (o : Outgoing) : Outgoing :=
  { o with writes := false, control_out := [], datagram_out := [] }

/-- A frame is written. -/
def put (o : Outgoing) (frame : StreamFrameKind × Bytes) : Outgoing :=
  { o with written := o.written ++ [frame] }

/-- What holds of the sending part from the start on. The fields up to `fits_datagram` say that
every frame queued can be encoded; `control` and `datagrams` tell where each message went; the
rest is about the counters and the keep-alives. -/
structure Sound (o : Outgoing) : Prop where
  fits_control : ∀ bytes, .Control bytes ∈ o.control_out → bytes.length ≤ MAX_CONTROL_FRAME
  fits_pong : ∀ payload, .Pong payload ∈ o.control_out → payload.length = 8
  fits_datagram : ∀ d ∈ o.datagram_out, d.2.length ≤ MAX_MEDIA_FRAME
  /-- written, or queued, or lost with the queue when the writer ended -/
  control : ∃ gone, payloads .Control o.written ++ queued_control o.control_out ++ gone =
    o.sent_control ∧ (o.writes = true → gone = [])
  datagrams : (payloads .Datagram o.written ++ o.datagram_out.map Prod.snd).Sublist
    o.sent_datagrams
  counted : o.stats_sent + o.stats_lost + o.datagram_out.length ≤ o.sent_datagrams.length ∧
    (o.writes = true →
      o.stats_sent + o.stats_lost + o.datagram_out.length = o.sent_datagrams.length)
  /-- every datagram written is counted as sent -/
  sent : (payloads .Datagram o.written).length ≤ o.stats_sent ∧
    (o.writes = true → (payloads .Datagram o.written).length = o.stats_sent)
  delays : o.delays.length = o.stats_sent ∧ ∀ d ∈ o.delays, d ≤ STALE_AFTER
  pings : ∀ payload, (.Ping, payload) ∈ o.written →
    ∃ at_time ∈ o.pings, payload = put_u64 (now_us at_time)
  past : ∀ at_time ∈ o.pings, at_time ≤ o.clock ∧ at_time / 1000 < 2 ^ 64

variable {o : Outgoing}

/-- The writer ends. What was queued is lost with the queues: the control messages become the
`gone` of `control`, and the datagrams are in none of the counters, so `counted` keeps only its
inequality. -/
theorem Sound.stop (h : o.Sound) : o.stop.Sound where
  fits_control _ hmem := absurd hmem List.not_mem_nil
  fits_pong _ hmem := absurd hmem List.not_mem_nil
  fits_datagram _ hmem := absurd hmem List.not_mem_nil
  control := by
    obtain ⟨gone, hsent, -⟩ := h.control
    refine ⟨queued_control o.control_out ++ gone, ?_, fun hw => absurd hw Bool.false_ne_true⟩
    rw [List.append_assoc] at hsent
    simpa [Outgoing.stop, queued_control] using hsent
  datagrams := by
    refine List.Sublist.trans ?_ h.datagrams
    simp [Outgoing.stop]
  counted := by
    have hle := h.counted.1
    refine ⟨?_, fun hw => absurd hw Bool.false_ne_true⟩
    simp only [Outgoing.stop, List.length_nil]
    omega
  sent := ⟨h.sent.1, fun hw => absurd hw Bool.false_ne_true⟩
  delays := h.delays
  pings := h.pings
  past := h.past

/-- A frame is picked, and the write fails. If everything holds of an end that has written the
frame, it also holds of the end that stops instead. -/
theorem Sound.lose {frame : StreamFrameKind × Bytes} (h : (o.put frame).Sound) : o.stop.Sound where
  fits_control := h.stop.fits_control
  fits_pong := h.stop.fits_pong
  fits_datagram := h.stop.fits_datagram
  control := by
    obtain ⟨gone, hsent, -⟩ := h.control
    simp only [Outgoing.put, payloads_append, List.append_assoc] at hsent
    refine ⟨payloads .Control [frame] ++ (queued_control o.control_out ++ gone), ?_,
      fun hw => absurd hw Bool.false_ne_true⟩
    simpa [Outgoing.stop, queued_control] using hsent
  datagrams := by
    have hsub := h.datagrams
    simp only [Outgoing.put, payloads_append, List.append_assoc] at hsub
    refine List.Sublist.trans ?_ hsub
    simp [Outgoing.stop]
  counted := h.stop.counted
  sent := by
    have hle := h.sent.1
    simp only [Outgoing.put, payloads_append, List.length_append] at hle
    refine ⟨?_, fun hw => absurd hw Bool.false_ne_true⟩
    simp only [Outgoing.stop]
    omega
  delays := h.delays
  pings payload hmem := h.pings payload (List.mem_append_left _ hmem)
  past := h.past

/-- Time passes. Only the keep-alives are compared with the clock, and they lie in its past. -/
theorem Sound.later (h : o.Sound) {now : Nat} (hnow : o.clock ≤ now) :
    Sound { o with clock := now } :=
  { h with past := fun t ht => ⟨Nat.le_trans (h.past t ht).1 hnow, (h.past t ht).2⟩ }

/-! ## 3. What the session hands over -/

/-- A control message is taken over: it is short enough for a frame, and the writer runs. An end
whose writer has ended takes over none. -/
theorem Sound.send_control (h : o.Sound) {bytes : Bytes} (hfits : bytes.length ≤ MAX_CONTROL_FRAME)
    (hwrites : o.writes = true) :
    Sound
      { o with
        control_out := o.control_out ++ [.Control bytes]
        sent_control := o.sent_control ++ [bytes] } :=
  { h with
    fits_control := by
      intro other hmem
      obtain hmem | hmem := List.mem_append.1 hmem
      · exact h.fits_control other hmem
      · obtain rfl := Outbound.Control.inj (List.mem_singleton.1 hmem)
        exact hfits
    fits_pong := by
      intro payload hmem
      obtain hmem | hmem := List.mem_append.1 hmem
      · exact h.fits_pong payload hmem
      · cases List.mem_singleton.1 hmem
    control := by
      obtain ⟨gone, hsent, hnone⟩ := h.control
      refine ⟨[], ?_, fun _ => rfl⟩
      rw [hnone hwrites, List.append_nil] at hsent
      rw [queued_control_append, ← hsent]
      simp [queued_control] }

/-- What the end queues by itself: a pong, or the close. It is no message of the session's, and
so leaves the order of these alone. -/
theorem Sound.queue (h : o.Sound) {out : Outbound} (hout : ∀ bytes, out ≠ .Control bytes)
    (hpong : ∀ payload, out = .Pong payload → payload.length = 8) :
    Sound { o with control_out := o.control_out ++ [out] } :=
  { h with
    fits_control := by
      intro bytes hmem
      obtain hmem | hmem := List.mem_append.1 hmem
      · exact h.fits_control bytes hmem
      · exact absurd (List.mem_singleton.1 hmem).symm (hout bytes)
    fits_pong := by
      intro payload hmem
      obtain hmem | hmem := List.mem_append.1 hmem
      · exact h.fits_pong payload hmem
      · exact hpong payload (List.mem_singleton.1 hmem).symm
    control := by
      obtain ⟨gone, hsent, hnone⟩ := h.control
      refine ⟨gone, ?_, hnone⟩
      have hno : queued_control [out] = [] := by
        cases out with
        | Control bytes => exact absurd rfl (hout bytes)
        | Pong payload => rfl
        | Close code => rfl
      rw [queued_control_append, hno, List.append_nil]
      exact hsent }

/-- A datagram is queued, with the time at which it was. It need not be sent: here it is one
more of those in the queue. -/
theorem Sound.send_datagram (h : o.Sound) {data : Bytes} (now : Nat)
    (hfits : data.length ≤ MAX_MEDIA_FRAME) :
    Sound
      { o with
        datagram_out := o.datagram_out ++ [(now, data)]
        sent_datagrams := o.sent_datagrams ++ [data] } :=
  { h with
    fits_datagram := by
      intro d hmem
      obtain hmem | hmem := List.mem_append.1 hmem
      · exact h.fits_datagram d hmem
      · obtain rfl := List.mem_singleton.1 hmem
        exact hfits
    datagrams := by
      have hsub := h.datagrams.append (List.Sublist.refl [data])
      simpa using hsub
    counted := by
      obtain ⟨hle, heq⟩ := h.counted
      simp only [List.length_append, List.length_singleton]
      refine ⟨by omega, fun hw => ?_⟩
      have := heq hw
      omega }

/-- The send queue is full. The newest datagram is the one that is given up, and it is counted
as lost. -/
theorem Sound.drop_newest (h : o.Sound) (data : Bytes) :
    Sound
      { o with
        stats_lost := o.stats_lost + 1
        sent_datagrams := o.sent_datagrams ++ [data] } :=
  { h with
    datagrams := h.datagrams.trans (List.sublist_append_left _ _)
    counted := by
      obtain ⟨hle, heq⟩ := h.counted
      simp only [List.length_append, List.length_singleton]
      refine ⟨by omega, fun hw => ?_⟩
      have := heq hw
      omega }

/-! ## 4. What the writer takes -/

/-- The oldest of the queued control messages is written. The queue and the stream lie next to
each other in `control`, so moving the message from one to the other changes neither the order
nor the number. -/
theorem Sound.put_control (h : o.Sound) {bytes : Bytes} {rest : List Outbound}
    (hq : o.control_out = .Control bytes :: rest) :
    (put { o with control_out := rest } (.Control, bytes)).Sound :=
  { h with
    fits_control := fun b hmem => h.fits_control b (hq ▸ List.mem_cons_of_mem _ hmem)
    fits_pong := fun p hmem => h.fits_pong p (hq ▸ List.mem_cons_of_mem _ hmem)
    control := by
      obtain ⟨gone, hsent, hnone⟩ := h.control
      refine ⟨gone, ?_, hnone⟩
      rw [← hsent, hq]
      simp [put, payloads_append, queued_control]
    datagrams := by
      have hsub := h.datagrams
      simpa [put, payloads_append] using hsub
    sent := by
      have hsent := h.sent
      simpa [put, payloads_append] using hsent
    pings := by
      intro payload hmem
      obtain hmem | hmem := List.mem_append.1 hmem
      · exact h.pings payload hmem
      · cases List.mem_singleton.1 hmem }

/-- A pong or a close is written. It is in the control queue, but no control message, no media
and no keep-alive of this end's own; so no count sees it. -/
theorem Sound.put_other (h : o.Sound) {out : Outbound} {rest : List Outbound}
    {frame : StreamFrameKind × Bytes} (hq : o.control_out = out :: rest)
    (hout : ∀ bytes, out ≠ .Control bytes) (hframe : frame.1 = .Pong ∨ frame.1 = .Close) :
    (put { o with control_out := rest } frame).Sound := by
  have hkinds : frame.1 ≠ .Control ∧ frame.1 ≠ .Datagram ∧ frame.1 ≠ .Ping := by
    obtain hk | hk := hframe <;> rw [hk] <;> exact ⟨by decide, by decide, by decide⟩
  have hskip : ∀ kind, frame.1 ≠ kind → payloads kind [frame] = [] := fun _ => payloads_other
  exact
    { h with
      fits_control := fun b hmem => h.fits_control b (hq ▸ List.mem_cons_of_mem _ hmem)
      fits_pong := fun p hmem => h.fits_pong p (hq ▸ List.mem_cons_of_mem _ hmem)
      control := by
        obtain ⟨gone, hsent, hnone⟩ := h.control
        refine ⟨gone, ?_, hnone⟩
        -- Taking such a frame off the queue takes no control message off it.
        have hno : queued_control (out :: rest) = queued_control rest := by
          cases out with
          | Control bytes => exact absurd rfl (hout bytes)
          | Pong payload => rfl
          | Close code => rfl
        rw [← hsent, hq, hno]
        simp [put, payloads_append, hskip _ hkinds.1]
      datagrams := by
        have hsub := h.datagrams
        simpa [put, payloads_append, hskip _ hkinds.2.1] using hsub
      sent := by
        have hsent := h.sent
        simpa [put, payloads_append, hskip _ hkinds.2.1] using hsent
      pings := by
        intro payload hmem
        obtain hmem | hmem := List.mem_append.1 hmem
        · exact h.pings payload hmem
        · exact absurd (congrArg Prod.fst (List.mem_singleton.1 hmem)).symm hkinds.2.2 }

/-- The oldest of the queued datagrams is written, not later than `STALE_AFTER` after it was
queued. It leaves the queue and is counted as sent. -/
theorem Sound.put_datagram (h : o.Sound) {queued now : Nat} {bytes : Bytes}
    {rest : List (Nat × Bytes)} (hq : o.datagram_out = (queued, bytes) :: rest)
    (hfresh : now - queued ≤ STALE_AFTER) :
    (put
      { o with
        datagram_out := rest
        stats_sent := o.stats_sent + 1
        delays := o.delays ++ [now - queued] } (.Datagram, bytes)).Sound :=
  { h with
    fits_datagram := fun d hmem => h.fits_datagram d (hq ▸ List.mem_cons_of_mem _ hmem)
    control := by
      obtain ⟨gone, hsent, hnone⟩ := h.control
      refine ⟨gone, ?_, hnone⟩
      rw [← hsent]
      simp [put, payloads_append]
    datagrams := by
      have hsub := h.datagrams
      rw [hq] at hsub
      simpa [put, payloads_append] using hsub
    counted := by
      obtain ⟨hle, heq⟩ := h.counted
      rw [hq, List.length_cons] at hle heq
      simp only [put]
      refine ⟨by omega, fun hw => ?_⟩
      have := heq hw
      omega
    sent := by
      obtain ⟨hle, heq⟩ := h.sent
      simp only [put, payloads_append, payloads_same, List.length_append, List.length_singleton]
      refine ⟨by omega, fun hw => ?_⟩
      have := heq hw
      omega
    delays := by
      obtain ⟨hlen, hall⟩ := h.delays
      refine ⟨?_, fun d hmem => ?_⟩
      · simp only [put, List.length_append, List.length_singleton, hlen]
      · obtain hmem | hmem := List.mem_append.1 hmem
        · exact hall d hmem
        · rw [List.mem_singleton.1 hmem]
          exact hfresh
    pings := by
      intro payload hmem
      obtain hmem | hmem := List.mem_append.1 hmem
      · exact h.pings payload hmem
      · cases List.mem_singleton.1 hmem }

/-- A datagram that has waited for too long leaves the queue without being written, and is
counted as lost. -/
theorem Sound.drop_stale (h : o.Sound) {d : Nat × Bytes} {rest : List (Nat × Bytes)}
    (hq : o.datagram_out = d :: rest) :
    Sound { o with datagram_out := rest, stats_lost := o.stats_lost + 1 } :=
  { h with
    fits_datagram := fun d hmem => h.fits_datagram d (hq ▸ List.mem_cons_of_mem _ hmem)
    datagrams := by
      refine List.Sublist.trans ?_ h.datagrams
      rw [hq]
      exact (List.sublist_cons_self _ _).append_left _
    counted := by
      obtain ⟨hle, heq⟩ := h.counted
      rw [hq, List.length_cons] at hle heq
      dsimp only
      refine ⟨by omega, fun hw => ?_⟩
      have := heq hw
      omega }

/-- A keep-alive is written. Its payload is the time by the end's own clock, which the other end
sends back. -/
theorem Sound.put_ping (h : o.Sound) {now : Nat} (hnow : now ≤ o.clock)
    (hclock : now / 1000 < 2 ^ 64) :
    (put { o with pings := o.pings ++ [now] } (.Ping, put_u64 (now_us now))).Sound :=
  { h with
    control := by
      obtain ⟨gone, hsent, hnone⟩ := h.control
      refine ⟨gone, ?_, hnone⟩
      rw [← hsent]
      simp [put, payloads_append]
    datagrams := by
      have hsub := h.datagrams
      simpa [put, payloads_append] using hsub
    sent := by
      have hsent := h.sent
      simpa [put, payloads_append] using hsent
    pings := by
      intro payload hmem
      obtain hmem | hmem := List.mem_append.1 hmem
      · obtain ⟨at_time, hat, hpayload⟩ := h.pings payload hmem
        exact ⟨at_time, List.mem_append_left _ hat, hpayload⟩
      · obtain ⟨-, rfl⟩ := Prod.mk.inj (List.mem_singleton.1 hmem)
        exact ⟨now, List.mem_append_right _ (List.mem_singleton_self _), rfl⟩
    past := by
      intro t ht
      obtain ht | ht := List.mem_append.1 ht
      · exact h.past t ht
      · rw [List.mem_singleton.1 ht]
        exact ⟨hnow, hclock⟩ }

end Outgoing

/-! ## 5. A turn of the writer -/

namespace TcpEnd

variable {e e' : TcpEnd} {now : Nat} {frame : StreamFrameKind × Bytes}

/-- The frame a turn picks, and the end it leaves. -/
inductive Picks (e : TcpEnd) (now : Nat) : TcpEnd → StreamFrameKind × Bytes → Prop
  | control {bytes : Bytes} {rest : List Outbound} (hq : e.control_out = .Control bytes :: rest) :
      Picks e now { e with control_out := rest } (.Control, bytes)
  | pong {payload : Bytes} {rest : List Outbound} (hq : e.control_out = .Pong payload :: rest) :
      Picks e now { e with control_out := rest } (.Pong, payload)
  | close {code : UInt32} {rest : List Outbound} (hq : e.control_out = .Close code :: rest) :
      Picks e now { e with control_out := rest } (.Close, put_u32 code)
  | datagram {queued : Nat} {bytes : Bytes} {rest : List (Nat × Bytes)}
      (hq : e.datagram_out = (queued, bytes) :: rest) (hfresh : now - queued ≤ STALE_AFTER) :
      Picks e now
        { e with
          datagram_out := rest
          stats := { e.stats with sent := e.stats.sent + 1 }
          log := { e.log with delays := e.log.delays ++ [now - queued] } } (.Datagram, bytes)
  | ping :
      Picks e now { e with log := { e.log with pings := e.log.pings ++ [now] } }
        (.Ping, put_u64 (now_us now))

/-- What a turn can be: the last one, one that drops a datagram, or one with a frame to write. -/
theorem write_turn_cases (e : TcpEnd) (now : Nat) :
    e.write_turn now = (e.stop_writing, none) ∨
      (∃ d rest, e.datagram_out = d :: rest ∧ e.write_turn now =
        ({ e with
          datagram_out := rest
          stats := { e.stats with lost := e.stats.lost + 1 } }, none)) ∨
      ∃ e₁ frame, e.write_turn now = (e₁, some frame) ∧ e.Picks now e₁ frame := by
  unfold write_turn
  by_cases hclosed : e.closed = true
  · rw [if_pos hclosed]
    exact .inl rfl
  rw [if_neg hclosed]
  split
  · next hq => exact .inr (.inr ⟨_, _, rfl, .control hq⟩)
  · next hq => exact .inr (.inr ⟨_, _, rfl, .pong hq⟩)
  · next hq => exact .inr (.inr ⟨_, _, rfl, .close hq⟩)
  -- The control queue is empty. With its sender gone this is the last turn.
  · by_cases hopen : (!e.control_open) = true
    · rw [if_pos hopen]
      exact .inl rfl
    rw [if_neg hopen]
    split
    · next queued bytes rest hq =>
        by_cases hstale : now - queued > STALE_AFTER
        · rw [if_pos hstale]
          exact .inr (.inl ⟨_, rest, hq, rfl⟩)
        · rw [if_neg hstale]
          exact .inr (.inr ⟨_, _, rfl, .datagram hq (Nat.not_lt.1 hstale)⟩)
    · by_cases hshared : (!e.shared) = true
      · rw [if_pos hshared]
        exact .inl rfl
      · rw [if_neg hshared]
        exact .inr (.inr ⟨_, _, rfl, .ping⟩)

/-- What is picked is encodable, and accounted for as soon as it is written. -/
theorem Picks.sound (h : e.Picks now e' frame) (hs : e.outgoing.Sound) (hnow : now ≤ e.log.clock)
    (hclock : now / 1000 < 2 ^ 64) :
    (e'.outgoing.put frame).Sound ∧ frame.2.length ≤ frame.1.max_len := by
  cases h with
  | control hq =>
      have hmem : .Control _ ∈ e.outgoing.control_out := hq.symm ▸ List.mem_cons_self
      exact ⟨hs.put_control hq, hs.fits_control _ hmem⟩
  | pong hq =>
      refine ⟨hs.put_other hq (fun _ => Outbound.noConfusion) (.inl rfl), ?_⟩
      have hmem : .Pong _ ∈ e.outgoing.control_out := hq.symm ▸ List.mem_cons_self
      have hlen := hs.fits_pong _ hmem
      simp only [StreamFrameKind.max_len, MAX_SMALL_FRAME, hlen]
      omega
  | close hq =>
      refine ⟨hs.put_other hq (fun _ => Outbound.noConfusion) (.inr rfl), ?_⟩
      rw [put_u32_length]
      exact (by decide : 4 ≤ MAX_SMALL_FRAME)
  | datagram hq hfresh =>
      have hmem : _ ∈ e.outgoing.datagram_out := hq.symm ▸ List.mem_cons_self
      exact ⟨hs.put_datagram hq hfresh, hs.fits_datagram _ hmem⟩
  | ping =>
      refine ⟨hs.put_ping hnow hclock, ?_⟩
      rw [put_u64_length]
      exact (by decide : 8 ≤ MAX_SMALL_FRAME)

/-- A turn touches nothing that reading is about, and leaves the stream to the write itself. -/
theorem Picks.untouched (h : e.Picks now e' frame) :
    e'.wire = e.wire ∧ e'.writes = e.writes ∧ e'.decoder = e.decoder ∧
      e'.log.read = e.log.read ∧ e'.log.written = e.log.written := by
  cases h <;> exact ⟨rfl, rfl, rfl, rfl, rfl⟩

theorem encode_stream_frame_of_fits (h : frame.2.length ≤ frame.1.max_len) :
    encode_stream_frame frame.1 frame.2 [] = .ok (stream_frame_bytes frame) := by
  unfold encode_stream_frame
  rw [if_neg (Nat.not_lt.2 h)]
  rfl

/-- A turn of the writer: the last one, one that drops a datagram, one that writes a frame, and one
that writes the beginning of a frame and no more. -/
inductive Writes (e : TcpEnd) (now : Nat) : Option Nat → TcpEnd → Prop
  | stop {fails : Option Nat} : Writes e now fails e.stop_writing
  | stale {fails : Option Nat} {d : Nat × Bytes} {rest : List (Nat × Bytes)}
      (hq : e.datagram_out = d :: rest) :
      Writes e now fails
        { e with datagram_out := rest, stats := { e.stats with lost := e.stats.lost + 1 } }
  | wrote {e₁ : TcpEnd} {frame : StreamFrameKind × Bytes} (hpick : e.Picks now e₁ frame)
      (hfits : frame.2.length ≤ frame.1.max_len) :
      Writes e now none
        { e₁ with
          wire := e₁.wire ++ stream_frame_bytes frame
          log := { e₁.log with written := e₁.log.written ++ [frame] } }
  | closed {fails : Option Nat} {e₁ : TcpEnd} {frame : StreamFrameKind × Bytes}
      (hpick : e.Picks now e₁ frame) (hfits : frame.2.length ≤ frame.1.max_len) :
      Writes e now fails
        (stop_writing
          { e₁ with
            wire := e₁.wire ++ stream_frame_bytes frame
            log := { e₁.log with written := e₁.log.written ++ [frame] } })
  | broke {e₁ : TcpEnd} {frame : StreamFrameKind × Bytes} {k : Nat}
      (hpick : e.Picks now e₁ frame) (hfits : frame.2.length ≤ frame.1.max_len)
      (hk : k < (stream_frame_bytes frame).length) :
      Writes e now (some k)
        { e₁.stop_writing with wire := e₁.wire ++ (stream_frame_bytes frame).take k }

theorem write_cases (hs : e.outgoing.Sound) (hnow : now ≤ e.log.clock)
    (hclock : now / 1000 < 2 ^ 64) (fails : Option Nat) :
    e.Writes now fails (e.write now fails) := by
  unfold write
  obtain hstop | ⟨d, rest, hq, hstale⟩ | ⟨e₁, frame, hturn, hpick⟩ := e.write_turn_cases now
  · rw [hstop]
    exact .stop
  · rw [hstale]
    exact .stale hq
  · have hfits := (hpick.sound hs hnow hclock).2
    rw [hturn]
    dsimp only
    rw [encode_stream_frame_of_fits hfits]
    cases fails with
    | some k =>
        dsimp only
        split
        · next hk => exact .broke hpick hfits hk
        · exact .closed hpick hfits
    | none =>
        dsimp only
        split
        · exact .closed hpick hfits
        · exact .wrote hpick hfits

theorem Writes.sound {fails : Option Nat} (h : e.Writes now fails e') (hs : e.outgoing.Sound)
    (hnow : now ≤ e.log.clock) (hclock : now / 1000 < 2 ^ 64) : e'.outgoing.Sound := by
  cases h with
  | stop => exact hs.stop
  | stale hq => exact hs.drop_stale hq
  | wrote hpick => exact (hpick.sound hs hnow hclock).1
  | closed hpick => exact (hpick.sound hs hnow hclock).1.stop
  | broke hpick => exact (hpick.sound hs hnow hclock).1.lose

end TcpEnd
end SoundPush
