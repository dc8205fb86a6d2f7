/-
`Dtx` -- what DTX leaves of a receiver's audio.

The encode thread counts silent frames. When the count passes the hangover it
sends a receiver that understands DTX a header-only packet in place of audio, in
the first `DTX_SIGNAL_FRAMES` frames of the silence and then once every
`dtx_keepalive` frames. All of it hangs on the position in the silence,
`quiet_frames`: position zero is always signalled, so audio and an unsent frame
have a DTX packet between them (`Heard.marked`), and the remainder of the
position by the keep-alive counts the frames since the last packet
(`Heard.recent`). A receiver without DTX is sent every frame.
-/
import SoundPush.Pipeline.Redundancy
import Mathlib.Data.List.Count

set_option autoImplicit false

namespace SoundPush

/-- A DTX datagram: silent from its timestamp on. -/
def Datagram.dtx (d : Datagram) : Bool := d.packet.header.flags.contains MediaFlags.DTX

/-- The subscription a target was read from. -/
def Target.entry (t : Target) : Entry where
  id := t.id
  subscriber := { route := t.route, sink := t.sink, dtx := t.dtx }

namespace Sender

/-! ## 1. The subscriptions and their targets -/

/-- The encode thread's list: whenever it is up to date, it is the subscriptions, each of them
once. -/
structure Read (s : Sender) : Prop where
  ids_lt : ∀ e ∈ s.entries, e.id < s.next_id
  ids_nodup : (s.entries.map Entry.id).Nodup
  seen_le : ∀ g, s.seen_generation = some g → g ≤ s.generation
  targets : s.seen_generation = some s.generation → s.targets.map Target.entry = s.entries

variable {s : Sender} {inp : FrameInput}

theorem target_of_entry (targets : List Target) (e : Entry) : (target_of targets e).entry = e := by
  unfold target_of
  rfl

theorem Read.refresh (h : s.Read) : s.refresh_targets.targets.map Target.entry = s.entries := by
  unfold refresh_targets
  by_cases hseen : s.seen_generation = some s.generation
  · rw [if_pos hseen]
    exact h.targets hseen
  · rw [if_neg hseen]
    show (s.entries.map (target_of s.targets)).map Target.entry = s.entries
    rw [List.map_map]
    exact List.map_id'' (fun e => target_of_entry s.targets e) s.entries

theorem Read.subscribe (h : s.Read) (sub : Subscriber) : (s.subscribe sub).1.Read := by
  have hlt : ∀ e ∈ s.entries, e.id ≠ s.next_id := by
    intro e he
    have hid := h.ids_lt e he
    omega
  refine ⟨?_, ?_, ?_, ?_⟩
  · intro e he
    show e.id < s.next_id + 1
    rcases List.mem_append.1 he with he | he
    · have hid := h.ids_lt e he
      omega
    · rw [List.mem_singleton.1 he]
      exact Nat.lt_succ_self _
  · show ((s.entries ++ [_]).map Entry.id).Nodup
    rw [List.map_append]
    refine List.nodup_append.2 ⟨h.ids_nodup, List.nodup_singleton _, ?_⟩
    simpa using hlt
  · intro g hg
    exact Nat.le_succ_of_le (h.seen_le g hg)
  · -- the list has changed, so the thread has not read it yet
    intro hseen
    have hle : s.generation + 1 ≤ s.generation := h.seen_le _ hseen
    omega

theorem Read.unsubscribe (h : s.Read) (id : Nat) : (s.unsubscribe id).Read := by
  have hsub : (s.unsubscribe id).entries.Sublist s.entries := List.filter_sublist
  refine ⟨?_, ?_, ?_, ?_⟩
  · intro e he
    exact h.ids_lt e (hsub.subset he)
  · exact h.ids_nodup.sublist (hsub.map _)
  · intro g hg
    exact Nat.le_succ_of_le (h.seen_le g hg)
  · intro hseen
    have hle : s.generation + 1 ≤ s.generation := h.seen_le _ hseen
    omega

/-- A turn keeps the target's subscription. -/
theorem send_target_entry (s : Sender) (f : Frame) (inp : FrameInput) (t : Target) :
    (s.send_target f inp t).1.entry = t.entry := by
  unfold send_target
  by_cases hmuted : inp.muted t.id = true
  · rw [if_pos hmuted]
    rfl
  rw [if_neg hmuted]
  dsimp only
  by_cases hquiet : (f.dtx && t.dtx && !f.dtx_signal) = true
  · rw [if_pos hquiet]
  rw [if_neg hquiet]
  by_cases hfits : (!(s.build_packet f.ts f.seq f.packet (f.dtx && t.dtx)
      (!(f.dtx && t.dtx) && f.can_add_redundancy && inp.redundancy t.id)).encodable) = true
  · rw [if_pos hfits]
  rw [if_neg hfits]
  by_cases hok : inp.send_ok t.id = true
  · rw [if_pos hok]
    rfl
  · rw [if_neg hok]

theorem encode_frame_targets (s : Sender) (inp : FrameInput) :
    (s.encode_frame inp).1.targets.map Target.entry =
      s.refresh_targets.targets.map Target.entry := by
  rcases encode_frame_cases s inp with ⟨previous, h⟩ | ⟨f, -, -, -, h⟩
  · rw [h]
    rfl
  · rw [h]
    show (((s.begun inp).targets.map _).map Prod.fst).map Target.entry = _
    rw [List.map_map, List.map_map]
    exact List.map_congr_left (fun t _ => send_target_entry (s.begun inp) f inp t)

theorem Read.frame (h : s.Read) (inp : FrameInput) : (s.encode_frame inp).1.Read := by
  obtain ⟨he, _, hn, _, hg, hs, _⟩ := encode_frame_group s inp
  refine ⟨?_, ?_, ?_, ?_⟩
  · rw [he, hn]
    exact h.ids_lt
  · rw [he]
    exact h.ids_nodup
  · intro g hseen
    rw [hs] at hseen
    rw [hg, Option.some.inj hseen]
  · intro _
    rw [he, encode_frame_targets]
    exact h.refresh

theorem run_read {tr : List (Sender × SenderOp)} (hr : machine.Run tr s) : s.Read := by
  refine hr.invariant ?_ ?_
  · rintro s ⟨codec, frame, _, rfl⟩
    exact ⟨nofun, List.nodup_nil, nofun, nofun⟩
  · intro s op h _
    match op with
    | .subscribe sub => exact h.subscribe sub
    | .unsubscribe id => exact h.unsubscribe id
    | .frame inp => exact h.frame inp

/-! ## 2. The position in a silence -/

/-- The frame just counted is this many after the first one of the silence that is in DTX. -/
def quiet_frames (s : Sender) : Nat := s.silent_frames - s.dtx_hangover - 1

theorem dtx_keepalive_pos (s : Sender) : 0 < s.dtx_keepalive := by
  unfold dtx_keepalive
  omega

/-- The keep-alive interval is 400 ms, or one frame where a frame is longer. -/
theorem keepalive_le (hpos : 0 < s.frame) :
    s.dtx_keepalive * s.frame ≤ max (DTX_KEEPALIVE_MS * 48) s.frame := by
  unfold dtx_keepalive
  rw [Nat.max_eq_left (show 1 ≤ s.frame from hpos)]
  have hdiv := Nat.div_mul_le_self (DTX_KEEPALIVE_MS * 48) s.frame
  by_cases hone : DTX_KEEPALIVE_MS * 48 / s.frame ≤ 1
  · rw [Nat.max_eq_right hone, Nat.one_mul]
    exact le_max_right _ _
  · rw [Nat.max_eq_left (by omega)]
    exact hdiv.trans (le_max_left _ _)

theorem begun_codec (s : Sender) (inp : FrameInput) : (s.begun inp).codec = s.codec :=
  (begun_rest s inp).2.1

theorem begun_frame (s : Sender) (inp : FrameInput) : (s.begun inp).frame = s.frame :=
  (refresh_targets_rest s).2.1

theorem begun_silent_frames (s : Sender) (inp : FrameInput) :
    (s.begun inp).silent_frames = if inp.is_silent then s.silent_frames + 1 else 0 := by
  have hrest : s.refresh_targets.silent_frames = s.silent_frames := by
    unfold refresh_targets
    by_cases hseen : s.seen_generation = some s.generation
    · rw [if_pos hseen]
    · rw [if_neg hseen]
  show (if inp.is_silent then s.refresh_targets.silent_frames + 1 else 0) = _
  rw [hrest]

theorem dtx_hangover_congr {s s' : Sender} (h : s'.frame = s.frame) :
    s'.dtx_hangover = s.dtx_hangover := by
  unfold dtx_hangover
  rw [h]

theorem dtx_keepalive_congr {s s' : Sender} (h : s'.frame = s.frame) :
    s'.dtx_keepalive = s.dtx_keepalive := by
  unfold dtx_keepalive
  rw [h]

theorem in_dtx_iff : s.in_dtx = true ↔ s.codec = .Opus ∧ s.dtx_hangover < s.silent_frames := by
  unfold in_dtx
  rw [Bool.and_eq_true, decide_eq_true_eq, decide_eq_true_eq]

theorem dtx_signal_iff :
    s.dtx_signal = true ↔
      s.in_dtx = true ∧
        (s.quiet_frames < DTX_SIGNAL_FRAMES ∨ s.quiet_frames % s.dtx_keepalive = 0) := by
  unfold dtx_signal
  rw [Bool.and_eq_true, Bool.or_eq_true, decide_eq_true_eq, decide_eq_true_eq]
  rfl

/-- A frame in DTX is the first one of its silence, which is signalled, or comes right after
another one. -/
theorem in_dtx_begun (h : (s.begun inp).in_dtx = true) :
    (s.begun inp).quiet_frames = 0 ∨
      s.in_dtx = true ∧ (s.begun inp).quiet_frames = s.quiet_frames + 1 := by
  obtain ⟨hopus, hover⟩ := in_dtx_iff.1 h
  rw [begun_codec] at hopus
  have hhang : (s.begun inp).dtx_hangover = s.dtx_hangover :=
    dtx_hangover_congr (begun_frame s inp)
  have hcount := begun_silent_frames s inp
  unfold quiet_frames
  rw [hhang] at hover ⊢
  by_cases hsilent : inp.is_silent = true
  · rw [if_pos hsilent] at hcount
    by_cases hfirst : s.dtx_hangover < s.silent_frames
    · exact .inr ⟨in_dtx_iff.2 ⟨hopus, hfirst⟩, by omega⟩
    · exact .inl (by omega)
  · rw [if_neg hsilent] at hcount
    omega

/-! ## 3. One frame of one receiver -/

/-- A receiver's conditions in a frame: it is subscribed, nobody else sends on its line, it is not
muted, its transport takes what it is sent, and the encoder, if it is asked, makes a packet of it.
An encoder writes at most `MAX_MEDIA_PAYLOAD` bytes. -/
structure Serves (e : Entry) (s : Sender) (inp : FrameInput) : Prop where
  subscribed : e ∈ s.entries
  alone : ∀ e' ∈ s.entries, e'.line = e.line → e' = e
  unmuted : inp.muted e.id = false
  sends : inp.send_ok e.id = true
  encoded : s.encodes inp = true →
    ∃ packet, inp.encoded = some packet ∧ packet.length ≤ MAX_MEDIA_PAYLOAD

/-- A receiver that is sent no audio in this frame: it understands that the sender is in DTX. -/
def hushes (s : Sender) (inp : FrameInput) (e : Entry) : Bool :=
  (s.begun inp).in_dtx && e.subscriber.dtx

variable {e : Entry}

/-- The frame is built and offered to every target. -/
theorem Serves.frame (h : Serves e s inp) (hread : s.Read) :
    ∃ packet, packet.length ≤ MAX_MEDIA_PAYLOAD ∧
      s.encode_frame inp =
        (s.begun inp).send_frame ((s.begun inp).frame_of s.timestamp s.seq packet) inp := by
  by_cases hencodes : s.encodes inp = true
  · obtain ⟨packet, hpacket, hlen⟩ := h.encoded hencodes
    exact ⟨packet, hlen, encode_frame_audio hencodes hpacket⟩
  · have htargets : (s.begun inp).targets.isEmpty = false := by
      rw [List.isEmpty_eq_false_iff]
      intro hnil
      have hentries := hread.refresh
      change s.refresh_targets.targets = [] at hnil
      rw [hnil] at hentries
      have hmem := h.subscribed
      rw [← hentries] at hmem
      exact List.not_mem_nil hmem
    unfold encodes at hencodes
    rw [htargets, Bool.not_false, Bool.true_and] at hencodes
    exact ⟨[], Nat.zero_le _, encode_frame_silence htargets (Bool.eq_false_iff.2 hencodes)⟩

theorem encodable_audio {s : Sender} {ts : Nat} {seq : UInt32} {packet : Bytes} {copy : Bool}
    (hlen : packet.length ≤ MAX_MEDIA_PAYLOAD)
    (hcopy : copy = true → 2 + packet.length + s.previous.length ≤ MAX_MEDIA_PAYLOAD) :
    (s.build_packet ts seq packet false copy).encodable = true := by
  unfold MediaPacket.encodable
  rw [decide_eq_true_eq]
  show (audio_payload packet s.previous copy).length ≤ MAX_MEDIA_PAYLOAD
  unfold audio_payload
  by_cases hc : copy = true
  · rw [if_pos hc, List.length_cons, List.length_cons, List.length_append]
    have hsize := hcopy hc
    omega
  · rw [if_neg hc]
    exact hlen

/-- A packet that is built for an unmuted target and fits goes out. -/
theorem send_target_takes {f : Frame} {t : Target} {p : MediaPacket}
    (hm : inp.muted t.id = false) (hok : inp.send_ok t.id = true)
    (hdue : (f.dtx && t.dtx && !f.dtx_signal) = false)
    (hp : s.build_packet f.ts f.seq f.packet (f.dtx && t.dtx)
      (!(f.dtx && t.dtx) && f.can_add_redundancy && inp.redundancy t.id) = p)
    (hfits : p.encodable = true) :
    (s.send_target f inp t).2 = some { sink := t.sink, packet := patch t p } := by
  unfold send_target
  dsimp only
  rw [hm, if_neg Bool.false_ne_true, hdue, if_neg Bool.false_ne_true, hp, hfits,
    if_neg (by decide), if_pos hok]

/-- What a receiver is sent in a frame: audio, unless it understands that the sender is in DTX;
then a packet without payload if one is due, and otherwise nothing. -/
theorem send_target_served {ts : Nat} {seq : UInt32} {packet : Bytes} {t : Target}
    (hm : inp.muted t.id = false) (hok : inp.send_ok t.id = true)
    (hlen : packet.length ≤ MAX_MEDIA_PAYLOAD) :
    if (s.in_dtx && t.dtx) = true ∧ s.dtx_signal = false then
      (s.send_target (s.frame_of ts seq packet) inp t).2 = none
    else ∃ d, (s.send_target (s.frame_of ts seq packet) inp t).2 = some d ∧ d.line = t.line ∧
      d.ts = ts ∧ d.dtx = (s.in_dtx && t.dtx) ∧ (d.dtx = true → d.packet.payload = []) := by
  have hdtx : (s.frame_of ts seq packet).dtx = s.in_dtx := rfl
  have hsignal : (s.frame_of ts seq packet).dtx_signal = s.dtx_signal := rfl
  by_cases hunsent : (s.in_dtx && t.dtx) = true ∧ s.dtx_signal = false
  · rw [if_pos hunsent]
    unfold send_target
    dsimp only
    rw [hm, if_neg Bool.false_ne_true, hdtx, hsignal, hunsent.1, hunsent.2, if_pos (by decide)]
  rw [if_neg hunsent]
  have hdue : ((s.frame_of ts seq packet).dtx && t.dtx && !(s.frame_of ts seq packet).dtx_signal) =
      false := by
    rw [hdtx, hsignal]
    by_contra hno
    rw [Bool.not_eq_false, Bool.and_eq_true, Bool.not_eq_true'] at hno
    exact hunsent hno
  by_cases hquiet : (s.in_dtx && t.dtx) = true
  · -- the header alone
    have hpacket : s.build_packet ts seq packet ((s.frame_of ts seq packet).dtx && t.dtx)
        (!((s.frame_of ts seq packet).dtx && t.dtx) &&
          (s.frame_of ts seq packet).can_add_redundancy && inp.redundancy t.id) =
        s.build_packet ts seq packet true false := by
      rw [hdtx, hquiet, Bool.not_true, Bool.false_and, Bool.false_and]
    refine ⟨_, send_target_takes hm hok hdue hpacket rfl, rfl, rfl, ?_, fun _ => rfl⟩
    rw [hquiet]
    unfold Datagram.dtx
    rw [contains_patch t _ (by decide) (by decide)]
    show (MediaFlags.empty.with_flag MediaFlags.DTX).contains MediaFlags.DTX = true
    decide
  · have hloud : (s.in_dtx && t.dtx) = false := Bool.eq_false_iff.2 hquiet
    have hpacket : s.build_packet ts seq packet ((s.frame_of ts seq packet).dtx && t.dtx)
        (!((s.frame_of ts seq packet).dtx && t.dtx) &&
          (s.frame_of ts seq packet).can_add_redundancy && inp.redundancy t.id) =
        s.build_packet ts seq packet false
          ((s.frame_of ts seq packet).can_add_redundancy && inp.redundancy t.id) := by
      rw [hdtx, hloud, Bool.not_false, Bool.true_and]
    -- A copy is added only where it fits, so the packet can be encoded with or without it.
    have hfits : (s.build_packet ts seq packet false
        ((s.frame_of ts seq packet).can_add_redundancy && inp.redundancy t.id)).encodable = true :=
      encodable_audio hlen fun hcopy =>
        (can_add_redundancy_iff.1 (Bool.and_eq_true_iff.1 hcopy).1).2.2.2
    have hflag : (patch t (s.build_packet ts seq packet false
        ((s.frame_of ts seq packet).can_add_redundancy &&
          inp.redundancy t.id))).header.flags.contains MediaFlags.DTX = false := by
      rw [contains_patch t _ (by decide) (by decide)]
      show (if _ then MediaFlags.empty.with_flag MediaFlags.REDUNDANT
        else MediaFlags.empty).contains MediaFlags.DTX = false
      by_cases hcopy : ((s.frame_of ts seq packet).can_add_redundancy &&
          inp.redundancy t.id) = true
      · rw [if_pos hcopy]
        decide
      · rw [if_neg hcopy]
        decide
    refine ⟨_, send_target_takes hm hok hdue hpacket hfits, rfl, rfl, hflag.trans hloud.symm, ?_⟩
    intro htrue
    exact absurd (hflag.symm.trans htrue) Bool.false_ne_true

/-- When every target sends on its own line, a line's datagrams are those of the targets on it. -/
theorem on_line_filterMap {turn : Target → Option Datagram}
    (hline : ∀ t d, turn t = some d → d.line = t.line) (l : Line) (targets : List Target) :
    on_line (targets.filterMap turn) l =
      (targets.filter (fun t => t.line = l)).filterMap turn := by
  unfold on_line
  induction targets with
  | nil => rfl
  | cons t targets ih =>
      by_cases hl : t.line = l
      · rw [List.filter_cons_of_pos (by simpa using hl)]
        rcases hturn : turn t with - | d
        · rw [List.filterMap_cons_none hturn, List.filterMap_cons_none hturn, ih]
        · rw [List.filterMap_cons_some hturn, List.filterMap_cons_some hturn,
            List.filter_cons_of_pos (by simpa using (hline t d hturn).trans hl), ih]
      · rw [List.filter_cons_of_neg (by simpa using hl)]
        rcases hturn : turn t with - | d
        · rw [List.filterMap_cons_none hturn, ih]
        · rw [List.filterMap_cons_some hturn,
            List.filter_cons_of_neg (by simpa using (hline t d hturn).trans_ne hl), ih]

/-- The datagrams of a frame on a line come from the targets on it. -/
theorem on_line_of_targets (s : Sender) (f : Frame) (inp : FrameInput) (l : Line) :
    on_line (s.send_frame f inp).2 l =
      (s.targets.filter (fun t => t.line = l)).filterMap (fun t => (s.send_target f inp t).2) := by
  show on_line ((s.targets.map (s.send_target f inp)).filterMap Prod.snd) l = _
  rw [List.filterMap_map]
  refine on_line_filterMap (fun t d hd => ?_) l s.targets
  rcases (send_target_cases s f inp t).2.2 with ⟨hnone, _⟩ | ⟨d', hd', hline, _⟩
  · cases hnone.symm.trans hd
  · rw [← Option.some.inj (hd'.symm.trans hd)]
    exact hline

/-- The receiver has one target. -/
theorem Serves.target (h : Serves e s inp) (hread : s.Read) :
    ∃ t, t.entry = e ∧ (s.begun inp).targets.filter (fun t => t.line = e.line) = [t] := by
  have hentries : s.entries.filter (fun e' => e'.line = e.line) = [e] := by
    have honly : s.entries.filter (fun e' => decide (e'.line = e.line)) =
        s.entries.filter (fun e' => e' == e) := by
      refine List.filter_congr (fun e' he' => ?_)
      by_cases heq : e' = e
      · rw [heq, beq_self_eq_true, decide_eq_true rfl]
      · rw [beq_eq_false_iff_ne.2 heq, decide_eq_false (fun hl => heq (h.alone e' he' hl))]
    have hnodup : s.entries.Nodup := List.Nodup.of_map _ hread.ids_nodup
    rw [honly, List.filter_beq, List.count_eq_one_of_mem hnodup h.subscribed]
    rfl
  have hmap : ((s.begun inp).targets.filter (fun t => t.line = e.line)).map Target.entry = [e] := by
    rw [← hentries, ← hread.refresh, List.filter_map]
    rfl
  obtain ⟨t, ht, hentry⟩ := List.map_eq_singleton_iff.1 hmap
  exact ⟨t, hentry, ht⟩

/-- What goes out on the receiver's line in a frame. -/
theorem Serves.sent (h : Serves e s inp) (hread : s.Read) :
    if s.hushes inp e = true ∧ (s.begun inp).dtx_signal = false then
      on_line (s.encode_frame inp).2 e.line = []
    else ∃ d, on_line (s.encode_frame inp).2 e.line = [d] ∧ d.ts = s.timestamp ∧
      d.dtx = s.hushes inp e ∧ (d.dtx = true → d.packet.payload = []) := by
  obtain ⟨packet, hlen, hframe⟩ := h.frame hread
  obtain ⟨t, hentry, htargets⟩ := h.target hread
  have hid : t.id = e.id := congrArg Entry.id hentry
  have hdtx : t.dtx = e.subscriber.dtx := congrArg (fun e => e.subscriber.dtx) hentry
  have hturn := @send_target_served (s.begun inp) inp s.timestamp s.seq packet t
    (hid ▸ h.unmuted) (hid ▸ h.sends) hlen
  rw [hframe, on_line_of_targets, htargets]
  unfold hushes
  rw [hdtx] at hturn
  by_cases hunsent : ((s.begun inp).in_dtx && e.subscriber.dtx) = true ∧
      (s.begun inp).dtx_signal = false
  · rw [if_pos hunsent] at hturn ⊢
    exact List.filterMap_cons_none hturn
  · rw [if_neg hunsent] at hturn ⊢
    obtain ⟨d, hd, _, hts, hflag, hpayload⟩ := hturn
    exact ⟨d, List.filterMap_cons_some hd, hts, hflag, hpayload⟩

/-! ## 4. A stretch of a run -/

/-- A receiver's conditions hold in every frame of a stretch, and it stays subscribed between
them. -/
def Served (e : Entry) (s : Sender) : SenderOp → Prop
  | .frame inp => Serves e s inp
  | _ => e ∈ s.entries

/-- The timestamps of the frames of a stretch. -/
def frames (seg : List (Sender × SenderOp)) : List Nat :=
  seg.filterMap fun p =>
    match p.2 with
    | .frame _ => some p.1.timestamp
    | _ => none

/-- What a receiver was sent in a stretch, oldest first. -/
def sent_to (e : Entry) (seg : List (Sender × SenderOp)) : List Datagram :=
  seg.flatMap fun p =>
    match p.2 with
    | .frame inp => on_line (p.1.encode_frame inp).2 e.line
    | _ => []

variable {seg : List (Sender × SenderOp)}

theorem frames_append (seg : List (Sender × SenderOp)) (s : Sender) (inp : FrameInput) :
    frames (seg ++ [(s, .frame inp)]) = frames seg ++ [s.timestamp] := by
  unfold frames
  rw [List.filterMap_append]
  rfl

theorem sent_to_append (e : Entry) (seg : List (Sender × SenderOp)) (s : Sender)
    (inp : FrameInput) :
    sent_to e (seg ++ [(s, .frame inp)]) =
      sent_to e seg ++ on_line (s.encode_frame inp).2 e.line := by
  unfold sent_to
  rw [List.flatMap_append, List.flatMap_singleton]

/-- Frames since the receiver's last datagram, at most: in DTX the signals come at the positions
that `dtx_keepalive` divides. -/
def since_signal (s : Sender) : Nat :=
  if s.in_dtx then s.quiet_frames % s.dtx_keepalive else 0

/-- What a receiver has heard of a stretch. -/
structure Heard (e : Entry) (seg : List (Sender × SenderOp)) (s : Sender) : Prop where
  past : ∀ ts ∈ frames seg, ts < s.timestamp
  framed : ∀ d ∈ sent_to e seg, d.ts ∈ frames seg
  spaced : (sent_to e seg).IsChain
    (fun d d' => d.ts < d'.ts ∧ d'.ts ≤ d.ts + s.dtx_keepalive * s.frame)
  recent : ∀ d ∈ (sent_to e seg).getLast?, s.timestamp ≤ d.ts + (s.since_signal + 1) * s.frame
  /-- a silence that goes on was announced after the last audio -/
  marked : s.in_dtx = true → e.subscriber.dtx = true →
    ∀ a ∈ sent_to e seg, a.dtx = false → ∃ d ∈ sent_to e seg, d.dtx = true ∧ a.ts < d.ts
  covered : ∀ a ∈ sent_to e seg, a.dtx = false → ∀ ts ∈ frames seg, a.ts < ts →
    (∀ d ∈ sent_to e seg, d.ts ≠ ts) →
      ∃ d ∈ sent_to e seg, d.dtx = true ∧ a.ts < d.ts ∧ d.ts ≤ ts
  full : e.subscriber.dtx = false →
    ∀ ts ∈ frames seg, ∃ d ∈ sent_to e seg, d.ts = ts ∧ d.dtx = false
  /-- a DTX packet is its header alone -/
  bare : ∀ d ∈ sent_to e seg, d.dtx = true → d.packet.payload = []

theorem encode_frame_clock (s : Sender) (inp : FrameInput) :
    (s.encode_frame inp).1.in_dtx = (s.begun inp).in_dtx ∧
      (s.encode_frame inp).1.quiet_frames = (s.begun inp).quiet_frames := by
  rcases encode_frame_cases s inp with ⟨previous, h⟩ | ⟨f, -, -, -, h⟩
  · rw [h]
    exact ⟨rfl, rfl⟩
  · rw [h]
    exact ⟨rfl, rfl⟩

theorem since_signal_lt (s : Sender) : s.since_signal < s.dtx_keepalive := by
  have hpos := s.dtx_keepalive_pos
  unfold since_signal
  by_cases hdtx : s.in_dtx = true
  · rw [if_pos hdtx]
    exact Nat.mod_lt _ hpos
  · rw [if_neg hdtx]
    exact hpos

/-- Away from a multiple, the remainder counts on. -/
theorem succ_mod_of_ne_zero {n k : Nat} (hk : 0 < k) (h : (n + 1) % k ≠ 0) :
    (n + 1) % k = n % k + 1 := by
  have hlt := Nat.mod_lt n hk
  rw [← Nat.mod_add_mod] at h ⊢
  by_cases hlast : n % k + 1 = k
  · rw [hlast, Nat.mod_self] at h
    exact absurd rfl h
  · exact Nat.mod_eq_of_lt (by omega)

/-- A frame that is not signalled is one further from the last signal, and its silence has begun
before. -/
theorem since_signal_unsent (h : (s.begun inp).in_dtx = true)
    (hno : (s.begun inp).dtx_signal = false) :
    s.in_dtx = true ∧ (s.encode_frame inp).1.since_signal = s.since_signal + 1 := by
  have hsignal : ¬ ((s.begun inp).quiet_frames < DTX_SIGNAL_FRAMES ∨
      (s.begun inp).quiet_frames % (s.begun inp).dtx_keepalive = 0) := by
    intro hdue
    rw [dtx_signal_iff.2 ⟨h, hdue⟩] at hno
    cases hno
  rw [not_or, dtx_keepalive_congr (begun_frame s inp)] at hsignal
  obtain ⟨hlate, hmod⟩ := hsignal
  rcases in_dtx_begun h with hfirst | ⟨hbefore, hnext⟩
  · rw [hfirst] at hlate
    exact absurd (by decide) hlate
  obtain ⟨hdtx, hquiet⟩ := encode_frame_clock s inp
  obtain ⟨_, hframe, _⟩ := encode_frame_group s inp
  refine ⟨hbefore, ?_⟩
  unfold since_signal
  rw [hdtx, if_pos h, hquiet, dtx_keepalive_congr hframe, hbefore, if_pos rfl, hnext]
  rw [hnext] at hmod
  exact succ_mod_of_ne_zero s.dtx_keepalive_pos hmod

/-- Nothing is sent to the receiver in a frame of a silence that it was told of. -/
theorem Heard.unsent (h : Heard e seg s) (hpos : 0 < s.frame)
    (hnone : on_line (s.encode_frame inp).2 e.line = [])
    (hhush : s.hushes inp e = true) (hno : (s.begun inp).dtx_signal = false) :
    Heard e (seg ++ [(s, .frame inp)]) (s.encode_frame inp).1 := by
  obtain ⟨hdtx, hunderstands⟩ := Bool.and_eq_true_iff.1 hhush
  obtain ⟨hbefore, hsince⟩ := since_signal_unsent hdtx hno
  obtain ⟨_, hframe, _, hclock, _⟩ := encode_frame_group s inp
  have hsent : sent_to e (seg ++ [(s, .frame inp)]) = sent_to e seg := by
    rw [sent_to_append, hnone, List.append_nil]
  constructor
  case past =>
    intro ts hts
    rw [hclock]
    rw [frames_append] at hts
    rcases List.mem_append.1 hts with hts | hts
    · have hlt := h.past ts hts
      omega
    · rw [List.mem_singleton.1 hts]
      omega
  case framed =>
    intro d hd
    rw [hsent] at hd
    rw [frames_append]
    exact List.mem_append_left _ (h.framed d hd)
  case spaced =>
    rw [hsent, hframe, dtx_keepalive_congr hframe]
    exact h.spaced
  case recent =>
    intro d hd
    rw [hsent] at hd
    rw [hclock, hframe, hsince, Nat.add_mul (s.since_signal + 1), Nat.one_mul]
    have hle := h.recent d hd
    omega
  case marked =>
    intro _ _
    rw [hsent]
    exact h.marked hbefore hunderstands
  case covered =>
    intro a ha haudio ts hts hlt hunsent
    rw [hsent] at ha hunsent ⊢
    rw [frames_append] at hts
    rcases List.mem_append.1 hts with hts | hts
    · exact h.covered a ha haudio ts hts hlt hunsent
    · -- this very frame: the silence was announced after `a`
      obtain ⟨d, hd, hflag, hafter⟩ := h.marked hbefore hunderstands a ha haudio
      have hle := h.past d.ts (h.framed d hd)
      rw [List.mem_singleton.1 hts]
      exact ⟨d, hd, hflag, hafter, hle.le⟩
  case full =>
    intro hlegacy
    rw [hlegacy] at hunderstands
    cases hunderstands
  case bare =>
    rw [hsent]
    exact h.bare

/-- The receiver is sent a datagram in a frame. -/
theorem Heard.sent (h : Heard e seg s) (hpos : 0 < s.frame) {d : Datagram}
    (hone : on_line (s.encode_frame inp).2 e.line = [d]) (hts : d.ts = s.timestamp)
    (hflag : d.dtx = s.hushes inp e) (hbare : d.dtx = true → d.packet.payload = []) :
    Heard e (seg ++ [(s, .frame inp)]) (s.encode_frame inp).1 := by
  obtain ⟨_, hframe, _, hclock, _⟩ := encode_frame_group s inp
  have hsent : sent_to e (seg ++ [(s, .frame inp)]) = sent_to e seg ++ [d] := by
    rw [sent_to_append, hone]
  -- The timeline never goes back, so what is sent now is later than all that was sent before.
  have hbefore : ∀ a ∈ sent_to e seg, a.ts < d.ts := by
    intro a ha
    rw [hts]
    exact h.past a.ts (h.framed a ha)
  have hmem : d ∈ sent_to e seg ++ [d] := List.mem_append_right _ (List.mem_singleton_self d)
  constructor
  case past =>
    intro ts hin
    rw [hclock]
    rw [frames_append] at hin
    rcases List.mem_append.1 hin with hin | hin
    · have hlt := h.past ts hin
      omega
    · rw [List.mem_singleton.1 hin]
      omega
  case framed =>
    intro a ha
    rw [hsent] at ha
    rw [frames_append]
    rcases List.mem_append.1 ha with ha | ha
    · exact List.mem_append_left _ (h.framed a ha)
    · rw [List.mem_singleton.1 ha, hts]
      exact List.mem_append_right _ (List.mem_singleton_self _)
  case spaced =>
    rw [hsent, hframe, dtx_keepalive_congr hframe]
    refine List.isChain_append.2 ⟨h.spaced, List.isChain_singleton d, ?_⟩
    intro a ha b hb
    obtain rfl := Option.some.inj hb
    refine ⟨hbefore a (List.mem_of_getLast? ha), ?_⟩
    rw [hts]
    refine (h.recent a ha).trans (Nat.add_le_add_left (Nat.mul_le_mul_right _ ?_) _)
    exact s.since_signal_lt
  case recent =>
    intro a ha
    rw [hsent, List.getLast?_concat] at ha
    rw [← Option.some.inj ha, hts, hclock, hframe]
    exact Nat.add_le_add_left (Nat.le_mul_of_pos_left _ (Nat.succ_pos _)) _
  case marked =>
    intro hdtx hunderstands a ha haudio
    rw [(encode_frame_clock s inp).1] at hdtx
    have hquiet : d.dtx = true := by
      rw [hflag]
      unfold hushes
      rw [hdtx, hunderstands]
      rfl
    rw [hsent] at ha ⊢
    rcases List.mem_append.1 ha with ha | ha
    · exact ⟨d, hmem, hquiet, hbefore a ha⟩
    · rw [List.mem_singleton.1 ha, hquiet] at haudio
      cases haudio
  case covered =>
    intro a ha haudio ts hin hlt hunsent
    rw [hsent] at ha hunsent ⊢
    rw [frames_append] at hin
    rcases List.mem_append.1 hin with hin | hin
    · rcases List.mem_append.1 ha with ha | ha
      · obtain ⟨d', hd', hfound⟩ := h.covered a ha haudio ts hin hlt
          (fun x hx => hunsent x (List.mem_append_left _ hx))
        exact ⟨d', List.mem_append_left _ hd', hfound⟩
      · rw [List.mem_singleton.1 ha, hts] at hlt
        have hpast := h.past ts hin
        omega
    · exact absurd (hts.trans (List.mem_singleton.1 hin).symm) (hunsent d hmem)
  case full =>
    intro hlegacy ts hin
    rw [hsent]
    rw [frames_append] at hin
    rcases List.mem_append.1 hin with hin | hin
    · obtain ⟨a, ha, hfound⟩ := h.full hlegacy ts hin
      exact ⟨a, List.mem_append_left _ ha, hfound⟩
    · refine ⟨d, hmem, hts.trans (List.mem_singleton.1 hin).symm, ?_⟩
      rw [hflag]
      unfold hushes
      rw [hlegacy, Bool.and_false]
  case bare =>
    intro a ha
    rw [hsent] at ha
    rcases List.mem_append.1 ha with ha | ha
    · exact h.bare a ha
    · rw [List.mem_singleton.1 ha]
      exact hbare

theorem Heard.frame (h : Heard e seg s) (hpos : 0 < s.frame) (hread : s.Read)
    (hserves : Serves e s inp) :
    Heard e (seg ++ [(s, .frame inp)]) (s.encode_frame inp).1 := by
  have hturn := hserves.sent hread
  by_cases hunsent : s.hushes inp e = true ∧ (s.begun inp).dtx_signal = false
  · rw [if_pos hunsent] at hturn
    exact h.unsent hpos hturn hunsent.1 hunsent.2
  · rw [if_neg hunsent] at hturn
    obtain ⟨d, hone, hts, hflag, hbare⟩ := hturn
    exact h.sent hpos hone hts hflag hbare

/-- What is not a frame leaves the clock, the silence and what was sent. -/
theorem Heard.aside (h : Heard e seg s) {op : SenderOp} {s' : Sender}
    (hframes : frames (seg ++ [(s, op)]) = frames seg)
    (hsent : sent_to e (seg ++ [(s, op)]) = sent_to e seg) (hclock : s'.timestamp = s.timestamp)
    (hframe : s'.frame = s.frame) (hcodec : s'.codec = s.codec)
    (hsilent : s'.silent_frames = s.silent_frames) : Heard e (seg ++ [(s, op)]) s' := by
  have hkeepalive := dtx_keepalive_congr hframe
  have hdtx : s'.in_dtx = s.in_dtx := by
    unfold in_dtx
    rw [hcodec, hsilent, dtx_hangover_congr hframe]
  have hsince : s'.since_signal = s.since_signal := by
    unfold since_signal quiet_frames
    rw [hdtx, hsilent, hkeepalive, dtx_hangover_congr hframe]
  constructor
  case past =>
    rw [hframes, hclock]
    exact h.past
  case framed =>
    rw [hframes, hsent]
    exact h.framed
  case spaced =>
    rw [hsent, hkeepalive, hframe]
    exact h.spaced
  case recent =>
    rw [hsent, hclock, hsince, hframe]
    exact h.recent
  case marked =>
    rw [hsent, hdtx]
    exact h.marked
  case covered =>
    rw [hframes, hsent]
    exact h.covered
  case full =>
    rw [hframes, hsent]
    exact h.full
  case bare =>
    rw [hsent]
    exact h.bare

theorem frames_aside (seg : List (Sender × SenderOp)) (s : Sender) {op : SenderOp}
    (h : ∀ inp, op ≠ .frame inp) : frames (seg ++ [(s, op)]) = frames seg := by
  unfold frames
  rw [List.filterMap_append]
  match op with
  | .subscribe _ | .unsubscribe _ => exact List.append_nil _
  | .frame inp => exact absurd rfl (h inp)

theorem sent_to_aside (e : Entry) (seg : List (Sender × SenderOp)) (s : Sender) {op : SenderOp}
    (h : ∀ inp, op ≠ .frame inp) : sent_to e (seg ++ [(s, op)]) = sent_to e seg := by
  unfold sent_to
  rw [List.flatMap_append]
  match op with
  | .subscribe _ | .unsubscribe _ => exact List.append_nil _
  | .frame inp => exact absurd rfl (h inp)

variable {tr : List (Sender × SenderOp)}

theorem run_frame_pos (hr : machine.Run tr s) : 0 < s.frame := by
  refine hr.invariant (P := fun s => 0 < s.frame) ?_ ?_
  · rintro s ⟨codec, frame, hpos, rfl⟩
    exact hpos
  · intro s op hpos _
    match op with
    | .subscribe _ | .unsubscribe _ => exact hpos
    | .frame inp =>
        show 0 < (s.encode_frame inp).1.frame
        rw [(encode_frame_group s inp).2.1]
        exact hpos

theorem run_heard (hr : machine.Run (tr ++ seg) s) (hserved : Machine.Meets (Served e) seg) :
    Heard e seg s := by
  refine hr.stretch (P := fun seg s => Machine.Meets (Served e) seg → Heard e seg s) ?_ ?_ hserved
  · intro s₀ _ _
    exact ⟨nofun, nofun, List.isChain_nil, nofun, fun _ _ => nofun, nofun, fun _ => nofun, nofun⟩
  · intro seg s op hrun _ ih hserved
    have hheard := ih fun p hp => hserved p (List.mem_append_left _ hp)
    have hlast := hserved (s, op) (List.mem_append_right _ (List.mem_singleton_self _))
    match op with
    | .subscribe sub =>
        exact hheard.aside (frames_aside seg s nofun) (sent_to_aside e seg s nofun) rfl rfl rfl rfl
    | .unsubscribe id =>
        exact hheard.aside (frames_aside seg s nofun) (sent_to_aside e seg s nofun) rfl rfl rfl rfl
    | .frame inp => exact hheard.frame (run_frame_pos hrun) (run_read hrun) hlast

/-- **DTX hides no audio.** In every stretch of a run in which a receiver stays subscribed and
unmuted, whatever the signal, its transport takes what it is sent and the encoder does not fail: a
receiver without DTX is sent every frame as audio; a frame after an audio datagram that is not sent
lies at or after a DTX packet that was; and from one datagram to the next it is at most the
keep-alive interval of 400 ms, or one frame if frames are longer. -/
theorem dtx_hides_no_audio (hr : machine.Run (tr ++ seg) s)
    (hserved : Machine.Meets (Served e) seg) :
    (e.subscriber.dtx = false →
      ∀ ts ∈ frames seg, ∃ d ∈ sent_to e seg, d.ts = ts ∧ d.dtx = false) ∧
    (∀ a ∈ sent_to e seg, a.dtx = false → ∀ ts ∈ frames seg, a.ts < ts →
      (∀ d ∈ sent_to e seg, d.ts ≠ ts) →
        ∃ d ∈ sent_to e seg, d.dtx = true ∧ d.packet.payload = [] ∧ a.ts < d.ts ∧ d.ts ≤ ts) ∧
    (sent_to e seg).IsChain
      (fun d d' => d.ts < d'.ts ∧ d'.ts ≤ d.ts + max (DTX_KEEPALIVE_MS * 48) s.frame) := by
  have hheard := run_heard hr hserved
  refine ⟨hheard.full, ?_, ?_⟩
  · intro a ha haudio ts hts hlt hunsent
    obtain ⟨d, hd, hflag, hafter, hle⟩ := hheard.covered a ha haudio ts hts hlt hunsent
    exact ⟨d, hd, hflag, hheard.bare d hd hflag, hafter, hle⟩
  · refine hheard.spaced.imp fun d d' hspaced => ⟨hspaced.1, hspaced.2.trans ?_⟩
    exact Nat.add_le_add_left (keepalive_le (run_frame_pos hr)) _

/-! ## 5. A pause in speech -/

/-- One frame of speech or of silence. -/
def heard (is_silent : Bool) : FrameInput := { Capture.audible with is_silent := is_silent }

def dtx_listener : Entry := { id := 0, subscriber := { route := 1, sink := 7, dtx := true } }

/-- Speech, a second of silence and speech again, in frames of 20 ms. -/
def pause_ops : List SenderOp :=
  (false :: (List.replicate 50 true ++ [false])).map fun silent => .frame (heard silent)

def stable_sender : Sender := ((start .Opus 960).subscribe dtx_listener.subscriber).1

/-- The only subscriber of a group is served whatever the group captures. -/
theorem only_subscriber_served (silents : List Bool) (s : Sender) (h : s.entries = [dtx_listener]) :
    Machine.Meets (Served dtx_listener)
      (machine.trace s (silents.map fun silent => .frame (heard silent))) := by
  induction silents generalizing s with
  | nil => nofun
  | cons silent silents ih =>
      intro p hp
      rcases List.mem_cons.1 hp with rfl | hp
      · refine ⟨?_, ?_, rfl, rfl, fun _ => ⟨[1], rfl, by decide⟩⟩
        · rw [h]
          exact List.mem_singleton_self _
        · intro e he _
          rw [h] at he
          exact List.mem_singleton.1 he
      · refine ih (s.encode_frame (heard silent)).1 ?_ p hp
        rw [(encode_frame_group s (heard silent)).1]
        exact h

theorem dtx_hides_no_audio_pause :
    (sent_to dtx_listener (machine.trace stable_sender pause_ops)).length = 15 ∧
    (∀ a ∈ sent_to dtx_listener (machine.trace stable_sender pause_ops), a.dtx = false →
      ∀ ts ∈ frames (machine.trace stable_sender pause_ops), a.ts < ts →
        (∀ d ∈ sent_to dtx_listener (machine.trace stable_sender pause_ops), d.ts ≠ ts) →
          ∃ d ∈ sent_to dtx_listener (machine.trace stable_sender pause_ops),
            d.dtx = true ∧ d.packet.payload = [] ∧ a.ts < d.ts ∧ d.ts ≤ ts) := by
  have hstart : machine.init (start .Opus 960) := ⟨.Opus, 960, by decide, rfl⟩
  have hrun : machine.Run
      ([(start .Opus 960, .subscribe dtx_listener.subscriber)] ++
        machine.trace stable_sender pause_ops) (machine.exec stable_sender pause_ops) :=
    (Machine.Run.next (.start hstart) trivial).extend (admits_all stable_sender pause_ops)
  exact ⟨by decide,
    (dtx_hides_no_audio hrun (only_subscriber_served _ stable_sender rfl)).2.1⟩

end Sender

end SoundPush
