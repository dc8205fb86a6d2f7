/-
`Framing` -- length-prefixed framing for reliable streams, from
`sp-protocol/src/framing.rs`.

QUIC control streams carry `u32 length | payload`; the TCP stream carries
`kind u8 | u32 length | payload`. Both decoders keep what they have not used in a
buffer, and the reading loops (`sp-transport/src/tcp.rs`, `connection.rs`) feed
them a read and take frames until none is complete or the stream is corrupt;
that loop is `Decoder.read`.
-/
import SoundPush.Lib.Framing
import SoundPush.Protocol.Media

set_option autoImplicit false

namespace SoundPush

/-- Maximum control frame size (64 KiB). -/
def MAX_CONTROL_FRAME : Nat := 64 * 1024

/-- Maximum media frame size on stream transports (what receivers accept). -/
def MAX_MEDIA_FRAME : Nat := MEDIA_HEADER_LEN + MAX_ACCEPTED_MEDIA_PAYLOAD

/-- Largest payload of a keep-alive or close frame. -/
def MAX_SMALL_FRAME : Nat := 256

/-! ## 1. Plain frames -/

/-- Append a frame to `out`. -/
def encode_frame (payload : Bytes) (max : Nat) (out : Bytes) : Except ProtocolError Bytes :=
  if payload.length > max then .error (.FrameTooLarge payload.length max)
  else .ok (out ++ put_u32 (UInt32.ofNat payload.length) ++ payload)

/-- Incremental frame decoder for a byte stream; its limit is fixed when it is made. -/
structure FrameDecoder (max : Nat) where
  buf : Bytes

namespace FrameDecoder

def new (max : Nat) : FrameDecoder max := ⟨[]⟩

variable {max : Nat}

/-- Feed bytes read from the stream. -/
def extend (d : FrameDecoder max) (data : Bytes) : FrameDecoder max := ⟨d.buf ++ data⟩

/-- Return the next complete frame, if any. -/
def next_frame (d : FrameDecoder max) : Except ProtocolError (Option Bytes) × FrameDecoder max :=
  if d.buf.length < 4 then (.ok none, d)
  else
    let len := (get_u32 d.buf).toNat
    if len > max then (.error (.FrameTooLarge len max), d)
    else if d.buf.length < 4 + len then (.ok none, d)
    else
      let buf := d.buf.drop 4
      (.ok (some (buf.take len)), ⟨buf.drop len⟩)

end FrameDecoder

/-! ## 2. Typed frames -/

/-- Frame types multiplexed on one TLS-over-TCP stream. -/
inductive StreamFrameKind where
  /-- one control message -/
  | Control
  /-- one media or probe datagram -/
  | Datagram
  /-- keep-alive: the sender's clock -/
  | Ping
  /-- keep-alive answer echoing the ping payload -/
  | Pong
  /-- orderly close: application code and a short reason -/
  | Close
  deriving DecidableEq, Repr

namespace StreamFrameKind

/-- The kind's number on the wire. -/
def code : StreamFrameKind → UInt8
  | .Control => 1
  | .Datagram => 2
  | .Ping => 3
  | .Pong => 4
  | .Close => 5

def from_u8 (v : UInt8) : Except ProtocolError StreamFrameKind :=
  if v = 1 then .ok .Control
  else if v = 2 then .ok .Datagram
  else if v = 3 then .ok .Ping
  else if v = 4 then .ok .Pong
  else if v = 5 then .ok .Close
  else .error (.UnknownFrameKind v)

/-- Largest payload allowed for this kind. -/
def max_len : StreamFrameKind → Nat
  | .Control => MAX_CONTROL_FRAME
  | .Datagram => MAX_MEDIA_FRAME
  | .Ping | .Pong | .Close => MAX_SMALL_FRAME

theorem from_u8_code (kind : StreamFrameKind) : from_u8 kind.code = .ok kind := by
  cases kind <;> rfl

theorem from_u8_unknown {v : UInt8} (h : ∀ kind : StreamFrameKind, kind.code ≠ v) :
    from_u8 v = .error (.UnknownFrameKind v) := by
  have h1 : v ≠ 1 := (h .Control).symm
  have h2 : v ≠ 2 := (h .Datagram).symm
  have h3 : v ≠ 3 := (h .Ping).symm
  have h4 : v ≠ 4 := (h .Pong).symm
  have h5 : v ≠ 5 := (h .Close).symm
  unfold from_u8
  rw [if_neg h1, if_neg h2, if_neg h3, if_neg h4, if_neg h5]

theorem max_len_le (kind : StreamFrameKind) : kind.max_len ≤ MAX_CONTROL_FRAME := by
  cases kind <;> decide

end StreamFrameKind

/-- Append a typed stream frame to `out`. -/
def encode_stream_frame (kind : StreamFrameKind) (payload out : Bytes) :
    Except ProtocolError Bytes :=
  if payload.length > kind.max_len then .error (.FrameTooLarge payload.length kind.max_len)
  else .ok (out ++ [kind.code] ++ put_u32 (UInt32.ofNat payload.length) ++ payload)

/-- Incremental decoder for typed stream frames. -/
structure StreamFrameDecoder where
  buf : Bytes

namespace StreamFrameDecoder

def new : StreamFrameDecoder := ⟨[]⟩

def extend (d : StreamFrameDecoder) (data : Bytes) : StreamFrameDecoder := ⟨d.buf ++ data⟩

/-- Return the next complete frame, if any. An error means the stream is corrupt and must close. -/
def next_frame (d : StreamFrameDecoder) :
    Except ProtocolError (Option (StreamFrameKind × Bytes)) × StreamFrameDecoder :=
  if d.buf.length < 5 then (.ok none, d)
  else
    match StreamFrameKind.from_u8 (d.buf.headD 0) with
    | .error e => (.error e, d)
    | .ok kind =>
        let len := (get_u32 (d.buf.drop 1)).toNat
        if len > kind.max_len then (.error (.FrameTooLarge len kind.max_len), d)
        else if d.buf.length < 5 + len then (.ok none, d)
        else
          let buf := d.buf.drop 5
          (.ok (some (kind, buf.take len)), ⟨buf.drop len⟩)

end StreamFrameDecoder

/-! ## 3. The two framings -/

theorem get_u32_take {bs : Bytes} {n : Nat} (h : 4 ≤ n) : get_u32 (bs.take n) = get_u32 bs := by
  unfold get_u32
  rw [List.take_take, Nat.min_eq_left h]

/-- A length that fits comes back from the wire. -/
theorem get_len {len : Nat} (h : len < 2 ^ 32) (rest : Bytes) :
    (get_u32 (put_u32 (UInt32.ofNat len) ++ rest)).toNat = len := by
  rw [get_u32_put_u32, UInt32.toNat_ofNat', Nat.mod_eq_of_lt h]

/-- What a plain header says. -/
def frame_header (max : Nat) (header : Bytes) : Except ProtocolError (Nat × (Bytes → Bytes)) :=
  let len := (get_u32 header).toNat
  if len > max then .error (.FrameTooLarge len max) else .ok (len, id)

def framing (max : Nat) : Framing UInt8 Bytes ProtocolError where
  header := 4
  limit := max
  read := frame_header max
  header_pos := by decide
  read_le := by
    intro h len make hread
    unfold frame_header at hread
    dsimp only at hread
    split at hread
    · cases hread
    · next hle =>
        obtain ⟨rfl, _⟩ := Prod.mk.inj (Except.ok.inj hread)
        omega

/-- What a typed header says. -/
def stream_frame_header (header : Bytes) :
    Except ProtocolError (Nat × (Bytes → StreamFrameKind × Bytes)) :=
  match StreamFrameKind.from_u8 (header.headD 0) with
  | .error e => .error e
  | .ok kind =>
      let len := (get_u32 (header.drop 1)).toNat
      if len > kind.max_len then .error (.FrameTooLarge len kind.max_len)
      else .ok (len, fun payload => (kind, payload))

def stream_framing : Framing UInt8 (StreamFrameKind × Bytes) ProtocolError where
  header := 5
  limit := MAX_CONTROL_FRAME
  read := stream_frame_header
  header_pos := by decide
  read_le := by
    intro h len make hread
    unfold stream_frame_header at hread
    split at hread
    · cases hread
    · next kind _ =>
        dsimp only at hread
        split at hread
        · cases hread
        · next hle =>
            obtain ⟨rfl, _⟩ := Prod.mk.inj (Except.ok.inj hread)
            have := kind.max_len_le
            omega

/-- The decoder hands out frames as its framing says. -/
theorem FrameDecoder.next_frame_eq {max : Nat} (d : FrameDecoder max) :
    d.next_frame =
      (((framing max).next d.buf).1, ⟨((framing max).next d.buf).2⟩) := by
  have hread : (framing max).read (d.buf.take 4) =
      if (get_u32 d.buf).toNat > max then .error (.FrameTooLarge (get_u32 d.buf).toNat max)
      else .ok ((get_u32 d.buf).toNat, id) := by
    show frame_header max (d.buf.take 4) = _
    rw [frame_header, get_u32_take (Nat.le_refl 4)]
  unfold next_frame
  by_cases hshort : d.buf.length < 4
  · rw [if_pos hshort, Framing.next_of_short hshort]
  · rw [if_neg hshort]
    have hlen : 4 ≤ d.buf.length := Nat.le_of_not_lt hshort
    dsimp only
    by_cases hbig : (get_u32 d.buf).toNat > max
    · rw [if_pos hbig] at hread ⊢
      rw [Framing.next_of_error hlen hread]
    · rw [if_neg hbig] at hread ⊢
      rw [Framing.next_of_ok hlen hread]
      have hheader : (framing max).header = 4 := rfl
      rw [hheader]
      by_cases hpart : d.buf.length < 4 + (get_u32 d.buf).toNat
      · rw [if_pos hpart, if_pos hpart]
      · rw [if_neg hpart, if_neg hpart, List.drop_drop]
        rfl

theorem StreamFrameDecoder.next_frame_eq (d : StreamFrameDecoder) :
    d.next_frame =
      ((stream_framing.next d.buf).1, ⟨(stream_framing.next d.buf).2⟩) := by
  unfold next_frame
  by_cases hshort : d.buf.length < 5
  · rw [if_pos hshort, Framing.next_of_short hshort]
  · rw [if_neg hshort]
    have hlen : 5 ≤ d.buf.length := Nat.le_of_not_lt hshort
    have hkind : (d.buf.take 5).headD 0 = d.buf.headD 0 := by
      cases hbuf : d.buf with
      | nil => rfl
      | cons b rest => rfl
    have hget : get_u32 ((d.buf.take 5).drop 1) = get_u32 (d.buf.drop 1) := by
      rw [List.drop_take]
      exact get_u32_take (Nat.le_refl 4)
    -- The header that the source reads field by field is the `read` of the framing; the three
    -- tests come in the same order.
    have hread : stream_framing.read (d.buf.take 5) = stream_frame_header (d.buf.take 5) := rfl
    unfold stream_frame_header at hread
    rw [hkind, hget] at hread
    cases hfrom : StreamFrameKind.from_u8 (d.buf.headD 0) with
    | error e =>
        rw [hfrom] at hread
        rw [Framing.next_of_error hlen hread]
    | ok kind =>
        rw [hfrom] at hread
        dsimp only at hread ⊢
        by_cases hbig : (get_u32 (d.buf.drop 1)).toNat > kind.max_len
        · rw [if_pos hbig] at hread ⊢
          rw [Framing.next_of_error hlen hread]
        · rw [if_neg hbig] at hread ⊢
          rw [Framing.next_of_ok hlen hread]
          have hheader : stream_framing.header = 5 := rfl
          rw [hheader]
          by_cases hpart : d.buf.length < 5 + (get_u32 (d.buf.drop 1)).toNat
          · rw [if_pos hpart, if_pos hpart]
          · rw [if_neg hpart, if_neg hpart, List.drop_drop]

def FrameDecoder.decoder (max : Nat) : Decoder (framing max) (FrameDecoder max) where
  buf := FrameDecoder.buf
  extend := extend
  next := next_frame
  buf_extend _ _ := rfl
  next_fst d := congrArg Prod.fst d.next_frame_eq
  buf_next d := congrArg (fun p => p.2.buf) d.next_frame_eq

def StreamFrameDecoder.decoder : Decoder stream_framing StreamFrameDecoder where
  buf := StreamFrameDecoder.buf
  extend := extend
  next := next_frame
  buf_extend _ _ := rfl
  next_fst d := congrArg Prod.fst d.next_frame_eq
  buf_next d := congrArg (fun p => p.2.buf) d.next_frame_eq

/-! ## 4. What the encoders write -/

/-- The encodings of the payloads, one after another. -/
def encode_frames (max : Nat) (payloads : List Bytes) : Except ProtocolError Bytes :=
  payloads.foldlM (fun out payload => encode_frame payload max out) []

def encode_stream_frames (frames : List (StreamFrameKind × Bytes)) : Except ProtocolError Bytes :=
  frames.foldlM (fun out frame => encode_stream_frame frame.1 frame.2 out) []

/-- What an encoder that only appends writes for a list of frames. -/
theorem foldlM_appends {α ε : Type} {put : Bytes → α → Except ε Bytes} {w : α → Bytes}
    {frames : List α} (h : ∀ a ∈ frames, ∀ out, put out a = .ok (out ++ w a)) (out : Bytes) :
    frames.foldlM put out = .ok (out ++ (frames.map w).flatten) := by
  induction frames generalizing out with
  | nil =>
      rw [List.foldlM_nil, List.map_nil, List.flatten_nil, List.append_nil]
      rfl
  | cons a frames ih =>
      have hput := h a List.mem_cons_self out
      rw [List.foldlM_cons, hput, List.map_cons, List.flatten_cons, ← List.append_assoc]
      exact ih (fun b hb => h b (List.mem_cons_of_mem _ hb)) _

/-- One plain frame on the wire. -/
def frame_bytes (payload : Bytes) : Bytes := put_u32 (UInt32.ofNat payload.length) ++ payload

/-- One typed frame on the wire. -/
def stream_frame_bytes (frame : StreamFrameKind × Bytes) : Bytes :=
  frame.1.code :: put_u32 (UInt32.ofNat frame.2.length) ++ frame.2

theorem encodes_frame {max : Nat} (hmax : max < 2 ^ 32) {payload : Bytes}
    (h : payload.length ≤ max) : (framing max).Encodes payload (frame_bytes payload) := by
  have hlen : (get_u32 (put_u32 (UInt32.ofNat payload.length))).toNat = payload.length := by
    have hget := get_len (Nat.lt_of_le_of_lt h hmax) []
    rwa [List.append_nil] at hget
  have hread : (framing max).read (put_u32 (UInt32.ofNat payload.length)) =
      .ok (payload.length, id) := by
    show frame_header max _ = _
    rw [frame_header, hlen, if_neg (by omega)]
  exact Framing.encodes_of_read (put_u32_length _) hread

theorem encodes_stream_frame {frame : StreamFrameKind × Bytes}
    (h : frame.2.length ≤ frame.1.max_len) :
    stream_framing.Encodes frame (stream_frame_bytes frame) := by
  obtain ⟨kind, payload⟩ := frame
  have hsmall : payload.length < 2 ^ 32 :=
    Nat.lt_of_le_of_lt (Nat.le_trans h kind.max_len_le) (by decide)
  have hlen : (get_u32 (put_u32 (UInt32.ofNat payload.length))).toNat = payload.length := by
    have hget := get_len hsmall []
    rwa [List.append_nil] at hget
  have hread : stream_framing.read (kind.code :: put_u32 (UInt32.ofNat payload.length)) =
      .ok (payload.length, fun payload => (kind, payload)) := by
    show stream_frame_header _ = _
    rw [stream_frame_header, List.headD_cons, StreamFrameKind.from_u8_code]
    dsimp only
    rw [List.drop_one, List.tail_cons, hlen, if_neg (Nat.not_lt.2 h)]
  have hheader : (kind.code :: put_u32 (UInt32.ofNat payload.length)).length = 5 := by
    rw [List.length_cons, put_u32_length]
  exact Framing.encodes_of_read hheader hread

/-! ## 5. Reading what was written -/

/-- A reader that starts with `fresh` gets exactly the frames from `wire`, however it is cut into
reads; a bad header after them stops it, whatever follows; and it never keeps as much as a header
and `max` bytes, or that and a read while the read is used. -/
structure Lossless {φ σ : Type} {F : Framing UInt8 φ ProtocolError} (D : Decoder F σ) (fresh : σ)
    (max : Nat) (frames : List φ) (wire : Bytes) (bad : Bytes → ProtocolError → Prop) : Prop where
  yields : ∀ chunks : List Bytes, chunks.flatten = wire →
    (D.read_all fresh chunks).got = frames ∧ (D.read_all fresh chunks).error = none ∧
      D.buf (D.read_all fresh chunks).decoder = []
  rejects : ∀ header e more, bad header e →
    ∀ chunks : List Bytes, chunks.flatten = wire ++ (header ++ more) →
      (D.read_all fresh chunks).got = frames ∧ (D.read_all fresh chunks).error = some e
  bounded : ∀ n (chunks : List Bytes), (∀ c ∈ chunks, c.length ≤ n) →
    ((D.read_all fresh chunks).error = none →
        (D.buf (D.read_all fresh chunks).decoder).length < F.header + max) ∧
      (D.buf (D.read_all fresh chunks).decoder).length < F.header + max + n

theorem Lossless.of_encodes {φ σ : Type} {F : Framing UInt8 φ ProtocolError} {D : Decoder F σ}
    {fresh : σ} (hfresh : D.buf fresh = []) {frames : List φ} {w : φ → Bytes}
    (hw : ∀ f ∈ frames, F.Encodes f (w f)) {bad : Bytes → ProtocolError → Prop}
    (hbad : ∀ header e, bad header e → header.length = F.header ∧ F.read header = .error e) :
    Lossless D fresh F.limit frames (frames.map w).flatten bad := by
  have hall : List.Forall₂ F.Encodes frames (frames.map w) :=
    List.forall₂_map_right_iff.2 (List.forall₂_same.2 hw)
  refine ⟨fun chunks hc => ?_, fun header e more hb chunks hc => ?_, fun n chunks hn => ?_⟩
  · have hnil : F.next [] = (.ok none, []) := Framing.next_of_short F.header_pos
    rw [← List.append_nil (frames.map w).flatten] at hc
    exact Decoder.read_all_frames hfresh hall hnil hc
  · obtain ⟨hlen, hread⟩ := hbad header e hb
    exact Decoder.read_all_rejects hfresh hall hlen hread hc
  · exact Decoder.read_all_bound hfresh hn

/-- A plain header with a length above the limit. -/
def Oversized (max : Nat) (header : Bytes) (e : ProtocolError) : Prop :=
  header.length = 4 ∧ max < (get_u32 header).toNat ∧
    e = .FrameTooLarge (get_u32 header).toNat max

/-- A typed header with a kind that is not one, or with a length above its kind's limit. -/
def BadStreamHeader (header : Bytes) (e : ProtocolError) : Prop :=
  header.length = 5 ∧
    (((∀ kind : StreamFrameKind, kind.code ≠ header.headD 0) ∧
        e = .UnknownFrameKind (header.headD 0)) ∨
      ∃ kind : StreamFrameKind, kind.code = header.headD 0 ∧
        kind.max_len < (get_u32 (header.drop 1)).toNat ∧
        e = .FrameTooLarge (get_u32 (header.drop 1)).toNat kind.max_len)

theorem frame_header_oversized {max : Nat} {header : Bytes} {e : ProtocolError}
    (h : Oversized max header e) : frame_header max header = .error e := by
  obtain ⟨_, hbig, rfl⟩ := h
  rw [frame_header, if_pos hbig]

theorem stream_frame_header_bad {header : Bytes} {e : ProtocolError}
    (h : BadStreamHeader header e) : stream_frame_header header = .error e := by
  obtain ⟨_, ⟨hunknown, rfl⟩ | ⟨kind, hkind, hbig, rfl⟩⟩ := h
  · rw [stream_frame_header, StreamFrameKind.from_u8_unknown hunknown]
  · rw [stream_frame_header, ← hkind, StreamFrameKind.from_u8_code]
    dsimp only
    rw [if_pos hbig]

theorem encode_frames_eq {max : Nat} {payloads : List Bytes}
    (h : ∀ p ∈ payloads, p.length ≤ max) :
    encode_frames max payloads = .ok (payloads.map frame_bytes).flatten := by
  refine foldlM_appends (fun p hp out => ?_) []
  have hle := h p hp
  rw [encode_frame, if_neg (by omega), frame_bytes, List.append_assoc]

theorem encode_stream_frames_eq {frames : List (StreamFrameKind × Bytes)}
    (h : ∀ f ∈ frames, f.2.length ≤ f.1.max_len) :
    encode_stream_frames frames = .ok (frames.map stream_frame_bytes).flatten := by
  refine foldlM_appends (fun f hf out => ?_) []
  have hle := h f hf
  rw [encode_stream_frame, if_neg (by omega), stream_frame_bytes, List.append_assoc,
    List.append_assoc]
  rfl

/-- Frames within their limits survive any cutting of the stream, with both decoders. -/
theorem framing_lossless {max : Nat} (hmax : max < 2 ^ 32) {payloads : List Bytes}
    (hp : ∀ p ∈ payloads, p.length ≤ max) {frames : List (StreamFrameKind × Bytes)}
    (hf : ∀ f ∈ frames, f.2.length ≤ f.1.max_len) :
    (∃ wire, encode_frames max payloads = .ok wire ∧
      Lossless (FrameDecoder.decoder max) (.new max) max payloads wire (Oversized max)) ∧
    (∃ wire, encode_stream_frames frames = .ok wire ∧
      Lossless StreamFrameDecoder.decoder .new MAX_CONTROL_FRAME frames wire BadStreamHeader) := by
  refine ⟨⟨_, encode_frames_eq hp, ?_⟩, ⟨_, encode_stream_frames_eq hf, ?_⟩⟩
  · exact Lossless.of_encodes (D := FrameDecoder.decoder max) rfl
      (fun p hmem => encodes_frame hmax (hp p hmem))
      fun header e hbad => ⟨hbad.1, frame_header_oversized hbad⟩
  · exact Lossless.of_encodes (D := StreamFrameDecoder.decoder) rfl
      (fun f hmem => encodes_stream_frame (hf f hmem))
      fun header e hbad => ⟨hbad.1, stream_frame_header_bad hbad⟩

/-- A message in two plain frames, and a typed stream with a keep-alive. -/
theorem framing_lossless_hello :
    (∃ wire, encode_frames 6 [[104, 101, 108, 108, 111], [119, 111, 114, 108, 100, 33]] = .ok wire ∧
      Lossless (FrameDecoder.decoder 6) (.new 6) 6
        [[104, 101, 108, 108, 111], [119, 111, 114, 108, 100, 33]] wire (Oversized 6)) ∧
    (∃ wire, encode_stream_frames [(.Control, [99, 116, 108]), (.Ping, put_u64 5)] = .ok wire ∧
      Lossless StreamFrameDecoder.decoder .new MAX_CONTROL_FRAME
        [(.Control, [99, 116, 108]), (.Ping, put_u64 5)] wire BadStreamHeader) :=
  framing_lossless (by decide) (by decide) (by decide)

end SoundPush
