/-
`Datagram` -- the bytes of media and probe datagrams, from
`sp-protocol/src/media.rs` and `probe.rs`, and what a session does with one that
arrives (`sp-engine/src/session.rs`).

Media and probes share one channel and are told apart by their first byte: the
version of a media header, or the magic of a probe. All integers are big-endian.
-/
import SoundPush.Protocol.Media

set_option autoImplicit false

namespace SoundPush

/-! ## 1. Media -/

def Codec.code (codec : Codec) : UInt8 := UInt8.ofNat codec.id

def Codec.try_from (value : UInt8) : Except ProtocolError Codec :=
  if value = 1 then .ok .PcmS16Le
  else if value = 2 then .ok .Opus
  else .error (.UnknownCodec value)

namespace MediaPacket

/-- Serialize into a single datagram. -/
def encode (p : MediaPacket) : Except ProtocolError Bytes :=
  if p.payload.length > MAX_MEDIA_PAYLOAD then
    .error (.PayloadTooLarge p.payload.length MAX_MEDIA_PAYLOAD)
  else
    .ok ([MEDIA_HEADER_VERSION, p.header.route, p.header.codec.code,
        UInt8.ofBitVec p.header.flags.bits] ++
      put_u64 (UInt64.ofNat p.header.sample_timestamp) ++ put_u32 p.header.seq ++ p.payload)

/-- What `decode` makes of the bytes when there are enough of them. -/
def parse : Bytes → Except ProtocolError MediaPacket
  | version :: route :: codec :: flags :: rest =>
      if version ≠ MEDIA_HEADER_VERSION then .error (.UnsupportedVersion version)
      else
        match Codec.try_from codec with
        | .error e => .error e
        | .ok codec =>
            .ok
              { header :=
                  { route, codec
                    flags := ⟨flags.toBitVec⟩
                    sample_timestamp := (get_u64 rest).toNat
                    seq := get_u32 (rest.drop 8) }
                payload := rest.drop 12 }
  | datagram => .error (.TooShort datagram.length MEDIA_HEADER_LEN)

/-- Parse an untrusted datagram. -/
def decode (datagram : Bytes) : Except ProtocolError MediaPacket :=
  if datagram.length < MEDIA_HEADER_LEN then .error (.TooShort datagram.length MEDIA_HEADER_LEN)
  else
    let payload_len := datagram.length - MEDIA_HEADER_LEN
    if payload_len > MAX_ACCEPTED_MEDIA_PAYLOAD then
      .error (.PayloadTooLarge payload_len MAX_ACCEPTED_MEDIA_PAYLOAD)
    else parse datagram

end MediaPacket

/-! ## 2. Probes -/

/-- First byte of every probe datagram. -/
def PROBE_MAGIC : UInt8 := 0xA5

def PROBE_HEADER_LEN : Nat := 26

/-- Probes are no larger than the largest media datagram. -/
def MAX_PROBE_LEN : Nat := MEDIA_HEADER_LEN + MAX_MEDIA_PAYLOAD

inductive ProbeKind where
  | Probe
  | Echo
  deriving DecidableEq, Repr

def ProbeKind.code : ProbeKind → UInt8
  | .Probe => 1
  | .Echo => 2

structure Probe where
  kind : ProbeKind
  test_id : UInt32
  seq : UInt32
  /-- initiator clock when the probe was sent -/
  sent_us : UInt64
  /-- responder clock when the probe arrived (0 in probes) -/
  echo_us : UInt64
  deriving DecidableEq, Repr

/-- True when a datagram is a probe rather than media. -/
def is_probe (datagram : Bytes) : Bool := datagram.head? = some PROBE_MAGIC

namespace Probe

/-- Serialize, padded with zeros to `total_len` (clamped to the header and `MAX_PROBE_LEN`). -/
def encode (p : Probe) (total_len : Nat) : Bytes :=
  let len := max PROBE_HEADER_LEN (min total_len MAX_PROBE_LEN)
  let buf := [PROBE_MAGIC, p.kind.code] ++ put_u32 p.test_id ++ put_u32 p.seq ++
    put_u64 p.sent_us ++ put_u64 p.echo_us
  buf ++ List.replicate (len - buf.length) 0

/-- What `decode` makes of the bytes when there are enough of them. -/
def parse : Bytes → Except ProtocolError Probe
  | magic :: kind :: rest =>
      if magic ≠ PROBE_MAGIC then .error (.Decode "not a probe")
      else
        let read (kind : ProbeKind) : Probe :=
          { kind
            test_id := get_u32 rest
            seq := get_u32 (rest.drop 4)
            sent_us := get_u64 (rest.drop 8)
            echo_us := get_u64 (rest.drop 16) }
        if kind = 1 then .ok (read .Probe)
        else if kind = 2 then .ok (read .Echo)
        else .error (.Decode s!"probe kind {kind}")
  | datagram => .error (.TooShort datagram.length PROBE_HEADER_LEN)

/-- Parse an untrusted datagram. -/
def decode (datagram : Bytes) : Except ProtocolError Probe :=
  if datagram.length < PROBE_HEADER_LEN then .error (.TooShort datagram.length PROBE_HEADER_LEN)
  else if datagram.length > MAX_PROBE_LEN then
    .error (.PayloadTooLarge datagram.length MAX_PROBE_LEN)
  else parse datagram

/-- The echo a responder sends back for this probe. -/
def echo (p : Probe) (received_us : UInt64) : Probe :=
  { p with kind := .Echo, echo_us := received_us }

end Probe

/-! ## 3. A datagram arrives -/

/-- A session that answers the probes of a test, until a deadline. -/
structure EchoArmed where
  test_id : UInt32
  deadline : Nat
  deriving DecidableEq, Repr

/-- What a session does with a datagram. -/
inductive Received where
  /-- nothing -/
  | dropped
  /-- send a datagram back -/
  | echoed (datagram : Bytes)
  /-- give an echo to the running test -/
  | measured (probe : Probe)
  /-- give a packet to its route's receiver -/
  | media (packet : MediaPacket)
  deriving DecidableEq

/-- The `read_datagram` arm of the session loop; `allows` is the answer of the rate limit. -/
def on_datagram (echo : Option EchoArmed) (now : Nat) (allows : Bool) (datagram : Bytes) :
    Received :=
  if is_probe datagram then
    match Probe.decode datagram with
    | .error _ => .dropped
    | .ok p =>
        match p.kind with
        | .Probe =>
            match echo with
            | some armed =>
                if p.test_id = armed.test_id ∧ now < armed.deadline ∧ allows then
                  .echoed ((p.echo 0).encode 0)
                else .dropped
            | none => .dropped
        | .Echo => .measured p
  else
    match MediaPacket.decode datagram with
    | .ok packet => .media packet
    | .error _ => .dropped

/-! ## 4. Media round trips -/

theorem Codec.try_from_code (codec : Codec) : try_from codec.code = .ok codec := by
  cases codec <;> rfl

theorem Codec.try_from_eq_ok {value : UInt8} {codec : Codec} (h : try_from value = .ok codec) :
    value = codec.code := by
  unfold try_from at h
  split at h
  · cases h
    assumption
  · split at h
    · cases h
      assumption
    · cases h

namespace MediaPacket

/-- The header's first four bytes. -/
def head (h : MediaHeader) : Bytes :=
  [MEDIA_HEADER_VERSION, h.route, h.codec.code, UInt8.ofBitVec h.flags.bits]

theorem encode_eq {p : MediaPacket} (h : p.payload.length ≤ MAX_MEDIA_PAYLOAD) :
    p.encode = .ok (head p.header ++ (put_u64 (UInt64.ofNat p.header.sample_timestamp) ++
      (put_u32 p.header.seq ++ p.payload))) := by
  unfold encode
  rw [if_neg (by omega), List.append_assoc, List.append_assoc]
  rfl

theorem decode_eq_parse {bs : Bytes} (hlow : MEDIA_HEADER_LEN ≤ bs.length)
    (hhigh : bs.length ≤ MEDIA_HEADER_LEN + MAX_ACCEPTED_MEDIA_PAYLOAD) : decode bs = parse bs := by
  unfold decode
  dsimp only
  rw [if_neg (by omega), if_neg (by omega)]

/-- Decoding what was encoded returns the packet. -/
theorem decode_encode {p : MediaPacket} (h : p.payload.length ≤ MAX_MEDIA_PAYLOAD)
    (hts : p.header.sample_timestamp < 2 ^ 64) :
    ∃ bs, p.encode = .ok bs ∧ decode bs = .ok p := by
  refine ⟨_, encode_eq h, ?_⟩
  have hmax : MAX_MEDIA_PAYLOAD ≤ MAX_ACCEPTED_MEDIA_PAYLOAD := by decide
  have hlen : MEDIA_HEADER_LEN = 16 := rfl
  have hwire : (head p.header ++ (put_u64 (UInt64.ofNat p.header.sample_timestamp) ++
      (put_u32 p.header.seq ++ p.payload))).length = 16 + p.payload.length := by
    rw [List.length_append, List.length_append, List.length_append, put_u64_length, put_u32_length]
    show 4 + _ = _
    omega
  rw [decode_eq_parse (by omega) (by omega)]
  have hstamp : (UInt64.ofNat p.header.sample_timestamp).toNat = p.header.sample_timestamp := by
    rw [UInt64.toNat_ofNat', Nat.mod_eq_of_lt hts]
  have hseq : (put_u64 (UInt64.ofNat p.header.sample_timestamp) ++
      (put_u32 p.header.seq ++ p.payload)).drop 8 = put_u32 p.header.seq ++ p.payload :=
    List.drop_left' (put_u64_length _)
  have hpayload : (put_u64 (UInt64.ofNat p.header.sample_timestamp) ++
      (put_u32 p.header.seq ++ p.payload)).drop 12 = p.payload := by
    rw [show 12 = 8 + 4 from rfl, ← List.drop_drop, hseq]
    exact List.drop_left' (put_u32_length _)
  show parse (MEDIA_HEADER_VERSION :: p.header.route :: p.header.codec.code ::
    UInt8.ofBitVec p.header.flags.bits :: (put_u64 (UInt64.ofNat p.header.sample_timestamp) ++
      (put_u32 p.header.seq ++ p.payload))) = _
  rw [parse, if_neg (by decide), Codec.try_from_code]
  dsimp only
  rw [get_u64_put_u64, hseq, get_u32_put_u32, hpayload, hstamp]

/-- What bytes a parse comes from. -/
theorem parse_eq_ok {bs : Bytes} {p : MediaPacket} (hlow : MEDIA_HEADER_LEN ≤ bs.length)
    (h : parse bs = .ok p) :
    bs = head p.header ++ (put_u64 (UInt64.ofNat p.header.sample_timestamp) ++
      (put_u32 p.header.seq ++ p.payload)) ∧ p.header.sample_timestamp < 2 ^ 64 := by
  have hlen : MEDIA_HEADER_LEN = 16 := rfl
  unfold parse at h
  split at h
  · next version route codec flags rest =>
      split at h
      · cases h
      · next hversion =>
          split at h
          · cases h
          · next codec' hcodec =>
              obtain rfl := Except.ok.inj h
              dsimp only
              have hrest : 12 ≤ rest.length := by
                rw [hlen, List.length_cons, List.length_cons, List.length_cons,
                  List.length_cons] at hlow
                omega
              refine ⟨?_, (get_u64 rest).toNat_lt⟩
              have hseq : put_u32 (get_u32 (rest.drop 8)) = (rest.drop 8).take 4 :=
                put_u32_get_u32 (by rw [List.length_drop]; omega)
              have hpayload : rest.drop 12 = (rest.drop 8).drop 4 := by rw [List.drop_drop]
              rw [UInt64.ofNat_toNat, put_u64_get_u64 (by omega), hseq, hpayload,
                List.take_append_drop, List.take_append_drop, head, not_not.1 hversion,
                Codec.try_from_eq_ok hcodec]
              rfl
  · cases h

/-- Decoded bytes are the encoding of what they decode to. -/
theorem encode_decode {bs : Bytes} {p : MediaPacket} (h : decode bs = .ok p)
    (hp : p.payload.length ≤ MAX_MEDIA_PAYLOAD) : p.encode = .ok bs := by
  unfold decode at h
  split at h
  · cases h
  · next hlow =>
      dsimp only at h
      split at h
      · cases h
      · rw [encode_eq hp, ← (parse_eq_ok (Nat.le_of_not_lt hlow) h).1]

/-- Which bytes are a media datagram. -/
def Accepted (bs : Bytes) : Prop :=
  MEDIA_HEADER_LEN ≤ bs.length ∧ bs.length ≤ MEDIA_HEADER_LEN + MAX_ACCEPTED_MEDIA_PAYLOAD ∧
    bs[0]? = some MEDIA_HEADER_VERSION ∧ ∃ codec : Codec, bs[2]? = some codec.code

theorem decode_iff (bs : Bytes) : (∃ p, decode bs = .ok p) ↔ Accepted bs := by
  constructor
  · rintro ⟨p, h⟩
    unfold decode at h
    split at h
    · cases h
    · next hlow =>
        dsimp only at h
        split at h
        · cases h
        · have hlow' := Nat.le_of_not_lt hlow
          obtain ⟨hbs, _⟩ := parse_eq_ok hlow' h
          refine ⟨hlow', by omega, ?_, p.header.codec, ?_⟩
          · rw [hbs]
            rfl
          · rw [hbs]
            rfl
  · rintro ⟨hlow, hhigh, hversion, codec, hcodec⟩
    rw [decode_eq_parse hlow hhigh]
    match bs, hlow, hversion, hcodec with
    | version :: route :: code :: flags :: rest, _, hversion, hcodec =>
        obtain rfl : version = MEDIA_HEADER_VERSION := Option.some.inj hversion
        obtain rfl : code = codec.code := Option.some.inj hcodec
        rw [parse, if_neg (by decide), Codec.try_from_code]
        exact ⟨_, rfl⟩

/-- No first byte is a probe's. -/
theorem not_is_probe {bs : Bytes} {p : MediaPacket} (h : decode bs = .ok p) :
    is_probe bs = false := by
  obtain ⟨_, _, hversion, _⟩ := (decode_iff bs).1 ⟨p, h⟩
  unfold is_probe
  rw [List.head?_eq_getElem?, hversion]
  rfl

end MediaPacket

/-! ## 5. Probes and echoes -/

namespace Probe

/-- What comes before the padding. -/
def body (p : Probe) : Bytes :=
  PROBE_MAGIC :: p.kind.code ::
    (put_u32 p.test_id ++ (put_u32 p.seq ++ (put_u64 p.sent_us ++ put_u64 p.echo_us)))

theorem body_length (p : Probe) : p.body.length = PROBE_HEADER_LEN := by
  unfold body
  rw [List.length_cons, List.length_cons, List.length_append, List.length_append,
    List.length_append, put_u32_length, put_u32_length, put_u64_length, put_u64_length]
  rfl

theorem encode_eq (p : Probe) (total_len : Nat) :
    p.encode total_len = p.body ++ List.replicate
      (max PROBE_HEADER_LEN (min total_len MAX_PROBE_LEN) - PROBE_HEADER_LEN) 0 := by
  have hbody : [PROBE_MAGIC, p.kind.code] ++ put_u32 p.test_id ++ put_u32 p.seq ++
      put_u64 p.sent_us ++ put_u64 p.echo_us = p.body := by
    rw [List.append_assoc, List.append_assoc, List.append_assoc]
    rfl
  unfold encode
  dsimp only
  rw [hbody, body_length]

theorem encode_length (p : Probe) (total_len : Nat) :
    (p.encode total_len).length = max PROBE_HEADER_LEN (min total_len MAX_PROBE_LEN) := by
  rw [encode_eq, List.length_append, body_length, List.length_replicate]
  omega

theorem decode_eq_parse {bs : Bytes} (hlow : PROBE_HEADER_LEN ≤ bs.length)
    (hhigh : bs.length ≤ MAX_PROBE_LEN) : decode bs = parse bs := by
  unfold decode
  rw [if_neg (by omega), if_neg (by omega)]

/-- The fields of a probe are read whatever follows them. -/
theorem parse_body (p : Probe) (padding : Bytes) : parse (p.body ++ padding) = .ok p := by
  have happend : p.body ++ padding = PROBE_MAGIC :: p.kind.code :: (put_u32 p.test_id ++
      (put_u32 p.seq ++ (put_u64 p.sent_us ++ (put_u64 p.echo_us ++ padding)))) := by
    unfold body
    rw [List.cons_append, List.cons_append, List.append_assoc, List.append_assoc,
      List.append_assoc]
  rw [happend, parse, if_neg (by decide)]
  generalize htail : put_u64 p.echo_us ++ padding = tail
  have hseq : (put_u32 p.test_id ++ (put_u32 p.seq ++ (put_u64 p.sent_us ++ tail))).drop 4 =
      put_u32 p.seq ++ (put_u64 p.sent_us ++ tail) := List.drop_left' (put_u32_length _)
  have hsent : (put_u32 p.test_id ++ (put_u32 p.seq ++ (put_u64 p.sent_us ++ tail))).drop 8 =
      put_u64 p.sent_us ++ tail := by
    rw [show 8 = 4 + 4 from rfl, ← List.drop_drop, hseq]
    exact List.drop_left' (put_u32_length _)
  have hecho : (put_u32 p.test_id ++ (put_u32 p.seq ++ (put_u64 p.sent_us ++ tail))).drop 16 =
      put_u64 p.echo_us ++ padding := by
    rw [show 16 = 8 + 8 from rfl, ← List.drop_drop, hsent, htail]
    exact List.drop_left' (put_u64_length _)
  dsimp only
  rw [get_u32_put_u32, hseq, get_u32_put_u32, hsent, get_u64_put_u64, hecho, get_u64_put_u64]
  obtain ⟨kind, test_id, seq, sent_us, echo_us⟩ := p
  cases kind <;> rfl

/-- Decoding what was encoded returns the probe, however much it was padded. -/
theorem decode_encode (p : Probe) (total_len : Nat) : decode (p.encode total_len) = .ok p := by
  have hlen := p.encode_length total_len
  have hle : PROBE_HEADER_LEN ≤ MAX_PROBE_LEN := by decide
  rw [decode_eq_parse (by omega) (by omega), encode_eq]
  exact p.parse_body _

theorem parse_is_probe {bs : Bytes} {p : Probe} (h : parse bs = .ok p) : is_probe bs = true := by
  unfold parse at h
  split at h
  · next magic kind rest =>
      split at h
      · cases h
      · next hmagic =>
          unfold is_probe
          rw [List.head?_cons, not_not.1 hmagic]
          rfl
  · cases h

/-- What a probe is decoded from is at least a header long, and begins as a probe. -/
theorem decode_eq_ok {bs : Bytes} {p : Probe} (h : decode bs = .ok p) :
    PROBE_HEADER_LEN ≤ bs.length ∧ is_probe bs = true := by
  unfold decode at h
  split at h
  · cases h
  · next hlow =>
      split at h
      · cases h
      · exact ⟨Nat.le_of_not_lt hlow, parse_is_probe h⟩

end Probe

section Echoes

variable {armed : Option EchoArmed} {now : Nat} {allows : Bool} {bs echo : Bytes}

/-- A packet that decodes goes to its receiver. -/
theorem on_datagram_media {p : MediaPacket} (h : MediaPacket.decode bs = .ok p) :
    on_datagram armed now allows bs = .media p := by
  unfold on_datagram
  rw [if_neg (Bool.eq_false_iff.1 (MediaPacket.not_is_probe h)), h]

/-- What is echoed is a probe of the armed test, before its deadline. -/
theorem on_datagram_answered (h : on_datagram armed now allows bs = .echoed echo) :
    ∃ test p, armed = some test ∧ Probe.decode bs = .ok p ∧ p.kind = .Probe ∧
      p.test_id = test.test_id ∧ now < test.deadline ∧ echo = (p.echo 0).encode 0 := by
  unfold on_datagram at h
  split at h
  · split at h
    · cases h
    · next p hp =>
        split at h
        · next hkind =>
            split at h
            · next test =>
                split at h
                · next hcond =>
                    have hecho := (Received.echoed.inj h).symm
                    exact ⟨test, p, rfl, hp, hkind, hcond.1, hcond.2.1, hecho⟩
                · cases h
            · cases h
        · cases h
  · split at h <;> cases h

/-- What is sent back is the echo of a probe that was received, without padding. -/
theorem on_datagram_echoed (h : on_datagram armed now allows bs = .echoed echo) :
    ∃ p, Probe.decode bs = .ok p ∧ echo = (p.echo 0).encode 0 := by
  obtain ⟨_, p, -, hp, -, -, -, hecho⟩ := on_datagram_answered h
  exact ⟨p, hp, hecho⟩

/-- An echo that comes back is measured, not echoed. -/
theorem on_datagram_echo (p : Probe) (total_len : Nat) :
    on_datagram armed now allows ((p.echo 0).encode total_len) = .measured (p.echo 0) := by
  have hdecode := (p.echo 0).decode_encode total_len
  unfold on_datagram
  rw [if_pos (Probe.decode_eq_ok hdecode).2, hdecode]
  rfl

theorem echo_length (h : on_datagram armed now allows bs = .echoed echo) :
    echo.length ≤ bs.length := by
  obtain ⟨p, hp, rfl⟩ := on_datagram_echoed h
  have hlow := (Probe.decode_eq_ok hp).1
  rw [Probe.encode_length, Nat.zero_min, Nat.max_zero]
  exact hlow

end Echoes

/-! ## 6. The two formats together -/

/-- Packets and probes survive the wire, no bytes are both, a packet always reaches its receiver,
and an echo is no longer than what it answers and is not answered. -/
theorem datagram_formats :
    (∀ p : MediaPacket, p.payload.length ≤ MAX_MEDIA_PAYLOAD → p.header.sample_timestamp < 2 ^ 64 →
      ∃ bs, p.encode = .ok bs ∧ MediaPacket.decode bs = .ok p) ∧
    (∀ bs (p : MediaPacket), MediaPacket.decode bs = .ok p →
      p.payload.length ≤ MAX_MEDIA_PAYLOAD → p.encode = .ok bs) ∧
    (∀ bs, (∃ p, MediaPacket.decode bs = .ok p) ↔ MediaPacket.Accepted bs) ∧
    (∀ (p : Probe) total_len, Probe.decode (p.encode total_len) = .ok p) ∧
    (∀ bs p q, ¬ (MediaPacket.decode bs = .ok p ∧ Probe.decode bs = .ok q)) ∧
    (∀ bs p armed now allows, MediaPacket.decode bs = .ok p →
      on_datagram armed now allows bs = .media p) ∧
    (∀ bs p, Probe.decode bs = .ok p → is_probe bs = true) ∧
    (∀ bs echo armed now allows, on_datagram armed now allows bs = .echoed echo →
      echo.length ≤ bs.length ∧
        ∀ armed' now' allows' again, on_datagram armed' now' allows' echo ≠ .echoed again) := by
  refine ⟨fun p h hts => MediaPacket.decode_encode h hts,
    fun bs p h hp => MediaPacket.encode_decode h hp, MediaPacket.decode_iff, Probe.decode_encode,
    fun bs p q ⟨hp, hq⟩ => ?_, fun bs p armed now allows h => on_datagram_media h,
    fun bs p h => (Probe.decode_eq_ok h).2, fun bs echo armed now allows h => ⟨echo_length h, ?_⟩⟩
  · have hno := MediaPacket.not_is_probe hp
    rw [(Probe.decode_eq_ok hq).2] at hno
    cases hno
  · intro armed' now' allows' again hagain
    obtain ⟨p, _, rfl⟩ := on_datagram_echoed h
    rw [on_datagram_echo] at hagain
    cases hagain

end SoundPush
