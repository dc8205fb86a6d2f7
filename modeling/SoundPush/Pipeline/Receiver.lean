/-
`Receiver` -- how packets reach the jitter buffer, from
`sp-engine/src/pipeline/receiver.rs`.

The network task turns a datagram into an `InboundPacket` and the audio thread
takes the packets one by one (`receive` is one turn of `drain_network`): a packet
that carries a copy of the frame before it is split, and the copy fills the gap
of one frame length before the packet's own place. The decoder is a parameter
with a state of its own; the drift estimate, which nothing here reads, is left
out.
-/
import SoundPush.Lib.BigEndian
import SoundPush.Media.Jitter
import SoundPush.Protocol.Media

set_option autoImplicit false

namespace SoundPush

/-- A packet queued from the network task to the audio thread. -/
structure InboundPacket where
  timestamp : Nat
  arrival_samples : Nat
  codec : Codec
  discontinuity : Bool
  redundant : Bool
  /-- the sender is silent from `timestamp` until its next audio packet -/
  dtx : Bool
  payload : Bytes
  deriving DecidableEq

/-- `PacketSink::push`: what is queued of a packet. -/
def InboundPacket.of (arrival_samples : Nat) (packet : MediaPacket) : InboundPacket where
  timestamp := packet.header.sample_timestamp
  arrival_samples := arrival_samples
  codec := packet.header.codec
  discontinuity := packet.header.flags.contains MediaFlags.DISCONTINUITY
  redundant := packet.header.flags.contains MediaFlags.REDUNDANT
  dtx := packet.header.flags.contains MediaFlags.DTX
  payload := packet.payload

/-- The primary frame of a payload, and what follows it as a copy of the frame before. -/
def split_redundant (redundant : Bool) (bytes : Bytes) : Bytes × Option Bytes :=
  match bytes with
  | hi :: lo :: rest =>
      if redundant then
        let n := get_be [hi, lo]
        if n ≤ rest.length then (rest.take n, some (rest.drop n)) else (bytes, none)
      else (bytes, none)
  | _ => (bytes, none)

/-- What the audio thread keeps that concerns the packets; `δ` is the decoder's state. -/
structure Playout (δ α : Type) where
  frame_samples : Nat
  codec : Codec
  decoder : δ
  jitter : JitterBuffer α
  packets_received : Nat
  packets_recovered : Nat
  decode_errors : Nat

namespace Playout

variable {δ α : Type} (decode : δ → Bytes → Option (Samples α) × δ)

/-- The copy goes into its place, unless something is there. -/
def insert_copy (p : Playout δ α) (prev_ts arrival : Nat) (copy : Bytes) : Playout δ α :=
  if p.jitter.has prev_ts then p
  else
    match decode p.decoder copy with
    | (some samples, decoder) =>
        { p with
          decoder
          jitter := p.jitter.push prev_ts samples arrival
          packets_recovered := p.packets_recovered + 1 }
    | (none, decoder) => { p with decoder }

/-- The frame of the packet itself. -/
def insert_primary (p : Playout δ α) (timestamp arrival : Nat) (primary : Bytes) : Playout δ α :=
  match decode p.decoder primary with
  | (some samples, decoder) => { p with decoder, jitter := p.jitter.push timestamp samples arrival }
  | (none, decoder) => { p with decoder, decode_errors := p.decode_errors + 1 }

/-- A packet counted, and the buffer restarted if the timeline breaks there. -/
def begin_packet (p : Playout δ α) (packet : InboundPacket) : Playout δ α :=
  { p with
    packets_received := p.packets_received + 1
    jitter := if packet.discontinuity then p.jitter.reset else p.jitter }

/-- One packet of `drain_network`. -/
def receive (p : Playout δ α) (packet : InboundPacket) : Playout δ α :=
  if packet.codec ≠ p.codec then
    { p with packets_received := p.packets_received + 1, decode_errors := p.decode_errors + 1 }
  else
    let p := p.begin_packet packet
    if packet.dtx then
      { p with jitter := p.jitter.push_silence packet.timestamp packet.arrival_samples }
    else
      let (primary, redundant) := split_redundant packet.redundant packet.payload
      -- rebuild the previous frame if it was lost and is still playable
      let p :=
        match redundant with
        | some copy =>
            if copy.isEmpty ∨ packet.timestamp < p.frame_samples then p
            else p.insert_copy decode (packet.timestamp - p.frame_samples) packet.arrival_samples
              copy
        | none => p
      p.insert_primary decode packet.timestamp packet.arrival_samples primary

end Playout

end SoundPush
