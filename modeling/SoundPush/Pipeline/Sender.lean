/-
`Sender` -- the sender pipeline of `sp-engine/src/pipeline/sender.rs`.

A sender is an encoder group: one capture and one encoder whose packets go to
every subscribed route. The model is the encode thread's loop, one frame a step
(`encode_frame`), with what it reads from outside -- the processed audio, the
encoder, the receivers' controls and the transport -- given as the step's input.
`Capture` then puts any number of senders side by side: groups are opened and
closed, routes subscribe and unsubscribe, and every datagram that leaves is
kept in the order of sending.

The audio processing before the encoder (gain, noise suppression, mixing of a
second capture) decides only whether the frame is silent and what the encoder
returns, so these two are inputs. A frame's subscriber list is read as one step;
the source's generation counter only spares the encode thread the copying.
-/
import SoundPush.Protocol.Media
import SoundPush.Lib.Machine
import Mathlib.Logic.Function.Basic

set_option autoImplicit false

namespace SoundPush

/-! ## 1. The encode loop -/

/-- Silence lasting this long starts DTX. -/
def DTX_HANGOVER_MS : Nat := 200

/-- DTX packets go out for this many frames when silence starts, ... -/
def DTX_SIGNAL_FRAMES : Nat := 2

/-- ... and then once per keep-alive interval. -/
def DTX_KEEPALIVE_MS : Nat := 400

/-- One route receiving a group's packets. -/
structure Subscriber where
  route : UInt8
  /-- the connection its datagrams go out on -/
  sink : Nat
  /-- the receiver understands DTX packets -/
  dtx : Bool
  deriving DecidableEq, Repr

/-- A subscription: the group's number for it, and the subscriber. -/
structure Entry where
  id : Nat
  subscriber : Subscriber
  deriving DecidableEq, Repr

/-- The encode thread's copy of a subscriber. -/
structure Target where
  id : Nat
  route : UInt8
  sink : Nat
  dtx : Bool
  /-- the next packet restarts the stream for this receiver -/
  restart : Bool
  first : Bool
  deriving DecidableEq, Repr

structure Sender where
  codec : Codec
  /-- samples per channel in one frame -/
  frame : Nat
  /-- the subscriber list, shared with the engine -/
  entries : List Entry
  generation : Nat
  next_id : Nat
  /-- the encode thread's own state -/
  targets : List Target
  seen_generation : Option Nat
  timestamp : Nat
  seq : UInt32
  silent_frames : Nat
  previous : Bytes
  deriving DecidableEq

/-- What one frame brings, and what the receivers' controls and sinks say while it is handled;
the last three by subscription. -/
structure FrameInput where
  /-- the processed buffer is below the silence threshold -/
  is_silent : Bool
  /-- what the encoder makes of the buffer; `none` is an encoder error -/
  encoded : Option Bytes
  muted : Nat → Bool
  redundancy : Nat → Bool
  /-- the transport takes the datagram -/
  send_ok : Nat → Bool

/-- A datagram handed to the transport. -/
structure Datagram where
  sink : Nat
  packet : MediaPacket
  deriving DecidableEq, Repr

namespace Sender

/-- `Sender::start`: the loop's state when the thread starts. -/
def start (codec : Codec) (frame : Nat) : Sender where
  codec := codec
  frame := frame
  entries := []
  generation := 0
  next_id := 0
  targets := []
  seen_generation := none
  timestamp := 0
  seq := 0
  silent_frames := 0
  previous := []

/-- Add a route to the group; the second component is the subscription's number. -/
def subscribe (s : Sender) (subscriber : Subscriber) : Sender × Nat :=
  ({ s with
      next_id := s.next_id + 1
      entries := s.entries ++ [{ id := s.next_id, subscriber := subscriber }]
      generation := s.generation + 1 }, s.next_id)

/-- Dropping a subscription removes it. -/
def unsubscribe (s : Sender) (id : Nat) : Sender :=
  { s with
    entries := s.entries.filter (fun e => e.id ≠ id)
    generation := s.generation + 1 }

/-- The target made of a subscription: what was known of it is kept, a new one is at its first
packet. -/
def target_of (targets : List Target) (e : Entry) : Target :=
  let (restart, first) := match targets.find? (fun t => t.id = e.id) with
    | none => (false, true)
    | some t => (t.restart, t.first)
  { id := e.id, route := e.subscriber.route, sink := e.subscriber.sink, dtx := e.subscriber.dtx
    restart := restart, first := first }

/-- The target list is read again when the subscriber list has changed. -/
def refresh_targets (s : Sender) : Sender :=
  if s.seen_generation = some s.generation then s
  else { s with
    targets := s.entries.map (target_of s.targets)
    seen_generation := some s.generation }

def dtx_hangover (s : Sender) : Nat := DTX_HANGOVER_MS * 48 / max s.frame 1

def dtx_keepalive (s : Sender) : Nat := max (DTX_KEEPALIVE_MS * 48 / max s.frame 1) 1

/-- The sender is in DTX: Opus, and silent for longer than the hangover. -/
def in_dtx (s : Sender) : Bool := s.codec = .Opus && s.silent_frames > s.dtx_hangover

/-- A DTX packet is due in this frame. -/
def dtx_signal (s : Sender) : Bool :=
  s.in_dtx &&
    let n := s.silent_frames - s.dtx_hangover - 1
    n < DTX_SIGNAL_FRAMES || n % s.dtx_keepalive = 0

/-- The payload of an audio packet, with the previous frame's packet after it if it is redundant:
the primary's length in two bytes, the primary, the copy. -/
def audio_payload (packet previous : Bytes) (with_redundancy : Bool) : Bytes :=
  if with_redundancy then
    UInt8.ofNat (packet.length / 256) :: UInt8.ofNat packet.length :: (packet ++ previous)
  else packet

/-- The packet for one kind of receiver, before its route and its own flags are patched in.
`packet` is the encoded frame. -/
def build_packet (s : Sender) (ts : Nat) (seq : UInt32) (packet : Bytes)
    (silent_target with_redundancy : Bool) : MediaPacket where
  header := {
    route := 0
    codec := s.codec
    flags :=
      if silent_target then MediaFlags.empty.with_flag MediaFlags.DTX
      else if with_redundancy then MediaFlags.empty.with_flag MediaFlags.REDUNDANT
      else MediaFlags.empty
    sample_timestamp := ts
    seq := seq }
  payload := if silent_target then [] else audio_payload packet s.previous with_redundancy

/-- The route byte and the flags of one receiver. -/
def patch (t : Target) (p : MediaPacket) : MediaPacket :=
  let flags := p.header.flags
  let flags := if t.first then flags.with_flag MediaFlags.MARKER else flags
  let flags := if t.restart then flags.with_flag MediaFlags.DISCONTINUITY else flags
  { p with header := { p.header with route := t.route, flags := flags } }

/-- Everything of one frame that its receivers share. -/
structure Frame where
  ts : Nat
  seq : UInt32
  packet : Bytes
  dtx : Bool
  dtx_signal : Bool
  can_add_redundancy : Bool

/-- One receiver's turn in a frame: a muted one is sent nothing and resynchronizes later; in DTX a
receiver that understands it gets a packet only when one is due; the others get audio. -/
def send_target (s : Sender) (f : Frame) (inp : FrameInput) (t : Target) :
    Target × Option Datagram :=
  if inp.muted t.id then ({ t with restart := true }, none)
  else
    let silent_target := f.dtx && t.dtx
    if silent_target && !f.dtx_signal then (t, none)
    else
      let with_redundancy := !silent_target && f.can_add_redundancy && inp.redundancy t.id
      let media := s.build_packet f.ts f.seq f.packet silent_target with_redundancy
      if !media.encodable then (t, none)
      else if inp.send_ok t.id then
        ({ t with first := false, restart := false },
          some { sink := t.sink, packet := patch t media })
      else (t, none)

/-- The encoder's clock: every frame advances it, whether it is sent or not. -/
def tick (s : Sender) (is_silent : Bool) : Sender :=
  { s with
    timestamp := s.timestamp + s.frame
    seq := s.seq + 1
    silent_frames := if is_silent then s.silent_frames + 1 else 0 }

/-- The audio of a frame is needed unless every receiver understands the silence. -/
def needs_audio (s : Sender) : Bool := !s.in_dtx || s.targets.any (fun t => !t.dtx)

/-- What the receivers share of a frame that began at `ts` with sequence number `seq`. -/
def frame_of (s : Sender) (ts : Nat) (seq : UInt32) (packet : Bytes) : Frame where
  ts := ts
  seq := seq
  packet := packet
  dtx := s.in_dtx
  dtx_signal := s.dtx_signal
  can_add_redundancy := s.codec = .Opus && s.needs_audio && !s.previous.isEmpty &&
    2 + packet.length + s.previous.length ≤ MAX_MEDIA_PAYLOAD

/-- The fan-out of one encoded frame. -/
def send_frame (s : Sender) (f : Frame) (inp : FrameInput) : Sender × List Datagram :=
  let results := s.targets.map (s.send_target f inp)
  ({ s with
      targets := results.map Prod.fst
      previous := if s.needs_audio then f.packet else [] },
    results.filterMap Prod.snd)

/-- One turn of the encode loop. -/
def encode_frame (s : Sender) (inp : FrameInput) : Sender × List Datagram :=
  let s := s.refresh_targets
  let ts := s.timestamp
  let seq := s.seq
  let s := s.tick inp.is_silent
  if s.targets.isEmpty then ({ s with previous := [] }, [])
  else if s.needs_audio then
    match inp.encoded with
    | none => (s, [])
    | some packet => s.send_frame (s.frame_of ts seq packet) inp
  else s.send_frame (s.frame_of ts seq []) inp

end Sender

/-! ## 2. Groups side by side -/

/-- The sending side: its running encoder groups by number, and every datagram sent, oldest
first. -/
structure Capture where
  groups : Nat → Option Sender
  next_group : Nat
  sent : List Datagram

/-- What happens to the groups. -/
inductive CaptureOp where
  /-- a capture opens -/
  | open_group (codec : Codec) (frame : Nat)
  /-- a capture closes -/
  | close_group (group : Nat)
  | subscribe (group : Nat) (subscriber : Subscriber)
  | unsubscribe (group id : Nat)
  /-- one frame of a group's capture -/
  | frame (group : Nat) (inp : FrameInput)

namespace Capture

def empty : Capture := { groups := fun _ => none, next_group := 0, sent := [] }

def set_group (c : Capture) (group : Nat) (s : Option Sender) : Capture :=
  { c with groups := Function.update c.groups group s }

def apply (c : Capture) : CaptureOp → Capture
  | .open_group codec frame =>
    { c.set_group c.next_group (some (Sender.start codec frame)) with
      next_group := c.next_group + 1 }
  | .close_group g => c.set_group g none
  | .subscribe g subscriber =>
    match c.groups g with
    | none => c
    | some s => c.set_group g (some (s.subscribe subscriber).1)
  | .unsubscribe g id =>
    match c.groups g with
    | none => c
    | some s => c.set_group g (some (s.unsubscribe id))
  | .frame g inp =>
    match c.groups g with
    | none => c
    | some s =>
      let (s, out) := s.encode_frame inp
      { c.set_group g (some s) with sent := c.sent ++ out }

end Capture

end SoundPush
