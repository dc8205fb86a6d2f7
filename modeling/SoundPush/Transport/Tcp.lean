/-
`Tcp` -- the transport over one TLS-over-TCP stream (`sp-transport/src/tcp.rs`):
two tasks at each end, their queues, and the bytes between them.

A turn of `write_loop` writes one frame, the one its biased `select!` picks; a turn
of `read_loop` is either a read or one pass of the loop that takes frames out of it.
What an end waits for (room in a queue, bytes, a message) is in `TcpAct.can`,
as is what the two ends' clocks and the stream guarantee. A write may fail after any
number of bytes, so a stream can end in the middle of a frame.

Times are nanoseconds since the end's own start. What an end keeps in its `TcpLog`
the code does not: it is what has gone through the end so far, and says nothing to it.
-/
import SoundPush.Lib.Machine
import SoundPush.Protocol.Framing

set_option autoImplicit false

namespace SoundPush

/-! ## 1. One end -/

/-- Media older than this when the socket accepts it again is dropped, not sent late. -/
def STALE_AFTER : Nat := 200 * 1000000

def CONTROL_QUEUE : Nat := 256
def DATAGRAM_SEND_QUEUE : Nat := 64
def DATAGRAM_RECV_QUEUE : Nat := 256

/-- The most a read takes. -/
def READ_BUFFER : Nat := 16 * 1024

/-- Frames queued for the writer task (control has priority over media). -/
inductive Outbound where
  | Control (bytes : Bytes)
  | Pong (payload : Bytes)
  | Close (code : UInt32)

structure TcpStats where
  rtt_us : UInt64
  sent : Nat
  lost : Nat

/-- What an end's clock shows at an instant, in microseconds. -/
def now_us (now : Nat) : UInt64 := UInt64.ofNat (now / 1000)

/-- What has gone through an end. -/
structure TcpLog where
  /-- control messages taken over for sending -/
  sent_control : List Bytes
  /-- datagrams taken over for sending -/
  sent_datagrams : List Bytes
  /-- frames written -/
  written : List (StreamFrameKind × Bytes)
  /-- how long each datagram written had waited -/
  delays : List Nat
  /-- when each keep-alive was written -/
  pings : List Nat
  /-- frames read -/
  read : List (StreamFrameKind × Bytes)
  /-- answers to keep-alives read, each with the time -/
  pongs : List (Nat × Bytes)
  /-- control messages given to the session -/
  got_control : List Bytes
  /-- datagrams given to the session -/
  got_datagrams : List Bytes
  /-- round trips measured -/
  samples : List UInt64
  /-- the clock, when it was last looked at -/
  clock : Nat

/-- The log once a frame has been read. -/
def TcpLog.with_frame (log : TcpLog) (now : Nat) (frame : StreamFrameKind × Bytes) : TcpLog :=
  { log with
    read := log.read ++ [frame]
    pongs := if frame.1 = .Pong then log.pongs ++ [(now, frame.2)] else log.pongs }

/-- What the clones of one end's connection share, with its two tasks. -/
structure TcpEnd where
  control_out : List Outbound
  /-- datagrams to send, each with the time it was queued -/
  datagram_out : List (Nat × Bytes)
  control_in : List Bytes
  datagram_in : List Bytes
  stats : TcpStats
  closed : Bool
  /-- `write_loop` runs -/
  writes : Bool
  /-- `read_loop` runs -/
  reads : Bool
  /-- it takes frames out of what it has read -/
  draining : Bool
  decoder : StreamFrameDecoder
  /-- a clone of the connection exists -/
  shared : Bool
  /-- the control channel has been taken -/
  taken : Bool
  /-- its sender exists -/
  sender : Bool
  /-- its receiver exists, here or with the session -/
  receiver : Bool
  /-- bytes written that the other end has not read -/
  wire : Bytes
  log : TcpLog

namespace TcpEnd

/-- An end as `start` leaves it. -/
def start : TcpEnd :=
  { control_out := [], datagram_out := [], control_in := [], datagram_in := []
    stats := { rtt_us := 0, sent := 0, lost := 0 }
    closed := false, writes := true, reads := true, draining := false, decoder := .new
    shared := true, taken := false, sender := false, receiver := true, wire := []
    log :=
      { sent_control := [], sent_datagrams := [], written := [], delays := [], pings := []
        read := [], pongs := [], got_control := [], got_datagrams := [], samples := []
        clock := 0 } }

/-- The end of `write_loop`: what is still queued is gone. -/
def stop_writing (e : TcpEnd) : TcpEnd :=
  { e with writes := false, closed := true, control_out := [], datagram_out := [] }

/-- The end of `read_loop`. -/
def stop_reading (e : TcpEnd) : TcpEnd :=
  { e with reads := false, draining := false, closed := true }

/-- Someone can still send control frames. -/
def control_open (e : TcpEnd) : Bool := e.shared || e.sender

/-! ## 2. What the session calls -/

/-- Take the control channel, once. -/
def take_control (e : TcpEnd) : TcpEnd :=
  if e.taken then e else { e with taken := true, sender := true }

/-- Why a control message is not taken over. -/
inductive SendError where
  | FrameTooLarge (len max : Nat)
  | Closed
  deriving DecidableEq

/-- Whether a control message is taken over (`ControlSender::send`). -/
def accepts_control (e : TcpEnd) (bytes : Bytes) : Except SendError Unit :=
  if bytes.length > MAX_CONTROL_FRAME then .error (.FrameTooLarge bytes.length MAX_CONTROL_FRAME)
  else if !e.writes then .error .Closed
  else .ok ()

def send_control (e : TcpEnd) (bytes : Bytes) : TcpEnd :=
  match e.accepts_control bytes with
  | .error _ => e
  | .ok _ =>
      { e with
        control_out := e.control_out ++ [.Control bytes]
        log := { e.log with sent_control := e.log.sent_control ++ [bytes] } }

def send_datagram (e : TcpEnd) (now : Nat) (data : Bytes) : TcpEnd :=
  if data.length > MAX_MEDIA_FRAME then e
  else if !e.writes then e
  else if e.datagram_out.length < DATAGRAM_SEND_QUEUE then
    { e with
      datagram_out := e.datagram_out ++ [(now, data)]
      log := { e.log with sent_datagrams := e.log.sent_datagrams ++ [data] } }
  else
    -- congested: the newest is dropped
    { e with
      stats := { e.stats with lost := e.stats.lost + 1 }
      log := { e.log with sent_datagrams := e.log.sent_datagrams ++ [data] } }

def close (e : TcpEnd) (code : UInt32) : TcpEnd :=
  if e.writes && e.control_out.length < CONTROL_QUEUE then
    { e with control_out := e.control_out ++ [.Close code] }
  else { e with closed := true }

/-- The session takes the next control frame. -/
def recv_control (e : TcpEnd) : TcpEnd :=
  { e with
    control_in := e.control_in.tail
    log := { e.log with got_control := e.log.got_control ++ e.control_in.head?.toList } }

def read_datagram (e : TcpEnd) : TcpEnd :=
  { e with
    datagram_in := e.datagram_in.tail
    log := { e.log with got_datagrams := e.log.got_datagrams ++ e.datagram_in.head?.toList } }

/-- The last clone of the connection goes, and with it a channel that nobody took. -/
def drop_connection (e : TcpEnd) : TcpEnd :=
  { e with
    shared := false
    datagram_in := []
    receiver := e.receiver && e.taken
    control_in := if e.taken then e.control_in else [] }

def drop_sender (e : TcpEnd) : TcpEnd := { e with sender := false }

def drop_receiver (e : TcpEnd) : TcpEnd := { e with receiver := false, control_in := [] }

/-! ## 3. The tasks -/

/-- What a turn of `write_loop` does before it writes: the end it leaves, and the frame. -/
def write_turn (e : TcpEnd) (now : Nat) : TcpEnd × Option (StreamFrameKind × Bytes) :=
  if e.closed then (e.stop_writing, none)
  else
    match e.control_out with
    | .Control bytes :: rest => ({ e with control_out := rest }, some (.Control, bytes))
    | .Pong payload :: rest => ({ e with control_out := rest }, some (.Pong, payload))
    | .Close code :: rest => ({ e with control_out := rest }, some (.Close, put_u32 code))
    | [] =>
        if !e.control_open then (e.stop_writing, none)
        else
          match e.datagram_out with
          | (queued, bytes) :: rest =>
              if now - queued > STALE_AFTER then
                ({ e with
                  datagram_out := rest
                  stats := { e.stats with lost := e.stats.lost + 1 } }, none)
              else
                ({ e with
                  datagram_out := rest
                  stats := { e.stats with sent := e.stats.sent + 1 }
                  log := { e.log with delays := e.log.delays ++ [now - queued] } },
                  some (.Datagram, bytes))
          | [] =>
              if !e.shared then (e.stop_writing, none)
              else
                ({ e with log := { e.log with pings := e.log.pings ++ [now] } },
                  some (.Ping, put_u64 (now_us now)))

/-- A turn of `write_loop`; `fails` is how many bytes the socket takes before it fails, if it
does. -/
def write (e : TcpEnd) (now : Nat) (fails : Option Nat) : TcpEnd :=
  match e.write_turn now with
  | (e, none) => e
  | (e, some frame) =>
      match encode_stream_frame frame.1 frame.2 [] with
      | .error _ => e
      | .ok buf =>
          let wrote : TcpEnd :=
            { e with
              wire := e.wire ++ buf
              log := { e.log with written := e.log.written ++ [frame] } }
          match fails with
          | some k =>
              if k < buf.length then { e.stop_writing with wire := e.wire ++ buf.take k }
              else wrote.stop_writing
          | none => if frame.1 = .Close then wrote.stop_writing else wrote

/-- `u64::saturating_sub`. -/
def saturating_sub (a b : UInt64) : UInt64 := if a < b then 0 else a - b

/-- A round trip into the running mean; the sum wraps. -/
def smoothed (old sample : UInt64) : UInt64 := if old = 0 then sample else (old * 7 + sample) / 8

/-- What `read_loop` does with a frame. -/
def on_frame (e : TcpEnd) (now : Nat) : StreamFrameKind × Bytes → TcpEnd
  | (.Control, payload) =>
      if !e.receiver then e.stop_reading
      else { e with control_in := e.control_in ++ [payload] }
  | (.Datagram, payload) =>
      if !e.shared then e.stop_reading
      else if e.datagram_in.length < DATAGRAM_RECV_QUEUE then
        { e with datagram_in := e.datagram_in ++ [payload] }
      else e
  | (.Ping, payload) =>
      if payload.length = 8 && e.control_open then
        if e.writes && e.control_out.length < CONTROL_QUEUE then
          { e with control_out := e.control_out ++ [.Pong payload] }
        else e
      else e.stop_reading
  | (.Pong, payload) =>
      if payload.length = 8 then
        let sample := saturating_sub (now_us now) (get_u64 payload)
        { e with
          stats := { e.stats with rtt_us := smoothed e.stats.rtt_us sample }
          log := { e.log with samples := e.log.samples ++ [sample] } }
      else e
  | (.Close, _) => e.stop_reading

/-- One pass of the loop that takes frames out of what was read. -/
def frame_turn (e : TcpEnd) (now : Nat) : TcpEnd :=
  match e.decoder.next_frame with
  | (.ok (some frame), decoder) =>
      { e with decoder, log := e.log.with_frame now frame }.on_frame now frame
  | (.ok none, decoder) => { e with decoder, draining := false }
  | (.error _, decoder) => { e with decoder }.stop_reading

end TcpEnd

/-! ## 4. Two ends and the stream between them -/

inductive TcpAct where
  | TakeControl
  | SendControl (bytes : Bytes)
  | SendDatagram (now : Nat) (data : Bytes)
  | Close (code : UInt32)
  | RecvControl
  | ReadDatagram
  | DropConnection
  | DropSender
  | DropReceiver
  /-- a turn of the writer -/
  | Write (now : Nat) (fails : Option Nat)
  /-- the reader is given some bytes -/
  | Read (n : Nat)
  /-- the reader takes a frame, or sees that none is complete -/
  | Frame (now : Nat)
  /-- silence, the end of the stream, an error, or the connection was closed -/
  | EndRead

/-- When an act looks at the clock, and what it shows. -/
def TcpAct.time : TcpAct → Option Nat
  | .SendDatagram now _ | .Write now _ | .Frame now => some now
  | _ => none

/-- What an act does to its own end and to the other. -/
def TcpAct.apply (act : TcpAct) (own other : TcpEnd) : TcpEnd × TcpEnd :=
  let own := { own with log := { own.log with clock := act.time.getD own.log.clock } }
  match act with
  | .TakeControl => (own.take_control, other)
  | .SendControl bytes => (own.send_control bytes, other)
  | .SendDatagram now data => (own.send_datagram now data, other)
  | .Close code => (own.close code, other)
  | .RecvControl => (own.recv_control, other)
  | .ReadDatagram => (own.read_datagram, other)
  | .DropConnection => (own.drop_connection, other)
  | .DropSender => (own.drop_sender, other)
  | .DropReceiver => (own.drop_receiver, other)
  | .Write now fails => (own.write now fails, other)
  | .Read n =>
      ({ own with decoder := own.decoder.extend (other.wire.take n), draining := true },
        { other with wire := other.wire.drop n })
  | .Frame now => (own.frame_turn now, other)
  | .EndRead => (own.stop_reading, other)

/-- A clock does not go back, and counts microseconds in 64 bits. -/
def TcpAct.on_time (act : TcpAct) (own : TcpEnd) : Bool :=
  match act.time with
  | none => true
  | some now => own.log.clock ≤ now && now / 1000 < 2 ^ 64

/-- When an act can happen: nothing it waits for is missing. -/
def TcpAct.can (act : TcpAct) (own other : TcpEnd) : Bool :=
  act.on_time own &&
  match act with
  | .TakeControl => own.shared
  | .SendControl _ => own.sender && (!own.writes || own.control_out.length < CONTROL_QUEUE)
  | .SendDatagram .. | .Close _ => own.shared
  | .RecvControl => own.receiver && !own.control_in.isEmpty
  | .ReadDatagram => own.shared && !own.datagram_in.isEmpty
  | .DropConnection => own.shared
  | .DropSender => own.sender
  | .DropReceiver => own.taken && own.receiver
  | .Write .. => own.writes
  | .Read n => own.reads && !own.draining && 0 < n && n ≤ READ_BUFFER && n ≤ other.wire.length
  | .Frame _ => own.reads && own.draining &&
      match own.decoder.next_frame.1 with
      | .ok (some (.Control, _)) => !own.receiver || own.control_in.length < CONTROL_QUEUE
      | _ => true
  | .EndRead => own.reads && !own.draining

/-- The two ends of a connection. -/
structure TcpLink where
  dialer : TcpEnd
  listener : TcpEnd

/-- An act of one of the ends. -/
inductive TcpEvent where
  | Dialer (act : TcpAct)
  | Listener (act : TcpAct)

namespace TcpLink

def step (l : TcpLink) : TcpEvent → TcpLink
  | .Dialer act => ⟨(act.apply l.dialer l.listener).1, (act.apply l.dialer l.listener).2⟩
  | .Listener act => ⟨(act.apply l.listener l.dialer).2, (act.apply l.listener l.dialer).1⟩

def enabled (l : TcpLink) : TcpEvent → Bool
  | .Dialer act => act.can l.dialer l.listener
  | .Listener act => act.can l.listener l.dialer

end TcpLink

/-- A connection from its handshake on. -/
def tcp : Machine TcpLink TcpEvent where
  init l := l = ⟨.start, .start⟩
  enabled l event := l.enabled event = true
  step := TcpLink.step

instance (l : TcpLink) (event : TcpEvent) : Decidable (tcp.enabled l event) :=
  inferInstanceAs (Decidable (l.enabled event = true))

end SoundPush
