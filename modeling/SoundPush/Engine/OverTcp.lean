/-
`OverTcp` -- two session tasks over one TLS-over-TCP connection.

A session hands a message to its transport as bytes and takes the next one off what
the reader has queued; between them run the tasks of `Tcp`. `over_tcp_refines` turns
every run into one of `handshake`: the stream of messages that `handshake` takes for
granted is what the transport makes of frames, reads and failing writes.

How a message becomes bytes is the protobuf library's, and a parameter here: a build
reads what the other one wrote, or does not know the message and says so.
-/
import SoundPush.Engine.Handshake
import SoundPush.Transport.TcpLink

set_option autoImplicit false

namespace SoundPush

/-! ## 1. Messages as bytes -/

/-- What a build makes of the bytes of a message. -/
inductive Reading where
  | Known (msg : ControlMsg)
  | Unknown
  | Malformed
  deriving DecidableEq

/-- A build's control messages on the wire. -/
structure MessageCodec where
  to_bytes : ControlMsg → Bytes
  from_bytes : Bytes → Reading

/-- One build reads what another one wrote, or does not know it; every build knows the hello. -/
def MessageCodec.Reads (reader writer : MessageCodec) (msgs : List ControlMsg) : Prop :=
  ∀ msg ∈ msgs, reader.from_bytes (writer.to_bytes msg) = .Known msg ∨
    (∃ body, msg = .Body body) ∧ reader.from_bytes (writer.to_bytes msg) = .Unknown

/-! ## 2. Two sessions and their transport -/

/-- A session with the log that `handshake` keeps of it. -/
structure TcpSession where
  codec : MessageCodec
  task : SessionTask
  handed : List ControlMsg
  asked : List ControlMsg
  told : List SessionEvent

structure SessionLink where
  dialer : TcpSession
  acceptor : TcpSession
  link : TcpLink

inductive TcpSessionAct where
  | Input (i : SessionInput)
  /-- the receiver skips a message that this build does not know -/
  | Skip
  /-- the transport does something, or the session to its datagrams or the connection -/
  | Transport (act : TcpAct)

inductive SessionLinkEvent where
  | Dialer (act : TcpSessionAct)
  | Acceptor (act : TcpSessionAct)

/-- What an input of a session does to its end of the connection. -/
def TcpSession.calls (s : TcpSession) (i : SessionInput) : Option TcpAct :=
  match i.act with
  | .Opened true => some .TakeControl
  | .Sent true => s.task.pending.map fun msg => .SendControl (s.codec.to_bytes msg)
  | .Received (some _) => some .RecvControl
  | _ => none

/-- The acts of an end that its session does not make on the control stream. -/
def TcpAct.is_other : TcpAct → Bool
  | .SendControl _ | .RecvControl => false
  | _ => true

/-- An act of one end, by its session. -/
def SessionLinkEvent.tcp (event : SessionLinkEvent) (act : TcpAct) : TcpEvent :=
  match event with
  | .Dialer _ => .Dialer act
  | .Acceptor _ => .Listener act

namespace TcpSession

variable [Crypto]

def start (codec : MessageCodec) (task : SessionTask) : TcpSession :=
  { codec, task, handed := [], asked := [], told := [] }

/-- A session after one of its inputs. -/
def input (s : TcpSession) (i : SessionInput) : TcpSession :=
  { s with
    task := (s.task.step i).1
    handed := s.handed ++ SoundPush.handed (s.task.step i).2
    asked := s.asked ++ i.act.asks
    told := s.told ++ reports (s.task.step i).2 }

/-- What a session does, and its end of the connection with it. -/
def turn (s : TcpSession) : TcpSessionAct → TcpSession × Option TcpAct
  | .Input i => (s.input i, s.calls i)
  | .Skip => (s, some .RecvControl)
  | .Transport act => (s, some act)

/-- What an input finds at its end of the connection. -/
def finds (s : TcpSession) (own : TcpEnd) (i : SessionInput) : Bool :=
  match i.act with
  | .Opened true => !own.taken
  | .Sent true =>
      s.task.pending.map (fun msg => own.accepts_control (s.codec.to_bytes msg)) = some (.ok ())
  | .Received (some msg) => own.control_in.head?.map s.codec.from_bytes = some (.Known msg)
  | _ => true

/-- When it can: the end can, and what is read is the next message. -/
def can (s : TcpSession) (own other : TcpEnd) : TcpSessionAct → Bool
  | .Input i =>
      s.task.waits i.act && (s.calls i).all (fun act => act.can own other) && s.finds own i
  | .Skip =>
      (s.task.phase = .Listening || s.task.phase = .Running) &&
        TcpAct.RecvControl.can own other &&
        own.control_in.head?.map s.codec.from_bytes = some .Unknown
  | .Transport act => act.is_other && act.can own other

end TcpSession

section

variable [Crypto]

namespace SessionLink

def step (s : SessionLink) (event : SessionLinkEvent) : SessionLink :=
  let moved (act : Option TcpAct) : TcpLink :=
    match act with
    | some act => s.link.step (event.tcp act)
    | none => s.link
  match event with
  | .Dialer act =>
      { dialer := (s.dialer.turn act).1, acceptor := s.acceptor,
        link := moved (s.dialer.turn act).2 }
  | .Acceptor act =>
      { dialer := s.dialer, acceptor := (s.acceptor.turn act).1
        link := moved (s.acceptor.turn act).2 }

def enabled (s : SessionLink) : SessionLinkEvent → Bool
  | .Dialer act => s.dialer.can s.link.dialer s.link.listener act
  | .Acceptor act => s.acceptor.can s.link.listener s.link.dialer act

end SessionLink

/-- Two builds and the connection between them. -/
def over_tcp (ours theirs : MessageCodec) : Machine SessionLink SessionLinkEvent where
  init s :=
    ∃ conn_id conn hello pair versions conn_id' conn' hello' pair' versions',
      s = { dialer := .start ours
              (.start conn_id conn true (Hello.announced hello versions) pair versions)
            acceptor := .start theirs
              (.start conn_id' conn' false (Hello.announced hello' versions') pair' versions')
            link := ⟨.start, .start⟩ }
  enabled s event := s.enabled event = true
  step := SessionLink.step

instance (ours theirs : MessageCodec) (s : SessionLink) (event : SessionLinkEvent) :
    Decidable ((over_tcp ours theirs).enabled s event) :=
  inferInstanceAs (Decidable (s.enabled event = true))

/-! ## 3. The control messages of an end -/

section Logs

variable {own other : TcpEnd}

/-- The control messages that have gone out and come in. -/
def TcpEnd.spoken (e : TcpEnd) : List Bytes × List Bytes := (e.log.sent_control, e.log.got_control)

omit [Crypto] in
theorem write_turn_spoken (e : TcpEnd) (now : Nat) : (e.write_turn now).1.spoken = e.spoken := by
  unfold TcpEnd.write_turn
  split
  · rfl
  split
  · rfl
  · rfl
  · rfl
  · split
    · rfl
    split
    · split <;> rfl
    · split <;> rfl

omit [Crypto] in
theorem write_spoken (e : TcpEnd) (now : Nat) (fails : Option Nat) :
    (e.write now fails).spoken = e.spoken := by
  have hturn := write_turn_spoken e now
  unfold TcpEnd.write
  split
  · next heq =>
      rw [heq] at hturn
      exact hturn
  · next heq =>
      rw [heq] at hturn
      rw [← hturn]
      split
      · rfl
      · dsimp only
        split
        · split <;> rfl
        · split <;> rfl

omit [Crypto] in
theorem on_frame_spoken (e : TcpEnd) (now : Nat) (frame : StreamFrameKind × Bytes) :
    (e.on_frame now frame).spoken = e.spoken := by
  unfold TcpEnd.on_frame
  split
  · split <;> rfl
  · split
    · rfl
    · split <;> rfl
  · split
    · split <;> rfl
    · rfl
  · split <;> rfl
  · rfl

omit [Crypto] in
theorem frame_turn_spoken (e : TcpEnd) (now : Nat) : (e.frame_turn now).spoken = e.spoken := by
  unfold TcpEnd.frame_turn
  split
  · rw [on_frame_spoken]
    rfl
  · rfl
  · rfl

omit [Crypto] in
/-- Only the session itself sends and takes control messages. -/
theorem apply_spoken {act : TcpAct} (h : act.is_other = true) (own other : TcpEnd) :
    (act.apply own other).1.spoken = own.spoken ∧
      (act.apply own other).2.spoken = other.spoken := by
  cases act with
  | SendControl bytes => cases h
  | RecvControl => cases h
  | TakeControl =>
      refine ⟨?_, rfl⟩
      show (TcpEnd.take_control _).spoken = _
      unfold TcpEnd.take_control
      split <;> rfl
  | SendDatagram now data =>
      refine ⟨?_, rfl⟩
      show (TcpEnd.send_datagram _ _ _).spoken = _
      unfold TcpEnd.send_datagram
      split
      · rfl
      split
      · rfl
      split <;> rfl
  | Close code =>
      refine ⟨?_, rfl⟩
      show (TcpEnd.close _ _).spoken = _
      unfold TcpEnd.close
      split <;> rfl
  | Write now fails => exact ⟨write_spoken _ now fails, rfl⟩
  | Frame now => exact ⟨frame_turn_spoken _ now, rfl⟩
  | ReadDatagram => exact ⟨rfl, rfl⟩
  | DropConnection => exact ⟨rfl, rfl⟩
  | DropSender => exact ⟨rfl, rfl⟩
  | DropReceiver => exact ⟨rfl, rfl⟩
  | Read n => exact ⟨rfl, rfl⟩
  | EndRead => exact ⟨rfl, rfl⟩

omit [Crypto] in
theorem send_spoken {e : TcpEnd} {bytes : Bytes} (h : e.accepts_control bytes = .ok ()) :
    (e.send_control bytes).spoken = (e.log.sent_control ++ [bytes], e.log.got_control) := by
  unfold TcpEnd.send_control
  rw [h]
  rfl

end Logs

/-! ## 4. A run over TCP as a run of the handshake -/

namespace TcpSession

/-- A session as an end of the handshake: the other one's messages that it has not taken are on
their way. -/
def seen (own other : TcpSession) (e : TcpEnd) : SessionEnd :=
  { task := own.task
    inbox := other.handed.drop e.log.got_control.length
    handed := own.handed
    asked := own.asked
    told := own.told }

/-- What a session has handed over is what its end has taken over for sending. -/
def Talks (s : TcpSession) (e : TcpEnd) : Prop :=
  e.log.sent_control = s.handed.map s.codec.to_bytes

end TcpSession

def SessionLink.pair (s : SessionLink) : SessionPair :=
  { dialer := s.dialer.seen s.acceptor s.link.dialer
    acceptor := s.acceptor.seen s.dialer s.link.listener }

/-- An end after what its session has called. -/
def ends_after (act : Option TcpAct) (own other : TcpEnd) : TcpEnd × TcpEnd :=
  match act with
  | some act => act.apply own other
  | none => (own, other)

namespace TcpSession

variable {own other : TcpSession} {e f : TcpEnd} {i : SessionInput}

omit [Crypto] in
theorem can_input (h : own.can e f (.Input i) = true) :
    own.task.waits i.act = true ∧ (own.calls i).all (fun act => act.can e f) = true ∧
      own.finds e i = true := by
  simp only [can, Bool.and_eq_true] at h
  exact ⟨h.1.1, h.1.2, h.2⟩

omit [Crypto] in
/-- What an input says over the connection. -/
theorem input_spoken (hcan : own.can e f (.Input i) = true) :
    (ends_after (own.calls i) e f).1.spoken =
      (e.log.sent_control ++ (own.task.hands i.act).map own.codec.to_bytes,
        e.log.got_control ++ if i.act.takes = [] then [] else e.control_in.head?.toList) ∧
    (ends_after (own.calls i) e f).2.spoken = f.spoken := by
  obtain ⟨hwaits, hcalls, hact⟩ := can_input hcan
  obtain ⟨now, act⟩ := i
  -- Most inputs neither hand a message to the connection nor take one.
  have hidle : ((e.log.sent_control ++ ([] : List ControlMsg).map own.codec.to_bytes,
      e.log.got_control ++ ([] : List Bytes)) : List Bytes × List Bytes) = e.spoken := by
    rw [List.map_nil, List.append_nil, List.append_nil]
    rfl
  cases act with
  | Opened ok =>
      cases ok with
      | true => exact ⟨(apply_spoken rfl e f).1.trans hidle.symm, rfl⟩
      | false => exact ⟨hidle.symm, rfl⟩
  | Sent ok =>
      cases ok with
      | true =>
          obtain ⟨msg, hmsg⟩ := Option.isSome_iff_exists.1 (hwaits : own.task.pending.isSome = true)
          have hcall : own.calls ⟨now, .Sent true⟩ =
              some (.SendControl (own.codec.to_bytes msg)) := by
            simp only [calls, hmsg, Option.map_some]
          have hhands : own.task.hands (.Sent true) = [msg] := by
            simp only [SessionTask.hands, hmsg, Option.toList_some]
          have haccepts : e.accepts_control (own.codec.to_bytes msg) = .ok () := by
            simpa [finds, hmsg] using hact
          rw [hcall, hhands]
          refine ⟨(send_spoken haccepts).trans (Prod.ext rfl ?_), rfl⟩
          exact (List.append_nil _).symm
      | false => exact ⟨hidle.symm, rfl⟩
  | Received msg =>
      cases msg with
      | some msg => exact ⟨Prod.ext (List.append_nil _).symm rfl, rfl⟩
      | none => exact ⟨hidle.symm, rfl⟩
  | TimedOut => exact ⟨hidle.symm, rfl⟩
  | Slept => exact ⟨hidle.symm, rfl⟩
  | Command cmd => exact ⟨hidle.symm, rfl⟩
  | Datagram bytes => exact ⟨hidle.symm, rfl⟩
  | EngineStopped => exact ⟨hidle.symm, rfl⟩

omit [Crypto] in
/-- The message that an end takes is the next one that the other end sent. -/
theorem taken_next {n : Nat} {bytes : Bytes} (htalks : other.Talks f)
    (hin : e.log.got_control ++ [bytes] <+: f.log.sent_control)
    (hn : e.log.got_control.length = n) :
    ∃ msg rest, other.handed.drop n = msg :: rest ∧ other.handed.drop (n + 1) = rest ∧
      other.codec.to_bytes msg = bytes := by
  obtain ⟨later, hlater⟩ := hin
  rw [htalks] at hlater
  have hdrop := congrArg (List.drop n) hlater
  rw [List.append_assoc, List.drop_append_of_le_length hn.ge, List.drop_of_length_le hn.le,
    List.nil_append, List.singleton_append, ← List.map_drop] at hdrop
  obtain ⟨msg, rest, hrest, hmsg, _⟩ := List.map_eq_cons_iff.1 hdrop.symm
  refine ⟨msg, rest, hrest, ?_, hmsg⟩
  rw [← List.drop_drop, hrest]
  rfl

/-- What a session does, as the handshake sees it. -/
inductive Refines (own other : TcpSession) (e f : TcpEnd)
    (own' : TcpSession) (e' f' : TcpEnd) : Prop
  | idle (hown : own'.seen other e' = own.seen other e)
      (hother : other.seen own' f' = other.seen own f)
  | turn (act : EndAct) (hcan : (own.seen other e).can act)
      (hturn : (own.seen other e).turn (other.seen own f) act =
        (own'.seen other e', other.seen own' f'))

theorem input_refines (hreads : own.codec.Reads other.codec other.handed) (htalks : other.Talks f)
    (hcan : own.can e f (.Input i) = true) (hback : f.log.got_control.length ≤ own.handed.length)
    (hin : (ends_after (own.calls i) e f).1.log.got_control <+:
      (ends_after (own.calls i) e f).2.log.sent_control) :
    Refines own other e f (own.input i) (ends_after (own.calls i) e f).1
      (ends_after (own.calls i) e f).2 := by
  obtain ⟨hspoken, hsame⟩ := input_spoken hcan
  have hgot := congrArg Prod.snd hspoken
  have hfar := congrArg Prod.snd hsame
  have hsent := congrArg Prod.fst hsame
  dsimp only [TcpEnd.spoken] at hgot hfar hsent
  rw [hgot, hsent] at hin
  -- what the handshake's end takes is what the decoded message is
  have htake : i.act.takes <+: other.handed.drop e.log.got_control.length ∧
      other.handed.drop (ends_after (own.calls i) e f).1.log.got_control.length =
        (other.handed.drop e.log.got_control.length).drop i.act.takes.length := by
    rw [hgot]
    by_cases hnone : i.act.takes = []
    · rw [if_pos hnone, hnone, List.append_nil]
      exact ⟨List.nil_prefix, rfl⟩
    · rw [if_neg hnone] at hin ⊢
      obtain ⟨_, _, hact⟩ := can_input hcan
      obtain ⟨now, act⟩ := i
      obtain ⟨msg, rfl⟩ : ∃ msg, act = .Received (some msg) := by
        cases act with
        | Received msg =>
            cases msg with
            | some msg => exact ⟨msg, rfl⟩
            | none => exact absurd rfl hnone
        | _ => exact absurd rfl hnone
      obtain ⟨bytes, hbytes, hknown⟩ := Option.map_eq_some_iff.1 (of_decide_eq_true hact)
      rw [hbytes, Option.toList_some] at hin ⊢
      obtain ⟨sent, rest, hdrop, hdrop', rfl⟩ := taken_next htalks hin rfl
      have hmsg : sent = msg := by
        rcases hreads sent (List.mem_of_mem_drop (hdrop ▸ List.mem_cons_self)) with hk | ⟨_, hu⟩
        · rw [hk] at hknown
          exact Reading.Known.inj hknown
        · rw [hu] at hknown
          cases hknown
      subst hmsg
      rw [List.length_append, List.length_singleton, hdrop', hdrop]
      exact ⟨⟨rest, rfl⟩, rfl⟩
  refine .turn (.Input i) ⟨(can_input hcan).1, htake.1⟩ (Prod.ext ?_ ?_)
  · unfold seen SessionEnd.turn
    dsimp only
    rw [htake.2]
    rfl
  · unfold seen SessionEnd.turn
    dsimp only
    rw [hfar]
    have happend : (own.input i).handed.drop f.log.got_control.length =
        own.handed.drop f.log.got_control.length ++ SoundPush.handed (own.task.step i).2 :=
      List.drop_append_of_le_length hback
    rw [happend]

theorem skip_refines (hreads : own.codec.Reads other.codec other.handed) (htalks : other.Talks f)
    (hcan : own.can e f .Skip = true)
    (hin : (TcpAct.RecvControl.apply e f).1.log.got_control <+:
      (TcpAct.RecvControl.apply e f).2.log.sent_control) :
    Refines own other e f own (TcpAct.RecvControl.apply e f).1
    (TcpAct.RecvControl.apply e f).2 := by
  simp only [can, Bool.and_eq_true, Bool.or_eq_true, decide_eq_true_eq] at hcan
  obtain ⟨⟨hphase, _⟩, hread⟩ := hcan
  obtain ⟨bytes, hbytes, hunknown⟩ := Option.map_eq_some_iff.1 hread
  have hgot : (TcpAct.RecvControl.apply e f).1.log.got_control = e.log.got_control ++ [bytes] := by
    show e.log.got_control ++ e.control_in.head?.toList = _
    rw [hbytes, Option.toList_some]
  rw [hgot] at hin
  obtain ⟨sent, rest, hdrop, hdrop', rfl⟩ := taken_next htalks hin rfl
  obtain ⟨body, rfl⟩ : ∃ body, sent = .Body body := by
    rcases hreads sent (List.mem_of_mem_drop (hdrop ▸ List.mem_cons_self)) with hk | ⟨hbody, _⟩
    · rw [hk] at hunknown
      cases hunknown
    · exact hbody
  refine .turn .Skip ⟨hphase, body, rest, hdrop⟩ (Prod.ext ?_ rfl)
  unfold seen SessionEnd.turn
  dsimp only
  rw [hgot, List.length_append, List.length_singleton, hdrop', hdrop]
  rfl

end TcpSession

/-! ## 5. Runs -/

/-- What every run over TCP keeps. -/
structure SessionLink.Sound (ours theirs : MessageCodec) (s : SessionLink) : Prop where
  codecs : s.dialer.codec = ours ∧ s.acceptor.codec = theirs
  link : tcp.Reachable s.link
  talks : s.dialer.Talks s.link.dialer ∧ s.acceptor.Talks s.link.listener
  pair : handshake.Reachable s.pair

omit [Crypto] in
/-- An end has taken no more than the other one sent. -/
theorem taken_le {s : TcpSession} {e f : TcpEnd} (htalks : s.Talks e)
    (hin : f.log.got_control <+: e.log.sent_control) :
    f.log.got_control.length ≤ s.handed.length := by
  have hle := hin.length_le
  rw [htalks, List.length_map] at hle
  exact hle

/-- What an act of one end says over the connection, and how the handshake sees it. -/
theorem TcpSession.turn_refines {own other : TcpSession} {e f : TcpEnd} {act : TcpSessionAct}
    (hreads : own.codec.Reads other.codec other.handed) (hown : own.Talks e)
    (hother : other.Talks f)
    (hcan : own.can e f act = true) (hback : f.log.got_control <+: e.log.sent_control)
    (hin : (ends_after (own.turn act).2 e f).1.log.got_control <+:
      (ends_after (own.turn act).2 e f).2.log.sent_control) :
    (own.turn act).1.Talks (ends_after (own.turn act).2 e f).1 ∧
      other.Talks (ends_after (own.turn act).2 e f).2 ∧
      Refines own other e f (own.turn act).1 (ends_after (own.turn act).2 e f).1
        (ends_after (own.turn act).2 e f).2 := by
  cases act with
  | Input i =>
      obtain ⟨hspoken, hsame⟩ := input_spoken hcan
      refine ⟨?_, (congrArg Prod.fst hsame).trans hother,
        input_refines hreads hother hcan (taken_le hown hback) hin⟩
      have hsent := congrArg Prod.fst hspoken
      dsimp only [TcpEnd.spoken] at hsent
      unfold Talks at hown ⊢
      rw [turn, hsent, hown, ← List.map_append, ← SessionTask.step_handed]
      rfl
  | Skip => exact ⟨hown, hother, skip_refines hreads hother hcan hin⟩
  | Transport act =>
      obtain ⟨hact, _⟩ := Bool.and_eq_true_iff.1 hcan
      obtain ⟨hspoken, hsame⟩ := apply_spoken hact e f
      refine ⟨(congrArg Prod.fst hspoken).trans hown, (congrArg Prod.fst hsame).trans hother,
        .idle ?_ ?_⟩
      · have hgot : (act.apply e f).1.log.got_control = e.log.got_control :=
          congrArg Prod.snd hspoken
        show seen own other (act.apply e f).1 = _
        unfold seen
        rw [hgot]
      · have hgot : (act.apply e f).2.log.got_control = f.log.got_control :=
          congrArg Prod.snd hsame
        show seen other own (act.apply e f).2 = _
        unfold seen
        rw [hgot]

theorem TcpSession.can_tcp {s : TcpSession} {e f : TcpEnd} {act : TcpSessionAct}
    (hcan : s.can e f act = true) {a : TcpAct} (ha : (s.turn act).2 = some a) :
    a.can e f = true := by
  cases act with
  | Input i =>
      have hall := (can_input hcan).2.1
      rw [show s.calls i = some a from ha] at hall
      exact hall
  | Skip =>
      simp only [can, Bool.and_eq_true] at hcan
      exact Option.some_inj.1 ha ▸ hcan.1.2
  | Transport act => exact Option.some_inj.1 ha ▸ (Bool.and_eq_true_iff.1 hcan).2

theorem TcpSession.turn_codec (s : TcpSession) (act : TcpSessionAct) :
    (s.turn act).1.codec = s.codec := by
  cases act <;> rfl

theorem TcpSession.turn_handed (s : TcpSession) (act : TcpSessionAct) :
    s.handed ⊆ (s.turn act).1.handed := by
  cases act with
  | Input i => exact List.subset_append_left _ _
  | Skip => exact List.Subset.refl _
  | Transport act => exact List.Subset.refl _

namespace SessionLink

theorem dialer_step (s : SessionLink) (act : TcpSessionAct) :
    s.step (.Dialer act) =
      { dialer := (s.dialer.turn act).1
        acceptor := s.acceptor
        link := ⟨(ends_after (s.dialer.turn act).2 s.link.dialer s.link.listener).1,
          (ends_after (s.dialer.turn act).2 s.link.dialer s.link.listener).2⟩ } := by
  unfold step
  dsimp only
  cases (s.dialer.turn act).2 <;> rfl

theorem acceptor_step (s : SessionLink) (act : TcpSessionAct) :
    s.step (.Acceptor act) =
      { dialer := s.dialer
        acceptor := (s.acceptor.turn act).1
        link := ⟨(ends_after (s.acceptor.turn act).2 s.link.listener s.link.dialer).2,
          (ends_after (s.acceptor.turn act).2 s.link.listener s.link.dialer).1⟩ } := by
  unfold step
  dsimp only
  cases (s.acceptor.turn act).2 <;> rfl

variable {s : SessionLink} {ours theirs : MessageCodec}

theorem Sound.dialer (h : s.Sound ours theirs) (hreads : ours.Reads theirs s.acceptor.handed)
    {act : TcpSessionAct}
    (hcan : s.dialer.can s.link.dialer s.link.listener act = true) :
    (s.step (.Dialer act)).Sound ours theirs := by
  rw [dialer_step]
  have hlink : tcp.Reachable
      ⟨(ends_after (s.dialer.turn act).2 s.link.dialer s.link.listener).1,
        (ends_after (s.dialer.turn act).2 s.link.dialer s.link.listener).2⟩ := by
    cases ha : (s.dialer.turn act).2 with
    | none => exact h.link
    | some a =>
        have henabled : tcp.enabled s.link (.Dialer a) := TcpSession.can_tcp hcan ha
        exact h.link.next henabled
  have hback := (tcp_sound h.link).delivers.in_order
  have hin := (tcp_sound hlink).swap.delivers.in_order
  obtain ⟨hown, hother, hrefines⟩ := TcpSession.turn_refines
    (h.codecs.1 ▸ h.codecs.2 ▸ hreads) h.talks.1 h.talks.2 hcan hback hin
  refine ⟨⟨(s.dialer.turn_codec act).trans h.codecs.1, h.codecs.2⟩, hlink, ⟨hown, hother⟩, ?_⟩
  have hpair : s.pair =
      ⟨s.dialer.seen s.acceptor s.link.dialer, s.acceptor.seen s.dialer s.link.listener⟩ := rfl
  have hpairs := h.pair
  rw [hpair] at hpairs
  show handshake.Reachable ⟨_, _⟩
  cases hrefines with
  | idle hseen hseen' =>
      rw [hseen, hseen']
      exact hpairs
  | turn a hcan' hturn =>
      have henabled : handshake.enabled ⟨s.dialer.seen s.acceptor s.link.dialer,
        s.acceptor.seen s.dialer s.link.listener⟩ (.Dialer a) := hcan'
      have hnext := hpairs.next henabled
      have hstep : handshake.step ⟨s.dialer.seen s.acceptor s.link.dialer,
          s.acceptor.seen s.dialer s.link.listener⟩ (.Dialer a) = ⟨_, _⟩ :=
        congrArg (fun r : SessionEnd × SessionEnd => SessionPair.mk r.1 r.2) hturn
      rw [hstep] at hnext
      exact hnext

theorem Sound.acceptor (h : s.Sound ours theirs) (hreads : theirs.Reads ours s.dialer.handed)
    {act : TcpSessionAct}
    (hcan : s.acceptor.can s.link.listener s.link.dialer act = true) :
    (s.step (.Acceptor act)).Sound ours theirs := by
  rw [acceptor_step]
  have hlink : tcp.Reachable
      ⟨(ends_after (s.acceptor.turn act).2 s.link.listener s.link.dialer).2,
        (ends_after (s.acceptor.turn act).2 s.link.listener s.link.dialer).1⟩ := by
    cases ha : (s.acceptor.turn act).2 with
    | none => exact h.link
    | some a =>
        have henabled : tcp.enabled s.link (.Listener a) := TcpSession.can_tcp hcan ha
        exact h.link.next henabled
  have hback := (tcp_sound h.link).swap.delivers.in_order
  have hin := (tcp_sound hlink).delivers.in_order
  obtain ⟨hown, hother, hrefines⟩ := TcpSession.turn_refines
    (h.codecs.1 ▸ h.codecs.2 ▸ hreads) h.talks.2 h.talks.1 hcan hback hin
  refine ⟨⟨h.codecs.1, (s.acceptor.turn_codec act).trans h.codecs.2⟩, hlink, ⟨hother, hown⟩, ?_⟩
  have hpair : s.pair =
      ⟨s.dialer.seen s.acceptor s.link.dialer, s.acceptor.seen s.dialer s.link.listener⟩ := rfl
  have hpairs := h.pair
  rw [hpair] at hpairs
  show handshake.Reachable ⟨_, _⟩
  cases hrefines with
  | idle hseen hseen' =>
      rw [hseen, hseen']
      exact hpairs
  | turn a hcan' hturn =>
      have henabled : handshake.enabled ⟨s.dialer.seen s.acceptor s.link.dialer,
        s.acceptor.seen s.dialer s.link.listener⟩ (.Acceptor a) := hcan'
      have hnext := hpairs.next henabled
      have hstep : handshake.step ⟨s.dialer.seen s.acceptor s.link.dialer,
          s.acceptor.seen s.dialer s.link.listener⟩ (.Acceptor a) = ⟨_, _⟩ :=
        congrArg (fun r : SessionEnd × SessionEnd => SessionPair.mk r.2 r.1) hturn
      rw [hstep] at hnext
      exact hnext

end SessionLink

/-- **The stream of a handshake.** Two builds that read each other's messages, or say that they do
not know them, go through a handshake over TCP, whatever the order of the tasks at both ends, the
reads of the stream and the writes that fail. -/
theorem over_tcp_refines {ours theirs : MessageCodec} {s : SessionLink}
    (h : (over_tcp ours theirs).Reachable s) (hours : ours.Reads theirs s.acceptor.handed)
    (htheirs : theirs.Reads ours s.dialer.handed) :
    tcp.Reachable s.link ∧ handshake.Reachable s.pair := by
  have hsound := h.invariant
    (P := fun s => ours.Reads theirs s.acceptor.handed → theirs.Reads ours s.dialer.handed →
      s.Sound ours theirs) ?_ fun s event hs hcan hours htheirs => ?_
  · exact ⟨(hsound hours htheirs).link, (hsound hours htheirs).pair⟩
  · rintro s
      ⟨conn_id, conn, hello, pair, versions, conn_id', conn', hello', pair', versions', rfl⟩ - -
    have hinit : handshake.init
        ⟨.start (.start conn_id conn true (hello.announced versions) pair versions),
          .start (.start conn_id' conn' false (hello'.announced versions') pair' versions')⟩ :=
      ⟨conn_id, conn, hello, pair, versions, conn_id', conn', hello', pair', versions', rfl⟩
    exact ⟨⟨rfl, rfl⟩, .start rfl, ⟨rfl, rfl⟩, .start hinit⟩
  · cases event with
    | Dialer act =>
        have hbefore : theirs.Reads ours s.dialer.handed :=
          fun msg hmsg => htheirs msg (s.dialer.turn_handed act hmsg)
        exact (hs hours hbefore).dialer hours hcan
    | Acceptor act =>
        have hbefore : ours.Reads theirs s.acceptor.handed :=
          fun msg hmsg => hours msg (s.acceptor.turn_handed act hmsg)
        exact (hs hbefore htheirs).acceptor htheirs hcan

end

/-! ## 6. A hello over TCP -/

namespace Sample

def older_hello : PeerHello := (hello peer).announced ⟨⟨1, 0⟩, ⟨1, 0⟩⟩

/-- A codec for the one message of the run. -/
def hello_codec : MessageCodec :=
  { to_bytes := fun msg => if msg = .Hello older_hello then [10, 16] else []
    from_bytes :=
      fun bytes => if bytes = [10, 16] then .Known (.Hello older_hello) else .Malformed }

def tcp_start : SessionLink :=
  { dialer := .start hello_codec (.start 1 (conn other_key) true older_hello none ⟨⟨1, 0⟩, ⟨1, 0⟩⟩)
    acceptor := .start hello_codec (.start 7 (conn peer_key) false
      ((hello other).announced LOCAL_VERSIONS) none LOCAL_VERSIONS)
    link := ⟨.start, .start⟩ }

/-- The dialer's hello goes out in a frame, which comes in with two reads. -/
def hello_events : List SessionLinkEvent :=
  [.Dialer (.Input ⟨0, .Opened true⟩), .Acceptor (.Input ⟨0, .Opened true⟩),
    .Dialer (.Input ⟨1, .Sent true⟩), .Dialer (.Transport (.Write 0 none)),
    .Acceptor (.Transport (.Read 3)), .Acceptor (.Transport (.Frame 0)),
    .Acceptor (.Transport (.Read 4)), .Acceptor (.Transport (.Frame 0)),
    .Acceptor (.Input ⟨2, .Received (some (.Hello older_hello))⟩)]

theorem hello_reached :
    (over_tcp hello_codec hello_codec).Reachable
      ((over_tcp hello_codec hello_codec).exec tcp_start hello_events) := by
  have hinit : (over_tcp hello_codec hello_codec).init tcp_start :=
    ⟨1, conn other_key, hello peer, none, _, 7, conn peer_key, hello other, none, _, rfl⟩
  refine ⟨_, Machine.run_of_admits hinit ?_⟩
  refine ⟨?_, ?_, ?_, ?_, ?_, ?_, ?_, ?_, ?_, trivial⟩ <;> decide +kernel

end Sample

open Sample

theorem over_tcp_refines_sample :
    let s := (over_tcp hello_codec hello_codec).exec tcp_start hello_events
    handshake.Reachable s.pair ∧ s.acceptor.task.phase = .Answering older_hello := by
  have hdialer : ((over_tcp hello_codec hello_codec).exec tcp_start hello_events).dialer.handed =
      [.Hello older_hello] := by decide +kernel
  have hacceptor :
      ((over_tcp hello_codec hello_codec).exec tcp_start hello_events).acceptor.handed =
      [] := by decide +kernel
  refine ⟨(over_tcp_refines hello_reached ?_ ?_).2, by decide +kernel⟩
  · rw [hacceptor]
    exact fun _ hmsg => absurd hmsg List.not_mem_nil
  · rw [hdialer]
    intro msg hmsg
    rw [List.mem_singleton.1 hmsg]
    exact .inl (by decide +kernel)

end SoundPush
