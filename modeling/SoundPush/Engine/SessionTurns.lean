/-
`SessionTurns` -- what an input does to the phase of a session task, to what it hands
over and to what it reports.

`step_turns` says it once; what holds between two devices, and between the tasks and
the engine, is proved over its cases and never looks at the task's code again.

`Turns` has one case for each way a phase may go on, with the messages that were
handed over and the events that were reported on the way. `ends` is every end of a
session at once, and `stay` every input that leaves the phase as it is, among them
all of media. What a task hands over is never more than the message that it holds
pending (`Turns.msgs`).
-/
import SoundPush.Engine.SessionOrder

set_option autoImplicit false

namespace SoundPush

section

variable [Crypto]

/-! ## 1. The turns of a task -/

/-- The messages that a step hands to the transport. -/
def handed (out : List SessionOut) : List ControlMsg :=
  out.filterMap fun o =>
    match o with
    | .Hand msg => some msg
    | _ => none

omit [Crypto] in
theorem handed_append (out more : List SessionOut) :
    handed (out ++ more) = handed out ++ handed more := List.filterMap_append

/-- What the engine asks to send. -/
def SessionAct.asks : SessionAct → List ControlMsg
  | .Command (some (.Send msg)) => [msg]
  | _ => []

/-- What is taken off the stream. -/
def SessionAct.takes : SessionAct → List ControlMsg
  | .Received (some msg) => [msg]
  | _ => []

namespace SessionTask

/-- Where a task has both hellos: the dialer reads the peer's, the acceptor has answered it. -/
inductive Hears (t : SessionTask) : SessionAct → List ControlMsg → PeerHello → Prop
  | dialer (peer : PeerHello) (hphase : t.phase = .Listening) (hdialed : t.dialed = true) :
      Hears t (.Received (some (.Hello peer))) [] peer
  | acceptor (peer : PeerHello) (hphase : t.phase = .Answering peer) :
      Hears t (.Sent true) [.Hello t.local_hello] peer

/-- What the end of a session may be reported as. -/
structure Ends (t : SessionTask) (events : List SessionEvent) : Prop where
  established : ∀ est, SessionEvent.Established est ∉ events
  control : ∀ msg, SessionEvent.Control msg ∉ events
  refused : SessionEvent.HandshakeFailed true ∈ events → t.phase = .Refusing

/-- What an input does to the phase, what it hands over and what it reports. -/
inductive Turns (t t' : SessionTask) :
    SessionAct → List ControlMsg → List SessionEvent → Prop
  | ends (act : SessionAct) (msgs : List ControlMsg) (events : List SessionEvent)
      (hphase : t'.phase = .Over) (hmsgs : msgs = [] ∨ msgs = t.pending.toList ∧ act = .Sent true)
      (hact : act.asks = []) (hends : t.Ends events) :
      Turns t t' act msgs events
  | opened (hphase : t.phase = .Opening)
      (hnext : t'.phase = if t.dialed then .Greeting else .Listening) :
      Turns t t' (.Opened true) [] []
  | greet (hphase : t.phase = .Greeting) (hnext : t'.phase = .Listening) :
      Turns t t' (.Sent true) [.Hello t.local_hello] []
  | answer (peer : PeerHello) (hphase : t.phase = .Listening) (hdialed : t.dialed = false)
      (hnext : t'.phase = .Answering peer) : Turns t t' (.Received (some (.Hello peer))) [] []
  | refuse (act : SessionAct) (msgs : List ControlMsg) (peer : PeerHello)
      (hhears : t.Hears act msgs peer) (hversion : t.versions.negotiate peer.range = none)
      (hnext : t'.phase = .Refusing) : Turns t t' act msgs []
  | pair (act : SessionAct) (msgs : List ControlMsg) (peer : PeerHello)
      (hhears : t.Hears act msgs peer) (hpeer : t.Genuine peer) (hpair : t.pair.isSome = true)
      (hnext : t'.phase = .Pairing peer) : Turns t t' act msgs []
  | establish (act : SessionAct) (msgs : List ControlMsg) (peer : PeerHello)
      (hhears : t.Hears act msgs peer) (hpeer : t.Genuine peer) (hpair : t.pair = none)
      (hnext : t'.phase = .Running) : Turns t t' act msgs [t.announces peer]
  | introduce (peer : PeerHello) (hphase : t.phase = .Pairing peer) (hnext : t'.phase = .Running) :
      Turns t t' (.Sent true) t.pending.toList [t.announces peer]
  | ask (msg : ControlMsg) (hphase : t.phase = .Running) (hnext : t'.phase = .Sending msg) :
      Turns t t' (.Command (some (.Send msg))) [] []
  | send (msg : ControlMsg) (hphase : t.phase = .Sending msg) (hnext : t'.phase = .Running) :
      Turns t t' (.Sent true) [msg] []
  | close (reason : StopReason) (hphase : t.phase = .Running) (hnext : t'.phase = .Leaving reason) :
      Turns t t' (.Command (some (.Close reason))) [] []
  | leave (ok : Bool) (reason : StopReason) (hphase : t.phase = .Leaving reason)
      (hnext : t'.phase = .Parting reason) :
      Turns t t' (.Sent ok) (if ok then t.pending.toList else []) []
  | control (msg : ControlMsg) (hmsg : msg.is_goodbye = false) (hphase : t.phase = .Running)
      (hnext : t'.phase = .Running) : Turns t t' (.Received (some msg)) [] [.Control msg]
  | stay (act : SessionAct) (hnext : t'.phase = t.phase)
      (hact : act.asks = [])
      (hmsg : act.takes = [] ∨ t.phase = .Running) : Turns t t' act [] []

/-! ## 2. Every input is one -/

variable {t : SessionTask} {now : Nat}

omit [Crypto] in
theorem ends_nil (t : SessionTask) : t.Ends [] :=
  ⟨fun _ => List.not_mem_nil, fun _ => List.not_mem_nil, fun h => absurd h List.not_mem_nil⟩

omit [Crypto] in
theorem report_ends (t : SessionTask) (reason : StopReason) :
    t.Ends (reports (t.report (.Closed reason))) := by
  unfold report
  split
  · exact ⟨by simp [reports], by simp [reports], by simp [reports]⟩
  · exact t.ends_nil

omit [Crypto] in
theorem fail_ends (t : SessionTask) (incompatible : Bool)
    (h : incompatible = true → t.phase = .Refusing) :
    t.Ends (reports (t.report (.HandshakeFailed incompatible))) := by
  unfold report
  split
  · refine ⟨by simp [reports], by simp [reports], fun hmem => h ?_⟩
    simpa [reports, eq_comm] using hmem
  · exact t.ends_nil

omit [Crypto] in
theorem handed_report (t : SessionTask) (event : SessionEvent) : handed (t.report event) = [] := by
  unfold report
  split <;> rfl

omit [Crypto] in
theorem handed_establish (t : SessionTask) (now : Nat) (peer : PeerHello) :
    handed (t.establish now peer).2 = [] := by
  unfold SessionTask.establish
  split <;> rfl

theorem handed_greeted (t : SessionTask) (now : Nat) (peer : PeerHello) :
    handed (t.greeted now peer).2 = [] := by
  unfold greeted
  split
  · exact t.handed_report _
  split
  · rfl
  split
  · rfl
  · exact t.handed_establish now peer

omit [Crypto] in
theorem Hears.msgs {act : SessionAct} {msgs : List ControlMsg} {peer : PeerHello}
    (h : t.Hears act msgs peer) :
    (msgs = [] ∨ msgs = t.pending.toList ∧ act = .Sent true) ∧
      act.asks = [] := by
  cases h with
  | dialer _ _ => exact ⟨.inl rfl, rfl⟩
  | acceptor _ hphase =>
      refine ⟨.inr ⟨?_, rfl⟩, rfl⟩
      rw [pending, hphase]
      rfl

theorem finish_turns {act : SessionAct} (hact : act.asks = [])
    (t : SessionTask) (reason : StopReason) :
    t.Turns (t.finish reason).1 act (handed (t.finish reason).2) (reports (t.finish reason).2) := by
  have hhanded : handed (t.finish reason).2 = [] := t.handed_report _
  rw [hhanded]
  exact .ends act [] _ rfl (.inl rfl) hact (t.report_ends reason)

theorem fail_turns {act : SessionAct} (hact : act.asks = [])
    (t : SessionTask) (code : UInt32) :
    t.Turns (t.fail code).1 act (handed (t.fail code).2) (reports (t.fail code).2) := by
  have hhanded : handed (t.fail code).2 = [] := t.handed_report _
  rw [hhanded]
  exact .ends act [] _ rfl (.inl rfl) hact (t.fail_ends false Bool.noConfusion)

theorem greeted_turns {act : SessionAct} {msgs : List ControlMsg} {peer : PeerHello}
    (h : t.Hears act msgs peer) :
    t.Turns (t.greeted now peer).1 act msgs (reports (t.greeted now peer).2) := by
  unfold greeted
  split
  · exact .ends act msgs _ rfl h.msgs.1 h.msgs.2 (t.fail_ends false Bool.noConfusion)
  next hclaimed =>
    split
    · next hversion => exact .refuse act msgs peer h (by simpa using hversion) rfl
    next hversion =>
      have hpeer : t.Genuine peer :=
        ⟨by simpa using hclaimed, by simpa [Option.isSome_iff_ne_none] using hversion⟩
      split
      · next hpair => exact .pair act msgs peer h hpeer hpair rfl
      · next hpair =>
          unfold SessionTask.establish
          split
          · exact .establish act msgs peer h hpeer (by simpa using hpair) rfl
          · exact .ends act msgs _ rfl h.msgs.1 h.msgs.2 t.ends_nil

/-- A hand-over that succeeds hands the message over. -/
theorem sent_turns (hwaits : t.pending.isSome = true) (ok : Bool) :
    t.Turns (t.sent now ok).1 (.Sent ok) (handed (t.sent now ok).2)
    (reports (t.sent now ok).2) := by
  have hact : (SessionAct.Sent ok).asks = [] := rfl
  -- What is handed over is what was pending, if the write succeeds.
  have hmsgs : handed (if ok then t.pending.toList.map SessionOut.Hand else []) =
      if ok then t.pending.toList else [] := by
    cases ok <;> cases t.pending <;> rfl
  unfold sent
  dsimp only
  rw [handed_append, hmsgs, reports_append, handed_reports, List.nil_append]
  split
  · next hphase =>
      have hpending : t.pending = some (.Hello t.local_hello) := by rw [pending, hphase]
      cases ok with
      | true =>
          rw [if_pos rfl, if_pos rfl, hpending]
          exact .greet hphase rfl
      | false => exact t.fail_turns hact 1
  · next peer hphase =>
      have hpending : t.pending = some (.Hello t.local_hello) := by rw [pending, hphase]
      cases ok with
      | true =>
          rw [if_pos rfl, if_pos rfl, hpending, handed_greeted]
          exact greeted_turns (.acceptor peer hphase)
      | false => exact t.fail_turns hact 1
  · next hphase =>
      have hhanded : handed (SessionOut.CloseConn 3 :: t.report (.HandshakeFailed true)) = [] :=
        t.handed_report _
      rw [hhanded, List.append_nil]
      refine .ends _ _ _ rfl ?_ hact (t.fail_ends true fun _ => hphase)
      cases ok with
      | true => exact .inr ⟨rfl, rfl⟩
      | false => exact .inl rfl
  · next peer hphase =>
      cases ok with
      | true =>
          rw [if_pos rfl, if_pos rfl, handed_establish, List.append_nil]
          unfold SessionTask.establish
          split
          · exact .introduce peer hphase rfl
          · exact .ends _ _ _ rfl (.inr ⟨rfl, rfl⟩) hact t.ends_nil
      | false =>
          have hhanded : handed (t.report (.HandshakeFailed false)) = [] := t.handed_report _
          rw [if_neg Bool.false_ne_true, if_neg Bool.false_ne_true]
          dsimp only
          rw [hhanded]
          exact .ends _ _ _ rfl (.inl rfl) hact (t.fail_ends false Bool.noConfusion)
  · next msg hphase =>
      have hpending : t.pending = some msg := by rw [pending, hphase]
      cases ok with
      | true =>
          rw [if_pos rfl, if_pos rfl, hpending]
          exact .send msg hphase rfl
      | false => exact t.finish_turns hact .NetworkLost
  · next reason hphase =>
      have hhanded : handed [SessionOut.Finish] = [] := rfl
      rw [hhanded, List.append_nil]
      exact .leave ok reason hphase rfl
  · -- no other phase waits for a hand-over
    next hgreeting hanswering hrefusing hpairing hsending hleaving =>
      unfold pending at hwaits
      split at hwaits <;> simp_all

theorem on_message_turns (h : t.phase = .Running) (msg : ControlMsg) :
    t.Turns (t.on_message now msg).1 (.Received (some msg)) (handed (t.on_message now msg).2)
      (reports (t.on_message now msg).2) := by
  have hact : (SessionAct.Received (some msg)).asks = [] := rfl
  have hstay {t' : SessionTask} (hnext : t'.phase = t.phase) :
      t.Turns t' (.Received (some msg)) [] [] := .stay _ hnext hact (.inr h)
  have hclosed (limit : RateLimit) (dropped : Nat) (reason : StopReason) :
      t.Turns ({ t with control_limit := limit, dropped_control := dropped }.finish reason).1
        (.Received (some msg))
        (handed ({ t with control_limit := limit, dropped_control := dropped }.finish reason).2)
        (reports
          ({ t with control_limit := limit, dropped_control := dropped }.finish reason).2) := by
    have hhanded : handed ({ t with
        control_limit := limit, dropped_control := dropped }.finish reason).2 = [] :=
      handed_report _ _
    rw [hhanded]
    exact .ends _ [] _ rfl (.inl rfl) hact (t.report_ends reason)
  unfold on_message
  split
  · exact t.finish_turns hact _
  next hgoodbye =>
    have hmsg : msg.is_goodbye = false := by
      unfold ControlMsg.is_goodbye
      split
      · next reason => exact (hgoodbye reason rfl).elim
      · rfl
    dsimp only
    split
    · split
      · exact hclosed _ _ _
      · exact hstay rfl
    · split
      · exact .control msg hmsg h h
      · exact hclosed _ t.dropped_control _

omit [Crypto] in
theorem on_datagram_quiet (t : SessionTask) (now : Nat) (bytes : Bytes) :
    handed (t.on_datagram now bytes).2 = [] ∧ reports (t.on_datagram now bytes).2 = [] := by
  unfold on_datagram
  split
  · exact ⟨rfl, rfl⟩
  · split
    · exact ⟨rfl, rfl⟩
    · dsimp only
      split <;> exact ⟨rfl, rfl⟩
  · cases t.probe_sink <;> exact ⟨rfl, rfl⟩
  · next packet _ => cases t.sinks.get packet.header.route <;> exact ⟨rfl, rfl⟩

/-- The inputs that leave a phase as it is. -/
theorem stay_turns {i : SessionInput} (hnext : (t.step i).1.phase = t.phase)
    (hact : i.act.asks = []) (hmsg : i.act.takes = [] ∨ t.phase = .Running)
    (hhanded : handed (t.step i).2 = []) (hreports : reports (t.step i).2 = []) :
    t.Turns (t.step i).1 i.act (handed (t.step i).2) (reports (t.step i).2) := by
  rw [hhanded, hreports]
  exact .stay _ hnext hact hmsg

theorem received_turns (hwaits : t.phase = .Listening ∨ t.phase = .Running)
    (msg : Option ControlMsg) :
    t.Turns (t.step ⟨now, .Received msg⟩).1 (.Received msg)
      (handed (t.step ⟨now, .Received msg⟩).2) (reports (t.step ⟨now, .Received msg⟩).2) := by
  have hact : (SessionAct.Received msg).asks = [] := rfl
  simp only [step]
  split
  · next peer hphase =>
      split
      · next hdialed =>
          rw [handed_greeted]
          exact greeted_turns (.dialer peer hphase hdialed)
      · next hdialed => exact .answer peer hphase (by simpa using hdialed) rfl
  · exact t.fail_turns hact 1
  · next hnot => exact on_message_turns (hwaits.resolve_left hnot) _
  · exact t.finish_turns hact .NetworkLost

theorem step_turns {i : SessionInput} (hwaits : t.waits i.act = true) :
    t.Turns (t.step i).1 i.act (handed (t.step i).2) (reports (t.step i).2) := by
  obtain ⟨now, act⟩ := i
  cases act with
  | Opened ok =>
      cases ok with
      | true => exact .opened (of_decide_eq_true hwaits) rfl
      | false => exact t.fail_turns rfl 1
  | Sent ok => exact sent_turns hwaits ok
  | Received msg =>
      simp only [waits, Bool.or_eq_true, decide_eq_true_eq] at hwaits
      exact received_turns hwaits msg
  | TimedOut => exact t.fail_turns rfl 1
  | Slept =>
      simp only [step]
      split
      · exact t.finish_turns rfl _
      · exact .stay _ rfl rfl (.inl rfl)
  | Command cmd =>
      have hphase : t.phase = .Running := of_decide_eq_true hwaits
      cases cmd with
      | none => exact t.finish_turns rfl .UserStopped
      | some cmd =>
          cases cmd with
          | Send msg => exact .ask msg hphase rfl
          | Close reason => exact .close reason hphase rfl
          | _ => exact .stay _ rfl rfl (.inl rfl)
  | Datagram bytes =>
      cases bytes with
      | none => exact t.finish_turns rfl .NetworkLost
      | some bytes =>
          obtain ⟨hhanded, hreports⟩ := t.on_datagram_quiet now bytes
          exact stay_turns (t.on_datagram_kept now bytes).2 rfl (.inl rfl) hhanded hreports
  | EngineStopped =>
      exact .stay _ rfl rfl (.inl rfl)

/-- What is handed over is what was pending, when the transport has taken it. -/
def hands (t : SessionTask) (act : SessionAct) : List ControlMsg :=
  match act with
  | .Sent true => t.pending.toList
  | _ => []

theorem sent_handed (t : SessionTask) (now : Nat) (ok : Bool) :
    handed (t.sent now ok).2 = if ok then t.pending.toList else [] := by
  have hmsgs : handed (if ok then t.pending.toList.map SessionOut.Hand else []) =
      if ok then t.pending.toList else [] := by
    cases ok <;> cases t.pending <;> rfl
  unfold sent
  dsimp only
  rw [handed_append, hmsgs, List.append_right_eq_self]
  split
  · split
    · rfl
    · exact t.handed_report _
  · split
    · exact t.handed_greeted now _
    · exact t.handed_report _
  · exact t.handed_report _
  · split
    · exact t.handed_establish now _
    · exact t.handed_report _
  · split
    · rfl
    · exact t.handed_report _
  · rfl
  · rfl

omit [Crypto] in
theorem on_message_handed (t : SessionTask) (now : Nat) (msg : ControlMsg) :
    handed (t.on_message now msg).2 = [] := by
  unfold on_message
  split
  · exact t.handed_report _
  dsimp only
  split
  · split
    · exact handed_report _ _
    · rfl
  · split
    · rfl
    · exact handed_report _ _

theorem step_handed (t : SessionTask) (i : SessionInput) : handed (t.step i).2 = t.hands i.act := by
  obtain ⟨now, act⟩ := i
  cases act with
  | Opened ok =>
      simp only [step]
      split
      · rfl
      · exact t.handed_report _
  | Sent ok =>
      rw [step, sent_handed]
      cases ok <;> rfl
  | Received msg =>
      simp only [step]
      split
      · split
        · exact t.handed_greeted now _
        · rfl
      · exact t.handed_report _
      · exact t.on_message_handed now _
      · exact t.handed_report _
  | TimedOut => exact t.handed_report _
  | Slept =>
      simp only [step]
      split
      · exact t.handed_report _
      · rfl
  | Command cmd =>
      cases cmd with
      | none => exact t.handed_report _
      | some cmd => cases cmd <;> rfl
  | Datagram bytes =>
      cases bytes with
      | none => exact t.handed_report _
      | some bytes => exact (t.on_datagram_quiet now bytes).1
  | EngineStopped => rfl

/-- Only what is pending is ever handed over. -/
theorem Turns.msgs {t' : SessionTask} {act : SessionAct} {msgs : List ControlMsg}
    {events : List SessionEvent} (h : t.Turns t' act msgs events) :
    msgs = [] ∨ msgs = t.pending.toList := by
  cases h with
  | ends _ _ _ _ hmsgs _ _ => exact hmsgs.imp_right And.left
  | greet hphase _ =>
      refine .inr ?_
      rw [pending, hphase]
      rfl
  | refuse _ _ _ hhears _ _ => exact hhears.msgs.1.imp_right And.left
  | pair _ _ _ hhears _ _ _ => exact hhears.msgs.1.imp_right And.left
  | establish _ _ _ hhears _ _ _ => exact hhears.msgs.1.imp_right And.left
  | introduce _ _ _ => exact .inr rfl
  | send msg hphase _ =>
      refine .inr ?_
      rw [pending, hphase]
      rfl
  | leave ok _ _ _ =>
      cases ok with
      | true => exact .inr rfl
      | false => exact .inl rfl
  | opened => exact .inl rfl
  | answer => exact .inl rfl
  | ask => exact .inl rfl
  | close => exact .inl rfl
  | control => exact .inl rfl
  | stay => exact .inl rfl

end SessionTask
end
end SoundPush
