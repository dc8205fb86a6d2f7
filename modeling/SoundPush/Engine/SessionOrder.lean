/-
`SessionOrder` -- what the engine and the peer see of a session task, over its whole run.

`Goes` is all that a step can do to the stage a session is in and to what it
reports. `Told` is what the engine has heard when it is there: of the session before
any of its messages, and of its end last.

How it is put together. The source runs a session as one function with many points where it waits;
the task of the model has a phase for each of them. The phases fall into three stages, and every
report moves the session from a stage to the next or keeps it in the middle one. So § 2 proves of
each function of the task which constructor of `Goes` it is, § 3 that nothing but the phase, the
limits and the counters ever changes, and § 4 adds the steps up along a run.

The engine may stop at any time. A session notices when it reports, ends, and reports nothing from
then on, which is the constructor `unheard`.
-/
import SoundPush.Engine.SessionTask

set_option autoImplicit false

namespace SoundPush

/-! ## 1. Stages

Before the engine has heard of the session, while it hears from it, and after its end. -/

/-- Where a session is, as far as the engine can tell. -/
inductive SessionStage where
  /-- the handshake -/
  | Early
  /-- between `Established` and the end -/
  | Talking
  | Over
  deriving DecidableEq

/-- The phases in which the handshake goes on are early; those in which the session still
answers or takes its leave belong to the talk. -/
def SessionPhase.stage : SessionPhase → SessionStage
  | .Opening | .Greeting | .Listening | .Answering _ | .Refusing | .Pairing _ => .Early
  | .Running | .Sending _ | .Leaving _ | .Parting _ => .Talking
  | .Over => .Over

/-- The events that a step reports. -/
def reports (out : List SessionOut) : List SessionEvent :=
  out.filterMap fun o =>
    match o with
    | .Report event => some event
    | _ => none

theorem reports_append (out more : List SessionOut) :
    reports (out ++ more) = reports out ++ reports more := List.filterMap_append

namespace SessionTask

/-- The stage a session is in. -/
def stage (t : SessionTask) : SessionStage := t.phase.stage

/-- What never changes about a session, and that an engine that has stopped does not come back. -/
structure Same (t t' : SessionTask) : Prop where
  conn_id : t'.conn_id = t.conn_id
  conn : t'.conn = t.conn
  dialed : t'.dialed = t.dialed
  local_hello : t'.local_hello = t.local_hello
  pair : t'.pair = t.pair
  versions : t'.versions = t.versions
  engine : t'.engine = true → t.engine = true

/-- The same while the engine goes on. -/
structure Kept (t t' : SessionTask) : Prop extends Same t t' where
  listens : t'.engine = t.engine

theorem Kept.refl (t : SessionTask) : t.Kept t := ⟨⟨rfl, rfl, rfl, rfl, rfl, rfl, id⟩, rfl⟩

variable [Crypto]

/-- A peer that is who it says it is and with whom there is a version to talk in. -/
structure Genuine (t : SessionTask) (peer : PeerHello) : Prop where
  claimed : peer.claimed = some t.conn.peer_public_key.device_id
  version : (t.versions.negotiate peer.range).isSome = true

/-- The event of a session whose peer said hello with `peer`. -/
def announces (t : SessionTask) (peer : PeerHello) : SessionEvent :=
  .Established { conn_id := t.conn_id, conn := t.conn, hello := peer.hello, dialed := t.dialed }

/-- What a step does to the stage, and what it reports. -/
inductive Goes (t t' : SessionTask) : List SessionEvent → Prop
  | keep (hstage : t'.stage = t.stage) : Goes t t' []
  | establish (peer : PeerHello) (hearly : t.stage = .Early) (htalking : t'.stage = .Talking)
      (hengine : t.engine = true) (hpeer : t.Genuine peer) : Goes t t' [t.announces peer]
  | control (msg : ControlMsg) (htalking : t.stage = .Talking) (hstage : t'.stage = .Talking)
      (hengine : t.engine = true) : Goes t t' [.Control msg]
  | finish (reason : StopReason) (htalking : t.stage = .Talking) (hover : t'.stage = .Over)
      (hengine : t.engine = true) : Goes t t' [.Closed reason]
  | fail (incompatible : Bool) (hearly : t.stage = .Early) (hover : t'.stage = .Over)
      (hengine : t.engine = true) : Goes t t' [.HandshakeFailed incompatible]
  | unheard (hstage : t.stage ≠ .Over) (hover : t'.stage = .Over) (hengine : t'.engine = false) :
      Goes t t' []

/-! ## 2. One step

One lemma for each function of the task, from the ends inward: finishing, failing, establishing, and
then the functions that call them. -/

variable {t : SessionTask} {now : Nat}

/-- A session that ends says why, if the engine is there to hear it. -/
theorem finish_goes (h : t.stage = .Talking) (reason : StopReason) :
    t.Goes (t.finish reason).1 (reports (t.finish reason).2) := by
  cases hengine : t.engine with
  | true =>
      have hout : reports (t.finish reason).2 = [.Closed reason] := by
        simp [SessionTask.finish, report, hengine, reports]
      rw [hout]
      exact .finish reason h rfl hengine
  | false =>
      have hout : reports (t.finish reason).2 = [] := by
        simp [SessionTask.finish, report, hengine, reports]
      rw [hout]
      exact .unheard (by rw [h]; decide) rfl hengine

/-- The handshake ends without a session. -/
theorem over_goes (h : t.stage = .Early) (out : List SessionOut) (hout : reports out = [])
    (incompatible : Bool) :
    t.Goes t.ended (reports (out ++ t.report (.HandshakeFailed incompatible))) := by
  rw [reports_append, hout, List.nil_append]
  cases hengine : t.engine with
  | true =>
      have hone : reports (t.report (.HandshakeFailed incompatible)) =
          [.HandshakeFailed incompatible] := by simp [report, hengine, reports]
      rw [hone]
      exact .fail incompatible h rfl hengine
  | false =>
      have hnone : reports (t.report (.HandshakeFailed incompatible)) = [] := by
        simp [report, hengine, reports]
      rw [hnone]
      exact .unheard (by rw [h]; decide) rfl hengine

/-- A handshake that fails closes the connection and says so. -/
theorem fail_goes (h : t.stage = .Early) (code : UInt32) :
    t.Goes (t.fail code).1 (reports (t.fail code).2) :=
  over_goes h [.CloseConn code] rfl false

/-- A session is announced once its peer is genuine. -/
theorem establish_goes (h : t.stage = .Early) {peer : PeerHello} (hpeer : t.Genuine peer) :
    t.Goes (t.establish now peer).1 (reports (t.establish now peer).2) := by
  unfold SessionTask.establish
  by_cases hengine : t.engine = true
  · rw [if_pos hengine]
    exact .establish peer h rfl hengine hpeer
  · rw [if_neg hengine]
    exact .unheard (by rw [h]; decide) rfl (Bool.not_eq_true _ ▸ hengine)

/-- The peer's hello: its id must be that of its key, and there must be a version. A session
that pairs sends its request first and is announced after. -/
theorem greeted_goes (h : t.stage = .Early) (peer : PeerHello) :
    t.Goes (t.greeted now peer).1 (reports (t.greeted now peer).2) := by
  unfold greeted
  split
  · exact fail_goes h 2
  next hclaimed =>
    split
    · exact .keep h.symm
    next hversion =>
      split
      · exact .keep h.symm
      · exact establish_goes h
          ⟨by simpa using hclaimed, by simpa [Option.isSome_iff_ne_none] using hversion⟩

omit [Crypto] in
/-- What is handed to the transport is no report. -/
theorem handed_reports (t : SessionTask) (ok : Bool) :
    reports (if ok then t.pending.toList.map SessionOut.Hand else []) = [] := by
  cases ok <;> cases t.pending <;> rfl

/-- What waits for the pair request to go out has checked the peer. -/
def Checked (t : SessionTask) : Prop := ∀ peer, t.phase = .Pairing peer → t.Genuine peer

/-- A message went out, or failed to. The phase says what it was and what comes next. -/
theorem sent_goes (hchecked : t.Checked) (ok : Bool) :
    t.Goes (t.sent now ok).1 (reports (t.sent now ok).2) := by
  unfold sent
  dsimp only
  rw [reports_append, handed_reports, List.nil_append]
  split
  · next hphase =>
      have hearly : t.stage = .Early := by rw [stage, hphase]; rfl
      split
      · exact .keep (by rw [hearly]; rfl)
      · exact fail_goes hearly 1
  · next peer hphase =>
      have hearly : t.stage = .Early := by rw [stage, hphase]; rfl
      split
      · exact greeted_goes hearly peer
      · exact fail_goes hearly 1
  · next hphase =>
      have hearly : t.stage = .Early := by rw [stage, hphase]; rfl
      exact over_goes hearly [.CloseConn 3] rfl true
  · next peer hphase =>
      have hearly : t.stage = .Early := by rw [stage, hphase]; rfl
      split
      · exact establish_goes hearly (hchecked peer hphase)
      · exact over_goes hearly [] rfl false
  · next msg hphase =>
      have htalking : t.stage = .Talking := by rw [stage, hphase]; rfl
      split
      · exact .keep (by rw [htalking]; rfl)
      · exact finish_goes htalking .NetworkLost
  · next reason hphase =>
      have htalking : t.stage = .Talking := by rw [stage, hphase]; rfl
      exact .keep (by rw [htalking]; rfl)
  · exact .keep rfl

/-- The counters of a session have no part in its stage. -/
theorem Goes.of_same_phase {t₀ t' : SessionTask} {events : List SessionEvent} (h : t.Goes t' events)
    (hphase : t.phase = t₀.phase) (hengine : t.engine = t₀.engine)
    (hconn_id : t.conn_id = t₀.conn_id)
    (hconn : t.conn = t₀.conn) (hdialed : t.dialed = t₀.dialed)
    (hversions : t.versions = t₀.versions) : t₀.Goes t' events := by
  have hstage : t.stage = t₀.stage := congrArg SessionPhase.stage hphase
  cases h with
  | keep h => exact .keep (h.trans hstage)
  | establish peer hearly htalking hon hpeer =>
      have hann : t.announces peer = t₀.announces peer := by
        unfold announces
        rw [hconn_id, hconn, hdialed]
      rw [hann]
      exact .establish peer (hstage ▸ hearly) htalking (hengine ▸ hon)
        ⟨hconn ▸ hpeer.claimed, hversions ▸ hpeer.version⟩
  | control msg htalking h hon => exact .control msg (hstage ▸ htalking) h (hengine ▸ hon)
  | finish reason htalking hover hon =>
      exact .finish reason (hstage ▸ htalking) hover (hengine ▸ hon)
  | fail b hearly hover hon => exact .fail b (hstage ▸ hearly) hover (hengine ▸ hon)
  | unheard hne hover hoff => exact .unheard (hstage ▸ hne) hover hoff

/-- A message of the peer: it is passed on, dropped as a flood, or ends the session. -/
theorem on_message_goes (h : t.stage = .Talking) (msg : ControlMsg) :
    t.Goes (t.on_message now msg).1 (reports (t.on_message now msg).2) := by
  unfold on_message
  split
  · exact finish_goes h _
  · dsimp only
    split
    · split
      · exact (finish_goes (t := { t with
            control_limit := (t.control_limit.allow (secs now)).1
            dropped_control := t.dropped_control + 1 }) h .Unspecified).of_same_phase
          rfl rfl rfl rfl rfl rfl
      · exact .keep rfl
    · split
      · next hengine => exact .control msg h h hengine
      · exact (finish_goes (t := { t with
            control_limit := (t.control_limit.allow (secs now)).1 }) h .UserStopped).of_same_phase
          rfl rfl rfl rfl rfl rfl

/-- A command changes the sinks, arms a test or names what goes out next; by itself it reports
nothing. -/
theorem on_command_goes (h : t.stage = .Talking) (cmd : SessionCmd) :
    t.Goes (t.on_command now cmd).1 (reports (t.on_command now cmd).2) := by
  cases cmd with
  | Send msg => exact .keep (by rw [h]; rfl)
  | AddSink route sink => exact .keep rfl
  | RemoveSink route => exact .keep rfl
  | ArmEcho test_id until_ => exact .keep rfl
  | ProbeSink sink => exact .keep rfl
  | Close reason => exact .keep (by rw [h]; rfl)

/-- A datagram is delivered or echoed, and reports nothing. -/
theorem on_datagram_goes (t : SessionTask) (now : Nat) (bytes : Bytes) :
    t.Goes (t.on_datagram now bytes).1 (reports (t.on_datagram now bytes).2) := by
  have hnone : reports (t.on_datagram now bytes).2 = [] := by
    unfold on_datagram
    split
    · rfl
    · split
      · rfl
      · dsimp only
        split <;> rfl
    · cases t.probe_sink <;> rfl
    · next packet _ => cases t.sinks.get packet.header.route <;> rfl
  rw [hnone]
  refine .keep ?_
  unfold on_datagram
  split
  · rfl
  · split <;> rfl
  · rfl
  · rfl

/-- Any step that the phase waits for. -/
theorem step_goes {i : SessionInput} (hwaits : t.waits i.act = true) (hchecked : t.Checked) :
    t.Goes (t.step i).1 (reports (t.step i).2) := by
  obtain ⟨now, act⟩ := i
  cases act with
  | Opened ok =>
      have hphase : t.phase = .Opening := of_decide_eq_true hwaits
      have hearly : t.stage = .Early := by rw [stage, hphase]; rfl
      simp only [step]
      split
      · refine .keep (Eq.trans ?_ hearly.symm)
        unfold stage
        dsimp only
        split <;> rfl
      · exact fail_goes hearly 1
  | Sent ok => exact sent_goes hchecked ok
  | Received msg =>
      simp only [waits, Bool.or_eq_true, decide_eq_true_eq] at hwaits
      simp only [step]
      split
      · next peer hphase =>
          have hearly : t.stage = .Early := by rw [stage, hphase]; rfl
          split
          · exact greeted_goes hearly peer
          · exact .keep (by rw [hearly]; rfl)
      · next hphase _ =>
          have hearly : t.stage = .Early := by rw [stage, hphase]; rfl
          exact fail_goes hearly 1
      · next hnot =>
          have hphase : t.phase = .Running := hwaits.resolve_left fun hl => hnot hl
          have htalking : t.stage = .Talking := by rw [stage, hphase]; rfl
          exact on_message_goes htalking _
      · next hnot =>
          have hphase : t.phase = .Running := hwaits.resolve_left fun hl => hnot hl
          have htalking : t.stage = .Talking := by rw [stage, hphase]; rfl
          exact finish_goes htalking .NetworkLost
  -- The timer runs during the handshake only.
  | TimedOut =>
      have hearly : t.stage = .Early := by
        simp only [waits] at hwaits
        split at hwaits <;> first | (next hphase => rw [stage, hphase]; rfl) | cases hwaits
      exact fail_goes hearly 1
  | Slept =>
      simp only [step]
      split
      · next reason hphase =>
          have htalking : t.stage = .Talking := by rw [stage, hphase]; rfl
          exact finish_goes htalking reason
      · exact .keep rfl
  | Command cmd =>
      have hphase : t.phase = .Running := of_decide_eq_true hwaits
      have htalking : t.stage = .Talking := by rw [stage, hphase]; rfl
      cases cmd with
      | none => exact finish_goes htalking .UserStopped
      | some cmd => exact on_command_goes htalking cmd
  | Datagram bytes =>
      have hphase : t.phase = .Running := of_decide_eq_true hwaits
      have htalking : t.stage = .Talking := by rw [stage, hphase]; rfl
      cases bytes with
      | none => exact finish_goes htalking .NetworkLost
      | some bytes => exact t.on_datagram_goes now bytes
  | EngineStopped => exact .keep rfl

/-! ## 3. What a step leaves alone

The identity of a session: its connection, who dialed, what it said of itself, and the versions it
offers. And a peer that was checked stays checked while the request to pair goes out. -/

omit [Crypto] in
theorem establish_kept (t : SessionTask) (now : Nat) (peer : PeerHello) :
    t.Kept (t.establish now peer).1 := by
  unfold SessionTask.establish
  split <;> exact ⟨⟨rfl, rfl, rfl, rfl, rfl, rfl, id⟩, rfl⟩

theorem greeted_kept (t : SessionTask) (now : Nat) (peer : PeerHello) :
    t.Kept (t.greeted now peer).1 := by
  unfold greeted
  split
  · exact ⟨⟨rfl, rfl, rfl, rfl, rfl, rfl, id⟩, rfl⟩
  split
  · exact ⟨⟨rfl, rfl, rfl, rfl, rfl, rfl, id⟩, rfl⟩
  split
  · exact ⟨⟨rfl, rfl, rfl, rfl, rfl, rfl, id⟩, rfl⟩
  · exact t.establish_kept now peer

/-- A message that went out changes the phase and the counters. -/
theorem sent_kept (t : SessionTask) (now : Nat) (ok : Bool) : t.Kept (t.sent now ok).1 := by
  unfold sent
  dsimp only
  split
  · split <;> exact ⟨⟨rfl, rfl, rfl, rfl, rfl, rfl, id⟩, rfl⟩
  · split
    · exact t.greeted_kept now _
    · exact ⟨⟨rfl, rfl, rfl, rfl, rfl, rfl, id⟩, rfl⟩
  · exact ⟨⟨rfl, rfl, rfl, rfl, rfl, rfl, id⟩, rfl⟩
  · split
    · exact t.establish_kept now _
    · exact ⟨⟨rfl, rfl, rfl, rfl, rfl, rfl, id⟩, rfl⟩
  · split <;> exact ⟨⟨rfl, rfl, rfl, rfl, rfl, rfl, id⟩, rfl⟩
  · exact ⟨⟨rfl, rfl, rfl, rfl, rfl, rfl, id⟩, rfl⟩
  · exact .refl t

omit [Crypto] in
/-- So does a message that came in. -/
theorem on_message_kept (t : SessionTask) (now : Nat) (msg : ControlMsg) :
    t.Kept (t.on_message now msg).1 := by
  unfold on_message
  split
  · exact ⟨⟨rfl, rfl, rfl, rfl, rfl, rfl, id⟩, rfl⟩
  dsimp only
  split
  · split <;> exact ⟨⟨rfl, rfl, rfl, rfl, rfl, rfl, id⟩, rfl⟩
  · split <;> exact ⟨⟨rfl, rfl, rfl, rfl, rfl, rfl, id⟩, rfl⟩

omit [Crypto] in
/-- A datagram leaves the phase as well. -/
theorem on_datagram_kept (t : SessionTask) (now : Nat) (bytes : Bytes) :
    t.Kept (t.on_datagram now bytes).1 ∧ (t.on_datagram now bytes).1.phase = t.phase := by
  unfold on_datagram
  split
  · exact ⟨.refl t, rfl⟩
  · split
    · exact ⟨.refl t, rfl⟩
    · exact ⟨⟨⟨rfl, rfl, rfl, rfl, rfl, rfl, id⟩, rfl⟩, rfl⟩
  · exact ⟨.refl t, rfl⟩
  · exact ⟨.refl t, rfl⟩

/-- Only the end of the engine changes whether it listens. -/
theorem step_kept (t : SessionTask) {i : SessionInput} (h : i.act ≠ .EngineStopped) :
    t.Kept (t.step i).1 := by
  obtain ⟨now, act⟩ := i
  cases act with
  | Opened ok =>
      simp only [step]
      split <;> exact ⟨⟨rfl, rfl, rfl, rfl, rfl, rfl, id⟩, rfl⟩
  | Sent ok => exact t.sent_kept now ok
  | Received msg =>
      simp only [step]
      split
      · split
        · exact t.greeted_kept now _
        · exact ⟨⟨rfl, rfl, rfl, rfl, rfl, rfl, id⟩, rfl⟩
      · exact ⟨⟨rfl, rfl, rfl, rfl, rfl, rfl, id⟩, rfl⟩
      · exact t.on_message_kept now _
      · exact ⟨⟨rfl, rfl, rfl, rfl, rfl, rfl, id⟩, rfl⟩
  | TimedOut => exact ⟨⟨rfl, rfl, rfl, rfl, rfl, rfl, id⟩, rfl⟩
  | Slept =>
      simp only [step]
      split <;> exact ⟨⟨rfl, rfl, rfl, rfl, rfl, rfl, id⟩, rfl⟩
  | Command cmd =>
      cases cmd with
      | none => exact ⟨⟨rfl, rfl, rfl, rfl, rfl, rfl, id⟩, rfl⟩
      | some cmd => cases cmd <;> exact ⟨⟨rfl, rfl, rfl, rfl, rfl, rfl, id⟩, rfl⟩
  | Datagram bytes =>
      cases bytes with
      | none => exact ⟨⟨rfl, rfl, rfl, rfl, rfl, rfl, id⟩, rfl⟩
      | some bytes => exact (t.on_datagram_kept now bytes).1
  | EngineStopped => exact absurd rfl h

/-- Any step keeps what a session is, and an engine that has stopped stays away. -/
theorem step_same (t : SessionTask) (i : SessionInput) : t.Same (t.step i).1 := by
  by_cases h : i.act = .EngineStopped
  · obtain ⟨now, act⟩ := i
    obtain rfl : act = .EngineStopped := h
    exact ⟨rfl, rfl, rfl, rfl, rfl, rfl, fun hon => absurd hon Bool.false_ne_true⟩
  · exact (t.step_kept h).toSame

omit [Crypto] in
/-- A session that is established runs, or is over if the engine is gone. -/
theorem establish_phase (t : SessionTask) (now : Nat) (peer : PeerHello) :
    (t.establish now peer).1.phase = .Running ∨ (t.establish now peer).1.phase = .Over := by
  unfold SessionTask.establish
  split
  · exact .inl rfl
  · exact .inr rfl

/-- Only the phase that sends a request to pair has anything to check. -/
theorem checked_of_phase {t : SessionTask} (h : ∀ peer, t.phase ≠ .Pairing peer) : t.Checked :=
  fun peer hphase => absurd hphase (h peer)

/-- The counters of a session have no part in the check of its peer. -/
theorem Checked.of_same_phase {t' : SessionTask} (h : t.Checked) (hphase : t'.phase = t.phase)
    (hconn : t'.conn = t.conn) (hversions : t'.versions = t.versions) : t'.Checked := by
  intro p hp
  have hpeer := h p (hphase ▸ hp)
  exact ⟨hconn ▸ hpeer.claimed, hversions ▸ hpeer.version⟩

theorem establish_checked (t : SessionTask) (now : Nat) (peer : PeerHello) :
    (t.establish now peer).1.Checked := by
  refine checked_of_phase fun p hp => ?_
  obtain h | h := t.establish_phase now peer <;> rw [h] at hp <;> cases hp

/-- The request to pair goes out after the peer was found genuine. -/
theorem greeted_checked (t : SessionTask) (now : Nat) (peer : PeerHello) :
    (t.greeted now peer).1.Checked := by
  unfold greeted
  split
  · exact checked_of_phase fun _ => SessionPhase.noConfusion
  next hclaimed =>
    split
    · exact checked_of_phase fun _ => SessionPhase.noConfusion
    next hversion =>
      split
      · intro p hp
        obtain rfl := SessionPhase.Pairing.inj hp
        exact ⟨by simpa using hclaimed, by simpa [Option.isSome_iff_ne_none] using hversion⟩
      · exact t.establish_checked now peer

/-- So every step keeps the peer checked. -/
theorem step_checked (h : t.Checked) (i : SessionInput) : (t.step i).1.Checked := by
  -- A task that ends has no checked peer to keep; the phases after the handshake keep the one
  -- they have.
  have hover : ∀ {t' : SessionTask}, t'.phase = .Over → t'.Checked := by
    intro t' hphase
    exact checked_of_phase fun p hp => by rw [hphase] at hp; cases hp
  obtain ⟨now, act⟩ := i
  cases act with
  | Opened ok =>
      simp only [step]
      split
      · refine checked_of_phase fun p hp => ?_
        dsimp only at hp
        split at hp <;> cases hp
      · exact hover rfl
  | Sent ok =>
      simp only [step, sent]
      split
      · split
        · exact checked_of_phase fun _ => SessionPhase.noConfusion
        · exact hover rfl
      · split
        · exact t.greeted_checked now _
        · exact hover rfl
      · exact hover rfl
      · split
        · exact t.establish_checked now _
        · exact hover rfl
      · split
        · exact checked_of_phase fun _ => SessionPhase.noConfusion
        · exact hover rfl
      · exact checked_of_phase fun _ => SessionPhase.noConfusion
      · exact h
  | Received msg =>
      simp only [step]
      split
      · split
        · exact t.greeted_checked now _
        · exact checked_of_phase fun _ => SessionPhase.noConfusion
      · exact hover rfl
      · unfold on_message
        split
        · exact hover rfl
        dsimp only
        split
        · split
          · exact hover rfl
          · exact h.of_same_phase rfl rfl rfl
        · split
          · exact h.of_same_phase rfl rfl rfl
          · exact hover rfl
      · exact hover rfl
  | TimedOut => exact hover rfl
  | Slept =>
      simp only [step]
      split
      · exact hover rfl
      · exact h
  | Command cmd =>
      cases cmd with
      | none => exact hover rfl
      | some cmd =>
          cases cmd with
          | Send msg => exact checked_of_phase fun _ => SessionPhase.noConfusion
          | Close reason => exact checked_of_phase fun _ => SessionPhase.noConfusion
          | AddSink route sink => exact h.of_same_phase rfl rfl rfl
          | RemoveSink route => exact h.of_same_phase rfl rfl rfl
          | ArmEcho test_id until_ => exact h.of_same_phase rfl rfl rfl
          | ProbeSink sink => exact h.of_same_phase rfl rfl rfl
  | Datagram bytes =>
      cases bytes with
      | none => exact hover rfl
      | some bytes =>
          obtain ⟨hsame, hphase⟩ := t.on_datagram_kept now bytes
          exact h.of_same_phase hphase hsame.conn hsame.versions
  | EngineStopped => exact h.of_same_phase rfl rfl rfl

/-! ## 4. What the engine hears of a session

The stage fixes what has been reported, up to the messages themselves and the reason of the end. -/

/-- The messages passed on, as events. -/
def controls (msgs : List ControlMsg) : List SessionEvent := msgs.map .Control

/-- What a task has reported by now. -/
def Told (t : SessionTask) (events : List SessionEvent) : Prop :=
  match t.stage with
  | .Early => events = []
  | .Talking => ∃ peer msgs, t.Genuine peer ∧ events = t.announces peer :: controls msgs
  | .Over =>
      (∃ incompatible, events = [.HandshakeFailed incompatible]) ∨
      (∃ peer msgs reason, t.Genuine peer ∧
        events = t.announces peer :: controls msgs ++ [.Closed reason]) ∨
      t.engine = false ∧
        (events = [] ∨ ∃ peer msgs, t.Genuine peer ∧ events = t.announces peer :: controls msgs)

/-- A genuine peer is genuine for the same session. -/
theorem Same.genuine {t' : SessionTask} (h : t.Same t') {peer : PeerHello} (hp : t.Genuine peer) :
    t'.Genuine peer :=
  ⟨h.conn ▸ hp.claimed, h.versions ▸ hp.version⟩

omit [Crypto] in
/-- And its announcement the same. -/
theorem Same.announces {t' : SessionTask} (h : t.Same t') (peer : PeerHello) :
    t'.announces peer = t.announces peer := by
  unfold SessionTask.announces
  rw [h.conn_id, h.conn, h.dialed]

/-- One step more. The stage before it fixes which constructors are possible, and each extends
the reports by what its shape allows. -/
theorem Told.goes {t' : SessionTask} {events more : List SessionEvent} (h : t.Told events)
    (hsame : t.Same t') (hgoes : t.Goes t' more) : t'.Told (events ++ more) := by
  unfold Told at h ⊢
  cases hgoes with
  | keep hstage =>
      rw [hstage, List.append_nil]
      split
      · next hs =>
          rw [hs] at h
          exact h
      · next hs =>
          rw [hs] at h
          obtain ⟨peer, msgs, hpeer, rfl⟩ := h
          exact ⟨peer, msgs, hsame.genuine hpeer, by rw [hsame.announces]⟩
      · next hs =>
          rw [hs] at h
          obtain hfailed | ⟨peer, msgs, reason, hpeer, rfl⟩ | ⟨hoff, hheard⟩ := h
          · exact .inl hfailed
          · exact .inr (.inl ⟨peer, msgs, reason, hsame.genuine hpeer, by rw [hsame.announces]⟩)
          · refine .inr (.inr ⟨?_, hheard.imp_right ?_⟩)
            · exact Bool.eq_false_iff.2 fun hon => by simp [hsame.engine hon] at hoff
            · rintro ⟨peer, msgs, hpeer, rfl⟩
              exact ⟨peer, msgs, hsame.genuine hpeer, by rw [hsame.announces]⟩
  | establish peer hearly htalking _ hpeer =>
      rw [hearly] at h
      rw [htalking]
      obtain rfl := h
      exact ⟨peer, [], hsame.genuine hpeer, by rw [hsame.announces]; rfl⟩
  | control msg htalking hstage _ =>
      rw [htalking] at h
      rw [hstage]
      obtain ⟨peer, msgs, hpeer, rfl⟩ := h
      refine ⟨peer, msgs ++ [msg], hsame.genuine hpeer, ?_⟩
      rw [hsame.announces]
      simp [controls]
  | finish reason htalking hover _ =>
      rw [htalking] at h
      rw [hover]
      obtain ⟨peer, msgs, hpeer, rfl⟩ := h
      exact .inr (.inl ⟨peer, msgs, reason, hsame.genuine hpeer, by rw [hsame.announces]⟩)
  | fail incompatible hearly hover _ =>
      rw [hearly] at h
      rw [hover]
      obtain rfl := h
      exact .inl ⟨incompatible, rfl⟩
  | unheard hne hover hoff =>
      rw [hover, List.append_nil]
      refine .inr (.inr ⟨hoff, ?_⟩)
      cases hs : t.stage with
      | Early =>
          rw [hs] at h
          exact .inl h
      | Talking =>
          rw [hs] at h
          obtain ⟨peer, msgs, hpeer, rfl⟩ := h
          exact .inr ⟨peer, msgs, hsame.genuine hpeer, by rw [hsame.announces]⟩
      | Over => exact absurd hs hne

end SessionTask

end SoundPush
