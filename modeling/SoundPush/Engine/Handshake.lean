/-
`Handshake` -- two session tasks with a control stream between them.

The stream keeps the order of messages and loses none, until one of the ends sees
it cut. Each end has read the other's hello, or nothing yet (`Linked`), and has
handed over what its engine asked it to send, after its hello (`Scripted`). So the
ends agree on whether they can talk and in which version, messages arrive in the
order in which the other engine sent them, and no order of steps leaves the two ends
waiting for each other.
-/
import SoundPush.Engine.SessionTurns
import SoundPush.Engine.Trusted
import SoundPush.Lib.Machine

set_option autoImplicit false

namespace SoundPush

section

variable [Crypto]

/-! ## 1. Two ends -/

structure SessionEnd where
  task : SessionTask
  /-- the messages on their way to this end -/
  inbox : List ControlMsg
  /-- those this end has handed over -/
  handed : List ControlMsg
  /-- those its engine has asked to send -/
  asked : List ControlMsg
  /-- what its engine has heard -/
  told : List SessionEvent

structure SessionPair where
  dialer : SessionEnd
  acceptor : SessionEnd

inductive EndAct where
  | Input (i : SessionInput)
  /-- a message that this build does not know is skipped -/
  | Skip

inductive PairEvent where
  | Dialer (act : EndAct)
  | Acceptor (act : EndAct)

namespace SessionEnd

def start (task : SessionTask) : SessionEnd :=
  { task, inbox := [], handed := [], asked := [], told := [] }

/-- What can happen at an end. -/
def can (e : SessionEnd) : EndAct → Prop
  | .Input i => e.task.waits i.act = true ∧ i.act.takes <+: e.inbox
  | .Skip => (e.task.phase = .Listening ∨ e.task.phase = .Running) ∧
      ∃ body rest, e.inbox = .Body body :: rest

/-- An end takes its turn; what it hands over is on its way to the other. -/
def turn (own other : SessionEnd) : EndAct → SessionEnd × SessionEnd
  | .Input i =>
      let r := own.task.step i
      ({ task := r.1
         inbox := own.inbox.drop i.act.takes.length
         handed := own.handed ++ SoundPush.handed r.2
         asked := own.asked ++ i.act.asks
         told := own.told ++ reports r.2 },
        { other with inbox := other.inbox ++ SoundPush.handed r.2 })
  | .Skip => ({ own with inbox := own.inbox.tail }, other)

end SessionEnd

/-- Two devices, of any two builds. -/
def handshake : Machine SessionPair PairEvent where
  init p :=
    ∃ conn_id conn hello pair versions conn_id' conn' hello' pair' versions',
      p =
        { dialer := .start (.start conn_id conn true (Hello.announced hello versions) pair versions)
          acceptor := .start
            (.start conn_id' conn' false (Hello.announced hello' versions') pair' versions') }
  enabled p event :=
    match event with
    | .Dialer act => p.dialer.can act
    | .Acceptor act => p.acceptor.can act
  step p event :=
    match event with
    | .Dialer act => ⟨(p.dialer.turn p.acceptor act).1, (p.dialer.turn p.acceptor act).2⟩
    | .Acceptor act => ⟨(p.acceptor.turn p.dialer act).2, (p.acceptor.turn p.dialer act).1⟩

/-! ## 2. One end -/

/-- The hello has been handed over. -/
def SessionPhase.spoken : SessionPhase → Bool
  | .Opening | .Greeting | .Listening | .Answering _ | .Over => false
  | _ => true

namespace SessionEnd

/-- What an end hands over, in order: its hello, what it wants to pair with, and what its engine
sends. -/
def script (e : SessionEnd) : List ControlMsg :=
  .Hello e.task.local_hello :: e.task.pair.toList.map (fun pair => .Body (.PairRequest pair)) ++
    e.asked

/-- How much of it an end has handed over in its phase. -/
def Progress (e : SessionEnd) : Prop :=
  match e.task.phase with
  | .Opening => e.handed = [] ∧ e.asked = []
  | .Greeting => (e.handed = [] ∧ e.asked = []) ∧ e.task.dialed = true
  | .Listening =>
      e.handed = (if e.task.dialed then [.Hello e.task.local_hello] else []) ∧ e.asked = []
  | .Answering _ => (e.handed = [] ∧ e.asked = []) ∧ e.task.dialed = false
  | .Refusing => e.handed = [.Hello e.task.local_hello] ∧ e.asked = []
  | .Pairing _ => (e.handed = [.Hello e.task.local_hello] ∧ e.asked = []) ∧
      e.task.pair.isSome = true
  | .Running | .Leaving _ => e.handed = e.script
  | .Sending msg => e.handed ++ [msg] = e.script
  | .Parting _ | .Over => ∃ bye, (∀ msg ∈ bye, msg.is_goodbye = true) ∧
      e.handed.Sublist (e.script ++ bye)

structure Scripted (e : SessionEnd) : Prop where
  first : ∀ msg ∈ e.handed.head?, msg = .Hello e.task.local_hello
  spoken : e.task.phase.spoken = true → e.handed ≠ []
  progress : e.Progress
  announced : ∃ hello, e.task.local_hello = Hello.announced hello e.task.versions

/-- An end after a step of its task that handed over `msgs`. -/
def after (e : SessionEnd) (t : SessionTask) (act : SessionAct) (msgs : List ControlMsg)
    (events : List SessionEvent) : SessionEnd :=
  { task := t
    inbox := e.inbox.drop act.takes.length
    handed := e.handed ++ msgs
    asked := e.asked ++ act.asks
    told := e.told ++ events }

variable {e : SessionEnd} {t : SessionTask} {act : SessionAct} {msgs : List ControlMsg}
  {events : List SessionEvent}

omit [Crypto] in
theorem script_after (hsame : e.task.Same t) :
    (e.after t act msgs events).script = e.script ++ act.asks := by
  unfold script after
  rw [hsame.local_hello, hsame.pair]
  simp

omit [Crypto] in
/-- An end that stops here has said no more than its script and a goodbye. -/
theorem Scripted.closing (h : e.Scripted) :
    ∃ bye, (∀ msg ∈ bye, ControlMsg.is_goodbye msg = true) ∧
      (e.handed ++ e.task.pending.toList).Sublist (e.script ++ bye) := by
  have hhello : [ControlMsg.Hello e.task.local_hello].Sublist (e.script ++ []) := by
    rw [List.append_nil]
    exact .cons_cons _ (List.nil_sublist _)
  have hnone : ∀ msg ∈ ([] : List ControlMsg), msg.is_goodbye = true :=
    fun _ hmem => absurd hmem List.not_mem_nil
  have hbye (code : Int) : ∀ msg ∈ [ControlMsg.Body (.Goodbye code)], msg.is_goodbye = true := by
    intro msg hmem
    rw [List.mem_singleton.1 hmem]
    rfl
  have hprogress := h.progress
  -- Phase by phase. Only a refusal and a goodbye under way add a message of their own.
  unfold Progress at hprogress
  unfold SessionTask.pending
  split at hprogress
  · next hphase =>
      rw [hphase, hprogress.1]
      exact ⟨[], hnone, List.nil_sublist _⟩
  · next hphase =>
      rw [hphase, hprogress.1.1]
      exact ⟨[], hnone, hhello⟩
  · next hphase =>
      rw [hphase, hprogress.1, Option.toList_none, List.append_nil]
      refine ⟨[], hnone, ?_⟩
      split
      · exact hhello
      · exact List.nil_sublist _
  · next hphase =>
      rw [hphase, hprogress.1.1]
      exact ⟨[], hnone, hhello⟩
  · next hphase =>
      rw [hphase, hprogress.1]
      refine ⟨[_], hbye _, .append (?_ : [ControlMsg.Hello e.task.local_hello].Sublist _) (.refl _)⟩
      exact List.append_nil e.script ▸ hhello
  · next peer hphase =>
      obtain ⟨⟨hhanded, _⟩, hpair⟩ := hprogress
      obtain ⟨pair, hpair⟩ := Option.isSome_iff_exists.1 hpair
      rw [hphase, hhanded]
      refine ⟨[], hnone, ?_⟩
      unfold script
      rw [hpair]
      simp
  · next hphase =>
      rw [hphase, hprogress, Option.toList_none]
      exact ⟨[], hnone, .refl _⟩
  · next reason hphase =>
      rw [hphase, hprogress]
      exact ⟨_, hbye _, .refl _⟩
  · next msg hphase =>
      rw [hphase]
      exact ⟨[], hnone, by rw [Option.toList_some, hprogress, List.append_nil]⟩
  · next reason hphase =>
      obtain ⟨bye, hall, hsub⟩ := hprogress
      rw [hphase, Option.toList_none, List.append_nil]
      exact ⟨bye, hall, hsub⟩
  · next hphase =>
      obtain ⟨bye, hall, hsub⟩ := hprogress
      rw [hphase, Option.toList_none, List.append_nil]
      exact ⟨bye, hall, hsub⟩

omit [Crypto] in
/-- What an end is about to hand over comes first only if it is the hello. -/
theorem Scripted.first_pending (h : e.Scripted) :
    ∀ msg ∈ (e.handed ++ e.task.pending.toList).head?, msg = .Hello e.task.local_hello := by
  intro msg hmsg
  cases hhanded : e.handed with
  | cons first rest =>
      rw [hhanded, List.cons_append] at hmsg
      exact h.first msg (by rw [hhanded]; exact hmsg)
  | nil =>
      rw [hhanded, List.nil_append] at hmsg
      have hprogress := h.progress
      unfold Progress at hprogress
      unfold SessionTask.pending at hmsg
      rw [hhanded] at hprogress
      split at hprogress <;> next hphase =>
        rw [hphase] at hmsg
        simp [script] at hmsg hprogress
        try simp_all

omit [Crypto] in
/-- At most one hello, and what the end has handed over when its peer is known. -/
theorem Scripted.hears {peer : PeerHello} (h : e.Scripted)
    (hhears : e.task.Hears act msgs peer) :
    e.handed ++ msgs = [.Hello e.task.local_hello] ∧ e.asked = [] := by
  have hprogress := h.progress
  unfold Progress at hprogress
  cases hhears with
  | dialer _ hphase hdialed =>
      rw [hphase] at hprogress
      obtain ⟨hhanded, hasked⟩ := hprogress
      rw [hdialed, if_pos rfl] at hhanded
      exact ⟨by rw [hhanded]; rfl, hasked⟩
  | acceptor _ hphase =>
      rw [hphase] at hprogress
      obtain ⟨⟨hhanded, hasked⟩, _⟩ := hprogress
      exact ⟨by rw [hhanded]; rfl, hasked⟩

theorem Progress.after (h : e.Scripted) (hsame : e.task.Same t)
    (hturns : e.task.Turns t act msgs events) : (e.after t act msgs events).Progress := by
  have hprogress := h.progress
  have hscript : (e.after t act msgs events).script = e.script ++ act.asks := script_after hsame
  unfold Progress at hprogress ⊢
  cases hturns with
  -- Over: nothing is pending any more, so what was handed over is within the script, with or
  -- without the message that was written last.
  | ends _ _ _ hphase hmsgs hact hends =>
      obtain ⟨bye, hall, hsub⟩ := h.closing
      have hnow : (e.after t act msgs events).task.phase = .Over := hphase
      rw [hact, List.append_nil] at hscript
      rw [hnow, hscript]
      refine ⟨bye, hall, ?_⟩
      rcases hmsgs with rfl | ⟨rfl, _⟩
      · rw [SessionEnd.after, List.append_nil]
        exact (List.sublist_append_left _ _).trans hsub
      · exact hsub
  | opened hphase hnext =>
      rw [hphase] at hprogress
      obtain ⟨hhanded, hasked⟩ := hprogress
      have hnow : (e.after t (.Opened true) [] []).task.phase = _ := hnext
      have hfresh : (e.after t (.Opened true) [] []).handed = [] ∧
          (e.after t (.Opened true) [] []).asked = [] := by
        simp [SessionEnd.after, hhanded, hasked, SessionAct.asks]
      have hdialed : (e.after t (.Opened true) [] []).task.dialed = e.task.dialed := hsame.dialed
      rw [hnow]
      cases hd : e.task.dialed with
      | true => exact ⟨hfresh, hdialed.trans hd⟩
      | false =>
          refine ⟨hfresh.1.trans (if_neg ?_).symm, hfresh.2⟩
          rw [hdialed, hd]
          exact Bool.false_ne_true
  | greet hphase hnext =>
      rw [hphase] at hprogress
      obtain ⟨⟨hhanded, hasked⟩, hdialed⟩ := hprogress
      have hnow : (e.after t (.Sent true) [.Hello e.task.local_hello] []).task.phase = _ := hnext
      rw [hnow]
      simp [SessionEnd.after, hhanded, hasked, SessionAct.asks, hsame.dialed, hdialed,
        hsame.local_hello]
  | answer peer hphase hdialed hnext =>
      rw [hphase] at hprogress
      obtain ⟨hhanded, hasked⟩ := hprogress
      rw [hdialed, if_neg Bool.false_ne_true] at hhanded
      have hnow : (e.after t (.Received (some (.Hello peer))) [] []).task.phase = _ := hnext
      rw [hnow]
      simp [SessionEnd.after, hhanded, hasked, SessionAct.asks, hsame.dialed, hdialed]
  | refuse _ _ peer hhears hversion hnext =>
      obtain ⟨hhanded, hasked⟩ := h.hears hhears
      have hnow : (e.after t act msgs []).task.phase = _ := hnext
      rw [hnow]
      simp [SessionEnd.after, hhanded, hasked, hhears.msgs.2, hsame.local_hello]
  | pair _ _ peer hhears hpeer hpair hnext =>
      obtain ⟨hhanded, hasked⟩ := h.hears hhears
      have hnow : (e.after t act msgs []).task.phase = _ := hnext
      rw [hnow]
      simp [SessionEnd.after, hhanded, hasked, hhears.msgs.2, hsame.local_hello, hsame.pair, hpair]
  | establish _ _ peer hhears hpeer hpair hnext =>
      obtain ⟨hhanded, hasked⟩ := h.hears hhears
      have hnow : (e.after t act msgs [e.task.announces peer]).task.phase = _ := hnext
      rw [hnow, hscript, hhears.msgs.2, List.append_nil]
      simp [SessionEnd.after, hhanded, script, hasked, hpair]
  -- The request to pair follows the hello, so the script of the end now has both.
  | introduce peer hphase hnext =>
      rw [hphase] at hprogress
      obtain ⟨⟨hhanded, hasked⟩, _⟩ := hprogress
      have hnow : (e.after t (.Sent true) e.task.pending.toList
        [e.task.announces peer]).task.phase = _ := hnext
      rw [hnow, hscript]
      simp only [SessionEnd.after, hhanded, SessionAct.asks, script, hasked,
        SessionTask.pending, hphase]
      cases e.task.pair <;> rfl
  | ask msg hphase hnext =>
      rw [hphase] at hprogress
      have hnow : (e.after t (.Command (some (.Send msg))) [] []).task.phase = _ := hnext
      rw [hnow, hscript]
      dsimp only
      rw [SessionEnd.after, List.append_nil, hprogress]
      rfl
  | send msg hphase hnext =>
      rw [hphase] at hprogress
      have hnow : (e.after t (.Sent true) [msg] []).task.phase = _ := hnext
      rw [hnow, hscript]
      exact hprogress.trans (List.append_nil _).symm
  | close reason hphase hnext =>
      rw [hphase] at hprogress
      have hnow : (e.after t (.Command (some (.Close reason))) [] []).task.phase = _ := hnext
      rw [hnow, hscript]
      exact congrArg (· ++ []) hprogress
  | leave ok reason hphase hnext =>
      obtain ⟨bye, hall, hsub⟩ := h.closing
      have hnow : (e.after t (.Sent ok) (if ok then e.task.pending.toList else []) []).task.phase =
        _ := hnext
      rw [hnow, hscript]
      have hasks : (SessionAct.Sent ok).asks = [] := rfl
      refine ⟨bye, hall, ?_⟩
      rw [hasks, List.append_nil]
      cases ok with
      | true => exact hsub
      | false =>
          rw [if_neg Bool.false_ne_true, SessionEnd.after, List.append_nil]
          exact (List.sublist_append_left _ _).trans hsub
  | control msg hmsg hphase hnext =>
      rw [hphase] at hprogress
      have hnow : (e.after t (.Received (some msg)) [] [.Control msg]).task.phase = _ := hnext
      rw [hnow, hscript]
      exact congrArg (· ++ []) hprogress
  | stay _ hnext hact hmsg =>
      have hnow : (e.after t act [] []).task.phase = e.task.phase := hnext
      have hkept : (e.after t act [] []).handed = e.handed ∧
          (e.after t act [] []).asked = e.asked := by
        simp [SessionEnd.after, hact]
      have hdialed : (e.after t act [] []).task.dialed = e.task.dialed := hsame.dialed
      have hlocal : (e.after t act [] []).task.local_hello = e.task.local_hello :=
        hsame.local_hello
      have hpair : (e.after t act [] []).task.pair = e.task.pair := hsame.pair
      rw [hact, List.append_nil] at hscript
      rw [hnow, hkept.1, hkept.2, hdialed, hlocal, hpair, hscript]
      exact hprogress

theorem Scripted.spoken_after (h : e.Scripted) (hturns : e.task.Turns t act msgs events)
    (hspoken : t.phase.spoken = true) : e.handed ++ msgs ≠ [] := by
  have hbefore (hphase : e.task.phase.spoken = true) : e.handed ++ msgs ≠ [] :=
    List.append_ne_nil_of_left_ne_nil (h.spoken hphase) msgs
  have hheard {peer : PeerHello} (hhears : e.task.Hears act msgs peer) : e.handed ++ msgs ≠ [] := by
    rw [(h.hears hhears).1]
    exact List.cons_ne_nil _ _
  cases hturns with
  | refuse _ _ _ hhears _ _ => exact hheard hhears
  | pair _ _ _ hhears _ _ _ => exact hheard hhears
  | establish _ _ _ hhears _ _ _ => exact hheard hhears
  | opened _ hnext =>
      rw [hnext] at hspoken
      split at hspoken <;> cases hspoken
  | ends _ _ _ hnext _ _ _ | greet _ hnext | answer _ _ _ hnext =>
      rw [hnext] at hspoken
      cases hspoken
  | introduce _ hphase _ | ask _ hphase _ | send _ hphase _ | close _ hphase _
  | leave _ _ hphase _ | control _ _ hphase _ => exact hbefore (by rw [hphase]; rfl)
  | stay _ hnext _ _ => exact hbefore (hnext ▸ hspoken)

theorem Scripted.after (h : e.Scripted) (hsame : e.task.Same t)
    (hturns : e.task.Turns t act msgs events) : (e.after t act msgs events).Scripted := by
  obtain ⟨hello, hannounced⟩ := h.announced
  refine ⟨fun msg hmsg => ?_, h.spoken_after hturns, .after h hsame hturns, hello, ?_⟩
  · have hlocal : (e.after t act msgs events).task.local_hello = e.task.local_hello :=
      hsame.local_hello
    rw [hlocal]
    rcases hturns.msgs with rfl | rfl
    · rw [SessionEnd.after, List.append_nil] at hmsg
      exact h.first msg hmsg
    · exact h.first_pending msg hmsg
  · rw [SessionEnd.after, hsame.local_hello, hsame.versions, hannounced]

end SessionEnd

/-! ## 3. The stream between two ends -/

/-- The messages that an engine is told of. -/
def bodies (events : List SessionEvent) : List ControlMsg :=
  events.filterMap fun event =>
    match event with
    | .Control msg => some msg
    | _ => none

omit [Crypto] in
theorem bodies_append (events more : List SessionEvent) :
    bodies (events ++ more) = bodies events ++ bodies more := List.filterMap_append

namespace SessionPhase

/-- The peer's hello has not been read. -/
def unread : SessionPhase → Bool
  | .Opening | .Greeting | .Listening => true
  | _ => false

/-- It has. -/
def read : SessionPhase → Bool
  | .Opening | .Greeting | .Listening | .Over => false
  | _ => true

end SessionPhase

namespace SessionEnd

/-- What an end has of the other one: how far it has read the other's stream, that the peer it
goes by is the other end, and what it has told the engine of it. -/
structure Linked (own other : SessionEnd) : Prop where
  stream : ∃ took, other.handed = took ++ own.inbox ∧ (bodies own.told).Sublist took.tail ∧
    (own.task.phase.unread = true → took = []) ∧ (own.task.phase.read = true → took ≠ [])
  peer : ∀ peer, own.task.phase = .Answering peer ∨ own.task.phase = .Pairing peer →
    peer = other.task.local_hello
  established : ∀ est, .Established est ∈ own.told →
    est.hello = other.task.local_hello.hello ∧ own.task.Genuine other.task.local_hello
  refused : own.task.phase = .Refusing ∨ .HandshakeFailed true ∈ own.told →
    own.task.versions.negotiate other.task.local_hello.range = none
  talk : ∀ msg ∈ bodies own.told, ControlMsg.is_goodbye msg = false

variable {own other : SessionEnd} {t : SessionTask} {act : SessionAct} {msgs : List ControlMsg}
  {events : List SessionEvent}

/-- The other end takes its turn. What it writes is appended to this end's inbox, and what this
end knows of it stays true, since its hello does not change. -/
theorem Linked.hear (h : own.Linked other) (hsame : other.task.Same t) :
    ({ own with inbox := own.inbox ++ msgs } : SessionEnd).Linked
      (other.after t act msgs events) := by
  have hlocal : (other.after t act msgs events).task.local_hello = other.task.local_hello :=
    hsame.local_hello
  obtain ⟨took, hhanded, hsub, hunread, hread⟩ := h.stream
  refine ⟨⟨took, ?_, hsub, hunread, hread⟩, ?_, ?_, ?_, h.talk⟩
  · rw [after, hhanded, List.append_assoc]
  · rw [hlocal]
    exact h.peer
  · rw [hlocal]
    exact h.established
  · rw [hlocal]
    exact h.refused

/-- A hello that is read off the stream is the other end's: it is the first message, and a
script begins with the end's own hello. -/
theorem Linked.reads {peer : PeerHello} (h : own.Linked other) (hother : other.Scripted)
    (htakes : [ControlMsg.Hello peer] <+: own.inbox) (hunread : own.task.phase.unread = true) :
    peer = other.task.local_hello := by
  obtain ⟨took, hhanded, _, hnone, _⟩ := h.stream
  obtain ⟨rest, hinbox⟩ := htakes
  rw [hnone hunread, List.nil_append, ← hinbox] at hhanded
  exact ControlMsg.Hello.inj (hother.first (.Hello peer) (by rw [hhanded]; rfl))

/-- The peer whose hello an end has is the other end. -/
theorem Linked.hears {peer : PeerHello} (h : own.Linked other) (hother : other.Scripted)
    (htakes : act.takes <+: own.inbox) (hhears : own.task.Hears act msgs peer) :
    peer = other.task.local_hello := by
  cases hhears with
  | dialer _ hphase _ =>
      exact h.reads hother htakes (by rw [hphase]; rfl)
  | acceptor _ hphase => exact h.peer peer (.inl hphase)

/-- What a turn does to how far the stream has been read. The hello is unread afterwards only if
it was and the turn took nothing; and it is read only if it was or the turn took a message. -/
theorem turns_read {t' : SessionTask} (h : t.Turns t' act msgs events) :
    (t'.phase.unread = true → t.phase.unread = true ∧ act.takes = []) ∧
      (t'.phase.read = true → t.phase.read = true ∨ act.takes ≠ []) := by
  cases h with
  | ends _ _ _ hnext _ _ _ =>
      rw [hnext]
      exact ⟨Bool.noConfusion, Bool.noConfusion⟩
  | opened hphase hnext =>
      rw [hphase, hnext]
      refine ⟨fun _ => ⟨rfl, rfl⟩, fun hread => ?_⟩
      split at hread <;> cases hread
  | greet hphase hnext =>
      rw [hphase, hnext]
      exact ⟨fun _ => ⟨rfl, rfl⟩, Bool.noConfusion⟩
  | answer peer hphase hdialed hnext =>
      rw [hnext]
      exact ⟨Bool.noConfusion, fun _ => .inr (List.cons_ne_nil _ _)⟩
  -- The dialing end reads the hello as it refuses; the accepting end has read it before it
  -- answered.
  | refuse _ _ peer hhears _ hnext =>
      rw [hnext]
      refine ⟨Bool.noConfusion, fun _ => ?_⟩
      cases hhears with
      | dialer => exact .inr (List.cons_ne_nil _ _)
      | acceptor _ hphase => exact .inl (by rw [hphase]; rfl)
  | pair _ _ peer hhears _ _ hnext =>
      rw [hnext]
      refine ⟨Bool.noConfusion, fun _ => ?_⟩
      cases hhears with
      | dialer => exact .inr (List.cons_ne_nil _ _)
      | acceptor _ hphase => exact .inl (by rw [hphase]; rfl)
  | establish _ _ peer hhears _ _ hnext =>
      rw [hnext]
      refine ⟨Bool.noConfusion, fun _ => ?_⟩
      cases hhears with
      | dialer => exact .inr (List.cons_ne_nil _ _)
      | acceptor _ hphase => exact .inl (by rw [hphase]; rfl)
  | introduce peer hphase hnext =>
      rw [hphase, hnext]
      exact ⟨Bool.noConfusion, fun _ => .inl rfl⟩
  | ask msg hphase hnext =>
      rw [hphase, hnext]
      exact ⟨Bool.noConfusion, fun _ => .inl rfl⟩
  | send msg hphase hnext =>
      rw [hphase, hnext]
      exact ⟨Bool.noConfusion, fun _ => .inl rfl⟩
  | close reason hphase hnext =>
      rw [hphase, hnext]
      exact ⟨Bool.noConfusion, fun _ => .inl rfl⟩
  | leave ok reason hphase hnext =>
      rw [hphase, hnext]
      exact ⟨Bool.noConfusion, fun _ => .inl rfl⟩
  | control msg hmsg hphase hnext =>
      rw [hphase, hnext]
      exact ⟨Bool.noConfusion, fun _ => .inl rfl⟩
  | stay _ hnext hact hmsg =>
      rw [hnext]
      refine ⟨fun hunread => ⟨hunread, hmsg.resolve_right fun hphase => ?_⟩, .inl⟩
      rw [hphase] at hunread
      cases hunread

omit [Crypto] in
theorem bodies_eq_nil (h : ∀ msg, SessionEvent.Control msg ∉ events) : bodies events = [] := by
  refine List.filterMap_eq_nil_iff.2 fun event hmem => ?_
  cases event with
  | Control msg => exact absurd hmem (h msg)
  | _ => rfl

/-- A message is passed on when it is read, from the loop. -/
theorem turns_bodies {t' : SessionTask} (h : t.Turns t' act msgs events) :
    bodies events = [] ∨ ∃ msg, act.takes = [msg] ∧ bodies events = [msg] ∧
      msg.is_goodbye = false ∧ t.phase = .Running := by
  cases h with
  | ends _ _ _ _ _ _ hends => exact .inl (bodies_eq_nil hends.control)
  | control msg hmsg hphase _ => exact .inr ⟨msg, rfl, rfl, hmsg, hphase⟩
  | _ => exact .inl rfl

/-- A turn of this end, as the stream sees it: what the turn takes joins what was taken, and
what it passes on to the engine is among it, behind the hello. -/
theorem Linked.stream_after (h : own.Linked other) (htakes : act.takes <+: own.inbox)
    (hturns : own.task.Turns t act msgs events) :
    ∃ took, other.handed = took ++ own.inbox.drop act.takes.length ∧
      (bodies (own.told ++ events)).Sublist took.tail ∧
      (t.phase.unread = true → took = []) ∧ (t.phase.read = true → took ≠ []) := by
  obtain ⟨took, hhanded, hsub, hunread, hread⟩ := h.stream
  obtain ⟨hunread', hread'⟩ := turns_read hturns
  obtain ⟨rest, hinbox⟩ := htakes
  refine ⟨took ++ act.takes, ?_, ?_, fun hu => ?_, fun hr => ?_⟩
  · rw [hhanded, ← hinbox, List.drop_left, List.append_assoc]
  · rw [bodies_append]
    rcases turns_bodies hturns with hnone | ⟨msg, htakes, hbody, _, hphase⟩
    · rw [hnone, List.append_nil]
      refine hsub.trans ?_
      cases took with
      | nil => exact List.nil_sublist _
      | cons m took => exact List.sublist_append_left _ _
    · -- the loop runs only after the hello has been read
      rw [htakes, hbody]
      rw [hphase] at hread
      rw [List.tail_append_of_ne_nil (hread rfl)]
      exact hsub.append (.refl _)
  · obtain ⟨hbefore, hnone⟩ := hunread' hu
    rw [hunread hbefore, hnone]
    rfl
  · rcases hread' hr with hbefore | htook
    · exact List.append_ne_nil_of_left_ne_nil (hread hbefore) _
    · exact List.append_ne_nil_of_right_ne_nil _ htook

/-- A turn of this end, as the peer's identity sees it: whoever an end answers or pairs with is
the other end. Two turns begin with a new peer, `answer` and `pair`, and both have just heard
it. -/
theorem Linked.peer_after (h : own.Linked other) (hother : other.Scripted)
    (htakes : act.takes <+: own.inbox) (hturns : own.task.Turns t act msgs events) :
    ∀ peer, t.phase = .Answering peer ∨ t.phase = .Pairing peer →
      peer = other.task.local_hello := by
  intro peer hpeer
  cases hturns with
  | answer p hphase hdialed hnext =>
      have hp := h.reads hother htakes (by rw [hphase]; rfl)
      rw [hnext] at hpeer
      rcases hpeer with hpeer | hpeer <;> cases hpeer
      exact hp
  | pair _ _ p hhears _ _ hnext =>
      have hp := h.hears hother htakes hhears
      rw [hnext] at hpeer
      rcases hpeer with hpeer | hpeer <;> cases hpeer
      exact hp
  | opened hphase hnext =>
      rw [hnext] at hpeer
      split at hpeer <;> rcases hpeer with hpeer | hpeer <;> cases hpeer
  | stay _ hnext _ _ =>
      rw [hnext] at hpeer
      exact h.peer peer hpeer
  | ends _ _ _ hnext _ _ _ =>
      rw [hnext] at hpeer
      rcases hpeer with hpeer | hpeer <;> cases hpeer
  | greet _ hnext | refuse _ _ _ _ _ hnext | establish _ _ _ _ _ _ hnext | introduce _ _ hnext
  | ask _ _ hnext | send _ _ hnext | close _ _ hnext | leave _ _ _ hnext
  | control _ _ _ hnext =>
      rw [hnext] at hpeer
      rcases hpeer with hpeer | hpeer <;> cases hpeer

/-- A turn of this end, as the engine sees it: a session that is reported is with the other end,
and was checked. There are two ways to it, at once after the hello and after pairing. -/
theorem Linked.established_after (h : own.Linked other) (hother : other.Scripted)
    (hchecked : own.task.Checked) (htakes : act.takes <+: own.inbox)
    (hturns : own.task.Turns t act msgs events) :
    ∀ est, .Established est ∈ events →
      est.hello = other.task.local_hello.hello ∧ own.task.Genuine other.task.local_hello := by
  intro est hest
  have hknown (peer : PeerHello) (hpeer : peer = other.task.local_hello)
      (hgenuine : own.task.Genuine peer) (hmem : .Established est ∈ [own.task.announces peer]) :
      est.hello = other.task.local_hello.hello ∧ own.task.Genuine other.task.local_hello := by
    have he := SessionEvent.Established.inj (List.mem_singleton.1 hmem)
    exact ⟨by rw [he, hpeer], hpeer ▸ hgenuine⟩
  cases hturns with
  | establish _ _ peer hhears hgenuine _ _ =>
      exact hknown peer (h.hears hother htakes hhears) hgenuine hest
  | introduce peer hphase _ =>
      exact hknown peer (h.peer peer (.inr hphase)) (hchecked peer hphase) hest
  | ends _ _ _ _ _ _ hends => exact absurd hest (hends.established est)
  | control msg _ _ _ => exact absurd (List.mem_singleton.1 hest) SessionEvent.noConfusion
  | _ => exact absurd hest List.not_mem_nil

/-- A turn of this end that refuses, or reports that it was refused: the two have no version in
common. A task refuses first and reports when it ends. -/
theorem Linked.refused_after (h : own.Linked other) (hother : other.Scripted)
    (htakes : act.takes <+: own.inbox) (hturns : own.task.Turns t act msgs events)
    (hrefused : t.phase = .Refusing ∨ .HandshakeFailed true ∈ events) :
    own.task.versions.negotiate other.task.local_hello.range = none := by
  cases hturns with
  | refuse _ _ peer hhears hversion _ => exact h.hears hother htakes hhears ▸ hversion
  | ends _ _ _ hnext _ _ hends =>
      rcases hrefused with hphase | hmem
      · rw [hnext] at hphase
        cases hphase
      · exact h.refused (.inl (hends.refused hmem))
  | stay _ hnext _ _ =>
      rcases hrefused with hphase | hmem
      · exact h.refused (.inl (hnext ▸ hphase))
      · exact absurd hmem List.not_mem_nil
  | opened hphase hnext =>
      rcases hrefused with hphase | hmem
      · rw [hnext] at hphase
        split at hphase <;> cases hphase
      · exact absurd hmem List.not_mem_nil
  | greet _ hnext | answer _ _ _ hnext | pair _ _ _ _ _ _ hnext | ask _ _ hnext | send _ _ hnext
  | close _ _ hnext | leave _ _ _ hnext =>
      rcases hrefused with hphase | hmem
      · rw [hnext] at hphase
        cases hphase
      · exact absurd hmem List.not_mem_nil
  | establish _ _ _ _ _ _ hnext | introduce _ _ hnext | control _ _ _ hnext =>
      rcases hrefused with hphase | hmem
      · rw [hnext] at hphase
        cases hphase
      · exact absurd (List.mem_singleton.1 hmem) SessionEvent.noConfusion

/-- A whole turn of this end, from the four parts above. -/
theorem Linked.after (h : own.Linked other) (hother : other.Scripted)
    (hchecked : own.task.Checked) (hsame : own.task.Same t) (htakes : act.takes <+: own.inbox)
    (hturns : own.task.Turns t act msgs events) (inbox : List ControlMsg) :
    (own.after t act msgs events).Linked { other with inbox } := by
  refine ⟨h.stream_after htakes hturns, h.peer_after hother htakes hturns, fun est hest => ?_,
    fun hrefused => ?_, fun msg hmsg => ?_⟩
  · have hknown : est.hello = other.task.local_hello.hello ∧
        own.task.Genuine other.task.local_hello := by
      rcases List.mem_append.1 hest with hest | hest
      · exact h.established est hest
      · exact h.established_after hother hchecked htakes hturns est hest
    exact ⟨hknown.1, hsame.genuine hknown.2⟩
  · have hnone : own.task.versions.negotiate other.task.local_hello.range = none := by
      rcases hrefused with hphase | hmem
      · exact h.refused_after hother htakes hturns (.inl hphase)
      · rcases List.mem_append.1 hmem with hmem | hmem
        · exact h.refused (.inr hmem)
        · exact h.refused_after hother htakes hturns (.inr hmem)
    rw [SessionEnd.after, hsame.versions]
    exact hnone
  · rw [SessionEnd.after, bodies_append] at hmsg
    rcases List.mem_append.1 hmsg with hmsg | hmsg
    · exact h.talk msg hmsg
    · rcases turns_bodies hturns with hnone | ⟨m, _, hbody, hm, _⟩
      · rw [hnone] at hmsg
        exact absurd hmsg List.not_mem_nil
      · rw [hbody] at hmsg
        exact List.mem_singleton.1 hmsg ▸ hm

/-- A message of no interest is skipped. It is never the hello, which is the first of a stream
and not a body. -/
theorem Linked.skip (h : own.Linked other) (hother : other.Scripted)
    (hcan : own.can .Skip) : ({ own with inbox := own.inbox.tail } : SessionEnd).Linked other := by
  obtain ⟨hphase, body, rest, hinbox⟩ := hcan
  obtain ⟨took, hhanded, hsub, hunread, hread⟩ := h.stream
  refine ⟨⟨took ++ [.Body body], ?_, ?_, fun hu => ?_, fun _ => ?_⟩, h.peer, h.established,
    h.refused, h.talk⟩
  · rw [hhanded, hinbox, List.append_assoc]
    rfl
  · refine hsub.trans ?_
    cases took with
    | nil => exact List.nil_sublist _
    | cons m took => exact List.sublist_append_left _ _
  · -- the first message of a stream is a hello
    rw [hunread hu, hinbox, List.nil_append] at hhanded
    exact ControlMsg.noConfusion (hother.first (.Body body) (by rw [hhanded]; rfl))
  · exact List.append_ne_nil_of_right_ne_nil _ (List.cons_ne_nil _ _)

/-- What two ends keep between them. -/
structure Joined (own other : SessionEnd) : Prop where
  scripted : own.Scripted ∧ other.Scripted
  checked : own.task.Checked ∧ other.task.Checked
  linked : own.Linked other ∧ other.Linked own

/-- The same, as the other end sees it. -/
theorem Joined.symm (h : own.Joined other) : other.Joined own :=
  ⟨h.scripted.symm, h.checked.symm, h.linked.symm⟩

/-- Whichever end takes its turn, the two stay joined. -/
theorem Joined.turn (h : own.Joined other) {act : EndAct} (hcan : own.can act) :
    (own.turn other act).1.Joined (own.turn other act).2 := by
  cases act with
  | Input i =>
      have hturns := own.task.step_turns hcan.1
      have hsame := own.task.step_same i
      refine ⟨⟨h.scripted.1.after hsame hturns, ?_⟩, ⟨own.task.step_checked h.checked.1 i,
        h.checked.2⟩, h.linked.1.after h.scripted.2 h.checked.1 hsame hcan.2 hturns _,
        h.linked.2.hear hsame⟩
      exact ⟨h.scripted.2.first, h.scripted.2.spoken, h.scripted.2.progress, h.scripted.2.announced⟩
  | Skip =>
      refine ⟨⟨⟨h.scripted.1.first, h.scripted.1.spoken, h.scripted.1.progress,
        h.scripted.1.announced⟩, h.scripted.2⟩,
        h.checked, h.linked.1.skip h.scripted.2 hcan, ?_⟩
      exact ⟨h.linked.2.stream, h.linked.2.peer, h.linked.2.established, h.linked.2.refused,
        h.linked.2.talk⟩

omit [Crypto] in
theorem start_scripted (conn_id : Nat) (conn : SecureConnection) (dialed : Bool) (hello : Hello)
    (pair : Option PairRequest) (versions : VersionRange) :
    (start (.start conn_id conn dialed (hello.announced versions) pair versions)).Scripted where
  first _ hmsg := by cases hmsg
  spoken hspoken := by cases hspoken
  progress := ⟨rfl, rfl⟩
  announced := ⟨hello, rfl⟩

theorem start_linked {own other : SessionTask} (h : own.phase = .Opening) :
    (start own).Linked (start other) := by
  refine ⟨⟨[], rfl, .slnil, fun _ => rfl, fun hread => ?_⟩, fun peer hpeer => ?_,
    fun est hest => absurd hest List.not_mem_nil, fun hrefused => ?_,
    fun msg hmsg => absurd hmsg List.not_mem_nil⟩
  · rw [start, h] at hread
    cases hread
  · rw [start, h] at hpeer
    rcases hpeer with hpeer | hpeer <;> cases hpeer
  · rw [start, h] at hrefused
    rcases hrefused with hphase | hmem
    · cases hphase
    · exact absurd hmem List.not_mem_nil

end SessionEnd

theorem handshake_joined {p : SessionPair} (h : handshake.Reachable p) :
    p.dialer.Joined p.acceptor := by
  refine h.invariant (P := fun p => p.dialer.Joined p.acceptor) ?_ fun p event hp hcan => ?_
  · rintro p ⟨conn_id, conn, hello, pair, versions, conn_id', conn', hello', pair', versions', rfl⟩
    refine ⟨⟨SessionEnd.start_scripted .., SessionEnd.start_scripted ..⟩,
      ⟨SessionTask.checked_of_phase fun _ => SessionPhase.noConfusion,
        SessionTask.checked_of_phase fun _ => SessionPhase.noConfusion⟩,
      SessionEnd.start_linked rfl, SessionEnd.start_linked rfl⟩
  · cases event with
    | Dialer act => exact hp.turn hcan
    | Acceptor act => exact (hp.symm.turn hcan).symm

/-! ## 4. What the two ends agree on -/

omit [Crypto] in
theorem PeerHello.range_announced (hello : Hello) (versions : VersionRange) :
    (hello.announced versions).range = versions := by
  unfold PeerHello.range Hello.announced
  rw [ProtocolVersion.from_u32_to_u32, ProtocolVersion.from_u32_to_u32]

namespace SessionEnd

/-- An end that is in touch with its peer. -/
def met (e : SessionEnd) : Prop := ∃ est, SessionEvent.Established est ∈ e.told

/-- What one end knows of the other. -/
structure Agrees (own other : SessionEnd) : Prop where
  /-- the peer reported is the one at the other end, under its own id -/
  peer : ∀ est, .Established est ∈ own.told → est.hello = other.task.local_hello.hello ∧
    other.task.local_hello.claimed = some own.task.conn.peer_public_key.device_id
  /-- both ends know the version to talk in -/
  version : own.met → ∃ v, own.task.versions.negotiate other.task.local_hello.range = some v ∧
    other.task.versions.negotiate own.task.local_hello.range = some v
  /-- if one end finds no such version, neither end meets the other -/
  refused : .HandshakeFailed true ∈ own.told → ¬ own.met ∧ ¬ other.met
  /-- the messages an engine gets are, in their order, some that the other engine sent -/
  in_order : (bodies own.told).Sublist
    (other.task.pair.toList.map (fun pair => .Body (.PairRequest pair)) ++ other.asked)

variable {own other : SessionEnd}

theorem Joined.versions_agree (h : own.Joined other) :
    own.task.versions.negotiate other.task.local_hello.range =
      other.task.versions.negotiate own.task.local_hello.range := by
  obtain ⟨hello, hown⟩ := h.scripted.1.announced
  obtain ⟨hello', hother⟩ := h.scripted.2.announced
  rw [hown, hother, PeerHello.range_announced, PeerHello.range_announced,
    VersionRange.negotiate_comm]

omit [Crypto] in
/-- All that an end has said is its script, but for a goodbye. -/
theorem Scripted.said {e : SessionEnd} (h : e.Scripted) :
    ∃ bye, (∀ msg ∈ bye, ControlMsg.is_goodbye msg = true) ∧
      e.handed.Sublist (e.script ++ bye) := by
  obtain ⟨bye, hall, hsub⟩ := h.closing
  exact ⟨bye, hall, (List.sublist_append_left _ _).trans hsub⟩

theorem Joined.in_order (h : own.Joined other) : (bodies own.told).Sublist
    (other.task.pair.toList.map (fun pair => .Body (.PairRequest pair)) ++ other.asked) := by
  obtain ⟨took, hhanded, hsub, _, _⟩ := h.linked.1.stream
  obtain ⟨bye, hall, hsaid⟩ := h.scripted.2.said
  -- the hello is read first, and not passed on
  have htail : took.tail.Sublist (other.task.pair.toList.map
      (fun pair => ControlMsg.Body (.PairRequest pair)) ++ other.asked ++ bye) := by
    rw [hhanded] at hsaid
    exact ((List.sublist_append_left took own.inbox).trans hsaid).tail
  have hfilter := (hsub.trans htail).filter fun msg => !msg.is_goodbye
  have hown : (bodies own.told).filter (fun msg => !msg.is_goodbye) = bodies own.told :=
    List.filter_eq_self.2 fun msg hmsg => by rw [h.linked.1.talk msg hmsg]; rfl
  have hbye : bye.filter (fun msg => !msg.is_goodbye) = [] :=
    List.filter_eq_nil_iff.2 fun msg hmsg => by simp [hall msg hmsg]
  rw [hown, List.filter_append, hbye, List.append_nil] at hfilter
  exact hfilter.trans List.filter_sublist

theorem Joined.agrees (h : own.Joined other) : own.Agrees other where
  peer est hest := by
    obtain ⟨hhello, hgenuine⟩ := h.linked.1.established est hest
    exact ⟨hhello, hgenuine.claimed⟩
  version hmet := by
    obtain ⟨est, hest⟩ := hmet
    obtain ⟨v, hv⟩ := Option.isSome_iff_exists.1 (h.linked.1.established est hest).2.version
    exact ⟨v, hv, h.versions_agree ▸ hv⟩
  refused hrefused := by
    have hnone := h.linked.1.refused (.inr hrefused)
    constructor
    · rintro ⟨est, hest⟩
      have hsome := (h.linked.1.established est hest).2.version
      rw [hnone] at hsome
      cases hsome
    · rintro ⟨est, hest⟩
      have hsome := (h.linked.2.established est hest).2.version
      rw [← h.versions_agree, hnone] at hsome
      cases hsome
  in_order := h.in_order

end SessionEnd

/-- **The handshake.** Whatever happens to the stream, and whatever the two engines do: who is
reported is who is at the other end, the two ends find the same version or neither meets the other,
and messages arrive in the order in which they were sent, each at most once. -/
theorem handshake_agrees {p : SessionPair} (h : handshake.Reachable p) :
    p.dialer.Agrees p.acceptor ∧ p.acceptor.Agrees p.dialer :=
  ⟨(handshake_joined h).agrees, (handshake_joined h).symm.agrees⟩

/-! ## 5. The handshake comes to an end -/

/-- The steps that a phase of the handshake is away from a session, at most. -/
def SessionPhase.rank : SessionPhase → Nat
  | .Opening => 5
  | .Greeting => 4
  | .Listening => 3
  | .Answering _ => 2
  | .Pairing _ | .Refusing => 1
  | _ => 0

/-- An input that takes the handshake further: no timeout, no failure. -/
def SessionAct.proceeds : SessionAct → Prop
  | .Opened ok | .Sent ok => ok = true
  | .Received msg => msg.isSome = true
  | _ => False

namespace SessionTask

variable {t : SessionTask} {now : Nat}

/-- A handshake that goes on, with an engine that listens. -/
structure Further (t t' : SessionTask) : Prop where
  engine : t'.engine = true
  rank : t'.phase.rank < t.phase.rank
  stage : t'.stage ≠ .Over

omit [Crypto] in
theorem establish_further (h : t.engine = true) (hrank : 0 < t.phase.rank) (peer : PeerHello) :
    t.Further (t.establish now peer).1 := by
  unfold SessionTask.establish
  rw [if_pos h]
  exact ⟨h, hrank, SessionStage.noConfusion⟩

theorem greeted_further (h : t.engine = true) (hrank : 1 < t.phase.rank) {peer : PeerHello}
    (hpeer : t.Genuine peer) : t.Further (t.greeted now peer).1 := by
  unfold greeted
  rw [if_neg (not_not.2 hpeer.claimed),
    if_neg (by simp [Option.isSome_iff_ne_none.1 hpeer.version])]
  split
  · exact ⟨h, hrank, SessionStage.noConfusion⟩
  · exact establish_further h (Nat.lt_of_succ_lt hrank) peer

theorem step_further {i : SessionInput} (hengine : t.engine = true) (hearly : t.stage = .Early)
    (hrefusing : t.phase ≠ .Refusing) (hwaits : t.waits i.act = true) (hacts : i.act.proceeds)
    (hpeer : ∀ peer, t.phase = .Answering peer ∨
      t.phase = .Listening ∧ i.act = .Received (some (.Hello peer)) → t.Genuine peer)
    (hhello : ∀ msg, t.phase = .Listening → i.act = .Received (some msg) →
      ∃ peer, msg = .Hello peer) : t.Further (t.step i).1 := by
  obtain ⟨now, act⟩ := i
  cases act with
  | Opened ok =>
      obtain rfl : ok = true := hacts
      have hphase : t.phase = .Opening := of_decide_eq_true hwaits
      simp only [step, if_true]
      refine ⟨hengine, ?_, ?_⟩
      · rw [hphase]
        dsimp only
        split <;> simp [SessionPhase.rank]
      · unfold stage
        dsimp only
        split <;> exact SessionStage.noConfusion
  | Sent ok =>
      obtain rfl : ok = true := hacts
      have hpending : t.pending.isSome = true := hwaits
      cases hphase : t.phase with
      | Greeting =>
          simp only [step, sent, hphase, if_true]
          exact ⟨hengine, by simp [hphase, SessionPhase.rank], SessionStage.noConfusion⟩
      | Answering peer =>
          simp only [step, sent, hphase, if_true]
          exact greeted_further hengine (by simp [hphase, SessionPhase.rank])
            (hpeer peer (.inl hphase))
      | Pairing peer =>
          simp only [step, sent, hphase, if_true]
          exact establish_further hengine (by simp [hphase, SessionPhase.rank]) peer
      -- A peer of our version is not refused.
      | Refusing => exact absurd hphase hrefusing
      | Opening | Listening | Running | Parting _ | Over =>
          rw [pending, hphase] at hpending
          cases hpending
      | Sending _ | Leaving _ =>
          rw [stage, hphase] at hearly
          cases hearly
  | Received msg =>
      obtain ⟨msg, rfl⟩ := Option.isSome_iff_exists.1 hacts
      -- What is read this early is the hello, and it is read while listening.
      have hphase : t.phase = .Listening := by
        simp only [waits, Bool.or_eq_true, decide_eq_true_eq] at hwaits
        refine hwaits.resolve_right fun hrunning => ?_
        rw [stage, hrunning] at hearly
        cases hearly
      obtain ⟨peer, rfl⟩ := hhello msg hphase rfl
      simp only [step, hphase]
      split
      · exact greeted_further hengine (by simp [hphase, SessionPhase.rank])
          (hpeer peer (.inr ⟨hphase, rfl⟩))
      · exact ⟨hengine, by simp [hphase, SessionPhase.rank], SessionStage.noConfusion⟩
  | TimedOut => exact hacts.elim
  | Slept => exact hacts.elim
  | Command _ => exact hacts.elim
  | Datagram _ => exact hacts.elim
  | EngineStopped => exact hacts.elim

end SessionTask

namespace SessionEnd

variable {own other : SessionEnd}

/-- An end that has nothing against its peer. -/
structure Fits (own other : SessionEnd) : Prop where
  engine : own.task.engine = true
  peer : own.task.Genuine other.task.local_hello

/-- An end takes its part of the handshake further. -/
def proceeds (e : SessionEnd) : EndAct → Prop
  | .Input i => e.task.stage = .Early ∧ i.act.proceeds
  | .Skip => False

theorem Joined.further (h : own.Joined other) (hfits : own.Fits other) {i : SessionInput}
    (hcan : own.can (.Input i)) (hproceeds : own.proceeds (.Input i)) :
    own.task.Further (own.task.step i).1 := by
  refine SessionTask.step_further hfits.engine hproceeds.1 (fun hphase => ?_) hcan.1 hproceeds.2
    (fun peer hpeer => ?_) fun msg hphase hact => ?_
  · have hnone := h.linked.1.refused (.inl hphase)
    have hsome := hfits.peer.version
    rw [hnone] at hsome
    cases hsome
  · have hlocal : peer = other.task.local_hello := by
      rcases hpeer with hphase | ⟨hphase, hact⟩
      · exact h.linked.1.peer peer (.inl hphase)
      · refine h.linked.1.reads h.scripted.2 ?_ (by rw [hphase]; rfl)
        have htakes := hcan.2
        rw [hact] at htakes
        exact htakes
    exact hlocal ▸ hfits.peer
  · -- what is read first is a hello
    obtain ⟨took, hhanded, _, hunread, _⟩ := h.linked.1.stream
    obtain ⟨rest, hinbox⟩ := hcan.2
    rw [hact] at hinbox
    rw [hphase] at hunread
    rw [hunread rfl, List.nil_append, ← hinbox] at hhanded
    exact ⟨_, h.scripted.2.first msg (by rw [hhanded]; rfl)⟩

omit [Crypto] in
/-- An end of the handshake goes on unless it waits for the other one. -/
theorem Scripted.ready (h : own.Scripted) (hearly : own.task.stage = .Early)
    (hwait : own.task.phase = .Listening → own.inbox ≠ []) :
    ∃ i, own.can (.Input i) ∧ own.proceeds (.Input i) := by
  have hnil : [] <+: own.inbox := List.nil_prefix
  have hprogress := h.progress
  unfold Progress at hprogress
  cases hphase : own.task.phase with
  | Opening =>
      refine ⟨⟨0, .Opened true⟩, ⟨?_, hnil⟩, hearly, rfl⟩
      simp [SessionTask.waits, hphase]
  | Greeting =>
      refine ⟨⟨0, .Sent true⟩, ⟨?_, hnil⟩, hearly, rfl⟩
      simp [SessionTask.waits, SessionTask.pending, hphase]
  | Answering peer =>
      refine ⟨⟨0, .Sent true⟩, ⟨?_, hnil⟩, hearly, rfl⟩
      simp [SessionTask.waits, SessionTask.pending, hphase]
  | Refusing =>
      refine ⟨⟨0, .Sent true⟩, ⟨?_, hnil⟩, hearly, rfl⟩
      simp [SessionTask.waits, SessionTask.pending, hphase]
  | Pairing peer =>
      rw [hphase] at hprogress
      refine ⟨⟨0, .Sent true⟩, ⟨?_, hnil⟩, hearly, rfl⟩
      simp [SessionTask.waits, SessionTask.pending, hphase, hprogress.2]
  | Listening =>
      obtain ⟨msg, rest, hinbox⟩ := List.exists_cons_of_ne_nil (hwait hphase)
      refine ⟨⟨0, .Received (some msg)⟩, ⟨?_, ?_⟩, hearly, rfl⟩
      · simp [SessionTask.waits, hphase]
      · rw [hinbox]
        exact ⟨rest, rfl⟩
  | Running | Sending _ | Leaving _ | Parting _ | Over =>
      rw [SessionTask.stage, hphase] at hearly
      cases hearly

/-- Two ends never wait for each other. -/
theorem Joined.progress (h : own.Joined other) (hdialed : own.task.dialed ≠ other.task.dialed)
    (hopen : other.task.stage ≠ .Over) (hearly : own.task.stage = .Early) :
    (∃ i, own.can (.Input i) ∧ own.proceeds (.Input i)) ∨
      ∃ i, other.can (.Input i) ∧ other.proceeds (.Input i) := by
  by_cases hwait : own.task.phase = .Listening → own.inbox ≠ []
  · exact .inl (h.scripted.1.ready hearly hwait)
  · obtain ⟨hphase, hinbox⟩ := not_forall.1 hwait
    have hinbox := not_not.1 hinbox
    obtain ⟨took, hhanded, _, hunread, _⟩ := h.linked.1.stream
    rw [hphase] at hunread
    rw [hunread rfl, hinbox, List.nil_append] at hhanded
    have hprogress := h.scripted.2.progress
    unfold Progress at hprogress
    rw [hhanded] at hprogress
    -- the other end has not said hello, so it is early too
    have hspoken : other.task.phase.spoken = false :=
      Bool.eq_false_iff.2 fun hyes => h.scripted.2.spoken hyes hhanded
    have hother : other.task.stage = .Early := by
      unfold SessionTask.stage at hopen ⊢
      cases hp : other.task.phase with
      | Opening | Greeting | Listening | Answering _ => rfl
      | Refusing | Pairing _ => rfl
      | Running | Sending _ | Leaving _ | Parting _ =>
          rw [hp] at hspoken
          cases hspoken
      | Over =>
          rw [hp] at hopen
          exact absurd rfl hopen
    refine .inr (h.scripted.2.ready hother fun hp => ?_)
    -- of two that listen, one has dialed, and has said hello
    obtain ⟨took', hhanded', _, hunread', _⟩ := h.linked.2.stream
    rw [hp] at hprogress hunread'
    rw [hunread' rfl, List.nil_append] at hhanded'
    have hacceptor : other.task.dialed = false :=
      Bool.eq_false_iff.2 fun hd => by simp [hd] at hprogress
    have hown := h.scripted.1.progress
    unfold Progress at hown
    rw [hphase, if_pos (Bool.of_not_eq_false fun hd => hdialed (hd.trans hacceptor.symm))] at hown
    rw [← hhanded', hown.1]
    exact List.cons_ne_nil _ _

end SessionEnd

namespace SessionPair

def proceeds (p : SessionPair) : PairEvent → Prop
  | .Dialer act => p.dialer.proceeds act
  | .Acceptor act => p.acceptor.proceeds act

def rank (p : SessionPair) : Nat := p.dialer.task.phase.rank + p.acceptor.task.phase.rank

/-- Two devices that can talk, and that nothing has stopped. -/
structure Willing (p : SessionPair) : Prop where
  joined : p.dialer.Joined p.acceptor
  dialer : p.dialer.Fits p.acceptor
  acceptor : p.acceptor.Fits p.dialer
  roles : p.dialer.task.dialed = true ∧ p.acceptor.task.dialed = false
  running : p.dialer.task.stage ≠ .Over ∧ p.acceptor.task.stage ≠ .Over

/-- A step of the handshake brings both ends closer to a session. -/
theorem Willing.step {p : SessionPair} (h : p.Willing) {event : PairEvent}
    (hcan : handshake.enabled p event) (hproceeds : p.proceeds event) :
    (handshake.step p event).Willing ∧ (handshake.step p event).rank < p.rank := by
  cases event with
  | Dialer act =>
      cases act with
      | Skip => exact hproceeds.elim
      | Input i =>
          have hsame := p.dialer.task.step_same i
          have hfurther := h.joined.further h.dialer hcan hproceeds
          refine ⟨⟨h.joined.turn hcan, ⟨hfurther.engine, hsame.genuine h.dialer.peer⟩,
            ⟨h.acceptor.engine, hsame.local_hello ▸ h.acceptor.peer⟩,
            ⟨hsame.dialed.trans h.roles.1, h.roles.2⟩, hfurther.stage, h.running.2⟩, ?_⟩
          exact Nat.add_lt_add_right hfurther.rank _
  | Acceptor act =>
      cases act with
      | Skip => exact hproceeds.elim
      | Input i =>
          have hsame := p.acceptor.task.step_same i
          have hturn : p.acceptor.can (.Input i) := hcan
          have hfurther := h.joined.symm.further h.acceptor hcan hproceeds
          refine ⟨⟨(h.joined.symm.turn hturn).symm,
            ⟨h.dialer.engine, hsame.local_hello ▸ h.dialer.peer⟩,
            ⟨hfurther.engine, hsame.genuine h.acceptor.peer⟩,
            ⟨h.roles.1, hsame.dialed.trans h.roles.2⟩, h.running.1, hfurther.stage⟩, ?_⟩
          exact Nat.add_lt_add_left hfurther.rank _

/-- A handshake that cannot go on is done. -/
theorem Willing.done {p : SessionPair} (h : p.Willing)
    (hstuck : ∀ event, handshake.enabled p event → ¬ p.proceeds event) :
    p.dialer.task.stage = .Talking ∧ p.acceptor.task.stage = .Talking := by
  have hroles : p.dialer.task.dialed ≠ p.acceptor.task.dialed := by
    rw [h.roles.1, h.roles.2]
    exact Bool.noConfusion
  have hdialer (i : SessionInput) (hcan : p.dialer.can (.Input i)) :
      ¬ p.dialer.proceeds (.Input i) := hstuck (.Dialer (.Input i)) hcan
  have hacceptor (i : SessionInput) (hcan : p.acceptor.can (.Input i)) :
      ¬ p.acceptor.proceeds (.Input i) := hstuck (.Acceptor (.Input i)) hcan
  constructor
  · cases hstage : p.dialer.task.stage with
    | Talking => rfl
    | Over => exact absurd hstage h.running.1
    | Early =>
        rcases h.joined.progress hroles h.running.2 hstage with ⟨i, hcan, hgo⟩ | ⟨i, hcan, hgo⟩
        · exact absurd hgo (hdialer i hcan)
        · exact absurd hgo (hacceptor i hcan)
  · cases hstage : p.acceptor.task.stage with
    | Talking => rfl
    | Over => exact absurd hstage h.running.2
    | Early =>
        rcases h.joined.symm.progress hroles.symm h.running.1 hstage with
          ⟨i, hcan, hgo⟩ | ⟨i, hcan, hgo⟩
        · exact absurd hgo (hacceptor i hcan)
        · exact absurd hgo (hdialer i hcan)

theorem Willing.run {p : SessionPair} (h : p.Willing) {es : List PairEvent}
    (hes : (handshake.restrict proceeds).Admits p es) :
    (handshake.exec p es).Willing ∧ es.length + (handshake.exec p es).rank ≤ p.rank := by
  induction es generalizing p with
  | nil => exact ⟨h, (Nat.zero_add _).le⟩
  | cons event es ih =>
      obtain ⟨⟨hcan, hproceeds⟩, hrest⟩ := hes
      obtain ⟨hnext, hrank⟩ := h.step hcan hproceeds
      obtain ⟨hend, hlength⟩ := ih hnext hrest
      have hexec : handshake.exec p (event :: es) =
          handshake.exec (handshake.step p event) es := rfl
      rw [hexec, List.length_cons]
      exact ⟨hend, by omega⟩

omit [Crypto] in
theorem rank_le (p : SessionPair) : p.rank ≤ 10 := by
  have hphase (phase : SessionPhase) : phase.rank ≤ 5 := by
    cases phase <;> simp [SessionPhase.rank]
  exact Nat.add_le_add (hphase _) (hphase _)

end SessionPair

/-- The end that dials is the dialer's. -/
theorem handshake_roles {p : SessionPair} (h : handshake.Reachable p) :
    p.dialer.task.dialed = true ∧ p.acceptor.task.dialed = false := by
  refine h.invariant (P := fun p => p.dialer.task.dialed = true ∧ p.acceptor.task.dialed = false)
    ?_ fun p event hp _ => ?_
  · rintro p ⟨conn_id, conn, hello, pair, versions, conn_id', conn', hello', pair', versions', rfl⟩
    exact ⟨rfl, rfl⟩
  · cases event with
    | Dialer act =>
        cases act with
        | Input i => exact ⟨(p.dialer.task.step_same i).dialed.trans hp.1, hp.2⟩
        | Skip => exact hp
    | Acceptor act =>
        cases act with
        | Input i => exact ⟨hp.1, (p.acceptor.task.step_same i).dialed.trans hp.2⟩
        | Skip => exact hp

/-- **The handshake ends.** Two devices that have nothing against each other are never left waiting
for each other: from any state of a handshake that has not failed, whatever its steps and in
whatever order, it is done after ten of them at most, and both engines have a session. -/
theorem handshake_completes {p : SessionPair} (h : handshake.Reachable p)
    (hdialer : p.dialer.Fits p.acceptor) (hacceptor : p.acceptor.Fits p.dialer)
    (hrunning : p.dialer.task.stage ≠ .Over ∧ p.acceptor.task.stage ≠ .Over) {es : List PairEvent}
    (hes : (handshake.restrict SessionPair.proceeds).Admits p es) :
    es.length ≤ 10 ∧
    ((∀ event, handshake.enabled (handshake.exec p es) event →
        ¬ (handshake.exec p es).proceeds event) →
      (handshake.exec p es).dialer.task.stage = .Talking ∧
      (handshake.exec p es).acceptor.task.stage = .Talking) := by
  have hwilling : p.Willing :=
    ⟨handshake_joined h, hdialer, hacceptor, handshake_roles h, hrunning⟩
  obtain ⟨hend, hlength⟩ := hwilling.run hes
  have hrank := p.rank_le
  exact ⟨by omega, hend.done⟩

end

/-! ## 6. Two builds -/

namespace Sample

/-- An older build dials. -/
def pair_start : SessionPair :=
  { dialer := .start (.start 1 (conn other_key) true
      ((hello peer).announced ⟨⟨1, 0⟩, ⟨1, 0⟩⟩) none ⟨⟨1, 0⟩, ⟨1, 0⟩⟩)
    acceptor := .start (.start 7 (conn peer_key) false
      ((hello other).announced LOCAL_VERSIONS) none LOCAL_VERSIONS) }

theorem pair_start_init : handshake.init pair_start :=
  ⟨1, conn other_key, hello peer, none, _, 7, conn peer_key, hello other, none, _, rfl⟩

/-- What the two hellos take. -/
def pair_greets : List PairEvent :=
  [.Dialer (.Input ⟨0, .Opened true⟩), .Acceptor (.Input ⟨0, .Opened true⟩),
    .Dialer (.Input ⟨1, .Sent true⟩),
    .Acceptor (.Input ⟨2, .Received (some (.Hello ((hello peer).announced ⟨⟨1, 0⟩, ⟨1, 0⟩⟩)))⟩),
    .Acceptor (.Input ⟨3, .Sent true⟩),
    .Dialer (.Input ⟨4, .Received (some (.Hello ((hello other).announced LOCAL_VERSIONS)))⟩)]

theorem pair_greets_admitted :
    (handshake.restrict SessionPair.proceeds).Admits pair_start pair_greets := by
  refine ⟨⟨⟨?_, ?_⟩, ?_, rfl⟩, ⟨⟨?_, ?_⟩, ?_, rfl⟩, ⟨⟨?_, ?_⟩, ?_, rfl⟩, ⟨⟨?_, ?_⟩, ?_, rfl⟩,
    ⟨⟨?_, ?_⟩, ?_, rfl⟩, ⟨⟨?_, ?_⟩, ?_, rfl⟩, trivial⟩ <;> decide +kernel

theorem pair_greets_reached : handshake.Reachable (handshake.exec pair_start pair_greets) := by
  refine ⟨_, Machine.run_of_admits pair_start_init ?_⟩
  have hadmits := pair_greets_admitted
  exact ⟨hadmits.1.1, hadmits.2.1.1, hadmits.2.2.1.1, hadmits.2.2.2.1.1, hadmits.2.2.2.2.1.1,
    hadmits.2.2.2.2.2.1.1, trivial⟩

end Sample

open Sample

/-- The two builds find version 1.0. -/
theorem handshake_agrees_sample :
    (handshake.exec pair_start pair_greets).dialer.told.length = 1 ∧
      (handshake.exec pair_start pair_greets).dialer.Agrees
        (handshake.exec pair_start pair_greets).acceptor :=
  ⟨by decide +kernel, (handshake_agrees pair_greets_reached).1⟩

theorem handshake_completes_sample :
    pair_greets.length ≤ 10 ∧
      (handshake.exec pair_start pair_greets).dialer.task.stage = .Talking :=
  ⟨(handshake_completes ⟨_, .start pair_start_init⟩ ⟨rfl, by decide +kernel, by decide +kernel⟩
    ⟨rfl, by decide +kernel, by decide +kernel⟩ ⟨by decide, by decide⟩ pair_greets_admitted).1,
    by decide +kernel⟩

end SoundPush
