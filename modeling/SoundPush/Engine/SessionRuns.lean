/-
`SessionRuns` -- what a session task guarantees over its whole run, whatever its
peer sends.

The engine hears of a session before any of its messages and of its end last. A
flood of control messages reaches the engine no faster than the limit, while a peer
within the limit loses nothing. A peer that probes gets back no more bytes than it
has sent, and no more echoes than the limit of its test.

How it is put together. Each of the two limits has a relation that says what a step can do to its
bucket (`Meters` for control messages, `Echoes` for probes), a lemma that every step is one of its
constructors, and a run lemma in which the bucket of the task is the bucket of `RateLimit` after the
attempts so far. What a bucket allows in an interval is proved there, of any attempts.

The bucket counts in exact rational seconds, where the source has a floating point number; the
results are about that exact arithmetic.
-/
import SoundPush.Engine.SessionOrder
import SoundPush.Engine.Trusted

set_option autoImplicit false

namespace SoundPush

section

variable [Crypto]

/-! ## 1. Runs -/

/-- A session, from its start on: whatever the peer, the transport and the engine do. -/
def session : Machine SessionTask SessionInput where
  init t :=
    ∃ conn_id conn dialed local_hello pair versions,
      t = .start conn_id conn dialed local_hello pair versions
  enabled t i := t.waits i.act = true
  step t i := (t.step i).1

instance (t : SessionTask) (i : SessionInput) : Decidable (session.enabled t i) :=
  inferInstanceAs (Decidable (t.waits i.act = true))

/-- A run of a session so far: its inputs, with the states they met. -/
abbrev SessionTrace := List (SessionTask × SessionInput)

/-- What the steps of a run did, in order. -/
def told_of (tr : SessionTrace) : List SessionOut := tr.flatMap fun p => (p.1.step p.2).2

/-- The times of a run's inputs. -/
def times_of (tr : SessionTrace) : List Nat := tr.map fun p => p.2.now

theorem told_of_concat (tr : SessionTrace) (t : SessionTask) (i : SessionInput) :
    told_of (tr ++ [(t, i)]) = told_of tr ++ (t.step i).2 := by
  simp [told_of]

/-- What every state of a run has checked. -/
theorem session_checked {tr : SessionTrace} {t : SessionTask} (hr : session.Run tr t) :
    t.Checked := by
  refine hr.invariant (P := SessionTask.Checked) ?_ fun t i h _ => t.step_checked h i
  rintro t ⟨conn_id, conn, dialed, local_hello, pair, versions, rfl⟩
  exact SessionTask.checked_of_phase fun _ => SessionPhase.noConfusion

/-- Each step tells the engine what comes next. -/
theorem session_told {tr : SessionTrace} {t : SessionTask} (hr : session.Run tr t) :
    t.Told (reports (told_of tr)) := by
  induction hr with
  | start h =>
      obtain ⟨conn_id, conn, dialed, local_hello, pair, versions, rfl⟩ := h
      rfl
  | @next tr t i hr hwaits ih =>
      rw [told_of_concat, reports_append]
      exact ih.goes (t.step_same i) (t.step_goes hwaits (session_checked hr))

/-! ## 2. A flood

A session has one bucket for control messages, made when it is established. A message that finds it
empty is dropped and counted, and too many drops end the session. -/

/-- The control messages that a step passes on to the engine. -/
def passed (out : List SessionOut) : List ControlMsg :=
  out.filterMap fun o =>
    match o with
    | .Report (.Control msg) => some msg
    | _ => none

omit [Crypto] in
theorem passed_append (out more : List SessionOut) :
    passed (out ++ more) = passed out ++ passed more := List.filterMap_append

namespace SessionTask

/-- The message that the loop gets, if it is not a goodbye. -/
def hears (t : SessionTask) (i : SessionInput) : List (ℚ × ControlMsg) :=
  match i.act with
  | .Received (some msg) =>
      if t.phase = .Running ∧ msg.is_goodbye = false then [(secs i.now, msg)] else []
  | _ => []

/-- The message that the engine gets. -/
def forwards (t : SessionTask) (i : SessionInput) : List (ℚ × ControlMsg) :=
  (passed (t.step i).2).map fun msg => (secs i.now, msg)

/-- What a step does to the limit, with what it gets and what it passes on. -/
inductive Meters (t t' : SessionTask) (now : ℚ) : List (ℚ × ControlMsg) → List ControlMsg → Prop
  | idle (hlimit : t'.control_limit = t.control_limit)
      (hdropped : t'.dropped_control = t.dropped_control)
      (hstage : t'.stage = .Over ∨ t'.stage = t.stage) : Meters t t' now [] []
  | establish (hearly : t.stage = .Early)
      (hlimit : t'.control_limit = .new CONTROL_RATE CONTROL_BURST now)
      (hdropped : t'.dropped_control = t.dropped_control) (htalking : t'.stage = .Talking) :
      Meters t t' now [] []
  | forward (msg : ControlMsg) (htalking : t.stage = .Talking)
      (hallowed : (t.control_limit.allow now).2 = true)
      (hlimit : t'.control_limit = (t.control_limit.allow now).1)
      (hdropped : t'.dropped_control = t.dropped_control) (hstage : t'.stage = .Talking) :
      Meters t t' now [(now, msg)] [msg]
  | drop (msg : ControlMsg) (htalking : t.stage = .Talking)
      (hflood : (t.control_limit.allow now).2 = false)
      (hlimit : t'.control_limit = (t.control_limit.allow now).1)
      (hdropped : t'.dropped_control = t.dropped_control + 1)
      (hstage : t'.stage = .Over ∨
        t'.stage = .Talking ∧ t'.dropped_control ≤ MAX_DROPPED_CONTROL) :
      Meters t t' now [(now, msg)] []
  | unheard (msg : ControlMsg) (htalking : t.stage = .Talking) (hengine : t'.engine = false)
      (hover : t'.stage = .Over) : Meters t t' now [(now, msg)] []

variable {t : SessionTask} {now : Nat}

omit [Crypto] in
/-- A session that ends passes no message on. -/
theorem passed_finish (t : SessionTask) (reason : StopReason) :
    passed (t.finish reason).2 = [] := by
  unfold SessionTask.finish report
  split <;> rfl

omit [Crypto] in
theorem passed_fail (t : SessionTask) (code : UInt32) : passed (t.fail code).2 = [] := by
  unfold SessionTask.fail report
  split <;> rfl

omit [Crypto] in
/-- Nor does it use the limit. -/
theorem finish_meters (t : SessionTask) (reason : StopReason) (now : ℚ) :
    t.Meters (t.finish reason).1 now [] (passed (t.finish reason).2) := by
  rw [passed_finish]
  exact .idle rfl rfl (.inl rfl)

omit [Crypto] in
theorem fail_meters (t : SessionTask) (code : UInt32) (now : ℚ) :
    t.Meters (t.fail code).1 now [] (passed (t.fail code).2) := by
  rw [passed_fail]
  exact .idle rfl rfl (.inl rfl)

omit [Crypto] in
/-- The limit begins when the session is established. -/
theorem establish_meters (h : t.stage = .Early) (peer : PeerHello) :
    t.Meters (t.establish now peer).1 (secs now) [] (passed (t.establish now peer).2) := by
  unfold SessionTask.establish
  split
  · exact .establish h rfl rfl rfl
  · exact .idle rfl rfl (.inl rfl)

theorem greeted_meters (h : t.stage = .Early) (peer : PeerHello) :
    t.Meters (t.greeted now peer).1 (secs now) [] (passed (t.greeted now peer).2) := by
  unfold greeted
  split
  · exact t.fail_meters 2 _
  split
  · exact .idle rfl rfl (.inr h.symm)
  split
  · exact .idle rfl rfl (.inr h.symm)
  · exact establish_meters h peer

/-- What goes out is not limited, but the last message of a handshake establishes the session. -/
theorem sent_meters (t : SessionTask) (now : Nat) (ok : Bool) :
    t.Meters (t.sent now ok).1 (secs now) [] (passed (t.sent now ok).2) := by
  -- Handing a message over passes nothing on to the engine.
  have hhanded : passed (if ok then t.pending.toList.map SessionOut.Hand else []) = [] := by
    cases ok <;> cases t.pending <;> rfl
  unfold sent
  dsimp only
  rw [passed_append, hhanded, List.nil_append]
  split
  · next hphase =>
      have hearly : t.stage = .Early := by rw [stage, hphase]; rfl
      split
      · exact .idle rfl rfl (.inr hearly.symm)
      · exact t.fail_meters 1 _
  · next peer hphase =>
      have hearly : t.stage = .Early := by rw [stage, hphase]; rfl
      split
      · exact greeted_meters hearly peer
      · exact t.fail_meters 1 _
  · have hnone : passed (SessionOut.CloseConn 3 :: t.report (.HandshakeFailed true)) = [] := by
      unfold report
      split <;> rfl
    rw [hnone]
    exact .idle rfl rfl (.inl rfl)
  · next peer hphase =>
      have hearly : t.stage = .Early := by rw [stage, hphase]; rfl
      split
      · exact establish_meters hearly peer
      · have hnone : passed (t.report (.HandshakeFailed false)) = [] := by
          unfold report
          split <;> rfl
        rw [hnone]
        exact .idle rfl rfl (.inl rfl)
  · next msg hphase =>
      have htalking : t.stage = .Talking := by rw [stage, hphase]; rfl
      split
      · exact .idle rfl rfl (.inr htalking.symm)
      · exact t.finish_meters .NetworkLost _
  · next reason hphase =>
      have htalking : t.stage = .Talking := by rw [stage, hphase]; rfl
      exact .idle rfl rfl (.inr htalking.symm)
  · exact .idle rfl rfl (.inr rfl)

omit [Crypto] in
/-- In the loop a message other than a goodbye is one attempt on the limit. -/
theorem hears_of_running (h : t.phase = .Running) {msg : ControlMsg}
    (hmsg : msg.is_goodbye = false) :
    t.hears ⟨now, .Received (some msg)⟩ = [(secs now, msg)] := if_pos ⟨h, hmsg⟩

omit [Crypto] in
/-- Anything else is none. -/
theorem hears_of_not {i : SessionInput}
    (h : ∀ msg, i.act = .Received (some msg) → t.phase ≠ .Running ∨ msg.is_goodbye = true) :
    t.hears i = [] := by
  unfold hears
  split
  · next msg hact =>
      refine if_neg fun hboth => ?_
      rcases h msg hact with hphase | hgoodbye
      · exact hphase hboth.1
      · simp [hboth.2] at hgoodbye
  · rfl

omit [Crypto] in
/-- The loop's own step: the message is passed on, or dropped, or the engine is gone. -/
theorem on_message_meters (h : t.phase = .Running) (msg : ControlMsg) :
    t.Meters (t.on_message now msg).1 (secs now)
      (t.hears ⟨now, .Received (some msg)⟩) (passed (t.on_message now msg).2) := by
  have htalking : t.stage = .Talking := by rw [stage, h]; rfl
  unfold on_message
  split
  · rw [hears_of_not (by rintro _ ⟨⟩; exact .inr rfl)]
    exact t.finish_meters _ _
  next hgoodbye =>
    have hheard : msg.is_goodbye = false := by
      unfold ControlMsg.is_goodbye
      split
      · next reason => exact (hgoodbye reason rfl).elim
      · rfl
    rw [hears_of_running h hheard]
    dsimp only
    split
    · next hflood =>
        have hlost : (t.control_limit.allow (secs now)).2 = false := by simpa using hflood
        split
        · rw [passed_finish]
          exact .drop msg htalking hlost rfl rfl (.inl rfl)
        · next hle =>
            exact .drop msg htalking hlost rfl rfl (.inr ⟨htalking, Nat.le_of_not_lt hle⟩)
    · next hallowed =>
        split
        · exact .forward msg htalking (by simpa using hallowed) rfl rfl htalking
        · next hengine =>
            rw [passed_finish]
            exact .unheard msg htalking (Bool.not_eq_true _ ▸ hengine) rfl

/-- A message in the handshake is not limited; one in the loop is. -/
theorem received_meters (hwaits : t.phase = .Listening ∨ t.phase = .Running)
    (msg : Option ControlMsg) :
    t.Meters (t.step ⟨now, .Received msg⟩).1 (secs now) (t.hears ⟨now, .Received msg⟩)
      (passed (t.step ⟨now, .Received msg⟩).2) := by
  rcases hwaits with hphase | hphase
  · have hearly : t.stage = .Early := by rw [stage, hphase]; rfl
    rw [hears_of_not fun _ _ => .inl (by rw [hphase]; decide)]
    simp only [step]
    split
    · split
      · exact greeted_meters hearly _
      · exact .idle rfl rfl (.inr hearly.symm)
    · exact t.fail_meters 1 _
    · next hnot => exact (hnot hphase).elim
    · next hnot => exact (hnot hphase).elim
  · simp only [step, hphase]
    cases msg with
    | none =>
        rw [hears_of_not (by rintro _ ⟨⟩)]
        exact t.finish_meters .NetworkLost _
    | some msg => exact on_message_meters hphase msg

omit [Crypto] in
/-- Datagrams have no part in this limit. -/
theorem on_datagram_meters (t : SessionTask) (now : Nat) (bytes : Bytes) :
    t.Meters (t.on_datagram now bytes).1 (secs now) [] (passed (t.on_datagram now bytes).2) := by
  have hnone : passed (t.on_datagram now bytes).2 = [] := by
    unfold on_datagram
    split
    · rfl
    · split
      · rfl
      · dsimp only
        split <;> rfl
    · cases t.probe_sink <;> rfl
    · next packet _ => cases t.sinks.get packet.header.route <;> rfl
  rw [hnone]
  unfold on_datagram
  split
  · exact .idle rfl rfl (.inr rfl)
  · split <;> exact .idle rfl rfl (.inr rfl)
  · exact .idle rfl rfl (.inr rfl)
  · exact .idle rfl rfl (.inr rfl)

/-- Any step that the phase waits for. -/
theorem step_meters {i : SessionInput} (hwaits : t.waits i.act = true) :
    t.Meters (t.step i).1 (secs i.now) (t.hears i) (passed (t.step i).2) := by
  obtain ⟨now, act⟩ := i
  cases act with
  | Opened ok =>
      have hphase : t.phase = .Opening := of_decide_eq_true hwaits
      have hearly : t.stage = .Early := by rw [stage, hphase]; rfl
      simp only [step]
      split
      · refine .idle rfl rfl (.inr ?_)
        rw [hearly, stage]
        dsimp only
        split <;> rfl
      · exact t.fail_meters 1 _
  | Sent ok => exact t.sent_meters now ok
  | Received msg =>
      simp only [waits, Bool.or_eq_true, decide_eq_true_eq] at hwaits
      exact received_meters hwaits msg
  | TimedOut => exact t.fail_meters 1 _
  | Slept =>
      simp only [step]
      split
      · exact t.finish_meters _ _
      · exact .idle rfl rfl (.inr rfl)
  | Command cmd =>
      have hphase : t.phase = .Running := of_decide_eq_true hwaits
      have htalking : t.stage = .Talking := by rw [stage, hphase]; rfl
      cases cmd with
      | none => exact t.finish_meters .UserStopped _
      | some cmd =>
          cases cmd with
          | Send msg => exact .idle rfl rfl (.inr htalking.symm)
          | Close reason => exact .idle rfl rfl (.inr htalking.symm)
          | AddSink route sink => exact .idle rfl rfl (.inr rfl)
          | RemoveSink route => exact .idle rfl rfl (.inr rfl)
          | ArmEcho test_id until_ => exact .idle rfl rfl (.inr rfl)
          | ProbeSink sink => exact .idle rfl rfl (.inr rfl)
  | Datagram bytes =>
      cases bytes with
      | none => exact t.finish_meters .NetworkLost _
      | some bytes => exact t.on_datagram_meters now bytes
  | EngineStopped => exact .idle rfl rfl (.inr rfl)

end SessionTask

/-- The messages that the loop gets, each with its time. -/
def heard (tr : SessionTrace) : List (ℚ × ControlMsg) := tr.flatMap fun p => p.1.hears p.2

/-- The messages that the engine gets. -/
def forwarded (tr : SessionTrace) : List (ℚ × ControlMsg) := tr.flatMap fun p => p.1.forwards p.2

omit [Crypto] in
/-- What a run has heard, one step longer. -/
theorem heard_concat (tr : SessionTrace) (t : SessionTask) (i : SessionInput) :
    heard (tr ++ [(t, i)]) = heard tr ++ t.hears i := by
  simp [heard]

/-- What a run has passed on, one step longer. -/
theorem forwarded_concat (tr : SessionTrace) (t : SessionTask) (i : SessionInput) :
    forwarded (tr ++ [(t, i)]) = forwarded tr ++ t.forwards i := by
  simp [forwarded]

/-- The limit of a session that was established at `now`. -/
def control_limit_from (now : ℚ) : RateLimit := .new CONTROL_RATE CONTROL_BURST now

namespace SessionTask

/-- The times at which messages tried the limit. -/
def attempts (msgs : List (ℚ × ControlMsg)) : List ℚ := msgs.map Prod.fst

/-- What a run has got and passed on by now. -/
structure Metered (t : SessionTask) (got passed : List (ℚ × ControlMsg)) : Prop where
  sublist : passed.Sublist got
  early : t.stage = .Early → got = [] ∧ t.dropped_control = 0
  talking : t.stage = .Talking → ∃ start,
    t.control_limit = (control_limit_from start).after (attempts got) ∧
      attempts passed = (control_limit_from start).allowed (attempts got) ∧
      passed.length + t.dropped_control = got.length ∧ t.dropped_control ≤ MAX_DROPPED_CONTROL
  limited : ∃ start, (attempts passed).Sublist ((control_limit_from start).allowed (attempts got)) ∧
    (t.engine = true → attempts passed = (control_limit_from start).allowed (attempts got))

omit [Crypto] in
theorem attempts_concat (msgs : List (ℚ × ControlMsg)) (now : ℚ) (msg : ControlMsg) :
    attempts (msgs ++ [(now, msg)]) = attempts msgs ++ [now] := by
  simp [attempts]

omit [Crypto] in
/-- One step more: the bucket is tried once for each message heard, and what was passed on is
what it allowed. -/
theorem Metered.step {t t' : SessionTask} {now : ℚ} {got passed more : List (ℚ × ControlMsg)}
    {msgs : List ControlMsg} (h : t.Metered got passed) (hmeters : t.Meters t' now more msgs)
    (hengine : t'.engine = true → t.engine = true) :
    t'.Metered (got ++ more) (passed ++ msgs.map fun msg => (now, msg)) := by
  cases hmeters with
  | idle hlimit hdropped hstage =>
      rw [List.append_nil, List.map_nil, List.append_nil]
      refine ⟨h.sublist, fun hearly => ?_, fun htalking => ?_, ?_⟩
      · have hsame := hstage.resolve_left (by rw [hearly]; decide)
        rw [hdropped]
        exact h.early (hsame.symm.trans hearly)
      · have hsame := hstage.resolve_left (by rw [htalking]; decide)
        rw [hlimit, hdropped]
        exact h.talking (hsame.symm.trans htalking)
      · obtain ⟨start, hsub, heq⟩ := h.limited
        exact ⟨start, hsub, fun hon => heq (hengine hon)⟩
  | establish hearly hlimit hdropped htalking =>
      obtain ⟨rfl, hzero⟩ := h.early hearly
      obtain rfl := List.sublist_nil.1 h.sublist
      refine ⟨.slnil, fun hcon => ?_, fun _ => ⟨now, hlimit, rfl, ?_, ?_⟩, now, .slnil,
        fun _ => rfl⟩
      · rw [htalking] at hcon
        cases hcon
      · rw [hdropped, hzero]
        rfl
      · rw [hdropped, hzero]
        exact Nat.zero_le _
  | forward msg htalking hallowed hlimit hdropped hstage =>
      obtain ⟨start, hafter, hpassed, hcount, hle⟩ := h.talking htalking
      -- Heard and passed grow together.
      have hnow : attempts (passed ++ [(now, msg)]) =
          (control_limit_from start).allowed (attempts (got ++ [(now, msg)])) := by
        rw [attempts_concat, attempts_concat, RateLimit.allowed_concat, ← hafter, if_pos hallowed,
          hpassed]
      refine ⟨h.sublist.append (.refl _), fun hcon => ?_, fun _ => ⟨start, ?_, hnow, ?_, ?_⟩,
        start, hnow ▸ .refl _, fun _ => hnow⟩
      · rw [hstage] at hcon
        cases hcon
      · rw [hlimit, attempts_concat, RateLimit.after_concat, ← hafter]
      · rw [hdropped]
        simp only [List.map_cons, List.map_nil, List.length_append, List.length_singleton]
        omega
      · rw [hdropped]
        exact hle
  | drop msg htalking hflood hlimit hdropped hstage =>
      obtain ⟨start, hafter, hpassed, hcount, hle⟩ := h.talking htalking
      rw [List.map_nil, List.append_nil]
      -- Heard grows, passed does not: the bucket had no token left.
      have hnow : attempts passed =
          (control_limit_from start).allowed (attempts (got ++ [(now, msg)])) := by
        rw [attempts_concat, RateLimit.allowed_concat, ← hafter, hflood,
          if_neg Bool.false_ne_true, List.append_nil, hpassed]
      refine ⟨h.sublist.trans (List.sublist_append_left _ _), fun hcon => ?_,
        fun htalk => ⟨start, ?_, hnow, ?_, ?_⟩, start, hnow ▸ .refl _, fun _ => hnow⟩
      · rcases hstage with hover | ⟨htalk, _⟩
        · rw [hover] at hcon
          cases hcon
        · rw [htalk] at hcon
          cases hcon
      · rw [hlimit, attempts_concat, RateLimit.after_concat, ← hafter]
      · rw [hdropped, List.length_append, List.length_singleton]
        omega
      · rcases hstage with hover | ⟨_, hmost⟩
        · rw [hover] at htalk
          cases htalk
        · exact hmost
  | unheard msg htalking hoff hover =>
      obtain ⟨start, hafter, hpassed, _, _⟩ := h.talking htalking
      rw [List.map_nil, List.append_nil]
      refine ⟨h.sublist.trans (List.sublist_append_left _ _), fun hcon => ?_, fun hcon => ?_,
        start, ?_, fun hon => ?_⟩
      · rw [hover] at hcon
        cases hcon
      · rw [hover] at hcon
        cases hcon
      · rw [attempts_concat, RateLimit.allowed_concat, hpassed]
        exact List.sublist_append_left _ _
      · rw [hoff] at hon
        cases hon

end SessionTask

open SessionTask

/-- Every run is metered, by induction on it. -/
theorem session_metered {tr : SessionTrace} {t : SessionTask} (hr : session.Run tr t) :
    t.Metered (heard tr) (forwarded tr) := by
  induction hr with
  | start h =>
      obtain ⟨conn_id, conn, dialed, local_hello, pair, versions, rfl⟩ := h
      exact ⟨.slnil, fun _ => ⟨rfl, rfl⟩, SessionStage.noConfusion, 0, .slnil, fun _ => rfl⟩
  | @next tr t i hr hwaits ih =>
      rw [heard_concat, forwarded_concat]
      exact ih.step (t.step_meters hwaits) (t.step_same i).engine

/-- What was passed on, read off the outputs of a run instead of its steps. -/
theorem passed_told (tr : SessionTrace) :
    passed (told_of tr) = (forwarded tr).map Prod.snd := by
  induction tr with
  | nil => rfl
  | cons p tr ih =>
      have hsplit : told_of (p :: tr) = (p.1.step p.2).2 ++ told_of tr := by simp [told_of]
      have hfirst : forwarded (p :: tr) = p.1.forwards p.2 ++ forwarded tr := by simp [forwarded]
      rw [hsplit, hfirst, passed_append, List.map_append, ih, forwards, List.map_map]
      congr 1
      exact (List.map_id _).symm

/-- **The engine's view of a session.** It hears nothing; or that the handshake failed, and no
more; or that a peer which is who it says it is has said hello, then the peer's messages, then that
the session is closed, and no more. What ends unheard has no engine to hear it. The messages are
some of those received, in their order. -/
theorem session_reports {tr : SessionTrace} {t : SessionTask} (hr : session.Run tr t) :
    t.Told (reports (told_of tr)) ∧
      (passed (told_of tr)).Sublist ((heard tr).map Prod.snd) := by
  refine ⟨session_told hr, ?_⟩
  rw [passed_told]
  exact (session_metered hr).sublist.map Prod.snd

omit [Crypto] in
/-- Later on the clock is later in seconds. -/
theorem secs_mono {a b : Nat} (h : a ≤ b) : secs a ≤ secs b :=
  div_le_div_of_nonneg_right (Nat.cast_le.2 h) (by norm_num)

omit [Crypto] in
/-- Messages are got in the order of time. -/
theorem attempts_sorted {tr : SessionTrace} (hclock : (times_of tr).Pairwise (· ≤ ·)) :
    (attempts (heard tr)).Pairwise (· ≤ ·) := by
  have hsub : (attempts (heard tr)).Sublist ((times_of tr).map secs) := by
    clear hclock
    induction tr with
    | nil => exact .slnil
    | cons p tr ih =>
        have hone : (attempts (p.1.hears p.2)).Sublist [secs p.2.now] := by
          unfold hears
          split
          · split
            · exact .refl _
            · exact List.nil_sublist _
          · exact List.nil_sublist _
        have hsplit : attempts (heard (p :: tr)) =
            attempts (p.1.hears p.2) ++ attempts (heard tr) := by
          simp [attempts, heard]
        rw [hsplit]
        exact hone.append ih
  exact List.Pairwise.sublist hsub (hclock.map secs fun _ _ => secs_mono)

/-- **A flood.** The engine gets a part of what the peer sends, in its order, and in no interval
more than the limit allows; a peer that keeps to the limit loses nothing, and a session goes on only
while few messages were dropped. -/
theorem session_flood {tr : SessionTrace} {t : SessionTask} (hr : session.Run tr t)
    (hclock : (times_of tr).Pairwise (· ≤ ·)) :
    (forwarded tr).Sublist (heard tr) ∧
    (∀ a b, a ≤ b → (RateLimit.between a b (attempts (forwarded tr)) : ℚ) ≤
      CONTROL_BURST + CONTROL_RATE * (b - a)) ∧
    (t.engine = true → (∀ a b, a ≤ b → (RateLimit.between a b (attempts (heard tr)) : ℚ) ≤
      CONTROL_BURST + CONTROL_RATE * (b - a)) → forwarded tr = heard tr) ∧
    (t.stage = .Talking → (heard tr).length ≤ (forwarded tr).length + MAX_DROPPED_CONTROL) := by
  have hmetered := session_metered hr
  have hsorted := attempts_sorted hclock
  obtain ⟨start, hsub, heq⟩ := hmetered.limited
  have hsound : (control_limit_from start).Sound :=
    RateLimit.new_sound (by norm_num [CONTROL_RATE]) (by norm_num [CONTROL_BURST]) start
  refine ⟨hmetered.sublist, fun a b hab => ?_, fun hengine hkeeps => ?_, fun htalking => ?_⟩
  · exact (Nat.cast_le.2 hsub.countP_le).trans (hsound.allowed_between hsorted hab)
  · have hall := hsound.allowed_all (.inl ⟨rfl, rfl⟩) hsorted (fun hne => absurd rfl hne) hkeeps
    have hlength := congrArg List.length ((heq hengine).trans hall)
    simp only [attempts, List.length_map] at hlength
    exact hmetered.sublist.eq_of_length hlength
  · obtain ⟨_, _, _, hcount, hle⟩ := hmetered.talking htalking
    omega

/-! ## 3. Echoes

An armed test answers probes until its deadline, within a bucket of its own. An echo has the
length of its probe at most, which is what bounds the bytes that go back. -/

/-- The datagram that an input brings. -/
def SessionInput.datagram (i : SessionInput) : List Bytes :=
  match i.act with
  | .Datagram (some bytes) => [bytes]
  | _ => []

/-- The datagrams that go back to the peer. -/
def returned (out : List SessionOut) : List Bytes :=
  out.filterMap fun o =>
    match o with
    | .SendDatagram bytes => some bytes
    | _ => none

/-- The engine arms a test, which takes the place of the one before. -/
def SessionInput.arms (i : SessionInput) : Prop :=
  ∃ test_id until_, i.act = .Command (some (.ArmEcho test_id until_))

/-- What the loop does to datagrams. -/
def SessionOut.is_data : SessionOut → Bool
  | .SendDatagram _ | .Push .. | .Probed .. => true
  | _ => false

namespace SessionTask

/-- Control never sends or delivers a datagram. -/
def Controls (out : List SessionOut) : Prop := ∀ o ∈ out, o.is_data = false

omit [Crypto] in
theorem controls_append {out more : List SessionOut} (h : Controls out) (h' : Controls more) :
    Controls (out ++ more) := by
  intro o ho
  rcases List.mem_append.1 ho with ho | ho
  · exact h o ho
  · exact h' o ho

omit [Crypto] in
theorem controls_nil : Controls [] := fun _ h => absurd h List.not_mem_nil

omit [Crypto] in
theorem controls_cons {o : SessionOut} {out : List SessionOut} (ho : o.is_data = false)
    (h : Controls out) : Controls (o :: out) := by
  intro o' ho'
  rcases List.mem_cons.1 ho' with rfl | ho'
  · exact ho
  · exact h o' ho'

omit [Crypto] in
/-- A report is no datagram. -/
theorem report_controls (t : SessionTask) (event : SessionEvent) : Controls (t.report event) := by
  unfold report
  split
  · exact controls_cons rfl controls_nil
  · exact controls_nil

omit [Crypto] in
theorem establish_controls (t : SessionTask) (now : Nat) (peer : PeerHello) :
    Controls (t.establish now peer).2 := by
  unfold SessionTask.establish
  split <;> exact controls_cons rfl controls_nil

theorem greeted_controls (t : SessionTask) (now : Nat) (peer : PeerHello) :
    Controls (t.greeted now peer).2 := by
  unfold greeted
  split
  · exact controls_cons rfl (t.report_controls _)
  split
  · exact controls_nil
  split
  · exact controls_nil
  · exact t.establish_controls now peer

/-- Nor is anything that follows a message that went out. -/
theorem sent_controls (t : SessionTask) (now : Nat) (ok : Bool) : Controls (t.sent now ok).2 := by
  refine controls_append ?_ ?_
  · split
    · cases t.pending with
      | none => exact controls_nil
      | some msg => exact controls_cons rfl controls_nil
    · exact controls_nil
  · split
    · split
      · exact controls_nil
      · exact controls_cons rfl (t.report_controls _)
    · split
      · exact t.greeted_controls now _
      · exact controls_cons rfl (t.report_controls _)
    · exact controls_cons rfl (t.report_controls _)
    · split
      · exact t.establish_controls now _
      · exact t.report_controls _
    · split
      · exact controls_nil
      · exact controls_cons rfl (t.report_controls _)
    · exact controls_cons rfl controls_nil
    · exact controls_nil

omit [Crypto] in
/-- Nor anything that follows a message that came in. -/
theorem on_message_controls (t : SessionTask) (now : Nat) (msg : ControlMsg) :
    Controls (t.on_message now msg).2 := by
  unfold on_message
  split
  · exact controls_cons rfl (t.report_controls _)
  dsimp only
  split
  · split
    · exact controls_cons rfl (report_controls _ _)
    · exact controls_nil
  · split
    · exact controls_cons rfl controls_nil
    · exact controls_cons rfl (report_controls _ _)

/-- Only a datagram is answered with one, or delivered. -/
theorem step_controls (t : SessionTask) {i : SessionInput} (h : i.datagram = []) :
    Controls (t.step i).2 := by
  obtain ⟨now, act⟩ := i
  cases act with
  | Opened ok =>
      simp only [step]
      split
      · exact controls_nil
      · exact controls_cons rfl (t.report_controls _)
  | Sent ok => exact t.sent_controls now ok
  | Received msg =>
      simp only [step]
      split
      · split
        · exact t.greeted_controls now _
        · exact controls_nil
      · exact controls_cons rfl (t.report_controls _)
      · exact t.on_message_controls now _
      · exact controls_cons rfl (t.report_controls _)
  | TimedOut => exact controls_cons rfl (t.report_controls _)
  | Slept =>
      simp only [step]
      split
      · exact controls_cons rfl (t.report_controls _)
      · exact controls_nil
  | Command cmd =>
      cases cmd with
      | none => exact controls_cons rfl (t.report_controls _)
      | some cmd => cases cmd <;> exact controls_nil
  | Datagram bytes =>
      cases bytes with
      | none => exact controls_cons rfl (t.report_controls _)
      | some bytes => cases h
  | EngineStopped => exact controls_nil

omit [Crypto] in
/-- So control sends nothing back. -/
theorem returned_of_controls {out : List SessionOut} (h : Controls out) : returned out = [] := by
  refine List.filterMap_eq_nil_iff.2 fun o ho => ?_
  have hdata := h o ho
  cases o with
  | SendDatagram bytes => cases hdata
  | _ => rfl

/-- An answer to `bytes`, by the test that is armed. -/
def Answers (t : SessionTask) (now : Nat) (bytes echo : Bytes) : Prop :=
  ∃ armed limit probe, t.echo = some (armed, limit) ∧ now < armed.deadline ∧
    Probe.decode bytes = .ok probe ∧ probe.kind = .Probe ∧ probe.test_id = armed.test_id ∧
    echo = (probe.echo 0).encode 0

/-- What a step does to the armed test, and the echoes it sends. -/
inductive Echoes (t t' : SessionTask) (i : SessionInput) : List Bytes → Prop
  | idle (hecho : t'.echo = t.echo) : Echoes t t' i []
  | arm (harms : i.arms) (armed : EchoArmed)
      (hecho : t'.echo = some (armed, .new ECHO_RATE ECHO_RATE (secs i.now))) : Echoes t t' i []
  | answer (armed : EchoArmed) (limit : RateLimit) (bytes echo : Bytes)
      (harmed : t.echo = some (armed, limit)) (hbytes : i.datagram = [bytes])
      (hanswers : t.Answers i.now bytes echo)
      (hecho : t'.echo = some (armed, (limit.allow (secs i.now)).1)) :
      Echoes t t' i (if (limit.allow (secs i.now)).2 then [echo] else [])

omit [Crypto] in
/-- A datagram that is a probe of the armed test is answered within the limit; any other one
leaves the test alone. -/
theorem on_datagram_echoes (t : SessionTask) (now : Nat) (bytes : Bytes) :
    t.Echoes (t.on_datagram now bytes).1 ⟨now, .Datagram (some bytes)⟩
      (returned (t.on_datagram now bytes).2) := by
  unfold on_datagram
  split
  · exact .idle rfl
  · next echo hechoed =>
      split
      · exact .idle rfl
      · next armed limit harmed =>
          have hanswers : t.Answers now bytes echo := by
            rw [harmed] at hechoed
            obtain ⟨test, probe, hsame, hdecode, hkind, htest, hnow, hecho⟩ :=
              on_datagram_answered hechoed
            obtain rfl : armed = test := Option.some_inj.1 hsame
            exact ⟨armed, limit, probe, harmed, hnow, hdecode, hkind, htest, hecho⟩
          have hsent : returned (if (limit.allow (secs now)).2 then [.SendDatagram echo] else []) =
              if (limit.allow (secs now)).2 then [echo] else [] := by
            split <;> rfl
          dsimp only
          rw [hsent]
          exact .answer armed limit bytes echo harmed rfl hanswers rfl
  · have hnone : returned (t.probe_sink.map fun sink =>
        SessionOut.Probed sink ‹Probe› now).toList = [] := by cases t.probe_sink <;> rfl
    rw [hnone]
    exact .idle rfl
  · next packet _ =>
      have hnone : returned ((t.sinks.get packet.header.route).map fun sink =>
          SessionOut.Push sink packet).toList = [] := by
        cases t.sinks.get packet.header.route <;> rfl
      rw [hnone]
      exact .idle rfl

omit [Crypto] in
theorem establish_echo (t : SessionTask) (now : Nat) (peer : PeerHello) :
    (t.establish now peer).1.echo = t.echo := by
  unfold SessionTask.establish
  split <;> rfl

theorem greeted_echo (t : SessionTask) (now : Nat) (peer : PeerHello) :
    (t.greeted now peer).1.echo = t.echo := by
  unfold greeted
  split
  · rfl
  split
  · rfl
  split
  · rfl
  · exact t.establish_echo now peer

theorem sent_echo (t : SessionTask) (now : Nat) (ok : Bool) : (t.sent now ok).1.echo = t.echo := by
  unfold sent
  dsimp only
  split
  · split <;> rfl
  · split
    · exact t.greeted_echo now _
    · rfl
  · rfl
  · split
    · exact t.establish_echo now _
    · rfl
  · split <;> rfl
  · rfl
  · rfl

omit [Crypto] in
/-- Messages leave the armed test alone. -/
theorem on_message_echo (t : SessionTask) (now : Nat) (msg : ControlMsg) :
    (t.on_message now msg).1.echo = t.echo := by
  unfold on_message
  split
  · rfl
  dsimp only
  split
  · split <;> rfl
  · split <;> rfl

/-- Any step: a test is armed, a probe is met, or nothing happens to either. -/
theorem step_echoes (t : SessionTask) (i : SessionInput) :
    t.Echoes (t.step i).1 i (returned (t.step i).2) := by
  have hidle (hnone : i.datagram = []) (hecho : (t.step i).1.echo = t.echo) :
      t.Echoes (t.step i).1 i (returned (t.step i).2) := by
    rw [returned_of_controls (t.step_controls hnone)]
    exact .idle hecho
  obtain ⟨now, act⟩ := i
  cases act with
  | Opened ok =>
      refine hidle rfl ?_
      simp only [step]
      split <;> rfl
  | Sent ok => exact hidle rfl (t.sent_echo now ok)
  | Received msg =>
      refine hidle rfl ?_
      simp only [step]
      split
      · split
        · exact t.greeted_echo now _
        · rfl
      · rfl
      · exact t.on_message_echo now _
      · rfl
  | TimedOut => exact hidle rfl rfl
  | Slept =>
      refine hidle rfl ?_
      simp only [step]
      split <;> rfl
  | Command cmd =>
      cases cmd with
      | none => exact hidle rfl rfl
      | some cmd =>
          cases cmd with
          | ArmEcho test_id until_ => exact .arm ⟨test_id, until_, rfl⟩ ⟨test_id, until_⟩ rfl
          | _ => exact hidle rfl rfl
  | Datagram bytes =>
      cases bytes with
      | none => exact hidle rfl rfl
      | some bytes => exact t.on_datagram_echoes now bytes
  | EngineStopped => exact hidle rfl rfl

/-- A test's limit is the source's. -/
def EchoLimited (t : SessionTask) : Prop :=
  ∀ armed limit, t.echo = some (armed, limit) →
    limit.Sound ∧ limit.rate = ECHO_RATE ∧ limit.burst = ECHO_RATE

omit [Crypto] in
/-- The bucket of a test keeps its rate and its burst. -/
theorem EchoLimited.step {t t' : SessionTask} {i : SessionInput} {echoes : List Bytes}
    (h : t.EchoLimited) (hstep : t.Echoes t' i echoes) : t'.EchoLimited := by
  intro armed limit hlimit
  cases hstep with
  | idle hecho => exact h armed limit (hecho ▸ hlimit)
  | arm harms armed' hecho =>
      rw [hecho] at hlimit
      obtain ⟨-, rfl⟩ := Prod.mk.inj (Option.some_inj.1 hlimit)
      exact ⟨RateLimit.new_sound (by norm_num [ECHO_RATE]) (by norm_num [ECHO_RATE]) _, rfl, rfl⟩
  | answer armed' before bytes echo harmed hbytes hanswers hecho =>
      rw [hecho] at hlimit
      obtain ⟨-, rfl⟩ := Prod.mk.inj (Option.some_inj.1 hlimit)
      obtain ⟨hsound, hrate, hburst⟩ := h armed' before harmed
      refine ⟨hsound.allow _, ?_, ?_⟩
      · rw [(before.allow_eq _).1]
        exact hrate
      · rw [(before.allow_eq _).1]
        exact hburst

end SessionTask

/-- The datagrams that a run gets. -/
def datagrams (tr : SessionTrace) : List Bytes := tr.flatMap fun p => p.2.datagram

/-- The times of the echoes it sends. -/
def echo_times (tr : SessionTrace) : List ℚ :=
  tr.flatMap fun p => (returned (p.1.step p.2).2).map fun _ => secs p.2.now

/-- The bytes of some datagrams together. -/
def total_length (datagrams : List Bytes) : Nat := (datagrams.map List.length).sum

omit [Crypto] in
theorem total_length_append (a b : List Bytes) :
    total_length (a ++ b) = total_length a + total_length b := by
  simp [total_length]

theorem echo_times_concat (tr : SessionTrace) (t : SessionTask) (i : SessionInput) :
    echo_times (tr ++ [(t, i)]) =
      echo_times tr ++ (returned (t.step i).2).map fun _ => secs i.now := by
  simp [echo_times]

omit [Crypto] in
/-- An echo is no longer than the probe it answers: it carries the header alone. -/
theorem SessionTask.Answers.length_le {t : SessionTask} {now : Nat} {bytes echo : Bytes}
    (h : t.Answers now bytes echo) : echo.length ≤ bytes.length := by
  obtain ⟨_, _, probe, _, _, hdecode, -, -, rfl⟩ := h
  have hlow := (Probe.decode_eq_ok hdecode).1
  rw [Probe.encode_length, Nat.zero_min, Nat.max_zero]
  exact hlow

/-- No step sends more bytes back than it gets. -/
theorem step_returns_le (t : SessionTask) (i : SessionInput) :
    total_length (returned (t.step i).2) ≤ total_length i.datagram := by
  have hstep := t.step_echoes i
  generalize returned (t.step i).2 = echoes at hstep ⊢
  cases hstep with
  | idle _ => exact Nat.zero_le _
  | arm _ _ _ => exact Nat.zero_le _
  | answer armed limit bytes echo _ hbytes hanswers _ =>
      rw [hbytes]
      split
      · simp only [total_length, List.map_cons, List.map_nil, List.sum_cons, List.sum_nil]
        exact Nat.add_le_add_right hanswers.length_le 0
      · exact Nat.zero_le _

/-- So in every state of every run. -/
theorem session_echo_limited {tr : SessionTrace} {t : SessionTask} (hr : session.Run tr t) :
    t.EchoLimited := by
  refine hr.invariant (P := SessionTask.EchoLimited) ?_ fun t i h _ => h.step (t.step_echoes i)
  rintro t ⟨conn_id, conn, dialed, local_hello, pair, versions, rfl⟩ armed limit hlimit
  cases hlimit

/-- What a bucket says of the echoes of a run's last part. -/
def EchoedBy (seg : SessionTrace) (t : SessionTask) : Prop :=
  ∃ (limit : RateLimit) (tries : List ℚ),
    limit.Sound ∧ limit.rate = ECHO_RATE ∧ limit.burst = ECHO_RATE ∧
    tries.Sublist ((times_of seg).map secs) ∧ echo_times seg = limit.allowed tries ∧
    ∀ armed l, t.echo = some (armed, l) → l = limit.after tries

/-- A part of a run begins with the bucket as it is. -/
theorem EchoedBy.start {t : SessionTask} (h : t.EchoLimited) : EchoedBy [] t := by
  cases hecho : t.echo with
  | none =>
      refine ⟨.new ECHO_RATE ECHO_RATE 0, [], ?_, rfl, rfl, .slnil, rfl, fun _ _ hl => ?_⟩
      · exact RateLimit.new_sound (by norm_num [ECHO_RATE]) (by norm_num [ECHO_RATE]) 0
      · rw [hecho] at hl
        cases hl
  | some pair =>
      obtain ⟨armed, limit⟩ := pair
      obtain ⟨hsound, hrate, hburst⟩ := h armed limit hecho
      refine ⟨limit, [], hsound, hrate, hburst, .slnil, rfl, fun _ l hl => ?_⟩
      rw [hecho] at hl
      exact (Prod.mk.inj (Option.some_inj.1 hl)).2.symm

/-- One step more, while no test is armed anew. -/
theorem EchoedBy.step {seg : SessionTrace} {t : SessionTask} (h : EchoedBy seg t)
    {i : SessionInput} (harms : ¬ i.arms) : EchoedBy (seg ++ [(t, i)]) (t.step i).1 := by
  obtain ⟨limit, tries, hsound, hrate, hburst, hsub, htimes, hafter⟩ := h
  have hstep := t.step_echoes i
  unfold EchoedBy
  rw [echo_times_concat, htimes]
  have hclock : times_of (seg ++ [(t, i)]) = times_of seg ++ [i.now] := by simp [times_of]
  rw [hclock, List.map_append]
  generalize returned (t.step i).2 = echoes at hstep
  cases hstep with
  | idle hecho =>
      refine ⟨limit, tries, hsound, hrate, hburst,
        hsub.trans (List.sublist_append_left _ _), ?_, ?_⟩
      · rw [List.map_nil, List.append_nil]
      · rw [hecho]
        exact hafter
  | arm hon _ _ => exact absurd hon harms
  | answer armed l bytes echo harmed _ _ hecho =>
      have hl := hafter armed l harmed
      refine ⟨limit, tries ++ [secs i.now], hsound, hrate, hburst, hsub.append (.refl _), ?_, ?_⟩
      · rw [RateLimit.allowed_concat, ← hl]
        split <;> rfl
      · intro armed' l' hl'
        rw [hecho] at hl'
        rw [RateLimit.after_concat, ← hl]
        exact (Prod.mk.inj (Option.some_inj.1 hl')).2.symm

/-- While no test is armed anew, the echoes are what one bucket allows. -/
theorem echoed_by {tr seg : SessionTrace} {t : SessionTask} (hr : session.Run (tr ++ seg) t)
    (harms : ∀ p ∈ seg, ¬ p.2.arms) : EchoedBy seg t := by
  refine hr.stretch (P := fun seg t => (∀ p ∈ seg, ¬ p.2.arms) → EchoedBy seg t)
    (fun t hstart _ => .start (session_echo_limited hstart)) (fun seg t i _ _ ih hall => ?_) harms
  exact (ih fun p hp => hall p (List.mem_append_left _ hp)).step
    (hall (t, i) (List.mem_append_right _ (List.mem_singleton_self _)))

/-- A session that was never asked to answer probes sends nothing back. -/
theorem unarmed_silent {tr : SessionTrace} {t : SessionTask} (hr : session.Run tr t)
    (harms : ∀ p ∈ tr, ¬ p.2.arms) : t.echo = none ∧ returned (told_of tr) = [] := by
  induction hr with
  | start h =>
      obtain ⟨conn_id, conn, dialed, local_hello, pair, versions, rfl⟩ := h
      exact ⟨rfl, rfl⟩
  | @next tr t i hr _ ih =>
      obtain ⟨hnone, hsilent⟩ := ih fun p hp => harms p (List.mem_append_left _ hp)
      have hnot := harms (t, i) (List.mem_append_right _ (List.mem_singleton_self _))
      have happend : returned (told_of tr ++ (t.step i).2) =
          returned (told_of tr) ++ returned (t.step i).2 := List.filterMap_append
      have hstep := t.step_echoes i
      rw [told_of_concat, happend, hsilent, List.nil_append]
      generalize returned (t.step i).2 = echoes at hstep
      cases hstep with
      | idle hecho => exact ⟨hecho.trans hnone, rfl⟩
      | arm hon _ _ => exact absurd hon hnot
      | answer armed l bytes echo harmed _ _ _ =>
          rw [hnone] at harmed
          cases harmed

/-- Added up over a run, step by step. -/
theorem told_of_total (tr : SessionTrace) :
    total_length (returned (told_of tr)) ≤ total_length (datagrams tr) := by
  induction tr with
  | nil => exact Nat.le_refl 0
  | cons p tr ih =>
      have hreturned : returned (told_of (p :: tr)) =
          returned (p.1.step p.2).2 ++ returned (told_of tr) := by
        simp [told_of, returned, List.filterMap_append]
      have hgot : datagrams (p :: tr) = p.2.datagram ++ datagrams tr := by simp [datagrams]
      rw [hreturned, hgot, total_length_append, total_length_append]
      exact Nat.add_le_add (step_returns_le p.1 p.2) ih

/-- **Echoes.** What goes back to a peer is never more than it sent: each echo answers a probe of
the armed test, before its deadline; while no test is armed anew, no interval has more echoes than
the limit; and a session that was not asked to answer probes sends nothing back. -/
theorem session_echoes {tr : SessionTrace} {t : SessionTask} (hr : session.Run tr t)
    (hclock : (times_of tr).Pairwise (· ≤ ·)) :
    total_length (returned (told_of tr)) ≤ total_length (datagrams tr) ∧
    (∀ p ∈ tr, ∀ echo ∈ returned (p.1.step p.2).2,
      ∃ bytes ∈ p.2.datagram, p.1.Answers p.2.now bytes echo) ∧
    (∀ earlier later, tr = earlier ++ later → (∀ p ∈ later, ¬ p.2.arms) → ∀ a b, a ≤ b →
      (RateLimit.between a b (echo_times later) : ℚ) ≤ ECHO_RATE + ECHO_RATE * (b - a)) ∧
    ((∀ p ∈ tr, ¬ p.2.arms) → returned (told_of tr) = []) := by
  refine ⟨told_of_total tr, fun p _ echo hecho => ?_, fun earlier later htr harms a b hab => ?_,
    fun harms => (unarmed_silent hr harms).2⟩
  · have hstep := p.1.step_echoes p.2
    generalize returned (p.1.step p.2).2 = echoes at hstep hecho
    cases hstep with
    | idle _ => cases hecho
    | arm _ _ _ => cases hecho
    | answer armed l bytes echo' _ hbytes hanswers _ =>
        split at hecho
        · rw [List.mem_singleton.1 hecho, hbytes]
          exact ⟨bytes, List.mem_singleton_self _, hanswers⟩
        · cases hecho
  · subst htr
    obtain ⟨limit, tries, hsound, hrate, hburst, hsub, htimes, _⟩ := echoed_by hr harms
    have hlater : (times_of later).Pairwise (· ≤ ·) := by
      refine List.Pairwise.sublist ?_ hclock
      exact (List.sublist_append_right earlier later).map _
    have hsorted : tries.Pairwise (· ≤ ·) :=
      List.Pairwise.sublist hsub (hlater.map secs fun _ _ => secs_mono)
    have hbetween := hsound.allowed_between hsorted hab
    rw [hburst, hrate, ← htimes] at hbetween
    exact hbetween

end

/-! ## 4. A session -/

namespace Sample

def session_start : SessionTask :=
  .start 1 (conn peer_key) false ((hello other).announced LOCAL_VERSIONS) none LOCAL_VERSIONS

/-- A peer says hello, sends a message and a probe, and leaves. -/
def session_inputs : List SessionInput :=
  [⟨0, .Opened true⟩, ⟨1, .Received (some (.Hello ((hello peer).announced LOCAL_VERSIONS)))⟩,
    ⟨2, .Sent true⟩, ⟨3, .Received (some (.Body (.RouteStop ⟨1, 0⟩)))⟩,
    ⟨4, .Command (some (.ArmEcho 7 9))⟩,
    ⟨5, .Datagram (some (Probe.encode ⟨.Probe, 7, 1, 0, 0⟩ 100))⟩,
    ⟨6, .Received (some (.Body (.Goodbye 0)))⟩]

theorem session_run :
    session.Run (session.trace session_start session_inputs)
      (session.exec session_start session_inputs) := by
  have hinit : session.init session_start :=
    ⟨1, conn peer_key, false, _, none, LOCAL_VERSIONS, rfl⟩
  refine Machine.run_of_admits hinit ?_
  refine ⟨?_, ?_, ?_, ?_, ?_, ?_, ?_, trivial⟩ <;> decide +kernel

theorem session_clock :
    (times_of (session.trace session_start session_inputs)).Pairwise (· ≤ ·) := by
  decide +kernel

end Sample

open Sample

theorem session_reports_sample :
    (session.exec session_start session_inputs).Told
        (reports (told_of (session.trace session_start session_inputs))) ∧
      (reports (told_of (session.trace session_start session_inputs))).length = 3 ∧
      [ControlMsg.Body (.RouteStop ⟨1, 0⟩)].Sublist
        ((heard (session.trace session_start session_inputs)).map Prod.snd) := by
  obtain ⟨htold, hsub⟩ := session_reports session_run
  have hpassed : passed (told_of (session.trace session_start session_inputs)) =
      [.Body (.RouteStop ⟨1, 0⟩)] := by
    decide +kernel
  rw [hpassed] at hsub
  exact ⟨htold, by decide +kernel, hsub⟩

theorem session_flood_sample :
    (forwarded (session.trace session_start session_inputs)).Sublist
        (heard (session.trace session_start session_inputs)) ∧
      (forwarded (session.trace session_start session_inputs)).length = 1 ∧
      (RateLimit.between 0 1 (SessionTask.attempts (forwarded
        (session.trace session_start session_inputs))) : ℚ) ≤
        CONTROL_BURST + CONTROL_RATE * (1 - 0) := by
  obtain ⟨hsub, hlimit, -, -⟩ := session_flood session_run session_clock
  exact ⟨hsub, by decide +kernel, hlimit 0 1 (by norm_num)⟩

theorem session_echoes_sample :
    total_length (returned (told_of (session.trace session_start session_inputs))) ≤
        total_length (datagrams (session.trace session_start session_inputs)) ∧
      total_length (returned (told_of (session.trace session_start session_inputs))) = 26 :=
  ⟨(session_echoes session_run session_clock).1, by decide +kernel⟩

end SoundPush
