/-
`Host` -- the engine together with the session tasks it starts, and the channel on
which they report to it.

The machine `engine` assumes of sessions what its environment guarantees: that a
session is established or fails once, that messages come between its `Established`
and its `Closed`, that the peer is who it says it is. Here the sessions are tasks that
take steps of their own, and `host_refines` turns each of their runs into a run of
`engine`: what holds of the engine in all its runs holds of it among these tasks.
-/
import SoundPush.Engine.SessionRuns

set_option autoImplicit false

namespace SoundPush

/-! ## 1. The engine among its sessions -/

/-- What the engine reads off the channel. -/
def SessionEvent.event (conn_id : Nat) : SessionEvent → Event
  | .Established est => .Established est
  | .Control msg => .Control conn_id msg.body
  | .Closed reason => .Closed conn_id reason
  | .HandshakeFailed incompatible => .HandshakeFailed conn_id incompatible

/-- The session that an event comes from. -/
def Event.about : Event → Option Nat
  | .Established est => some est.conn_id
  | .Control conn_id _ | .Closed conn_id _ | .HandshakeFailed conn_id _ => some conn_id
  | _ => none

structure Host where
  world : World
  /-- the session tasks, by connection id -/
  sessions : Table Nat SessionTask
  /-- what they have reported and the engine has not read -/
  events : List (Nat × SessionEvent)

inductive HostEvent where
  /-- anything but a session's report reaches the engine -/
  | Engine (i : Input)
  | Session (conn_id : Nat) (i : SessionInput)
  /-- the engine reads the oldest report -/
  | Deliver (env : Env)

/-- The session tasks after the calls of an event. -/
def open_sessions (sessions : Table Nat SessionTask) (calls : List Call) : Table Nat SessionTask :=
  calls.foldl
    (fun sessions call =>
      match call with
      | .Dial .. => sessions
      | .RunSession conn_id conn dialed hello pair =>
          sessions.insert conn_id
            (.start conn_id conn dialed (hello.announced LOCAL_VERSIONS) pair LOCAL_VERSIONS))
    sessions

section

variable [Crypto]

namespace Host

/-- The engine handles an event. -/
def handle (h : Host) (i : Input) : Host :=
  { h with
    world := h.world.step i
    sessions := open_sessions h.sessions (h.world.step i).actor.calls }

def step (h : Host) : HostEvent → Host
  | .Engine i => h.handle i
  | .Session conn_id i =>
      match h.sessions.get conn_id with
      | none => h
      | some t =>
          { h with
            sessions := h.sessions.insert conn_id (t.step i).1
            events := h.events ++ (reports (t.step i).2).map fun event => (conn_id, event) }
  | .Deliver env =>
      match h.events with
      | [] => h
      | (conn_id, event) :: rest => { h with events := rest }.handle ⟨env, event.event conn_id⟩

/-- What can happen, while the engine runs. -/
def enabled (Known : PublicKey → Prop) (h : Host) : HostEvent → Prop
  | .Engine i => i.event.about = none ∧ h.world.enabled Known i
  | .Session conn_id i =>
      i.act ≠ .EngineStopped ∧ ∃ t, h.sessions.get conn_id = some t ∧ t.waits i.act = true
  | .Deliver _ => h.events ≠ []

end Host

def host (Known : PublicKey → Prop) : Machine Host HostEvent where
  init h := ∃ w, (engine Known).init w ∧ h = ⟨w, ∅, []⟩
  enabled := Host.enabled Known
  step := Host.step

/-- What the engine sees of a step. -/
def engine_sees (p : Host × HostEvent) : Option (World × Input) :=
  match p.2 with
  | .Engine i => some (p.1.world, i)
  | .Session .. => none
  | .Deliver env => p.1.events.head?.map fun e => (p.1.world, ⟨env, e.2.event e.1⟩)

/-! ## 2. What a session has told the engine -/

namespace SessionTask

variable {t : SessionTask}

/-- What a session tells an engine that listens. -/
theorem Told.word {events : List SessionEvent} (h : t.Told events) (hengine : t.engine = true) :
    events = [] ∨ (∃ incompatible, events = [.HandshakeFailed incompatible]) ∨
      ∃ peer msgs closing, t.Genuine peer ∧
        events = t.announces peer :: (controls msgs ++ closing) ∧
        (closing = [] ∨ ∃ reason, closing = [.Closed reason]) := by
  unfold Told at h
  split at h
  · exact .inl h
  · obtain ⟨peer, msgs, hpeer, rfl⟩ := h
    exact .inr (.inr ⟨peer, msgs, [], hpeer, by rw [List.append_nil], .inl rfl⟩)
  · rcases h with ⟨b, rfl⟩ | ⟨peer, msgs, reason, hpeer, rfl⟩ | ⟨hoff, _⟩
    · exact .inr (.inl ⟨b, rfl⟩)
    · exact .inr (.inr ⟨peer, msgs, _, hpeer, rfl, .inr ⟨reason, rfl⟩⟩)
    · rw [hengine] at hoff
      cases hoff

/-- A session reports under its own connection id. -/
theorem Told.about {events : List SessionEvent} (h : t.Told events) (hengine : t.engine = true)
    {event : SessionEvent} (hmem : event ∈ events) :
    (event.event t.conn_id).about = some t.conn_id := by
  cases event with
  | Established est =>
      rcases h.word hengine with rfl | ⟨b, rfl⟩ | ⟨peer, msgs, closing, _, rfl, hclosing⟩
      · exact absurd hmem List.not_mem_nil
      · cases List.mem_singleton.1 hmem
      · rcases List.mem_cons.1 hmem with he | hmem
        · obtain rfl := SessionEvent.Established.inj he
          rfl
        · rcases List.mem_append.1 hmem with hmem | hmem
          · obtain ⟨_, _, he⟩ := List.mem_map.1 hmem
            cases he
          · rcases hclosing with rfl | ⟨reason, rfl⟩
            · exact absurd hmem List.not_mem_nil
            · cases List.mem_singleton.1 hmem
  | Control msg => rfl
  | Closed reason => rfl
  | HandshakeFailed incompatible => rfl

omit [Crypto] in
/-- Only the last report says that the session is closed. -/
theorem controls_split {msgs : List ControlMsg} {closing before after : List SessionEvent}
    {event : SessionEvent} (hclosing : closing = [] ∨ ∃ reason, closing = [.Closed reason])
    (h : controls msgs ++ closing = before ++ event :: after) :
    (∀ reason, .Closed reason ∉ before) ∧
      ((∃ msg, event = .Control msg) ∨ ∃ reason, event = .Closed reason) := by
  have hcontrol {e : SessionEvent} (he : e ∈ controls msgs) : ∃ msg, e = .Control msg := by
    obtain ⟨msg, _, rfl⟩ := List.mem_map.1 he
    exact ⟨msg, rfl⟩
  constructor
  · intro reason hmem
    have hbefore : before <+: controls msgs := by
      rcases List.append_eq_append_iff.1 h with ⟨more, hb, hc⟩ | ⟨more, hb, hc⟩
      · -- the last report comes with `event`, or after it
        rcases hclosing with rfl | ⟨r, rfl⟩
        · exact absurd hc.symm (List.append_ne_nil_of_right_ne_nil _ (List.cons_ne_nil _ _))
        · rcases List.eq_nil_or_concat more with rfl | ⟨_, _, rfl⟩
          · rw [hb, List.append_nil]
          · have hlength := congrArg List.length hc
            simp at hlength
            omega
      · exact ⟨more, hb.symm⟩
    obtain ⟨msg, hmsg⟩ := hcontrol (hbefore.subset hmem)
    cases hmsg
  · have hmem : event ∈ controls msgs ++ closing := by
      rw [h]
      exact List.mem_append_right _ List.mem_cons_self
    rcases List.mem_append.1 hmem with hmem | hmem
    · exact .inl (hcontrol hmem)
    · rcases hclosing with rfl | ⟨reason, rfl⟩
      · exact absurd hmem List.not_mem_nil
      · exact .inr ⟨reason, List.mem_singleton.1 hmem⟩

end SessionTask

/-! ## 3. What the engine knows of a session -/

/-- The engine has heard `told` of a session: nothing, and its call is outstanding; or that it is
established, and it is live until it is closed. -/
def World.Knows (w : World) (t : SessionTask) : List SessionEvent → Prop
  | [] => ∃ hello pair, Call.RunSession t.conn_id t.conn t.dialed hello pair ∈ w.calls
  | .Established _ :: rest => (∀ reason, .Closed reason ∉ rest) → t.conn_id ∈ w.live
  | _ => True

namespace World

variable {w : World} {i : Input} {t : SessionTask} {told : List SessionEvent}

/-- The calls that an event leaves waiting. -/
theorem mem_calls_step {call : Call} (hmem : call ∈ w.calls)
    (hnot : call.reports i.event = false) : call ∈ (w.step i).calls := by
  refine List.mem_append_left _ ((List.mem_eraseP_of_neg ?_).2 hmem)
  rw [hnot]
  exact Bool.false_ne_true

omit [Crypto] in
/-- Only a session's own event ends its call. -/
theorem session_not_reported {event : Event} {conn_id : Nat} (h : event.about ≠ some conn_id)
    (conn : SecureConnection) (dialed : Bool) (hello : Hello) (pair : Option PairRequest) :
    (Call.RunSession conn_id conn dialed hello pair).reports event = false := by
  unfold Call.reports
  split
  · next he =>
      cases he
  · next he =>
      cases he
  · next est he =>
      obtain rfl := (Call.RunSession.inj he).1
      simp only [Bool.and_eq_false_iff, beq_eq_false_iff_ne]
      exact .inl (.inl fun hid => h (congrArg some hid))
  · next he =>
      obtain rfl := (Call.RunSession.inj he).1
      rw [beq_eq_false_iff_ne]
      exact fun hid => h (congrArg some hid)
  · rfl

/-- Events of others change nothing for a session. -/
theorem Knows.step (h : w.Knows t told) (habout : i.event.about ≠ some t.conn_id) :
    (w.step i).Knows t told := by
  cases told with
  | nil =>
      obtain ⟨hello, pair, hmem⟩ := h
      exact ⟨hello, pair, mem_calls_step hmem (session_not_reported habout _ _ _ _)⟩
  | cons first rest =>
      cases first with
      | Established est =>
          intro hopen
          have hlive := h hopen
          unfold World.step
          dsimp only
          split
          · exact List.mem_cons_of_mem _ hlive
          · next conn_id reason he =>
              rw [he] at habout
              refine List.mem_filter.2 ⟨hlive, decide_eq_true fun hid => habout ?_⟩
              exact congrArg some hid.symm
          · exact hlive
      | _ => trivial

omit [Crypto] in
theorem Knows.of_same {t' : SessionTask} (h : w.Knows t told) (hsame : t.Same t') :
    w.Knows t' told := by
  unfold Knows at h ⊢
  rw [hsame.conn_id, hsame.conn, hsame.dialed]
  exact h

/-- The next report of a session is one the engine is ready for, and it knows the session after
it as well. -/
theorem Knows.deliver (h : w.Knows t told) (Known : PublicKey → Prop) (env : Env)
    {event : SessionEvent} {rest : List SessionEvent} (htold : t.Told (told ++ event :: rest))
    (hengine : t.engine = true) :
    w.enabled Known ⟨env, event.event t.conn_id⟩ ∧
      (w.step ⟨env, event.event t.conn_id⟩).Knows t (told ++ [event]) := by
  have hword := htold.word hengine
  rcases hword with hnone | ⟨b, hfailed⟩ | ⟨peer, msgs, closing, hpeer, hword, hclosing⟩
  · exact absurd hnone (List.append_ne_nil_of_right_ne_nil _ (List.cons_ne_nil _ _))
  · cases told with
    | nil =>
        obtain ⟨hello, pair, hmem⟩ := h
        obtain rfl := (List.cons.inj hfailed).1
        exact ⟨⟨_, hmem, beq_self_eq_true _⟩, trivial⟩
    | cons first told => simp at hfailed
  · cases told with
    | nil =>
        obtain ⟨hello, pair, hmem⟩ := h
        obtain rfl := (List.cons.inj hword).1
        refine ⟨⟨⟨_, hmem, ?_⟩, ?_⟩, fun _ => List.mem_cons_self⟩
        · simp [Call.reports, SessionEvent.event, SessionTask.announces]
        · have hid : peer.hello.device_id = t.conn.peer_public_key.device_id := by
            rw [PeerHello.hello, hpeer.claimed]
            rfl
          exact hid
    | cons first told =>
        obtain ⟨rfl, htail⟩ := List.cons.inj hword
        obtain ⟨hopen, hevent⟩ := SessionTask.controls_split hclosing htail.symm
        have hlive : t.conn_id ∈ w.live := h hopen
        rcases hevent with ⟨msg, rfl⟩ | ⟨reason, rfl⟩
        · exact ⟨hlive, fun _ => hlive⟩
        · refine ⟨hlive, fun hnot => absurd ?_ (hnot reason)⟩
          exact List.mem_append_right _ (List.mem_singleton_self _)

end World

/-! ## 4. Every session of a host -/

namespace Host

/-- What a session has reported and the engine has not read. -/
def pending (h : Host) (conn_id : Nat) : List SessionEvent :=
  (h.events.filter fun e => e.1 = conn_id).map Prod.snd

/-- The engine knows each session, as far as it has read what the session reported. -/
structure Tracked (h : Host) : Prop where
  ids : ∀ conn_id t, h.sessions.get conn_id = some t →
    conn_id < h.world.actor.next_conn_id ∧
      ∀ pinned pair target, Call.Dial conn_id pinned pair target ∉ h.world.calls
  sources : ∀ e ∈ h.events, ∃ t, h.sessions.get e.1 = some t
  running : ∀ conn_id t, h.sessions.get conn_id = some t →
    t.conn_id = conn_id ∧ t.engine = true ∧ t.Checked
  known : ∀ conn_id t, h.sessions.get conn_id = some t →
    ∃ told, t.Told (told ++ h.pending conn_id) ∧ h.world.Knows t told

end Host

section Opening

variable {sessions : Table Nat SessionTask} {calls : List Call}

omit [Crypto] in
/-- A task is one that was there, or one that a call has just started. -/
theorem get_open_sessions {conn_id : Nat} {t : SessionTask}
    (h : (open_sessions sessions calls).get conn_id = some t) :
    sessions.get conn_id = some t ∨ ∃ conn dialed hello pair,
      Call.RunSession conn_id conn dialed hello pair ∈ calls ∧
        t = .start conn_id conn dialed (hello.announced LOCAL_VERSIONS) pair LOCAL_VERSIONS := by
  unfold open_sessions at h
  induction calls generalizing sessions with
  | nil => exact .inl h
  | cons call calls ih =>
      rw [List.foldl_cons] at h
      rcases ih h with hold | ⟨conn, dialed, hello, pair, hmem, ht⟩
      · cases call with
        | Dial => exact .inl hold
        | RunSession c conn dialed hello pair =>
            dsimp only at hold
            rw [Table.get_insert] at hold
            split at hold
            · next hc =>
                obtain rfl := Option.some_inj.1 hold
                subst hc
                exact .inr ⟨conn, dialed, hello, pair, List.mem_cons_self, rfl⟩
            · exact .inl hold
      · exact .inr ⟨conn, dialed, hello, pair, List.mem_cons_of_mem _ hmem, ht⟩

omit [Crypto] in
theorem open_sessions_keeps {conn_id : Nat} {t : SessionTask}
    (h : sessions.get conn_id = some t) :
    ∃ t, (open_sessions sessions calls).get conn_id = some t := by
  unfold open_sessions
  induction calls generalizing sessions t with
  | nil => exact ⟨t, h⟩
  | cons call calls ih =>
      rw [List.foldl_cons]
      cases call with
      | Dial => exact ih h
      | RunSession c conn dialed hello pair =>
          by_cases hc : conn_id = c
          · refine ih (t := .start c conn dialed (hello.announced LOCAL_VERSIONS) pair
              LOCAL_VERSIONS) ?_
            rw [Table.get_insert, if_pos hc]
          · refine ih (t := t) ?_
            rw [Table.get_insert, if_neg hc]
            exact h

end Opening

/-! ## 5. A step of a host -/

namespace World.Sound

variable {Known : PublicKey → Prop} {w : World} {i : Input}

theorem step_fresh (h : w.Sound Known) (he : w.enabled Known i) :
    (w.actor.step i).Fresh i.event w.actor.next_conn_id := by
  refine (h.moves i).invariant ?_ (met_fresh w i)
  exact fun a b hmove hf => hmove.fresh (h.booked.dialed_lt he) hf

/-- A connection that has its session gets no other one. -/
theorem old_session (h : w.Sound Known) (he : w.enabled Known i) {conn_id : Nat}
    (hlt : conn_id < w.actor.next_conn_id)
    (hdial : ∀ pinned pair target, Call.Dial conn_id pinned pair target ∉ w.calls) :
    (conn_id < (w.step i).actor.next_conn_id ∧
      ∀ pinned pair target, Call.Dial conn_id pinned pair target ∉ (w.step i).calls) ∧
    ∀ conn dialed hello pair,
      Call.RunSession conn_id conn dialed hello pair ∉ (w.step i).actor.calls := by
  have hfresh := h.step_fresh he
  refine ⟨⟨hlt.trans_le hfresh.le, fun pinned pair target hmem => ?_⟩,
    fun conn dialed hello pair hmem => ?_⟩
  · rcases List.mem_append.1 hmem with hold | hnew
    · exact hdial _ _ _ (List.mem_of_mem_eraseP hold)
    · exact absurd hlt (Nat.not_lt.2 (hfresh.dials _ _ _ _ hnew))
  · rcases hfresh.calls _ hmem with hb | ⟨c, p, hev⟩
    · exact absurd hlt (Nat.not_lt.2 hb.1)
    · obtain ⟨_, pinned, target, hwaits, _⟩ := he.dialed hev
      exact hdial _ _ _ hwaits

/-- A call for a session is the only call on its connection. -/
theorem new_session (h : w.Sound Known) (he : w.enabled Known i) {conn_id : Nat}
    {conn : SecureConnection} {dialed : Bool} {hello : Hello} {pair : Option PairRequest}
    (hmem : Call.RunSession conn_id conn dialed hello pair ∈ (w.step i).actor.calls) :
    conn_id < (w.step i).actor.next_conn_id ∧
      ∀ pinned pair target, Call.Dial conn_id pinned pair target ∉ (w.step i).calls := by
  have hfresh := h.step_fresh he
  have hbooked := (h.step he).booked
  have hcall : Call.RunSession conn_id conn dialed hello pair ∈ (w.step i).calls :=
    List.mem_append_right _ hmem
  refine ⟨hbooked.calls _ hcall, fun pinned pair' target hdial => ?_⟩
  have heq := List.inj_on_of_nodup_map hbooked.nodup hcall hdial rfl
  cases heq

end World.Sound

namespace Host

variable {Known : PublicKey → Prop} {h : Host} {i : Input}

omit [Crypto] in
theorem pending_eq_nil {conn_id : Nat} (hnone : ∀ e ∈ h.events, e.1 ≠ conn_id) :
    h.pending conn_id = [] := by
  unfold pending
  rw [List.map_eq_nil_iff, List.filter_eq_nil_iff]
  exact fun e he => by simpa using hnone e he

/-- The engine has handled an event, after which it knows its sessions. -/
theorem handle_tracked (hsound : h.world.Sound Known) (he : h.world.enabled Known i)
    (hids : ∀ conn_id t, h.sessions.get conn_id = some t →
      conn_id < h.world.actor.next_conn_id ∧
        ∀ pinned pair target, Call.Dial conn_id pinned pair target ∉ h.world.calls)
    (hsources : ∀ e ∈ h.events, ∃ t, h.sessions.get e.1 = some t)
    (hrunning : ∀ conn_id t, h.sessions.get conn_id = some t →
      t.conn_id = conn_id ∧ t.engine = true ∧ t.Checked)
    (hknown : ∀ conn_id t, h.sessions.get conn_id = some t →
      ∃ told, t.Told (told ++ h.pending conn_id) ∧ (h.world.step i).Knows t told) :
    (h.handle i).Tracked where
  ids conn_id t ht := by
    rcases get_open_sessions ht with hold | ⟨conn, dialed, hello, pair, hmem, _⟩
    · obtain ⟨hlt, hdial⟩ := hids conn_id t hold
      exact (hsound.old_session he hlt hdial).1
    · exact hsound.new_session he hmem
  sources e hmem := by
    obtain ⟨t, ht⟩ := hsources e hmem
    exact open_sessions_keeps ht
  running conn_id t ht := by
    rcases get_open_sessions ht with hold | ⟨conn, dialed, hello, pair, _, rfl⟩
    · exact hrunning conn_id t hold
    · exact ⟨rfl, rfl, SessionTask.checked_of_phase fun _ => SessionPhase.noConfusion⟩
  known conn_id t ht := by
    rcases get_open_sessions ht with hold | ⟨conn, dialed, hello, pair, hmem, rfl⟩
    · exact hknown conn_id t hold
    · have hnone : (h.handle i).pending conn_id = [] := by
        refine pending_eq_nil fun e hmem' heq => ?_
        obtain ⟨t, ht⟩ := hsources e hmem'
        obtain ⟨hlt, hdial⟩ := hids e.1 t ht
        exact (hsound.old_session he hlt hdial).2 _ _ _ _ (heq ▸ hmem)
      refine ⟨[], ?_, hello, pair, List.mem_append_right _ hmem⟩
      rw [hnone]
      rfl

namespace Tracked

theorem engine_step (ht : h.Tracked) (hsound : h.world.Sound Known)
    (habout : i.event.about = none) (he : h.world.enabled Known i) : (h.handle i).Tracked := by
  refine handle_tracked hsound he ht.ids ht.sources ht.running fun conn_id t hget => ?_
  obtain ⟨told, htold, hknows⟩ := ht.known conn_id t hget
  exact ⟨told, htold, hknows.step (by simp [habout])⟩

omit [Crypto] in
theorem pending_cons {world : World} {sessions : Table Nat SessionTask} (e : Nat × SessionEvent)
    (rest : List (Nat × SessionEvent)) (conn_id : Nat) :
    Host.pending ⟨world, sessions, e :: rest⟩ conn_id =
      if e.1 = conn_id then e.2 :: Host.pending ⟨world, sessions, rest⟩ conn_id
      else Host.pending ⟨world, sessions, rest⟩ conn_id := by
  unfold pending
  split
  · next he => simp [he]
  · next he => simp [he]

/-- The engine reads the oldest report. -/
theorem deliver {world : World} {sessions : Table Nat SessionTask} {conn_id : Nat}
    {event : SessionEvent} {rest : List (Nat × SessionEvent)}
    (ht : Tracked ⟨world, sessions, (conn_id, event) :: rest⟩) (hsound : world.Sound Known)
    (env : Env) :
    world.enabled Known ⟨env, event.event conn_id⟩ ∧
      (Host.handle ⟨world, sessions, rest⟩ ⟨env, event.event conn_id⟩).Tracked := by
  obtain ⟨t₀, ht₀⟩ := ht.sources (conn_id, event) List.mem_cons_self
  obtain ⟨hconn, hengine, _⟩ := ht.running conn_id t₀ ht₀
  obtain ⟨told₀, htold₀, hknows₀⟩ := ht.known conn_id t₀ ht₀
  rw [pending_cons, if_pos rfl] at htold₀
  have hdeliver := hknows₀.deliver Known env htold₀ hengine
  rw [hconn] at hdeliver
  refine ⟨hdeliver.1, handle_tracked hsound hdeliver.1 ht.ids
    (fun e hmem => ht.sources e (List.mem_cons_of_mem _ hmem)) ht.running fun c t hget => ?_⟩
  by_cases hc : conn_id = c
  · subst hc
    obtain rfl := Option.some_inj.1 (ht₀.symm.trans hget)
    refine ⟨told₀ ++ [event], ?_, hdeliver.2⟩
    rw [List.append_assoc]
    exact htold₀
  · obtain ⟨told, htold, hknows⟩ := ht.known c t hget
    rw [pending_cons, if_neg hc] at htold
    refine ⟨told, htold, hknows.step ?_⟩
    obtain ⟨hown, _, _⟩ := ht.running c t hget
    -- the event is about the connection that reported it
    have habout : (event.event conn_id).about = some conn_id := by
      have hmem : event ∈ told₀ ++ event :: Host.pending ⟨world, sessions, rest⟩ conn_id :=
        List.mem_append_right _ List.mem_cons_self
      exact hconn ▸ htold₀.about hengine hmem
    rw [habout, hown]
    exact fun heq => hc (Option.some_inj.1 heq)

/-- A session takes a step of its own. -/
theorem session_step (ht : h.Tracked) {conn_id : Nat} {t : SessionTask} {i : SessionInput}
    (hget : h.sessions.get conn_id = some t) (hact : i.act ≠ .EngineStopped)
    (hwaits : t.waits i.act = true) : (h.step (.Session conn_id i)).Tracked := by
  obtain ⟨hconn, hengine, hchecked⟩ := ht.running conn_id t hget
  have hsame := t.step_same i
  have hstep : h.step (.Session conn_id i) =
      { h with
        sessions := h.sessions.insert conn_id (t.step i).1
        events := h.events ++ (reports (t.step i).2).map fun event => (conn_id, event) } := by
    simp only [Host.step, hget]
  -- a task is another one, or this one after its step
  have hcases {c : Nat} {t' : SessionTask}
      (ht' : (h.sessions.insert conn_id (t.step i).1).get c = some t') :
      (c = conn_id ∧ t' = (t.step i).1) ∨ (c ≠ conn_id ∧ h.sessions.get c = some t') := by
    rw [Table.get_insert] at ht'
    split at ht'
    · next hc => exact .inl ⟨hc, (Option.some_inj.1 ht').symm⟩
    · next hc => exact .inr ⟨hc, ht'⟩
  have hpending (c : Nat) :
      (Host.pending ⟨h.world, h.sessions.insert conn_id (t.step i).1,
        h.events ++ (reports (t.step i).2).map fun event => (conn_id, event)⟩ c) =
      h.pending c ++ if c = conn_id then reports (t.step i).2 else [] := by
    unfold pending
    rw [List.filter_append, List.map_append]
    congr 1
    split
    · next hc =>
        subst hc
        simp [List.filter_map, Function.comp_def]
    · next hc =>
        have hne : ¬ conn_id = c := fun he => hc he.symm
        simp [List.filter_map, Function.comp_def, hne]
  rw [hstep]
  refine ⟨fun c t' ht' => ?_, fun e hmem => ?_, fun c t' ht' => ?_, fun c t' ht' => ?_⟩
  · rcases hcases ht' with ⟨rfl, _⟩ | ⟨_, hold⟩
    · exact ht.ids c t hget
    · exact ht.ids c t' hold
  · have hkeeps {c : Nat} (hc : ∃ t, h.sessions.get c = some t) :
        ∃ t', (h.sessions.insert conn_id (t.step i).1).get c = some t' := by
      obtain ⟨t', ht'⟩ := hc
      rw [Table.get_insert]
      split
      · exact ⟨_, rfl⟩
      · exact ⟨t', ht'⟩
    rcases List.mem_append.1 hmem with hmem | hmem
    · exact hkeeps (ht.sources e hmem)
    · obtain ⟨_, _, rfl⟩ := List.mem_map.1 hmem
      exact hkeeps ⟨t, hget⟩
  · rcases hcases ht' with ⟨rfl, rfl⟩ | ⟨_, hold⟩
    · exact ⟨hsame.conn_id.trans hconn, (t.step_kept hact).listens.trans hengine,
        t.step_checked hchecked i⟩
    · exact ht.running c t' hold
  · rw [hpending]
    rcases hcases ht' with ⟨rfl, rfl⟩ | ⟨hc, hold⟩
    · obtain ⟨told, htold, hknows⟩ := ht.known c t hget
      have hgoes := htold.goes hsame (t.step_goes hwaits hchecked)
      rw [List.append_assoc] at hgoes
      rw [if_pos rfl]
      exact ⟨told, hgoes, hknows.of_same hsame⟩
    · rw [if_neg hc, List.append_nil]
      exact ht.known c t' hold

end Tracked

end Host

/-! ## 6. Runs -/

theorem host_starts {Known : PublicKey → Prop} {h : Host} (hinit : (host Known).init h) :
    (engine Known).init h.world ∧ h.Tracked := by
  obtain ⟨w, hw, rfl⟩ := hinit
  have hnone {c : Nat} {t : SessionTask} (ht : (∅ : Table Nat SessionTask).get c = some t) :
      False := by
    rw [Table.get_empty] at ht
    cases ht
  exact ⟨hw, fun _ _ ht => (hnone ht).elim, fun _ hmem => absurd hmem List.not_mem_nil,
    fun _ _ ht => (hnone ht).elim, fun _ _ ht => (hnone ht).elim⟩

/-- **Refinement.** Each run of the engine among its session tasks is a run of the engine among
sessions that keep to what `engine` assumes of them, and at its end the engine knows every session
as far as it has read what the session reported. -/
theorem host_refines {Known : PublicKey → Prop} {tr : List (Host × HostEvent)} {h : Host}
    (hr : (host Known).Run tr h) :
    (engine Known).Run (tr.filterMap engine_sees) h.world ∧ h.Tracked := by
  induction hr with
  | start hinit =>
      obtain ⟨hw, ht⟩ := host_starts hinit
      exact ⟨.start hw, ht⟩
  | @next tr h e hr he ih =>
      obtain ⟨hrun, ht⟩ := ih
      have hsound := run_sound hrun
      rw [List.filterMap_append]
      cases e with
      | Engine i =>
          obtain ⟨habout, hworld⟩ := he
          exact ⟨hrun.next hworld, ht.engine_step hsound habout hworld⟩
      | Session conn_id i =>
          obtain ⟨hact, t, hget, hwaits⟩ := he
          have hworld : ((host Known).step h (.Session conn_id i)).world = h.world := by
            simp only [host, Host.step, hget]
          rw [hworld, List.filterMap_cons_none rfl, List.filterMap_nil, List.append_nil]
          exact ⟨hrun, ht.session_step hget hact hwaits⟩
      | Deliver env =>
          obtain ⟨world, sessions, events⟩ := h
          cases events with
          | nil => exact absurd rfl he
          | cons e rest =>
              obtain ⟨hworld, htracked⟩ := ht.deliver hsound env
              exact ⟨hrun.next hworld, htracked⟩

end

/-! ## 7. A host -/

namespace Sample

def host_start : Host := ⟨start .default, ∅, []⟩

/-- A peer connects and says hello, and the engine reads that it has. -/
def host_events : List HostEvent :=
  [.Engine ⟨env, .Incoming (conn peer_key)⟩, .Session 1 ⟨0, .Opened true⟩,
    .Session 1 ⟨1, .Received (some (.Hello ((hello peer).announced LOCAL_VERSIONS)))⟩,
    .Session 1 ⟨2, .Sent true⟩, .Deliver env]

theorem host_run :
    (host Known).Run ((host Known).trace host_start host_events)
      ((host Known).exec host_start host_events) := by
  have hinit : (host Known).init host_start := ⟨_, start_init .default, rfl⟩
  refine Machine.run_of_admits hinit ?_
  refine ⟨⟨rfl, .inl rfl⟩, ⟨SessionAct.noConfusion, _, rfl, rfl⟩,
    ⟨SessionAct.noConfusion, _, rfl, rfl⟩, ⟨SessionAct.noConfusion, _, rfl, rfl⟩, ?_, trivial⟩
  exact List.ne_nil_of_length_pos (by decide +kernel)

end Sample

open Sample in
/-- The engine has the session of its task. -/
theorem host_refines_sample :
    (engine Known).Run (((host Known).trace host_start host_events).filterMap engine_sees)
        ((host Known).exec host_start host_events).world ∧
      ((host Known).exec host_start host_events).world.actor.conn_index.get 1 = some peer :=
  ⟨(host_refines host_run).1, by decide +kernel⟩

end SoundPush
