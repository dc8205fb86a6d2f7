/-
`Accounts` -- every event is a sequence of deeds.

The handlers of network tests, sessions, pairings, messages, timers and commands, in
the order of the model. The last theorem joins them: whatever the event, the books
change by deeds, and the callers these take on are exactly its own.

How to read it. `s₀` is the state that the event met, `event` the event, and `s` the state a
handler finds, which another handler of the same event may have changed before it. A lemma ending
in `_books` says that a function leaves the books alone or what it does to them; one ending in
`_deeds` gives the deeds. Where a deed names its event (the start of a test, its measurement, its
report, the opening of a session), the lemma speaks of that event alone and of the state that it
met.

A handler of many steps is taken apart by generalising the state after each step and keeping only
what is known of its books, so that the next step starts from a variable. The order of the steps is
the order of the source, and the chain of deeds is read from top to bottom.
-/
import SoundPush.Engine.Bookkeeping

set_option autoImplicit false

namespace SoundPush

namespace Actor

variable [Crypto]

/-! ## 1. Network tests

A test holds its callers until it ends. Everything that ends one goes through `finish_network_test`,
so that the deed `finish` is proved once; what differs is which events may bring a report. -/

section
variable (env : Env) (s₀ : Actor) (event : Event) (s : Actor)

omit [Crypto] in
/-- The callers of a test are told, in the order they asked, by induction on them. -/
theorem answer_all_books (replies : List Reply) (result : Except EngineError Answer) :
    (replies.foldl (fun s r => s.answer r result) s).books =
      s.books.tell (replies.flatMap fun r => r.answered result) := by
  induction replies generalizing s with
  | nil => exact (s.books.tell_nil).symm
  | cons r replies ih => rw [List.foldl_cons, ih, answer_books, Books.tell_tell, List.flatMap_cons]

omit [Crypto] in
/-- A test ends: its callers are answered, and the session's probes with it. -/
theorem finish_network_test_books {peer : DeviceId} {test : NetTest}
    (result : Except EngineError Nat) (h : s.net_tests.get peer = some test) :
    ∃ status, status ≠ .Running ∧ (s.finish_network_test peer result).books =
      { s.books with
        tests := s.net_tests.insert peer
          { test with phase := .Finished, replies := [], status } }.tell
        ((test.replies.flatMap fun r : Reply => r.answered (result.map Answer.Report)) ++
          (s.books.conn peer).toList.map fun conn_id => Output.ProbeSink conn_id false) := by
  unfold finish_network_test
  rw [h]
  dsimp only
  -- The abort of the probe task is emitted only for a running test; the books do not hold it.
  generalize hs : (if test.phase = .Running then s.emit (.AbortTest test.test_id) else s) = s₁
  have hb : s₁.books = s.books := by
    rw [← hs]
    split
    · exact s.emit_unbooked rfl
    · rfl
  have hs₁ : s₁.sessions = s.sessions := by
    rw [← hs]
    split <;> rfl
  have hanswer := s₁.answer_all_books test.replies (result.map Answer.Report)
  have hsessions :
      (test.replies.foldl (fun s r => s.answer r (result.map Answer.Report)) s₁).sessions =
      s₁.sessions := congrArg Tables.sessions (s₁.answer_all_tables test.replies _)
  generalize test.replies.foldl _ s₁ = s₂ at hanswer hsessions ⊢
  -- Whatever the result, the test that is left is finished, has no caller, and is not running.
  generalize hend : NetTest.mk test.test_id .Finished [] _ = new
  obtain ⟨status, hstatus, rfl⟩ : ∃ status, status ≠ .Running ∧
      new = { test with phase := .Finished, replies := [], status } := by
    refine ⟨_, ?_, hend.symm⟩
    split
    · exact nofun
    · split <;> exact nofun
  clear hend
  refine ⟨status, hstatus, ?_⟩
  have htests : s₂.net_tests = s.net_tests := by
    rw [show s₂.net_tests = s₂.books.tests from rfl, hanswer, hb]
    rfl
  have hbooks : (s₂.set_net_tests (s₂.net_tests.insert peer
      { test with phase := .Finished, replies := [], status })).books =
      { s.books with
        tests :=
          s.net_tests.insert peer { test with phase := .Finished, replies := [], status } }.tell
        (test.replies.flatMap fun r : Reply => r.answered (result.map Answer.Report)) := by
    rw [set_net_tests_books, hanswer, hb, htests]
    rfl
  have hget (tests : Table DeviceId NetTest) :
      (s₂.set_net_tests tests).sessions.get peer = s.sessions.get peer := by
    change s₂.sessions.get peer = _
    rw [hsessions, hs₁]
  replace hget := hget (s₂.net_tests.insert peer
    { test with phase := .Finished, replies := [], status })
  generalize s₂.set_net_tests _ = s₃ at hbooks hget ⊢
  -- The session is told to stop echoing if there is one; the answers do not change that.
  cases hsession : s.sessions.get peer with
  | none =>
      rw [hget, hsession]
      dsimp only
      rw [hbooks]
      have hc : s.books.conn peer = none := congrArg (Option.map Session.conn_id) hsession
      rw [hc, Option.toList_none, List.map_nil, List.append_nil]
  | some session =>
      rw [hget, hsession]
      dsimp only
      rw [emit_unbooked _ rfl, emit_books, hbooks, Books.tell_tell]
      have hc : s.books.conn peer = some session.conn_id :=
        congrArg (Option.map Session.conn_id) hsession
      rw [hc]
      rfl

/-- A test that is there ends by its deed. Only the report of the measurement that runs may end
it well. -/
theorem finish_network_test_deeds {peer : DeviceId} {test : NetTest}
    {result : Except EngineError Nat} (h : s.net_tests.get peer = some test)
    (hr : ∀ report, result = .ok report → test.phase = .Running ∧ s.books = s₀.books ∧
      event = .NetTestFinished peer test.test_id report) :
    Deeds env s₀ event [] s.books (s.finish_network_test peer result).books := by
  obtain ⟨status, hstatus, hb⟩ := s.finish_network_test_books result h
  rw [hb]
  exact .of_deed (.test <| .finish peer test result status hstatus h hr)

/-- A running test is called off with an error; one that is over stays as it is. -/
theorem end_network_test_deeds (peer : DeviceId) (error : EngineError) :
    Deeds env s₀ event [] s.books (s.end_network_test peer error).books := by
  unfold end_network_test
  split
  · next test h => exact deeds_ite (finish_network_test_deeds env s₀ event s h nofun) (.refl _)
  · exact .refl _

omit [Crypto] in
/-- No test of the device runs once it was ended. -/
theorem end_network_test_ended (peer : DeviceId) (error : EngineError) {test : NetTest}
    (h : (s.end_network_test peer error).net_tests.get peer = some test) :
    test.status ≠ .Running := by
  unfold end_network_test at h
  split at h
  · next old hold =>
      split at h
      · obtain ⟨status, hstatus, hb⟩ := s.finish_network_test_books (.error error) hold
        have htests := congrArg Books.tests hb
        change (s.finish_network_test peer (.error error)).net_tests =
          s.net_tests.insert _ _ at htests
        rw [htests, Table.get_insert_self] at h
        obtain rfl := Option.some_inj.1 h
        exact hstatus
      · next hs =>
          obtain rfl := Option.some_inj.1 (hold.symm.trans h)
          exact hs
  · next hold => exact nomatch hold.symm.trans h

/-- A device is forgotten: its test is called off before its entry goes, so that no caller is
lost. -/
theorem forget_network_test_deeds (peer : DeviceId) :
    Deeds env s₀ event [] s.books (s.forget_network_test peer).books := by
  unfold forget_network_test
  dsimp only
  refine (end_network_test_deeds env s₀ event s peer .Revoked).tail
    (.test <| .forget peer fun test h => ?_)
  exact s.end_network_test_ended peer .Revoked h

/-- The command takes on its caller, by one of three deeds: an answer at once, a test that runs
already, or a new test. -/
theorem start_network_test_deeds (peer : DeviceId) (caller : Nat) :
    Deeds env s (.Command (.RunNetworkTest peer caller)) [caller] s.books
      (s.start_network_test env peer (.caller caller)).books := by
  have hanswer (e : EngineError) :
      Deeds env s (.Command (.RunNetworkTest peer caller)) [caller] s.books
        (s.answer (.caller caller) (.error e)).books := by
    rw [answer_books]
    exact .of_deed (.answer (.caller caller) (.error e) nofun nofun)
  unfold start_network_test
  split
  · exact hanswer _
  · next session hs =>
      have hc : s.books.conn peer = some session.conn_id :=
        congrArg (Option.map Session.conn_id) hs
      refine deeds_ite (hanswer _) ?_
      split
      · next test h =>
          obtain ⟨h, hrun⟩ := Option.filter_eq_some_iff.1 h
          exact .of_deed (.test <| .join peer caller test rfl rfl h (of_decide_eq_true hrun))
      · next h =>
          dsimp only
          rw [set_net_tests_books, emit_books]
          refine .of_deed
            (.test <| .start peer session.conn_id caller _ _ rfl rfl hc fun test ht hrun => ?_)
          have ht : s.net_tests.get peer = some test := ht
          rw [ht, Option.filter_some, if_pos (decide_eq_true hrun)] at h
          cases h

/-- The peer answered the request for a test. Only the answer to the test that waits counts; it
is called off if the peer refused, and measured otherwise. -/
theorem on_net_test_ready_deeds {conn_id : Nat} {peer : DeviceId} (ready : NetTestReady)
    (hn : s.conn_index.get conn_id = some peer) :
    Deeds env s (.Control conn_id (.NetTestReady ready)) [] s.books
      (s.on_net_test_ready peer ready).books := by
  unfold on_net_test_ready
  split
  · exact .refl _
  · next test h =>
      split
      · next deadline hp =>
          split
          · exact .refl _
          · next hi =>
              split
              · exact finish_network_test_deeds env s _ s h nofun
              · split
                · exact .refl _
                · next session hs =>
                    dsimp only
                    rw [set_net_tests_books, emit_books, emit_books, Books.tell_tell]
                    exact .of_deed
                      (.test <| .measure peer session.conn_id conn_id ready test deadline rfl rfl hn
                      (congrArg (Option.map Session.conn_id) hs) h hp (not_not.1 hi))
      · exact .refl _

/-- The report of a measurement, if it is that of the test that runs. -/
theorem on_net_test_finished_deeds (peer : DeviceId) (test_id : UInt32) (report : Nat) :
    Deeds env s (.NetTestFinished peer test_id report) [] s.books
      (s.on_net_test_finished peer test_id report).books := by
  unfold on_net_test_finished
  split
  · next test h =>
      split
      · next hrun =>
          refine finish_network_test_deeds env s _ s h fun n hn => ⟨hrun.2, rfl, ?_⟩
          rw [hrun.1, Except.ok.inj hn]
      · exact .refl _
  · exact .refl _

omit [Crypto] in
/-- A peer's own test arms the session here to echo, and owes nobody anything. -/
theorem on_net_test_start_books (peer : DeviceId) (start : NetTestStart) :
    (s.on_net_test_start env peer start).books = s.books := by
  unfold on_net_test_start
  split
  · rfl
  · dsimp only
    rw [emit_unbooked _ rfl, emit_unbooked _ rfl]

omit [Crypto] in
theorem on_net_test_stop_books (peer : DeviceId) (test_id : UInt32) :
    (s.on_net_test_stop env peer test_id).books = s.books := by
  unfold on_net_test_stop
  split
  · rfl
  · exact s.emit_unbooked rfl

/-- Tests whose time ran out are called off, one by one. -/
theorem tick_network_tests_deeds :
    Deeds env s₀ event [] s.books (s.tick_network_tests env).books := by
  unfold tick_network_tests
  dsimp only
  refine deeds_foldl (fun s e => ?_) _ s
  cases h : s.net_tests.get e.1 with
  | none =>
      unfold finish_network_test
      rw [h]
      exact .refl _
  | some test => exact finish_network_test_deeds env s₀ event s h nofun

end

/-! ## 2. Sessions

A session that ends takes its column out of the books, and the routes over it lose their sinks. A
session that begins finds no sink of its device left over: either there was no session before, or
the routes have been paused since. -/

section
variable (env : Env) (s₀ : Actor) (event : Event) (s : Actor)

omit [Crypto] in
@[simp] theorem close_books (conn_id : Nat) (reason : StopReason) :
    (s.close conn_id reason).books = s.books := s.emit_unbooked rfl

omit [Crypto] in
@[simp] theorem dial_books (pinned : Option DeviceId) (pair : Option PairRequest)
    (target : Option DeviceId) : (s.dial pinned pair target).1.books = s.books := by
  unfold dial
  dsimp only
  split <;> rfl

omit [Crypto] in
@[simp] theorem cancel_dial_books (id : DeviceId) : (s.cancel_dial id).books = s.books := by
  unfold cancel_dial
  dsimp only
  split
  · exact s.emit_unbooked rfl
  · rfl

omit [Crypto] in
@[simp] theorem forget_dial_books (id : DeviceId) : (s.forget_dial id).books = s.books :=
  s.cancel_dial_books id

omit [Crypto] in
/-- A dial and its backoff are owed to nobody. -/
theorem try_dial_trusted_books (id : DeviceId) : (s.try_dial_trusted env id).books = s.books := by
  unfold try_dial_trusted
  split
  · rfl
  · dsimp only
    split
    · rfl
    · split
      · rfl
      · split
        · rfl
        · exact dial_books _ _ _ _

omit [Crypto] in
theorem on_dial_failed_books (conn_id : Nat) (target : Option DeviceId) (error : EngineError) :
    (s.on_dial_failed env conn_id target error).books = s.books := by
  unfold on_dial_failed
  dsimp only
  split
  · rfl
  · exact error_notice_books env _ _

omit [Crypto] in
theorem on_handshake_failed_books (conn_id : Nat) (incompatible : Bool) :
    (s.on_handshake_failed env conn_id incompatible).books = s.books := by
  unfold on_handshake_failed
  dsimp only
  rw [apply_ite Actor.books, error_notice_books, ite_self]
  split <;> rfl

omit [Crypto] in
theorem pair_dial_books (pinned : Option DeviceId) (pair : PairRequest) (target : Option DeviceId)
    (qr : Bool) : (s.pair_dial pinned pair target qr).books = s.books :=
  s.dial_books pinned (some pair) target

/-- The dial that a scanned code starts; its caller is answered by the command itself. -/
theorem pair_with_qr_books (payload : Option QrPairingPayload) :
    (s.pair_with_qr payload).1.books = s.books := by
  unfold pair_with_qr
  split
  · rfl
  · split
    · rfl
    · exact s.pair_dial_books _ _ _ _

omit [Crypto] in
@[simp] theorem forget_speaker_mutes_books (id : DeviceId) :
    (s.forget_speaker_mutes id).books = s.books := by
  unfold forget_speaker_mutes
  dsimp only
  split
  · exact emit_unbooked _ rfl
  · rfl

omit [Crypto] in
/-- A drop that is counted gives a notice at most. -/
theorem record_reconnect_books (id : DeviceId) : (s.record_reconnect env id).books = s.books := by
  unfold record_reconnect
  dsimp only
  split
  · rfl
  · split
    · exact notice_books _ _
    · rfl

omit [Crypto] in
/-- Without a session, the books have no connection for its device. -/
theorem erase_session_books (id : DeviceId) :
    ({ s with sessions := s.sessions.erase id } : Actor).books = s.books.without id := by
  have hconn : (fun k => ((s.sessions.erase id).get k).map Session.conn_id) =
      fun k => if k = id then none else s.books.conn k := by
    funext k
    rw [Table.get_erase]
    split <;> rfl
  unfold Books.without
  rw [← hconn]
  rfl

omit [Crypto] in
/-- Nor when there was none to drop. -/
theorem drop_session_books (id : DeviceId) (reason : StopReason) :
    (s.drop_session id reason).books = s.books.without id := by
  unfold drop_session
  split
  · rw [close_books]
    exact s.erase_session_books id
  · next h =>
      unfold Books.without
      have hconn : (fun k => if k = id then none else s.books.conn k) = s.books.conn := by
        funext k
        split
        · next hk =>
            rw [hk]
            exact (congrArg (Option.map Session.conn_id) h).symm
        · rfl
      rw [hconn]

theorem drop_session_deeds (id : DeviceId) (reason : StopReason) :
    Deeds env s₀ event [] s.books (s.drop_session id reason).books := by
  rw [drop_session_books]
  exact .of_deed (.drop id)

/-- A device loses its routes and its test. -/
theorem retire_deeds (id : DeviceId) :
    Deeds env s₀ event [] s.books (s.retire env id).books := by
  unfold retire
  dsimp only
  have hremove : Deeds env s₀ event [] s.books (remove_routes_for env
      { s with flaps := s.flaps.erase id, stabilized := s.stabilized.erase id } id).books :=
    deeds_before (remove_routes_for_deeds env s₀ event _ id) rfl
  generalize remove_routes_for env _ id = s₁ at hremove ⊢
  have hforget := deeds_after hremove (s₁.forget_dial_books id)
  generalize s₁.forget_dial id = s₂ at hforget ⊢
  exact hforget.follow (deeds_before (end_network_test_deeds env s₀ event _ id .Revoked) rfl)

/-- And then its session. -/
theorem revoke_deeds (id : DeviceId) :
    Deeds env s₀ event [] s.books (s.revoke env id).books := by
  unfold revoke
  rw [forget_speaker_mutes_books]
  exact (retire_deeds env s₀ event s id).trans (drop_session_deeds env s₀ event _ id _)

/-- A session begins and its device's routes are asked for again. -/
theorem install_session_deeds {id : DeviceId} {est : Established}
    (hi : s₀.installs env event id est) (hc : s.books.conn id = none)
    (hr : s₀.books.conn id = none ∨ ∀ r ∈ s.routes, r.peer = id → r.receiver = none) :
    Deeds env s₀ event [] s.books (s.install_session env id est).books := by
  unfold install_session
  dsimp only
  refine Deeds.follow (.of_deed ?_) (resume_routes_deeds env s₀ event _ id)
  have hcancel := cancel_dial_books (s.remember_connection env id est) id
  generalize (s.remember_connection env id est).cancel_dial id = s₁ at hcancel ⊢
  generalize hs₂ : ({ s₁ with dials := _, conn_index := _ } : Actor) = s₂
  have hb : (s₂.issue_ticket env est).books = s.books := by
    unfold issue_ticket
    split
    · rw [emit_unbooked _ rfl, ← hs₂]
      exact hcancel
    · rw [← hs₂]
      exact hcancel
  generalize s₂.issue_ticket env est = s₃ at hb ⊢
  have hinstall :
      ({ s₃ with sessions := s₃.sessions.insert id (new_session env est) } : Actor).books =
      { s.books with conn := fun k => if k = id then some est.conn_id else s.books.conn k } := by
    rw [← hb]
    have hconn :
        (fun k => ((s₃.sessions.insert id (new_session env est)).get k).map Session.conn_id) =
        fun k => if k = id then some est.conn_id else s₃.books.conn k := by
      funext k
      rw [Table.get_insert]
      split <;> rfl
    unfold books at hconn ⊢
    rw [hconn]
  rw [hinstall]
  exact .install id est hi hc hr

omit [Crypto] in
/-- Routes that were cut off have no sink, by induction on the cutting. -/
theorem CutsOff_receiver {peer : DeviceId} {routes routes' : List Route} {out : List Output}
    (h : CutsOff peer routes routes' out) : ∀ r ∈ routes', r.peer = peer → r.receiver = none := by
  induction h with
  | nil => exact fun r hr => nomatch hr
  | skip hp _ ih =>
      intro r hr hrp
      rcases List.mem_cons.1 hr with rfl | hr
      · exact absurd hrp hp
      · exact ih r hr hrp
  | cut hp hcut _ ih =>
      intro r hr hrp
      rcases List.mem_cons.1 hr with rfl | hr
      · exact hcut.receiver
      · exact ih r hr hrp

omit [Crypto] in
/-- A device whose routes were paused plays nothing here. -/
theorem pause_routes_for_silent (id : DeviceId) (hc : s.books.conn id = none) :
    ∀ r ∈ (s.pause_routes_for env id).routes, r.peer = id → r.receiver = none := by
  unfold pause_routes_for
  dsimp only
  obtain ⟨out, _, hcut⟩ := s.pause_each_books env id hc s.routes
  intro r hr hp
  rw [show (Actor.update_keep_alive _).routes = _ from
    congrArg Tables.routes (update_keep_alive_tables _), set_routes_routes] at hr
  exact CutsOff_receiver hcut r (List.mem_filter.1 hr).1 hp

/-- A connection that takes the place of another: the old session is dropped, its routes cut off
and its test called off before the new one begins. -/
theorem promote_session_deeds {id : DeviceId} {est : Established}
    (hi : s₀.installs env event id est) (hb : s.books = s₀.books) :
    Deeds env s₀ event [] s.books (s.promote_session env id est).books := by
  unfold promote_session
  split
  · next h =>
      have hc : s.books.conn id = none := congrArg (Option.map Session.conn_id) h
      exact install_session_deeds env s₀ event s hi hc (.inl (hb ▸ hc))
  · split
    · rw [cancel_dial_books, close_books]
      exact .refl _
    · dsimp only
      -- The old session goes first. Each of the three calls is replaced by what it leaves: no
      -- session, then silent routes, then no running test.
      have hdrop := drop_session_deeds env s₀ event s id .Superseded
      have hc : (s.drop_session id .Superseded).books.conn id = none := by
        rw [drop_session_books]
        exact if_pos rfl
      generalize s.drop_session id .Superseded = s₁ at hdrop hc ⊢
      have hpause := pause_routes_for_deeds env s₀ event s₁ id hc
      have hsilent := s₁.pause_routes_for_silent env id hc
      have hsessions : (s₁.pause_routes_for env id).link = s₁.link :=
        (s₁.pause_routes_for_upkeep env id).link
      generalize s₁.pause_routes_for env id = s₂ at hpause hsilent hsessions ⊢
      have hend := end_network_test_deeds env s₀ event s₂ id .Unreachable
      have htables := s₂.end_network_test_tables id .Unreachable
      generalize s₂.end_network_test id .Unreachable = s₃ at hend htables ⊢
      refine ((hdrop.follow hpause).follow hend).follow
        (install_session_deeds env s₀ event s₃ hi ?_ (.inr ?_))
      · have hnone : s₁.sessions.get id = none := Option.map_eq_none_iff.1 hc
        rw [← link_eq_none, ← hsessions, link_eq_none] at hnone
        have : s₃.sessions.get id = none := by
          rw [show s₃.sessions = s₂.sessions from congrArg Tables.sessions htables]
          exact hnone
        exact congrArg (Option.map Session.conn_id) this
      · rw [show s₃.routes = s₂.routes from congrArg Tables.routes htables]
        exact hsilent

/-- What becomes of the routes when a session has ended, by the reason it ended for. -/
theorem after_close_deeds (id : DeviceId) (reason : StopReason) (hc : s.books.conn id = none) :
    Deeds env s₀ event [] s.books (s.after_close env id reason).books := by
  have hremove := remove_routes_for_deeds env s₀ event s id
  have hforget := deeds_after hremove ((s.remove_routes_for env id).forget_dial_books id)
  unfold after_close
  split
  · dsimp only
    rw [notice_books]
    exact hforget
  · dsimp only
    rw [notice_books]
    exact hforget
  · exact remove_routes_for_deeds env s₀ event s id
  · dsimp only
    have hpause := pause_routes_for_deeds env s₀ event s id hc
    generalize s.pause_routes_for env id = s₁ at hpause ⊢
    generalize hs₂ : (if reason = .Superseded then s₁ else s₁.record_reconnect env id) = s₂
    have hb : s₂.books = s₁.books := by
      rw [← hs₂, apply_ite Actor.books, record_reconnect_books, ite_self]
    exact deeds_ite (deeds_after hpause hb) (deeds_after hpause hb)

omit [Crypto] in
/-- A connection that closes in the middle of its pairing ends that with a notice. -/
theorem close_pairing_books (conn_id : Nat) (reason : StopReason) :
    (s.close_pairing env conn_id reason).books = s.books := by
  unfold close_pairing
  split
  · dsimp only
    split
    · exact error_notice_books env _ _
    · exact error_notice_books env _ _
    · rfl
  · rfl

/-- A connection closed. Only one that carried a session changes the books. -/
theorem on_closed_deeds (conn_id : Nat) (reason : StopReason) :
    Deeds env s₀ event [] s.books (s.on_closed env conn_id reason).books := by
  unfold on_closed
  dsimp only
  have hclose :=
    close_pairing_books env { s with unpaired := s.unpaired.erase conn_id } conn_id reason
  generalize close_pairing env _ conn_id reason = s₁ at hclose ⊢
  refine deeds_before ?_ hclose
  split
  · exact .refl _
  · next id _ =>
      refine deeds_ite (.refl _) ?_
      have herase := erase_session_books { s₁ with conn_index := s₁.conn_index.erase conn_id } id
      generalize ({ s₁ with conn_index := _, sessions := _ } : Actor) = s₂ at herase ⊢
      have hdrop : Deeds env s₀ event [] s₁.books (s₂.forget_speaker_mutes id).books := by
        rw [forget_speaker_mutes_books, herase]
        exact .of_deed (.drop id)
      have hc : (s₂.forget_speaker_mutes id).books.conn id = none := by
        rw [forget_speaker_mutes_books, herase]
        exact if_pos rfl
      generalize s₂.forget_speaker_mutes id = s₃ at hdrop hc ⊢
      have hend := end_network_test_deeds env s₀ event s₃ id .Unreachable
      have htables := s₃.end_network_test_tables id .Unreachable
      generalize s₃.end_network_test id .Unreachable = s₄ at hend htables ⊢
      refine (hdrop.follow hend).follow (after_close_deeds env s₀ event s₄ id reason ?_)
      have hsessions : s₄.sessions = s₃.sessions := congrArg Tables.sessions htables
      exact (congrArg (fun t : Table DeviceId Session => (t.get id).map Session.conn_id)
        hsessions).trans hc

end

/-! ## 3. Pairing

A pairing owes nothing until it becomes a session. So these lemmas are equations, except for the
events that may complete it. -/

section
variable (env : Env) (s₀ : Actor) (event : Event) (s : Actor)

omit [Crypto] in
/-- A pairing waits for the user; the one it replaces is closed. -/
theorem begin_pairing_books (id : DeviceId) (est : Established) (qr_scanner : Bool) :
    (s.begin_pairing env id est qr_scanner).books = s.books := by
  unfold begin_pairing
  split
  · rw [error_notice_books, close_books]
  · dsimp only
    split
    · exact s.close_books _ _
    · rfl

omit [Crypto] in
theorem reject_pairing_books (id : DeviceId) : (s.reject_pairing id).books = s.books := by
  unfold reject_pairing
  split
  · rfl
  · exact close_books _ _ _

omit [Crypto] in
/-- An unknown device: a pairing, a closed connection, or one that waits for the peer's request. -/
theorem admit_untrusted_books (id : DeviceId) (est : Established) (pair_dial : Option Bool) :
    (s.admit_untrusted env id est pair_dial).books = s.books := by
  unfold admit_untrusted
  split
  · split
    · exact s.begin_pairing_books env id est _
    · exact s.close_books _ _
  · dsimp only
    split
    · rw [apply_ite Actor.books, notice_books, ite_self]
      exact close_books _ _ _
    · rfl

/-- A connection that is paired becomes a session, if the trust store could be written. -/
theorem complete_pairing_deeds {id : DeviceId} (hb : s.books = s₀.books)
    (hc : ∀ p, s.pairings.get id = some p → s₀.completes env event id p) :
    Deeds env s₀ event [] s.books (s.complete_pairing env id).books := by
  unfold complete_pairing
  split
  · exact .refl _
  · next p hp =>
      dsimp only
      refine deeds_ite ?_ ?_
      · rw [error_notice_books]
        exact .refl _
      · refine deeds_before (promote_session_deeds env s₀ event _ (.inr ⟨p, hc p hp, rfl⟩) ?_) ?_
        · rw [notice_books]
          exact hb
        · exact notice_books _ _

/-- The user's word, which may be the last one needed. -/
theorem confirm_pairing_deeds (id : DeviceId) (accept : Bool) :
    Deeds env s (.Command (.ConfirmPairing id accept)) [] s.books
      (s.confirm_pairing env id accept).books := by
  unfold confirm_pairing
  split
  · exact .refl _
  · next p hp =>
      dsimp only
      have hb : ((s.set_pairings (s.pairings.insert id { p with local_confirmed := accept })).emit
          (.Send p.conn_id (.PairResult accept))).books = s.books := emit_unbooked _ rfl
      have hget : ((s.set_pairings (s.pairings.insert id { p with local_confirmed := accept })).emit
          (.Send p.conn_id (.PairResult accept))).pairings.get id =
          some { p with local_confirmed := accept } := Table.get_insert_self _ _ _
      generalize (s.set_pairings _).emit _ = t at hb hget ⊢
      refine deeds_before ?_ hb
      split
      · rw [reject_pairing_books]
        exact .refl _
      · next haccept =>
          obtain rfl : accept = true := by simpa using haccept
          split
          · next hpeer =>
              refine complete_pairing_deeds env s _ t hb fun q hq => ?_
              obtain rfl := Option.some_inj.1 (hget.symm.trans hq)
              exact ⟨rfl, rfl, p, hp, hpeer, rfl⟩
          · exact .refl _

/-- The peer's word, which may be the last one needed. -/
theorem on_pair_result_deeds {conn_id : Nat} {id : DeviceId} (accepted : Bool)
    (hu : s.unpaired.get conn_id = none) (hid : s.pairing_on conn_id = some id) :
    Deeds env s (.Control conn_id (.PairResult accepted)) [] s.books
      (s.on_pair_result env id accepted).books := by
  unfold on_pair_result
  split
  · exact .refl _
  · next p hp =>
      split
      · rw [error_notice_books, reject_pairing_books]
        exact .refl _
      · next haccepted =>
          obtain rfl : accepted = true := by simpa using haccepted
          dsimp only
          have hget :
              (s.set_pairings (s.pairings.insert id { p with peer_confirmed := true })).pairings.get
              id = some { p with peer_confirmed := true } := Table.get_insert_self _ _ _
          have hb :
              (s.set_pairings (s.pairings.insert id { p with peer_confirmed := true })).books =
              s.books := rfl
          -- The confirmation is noted before it is looked at whether the other one is there.
          generalize s.set_pairings _ = t at hb hget ⊢
          refine deeds_before ?_ hb
          split
          · next hflow =>
              have hsent : (if p.qr_scanner = true then t.emit (.Send p.conn_id (.PairResult true))
                  else t).books = t.books := by
                rw [apply_ite Actor.books, emit_unbooked _ rfl, ite_self]
              refine deeds_before (complete_pairing_deeds env s _ _ (hsent.trans hb) fun q hq => ?_)
                hsent
              have hq : t.pairings.get id = some q := by
                split at hq <;> exact hq
              obtain rfl := Option.some_inj.1 (hget.symm.trans hq)
              exact ⟨rfl, hu, hid, p, hp, hflow, rfl⟩
          · exact .refl _

/-- A request to pair, which a proof of the QR code completes at once. -/
theorem on_pair_request_deeds {conn_id : Nat} {est : Established} {since : Instant}
    (hu : s.unpaired.get conn_id = some (est, since)) (req : PairRequest) :
    Deeds env s (.Control conn_id (.PairRequest req)) [] s.books
      (on_pair_request env { s with unpaired := s.unpaired.erase conn_id } est req).books := by
  unfold on_pair_request
  split
  · next proof qr hproof hqr =>
      split
      · rw [close_books]
        exact .refl _
      · next hexpired =>
          split
          · rw [close_books]
            exact .refl _
          · next hverify =>
              have hexpired : qr.is_expired env.now_unix = false := Bool.not_eq_true _ ▸ hexpired
              have hverify :
                  verify_pairing_proof qr.secret (.of_public_key est.conn.peer_public_key)
                  s.identity.device_id proof = true := by simpa using hverify
              unfold admit_proven
              dsimp only
              -- A proof stands for both confirmations. The pairing that is completed is the one
              -- just begun, which exists only where the connection exports its keys.
              have hpairings : (begin_pairing env
                  { s with unpaired := s.unpaired.erase conn_id, qr := none }
                  est.conn.peer_public_key.device_id est false).pairings =
                  if est.conn.exporter then
                    s.pairings.insert est.conn.peer_public_key.device_id (new_pairing env est false)
                  else s.pairings := by rw [begin_pairing_tables]
              have hbegun := begin_pairing_books env
                { s with unpaired := s.unpaired.erase conn_id, qr := none }
                est.conn.peer_public_key.device_id est false
              generalize begin_pairing env _ est.conn.peer_public_key.device_id est false = t
                at hpairings hbegun ⊢
              refine deeds_before (complete_pairing_deeds env s _ _ ?_ fun p hp => ?_)
                ((emit_unbooked _ rfl).trans hbegun)
              · exact (emit_unbooked _ rfl).trans hbegun
              have hp : (t.pairings.modify est.conn.peer_public_key.device_id fun p =>
                  { p with local_confirmed := true, peer_confirmed := true }).get
                    est.conn.peer_public_key.device_id = some p := hp
              rw [Table.get_modify, if_pos rfl] at hp
              obtain ⟨q, hq, rfl⟩ := Option.map_eq_some_iff.1 hp
              refine ⟨est, since, proof, qr, hu, rfl, hproof, hqr, hexpired, hverify, q, ?_, rfl⟩
              rw [hpairings] at hq
              split at hq
              · next hexporter =>
                  rw [Table.get_insert_self] at hq
                  rw [if_pos hexporter]
                  exact (Option.some_inj.1 hq).symm
              · next hexporter =>
                  rw [if_neg hexporter]
                  exact hq
  · exact .of_eq (begin_pairing_books env _ _ _ _)
  · exact .of_eq (close_books _ _ _)

/-- A connection is up: promoted if its device is trusted, else admitted to pairing or closed. -/
theorem on_established_deeds (est : Established) :
    Deeds env s (.Established est) [] s.books (s.on_established env est).books := by
  unfold on_established
  dsimp only
  split
  · split
    · exact .of_eq (close_books _ _ _)
    · refine deeds_before (promote_session_deeds env s _ _ (.inl ⟨rfl, rfl⟩) ?_) ?_
      · unfold redeem_token
        split <;> rfl
      · unfold redeem_token
        split <;> rfl
  · exact .of_eq (admit_untrusted_books env _ _ _ _)

end

/-! ## 4. Messages, timers and commands

The rest of the engine. Volumes, mutes, reports and settings touch routes in ways nobody waits for;
what ends a route does so by the deeds of the module before. -/

section
variable (env : Env) (s₀ : Actor) (event : Event) (s : Actor)

/-- A peer turns the volume of what is played here, if it may. -/
theorem on_remote_volume_deeds (peer : DeviceId) (v : VolumeSet) :
    Deeds env s₀ event [] s.books (s.on_remote_volume peer v).books := by
  unfold on_remote_volume
  refine deeds_ite (.refl _) (deeds_tend (steady_modify_first fun r => ?_))
  exact ⟨rfl, rfl, rfl, rfl, rfl, rfl, rfl⟩

/-- A peer mutes a route or the speakers, if it may. -/
theorem on_remote_mute_deeds (peer : DeviceId) (m : MuteSet) :
    Deeds env s₀ event [] s.books (s.on_remote_mute env peer m).books := by
  unfold on_remote_mute
  refine deeds_ite (.refl _) (deeds_ite ?_ (deeds_tend (steady_modify_first fun r => ?_)))
  · dsimp only
    rw [apply_ite Actor.books, notice_books, ite_self]
    exact .of_eq (emit_unbooked _ rfl)
  · exact ⟨rfl, rfl, rfl, rfl, rfl, rfl, rfl⟩

omit [Crypto] in
/-- An encoder that follows the loss is nothing anyone waits for. -/
theorem adapt_bitrate_steady (r : Route) : r.Steady (adapt_bitrate r) := by
  unfold adapt_bitrate
  split
  · split
    · exact .refl r
    · split
      · exact ⟨rfl, rfl, rfl, rfl, rfl, rfl, rfl⟩
      · split
        · split <;> exact ⟨rfl, rfl, rfl, rfl, rfl, rfl, rfl⟩
        · exact .refl r
  · exact .refl r

omit [Crypto] in
theorem adapt_redundancy_steady (r : Route) : r.Steady (adapt_redundancy r) := by
  unfold adapt_redundancy
  split
  · split
    · exact ⟨rfl, rfl, rfl, rfl, rfl, rfl, rfl⟩
    · split
      · exact ⟨rfl, rfl, rfl, rfl, rfl, rfl, rfl⟩
      · exact .refl r
  · exact .refl r

/-- A report on a stream adapts its encoder. -/
theorem on_stats_deeds (peer : DeviceId) (stats : StatsReport) :
    Deeds env s₀ event [] s.books (s.on_stats peer stats).books := by
  unfold on_stats
  refine deeds_tend (steady_modify_first fun r => ?_)
  have hloss : r.Steady { r with loss_pct := stats.loss_pct } :=
    ⟨rfl, rfl, rfl, rfl, rfl, rfl, rfl⟩
  have hrate := hloss.trans (adapt_bitrate_steady _)
  dsimp only
  split
  · exact hrate.trans (adapt_redundancy_steady _)
  · exact hrate

omit [Crypto] in
/-- What a peer can do is not in the books; its connection stays the same. -/
theorem on_hello_books (peer : DeviceId) (conn_id : Nat) (hello : Hello) :
    (s.on_hello peer conn_id hello).books = s.books := by
  unfold on_hello
  split
  · next session hs =>
      split
      · exact session_books hs rfl
      · rfl
  · rfl

omit [Crypto] in
theorem on_session_ticket_books (peer : DeviceId) (conn_id : Nat) (ticket : SessionTicket) :
    (s.on_session_ticket env peer conn_id ticket).books = s.books := by
  unfold on_session_ticket
  split <;> rfl

/-- The messages of a session, by their kind. -/
theorem on_session_message_deeds {peer : DeviceId} {conn_id : Nat} (body : Body)
    (hc : s.conn_index.get conn_id = some peer) :
    Deeds env s (.Control conn_id body) [] s.books
      (s.on_session_message env peer conn_id body).books := by
  cases body with
  | RouteRequest req => exact on_route_request_deeds env s _ s rfl peer req
  | RouteAccept acc => exact on_route_accept_deeds env _ s rfl peer acc
  | RouteReject rej => exact on_route_reject_deeds env s rej hc
  | RouteStop stop => exact stop_route_by_key_deeds env s _ s _ _ _
  | RouteUpdate update => exact on_route_update_deeds env s _ s peer update
  | VolumeSet v => exact on_remote_volume_deeds env s _ s peer v
  | MuteSet m => exact on_remote_mute_deeds env s _ s peer m
  | StatsReport stats => exact on_stats_deeds env s _ s peer stats
  | Hello hello => exact .of_eq (s.on_hello_books peer conn_id hello)
  | SessionTicket ticket => exact .of_eq (s.on_session_ticket_books env peer conn_id ticket)
  | NetTestStart start => exact .of_eq (s.on_net_test_start_books env peer start)
  | NetTestReady ready => exact on_net_test_ready_deeds env s ready hc
  | NetTestStop test_id => exact .of_eq (s.on_net_test_stop_books env peer test_id)
  | _ => exact .refl _

/-- Any message, by the connection it came on. -/
theorem on_control_deeds (conn_id : Nat) (body : Body) :
    Deeds env s (.Control conn_id body) [] s.books (s.on_control env conn_id body).books := by
  unfold on_control
  split
  · next est since hu =>
      dsimp only
      split
      · exact on_pair_request_deeds env s hu _
      · exact .of_eq (close_books _ _ _)
  · next hu =>
      split
      · next id hid =>
          split
          · exact on_pair_result_deeds env s _ hu hid
          · exact .refl _
      · split
        · next peer hc => exact on_session_message_deeds env s body hc
        · exact .refl _

/-- A route that waited too long: its caller hears so first, and then it is stopped. -/
theorem expire_route_deeds (key : RouteKey) :
    Deeds env s₀ event [] s.books (s.expire_route env key).books := by
  unfold expire_route
  dsimp only
  refine Deeds.follow ?_ (stop_route_by_key_deeds env s₀ event _ key .Timeout true)
  split
  · next r hr =>
      rw [set_routes_books, answer_route_books]
      exact .of_deed (.give_up key r hr)
  · exact .refl _

theorem expire_routes_deeds :
    Deeds env s₀ event [] s.books (s.expire_routes env).books :=
  deeds_foldl (fun s key => expire_route_deeds env s₀ event s key) _ s

omit [Crypto] in
/-- A second on every route, by induction on the table. -/
theorem count_each_books (routes : List Route) :
    (count_each env s routes).1.books = s.books ∧
      List.Forall₂ Route.Steady routes (count_each env s routes).2 := by
  induction routes generalizing s with
  | nil => exact ⟨rfl, .nil⟩
  | cons r routes ih =>
      have hone : (s.count_route env r).1.books = s.books ∧ r.Steady (s.count_route env r).2 := by
        unfold count_route
        split
        · exact ⟨rfl, .refl r⟩
        · exact ⟨send_to_books _ _ fun _ => rfl, ⟨rfl, rfl, rfl, rfl, rfl, rfl, rfl⟩⟩
      obtain ⟨hb, hsteady⟩ := ih (s.count_route env r).1
      exact ⟨hb.trans hone.1, .cons hone.2 hsteady⟩

theorem count_routes_deeds : Deeds env s₀ event [] s.books (s.count_routes env).books := by
  unfold count_routes
  dsimp only
  obtain ⟨hb, hsteady⟩ := s.count_each_books env s.routes
  rw [set_routes_books, hb]
  exact .of_deed (.tend _ hsteady)

/-- The routes of a device whose hold ended are reconfigured. -/
theorem expire_stable_holds_deeds :
    Deeds env s₀ event [] s.books (s.expire_stable_holds env).books := by
  unfold expire_stable_holds
  dsimp only
  refine deeds_foldl (fun s id => ?_) _ s
  exact deeds_before (reconfigure_each_deeds env s₀ event _ _) rfl

omit [Crypto] in
theorem expire_debug_logging_books : (s.expire_debug_logging env).books = s.books := by
  unfold expire_debug_logging
  split
  · exact save_settings_books env _
  · rfl

omit [Crypto] in
/-- A loop leaves the books alone if its body does. -/
theorem foldl_books {α : Type} {f : Actor → α → Actor} (h : ∀ s x, (f s x).books = s.books)
    (xs : List α) (s : Actor) : (xs.foldl f s).books = s.books := by
  induction xs generalizing s with
  | nil => rfl
  | cons x xs ih => exact (ih (f s x)).trans (h s x)

theorem announce_capabilities_books : (s.announce_capabilities env).books = s.books := by
  unfold announce_capabilities
  dsimp only
  split
  · rfl
  · exact foldl_books (fun s e => s.emit_unbooked rfl) _ _

omit [Crypto] in
theorem expire_requests_books : (s.expire_requests env).books = s.books := by
  unfold expire_requests
  refine foldl_books (fun s e => ?_) _ s
  exact reject_books _ _ _ _

omit [Crypto] in
theorem expire_unpaired_books : (s.expire_unpaired env).books = s.books := by
  unfold expire_unpaired
  refine foldl_books (fun s e => ?_) _ s
  exact close_books _ _ _

omit [Crypto] in
theorem expire_pairings_books : (s.expire_pairings env).books = s.books := by
  unfold expire_pairings
  refine foldl_books (fun s e => ?_) _ s
  exact close_books _ _ _

omit [Crypto] in
theorem expire_qr_books : (s.expire_qr env).books = s.books := by
  unfold expire_qr
  split <;> rfl

omit [Crypto] in
theorem auto_connect_books : (s.auto_connect env).books = s.books := by
  unfold auto_connect
  split
  · rfl
  · exact foldl_books (fun s (d : TrustedDevice) => s.try_dial_trusted_books env d.device_id) _ s

/-- What a tick does once the network tests have been looked at. -/
theorem tick_rest_deeds :
    Deeds env s₀ event [] (s.tick_network_tests env).books (s.tick env).books := by
  unfold tick
  dsimp only
  rw [auto_connect_books, expire_qr_books, expire_pairings_books, expire_unpaired_books,
    expire_requests_books, check_capture_health_books]
  refine Deeds.follow ?_ (check_virtual_mic_use_deeds env s₀ event _)
  rw [announce_capabilities_books, expire_debug_logging_books]
  refine Deeds.follow ?_ (expire_stable_holds_deeds env s₀ event _)
  refine Deeds.follow ?_ (update_quality_fallback_deeds env s₀ event _)
  refine Deeds.follow ?_ (count_routes_deeds env s₀ event _)
  refine Deeds.follow ?_ (expire_routes_deeds env s₀ event _)
  have hflush (s : Actor) : (s.flush_trust env).books = s.books := rfl
  rw [apply_ite Actor.books, hflush, ite_self]
  exact .refl _

/-- A whole tick: the network tests first, then the rest. -/
theorem tick_deeds : Deeds env s₀ event [] s.books (s.tick env).books :=
  (tick_network_tests_deeds env s₀ event s).follow (tick_rest_deeds env s₀ event s)

/-- The user disconnects a device: dial, session, routes and test, in the order of the source. -/
theorem disconnect_deeds (id : DeviceId) :
    Deeds env s₀ event [] s.books (s.disconnect env id).books := by
  unfold disconnect
  dsimp only
  have hforget := s.forget_dial_books id
  generalize s.forget_dial id = s₁ at hforget ⊢
  refine deeds_before ?_ hforget
  have hdrop : Deeds env s₀ event [] s₁.books
      ((s₁.drop_session id .UserStopped).forget_speaker_mutes id).books := by
    rw [forget_speaker_mutes_books]
    exact drop_session_deeds env s₀ event s₁ id .UserStopped
  generalize (s₁.drop_session id .UserStopped).forget_speaker_mutes id = s₂ at hdrop ⊢
  have hremove := hdrop.follow (remove_routes_for_deeds env s₀ event s₂ id)
  generalize s₂.remove_routes_for env id = s₃ at hremove ⊢
  have hend := hremove.follow (end_network_test_deeds env s₀ event s₃ id .Unreachable)
  generalize s₃.end_network_test id .Unreachable = s₄ at hend ⊢
  exact hend

/-- The device is revoked before its trust and its test are forgotten. -/
theorem forget_device_deeds (id : DeviceId) :
    Deeds env s₀ event [] s.books (s.forget_device env id).books := by
  unfold forget_device
  dsimp only
  rw [apply_ite Actor.books, save_settings_books, ite_self, set_settings_books]
  have hrevoke := revoke_deeds env s₀ event s id
  generalize s.revoke env id = s₁ at hrevoke ⊢
  exact hrevoke.follow (deeds_before (forget_network_test_deeds env s₀ event
    { s₁ with trust := s₁.trust.remove id env.trust_saved } id) rfl)

theorem set_blocked_deeds (id : DeviceId) (blocked : Bool) :
    Deeds env s₀ event [] s.books (s.set_blocked env id blocked).books := by
  unfold set_blocked
  exact deeds_ite (deeds_before (revoke_deeds env s₀ event _ id) rfl) (.refl _)

/-- A permission that is denied stops the routes that need it. -/
theorem on_set_permission_deeds (id : DeviceId) (kind : PermissionKind) (policy : Policy) :
    Deeds env s₀ event [] s.books (s.on_set_permission env id kind policy).books := by
  unfold on_set_permission
  exact deeds_ite (deeds_before (enforce_permissions_deeds env s₀ event _ id) rfl) (.refl _)

/-- The user turns a volume, here or at the peer. -/
theorem set_route_volume_deeds (key : RouteKey) (volume : ℚ) :
    Deeds env s₀ event [] s.books (s.set_route_volume key volume).books := by
  unfold set_route_volume
  dsimp only
  split
  · exact .refl _
  · have htend : Deeds env s₀ event [] s.books (s.set_routes <| s.routes.modify_first (has_key key)
        fun r => { r with
          volume := Settings.clamp_between volume 0 2
          receiver_controls := r.receiver_controls.map fun c =>
            { c with volume := Settings.clamp_between volume 0 2 } }).books :=
      deeds_tend (steady_modify_first fun r => ⟨rfl, rfl, rfl, rfl, rfl, rfl, rfl⟩)
    exact deeds_ite htend (deeds_after htend (send_to_books _ _ fun _ => rfl))

/-- The user mutes a route, here or at the peer. -/
theorem set_route_muted_deeds (key : RouteKey) (muted : Bool) :
    Deeds env s₀ event [] s.books (s.set_route_muted key muted).books := by
  unfold set_route_muted
  dsimp only
  split
  · exact .refl _
  · refine deeds_ite ?_ (deeds_after ?_ (send_to_books _ _ fun _ => rfl))
    · exact deeds_tend (steady_modify_first fun r => ⟨rfl, rfl, rfl, rfl, rfl, rfl, rfl⟩)
    · exact deeds_tend (steady_modify_first fun r => ⟨rfl, rfl, rfl, rfl, rfl, rfl, rfl⟩)

theorem set_route_keep_running_deeds (key : RouteKey) (keep : Bool) :
    Deeds env s₀ event [] s.books (s.set_route_keep_running env key keep).books := by
  unfold set_route_keep_running
  dsimp only
  split
  · exact .refl _
  · rw [save_settings_books]
    exact .of_deed (.tend _ (steady_modify_first fun r => ⟨rfl, rfl, rfl, rfl, rfl, rfl, rfl⟩))

omit [Crypto] in
theorem set_peer_speakers_muted_books (id : DeviceId) (muted : Bool) :
    (s.set_peer_speakers_muted id muted).books = s.books := by
  unfold set_peer_speakers_muted
  split
  · rfl
  · exact s.send_to_books id fun _ => rfl

omit [Crypto] in
theorem sync_resumable_routes_books : (s.sync_resumable_routes env).books = s.books := by
  unfold sync_resumable_routes
  exact save_settings_books env _

theorem reconfigure_routes_deeds (old : Settings) :
    Deeds env s₀ event [] s.books (s.reconfigure_routes env old).books :=
  reconfigure_each_deeds env s₀ event s _

/-- New settings take effect: each step either leaves the books, or is steady on the routes, or
reconfigures some. The states between are generalised one by one. -/
theorem apply_settings_deeds (old : Settings) :
    Deeds env s₀ event [] s.books (s.apply_settings env old).books := by
  unfold apply_settings
  dsimp only
  generalize hs₁ : (if old.transport ≠ s.settings.transport then s.reset_dials env else s) = s₁
  have hb₁ : s₁.books = s.books := by
    rw [← hs₁]
    split <;> rfl
  have htend : Deeds env s₀ event [] s.books (s₁.set_routes <| s₁.routes.map fun r =>
      if r.kind.is_mic then r
      else
        { r with
          receiver_controls := r.receiver_controls.map fun c => { c with
            balance := s₁.settings.output.balance, mono := s₁.settings.output.mono,
            av_offset_ms := s₁.settings.output.av_offset_ms } }).books := by
    refine deeds_before (deeds_tend (steady_map fun r => ?_)) hb₁
    split
    · exact .refl r
    · exact ⟨rfl, rfl, rfl, rfl, rfl, rfl, rfl⟩
  generalize s₁.set_routes _ = s₂ at htend ⊢
  generalize hs₃ : (if old.mic.noise_suppression ≠ s₂.settings.mic.noise_suppression then
    ({ s₂ with denoise := _ } : Actor) else s₂) = s₃
  have hb₃ : s₃.update_mic_groups.books = s₂.books := by
    rw [update_mic_groups_books, ← hs₃]
    split <;> rfl
  generalize s₃.update_mic_groups = s₄ at hb₃ ⊢
  generalize hs₅ : (if old.capture.mute_local_speakers ≠ s₄.settings.capture.mute_local_speakers ∧
      s₄.speakers_muted_by.is_empty = true ∧
      (s₄.routes.any fun r => r.kind == .SendSystemAudio && r.sender_controls.isSome) = true then
    s₄.emit (.SetSpeakersMuted s₄.settings.capture.mute_local_speakers) else s₄) = s₅
  have hb₅ : s₅.books = s₂.books := by
    rw [← hs₅, apply_ite Actor.books, emit_unbooked _ rfl, ite_self, hb₃]
  have hreconfigured := htend.follow
    (deeds_before (reconfigure_routes_deeds env s₀ event s₅ old) hb₅)
  generalize s₅.reconfigure_routes env old = s₆ at hreconfigured ⊢
  generalize hs₇ : (if old.resume_routes_on_start ≠ s₆.settings.resume_routes_on_start then
    s₆.sync_resumable_routes env else s₆) = s₇
  have hb₇ : s₇.books = s₆.books := by
    rw [← hs₇, apply_ite Actor.books, sync_resumable_routes_books, ite_self]
  have hsynced := deeds_after hreconfigured hb₇
  exact deeds_ite (hsynced.follow (set_monitor_deeds env s₀ event s₇ _)) hsynced

/-- The command that brings them is answered last. -/
theorem update_settings_deeds (settings : Settings) (caller : Nat) :
    Deeds env s₀ event [caller] s.books (s.update_settings env settings caller).books := by
  unfold update_settings
  dsimp only
  rw [answer_books]
  have happlied := apply_settings_deeds env s₀ event
  refine Deeds.follow (deeds_before (happlied _ _) ?_)
    (.of_deed (.answer (.caller caller) _ nofun nofun))
  rw [save_settings_books, set_settings_books]

theorem set_device_profile_deeds (id : DeviceId) (profile : Option DeviceProfile) :
    Deeds env s₀ event [] s.books (s.set_device_profile env id profile).books := by
  unfold set_device_profile
  dsimp only
  refine deeds_before (apply_settings_deeds env s₀ event _ _) ?_
  rw [save_settings_books, set_settings_books]

/-- A preference that changes reconfigures the active routes. -/
theorem set_prefer_lossless_deeds (prefer : Bool) :
    Deeds env s₀ event [] s.books (s.set_prefer_lossless env prefer).books := by
  unfold set_prefer_lossless
  dsimp only
  exact deeds_ite (.refl _) (deeds_before (reconfigure_each_deeds env s₀ event _ _) rfl)

end

/-! ## 5. Every event

The callers of an event are fixed by the event alone; `handle_deeds` says that its deeds take on
these and no others. -/

end Actor

/-- The caller of a command. -/
def Event.callers (event : Event) : List Nat :=
  match event with
  | .Command (.StartPairing caller) | .Command (.PairWithQr _ caller)
  | .Command (.PairWithDevice _ caller) | .Command (.StartRoute _ _ _ caller)
  | .Command (.UpdateSettings _ caller) | .Command (.RunNetworkTest _ caller)
  | .PairAddressResolved _ caller => [caller]
  | _ => []

namespace Actor

section
variable [Crypto] (env : Env) (s : Actor)

/-- A command that is answered at once, by something else than a report or a started route. -/
theorem answer_deeds {s₀ t : Actor} {event : Event} {caller : Nat}
    {result : Except EngineError Answer} (hb : t.books = s.books)
    (h : ∀ report, result ≠ .ok (.Report report)) (hs : ∀ key, result ≠ .ok (.Started key)) :
    Deeds env s₀ event [caller] s.books (t.answer (.caller caller) result).books := by
  rw [answer_books, hb]
  exact .of_deed (.answer (.caller caller) result h fun _ key _ he => absurd he (hs key))

/-- Pairing by code: refused at once, or dialed and answered. -/
theorem pair_by_code_deeds (event : Event) (found : Option EngineError) (caller : Nat) :
    Deeds env s event [caller] s.books (s.pair_by_code found caller).books := by
  unfold pair_by_code
  split
  · exact answer_deeds env s rfl nofun nofun
  · exact answer_deeds env s (s.pair_dial_books _ _ _ _) nofun nofun

/-- Every command, by its handler. -/
theorem handle_command_deeds (cmd : Command) :
    Deeds env s (.Command cmd) (Event.callers (.Command cmd)) s.books
      (s.handle_command env cmd).books := by
  cases cmd with
  | StartPairing caller => exact answer_deeds env s rfl nofun nofun
  | StopPairing => exact .refl _
  | PairWithQr payload caller =>
      -- A scan is answered with success or an error, never with a report or a route.
      have hresult : (s.pair_with_qr payload).2 = .ok .Done ∨
          ∃ e, (s.pair_with_qr payload).2 = .error e := by
        unfold pair_with_qr
        split
        · exact .inr ⟨_, rfl⟩
        · split
          · exact .inr ⟨_, rfl⟩
          · exact .inl rfl
      refine answer_deeds env s (s.pair_with_qr_books payload) (fun report => ?_) (fun key => ?_)
      · rcases hresult with h | ⟨e, h⟩
        · exact fun hreport => nomatch h.symm.trans hreport
        · exact fun hreport => nomatch h.symm.trans hreport
      · rcases hresult with h | ⟨e, h⟩
        · exact fun hstarted => nomatch h.symm.trans hstarted
        · exact fun hstarted => nomatch h.symm.trans hstarted
  | PairWithDevice id caller => exact s.pair_by_code_deeds env _ _ caller
  | ConfirmPairing id accept => exact s.confirm_pairing_deeds env id accept
  | Connect id => exact .of_eq (try_dial_trusted_books env _ id)
  | Disconnect id => exact disconnect_deeds env s _ s id
  | ForgetDevice id => exact forget_device_deeds env s _ s id
  | SetBlocked id blocked => exact set_blocked_deeds env s _ s id blocked
  | RenameDevice id alias_name => exact .refl _
  | SetAutoConnect id enabled => exact .refl _
  | SetPermission id kind policy => exact on_set_permission_deeds env s _ s id kind policy
  | StartRoute id kind replace caller =>
      exact @start_route_keeping_deeds _ env s _ s id kind replace (.caller caller) .default
        fun c hc => ⟨replace, by rw [Reply.caller.inj hc]⟩
  | StopRoute key => exact stop_route_by_key_deeds env s _ s key _ _
  | SetRouteVolume key volume => exact set_route_volume_deeds env s _ s key volume
  | SetRouteMuted key muted => exact set_route_muted_deeds env s _ s key muted
  | SetRouteKeepRunning key keep => exact set_route_keep_running_deeds env s _ s key keep
  | SetPeerSpeakersMuted id muted => exact .of_eq (s.set_peer_speakers_muted_books id muted)
  | RespondRouteRequest request_id accept remember =>
      exact respond_request_deeds env s _ s rfl request_id accept remember
  | SetMicMuted muted => exact set_mic_muted_deeds env s _ s muted
  | SetMicMonitor enabled => exact set_monitor_deeds env s _ s enabled
  | AudioDevicesChanged input output => exact on_audio_devices_changed_deeds env s _ s input output
  | UpdateSettings settings caller => exact update_settings_deeds env s _ s settings caller
  | NetworkChanged => exact .refl _
  | SetForeground foreground =>
      refine .of_eq ?_
      unfold handle_command
      dsimp only
      split <;> rfl
  | PreferLossless prefer => exact set_prefer_lossless_deeds env s _ s prefer
  | SetDeviceProfile id profile => exact set_device_profile_deeds env s _ s id profile
  | RunNetworkTest id caller => exact s.start_network_test_deeds env id caller
  | CancelNetworkTest id => exact end_network_test_deeds env s _ s id _

/-- Every event is a sequence of deeds, and takes on its caller. -/
theorem handle_deeds (event : Event) :
    Deeds env s event event.callers s.books (s.handle env event).books := by
  cases event with
  | Command cmd => exact s.handle_command_deeds env cmd
  | Incoming conn => exact .refl _
  | AddressIsSelf addr => exact .refl _
  | Dialed conn_id conn pair => exact .refl _
  | DialFailed conn_id target error => exact .of_eq (s.on_dial_failed_books env _ _ _)
  | Discovered id addresses => exact .refl _
  | Lost id => exact .refl _
  | AudioFailed peer route error => exact on_audio_failed_deeds env s _ s _ error
  | PairAddressResolved found caller => exact s.pair_by_code_deeds env _ _ caller
  | SenderReady key start_id result => exact on_sender_ready_deeds env s _ s rfl key start_id result
  | ReceiverReady peer route start_id result =>
      exact s.on_receiver_ready_deeds env peer route start_id result
  | EncoderFailed key error => exact on_encoder_failed_deeds env s _ s key error
  | NetTestFinished peer test_id report =>
      exact s.on_net_test_finished_deeds env peer test_id report
  | Established est => exact s.on_established_deeds env est
  | Control conn_id body => exact s.on_control_deeds env conn_id body
  | Closed conn_id reason => exact on_closed_deeds env s _ s conn_id reason
  | HandshakeFailed conn_id incompatible => exact .of_eq (s.on_handshake_failed_books env _ _)
  | Tick => exact tick_deeds env s _ s

end

end Actor

end SoundPush
