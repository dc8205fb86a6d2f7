/-
`NetworkTest` -- network self-test commands (`sp-engine/src/actor/network_test.rs`):
the initiator starts a test and answers its callers, the responder arms its session
to echo probes. The measurement is a task of its own and its report a number here.

A test has one entry a device and goes through three phases: it waits for the peer's word, it runs,
it is finished. Whoever asks while it waits or runs is answered with it. Everything that can end it
(the report, a refusal, the timeout, a session that ended, the user) goes through
`finish_network_test`, which stops the measurement, answers all callers and tells the peer.

The lemmas at the end say that none of these functions touches the tables of sessions, routes and
connections, so that modules about those can pass over network tests by the simp set.
-/
import SoundPush.Engine.Routes

set_option autoImplicit false

namespace SoundPush

/-- How long the peer has to accept a test. -/
def READY_TIMEOUT : Nat := 3000
/-- How long a responder keeps echoing after accepting a test. -/
def RESPONDER_WINDOW : Nat := 15000

namespace Actor

/-- The state with other network tests. -/
def set_net_tests (s : Actor) (net_tests : Table DeviceId NetTest) : Actor := { s with net_tests }

/-- A test ends with a report or an error; its entry stays, for the user to see. -/
def finish_network_test (s : Actor) (peer : DeviceId) (result : Except EngineError Nat) : Actor :=
  match s.net_tests.get peer with
  | none => s
  | some test =>
      let s := if test.phase = .Running then s.emit (.AbortTest test.test_id) else s
      let s := test.replies.foldl (fun s r => s.answer r (result.map Answer.Report)) s
      let status : NetworkTestStatus :=
        match result with
        | .ok _ => .Done
        | .error e => if e = .Cancelled then .Cancelled else .Failed
      let s := s.set_net_tests
        (s.net_tests.insert peer { test with phase := .Finished, replies := [], status })
      match s.sessions.get peer with
      | some session =>
          (s.emit (.ProbeSink session.conn_id false)).emit
            (.Send session.conn_id (.NetTestStop test.test_id))
      | none => s

/-- Stop a running test for `peer` (disconnect, revocation, cancel). -/
def end_network_test (s : Actor) (peer : DeviceId) (error : EngineError) : Actor :=
  match s.net_tests.get peer with
  | some test => if test.status = .Running then s.finish_network_test peer (.error error) else s
  | none => s

/-- The user calls a test off. -/
def cancel_network_test (s : Actor) (peer : DeviceId) : Actor := s.end_network_test peer .Cancelled

/-- The device is gone, and its entry with it. -/
def forget_network_test (s : Actor) (peer : DeviceId) : Actor :=
  let s := s.end_network_test peer .Revoked
  s.set_net_tests (s.net_tests.erase peer)

/-- The user asks for a test. It needs a session with a peer that supports tests; one that runs
already takes on the caller. -/
def start_network_test (env : Env) (s : Actor) (peer : DeviceId) (reply : Reply) : Actor :=
  match s.sessions.get peer with
  | none => s.answer reply (.error (s.not_connected peer))
  | some session =>
      if !session.hello.capabilities.has Capabilities.FEATURE_NETWORK_TEST then
        s.answer reply (.error .IncompatibleVersion)
      else
        match (s.net_tests.get peer).filter fun test => test.status = .Running with
        | some test =>
            -- a test already runs: its report answers this caller too
            s.set_net_tests
              (s.net_tests.insert peer { test with replies := test.replies ++ [reply] })
        | none =>
            let test_id := max (s.next_test_id + 1) 1
            let s := { s with next_test_id := test_id }
            let s := s.emit (.Send session.conn_id
              (.NetTestStart { test_id, duration_ms := RESPONDER_WINDOW }))
            s.set_net_tests <| s.net_tests.insert peer
              { test_id, phase := .AwaitingReady (env.now + READY_TIMEOUT), replies := [reply],
                status := .Running }

/-- The peer's word on a test that waits for it. -/
def on_net_test_ready (s : Actor) (peer : DeviceId) (ready : NetTestReady) : Actor :=
  match s.net_tests.get peer with
  | none => s
  | some test =>
      match test.phase with
      | .AwaitingReady _ =>
          if test.test_id ≠ ready.test_id then s
          else if !ready.accepted then s.finish_network_test peer (.error .PeerDenied)
          else
            match s.sessions.get peer with
            | none => s
            | some session =>
                let s := s.emit (.ProbeSink session.conn_id true)
                let s := s.emit (.Spawn (.NetworkTest peer test.test_id))
                s.set_net_tests (s.net_tests.insert peer { test with phase := .Running })
      | _ => s

/-- The measurement is done; a report of another test is dropped. -/
def on_net_test_finished (s : Actor) (peer : DeviceId) (test_id : UInt32) (report : Nat) : Actor :=
  match s.net_tests.get peer with
  | some test =>
      if test.test_id = test_id ∧ test.phase = .Running then s.finish_network_test peer (.ok report)
      else s
  | none => s

/-- Responder: echo this test's probes for a bounded time. -/
def on_net_test_start (env : Env) (s : Actor) (peer : DeviceId) (start : NetTestStart) : Actor :=
  match s.sessions.get peer with
  | none => s
  | some session =>
      let window := min start.duration_ms RESPONDER_WINDOW
      (s.emit (.ArmEcho session.conn_id start.test_id (env.now + window))).emit
        (.Send session.conn_id (.NetTestReady { test_id := start.test_id, accepted := true }))

/-- The peer's test is over. -/
def on_net_test_stop (env : Env) (s : Actor) (peer : DeviceId) (test_id : UInt32) : Actor :=
  match s.sessions.get peer with
  | none => s
  | some session => s.emit (.ArmEcho session.conn_id test_id env.now)

/-- A test that the peer did not answer in time ends. -/
def tick_network_tests (env : Env) (s : Actor) : Actor :=
  let expired := s.net_tests.pairs.filter fun (_, t) =>
    match t.phase with
    | .AwaitingReady deadline => deadline < env.now
    | _ => false
  expired.foldl (fun s (peer, _) => s.finish_network_test peer (.error .Unreachable)) s

/-! Tests are answered and announced; no table changes. -/

section
variable (env : Env) (s : Actor) (peer : DeviceId)

@[simp] theorem set_net_tests_tables (t : Table DeviceId NetTest) :
    (s.set_net_tests t).toTables = s.toTables := rfl

/-- Any number of answers, by induction on who waits. -/
theorem answer_all_tables (replies : List Reply) (result : Except EngineError Answer) :
    (replies.foldl (fun s r => s.answer r result) s).toTables = s.toTables := by
  induction replies generalizing s with
  | nil => rfl
  | cons r replies ih =>
      rw [List.foldl_cons, ih]
      exact s.answer_tables r result

@[simp] theorem finish_network_test_tables (result : Except EngineError Nat) :
    (s.finish_network_test peer result).toTables = s.toTables := by
  unfold finish_network_test
  split
  · rfl
  · dsimp only
    split <;> split <;> simp [answer_all_tables]

@[simp] theorem end_network_test_tables (error : EngineError) :
    (s.end_network_test peer error).toTables = s.toTables := by
  unfold end_network_test
  split
  · split <;> simp
  · rfl

@[simp] theorem cancel_network_test_tables :
    (s.cancel_network_test peer).toTables = s.toTables :=
  s.end_network_test_tables peer _

@[simp] theorem forget_network_test_tables :
    (s.forget_network_test peer).toTables = s.toTables :=
  s.end_network_test_tables peer _

@[simp] theorem start_network_test_tables (reply : Reply) :
    (s.start_network_test env peer reply).toTables = s.toTables := by
  unfold start_network_test
  split
  · simp
  · split
    · simp
    · split <;> simp

@[simp] theorem on_net_test_ready_tables (ready : NetTestReady) :
    (s.on_net_test_ready peer ready).toTables = s.toTables := by
  unfold on_net_test_ready
  split
  · rfl
  · split
    · split
      · rfl
      · split
        · simp
        · split <;> simp
    · rfl

@[simp] theorem on_net_test_finished_tables (test_id : UInt32) (report : Nat) :
    (s.on_net_test_finished peer test_id report).toTables = s.toTables := by
  unfold on_net_test_finished
  split
  · split <;> simp
  · rfl

@[simp] theorem on_net_test_start_tables (start : NetTestStart) :
    (s.on_net_test_start env peer start).toTables = s.toTables := by
  unfold on_net_test_start
  split <;> rfl

@[simp] theorem on_net_test_stop_tables (test_id : UInt32) :
    (s.on_net_test_stop env peer test_id).toTables = s.toTables := by
  unfold on_net_test_stop
  split <;> rfl

@[simp] theorem tick_network_tests_tables : (s.tick_network_tests env).toTables = s.toTables := by
  unfold tick_network_tests
  dsimp only
  generalize s.net_tests.pairs.filter _ = expired
  induction expired generalizing s with
  | nil => rfl
  | cons e expired ih =>
      rw [List.foldl_cons, ih]
      exact s.finish_network_test_tables e.1 _

end

end Actor

end SoundPush
