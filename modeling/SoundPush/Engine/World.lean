/-
`World` -- the engine actor among the tasks it has started, as a machine whose
runs are all the orders in which events can reach it.

Peers, users and the operating system do as they like. What the environment is
held to is what the transport and the runtime guarantee: a task reports once, a
dial that is pinned to a device reaches no other, a connection's key is the one it
authenticated, a session passes messages on between its `Established` and its
`Closed`. `Known` is a set of public keys that contains every key the run meets;
it is there for the one assumption some results make about keys, that no two of
them share a device id.
-/
import SoundPush.Engine.Handlers
import SoundPush.Lib.Machine

set_option autoImplicit false

namespace SoundPush

/-- One event, with what it sees of the world. -/
structure Input where
  env : Env
  event : Event

structure World where
  actor : Actor
  /-- work on connections that has not reported yet -/
  calls : List Call
  /-- other work that has not reported yet -/
  tasks : List Task
  /-- the connections established so far -/
  opened : List Established
  /-- those whose session task still passes control messages on -/
  live : List Nat

/-- The work on a connection that reports with an event. -/
def Call.reports (event : Event) (call : Call) : Bool :=
  match event, call with
  | .Dialed conn_id _ pair, .Dial c _ p _ => conn_id == c && pair == p
  | .DialFailed conn_id target _, .Dial c _ _ t => conn_id == c && target == t
  | .Established est, .RunSession c conn dialed _ _ =>
      est.conn_id == c && est.conn == conn && est.dialed == dialed
  | .HandshakeFailed conn_id _, .RunSession c .. => conn_id == c
  | _, _ => false

/-- The task that reports with an event. -/
def Task.reports (event : Event) (task : Task) : Bool :=
  match event, task with
  | .SenderReady key start_id _, .OpenSender k i _ _ => key == k && start_id == i
  | .ReceiverReady peer route start_id _, .OpenReceiver p r i _ =>
      peer == p && route == r && start_id == i
  | .NetTestFinished peer test_id _, .NetworkTest p i => peer == p && test_id == i
  | _, _ => false

/-- What the environment guarantees of an event. -/
def World.enabled [Crypto] (Known : PublicKey → Prop) (w : World) (i : Input) : Prop :=
  match i.event with
  | .Incoming conn => Known conn.peer_public_key
  | .Dialed conn_id conn pair =>
      Known conn.peer_public_key ∧
        ∃ pinned target, Call.Dial conn_id pinned pair target ∈ w.calls ∧
          ∀ id, pinned = some id → conn.peer_public_key.device_id = id
  | .Established est =>
      (∃ call ∈ w.calls, call.reports i.event) ∧
        est.hello.device_id = est.conn.peer_public_key.device_id
  | .DialFailed .. | .HandshakeFailed .. => ∃ call ∈ w.calls, call.reports i.event
  | .SenderReady .. | .ReceiverReady .. | .NetTestFinished .. =>
      ∃ task ∈ w.tasks, task.reports i.event
  | .Control conn_id _ | .Closed conn_id _ => conn_id ∈ w.live
  | _ => True

/-- The tasks a handler started. -/
def spawned (out : List Output) : List Task :=
  out.filterMap fun o =>
    match o with
    | .Spawn task => some task
    | _ => none

/-- The actor handles one event; `calls` and `out` then hold what this event started and did. -/
def Actor.step [Crypto] (a : Actor) (i : Input) : Actor :=
  { a with calls := [], out := [] }.handle i.env i.event

def World.step [Crypto] (w : World) (i : Input) : World :=
  let actor := w.actor.step i
  { actor
    calls := w.calls.eraseP (Call.reports i.event) ++ actor.calls
    tasks := w.tasks.eraseP (Task.reports i.event) ++ spawned actor.out
    opened :=
      match i.event with
      | .Established est => est :: w.opened
      | _ => w.opened
    live :=
      match i.event with
      | .Established est => est.conn_id :: w.live
      | .Closed conn_id _ => w.live.filter (· ≠ conn_id)
      | _ => w.live }

/-- What an earlier run of the engine may have left in the sealed trust file. -/
structure TrustStore.Loaded [Crypto] (Known : PublicKey → Prop) (t : TrustStore) : Prop where
  id_of_key : ∀ id d, t.get id = some d → d.device_id = id ∧ d.public_key.device_id = id
  known : ∀ id d, t.get id = some d → Known d.public_key

/-- The engine, from its start on. -/
def engine [Crypto] (Known : PublicKey → Prop) : Machine World Input where
  init w :=
    ∃ identity trust settings, trust.Loaded Known ∧
      w = { actor := .start identity trust settings, calls := [], tasks := [], opened := [],
            live := [] }
  enabled := World.enabled Known
  step := World.step

end SoundPush
