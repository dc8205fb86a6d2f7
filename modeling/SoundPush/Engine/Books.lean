/-
`Books` -- what the engine owes to others, and the deeds by which an event changes it.

Callers wait for answers, in the routes and in the network tests they started. A
session's connection holds a sink for every route that is played here, and a probe
sink while a test measures. The operating system was last asked to keep something
alive. `Actor.books` is the part of the state that these accounts are about, with the
effects that settle them, and each constructor of `Deed` is one thing a handler
does to it. The list a deed is indexed by names the callers whose command it takes
on: they are answered by it, or wait from then on.
-/
import SoundPush.Engine.Moves

set_option autoImplicit false

namespace SoundPush

/-! ## 1. The accounts -/

/-- The effects that are accounted for. -/
@[simp] def Output.booked : Output → Bool
  | .Answer .. | .AddSink .. | .RemoveSink .. | .ProbeSink .. | .KeepAlive _ => true
  | .Send _ (.NetTestStart _) | .Spawn (.NetworkTest ..) => true
  | _ => false

structure Books where
  routes : List Route
  /-- paused routes that are out of the table while they are asked for again -/
  aside : List Route
  /-- the connection of each device's session -/
  conn : DeviceId → Option Nat
  tests : Table DeviceId NetTest
  next_test_id : UInt32
  monitor : Bool
  keep_alive : KeepAlive
  /-- the booked effects of this event, in order -/
  out : List Output

def Actor.books (s : Actor) : Books :=
  { routes := s.routes
    aside := []
    conn := fun id => (s.sessions.get id).map Session.conn_id
    tests := s.net_tests
    next_test_id := s.next_test_id
    monitor := s.monitor
    keep_alive := s.keep_alive
    out := s.out.filter Output.booked }

/-- The effects of answering a command. -/
def Reply.answered (reply : Reply) (result : Except EngineError Answer) : List Output :=
  match reply with
  | .caller id => [.Answer id result]
  | .dropped => []

/-- Who waits for the answer. -/
def Reply.callers : Reply → List Nat
  | .caller id => [id]
  | .dropped => []

/-- The effects of answering the start of a route. -/
def Route.answered (r : Route) (result : Except EngineError Answer) : List Output :=
  match r.reply with
  | some reply => reply.answered result
  | none => []

namespace Books

def tell (b : Books) (out : List Output) : Books := { b with out := b.out ++ out }

@[simp] theorem tell_nil (b : Books) : b.tell [] = b := by
  unfold tell
  rw [List.append_nil]

@[simp] theorem tell_tell (b : Books) (out out' : List Output) :
    (b.tell out).tell out' = b.tell (out ++ out') := by
  unfold tell
  rw [List.append_assoc]

/-- What should be kept alive, by the routes and the monitor. -/
def wakes (b : Books) : KeepAlive :=
  let live (k : RouteKind → Bool) : Bool := b.routes.any fun r => r.status == .Active && k r.kind
  { microphone :=
      b.monitor || live fun k =>
        k == .SendMicToSpeaker || k == .SendMicToVirtualMic || k == .SendMixed
    app_audio_capture := live fun k => k == .SendAppAudio
    playback := live fun k => !k.local_is_source }

/-- The operating system is asked for it, if that is something else than before. -/
def kept (b : Books) : Books :=
  if b.wakes ≠ b.keep_alive then { b with keep_alive := b.wakes }.tell [.KeepAlive b.wakes] else b

/-- A route that is played here loses its sink, if its session still stands. -/
def unplugs (b : Books) (r : Route) : List Output :=
  match r.receiver, b.conn r.peer with
  | some _, some conn_id => [.RemoveSink conn_id r.id]
  | _, _ => []

/-- Without a device's session. -/
def without (b : Books) (id : DeviceId) : Books :=
  { b with conn := fun k => if k = id then none else b.conn k }

end Books

/-! ## 2. Deeds -/

/-- `r'` is as good as `r` to those who wait for it and to its session. -/
structure Route.Steady (r r' : Route) : Prop where
  peer : r'.peer = r.peer
  id : r'.id = r.id
  kind : r'.kind = r.kind
  status : r'.status = r.status
  requested_locally : r'.requested_locally = r.requested_locally
  receiver : r'.receiver = r.receiver
  reply : r'.reply = r.reply

theorem Route.Steady.refl (r : Route) : r.Steady r := ⟨rfl, rfl, rfl, rfl, rfl, rfl, rfl⟩

theorem Route.Steady.trans {a b c : Route} (h : a.Steady b) (h' : b.Steady c) : a.Steady c where
  peer := h'.peer.trans h.peer
  id := h'.id.trans h.id
  kind := h'.kind.trans h.kind
  status := h'.status.trans h.status
  requested_locally := h'.requested_locally.trans h.requested_locally
  receiver := h'.receiver.trans h.receiver
  reply := h'.reply.trans h.reply

/-- The route that a request for one adds. -/
structure Route.Asked (r : Route) (peer : DeviceId) (kind : RouteKind) (reply : Reply) : Prop where
  peer : r.peer = peer
  kind : r.kind = kind
  status : r.status = .Requesting
  requested_locally : r.requested_locally = true
  receiver : r.receiver = none
  reply : r.reply = some reply

/-- What a caller hears when its route runs. -/
def Route.started (r : Route) : List Output :=
  if r.requested_locally then r.answered (.ok (.Started r.key)) else []

/-- What a caller hears when its route's session goes down before the route runs. -/
def Route.cut_off (r : Route) : List Output :=
  match r.status with
  | .Active | .Paused => []
  | _ => r.answered (.error .Unreachable)

/-- A route after its session went down, without its pipeline. -/
structure Route.CutOff (r r' : Route) : Prop where
  peer : r'.peer = r.peer
  kind : r'.kind = r.kind
  receiver : r'.receiver = none
  status : r'.status = .Paused ∨ r'.status = .Stopped
  reply : r'.reply = if r.status = .Active ∨ r.status = .Paused then r.reply else none

/-- The routes with a device are cut off, in order, and the others left as they are. -/
inductive CutsOff (peer : DeviceId) : List Route → List Route → List Output → Prop
  | nil : CutsOff peer [] [] []
  | skip {r : Route} {routes routes' : List Route} {out : List Output} (hp : r.peer ≠ peer)
      (h : CutsOff peer routes routes' out) : CutsOff peer (r :: routes) (r :: routes') out
  | cut {r r' : Route} {routes routes' : List Route} {out : List Output} (hp : r.peer = peer)
      (hr : r.CutOff r') (h : CutsOff peer routes routes' out) :
      CutsOff peer (r :: routes) (r' :: routes') (r.cut_off ++ out)

/-- The events at which a route's pipeline can become ready. -/
def Event.readies (event : Event) : Bool :=
  match event with
  | .SenderReady .. | .ReceiverReady .. | .Control _ (.RouteRequest _) | .Control _ (.RouteAccept _)
  | .Command (.RespondRouteRequest ..) => true
  | _ => false

/-- The event is a command to start a route. -/
def Event.starts (event : Event) : Bool :=
  match event with
  | .Command (.StartRoute ..) => true
  | _ => false

/-- What happens to a network test. -/
inductive TestDeed (s₀ : Actor) (event : Event) : List Nat → Books → Books → Prop
  /-- a network test is asked for -/
  | start {b : Books} (peer : DeviceId) (conn_id caller deadline duration : Nat)
      (he : event = .Command (.RunNetworkTest peer caller)) (hb : b = s₀.books)
      (hc : b.conn peer = some conn_id)
      (h : ∀ test, b.tests.get peer = some test → test.status ≠ .Running) :
      TestDeed s₀ event [caller] b
        ({ b with
          next_test_id := max (b.next_test_id + 1) 1
          tests := b.tests.insert peer
            { test_id := max (b.next_test_id + 1) 1, phase := .AwaitingReady deadline
              replies := [.caller caller], status := .Running } }.tell
          [.Send conn_id (.NetTestStart
            { test_id := max (b.next_test_id + 1) 1, duration_ms := duration })])
  /-- a test that runs already answers one caller more -/
  | join {b : Books} (peer : DeviceId) (caller : Nat) (test : NetTest)
      (he : event = .Command (.RunNetworkTest peer caller)) (hb : b = s₀.books)
      (h : b.tests.get peer = some test) (hs : test.status = .Running) :
      TestDeed s₀ event [caller] b
        { b with
          tests := b.tests.insert peer { test with replies := test.replies ++ [.caller caller] } }
  /-- the peer is ready: the measurement begins -/
  | measure {b : Books} (peer : DeviceId) (conn_id n : Nat) (ready : NetTestReady) (test : NetTest)
      (deadline : Instant) (he : event = .Control n (.NetTestReady ready))
      (hb : b = s₀.books) (hn : s₀.conn_index.get n = some peer)
      (hc : b.conn peer = some conn_id) (h : b.tests.get peer = some test)
      (hp : test.phase = .AwaitingReady deadline) (hi : test.test_id = ready.test_id) :
      TestDeed s₀ event [] b
        ({ b with tests := b.tests.insert peer { test with phase := .Running } }.tell
          [.ProbeSink conn_id true, .Spawn (.NetworkTest peer test.test_id)])
  /-- a test ends, and all its callers are answered -/
  | finish {b : Books} (peer : DeviceId) (test : NetTest) (result : Except EngineError Nat)
      (status : NetworkTestStatus) (hs : status ≠ .Running) (h : b.tests.get peer = some test)
      (hr : ∀ report, result = .ok report → test.phase = .Running ∧ b = s₀.books ∧
        event = .NetTestFinished peer test.test_id report) :
      TestDeed s₀ event [] b
        ({ b with
          tests :=
            b.tests.insert peer { test with phase := .Finished, replies := [], status } }.tell
          ((test.replies.flatMap fun r : Reply => r.answered (result.map Answer.Report)) ++
            (b.conn peer).toList.map fun conn_id => Output.ProbeSink conn_id false))
  | forget {b : Books} (peer : DeviceId)
      (h : ∀ test, b.tests.get peer = some test → test.status ≠ .Running) :
      TestDeed s₀ event [] b { b with tests := b.tests.erase peer }

/-- One step of the handling of `event`, which met the state `s₀`. -/
inductive Deed [Crypto] (env : Env) (s₀ : Actor) (event : Event) :
    List Nat → Books → Books → Prop
  | tend {b : Books} (routes : List Route) (h : List.Forall₂ Route.Steady b.routes routes) :
      Deed env s₀ event [] b { b with routes }
  | activate {b : Books} (key : RouteKey) (r : Route) (he : event.readies = true)
      (hr : b.routes.find? (has_key key) = some r) (hs : r.status = .Starting) :
      Deed env s₀ event [] b
        ({ b with
          routes := b.routes.modify_first (has_key key) Route.activated }.tell r.started).kept
  /-- a route is stopped, or fails -/
  | finish {b : Books} (key : RouteKey) (route : Route) (rest : List Route) (e : EngineError)
      (h : b.routes.remove_first (has_key key) = some (route, rest)) :
      Deed env s₀ event [] b
        ({ b with routes := rest }.tell (b.unplugs route ++ route.answered (.error e))).kept
  /-- a peer refuses a route -/
  | refuse {b : Books} (conn_id : Nat) (peer : DeviceId) (rej : RouteReject) (route : Route)
      (rest : List Route) (e : EngineError) (he : event = .Control conn_id (.RouteReject rej))
      (hb : b = s₀.books) (hc : s₀.conn_index.get conn_id = some peer)
      (h : b.routes.remove_first (has_key ⟨peer, rej.route.toUInt8⟩) = some (route, rest)) :
      Deed env s₀ event [] b ({ b with routes := rest }.tell (route.answered (.error e)))
  /-- a route the peer accepted cannot start here -/
  | lose {b : Books} (key : RouteKey) (route : Route) (rest : List Route) (e : EngineError)
      (hb : b = s₀.books)
      (h : b.routes.remove_first (fun r => has_key key r && r.status = .Requesting) =
        some (route, rest)) :
      Deed env s₀ event [] b ({ b with routes := rest }.tell (route.answered (.error e)))
  /-- a peer accepts a route -/
  | accept {b : Books} (key : RouteKey) (route r₁ : Route) (rest : List Route)
      (h : b.routes.remove_first (fun r => has_key key r && r.status = .Requesting) =
        some (route, rest))
      (hr : { route with status := .Starting }.Steady r₁) :
      Deed env s₀ event [] b { b with routes := rest ++ [r₁] }
  /-- a peer's paused routes make way for one it asks for -/
  | supplant {b : Books} (peer : DeviceId) (id : UInt8) (kind : RouteKind) :
      Deed env s₀ event [] b
        { b with routes := b.routes.filter fun r => !Actor.replaced_by peer id kind r }
  /-- a route that a peer asked for is accepted -/
  | take_on {b : Books} (peer : DeviceId) (id : UInt8) (kind : RouteKind) (volume : ℚ) (r₁ : Route)
      (hr : (new_route peer id kind false volume).Steady r₁) :
      Deed env s₀ event [] b { b with routes := b.routes ++ [r₁] }
  /-- a running route's pipeline is opened again, for another encoding -/
  | rebuild {b : Books} (key : RouteKey) (route r₁ : Route) (rest : List Route)
      (h : b.routes.remove_first (has_key key) = some (route, rest))
      (hr : { route with receiver := none }.Steady r₁) :
      Deed env s₀ event [] b ({ b with routes := rest ++ [r₁] }.tell (b.unplugs route))
  /-- a route moves to the devices there are now -/
  | reopen {b : Books} (key : RouteKey) (route r₁ : Route)
      (h : b.routes.find? (has_key key) = some route)
      (hr : { route with receiver := none }.Steady r₁) :
      Deed env s₀ event [] b
        ({ b with routes := b.routes.modify_first (has_key key) fun _ => r₁ }.tell
          (b.unplugs route))
  /-- a playback is open -/
  | receive {b : Books} (peer : DeviceId) (id : UInt8) (start_id conn_id : Nat) (r : Route)
      (he : event = .ReceiverReady peer id start_id (.ok ())) (hb : b = s₀.books)
      (hc : b.conn peer = some conn_id)
      (h : b.routes.find? (fun r => has_key ⟨peer, id⟩ r && r.start_id = start_id) = some r) :
      Deed env s₀ event [] b
        ({ b with
          routes := b.routes.modify_first
            (fun r => has_key ⟨peer, id⟩ r && r.start_id = start_id)
            fun r => { r with start_id := 0, receiver := some start_id } }.tell
          [.AddSink conn_id id])
  /-- nobody waits for a route any longer -/
  | give_up {b : Books} (key : RouteKey) (r : Route) (h : b.routes.find? (has_key key) = some r) :
      Deed env s₀ event [] b
        ({ b with
          routes := b.routes.modify_first (has_key key) fun r => { r with reply := none } }.tell
          (r.answered (.error .Unreachable)))
  /-- the routes with a device are paused, its session is gone -/
  | pause {b : Books} (peer : DeviceId) (routes : List Route) (out : List Output)
      (hc : b.conn peer = none) (h : CutsOff peer b.routes routes out) :
      Deed env s₀ event [] b
        ({ b with
          routes := routes.filter fun r : Route => r.status ≠ RouteStatus.Stopped }.tell out).kept
  /-- a peer is asked for a route -/
  | request {b : Books} (peer : DeviceId) (kind : RouteKind) (conn_id : Nat) (reply : Reply)
      (r : Route) (hc : b.conn peer = some conn_id) (hr : r.Asked peer kind reply)
      (he : ∀ caller, reply = .caller caller →
        ∃ replace, event = .Command (.StartRoute peer kind replace caller)) :
      Deed env s₀ event reply.callers b { b with routes := b.routes ++ [r] }
  /-- a command is answered at once -/
  | answer {b : Books} (reply : Reply) (result : Except EngineError Answer)
      (h : ∀ report, result ≠ .ok (.Report report))
      (hs : ∀ caller key, reply = .caller caller → result = .ok (.Started key) →
        event.starts = true) :
      Deed env s₀ event reply.callers b (b.tell (reply.answered result))
  /-- paused routes are taken out to be asked for again -/
  | set_aside {b : Books} (peer : DeviceId) (ha : b.aside = []) :
      Deed env s₀ event [] b
        { b with
          routes := b.routes.filter fun r =>
            !(r.peer = peer ∧ r.status = .Paused ∧ r.requested_locally)
          aside :=
            b.routes.filter fun r => r.peer = peer ∧ r.status = .Paused ∧ r.requested_locally }
  /-- what could not be asked for stays paused -/
  | put_back {b : Books} (kind : RouteKind) (route : Route) (rest : List Route)
      (h : b.aside.remove_first (fun r => r.kind = kind) = some (route, rest)) :
      Deed env s₀ event [] b { b with routes := b.routes ++ [route], aside := rest }
  /-- the routes that have been asked for again are gone -/
  | discard {b : Books} : Deed env s₀ event [] b { b with aside := [] }
  /-- a session ends -/
  | drop {b : Books} (id : DeviceId) : Deed env s₀ event [] b (b.without id)
  /-- a session begins -/
  | install {b : Books} (id : DeviceId) (est : Established) (hi : s₀.installs env event id est)
      (hc : b.conn id = none)
      (hr : s₀.books.conn id = none ∨ ∀ r ∈ b.routes, r.peer = id → r.receiver = none) :
      Deed env s₀ event [] b
        { b with conn := fun k => if k = id then some est.conn_id else b.conn k }
  | test {l : List Nat} {b b' : Books} (h : TestDeed s₀ event l b b') : Deed env s₀ event l b b'
  /-- the monitor is switched on or off -/
  | watch {b : Books} (monitor : Bool) : Deed env s₀ event [] b { b with monitor }.kept

/-- The handling of an event, from books to books; `l` are the callers it takes on. -/
inductive Deeds [Crypto] (env : Env) (s₀ : Actor) (event : Event) :
    List Nat → Books → Books → Prop
  | refl (b : Books) : Deeds env s₀ event [] b b
  | tail {l m : List Nat} {a b c : Books} (h : Deeds env s₀ event l a b)
      (h' : Deed env s₀ event m b c) : Deeds env s₀ event (l ++ m) a c

namespace Deeds

variable [Crypto] {env : Env} {s₀ : Actor} {event : Event} {a b c : Books} {l m : List Nat}

theorem of_deed (h : Deed env s₀ event l a b) : Deeds env s₀ event l a b := (refl a).tail h

theorem trans (h : Deeds env s₀ event l a b) (h' : Deeds env s₀ event m b c) :
    Deeds env s₀ event (l ++ m) a c := by
  induction h' with
  | refl =>
      rw [List.append_nil]
      exact h
  | tail _ hdeed ih =>
      rw [← List.append_assoc]
      exact (ih h).tail hdeed

theorem follow (h : Deeds env s₀ event [] a b) (h' : Deeds env s₀ event l b c) :
    Deeds env s₀ event l a c := h.trans h'

theorem of_eq (h : b = a) : Deeds env s₀ event [] a b := by
  rw [h]
  exact refl a

/-- What holds of the books and survives every deed holds after the event. -/
theorem invariant {P : Books → Prop} (hP : ∀ l a b, Deed env s₀ event l a b → P a → P b)
    (h : Deeds env s₀ event l a b) (ha : P a) : P b := by
  induction h with
  | refl => exact ha
  | tail _ hdeed ih => exact hP _ _ _ hdeed (ih ha)

end Deeds

end SoundPush
