/-
`Pulse` -- muting the speakers and capturing one app's sound on a PulseAudio
server (`pulse.rs`).

Both work by moving streams to null sinks: "SoundPush Speakers" stands in for the
muted speakers, and each capture has a private sink whose monitor is recorded, with a
loopback that keeps it audible. The server here is what these operations read and
change: its sinks by name, its default, the playback streams and the modules that
SoundPush loaded. Restarting a sink (`restart_sink`) moves nothing and is left out, and
so are what a crash leaves behind (`remove_stale_app_captures`) and the devices lists.
-/
import Mathlib
import SoundPush.Engine.Settings
import SoundPush.Lib.Machine
import SoundPush.Lib.Table

set_option autoImplicit false

namespace SoundPush

namespace Pulse

/-! ## 1. Names -/

/-- `str::starts_with`. -/
def starts_with (s pre : String) : Bool := pre.toList.isPrefixOf s.toList

def SPEAKERS_SINK : String := "soundpush_speakers"

def APP_SINK_PREFIX : String := "soundpush_app_capture_"

/-- The private sink of the `n`-th capture of the process `pid`. -/
def app_sink (pid n : Nat) : String := APP_SINK_PREFIX ++ pid.repr ++ "_" ++ n.repr

/-- Sinks whose streams stay where they are: SoundPush's own. The speakers sink only stands in
for the user's speakers, so its streams do move. -/
def own_sink (name : String) : Bool := starts_with name "soundpush_" && name != SPEAKERS_SINK

def is_ascii_alphanumeric (c : Char) : Bool :=
  let n := c.toNat
  (48 ≤ n ∧ n ≤ 57) || (65 ≤ n ∧ n ≤ 90) || (97 ≤ n ∧ n ≤ 122)

/-- Sink names SoundPush writes into module arguments: nothing that needs quoting. -/
def plain_name (name : String) : Bool :=
  name != "" && name.toList.all fun c => is_ascii_alphanumeric c || "._-:@".toList.contains c

/-- The same app, ignoring case. -/
def same_app (a b : String) : Bool :=
  trim a.toList != [] &&
    (trim a.toList).map Char.toLower == (trim b.toList).map Char.toLower

/-! ## 2. The server -/

inductive AudioError where
  | NoDefaultDevice
  | DeviceLost
  deriving DecidableEq

/-- A playback stream. -/
structure SinkInput where
  index : Nat
  /-- the sink it plays on, by its name where the server gives its index -/
  sink : String
  owner_module : Option Nat
  /-- the connected client; `none` for streams a module plays -/
  client : Option Nat
  process_id : Option Nat
  app : String
  /-- one of SoundPush's loopback streams -/
  internal : Bool
  deriving DecidableEq

/-- Streams SoundPush never moves: its own playback and streams of modules. -/
def SinkInput.fixed (pid : Nat) (i : SinkInput) : Bool :=
  i.process_id == some pid || i.client.isNone || i.internal

/-- A module's name with what its argument says. -/
inductive Argument where
  /-- `module-null-sink`: the sink it makes, and the `soundpush.restore_sink` it keeps -/
  | null_sink (sink_name : String) (restore : Option String)
  /-- `module-loopback` without a `sink` argument -/
  | loopback (source : String)
  deriving DecidableEq

structure Module where
  index : Nat
  argument : Argument
  deriving DecidableEq

/-- The sink that a null-sink module makes. -/
def Module.null_sink_name (m : Module) : Option String :=
  match m.argument with
  | .null_sink sink_name _ => some sink_name
  | .loopback _ => none

/-- The sink name stored in the speakers sink's module arguments. -/
def restore_sink : Argument → Option String
  | .null_sink _ restore => restore.filter plain_name
  | .loopback _ => none

structure Server where
  default_sink : Option String
  /-- in the order the server lists them -/
  sinks : List String
  sink_inputs : List SinkInput
  /-- the modules SoundPush loaded -/
  modules : List Module
  next_module : Nat
  next_input : Nat
  deriving DecidableEq

namespace Server

variable (s : Server)

def set_default_sink (name : String) : Server := { s with default_sink := some name }

/-- Move every stream for which `choose` names a sink. -/
def relocate (choose : SinkInput → Option String) : Server :=
  { s with sink_inputs := s.sink_inputs.map fun i => { i with sink := (choose i).getD i.sink } }

def move_sink_input (index : Nat) (sink_name : String) : Server :=
  s.relocate fun i => if i.index = index then some sink_name else none

/-- `for input in sink_inputs` with at most one move each: the streams are listed once and moved
one after the other. -/
def move_each (choose : SinkInput → Option String) : Server :=
  s.sink_inputs.foldl (fun acc i =>
    (choose i).elim acc fun target => acc.move_sink_input i.index target) s

/-- A stream starts; the module that plays it may have been loaded by somebody else since. -/
def add_sink_input (i : SinkInput) : Server :=
  { s with
    sink_inputs := s.sink_inputs ++ [i]
    next_module := i.owner_module.elim s.next_module fun m => max s.next_module (m + 1)
    next_input := i.index + 1 }

def end_sink_inputs (ended : SinkInput → Bool) : Server :=
  { s with sink_inputs := s.sink_inputs.filter fun i => !ended i }

/-- `load_module("module-null-sink", ..)`: a new sink, listed last. -/
def load_null_sink (sink_name : String) (restore : Option String) : Server :=
  { s with
    sinks := s.sinks ++ [sink_name]
    modules := s.modules ++ [⟨s.next_module, .null_sink sink_name restore⟩]
    next_module := s.next_module + 1 }

/-- The stream that a loopback module plays. -/
def loopback_input (sink_name : String) : SinkInput where
  index := s.next_input
  sink := sink_name
  owner_module := some s.next_module
  client := none
  process_id := none
  app := ""
  internal := true

/-- `load_module("module-loopback", ..)`: its stream plays on the default sink. -/
def load_loopback (source : String) : Server :=
  { s with
    sink_inputs := s.sink_inputs ++ (s.default_sink.map s.loopback_input).toList
    modules := s.modules ++ [⟨s.next_module, .loopback source⟩]
    next_module := s.next_module + 1
    next_input := s.next_input + 1 }

/-- The server takes a sink away: another becomes the default if it was, and the streams on it
move to the default. -/
def remove_sink (name : String) : Server :=
  let sinks := s.sinks.filter (· ≠ name)
  let default_sink := if s.default_sink = some name then sinks.head? else s.default_sink
  { s with default_sink, sinks }.relocate fun i => if i.sink = name then default_sink else none

/-- `unload_module`: a null sink goes, or the loopback's stream ends. -/
def unload_module (index : Nat) : Server :=
  let rest := { s with modules := s.modules.filter fun m => m.index ≠ index }
  match (s.modules.find? fun m => m.index = index).map Module.argument with
  | some (.null_sink sink_name _) => rest.remove_sink sink_name
  | some (.loopback _) => rest.end_sink_inputs fun i => i.owner_module = some index
  | none => s

/-- The modules of the speakers sink. -/
def speakers_modules : List Module :=
  s.modules.filter fun m => m.null_sink_name = some SPEAKERS_SINK

end Server

/-! ## 3. Muting the speakers -/

/-- "Mute PC speakers": a null sink becomes the default and the default sink's streams move onto it
(SoundPush's own playback excepted). Muting again only re-applies the default. -/
def mute_speakers (pid : Nat) (s : Server) : Except AudioError Server :=
  if SPEAKERS_SINK ∈ s.sinks then
    if s.default_sink ≠ some SPEAKERS_SINK then .ok (s.set_default_sink SPEAKERS_SINK) else .ok s
  else
    match s.default_sink.bind fun name => s.sinks.find? (· = name) with
    | none => .error .NoDefaultDevice
    | some speakers =>
        let restore := if plain_name speakers then some speakers else none
        let s := (s.load_null_sink SPEAKERS_SINK restore).set_default_sink SPEAKERS_SINK
        .ok (s.move_each fun i =>
          if i.sink = speakers ∧ i.process_id ≠ some pid then some SPEAKERS_SINK else none)

/-- The sink to which [`unmute_speakers`] returns: the one kept in the module's argument, or
another real sink. -/
def unmute_target (s : Server) : Option String :=
  ((s.speakers_modules.findSome? fun m => restore_sink m.argument).filter
      fun name => s.sinks.contains name).or
    (s.sinks.find? fun name => !starts_with name "soundpush_")

/-- Undo `mute_speakers`. Does nothing when the speakers were not muted this way. -/
def unmute_speakers (s : Server) : Server :=
  let modules := s.speakers_modules
  if modules.isEmpty then s else
    let restored :=
      match unmute_target s with
      | none => s
      | some target =>
          let s := if s.default_sink = some SPEAKERS_SINK then s.set_default_sink target else s
          if SPEAKERS_SINK ∈ s.sinks then
            s.move_each fun i => if i.sink = SPEAKERS_SINK then some target else none
          else s
    modules.foldl (fun s m => s.unload_module m.index) restored

/-! ## 4. Capturing one app's sound -/

/-- Per-app capture: what one app plays, or everything except one app. -/
structure AppRouting where
  process : String
  exclude : Bool
  sink : String
  sink_module : Nat
  loopback_module : Nat
  /-- the default sink when capture started: where the loopback first played -/
  playback : Option String
  /-- where each moved stream played before -/
  moved : Table Nat String

/-- `AppRouting::open`, as the `n`-th capture of the process. -/
def AppRouting.open (pid n : Nat) (process : String) (exclude : Bool) (s : Server) :
    AppRouting × Server :=
  let sink := app_sink pid n
  let made := s.load_null_sink sink none
  ({ process, exclude, sink,
     sink_module := s.next_module
     loopback_module := made.next_module
     playback := s.default_sink
     moved := ∅ },
   made.load_loopback sink)

/-- The streams that `route` moves, of those that it listed. -/
def AppRouting.takes (r : AppRouting) (pid : Nat) (sinks : List String) (i : SinkInput) : Bool :=
  !(i.sink == r.sink || i.fixed pid || same_app i.app r.process == r.exclude) &&
    sinks.contains i.sink && !own_sink i.sink

/-- Move the streams to capture that are not on the capture sink yet. -/
def AppRouting.route (r : AppRouting) (pid : Nat) (s : Server) :
    Except AudioError (AppRouting × Server) :=
  if r.sink ∈ s.sinks then
    let moved := r.moved.retain fun index _ => s.sink_inputs.any fun i => i.index = index
    .ok (s.sink_inputs.foldl (fun acc i =>
      if r.takes pid s.sinks i then
        ({ acc.1 with moved := acc.1.moved.insert i.index i.sink },
          acc.2.move_sink_input i.index r.sink)
      else acc) ({ r with moved }, s))
  else .error .DeviceLost

/-- The sinks that a stream can go back to (`exists`). -/
def AppRouting.usable (r : AppRouting) (s : Server) (name : String) : Bool :=
  name != r.sink && s.sinks.contains name

/-- Where the streams on the capture sink go that have no sink of their own to go back to: to
wherever the loopback plays now, else to the default. -/
def AppRouting.fallback (r : AppRouting) (s : Server) : Option String :=
  ((((s.sink_inputs.find? fun i => i.owner_module = some r.loopback_module).map
      SinkInput.sink).filter fun name => s.sinks.contains name).filter (r.usable s)).or
    (s.default_sink.filter (r.usable s))

/-- Where a stream on the capture sink goes. Streams from the speakers the loopback started on
(`playback`) follow the loopback. -/
def AppRouting.target (r : AppRouting) (s : Server) (i : SinkInput) : Option String :=
  ((r.moved.get i.index).filter fun name =>
    r.playback ≠ some name && r.usable s name).or (r.fallback s)

/-- Move every stream off the capture sink, back to the sink it came from. -/
def release_streams (r : AppRouting) (s : Server) : Server :=
  if r.sink ∈ s.sinks then
    s.move_each fun i => if i.sink = r.sink then r.target s i else none
  else s

/-- Put the streams back and remove the modules. -/
def AppRouting.close (r : AppRouting) (s : Server) : Server :=
  ((release_streams r s).unload_module r.loopback_module).unload_module r.sink_module

/-! ## 5. The server with its user -/

/-- A sink that muting or a capture of this process makes. -/
def Temporary (pid : Nat) (name : String) : Prop :=
  name = SPEAKERS_SINK ∨ ∃ n, name = app_sink pid n

/-- The sound server, the captures that are open and the user's last choice about the speakers. -/
structure World where
  server : Server
  captures : Table Nat AppRouting
  /-- the counter `NEXT` -/
  next : Nat
  muted : Bool

inductive Event where
  | mute
  | unmute
  | open (process : String) (exclude : Bool)
  | route (n : Nat)
  | close (n : Nat)
  /-- a stream of an app, or of somebody else's module -/
  | appear (i : SinkInput)
  /-- a stream ends -/
  | ended (index : Nat)

namespace World

variable (pid : Nat)

/-- An event: an operation of SoundPush, or an app's. An operation that fails changes nothing. -/
def step (w : World) : Event → World
  | .mute =>
      match mute_speakers pid w.server with
      | .ok server => { w with server, muted := true }
      | .error _ => w
  | .unmute => { w with server := unmute_speakers w.server, muted := false }
  | .open process exclude =>
      let (r, server) := AppRouting.open pid w.next process exclude w.server
      { w with server, captures := w.captures.insert w.next r, next := w.next + 1 }
  | .route n =>
      match w.captures.get n with
      | none => w
      | some r =>
          match r.route pid w.server with
          | .ok (r, server) => { w with server, captures := w.captures.insert n r }
          | .error _ => w
  | .close n =>
      match w.captures.get n with
      | none => w
      | some r => { w with server := r.close w.server, captures := w.captures.erase n }
  | .appear i => { w with server := w.server.add_sink_input i }
  | .ended index => { w with server := w.server.end_sink_inputs fun i => i.index = index }

/-- A stream appears on a sink that exists, under an index that no stream had before, and not from
a module that SoundPush loaded. -/
def enabled (w : World) : Event → Prop
  | .appear i =>
      i.sink ∈ w.server.sinks ∧ w.server.next_input ≤ i.index ∧
        ∀ m ∈ w.server.modules, i.owner_module ≠ some m.index
  | _ => True

/-- A real sink is the default, and SoundPush has neither muted nor captured anything. -/
structure Fresh (w : World) : Prop where
  default : ∃ d ∈ w.server.sinks,
    w.server.default_sink = some d ∧ starts_with d "soundpush_" = false
  sinks : ∀ d ∈ w.server.sinks, ¬ Temporary pid d
  inputs : ∀ i ∈ w.server.sink_inputs, i.sink ∈ w.server.sinks ∧ i.index < w.server.next_input
  indices : (w.server.sink_inputs.map SinkInput.index).Nodup
  owners : ∀ i ∈ w.server.sink_inputs, ∀ m, i.owner_module = some m → m < w.server.next_module
  modules : w.server.modules = []
  captures : w.captures = ∅
  muted : w.muted = false

/-- SoundPush on a PulseAudio server where nobody else moves streams or changes the default. -/
def machine : Machine World Event where
  init := Fresh pid
  enabled := enabled
  step := step pid

end World

end Pulse

end SoundPush
