/-
`Limits` -- the small clocks the engine keeps beside its state: resume tokens
(`resume.rs`), the pairing rate limit (`pairing_limit.rs`), reconnect backoff and
flap detection (`reconnect.rs`), the lossless fallback (`health.rs`) and the
noise-suppression supervisor (`denoise.rs`).

Each is a value and the functions that feed it. Instants are milliseconds on one
clock; random values come from the caller.

None of them knows anything of the engine. The engine keeps one of each (or one a device, one a
route) and calls it where the source does; what each of them promises over any sequence of calls
is proved in a module of its own, from the functions here.
-/
import SoundPush.Security.Trust
import Mathlib.Algebra.Order.Ring.Rat

set_option autoImplicit false

namespace SoundPush

/-- A moment on the engine's clock, in milliseconds. -/
abbrev Instant := Nat

/-! ## 1. Resume tokens

A token lets a device that lost its connection go on without a prompt. It is bound to the key of the
device it was given to, used once, and forgotten after ten minutes. -/

/-- Tokens are this many bytes, here and at the peer. -/
def TOKEN_LEN : Nat := 32
/-- A token may be redeemed this long. -/
def TOKEN_LIFETIME_SECS : Nat := 600
/-- The same in milliseconds. -/
def TOKEN_LIFETIME : Nat := TOKEN_LIFETIME_SECS * 1000
/-- How long a redeemed token lets paused routes restart without prompting again. -/
def RESUME_GRANT : Nat := 30000
/-- As many tokens are kept in each direction. -/
def MAX_TOKENS : Nat := 64

/-- A token that a peer may present here. -/
structure Issued where
  peer_key : PublicKey
  expires : Instant
  deriving DecidableEq

/-- A token to present to a peer. -/
structure Held where
  token : Bytes
  expires : Instant
  deriving DecidableEq

/-- The tokens of both directions, and what has come of redeemed ones. -/
structure ResumeTokens where
  /-- tokens this device issued, by token value -/
  issued : Table Bytes Issued
  /-- tokens peers issued to this device -/
  held : Table DeviceId Held
  /-- peers whose last connection resumed a session, until the grant expires -/
  grants : Table DeviceId Instant

namespace ResumeTokens

def default : ResumeTokens := ⟨∅, ∅, ∅⟩

/-- What has expired is dropped. -/
def prune (r : ResumeTokens) (now : Instant) : ResumeTokens :=
  { issued := r.issued.retain fun _ i => now < i.expires
    held := r.held.retain fun _ h => now < h.expires
    grants := r.grants.retain fun _ until_ => now < until_ }

/-- Issue the fresh `token` for `peer_key`, replacing any earlier one for the same peer. -/
def issue (r : ResumeTokens) (peer_key : PublicKey) (token : Bytes) (now : Instant) :
    ResumeTokens :=
  let r := r.prune now
  let issued := r.issued.retain fun _ i => i.peer_key ≠ peer_key
  let issued :=
    if MAX_TOKENS ≤ issued.pairs.length then
      match issued.min_by_key Issued.expires with
      | some oldest => issued.erase oldest
      | none => issued
    else issued
  { r with issued := issued.insert token { peer_key, expires := now + TOKEN_LIFETIME } }

section
variable [Crypto]

/-- Check a token presented by an authenticated peer. It is consumed either way. -/
def redeem (r : ResumeTokens) (peer_key : PublicKey) (token : Bytes) (now : Instant) :
    ResumeTokens × Bool :=
  if token.length ≠ TOKEN_LEN then (r, false)
  else
    match r.issued.get token with
    | none => (r, false)
    | some issued =>
        let r := { r with issued := r.issued.erase token }
        if issued.peer_key = peer_key ∧ now < issued.expires then
          ({ r with grants := r.grants.insert peer_key.device_id (now + RESUME_GRANT) }, true)
        else (r, false)

/-- Drop every token and grant for a peer. -/
def forget (r : ResumeTokens) (peer : DeviceId) : ResumeTokens :=
  { issued := r.issued.retain fun _ i => i.peer_key.device_id ≠ peer
    held := r.held.erase peer
    grants := r.grants.erase peer }

end

/-- Store a ticket received from a trusted peer. -/
def hold (r : ResumeTokens) (peer : DeviceId) (token : Bytes) (lifetime_secs : Nat)
    (now : Instant) : ResumeTokens :=
  if token.length ≠ TOKEN_LEN then r
  else if !r.held.has peer && MAX_TOKENS ≤ r.held.pairs.length then r
  else
    let lifetime := min (lifetime_secs * 1000) TOKEN_LIFETIME
    { r with held := r.held.insert peer { token, expires := now + lifetime } }

/-- Token to present to `peer` on a new connection. -/
def held_for (r : ResumeTokens) (peer : DeviceId) (now : Instant) : Option Bytes :=
  ((r.held.get peer).filter fun h => now < h.expires).map Held.token

/-- True while `peer`'s last connection resumed its session. -/
def resumed_recently (r : ResumeTokens) (peer : DeviceId) (now : Instant) : Bool :=
  match r.grants.get peer with
  | some until_ => now < until_
  | none => false

end ResumeTokens

/-! ## 2. Pairing rate limit

Connections from unknown devices are counted by address. The table is bounded too: an address that
comes when it is full takes the place of the ones that have been quiet, or of the quietest. -/

/-- An address may try this often within a window. -/
def ATTEMPTS_PER_WINDOW : Nat := 5
/-- How long an attempt counts. -/
def PAIRING_WINDOW : Nat := 60000
/-- As many addresses are remembered. -/
def MAX_SOURCES : Nat := 256

/-- What the limit says of an attempt. -/
inductive Decision where
  | Allowed
  /-- over the limit; `first` on the first refusal since the address was last allowed -/
  | Refused (first : Bool)
  deriving DecidableEq, Repr

/-- What is remembered of an address. -/
structure Source where
  /-- oldest first -/
  attempts : List Instant
  refused_reported : Bool
  last_seen : Instant
  deriving DecidableEq

/-- The addresses that have tried. -/
structure PairingLimiter where
  sources : Table IpAddr Source

namespace PairingLimiter

def default : PairingLimiter := ⟨∅⟩

/-- Make room for one more address. -/
def make_room (sources : Table IpAddr Source) (now : Instant) : Table IpAddr Source :=
  let sources := sources.retain fun _ s =>
    match s.attempts.getLast? with
    | some t => now - t < PAIRING_WINDOW
    | none => false
  if MAX_SOURCES ≤ sources.pairs.length then
    match sources.min_by_key Source.last_seen with
    | some oldest => sources.erase oldest
    | none => sources
  else sources

/-- Count an attempt from `ip`. Refused attempts do not count against the window. -/
def check (l : PairingLimiter) (ip : IpAddr) (now : Instant) : PairingLimiter × Decision :=
  let ip := ip.to_canonical
  let sources :=
    if !l.sources.has ip && MAX_SOURCES ≤ l.sources.pairs.length then make_room l.sources now
    else l.sources
  let source :=
    (sources.get ip).getD { attempts := [], refused_reported := false, last_seen := now }
  let attempts := source.attempts.dropWhile fun t => PAIRING_WINDOW ≤ now - t
  if ATTEMPTS_PER_WINDOW ≤ attempts.length then
    ({ sources := sources.insert ip { attempts, refused_reported := true, last_seen := now } },
      .Refused (!source.refused_reported))
  else
    ({ sources := sources.insert ip
        { attempts := attempts ++ [now], refused_reported := false, last_seen := now } },
      .Allowed)

end PairingLimiter

/-! ## 3. Reconnecting

How long to wait before the next dial, and when a connection that keeps dropping is called
unstable. -/

/-- Exponential backoff with full jitter, a fast phase, then low-frequency probing. -/
structure Backoff where
  attempt : Nat
  deriving DecidableEq, Repr

namespace Backoff

def default : Backoff := ⟨0⟩

/-- The first delay. -/
def base : Nat := 500
/-- The longest delay of the fast phase. -/
def cap : Nat := 8000
/-- Attempts of the fast phase. -/
def fast_attempts : Nat := 10
/-- The delay after it. -/
def slow_interval : Nat := 30000

/-- Delay before the next attempt; `rand` picks from the jitter range. -/
def next_delay (b : Backoff) (rand : Nat) : Backoff × Nat :=
  let attempt := b.attempt + 1
  if fast_attempts < attempt then (⟨attempt⟩, slow_interval)
  else
    let max := min (base * 2 ^ min (attempt - 1) 16) cap
    (⟨attempt⟩, max / 2 + rand % (max - max / 2 + 1))

/-- The device was reached, or was seen on the network. -/
def reset (_ : Backoff) : Backoff := ⟨0⟩

end Backoff

/-- Detects connection flapping: the reconnects of the last window, oldest first. -/
structure FlapDetector where
  events : List Instant
  deriving DecidableEq, Repr

namespace FlapDetector

/-- Drops within this time are counted together. -/
def WINDOW : Nat := 120000
/-- More than this many of them are flapping. -/
def LIMIT : Nat := 5

def default : FlapDetector := ⟨[]⟩

/-- Record a reconnect; the flag says there were more than `LIMIT` within `WINDOW`. -/
def record (f : FlapDetector) (now : Instant) : FlapDetector × Bool :=
  let events := (f.events.filter fun t => now - t < WINDOW) ++ [now]
  let events := if LIMIT + 1 < events.length then events.tail else events
  (⟨events⟩, LIMIT < events.length)

end FlapDetector

/-! ## 4. Health

Two switches that look at a number once a second. Both need several bad seconds, or one bad count,
to switch, and more good ones to switch back. -/

/-- An `f64` as far as comparing it with a finite number goes. -/
inductive F64 where
  | nan
  | neg_infinity
  | number (value : ℚ)
  | infinity
  deriving DecidableEq, Repr

namespace F64

/-- `x > bound`; of NaN it is false, as every comparison is. -/
def above (x : F64) (bound : ℚ) : Bool :=
  match x with
  | nan => false
  | neg_infinity => false
  | number value => bound < value
  | infinity => true

/-- `x < bound`. -/
def below (x : F64) (bound : ℚ) : Bool :=
  match x with
  | nan => false
  | neg_infinity => true
  | number value => value < bound
  | infinity => false

end F64

/-- The largest `u32`, where the counters of seconds stop. -/
def SECS_MAX : Nat := 2 ^ 32 - 1

/-- A counter of seconds in a row, one second later. -/
def count_secs (counts : Bool) (secs : Nat) : Nat :=
  if counts then min (secs + 1) SECS_MAX else 0

/-- More loss than this makes a second bad. -/
def FALLBACK_LOSS_PCT : ℚ := 2
/-- As many bad seconds in a row switch to Opus. -/
def FALLBACK_SECS : Nat := 5
/-- Less loss than this makes a second good. -/
def FALLBACK_RECOVER_LOSS_PCT : ℚ := 1 / 2
/-- As many good seconds in a row switch back. -/
def FALLBACK_RECOVER_SECS : Nat := 15

/-- Whether a lossless route is currently held on Opus because the link keeps losing packets. -/
structure QualityFallback where
  active : Bool
  bad_secs : Nat
  good_secs : Nat
  deriving DecidableEq, Repr

namespace QualityFallback

def default : QualityFallback := ⟨false, 0, 0⟩

/-- Feed one second of measured loss; the flag says whether the fallback switched. -/
def update_f64 (f : QualityFallback) (loss_pct : F64) : QualityFallback × Bool :=
  let bad_secs := count_secs (loss_pct.above FALLBACK_LOSS_PCT) f.bad_secs
  let good_secs := count_secs (loss_pct.below FALLBACK_RECOVER_LOSS_PCT) f.good_secs
  let next : Bool :=
    if f.active then good_secs < FALLBACK_RECOVER_SECS else FALLBACK_SECS ≤ bad_secs
  let changed : Bool := next ≠ f.active
  if changed then (⟨next, 0, 0⟩, changed) else (⟨next, bad_secs, good_secs⟩, changed)

/-- The loss of a route is a number. -/
def update (f : QualityFallback) (loss_pct : ℚ) : QualityFallback × Bool :=
  f.update_f64 (.number loss_pct)

end QualityFallback

/-- As many overruns within a step suspend noise suppression. -/
def OVERRUN_LIMIT : Nat := 10
/-- As many steps without them resume it. -/
def RECOVERY_STEPS : Nat := 20

/-- What a step of the supervisor changed. -/
inductive DenoiseChange where
  | Suspended
  | Resumed
  deriving DecidableEq, Repr

/-- Switches noise suppression off while the machine cannot keep up. -/
structure DenoiseSupervisor where
  /-- total capture overruns seen at the previous step, once one has been seen -/
  overruns : Option Nat
  healthy_steps : Nat
  suspended : Bool
  deriving DecidableEq, Repr

namespace DenoiseSupervisor

def default : DenoiseSupervisor := ⟨none, 0, false⟩

def reset (_ : DenoiseSupervisor) : DenoiseSupervisor := default

/-- One step; `overruns` is the running total, `enabled` the user's setting. -/
def step (d : DenoiseSupervisor) (overruns : Nat) (enabled : Bool) :
    DenoiseSupervisor × Option DenoiseChange :=
  let missed := overruns - d.overruns.getD overruns
  let d := { d with overruns := some overruns }
  if !enabled then ({ d.reset with overruns := some overruns }, none)
  else if OVERRUN_LIMIT ≤ missed then
    ({ d with healthy_steps := 0, suspended := true },
      if d.suspended then none else some .Suspended)
  else if !d.suspended then (d, none)
  else if d.healthy_steps + 1 < RECOVERY_STEPS then
    ({ d with healthy_steps := d.healthy_steps + 1 }, none)
  else ({ d with healthy_steps := 0, suspended := false }, some .Resumed)

end DenoiseSupervisor

end SoundPush
