/-
`Pairing` -- how an untrusted connection becomes a trusted device
(`on_established`, the pairing handlers and the pairing half of `on_control` in
`sp-engine/src/actor.rs`).

Three flows share one record. With a code to compare, the user confirms here and
the peer confirms over the connection. With a QR code shown here, the peer's
`PairRequest` proves that it saw the code. With a QR code scanned here, the dial
was pinned to the code's device, and the peer's acceptance completes the pairing.
-/
import SoundPush.Engine.Sessions

set_option autoImplicit false

namespace SoundPush

/-- The connection behind a pairing. -/
def PendingPairing.established (p : PendingPairing) : Established :=
  { conn_id := p.conn_id, conn := p.conn, hello := p.hello, dialed := p.dialed }

namespace Actor

variable [Crypto]

def set_pairings (s : Actor) (pairings : Table DeviceId PendingPairing) : Actor :=
  { s with pairings }

/-! ## 1. A connection arrives -/

def new_pairing (env : Env) (est : Established) (qr_scanner : Bool) : PendingPairing :=
  { conn_id := est.conn_id, conn := est.conn, hello := est.hello, dialed := est.dialed
    local_confirmed := false, peer_confirmed := false, qr_scanner, created := env.now }

/-- Keep an authenticated connection whose peer is not trusted until both sides decide. The code
both users compare comes from the connection; without it pairing stops. -/
def begin_pairing (env : Env) (s : Actor) (id : DeviceId) (est : Established)
    (qr_scanner : Bool) : Actor :=
  if !est.conn.exporter then
    (s.close est.conn_id .Unspecified).error_notice env (.Internal "pairing code unavailable")
  else
    let s :=
      match s.pairings.get id with
      | some old => s.close old.conn_id .Superseded
      | none => s
    s.set_pairings (s.pairings.insert id (new_pairing env est qr_scanner))

/-- An untrusted peer connected. -/
def admit_untrusted (env : Env) (s : Actor) (id : DeviceId) (est : Established)
    (pair_dial : Option Bool) : Actor :=
  if est.dialed then
    match pair_dial with
    -- this device dialed to pair; the session already sent its PairRequest
    | some qr_scanner => s.begin_pairing env id est qr_scanner
    -- a dial that was not for pairing reached an untrusted key (e.g. the device was forgotten)
    | none => s.close est.conn_id .PermissionDenied
  else
    let (pairing_limiter, decision) :=
      s.pairing_limiter.check est.conn.remote_address.ip env.now
    let s := { s with pairing_limiter }
    match decision with
    | .Refused first =>
        let s := s.close est.conn_id .RateLimited
        if first then s.notice "notice.pairingRateLimited" else s
    -- wait for the peer's PairRequest (30 s)
    | .Allowed => { s with unpaired := s.unpaired.insert est.conn_id (est, env.now) }

def redeem_token (env : Env) (s : Actor) (est : Established) : Actor :=
  match est.hello.resume_token with
  | some token =>
      { s with resume := (s.resume.redeem est.conn.peer_public_key token env.now).1 }
  | none => s

def on_established (env : Env) (s : Actor) (est : Established) : Actor :=
  -- freed whatever the peer turns out to be: a pairing dial can reach an already trusted device
  let pair_dial := s.pair_dials.get est.conn_id
  let s := { s with
    dial_targets := s.dial_targets.erase est.conn_id
    pair_dials := s.pair_dials.erase est.conn_id }
  let key := est.conn.peer_public_key
  let id := key.device_id
  match s.trust.get id with
  | some device =>
      if device.blocked ∨ device.public_key ≠ key then s.close est.conn_id .PermissionDenied
      else
        -- looked at only after authentication and the trust check
        (s.redeem_token env est).promote_session env id est
  | none => s.admit_untrusted env id est pair_dial

/-! ## 2. Decisions -/

/-- The device that a completed pairing adds to the trust store. -/
def paired_device (env : Env) (id : DeviceId) (p : PendingPairing) : TrustedDevice :=
  { device_id := id
    public_key := p.conn.peer_public_key
    name := p.hello.device_name
    alias_name := none
    platform := p.hello.platform
    permissions := .default
    auto_connect := true
    blocked := false
    paired_at_unix := env.now_unix
    last_seen_unix := env.now_unix
    last_addresses := [p.conn.remote_address] }

def complete_pairing (env : Env) (s : Actor) (id : DeviceId) : Actor :=
  match s.pairings.get id with
  | none => s
  | some p =>
      let s := s.set_pairings (s.pairings.erase id)
      let s := { s with trust := s.trust.upsert (paired_device env id p) env.trust_saved }
      if !env.trust_saved then s.error_notice env .Storage
      else (s.notice "notice.pairingSuccess").promote_session env id p.established

/-- The pending pairing ends without trust. -/
def reject_pairing (s : Actor) (id : DeviceId) : Actor :=
  match s.pairings.get id with
  | none => s
  | some p => (s.set_pairings (s.pairings.erase id)).close p.conn_id .PermissionDenied

def confirm_pairing (env : Env) (s : Actor) (id : DeviceId) (accept : Bool) : Actor :=
  match s.pairings.get id with
  | none => s
  | some p =>
      let s := s.set_pairings (s.pairings.insert id { p with local_confirmed := accept })
      let s := s.emit (.Send p.conn_id (.PairResult accept))
      if !accept then s.reject_pairing id
      else if p.peer_confirmed then s.complete_pairing env id
      else s

/-- The peer's decision, on the connection that is pairing. -/
def on_pair_result (env : Env) (s : Actor) (id : DeviceId) (accepted : Bool) : Actor :=
  match s.pairings.get id with
  | none => s
  | some p =>
      if !accepted then (s.reject_pairing id).error_notice env .PairingRejected
      else
        let s := s.set_pairings (s.pairings.insert id { p with peer_confirmed := true })
        -- QR scanner: the displayer verified the proof and its key was pinned
        if p.qr_scanner ∨ p.local_confirmed then
          let s := if p.qr_scanner then s.emit (.Send p.conn_id (.PairResult true)) else s
          s.complete_pairing env id
        else s

/-- The peer proved that it saw the code shown here, which is used up with that. -/
def admit_proven (env : Env) (s : Actor) (est : Established) : Actor :=
  let id := est.conn.peer_public_key.device_id
  -- single-use QR secret
  let s := { s with qr := none }
  let s := s.begin_pairing env id est false
  let s := s.set_pairings <| s.pairings.modify id fun p =>
    { p with local_confirmed := true, peer_confirmed := true }
  (s.emit (.Send est.conn_id (.PairResult true))).complete_pairing env id

def on_pair_request (env : Env) (s : Actor) (est : Established) (req : PairRequest) : Actor :=
  match req.qr_proof, s.qr with
  | some proof, some qr =>
      if qr.is_expired env.now_unix then s.close est.conn_id .PermissionDenied
      else if !verify_pairing_proof qr.secret (.of_public_key est.conn.peer_public_key)
          s.identity.device_id proof then
        s.close est.conn_id .PermissionDenied
      else s.admit_proven env est
  -- code pairing is only accepted while pairing mode is open on this device
  | none, some _ => s.begin_pairing env est.conn.peer_public_key.device_id est false
  | _, none => s.close est.conn_id .PermissionDenied

end Actor

end SoundPush
