/-
`Dispatch` -- what each event does to the board.

The rest of the handlers, from sessions to the tick and the user's commands, and
the theorem they lead to: `handle` is a sequence of acts, and asks a device for no
more routes than `Actor.asks` allows. A new session is kept apart, since the routes
that a resume asks for depend on those that were paused.

How it is put together. For most events the result is a chain of acts from the board that the
event met. Two kinds of event need more. One that brings a session is a chain of acts up to the
resume, and the resume itself as a function (`Resumed`); the handlers that may bring one
(`Handled`) are those of pairing and of connections. One that settles profiles may ask a device
again for every stream it has, so the chain comes with a bound for each device, counted over the
loops of the handler. The last section forgets both and leaves acts alone, which is what the
invariants of runs are proved from.

As before `s₀` is the state that the event met and `s` the one a handler finds.
-/
import SoundPush.Engine.Handling
import SoundPush.Engine.Turns

set_option autoImplicit false

namespace SoundPush

namespace Actor

/-! ## 1. What leaves the board as it is

Network tests, dials, timers and what a peer is told. None of it is on the board, so that the
handlers that mix it with routes can forget about it by the simp set. -/

section
variable (env : Env) (s : Actor)

@[simp] theorem set_net_tests_board (tests : Table DeviceId NetTest) :
    (s.set_net_tests tests).board = s.board := rfl

/-- Any number of answers, by induction on who waits. -/
theorem answer_all_board (replies : List Reply) (result : Except EngineError Answer) :
    (replies.foldl (fun s r => s.answer r result) s).board = s.board := by
  induction replies generalizing s with
  | nil => rfl
  | cons r replies ih =>
      rw [List.foldl_cons, ih]
      exact s.answer_board r result

/-- A test that ends stops a measurement, answers its callers and takes its probe sink away. -/
@[simp] theorem finish_network_test_board (peer : DeviceId) (result : Except EngineError Nat) :
    (s.finish_network_test peer result).board = s.board := by
  have habort (id : UInt32) : (s.emit (.AbortTest id)).board = s.board := s.emit_board rfl rfl rfl
  unfold finish_network_test
  split
  · rfl
  · dsimp only
    split
    · rw [emit_send_board, emit_board _ rfl rfl rfl, set_net_tests_board, answer_all_board,
        apply_ite Actor.board, habort, ite_self]
    · rw [set_net_tests_board, answer_all_board, apply_ite Actor.board, habort, ite_self]

@[simp] theorem end_network_test_board (peer : DeviceId) (error : EngineError) :
    (s.end_network_test peer error).board = s.board := by
  unfold end_network_test
  split
  · rw [apply_ite Actor.board, finish_network_test_board, ite_self]
  · rfl

@[simp] theorem forget_network_test_board (peer : DeviceId) :
    (s.forget_network_test peer).board = s.board := s.end_network_test_board peer _

@[simp] theorem start_network_test_board (peer : DeviceId) (reply : Reply) :
    (s.start_network_test env peer reply).board = s.board := by
  unfold start_network_test
  split
  · exact s.answer_board _ _
  · split
    · exact s.answer_board _ _
    · split
      · rfl
      · dsimp only
        rw [set_net_tests_board, emit_send_board]
        rfl

@[simp] theorem on_net_test_ready_board (peer : DeviceId) (ready : NetTestReady) :
    (s.on_net_test_ready peer ready).board = s.board := by
  unfold on_net_test_ready
  split
  · rfl
  · split
    · split
      · rfl
      · split
        · exact s.finish_network_test_board peer _
        · split
          · rfl
          · dsimp only
            rw [set_net_tests_board, emit_board _ rfl rfl rfl, emit_board _ rfl rfl rfl]
    · rfl

@[simp] theorem on_net_test_finished_board (peer : DeviceId) (test_id : UInt32) (report : Nat) :
    (s.on_net_test_finished peer test_id report).board = s.board := by
  unfold on_net_test_finished
  split
  · rw [apply_ite Actor.board, finish_network_test_board, ite_self]
  · rfl

@[simp] theorem on_net_test_start_board (peer : DeviceId) (start : NetTestStart) :
    (s.on_net_test_start env peer start).board = s.board := by
  unfold on_net_test_start
  split
  · rfl
  · dsimp only
    rw [emit_send_board, emit_board _ rfl rfl rfl]

@[simp] theorem on_net_test_stop_board (peer : DeviceId) (test_id : UInt32) :
    (s.on_net_test_stop env peer test_id).board = s.board := by
  unfold on_net_test_stop
  split
  · rfl
  · exact s.emit_board rfl rfl rfl

@[simp] theorem tick_network_tests_board : (s.tick_network_tests env).board = s.board := by
  unfold tick_network_tests
  dsimp only
  generalize s.net_tests.pairs.filter _ = expired
  induction expired generalizing s with
  | nil => rfl
  | cons e expired ih =>
      rw [List.foldl_cons, ih]
      exact s.finish_network_test_board e.1 _

@[simp] theorem cancel_dial_board (id : DeviceId) : (s.cancel_dial id).board = s.board := by
  unfold cancel_dial
  dsimp only
  split
  · exact s.emit_board rfl rfl rfl
  · rfl

@[simp] theorem forget_dial_board (id : DeviceId) : (s.forget_dial id).board = s.board :=
  s.cancel_dial_board id

@[simp] theorem dial_board (pinned : Option DeviceId) (pair : Option PairRequest)
    (target : Option DeviceId) : (s.dial pinned pair target).1.board = s.board := by
  unfold dial
  dsimp only
  split <;> rfl

/-- Whichever of its guards stops it: not trusted, blocked or connected already, a dial in
flight or not due, no address. -/
@[simp] theorem try_dial_trusted_board (id : DeviceId) :
    (s.try_dial_trusted env id).board = s.board := by
  unfold try_dial_trusted
  split
  · rfl
  · dsimp only
    split
    · rfl
    · split
      · rfl
      · split
        · rfl
        · rw [dial_board]
          rfl

@[simp] theorem pair_dial_board (pinned : Option DeviceId) (pair : PairRequest)
    (target : Option DeviceId) (qr : Bool) :
    (s.pair_dial pinned pair target qr).board = s.board :=
  s.dial_board pinned (some pair) target

@[simp] theorem pair_by_code_board (found : Option EngineError) (caller : Nat) :
    (s.pair_by_code found caller).board = s.board := by
  unfold pair_by_code
  split
  · exact s.answer_board _ _
  · rw [answer_board, pair_dial_board]

@[simp] theorem on_dial_failed_board (conn_id : Nat) (target : Option DeviceId)
    (error : EngineError) : (s.on_dial_failed env conn_id target error).board = s.board := by
  unfold on_dial_failed
  dsimp only
  split
  · rfl
  · exact error_notice_board env _ _

@[simp] theorem on_handshake_failed_board (conn_id : Nat) (incompatible : Bool) :
    (s.on_handshake_failed env conn_id incompatible).board = s.board := by
  unfold on_handshake_failed
  dsimp only
  split <;> split <;> first | exact error_notice_board env _ _ | rfl

@[simp] theorem expire_requests_board : (s.expire_requests env).board = s.board := by
  unfold expire_requests
  generalize s.requests.pairs.filter _ = expired
  induction expired generalizing s with
  | nil => rfl
  | cons e expired ih =>
      rw [List.foldl_cons, ih, reject_board]
      rfl

@[simp] theorem announce_capabilities_board [Crypto] :
    (s.announce_capabilities env).board = s.board := by
  have hrun (hello : Hello) (entries : List (DeviceId × Session)) (s : Actor) :
      (entries.foldl (fun s e => s.emit (.Send e.2.conn_id (.Hello hello))) s).board = s.board := by
    induction entries generalizing s with
    | nil => rfl
    | cons e entries ih => rw [List.foldl_cons, ih, emit_send_board]
  unfold announce_capabilities
  dsimp only
  split
  · rfl
  · exact hrun _ _ _

@[simp] theorem expire_debug_logging_board : (s.expire_debug_logging env).board = s.board := by
  have hfields (c : Settings) (now : Nat) :
      (c.expire_debug_logging now).1.capture = c.capture ∧
        (c.expire_debug_logging now).1.max_receivers = c.max_receivers ∧
        (c.expire_debug_logging now).1.desktop = c.desktop := by
    unfold Settings.expire_debug_logging
    split <;> exact ⟨rfl, rfl, rfl⟩
  obtain ⟨hc, hm, hd⟩ := hfields s.settings env.now_unix
  unfold expire_debug_logging
  split
  · next settings h =>
      rw [h] at hc hm hd
      rw [save_settings_board]
      exact s.set_settings_board (congrArg _ hc) hm (congrArg _ hd)
  · rfl

@[simp] theorem expire_qr_board : (s.expire_qr env).board = s.board := by
  unfold expire_qr
  split <;> rfl

@[simp] theorem auto_connect_board : (s.auto_connect env).board = s.board := by
  unfold auto_connect
  split
  · rfl
  · dsimp only
    have hrun (candidates : List TrustedDevice) (s : Actor) :
        (candidates.foldl (fun s d => s.try_dial_trusted env d.device_id) s).board = s.board := by
      induction candidates generalizing s with
      | nil => rfl
      | cons d candidates ih => rw [List.foldl_cons, ih, try_dial_trusted_board]
    exact hrun _ _

@[simp] theorem set_peer_speakers_muted_board (id : DeviceId) (muted : Bool) :
    (s.set_peer_speakers_muted id muted).board = s.board := by
  unfold set_peer_speakers_muted
  split
  · rfl
  · exact s.send_to_board _ _

end

/-! ## 2. Messages, volumes and mutes

A peer adapts what it receives and turns its own volume; both change routes that stay alike. A mute
is an act of its own, with the permission that was checked. -/

/-- Adapting the bitrate to the loss leaves the route alike. -/
theorem adapt_bitrate_alike (r : Route) : r.Alike (adapt_bitrate r) := by
  unfold adapt_bitrate
  split
  · next c p hc hp =>
      have hcontrols (c' : SenderControls) (hm : c'.muted = c.muted) (n : Nat) :
          r.Alike { r with sender_controls := some c', stable_secs := n } := by
        refine ⟨rfl, rfl, rfl, rfl, rfl, fun h => h, rfl, rfl, rfl, rfl, rfl, ?_, rfl, fun h => h⟩
        rw [hc, Option.map_some, Option.map_some, hm]
      split
      · exact .refl r
      · split
        · refine hcontrols _ ?_ _
          rfl
        · split
          · split
            · refine hcontrols _ ?_ _
              rfl
            · exact ⟨rfl, rfl, rfl, rfl, rfl, fun h => h, rfl, rfl, rfl, rfl, rfl, rfl, rfl,
              fun h => h⟩
          · exact .refl r
  · exact .refl r

/-- So does adapting the redundancy. -/
theorem adapt_redundancy_alike (r : Route) : r.Alike (adapt_redundancy r) := by
  unfold adapt_redundancy
  split
  · next c p hc hp =>
      have hcontrols (c' : SenderControls) (hm : c'.muted = c.muted) (n : Nat) :
          r.Alike { r with sender_controls := some c', clean_secs := n } := by
        refine ⟨rfl, rfl, rfl, rfl, rfl, fun h => h, rfl, rfl, rfl, rfl, rfl, ?_, rfl, fun h => h⟩
        rw [hc, Option.map_some, Option.map_some, hm]
      split
      · refine hcontrols _ ?_ _
        rfl
      · split
        · dsimp only
          refine hcontrols _ ?_ _
          split <;> rfl
        · exact .refl r
  · exact .refl r

/-- A volume is no mute. -/
theorem alike_volume (r : Route) (volume : ℚ) :
    r.Alike { r with
      volume
      receiver_controls := r.receiver_controls.map fun c => { c with volume } } := by
  refine ⟨rfl, rfl, rfl, rfl, rfl, fun h => h, rfl, rfl, rfl, rfl, rfl, rfl, ?_, fun h => h⟩
  cases r.receiver_controls <;> rfl

variable [Crypto]

section
variable (env : Env) (s₀ : Actor) (event : Event) (s : Actor)

theorem on_remote_volume_acts (peer : DeviceId) (v : VolumeSet) :
    Acts env s₀ event [] s.board (s.on_remote_volume peer v).board := by
  unfold on_remote_volume
  exact acts_ite (.refl _) (acts_tend (alike_modify_first fun r _ => alike_volume r _))

/-- A peer's mute, on the route it names or on the speakers of this device. Both ask that the
user allows the peer to control anything. -/
theorem on_remote_mute_acts {conn_id : Nat} {peer : DeviceId} (m : MuteSet)
    (hi : s.conn_index.get conn_id = some peer) :
    Acts env s (.Control conn_id (.MuteSet m)) [] s.board (s.on_remote_mute env peer m).board := by
  unfold on_remote_mute
  split
  · exact .refl _
  · next hcontrol =>
      have hcontrol : s.peer_may_control peer = true := by simpa using hcontrol
      split
      · next ht =>
          dsimp only
          rw [apply_ite Actor.board, notice_board, ite_self, emit_speakers_board]
          exact .of_act (.hear conn_id peer m rfl rfl hi hcontrol ht)
      · next ht => exact .of_act (.hush conn_id peer m rfl rfl hi hcontrol ht)

/-- A report about a stream adapts its bitrate and its redundancy. -/
theorem on_stats_acts (peer : DeviceId) (stats : StatsReport) :
    Acts env s₀ event [] s.board (s.on_stats peer stats).board := by
  unfold on_stats
  dsimp only
  refine acts_tend (alike_modify_first fun r _ => ?_)
  have hloss : r.Alike { r with loss_pct := stats.loss_pct } :=
    ⟨rfl, rfl, rfl, rfl, rfl, fun h => h, rfl, rfl, rfl, rfl, rfl, rfl, rfl, fun h => h⟩
  have hbitrate := hloss.trans (adapt_bitrate_alike { r with loss_pct := stats.loss_pct })
  split
  · exact hbitrate.trans (adapt_redundancy_alike _)
  · exact hbitrate

/-- A hello in the middle of a session updates what the peer can do, if it is the device of the
session. -/
theorem on_hello_acts {conn_id : Nat} (peer : DeviceId) (hello : Hello) :
    Acts env s₀ (.Control conn_id (.Hello hello)) [] s.board
      (s.on_hello peer conn_id hello).board := by
  unfold on_hello
  split
  · next session hs =>
      split
      · exact .of_act (.greet conn_id hello peer session _ rfl hs rfl rfl)
      · exact .refl _
  · exact .refl _

omit [Crypto] in
@[simp] theorem on_session_ticket_board (peer : DeviceId) (conn_id : Nat) (ticket : SessionTicket) :
    (s.on_session_ticket env peer conn_id ticket).board = s.board := by
  unfold on_session_ticket
  split <;> rfl

theorem set_route_volume_acts (key : RouteKey) (volume : ℚ) :
    Acts env s₀ event [] s.board (s.set_route_volume key volume).board := by
  unfold set_route_volume
  dsimp only
  split
  · exact .refl _
  · rw [apply_ite Actor.board, send_to_board, ite_self]
    exact acts_tend (alike_modify_first fun r _ => alike_volume r _)

/-- The user's mute of a route, with the microphone mute over it. -/
theorem set_route_muted_acts (key : RouteKey) (muted : Bool) :
    Acts env s₀ event [] s.board (s.set_route_muted key muted).board := by
  unfold set_route_muted
  split
  · exact .refl _
  · next r hr =>
      dsimp only
      rw [apply_ite Actor.board, send_to_board, ite_self, set_routes_board]
      rw [List.modify_first_congr (g := Route.silenced s.mic_muted muted) fun q hq => ?_]
      · exact .of_act (.silence key muted)
      · obtain rfl := Option.some_inj.1 (hr.symm.trans hq)
        rfl

theorem set_route_keep_running_acts (key : RouteKey) (keep : Bool) :
    Acts env s₀ event [] s.board (s.set_route_keep_running env key keep).board := by
  unfold set_route_keep_running
  split
  · exact .refl _
  · dsimp only
    rw [save_settings_board, set_saved_routes_board]
    refine acts_tend (alike_modify_first fun r _ => ?_)
    exact ⟨rfl, rfl, rfl, rfl, rfl, fun h => h, rfl, rfl, rfl, rfl, rfl, rfl, rfl, fun h => h⟩

end

/-! ## 3. Sessions end

A session goes with its routes when the reason says so, and otherwise leaves them paused. The
events that retire a device are those of `Actor.retires`, and every route with it is one that they
may end. -/

section
variable (env : Env) (s₀ : Actor) (event : Event) (s : Actor)

omit [Crypto] in
@[simp] theorem close_board (conn_id : Nat) (reason : StopReason) :
    (s.close conn_id reason).board = { s.board with closed := s.board.closed ++ [conn_id] } := by
  unfold close board emit
  simp [List.filterMap_append, Output.says, Output.opens, Output.closes]

theorem close_acts (conn_id : Nat) (reason : StopReason) :
    Acts env s₀ event [] s.board (s.close conn_id reason).board := by
  rw [close_board]
  exact .of_act (.hang_up conn_id)

omit [Crypto] in
/-- The speakers are given back when the last device that muted them is gone, unless a stream of
this computer's sound keeps them muted. -/
theorem forget_speaker_mutes_board (id : DeviceId) :
    (s.forget_speaker_mutes id).board =
      { s.board with
        muted_by := s.board.muted_by.erase id
        said := s.board.said ++ s.board.leaves id } := by
  unfold forget_speaker_mutes
  dsimp only
  split
  · next h =>
      have hleaves : s.board.leaves id = [false] := if_pos h
      rw [emit_speakers_board, hleaves]
      rfl
  · next h =>
      have hleaves : s.board.leaves id = [] := if_neg h
      rw [hleaves, List.append_nil]
      rfl

omit [Crypto] in
/-- The session goes and its connection is closed, if there was one. -/
theorem drop_session_board (id : DeviceId) (reason : StopReason) :
    ∃ conn_ids, (s.drop_session id reason).board =
      { s.board with
        sessions := s.board.sessions.erase id
        closed := s.board.closed ++ conn_ids } := by
  unfold drop_session
  split
  · next session hs => exact ⟨[session.conn_id], close_board _ _ _⟩
  · next hs =>
      have herase : s.board.sessions.erase id = s.board.sessions := Table.erase_of_get_eq_none hs
      refine ⟨[], ?_⟩
      rw [List.append_nil, herase]

/-- A session is dropped, and with it the word its device had on the speakers. -/
theorem leave_acts {id : DeviceId} (reason : StopReason) (he : s₀.retires event id) :
    Acts env s₀ event [] s.board ((s.drop_session id reason).forget_speaker_mutes id).board := by
  obtain ⟨conn_ids, h⟩ := s.drop_session_board id reason
  rw [forget_speaker_mutes_board, h]
  exact .of_act (.leave id conn_ids he)

/-- A device ends with all but its session: its routes, its dial, its resume tokens and its
network test. -/
theorem retire_acts {id : DeviceId}
    (he : ∀ key : RouteKey, key.peer = id → s₀.may_end env event key) :
    Acts env s₀ event [] s.board (s.retire env id).board := by
  unfold retire
  dsimp only
  rw [end_network_test_board]
  have hremove := remove_routes_for_acts env s₀ event
    { s with flaps := s.flaps.erase id, stabilized := s.stabilized.erase id } id he
  generalize remove_routes_for env _ id = s₁ at hremove ⊢
  have hb := s₁.forget_dial_board id
  generalize s₁.forget_dial id = s₂ at hb ⊢
  exact acts_after hremove hb

/-- And by its session and its hold on the speakers. -/
theorem revoke_acts {id : DeviceId}
    (hm : ∀ key : RouteKey, key.peer = id → s₀.may_end env event key)
    (he : s₀.retires event id) : Acts env s₀ event [] s.board (s.revoke env id).board :=
  (retire_acts env s₀ event s hm).follow (leave_acts env s₀ event _ _ he)

/-- The user disconnects a device. -/
theorem disconnect_acts (id : DeviceId) :
    Acts env s₀ (.Command (.Disconnect id)) [] s.board (s.disconnect env id).board := by
  have hleave : Acts env s₀ (.Command (.Disconnect id)) [] (s.forget_dial id).board
      (((s.forget_dial id).drop_session id .UserStopped).forget_speaker_mutes id).board :=
    leave_acts env s₀ _ (s.forget_dial id) .UserStopped rfl
  rw [forget_dial_board] at hleave
  unfold disconnect
  dsimp only
  generalize
    ((s.forget_dial id).drop_session id .UserStopped).forget_speaker_mutes id = s₁ at hleave ⊢
  have hremove := remove_routes_for_acts env s₀ (.Command (.Disconnect id)) s₁ id fun _ hkey => hkey
  generalize s₁.remove_routes_for env id = s₂ at hremove ⊢
  have hb := s₂.end_network_test_board id .Unreachable
  generalize s₂.end_network_test id .Unreachable = s₃ at hb ⊢
  exact hleave.follow (acts_after hremove hb)

theorem forget_device_acts (id : DeviceId) :
    Acts env s₀ (.Command (.ForgetDevice id)) [] s.board (s.forget_device env id).board := by
  have hrevoke : Acts env s₀ (.Command (.ForgetDevice id)) [] s.board (s.revoke env id).board :=
    revoke_acts env s₀ _ s (fun _ hkey => hkey) rfl
  unfold forget_device
  dsimp only
  generalize s.revoke env id = s₁ at hrevoke ⊢
  have hb := forget_network_test_board { s₁ with trust := s₁.trust.remove id env.trust_saved } id
  generalize forget_network_test _ id = s₂ at hb ⊢
  refine acts_after hrevoke ?_
  rw [apply_ite Actor.board, save_settings_board, ite_self]
  exact (s₂.set_settings_board rfl rfl rfl).trans hb

/-- Blocking revokes; unblocking changes the trust alone. -/
theorem set_blocked_acts (id : DeviceId) (blocked : Bool) :
    Acts env s₀ (.Command (.SetBlocked id blocked)) [] s.board
      (s.set_blocked env id blocked).board := by
  unfold set_blocked
  dsimp only
  split
  · next hb =>
      exact revoke_acts env s₀ (.Command (.SetBlocked id blocked))
        { s with trust := s.trust.update id (fun d => { d with blocked }) env.trust_saved }
        (fun _ hkey => ⟨hb, hkey⟩) ⟨rfl, hb⟩
  · exact .refl _

omit [Crypto] in
@[simp] theorem record_reconnect_board (id : DeviceId) :
    (s.record_reconnect env id).board = s.board := by
  unfold record_reconnect
  dsimp only
  split
  · rfl
  · split
    · exact emit_board _ rfl rfl rfl
    · rfl

/-- After a close whose reason ends the routes. -/
theorem remove_after_acts (id : DeviceId) (reason : StopReason) (hr : reason.ends_routes = true)
    (he : ∀ key : RouteKey, key.peer = id → s₀.may_end env event key) :
    Acts env s₀ event [] s.board (s.after_close env id reason).board := by
  have hremove := remove_routes_for_acts env s₀ event s id he
  have hforget : Acts env s₀ event [] s.board
      (notice { (s.remove_routes_for env id).forget_dial id with
        trust := ((s.remove_routes_for env id).forget_dial id).trust.update id
          (fun d => { d with auto_connect := false }) env.trust_saved }
            "notice.peerForgotUs").board := by
    have hb := (s.remove_routes_for env id).forget_dial_board id
    generalize (s.remove_routes_for env id).forget_dial id = s₁ at hb ⊢
    rw [notice_board]
    exact acts_after hremove hb
  unfold after_close
  split
  · exact hforget
  · exact hforget
  · exact hremove
  · next hdenied hrevoked hstopped =>
      cases reason with
      | PermissionDenied => exact (hdenied rfl).elim
      | PermissionRevoked => exact (hrevoked rfl).elim
      | UserStopped => exact (hstopped rfl).elim
      | _ => cases hr

omit [Crypto] in
/-- After a close whose reason pauses them. -/
theorem pause_after_board (id : DeviceId) (reason : StopReason) (hr : reason.ends_routes = false) :
    (s.after_close env id reason).board = s.board.paused id env.now := by
  unfold after_close
  split
  · cases hr
  · cases hr
  · cases hr
  · dsimp only
    have hpause := s.pause_routes_for_board env id
    generalize s.pause_routes_for env id = s₁ at hpause ⊢
    rw [← hpause]
    generalize hs₂ : (if reason = .Superseded then s₁ else s₁.record_reconnect env id) = s₂
    have hb : s₂.board = s₁.board := by
      rw [← hs₂, apply_ite Actor.board, record_reconnect_board, ite_self]
    rw [← hb]
    split <;> rfl

omit [Crypto] in
@[simp] theorem close_pairing_board (conn_id : Nat) (reason : StopReason) :
    (s.close_pairing env conn_id reason).board = s.board := by
  unfold close_pairing
  split
  · dsimp only
    split
    · exact error_notice_board env _ _
    · exact error_notice_board env _ _
    · rfl
  · rfl

/-- A connection closed. One that carried no session any more changes nothing; otherwise the
session goes, and its routes by the reason. -/
theorem on_closed_acts (conn_id : Nat) (reason : StopReason) :
    Acts env s (.Closed conn_id reason) [] s.board (s.on_closed env conn_id reason).board := by
  unfold on_closed
  dsimp only
  have hb : (close_pairing env { s with unpaired := s.unpaired.erase conn_id } conn_id
      reason).board = s.board := close_pairing_board env _ conn_id reason
  have hi := (close_pairing_upkeep env { s with unpaired := s.unpaired.erase conn_id } conn_id
    reason).standing.conn_index
  generalize close_pairing env _ conn_id reason = s₁ at hb hi ⊢
  split
  · exact .of_eq hb
  · next id hid =>
      have hindex : s.conn_index.get conn_id = some id := by
        rw [hi] at hid
        exact hid
      split
      · exact .of_eq hb
      · have hgone : (forget_speaker_mutes { s₁ with
            conn_index := s₁.conn_index.erase conn_id
            sessions := s₁.sessions.erase id } id).board =
            { s.board with
              sessions := s.board.sessions.erase id
              muted_by := s.board.muted_by.erase id
              said := s.board.said ++ s.board.leaves id } := by
          rw [forget_speaker_mutes_board, ← hb]
          rfl
        rw [← end_network_test_board _ id .Unreachable] at hgone
        generalize end_network_test _ id .Unreachable = s₂ at hgone ⊢
        -- A closing that ends routes removes them one by one; any other suspends them together.
        cases hr : reason.ends_routes with
        | false =>
            rw [pause_after_board env s₂ id reason hr, hgone]
            exact .of_act (.suspend id conn_id reason env.now rfl hindex hr rfl)
        | true =>
            have hleave : Acts env s (.Closed conn_id reason) [] s.board s₂.board := by
              have hleave : Act env s (.Closed conn_id reason) [] s.board _ :=
                .leave id [] ⟨hindex, hr⟩
              rw [List.append_nil] at hleave
              rw [hgone]
              exact .of_act hleave
            refine hleave.follow (remove_after_acts env s _ s₂ id reason hr fun key hkey => ?_)
            exact ⟨hindex.trans (congrArg some hkey.symm), hr⟩

end

/-! ## 4. Sessions begin

Everything before the resume leaves routes, settings and sessions as the event met them, which is
`Untouched`; then the session is installed and the resume begins. The resume is kept as a function
of the state it begins in, since which routes it asks for depends on those that were paused. -/

/-- The routes that a new session with a device finds: those over the session it replaces are
paused. -/
def routes_found (env : Env) (s : Actor) (id : DeviceId) : List Route :=
  if s.sessions.has id then
    (s.routes.map fun r => if r.peer = id then r.suspended env.now else r).filter fun r =>
      r.status ≠ .Stopped
  else s.routes

/-- The state `t` in which a device's routes are asked for again, when the event met `s`. -/
structure Installed (env : Env) (s : Actor) (id : DeviceId) (est : Established) (t : Actor) :
    Prop where
  session : t.sessions.get id = some (new_session env est)
  settings : t.settings = s.settings
  routes : t.routes = s.routes_found env id

/-- The connection an event makes a device's session: the device is trusted, or comes to be, and
there is no session with it that the tie-break keeps. -/
def promotes (env : Env) (s : Actor) (event : Event) (id : DeviceId) (est : Established) : Prop :=
  (∀ old, s.sessions.get id = some old → s.keeps_old env id old est = false) ∧
    ((event = .Established est ∧ id = est.conn.peer_public_key.device_id ∧
        s.trust.vouches id est.conn.peer_public_key) ∨
      ∃ p, s.completes env event id p ∧ est = p.established ∧ env.trust_saved = true)

theorem promotes.installs {env : Env} {s : Actor} {event : Event} {id : DeviceId}
    {est : Established} (h : s.promotes env event id est) : s.installs env event id est := by
  rcases h.2 with ⟨he, hid, _⟩ | ⟨p, hp, he, _⟩
  · exact .inl ⟨he, hid⟩
  · exact .inr ⟨p, hp, he⟩

/-- A session began, and its device's routes are asked for again. -/
def Resumed (env : Env) (s₀ : Actor) (event : Event) (s' : Actor) : Prop :=
  ∃ id est t, s₀.promotes env event id est ∧ s₀.Installed env id est t ∧
    Acts env s₀ event [] s₀.board t.board ∧ s' = t.resume_routes env id

section
variable (env : Env) (s₀ : Actor) (event : Event) (s : Actor)

omit [Crypto] in
/-- A dial that is called off is not in the settings. -/
theorem cancel_dial_settings (id : DeviceId) : (s.cancel_dial id).settings = s.settings := by
  unfold cancel_dial
  dsimp only
  split <;> rfl

omit [Crypto] in
theorem end_network_test_settings (peer : DeviceId) (error : EngineError) :
    (s.end_network_test peer error).settings = s.settings := by
  have hanswer (replies : List Reply) (result : Except EngineError Answer) (s : Actor) :
      (replies.foldl (fun s r => s.answer r result) s).settings = s.settings := by
    induction replies generalizing s with
    | nil => rfl
    | cons r replies ih =>
        rw [List.foldl_cons, ih]
        unfold answer
        split <;> rfl
  unfold end_network_test
  split
  · split
    · unfold finish_network_test
      split
      · rfl
      · dsimp only
        split
        · refine (hanswer _ _ _).trans ?_
          split <;> rfl
        · refine (hanswer _ _ _).trans ?_
          split <;> rfl
    · rfl
  · rfl

omit [Crypto] in
/-- Nor is what is paused: the saved routes stay saved. -/
theorem pause_routes_for_settings (peer : DeviceId) :
    (s.pause_routes_for env peer).settings = s.settings := by
  have hrelease (route : Route) (s : Actor) :
      (s.release_pipelines route).1.settings = s.settings := by
    unfold release_pipelines drop_subscription
    dsimp only
    split <;> split <;> rfl
  have hanswer (route : Route) (result : Except EngineError Answer) (s : Actor) :
      (s.answer_route route result).settings = s.settings := by
    unfold answer_route answer
    split
    · split <;> rfl
    · rfl
  have hpause (route : Route) (s : Actor) : (s.pause_route env route).1.settings = s.settings := by
    unfold pause_route
    dsimp only
    split
    · exact hrelease route s
    · exact hrelease route s
    · split <;> exact (hanswer _ _ _).trans (hrelease route s)
  have heach (routes : List Route) (s : Actor) :
      (pause_each env peer s routes).1.settings = s.settings := by
    induction routes generalizing s with
    | nil => rfl
    | cons r routes ih =>
        rw [pause_each]
        dsimp only
        rw [ih]
        split
        · exact hpause r s
        · rfl
  unfold pause_routes_for
  dsimp only
  unfold update_keep_alive
  dsimp only
  split <;> exact heach _ _

omit [Crypto] in
/-- A connection becomes a session; what follows is the resume. -/
theorem install_session_resumes (id : DeviceId) (est : Established) :
    ∃ t : Actor, s.install_session env id est = t.resume_routes env id ∧ t.settings = s.settings ∧
      t.board = { s.board with sessions := s.board.sessions.insert id (new_session env est) } := by
  have hticket (s : Actor) : (s.issue_ticket env est).board = s.board ∧
      (s.issue_ticket env est).settings = s.settings := by
    unfold issue_ticket
    split
    · exact ⟨emit_send_board _ _ _, rfl⟩
    · exact ⟨rfl, rfl⟩
  unfold install_session
  dsimp only
  refine ⟨_, rfl, ?_, ?_⟩
  · refine (hticket _).2.trans ?_
    exact cancel_dial_settings _ id
  · have hb := cancel_dial_board (s.remember_connection env id est) id
    generalize (s.remember_connection env id est).cancel_dial id = s₁ at hb ⊢
    generalize hs₂ : ({ s₁ with dials := _, conn_index := _ } : Actor) = s₂
    have hb₂ : (s₂.issue_ticket env est).board = s.board := by
      refine (hticket s₂).1.trans ?_
      rw [← hs₂]
      exact hb
    generalize s₂.issue_ticket env est = s₃ at hb₂ ⊢
    rw [← hb₂]
    rfl

/-- A session that is installed and then resumed, from what was found of the state before. -/
theorem install_session_resumed {id : DeviceId} {est : Established}
    (hi : s₀.promotes env event id est)
    (hset : s.settings = s₀.settings) (hroutes : s.routes = s₀.routes_found env id)
    (hacts : Acts env s₀ event [] s₀.board
      { s.board with sessions := s.board.sessions.insert id (new_session env est) }) :
    s₀.Resumed env event (s.install_session env id est) := by
  obtain ⟨t, ht, htset, htb⟩ := s.install_session_resumes env id est
  have hsessions : t.sessions = s.sessions.insert id (new_session env est) :=
    congrArg Board.sessions htb
  refine ⟨id, est, t, hi, ⟨?_, htset.trans hset, ?_⟩, ?_, ht⟩
  · rw [hsessions]
    exact Table.get_insert_self _ _ _
  · exact (congrArg Board.routes htb).trans hroutes
  · rw [htb]
    exact hacts

/-- Nothing has come of the event yet but closed connections. -/
structure Untouched (env : Env) (s₀ : Actor) (event : Event) (s : Actor) : Prop where
  acts : Acts env s₀ event [] s₀.board s.board
  settings : s.settings = s₀.settings
  routes : s.routes = s₀.routes
  sessions : s.sessions = s₀.sessions
  identity : s.identity = s₀.identity

/-- The state that the event met is untouched. -/
theorem untouched : Untouched env s event s := ⟨.refl _, rfl, rfl, rfl, rfl⟩

variable {env s₀ event s} in
/-- And stays so under what changes neither board nor settings nor identity. -/
theorem Untouched.after {t : Actor} (h : Untouched env s₀ event s) (hb : t.board = s.board)
    (hs : t.settings = s.settings) (hi : t.identity = s.identity) : Untouched env s₀ event t where
  acts := acts_after h.acts hb
  settings := hs.trans h.settings
  routes := (congrArg Board.routes hb).trans h.routes
  sessions := (congrArg Board.sessions hb).trans h.sessions
  identity := hi.trans h.identity

variable {env s₀ event s} in
/-- A connection that is closed is written on the board as closed. -/
theorem Untouched.close (h : Untouched env s₀ event s) (conn_id : Nat) (reason : StopReason) :
    Untouched env s₀ event (s.close conn_id reason) where
  acts := h.acts.follow (close_acts env s₀ event s conn_id reason)
  settings := h.settings
  routes := h.routes
  sessions := h.sessions
  identity := h.identity

/-- A connection of a trusted device: it loses the tie-break and is closed, or replaces the
session there is, whose routes pause first, and is resumed. -/
theorem promote_session_acts {id : DeviceId} {est : Established}
    (hi : s₀.installs env event id est)
    (hp : (∀ old, s₀.sessions.get id = some old → s₀.keeps_old env id old est = false) →
      s₀.promotes env event id est)
    (h : Untouched env s₀ event s) :
    Acts env s₀ event [] s₀.board (s.promote_session env id est).board ∨
      s₀.Resumed env event (s.promote_session env id est) := by
  obtain ⟨hacts, hset, hroutes, hsessions, hidentity⟩ := h
  -- What a resumption will find: the routes as they are, or, where a session is superseded, with
  -- those of the device paused.
  have hfound : s₀.routes_found env id =
      if s.sessions.has id then
        (s.routes.map fun r => if r.peer = id then r.suspended env.now else r).filter fun r =>
          r.status ≠ .Stopped
      else s.routes := by
    rw [hroutes, hsessions]
    rfl
  unfold promote_session
  split
  · next hnone =>
      have hpromotes : s₀.promotes env event id est := hp fun old hold => by
        rw [← hsessions, hnone] at hold
        cases hold
      refine .inr (install_session_resumed env s₀ event s hpromotes hset ?_
        (Acts.trans hacts (.of_act (.install id est _ hi hnone rfl))))
      rw [hfound, if_neg]
      unfold Table.has
      rw [hnone]
      exact Bool.false_ne_true
  · next old hold =>
      split
      · refine .inl (acts_after (s := s.close est.conn_id .Superseded)
          (hacts.follow (close_acts env s₀ event s _ _)) (cancel_dial_board _ id))
      · next hnewer =>
        have hpromotes : s₀.promotes env event id est := hp fun q hq => by
          rw [← hsessions, hold] at hq
          obtain rfl := Option.some_inj.1 hq
          unfold keeps_old at hnewer ⊢
          rw [← hidentity]
          exact Bool.not_eq_true _ ▸ hnewer
        refine .inr ?_
        dsimp only
        have hdrop : (s.drop_session id .Superseded).board =
            { s.board with
              sessions := s.board.sessions.erase id
              closed := s.board.closed ++ [old.conn_id] } := by
          unfold drop_session
          rw [hold]
          exact close_board _ _ _
        have hdropset : (s.drop_session id .Superseded).settings = s.settings := by
          unfold drop_session
          rw [hold]
          rfl
        have hhas : s.sessions.has id = true := Table.has_eq_true.2 ⟨old, hold⟩
        -- From here on the three calls count only by what they leave on the board.
        generalize s.drop_session id .Superseded = s₁ at hdrop hdropset ⊢
        have hpause := s₁.pause_routes_for_board env id
        have hpauseset := (s₁.pause_routes_for_settings env id).trans hdropset
        generalize s₁.pause_routes_for env id = s₂ at hpause hpauseset ⊢
        have hend := s₂.end_network_test_board id .Unreachable
        have hendset := s₂.end_network_test_settings id .Unreachable
        generalize s₂.end_network_test id .Unreachable = s₃ at hend hendset ⊢
        have hboard : s₃.board = { s.board.paused id env.now with
            sessions := s.board.sessions.erase id
            closed := s.board.closed ++ [old.conn_id] } := by
          rw [hend, hpause, hdrop]
          rfl
        refine install_session_resumed env s₀ event s₃ hpromotes
          (hendset.trans (hpauseset.trans hset))
          ?_ ?_
        · rw [hfound, if_pos hhas]
          exact congrArg Board.routes hboard
        · rw [hboard]
          exact Acts.trans hacts
            (.of_act (.supersede id est _ old.conn_id env.now hi hhas hroutes rfl))

end

/-! ## 5. Pairing

Until it is confirmed a pairing touches nothing but closed connections. The event that completes it
is the only one that turns it into a session. -/

section
variable (env : Env) (s₀ : Actor) (event : Event) (s : Actor)

omit [Crypto] in
theorem error_notice_settings (e : EngineError) : (s.error_notice env e).settings = s.settings := by
  unfold error_notice
  split <;> rfl

omit [Crypto] in
theorem error_notice_identity (e : EngineError) : (s.error_notice env e).identity = s.identity := by
  unfold error_notice
  split <;> rfl

/-- A pairing begins: an older one on another connection is closed. -/
theorem begin_pairing_untouched {id : DeviceId} {est : Established} (qr_scanner : Bool)
    (h : Untouched env s₀ event s) :
    Untouched env s₀ event (s.begin_pairing env id est qr_scanner) := by
  unfold begin_pairing
  split
  · exact (h.close est.conn_id .Unspecified).after (error_notice_board env _ _)
      (error_notice_settings env _ _) (error_notice_identity env _ _)
  · split
    · next old _ => exact (h.close old.conn_id .Superseded).after rfl rfl rfl
    · exact h.after rfl rfl rfl

/-- A pairing that is turned down closes its connection. -/
theorem reject_pairing_untouched (id : DeviceId) (h : Untouched env s₀ event s) :
    Untouched env s₀ event (s.reject_pairing id) := by
  unfold reject_pairing
  split
  · exact h
  · next p _ =>
      exact (h.after (t := s.set_pairings (s.pairings.erase id)) rfl rfl rfl).close p.conn_id _

/-- What an event comes to: acts on the board, and perhaps a resume. -/
def Handled (env : Env) (s₀ : Actor) (event : Event) (s' : Actor) : Prop :=
  Acts env s₀ event [] s₀.board s'.board ∨ s₀.Resumed env event s'

/-- Both sides agreed: the device is trusted and its connection promoted. If the trust cannot be
saved, the user is told and nothing is promoted. -/
theorem complete_pairing_handled {id : DeviceId} (h : Untouched env s₀ event s)
    (hc : ∀ p, s.pairings.get id = some p → s₀.completes env event id p) :
    s₀.Handled env event (s.complete_pairing env id) := by
  unfold complete_pairing
  split
  · exact .inl h.acts
  · next p hp =>
      dsimp only
      split
      · refine .inl ?_
        rw [error_notice_board]
        exact h.acts
      · next hsaved =>
          have hsaved : env.trust_saved = true := by simpa using hsaved
          exact promote_session_acts env s₀ event _ (.inr ⟨p, hc p hp, rfl⟩)
            (fun hold => ⟨hold, .inr ⟨p, hc p hp, rfl, hsaved⟩⟩)
            (h.after (notice_board _ _) rfl rfl)

/-- The user's word on a pairing, which completes it if the peer has given its own. -/
theorem confirm_pairing_handled (id : DeviceId) (accept : Bool) :
    s.Handled env (.Command (.ConfirmPairing id accept)) (s.confirm_pairing env id accept) := by
  unfold confirm_pairing
  split
  · exact .inl (.refl _)
  · next p hp =>
      dsimp only
      generalize hs' : (s.set_pairings _).emit _ = s'
      have hu : Untouched env s (.Command (.ConfirmPairing id accept)) s' := by
        rw [← hs']
        exact (untouched env _ s).after (emit_send_board _ _ _) rfl rfl
      have hget : s'.pairings.get id = some { p with local_confirmed := accept } := by
        rw [← hs']
        exact Table.get_insert_self _ _ _
      split
      · exact .inl (reject_pairing_untouched env s _ s' id hu).acts
      · next haccept =>
          obtain rfl : accept = true := by simpa using haccept
          split
          · next hpeer =>
              refine complete_pairing_handled env s _ s' hu fun q hq => ?_
              obtain rfl := Option.some_inj.1 (hget.symm.trans hq)
              exact ⟨rfl, rfl, p, hp, hpeer, rfl⟩
          · exact .inl hu.acts

/-- The peer's word on a pairing, on the connection that the pairing is on. -/
theorem on_pair_result_handled {conn_id : Nat} {id : DeviceId} (accepted : Bool)
    (hu : s.unpaired.get conn_id = none) (hid : s.pairing_on conn_id = some id) :
    s.Handled env (.Control conn_id (.PairResult accepted)) (s.on_pair_result env id accepted) := by
  obtain ⟨p, hp, rfl⟩ := pairing_on_eq_some hid
  unfold on_pair_result
  rw [hp]
  dsimp only
  split
  · refine .inl ?_
    rw [error_notice_board]
    exact (reject_pairing_untouched env s _ s id (untouched env _ s)).acts
  · next haccepted =>
      obtain rfl : accepted = true := by simpa using haccepted
      split
      · next hflow =>
          generalize hs' :
            s.set_pairings (s.pairings.insert id { p with peer_confirmed := true }) = s'
          generalize hs'' : (if p.qr_scanner = true then s'.emit _ else s') = s''
          have hb : s''.board = s'.board ∧ s''.settings = s'.settings ∧
              s''.identity = s'.identity ∧ s''.pairings = s'.pairings := by
            rw [← hs'']
            split
            · exact ⟨emit_send_board _ _ _, rfl, rfl, rfl⟩
            · exact ⟨rfl, rfl, rfl, rfl⟩
          have hstart : Untouched env s (.Control p.conn_id (.PairResult true)) s' := by
            rw [← hs']
            exact (untouched env _ s).after rfl rfl rfl
          refine complete_pairing_handled env s _ s'' (hstart.after hb.1 hb.2.1 hb.2.2.1)
            fun q hq => ?_
          rw [hb.2.2.2, ← hs'] at hq
          obtain rfl := Option.some_inj.1 ((Table.get_insert_self _ _ _).symm.trans hq)
          exact ⟨rfl, hu, hid, p, hp, hflow, rfl⟩
      · exact .inl (.of_eq rfl)

/-- A request to pair on a connection that is not trusted: refused, begun by code, or, with a
proof that the QR code was seen, complete at once. -/
theorem on_pair_request_handled {conn_id : Nat} {est : Established} {since : Instant}
    (hu : s.unpaired.get conn_id = some (est, since)) (req : PairRequest) :
    s.Handled env (.Control conn_id (.PairRequest req))
      (on_pair_request env { s with unpaired := s.unpaired.erase conn_id } est req) := by
  have hstart : Untouched env s (.Control conn_id (.PairRequest req))
      { s with unpaired := s.unpaired.erase conn_id } := (untouched env _ s).after rfl rfl rfl
  have hclose := (hstart.close est.conn_id .PermissionDenied).acts
  unfold on_pair_request
  split
  · next proof qr hproof hqr =>
      split
      · exact .inl hclose
      · next hexpired =>
          split
          · exact .inl hclose
          · next hverify =>
              have hexpired : qr.is_expired env.now_unix = false := Bool.not_eq_true _ ▸ hexpired
              have hverify :
                  verify_pairing_proof qr.secret (.of_public_key est.conn.peer_public_key)
                  s.identity.device_id proof = true := by simpa using hverify
              unfold admit_proven
              dsimp only
              generalize hs₂ :
                ({ s with unpaired := s.unpaired.erase conn_id, qr := none } : Actor) = s₂
              have hu₂ : Untouched env s (.Control conn_id (.PairRequest req)) s₂ := by
                rw [← hs₂]
                exact (untouched env _ s).after rfl rfl rfl
              have hpairings : (s₂.begin_pairing env est.conn.peer_public_key.device_id est
                  false).pairings =
                  if est.conn.exporter then
                    s.pairings.insert est.conn.peer_public_key.device_id (new_pairing env est false)
                  else s.pairings := by
                rw [begin_pairing_tables, ← hs₂]
              have hbegun : Untouched env s (.Control conn_id (.PairRequest req))
                  (s₂.begin_pairing env est.conn.peer_public_key.device_id est false) :=
                begin_pairing_untouched env s _ s₂ false hu₂
              generalize s₂.begin_pairing env est.conn.peer_public_key.device_id est false = s₃
                at hpairings hbegun ⊢
              refine complete_pairing_handled env s _ _
                (hbegun.after (emit_send_board _ _ _) rfl rfl)
                fun p hp => ?_
              have hp : (s₃.pairings.modify est.conn.peer_public_key.device_id fun p =>
                  { p with local_confirmed := true, peer_confirmed := true }).get
                    est.conn.peer_public_key.device_id = some p := hp
              rw [Table.get_modify, if_pos rfl] at hp
              obtain ⟨q, hq, rfl⟩ := Option.map_eq_some_iff.1 hp
              refine ⟨est, since, proof, qr, hu, rfl, hproof, hqr, hexpired, hverify, q, ?_, rfl⟩
              rw [hpairings] at hq
              split at hq
              · next hexporter =>
                  rw [Table.get_insert_self] at hq
                  rw [if_pos hexporter]
                  exact (Option.some_inj.1 hq).symm
              · next hexporter =>
                  rw [if_neg hexporter]
                  exact hq
  · exact .inl (begin_pairing_untouched env s _ _ false hstart).acts
  · exact .inl hclose

/-- A connection is up. A trusted device's is promoted, another one is admitted to pairing or
closed. -/
theorem on_established_handled (est : Established) :
    s.Handled env (.Established est) (s.on_established env est) := by
  have hstart : Untouched env s (.Established est)
      { s with
        dial_targets := s.dial_targets.erase est.conn_id
        pair_dials := s.pair_dials.erase est.conn_id } := (untouched env _ s).after rfl rfl rfl
  unfold on_established
  dsimp only
  split
  · next device hdevice =>
    split
    · exact .inl (hstart.close est.conn_id .PermissionDenied).acts
    · next hvouched =>
        have hvouches : s.trust.vouches est.conn.peer_public_key.device_id
            est.conn.peer_public_key := by
          refine ⟨device, hdevice, ?_, ?_⟩
          · by_contra h
            exact hvouched (.inl (by simpa using h))
          · by_contra h
            exact hvouched (.inr h)
        refine promote_session_acts env s _ _ (.inl ⟨rfl, rfl⟩)
          (fun hold => ⟨hold, .inl ⟨rfl, rfl, hvouches⟩⟩) ?_
        unfold redeem_token
        split
        · exact hstart.after rfl rfl rfl
        · exact hstart
  · unfold admit_untrusted
    split
    · split
      · exact .inl (begin_pairing_untouched env s _ _ _ hstart).acts
      · exact .inl (hstart.close est.conn_id .PermissionDenied).acts
    · dsimp only
      split
      · next first _ =>
          refine .inl ?_
          rw [apply_ite Actor.board, notice_board, ite_self]
          exact (Untouched.close (hstart.after rfl rfl rfl) est.conn_id .RateLimited).acts
      · exact .inl (hstart.after rfl rfl rfl).acts

end

/-! ## 6. Control messages

A message belongs to a connection that waits for its pairing, to a pairing, or to a session. Only
the last may touch routes, and the act names the connection. -/

section
variable (env : Env) (s : Actor)

/-- The messages of a session, by their kind. -/
theorem on_session_message_acts {conn_id : Nat} {peer : DeviceId} (body : Body)
    (hu : s.unpaired.get conn_id = none) (hp : s.pairing_on conn_id = none)
    (hi : s.conn_index.get conn_id = some peer) :
    Acts env s (.Control conn_id body) [] s.board
    (s.on_session_message env peer conn_id body).board := by
  cases body with
  | RouteRequest req => exact on_route_request_acts env s req hu hp hi
  | RouteAccept acc => exact on_route_accept_acts env s acc hi
  | RouteReject rej => exact on_route_reject_acts env s rej hi
  | RouteStop stop =>
      exact stop_route_by_key_acts env s (.Control conn_id (.RouteStop stop)) s
        ⟨peer, stop.route.toUInt8⟩ _ _ fun _ _ _ => .inl ⟨hi, rfl⟩
  | RouteUpdate update => exact on_route_update_acts env s update hi
  | VolumeSet v => exact on_remote_volume_acts env s _ s peer v
  | MuteSet m => exact on_remote_mute_acts env s m hi
  | StatsReport stats => exact on_stats_acts env s _ s peer stats
  | Hello hello => exact on_hello_acts env s s peer hello
  | SessionTicket ticket => exact .of_eq (s.on_session_ticket_board env peer conn_id ticket)
  | NetTestStart start => exact .of_eq (s.on_net_test_start_board env peer start)
  | NetTestReady ready => exact .of_eq (s.on_net_test_ready_board peer ready)
  | NetTestStop test_id => exact .of_eq (s.on_net_test_stop_board env peer test_id)
  | Ping | Pong | Notice _ | PermissionChanged _ | Goodbye _ | PairRequest _ | PairResult _ =>
      exact .refl _

/-- Any message, by the connection it came on. -/
theorem on_control_handled (conn_id : Nat) (body : Body) :
    s.Handled env (.Control conn_id body) (s.on_control env conn_id body) := by
  unfold on_control
  split
  · next est since hu =>
      dsimp only
      split
      · next req => exact on_pair_request_handled env s hu req
      · refine .inl ?_
        exact close_acts env s _ { s with unpaired := s.unpaired.erase conn_id } est.conn_id
          .PermissionDenied
  · next hu =>
      split
      · next id hid =>
          split
          · next accepted => exact on_pair_result_handled env s accepted hu hid
          · exact .inl (.refl _)
      · next hp =>
          split
          · next peer hi => exact .inl (s.on_session_message_acts env body hu hp hi)
          · exact .inl (.refl _)

end

/-! ## 7. The tick and the settings

These events settle profiles, and are the ones that may ask several devices. Each loop is bounded on
its own: what the fallback asks, what the end of a Stable hold asks, what the virtual microphone
asks. `Actor.asks` adds them up. -/

section
variable (env : Env) (s₀ : Actor) (event : Event) (s : Actor)

omit [Crypto] in
/-- Counting a second on every route, by induction on the table. -/
theorem count_each_board (routes : List Route) :
    (count_each env s routes).1.board = s.board ∧
      List.Forall₂ Route.Alike routes (count_each env s routes).2 := by
  have hcount (s : Actor) (r : Route) : (s.count_route env r).1.board = s.board ∧
      r.Alike (s.count_route env r).2 := by
    unfold count_route
    split
    · exact ⟨rfl, .refl r⟩
    · exact ⟨send_to_board _ _ _,
        ⟨rfl, rfl, rfl, rfl, rfl, fun h => h, rfl, rfl, rfl, rfl, rfl, rfl, rfl, fun h => h⟩⟩
  induction routes generalizing s with
  | nil => exact ⟨rfl, .nil⟩
  | cons r routes ih =>
      obtain ⟨hb, hr⟩ := hcount s r
      obtain ⟨hbs, hrs⟩ := ih (s.count_route env r).1
      exact ⟨hbs.trans hb, .cons hr hrs⟩

theorem count_routes_acts : Acts env s₀ event [] s.board (s.count_routes env).board := by
  obtain ⟨hb, hr⟩ := s.count_each_board env s.routes
  unfold count_routes
  dsimp only
  rw [set_routes_board, hb]
  exact .of_act (.tend _ hr)

/-- A route whose time ran out: its caller hears so, and then it is stopped. -/
theorem expire_route_acts (key : RouteKey) (he : s₀.may_end env event key) :
    Acts env s₀ event [] s.board (s.expire_route env key).board := by
  have hstop (s : Actor) := stop_route_by_key_acts env s₀ event s key .Timeout true
    fun _ _ _ => .inl he
  unfold expire_route
  dsimp only
  split
  · next r _ =>
      refine Acts.follow ?_ (hstop _)
      rw [set_routes_board, answer_route_board]
      refine .of_act (.tend _ (alike_modify_first fun q _ => ?_))
      exact ⟨rfl, rfl, rfl, rfl, rfl, fun h => h, rfl, rfl, rfl, rfl, rfl, rfl, rfl, fun h => h⟩
  · exact hstop s

/-- Each of them was expired when the tick began, which is what lets the tick end it. -/
theorem expire_routes_acts (hr : s.routes = s₀.routes) :
    Acts env s₀ .Tick [] s.board (s.expire_routes env).board := by
  have hrun : ∀ (keys : List RouteKey) (s : Actor), (∀ k ∈ keys, s₀.may_end env .Tick k) →
      Acts env s₀ .Tick [] s.board (keys.foldl (expire_route env) s).board := by
    intro keys
    induction keys with
    | nil => exact fun s _ => .refl _
    | cons k keys ih =>
        intro s h
        exact (expire_route_acts env s₀ .Tick s k (h k List.mem_cons_self)).follow
          (ih _ fun k' hk' => h k' (List.mem_cons_of_mem _ hk'))
  unfold expire_routes
  refine hrun _ s fun k hk => ?_
  obtain ⟨r, hmem, rfl⟩ := List.mem_map.1 hk
  obtain ⟨hmem, hexpired⟩ := List.mem_filter.1 hmem
  exact .inr ⟨r, hr ▸ hmem, rfl, hexpired⟩

omit [Crypto] in
/-- It is taken out of the table, whether or not somebody still waited. -/
theorem expire_route_routes (key : RouteKey) :
    (s.expire_route env key).routes = s.routes.eraseP (has_key key) := by
  unfold expire_route
  dsimp only
  split
  · next r hr =>
      have hrest :=
        stop_route_by_key_tables env ((s.answer_route r (.error .Unreachable)).set_routes
        (s.routes.modify_first (has_key key) fun r => { r with reply := none })) key .Timeout true
      refine (congrArg Tables.routes hrest).trans ?_
      have hfound := List.find?_some hr
      obtain ⟨rest, hfirst⟩ := List.remove_first_of_find? hr
      rw [List.eraseP_of_remove_first hfirst]
      exact List.eraseP_of_remove_first (List.remove_first_modify_first hfirst hfound)
  · exact congrArg Tables.routes (stop_route_by_key_tables env s key .Timeout true)

omit [Crypto] in
/-- What is left of the table is a part of it, in its order. -/
theorem expire_routes_sublist : (s.expire_routes env).routes.Sublist s.routes := by
  unfold expire_routes
  generalize (s.routes.filter (expired env)).map Route.key = keys
  induction keys generalizing s with
  | nil => exact .refl _
  | cons key keys ih =>
      refine (ih (s.expire_route env key)).trans ?_
      rw [expire_route_routes]
      exact List.eraseP_sublist

omit [Crypto] in
/-- Counting a second looks at nothing but the route. -/
theorem count_route_snd (s' : Actor) (r : Route) :
    (s'.count_route env r).2 = (s.count_route env r).2 := by
  unfold count_route
  split <;> rfl

omit [Crypto] in
/-- Counting is a map over the table, whatever the state in between. -/
theorem count_routes_map :
    (s.count_routes env).routes = s.routes.map fun r => (s.count_route env r).2 := by
  have hall : ∀ (routes : List Route) (s' : Actor),
      (count_each env s' routes).2 = routes.map fun r => (s.count_route env r).2 := by
    intro routes
    induction routes with
    | nil => exact fun _ => rfl
    | cons r routes ih =>
        intro s'
        rw [count_each, List.map_cons]
        dsimp only
        rw [ih, count_route_snd env s s' r]
  exact hall s.routes s

/-- Running streams with a set of devices are asked for again at most once each. -/
theorem reconfigure_active_acts (he : event.settles) (hg : Greets s₀.sessions s.sessions)
    (keep : Route → Bool) (hkeep : ∀ r, keep r = true → r.status = .Active) :
    ∃ l, (∀ p, l.count p ≤ if s₀.restarts p then
        s.routes.countP (fun r => keep r && r.peer = p) else 0) ∧
      (∀ p, l.count p ≤ if s₀.restarts p then s.board.active p else 0) ∧
      Acts env s₀ event l s.board
        (s.reconfigure_each env ((s.routes.filter keep).map Route.key)).board := by
  have hcount (p : DeviceId) :
      ((((s.routes.filter keep).map Route.key).reverse.map RouteKey.peer)).count p =
        s.routes.countP fun r => keep r && r.peer = p := by
    rw [List.map_reverse, List.count_reverse, List.map_map, List.count, List.countP_map,
      List.countP_filter]
    refine List.countP_congr fun r _ => ?_
    simp [Function.comp, Route.key, and_comm]
  refine ⟨_, fun p => ?_, fun p => ?_, reconfigure_each_acts env s₀ event s _ he hg⟩
  · exact count_restarts_le s₀ fun _ => (hcount p).le
  · refine count_restarts_le s₀ fun _ => (hcount p).le.trans ?_
    refine List.countP_mono_left fun r _ hr => ?_
    simp only [Bool.and_eq_true, decide_eq_true_eq] at hr ⊢
    exact ⟨hr.2, hkeep r hr.1⟩

/-- The devices whose hold ends are different ones, so that the streams with each are asked for
once. By induction on these devices; `Acts.active_le` keeps the number of active streams from
growing on the way. -/
theorem expire_stable_holds_acts (he : event.settles) (hg : Greets s₀.sessions s.sessions) :
    ∃ l, (∀ p, l.count p ≤ if s₀.restarts p then s.board.active p else 0) ∧
      Acts env s₀ event l s.board (s.expire_stable_holds env).board := by
  have hrun : ∀ (ids : List DeviceId) (s : Actor), ids.Nodup → Greets s₀.sessions s.sessions →
      ∃ l, (∀ p, l.count p ≤ if p ∈ ids ∧ s₀.restarts p then s.board.active p else 0) ∧
        Acts env s₀ event l s.board
          (ids.foldl
            (fun s id =>
              let s := { s with stabilized := s.stabilized.erase id, flaps := s.flaps.erase id }
              let active := s.routes.filter fun r => r.peer = id ∧ r.status = .Active
              s.reconfigure_each env (active.map Route.key))
            s).board := by
    intro ids
    induction ids with
    | nil => exact fun s _ _ => ⟨[], fun p => Nat.zero_le _, .refl _⟩
    | cons id ids ih =>
        intro s hnd hg
        obtain ⟨hid, hnd⟩ := List.nodup_cons.1 hnd
        obtain ⟨l₁, hone, hle₁, h₁⟩ := reconfigure_active_acts env s₀ event
          { s with stabilized := s.stabilized.erase id, flaps := s.flaps.erase id } he hg
          (fun r => r.peer = id ∧ r.status = .Active) fun r hr => (of_decide_eq_true hr).2
        obtain ⟨l₂, hle₂, h₂⟩ := ih _ hnd (hg.trans (h₁.greets he))
        refine ⟨l₂ ++ l₁, fun p => ?_, Acts.trans h₁ h₂⟩
        have hactive := (h₁.active_le he (fun r hr => nomatch hr) p).2
        rw [List.count_append]
        -- The streams asked for with `id` come from this step alone, those with another device
        -- from the rest alone.
        by_cases hp : p = id
        · have hzero : l₂.count p = 0 := by
            refine Nat.le_zero.1 ((hle₂ p).trans_eq (if_neg ?_))
            rw [hp]
            exact fun h => hid h.1
          rw [hzero, Nat.zero_add]
          refine (hle₁ p).trans_eq ?_
          simp only [hp, List.mem_cons_self, true_and]
          rfl
        · have hzero : l₁.count p = 0 := by
            refine Nat.le_zero.1 ((hone p).trans ?_)
            split
            · rw [Nat.le_zero, List.countP_eq_zero]
              intro r _ hr
              simp only [Bool.and_eq_true, decide_eq_true_eq] at hr
              exact hp (hr.2.symm.trans hr.1.1)
            · exact le_refl _
          rw [hzero, Nat.add_zero]
          refine (hle₂ p).trans ?_
          simp only [List.mem_cons, hp, false_or]
          split
          · exact hactive
          · exact le_refl _
  unfold expire_stable_holds
  dsimp only
  have hnd :
      ((s.stabilized.pairs.filter fun e => STABLE_HOLD ≤ env.now - e.2).map Prod.fst).Nodup :=
    List.Nodup.sublist (List.filter_sublist.map _) s.stabilized.nodup_keys
  obtain ⟨l, hle, h⟩ := hrun _ s hnd hg
  refine ⟨l, fun p => (hle p).trans ?_, h⟩
  by_cases hp : s₀.restarts p
  · rw [if_pos hp]
    split
    · exact le_refl _
    · exact Nat.zero_le _
  · rw [if_neg hp, if_neg fun h => hp h.2]

end

/-- How many routes an event may ask a device for. A device that cannot change a running stream is
asked for it again. -/
def asks (env : Env) (s : Actor) (event : Event) (peer : DeviceId) : Nat :=
  let restarted := if s.restarts peer then s.board.active peer else 0
  match event with
  | .Command (.StartRoute id ..) => if id = peer then 1 else 0
  | .Command (.UpdateSettings ..) | .Command (.SetDeviceProfile ..)
  | .Command (.PreferLossless _) =>
      restarted
  | .Tick => 2 * restarted + if s.board.auto_mic && env.virtual_mic_in_use then 1 else 0
  | _ => 0

section
variable (env : Env) (s : Actor)

theorem expire_unpaired_acts {s₀ : Actor} {event : Event} :
    Acts env s₀ event [] s.board (s.expire_unpaired env).board := by
  unfold expire_unpaired
  exact acts_foldl (fun s (e : Nat × Established × Instant) => close_acts env s₀ event
    { s with unpaired := s.unpaired.erase e.1 } e.2.1.conn_id .Timeout) _ s

theorem expire_pairings_acts {s₀ : Actor} {event : Event} :
    Acts env s₀ event [] s.board (s.expire_pairings env).board := by
  unfold expire_pairings
  exact acts_foldl (fun s (e : DeviceId × PendingPairing) => close_acts env s₀ event
    (s.set_pairings (s.pairings.erase e.1)) e.2.conn_id .Timeout) _ s

/-- The part of a tick that comes after the routes: the books are kept, and what waited too long is
closed. -/
theorem tick_end_acts {s₀ : Actor} {event : Event} :
    Acts env s₀ event [] s.board
      ((((((s.check_capture_health env).expire_requests env).expire_unpaired env).expire_pairings
        env).expire_qr env).auto_connect env).board := by
  rw [auto_connect_board, expire_qr_board]
  refine Acts.follow ?_ (expire_pairings_acts env _)
  refine Acts.follow ?_ (expire_unpaired_acts env _)
  rw [expire_requests_board]
  exact check_capture_health_acts env s₀ event s

/-- A tick up to the running streams: some routes have expired, and the others are counted. -/
theorem tick_counted :
    ∃ t : Actor, Acts env s .Tick [] s.board t.board ∧ t.basis = s.basis ∧
      (∃ kept : List Route, kept.Sublist s.routes ∧
        t.routes = kept.map fun r => (s.count_route env r).2) ∧
      s.tick env = ((((((((((t.update_quality_fallback env).expire_stable_holds
        env).expire_debug_logging env).announce_capabilities env).check_virtual_mic_use
          env).check_capture_health env).expire_requests env).expire_unpaired env).expire_pairings
            env).expire_qr env).auto_connect env := by
  unfold tick
  dsimp only
  generalize hs₁ : (if TRUST_FLUSH_INTERVAL ≤ env.now - (prune_encoders _).trust_flushed_at then
    flush_trust env _ else prune_encoders _) = s₁
  have h₁ : Acts env s .Tick [] s.board s₁.board := by
    have hprune : Acts env s .Tick [] s.board (prune_encoders { s.tick_network_tests env with
        resume := (s.tick_network_tests env).resume.prune env.now }).board := by
      rw [prune_encoders_board]
      have hb := s.tick_network_tests_board env
      generalize s.tick_network_tests env = t at hb ⊢
      rw [show ({ t with resume := t.resume.prune env.now } : Actor).board = s.board from hb]
      exact .of_act .prune
    rw [← hs₁]
    exact acts_ite hprune hprune
  have hroutes : s₁.routes = s.routes := by
    have hr := congrArg Tables.routes (s.tick_network_tests_tables env)
    rw [← hs₁]
    split <;> exact hr
  have hbasis : s₁.basis = s.basis := by
    have hb := s.tick_network_tests_basis env
    rw [← hs₁]
    split <;> exact hb
  have h₂ := h₁.follow (expire_routes_acts env s s₁ hroutes)
  refine ⟨(s₁.expire_routes env).count_routes env,
    h₂.follow (count_routes_acts env s .Tick (s₁.expire_routes env)), ?_, ?_, rfl⟩
  · rw [count_routes_basis, expire_routes_basis, hbasis]
  · refine ⟨(s₁.expire_routes env).routes, hroutes ▸ s₁.expire_routes_sublist env, ?_⟩
    rw [count_routes_map]
    exact List.map_congr_left fun r _ => s.count_route_snd env _ r

/-- A whole tick. The streams asked for again by the fallback and by the holds are counted
separately, twice the streams with a device in all, and the virtual microphone adds one. -/
theorem tick_acts :
    ∃ l, (∀ p, l.count p ≤ s.asks env .Tick p) ∧ Acts env s .Tick l s.board (s.tick env).board := by
  have hsettles : Event.settles .Tick := trivial
  obtain ⟨s₃, h₃, -, -, htick⟩ := s.tick_counted env
  rw [htick]
  obtain ⟨l₄, hle₄, h₄⟩ := update_quality_fallback_acts env s .Tick s₃ hsettles (h₃.greets hsettles)
  have h₄' := h₃.follow h₄
  generalize s₃.update_quality_fallback env = s₄ at h₄ h₄' ⊢
  obtain ⟨l₅, hle₅, h₅⟩ := expire_stable_holds_acts env s .Tick s₄ hsettles (h₄'.greets hsettles)
  have h₅' := h₄'.trans h₅
  generalize s₄.expire_stable_holds env = s₅ at h₅ h₅' ⊢
  have hb : ((s₅.expire_debug_logging env).announce_capabilities env).board = s₅.board := by
    rw [announce_capabilities_board, expire_debug_logging_board]
  generalize (s₅.expire_debug_logging env).announce_capabilities env = s₆ at hb ⊢
  obtain ⟨l₇, hle₇, h₇⟩ := check_virtual_mic_use_acts env s .Tick s₆
  have h₇' := h₅'.trans (hb ▸ h₇)
  have hend := Acts.trans h₇' (tick_end_acts env _)
  rw [List.nil_append] at hend
  refine ⟨l₇ ++ (l₅ ++ l₄), fun p => ?_, hend⟩
  have hnone (r : Route) (hr : r ∈ s.board.aside) : r.status = .Paused := nomatch hr
  have ha₃ := (h₃.active_le hsettles hnone p).2
  have ha₄ := (h₄'.active_le hsettles hnone p).2
  have hc₄ := hle₄ p
  have hc₅ := hle₅ p
  have hauto : s₆.board.auto_mic = s.board.auto_mic := by
    rw [hb]
    exact h₅'.auto_mic fun _ _ => id
  have hc₇ : l₇.count p ≤ if s.board.auto_mic && env.virtual_mic_in_use then 1 else 0 := by
    rw [← hauto]
    rcases hle₇ with rfl | ⟨peer, hdue, rfl⟩
    · exact Nat.zero_le _
    · unfold mic_due at hdue
      simp only [Bool.and_eq_true] at hdue
      have huse : (s₆.board.auto_mic && env.virtual_mic_in_use) = true :=
        Bool.and_eq_true_iff.2 hdue.1.1.1
      rw [if_pos huse]
      exact List.count_le_length
  rw [List.count_append, List.count_append]
  unfold asks
  dsimp only
  by_cases hp : s.restarts p
  · rw [if_pos hp] at hc₄ hc₅ ⊢
    omega
  · rw [if_neg hp] at hc₄ hc₅ ⊢
    omega

end

section
variable (env : Env) (s₀ : Actor) (event : Event) (s : Actor)

omit [Crypto] in
@[simp] theorem sync_resumable_routes_board : (s.sync_resumable_routes env).board = s.board := by
  unfold sync_resumable_routes
  dsimp only
  rw [save_settings_board, set_saved_routes_board]

/-- What the settings say of playback reaches the routes that play. -/
def with_output (output : OutputSettings) (r : Route) : Route :=
  if r.kind.is_mic then r
  else
    { r with
      receiver_controls := r.receiver_controls.map fun c => { c with
        balance := output.balance, mono := output.mono, av_offset_ms := output.av_offset_ms } }

omit [Crypto] in
/-- What the settings say of playback is not heard as another stream. -/
theorem with_output_alike (output : OutputSettings) (r : Route) :
    r.Alike (with_output output r) := by
  unfold with_output
  split
  · exact .refl r
  · refine ⟨rfl, rfl, rfl, rfl, rfl, fun h => h, rfl, rfl, rfl, rfl, rfl, rfl, ?_, fun h => h⟩
    cases r.receiver_controls <;> rfl

omit [Crypto] in
/-- Nor does it say which streams of this computer's sound run. -/
theorem with_output_sends (output : OutputSettings) (r : Route) :
    ((with_output output r).kind == .SendSystemAudio &&
      (with_output output r).sender_controls.isSome) =
      (r.is_system && r.sender_controls.isSome) := by
  unfold with_output
  split <;> rfl

/-- The settings that `s` has are new; the rest is as the event met it. Running streams are
reconfigured once what the settings say of playback has reached them. -/
theorem apply_settings_settled (old : Settings)
    (hc : event.configures s₀.board.mutes s.settings.capture.mute_local_speakers)
    (hold : old.capture.mute_local_speakers = s₀.board.mutes)
    (hb : s.board = { s₀.board with
      mutes := s.settings.capture.mute_local_speakers
      max_receivers := s.settings.max_receivers
      auto_mic := s.settings.desktop.auto_start_mic }) :
    ∃ t : Actor, Acts env s₀ event [] s₀.board t.board ∧ t.basis = s.basis ∧
      t.routes = s₀.routes.map (with_output s.settings.output) ∧
      (s.apply_settings env old).board = (t.reconfigure_routes env old).board := by
  unfold apply_settings
  dsimp only
  generalize hs₁ : (if old.transport ≠ s.settings.transport then s.reset_dials env else s) = s₁
  have hb₁ : s₁.board = s.board ∧ s₁.settings = s.settings ∧ s₁.basis = s.basis := by
    rw [← hs₁]
    split <;> exact ⟨rfl, rfl, rfl⟩
  generalize hs₂ : s₁.set_routes (s₁.routes.map fun r =>
    if r.kind.is_mic = true then r
    else
      { r with
        receiver_controls := r.receiver_controls.map fun c => { c with
          balance := s₁.settings.output.balance, mono := s₁.settings.output.mono
          av_offset_ms := s₁.settings.output.av_offset_ms } }) = s₂
  have hb₂ : s₂.board = { s.board with
      routes := s₀.routes.map (with_output s.settings.output) } ∧ s₂.settings = s.settings ∧
      s₂.basis = s.basis := by
    have hroutes : s₁.routes = s₀.routes := by
      refine (congrArg Board.routes hb₁.1).trans ?_
      rw [hb]
      rfl
    rw [← hs₂, set_routes_board, hroutes, hb₁.1, hb₁.2.1]
    exact ⟨rfl, hb₁.2⟩
  generalize hs₃ : (if old.mic.noise_suppression ≠ s₂.settings.mic.noise_suppression then
    { s₂ with denoise := _ } else s₂) = s₃
  have hb₃ : s₃.board = s₂.board ∧ s₃.settings = s₂.settings ∧ s₃.basis = s₂.basis := by
    rw [← hs₃]
    split <;> exact ⟨rfl, rfl, rfl⟩
  -- The encoders of microphones follow the settings; their routes do not move.
  have htuned := s₃.update_mic_groups_tuned
  have hb₄ : s₃.update_mic_groups.board =
      { s₃.board with encoders := s₃.update_mic_groups.encoders } := rfl
  have hset₄ : s₃.update_mic_groups.settings = s₃.settings := rfl
  have hbasis₄ : s₃.update_mic_groups.basis = s.basis := hb₃.2.2.trans hb₂.2.2
  have hs₄ : s₃.update_mic_groups.speakers_muted_by = s₃.speakers_muted_by := rfl
  generalize s₃.update_mic_groups = s₄ at htuned hb₄ hset₄ hbasis₄ hs₄ ⊢
  generalize hs₅ : (if old.capture.mute_local_speakers ≠ s₄.settings.capture.mute_local_speakers ∧
      s₄.speakers_muted_by.is_empty = true ∧
      (s₄.routes.any fun r => r.kind == .SendSystemAudio && r.sender_controls.isSome) = true then
    s₄.emit (.SetSpeakersMuted s₄.settings.capture.mute_local_speakers) else s₄) = s₅
  have hbasis₅ : s₅.basis = s.basis := by
    rw [← hs₅, apply_ite Actor.basis, emit_basis, ite_self]
    exact hbasis₄
  have hb₅ : s₅.board = { s₀.board with
      routes := s₀.routes.map (with_output s.settings.output)
      encoders := s₄.encoders
      mutes := s.settings.capture.mute_local_speakers
      max_receivers := s.settings.max_receivers
      auto_mic := s.settings.desktop.auto_start_mic
      said := s₀.board.said ++ s₀.board.switches s.settings.capture.mute_local_speakers } := by
    have hset : s₄.settings = s.settings := hset₄.trans (hb₃.2.1.trans hb₂.2.1)
    have hrest : s₄.board = { s₀.board with
        routes := s₀.routes.map (with_output s.settings.output)
        encoders := s₄.encoders
        mutes := s.settings.capture.mute_local_speakers
        max_receivers := s.settings.max_receivers
        auto_mic := s.settings.desktop.auto_start_mic } := by
      rw [hb₄, hb₃.1, hb₂.1, hb]
    have hroutes : s₄.routes = s₀.routes.map (with_output s.settings.output) :=
      congrArg Board.routes hrest
    have hmuted : s₄.speakers_muted_by = s₀.board.muted_by := congrArg Board.muted_by hrest
    have hany : (s₄.routes.any fun r => r.kind == .SendSystemAudio && r.sender_controls.isSome) =
        s₀.board.routes.any fun r => r.is_system && r.sender_controls.isSome := by
      rw [hroutes, List.any_map]
      exact congrArg (List.any s₀.routes) (funext fun r => with_output_sends _ r)
    rw [← hs₅, hany, hset, hmuted, hold]
    unfold Board.switches
    split
    · rw [emit_speakers_board, hrest]
    · rw [hrest, List.append_nil]
  have hsettle : Acts env s₀ event [] s₀.board s₅.board := by
    rw [hb₅]
    refine .of_act (.settle _ _ _ _ s₄.encoders hc rfl ?_ ?_)
    · exact alike_map (with_output_alike _)
    · have hencoders : s₃.encoders = s₀.encoders := by
        refine (congrArg Board.encoders hb₃.1).trans ?_
        rw [hb₂.1, hb]
        rfl
      have hmic : s₃.mic_muted = s₀.mic_muted := by
        refine (congrArg Board.mic_muted hb₃.1).trans ?_
        rw [hb₂.1, hb]
        rfl
      rw [hencoders, hmic] at htuned
      exact htuned
  refine ⟨s₅, hsettle, hbasis₅, congrArg Board.routes hb₅, ?_⟩
  generalize s₅.reconfigure_routes env old = s₆
  generalize hs₇ : (if old.resume_routes_on_start ≠ s₆.settings.resume_routes_on_start then
    s₆.sync_resumable_routes env else s₆) = s₇
  have hb₇ : s₇.board = s₆.board := by
    rw [← hs₇, apply_ite Actor.board, sync_resumable_routes_board, ite_self]
  rw [apply_ite Actor.board, set_monitor_board, ite_self, hb₇]

/-- New settings: the acts that settle the board first, then the streams that are reconfigured. -/
theorem apply_settings_acts (old : Settings) (he : event.settles)
    (hc : event.configures s₀.board.mutes s.settings.capture.mute_local_speakers)
    (hold : old.capture.mute_local_speakers = s₀.board.mutes)
    (hb : s.board = { s₀.board with
      mutes := s.settings.capture.mute_local_speakers
      max_receivers := s.settings.max_receivers
      auto_mic := s.settings.desktop.auto_start_mic }) :
    ∃ l, (∀ p, l.count p ≤ if s₀.restarts p then s₀.board.active p else 0) ∧
      Acts env s₀ event l s₀.board (s.apply_settings env old).board := by
  obtain ⟨t, hsettle, -, -, hboard⟩ := apply_settings_settled env s₀ event s old hc hold hb
  have hg := hsettle.greets he
  have hactive (p : DeviceId) := (hsettle.active_le he (fun r hr => nomatch hr) p).2
  obtain ⟨l, _, hle, hl⟩ := reconfigure_active_acts env s₀ event t he hg
    (fun r =>
      let peer := r.peer.to_hex
      r.status = .Active ∧
        (old.stream_for peer ≠ t.settings.stream_for peer ∨
          (r.kind.is_mic ∧ r.kind.local_is_source ∧ old.mic ≠ t.settings.mic)))
    fun r hr => (of_decide_eq_true hr).1
  refine ⟨l, fun p => (hle p).trans ?_, ?_⟩
  · split
    · exact hactive p
    · exact le_refl _
  · have hall := Acts.trans hsettle hl
    rw [List.append_nil] at hall
    rw [hboard]
    exact hall

/-- The user's settings, sanitized, with the end of debug logging set by the clock of this
device. -/
theorem update_settings_acts (settings : Settings) (caller : Nat) :
    ∃ l, (∀ p, l.count p ≤ s.asks env (.Command (.UpdateSettings settings caller)) p) ∧
      Acts env s (.Command (.UpdateSettings settings caller)) l s.board
        (s.update_settings env settings caller).board := by
  unfold update_settings
  dsimp only
  rw [answer_board]
  generalize hnew : Settings.schedule_debug_logging _ s.settings.debug_logging env.now_unix = new
  have hmutes : new.capture.mute_local_speakers = settings.capture.mute_local_speakers := by
    rw [← hnew]
    unfold Settings.schedule_debug_logging
    dsimp only
    split <;> rfl
  have hsave : ((s.set_settings new).save_settings env).settings = new := by
    unfold save_settings
    split
    · rfl
    · exact error_notice_settings env _ _
  refine apply_settings_acts env s _ ((s.set_settings new).save_settings env) s.settings trivial ?_
    rfl ?_
  · rw [hsave]
    exact hmutes
  · rw [hsave, save_settings_board]
    rfl

/-- The stream settings of one device. -/
theorem set_device_profile_acts (id : DeviceId) (profile : Option DeviceProfile) :
    ∃ l, (∀ p, l.count p ≤ s.asks env (.Command (.SetDeviceProfile id profile)) p) ∧
      Acts env s (.Command (.SetDeviceProfile id profile)) l s.board
        (s.set_device_profile env id profile).board := by
  unfold set_device_profile
  dsimp only
  generalize hnew : Settings.sanitize _ = new
  have hmutes : new.capture.mute_local_speakers = s.settings.capture.mute_local_speakers := by
    rw [← hnew]
    rfl
  have hsave : ((s.set_settings new).save_settings env).settings = new := by
    unfold save_settings
    split
    · rfl
    · exact error_notice_settings env _ _
  refine apply_settings_acts env s _ ((s.set_settings new).save_settings env) s.settings trivial ?_
    rfl ?_
  · rw [hsave]
    exact hmutes
  · rw [hsave, save_settings_board]
    rfl

/-- Lossless audio preferred or not, for every active stream that this device asked for. -/
theorem set_prefer_lossless_acts (prefer : Bool) :
    ∃ l, (∀ p, l.count p ≤ s.asks env (.Command (.PreferLossless prefer)) p) ∧
      Acts env s (.Command (.PreferLossless prefer)) l s.board
        (s.set_prefer_lossless env prefer).board := by
  unfold set_prefer_lossless
  split
  · exact ⟨[], fun _ => Nat.zero_le _, .refl _⟩
  · obtain ⟨l, _, hle, hl⟩ := reconfigure_active_acts env s (.Command (.PreferLossless prefer))
      { s with prefer_lossless := prefer } trivial (.refl _)
      (fun r => r.status = .Active ∧ r.requested_locally) fun r hr => (of_decide_eq_true hr).1
    exact ⟨l, hle, hl⟩

end

/-! ## 8. Every event

The handlers joined, by commands first and then by events. The last results are the ones other
modules cite. -/

/-- What an event comes to, with the peers it asks for routes. -/
def Dispatched (env : Env) (s : Actor) (event : Event) (s' : Actor) : Prop :=
  (∃ l, (∀ p, l.count p ≤ s.asks env event p) ∧ Acts env s event l s.board s'.board) ∨
    s.Resumed env event s'

section
variable {env : Env} {s s' : Actor} {event : Event}

/-- Acts that ask nobody stay within any bound. -/
theorem Dispatched.of_acts (h : Acts env s event [] s.board s'.board) : s.Dispatched env event s' :=
  .inl ⟨[], fun _ => Nat.zero_le _, h⟩

theorem Dispatched.of_board (h : s'.board = s.board) : s.Dispatched env event s' :=
  .of_acts (.of_eq h)

theorem Handled.dispatched (h : s.Handled env event s') : s.Dispatched env event s' :=
  h.imp_left fun h => ⟨[], fun _ => Nat.zero_le _, h⟩

end

section
variable (env : Env) (s : Actor)

/-- The command that starts a route asks its own device, once. -/
theorem start_route_dispatched (id : DeviceId) (kind : RouteKind) (replace : Bool) (caller : Nat) :
    s.Dispatched env (.Command (.StartRoute id kind replace caller))
      (s.start_route env id kind replace (.caller caller)) := by
  refine .inl ⟨[id], fun p => ?_,
    start_route_keeping_acts env s _ s id kind replace (.caller caller) .default
      fun h => ⟨rfl, caller, by rw [h]⟩⟩
  unfold asks
  dsimp only
  rw [List.count_singleton]
  by_cases h : id = p
  · rw [if_pos h]
    split <;> simp
  · rw [if_neg h, if_neg]
    simpa using h

/-- A permission that is denied ends the streams it covers. -/
theorem on_set_permission_acts (id : DeviceId) (kind : PermissionKind) (policy : Policy) :
    Acts env s (.Command (.SetPermission id kind policy)) [] s.board
      (s.on_set_permission env id kind policy).board := by
  unfold on_set_permission
  dsimp only
  split
  · next hp =>
      exact enforce_permissions_acts env s (.Command (.SetPermission id kind policy))
        (s.set_permission env id kind policy) id fun _ hkey => ⟨hp, hkey⟩
  · exact .refl _

theorem pair_with_qr_board (payload : Option QrPairingPayload) :
    (s.pair_with_qr payload).1.board = s.board := by
  unfold pair_with_qr
  split
  · rfl
  · split
    · rfl
    · exact s.pair_dial_board _ _ _ _

/-- Every command, by its handler. -/
theorem handle_command_dispatched (cmd : Command) :
    s.Dispatched env (.Command cmd) (s.handle_command env cmd) := by
  cases cmd with
  | StartPairing caller => exact .of_board (answer_board _ _ _)
  | StopPairing => exact .of_board rfl
  | PairWithQr payload caller =>
      exact .of_board ((answer_board _ _ _).trans (s.pair_with_qr_board payload))
  | PairWithDevice id caller => exact .of_board (s.pair_by_code_board _ caller)
  | ConfirmPairing id accept => exact (confirm_pairing_handled env s id accept).dispatched
  | Connect id => exact .of_board (try_dial_trusted_board env _ id)
  | Disconnect id => exact .of_acts (disconnect_acts env s s id)
  | ForgetDevice id => exact .of_acts (forget_device_acts env s s id)
  | SetBlocked id blocked => exact .of_acts (set_blocked_acts env s s id blocked)
  | RenameDevice id alias_name => exact .of_board rfl
  | SetAutoConnect id enabled => exact .of_board rfl
  | SetPermission id kind policy => exact .of_acts (s.on_set_permission_acts env id kind policy)
  | StartRoute id kind replace caller => exact s.start_route_dispatched env id kind replace caller
  | StopRoute key =>
      exact .of_acts (stop_route_by_key_acts env s _ s key _ _ fun _ _ _ => .inl rfl)
  | SetRouteVolume key volume => exact .of_acts (set_route_volume_acts env s _ s key volume)
  | SetRouteMuted key muted => exact .of_acts (set_route_muted_acts env s _ s key muted)
  | SetRouteKeepRunning key keep => exact .of_acts (set_route_keep_running_acts env s _ s key keep)
  | SetPeerSpeakersMuted id muted => exact .of_board (s.set_peer_speakers_muted_board id muted)
  | RespondRouteRequest request_id accept remember =>
      exact .of_acts (respond_request_acts env s request_id accept remember)
  | SetMicMuted muted => exact .of_acts (set_mic_muted_acts env s muted)
  | SetMicMonitor enabled => exact .of_board (s.set_monitor_board env enabled)
  | AudioDevicesChanged input output =>
      exact .of_acts (on_audio_devices_changed_acts env s input output)
  | UpdateSettings settings caller => exact .inl (s.update_settings_acts env settings caller)
  | NetworkChanged => exact .of_board rfl
  | SetForeground foreground =>
      refine .of_board ?_
      unfold handle_command
      dsimp only
      split <;> rfl
  | PreferLossless prefer => exact .inl (s.set_prefer_lossless_acts env prefer)
  | SetDeviceProfile id profile => exact .inl (s.set_device_profile_acts env id profile)
  | RunNetworkTest id caller => exact .of_board (s.start_network_test_board env id _)
  | CancelNetworkTest id => exact .of_board (s.end_network_test_board id _)

/-- Every event is a sequence of acts on the board. -/
theorem handle_dispatched (event : Event) : s.Dispatched env event (s.handle env event) := by
  cases event with
  | Command cmd => exact s.handle_command_dispatched env cmd
  | Incoming conn => exact .of_board rfl
  | AddressIsSelf addr => exact .of_board rfl
  | Dialed conn_id conn pair => exact .of_board rfl
  | DialFailed conn_id target error => exact .of_board (s.on_dial_failed_board env _ _ _)
  | Discovered id addresses => exact .of_board rfl
  | Lost id => exact .of_board rfl
  | AudioFailed peer route error => exact .of_acts (on_audio_failed_acts env s s peer route error)
  | PairAddressResolved found caller => exact .of_board (s.pair_by_code_board _ caller)
  | SenderReady key start_id result =>
      exact .of_acts (on_sender_ready_acts env s key start_id result)
  | ReceiverReady peer route start_id result =>
      exact .of_acts (on_receiver_ready_acts env s peer route start_id result)
  | EncoderFailed key error => exact .of_acts (on_encoder_failed_acts env s key error)
  | NetTestFinished peer test_id report =>
      exact .of_board (s.on_net_test_finished_board peer test_id report)
  | Established est => exact (s.on_established_handled env est).dispatched
  | Control conn_id body => exact (s.on_control_handled env conn_id body).dispatched
  | Closed conn_id reason => exact .of_acts (s.on_closed_acts env conn_id reason)
  | HandshakeFailed conn_id incompatible =>
      exact .of_board (s.on_handshake_failed_board env conn_id incompatible)
  | Tick => exact .inl (s.tick_acts env)

omit [Crypto] in
/-- Only the start of a route and the events that settle profiles ask anybody. -/
theorem asks_eq_zero {event : Event} (hs : ¬ event.settles)
    (hr : ∀ id kind replace caller, event ≠ .Command (.StartRoute id kind replace caller))
    (p : DeviceId) : s.asks env event p = 0 := by
  cases event with
  | Command cmd =>
      cases cmd with
      | StartRoute => exact absurd rfl (hr _ _ _ _)
      | UpdateSettings | SetDeviceProfile | PreferLossless => exact absurd trivial hs
      | _ => rfl
  | Tick => exact absurd trivial hs
  | _ => rfl

/-- The event that brings a session asks nobody beyond the resume. -/
theorem asks_of_installs {event : Event} {id : DeviceId}
    {est : Established} (h : s.installs env event id est) (p : DeviceId) :
    s.asks env event p = 0 := by
  refine s.asks_eq_zero env (fun hs => s.not_installs_of_settles hs h) ?_ p
  rintro _ _ _ _ rfl
  rcases h with ⟨h, _⟩ | ⟨_, h, _⟩
  · cases h
  · exact h

/-- Nor does the one at which a peer's request is consented to. -/
theorem asks_of_consents {event : Event} {peer : DeviceId}
    {req : RouteRequest} {kind : RouteKind} (h : s.consents env event peer req kind)
    (p : DeviceId) : s.asks env event p = 0 := by
  refine s.asks_eq_zero env (not_settles_of_consents h) ?_ p
  rintro _ _ _ _ rfl
  rcases h with ⟨⟨_, h, _⟩, _⟩ | ⟨_, _, _, h, _⟩
  · cases h
  · cases h

/-- Every event, as acts alone. Where a device connects, only it is asked for routes. -/
theorem handle_acts (event : Event) :
    ∃ l, Acts env s event l s.board (s.handle env event).board ∧
      ∀ peer est, s.installs env event peer est → peer ∈ l → ∀ p ∈ l, p = peer := by
  rcases s.handle_dispatched env event with ⟨l, hl, h⟩ | ⟨id, est, t, hp, _, h, he⟩
  · refine ⟨l, h, fun peer est hi hmem => absurd hmem (List.count_eq_zero.1 ?_)⟩
    exact Nat.le_zero.1 (s.asks_of_installs env hi peer ▸ hl peer)
  · rw [he]
    refine ⟨_, h.trans (resume_routes_acts env s event t hp.installs),
      fun peer _ _ hmem p hmem' => ?_⟩
    have hid : ∀ q ∈ ((t.resumed_kinds id).map fun _ => id) ++ [id] ++ [], q = id := by
      intro q hq
      rw [List.append_nil] at hq
      rcases List.mem_append.1 hq with hq | hq
      · obtain ⟨_, _, rfl⟩ := List.mem_map.1 hq
        rfl
      · exact List.mem_singleton.1 hq
    exact (hid p hmem').trans (hid peer hmem).symm

end

end Actor

end SoundPush
