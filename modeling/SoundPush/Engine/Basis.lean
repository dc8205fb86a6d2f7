/-
`Basis` -- what profiles and timers go by: the settings, the devices held on the Stable profile, and
what the virtual microphone has been used for.

Most handlers leave it alone, one lemma each: § 1 for routes, § 2 for the rest of an update and of a
tick. The routes saved and the microphone used last are left out, since routes that start and stop
change them.

Why these fields. The profile that a route is given is computed from the settings, from whether this
device prefers lossless audio, from the Stable hold on the peer and from the quality fallback that
the route itself carries. The timers of a tick read the settings and, for the virtual microphone,
what programs have been using it. So a run of such functions may be reordered with a reading of any
of these, and the proofs about profiles and about timers need not follow what the routes do between.

How it is put together. `Actor.basis` blanks the two fields of the settings that starting and
stopping routes write (`saved_routes`, `desktop.last_mic_peer`), and every lemma is an equation
`(s.f …).basis = s.basis`, tagged for simp where the left side determines the function. A handler is
unfolded once, split along its own branches, and each branch closes by the lemmas above it. Loops
over routes, devices or timers go through `foldl_basis`, by induction on the list.
-/
import SoundPush.Engine.Handlers

set_option autoImplicit false

namespace SoundPush

/-- What profiles and timers go by. -/
structure Basis where
  settings : Settings
  prefer_lossless : Bool
  stabilized : Table DeviceId Instant
  local_audio : LocalAudio

namespace Actor

/-- The part of the state that profiles and timers read, with the two settings blanked that
routes write as they start and stop. -/
def basis (s : Actor) : Basis where
  settings := { s.settings with
    saved_routes := []
    desktop := { s.settings.desktop with last_mic_peer := none } }
  prefer_lossless := s.prefer_lossless
  stabilized := s.stabilized
  local_audio := s.local_audio

/-! ## 1. Routes

From single fields and effects up to starting, stopping, rebuilding and reconfiguring a route. Only
the handlers that read a result back (`begin_pipelines` in `rebuild_route`, the dropped subscription
in `begin_sender`) need more than their own branches. -/

/-- A loop leaves the basis alone if its body does, by induction on what it runs over. -/
theorem foldl_basis {α : Type} {f : Actor → α → Actor} (h : ∀ s x, (f s x).basis = s.basis)
    (xs : List α) (s : Actor) : (xs.foldl f s).basis = s.basis := by
  induction xs generalizing s with
  | nil => rfl
  | cons x xs ih => exact (ih (f s x)).trans (h s x)

section
variable (env : Env) (s : Actor)

@[simp] theorem emit_basis (o : Output) : (s.emit o).basis = s.basis := rfl

@[simp] theorem set_routes_basis (routes : List Route) : (s.set_routes routes).basis = s.basis :=
  rfl

@[simp] theorem set_encoders_basis (encoders : Table EncoderKey EncoderSlot) :
    (s.set_encoders encoders).basis = s.basis := rfl

@[simp] theorem set_net_tests_basis (tests : Table DeviceId NetTest) :
    (s.set_net_tests tests).basis = s.basis := rfl

@[simp] theorem set_pairings_basis (pairings : Table DeviceId PendingPairing) :
    (s.set_pairings pairings).basis = s.basis := rfl

@[simp] theorem set_saved_routes_basis (saved : List SavedRoute) :
    (s.set_saved_routes saved).basis = s.basis := rfl

@[simp] theorem close_basis (conn_id : Nat) (reason : StopReason) :
    (s.close conn_id reason).basis = s.basis := rfl

@[simp] theorem notice_basis (key : String) : (s.notice key).basis = s.basis := rfl

@[simp] theorem prune_encoders_basis : s.prune_encoders.basis = s.basis := rfl

@[simp] theorem update_mic_groups_basis : s.update_mic_groups.basis = s.basis := rfl

@[simp] theorem take_start_id_basis : s.take_start_id.1.basis = s.basis := rfl

@[simp] theorem send_to_basis (peer : DeviceId) (body : Body) :
    (s.send_to peer body).basis = s.basis := by
  unfold send_to
  split <;> rfl

@[simp] theorem answer_basis (reply : Reply) (result : Except EngineError Answer) :
    (s.answer reply result).basis = s.basis := by
  cases reply <;> rfl

@[simp] theorem answer_route_basis (r : Route) (result : Except EngineError Answer) :
    (s.answer_route r result).basis = s.basis := by
  unfold answer_route
  split
  · simp
  · rfl

@[simp] theorem error_notice_basis (error : EngineError) :
    (s.error_notice env error).basis = s.basis := by
  unfold error_notice
  split <;> rfl

@[simp] theorem save_settings_basis : (s.save_settings env).basis = s.basis := by
  unfold save_settings
  split
  · rfl
  · simp

@[simp] theorem update_keep_alive_basis : s.update_keep_alive.basis = s.basis := by
  unfold update_keep_alive
  dsimp only
  split <;> rfl

@[simp] theorem drop_subscription_basis (subscription : Option Subscription) :
    (s.drop_subscription subscription).basis = s.basis := by
  cases subscription <;> rfl

@[simp] theorem release_pipelines_basis (r : Route) :
    (s.release_pipelines r).1.basis = s.basis := by
  unfold release_pipelines
  dsimp only
  split <;> simp

@[simp] theorem unmute_after_basis (r : Route) : (s.unmute_after r).basis = s.basis := by
  unfold unmute_after
  split <;> rfl

@[simp] theorem forget_saved_route_basis (r : Route) (reason : StopReason) :
    (s.forget_saved_route env r reason).basis = s.basis := by
  unfold forget_saved_route
  dsimp only
  split
  · simp
  · rfl

/-- Beginning to play a route here spawns the opening of the playback and changes the route
only. -/
theorem begin_receiver_basis (r : Route) (profile : StreamProfile) :
    (s.begin_receiver env r profile).1.basis = s.basis := by
  unfold begin_receiver
  dsimp only
  split
  · rfl
  · simp

/-- Beginning to send changes the encoders and the route. The old subscription and the speakers
are generalised away first, so that the last split is on the encoder alone. -/
theorem begin_sender_basis (r : Route) (profile : StreamProfile) :
    (s.begin_sender env r profile).1.basis = s.basis := by
  unfold begin_sender
  split
  · rfl
  · dsimp only
    have hdrop := s.drop_subscription_basis r.subscription
    generalize s.drop_subscription r.subscription = s₁ at hdrop ⊢
    generalize hs₂ : (if r.kind = .SendSystemAudio ∧ s₁.settings.capture.mute_local_speakers = true
      then s₁.emit (.SetSpeakersMuted true) else s₁) = s₂
    have hmute : s₂.basis = s.basis := by
      rw [← hs₂, ← hdrop]
      split <;> rfl
    rw [← hmute]
    split
    · split <;> rfl
    · rfl
    · rfl

@[simp] theorem begin_pipelines_basis (r : Route) :
    (s.begin_pipelines env r).1.basis = s.basis := by
  unfold begin_pipelines
  split
  · rfl
  · rfl
  · split
    · exact s.begin_sender_basis env r _
    · exact s.begin_receiver_basis env r _

@[simp] theorem fail_route_basis (peer : DeviceId) (id : UInt8) (error : EngineError) :
    (s.fail_route env peer id error).basis = s.basis := by
  unfold fail_route
  split
  · rfl
  · dsimp only
    split <;> simp

@[simp] theorem stop_route_by_key_basis (key : RouteKey) (reason : StopReason)
    (notify_peer : Bool) : (s.stop_route_by_key env key reason notify_peer).basis = s.basis := by
  unfold stop_route_by_key
  split
  · rfl
  · dsimp only
    split <;> split <;> simp

@[simp] theorem make_room_basis (feed : Option RouteKey) :
    (s.make_room env feed).basis = s.basis := by
  unfold make_room
  split
  · simp
  · rfl

@[simp] theorem request_route_basis (peer : DeviceId) (kind : RouteKind) (replace : Bool)
    (reply : Reply) (fallback : QualityFallback) :
    (s.request_route env peer kind replace reply fallback).basis = s.basis := by
  unfold request_route
  dsimp only
  split
  · simp
  · rfl

/-- Starting a route, whichever way it goes: it already runs, this device cannot do it, another
device feeds the virtual microphone, or the peer is asked. -/
@[simp] theorem start_route_keeping_basis (peer : DeviceId) (kind : RouteKind) (replace : Bool)
    (reply : Reply) (fallback : QualityFallback) :
    (s.start_route_keeping env peer kind replace reply fallback).basis = s.basis := by
  unfold start_route_keeping
  split
  · simp
  · split
    · simp
    · dsimp only
      split <;> simp

@[simp] theorem start_route_basis (peer : DeviceId) (kind : RouteKind) (replace : Bool)
    (reply : Reply) : (s.start_route env peer kind replace reply).basis = s.basis :=
  s.start_route_keeping_basis env peer kind replace reply .default

/-- A route rebuilt for another encoding. Its pipelines are released and begun again on the
state without it, so the two lemmas are joined before the result is looked at. -/
@[simp] theorem rebuild_route_basis (key : RouteKey) :
    (s.rebuild_route env key).basis = s.basis := by
  unfold rebuild_route
  split
  · rfl
  · next route rest _ =>
      dsimp only
      have hbegin := begin_pipelines_basis env ((s.set_routes rest).release_pipelines route).1
        ((s.set_routes rest).release_pipelines route).2
      rw [release_pipelines_basis, set_routes_basis] at hbegin
      split
      · next heq =>
          rw [heq] at hbegin
          simpa using hbegin
      · next heq =>
          rw [heq] at hbegin
          simpa using hbegin

@[simp] theorem apply_profile_basis (key : RouteKey) (next : StreamProfile) :
    (s.apply_profile env key next).basis = s.basis := by
  unfold apply_profile
  split
  · rfl
  · dsimp only
    rw [apply_ite Actor.basis]
    simp

@[simp] theorem reset_fallback_basis (r : Route) : (s.reset_fallback r).basis = s.basis := by
  unfold reset_fallback
  split <;> rfl

@[simp] theorem restart_route_basis (key : RouteKey) :
    (s.restart_route env key).basis = s.basis := by
  unfold restart_route
  split
  · rfl
  · dsimp only
    split
    · rfl
    · split <;> simp

/-- Reconfiguring a route ends in one of: nothing, a restart, a new profile, or an update for
the peer. -/
@[simp] theorem reconfigure_route_basis (key : RouteKey) :
    (s.reconfigure_route env key).basis = s.basis := by
  unfold reconfigure_route
  split
  · rfl
  · split
    · dsimp only
      split
      · simp
      · split
        · simp
        · split <;> simp
    · rfl

/-- The same for a list of routes, one after the other. -/
@[simp] theorem reconfigure_each_basis (keys : List RouteKey) :
    (s.reconfigure_each env keys).basis = s.basis :=
  foldl_basis (fun s key => s.reconfigure_route_basis env key) keys s

end

/-! ## 2. The rest of an update and of a tick

What is left of `update_settings` once the new settings are stored, and each timer of `tick`. The
timers that do write the basis (the end of a Stable hold, the end of debug logging, and the look at
who uses the virtual microphone) are missing here: what they write is the subject of the modules
that treat them. -/

section
variable (env : Env) (s : Actor)

@[simp] theorem set_monitor_basis (enabled : Bool) :
    (s.set_monitor env enabled).basis = s.basis := by
  unfold set_monitor
  dsimp only
  rw [update_keep_alive_basis]
  split
  · split
    · rfl
    · exact error_notice_basis env _ _
  · rfl

@[simp] theorem sync_resumable_routes_basis : (s.sync_resumable_routes env).basis = s.basis := by
  unfold sync_resumable_routes
  simp

@[simp] theorem reconfigure_routes_basis (old : Settings) :
    (s.reconfigure_routes env old).basis = s.basis := s.reconfigure_each_basis env _

/-- What follows from new settings leaves them as they are. -/
theorem apply_settings_basis (old : Settings) : (s.apply_settings env old).basis = s.basis := by
  unfold apply_settings
  dsimp only
  have hreset (s : Actor) : (s.reset_dials env).basis = s.basis := rfl
  have hdenoise (s : Actor) : ({ s with denoise := s.denoise.reset } : Actor).basis = s.basis := rfl
  rw [apply_ite Actor.basis, set_monitor_basis, ite_self, apply_ite Actor.basis,
    sync_resumable_routes_basis, ite_self, reconfigure_routes_basis, apply_ite Actor.basis,
    emit_basis, ite_self, update_mic_groups_basis, apply_ite Actor.basis, hdenoise, ite_self,
    set_routes_basis, apply_ite Actor.basis, hreset, ite_self]

/-- A network test that ends answers its callers. The probe it may abort first and the answers
are both plain effects. -/
@[simp] theorem finish_network_test_basis (peer : DeviceId) (result : Except EngineError Nat) :
    (s.finish_network_test peer result).basis = s.basis := by
  unfold finish_network_test
  split
  · rfl
  · next test _ =>
      dsimp only
      have habort : (if test.phase = .Running then s.emit (.AbortTest test.test_id) else s).basis =
          s.basis := by
        split <;> rfl
      have hanswers := foldl_basis
        (fun s reply => s.answer_basis reply (result.map Answer.Report)) test.replies
        (if test.phase = .Running then s.emit (.AbortTest test.test_id) else s)
      split
      · simpa using hanswers.trans habort
      · simpa using hanswers.trans habort

@[simp] theorem tick_network_tests_basis : (s.tick_network_tests env).basis = s.basis := by
  unfold tick_network_tests
  exact foldl_basis (fun s (e : DeviceId × NetTest) => s.finish_network_test_basis e.1 _) _ s

/-- Routes whose time ran out fail one by one. -/
@[simp] theorem expire_routes_basis : (s.expire_routes env).basis = s.basis := by
  unfold expire_routes
  refine foldl_basis (fun s key => ?_) _ s
  unfold expire_route
  dsimp only
  rw [stop_route_by_key_basis]
  split
  · simp
  · rfl

@[simp] theorem count_each_basis (routes : List Route) :
    (count_each env s routes).1.basis = s.basis := by
  induction routes generalizing s with
  | nil => rfl
  | cons r routes ih =>
      rw [count_each]
      dsimp only
      rw [ih]
      unfold count_route
      split
      · rfl
      · simp

@[simp] theorem count_routes_basis : (s.count_routes env).basis = s.basis :=
  s.count_each_basis env s.routes

/-- The fallback is kept in the routes, so that raising it and telling the peers leaves the
basis. -/
@[simp] theorem update_quality_fallback_basis :
    (s.update_quality_fallback env).basis = s.basis := by
  unfold update_quality_fallback
  dsimp only
  refine (foldl_basis (fun s r => ?_) _ _).trans ?_
  · simp
  · simp

/-- The microphone used last is one of the two settings that the basis blanks. -/
@[simp] theorem remember_mic_peer_basis : (s.remember_mic_peer env).basis = s.basis := by
  unfold remember_mic_peer
  split
  · rfl
  · dsimp only
    split
    · rfl
    · rw [save_settings_basis]
      rfl

@[simp] theorem check_capture_health_basis : (s.check_capture_health env).basis = s.basis := by
  unfold check_capture_health
  dsimp only
  split <;> rfl

@[simp] theorem expire_requests_basis : (s.expire_requests env).basis = s.basis := by
  unfold expire_requests
  refine foldl_basis (fun s e => ?_) _ s
  exact send_to_basis _ _ _

@[simp] theorem expire_unpaired_basis : (s.expire_unpaired env).basis = s.basis := by
  unfold expire_unpaired
  refine foldl_basis (fun s e => ?_) _ s
  exact close_basis _ _ _

@[simp] theorem expire_pairings_basis : (s.expire_pairings env).basis = s.basis := by
  unfold expire_pairings
  refine foldl_basis (fun s e => ?_) _ s
  exact close_basis _ _ _

@[simp] theorem expire_qr_basis : (s.expire_qr env).basis = s.basis := by
  unfold expire_qr
  split <;> rfl

theorem try_dial_trusted_basis (id : DeviceId) : (s.try_dial_trusted env id).basis = s.basis := by
  unfold try_dial_trusted
  split
  · rfl
  · split
    · rfl
    · dsimp only
      split
      · rfl
      · split <;> rfl

/-- Dialing the trusted devices changes the dials and nothing that a profile reads. -/
@[simp] theorem auto_connect_basis : (s.auto_connect env).basis = s.basis := by
  unfold auto_connect
  split
  · rfl
  · exact foldl_basis (fun s (d : TrustedDevice) => s.try_dial_trusted_basis env d.device_id) _ s

end

end Actor

end SoundPush
