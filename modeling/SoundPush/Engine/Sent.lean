/-
`Sent` -- refusals and profile updates among what an event sends.

Few handlers send either. `Actor.picked` is what a predicate picks of the effects of one event, and
for a predicate that picks nothing else (`Output.Rare`) the shared work on routes, sessions and
pipelines leaves it as it was.

How it is put together. The predicate is a class parameter, so that one family of lemmas serves both
readers: the module on refusals looks for the one answer that a refused request gets, the module on
profile updates for the one message that an update from a peer is told back with. A lemma ending in
`_picked` says of one function that what the predicate picks is the same before and after it, and is
tagged for simp, so that a handler built of such functions is done by unfolding it once. The two
functions that can send any message, `emit` and `send_to`, come twice: `_unpicked` for any predicate
at a message it does not pick, `_picked` for a plain message under the class.

Where a handler branches on what it just computed, the branch is generalised before it is split: the
lemma then never sees more of the state than the effects.
-/
import SoundPush.Engine.Upkeep

set_option autoImplicit false

namespace SoundPush

/-- Anything but a refusal or a profile update. -/
def Output.plain : Output → Bool
  | .Send _ (.RouteReject _) | .Send _ (.RouteUpdate _) => false
  | _ => true

/-- `p` picks refusals and profile updates at most. -/
class Output.Rare (p : Output → Bool) : Prop where
  plain : ∀ o, o.plain = true → p o = false

namespace Actor

/-- The effects so far that `p` picks. -/
def picked (p : Output → Bool) (s : Actor) : List Output := s.out.filter p

section
variable {p : Output → Bool} (env : Env) (s : Actor)

@[simp] theorem set_encoders_picked (encoders : Table EncoderKey EncoderSlot) :
    (s.set_encoders encoders).picked p = s.picked p := rfl

@[simp] theorem set_saved_routes_picked (saved : List SavedRoute) :
    (s.set_saved_routes saved).picked p = s.picked p := rfl

/-- A subscription that goes sends nothing to a peer. -/
@[simp] theorem drop_subscription_picked (subscription : Option Subscription) :
    (s.drop_subscription subscription).picked p = s.picked p := by
  cases subscription <;> rfl

/-- An effect that the predicate does not pick adds nothing to what it picks. -/
theorem emit_unpicked {o : Output} (h : p o = false) : (s.emit o).picked p = s.picked p := by
  unfold emit picked
  rw [List.filter_append, List.filter_singleton, h]
  exact List.append_nil _

/-- A message that the predicate picks on no connection adds nothing either, whether or not the
peer has a session to send it on. -/
theorem send_to_unpicked (peer : DeviceId) {body : Body}
    (h : ∀ conn_id, p (.Send conn_id body) = false) :
    (s.send_to peer body).picked p = s.picked p := by
  unfold send_to
  split
  · exact s.emit_unpicked (h _)
  · rfl

variable [Output.Rare p]

/-- Under the class a plain effect adds nothing. -/
theorem emit_picked {o : Output} (h : o.plain = true) : (s.emit o).picked p = s.picked p :=
  s.emit_unpicked (Output.Rare.plain o h)

/-- A caller is answered on its own channel, never by a message to a peer. -/
@[simp] theorem answer_picked (reply : Reply) (result : Except EngineError Answer) :
    (s.answer reply result).picked p = s.picked p := by
  cases reply with
  | caller id => exact s.emit_picked rfl
  | dropped => rfl

@[simp] theorem answer_route_picked (r : Route) (result : Except EngineError Answer) :
    (s.answer_route r result).picked p = s.picked p := by
  unfold answer_route
  split
  · exact s.answer_picked _ _
  · rfl

@[simp] theorem error_notice_picked (error : EngineError) :
    (s.error_notice env error).picked p = s.picked p := by
  unfold error_notice
  split
  · exact s.emit_picked rfl
  · exact s.emit_picked rfl

@[simp] theorem save_settings_picked : (s.save_settings env).picked p = s.picked p := by
  unfold save_settings
  split
  · rfl
  · exact s.error_notice_picked env _

/-- What is kept alive is asked of the operating system, which no peer sees. -/
@[simp] theorem update_keep_alive_picked : s.update_keep_alive.picked p = s.picked p := by
  unfold update_keep_alive
  dsimp only
  split
  · exact emit_picked _ rfl
  · rfl

/-- A pipeline that is released takes its sink and its subscription along, both on this device. -/
@[simp] theorem release_pipelines_picked (r : Route) :
    (s.release_pipelines r).1.picked p = s.picked p := by
  unfold release_pipelines
  dsimp only
  split
  · exact (emit_picked _ rfl).trans (s.drop_subscription_picked _)
  · exact s.drop_subscription_picked _

@[simp] theorem unmute_after_picked (r : Route) : (s.unmute_after r).picked p = s.picked p := by
  unfold unmute_after
  split
  · exact s.emit_picked rfl
  · rfl

theorem begin_receiver_picked (r : Route) (profile : StreamProfile) :
    (s.begin_receiver env r profile).1.picked p = s.picked p := by
  unfold begin_receiver
  dsimp only
  split
  · rfl
  · exact emit_picked _ rfl

/-- A sender that begins sends nothing yet. The state is generalised at each branch point, first
past the old subscription and then past the speakers, so that the last split is on the encoder
alone. -/
theorem begin_sender_picked (r : Route) (profile : StreamProfile) :
    (s.begin_sender env r profile).1.picked p = s.picked p := by
  unfold begin_sender
  split
  · rfl
  · dsimp only
    have hdrop := s.drop_subscription_picked (p := p) r.subscription
    generalize s.drop_subscription r.subscription = s₁ at hdrop ⊢
    generalize hs₂ : (if r.kind = .SendSystemAudio ∧ s₁.settings.capture.mute_local_speakers = true
      then s₁.emit (.SetSpeakersMuted true) else s₁) = s₂
    have hmute : s₂.picked p = s.picked p := by
      rw [← hs₂, ← hdrop]
      split
      · exact s₁.emit_picked rfl
      · rfl
    rw [← hmute]
    split
    · split <;> rfl
    · rfl
    · exact emit_picked _ rfl

/-- The two directions together, in the shape the callers meet: the state that `begin_pipelines`
returned. -/
theorem begin_pipelines_picked {r r' : Route} {t : Actor} {result : Except EngineError Bool}
    (h : s.begin_pipelines env r = (t, r', result)) : t.picked p = s.picked p := by
  refine (congrArg (picked p ·.1) h).symm.trans ?_
  unfold begin_pipelines
  split
  · rfl
  · rfl
  · split
    · exact s.begin_sender_picked env r _
    · exact s.begin_receiver_picked env r _

end

end Actor

end SoundPush
