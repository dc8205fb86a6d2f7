/-
`Board` -- routes, audio groups and the speakers, seen apart from the rest of the
actor, and what one event can do to them.

`Actor.board` is that part of the state: the route table, the sessions routes run
over, the encoder groups, the mutes, and of the effects so far those that concern
them. An `Act` is one step of a handler on it. As with `Move`, an act carries what
the source checked before it, so that a law of routes has to be proved of each
kind of act and of nothing else.
-/
import SoundPush.Engine.Moves

set_option autoImplicit false

namespace SoundPush

/-! ## 1. The board -/

/-- What the speakers are told by an output. -/
def Output.says (o : Output) : Option Bool :=
  match o with
  | .SetSpeakersMuted muted => some muted
  | _ => none

/-- The connection an output closes. -/
def Output.closes (o : Output) : Option Nat :=
  match o with
  | .Close conn_id _ => some conn_id
  | _ => none

/-- The audio device an output has opened. -/
def Output.opens (o : Output) : Option Task :=
  match o with
  | .Spawn (.NetworkTest ..) => none
  | .Spawn task => some task
  | _ => none

structure Board where
  routes : List Route
  /-- paused routes that are out of the table while they are asked for again -/
  aside : List Route
  sessions : Table DeviceId Session
  encoders : Table EncoderKey EncoderSlot
  next_start_id : Nat
  mic_muted : Bool
  /-- "mute this computer's speakers while sending" -/
  mutes : Bool
  max_receivers : Nat
  /-- "start the phone microphone when an app opens the virtual one" -/
  auto_mic : Bool
  muted_by : Table DeviceId Unit
  /-- what the speakers have been told, in order -/
  said : List Bool
  /-- the audio devices this event has started to open -/
  opened : List Task
  /-- the connections this event has closed -/
  closed : List Nat

def Actor.board (s : Actor) : Board :=
  { routes := s.routes
    aside := []
    sessions := s.sessions
    encoders := s.encoders
    next_start_id := s.next_start_id
    mic_muted := s.mic_muted
    mutes := s.settings.capture.mute_local_speakers
    max_receivers := s.settings.max_receivers
    auto_mic := s.settings.desktop.auto_start_mic
    muted_by := s.speakers_muted_by
    said := s.out.filterMap Output.says
    opened := s.out.filterMap Output.opens
    closed := s.out.filterMap Output.closes }

/-- A subscription is dropped. -/
def dropped (e : Table EncoderKey EncoderSlot) (subscription : Option Subscription) :
    Table EncoderKey EncoderSlot :=
  match subscription with
  | none => e
  | some sub =>
      e.modify sub.key fun slot =>
        match slot with
        | .Running sender =>
            if sender.start_id = sub.start_id then
              .Running { sender with
                subscribers := sender.subscribers.filter fun m => m.id ≠ sub.id }
            else slot
        | .Starting .. => slot

/-- Groups nobody listens to are closed. -/
def pruned (e : Table EncoderKey EncoderSlot) : Table EncoderKey EncoderSlot :=
  e.retain fun _ slot =>
    match slot with
    | .Running sender => !sender.subscribers.isEmpty
    | .Starting .. => true

theorem pruned_pruned (e : Table EncoderKey EncoderSlot) : pruned (pruned e) = pruned e :=
  Table.retain_retain e _

/-- What a dropped subscription leaves of a group. -/
theorem get_dropped {e : Table EncoderKey EncoderSlot} {subscription : Option Subscription}
    {key : EncoderKey} {slot : EncoderSlot} (h : (dropped e subscription).get key = some slot) :
    e.get key = some slot ∨ ∃ sender sub, e.get key = some (.Running sender) ∧
      subscription = some sub ∧ sub.key = key ∧ sub.start_id = sender.start_id ∧
      slot = .Running { sender with
        subscribers := sender.subscribers.filter fun m => m.id ≠ sub.id } := by
  unfold dropped at h
  split at h
  · exact .inl h
  · next sub =>
      rw [Table.get_modify] at h
      split at h
      · next hkey =>
          obtain ⟨old, hold, hslot⟩ := Option.map_eq_some_iff.1 h
          split at hslot
          · next sender =>
              split at hslot
              · next hid =>
                  exact .inr ⟨sender, sub, hold, rfl, hkey.symm, hid.symm, hslot.symm⟩
              · exact .inl (hslot ▸ hold)
          · exact .inl (hslot ▸ hold)
      · exact .inl h

theorem get_pruned {e : Table EncoderKey EncoderSlot} {key : EncoderKey} {slot : EncoderSlot} :
    (pruned e).get key = some slot ↔ e.get key = some slot ∧
      ∀ sender, slot = .Running sender → sender.subscribers ≠ [] := by
  unfold pruned
  rw [Table.get_retain, Option.filter_eq_some_iff]
  refine and_congr_right fun _ => ?_
  cases slot with
  | Starting => simp
  | Running sender => simp

/-- A running group is closed. -/
def closed (e : Table EncoderKey EncoderSlot) (key : Option EncoderKey) :
    Table EncoderKey EncoderSlot :=
  match key with
  | none => e
  | some key =>
      match e.get key with
      | some (.Running _) => e.erase key
      | _ => e

theorem get_of_get_closed {e : Table EncoderKey EncoderSlot} {closing : Option EncoderKey}
    {key : EncoderKey} {slot : EncoderSlot} (h : (closed e closing).get key = some slot) :
    e.get key = some slot := by
  unfold closed at h
  split at h
  · exact h
  · split at h
    · exact (Table.get_of_get_erase h).2
    · exact h

/-- A route without its pipeline. -/
def Route.released (r : Route) : Route :=
  { r with start_id := 0, encoder := none, subscription := none, receiver := none }

/-- A route's profile can be used as it is, and is sane where a peer asked for the route. -/
def Route.Fit (r : Route) : Prop :=
  ∀ p, r.profile = some p → p.Usable ∧ (r.requested_locally = false → p.Sane)

/-- `r'` differs from `r` in nothing that decides where it runs or whether it is heard. -/
structure Route.Alike (r r' : Route) : Prop where
  peer : r'.peer = r.peer
  id : r'.id = r.id
  kind : r'.kind = r.kind
  status : r'.status = r.status
  requested_locally : r'.requested_locally = r.requested_locally
  profile : r.profile.isSome = true → r'.profile.isSome = true
  encoder : r'.encoder = r.encoder
  subscription : r'.subscription = r.subscription
  receiver : r'.receiver = r.receiver
  start_id : r'.start_id = r.start_id
  muted : r'.muted = r.muted
  sender : r'.sender_controls.map SenderControls.muted = r.sender_controls.map SenderControls.muted
  player : r'.receiver_controls.map ReceiverControls.muted =
    r.receiver_controls.map ReceiverControls.muted
  fit : r.Fit → r'.Fit

theorem Route.Alike.refl (r : Route) : r.Alike r :=
  ⟨rfl, rfl, rfl, rfl, rfl, fun h => h, rfl, rfl, rfl, rfl, rfl, rfl, rfl, fun h => h⟩

theorem Route.Alike.trans {a b c : Route} (h : a.Alike b) (h' : b.Alike c) : a.Alike c where
  peer := h'.peer.trans h.peer
  id := h'.id.trans h.id
  kind := h'.kind.trans h.kind
  status := h'.status.trans h.status
  requested_locally := h'.requested_locally.trans h.requested_locally
  profile hp := h'.profile (h.profile hp)
  encoder := h'.encoder.trans h.encoder
  subscription := h'.subscription.trans h.subscription
  receiver := h'.receiver.trans h.receiver
  start_id := h'.start_id.trans h.start_id
  muted := h'.muted.trans h.muted
  sender := h'.sender.trans h.sender
  player := h'.player.trans h.player
  fit hr := h'.fit (h.fit hr)

theorem Route.Alike.key {r r' : Route} (h : r.Alike r') : r'.key = r.key :=
  congrArg₂ RouteKey.mk h.peer h.id

/-- Encoder groups after the microphone settings were pushed to them. -/
structure Tuned (mic_muted : Bool) (e e' : Table EncoderKey EncoderSlot) : Prop where
  starting : ∀ key start_id waiting group,
    e'.get key = some (.Starting start_id waiting group) ↔
      e.get key = some (.Starting start_id waiting group)
  running : ∀ key sender', e'.get key = some (.Running sender') →
    ∃ sender, e.get key = some (.Running sender) ∧ sender'.start_id = sender.start_id ∧
      sender'.subscribers = sender.subscribers ∧
      sender'.next_subscription = sender.next_subscription ∧
      (key.is_mic = true → sender'.controls.muted = mic_muted) ∧
      (key.has_mic = true → key.is_mic = false → sender'.controls.mix_muted = mic_muted)
  kept : ∀ key sender, e.get key = some (.Running sender) →
    ∃ sender', e'.get key = some (.Running sender')

/-! ## 2. What pipelines do -/

/-- The endpoint whose sound a group carries. -/
def EncoderKey.endpoint (key : EncoderKey) : String :=
  match key.source with
  | .Mic _ => "mic"
  | .Mixed _ _ => "mixed"
  | .Apps => "apps"
  | .System _ | .Application _ _ => "system"

/-- The group encodes what the profile asks for. -/
structure EncoderKey.Encodes (key : EncoderKey) (p : StreamProfile) : Prop where
  codec : key.codec = p.codec
  channels : key.channels = p.channels
  frame_us : key.frame_us = p.frame_us

/-- Whether a route carries the sound of this device's speakers. -/
def Route.is_system (r : Route) : Bool := r.kind == .SendSystemAudio

/-- What the speakers are told when a route's capture starts. -/
def Board.starts (b : Board) (r : Route) : List Bool :=
  if r.is_system && b.mutes then [true] else []

/-- What the speakers are told when a route ends. -/
def Board.ends (b : Board) (r : Route) : List Bool :=
  if r.is_system && b.mutes && b.muted_by.is_empty then [false] else []

/-- Whether a microphone route is to be silent. -/
def Board.silent (b : Board) (r : Route) : Bool := r.muted || (r.kind.is_mic && b.mic_muted)

/-- A route's pipeline starts; the flag says whether it is ready at once. -/
inductive Begun (b : Board) (r : Route) : Board → Route → Bool → Prop
  /-- the encoder runs: the route subscribes to it -/
  | joins (key : EncoderKey) (c : SenderControls) (sender : RunningSender) (member : GroupMember)
      (hk : r.kind.local_is_source = true) (hkey : key.endpoint = r.kind.endpoints.1)
      (hc : c.muted = b.silent r) (hs : b.sessions.has r.peer = true)
      (hget : (dropped b.encoders r.subscription).get key = some (.Running sender))
      (hm : member.id = sender.next_subscription)
      (hp : ∃ p, r.profile = some p ∧ key.Encodes p) :
      Begun b r
        { b with
          encoders := (dropped b.encoders r.subscription).insert key
            (.Running { sender with
              subscribers := sender.subscribers ++ [member]
              next_subscription := sender.next_subscription + 1 })
          said := b.said ++ b.starts r }
        { r with
          sender_controls := some c
          encoder := some key
          subscription :=
            some { key, start_id := sender.start_id, id := sender.next_subscription } }
        true
  /-- the encoder is being opened for others: the route joins those who wait -/
  | waits (key : EncoderKey) (c : SenderControls) (start_id : Nat) (waiting : List RouteKey)
      (group : GroupControls) (hk : r.kind.local_is_source = true)
      (hkey : key.endpoint = r.kind.endpoints.1) (hc : c.muted = b.silent r)
      (hs : b.sessions.has r.peer = true)
      (hget : (dropped b.encoders r.subscription).get key = some (.Starting start_id waiting group))
      (hp : ∃ p, r.profile = some p ∧ key.Encodes p) :
      Begun b r
        { b with
          encoders := (dropped b.encoders r.subscription).insert key
            (.Starting start_id (waiting ++ [r.key]) group)
          said := b.said ++ b.starts r }
        { r with sender_controls := some c, encoder := some key, subscription := none }
        false
  /-- there is no encoder: one is opened -/
  | opens (key : EncoderKey) (c : SenderControls) (group : GroupControls) (source : CaptureSource)
      (mix : Option CaptureSource) (hk : r.kind.local_is_source = true)
      (hkey : key.endpoint = r.kind.endpoints.1) (hc : c.muted = b.silent r)
      (hs : b.sessions.has r.peer = true)
      (hget : (dropped b.encoders r.subscription).get key = none)
      (hp : ∃ p, r.profile = some p ∧ key.Encodes p) :
      Begun b r
        { b with
          encoders := (dropped b.encoders r.subscription).insert key
            (.Starting (b.next_start_id + 1) [r.key] group)
          next_start_id := b.next_start_id + 1
          said := b.said ++ b.starts r
          opened := b.opened ++ [.OpenSender key (b.next_start_id + 1) source mix] }
        { r with sender_controls := some c, encoder := some key, subscription := none }
        false
  /-- a receiver is opened -/
  | plays (c : ReceiverControls) (target : RenderTarget) (hk : r.kind.local_is_source = false)
      (hc : c.muted = (r.receiver_controls.map ReceiverControls.muted).getD (b.silent r))
      (hs : b.sessions.has r.peer = true) :
      Begun b r
        { b with
          next_start_id := b.next_start_id + 1
          opened := b.opened ++ [.OpenReceiver r.peer r.id (b.next_start_id + 1) target] }
        { r with receiver_controls := some c, start_id := b.next_start_id + 1 }
        false

namespace Actor

section
variable (env : Env) (s : Actor)

@[simp] theorem set_routes_board (routes : List Route) :
    (s.set_routes routes).board = { s.board with routes } := rfl

@[simp] theorem set_encoders_board (encoders : Table EncoderKey EncoderSlot) :
    (s.set_encoders encoders).board = { s.board with encoders } := rfl

theorem set_settings_board {c : Settings}
    (hm : c.capture.mute_local_speakers = s.settings.capture.mute_local_speakers)
    (hr : c.max_receivers = s.settings.max_receivers)
    (hd : c.desktop.auto_start_mic = s.settings.desktop.auto_start_mic) :
    (s.set_settings c).board = s.board := by
  unfold board set_settings
  dsimp only
  rw [hm, hr, hd]

/-- An output that is about none of these. -/
theorem emit_board {o : Output} (hs : o.says = none) (ho : o.opens = none) (hc : o.closes = none) :
    (s.emit o).board = s.board := by
  unfold board emit
  simp [List.filterMap_append, hs, ho, hc]

@[simp] theorem emit_speakers_board (muted : Bool) :
    (s.emit (.SetSpeakersMuted muted)).board =
    { s.board with said := s.board.said ++ [muted] } := by
  unfold board emit
  simp [List.filterMap_append, Output.says, Output.opens, Output.closes]

theorem emit_spawn_board {task : Task} (h : (Output.Spawn task).opens = some task) :
    (s.emit (.Spawn task)).board = { s.board with opened := s.board.opened ++ [task] } := by
  unfold board emit
  simp [List.filterMap_append, Output.says, Output.closes, h]

@[simp] theorem emit_send_board (conn_id : Nat) (body : Body) :
    (s.emit (.Send conn_id body)).board = s.board := s.emit_board rfl rfl rfl

@[simp] theorem notice_board (key : String) : (s.notice key).board = s.board :=
  s.emit_board rfl rfl rfl

@[simp] theorem send_to_board (peer : DeviceId) (body : Body) :
    (s.send_to peer body).board = s.board := by
  unfold send_to
  split
  · exact s.emit_send_board _ _
  · rfl

@[simp] theorem answer_board (reply : Reply) (result : Except EngineError Answer) :
    (s.answer reply result).board = s.board := by
  unfold answer
  split
  · exact s.emit_board rfl rfl rfl
  · rfl

@[simp] theorem answer_route_board (route : Route) (result : Except EngineError Answer) :
    (s.answer_route route result).board = s.board := by
  unfold answer_route
  split
  · exact s.answer_board _ _
  · rfl

@[simp] theorem error_notice_board (error : EngineError) :
    (s.error_notice env error).board = s.board := by
  unfold error_notice
  split <;> exact s.emit_board rfl rfl rfl

@[simp] theorem save_settings_board : (s.save_settings env).board = s.board := by
  unfold save_settings
  split
  · rfl
  · exact s.error_notice_board env _

@[simp] theorem update_keep_alive_board : s.update_keep_alive.board = s.board := by
  unfold update_keep_alive
  dsimp only
  split
  · exact emit_board _ rfl rfl rfl
  · rfl

@[simp] theorem set_saved_routes_board (saved : List SavedRoute) :
    (s.set_saved_routes saved).board = s.board := rfl

@[simp] theorem save_started_route_board (peer : DeviceId) (kind : RouteKind) :
    (s.save_started_route env peer kind).board = s.board := by
  unfold save_started_route
  dsimp only
  split
  · rfl
  · rw [save_settings_board, set_saved_routes_board]

@[simp] theorem forget_saved_route_board (route : Route) (reason : StopReason) :
    (s.forget_saved_route env route reason).board = s.board := by
  unfold forget_saved_route
  dsimp only
  split
  · rw [save_settings_board, set_saved_routes_board]
  · rfl

@[simp] theorem drop_subscription_board (subscription : Option Subscription) :
    (s.drop_subscription subscription).board =
      { s.board with encoders := dropped s.board.encoders subscription } := by
  cases subscription <;> rfl

@[simp] theorem prune_encoders_board :
    s.prune_encoders.board = { s.board with encoders := pruned s.board.encoders } := rfl

theorem close_encoder_board (key : EncoderKey) :
    (s.close_encoder key).board =
    { s.board with encoders := closed s.board.encoders (some key) } := by
  have hget : s.board.encoders = s.encoders := rfl
  unfold close_encoder closed
  dsimp only
  rw [hget]
  cases hslot : s.encoders.get key with
  | none => rfl
  | some slot =>
      cases slot with
      | Starting i waiting group => rfl
      | Running sender => rfl

@[simp] theorem close_capture_board (route : Route) :
    (s.close_capture route).board =
      { s.board with encoders := closed s.board.encoders route.encoder } := by
  unfold close_capture
  split
  · next key hkey => rw [close_encoder_board, hkey]
  · next hkey => rw [hkey]; rfl

@[simp] theorem release_pipelines_board (route : Route) :
    (s.release_pipelines route).1.board =
      { s.board with encoders := pruned (dropped s.board.encoders route.subscription) } := by
  unfold release_pipelines
  dsimp only
  rw [prune_encoders_board]
  split
  · rw [emit_board _ rfl rfl rfl, drop_subscription_board]
  · rw [drop_subscription_board]

@[simp] theorem release_pipelines_route (route : Route) :
    (s.release_pipelines route).2 = route.released := rfl

@[simp] theorem unmute_after_board (route : Route) :
    (s.unmute_after route).board =
      { s.board with said := s.board.said ++ s.board.ends route } := by
  unfold unmute_after Board.ends Route.is_system
  by_cases h : route.kind = .SendSystemAudio ∧ s.settings.capture.mute_local_speakers ∧
      s.speakers_muted_by.is_empty
  · obtain ⟨hk, hm, hb⟩ := h
    rw [if_pos ⟨hk, hm, hb⟩, emit_speakers_board, if_pos]
    simp [hk, board, hm, hb]
  · rw [if_neg h, if_neg]
    · rw [List.append_nil]
    · simpa [board, and_assoc] using h

/-- A route's group is named after the endpoint it carries. -/
theorem endpoint_of_new {kind : RouteKind} {source : CaptureSource} (profile : StreamProfile)
    (hk : kind.local_is_source = true) (hsource : s.capture_source env kind = some source) :
    (EncoderKey.new source (s.mix_source kind) kind.is_mic (kind.endpoints.1 = "apps")
      profile).endpoint = kind.endpoints.1 := by
  have hsystem :
      (SourceKey.of s.system_audio_source false false = .System s.settings.capture.system_device) ∨
      ∃ p e, SourceKey.of s.system_audio_source false false = .Application p e := by
    unfold system_audio_source
    split
    · exact .inr ⟨_, _, rfl⟩
    · exact .inl rfl
  have hmic : ∃ d, SourceKey.of s.mic_source true false = .Mic d := by
    unfold mic_source
    split <;> exact ⟨_, rfl⟩
  cases kind with
  | SendSystemAudio =>
      obtain rfl := Option.some_inj.1 hsource
      rcases hsystem with h | ⟨p, e, h⟩ <;> simp [EncoderKey.endpoint, EncoderKey.new, mix_source,
        RouteKind.is_mic, RouteKind.endpoints, h]
  | SendAppAudio => rfl
  | SendMixed =>
      obtain rfl := Option.some_inj.1 hsource
      rfl
  | SendMicToVirtualMic | SendMicToSpeaker =>
      obtain rfl := Option.some_inj.1 hsource
      obtain ⟨d, h⟩ := hmic
      simp [EncoderKey.endpoint, EncoderKey.new, mix_source, RouteKind.is_mic,
        RouteKind.endpoints, h]
  | _ => exact nomatch hk

end

end Actor

/-- Why a route's pipeline cannot start: its peer is gone, or what it needs is
not on this device. -/
def Board.Refuses (b : Board) (r : Route) : Prop :=
  b.sessions.has r.peer = false ∨ r.profile = none ∨ r.kind.endpoints.2 = "virtual-mic" ∨
    r.kind.endpoints.1 = "apps"

/-- This computer's sound can always be captured. -/
theorem Board.Refuses.of_system {b : Board} {r : Route} (h : b.Refuses r)
    (hk : r.kind = .SendSystemAudio) : b.sessions.has r.peer = false ∨ r.profile = none := by
  rcases h with h | h | h | h
  · exact .inl h
  · exact .inr h
  · rw [hk] at h
    exact absurd h (by decide)
  · rw [hk] at h
    exact absurd h (by decide)

namespace Actor

section
variable (env : Env) (s : Actor)

theorem begin_receiver_begun (route : Route) (profile : StreamProfile)
    (hk : route.kind.local_is_source = false) (hs : s.board.sessions.has route.peer = true) :
    (∃ s' r' ready, s.begin_receiver env route profile = (s', r', .ok ready) ∧
      Begun s.board route s'.board r' ready) ∨
    (∃ e, s.begin_receiver env route profile = (s, route, .error e) ∧ s.board.Refuses route) := by
  unfold begin_receiver
  dsimp only
  split
  · next h =>
      refine .inr ⟨_, rfl, .inr (.inr (.inl ?_))⟩
      by_contra hv
      rw [if_neg hv] at h
      cases h
  · refine .inl ⟨_, _, _, rfl, ?_⟩
    rw [emit_spawn_board _ rfl]
    refine .plays _ _ hk ?_ hs
    unfold receiver_controls Board.silent
    dsimp only
    split
    · next c hc => rw [hc]; rfl
    · next hc => rw [hc]; rfl

/-- A stream of this computer's sound mutes its speakers, where the user wants that. -/
theorem starts_board (route : Route) :
    (if route.kind = .SendSystemAudio ∧ s.settings.capture.mute_local_speakers = true then
      s.emit (.SetSpeakersMuted true) else s).board =
      { s.board with said := s.board.said ++ s.board.starts route } := by
  unfold Board.starts Route.is_system
  by_cases h : route.kind = .SendSystemAudio ∧ s.settings.capture.mute_local_speakers = true
  · rw [if_pos h, emit_speakers_board, if_pos]
    simp [board, h]
  · rw [if_neg h, if_neg]
    · rw [List.append_nil]
    · simpa [board] using h

theorem begin_sender_begun (route : Route) (profile : StreamProfile)
    (hk : route.kind.local_is_source = true) (hs : s.board.sessions.has route.peer = true)
    (hp : route.profile = some profile) :
    (∃ s' r' ready, s.begin_sender env route profile = (s', r', .ok ready) ∧
      Begun s.board route s'.board r' ready) ∨
    (∃ e, s.begin_sender env route profile = (s, route, .error e) ∧ s.board.Refuses route) := by
  unfold begin_sender
  split
  · next h =>
      refine .inr ⟨_, rfl, .inr (.inr (.inr ?_))⟩
      -- Only the sound of apps may have no source here; that is one of the reasons to refuse.
      by_contra ha
      unfold capture_source at h
      rw [if_neg ha] at h
      split at h <;> cases h
  · next source hsource =>
      refine .inl ?_
      have hkey := s.endpoint_of_new env profile hk hsource
      have hencodes : (EncoderKey.new source (s.mix_source route.kind) route.kind.is_mic
          (decide (route.kind.endpoints.1 = "apps")) profile).Encodes profile := ⟨rfl, rfl, rfl⟩
      dsimp only
      generalize EncoderKey.new source (s.mix_source route.kind) route.kind.is_mic
        (decide (route.kind.endpoints.1 = "apps")) profile = key at hkey hencodes ⊢
      -- From here on only the board of the state matters, so the speakers being muted is
      -- generalised away with it.
      have hb := (s.drop_subscription route.subscription).starts_board route
      generalize (if route.kind = RouteKind.SendSystemAudio ∧
        (s.drop_subscription route.subscription).settings.capture.mute_local_speakers = true then
          (s.drop_subscription route.subscription).emit (.SetSpeakersMuted true)
        else s.drop_subscription route.subscription) = s₁ at hb ⊢
      have hstarts : (s.drop_subscription route.subscription).board.starts route =
          s.board.starts route := by
        rw [drop_subscription_board]
        rfl
      rw [hstarts, drop_subscription_board] at hb
      have hsess : s₁.sessions = s.board.sessions := congrArg Board.sessions hb
      have henc : s₁.encoders = dropped s.board.encoders route.subscription :=
        congrArg Board.encoders hb
      rw [henc, hsess]
      -- The three cases of the encoder table are the three constructors that send.
      cases hget : (dropped s.board.encoders route.subscription).get key with
      | none =>
          refine ⟨_, _, _, rfl, ?_⟩
          rw [emit_spawn_board _ rfl, set_encoders_board]
          have ht : s₁.take_start_id.1.board =
              { s₁.board with next_start_id := s₁.board.next_start_id + 1 } := rfl
          rw [ht, hb]
          have hn : s₁.take_start_id.2 = s.board.next_start_id + 1 :=
            congrArg (·.next_start_id + 1) hb
          have he : s₁.take_start_id.1.encoders = dropped s.board.encoders route.subscription :=
            henc
          rw [hn, he]
          exact .opens key _ _ source _ hk hkey rfl hs hget ⟨profile, hp, hencodes⟩
      | some slot =>
          cases slot with
          | Starting start_id waiting group =>
              refine ⟨_, _, _, rfl, ?_⟩
              rw [set_encoders_board, hb]
              exact .waits key _ start_id waiting group hk hkey rfl hs hget ⟨profile, hp, hencodes⟩
          | Running sender =>
              obtain ⟨session, hsession⟩ := Table.has_eq_true.1 hs
              dsimp only
              rw [hsession]
              refine ⟨_, _, _, rfl, ?_⟩
              rw [set_encoders_board, hb]
              exact .joins key _ sender _ hk hkey rfl hs hget rfl ⟨profile, hp, hencodes⟩

/-- A pipeline that is started has begun, or the state is as it was. -/
theorem begin_pipelines_begun (route : Route) :
    (∃ s' r' ready, s.begin_pipelines env route = (s', r', .ok ready) ∧
      Begun s.board route s'.board r' ready) ∨
    (∃ e, s.begin_pipelines env route = (s, route, .error e) ∧ s.board.Refuses route) := by
  unfold begin_pipelines
  cases hs : s.sessions.get route.peer with
  | none =>
      have hhas : s.board.sessions.has route.peer = false := by
        unfold Table.has
        rw [show s.board.sessions.get route.peer = none from hs]
        rfl
      exact .inr ⟨_, rfl, .inl hhas⟩
  | some session =>
      cases hp : route.profile with
      | none => exact .inr ⟨_, rfl, .inr (.inl hp)⟩
      | some profile =>
          have hhas : s.board.sessions.has route.peer = true := Table.has_eq_true.2 ⟨session, hs⟩
          dsimp only
          by_cases hk : route.kind.local_is_source = true
          · rw [if_pos hk]
            exact s.begin_sender_begun env route profile hk hhas hp
          · rw [if_neg hk]
            exact s.begin_receiver_begun env route profile (Bool.not_eq_true _ ▸ hk) hhas

end

end Actor

namespace Begun

variable {b b' : Board} {r r' : Route} {ready : Bool}

/-- A route whose pipeline starts is the same route. -/
theorem same (h : Begun b r b' r' ready) : r.Same r' := by
  cases h <;> exact ⟨rfl, rfl, rfl, rfl, rfl⟩

theorem profile (h : Begun b r b' r' ready) : r'.profile = r.profile := by
  cases h <;> rfl

theorem routes (h : Begun b r b' r' ready) : b'.routes = b.routes := by
  cases h <;> rfl

end Begun

end SoundPush
