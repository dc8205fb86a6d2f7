/-
`MicMute` -- the microphone mute over routes and groups.

The one flag is copied to every microphone route and to every group a microphone
feeds, by whatever starts, opens or changes them. A peer's word on a route writes
its copy too, and does not look at the flag; `mic_mute_covers` has this one
exception.

Where the work is. The mute is a property of the board: of every route in the table, of the paused
ones that are set aside while they are asked for again, and of every running group. § 2 says what
the building blocks of acts (releasing, pausing, tuning, muting) do to it, § 3 goes through the
acts and finds one that breaks it, and § 4 carries it along a run whose events are not that one. A
route or a group that opens while the microphone is muted is born muted, since it takes its copy
from the flag.
-/
import SoundPush.Engine.Dispatch
import SoundPush.Engine.Disconnect

set_option autoImplicit false

namespace SoundPush

/-! ## 1. What the mute covers -/

/-- A microphone route that has controls is muted there. -/
def Route.Silent (r : Route) : Prop :=
  r.kind.is_mic = true →
    (∀ c ∈ r.sender_controls, c.muted = true) ∧ ∀ c ∈ r.receiver_controls, c.muted = true

/-- Running groups carry no microphone sound. -/
def SilentGroups (encoders : Table EncoderKey EncoderSlot) : Prop :=
  ∀ key sender, encoders.get key = some (.Running sender) →
    (key.is_mic = true → sender.controls.muted = true) ∧
      (key.has_mic = true → key.is_mic = false → sender.controls.mix_muted = true)

/-- No microphone sound on the board. -/
structure Board.Silent (b : Board) : Prop where
  routes : ∀ r ∈ b.routes, r.Silent
  aside : ∀ r ∈ b.aside, r.Silent
  groups : SilentGroups b.encoders

/-- While the microphone is muted, a peer lifts the mute of a microphone route
that is played here. -/
def Actor.lifts_mute (s : Actor) (event : Event) : Prop :=
  s.mic_muted = true ∧ ∃ conn_id peer m r, event = .Control conn_id (.MuteSet m) ∧
    s.conn_index.get conn_id = some peer ∧ s.peer_may_control peer = true ∧
    m.target ≠ ControlTarget.DeviceSpeakers.code ∧ m.muted = false ∧
    s.routes.find? (has_key ⟨peer, m.route.toUInt8⟩) = some r ∧
    r.kind.is_mic = true ∧ r.receiver_controls.isSome = true

/-! ## 2. Routes and groups -/

/-- `r'` is `r` as far as the mute goes. -/
structure Route.Sounds (r r' : Route) : Prop where
  kind : r'.kind = r.kind
  sender : r'.sender_controls.map SenderControls.muted = r.sender_controls.map SenderControls.muted
  player : r'.receiver_controls.map ReceiverControls.muted =
    r.receiver_controls.map ReceiverControls.muted

namespace Route

theorem Sounds.refl (r : Route) : r.Sounds r := ⟨rfl, rfl, rfl⟩

theorem Sounds.trans {a b c : Route} (h : a.Sounds b) (h' : b.Sounds c) : a.Sounds c :=
  ⟨h'.kind.trans h.kind, h'.sender.trans h.sender, h'.player.trans h.player⟩

/-- What changes nothing of the mute keeps a route silent. -/
theorem Sounds.silent {r r' : Route} (h : r.Sounds r') (hr : r.Silent) : r'.Silent := by
  intro hmic
  rw [h.kind] at hmic
  obtain ⟨hs, hp⟩ := hr hmic
  refine ⟨fun c hc => ?_, fun c hc => ?_⟩
  · have hmuted := h.sender
    rw [Option.mem_def.1 hc, Option.map_some] at hmuted
    obtain ⟨d, hd, he⟩ := Option.map_eq_some_iff.1 hmuted.symm
    exact he.symm.trans (hs d hd)
  · have hmuted := h.player
    rw [Option.mem_def.1 hc, Option.map_some] at hmuted
    obtain ⟨d, hd, he⟩ := Option.map_eq_some_iff.1 hmuted.symm
    exact he.symm.trans (hp d hd)

/-- A route without controls has nothing to mute. -/
theorem silent_of_no_controls {r : Route} (hs : r.sender_controls = none)
    (hp : r.receiver_controls = none) : r.Silent := by
  intro _
  rw [hs, hp]
  exact ⟨nofun, nofun⟩

/-- The user's own mute of a route cannot lift the microphone mute. -/
theorem silenced_silent {muted : Bool} {r : Route} : (r.silenced true muted).Silent := by
  intro hmic
  have hmic : r.kind.is_mic = true := hmic
  unfold silenced
  dsimp only
  rw [hmic]
  refine ⟨fun c hc => ?_, fun c hc => ?_⟩
  · obtain ⟨d, _, rfl⟩ := Option.map_eq_some_iff.1 hc
    simp
  · obtain ⟨d, _, rfl⟩ := Option.map_eq_some_iff.1 hc
    simp

/-- The microphone mute silences every route. -/
theorem mic_silenced_silent {r : Route} : (r.mic_silenced true).Silent := by
  unfold mic_silenced
  split
  · intro _
    refine ⟨fun c hc => ?_, fun c hc => ?_⟩
    · obtain ⟨d, _, rfl⟩ := Option.map_eq_some_iff.1 hc
      rfl
    · obtain ⟨d, _, rfl⟩ := Option.map_eq_some_iff.1 hc
      rfl
  · next hmic => exact fun h => absurd h hmic

/-- A peer's word keeps a route silent if it mutes, or if nothing is played here. -/
theorem hushed_silent {muted : Bool} {r : Route} (hr : r.Silent)
    (h : r.kind.is_mic = true → muted = false → r.receiver_controls.isSome = false) :
    (r.hushed muted).Silent := by
  intro hmic
  have hmic : r.kind.is_mic = true := hmic
  unfold hushed
  refine ⟨(hr hmic).1, fun c hc => ?_⟩
  obtain ⟨d, hd, rfl⟩ := Option.map_eq_some_iff.1 hc
  cases muted with
  | true => rfl
  | false =>
      have hnone := h hmic rfl
      rw [hd] at hnone
      cases hnone

/-- A route that is paused keeps what its controls say. -/
theorem suspended_sounds (now : Instant) (r : Route) : r.Sounds (r.suspended now) := by
  unfold suspended
  split
  · exact ⟨rfl, rfl, rfl⟩
  · exact ⟨rfl, rfl, rfl⟩
  · split <;> exact ⟨rfl, rfl, rfl⟩

end Route

namespace SilentGroups

variable {e e' : Table EncoderKey EncoderSlot}

/-- Groups that were running with the same controls. -/
theorem of_running (h : SilentGroups e)
    (he : ∀ key sender', e'.get key = some (.Running sender') →
      ∃ sender, e.get key = some (.Running sender) ∧ sender'.controls = sender.controls) :
    SilentGroups e' := by
  intro key sender' hget
  obtain ⟨sender, hold, hsame⟩ := he key sender' hget
  rw [hsame]
  exact h key sender hold

/-- A subscription that goes takes a member out of a group and changes nothing else. -/
theorem dropped (h : SilentGroups e) (subscription : Option Subscription) :
    SilentGroups (SoundPush.dropped e subscription) := by
  refine h.of_running fun key sender' hget => ?_
  rcases get_dropped hget with hold | ⟨sender, sub, hold, _, _, _, he⟩
  · exact ⟨sender', hold, rfl⟩
  · cases he
    exact ⟨sender, hold, rfl⟩

/-- Any number of them. -/
theorem dropped_all (h : SilentGroups e) (routes : List Route) :
    SilentGroups (routes.foldl (fun e r => SoundPush.dropped e r.subscription) e) := by
  induction routes generalizing e with
  | nil => exact h
  | cons r routes ih => exact ih (h.dropped _)

/-- A group without members is closed. -/
theorem pruned (h : SilentGroups e) : SilentGroups (SoundPush.pruned e) :=
  h.of_running fun _ sender' hget => ⟨sender', (get_pruned.1 hget).1, rfl⟩

theorem paused (h : SilentGroups e) (peer : DeviceId) (routes : List Route) :
    SilentGroups (routes.foldl (fun e r =>
      if r.peer = peer then SoundPush.pruned (SoundPush.dropped e r.subscription) else e) e) := by
  induction routes generalizing e with
  | nil => exact h
  | cons r routes ih =>
      refine ih ?_
      dsimp only
      split
      · exact (h.dropped _).pruned
      · exact h

theorem closed (h : SilentGroups e) (key : Option EncoderKey) :
    SilentGroups (SoundPush.closed e key) :=
  h.of_running fun _ sender' hget => ⟨sender', get_of_get_closed hget, rfl⟩

theorem erase (h : SilentGroups e) (key : EncoderKey) : SilentGroups (e.erase key) :=
  h.of_running fun _ sender' hget => ⟨sender', (Table.get_of_get_erase hget).2, rfl⟩

/-- A group that is opening has no controls yet. -/
theorem starting (h : SilentGroups e) (key : EncoderKey) (start_id : Nat) (waiting : List RouteKey)
    (group : GroupControls) : SilentGroups (e.insert key (.Starting start_id waiting group)) := by
  refine h.of_running fun k sender' hget => ?_
  rw [Table.get_insert] at hget
  split at hget
  · cases hget
  · exact ⟨sender', hget, rfl⟩

/-- Tuning with the mute on silences every group. -/
theorem of_tuned (h : Tuned true e e') : SilentGroups e' := by
  intro key sender' hget
  obtain ⟨_, _, _, _, _, hmic, hmix⟩ := h.running key sender' hget
  exact ⟨hmic, hmix⟩

end SilentGroups

/-- A pipeline that starts under the mute is silent. -/
theorem Begun.silent {b b' : Board} {r r' : Route} {ready : Bool} (h : Begun b r b' r' ready)
    (hm : b.mic_muted = true) (hr : r.Silent) (he : SilentGroups b.encoders) :
    r'.Silent ∧ SilentGroups b'.encoders := by
  have hsilent {c : SenderControls} (hc : c.muted = b.silent r) (hmic : r.kind.is_mic = true) :
      c.muted = true := by
    rw [hc, Board.silent, hmic, hm]
    simp
  have hdropped := he.dropped r.subscription
  cases h with
  | joins key c sender member hk hkey hc hs hget hid =>
      refine ⟨fun hmic => ⟨fun d hd => ?_, (hr hmic).2⟩, ?_⟩
      · rw [← Option.some_inj.1 hd]
        exact hsilent hc hmic
      · refine hdropped.of_running fun k sender' hget' => ?_
        dsimp only at hget'
        rw [Table.get_insert] at hget'
        split at hget'
        · next hk =>
            cases hget'
            exact ⟨sender, hk ▸ hget, rfl⟩
        · exact ⟨sender', hget', rfl⟩
  | waits key c start_id waiting group hk hkey hc =>
      refine ⟨fun hmic => ⟨fun d hd => ?_, (hr hmic).2⟩, hdropped.starting _ _ _ _⟩
      rw [← Option.some_inj.1 hd]
      exact hsilent hc hmic
  | opens key c group source mix hk hkey hc =>
      refine ⟨fun hmic => ⟨fun d hd => ?_, (hr hmic).2⟩, hdropped.starting _ _ _ _⟩
      rw [← Option.some_inj.1 hd]
      exact hsilent hc hmic
  | plays c target hk hc =>
      refine ⟨fun hmic => ⟨(hr hmic).1, fun d hd => ?_⟩, he⟩
      rw [← Option.some_inj.1 hd, hc]
      cases hp : r.receiver_controls with
      | none =>
          rw [Board.silent, hmic, hm]
          simp
      | some d => exact (hr hmic).2 d hp

/-- A pipeline that begins leaves the flag. -/
theorem Begun.mic_muted {b b' : Board} {r r' : Route} {ready : Bool} (h : Begun b r b' r' ready) :
    b'.mic_muted = b.mic_muted := by
  cases h <;> rfl

/-! ## 3. Acts -/

section
variable [Crypto] {env : Env} {s₀ : Actor} {event : Event} {a b : Board} {l : List DeviceId}

omit [Crypto] in
theorem silent_of_forall₂ {routes routes' : List Route}
    (h : List.Forall₂ Route.Sounds routes routes')
    (hr : ∀ r ∈ routes, r.Silent) : ∀ r ∈ routes', r.Silent := by
  intro r hr'
  obtain ⟨q, hq, hqr⟩ := h.exists_left hr'
  exact hqr.silent (hr q hq)

omit [Crypto] in
theorem silent_of_alike {routes routes' : List Route} (h : List.Forall₂ Route.Alike routes routes')
    (hr : ∀ r ∈ routes, r.Silent) : ∀ r ∈ routes', r.Silent :=
  silent_of_forall₂ (h.imp fun _ _ h => ⟨h.kind, h.sender, h.player⟩) hr

omit [Crypto] in
theorem silent_of_modified {p : Route → Bool} {f : Route → Route} {routes : List Route}
    (hf : ∀ r : Route, r.Sounds (f r)) (hr : ∀ r ∈ routes, r.Silent) :
    ∀ r ∈ routes.modify_first p f, r.Silent :=
  silent_of_forall₂ (List.forall₂_modify_first Route.Sounds.refl fun r _ => hf r) hr

omit [Crypto] in
theorem silent_concat {routes : List Route} {r : Route} (hr : ∀ q ∈ routes, q.Silent)
    (h : r.Silent) : ∀ q ∈ routes ++ [r], q.Silent := by
  intro q hq
  rcases List.mem_append.1 hq with hq | hq
  · exact hr q hq
  · rw [List.mem_singleton.1 hq]
    exact h

omit [Crypto] in
/-- A session that goes down leaves the board silent. -/
theorem Board.Silent.paused (ha : a.Silent) (peer : DeviceId) (now : Instant) :
    (a.paused peer now).Silent := by
  refine ⟨fun r hr => ?_, ha.aside, ha.groups.paused peer a.routes⟩
  obtain ⟨q, hq, rfl⟩ := List.mem_map.1 (List.mem_of_mem_filter hr)
  split
  · exact (q.suspended_sounds now).silent (ha.routes q hq)
  · exact ha.routes q hq

/-- An act keeps the microphone silent, unless a peer lifts the mute of a route. -/
theorem Act.silent (hg : ¬ s₀.lifts_mute event) (ha : a.mic_muted = true → a.Silent)
    (h : Act env s₀ event l a b) (hb : b.mic_muted = true) : b.Silent := by
  cases h with
  | tend routes hroutes =>
      have ha := ha hb
      exact ⟨silent_of_alike hroutes ha.routes, ha.aside, ha.groups⟩
  | silence key muted =>
      have ha := ha hb
      refine ⟨fun r hr => ?_, ha.aside, ha.groups⟩
      rcases List.mem_modify_first hr with hr | ⟨q, _, rfl⟩
      · exact ha.routes r hr
      · rw [show a.mic_muted = true from hb]
        exact Route.silenced_silent
  | hush conn_id peer m he hboard hc hp ht =>
      have ha := ha hb
      subst hboard
      refine ⟨fun r hr => ?_, ha.aside, ha.groups⟩
      rcases List.mem_modify_first hr with hr | ⟨q, hq, rfl⟩
      · exact ha.routes r hr
      · refine Route.hushed_silent (ha.routes q (List.mem_of_find?_eq_some hq)) fun hmic hm => ?_
        -- A peer that lifts the mute of a microphone route is what `lifts_mute` is about.
        by_contra hsome
        exact hg ⟨hb, conn_id, peer, m, q, he, hc, hp, ht, hm, hq, hmic,
          Bool.not_eq_false _ ▸ hsome⟩
  | mute_mic muted encoders he hboard htuned =>
      have hmuted : muted = true := hb
      subst hmuted hboard
      refine ⟨fun r hr => ?_, fun r hr => absurd hr List.not_mem_nil, SilentGroups.of_tuned htuned⟩
      obtain ⟨q, _, rfl⟩ := List.mem_map.1 hr
      exact Route.mic_silenced_silent
  | tune encoders htuned =>
      have ha := ha hb
      rw [show a.mic_muted = true from hb] at htuned
      exact ⟨ha.routes, ha.aside, SilentGroups.of_tuned htuned⟩
  | prune =>
      have ha := ha hb
      exact ⟨ha.routes, ha.aside, ha.groups.pruned⟩
  | activate key r =>
      have ha := ha hb
      exact ⟨silent_of_modified (fun _ => ⟨rfl, rfl, rfl⟩) ha.routes, ha.aside, ha.groups⟩
  | finish key route rest hrest =>
      have ha := ha hb
      refine ⟨fun r hr => ?_, ha.aside, (ha.groups.dropped _).pruned⟩
      exact ha.routes r ((List.sublist_of_remove_first hrest).subset hr)
  | refuse _ _ _ route rest _ _ _ hrest =>
      have ha := ha hb
      refine ⟨fun r hr => ?_, ha.aside, ha.groups.dropped _⟩
      exact ha.routes r ((List.sublist_of_remove_first hrest).subset hr)
  | lose _ _ _ route rest _ _ _ hrest =>
      have ha := ha hb
      refine ⟨fun r hr => ?_, ha.aside, ha.groups.dropped _⟩
      exact ha.routes r ((List.sublist_of_remove_first hrest).subset hr)
  -- A pipeline that begins takes its mute from the board, so the route in the table and the group
  -- it joins are silent.
  | accept _ _ _ route r₁ rest _ _ _ _ _ hrest _ hbegun =>
      have hm := hbegun.mic_muted.symm.trans hb
      have ha := ha hm
      have hroute : route.Silent := ha.routes route (List.mem_of_remove_first hrest).1
      obtain ⟨hr₁, he⟩ := hbegun.silent hm hroute ha.groups
      refine ⟨silent_concat (fun r hr => ?_) hr₁, hbegun.aside ▸ ha.aside, he⟩
      exact ha.routes r ((List.sublist_of_remove_first hrest).subset hr)
  | supplant =>
      have ha := ha hb
      exact ⟨fun r hr => ha.routes r (List.mem_of_mem_filter hr), ha.aside, ha.groups.dropped_all _⟩
  | take_on _ _ _ _ _ _ r₁ _ _ _ _ _ hbegun =>
      have hm := hbegun.mic_muted.symm.trans hb
      have ha := ha hm
      obtain ⟨hr₁, he⟩ := hbegun.silent hm (Route.silent_of_no_controls rfl rfl)
        (ha.groups.dropped_all _)
      exact ⟨silent_concat (fun r hr => ha.routes r (List.mem_of_mem_filter hr)) hr₁,
        hbegun.aside ▸ ha.aside, he⟩
  | rebuild key route r₁ rest _ hrest hbegun =>
      have hm := hbegun.mic_muted.symm.trans hb
      have ha := ha hm
      have hroute : route.released.Silent := ha.routes route (List.mem_of_remove_first hrest).1
      obtain ⟨hr₁, he⟩ := hbegun.silent hm hroute (ha.groups.dropped _).pruned
      refine ⟨silent_concat (fun r hr => ?_) hr₁, hbegun.aside ▸ ha.aside, he⟩
      exact ha.routes r ((List.sublist_of_remove_first hrest).subset hr)
  | unplug key route rest hrest =>
      have ha := ha hb
      have hroute : route.released.Silent := ha.routes route (List.mem_of_remove_first hrest).1
      refine ⟨silent_concat (fun r hr => ?_) hroute, ha.aside, (ha.groups.dropped _).pruned⟩
      exact ha.routes r ((List.sublist_of_remove_first hrest).subset hr)
  | reopen key route r₁ _ _ hfind hbegun =>
      have hm := hbegun.mic_muted.symm.trans hb
      have ha := ha hm
      have hroute : route.released.Silent := ha.routes route (List.mem_of_find?_eq_some hfind)
      obtain ⟨hr₁, he⟩ := hbegun.silent hm hroute ((ha.groups.closed _).dropped _).pruned
      refine ⟨fun r hr => ?_, hbegun.aside ▸ ha.aside, he⟩
      rcases List.mem_modify_first hr with hr | ⟨q, _, rfl⟩
      · exact ha.routes r hr
      · exact hr₁
  | close key =>
      have ha := ha hb
      exact ⟨ha.routes, ha.aside, ha.groups.closed key⟩
  | give_up key =>
      have ha := ha hb
      exact ⟨ha.routes, ha.aside, ha.groups.erase key⟩
  | run _ _ _ _ _ _ _ _ _ _ _ hl ht =>
      have ha := ha hb
      rw [show a.mic_muted = true from hb] at ht
      refine ⟨silent_of_forall₂ ?_ ha.routes, ha.aside, SilentGroups.of_tuned ht⟩
      exact hl.forall₂ Route.Sounds.refl (fun h h' => h.trans h') fun _ _ => ⟨rfl, rfl, rfl⟩
  | receive | receive_late =>
      have ha := ha hb
      exact ⟨silent_of_modified (fun _ => ⟨rfl, rfl, rfl⟩) ha.routes, ha.aside, ha.groups⟩
  | supersede id _ _ _ now =>
      have hpaused := (ha hb).paused id now
      exact ⟨hpaused.routes, hpaused.aside, hpaused.groups⟩
  | suspend id _ _ now =>
      have hpaused := (ha hb).paused id now
      exact ⟨hpaused.routes, hpaused.aside, hpaused.groups⟩
  | request peer kind session r hs hr =>
      have ha := ha hb
      exact ⟨silent_concat ha.routes (Route.silent_of_no_controls hr.sender_controls
        hr.receiver_controls), ha.aside, ha.groups⟩
  | set_aside =>
      have ha := ha hb
      exact ⟨fun r hr => ha.routes r (List.mem_of_mem_filter hr),
        fun r hr => ha.routes r (List.mem_of_mem_filter hr), ha.groups⟩
  | put_back peer kind route rest _ _ hrest =>
      have ha := ha hb
      exact ⟨silent_concat ha.routes (ha.aside route (List.mem_of_remove_first hrest).1),
        fun r hr => ha.aside r ((List.sublist_of_remove_first hrest).subset hr), ha.groups⟩
  | discard =>
      have ha := ha hb
      exact ⟨ha.routes, fun r hr => absurd hr List.not_mem_nil, ha.groups⟩
  | settle _ _ _ _ _ _ _ hroutes ht =>
      have ha := ha hb
      rw [show a.mic_muted = true from hb] at ht
      exact ⟨silent_of_alike hroutes ha.routes, ha.aside, SilentGroups.of_tuned ht⟩
  | install | leave | greet | hang_up | hear =>
      have ha := ha hb
      exact ⟨ha.routes, ha.aside, ha.groups⟩

/-- The handling of one event, unless it is a peer lifting the mute of a route. -/
theorem Acts.silent (hg : ¬ s₀.lifts_mute event) (ha : a.mic_muted = true → a.Silent)
    (h : Acts env s₀ event l a b) : b.mic_muted = true → b.Silent :=
  h.invariant (P := fun b => b.mic_muted = true → b.Silent)
    (fun _ _ _ hact ha => hact.silent hg ha) ha

/-! ## 4. Runs -/

/-- With the microphone muted, every route and every running group is. -/
theorem mic_mute_covers {Known : PublicKey → Prop} {tr : List Moment} {w : World}
    (hr : (engine Known).Run tr w) (hg : ∀ q ∈ tr, ¬ q.1.actor.lifts_mute q.2.event)
    (hm : w.actor.mic_muted = true) :
    (∀ r ∈ w.actor.routes, r.Silent) ∧ SilentGroups w.actor.encoders := by
  have hinv : w.actor.board.mic_muted = true → w.actor.board.Silent := by
    refine hr.invariant_where (G := fun (w : World) (i : Input) => ¬ w.actor.lifts_mute i.event)
      (P := fun w => w.actor.board.mic_muted = true → w.actor.board.Silent) ?_ ?_ hg
    · rintro w ⟨identity, trust, settings, _, rfl⟩ hm
      cases hm
    · intro w i hP _ hlifts
      obtain ⟨l, hacts, _⟩ := w.met.handle_acts i.env i.event
      have hlifts : ¬ w.met.lifts_mute i.event := hlifts
      have hbefore : w.met.board.mic_muted = true → w.met.board.Silent := fun hm =>
        ⟨(hP hm).routes, (hP hm).aside, (hP hm).groups⟩
      exact Acts.silent hlifts hbefore hacts
  exact ⟨(hinv hm).routes, (hinv hm).groups⟩

end

/-! ## 5. Two runs -/

namespace Sample

/-- The peer sends its microphone to the speakers here. -/
def asks_to_speak : Input :=
  ⟨env, .Control 1 (.RouteRequest
    { route := 2, source_endpoint := "mic", sink_endpoint := "speaker"
      requester_is_source := true, profile := none, replace := false })⟩

/-- The peer speaks here, and the user mutes the microphone. -/
def speaks : List Input :=
  connects 1 peer peer_key ++ [asks_to_speak, ⟨env, .Command (.SetMicMuted true)⟩]

/-- The peer lifts the mute of its route. -/
def unmutes : Input :=
  ⟨env, .Control 1 (.MuteSet { route := 2, target := 0, muted := false })⟩

theorem speaks_admitted (es : List Input)
    (h : (engine Known).Admits ((engine Known).exec (start .default) speaks) es) :
    (engine Known).Admits (start .default) (speaks ++ es) := by
  refine ⟨.inl rfl, ⟨⟨_, List.mem_singleton.2 rfl, ?_⟩, ?_⟩, ?_, trivial, h⟩
  · simp [Call.reports]
    rfl
  · decide
  · exact List.mem_cons_self

end Sample

open Sample in
/-- The peer's word overrides the microphone mute. -/
theorem mic_mute_lifted :
    let es := speaks ++ [unmutes]
    (engine Known).Run ((engine Known).trace (start .default) es)
        ((engine Known).exec (start .default) es) ∧
      ((engine Known).exec (start .default) es).actor.mic_muted = true ∧
      ¬ ((∀ r ∈ ((engine Known).exec (start .default) es).actor.routes, r.Silent) ∧
        SilentGroups ((engine Known).exec (start .default) es).actor.encoders) := by
  refine ⟨?_, by decide +kernel, fun h => ?_⟩
  · refine Machine.run_of_admits (start_init .default) (speaks_admitted [unmutes] ⟨?_, trivial⟩)
    show 1 ∈ World.live _
    decide +kernel
  · have hheard : ∃ r ∈ ((engine Known).exec (start .default) (speaks ++ [unmutes])).actor.routes,
        r.kind.is_mic = true ∧ ∃ c ∈ r.receiver_controls, c.muted = false := by
      decide +kernel
    obtain ⟨r, hr, hmic, c, hc, hmuted⟩ := hheard
    exact nomatch hmuted.symm.trans ((h.1 r hr hmic).2 c hc)

open Sample in
/-- A route that plays when the microphone is muted becomes silent. -/
theorem mic_mute_covers_played :
    ((engine Known).exec (start .default) speaks).actor.mic_muted = true ∧
      (∀ r ∈ ((engine Known).exec (start .default) speaks).actor.routes, r.Silent) ∧
        SilentGroups ((engine Known).exec (start .default) speaks).actor.encoders := by
  have hmuted : ((engine Known).exec (start .default) speaks).actor.mic_muted = true := by
    decide +kernel
  refine ⟨hmuted, mic_mute_covers
    (Machine.run_of_admits (M := engine Known) (start_init .default) (speaks_admitted [] trivial))
    ?_ hmuted⟩
  rintro q hq ⟨_, _, _, _, _, he, _⟩
  simp only [speaks, connects, asks_to_speak, Machine.trace, List.cons_append, List.nil_append,
    List.mem_cons, List.not_mem_nil, or_false] at hq
  rcases hq with rfl | rfl | rfl | rfl <;> cases he

end SoundPush
