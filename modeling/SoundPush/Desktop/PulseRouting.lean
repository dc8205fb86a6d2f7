/-
`PulseRouting` -- what muting and capturing leave on the sound server: nothing of
SoundPush's, and the streams back where they came from.

A stream that was on a real sink while another one was the default is there, or on its
way back to it: on the speakers sink, or on a capture's with its origin noted (`Held`).
-/
import SoundPush.Desktop.PulseBooks

set_option autoImplicit false

namespace SoundPush

namespace Pulse

variable {pid : Nat} {start first home : String} {w w' : World} {e : Event}

/-! ## 1. The loopbacks, and the default of a capture's start -/

/-- The default is the one that unmuting returns to, or will be. -/
def Turned (home : String) (w : World) : Prop :=
  w.server.default_sink = some SPEAKERS_SINK ∨ w.server.default_sink = some home

/-- A capture that opened on the default `R` outside a mute opened on one of the two defaults. -/
def Origins (start home : String) (w : World) : Prop :=
  ∀ n r R, w.captures.get n = some r → r.playback = some R → R ≠ SPEAKERS_SINK →
    (R = start ∨ R = home) ∧ (R = home → Turned home w)

theorem Change.turned (hc : Change pid home w e w') (ht : Turned home w) : Turned home w' := by
  cases hc with
  | idle => exact ht
  | muted d _ _ => exact .inl rfl
  | unmuted m _ _ => exact .inr rfl
  | opened process exclude d _ => exact ht
  | routed n r moved _ _ => exact ht
  | closed n r d _ _ _ => exact ht
  | appeared i _ => exact ht
  | ended index => exact ht

theorem Change.origins (hs : Standing pid start first home w) (h : Origins start home w)
    (hc : Change pid home w e w') : Origins start home w' := by
  -- a capture that was open before
  have hold : ∀ {n r R}, w.captures.get n = some r → r.playback = some R → R ≠ SPEAKERS_SINK →
      (R = start ∨ R = home) ∧ (R = home → Turned home w') := by
    intro n r R hr hp hne
    obtain ⟨hR, ht⟩ := h n r R hr hp hne
    exact ⟨hR, fun hhome => hc.turned (ht hhome)⟩
  cases hc with
  | idle => exact h
  | muted d _ _ => exact fun _ _ _ => hold
  | unmuted m _ _ => exact fun _ _ _ => hold
  | opened process exclude d hd =>
      intro n r' R hr hp hne
      rcases Table.get_of_get_insert hr with ⟨-, hr⟩ | ⟨-, hr⟩
      · -- the capture opened on the default of now
        have hplay : some R = some d := by
          rw [← hp, hr]
          exact hd
        obtain rfl := Option.some_inj.1 hplay
        have hm : w.muted = false := by
          refine Bool.eq_false_of_not_eq_true fun hm => hne ?_
          exact Option.some_inj.1 (hd.symm.trans (hs.muted hm).1)
        obtain ⟨-, d', -, hd', -, hstart⟩ := hs.unmuted hm
        obtain rfl := Option.some_inj.1 (hd.symm.trans hd')
        exact ⟨hstart, fun hhome => .inr (hhome ▸ hd)⟩
      · exact hold hr hp hne
  | routed m r moved hm _ =>
      intro n r' R hr hp hne
      rcases Table.get_of_get_insert hr with ⟨-, hr⟩ | ⟨-, hr⟩
      · rw [hr] at hp
        exact hold hm hp hne
      · exact hold hr hp hne
  | closed m r d _ _ _ =>
      intro n r' R hr hp hne
      exact hold (Table.get_of_get_erase hr).2 hp hne
  | appeared i _ => exact fun _ _ _ => hold
  | ended index => exact fun _ _ _ => hold

/-- The loopback that a capture loads plays on the default, and no stream of before is its. -/
theorem loopbacks_opened (ht : Tidy w.server) (hs : Standing pid start first home w)
    (h : Loopbacks w) (process : String) (exclude : Bool) {d : String}
    (hd : w.server.default_sink = some d) :
    Loopbacks { w with
      server := (AppRouting.open pid w.next process exclude w.server).2
      captures := w.captures.insert w.next (AppRouting.open pid w.next process exclude w.server).1
      next := w.next + 1 } := by
  intro n r hr i hi howner
  dsimp only at hi
  rw [open_sink_inputs hd, List.mem_append, List.mem_singleton] at hi
  rcases Table.get_of_get_insert hr with ⟨-, hr⟩ | ⟨-, hr⟩
  · rcases hi with hi | hi
    · -- the new module's index is larger than those that own streams
      rw [hr] at howner
      have hlt := ht.owner_lt i hi _ howner
      exact absurd hlt (Nat.not_lt.2 (Nat.le_succ _))
    · rw [hi]
      exact ⟨hd, rfl, rfl⟩
  · rcases hi with hi | hi
    · exact h n r hr i hi howner
    · have hlt := ht.module_lt _ (hs.installed n r hr).2.loopback_module
      rw [hi] at howner
      have howner : w.server.next_module + 1 = r.loopback_module := Option.some_inj.1 howner
      dsimp only at hlt
      omega

theorem Change.loopbacks (ht : Tidy w.server) (hs : Standing pid start first home w)
    (h : Loopbacks w) (hc : Change pid home w e w') : Loopbacks w' := by
  cases hc with
  | idle => exact h
  | muted d _ hd =>
      intro n r hr i hi howner
      obtain ⟨j, hj, rfl⟩ := (Server.mem_relocate _).1 hi
      obtain ⟨hdj, hclient, hprocess⟩ := h n r hr j hj howner
      have hmoves : j.sink = d ∧ j.process_id ≠ some pid :=
        ⟨Option.some_inj.1 (hdj.symm.trans hd), by rw [hprocess]; rintro ⟨⟩⟩
      refine ⟨?_, hclient, hprocess⟩
      rw [if_pos hmoves]
      rfl
  | unmuted m hm _ =>
      intro n r hr i hi howner
      obtain ⟨j, hj, rfl⟩ := (Server.mem_relocate _).1 hi
      obtain ⟨hdj, hclient, hprocess⟩ := h n r hr j hj howner
      have hmoves : j.sink = SPEAKERS_SINK := Option.some_inj.1 (hdj.symm.trans (hs.muted hm).1)
      refine ⟨?_, hclient, hprocess⟩
      rw [if_pos hmoves]
      rfl
  | opened process exclude d hd => exact loopbacks_opened ht hs h process exclude hd
  | routed m r₀ moved hm _ =>
      intro n r' hr i hi howner
      obtain ⟨j, hj, rfl⟩ := (Server.mem_relocate _).1 hi
      obtain ⟨r, hr, hloop⟩ : ∃ r, w.captures.get n = some r ∧
          r'.loopback_module = r.loopback_module := by
        rcases Table.get_of_get_insert hr with ⟨hn, hr⟩ | ⟨-, hr⟩
        · exact ⟨r₀, hn ▸ hm, hr ▸ rfl⟩
        · exact ⟨r', hr, rfl⟩
      obtain ⟨hdj, hclient, hprocess⟩ := h n r hr j hj (hloop ▸ howner)
      -- a capture never takes a stream that a module plays
      have hstays : r₀.takes pid w.server.sinks j = false := by
        simp [AppRouting.takes, SinkInput.fixed, hclient]
      refine ⟨?_, hclient, hprocess⟩
      rw [hstays]
      exact hdj
  | closed m r₀ d hm hd _ =>
      intro n r hr i hi howner
      obtain ⟨j, hj, rfl⟩ := (Server.mem_relocate _).1 (List.mem_filter.1 hi).1
      obtain ⟨hdj, hclient, hprocess⟩ := h n r (Table.get_of_get_erase hr).2 j hj howner
      obtain ⟨d', -, hd', hne⟩ := hs.default
      have hstays : j.sink ≠ r₀.sink := by
        rw [(hs.installed m r₀ hm).2.sink, ← Option.some_inj.1 (hd'.symm.trans hdj)]
        exact hne m
      refine ⟨?_, hclient, hprocess⟩
      rw [if_neg hstays]
      exact hdj
  | appeared j he =>
      intro n r hr i hi howner
      rcases List.mem_append.1 hi with hi | hi
      · exact h n r hr i hi howner
      · rw [List.mem_singleton.1 hi] at howner
        exact absurd howner (he.2.2 _ (hs.installed n r hr).2.loopback_module)
  | ended index => exact fun n r hr i hi => h n r hr i (List.mem_filter.1 hi).1

/-! ## 2. A stream and its sink -/

/-- Where a stream of the sink `R` is. -/
inductive Place (home : String) (w : World) (R : String) (i : SinkInput) : Prop
  | back : i.sink = R → Place home w R i
  /-- under the mute -/
  | under : R = home → Turned home w → i.sink = SPEAKERS_SINK → Place home w R i
  /-- captured while `R` is where unmuting returns to: the fallback leads there -/
  | taken (n : Nat) (r : AppRouting) : R = home → Turned home w → w.captures.get n = some r →
      i.sink = r.sink →
      (r.moved.get i.index = some R ∨ r.moved.get i.index = some SPEAKERS_SINK) → Place home w R i
  /-- captured, with `R` noted to go back to -/
  | noted (n : Nat) (r : AppRouting) : w.captures.get n = some r → i.sink = r.sink →
      r.moved.get i.index = some R → r.playback ≠ some R → Place home w R i

/-- The stream `idx` is one of the real sink `R`: it is there or comes back. -/
structure Held (pid : Nat) (start home : String) (idx : Nat) (R : String) (w : World) : Prop where
  lt : idx < w.server.next_input
  mem : R ∈ w.server.sinks
  real : ¬ Temporary pid R
  from_start : R = start → R = home
  default : w.server.default_sink = some R → R = home
  place : ∀ i ∈ w.server.sink_inputs, i.index = idx → Place home w R i

theorem Change.next_input_le (hc : Change pid home w e w') :
    w.server.next_input ≤ w'.server.next_input := by
  cases hc with
  | idle => exact Nat.le_refl _
  | muted d _ _ => exact Nat.le_refl _
  | unmuted m _ _ => exact Nat.le_refl _
  | opened process exclude d _ => exact Nat.le_succ _
  | routed n r moved _ _ => exact Nat.le_refl _
  | closed n r d _ _ _ => exact Nat.le_refl _
  | appeared i he => exact Nat.le_succ_of_le he.2.1
  | ended index => exact Nat.le_refl _

/-- The default changes to the speakers sink, or back home. -/
theorem Change.default (hc : Change pid home w e w') :
    w'.server.default_sink = w.server.default_sink ∨
      w'.server.default_sink = some SPEAKERS_SINK ∨ w'.server.default_sink = some home := by
  cases hc with
  | idle => exact .inl rfl
  | muted d _ _ => exact .inr (.inl rfl)
  | unmuted m _ _ => exact .inr (.inr rfl)
  | opened process exclude d _ => exact .inl rfl
  | routed n r moved _ _ => exact .inl rfl
  | closed n r d _ _ _ => exact .inl rfl
  | appeared i _ => exact .inl rfl
  | ended index => exact .inl rfl

namespace Place

variable {R : String} {i : SinkInput}

/-- A stream stays put while the captures that are open keep their notes about it. -/
theorem stay (h : Place home w R i) (ht : Turned home w → Turned home w')
    (hkeep : ∀ n r, w.captures.get n = some r → i.sink = r.sink →
      ∃ r', w'.captures.get n = some r' ∧ r'.sink = r.sink ∧ r'.playback = r.playback ∧
        r'.moved.get i.index = r.moved.get i.index) : Place home w' R i := by
  cases h with
  | back h => exact .back h
  | under hhome hturned h => exact .under hhome (ht hturned) h
  | taken n r hhome hturned hr hsink hmoved =>
      obtain ⟨r', hr', hsink', -, hnotes⟩ := hkeep n r hr hsink
      exact .taken n r' hhome (ht hturned) hr' (hsink.trans hsink'.symm) (hnotes ▸ hmoved)
  | noted n r hr hsink hmoved hplay =>
      obtain ⟨r', hr', hsink', hplay', hnotes⟩ := hkeep n r hr hsink
      exact .noted n r' hr' (hsink.trans hsink'.symm) (hnotes ▸ hmoved) (hplay' ▸ hplay)

/-- A stream on the sink of no capture is back, or under the mute. -/
theorem outside (hs : Standing pid start first home w) (h : Place home w R i)
    (hout : ∀ n, i.sink ≠ app_sink pid n) :
    i.sink = R ∨ R = home ∧ Turned home w ∧ i.sink = SPEAKERS_SINK := by
  cases h with
  | back h => exact .inl h
  | under hhome hturned h => exact .inr ⟨hhome, hturned, h⟩
  | taken n r hhome hturned hr hsink hmoved =>
      exact absurd (hsink.trans (hs.installed n r hr).2.sink) (hout n)
  | noted n r hr hsink hmoved hplay =>
      exact absurd (hsink.trans (hs.installed n r hr).2.sink) (hout n)

/-- A stream that the mute moves. -/
theorem muted (hs : Standing pid start first home w) (h : Place home w R i) {d : String}
    (hd : w.server.default_sink = some d) (hR : w.server.default_sink = some R → R = home)
    (hi : i.sink = d) (hw : w'.server.default_sink = some SPEAKERS_SINK) :
    Place home w' R { i with sink := SPEAKERS_SINK } := by
  obtain ⟨d', -, hd', hne⟩ := hs.default
  obtain rfl := Option.some_inj.1 (hd.symm.trans hd')
  rcases h.outside hs (fun n => hi ▸ hne n) with h | ⟨hhome, -, -⟩
  · refine .under (hR ?_) (.inl hw) rfl
    rw [hd, ← hi, h]
  · exact .under hhome (.inl hw) rfl

/-- A stream that the end of the mute moves home. -/
theorem unmuted (hs : Standing pid start first home w) (h : Place home w R i)
    (hR : ¬ Temporary pid R) (hi : i.sink = SPEAKERS_SINK) :
    Place home w' R { i with sink := home } := by
  rcases h.outside hs (fun n => hi ▸ (app_sink_ne_speakers pid n).symm) with h | ⟨hhome, -, -⟩
  · exact absurd (h ▸ hi ▸ temporary_speakers pid) hR
  · exact .back hhome.symm

/-- A stream that a capture takes. -/
theorem routed (hs : Standing pid start first home w) (ho : Origins start home w)
    (h : Place home w R i) (hR : ¬ Temporary pid R) (hstart : R = start → R = home)
    (ht : Turned home w → Turned home w') {n : Nat} {r r' : AppRouting}
    (hr : w.captures.get n = some r) (hr' : w'.captures.get n = some r')
    (hsink : r'.sink = r.sink) (hplay : r'.playback = r.playback)
    (hnote : r'.moved.get i.index = some i.sink) (hown : own_sink i.sink = false) :
    Place home w' R { i with sink := r.sink } := by
  have hout : ∀ n, i.sink ≠ app_sink pid n := fun n he => by
    rw [he, own_sink_app_sink] at hown
    exact Bool.false_ne_true hown.symm
  rcases h.outside hs hout with h | ⟨hhome, hturned, h⟩
  · rw [h] at hnote
    by_cases hp : r.playback = some R
    · -- the capture opened when `R` was the default
      have hne : R ≠ SPEAKERS_SINK := fun he => hR (he ▸ temporary_speakers pid)
      obtain ⟨hor, hturned⟩ := ho n r R hr hp hne
      have hhome : R = home := by
        rcases hor with hor | hor
        · exact hstart hor
        · exact hor
      exact .taken n r' hhome (ht (hturned hhome)) hr' hsink.symm (.inl hnote)
    · exact .noted n r' hr' hsink.symm hnote (hplay ▸ hp)
  · exact .taken n r' hhome (ht hturned) hr' hsink.symm (.inr (h ▸ hnote))

/-- A stream on the sink of a capture that is closed. -/
theorem closed (hs : Standing pid start first home w) (h : Place home w R i)
    (hR : ¬ Temporary pid R) (hmem : R ∈ w.server.sinks) (ht : Turned home w → Turned home w')
    {n : Nat} {r : AppRouting} {d : String} (hr : w.captures.get n = some r)
    (hd : w.server.default_sink = some d) (hf : r.fallback w.server = some d)
    (hi : i.sink = r.sink) :
    Place home w' R { i with sink := (r.target w.server i).getD i.sink } := by
  have hsink := (hs.installed n r hr).2.sink
  -- the capture that holds the stream is this one
  have hsame : ∀ n' r', w.captures.get n' = some r' → i.sink = r'.sink → r' = r := by
    intro n' r' hr' hi'
    have hn : n' = n := app_sink_inj.1
      ((hs.installed n' r' hr').2.sink.symm.trans (hi'.symm.trans (hi.trans hsink)))
    rw [hn] at hr'
    exact Option.some_inj.1 (hr'.symm.trans hr)
  cases h with
  | back h => exact absurd (h ▸ hi ▸ hsink ▸ temporary_app_sink pid n) hR
  | under _ _ h => exact absurd (hsink.symm.trans (hi.symm.trans h)) (app_sink_ne_speakers pid n)
  | taken n' r' hhome hturned hr' hi' hmoved =>
      rw [hsame n' r' hr' hi'] at hmoved
      rcases target_eq hf i with ⟨name, hname, -, -, -, htarget⟩ | ⟨-, htarget⟩
      · rw [htarget]
        rw [hname, Option.some_inj, Option.some_inj] at hmoved
        rcases hmoved with hmoved | hmoved
        · exact .back hmoved
        · exact .under hhome (ht hturned) hmoved
      · rw [htarget]
        -- the default of now is one of the two
        rcases hturned with hdefault | hdefault
        · exact .under hhome (ht (.inl hdefault)) (Option.some_inj.1 (hd.symm.trans hdefault))
        · exact .back ((Option.some_inj.1 (hd.symm.trans hdefault)).trans hhome.symm)
  | noted n' r' hr' hi' hmoved hplay =>
      rw [hsame n' r' hr' hi'] at hmoved hplay
      rcases target_eq hf i with ⟨name, hname, -, -, -, htarget⟩ | ⟨hnone, -⟩
      · rw [htarget]
        exact .back (Option.some_inj.1 (hname.symm.trans hmoved))
      · refine absurd hmem (hnone R hmoved hplay fun he => hR ?_)
        exact he ▸ hsink ▸ temporary_app_sink pid n

end Place

/-- Every change leaves a stream of `R` on its way to `R`. -/
theorem Change.place {R : String} {idx : Nat} (hs : Standing pid start first home w)
    (ho : Origins start home w) (h : Held pid start home idx R w)
    (hc : Change pid home w e w') : ∀ i ∈ w'.server.sink_inputs, i.index = idx →
      Place home w' R i := by
  have ht := hc.turned
  cases hc with
  | idle => exact h.place
  | muted d _ hd =>
      intro i hi hidx
      obtain ⟨j, hj, rfl⟩ := (Server.mem_relocate _).1 hi
      have hp := h.place j hj hidx
      -- Streams on the default go to the speakers sink and remember nothing; unmuting sends them
      -- to `home`.
      by_cases hmoves : j.sink = d ∧ j.process_id ≠ some pid
      · rw [if_pos hmoves]
        exact hp.muted hs hd h.default hmoves.1 rfl
      · rw [if_neg hmoves]
        exact hp.stay ht fun n r hr _ => ⟨r, hr, rfl, rfl, rfl⟩
  | unmuted m _ _ =>
      intro i hi hidx
      obtain ⟨j, hj, rfl⟩ := (Server.mem_relocate _).1 hi
      have hp := h.place j hj hidx
      by_cases hmoves : j.sink = SPEAKERS_SINK
      · rw [if_pos hmoves]
        exact hp.unmuted hs h.real hmoves
      · rw [if_neg hmoves]
        exact hp.stay ht fun n r hr _ => ⟨r, hr, rfl, rfl, rfl⟩
  | opened process exclude d hd =>
      intro i hi hidx
      dsimp only at hi
      rw [open_sink_inputs hd, List.mem_append, List.mem_singleton] at hi
      rcases hi with hi | hi
      · refine (h.place i hi hidx).stay ht fun n r hr _ => ⟨r, ?_, rfl, rfl, rfl⟩
        have hlt := (hs.installed n r hr).1
        dsimp only
        rw [Table.get_insert, if_neg (Nat.ne_of_lt hlt)]
        exact hr
      · -- the new stream has a new index
        have hlt := h.lt
        rw [← hidx, hi] at hlt
        exact absurd hlt (Nat.lt_irrefl _)
  | routed n r moved hr hnotes =>
      intro i hi hidx
      obtain ⟨j, hj, rfl⟩ := (Server.mem_relocate _).1 hi
      have hp := h.place j hj hidx
      have hnote := hnotes j hj
      by_cases hmoves : r.takes pid w.server.sinks j = true
      · have hown : own_sink j.sink = false := by
          rw [AppRouting.takes, Bool.and_eq_true, Bool.not_eq_true'] at hmoves
          exact hmoves.2
        have hr' : (w.captures.insert n { r with moved }).get n = some { r with moved } :=
          Table.get_insert_self _ _ _
        rw [if_pos hmoves] at hnote ⊢
        exact hp.routed hs ho h.real h.from_start ht hr hr' rfl rfl hnote hown
      · rw [if_neg hmoves] at hnote ⊢
        refine hp.stay ht fun m r' hr' _ => ?_
        dsimp only
        rw [Table.get_insert]
        -- The capture that routed notes where a stream came from only if it takes it; the notes
        -- of the other captures are as before.
        by_cases hm : m = n
        · rw [hm, hr, Option.some_inj] at hr'
          exact ⟨_, if_pos hm, hr' ▸ rfl, hr' ▸ rfl, hr' ▸ hnote⟩
        · exact ⟨r', (if_neg hm).trans hr', rfl, rfl, rfl⟩
  | closed n r d hr hd hf =>
      intro i hi hidx
      obtain ⟨j, hj, rfl⟩ := (Server.mem_relocate _).1 (List.mem_filter.1 hi).1
      have hp := h.place j hj hidx
      by_cases hmoves : j.sink = r.sink
      · rw [if_pos hmoves]
        exact hp.closed hs h.real h.mem ht hr hd hf hmoves
      · rw [if_neg hmoves]
        refine hp.stay ht fun m r' hr' hsink => ⟨r', ?_, rfl, rfl, rfl⟩
        dsimp only
        rw [Table.get_erase, if_neg fun hm => hmoves ?_]
        · exact hr'
        -- The stream is not on the sink of the capture that closes, so the capture it refers to
        -- is another one and stays.
        · rw [hm, hr, Option.some_inj] at hr'
          exact hsink.trans (hr' ▸ rfl)
  | appeared j he =>
      intro i hi hidx
      rcases List.mem_append.1 hi with hi | hi
      · exact (h.place i hi hidx).stay ht fun n r hr _ => ⟨r, hr, rfl, rfl, rfl⟩
      · have hlt := h.lt
        rw [← hidx, List.mem_singleton.1 hi] at hlt
        exact absurd he.2.1 (Nat.not_le.2 hlt)
  | ended index =>
      intro i hi hidx
      exact (h.place i (List.mem_filter.1 hi).1 hidx).stay ht fun n r hr _ => ⟨r, hr, rfl, rfl, rfl⟩

theorem Held.change {R : String} {idx : Nat} (h : Held pid start home idx R w)
    (hs : Standing pid start first home w) (ho : Origins start home w)
    (hc : Change pid home w e w') : Held pid start home idx R w' where
  lt := Nat.lt_of_lt_of_le h.lt hc.next_input_le
  mem := (hc.sinks hs h.real).2 h.mem
  real := h.real
  from_start := h.from_start
  default := by
    intro hd
    rcases hc.default with hsame | hspeakers | hhome
    · exact h.default (hsame.symm.trans hd)
    · have hR : SPEAKERS_SINK = R := Option.some_inj.1 (hspeakers.symm.trans hd)
      exact absurd (hR ▸ temporary_speakers pid) h.real
    · exact (Option.some_inj.1 (hhome.symm.trans hd)).symm
  place := hc.place hs ho h

/-! ## 3. Whole runs -/

/-- All that every step keeps. -/
structure Sound (pid : Nat) (start first home : String) (w : World) : Prop where
  tidy : Tidy w.server
  standing : Standing pid start first home w
  loopbacks : Loopbacks w
  origins : Origins start home w

theorem Sound.step_change (h : Sound pid start first home w) (he : w.enabled e) :
    Change pid home w e (w.step pid e) :=
  Pulse.step_change h.tidy h.standing h.loopbacks he

theorem Sound.step (h : Sound pid start first home w) (he : w.enabled e) :
    Sound pid start first home (w.step pid e) :=
  let hc := h.step_change he
  ⟨hc.tidy h.tidy h.standing, h.standing.change h.tidy hc,
    hc.loopbacks h.tidy h.standing h.loopbacks, hc.origins h.standing h.origins⟩

/-- A run begins soundly, with the default as its start. -/
theorem World.Fresh.sound (h : World.Fresh pid w) :
    ∃ start first home, w.server.default_sink = some start ∧ Sound pid start first home w := by
  obtain ⟨d, hmem, hd, hreal⟩ := h.default
  have hnone : ∀ n, w.captures.get n = none := by
    rw [h.captures]
    exact fun n => Table.get_empty n
  have hsome : ∀ {n r}, w.captures.get n ≠ some r := fun {n r} hr => by
    rw [hnone n] at hr
    cases hr
  obtain ⟨first, hfirst⟩ : ∃ first,
      (w.server.sinks.find? fun name => !starts_with name "soundpush_") = some first := by
    rw [← Option.isSome_iff_exists, List.find?_isSome]
    exact ⟨d, hmem, by rw [hreal]; rfl⟩
  -- `home` is the default if its name is plain, else the first real sink, as in
  -- `unmute_speakers`.
  have hhome : (if plain_name d then d else first) ∈ w.server.sinks ∧
      starts_with (if plain_name d then d else first) "soundpush_" = false := by
    by_cases hp : plain_name d = true
    · rw [if_pos hp]
      exact ⟨hmem, hreal⟩
    · have hr := List.find?_some hfirst
      rw [Bool.not_eq_true'] at hr
      rw [if_neg hp]
      exact ⟨List.mem_of_find?_eq_some hfirst, hr⟩
  refine ⟨d, first, if plain_name d then d else first, hd, ⟨fun i hi => (h.inputs i hi).1,
    fun i hi => (h.inputs i hi).2, h.indices, h.owners, ?_, ?_⟩, ⟨?_, ?_, ?_, hfirst, hhome.1,
      hhome.2, rfl, fun _ => ⟨?_, d, hmem, hd, hreal, .inl rfl⟩, ?_⟩, ?_, ?_⟩
  · rw [h.modules]
    exact fun m hm => absurd hm List.not_mem_nil
  · rw [h.modules]
    exact List.nodup_nil
  · rw [h.muted]
    exact iff_of_false (fun hs => h.sinks _ hs (temporary_speakers pid)) Bool.false_ne_true
  · exact fun n hn => absurd (temporary_app_sink pid n) (h.sinks _ hn)
  · exact fun n r hr => absurd hr hsome
  · rw [Server.speakers_modules, h.modules]
    rfl
  · rw [h.muted]
    exact fun hfalse => absurd hfalse Bool.false_ne_true
  · exact fun n r hr => absurd hr hsome
  · exact fun n r R hr => absurd hr hsome

/-- The state a run began in. -/
def began (tr : List (World × Event)) (w : World) : World := (tr.head?.map Prod.fst).getD w

theorem began_append (tr : List (World × Event)) (w w' : World) (e : Event) :
    began (tr ++ [(w, e)]) w' = began tr w := by
  cases tr with
  | nil => rfl
  | cons p tr => rfl

/-- A stream of a real sink that is not the default is held to it from then on. -/
theorem Sound.held (h : Sound pid start first home w) {i : SinkInput}
    (hi : i ∈ w.server.sink_inputs) (hd : w.server.default_sink ≠ some i.sink)
    (hreal : ¬ Temporary pid i.sink) (hstart : i.sink = start → i.sink = home) :
    Held pid start home i.index i.sink w where
  lt := h.tidy.input_lt i hi
  mem := h.tidy.on_sink i hi
  real := hreal
  from_start := hstart
  default := fun hd' => absurd hd' hd
  place := by
    intro j hj hidx
    rw [List.inj_on_of_nodup_map h.tidy.inputs hj hi hidx]
    exact .back rfl

/-- Along a run: everything is accounted for, and every stream that was on another sink than the
default is held to it. -/
theorem run_held {tr : List (World × Event)} (hr : (World.machine pid).Run tr w) :
    ∃ start first home, (began tr w).server.default_sink = some start ∧
      Sound pid start first home w ∧
      ∀ p ∈ tr, ∀ i ∈ p.1.server.sink_inputs, p.1.server.default_sink ≠ some i.sink →
        ¬ Temporary pid i.sink → (i.sink = start → i.sink = home) →
          Held pid start home i.index i.sink w := by
  induction hr with
  | start h0 =>
      obtain ⟨start, first, home, hd, hs⟩ := h0.sound
      exact ⟨start, first, home, hd, hs, fun _ hp => absurd hp List.not_mem_nil⟩
  | @next tr w e _ he ih =>
      obtain ⟨start, first, home, hd, hs, hheld⟩ := ih
      have hc := hs.step_change he
      refine ⟨start, first, home, (began_append tr w _ e).symm ▸ hd, hs.step he, ?_⟩
      intro p hp i hi hdefault hreal hstart
      rcases List.mem_append.1 hp with hp | hp
      · exact (hheld p hp i hi hdefault hreal hstart).change hs.standing hs.origins hc
      · obtain rfl := List.mem_singleton.1 hp
        exact (hs.held hi hdefault hreal hstart).change hs.standing hs.origins hc

/-- Nothing of SoundPush's is on the server once it does nothing there. -/
theorem Standing.at_rest (h : Standing pid start first home w) (hm : w.muted = false)
    (hc : ∀ n, w.captures.get n = none) : ∀ name ∈ w.server.sinks, ¬ Temporary pid name := by
  rintro name hmem (rfl | ⟨n, rfl⟩)
  · rw [h.speakers.1 hmem] at hm
    exact Bool.false_ne_true hm.symm
  · obtain ⟨r, hr⟩ := h.apps n hmem
    rw [hc n] at hr
    cases hr

/-- The step moved the stream away from a sink of somebody else's that was not the default. -/
def MovedAway (pid : Nat) (p : World × Event) (i : SinkInput) : Prop :=
  i ∈ p.1.server.sink_inputs ∧ p.1.server.default_sink ≠ some i.sink ∧ ¬ Temporary pid i.sink ∧
    ∃ j ∈ (p.1.step pid p.2).server.sink_inputs, j.index = i.index ∧ j.sink ≠ i.sink

/-- Once the speakers are unmuted and every capture is closed, no stream is on a sink that these
made, the default is not SoundPush's, and a stream that was moved away from a sink which was not
the default is back there: on every sink but the default of the start, and on that one too if its
name is plain. -/
theorem routing_restored {tr : List (World × Event)} (hr : (World.machine pid).Run tr w)
    (hm : w.muted = false) (hc : ∀ n, w.captures.get n = none) :
    (∀ i ∈ w.server.sink_inputs, ¬ Temporary pid i.sink) ∧
      (∃ d, w.server.default_sink = some d ∧ starts_with d "soundpush_" = false) ∧
      ∀ p ∈ tr, ∀ i, MovedAway pid p i →
        (plain_name i.sink = true ∨ (began tr w).server.default_sink ≠ some i.sink) →
          ∀ j ∈ w.server.sink_inputs, j.index = i.index → j.sink = i.sink := by
  obtain ⟨start, first, home, hstart, hs, hheld⟩ := run_held hr
  have hrest := hs.standing.at_rest hm hc
  have hclear : ∀ i ∈ w.server.sink_inputs, ¬ Temporary pid i.sink := fun i hi =>
    hrest _ (hs.tidy.on_sink i hi)
  obtain ⟨-, d, -, hd, hreal, -⟩ := hs.standing.unmuted hm
  refine ⟨hclear, ⟨d, hd, hreal⟩, ?_⟩
  rintro p hp i ⟨hi, hdefault, hreal, -⟩ hcond j hj hidx
  have hhome : i.sink = start → i.sink = home := by
    intro he
    rcases hcond with hplain | hother
    · exact (hs.standing.home_of (.inl he)).1 hplain
    · exact absurd (he ▸ hstart) hother
  have hplace := (hheld p hp i hi hdefault hreal hhome).place j hj hidx
  rcases hplace.outside hs.standing fun n he => hclear j hj (he ▸ temporary_app_sink pid n) with
    h | ⟨-, -, h⟩
  · exact h
  · exact absurd (h ▸ temporary_speakers pid) (hclear j hj)

/-- Two outputs, of which `name` is the default. -/
def two_outputs (name : String) : World where
  server :=
    { default_sink := some name, sinks := ["hdmi", name], sink_inputs := [], modules := [],
      next_module := 1, next_input := 0 }
  captures := ∅
  next := 0
  muted := false

theorem fresh_two_outputs {pid : Nat} {name : String}
    (h : starts_with name "soundpush_" = false) : World.Fresh pid (two_outputs name) where
  default := ⟨name, List.mem_cons_of_mem _ (List.mem_singleton_self _), rfl, h⟩
  sinks d hd := by
    rcases List.mem_cons.1 hd with rfl | hd
    · exact not_temporary (by decide)
    · exact List.mem_singleton.1 hd ▸ not_temporary h
  inputs _ hi := absurd hi List.not_mem_nil
  indices := List.nodup_nil
  owners _ hi := absurd hi List.not_mem_nil
  modules := rfl
  captures := rfl
  muted := rfl

/-- A stream of the app that is captured, on the sink. -/
def game_stream (sink : String) : SinkInput where
  index := 1
  sink := sink
  owner_module := none
  client := some 3
  process_id := some 9
  app := "game"
  internal := false

/-- The captures that are open when no sink of SoundPush's is left: none. -/
theorem no_captures {tr : List (World × Event)} (hr : (World.machine pid).Run tr w)
    (h : ∀ name ∈ w.server.sinks, starts_with name "soundpush_" = false) (n : Nat) :
    w.captures.get n = none := by
  obtain ⟨start, first, home, -, hs, -⟩ := run_held hr
  rw [Option.eq_none_iff_forall_ne_some]
  intro r hget
  have hi := (hs.standing.installed n r hget).2
  exact not_temporary (h _ hi.mem) (hi.sink ▸ temporary_app_sink pid n)

/-- The game plays on another sink than the default, and is captured through a mute. -/
def hdmi_game : List Event :=
  [.appear (game_stream "hdmi"), .open "game" false, .mute, .route 0, .unmute, .close 0]

theorem routing_restored_hdmi :
    ∃ j ∈ ((World.machine 42).exec (two_outputs "speakers") hdmi_game).server.sink_inputs,
      j.index = 1 ∧ j.sink = "hdmi" := by
  have hr : (World.machine 42).Run ((World.machine 42).trace (two_outputs "speakers") hdmi_game)
      ((World.machine 42).exec (two_outputs "speakers") hdmi_game) :=
    Machine.run_of_admits (fresh_two_outputs (by decide))
    ⟨⟨by decide, by decide, by decide⟩, trivial, trivial, trivial, trivial, trivial, trivial⟩
  have hserver : ((World.machine 42).exec (two_outputs "speakers") hdmi_game).server =
      { default_sink := some "speakers", sinks := ["hdmi", "speakers"],
        sink_inputs := [game_stream "hdmi"], modules := []
        next_module := 4, next_input := 3 } := by
    decide +kernel
  have hcaptures := no_captures hr (by rw [hserver]; decide)
  obtain ⟨-, -, hback⟩ := routing_restored hr (by decide +kernel) hcaptures
  have hmem : game_stream "hdmi" ∈
      ((World.machine 42).exec (two_outputs "speakers") hdmi_game).server.sink_inputs := by
    rw [hserver]
    exact List.mem_singleton_self _
  refine ⟨_, hmem, rfl, ?_⟩
  -- the step that captured the game
  refine hback ((World.machine 42).exec (two_outputs "speakers") (hdmi_game.take 3), .route 0) ?_
    (game_stream "hdmi") ⟨?_, ?_, not_temporary (by decide), ?_⟩ (.inl (by decide)) _ hmem rfl
  · exact .tail _ (.tail _ (.tail _ (.head _)))
  · decide +kernel
  · decide +kernel
  · exact ⟨game_stream (app_sink 42 0), by decide +kernel, rfl, by decide⟩

/-- The game plays on the user's speakers while these are muted; it is captured from before the mute
to after it. -/
def speakers_game : List Event :=
  [.open "game" false, .mute, .appear (game_stream "my speakers"), .route 0, .unmute, .close 0]

/-- The speakers' name has a blank in it, so unmuting returns to the other output, and the game goes
there when the capture is closed. -/
theorem captured_stream_left_elsewhere :
    ¬ ∀ (pid : Nat) (tr : List (World × Event)) (w : World), (World.machine pid).Run tr w →
      w.muted = false → (∀ n, w.captures.get n = none) →
        (∀ i ∈ w.server.sink_inputs, ¬ Temporary pid i.sink) ∧
          (∃ d, w.server.default_sink = some d ∧ starts_with d "soundpush_" = false) ∧
          ∀ p ∈ tr, ∀ i, MovedAway pid p i →
            ∀ j ∈ w.server.sink_inputs, j.index = i.index → j.sink = i.sink := by
  intro hclaim
  have hr : (World.machine 42).Run
      ((World.machine 42).trace (two_outputs "my speakers") speakers_game)
      ((World.machine 42).exec (two_outputs "my speakers") speakers_game) :=
    Machine.run_of_admits (fresh_two_outputs (by decide))
    ⟨trivial, trivial, ⟨by decide +kernel, by decide +kernel, by decide +kernel⟩, trivial, trivial,
      trivial, trivial⟩
  -- After the whole run: the game is on the other output, and nothing of ours is left.
  have hserver : ((World.machine 42).exec (two_outputs "my speakers") speakers_game).server =
      { default_sink := some "hdmi", sinks := ["hdmi", "my speakers"],
        sink_inputs := [game_stream "hdmi"], modules := []
        next_module := 4, next_input := 2 } := by
    decide +kernel
  obtain ⟨-, -, hback⟩ := hclaim 42 _ _ hr (by decide +kernel)
    (no_captures hr (by rw [hserver]; decide))
  -- The way back, at the `route` step that took the game off the speakers.
  have h := hback
    ((World.machine 42).exec (two_outputs "my speakers") (speakers_game.take 3), .route 0)
    (.tail _ (.tail _ (.tail _ (.head _)))) (game_stream "my speakers")
    ⟨by decide +kernel, by decide +kernel, not_temporary (by decide),
      game_stream (app_sink 42 0), by decide +kernel, rfl, by decide⟩
    (game_stream "hdmi") (by rw [hserver]; exact List.mem_singleton_self _) rfl
  exact absurd h (by decide)

end Pulse

end SoundPush
