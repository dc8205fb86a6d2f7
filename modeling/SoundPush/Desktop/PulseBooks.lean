/-
`PulseBooks` -- what is on the sound server at any time: streams on sinks that exist
(`Tidy`), and the sinks, modules and the default that the open captures and the mute
account for (`Standing`).

Unmuting always returns to one sink, the `home`: the default at the start, or the first
real sink listed where the name of that one cannot be written into a module's argument.
Every step is one of the changes of `Change`, and the books are kept by each.
-/
import SoundPush.Desktop.PulseCalls

set_option autoImplicit false

namespace SoundPush

namespace Pulse

/-! ## 1. The server's books -/

/-- Streams are on sinks that exist, and indices are used once. -/
structure Tidy (s : Server) : Prop where
  on_sink : ∀ i ∈ s.sink_inputs, i.sink ∈ s.sinks
  input_lt : ∀ i ∈ s.sink_inputs, i.index < s.next_input
  inputs : (s.sink_inputs.map SinkInput.index).Nodup
  owner_lt : ∀ i ∈ s.sink_inputs, ∀ m, i.owner_module = some m → m < s.next_module
  module_lt : ∀ m ∈ s.modules, m.index < s.next_module
  modules : (s.modules.map Module.index).Nodup

namespace Tidy

variable {s : Server}

/-- Modules with different arguments have different indices. -/
theorem index_ne (h : Tidy s) {m k : Nat} {a b : Argument} (hm : ⟨m, a⟩ ∈ s.modules)
    (hk : ⟨k, b⟩ ∈ s.modules) (hne : a ≠ b) : m ≠ k := fun he =>
  hne (congrArg Module.argument (List.inj_on_of_nodup_map h.modules hm hk he))

theorem relocate (h : Tidy s) {choose : SinkInput → Option String}
    (hc : ∀ i ∈ s.sink_inputs, ∀ name, choose i = some name → name ∈ s.sinks) :
    Tidy (s.relocate choose) where
  on_sink := by
    intro j hj
    obtain ⟨i, hi, rfl⟩ := s.mem_relocate.1 hj
    cases hname : choose i with
    | none => exact h.on_sink i hi
    | some name => exact hc i hi name hname
  input_lt := by
    intro j hj
    obtain ⟨i, hi, rfl⟩ := s.mem_relocate.1 hj
    exact h.input_lt i hi
  inputs := by
    rw [Server.relocate_index]
    exact h.inputs
  owner_lt := by
    intro j hj m hm
    obtain ⟨i, hi, rfl⟩ := s.mem_relocate.1 hj
    exact h.owner_lt i hi m hm
  module_lt := h.module_lt
  modules := h.modules

theorem set_default_sink (h : Tidy s) (name : String) : Tidy (s.set_default_sink name) :=
  ⟨h.on_sink, h.input_lt, h.inputs, h.owner_lt, h.module_lt, h.modules⟩

/-- A module is loaded under a new index. -/
theorem load (h : Tidy s) (argument : Argument) :
    (∀ m ∈ s.modules ++ [(⟨s.next_module, argument⟩ : Module)], m.index < s.next_module + 1) ∧
      ((s.modules ++ [(⟨s.next_module, argument⟩ : Module)]).map Module.index).Nodup := by
  constructor
  · intro m hm
    rcases List.mem_append.1 hm with hm | hm
    · exact Nat.lt_succ_of_lt (h.module_lt m hm)
    · rw [List.mem_singleton.1 hm]
      exact Nat.lt_succ_self _
  · rw [List.map_append, List.nodup_append]
    refine ⟨h.modules, List.nodup_singleton _, ?_⟩
    intro a ha b hb hab
    obtain ⟨m, hm, rfl⟩ := List.mem_map.1 ha
    rw [List.map_singleton, List.mem_singleton] at hb
    have := h.module_lt m hm
    rw [hab, hb] at this
    exact Nat.lt_irrefl _ this

theorem load_null_sink (h : Tidy s) (name : String) (restore : Option String) :
    Tidy (s.load_null_sink name restore) where
  on_sink i hi := List.mem_append_left _ (h.on_sink i hi)
  input_lt := h.input_lt
  inputs := h.inputs
  owner_lt i hi m hm := Nat.lt_succ_of_lt (h.owner_lt i hi m hm)
  module_lt := (h.load _).1
  modules := (h.load _).2

/-- Streams after one more started. -/
theorem add_input (h : Tidy s) {i : SinkInput} (hi : s.next_input ≤ i.index) :
    (∀ j ∈ s.sink_inputs ++ [i], j.index < i.index + 1) ∧
      ((s.sink_inputs ++ [i]).map SinkInput.index).Nodup := by
  constructor
  · intro j hj
    rcases List.mem_append.1 hj with hj | hj
    · have := h.input_lt j hj
      omega
    · rw [List.mem_singleton.1 hj]
      omega
  · rw [List.map_append, List.nodup_append]
    refine ⟨h.inputs, List.nodup_singleton _, ?_⟩
    intro a ha b hb hab
    obtain ⟨j, hj, rfl⟩ := List.mem_map.1 ha
    rw [List.map_singleton, List.mem_singleton] at hb
    have := h.input_lt j hj
    rw [hab, hb] at this
    omega

theorem add_sink_input (h : Tidy s) {i : SinkInput} (hs : i.sink ∈ s.sinks)
    (hi : s.next_input ≤ i.index) : Tidy (s.add_sink_input i) := by
  have hnext : s.next_module ≤ (s.add_sink_input i).next_module := by
    unfold Server.add_sink_input
    cases i.owner_module with
    | none => exact Nat.le_refl _
    | some m => exact Nat.le_max_left _ _
  refine ⟨fun j hj => ?_, (h.add_input hi).1, (h.add_input hi).2, fun j hj m hm => ?_,
    fun m hm => Nat.lt_of_lt_of_le (h.module_lt m hm) hnext, h.modules⟩
  · rcases List.mem_append.1 hj with hj | hj
    · exact h.on_sink j hj
    · rw [List.mem_singleton.1 hj]
      exact hs
  · rcases List.mem_append.1 hj with hj | hj
    · exact Nat.lt_of_lt_of_le (h.owner_lt j hj m hm) hnext
    · rw [List.mem_singleton.1 hj] at hm
      unfold Server.add_sink_input
      rw [hm]
      exact Nat.lt_of_lt_of_le (Nat.lt_succ_self m) (Nat.le_max_right _ _)

theorem load_loopback (h : Tidy s) {d : String} (hd : s.default_sink = some d) (hs : d ∈ s.sinks)
    (source : String) : Tidy (s.load_loopback source) := by
  have hinputs : (s.load_loopback source).sink_inputs = s.sink_inputs ++ [s.loopback_input d] := by
    rw [Server.load_loopback, hd]
    rfl
  have hadd := h.add_input (i := s.loopback_input d) (Nat.le_refl _)
  refine ⟨?_, ?_, ?_, ?_, (h.load _).1, (h.load _).2⟩
  · rw [hinputs]
    intro j hj
    rcases List.mem_append.1 hj with hj | hj
    · exact h.on_sink j hj
    · rw [List.mem_singleton.1 hj]
      exact hs
  · rw [hinputs]
    exact hadd.1
  · rw [hinputs]
    exact hadd.2
  · rw [hinputs]
    intro j hj m hm
    rcases List.mem_append.1 hj with hj | hj
    · exact Nat.lt_succ_of_lt (h.owner_lt j hj m hm)
    · rw [List.mem_singleton.1 hj] at hm
      have hm : s.next_module = m := Option.some_inj.1 hm
      exact hm ▸ Nat.lt_succ_self _

theorem end_sink_inputs (h : Tidy s) (ended : SinkInput → Bool) :
    Tidy (s.end_sink_inputs ended) where
  on_sink i hi := h.on_sink i (List.mem_filter.1 hi).1
  input_lt i hi := h.input_lt i (List.mem_filter.1 hi).1
  inputs := h.inputs.sublist (List.filter_sublist.map _)
  owner_lt i hi := h.owner_lt i (List.mem_filter.1 hi).1
  module_lt := h.module_lt
  modules := h.modules

/-- A sink and modules go, after the streams on the sink went to others. -/
theorem vacate (h : Tidy s) (d : Option String) {name : String} {rest : List Module}
    (hrest : rest.Sublist s.modules) {choose : SinkInput → Option String}
    (hc : ∀ i, ∃ target ∈ s.sinks, target ≠ name ∧ choose i = some target) :
    Tidy (Server.relocate
      { s with default_sink := d, sinks := s.sinks.filter (· ≠ name), modules := rest }
      fun i => if i.sink = name then choose i else none) where
  on_sink := by
    intro j hj
    obtain ⟨i, hi, rfl⟩ := (Server.mem_relocate _).1 hj
    refine List.mem_filter.2 ?_
    -- A stream that was on the sink is where `choose` put it, which is not the sink that goes;
    -- every other stream keeps a sink that stays.
    by_cases hn : i.sink = name
    · obtain ⟨target, hmem, hne, ht⟩ := hc i
      rw [if_pos hn, ht]
      exact ⟨hmem, decide_eq_true hne⟩
    · rw [if_neg hn]
      exact ⟨h.on_sink i hi, decide_eq_true hn⟩
  input_lt := by
    intro j hj
    obtain ⟨i, hi, rfl⟩ := (Server.mem_relocate _).1 hj
    exact h.input_lt i hi
  inputs := by
    rw [Server.relocate_index]
    exact h.inputs
  owner_lt := by
    intro j hj m hm
    obtain ⟨i, hi, rfl⟩ := (Server.mem_relocate _).1 hj
    exact h.owner_lt i hi m hm
  module_lt m hm := h.module_lt m (hrest.subset hm)
  modules := h.modules.sublist (hrest.map _)

end Tidy

/-! ## 2. Sinks, modules and the default -/

/-- The modules and the sink of an open capture. -/
structure Installed (pid : Nat) (s : Server) (n : Nat) (r : AppRouting) : Prop where
  sink : r.sink = app_sink pid n
  mem : r.sink ∈ s.sinks
  sink_module : ⟨r.sink_module, .null_sink r.sink none⟩ ∈ s.modules
  loopback_module : ⟨r.loopback_module, .loopback r.sink⟩ ∈ s.modules

/-- The sinks and the modules are accounted for, and while muted the default is the speakers
sink. -/
structure Standing (pid : Nat) (start first home : String) (w : World) : Prop where
  speakers : SPEAKERS_SINK ∈ w.server.sinks ↔ w.muted = true
  apps : ∀ n, app_sink pid n ∈ w.server.sinks → ∃ r, w.captures.get n = some r
  installed : ∀ n r, w.captures.get n = some r → n < w.next ∧ Installed pid w.server n r
  real_first : (w.server.sinks.find? fun name => !starts_with name "soundpush_") = some first
  home_mem : home ∈ w.server.sinks
  home_real : starts_with home "soundpush_" = false
  home_eq : home = if plain_name start then start else first
  unmuted : w.muted = false → w.server.speakers_modules = [] ∧
    ∃ d ∈ w.server.sinks, w.server.default_sink = some d ∧ starts_with d "soundpush_" = false ∧
      (d = start ∨ d = home)
  muted : w.muted = true → w.server.default_sink = some SPEAKERS_SINK ∧
    ∃ m, w.server.speakers_modules = [m] ∧
      (restore_sink m.argument = some home ∨ restore_sink m.argument = none ∧ home = first)

namespace Standing

variable {pid : Nat} {start first home : String} {w : World}

theorem home_ne_speakers (h : Standing pid start first home w) : home ≠ SPEAKERS_SINK := by
  intro he
  have hs := h.home_real
  rw [he, starts_with_speakers] at hs
  exact absurd hs.symm Bool.false_ne_true

/-- Where unmuting returns to from a default of the run. -/
theorem home_of (h : Standing pid start first home w) {d : String} (hd : d = start ∨ d = home) :
    (plain_name d = true → d = home) ∧ (plain_name d = false → home = first) := by
  have heq := h.home_eq
  by_cases hp : plain_name start = true
  · rw [if_pos hp] at heq
    have hd : d = start := by
      rcases hd with hd | hd
      · exact hd
      · exact hd.trans heq
    refine ⟨fun _ => hd.trans heq.symm, fun hn => ?_⟩
    rw [hd, hp] at hn
    exact absurd hn.symm Bool.false_ne_true
  · rw [if_neg hp] at heq
    refine ⟨fun hplain => ?_, fun _ => heq⟩
    rcases hd with hd | hd
    · exact absurd (hd ▸ hplain) hp
    · exact hd

/-- The default exists, and it is not a capture's sink. -/
theorem default (h : Standing pid start first home w) :
    ∃ d ∈ w.server.sinks, w.server.default_sink = some d ∧ ∀ n, d ≠ app_sink pid n := by
  cases hm : w.muted with
  | true =>
      exact ⟨SPEAKERS_SINK, h.speakers.2 hm, (h.muted hm).1,
        fun n => (app_sink_ne_speakers pid n).symm⟩
  | false =>
      obtain ⟨-, d, hmem, hd, hreal, -⟩ := h.unmuted hm
      refine ⟨d, hmem, hd, fun n hn => ?_⟩
      exact not_temporary hreal (hn ▸ temporary_app_sink pid n)

/-- Unmuting returns to `home`. -/
theorem unmute_target_eq (h : Standing pid start first home w) (hm : w.muted = true) :
    unmute_target w.server = some home := by
  obtain ⟨-, m, hmod, hrestore⟩ := h.muted hm
  rw [unmute_target, hmod, List.findSome?_singleton, h.real_first]
  rcases hrestore with hr | ⟨hr, hhome⟩
  · rw [hr, Option.filter_some_pos (List.contains_iff_mem.2 h.home_mem), Option.some_or]
  · rw [hr, hhome]
    rfl

end Standing

/-! ## 3. What a step does -/

/-- What a step does to the world. -/
inductive Change (pid : Nat) (home : String) (w : World) : Event → World → Prop
  /-- an operation with nothing to do -/
  | idle (e : Event) : Change pid home w e w
  | muted (d : String) : w.muted = false → w.server.default_sink = some d →
      Change pid home w .mute { w with
        server := ((w.server.load_null_sink SPEAKERS_SINK
          (if plain_name d then some d else none)).set_default_sink SPEAKERS_SINK).relocate fun i =>
            if i.sink = d ∧ i.process_id ≠ some pid then some SPEAKERS_SINK else none
        muted := true }
  | unmuted (m : Module) : w.muted = true → w.server.speakers_modules = [m] →
      Change pid home w .unmute { w with
        server := Server.relocate
          { w.server with
            default_sink := some home
            sinks := w.server.sinks.filter (· ≠ SPEAKERS_SINK)
            modules := w.server.modules.filter fun k => k.index ≠ m.index }
          fun i => if i.sink = SPEAKERS_SINK then some home else none
        muted := false }
  | opened (process : String) (exclude : Bool) (d : String) : w.server.default_sink = some d →
      Change pid home w (.open process exclude) { w with
        server := (AppRouting.open pid w.next process exclude w.server).2
        captures := w.captures.insert w.next (AppRouting.open pid w.next process exclude w.server).1
        next := w.next + 1 }
  | routed (n : Nat) (r : AppRouting) (moved : Table Nat String) : w.captures.get n = some r →
      (∀ i ∈ w.server.sink_inputs, moved.get i.index =
        if r.takes pid w.server.sinks i then some i.sink else r.moved.get i.index) →
      Change pid home w (.route n) { w with
        server := w.server.relocate fun i =>
          if r.takes pid w.server.sinks i then some r.sink else none
        captures := w.captures.insert n { r with moved } }
  | closed (n : Nat) (r : AppRouting) (d : String) : w.captures.get n = some r →
      w.server.default_sink = some d → r.fallback w.server = some d →
      Change pid home w (.close n) { w with
        server := (Server.relocate
          { w.server with
            sinks := w.server.sinks.filter (· ≠ r.sink)
            modules := (w.server.modules.filter fun k => k.index ≠ r.loopback_module).filter
              fun k => k.index ≠ r.sink_module }
          fun i => if i.sink = r.sink then r.target w.server i else none).end_sink_inputs fun i =>
            i.owner_module = some r.loopback_module
        captures := w.captures.erase n }
  | appeared (i : SinkInput) : World.enabled w (.appear i) →
      Change pid home w (.appear i) { w with server := w.server.add_sink_input i }
  | ended (index : Nat) :
      Change pid home w (.ended index)
        { w with server := w.server.end_sink_inputs fun i => i.index = index }

/-- The loopback of a capture plays on the default. -/
def Loopbacks (w : World) : Prop :=
  ∀ n r, w.captures.get n = some r → ∀ i ∈ w.server.sink_inputs,
    i.owner_module = some r.loopback_module →
      w.server.default_sink = some i.sink ∧ i.client = none ∧ i.process_id = none

/-- Every step is one of these changes. -/
theorem step_change {pid : Nat} {start first home : String} {w : World} (ht : Tidy w.server)
    (hs : Standing pid start first home w) (hl : Loopbacks w) {e : Event} (he : World.enabled w e) :
    Change pid home w e (w.step pid e) := by
  cases e with
  | mute =>
      rw [World.step]
      cases hm : w.muted with
      | false =>
          obtain ⟨-, d, hmem, hd, -⟩ := hs.unmuted hm
          have hno : SPEAKERS_SINK ∉ w.server.sinks := fun h => by
            rw [hs.speakers.1 h] at hm
            exact Bool.false_ne_true hm.symm
          rw [mute_speakers_eq ht.inputs hno hd hmem]
          exact .muted d hm hd
      | true =>
          -- Muting twice: the module is there and is the default, so `mute_speakers` has nothing
          -- to do.
          rw [mute_speakers_again (hs.speakers.2 hm) (hs.muted hm).1]
          have hsame : { w with server := w.server, muted := true } = w := by
            rw [← hm]
          exact hsame ▸ .idle _
  | unmute =>
      rw [World.step]
      cases hm : w.muted with
      | false =>
          -- No speakers module is loaded, so `unmute_speakers` finds nothing to take back.
          rw [unmute_speakers_nil (hs.unmuted hm).1]
          have hsame : { w with server := w.server, muted := false } = w := by
            rw [← hm]
          exact hsame ▸ .idle _
      | true =>
          obtain ⟨hd, m, hmod, -⟩ := hs.muted hm
          rw [unmute_speakers_eq ht.inputs ht.modules hmod (hs.speakers.2 hm) hd
            (hs.unmute_target_eq hm) hs.home_ne_speakers]
          exact .unmuted m hm hmod
  | «open» process exclude =>
      obtain ⟨d, -, hd, -⟩ := hs.default
      exact .opened process exclude d hd
  | route n =>
      rw [World.step]
      cases hr : w.captures.get n with
      | none => exact .idle _
      | some r =>
          obtain ⟨moved, hroute, hmoved⟩ := @route_eq pid _ _ ht.inputs (hs.installed n r hr).2.mem
          dsimp only
          rw [hroute]
          exact .routed n r moved hr hmoved
  | close n =>
      rw [World.step]
      cases hr : w.captures.get n with
      | none => exact .idle _
      | some r =>
          have hi := (hs.installed n r hr).2
          obtain ⟨d, hmem, hd, hne⟩ := hs.default
          have hne : d ≠ r.sink := hi.sink ▸ hne n
          -- The fallback of the capture is the default of the moment: nothing its own loopback
          -- plays into is any other sink.
          have hf := fallback_eq hd hmem hne fun i hi' ho =>
            (Option.some_inj.1 (hd.symm.trans (hl n r hr i hi' ho).1)).symm
          dsimp only
          rw [close_eq ht.inputs ht.modules hi.mem hd hmem hne hf hi.loopback_module
            hi.sink_module]
          exact .closed n r d hr hd hf
  | appear i => exact .appeared i he
  | ended index => exact .ended index

/-! ## 4. What every change keeps -/

namespace Change

variable {pid : Nat} {start first home : String} {w w' : World} {e : Event}

/-- The sinks afterwards: those that stay are those that are not temporary, at least. -/
theorem sinks (hs : Standing pid start first home w) (hc : Change pid home w e w') {name : String}
    (hn : ¬ Temporary pid name) : name ∈ w'.server.sinks ↔ name ∈ w.server.sinks := by
  have hkeep : ∀ gone, Temporary pid gone →
      (name ∈ w.server.sinks.filter (· ≠ gone) ↔ name ∈ w.server.sinks) := by
    intro gone hgone
    rw [List.mem_filter, decide_eq_true_eq]
    exact and_iff_left fun h => hn (h ▸ hgone)
  have hadd : ∀ new, Temporary pid new →
      (name ∈ w.server.sinks ++ [new] ↔ name ∈ w.server.sinks) := by
    intro new hnew
    rw [List.mem_append, List.mem_singleton]
    exact or_iff_left fun h => hn (h ▸ hnew)
  cases hc with
  | idle => exact Iff.rfl
  | muted d => exact hadd _ (temporary_speakers pid)
  | unmuted m => exact hkeep _ (temporary_speakers pid)
  | opened process exclude d => exact hadd _ (temporary_app_sink pid w.next)
  | routed n r moved hr => exact Iff.rfl
  | closed n r d hr =>
      exact hkeep _ ((hs.installed n r hr).2.sink ▸ temporary_app_sink pid n)
  | appeared i => exact Iff.rfl
  | ended index => exact Iff.rfl

theorem tidy (ht : Tidy w.server) (hs : Standing pid start first home w)
    (hc : Change pid home w e w') : Tidy w'.server := by
  cases hc with
  | idle => exact ht
  | muted d _ _ =>
      refine ((ht.load_null_sink _ _).set_default_sink _).relocate fun i _ name h => ?_
      -- Streams go to the new speakers sink, which `load_null_sink` has just added.
      by_cases hi : i.sink = d ∧ i.process_id ≠ some pid
      · rw [if_pos hi, Option.some_inj] at h
        exact h ▸ List.mem_append_right _ (List.mem_singleton_self _)
      · rw [if_neg hi] at h
        cases h
  | unmuted m _ _ =>
      exact ht.vacate (some home) List.filter_sublist fun _ =>
        ⟨home, hs.home_mem, hs.home_ne_speakers, rfl⟩
  | opened process exclude d hd =>
      obtain ⟨d', hmem, hd', -⟩ := hs.default
      obtain rfl := Option.some_inj.1 (hd.symm.trans hd')
      exact (ht.load_null_sink _ _).load_loopback hd (List.mem_append_left _ hmem) _
  | routed n r moved hr _ =>
      refine ht.relocate fun i _ name h => ?_
      -- A stream the capture takes goes to its own sink, which stands as long as the capture
      -- does.
      by_cases hi : r.takes pid w.server.sinks i = true
      · rw [if_pos hi, Option.some_inj] at h
        exact h ▸ (hs.installed n r hr).2.mem
      · rw [if_neg hi] at h
        cases h
  | closed n r d hr hd hf =>
      have hi := (hs.installed n r hr).2
      obtain ⟨d', hmem, hd', hne⟩ := hs.default
      obtain rfl := Option.some_inj.1 (hd.symm.trans hd')
      have hne : d ≠ r.sink := hi.sink ▸ hne n
      exact (ht.vacate w.server.default_sink (List.filter_sublist.trans List.filter_sublist)
        fun i => target_mem hf hmem hne i).end_sink_inputs _
  | appeared i he => exact ht.add_sink_input he.1 he.2.1
  | ended index => exact ht.end_sink_inputs _

end Change

/-- Sinks of SoundPush's that come do not change which real sink is the first. -/
theorem find_real_append {sinks : List String} {first name : String}
    (h : (sinks.find? fun name => !starts_with name "soundpush_") = some first) :
    ((sinks ++ [name]).find? fun name => !starts_with name "soundpush_") = some first := by
  rw [List.find?_append, h, Option.some_or]

/-- Nor do those that go. -/
theorem find_real_filter {sinks : List String} {first gone : String}
    (hgone : starts_with gone "soundpush_" = true)
    (h : (sinks.find? fun name => !starts_with name "soundpush_") = some first) :
    ((sinks.filter (· ≠ gone)).find? fun name => !starts_with name "soundpush_") = some first := by
  rw [List.find?_filter, ← h]
  refine congrArg (List.find? · sinks) (funext fun name => ?_)
  by_cases hname : name = gone
  · rw [hname, hgone, decide_eq_false (not_not_intro rfl)]
    rfl
  · rw [decide_eq_true hname]
    simp

/-- A module that comes and is not the speakers'. -/
theorem speakers_modules_append {s : Server} {m : Module}
    (h : m.null_sink_name ≠ some SPEAKERS_SINK) :
    ({ s with modules := s.modules ++ [m] } : Server).speakers_modules = s.speakers_modules := by
  rw [Server.speakers_modules, List.filter_append, List.filter_cons_of_neg (by simpa using h),
    List.filter_nil, List.append_nil, Server.speakers_modules]

namespace Standing

variable {pid : Nat} {start first home : String} {w w' : World} {e : Event}

/-- A step that leaves the sinks, the modules and the default alone. -/
theorem same (h : Standing pid start first home w)
    (hd : w'.server.default_sink = w.server.default_sink)
    (hsinks : w'.server.sinks = w.server.sinks) (hmods : w'.server.modules = w.server.modules)
    (hnext : w'.next = w.next) (hmuted : w'.muted = w.muted)
    (hkept : ∀ n r, w.captures.get n = some r → ∃ r', w'.captures.get n = some r')
    (hold : ∀ n r', w'.captures.get n = some r' → ∃ r, w.captures.get n = some r ∧
      r'.sink = r.sink ∧ r'.sink_module = r.sink_module ∧
        r'.loopback_module = r.loopback_module) : Standing pid start first home w' := by
  have hspeakers : w'.server.speakers_modules = w.server.speakers_modules := by
    rw [Server.speakers_modules, hmods, Server.speakers_modules]
  -- Field by field: each reads only what the hypotheses say is unchanged.
  refine ⟨?_, ?_, ?_, ?_, ?_, h.home_real, h.home_eq, ?_, ?_⟩
  · rw [hsinks, hmuted]
    exact h.speakers
  · intro n hn
    rw [hsinks] at hn
    obtain ⟨r, hr⟩ := h.apps n hn
    exact hkept n r hr
  · intro n r' hr'
    obtain ⟨r, hr, h₁, h₂, h₃⟩ := hold n r' hr'
    obtain ⟨hlt, hi⟩ := h.installed n r hr
    rw [hnext]
    refine ⟨hlt, h₁.trans hi.sink, ?_, ?_, ?_⟩
    · rw [h₁, hsinks]
      exact hi.mem
    · rw [h₁, h₂, hmods]
      exact hi.sink_module
    · rw [h₁, h₃, hmods]
      exact hi.loopback_module
  · rw [hsinks]
    exact h.real_first
  · rw [hsinks]
    exact h.home_mem
  · rw [hmuted, hspeakers, hsinks, hd]
    exact h.unmuted
  · rw [hmuted, hspeakers, hd]
    exact h.muted

theorem of_muted (h : Standing pid start first home w) {d : String} (hm : w.muted = false)
    (hd : w.server.default_sink = some d) {choose : SinkInput → Option String} :
    Standing pid start first home { w with
      server := ((w.server.load_null_sink SPEAKERS_SINK
        (if plain_name d then some d else none)).set_default_sink SPEAKERS_SINK).relocate choose
      muted := true } := by
  obtain ⟨hnone, d', -, hd', -, hstart⟩ := h.unmuted hm
  obtain rfl := Option.some_inj.1 (hd.symm.trans hd')
  obtain ⟨hplain, hother⟩ := h.home_of hstart
  refine ⟨?_, ?_, ?_, find_real_append h.real_first, List.mem_append_left _ h.home_mem,
    h.home_real, h.home_eq, ?_, fun _ => ⟨rfl, ⟨w.server.next_module,
      .null_sink SPEAKERS_SINK (if plain_name d then some d else none)⟩, ?_, ?_⟩⟩
  · exact iff_of_true (List.mem_append_right _ (List.mem_singleton_self _)) rfl
  · intro n hn
    rcases List.mem_append.1 hn with hn | hn
    · exact h.apps n hn
    · exact absurd (List.mem_singleton.1 hn) (app_sink_ne_speakers pid n)
  · intro n r hr
    obtain ⟨hlt, hi⟩ := h.installed n r hr
    exact ⟨hlt, hi.sink, List.mem_append_left _ hi.mem, List.mem_append_left _ hi.sink_module,
      List.mem_append_left _ hi.loopback_module⟩
  · exact fun hfalse => absurd hfalse.symm Bool.false_ne_true
  · -- the new module is the only one of the speakers sink
    have hold : (w.server.modules.filter fun m => m.null_sink_name = some SPEAKERS_SINK) = [] :=
      hnone
    refine (List.filter_append _ _).trans ?_
    rw [hold, List.nil_append]
    exact List.filter_cons_of_pos (decide_eq_true rfl)
  -- The module carries the default to go back to when its name is plain enough for an argument;
  -- otherwise unmuting falls back to the first real sink.
  · by_cases hp : plain_name d = true
    · left
      rw [if_pos hp, restore_sink, Option.filter_some_pos hp, hplain hp]
    · right
      rw [if_neg hp]
      exact ⟨rfl, hother (Bool.eq_false_of_not_eq_true hp)⟩

theorem of_unmuted (ht : Tidy w.server) (h : Standing pid start first home w) {m : Module}
    (hmod : w.server.speakers_modules = [m]) {choose : SinkInput → Option String} :
    Standing pid start first home { w with
      server := Server.relocate
        { w.server with
          default_sink := some home
          sinks := w.server.sinks.filter (· ≠ SPEAKERS_SINK)
          modules := w.server.modules.filter fun k => k.index ≠ m.index } choose
      muted := false } := by
  obtain ⟨restore, hm⟩ := speakers_module_argument (hmod ▸ List.mem_singleton_self m)
  have hhome : home ∈ w.server.sinks.filter (· ≠ SPEAKERS_SINK) :=
    List.mem_filter.2 ⟨h.home_mem, decide_eq_true h.home_ne_speakers⟩
  refine ⟨?_, ?_, ?_, find_real_filter starts_with_speakers h.real_first, hhome,
    h.home_real, h.home_eq, fun _ => ⟨?_, home, hhome, rfl, h.home_real, .inr rfl⟩, ?_⟩
  · refine iff_of_false (fun hs => ?_) Bool.false_ne_true
    exact of_decide_eq_true (List.mem_filter.1 hs).2 rfl
  · exact fun n hn => h.apps n (List.mem_filter.1 hn).1
  · intro n r hr
    obtain ⟨hlt, hi⟩ := h.installed n r hr
    -- The sink of a capture and the speakers sink have different names, and their modules
    -- different arguments, so unloading the one leaves the other in place.
    have hne : r.sink ≠ SPEAKERS_SINK := hi.sink ▸ app_sink_ne_speakers pid n
    refine ⟨hlt, hi.sink, List.mem_filter.2 ⟨hi.mem, decide_eq_true hne⟩,
      List.mem_filter.2 ⟨hi.sink_module, decide_eq_true ?_⟩,
      List.mem_filter.2 ⟨hi.loopback_module, decide_eq_true ?_⟩⟩
    · refine ht.index_ne hi.sink_module hm fun he => ?_
      exact hne (Argument.null_sink.inj he).1
    · exact ht.index_ne hi.loopback_module hm fun he => (by cases he)
  · refine (List.filter_comm _ _ _).trans ?_
    have hold : (w.server.modules.filter fun m => m.null_sink_name = some SPEAKERS_SINK) = [m] :=
      hmod
    rw [hold]
    exact List.filter_cons_of_neg (by simp)
  · exact fun hfalse => absurd hfalse Bool.false_ne_true

theorem of_opened (h : Standing pid start first home w) (process : String) (exclude : Bool) :
    Standing pid start first home { w with
      server := (AppRouting.open pid w.next process exclude w.server).2
      captures := w.captures.insert w.next (AppRouting.open pid w.next process exclude w.server).1
      next := w.next + 1 } := by
  have hspeakers : (AppRouting.open pid w.next process exclude w.server).2.speakers_modules =
      w.server.speakers_modules := by
    -- the capture's sink is not the speakers', and a loopback has none
    have hsink : (⟨w.server.next_module, .null_sink (app_sink pid w.next) none⟩ :
        Module).null_sink_name ≠ some SPEAKERS_SINK := fun he =>
      app_sink_ne_speakers pid w.next (Option.some_inj.1 he)
    have hloop : (⟨w.server.next_module + 1, .loopback (app_sink pid w.next)⟩ :
        Module).null_sink_name ≠ some SPEAKERS_SINK := fun he => (by cases he)
    have hfirst := speakers_modules_append (s := w.server) hsink
    have hsecond := speakers_modules_append
      (s := w.server.load_null_sink (app_sink pid w.next) none) hloop
    exact hsecond.trans hfirst
  refine ⟨?_, ?_, ?_, find_real_append h.real_first, List.mem_append_left _ h.home_mem,
    h.home_real, h.home_eq, ?_, ?_⟩
  · rw [← h.speakers]
    refine ⟨fun hs => ?_, List.mem_append_left _⟩
    rcases List.mem_append.1 hs with hs | hs
    · exact hs
    · exact absurd (List.mem_singleton.1 hs).symm (app_sink_ne_speakers pid w.next)
  · intro n hn
    dsimp only
    rw [Table.get_insert]
    by_cases hnext : n = w.next
    · exact ⟨_, if_pos hnext⟩
    · rw [if_neg hnext]
      rcases List.mem_append.1 hn with hn | hn
      · exact h.apps n hn
      · exact absurd (app_sink_inj.1 (List.mem_singleton.1 hn)) hnext
  · intro n r hr
    rcases Table.get_of_get_insert hr with ⟨hnext, hr⟩ | ⟨-, hr⟩
    · rw [hr, hnext]
      exact ⟨Nat.lt_succ_self _, rfl, List.mem_append_right _ (List.mem_singleton_self _),
        List.mem_append_left _ (List.mem_append_right _ (List.mem_singleton_self _)),
        List.mem_append_right _ (List.mem_singleton_self _)⟩
    · obtain ⟨hlt, hi⟩ := h.installed n r hr
      exact ⟨Nat.lt_succ_of_lt hlt, hi.sink, List.mem_append_left _ hi.mem,
        List.mem_append_left _ (List.mem_append_left _ hi.sink_module),
        List.mem_append_left _ (List.mem_append_left _ hi.loopback_module)⟩
  · intro hm
    obtain ⟨hnone, d, hmem, hd⟩ := h.unmuted hm
    rw [hspeakers]
    exact ⟨hnone, d, List.mem_append_left _ hmem, hd⟩
  · intro hm
    rw [hspeakers]
    exact h.muted hm

theorem of_closed (ht : Tidy w.server) (h : Standing pid start first home w) {n : Nat}
    {r : AppRouting} (hr : w.captures.get n = some r) {choose : SinkInput → Option String}
    {ended : SinkInput → Bool} :
    Standing pid start first home { w with
      server := (Server.relocate
        { w.server with
          sinks := w.server.sinks.filter (· ≠ r.sink)
          modules := (w.server.modules.filter fun k => k.index ≠ r.loopback_module).filter
            fun k => k.index ≠ r.sink_module } choose).end_sink_inputs ended
      captures := w.captures.erase n } := by
  obtain ⟨-, hi⟩ := h.installed n r hr
  have hown : starts_with r.sink "soundpush_" = true := hi.sink ▸ starts_with_app_sink pid n
  have hkeep : ∀ name ∈ w.server.sinks, name ≠ r.sink → name ∈ w.server.sinks.filter (· ≠ r.sink) :=
    fun name hmem hne => List.mem_filter.2 ⟨hmem, decide_eq_true hne⟩
  have hhome : home ≠ r.sink := fun he => by
    rw [← he, h.home_real] at hown
    exact Bool.false_ne_true hown
  -- a module that is neither of the capture's stays
  have hmods : ∀ {index : Nat} {a : Argument}, ⟨index, a⟩ ∈ w.server.modules →
      a ≠ .null_sink r.sink none → a ≠ .loopback r.sink →
      ⟨index, a⟩ ∈ (w.server.modules.filter fun k => k.index ≠ r.loopback_module).filter
        fun k => k.index ≠ r.sink_module := by
    intro index a hmem h₁ h₂
    refine List.mem_filter.2 ⟨List.mem_filter.2 ⟨hmem, decide_eq_true ?_⟩, decide_eq_true ?_⟩
    · exact ht.index_ne hmem hi.loopback_module h₂
    · exact ht.index_ne hmem hi.sink_module h₁
  have hspeakers : ((w.server.modules.filter fun k => k.index ≠ r.loopback_module).filter
      fun k => k.index ≠ r.sink_module).filter (fun m => m.null_sink_name = some SPEAKERS_SINK) =
        w.server.speakers_modules := by
    rw [List.filter_filter, List.filter_filter]
    refine List.filter_congr fun m hm => ?_
    obtain ⟨index, a⟩ := m
    cases a with
    | loopback source => simp [Module.null_sink_name]
    | null_sink name restore =>
        by_cases hname : name = SPEAKERS_SINK
        · have hne : Argument.null_sink name restore ≠ .null_sink r.sink none := fun he =>
            app_sink_ne_speakers pid n (hi.sink ▸ (Argument.null_sink.inj he).1.symm.trans hname)
          have h₁ := ht.index_ne hm hi.sink_module hne
          have h₂ := ht.index_ne hm hi.loopback_module fun he => (by cases he)
          simp [h₁, h₂]
        · simp [Module.null_sink_name, hname]
  refine ⟨?_, ?_, ?_, find_real_filter hown h.real_first, hkeep _ h.home_mem hhome,
    h.home_real, h.home_eq, ?_, ?_⟩
  · rw [← h.speakers]
    refine ⟨fun hs => (List.mem_filter.1 hs).1, fun hs => hkeep _ hs fun he => ?_⟩
    exact app_sink_ne_speakers pid n (hi.sink.symm.trans he.symm)
  · intro m hm
    obtain ⟨hmem, hne⟩ := List.mem_filter.1 hm
    have hne : m ≠ n := fun he => of_decide_eq_true hne (by rw [he, hi.sink])
    dsimp only
    rw [Table.get_erase, if_neg hne]
    exact h.apps m hmem
  · intro m r' hr'
    obtain ⟨hne, hr'⟩ := Table.get_of_get_erase hr'
    obtain ⟨hlt, hi'⟩ := h.installed m r' hr'
    have hsink : r'.sink ≠ r.sink := fun he =>
      hne (app_sink_inj.1 (hi'.sink.symm.trans (he.trans hi.sink)))
    refine ⟨hlt, hi'.sink, hkeep _ hi'.mem hsink, hmods hi'.sink_module ?_ ?_,
      hmods hi'.loopback_module ?_ ?_⟩
    · exact fun he => hsink (Argument.null_sink.inj he).1
    · exact fun he => (by cases he)
    · exact fun he => (by cases he)
    · exact fun he => hsink (Argument.loopback.inj he)
  · intro hm
    obtain ⟨hnone, d, hmem, hd, hreal, hd'⟩ := h.unmuted hm
    refine ⟨hspeakers.trans hnone, d, hkeep d hmem fun he => ?_, hd, hreal, hd'⟩
    rw [← he, hreal] at hown
    exact Bool.false_ne_true hown
  · intro hm
    obtain ⟨hd, m, hmod, hrestore⟩ := h.muted hm
    exact ⟨hd, m, hspeakers.trans hmod, hrestore⟩

/-- Every change keeps the books. -/
theorem change (ht : Tidy w.server) (h : Standing pid start first home w)
    (hc : Change pid home w e w') : Standing pid start first home w' := by
  cases hc with
  | idle => exact h
  | muted d hm hd => exact h.of_muted hm hd
  | unmuted m _ hmod => exact h.of_unmuted ht hmod
  | opened process exclude => exact h.of_opened process exclude
  | routed n r moved hr =>
      refine h.same rfl rfl rfl rfl rfl (fun m r' hr' => ?_) (fun m r' hr' => ?_)
      · dsimp only
        rw [Table.get_insert]
        by_cases hm : m = n
        · exact ⟨_, if_pos hm⟩
        · exact ⟨r', (if_neg hm).trans hr'⟩
      · rcases Table.get_of_get_insert hr' with ⟨hm, hr'⟩ | ⟨-, hr'⟩
        · exact ⟨r, hm ▸ hr, hr' ▸ ⟨rfl, rfl, rfl⟩⟩
        · exact ⟨r', hr', rfl, rfl, rfl⟩
  | closed n r d hr => exact h.of_closed ht hr
  | appeared i =>
      exact h.same rfl rfl rfl rfl rfl (fun _ r hr => ⟨r, hr⟩) fun _ r hr => ⟨r, hr, rfl, rfl, rfl⟩
  | ended index =>
      exact h.same rfl rfl rfl rfl rfl (fun _ r hr => ⟨r, hr⟩) fun _ r hr => ⟨r, hr, rfl, rfl, rfl⟩

end Standing

end Pulse

end SoundPush
