/-
`PulseCalls` -- what each operation of `Pulse` does to the server, said once: the
streams that it moves and where to, the sinks and modules that come and go. Later
proofs use these lemmas and do not look at the operations again.
-/
import SoundPush.Lib.Keyed
import SoundPush.Desktop.Pulse

set_option autoImplicit false

namespace SoundPush

namespace Pulse

/-! ## 1. Names -/

theorem starts_with_iff {s pre : String} :
    starts_with s pre = true ↔ pre.toList <+: s.toList := List.isPrefixOf_iff_prefix

theorem starts_with_speakers : starts_with SPEAKERS_SINK "soundpush_" = true := by decide

/-- A capture's sink carries the prefix of captures. -/
theorem prefix_app_sink (pid n : Nat) : APP_SINK_PREFIX.toList <+: (app_sink pid n).toList := by
  rw [app_sink, String.toList_append, String.toList_append, String.toList_append,
    List.append_assoc, List.append_assoc]
  exact List.prefix_append _ _

theorem starts_with_app_sink (pid n : Nat) : starts_with (app_sink pid n) "soundpush_" = true := by
  have h : "soundpush_".toList <+: APP_SINK_PREFIX.toList := by decide
  exact starts_with_iff.2 (h.trans (prefix_app_sink pid n))

theorem app_sink_ne_speakers (pid n : Nat) : app_sink pid n ≠ SPEAKERS_SINK := by
  intro h
  have hprefix := prefix_app_sink pid n
  rw [h] at hprefix
  exact absurd hprefix (by decide)

theorem app_sink_inj {pid n m : Nat} : app_sink pid n = app_sink pid m ↔ n = m := by
  constructor
  · intro h
    rw [app_sink, app_sink, String.append_right_inj] at h
    exact Nat.repr_injective h
  · rintro rfl
    rfl

theorem own_sink_app_sink (pid n : Nat) : own_sink (app_sink pid n) = true := by
  rw [own_sink, starts_with_app_sink, Bool.true_and, bne_iff_ne]
  exact app_sink_ne_speakers pid n

theorem temporary_speakers (pid : Nat) : Temporary pid SPEAKERS_SINK := .inl rfl

theorem temporary_app_sink (pid n : Nat) : Temporary pid (app_sink pid n) := .inr ⟨n, rfl⟩

theorem Temporary.starts_with {pid : Nat} {name : String} (h : Temporary pid name) :
    starts_with name "soundpush_" = true := by
  rcases h with rfl | ⟨n, rfl⟩
  · exact starts_with_speakers
  · exact starts_with_app_sink pid n

/-- A sink that is not SoundPush's is not a temporary one. -/
theorem not_temporary {pid : Nat} {name : String} (h : starts_with name "soundpush_" = false) :
    ¬ Temporary pid name := fun ht => Bool.false_ne_true (h.symm.trans ht.starts_with)

/-! ## 2. Moving streams -/

namespace Server

variable (s : Server)

@[simp] theorem relocate_index (choose : SinkInput → Option String) :
    (s.relocate choose).sink_inputs.map SinkInput.index = s.sink_inputs.map SinkInput.index := by
  rw [relocate, List.map_map]
  rfl

theorem mem_relocate {choose : SinkInput → Option String} {j : SinkInput} :
    j ∈ (s.relocate choose).sink_inputs ↔
      ∃ i ∈ s.sink_inputs, j = { i with sink := (choose i).getD i.sink } := by
  rw [relocate, List.mem_map]
  constructor
  · rintro ⟨i, hi, rfl⟩
    exact ⟨i, hi, rfl⟩
  · rintro ⟨i, hi, rfl⟩
    exact ⟨i, hi, rfl⟩

/-- Nothing moves when every stream that is chosen is where it is to go. -/
theorem relocate_eq_self {choose : SinkInput → Option String}
    (h : ∀ i ∈ s.sink_inputs, (choose i).getD i.sink = i.sink) : s.relocate choose = s := by
  have hmap : (s.sink_inputs.map fun i => { i with sink := (choose i).getD i.sink }) =
      s.sink_inputs := by
    refine (List.map_congr_left fun i hi => ?_).trans (List.map_id _)
    rw [h i hi]
    rfl
  rw [relocate, hmap]

/-- One move of the walk, on the list of streams. -/
theorem move_step (acc : Server) (choose : SinkInput → Option String) (i : SinkInput) :
    ((choose i).elim acc fun target => acc.move_sink_input i.index target) =
      { acc with
        sink_inputs := acc.sink_inputs.map fun j =>
          if j.index = i.index then { j with sink := (choose i).getD j.sink } else j } := by
  cases h : choose i with
  | none =>
      have hmap : (acc.sink_inputs.map fun j =>
          if j.index = i.index then { j with sink := (none : Option String).getD j.sink } else j) =
            acc.sink_inputs := by
        refine (List.map_congr_left fun j _ => ?_).trans (List.map_id _)
        rw [Option.getD_none, ite_self]
        rfl
      rw [hmap]
      rfl
  | some target =>
      have hmap : (acc.sink_inputs.map fun j =>
          { j with sink := (if j.index = i.index then some target else none).getD j.sink }) =
            acc.sink_inputs.map fun j =>
              if j.index = i.index then { j with sink := (some target).getD j.sink } else j := by
        refine List.map_congr_left fun j _ => ?_
        by_cases hj : j.index = i.index
        · rw [if_pos hj, if_pos hj]
        · rw [if_neg hj, if_neg hj, Option.getD_none]
      rw [← hmap]
      rfl

theorem foldl_move (choose : SinkInput → Option String) (l : List SinkInput) :
    l.foldl (fun acc i =>
        (choose i).elim acc fun target => acc.move_sink_input i.index target) s =
      { s with
        sink_inputs := l.foldl (fun acc i => acc.map fun j =>
          if j.index = i.index then { j with sink := (choose i).getD j.sink } else j)
            s.sink_inputs } := by
  induction l generalizing s with
  | nil => rfl
  | cons i l ih => rw [List.foldl_cons, ih, move_step, List.foldl_cons]

/-- Moving the streams one after the other, each by its own index, moves each that is chosen. -/
theorem move_each_eq (hn : (s.sink_inputs.map SinkInput.index).Nodup)
    (choose : SinkInput → Option String) : s.move_each choose = s.relocate choose := by
  have h := List.foldl_map_key_self
    (f := fun i j : SinkInput => { j with sink := (choose i).getD j.sink }) (fun _ _ => rfl) hn
  rw [move_each, foldl_move, h]
  rfl

/-! ## 3. Sinks and modules -/

/-- A sink goes quietly that is not the default and that no stream plays on. -/
theorem remove_sink_eq {name : String} (hd : s.default_sink ≠ some name)
    (hi : ∀ i ∈ s.sink_inputs, i.sink ≠ name) :
    s.remove_sink name = { s with sinks := s.sinks.filter (· ≠ name) } := by
  rw [remove_sink, if_neg hd]
  refine relocate_eq_self _ fun i hi' => ?_
  rw [if_neg (hi i hi')]
  rfl

theorem unload_null_sink (hn : (s.modules.map Module.index).Nodup) {index : Nat} {name : String}
    {restore : Option String} (hm : ⟨index, .null_sink name restore⟩ ∈ s.modules) :
    s.unload_module index =
      { s with modules := s.modules.filter fun k => k.index ≠ index }.remove_sink name := by
  rw [unload_module, List.find?_key_of_mem hn hm]
  rfl

theorem unload_loopback (hn : (s.modules.map Module.index).Nodup) {index : Nat} {source : String}
    (hm : ⟨index, .loopback source⟩ ∈ s.modules) :
    s.unload_module index =
      { s with modules := s.modules.filter fun k => k.index ≠ index }.end_sink_inputs
        fun i => i.owner_module = some index := by
  rw [unload_module, List.find?_key_of_mem hn hm]
  rfl

end Server

/-! ## 4. Muting -/

variable {pid : Nat} {s : Server}

/-- The speakers are muted from the default `d`. -/
theorem mute_speakers_eq (hn : (s.sink_inputs.map SinkInput.index).Nodup)
    (hs : SPEAKERS_SINK ∉ s.sinks) {d : String} (hd : s.default_sink = some d)
    (hmem : d ∈ s.sinks) :
    mute_speakers pid s = .ok
      (((s.load_null_sink SPEAKERS_SINK (if plain_name d then some d else none)).set_default_sink
        SPEAKERS_SINK).relocate fun i =>
          if i.sink = d ∧ i.process_id ≠ some pid then some SPEAKERS_SINK else none) := by
  have hfind : (s.default_sink.bind fun name => s.sinks.find? (· = name)) = some d := by
    rw [hd, Option.bind_some, List.find?_eq_of_mem hmem]
  rw [mute_speakers, if_neg hs, hfind]
  exact congrArg Except.ok (Server.move_each_eq ((s.load_null_sink _ _).set_default_sink _) hn _)

/-- Muting again only re-applies the default. -/
theorem mute_speakers_again (hs : SPEAKERS_SINK ∈ s.sinks)
    (hd : s.default_sink = some SPEAKERS_SINK) : mute_speakers pid s = .ok s := by
  rw [mute_speakers, if_pos hs, if_neg (not_not_intro hd)]

/-- The modules of the speakers sink are null sinks. -/
theorem speakers_module_argument {m : Module} (hm : m ∈ s.speakers_modules) :
    ∃ restore, ⟨m.index, .null_sink SPEAKERS_SINK restore⟩ ∈ s.modules := by
  rw [Server.speakers_modules, List.mem_filter, decide_eq_true_eq] at hm
  obtain ⟨index, argument⟩ := m
  cases argument with
  | null_sink name restore =>
      have hname : name = SPEAKERS_SINK := Option.some_inj.1 hm.2
      exact ⟨restore, hname ▸ hm.1⟩
  | loopback source => exact absurd hm.2 (by rintro ⟨⟩)

/-- Nothing to undo. -/
theorem unmute_speakers_nil (hm : s.speakers_modules = []) : unmute_speakers s = s := by
  rw [unmute_speakers, hm]
  rfl

/-- The muted speakers are unmuted to the sink `d`. -/
theorem unmute_speakers_eq (hn : (s.sink_inputs.map SinkInput.index).Nodup)
    (hmn : (s.modules.map Module.index).Nodup) {m : Module} (hm : s.speakers_modules = [m])
    (hs : SPEAKERS_SINK ∈ s.sinks) (hd : s.default_sink = some SPEAKERS_SINK) {d : String}
    (ht : unmute_target s = some d) (hne : d ≠ SPEAKERS_SINK) :
    unmute_speakers s =
      ({ s with
        default_sink := some d
        sinks := s.sinks.filter (· ≠ SPEAKERS_SINK)
        modules := s.modules.filter fun k => k.index ≠ m.index }.relocate fun i =>
          if i.sink = SPEAKERS_SINK then some d else none) := by
  have hmem : m ∈ s.speakers_modules := hm ▸ List.mem_singleton_self m
  obtain ⟨restore, ha⟩ := speakers_module_argument hmem
  have hrestored : unmute_speakers s =
      (((s.set_default_sink d).relocate fun i =>
        if i.sink = SPEAKERS_SINK then some d else none).unload_module m.index) := by
    rw [unmute_speakers, hm, ht, hd]
    simp only [List.isEmpty_cons, Bool.false_eq_true, if_false, if_true, List.foldl_cons,
      List.foldl_nil]
    rw [if_pos (show SPEAKERS_SINK ∈ (s.set_default_sink d).sinks from hs),
      Server.move_each_eq (s.set_default_sink d) hn]
  rw [hrestored, Server.unload_null_sink ((s.set_default_sink d).relocate _) hmn ha,
    Server.remove_sink_eq]
  · rfl
  · exact fun h => hne (Option.some_inj.1 h)
  · intro i hi h
    obtain ⟨j, -, rfl⟩ := (Server.mem_relocate (s.set_default_sink d)).1 hi
    -- a stream was left where it was, or went to `d`
    by_cases hj : j.sink = SPEAKERS_SINK
    · rw [if_pos hj, Option.getD_some] at h
      exact hne h
    · rw [if_neg hj, Option.getD_none] at h
      exact hj h

/-! ## 5. Captures -/

variable {r : AppRouting}

/-- Opening a capture starts its loopback on the default. -/
theorem open_sink_inputs {d : String} (hd : s.default_sink = some d) (n : Nat) (process : String)
    (exclude : Bool) :
    (AppRouting.open pid n process exclude s).2.sink_inputs =
      s.sink_inputs ++ [(s.load_null_sink (app_sink pid n) none).loopback_input d] := by
  rw [AppRouting.open, Server.load_loopback, Server.load_null_sink, hd]
  rfl

/-- The walk of `route`, with what it notes and what it moves apart. -/
theorem route_walk (p : SinkInput → Bool) (sink : String) (l : List SinkInput) (r : AppRouting)
    (s : Server) :
    l.foldl (fun acc i =>
      if p i then
        ({ acc.1 with moved := acc.1.moved.insert i.index i.sink },
          acc.2.move_sink_input i.index sink)
      else acc) (r, s) =
    ({ r with
      moved := l.foldl (fun acc i => if p i then acc.insert i.index i.sink else acc) r.moved },
      l.foldl (fun acc i =>
        (if p i then some sink else none).elim acc fun target =>
          acc.move_sink_input i.index target) s) := by
  induction l generalizing r s with
  | nil => rfl
  | cons i l ih =>
      rw [List.foldl_cons, List.foldl_cons, List.foldl_cons]
      by_cases hp : p i = true
      · rw [if_pos hp, if_pos hp, if_pos hp, ih]
        rfl
      · rw [if_neg hp, if_neg hp, if_neg hp, ih]
        rfl

/-- What `route` moves it notes; what it noted about the other streams that are there, it keeps. -/
theorem route_eq (hn : (s.sink_inputs.map SinkInput.index).Nodup) (hs : r.sink ∈ s.sinks) :
    ∃ moved, r.route pid s = .ok ({ r with moved },
        s.relocate fun i => if r.takes pid s.sinks i then some r.sink else none) ∧
      ∀ i ∈ s.sink_inputs,
        moved.get i.index = if r.takes pid s.sinks i then some i.sink else r.moved.get i.index := by
  refine ⟨s.sink_inputs.foldl (fun acc i =>
      if r.takes pid s.sinks i then acc.insert i.index i.sink else acc)
    (r.moved.retain fun index _ => s.sink_inputs.any fun i => i.index = index), ?_, fun i hi => ?_⟩
  · rw [AppRouting.route, if_pos hs]
    refine congrArg Except.ok ((route_walk _ r.sink _ _ _).trans ?_)
    exact congrArg _ (s.move_each_eq hn _)
  · have hkept : (r.moved.retain fun index _ => s.sink_inputs.any fun i => i.index = index).get
        i.index = r.moved.get i.index := by
      rw [Table.get_retain]
      have hany : (s.sink_inputs.any fun j => j.index = i.index) = true :=
        List.any_eq_true.2 ⟨i, hi, decide_eq_true rfl⟩
      rw [hany]
      cases r.moved.get i.index with
    | none => rfl
    | some _ => exact Option.filter_some_pos rfl
    rw [← hkept]
    exact List.get_foldl_insert_key hn _ hi

theorem usable_iff {name : String} :
    r.usable s name = true ↔ name ≠ r.sink ∧ name ∈ s.sinks := by
  rw [AppRouting.usable, Bool.and_eq_true, bne_iff_ne, List.contains_iff_mem]

/-- While the loopback plays on the default, that is where streams fall back to. -/
theorem fallback_eq {d : String} (hd : s.default_sink = some d) (hmem : d ∈ s.sinks)
    (hne : d ≠ r.sink)
    (hloop : ∀ i ∈ s.sink_inputs, i.owner_module = some r.loopback_module → i.sink = d) :
    r.fallback s = some d := by
  have husable := usable_iff.2 ⟨hne, hmem⟩
  rw [AppRouting.fallback]
  cases h : s.sink_inputs.find? fun i => i.owner_module = some r.loopback_module with
  | none =>
      rw [Option.map_none, Option.filter_none, Option.filter_none, Option.none_or, hd,
        Option.filter_some, if_pos husable]
  | some i =>
      have howner := List.find?_some h
      rw [decide_eq_true_eq] at howner
      have hi := hloop i (List.mem_of_find?_eq_some h) howner
      rw [Option.map_some, hi, Option.filter_some, List.contains_iff_mem.2 hmem, if_pos rfl,
        Option.filter_some, if_pos husable, Option.some_or]

/-- A stream on the capture sink goes to the sink noted, when that one is there and is not where the
loopback started, and else to the default. -/
theorem target_eq {d : String} (hf : r.fallback s = some d) (i : SinkInput) :
    (∃ name, r.moved.get i.index = some name ∧ r.playback ≠ some name ∧ name ≠ r.sink ∧
        name ∈ s.sinks ∧ r.target s i = some name) ∨
      ((∀ name, r.moved.get i.index = some name → r.playback ≠ some name → name ≠ r.sink →
          name ∉ s.sinks) ∧ r.target s i = some d) := by
  rw [AppRouting.target, hf]
  cases hm : r.moved.get i.index with
  | none => exact .inr ⟨fun _ h => (by cases h), rfl⟩
  | some name =>
      by_cases h : r.playback ≠ some name ∧ name ≠ r.sink ∧ name ∈ s.sinks
      · refine .inl ⟨name, rfl, h.1, h.2.1, h.2.2, ?_⟩
        have hp : (decide (r.playback ≠ some name) && r.usable s name) = true := by
          rw [Bool.and_eq_true, decide_eq_true_eq, usable_iff]
          exact h
        rw [Option.filter_some, if_pos hp, Option.some_or]
      · refine .inr ⟨fun name' hname h₁ h₂ h₃ => ?_, ?_⟩
        · rw [Option.some_inj.1 hname] at h
          exact h ⟨h₁, h₂, h₃⟩
        · have hp : ¬ (decide (r.playback ≠ some name) && r.usable s name) = true := by
            rw [Bool.and_eq_true, decide_eq_true_eq, usable_iff]
            exact h
          rw [Option.filter_some, if_neg hp, Option.none_or]

/-- Where a stream goes exists, and is not the capture's sink. -/
theorem target_mem {d : String} (hf : r.fallback s = some d) (hmem : d ∈ s.sinks)
    (hne : d ≠ r.sink) (i : SinkInput) :
    ∃ name ∈ s.sinks, name ≠ r.sink ∧ r.target s i = some name := by
  rcases target_eq hf i with ⟨name, -, -, hname, hin, ht⟩ | ⟨-, ht⟩
  · exact ⟨name, hin, hname, ht⟩
  · exact ⟨d, hmem, hne, ht⟩

/-- Closing a capture: its streams go where they go, its loopback ends, and its sink is gone. -/
theorem close_eq (hn : (s.sink_inputs.map SinkInput.index).Nodup)
    (hmn : (s.modules.map Module.index).Nodup) (hs : r.sink ∈ s.sinks) {d : String}
    (hd : s.default_sink = some d) (hmem : d ∈ s.sinks) (hne : d ≠ r.sink)
    (hf : r.fallback s = some d) {source : String} {restore : Option String}
    (hl : ⟨r.loopback_module, .loopback source⟩ ∈ s.modules)
    (hsm : ⟨r.sink_module, .null_sink r.sink restore⟩ ∈ s.modules) :
    r.close s =
      (Server.relocate
        { s with
          sinks := s.sinks.filter (· ≠ r.sink)
          modules := (s.modules.filter fun k => k.index ≠ r.loopback_module).filter fun k =>
            k.index ≠ r.sink_module }
        fun i => if i.sink = r.sink then r.target s i else none).end_sink_inputs fun i =>
          i.owner_module = some r.loopback_module := by
  have hreleased : release_streams r s =
      s.relocate fun i => if i.sink = r.sink then r.target s i else none := by
    rw [release_streams, if_pos hs, s.move_each_eq hn]
  -- The two modules of the capture are different: their arguments are, and indices are not
  -- shared.
  have hlne : r.sink_module ≠ r.loopback_module := by
    intro h
    have hsame := List.inj_on_of_nodup_map hmn hl hsm h.symm
    exact absurd (congrArg Module.argument hsame) (by rintro ⟨⟩)
  have hsm' : (⟨r.sink_module, .null_sink r.sink restore⟩ : Module) ∈
      s.modules.filter fun k => k.index ≠ r.loopback_module :=
    List.mem_filter.2 ⟨hsm, decide_eq_true hlne⟩
  rw [AppRouting.close, hreleased, Server.unload_loopback (s.relocate _) hmn hl]
  refine (Server.unload_null_sink (Server.end_sink_inputs _ _)
    (hmn.sublist (List.filter_sublist.map _)) hsm').trans ?_
  rw [Server.remove_sink_eq]
  · rfl
  · intro h
    exact hne (Option.some_inj.1 (hd.symm.trans h))
  -- Nothing is left on the sink when it is removed, since `target` never answers with the sink
  -- itself.
  · intro i hi h
    have hi := (List.mem_filter.1 hi).1
    obtain ⟨j, -, rfl⟩ := (Server.mem_relocate s).1 hi
    by_cases hj : j.sink = r.sink
    · obtain ⟨name, -, hname, ht⟩ := target_mem hf hmem hne j
      rw [if_pos hj, ht, Option.getD_some] at h
      exact hname h
    · rw [if_neg hj, Option.getD_none] at h
      exact hj h

end Pulse

end SoundPush
