/-
`Adaptation` -- what a peer's reports do to the encoder of a route (`on_stats` of
`sp-engine/src/actor.rs`).

A report moves the bitrate (`adapt_bitrate`) and switches automatic redundancy
(`adapt_redundancy`). The streak of loss-free reports is followed over a run of
reports: `Listening` says that the counter is the length of a streak that ends with
the last report. Two reports break what adaptation is for: loss on a congested route
that is already below the floor, and a small loss that does not reset the counter;
`Heeded` leaves out these two, and every other report keeps it.
-/
import SoundPush.Lib.Machine
import SoundPush.Engine.Handlers
import SoundPush.Engine.Trusted
import Mathlib.Tactic.Linarith

set_option autoImplicit false

namespace SoundPush

open Actor (adapt_bitrate adapt_redundancy)

/-! ## 1. One report -/

namespace Route

/-- What a report does to its route. -/
def adapted (auto : Bool) (stats : StatsReport) (r : Route) : Route :=
  let r := adapt_bitrate { r with loss_pct := stats.loss_pct }
  if auto then adapt_redundancy r else r

/-- What both adaptations leave alone. -/
structure Adapts (r r' : Route) : Prop where
  peer : r'.peer = r.peer
  id : r'.id = r.id
  profile : r'.profile = r.profile
  loss_pct : r'.loss_pct = r.loss_pct

theorem adapt_bitrate_adapts (r : Route) : r.Adapts (adapt_bitrate r) := by
  unfold adapt_bitrate
  repeat' split
  all_goals exact ⟨rfl, rfl, rfl, rfl⟩

theorem adapt_redundancy_adapts (r : Route) : r.Adapts (adapt_redundancy r) := by
  unfold adapt_redundancy
  repeat' split
  all_goals exact ⟨rfl, rfl, rfl, rfl⟩

theorem adapted_adapts (auto : Bool) (stats : StatsReport) (r : Route) :
    Adapts { r with loss_pct := stats.loss_pct } (r.adapted auto stats) := by
  have hb := adapt_bitrate_adapts { r with loss_pct := stats.loss_pct }
  unfold adapted
  by_cases hauto : auto = true
  · have hr := adapt_redundancy_adapts (adapt_bitrate { r with loss_pct := stats.loss_pct })
    rw [if_pos hauto]
    exact ⟨hr.peer.trans hb.peer, hr.id.trans hb.id, hr.profile.trans hb.profile,
      hr.loss_pct.trans hb.loss_pct⟩
  · rw [if_neg hauto]
    exact hb

theorem has_key_adapted (key : RouteKey) (auto : Bool) (stats : StatsReport) (r : Route) :
    has_key key (r.adapted auto stats) = has_key key r := by
  have h := adapted_adapts auto stats r
  have hkey : (r.adapted auto stats).key = r.key := by
    rw [Route.key, Route.key, h.peer, h.id]
  rw [has_key, has_key, hkey]

end Route

/-- The bitrate adapts to what is reported. -/
def adapts_to_loss (p : StreamProfile) : Bool := p.adaptive_bitrate && p.codec == Codec.Opus.id

section Steps

variable {r : Route} {c : SenderControls} {p : StreamProfile}

/-- The bitrate stays, or is lowered to the floor at most, or is raised to the ceiling at most. -/
theorem adapt_bitrate_controls (hc : r.sender_controls = some c) (hp : r.profile = some p) :
    ∃ c', (adapt_bitrate r).sender_controls = some c' ∧ c'.redundancy = c.redundancy ∧
      (adapt_bitrate r).clean_secs = r.clean_secs ∧
      (c'.bitrate = c.bitrate ∨
        (adapts_to_loss p = true ∧ 2 < r.loss_pct ∧ c'.bitrate = max (c.bitrate * 3 / 4) 32000) ∨
        (r.loss_pct < 1 / 2 ∧ c'.bitrate = min (c.bitrate * 5 / 4) (max p.bitrate 128000))) := by
  unfold adapt_bitrate
  rw [hc, hp]
  dsimp only
  by_cases hadapts : adapts_to_loss p = true
  · have hnot : ¬ (!(p.adaptive_bitrate && p.codec == Codec.Opus.id)) = true := by
      rw [show (p.adaptive_bitrate && p.codec == Codec.Opus.id) = true from hadapts]
      decide
    rw [if_neg hnot]
    by_cases h2 : 2 < r.loss_pct
    · rw [if_pos h2]
      exact ⟨_, rfl, rfl, rfl, .inr (.inl ⟨hadapts, h2, rfl⟩)⟩
    · rw [if_neg h2]
      by_cases hhalf : r.loss_pct < 1 / 2
      · rw [if_pos hhalf]
        by_cases h10 : 10 ≤ r.stable_secs + 1
        · rw [if_pos h10]
          exact ⟨_, rfl, rfl, rfl, .inr (.inr ⟨hhalf, rfl⟩)⟩
        · rw [if_neg h10]
          exact ⟨c, rfl, rfl, rfl, .inl rfl⟩
      · rw [if_neg hhalf]
        exact ⟨c, hc, rfl, rfl, .inl rfl⟩
  · have hnot : (!(p.adaptive_bitrate && p.codec == Codec.Opus.id)) = true := by
      rw [show (p.adaptive_bitrate && p.codec == Codec.Opus.id) = false from
        Bool.eq_false_of_not_eq_true hadapts]
      rfl
    rw [if_pos hnot]
    exact ⟨c, hc, rfl, rfl, .inl rfl⟩

/-- Redundancy is switched on above 1 %, and off by a loss-free report that makes the counter
ten. -/
theorem adapt_redundancy_controls (hc : r.sender_controls = some c) (hp : r.profile = some p) :
    ∃ c', (adapt_redundancy r).sender_controls = some c' ∧ c'.bitrate = c.bitrate ∧
      ((1 < r.loss_pct ∧ c'.redundancy = true ∧ (adapt_redundancy r).clean_secs = 0) ∨
        (r.loss_pct = 0 ∧ (adapt_redundancy r).clean_secs = r.clean_secs + 1 ∧
          (c'.redundancy = c.redundancy ∨ 10 ≤ r.clean_secs + 1)) ∨
        (r.loss_pct ≠ 0 ∧ r.loss_pct ≤ 1 ∧ c'.redundancy = c.redundancy ∧
          (adapt_redundancy r).clean_secs = r.clean_secs)) := by
  unfold adapt_redundancy
  rw [hc, hp]
  dsimp only
  by_cases h1 : 1 < r.loss_pct
  · rw [if_pos h1]
    exact ⟨_, rfl, rfl, .inl ⟨h1, rfl, rfl⟩⟩
  · rw [if_neg h1]
    by_cases h0 : r.loss_pct = 0
    · rw [if_pos h0]
      by_cases hoff : 10 ≤ r.clean_secs + 1 ∧ (!p.redundancy) = true
      · refine ⟨_, rfl, ?_, .inr (.inl ⟨h0, rfl, .inr hoff.1⟩)⟩
        rw [if_pos hoff]
      · refine ⟨_, rfl, ?_, .inr (.inl ⟨h0, rfl, .inl ?_⟩)⟩ <;> rw [if_neg hoff]
    · rw [if_neg h0]
      exact ⟨c, hc, rfl, .inr (.inr ⟨h0, not_lt.1 h1, rfl, rfl⟩)⟩

end Steps

/-! ## 2. A streak of reports -/

/-- What a report may do to a sending route whose earlier reports were `past`. -/
structure RightWay (p : StreamProfile) (auto : Bool) (past : List StatsReport) (c : SenderControls)
    (stats : StatsReport) (c' : SenderControls) : Prop where
  no_rise : 2 < stats.loss_pct → c'.bitrate ≤ c.bitrate
  no_fall : stats.loss_pct < 1 / 2 → c.bitrate ≤ c'.bitrate
  at_most : c'.bitrate ≤ max p.bitrate 128000
  switched_on : auto = true → 1 < stats.loss_pct → c'.redundancy = true
  switched_off : c.redundancy = true → c'.redundancy = false →
    ∃ ten, ten <:+ past ++ [stats] ∧ ten.length = 10 ∧ ∀ st ∈ ten, st.loss_pct = 0

/-- A sending route that has heard `past`. -/
structure Listening (p : StreamProfile) (auto : Bool) (past : List StatsReport) (r : Route)
    (c : SenderControls) : Prop where
  profile : r.profile = some p
  controls : r.sender_controls = some c
  at_most : c.bitrate ≤ max p.bitrate 128000
  /-- the counter is the length of a streak that ends with the last report -/
  streak : ∃ clean, clean <:+ past ∧ clean.length = r.clean_secs ∧ ∀ st ∈ clean, st.loss_pct = 0
  idle : auto = false → r.clean_secs = 0

/-- The reports that adaptation answers as it should: loss does not find the bitrate of an adaptive
route below the floor, and a small loss does not find a streak. -/
def Listening.Heeds (p : StreamProfile) (auto : Bool) (r : Route) (c : SenderControls)
    (stats : StatsReport) : Prop :=
  (adapts_to_loss p = true → 2 < stats.loss_pct → 32000 ≤ c.bitrate) ∧
    (auto = true → stats.loss_pct ≠ 0 → stats.loss_pct ≤ 1 → r.clean_secs = 0)

instance (p : StreamProfile) (auto : Bool) (r : Route) (c : SenderControls) (stats : StatsReport) :
    Decidable (Listening.Heeds p auto r c stats) :=
  inferInstanceAs <| Decidable <|
    (adapts_to_loss p = true → 2 < stats.loss_pct → 32000 ≤ c.bitrate) ∧
      (auto = true → stats.loss_pct ≠ 0 → stats.loss_pct ≤ 1 → r.clean_secs = 0)

theorem suffix_concat {α : Type*} {l l' : List α} (h : l <:+ l') (a : α) :
    l ++ [a] <:+ l' ++ [a] := by
  obtain ⟨front, rfl⟩ := h
  exact ⟨front, by rw [List.append_assoc]⟩

/-- The bitrate moves the right way. -/
theorem Listening.bitrate {p : StreamProfile} {auto : Bool} {past : List StatsReport} {r : Route}
    {c c' : SenderControls} {stats : StatsReport} (h : Listening p auto past r c)
    (hheeds : Listening.Heeds p auto r c stats)
    (hmoved : c'.bitrate = c.bitrate ∨
      (adapts_to_loss p = true ∧ 2 < stats.loss_pct ∧ c'.bitrate = max (c.bitrate * 3 / 4) 32000) ∨
      (stats.loss_pct < 1 / 2 ∧ c'.bitrate = min (c.bitrate * 5 / 4) (max p.bitrate 128000))) :
    (2 < stats.loss_pct → c'.bitrate ≤ c.bitrate) ∧
      (stats.loss_pct < 1 / 2 → c.bitrate ≤ c'.bitrate) ∧ c'.bitrate ≤ max p.bitrate 128000 := by
  have hmost := h.at_most
  rcases hmoved with hsame | ⟨hadapts, h2, hdown⟩ | ⟨hhalf, hup⟩
  · rw [hsame]
    exact ⟨fun _ => le_rfl, fun _ => le_rfl, hmost⟩
  · have hfloor := hheeds.1 hadapts h2
    refine ⟨fun _ => by omega, fun hhalf => ?_, by omega⟩
    linarith
  · refine ⟨fun h2 => ?_, fun _ => by omega, by omega⟩
    linarith

/-- One report that is heeded. -/
theorem Listening.heard {p : StreamProfile} {auto : Bool} {past : List StatsReport} {r : Route}
    {c : SenderControls} (h : Listening p auto past r c) {stats : StatsReport}
    (hheeds : Listening.Heeds p auto r c stats) :
    ∃ c', Listening p auto (past ++ [stats]) (r.adapted auto stats) c' ∧
      RightWay p auto past c stats c' := by
  obtain ⟨c₁, hc₁, hred₁, hclean₁, hmoved⟩ :=
    adapt_bitrate_controls (r := { r with loss_pct := stats.loss_pct }) h.controls h.profile
  dsimp only at hclean₁
  have hkept := r.adapted_adapts auto stats
  have hkept₁ := Route.adapt_bitrate_adapts { r with loss_pct := stats.loss_pct }
  obtain ⟨hdown, hup, hmost⟩ := h.bitrate hheeds hmoved
  obtain ⟨clean, hsuffix, hlen, hclean⟩ := h.streak
  -- The bitrate is settled for both settings above. What the redundancy does depends on the
  -- streak, and that moves only when it is adapted here.
  by_cases hauto : auto = true
  · obtain ⟨c₂, hc₂, hrate, hred⟩ := adapt_redundancy_controls hc₁ (hkept₁.profile.trans h.profile)
    have hadapted : r.adapted auto stats =
        adapt_redundancy (adapt_bitrate { r with loss_pct := stats.loss_pct }) := by
      rw [Route.adapted, if_pos hauto]
    rw [hkept₁.loss_pct, hclean₁, hred₁, ← hadapted] at hred
    rw [← hadapted] at hc₂
    rw [← hrate] at hdown hup hmost
    have hnever : auto = false → (r.adapted auto stats).clean_secs = 0 := by
      rw [hauto]
      exact fun hf => nomatch hf
    rcases hred with ⟨h1, hon, hzero⟩ | ⟨h0, hmore, hoff⟩ | ⟨hne, hle, hsame, hstay⟩
    · -- the streak is over
      refine ⟨c₂, ⟨hkept.profile.trans h.profile, hc₂, hmost, ?_, hnever⟩,
        hdown, hup, hmost, fun _ _ => hon, fun _ hoff => ?_⟩
      · exact ⟨[], List.nil_suffix, hzero.symm, fun _ hst => absurd hst List.not_mem_nil⟩
      · exact nomatch hon.symm.trans hoff
    · -- the streak is one longer
      have hclean' : ∀ st ∈ clean ++ [stats], st.loss_pct = 0 := by
        intro st hst
        rcases List.mem_append.1 hst with hst | hst
        · exact hclean st hst
        · rw [List.mem_singleton.1 hst]
          exact h0
      have hlen' : (clean ++ [stats]).length = r.clean_secs + 1 := by
        rw [List.length_append, hlen, List.length_singleton]
      have hsuffix' := suffix_concat hsuffix stats
      refine ⟨c₂, ⟨hkept.profile.trans h.profile, hc₂, hmost, ?_, hnever⟩,
        hdown, hup, hmost, fun _ h1 => ?_, fun hon hnow => ?_⟩
      · exact ⟨_, hsuffix', hlen'.trans hmore.symm, hclean'⟩
      · rw [show stats.loss_pct = 0 from h0] at h1
        exact absurd h1 (by decide)
      · rcases hoff with hoff | hten
        · rw [hoff, hon] at hnow
          exact nomatch hnow
        · refine ⟨(clean ++ [stats]).drop (r.clean_secs + 1 - 10),
            (List.drop_suffix _ _).trans hsuffix', ?_, fun st hst => ?_⟩
          · rw [List.length_drop, hlen']
            omega
          · exact hclean' st (List.mem_of_mem_drop hst)
    · -- no streak to break
      have hzero : r.clean_secs = 0 := hheeds.2 hauto hne hle
      refine ⟨c₂, ⟨hkept.profile.trans h.profile, hc₂, hmost, ?_, hnever⟩,
        hdown, hup, hmost, fun _ h1 => ?_, fun hon hnow => ?_⟩
      · exact ⟨[], List.nil_suffix, (hstay.trans hzero).symm,
          fun _ hst => absurd hst List.not_mem_nil⟩
      · exact absurd h1 (not_lt.2 hle)
      · rw [hsame, hon] at hnow
        exact nomatch hnow
  -- The user chose the redundancy: neither it nor the streak is touched.
  · have hadapted : r.adapted auto stats = adapt_bitrate { r with loss_pct := stats.loss_pct } := by
      rw [Route.adapted, if_neg hauto]
    have hzero : (r.adapted auto stats).clean_secs = 0 := by
      rw [hadapted, hclean₁]
      exact h.idle (Bool.eq_false_of_not_eq_true hauto)
    refine ⟨c₁, ⟨hkept.profile.trans h.profile, hadapted ▸ hc₁, hmost, ?_, fun _ => hzero⟩,
      hdown, hup, hmost, fun hon => absurd hon hauto, fun hon hnow => ?_⟩
    · exact ⟨[], List.nil_suffix, hzero.symm, fun _ hst => absurd hst List.not_mem_nil⟩
    · rw [hred₁, hon] at hnow
      exact nomatch hnow

/-! ## 3. Runs of reports -/

namespace Actor

section

variable (peer : DeviceId) (id : UInt8) (p : StreamProfile) (auto : Bool)

/-- The reports of a peer on a route, from the start of its sending pipeline. -/
def reports : Machine Actor StatsReport where
  init s := (s.settings.stream_for peer.to_hex).redundancy_auto = auto ∧
    ∃ r c, s.routes.find? (has_key ⟨peer, id⟩) = some r ∧ r.profile = some p ∧
      r.sender_controls = some c ∧ c.bitrate = p.bitrate ∧ r.clean_secs = 0
  enabled _ stats := stats.route.toUInt8 = id
  step s stats := s.on_stats peer stats

/-- The report finds the route in a state in which adaptation answers it as it should. -/
def Heeded (s : Actor) (stats : StatsReport) : Prop :=
  ∀ r c, s.routes.find? (has_key ⟨peer, id⟩) = some r → r.sender_controls = some c →
    Listening.Heeds p auto r c stats

instance (s : Actor) (stats : StatsReport) : Decidable (Heeded peer id p auto s stats) :=
  decidable_of_iff ((s.routes.find? (has_key ⟨peer, id⟩)).all fun r =>
      r.sender_controls.all fun c => decide (Listening.Heeds p auto r c stats)) <| by
    simp only [Option.all_eq_true, decide_eq_true_eq]
    exact ⟨fun h r c hr hc => h r hr c hc, fun h r hr c hc => h r c hr hc⟩

variable {peer id p auto}

theorem find?_on_stats {s : Actor} {r : Route} {stats : StatsReport}
    (hauto : (s.settings.stream_for peer.to_hex).redundancy_auto = auto)
    (hr : s.routes.find? (has_key ⟨peer, id⟩) = some r) (hid : stats.route.toUInt8 = id) :
    (s.on_stats peer stats).routes.find? (has_key ⟨peer, id⟩) = some (r.adapted auto stats) := by
  have hkey : has_key ⟨peer, id⟩ (r.adapted auto stats) = true := by
    rw [Route.has_key_adapted]
    exact List.find?_some hr
  have hmodified := List.find?_modify_first hr (f := Route.adapted auto stats) hkey
  subst hid hauto
  exact hmodified

/-- What a run of heeded reports has reached. -/
theorem reports_listening {tr : List (Actor × StatsReport)} {s : Actor}
    (hr : (reports peer id p auto).Run tr s) (hheeds : Machine.Meets (Heeded peer id p auto) tr) :
    (s.settings.stream_for peer.to_hex).redundancy_auto = auto ∧
      ∃ r c, s.routes.find? (has_key ⟨peer, id⟩) = some r ∧
        Listening p auto (tr.map Prod.snd) r c := by
  induction hr with
  | start h =>
      obtain ⟨hauto, r, c, hfind, hp, hc, hrate, hclean⟩ := h
      refine ⟨hauto, r, c, hfind, hp, hc, ?_, ?_, fun _ => hclean⟩
      · rw [hrate]
        exact le_max_left _ _
      · exact ⟨[], List.nil_suffix, hclean.symm, fun _ hst => absurd hst List.not_mem_nil⟩
  | @next tr s stats hr hid ih =>
      obtain ⟨hauto, r, c, hfind, hlisten⟩ := ih fun q hq => hheeds q (List.mem_append_left _ hq)
      have hlast := hheeds (s, stats) (List.mem_append_right _ (List.mem_singleton_self _))
      obtain ⟨c', hlisten', -⟩ := hlisten.heard (hlast r c hfind hlisten.controls)
      rw [List.map_append, List.map_singleton]
      exact ⟨hauto, _, c', find?_on_stats hauto hfind hid, hlisten'⟩

/-- Every report of a run of heeded reports moves bitrate and redundancy the right way. -/
theorem adaptation_moves_right {tr₁ tr₂ : List (Actor × StatsReport)} {s s' : Actor}
    {stats : StatsReport} (hr : (reports peer id p auto).Run (tr₁ ++ (s, stats) :: tr₂) s')
    (hheeds : Machine.Meets (Heeded peer id p auto) (tr₁ ++ (s, stats) :: tr₂)) :
    ∃ r c r' c', s.routes.find? (has_key ⟨peer, id⟩) = some r ∧ r.sender_controls = some c ∧
      (s.on_stats peer stats).routes.find? (has_key ⟨peer, id⟩) = some r' ∧
      r'.sender_controls = some c' ∧ RightWay p auto (tr₁.map Prod.snd) c stats c' := by
  obtain ⟨hbefore, hid⟩ := hr.before
  obtain ⟨hauto, r, c, hfind, hlisten⟩ :=
    reports_listening hbefore fun q hq => hheeds q (List.mem_append_left _ hq)
  have hlast := hheeds (s, stats) (List.mem_append_right _ List.mem_cons_self)
  obtain ⟨c', hlisten', hright⟩ := hlisten.heard (hlast r c hfind hlisten.controls)
  exact ⟨r, c, _, c', hfind, hlisten.controls, find?_on_stats hauto hfind hid, hlisten'.controls,
    hright⟩

end

end Actor

/-! ## 4. Routes that adapt, and two that do not -/

namespace Sample

/-- A route that sends adaptive Opus at a bitrate to the peer. -/
def sending (bitrate : Nat) : Route :=
  { new_route peer 2 .SendSystemAudio true 1 with
    status := .Active
    profile := some { build_profile .Balanced .Auto 2 false with bitrate }
    sender_controls :=
      some { muted := false, bitrate, expected_loss_pct := 0, redundancy := false } }

/-- The actor with that route alone. -/
def sends_at (bitrate : Nat) : Actor := { (start .default).actor with routes := [sending bitrate] }

def report (received lost : UInt32) : StatsReport := ⟨2, received, lost⟩

/-- The controls of the route after some reports. -/
def controls_after (bitrate : Nat) (reports : List StatsReport) : Option SenderControls :=
  ((reports.foldl (fun s stats => s.on_stats peer stats) (sends_at bitrate)).routes.head?).bind
    Route.sender_controls

end Sample

open Sample in
/-- A small loss finds no streak, more loss switches redundancy on, and the tenth clean report after
that switches it off. -/
theorem adaptation_moves_right_streak :
    let p := { build_profile .Balanced .Auto 2 false with bitrate := 128000 }
    let past := report 199 1 :: report 95 5 :: List.replicate 9 (report 100 0)
    let s := (Actor.reports peer 2 p true).exec (sends_at 128000) past
    ∃ r c r' c', s.routes.find? (has_key ⟨peer, 2⟩) = some r ∧ r.sender_controls = some c ∧
      (s.on_stats peer (report 100 0)).routes.find? (has_key ⟨peer, 2⟩) = some r' ∧
      r'.sender_controls = some c' ∧ c.redundancy = true ∧ c'.redundancy = false ∧
      c.bitrate ≤ c'.bitrate ∧ c'.bitrate ≤ max p.bitrate 128000 := by
  intro p past s
  have hinit : (Actor.reports peer 2 p true).init (sends_at 128000) :=
    ⟨rfl, sending 128000, _, rfl, rfl, rfl, rfl, rfl⟩
  have hadmits : (Actor.reports peer 2 p true).Admits (sends_at 128000) (past ++ [report 100 0]) :=
    ⟨rfl, rfl, rfl, rfl, rfl, rfl, rfl, rfl, rfl, rfl, rfl, rfl, trivial⟩
  have hrun := Machine.run_of_admits hinit hadmits
  rw [Machine.trace_append] at hrun
  have hheeds : Machine.Meets (Actor.Heeded peer 2 p true)
      ((Actor.reports peer 2 p true).trace (sends_at 128000) past ++
        (s, report 100 0) :: []) := by
    unfold Machine.Meets
    decide +kernel
  obtain ⟨r, c, r', c', hr, hc, hr', hc', hright⟩ := Actor.adaptation_moves_right hrun hheeds
  have hbefore : (s.routes.find? (has_key ⟨peer, 2⟩)).map (fun r =>
      r.sender_controls.map SenderControls.redundancy) = some (some true) := by
    decide +kernel
  have hafter : ((s.on_stats peer (report 100 0)).routes.find? (has_key ⟨peer, 2⟩)).map (fun r =>
      r.sender_controls.map SenderControls.redundancy) = some (some false) := by
    decide +kernel
  rw [hr, Option.map_some, hc] at hbefore
  rw [hr', Option.map_some, hc'] at hafter
  refine ⟨r, c, r', c', hr, hc, hr', hc', ?_, ?_, hright.no_fall (by decide +kernel),
    hright.at_most⟩
  · exact Option.some_inj.1 (Option.some_inj.1 hbefore)
  · exact Option.some_inj.1 (Option.some_inj.1 hafter)

open Sample in
/-- Loss raises a bitrate below the floor; and a streak that a small loss has broken switches
redundancy off. -/
theorem adaptation_moves_wrong :
    2 < (report 90 10).loss_pct ∧ (controls_after 16000 []).map (·.bitrate) = some 16000 ∧
      (controls_after 16000 [report 90 10]).map (·.bitrate) = some 32000 ∧
    (report 199 1).loss_pct ≠ 0 ∧
      (controls_after 128000 (report 95 5 :: List.replicate 9 (report 100 0) ++
        [report 199 1])).map (·.redundancy) = some true ∧
      (controls_after 128000 (report 95 5 :: List.replicate 9 (report 100 0) ++
        [report 199 1, report 100 0])).map (·.redundancy) = some false := by
  decide +kernel

end SoundPush
