/-
`Remade` -- running streams that are stopped and asked for again.

A 1.0 peer cannot switch a running stream to another encoding. Where the settings want one, the
stream is stopped and asked for again under a new id: on an update of the settings, and on a tick
that ends a hold on the Stable profile or moves a lossless stream to Opus and back. `remade` says
which of the streams an event meets that may be, and `settles_asks` that a device is asked for no
more routes than these, as long as the ids they take are free.

The argument counts running streams. A request that remakes one follows the end of that stream, and
what it adds does not run yet; so requests are paid for by streams, each by another, whichever loops
of the tick they come from.
-/
import SoundPush.Engine.RouteIds
import SoundPush.Engine.Basis

set_option autoImplicit false

namespace SoundPush

/-! ## 1. What a route is remade for -/

/-- What decides whether a stream is remade, its device apart. -/
def Route.terms (r : Route) : RouteKind × Bool × Option StreamProfile × QualityFallback :=
  (r.kind, r.requested_locally, r.profile, r.quality_fallback)

namespace Actor

/-- `t` wants the profiles with a device that `s` wants. -/
structure Agrees (s t : Actor) (peer : DeviceId) : Prop where
  stream : t.settings.stream_for peer.to_hex = s.settings.stream_for peer.to_hex
  mic : t.settings.mic = s.settings.mic
  prefer_lossless : t.prefer_lossless = s.prefer_lossless
  stabilized : t.stabilized.has peer = s.stabilized.has peer

variable {s t u : Actor} {peer : DeviceId}

theorem Agrees.of_basis (hs : t.basis.settings = s.basis.settings)
    (hp : t.prefer_lossless = s.prefer_lossless)
    (hstab : t.stabilized.has peer = s.stabilized.has peer) : s.Agrees t peer := by
  have hstream : t.basis.settings.stream_for peer.to_hex =
      s.basis.settings.stream_for peer.to_hex := by rw [hs]
  have hmic : t.basis.settings.mic = s.basis.settings.mic := by rw [hs]
  exact ⟨hstream, hmic, hp, hstab⟩

theorem Agrees.trans (h : s.Agrees t peer) (h' : t.Agrees u peer) : s.Agrees u peer :=
  ⟨h'.stream.trans h.stream, h'.mic.trans h.mic, h'.prefer_lossless.trans h.prefer_lossless,
    h'.stabilized.trans h.stabilized⟩

theorem Agrees.profile_for (h : s.Agrees t peer) {session session' : Session}
    (hs : s.sessions.get peer = some session) (ht : t.sessions.get peer = some session')
    (hh : session.hello = session'.hello) (kind : RouteKind) :
    t.profile_for kind peer = s.profile_for kind peer := by
  unfold Actor.profile_for denoise_at_peer
  rw [h.stream, h.mic, h.prefer_lossless, h.stabilized, hs, ht]
  dsimp only
  rw [hh]

/-- Whether a stream is remade depends on its terms, and on what is wanted with its device. -/
theorem remakes_of_agrees (r r' : Route) (h : s.Agrees t r.peer)
    (hg : Greets s.sessions t.sessions) (hp : r'.peer = r.peer) (ht : r'.terms = r.terms)
    (hr : t.remakes r' = true) : s.remakes r = true := by
  unfold Route.terms at ht
  simp only [Prod.mk.injEq] at ht
  obtain ⟨hkind, hlocal, hprofile, hfallback⟩ := ht
  unfold remakes at hr ⊢
  simp only [Bool.and_eq_true, decide_eq_true_eq] at hr ⊢
  obtain ⟨⟨⟨session', hs', hold⟩, hrl⟩, hchanged⟩ := hr
  rw [hp] at hs'
  obtain ⟨session, hs, hh⟩ := hg r.peer session' hs'
  have hwanted : t.wanted_profile r' = s.wanted_profile r := by
    unfold wanted_profile
    rw [hkind, hp, hfallback, h.profile_for hs hs' hh]
  rw [hprofile, hkind, hlocal, hwanted] at hchanged
  exact ⟨⟨⟨session, hs, hh ▸ hold⟩, hlocal ▸ hrl⟩, hchanged⟩

end Actor

/-! ## 2. What becomes of the other routes -/

/-- The routes of `b` are routes of `a`, at the same stage and, those of one key apart, on the same
terms. -/
def Kept (key : RouteKey) (a b : List Route) : Prop :=
  ∀ r' ∈ b, ∃ r ∈ a, r'.key = r.key ∧ r'.status = r.status ∧ (r'.key ≠ key → r'.terms = r.terms)

namespace Kept

variable {key : RouteKey} {a b c : List Route}

theorem of_subset (h : b ⊆ a) : Kept key a b :=
  fun r hr => ⟨r, h hr, rfl, rfl, fun _ => rfl⟩

theorem trans (h : Kept key a b) (h' : Kept key b c) : Kept key a c := by
  intro r'' hr''
  obtain ⟨r', hr', hkey', hstatus', hterms'⟩ := h' r'' hr''
  obtain ⟨r, hr, hkey, hstatus, hterms⟩ := h r' hr'
  refine ⟨r, hr, hkey'.trans hkey, hstatus'.trans hstatus, fun hne => ?_⟩
  exact (hterms' hne).trans (hterms (hkey' ▸ hne))

theorem concat {r : Route} (h : Kept key a b) (hr : Kept key a [r]) : Kept key a (b ++ [r]) := by
  intro r' hr'
  rcases List.mem_append.1 hr' with hr' | hr'
  · exact h r' hr'
  · exact hr r' hr'

theorem modify_first {f : Route → Route}
    (hf : ∀ r, (f r).key = r.key ∧ (f r).status = r.status) :
    Kept key a (a.modify_first (has_key key) f) := by
  intro r' hr'
  rcases List.mem_modify_first hr' with hr' | ⟨r, hr, rfl⟩
  · exact ⟨r', hr', rfl, rfl, fun _ => rfl⟩
  · have hkey := List.find?_some hr
    refine ⟨r, List.mem_of_find?_eq_some hr, (hf r).1, (hf r).2, fun hne => absurd ?_ hne⟩
    exact (hf r).1.trans (of_decide_eq_true hkey)

theorem keep_running (key : RouteKey) (keep : Bool) (p : Route → Bool) :
    Kept key a (a.modify_last p fun r => { r with keep_running := keep }) := by
  intro r' hr'
  rcases List.mem_modify_last hr' with hr' | ⟨r, hr, rfl⟩
  · exact ⟨r', hr', rfl, rfl, fun _ => rfl⟩
  · have hmem := List.mem_reverse.1 (List.mem_of_find?_eq_some hr)
    exact ⟨r, hmem, rfl, rfl, fun _ => rfl⟩

end Kept

namespace Actor

section
variable (env : Env) (s : Actor) {key : RouteKey}

theorem reset_fallback_kept {r : Route} (hr : r.key = key) :
    Kept key s.routes (s.reset_fallback r).routes := by
  unfold reset_fallback
  split
  · exact .of_subset (List.Subset.refl _)
  · rw [hr]
    exact .modify_first fun _ => ⟨rfl, rfl⟩

theorem rebuild_route_kept : Kept key s.routes (s.rebuild_route env key).routes := by
  unfold rebuild_route
  split
  · exact .of_subset (List.Subset.refl _)
  · next route rest hfirst =>
      have hrest : Kept key s.routes rest :=
        .of_subset (List.sublist_of_remove_first hfirst).subset
      obtain ⟨hmem, hkey⟩ := List.mem_of_remove_first hfirst
      have hkey : route.key = key := of_decide_eq_true hkey
      dsimp only
      have hroutes := congrArg Tables.routes (release_pipelines_tables (s.set_routes rest) route)
      rw [release_pipelines_route]
      generalize ((s.set_routes rest).release_pipelines route).1 = s₁ at hroutes ⊢
      have hsame := s₁.begin_pipelines_same env route.released
      have htables := s₁.begin_pipelines_tables env route.released
      generalize s₁.begin_pipelines env route.released = begun at hsame htables ⊢
      obtain ⟨t, route', result⟩ := begun
      have htroutes : t.routes = rest := (congrArg Tables.routes htables).trans hroutes
      have hall : Kept key s.routes (t.routes ++ [route']) := by
        rw [htroutes]
        refine hrest.concat fun r hr => ⟨route, hmem, ?_⟩
        rw [List.mem_singleton.1 hr]
        have hk : route'.key = route.key := congrArg₂ RouteKey.mk hsame.peer hsame.id
        exact ⟨hk, hsame.status, fun hne => absurd (hk.trans hkey) hne⟩
      cases result with
      | ok ready => exact hall
      | error e =>
          dsimp only
          rw [fail_route_routes]
          exact hall.trans (.of_subset List.eraseP_sublist.subset)

theorem apply_profile_kept (next : StreamProfile) :
    Kept key s.routes (s.apply_profile env key next).routes := by
  unfold apply_profile
  split
  · exact .of_subset (List.Subset.refl _)
  · dsimp only
    have hset : Kept key s.routes (s.set_routes (s.routes.modify_first (has_key key) fun r =>
        r.with_profile next)).update_mic_groups.routes :=
      .modify_first fun _ => ⟨rfl, rfl⟩
    refine iteInduction (motive := fun t : Actor => Kept key s.routes t.routes) (fun _ => hset) ?_
    exact fun _ => hset.trans (rebuild_route_kept env _)

/-- What a reconfiguration leaves in the table: the routes from before, and one more if the stream
was remade. -/
def Reshaped (key : RouteKey) (remade : Route → Prop) (b : Actor) : Prop :=
  ∀ r' ∈ b.routes,
    (∃ r ∈ s.routes, r'.key = r.key ∧ r'.status = r.status ∧ (r'.key ≠ key → r'.terms = r.terms)) ∨
      (r'.status = .Requesting ∧ r'.peer = key.peer ∧
        (∃ r, s.routes.find? (has_key key) = some r ∧ remade r) ∧
        ∃ session, s.sessions.get key.peer = some session ∧ r'.id = session.next_route)

theorem restart_route_reshaped :
    s.Reshaped key (fun r => r.requested_locally = true) (s.restart_route env key) := by
  intro r' hr'
  unfold restart_route at hr'
  split at hr'
  · exact .inl ⟨r', hr', rfl, rfl, fun _ => rfl⟩
  · next r hr =>
      have hfound := List.find?_some hr
      have hpeer : r.peer = key.peer := congrArg RouteKey.peer (of_decide_eq_true hfound)
      dsimp only at hr'
      split at hr'
      · exact .inl ⟨r', hr', rfl, rfl, fun _ => rfl⟩
      · have htables := s.stop_route_by_key_tables env key .Superseded true
        generalize s.stop_route_by_key env key .Superseded true = s₁ at htables hr'
        have hstop : Kept key s.routes s₁.routes := by
          refine .of_subset ?_
          rw [show s₁.routes = _ from congrArg Tables.routes htables]
          exact List.eraseP_sublist.subset
        have hsessions : s₁.sessions = s.sessions := by rw [htables]
        split at hr'
        · next hlocal =>
          obtain ⟨q, hq, hkey, hstatus, hterms⟩ := Kept.keep_running key _ _ r' hr'
          -- a route that was there before the start was there before the stop
          have hold (hq : q ∈ s₁.routes) : ∃ r ∈ s.routes, r'.key = r.key ∧ r'.status = r.status ∧
              (r'.key ≠ key → r'.terms = r.terms) := by
            obtain ⟨q₀, hq₀, hkey₀, hstatus₀, hterms₀⟩ := hstop q hq
            refine ⟨q₀, hq₀, hkey.trans hkey₀, hstatus.trans hstatus₀, fun hne => ?_⟩
            exact (hterms hne).trans (hterms₀ (hkey ▸ hne))
          rcases s₁.start_route_keeping_board env r.peer r.kind .dropped r.quality_fallback with
            ⟨hb, _⟩ | ⟨session, new, hs, _, hnew, hb⟩
          · have hroutes : (s₁.start_route_keeping env r.peer r.kind false .dropped
                r.quality_fallback).routes = s₁.routes := congrArg Board.routes hb
            exact .inl (hold (hroutes ▸ hq))
          · have hroutes : (s₁.start_route_keeping env r.peer r.kind false .dropped
                r.quality_fallback).routes = s₁.routes ++ [new] := congrArg Board.routes hb
            rw [hroutes] at hq
            rcases List.mem_append.1 hq with hq | hq
            · exact .inl (hold hq)
            · obtain rfl := List.mem_singleton.1 hq
              refine .inr ⟨hstatus.trans hnew.status, ?_, ⟨r, hr, hlocal⟩, session, ?_, ?_⟩
              · exact (congrArg RouteKey.peer hkey).trans (hnew.peer.trans hpeer)
              · rw [← hsessions, ← hpeer, hs]
              · exact (congrArg RouteKey.id hkey).trans hnew.id
        · exact .inl (hstop r' hr')

theorem reconfigure_route_reshaped :
    s.Reshaped key (fun r => s.remakes r = true) (s.reconfigure_route env key) := by
  intro r' hr'
  unfold reconfigure_route at hr'
  split at hr'
  · exact .inl ⟨r', hr', rfl, rfl, fun _ => rfl⟩
  · next r hr =>
      have hfound := List.find?_some hr
      have hkey : r.key = key := of_decide_eq_true hfound
      split at hr'
      · next session current hs hp =>
          dsimp only at hr'
          have hreset := s.reset_fallback_kept hkey
          obtain ⟨q, hq, hlocal, -⟩ := s.reset_fallback_find? r hr
          have hsessions := s.reset_fallback_sessions r
          -- The fallback is reset first; that neither adds a route nor changes its key.
          generalize s.reset_fallback r = s₁ at hreset hq hsessions hr'
          split at hr'
          · exact .inl (hreset r' hr')
          · split at hr'
            · next hrestart =>
                rcases s₁.restart_route_reshaped env r' hr' with
                  ⟨q', hq', hk, hst, hterms⟩ | ⟨hst, hpeer, ⟨q', hq', hl⟩, hsession⟩
                · obtain ⟨q₀, hq₀, hk₀, hst₀, hterms₀⟩ := hreset q' hq'
                  refine .inl ⟨q₀, hq₀, hk.trans hk₀, hst.trans hst₀, fun hne => ?_⟩
                  exact (hterms hne).trans (hterms₀ (hk ▸ hne))
                · obtain rfl := Option.some_inj.1 (hq.symm.trans hq')
                  refine .inr ⟨hst, hpeer, ⟨r, hr, ?_⟩, hsessions ▸ hsession⟩
                  obtain ⟨hchanged, hold⟩ := Bool.and_eq_true_iff.1 hrestart
                  have hrestarts : s.restarts r.peer :=
                    ⟨session, hs, by rwa [← Bool.not_eq_true']⟩
                  unfold remakes
                  rw [hp, Option.any_some, hchanged, ← hlocal, hl, decide_eq_true hrestarts]
                  rfl
            · generalize next_profile r.kind r.requested_locally current (s.wanted_profile r) = next
                at hr'
              refine .inl (hreset.trans (s₁.apply_profile_kept env next) r' ?_)
              split at hr'
              · exact congrArg Tables.routes (send_to_tables _ r.peer _) ▸ hr'
              · exact hr'
      · exact .inl ⟨r', hr', rfl, rfl, fun _ => rfl⟩

end

end Actor

/-! ## 3. Streams pay for requests -/

/-- The running streams with a device, of those with certain keys. -/
def Board.exposed (b : Board) (keys : List RouteKey) (peer : DeviceId) : Nat :=
  b.routes.countP fun r => r.peer = peer ∧ r.status = .Active ∧ r.key ∈ keys

section
variable [Crypto] {env : Env} {s₀ : Actor} {event : Event} {l : List DeviceId} {a b : Board}
  {keys : List RouteKey}

theorem Acts.exposed_le (he : event.settles) (h : Acts env s₀ event l a b) (ha : a.aside = [])
    (p : DeviceId) : b.exposed keys p ≤ a.exposed keys p := by
  refine (h.countP_le (fun r r' hr hcount => ?_) (fun r hr => ?_) fun r hr => ?_).2
  · simp only [decide_eq_true_eq] at hcount ⊢
    exact ⟨hr.peer.symm.trans hcount.1, hr.active he hcount.2.1, hr.key ▸ hcount.2.2⟩
  · exact (of_decide_eq_true hr).2.1
  · rw [ha] at hr
    exact absurd hr List.not_mem_nil

namespace Actor

variable {s : Actor} {key : RouteKey}

omit [Crypto] in
theorem reconfigure_route_of_remakes {r : Route} (hr : s.routes.find? (has_key key) = some r)
    (h : s.remakes r = true) :
    s.reconfigure_route env key = (s.reset_fallback r).restart_route env key := by
  unfold remakes at h
  simp only [Bool.and_eq_true, decide_eq_true_eq] at h
  obtain ⟨⟨⟨session, hs, hold⟩, -⟩, hchanged⟩ := h
  obtain ⟨current, hp, hchanged⟩ := (Option.any_eq_true _ _).1 hchanged
  have hne : next_profile r.kind r.requested_locally current (s.wanted_profile r) ≠ current := by
    intro heq
    rw [heq] at hchanged
    simp [encoding_changed] at hchanged
  unfold reconfigure_route
  rw [hr]
  dsimp only
  rw [hs, hp]
  dsimp only
  rw [if_neg hne, hchanged, hold]
  rfl

/-- A stream that is remade ends, and the one asked for in its place does not run yet. -/
theorem reconfigure_route_exposed (he : event.settles)
    {r : Route} (hr : s.routes.find? (has_key key) = some r) (h : s.remakes r = true)
    (hactive : r.status = .Active) (hkey : key ∈ keys) :
    (s.reconfigure_route env key).board.exposed keys key.peer + 1 ≤
      s.board.exposed keys key.peer := by
  rw [reconfigure_route_of_remakes hr h]
  have hreset : (s.reset_fallback r).board.exposed keys key.peer ≤ s.board.exposed keys key.peer :=
    (reset_fallback_acts env s event s r).exposed_le he rfl key.peer
  obtain ⟨q, hq, hlocal, hstatus, hpeer⟩ := s.reset_fallback_find? r hr
  refine le_trans ?_ hreset
  have hsessions := s.reset_fallback_sessions r
  generalize s.reset_fallback r = s₁ at hq hsessions ⊢
  unfold remakes at h
  simp only [Bool.and_eq_true, decide_eq_true_eq] at h
  obtain ⟨⟨⟨session, hs, hold⟩, hrlocal⟩, -⟩ := h
  have hfound := List.find?_some hq
  have hqkey : q.key = key := of_decide_eq_true hfound
  have hhas : s₁.sessions.has q.peer = true := by
    rw [hsessions, hpeer]
    exact Table.has_eq_true.2 ⟨session, hs⟩
  -- the stream is taken out
  obtain ⟨rest, hfirst⟩ := List.remove_first_of_find? hq
  have hstop := stop_route_by_key_board env s₁ .Superseded true hfirst
  have hless : (s₁.stop_route_by_key env key .Superseded true).board.exposed keys key.peer + 1 =
      s₁.board.exposed keys key.peer := by
    have hcount := List.countP_remove_first
      (q := fun r => r.peer = key.peer ∧ r.status = .Active ∧ r.key ∈ keys) hfirst
    rw [if_pos (decide_eq_true ⟨congrArg RouteKey.peer hqkey, hstatus.trans hactive,
      hqkey.symm ▸ hkey⟩)] at hcount
    rw [hstop]
    exact hcount.symm
  rw [← hless]
  refine Nat.add_le_add_right ?_ 1
  -- and what follows lets none begin to run
  generalize hs₂ : s₁.stop_route_by_key env key .Superseded true = s₂
  have hstart : Acts env s event [q.peer] s₂.board (s₁.restart_route env key).board := by
    unfold restart_route
    rw [hq]
    dsimp only
    rw [hhas, Bool.not_true, if_neg Bool.false_ne_true, hs₂, if_pos (hlocal.trans hrlocal)]
    have hrun := start_route_keeping_acts env s event s₂ q.peer q.kind false .dropped
      q.quality_fallback fun h => nomatch h
    exact Acts.trans hrun (.of_act (.tend _ (alike_keep_running _ _ _)))
  exact hstart.exposed_le he rfl key.peer

/-- Each request of a reconfiguration is paid for by a running stream. -/
theorem reconfigure_route_asks (he : event.settles) (hg : Greets s₀.sessions s.sessions)
    (hkeys : ∀ r, s.routes.find? (has_key key) = some r → s.remakes r = true →
      r.status = .Active ∧ key ∈ keys) :
    ∃ l, Acts env s₀ event l s.board (s.reconfigure_route env key).board ∧
      ∀ p, l.count p + (s.reconfigure_route env key).board.exposed keys p ≤
        s.board.exposed keys p := by
  have hacts := reconfigure_route_remakes env s₀ event s key he hg
  refine ⟨_, hacts, fun p => ?_⟩
  have hle : (s.reconfigure_route env key).board.exposed keys p ≤ s.board.exposed keys p :=
    hacts.exposed_le he rfl p
  split
  · next hany =>
      obtain ⟨r, hr, hremakes⟩ := (Option.any_eq_true _ _).1 hany
      obtain ⟨hactive, hkey⟩ := hkeys r hr hremakes
      by_cases hp : key.peer = p
      · subst hp
        rw [List.count_singleton_self, Nat.add_comm]
        exact reconfigure_route_exposed he hr hremakes hactive hkey
      · rw [List.count_singleton, if_neg (by simpa using hp), Nat.zero_add]
        exact hle
  · rw [List.count_nil, Nat.zero_add]
    exact hle

end Actor

/-! ## 4. One reconfiguration after the other -/

/-- `s` is `a` after the routes of some keys have been reconfigured. The others are on their old
terms, and a route that is new has a key that `a` had for none. -/
structure Reworked (env : Env) (s₀ : Actor) (event : Event) (keys : List RouteKey) (a : Actor)
    (done : List RouteKey) (s : Actor) : Prop where
  settings : s.basis.settings = a.basis.settings
  prefer_lossless : s.prefer_lossless = a.prefer_lossless
  acts : ∃ l, Acts env s₀ event l a.board s.board ∧
    ∀ p, l.count p + s.board.exposed keys p ≤ a.board.exposed keys p
  kept : ∀ r ∈ s.routes,
    (∃ r₁ ∈ a.routes, r.key = r₁.key ∧ r.status = r₁.status ∧
      (r.key ∉ done → r.terms = r₁.terms)) ∨
    (r.status = .Requesting ∧ ∀ r₁ ∈ a.routes, r₁.key ≠ r.key)

namespace Reworked

variable {a s t : Actor} {done : List RouteKey} {key : RouteKey}

theorem refl (env : Env) (keys : List RouteKey) (a : Actor) :
    Reworked env s₀ event keys a [] a where
  settings := rfl
  prefer_lossless := rfl
  acts := ⟨[], .refl _, fun p => by rw [List.count_nil, Nat.zero_add]⟩
  kept r hr := .inl ⟨r, hr, rfl, rfl, fun _ => rfl⟩

/-- What neither changes the board nor the settings may come in between. -/
theorem of_board (h : Reworked env s₀ event keys a done s) (hb : t.board = s.board)
    (hs : t.basis.settings = s.basis.settings) (hp : t.prefer_lossless = s.prefer_lossless) :
    Reworked env s₀ event keys a done t where
  settings := hs.trans h.settings
  prefer_lossless := hp.trans h.prefer_lossless
  acts := hb ▸ h.acts
  kept := by
    rw [show t.routes = s.routes from congrArg Board.routes hb]
    exact h.kept

theorem greets (h : Reworked env s₀ event keys a done s) (he : event.settles) :
    Greets a.sessions s.sessions := by
  obtain ⟨l, hacts, -⟩ := h.acts
  exact hacts.greets he

theorem apart (h : Reworked env s₀ event keys a done s) (he : event.settles)
    (ha : a.board.Apart) (hroom : ∀ p, a.board.Room p (a.board.exposed keys p)) :
    s.board.Apart := by
  obtain ⟨l, hacts, hle⟩ := h.acts
  refine (hacts.apart (N := a.board.exposed keys) (fun _ _ hi => ?_) (fun _ _ _ hc => ?_) rfl ha
    hroom fun p => ?_).2.1
  · exact absurd hi (s₀.not_installs_of_settles he)
  · exact absurd he (Actor.not_settles_of_consents hc)
  · have := hle p
    omega

theorem reconfigure (h : Reworked env s₀ event keys a done s) (he : event.settles)
    (hg : Greets s₀.sessions a.sessions)
    (hroom : ∀ p, a.board.Room p (a.board.exposed keys p))
    (hkeys : ∀ r, s.routes.find? (has_key key) = some r → s.remakes r = true →
      r.status = .Active ∧ key ∈ keys) :
    Reworked env s₀ event keys a (key :: done) (s.reconfigure_route env key) := by
  have hbasis := s.reconfigure_route_basis env key
  obtain ⟨l, hacts, hle⟩ := h.acts
  -- What is asked for here is paid from what was still exposed.
  obtain ⟨m, hm, hmle⟩ : ∃ m, Acts env s₀ event m s.board (s.reconfigure_route env key).board ∧
      ∀ p, m.count p + (s.reconfigure_route env key).board.exposed keys p ≤
        s.board.exposed keys p :=
    Actor.reconfigure_route_asks he (hg.trans (hacts.greets he)) hkeys
  refine ⟨(congrArg Basis.settings hbasis).trans h.settings,
    (congrArg Basis.prefer_lossless hbasis).trans h.prefer_lossless,
    ⟨m ++ l, hacts.trans hm, fun p => ?_⟩, fun r' hr' => ?_⟩
  · have h₁ := hle p
    have h₂ := hmle p
    rw [List.count_append]
    omega
  · rcases s.reconfigure_route_reshaped env r' hr' with
      ⟨r, hr, hkey, hstatus, hterms⟩ | ⟨hstatus, hpeer, ⟨r, hr, hremakes⟩, session, hs, hid⟩
    · rcases h.kept r hr with ⟨r₁, hr₁, hkey₁, hstatus₁, hterms₁⟩ | ⟨hrequesting, hnew⟩
      · refine .inl ⟨r₁, hr₁, hkey.trans hkey₁, hstatus.trans hstatus₁, fun hdone => ?_⟩
        have hne : r'.key ≠ key := fun he => hdone (he ▸ List.mem_cons_self)
        exact (hterms hne).trans (hterms₁ (hkey ▸ fun hd => hdone (List.mem_cons_of_mem _ hd)))
      · exact .inr ⟨hstatus.trans hrequesting, fun r₁ hr₁ => hkey ▸ hnew r₁ hr₁⟩
    · -- the new id is one of those there is room for
      refine .inr ⟨hstatus, fun r₁ hr₁ hsame => ?_⟩
      obtain ⟨hactive, hmem⟩ := hkeys r hr hremakes
      have hfound := List.find?_some hr
      have hrkey : r.key = key := of_decide_eq_true hfound
      have hpos : 0 < s.board.exposed keys key.peer := by
        refine List.countP_pos_iff.2 ⟨r, List.mem_of_find?_eq_some hr, decide_eq_true ?_⟩
        exact ⟨congrArg RouteKey.peer hrkey, hactive, hrkey ▸ hmem⟩
      obtain ⟨session₁, n, hs₁, hn, hnext⟩ :=
        hacts.next_route (fun _ _ => s₀.not_installs_of_settles he) hs
      have hlt : n < a.board.exposed keys key.peer := by
        have := hle key.peer
        omega
      have hfree := (hroom key.peer session₁ hs₁).2 r₁ hr₁
        ((congrArg RouteKey.peer hsame).trans hpeer)
      rw [show r₁.id = r'.id from congrArg RouteKey.id hsame, hid, hnext] at hfree
      exact hfree (iterate_mem_ids_from _ hlt)

/-- The route that is found for the key of a running stream is that stream. -/
theorem found (h : Reworked env s₀ event keys a done s) (ha : a.board.Apart) {r r₁ : Route}
    (hr₁ : r₁ ∈ a.routes) (hr : s.routes.find? (has_key r₁.key) = some r) :
    r.key = r₁.key ∧ r.status = r₁.status ∧ (r₁.key ∉ done → r.terms = r₁.terms) := by
  have hfound := List.find?_some hr
  have hkey : r.key = r₁.key := of_decide_eq_true hfound
  rcases h.kept r (List.mem_of_find?_eq_some hr) with ⟨q, hq, hkq, hstatus, hterms⟩ | ⟨_, hnew⟩
  · obtain rfl := List.inj_on_of_nodup_map ha hq hr₁ (hkq.symm.trans hkey)
    exact ⟨hkey, hstatus, fun hd => hterms (hkey ▸ hd)⟩
  · exact absurd hkey.symm (hnew r₁ hr₁)

/-- The routes of a list of keys are reconfigured in turn. Each is a running stream, and it may be
remade only where its key is among `keys`, on the terms it had at first or on later ones. -/
theorem each {α : Type} (f : α → RouteKey) (g : Actor → α → Actor)
    (hboard : ∀ s x, (g s x).board = s.board) (hbasis : ∀ s x, (g s x).basis = s.basis)
    (he : event.settles) (hg : Greets s₀.sessions a.sessions) (ha : a.board.Apart)
    (hroom : ∀ p, a.board.Room p (a.board.exposed keys p)) (ht : Greets t.sessions a.sessions)
    (xs : List α) (h : Reworked env s₀ event keys a done s) (hnodup : (xs.map f).Nodup)
    (hagrees : ∀ x ∈ xs, t.Agrees s (f x).peer)
    (hxs : ∀ x ∈ xs, ∃ r₁ ∈ a.routes, r₁.key = f x ∧ r₁.status = .Active ∧
      (f x ∈ done → f x ∈ keys) ∧ (f x ∉ done → t.remakes r₁ = true → f x ∈ keys)) :
    Reworked env s₀ event keys a ((xs.map f).reverse ++ done)
      (xs.foldl (fun s x => g (s.reconfigure_route env (f x)) x) s) := by
  induction xs generalizing s done with
  | nil => exact h
  | cons x xs ih =>
      obtain ⟨hnotin, hnodup⟩ := List.nodup_cons.1 hnodup
      obtain ⟨r₁, hr₁, hkey, hactive, hdone, hfirst⟩ := hxs x List.mem_cons_self
      have hagree := hagrees x List.mem_cons_self
      have hstep : Reworked env s₀ event keys a (f x :: done)
          (g (s.reconfigure_route env (f x)) x) := by
        refine of_board (h.reconfigure he hg hroom fun r hr hremakes => ?_) (hboard _ _)
          (congrArg Basis.settings (hbasis _ _)) (congrArg Basis.prefer_lossless (hbasis _ _))
        obtain ⟨hrkey, hstatus, hterms⟩ := h.found ha hr₁ (hkey ▸ hr)
        refine ⟨hstatus.trans hactive, ?_⟩
        -- A key met before has been accounted for; a key met first is on the terms it had at the
        -- start.
        by_cases hd : f x ∈ done
        · exact hdone hd
        · refine hfirst hd (Actor.remakes_of_agrees r₁ r ?_ (ht.trans (h.greets he))
            (congrArg RouteKey.peer hrkey) (hterms (hkey ▸ hd)) hremakes)
          rw [show r₁.peer = (f x).peer from congrArg RouteKey.peer hkey]
          exact hagree
      rw [List.foldl_cons, List.map_cons, List.reverse_cons, List.append_assoc]
      refine ih hstep hnodup (fun y hy => ?_) fun y hy => ?_
      · have hsame := (hbasis (s.reconfigure_route env (f x)) x).trans
          (s.reconfigure_route_basis env (f x))
        refine (hagrees y (List.mem_cons_of_mem _ hy)).trans (.of_basis ?_ ?_ ?_)
        · exact congrArg Basis.settings hsame
        · exact congrArg Basis.prefer_lossless hsame
        · exact congrArg (fun b : Basis => b.stabilized.has (f y).peer) hsame
      · have hne : f y ≠ f x := fun he => hnotin (he ▸ List.mem_map_of_mem hy)
        obtain ⟨q, hq, hqkey, hqactive, hqdone, hqfirst⟩ := hxs y (List.mem_cons_of_mem _ hy)
        refine ⟨q, hq, hqkey, hqactive, fun hd => ?_, fun hd => ?_⟩
        · exact hqdone ((List.mem_cons.1 hd).resolve_left hne)
        · exact hqfirst fun hd' => hd (List.mem_cons_of_mem _ hd')

/-- The running streams with some property are reconfigured. -/
theorem each_running (he : event.settles) (hg : Greets s₀.sessions a.sessions)
    (ha : a.board.Apart) (hroom : ∀ p, a.board.Room p (a.board.exposed keys p))
    (ht : Greets t.sessions a.sessions) (h : Reworked env s₀ event keys a done s)
    (changed : Route → Bool) (hchanged : ∀ r, changed r = true → r.status = .Active)
    (hagrees : ∀ r ∈ s.routes, changed r = true → t.Agrees s r.peer)
    (hkeys : ∀ r ∈ s.routes, changed r = true → ∀ r₁ ∈ a.routes, r.key = r₁.key →
      (r.key ∈ done → r.key ∈ keys) ∧
        (r.key ∉ done → r.terms = r₁.terms → t.remakes r₁ = true → r.key ∈ keys)) :
    Reworked env s₀ event keys a (((s.routes.filter changed).map Route.key).reverse ++ done)
      (s.reconfigure_each env ((s.routes.filter changed).map Route.key)) := by
  have hnodup : (((s.routes.filter changed).map Route.key).map id).Nodup := by
    rw [List.map_id]
    exact (h.apart he ha hroom).sublist (List.filter_sublist.map _)
  have hrun := each (t := t) id (fun s _ => s) (fun _ _ => rfl) (fun _ _ => rfl) he hg ha hroom ht
    ((s.routes.filter changed).map Route.key) h hnodup (fun k hk => ?_) fun k hk => ?_
  · rw [List.map_id] at hrun
    exact hrun
  · obtain ⟨r, hr, rfl⟩ := List.mem_map.1 hk
    obtain ⟨hmem, hc⟩ := List.mem_filter.1 hr
    exact hagrees r hmem hc
  · obtain ⟨r, hr, rfl⟩ := List.mem_map.1 hk
    obtain ⟨hmem, hc⟩ := List.mem_filter.1 hr
    have hactive := hchanged r hc
    -- what runs is not new
    rcases h.kept r hmem with ⟨r₁, hr₁, hkey, hstatus, hterms⟩ | ⟨hrequesting, -⟩
    · obtain ⟨hdone, hfirst⟩ := hkeys r hmem hc r₁ hr₁ hkey
      exact ⟨r₁, hr₁, hkey.symm, hstatus.symm.trans hactive, hdone,
        fun hd => hfirst hd (hterms hd)⟩
    · exact nomatch hactive.symm.trans hrequesting

end Reworked

/-! ## 5. What an event remakes -/

end

/-- A lossless stream asked for here, or one that is held on Opus. -/
def Route.watched (r : Route) : Bool :=
  r.requested_locally ∧ r.status = .Active ∧
    (r.quality_fallback.active ∨ r.profile.map (·.codec) = some Codec.PcmS16Le.id)

/-- The last second of loss moves the stream to Opus, or back. -/
def Route.falls (r : Route) : Bool := r.watched && (r.quality_fallback.update r.loss_pct).2

/-- The stream with that second taken into account. -/
def Route.weighed (r : Route) : Route :=
  if r.watched then { r with quality_fallback := (r.quality_fallback.update r.loss_pct).1 } else r

/-- What the settings want of a stream has changed. -/
def Route.retuned (old new : Settings) (r : Route) : Bool :=
  old.stream_for r.peer.to_hex ≠ new.stream_for r.peer.to_hex ∨
    (r.kind.is_mic ∧ r.kind.local_is_source ∧ old.mic ≠ new.mic)

namespace Actor

/-- A device has been on the Stable profile for long enough. -/
def hold_over (env : Env) (s : Actor) (peer : DeviceId) : Bool :=
  (s.stabilized.get peer).any fun since => STABLE_HOLD ≤ env.now - since

def let_go (s : Actor) (peer : DeviceId) : Actor :=
  { s with stabilized := s.stabilized.erase peer }

/-- The wishes that an event brings. -/
def wishes (s : Actor) (event : Event) : Actor :=
  match event with
  | .Command (.UpdateSettings settings _) => s.set_settings settings.sanitize
  | .Command (.SetDeviceProfile id profile) =>
      let device_profiles :=
        match profile.filter fun p => !p.is_empty with
        | some p => s.settings.device_profiles.insert id.to_hex p
        | none => s.settings.device_profiles.erase id.to_hex
      s.set_settings ({ s.settings with device_profiles }.sanitize)
  | .Command (.PreferLossless prefer) => { s with prefer_lossless := prefer }
  | _ => s

/-- Whether a running stream may have to be asked for again: the settings change what it should be,
or a tick does that ends the hold of its device or moves it to Opus or back. -/
def remade (env : Env) (s : Actor) (event : Event) (r : Route) : Bool :=
  match event with
  | .Command (.UpdateSettings ..) | .Command (.SetDeviceProfile ..) =>
      r.retuned s.settings (s.wishes event).settings && (s.wishes event).remakes r
  | .Command (.PreferLossless prefer) => s.prefer_lossless ≠ prefer && (s.wishes event).remakes r
  | .Tick =>
      let counted := (s.count_route env r).2
      (counted.falls && s.remakes counted.weighed) ||
        (s.hold_over env r.peer &&
          (counted.falls || (s.let_go r.peer).remakes counted.weighed))
  | _ => false

/-- How many routes a device may be asked for when a timer or a setting reaches running streams. -/
def asks_again (env : Env) (s : Actor) (event : Event) (peer : DeviceId) : Nat :=
  (s.routes.countP fun r => r.peer = peer ∧ r.status = .Active ∧ s.remade env event r) +
    match event with
    | .Tick => if s.mic_due env peer then 1 else 0
    | _ => 0

/-- The keys of some routes of an engine expose no more streams than there are such routes. -/
theorem exposed_le_count {s a : Actor} {kept : List Route} {f : Route → Route}
    (hf : ∀ r, (f r).key = r.key ∧ (f r).status = r.status) (hsub : kept.Sublist s.routes)
    (ha : a.routes = kept.map f) (hk : s.board.Apart) (q : Route → Bool) (p : DeviceId) :
    a.board.exposed ((kept.filter q).map Route.key) p ≤
      s.routes.countP fun r => r.peer = p ∧ r.status = .Active ∧ q r := by
  have hroutes : a.board.routes = kept.map f := ha
  unfold Board.exposed
  rw [hroutes, List.countP_map]
  refine le_trans (List.countP_mono_left fun r hr hcount => ?_) hsub.countP_le
  simp only [Function.comp, decide_eq_true_eq] at hcount ⊢
  obtain ⟨hpeer, hactive, hmem⟩ := hcount
  obtain ⟨r', hr', hkey⟩ := List.mem_map.1 hmem
  obtain ⟨hmem', hq⟩ := List.mem_filter.1 hr'
  have hnodup : (kept.map Route.key).Nodup := hk.sublist (hsub.map Route.key)
  obtain rfl := List.inj_on_of_nodup_map hnodup hmem' hr (hkey.trans (hf r).1)
  exact ⟨(congrArg RouteKey.peer (hf r').1).symm.trans hpeer, (hf r').2.symm.trans hactive, hq⟩

section
variable [Crypto] (env : Env) {s₀ s : Actor} {event : Event}

/-- Before any stream is asked for again, there is as much room as the event met. -/
theorem room_before {a b : Board} {N : DeviceId → Nat} (he : event.settles)
    (h : Acts env s₀ event [] a b) (ha : a.aside = []) (hk : a.Apart)
    (hroom : ∀ p, a.Room p (N p)) : b.Apart ∧ ∀ p, b.Room p (N p) := by
  have hrest := h.apart (N := N) (fun _ _ hi => absurd hi (s₀.not_installs_of_settles he))
    (fun _ _ _ hc => absurd he (not_settles_of_consents hc)) ha hk hroom fun p => by
      rw [List.count_nil]
      exact Nat.zero_le _
  exact ⟨hrest.2.1, fun p => (hrest.2.2 p).mono (by rw [List.count_nil, Nat.sub_zero])⟩

/-- The settings that `s` has are new; streams that they retune are reconfigured. -/
theorem apply_settings_asks (he : event.settles)
    (hc : event.configures s₀.board.mutes s.settings.capture.mute_local_speakers)
    (hb : s.board = { s₀.board with
      mutes := s.settings.capture.mute_local_speakers
      max_receivers := s.settings.max_receivers
      auto_mic := s.settings.desktop.auto_start_mic })
    (hw : (s₀.wishes event).sessions = s₀.sessions)
    (hagrees : ∀ peer, (s₀.wishes event).Agrees s peer)
    (hremade : ∀ r, s₀.remade env event r =
      (r.retuned s₀.settings (s₀.wishes event).settings && (s₀.wishes event).remakes r))
    (hasks : ∀ p, s₀.asks_again env event p =
      s₀.routes.countP fun r => r.peer = p ∧ r.status = .Active ∧ s₀.remade env event r)
    (hk : s₀.board.Apart) (hroom : ∀ p, s₀.board.Room p (s₀.asks_again env event p)) :
    ∃ l, (∀ p, l.count p ≤ s₀.asks_again env event p) ∧
      Acts env s₀ event l s₀.board (s.apply_settings env s₀.settings).board := by
  obtain ⟨a, hsettle, hbasis, hroutes, hboard⟩ :=
    apply_settings_settled env s₀ event s s₀.settings hc rfl hb
  obtain ⟨hka, hrooma⟩ := room_before env he hsettle rfl hk hroom
  have hg := hsettle.greets he
  generalize hkeys : (s₀.routes.filter (s₀.remade env event)).map Route.key = keys
  -- Only the streams that the event remakes are exposed, and each once, since the keys are
  -- distinct.
  have hexposed (p : DeviceId) : a.board.exposed keys p ≤ s₀.asks_again env event p := by
    rw [hasks, ← hkeys]
    exact exposed_le_count (fun r => ⟨(with_output_alike _ r).key, (with_output_alike _ r).status⟩)
      (.refl _) hroutes hk _ p
  have hall (peer : DeviceId) : (s₀.wishes event).Agrees a peer := by
    refine (hagrees peer).trans (.of_basis ?_ ?_ ?_)
    · rw [hbasis]
    · exact congrArg Basis.prefer_lossless hbasis
    · exact congrArg (fun b : Basis => b.stabilized.has peer) hbasis
  have hrun := Reworked.each_running (t := s₀.wishes event) he hg hka
    (fun p => (hrooma p).mono (hexposed p)) (hw ▸ hg) (Reworked.refl env keys a)
    (fun r =>
      let peer := r.peer.to_hex
      r.status = .Active ∧
        (s₀.settings.stream_for peer ≠ a.settings.stream_for peer ∨
          (r.kind.is_mic ∧ r.kind.local_is_source ∧ s₀.settings.mic ≠ a.settings.mic)))
    (fun r hr => (of_decide_eq_true hr).1) (fun r _ _ => hall r.peer)
    fun r hr hchanged r₁ hr₁ hkey => ⟨fun hd => absurd hd List.not_mem_nil, fun _ hterms hrem => ?_⟩
  · obtain ⟨l, hl, hle⟩ := hrun.acts
    refine ⟨l, fun p => ?_, ?_⟩
    · have h₁ := hle p
      have h₂ := hexposed p
      omega
    · rw [hboard]
      have hacts := hsettle.trans hl
      rwa [List.append_nil] at hacts
  · obtain ⟨r₀, hr₀, rfl⟩ := List.mem_map.1 (hroutes ▸ hr)
    have halike := with_output_alike s.settings.output r₀
    have hsame : (with_output s.settings.output r₀).terms = r₀.terms := by
      unfold with_output Route.terms
      split <;> rfl
    -- A stream is gone over if its own settings changed, or those of the microphone it sends.
    have hretuned : r₀.retuned s₀.settings (s₀.wishes event).settings = true := by
      have hc := (of_decide_eq_true hchanged).2
      rw [(hall _).stream, (hall r₀.peer).mic, halike.peer, halike.kind] at hc
      exact decide_eq_true hc
    have hremakes : (s₀.wishes event).remakes r₀ = true :=
      remakes_of_agrees r₀ r₁ ⟨rfl, rfl, rfl, rfl⟩ (.refl _)
        (congrArg RouteKey.peer (hkey.symm.trans halike.key)) (hterms.symm.trans hsame) hrem
    rw [halike.key, ← hkeys]
    refine List.mem_map_of_mem (List.mem_filter.2 ⟨hr₀, ?_⟩)
    rw [hremade, hretuned, hremakes]
    rfl

omit [Crypto] in
theorem save_settings_eq (c : Settings) :
    ((s.set_settings c).save_settings env).settings = c ∧
      ((s.set_settings c).save_settings env).prefer_lossless = s.prefer_lossless ∧
        ((s.set_settings c).save_settings env).stabilized = s.stabilized := by
  unfold save_settings error_notice
  split
  · exact ⟨rfl, rfl, rfl⟩
  · split <;> exact ⟨rfl, rfl, rfl⟩

variable (s)

theorem update_settings_asks (settings : Settings) (caller : Nat)
    (he : event = .Command (.UpdateSettings settings caller)) (hk : s.board.Apart)
    (hroom : ∀ p, s.board.Room p (s.asks_again env event p)) :
    ∃ l, (∀ p, l.count p ≤ s.asks_again env event p) ∧
      Acts env s event l s.board (s.update_settings env settings caller).board := by
  subst he
  unfold update_settings
  dsimp only
  rw [answer_board]
  generalize hnew : Settings.schedule_debug_logging _ s.settings.debug_logging env.now_unix = new
  have hsame (peer : String) :
      new.capture.mute_local_speakers = settings.capture.mute_local_speakers ∧
      new.stream_for peer = settings.sanitize.stream_for peer ∧
      new.mic = settings.sanitize.mic := by
    rw [← hnew]
    unfold Settings.schedule_debug_logging
    dsimp only
    split <;> exact ⟨rfl, rfl, rfl⟩
  obtain ⟨hset, hprefer, hstab⟩ := save_settings_eq env (s := s) new
  refine apply_settings_asks env (s := (s.set_settings new).save_settings env) trivial ?_ ?_ rfl
    (fun peer => ⟨?_, ?_, hprefer, congrArg (·.has peer) hstab⟩)
    (fun _ => rfl) (fun _ => rfl) hk hroom
  · rw [hset]
    exact (hsame "").1
  · rw [hset, save_settings_board]
    rfl
  · rw [hset]
    exact (hsame _).2.1
  · rw [hset]
    exact (hsame "").2.2

theorem set_device_profile_asks (id : DeviceId) (profile : Option DeviceProfile)
    (he : event = .Command (.SetDeviceProfile id profile)) (hk : s.board.Apart)
    (hroom : ∀ p, s.board.Room p (s.asks_again env event p)) :
    ∃ l, (∀ p, l.count p ≤ s.asks_again env event p) ∧
      Acts env s event l s.board (s.set_device_profile env id profile).board := by
  subst he
  unfold set_device_profile
  dsimp only
  generalize hnew : Settings.sanitize _ = new
  obtain ⟨hset, hprefer, hstab⟩ := save_settings_eq env (s := s) new
  have hmutes : new.capture.mute_local_speakers = s.settings.capture.mute_local_speakers := by
    rw [← hnew]
    rfl
  have hwish : (s.wishes (.Command (.SetDeviceProfile id profile))).settings = new := hnew
  refine apply_settings_asks env (s := (s.set_settings new).save_settings env) trivial ?_ ?_ rfl
    (fun peer => ⟨?_, ?_, hprefer, congrArg (·.has peer) hstab⟩)
    (fun _ => rfl) (fun _ => rfl) hk hroom
  · rw [hset]
    exact hmutes
  · rw [hset, save_settings_board]
    rfl
  · rw [hset, hwish]
  · rw [hset, hwish]

theorem set_prefer_lossless_asks (prefer : Bool) (he : event = .Command (.PreferLossless prefer))
    (hk : s.board.Apart) (hroom : ∀ p, s.board.Room p (s.asks_again env event p)) :
    ∃ l, (∀ p, l.count p ≤ s.asks_again env event p) ∧
      Acts env s event l s.board (s.set_prefer_lossless env prefer).board := by
  subst he
  unfold set_prefer_lossless
  split
  · exact ⟨[], fun _ => Nat.zero_le _, .refl _⟩
  · next hne =>
      have hsettles : Event.settles (.Command (.PreferLossless prefer)) := trivial
      generalize hkeys : (s.routes.filter
        (s.remade env (.Command (.PreferLossless prefer)))).map Route.key = keys
      have hexposed (p : DeviceId) : ({ s with prefer_lossless := prefer } : Actor).board.exposed
          keys p ≤ s.asks_again env (.Command (.PreferLossless prefer)) p := by
        rw [← hkeys]
        exact exposed_le_count (f := id) (fun _ => ⟨rfl, rfl⟩) (.refl _) (List.map_id _).symm hk _ p
      have hrun := Reworked.each_running (t := { s with prefer_lossless := prefer })
        (a := { s with prefer_lossless := prefer }) hsettles (.refl s.sessions) hk
        (fun p => (hroom p).mono (hexposed p)) (.refl _) (Reworked.refl env keys _)
        (fun r => r.status = .Active ∧ r.requested_locally)
        (fun r hr => (of_decide_eq_true hr).1) (fun _ _ _ => ⟨rfl, rfl, rfl, rfl⟩)
        fun r hr _ r₁ hr₁ hkey => ⟨fun hd => absurd hd List.not_mem_nil, fun _ _ hrem => ?_⟩
      · obtain ⟨l, hl, hle⟩ := hrun.acts
        refine ⟨l, fun p => ?_, hl⟩
        have h₁ := hle p
        have h₂ := hexposed p
        omega
      · rw [hkey, ← hkeys]
        refine List.mem_map_of_mem (List.mem_filter.2 ⟨hr₁, ?_⟩)
        exact Bool.and_eq_true_iff.2 ⟨decide_eq_true hne, hrem⟩

omit [Crypto] in
theorem expire_debug_logging_local_audio :
    (s.expire_debug_logging env).local_audio = s.local_audio := by
  unfold expire_debug_logging save_settings error_notice
  split
  · split
    · rfl
    · split <;> rfl
  · rfl

theorem announce_capabilities_local_audio :
    (s.announce_capabilities env).local_audio = s.local_audio := by
  have hall : ∀ (l : List (DeviceId × Session)) (f : Session → Output) (s : Actor),
      (l.foldl (fun s e => s.emit (f e.2)) s).local_audio = s.local_audio := by
    intro l f
    induction l with
    | nil => exact fun _ => rfl
    | cons e l ih => exact fun s => ih (s.emit (f e.2))
  unfold announce_capabilities
  dsimp only
  split
  · rfl
  · exact hall _ (fun session => .Send session.conn_id _) _

omit [Crypto] in
theorem expire_stable_holds_local_audio :
    (s.expire_stable_holds env).local_audio = s.local_audio := by
  unfold expire_stable_holds
  generalize (s.stabilized.pairs.filter fun e => STABLE_HOLD ≤ env.now - e.2).map Prod.fst = ids
  induction ids generalizing s with
  | nil => rfl
  | cons id ids ih =>
      refine (ih _).trans ?_
      exact congrArg Basis.local_audio (reconfigure_each_basis env
        { s with stabilized := s.stabilized.erase id, flaps := s.flaps.erase id } _)

omit [Crypto] in
theorem weighed_key (r : Route) :
    r.weighed.key = r.key ∧ r.weighed.status = r.status := by
  unfold Route.weighed
  split <;> exact ⟨rfl, rfl⟩

omit [Crypto] in
theorem count_route_key (r : Route) :
    (s.count_route env r).2.key = r.key ∧ (s.count_route env r).2.status = r.status := by
  unfold count_route
  split <;> exact ⟨rfl, rfl⟩

omit [Crypto] in
theorem active_of_falls {r : Route} (h : r.falls = true) : r.status = .Active := by
  unfold Route.falls Route.watched at h
  simp only [Bool.and_eq_true, decide_eq_true_eq] at h
  exact h.1.2.1

variable {s}

/-- `a` is the engine as a tick comes to the running streams: the routes of `kept`, with the last
second counted and weighed. The keys of those that may be remade are among `keys`. -/
structure Weighed (env : Env) (s : Actor) (kept : List Route) (keys : List RouteKey) (a : Actor) :
    Prop where
  basis : a.basis = s.basis
  routes : a.routes = kept.map fun r => (s.count_route env r).2.weighed
  greets : Greets s.sessions a.sessions
  apart : a.board.Apart
  room : ∀ p, a.board.Room p (a.board.exposed keys p)
  remade : ∀ r ∈ kept, s.remade env .Tick r = true → r.key ∈ keys

namespace Weighed

variable {env} {kept : List Route} {keys : List RouteKey} {a u : Actor} {done : List RouteKey}

omit [Crypto] in
theorem agrees (h : Weighed env s kept keys a) (hset : u.basis.settings = a.basis.settings)
    (hprefer : u.prefer_lossless = a.prefer_lossless) {t : Actor} {peer : DeviceId}
    (ht : t.basis.settings = s.basis.settings) (htp : t.prefer_lossless = s.prefer_lossless)
    (hstab : u.stabilized.has peer = t.stabilized.has peer) : t.Agrees u peer := by
  refine .of_basis ?_ ?_ hstab
  · exact (hset.trans (congrArg Basis.settings h.basis)).trans ht.symm
  · exact (hprefer.trans (congrArg Basis.prefer_lossless h.basis)).trans htp.symm

/-- Streams that fall back to Opus, or come back from it. -/
theorem fallback (h : Weighed env s kept keys a) (f : Route → String) :
    Reworked env s .Tick keys a
      ((((kept.map fun r => (s.count_route env r).2).filter Route.falls).map
        Route.key).reverse ++ [])
      (((kept.map fun r => (s.count_route env r).2).filter Route.falls).foldl
        (fun s r => (s.reconfigure_route env r.key).notice (f r)) a) := by
  have hsubset : (((kept.map fun r => (s.count_route env r).2).filter Route.falls).map
      Route.key).Nodup := by
    have hkeys : (kept.map fun r => (s.count_route env r).2).map Route.key =
        a.routes.map Route.key := by
      rw [h.routes, List.map_map, List.map_map]
      exact List.map_congr_left fun r _ => (weighed_key _).1.symm
    refine List.Nodup.sublist (List.filter_sublist.map _) ?_
    rw [hkeys]
    exact h.apart
  have hsettles : Event.settles .Tick := trivial
  refine Reworked.each (t := s) Route.key (fun s r => s.notice (f r)) (fun s r => s.notice_board _)
    (fun _ _ => rfl) hsettles h.greets h.apart h.room h.greets _ (.refl env keys a) hsubset
    (fun r _ => h.agrees rfl rfl rfl rfl ?_) fun r hr => ?_
  · exact congrArg (fun b : Basis => b.stabilized.has r.key.peer) h.basis
  · obtain ⟨hmem, hfalls⟩ := List.mem_filter.1 hr
    obtain ⟨r₀, hr₀, rfl⟩ := List.mem_map.1 hmem
    refine ⟨_, h.routes ▸ List.mem_map_of_mem hr₀, (weighed_key _).1,
      (weighed_key _).2.trans (active_of_falls hfalls), fun hd => absurd hd List.not_mem_nil,
      fun _ hremakes => ?_⟩
    rw [(s.count_route_key env r₀).1]
    refine h.remade r₀ hr₀ (Bool.or_eq_true_iff.2 (.inl ?_))
    exact Bool.and_eq_true_iff.2 ⟨hfalls, hremakes⟩

/-- The streams with a device whose hold on the Stable profile ends. -/
theorem hold (h : Weighed env s kept keys a) {id : DeviceId} (hover : s.hold_over env id = true)
    (hu : Reworked env s .Tick keys a done u)
    (hdone : ∀ k ∈ done, k.peer = id → k ∈ keys) :
    Reworked env s .Tick keys a
      (((u.routes.filter fun r => r.peer = id ∧ r.status = .Active).map Route.key).reverse ++ done)
      (({ u with stabilized := u.stabilized.erase id, flaps := u.flaps.erase id } :
        Actor).reconfigure_each env
          ((u.routes.filter fun r => r.peer = id ∧ r.status = .Active).map Route.key)) := by
  have hstep : Reworked env s .Tick keys a done
      { u with stabilized := u.stabilized.erase id, flaps := u.flaps.erase id } :=
    hu.of_board rfl rfl rfl
  have hsettles : Event.settles .Tick := trivial
  refine hstep.each_running (t := s.let_go id) hsettles h.greets h.apart h.room h.greets
    (fun r : Route => r.peer = id ∧ r.status = .Active) (fun r hr => (of_decide_eq_true hr).2)
    (fun r _ hr => ?_) fun r _ hr r₁ hr₁ hkey => ?_
  · refine h.agrees (t := s.let_go id) hstep.settings hstep.prefer_lossless rfl rfl ?_
    rw [(of_decide_eq_true hr).1]
    unfold let_go Table.has
    dsimp only
    rw [Table.get_erase_self, Table.get_erase_self]
  · have hpeer : r.peer = id := (of_decide_eq_true hr).1
    refine ⟨fun hd => hdone _ hd hpeer, fun _ _ hremakes => ?_⟩
    obtain ⟨r₀, hr₀, rfl⟩ := List.mem_map.1 (h.routes ▸ hr₁)
    have hkey₀ : r.key = r₀.key := hkey.trans ((weighed_key _).1.trans (s.count_route_key env r₀).1)
    have hpeer₀ : r₀.peer = id := (congrArg RouteKey.peer hkey₀).symm.trans hpeer
    rw [hkey₀]
    refine h.remade r₀ hr₀ (Bool.or_eq_true_iff.2 (.inr ?_))
    rw [hpeer₀, hover, hremakes, Bool.or_true]
    rfl

/-- One device after the other; a stream that fell or came back is among `keys` as well. -/
theorem holds (h : Weighed env s kept keys a) (ids : List DeviceId) (hnodup : ids.Nodup)
    (hover : ∀ id ∈ ids, s.hold_over env id = true) (hu : Reworked env s .Tick keys a done u)
    (hdone : ∀ k ∈ done, k.peer ∈ ids → k ∈ keys) :
    ∃ done', Reworked env s .Tick keys a done' (ids.foldl
      (fun s id =>
        let s := { s with stabilized := s.stabilized.erase id, flaps := s.flaps.erase id }
        let active := s.routes.filter fun r => r.peer = id ∧ r.status = .Active
        s.reconfigure_each env (active.map Route.key))
      u) := by
  induction ids generalizing u done with
  | nil => exact ⟨done, hu⟩
  | cons id ids ih =>
      obtain ⟨hid, hnodup⟩ := List.nodup_cons.1 hnodup
      have hstep := h.hold (hover id List.mem_cons_self) hu fun k hk hp =>
        hdone k hk (hp ▸ List.mem_cons_self)
      refine ih hnodup (fun id' h' => hover id' (List.mem_cons_of_mem _ h')) hstep fun k hk hp => ?_
      rcases List.mem_append.1 hk with hk | hk
      · obtain ⟨r, hr, rfl⟩ := List.mem_map.1 (List.mem_reverse.1 hk)
        have hpeer : r.peer = id := (of_decide_eq_true (List.mem_filter.1 hr).2).1
        exact absurd (hpeer ▸ hp) hid
      · exact hdone k hk (List.mem_cons_of_mem _ hp)

end Weighed

variable (s)

/-- The streams of a tick: lossless ones move to Opus and back, and devices leave the Stable
profile. -/
theorem streams_ask (hk : s.board.Apart)
    (hroom : ∀ p, s.board.Room p (s.asks_again env .Tick p)) {a : Actor} {kept : List Route}
    (hsub : kept.Sublist s.routes) (hbasis : a.basis = s.basis)
    (hroutes : a.routes = kept.map fun r => (s.count_route env r).2)
    (hacts : Acts env s .Tick [] s.board a.board) :
    ∃ l, (∀ p, l.count p ≤
        s.routes.countP fun r => r.peer = p ∧ r.status = .Active ∧ s.remade env .Tick r) ∧
      Acts env s .Tick l s.board
        ((a.update_quality_fallback env).expire_stable_holds env).board := by
  have hsettles : Event.settles .Tick := trivial
  generalize hkeys : (kept.filter (s.remade env .Tick)).map Route.key = keys
  generalize hb : a.set_routes (a.routes.map Route.weighed) = b
  have hbroutes : b.routes = kept.map fun r => (s.count_route env r).2.weighed := by
    rw [← hb]
    change a.routes.map Route.weighed = _
    rw [hroutes, List.map_map]
    rfl
  have hbacts : Acts env s .Tick [] s.board b.board := by
    rw [← hb]
    refine hacts.follow (acts_tend (alike_map fun r => ?_))
    unfold Route.weighed
    split
    · exact ⟨rfl, rfl, rfl, rfl, rfl, fun h => h, rfl, rfl, rfl, rfl, rfl, rfl, rfl, fun h => h⟩
    · exact .refl r
  have hexposed (p : DeviceId) : b.board.exposed keys p ≤
      s.routes.countP fun r => r.peer = p ∧ r.status = .Active ∧ s.remade env .Tick r := by
    rw [← hkeys]
    refine exposed_le_count (fun r => ⟨?_, ?_⟩) hsub hbroutes hk _ p
    · exact (weighed_key _).1.trans (s.count_route_key env r).1
    · exact (weighed_key _).2.trans (s.count_route_key env r).2
  obtain ⟨hapart, hroomb⟩ := room_before env hsettles hbacts rfl hk hroom
  have h : Weighed env s kept keys b :=
    { basis := by
        rw [← hb]
        exact hbasis
      routes := hbroutes
      greets := hbacts.greets hsettles
      apart := hapart
      room := fun p => (hroomb p).mono ((hexposed p).trans (Nat.le_add_right _ _))
      remade := fun r hr hremade => by
        rw [← hkeys]
        exact List.mem_map_of_mem (List.mem_filter.2 ⟨hr, hremade⟩) }
  have hfallback := h.fallback fun r =>
    if r.quality_fallback.active then "notice.qualityRestored" else "notice.qualityFallback"
  rw [← hroutes] at hfallback
  have hupdate : a.update_quality_fallback env = (a.routes.filter Route.falls).foldl
      (fun s r => (s.reconfigure_route env r.key).notice
        (if r.quality_fallback.active then "notice.qualityRestored" else "notice.qualityFallback"))
      b := by
    rw [← hb]
    rfl
  rw [← hupdate] at hfallback
  have hstab : (a.update_quality_fallback env).stabilized = s.stabilized :=
    congrArg Basis.stabilized ((update_quality_fallback_basis env a).trans hbasis)
  have hover : ∀ id ∈ (s.stabilized.pairs.filter fun e => STABLE_HOLD ≤ env.now - e.2).map Prod.fst,
      s.hold_over env id = true := by
    intro id hid
    obtain ⟨⟨id', since⟩, hmem, rfl⟩ := List.mem_map.1 hid
    obtain ⟨hpair, hover⟩ := List.mem_filter.1 hmem
    unfold hold_over
    rw [Table.get_eq_some_iff.2 hpair, Option.any_some]
    exact hover
  -- A stream that the fallback has gone over is met again when the hold of its device ends; it is
  -- exposed for that already.
  have hfell : ∀ k ∈ ((a.routes.filter Route.falls).map Route.key).reverse ++ [],
      k.peer ∈ (s.stabilized.pairs.filter fun e => STABLE_HOLD ≤ env.now - e.2).map Prod.fst →
        k ∈ keys := by
    intro k hk hp
    rw [List.append_nil] at hk
    obtain ⟨r, hr, rfl⟩ := List.mem_map.1 (List.mem_reverse.1 hk)
    obtain ⟨hmem, hfalls⟩ := List.mem_filter.1 hr
    obtain ⟨r₀, hr₀, rfl⟩ := List.mem_map.1 (hroutes ▸ hmem)
    rw [(s.count_route_key env r₀).1] at hp ⊢
    refine h.remade r₀ hr₀ (Bool.or_eq_true_iff.2 (.inr ?_))
    rw [hover r₀.peer hp, hfalls]
    rfl
  obtain ⟨done, hrun⟩ := h.holds (((s.stabilized.pairs.filter fun e =>
      STABLE_HOLD ≤ env.now - e.2).map Prod.fst))
    (List.Nodup.sublist (List.filter_sublist.map _) s.stabilized.nodup_keys) hover hfallback hfell
  obtain ⟨l, hl, hle⟩ := hrun.acts
  refine ⟨l, fun p => ?_, ?_⟩
  · have h₁ := hle p
    have h₂ := hexposed p
    omega
  · unfold expire_stable_holds
    dsimp only
    rw [hstab]
    have hall := hbacts.trans hl
    rwa [List.append_nil] at hall

omit [Crypto] in
/-- The microphone that is due after the streams was due before. -/
theorem mic_due_of {u : Actor} {peer : DeviceId} (hauto : u.board.auto_mic = s.board.auto_mic)
    (hlocal : u.local_audio = s.local_audio) (hg : Greets s.sessions u.sessions)
    (h : u.mic_due env peer = true) : s.mic_due env peer = true := by
  change u.settings.desktop.auto_start_mic = s.settings.desktop.auto_start_mic at hauto
  unfold mic_due at h ⊢
  rw [hauto, hlocal] at h
  obtain ⟨hrest, hoffers⟩ := Bool.and_eq_true_iff.1 h
  obtain ⟨session, hs, hoffers⟩ := (Option.any_eq_true _ _).1 hoffers
  obtain ⟨session₀, hs₀, hh⟩ := hg peer session hs
  rw [hrest, hs₀, Option.any_some, hh, hoffers]
  rfl

theorem tick_asks (hk : s.board.Apart) (hroom : ∀ p, s.board.Room p (s.asks_again env .Tick p)) :
    ∃ l, (∀ p, l.count p ≤ s.asks_again env .Tick p) ∧
      Acts env s .Tick l s.board (s.tick env).board := by
  have hsettles : Event.settles .Tick := trivial
  obtain ⟨a, hacts, hbasis, ⟨kept, hsub, hroutes⟩, htick⟩ := s.tick_counted env
  obtain ⟨l, hle, hl⟩ := streams_ask env s hk hroom hsub hbasis hroutes hacts
  rw [htick]
  have hlocal : ((a.update_quality_fallback env).expire_stable_holds env).local_audio =
      s.local_audio :=
    (expire_stable_holds_local_audio env _).trans (congrArg Basis.local_audio
      ((update_quality_fallback_basis env a).trans hbasis))
  generalize (a.update_quality_fallback env).expire_stable_holds env = t at hl hlocal ⊢
  have hb : ((t.expire_debug_logging env).announce_capabilities env).board = t.board := by
    rw [announce_capabilities_board, expire_debug_logging_board]
  have hlocal' : ((t.expire_debug_logging env).announce_capabilities env).local_audio =
      s.local_audio := by
    rw [announce_capabilities_local_audio, expire_debug_logging_local_audio, hlocal]
  generalize (t.expire_debug_logging env).announce_capabilities env = u at hb hlocal' ⊢
  obtain ⟨m, hm, hmacts⟩ := check_virtual_mic_use_acts env s .Tick u
  have hall := Acts.trans (hl.trans (hb ▸ hmacts)) (tick_end_acts env _)
  rw [List.nil_append] at hall
  refine ⟨m ++ l, fun p => ?_, hall⟩
  -- The virtual microphone asks for one stream more, and decides by what the tick began with.
  have hmic : m.count p ≤ if s.mic_due env p then 1 else 0 := by
    rcases hm with rfl | ⟨peer, hdue, rfl⟩
    · exact Nat.zero_le _
    · by_cases hp : peer = p
      · subst hp
        have hauto : u.board.auto_mic = s.board.auto_mic := by
          rw [hb]
          exact hl.auto_mic fun _ _ => id
        have hg : Greets s.sessions u.sessions := by
          rw [show u.sessions = t.sessions from congrArg Board.sessions hb]
          exact hl.greets hsettles
        rw [mic_due_of env s hauto hlocal' hg hdue, List.count_singleton_self]
        exact Nat.le_refl 1
      · rw [List.count_singleton, if_neg (by simpa using hp)]
        exact Nat.zero_le _
  rw [List.count_append, Nat.add_comm]
  exact Nat.add_le_add (hle p) hmic

/-- A timer or a setting asks a device for no more routes than are remade, as long as the ids for
them are free. -/
theorem settles_asks (he : event.settles) (hk : s.board.Apart)
    (hroom : ∀ p, s.board.Room p (s.asks_again env event p)) :
    ∃ l, (∀ p, l.count p ≤ s.asks_again env event p) ∧
      Acts env s event l s.board (s.handle env event).board := by
  cases event with
  | Command cmd =>
      cases cmd with
      | UpdateSettings settings caller =>
          exact update_settings_asks env s settings caller rfl hk hroom
      | SetDeviceProfile id profile => exact set_device_profile_asks env s id profile rfl hk hroom
      | PreferLossless prefer => exact set_prefer_lossless_asks env s prefer rfl hk hroom
      | _ => exact he.elim
  | Tick => exact tick_asks env s hk hroom
  | _ => exact he.elim

end

end Actor

end SoundPush
