/-
`RouteKeys` -- one route for each key.

The side that asks for a route chooses its id: even ids where it dialed, odd ids
where it was dialed. A request from a peer is checked against the table. An id
given out here is not, and nothing holds a peer to its half of the ids. So keys
stay unique as long as each id given out is free.

Which ids an event gives out can be told before it is handled. `Remade` counts
those of a tick and of new settings. Here it is those of a resume: the kinds a
device is asked for again are the ones that can be started by themselves, in
turn, while there is a receiver left for them. `keys_unique` is about runs.
-/
import SoundPush.Engine.Remade
import SoundPush.Engine.Disconnect

set_option autoImplicit false

namespace SoundPush

/-! ## 1. What a resume asks for -/

namespace Actor

section
variable (env : Env) (s : Actor) (peer : DeviceId)

instance (kind : RouteKind) (replace : Bool) : Decidable (s.starts env peer kind replace) :=
  inferInstanceAs <| Decidable <|
    (∀ r ∈ s.routes, r.peer = peer → r.kind = kind → r.status = .Stopped) ∧
      s.check_local_capability env kind = none ∧
      (replace = true ∨ s.feed_in_the_way peer kind = none)

/-- How many of these kinds feed a peer from the source of `kind`. -/
def receivers_beside (asked : List RouteKind) (kind : RouteKind) : Nat :=
  asked.countP fun k => k.local_is_source ∧ k.endpoints.1 = kind.endpoints.1

/-- Whether a device can be asked for a kind of route, having been asked for these. -/
def starts_beside (asked : List RouteKind) (kind : RouteKind) : Prop :=
  s.starts env peer kind false ∧ kind ∉ asked ∧
    (kind.local_is_source = true →
      s.receivers_of kind.endpoints.1 + receivers_beside asked kind < s.settings.max_receivers)

instance (asked : List RouteKind) (kind : RouteKind) :
    Decidable (s.starts_beside env peer asked kind) :=
  inferInstanceAs <| Decidable <|
    s.starts env peer kind false ∧ kind ∉ asked ∧
      (kind.local_is_source = true →
        s.receivers_of kind.endpoints.1 + receivers_beside asked kind < s.settings.max_receivers)

/-- The kinds that a device is asked for, having been asked for `asked`, when it is to be asked for
`kinds` in turn. -/
def asked_in_turn (asked kinds : List RouteKind) : List RouteKind :=
  kinds.foldl (fun asked kind =>
    if s.starts_beside env peer asked kind then asked ++ [kind] else asked) asked

end

variable {env : Env} {s t : Actor} {peer : DeviceId}

theorem starts_beside.mono {asked more : List RouteKind} {kind : RouteKind}
    (h : s.starts_beside env peer (asked ++ more) kind) : s.starts_beside env peer asked kind := by
  obtain ⟨hstarts, hnew, hroom⟩ := h
  refine ⟨hstarts, fun hk => hnew (List.mem_append_left _ hk), fun hsource => ?_⟩
  have := hroom hsource
  unfold receivers_beside at this ⊢
  rw [List.countP_append] at this
  omega

/-- Only the receivers of a source change while routes are asked for. -/
theorem check_local_capability_congr {kind : RouteKind}
    (hcaps : t.local_capabilities env = s.local_capabilities env)
    (hroom : kind.local_is_source = true →
      t.receivers_of kind.endpoints.1 < t.settings.max_receivers)
    (h : s.check_local_capability env kind = none) : t.check_local_capability env kind = none := by
  have hfull : ¬ (kind.local_is_source = true ∧
      s.settings.max_receivers ≤ s.receivers_of kind.endpoints.1) := by
    intro hfull
    have := s.receivers_of_check env h hfull.1
    omega
  have hfree : ¬ (kind.local_is_source = true ∧
      t.settings.max_receivers ≤ t.receivers_of kind.endpoints.1) := by
    intro hfull
    have := hroom hfull.1
    omega
  unfold check_local_capability at h ⊢
  dsimp only at h ⊢
  rw [if_neg hfull] at h
  rw [if_neg hfree, hcaps]
  exact h

theorem feed_in_the_way_eq_none {kind : RouteKind} :
    s.feed_in_the_way peer kind = none ↔
      (kind = .ReceiveMicToVirtualMic → ∀ r ∈ s.routes, r.peer ≠ peer → r.feeds = false) := by
  unfold feed_in_the_way
  by_cases hk : kind = .ReceiveMicToVirtualMic
  · rw [if_pos hk]
    unfold virtual_mic_feed
    rw [Option.map_eq_none_iff, List.find?_eq_none]
    unfold Route.feeds
    simp only [hk, decide_eq_true_eq, decide_eq_false_iff_not, Option.some.injEq, ne_eq,
      true_implies]
    grind
  · simp [hk]

/-- Where a resume stands once a device has been asked for routes of the kinds `asked`,
and the routes `back` have been put back. It began at `s`, with `paused` set aside and
`next` the next id. -/
structure Resuming (env : Env) (peer : DeviceId) (s : Actor) (paused : List Route) (next : UInt8)
    (asked : List RouteKind) (back : List Route) (st : Actor × List Route) : Prop where
  settings : st.1.basis.settings = s.basis.settings
  next_route : ∃ session, st.1.sessions.get peer = some session ∧
    session.next_route = next_id^[asked.length] next
  routes : ∃ requests l : List Route, requests.map Route.kind = asked ∧
    requests.map Route.key = (ids_from next asked.length).map (RouteKey.mk peer) ∧
    (∀ r ∈ requests, r.status = .Requesting) ∧ l.Perm (s.routes ++ requests ++ back) ∧
    List.Forall₂ Route.Alike l st.1.routes
  paused : (back ++ st.2).Perm paused
  back : ∀ r ∈ back, r.kind ∉ asked ∧ ¬ s.starts_beside env peer asked r.kind ∧
    ∀ q ∈ s.routes, q.peer = peer → q.kind ≠ r.kind

namespace Resuming

variable {paused : List Route} {next : UInt8} {asked : List RouteKind} {back : List Route}
  {st : Actor × List Route}

theorem exists_left (h : Resuming env peer s paused next asked back st) {r' : Route}
    (hr' : r' ∈ st.1.routes) :
    (∃ r ∈ s.routes, r.Alike r') ∨
      (r'.peer = peer ∧ r'.kind ∈ asked ∧ r'.status = .Requesting) ∨ ∃ r ∈ back, r.Alike r' := by
  obtain ⟨requests, l, hkinds, hkeys, hstatus, hperm, hall⟩ := h.routes
  obtain ⟨r, hr, halike⟩ := hall.exists_left hr'
  rcases List.mem_append.1 (hperm.mem_iff.1 hr) with hr | hr
  · rcases List.mem_append.1 hr with hr | hr
    · exact .inl ⟨r, hr, halike⟩
    · right
      left
      have hkey : r.key ∈ (ids_from next asked.length).map (RouteKey.mk peer) := by
        rw [← hkeys]
        exact List.mem_map_of_mem hr
      obtain ⟨id, -, hid⟩ := List.mem_map.1 hkey
      refine ⟨?_, ?_, halike.status.trans (hstatus r hr)⟩
      · rw [halike.peer]
        exact (congrArg RouteKey.peer hid).symm
      · rw [halike.kind, ← hkinds]
        exact List.mem_map_of_mem hr
  · exact .inr (.inr ⟨r, hr, halike⟩)

theorem exists_right (h : Resuming env peer s paused next asked back st) {r : Route}
    (hr : r ∈ s.routes ∨ r ∈ back) : ∃ r' ∈ st.1.routes, r.Alike r' := by
  obtain ⟨requests, l, -, -, -, hperm, hall⟩ := h.routes
  refine hall.exists_right (hperm.mem_iff.2 ?_)
  rcases hr with hr | hr
  · exact List.mem_append_left _ (List.mem_append_left _ hr)
  · exact List.mem_append_right _ hr

theorem exists_asked (h : Resuming env peer s paused next asked back st) {kind : RouteKind}
    (hk : kind ∈ asked) :
    ∃ r' ∈ st.1.routes, r'.peer = peer ∧ r'.kind = kind ∧ r'.status = .Requesting := by
  obtain ⟨requests, l, hkinds, hkeys, hstatus, hperm, hall⟩ := h.routes
  rw [← hkinds] at hk
  obtain ⟨r, hr, hkind⟩ := List.mem_map.1 hk
  obtain ⟨r', hr', halike⟩ := hall.exists_right
    (hperm.mem_iff.2 (List.mem_append_left _ (List.mem_append_right _ hr)))
  have hkey : r.key ∈ (ids_from next asked.length).map (RouteKey.mk peer) := by
    rw [← hkeys]
    exact List.mem_map_of_mem hr
  obtain ⟨id, -, hid⟩ := List.mem_map.1 hkey
  refine ⟨r', hr', ?_, halike.kind.trans hkind, halike.status.trans (hstatus r hr)⟩
  rw [halike.peer]
  exact (congrArg RouteKey.peer hid).symm

/-- Each request takes a receiver; a route that is put back takes none. -/
theorem receivers_of (h : Resuming env peer s paused next asked back st)
    (hpaused : ∀ r ∈ paused, r.peer = peer ∧ r.status = .Paused) (kind : RouteKind) :
    st.1.receivers_of kind.endpoints.1 =
      s.receivers_of kind.endpoints.1 + receivers_beside asked kind := by
  obtain ⟨requests, l, hkinds, -, hstatus, hperm, hall⟩ := h.routes
  let takes (r : Route) : Bool :=
    r.status ≠ .Stopped ∧ r.status ≠ .Paused ∧ r.kind.local_is_source ∧
      r.kind.endpoints.1 = kind.endpoints.1
  have hsame : st.1.routes.countP takes = l.countP takes := by
    have hmap : st.1.routes.map takes = l.map takes := by
      refine List.Forall₂.map_eq (fun r r' halike => ?_) hall
      simp only [takes, halike.status, halike.kind]
    have hcount (routes : List Route) : routes.countP takes = (routes.map takes).count true := by
      rw [List.count_eq_countP, List.countP_map]
      congr 1
      funext r
      simp
    rw [hcount, hmap, ← hcount]
  have hback : back.countP takes = 0 := by
    refine List.countP_eq_zero.2 fun r hr => ?_
    have := (hpaused r (h.paused.subset (List.mem_append_left _ hr))).2
    simp [takes, this]
  have hrequests : requests.countP takes = receivers_beside asked kind := by
    unfold receivers_beside
    rw [← hkinds, List.countP_map]
    refine List.countP_congr fun r hr => ?_
    simp [takes, hstatus r hr]
  calc st.1.routes.countP takes = l.countP takes := hsame
    _ = (s.routes ++ requests ++ back).countP takes := hperm.countP_eq takes
    _ = s.routes.countP takes + receivers_beside asked kind := by
        rw [List.countP_append, List.countP_append, hback, hrequests, Nat.add_zero]

/-- A kind of route can be asked for now if and only if it could from the start, and there is still
a receiver for it. -/
theorem starts_iff (h : Resuming env peer s paused next asked back st)
    (hpaused : ∀ r ∈ paused, r.peer = peer ∧ r.status = .Paused) (kind : RouteKind) :
    st.1.starts env peer kind false ↔ s.starts_beside env peer asked kind := by
  have hmax : st.1.basis.settings.max_receivers = s.basis.settings.max_receivers := by
    rw [h.settings]
  have hdevice : st.1.basis.settings.desktop.virtual_mic_device =
      s.basis.settings.desktop.virtual_mic_device := by
    rw [h.settings]
  change st.1.settings.max_receivers = s.settings.max_receivers at hmax
  change st.1.settings.desktop.virtual_mic_device =
    s.settings.desktop.virtual_mic_device at hdevice
  have hcaps : st.1.local_capabilities env = s.local_capabilities env := by
    unfold local_capabilities virtual_mic_target
    rw [hdevice]
  have hreceivers := h.receivers_of hpaused kind
  -- Both directions go through the table of the resume: every route in it is one from the start,
  -- one asked for since, or one put back.
  constructor
  · rintro ⟨hnew, hcap, hfeed⟩
    have hfeed := feed_in_the_way_eq_none.1 (hfeed.resolve_left Bool.false_ne_true)
    have hroom (hsource : kind.local_is_source = true) :
        s.receivers_of kind.endpoints.1 + receivers_beside asked kind <
          s.settings.max_receivers := by
      have := st.1.receivers_of_check env hcap hsource
      omega
    refine ⟨⟨fun r hr hp hk => ?_, ?_, .inr (feed_in_the_way_eq_none.2 fun hk r hr hp => ?_)⟩,
      fun hk => ?_, hroom⟩
    · obtain ⟨r', hr', halike⟩ := h.exists_right (.inl hr)
      rw [← halike.status]
      exact hnew r' hr' (halike.peer.trans hp) (halike.kind.trans hk)
    · refine check_local_capability_congr hcaps.symm (fun hsource => ?_) hcap
      have := hroom hsource
      omega
    · obtain ⟨r', hr', halike⟩ := h.exists_right (.inl hr)
      have hfree := hfeed hk r' hr' (by rwa [halike.peer])
      unfold Route.feeds at hfree ⊢
      rwa [halike.kind, halike.status] at hfree
    · -- a route of this kind has been asked for, and it is not stopped
      obtain ⟨r', hr', hp, hkind, hstatus⟩ := h.exists_asked hk
      have := hnew r' hr' hp hkind
      rw [hstatus] at this
      cases this
  · intro hbeside
    have ⟨⟨hnew, hcap, hfeed⟩, hasked, hroom⟩ := hbeside
    have hfeed := feed_in_the_way_eq_none.1 (hfeed.resolve_left Bool.false_ne_true)
    refine ⟨fun r' hr' hp hk => ?_, ?_, .inr (feed_in_the_way_eq_none.2 fun hk r' hr' hp => ?_)⟩
    · rcases h.exists_left hr' with ⟨r, hr, halike⟩ | ⟨-, hin, -⟩ | ⟨r, hr, halike⟩
      · rw [halike.status]
        exact hnew r hr (halike.peer.symm.trans hp) (halike.kind.symm.trans hk)
      · exact absurd (hk ▸ hin) hasked
      · refine absurd hbeside ?_
        rw [← hk, halike.kind]
        exact (h.back r hr).2.1
    · refine check_local_capability_congr hcaps (fun hsource => ?_) hcap
      have := hroom hsource
      omega
    · rcases h.exists_left hr' with ⟨r, hr, halike⟩ | ⟨hpeer, -, -⟩ | ⟨r, hr, halike⟩
      · have hfree := hfeed hk r hr (by rwa [← halike.peer])
        unfold Route.feeds at hfree ⊢
        rwa [halike.kind, halike.status]
      · exact absurd hpeer hp
      · have := (hpaused r (h.paused.subset (List.mem_append_left _ hr))).1
        exact absurd (halike.peer.trans this) hp

/-- Only how a route goes on has changed. -/
theorem turned (h : Resuming env peer s paused next asked back st) {routes : List Route}
    (hturned : List.Forall₂ Route.Alike st.1.routes routes) :
    Resuming env peer s paused next asked back (st.1.set_routes routes, st.2) := by
  obtain ⟨requests, l, hkinds, hkeys, hstatus, hperm, hall⟩ := h.routes
  refine ⟨h.settings, h.next_route, ⟨requests, l, hkinds, hkeys, hstatus, hperm, ?_⟩, h.paused,
    h.back⟩
  exact List.Forall₂.trans_of (fun ha hb => ha.trans hb) hall hturned

/-- The device is asked for one more kind of route. -/
theorem request (h : Resuming env peer s paused next asked back st)
    (hpaused : ∀ r ∈ paused, r.peer = peer ∧ r.status = .Paused) {kind : RouteKind}
    (hbeside : s.starts_beside env peer asked kind) :
    Resuming env peer s paused next (asked ++ [kind]) back
        (st.1.start_route env peer kind false .dropped, st.2) ∧
      ∃ r ∈ (st.1.start_route env peer kind false .dropped).routes,
        r.peer = peer ∧ r.kind = kind := by
  obtain ⟨session, hsession, hnext⟩ := h.next_route
  have hstarts := (h.starts_iff hpaused kind).2 hbeside
  rcases st.1.start_route_board env peer kind .dropped with ⟨-, hno⟩ | ⟨session', r, hs', -, hr, hb⟩
  · rw [hno hstarts] at hsession
    cases hsession
  rw [hs'] at hsession
  obtain rfl := Option.some_inj.1 hsession
  have hroutes : (st.1.start_route env peer kind false .dropped).routes = st.1.routes ++ [r] :=
    congrArg Board.routes hb
  have hsessions : (st.1.start_route env peer kind false .dropped).sessions =
      st.1.sessions.insert peer session'.alloc_route.1 := congrArg Board.sessions hb
  -- The new request is the next of the list, with the next id and the next kind.
  obtain ⟨requests, l, hkinds, hkeys, hstatus, hperm, hall⟩ := h.routes
  refine ⟨⟨?_, ⟨session'.alloc_route.1, ?_, ?_⟩,
    ⟨requests ++ [r], l ++ [r], ?_, ?_, ?_, ?_, ?_⟩, h.paused, fun q hq => ?_⟩, r, ?_, hr.peer,
    hr.kind⟩
  · dsimp only
    rw [start_route_basis]
    exact h.settings
  · dsimp only
    rw [hsessions]
    exact Table.get_insert_self _ _ _
  · rw [List.length_append, List.length_singleton, Function.iterate_succ_apply', ← hnext]
    rfl
  · rw [List.map_append, hkinds, List.map_singleton, hr.kind]
  · rw [List.length_append, List.length_singleton, ids_from_succ, List.map_append, List.map_append,
      hkeys, ← hnext]
    exact congrArg (_ ++ [·]) (congrArg₂ RouteKey.mk hr.peer hr.id)
  · intro q hq
    rcases List.mem_append.1 hq with hq | hq
    · exact hstatus q hq
    · rw [List.mem_singleton.1 hq]
      exact hr.status
  · -- the request goes before what was put back
    have hlast := hperm.append_right [r]
    rw [List.append_assoc, List.append_assoc] at hlast
    rw [List.append_assoc, List.append_assoc]
    exact hlast.trans ((List.perm_append_comm.append_left requests).append_left s.routes)
  · dsimp only
    rw [hroutes]
    exact List.rel_append hall (.cons (Route.Alike.refl r) .nil)
  · obtain ⟨hnew, hnot, hnone⟩ := h.back q hq
    refine ⟨fun hin => ?_, fun hstarts => hnot hstarts.mono, hnone⟩
    rcases List.mem_append.1 hin with hin | hin
    · exact hnew hin
    · rw [List.mem_singleton.1 hin] at hnot
      exact hnot hbeside
  · rw [hroutes]
    exact List.mem_append_right _ (List.mem_singleton_self r)

/-- The device is not asked: nothing changes. -/
theorem no_request (h : Resuming env peer s paused next asked back st)
    (hpaused : ∀ r ∈ paused, r.peer = peer ∧ r.status = .Paused) {kind : RouteKind}
    (hbeside : ¬ s.starts_beside env peer asked kind) :
    Resuming env peer s paused next asked back
      (st.1.start_route env peer kind false .dropped, st.2) := by
  have hstarts := mt (h.starts_iff hpaused kind).1 hbeside
  have hb := st.1.start_route_keeping_none env .dropped .default hstarts
  have hroutes : (st.1.start_route env peer kind false .dropped).routes = st.1.routes :=
    congrArg Board.routes hb
  have hsessions : (st.1.start_route env peer kind false .dropped).sessions = st.1.sessions :=
    congrArg Board.sessions hb
  refine ⟨?_, ?_, ?_, h.paused, h.back⟩
  · dsimp only
    rw [start_route_basis]
    exact h.settings
  · dsimp only
    rw [hsessions]
    exact h.next_route
  · dsimp only
    rw [hroutes]
    exact h.routes

/-- A paused route is put back, since there is no other of its kind. -/
theorem put_back (h : Resuming env peer s paused next asked back st) {kind : RouteKind}
    (hbeside : ¬ s.starts_beside env peer asked kind)
    (hnone : ∀ r ∈ st.1.routes, r.peer = peer → r.kind ≠ kind) {route : Route} {rest : List Route}
    (hrest : st.2.remove_first (fun r => r.kind = kind) = some (route, rest)) :
    Resuming env peer s paused next asked (back ++ [route])
      (st.1.set_routes (st.1.routes ++ [route]), rest) := by
  have hkind : route.kind = kind := of_decide_eq_true (List.mem_of_remove_first hrest).2
  obtain ⟨requests, l, hkinds, hkeys, hstatus, hperm, hall⟩ := h.routes
  refine ⟨h.settings, h.next_route, ⟨requests, l ++ [route], hkinds, hkeys, hstatus, ?_, ?_⟩, ?_,
    fun r hr => ?_⟩
  · rw [← List.append_assoc]
    exact hperm.append_right [route]
  · exact List.rel_append hall (.cons (Route.Alike.refl route) .nil)
  · have hout := (List.perm_of_remove_first hrest).append_left back
    rw [List.append_assoc]
    exact hout.symm.trans h.paused
  · rcases List.mem_append.1 hr with hr | hr
    · exact h.back r hr
    · rw [List.mem_singleton.1 hr, hkind]
      refine ⟨fun hin => ?_, hbeside, fun q hq hp hk => ?_⟩
      · obtain ⟨r', hr', hp, hk, -⟩ := h.exists_asked hin
        exact hnone r' hr' hp hk
      · obtain ⟨q', hq', halike⟩ := h.exists_right (.inl hq)
        exact hnone q' hq' (halike.peer.trans hp) (halike.kind.trans hk)

theorem resume_kind (h : Resuming env peer s paused next asked back st)
    (hpaused : ∀ r ∈ paused, r.peer = peer ∧ r.status = .Paused) (kind : RouteKind) :
    ∃ back', Resuming env peer s paused next (s.asked_in_turn env peer asked [kind]) back'
      (resume_kind env peer st kind) := by
  obtain ⟨t, waiting⟩ := st
  by_cases hbeside : s.starts_beside env peer asked kind
  · -- the request is the last route of its kind, so it is kept running as it is saved
    have hasked : s.asked_in_turn env peer asked [kind] = asked ++ [kind] := if_pos hbeside
    obtain ⟨hstarted, r, hr, hp, hk⟩ := h.request hpaused hbeside
    rw [hasked]
    refine ⟨back, ?_⟩
    unfold Actor.resume_kind
    dsimp only at hstarted hr ⊢
    rw [if_pos (List.any_eq_true.2 ⟨r, hr, decide_eq_true ⟨hp, hk⟩⟩)]
    exact hstarted.turned (alike_keep_running _ _ _)
  · have hasked : s.asked_in_turn env peer asked [kind] = asked := if_neg hbeside
    have hsame := h.no_request hpaused hbeside
    rw [hasked]
    unfold Actor.resume_kind
    dsimp only at hsame ⊢
    generalize t.start_route env peer kind false .dropped = t' at hsame ⊢
    split
    · exact ⟨back, hsame.turned (alike_keep_running _ _ _)⟩
    · next hany =>
        have hnone : ∀ r ∈ t'.routes, r.peer = peer → r.kind ≠ kind := fun r hr hp hk =>
          hany (List.any_eq_true.2 ⟨r, hr, decide_eq_true ⟨hp, hk⟩⟩)
        split
        · next route rest hrest => exact ⟨back ++ [route], hsame.put_back hbeside hnone hrest⟩
        · exact ⟨back, hsame⟩

theorem resume_each (h : Resuming env peer s paused next asked back st)
    (hpaused : ∀ r ∈ paused, r.peer = peer ∧ r.status = .Paused) (kinds : List RouteKind) :
    ∃ back', Resuming env peer s paused next (s.asked_in_turn env peer asked kinds) back'
      (kinds.foldl (Actor.resume_kind env peer) st) := by
  induction kinds generalizing asked back st with
  | nil => exact ⟨back, h⟩
  | cons kind kinds ih =>
      obtain ⟨back', hstep⟩ := h.resume_kind hpaused kind
      exact ih hstep

/-- Keys are apart if they were before, and each id given out is that of no route of the device. -/
theorem apart (h : Resuming env peer s paused next asked back st)
    (hkeys : ((s.routes ++ paused).map Route.key).Nodup) (hids : (ids_from next asked.length).Nodup)
    (hroutes : ∀ r ∈ s.routes, r.peer = peer → r.id ∉ ids_from next asked.length)
    (hback : ∀ r ∈ back, r.id ∉ ids_from next asked.length) : st.1.board.Apart := by
  obtain ⟨requests, l, -, hrequests, -, hperm, hall⟩ := h.routes
  have hasked : (requests.map Route.key).Nodup := by
    rw [hrequests]
    exact hids.map fun id id' he => congrArg RouteKey.id he
  have hrest : ((s.routes ++ back).map Route.key).Nodup := by
    have hwhole : ((s.routes ++ (back ++ st.2)).map Route.key).Nodup :=
      ((h.paused.append_left s.routes).map Route.key).nodup_iff.2 hkeys
    exact hwhole.sublist (((List.sublist_append_left back st.2).append_left s.routes).map Route.key)
  -- a request has the key of no other route: they differ in the peer or in the id
  have hnew : ∀ r ∈ s.routes ++ back, r.key ∉ requests.map Route.key := by
    intro r hr hkey
    rw [hrequests] at hkey
    obtain ⟨id, hid, hkey⟩ := List.mem_map.1 hkey
    have hp : r.peer = peer := (congrArg RouteKey.peer hkey).symm
    have he : r.id = id := (congrArg RouteKey.id hkey).symm
    rw [← he] at hid
    rcases List.mem_append.1 hr with hr | hr
    · exact hroutes r hr hp hid
    · exact hback r hr hid
  have hall : (st.1.routes.map Route.key).Perm
      ((s.routes ++ back).map Route.key ++ requests.map Route.key) := by
    rw [hall.map_eq fun _ _ halike => halike.key, ← List.map_append]
    refine (hperm.trans ?_).map Route.key
    rw [List.append_assoc, List.append_assoc]
    exact List.perm_append_comm.append_left s.routes
  refine hall.nodup_iff.2 (List.nodup_append.2 ⟨hrest, hasked, ?_⟩)
  rintro k hk k' hk' rfl
  obtain ⟨r, hr, rfl⟩ := List.mem_map.1 hk
  exact hnew r hr hk'

end Resuming

section
variable (env : Env) (s : Actor) (peer : DeviceId)

/-- The kinds of route that a device is asked for when its routes are resumed. -/
def asked_again : List RouteKind :=
  (s.set_aside peer).1.asked_in_turn env peer [] (s.resumed_kinds peer)

/-- Resuming the routes of a device gives out ids that are distinct, and no route of the device has
one of them that is in the table, or that stays paused as the only one of its kind. -/
structure ResumesApart : Prop where
  room : (s.set_aside peer).1.board.Room peer (s.asked_again env peer).length
  waiting : ∀ route ∈ (s.set_aside peer).2, route.kind ∉ s.asked_again env peer →
    (∀ r ∈ (s.set_aside peer).1.routes, r.peer = peer → r.kind ≠ route.kind) →
      ∀ session, s.sessions.get peer = some session →
        route.id ∉ ids_from session.next_route (s.asked_again env peer).length

/-- The session of a device is new, and its routes are as that finds them. -/
def rejoined (est : Established) : Actor :=
  { s with
    sessions := s.sessions.insert peer (new_session env est)
    routes := s.routes_found env peer }

end

/-- A resume goes by the settings, the routes and the session of the device. -/
theorem resume_routes_apart {session : Session} (hsettings : t.settings = s.settings)
    (hsame : t.routes = s.routes) (hs : s.sessions.get peer = some session)
    (ht : t.sessions.get peer = some session) (hk : s.board.Apart)
    (h : s.ResumesApart env peer) : (t.resume_routes env peer).board.Apart := by
  have hmine : (t.set_aside peer).2 = (s.set_aside peer).2 := by
    unfold set_aside
    rw [hsame]
  have hrest : (t.set_aside peer).1.routes = (s.set_aside peer).1.routes :=
    congrArg (List.filter _) hsame
  -- The two states differ in nothing that the resume reads.
  have hkinds : t.resumed_kinds peer = s.resumed_kinds peer := by
    unfold resumed_kinds
    rw [hsettings, hsame]
  have hpaused : ∀ r ∈ (s.set_aside peer).2, r.peer = peer ∧ r.status = .Paused := by
    intro r hr
    have hmine := of_decide_eq_true (List.mem_filter.1 hr).2
    exact ⟨hmine.1, hmine.2.1⟩
  have hbasis : t.basis.settings = s.basis.settings := by
    unfold basis
    rw [hsettings]
  have hstart : Resuming env peer (s.set_aside peer).1 (s.set_aside peer).2 session.next_route [] []
      (t.set_aside peer) := by
    refine ⟨hbasis, ⟨session, ht, rfl⟩, ⟨[], (t.set_aside peer).1.routes, rfl, rfl, ?_, ?_, ?_⟩, ?_,
      ?_⟩
    · exact fun r hr => absurd hr List.not_mem_nil
    · rw [List.append_nil, List.append_nil, hrest]
    · exact List.forall₂_same.2 fun r _ => Route.Alike.refl r
    · rw [List.nil_append, hmine]
    · exact fun r hr => absurd hr List.not_mem_nil
  have hkeys : (((s.set_aside peer).1.routes ++ (s.set_aside peer).2).map Route.key).Nodup := by
    have hparts := List.filter_append_perm
      (fun r : Route => decide (r.peer = peer ∧ r.status = .Paused ∧ r.requested_locally)) s.routes
    exact (((List.perm_append_comm.trans hparts).map Route.key).nodup_iff).2 hk
  obtain ⟨back, hend⟩ := hstart.resume_each hpaused (s.resumed_kinds peer)
  obtain ⟨hids, hroutes⟩ := h.room session hs
  rw [resume_routes_eq, hkinds]
  refine hend.apart hkeys hids hroutes fun r hr => ?_
  obtain ⟨hasked, -, hnone⟩ := hend.back r hr
  exact h.waiting r (hend.paused.subset (List.mem_append_left _ hr)) hasked hnone session hs

end Actor

/-! ## 2. Runs -/

section
variable [Crypto]

/-- Every id that the engine is about to give out is free. -/
def Moment.keys_free (q : Moment) : Prop :=
  match q.2.event with
  | .Command (.StartRoute id kind replace _) =>
      q.1.met.starts q.2.env id kind replace → q.1.met.board.Room id 1
  | .Tick | .Command (.UpdateSettings ..) | .Command (.SetDeviceProfile ..)
  | .Command (.PreferLossless _) =>
      ∀ id, q.1.met.board.Room id (q.1.met.asks_again q.2.env q.2.event id)
  | event =>
      ∀ id est, q.1.met.promotes q.2.env event id est →
        (q.1.met.rejoined q.2.env id est).ResumesApart q.2.env id

omit [Crypto] in
theorem Board.room_zero (b : Board) (p : DeviceId) : b.Room p 0 :=
  fun _ _ => ⟨List.nodup_nil, fun _ _ _ => List.not_mem_nil⟩

namespace Moment

theorem keys_free.room {w : World} {i : Input} (h : Moment.keys_free (w, i)) (hs : i.event.settles)
    (p : DeviceId) : w.met.board.Room p (w.met.asks_again i.env i.event p) := by
  obtain ⟨env, event⟩ := i
  cases event with
  | Command cmd =>
      cases cmd with
      | UpdateSettings | SetDeviceProfile | PreferLossless => exact h p
      | _ => exact hs.elim
  | Tick => exact h p
  | _ => exact hs.elim

theorem keys_free.resumes {w : World} {i : Input} (h : Moment.keys_free (w, i)) {id : DeviceId}
    {est : Established} (hp : w.met.promotes i.env i.event id est) :
    (w.met.rejoined i.env id est).ResumesApart i.env id := by
  obtain ⟨env, event⟩ := i
  have hsettles : ¬ event.settles := fun hset => w.met.not_installs_of_settles hset hp.installs
  cases event with
  | Command cmd =>
      cases cmd with
      | StartRoute =>
          rcases hp.installs with ⟨he, _⟩ | ⟨p, hc, _⟩
          · cases he
          · exact hc.elim
      | UpdateSettings | SetDeviceProfile | PreferLossless => exact absurd trivial hsettles
      | _ => exact h id est hp
  | Tick => exact absurd trivial hsettles
  | _ => exact h id est hp

end Moment

theorem handle_apart {w : World} {i : Input} (h : w.actor.board.Apart)
    (hg : Moment.keys_free (w, i)) : (w.met.handle i.env i.event).board.Apart := by
  have hmet : w.met.board.Apart := h
  by_cases hsettles : i.event.settles
  · -- streams are asked for again: each of them, at most once
    have hroom := Moment.keys_free.room hg hsettles
    obtain ⟨l, hl, hacts⟩ := Actor.settles_asks i.env w.met hsettles hmet hroom
    refine (hacts.apart (fun _ _ hi => ?_) (fun _ _ _ hc => ?_) rfl hmet hroom hl).2.1
    · exact absurd hi (w.met.not_installs_of_settles hsettles)
    · exact absurd hsettles (Actor.not_settles_of_consents hc)
  -- acts alone keep keys apart where there is room for every request
  have hapart (hroom : ∀ p, w.met.board.Room p (w.met.asks i.env i.event p)) {l : List DeviceId}
      {b : Board} (hl : ∀ p, l.count p ≤ w.met.asks i.env i.event p)
      (hacts : Acts i.env w.met i.event l w.met.board b) : b.Apart :=
    (hacts.apart (fun _ _ hi => w.met.asks_of_installs i.env hi)
      (fun _ _ _ hc => w.met.asks_of_consents i.env hc) rfl hmet hroom hl).2.1
  rcases w.met.handle_dispatched i.env i.event with ⟨l, hl, hacts⟩ | ⟨id, est, s, hp, hs, hacts, he⟩
  · by_cases hstart : ∃ id kind replace caller,
        i.event = .Command (.StartRoute id kind replace caller)
    · obtain ⟨env, event⟩ := i
      obtain ⟨id, kind, replace, caller, rfl⟩ := hstart
      by_cases hst : w.met.starts env id kind replace
      · refine hapart (fun p => ?_) hl hacts
        by_cases hp : id = p
        · rw [Actor.asks, if_pos hp, ← hp]
          exact hg hst
        · rw [Actor.asks, if_neg hp]
          exact w.met.board.room_zero p
      · unfold Board.Apart
        rw [Actor.handle, Actor.handle_command, Actor.start_route,
          w.met.start_route_keeping_none env (.caller caller) .default hst]
        exact hmet
    · refine hapart (fun p => ?_) hl hacts
      rw [w.met.asks_eq_zero i.env hsettles (fun id kind replace caller he =>
        hstart ⟨id, kind, replace, caller, he⟩) p]
      exact w.met.board.room_zero p
  · rw [he]
    refine Actor.resume_routes_apart (s := w.met.rejoined i.env id est) hs.settings hs.routes
      (Table.get_insert_self _ _ _) hs.session ?_ (Moment.keys_free.resumes hg hp)
    have happ : s.board.Apart :=
      (hacts.apart (N := fun _ => 0) (fun _ _ _ _ => rfl) (fun _ _ _ _ _ => rfl) rfl hmet
      (fun p => w.met.board.room_zero p) fun _ => Nat.le_refl _).2.1
    have hfound : s.routes = w.met.routes_found i.env id := hs.routes
    unfold Board.Apart at happ ⊢
    rwa [show s.board.routes = (w.met.rejoined i.env id est).board.routes from hfound] at happ

/-- Keys are unique in every run whose steps find each id free that they give out. -/
theorem keys_unique {Known : PublicKey → Prop} {tr : List Moment} {w : World}
    (hr : (engine Known).Run tr w) (hg : ∀ q ∈ tr, Moment.keys_free q) : w.actor.board.Apart := by
  refine hr.invariant_where (G := fun w i => Moment.keys_free (w, i))
    (P := fun w => w.actor.board.Apart) ?_ ?_ hg
  · rintro w ⟨identity, trust, settings, _, rfl⟩
    exact List.nodup_nil
  · intro w i h _ hfree
    exact handle_apart h hfree

end

/-! ## 3. Two runs -/

namespace Sample

/-- The peer asks to play its sound here, under an id of its choice. -/
def asks_to_play (route : UInt32) : Input :=
  ⟨env, .Control 1 (.RouteRequest
    { route, source_endpoint := "apps", sink_endpoint := "speaker"
      requester_is_source := true, profile := none, replace := false })⟩

/-- The user sends this computer's sound to the peer. -/
def sends : Input := ⟨env, .Command (.StartRoute peer .SendSystemAudio false 1)⟩

theorem asks_and_sends_admitted (route : UInt32) :
    (engine Known).Admits (start .default)
      (connects 1 peer peer_key ++ [asks_to_play route, sends]) := by
  refine ⟨.inl rfl, ⟨⟨_, List.mem_singleton.2 rfl, ?_⟩, ?_⟩, ?_, trivial, trivial⟩
  · simp [Call.reports]
    rfl
  · decide
  · exact List.mem_cons_self

/-- The peer's sound is heard here under the first id, next to a route that the peer asked for. -/
def listens_along : List Input :=
  let profile := (start .default).actor.profile_for .ReceiveSystemAudio peer
  [asks_to_play 2, ⟨env, .Command (.StartRoute peer .ReceiveSystemAudio false 1)⟩,
    ⟨env, .Control 1 (.RouteAccept { route := 1, profile := some profile })⟩,
    ⟨env, .ReceiverReady peer 1 2 (.ok ())⟩]

/-- A 1.0 peer has to be asked for a lossless stream again. -/
def prefers_lossless : Input := ⟨env, .Command (.PreferLossless true)⟩

/-- The connection is lost, and the peer connects again. -/
def comes_back : List Input := ⟨env, .Closed 1 .NetworkLost⟩ :: connects 2 peer peer_key

theorem listens_and_comes_back_admitted : (engine Known).Admits (start .default)
    (connects 1 peer peer_key ++ listens_along ++ prefers_lossless :: comes_back) := by
  -- each report is that of a call or a task that is under way
  refine ⟨.inl rfl, ⟨List.any_eq_true.1 (by decide +kernel), by decide⟩, ?_, trivial, ?_,
    List.any_eq_true.1 (by decide +kernel), trivial, ?_, .inl rfl,
    ⟨List.any_eq_true.1 (by decide +kernel), by decide⟩, trivial⟩
  · exact List.mem_cons_self
  · change 1 ∈ World.live _
    decide +kernel
  · change 1 ∈ World.live _
    decide +kernel

end Sample

open Sample in
/-- A peer that dialed asks for a route under the first id this side gives out. -/
theorem keys_shared :
    let es := connects 1 peer peer_key ++ [asks_to_play 1, sends]
    (engine Known).Run ((engine Known).trace (start .default) es)
        ((engine Known).exec (start .default) es) ∧
      ¬ ((engine Known).exec (start .default) es).actor.board.Apart := by
  refine ⟨Machine.run_of_admits (start_init .default) (asks_and_sends_admitted 1), ?_⟩
  unfold Board.Apart
  decide +kernel

open Sample in
/-- With an id of the peer's own half the keys stay apart, also when a stream is asked for again and
when the peer comes back. -/
theorem keys_unique_comes_back :
    ((engine Known).exec (start .default) (connects 1 peer peer_key ++ listens_along ++
      prefers_lossless :: comes_back)).actor.board.Apart := by
  refine keys_unique (Machine.run_of_admits (start_init .default) listens_and_comes_back_admitted)
    fun q hq => ?_
  simp only [connects, listens_along, comes_back, Machine.trace, List.cons_append, List.nil_append,
    List.mem_cons, List.not_mem_nil, or_false] at hq
  -- most events neither make a connection a session nor ask for a route
  have hquiet {w : World} {i : Input} (he : ∀ est, i.event ≠ .Established est)
      (hc : ∀ id p, ¬ w.met.completes i.env i.event id p) (id : DeviceId) (est : Established)
      (h : w.met.promotes i.env i.event id est) :
      (w.met.rejoined i.env id est).ResumesApart i.env id := by
    rcases h.installs with ⟨hest, -⟩ | ⟨p, hp, -⟩
    · exact absurd hest (he est)
    · exact absurd hp (hc id p)
  rcases hq with rfl | rfl | rfl | rfl | rfl | rfl | rfl | rfl | rfl | rfl
  · exact hquiet (fun _ he => by cases he) fun _ _ h => h
  · -- no route is paused and none is saved
    rintro id est ⟨-, ⟨he, rfl, -⟩ | ⟨p, hc, -⟩⟩
    · cases he
      exact ⟨by decide +kernel, by decide +kernel⟩
    · exact hc.elim
  · exact hquiet (fun _ he => by cases he) fun _ _ h => h
  · exact fun _ => by decide +kernel
  · exact hquiet (fun _ he => by cases he) fun _ _ h => h
  · exact hquiet (fun _ he => by cases he) fun _ _ h => h
  · -- the stream is asked for again, and there is no other device
    intro id
    by_cases hid : id = peer
    · rw [hid]
      decide +kernel
    · intro session hs
      have honly : ∀ e ∈ ((engine Known).exec (start .default)
          (connects 1 peer peer_key ++ listens_along)).actor.sessions.pairs, e.1 = peer := by
        decide +kernel
      exact absurd (honly _ (Table.get_eq_some_iff.1 hs)) hid
  · exact hquiet (fun _ he => by cases he) fun _ _ h => h
  · exact hquiet (fun _ he => by cases he) fun _ _ h => h
  · -- the paused route is asked for again, under an id of the new session
    rintro id est ⟨-, ⟨he, rfl, -⟩ | ⟨p, hc, -⟩⟩
    · cases he
      refine ⟨by decide +kernel, fun route hr hno => absurd ?_ hno⟩
      clear hno
      revert route
      decide +kernel
    · exact hc.elim

end SoundPush
