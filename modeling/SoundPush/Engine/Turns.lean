/-
`Turns` -- what an act does to the route table.

Whatever a handler does, the table afterwards holds routes of before, some of them
in another phase, and at most one more: a route that a peer is asked for, one that
was admitted for a peer, or a paused one that is put back. Laws that count routes
or compare them are proved of these few cases.

How it is put together. `Route.Turns` is what may become of a route: its peer, id, kind and side
stay, and its phase goes on or falls back to paused. `Board.Turned` is what may become of the
table: a part of what was there, each route turned, and then at most one route of the three kinds.
`Act.turned` proves it once for all acts; the counts and comparisons that modules on limits, ids
and feeds need follow without another look at an act.
-/
import SoundPush.Engine.Acts

set_option autoImplicit false

namespace SoundPush

/-! ## 1. Routes that stay -/

/-- `r'` is the route `r` after an act of `event`. -/
structure Route.Turns (event : Event) (r r' : Route) : Prop where
  peer : r'.peer = r.peer
  id : r'.id = r.id
  kind : r'.kind = r.kind
  requested_locally : r'.requested_locally = r.requested_locally
  status : r'.status = r.status ∨ r'.status = .Paused ∨
    (r.status = .Starting ∧ r'.status = .Active ∧ ¬ event.settles) ∨
    (r.status = .Requesting ∧ r'.status = .Starting ∧ ¬ event.settles)

namespace Route.Turns

variable {event : Event} {r r' : Route}

/-- A route that is the same in these fields has turned. -/
theorem of_same (h : r.Same r') : r.Turns event r' :=
  ⟨h.peer, h.id, h.kind, h.requested_locally, .inl h.status⟩

theorem refl (r : Route) : r.Turns event r := .of_same (.refl r)

/-- So has one that sounds alike. -/
theorem of_alike (h : r.Alike r') : r.Turns event r' :=
  ⟨h.peer, h.id, h.kind, h.requested_locally, .inl h.status⟩

/-- The key stays. -/
theorem key (h : r.Turns event r') : r'.key = r.key := by
  unfold Route.key
  rw [h.peer, h.id]

/-- A route that runs, or may run, was there as such before. -/
theorem live (h : r.Turns event r') (hs : r'.status ≠ .Stopped) (hp : r'.status ≠ .Paused) :
    r.status ≠ .Stopped ∧ r.status ≠ .Paused := by
  rcases h.status with h | h | ⟨h, _, _⟩ | ⟨h, _, _⟩
  · rw [← h]
    exact ⟨hs, hp⟩
  · exact absurd h hp
  · rw [h]
    exact ⟨by decide, by decide⟩
  · rw [h]
    exact ⟨by decide, by decide⟩

/-- Streams begin to run on other events than timers and settings. -/
theorem active (h : r.Turns event r') (he : event.settles) (hs : r'.status = .Active) :
    r.status = .Active := by
  rcases h.status with h | h | ⟨_, _, h⟩ | ⟨_, _, h⟩
  · exact h.symm.trans hs
  · exact nomatch h.symm.trans hs
  · exact absurd he h
  · exact absurd he h

end Route.Turns

/-! ## 2. Routes that are added -/

/-- Consent to a peer's route is given by no timer and no settings. -/
theorem Actor.not_settles_of_consents [Crypto] {env : Env} {s : Actor} {event : Event}
    {peer : DeviceId} {req : RouteRequest} {kind : RouteKind}
    (h : s.consents env event peer req kind) : ¬ event.settles := by
  rcases h with ⟨⟨conn_id, rfl, _⟩, _⟩ | ⟨request_id, remember, p, rfl, _⟩ <;> exact id

/-- The routes an act on `b` puts behind those it keeps. -/
inductive Added [Crypto] (env : Env) (s₀ : Actor) (event : Event) (b : Board) :
    List DeviceId → List Route → List Route → Prop
  | nothing (kept : List Route) : Added env s₀ event b [] kept []
  | aside (peer : DeviceId) (est : Established) (he : s₀.installs env event peer est)
      (kept : List Route) : Added env s₀ event b [peer] kept []
  | requested (peer : DeviceId) (kind : RouteKind) (session : Session) (r : Route)
      (hs : b.sessions.get peer = some session) (hr : r.IsRequest peer session.next_route kind)
      (hnew : ∀ r ∈ b.routes, r.peer = peer → r.kind = kind → r.status = .Stopped)
      (hroom : kind.local_is_source = true → b.receivers_of kind.endpoints.1 < b.max_receivers)
      (hfeed : kind = .ReceiveMicToVirtualMic → s₀.clears_feed event peer b.routes) :
      Added env s₀ event b [peer] b.routes [r]
  | admitted (peer : DeviceId) (req : RouteRequest) (kind : RouteKind) (volume : ℚ) (r : Route)
      (hc : s₀.consents env event peer req kind)
      (hmax : b.max_receivers = s₀.settings.max_receivers)
      (hb : s₀.deciding env event b.routes peer req kind)
      (hfree : ∀ r ∈ b.routes, r.key = ⟨peer, req.route.toUInt8⟩ →
        Actor.replaced_by peer req.route.toUInt8 kind r = true)
      (hr : (new_route peer req.route.toUInt8 kind false volume).Same r) :
      Added env s₀ event b []
        (b.routes.filter fun r => !Actor.replaced_by peer req.route.toUInt8 kind r) [r]
  | put_back (peer : DeviceId) (kind : RouteKind) (route : Route) (rest : List Route)
      (hp : route.peer = peer)
      (hn : ∀ r ∈ b.routes, r.peer = peer → r.kind ≠ kind)
      (h : b.aside.remove_first (fun r => r.kind = kind) = some (route, rest)) :
      Added env s₀ event b [] b.routes [route]

/-! ## 3. The table after an act -/

/-- A pipeline that begins touches no route that is set aside, -/
theorem Begun.aside {b b' : Board} {r r' : Route} {ready : Bool} (h : Begun b r b' r' ready) :
    b'.aside = b.aside := by
  cases h <;> rfl

/-- nor whether the microphone starts by itself. -/
theorem Begun.auto_mic {b b' : Board} {r r' : Route} {ready : Bool} (h : Begun b r b' r' ready) :
    b'.auto_mic = b.auto_mic := by
  cases h <;> rfl

/-- What a new subscription keeps of a route, waiting routes keep. -/
theorem Listens.forall₂ {R : Route → Route → Prop} (hrefl : ∀ r, R r r)
    (htrans : ∀ {a b c}, R a b → R b c → R a c)
    (hR : ∀ (r : Route) subscription, R r { r with subscription })
    {key : EncoderKey} {sessions : Table DeviceId Session}
    {waiting ready : List RouteKey} {routes routes' : List Route} {sender sender' : RunningSender}
    (h : Listens key sessions waiting routes sender routes' sender' ready) :
    List.Forall₂ R routes routes' := by
  induction h with
  | nil routes sender => exact List.forall₂_same.2 fun r _ => hrefl r
  | skip _ _ ih => exact ih
  | join r member _ _ _ ih =>
      refine List.Forall₂.trans_of (R := R) (fun h h' => htrans h h') ?_ ih
      exact List.forall₂_modify_first hrefl fun _ _ => hR _ _

/-- Routes that join a group stay what they are, by induction on who joins. -/
theorem Listens.same {key : EncoderKey} {sessions : Table DeviceId Session}
    {waiting ready : List RouteKey} {routes routes' : List Route} {sender sender' : RunningSender}
    (h : Listens key sessions waiting routes sender routes' sender' ready) :
    List.Forall₂ Route.Same routes routes' :=
  h.forall₂ Route.Same.refl (fun h h' => h.trans h') fun _ _ => ⟨rfl, rfl, rfl, rfl, rfl⟩

/-- A route whose session went down is paused, or stopped and then gone. -/
theorem Route.suspended_turns {event : Event} (now : Instant) {r : Route}
    (h : (r.suspended now).status ≠ .Stopped) : r.Turns event (r.suspended now) := by
  unfold suspended at h ⊢
  cases hs : r.status with
  | Active =>
      rw [hs] at h
      exact ⟨rfl, rfl, rfl, rfl, .inr (.inl rfl)⟩
  | Paused =>
      rw [hs] at h
      exact ⟨rfl, rfl, rfl, rfl, .inl rfl⟩
  | _ =>
      rw [hs] at h
      dsimp only at h ⊢
      by_cases hl : r.requested_locally = true
      · rw [if_pos hl]
        exact ⟨rfl, rfl, rfl, rfl, .inr (.inl rfl)⟩
      · rw [if_neg hl] at h
        exact absurd rfl h

/-- The routes afterwards are those of `kept`, each as it turned, and what was added. -/
def Board.Turned [Crypto] (env : Env) (s₀ : Actor) (event : Event) (l : List DeviceId)
    (a b : Board) : Prop :=
  ∃ kept turned added, kept.Subperm a.routes ∧
    List.Forall₂ (Route.Turns event) kept turned ∧ b.routes = turned ++ added ∧
    Added env s₀ event a l kept added

section
variable [Crypto] {env : Env} {s₀ : Actor} {event : Event} {a b : Board} {l : List DeviceId}

namespace Board.Turned

/-- A table changed route by route. -/
theorem of_forall₂ (h : List.Forall₂ (Route.Turns event) a.routes b.routes) :
    a.Turned env s₀ event [] b :=
  ⟨a.routes, b.routes, [], List.Subperm.refl _, h, (List.append_nil _).symm, .nothing _⟩

theorem of_same (h : List.Forall₂ Route.Same a.routes b.routes) : a.Turned env s₀ event [] b :=
  .of_forall₂ (h.imp fun _ _ => .of_same)

theorem of_eq (h : b.routes = a.routes) : a.Turned env s₀ event [] b := by
  refine .of_forall₂ ?_
  rw [h]
  exact List.forall₂_same.2 fun r _ => .refl r

/-- A table that lost routes. -/
theorem of_sublist (h : b.routes.Sublist a.routes) : a.Turned env s₀ event [] b :=
  ⟨b.routes, b.routes, [], h.subperm, List.forall₂_same.2 fun r _ => .refl r,
    (List.append_nil _).symm, .nothing _⟩

/-- One route was taken out and put back changed, behind the others. -/
theorem of_last {p : Route → Bool} {route r : Route} {rest : List Route}
    (h : a.routes.remove_first p = some (route, rest)) (hr : route.Turns event r)
    (hb : b.routes = rest ++ [r]) : a.Turned env s₀ event [] b := by
  refine ⟨rest ++ [route], rest ++ [r], [], ?_, ?_, ?_, .nothing _⟩
  · refine List.Perm.subperm (List.Perm.trans ?_ (List.perm_of_remove_first h).symm)
    exact List.perm_append_singleton route rest
  · exact List.rel_append (List.forall₂_same.2 fun r _ => .refl r) (.cons hr .nil)
  · rw [List.append_nil, hb]

/-- A table whose routes with a device were paused, and some of them dropped. -/
theorem of_paused (peer : DeviceId) (now : Instant) (h : b.routes = (a.paused peer now).routes) :
    a.Turned env s₀ event [] b := by
  refine ⟨a.routes.filter ((fun r => r.status ≠ .Stopped) ∘
    fun r => if r.peer = peer then r.suspended now else r), b.routes, [],
    List.filter_sublist.subperm, ?_, (List.append_nil _).symm, .nothing _⟩
  rw [h]
  unfold Board.paused
  dsimp only
  rw [List.filter_map]
  refine List.forall₂_map_right_iff.2 (List.forall₂_same.2 fun r hr => ?_)
  have hstatus := of_decide_eq_true (List.mem_filter.1 hr).2
  dsimp only at hstatus
  split at hstatus
  · next hp =>
      rw [if_pos hp]
      exact Route.suspended_turns now hstatus
  · next hp =>
      rw [if_neg hp]
      exact .refl r

end Board.Turned

open Board.Turned in
/-- Every act, by its kind. -/
theorem Act.turned (h : Act env s₀ event l a b) : a.Turned env s₀ event l b := by
  cases h with
  | tend routes h => exact of_forall₂ (h.imp fun _ _ => .of_alike)
  | silence | hush => exact of_same (List.forall₂_modify_first Route.Same.refl fun _ _ =>
      ⟨rfl, rfl, rfl, rfl, rfl⟩)
  | mute_mic muted =>
      refine of_same (List.forall₂_map_right_iff.2 (List.forall₂_same.2 fun r _ => ?_))
      unfold Route.mic_silenced
      split
      · exact ⟨rfl, rfl, rfl, rfl, rfl⟩
      · exact .refl r
  | activate key r he hr hs =>
      refine of_forall₂ (List.forall₂_modify_first Route.Turns.refl fun q hq => ?_)
      obtain rfl := Option.some_inj.1 (hr.symm.trans hq)
      exact ⟨rfl, rfl, rfl, rfl, .inr (.inr (.inl ⟨hs, rfl, he⟩))⟩
  | finish key route rest h => exact of_sublist (List.sublist_of_remove_first h)
  | refuse _ _ _ route rest _ _ _ h => exact of_sublist (List.sublist_of_remove_first h)
  | lose _ _ _ route rest _ _ _ h => exact of_sublist (List.sublist_of_remove_first h)
  -- The one route of the act that was being requested and starts now.
  | accept _ _ _ route r₁ rest _ _ _ he _ h _ hbegun =>
      have hsame := hbegun.same
      have hmem := (List.mem_of_remove_first h).2
      have hstatus : route.status = .Requesting :=
        of_decide_eq_true (Bool.and_eq_true_iff.1 hmem).2
      refine of_last h ⟨hsame.peer, hsame.id, hsame.kind, hsame.requested_locally, ?_⟩ rfl
      refine .inr (.inr (.inr ⟨hstatus, hsame.status, ?_⟩))
      rw [he]
      exact id
  | supplant => exact of_sublist List.filter_sublist
  | take_on peer req kind volume profile deadline r₁ ready hc hmax hb hfree hbegun =>
      refine ⟨_, _, [r₁], List.filter_sublist.subperm,
        List.forall₂_same.2 fun r _ => .refl r, rfl,
          .admitted peer req kind volume r₁ hc hmax hb hfree ?_⟩
      have hsame := hbegun.same
      exact ⟨hsame.peer, hsame.id, hsame.kind, hsame.status, hsame.requested_locally⟩
  | rebuild key route r₁ rest _ h hbegun =>
      have hsame := hbegun.same
      exact of_last h
        (.of_same ⟨hsame.peer, hsame.id, hsame.kind, hsame.status, hsame.requested_locally⟩) rfl
  | unplug key route rest h =>
      have hsame : route.Same route.released := ⟨rfl, rfl, rfl, rfl, rfl⟩
      exact of_last h (.of_same hsame) rfl
  | reopen key route r₁ _ _ h hbegun =>
      have hsame := hbegun.same
      refine of_same (List.forall₂_modify_first Route.Same.refl fun q hq => ?_)
      obtain rfl := Option.some_inj.1 (h.symm.trans hq)
      exact ⟨hsame.peer, hsame.id, hsame.kind, hsame.status, hsame.requested_locally⟩
  | run _ _ _ _ _ _ _ _ _ _ _ hl => exact of_same hl.same
  | receive | receive_late => exact of_same (List.forall₂_modify_first Route.Same.refl fun _ _ =>
      ⟨rfl, rfl, rfl, rfl, rfl⟩)
  | supersede id est session conn_id now => exact of_paused id now rfl
  | suspend id conn_id reason now => exact of_paused id now rfl
  | request peer kind session r hs hr hnew hroom hfeed =>
      exact ⟨a.routes, a.routes, [r], List.Subperm.refl _, List.forall₂_same.2 fun r _ => .refl r,
        rfl, .requested peer kind session r hs hr hnew hroom hfeed⟩
  | set_aside peer est he =>
      exact ⟨_, _, [], List.filter_sublist.subperm, List.forall₂_same.2 fun r _ => .refl r,
        (List.append_nil _).symm, .aside peer est he _⟩
  | put_back peer kind route rest hp hn h =>
      exact ⟨a.routes, a.routes, [route], List.Subperm.refl _,
        List.forall₂_same.2 fun r _ => .refl r, rfl, .put_back peer kind route rest hp hn h⟩
  | settle _ _ _ _ _ _ _ hr => exact of_forall₂ (hr.imp fun _ _ => .of_alike)
  | _ => exact of_eq rfl

/-! ## 4. Routes out of the table -/

/-- What is set aside shrinks, unless it is set aside by this very act. -/
theorem Act.aside (h : Act env s₀ event l a b) : b.aside.Sublist a.aside ∨
    ∃ peer est, l = [peer] ∧ s₀.installs env event peer est ∧ b.aside =
      a.routes.filter fun r => r.peer = peer ∧ r.status = .Paused ∧ r.requested_locally := by
  cases h with
  | accept _ _ _ _ _ _ _ _ _ _ _ _ _ hbegun => exact .inl (hbegun.aside ▸ List.Sublist.refl _)
  | take_on _ _ _ _ _ _ _ _ _ _ _ _ hbegun => exact .inl (hbegun.aside ▸ List.Sublist.refl _)
  | rebuild _ _ _ _ _ _ hbegun => exact .inl (hbegun.aside ▸ List.Sublist.refl _)
  | reopen _ _ _ _ _ _ hbegun => exact .inl (hbegun.aside ▸ List.Sublist.refl _)
  | set_aside peer est he => exact .inr ⟨peer, est, rfl, he, rfl⟩
  | put_back _ _ _ rest _ _ h => exact .inl (List.sublist_of_remove_first h)
  | discard => exact .inl (List.nil_sublist _)
  | _ => exact .inl (List.Sublist.refl _)

theorem Act.auto_mic (he : ∀ old mutes, ¬ event.configures old mutes) (h : Act env s₀ event l a b) :
    b.auto_mic = a.auto_mic := by
  cases h with
  | accept _ _ _ _ _ _ _ _ _ _ _ _ _ hbegun => exact hbegun.auto_mic
  | take_on _ _ _ _ _ _ _ _ _ _ _ _ hbegun => exact hbegun.auto_mic
  | rebuild _ _ _ _ _ _ hbegun => exact hbegun.auto_mic
  | reopen _ _ _ _ _ _ hbegun => exact hbegun.auto_mic
  | settle _ _ _ _ _ hc => exact absurd hc (he _ _)
  | _ => rfl

/-- Only new settings change whether the microphone starts by itself. -/
theorem Acts.auto_mic (he : ∀ old mutes, ¬ event.configures old mutes)
    (h : Acts env s₀ event l a b) : b.auto_mic = a.auto_mic := by
  induction h with
  | refl => rfl
  | tail _ hact ih => exact (hact.auto_mic he).trans ih
  | more _ _ ih => exact ih

/-- Only paused routes are taken out to be asked for again. -/
theorem Act.aside_paused (h : Act env s₀ event l a b) (ha : ∀ r ∈ a.aside, r.status = .Paused) :
    ∀ r ∈ b.aside, r.status = .Paused := by
  intro r hr
  rcases h.aside with hsub | ⟨peer, est, _, _, he⟩
  · exact ha r (hsub.subset hr)
  · rw [he] at hr
    exact (of_decide_eq_true (List.mem_filter.1 hr).2).2.1

/-- Streams that run are not added, so of those with a lasting property there are no more than
before. -/
theorem Act.countP_le {keep : Route → Bool}
    (hkeep : ∀ r r' : Route, r.Turns event r' → keep r' = true → keep r = true)
    (hactive : ∀ r, keep r = true → r.status = .Active) (h : Act env s₀ event l a b)
    (ha : ∀ r ∈ a.aside, r.status = .Paused) : b.routes.countP keep ≤ a.routes.countP keep := by
  obtain ⟨kept, turned, added, hkept, hturned, hb, hadded⟩ := h.turned
  have hnew : added.countP keep = 0 := by
    rw [List.countP_eq_zero]
    intro r hr hk
    have hs := hactive r hk
    cases hadded with
    | nothing | aside => exact List.not_mem_nil hr
    | requested _ _ _ q _ hq =>
        rw [List.mem_singleton.1 hr] at hs
        exact nomatch hq.status.symm.trans hs
    | admitted _ _ _ _ q _ _ _ _ hq =>
        rw [List.mem_singleton.1 hr] at hs
        exact nomatch hq.status.symm.trans hs
    | put_back _ _ q rest _ _ hq =>
        rw [List.mem_singleton.1 hr] at hs
        exact nomatch (ha q (List.mem_of_remove_first hq).1).symm.trans hs
  rw [hb, List.countP_append, hnew, Nat.add_zero]
  exact le_trans (List.Forall₂.countP_le hkeep hturned) (hkept.countP_le _)

/-- Counting routes over the handling of an event. -/
theorem Acts.countP_le {keep : Route → Bool}
    (hkeep : ∀ r r' : Route, r.Turns event r' → keep r' = true → keep r = true)
    (hactive : ∀ r, keep r = true → r.status = .Active) (h : Acts env s₀ event l a b)
    (ha : ∀ r ∈ a.aside, r.status = .Paused) :
    (∀ r ∈ b.aside, r.status = .Paused) ∧ b.routes.countP keep ≤ a.routes.countP keep := by
  induction h with
  | refl => exact ⟨ha, le_refl _⟩
  | tail _ hact ih =>
      obtain ⟨haside, hle⟩ := ih ha
      exact ⟨hact.aside_paused haside, (hact.countP_le hkeep hactive haside).trans hle⟩
  | more _ _ ih => exact ih ha

/-- A timer or a setting lets no stream begin to run. -/
theorem Acts.active_le (he : event.settles) (h : Acts env s₀ event l a b)
    (ha : ∀ r ∈ a.aside, r.status = .Paused) (p : DeviceId) :
    (∀ r ∈ b.aside, r.status = .Paused) ∧ b.active p ≤ a.active p := by
  refine h.countP_le (fun r r' hr hcount => ?_) (fun r hr => (of_decide_eq_true hr).2) ha
  simp only [decide_eq_true_eq] at hcount ⊢
  exact ⟨hr.peer.symm.trans hcount.1, hr.active he hcount.2⟩

end

end SoundPush
