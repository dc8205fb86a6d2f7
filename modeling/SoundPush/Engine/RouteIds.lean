/-
`RouteIds` -- the ids a session gives out, and what happens of the keys of routes
as the engine handles an event.

A session gives out one id after the other, whatever the table holds. `Room` says
that the next few are distinct and that no route has them, and `Acts.apart` that
keys stay apart as long as there is room for every request an event makes.

Of everything an act can do to the routes, `Act.turned` leaves three parts: what is
kept, how it turned, and what is added. What is kept has its keys from before, so
only what is added can clash, and that is a request made here, a request of the peer
that passed its own test, or a route put back after a reconnect. Under `Room` the
first gets an id that nobody has and leaves room for the others; a reconnect is left
to `RouteKeys`.
-/
import SoundPush.Engine.Dispatch

set_option autoImplicit false

namespace SoundPush

/-! ## 1. The ids a session gives out -/

/-- The id after `id`. -/
def next_id (id : UInt8) : UInt8 :=
  let next := id + 2
  if next < 2 then next + 2 else next

/-- The first `n` ids from `id` on. -/
def ids_from (id : UInt8) : Nat → List UInt8
  | 0 => []
  | n + 1 => id :: ids_from (next_id id) n

theorem ids_from_sublist (id : UInt8) {m n : Nat} (h : m ≤ n) :
    (ids_from id m).Sublist (ids_from id n) := by
  induction n generalizing id m with
  | zero =>
      rw [Nat.le_zero.1 h]
  | succ n ih =>
      cases m with
      | zero => exact List.nil_sublist _
      | succ m => exact (ih (next_id id) (Nat.le_of_succ_le_succ h)).cons_cons id

theorem iterate_mem_ids_from (id : UInt8) {m n : Nat} (h : m < n) :
    next_id^[m] id ∈ ids_from id n := by
  induction m generalizing id n with
  | zero =>
      cases n with
      | zero => exact absurd h (Nat.lt_irrefl 0)
      | succ n => exact List.mem_cons_self
  | succ m ih =>
      cases n with
      | zero => exact absurd h (Nat.not_lt_zero _)
      | succ n =>
          rw [Function.iterate_succ_apply]
          exact List.mem_cons_of_mem _ (ih (next_id id) (Nat.lt_of_succ_lt_succ h))

theorem ids_from_succ (id : UInt8) (n : Nat) :
    ids_from id (n + 1) = ids_from id n ++ [next_id^[n] id] := by
  induction n generalizing id with
  | zero => rfl
  | succ n ih =>
      rw [ids_from, ih (next_id id), Function.iterate_succ_apply]
      rfl

/-- The next `n` ids for a device are distinct, and no route has them. -/
def Board.Room (b : Board) (peer : DeviceId) (n : Nat) : Prop :=
  ∀ session, b.sessions.get peer = some session → (ids_from session.next_route n).Nodup ∧
    ∀ r ∈ b.routes, r.peer = peer → r.id ∉ ids_from session.next_route n

instance (b : Board) (peer : DeviceId) (n : Nat) : Decidable (b.Room peer n) :=
  match h : b.sessions.get peer with
  | none => isTrue fun session hs => absurd (h.symm.trans hs) (by simp)
  | some session =>
      decidable_of_iff ((ids_from session.next_route n).Nodup ∧
          ∀ r ∈ b.routes, r.peer = peer → r.id ∉ ids_from session.next_route n)
        ⟨fun hroom session' hs => Option.some_inj.1 (h.symm.trans hs) ▸ hroom,
          fun hroom => hroom session h⟩

theorem Board.Room.mono {b : Board} {peer : DeviceId} {m n : Nat} (h : b.Room peer n)
    (hmn : m ≤ n) :
    b.Room peer m := by
  intro session hs
  obtain ⟨hnd, hfree⟩ := h session hs
  have hsub := ids_from_sublist session.next_route hmn
  exact ⟨hnd.sublist hsub, fun r hr hp hid => hfree r hr hp (hsub.subset hid)⟩

/-- No two routes share a key. -/
def Board.Apart (b : Board) : Prop := (b.routes.map Route.key).Nodup

/-! ## 2. Acts keep keys apart -/

section
variable [Crypto] {env : Env} {s₀ : Actor} {event : Event} {a b : Board} {l : List DeviceId}

/-- A session goes on giving out ids where it was; only a request takes one. -/
theorem Act.next_route (h : Act env s₀ event l a b) {p : DeviceId} {session' : Session}
    (hs : b.sessions.get p = some session') :
    (∃ est, s₀.installs env event p est) ∨ ∃ session, a.sessions.get p = some session ∧
      session'.next_route =
        if p ∈ l then next_id session.next_route else session.next_route := by
  have hsame (h : b.sessions = a.sessions) (hl : l = []) :
      (∃ est, s₀.installs env event p est) ∨ ∃ session, a.sessions.get p = some session ∧
        session'.next_route =
          if p ∈ l then next_id session.next_route else session.next_route := by
    refine .inr ⟨session', h ▸ hs, ?_⟩
    rw [hl, if_neg List.not_mem_nil]
  cases h with
  | accept _ _ _ _ _ _ _ _ _ _ _ _ _ hbegun => exact hsame hbegun.sessions rfl
  | take_on _ _ _ _ _ _ _ _ _ _ _ _ hbegun => exact hsame hbegun.sessions rfl
  | rebuild _ _ _ _ _ _ hbegun => exact hsame hbegun.sessions rfl
  | reopen _ _ _ _ _ _ hbegun => exact hsame hbegun.sessions rfl
  -- The one constructor that takes an id; the two that install a session begin a new count.
  | request peer kind session r hget =>
      right
      rw [Table.get_insert] at hs
      split at hs
      · next hp =>
          obtain rfl := Option.some_inj.1 hs
          refine ⟨session, hp ▸ hget, ?_⟩
          rw [if_pos (List.mem_singleton.2 hp)]
          rfl
      · next hp =>
          refine ⟨session', hs, ?_⟩
          rw [if_neg fun h => hp (List.mem_singleton.1 h)]
  | set_aside peer est he =>
      by_cases hp : p = peer
      · exact .inl ⟨est, hp ▸ he⟩
      · refine .inr ⟨session', hs, ?_⟩
        rw [if_neg fun h => hp (List.mem_singleton.1 h)]
  | install id est session he =>
      rw [Table.get_insert] at hs
      split at hs
      · next hp => exact .inl ⟨est, hp ▸ he⟩
      · exact .inr ⟨session', hs, (if_neg List.not_mem_nil).symm⟩
  | supersede id est session conn_id now he =>
      rw [Table.get_insert] at hs
      split at hs
      · next hp => exact .inl ⟨est, hp ▸ he⟩
      · exact .inr ⟨session', (Table.get_of_get_erase hs).2, (if_neg List.not_mem_nil).symm⟩
  | suspend => exact .inr ⟨session', (Table.get_of_get_erase hs).2, (if_neg List.not_mem_nil).symm⟩
  | leave => exact .inr ⟨session', (Table.get_of_get_erase hs).2, (if_neg List.not_mem_nil).symm⟩
  | greet conn_id hello peer old new he hget hl hn =>
      right
      rw [Table.get_insert] at hs
      split at hs
      · next hp =>
          obtain rfl := Option.some_inj.1 hs
          exact ⟨old, hp ▸ hget, hn.trans (if_neg List.not_mem_nil).symm⟩
      · exact ⟨session', hs, (if_neg List.not_mem_nil).symm⟩
  | _ => exact hsame rfl rfl

variable {N : DeviceId → Nat}

/-- Keys stay apart when every request that can still come has room. -/
theorem Act.apart (hi : ∀ p est, s₀.installs env event p est → ∀ q, N q = 0)
    (hc : ∀ peer req kind, s₀.consents env event peer req kind → ∀ q, N q = 0)
    (h : Act env s₀ event l a b) (hl : ∀ p, l.count p ≤ N p) (ha : a.aside = [])
    (hk : a.Apart) (hroom : ∀ p, a.Room p (N p)) :
    b.aside = [] ∧ b.Apart ∧ ∀ p, b.Room p (N p - l.count p) := by
  have hone {peer : DeviceId} (he : l = [peer]) : 1 ≤ N peer := by
    have := hl peer
    rwa [he, List.count_singleton_self] at this
  obtain ⟨kept, turned, added, hkept, hturned, hb, hadded⟩ := h.turned
  -- What is kept of the table keeps its keys; only what is added can clash.
  have hkeys : turned.map Route.key = kept.map Route.key :=
    hturned.map_eq fun _ _ hr => hr.key
  have hold : ∀ r ∈ turned, ∃ q ∈ a.routes, q.peer = r.peer ∧ q.id = r.id := fun r hr =>
    let ⟨q, hq, hqr⟩ := hturned.exists_left hr
    ⟨q, hkept.subset hq, hqr.peer.symm, hqr.id.symm⟩
  have hturnedkeys : (turned.map Route.key).Nodup := by
    obtain ⟨l', hperm, hsub⟩ := hkept
    rw [hkeys, ← (hperm.map Route.key).nodup_iff]
    exact hk.sublist (hsub.map Route.key)
  refine ⟨?_, ?_, fun p session' hs => ?_⟩
  · rcases h.aside with hsub | ⟨peer, est, he, hinst, _⟩
    · rw [ha] at hsub
      exact List.sublist_nil.1 hsub
    · exact absurd (hi peer est hinst peer) (Nat.one_le_iff_ne_zero.1 (hone he))
  · unfold Board.Apart
    rw [hb, List.map_append, List.nodup_append]
    refine ⟨hturnedkeys, ?_, ?_⟩
    · cases hadded <;> simp
    · rintro k hk k' hk' rfl
      obtain ⟨r, hr, hrk⟩ := List.mem_map.1 hk
      cases hadded with
      | nothing | aside => exact List.not_mem_nil hk'
      | requested peer kind session q hs hq =>
          obtain ⟨r', hr', hp, hid⟩ := hold r hr
          have hkey : r.key = q.key := hrk.trans (List.mem_singleton.1 hk')
          have hfree := ((hroom peer).mono (hone rfl) session hs).2 r' hr'
            (hp.trans ((congrArg RouteKey.peer hkey).trans hq.peer))
          refine hfree (List.mem_singleton.2 ?_)
          exact hid.trans ((congrArg RouteKey.id hkey).trans hq.id)
      | admitted peer req kind volume q _ _ _ hfree hq =>
          obtain ⟨r', hr', hsame⟩ := hturned.exists_left hr
          obtain ⟨hmem, hnot⟩ := List.mem_filter.1 hr'
          have hkey : r'.key = ⟨peer, req.route.toUInt8⟩ := by
            refine hsame.key.symm.trans (hrk.trans ((List.mem_singleton.1 hk').trans ?_))
            exact RouteKey.mk.injEq .. ▸ ⟨hq.peer, hq.id⟩
          rw [hfree r' hmem hkey] at hnot
          cases hnot
      | put_back _ _ _ rest _ _ hrest =>
          rw [ha] at hrest
          cases hrest
  · rcases h.next_route hs with ⟨est, hinst⟩ | ⟨session, hsession, hnext⟩
    · rw [hi p est hinst p, Nat.zero_sub]
      exact ⟨List.nodup_nil, fun _ _ _ => List.not_mem_nil⟩
    · obtain ⟨hnd, hfree⟩ := hroom p session hsession
      have hfree' : ∀ r ∈ turned, r.peer = p → r.id ∉ ids_from session.next_route (N p) := by
        intro r hr hp
        obtain ⟨q, hq, hpeer, hid⟩ := hold r hr
        rw [← hid]
        exact hfree q hq (hpeer.trans hp)
      rw [hb]
      -- The next id is the head of the ids there is room for, and the rest stays room for the
      -- requests to come.
      by_cases hp : p ∈ l
      · obtain ⟨n, hn⟩ : ∃ n, N p = n + 1 :=
          Nat.exists_eq_succ_of_ne_zero fun h0 =>
            List.count_eq_zero.1 (Nat.le_zero.1 (h0 ▸ hl p)) hp
        rw [hn, ids_from] at hnd hfree'
        rw [if_pos hp] at hnext
        have hcount : N p - l.count p = n := by
          cases hadded with
          | nothing | admitted | put_back => exact absurd hp List.not_mem_nil
          | aside peer =>
              rw [hn, List.mem_singleton.1 hp, List.count_singleton_self, Nat.add_sub_cancel]
          | requested peer =>
              rw [hn, List.mem_singleton.1 hp, List.count_singleton_self, Nat.add_sub_cancel]
        rw [hcount, hnext]
        obtain ⟨hnotin, hnd⟩ := List.nodup_cons.1 hnd
        refine ⟨hnd, fun r hr hrp hid => ?_⟩
        rcases List.mem_append.1 hr with hr | hr
        · exact hfree' r hr hrp (List.mem_cons_of_mem _ hid)
        · cases hadded with
          | nothing | aside => exact List.not_mem_nil hr
          | admitted | put_back => exact List.not_mem_nil hp
          | requested peer kind session₁ q hs₁ hq =>
              rw [List.mem_singleton.1 hr, hq.id] at hid
              rw [← List.mem_singleton.1 hp, hsession] at hs₁
              obtain rfl := Option.some_inj.1 hs₁
              exact hnotin hid
      · rw [if_neg hp] at hnext
        rw [List.count_eq_zero.2 hp, Nat.sub_zero, hnext]
        refine ⟨hnd, fun r hr hrp hid => ?_⟩
        rcases List.mem_append.1 hr with hr | hr
        · exact hfree' r hr hrp hid
        · cases hadded with
          | nothing | aside => exact List.not_mem_nil hr
          | requested peer kind session₁ q _ hq =>
              rw [List.mem_singleton.1 hr] at hrp
              exact hp (List.mem_singleton.2 (hrp.symm.trans hq.peer))
          | admitted peer req kind volume q hconsents =>
              rw [hc peer req kind hconsents p] at hid
              exact List.not_mem_nil hid
          | put_back _ _ _ rest _ _ hrest =>
              rw [ha] at hrest
              cases hrest

theorem Acts.apart (hi : ∀ p est, s₀.installs env event p est → ∀ q, N q = 0)
    (hc : ∀ peer req kind, s₀.consents env event peer req kind → ∀ q, N q = 0)
    (h : Acts env s₀ event l a b) (ha : a.aside = []) (hk : a.Apart)
    (hroom : ∀ p, a.Room p (N p)) (hl : ∀ p, l.count p ≤ N p) :
    b.aside = [] ∧ b.Apart ∧ ∀ p, b.Room p (N p - l.count p) := by
  induction h with
  | refl => exact ⟨ha, hk, fun p => (hroom p).mono (Nat.sub_le _ _)⟩
  | @tail l m a b c _ hact ih =>
      have hsum (p : DeviceId) : m.count p + l.count p ≤ N p := by
        rw [← List.count_append]
        exact hl p
      obtain ⟨haside, happ, hrm⟩ := ih ha hk hroom fun p => by
        have := hsum p
        omega
      have hrest := hact.apart (N := fun p => N p - l.count p)
        (fun p est hp q => by rw [hi p est hp q, Nat.zero_sub])
        (fun peer req kind hp q => by rw [hc peer req kind hp q, Nat.zero_sub])
        (fun p => by
          have := hsum p
          omega) haside happ hrm
      refine ⟨hrest.1, hrest.2.1, fun p => (hrest.2.2 p).mono ?_⟩
      rw [List.count_append]
      omega
  | @more l m a b _ hsub ih =>
      obtain ⟨haside, happ, hrm⟩ := ih ha hk hroom fun p => (hsub.count_le p).trans (hl p)
      refine ⟨haside, happ, fun p => (hrm p).mono ?_⟩
      have := hsub.count_le p
      omega

/-- A session has given out some of the ids that come after the one it was at. -/
theorem Acts.next_route (hi : ∀ p est, ¬ s₀.installs env event p est)
    (h : Acts env s₀ event l a b) {p : DeviceId} {session' : Session}
    (hs : b.sessions.get p = some session') :
    ∃ session m, a.sessions.get p = some session ∧ m ≤ l.count p ∧
      session'.next_route = next_id^[m] session.next_route := by
  induction h generalizing session' with
  | refl => exact ⟨session', 0, hs, Nat.zero_le _, rfl⟩
  | @tail l n a b c _ hact ih =>
      rcases hact.next_route hs with ⟨est, hinst⟩ | ⟨session₁, hs₁, hnext⟩
      · exact absurd hinst (hi p est)
      · obtain ⟨session, m, hs₀, hm, hsession₁⟩ := ih hs₁
        rw [List.count_append]
        by_cases hp : p ∈ n
        · have hone := List.count_pos_iff.2 hp
          refine ⟨session, m + 1, hs₀, by omega, ?_⟩
          rw [hnext, if_pos hp, hsession₁, Function.iterate_succ_apply']
        · refine ⟨session, m, hs₀, by omega, ?_⟩
          rw [hnext, if_neg hp, hsession₁]
  | more _ hsub ih =>
      obtain ⟨session, m, hs₀, hm, hnext⟩ := ih hs
      exact ⟨session, m, hs₀, hm.trans (hsub.count_le p), hnext⟩

end

end SoundPush
