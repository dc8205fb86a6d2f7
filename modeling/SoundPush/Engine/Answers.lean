/-
`Answers` -- the accounts of the callers: whoever is taken on by an event is answered
by it or waits from then on, in one route or in one network test.

A caller is counted in three places, in the answers that are out, in the routes and in
the tests. `Deed.account` says that one deed moves it between these places and
takes on nobody but the callers it is indexed by; a run adds the deeds up. Where a
route waits it is requested or starting, so what ends that ends the waiting.

The order is: where a caller is counted, who may wait at all (`Books.Waits`), the
account of one deed, of an event, and of a run. `account_routes` and `account_test`
are the two shapes of the bookkeeping, an answer that goes out while one counter of
the routes or of a test changes, and every case of `Deed.account` and of
`TestDeed.account` is one of them. `holder` follows a single waiting caller back to
the command that left it there.
-/
import SoundPush.Engine.Accounts
import SoundPush.Engine.RouteKeys

set_option autoImplicit false

namespace SoundPush

/-! ## 1. Where a caller is counted -/

/-- The effect answers the caller. -/
def Output.answers (caller : Nat) : Output → Bool
  | .Answer c _ => c == caller
  | _ => false

/-- The route's start is to be answered to the caller. -/
def Route.waits (caller : Nat) (r : Route) : Bool := r.reply = some (.caller caller)

/-- How often the test's end is to be answered to the caller. -/
def NetTest.waits (caller : Nat) (t : NetTest) : Nat := t.replies.count (.caller caller)

namespace Books

/-- The answers that are out. -/
def told (b : Books) (caller : Nat) : Nat := b.out.countP (Output.answers caller)

/-- The answers that are to come. -/
def waiting (b : Books) (caller : Nat) : Nat :=
  b.routes.countP (Route.waits caller) + b.aside.countP (Route.waits caller) +
    b.tests.total (NetTest.waits caller)

theorem told_tell (b : Books) (out : List Output) (caller : Nat) :
    (b.tell out).told caller = b.told caller + out.countP (Output.answers caller) :=
  List.countP_append

theorem told_kept (b : Books) (caller : Nat) : b.kept.told caller = b.told caller := by
  unfold kept
  by_cases h : b.wakes ≠ b.keep_alive
  · rw [if_pos h, told_tell]
    rfl
  · rw [if_neg h]

theorem waiting_kept (b : Books) (caller : Nat) : b.kept.waiting caller = b.waiting caller := by
  unfold kept
  by_cases h : b.wakes ≠ b.keep_alive
  · rw [if_pos h]
    rfl
  · rw [if_neg h]

theorem told_unplugs (b : Books) (r : Route) (caller : Nat) :
    (b.unplugs r).countP (Output.answers caller) = 0 := by
  unfold unplugs
  split <;> rfl

end Books

theorem Reply.countP_answered (reply : Reply) (result : Except EngineError Answer) (caller : Nat) :
    (reply.answered result).countP (Output.answers caller) = reply.callers.count caller := by
  cases reply with
  | caller id => rw [answered, callers, List.count, List.countP_singleton, List.countP_singleton,
      Output.answers]
  | dropped => rfl

theorem Reply.count_callers (reply : Reply) (caller : Nat) :
    reply.callers.count caller = if reply = .caller caller then 1 else 0 := by
  cases reply with
  | caller id => simp [callers, List.count_singleton]
  | dropped => rfl

theorem Route.countP_answered (r : Route) (result : Except EngineError Answer) (caller : Nat) :
    (r.answered result).countP (Output.answers caller) = if r.waits caller then 1 else 0 := by
  unfold answered waits
  cases h : r.reply with
  | none => rfl
  | some reply => simp [reply.countP_answered, reply.count_callers]

/-! ## 2. Who waits -/

/-- If somebody waits for the route, it was asked for here and is not there yet. -/
def Route.Pending (r : Route) : Prop :=
  r.reply ≠ none → r.requested_locally = true ∧ (r.status = .Requesting ∨ r.status = .Starting)

theorem Route.Pending.of_none {r : Route} (h : r.reply = none) : r.Pending :=
  fun hr => absurd h hr

theorem Route.Pending.steady {r r' : Route} (h : r.Pending) (hs : r.Steady r') : r'.Pending := by
  intro hr
  rw [hs.reply] at hr
  rw [hs.requested_locally, hs.status]
  exact h hr

/-- A route that is there is waited for by nobody. -/
theorem Route.Pending.reply_none {r : Route} (h : r.Pending) (h₁ : r.status ≠ .Requesting)
    (h₂ : r.status ≠ .Starting) : r.reply = none := by
  by_contra hr
  rcases (h hr).2 with hs | hs
  · exact h₁ hs
  · exact h₂ hs

theorem Route.Pending.cut_off {r r' : Route} (h : r.Pending) (hc : r.CutOff r') :
    r'.reply = none := by
  rw [hc.reply]
  split
  · next hs =>
      refine h.reply_none ?_ ?_
      · rcases hs with hs | hs <;> rw [hs] <;> exact nofun
      · rcases hs with hs | hs <;> rw [hs] <;> exact nofun
  · rfl

namespace Books

/-- Callers wait only for routes that are not there yet and for tests that run. -/
structure Waits (b : Books) : Prop where
  routes : ∀ r ∈ b.routes, r.Pending
  aside : ∀ r ∈ b.aside, r.reply = none
  tests : ∀ peer t, b.tests.get peer = some t → t.status ≠ .Running → t.replies = []

@[simp] theorem kept_routes (b : Books) : b.kept.routes = b.routes := by
  unfold kept
  split <;> rfl

@[simp] theorem kept_aside (b : Books) : b.kept.aside = b.aside := by
  unfold kept
  split <;> rfl

@[simp] theorem kept_tests (b : Books) : b.kept.tests = b.tests := by
  unfold kept
  split <;> rfl

end Books

/-- Nobody waits for a route that has been cut off. -/
theorem CutsOff.unwaited {peer : DeviceId} {routes routes' : List Route} {out : List Output}
    (h : CutsOff peer routes routes' out) (hr : ∀ r ∈ routes, r.Pending) :
    ∀ r ∈ routes', r ∈ routes ∨ r.reply = none := by
  induction h with
  | nil => exact fun r hmem => .inl hmem
  | skip _ _ ih =>
      rw [List.forall_mem_cons] at hr ⊢
      refine ⟨.inl List.mem_cons_self, fun r hmem => ?_⟩
      exact (ih hr.2 r hmem).imp_left (List.mem_cons_of_mem _)
  | cut _ hc _ ih =>
      rw [List.forall_mem_cons] at hr ⊢
      refine ⟨.inr (hr.1.cut_off hc), fun r hmem => ?_⟩
      exact (ih hr.2 r hmem).imp_left (List.mem_cons_of_mem _)

/-- Where a route with a pending reply comes from. -/
inductive Route.Origin (event : Event) (routes : List Route) (r : Route) : Prop
  | unwaited (h : r.reply = none)
  | kept (r₀ : Route) (hmem : r₀ ∈ routes) (hkey : r.key = r₀.key) (hkind : r.kind = r₀.kind)
      (hreply : r.reply = r₀.reply) (hlocal : r.requested_locally = r₀.requested_locally)
      (hstatus : r.status = r₀.status ∨ r.status = .Starting)
  | asked (peer : DeviceId) (kind : RouteKind) (reply : Reply) (h : r.Asked peer kind reply)
      (he : ∀ caller, reply = .caller caller →
        ∃ replace, event = .Command (.StartRoute peer kind replace caller))

namespace Route

theorem Origin.of_mem {event : Event} {routes : List Route} {r : Route} (h : r ∈ routes) :
    r.Origin event routes := .kept r h rfl rfl rfl rfl (.inl rfl)

theorem Steady.origin {event : Event} {routes : List Route} {r r' : Route} (h : r.Steady r')
    (hr : r.Origin event routes) : r'.Origin event routes := by
  have hkey : r'.key = r.key := by
    unfold key
    rw [h.peer, h.id]
  cases hr with
  | unwaited hnone => exact .unwaited (h.reply.trans hnone)
  | kept r₀ hmem hk hkind hreply hlocal hstatus =>
      refine .kept r₀ hmem (hkey.trans hk) (h.kind.trans hkind) (h.reply.trans hreply)
        (h.requested_locally.trans hlocal) ?_
      rw [h.status]
      exact hstatus
  | asked peer kind reply ha he =>
      exact .asked peer kind reply ⟨h.peer.trans ha.peer, h.kind.trans ha.kind,
        h.status.trans ha.status, h.requested_locally.trans ha.requested_locally,
        h.receiver.trans ha.receiver, h.reply.trans ha.reply⟩ he

theorem Origin.pending {event : Event} {routes : List Route} {r : Route}
    (h : r.Origin event routes) (hr : ∀ r ∈ routes, r.Pending) : r.Pending := by
  intro hreply
  cases h with
  | unwaited hnone => exact absurd hnone hreply
  | kept r₀ hmem _ _ hsame hlocal hstatus =>
      rw [hsame] at hreply
      rw [hlocal]
      refine ⟨(hr r₀ hmem hreply).1, ?_⟩
      rcases hstatus with hs | hs
      · rw [hs]
        exact (hr r₀ hmem hreply).2
      · exact .inr hs
  | asked _ _ _ ha _ => exact ⟨ha.requested_locally, .inl ha.status⟩

end Route

namespace TestDeed

variable {s₀ : Actor} {event : Event} {l : List Nat} {b b' : Books}

theorem routes (h : TestDeed s₀ event l b b') : b'.routes = b.routes := by
  cases h <;> rfl

theorem aside (h : TestDeed s₀ event l b b') : b'.aside = b.aside := by
  cases h <;> rfl

/-- A test is the one that is written, or was there before. -/
theorem of_get_insert {tests : Table DeviceId NetTest} {peer id : DeviceId} {new t : NetTest}
    {P : DeviceId → NetTest → Prop} (hnew : P peer new)
    (hold : tests.get id = some t → P id t) (h : (tests.insert peer new).get id = some t) :
    P id t := by
  rw [Table.get_insert] at h
  by_cases hid : id = peer
  · rw [if_pos hid] at h
    obtain rfl := Option.some_inj.1 h
    rw [hid]
    exact hnew
  · rw [if_neg hid] at h
    exact hold h

theorem replies (h : TestDeed s₀ event l b b') (hw : b.Waits) (id : DeviceId) (t : NetTest)
    (ht : b'.tests.get id = some t) : t.status ≠ .Running → t.replies = [] := by
  have hset {peer : DeviceId} {new : NetTest} (hnew : new.status ≠ .Running → new.replies = [])
      (ht : (b.tests.insert peer new).get id = some t) : t.status ≠ .Running → t.replies = [] :=
    of_get_insert (P := fun _ t => t.status ≠ .Running → t.replies = []) hnew (hw.tests id t) ht
  cases h with
  | start => exact hset (absurd rfl) ht
  | join peer caller test _ _ _ hs =>
      refine hset ?_ ht
      exact fun hn => absurd hs hn
  | measure peer _ _ _ test _ _ _ _ _ h _ _ =>
      refine hset ?_ ht
      exact hw.tests peer test h
  | finish => exact hset (fun _ => rfl) ht
  | forget peer _ => exact hw.tests id t (Table.get_of_get_erase ht).2

end TestDeed

namespace Deed

variable [Crypto] {env : Env} {s₀ : Actor} {event : Event} {l : List Nat} {b b' : Books}

theorem origin (h : Deed env s₀ event l b b') (hw : b.Waits) :
    ∀ r ∈ b'.routes, r.Origin event b.routes := by
  intro r' hr'
  -- a route of a table that has only lost some
  have hsub {routes : List Route} (hrest : routes.Sublist b.routes) (hmem : r' ∈ routes) :
      r'.Origin event b.routes := .of_mem (hrest.subset hmem)
  cases h with
  | tend routes h =>
      obtain ⟨r, hr, hs⟩ := h.exists_left hr'
      exact hs.origin (.of_mem hr)
  | activate key r _ hr hs =>
      rw [Books.kept_routes] at hr'
      rcases List.mem_modify_first hr' with hmem | ⟨r₁, hr₁, rfl⟩
      · exact .of_mem hmem
      · -- its caller is told, or there is none
        refine .unwaited ?_
        by_cases hlocal : r₁.requested_locally = true
        · exact if_pos hlocal
        · by_contra hreply
          refine hlocal (hw.routes r₁ (List.mem_of_find?_eq_some hr₁) fun hnone => hreply ?_).1
          exact (if_neg hlocal).trans hnone
  | finish key route rest e h =>
      rw [Books.kept_routes] at hr'
      exact hsub (List.sublist_of_remove_first h) hr'
  | refuse _ _ _ route rest e _ _ _ h => exact hsub (List.sublist_of_remove_first h) hr'
  | lose key route rest e _ h => exact hsub (List.sublist_of_remove_first h) hr'
  | accept key route r₁ rest h hs =>
      rcases List.mem_append.1 hr' with hr | hr
      · exact hsub (List.sublist_of_remove_first h) hr
      · rw [List.mem_singleton.1 hr]
        refine hs.origin ?_
        exact .kept route (List.mem_of_remove_first h).1 rfl rfl rfl rfl (.inr rfl)
  | supplant peer id kind => exact hsub List.filter_sublist hr'
  | take_on peer id kind volume r₁ hs =>
      rcases List.mem_append.1 hr' with hr | hr
      · exact .of_mem hr
      · rw [List.mem_singleton.1 hr]
        exact .unwaited hs.reply
  | rebuild key route r₁ rest h hs =>
      rcases List.mem_append.1 hr' with hr | hr
      · exact hsub (List.sublist_of_remove_first h) hr
      · rw [List.mem_singleton.1 hr]
        refine hs.origin ?_
        exact .kept route (List.mem_of_remove_first h).1 rfl rfl rfl rfl (.inl rfl)
  | reopen key route r₁ h hs =>
      rcases List.mem_modify_first hr' with hr | ⟨_, _, rfl⟩
      · exact .of_mem hr
      · refine hs.origin ?_
        exact .kept route (List.mem_of_find?_eq_some h) rfl rfl rfl rfl (.inl rfl)
  | receive peer id start_id conn_id r _ _ _ h =>
      rcases List.mem_modify_first hr' with hr | ⟨r₁, hr₁, rfl⟩
      · exact .of_mem hr
      · exact .kept r₁ (List.mem_of_find?_eq_some hr₁) rfl rfl rfl rfl (.inl rfl)
  | give_up key r h =>
      rcases List.mem_modify_first hr' with hr | ⟨_, _, rfl⟩
      · exact .of_mem hr
      · exact .unwaited rfl
  | pause peer routes out _ h =>
      rw [Books.kept_routes] at hr'
      rcases h.unwaited hw.routes r' (List.mem_of_mem_filter hr') with hr | hr
      · exact .of_mem hr
      · exact .unwaited hr
  | request peer kind conn_id reply r _ hasked he =>
      rcases List.mem_append.1 hr' with hr | hr
      · exact .of_mem hr
      · rw [List.mem_singleton.1 hr]
        exact .asked peer kind reply hasked he
  | set_aside peer _ => exact hsub List.filter_sublist hr'
  | put_back kind route rest h =>
      rcases List.mem_append.1 hr' with hr | hr
      · exact .of_mem hr
      · rw [List.mem_singleton.1 hr]
        exact .unwaited (hw.aside route (List.mem_of_remove_first h).1)
  | watch monitor =>
      rw [Books.kept_routes] at hr'
      exact .of_mem hr'
  | test h =>
      rw [h.routes] at hr'
      exact .of_mem hr'
  | _ => exact .of_mem hr'

/-- The waiting is kept sound by every deed. -/
theorem waits (h : Deed env s₀ event l b b') (hw : b.Waits) : b'.Waits := by
  have hroutes : ∀ r ∈ b'.routes, r.Pending := fun r hr => (h.origin hw r hr).pending hw.routes
  cases h with
  | set_aside peer _ =>
      refine ⟨hroutes, fun r hr => ?_, hw.tests⟩
      obtain ⟨hmem, hp⟩ := List.mem_filter.1 hr
      have hpaused : r.status = .Paused := (of_decide_eq_true hp).2.1
      refine (hw.routes r hmem).reply_none ?_ ?_
      · rw [hpaused]
        exact nofun
      · rw [hpaused]
        exact nofun
  | put_back kind route rest h =>
      exact ⟨hroutes, fun r hr => hw.aside r ((List.sublist_of_remove_first h).subset hr), hw.tests⟩
  | discard => exact ⟨hroutes, fun r hr => absurd hr List.not_mem_nil, hw.tests⟩
  | test h =>
      refine ⟨hroutes, ?_, h.replies hw⟩
      rw [h.aside]
      exact hw.aside
  | activate | finish | pause | watch =>
      exact ⟨hroutes, by rw [Books.kept_aside]; exact hw.aside,
        by rw [Books.kept_tests]; exact hw.tests⟩
  | _ => exact ⟨hroutes, hw.aside, hw.tests⟩

/-- What is so of a route a caller waits for stays so, if it is so of the one it asks for. -/
theorem holder (h : Deed env s₀ event l b b') (hw : b.Waits) {caller : Nat}
    {P : RouteKey → RouteKind → Prop}
    (hP : ∀ peer kind replace, event = .Command (.StartRoute peer kind replace caller) →
      ∀ id, P ⟨peer, id⟩ kind)
    (hb : ∀ r ∈ b.routes, r.reply = some (.caller caller) → P r.key r.kind) :
    ∀ r ∈ b'.routes, r.reply = some (.caller caller) → P r.key r.kind := by
  intro r hr hreply
  cases h.origin hw r hr with
  | unwaited hnone => cases hnone.symm.trans hreply
  | kept r₀ hmem hkey hkind hsame _ _ =>
      rw [hkey, hkind]
      exact hb r₀ hmem (hsame.symm.trans hreply)
  | asked peer kind reply ha he =>
      have hcaller := Option.some_inj.1 (ha.reply.symm.trans hreply)
      obtain ⟨replace, hevent⟩ := he caller hcaller
      have := hP peer kind replace hevent r.id
      rwa [← ha.peer, ← ha.kind] at this

end Deed

/-! ## 3. The accounts balance -/

theorem Route.waits_eq_false {r : Route} (h : r.reply = none) (caller : Nat) :
    r.waits caller = false := by
  unfold waits
  rw [h]
  rfl

theorem NetTest.waits_eq_zero {t : NetTest} (h : t.replies = []) (caller : Nat) :
    t.waits caller = 0 := by
  unfold waits
  rw [h, List.count_nil]

theorem Route.Steady.waits_eq {r r' : Route} (h : r.Steady r') (caller : Nat) :
    r'.waits caller = r.waits caller := by
  unfold Route.waits
  rw [h.reply]

theorem countP_waits_steady {routes routes' : List Route}
    (h : List.Forall₂ Route.Steady routes routes') (caller : Nat) :
    routes'.countP (Route.waits caller) = routes.countP (Route.waits caller) := by
  apply Nat.le_antisymm
  · exact h.countP_le fun a b hab hb => by rwa [← hab.waits_eq caller]
  · exact h.flip.countP_le fun b a hab ha => by rwa [hab.waits_eq caller]

/-- Whoever waited for a route that is cut off is told. -/
theorem CutsOff.account {peer : DeviceId} {routes routes' : List Route} {out : List Output}
    (h : CutsOff peer routes routes' out) (hr : ∀ r ∈ routes, r.Pending) (caller : Nat) :
    out.countP (Output.answers caller) + routes'.countP (Route.waits caller) =
      routes.countP (Route.waits caller) := by
  induction h with
  | nil => rfl
  | skip _ _ ih =>
      rw [List.forall_mem_cons] at hr
      rw [List.countP_cons, List.countP_cons, ← ih hr.2, Nat.add_assoc]
  | @cut r r' routes routes' out _ hc _ ih =>
      rw [List.forall_mem_cons] at hr
      have hnone := Route.waits_eq_false (hr.1.cut_off hc) caller
      have hout : r.cut_off.countP (Output.answers caller) = if r.waits caller then 1 else 0 := by
        unfold Route.cut_off
        by_cases hs : r.status = .Active ∨ r.status = .Paused
        · have hreply : r.reply = none := by
            refine hr.1.reply_none ?_ ?_
            · rcases hs with hs | hs <;> rw [hs] <;> exact nofun
            · rcases hs with hs | hs <;> rw [hs] <;> exact nofun
          rw [Route.waits_eq_false hreply caller]
          rcases hs with hs | hs <;> rw [hs] <;> rfl
        · split
          · next hactive => exact absurd (.inl hactive) hs
          · next hpaused => exact absurd (.inr hpaused) hs
          · exact r.countP_answered _ caller
      have := ih hr.2
      rw [List.countP_append, hout, List.countP_cons, List.countP_cons, hnone]
      simp only [Bool.false_eq_true, if_false]
      omega

theorem countP_flatMap_answered (replies : List Reply) (result : Except EngineError Answer)
    (caller : Nat) :
    (replies.flatMap fun r : Reply => r.answered result).countP (Output.answers caller) =
      replies.count (.caller caller) := by
  induction replies with
  | nil => rfl
  | cons reply replies ih =>
      rw [List.flatMap_cons, List.countP_append, ih, reply.countP_answered, reply.count_callers,
        List.count_cons, Nat.add_comm]
      simp

/-- The routes that a test leaves behind are not waited for: it takes none that is. -/
theorem countP_filter_of_pending {routes : List Route} {p : Route → Bool}
    (hr : ∀ r ∈ routes, r.Pending)
    (hp : ∀ r, p r = false → r.status ≠ .Requesting ∧ r.status ≠ .Starting) (caller : Nat) :
    (routes.filter p).countP (Route.waits caller) = routes.countP (Route.waits caller) := by
  rw [List.countP_filter]
  refine List.countP_congr fun r hmem => ?_
  by_cases h : p r = true
  · rw [h, Bool.and_true]
  · have hs := hp r (Bool.eq_false_of_not_eq_true h)
    rw [Route.waits_eq_false ((hr r hmem).reply_none hs.1 hs.2) caller]
    rfl

namespace Books

/-- Answers and routes change together. -/
theorem account_routes {b : Books} {routes : List Route} {out : List Output} {n caller : Nat}
    (h : out.countP (Output.answers caller) + routes.countP (Route.waits caller) =
      b.routes.countP (Route.waits caller) + n) :
    (({ b with routes } : Books).tell out).told caller +
        (({ b with routes } : Books).tell out).waiting caller =
      b.told caller + b.waiting caller + n := by
  rw [told_tell]
  unfold told waiting tell
  dsimp only
  omega

/-- Answers and one test change together. -/
theorem account_test {b : Books} {peer : DeviceId} {t : NetTest} {out : List Output}
    {n caller : Nat}
    (h : out.countP (Output.answers caller) + t.waits caller =
      (b.tests.get peer).elim 0 (NetTest.waits caller) + n) :
    (({ b with tests := b.tests.insert peer t } : Books).tell out).told caller +
        (({ b with tests := b.tests.insert peer t } : Books).tell out).waiting caller =
      b.told caller + b.waiting caller + n := by
  have htotal := b.tests.total_insert peer t (NetTest.waits caller)
  rw [told_tell]
  unfold told waiting tell
  dsimp only
  omega

end Books

theorem TestDeed.account {s₀ : Actor} {event : Event} {l : List Nat} {b b' : Books}
    (h : TestDeed s₀ event l b b') (hw : b.Waits) (caller : Nat) :
    b'.told caller + b'.waiting caller = b.told caller + b.waiting caller + l.count caller := by
  cases h with
  | start peer conn_id caller' deadline duration _ _ _ hold =>
      -- The test whose place is taken has ended, and an ended test keeps nobody waiting.
      have hnone : (b.tests.get peer).elim 0 (NetTest.waits caller) = 0 := by
        cases ht : b.tests.get peer with
        | none => rfl
        | some t => exact NetTest.waits_eq_zero (hw.tests peer t ht (hold t ht)) caller
      have haccount := @Books.account_test b peer
        ⟨max (b.next_test_id + 1) 1, .AwaitingReady deadline, [.caller caller'], .Running⟩
        [.Send conn_id (.NetTestStart
          { test_id := max (b.next_test_id + 1) 1, duration_ms := duration })]
        ([caller'].count caller) caller ?_
      · exact haccount
      · rw [hnone, Nat.zero_add, NetTest.waits]
        simp [Output.answers, List.count_cons]
  | join peer caller' test _ _ ht hs =>
      rw [← Books.tell_nil { b with tests := _ }]
      refine Books.account_test ?_
      rw [ht, Option.elim_some, NetTest.waits, List.count_append, List.countP_nil, Nat.zero_add]
      simp [NetTest.waits, List.count_cons]
  | measure peer conn_id n ready test deadline _ _ _ _ h _ _ =>
      have hout : [Output.ProbeSink conn_id true, .Spawn (.NetworkTest peer test.test_id)].countP
          (Output.answers caller) = 0 := rfl
      refine Books.account_test ?_
      rw [h, hout, Nat.zero_add, List.count_nil]
      rfl
  | finish peer test result status hs h _ =>
      refine Books.account_test ?_
      have hprobe : ((b.conn peer).toList.map fun conn_id => Output.ProbeSink conn_id false).countP
          (Output.answers caller) = 0 := by
        cases b.conn peer <;> rfl
      rw [List.countP_append, countP_flatMap_answered, hprobe, h]
      rfl
  | forget peer hold =>
      have htotal := b.tests.total_erase peer (NetTest.waits caller)
      have hnone : (b.tests.get peer).elim 0 (NetTest.waits caller) = 0 := by
        cases ht : b.tests.get peer with
        | none => rfl
        | some t => exact NetTest.waits_eq_zero (hw.tests peer t ht (hold t ht)) caller
      unfold Books.told Books.waiting
      dsimp only
      rw [List.count_nil]
      omega

namespace Deed

variable [Crypto] {env : Env} {s₀ : Actor} {event : Event} {l : List Nat} {b b' : Books}

/-- A deed tells or keeps everybody who waited, and those it takes on. -/
theorem account (h : Deed env s₀ event l b b') (hw : b.Waits) (caller : Nat) :
    b'.told caller + b'.waiting caller = b.told caller + b.waiting caller + l.count caller := by
  cases h with
  | tend routes h =>
      rw [← Books.tell_nil { b with routes }]
      refine Books.account_routes ?_
      rw [countP_waits_steady h caller, List.count_nil, List.countP_nil, Nat.zero_add]
      rfl
  | activate key r _ hr hs =>
      rw [Books.told_kept, Books.waiting_kept]
      refine Books.account_routes ?_
      -- A route asked for here answers its caller now; one asked for by the peer has none.
      have hmod := List.countP_modify_first (q := Route.waits caller) (f := Route.activated) hr
      have hstarted : r.started.countP (Output.answers caller) +
          (if r.activated.waits caller then 1 else 0) = if r.waits caller then 1 else 0 := by
        unfold Route.started
        by_cases hlocal : r.requested_locally = true
        · have hnone : r.activated.reply = none := if_pos hlocal
          rw [if_pos hlocal, Route.waits_eq_false hnone, r.countP_answered]
          rfl
        · have hsame : r.activated.reply = r.reply := if_neg hlocal
          unfold Route.waits
          rw [if_neg hlocal, hsame, List.countP_nil, Nat.zero_add]
      rw [List.count_nil]
      omega
  | finish key route rest e h =>
      rw [Books.told_kept, Books.waiting_kept]
      refine Books.account_routes ?_
      rw [List.countP_append, b.told_unplugs, route.countP_answered, List.countP_remove_first h,
        List.count_nil]
      omega
  | refuse _ _ _ route rest e _ _ _ h =>
      refine Books.account_routes ?_
      rw [route.countP_answered, List.countP_remove_first h, List.count_nil]
      omega
  | lose key route rest e _ h =>
      refine Books.account_routes ?_
      rw [route.countP_answered, List.countP_remove_first h, List.count_nil]
      omega
  | accept key route r₁ rest h hs =>
      rw [← Books.tell_nil { b with routes := rest ++ [r₁] }]
      refine Books.account_routes ?_
      have hsame : r₁.waits caller = route.waits caller := hs.waits_eq caller
      rw [List.countP_append, List.countP_singleton, hsame, List.countP_remove_first h,
        List.countP_nil, List.count_nil]
      omega
  | supplant peer id kind =>
      rw [← Books.tell_nil { b with routes := _ }]
      refine Books.account_routes ?_
      rw [countP_filter_of_pending hw.routes, List.countP_nil, Nat.zero_add, List.count_nil]
      · rfl
      -- Only paused routes make way, and nobody waits for a paused route.
      · intro r hr
        have hreplaced : Actor.replaced_by peer id kind r = true := by simpa using hr
        have hpaused : r.status = .Paused := (of_decide_eq_true hreplaced).2.1
        rw [hpaused]
        exact ⟨nofun, nofun⟩
  | take_on peer id kind volume r₁ hs =>
      rw [← Books.tell_nil { b with routes := b.routes ++ [r₁] }]
      refine Books.account_routes ?_
      rw [List.countP_append, List.countP_singleton, Route.waits_eq_false hs.reply, List.countP_nil,
        List.count_nil, Nat.zero_add]
      rfl
  | rebuild key route r₁ rest h hs =>
      refine Books.account_routes ?_
      have hsame : r₁.waits caller = route.waits caller := hs.waits_eq caller
      rw [b.told_unplugs, List.countP_append, List.countP_singleton, hsame,
        List.countP_remove_first h,
        List.count_nil]
      omega
  | reopen key route r₁ h hs =>
      refine Books.account_routes ?_
      have hmod := List.countP_modify_first (q := Route.waits caller) (f := fun _ => r₁) h
      have hsame : r₁.waits caller = route.waits caller := hs.waits_eq caller
      rw [hsame] at hmod
      rw [b.told_unplugs, List.count_nil]
      omega
  | receive peer id start_id conn_id r _ _ _ h =>
      refine Books.account_routes ?_
      have hmod := List.countP_modify_first (q := Route.waits caller)
        (f := fun r : Route => { r with start_id := 0, receiver := some start_id }) h
      have hsame : ({ r with start_id := 0, receiver := some start_id } : Route).waits caller =
        r.waits caller := rfl
      have hout : [Output.AddSink conn_id id].countP (Output.answers caller) = 0 := rfl
      rw [hsame] at hmod
      rw [hout, List.count_nil]
      omega
  | give_up key r h =>
      refine Books.account_routes ?_
      have hmod := List.countP_modify_first (q := Route.waits caller)
        (f := fun r : Route => { r with reply := none }) h
      have hnone : ({ r with reply := none } : Route).waits caller = false := rfl
      rw [hnone] at hmod
      simp only [Bool.false_eq_true, if_false] at hmod
      rw [r.countP_answered, List.count_nil]
      omega
  | pause peer routes out _ h =>
      rw [Books.told_kept, Books.waiting_kept]
      refine Books.account_routes ?_
      have hcut := h.account hw.routes caller
      -- The routes that are cut off end `Stopped` and are taken out; whoever waited was answered
      -- in the cut.
      have hpending : ∀ r ∈ routes, r.Pending := by
        intro r hr
        rcases h.unwaited hw.routes r hr with hmem | hnone
        · exact hw.routes r hmem
        · exact .of_none hnone
      rw [countP_filter_of_pending hpending, hcut, List.count_nil]
      · rfl
      · intro r hr
        have hstopped : r.status = .Stopped := by simpa using hr
        rw [hstopped]
        exact ⟨nofun, nofun⟩
  | request peer kind conn_id reply r _ hasked _ =>
      rw [← Books.tell_nil { b with routes := b.routes ++ [r] }]
      refine Books.account_routes ?_
      have hwaits : r.waits caller = decide (reply = .caller caller) := by
        unfold Route.waits
        rw [hasked.reply]
        simp
      rw [List.countP_append, List.countP_singleton, hwaits, reply.count_callers, List.countP_nil,
        Nat.zero_add]
      simp
  | answer reply result _ _ =>
      refine Books.account_routes ?_
      rw [reply.countP_answered, Nat.add_comm]
  | set_aside peer ha =>
      -- Set aside and put back only move routes between two lists that are both counted.
      have hsplit := List.countP_eq_countP_filter_add b.routes (Route.waits caller) fun r =>
        r.peer = peer ∧ r.status = .Paused ∧ r.requested_locally
      unfold Books.told Books.waiting
      dsimp only
      rw [ha, List.countP_nil, List.count_nil]
      omega
  | put_back kind route rest h =>
      unfold Books.told Books.waiting
      dsimp only
      rw [List.countP_append, List.countP_singleton, List.countP_remove_first h, List.count_nil]
      omega
  | discard =>
      have hnone : b.aside.countP (Route.waits caller) = 0 := by
        refine List.countP_eq_zero.2 fun r hr => ?_
        rw [Route.waits_eq_false (hw.aside r hr)]
        exact Bool.false_ne_true
      unfold Books.told Books.waiting
      dsimp only
      rw [hnone]
      rfl
  | drop id => rfl
  | install id est _ _ _ => rfl
  | test h => exact h.account hw caller
  | watch monitor =>
      rw [Books.told_kept, Books.waiting_kept]
      rfl

/-- What is so of a test a caller waits for stays so, if it is so of those it asks for. -/
theorem test_holder (h : Deed env s₀ event l b b') {caller : Nat} {P : DeviceId → UInt32 → Prop}
    (hP : ∀ peer, event = .Command (.RunNetworkTest peer caller) → ∀ id, P peer id)
    (hb : ∀ peer t, b.tests.get peer = some t → .caller caller ∈ t.replies → P peer t.test_id) :
    ∀ peer t, b'.tests.get peer = some t → .caller caller ∈ t.replies → P peer t.test_id := by
  cases h with
  | test h =>
      intro id t ht hmem
      have hset {peer : DeviceId} {new : NetTest}
          (hnew : Reply.caller caller ∈ new.replies → P peer new.test_id)
          (ht : (b.tests.insert peer new).get id = some t) : P id t.test_id :=
        TestDeed.of_get_insert
          (P := fun id t => Reply.caller caller ∈ t.replies → P id t.test_id) hnew (hb id t) ht hmem
      cases h with
      | start peer _ caller' _ _ he _ _ _ =>
          refine hset (fun hmem => hP peer ?_ _) ht
          rw [he, Reply.caller.inj (List.mem_singleton.1 hmem)]
      | join peer caller' test he _ htest _ =>
          refine hset (fun hmem => ?_) ht
          rcases List.mem_append.1 hmem with hmem | hmem
          · exact hb peer test htest hmem
          · refine hP peer ?_ _
            rw [he, Reply.caller.inj (List.mem_singleton.1 hmem)]
      | measure peer _ _ _ test _ _ _ _ _ htest _ _ =>
          refine hset ?_ ht
          exact hb peer test htest
      | finish => exact hset (fun hmem => absurd hmem List.not_mem_nil) ht
      | forget peer _ => exact hb id t (Table.get_of_get_erase ht).2 hmem
  | activate | finish | pause | watch =>
      rw [Books.kept_tests]
      exact hb
  | _ => exact hb

end Deed

/-! ## 4. Events -/

namespace Actor

/-- Callers that wait for this engine. -/
def waiting (s : Actor) (caller : Nat) : Nat :=
  s.routes.countP (Route.waits caller) + s.net_tests.total (NetTest.waits caller)

theorem books_waiting (s : Actor) (caller : Nat) : s.books.waiting caller = s.waiting caller := rfl

theorem books_told (s : Actor) (caller : Nat) :
    s.books.told caller = s.out.countP (Output.answers caller) := by
  unfold Books.told books
  rw [List.countP_filter]
  refine List.countP_congr fun o _ => ?_
  cases o <;> simp [Output.answers]

end Actor

theorem Deeds.account [Crypto] {env : Env} {s₀ : Actor} {event : Event} {l : List Nat}
    {b b' : Books} (h : Deeds env s₀ event l b b') (hw : b.Waits) (caller : Nat) :
    b'.Waits ∧
      b'.told caller + b'.waiting caller = b.told caller + b.waiting caller + l.count caller := by
  induction h with
  | refl => exact ⟨hw, rfl⟩
  | tail h hdeed ih =>
      obtain ⟨hw', he⟩ := ih hw
      refine ⟨hdeed.waits hw', ?_⟩
      rw [hdeed.account hw', he, List.count_append, Nat.add_assoc]

theorem Deeds.holder [Crypto] {env : Env} {s₀ : Actor} {event : Event} {l : List Nat}
    {b b' : Books} (h : Deeds env s₀ event l b b') (hw : b.Waits) {caller : Nat}
    {P : RouteKey → RouteKind → Prop}
    (hP : ∀ peer kind replace, event = .Command (.StartRoute peer kind replace caller) →
      ∀ id, P ⟨peer, id⟩ kind)
    (hb : ∀ r ∈ b.routes, r.reply = some (.caller caller) → P r.key r.kind) :
    ∀ r ∈ b'.routes, r.reply = some (.caller caller) → P r.key r.kind := by
  induction h with
  | refl => exact hb
  | tail h hdeed ih => exact hdeed.holder (h.account hw 0).1 hP (ih hw hb)

theorem Deeds.test_holder [Crypto] {env : Env} {s₀ : Actor} {event : Event} {l : List Nat}
    {b b' : Books} (h : Deeds env s₀ event l b b') {caller : Nat} {P : DeviceId → UInt32 → Prop}
    (hP : ∀ peer, event = .Command (.RunNetworkTest peer caller) → ∀ id, P peer id)
    (hb : ∀ peer t, b.tests.get peer = some t → .caller caller ∈ t.replies → P peer t.test_id) :
    ∀ peer t, b'.tests.get peer = some t → .caller caller ∈ t.replies → P peer t.test_id := by
  induction h with
  | refl => exact hb
  | tail _ hdeed ih => exact hdeed.test_holder hP (ih hb)

/-! ## 5. Runs -/

section
variable [Crypto]

namespace Moment

/-- How often the event answers the caller. -/
def answers (caller : Nat) (q : Moment) : Nat :=
  (q.1.step q.2).actor.out.countP (Output.answers caller)

/-- How often the event is the caller's command. -/
def asks (caller : Nat) (q : Moment) : Nat := q.2.event.callers.count caller

end Moment

/-- How often the run has answered the caller. -/
def answered (tr : List Moment) (caller : Nat) : Nat := (tr.map (Moment.answers caller)).sum

/-- How often the caller has asked in the run. -/
def asked (tr : List Moment) (caller : Nat) : Nat := (tr.map (Moment.asks caller)).sum

theorem World.step_deeds (w : World) (i : Input) :
    Deeds i.env w.met i.event i.event.callers w.met.books (w.step i).actor.books := by
  exact w.met.handle_deeds i.env i.event

/-- In every run the callers that asked are answered or wait, and they wait in sound places. -/
theorem run_accounts {Known : PublicKey → Prop} {tr : List Moment} {w : World}
    (hr : (engine Known).Run tr w) :
    w.actor.books.Waits ∧
      ∀ caller, answered tr caller + w.actor.waiting caller = asked tr caller := by
  induction hr with
  | start h =>
      obtain ⟨identity, trust, settings, _, rfl⟩ := h
      refine ⟨⟨fun r hr => absurd hr List.not_mem_nil, fun r hr => absurd hr List.not_mem_nil,
        fun peer t ht => ?_⟩, fun caller => rfl⟩
      cases ht
  | @next tr w i _ _ ih =>
      obtain ⟨hw, hall⟩ := ih
      have hmet : w.met.books.Waits := ⟨hw.routes, hw.aside, hw.tests⟩
      refine ⟨((w.step_deeds i).account hmet 0).1, fun caller => ?_⟩
      have haccount := ((w.step_deeds i).account hmet caller).2
      have hstart : w.met.books.told caller = 0 := rfl
      have hbefore : w.met.books.waiting caller = w.actor.waiting caller := rfl
      rw [Actor.books_told, Actor.books_waiting, hstart, hbefore] at haccount
      have hstep : Moment.answers caller (w, i) =
        (w.step i).actor.out.countP (Output.answers caller) := rfl
      have hcall : Moment.asks caller (w, i) = i.event.callers.count caller := rfl
      have := hall caller
      unfold answered asked at this ⊢
      rw [List.map_append, List.sum_append, List.map_append, List.sum_append, List.map_singleton,
        List.sum_singleton, List.map_singleton, List.sum_singleton, hstep, hcall]
      change _ + (w.step i).actor.waiting caller = _
      omega

omit [Crypto] in
theorem asked_append (tr tr' : List Moment) (caller : Nat) :
    asked (tr ++ tr') caller = asked tr caller + asked tr' caller := by
  unfold asked
  rw [List.map_append, List.sum_append]

omit [Crypto] in
theorem asked_eq_zero {tr : List Moment} {caller : Nat}
    (h : ∀ q ∈ tr, caller ∉ q.2.event.callers) : asked tr caller = 0 := by
  unfold asked
  rw [List.sum_eq_zero_iff_forall_eq_nat]
  intro n hn
  obtain ⟨q, hq, rfl⟩ := List.mem_map.1 hn
  exact List.count_eq_zero.2 (h q hq)

omit [Crypto] in
/-- A caller that asked in one event alone has asked once. -/
theorem asked_once {before after : List Moment} {q : Moment} {caller : Nat}
    (hq : q.2.event.callers = [caller])
    (h : ∀ q' ∈ before ++ after, caller ∉ q'.2.event.callers) :
    asked (before ++ q :: after) caller = 1 := by
  have hcall : asked [q] caller = 1 := by
    unfold asked Moment.asks
    rw [List.map_singleton, hq, List.sum_singleton, List.count_singleton_self]
  rw [List.append_cons, asked_append, asked_append, hcall,
    asked_eq_zero fun q' hq' => h q' (List.mem_append_left _ hq'),
    asked_eq_zero fun q' hq' => h q' (List.mem_append_right _ hq')]

/-- Nobody but those who asked for a network test waits for one. -/
theorem run_no_test {Known : PublicKey → Prop} {tr : List Moment} {w : World}
    (hr : (engine Known).Run tr w) {caller : Nat}
    (h : ∀ q ∈ tr, ∀ peer, q.2.event ≠ .Command (.RunNetworkTest peer caller)) :
    ∀ peer t, w.actor.net_tests.get peer = some t → .caller caller ∉ t.replies := by
  induction hr with
  | start hinit =>
      obtain ⟨identity, trust, settings, _, rfl⟩ := hinit
      intro peer t ht
      cases ht
  | @next tr w i _ _ ih =>
      have hlast := h (w, i) (List.mem_append_right _ (List.mem_singleton_self _))
      have hbefore := ih fun q hq => h q (List.mem_append_left _ hq)
      exact (w.step_deeds i).test_holder (P := fun _ _ => False)
        (fun peer he => absurd he (hlast peer)) hbefore

/-- Nobody but those who asked for a route waits for one. -/
theorem run_no_route {Known : PublicKey → Prop} {tr : List Moment} {w : World}
    (hr : (engine Known).Run tr w) {caller : Nat}
    (h : ∀ q ∈ tr, ∀ peer kind replace,
      q.2.event ≠ .Command (.StartRoute peer kind replace caller)) :
    ∀ r ∈ w.actor.routes, r.reply ≠ some (.caller caller) := by
  induction hr with
  | start hinit =>
      obtain ⟨identity, trust, settings, _, rfl⟩ := hinit
      exact fun r hr => absurd hr List.not_mem_nil
  | @next tr w i hrun _ ih =>
      have hw := (run_accounts hrun).1
      have hlast := h (w, i) (List.mem_append_right _ (List.mem_singleton_self _))
      have hbefore := ih fun q hq => h q (List.mem_append_left _ hq)
      exact (w.step_deeds i).holder ⟨hw.routes, hw.aside, hw.tests⟩ (P := fun _ _ => False)
        (fun peer kind replace he => absurd he (hlast peer kind replace)) hbefore

/-- The route that a caller waits for is the one that its command left waiting. -/
theorem run_holder {Known : PublicKey → Prop} {before after : List Moment} {q : Moment} {w : World}
    (hr : (engine Known).Run (before ++ q :: after) w) {caller : Nat}
    (h : ∀ q' ∈ after, caller ∉ q'.2.event.callers) :
    ∀ r ∈ w.actor.routes, r.reply = some (.caller caller) →
      ∃ r₁ ∈ (q.1.step q.2).actor.routes, r₁.reply = some (.caller caller) ∧
        r.key = r₁.key ∧ r.kind = r₁.kind := by
  refine hr.since (P := fun tr w => (∀ q' ∈ tr, caller ∉ q'.2.event.callers) →
    ∀ r ∈ w.actor.routes, r.reply = some (.caller caller) →
      ∃ r₁ ∈ (q.1.step q.2).actor.routes, r₁.reply = some (.caller caller) ∧
        r.key = r₁.key ∧ r.kind = r₁.kind) ?_ ?_ h
  · intro _ r hmem hreply
    exact ⟨r, hmem, hreply, rfl, rfl⟩
  · intro tr w i hrun _ ih hfresh
    have hw := (run_accounts hrun).1
    have hmet : w.met.books.Waits := ⟨hw.routes, hw.aside, hw.tests⟩
    refine (w.step_deeds i).holder hmet
      (P := fun key kind => ∃ r₁ ∈ (q.1.step q.2).actor.routes,
        r₁.reply = some (.caller caller) ∧ key = r₁.key ∧ kind = r₁.kind) ?_
      (ih fun q' hq' => hfresh q' (List.mem_append_left _ hq'))
    intro peer kind replace he
    refine absurd ?_ (hfresh (w, i) (List.mem_append_right _ (List.mem_singleton_self _)))
    rw [he]
    exact List.mem_singleton_self _

/-- The test that a caller waits for is the one that its command left waiting. -/
theorem run_test_holder {Known : PublicKey → Prop} {before after : List Moment} {q : Moment}
    {w : World} (hr : (engine Known).Run (before ++ q :: after) w) {caller : Nat}
    (h : ∀ q' ∈ after, caller ∉ q'.2.event.callers) :
    ∀ peer t, w.actor.net_tests.get peer = some t → .caller caller ∈ t.replies →
      ∃ t₁, (q.1.step q.2).actor.net_tests.get peer = some t₁ ∧ .caller caller ∈ t₁.replies ∧
        t₁.test_id = t.test_id := by
  refine hr.since (P := fun tr w => (∀ q' ∈ tr, caller ∉ q'.2.event.callers) →
    ∀ peer t, w.actor.net_tests.get peer = some t → .caller caller ∈ t.replies →
      ∃ t₁, (q.1.step q.2).actor.net_tests.get peer = some t₁ ∧ .caller caller ∈ t₁.replies ∧
        t₁.test_id = t.test_id) ?_ ?_ h
  · intro _ peer t ht hmem
    exact ⟨t, ht, hmem, rfl⟩
  · intro tr w i hrun _ ih hfresh
    refine (w.step_deeds i).test_holder
      (P := fun peer id => ∃ t₁, (q.1.step q.2).actor.net_tests.get peer = some t₁ ∧
        Reply.caller caller ∈ t₁.replies ∧ t₁.test_id = id) ?_
      (ih fun q' hq' => hfresh q' (List.mem_append_left _ hq'))
    intro peer he
    refine absurd ?_ (hfresh (w, i) (List.mem_append_right _ (List.mem_singleton_self _)))
    rw [he]
    exact List.mem_singleton_self _

/-- In every run a route holds a pending reply only while it is requested or starting; and the
caller of a `StartRoute` has been answered once and waits nowhere, or has not been answered and the
route that its command left waiting is still requested or starting. -/
theorem start_route_answered_once {Known : PublicKey → Prop} {tr : List Moment} {w : World}
    (hr : (engine Known).Run tr w) :
    (∀ r ∈ w.actor.routes, r.reply ≠ none → r.status = .Requesting ∨ r.status = .Starting) ∧
    ∀ before q after peer kind replace caller, tr = before ++ q :: after →
      q.2.event = .Command (.StartRoute peer kind replace caller) →
      (∀ q' ∈ before ++ after, caller ∉ q'.2.event.callers) →
      (answered tr caller = 1 ∧ ∀ r ∈ w.actor.routes, r.reply ≠ some (.caller caller)) ∨
      (answered tr caller = 0 ∧
        ∃ r₁ ∈ (q.1.step q.2).actor.routes, r₁.reply = some (.caller caller) ∧ r₁.peer = peer ∧
          r₁.kind = kind ∧
        ∃ r ∈ w.actor.routes, r.reply = some (.caller caller) ∧ r.key = r₁.key ∧ r.kind = kind ∧
          (r.status = .Requesting ∨ r.status = .Starting)) := by
  obtain ⟨hw, hall⟩ := run_accounts hr
  refine ⟨fun r hmem hreply => (hw.routes r hmem hreply).2, ?_⟩
  rintro before q after peer kind replace caller rfl hq hnew
  have hcallers : q.2.event.callers = [caller] := by
    rw [hq]
    rfl
  have hone : answered (before ++ q :: after) caller + w.actor.waiting caller = 1 :=
    (hall caller).trans (asked_once hcallers hnew)
  have htests : w.actor.net_tests.total (NetTest.waits caller) = 0 := by
    rw [Table.total_eq_zero]
    refine fun id t ht => List.count_eq_zero.2 (run_no_test hr (fun q' hq' id he => ?_) id t ht)
    have hmem : q' ∈ before ++ after := by
      rcases List.mem_append.1 hq' with hq' | hq'
      · exact List.mem_append_left _ hq'
      · rcases List.mem_cons.1 hq' with rfl | hq'
        · cases hq.symm.trans he
        · exact List.mem_append_right _ hq'
    refine hnew q' hmem ?_
    rw [he]
    exact List.mem_singleton_self _
  unfold Actor.waiting at hone
  by_cases hex : ∃ r ∈ w.actor.routes, r.reply = some (.caller caller)
  · right
    obtain ⟨r, hmem, hreply⟩ := hex
    have hpos : 0 < w.actor.routes.countP (Route.waits caller) :=
      List.countP_pos_iff.2 ⟨r, hmem, decide_eq_true hreply⟩
    refine ⟨by omega, ?_⟩
    obtain ⟨r₁, hmem₁, hreply₁, hkey, hkind⟩ :=
      run_holder hr (fun q' hq' => hnew q' (List.mem_append_right _ hq')) r hmem hreply
    -- before its command nobody waited, so the route is the one it asked for
    obtain ⟨hrun, _⟩ := hr.before
    obtain ⟨hw₀, hall₀⟩ := run_accounts hrun
    have hnone := (hall₀ caller).trans
      (asked_eq_zero fun q' hq' => hnew q' (List.mem_append_left _ hq'))
    have hasked := (q.1.step_deeds q.2).holder ⟨hw₀.routes, hw₀.aside, hw₀.tests⟩
      (P := fun key k => key.peer = peer ∧ k = kind)
      (fun peer' kind' replace' he id => by
        cases hq.symm.trans he
        exact ⟨rfl, rfl⟩)
      (fun r₀ hmem₀ hreply₀ => by
        have : 0 < q.1.actor.routes.countP (Route.waits caller) :=
          List.countP_pos_iff.2 ⟨r₀, hmem₀, decide_eq_true hreply₀⟩
        unfold Actor.waiting at hnone
        omega) r₁ hmem₁ hreply₁
    exact ⟨r₁, hmem₁, hreply₁, hasked.1, hasked.2, r, hmem, hreply, hkey, hkind.trans hasked.2,
      (hw.routes r hmem (hreply ▸ nofun)).2⟩
  · left
    have hzero : w.actor.routes.countP (Route.waits caller) = 0 := by
      refine List.countP_eq_zero.2 fun r hmem hwaits => hex ⟨r, hmem, of_decide_eq_true hwaits⟩
    exact ⟨by omega, fun r hmem hreply => hex ⟨r, hmem, hreply⟩⟩

end

/-! ## 6. A run -/

namespace Sample

/-- The peer does not want the route. -/
def refuses : Input := ⟨env, .Control 1 (.RouteReject { route := 1, reason := 3 })⟩

theorem sends_refused_admitted : (engine Known).Admits (start .default)
    (connects 1 peer peer_key ++ [sends, refuses]) := by
  refine ⟨.inl rfl, ⟨⟨_, List.mem_singleton.2 rfl, ?_⟩, ?_⟩, trivial, ?_, trivial⟩
  · simp [Call.reports]
    rfl
  · decide
  · exact List.mem_cons_self

end Sample

open Sample in
/-- A caller whose route is refused hears of it, once. -/
theorem start_route_answered_once_refused :
    let w := (engine Known).exec (start .default) (connects 1 peer peer_key)
    answered ((engine Known).trace (start .default) (connects 1 peer peer_key) ++
      (w, sends) :: [(w.step sends, refuses)]) 1 = 1 := by
  have hrun := Machine.run_of_admits (start_init .default) sends_refused_admitted
  rw [Machine.trace_append] at hrun
  have hroutes : ((engine Known).exec (start .default)
      (connects 1 peer peer_key ++ [sends, refuses])).actor.routes = [] := by
    decide +kernel
  have hnew : ∀ q ∈ (engine Known).trace (start .default) (connects 1 peer peer_key) ++
      [(((engine Known).exec (start .default) (connects 1 peer peer_key)).step sends, refuses)],
      1 ∉ q.2.event.callers := by
    intro q hq
    simp only [connects, Machine.trace, List.cons_append, List.nil_append, List.mem_cons,
      List.not_mem_nil, or_false] at hq
    rcases hq with rfl | rfl | rfl <;> exact List.not_mem_nil
  rcases (start_route_answered_once hrun).2 _ _ _ peer .SendSystemAudio false 1 rfl rfl hnew with
    h | ⟨_, _, _, _, _, _, r, hr, _⟩
  · exact h.1
  · rw [hroutes] at hr
    exact absurd hr List.not_mem_nil

end SoundPush
