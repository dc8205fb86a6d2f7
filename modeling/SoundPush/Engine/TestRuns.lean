/-
`TestRuns` -- network tests over whole runs of the engine.

A test is known by the id in its `NetTestStart`, its measurement by the task of that id
and its probes by the sink on the session's connection. `Books.Tested` ties these to
the table of tests: ids are given out in order, a measurement is started once and for
the test that awaited it, and a sink is attached only while the test measures. Every
deed keeps it, so that what reports, late or repeated, finds its own test or none.
-/
import SoundPush.Engine.Answers
import SoundPush.Engine.Places

set_option autoImplicit false

namespace SoundPush

/-! ## 1. The effects of tests -/

/-- The effect is about a network test run by this engine. -/
def Output.tests : Output → Bool
  | .Send _ (.NetTestStart _) | .Spawn (.NetworkTest ..) | .ProbeSink .. => true
  | .Answer _ (.ok (.Report _)) => true
  | _ => false

/-- The id of the test that the effect starts. -/
def Output.test_id : Output → Option UInt32
  | .Send _ (.NetTestStart start) => some start.test_id
  | _ => none

/-- The effect starts a test's measurement. -/
def Output.measures (peer : DeviceId) (id : UInt32) : Output → Bool
  | .Spawn (.NetworkTest p i) => p == peer && i == id
  | _ => false

/-- What the effect makes of a connection's probe sink. -/
def Output.probes (conn_id : Nat) (attached : Bool) : Output → Bool
  | .ProbeSink c on => if c = conn_id then on else attached
  | _ => attached

/-- The ids of the tests that were started, in order. -/
def test_ids (out : List Output) : List UInt32 := out.filterMap Output.test_id

/-- Whether a connection's probe sink is attached after the effects. -/
def probed (out : List Output) (conn_id : Nat) : Bool :=
  out.foldl (Output.probes conn_id) false

theorem Output.measures_iff {peer : DeviceId} {id : UInt32} {o : Output} :
    o.measures peer id = true ↔ o = .Spawn (.NetworkTest peer id) := by
  unfold measures
  split
  · simp
  · next hne => exact ⟨nofun, fun he => absurd he (hne peer id)⟩

theorem test_ids_append (out out' : List Output) :
    test_ids (out ++ out') = test_ids out ++ test_ids out' := List.filterMap_append

theorem test_ids_quiet {out : List Output} (h : ∀ o ∈ out, o.tests = false) :
    test_ids out = [] := by
  refine List.filterMap_eq_nil_iff.2 fun o ho => ?_
  have := h o ho
  unfold Output.test_id
  split
  · cases this
  · rfl

theorem countP_measures_quiet {out : List Output} (h : ∀ o ∈ out, o.tests = false)
    (peer : DeviceId) (id : UInt32) : out.countP (Output.measures peer id) = 0 := by
  refine List.countP_eq_zero.2 fun o ho hm => ?_
  have := h o ho
  rw [Output.measures_iff.1 hm] at this
  cases this

theorem probed_append (out out' : List Output) (conn_id : Nat) :
    probed (out ++ out') conn_id = out'.foldl (Output.probes conn_id) (probed out conn_id) :=
  List.foldl_append

/-- Effects that are not on the connection leave its sink as it is. -/
theorem foldl_probes_of_forall {out : List Output} {conn_id : Nat} (attached : Bool)
    (h : ∀ o ∈ out, ∀ on, o ≠ .ProbeSink conn_id on) :
    out.foldl (Output.probes conn_id) attached = attached := by
  induction out with
  | nil => rfl
  | cons o out ih =>
      have hhead : o.probes conn_id attached = attached := by
        unfold Output.probes
        split
        · next c on =>
            rw [if_neg]
            rintro rfl
            exact h _ List.mem_cons_self on rfl
        · rfl
      rw [List.foldl_cons, hhead]
      exact ih fun o ho => h o (List.mem_cons_of_mem _ ho)

theorem ne_probe_of_quiet {out : List Output} (h : ∀ o ∈ out, o.tests = false) (conn_id : Nat) :
    ∀ o ∈ out, ∀ on, o ≠ .ProbeSink conn_id on := by
  rintro o ho on rfl
  exact nomatch h _ ho

/-! ## 2. The other deeds -/

/-- Nothing happens to the tests. -/
structure Books.Quiet (b b' : Books) : Prop where
  tests : b'.tests = b.tests
  next_test_id : b'.next_test_id = b.next_test_id
  conn : b'.conn = b.conn
  out : ∃ out, b'.out = b.out ++ out ∧ ∀ o ∈ out, o.tests = false

namespace Books

theorem Quiet.of_eq {b b' : Books} (ht : b'.tests = b.tests) (hn : b'.next_test_id = b.next_test_id)
    (hc : b'.conn = b.conn) (ho : b'.out = b.out) : b.Quiet b' :=
  ⟨ht, hn, hc, [], by rw [ho, List.append_nil], fun _ h => absurd h List.not_mem_nil⟩

theorem Quiet.tell {b b' : Books} (h : b.Quiet b') {out : List Output}
    (hout : ∀ o ∈ out, o.tests = false) : b.Quiet (b'.tell out) := by
  obtain ⟨before, hbefore, hquiet⟩ := h.out
  refine ⟨h.tests, h.next_test_id, h.conn, before ++ out, ?_, fun o ho => ?_⟩
  · unfold Books.tell
    dsimp only
    rw [hbefore, List.append_assoc]
  · rcases List.mem_append.1 ho with ho | ho
    · exact hquiet o ho
    · exact hout o ho

theorem Quiet.kept {b b' : Books} (h : b.Quiet b') : b.Quiet b'.kept := by
  unfold Books.kept
  by_cases hk : b'.wakes ≠ b'.keep_alive
  · rw [if_pos hk]
    have hwakes : b.Quiet { b' with keep_alive := b'.wakes } :=
      ⟨h.tests, h.next_test_id, h.conn, h.out⟩
    refine hwakes.tell fun o ho => ?_
    rw [List.mem_singleton.1 ho]
    rfl
  · rw [if_neg hk]
    exact h

theorem unplugs_quiet (b : Books) (r : Route) : ∀ o ∈ b.unplugs r, o.tests = false := by
  intro o ho
  unfold unplugs at ho
  split at ho
  · rw [List.mem_singleton.1 ho]
    rfl
  · exact absurd ho List.not_mem_nil

end Books

theorem Reply.answered_quiet {reply : Reply} {result : Except EngineError Answer}
    (h : ∀ report, result ≠ .ok (.Report report)) :
    ∀ o ∈ reply.answered result, o.tests = false := by
  intro o ho
  cases reply with
  | caller id =>
      rw [List.mem_singleton.1 ho]
      unfold Output.tests
      split
      · next heq => cases heq
      · next heq => cases heq
      · next heq => cases heq
      · next heq => cases heq; exact absurd rfl (h _)
      · rfl
  | dropped => exact absurd ho List.not_mem_nil

theorem Route.answered_quiet {r : Route} {result : Except EngineError Answer}
    (h : ∀ report, result ≠ .ok (.Report report)) : ∀ o ∈ r.answered result, o.tests = false := by
  unfold answered
  split
  · exact Reply.answered_quiet h
  · exact fun _ ho => absurd ho List.not_mem_nil

theorem Route.answered_error_quiet (r : Route) (e : EngineError) :
    ∀ o ∈ r.answered (.error e), o.tests = false := by
  refine Route.answered_quiet ?_
  exact nofun

theorem CutsOff.quiet {peer : DeviceId} {routes routes' : List Route} {out : List Output}
    (h : CutsOff peer routes routes' out) : ∀ o ∈ out, o.tests = false := by
  induction h with
  | nil => exact fun _ ho => absurd ho List.not_mem_nil
  | skip _ _ ih => exact ih
  | @cut r r' _ _ _ _ _ _ ih =>
      intro o ho
      rcases List.mem_append.1 ho with ho | ho
      · unfold Route.cut_off at ho
        split at ho
        · exact absurd ho List.not_mem_nil
        · exact absurd ho List.not_mem_nil
        · exact r.answered_error_quiet _ o ho
      · exact ih o ho

/-- A deed is about a test, about a session, or about neither. -/
theorem Deed.quiet [Crypto] {env : Env} {s₀ : Actor} {event : Event} {l : List Nat} {b b' : Books}
    (h : Deed env s₀ event l b b') :
    b.Quiet b' ∨ TestDeed s₀ event l b b' ∨ (∃ id, b' = b.without id) ∨
      ∃ id est, s₀.installs env event id est ∧
        b' = { b with conn := fun k => if k = id then some est.conn_id else b.conn k } := by
  have hsame (routes aside : List Route) (monitor : Bool) :
      b.Quiet { b with routes, aside, monitor } := .of_eq rfl rfl rfl rfl
  cases h with
  | test h => exact .inr (.inl h)
  | drop id => exact .inr (.inr (.inl ⟨id, rfl⟩))
  | install id est hi _ _ => exact .inr (.inr (.inr ⟨id, est, hi, rfl⟩))
  | activate key r _ _ _ =>
      refine .inl ((hsame _ _ _).tell fun o ho => ?_).kept
      unfold Route.started at ho
      split at ho
      · refine Route.answered_quiet ?_ o ho
        exact nofun
      · exact absurd ho List.not_mem_nil
  | finish key route rest e _ =>
      refine .inl ((hsame _ _ _).tell fun o ho => ?_).kept
      rcases List.mem_append.1 ho with ho | ho
      · exact b.unplugs_quiet route o ho
      · exact route.answered_error_quiet e o ho
  | refuse _ _ _ route _ e _ _ _ _ => exact .inl ((hsame _ _ _).tell (route.answered_error_quiet e))
  | lose _ route _ e _ _ => exact .inl ((hsame _ _ _).tell (route.answered_error_quiet e))
  | rebuild key route => exact .inl ((hsame _ _ _).tell (b.unplugs_quiet route))
  | reopen key route => exact .inl ((hsame _ _ _).tell (b.unplugs_quiet route))
  | receive =>
      refine .inl ((hsame _ _ _).tell fun o ho => ?_)
      rw [List.mem_singleton.1 ho]
      rfl
  | give_up key r _ => exact .inl ((hsame _ _ _).tell (r.answered_error_quiet _))
  | pause _ _ _ _ h => exact .inl ((hsame _ _ _).tell h.quiet).kept
  | answer reply result hr _ => exact .inl ((hsame _ _ _).tell (Reply.answered_quiet hr))
  | watch monitor => exact .inl (hsame _ _ _).kept
  | _ => exact .inl (hsame _ _ _)

/-! ## 3. Ids and measurements -/

/-- The tests after the effects `out` of a run: ids are given out in order, and a measurement is
started once, for a test that has stopped to await its peer. -/
structure Books.Tested (out : List Output) (b : Books) : Prop where
  phase : ∀ peer t, b.tests.get peer = some t → (t.status = .Running ↔ t.phase ≠ .Finished)
  count : b.next_test_id.toNat = (test_ids out).length
  order : (test_ids out).map UInt32.toNat = List.range' 1 (test_ids out).length
  given : ∀ peer t, b.tests.get peer = some t → t.test_id ∈ test_ids out
  once : ∀ peer id, out.countP (Output.measures peer id) ≤ 1
  spent : ∀ peer id, 0 < out.countP (Output.measures peer id) →
    id ∈ test_ids out ∧ ∀ t, b.tests.get peer = some t → t.test_id = id →
      ∀ deadline, t.phase ≠ .AwaitingReady deadline

/-- The next id, while ids do not wrap. -/
theorem toNat_next_test_id {id : UInt32} (h : id.toNat + 1 < 2 ^ 32) :
    (max (id + 1) 1).toNat = id.toNat + 1 := by
  have hadd : (id + 1).toNat = id.toNat + 1 := by
    rw [UInt32.toNat_add]
    exact Nat.mod_eq_of_lt h
  change (if id + 1 ≤ 1 then 1 else id + 1).toNat = _
  split
  · next hle =>
      rw [UInt32.le_iff_toNat_le, hadd] at hle
      change 1 = _
      change _ ≤ 1 at hle
      omega
  · exact hadd

namespace Books.Tested

variable {b b' : Books} {out : List Output}

/-- An id that was given out is not above their number. -/
theorem toNat_le (h : b.Tested out) {id : UInt32} (hid : id ∈ test_ids out) :
    id.toNat ≤ (test_ids out).length := by
  have hmem : id.toNat ∈ (test_ids out).map UInt32.toNat := List.mem_map.2 ⟨id, hid, rfl⟩
  rw [h.order, List.mem_range'_1] at hmem
  omega

theorem nodup (h : b.Tested out) : (test_ids out).Nodup := by
  refine List.Nodup.of_map UInt32.toNat ?_
  rw [h.order]
  exact List.nodup_range'

theorem quiet (h : b.Tested out) (ht : b'.tests = b.tests)
    (hn : b'.next_test_id = b.next_test_id) {new : List Output}
    (hnew : ∀ o ∈ new, o.tests = false) :
    b'.Tested (out ++ new) := by
  have hids : test_ids (out ++ new) = test_ids out := by
    rw [test_ids_append, test_ids_quiet hnew, List.append_nil]
  have hcount (peer : DeviceId) (id : UInt32) : (out ++ new).countP (Output.measures peer id) =
      out.countP (Output.measures peer id) := by
    rw [List.countP_append, countP_measures_quiet hnew, Nat.add_zero]
  constructor
  case phase => rw [ht]; exact h.phase
  case count => rw [hids, hn]; exact h.count
  case order => rw [hids]; exact h.order
  case given => rw [hids, ht]; exact h.given
  case once => exact fun peer id => (hcount peer id).symm ▸ h.once peer id
  case spent =>
    intro peer id hpos
    rw [hcount] at hpos
    rw [hids, ht]
    exact h.spent peer id hpos

/-- A test is written that keeps to the ids, and starts no measurement anew. -/
theorem write (h : b.Tested out) {peer : DeviceId} {new : NetTest} {extra : List Output}
    (ht : b'.tests = b.tests.insert peer new) (hn : b'.next_test_id = b.next_test_id)
    (hids : test_ids extra = [])
    (hcount : ∀ p id, extra.countP (Output.measures p id) = 0)
    (hphase : new.status = .Running ↔ new.phase ≠ .Finished) (hgiven : new.test_id ∈ test_ids out)
    (hspent : 0 < out.countP (Output.measures peer new.test_id) →
      ∀ deadline, new.phase ≠ .AwaitingReady deadline) : b'.Tested (out ++ extra) := by
  have hids' : test_ids (out ++ extra) = test_ids out := by
    rw [test_ids_append, hids, List.append_nil]
  have hcount' (p : DeviceId) (id : UInt32) : (out ++ extra).countP (Output.measures p id) =
      out.countP (Output.measures p id) := by
    rw [List.countP_append, hcount, Nat.add_zero]
  constructor
  case phase =>
    intro id t hget
    rw [ht] at hget
    exact TestDeed.of_get_insert (P := fun _ t => t.status = .Running ↔ t.phase ≠ .Finished) hphase
      (h.phase id t) hget
  case count => rw [hids', hn]; exact h.count
  case order => rw [hids']; exact h.order
  case given =>
    intro id t hget
    rw [ht] at hget
    rw [hids']
    exact TestDeed.of_get_insert (P := fun _ t => t.test_id ∈ test_ids out)
      hgiven (h.given id t) hget
  case once => exact fun p id => (hcount' p id).symm ▸ h.once p id
  case spent =>
    intro p id hpos
    rw [hcount'] at hpos
    obtain ⟨hid, hold⟩ := h.spent p id hpos
    refine ⟨hids'.symm ▸ hid, fun t hget htid => ?_⟩
    rw [ht] at hget
    refine TestDeed.of_get_insert (P := fun q t => q = p → t.test_id = id →
      ∀ deadline, t.phase ≠ .AwaitingReady deadline) ?_ (fun hget _ => hold t hget) hget rfl htid
    rintro rfl rfl
    exact hspent hpos

end Books.Tested

theorem TestDeed.tested {s₀ : Actor} {event : Event} {l : List Nat} {b b' : Books}
    (h : TestDeed s₀ event l b b') {before : List Output} (hb : b.Tested (before ++ b.out))
    (hfew : (test_ids (before ++ b'.out)).length < 2 ^ 32) : b'.Tested (before ++ b'.out) := by
  cases h with
  | start peer conn_id caller deadline duration _ _ _ hold =>
      generalize hnew : max (b.next_test_id + 1) 1 = new at hfew ⊢
      dsimp only [Books.tell] at hfew ⊢
      rw [← List.append_assoc] at hfew ⊢
      have hids : test_ids (before ++ b.out ++ [Output.Send conn_id (.NetTestStart
          { test_id := new, duration_ms := duration })]) = test_ids (before ++ b.out) ++ [new] :=
        test_ids_append _ _
      have hcount (p : DeviceId) (id : UInt32) :
          (before ++ b.out ++ [Output.Send conn_id (.NetTestStart
          { test_id := new, duration_ms := duration })]).countP (Output.measures p id) =
            (before ++ b.out).countP (Output.measures p id) := by
        rw [List.countP_append]
        rfl
      rw [hids, List.length_append, List.length_singleton] at hfew
      have hnext : new.toNat = (test_ids (before ++ b.out)).length + 1 := by
        rw [← hnew, ← hb.count]
        exact toNat_next_test_id (by rw [hb.count]; exact hfew)
      constructor
      case phase =>
        intro id t hget
        exact TestDeed.of_get_insert (P := fun _ t => t.status = .Running ↔ t.phase ≠ .Finished)
          ⟨fun _ => by exact nofun, fun _ => rfl⟩ (hb.phase id t) hget
      case count => rw [hids, List.length_append, List.length_singleton]; exact hnext
      case order =>
        rw [hids, List.map_append, List.length_append, List.length_singleton, hb.order,
          List.range'_1_concat, List.map_singleton, hnext, Nat.add_comm 1]
      case given =>
        intro id t hget
        rw [hids]
        exact TestDeed.of_get_insert
          (P := fun _ t => t.test_id ∈ test_ids (before ++ b.out) ++ [new])
          (List.mem_append_right _ List.mem_cons_self)
          (fun hget => List.mem_append_left _ (hb.given id t hget)) hget
      case once => exact fun p id => (hcount p id).symm ▸ hb.once p id
      case spent =>
        intro p id hpos
        rw [hcount] at hpos
        obtain ⟨hid, hold⟩ := hb.spent p id hpos
        refine ⟨hids ▸ List.mem_append_left _ hid, fun t hget htid => ?_⟩
        refine TestDeed.of_get_insert (P := fun q t => q = p → t.test_id = id →
          ∀ deadline, t.phase ≠ .AwaitingReady deadline) ?_
          (fun hget _ => hold t hget) hget rfl htid
        -- the new id is above every one that was measured
        rintro rfl rfl
        have := hb.toNat_le hid
        dsimp only at this
        omega
  | join peer caller test _ _ ht hs =>
      rw [← List.append_nil (before ++ _)]
      exact hb.write rfl rfl rfl (fun _ _ => rfl) (hb.phase peer test ht) (hb.given peer test ht)
        fun hpos => (hb.spent peer test.test_id hpos).2 test ht rfl
  | measure peer conn_id n ready test deadline _ _ _ _ ht hp _ =>
      dsimp only [Books.tell]
      rw [← List.append_assoc]
      have hids : test_ids (before ++ b.out ++ [Output.ProbeSink conn_id true,
          .Spawn (.NetworkTest peer test.test_id)]) = test_ids (before ++ b.out) := by
        rw [test_ids_append]
        exact List.append_nil _
      have hcount (p : DeviceId) (id : UInt32) : (before ++ b.out ++ [Output.ProbeSink conn_id true,
          .Spawn (.NetworkTest peer test.test_id)]).countP (Output.measures p id) =
            (before ++ b.out).countP (Output.measures p id) +
              if peer = p ∧ test.test_id = id then 1 else 0 := by
        rw [List.countP_append]
        simp [List.countP_cons, Output.measures]
      have hnone : (before ++ b.out).countP (Output.measures peer test.test_id) = 0 := by
        by_contra hne
        exact (hb.spent peer test.test_id (Nat.pos_of_ne_zero hne)).2 test ht rfl deadline hp
      constructor
      case phase =>
        intro id t hget
        refine TestDeed.of_get_insert (P := fun _ t => t.status = .Running ↔ t.phase ≠ .Finished) ?_
          (hb.phase id t) hget
        refine ⟨fun _ => by exact nofun, fun _ => (hb.phase peer test ht).2 ?_⟩
        rw [hp]
        exact nofun
      case count => rw [hids]; exact hb.count
      case order => rw [hids]; exact hb.order
      case given =>
        intro id t hget
        rw [hids]
        refine TestDeed.of_get_insert (P := fun _ t => t.test_id ∈ test_ids (before ++ b.out)) ?_
          (hb.given id t) hget
        exact hb.given peer test ht
      case once =>
        intro p id
        rw [hcount]
        by_cases hsame : peer = p ∧ test.test_id = id
        · rw [if_pos hsame, ← hsame.1, ← hsame.2, hnone]
        · rw [if_neg hsame]
          exact hb.once p id
      case spent =>
        intro p id hpos
        rw [hids]
        rw [hcount] at hpos
        by_cases hsame : peer = p ∧ test.test_id = id
        · obtain ⟨rfl, rfl⟩ := hsame
          refine ⟨hb.given peer test ht, fun t hget _ deadline' => ?_⟩
          change (b.tests.insert peer _).get peer = _ at hget
          rw [Table.get_insert_self] at hget
          obtain rfl := Option.some_inj.1 hget
          exact nofun
        · rw [if_neg hsame] at hpos
          obtain ⟨hid, hold⟩ := hb.spent p id hpos
          refine ⟨hid, fun t hget htid => ?_⟩
          refine TestDeed.of_get_insert (P := fun q t => q = p → t.test_id = id →
            ∀ deadline, t.phase ≠ .AwaitingReady deadline) ?_
            (fun hget _ => hold t hget) hget rfl htid
          exact fun hp' hi' => absurd ⟨hp', hi'⟩ hsame
  | finish peer test result status hs ht _ =>
      -- neither answers nor probes start a test or a measurement
      have hextra :
          ∀ o ∈ (test.replies.flatMap fun r : Reply => r.answered (result.map Answer.Report)) ++
          (b.conn peer).toList.map fun conn_id => Output.ProbeSink conn_id false,
          o.test_id = none ∧ ∀ p id, o.measures p id = false := by
        intro o ho
        rcases List.mem_append.1 ho with ho | ho
        · obtain ⟨reply, _, ho⟩ := List.mem_flatMap.1 ho
          cases reply with
          | caller id =>
              rw [List.mem_singleton.1 ho]
              exact ⟨rfl, fun _ _ => rfl⟩
          | dropped => exact absurd ho List.not_mem_nil
        · obtain ⟨c, _, rfl⟩ := List.mem_map.1 ho
          exact ⟨rfl, fun _ _ => rfl⟩
      dsimp only [Books.tell]
      rw [← List.append_assoc]
      refine hb.write rfl rfl ?_ (fun p id => ?_) ?_ (hb.given peer test ht)
        fun _ _ => by exact nofun
      · exact List.filterMap_eq_nil_iff.2 fun o ho => (hextra o ho).1
      · refine List.countP_eq_zero.2 fun o ho hm => ?_
        rw [(hextra o ho).2] at hm
        cases hm
      · exact ⟨fun h => absurd h hs, fun h => absurd rfl h⟩
  | forget peer hold =>
      have hget {id : DeviceId} {t : NetTest} (h : (b.tests.erase peer).get id = some t) :
          b.tests.get id = some t := (Table.get_of_get_erase h).2
      exact ⟨fun id t h => hb.phase id t (hget h), hb.count, hb.order,
        fun id t h => hb.given id t (hget h), hb.once,
        fun p id hpos => ⟨(hb.spent p id hpos).1, fun t h => (hb.spent p id hpos).2 t (hget h)⟩⟩

/-! ## 4. Probes -/

/-- The sessions during an event, and what was attached to their connections: the effects of the
run before the event are `before`. -/
structure Books.Probing [Crypto] (env : Env) (s₀ : Actor) (event : Event) (before : List Output)
    (b : Books) : Prop where
  conn : ∀ peer c, b.conn peer = some c →
    s₀.books.conn peer = some c ∨ ∃ est, s₀.installs env event peer est ∧ est.conn_id = c
  sinks : ∀ c, .ProbeSink c true ∈ b.out → ∃ peer, s₀.books.conn peer = some c
  apart : ∀ peer peer' c, b.conn peer = some c → b.conn peer' = some c → peer = peer'
  running : ∀ peer c, b.conn peer = some c → probed (before ++ b.out) c = true →
    ∃ t, b.tests.get peer = some t ∧ t.phase = .Running

/-- An event makes the connection of one device a session. -/
theorem Actor.installs_peer [Crypto] {env : Env} {s : Actor} {event : Event} {id id' : DeviceId}
    {est est' : Established} (h : s.installs env event id est)
    (h' : s.installs env event id' est') :
    id = id' := by
  rcases h with ⟨he, rfl⟩ | ⟨p, hc, rfl⟩ <;> rcases h' with ⟨he', rfl⟩ | ⟨p', hc', rfl⟩
  · rw [Event.Established.inj (he.symm.trans he')]
  · rw [he] at hc'
    exact hc'.elim
  · rw [he'] at hc
    exact hc.elim
  · unfold Actor.completes at hc hc'
    split at hc
    · exact hc.1.symm.trans hc'.1
    · exact Option.some_inj.1 (hc.2.2.1.symm.trans hc'.2.2.1)
    · obtain ⟨est, _, _, _, hu, rfl, _⟩ := hc
      obtain ⟨est', _, _, _, hu', rfl, _⟩ := hc'
      rw [(Prod.mk.inj (Option.some_inj.1 (hu.symm.trans hu'))).1]
    · exact hc.elim

theorem probed_quiet (out : List Output) {new : List Output} (h : ∀ o ∈ new, o.tests = false)
    (conn_id : Nat) : probed (out ++ new) conn_id = probed out conn_id := by
  rw [probed_append]
  exact foldl_probes_of_forall _ (ne_probe_of_quiet h conn_id)

/-- A sink that no effect attaches is not attached. -/
theorem foldl_probes_eq_false {out : List Output} {conn_id : Nat}
    (h : .ProbeSink conn_id true ∉ out) : out.foldl (Output.probes conn_id) false = false := by
  induction out with
  | nil => rfl
  | cons o out ih =>
      have hhead : o.probes conn_id false = false := by
        unfold Output.probes
        split
        · next c on =>
            by_cases hc : c = conn_id
            · rw [if_pos hc]
              subst hc
              by_contra hon
              rw [Bool.eq_true_of_not_eq_false hon] at h
              exact h List.mem_cons_self
            · rw [if_neg hc]
        · rfl
      rw [List.foldl_cons, hhead]
      exact ih fun hmem => h (List.mem_cons_of_mem _ hmem)

section
variable [Crypto] {env : Env} {s₀ : Actor} {event : Event} {l : List Nat} {b b' : Books}
  {before : List Output}

theorem TestDeed.probing (h : TestDeed s₀ event l b b')
    (hphase : ∀ peer t, b.tests.get peer = some t → (t.status = .Running ↔ t.phase ≠ .Finished))
    (hp : b.Probing env s₀ event before) : b'.Probing env s₀ event before := by
  -- what runs keeps its device's test from being started or forgotten
  have hidle {peer : DeviceId}
      (hold : ∀ test, b.tests.get peer = some test → test.status ≠ .Running) (t : NetTest)
      (ht : b.tests.get peer = some t) : t.phase ≠ .Running := by
    intro hrun
    refine hold t ht ((hphase peer t ht).2 ?_)
    rw [hrun]
    exact nofun
  cases h with
  | start peer conn_id caller deadline duration _ _ _ hold =>
      refine ⟨hp.conn, fun c hc => ?_, hp.apart, fun id c hc hon => ?_⟩
      · rcases List.mem_append.1 hc with hc | hc
        · exact hp.sinks c hc
        · cases List.mem_singleton.1 hc
      · dsimp only [Books.tell] at hon hc ⊢
        rw [← List.append_assoc, probed_append] at hon
        obtain ⟨t, ht, hrun⟩ := hp.running id c hc hon
        have hne : id ≠ peer := fun he => hidle hold t (he ▸ ht) hrun
        exact ⟨t, by rw [Table.get_insert, if_neg hne]; exact ht, hrun⟩
  | join peer caller test _ _ htest hs =>
      refine ⟨hp.conn, hp.sinks, hp.apart, fun id c hc hon => ?_⟩
      obtain ⟨t, ht, hrun⟩ := hp.running id c hc hon
      dsimp only
      rw [Table.get_insert]
      by_cases hid : id = peer
      · rw [if_pos hid]
        rw [hid, htest] at ht
        obtain rfl := Option.some_inj.1 ht
        exact ⟨_, rfl, hrun⟩
      · rw [if_neg hid]
        exact ⟨t, ht, hrun⟩
  | measure peer conn_id n ready test deadline _ hb _ hconn htest _ _ =>
      refine ⟨hp.conn, fun c hc => ?_, hp.apart, fun id c hc hon => ?_⟩
      · rcases List.mem_append.1 hc with hc | hc
        · exact hp.sinks c hc
        · rcases List.mem_cons.1 hc with hc | hc
          · cases hc
            exact ⟨peer, hb ▸ hconn⟩
          · cases List.mem_singleton.1 hc
      · dsimp only [Books.tell] at hon hc ⊢
        rw [Table.get_insert]
        by_cases hid : id = peer
        · rw [if_pos hid]
          exact ⟨_, rfl, rfl⟩
        · rw [if_neg hid]
          refine hp.running id c hc ?_
          have hne : conn_id ≠ c := fun he => hid (hp.apart id peer c hc (he ▸ hconn))
          rw [← List.append_assoc, probed_append] at hon
          have hsame : Output.probes c (probed (before ++ b.out) c) (.ProbeSink conn_id true) =
              probed (before ++ b.out) c := if_neg hne
          change Output.probes c (probed (before ++ b.out) c) (.ProbeSink conn_id true) =
            true at hon
          rwa [hsame] at hon
  | finish peer test result status _ htest _ =>
      have hanswers :
          ∀ o ∈ test.replies.flatMap fun r : Reply => r.answered (result.map Answer.Report),
          ∀ c on, o ≠ .ProbeSink c on := by
        intro o ho c on
        obtain ⟨reply, _, ho⟩ := List.mem_flatMap.1 ho
        cases reply with
        | caller id =>
            rw [List.mem_singleton.1 ho]
            exact nofun
        | dropped => exact absurd ho List.not_mem_nil
      refine ⟨hp.conn, fun c hc => ?_, hp.apart, fun id c hc hon => ?_⟩
      · rcases List.mem_append.1 hc with hc | hc
        · exact hp.sinks c hc
        · rcases List.mem_append.1 hc with hc | hc
          · exact absurd rfl (hanswers _ hc c true)
          · obtain ⟨_, _, hc⟩ := List.mem_map.1 hc
            cases hc
      · dsimp only [Books.tell] at hon hc ⊢
        rw [← List.append_assoc, probed_append, List.foldl_append,
          foldl_probes_of_forall _ fun o ho => hanswers o ho c] at hon
        by_cases hid : id = peer
        · rw [← hid, hc] at hon
          change (if c = c then false else _) = true at hon
          rw [if_pos rfl] at hon
          cases hon
        · rw [Table.get_insert, if_neg hid]
          refine hp.running id c hc ?_
          rwa [foldl_probes_of_forall] at hon
          intro o ho on he
          obtain ⟨c', hc', rfl⟩ := List.mem_map.1 ho
          cases he
          exact hid (hp.apart id peer c hc (Option.mem_toList.1 hc'))
  | forget peer hold =>
      refine ⟨hp.conn, hp.sinks, hp.apart, fun id c hc hon => ?_⟩
      obtain ⟨t, ht, hrun⟩ := hp.running id c hc hon
      have hne : id ≠ peer := fun he => hidle hold t (he ▸ ht) hrun
      exact ⟨t, by rw [Table.get_erase, if_neg hne]; exact ht, hrun⟩

theorem Deed.probing (h : Deed env s₀ event l b b')
    (hfresh : ∀ id est, s₀.installs env event id est →
      probed before est.conn_id = false ∧ ∀ peer, s₀.books.conn peer ≠ some est.conn_id)
    (hphase : ∀ peer t, b.tests.get peer = some t → (t.status = .Running ↔ t.phase ≠ .Finished))
    (hp : b.Probing env s₀ event before) : b'.Probing env s₀ event before := by
  rcases h.quiet with hq | ht | ⟨id, rfl⟩ | ⟨id, est, hi, rfl⟩
  · obtain ⟨new, hout, hnew⟩ := hq.out
    refine ⟨hq.conn ▸ hp.conn, fun c hc => ?_, hq.conn ▸ hp.apart, fun id c hc hon => ?_⟩
    · rw [hout] at hc
      rcases List.mem_append.1 hc with hc | hc
      · exact hp.sinks c hc
      · exact absurd rfl (ne_probe_of_quiet hnew c _ hc true)
    · rw [hout, ← List.append_assoc, probed_quiet _ hnew] at hon
      rw [hq.tests]
      exact hp.running id c (hq.conn ▸ hc) hon
  · exact ht.probing hphase hp
  · have hold {peer : DeviceId} {c : Nat} (hc : (b.without id).conn peer = some c) :
        b.conn peer = some c := by
      change (if peer = id then none else b.conn peer) = some c at hc
      split at hc
      · cases hc
      · exact hc
    exact ⟨fun peer c hc => hp.conn peer c (hold hc), hp.sinks,
      fun p q c hc hc' => hp.apart p q c (hold hc) (hold hc'),
      fun peer c hc hon => hp.running peer c (hold hc) hon⟩
  · obtain ⟨hnever, hnone⟩ := hfresh id est hi
    -- The connection is new to the engine, so no device was on it before.
    have hother {peer : DeviceId} (hne : peer ≠ id) : b.conn peer ≠ some est.conn_id := by
      intro hc
      rcases hp.conn peer _ hc with hs | ⟨est', hi', _⟩
      · exact hnone peer hs
      · exact hne (Actor.installs_peer hi' hi)
    have hget {peer : DeviceId} {c : Nat}
        (hc : (if peer = id then some est.conn_id else b.conn peer) = some c) :
        (peer = id ∧ est.conn_id = c) ∨ (peer ≠ id ∧ b.conn peer = some c) := by
      by_cases hid : peer = id
      · rw [if_pos hid] at hc
        exact .inl ⟨hid, Option.some_inj.1 hc⟩
      · rw [if_neg hid] at hc
        exact .inr ⟨hid, hc⟩
    refine ⟨fun peer c hc => ?_, hp.sinks, fun p q c hc hc' => ?_, fun peer c hc hon => ?_⟩
    · rcases hget hc with ⟨rfl, rfl⟩ | ⟨_, hc⟩
      · exact .inr ⟨est, hi, rfl⟩
      · exact hp.conn peer c hc
    · rcases hget hc with ⟨hp₁, hcp⟩ | ⟨hp₁, hcp⟩ <;> rcases hget hc' with ⟨hq₁, hcq⟩ | ⟨hq₁, hcq⟩
      · exact hp₁.trans hq₁.symm
      · exact absurd (hcq.trans (congrArg some hcp.symm)) (hother hq₁)
      · exact absurd (hcp.trans (congrArg some hcq.symm)) (hother hp₁)
      · exact hp.apart p q c hcp hcq
    · rcases hget hc with ⟨rfl, rfl⟩ | ⟨_, hc⟩
      · -- nothing was ever attached to a connection that is new
        dsimp only at hon
        rw [probed_append, hnever, foldl_probes_eq_false] at hon
        · cases hon
        · intro hmem
          obtain ⟨p, hp⟩ := hp.sinks _ hmem
          exact hnone p hp
      · exact hp.running peer c hc hon

end

/-! ## 5. Reports and measurements -/

section
variable [Crypto] {env : Env} {s₀ : Actor} {event : Event} {l : List Nat} {b b' : Books}

/-- A report goes to those who wait for the test it is of. -/
theorem Deed.reports (h : Deed env s₀ event l b b')
    (hb : ∀ caller report, .Answer caller (.ok (.Report report)) ∈ b.out →
      ∃ peer t, event = .NetTestFinished peer t.test_id report ∧
        s₀.books.tests.get peer = some t ∧ .caller caller ∈ t.replies) :
    ∀ caller report, .Answer caller (.ok (.Report report)) ∈ b'.out →
      ∃ peer t, event = .NetTestFinished peer t.test_id report ∧
        s₀.books.tests.get peer = some t ∧ .caller caller ∈ t.replies := by
  intro caller report hmem
  rcases h.quiet with hq | ht | ⟨id, rfl⟩ | ⟨id, est, _, rfl⟩
  · obtain ⟨new, hout, hnew⟩ := hq.out
    rw [hout] at hmem
    rcases List.mem_append.1 hmem with hmem | hmem
    · exact hb caller report hmem
    · exact nomatch hnew _ hmem
  · cases ht with
    | start =>
        rcases List.mem_append.1 hmem with hmem | hmem
        · exact hb caller report hmem
        · cases List.mem_singleton.1 hmem
    | join => exact hb caller report hmem
    | measure =>
        rcases List.mem_append.1 hmem with hmem | hmem
        · exact hb caller report hmem
        · rcases List.mem_cons.1 hmem with hmem | hmem
          · cases hmem
          · cases List.mem_singleton.1 hmem
    | finish peer test result status _ htest hr =>
        rcases List.mem_append.1 hmem with hmem | hmem
        · exact hb caller report hmem
        · rcases List.mem_append.1 hmem with hmem | hmem
          · obtain ⟨reply, hreply, hmem⟩ := List.mem_flatMap.1 hmem
            cases reply with
            -- Only the end of a test answers with a report, and to the callers it holds.
            | caller id =>
                obtain ⟨rfl, hresult⟩ := Output.Answer.inj (List.mem_singleton.1 hmem)
                cases result with
                | error e => cases hresult
                | ok n =>
                    cases hresult
                    obtain ⟨_, hbooks, he⟩ := hr report rfl
                    exact ⟨peer, test, he, hbooks ▸ htest, hreply⟩
            | dropped => exact absurd hmem List.not_mem_nil
          · obtain ⟨_, _, hmem⟩ := List.mem_map.1 hmem
            cases hmem
    | forget => exact hb caller report hmem
  · exact hb caller report hmem
  · exact hb caller report hmem

/-- What measures was started now, or measured before the event. -/
theorem Deed.measuring (h : Deed env s₀ event l b b')
    (hb : ∀ peer t, b.tests.get peer = some t → t.phase = .Running →
      .Spawn (.NetworkTest peer t.test_id) ∈ b.out ∨
        ∃ t₀, s₀.books.tests.get peer = some t₀ ∧ t₀.phase = .Running ∧ t₀.test_id = t.test_id) :
    ∀ peer t, b'.tests.get peer = some t → t.phase = .Running →
      .Spawn (.NetworkTest peer t.test_id) ∈ b'.out ∨
        ∃ t₀, s₀.books.tests.get peer = some t₀ ∧ t₀.phase = .Running ∧ t₀.test_id = t.test_id := by
  intro id t hget hrun
  rcases h.quiet with hq | ht | ⟨_, rfl⟩ | ⟨_, _, _, rfl⟩
  · obtain ⟨new, hout, _⟩ := hq.out
    rw [hq.tests] at hget
    rw [hout]
    exact (hb id t hget hrun).imp_left (List.mem_append_left _)
  · have hset {peer : DeviceId} {new : NetTest} (out : List Output)
        (hnew : new.phase = .Running → .Spawn (.NetworkTest peer new.test_id) ∈ b.out ++ out ∨
          ∃ t₀, s₀.books.tests.get peer = some t₀ ∧ t₀.phase = .Running ∧ t₀.test_id = new.test_id)
        (hget : (b.tests.insert peer new).get id = some t) :
        .Spawn (.NetworkTest id t.test_id) ∈ b.out ++ out ∨
          ∃ t₀, s₀.books.tests.get id = some t₀ ∧ t₀.phase = .Running ∧ t₀.test_id = t.test_id :=
      TestDeed.of_get_insert (P := fun id t => t.phase = .Running →
        .Spawn (.NetworkTest id t.test_id) ∈ b.out ++ out ∨
          ∃ t₀, s₀.books.tests.get id = some t₀ ∧ t₀.phase = .Running ∧ t₀.test_id = t.test_id) hnew
        (fun hget hrun => (hb id t hget hrun).imp_left (List.mem_append_left _)) hget hrun
    cases ht with
    | start =>
        refine hset _ (fun hnew => ?_) hget
        cases hnew
    | join peer caller test _ _ htest _ =>
        have hjoined := hset [] (fun hnew => by
          rw [List.append_nil]
          exact hb peer test htest hnew) hget
        rwa [List.append_nil] at hjoined
    -- The test that begins to measure is spawned with it.
    | measure =>
        refine hset _ (fun _ => .inl (List.mem_append_right _ ?_)) hget
        exact List.mem_cons_of_mem _ List.mem_cons_self
    | finish =>
        refine hset _ (fun hnew => ?_) hget
        cases hnew
    | forget => exact hb id t (Table.get_of_get_erase hget).2 hrun
  · exact hb id t hget hrun
  · exact hb id t hget hrun

/-- Effects are only added. -/
theorem Deed.out_prefix (h : Deed env s₀ event l b b') : b.out <+: b'.out := by
  rcases h.quiet with hq | ht | ⟨_, rfl⟩ | ⟨_, _, _, rfl⟩
  · obtain ⟨new, hout, _⟩ := hq.out
    exact ⟨new, hout.symm⟩
  · cases ht with
    | join | forget => exact List.prefix_rfl
    | _ => exact List.prefix_append _ _
  · exact List.prefix_rfl
  · exact List.prefix_rfl

theorem Deed.tested (h : Deed env s₀ event l b b') {before : List Output}
    (hb : b.Tested (before ++ b.out)) (hfew : (test_ids (before ++ b'.out)).length < 2 ^ 32) :
    b'.Tested (before ++ b'.out) := by
  rcases h.quiet with hq | ht | ⟨_, rfl⟩ | ⟨_, _, _, rfl⟩
  · obtain ⟨new, hout, hnew⟩ := hq.out
    rw [hout, ← List.append_assoc]
    exact hb.quiet hq.tests hq.next_test_id hnew
  · exact ht.tested hb hfew
  · exact ⟨hb.phase, hb.count, hb.order, hb.given, hb.once, hb.spent⟩
  · exact ⟨hb.phase, hb.count, hb.order, hb.given, hb.once, hb.spent⟩

omit [Crypto] in
theorem length_test_ids_le {out out' before : List Output} (h : out <+: out') :
    (test_ids (before ++ out)).length ≤ (test_ids (before ++ out')).length := by
  obtain ⟨rest, rfl⟩ := h
  rw [← List.append_assoc, test_ids_append (before ++ out), List.length_append]
  exact Nat.le_add_right _ _

theorem Deeds.tested (h : Deeds env s₀ event l b b') {before : List Output}
    (hfresh : ∀ id est, s₀.installs env event id est →
      probed before est.conn_id = false ∧ ∀ peer, s₀.books.conn peer ≠ some est.conn_id)
    (hb : b.Tested (before ++ b.out)) (hp : b.Probing env s₀ event before)
    (hfew : (test_ids (before ++ b'.out)).length < 2 ^ 32) :
    b'.Tested (before ++ b'.out) ∧ b'.Probing env s₀ event before := by
  induction h with
  | refl => exact ⟨hb, hp⟩
  | tail _ hdeed ih =>
      obtain ⟨ht, hp⟩ := ih hb hp ((length_test_ids_le hdeed.out_prefix).trans_lt hfew)
      exact ⟨hdeed.tested ht hfew, hdeed.probing hfresh ht.phase hp⟩

end

/-! ## 6. Runs -/

/-- The effects of a run. -/
def outputs [Crypto] (tr : List Moment) : List Output :=
  tr.flatMap fun q => (q.1.step q.2).actor.out

/-- Those of them that are accounted for. -/
def booked [Crypto] (tr : List Moment) : List Output :=
  tr.flatMap fun q => (q.1.step q.2).actor.books.out

section
variable [Crypto] {Known : PublicKey → Prop} {tr : List Moment} {w : World}

theorem booked_append (tr tr' : List Moment) : booked (tr ++ tr') = booked tr ++ booked tr' :=
  List.flatMap_append

theorem booked_singleton (q : Moment) : booked [q] = (q.1.step q.2).actor.books.out :=
  List.append_nil _

theorem booked_eq (tr : List Moment) : booked tr = (outputs tr).filter Output.booked := by
  unfold booked outputs
  rw [List.filter_flatMap]
  rfl

/-- What every run keeps about its network tests. -/
structure World.Measures (tr : List Moment) (w : World) : Prop where
  tested : w.met.books.Tested (booked tr)
  running : ∀ peer c, w.met.books.conn peer = some c → probed (booked tr) c = true →
    ∃ t, w.actor.net_tests.get peer = some t ∧ t.phase = .Running
  sinks : ∀ c, .ProbeSink c true ∈ booked tr → ∃ q ∈ tr, q.1.actor.carries c
  tasks : ∀ peer t, w.actor.net_tests.get peer = some t → t.phase = .Running →
    .NetworkTest peer t.test_id ∈ w.tasks
  started : ∀ peer id, .NetworkTest peer id ∈ w.tasks →
    0 < (booked tr).countP (Output.measures peer id)

omit [Crypto] in
theorem Actor.carries_iff {s : Actor} {c : Nat} :
    s.carries c ↔ ∃ peer, s.books.conn peer = some c := by
  constructor
  · rintro ⟨id, l, hl, rfl⟩
    obtain ⟨session, hs, rfl⟩ := Option.map_eq_some_iff.1 hl
    exact ⟨id, congrArg (Option.map Session.conn_id) hs⟩
  · rintro ⟨id, hc⟩
    obtain ⟨session, hs, rfl⟩ := Option.map_eq_some_iff.1 hc
    exact ⟨id, session.link, congrArg (Option.map Session.link) hs, rfl⟩

omit [Crypto] in
/-- A measurement that is over ends its test. -/
theorem Actor.on_net_test_finished_phase {s : Actor} {peer : DeviceId} {t t' : NetTest}
    {report : Nat}
    (h : s.net_tests.get peer = some t) (hrun : t.phase = .Running)
    (h' : (s.on_net_test_finished peer t.test_id report).net_tests.get peer = some t') :
    t'.phase = .Finished := by
  unfold on_net_test_finished at h'
  rw [h] at h'
  dsimp only at h'
  rw [if_pos ⟨rfl, hrun⟩] at h'
  obtain ⟨status, _, hbooks⟩ := s.finish_network_test_books (.ok report) h
  have htests := congrArg Books.tests hbooks
  change (s.finish_network_test peer (.ok report)).net_tests = s.net_tests.insert _ _ at htests
  rw [htests, Table.get_insert_self] at h'
  obtain rfl := Option.some_inj.1 h'
  rfl

theorem World.Measures.step (hm : w.Measures tr) (hr : (engine Known).Run tr w) {i : Input}
    (he : w.enabled Known i)
    (hfew : (test_ids (booked (tr ++ [(w, i)]))).length < 2 ^ 32) :
    (w.step i).Measures (tr ++ [(w, i)]) := by
  have hbooked : booked (tr ++ [(w, i)]) = booked tr ++ (w.step i).actor.books.out := by
    rw [booked_append, booked_singleton]
  rw [hbooked] at hfew
  have hdeeds := w.step_deeds i
  have hmet : w.met.books.out = [] := rfl
  have hfresh (id : DeviceId) (est : Established) (hi : w.met.installs i.env i.event id est) :
      probed (booked tr) est.conn_id = false ∧
        ∀ peer, w.met.books.conn peer ≠ some est.conn_id := by
    obtain ⟨hnow, hbefore⟩ := run_installs_new hr he hi
    refine ⟨foldl_probes_eq_false fun hmem => ?_, fun peer hc => ?_⟩
    · obtain ⟨q, hq, hc⟩ := hm.sinks _ hmem
      exact hbefore q hq hc
    · exact hnow (Actor.carries_iff.2 ⟨peer, hc⟩)
  have hwired := (run_sound hr).wired
  have hprobing : w.met.books.Probing i.env w.met i.event (booked tr) := by
    refine ⟨fun peer c hc => .inl hc, fun c hc => absurd hc List.not_mem_nil,
      fun p q c hp hq => ?_, fun peer c hc hon => ?_⟩
    · obtain ⟨s, hs, rfl⟩ := Option.map_eq_some_iff.1 hp
      obtain ⟨s', hs', hc⟩ := Option.map_eq_some_iff.1 hq
      have hindex :=
        (hwired.index s.conn_id p).2 ⟨s.link, congrArg (Option.map Session.link) hs, rfl⟩
      have hindex' := (hwired.index s.conn_id q).2
        ⟨s'.link, congrArg (Option.map Session.link) hs', hc⟩
      exact Option.some_inj.1 (hindex.symm.trans hindex')
    · rw [hmet, List.append_nil] at hon
      exact hm.running peer c hc hon
  have htests : w.met.books.Tested (booked tr ++ w.met.books.out) := by
    rw [hmet, List.append_nil]
    exact hm.tested
  obtain ⟨htested, hprobed⟩ := hdeeds.tested hfresh htests hprobing hfew
  have hmeasuring := hdeeds.invariant (P := fun b => ∀ peer t, b.tests.get peer = some t →
      t.phase = .Running → .Spawn (.NetworkTest peer t.test_id) ∈ b.out ∨
        ∃ t₀, w.met.books.tests.get peer = some t₀ ∧ t₀.phase = .Running ∧ t₀.test_id = t.test_id)
    (fun _ _ _ hdeed hb => hdeed.measuring hb) fun peer t ht hrun => .inr ⟨t, ht, hrun, rfl⟩
  have hspawned {task : Task} : task ∈ spawned (w.step i).actor.out ↔
      .Spawn task ∈ (w.step i).actor.out := by
    unfold spawned
    rw [List.mem_filterMap]
    constructor
    · rintro ⟨o, ho, hsome⟩
      split at hsome
      · obtain rfl := Option.some_inj.1 hsome
        exact ho
      · cases hsome
    · exact fun ho => ⟨_, ho, rfl⟩
  constructor
  case tested =>
    rw [hbooked]
    exact ⟨htested.phase, htested.count, htested.order, htested.given, htested.once, htested.spent⟩
  case running =>
    rw [hbooked]
    exact hprobed.running
  case sinks =>
    intro c hc
    rw [hbooked] at hc
    rcases List.mem_append.1 hc with hc | hc
    · obtain ⟨q, hq, hcarries⟩ := hm.sinks c hc
      exact ⟨q, List.mem_append_left _ hq, hcarries⟩
    · exact ⟨(w, i), List.mem_append_right _ List.mem_cons_self,
        Actor.carries_iff.2 (hprobed.sinks c hc)⟩
  case tasks =>
    intro peer t ht hrun
    refine List.mem_append.2 ?_
    rcases hmeasuring peer t ht hrun with hmem | ⟨t₀, ht₀, hrun₀, hid⟩
    · exact .inr (hspawned.2 (List.mem_of_mem_filter hmem))
    · left
      have hold : Task.NetworkTest peer t.test_id ∈ w.tasks := hid ▸ hm.tasks peer t₀ ht₀ hrun₀
      refine (List.mem_eraseP_of_neg fun hreports => ?_).2 hold
      -- its own report would have ended it
      obtain ⟨env, event⟩ := i
      cases event with
      | NetTestFinished p id report =>
          simp only [Task.reports, Bool.and_eq_true, beq_iff_eq] at hreports
          obtain ⟨rfl, rfl⟩ := hreports
          have hafter :
              (w.met.on_net_test_finished p t₀.test_id report).net_tests.get p = some t := by
            rw [hid]
            exact ht
          exact nomatch hrun.symm.trans (Actor.on_net_test_finished_phase ht₀ hrun₀ hafter)
      | _ => cases hreports
  case started =>
    intro peer id hmem
    rw [hbooked, List.countP_append]
    rcases List.mem_append.1 hmem with hmem | hmem
    · exact Nat.add_pos_left (hm.started peer id (List.mem_of_mem_eraseP hmem)) _
    · refine Nat.add_pos_right _ (List.countP_pos_iff.2 ⟨_, ?_, Output.measures_iff.2 rfl⟩)
      exact List.mem_filter.2 ⟨hspawned.1 hmem, rfl⟩

theorem run_measures (hr : (engine Known).Run tr w)
    (hfew : (test_ids (booked tr)).length < 2 ^ 32) :
    w.Measures tr := by
  induction hr with
  | start h =>
      obtain ⟨identity, trust, settings, _, rfl⟩ := h
      have hnil {α : Type} {a : α} (h : a ∈ ([] : List α)) : False := List.not_mem_nil h
      constructor
      case tested =>
        refine ⟨fun peer t h => ?_, rfl, rfl, fun peer t h => ?_, fun _ _ => Nat.zero_le _,
          fun _ _ h => absurd h (Nat.lt_irrefl 0)⟩
        · cases h
        · cases h
      case running => exact fun peer c hc => nomatch hc
      case sinks => exact fun c hc => (hnil hc).elim
      case tasks => exact fun peer t ht => nomatch ht
      case started => exact fun peer id h => (hnil h).elim
  | @next tr w i hrun he ih =>
      have hbefore : (test_ids (booked tr)).length < 2 ^ 32 := by
        rw [booked_append, test_ids_append, List.length_append] at hfew
        omega
      exact (ih hbefore).step hrun he hfew

end

/-! ## 7. What ends a test -/

theorem told_finish {s : Actor} {peer : DeviceId} {t : NetTest} {caller : Nat}
    (result : Except EngineError Nat) (h : s.net_tests.get peer = some t)
    (hc : .caller caller ∈ t.replies) :
    0 < (s.finish_network_test peer result).books.told caller := by
  obtain ⟨status, _, hbooks⟩ := s.finish_network_test_books result h
  have hcount : 0 < t.replies.count (.caller caller) := List.count_pos_iff.2 hc
  rw [hbooks, Books.told_tell, List.countP_append, countP_flatMap_answered]
  omega

section
variable [Crypto] {env : Env} {s₀ : Actor} {event : Event} {l : List Nat} {b b' : Books}

theorem Deeds.told_le (h : Deeds env s₀ event l b b') (caller : Nat) :
    b.told caller ≤ b'.told caller := by
  induction h with
  | refl => exact Nat.le_refl _
  | tail _ hdeed ih => exact ih.trans (List.Sublist.countP_le hdeed.out_prefix.sublist)

/-- A test that waited too long for its peer is ended by the tick. -/
theorem told_tick {s : Actor} {peer : DeviceId} {t : NetTest} {caller : Nat} {deadline : Instant}
    (h : s.net_tests.get peer = some t) (hp : t.phase = .AwaitingReady deadline)
    (hd : deadline < env.now) (hc : .caller caller ∈ t.replies) :
    0 < (s.tick env).books.told caller := by
  obtain ⟨s₀, hs₀⟩ : ∃ s₀, s₀ = s := ⟨s, rfl⟩
  refine Nat.lt_of_lt_of_le ?_ ((Actor.tick_rest_deeds env s₀ .Tick s).told_le caller)
  clear hs₀
  unfold Actor.tick_network_tests
  dsimp only
  generalize hexpired : s.net_tests.pairs.filter _ = expired
  have hmem : (peer, t) ∈ expired := by
    rw [← hexpired]
    refine List.mem_filter.2 ⟨Table.get_eq_some_iff.1 h, ?_⟩
    dsimp only
    rw [hp]
    exact decide_eq_true hd
  clear hexpired
  -- the tests that expire before it leave it alone, those after it leave the answer
  induction expired generalizing s with
  | nil => exact absurd hmem List.not_mem_nil
  | cons e expired ih =>
      rw [List.foldl_cons]
      by_cases he : e.1 = peer
      · refine Nat.lt_of_lt_of_le (told_finish (.error .Unreachable) (he ▸ h) hc) ?_
        have hfinish (s : Actor) (e : DeviceId × NetTest) : Deeds env s₀ .Tick [] s.books
            (s.finish_network_test e.1 (.error .Unreachable)).books := by
          cases hget : s.net_tests.get e.1 with
          | none =>
              unfold Actor.finish_network_test
              rw [hget]
              exact .refl _
          | some t =>
              exact Actor.finish_network_test_deeds env _ _ s hget (by intro score hok; cases hok)
        exact (Actor.deeds_foldl hfinish expired _).told_le caller
      · refine ih ?_ ?_
        · cases hget : s.net_tests.get e.1 with
          | none =>
              unfold Actor.finish_network_test
              rw [hget]
              exact h
          | some t' =>
              obtain ⟨status, _, hbooks⟩ := s.finish_network_test_books (.error .Unreachable) hget
              have htests := congrArg Books.tests hbooks
              change (s.finish_network_test e.1 (.error .Unreachable)).net_tests =
                s.net_tests.insert _ _
                at htests
              rw [htests, Table.get_insert, if_neg (Ne.symm he)]
              exact h
        · rcases List.mem_cons.1 hmem with rfl | hmem
          · exact absurd rfl he
          · exact hmem

variable {Known : PublicKey → Prop} {tr : List Moment} {w : World}

/-- The one who waits is answered, if anybody is told. -/
theorem answers_of_told (hr : (engine Known).Run tr w) {i : Input} {caller : Nat}
    (hw : w.actor.waiting caller = 1) (hi : i.event.callers = [])
    (ht : 0 < (w.step i).actor.books.told caller) : Moment.answers caller (w, i) = 1 := by
  have hwaits := (run_accounts hr).1
  have haccount := ((w.step_deeds i).account ⟨hwaits.routes, hwaits.aside, hwaits.tests⟩ caller).2
  have hstart : w.met.books.told caller + w.met.books.waiting caller = w.actor.waiting caller :=
    Nat.zero_add _
  rw [hstart, hw, hi, List.count_nil] at haccount
  have htold : (w.step i).actor.books.told caller = Moment.answers caller (w, i) :=
    Actor.books_told _ _
  omega

omit [Crypto] in
/-- A report that no running test of the device waits for changes nothing. -/
theorem on_net_test_finished_stale {s : Actor} {peer : DeviceId} {id : UInt32} (report : Nat)
    (h : ∀ t, s.net_tests.get peer = some t → t.test_id = id → t.phase ≠ .Running) :
    s.on_net_test_finished peer id report = s := by
  unfold Actor.on_net_test_finished
  split
  · next t ht =>
      rw [if_neg]
      exact fun hrun => h t ht hrun.1 hrun.2
  · rfl

omit [Crypto] in
/-- Readiness that no waiting test of the device waits for changes nothing. -/
theorem on_net_test_ready_stale {s : Actor} {peer : DeviceId} {ready : NetTestReady}
    (h : ∀ t, s.net_tests.get peer = some t → t.test_id = ready.test_id →
      ∀ deadline, t.phase ≠ .AwaitingReady deadline) : s.on_net_test_ready peer ready = s := by
  unfold Actor.on_net_test_ready
  split
  · rfl
  · next t ht =>
      split
      · next deadline hp =>
          rw [if_pos]
          exact fun hid => h t ht hid deadline hp
      · rfl

/-- A message on a session's connection is for its device. -/
theorem on_control_session (hr : (engine Known).Run tr w) (env : Env) {peer : DeviceId}
    {session : Session} (hs : w.actor.sessions.get peer = some session) (body : Body) :
    w.met.on_control env session.conn_id body =
      w.met.on_session_message env peer session.conn_id body := by
  have hlink : w.actor.link peer = some session.link := congrArg (Option.map Session.link) hs
  have hawaits := (run_placed hr).1.session session.conn_id ⟨peer, _, hlink, rfl⟩
  have hunpaired : w.met.unpaired.get session.conn_id = none := by
    by_contra hu
    exact hawaits (.inl hu)
  have hpairing : w.met.pairing_on session.conn_id = none := by
    rw [Option.eq_none_iff_forall_ne_some]
    intro id hid
    obtain ⟨p, hp, hc⟩ := Actor.pairing_on_eq_some hid
    exact hawaits (.inr ⟨id, p, hp, hc⟩)
  have hindex : w.met.conn_index.get session.conn_id = some peer :=
    ((run_sound hr).wired.index _ _).2 ⟨_, hlink, rfl⟩
  unfold Actor.on_control
  rw [hunpaired, hpairing, hindex]

end

/-! ## 8. The protocol -/

section
variable [Crypto]

/-- The test will end, and its end answers the caller: the tick after its deadline does, or the
report of its measurement, which is under way. -/
def NetTest.ends (w : World) (peer : DeviceId) (caller : Nat) (t : NetTest) : Prop :=
  (∃ deadline, t.phase = .AwaitingReady deadline ∧
    ∀ env, deadline < env.now → Moment.answers caller (w, ⟨env, .Tick⟩) = 1) ∨
  (t.phase = .Running ∧ .NetworkTest peer t.test_id ∈ w.tasks ∧
    ∀ env report, Moment.answers caller (w, ⟨env, .NetTestFinished peer t.test_id report⟩) = 1)

/-- The network tests of a run `tr` that has reached `w`. -/
structure NetworkTests (tr : List Moment) (w : World) : Prop where
  /-- a caller has been answered once, or waits for a test that will end -/
  answered_once : ∀ before q after peer caller, tr = before ++ q :: after →
    q.2.event = .Command (.RunNetworkTest peer caller) →
    (∀ q' ∈ before ++ after, caller ∉ q'.2.event.callers) →
    (answered tr caller = 1 ∧
      ∀ id t, w.actor.net_tests.get id = some t → .caller caller ∉ t.replies) ∨
    (answered tr caller = 0 ∧ ∃ t, w.actor.net_tests.get peer = some t ∧
      .caller caller ∈ t.replies ∧ t.ends w peer caller)
  /-- its report is the one of the test it joined, of which there was one measurement -/
  reports : ∀ before q after peer caller, tr = before ++ q :: after →
    q.2.event = .Command (.RunNetworkTest peer caller) →
    (∀ q' ∈ before ++ after, caller ∉ q'.2.event.callers) →
    ∀ q' ∈ tr, ∀ report,
      .Answer caller (.ok (.Report report)) ∈ (q'.1.step q'.2).actor.out →
      ∃ t, (q.1.step q.2).actor.net_tests.get peer = some t ∧ .caller caller ∈ t.replies ∧
        q'.2.event = .NetTestFinished peer t.test_id report ∧
        (outputs tr).countP (Output.measures peer t.test_id) = 1
  /-- no two tests have the same id -/
  ids : (test_ids (outputs tr)).Nodup ∧
    ∀ peer t, w.actor.net_tests.get peer = some t → t.test_id ∈ test_ids (outputs tr)
  /-- an event whose id is not the one of the device's test in the right phase does nothing -/
  stale_report : ∀ env peer id report,
    (∀ t, w.actor.net_tests.get peer = some t → t.test_id = id → t.phase ≠ .Running) →
    (w.step ⟨env, .NetTestFinished peer id report⟩).actor = w.met
  stale_ready : ∀ env peer session ready, w.actor.sessions.get peer = some session →
    (∀ t, w.actor.net_tests.get peer = some t → t.test_id = ready.test_id →
      ∀ deadline, t.phase ≠ .AwaitingReady deadline) →
    (w.step ⟨env, .Control session.conn_id (.NetTestReady ready)⟩).actor = w.met
  /-- probes are received only while a test measures -/
  probes : ∀ peer session, w.actor.sessions.get peer = some session →
    probed (outputs tr) session.conn_id = true →
    ∃ t, w.actor.net_tests.get peer = some t ∧ t.phase = .Running

variable {Known : PublicKey → Prop} {tr : List Moment} {w : World}

omit [Crypto] in
/-- What is not accounted for is no matter of tests. -/
theorem Output.of_not_booked {o : Output} (h : o.booked = false) :
    o.test_id = none ∧ (∀ peer id, o.measures peer id = false) ∧ ∀ c on, o.probes c on = on := by
  refine ⟨?_, fun peer id => ?_, fun c on => ?_⟩
  · unfold test_id
    split
    · cases h
    · rfl
  · unfold measures
    split
    · cases h
    · rfl
  · unfold probes
    split
    · cases h
    · rfl

theorem test_ids_booked (tr : List Moment) : test_ids (booked tr) = test_ids (outputs tr) := by
  unfold test_ids
  rw [booked_eq, List.filterMap_filter]
  refine List.filterMap_congr fun o _ => ?_
  by_cases h : o.booked = true
  · rw [if_pos h]
  · rw [if_neg h, (Output.of_not_booked (Bool.eq_false_of_not_eq_true h)).1]

theorem countP_measures_booked (tr : List Moment) (peer : DeviceId) (id : UInt32) :
    (booked tr).countP (Output.measures peer id) =
      (outputs tr).countP (Output.measures peer id) := by
  rw [booked_eq, List.countP_filter]
  refine List.countP_congr fun o _ => ?_
  by_cases h : o.booked = true
  · rw [h, Bool.and_true]
  · rw [(Output.of_not_booked (Bool.eq_false_of_not_eq_true h)).2.1, Bool.false_and]

theorem probed_booked (tr : List Moment) (conn_id : Nat) :
    probed (booked tr) conn_id = probed (outputs tr) conn_id := by
  unfold probed
  rw [booked_eq, List.foldl_filter]
  congr 1
  funext attached o
  by_cases h : o.booked = true
  · rw [if_pos h]
  · rw [if_neg h, (Output.of_not_booked (Bool.eq_false_of_not_eq_true h)).2.2]

omit [Crypto] in
/-- Who asks for a test waits for no route, and is not asking anything else. -/
theorem fresh_caller {before after : List Moment} {q : Moment} {peer : DeviceId} {caller : Nat}
    (hq : q.2.event = .Command (.RunNetworkTest peer caller))
    (hnew : ∀ q' ∈ before ++ after, caller ∉ q'.2.event.callers) :
    ∀ q' ∈ before ++ q :: after, ∀ id kind replace,
      q'.2.event ≠ .Command (.StartRoute id kind replace caller) := by
  intro q' hq' id kind replace he
  have hmem : q' ∈ before ++ after := by
    rcases List.mem_append.1 hq' with hq' | hq'
    · exact List.mem_append_left _ hq'
    · rcases List.mem_cons.1 hq' with rfl | hq'
      · cases hq.symm.trans he
      · exact List.mem_append_right _ hq'
  refine hnew q' hmem ?_
  rw [he]
  exact List.mem_singleton_self _

/-- The test that a caller waits for is with the device it asked for, and the one it joined. -/
theorem joined_test {before after : List Moment} {q : Moment} {peer : DeviceId} {caller : Nat}
    (hr : (engine Known).Run (before ++ q :: after) w)
    (hq : q.2.event = .Command (.RunNetworkTest peer caller))
    (hnew : ∀ q' ∈ before ++ after, caller ∉ q'.2.event.callers) {id : DeviceId} {t : NetTest}
    (ht : w.actor.net_tests.get id = some t) (hmem : .caller caller ∈ t.replies) :
    id = peer ∧ ∃ t₁, (q.1.step q.2).actor.net_tests.get peer = some t₁ ∧
      .caller caller ∈ t₁.replies ∧ t₁.test_id = t.test_id := by
  obtain ⟨t₁, ht₁, hmem₁, hid⟩ :=
    run_test_holder hr (fun q' hq' => hnew q' (List.mem_append_right _ hq')) id t ht hmem
  have hnone : ∀ p t, q.1.actor.net_tests.get p = some t → .caller caller ∉ t.replies := by
    refine run_no_test hr.before.1 fun q' hq' p he => ?_
    refine hnew q' (List.mem_append_left _ hq') ?_
    rw [he]
    exact List.mem_singleton_self _
  have hpeer := (q.1.step_deeds q.2).test_holder (P := fun id _ => id = peer)
    (fun p he _ => by
      cases hq.symm.trans he
      rfl)
    (fun p t ht hmem => absurd hmem (hnone p t ht)) id t₁ ht₁ hmem₁
  subst hpeer
  exact ⟨rfl, t₁, ht₁, hmem₁, hid⟩

/-- Whoever waits for a test waits for one that will end. -/
theorem ends_of_waiting (hr : (engine Known).Run tr w) (hm : w.Measures tr) {peer : DeviceId}
    {t : NetTest} {caller : Nat} (ht : w.actor.net_tests.get peer = some t)
    (hmem : .caller caller ∈ t.replies) (hw : w.actor.waiting caller = 1) :
    t.ends w peer caller := by
  have hstatus : t.status = .Running := by
    by_contra hs
    rw [(run_accounts hr).1.tests peer t ht hs] at hmem
    exact absurd hmem List.not_mem_nil
  have hphase := (hm.tested.phase peer t ht).1 hstatus
  have hget : w.met.net_tests.get peer = some t := ht
  cases hp : t.phase with
  | AwaitingReady deadline =>
      left
      refine ⟨deadline, hp, fun env hd => ?_⟩
      have htold := @told_tick _ env w.met peer t caller deadline hget hp hd hmem
      have htick : (w.step ⟨env, .Tick⟩).actor = w.met.tick env := by
        rw [World.step_actor, Actor.handle]
      rw [← htick] at htold
      exact answers_of_told hr hw rfl htold
  | Running =>
      right
      refine ⟨hp, hm.tasks peer t ht hp, fun env report => ?_⟩
      have hfinish : (w.step ⟨env, .NetTestFinished peer t.test_id report⟩).actor =
          w.met.finish_network_test peer (.ok report) := by
        rw [World.step_actor, Actor.handle]
        unfold Actor.on_net_test_finished
        rw [hget]
        exact if_pos ⟨rfl, hp⟩
      have htold : 0 < (w.met.finish_network_test peer (.ok report)).books.told caller :=
        told_finish (.ok report) hget hmem
      rw [← hfinish] at htold
      exact answers_of_told hr hw rfl htold
  | Finished => exact absurd hp hphase

/-- A measurement that reports was under way. -/
theorem World.enabled.finished {i : Input} (he : w.enabled Known i) {peer : DeviceId} {id : UInt32}
    {report : Nat} (hev : i.event = .NetTestFinished peer id report) :
    .NetworkTest peer id ∈ w.tasks := by
  unfold World.enabled at he
  rw [hev] at he
  obtain ⟨task, hmem, hreports⟩ := he
  cases task with
  | NetworkTest p j =>
      simp only [Task.reports, Bool.and_eq_true, beq_iff_eq] at hreports
      obtain ⟨rfl, rfl⟩ := hreports
      exact hmem
  | _ => cases hreports

/-- A report that is given out is the report of the event, for those who wait for its test. -/
theorem reported (w : World) (i : Input) {caller report : Nat}
    (h : .Answer caller (.ok (.Report report)) ∈ (w.step i).actor.out) :
    ∃ peer t, i.event = .NetTestFinished peer t.test_id report ∧
      w.actor.net_tests.get peer = some t ∧ .caller caller ∈ t.replies := by
  have hdeeds := (w.step_deeds i).invariant
    (P := fun b => ∀ caller report, .Answer caller (.ok (.Report report)) ∈ b.out →
      ∃ peer t, i.event = .NetTestFinished peer t.test_id report ∧
        w.met.books.tests.get peer = some t ∧ Reply.caller caller ∈ t.replies)
    (fun _ _ _ hdeed hb => hdeed.reports hb) fun _ _ hmem => absurd hmem List.not_mem_nil
  exact hdeeds caller report (List.mem_filter.2 ⟨h, rfl⟩)

/-- Network tests keep to their protocol in every run with fewer than 2^32 of them. -/
theorem network_tests (hr : (engine Known).Run tr w)
    (hfew : (test_ids (outputs tr)).length < 2 ^ 32) : NetworkTests tr w := by
  rw [← test_ids_booked] at hfew
  have hm := run_measures hr hfew
  constructor
  case answered_once =>
    rintro before q after peer caller rfl hq hnew
    obtain ⟨_, hall⟩ := run_accounts hr
    have hone := (hall caller).trans (asked_once (by rw [hq]; rfl) hnew)
    have hroutes : w.actor.routes.countP (Route.waits caller) = 0 :=
      List.countP_eq_zero.2 fun r hmem hwaits =>
        run_no_route hr (fresh_caller hq hnew) r hmem (of_decide_eq_true hwaits)
    by_cases hex : ∃ id t, w.actor.net_tests.get id = some t ∧ .caller caller ∈ t.replies
    · right
      obtain ⟨id, t, ht, hmem⟩ := hex
      have hpos : 0 < t.waits caller := List.count_pos_iff.2 hmem
      have htotal := w.actor.net_tests.total_erase id (NetTest.waits caller)
      rw [ht, Option.elim_some] at htotal
      have hwaiting : w.actor.waiting caller = 1 := by
        unfold Actor.waiting at hone ⊢
        omega
      obtain ⟨rfl, _⟩ := joined_test hr hq hnew ht hmem
      exact ⟨by omega, t, ht, hmem, ends_of_waiting hr hm ht hmem hwaiting⟩
    · left
      have hnone (id : DeviceId) (t : NetTest) (ht : w.actor.net_tests.get id = some t) :
          .caller caller ∉ t.replies := fun hmem => hex ⟨id, t, ht, hmem⟩
      have htests : w.actor.net_tests.total (NetTest.waits caller) = 0 :=
        Table.total_eq_zero.2 fun id t ht => List.count_eq_zero.2 (hnone id t ht)
      unfold Actor.waiting at hone
      exact ⟨by omega, hnone⟩
  case reports =>
    rintro before q after peer caller rfl hq hnew q' hq' report hanswer
    obtain ⟨id, t, he, ht, hmem⟩ := reported q'.1 q'.2 hanswer
    rcases List.mem_append.1 hq' with hq' | hq'
    · -- nobody waited before the caller asked
      obtain ⟨b₁, b₂, rfl⟩ := List.append_of_mem hq'
      rw [List.append_assoc, List.cons_append] at hr
      refine absurd hmem (run_no_test hr.before.1 (fun r hrun p hev => ?_) id t ht)
      refine hnew r (by simp [hrun]) ?_
      rw [hev]
      exact List.mem_singleton_self _
    · rcases List.mem_cons.1 hq' with rfl | hq'
      · cases hq.symm.trans he
      · obtain ⟨a₁, a₂, rfl⟩ := List.append_of_mem hq'
        rw [← List.cons_append, ← List.append_assoc] at hr
        obtain ⟨hrun, henabled⟩ := hr.before
        obtain ⟨rfl, t₁, ht₁, hmem₁, hid⟩ :=
          joined_test hrun hq (fun r hr => hnew r (by simp at hr ⊢; tauto)) ht hmem
        refine ⟨t₁, ht₁, hmem₁, hid ▸ he, ?_⟩
        have hsplit : booked (before ++ q :: (a₁ ++ q' :: a₂)) =
            booked (before ++ q :: a₁) ++ booked (q' :: a₂) := by
          rw [← booked_append, List.append_assoc, List.cons_append]
        have hbefore : (test_ids (booked (before ++ q :: a₁))).length < 2 ^ 32 := by
          rw [hsplit, test_ids_append, List.length_append] at hfew
          omega
        -- the measurement that reports was started before
        have hpos := (run_measures hrun hbefore).started id t.test_id (henabled.finished he)
        have hle := hm.tested.once id t.test_id
        rw [← countP_measures_booked, hid]
        rw [hsplit, List.countP_append] at hle ⊢
        omega
  case ids =>
    rw [← test_ids_booked]
    exact ⟨hm.tested.nodup, hm.tested.given⟩
  case stale_report =>
    intro env peer id report h
    exact on_net_test_finished_stale report h
  case stale_ready =>
    intro env peer session ready hs h
    change w.met.on_control env session.conn_id (.NetTestReady ready) = w.met
    rw [on_control_session hr env hs]
    exact on_net_test_ready_stale h
  case probes =>
    intro peer session hs hon
    rw [← probed_booked] at hon
    exact hm.running peer session.conn_id (congrArg (Option.map Session.conn_id) hs) hon

end

/-! ## 9. A run -/

namespace Sample

/-- A peer that runs network tests connects, a test is asked for twice, begins and reports. -/
def tests : List Input :=
  [⟨env, .Incoming (conn peer_key)⟩,
    ⟨env, .Established
      { conn_id := 1, conn := conn peer_key, dialed := false
        hello := { hello peer with capabilities := ⟨Capabilities.FEATURE_NETWORK_TEST⟩ } }⟩,
    ⟨env, .Command (.RunNetworkTest peer 1)⟩,
    ⟨env, .Control 1 (.NetTestReady { test_id := 1, accepted := true })⟩,
    ⟨env, .Command (.RunNetworkTest peer 2)⟩,
    ⟨env, .NetTestFinished peer 1 7⟩]

theorem tests_admitted : (engine Known).Admits (start .default) tests := by
  refine ⟨.inl rfl, ⟨⟨_, List.mem_singleton.2 rfl, ?_⟩, ?_⟩, trivial, ?_, trivial, ?_, trivial⟩
  · simp [Call.reports]
    rfl
  · decide
  · exact List.mem_cons_self
  · refine ⟨.NetworkTest peer 1, ?_, by decide⟩
    decide +kernel

end Sample

open Sample in
/-- Both callers hear the report, once. -/
theorem network_tests_reported :
    NetworkTests ((engine Known).trace (start .default) tests)
        ((engine Known).exec (start .default) tests) ∧
      answered ((engine Known).trace (start .default) tests) 1 = 1 ∧
      answered ((engine Known).trace (start .default) tests) 2 = 1 :=
  ⟨network_tests (Machine.run_of_admits (start_init .default) tests_admitted) (by decide +kernel),
    by decide +kernel, by decide +kernel⟩

end SoundPush
