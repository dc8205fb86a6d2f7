/-
`Refused` -- when a peer whose handshakes keep failing is reported
(`sp-engine/src/refused.rs`).

The failures of an address are counted from the first one on, and the count starts
again with the first failure that comes `WINDOW` or more after the one it started
with. A run of failures that goes on for longer is therefore counted several times
over, although the address was never quiet: `reported_once_iff` says which runs are
reported once all the same.

Addresses do not meet: `Tracks` says of the table that each entry is what the
failures of its own address come to, as far as it still counts, so that a sequence
is judged address by address. For one address the failures are cut in two ways, into
the runs that the answer should follow and into the windows that the counts follow.
The answers of a window are known (`told_tally`), and comparing the two cuts gives
the condition, `Steady`.
-/
import SoundPush.Security.Identity
import SoundPush.Lib.Table
import Mathlib.Data.List.SplitBy
import Mathlib.Data.Finset.Card
import Mathlib.Data.Finset.Dedup

set_option autoImplicit false

namespace SoundPush

/-! ## 1. The counts -/

/-- Inbound handshakes that never finished, counted per address: when the count of an address began,
and how far it is. -/
structure RefusedHandshakes where
  sources : Table IpAddr (Nat × Nat)

namespace RefusedHandshakes

/-- Failures from one address before it is worth telling the user. -/
def BEFORE_NOTICE : Nat := 3
/-- How long a run is counted, in milliseconds. -/
def WINDOW : Nat := 600000
/-- Addresses tracked at once. -/
def MAX_SOURCES : Nat := 64

def default : RefusedHandshakes := ⟨∅⟩

/-- Count a failure from `ip`; the flag says that it is time for a report. The count is a `u32`. -/
def record (r : RefusedHandshakes) (ip : IpAddr) (now : Nat) : RefusedHandshakes × Bool :=
  let ip := ip.to_canonical
  let sources := r.sources.retain fun _ e => now - e.1 < WINDOW
  if !sources.has ip && MAX_SOURCES ≤ sources.pairs.length then (⟨sources⟩, false)
  else
    let (start, count) := (sources.get ip).getD (now, 0)
    let count := (count + 1) % 2 ^ 32
    (⟨sources.insert ip (start, count)⟩, count = BEFORE_NOTICE)

/-- The answers to a sequence of failures. -/
def reports (r : RefusedHandshakes) : List (IpAddr × Nat) → List Bool
  | [] => []
  | (ip, now) :: events => (r.record ip now).2 :: (r.record ip now).1.reports events

/-! ## 2. One address -/

/-- When an address failed. -/
def failures (a : IpAddr) (events : List (IpAddr × Nat)) : List Nat :=
  (events.filter fun e => e.1.to_canonical = a).map Prod.snd

/-- What was answered to the failures of an address. -/
def reports_of (a : IpAddr) (events : List (IpAddr × Nat)) : List Bool :=
  ((events.zip (default.reports events)).filter fun e => e.1.1.to_canonical = a).map Prod.snd

/-- Whether a failure belongs to the count that began with another one. -/
def within (start now : Nat) : Bool := now - start < WINDOW

/-- The entry of an address after one more failure. -/
def counted (e : Option (Nat × Nat)) (now : Nat) : Nat × Nat :=
  let e := (e.filter fun e => within e.1 now).getD (now, 0)
  (e.1, (e.2 + 1) % 2 ^ 32)

/-- The counts that the failures of an address come to. -/
def counts (e : Option (Nat × Nat)) : List Nat → List Nat
  | [] => []
  | now :: times => (counted e now).2 :: counts (some (counted e now)) times

/-- The entry after a sequence of failures. -/
def entry (e : Option (Nat × Nat)) (times : List Nat) : Option (Nat × Nat) :=
  times.foldl (fun e now => some (counted e now)) e

theorem counts_append (e : Option (Nat × Nat)) (times later : List Nat) :
    counts e (times ++ later) = counts e times ++ counts (entry e times) later := by
  induction times generalizing e with
  | nil => rfl
  | cons now times ih =>
      rw [List.cons_append, counts, counts, ih, List.cons_append]
      rfl

/-- What an entry says is forgotten once its window is over. -/
theorem counted_stale {e : Option (Nat × Nat)} {now : Nat} (h : ∀ c ∈ e, within c.1 now = false) :
    counted e now = counted none now := by
  have hnone : (e.filter fun c => within c.1 now) = none :=
    Option.filter_eq_none_iff.2 fun c hc => by rw [h c hc]; exact Bool.false_ne_true
  unfold counted
  rw [hnone]
  rfl

theorem counts_stale {e : Option (Nat × Nat)} {times : List Nat}
    (h : ∀ now ∈ times.head?, ∀ c ∈ e, within c.1 now = false) :
    counts e times = counts none times := by
  cases times with
  | nil => rfl
  | cons now times =>
      rw [counts, counts, counted_stale (h now rfl)]

/-- An entry began with a failure that it counts. -/
theorem entry_start {e : Option (Nat × Nat)} {times : List Nat} {c : Nat × Nat}
    (h : entry e times = some c) : c.1 ∈ times ∨ ∃ c' ∈ e, c.1 = c'.1 := by
  induction times generalizing e with
  | nil => exact .inr ⟨c, h, rfl⟩
  | cons now times ih =>
      rcases ih (show entry (some (counted e now)) times = some c from h) with h | ⟨c', hc', hc⟩
      · exact .inl (List.mem_cons_of_mem _ h)
      · obtain rfl := Option.some_inj.1 hc'
        rw [hc]
        unfold counted
        dsimp only
        cases hf : e.filter fun e => within e.1 now with
        | none => exact .inl List.mem_cons_self
        | some c' => exact .inr ⟨c', (Option.filter_eq_some_iff.1 hf).1, rfl⟩

/-! ## 3. Runs and windows -/

/-- The runs of a sequence of failures: the next one comes less than `WINDOW` later. -/
def runs (times : List Nat) : List (List Nat) := times.splitBy within

/-- A sequence of failures cut at every one that comes `WINDOW` or more after the one that its part
begins with. -/
def windows : List Nat → List (List Nat)
  | [] => []
  | t :: times =>
      (t :: times.takeWhile (within t)) :: windows (times.dropWhile (within t))
  termination_by times => times.length
  decreasing_by
    exact Nat.lt_succ_of_le (List.dropWhile_sublist _).length_le

/-- The counts of a window: one, two, and so on. -/
def tally (w : List Nat) : List Nat := (List.range w.length).map fun i => (i + 1) % 2 ^ 32

theorem counts_within (start n : Nat) (times : List Nat) :
    counts (some (start, n % 2 ^ 32)) times =
      (List.range (times.takeWhile (within start)).length).map (fun i => (n + i + 1) % 2 ^ 32) ++
        counts none (times.dropWhile (within start)) := by
  induction times generalizing n with
  | nil => rfl
  | cons t times ih =>
      by_cases ht : within start t = true
      · have hcounted : counted (some (start, n % 2 ^ 32)) t = (start, (n + 1) % 2 ^ 32) := by
          unfold counted
          rw [Option.filter_some, if_pos ht]
          dsimp only [Option.getD_some]
          rw [Nat.mod_add_mod]
        rw [counts, hcounted, ih, List.takeWhile_cons_of_pos ht, List.dropWhile_cons_of_pos ht,
          List.length_cons, List.range_succ_eq_map, List.map_cons, List.map_map, List.cons_append]
        congr 2
        refine List.map_congr_left fun i _ => ?_
        dsimp only [Function.comp]
        rw [Nat.add_right_comm n 1 i, Nat.add_assoc n i 1]
      · rw [List.takeWhile_cons_of_neg ht, List.dropWhile_cons_of_neg ht]
        refine counts_stale fun now hnow c hc => ?_
        obtain rfl := Option.some_inj.1 hnow
        obtain rfl := Option.some_inj.1 hc
        exact Bool.not_eq_true _ ▸ ht

/-- From nothing, every window is counted by itself. -/
theorem counts_windows (times : List Nat) : counts none times = (windows times).flatMap tally := by
  induction times using windows.induct with
  | case1 => rw [windows]; rfl
  | case2 t times ih =>
      have hfirst : counted none t = (t, 1 % 2 ^ 32) := rfl
      rw [counts, hfirst, windows, List.flatMap_cons, ← ih, counts_within, tally, List.length_cons,
        List.range_succ_eq_map, List.map_cons, List.map_map, List.cons_append]
      congr 2
      refine List.map_congr_left fun i _ => ?_
      dsimp only [Function.comp]
      rw [Nat.add_comm 1 i]

theorem nil_notMem_windows (times : List Nat) : [] ∉ windows times := by
  induction times using windows.induct with
  | case1 => rw [windows]; exact List.not_mem_nil
  | case2 t times ih =>
      rw [windows]
      intro h
      rcases List.mem_cons.1 h with h | h
      · cases h
      · exact ih h

theorem windows_flatten (times : List Nat) : (windows times).flatten = times := by
  induction times using windows.induct with
  | case1 => rw [windows]; rfl
  | case2 t times ih =>
      rw [windows, List.flatten_cons, ih, List.cons_append, List.takeWhile_append_dropWhile]

/-- The answers that a run of failures should get: the third of it is reported. -/
def third (n : Nat) : List Bool := (List.range n).map fun i => decide (i + 1 = BEFORE_NOTICE)

/-- Whether a count is reported. -/
def told (count : Nat) : Bool := count = BEFORE_NOTICE

/-- A run that is reported once: it is short, or its first window is as long as it takes and none of
the others is. (A count that wraps around is reported again.) -/
def Steady (run : List Nat) : Prop :=
  run.length < BEFORE_NOTICE ∨
    ∃ w ws, windows run = w :: ws ∧ BEFORE_NOTICE ≤ w.length ∧
      w.length < 2 ^ 32 + BEFORE_NOTICE ∧ ∀ v ∈ ws, v.length < BEFORE_NOTICE

theorem third_of_lt {n : Nat} (h : n < BEFORE_NOTICE) : third n = List.replicate n false := by
  refine List.eq_replicate_iff.2 ⟨by unfold third; simp, fun b hb => ?_⟩
  obtain ⟨i, hi, rfl⟩ := List.mem_map.1 hb
  have := List.mem_range.1 hi
  exact decide_eq_false (by omega)

theorem third_add {n : Nat} (h : BEFORE_NOTICE ≤ n) (m : Nat) :
    third (n + m) = third n ++ List.replicate m false := by
  unfold third
  rw [List.range_add, List.map_append, List.map_map]
  congr 1
  refine List.eq_replicate_iff.2 ⟨by simp, fun b hb => ?_⟩
  obtain ⟨i, -, rfl⟩ := List.mem_map.1 hb
  have hlater : n + i + 1 ≠ BEFORE_NOTICE := by omega
  exact decide_eq_false hlater

theorem told_tally {w : List Nat} (h : w.length < 2 ^ 32 + BEFORE_NOTICE) :
    (tally w).map told = third w.length := by
  unfold tally third
  rw [List.map_map]
  refine List.map_congr_left fun i hi => ?_
  have hlt := List.mem_range.1 hi
  have hwrap : (i + 1) % 2 ^ 32 = BEFORE_NOTICE ↔ i + 1 = BEFORE_NOTICE := by
    unfold BEFORE_NOTICE at *
    omega
  exact decide_eq_decide.2 hwrap

theorem third_at {n i : Nat} (h : i < n) :
    (third n)[i]? = some (decide (i + 1 = BEFORE_NOTICE)) := by
  unfold third
  rw [List.getElem?_map, List.getElem?_range h]
  rfl

theorem told_at {w : List Nat} {i : Nat} (h : i < w.length) :
    ((tally w).map told)[i]? = some (told ((i + 1) % 2 ^ 32)) := by
  unfold tally
  rw [List.map_map, List.getElem?_map, List.getElem?_range h]
  rfl

/-- The first two failures of a window are not reported. -/
theorem told_early {ws : List (List Nat)} (h : [] ∉ ws) {i : Nat} (hi : i + 1 < BEFORE_NOTICE) :
    ((ws.flatMap tally).map told)[i]? ≠ some true := by
  induction ws generalizing i with
  | nil => simp
  | cons w ws ih =>
      have hw : 0 < w.length := List.length_pos_iff.2 fun hw => h (hw ▸ List.mem_cons_self)
      have hlen : ((tally w).map told).length = w.length := by unfold tally; simp
      rw [List.flatMap_cons, List.map_append, List.getElem?_append, hlen]
      split
      · next hlt =>
          rw [told_at hlt]
          intro htold
          have htold : (i + 1) % 2 ^ 32 = BEFORE_NOTICE :=
            of_decide_eq_true (Option.some_inj.1 htold)
          unfold BEFORE_NOTICE at hi htold
          omega
      · exact ih (fun hmem => h (List.mem_cons_of_mem _ hmem)) (by omega)

/-- Nothing is reported of short windows. -/
theorem told_short {ws : List (List Nat)} (h : ∀ w ∈ ws, w.length < BEFORE_NOTICE) :
    (ws.flatMap tally).map told = List.replicate ws.flatten.length false := by
  induction ws with
  | nil => rfl
  | cons w ws ih =>
      have hw := h w List.mem_cons_self
      rw [List.flatMap_cons, List.map_append, ih fun v hv => h v (List.mem_cons_of_mem _ hv),
        told_tally (by omega), third_of_lt hw, List.flatten_cons, List.length_append,
        List.replicate_add]

theorem told_windows_iff (run : List Nat) :
    (counts none run).map told = third run.length ↔ Steady run := by
  have hflat := windows_flatten run
  have hnil := nil_notMem_windows run
  rw [counts_windows]
  unfold Steady
  by_cases hshort : run.length < BEFORE_NOTICE
  · refine iff_of_true ?_ (.inl hshort)
    have hle : ∀ w ∈ windows run, w.length < BEFORE_NOTICE := fun w hw =>
      Nat.lt_of_le_of_lt (hflat ▸ List.sublist_flatten_of_mem hw).length_le hshort
    rw [told_short hle, hflat, third_of_lt hshort]
  rw [or_iff_right hshort]
  generalize windows run = parts at hflat hnil
  cases parts with
  | nil =>
      rw [← hflat] at hshort
      exact absurd (show [].length < BEFORE_NOTICE by decide) hshort
  | cons w ws =>
      rw [List.flatten_cons] at hflat
      have hrun : run.length = w.length + ws.flatten.length := by rw [← hflat, List.length_append]
      have hlen : ((tally w).map told).length = w.length := by unfold tally; simp
      have hthird : (third w.length).length = w.length := by unfold third; simp
      rw [List.flatMap_cons, List.map_append, hrun]
      constructor
      · intro h
        have hlong : BEFORE_NOTICE ≤ w.length := by
          by_contra hw
          -- the third failure of the run is one of the first two of a later window
          have hw₀ : 0 < w.length := List.length_pos_iff.2 fun hw => hnil (hw ▸ List.mem_cons_self)
          have hearly : 2 - w.length + 1 < BEFORE_NOTICE := by
            unfold BEFORE_NOTICE
            omega
          refine told_early (fun hmem => hnil (List.mem_cons_of_mem _ hmem)) hearly ?_
          have hle : ((tally w).map told).length ≤ 2 := by
            unfold BEFORE_NOTICE at hw
            omega
          have hat := congrArg (fun l => l[2]?) h
          rw [List.getElem?_append_right hle, hlen,
            third_at (by rw [← hrun]; exact not_lt.1 hshort)]
            at hat
          exact hat
        rw [third_add hlong] at h
        obtain ⟨hfirst, hrest⟩ := List.append_inj h (hlen.trans hthird.symm)
        refine ⟨w, ws, rfl, hlong, ?_, fun v hv => ?_⟩
        · by_contra hwraps
          have hlt : 2 ^ 32 + 2 < w.length := by
            unfold BEFORE_NOTICE at hwraps
            omega
          have hat := congrArg (fun l => l[2 ^ 32 + 2]?) hfirst
          rw [told_at hlt, third_at hlt] at hat
          cases Option.some_inj.1 hat
        · by_contra hv'
          have hat := told_at (w := v) (i := 2) (not_lt.1 hv')
          have hmem := List.mem_of_getElem? hat
          obtain ⟨n, hn, hn'⟩ := List.mem_map.1 hmem
          have hall := List.mem_map_of_mem (f := told) (List.mem_flatMap.2 ⟨v, hv, hn⟩)
          rw [hrest, hn'] at hall
          cases List.eq_of_mem_replicate hall
      · rintro ⟨w', ws', hparts, hlong, hwraps, hshort'⟩
        obtain ⟨rfl, rfl⟩ := List.cons_eq_cons.1 hparts
        rw [told_tally hwraps, told_short hshort', third_add hlong]

/-! ## 4. All addresses -/

theorem within_of_le {start now now' : Nat} (h : within start now' = true) (hle : now ≤ now') :
    within start now = true :=
  decide_eq_true (Nat.lt_of_le_of_lt (Nat.sub_le_sub_right hle start) (of_decide_eq_true h))

/-- What the table says of each address once its entries are pruned: what its own failures come to;
and no address is there that never failed. -/
structure Tracks (past : List (IpAddr × Nat)) (r : RefusedHandshakes) : Prop where
  agrees : ∀ a now, (∀ e ∈ past, e.2 ≤ now) →
    (r.sources.get a).filter (fun c => within c.1 now) =
      (entry none (failures a past)).filter fun c => within c.1 now
  known : ∀ a, r.sources.has a = true → a ∈ past.map fun e => e.1.to_canonical

theorem tracks_default : default.Tracks [] :=
  ⟨fun _ _ _ => rfl, fun a ha => by cases ha⟩

theorem failures_cons (a : IpAddr) (ip : IpAddr) (now : Nat) (events : List (IpAddr × Nat)) :
    failures a ((ip, now) :: events) =
      if ip.to_canonical = a then now :: failures a events else failures a events := by
  unfold failures
  by_cases h : ip.to_canonical = a
  · rw [if_pos h, List.filter_cons, if_pos (decide_eq_true h), List.map_cons]
  · rw [if_neg h, List.filter_cons, if_neg (mt of_decide_eq_true h)]

theorem failures_concat (a : IpAddr) (past : List (IpAddr × Nat)) (ip : IpAddr) (now : Nat) :
    failures a (past ++ [(ip, now)]) =
      failures a past ++ if ip.to_canonical = a then [now] else [] := by
  unfold failures
  rw [List.filter_append, List.map_append, List.filter_singleton]
  by_cases h : ip.to_canonical = a
  · rw [if_pos h, decide_eq_true h]
    rfl
  · rw [if_neg h, decide_eq_false h]
    rfl

/-- One more failure: there is room for its address, and its count goes on. -/
theorem Tracks.record {past : List (IpAddr × Nat)} {r : RefusedHandshakes} (h : r.Tracks past)
    {ip : IpAddr} {now : Nat} (hle : ∀ e ∈ past, e.2 ≤ now)
    (hroom : ((past ++ [(ip, now)]).map fun e => e.1.to_canonical).toFinset.card ≤ MAX_SOURCES) :
    (r.record ip now).1.Tracks (past ++ [(ip, now)]) ∧
      (r.record ip now).2 =
        told (counted (entry none (failures ip.to_canonical past)) now).2 := by
  have hget (a : IpAddr) : (r.sources.retain fun _ e => now - e.1 < WINDOW).get a =
      (entry none (failures a past)).filter fun c => within c.1 now := by
    rw [Table.get_retain]
    exact h.agrees a now hle
  have hhas (a : IpAddr) (ha : (r.sources.retain fun _ e => now - e.1 < WINDOW).has a = true) :
      a ∈ past.map fun e => e.1.to_canonical := by
    obtain ⟨c, hc⟩ := Table.has_eq_true.1 ha
    rw [Table.get_retain] at hc
    exact h.known a (Table.has_eq_true.2 ⟨c, (Option.filter_eq_some_iff.1 hc).1⟩)
  unfold RefusedHandshakes.record
  dsimp only
  generalize (r.sources.retain fun _ e => decide (now - e.1 < WINDOW)) = sources at hget hhas
  have hspace : ¬ ((!sources.has ip.to_canonical &&
      decide (MAX_SOURCES ≤ sources.pairs.length)) = true) := by
    intro hfull
    obtain ⟨hnew, hfull⟩ := Bool.and_eq_true_iff.1 hfull
    -- the addresses of the table and the new one are too many
    have hsub : ip.to_canonical :: sources.pairs.map Prod.fst ⊆
        (past ++ [(ip, now)]).map fun e => e.1.to_canonical := by
      intro a ha
      rw [List.map_append]
      rcases List.mem_cons.1 ha with rfl | ha
      · exact List.mem_append_right _ (List.mem_singleton_self _)
      · obtain ⟨e, he, rfl⟩ := List.mem_map.1 ha
        exact List.mem_append_left _
          (hhas _ (Table.has_eq_true.2 ⟨e.2, Table.get_eq_some_iff.2 he⟩))
    have hnodup : (ip.to_canonical :: sources.pairs.map Prod.fst).Nodup := by
      refine List.nodup_cons.2 ⟨fun ha => ?_, sources.nodup_keys⟩
      obtain ⟨e, he, hkey⟩ := List.mem_map.1 ha
      have hthere := Table.has_eq_true.2 ⟨e.2, Table.get_eq_some_iff.2 he⟩
      rw [hkey] at hthere
      rw [hthere] at hnew
      cases hnew
    have hcard := (List.toFinset_card_of_nodup hnodup).symm.trans_le
      ((Finset.card_le_card fun a ha => List.mem_toFinset.2 (hsub (List.mem_toFinset.1 ha))).trans
        hroom)
    rw [List.length_cons, List.length_map] at hcard
    exact absurd (of_decide_eq_true hfull) (Nat.not_le_of_lt hcard)
  rw [if_neg hspace]
  have hentry : (sources.get ip.to_canonical).getD (now, 0) =
      ((entry none (failures ip.to_canonical past)).filter fun c => within c.1 now).getD (now, 0) :=
    congrArg (Option.getD · (now, 0)) (hget _)
  have hcounted : counted (entry none (failures ip.to_canonical past)) now =
      (((sources.get ip.to_canonical).getD (now, 0)).1,
        (((sources.get ip.to_canonical).getD (now, 0)).2 + 1) % 2 ^ 32) := by
    rw [hentry]
    rfl
  refine ⟨⟨fun a now' hle' => ?_, fun a ha => ?_⟩, by rw [hcounted]; rfl⟩
  · have hnow : now ≤ now' := hle' _ (List.mem_append_right _ (List.mem_singleton_self _))
    rw [Table.get_insert, failures_concat]
    by_cases ha : ip.to_canonical = a
    · rw [if_pos ha.symm, if_pos ha, ← ha]
      unfold entry at hcounted ⊢
      rw [List.foldl_append, List.foldl_cons, List.foldl_nil, hcounted]
    · rw [if_neg (Ne.symm ha), if_neg ha, List.append_nil, hget, Option.filter_filter]
      refine congrArg (Option.filter · _) (funext fun c => ?_)
      by_cases hc : within c.1 now' = true
      · rw [hc, within_of_le hc hnow]
        rfl
      · rw [Bool.not_eq_true] at hc
        rw [hc, Bool.and_false]
  · rw [List.map_append]
    by_cases hself : a = ip.to_canonical
    · exact List.mem_append_right _ (hself ▸ List.mem_singleton_self _)
    · obtain ⟨c, hc⟩ := Table.has_eq_true.1 ha
      rw [Table.get_insert, if_neg hself] at hc
      exact List.mem_append_left _ (hhas a (Table.has_eq_true.2 ⟨c, hc⟩))

theorem reports_of_from {past events : List (IpAddr × Nat)} {r : RefusedHandshakes}
    (h : r.Tracks past) (hsorted : (past ++ events).Pairwise fun e e' => e.2 ≤ e'.2)
    (hroom : ((past ++ events).map fun e => e.1.to_canonical).toFinset.card ≤ MAX_SOURCES)
    (a : IpAddr) :
    ((events.zip (r.reports events)).filter fun e => e.1.1.to_canonical = a).map Prod.snd =
      (counts (entry none (failures a past)) (failures a events)).map told := by
  induction events generalizing past r with
  | nil => rfl
  | cons e events ih =>
      obtain ⟨ip, now⟩ := e
      have hassoc : past ++ (ip, now) :: events = past ++ [(ip, now)] ++ events := by
        rw [List.append_assoc, List.singleton_append]
      have hle : ∀ e ∈ past, e.2 ≤ now := fun e he =>
        (List.pairwise_append.1 hsorted).2.2 e he (ip, now) List.mem_cons_self
      rw [hassoc] at hsorted hroom
      have hhere : ((past ++ [(ip, now)]).map fun e => e.1.to_canonical).toFinset.card ≤
          MAX_SOURCES := by
        refine (Finset.card_le_card fun x hx => ?_).trans hroom
        rw [List.map_append]
        exact List.mem_toFinset.2 (List.mem_append_left _ (List.mem_toFinset.1 hx))
      obtain ⟨hnext, htold⟩ := h.record hle hhere
      have hrest := ih hnext hsorted hroom
      rw [reports, List.zip_cons_cons, failures_cons]
      rw [failures_concat] at hrest
      -- An event of another address leaves the entry of this one alone, as long as there is room
      -- for all.
      by_cases ha : ip.to_canonical = a
      · rw [if_pos ha] at hrest ⊢
        rw [List.filter_cons, if_pos (decide_eq_true ha), List.map_cons, counts, List.map_cons]
        unfold entry at hrest htold ⊢
        rw [List.foldl_append] at hrest
        rw [htold, ha]
        exact congrArg _ hrest
      · rw [if_neg ha] at hrest ⊢
        rw [List.append_nil] at hrest
        rw [List.filter_cons, if_neg (mt of_decide_eq_true ha)]
        exact hrest

/-- From one run to the next the count starts again. -/
theorem counts_flatten {parts : List (List Nat)}
    (hgap : parts.IsChain fun g g' => ∃ hg hg', within (g.getLast hg) (g'.head hg') = false)
    (hsorted : parts.flatten.Pairwise (· ≤ ·)) :
    counts none parts.flatten = parts.flatMap (counts none) := by
  induction parts with
  | nil => rfl
  | cons g parts ih =>
      obtain ⟨hg, hparts, -⟩ := List.pairwise_append.1 (List.flatten_cons ▸ hsorted)
      rw [List.flatten_cons, counts_append, List.flatMap_cons,
        ← ih (List.isChain_of_isChain_cons hgap) hparts]
      refine congrArg (counts none g ++ ·) (counts_stale fun now hnow c hc => ?_)
      cases parts with
      | nil => cases hnow
      | cons g' parts =>
          obtain ⟨hne, hne', hlast⟩ := (List.isChain_cons_cons.1 hgap).1
          have hhead : now = g'.head hne' := by
            rw [List.flatten_cons, List.head?_append_of_ne_nil _ hne',
              List.head?_eq_some_head hne'] at hnow
            exact (Option.some_inj.1 hnow).symm
          rcases entry_start hc with hmem | ⟨c', hc', -⟩
          · have hle : c.1 ≤ g.getLast hne := by
              rw [← List.dropLast_append_getLast hne] at hg hmem
              rcases List.mem_append.1 hmem with hmem | hmem
              · exact (List.pairwise_append.1 hg).2.2 _ hmem _ (List.mem_singleton_self _)
              · exact (List.mem_singleton.1 hmem).le
            rw [← hhead] at hlast
            have hfar : ¬ now - g.getLast hne < WINDOW := of_decide_eq_false hlast
            exact decide_eq_false fun hnear =>
              hfar (Nat.lt_of_le_of_lt (Nat.sub_le_sub_left hle now) hnear)
          · cases hc'

theorem counts_runs {times : List Nat} (h : times.Pairwise (· ≤ ·)) :
    counts none times = (runs times).flatMap (counts none) := by
  have hflat : (runs times).flatten = times := List.flatten_splitBy within times
  have hgap :
      (runs times).IsChain fun g g' => ∃ hg hg', within (g.getLast hg) (g'.head hg') = false :=
    List.isChain_getLast_head_splitBy within times
  rw [← counts_flatten hgap (hflat.symm ▸ h), hflat]

/-- In every run of failures of an address the third is reported and no other. -/
def OncePerRun (events : List (IpAddr × Nat)) : Prop :=
  ∀ a, reports_of a events = (runs (failures a events)).flatMap fun run => third run.length

theorem flatMap_eq_iff {α β : Type} {l : List α} {f g : α → List β}
    (h : ∀ a ∈ l, (f a).length = (g a).length) :
    l.flatMap f = l.flatMap g ↔ ∀ a ∈ l, f a = g a := by
  induction l with
  | nil => exact iff_of_true rfl fun a ha => absurd ha List.not_mem_nil
  | cons a l ih =>
      rw [List.flatMap_cons, List.flatMap_cons, List.forall_mem_cons,
        ← ih fun b hb => h b (List.mem_cons_of_mem a hb)]
      constructor
      · exact fun heq => List.append_inj heq (h a List.mem_cons_self)
      · rintro ⟨hhead, htail⟩
        rw [hhead, htail]

theorem length_counts (e : Option (Nat × Nat)) (times : List Nat) :
    (counts e times).length = times.length := by
  induction times generalizing e with
  | nil => rfl
  | cons now times ih => rw [counts, List.length_cons, List.length_cons, ih]

/-- **One report a run.** With failures from no more addresses than are tracked, every run is
reported exactly once, at its third failure, if and only if every run is steady. -/
theorem reported_once_iff {events : List (IpAddr × Nat)}
    (hsorted : events.Pairwise fun e e' => e.2 ≤ e'.2)
    (hroom : (events.map fun e => e.1.to_canonical).toFinset.card ≤ MAX_SOURCES) :
    OncePerRun events ↔ ∀ a, ∀ run ∈ runs (failures a events), Steady run := by
  unfold OncePerRun
  refine forall_congr' fun a => ?_
  have htimes : (failures a events).Pairwise (· ≤ ·) :=
    List.pairwise_map.2 (hsorted.sublist List.filter_sublist)
  have hreports : reports_of a events = (counts none (failures a events)).map told :=
    reports_of_from tracks_default hsorted hroom a
  rw [hreports, counts_runs htimes, List.map_flatMap, flatMap_eq_iff]
  · exact forall₂_congr fun run _ => told_windows_iff run
  · intro run _
    unfold third
    rw [List.length_map, length_counts, List.length_map, List.length_range]

/-- A peer that tries again every two minutes. -/
def retries (n : Nat) : List (IpAddr × Nat) :=
  (List.range n).map fun i => (.V4 0xC0A84464, i * 120000)

/-- It never stops trying, and is reported at its third failure and again five failures later. -/
theorem reported_twice : ¬ OncePerRun (retries 8) := by
  intro h
  have hat := h (.V4 0xC0A84464)
  revert hat
  decide +kernel

/-- A peer that gives up after four failures is reported once. -/
theorem reported_once_steady : OncePerRun (retries 4) := by
  refine (reported_once_iff (by decide) (by decide)).2 fun a run hrun => .inr ?_
  have hall : windows [0, 120000, 240000, 360000] = [[0, 120000, 240000, 360000]] := by
    simp [windows, within, WINDOW]
  by_cases ha : a = .V4 0xC0A84464
  · rw [ha] at hrun
    obtain rfl := List.mem_singleton.1 (show run ∈ [[0, 120000, 240000, 360000]] from hrun)
    exact ⟨_, _, hall, by decide, by decide, fun v hv => absurd hv List.not_mem_nil⟩
  · have hnone : failures a (retries 4) = [] := by
      refine List.map_eq_nil_iff.2 (List.filter_eq_nil_iff.2 fun e he => ?_)
      obtain ⟨i, -, rfl⟩ := List.mem_map.1 he
      exact mt of_decide_eq_true (Ne.symm ha)
    rw [hnone] at hrun
    exact absurd hrun List.not_mem_nil

end RefusedHandshakes

end SoundPush
