/-
`PairingLimit` -- the pairing rate limit over whole sequences of attempts
(`pairing_limit.rs`).

The log lists the attempts with the limiter's decisions. What the limiter keeps of an
address is read off it (`Tracks`): the times it was allowed in the last window, and
whether its last attempt was refused. That holds as long as no address is forgotten to
make room, so for 256 addresses; that the table stays bounded holds for any number.

One check is cut in two: what is left of the entry it works on (`pruned`), and the
decision. Both are read off the log, since times are ordered and so dropping the old
attempts off the front drops all of them (`dropWhile_eq_counting`). What
`attempts_limited` says, but for the size of the table, is then a fact about the log
alone: how many allowed times lie in a window, and what stood in the window before a
refusal.
-/
import SoundPush.Engine.Limits
import Mathlib.Data.Finset.Dedup
import Mathlib.Data.Finset.Card

set_option autoImplicit false

namespace SoundPush

namespace PairingLimiter

/-! ## 1. The log -/

/-- An attempt, under the canonical form of its address, and what the limiter said. -/
structure Attempt where
  ip : IpAddr
  time : Nat
  decision : Decision
  deriving DecidableEq

/-- One more attempt. -/
def log_step (s : PairingLimiter × List Attempt) (e : IpAddr × Nat) :
    PairingLimiter × List Attempt :=
  ((s.1.check e.1 e.2).1, s.2 ++ [⟨e.1.to_canonical, e.2, (s.1.check e.1 e.2).2⟩])

/-- A sequence of attempts from the start: the limiter then, and the log. -/
def run (es : List (IpAddr × Nat)) : PairingLimiter × List Attempt :=
  es.foldl log_step (default, [])

theorem run_append (es : List (IpAddr × Nat)) (e : IpAddr × Nat) :
    run (es ++ [e]) = log_step (run es) e := List.foldl_append

/-- The attempts of one address. -/
def of_ip (a : IpAddr) (log : List Attempt) : List Attempt := log.filter fun x => x.ip = a

/-- When an address was allowed. -/
def allowed (a : IpAddr) (log : List Attempt) : List Nat :=
  ((of_ip a log).filter fun x => x.decision = .Allowed).map Attempt.time

/-- The last attempt of an address was refused. -/
def refused_last (a : IpAddr) (log : List Attempt) : Bool :=
  match (of_ip a log).getLast? with
  | some x => x.decision ≠ .Allowed
  | none => false

section
variable {a b : IpAddr} {log : List Attempt} {now : Nat} {d : Decision}

theorem of_ip_append_self : of_ip a (log ++ [⟨a, now, d⟩]) = of_ip a log ++ [⟨a, now, d⟩] := by
  have hx : ([(⟨a, now, d⟩ : Attempt)].filter fun x => x.ip = a) = [⟨a, now, d⟩] :=
    List.filter_cons_of_pos (decide_eq_true rfl)
  rw [of_ip, List.filter_append, hx, of_ip]

theorem of_ip_append_of_ne (h : b ≠ a) : of_ip a (log ++ [⟨b, now, d⟩]) = of_ip a log := by
  rw [of_ip, List.filter_append, List.filter_cons_of_neg (by simpa using h), List.filter_nil,
    List.append_nil]
  rfl

theorem allowed_append_of_ne (h : b ≠ a) : allowed a (log ++ [⟨b, now, d⟩]) = allowed a log := by
  rw [allowed, of_ip_append_of_ne h, allowed]

theorem allowed_append_allowed :
    allowed a (log ++ [⟨a, now, .Allowed⟩]) = allowed a log ++ [now] := by
  have hx : ([(⟨a, now, .Allowed⟩ : Attempt)].filter fun x => x.decision = .Allowed) =
      [⟨a, now, .Allowed⟩] := List.filter_cons_of_pos (decide_eq_true rfl)
  rw [allowed, of_ip_append_self, List.filter_append, hx, List.map_append, allowed]
  rfl

theorem allowed_append_refused (hd : d ≠ .Allowed) :
    allowed a (log ++ [⟨a, now, d⟩]) = allowed a log := by
  rw [allowed, of_ip_append_self, List.filter_append,
    List.filter_cons_of_neg (by simpa using hd), List.filter_nil, List.append_nil, allowed]

theorem refused_last_append_self :
    refused_last a (log ++ [⟨a, now, d⟩]) = decide (d ≠ .Allowed) := by
  rw [refused_last, of_ip_append_self, List.getLast?_concat]

theorem refused_last_append_of_ne (h : b ≠ a) :
    refused_last a (log ++ [⟨b, now, d⟩]) = refused_last a log := by
  rw [refused_last, of_ip_append_of_ne h, refused_last]

/-- The times an address was allowed are times of the log. -/
theorem mem_of_mem_allowed {t : Nat} (h : t ∈ allowed a log) :
    ∃ x ∈ log, x.time = t := by
  rw [allowed, List.mem_map] at h
  obtain ⟨x, hx, rfl⟩ := h
  exact ⟨x, (List.mem_filter.1 (List.mem_filter.1 hx).1).1, rfl⟩

end

/-- The times that still count at `now`. -/
def counting (now : Nat) (times : List Nat) : List Nat :=
  times.filter fun t => now < t + PAIRING_WINDOW

/-- Dropping what is too old off the front of an ordered list drops all that is too old. -/
theorem dropWhile_eq_counting {now : Nat} {times : List Nat}
    (h : times.Pairwise (· ≤ ·)) (hnow : ∀ t ∈ times, t ≤ now) :
    times.dropWhile (fun t => PAIRING_WINDOW ≤ now - t) = counting now times := by
  induction times with
  | nil => rfl
  | cons t times ih =>
      rw [List.pairwise_cons] at h
      have ht := hnow t List.mem_cons_self
      by_cases hold : PAIRING_WINDOW ≤ now - t
      · have hgone : ¬ (decide (now < t + PAIRING_WINDOW)) = true := by
          rw [decide_eq_true_eq]
          omega
        have hrest : counting now (t :: times) = counting now times :=
          List.filter_cons_of_neg hgone
        rw [List.dropWhile_cons, if_pos (decide_eq_true hold), hrest]
        exact ih h.2 fun t' ht' => hnow t' (List.mem_cons_of_mem _ ht')
      · rw [List.dropWhile_cons, if_neg (by rwa [decide_eq_true_eq])]
        -- the rest is not older
        refine (List.filter_eq_self.2 fun t' ht' => decide_eq_true ?_).symm
        rcases List.mem_cons.1 ht' with rfl | ht'
        · omega
        · have := h.1 t' ht'
          omega

/-- What counted earlier includes what counts now. -/
theorem counting_counting {before now : Nat} (h : before ≤ now) (times : List Nat) :
    counting now (counting before times) = counting now times := by
  rw [counting, counting, List.filter_filter]
  refine List.filter_congr fun t _ => ?_
  by_cases ht : now < t + PAIRING_WINDOW
  · rw [decide_eq_true ht, decide_eq_true (show before < t + PAIRING_WINDOW by omega)]
    rfl
  · rw [decide_eq_false ht, Bool.false_and]

/-! ## 2. What the limiter keeps -/

/-- The entries are what the log says of their addresses. -/
structure Tracks (l : PairingLimiter) (log : List Attempt) : Prop where
  ordered : log.Pairwise fun x y => x.time ≤ y.time
  has : ∀ a, l.sources.has a = true ↔ ∃ x ∈ log, x.ip = a
  seen : ∀ a s, l.sources.get a = some s → ∃ x ∈ log, x.time = s.last_seen
  attempts : ∀ a s, l.sources.get a = some s → s.attempts = counting s.last_seen (allowed a log)
  reported : ∀ a s, l.sources.get a = some s → s.refused_reported = refused_last a log

theorem tracks_default : Tracks default [] where
  ordered := List.Pairwise.nil
  has a := by
    constructor
    · intro h
      obtain ⟨s, hs⟩ := Table.has_eq_true.1 h
      cases hs
    · rintro ⟨x, hx, -⟩
      exact absurd hx List.not_mem_nil
  seen _ _ h := nomatch h
  attempts _ _ h := nomatch h
  reported _ _ h := nomatch h

/-- The entry that a check works on, and what is left of its attempts. -/
def entry (l : PairingLimiter) (a : IpAddr) (now : Nat) : Source :=
  (l.sources.get a).getD { attempts := [], refused_reported := false, last_seen := now }

def pruned (l : PairingLimiter) (a : IpAddr) (now : Nat) : List Nat :=
  (l.entry a now).attempts.dropWhile fun t => PAIRING_WINDOW ≤ now - t

/-- A check that has room for the address. -/
theorem check_eq (l : PairingLimiter) (ip : IpAddr) (now : Nat)
    (hroom : l.sources.has ip.to_canonical = true ∨ l.sources.pairs.length < MAX_SOURCES) :
    l.check ip now =
      if ATTEMPTS_PER_WINDOW ≤ (l.pruned ip.to_canonical now).length then
        (⟨l.sources.insert ip.to_canonical
            ⟨l.pruned ip.to_canonical now, true, now⟩⟩,
          .Refused (!(l.entry ip.to_canonical now).refused_reported))
      else
        (⟨l.sources.insert ip.to_canonical
            ⟨l.pruned ip.to_canonical now ++ [now], false, now⟩⟩, .Allowed) := by
  have hkeep : ¬ ((!l.sources.has ip.to_canonical &&
      decide (MAX_SOURCES ≤ l.sources.pairs.length)) = true) := by
    rw [Bool.and_eq_true, Bool.not_eq_true', decide_eq_true_eq]
    rintro ⟨hhas, hlen⟩
    rcases hroom with h | h
    · rw [h] at hhas
      exact Bool.false_ne_true hhas.symm
    · omega
  unfold check
  dsimp only
  rw [if_neg hkeep]
  rfl

namespace Tracks

variable {l : PairingLimiter} {log : List Attempt} {now : Nat}

/-- The attempts that count now. -/
theorem pruned_eq (h : Tracks l log) (hnow : ∀ x ∈ log, x.time ≤ now) (a : IpAddr) :
    l.pruned a now = counting now (allowed a log) := by
  have hle : ∀ t ∈ allowed a log, t ≤ now := by
    intro t ht
    obtain ⟨x, hx, rfl⟩ := mem_of_mem_allowed ht
    exact hnow x hx
  have hsorted : (allowed a log).Pairwise (· ≤ ·) := by
    rw [allowed, List.pairwise_map]
    exact (h.ordered.sublist List.filter_sublist).sublist List.filter_sublist
  rw [pruned, entry]
  cases hs : l.sources.get a with
  | none =>
      -- an address without an entry has made no attempt
      have hnone : allowed a log = [] := by
        rw [List.eq_nil_iff_forall_not_mem]
        intro t ht
        rw [allowed, List.mem_map] at ht
        obtain ⟨x, hx, -⟩ := ht
        obtain ⟨hx, hip⟩ := List.mem_filter.1 (List.mem_filter.1 hx).1
        obtain ⟨s, hs'⟩ := Table.has_eq_true.1 ((h.has a).2 ⟨x, hx, of_decide_eq_true hip⟩)
        rw [hs] at hs'
        cases hs'
      rw [hnone]
      rfl
  | some s =>
      obtain ⟨x, hx, hseen⟩ := h.seen a s hs
      rw [Option.getD_some, h.attempts a s hs]
      have hkept : (counting s.last_seen (allowed a log)).Pairwise (· ≤ ·) :=
        hsorted.sublist List.filter_sublist
      rw [dropWhile_eq_counting hkept fun t ht => hle t (List.mem_filter.1 ht).1]
      exact counting_counting (hseen ▸ hnow x hx) _

theorem reported_eq (h : Tracks l log) (a : IpAddr) (now : Nat) :
    (l.entry a now).refused_reported = refused_last a log := by
  rw [entry]
  cases hs : l.sources.get a with
  | some s => exact h.reported a s hs
  | none =>
      have hnone : of_ip a log = [] := by
        rw [List.eq_nil_iff_forall_not_mem]
        intro x hx
        obtain ⟨hx, hip⟩ := List.mem_filter.1 hx
        obtain ⟨s, hs'⟩ := Table.has_eq_true.1 ((h.has a).2 ⟨x, hx, of_decide_eq_true hip⟩)
        rw [hs] at hs'
        cases hs'
      rw [refused_last, hnone]
      rfl

/-- One more attempt that has room. -/
theorem step (h : Tracks l log) {ip : IpAddr} (hnow : ∀ x ∈ log, x.time ≤ now)
    (hroom : l.sources.has ip.to_canonical = true ∨ l.sources.pairs.length < MAX_SOURCES) :
    Tracks (l.check ip now).1
      (log ++ [⟨ip.to_canonical, now, (l.check ip now).2⟩]) := by
  have hpruned := h.pruned_eq hnow ip.to_canonical
  -- what the check writes is what the log says, whichever way it decides
  obtain ⟨attempts, d, hcheck, hattempts, hreported⟩ : ∃ attempts d,
      l.check ip now = (⟨l.sources.insert ip.to_canonical
        ⟨attempts, decide (d ≠ .Allowed), now⟩⟩, d) ∧
      attempts = counting now (allowed ip.to_canonical (log ++ [⟨ip.to_canonical, now, d⟩])) ∧
      refused_last ip.to_canonical (log ++ [⟨ip.to_canonical, now, d⟩]) =
        decide (d ≠ .Allowed) := by
    rw [check_eq l ip now hroom]
    by_cases hfull : ATTEMPTS_PER_WINDOW ≤ (l.pruned ip.to_canonical now).length
    · refine ⟨l.pruned ip.to_canonical now,
        .Refused (!(l.entry ip.to_canonical now).refused_reported), ?_, ?_,
        refused_last_append_self⟩
      · rw [if_pos hfull, decide_eq_true (by rintro ⟨⟩)]
      · rw [allowed_append_refused (by rintro ⟨⟩), hpruned]
    · refine ⟨l.pruned ip.to_canonical now ++ [now], .Allowed, if_neg hfull, ?_,
        refused_last_append_self⟩
      have hlast : counting now [now] = [now] := by
        have : now < now + PAIRING_WINDOW := by
          unfold PAIRING_WINDOW
          omega
        exact List.filter_cons_of_pos (decide_eq_true this)
      have happend : counting now (allowed ip.to_canonical log ++ [now]) =
          counting now (allowed ip.to_canonical log) ++ counting now [now] := List.filter_append ..
      rw [allowed_append_allowed, hpruned, happend, hlast]
  rw [hcheck]
  dsimp only
  -- the entry of another address is left alone
  have hother : ∀ {a s}, a ≠ ip.to_canonical →
      (l.sources.insert ip.to_canonical ⟨attempts, decide (d ≠ .Allowed), now⟩).get a = some s →
        l.sources.get a = some s := by
    intro a s hne hs
    rwa [Table.get_insert, if_neg hne] at hs
  have hself : ∀ {s}, (l.sources.insert ip.to_canonical
      ⟨attempts, decide (d ≠ .Allowed), now⟩).get ip.to_canonical = some s →
        s = ⟨attempts, decide (d ≠ .Allowed), now⟩ := by
    intro s hs
    rw [Table.get_insert_self] at hs
    exact (Option.some_inj.1 hs).symm
  constructor
  case ordered =>
    rw [List.pairwise_append]
    refine ⟨h.ordered, List.pairwise_singleton _ _, fun x hx y hy => ?_⟩
    rw [List.mem_singleton.1 hy]
    exact hnow x hx
  case has =>
    intro a
    rw [Table.has_eq_true]
    by_cases ha : a = ip.to_canonical
    · refine iff_of_true ⟨⟨attempts, decide (d ≠ .Allowed), now⟩, ?_⟩
        ⟨⟨ip.to_canonical, now, d⟩, ?_, ha.symm⟩
      · dsimp only
        rw [ha, Table.get_insert_self]
      · exact List.mem_append_right _ (List.mem_singleton_self _)
    · dsimp only
      rw [Table.get_insert, if_neg ha, ← Table.has_eq_true, h.has a]
      constructor
      · rintro ⟨x, hx, hip⟩
        exact ⟨x, List.mem_append_left _ hx, hip⟩
      · rintro ⟨x, hx, hip⟩
        rcases List.mem_append.1 hx with hx | hx
        · exact ⟨x, hx, hip⟩
        · rw [List.mem_singleton.1 hx] at hip
          exact absurd hip.symm ha
  case seen =>
    intro a s hs
    by_cases ha : a = ip.to_canonical
    · rw [ha] at hs
      rw [hself hs]
      exact ⟨_, List.mem_append_right _ (List.mem_singleton_self _), rfl⟩
    · obtain ⟨x, hx, hseen⟩ := h.seen a s (hother ha hs)
      exact ⟨x, List.mem_append_left _ hx, hseen⟩
  case attempts =>
    intro a s hs
    by_cases ha : a = ip.to_canonical
    · rw [ha] at hs ⊢
      rw [hself hs]
      exact hattempts
    · rw [allowed_append_of_ne (Ne.symm ha)]
      exact h.attempts a s (hother ha hs)
  case reported =>
    intro a s hs
    by_cases ha : a = ip.to_canonical
    · rw [ha] at hs ⊢
      rw [hself hs]
      exact hreported.symm
    · rw [refused_last_append_of_ne (Ne.symm ha)]
      exact h.reported a s (hother ha hs)

end Tracks

/-! ## 3. The table stays bounded -/

theorem make_room_length {sources : Table IpAddr Source} (now : Nat)
    (h : sources.pairs.length ≤ MAX_SOURCES) :
    (make_room sources now).pairs.length < MAX_SOURCES := by
  unfold make_room
  dsimp only
  generalize hkept : (sources.retain _) = kept
  have hle : kept.pairs.length ≤ sources.pairs.length := hkept ▸ sources.length_retain_le _
  by_cases hfull : MAX_SOURCES ≤ kept.pairs.length
  · have hpos : 0 < kept.pairs.length := Nat.lt_of_lt_of_le (by decide) hfull
    obtain ⟨oldest, hmin, hhas⟩ := Table.exists_min_by_key hpos Source.last_seen
    have herase := kept.length_erase oldest
    rw [if_pos hhas] at herase
    rw [if_pos hfull, hmin]
    dsimp only
    omega
  · rw [if_neg hfull]
    exact Nat.lt_of_not_le hfull

theorem check_length {l : PairingLimiter} (h : l.sources.pairs.length ≤ MAX_SOURCES) (ip : IpAddr)
    (now : Nat) : (l.check ip now).1.sources.pairs.length ≤ MAX_SOURCES := by
  -- an insertion after there was room for it
  have hinsert : ∀ (sources : Table IpAddr Source) (s : Source),
      sources.has ip.to_canonical = true ∧ sources.pairs.length ≤ MAX_SOURCES ∨
        sources.pairs.length < MAX_SOURCES →
      (sources.insert ip.to_canonical s).pairs.length ≤ MAX_SOURCES := by
    intro sources s hroom
    have hlen := sources.length_insert ip.to_canonical s
    rcases hroom with ⟨hhas, hle⟩ | hlt
    · rw [if_pos hhas] at hlen
      omega
    · omega
  have hroom : ∀ sources, sources = (if !l.sources.has ip.to_canonical &&
      decide (MAX_SOURCES ≤ l.sources.pairs.length) then make_room l.sources now
        else l.sources) →
      sources.has ip.to_canonical = true ∧ sources.pairs.length ≤ MAX_SOURCES ∨
        sources.pairs.length < MAX_SOURCES := by
    rintro sources rfl
    by_cases hfull : (!l.sources.has ip.to_canonical &&
        decide (MAX_SOURCES ≤ l.sources.pairs.length)) = true
    · rw [if_pos hfull]
      exact .inr (make_room_length now h)
    · rw [if_neg hfull]
      rw [Bool.and_eq_true, Bool.not_eq_true', decide_eq_true_eq] at hfull
      by_cases hhas : l.sources.has ip.to_canonical = true
      · exact .inl ⟨hhas, h⟩
      · right
        by_contra hlen
        exact hfull ⟨Bool.eq_false_of_not_eq_true hhas, Nat.le_of_not_lt hlen⟩
  unfold check
  dsimp only
  have hroom := hroom _ rfl
  generalize (if (!l.sources.has ip.to_canonical &&
    decide (MAX_SOURCES ≤ l.sources.pairs.length)) = true then make_room l.sources now
      else l.sources) = sources at hroom ⊢
  by_cases hfull : ATTEMPTS_PER_WINDOW ≤
      (((sources.get ip.to_canonical).getD ⟨[], false, now⟩).attempts.dropWhile
        fun t => PAIRING_WINDOW ≤ now - t).length
  · rw [if_pos hfull]
    exact hinsert _ _ hroom
  · rw [if_neg hfull]
    exact hinsert _ _ hroom

theorem run_length (es : List (IpAddr × Nat)) :
    (run es).1.sources.pairs.length ≤ MAX_SOURCES := by
  induction es using List.reverseRecOn with
  | nil => exact Nat.zero_le _
  | append_singleton es e ih =>
      rw [run_append]
      exact check_length ih e.1 e.2

/-! ## 4. Sequences of attempts -/

/-- Attempts at non-decreasing times from at most as many addresses as the table holds. -/
structure Calm (es : List (IpAddr × Nat)) : Prop where
  ordered : es.Pairwise fun x y => x.2 ≤ y.2
  addresses : (es.map fun e => e.1.to_canonical).toFinset.card ≤ MAX_SOURCES

theorem Calm.init {es : List (IpAddr × Nat)} {e : IpAddr × Nat} (h : Calm (es ++ [e])) :
    Calm es ∧ ∀ x ∈ es, x.2 ≤ e.2 := by
  obtain ⟨hordered, -, hlast⟩ := List.pairwise_append.1 h.ordered
  refine ⟨⟨hordered, le_trans (Finset.card_le_card ?_) h.addresses⟩, fun x hx => ?_⟩
  · rw [List.map_append]
    intro a ha
    rw [List.mem_toFinset] at ha ⊢
    exact List.mem_append_left _ ha
  · exact hlast x hx e (List.mem_singleton_self _)

/-- The attempts of the log are those that were made. -/
theorem run_log (es : List (IpAddr × Nat)) :
    (run es).2.map (fun x => (x.ip, x.time)) = es.map fun e => (e.1.to_canonical, e.2) := by
  induction es using List.reverseRecOn with
  | nil => rfl
  | append_singleton es e ih =>
      rw [run_append, log_step, List.map_append, List.map_append, ih]
      rfl

theorem run_mem {es : List (IpAddr × Nat)} {x : Attempt} (hx : x ∈ (run es).2) :
    ∃ e ∈ es, e.1.to_canonical = x.ip ∧ e.2 = x.time := by
  have hmem : (x.ip, x.time) ∈ (run es).2.map fun x => (x.ip, x.time) := List.mem_map_of_mem hx
  rw [run_log, List.mem_map] at hmem
  obtain ⟨e, he, heq⟩ := hmem
  exact ⟨e, he, (Prod.mk.inj heq).1, (Prod.mk.inj heq).2⟩

/-- A new address finds room: those in the table are other addresses of the sequence. -/
theorem Tracks.room {es : List (IpAddr × Nat)} {e : IpAddr × Nat}
    (h : Tracks (run es).1 (run es).2) (hcalm : Calm (es ++ [e])) :
    (run es).1.sources.has e.1.to_canonical = true ∨
      (run es).1.sources.pairs.length < MAX_SOURCES := by
  by_contra hno
  rw [not_or, not_lt] at hno
  obtain ⟨hhas, hfull⟩ := hno
  let keys := ((run es).1.sources.pairs.map Prod.fst).toFinset
  have hkeys : ∀ a ∈ keys, (run es).1.sources.has a = true := by
    intro a ha
    rw [List.mem_toFinset, List.mem_map] at ha
    obtain ⟨p, hp, rfl⟩ := ha
    exact Table.has_eq_true.2 ⟨p.2, Table.get_eq_some_iff.2 hp⟩
  have hcard : keys.card = (run es).1.sources.pairs.length := by
    rw [List.toFinset_card_of_nodup (Table.nodup_keys _), List.length_map]
  have hsub : insert e.1.to_canonical keys ⊆
      ((es ++ [e]).map fun e => e.1.to_canonical).toFinset := by
    intro a ha
    rw [List.mem_toFinset, List.mem_map]
    rcases Finset.mem_insert.1 ha with rfl | ha
    · exact ⟨e, List.mem_append_right _ (List.mem_singleton_self _), rfl⟩
    · obtain ⟨x, hx, rfl⟩ := (h.has a).1 (hkeys a ha)
      obtain ⟨e', he', hip, -⟩ := run_mem hx
      exact ⟨e', List.mem_append_left _ he', hip⟩
  have hle := (Finset.card_le_card hsub).trans hcalm.addresses
  rw [Finset.card_insert_of_notMem fun hmem => hhas (hkeys _ hmem), hcard] at hle
  omega

theorem run_tracks {es : List (IpAddr × Nat)} (h : Calm es) :
    Tracks (run es).1 (run es).2 := by
  induction es using List.reverseRecOn with
  | nil => exact tracks_default
  | append_singleton es e ih =>
      obtain ⟨hcalm, hlast⟩ := h.init
      have htracks := ih hcalm
      rw [run_append]
      refine htracks.step (fun x hx => ?_) (htracks.room h)
      obtain ⟨e', he', -, htime⟩ := run_mem hx
      exact htime ▸ hlast e' he'

/-- What an attempt is decided by: how many of those allowed still count. -/
theorem check_decision {es : List (IpAddr × Nat)} {e : IpAddr × Nat}
    (h : Calm (es ++ [e])) :
    ((run es).1.check e.1 e.2).2 =
      if ATTEMPTS_PER_WINDOW ≤ (counting e.2 (allowed e.1.to_canonical (run es).2)).length then
        .Refused (!refused_last e.1.to_canonical (run es).2)
      else .Allowed := by
  obtain ⟨hcalm, hlast⟩ := h.init
  have htracks := run_tracks hcalm
  have hnow : ∀ x ∈ (run es).2, x.time ≤ e.2 := by
    intro x hx
    obtain ⟨e', he', -, htime⟩ := run_mem hx
    exact htime ▸ hlast e' he'
  rw [check_eq _ _ _ (htracks.room h), htracks.pruned_eq hnow, htracks.reported_eq]
  split
  · rfl
  · rfl

/-- How many of the times lie in the window that begins at `t`. -/
def in_window (t : Nat) (times : List Nat) : Nat :=
  times.countP fun u => t ≤ u ∧ u < t + PAIRING_WINDOW

/-- No window has more than five. -/
theorem windows {es : List (IpAddr × Nat)} (h : Calm es) (a : IpAddr) (t : Nat) :
    in_window t (allowed a (run es).2) ≤ ATTEMPTS_PER_WINDOW := by
  induction es using List.reverseRecOn with
  | nil => exact Nat.zero_le _
  | append_singleton es e ih =>
      obtain ⟨hcalm, hlast⟩ := h.init
      have hih := ih hcalm
      have hdecision := check_decision h
      rw [run_append, log_step]
      by_cases ha : e.1.to_canonical = a
      · rw [ha] at hdecision ⊢
        by_cases hfull : ATTEMPTS_PER_WINDOW ≤ (counting e.2 (allowed a (run es).2)).length
        · rw [if_pos hfull] at hdecision
          rw [hdecision]
          dsimp only
          rw [allowed_append_refused (by rintro ⟨⟩)]
          exact hih
        · rw [if_neg hfull] at hdecision
          rw [hdecision]
          dsimp only
          rw [allowed_append_allowed, in_window, List.countP_append]
          by_cases hin : t ≤ e.2 ∧ e.2 < t + PAIRING_WINDOW
          · -- those in the window with the new attempt still count when it comes
            have hle : (allowed a (run es).2).countP (fun u => t ≤ u ∧ u < t + PAIRING_WINDOW) ≤
                (counting e.2 (allowed a (run es).2)).length := by
              rw [counting, ← List.countP_eq_length_filter]
              refine List.countP_mono_left fun u hu hwindow => ?_
              rw [decide_eq_true_eq] at hwindow ⊢
              omega
            have hone : [e.2].countP (fun u => t ≤ u ∧ u < t + PAIRING_WINDOW) ≤ 1 :=
              List.countP_le_length
            omega
          · have hzero : [e.2].countP (fun u => t ≤ u ∧ u < t + PAIRING_WINDOW) = 0 := by
              rw [List.countP_singleton, if_neg (by rwa [decide_eq_true_eq])]
            rw [hzero]
            exact hih
      · dsimp only
        rw [allowed_append_of_ne ha]
        exact hih

/-- What a window before `now` holds of the times of a log that is over by then. -/
theorem counting_length_le {es : List (IpAddr × Nat)} (h : Calm es) (a : IpAddr) (now : Nat)
    (hnow : ∀ e ∈ es, e.2 ≤ now) :
    (counting now (allowed a (run es).2)).length ≤ ATTEMPTS_PER_WINDOW := by
  refine le_trans ?_ (windows h a (now + 1 - PAIRING_WINDOW))
  rw [counting, ← List.countP_eq_length_filter, in_window]
  refine List.countP_mono_left fun u hu hcounts => ?_
  obtain ⟨x, hx, rfl⟩ := mem_of_mem_allowed hu
  obtain ⟨e, he, -, htime⟩ := run_mem hx
  have hle : x.time ≤ now := htime ▸ hnow e he
  rw [decide_eq_true_eq] at hcounts ⊢
  omega

/-- A sequence whose log begins with some attempts begins with those that made them. -/
theorem run_prefix {es : List (IpAddr × Nat)} {before after : List Attempt} {x : Attempt}
    (h : (run es).2 = before ++ x :: after) :
    ∃ es₁ e es₂, es = es₁ ++ e :: es₂ ∧ (run es₁).2 = before ∧
      x = ⟨e.1.to_canonical, e.2, ((run es₁).1.check e.1 e.2).2⟩ := by
  induction es using List.reverseRecOn generalizing after with
  | nil => simp [run] at h
  | append_singleton es e ih =>
      rw [run_append, log_step] at h
      rcases List.eq_nil_or_concat after with rfl | ⟨rest, y, rfl⟩
      · obtain ⟨hbefore, hx⟩ := List.append_inj' h rfl
        exact ⟨es, e, [], rfl, hbefore, (List.singleton_inj.1 hx).symm⟩
      · rw [List.concat_eq_append, ← List.cons_append, ← List.append_assoc] at h
        obtain ⟨es₁, e₁, es₂, rfl, hbefore, hx⟩ := ih (List.append_inj' h rfl).1
        exact ⟨es₁, e₁, es₂ ++ [e], by simp, hbefore, hx⟩

/-- The pairing rate limit: an address is allowed at most five attempts in any minute, is refused
only after five in the minute before, and only the first refusal of a series is flagged; and the
table is bounded whatever comes. -/
theorem attempts_limited (es : List (IpAddr × Nat)) :
    (run es).1.sources.pairs.length ≤ MAX_SOURCES ∧
      (es.Pairwise (fun x y => x.2 ≤ y.2) →
        (es.map fun e => e.1.to_canonical).toFinset.card ≤ MAX_SOURCES →
          (∀ a t, in_window t (allowed a (run es).2) ≤ ATTEMPTS_PER_WINDOW) ∧
          ∀ before x after first, (run es).2 = before ++ x :: after → x.decision = .Refused first →
            (counting x.time (allowed x.ip before)).length = ATTEMPTS_PER_WINDOW ∧
              (first = true ↔ refused_last x.ip before = false)) := by
  refine ⟨run_length es, fun hordered hcard => ?_⟩
  have hcalm : Calm es := ⟨hordered, hcard⟩
  refine ⟨windows hcalm, fun before x after first hlog hrefused => ?_⟩
  obtain ⟨es₁, e, es₂, rfl, rfl, rfl⟩ := run_prefix hlog
  -- the sequence up to this attempt
  have hfirst : Calm (es₁ ++ [e]) := by
    refine ⟨hordered.sublist ?_, le_trans (Finset.card_le_card fun a ha => ?_) hcard⟩
    · exact List.Sublist.append_left (by simp) es₁
    · rw [List.mem_toFinset, List.map_append] at ha ⊢
      rcases List.mem_append.1 ha with ha | ha
      · exact List.mem_append_left _ ha
      · exact List.mem_append_right _ (by simpa using .inl (by simpa using ha))
  obtain ⟨hcalm₁, hlast⟩ := hfirst.init
  have hdecision := check_decision hfirst
  dsimp only at hrefused ⊢
  rw [hrefused] at hdecision
  by_cases hfull : ATTEMPTS_PER_WINDOW ≤
      (counting e.2 (allowed e.1.to_canonical (run es₁).2)).length
  · rw [if_pos hfull] at hdecision
    refine ⟨Nat.le_antisymm (counting_length_le hcalm₁ _ _ hlast) hfull, ?_⟩
    rw [Decision.Refused.inj hdecision, Bool.not_eq_true']
  · rw [if_neg hfull] at hdecision
    cases hdecision

/-- Six attempts of one host in six seconds. -/
def six_attempts : List (IpAddr × Nat) :=
  (List.range 6).map fun i => (.V4 0xC0A80114#32, i * 1000)

theorem attempts_limited_six :
    (counting 5000 (allowed (.V4 0xC0A80114#32) ((run six_attempts).2.take 5))).length = 5 ∧
      refused_last (.V4 0xC0A80114#32) ((run six_attempts).2.take 5) = false := by
  obtain ⟨-, hlimits⟩ := attempts_limited six_attempts
  obtain ⟨-, hrefused⟩ := hlimits (by decide +kernel) (by decide +kernel)
  obtain ⟨hfive, hflag⟩ := hrefused ((run six_attempts).2.take 5)
    ⟨.V4 0xC0A80114#32, 5000, .Refused true⟩ [] true (by decide +kernel) rfl
  exact ⟨hfive, hflag.1 rfl⟩

end PairingLimiter

end SoundPush
