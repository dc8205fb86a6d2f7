/-
`Dialing` -- the candidate addresses of a device and the race over them
(`sp-engine/src/net.rs`).

The race itself is right whatever finishes first: the first success is returned,
and when there is none the error of the best candidate, which is the least index
since the list is ranked (`join_all_connected`, `join_all_failed`).

What it races over may hold an address twice. Repeats are dropped only where they
stand side by side after a sort by rank, so an address that is listed again after
another one of its rank takes two of the eight places; `dial_race` says exactly
when that happens.
-/
import SoundPush.Discovery.Candidates
import SoundPush.Engine.Actor

set_option autoImplicit false

namespace SoundPush

/-! ## 1. Candidates -/

/-- Candidates raced at most. -/
def MAX_CANDIDATES : Nat := 8

/-- Link-local IPv6 without a scope id can never complete a handshake. -/
def unusable_link_local : ScopedAddr → Bool
  | .V6 ip _ _ scope_id => is_unicast_link_local ip && scope_id = 0
  | .V4 _ _ => false

/-- What `sort_candidates` keeps. -/
def dialable (include_loopback : Bool) (a : ScopedAddr) : Bool :=
  a.port ≠ 0 && !unusable_link_local a && (include_loopback || !a.ip.is_loopback)

/-- What `sort_candidates` sorts by. -/
def dial_rank (a : ScopedAddr) : Nat := if a.ip.is_loopback then 254 else rank a

/-- Order dial candidates best-first. -/
def sort_candidates (addrs : List ScopedAddr) (include_loopback : Bool) : List ScopedAddr :=
  ((addrs.filter (dialable include_loopback)).sort_by_key dial_rank).dedup_adjacent

/-! ## 2. The race -/

/-- How a connection attempt ends. -/
inductive DialAttempt (T : Type) where
  | Connected (value : T)
  | Failed (error : EngineError)
  | Panicked

variable {T : Type}

/-- The attempts that are spawned, each with its index. -/
def dial_attempts (connect : Nat → ScopedAddr → DialAttempt T) (addrs : List ScopedAddr) :
    List (Nat × DialAttempt T) :=
  (addrs.take MAX_CANDIDATES).mapIdx fun i addr => (i, connect i addr)

/-- The loop over the attempts in the order in which they finish. -/
def join_all : List (Nat × DialAttempt T) → Option (Nat × EngineError) → Except EngineError T
  | [], best => .error ((best.map Prod.snd).getD .Unreachable)
  | (_, .Connected value) :: _, _ => .ok value
  | (i, .Failed e) :: rest, best =>
      if best.all (fun b => i < b.1) then join_all rest (some (i, e)) else join_all rest best
  | (_, .Panicked) :: rest, best => join_all rest best

/-- What the race returns when the attempts finish in the order of `joined`. -/
def race_candidates (joined : List (Nat × DialAttempt T)) : Except EngineError T :=
  join_all joined none

/-- A success if there is one, else the error of the first attempt that reported one. -/
structure Reports (attempts : List (Nat × DialAttempt T)) (result : Except EngineError T) :
    Prop where
  success : (∃ i value, (i, .Connected value) ∈ attempts) →
    ∃ i value, (i, .Connected value) ∈ attempts ∧ result = .ok value
  failure : (∀ i value, (i, .Connected value) ∉ attempts) →
    (∃ i e, (i, .Failed e) ∈ attempts ∧ result = .error e ∧
      ∀ j e', (j, .Failed e') ∈ attempts → i ≤ j) ∨
    (∀ i e, (i, .Failed e) ∉ attempts) ∧ result = .error .Unreachable

/-- A race over as many different addresses as there are, up to the limit, none of which is worse
than one left out, that reports what it should however the attempts end. -/
structure FairRace (addrs : List ScopedAddr) (include_loopback : Bool) : Prop where
  distinct : ((sort_candidates addrs include_loopback).take MAX_CANDIDATES).Nodup
  count : ((sort_candidates addrs include_loopback).take MAX_CANDIDATES).length =
    min MAX_CANDIDATES (addrs.filter (dialable include_loopback)).toFinset.card
  usable : ∀ a ∈ (sort_candidates addrs include_loopback).take MAX_CANDIDATES,
    a ∈ addrs.filter (dialable include_loopback)
  best : ∀ a ∈ (sort_candidates addrs include_loopback).take MAX_CANDIDATES,
    ∀ b ∈ addrs.filter (dialable include_loopback),
      b ∉ (sort_candidates addrs include_loopback).take MAX_CANDIDATES → dial_rank a ≤ dial_rank b
  reports : ∀ (T : Type) (connect : Nat → ScopedAddr → DialAttempt T)
    (joined : List (Nat × DialAttempt T)),
      joined.Perm (dial_attempts connect (sort_candidates addrs include_loopback)) →
        Reports (dial_attempts connect (sort_candidates addrs include_loopback))
          (race_candidates joined)

/-! ## 3. What the race returns -/

section Race

variable {joined : List (Nat × DialAttempt T)}

theorem join_all_connected (h : ∃ i value, (i, .Connected value) ∈ joined)
    (best : Option (Nat × EngineError)) :
    ∃ i value, (i, .Connected value) ∈ joined ∧ join_all joined best = .ok value := by
  induction joined generalizing best with
  | nil =>
      obtain ⟨i, value, hmem⟩ := h
      exact absurd hmem List.not_mem_nil
  | cons a rest ih =>
      obtain ⟨i, attempt⟩ := a
      by_cases hnow : ∃ value, attempt = .Connected value
      · obtain ⟨value, rfl⟩ := hnow
        exact ⟨i, value, List.mem_cons_self, rfl⟩
      · have hlater : ∃ j value, (j, .Connected value) ∈ rest := by
          obtain ⟨j, value, hmem⟩ := h
          obtain heq | hmem := List.mem_cons.1 hmem
          · obtain ⟨-, rfl⟩ := Prod.mk.inj heq
            exact absurd ⟨value, rfl⟩ hnow
          · exact ⟨j, value, hmem⟩
        have hskip : ∃ best', join_all ((i, attempt) :: rest) best = join_all rest best' := by
          cases attempt with
          | Connected value => exact absurd ⟨value, rfl⟩ hnow
          | Failed e =>
              by_cases hbetter : best.all (fun b => i < b.1) = true
              · exact ⟨some (i, e), if_pos hbetter⟩
              · exact ⟨best, if_neg hbetter⟩
          | Panicked => exact ⟨best, rfl⟩
        obtain ⟨best', hskip⟩ := hskip
        obtain ⟨j, value, hmem, hresult⟩ := ih hlater best'
        exact ⟨j, value, List.mem_cons_of_mem _ hmem, hskip.trans hresult⟩

/-- Without a success, the error of the least index is returned: the best one so far or one to
come. -/
theorem join_all_failed (h : ∀ i value, (i, .Connected value) ∉ joined)
    (best : Option (Nat × EngineError)) :
    (∃ i e, (best = some (i, e) ∨ (i, .Failed e) ∈ joined) ∧ join_all joined best = .error e ∧
      (∀ b, best = some b → i ≤ b.1) ∧ ∀ j e', (j, .Failed e') ∈ joined → i ≤ j) ∨
    best = none ∧ (∀ i e, (i, .Failed e) ∉ joined) ∧
      join_all joined best = .error .Unreachable := by
  induction joined generalizing best with
  | nil =>
      cases best with
      | none => exact .inr ⟨rfl, fun _ _ => List.not_mem_nil, rfl⟩
      | some b =>
          refine .inl ⟨b.1, b.2, .inl rfl, rfl, fun c hc => ?_, fun _ _ hmem =>
            absurd hmem List.not_mem_nil⟩
          rw [Option.some_inj.1 hc]
  | cons a rest ih =>
      obtain ⟨i, attempt⟩ := a
      have hrest : ∀ j value, (j, .Connected value) ∉ rest :=
        fun j value hmem => h j value (List.mem_cons_of_mem _ hmem)
      cases attempt with
      | Connected value => exact absurd List.mem_cons_self (h i value)
      -- A task that panicked neither wins nor is remembered.
      | Panicked =>
          simpa [join_all] using ih hrest best
      | Failed e =>
          left
          unfold join_all
          by_cases hbetter : best.all (fun b => i < b.1) = true
          · -- it takes the place of the best one so far
            rw [if_pos hbetter]
            have hless : ∀ b, best = some b → i ≤ b.1 := by
              rintro b rfl
              simpa using Nat.le_of_lt (by simpa using hbetter)
            obtain ⟨j, e', hj, hresult, hbest, hleast⟩ | ⟨hnone, -⟩ := ih hrest (some (i, e))
            · have hji : j ≤ i := hbest (i, e) rfl
              refine ⟨j, e', .inr ?_, hresult, fun b hb => hji.trans (hless b hb), ?_⟩
              · obtain hj | hj := hj
                · obtain ⟨rfl, rfl⟩ := Prod.mk.inj (Option.some_inj.1 hj)
                  exact List.mem_cons_self
                · exact List.mem_cons_of_mem _ hj
              · intro k e'' hk
                obtain heq | hk := List.mem_cons.1 hk
                · rw [(Prod.mk.inj heq).1]
                  exact hji
                · exact hleast k e'' hk
            · exact absurd hnone nofun
          · rw [if_neg hbetter]
            obtain ⟨b, rfl, hb⟩ : ∃ b, best = some b ∧ b.1 ≤ i := by
              cases best with
              | none => exact absurd rfl hbetter
              | some b => exact ⟨b, rfl, by simpa using hbetter⟩
            obtain ⟨j, e', hj, hresult, hbest, hleast⟩ | ⟨hnone, -⟩ := ih hrest (some b)
            · refine ⟨j, e', hj.imp id (List.mem_cons_of_mem _), hresult, hbest, ?_⟩
              intro k e'' hk
              obtain heq | hk := List.mem_cons.1 hk
              · rw [(Prod.mk.inj heq).1]
                exact (hbest b rfl).trans hb
              · exact hleast k e'' hk
            · exact absurd hnone nofun

theorem race_reports {attempts : List (Nat × DialAttempt T)} (hperm : joined.Perm attempts) :
    Reports attempts (race_candidates joined) where
  success := by
    rintro ⟨i, value, hmem⟩
    obtain ⟨j, value', hmem', hresult⟩ :=
      join_all_connected ⟨i, value, hperm.mem_iff.2 hmem⟩ none
    exact ⟨j, value', hperm.mem_iff.1 hmem', hresult⟩
  failure := by
    intro hnone
    have hfailed := join_all_failed (fun i value h => hnone i value (hperm.mem_iff.1 h)) none
    obtain ⟨i, e, he, hresult, -, hleast⟩ | ⟨-, hno, hresult⟩ := hfailed
    · left
      have hmem := he.resolve_left (fun h => nomatch h)
      exact ⟨i, e, hperm.mem_iff.1 hmem, hresult,
        fun j e' h => hleast j e' (hperm.mem_iff.2 h)⟩
    · right
      exact ⟨fun i e h => hno i e (hperm.mem_iff.2 h), hresult⟩

end Race

/-! ## 4. What is raced over -/

section Candidates

variable {addrs : List ScopedAddr} {include_loopback : Bool}

theorem mem_sort_candidates {a : ScopedAddr} :
    a ∈ sort_candidates addrs include_loopback ↔ a ∈ addrs.filter (dialable include_loopback) :=
  List.mem_sort_dedup

/-- Different addresses up to the limit are as many as there are. -/
theorem length_take_sort_candidates
    (h : ((sort_candidates addrs include_loopback).take MAX_CANDIDATES).Nodup) :
    ((sort_candidates addrs include_loopback).take MAX_CANDIDATES).length =
      min MAX_CANDIDATES (addrs.filter (dialable include_loopback)).toFinset.card := by
  have hsame : (sort_candidates addrs include_loopback).toFinset =
      (addrs.filter (dialable include_loopback)).toFinset := by
    ext a
    rw [List.mem_toFinset, List.mem_toFinset, mem_sort_candidates]
  rw [← hsame]
  have hle := List.toFinset_card_le (sort_candidates addrs include_loopback)
  by_cases hlen : MAX_CANDIDATES ≤ (sort_candidates addrs include_loopback).length
  · have hsub : ((sort_candidates addrs include_loopback).take MAX_CANDIDATES).toFinset ⊆
        (sort_candidates addrs include_loopback).toFinset := by
      intro a ha
      rw [List.mem_toFinset] at ha ⊢
      exact List.mem_of_mem_take ha
    have hcard := Finset.card_le_card hsub
    rw [List.toFinset_card_of_nodup h, List.length_take] at hcard
    rw [List.length_take]
    omega
  · rw [List.take_of_length_le (by omega)] at h ⊢
    rw [List.toFinset_card_of_nodup h]
    omega

/-- What is left out is not better than what is taken. -/
theorem ranked_take_sort_candidates {a b : ScopedAddr}
    (ha : a ∈ (sort_candidates addrs include_loopback).take MAX_CANDIDATES)
    (hb : b ∈ addrs.filter (dialable include_loopback))
    (hout : b ∉ (sort_candidates addrs include_loopback).take MAX_CANDIDATES) :
    dial_rank a ≤ dial_rank b := by
  have hsorted : (sort_candidates addrs include_loopback).Pairwise
      fun a b => dial_rank a ≤ dial_rank b := List.pairwise_sort_dedup _
  have hdropped : b ∈ (sort_candidates addrs include_loopback).drop MAX_CANDIDATES := by
    have hmem := mem_sort_candidates.2 hb
    rw [← List.take_append_drop MAX_CANDIDATES (sort_candidates addrs include_loopback),
      List.mem_append] at hmem
    exact hmem.resolve_left hout
  rw [← List.take_append_drop MAX_CANDIDATES (sort_candidates addrs include_loopback),
    List.pairwise_append] at hsorted
  exact hsorted.2.2 a ha b hdropped

end Candidates

/-- **The dial race.** It is fair if and only if no usable address is listed again after another
one of its rank, unless eight different ones come before it: those of better ranks, and those of
its own that were listed before. -/
theorem dial_race (addrs : List ScopedAddr) (include_loopback : Bool) :
    FairRace addrs include_loopback ↔
      ¬ (addrs.filter (dialable include_loopback)).ReturnsByKey dial_rank MAX_CANDIDATES := by
  have hdistinct : ((sort_candidates addrs include_loopback).take MAX_CANDIDATES).Nodup ↔
      ¬ (addrs.filter (dialable include_loopback)).ReturnsByKey dial_rank MAX_CANDIDATES :=
    List.nodup_take_sort_dedup
  constructor
  · exact fun h => hdistinct.1 h.distinct
  · intro hclear
    have hnodup := hdistinct.2 hclear
    exact
      { distinct := hnodup
        count := length_take_sort_candidates hnodup
        usable := fun a ha => mem_sort_candidates.1 (List.mem_of_mem_take ha)
        best := fun a ha b hb hout => ranked_take_sort_candidates ha hb hout
        reports := fun _ _ _ hperm => race_reports hperm }

namespace Sample

/-- Two addresses of one rank, one after the other. -/
def alternating : Nat → List ScopedAddr
  | 0 => []
  | n + 1 => .V4 0xC0A80109#32 47650 :: .V4 0xC0A80102#32 47650 :: alternating n

/-- What discovery found and what was saved list the same two addresses four times, and the good
one on another network is not dialled. -/
theorem alternating_unfair : ¬ FairRace (alternating 4 ++ [.V4 0x0A000004#32 47650]) false :=
  fun h => absurd h.distinct (by decide)

end Sample

end SoundPush
