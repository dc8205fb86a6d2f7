/-
`JitterOrder` -- the order in which the jitter buffer plays.

A frame that enters the buffer behind the playout position is late and dropped;
that is all there is to keep playout in order. After an underrun the position is
gone and nothing is late, so a copy of a frame that was played comes in again and
is played again. Frames come out in order, each once, as long as what comes in is
newer than what came out (`plays_in_order`).
-/
import SoundPush.Media.JitterLive

set_option autoImplicit false

namespace SoundPush.JitterBuffer

variable {α : Type*}

/-! ## 1. What comes out -/

/-- The timestamp that the next pop is about. -/
def next_ts (jb : JitterBuffer α) : Option Nat :=
  (if jb.buffering then jb.start_playout else jb).play_ts

/-- The timestamp of the frame that a call plays. -/
def plays [Zero α] (jb : JitterBuffer α) : Op α → Option Nat
  | .pop out => if (jb.pop out).1 = .Played then jb.next_ts else none
  | _ => none

/-- The timestamps of the frames that were played, in the order of playing. -/
def played [Zero α] (tr : List (JitterBuffer α × Op α)) : List Nat :=
  tr.filterMap fun p => p.1.plays p.2

/-- A push that is too late for the playout position. -/
def is_late (jb : JitterBuffer α) (ts : Nat) : Bool := jb.play_ts.any fun play => ts < play

/-- Audio that is taken in although it is not newer than what was played. -/
def takes_old (jb : JitterBuffer α) (before : List Nat) : Op α → Prop
  | .push ts samples _ => samples ≠ [] ∧ jb.is_late ts = false ∧ ∃ t ∈ before, ts ≤ t
  | _ => False

/-! ## 2. One call -/

section Counters

variable {jb : JitterBuffer α} {ts : Nat} {samples : Samples α} {arrival : Nat}

@[simp] theorem update_jitter_stats (jb : JitterBuffer α) (ts arrival : Nat) :
    (jb.update_jitter ts arrival).stats = jb.stats := by
  unfold update_jitter; split <;> (try split) <;> rfl

theorem jump_forward_stats (jb : JitterBuffer α) : jb.jump_forward.stats = jb.stats := by
  unfold jump_forward
  split
  · rfl
  · split <;> rfl

theorem store_frame_stats (jb : JitterBuffer α) (ts : Nat) (samples : Samples α) :
    (jb.store_frame ts samples).stats = { jb.stats with
      late := jb.stats.late + ((jb.frames.insert ts samples).len - MAX_FRAMES) } := rfl

/-- What a push makes of the counters. -/
theorem push_stats : (jb.push ts samples arrival).stats = { jb.stats with
    received := jb.stats.received + 1
    late := jb.stats.late + (if jb.is_late ts then 1
      else (jb.frames.insert ts samples).len - MAX_FRAMES) } := by
  unfold push is_late
  simp only [update_jitter_play_ts]
  by_cases hlate : (jb.play_ts.any fun play => decide (ts < play)) = true
  · rw [if_pos hlate, if_pos hlate, update_jitter_stats]
  · rw [if_neg hlate, if_neg hlate, jump_forward_stats, store_frame_stats, update_jitter_stats,
      update_jitter_frames]

end Counters

section Step

variable [Zero α] {jb : JitterBuffer α} {k : Nat} {x : Samples α}

/-- A pop at a position leaves frames that were there, and none before the position. -/
theorem get_pop_at {play : Nat} {out : List α}
    (h : (jb.pop_at play out).2.2.frames.get k = some x) :
    jb.frames.get k = some x ∧ play ≤ k := by
  have hsplit (h : (jb.frames.splitOff play).get k = some x) :
      jb.frames.get k = some x ∧ play ≤ k := by
    rw [OrdMap.get_splitOff] at h
    split at h
    · next hle => exact ⟨h, hle⟩
    · cases h
  -- Every branch works on the frames without the older ones.
  have hframes : (jb.drop_older play).frames = jb.frames.splitOff play := rfl
  unfold pop_at at h
  dsimp only at h
  split at h
  · next frame hframe =>
      refine hsplit ?_
      unfold play_frame at h
      dsimp only at h
      split at h
      · rw [play_silence, OrdMap.get_erase, hframes] at h
        split at h
        · cases h
        · exact h
      · rw [OrdMap.get_erase, hframes] at h
        split at h
        · cases h
        · exact h
  · refine hsplit ?_
    split at h
    · exact h
    · unfold play_missing at h
      dsimp only at h
      split at h
      · exact h
      · split at h
        · exact h
        · exact h

/-- What is played is the frame at the position, and it is gone afterwards. -/
theorem pop_at_played {play : Nat} {out : List α} (h : (jb.pop_at play out).1 = .Played) :
    (∃ x, jb.frames.get play = some x ∧ x ≠ []) ∧
      (jb.pop_at play out).2.2.frames.get play = none := by
  cases hget : jb.frames.get play with
  | none =>
      unfold pop_at at h
      have hnone : (jb.drop_older play).frames.get play = none := by
        rw [show (jb.drop_older play).frames = jb.frames.splitOff play from rfl,
          OrdMap.get_splitOff, if_pos (le_refl play)]
        exact hget
      dsimp only at h
      rw [hnone] at h
      dsimp only at h
      split at h
      · cases h
      · unfold play_missing at h
        dsimp only at h
        split at h
        · cases h
        · split at h <;> cases h
  | some x =>
      by_cases hx : x = []
      · rw [hx] at hget
        obtain ⟨_, he⟩ := pop_at_marker out hget
        rw [he] at h
        cases h
      · obtain ⟨_, he⟩ := pop_at_audio out hget hx
        rw [he, OrdMap.get_erase, if_pos rfl]
        exact ⟨⟨x, rfl, hx⟩, rfl⟩

/-- A pop waits, or is a pop at the next timestamp. -/
theorem pop_eq (jb : JitterBuffer α) (out : List α) :
    ((jb.pop out).1 = .Buffering ∧ (jb.pop out).2.2.frames = jb.frames) ∨
      ∃ (jb' : JitterBuffer α) (play : Nat), jb.next_ts = some play ∧ jb'.frames = jb.frames ∧
        jb.pop out = jb'.pop_at play out := by
  unfold pop next_ts
  split
  · exact .inl ⟨rfl, rfl⟩
  · have hframes : (if jb.buffering then jb.start_playout else jb).frames = jb.frames := by
      split <;> rfl
    dsimp only
    generalize (if jb.buffering then jb.start_playout else jb) = jb' at hframes ⊢
    split
    · exact .inl ⟨rfl, hframes⟩
    · next play hplay => exact .inr ⟨jb', play, hplay, hframes, rfl⟩

theorem get_pop {out : List α} (h : (jb.pop out).2.2.frames.get k = some x) :
    jb.frames.get k = some x := by
  rcases jb.pop_eq out with ⟨_, he⟩ | ⟨jb', play, _, hframes, he⟩
  · rwa [he] at h
  · rw [he] at h
    exact hframes ▸ (get_pop_at h).1

/-- The frame that a pop plays is in the buffer before, and all that is left is newer. -/
theorem pop_played {out : List α} (h : (jb.pop out).1 = .Played) :
    ∃ ts x, jb.next_ts = some ts ∧ jb.frames.get ts = some x ∧ x ≠ [] ∧
      ∀ k y, (jb.pop out).2.2.frames.get k = some y → ts < k := by
  rcases jb.pop_eq out with ⟨hwait, _⟩ | ⟨jb', play, hplay, hframes, he⟩
  · rw [hwait] at h
    cases h
  · rw [he] at h ⊢
    obtain ⟨⟨x, hx, hne⟩, hgone⟩ := pop_at_played h
    refine ⟨play, x, hplay, hframes ▸ hx, hne, fun k y hk => ?_⟩
    refine lt_of_le_of_ne (get_pop_at hk).2 ?_
    rintro rfl
    rw [hgone] at hk
    cases hk

omit [Zero α] in
theorem get_jump_forward (h : jb.jump_forward.frames.get k = some x) :
    jb.frames.get k = some x := by
  unfold jump_forward at h
  split at h
  · exact h
  · split at h
    · dsimp only at h
      rw [OrdMap.get_splitOff] at h
      split at h
      · exact h
      · cases h
    · exact h

omit [Zero α] in
/-- A push adds its frame, unless it is late. -/
theorem get_push {ts arrival : Nat} {samples : Samples α}
    (h : (jb.push ts samples arrival).frames.get k = some x) :
    jb.frames.get k = some x ∨ (k = ts ∧ x = samples ∧ jb.is_late ts = false) := by
  unfold push at h
  dsimp only at h
  have hplay : (update_jitter { jb with
      stats := { jb.stats with received := jb.stats.received + 1 } } ts arrival).play_ts =
        jb.play_ts :=
    update_jitter_play_ts _ _ _
  have hframes : (update_jitter { jb with
      stats := { jb.stats with received := jb.stats.received + 1 } } ts arrival).frames =
        jb.frames :=
    update_jitter_frames _ _ _
  rw [hplay] at h
  generalize update_jitter { jb with
      stats := { jb.stats with received := jb.stats.received + 1 } } ts arrival = jb' at hframes h
  cases hlate : jb.is_late ts with
  | true =>
      unfold is_late at hlate
      rw [if_pos hlate] at h
      exact .inl (hframes ▸ h)
  | false =>
      unfold is_late at hlate
      rw [if_neg (Bool.not_eq_true _ ▸ hlate)] at h
      have h := get_jump_forward h
      have hmem : k ∈ jb'.frames_with ts samples := OrdMap.mem_iff_get.2 ⟨x, h⟩
      have h : (jb'.frames_with ts samples).get k = some x := h
      rw [get_frames_with jb' ts samples hmem] at h
      split at h
      · next hk => exact .inr ⟨hk, (Option.some_inj.1 h).symm, rfl⟩
      · exact .inl (hframes ▸ h)

end Step

/-! ## 3. Runs -/

/-- What was played came out in order, and the audio that is buffered is newer. -/
structure InOrder (before : List Nat) (jb : JitterBuffer α) : Prop where
  increasing : before.Pairwise (· < ·)
  newer : ∀ k x, jb.frames.get k = some x → x ≠ [] → ∀ t ∈ before, t < k

section Runs

variable [Zero α] {jb : JitterBuffer α} {before : List Nat}

omit [Zero α] in
theorem InOrder.push (h : InOrder before jb) {ts : Nat} {samples : Samples α} (arrival : Nat)
    (hold : samples ≠ [] → jb.is_late ts = false → ∀ t ∈ before, t < ts) :
    InOrder before (jb.push ts samples arrival) := by
  refine ⟨h.increasing, fun k x hk hx t ht => ?_⟩
  rcases get_push hk with hk | ⟨rfl, rfl, hlate⟩
  · exact h.newer k x hk hx t ht
  · exact hold hx hlate t ht

theorem InOrder.pop (h : InOrder before jb) (out : List α) :
    InOrder (before ++ (jb.plays (.pop out)).toList) (jb.pop out).2.2 := by
  unfold plays
  dsimp only
  by_cases hplayed : (jb.pop out).1 = .Played
  · obtain ⟨ts, x, hts, hx, hne, hrest⟩ := pop_played hplayed
    rw [if_pos hplayed, hts, Option.toList_some]
    have hbefore : ∀ t ∈ before, t < ts := h.newer ts x hx hne
    refine ⟨?_, fun k y hk hy t ht => ?_⟩
    · rw [List.pairwise_append]
      refine ⟨h.increasing, List.pairwise_singleton _ _, ?_⟩
      intro t ht t' ht'
      rw [List.mem_singleton.1 ht']
      exact hbefore t ht
    · rcases List.mem_append.1 ht with ht | ht
      · exact h.newer k y (get_pop hk) hy t ht
      · rw [List.mem_singleton.1 ht]
        exact hrest k y hk
  · rw [if_neg hplayed, Option.toList_none, List.append_nil]
    exact ⟨h.increasing, fun k x hk => h.newer k x (get_pop hk)⟩

/-- A call that takes nothing old in keeps the order. -/
theorem InOrder.apply (h : InOrder before jb) {op : Op α} (hreset : op ≠ .reset)
    (hold : ¬ jb.takes_old before op) :
    InOrder (before ++ (jb.plays op).toList) (jb.apply op) := by
  cases op with
  | pop out => exact h.pop out
  | push ts samples arrival =>
      rw [show jb.plays (.push ts samples arrival) = none from rfl, Option.toList_none,
        List.append_nil]
      refine h.push arrival fun hne hlate t ht => ?_
      by_contra hle
      exact hold ⟨hne, hlate, t, ht, by omega⟩
  | push_silence ts arrival =>
      rw [show jb.plays (.push_silence ts arrival) = none from rfl, Option.toList_none,
        List.append_nil]
      exact h.push arrival fun hne => absurd rfl hne
  | adapt =>
      rw [show jb.plays .adapt = none from rfl, Option.toList_none, List.append_nil]
      have hframes : jb.adapt.frames = jb.frames := by
        unfold adapt
        dsimp only
        split <;> rfl
      refine ⟨h.increasing, fun k x hk => h.newer k x ?_⟩
      rw [← hframes]
      exact hk
  | set_bounds a b =>
      rw [show jb.plays (.set_bounds a b) = none from rfl, Option.toList_none, List.append_nil]
      exact ⟨h.increasing, h.newer⟩
  | reset => exact absurd rfl hreset

theorem played_append (tr tr' : List (JitterBuffer α × Op α)) :
    played (tr ++ tr') = played tr ++ played tr' := List.filterMap_append

theorem played_singleton (op : Op α) : played [(jb, op)] = (jb.plays op).toList := by
  unfold played
  rw [List.filterMap_cons]
  cases jb.plays op <;> rfl

/-- **Frames come out in order, each once, when what comes in is newer than what came out.** In
every stretch of a run without a reset, if no push takes audio in that is not newer than what the
stretch has played, the timestamps played increase. -/
theorem plays_in_order {cfg : JitterConfig} {tr₀ tr : List (JitterBuffer α × Op α)}
    {jb : JitterBuffer α} (hr : (machine α cfg).Run (tr₀ ++ tr) jb)
    (hreset : ∀ p ∈ tr, p.2 ≠ .reset)
    (hold : ∀ tr₁ p tr₂, tr = tr₁ ++ p :: tr₂ → ¬ p.1.takes_old (played tr₁) p.2) :
    (played tr).Pairwise (· < ·) := by
  have hinv : InOrder (played tr) jb := by
    generalize htr : tr₀ ++ tr = all at hr
    induction hr generalizing tr with
    | start _ =>
        rw [(List.append_eq_nil_iff.1 htr).2]
        exact ⟨List.Pairwise.nil, fun _ _ _ _ t ht => absurd ht List.not_mem_nil⟩
    | @next all jb op hrun _ ih =>
        rcases List.eq_nil_or_concat tr with rfl | ⟨l, q, rfl⟩
        · exact ⟨List.Pairwise.nil, fun _ _ _ _ t ht => absurd ht List.not_mem_nil⟩
        · rw [List.concat_eq_append] at htr hreset hold ⊢
          rw [← List.append_assoc] at htr
          obtain ⟨rfl, hq⟩ := List.append_inj' htr rfl
          obtain rfl := List.singleton_inj.1 hq
          have hbefore : InOrder (played l) jb := by
            refine ih (fun p hp => hreset p (List.mem_append_left _ hp)) (fun tr₁ p tr₂ h => ?_) rfl
            refine hold tr₁ p (tr₂ ++ [(jb, op)]) ?_
            rw [h, List.append_assoc, List.cons_append]
          rw [played_append, played_singleton]
          exact hbefore.apply
            (hreset (jb, op) (List.mem_append_right _ (List.mem_singleton_self _)))
            (hold l (jb, op) [] rfl)
  exact hinv.increasing

end Runs

/-! ## 4. Two runs -/

/-- Two frames are played, then the buffer runs dry. -/
def runs_dry : List (Op Nat) :=
  [.push 0 full_frame 0, .push 480 full_frame 0, .pop [], .pop [],
    .pop [], .pop [], .pop [], .pop [], .pop [], .pop []]

/-- A second copy of the first frame arrives before the stream goes on. -/
def late_copy : List (Op Nat) :=
  [.push 0 full_frame 0, .push 960 full_frame 0, .push 1440 full_frame 0, .pop []]

/-- The first frame is played again. -/
theorem plays_again_after_underrun :
    let tr := (machine Nat balanced_mono).trace (new balanced_mono) (runs_dry ++ late_copy)
    (∃ jb, (machine Nat balanced_mono).Run tr jb) ∧ (∀ p ∈ tr, p.2 ≠ .reset) ∧
      played tr = [0, 480, 0] ∧ ¬ (played tr).Pairwise (· < ·) := by
  have hplayed : played ((machine Nat balanced_mono).trace (new balanced_mono)
      (runs_dry ++ late_copy)) = [0, 480, 0] := by decide +kernel
  refine ⟨⟨_, calls_run balanced_mono (runs_dry ++ late_copy) ?_⟩, ?_, hplayed, ?_⟩
  · simp only [
      runs_dry, late_copy, List.cons_append, List.nil_append, List.forall_mem_cons, Op.Typed,
      U64_MAX]
    simp
  · simp [runs_dry, late_copy, Machine.trace]
  · rw [hplayed]
    decide

/-- After the first frame has been played, a copy of it comes and the stream goes on. -/
def fresh_calls : List (Op Nat) :=
  [.push 0 full_frame 0, .push 480 full_frame 480, .pop [], .push 0 full_frame 960,
    .push 960 full_frame 960, .pop [], .pop []]

theorem fresh_calls_typed : ∀ op ∈ fresh_calls, op.Typed := by
  simp only [fresh_calls, List.forall_mem_cons, Op.Typed, U64_MAX]
  simp

/-- The copy is late, and what comes in is newer than what was played. -/
theorem plays_in_order_fresh :
    let tr := (machine Nat balanced_mono).trace (new balanced_mono) fresh_calls
    played tr = [0, 480, 960] ∧ (played tr).Pairwise (· < ·) := by
  refine ⟨by decide +kernel, ?_⟩
  have hrun : (machine Nat balanced_mono).Run
      ([] ++ (machine Nat balanced_mono).trace (new balanced_mono) fresh_calls) _ :=
    calls_run balanced_mono fresh_calls fresh_calls_typed
  refine plays_in_order hrun (by simp [fresh_calls, Machine.trace]) ?_
  simp only [fresh_calls, Machine.trace, Machine.forall_split_cons, Machine.forall_split_nil,
    takes_old]
  decide +kernel

end SoundPush.JitterBuffer
