/-
`JitterLedger` -- where the frames that were pushed end up.

Beside the calls a ledger notes the frames that leave the buffer, each with its
fate. Over a run without reset the frames taken in are the frames buffered and
the frames noted, each once (`frames_accounted`), and the buffer's counters are
counts of the ledger. A jump of playout cuts frames that no counter sees, so the
ledger has no fate for them and the runs here are those without one.
-/
import SoundPush.Media.JitterOrder

set_option autoImplicit false

namespace SoundPush.JitterBuffer

variable {α : Type*}

/-! ## 1. The ledger -/

/-- What becomes of a frame that was pushed. -/
inductive Fate where
  | Played
  /-- a DTX marker that started silence -/
  | Silence
  /-- another frame of the same timestamp took its place -/
  | Replaced
  /-- counted as late, when it came or when room or time ran out for it -/
  | Late
  /-- a DTX marker that playout had passed -/
  | Passed
  deriving DecidableEq

/-- The frame that a call takes in. -/
def Op.frame : Op α → List (Nat × Samples α)
  | .push ts samples _ => [(ts, samples)]
  | .push_silence ts _ => [(ts, [])]
  | _ => []

/-- A late frame is turned away; any other replaces what has its timestamp, and what is over the
cap goes. -/
def push_exits (jb : JitterBuffer α) (ts : Nat) (samples : Samples α) :
    List (Fate × Nat × Samples α) :=
  if jb.is_late ts then [(.Late, ts, samples)]
  else (jb.frames.at_key ts).map (Prod.mk .Replaced) ++
    ((jb.frames.insert ts samples).entries.take
      ((jb.frames.insert ts samples).len - MAX_FRAMES)).map (Prod.mk .Late)

/-- What is older than the position goes, and so does the frame at the position. -/
def pop_at_exits (jb : JitterBuffer α) (play : Nat) : List (Fate × Nat × Samples α) :=
  (jb.frames.entries.filter fun e => decide (e.1 < play)).map
      (fun e => (if e.2.isEmpty then .Passed else .Late, e)) ++
    (jb.frames.at_key play).map (fun e => (if e.2.isEmpty then .Silence else .Played, e))

/-- The position of a pop that does not wait. -/
def plays_at (jb : JitterBuffer α) : Option Nat :=
  if jb.buffering && (jb.buffered_samples < jb.target_samples || jb.frames.isEmpty) then none
  else jb.next_ts

/-- The frames that leave the buffer in a call. -/
def exits (jb : JitterBuffer α) : Op α → List (Fate × Nat × Samples α)
  | .push ts samples _ => jb.push_exits ts samples
  | .push_silence ts _ => jb.push_exits ts []
  | .pop _ => jb.plays_at.elim [] jb.pop_at_exits
  | _ => []

/-- The frames that were pushed. -/
def taken (tr : List (JitterBuffer α × Op α)) : List (Nat × Samples α) :=
  tr.flatMap fun p => p.2.frame

def ledger (tr : List (JitterBuffer α × Op α)) : List (Fate × Nat × Samples α) :=
  tr.flatMap fun p => p.1.exits p.2

/-- A jump of playout that leaves frames behind. -/
def cuts (jb : JitterBuffer α) (ts : Nat) (samples : Samples α) : Prop :=
  jb.overruns ts samples ∧ ∃ k ∈ jb.frames_with ts samples, k < jb.jump_to ts samples

/-- The call neither clears the buffer nor cuts frames away. -/
def keeps_frames (jb : JitterBuffer α) : Op α → Prop
  | .push ts samples _ => ¬ jb.cuts ts samples
  | .push_silence ts _ => ¬ jb.cuts ts []
  | .reset => False
  | _ => True

/-- How many frames met the fate. -/
def count (fate : Fate) (l : List (Fate × Nat × Samples α)) : Nat := l.countP (·.1 = fate)

theorem count_append (fate : Fate) (l l' : List (Fate × Nat × Samples α)) :
    count fate (l ++ l') = count fate l + count fate l' := List.countP_append

theorem count_same (fate : Fate) (l : List (Nat × Samples α)) :
    count fate (l.map (Prod.mk fate)) = l.length := by
  unfold count
  rw [List.countP_map, List.countP_eq_length.2]
  intro e _
  exact decide_eq_true rfl

theorem count_other {fate other : Fate} (h : other ≠ fate) (l : List (Nat × Samples α)) :
    count fate (l.map (Prod.mk other)) = 0 := by
  unfold count
  rw [List.countP_map, List.countP_eq_zero]
  intro e _ hf
  exact h (of_decide_eq_true hf)

/-! ## 2. A push -/

section Push

variable {jb : JitterBuffer α} {ts : Nat} {samples : Samples α} {arrival : Nat}

/-- Without a cut, the frame and the frames before are the frames afterwards and what leaves. -/
theorem push_ledger (hkeep : ¬ jb.cuts ts samples) :
    ((ts, samples) :: jb.frames.entries).Perm
      ((jb.push ts samples arrival).frames.entries ++ (jb.push_exits ts samples).map Prod.snd) := by
  -- What the frame replaces at its timestamp, and what the cap drops from the front, leave; the
  -- rest is stored.
  have hstore : ((ts, samples) :: jb.frames.entries).Perm ((jb.frames_with ts samples).entries ++
      ((jb.frames.at_key ts) ++ ((jb.frames.insert ts samples).entries.take
        ((jb.frames.insert ts samples).len - MAX_FRAMES)))) := by
    have hcap := (jb.frames.insert ts samples).dropFirst_perm
      ((jb.frames.insert ts samples).len - MAX_FRAMES)
    refine (jb.frames.insert_perm ts samples).trans ((hcap.append_right _).trans ?_)
    rw [List.append_assoc]
    exact List.perm_append_comm.append_left _
  have hsnd (fate : Fate) (l : List (Nat × Samples α)) :
      (l.map (Prod.mk fate)).map Prod.snd = l := by
    rw [List.map_map]
    exact List.map_id _
  have hexits (hlate : jb.is_late ts = false) : (jb.push_exits ts samples).map Prod.snd =
      jb.frames.at_key ts ++ (jb.frames.insert ts samples).entries.take
        ((jb.frames.insert ts samples).len - MAX_FRAMES) := by
    unfold push_exits
    rw [if_neg (Bool.eq_false_iff.1 hlate), List.map_append, hsnd, hsnd]
  have hontime (hle : ∀ play, jb.play_ts = some play → play ≤ ts) : jb.is_late ts = false := by
    unfold is_late
    rw [Option.any_eq_false]
    exact fun play hplay => decide_eq_false (Nat.not_lt.2 (hle play hplay))
  rcases push_cases jb ts samples arrival with ⟨⟨play, hplay, hlt⟩, hf, -⟩ | ⟨hle, -, hf, -⟩ |
    ⟨hover, hf, -⟩
  · have hlate : jb.is_late ts = true := by
      unfold is_late
      rw [hplay]
      exact decide_eq_true hlt
    unfold push_exits
    rw [if_pos hlate, hf]
    exact @List.perm_append_comm _ [(ts, samples)] _
  · rw [hf, hexits (hontime hle)]
    exact hstore
  · -- a jump that cuts nothing leaves all frames
    have hall := OrdMap.splitOff_entries fun k hk =>
      Nat.le_of_not_lt fun hlt => hkeep ⟨hover, k, hk, hlt⟩
    obtain ⟨play, hplay, hle, -⟩ := hover
    rw [hf, hall, hexits (hontime fun q hq => by rwa [← Option.some.inj (hplay.symm.trans hq)])]
    exact hstore

/-- The counter of late frames counts them. -/
theorem push_late_count : (jb.push ts samples arrival).stats.late =
    jb.stats.late + count .Late (jb.push_exits ts samples) := by
  rw [push_stats]
  dsimp only
  unfold push_exits
  by_cases hlate : jb.is_late ts = true
  · rw [if_pos hlate, if_pos hlate]
    rfl
  · rw [if_neg hlate, if_neg hlate, count_append, count_other (by decide), count_same,
      List.length_take]
    unfold OrdMap.len
    omega

theorem push_played_count : count .Played (jb.push_exits ts samples) = 0 := by
  unfold push_exits
  split
  · rfl
  · rw [count_append, count_other (by decide), count_other (by decide)]

end Push

/-! ## 3. A pop -/

theorem older_late_count (l : List (Nat × Samples α)) :
    count .Late (l.map fun e => (if e.2.isEmpty then .Passed else .Late, e)) =
      l.countP fun e => !e.2.isEmpty := by
  unfold count
  rw [List.countP_map]
  refine List.countP_congr fun e _ => ?_
  change decide ((if e.2.isEmpty then Fate.Passed else .Late) = .Late) = true ↔ _
  cases e.2.isEmpty with
  | true => decide
  | false => decide

section Pop

variable [Zero α] {jb : JitterBuffer α} {play : Nat} {out : List α}

/-- A missing frame takes nothing out of the buffer. -/
theorem play_missing_keeps (jb : JitterBuffer α) (play : Nat) (out : List α) :
    (jb.play_missing play out).2.2.frames = jb.frames ∧
    (jb.play_missing play out).1 ≠ .Played ∧
    (jb.play_missing play out).2.2.stats.received = jb.stats.received ∧
    (jb.play_missing play out).2.2.stats.late = jb.stats.late ∧
    (jb.play_missing play out).2.2.stats.played = jb.stats.played := by
  unfold play_missing
  dsimp only
  split
  · exact ⟨rfl, nofun, rfl, rfl, rfl⟩
  · split
    · exact ⟨rfl, nofun, rfl, rfl, rfl⟩
    · exact ⟨rfl, nofun, rfl, rfl, rfl⟩

/-- A pop at a position: where the frames go, and what it makes of the counters. -/
theorem pop_at_ledger (jb : JitterBuffer α) (play : Nat) (out : List α) :
    jb.frames.entries.Perm ((jb.pop_at play out).2.2.frames.entries ++
        (jb.pop_at_exits play).map Prod.snd) ∧
      (jb.pop_at play out).2.2.stats.received = jb.stats.received ∧
      (jb.pop_at play out).2.2.stats.late =
        jb.stats.late + count .Late (jb.pop_at_exits play) ∧
      (jb.pop_at play out).2.2.stats.played =
        jb.stats.played + count .Played (jb.pop_at_exits play) := by
  have hget : (jb.frames.splitOff play).get play = jb.frames.get play := by
    rw [OrdMap.get_splitOff, if_pos (le_refl play)]
  have holder := jb.frames.splitOff_perm play
  have hsnd (f : Nat × Samples α → Fate) (l : List (Nat × Samples α)) :
      (l.map fun e => (f e, e)).map Prod.snd = l := by
    rw [List.map_map]
    exact List.map_id _
  -- nothing passed at the position is counted as played, and nothing played there as late
  have hpassed : count .Played ((jb.frames.entries.filter fun e => decide (e.1 < play)).map
      fun e => (if e.2.isEmpty then Fate.Passed else .Late, e)) = 0 := by
    unfold count
    rw [List.countP_map, List.countP_eq_zero]
    intro e _ h
    have h := of_decide_eq_true h
    dsimp only at h
    split at h <;> cases h
  unfold pop_at_exits
  rw [List.map_append, hsnd, hsnd, count_append, count_append, older_late_count, hpassed]
  unfold pop_at drop_older OrdMap.at_key
  dsimp only
  rw [hget]
  cases hframe : jb.frames.get play with
  | none =>
      dsimp only
      rw [Option.toList_none, List.map_nil, List.append_nil]
      split
      · exact ⟨holder, rfl, rfl, rfl⟩
      · obtain ⟨hf, -, hr, hl, hp⟩ := play_missing_keeps (jb.drop_older play) play out
        exact ⟨hf ▸ holder, hr, hl, hp⟩
  | some frame =>
      have hat : (jb.frames.splitOff play).at_key play = [(play, frame)] := by
        unfold OrdMap.at_key
        rw [hget, hframe]
        rfl
      have herase := (jb.frames.splitOff play).erase_perm play
      rw [hat] at herase
      have hperm : jb.frames.entries.Perm (((jb.frames.splitOff play).erase play).entries ++
          (jb.frames.entries.filter (fun e => decide (e.1 < play)) ++ [(play, frame)])) := by
        refine holder.trans ((herase.append_right _).trans ?_)
        rw [List.append_assoc]
        exact List.perm_append_comm.append_left _
      rw [Option.toList_some, List.map_singleton, List.map_singleton]
      unfold play_frame
      dsimp only
      by_cases hmarker : frame.isEmpty = true
      · rw [if_pos hmarker, if_pos hmarker]
        exact ⟨hperm, rfl, rfl, rfl⟩
      · rw [if_neg hmarker, if_neg hmarker]
        exact ⟨hperm, rfl, rfl, rfl⟩

theorem pop_ledger (jb : JitterBuffer α) (out : List α) :
    jb.frames.entries.Perm ((jb.pop out).2.2.frames.entries ++
        (jb.exits (.pop out)).map Prod.snd) ∧
      (jb.pop out).2.2.stats.received = jb.stats.received ∧
      (jb.pop out).2.2.stats.late = jb.stats.late + count .Late (jb.exits (.pop out)) ∧
      (jb.pop out).2.2.stats.played = jb.stats.played + count .Played (jb.exits (.pop out)) := by
  have hwait : jb.frames.entries.Perm (jb.frames.entries ++
      (([] : List (Fate × Nat × Samples α))).map Prod.snd) := by
    rw [List.map_nil, List.append_nil]
  unfold exits pop plays_at
  dsimp only
  split
  · exact ⟨hwait, rfl, rfl, rfl⟩
  · unfold next_ts
    have hframes : (if jb.buffering then jb.start_playout else jb).frames = jb.frames := by
      split <;> rfl
    have hstats : (if jb.buffering then jb.start_playout else jb).stats = jb.stats := by
      split <;> rfl
    generalize (if jb.buffering then jb.start_playout else jb) = jb' at hframes hstats ⊢
    cases jb'.play_ts with
    | none =>
        dsimp only
        rw [hframes, hstats]
        exact ⟨hwait, rfl, rfl, rfl⟩
    | some play =>
        have hexits : jb.pop_at_exits play = jb'.pop_at_exits play := by
          unfold pop_at_exits
          rw [hframes]
        dsimp only [Option.elim]
        rw [← hframes, ← hstats, hexits]
        exact pop_at_ledger jb' play out

end Pop

/-! ## 4. The fates -/

section Fates

variable [Zero α] {jb : JitterBuffer α} {op : Op α}

/-- What it means that a frame met its fate in a call. -/
def Fate.Met (jb : JitterBuffer α) (op : Op α) : Fate → Nat × Samples α → Prop
  | .Played, (_, x) => ∃ out, op = .pop out ∧ (jb.pop out).1 = .Played ∧
      (jb.pop out).2.1 = x.take out.length ++ List.replicate (out.length - x.length) 0
  | .Silence, (_, x) => x = [] ∧ ∃ out, op = .pop out ∧ (jb.pop out).1 = .Silence
  | .Replaced, (k, _) => ∃ x, op.frame = [(k, x)]
  | .Late, (k, x) => (op.frame = [(k, x)] ∧ jb.is_late k = true) ∨
      (op.frame ≠ [] ∧ MAX_FRAMES ≤ jb.frames.len) ∨
      (x ≠ [] ∧ ∃ out play, op = .pop out ∧ jb.next_ts = some play ∧ k < play)
  | .Passed, (k, x) => x = [] ∧ ∃ out play, op = .pop out ∧ jb.next_ts = some play ∧ k < play

theorem push_exits_met {ts : Nat} {samples : Samples α} (hop : op.frame = [(ts, samples)])
    {fate : Fate} {e : Nat × Samples α} (h : (fate, e) ∈ jb.push_exits ts samples) :
    fate.Met jb op e := by
  unfold push_exits at h
  split at h
  · next hlate =>
      cases List.mem_singleton.1 h
      exact .inl ⟨hop, hlate⟩
  · rcases List.mem_append.1 h with h | h
    · obtain ⟨e', he, heq⟩ := List.mem_map.1 h
      cases heq
      unfold OrdMap.at_key at he
      obtain ⟨v, -, rfl⟩ := List.mem_map.1 he
      exact ⟨samples, hop⟩
    · obtain ⟨e', he, heq⟩ := List.mem_map.1 h
      cases heq
      refine .inr (.inl ⟨by rw [hop]; exact List.cons_ne_nil _ _, ?_⟩)
      -- something is over the cap only when the buffer was full
      have hpos : 0 < (jb.frames.insert ts samples).len - MAX_FRAMES := by
        by_contra hzero
        rw [Nat.eq_zero_of_not_pos hzero, List.take_zero] at he
        exact List.not_mem_nil he
      have hlen := (jb.frames.insert_perm ts samples).length_eq
      rw [List.length_append, List.length_cons] at hlen
      unfold OrdMap.len at hpos ⊢
      omega

theorem pop_at_exits_met {jb' : JitterBuffer α} {play : Nat} {out : List α}
    (hframes : jb'.frames = jb.frames) (hplay : jb.next_ts = some play)
    (hpop : jb.pop out = jb'.pop_at play out) {fate : Fate} {e : Nat × Samples α}
    (h : (fate, e) ∈ jb.pop_at_exits play) : fate.Met jb (.pop out) e := by
  unfold pop_at_exits at h
  rcases List.mem_append.1 h with h | h
  · obtain ⟨⟨k, x⟩, he, heq⟩ := List.mem_map.1 h
    have hlt : k < play := of_decide_eq_true (List.mem_filter.1 he).2
    by_cases hx : x = []
    · rw [hx] at heq
      cases heq
      exact ⟨rfl, out, play, rfl, hplay, hlt⟩
    · dsimp only at heq
      rw [if_neg (by rwa [List.isEmpty_iff])] at heq
      cases heq
      exact .inr (.inr ⟨hx, out, play, rfl, hplay, hlt⟩)
  · obtain ⟨e', he, heq⟩ := List.mem_map.1 h
    unfold OrdMap.at_key at he
    obtain ⟨x, hx, rfl⟩ := List.mem_map.1 he
    have hget : jb'.frames.get play = some x := by
      rw [hframes]
      exact Option.mem_toList.1 hx
    by_cases hnil : x = []
    · rw [hnil] at heq hget
      cases heq
      obtain ⟨_, hat⟩ := pop_at_marker out hget
      exact ⟨rfl, out, rfl, by rw [hpop, hat]⟩
    · dsimp only at heq
      rw [if_neg (by rwa [List.isEmpty_iff])] at heq
      cases heq
      obtain ⟨_, hat⟩ := pop_at_audio out hget hnil
      exact ⟨out, rfl, by rw [hpop, hat], by rw [hpop, hat]⟩

theorem exits_met {fate : Fate} {e : Nat × Samples α} (h : (fate, e) ∈ jb.exits op) :
    fate.Met jb op e := by
  cases op with
  | push ts samples arrival => exact push_exits_met rfl h
  | push_silence ts arrival => exact push_exits_met rfl h
  | pop out =>
      unfold exits plays_at at h
      dsimp only at h
      split at h
      · exact absurd h List.not_mem_nil
      · next hgo =>
          cases hplay : jb.next_ts with
          | none =>
              rw [hplay] at h
              exact absurd h List.not_mem_nil
          | some play =>
              rw [hplay] at h
              have hpop : jb.pop out =
                  (if jb.buffering then jb.start_playout else jb).pop_at play out := by
                unfold next_ts at hplay
                unfold pop
                rw [if_neg hgo]
                dsimp only
                rw [hplay]
              refine pop_at_exits_met ?_ hplay hpop h
              split <;> rfl
  | adapt => exact absurd h List.not_mem_nil
  | set_bounds a b => exact absurd h List.not_mem_nil
  | reset => exact absurd h List.not_mem_nil

end Fates

/-! ## 5. Runs -/

section Runs

variable [Zero α] {jb : JitterBuffer α} {op : Op α}

/-- The books of one call. -/
structure Accounted (jb : JitterBuffer α) (op : Op α) : Prop where
  frames : (op.frame ++ jb.frames.entries).Perm
    ((jb.apply op).frames.entries ++ (jb.exits op).map Prod.snd)
  received : (jb.apply op).stats.received = jb.stats.received + op.frame.length
  late : (jb.apply op).stats.late = jb.stats.late + count .Late (jb.exits op)
  played : (jb.apply op).stats.played = jb.stats.played + count .Played (jb.exits op)

theorem apply_accounted (hkeep : jb.keeps_frames op) : jb.Accounted op := by
  have hpush (ts : Nat) (samples : Samples α) (arrival : Nat) (hcut : ¬ jb.cuts ts samples) :
      jb.Accounted (.push ts samples arrival) := by
    refine ⟨push_ledger hcut, ?_, push_late_count, ?_⟩
    · rw [show jb.apply (.push ts samples arrival) = jb.push ts samples arrival from rfl,
        push_stats]
      rfl
    · rw [show jb.apply (.push ts samples arrival) = jb.push ts samples arrival from rfl,
        push_stats]
      change jb.stats.played = jb.stats.played + count .Played (jb.push_exits ts samples)
      rw [push_played_count, Nat.add_zero]
  have hstill (jb' : JitterBuffer α) (hf : jb'.frames = jb.frames) (hs : jb'.stats = jb.stats) :
      jb.frames.entries.Perm (jb'.frames.entries ++
        (([] : List (Fate × Nat × Samples α))).map Prod.snd) ∧
        jb'.stats = jb.stats := by
    refine ⟨?_, hs⟩
    rw [hf, List.map_nil, List.append_nil]
  cases op with
  | push ts samples arrival => exact hpush ts samples arrival hkeep
  | push_silence ts arrival =>
      obtain ⟨hf, hr, hl, hp⟩ := hpush ts [] arrival hkeep
      exact ⟨hf, hr, hl, hp⟩
  | pop out =>
      obtain ⟨hf, hr, hl, hp⟩ := pop_ledger jb out
      exact ⟨hf, hr, hl, hp⟩
  | adapt =>
      obtain ⟨hf, hs⟩ := hstill jb.adapt (by unfold adapt; dsimp only; split <;> rfl)
        (by unfold adapt; dsimp only; split <;> rfl)
      exact ⟨hf, congrArg _ hs, congrArg _ hs, congrArg _ hs⟩
  | set_bounds a b =>
      obtain ⟨hf, hs⟩ := hstill (jb.set_bounds a b) rfl rfl
      exact ⟨hf, congrArg _ hs, congrArg _ hs, congrArg _ hs⟩
  | reset => exact hkeep.elim

/-- **Frame accounting.** In a run without reset and without a jump that cuts frames away, every
frame that was pushed is buffered or met one fate, and the counters count the fates. -/
theorem frames_accounted {cfg : JitterConfig} {tr : List (JitterBuffer α × Op α)}
    (hr : (machine α cfg).Run tr jb) (hkeep : Machine.Meets keeps_frames tr) :
    (taken tr).Perm (jb.frames.entries ++ (ledger tr).map Prod.snd) ∧
    (∀ p ∈ tr, ∀ fate e, (fate, e) ∈ p.1.exits p.2 → fate.Met p.1 p.2 e) ∧
    jb.stats.received = (taken tr).length ∧
    jb.stats.late = count .Late (ledger tr) ∧
    jb.stats.played = count .Played (ledger tr) := by
  induction hr with
  | start h =>
      rw [show _ = new cfg from h]
      exact ⟨List.Perm.refl _, fun _ hp => absurd hp List.not_mem_nil, rfl, rfl, rfl⟩
  | @next tr jb op _ _ ih =>
      obtain ⟨hf, hm, hrecv, hlate, hplayed⟩ := ih fun p hp => hkeep p (List.mem_append_left _ hp)
      have hstep : jb.Accounted op := apply_accounted
        (hkeep (jb, op) (List.mem_append_right _ (List.mem_singleton_self _)))
      have htaken : taken (tr ++ [(jb, op)]) = taken tr ++ op.frame := by
        unfold taken
        rw [List.flatMap_append, List.flatMap_singleton]
      have hledger : ledger (tr ++ [(jb, op)]) = ledger tr ++ jb.exits op := by
        unfold ledger
        rw [List.flatMap_append, List.flatMap_singleton]
      refine ⟨?_, fun p hp => ?_, ?_, ?_, ?_⟩
      · rw [htaken, hledger, List.map_append]
        -- what came in before, what the call takes in, and what either leaves
        have hsofar : (taken tr ++ op.frame).Perm
            (op.frame ++ (jb.frames.entries ++ (ledger tr).map Prod.snd)) :=
          List.perm_append_comm.trans (hf.append_left _)
        have hcall : (op.frame ++ (jb.frames.entries ++ (ledger tr).map Prod.snd)).Perm
            (((jb.apply op).frames.entries ++ (jb.exits op).map Prod.snd) ++
              (ledger tr).map Prod.snd) := by
          rw [← List.append_assoc]
          exact hstep.frames.append_right _
        refine hsofar.trans (hcall.trans ?_)
        rw [List.append_assoc]
        exact List.perm_append_comm.append_left _
      · rcases List.mem_append.1 hp with hp | hp
        · exact hm p hp
        · rw [List.mem_singleton.1 hp]
          exact fun fate e he => exits_met he
      · rw [htaken, List.length_append, ← hrecv]
        exact hstep.received
      · rw [hledger, count_append, ← hlate]
        exact hstep.late
      · rw [hledger, count_append, ← hplayed]
        exact hstep.played

end Runs

/-- A DTX marker within the first frame: playout has passed it when it would be its turn. -/
def marker_calls : List (Op Nat) :=
  [.push 0 full_frame 0, .push_silence 100 0, .push 480 full_frame 0, .pop [], .pop []]

theorem marker_calls_typed : ∀ op ∈ marker_calls, op.Typed := by
  simp only [marker_calls, List.forall_mem_cons, Op.Typed, U64_MAX]
  simp

/-- Three frames came in, two were played, and the third is nowhere and in no counter. -/
theorem passed_marker_uncounted :
    let M := machine Nat balanced_mono
    let tr := M.trace (new balanced_mono) marker_calls
    let jb := M.exec (new balanced_mono) marker_calls
    M.Run tr jb ∧ (∀ p ∈ tr, p.2 ≠ .reset) ∧ (taken tr).map Prod.fst = [0, 100, 480] ∧
      jb.stats.received = 3 ∧ jb.frames.len = 0 ∧ jb.stats.played = 2 ∧ jb.stats.silent = 0 ∧
      jb.stats.late = 0 := by
  refine ⟨calls_run balanced_mono marker_calls marker_calls_typed, ?_, by decide +kernel, ?_⟩
  · simp [marker_calls, Machine.trace]
  · decide +kernel

/-- The same frames without the marker are all accounted for. -/
theorem frames_accounted_two_played :
    let tr := (machine Nat balanced_mono).trace (new balanced_mono)
      [.push 0 full_frame 0, .push 480 full_frame 0, .pop [], .pop []]
    (taken tr).length = 2 ∧ count .Played (ledger tr) = 2 ∧
      ((machine Nat balanced_mono).exec (new balanced_mono)
        [.push 0 full_frame 0, .push 480 full_frame 0, .pop [], .pop []]).stats.late =
          count .Late (ledger tr) := by
  have hrun :=
    calls_run balanced_mono [.push 0 full_frame 0, .push 480 full_frame 0, .pop [], .pop []] (by
    simp only [List.forall_mem_cons, Op.Typed, U64_MAX]
    simp)
  have hnever (ts : Nat) (samples : Samples Nat) (jb : JitterBuffer Nat) (hp : jb.play_ts = none) :
      ¬ jb.cuts ts samples := by
    rintro ⟨⟨play, hplay, -⟩, -⟩
    rw [hp] at hplay
    cases hplay
  obtain ⟨-, -, hrecv, hlate, hplayed⟩ := frames_accounted hrun (by
    simp only [Machine.Meets, Machine.trace, List.forall_mem_cons, keeps_frames]
    refine ⟨hnever _ _ _ rfl, hnever _ _ _ (by decide +kernel), trivial, trivial, ?_⟩
    exact fun _ h => absurd h List.not_mem_nil)
  refine ⟨hrecv.symm.trans (by decide +kernel), hplayed.symm.trans (by decide +kernel), hlate⟩

end SoundPush.JitterBuffer
