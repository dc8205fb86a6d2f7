/-
`Timeline` -- the timeline of a route on the wire.

A route's datagrams form a line: those of one route id on one connection. The
receiver resets on `DISCONTINUITY` alone, so between two flagged datagrams the
timestamps of a line have to increase (`Continuous`). Within one subscription
they do, because every frame advances the encoder's clock and the first packet
after a mute is flagged. A new subscription starts unflagged: it continues the
line only when its group's clock is ahead of the line's last datagram, and a
group that has just opened starts its clock at zero.
-/
import SoundPush.Pipeline.Sender
import Mathlib.Data.List.Chain
import Mathlib.Data.List.Nodup
import Mathlib.Data.Nat.Basic
import Mathlib.Order.Basic

set_option autoImplicit false

namespace SoundPush

/-! ## 1. Lines -/

/-- A connection and a route id on it. -/
abbrev Line := Nat × UInt8

def Datagram.line (d : Datagram) : Line := (d.sink, d.packet.header.route)

def Datagram.ts (d : Datagram) : Nat := d.packet.header.sample_timestamp

def Datagram.discontinuity (d : Datagram) : Bool :=
  d.packet.header.flags.contains MediaFlags.DISCONTINUITY

def Subscriber.line (s : Subscriber) : Line := (s.sink, s.route)

def Target.line (t : Target) : Line := (t.sink, t.route)

def Entry.line (e : Entry) : Line := e.subscriber.line

/-- A subscription's number and line; its target has the same. -/
def Entry.key (e : Entry) : Nat × Line := (e.id, e.line)

def Target.key (t : Target) : Nat × Line := (t.id, t.line)

/-- The datagrams of a line, oldest first. -/
def on_line (sent : List Datagram) (l : Line) : List Datagram := sent.filter (fun d => d.line = l)

/-- Along every line the timestamps increase, except into a datagram flagged as a discontinuity. -/
def Continuous (sent : List Datagram) : Prop :=
  ∀ l, (on_line sent l).IsChain (fun d e => e.discontinuity = true ∨ d.ts < e.ts)

/-- Every datagram of a line so far is followed by a clock at `ts`. -/
def Behind (sent : List Datagram) (l : Line) (ts : Nat) : Prop :=
  ∀ d ∈ (on_line sent l).getLast?, d.ts < ts

theorem Behind.mono {sent : List Datagram} {l : Line} {ts ts' : Nat} (h : Behind sent l ts)
    (hle : ts ≤ ts') : Behind sent l ts' := fun d hd => (h d hd).trans_le hle

/-! ## 2. One receiver's turn -/

namespace Sender

/-- What a turn does: it sends nothing and leaves the stream where it was, or restarts it later; or
it sends one datagram with the frame's timestamp, flagged if the stream was to restart. -/
theorem send_target_cases (s : Sender) (f : Frame) (inp : FrameInput) (t : Target) :
    (s.send_target f inp t).1.id = t.id ∧ (s.send_target f inp t).1.line = t.line ∧
    (((s.send_target f inp t).2 = none ∧ (s.send_target f inp t).1.first = t.first) ∨
      ∃ d, (s.send_target f inp t).2 = some d ∧ d.line = t.line ∧ d.ts = f.ts ∧
        (t.restart = true → d.discontinuity = true) ∧
        inp.muted t.id = false ∧ inp.send_ok t.id = true ∧
        (f.dtx && t.dtx && !f.dtx_signal) = false) := by
  unfold send_target
  by_cases hmuted : inp.muted t.id = true
  · simp [hmuted, Target.line]
  by_cases hquiet : (f.dtx && t.dtx && !f.dtx_signal) = true
  · simp [hmuted, hquiet]
  simp only [hmuted, hquiet, Bool.false_eq_true, if_false]
  split
  · simp
  · split
    · refine ⟨rfl, rfl, Or.inr ⟨_, rfl, rfl, rfl, fun hr => ?_, by simp,
        by assumption, by simp⟩⟩
      simp [Datagram.discontinuity, patch, hr]
    · simp

/-! ## 3. One group -/

/-- The bookkeeping of a group: numbers are given out once, the encode thread's targets are the
subscriptions it last read, and what it knows of one is about the same line. -/
structure Clean (s : Sender) : Prop where
  frame_pos : 0 < s.frame
  ids_lt : ∀ e ∈ s.entries, e.id < s.next_id
  ids_nodup : (s.entries.map Entry.id).Nodup
  lines_nodup : (s.entries.map Entry.line).Nodup
  targets_lt : ∀ t ∈ s.targets, t.id < s.next_id
  same_line : ∀ t ∈ s.targets, ∀ e ∈ s.entries, t.id = e.id → t.line = e.line
  seen_le : ∀ g, s.seen_generation = some g → g ≤ s.generation
  read : s.seen_generation = some s.generation → s.targets.map Target.key = s.entries.map Entry.key

/-- Whatever a live subscription has sent lies behind the group's clock. -/
def Follows (s : Sender) (sent : List Datagram) : Prop :=
  ∀ t ∈ s.targets, ∀ e ∈ s.entries, t.id = e.id → t.first = false →
    Behind sent t.line s.timestamp

/-- Reading the subscriptions again touches only the targets. -/
theorem refresh_targets_rest (s : Sender) : s.refresh_targets.entries = s.entries ∧
    s.refresh_targets.frame = s.frame ∧ s.refresh_targets.next_id = s.next_id ∧
    s.refresh_targets.timestamp = s.timestamp ∧ s.refresh_targets.generation = s.generation ∧
    s.refresh_targets.seen_generation = some s.generation := by
  unfold refresh_targets
  split
  · next h => simp [h]
  · simp

/-- The group as a frame finds it: subscriptions read, clock advanced. -/
def begun (s : Sender) (inp : FrameInput) : Sender := s.refresh_targets.tick inp.is_silent

/-- The shape of a frame: nothing is sent and the targets stay, or every target has its turn. -/
theorem encode_frame_cases (s : Sender) (inp : FrameInput) :
    (∃ previous, s.encode_frame inp = ({ s.begun inp with previous := previous }, [])) ∨
    ∃ f, f.ts = s.timestamp ∧ f.dtx = (s.begun inp).in_dtx ∧
      f.dtx_signal = (s.begun inp).dtx_signal ∧
      s.encode_frame inp = (s.begun inp).send_frame f inp := by
  have hts : s.refresh_targets.timestamp = s.timestamp := (refresh_targets_rest s).2.2.2.1
  simp only [encode_frame, begun]
  split
  · exact Or.inl ⟨_, rfl⟩
  · split
    · split
      · exact Or.inl ⟨_, rfl⟩
      · exact Or.inr ⟨_, hts, rfl, rfl, rfl⟩
    · exact Or.inr ⟨_, hts, rfl, rfl, rfl⟩

/-- The turns keep every target's number and line. -/
theorem send_frame_key (s : Sender) (f : Frame) (inp : FrameInput) :
    (s.send_frame f inp).1.targets.map Target.key = s.targets.map Target.key := by
  simp only [send_frame, List.map_map]
  refine List.map_congr_left (fun t _ => ?_)
  obtain ⟨hid, hline, -⟩ := send_target_cases s f inp t
  exact Prod.ext hid hline

theorem mem_send_frame {s : Sender} {f : Frame} {inp : FrameInput} {d : Datagram} :
    d ∈ (s.send_frame f inp).2 ↔ ∃ t ∈ s.targets, (s.send_target f inp t).2 = some d := by
  simp [send_frame, List.mem_filterMap]

/-- What a frame leaves of the group: the same subscriptions, all of them read. -/
theorem encode_frame_group (s : Sender) (inp : FrameInput) :
    (s.encode_frame inp).1.entries = s.entries ∧
    (s.encode_frame inp).1.frame = s.frame ∧
    (s.encode_frame inp).1.next_id = s.next_id ∧
    (s.encode_frame inp).1.timestamp = s.timestamp + s.frame ∧
    (s.encode_frame inp).1.generation = s.generation ∧
    (s.encode_frame inp).1.seen_generation = some s.generation ∧
    (s.encode_frame inp).1.targets.map Target.key = s.refresh_targets.targets.map Target.key := by
  obtain ⟨he, hfr, hn, ht, hg, hs⟩ := refresh_targets_rest s
  rcases encode_frame_cases s inp with ⟨previous, h⟩ | ⟨f, -, -, -, h⟩
  · rw [h]
    exact ⟨he, hfr, hn, by rw [← ht, ← hfr]; rfl, hg, hs, rfl⟩
  · rw [h]
    exact ⟨he, hfr, hn, by rw [← ht, ← hfr]; rfl, hg, hs, send_frame_key _ f inp⟩

end Sender

/-! ## 4. All groups -/

namespace Capture

/-- A route holds one subscription at a time, and captures deliver frames that are not empty. -/
def Allowed (c : Capture) : CaptureOp → Prop
  | .open_group _ frame => 0 < frame
  | .subscribe _ sub => ∀ g s, c.groups g = some s → ∀ e ∈ s.entries, e.line ≠ sub.line
  | _ => True

def machine : Machine Capture CaptureOp where
  init c := c = empty
  enabled := Allowed
  step := apply

/-- What holds of all groups and of what has been sent. -/
structure Timeline (c : Capture) : Prop where
  unused : ∀ g, c.next_group ≤ g → c.groups g = none
  clean : ∀ g s, c.groups g = some s → s.Clean
  follows : ∀ g s, c.groups g = some s → s.Follows c.sent
  apart : ∀ g s g' s', c.groups g = some s → c.groups g' = some s' → g ≠ g' →
    ∀ e ∈ s.entries, ∀ e' ∈ s'.entries, e.line ≠ e'.line
  continuous : Continuous c.sent

theorem Timeline.used {c : Capture} (h : c.Timeline) {g : Nat} {s : Sender}
    (hg : c.groups g = some s) : g < c.next_group := by
  by_contra hle
  rw [h.unused g (Nat.le_of_not_lt hle)] at hg
  exact nomatch hg

/-- Replacing one group keeps everything, if the new one is in order, apart from the others, and
what has been sent since is in order too. -/
theorem Timeline.update {c : Capture} (h : c.Timeline) {g n : Nat} {s' : Option Sender}
    {sent : List Datagram} (hn : c.next_group ≤ n) (hused : ∀ x, s' = some x → g < n)
    (hclean : ∀ x, s' = some x → x.Clean) (hfollows : ∀ x, s' = some x → x.Follows sent)
    (hothers : ∀ g' y, g' ≠ g → c.groups g' = some y → y.Follows sent)
    (hapart : ∀ x, s' = some x → ∀ e ∈ x.entries, ∀ g' y, g' ≠ g → c.groups g' = some y →
      ∀ e' ∈ y.entries, e.line ≠ e'.line)
    (hcont : Continuous sent) :
    Timeline { groups := Function.update c.groups g s', next_group := n, sent := sent } := by
  -- A group is the one that was replaced, or one of before.
  have hget : ∀ g' x, Function.update c.groups g s' g' = some x →
      (g' = g ∧ s' = some x) ∨ (g' ≠ g ∧ c.groups g' = some x) := by
    intro g' x hx
    by_cases he : g' = g
    · subst he
      rw [Function.update_self] at hx
      exact Or.inl ⟨rfl, hx⟩
    · rw [Function.update_of_ne he] at hx
      exact Or.inr ⟨he, hx⟩
  refine ⟨fun g' hle => ?_, fun g' x hx => ?_, fun g' x hx => ?_, fun g₁ x g₂ y hx hy hne => ?_,
    hcont⟩
  · cases hx : Function.update c.groups g s' g' with
    | none => exact hx
    | some x =>
        rcases hget g' x hx with ⟨rfl, hs⟩ | ⟨-, hs⟩
        · exact absurd (hused x hs) (Nat.not_lt.2 hle)
        · rw [h.unused g' (hn.trans hle)] at hs
          exact nomatch hs
  · rcases hget g' x hx with ⟨-, he⟩ | ⟨-, he⟩
    · exact hclean x he
    · exact h.clean g' x he
  · rcases hget g' x hx with ⟨-, he⟩ | ⟨hne, he⟩
    · exact hfollows x he
    · exact hothers g' x hne he
  · intro e he e' he'
    rcases hget g₁ x hx with ⟨rfl, hx'⟩ | ⟨hn₁, hx'⟩
    · rcases hget g₂ y hy with ⟨rfl, -⟩ | ⟨hn₂, hy'⟩
      · exact absurd rfl hne
      · exact hapart x hx' e he g₂ y hn₂ hy' e' he'
    · rcases hget g₂ y hy with ⟨rfl, hy'⟩ | ⟨-, hy'⟩
      · exact (hapart y hy' e' he' g₁ x hn₁ hx' e he).symm
      · exact h.apart _ _ _ _ hx' hy' hne e he e' he'

/-- One frame of audio, sent. -/
def audible : FrameInput where
  is_silent := false
  encoded := some [1]
  muted _ := false
  redundancy _ := false
  send_ok _ := true

def listener : Subscriber := { route := 1, sink := 7, dtx := false }

end Capture

end SoundPush
