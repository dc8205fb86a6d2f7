/-
`DefaultDevices` -- SoundPush as the computer's default devices
(`default_devices.rs`), and what a crash leaves of the user's own.

A call of the manager is a list of effects on the system: the defaults it sets, and
the marker file it writes last, or clears. A crash cuts the list short and forgets
what the manager had in memory; the next manager starts from the marker. Nobody else
changes the defaults, so all a call reads it could read at its start.
-/
import SoundPush.Lib.Machine

set_option autoImplicit false

namespace SoundPush

namespace DefaultDevices

/-! ## 1. The manager -/

inductive Kind where
  | Input
  | Output
  deriving DecidableEq

/-- Defaults SoundPush replaced, as the platform identifies a device. -/
structure Previous where
  input : Option String
  output : Option String
  deriving DecidableEq

namespace Previous

def default : Previous := ⟨none, none⟩

def slot (p : Previous) : Kind → Option String
  | .Input => p.input
  | .Output => p.output

def set_slot (p : Previous) (kind : Kind) (device : Option String) : Previous :=
  match kind with
  | .Input => { p with input := device }
  | .Output => { p with output := device }

def is_empty (p : Previous) : Bool := p.input.isNone && p.output.isNone

@[simp] theorem slot_set_slot (p : Previous) (kind k : Kind) (device : Option String) :
    (p.set_slot kind device).slot k = if k = kind then device else p.slot k := by
  cases kind <;> cases k <;> rfl

theorem slot_of_is_empty {p : Previous} (h : p.is_empty = true) (kind : Kind) :
    p.slot kind = none := by
  unfold is_empty at h
  rw [Bool.and_eq_true, Option.isNone_iff_eq_none, Option.isNone_iff_eq_none] at h
  cases kind
  · exact h.1
  · exact h.2

end Previous

/-- What the system keeps: its default devices and the marker file. -/
structure Desktop where
  defaults : Kind → Option String
  marker : Option Previous

inductive Effect where
  | set (kind : Kind) (device : String)
  /-- the marker is written -/
  | write (previous : Previous)
  /-- the marker is removed -/
  | remove
  deriving DecidableEq

def Desktop.apply (d : Desktop) : Effect → Desktop
  | .set kind device =>
      { d with defaults := fun k => if k = kind then some device else d.defaults k }
  | .write previous => { d with marker := some previous }
  | .remove => { d with marker := none }

/-- The devices by the names that the audio backend lists (`sys::find`). -/
abbrev Find := Kind → String → Option String

/-- Make `name` the default for `kind`, remembering what was there the first time. -/
def take_over (d : Desktop) (find : Find) (previous : Previous) (kind : Kind) (name : String) :
    Previous × List Effect :=
  match find kind name with
  | none => (previous, [])
  | some wanted =>
      let current := d.defaults kind
      if current = some wanted then (previous, [])
      else
        -- only the first change is remembered: later ones would record SoundPush's own device
        (previous.set_slot kind (some ((previous.slot kind).getD (current.getD ""))),
          [.set kind wanted])

/-- Put back what `kind` was before, if SoundPush replaced it. -/
def give_back (previous : Previous) (kind : Kind) : Previous × List Effect :=
  match previous.slot kind with
  | none => (previous, [])
  | some before =>
      -- an empty entry means there was no default at all; nothing to put back
      (previous.set_slot kind none, if before ≠ "" then [.set kind before] else [])

def write_marker (previous : Previous) : Effect :=
  if previous.is_empty then .remove else .write previous

def apply_kind (d : Desktop) (find : Find) (previous : Previous) (kind : Kind)
    (wanted : Option String) : Previous × List Effect :=
  match wanted with
  | some name => take_over d find previous kind name
  | none => give_back previous kind

/-- Ask for these devices to be the defaults; `none` for a direction leaves it alone. -/
def apply (d : Desktop) (find : Find) (previous : Previous) (input output : Option String) :
    Previous × List Effect :=
  let (previous, first) := apply_kind d find previous .Input input
  let (previous, second) := apply_kind d find previous .Output output
  (previous, first ++ second ++ [write_marker previous])

/-- Put every replaced default back. -/
def restore (previous : Previous) : Previous × List Effect :=
  let (previous, first) := give_back previous .Input
  let (previous, second) := give_back previous .Output
  (previous, first ++ second ++ [write_marker previous])

/-- Put back anything a previous run left replaced, then start clean. -/
def new (d : Desktop) : Previous × List Effect :=
  match d.marker with
  | some left => if left.is_empty then (.default, []) else restore left
  | none => (.default, [])

/-! ## 2. Runs with crashes -/

inductive Call where
  | new
  | apply (input output : Option String)
  | restore
  deriving DecidableEq

/-- A call, and after how many of its effects SoundPush crashes, if it does. -/
structure Step where
  call : Call
  find : Find
  crash : Option Nat

/-- The system, and what the manager remembers while there is one. -/
structure World where
  desktop : Desktop
  manager : Option Previous

namespace World

/-- What the call does. -/
def run (w : World) (e : Step) : Previous × List Effect :=
  match e.call with
  | .new => new w.desktop
  | .apply input output =>
      DefaultDevices.apply w.desktop e.find (w.manager.getD .default) input output
  | .restore => DefaultDevices.restore (w.manager.getD .default)

/-- The effects that come before the crash. -/
def done (w : World) (e : Step) : List Effect :=
  match e.crash with
  | some n => (w.run e).2.take n
  | none => (w.run e).2

def step (w : World) (e : Step) : World :=
  { desktop := (w.done e).foldl Desktop.apply w.desktop
    manager := if e.crash.isSome then none else some (w.run e).1 }

end World

/-- SoundPush on a system with the defaults `original`, started, used, crashed and started again:
there is a manager from one start to the next crash. -/
def managers (original : Kind → Option String) : Machine World Step where
  init w := w = { desktop := { defaults := original, marker := none }, manager := none }
  enabled w e := e.call = .new ↔ w.manager = none
  step := World.step

/-- The call changes a default that the manager has not changed before. -/
def World.takes (w : World) (e : Step) (kind : Kind) (device : String) : Prop :=
  ∃ m, w.manager = some m ∧ m.slot kind = none ∧ .set kind device ∈ (w.run e).2

/-- What a call takes over was somebody's, and no crash comes between the change and the marker
that remembers it. -/
def World.noted (w : World) (e : Step) : Prop :=
  ∀ kind device, w.takes e kind device →
    (∃ before, before ≠ "" ∧ w.desktop.defaults kind = some before) ∧
      (.set kind device ∈ w.done e → w.done e = (w.run e).2)

/-! ## 3. One direction of a call -/

/-- What the marker remembers for the direction. -/
def Desktop.noted (d : Desktop) (kind : Kind) : Option String := (d.marker.getD .default).slot kind

/-- What a call that wants a device for a direction, or none, does there: the slot before and
after, and the effects. -/
inductive Turn (d : Desktop) (kind : Kind) :
    Option String → Option String → Option String → List Effect → Prop
  | keep (wanted slot : Option String) (h : wanted = none → slot = none) :
      Turn d kind wanted slot slot []
  | take (name device : String) :
      Turn d kind (some name) none (some ((d.defaults kind).getD "")) [.set kind device]
  | retake (name before device : String) :
      Turn d kind (some name) (some before) (some before) [.set kind device]
  | give (before : String) (h : before ≠ "") :
      Turn d kind none (some before) none [.set kind before]
  | clear : Turn d kind none (some "") none []

/-- Only its own direction is changed. -/
theorem apply_kind_turn (d : Desktop) (find : Find) (previous : Previous) (kind : Kind)
    (wanted : Option String) :
    Turn d kind wanted (previous.slot kind) ((apply_kind d find previous kind wanted).1.slot kind)
        (apply_kind d find previous kind wanted).2 ∧
      ∀ k, k ≠ kind → (apply_kind d find previous kind wanted).1.slot k = previous.slot k := by
  have hother (device : Option String) (k : Kind) (hk : k ≠ kind) :
      (previous.set_slot kind device).slot k = previous.slot k := by
    rw [Previous.slot_set_slot, if_neg hk]
  have hself (device : Option String) : (previous.set_slot kind device).slot kind = device := by
    rw [Previous.slot_set_slot, if_pos rfl]
  cases wanted with
  -- With the setting on, `take_over` returns early when the device is not there or already holds
  -- the default; only the last branch changes anything, and it notes a default the first time
  -- only.
  | some name =>
      unfold apply_kind take_over
      dsimp only
      split
      · exact ⟨.keep _ _ nofun, fun _ _ => rfl⟩
      · next device _ =>
          split
          · exact ⟨.keep _ _ nofun, fun _ _ => rfl⟩
          · rw [hself]
            refine ⟨?_, hother _⟩
            cases previous.slot kind with
            | none => exact .take name device
            | some before => exact .retake name before device
  -- With the setting off there is something to do exactly when a default is noted. An empty note
  -- is dropped without setting anything: `give_back` never sets the empty name.
  | none =>
      unfold apply_kind give_back
      dsimp only
      cases hslot : previous.slot kind with
      | none =>
          rw [hslot]
          exact ⟨.keep _ _ fun _ => rfl, fun _ _ => rfl⟩
      | some before =>
          dsimp only
          rw [hself]
          refine ⟨?_, hother _⟩
          by_cases hb : before ≠ ""
          · rw [if_pos hb]
            exact .give before hb
          · rw [if_neg hb, not_not.1 hb]
            exact .clear

section turns

variable {d : Desktop} {kind : Kind}

/-- What is not wanted is not remembered afterwards. -/
theorem Turn.slot_of_none {slot slot' : Option String} {effects : List Effect}
    (h : Turn d kind none slot slot' effects) : slot' = none := by
  cases h with
  | keep _ _ h => exact h rfl
  | give => rfl
  | clear => rfl

theorem Turn.mem {wanted slot slot' : Option String} {effects : List Effect}
    (h : Turn d kind wanted slot slot' effects) {o : Effect} (ho : o ∈ effects) :
    ∃ device, o = .set kind device := by
  cases h with
  | keep => exact absurd ho List.not_mem_nil
  | take name device => exact ⟨device, List.mem_singleton.1 ho⟩
  | retake name before device => exact ⟨device, List.mem_singleton.1 ho⟩
  | give before _ => exact ⟨before, List.mem_singleton.1 ho⟩
  | clear => exact absurd ho List.not_mem_nil

end turns

/-- A call is a turn in each direction, and the marker. -/
theorem apply_turns (d : Desktop) (find : Find) (previous : Previous)
    (input output : Option String) :
    ∃ first second,
      Turn d .Input input (previous.slot .Input)
        ((apply d find previous input output).1.slot .Input) first ∧
      Turn d .Output output (previous.slot .Output)
        ((apply d find previous input output).1.slot .Output) second ∧
      (apply d find previous input output).2 =
        first ++ second ++ [write_marker (apply d find previous input output).1] := by
  have h₁ := apply_kind_turn d find previous .Input input
  have h₂ := apply_kind_turn d find (apply_kind d find previous .Input input).1 .Output output
  refine ⟨_, _, ?_, ?_, rfl⟩
  · have hslot := h₂.2 .Input (by decide)
    unfold apply
    dsimp only
    rw [hslot]
    exact h₁.1
  · have hslot := h₁.2 .Output (by decide)
    unfold apply
    dsimp only
    rw [← hslot]
    exact h₂.1

/-! ## 4. What effects leave -/

theorem foldl_defaults {es : List Effect} {kind : Kind} (d : Desktop)
    (h : ∀ o ∈ es, ∀ device, o ≠ .set kind device) :
    (es.foldl Desktop.apply d).defaults kind = d.defaults kind := by
  induction es generalizing d with
  | nil => rfl
  | cons o es ih =>
      rw [List.foldl_cons, ih (d.apply o) fun o' ho' => h o' (List.mem_cons_of_mem _ ho')]
      have hself := h o List.mem_cons_self
      cases o with
      | set k device =>
          have hk : kind ≠ k := by
            intro heq
            exact hself device (heq ▸ rfl)
          exact if_neg hk
      | write _ => rfl
      | remove => rfl

theorem foldl_marker {es : List Effect} (d : Desktop)
    (h : ∀ o ∈ es, ∃ kind device, o = .set kind device) :
    (es.foldl Desktop.apply d).marker = d.marker := by
  induction es generalizing d with
  | nil => rfl
  | cons o es ih =>
      rw [List.foldl_cons, ih (d.apply o) fun o' ho' => h o' (List.mem_cons_of_mem _ ho')]
      obtain ⟨kind, device, rfl⟩ := h o List.mem_cons_self
      rfl

theorem write_marker_noted (d : Desktop) (previous : Previous) (kind : Kind) :
    (d.apply (write_marker previous)).noted kind = previous.slot kind := by
  unfold write_marker
  by_cases h : previous.is_empty = true
  · rw [if_pos h, Previous.slot_of_is_empty h]
    cases kind <;> rfl
  · rw [if_neg h]
    rfl

theorem write_marker_defaults (d : Desktop) (previous : Previous) :
    (d.apply (write_marker previous)).defaults = d.defaults := by
  unfold write_marker
  split <;> rfl

/-- What the marker remembers of a direction covers its default: nothing, and the default is the
user's own, or the user's own. -/
def Held (original slot current : Option String) : Prop :=
  slot = none ∧ current = original ∨ ∃ before, before ≠ "" ∧ slot = some before ∧
    original = some before

theorem Turn.held {d d' : Desktop} {kind : Kind} {original wanted slot slot' : Option String}
    {effects : List Effect} (h : Turn d kind wanted slot slot' effects)
    (hd : Held original slot (d.defaults kind)) (hd' : d'.defaults kind = d.defaults kind)
    (htake : ∀ device, wanted.isSome = true → slot = none → .set kind device ∈ effects →
      ∃ before, before ≠ "" ∧ d.defaults kind = some before) :
    Held original slot' ((effects.foldl Desktop.apply d').defaults kind) := by
  cases h with
  | keep =>
      rw [← hd'] at hd
      exact hd
  -- The slot was empty, so what is current now is still the original default; that is what gets
  -- noted.
  | take name device =>
      obtain ⟨before, hne, hcur⟩ := htake device rfl rfl (List.mem_singleton_self _)
      rcases hd with ⟨-, hd⟩ | ⟨_, -, hd, -⟩
      · right
        refine ⟨before, hne, ?_, hd.symm.trans hcur⟩
        rw [hcur]
        rfl
      · cases hd
  -- Something is noted already, and the note names the original: setting the device once more
  -- leaves it.
  | retake name before device =>
      rcases hd with ⟨hd, -⟩ | hd
      · cases hd
      · exact .inr hd
  | give before _ =>
      rcases hd with ⟨hd, -⟩ | ⟨b, -, hd, horig⟩
      · cases hd
      · left
        refine ⟨rfl, ?_⟩
        rw [horig, ← hd]
        exact if_pos rfl
  -- A held slot is never noted as the empty name, so this turn does not arise.
  | clear =>
      rcases hd with ⟨hd, -⟩ | ⟨b, hne, hd, -⟩
      · cases hd
      · exact absurd (Option.some.inj hd).symm hne

/-- Cut short, before the marker, a turn leaves a direction as it was or its default remembered. -/
theorem Turn.held_cut {d d' : Desktop} {kind : Kind} {original wanted slot slot' : Option String}
    {effects : List Effect} (h : Turn d kind wanted slot slot' effects)
    (hd : Held original slot (d.defaults kind))
    (hd' : (∀ device, wanted.isSome = true → slot = none → .set kind device ∉ effects) ∨
      d'.defaults kind = d.defaults kind)
    (hnil : effects = [] → d'.defaults kind = d.defaults kind) :
    Held original slot (d'.defaults kind) := by
  rcases hd with ⟨hslot, hcur⟩ | hd
  · left
    refine ⟨hslot, ?_⟩
    cases h with
    | keep => exact (hnil rfl).trans hcur
    | take name device =>
        rcases hd' with hd' | hd'
        · exact absurd (List.mem_singleton_self _) (hd' device rfl rfl)
        · exact hd'.trans hcur
    | retake => cases hslot
    | give => cases hslot
    | clear => cases hslot
  · exact .inr hd

/-- A turn without effects that remembers no missing default leaves its slot. -/
theorem Turn.slot_of_nil {d : Desktop} {kind : Kind} {wanted slot slot' : Option String}
    (h : Turn d kind wanted slot slot' []) (hslot : slot ≠ some "") : slot' = slot := by
  cases h with
  | keep => rfl
  | clear => exact absurd rfl hslot

/-! ## 5. One step -/

namespace World

variable {original : Kind → Option String} {w : World} {e : Step}

/-- What the manager remembers is what the marker says, and the marker covers the defaults. -/
structure Kept (original : Kind → Option String) (w : World) : Prop where
  known : ∀ m, w.manager = some m → ∀ kind, m.slot kind = w.desktop.noted kind
  held : ∀ kind, Held (original kind) (w.desktop.noted kind) (w.desktop.defaults kind)

/-- A call starts from what the marker says; without a manager, it wants no device. -/
theorem Kept.run_turns (hk : w.Kept original) (he : (managers original).enabled w e) :
    ∃ wanted effects : Kind → _,
      (∀ kind, Turn w.desktop kind (wanted kind) (w.desktop.noted kind) ((w.run e).1.slot kind)
        (effects kind)) ∧
      (∀ kind, (wanted kind).isSome = true → w.manager.isSome = true) ∧
      ((w.run e).2 = effects .Input ++ effects .Output ++ [write_marker (w.run e).1] ∨
        (w.run e).2 = [] ∧ ∀ kind, effects kind = []) := by
  have happly (previous : Previous) (input output : Option String)
      (hp : ∀ kind, previous.slot kind = w.desktop.noted kind)
      (hrun : w.run e = DefaultDevices.apply w.desktop e.find previous input output)
      (hw : input.isSome = true ∨ output.isSome = true → w.manager.isSome = true) :
      ∃ wanted effects : Kind → _,
        (∀ kind, Turn w.desktop kind (wanted kind) (w.desktop.noted kind) ((w.run e).1.slot kind)
          (effects kind)) ∧
        (∀ kind, (wanted kind).isSome = true → w.manager.isSome = true) ∧
        ((w.run e).2 = effects .Input ++ effects .Output ++ [write_marker (w.run e).1] ∨
          (w.run e).2 = [] ∧ ∀ kind, effects kind = []) := by
    obtain ⟨first, second, h₁, h₂, heffects⟩ :=
      apply_turns w.desktop e.find previous input output
    rw [hrun]
    refine ⟨fun | .Input => input | .Output => output,
      fun | .Input => first | .Output => second, ?_, ?_, .inl heffects⟩
    · intro kind
      rw [← hp kind]
      cases kind
      · exact h₁
      · exact h₂
    · intro kind hkind
      cases kind
      · exact hw (.inl hkind)
      · exact hw (.inr hkind)
  have hnone (h : (none : Option String).isSome = true ∨ (none : Option String).isSome = true) :
      w.manager.isSome = true := by
    rcases h with h | h <;> cases h
  have hmanager (hcall : e.call ≠ .new) :
      ∃ m, w.manager = some m ∧ ∀ kind, m.slot kind = w.desktop.noted kind := by
    obtain ⟨m, hm⟩ := Option.ne_none_iff_exists'.1 fun h => hcall (he.2 h)
    exact ⟨m, hm, hk.known m hm⟩
  cases hcall : e.call with
  | new =>
      -- a marker that remembers something is restored; else the manager starts clean
      cases hmarker : w.desktop.marker with
      | none =>
          have hrun : w.run e = (.default, []) := by
            unfold run new
            rw [hcall, hmarker]
          have hslot (kind : Kind) : w.desktop.noted kind = Previous.default.slot kind := by
            unfold Desktop.noted
            rw [hmarker]
            rfl
          refine ⟨fun _ => none, fun _ => [], fun kind => ?_, fun _ h => (nomatch h),
            .inr ⟨?_, fun _ => rfl⟩⟩
          · rw [hrun, hslot]
            exact .keep _ _ fun _ => by cases kind <;> rfl
          · rw [hrun]
      | some left =>
          by_cases hleft : left.is_empty = true
          · have hrun : w.run e = (.default, []) := by
              unfold run new
              rw [hcall, hmarker]
              exact if_pos hleft
            have hslot (kind : Kind) : w.desktop.noted kind = Previous.default.slot kind := by
              unfold Desktop.noted
              rw [hmarker, Option.getD_some, Previous.slot_of_is_empty hleft]
              cases kind <;> rfl
            refine ⟨fun _ => none, fun _ => [], fun kind => ?_, fun _ h => (nomatch h),
              .inr ⟨?_, fun _ => rfl⟩⟩
            · rw [hrun, hslot]
              exact .keep _ _ fun _ => by cases kind <;> rfl
            · rw [hrun]
          · refine happly left none none (fun kind => ?_) ?_ hnone
            · unfold Desktop.noted
              rw [hmarker]
              rfl
            · unfold run new
              rw [hcall, hmarker]
              exact if_neg hleft
  | apply input output =>
      obtain ⟨m, hm, hslots⟩ := hmanager (by rw [hcall]; exact nofun)
      refine happly m input output hslots ?_ fun _ => by rw [hm]; rfl
      unfold run
      rw [hcall, hm]
      rfl
  | restore =>
      obtain ⟨m, hm, hslots⟩ := hmanager (by rw [hcall]; exact nofun)
      refine happly m none none hslots ?_ hnone
      unfold run
      rw [hcall, hm]
      rfl

/-- A call that takes over a direction that nothing is remembered of. -/
theorem Kept.takes (hk : w.Kept original) {kind : Kind} {device : String}
    (hm : w.manager.isSome = true) (hslot : w.desktop.noted kind = none)
    (hmem : .set kind device ∈ (w.run e).2) : w.takes e kind device := by
  obtain ⟨m, hm⟩ := Option.isSome_iff_exists.1 hm
  exact ⟨m, hm, (hk.known m hm kind).trans hslot, hmem⟩

/-- A call that runs to its end. -/
theorem Kept.step_complete (hk : w.Kept original) (he : (managers original).enabled w e)
    (hn : w.noted e) (hdone : w.done e = (w.run e).2) : (w.step e).Kept original := by
  obtain ⟨wanted, effects, hturn, hwanted, hall⟩ := hk.run_turns he
  have hdesk : (w.step e).desktop = (w.run e).2.foldl Desktop.apply w.desktop := by
    unfold World.step
    rw [hdone]
  have hmanager (m : Previous) (hm : (w.step e).manager = some m) : m = (w.run e).1 := by
    unfold World.step at hm
    dsimp only at hm
    split at hm
    · cases hm
    · exact (Option.some.inj hm).symm
  rcases hall with hall | ⟨hall, hnil⟩
  · -- both turns and the marker
    rw [hall, List.foldl_append, List.foldl_append] at hdesk
    have hslot (kind : Kind) : (w.step e).desktop.noted kind = (w.run e).1.slot kind := by
      rw [hdesk]
      exact write_marker_noted _ _ _
    have htake (kind : Kind) (hsub : ∀ o ∈ effects kind, o ∈ (w.run e).2) (device : String)
        (hw : (wanted kind).isSome = true) (hs : w.desktop.noted kind = none)
        (hmem : .set kind device ∈ effects kind) :
        ∃ before, before ≠ "" ∧ w.desktop.defaults kind = some before :=
      (hn kind device (hk.takes (hwanted kind hw) hs (hsub _ hmem))).1
    refine ⟨fun m hm kind => ?_, fun kind => ?_⟩
    · rw [hmanager m hm, hslot]
    -- `write_marker` does not touch the defaults, and the turn of the other direction does not
    -- touch this one: what is left is the one turn, to which `Turn.held` applies.
    · rw [hslot, hdesk]
      change Held _ _ (Desktop.defaults (Desktop.apply _ (write_marker _)) kind)
      rw [write_marker_defaults]
      cases kind with
      | Input =>
          rw [foldl_defaults]
          · refine (hturn .Input).held (hk.held .Input) rfl (htake .Input fun o ho => ?_)
            rw [hall]
            exact List.mem_append_left _ (List.mem_append_left _ ho)
          · intro o ho device heq
            obtain ⟨device', rfl⟩ := (hturn .Output).mem ho
            cases heq
      | Output =>
          refine (hturn .Output).held (hk.held .Output) ?_ (htake .Output fun o ho => ?_)
          · apply foldl_defaults
            intro o ho device heq
            obtain ⟨device', rfl⟩ := (hturn .Input).mem ho
            cases heq
          · rw [hall]
            exact List.mem_append_left _ (List.mem_append_right _ ho)
  · -- a start with nothing to put back
    rw [hall] at hdesk
    have hslot (kind : Kind) : (w.run e).1.slot kind = w.desktop.noted kind := by
      have ht := hturn kind
      rw [hnil kind] at ht
      refine ht.slot_of_nil fun hs => ?_
      rcases hk.held kind with ⟨h, -⟩ | ⟨before, hne, h, -⟩
      · exact absurd (h.symm.trans hs) nofun
      · exact absurd (Option.some.inj (h.symm.trans hs)) hne
    refine ⟨fun m hm kind => ?_, fun kind => ?_⟩
    · rw [hmanager m hm, hslot, hdesk]
      rfl
    · rw [hdesk]
      exact hk.held kind

/-- A call that a crash cuts short. -/
theorem Kept.step_cut (hk : w.Kept original) (he : (managers original).enabled w e)
    (hn : w.noted e) (hdone : w.done e ≠ (w.run e).2) : (w.step e).Kept original := by
  obtain ⟨wanted, effects, hturn, hwanted, hall⟩ := hk.run_turns he
  obtain ⟨n, hcrash⟩ : ∃ n, e.crash = some n := by
    apply Option.ne_none_iff_exists'.1
    intro h
    apply hdone
    unfold done
    rw [h]
  have htaken : w.done e = (w.run e).2.take n := by
    unfold done
    rw [hcrash]
  have hshort : n < (w.run e).2.length := by
    by_contra hlen
    exact hdone (htaken.trans (List.take_of_length_le (Nat.le_of_not_lt hlen)))
  have hall : (w.run e).2 =
      effects .Input ++ effects .Output ++ [write_marker (w.run e).1] := by
    rcases hall with hall | ⟨hall, -⟩
    · exact hall
    · rw [hall] at hshort
      exact absurd hshort (Nat.not_lt_zero n)
  -- what was done is part of the two turns
  have hsub : ∀ o ∈ w.done e, o ∈ effects .Input ∨ o ∈ effects .Output := by
    intro o ho
    rw [hall, List.length_append, List.length_singleton] at hshort
    rw [htaken, hall, List.take_append_of_le_length (Nat.le_of_lt_succ hshort)] at ho
    exact List.mem_append.1 (List.mem_of_mem_take ho)
  have hof (kind : Kind) (device : String) (ho : .set kind device ∈ w.done e) :
      .set kind device ∈ effects kind := by
    rcases hsub _ ho with h | h
    · obtain ⟨_, heq⟩ := (hturn .Input).mem h
      cases heq
      exact h
    · obtain ⟨_, heq⟩ := (hturn .Output).mem h
      cases heq
      exact h
  have hmarker : (w.step e).desktop.marker = w.desktop.marker := by
    apply foldl_marker
    intro o ho
    rcases hsub o ho with h | h
    · exact ⟨_, (hturn .Input).mem h⟩
    · exact ⟨_, (hturn .Output).mem h⟩
  have hnoted (kind : Kind) : (w.step e).desktop.noted kind = w.desktop.noted kind := by
    unfold Desktop.noted
    rw [hmarker]
  have hgone : (w.step e).manager = none := by
    unfold World.step
    rw [hcrash]
    rfl
  have hsame (kind : Kind) (h : ∀ device, .set kind device ∉ w.done e) :
      (w.step e).desktop.defaults kind = w.desktop.defaults kind := by
    apply foldl_defaults
    intro o ho device heq
    exact h device (heq ▸ ho)
  have hin (kind : Kind) : ∀ o ∈ effects kind, o ∈ (w.run e).2 := by
    intro o ho
    rw [hall]
    cases kind
    · exact List.mem_append_left _ (List.mem_append_left _ ho)
    · exact List.mem_append_left _ (List.mem_append_right _ ho)
  refine ⟨fun m hm => ?_, fun kind => ?_⟩
  · rw [hgone] at hm
    cases hm
  · rw [hnoted]
    refine (hturn kind).held_cut (hk.held kind) ?_ fun hnil => ?_
    · by_cases hset : ∃ device, .set kind device ∈ w.done e
      · left
        intro device hw hs hmem
        -- the crash came after a change of this direction, which the guard excludes
        obtain ⟨device', hset⟩ := hset
        have htakes := hk.takes (hwanted kind hw) hs (hin kind _ (hof kind device' hset))
        exact hdone ((hn kind device' htakes).2 hset)
      · right
        exact hsame kind fun device h => hset ⟨device, h⟩
    · apply hsame
      intro device ho
      have hmem := hof kind device ho
      rw [hnil] at hmem
      exact absurd hmem List.not_mem_nil

theorem Kept.step (hk : w.Kept original) (he : (managers original).enabled w e)
    (hn : w.noted e) : (w.step e).Kept original := by
  by_cases hdone : w.done e = (w.run e).2
  · exact hk.step_complete he hn hdone
  · exact hk.step_cut he hn hdone

/-- A manager that starts puts back what the marker remembers. -/
theorem Kept.new_restores (hk : w.Kept original) (hw : w.manager = none) (find : Find) :
    (w.step ⟨.new, find, none⟩).desktop.defaults = original := by
  have he : (managers original).enabled w ⟨.new, find, none⟩ := ⟨fun _ => hw, fun _ => rfl⟩
  have hn : w.noted ⟨.new, find, none⟩ := by
    rintro kind device ⟨m, hm, -⟩
    rw [hw] at hm
    cases hm
  have hk' := hk.step he hn
  obtain ⟨wanted, effects, hturn, hwanted, -⟩ := hk.run_turns he
  funext kind
  have hnone : wanted kind = none := by
    apply Option.not_isSome_iff_eq_none.1
    intro h
    have := hwanted kind h
    rw [hw] at this
    cases this
  have hslot := hturn kind
  rw [hnone] at hslot
  have hnoted := (hk'.known _ rfl kind).symm.trans hslot.slot_of_none
  rcases hk'.held kind with ⟨-, hcur⟩ | ⟨_, -, h, -⟩
  · exact hcur
  · rw [hnoted] at h
    cases h

end World

/-! ## 6. Runs -/

/-- In a run in which the marker notes every change before a crash, each default is the user's own
or remembered in the marker, and whenever SoundPush starts again the defaults are the user's own. -/
theorem defaults_survive_crashes {original : Kind → Option String} {tr : List (World × Step)}
    {w : World} (hr : (managers original).Run tr w) (hG : Machine.Meets World.noted tr) :
    (∀ kind, w.desktop.defaults kind = original kind ∨
      ∃ before, w.desktop.noted kind = some before ∧ original kind = some before) ∧
    (w.manager = none → ∀ find, (w.step ⟨.new, find, none⟩).desktop.defaults = original) := by
  have hk : w.Kept original := by
    refine hr.invariant_where ?_ (fun w e hk he hn => hk.step he hn) hG
    rintro w rfl
    refine ⟨fun m hm => (nomatch hm), fun kind => .inl ⟨?_, rfl⟩⟩
    cases kind <;> rfl
  refine ⟨fun kind => ?_, hk.new_restores⟩
  rcases hk.held kind with ⟨-, h⟩ | ⟨before, -, h⟩
  · exact .inl h
  · exact .inr ⟨before, h⟩

namespace Sample

/-- The user's headset and speakers. -/
def original : Kind → Option String
  | .Input => some "headset"
  | .Output => some "speakers"

/-- Devices that are known by their names. -/
def find : Find := fun _ name => some name

/-- A start, the microphone of SoundPush made the default, and a crash `n` effects into that, or
none. -/
def steps (n : Option Nat) : List Step :=
  [⟨.new, find, none⟩, ⟨.apply (some "SoundPush") none, find, n⟩]

def start : World := { desktop := { defaults := original, marker := none }, manager := none }

theorem steps_admitted (n : Option Nat) : (managers original).Admits start (steps n) :=
  ⟨⟨fun _ => rfl, fun _ => rfl⟩, ⟨nofun, nofun⟩, trivial⟩

end Sample

open Sample in
/-- A crash between the change of the recording device and the marker: the next start leaves
SoundPush's device the default, and nothing remembers the headset. -/
theorem crash_before_marker_forgets :
    ∃ tr w, (managers original).Run tr w ∧ w.manager = none ∧
      w.desktop.defaults .Input = some "SoundPush" ∧ w.desktop.marker = none ∧
      (w.step ⟨.new, find, none⟩).desktop.defaults .Input = some "SoundPush" ∧
      (w.step ⟨.new, find, none⟩).desktop.defaults ≠ original := by
  refine ⟨_, _, Machine.run_of_admits (s := start) rfl (steps_admitted (some 1)), rfl, rfl, rfl,
    rfl, fun h => ?_⟩
  have hin : some "SoundPush" = some "headset" := congrFun h .Input
  exact absurd hin (by decide)

open Sample in
/-- With the crash after the marker, the headset is put back. -/
theorem defaults_survive_crashes_after_marker :
    (((managers original).exec start (steps (some 2))).step ⟨.new, find, none⟩).desktop.defaults =
      original := by
  have hr := Machine.run_of_admits (M := managers original) (s := start) rfl
    (steps_admitted (some 2))
  refine (defaults_survive_crashes hr ?_).2 rfl find
  intro p hp kind device htakes
  obtain ⟨m, hm, hslot, hmem⟩ := htakes
  rcases List.mem_cons.1 hp with rfl | hp
  · cases hm
  · obtain rfl := List.mem_singleton.1 hp
    refine ⟨?_, fun _ => rfl⟩
    cases kind
    · exact ⟨"headset", by decide, rfl⟩
    · exact ⟨"speakers", by decide, rfl⟩

end DefaultDevices

end SoundPush
