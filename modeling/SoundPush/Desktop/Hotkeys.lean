/-
`Hotkeys` -- the two global shortcuts of the desktop app (`hotkeys.rs`): muting the
microphone, and push-to-talk.

Each has a slot, and what the slots hold is registered with the system. `apply`
brings the slots to what the settings want, the mute slot first. It compares a
wanted shortcut with the one the other slot holds at that moment, and it passes over
a slot whose keys are the wanted ones already. So a pair of wanted shortcuts is
reached from every state, but for two kinds (`apply_settles_iff`): the push-to-talk
slot still holds what the mute slot wants, and a slot has an error from keys that it
was refused while it kept the ones that are wanted now.

Two things are assumed of the system's registry. It refuses the shortcuts that this
app has registered, those of `Env.refused`, and no other. And a shortcut that is
unregistered is gone from it: the source ignores the answer of `unregister`.
-/
import SoundPush.Engine.Settings
import Mathlib.Data.Finset.Option

set_option autoImplicit false

namespace SoundPush

namespace Hotkeys

/-! ## 1. The slots -/

inductive Kind where
  | Mute
  | PushToTalk
  deriving DecidableEq, Repr

namespace Kind

def other : Kind → Kind
  | Mute => PushToTalk
  | PushToTalk => Mute

end Kind

/-- Why a shortcut is not active. -/
inductive HotkeyError where
  | Invalid
  | Duplicate
  | Unavailable
  deriving DecidableEq, Repr

/-- A shortcut as the system knows it is known by its id. -/
structure Slot (Shortcut : Type) where
  accelerator : Option String
  shortcut : Option Shortcut
  error : Option HotkeyError
  deriving DecidableEq

end Hotkeys

/-- The slots, the shortcuts this app has registered, and what it has told the engine about the
microphone, in order. -/
structure Hotkeys (Shortcut : Type) where
  mute : Hotkeys.Slot Shortcut
  push_to_talk : Hotkeys.Slot Shortcut
  registered : Finset Shortcut
  told : List Bool
  deriving DecidableEq

namespace Hotkeys

variable {Shortcut : Type}

def default : Hotkeys Shortcut := ⟨⟨none, none, none⟩, ⟨none, none, none⟩, ∅, []⟩

def slot (h : Hotkeys Shortcut) : Kind → Slot Shortcut
  | .Mute => h.mute
  | .PushToTalk => h.push_to_talk

def set_slot (h : Hotkeys Shortcut) (kind : Kind) (slot : Slot Shortcut) : Hotkeys Shortcut :=
  match kind with
  | .Mute => { h with mute := slot }
  | .PushToTalk => { h with push_to_talk := slot }

@[simp] theorem slot_set_slot (h : Hotkeys Shortcut) (kind : Kind) (slot : Slot Shortcut) :
    (h.set_slot kind slot).slot kind = slot := by
  cases kind <;> rfl

@[simp] theorem slot_set_slot_other (h : Hotkeys Shortcut) (kind : Kind) (slot : Slot Shortcut) :
    (h.set_slot kind slot).slot kind.other = h.slot kind.other := by
  cases kind <;> rfl

@[simp] theorem set_slot_registered (h : Hotkeys Shortcut) (kind : Kind) (slot : Slot Shortcut) :
    (h.set_slot kind slot).registered = h.registered := by
  cases kind <;> rfl

@[simp] theorem slot_registered (h : Hotkeys Shortcut) (registered : Finset Shortcut)
    (kind : Kind) :
    slot { h with registered } kind = h.slot kind := by
  cases kind <;> rfl

/-- What is around the app. -/
structure Env (Shortcut : Type) where
  /-- the shortcut of normal keys, if there is one -/
  shortcut_of : String → Option Shortcut
  /-- another app has the keys, or the system does not give them out -/
  refused : Shortcut → Bool
  /-- the desktop portal has the shortcuts -/
  portal_owned : Bool
  /-- the engine runs -/
  engine : Bool

/-- "ctrl + shift + m" without blanks and empty parts. -/
def normal (accelerator : String) : String :=
  let parts := ((accelerator.toList.splitOn '+').map trim).filter fun p => p ≠ []
  String.ofList (['+'].intercalate parts)

example : normal "Ctrl + Shift + M" = "Ctrl+Shift+M" := by decide

def parse (env : Env Shortcut) (accelerator : String) : Except HotkeyError (String × Shortcut) :=
  match env.shortcut_of (normal accelerator) with
  | some shortcut => .ok (normal accelerator, shortcut)
  | none => .error .Invalid

theorem shortcut_of_parsed {env : Env Shortcut} {accelerator a : String} {s : Shortcut}
    (hparse : parse env accelerator = .ok (a, s)) : env.shortcut_of a = some s := by
  unfold parse at hparse
  split at hparse
  · rename_i hs
    cases hparse
    exact hs
  · cases hparse

/-- `wanted.map(parse).transpose()`. -/
def parse_wanted (env : Env Shortcut) :
    Option String → Except HotkeyError (Option (String × Shortcut))
  | none => .ok none
  | some accelerator => (parse env accelerator).map some

theorem parse_wanted_some {env : Env Shortcut} {wanted : Option String}
    {parsed : Option (String × Shortcut)} (hparse : parse_wanted env wanted = .ok parsed)
    (p : String × Shortcut) (hp : parsed = some p) : env.shortcut_of p.1 = some p.2 := by
  subst hp
  unfold parse_wanted at hparse
  cases wanted with
  | none => cases hparse
  | some accelerator =>
      cases haccelerator : parse env accelerator with
      | error e => simp [haccelerator, Except.map] at hparse
      | ok p' =>
          simp [haccelerator, Except.map] at hparse
          exact shortcut_of_parsed (hparse ▸ haccelerator)

section
variable [DecidableEq Shortcut]

/-- `GlobalShortcut::register` fails for a shortcut that is registered already, by this app or
(`Env.refused`) by another one. -/
def register (env : Env Shortcut) (h : Hotkeys Shortcut) (shortcut : Shortcut) :
    Option (Hotkeys Shortcut) :=
  if shortcut ∈ h.registered ∨ env.refused shortcut = true then none
  else some { h with registered := insert shortcut h.registered }

/-- `let _ = manager.unregister(old)`: that the system does it is an assumption, as the answer is
dropped. -/
def unregister (h : Hotkeys Shortcut) (shortcut : Option Shortcut) : Hotkeys Shortcut :=
  { h with registered := h.registered \ shortcut.toFinset }

/-- With push-to-talk the microphone starts muted; removing it gives the microphone back. -/
def tell_engine (env : Env Shortcut) (h : Hotkeys Shortcut) (kind : Kind) (had : Bool) :
    Hotkeys Shortcut :=
  if kind = .PushToTalk ∧ env.engine = true then
    if (h.slot kind).shortcut.isSome then { h with told := h.told ++ [true] }
    else if had then { h with told := h.told ++ [false] }
    else h
  else h

def replace (env : Env Shortcut) (h : Hotkeys Shortcut) (kind : Kind)
    (parsed : Option (String × Shortcut)) : Except HotkeyError (Hotkeys Shortcut) :=
  let slot := h.slot kind
  let finish (h : Hotkeys Shortcut) : Hotkeys Shortcut :=
    let h := (h.unregister slot.shortcut).set_slot kind
      ⟨parsed.map Prod.fst, parsed.map Prod.snd, none⟩
    h.tell_engine env kind slot.accelerator.isSome
  match parsed with
  | none => .ok (finish h)
  | some (accelerator, shortcut) =>
      if slot.shortcut = some shortcut then
        .ok (h.set_slot kind ⟨some accelerator, slot.shortcut, none⟩)
      else
        match h.register env shortcut with
        | none => .error .Unavailable
        | some h => .ok (finish h)

/-- The other slot holds the shortcut. -/
def duplicate (h : Hotkeys Shortcut) (kind : Kind) (parsed : Option (String × Shortcut)) : Bool :=
  match parsed with
  | none => false
  | some (_, shortcut) => (h.slot kind.other).shortcut = some shortcut

/-- Check that `accelerator` can be used for `kind` right now, registering it on success. -/
def set (env : Env Shortcut) (h : Hotkeys Shortcut) (kind : Kind) (accelerator : Option String) :
    Except HotkeyError (Hotkeys Shortcut) :=
  match parse_wanted env accelerator with
  | .error e => .error e
  | .ok parsed => if h.duplicate kind parsed then .error .Duplicate else h.replace env kind parsed

/-- One round of `apply`. -/
def apply_kind (env : Env Shortcut) (h : Hotkeys Shortcut) (kind : Kind) (wanted : Option String) :
    Hotkeys Shortcut :=
  let fail (e : HotkeyError) : Hotkeys Shortcut :=
    h.set_slot kind { h.slot kind with error := some e }
  match parse_wanted env wanted with
  | .error e => fail e
  | .ok parsed =>
      if parsed.map Prod.fst = (h.slot kind).accelerator then h
      else if h.duplicate kind parsed then fail .Duplicate
      else
        match h.replace env kind parsed with
        | .error e => fail e
        | .ok h => h

/-- Register the shortcuts saved in the settings. -/
def apply (env : Env Shortcut) (h : Hotkeys Shortcut) (mute push_to_talk : Option String) :
    Hotkeys Shortcut :=
  if env.portal_owned then h
  else (h.apply_kind env .Mute mute).apply_kind env .PushToTalk push_to_talk

/-! ## 2. What holds of every state -/

/-- A slot is free, or holds the shortcut of its keys. -/
def Slot.Valid (env : Env Shortcut) (slot : Slot Shortcut) : Prop :=
  slot.shortcut = slot.accelerator.bind env.shortcut_of ∧
    slot.shortcut.isSome = slot.accelerator.isSome

/-- The slots hold different shortcuts, and these are what is registered. -/
structure Valid (env : Env Shortcut) (h : Hotkeys Shortcut) : Prop where
  slots : ∀ kind, (h.slot kind).Valid env
  registered : ∀ kind,
    h.registered = (h.slot kind).shortcut.toFinset ∪ (h.slot kind.other).shortcut.toFinset
  differ : ∀ kind shortcut, (h.slot kind).shortcut = some shortcut →
    (h.slot kind.other).shortcut ≠ some shortcut

variable {env : Env Shortcut} {h h' : Hotkeys Shortcut} {kind : Kind}

theorem valid_default (env : Env Shortcut) : (default : Hotkeys Shortcut).Valid env := by
  refine ⟨?_, ?_, ?_⟩
  · intro kind
    cases kind <;> exact ⟨rfl, rfl⟩
  · intro kind
    cases kind <;> rfl
  · intro kind shortcut hs
    cases kind <;> cases hs

/-- Every slot is the slot of a kind or of the other. -/
theorem forall_kind {P : Kind → Prop} (kind : Kind) (h : P kind) (hother : P kind.other) :
    ∀ k, P k := by
  intro k
  cases kind <;> cases k <;> assumption

@[simp] theorem other_other (kind : Kind) : kind.other.other = kind := by
  cases kind <;> rfl

omit [DecidableEq Shortcut] in
@[simp] theorem tell_engine_slot (env : Env Shortcut) (h : Hotkeys Shortcut) (kind k : Kind)
    (had : Bool) : (h.tell_engine env kind had).slot k = h.slot k := by
  unfold tell_engine
  split
  · split
    · cases k <;> rfl
    · split <;> cases k <;> rfl
  · rfl

omit [DecidableEq Shortcut] in
@[simp] theorem tell_engine_registered (env : Env Shortcut) (h : Hotkeys Shortcut) (kind : Kind)
    (had : Bool) : (h.tell_engine env kind had).registered = h.registered := by
  unfold tell_engine
  split
  · split
    · rfl
    · split <;> rfl
  · rfl

@[simp] theorem unregister_slot (h : Hotkeys Shortcut) (shortcut : Option Shortcut) (kind : Kind) :
    (h.unregister shortcut).slot kind = h.slot kind := by
  cases kind <;> rfl

/-- What `replace` makes of the slots, when it succeeds. -/
theorem replace_ok {parsed : Option (String × Shortcut)}
    (hreplace : h.replace env kind parsed = .ok h') :
    h'.slot kind = ⟨parsed.map Prod.fst, parsed.map Prod.snd, none⟩ ∧
      h'.slot kind.other = h.slot kind.other ∧
      (h'.registered = h.registered ∧ (h.slot kind).shortcut = parsed.map Prod.snd ∨
        h'.registered =
            ((parsed.map Prod.snd).toFinset ∪ h.registered) \ (h.slot kind).shortcut.toFinset ∧
          ∀ s, (h.slot kind).shortcut = some s → parsed.map Prod.snd ≠ some s) := by
  unfold replace at hreplace
  cases parsed with
  | none =>
      cases hreplace
      refine ⟨by simp, by simp, .inr ⟨?_, by simp⟩⟩
      simp [unregister]
  | some parsed =>
      obtain ⟨accelerator, shortcut⟩ := parsed
      dsimp only at hreplace
      split at hreplace
      -- The same shortcut again: only the text is replaced, the registry is not asked.
      · rename_i hsame
        cases hreplace
        exact ⟨by simp [hsame], by simp, .inl ⟨by simp, hsame⟩⟩
      · rename_i hnew
        unfold register at hreplace
        split at hreplace
        · cases hreplace
        -- The new one is registered before the old one goes, and a failure leaves both as they
        -- were.
        · rename_i h₁ hregister
          split at hregister
          · cases hregister
          · cases hregister
            cases hreplace
            refine ⟨by simp, ?_, .inr ⟨?_, ?_⟩⟩
            · simp
            · simp [unregister]
            · intro s hs heq
              exact hnew (hs.trans heq.symm)

/-- A slot that holds keys that are not the other's keeps the state valid. -/
theorem Valid.replace (hv : h.Valid env) {parsed : Option (String × Shortcut)}
    (hparsed : ∀ p, parsed = some p → env.shortcut_of p.1 = some p.2)
    (hduplicate : h.duplicate kind parsed = false)
    (hreplace : h.replace env kind parsed = .ok h') : h'.Valid env := by
  obtain ⟨hslot, hother, hregistered⟩ := replace_ok hreplace
  have hheld : (h'.slot kind).shortcut = parsed.map Prod.snd := by rw [hslot]
  -- the new shortcut is not the other slot's
  have hnew (s : Shortcut) (hs : parsed.map Prod.snd = some s) :
      (h.slot kind.other).shortcut ≠ some s := by
    cases parsed with
    | none => cases hs
    | some p =>
        obtain rfl := Option.some_inj.1 hs
        simpa [duplicate] using hduplicate
  have hreg : h'.registered =
      (h'.slot kind).shortcut.toFinset ∪ (h'.slot kind.other).shortcut.toFinset := by
    rw [hheld, hother]
    have hold := hv.registered kind
    rcases hregistered with ⟨hreg, hsame⟩ | ⟨hreg, hdrop⟩
    · rw [hreg, hold, hsame]
    · have hdiffer := hv.differ kind
      ext s
      simp only [hreg, hold, Finset.mem_sdiff, Finset.mem_union, Option.mem_toFinset,
        Option.mem_def]
      constructor
      · rintro ⟨hs | hs | hs, hnot⟩
        · exact .inl hs
        · exact absurd hs hnot
        · exact .inr hs
      · rintro (hs | hs)
        · exact ⟨.inl hs, fun hs' => hdrop s hs' hs⟩
        · exact ⟨.inr (.inr hs), fun hs' => hdiffer s hs' hs⟩
  refine ⟨?_, ?_, ?_⟩
  · refine forall_kind kind ?_ ?_
    · rw [hslot]
      cases parsed with
      | none => exact ⟨rfl, rfl⟩
      | some p => exact ⟨(hparsed p rfl).symm, rfl⟩
    · rw [hother]
      exact hv.slots _
  · refine forall_kind kind ?_ ?_
    · exact hreg
    · rw [other_other, Finset.union_comm]
      exact hreg
  · refine forall_kind kind ?_ ?_
    · intro s hs
      rw [hheld] at hs
      rw [hother]
      exact hnew s hs
    · intro s hs
      rw [other_other, hheld]
      rw [hother] at hs
      exact fun hs' => hnew s hs' hs

theorem Valid.set_error (hv : h.Valid env) (e : HotkeyError) :
    (h.set_slot kind { h.slot kind with error := some e }).Valid env := by
  have hsame (k : Kind) : ((h.set_slot kind { h.slot kind with error := some e }).slot k).shortcut =
        (h.slot k).shortcut ∧
      ((h.set_slot kind { h.slot kind with error := some e }).slot k).accelerator =
        (h.slot k).accelerator := by
    cases kind <;> cases k <;> exact ⟨rfl, rfl⟩
  refine ⟨?_, ?_, ?_⟩
  · intro k
    unfold Slot.Valid
    rw [(hsame k).1, (hsame k).2]
    exact hv.slots k
  · intro k
    rw [(hsame k).1, (hsame k.other).1, set_slot_registered]
    exact hv.registered k
  · intro k s
    rw [(hsame k).1, (hsame k.other).1]
    exact hv.differ k s

theorem Valid.apply_kind (hv : h.Valid env) (kind : Kind) (wanted : Option String) :
    (h.apply_kind env kind wanted).Valid env := by
  unfold Hotkeys.apply_kind
  dsimp only
  split
  · exact hv.set_error _
  · rename_i parsed hparse
    split
    · exact hv
    · split
      · exact hv.set_error _
      · rename_i hduplicate
        split
        · exact hv.set_error _
        · rename_i h' hreplace
          exact hv.replace (parse_wanted_some hparse) (Bool.not_eq_true _ ▸ hduplicate) hreplace

theorem Valid.apply (hv : h.Valid env) (mute push_to_talk : Option String) :
    (h.apply env mute push_to_talk).Valid env := by
  unfold Hotkeys.apply
  split
  · exact hv
  · exact (hv.apply_kind .Mute mute).apply_kind .PushToTalk push_to_talk

theorem Valid.set (hv : h.Valid env) {accelerator : Option String}
    (hset : h.set env kind accelerator = .ok h') : h'.Valid env := by
  unfold Hotkeys.set at hset
  split at hset
  · cases hset
  · rename_i parsed hparse
    split at hset
    · cases hset
    · rename_i hduplicate
      exact hv.replace (parse_wanted_some hparse) (Bool.not_eq_true _ ▸ hduplicate) hset

/-! ## 3. One round -/

theorem apply_kind_other (env : Env Shortcut) (h : Hotkeys Shortcut) (kind : Kind)
    (wanted : Option String) :
    (h.apply_kind env kind wanted).slot kind.other = h.slot kind.other := by
  unfold apply_kind
  dsimp only
  split
  · simp
  · split
    · rfl
    · split
      · simp
      · split
        · simp
        · rename_i hreplace
          exact (replace_ok hreplace).2.1

variable {wanted a : String} {s : Shortcut}

/-- A round for keys that can be parsed. -/
theorem apply_kind_parsed (hparse : parse env wanted = .ok (a, s)) :
    h.apply_kind env kind (some wanted) =
      if some a = (h.slot kind).accelerator then h
      else if (h.slot kind.other).shortcut = some s then
        h.set_slot kind { h.slot kind with error := some .Duplicate }
      else
        match h.replace env kind (some (a, s)) with
        | .error e => h.set_slot kind { h.slot kind with error := some e }
        | .ok h => h := by
  have hwanted : parse_wanted env (some wanted) = .ok (some (a, s)) := by
    simp [parse_wanted, hparse, Except.map]
  unfold apply_kind
  simp only [hwanted, duplicate, Option.map_some, decide_eq_true_eq]

/-- Keys that nobody else has are held after the round, unless the slot is passed over with an
error. -/
theorem apply_kind_settles (kind : Kind) (hv : h.Valid env)
    (hparse : parse env wanted = .ok (a, s)) (hfree : env.refused s = false)
    (hother : (h.slot kind.other).shortcut ≠ some s)
    (herror : (h.slot kind).accelerator = some a → (h.slot kind).error = none) :
    (h.apply_kind env kind (some wanted)).slot kind = ⟨some a, some s, none⟩ := by
  have hof := shortcut_of_parsed hparse
  rw [apply_kind_parsed hparse]
  by_cases hsame : some a = (h.slot kind).accelerator
  · rw [if_pos hsame]
    have hheld := (hv.slots kind).1
    rw [← hsame, Option.bind_some, hof] at hheld
    rw [← hheld, hsame, ← herror hsame.symm]
  · rw [if_neg hsame, if_neg hother]
    cases hreplace : h.replace env kind (some (a, s)) with
    | ok h' => exact (replace_ok hreplace).1
    | error e =>
        -- the system has no reason to refuse
        exfalso
        unfold replace at hreplace
        dsimp only at hreplace
        split at hreplace
        · cases hreplace
        · rename_i hnew
          have hunregistered : s ∉ h.registered := by
            rw [hv.registered kind]
            simp [hnew, hother]
          simp [register, hunregistered, hfree] at hreplace

/-- Keys of the other slot are refused. -/
theorem apply_kind_duplicate (kind : Kind) (hv : h.Valid env)
    (hparse : parse env wanted = .ok (a, s)) (hother : (h.slot kind.other).shortcut = some s) :
    ((h.apply_kind env kind (some wanted)).slot kind).error = some .Duplicate := by
  have hnot : some a ≠ (h.slot kind).accelerator := by
    intro hsame
    have hheld := (hv.slots kind).1
    rw [← hsame, Option.bind_some, shortcut_of_parsed hparse] at hheld
    exact hv.differ kind s hheld hother
  rw [apply_kind_parsed hparse, if_neg hnot, if_pos hother, slot_set_slot]

/-- A slot that has its keys already is passed over. -/
theorem apply_kind_unchanged (kind : Kind) (hparse : parse env wanted = .ok (a, s))
    (h' : (h.slot kind).accelerator = some a) : h.apply_kind env kind (some wanted) = h := by
  rw [apply_kind_parsed hparse, if_pos h'.symm]

/-! ## 4. Both rounds -/

/-- **Applying.** For two different shortcuts that are to be had: after one `apply` both slots hold
theirs without an error, exactly these are registered, and applying again changes nothing, if and
only if push-to-talk did not hold what the mute slot wants and no slot had an error while it had its
keys already. -/
theorem apply_settles_iff {mute push_to_talk am ap : String} {sm sp : Shortcut}
    (hv : h.Valid env) (hportal : env.portal_owned = false)
    (hmute : parse env mute = .ok (am, sm)) (hptt : parse env push_to_talk = .ok (ap, sp))
    (hne : sm ≠ sp) (hmfree : env.refused sm = false) (hpfree : env.refused sp = false) :
    ((h.apply env (some mute) (some push_to_talk)).mute = ⟨some am, some sm, none⟩ ∧
        (h.apply env (some mute) (some push_to_talk)).push_to_talk = ⟨some ap, some sp, none⟩ ∧
        (h.apply env (some mute) (some push_to_talk)).registered = {sm, sp} ∧
        (h.apply env (some mute) (some push_to_talk)).apply env (some mute) (some push_to_talk) =
          h.apply env (some mute) (some push_to_talk)) ↔
      h.push_to_talk.shortcut ≠ some sm ∧
        (h.mute.accelerator = some am → h.mute.error = none) ∧
        (h.push_to_talk.accelerator = some ap → h.push_to_talk.error = none) := by
  have happly (h : Hotkeys Shortcut) : h.apply env (some mute) (some push_to_talk) =
      (h.apply_kind env .Mute (some mute)).apply_kind env .PushToTalk (some push_to_talk) := by
    rw [apply, hportal]
    rfl
  have hvalid := hv.apply (some mute) (some push_to_talk)
  rw [happly h] at hvalid ⊢
  -- each round leaves the other slot as it was
  have hfirst : (h.apply_kind env .Mute (some mute)).push_to_talk = h.push_to_talk :=
    apply_kind_other env h .Mute (some mute)
  generalize h₁ : h.apply_kind env .Mute (some mute) = t at hvalid hfirst ⊢
  have hvt : t.Valid env := h₁ ▸ hv.apply_kind .Mute (some mute)
  have hsecond : (t.apply_kind env .PushToTalk (some push_to_talk)).mute = t.mute :=
    apply_kind_other env t .PushToTalk (some push_to_talk)
  constructor
  · rintro ⟨hm, hp, -, -⟩
    rw [hsecond] at hm
    refine ⟨?_, ?_, ?_⟩
    · intro hheld
      have hfail := apply_kind_duplicate .Mute hv hmute hheld
      rw [h₁] at hfail
      rw [show t.slot .Mute = t.mute from rfl, hm] at hfail
      cases hfail
    · intro hhas
      rw [apply_kind_unchanged .Mute hmute hhas] at h₁
      rw [h₁, hm]
    · intro hhas
      rw [← hfirst] at hhas ⊢
      rw [apply_kind_unchanged .PushToTalk hptt hhas] at hp
      rw [hp]
  · rintro ⟨hswap, hmerror, hperror⟩
    have hm : t.mute = ⟨some am, some sm, none⟩ :=
      h₁ ▸ apply_kind_settles .Mute hv hmute hmfree hswap hmerror
    rw [← hfirst] at hperror
    have hp := apply_kind_settles .PushToTalk hvt hptt hpfree
      (by rw [show t.slot (Kind.other .PushToTalk) = t.mute from rfl, hm]; simpa using hne) hperror
    generalize t.apply_kind env .PushToTalk (some push_to_talk) = t' at hvalid hsecond hp ⊢
    rw [hm] at hsecond
    refine ⟨hsecond, hp, ?_, ?_⟩
    · rw [hvalid.registered .Mute]
      simp [slot, Kind.other, hsecond, show t'.push_to_talk = _ from hp]
    · rw [happly, apply_kind_unchanged .Mute hmute (by simp [slot, hsecond]),
        apply_kind_unchanged .PushToTalk hptt (by rw [hp])]

end

namespace Sample

/-- A desktop that knows two shortcuts and refuses what is in the list. -/
def env (refused : List String) : Env String :=
  { shortcut_of := fun keys => if keys = "Ctrl+Shift+M" ∨ keys = "F13" then some keys else none
    refused := fun shortcut => refused.contains shortcut
    portal_owned := false
    engine := true }

/-- Both shortcuts in use. -/
def bound : Hotkeys String := default.apply (env []) (some "F13") (some "Ctrl + Shift + M")

end Sample

theorem apply_settles_fresh :
    Sample.bound.mute = ⟨some "F13", some "F13", none⟩ ∧
      Sample.bound.push_to_talk = ⟨some "Ctrl+Shift+M", some "Ctrl+Shift+M", none⟩ ∧
      Sample.bound.registered = {"F13", "Ctrl+Shift+M"} ∧
      Sample.bound.apply (Sample.env []) (some "F13") (some "Ctrl + Shift + M") = Sample.bound :=
  (apply_settles_iff (valid_default (Sample.env [])) rfl (by decide) (by decide) (by decide)
    (by decide) (by decide)).2 (by decide)

/-- Swapping the two: each is refused because of the other, again and again. -/
theorem swap_refused :
    let swapped := Sample.bound.apply (Sample.env []) (some "Ctrl+Shift+M") (some "F13")
    swapped.mute = ⟨some "F13", some "F13", some .Duplicate⟩ ∧
      swapped.push_to_talk = ⟨some "Ctrl+Shift+M", some "Ctrl+Shift+M", some .Duplicate⟩ ∧
      swapped.apply (Sample.env []) (some "Ctrl+Shift+M") (some "F13") = swapped := by
  decide

/-- An error stays after the keys it was about are not wanted any more. -/
example :
    let muted := default.apply (Sample.env ["Ctrl+Shift+M"]) (some "F13") none
    let refused := muted.apply (Sample.env ["Ctrl+Shift+M"]) (some "Ctrl+Shift+M") none
    (refused.apply (Sample.env ["Ctrl+Shift+M"]) (some "F13") none).mute =
      ⟨some "F13", some "F13", some .Unavailable⟩ := by
  decide

end Hotkeys

end SoundPush
