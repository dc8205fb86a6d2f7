/-
`SettingsFile` -- settings on their way to the file and back (`settings.rs`).

What is loaded is sanitized once more, so what comes back is what was saved only
if sanitizing twice is sanitizing once. It almost is: every clamp, cut and filter
leaves a value alone that it has seen before. Names are trimmed before they are
cut, though, and a cut behind a blank leaves a name that the next trim shortens
(`sanitize_stable_iff`).

How JSON is written and read is a parameter; the migration of older documents
works on values and is modelled.
-/
import SoundPush.Engine.Settings
import Mathlib.Data.List.DropRight

set_option autoImplicit false

namespace SoundPush

/-! ## 1. Trimming and cutting -/

theorem trim_eq (l : List Char) : trim l = (l.dropWhile is_whitespace).rdropWhile is_whitespace :=
  rfl

theorem head_trim {l : List Char} {c : Char} (h : (trim l).head? = some c) :
    is_whitespace c = false := by
  obtain ⟨rest, hrest⟩ := List.rdropWhile_prefix is_whitespace (l.dropWhile is_whitespace)
  have hhead : (l.dropWhile is_whitespace).head? = some c := by
    rw [← hrest, List.head?_append, ← trim_eq, h]
    rfl
  have hnot := List.head?_dropWhile_not is_whitespace l
  rw [hhead] at hnot
  simpa using hnot

theorem getLast_trim {l : List Char} {c : Char} (h : (trim l).getLast? = some c) :
    is_whitespace c = false := by
  rw [trim, List.getLast?_reverse] at h
  have hnot := List.head?_dropWhile_not is_whitespace (l.dropWhile is_whitespace).reverse
  rw [h] at hnot
  simpa using hnot

theorem trim_eq_self {l : List Char} (hhead : ∀ c, l.head? = some c → is_whitespace c = false)
    (hlast : ∀ c, l.getLast? = some c → is_whitespace c = false) : trim l = l := by
  have hdrop : l.dropWhile is_whitespace = l := by
    rw [List.dropWhile_eq_self_iff]
    intro hl
    simp [hhead _ (List.head?_eq_getElem?.trans (List.getElem?_eq_getElem hl))]
  rw [trim_eq, hdrop, List.rdropWhile_eq_self_iff]
  intro hl
  simp [hlast _ (List.getLast?_eq_getLast_of_ne_nil hl)]

/-- The character before the cut is a blank. -/
def cut_behind_blank (n : Nat) (s : String) : Bool := (trim s.toList)[n - 1]?.any is_whitespace

theorem trim_take_stable {n : Nat} (hn : 0 < n) (s : String) :
    trim_take n (trim_take n s) = trim_take n s ↔ cut_behind_blank n s = false := by
  unfold trim_take cut_behind_blank
  rw [String.toList_ofList, String.ofList_inj]
  generalize htrim : trim s.toList = t
  have hcut : (trim (t.take n)).length ≤ n := by
    rw [trim_eq]
    calc _ ≤ ((t.take n).dropWhile is_whitespace).length :=
            (List.rdropWhile_prefix _ _).sublist.length_le
      _ ≤ (t.take n).length := (List.dropWhile_sublist _).length_le
      _ ≤ n := List.length_take_le _ _
  rw [List.take_of_length_le hcut]
  constructor
  · intro h
    rw [Option.any_eq_false]
    intro c hc
    -- the character is the last one of the cut text, which is trimmed
    obtain ⟨hlen, hget⟩ := List.getElem?_eq_some_iff.1 hc
    have hlast : (trim (t.take n)).getLast? = some c := by
      rw [h, List.getLast?_eq_getElem?, List.length_take, Nat.min_eq_left (by omega),
        List.getElem?_take_of_lt (by omega), hc]
    simp [getLast_trim hlast]
  · intro h
    apply trim_eq_self
    · intro c hc
      rw [List.head?_take, if_neg (by omega)] at hc
      exact head_trim (htrim ▸ hc)
    · intro c hc
      rw [List.getLast?_take, if_neg (by omega)] at hc
      cases hget : t[n - 1]? with
      | none =>
          rw [hget, Option.none_or, ← htrim] at hc
          exact getLast_trim hc
      | some d =>
          rw [hget, Option.some_or] at hc
          obtain rfl := Option.some_inj.1 hc
          simpa [hget] using h

/-! ## 2. Sanitizing twice -/

theorem clamp_clamp {x lo hi : Nat} : clamp (clamp x lo hi) lo hi = clamp x lo hi := by
  unfold clamp
  omega

namespace DeviceProfile

theorem sanitize_sanitize (p : DeviceProfile) : p.sanitize.sanitize = p.sanitize := by
  simp [sanitize, Function.comp_def, clamp_clamp]

theorem is_empty_sanitize (p : DeviceProfile) : p.sanitize.is_empty = p.is_empty := by
  cases p
  simp [sanitize, is_empty, default]

end DeviceProfile

namespace Settings

theorem clamp_between_twice {α : Type} [LinearOrder α] (x lo hi : α) :
    clamp_between (clamp_between x lo hi) lo hi = clamp_between x lo hi := by
  unfold clamp_between
  rcases le_total lo hi with h | h
  · simp [h]
  · simp [h]

/-- A profile under a device id that overrides something. -/
def keeps_profile (id : String) (p : DeviceProfile) : Bool :=
  id.toList.length = 32 ∧ id.toList.all is_ascii_hexdigit ∧ ¬p.is_empty

/-- The profiles that are kept, with their values clamped. -/
def sanitize_profiles (profiles : OrdMap String DeviceProfile) : OrdMap String DeviceProfile :=
  ((profiles.retain keeps_profile).mapValues DeviceProfile.sanitize).takeFirst MAX_DEVICE_PROFILES

theorem keeps_profile_sanitize (id : String) (p : DeviceProfile) :
    keeps_profile id p.sanitize = keeps_profile id p := by
  unfold keeps_profile
  rw [p.is_empty_sanitize]

theorem sanitize_profiles_entries (profiles : OrdMap String DeviceProfile) :
    (sanitize_profiles profiles).entries =
      ((profiles.entries.filter fun e => keeps_profile e.1 e.2).map
        fun e => (e.1, e.2.sanitize)).take MAX_DEVICE_PROFILES := rfl

theorem sanitize_profiles_twice (profiles : OrdMap String DeviceProfile) :
    sanitize_profiles (sanitize_profiles profiles) = sanitize_profiles profiles := by
  apply OrdMap.eq_of_entries
  rw [sanitize_profiles_entries]
  -- what was kept is kept again, and its values do not change
  have hagain : ∀ e ∈ (sanitize_profiles profiles).entries,
      keeps_profile e.1 e.2 = true ∧ (e.1, e.2.sanitize) = id e := by
    intro e he
    rw [sanitize_profiles_entries] at he
    obtain ⟨e', he', rfl⟩ := List.mem_map.1 (List.mem_of_mem_take he)
    refine ⟨(keeps_profile_sanitize _ _).trans (List.mem_filter.1 he').2, ?_⟩
    rw [e'.2.sanitize_sanitize, id]
  have hlen : (sanitize_profiles profiles).entries.length ≤ MAX_DEVICE_PROFILES := by
    rw [sanitize_profiles_entries]
    exact List.length_take_le _ _
  rw [List.filter_eq_self.2 fun e he => (hagain e he).1,
    List.map_congr_left fun e he => (hagain e he).2, List.map_id, List.take_of_length_le hlen]

/-- The app whose audio is captured, by its name. -/
def clean_app (app : Option String) : Option String :=
  (app.map (trim_take 260)).filter fun a => a ≠ ""

@[simp] theorem sanitize_device_name (s : Settings) :
    s.sanitize.device_name = trim_take 64 s.device_name := rfl

@[simp] theorem sanitize_app (s : Settings) :
    s.sanitize.capture.app = clean_app s.capture.app := rfl

/-- Only the two names can change when sanitized settings are sanitized again. -/
theorem sanitize_sanitize (s : Settings) :
    s.sanitize.sanitize = { s.sanitize with
      device_name := trim_take 64 s.sanitize.device_name
      capture := { s.sanitize.capture with app := clean_app s.sanitize.capture.app } } := by
  have hprofiles : s.sanitize.sanitize.device_profiles = s.sanitize.device_profiles :=
    sanitize_profiles_twice s.device_profiles
  unfold sanitize at hprofiles ⊢
  simp only [clamp_clamp, clamp_between_twice, List.take_take, Nat.min_self] at hprofiles ⊢
  rw [hprofiles]
  rfl

/-- The trimmed device name has a blank where it is cut, or the trimmed app name has. -/
def cut_behind_blank (s : Settings) : Bool :=
  SoundPush.cut_behind_blank 64 s.device_name ||
    s.capture.app.any (SoundPush.cut_behind_blank 260)

theorem clean_app_some (a : String) :
    clean_app (some a) = if trim_take 260 a = "" then none else some (trim_take 260 a) := by
  by_cases ha : trim_take 260 a = ""
  · simp [clean_app, ha]
  · simp [clean_app, ha]

theorem clean_app_stable (app : Option String) :
    clean_app (clean_app app) = clean_app app ↔
      app.any (SoundPush.cut_behind_blank 260) = false := by
  cases app with
  | none => simp [clean_app]
  | some a =>
      rw [Option.any_some, ← trim_take_stable (by decide) a, clean_app_some]
      by_cases ha : trim_take 260 a = ""
      · rw [if_pos ha, ha]
        exact iff_of_true rfl (by decide)
      · rw [if_neg ha, clean_app_some]
        by_cases htwice : trim_take 260 (trim_take 260 a) = ""
        · simp [htwice, Ne.symm ha]
        · simp [htwice]

theorem sanitize_twice_iff (s : Settings) :
    s.sanitize.sanitize = s.sanitize ↔ s.cut_behind_blank = false := by
  rw [cut_behind_blank, Bool.or_eq_false_iff, ← trim_take_stable (by decide), ← clean_app_stable]
  constructor
  · intro h
    refine ⟨?_, ?_⟩
    · rw [← sanitize_device_name, ← sanitize_device_name, h]
    · rw [← sanitize_app, ← sanitize_app, h]
  · intro h
    rw [sanitize_sanitize, sanitize_device_name, sanitize_app, h.1, h.2]
    rfl

end Settings

/-! ## 3. Documents -/

/-- A JSON value. -/
inductive JsonValue where
  | null
  | bool (b : Bool)
  | integer (n : Int)
  | float (x : ℚ)
  | string (s : String)
  | array (items : List JsonValue)
  | object (fields : List (String × JsonValue))

namespace JsonValue

abbrev Fields := List (String × JsonValue)

/-- The value of a field. -/
def field (fields : Fields) (key : String) : Option JsonValue :=
  (fields.find? fun f => f.1 = key).map Prod.snd

def has_field (fields : Fields) (key : String) : Bool := fields.any fun f => f.1 = key

/-- `Map::insert`. -/
def insert (fields : Fields) (key : String) (value : JsonValue) : Fields :=
  if has_field fields key then fields.map fun f => if f.1 = key then (key, value) else f
  else fields ++ [(key, value)]

/-- `map.entry(key).or_insert(value)`. -/
def or_insert (fields : Fields) (key : String) (value : JsonValue) : Fields :=
  if has_field fields key then fields else fields ++ [(key, value)]

/-- Change the value of a field that is there. -/
def modify (fields : Fields) (key : String) (change : JsonValue → JsonValue) : Fields :=
  fields.map fun f => if f.1 = key then (f.1, change f.2) else f

/-- Change the fields of an object. -/
def on_object (change : Fields → Fields) : JsonValue → JsonValue
  | object fields => object (change fields)
  | value => value

/-- Change the items of an array. -/
def on_array (change : JsonValue → JsonValue) : JsonValue → JsonValue
  | array items => array (items.map change)
  | value => value

def as_bool : JsonValue → Option Bool
  | bool b => some b
  | _ => none

def as_u64 : JsonValue → Option Nat
  | integer n => if 0 ≤ n ∧ n < 2 ^ 64 then some n.toNat else none
  | _ => none

end JsonValue

namespace SettingsStore

open JsonValue

/-- Rewrite a schema-2 `redundancy` boolean as the name of a mode. -/
def redundancy_bool_to_mode : JsonValue → JsonValue :=
  on_object fun fields =>
    match (field fields "redundancy").bind as_bool with
    | some on => insert fields "redundancy" (.string (if on then "on" else "auto"))
    | none => fields

/-- 1 to 2: a saved route without `keep` was chosen explicitly. -/
def keep_saved_routes (fields : Fields) : Fields :=
  modify fields "savedRoutes"
    (on_array (on_object fun route => or_insert route "keep" (.bool true)))

/-- 2 to 3: the stream settings and those of every device profile. -/
def redundancy_modes (fields : Fields) : Fields :=
  modify (modify fields "stream" redundancy_bool_to_mode) "deviceProfiles"
    (on_object fun profiles => profiles.map fun p => (p.1, redundancy_bool_to_mode p.2))

/-- `while version < SETTINGS_VERSION`. -/
def migrate_from (version : Nat) (fields : Fields) : Fields × Nat :=
  if version < SETTINGS_VERSION then
    let fields := if version = 1 then keep_saved_routes fields else fields
    let fields := if version = 2 then redundancy_modes fields else fields
    migrate_from (version + 1) fields
  else (fields, version)
  termination_by SETTINGS_VERSION - version

/-- Bring a document up to `SETTINGS_VERSION`; the flag says whether anything changed. -/
def migrate (fields : Fields) (version : Nat) : Fields × Bool :=
  let version := max version 1
  if SETTINGS_VERSION ≤ version then (fields, false)
  else
    let (fields, version) := migrate_from version fields
    (insert fields "version" (.integer version), true)

/-- The version a document says; before there were versions, all said 1. -/
def version_of (fields : Fields) : Nat :=
  match (field fields "version").bind as_u64 with
  | some v => min v (2 ^ 32 - 1)
  | none => 1

theorem migrate_current {version : Nat} (h : SETTINGS_VERSION ≤ version) (fields : Fields) :
    migrate fields version = (fields, false) := by
  rw [migrate, if_pos (h.trans (Nat.le_max_left _ _))]

/-- How settings are written as text and read. -/
structure Serde (Bytes : Type) where
  to_vec_pretty : Settings → Option Bytes
  from_slice : Bytes → Option JsonValue
  from_value : JsonValue → Option Settings

end SettingsStore

/-- The settings file, and the copy of one that could not be read. -/
structure SettingsStore (Bytes : Type) where
  file : Option Bytes
  bad : Option Bytes

namespace SettingsStore

open JsonValue

variable {Bytes : Type} (serde : Serde Bytes)

/-- Write the settings; the flag says whether that worked. -/
def save (writes : Bool) (store : SettingsStore Bytes) (settings : Settings) :
    SettingsStore Bytes × Bool :=
  match serde.to_vec_pretty settings with
  | none => (store, false)
  | some json => if writes then ({ store with file := some json }, true) else (store, false)

def recover (store : SettingsStore Bytes) : SettingsStore Bytes × Settings × Bool :=
  ({ file := none, bad := store.file }, .default, true)

/-- The settings, and whether a file that could not be read was set aside. -/
def load (writes : Bool) (store : SettingsStore Bytes) : SettingsStore Bytes × Settings × Bool :=
  match store.file with
  | none => (store, .default, false)
  | some bytes =>
      match serde.from_slice bytes with
      | some (.object fields) =>
          let (fields, migrated) := migrate fields (version_of fields)
          match serde.from_value (.object fields) with
          | some s =>
              let s := s.sanitize
              (if migrated then (store.save serde writes s).1 else store, s, false)
          | none => store.recover
      | _ => store.recover

/-- The settings are written as a document that says their version and reads back as them. -/
def Serde.Reads (settings : Settings) : Prop :=
  ∃ bytes fields, serde.to_vec_pretty settings = some bytes ∧
    serde.from_slice bytes = some (.object fields) ∧
    field fields "version" = some (.integer settings.version) ∧
    serde.from_value (.object fields) = some settings

/-- What was saved comes back sanitized. -/
theorem load_save (store : SettingsStore Bytes) {settings : Settings}
    (hversion : settings.version = SETTINGS_VERSION) (h : serde.Reads settings) :
    let saved := (store.save serde true settings).1
    saved.load serde true = (saved, settings.sanitize, false) := by
  obtain ⟨bytes, fields, hto, hslice, hfield, hvalue⟩ := h
  have hof : version_of fields = SETTINGS_VERSION := by
    rw [version_of, hfield, hversion]
    rfl
  have hmigrate : migrate fields SETTINGS_VERSION = (fields, false) := migrate_current le_rfl fields
  intro saved
  have hsaved : saved = { store with file := some bytes } := by
    simp [saved, save, hto]
  rw [hsaved]
  simp [load, hslice, hof, hmigrate, hvalue]

/-- **Sanitizing twice.** Sanitized settings are left alone by sanitizing them again, and come back
from the file as they were saved, exactly when neither name has a blank where it is cut. -/
theorem sanitize_stable_iff (store : SettingsStore Bytes) (settings : Settings)
    (h : serde.Reads settings.sanitize) :
    (settings.sanitize.sanitize = settings.sanitize ∧
        ((store.save serde true settings.sanitize).1.load serde true).2.1.sanitize =
          settings.sanitize) ↔
      settings.cut_behind_blank = false := by
  rw [← Settings.sanitize_twice_iff, load_save serde store rfl h]
  constructor
  · exact fun hstable => hstable.1
  · intro hstable
    exact ⟨hstable, by rw [hstable, hstable]⟩

end SettingsStore

namespace Sample

/-- A document that says a name, and the defaults where it says nothing. -/
def serde : SettingsStore.Serde String where
  to_vec_pretty s :=
    some ("\x7b\n  \"version\": 3,\n  \"deviceName\": \"" ++ s.device_name ++ "\"\n\x7d")
  from_slice text :=
    if text = "\x7b\n  \"version\": 3,\n  \"deviceName\": \"Desk\"\n\x7d" then
      some (.object [("version", .integer 3), ("deviceName", .string "Desk")])
    else none
  from_value value :=
    match value with
    | .object fields =>
        match JsonValue.field fields "deviceName" with
        | some (.string name) => some { Settings.default with device_name := name }
        | _ => none
    | _ => none

/-- Sixty-three letters, a blank and another letter. -/
def long_name : String := String.ofList (List.replicate 63 'x' ++ [' ', 'y'])

end Sample

namespace SettingsStore

theorem sanitize_stable_desk :
    ({ Settings.default with device_name := " Desk " }.sanitize.sanitize =
        { Settings.default with device_name := " Desk " }.sanitize ∧
      ((save Sample.serde true ⟨none, none⟩
          { Settings.default with device_name := " Desk " }.sanitize).1.load Sample.serde
        true).2.1.sanitize = { Settings.default with device_name := " Desk " }.sanitize) :=
  (sanitize_stable_iff Sample.serde ⟨none, none⟩ { Settings.default with device_name := " Desk " }
    ⟨_, _, rfl, rfl, rfl, rfl⟩).2 (by decide)

/-- The cut name ends in a blank, which goes the next time. -/
theorem sanitize_shrinks_name :
    let settings := { Settings.default with device_name := Sample.long_name }
    settings.sanitize.device_name.toList.length = 64 ∧
      settings.sanitize.sanitize.device_name.toList.length = 63 ∧
      settings.sanitize.sanitize ≠ settings.sanitize := by
  intro settings
  have hfirst : settings.sanitize.device_name.toList.length = 64 := by decide +kernel
  have hsecond : settings.sanitize.sanitize.device_name.toList.length = 63 := by decide +kernel
  refine ⟨hfirst, hsecond, ?_⟩
  intro h
  rw [h, hfirst] at hsecond
  cases hsecond

end SettingsStore

end SoundPush
