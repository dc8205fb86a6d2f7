/-
`Channels` -- which release each update channel offers (`channels.mjs`).

Tags are compared part by part, as numbers, and then by their pre-release
identifiers. Numbers are a script's numbers: a part with very many digits is
infinite, and the difference of two infinite parts is no number, so some tags cannot
be compared at all. That does not matter to the pick, since what remains of the order
is coherent (`newest_unexceeded`); with parts below 2^53 it is a total preorder.
-/
import SoundPush.Lib.Compare
import Mathlib.Algebra.GroupWithZero.Nat
import Mathlib.Data.Char
import Mathlib.Data.List.Lex
import Mathlib.Data.Sum.Order

set_option autoImplicit false

namespace SoundPush

namespace Channels

open Comparison

abbrev Text := List Char

/-! ## 1. Numbers -/

/-- `\d`. -/
def is_digit (c : Char) : Bool := '0' ≤ c && c ≤ '9'

def digits_value (digits : Text) : Nat :=
  digits.foldl (fun n c => n * 10 + (c.toNat - '0'.toNat)) 0

/-- The double nearest to an integer, ties to even. -/
def round_to_double (n : Nat) : Nat :=
  if n < 2 ^ 53 then n
  else
    let e := n.log2 - 52
    let q := n / 2 ^ e
    let r := n % 2 ^ e
    let half := 2 ^ (e - 1)
    (if r < half then q else if half < r then q + 1 else q + q % 2) * 2 ^ e

/-- From here on a double is infinite. -/
@[irreducible] def INFINITE : Nat := 2 ^ 1024

/-- `Number(digits)`; `⊤` is `Infinity`. -/
@[irreducible] def number (digits : Text) : WithTop Nat :=
  let n := round_to_double (digits_value digits)
  if INFINITE ≤ n then none else some n

/-- `Math.sign(x - y)`; no answer is `NaN`. -/
def sign_of_difference : Comparison (WithTop Nat)
  | none, none => none
  | none, some _ => some .gt
  | some _, none => some .lt
  | some x, some y => some (cmp x y)

example : number "007".toList = ((7 : Nat) : WithTop Nat) := by decide +kernel
example : number "9007199254740993".toList = ((9007199254740992 : Nat) : WithTop Nat) := by
  decide +kernel

/-! ## 2. Tags -/

/-- The groups of `TAG`. -/
structure Tag where
  major : Text
  minor : Text
  patch : Text
  prerelease : Option Text
  deriving DecidableEq

/-- `(\d+)`, and what follows. -/
def take_digits (text : Text) : Option (Text × Text) :=
  if text.takeWhile is_digit = [] then none
  else some (text.takeWhile is_digit, text.dropWhile is_digit)

def take_char (c : Char) : Text → Option Text
  | [] => none
  | d :: text => if d = c then some text else none

/-- `[0-9A-Za-z.-]`. -/
def is_prerelease_char (c : Char) : Bool :=
  is_digit c || ('A' ≤ c && c ≤ 'Z') || ('a' ≤ c && c ≤ 'z') || c = '.' || c = '-'

/-- `(?:-([0-9A-Za-z.-]+))?$`. -/
def take_prerelease : Text → Option (Option Text)
  | [] => some none
  | c :: text =>
      if c = '-' ∧ text ≠ [] ∧ text.all is_prerelease_char then some (some text) else none

/-- `TAG.exec`. -/
def exec (tag : Text) : Option Tag := do
  let text ← take_char 'v' tag
  let (major, text) ← take_digits text
  let text ← take_char '.' text
  let (minor, text) ← take_digits text
  let text ← take_char '.' text
  let (patch, text) ← take_digits text
  let prerelease ← take_prerelease text
  return ⟨major, minor, patch, prerelease⟩

example : exec "v1.02.3-beta..1".toList =
    some ⟨['1'], ['0', '2'], ['3'], some "beta..1".toList⟩ := by decide

/-! ## 3. Comparing -/

/-- `/^\d+$/.test`. -/
def is_number (identifier : Text) : Bool := identifier ≠ [] && identifier.all is_digit

/-- One identifier of a pre-release. -/
def compare_identifiers : Comparison Text := fun xa xb =>
  let na := is_number xa
  let nb := is_number xb
  if na && nb && number xa ≠ number xb then sign_of_difference (number xa) (number xb)
  else if na ≠ nb then some (if na then .lt else .gt)
  else if !na && xa ≠ xb then some (if xa < xb then .lt else .gt)
  else some .eq

/-- A release is above its pre-releases. -/
def compare_prereleases : Comparison (Option Text) :=
  none_greatest fun pa pb => lex_list compare_identifiers (pa.splitOn '.') (pb.splitOn '.')

def compare_tags : Comparison Tag := fun pa pb =>
  or_else (sign_of_difference (number pa.major) (number pb.major)) <|
  or_else (sign_of_difference (number pa.minor) (number pb.minor)) <|
  or_else (sign_of_difference (number pa.patch) (number pb.patch)) <|
  compare_prereleases pa.prerelease pb.prerelease

/-- `a.replace(/^v/, "")`. -/
def strip_v (version : Text) : Text := (take_char 'v' version).getD version

/-- SemVer precedence of two tags or versions; the inner `none` is `NaN`. -/
def compare_versions (a b : String) : Except String (Option Ordering) :=
  match exec ('v' :: strip_v a.toList), exec ('v' :: strip_v b.toList) with
  | some pa, some pb => .ok (compare_tags pa pb)
  | some _, none => .error ("not a version: " ++ b)
  | none, _ => .error ("not a version: " ++ a)

/-! ## 4. Picking -/

structure Release where
  tag_name : String
  draft : Bool
  prerelease : Bool
  /-- the names of the assets -/
  assets : Option (List String)
  deriving DecidableEq

def tag_of (r : Release) : Option Tag := exec r.tag_name.toList

def candidates (releases : List Release) : List Release :=
  releases.filter fun r =>
    !r.draft && (tag_of r).isSome && (r.assets.getD []).any fun name => name = "latest.json"

/-- From 1.0 on, a release that is marked as a pre-release is not for the stable channel. -/
def is_stable (r : Release) : Bool :=
  (tag_of r).any fun tag => tag.prerelease.isNone && (!r.prerelease || tag.major = ['0'])

def newer (best : Option Release) (r : Release) : Except String (Option Release) :=
  match best with
  | none => .ok (some r)
  | some best =>
      match compare_versions r.tag_name best.tag_name with
      | .error e => .error e
      | .ok o => .ok (if o = some .gt then some r else some best)

def newest (list : List Release) : Except String (Option Release) := list.foldlM newer none

structure Picked where
  stable : Option Release
  beta : Option Release

/-- Newest stable and newest overall published release that carries an updater manifest. -/
def pick_releases (releases : List Release) : Except String Picked := do
  let stable ← newest ((candidates releases).filter is_stable)
  let beta ← newest (candidates releases)
  return ⟨stable, beta⟩

/-! ## 5. Coherence -/

theorem coherent_sign : Coherent sign_of_difference := by
  refine ⟨?_, ?_⟩
  · intro x y
    rcases x with _ | x
    · rcases y with _ | y <;> rfl
    · rcases y with _ | y
      · rfl
      · exact coherent_cmp.swap x y
  · intro x y z o o' hxy hyz ho ho'
    rcases x with _ | x
    · rcases y with _ | y
      · cases hxy
      · obtain rfl : Ordering.gt = o := Option.some_inj.1 hxy
        rcases z with _ | z
        · exact absurd (Option.some_inj.1 hyz).symm ho'
        · rfl
    · rcases y with _ | y
      · exact absurd (Option.some_inj.1 hxy).symm ho
      · rcases z with _ | z
        · exact absurd (Option.some_inj.1 hyz).symm ho'
        · exact coherent_cmp.chain x y z o o' hxy hyz ho ho'

/-- Identifiers in order: numbers before names. -/
def identifier_key (x : Text) : WithTop Nat ⊕ₗ Text :=
  if is_number x then toLex (.inl (number x)) else toLex (.inr x)

theorem sign_of_ne {x y : WithTop Nat} (h : x ≠ y) : sign_of_difference x y = some (cmp x y) := by
  rcases x with _ | x
  · rcases y with _ | y
    · exact absurd rfl h
    · exact congrArg some ((cmp_eq_gt_iff (⊤ : WithTop Nat) y).2 (WithTop.coe_lt_top y)).symm
  · rcases y with _ | y
    · exact congrArg some ((cmp_eq_lt_iff (x : WithTop Nat) ⊤).2 (WithTop.coe_lt_top x)).symm
    · refine congrArg some ?_
      rcases lt_trichotomy x y with hlt | rfl | hgt
      · rw [(cmp_eq_lt_iff x y).2 hlt]
        exact ((cmp_eq_lt_iff (x : WithTop Nat) y).2 (WithTop.coe_lt_coe.2 hlt)).symm
      · exact absurd rfl h
      · rw [(cmp_eq_gt_iff x y).2 hgt]
        exact ((cmp_eq_gt_iff (x : WithTop Nat) y).2 (WithTop.coe_lt_coe.2 hgt)).symm

theorem cmp_inl (a b : WithTop Nat) :
    cmp (toLex (.inl a) : WithTop Nat ⊕ₗ Text) (toLex (.inl b)) = cmp a b := by
  have hmono : StrictMono fun a : WithTop Nat => (toLex (.inl a) : WithTop Nat ⊕ₗ Text) :=
    Sum.Lex.inl_strictMono
  exact hmono.cmp_map_eq a b

theorem compare_identifiers_eq :
    compare_identifiers = by_key identifier_key (total cmp) := by
  funext x y
  change compare_identifiers x y = some (cmp (identifier_key x) (identifier_key y))
  by_cases hx : is_number x = true
  · have hkx : identifier_key x = toLex (.inl (number x)) := if_pos hx
    by_cases hy : is_number y = true
    · have hky : identifier_key y = toLex (.inl (number y)) := if_pos hy
      rw [hkx, hky, cmp_inl]
      by_cases hne : number x = number y
      · rw [hne, cmp_self_eq_eq]
        simp [compare_identifiers, hx, hy, hne]
      · rw [← sign_of_ne hne]
        simp [compare_identifiers, hx, hy, hne]
    -- A number is below every word.
    · have hky : identifier_key y = toLex (.inr y) := if_neg hy
      rw [hkx, hky, (cmp_eq_lt_iff _ _).2 (Sum.Lex.inl_lt_inr (number x) y)]
      simp [compare_identifiers, hx, hy]
  · have hkx : identifier_key x = toLex (.inr x) := if_neg hx
    by_cases hy : is_number y = true
    · have hky : identifier_key y = toLex (.inl (number y)) := if_pos hy
      rw [hkx, hky, (cmp_eq_gt_iff _ _).2 (Sum.Lex.inl_lt_inr (number y) x)]
      simp [compare_identifiers, hx, hy]
    · have hky : identifier_key y = toLex (.inr y) := if_neg hy
      have hmono : StrictMono fun a : Text => (toLex (.inr a) : WithTop Nat ⊕ₗ Text) :=
        Sum.Lex.inr_strictMono
      rw [hkx, hky]
      rcases lt_trichotomy x y with hlt | rfl | hgt
      · rw [(cmp_eq_lt_iff _ _).2 (hmono hlt)]
        simp [compare_identifiers, hx, hy, hlt, hlt.ne]
      · rw [cmp_self_eq_eq]
        simp [compare_identifiers, hx]
      · rw [(cmp_eq_gt_iff _ _).2 (hmono hgt)]
        simp [compare_identifiers, hx, hy, hgt.ne', not_lt.2 hgt.le]

theorem coherent_prereleases : Coherent compare_prereleases := by
  unfold compare_prereleases
  rw [compare_identifiers_eq]
  exact ((coherent_cmp.by_key identifier_key).lex_list.by_key (List.splitOn '.')).none_greatest

theorem coherent_tags : Coherent compare_tags := by
  have hmajor := coherent_sign.by_key fun t : Tag => number t.major
  have hminor := coherent_sign.by_key fun t : Tag => number t.minor
  have hpatch := coherent_sign.by_key fun t : Tag => number t.patch
  exact hmajor.lex (hminor.lex (hpatch.lex (coherent_prereleases.by_key Tag.prerelease)))

/-- The three parts of the version are below 2^53. -/
def Tag.Bounded (t : Tag) : Prop :=
  digits_value t.major < 2 ^ 53 ∧ digits_value t.minor < 2 ^ 53 ∧ digits_value t.patch < 2 ^ 53

theorem number_of_lt {digits : Text} (h : digits_value digits < 2 ^ 53) :
    number digits = some (digits_value digits) := by
  have hround : round_to_double (digits_value digits) = digits_value digits := by
    rw [round_to_double, if_pos h]
  have hpow (m n : Nat) (hmn : m < n) : 2 ^ m < 2 ^ n := Nat.pow_lt_pow_right Nat.one_lt_two hmn
  have hfinite : 2 ^ 53 < INFINITE := by
    unfold INFINITE
    apply hpow
    decide
  rw [number, hround]
  exact if_neg (not_le.2 (h.trans hfinite))

theorem answers_prereleases : Answers compare_prereleases := by
  unfold compare_prereleases
  rw [compare_identifiers_eq]
  apply Answers.none_greatest
  intro pa pb
  exact Answers.lex_list (fun x y => rfl) _ _

/-- With bounded parts there is an answer. -/
theorem compare_tags_isSome {a b : Tag} (ha : a.Bounded) (hb : b.Bounded) :
    (compare_tags a b).isSome = true := by
  have hsign {x y : Text} (hx : digits_value x < 2 ^ 53) (hy : digits_value y < 2 ^ 53) :
      (sign_of_difference (number x) (number y)).isSome = true := by
    rw [number_of_lt hx, number_of_lt hy]
    rfl
  unfold compare_tags
  exact isSome_or_else (hsign ha.1 hb.1) <| isSome_or_else (hsign ha.2.1 hb.2.1) <|
    isSome_or_else (hsign ha.2.2 hb.2.2) (answers_prereleases _ _)

/-! ## 6. Versions and releases -/

/-- A tag is its own version. -/
theorem exec_strip_v {tag : Text} {t : Tag} (h : exec tag = some t) :
    exec ('v' :: strip_v tag) = some t := by
  cases tag with
  | nil => cases h
  | cons c text =>
      by_cases hc : c = 'v'
      · subst hc
        simpa [strip_v, take_char] using h
      · simp [exec, take_char, hc] at h

theorem compare_versions_tags {a b : String} {ta tb : Tag} (ha : exec a.toList = some ta)
    (hb : exec b.toList = some tb) : compare_versions a b = .ok (compare_tags ta tb) := by
  simp only [compare_versions, exec_strip_v ha, exec_strip_v hb]

/-- Compare releases by their tags. -/
def compare_releases : Comparison Release :=
  by_key (fun r => (tag_of r).getD ⟨[], [], [], none⟩) compare_tags

theorem compare_versions_releases {r r' : Release} (h : (tag_of r).isSome = true)
    (h' : (tag_of r').isSome = true) :
    compare_versions r.tag_name r'.tag_name = .ok (compare_releases r r') := by
  obtain ⟨t, ht⟩ := Option.isSome_iff_exists.1 h
  obtain ⟨t', ht'⟩ := Option.isSome_iff_exists.1 h'
  rw [compare_versions_tags ht ht', compare_releases, by_key, ht, ht']
  rfl

/-- No release of the list exceeds the picked one; there is none exactly if the list is empty. -/
def Newest (list : List Release) : Option Release → Prop
  | none => list = []
  | some best =>
      best ∈ list ∧ ∀ r ∈ list, compare_versions r.tag_name best.tag_name ≠ .ok (some .gt)

theorem coherent_releases : Coherent compare_releases := coherent_tags.by_key _

/-- The scan of the script is the scan with the coherent comparison. -/
theorem newest_eq {list : List Release} (h : ∀ r ∈ list, (tag_of r).isSome = true) :
    newest list = .ok (list.foldl (keep_greater compare_releases) none) := by
  unfold newest
  induction list using List.reverseRecOn with
  | nil => rfl
  | append_singleton list r ih =>
      have hr := h r (by simp)
      have hlist : ∀ r ∈ list, (tag_of r).isSome = true :=
        fun r hr => h r (List.mem_append_left _ hr)
      have hbest := scan_unexceeded coherent_releases list
      rw [List.foldlM_append, ih hlist, List.foldl_append]
      cases hfold : list.foldl (keep_greater compare_releases) none with
      | none => rfl
      | some best =>
          rw [hfold] at hbest
          have hversions := compare_versions_releases hr (hlist best hbest.1)
          simp [bind, Except.bind, pure, Except.pure, newer, hversions, keep_greater]

/-- The pick never fails on candidates, and it is unexceeded. -/
theorem newest_unexceeded (list : List Release) (h : ∀ r ∈ list, (tag_of r).isSome = true) :
    ∃ best, newest list = .ok best ∧ Newest list best := by
  have hbest := scan_unexceeded coherent_releases list
  refine ⟨_, newest_eq h, ?_⟩
  cases hfold : list.foldl (keep_greater compare_releases) none with
  | none =>
      rw [hfold] at hbest
      exact hbest
  | some best =>
      rw [hfold] at hbest
      refine ⟨hbest.1, ?_⟩
      intro r hr hexceeds
      rw [compare_versions_releases (h r hr) (h best hbest.1)] at hexceeds
      exact hbest.2 r hr (Except.ok.inj hexceeds)

theorem tag_of_candidate {releases : List Release} {r : Release} (h : r ∈ candidates releases) :
    (tag_of r).isSome = true := by
  have hr := (List.mem_filter.1 h).2
  simp only [Bool.and_eq_true] at hr
  exact hr.1.2

/-- **Release ordering.** On tags with parts below 2^53 the comparison is a total preorder; and from
every list of releases, whatever their tags, a release is picked for each channel that no other
candidate of the channel exceeds, or none exactly if there is no candidate. -/
theorem release_ordering :
    (∀ a b : String, ∀ ta tb : Tag, exec a.toList = some ta → exec b.toList = some tb →
      ta.Bounded → tb.Bounded →
        ∃ o, compare_versions a b = .ok (some o) ∧ compare_versions b a = .ok (some o.swap)) ∧
    (∀ a b c : String, ∀ ta tb tc : Tag, exec a.toList = some ta → exec b.toList = some tb →
      exec c.toList = some tc → ta.Bounded → tb.Bounded → tc.Bounded →
        compare_versions a b ≠ .ok (some .gt) → compare_versions b c ≠ .ok (some .gt) →
          compare_versions a c ≠ .ok (some .gt)) ∧
    ∀ releases : List Release, ∃ picked, pick_releases releases = .ok picked ∧
      Newest ((candidates releases).filter is_stable) picked.stable ∧
      Newest (candidates releases) picked.beta := by
  refine ⟨?_, ?_, ?_⟩
  · intro a b ta tb ha hb hta htb
    obtain ⟨o, ho⟩ := Option.isSome_iff_exists.1 (compare_tags_isSome hta htb)
    refine ⟨o, ?_, ?_⟩
    · rw [compare_versions_tags ha hb, ho]
    · rw [compare_versions_tags hb ha, coherent_tags.swap ta tb, ho]
      rfl
  · intro a b c ta tb tc ha hb hc hta htb htc hab hbc hac
    rw [compare_versions_tags ha hb] at hab
    rw [compare_versions_tags hb hc] at hbc
    rw [compare_versions_tags ha hc] at hac
    refine coherent_tags.le_trans (compare_tags_isSome hta htb) (compare_tags_isSome htb htc)
      ?_ ?_ (Except.ok.inj hac)
    · exact fun h => hab (congrArg Except.ok h)
    · exact fun h => hbc (congrArg Except.ok h)
  · intro releases
    obtain ⟨stable, hstable, hsbest⟩ := newest_unexceeded ((candidates releases).filter is_stable)
      fun r hr => tag_of_candidate (List.mem_of_mem_filter hr)
    obtain ⟨beta, hbeta, hbbest⟩ := newest_unexceeded (candidates releases)
      fun r hr => tag_of_candidate hr
    refine ⟨⟨stable, beta⟩, ?_, hsbest, hbbest⟩
    simp only [pick_releases, hstable, hbeta, bind, Except.bind]
    rfl

theorem release_ordering_beta :
    ∃ o, compare_versions "v1.0.0-beta.2" "v1.0.0-beta.10" = .ok (some o) ∧
      compare_versions "v1.0.0-beta.10" "v1.0.0-beta.2" = .ok (some o.swap) :=
  release_ordering.1 "v1.0.0-beta.2" "v1.0.0-beta.10"
    ⟨['1'], ['0'], ['0'], some "beta.2".toList⟩ ⟨['1'], ['0'], ['0'], some "beta.10".toList⟩
    (by decide) (by decide) ⟨by decide, by decide, by decide⟩ ⟨by decide, by decide, by decide⟩

example : compare_versions "v1.0.0-beta.2" "v1.0.0-beta.10" = .ok (some .lt) := by decide +kernel

end Channels

end SoundPush
