/-
`Durable` -- what the store of paired devices has put on disk when it says so.

A write can fail. Then the change stands in memory and the file is as it was,
and nothing in the store remembers that: only `update_hints` marks the store as
changed. What answers `Ok` without writing (a `flush` with nothing marked, an
`update` or a `remove` of a device that is not there) answers so although an
earlier change never reached the disk. In every other answer the file is what
the claim of success says (`durable_when_written`).
-/
import SoundPush.Security.Trust
import SoundPush.Lib.Machine

set_option autoImplicit false

namespace SoundPush

/-- The fields that must be durable immediately. -/
def TrustedDevice.secured (d : TrustedDevice) : PublicKey × Permissions × Bool :=
  (d.public_key, d.permissions, d.blocked)

namespace TrustStore

/-! ## 1. Calls and their answers -/

inductive StoreOp where
  | upsert (device : TrustedDevice)
  | update (id : DeviceId) (f : TrustedDevice → TrustedDevice)
  | update_hints (id : DeviceId) (f : TrustedDevice → TrustedDevice)
  | remove (id : DeviceId)
  | flush

/-- A call, with whether the disk takes what the call writes, if it writes. -/
structure StoreCall where
  op : StoreOp
  saves : Bool

/-- Whether the call gets to its write. -/
def writes (t : TrustStore) : StoreOp → Bool
  | .upsert _ => true
  | .update id _ => (t.get id).isSome
  | .update_hints _ _ => false
  | .remove id => (t.get id).isSome
  | .flush => t.dirty

def call (t : TrustStore) (c : StoreCall) : TrustStore :=
  match c.op with
  | .upsert device => t.upsert device c.saves
  | .update id f => t.update id f c.saves
  | .update_hints id f => t.update_hints id f
  | .remove id => t.remove id c.saves
  | .flush => t.flush c.saves

/-- What the call returns: nothing for an error, and else the flag it answers with (`true` where
the source answers with `()`). -/
def answer (t : TrustStore) (c : StoreCall) : Option Bool :=
  match c.op with
  | .upsert _ => if c.saves then some true else none
  | .update id _ =>
      match t.get id with
      | none => some false
      | some _ => if c.saves then some true else none
  | .update_hints id _ => some (t.get id).isSome
  | .remove id =>
      match t.get id with
      | none => some false
      | some _ => if c.saves then some true else none
  | .flush => if t.dirty then (if c.saves then some true else none) else some true

/-- The file holds the devices that memory holds, with their keys, permissions and blocks. -/
def Agrees (t : TrustStore) : Prop :=
  ∀ id, (t.file.get id).map TrustedDevice.secured = (t.devices.get id).map TrustedDevice.secured

/-- What a call that answers `Ok` says about the file. -/
def Durable (t : TrustStore) (c : StoreCall) : Prop :=
  (t.answer c).isSome →
    match c.op with
    | .flush => (t.call c).file = (t.call c).devices
    | .update_hints _ _ => True
    | _ => (t.call c).Agrees

/-- The store between its calls, from a file that was read. -/
def calls : Machine TrustStore StoreCall where
  init t := t.dirty = false ∧ t.file = t.devices
  enabled _ _ := True
  step := call

/-- Whether a write has failed and none has succeeded since. -/
def unwritten (tr : List (TrustStore × StoreCall)) : Bool :=
  tr.foldl (fun b p => if p.1.writes p.2.op then !p.2.saves else b) false

theorem unwritten_concat (tr : List (TrustStore × StoreCall)) (t : TrustStore) (c : StoreCall) :
    unwritten (tr ++ [(t, c)]) = if t.writes c.op then !c.saves else unwritten tr := by
  unfold unwritten
  rw [List.foldl_append]
  rfl

/-- A call that answers without a write comes after a write that failed only if it is about
hints. -/
def Written (tr : List (TrustStore × StoreCall)) : Prop :=
  ∀ tr₁ t c tr₂, tr = tr₁ ++ (t, c) :: tr₂ → t.writes c.op = false →
    (∀ id f, c.op ≠ .update_hints id f) → unwritten tr₁ = false

/-! ## 2. One call -/

variable {t : TrustStore} {c : StoreCall}

theorem agrees_of_eq (h : t.file = t.devices) : t.Agrees := by
  intro id
  rw [h]

/-- A write that succeeds leaves nothing to write. -/
theorem call_of_saves (hw : t.writes c.op = true) (hs : c.saves = true) :
    (t.call c).dirty = false ∧ (t.call c).file = (t.call c).devices := by
  unfold writes at hw
  unfold call
  split at hw
  · rw [upsert, hs]
    exact ⟨rfl, rfl⟩
  · next id f =>
      obtain ⟨d, hd⟩ := Option.isSome_iff_exists.1 hw
      rw [update, hd, hs]
      exact ⟨rfl, rfl⟩
  · cases hw
  · next id =>
      obtain ⟨d, hd⟩ := Option.isSome_iff_exists.1 hw
      rw [remove, hd, hs]
      exact ⟨rfl, rfl⟩
  · rw [flush, if_pos hw, hs]
    exact ⟨rfl, rfl⟩

/-- A write that fails is an error to the caller. -/
theorem answer_of_fails (hw : t.writes c.op = true) (hs : c.saves = false) :
    t.answer c = none := by
  unfold writes at hw
  unfold answer
  split at hw
  · rw [hs]
    rfl
  · obtain ⟨d, hd⟩ := Option.isSome_iff_exists.1 hw
    rw [hd, hs]
    rfl
  · cases hw
  · obtain ⟨d, hd⟩ := Option.isSome_iff_exists.1 hw
    rw [hd, hs]
    rfl
  · rw [if_pos hw, hs]
    rfl

/-- A call that does not write leaves the store alone, unless it changes hints. -/
theorem call_of_not_writes (hw : t.writes c.op = false)
    (hh : ∀ id f, c.op ≠ .update_hints id f) : t.call c = t := by
  unfold writes at hw
  unfold call
  split at hw
  · cases hw
  · next id f _ =>
      have hget : t.get id = none := Option.isSome_eq_false_iff.1 hw |> Option.isNone_iff_eq_none.1
      rw [update, hget]
  · next id f he => exact absurd he (hh id f)
  · next id _ =>
      have hget : t.get id = none := Option.isSome_eq_false_iff.1 hw |> Option.isNone_iff_eq_none.1
      rw [remove, hget]
  · rw [flush, hw]
    rfl

/-- Hints do not touch the fields that must be durable, and mark the store. -/
theorem agrees_update_hints (h : t.Agrees) (id : DeviceId) (f : TrustedDevice → TrustedDevice) :
    (t.update_hints id f).Agrees := by
  intro k
  have hfile : (t.update_hints id f).file = t.file := by
    unfold update_hints
    split <;> rfl
  have hget := get_update_hints t id f k
  unfold get at hget
  rw [hfile, h k, hget]
  split
  · rw [Option.map_map]
    rfl
  · rfl

/-! ## 3. A whole run -/

/-- What the file holds while no failed write is outstanding. -/
def Kept (tr : List (TrustStore × StoreCall)) (t : TrustStore) : Prop :=
  unwritten tr = false → t.Agrees ∧ (t.dirty = false → t.file = t.devices)

theorem Kept.call {tr : List (TrustStore × StoreCall)} (h : Kept tr t) :
    Kept (tr ++ [(t, c)]) (t.call c) := by
  intro hun
  rw [unwritten_concat] at hun
  by_cases hw : t.writes c.op = true
  · rw [if_pos hw] at hun
    obtain ⟨_, hfile⟩ := call_of_saves hw (by simpa using hun)
    exact ⟨agrees_of_eq hfile, fun _ => hfile⟩
  · rw [if_neg hw] at hun
    obtain ⟨hagrees, hclean⟩ := h hun
    by_cases hh : ∃ id f, c.op = .update_hints id f
    · obtain ⟨id, f, hop⟩ := hh
      have hcall : t.call c = t.update_hints id f := by
        unfold TrustStore.call
        rw [hop]
      rw [hcall]
      refine ⟨agrees_update_hints hagrees id f, fun hd => ?_⟩
      unfold update_hints at hd ⊢
      split at hd
      · exact hclean hd
      · cases hd
    · have hsame := call_of_not_writes (c := c) (Bool.not_eq_true _ ▸ hw)
        fun id f he => hh ⟨id, f, he⟩
      rw [hsame]
      exact ⟨hagrees, hclean⟩

theorem run_kept {tr : List (TrustStore × StoreCall)} (hr : calls.Run tr t) : Kept tr t := by
  induction hr with
  | start h => exact fun _ => ⟨agrees_of_eq h.2, fun _ => h.2⟩
  | next _ _ ih => exact ih.call

/-- A call that answers `Ok` is durable if it writes, or if nothing was left unwritten. -/
theorem durable_of_written (hkept : t.writes c.op = false →
      (∀ id f, c.op ≠ .update_hints id f) → t.Agrees ∧ (t.dirty = false → t.file = t.devices)) :
    t.Durable c := by
  intro hok
  by_cases hw : t.writes c.op = true
  · have hs : c.saves = true := by
      by_contra hs
      rw [answer_of_fails hw (Bool.not_eq_true _ ▸ hs)] at hok
      cases hok
    obtain ⟨_, hfile⟩ := call_of_saves hw hs
    split
    · exact hfile
    · trivial
    · exact agrees_of_eq hfile
  · have hno : t.writes c.op = false := Bool.not_eq_true _ ▸ hw
    split
    · next hop =>
        have hh : ∀ id f, c.op ≠ .update_hints id f := by
          intro id f he
          rw [hop] at he
          cases he
        rw [call_of_not_writes hno hh]
        refine (hkept hno hh).2 ?_
        rwa [hop] at hno
    · trivial
    · next hh =>
        rw [call_of_not_writes hno hh]
        exact (hkept hno hh).1

/-- In a run in which nothing that answers without a write follows a write that failed, every
answer holds of the file. -/
theorem durable_when_written {tr : List (TrustStore × StoreCall)} (hr : calls.Run tr t)
    (hw : Written tr) : ∀ p ∈ tr, p.1.Durable p.2 := by
  intro p hp
  obtain ⟨tr₁, tr₂, rfl⟩ := List.append_of_mem hp
  obtain ⟨hbefore, _⟩ := hr.before
  exact durable_of_written fun hno hh => run_kept hbefore (hw tr₁ p.1 p.2 tr₂ rfl hno hh)

theorem Written.concat {tr : List (TrustStore × StoreCall)} (h : Written tr)
    (hc : t.writes c.op = false → (∀ id f, c.op ≠ .update_hints id f) → unwritten tr = false) :
    Written (tr ++ [(t, c)]) := by
  intro tr₁ t' c' tr₂ he hno hh
  rcases List.eq_nil_or_concat tr₂ with rfl | ⟨l, q, rfl⟩
  · obtain ⟨rfl, hp⟩ := List.append_inj' he rfl
    obtain ⟨rfl, rfl⟩ := Prod.mk.inj (List.singleton_inj.1 hp)
    exact hc hno hh
  · rw [List.concat_eq_append, ← List.cons_append, ← List.append_assoc] at he
    exact h tr₁ t' c' l (List.append_inj' he rfl).1 hno hh

/-! ## 4. Calls that fail -/

/-- The call asks for what the store holds already. -/
def StoreOp.asks_nothing (t : TrustStore) : StoreOp → Prop
  | .upsert device => t.get device.device_id = some device
  | .update id f => ∀ d, t.get id = some d → f d = d
  | .update_hints _ _ => True
  | .remove id => t.get id = none
  | .flush => True

/-- Nothing is rolled back: a call that could not save leaves the devices in memory as they were
only if it asked for nothing new. -/
theorem failed_call_kept (t : TrustStore) (c : StoreCall) (he : t.answer c = none) :
    (∀ id, (t.call c).get id = t.get id) ↔ c.op.asks_nothing t := by
  obtain ⟨op, saves⟩ := c
  cases op with
  | upsert device =>
      have hget := t.get_upsert device saves
      constructor
      · intro h
        have hself := hget device.device_id
        rw [if_pos rfl] at hself
        exact (h device.device_id).symm.trans hself
      · intro h id
        change (t.upsert device saves).get id = t.get id
        rw [hget]
        by_cases hid : id = device.device_id
        · rw [if_pos hid, hid]
          exact h.symm
        · rw [if_neg hid]
  | update id f =>
      have hget := t.get_update id f saves
      constructor
      · intro h d hd
        have hself := (h id).symm.trans (hget id)
        rw [if_pos rfl, hd] at hself
        exact (Option.some_inj.1 hself).symm
      · intro h k
        change (t.update id f saves).get k = t.get k
        rw [hget]
        by_cases hk : k = id
        · rw [if_pos hk, hk]
          cases hd : t.get id with
          | none => rfl
          | some d => rw [Option.map_some, h d hd]
        · rw [if_neg hk]
  | update_hints id f =>
      -- hints are not saved, so nothing can fail
      cases he
  | remove id =>
      have hget := t.get_remove id saves
      constructor
      · intro h
        have hself := (h id).symm.trans (hget id)
        rwa [if_pos rfl] at hself
      · intro h k
        change (t.remove id saves).get k = t.get k
        rw [hget]
        by_cases hk : k = id
        · rw [if_pos hk, hk]
          exact h.symm
        · rw [if_neg hk]
  | flush =>
      exact ⟨fun _ => trivial, fun _ id => t.get_flush saves id⟩

/-! ## 5. A phone that comes and goes -/

def phone : TrustedDevice where
  device_id := ⟨7⟩
  public_key := ⟨7⟩
  name := "Phone"
  alias_name := none
  platform := "android"
  permissions := .default
  auto_connect := true
  blocked := false
  paired_at_unix := 1
  last_seen_unix := 1
  last_addresses := []

/-- What `load` makes of a missing file. -/
def blank : TrustStore where
  devices := ∅
  dirty := false
  file := ∅

/-- The store with the phone in it. -/
def after_pairing : TrustStore := blank.upsert phone true

def block (d : TrustedDevice) : TrustedDevice := { d with blocked := true }

def see (n : Nat) (d : TrustedDevice) : TrustedDevice := { d with last_seen_unix := n }

/-- A pairing that fails on a full disk has made the phone trusted all the same, and a failed
removal has removed it. -/
theorem failed_pairing_trusted :
    blank.answer ⟨.upsert phone, false⟩ = none ∧
      ¬ blank.trusts phone.public_key ∧
      (blank.call ⟨.upsert phone, false⟩).trusts phone.public_key ∧
      ((blank.call ⟨.upsert phone, true⟩).call ⟨.remove phone.device_id, false⟩).get
        phone.device_id = none ∧
      ¬ ∀ (t : TrustStore) (c : StoreCall), t.answer c = none →
        ∀ id, (t.call c).get id = t.get id := by
  refine ⟨by decide, by decide, by decide, by decide, fun h => ?_⟩
  have hkept := h blank ⟨.upsert phone, false⟩ (by decide) phone.device_id
  exact absurd hkept (by decide)

/-- A pairing repeated on a full disk leaves the phone as it was stored. -/
theorem failed_call_kept_repeated :
    (after_pairing.call ⟨.upsert phone, false⟩).get phone.device_id =
      after_pairing.get phone.device_id :=
  (failed_call_kept after_pairing ⟨.upsert phone, false⟩ (by decide)).2 (by exact rfl) _

/-- Paired, blocked against a full disk, seen, and flushed when there is room again. -/
def blocked_calls : List StoreCall :=
  [⟨.upsert phone, true⟩, ⟨.update phone.device_id block, false⟩,
    ⟨.update_hints phone.device_id (see 2), true⟩, ⟨.flush, false⟩, ⟨.flush, true⟩]

/-- The store after the first calls. -/
def after (n : Nat) (cs : List StoreCall) : TrustStore := calls.exec blank (cs.take n)

/-- Every call of this run writes, or is about hints. -/
theorem blocked_calls_written : Written (calls.trace blank blocked_calls) := by
  have hnil : Written [] := fun tr₁ t c tr₂ he => by simp at he
  have hupsert := hnil.concat (t := blank) (c := ⟨.upsert phone, true⟩) nofun
  have hblock := hupsert.concat (t := after 1 blocked_calls)
    (c := ⟨.update phone.device_id block, false⟩) fun hno => absurd hno (by decide)
  have hseen := hblock.concat (t := after 2 blocked_calls)
    (c := ⟨.update_hints phone.device_id (see 2), true⟩) fun _ hh => absurd rfl (hh _ _)
  have hfull := hseen.concat (t := after 3 blocked_calls) (c := ⟨.flush, false⟩)
    fun hno => absurd hno (by decide)
  exact hfull.concat (t := after 4 blocked_calls) (c := ⟨.flush, true⟩)
    fun hno => absurd hno (by decide)

/-- The flush that reports success after the block has the block on disk. -/
theorem durable_when_written_blocked :
    calls.exec blank blocked_calls = after 5 blocked_calls ∧
      (after 4 blocked_calls).Durable ⟨.flush, true⟩ := by
  have hrun : calls.Run (calls.trace blank blocked_calls) (calls.exec blank blocked_calls) :=
    Machine.run_of_admits (by exact ⟨rfl, rfl⟩)
      ⟨trivial, trivial, trivial, trivial, trivial, trivial⟩
  have hmem : (after 4 blocked_calls, ⟨.flush, true⟩) ∈ calls.trace blank blocked_calls :=
    .tail _ (.tail _ (.tail _ (.tail _ (.head _))))
  exact ⟨rfl, durable_when_written hrun blocked_calls_written _ hmem⟩

/-- Forgotten against a full disk; then a flush, and the removal once more. -/
def forget_calls : List StoreCall :=
  [⟨.upsert phone, true⟩, ⟨.remove phone.device_id, false⟩, ⟨.flush, true⟩,
    ⟨.remove phone.device_id, true⟩]

/-- The flush and the second removal both report success, and the phone is still on disk. -/
theorem forgotten_phone_kept :
    (after 2 forget_calls).answer ⟨.flush, true⟩ = some true ∧
      (after 3 forget_calls).file ≠ (after 3 forget_calls).devices ∧
      (after 3 forget_calls).answer ⟨.remove phone.device_id, true⟩ = some false ∧
      (after 4 forget_calls).file.get phone.device_id = some phone ∧
      ¬ (after 4 forget_calls).Agrees ∧
      ¬ ∀ tr t, calls.Run tr t → ∀ p ∈ tr, p.1.Durable p.2 := by
  have hrun : calls.Run (calls.trace blank forget_calls) (calls.exec blank forget_calls) :=
    Machine.run_of_admits (by exact ⟨rfl, rfl⟩) ⟨trivial, trivial, trivial, trivial, trivial⟩
  have hkept : (after 4 forget_calls).file.get phone.device_id = some phone := by decide
  have hgone : (after 4 forget_calls).devices.get phone.device_id = none := by decide
  have hflush : (after 3 forget_calls).file ≠ (after 3 forget_calls).devices := by
    intro he
    -- the file and the devices are the same before and after the second removal
    have hget := congrArg (Table.get · phone.device_id) he
    exact absurd (hkept.symm.trans (hget.trans hgone)) nofun
  have hagrees : ¬ (after 4 forget_calls).Agrees := by
    intro h
    have hget := h phone.device_id
    rw [hkept, hgone] at hget
    cases hget
  refine ⟨by decide, hflush, by decide, hkept, hagrees, fun hall => ?_⟩
  have hmem : (after 2 forget_calls, ⟨.flush, true⟩) ∈ calls.trace blank forget_calls :=
    .tail _ (.tail _ (.head _))
  exact hflush (hall _ _ hrun _ hmem (by decide))

end TrustStore

end SoundPush
