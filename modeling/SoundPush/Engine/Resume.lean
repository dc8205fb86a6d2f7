/-
`Resume` -- what a redeemed resume token proves, over whole histories of the store
of tokens (`resume.rs`).

A grant lets a peer's routes run again without a prompt. So what matters is not one
call but the calls before it: `Standing` says of every token that is still
good, and of every grant, which call of the history it comes from and that nothing
since has put an end to it. The clock and the tokens given out so far are ghosts,
there for the two assumptions: calls come in the order of time, and a fresh token
was never given out before.
-/
import SoundPush.Engine.Trusted

set_option autoImplicit false

namespace SoundPush

namespace ResumeTokens

/-! ## 1. Calls -/

inductive Call where
  | issue (peer_key : PublicKey) (token : Bytes)
  | hold (peer : DeviceId) (token : Bytes) (lifetime_secs : Nat)
  | redeem (peer_key : PublicKey) (token : Bytes)
  | forget (peer : DeviceId)
  | prune

/-- A call, and when it is made. -/
structure Request where
  call : Call
  now : Instant

/-- The store of tokens with the last time it was called and the tokens it gave out so far. -/
structure Desk where
  store : ResumeTokens
  clock : Instant
  given : List Bytes

/-- The token that makes room for a new one, if there is no room. -/
def evicts (r : ResumeTokens) (peer_key : PublicKey) (now : Instant) : Option Bytes :=
  let issued := (r.prune now).issued.retain fun _ i => i.peer_key ≠ peer_key
  if MAX_TOKENS ≤ issued.pairs.length then issued.min_by_key Issued.expires else none

def Call.gives : Call → List Bytes
  | .issue _ token => [token]
  | _ => []

section
variable [Crypto]

def call (r : ResumeTokens) (q : Request) : ResumeTokens :=
  match q.call with
  | .issue peer_key token => r.issue peer_key token q.now
  | .hold peer token lifetime_secs => r.hold peer token lifetime_secs q.now
  | .redeem peer_key token => (r.redeem peer_key token q.now).1
  | .forget peer => r.forget peer
  | .prune => r.prune q.now

/-- Every history of calls at non-decreasing times, with tokens that are fresh. -/
def desk : Machine Desk Request where
  init d := d = { store := .default, clock := 0, given := [] }
  enabled d q := d.clock ≤ q.now ∧ ∀ peer_key token, q.call = .issue peer_key token →
    token.length = TOKEN_LEN ∧ token ∉ d.given
  step d q :=
    { store := d.store.call q, clock := q.now, given := q.call.gives ++ d.given }

/-- A call of a history that redeems a token. -/
def redeems (x : Desk × Request) (peer_key : PublicKey) (token : Bytes) : Prop :=
  x.2.call = .redeem peer_key token ∧ (x.1.store.redeem peer_key token x.2.now).2 = true

/-- A call after which a token of a key is good no more: the key gets another one or is forgotten,
somebody presents the token, or it makes room for one of another key. -/
def voids (x : Desk × Request) (peer_key : PublicKey) (token : Bytes) : Prop :=
  (∃ other, x.2.call = .issue peer_key other) ∨ x.2.call = .forget peer_key.device_id ∨
    (∃ key, x.2.call = .redeem key token) ∨
    ∃ key other, x.2.call = .issue key other ∧ x.1.store.evicts key x.2.now = some token

/-! ## 2. One call -/

omit [Crypto] in
theorem get_prune_issued {r : ResumeTokens} {now : Instant} {t : Bytes} {i : Issued}
    (h : (r.prune now).issued.get t = some i) : r.issued.get t = some i := by
  unfold prune at h
  rw [Table.get_retain] at h
  exact (Option.filter_eq_some_iff.1 h).1

omit [Crypto] in
/-- Issuing gives one token and keeps those of the other keys, but for the one evicted. -/
theorem get_issue {r : ResumeTokens} {peer_key : PublicKey} {token t : Bytes} {now : Instant}
    {i : Issued} (h : (r.issue peer_key token now).issued.get t = some i) :
    (t = token ∧ i = { peer_key, expires := now + TOKEN_LIFETIME }) ∨
      (t ≠ token ∧ r.issued.get t = some i ∧ i.peer_key ≠ peer_key ∧
        r.evicts peer_key now ≠ some t) := by
  unfold issue at h
  dsimp only at h
  rw [Table.get_insert] at h
  by_cases ht : t = token
  · rw [if_pos ht] at h
    exact .inl ⟨ht, (Option.some_inj.1 h).symm⟩
  · rw [if_neg ht] at h
    right
    have hkept {e : Table Bytes Issued}
        (he : e = (r.prune now).issued.retain fun _ i => i.peer_key ≠ peer_key)
        (hget : e.get t = some i) : r.issued.get t = some i ∧ i.peer_key ≠ peer_key := by
      rw [he, Table.get_retain] at hget
      obtain ⟨hold, hkey⟩ := Option.filter_eq_some_iff.1 hget
      exact ⟨get_prune_issued hold, of_decide_eq_true hkey⟩
    unfold evicts
    dsimp only
    by_cases hfull : MAX_TOKENS ≤
        ((r.prune now).issued.retain fun _ i => i.peer_key ≠ peer_key).pairs.length
    · rw [if_pos hfull] at h ⊢
      split at h
      · next oldest holdest =>
          obtain ⟨hne, hget⟩ := Table.get_of_get_erase h
          rw [holdest]
          refine ⟨ht, (hkept rfl hget).1, (hkept rfl hget).2, fun he => ?_⟩
          exact hne (Option.some_inj.1 he).symm
      · next hnone =>
          rw [hnone]
          exact ⟨ht, (hkept rfl h).1, (hkept rfl h).2, nofun⟩
    · rw [if_neg hfull] at h ⊢
      exact ⟨ht, (hkept rfl h).1, (hkept rfl h).2, nofun⟩

/-- A token that is presented is looked up, and gone. -/
theorem redeem_issued (r : ResumeTokens) (peer_key : PublicKey) {token : Bytes} (now : Instant)
    (h : token.length = TOKEN_LEN) :
    (r.redeem peer_key token now).1.issued = r.issued.erase token := by
  unfold redeem
  rw [if_neg (not_not.2 h)]
  cases hget : r.issued.get token with
  | none => exact (Table.erase_of_get_eq_none hget).symm
  | some issued =>
      dsimp only
      split <;> rfl

theorem redeem_of_length {r : ResumeTokens} {peer_key : PublicKey} {token : Bytes} {now : Instant}
    (h : token.length ≠ TOKEN_LEN) : r.redeem peer_key token now = (r, false) := by
  unfold redeem
  rw [if_pos h]

/-- What a successful redeem has checked, and the grant that it leaves. -/
theorem redeem_true {r : ResumeTokens} {peer_key : PublicKey} {token : Bytes} {now : Instant}
    (h : (r.redeem peer_key token now).2 = true) :
    (∃ expires, r.issued.get token = some { peer_key, expires } ∧ now < expires) ∧
      (r.redeem peer_key token now).1.grants =
        r.grants.insert peer_key.device_id (now + RESUME_GRANT) := by
  unfold redeem at h ⊢
  by_cases hlen : token.length ≠ TOKEN_LEN
  · rw [if_pos hlen] at h
    cases h
  · rw [if_neg hlen] at h ⊢
    cases hget : r.issued.get token with
    | none =>
        rw [hget] at h
        cases h
    | some issued =>
        rw [hget] at h
        dsimp only at h ⊢
        by_cases hvalid : issued.peer_key = peer_key ∧ now < issued.expires
        · rw [if_pos hvalid]
          exact ⟨⟨issued.expires, by rw [← hvalid.1], hvalid.2⟩, rfl⟩
        · rw [if_neg hvalid] at h
          cases h

/-- A redeem that fails grants nothing. -/
theorem redeem_false {r : ResumeTokens} {peer_key : PublicKey} {token : Bytes} {now : Instant}
    (h : (r.redeem peer_key token now).2 = false) :
    (r.redeem peer_key token now).1.grants = r.grants := by
  unfold redeem at h ⊢
  split
  · rfl
  · next hlen =>
      rw [if_neg hlen] at h
      cases hget : r.issued.get token with
      | none => rfl
      | some issued =>
          rw [hget] at h
          dsimp only at h ⊢
          by_cases hvalid : issued.peer_key = peer_key ∧ now < issued.expires
          · rw [if_pos hvalid] at h
            cases h
          · rw [if_neg hvalid]

/-- What is issued after a call was issued before, and the call has not ended it, or is issued by
it. -/
theorem get_call_issued {d : Desk} {q : Request} {t : Bytes} {i : Issued}
    (ht : ∀ i, d.store.issued.get t = some i → t.length = TOKEN_LEN)
    (h : (d.store.call q).issued.get t = some i) :
    (q.call = .issue i.peer_key t ∧ i.expires = q.now + TOKEN_LIFETIME) ∨
      (d.store.issued.get t = some i ∧ ¬ voids (d, q) i.peer_key t) := by
  obtain ⟨c, now⟩ := q
  cases c with
  | issue peer_key token =>
      -- An older token survives an issue unless it is of the same key, or had to make room.
      rcases get_issue h with ⟨rfl, rfl⟩ | ⟨hne, hget, hkey, hevict⟩
      · exact .inl ⟨rfl, rfl⟩
      · refine .inr ⟨hget, ?_⟩
        rintro (⟨other, hc⟩ | hc | ⟨key, hc⟩ | ⟨key, other, hc, he⟩)
        · exact hkey (Call.issue.inj hc).1.symm
        · cases hc
        · cases hc
        · rw [← (Call.issue.inj hc).1] at he
          exact hevict he
  | hold peer token lifetime_secs =>
      have hsame : (d.store.hold peer token lifetime_secs now).issued = d.store.issued := by
        unfold hold
        split
        · rfl
        · split <;> rfl
      change (d.store.hold peer token lifetime_secs now).issued.get t = some i at h
      rw [hsame] at h
      exact .inr ⟨h, by simp [voids]⟩
  | redeem peer_key token =>
      change (d.store.redeem peer_key token now).1.issued.get t = some i at h
      by_cases hlen : token.length = TOKEN_LEN
      · rw [redeem_issued _ _ _ hlen] at h
        obtain ⟨hne, hget⟩ := Table.get_of_get_erase h
        exact .inr ⟨hget, by simp [voids, Ne.symm hne]⟩
      · -- only tokens of the right length are issued
        rw [redeem_of_length hlen] at h
        have hne : t ≠ token := fun he => hlen (he ▸ ht i h)
        exact .inr ⟨h, by simp [voids, Ne.symm hne]⟩
  | forget peer =>
      change (d.store.forget peer).issued.get t = some i at h
      unfold forget at h
      rw [Table.get_retain] at h
      obtain ⟨hget, hkey⟩ := Option.filter_eq_some_iff.1 h
      have hne : i.peer_key.device_id ≠ peer := of_decide_eq_true hkey
      exact .inr ⟨hget, by simp [voids, Ne.symm hne]⟩
  | prune => exact .inr ⟨get_prune_issued h, by simp [voids]⟩

/-- A grant after a call was there before and survived it, or the call redeemed a token. -/
theorem get_call_grants {d : Desk} {q : Request} {p : DeviceId} {until_ : Instant}
    (h : (d.store.call q).grants.get p = some until_) :
    (∃ peer_key token, redeems (d, q) peer_key token ∧ peer_key.device_id = p ∧
        until_ = q.now + RESUME_GRANT) ∨
      (d.store.grants.get p = some until_ ∧ q.call ≠ .forget p) := by
  obtain ⟨c, now⟩ := q
  have hprune {r : ResumeTokens} (h : (r.prune now).grants.get p = some until_) :
      r.grants.get p = some until_ := by
    unfold prune at h
    rw [Table.get_retain] at h
    exact (Option.filter_eq_some_iff.1 h).1
  cases c with
  | issue peer_key token => exact .inr ⟨hprune h, by intro hc; cases hc⟩
  | hold peer token lifetime_secs =>
      have hsame : (d.store.hold peer token lifetime_secs now).grants = d.store.grants := by
        unfold hold
        split
        · rfl
        · split <;> rfl
      change (d.store.hold peer token lifetime_secs now).grants.get p = some until_ at h
      rw [hsame] at h
      exact .inr ⟨h, by intro hc; cases hc⟩
  | redeem peer_key token =>
      change (d.store.redeem peer_key token now).1.grants.get p = some until_ at h
      -- Only a redemption that succeeds grants anything, and it grants the owner of the key.
      cases hok : (d.store.redeem peer_key token now).2 with
      | true =>
          rw [(redeem_true hok).2, Table.get_insert] at h
          by_cases hp : p = peer_key.device_id
          · rw [if_pos hp] at h
            exact .inl ⟨peer_key, token, ⟨rfl, hok⟩, hp.symm, (Option.some_inj.1 h).symm⟩
          · rw [if_neg hp] at h
            exact .inr ⟨h, by intro hc; cases hc⟩
      | false =>
          rw [redeem_false hok] at h
          exact .inr ⟨h, by intro hc; cases hc⟩
  | forget peer =>
      obtain ⟨hne, hget⟩ := Table.get_of_get_erase (k := peer) (show _ = some until_ from h)
      refine .inr ⟨hget, fun hc => ?_⟩
      exact hne (Call.forget.inj hc).symm
  | prune => exact .inr ⟨hprune h, by intro hc; cases hc⟩

/-! ## 3. The caps -/

/-- No more tokens are kept than may be. -/
def Bounded (r : ResumeTokens) : Prop :=
  r.issued.pairs.length ≤ MAX_TOKENS ∧ r.held.pairs.length ≤ MAX_TOKENS

omit [Crypto] in
theorem Bounded.prune {r : ResumeTokens} (h : r.Bounded) (now : Instant) : (r.prune now).Bounded :=
  ⟨(Table.length_retain_le _ _).trans h.1, (Table.length_retain_le _ _).trans h.2⟩

omit [Crypto] in
theorem Bounded.issue {r : ResumeTokens} (h : r.Bounded) (peer_key : PublicKey) (token : Bytes)
    (now : Instant) : (r.issue peer_key token now).Bounded := by
  refine ⟨?_, (h.prune now).2⟩
  unfold ResumeTokens.issue
  dsimp only
  generalize hkept : ((r.prune now).issued.retain fun _ i => i.peer_key ≠ peer_key) = kept
  have hle : kept.pairs.length ≤ MAX_TOKENS := by
    rw [← hkept]
    exact (Table.length_retain_le _ _).trans (h.prune now).1
  -- there is room for one more
  have hroom (e : Table Bytes Issued) (he : e.pairs.length < MAX_TOKENS) :
      (e.insert token { peer_key, expires := now + TOKEN_LIFETIME }).pairs.length ≤ MAX_TOKENS := by
    have hlen := e.length_insert token { peer_key, expires := now + TOKEN_LIFETIME }
    omega
  by_cases hfull : MAX_TOKENS ≤ kept.pairs.length
  · rw [if_pos hfull]
    have hpos : 0 < kept.pairs.length := by
      have hmax : MAX_TOKENS = 64 := rfl
      omega
    obtain ⟨oldest, hmin, hhas⟩ := Table.exists_min_by_key hpos Issued.expires
    rw [hmin]
    refine hroom (kept.erase oldest) ?_
    have hlen := kept.length_erase oldest
    rw [if_pos hhas] at hlen
    omega
  · rw [if_neg hfull]
    refine hroom _ ?_
    omega

omit [Crypto] in
theorem Bounded.hold {r : ResumeTokens} (h : r.Bounded) (peer : DeviceId) (token : Bytes)
    (lifetime_secs : Nat) (now : Instant) : (r.hold peer token lifetime_secs now).Bounded := by
  unfold ResumeTokens.hold
  by_cases hlen : token.length ≠ TOKEN_LEN
  · rw [if_pos hlen]
    exact h
  · rw [if_neg hlen]
    by_cases hfull : (!r.held.has peer && decide (MAX_TOKENS ≤ r.held.pairs.length)) = true
    · rw [if_pos hfull]
      exact h
    · rw [if_neg hfull]
      refine ⟨h.1, ?_⟩
      have hins := r.held.length_insert peer
        { token, expires := now + min (lifetime_secs * 1000) TOKEN_LIFETIME }
      have hheld := h.2
      dsimp only
      by_cases hhas : r.held.has peer = true
      · rw [if_pos hhas] at hins
        omega
      · simp [hhas] at hfull
        omega

theorem Bounded.call {r : ResumeTokens} (h : r.Bounded) (q : Request) : (r.call q).Bounded := by
  unfold ResumeTokens.call
  split
  · exact h.issue _ _ _
  · exact h.hold _ _ _ _
  · next peer_key token _ =>
      unfold redeem
      split
      · exact h
      · split
        · exact h
        · have herase : (r.issued.erase token).pairs.length ≤ MAX_TOKENS :=
            (Nat.le_of_add_right_le (Nat.le_of_eq (r.issued.length_erase token))).trans h.1
          dsimp only
          split
          · exact ⟨herase, h.2⟩
          · exact ⟨herase, h.2⟩
  · next peer _ =>
      refine ⟨(Table.length_retain_le _ _).trans h.1, ?_⟩
      exact (Nat.le_of_add_right_le (Nat.le_of_eq (r.held.length_erase peer))).trans h.2
  · exact h.prune _

/-! ## 4. Histories -/

/-- What a history says about the tokens and grants at its end. -/
structure Standing (tr : List (Desk × Request)) (d : Desk) : Prop where
  issued : ∀ token i, d.store.issued.get token = some i →
    ∃ a p b, tr = a ++ p :: b ∧ p.2.call = .issue i.peer_key token ∧
      i.expires = p.2.now + TOKEN_LIFETIME ∧ ∀ x ∈ b, ¬ voids x i.peer_key token
  granted : ∀ p until_, d.store.grants.get p = some until_ →
    ∃ a x b peer_key token, tr = a ++ x :: b ∧ redeems x peer_key token ∧
      peer_key.device_id = p ∧ until_ = x.2.now + RESUME_GRANT ∧ ∀ y ∈ b, y.2.call ≠ .forget p
  given : ∀ token, token ∈ d.given ↔ ∃ x ∈ tr, ∃ key, x.2.call = .issue key token
  keyed : ∀ x ∈ tr, ∀ y ∈ tr, ∀ key key' token, x.2.call = .issue key token →
    y.2.call = .issue key' token → key = key'
  sized : ∀ token ∈ d.given, token.length = TOKEN_LEN
  spent : ∀ x ∈ tr, ∀ key token, redeems x key token →
    token ∈ d.given ∧ d.store.issued.get token = none
  clock : ∀ x ∈ tr, x.2.now ≤ d.clock
  bounded : d.store.Bounded

variable {tr : List (Desk × Request)} {d : Desk}

/-- Whoever has a token that is good got it from a call of the history. -/
theorem Standing.mem_given (h : Standing tr d) {token : Bytes} {i : Issued}
    (hget : d.store.issued.get token = some i) : token ∈ d.given := by
  obtain ⟨a, p, b, rfl, hcall, _⟩ := h.issued token i hget
  exact (h.given token).2 ⟨p, by simp, i.peer_key, hcall⟩

theorem Standing.step (h : Standing tr d) {q : Request} (he : desk.enabled d q) :
    Standing (tr ++ [(d, q)]) (desk.step d q) := by
  have hlen (t : Bytes) (i : Issued) (hget : d.store.issued.get t = some i) :
      t.length = TOKEN_LEN := h.sized t (h.mem_given hget)
  have hmem {x : Desk × Request} (hx : x ∈ tr ++ [(d, q)]) : x ∈ tr ∨ x = (d, q) :=
    (List.mem_append.1 hx).imp_right List.mem_singleton.1
  constructor
  case issued =>
    intro token i hget
    rcases get_call_issued (hlen token) hget with ⟨hcall, hexpires⟩ | ⟨hold, hvoid⟩
    · exact ⟨tr, (d, q), [], rfl, hcall, hexpires, fun x hx => absurd hx List.not_mem_nil⟩
    · obtain ⟨a, p, b, rfl, hcall, hexpires, hsince⟩ := h.issued token i hold
      refine ⟨a, p, b ++ [(d, q)], by simp, hcall, hexpires, fun x hx => ?_⟩
      rcases List.mem_append.1 hx with hx | hx
      · exact hsince x hx
      · rw [List.mem_singleton.1 hx]
        exact hvoid
  case granted =>
    intro p until_ hget
    rcases get_call_grants hget with ⟨key, token, hredeem, hid, huntil⟩ | ⟨hold, hcall⟩
    · exact ⟨tr, (d, q), [], key, token, rfl, hredeem, hid, huntil,
        fun x hx => absurd hx List.not_mem_nil⟩
    · obtain ⟨a, x, b, key, token, rfl, hredeem, hid, huntil, hsince⟩ := h.granted p until_ hold
      refine ⟨a, x, b ++ [(d, q)], key, token, by simp, hredeem, hid, huntil, fun y hy => ?_⟩
      rcases List.mem_append.1 hy with hy | hy
      · exact hsince y hy
      · rw [List.mem_singleton.1 hy]
        exact hcall
  case given =>
    intro token
    have hnew : token ∈ q.call.gives ↔ ∃ key, q.call = .issue key token := by
      unfold Call.gives
      split
      · next key other hcall =>
          rw [List.mem_singleton]
          constructor
          · rintro rfl
            exact ⟨key, hcall⟩
          · rintro ⟨key', hcall'⟩
            exact (Call.issue.inj (hcall.symm.trans hcall')).2.symm
      · next hother =>
          refine ⟨fun hm => absurd hm List.not_mem_nil, fun ⟨key, hcall⟩ => ?_⟩
          exact absurd hcall (hother key token)
    change token ∈ q.call.gives ++ d.given ↔ _
    rw [List.mem_append, hnew, h.given token]
    constructor
    · rintro (⟨key, hcall⟩ | ⟨x, hx, key, hcall⟩)
      · exact ⟨(d, q), by simp, key, hcall⟩
      · exact ⟨x, List.mem_append_left _ hx, key, hcall⟩
    · rintro ⟨x, hx, key, hcall⟩
      rcases hmem hx with hx | rfl
      · exact .inr ⟨x, hx, key, hcall⟩
      · exact .inl ⟨key, hcall⟩
  case keyed =>
    intro x hx y hy key key' token hcall hcall'
    -- a token that is issued now was not issued before
    have hfresh (x : Desk × Request) (hx : x ∈ tr) (k k' : PublicKey)
        (hcall : x.2.call = .issue k token) : q.call ≠ .issue k' token := fun hnow =>
      (he.2 k' token hnow).2 ((h.given token).2 ⟨x, hx, k, hcall⟩)
    rcases hmem hx with hx | rfl
    · rcases hmem hy with hy | rfl
      · exact h.keyed x hx y hy key key' token hcall hcall'
      · exact absurd hcall' (hfresh x hx key key' hcall)
    · rcases hmem hy with hy | rfl
      · exact absurd hcall (hfresh y hy key' key hcall')
      · exact (Call.issue.inj (hcall.symm.trans hcall')).1
  case sized =>
    intro token hm
    rcases List.mem_append.1 hm with hm | hm
    · unfold Call.gives at hm
      split at hm
      · next key other hcall =>
          rw [List.mem_singleton.1 hm]
          exact (he.2 key other hcall).1
      · exact absurd hm List.not_mem_nil
    · exact h.sized token hm
  case spent =>
    intro x hx key token hredeem
    have hgone (hgiven : token ∈ d.given)
        (hnow : d.store.issued.get token = none ∨ ∃ key, q.call = .redeem key token) :
        token ∈ (desk.step d q).given ∧ (desk.step d q).store.issued.get token = none := by
      refine ⟨List.mem_append_right _ hgiven, ?_⟩
      by_contra hsome
      obtain ⟨i, hget⟩ := Option.ne_none_iff_exists'.1 hsome
      rcases get_call_issued (hlen token) hget with ⟨hcall, _⟩ | ⟨hold, hvoid⟩
      · exact (he.2 _ _ hcall).2 hgiven
      · rcases hnow with hnone | ⟨key, hcall⟩
        · cases hnone.symm.trans hold
        · exact hvoid (.inr (.inr (.inl ⟨key, hcall⟩)))
    rcases hmem hx with hx | rfl
    · obtain ⟨hgiven, hnone⟩ := h.spent x hx key token hredeem
      exact hgone hgiven (.inl hnone)
    · obtain ⟨⟨expires, hget, _⟩, _⟩ := redeem_true hredeem.2
      exact hgone (h.mem_given hget) (.inr ⟨key, hredeem.1⟩)
  case clock =>
    intro x hx
    rcases hmem hx with hx | rfl
    · exact (h.clock x hx).trans he.1
    · exact Nat.le_refl _
  case bounded => exact h.bounded.call q

theorem run_standing (hr : desk.Run tr d) : Standing tr d := by
  induction hr with
  | start h =>
      rw [show _ = _ from h]
      have hnil {x : Desk × Request} (hx : x ∈ ([] : List (Desk × Request))) : False :=
        List.not_mem_nil hx
      refine ⟨fun _ _ hget => ?_, fun _ _ hget => ?_, fun token => ?_,
        fun x hx => (hnil hx).elim, fun _ hm => absurd hm List.not_mem_nil,
        fun x hx => (hnil hx).elim, fun x hx => (hnil hx).elim, ⟨Nat.zero_le _, Nat.zero_le _⟩⟩
      · cases hget
      · cases hget
      · exact ⟨fun hm => absurd hm List.not_mem_nil, fun ⟨x, hx, _⟩ => (hnil hx).elim⟩
  | next _ he ih => exact ih.step he

/-! ## 5. Grants -/

/-- A history in which grants are earned. -/
structure Grants (tr : List (Desk × Request)) (d : Desk) : Prop where
  /-- a redeem that succeeds presents, in time, the latest token of its key -/
  earned : ∀ before x after key token, tr = before ++ x :: after → redeems x key token →
    ∃ a p b, before = a ++ p :: b ∧ p.2.call = .issue key token ∧
      x.2.now < p.2.now + TOKEN_LIFETIME ∧ ∀ y ∈ b, ¬ voids y key token
  /-- a token belongs to one key -/
  bound : ∀ x ∈ tr, ∀ y ∈ tr, ∀ key key' token, x.2.call = .issue key token →
    redeems y key' token → key = key'
  /-- and is redeemed once -/
  once : ∀ before x between y after key key' token,
    tr = before ++ x :: (between ++ y :: after) → redeems x key token → ¬ redeems y key' token
  /-- what is resumed was redeemed a moment ago, and not forgotten since -/
  recent : ∀ p t, d.clock ≤ t → d.store.resumed_recently p t = true →
    ∃ before x after key token, tr = before ++ x :: after ∧ redeems x key token ∧
      key.device_id = p ∧ x.2.now ≤ t ∧ t < x.2.now + RESUME_GRANT ∧
      ∀ y ∈ after, y.2.call ≠ .forget p
  caps : d.store.issued.pairs.length ≤ MAX_TOKENS ∧ d.store.held.pairs.length ≤ MAX_TOKENS

theorem resume_grants (hr : desk.Run tr d) : Grants tr d := by
  have hstanding := run_standing hr
  constructor
  case earned =>
    rintro before x after key token rfl hredeem
    obtain ⟨hbefore, _⟩ := hr.before
    obtain ⟨⟨expires, hget, htime⟩, _⟩ := redeem_true hredeem.2
    obtain ⟨a, p, b, hsplit, hcall, hexpires, hsince⟩ := (run_standing hbefore).issued token _ hget
    have htime : x.2.now < p.2.now + TOKEN_LIFETIME := hexpires ▸ htime
    exact ⟨a, p, b, hsplit, hcall, htime, hsince⟩
  case bound =>
    intro x hx y hy key key' token hcall hredeem
    obtain ⟨before, after, rfl⟩ := List.append_of_mem hy
    obtain ⟨hbefore, _⟩ := hr.before
    obtain ⟨⟨expires, hget, _⟩, _⟩ := redeem_true hredeem.2
    obtain ⟨a, p, b, rfl, hcall', _⟩ := (run_standing hbefore).issued token _ hget
    exact hstanding.keyed x hx p (by simp) key key' token hcall hcall'
  case once =>
    rintro before x between y after key key' token rfl hredeem hagain
    rw [← List.cons_append, ← List.append_assoc] at hr
    obtain ⟨hbefore, _⟩ := hr.before
    have hspent := (run_standing hbefore).spent x (by simp) key token hredeem
    obtain ⟨⟨expires, hget, _⟩, _⟩ := redeem_true hagain.2
    cases hspent.2.symm.trans hget
  case recent =>
    intro p t hclock hrecent
    unfold resumed_recently at hrecent
    split at hrecent
    · next until_ hget =>
        obtain ⟨a, x, b, key, token, rfl, hredeem, hid, huntil, hsince⟩ :=
          hstanding.granted p until_ hget
        have htime : t < until_ := of_decide_eq_true hrecent
        rw [huntil] at htime
        exact ⟨a, x, b, key, token, rfl, hredeem, hid,
          (hstanding.clock x (by simp)).trans hclock, htime, hsince⟩
    · cases hrecent
  case caps => exact hstanding.bounded

end

namespace Sample

open SoundPush.Sample

def token : Bytes := List.replicate TOKEN_LEN 7

/-- A peer gets a token, and presents it a minute later; then it presents it again. -/
def reconnects : List Request :=
  [⟨.issue peer_key token, 0⟩, ⟨.redeem peer_key token, 60000⟩, ⟨.redeem peer_key token, 70000⟩]

def opened : Desk := { store := .default, clock := 0, given := [] }

theorem reconnects_admitted : desk.Admits opened reconnects := by
  refine ⟨⟨by decide, fun key t hcall => ?_⟩, ⟨by decide, nofun⟩, ⟨by decide, nofun⟩, trivial⟩
  obtain ⟨_, rfl⟩ := Call.issue.inj hcall
  exact ⟨by decide, by decide⟩

theorem resume_grants_reconnects :
    Grants (desk.trace opened reconnects) (desk.exec opened reconnects) ∧
      (desk.exec opened reconnects).store.resumed_recently peer 80000 = true ∧
      (desk.exec opened reconnects).store.resumed_recently peer 90000 = false :=
  ⟨resume_grants (Machine.run_of_admits rfl reconnects_admitted), by decide, by decide⟩

end Sample

end ResumeTokens

end SoundPush
