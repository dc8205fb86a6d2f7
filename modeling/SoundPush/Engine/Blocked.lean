/-
`Blocked` -- what a block lasts through.

The handshake of a blocked device is refused, but a connection of the device that
waited to pair before it was trusted, or was pairing when it was blocked, is left
to itself. Its pairing may complete later, and the record that this writes is not
blocked. `block_sticks` says that nothing else undoes a block.

One property of the store is followed, `TrustStore.blocks`, and one lemma says which
moves can undo it: the user's own commands, and a pairing that completes
(`Move.blocks`). The rest is about when a pairing counts as the user's word.
`Sticks` is stated over the steps since the block, because a pairing that began
after the block and that the user confirms is a new decision, while one that was
under way is not.
-/
import SoundPush.Engine.PairingSound

set_option autoImplicit false

namespace SoundPush

/-- The device is in the store, and blocked. -/
def TrustStore.blocks (t : TrustStore) (id : DeviceId) : Prop :=
  ∃ d, t.get id = some d ∧ d.blocked = true

section
variable [Crypto]

/-! ## 1. The user's word -/

namespace Moment

/-- The user lifts the block: unblocks the device, forgets it, or confirms a pairing with it that
began on its connection in one of the `later` steps. -/
def unblocks (q : Moment) (id : DeviceId) (later : List Moment) : Prop :=
  match q.2.event with
  | .Command (.SetBlocked device_id blocked) => device_id = id ∧ blocked = false
  | .Command (.ForgetDevice device_id) => device_id = id
  | .Command (.ConfirmPairing device_id accept) =>
      device_id = id ∧ accept = true ∧ ∃ record, q.1.actor.pairings.get id = some record ∧
        ∃ r ∈ later, ∃ begun, r.1.actor.begins r.2.env r.2.event id begun ∧
          begun.conn_id = record.conn_id
  | _ => False

/-- The event completes no pairing of the device, but for one that the user confirms now and that
began in the `later` steps. -/
def respects_block (q : Moment) (id : DeviceId) (later : List Moment) : Prop :=
  ∀ record, q.1.actor.completes q.2.env q.2.event id record → q.unblocks id later

end Moment

/-- After a block the device stays blocked until the user lifts it; `later` are the steps since. -/
def Sticks (id : DeviceId) (later : List Moment) (w : World) : Prop :=
  w.actor.trust.blocks id ∨ ∃ tr q tr', later = tr ++ q :: tr' ∧ q.unblocks id tr

/-! ## 2. One step -/

namespace Actor

theorem set_blocked_blocks {env : Env} (s : Actor) {id : DeviceId} {d : TrustedDevice}
    (h : s.trust.get id = some d) : (s.set_blocked env id true).trust.blocks id := by
  refine ⟨{ d with blocked := true }, ?_, rfl⟩
  unfold set_blocked
  dsimp only
  rw [if_pos rfl, revoke_trust, TrustStore.get_update, if_pos rfl, h, Option.map_some]

/-- A move lifts a block only on the user's word or with a pairing. -/
theorem Move.blocks {env : Env} {s₀ s s' : Actor} {event : Event} {id : DeviceId}
    (hmove : Move env s₀ event s s') (hset : event ≠ .Command (.SetBlocked id false))
    (hforget : event ≠ .Command (.ForgetDevice id)) (hpair : ∀ p, ¬ s₀.completes env event id p)
    (h : s.trust.blocks id) : s'.trust.blocks id := by
  obtain ⟨d, hd, hblocked⟩ := h
  -- An update of another device leaves this one; an update of this one keeps the block if the
  -- function does.
  have hupdate {k : DeviceId} {f : TrustedDevice → TrustedDevice} {ok : Bool}
      (hf : k = id → (f d).blocked = true) : (s.trust.update k f ok).blocks id := by
    unfold TrustStore.blocks
    rw [TrustStore.get_update]
    split
    · next hk =>
        rw [hd]
        exact ⟨f d, rfl, hf hk.symm⟩
    · exact ⟨d, hd, hblocked⟩
  cases hmove with
  | upkeep hup => exact ⟨d, hup.standing.trust ▸ hd, hblocked⟩
  | open_route _ _ _ hs _ => exact ⟨d, hs.standing.trust ▸ hd, hblocked⟩
  -- The vital parts of every device are the same, and the block is one of them.
  | trust t ht _ =>
      have hvital := ht id
      rw [hd, Option.map_some] at hvital
      obtain ⟨d', hd', he⟩ := Option.map_eq_some_iff.1 hvital
      exact ⟨d', hd', (TrustedDevice.vital_eq.1 he).2.2.1.trans hblocked⟩
  | judge k blocked ok _ he =>
      refine hupdate fun hk => ?_
      cases blocked with
      | false => exact absurd (hk ▸ he) hset
      | true => rfl
  | permit => exact hupdate fun _ => hblocked
  | forget k ok _ he =>
      refine ⟨d, ?_, hblocked⟩
      dsimp only
      rw [TrustStore.get_remove, if_neg, hd]
      rintro rfl
      exact hforget he
  | pair k p hc =>
      refine ⟨d, ?_, hblocked⟩
      dsimp only
      rw [TrustStore.get_upsert, if_neg, hd]
      intro hk
      obtain rfl : id = k := hk
      exact hpair p hc
  | _ => exact ⟨d, hd, hblocked⟩

end Actor

theorem World.Sound.blocks_step {Known : PublicKey → Prop} {w : World} {i : Input}
    (hw : w.Sound Known) {id : DeviceId} {later : List Moment} (h : w.actor.trust.blocks id)
    (hr : Moment.respects_block (w, i) id later) :
    (w.step i).actor.trust.blocks id ∨ Moment.unblocks (w, i) id later := by
  by_cases hu : Moment.unblocks (w, i) id later
  · exact .inr hu
  · refine .inl ((hw.moves i).invariant (P := fun a => a.trust.blocks id) (fun a b hmove => ?_) h)
    refine hmove.blocks (fun he => hu ?_) (fun he => hu ?_) fun p hc => hu (hr p hc)
    · unfold Moment.unblocks
      rw [he]
      exact ⟨rfl, rfl⟩
    · unfold Moment.unblocks
      rw [he]

/-! ## 3. Runs -/

/-- In every run in which, after a block, no pairing of the device completes but one that the user
confirms and that began after the block, the block sticks. -/
theorem block_sticks {Known : PublicKey → Prop} {tr later : List Moment} {p : Moment} {w : World}
    {id : DeviceId} (hr : (engine Known).Run (tr ++ p :: later) w)
    (hp : p.2.event = .Command (.SetBlocked id true)) (hd : p.1.actor.trust.get id ≠ none)
    (hg : ∀ tr₁ q tr₂, later = tr₁ ++ q :: tr₂ → q.respects_block id tr₁) :
    Sticks id later w := by
  obtain ⟨d, hd⟩ := Option.ne_none_iff_exists'.1 hd
  have hblock : (p.1.step p.2).actor.trust.blocks id := by
    rw [World.step_actor, hp, Actor.handle, Actor.handle_command]
    exact p.1.met.set_blocked_blocks hd
  refine hr.since (P := fun later w => (∀ (tr₁ : List Moment) (q : Moment) tr₂,
    later = tr₁ ++ q :: tr₂ → q.respects_block id tr₁) → Sticks id later w)
    (fun _ => .inl hblock) ?_ hg
  intro later w i hrun he ih hg
  have hbefore : Sticks id later w := by
    refine ih fun tr₁ q tr₂ h => hg tr₁ q (tr₂ ++ [(w, i)]) ?_
    rw [h, List.append_assoc, List.cons_append]
  rcases hbefore with hb | ⟨tr₁, q, tr₂, rfl, hu⟩
  · refine ((run_sound hrun).blocks_step hb (hg later (w, i) [] rfl)).imp_right fun hu => ?_
    exact ⟨later, (w, i), [], rfl, hu⟩
  · refine .inr ⟨tr₁, q, tr₂ ++ [(w, i)], ?_, hu⟩
    rw [List.append_assoc, List.cons_append]

end

namespace Sample

/-- The peer connects twice and pairs on one connection. Then the other one asks to pair as well,
and the user confirms this too. -/
def pairs_twice : List Input :=
  ⟨env, .Command (.ForgetDevice peer)⟩ :: ⟨env, .Command (.StartPairing 1)⟩ ::
    (connects 1 peer peer_key ++ connects 2 peer peer_key ++
      [⟨env, .Control 1 (.PairRequest ⟨none⟩)⟩, ⟨env, .Command (.ConfirmPairing peer true)⟩,
        ⟨env, .Control 1 (.PairResult true)⟩, ⟨env, .Control 2 (.PairRequest ⟨none⟩)⟩,
        ⟨env, .Command (.ConfirmPairing peer true)⟩])

def block : Input := ⟨env, .Command (.SetBlocked peer true)⟩

theorem pairs_twice_admitted (es : List Input)
    (h : (engine Known).Admits ((engine Known).exec (start .default) (pairs_twice ++ [block])) es) :
    (engine Known).Admits (start .default) (pairs_twice ++ block :: es) := by
  refine ⟨trivial, trivial, .inl rfl, ⟨⟨_, List.mem_singleton.2 rfl, ?_⟩, ?_⟩, .inl rfl,
    ⟨⟨_, List.mem_singleton.2 rfl, ?_⟩, ?_⟩, ?_, trivial, ?_, ?_, trivial, trivial, h⟩
  · simp [Call.reports]
    rfl
  · decide
  · simp [Call.reports]
    rfl
  · decide
  · exact List.mem_cons_of_mem _ List.mem_cons_self
  · exact List.mem_cons_of_mem _ List.mem_cons_self
  · exact List.mem_cons_self

end Sample

open Sample in
/-- The second connection's answer comes after the block, and lifts it. -/
theorem block_lifted_by_old_pairing :
    let w := (engine Known).exec (start .default) pairs_twice
    let answer : Input := ⟨env, .Control 2 (.PairResult true)⟩
    let later : List Moment := [(w.step block, answer)]
    (engine Known).Run ((engine Known).trace (start .default) pairs_twice ++ (w, block) :: later)
        ((w.step block).step answer) ∧
      w.actor.trust.get peer ≠ none ∧ ¬ Sticks peer later ((w.step block).step answer) := by
  refine ⟨?_, by decide +kernel, ?_⟩
  · have hrun := Machine.run_of_admits (start_init .default)
      (pairs_twice_admitted [⟨env, .Control 2 (.PairResult true)⟩] ⟨?_, trivial⟩)
    · rw [Machine.trace_append] at hrun
      exact hrun
    · show 2 ∈ World.live _
      decide +kernel
  · rintro (⟨d, hd, hblocked⟩ | ⟨tr, q, tr', he, hu⟩)
    · have hget : ∀ d ∈ (((((engine Known).exec (start .default) pairs_twice).step block).step
          ⟨env, .Control 2 (.PairResult true)⟩).actor.trust.get peer), d.blocked = false := by
        decide +kernel
      exact absurd (hget d hd) (by rw [hblocked]; decide)
    · cases tr with
      | nil =>
          obtain ⟨rfl, _⟩ := List.cons.inj he
          exact hu
      | cons _ _ => simp at he

open Sample in
/-- A blocked peer may connect again; it stays blocked. -/
theorem block_sticks_reconnect :
    let w := (engine Known).exec (start .default) (connects 1 peer peer_key)
    let later := (engine Known).trace (w.step block) (connects 2 peer peer_key)
    Sticks peer later ((engine Known).exec (w.step block) (connects 2 peer peer_key)) := by
  have hadmits : (engine Known).Admits (start .default)
      (connects 1 peer peer_key ++ block :: connects 2 peer peer_key) := by
    refine ⟨.inl rfl, ⟨⟨_, List.mem_singleton.2 rfl, ?_⟩, ?_⟩, trivial, .inl rfl,
      ⟨⟨_, List.mem_singleton.2 rfl, ?_⟩, ?_⟩, trivial⟩
    · simp [Call.reports]
      rfl
    · decide
    · simp [Call.reports]
      rfl
    · decide
  have hrun := Machine.run_of_admits (start_init .default) hadmits
  rw [Machine.trace_append] at hrun
  refine block_sticks hrun rfl (by decide +kernel) fun tr q tr' h record hc => ?_
  have hq : q ∈ (engine Known).trace _ (connects 2 peer peer_key) := h ▸ List.mem_append_cons_self
  simp only [connects, Machine.trace, List.mem_cons, List.not_mem_nil, or_false] at hq
  rcases hq with rfl | rfl
  · exact hc.elim
  · exact hc.elim

end SoundPush
