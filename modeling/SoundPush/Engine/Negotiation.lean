/-
`Negotiation` -- the profile of one route at its two ends, and the updates on their way
between them.

The route's requester proposes how it is encoded, and its source where it is denoised
(`actor/profiles.rs`). An update carries the whole profile of the end that sends it. An end that is
told keeps its own jitter bounds, and the source its own denoise flag; nothing keeps the requester's
encoding. `Coherent` is what holds as long as no update is overtaken by a change of what it carries,
and `crossed_apart` what becomes of two updates that cross.

Each of the two has one end that decides it, and `latest` is what the other end will
have been told once everything on its way has arrived. The invariant compares the
two, and asks besides that no update on its way to the requester would take its own
quality back. Every event keeps it but for a change that crosses an update, which is
what `Uncrossed` leaves out.
-/
import SoundPush.Engine.Profiles
import SoundPush.Lib.Machine

set_option autoImplicit false

namespace SoundPush

/-! ## 1. What each end decides -/

/-- What the two pipelines of a route have to agree on. -/
def StreamProfile.quality (p : StreamProfile) : Nat × Nat × Nat × Nat × Bool :=
  (p.codec, p.channels, p.frame_us, p.bitrate, p.redundancy)

section
variable {kind : RouteKind} {requested_locally : Bool} {p : StreamProfile} (wanted : StreamProfile)

theorem next_profile_denoise_source (hk : kind.local_is_source = true) :
    (next_profile kind requested_locally p wanted).denoise = wanted.denoise := by
  unfold next_profile
  rw [hk]
  cases requested_locally <;> rfl

theorem next_profile_denoise_sink (hk : kind.local_is_source = false) :
    (next_profile kind requested_locally p wanted).denoise = p.denoise := by
  unfold next_profile
  rw [hk]
  cases requested_locally <;> rfl

/-- Jitter bounds and the denoise flag are no part of the quality. -/
theorem sanitize_profile_quality {p q : StreamProfile} (h : p.quality = q.quality) :
    (sanitize_profile p).quality = (sanitize_profile q).quality := by
  unfold StreamProfile.quality at h
  simp only [Prod.mk.injEq] at h
  obtain ⟨hcodec, hchannels, hframe, hbitrate, hredundancy⟩ := h
  unfold StreamProfile.quality sanitize_profile
  dsimp only
  rw [hcodec, hchannels, hframe, hbitrate, hredundancy]

/-- Only the requester changes how a route is encoded. -/
theorem next_profile_quality (h : p.Sane) :
    (next_profile kind false p wanted).quality = p.quality := by
  conv_rhs => rw [← sanitize_profile_of_sane h]
  refine sanitize_profile_quality ?_
  cases kind.local_is_source <;> rfl

theorem updated_profile_quality (kind : RouteKind) (current : StreamProfile) {u : StreamProfile}
    (h : u.Sane) : (updated_profile kind current u).quality = u.quality := by
  unfold updated_profile
  rw [sanitize_profile_of_sane h]
  cases kind.local_is_source <;> rfl

theorem updated_profile_denoise_source (hk : kind.local_is_source = true)
    (current u : StreamProfile) :
    (updated_profile kind current u).denoise = current.denoise := by
  unfold updated_profile
  rw [hk]
  rfl

theorem updated_profile_denoise_sink (hk : kind.local_is_source = false)
    (current u : StreamProfile) : (updated_profile kind current u).denoise = u.denoise := by
  unfold updated_profile
  rw [hk]
  rfl

theorem quality_eq_of_not_changed {p q : StreamProfile} (h : quality_changed p q = false) :
    p.quality = q.quality := by
  unfold quality_changed encoding_changed at h
  simp only [Bool.or_eq_false_iff, bne_eq_false_iff_eq] at h
  obtain ⟨⟨⟨⟨⟨hcodec, hchannels⟩, hframe⟩, hbitrate⟩, hredundancy⟩, -⟩ := h
  unfold StreamProfile.quality
  rw [hcodec, hchannels, hframe, hbitrate, hredundancy]

/-- The requester changes nothing of the quality without telling its peer. -/
theorem quality_eq_of_unsent {q : StreamProfile} (h : sends_update kind true p q = false) :
    p.quality = q.quality := by
  unfold sends_update at h
  exact quality_eq_of_not_changed (Bool.or_eq_false_iff.1 h).1

/-- The source changes nothing of the denoising without telling its peer. -/
theorem denoise_eq_of_unsent {q : StreamProfile} (hk : kind.local_is_source = true)
    (h : sends_update kind requested_locally p q = false) : p.denoise = q.denoise := by
  unfold sends_update at h
  rw [hk, Bool.true_and] at h
  exact bne_eq_false_iff_eq.1 (Bool.or_eq_false_iff.1 h).2

/-- A responder tells its peer of a changed denoise flag, and of nothing else. -/
theorem sends_update_responder (kind : RouteKind) (p q : StreamProfile) :
    sends_update kind false p q = (kind.local_is_source && p.denoise != q.denoise) := rfl

end

/-! ## 2. The two ends -/

/-- The ends of a route. -/
inductive Side where
  | Requester
  | Responder
  deriving DecidableEq, Repr

namespace Side

def peer : Side → Side
  | Requester => Responder
  | Responder => Requester

/-- Whether the route was requested at this end. -/
def requested_locally : Side → Bool
  | Requester => true
  | Responder => false

/-- What the route is at this end; `kind` is what it is at its requester. -/
def kind (side : Side) (kind : RouteKind) : RouteKind :=
  match side with
  | Requester => kind
  | Responder => kind.mirrored

end Side

/-- The end that has the source. -/
def RouteKind.source_side (kind : RouteKind) : Side :=
  if kind.local_is_source then .Requester else .Responder

theorem source_side_of_source {kind : RouteKind} (h : kind.local_is_source = true) :
    kind.source_side = .Requester := if_pos h

theorem source_side_of_sink {kind : RouteKind} (h : kind.local_is_source = false) :
    kind.source_side = .Responder := if_neg (Bool.eq_false_iff.1 h)

/-- The end that has the source sees itself as the source. -/
theorem local_is_source_at {kind : RouteKind} {side : Side} (h : kind.source_side = side) :
    (side.kind kind).local_is_source = true ∧ (side.peer.kind kind).local_is_source = false := by
  subst h
  cases hk : kind.local_is_source with
  | true =>
      rw [source_side_of_source hk]
      exact ⟨hk, kind.local_is_source_mirrored.trans (by rw [hk]; rfl)⟩
  | false =>
      rw [source_side_of_sink hk]
      exact ⟨kind.local_is_source_mirrored.trans (by rw [hk]; rfl), hk⟩

structure Negotiation where
  profile : Side → StreamProfile
  /-- the updates on their way to an end, oldest first -/
  toward : Side → List StreamProfile

/-- What happens to a route that stays active. -/
inductive Negotiation.Event where
  /-- the settings of an end want another profile -/
  | change (side : Side) (wanted : StreamProfile)
  /-- the oldest update on its way to an end arrives -/
  | deliver (side : Side)

namespace Negotiation

/-- An end takes a profile, and tells its peer of it or not. -/
def take (n : Negotiation) (side : Side) (next : StreamProfile) (sent : List StreamProfile) :
    Negotiation :=
  { profile := Function.update n.profile side next
    toward := Function.update n.toward side.peer (n.toward side.peer ++ sent) }

/-- The profile an end has once its settings want `wanted`. -/
def next (kind : RouteKind) (n : Negotiation) (side : Side) (wanted : StreamProfile) :
    StreamProfile :=
  next_profile (side.kind kind) side.requested_locally (n.profile side) wanted

/-- What an end sends its peer of it. -/
def sent (kind : RouteKind) (n : Negotiation) (side : Side) (wanted : StreamProfile) :
    List StreamProfile :=
  if sends_update (side.kind kind) side.requested_locally (n.profile side)
      (n.next kind side wanted) then [n.next kind side wanted]
  else []

def step (kind : RouteKind) (n : Negotiation) : Event → Negotiation
  | .change side wanted => n.take side (n.next kind side wanted) (n.sent kind side wanted)
  | .deliver side =>
      match n.toward side with
      | [] => n
      | u :: rest =>
          { profile := Function.update n.profile side
              (updated_profile (side.kind kind) (n.profile side) u)
            toward := Function.update n.toward side rest }

/-- What an end will have been told last. -/
def latest (n : Negotiation) (side : Side) : StreamProfile :=
  (n.toward side).getLastD (n.profile side)

/-- The updates on their way are in order: each end ends up with what the end that decides has. -/
structure Coherent (kind : RouteKind) (n : Negotiation) : Prop where
  sane : ∀ side, (n.profile side).Sane
  sane_toward : ∀ side, ∀ u ∈ n.toward side, u.Sane
  /-- the requester decides the quality -/
  quality : (n.latest .Responder).quality = (n.profile .Requester).quality
  /-- the source decides the denoising -/
  denoise : (n.latest kind.source_side.peer).denoise = (n.profile kind.source_side).denoise
  /-- no update on its way to the requester would undo its quality -/
  fresh : ∀ u ∈ n.toward .Requester, u.quality = (n.profile .Requester).quality
  /-- a responder that is the sink has nothing to tell -/
  quiet : kind.source_side = .Requester → n.toward .Requester = []

/-- Neither end overtakes an update with a change of what it carries. A requester that is the source
hears nothing from its peer, so that it has nothing to wait for. -/
def Uncrossed (kind : RouteKind) (n : Negotiation) (e : Event) : Prop :=
  kind.local_is_source = false →
    match e with
    | .change .Requester wanted =>
        n.toward .Requester = [] ∨
          (n.next kind .Requester wanted).quality = (n.profile .Requester).quality
    | .change .Responder wanted =>
        wanted.denoise = (n.profile .Responder).denoise ∨
          (n.profile .Responder).quality = (n.profile .Requester).quality
    | .deliver _ => True

/-! ## 3. One step -/

section
variable {kind : RouteKind} {n : Negotiation} {side : Side} {wanted q : StreamProfile}
  {sent : List StreamProfile}

/-- What is read of the last of a list, or of what stands for it, depends on no
more of the latter. -/
theorem getLastD_congr {α β : Type} {f : α → β} {a b : α} (h : f a = f b) (l : List α) :
    f (l.getLastD a) = f (l.getLastD b) :=
  List.getLastD_map.symm.trans ((congrArg _ h).trans List.getLastD_map)

theorem latest_take_peer (side : Side) :
    (n.take side q sent).latest side.peer = sent.getLastD (n.latest side.peer) := by
  unfold latest take
  dsimp only
  rw [Function.update_self, Function.update_of_ne (by cases side <;> decide)]
  rcases List.eq_nil_or_concat sent with rfl | ⟨l, u, rfl⟩
  · rw [List.append_nil]
    rfl
  · rw [List.concat_eq_append, ← List.append_assoc, List.getLastD_concat, List.getLastD_concat]

theorem next_sane : (n.next kind side wanted).Sane := next_profile_sane _ _ _ _

theorem mem_sent {u : StreamProfile} (h : u ∈ n.sent kind side wanted) :
    u = n.next kind side wanted ∧
      sends_update (side.kind kind) side.requested_locally (n.profile side)
        (n.next kind side wanted) = true := by
  unfold Negotiation.sent at h
  split at h
  · next hs => exact ⟨List.mem_singleton.1 h, hs⟩
  · cases h

/-- The peer learns what the end that decides has. -/
theorem latest_sent {β : Type} {f : StreamProfile → β}
    (hf : sends_update (side.kind kind) side.requested_locally (n.profile side)
      (n.next kind side wanted) = false →
        f (n.profile side) = f (n.next kind side wanted))
    (h : f (n.latest side.peer) = f (n.profile side)) :
    f ((n.sent kind side wanted).getLastD (n.latest side.peer)) = f (n.next kind side wanted) := by
  unfold Negotiation.sent
  split
  · rfl
  · next hs => exact h.trans (hf (Bool.eq_false_iff.2 hs))

theorem Coherent.sane_take (h : n.Coherent kind) (side : Side) (wanted : StreamProfile) :
    (∀ s, ((n.take side (n.next kind side wanted) (n.sent kind side wanted)).profile s).Sane) ∧
      ∀ s, ∀ u ∈ (n.take side (n.next kind side wanted) (n.sent kind side wanted)).toward s,
        u.Sane := by
  unfold take
  refine ⟨fun s => ?_, fun s u hu => ?_⟩
  · rcases eq_or_ne s side with rfl | hne
    · dsimp only
      rw [Function.update_self]
      exact next_sane
    · dsimp only
      rw [Function.update_of_ne hne]
      exact h.sane s
  · dsimp only at hu
    rcases eq_or_ne s side.peer with rfl | hne
    · rw [Function.update_self] at hu
      rcases List.mem_append.1 hu with hu | hu
      · exact h.sane_toward _ u hu
      · rw [(mem_sent hu).1]
        exact next_sane
    · rw [Function.update_of_ne hne] at hu
      exact h.sane_toward s u hu

/-- The settings of the requester change. -/
theorem Coherent.change_requester (h : n.Coherent kind)
    (hu : n.Uncrossed kind (.change .Requester wanted)) :
    (n.step kind (.change .Requester wanted)).Coherent kind := by
  obtain ⟨hsane, hsane_toward⟩ := h.sane_take .Requester wanted
  have hfresh : ∀ u ∈ n.toward .Requester, u.quality = (n.next kind .Requester wanted).quality := by
    intro u hmem
    cases hk : kind.local_is_source with
    | true =>
        rw [h.quiet (source_side_of_source hk)] at hmem
        cases hmem
    | false =>
        rcases hu hk with hnil | hq
        · rw [hnil] at hmem
          cases hmem
        · exact (h.fresh u hmem).trans hq.symm
  refine ⟨hsane, hsane_toward, ?_, ?_, hfresh, h.quiet⟩
  · exact (congrArg _ (latest_take_peer .Requester)).trans
      (latest_sent quality_eq_of_unsent h.quality)
  · have hdenoise := h.denoise
    cases hk : kind.local_is_source with
    | true =>
        rw [source_side_of_source hk] at hdenoise ⊢
        exact (congrArg _ (latest_take_peer .Requester)).trans
          (latest_sent (denoise_eq_of_unsent hk) hdenoise)
    | false =>
        rw [source_side_of_sink hk] at hdenoise ⊢
        have hkept : (n.next kind .Requester wanted).denoise = (n.profile .Requester).denoise :=
          next_profile_denoise_sink wanted hk
        exact (getLastD_congr hkept _).trans hdenoise

/-- The settings of the responder change. -/
theorem Coherent.change_responder (h : n.Coherent kind)
    (hu : n.Uncrossed kind (.change .Responder wanted)) :
    (n.step kind (.change .Responder wanted)).Coherent kind := by
  obtain ⟨hsane, hsane_toward⟩ := h.sane_take .Responder wanted
  have hquality : (n.next kind .Responder wanted).quality = (n.profile .Responder).quality :=
    next_profile_quality wanted (h.sane .Responder)
  have hquality' := (getLastD_congr hquality (n.toward .Responder)).trans h.quality
  have hdenoise := h.denoise
  cases hk : kind.local_is_source with
  -- The requester sends the sound, so the responder has no say in its flags and writes nothing.
  | true =>
      have hside := source_side_of_source hk
      have hsink : kind.mirrored.local_is_source = false := (local_is_source_at hside).2
      have hsent : n.sent kind .Responder wanted = [] := by
        unfold Negotiation.sent
        refine if_neg (Bool.eq_false_iff.1 ((sends_update_responder _ _ _).trans ?_))
        exact Bool.and_eq_false_iff.2 (.inl hsink)
      have hkept : (n.next kind .Responder wanted).denoise = (n.profile .Responder).denoise :=
        next_profile_denoise_sink wanted hsink
      have hnil : n.toward .Requester ++ n.sent kind .Responder wanted = [] := by
        rw [hsent, List.append_nil]
        exact h.quiet hside
      rw [hside] at hdenoise
      refine ⟨hsane, hsane_toward, hquality', ?_, fun u hmem => ?_, fun _ => hnil⟩
      · rw [hside]
        exact (getLastD_congr hkept _).trans hdenoise
      · cases (congrArg (u ∈ ·) hnil).mp hmem
  -- The responder sends it: an update goes out when its flag changes, and then, uncrossed, its
  -- quality is the one that the requester has.
  | false =>
      have hside := source_side_of_sink hk
      have hsource : kind.mirrored.local_is_source = true := (local_is_source_at hside).1
      rw [hside] at hdenoise
      refine ⟨hsane, hsane_toward, hquality', ?_, fun u hmem => ?_, fun hk => ?_⟩
      · rw [hside]
        exact (congrArg _ (latest_take_peer .Responder)).trans
          (latest_sent (denoise_eq_of_unsent hsource) hdenoise)
      · rcases List.mem_append.1 hmem with hmem | hmem
        · exact h.fresh u hmem
        · -- it is sent for a changed flag, with the quality that the requester has
          obtain ⟨rfl, hs⟩ := mem_sent hmem
          obtain ⟨-, hne⟩ := Bool.and_eq_true_iff.1 ((sends_update_responder _ _ _).symm.trans hs)
          refine hquality.trans ((hu hk).resolve_left fun heq => bne_iff_ne.1 hne ?_)
          exact heq.symm.trans (next_profile_denoise_source wanted hsource).symm
      · cases hk.symm.trans hside

/-- An update arrives at the requester: the requester is the sink. -/
theorem Coherent.deliver_requester (h : n.Coherent kind) {u : StreamProfile}
    {rest : List StreamProfile} (htoward : n.toward .Requester = u :: rest) :
    Coherent kind
      { profile := Function.update n.profile .Requester
          (updated_profile kind (n.profile .Requester) u)
        toward := Function.update n.toward .Requester rest } := by
  have hu : u ∈ n.toward .Requester := htoward ▸ List.mem_cons_self
  have hrest : ∀ v ∈ rest, v ∈ n.toward .Requester :=
    fun v hv => htoward ▸ List.mem_cons_of_mem u hv
  have hkept := (updated_profile_quality kind (n.profile .Requester) (h.sane_toward _ u hu)).trans
    (h.fresh u hu)
  have hsink : kind.local_is_source = false := by
    by_contra hk
    rw [h.quiet (source_side_of_source (Bool.not_eq_false _ ▸ hk))] at hu
    cases hu
  have hside := source_side_of_sink hsink
  refine ⟨?_, ?_, h.quality.trans hkept.symm, ?_,
    fun v hv => (h.fresh v (hrest v hv)).trans hkept.symm, fun hk => ?_⟩
  · rintro (_ | _)
    · exact updated_profile_sane kind (h.sane _).usable u
    · exact h.sane .Responder
  · rintro (_ | _) v hv
    · exact h.sane_toward _ v (hrest v hv)
    · exact h.sane_toward .Responder v hv
  · have hdenoise := h.denoise
    rw [hside] at hdenoise ⊢
    have htold := updated_profile_denoise_sink hsink (n.profile .Requester) u
    refine (getLastD_congr htold rest).trans (Eq.trans ?_ hdenoise)
    unfold latest
    rw [show n.toward Side.Responder.peer = u :: rest from htoward, List.getLastD_cons]
  · cases hk.symm.trans hside

/-- An update arrives at the responder. -/
theorem Coherent.deliver_responder (h : n.Coherent kind) {u : StreamProfile}
    {rest : List StreamProfile} (htoward : n.toward .Responder = u :: rest) :
    Coherent kind
      { profile := Function.update n.profile .Responder
          (updated_profile kind.mirrored (n.profile .Responder) u)
        toward := Function.update n.toward .Responder rest } := by
  have hu : u ∈ n.toward .Responder := htoward ▸ List.mem_cons_self
  have hrest : ∀ v ∈ rest, v ∈ n.toward .Responder :=
    fun v hv => htoward ▸ List.mem_cons_of_mem u hv
  have hlatest : n.latest .Responder = rest.getLastD u := by
    unfold latest
    rw [htoward, List.getLastD_cons]
  refine ⟨?_, ?_, ?_, ?_, h.fresh, h.quiet⟩
  · rintro (_ | _)
    · exact h.sane .Requester
    · exact updated_profile_sane kind.mirrored (h.sane _).usable u
  · rintro (_ | _) v hv
    · exact h.sane_toward .Requester v hv
    · exact h.sane_toward _ v (hrest v hv)
  · have hquality := updated_profile_quality kind.mirrored (n.profile .Responder)
      (h.sane_toward _ u hu)
    exact (getLastD_congr hquality rest).trans (hlatest ▸ h.quality)
  · have hdenoise := h.denoise
    cases hk : kind.local_is_source with
    | true =>
        have hside := source_side_of_source hk
        rw [hside] at hdenoise ⊢
        have htold := updated_profile_denoise_sink (local_is_source_at hside).2
          (n.profile .Responder) u
        exact (getLastD_congr htold rest).trans (hlatest ▸ hdenoise)
    | false =>
        have hside := source_side_of_sink hk
        rw [hside] at hdenoise ⊢
        exact hdenoise.trans
          (updated_profile_denoise_source (local_is_source_at hside).1 _ u).symm

theorem Coherent.step (h : n.Coherent kind) {e : Event} (hu : n.Uncrossed kind e) :
    (n.step kind e).Coherent kind := by
  cases e with
  | change side wanted =>
      cases side with
      | Requester => exact h.change_requester hu
      | Responder => exact h.change_responder hu
  | deliver side =>
      unfold Negotiation.step
      dsimp only
      split
      · exact h
      · next u rest htoward =>
          cases side with
          | Requester => exact h.deliver_requester htoward
          | Responder => exact h.deliver_responder htoward

/-- Once nothing is on its way, the ends agree. -/
theorem Coherent.agree (h : n.Coherent kind) (hnil : ∀ side, n.toward side = []) :
    (n.profile .Responder).quality = (n.profile .Requester).quality ∧
      (n.profile .Responder).denoise = (n.profile .Requester).denoise := by
  have hlatest (side : Side) : n.latest side = n.profile side := by
    unfold latest
    rw [hnil]
    rfl
  refine ⟨hlatest _ ▸ h.quality, ?_⟩
  have hdenoise := h.denoise
  rw [hlatest] at hdenoise
  cases hk : kind.local_is_source with
  | true =>
      rw [source_side_of_source hk] at hdenoise
      exact hdenoise
  | false =>
      rw [source_side_of_sink hk] at hdenoise
      exact hdenoise.symm

/-- Two updates that cross: the requester changes the quality of a stream it receives, the source
where it is denoised. Each takes the other's old value with the new one it is told, and the two
encodings stay apart. -/
theorem crossed_apart {p : StreamProfile} (wanted wanted' : StreamProfile)
    (hk : kind.local_is_source = false) (hp : p.Sane)
    (hquality : (next_profile kind true p wanted).quality ≠ p.quality)
    (hdenoise : wanted'.denoise ≠ p.denoise) :
    let n : Negotiation :=
      [Event.change .Requester wanted, .change .Responder wanted', .deliver .Requester,
        .deliver .Responder].foldl (step kind) ⟨fun _ => p, fun _ => []⟩
    (∀ side, n.toward side = []) ∧
      (n.profile .Responder).quality = (next_profile kind true p wanted).quality ∧
      (n.profile .Requester).quality = p.quality := by
  have hsource : kind.mirrored.local_is_source = true :=
    (local_is_source_at (source_side_of_sink hk)).1
  have hnext := next_profile_sane kind true p wanted
  have hnext' := next_profile_sane kind.mirrored false p wanted'
  have hsent : sends_update kind true p (next_profile kind true p wanted) = true := by
    by_contra hs
    exact hquality (quality_eq_of_unsent (Bool.not_eq_true _ ▸ hs)).symm
  have hsent' : sends_update kind.mirrored false p (next_profile kind.mirrored false p wanted') =
      true := by
    by_contra hs
    have heq := denoise_eq_of_unsent hsource (Bool.not_eq_true _ ▸ hs)
    exact hdenoise ((next_profile_denoise_source wanted' hsource).symm.trans heq.symm)
  have hq : (updated_profile kind.mirrored (next_profile kind.mirrored false p wanted')
      (next_profile kind true p wanted)).quality = (next_profile kind true p wanted).quality :=
    updated_profile_quality _ _ hnext
  have hr : (updated_profile kind (next_profile kind true p wanted)
      (next_profile kind.mirrored false p wanted')).quality = p.quality :=
    (updated_profile_quality _ _ hnext').trans (next_profile_quality wanted' hp)
  intro n
  refine ⟨fun side => ?_, ?_, ?_⟩
  · cases side <;>
      simp [n, step, sent, take, next, Side.kind, Side.requested_locally, Side.peer,
        Function.update, hsent, hsent']
  · simp [n, step, sent, take, next, Side.kind, Side.requested_locally, Side.peer, Function.update,
      hsent, hsent', hq]
  · simp [n, step, sent, take, next, Side.kind, Side.requested_locally, Side.peer, Function.update,
      hsent, hsent', hr]

end

end Negotiation

end SoundPush
