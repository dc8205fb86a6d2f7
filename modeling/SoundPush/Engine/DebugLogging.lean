/-
`DebugLogging` -- debug logging ends by itself, under settings updates and ticks.

Debug logging writes addresses and device names, so the engine gives it an end when it is switched
on (`schedule_debug_logging`, `sp-engine/src/settings.rs`) and a tick switches it off from then on
(`expire_debug_logging`). Every settings update sets the end anew, from what the client sends.

Nothing else of an update or a tick touches debug logging. § 1 says what the two do to it, and § 2
follows it over a run.
-/
import SoundPush.Engine.Trusted
import SoundPush.Engine.Basis

set_option autoImplicit false

namespace SoundPush

/-- Whether debug logging is on, and its end. -/
def Settings.debug (c : Settings) : Bool × Nat := (c.debug_logging, c.debug_logging_until_unix)

namespace Actor

def debug (s : Actor) : Bool × Nat := s.settings.debug

theorem debug_of_basis {s s' : Actor} (h : s'.basis = s.basis) : s'.debug = s.debug :=
  congrArg (fun b => b.settings.debug) h

theorem foldl_debug {α : Type} {f : Actor → α → Actor} (h : ∀ s x, (f s x).debug = s.debug)
    (xs : List α) (s : Actor) : (xs.foldl f s).debug = s.debug := by
  induction xs generalizing s with
  | nil => rfl
  | cons x xs ih => exact (ih (f s x)).trans (h s x)

theorem ite_debug {c : Prop} [Decidable c] {s t u : Actor} (ht : t.debug = s.debug)
    (hu : u.debug = s.debug) : (if c then t else u).debug = s.debug := by
  split
  · exact ht
  · exact hu

end Actor

/-! ## 1. What updates and ticks do to it -/

namespace Settings

variable {c : Settings} (was_on : Bool) (now_unix : Nat)

theorem schedule_on (h : c.debug_logging = true) :
    (c.schedule_debug_logging false now_unix).debug =
      (true, sat_add now_unix DEBUG_LOGGING_SECS) := by
  unfold schedule_debug_logging debug
  dsimp only
  rw [h]

/-- An update that leaves debug logging on ends it when the client says, within a day of the
update; a client that says nothing gets that day. -/
theorem schedule_kept (h : c.debug_logging = true) :
    (c.schedule_debug_logging true now_unix).debug =
      (true, if c.debug_logging_until_unix = 0 then sat_add now_unix DEBUG_LOGGING_SECS
        else min c.debug_logging_until_unix (sat_add now_unix DEBUG_LOGGING_SECS)) := by
  unfold schedule_debug_logging debug
  dsimp only
  rw [h]

theorem expire_debug (c : Settings) :
    (c.expire_debug_logging now_unix).1.debug =
      if c.debug.1 = true ∧ c.debug.2 ≤ now_unix then (false, 0) else c.debug := by
  unfold expire_debug_logging
  by_cases h : c.debug.1 = true ∧ c.debug.2 ≤ now_unix
  · rw [if_pos h, if_pos (by simpa [debug] using h)]
    rfl
  · rw [if_neg h, if_neg (by simpa [debug] using h)]

/-- The end of debug logging stays within a day of `t` when the update comes in that very second,
or when the client sends such an end. -/
theorem schedule_kept_le {t : Nat} (h : c.debug_logging = true)
    (hend : now_unix = t ∨
      (c.debug_logging_until_unix ≠ 0 ∧ c.debug_logging_until_unix ≤ t + DEBUG_LOGGING_SECS)) :
    (c.schedule_debug_logging true now_unix).debug.2 ≤ t + DEBUG_LOGGING_SECS := by
  have hlatest : sat_add now_unix DEBUG_LOGGING_SECS ≤ now_unix + DEBUG_LOGGING_SECS :=
    Nat.min_le_left _ _
  rw [schedule_kept _ h]
  dsimp only
  rcases hend with rfl | ⟨hne, hle⟩
  · split <;> omega
  · rw [if_neg hne]
    omega

end Settings

namespace Actor

variable (env : Env) (s : Actor)

theorem update_settings_debug (settings : Settings) (caller : Nat) :
    (s.update_settings env settings caller).debug =
      (settings.schedule_debug_logging s.settings.debug_logging env.now_unix).debug := by
  unfold update_settings
  dsimp only
  refine (debug_of_basis (answer_basis _ _ _)).trans
    ((debug_of_basis (apply_settings_basis env _ _)).trans
      ((debug_of_basis (save_settings_basis env _)).trans ?_))
  split <;> rfl

theorem expire_debug_logging_debug :
    (s.expire_debug_logging env).debug =
      if s.debug.1 = true ∧ s.debug.2 ≤ env.now_unix then (false, 0) else s.debug := by
  refine Eq.trans ?_ (s.settings.expire_debug env.now_unix)
  unfold expire_debug_logging
  split
  · next heq =>
      rw [heq]
      exact debug_of_basis (save_settings_basis env _)
  · next heq =>
      unfold Settings.expire_debug_logging at heq ⊢
      split at heq
      · cases heq
      · next h =>
          rw [if_neg h]
          rfl

theorem expire_stable_holds_debug : (s.expire_stable_holds env).debug = s.debug := by
  unfold expire_stable_holds
  refine foldl_debug (fun s id => ?_) _ s
  exact (debug_of_basis (reconfigure_each_basis env _ _)).trans rfl

/-- The automatic microphone changes what is known of its use, and not the settings. -/
theorem check_virtual_mic_use_debug : (s.check_virtual_mic_use env).debug = s.debug := by
  have hstart (s : Actor) : (s.auto_start_mic env).1.debug = s.debug := by
    unfold auto_start_mic
    split
    · rfl
    · split
      · rfl
      · exact (debug_of_basis (start_route_basis env s _ _ _ _)).trans rfl
  unfold check_virtual_mic_use
  dsimp only
  rw [← debug_of_basis (remember_mic_peer_basis env s)]
  generalize s.remember_mic_peer env = s
  refine ite_debug rfl (ite_debug rfl (ite_debug rfl (ite_debug ?_ ?_)))
  · exact ite_debug rfl (ite_debug rfl (hstart _))
  · split
    · rfl
    · exact ite_debug ((debug_of_basis (stop_route_by_key_basis env _ _ _ _)).trans rfl) rfl

variable [Crypto]

theorem announce_capabilities_debug : (s.announce_capabilities env).debug = s.debug := by
  unfold announce_capabilities
  dsimp only
  split
  · rfl
  · exact foldl_debug (fun s e => debug_of_basis (s.emit_basis _)) _ _

theorem tick_debug :
    (s.tick env).debug =
      if s.debug.1 = true ∧ s.debug.2 ≤ env.now_unix then (false, 0) else s.debug := by
  have hprune (s : Actor) : ({ s with resume := s.resume.prune env.now } : Actor).basis = s.basis :=
    rfl
  have hflush (s : Actor) : (s.flush_trust env).basis = s.basis := rfl
  -- before and after the expiry of debug logging, the settings stay as they are
  have hbefore (s : Actor) :
      (((s.expire_routes env).count_routes env).update_quality_fallback env).debug = s.debug :=
    debug_of_basis (by simp)
  have hafter (s : Actor) :
      ((((((s.check_capture_health env).expire_requests env).expire_unpaired env).expire_pairings
        env).expire_qr env).auto_connect env).debug = s.debug :=
    debug_of_basis (by simp)
  unfold tick
  dsimp only
  generalize hs₁ : (if TRUST_FLUSH_INTERVAL ≤ env.now - (prune_encoders _).trust_flushed_at then
      flush_trust env _ else prune_encoders _) = s₁
  have hstart : s₁.debug = s.debug := by
    refine debug_of_basis ?_
    rw [← hs₁, apply_ite Actor.basis, hflush, ite_self, prune_encoders_basis, hprune,
      tick_network_tests_basis]
  rw [hafter, check_virtual_mic_use_debug, announce_capabilities_debug, expire_debug_logging_debug,
    expire_stable_holds_debug, hbefore, hstart]

end Actor

/-! ## 2. A run -/

/-- A settings update, or a tick. -/
def Input.paces (i : Input) : Prop :=
  (∃ settings caller, i.event = .Command (.UpdateSettings settings caller)) ∨ i.event = .Tick

/-- The engine, and the unix time it last saw. -/
structure Clocked where
  actor : Actor
  now_unix : Nat

namespace Clocked

variable [Crypto]

def step (w : Clocked) (i : Input) : Clocked := ⟨w.actor.step i, i.env.now_unix⟩

/-- The engine from the update at `t` that switched debug logging on, under updates and ticks: the
clock never goes back, and debug logging is not switched on again once it is off. -/
def since (t : Nat) : Machine Clocked Input where
  init w :=
    ∃ (s : Clocked) (i : Input), i.paces ∧ i.env.now_unix = t ∧
      s.actor.settings.debug_logging = false ∧ w = s.step i ∧ w.actor.settings.debug_logging = true
  enabled w i :=
    i.paces ∧ w.now_unix ≤ i.env.now_unix ∧
      (w.actor.settings.debug_logging = false → (w.step i).actor.settings.debug_logging = false)
  step := step

/-- An update that leaves debug logging on comes in the second that switched it on, or sends an
end within a day of it. -/
def KeepsEnd (t : Nat) (_ : Clocked) (i : Input) : Prop :=
  ∀ settings caller, i.event = .Command (.UpdateSettings settings caller) →
    settings.debug_logging = true →
      i.env.now_unix = t ∨ (settings.debug_logging_until_unix ≠ 0 ∧
        settings.debug_logging_until_unix ≤ t + DEBUG_LOGGING_SECS)

/-- Debug logging is off, or ends within a day of `t`. -/
structure Ends (t : Nat) (w : Clocked) : Prop where
  clock : t ≤ w.now_unix
  within : w.actor.debug.1 = true → w.actor.debug.2 ≤ t + DEBUG_LOGGING_SECS

variable {t : Nat} {w : Clocked} {i : Input}

theorem step_update {settings : Settings} {caller : Nat}
    (h : i.event = .Command (.UpdateSettings settings caller)) :
    (w.step i).actor.debug =
      (settings.schedule_debug_logging w.actor.settings.debug_logging i.env.now_unix).debug := by
  unfold step Actor.step
  rw [h]
  exact Actor.update_settings_debug i.env _ settings caller

theorem step_tick (h : i.event = .Tick) :
    (w.step i).actor.debug =
      if w.actor.debug.1 = true ∧ w.actor.debug.2 ≤ i.env.now_unix then (false, 0)
      else w.actor.debug := by
  have hclear : ({ w.actor with calls := [], out := [] } : Actor).debug = w.actor.debug := rfl
  have htick (s : Actor) : s.handle i.env .Tick = s.tick i.env := rfl
  unfold step Actor.step
  rw [h]
  dsimp only
  rw [htick, Actor.tick_debug, hclear]

/-- Switched on, debug logging ends a day later. -/
theorem ends_init (h : (since t).init w) : Ends t w := by
  obtain ⟨s, i, hi, rfl, hoff, rfl, hon⟩ := h
  refine ⟨Nat.le_refl _, fun _ => ?_⟩
  rcases hi with ⟨settings, caller, hi⟩ | hi
  · have hdebug := step_update (w := s) hi
    have hset : settings.debug_logging = true := (congrArg Prod.fst hdebug).symm.trans hon
    rw [hdebug, hoff, Settings.schedule_on _ hset]
    exact Nat.min_le_left _ _
  · have hdebug := step_tick (w := s) hi
    have hwas : s.actor.debug.1 ≠ true := Bool.eq_false_iff.1 hoff
    rw [if_neg fun hboth => hwas hboth.1] at hdebug
    exact absurd ((congrArg Prod.fst hdebug).symm.trans hon) hwas

theorem ends_step (h : Ends t w) (he : (since t).enabled w i) (hk : KeepsEnd t w i) :
    Ends t (w.step i) := by
  obtain ⟨hi, hclock, hstays⟩ := he
  have ht : t ≤ i.env.now_unix := Nat.le_trans h.clock hclock
  refine ⟨ht, fun hon => ?_⟩
  rcases hi with ⟨settings, caller, hi⟩ | hi
  · have hdebug := step_update (w := w) hi
    have hset : settings.debug_logging = true := (congrArg Prod.fst hdebug).symm.trans hon
    have hwas : w.actor.settings.debug_logging = true := by
      by_contra hoff
      exact Bool.eq_false_iff.1 (hstays (Bool.eq_false_iff.2 hoff)) hon
    rw [hdebug, hwas]
    exact Settings.schedule_kept_le _ hset (hk settings caller hi hset)
  · rw [step_tick hi] at hon ⊢
    split at hon
    · cases hon
    · next hlate =>
        rw [if_neg hlate]
        exact h.within hon

/-- Debug logging that is switched on ends within a day, whatever updates follow, if those that
leave it on come at once or send an end within that day. -/
theorem debug_logging_expires {tr : List (Clocked × Input)} (hr : (since t).Run tr w)
    (hends : Machine.Meets (KeepsEnd t) tr) (htick : i.event = .Tick)
    (hday : t + DEBUG_LOGGING_SECS ≤ i.env.now_unix) :
    (w.step i).actor.settings.debug_logging = false := by
  have h : Ends t w := hr.invariant_where (fun _ => ends_init) (fun _ _ => ends_step) hends
  have hdebug := step_tick (w := w) htick
  by_cases hon : w.actor.debug.1 = true
  · rw [if_pos ⟨hon, Nat.le_trans (h.within hon) hday⟩] at hdebug
    exact congrArg Prod.fst hdebug
  · rw [if_neg (fun hboth => hon hboth.1)] at hdebug
    exact (congrArg Prod.fst hdebug).trans (Bool.eq_false_iff.2 hon)

end Clocked

namespace Sample

/-- A settings update at a time; debug logging is on in it, with an end. -/
def updates_at (now_unix until_unix : Nat) : Input :=
  ⟨{ env with now_unix },
    .Command (.UpdateSettings
      { Settings.default with debug_logging := true, debug_logging_until_unix := until_unix } 1)⟩

def ticks_at (now_unix : Nat) : Input := ⟨{ env with now_unix }, .Tick⟩

/-- Debug logging is switched on at 1000. -/
def debugging : Clocked :=
  Clocked.step ⟨(start .default).actor, 0⟩ (updates_at 1000 0)

theorem debugging_since : (Clocked.since 1000).init debugging :=
  ⟨_, _, .inl ⟨_, _, rfl⟩, rfl, rfl, rfl, by decide +kernel⟩

/-- An hour later the client sends settings again, with some end. -/
theorem debugging_run (until_unix : Nat) :
    (Clocked.since 1000).Run [(debugging, updates_at 4600 until_unix)]
      (debugging.step (updates_at 4600 until_unix)) := by
  have hon : debugging.actor.settings.debug_logging = true := by decide +kernel
  refine .next (.start debugging_since) ⟨.inl ⟨_, _, rfl⟩, ?_, fun hoff => ?_⟩
  · show 1000 ≤ 4600
    decide
  · exact absurd (hon.symm.trans hoff) (by decide)

end Sample

open Sample in
/-- A client that keeps to the end it was told. -/
theorem Clocked.debug_logging_expires_told :
    ((debugging.step (updates_at 4600 87400)).step
      (ticks_at 87400)).actor.settings.debug_logging = false := by
  refine Clocked.debug_logging_expires (debugging_run 87400) (fun p hp => ?_) rfl (by decide)
  obtain rfl := List.mem_singleton.1 hp
  intro settings caller heq _
  cases heq
  exact .inr (by decide)

open Sample in
/-- An hour later the client asks for the latest end there is, and gets that hour. -/
theorem Clocked.debug_logging_put_off :
    ¬ ∀ t tr w i, (Clocked.since t).Run tr w → (Clocked.since t).enabled w i → i.event = .Tick →
      t + DEBUG_LOGGING_SECS ≤ i.env.now_unix →
        (w.step i).actor.settings.debug_logging = false := by
  intro h
  have hon : (debugging.step (updates_at 4600 18446744073709551615)).actor.settings.debug_logging =
      true := by
    decide +kernel
  have hoff := h 1000 _ _ (ticks_at 87400) (debugging_run 18446744073709551615)
    ⟨.inr rfl, show 4600 ≤ 87400 by decide, fun hoff => absurd (hon.symm.trans hoff) (by decide)⟩
    rfl (by decide)
  have hstill : ((debugging.step (updates_at 4600 18446744073709551615)).step
      (ticks_at 87400)).actor.settings.debug_logging = true := by
    decide +kernel
  exact absurd (hstill.symm.trans hoff) (by decide)

end SoundPush
