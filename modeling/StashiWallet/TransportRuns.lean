import StashiWallet.RelyGuarantee
import StashiWallet.TransportInvariant

/-!
# Interleavings of the transport calls

Each call is followed statement by statement, with whatever the others may do in between, and is
shown to keep to the rely of the others. The calls then keep to it together, and the isolation of
transports is read off the invariant.
-/

namespace StashiWallet

open Interleaving TransportM

open GlobalTransport

namespace TransportM

variable {ι Config α β : Type} [DecidableEq ι] [DecidableEq Config]

/-- What a call promises of its statements: they stay within what the others rely on, and a
connection attempt for a configuration goes through managers of that configuration. -/
structure Guarantee (route : Option Config) (task : ι) (before : GlobalTransport ι Config)
    (statement : TransportStatement ι Config) (after : GlobalTransport ι Config) : Prop where
  others : ∀ other, other ≠ task → Rely other before after
  route : ∀ k, statement.Through k → ∀ config, route = some config →
    before.managers[k]? = some config

variable (route : Option Config) (task : ι)

/-- From `s` on, the call keeps its promises, and `Q` holds of its result. -/
def Holds (Q : Except ClientError α → GlobalTransport ι Config → Prop)
    (s : GlobalTransport ι Config) (call : TransportM ι Config α) : Prop :=
  Prog.Guarded Executes Accounted (Rely task)
    (fun before statement _ after => Guarantee route task before statement after) Q call.run s

variable {route task} {Q : Except ClientError α → GlobalTransport ι Config → Prop}
  {s : GlobalTransport ι Config}

theorem holds_pure {a : α} (h : Q (.ok a) s) : Holds route task Q s (pure a) := h

theorem holds_throw {error : ClientError} (h : Q (.error error) s) :
    Holds route task Q s (throw error) := h

variable {call : TransportM ι Config α}

/-- A call stops at an error, or goes on with the answer. -/
theorem Holds.bind {Q : Except ClientError β → GlobalTransport ι Config → Prop}
    {rest : α → TransportM ι Config β}
    (h : Holds route task (fun r after => (∀ a, r = .ok a → Holds route task Q after (rest a)) ∧
      ∀ error, r = .error error → Q (.error error) after) s call) :
    Holds route task Q s (call >>= rest) := by
  unfold Holds
  rw [ExceptT.run_bind, Prog.guarded_bind]
  refine Prog.Guarded.imp h ?_
  intro r after hr
  cases r with
  | ok a => exact hr.1 a rfl
  | error error => exact hr.2 error rfl

theorem Holds.map {f : α → β} {Q : Except ClientError β → GlobalTransport ι Config → Prop}
    (h : Holds route task (fun r after => Q (r.map f) after) s call) :
    Holds route task Q s (f <$> call) := by
  refine Prog.guarded_bind.mpr (Prog.Guarded.imp h ?_)
  intro r after hr
  cases r with
  | ok a => exact hr
  | error error => exact hr

variable {statement : TransportStatement ι Config}

/-- One statement: it may fail where it is awaited, and else does what it does. -/
theorem holds_query {Q : Except ClientError statement.Answer → GlobalTransport ι Config → Prop}
    (h : ∀ before, Rely task s before → before.Accounted →
      (∀ k, statement.Through k → ∀ config, route = some config →
        before.managers[k]? = some config) ∧
      (statement.Awaits = true → ∀ error, Q (.error error) before) ∧
      ∀ answer after, before.run statement = some (answer, after) →
        (after.Accounted ∧ ∀ other, other ≠ task → Rely other before after) ∧
          Q (.ok answer) after) : Holds route task Q s (query statement) := by
  intro before hrely haccounted reply after hexec
  obtain ⟨hroute, hfails, hruns⟩ := h before hrely haccounted
  cases reply with
  | error error =>
    obtain ⟨hawaits, rfl⟩ := hexec
    exact ⟨⟨haccounted, ⟨fun other _ => .refl other _, hroute⟩⟩, hfails hawaits error⟩
  | ok answer =>
    obtain ⟨⟨hkept, hothers⟩, hQ⟩ := hruns answer after hexec
    exact ⟨⟨hkept, ⟨hothers, hroute⟩⟩, hQ⟩

variable (hreads : ∀ (before : GlobalTransport ι Config) answer after,
    before.run statement = some (answer, after) → after = before)
  (hthrough : ∀ k, ¬ statement.Through k)

include hreads hthrough

/-- A statement that changes nothing. -/
theorem holds_read {Q : Except ClientError statement.Answer → GlobalTransport ι Config → Prop}
    (h : ∀ before, Rely task s before → before.Accounted →
      (statement.Awaits = true → ∀ error, Q (.error error) before) ∧
      ∀ answer, before.run statement = some (answer, before) → Q (.ok answer) before) :
    Holds route task Q s (query statement) := by
  refine holds_query ?_
  intro before hrely haccounted
  obtain ⟨hfails, hruns⟩ := h before hrely haccounted
  refine ⟨fun k hk => absurd hk (hthrough k), hfails, ?_⟩
  intro answer after hrun
  obtain rfl := hreads before answer after hrun
  exact ⟨⟨haccounted, fun other _ => .refl other _⟩, hruns answer hrun⟩

/-- A statement that is not awaited and changes nothing, before the rest of a call. -/
theorem holds_read_bind {rest : statement.Answer → TransportM ι Config α}
    (hawaits : statement.Awaits = false)
    (h : ∀ before, Rely task s before → before.Accounted → ∀ answer,
      before.run statement = some (answer, before) → Holds route task Q before (rest answer)) :
    Holds route task Q s (query statement >>= rest) := by
  refine Holds.bind (holds_read hreads hthrough ?_)
  intro before hrely haccounted
  refine ⟨fun h => by simp [hawaits] at h, ?_⟩
  intro answer hrun
  refine ⟨?_, nofun⟩
  rintro _ ⟨⟩
  exact h before hrely haccounted answer hrun

omit hreads hthrough

/-- A statement that answers at once with something of the state. -/
theorem holds_load {value : GlobalTransport ι Config → statement.Answer}
    {rest : statement.Answer → TransportM ι Config α}
    (hrun : ∀ before : GlobalTransport ι Config,
      before.run statement = some (value before, before)) (hthrough : ∀ k, ¬ statement.Through k)
    (hawaits : statement.Awaits = false)
    (h : ∀ before, Rely task s before → Holds route task Q before (rest (value before))) :
    Holds route task Q s (query statement >>= rest) := by
  refine holds_read_bind ?_ hthrough hawaits ?_
  · intro before answer after hanswer
    rw [hrun before] at hanswer
    cases hanswer
    rfl
  · intro before hrely _ answer hanswer
    rw [hrun before] at hanswer
    cases hanswer
    exact h before hrely

/-- A statement that is not awaited, before the rest of a call. -/
theorem holds_write_bind {rest : statement.Answer → TransportM ι Config α}
    (hthrough : ∀ k, ¬ statement.Through k) (hawaits : statement.Awaits = false)
    (h : ∀ before, Rely task s before → before.Accounted → ∀ answer after,
      before.run statement = some (answer, after) →
        (after.Accounted ∧ ∀ other, other ≠ task → Rely other before after) ∧
          Holds route task Q after (rest answer)) :
    Holds route task Q s (query statement >>= rest) := by
  refine Holds.bind (holds_query ?_)
  intro before hrely haccounted
  refine ⟨fun k hk => absurd hk (hthrough k), fun h => by simp [hawaits] at h, ?_⟩
  intro answer after hrun
  obtain ⟨hkept, hrest⟩ := h before hrely haccounted answer after hrun
  refine ⟨hkept, ?_, nofun⟩
  rintro _ ⟨⟩
  exact hrest

/-! ## The checks -/

variable {rest : Unit → TransportM ι Config α} {generation : Nat}

variable (hstop : ∀ error after, Rely task s after → Q (.error error) after)

include hstop in
/-- `ensure_generation` passes when the counter was the captured one at some point. -/
theorem holds_ensureGeneration
    (hok : ∀ seen after, Rely task s seen → seen.generation = generation →
      Rely task seen after → Holds route task Q after (rest ())) :
    Holds route task Q s (ensureGeneration generation >>= rest) := by
  refine Holds.bind ?_
  unfold ensureGeneration
  refine holds_load (fun _ => rfl) (fun _ => id) rfl ?_
  intro seen hseen
  dsimp only
  split
  · exact ⟨nofun, fun error _ => hstop error seen hseen⟩
  rename_i hcurrent
  refine holds_load (fun _ => rfl) (fun _ => id) rfl ?_
  intro after hafter
  split
  · exact ⟨nofun, fun error _ => hstop error after (hseen.trans hafter)⟩
  · exact ⟨fun _ _ => hok seen after hseen (not_not.mp hcurrent) hafter, nofun⟩

/-- A read of the selection. -/
theorem holds_readDesired {rest : Option Config → TransportM ι Config α}
    (h : ∀ before, Rely task s before → Holds route task Q before (rest before.desired)) :
    Holds route task Q s (query .readDesired >>= rest) := by
  refine holds_read_bind ?_ (fun _ => id) rfl ?_
  · intro before answer after hrun
    obtain ⟨-, hsame⟩ := Option.ite_none_right_eq_some.mp hrun
    cases hsame
    rfl
  · intro before hrely _ answer hrun
    obtain ⟨-, hsame⟩ := Option.ite_none_right_eq_some.mp hrun
    cases hsame
    exact h before hrely

variable {requested : Config}

include hstop in
/-- The check against the selection passes when it is the requested configuration, or none. -/
theorem holds_ensureDesired
    (hok : ∀ after, Rely task s after →
      (∀ config, after.desired = some config → config = requested) →
        Holds route task Q after (rest ())) :
    Holds route task Q s (ensureDesired requested >>= rest) := by
  refine Holds.bind ?_
  unfold ensureDesired
  refine holds_readDesired ?_
  intro after hafter
  split
  · exact ⟨nofun, fun error _ => hstop error after hafter⟩
  · rename_i hsame
    refine ⟨fun _ _ => hok after hafter ?_, nofun⟩
    intro config hconfig
    simpa [hconfig] using hsame

/-! ## Teardown -/

/-- Managers that were retired are shut down one after the other. -/
theorem holds_shutdownManagers {managers : List Nat}
    {Q : Except ClientError Unit → GlobalTransport ι Config → Prop}
    (hretired : ∀ k ∈ managers, k ∈ s.retirements)
    (h : ∀ r after, Rely task s after → Q r after) :
    Holds route task Q s (managers.forM fun manager => query (.shutdownManager manager)) := by
  induction managers generalizing s with
  | nil => exact h (.ok ()) s (.refl task s)
  | cons manager managers ih =>
    refine Holds.bind (holds_query ?_)
    intro before hrely haccounted
    refine ⟨fun _ => False.elim, ?_, ?_⟩
    · intro _ error
      exact ⟨nofun, fun _ _ => h _ before hrely⟩
    rintro _ _ ⟨⟩
    have hmanager := hrely.retirements manager (hretired manager List.mem_cons_self)
    refine ⟨⟨haccounted.shutdownManager hmanager, fun other _ => rely_shutdownManager⟩, ?_, nofun⟩
    rintro _ ⟨⟩
    refine ih ?_ ?_
    · intro k hk
      exact hrely.retirements k (hretired k (List.mem_cons_of_mem _ hk))
    · intro r after hafter
      exact h r after (hrely.trans (rely_shutdownManager.trans hafter))

include hstop in
theorem holds_shutdownRetired
    (hok : ∀ after, Rely task s after → Holds route task Q after (rest ())) :
    Holds route task Q s (shutdownRetired >>= rest) := by
  refine Holds.bind ?_
  unfold shutdownRetired
  refine holds_write_bind (fun _ => id) rfl ?_
  rintro before hrely haccounted _ _ ⟨⟩
  refine ⟨⟨haccounted.takeRetired, fun other _ => rely_takeRetired⟩, ?_⟩
  refine holds_shutdownManagers haccounted.pending ?_
  intro r after hafter
  have hall := hrely.trans (rely_takeRetired.trans hafter)
  exact ⟨fun _ _ => hok after hall, fun error _ => hstop error after hall⟩

/-! ## The manager of a configuration -/

/-- The call returns a manager of the configuration, if any. -/
def Returns (requested : Config) (r : Except ClientError Nat) (s : GlobalTransport ι Config) :
    Prop :=
  ∀ k, r = .ok k → s.managers[k]? = some requested

theorem holds_createManager {Q : Except ClientError Nat → GlobalTransport ι Config → Prop}
    (hinit : s.initialization = some task) (hempty : s.manager = none)
    (h : ∀ r after, after.initialization = some task → Returns requested r after → Q r after) :
    Holds route task Q s (createManager requested generation) := by
  unfold createManager
  refine Holds.bind (holds_read ?_ (fun _ => id) ?_)
  · rintro before _ _ ⟨⟩
    rfl
  intro started hstarted _
  have hinit' := hstarted.initialization hinit
  refine ⟨?_, ?_⟩
  · intro _ error
    exact ⟨nofun, fun _ _ => h _ started hinit' nofun⟩
  intro _ _
  refine ⟨?_, nofun⟩
  rintro _ -
  refine holds_write_bind (fun _ => id) rfl ?_
  intro before hrely haccounted answer after hrun
  obtain ⟨hfree, hpublish⟩ := Option.ite_none_right_eq_some.mp hrun
  have hbefore := hrely.initialization hinit'
  have hslot : before.manager = none :=
    hrely.empty (.inr hinit') (hstarted.empty (.inr hinit) hempty)
  have hafter : after = (before.publish requested generation).2 :=
    (congrArg Prod.snd (Option.some.inj hpublish)).symm
  have hanswer : (before.publish requested generation).1 = answer :=
    congrArg Prod.fst (Option.some.inj hpublish)
  have hkept : after.initialization = some task := by
    rw [hafter, publish_initialization, hbefore]
  refine ⟨⟨hafter ▸ haccounted.publish hslot, ?_⟩, ?_⟩
  · intro other hother
    rw [hafter]
    refine rely_publish (by simp [hfree]) ?_
    rw [hbefore]
    exact fun heq => hother (Option.some.inj heq).symm
  · cases answer with
    | none => exact holds_throw (h _ after hkept nofun)
    | some created =>
      refine holds_pure (h _ after hkept ?_)
      rintro k ⟨⟩
      rw [hafter]
      exact publish_config hanswer

theorem holds_getOrInitLocked {Q : Except ClientError Nat → GlobalTransport ι Config → Prop}
    (hinit : s.initialization = some task)
    (h : ∀ r after, after.initialization = some task → Returns requested r after → Q r after) :
    Holds route task Q s (getOrInitLocked requested generation) := by
  have hstop : ∀ {before}, Rely task s before → ∀ error after, Rely task before after →
      Q (.error error) after := by
    intro before hbefore error after hafter
    exact h _ after ((hbefore.trans hafter).initialization hinit) nofun
  unfold getOrInitLocked
  refine holds_ensureGeneration (hstop (.refl task s)) ?_
  intro seen s₁ hseen _ hs₁
  have h₁ := hseen.trans hs₁
  refine holds_ensureDesired (hstop h₁) ?_
  intro s₂ h₂ _
  replace h₂ := h₁.trans h₂
  refine holds_shutdownRetired (hstop h₂) ?_
  intro s₃ h₃
  replace h₃ := h₂.trans h₃
  refine holds_ensureGeneration (hstop h₃) ?_
  intro seen s₄ hseen _ h₄
  replace h₄ := h₃.trans (hseen.trans h₄)
  refine holds_ensureDesired (hstop h₄) ?_
  intro s₅ h₅ _
  replace h₅ := h₄.trans h₅
  refine holds_load (fun _ => rfl) (fun _ => id) rfl ?_
  intro s₆ h₆
  replace h₆ := h₅.trans h₆
  have hinit₆ := h₆.initialization hinit
  cases hslot : s₆.manager with
  | none => exact holds_createManager hinit₆ hslot h
  | some manager =>
    dsimp only
    refine holds_load (fun _ => rfl) (fun _ => id) rfl ?_
    intro s₇ h₇
    refine holds_load (fun _ => rfl) (fun _ => id) rfl ?_
    intro s₈ h₈
    have hinit₈ := (h₇.trans h₈).initialization hinit₆
    split
    · rename_i hmatches
      refine holds_pure (h _ s₈ hinit₈ ?_)
      rintro k ⟨⟩
      refine h₈.config ?_
      simp only [Bool.and_eq_true, beq_iff_eq] at hmatches
      exact hmatches.1
    -- Another transport, or one that is gone: it is retired, and the slot stays empty.
    refine holds_write_bind (fun _ => id) rfl ?_
    rintro s₉ h₉ haccounted _ _ ⟨⟩
    refine ⟨⟨haccounted.retireCurrent, fun other _ => rely_retireCurrent⟩, ?_⟩
    have hinit₉ : s₉.retireCurrent.initialization = some task :=
      rely_retireCurrent.initialization (h₉.initialization hinit₈)
    have hrest : ∀ {before}, Rely task s₉.retireCurrent before → ∀ error after,
        Rely task before after → Q (.error error) after := by
      intro before hbefore error after hafter
      exact h _ after ((hbefore.trans hafter).initialization hinit₉) nofun
    refine holds_shutdownRetired (hrest (.refl task _)) ?_
    intro t₁ ht₁
    refine holds_ensureGeneration (hrest ht₁) ?_
    intro seen t₂ hseen _ ht₂
    replace ht₂ := ht₁.trans (hseen.trans ht₂)
    exact holds_createManager (ht₂.initialization hinit₉)
      (ht₂.empty (.inr hinit₉) retireCurrent_manager) h

include hstop in
/-- The initialization guard is taken, and given back whatever the call under it does. -/
theorem holds_withInitialization
    (hcall : ∀ before, Rely task s before → before.initialization = none →
      Holds route task (fun r after => after.initialization = some task ∧
        ∀ later, Rely task after later → Q r { later with initialization := none })
        { before with initialization := some task } call) :
    Holds route task Q s (withInitialization task call) := by
  unfold withInitialization
  refine Holds.bind (holds_query ?_)
  intro before hrely haccounted
  refine ⟨fun _ => False.elim, ?_, ?_⟩
  · intro _ error
    exact ⟨nofun, fun error _ => hstop error before hrely⟩
  intro answer after hrun
  obtain ⟨hfree, hsame⟩ := Option.ite_none_right_eq_some.mp hrun
  obtain rfl : { before with initialization := some task } = after :=
    congrArg Prod.snd (Option.some.inj hsame)
  refine ⟨⟨haccounted.initialization _, ?_⟩, ?_, nofun⟩
  · intro other _
    exact rely_initialization (by simp [hfree])
  rintro _ -
  refine Prog.guarded_bind.mpr (Prog.Guarded.imp (hcall before hrely hfree) ?_)
  rintro r done ⟨hheld, hQ⟩
  refine Prog.guarded_bind.mpr (holds_query ?_)
  intro later hlater haccounted
  refine ⟨fun _ => False.elim, nofun, ?_⟩
  rintro _ _ ⟨⟩
  refine ⟨⟨haccounted.initialization none, ?_⟩, hQ later hlater⟩
  intro other hother
  refine rely_initialization ?_
  rw [hlater.initialization hheld]
  exact fun heq => hother (Option.some.inj heq).symm

theorem holds_getOrInitForGeneration {available : Config → Bool}
    {Q : Except ClientError Nat → GlobalTransport ι Config → Prop}
    (hQ : ∀ r after, Returns requested r after → Q r after) :
    Holds route task Q s (getOrInitForGeneration available task requested generation) := by
  have hstop : ∀ error after, Q (.error error) after := fun error after => hQ _ after nofun
  unfold getOrInitForGeneration
  refine holds_ensureGeneration (fun error after _ => hstop error after) ?_
  intro _ s₁ _ _ _
  unfold ensureAvailable
  split
  swap
  · exact hstop _ s₁
  refine holds_ensureDesired (fun error after _ => hstop error after) ?_
  intro s₂ _ _
  refine holds_withInitialization (fun error after _ => hstop error after) ?_
  intro before _ _
  refine holds_getOrInitLocked rfl ?_
  intro r after hheld hreturns
  refine ⟨hheld, ?_⟩
  intro later hlater
  exact hQ r _ fun k hk => hlater.config (hreturns k hk)

theorem holds_resolveTransportConfig {rest : Config → TransportM ι Config α}
    (h : ∀ before, Rely task s before →
      Holds route task Q before (rest (before.desired.getD requested))) :
    Holds route task Q s (resolveTransportConfig requested >>= rest) := by
  refine Holds.bind ?_
  unfold resolveTransportConfig
  refine holds_readDesired ?_
  intro before hbefore
  refine holds_pure ⟨?_, nofun⟩
  rintro _ ⟨⟩
  exact h before hbefore

/-- A manager that `get_matching` returns has the requested configuration, unless the generation
has passed the one the call is for. -/
theorem holds_getMatching {Q : Except ClientError (Option Nat) → GlobalTransport ι Config → Prop}
    (hgeneration : generation ≤ s.generation) (hnone : ∀ after, Q (.ok none) after)
    (hok : ∀ k after, after.managers[k]? = some requested ∨ generation < after.generation →
      Q (.ok (some k)) after) : Holds route task Q s (getMatching requested) := by
  unfold getMatching
  refine holds_readDesired ?_
  intro s₁ h₁
  split
  · exact holds_pure (hnone s₁)
  rename_i hdesired
  have hdesired₁ : s₁.desired.getD requested = requested := by
    cases hselected : s₁.desired with
    | none => rfl
    | some config => simpa [hselected] using hdesired
  refine holds_resolveTransportConfig ?_
  intro s₂ h₂
  -- The selection is read twice; when it was another in between, the counter has moved.
  have hresolved : s₂.desired.getD requested = requested ∨ generation < s₂.generation := by
    rcases Nat.lt_or_eq_of_le (hgeneration.trans (h₁.generation.trans h₂.generation)) with
      hpassed | hsame
    · exact .inr hpassed
    · left
      have hfirst := h₁.generation
      have hsecond := h₂.generation
      rcases h₂.desired (by omega) with hkept | hnone
      · rw [hkept, hdesired₁]
      · rw [hnone]
        rfl
  refine holds_load (fun _ => rfl) (fun _ => id) rfl ?_
  intro s₃ h₃
  cases hslot : s₃.manager with
  | none => exact holds_pure (hnone s₃)
  | some manager =>
    dsimp only
    refine holds_load (fun _ => rfl) (fun _ => id) rfl ?_
    intro s₄ h₄
    refine holds_load (fun _ => rfl) (fun _ => id) rfl ?_
    intro s₅ h₅
    split
    swap
    · exact holds_pure (hnone s₅)
    rename_i hmatches
    simp only [Bool.and_eq_true, beq_iff_eq] at hmatches
    refine holds_pure (hok manager s₅ (hresolved.imp ?_ ?_))
    · intro hconfig
      rw [← hconfig]
      exact h₅.config hmatches.1
    · intro hpassed
      have hmoved := (h₃.trans (h₄.trans h₅)).generation
      omega

/-! ## Connection attempts -/

/-- A statement through a manager of the call's configuration, at the end of a call or before
the rest of it. -/
theorem holds_through {k : Nat} {rest : statement.Answer → TransportM ι Config α}
    (hreads : ∀ (before : GlobalTransport ι Config) answer after,
      before.run statement = some (answer, after) → after = before)
    (hthrough : ∀ other, statement.Through other → other = k)
    (hroute : ∀ config, route = some config → config = requested)
    (hk : s.managers[k]? = some requested) (hstop : ∀ error after, Q (.error error) after)
    (hok : ∀ answer after, Rely task s after → Holds route task Q after (rest answer)) :
    Holds route task Q s (query statement >>= rest) := by
  refine Holds.bind (holds_query ?_)
  intro before hrely haccounted
  refine ⟨?_, ?_, ?_⟩
  · intro other hother config hconfig
    rw [hthrough other hother, hroute config hconfig]
    exact hrely.config hk
  · intro _ error
    exact ⟨nofun, fun error _ => hstop error before⟩
  · intro answer after hrun
    obtain rfl := hreads before answer after hrun
    refine ⟨⟨haccounted, fun other _ => .refl other _⟩, ?_, nofun⟩
    rintro _ -
    exact hok _ _ hrely

variable {config : Config} (hroute : ∀ other, route = some other → other = config)

include hroute

theorem holds_connectThrough {pinned initializeTransport : Bool} {generation k : Nat}
    {Q : Except ClientError Nat → GlobalTransport ι Config → Prop}
    (hk : s.managers[k]? = some config ∨ generation < s.generation) (hQ : ∀ r after, Q r after) :
    Holds route task Q s (connectThrough config pinned initializeTransport generation k) := by
  have hend : ∀ after, after.managers[k]? = some config →
      Holds route task Q after (do query (.createGrpcChannel k); pure k) := by
    intro after hafter
    refine holds_through ?_ (fun _ => Eq.symm) hroute hafter (fun _ _ => hQ _ _) ?_
    · rintro before _ _ ⟨⟩
      rfl
    · exact fun _ _ _ => hQ _ _
  unfold connectThrough
  refine holds_ensureGeneration (fun _ _ _ => hQ _ _) ?_
  intro seen s₁ hseen hcurrent h₁
  -- The counter is still the captured one, so the manager has the requested configuration.
  have hk₁ : s₁.managers[k]? = some config := by
    rcases hk with hconfig | hpassed
    · exact (hseen.trans h₁).config hconfig
    · have hmoved := hseen.generation
      omega
  have hpin : ∀ (rest : Unit → TransportM ι Config Nat) after, after.managers[k]? = some config →
      (∀ later, later.managers[k]? = some config → Holds route task Q later (rest ())) →
        Holds route task Q after (query (.fetchSpkiPin k) >>= rest) := by
    intro rest after hafter hrest
    refine holds_through ?_ (fun _ => Eq.symm) hroute hafter (fun _ _ => hQ _ _) ?_
    · rintro before _ _ ⟨⟩
      rfl
    · exact fun _ later hlater => hrest later (hlater.config hafter)
  cases initializeTransport with
  | true =>
    simp only [Bool.not_true, Bool.false_eq_true, if_false]
    split
    · exact hpin _ s₁ hk₁ hend
    · exact hend s₁ hk₁
  | false =>
    have hcheck : ∀ after, after.managers[k]? = some config →
        Holds route task Q after (do
          ensureDesired config
          query (.createGrpcChannel k)
          pure k) := by
      intro after hafter
      refine holds_ensureDesired (fun _ _ _ => hQ _ _) ?_
      intro later hlater _
      exact hend later (hlater.config hafter)
    simp only [Bool.not_false, if_true]
    refine holds_ensureDesired (fun _ _ _ => hQ _ _) ?_
    intro s₂ h₂ _
    split
    · exact hpin _ s₂ (h₂.config hk₁) hcheck
    · exact hcheck s₂ (h₂.config hk₁)

theorem holds_tryConnect {available : Config → Bool} {pinned initializeTransport : Bool}
    {Q : Except ClientError Nat → GlobalTransport ι Config → Prop}
    (hgeneration : generation ≤ s.generation) (hQ : ∀ r after, Q r after) :
    Holds route task Q s
      (tryConnect available task config pinned initializeTransport generation) := by
  unfold tryConnect
  refine holds_ensureGeneration (fun _ _ _ => hQ _ _) ?_
  intro seen s₁ hseen _ h₁
  split
  · refine Holds.bind (holds_getOrInitForGeneration ?_)
    intro r after hreturns
    refine ⟨?_, fun _ _ => hQ _ _⟩
    rintro k rfl
    exact holds_connectThrough hroute (.inl (hreturns k rfl)) hQ
  · refine Holds.bind (holds_getMatching (hgeneration.trans (hseen.trans h₁).generation) ?_ ?_)
    · intro after
      refine ⟨?_, nofun⟩
      rintro _ ⟨⟩
      exact hQ _ _
    · intro k after hk
      refine ⟨?_, nofun⟩
      rintro _ ⟨⟩
      exact holds_connectThrough hroute hk hQ

theorem holds_tryConnectForProbe {Q : Except ClientError Nat → GlobalTransport ι Config → Prop}
    (hgeneration : generation ≤ s.generation) (hQ : ∀ r after, Q r after) :
    Holds route task Q s (tryConnectForProbe config generation) := by
  unfold tryConnectForProbe
  refine holds_ensureGeneration (fun _ _ _ => hQ _ _) ?_
  intro seen s₁ hseen _ h₁
  refine Holds.bind (holds_getMatching (hgeneration.trans (hseen.trans h₁).generation) ?_ ?_)
  · intro after
    refine ⟨?_, nofun⟩
    rintro _ ⟨⟩
    exact hQ _ _
  intro k s₂ hk
  refine ⟨?_, nofun⟩
  rintro _ ⟨⟩
  refine holds_ensureDesired (fun _ _ _ => hQ _ _) ?_
  intro s₃ h₃ _
  refine holds_ensureGeneration (fun _ _ _ => hQ _ _) ?_
  intro seen s₄ hseen hcurrent h₄
  have hk₄ : s₄.managers[k]? = some config := by
    rcases hk with hconfig | hpassed
    · exact (h₃.trans (hseen.trans h₄)).config hconfig
    · have hmoved := (h₃.trans hseen).generation
      omega
  refine holds_through ?_ (fun _ => Eq.symm) hroute hk₄ (fun _ _ => hQ _ _) ?_
  · rintro before _ _ ⟨⟩
    rfl
  · exact fun _ _ _ => hQ _ _

omit hroute

/-! ## Selection and shutdown -/

/-- The selection's write guard is taken. -/
theorem holds_lockSelection
    (h : ∀ before, Rely task s before → before.Accounted →
      Holds route task Q { before with selecting := some task } (rest ())) :
    Holds route task Q s (query (.lockSelection task) >>= rest) := by
  refine holds_write_bind (fun _ => id) rfl ?_
  intro before hrely haccounted answer after hrun
  obtain ⟨hfree, hsame⟩ := Option.ite_none_right_eq_some.mp hrun
  obtain rfl : { before with selecting := some task } = after :=
    congrArg Prod.snd (Option.some.inj hsame)
  refine ⟨⟨haccounted.selecting _, ?_⟩, h before hrely haccounted⟩
  intro other _
  exact rely_selecting (by simp [hfree])

/-- The selection's write guard is given back by its holder. -/
theorem holds_unlockSelection {Q : Except ClientError Unit → GlobalTransport ι Config → Prop}
    (hheld : s.selecting = some task)
    (h : ∀ before, Rely task s before → Q (.ok ()) { before with selecting := none }) :
    Holds route task Q s (query .unlockSelection) := by
  refine holds_query ?_
  intro before hrely haccounted
  refine ⟨fun _ => False.elim, nofun, ?_⟩
  rintro _ _ ⟨⟩
  refine ⟨⟨haccounted.selecting none, ?_⟩, h before hrely⟩
  intro other hother
  refine rely_selecting ?_
  rw [hrely.selecting hheld]
  exact fun heq => hother (Option.some.inj heq).symm

theorem holds_unlockSelection_bind (hheld : s.selecting = some task)
    (h : ∀ before, Rely task s before →
      Holds route task Q { before with selecting := none } (rest ())) :
    Holds route task Q s (query .unlockSelection >>= rest) :=
  Holds.bind (holds_unlockSelection hheld fun before hrely => ⟨fun _ _ => h before hrely, nofun⟩)

/-- A change of the selection, under the write guard. -/
theorem holds_select {Q : Except ClientError Bool → GlobalTransport ι Config → Prop}
    (hheld : s.selecting = some task) (hQ : ∀ after, after.manager = none → Q (.ok true) after) :
    Holds route task Q s (do
      query .retireCurrent
      query (.select config)
      query .unlockSelection
      return true) := by
  refine holds_write_bind (fun _ => id) rfl ?_
  rintro s₁ h₁ haccounted₁ _ _ ⟨⟩
  refine ⟨⟨haccounted₁.retireCurrent, fun other _ => rely_retireCurrent⟩, ?_⟩
  have hheld₁ : s₁.retireCurrent.selecting = some task :=
    rely_retireCurrent.selecting (h₁.selecting hheld)
  refine holds_write_bind (fun _ => id) rfl ?_
  rintro s₂ h₂ haccounted₂ _ _ ⟨⟩
  have hempty₂ : s₂.manager = none := h₂.empty (.inl hheld₁) retireCurrent_manager
  have hheld₂ := h₂.selecting hheld₁
  refine ⟨⟨haccounted₂.select hempty₂, fun other _ => rely_select⟩, ?_⟩
  refine holds_unlockSelection_bind hheld₂ ?_
  intro s₃ h₃
  exact holds_pure (hQ _ (h₃.empty (.inl hheld₂) hempty₂))

theorem holds_selectTransport {available : Config → Bool}
    {Q : Except ClientError Bool → GlobalTransport ι Config → Prop}
    (hQ : ∀ r after, (r = .ok true → after.manager = none) → Q r after) :
    Holds route task Q s (selectTransport available task config) := by
  unfold selectTransport ensureAvailable
  split
  swap
  · exact hQ _ s nofun
  refine holds_lockSelection ?_
  intro before _ _
  refine holds_load (fun _ => rfl) (fun _ => id) rfl ?_
  intro s₁ h₁
  refine holds_load (fun _ => rfl) (fun _ => id) rfl ?_
  intro s₂ h₂
  refine holds_load (fun _ => rfl) (fun _ => id) rfl ?_
  intro s₃ h₃
  have hheld : s₃.selecting = some task := (h₁.trans (h₂.trans h₃)).selecting rfl
  split
  · exact holds_select hheld fun after hempty => hQ _ after fun _ => hempty
  · refine holds_unlockSelection_bind hheld ?_
    exact fun _ _ => hQ _ _ nofun

theorem holds_selectTransportIfUnset {available : Config → Bool}
    {Q : Except ClientError Bool → GlobalTransport ι Config → Prop}
    (hQ : ∀ r after, (r = .ok true → after.manager = none) → Q r after) :
    Holds route task Q s (selectTransportIfUnset available task config) := by
  unfold selectTransportIfUnset ensureAvailable
  split
  swap
  · exact hQ _ s nofun
  refine holds_lockSelection ?_
  intro before _ _
  refine holds_load (fun _ => rfl) (fun _ => id) rfl ?_
  intro s₁ h₁
  have hheld : s₁.selecting = some task := h₁.selecting rfl
  cases hselected : s₁.desired with
  | some selected =>
    dsimp only
    refine holds_unlockSelection_bind hheld ?_
    intro s₂ _
    split <;> exact hQ _ _ nofun
  | none => exact holds_select hheld fun after hempty => hQ _ after fun _ => hempty

theorem holds_shutdownTransport {Q : Except ClientError Unit → GlobalTransport ι Config → Prop}
    (hQ : ∀ r after, Q r after) : Holds route task Q s (shutdownTransport task) := by
  unfold shutdownTransport
  refine holds_lockSelection ?_
  intro before _ _
  refine holds_write_bind (fun _ => id) rfl ?_
  rintro s₁ h₁ haccounted₁ _ _ ⟨⟩
  refine ⟨⟨haccounted₁.generation _, fun other _ => rely_advanceGeneration⟩, ?_⟩
  refine holds_write_bind (fun _ => id) rfl ?_
  rintro s₂ h₂ haccounted₂ _ _ ⟨⟩
  refine ⟨⟨haccounted₂.shutdownGeneration _, fun other _ => rely_shutdownGeneration⟩, ?_⟩
  refine holds_write_bind (fun _ => id) rfl ?_
  rintro s₃ h₃ haccounted₃ _ _ ⟨⟩
  refine ⟨⟨haccounted₃.retireCurrent, fun other _ => rely_retireCurrent⟩, ?_⟩
  have hheld : s₃.retireCurrent.selecting = some task :=
    (rely_shutdownGeneration.trans (h₃.trans rely_retireCurrent)).selecting
      ((rely_advanceGeneration.trans h₂).selecting (h₁.selecting rfl))
  refine holds_unlockSelection_bind hheld ?_
  intro s₄ _
  refine holds_withInitialization (fun _ _ _ => hQ _ _) ?_
  intro s₅ _ _
  have hstop : ∀ (r : Except ClientError Unit) after, after.initialization = some task →
      after.initialization = some task ∧
        ∀ later, Rely task after later → Q r { later with initialization := none } :=
    fun r after hheld => ⟨hheld, fun _ _ => hQ _ _⟩
  refine holds_shutdownRetired (fun _ after hafter => hstop _ after (hafter.initialization rfl)) ?_
  intro s₆ h₆
  have hinit₆ := h₆.initialization rfl
  refine holds_lockSelection ?_
  intro s₇ h₇ _
  have hinit₇ := h₇.initialization hinit₆
  have hend : ∀ before : GlobalTransport ι Config, before.selecting = some task →
      before.initialization = some task →
        Holds route task (fun r after => after.initialization = some task ∧
          ∀ later, Rely task after later → Q r { later with initialization := none }) before
          (query .unlockSelection) := by
    intro before hheld hinit
    exact holds_unlockSelection hheld fun later hlater => hstop _ _ (hlater.initialization hinit)
  refine holds_load (fun _ => rfl) (fun _ => id) rfl ?_
  intro s₈ h₈
  have hheld₈ := h₈.selecting rfl
  have hinit₈ := h₈.initialization hinit₇
  dsimp only
  split
  swap
  · exact hend s₈ hheld₈ hinit₈
  refine holds_write_bind (fun _ => id) rfl ?_
  rintro s₉ h₉ haccounted₉ _ _ ⟨⟩
  refine ⟨⟨haccounted₉.deselect, fun other _ => rely_deselect⟩, ?_⟩
  refine holds_write_bind (fun _ => id) rfl ?_
  rintro t₁ ht₁ haccounted₁₀ _ _ ⟨⟩
  refine ⟨⟨haccounted₁₀.generation _, fun other _ => rely_advanceGeneration⟩, ?_⟩
  have hmoved := h₉.trans (rely_deselect.trans (ht₁.trans rely_advanceGeneration))
  exact hend _ (hmoved.selecting hheld₈) (hmoved.initialization hinit₈)

/-- The generation is captured first. -/
theorem holds_captured {rest : Nat → TransportM ι Config α}
    (h : ∀ before, Holds route task Q before (rest before.generation)) :
    Holds route task Q s (query .loadGeneration >>= rest) := by
  exact holds_load (fun _ => rfl) (fun _ => id) rfl fun before _ => h before

/-- Every call keeps its promises; where it reports a change of the selection, nothing is
published. -/
theorem holds_program (available : Config → Bool) (call : TransportCall Config) :
    Holds call.requested task
      (fun r after => r = .ok (.selected true) → after.manager = none) s
      (call.program available task) := by
  have hselected : ∀ (r : Except ClientError Bool) (after : GlobalTransport ι Config),
      (r = .ok true → after.manager = none) →
        r.map TransportOutcome.selected = .ok (.selected true) → after.manager = none := by
    intro r after hempty hr
    refine hempty ?_
    cases r with
    | ok changed =>
      cases hr
      rfl
    | error error => cases hr
  have hmanager : ∀ (r : Except ClientError Nat) (after : GlobalTransport ι Config),
      r.map (TransportOutcome.manager ∘ some) = .ok (.selected true) → after.manager = none := by
    intro r after hr
    cases r <;> cases hr
  cases call with
  | selectTransport config => exact Holds.map (holds_selectTransport hselected)
  | selectTransportIfUnset config => exact Holds.map (holds_selectTransportIfUnset hselected)
  | getOrInit config =>
    refine Holds.map (holds_captured ?_)
    intro before
    exact holds_getOrInitForGeneration fun r after _ => hmanager r after
  | getMatching config =>
    exact Holds.map (holds_getMatching (Nat.le_refl _) (fun _ => nofun) fun _ _ _ => nofun)
  | shutdown =>
    refine Holds.map (holds_shutdownTransport ?_)
    intro r after hr
    cases r <;> cases hr
  | connect config pinned initializeTransport =>
    refine holds_captured ?_
    intro before
    exact Holds.map (holds_tryConnect (fun _ => Option.some.inj ∘ Eq.symm) (Nat.le_refl _) hmanager)
  | probe config =>
    refine holds_captured ?_
    intro before
    exact Holds.map
      (holds_tryConnectForProbe (fun _ => Option.some.inj ∘ Eq.symm) (Nat.le_refl _) hmanager)

end TransportM

/-! ## Runs -/

/-- The calls in progress on the transport. -/
abbrev TransportMachine (ι Config : Type) : Type :=
  Machine ι (TransportStatement ι Config) TransportStatement.Reply
    (Except ClientError TransportOutcome) (GlobalTransport ι Config)

section Runs

variable {ι Config : Type} [DecidableEq ι] [DecidableEq Config] (available : Config → Bool)
  (calls : ι → TransportCall Config)

/-- The machine at the start of the process, with the calls it will ever see. -/
def TransportMachine.start : TransportMachine ι Config :=
  Machine.start (fun task => ((calls task).program available task).run) initial

/-- What callers may count on in a state of the machine, whatever selections, connection attempts
and shutdowns are under way. -/
structure Isolated (m : TransportMachine ι Config) : Prop where
  /-- A published manager that is not invalidated has the selected configuration. -/
  published : ∀ k config, m.shared.manager = some k → k ∉ m.shared.invalidated →
    m.shared.desired = some config → m.shared.managers[k]? = some config
  /-- When a selection that was a change returns, every manager is invalidated. -/
  selected : ∀ e m', Machine.Step Executes m e m' →
    m'.pool e.thread = .ret (.ok (.selected true)) →
      ∀ k < m'.shared.managers.length, k ∈ m'.shared.invalidated
  /-- A connection attempt goes through managers of the configuration it asked for, and such a
  manager is invalidated, or published with no other configuration selected. -/
  connected : ∀ e ∈ m.history, ∀ k config, e.stmt.Through k →
    (calls e.thread).requested = some config →
      m.shared.managers[k]? = some config ∧
        (k ∈ m.shared.invalidated ∨ m.shared.manager = some k ∧
          ∀ other, m.shared.desired = some other → other = config)
  /-- A manager is the published one, or invalidated and retired once. -/
  accounted : ∀ k < m.shared.managers.length,
    (m.shared.manager = some k ∧ k ∉ m.shared.invalidated ∧ k ∉ m.shared.retirements) ∨
      (m.shared.manager ≠ some k ∧ k ∈ m.shared.invalidated ∧ m.shared.retirements.count k = 1)

/-- The calls of a machine are still on their outlines. -/
def Routed (m : TransportMachine ι Config) : Prop :=
  Machine.Outlined Executes Accounted Rely
    (fun task before statement _ after =>
      TransportM.Guarantee (calls task).requested task before statement after)
    (fun _ r after => r = .ok (.selected true) → after.manager = none) m

variable {available calls} {m m' : TransportMachine ι Config}
  {allowed : TransportMachine ι Config →
    Event ι (TransportStatement ι Config) TransportStatement.Reply → Prop}

theorem routed_of_reach
    (h : Machine.Reach Executes allowed (TransportMachine.start available calls) m) :
    Routed calls m :=
  Machine.guarded_of_reach Rely.refl (fun _ _ _ _ => Rely.trans)
    (fun _ _ _ _ _ _ hother hguarantee => hguarantee.others _ hother) accounted_initial
    (fun task => TransportM.holds_program available (calls task)) h

/-- What attempts went through keeps its configuration. -/
theorem connected_of_reach
    (h : Machine.Reach Executes allowed (TransportMachine.start available calls) m) :
    ∀ e ∈ m.history, ∀ k config, e.stmt.Through k → (calls e.thread).requested = some config →
      m.shared.managers[k]? = some config := by
  induction h with
  | refl => exact List.forall_mem_nil _
  | tail hreach hstep ih =>
    obtain ⟨e, hrun, -⟩ := hstep
    obtain ⟨⟨-, hguarantee⟩, -⟩ := (routed_of_reach hreach).own Rely.refl hrun
    obtain ⟨k', shared, -, hexec⟩ := hrun
    have hmanagers := executes_managers hexec
    intro past hpast k config hthrough hconfig
    rcases List.mem_append.mp hpast with hold | hnew
    · exact config_of_prefix hmanagers (ih past hold k config hthrough hconfig)
    · obtain rfl := List.mem_singleton.mp hnew
      exact config_of_prefix hmanagers (hguarantee.route k hthrough config hconfig)

/-- **The transport is isolated** in every state that the calls reach, however their statements
interleave. -/
theorem transport_isolated
    (h : Machine.Reach Executes allowed (TransportMachine.start available calls) m) :
    Isolated calls m := by
  have hrouted := routed_of_reach h
  have haccounted : m.shared.Accounted := hrouted.1
  refine ⟨fun k config hk _ => haccounted.desired k config hk, ?_, ?_, ?_⟩
  · intro e m' hstep hreturns k hk
    obtain ⟨⟨haccounted', -⟩, hrest⟩ := hrouted.own Rely.refl hstep
    rw [hreturns] at hrest
    have hempty : m'.shared.manager = none := hrest rfl
    exact (haccounted'.retired k hk (by simp [hempty])).1
  · intro e he k config hthrough hconfig
    have hk := connected_of_reach h e he k config hthrough hconfig
    refine ⟨hk, ?_⟩
    by_cases hmanager : m.shared.manager = some k
    · refine .inr ⟨hmanager, ?_⟩
      intro other hother
      have hsame := haccounted.desired k other hmanager hother
      rw [hk] at hsame
      exact (Option.some.inj hsame).symm
    · exact .inl (haccounted.retired k (List.getElem?_eq_some_iff.mp hk).1 hmanager).1
  · intro k hk
    by_cases hmanager : m.shared.manager = some k
    · obtain ⟨-, hvalid, hunretired⟩ := haccounted.live k hmanager
      exact .inl ⟨hmanager, hvalid, hunretired⟩
    · exact .inr ⟨hmanager, haccounted.retired k hk hmanager⟩

end Runs

/-- The statements that succeed, as long as no call fails or is dropped. -/
def succeed (s : GlobalTransport Nat Nat) (statement : TransportStatement Nat Nat) :
    Option (statement.Reply × GlobalTransport Nat Nat) :=
  (s.run statement).map fun result => (.ok result.1, result.2)

theorem executes_succeed (s : GlobalTransport Nat Nat) (statement : TransportStatement Nat Nat)
    (reply : statement.Reply) (after : GlobalTransport Nat Nat)
    (h : succeed s statement = some (reply, after)) : s.Executes statement reply after := by
  obtain ⟨result, hrun, hsame⟩ := Option.map_eq_some_iff.mp h
  cases hsame
  exact hrun

/-- Two selections and, after each, a connection attempt for the selected configuration. -/
def reselection : Nat → TransportCall Nat
  | 0 => .selectTransport 1
  | 1 => .connect 1 true true
  | 2 => .selectTransport 2
  | 3 => .connect 2 true true
  | _ => .shutdown

/-- The first attempt is overtaken by the second selection while its manager starts. -/
def overtakenCreation : List Nat :=
  List.replicate 7 0 ++ List.replicate 16 1 ++ List.replicate 7 2 ++ List.replicate 4 1 ++
    List.replicate 22 3

theorem transport_isolated_overtaken :
    ∃ m, Machine.Reach Executes (fun _ _ => True)
        (TransportMachine.start (fun _ => true) reselection) m ∧
      (m.shared.manager = some 1 ∧ m.shared.managers = [1, 2] ∧ m.shared.retirements = [0]) ∧
      Isolated reselection m := by
  have hreach : Machine.Reach Executes (fun _ _ => True)
      (TransportMachine.start (fun _ => true) reselection) _ :=
    Machine.reach_attempts executes_succeed (fun _ _ => trivial) _ overtakenCreation
  exact ⟨_, hreach, by decide, transport_isolated hreach⟩

end StashiWallet
