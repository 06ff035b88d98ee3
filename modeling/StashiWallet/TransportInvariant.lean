import StashiWallet.Transport

/-!
# The invariant of the transport state

`Accounted` is what every statement keeps: the published manager is live and has the selected
configuration, and every other manager is invalidated and was retired once. A call counts on
`Rely`: managers stay what they are, the selection changes to another configuration only together
with the counter, and who holds a guard keeps it, and with it an empty slot.
-/

namespace StashiWallet

open Interleaving

namespace GlobalTransport

variable {ι Config : Type}

/-- What holds between any two statements. -/
structure Accounted (s : GlobalTransport ι Config) : Prop where
  live : ∀ k, s.manager = some k →
    k < s.managers.length ∧ k ∉ s.invalidated ∧ k ∉ s.retirements
  desired : ∀ k config, s.manager = some k → s.desired = some config →
    s.managers[k]? = some config
  retired : ∀ k < s.managers.length, s.manager ≠ some k →
    k ∈ s.invalidated ∧ s.retirements.count k = 1
  retirements : ∀ k ∈ s.retirements, k < s.managers.length
  invalidated : ∀ k ∈ s.invalidated, k < s.managers.length
  pending : ∀ k ∈ s.retired, k ∈ s.retirements

/-- What the statements of other calls leave a call. -/
structure Rely (task : ι) (before after : GlobalTransport ι Config) : Prop where
  managers : before.managers <+: after.managers
  retirements : ∀ k ∈ before.retirements, k ∈ after.retirements
  generation : before.generation ≤ after.generation
  desired : after.generation = before.generation →
    after.desired = before.desired ∨ after.desired = none
  selecting : before.selecting = some task → after.selecting = some task
  initialization : before.initialization = some task → after.initialization = some task
  empty : before.selecting = some task ∨ before.initialization = some task →
    before.manager = none → after.manager = none

theorem Rely.refl (task : ι) (s : GlobalTransport ι Config) : Rely task s s where
  managers := List.prefix_rfl
  retirements := fun _ h => h
  generation := Nat.le_refl _
  desired := fun _ => .inl rfl
  selecting := id
  initialization := id
  empty := fun _ => id

theorem Rely.trans {task : ι} {a b c : GlobalTransport ι Config} (hab : Rely task a b)
    (hbc : Rely task b c) : Rely task a c where
  managers := hab.managers.trans hbc.managers
  retirements := fun k hk => hbc.retirements k (hab.retirements k hk)
  generation := hab.generation.trans hbc.generation
  desired := by
    intro hsame
    have hfirst := hab.generation
    have hsecond := hbc.generation
    rcases hbc.desired (by omega) with hkept | hnone
    · rw [hkept]
      exact hab.desired (by omega)
    · exact .inr hnone
  selecting := fun h => hbc.selecting (hab.selecting h)
  initialization := fun h => hbc.initialization (hab.initialization h)
  empty := by
    intro hguard hempty
    exact hbc.empty (hguard.imp hab.selecting hab.initialization) (hab.empty hguard hempty)

/-- The configuration of a manager stays what it is when more are created. -/
theorem config_of_prefix {managers managers' : List Config} {k : Nat} {config : Config}
    (h : managers <+: managers') (hk : managers[k]? = some config) :
    managers'[k]? = some config := by
  obtain ⟨more, rfl⟩ := h
  rw [List.getElem?_append_left (List.getElem?_eq_some_iff.mp hk).1]
  exact hk

theorem Rely.config {task : ι} {before after : GlobalTransport ι Config} {k : Nat}
    {config : Config} (h : Rely task before after) (hk : before.managers[k]? = some config) :
    after.managers[k]? = some config :=
  config_of_prefix h.managers hk

variable {s : GlobalTransport ι Config}

theorem accounted_initial : (initial : GlobalTransport ι Config).Accounted := by
  refine ⟨?_, ?_, ?_, ?_, ?_, ?_⟩ <;> simp [initial]

/-- The manager in the slot is retired. -/
theorem Accounted.retireCurrent (h : s.Accounted) : s.retireCurrent.Accounted := by
  unfold GlobalTransport.retireCurrent
  cases hmanager : s.manager with
  | none => exact h
  | some m =>
    obtain ⟨hcreated, -, hunretired⟩ := h.live m hmanager
    refine ⟨nofun, nofun, ?_, ?_, ?_, ?_⟩
    · intro k hk _
      by_cases hkm : k = m
      · subst hkm
        simp [retire, List.count_eq_zero.mpr hunretired]
      · obtain ⟨hinvalidated, hcount⟩ := h.retired k hk (by simp [hmanager, Ne.symm hkm])
        simp [retire, hinvalidated, hcount, Ne.symm hkm]
    · intro k hk
      rcases List.mem_append.mp hk with hold | hnew
      · exact h.retirements k hold
      · exact List.mem_singleton.mp hnew ▸ hcreated
    · intro k hk
      rcases List.mem_cons.mp hk with hnew | hold
      · exact hnew ▸ hcreated
      · exact h.invalidated k hold
    · intro k hk
      refine List.mem_append.mpr ((List.mem_append.mp hk).imp_left (h.pending k))

@[simp]
theorem retireCurrent_manager : s.retireCurrent.manager = none := by
  unfold GlobalTransport.retireCurrent
  cases hmanager : s.manager with
  | none => exact hmanager
  | some _ => rfl

theorem retireCurrent_managers : s.retireCurrent.managers = s.managers := by
  unfold GlobalTransport.retireCurrent
  split <;> rfl

/-- A manager is created and published in an empty slot, or created and retired. -/
theorem Accounted.publish [DecidableEq Config] {config : Config} {generation : Nat}
    (h : s.Accounted) (hempty : s.manager = none) : (s.publish config generation).2.Accounted := by
  have hlength : (s.managers ++ [config]).length = s.managers.length + 1 := by simp
  have hfresh : s.managers.length ∉ s.retirements := fun hk =>
    Nat.lt_irrefl _ (h.retirements _ hk)
  have hfresh' : s.managers.length ∉ s.invalidated := fun hk =>
    Nat.lt_irrefl _ (h.invalidated _ hk)
  have hold : ∀ k < s.managers.length, k ∈ s.invalidated ∧ s.retirements.count k = 1 := by
    intro k hk
    exact h.retired k hk (by simp [hempty])
  unfold GlobalTransport.publish
  dsimp only
  split
  · refine ⟨?_, ?_, ?_, ?_, ?_, ?_⟩
    · intro k hk
      simp [retire, hempty] at hk
    · intro k config' hk
      simp [retire, hempty] at hk
    · intro k hk _
      by_cases hkm : k = s.managers.length
      · subst hkm
        simp [retire, List.count_eq_zero.mpr hfresh]
      · have hk' : k < s.managers.length := by
          simp only [retire, hlength] at hk
          omega
        obtain ⟨hinvalidated, hcount⟩ := hold k hk'
        simp [retire, hinvalidated, hcount, Ne.symm hkm]
    · intro k hk
      simp only [retire, hlength]
      rcases List.mem_append.mp hk with hk | hk
      · exact Nat.lt_succ_of_lt (h.retirements k hk)
      · exact List.mem_singleton.mp hk ▸ Nat.lt_succ_self _
    · intro k hk
      simp only [retire, hlength]
      rcases List.mem_cons.mp hk with hk | hk
      · exact hk ▸ Nat.lt_succ_self _
      · exact Nat.lt_succ_of_lt (h.invalidated k hk)
    · intro k hk
      exact List.mem_append.mpr ((List.mem_append.mp hk).imp_left (h.pending k))
  · rename_i hcurrent
    push Not at hcurrent
    refine ⟨?_, ?_, ?_, ?_, ?_, h.pending⟩
    · intro k hk
      obtain rfl : s.managers.length = k := Option.some.inj hk
      exact ⟨by simp, hfresh', hfresh⟩
    · intro k config' hk hdesired
      obtain rfl : s.managers.length = k := Option.some.inj hk
      have hselected : s.desired = some config' := hdesired
      have hsame : config' = config := by simpa [hselected] using hcurrent.2
      simp [hsame]
    · intro k hk hkm
      refine hold k ?_
      have hne : s.managers.length ≠ k := fun heq => hkm (by rw [← heq])
      simp only [hlength] at hk
      omega
    · intro k hk
      simp only [hlength]
      exact Nat.lt_succ_of_lt (h.retirements k hk)
    · intro k hk
      simp only [hlength]
      exact Nat.lt_succ_of_lt (h.invalidated k hk)

theorem Accounted.shutdownManager {manager : Nat} (h : s.Accounted)
    (hmanager : manager ∈ s.retirements) :
    { s with invalidated := manager :: s.invalidated }.Accounted where
  live := by
    intro k hk
    obtain ⟨hcreated, hvalid, hunretired⟩ := h.live k hk
    refine ⟨hcreated, ?_, hunretired⟩
    rw [List.mem_cons]
    rintro (rfl | hinvalidated)
    · exact hunretired hmanager
    · exact hvalid hinvalidated
  desired := h.desired
  retired := fun k hk hne => (h.retired k hk hne).imp_left (List.mem_cons_of_mem _)
  retirements := h.retirements
  invalidated := by
    intro k hk
    rcases List.mem_cons.mp hk with rfl | hk
    · exact h.retirements _ hmanager
    · exact h.invalidated k hk
  pending := h.pending

theorem Accounted.takeRetired (h : s.Accounted) : { s with retired := [] }.Accounted :=
  { h with pending := nofun }

variable {task : ι}

theorem rely_shutdownManager {manager : Nat} :
    Rely task s { s with invalidated := manager :: s.invalidated } :=
  { Rely.refl task s with }

theorem rely_takeRetired : Rely task s { s with retired := [] } := { Rely.refl task s with }

theorem rely_retireCurrent : Rely task s s.retireCurrent := by
  unfold GlobalTransport.retireCurrent
  split
  · exact { Rely.refl task s with
      retirements := fun k hk => List.mem_append_left _ hk
      empty := fun _ _ => rfl }
  · exact Rely.refl task s

/-- A free initialization guard is nobody's, and a held one only its holder's. -/
theorem rely_initialization {holder : Option ι} (h : s.initialization ≠ some task) :
    Rely task s { s with initialization := holder } :=
  { Rely.refl task s with
    initialization := fun heq => absurd heq h
    empty := fun _ => id }

theorem rely_selecting {holder : Option ι} (h : s.selecting ≠ some task) :
    Rely task s { s with selecting := holder } :=
  { Rely.refl task s with
    selecting := fun heq => absurd heq h
    empty := fun _ => id }

variable (h : s.Accounted)

include h

theorem Accounted.initialization (holder : Option ι) :
    { s with initialization := holder }.Accounted :=
  { h with }

theorem Accounted.selecting (holder : Option ι) : { s with selecting := holder }.Accounted :=
  { h with }

theorem Accounted.generation (generation : Nat) : { s with generation := generation }.Accounted :=
  { h with }

theorem Accounted.shutdownGeneration (generation : Nat) :
    { s with shutdownGeneration := generation }.Accounted :=
  { h with }

theorem Accounted.deselect : { s with desired := none }.Accounted :=
  { h with desired := nofun }

/-- With nothing published, any configuration may be selected. -/
theorem Accounted.select {config : Config} (hempty : s.manager = none) :
    { s with generation := s.generation + 1, desired := some config }.Accounted :=
  { h with desired := fun _ _ hk => by simp [hempty] at hk }

omit h

theorem rely_advanceGeneration : Rely task s { s with generation := s.generation + 1 } :=
  { Rely.refl task s with
    generation := Nat.le_succ _
    desired := fun _ => .inl rfl
    empty := fun _ => id }

theorem rely_shutdownGeneration {generation : Nat} :
    Rely task s { s with shutdownGeneration := generation } :=
  { Rely.refl task s with }

theorem rely_deselect : Rely task s { s with desired := none } :=
  { Rely.refl task s with
    desired := fun _ => .inr rfl
    empty := fun _ => id }

theorem rely_select {config : Config} :
    Rely task s { s with generation := s.generation + 1, desired := some config } :=
  { Rely.refl task s with
    generation := Nat.le_succ _
    desired := fun hsame => absurd hsame (Nat.succ_ne_self _)
    empty := fun _ => id }

/-- A publication moves only what the holder of both locks can move. -/
theorem rely_publish [DecidableEq Config] {config : Config} {generation : Nat}
    (hselecting : s.selecting ≠ some task) (hinitialization : s.initialization ≠ some task) :
    Rely task s (s.publish config generation).2 := by
  unfold GlobalTransport.publish
  dsimp only
  split
  · exact { Rely.refl task s with
      managers := List.prefix_append _ _
      retirements := fun k hk => List.mem_append_left _ hk }
  · exact { Rely.refl task s with
      managers := List.prefix_append _ _
      empty := fun h => absurd h (not_or_intro hselecting hinitialization) }

theorem publish_initialization [DecidableEq Config] {config : Config} {generation : Nat} :
    (s.publish config generation).2.initialization = s.initialization := by
  unfold GlobalTransport.publish
  dsimp only
  split <;> rfl

theorem publish_managers [DecidableEq Config] {config : Config} {generation : Nat} :
    (s.publish config generation).2.managers = s.managers ++ [config] := by
  unfold GlobalTransport.publish
  dsimp only
  split <;> rfl

/-- No manager is forgotten. -/
theorem executes_managers [DecidableEq ι] [DecidableEq Config] {after : GlobalTransport ι Config}
    {statement : TransportStatement ι Config} {reply : statement.Reply}
    (h : s.Executes statement reply after) : s.managers <+: after.managers := by
  cases reply with
  | error error =>
    obtain ⟨-, rfl⟩ := h
    exact List.prefix_rfl
  | ok answer =>
    have hrun : s.run statement = some (answer, after) := h
    cases statement with
    | publish config generation =>
      obtain ⟨-, hpublish⟩ := Option.ite_none_right_eq_some.mp hrun
      obtain rfl : (s.publish config generation).2 = after :=
        congrArg Prod.snd (Option.some.inj hpublish)
      rw [publish_managers]
      exact List.prefix_append _ _
    | retireCurrent =>
      cases hrun
      exact retireCurrent_managers.symm ▸ List.prefix_rfl
    | readDesired | lockSelection | lockInitialization =>
      obtain ⟨-, hsame⟩ := Option.ite_none_right_eq_some.mp hrun
      cases hsame
      exact List.prefix_rfl
    | _ =>
      cases hrun
      exact List.prefix_rfl

/-- A manager that was published has the configuration it was asked for. -/
theorem publish_config [DecidableEq Config] {config : Config} {generation k : Nat}
    (h : (s.publish config generation).1 = some k) :
    (s.publish config generation).2.managers[k]? = some config := by
  unfold GlobalTransport.publish at h ⊢
  dsimp only at h ⊢
  split at h
  · cases h
  · rename_i hcurrent
    obtain rfl := Option.some.inj h
    rw [if_neg hcurrent]
    simp

end GlobalTransport

end StashiWallet
