import StashiWallet.AppViews

/-!
# Which duress passphrase is accepted

The owner configures a duress passphrase and expects exactly it to be accepted, until it is
changed or cleared. Rows, plain file and session agree with the configuration between any two
calls (`DuressConfig.Agrees`), as long as the calls are made with care (`DuressCall.Careful`):
the app passphrase is not changed to the duress passphrase, the one that is read backwards is
not left behind, and nothing is cleared while the app is locked.
-/

namespace StashiWallet

/-- What the owner configured last. -/
inductive DuressConfig where
  | unset
  | custom (passphrase : String)
  | reverse
deriving DecidableEq

/-- The passphrase the owner expects to be accepted. -/
def DuressConfig.expected (current : Option String) : DuressConfig → Option String
  | .unset => none
  | .custom passphrase => some passphrase
  | .reverse => current.map reversePassphrase

/-- What a call of `set_duress_passphrase` configures. -/
def DuressConfig.chosen (customPassphrase : Option String) : DuressConfig :=
  match (customPassphrase.map trim).filter (fun value => value != "") with
  | some passphrase => .custom passphrase
  | none => .reverse

/-- A call, with what it meets, or a restart. Beside openings of the registry only the refresh
inside `change_app_passphrase`, its wallets and its rekey fail. -/
inductive DuressCall (F : Type) where
  | setAppPassphrase (call : OpenCall F) (passphrase : String)
  | changeAppPassphrase (opening : RegistryOpening F) (faults : ChangeFaults F)
      (currentPassphrase newPassphrase : String)
  | unlockApp (opening : RegistryOpening F) (loadFails : Bool) (passphrase : String)
  | setDuressPassphrase (opening : RegistryOpening F) (customPassphrase : Option String)
  | clearDuressPassphrase (opening : RegistryOpening F)
  | verifyDuressPassphrase (opening : RegistryOpening F) (now : Int) (passphrase : String)
  | restart

section Calls

variable {F : Type} [DecidableEq F] (keys : AppKeys F)

/-- The faults of a change whose other statements go through. -/
def ChangeFaults.onlyRefresh (faults : ChangeFaults F) : ChangeFaults F :=
  { faults with hash := .none, clearHash := .none, clearReverse := .none }

/-- One call, and what is configured after it. -/
def DuressCall.step (s : AppState F × DuressConfig) : DuressCall F → AppState F × DuressConfig
  | .setAppPassphrase call passphrase =>
    ((StashiWallet.setAppPassphrase keys ⟨call, false⟩ .none passphrase).after s.1, s.2)
  | .changeAppPassphrase opening faults currentPassphrase newPassphrase =>
    ((changeRegistryPassphrase keys ⟨opening, false⟩ faults.onlyRefresh currentPassphrase
      newPassphrase).after s.1, s.2)
  | .unlockApp opening loadFails passphrase =>
    ((StashiWallet.unlockApp keys ⟨opening, false⟩ ⟨loadFails, false, false⟩ passphrase).after s.1,
      s.2)
  | .setDuressPassphrase opening customPassphrase =>
    let call := StashiWallet.setDuressPassphrase keys opening .none customPassphrase
    (call.after s.1,
      match call.result s.1 with
      | .ok _ => .chosen customPassphrase
      | .error _ => s.2)
  | .clearDuressPassphrase opening =>
    let call := StashiWallet.clearDuressPassphrase keys opening .none
    (call.after s.1,
      match call.result s.1 with
      | .ok _ => .unset
      | .error _ => s.2)
  | .verifyDuressPassphrase opening now passphrase =>
    ((StashiWallet.verifyDuressPassphrase keys opening false false now passphrase).after s.1, s.2)
  | .restart => (s.1.restart, s.2)

/-- Exactly the passphrase that is configured is accepted, and it is not the app passphrase, whose
hash is stored. -/
def DuressCall.AnswersRight (s : AppState F × DuressConfig) : DuressCall F → Prop
  | .verifyDuressPassphrase opening now passphrase =>
    let call := StashiWallet.verifyDuressPassphrase keys opening false false now passphrase
    ∃ current : Option String,
      s.1.setting REGISTRY_APP_PASSPHRASE_KEY = current.map keys.hash ∧
      (call.result s.1 = .ok true ↔ s.2.expected current = some passphrase) ∧
      (call.result s.1 = .ok true → current ≠ some passphrase)
  | _ => True

/-- What is asked of a call: it neither makes the configured duress passphrase the app passphrase
nor leaves the reverse of an earlier one in force, and it clears the duress passphrase only where
the registry opens. -/
def DuressCall.Careful (s : AppState F × DuressConfig) : DuressCall F → Prop
  | .setAppPassphrase call passphrase =>
    validatePassphrase passphrase = .ok () →
      (openWalletRegistryWithPassphrase keys ⟨call, false⟩ passphrase).result s.1 = .ok () →
        s.2 ≠ .custom passphrase ∧
          (s.2 = .reverse →
            s.1.setting REGISTRY_APP_PASSPHRASE_KEY = some (keys.hash passphrase))
  | .changeAppPassphrase opening faults currentPassphrase newPassphrase =>
    (verifyAppPassphrase keys ⟨opening, false⟩ currentPassphrase).result s.1 = .ok true →
      faults.GoesThrough newPassphrase →
        s.2 ≠ .custom newPassphrase ∧ (s.2 = .reverse → faults.refresh.Clean)
  | .clearDuressPassphrase opening =>
    s.2 ≠ .unset → (openWalletRegistry keys opening).result s.1 = .ok ()
  | _ => True

end Calls

/-! ## The invariant -/

section Invariant

variable {F : Type}

/-- Rows, plain file and session agree with the configuration and the app passphrase. -/
structure DuressConfig.Agrees (keys : AppKeys F) (config : DuressConfig) (current : String)
    (view : AppView) : Prop where
  registry : view.registryExists = true
  app : view.appHash = some (keys.hash current)
  valid : validatePassphrase current = .ok ()
  duress : view.duressHash = (config.expected (some current)).map keys.hash
  sidecar : view.duressSidecar = view.duressHash
  reverse : view.useReverse = some "true" ↔ config = .reverse
  unset : config = .unset → view.useReverse = none
  session : ∀ passphrase, view.passphrase = some passphrase → passphrase = current
  other : config ≠ .custom current

/-- An app that was never set up. -/
def AppView.fresh : AppView := ⟨false, none, none, none, none, none⟩

/-- An app that was never set up, or one that agrees with its configuration. -/
def DuressConfig.Holds (keys : AppKeys F) (config : DuressConfig) (view : AppView) : Prop :=
  view = .fresh ∧ config = .unset ∨
    ∃ current, config.Agrees keys current view

variable {keys : AppKeys F} {config : DuressConfig} {current : String} {view : AppView}

/-- The expected passphrase is not the app passphrase. -/
theorem DuressConfig.Agrees.expected_ne (h : config.Agrees keys current view) :
    config.expected (some current) ≠ some current := by
  cases config with
  | unset => nofun
  | custom passphrase => exact fun heq => h.other (congrArg _ (Option.some.inj heq))
  | reverse => exact fun heq => (validatePassphrase_reverse h.valid).2 (Option.some.inj heq)

theorem DuressConfig.Holds.sidecar (h : config.Holds keys view) :
    view.duressSidecar = view.duressHash := by
  rcases h with ⟨rfl, -⟩ | ⟨current, hagrees⟩
  · rfl
  · exact hagrees.sidecar

/-- What is stored are the hashes of the app passphrase and of what is expected with it. -/
theorem DuressConfig.Holds.duress (h : config.Holds keys view) : ∃ current : Option String,
    view.appHash = current.map keys.hash ∧
      view.duressHash = (config.expected current).map keys.hash ∧
      ∀ passphrase, config.expected current = some passphrase → current ≠ some passphrase := by
  rcases h with ⟨rfl, rfl⟩ | ⟨current, hagrees⟩
  · exact ⟨none, rfl, rfl, nofun⟩
  · refine ⟨some current, hagrees.app, hagrees.duress, fun passphrase hexpected heq => ?_⟩
    exact hagrees.expected_ne (hexpected.trans heq.symm)

/-- The session does not matter, as long as its passphrase is the app passphrase. -/
theorem DuressConfig.Agrees.withPassphrase (h : config.Agrees keys current view) :
    config.Agrees keys current (view.withPassphrase (some current)) :=
  { h with session := fun _ heq => (Option.some.inj heq).symm }

/-- What `set_duress_passphrase` chooses is what it configures. -/
theorem chooseDuressPassphrase_eq_ok {customPassphrase : Option String} {chosen : String × Bool}
    (h : chooseDuressPassphrase customPassphrase current = .ok chosen) :
    chosen.1 ≠ current ∧
      (DuressConfig.chosen customPassphrase).expected (some current) = some chosen.1 ∧
      (chosen.2 = true ↔ DuressConfig.chosen customPassphrase = .reverse) ∧
      DuressConfig.chosen customPassphrase ≠ .unset := by
  unfold chooseDuressPassphrase at h
  obtain ⟨chosen', hchosen, hother⟩ := bind_eq_ok h
  have hne : chosen'.1 ≠ current := by
    intro heq
    rw [if_pos heq] at hother
    cases hother
  rw [if_neg hne] at hother
  obtain rfl := Except.ok.inj hother
  refine ⟨hne, ?_⟩
  unfold customOrReverse at hchosen
  unfold DuressConfig.chosen
  cases hcustom : (customPassphrase.map trim).filter (fun value => value != "") with
  | some value =>
    rw [hcustom] at hchosen
    obtain ⟨-, -, hpair⟩ := bind_eq_ok hchosen
    obtain rfl := Except.ok.inj hpair
    exact ⟨rfl, iff_of_false nofun nofun, nofun⟩
  | none =>
    rw [hcustom] at hchosen
    dsimp only at hchosen
    split at hchosen
    · cases hchosen
    · obtain rfl := Except.ok.inj hchosen
      exact ⟨rfl, iff_of_true rfl rfl, nofun⟩

variable (h : config.Agrees keys current view)

include h

/-- A duress passphrase was set. -/
theorem DuressConfig.Agrees.set {customPassphrase : Option String} {chosen : String × Bool}
    (hchosen : chooseDuressPassphrase customPassphrase current = .ok chosen) :
    (DuressConfig.chosen customPassphrase).Agrees keys current { view with
      duressHash := some (keys.hash chosen.1)
      useReverse := some (if chosen.2 then "true" else "false")
      duressSidecar := some (keys.hash chosen.1) } := by
  obtain ⟨hne, hexpected, hreverse, hset⟩ := chooseDuressPassphrase_eq_ok hchosen
  refine ⟨h.registry, h.app, h.valid, ?_, rfl, ?_, fun hunset => absurd hunset hset, h.session,
    fun hsame => hne ?_⟩
  · rw [hexpected]
    rfl
  · rw [← hreverse]
    cases chosen.2 with
    | true => exact iff_of_true rfl rfl
    | false => exact iff_of_false (show some "false" ≠ some "true" by decide) Bool.false_ne_true
  · rw [hsame] at hexpected
    exact (Option.some.inj hexpected).symm

/-- The duress passphrase was cleared. -/
theorem DuressConfig.Agrees.cleared : DuressConfig.unset.Agrees keys current view.cleared :=
  ⟨h.registry, h.app, h.valid, rfl, rfl, iff_of_false nofun nofun, fun _ => rfl, h.session, nofun⟩

/-- The app passphrase was changed with care. -/
theorem DuressConfig.Agrees.changed {newPassphrase : String}
    (hvalid : validatePassphrase newPassphrase = .ok ()) (hother : config ≠ .custom newPassphrase) :
    config.Agrees keys newPassphrase (view.changed keys newPassphrase) := by
  unfold AppView.changed
  by_cases hreverse : config = .reverse
  · subst hreverse
    rw [if_pos (h.reverse.mpr rfl)]
    exact ⟨h.registry, rfl, hvalid, rfl, rfl, h.reverse, nofun,
      fun _ heq => (Option.some.inj heq).symm, nofun⟩
  · rw [if_neg (fun hmode => hreverse (h.reverse.mp hmode))]
    refine ⟨h.registry, rfl, hvalid, ?_, h.sidecar, h.reverse, h.unset,
      fun _ heq => (Option.some.inj heq).symm, hother⟩
    show view.duressHash = _
    rw [h.duress]
    cases config with
    | unset => rfl
    | custom passphrase => rfl
    | reverse => exact absurd rfl hreverse

/-- The app passphrase was set again with care. -/
theorem DuressConfig.Agrees.setAgain {newPassphrase : String}
    (hvalid : validatePassphrase newPassphrase = .ok ()) (hother : config ≠ .custom newPassphrase)
    (hreverse : config = .reverse → current = newPassphrase) :
    config.Agrees keys newPassphrase { view with
      appHash := some (keys.hash newPassphrase)
      passphrase := some newPassphrase } := by
  refine ⟨h.registry, rfl, hvalid, ?_, h.sidecar, h.reverse, h.unset,
    fun _ heq => (Option.some.inj heq).symm, hother⟩
  show view.duressHash = _
  rw [h.duress]
  cases config with
  | unset => rfl
  | custom passphrase => rfl
  | reverse => rw [hreverse rfl]

omit h

/-- After the first passphrase was set there is no duress passphrase. -/
theorem DuressConfig.agrees_new {newPassphrase : String}
    (hvalid : validatePassphrase newPassphrase = .ok ()) :
    DuressConfig.unset.Agrees keys newPassphrase
      ⟨true, some (keys.hash newPassphrase), none, none, none, some newPassphrase⟩ :=
  ⟨rfl, rfl, hvalid, rfl, rfl, iff_of_false nofun nofun, fun _ => rfl,
    fun _ heq => (Option.some.inj heq).symm, nofun⟩

end Invariant

/-! ## One call -/

section Step

open Script

variable {F : Type} [DecidableEq F] {keys : AppKeys F} {config : DuressConfig}
  {state : AppState F}

omit [DecidableEq F] in
/-- Where there is no registry a call ends at its first check. -/
theorem triple_missing {α : Type} (next : AppState F → AppScript F α) (message : String) :
    Triple (AppState.Shows .fresh)
      (do
        let state ← Script.state
        Script.ensure (state.registry.database.isSome = true) message
        next state : AppScript F α)
      (fun _ _ => False) (AppState.Shows .fresh) := by
  refine Triple.bind (Q := fun found after => found.Shows .fresh ∧ after.Shows .fresh)
    (fun _ hstate => ⟨hstate, hstate⟩) (fun found => triple_of_and (fun hfound => ?_))
  refine (triple_ensure (fun _ hstate _ => hstate)).bind (fun _ =>
    triple_of_and (fun hexists => ?_))
  exact absurd ((congrArg AppView.registryExists hfound).symm.trans hexists) (by decide)

/-- Before the app is set up only `set_app_passphrase` does anything. -/
theorem DuressCall.step_new (hview : state.Shows .fresh) (call : DuressCall F) :
    (call.step keys (state, .unset)).2.Holds keys (call.step keys (state, .unset)).1.view := by
  have hkeeps : ∀ {α : Type} {script : AppScript F α},
      Triple (AppState.Shows .fresh) script (fun _ => AppState.Shows .fresh)
        (AppState.Shows .fresh) →
      DuressConfig.unset.Holds keys (script.after state).view := by
    intro α script htriple
    refine Or.inl ⟨?_, rfl⟩
    cases hresult : script.result state with
    | ok a => exact htriple.of_ok hview hresult
    | error message => exact htriple.of_error hview hresult
  unfold DuressCall.step
  cases call with
  | setAppPassphrase call passphrase =>
    dsimp only
    have htriple := @triple_setAppPassphrase F _ keys .fresh _ _ True ⟨call, false⟩ passphrase
      (fun _ hstate => hstate) rfl
      ((triple_opening_new ⟨rfl, rfl, rfl, rfl⟩ call passphrase).weaken (fun _ hstate => hstate)
        (fun _ _ hstate => ⟨trivial, hstate⟩) (fun _ hstate => hstate))
    cases hresult : (StashiWallet.setAppPassphrase keys ⟨call, false⟩ .none passphrase).result
        state with
    | ok a =>
      obtain ⟨⟨-, hvalid⟩, hshows⟩ := htriple.of_ok hview hresult
      refine Or.inr ⟨passphrase, ?_⟩
      exact hshows.symm ▸ DuressConfig.agrees_new hvalid
    | error message => exact Or.inl ⟨htriple.of_error hview hresult, rfl⟩
  | changeAppPassphrase opening faults currentPassphrase newPassphrase =>
    dsimp only
    have hverify : Triple (AppState.Shows .fresh)
        (verifyAppPassphrase keys ⟨opening, false⟩ currentPassphrase) (fun _ _ => False)
        (AppState.Shows .fresh) := triple_missing _ _
    have htriple : Triple (AppState.Shows .fresh) (changeRegistryPassphrase keys ⟨opening, false⟩
        faults.onlyRefresh currentPassphrase newPassphrase) (fun _ => AppState.Shows .fresh)
        (AppState.Shows .fresh) := by
      refine (triple_lift (fun _ hstate => hstate)).bind (fun _ => triple_of_and (fun _ => ?_))
      exact hverify.bind (fun _ _ => False.elim)
    exact hkeeps htriple
  | unlockApp opening loadFails passphrase =>
    dsimp only
    have htriple : Triple (AppState.Shows .fresh) (StashiWallet.unlockApp keys ⟨opening, false⟩
        ⟨loadFails, false, false⟩ passphrase) (fun _ _ => False) (AppState.Shows .fresh) :=
      triple_missing _ _
    exact hkeeps (htriple.weaken (fun _ hstate => hstate) (fun _ _ => False.elim)
      (fun _ hstate => hstate))
  | setDuressPassphrase opening customPassphrase =>
    dsimp only
    have htriple : Triple (AppState.Shows .fresh)
        (StashiWallet.setDuressPassphrase keys opening .none customPassphrase)
        (fun _ _ => False) (AppState.Shows .fresh) :=
      triple_appPassphrase.bind (fun _ => triple_of_and (fun hcached => nomatch hcached))
    cases hresult : (StashiWallet.setDuressPassphrase keys opening .none
        customPassphrase).result state with
    | ok _ => exact (htriple.of_ok hview hresult).elim
    | error message => exact Or.inl ⟨htriple.of_error hview hresult, rfl⟩
  | clearDuressPassphrase opening =>
    dsimp only
    have htriple : Triple (AppState.Shows .fresh)
        (StashiWallet.clearDuressPassphrase keys opening .none)
        (fun _ => AppState.Shows .fresh) (AppState.Shows .fresh) := by
      refine Triple.bind (E := AppState.Shows .fresh)
        (Q := fun opened state => opened = false ∧ state.Shows .fresh) ?_ (fun opened =>
          triple_of_and (P := AppState.Shows .fresh) (fun hopened => ?_))
      · refine Triple.bind (Q := fun found after => found.Shows .fresh ∧ after.Shows .fresh)
          (fun _ hstate => ⟨hstate, hstate⟩) (fun found => triple_of_and (fun hfound => ?_))
        have hdatabase : found.registry.database.isSome = false :=
          congrArg AppView.registryExists hfound
        rw [hdatabase, if_neg Bool.false_ne_true]
        exact fun _ hstate => ⟨rfl, hstate⟩
      · subst hopened
        exact @triple_clearDuressSettings F .fresh (AppState.Shows .fresh) false
    have hkept := hkeeps htriple
    cases (StashiWallet.clearDuressPassphrase keys opening .none).result state with
    | ok _ => exact hkept
    | error message => exact hkept
  | verifyDuressPassphrase opening now passphrase =>
    dsimp only
    exact hkeeps ((triple_verifyDuressPassphrase rfl opening false false now passphrase).weaken
      (fun _ hstate => hstate) (fun _ _ hstate => hstate.2) (fun _ hstate => hstate))
  | restart =>
    dsimp only
    refine Or.inl ⟨?_, rfl⟩
    have hrestart : state.restart.view = state.view.withPassphrase none := rfl
    rw [hrestart, hview]
    rfl

/-- Every call that is made with care keeps the agreement. -/
theorem DuressCall.step_agrees {current : String} (h : config.Agrees keys current state.view)
    (call : DuressCall F) (hcareful : call.Careful keys (state, config)) :
    ∃ current', (call.step keys (state, config)).2.Agrees keys current'
      (call.step keys (state, config)).1.view := by
  have hshows : state.Shows state.view := rfl
  unfold DuressCall.step
  cases call with
  | setAppPassphrase call passphrase =>
    dsimp only
    have hopen := (@triple_opening F _ keys _ h.registry ⟨call, false⟩ passphrase).of_result
      (fun _ => validatePassphrase passphrase = .ok () → config ≠ .custom passphrase ∧
        (config = .reverse → state.setting REGISTRY_APP_PASSPHRASE_KEY = some (keys.hash passphrase)))
    have htriple := triple_setAppPassphrase (fun _ hstate => hstate.2) h.registry hopen
    cases hresult : (StashiWallet.setAppPassphrase keys ⟨call, false⟩ .none passphrase).result
        state with
    | ok a =>
      obtain ⟨⟨hallowed, hvalid⟩, hafter⟩ :=
        htriple.of_ok ⟨fun _ hopened hvalid => hcareful hvalid hopened, hshows⟩ hresult
      obtain ⟨hother, hreverse⟩ := hallowed hvalid
      refine ⟨passphrase, hafter.symm ▸ h.setAgain hvalid hother (fun hmode => ?_)⟩
      exact keys.hash_injective (Option.some.inj (h.app.symm.trans (hreverse hmode)))
    | error message =>
      have hafter := htriple.of_error
        ⟨fun _ hopened hvalid => hcareful hvalid hopened, hshows⟩ hresult
      exact ⟨current, hafter.symm ▸ h⟩
  | changeAppPassphrase opening faults currentPassphrase newPassphrase =>
    dsimp only
    have htriple := @triple_changeRegistryPassphrase F _ keys state.view h.registry current h.app
      opening faults.onlyRefresh rfl currentPassphrase newPassphrase
      (faults.GoesThrough newPassphrase →
        config ≠ .custom newPassphrase ∧ (config = .reverse → faults.refresh.Clean))
      (fun hallowed hthrough hmode => (hallowed hthrough).2 (h.reverse.mp hmode))
    have hstart : (∀ verified, (verifyAppPassphrase keys ⟨opening, false⟩
        currentPassphrase).result state = .ok verified → verified = true →
        faults.GoesThrough newPassphrase →
          config ≠ .custom newPassphrase ∧ (config = .reverse → faults.refresh.Clean)) ∧
        state.Shows state.view := by
      refine ⟨fun verified hverified hok => ?_, hshows⟩
      subst hok
      exact hcareful hverified
    have hchanged : ∀ {after : AppState F},
        ((faults.GoesThrough newPassphrase →
          config ≠ .custom newPassphrase ∧ (config = .reverse → faults.refresh.Clean)) ∧
          faults.GoesThrough newPassphrase) ∧ after.Shows (state.view.changed keys newPassphrase) →
        ∃ current', config.Agrees keys current' after.view := by
      rintro after ⟨⟨hallowed, hthrough⟩, hafter⟩
      exact ⟨newPassphrase, hafter.symm ▸ h.changed hthrough.1 (hallowed hthrough).1⟩
    cases hresult : (changeRegistryPassphrase keys ⟨opening, false⟩ faults.onlyRefresh
        currentPassphrase newPassphrase).result state with
    | ok a => exact hchanged (htriple.of_ok hstart hresult)
    | error message =>
      rcases htriple.of_error hstart hresult with hafter | hafter | hafter
      · exact ⟨current, hafter.symm ▸ h⟩
      · exact ⟨current, hafter.symm ▸ h.withPassphrase⟩
      · exact hchanged hafter
  | unlockApp opening loadFails passphrase =>
    dsimp only
    have htriple := @triple_unlockApp F _ keys state.view h.registry current h.app opening
      loadFails passphrase
    cases hresult : (StashiWallet.unlockApp keys ⟨opening, false⟩ ⟨loadFails, false, false⟩
        passphrase).result state with
    | ok a =>
      have hafter := htriple.of_ok hshows hresult
      refine ⟨current, hafter.symm ▸ { h.withPassphrase with sidecar := rfl }⟩
    | error message =>
      rcases htriple.of_error hshows hresult with hafter | hafter
      · exact ⟨current, hafter.symm ▸ h⟩
      · exact ⟨current, hafter.symm ▸ h.withPassphrase⟩
  | setDuressPassphrase opening customPassphrase =>
    dsimp only
    have htriple := @triple_setDuressPassphrase F _ keys state.view h.registry opening
      customPassphrase
    cases hresult : (StashiWallet.setDuressPassphrase keys opening .none
        customPassphrase).result state with
    | ok a =>
      obtain ⟨cached, chosen, hcached, hchosen, hafter⟩ := htriple.of_ok hshows hresult
      obtain rfl := h.session cached hcached
      exact ⟨cached, hafter.symm ▸ h.set hchosen⟩
    | error message => exact ⟨current, (htriple.of_error hshows hresult).symm ▸ h⟩
  | clearDuressPassphrase opening =>
    dsimp only
    have htriple := @triple_clearDuressPassphrase F _ keys state.view (fun _ => False) h.registry
      opening (config ≠ .unset)
    cases hresult : (StashiWallet.clearDuressPassphrase keys opening .none).result state with
    | ok a =>
      refine ⟨current, ?_⟩
      rcases htriple.of_ok ⟨hcareful, hshows⟩ hresult with hafter | ⟨hunset, hafter⟩
      · exact hafter.symm ▸ h.cleared
      · obtain rfl := not_not.mp hunset
        exact hafter.symm ▸ { h with sidecar := h.duress.symm }
    | error message => exact (htriple.of_error ⟨hcareful, hshows⟩ hresult).elim
  | verifyDuressPassphrase opening now passphrase =>
    dsimp only
    have htriple := @triple_verifyDuressPassphrase F _ keys state.view (fun _ => False) h.sidecar
      opening false false now passphrase
    cases hresult : (StashiWallet.verifyDuressPassphrase keys opening false false now
        passphrase).result state with
    | ok a => exact ⟨current, (htriple.of_ok hshows hresult).2.symm ▸ h⟩
    | error message => exact (htriple.of_error hshows hresult).elim
  | restart =>
    have hrestart : state.restart.view = state.view.withPassphrase none := rfl
    exact ⟨current, hrestart.symm ▸ { h with session := nofun }⟩

/-- Every call that is made with care keeps the invariant. -/
theorem DuressCall.step_holds {s : AppState F × DuressConfig} (h : s.2.Holds keys s.1.view)
    (call : DuressCall F) (hcareful : call.Careful keys s) :
    (call.step keys s).2.Holds keys (call.step keys s).1.view := by
  obtain ⟨state, config⟩ := s
  rcases h with ⟨hview, rfl⟩ | ⟨current, hagrees⟩
  · exact DuressCall.step_new hview call
  · exact Or.inr (DuressCall.step_agrees hagrees call hcareful)

/-- While the invariant holds, a check of the duress passphrase answers as expected. -/
theorem DuressCall.answersRight {s : AppState F × DuressConfig} (h : s.2.Holds keys s.1.view)
    (call : DuressCall F) : call.AnswersRight keys s := by
  cases call with
  | verifyDuressPassphrase opening now passphrase =>
    have htriple := @triple_verifyDuressPassphrase F _ keys s.1.view (fun _ => False) h.sidecar
      opening false false now passphrase
    obtain ⟨current, happ, hduress, hother⟩ := h.duress
    have hanswer : (StashiWallet.verifyDuressPassphrase keys opening false false now
        passphrase).result s.1 = .ok true ↔ s.2.expected current = some passphrase := by
      cases hresult : (StashiWallet.verifyDuressPassphrase keys opening false false now
          passphrase).result s.1 with
      | ok isMatch =>
        rw [(htriple.of_ok rfl hresult).1, Except.ok.injEq, decide_eq_true_iff, hduress]
        exact (Option.map_injective keys.hash_injective).eq_iff' rfl
      | error message => exact (htriple.of_error rfl hresult).elim
    exact ⟨current, happ, hanswer, fun hok => hother passphrase (hanswer.mp hok)⟩
  | setAppPassphrase call passphrase => exact trivial
  | changeAppPassphrase opening faults currentPassphrase newPassphrase => exact trivial
  | unlockApp opening loadFails passphrase => exact trivial
  | setDuressPassphrase opening customPassphrase => exact trivial
  | clearDuressPassphrase opening => exact trivial
  | restart => exact trivial

/-- **Which duress passphrase is accepted.** From an app that is new or agrees with its
configuration, as long as every call is made with care, each check accepts exactly the duress
passphrase configured last, and never the app passphrase. -/
theorem only_configured_duress_accepted (keys : AppKeys F)
    (s : AppState F × DuressConfig) (hs : s.2.Holds keys s.1.view) (calls : List (DuressCall F))
    (hcareful : Runs.EachStep (DuressCall.step keys) (DuressCall.Careful keys) s calls) :
    Runs.EachStep (DuressCall.step keys) (DuressCall.AnswersRight keys) s calls := by
  induction calls generalizing s with
  | nil => exact Runs.eachStep_nil
  | cons call calls ih =>
    obtain ⟨hcall, hcalls⟩ := Runs.eachStep_cons.mp hcareful
    exact Runs.eachStep_cons.mpr
      ⟨DuressCall.answersRight hs call, ih _ (DuressCall.step_holds hs call hcall) hcalls⟩

end Step

/-! ## Calls without care -/

/-- The reverse of the app passphrase is configured, and accepted after a restart. -/
theorem only_configured_duress_accepted_after_restart :
    Runs.EachStep (DuressCall.step clearKeys) (DuressCall.AnswersRight clearKeys)
      (freshApp.1, .unset)
      [.setAppPassphrase clearOpening.call "Correct-Horse-9",
        .setDuressPassphrase clearOpening none, .restart,
        .verifyDuressPassphrase clearOpening 0 "9-esroH-tcerroC"] := by
  refine only_configured_duress_accepted clearKeys _ (Or.inl ⟨rfl, rfl⟩) _ ?_
  rw [Runs.eachStep_cons, Runs.eachStep_cons, Runs.eachStep_cons, Runs.eachStep_cons]
  exact ⟨fun _ _ => ⟨nofun, nofun⟩, trivial, trivial, trivial, Runs.eachStep_nil⟩

/-- What a change meets when nothing fails. -/
def clearChange : ChangeFaults Bytes where
  loading := ⟨clearOpening, false⟩
  opening := clearOpening
  walletsFail := false
  rekeyFails := false
  hash := .none
  restoreFails := false
  refresh := ⟨false, .none, .none, false⟩
  clearHash := .none
  clearReverse := .none
  keystore := some clearKeystore
  sealFault := none
  reloading := ⟨clearOpening, false⟩

/-- The app passphrase is changed to the duress passphrase, which is accepted from then on:
the owner lands in the decoy wallet. -/
theorem app_passphrase_accepted_as_duress :
    ¬ Runs.EachStep (DuressCall.step clearKeys) (DuressCall.AnswersRight clearKeys)
      (freshApp.1, .unset)
      [.setAppPassphrase clearOpening.call "Correct-Horse-9",
        .setDuressPassphrase clearOpening (some "Custom-Horse-7!"),
        .changeAppPassphrase clearOpening clearChange "Correct-Horse-9" "Custom-Horse-7!",
        .verifyDuressPassphrase clearOpening 0 "Custom-Horse-7!"] := by
  rw [Runs.eachStep_cons, Runs.eachStep_cons, Runs.eachStep_cons, Runs.eachStep_cons]
  rintro ⟨-, -, -, ⟨current, hstored, -, hother⟩, -⟩
  refine hother (by decide +kernel) ?_
  exact Option.map_injective clearKeys.hash_injective (hstored.symm.trans (by decide +kernel))

end StashiWallet
