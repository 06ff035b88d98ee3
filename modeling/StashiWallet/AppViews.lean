import StashiWallet.AppUnlockRuns

/-!
# The calls about passphrases, on what they read

Only a few rows and fields decide what the calls about the app passphrase and the duress
passphrase do: the hash of the app passphrase, the two duress rows, the plain file, and the
passphrase of the session (`AppView`). Every call is followed on this view by a triple; a call
that fails has changed the view only as far as its error postcondition says.
-/

namespace StashiWallet

/-! ## The view -/

/-- What the calls about passphrases read. -/
structure AppView where
  registryExists : Bool
  appHash : Option String
  duressHash : Option String
  useReverse : Option String
  duressSidecar : Option String
  passphrase : Option String
deriving DecidableEq

section View

variable {F : Type}

def AppState.view (state : AppState F) : AppView where
  registryExists := state.registry.database.isSome
  appHash := state.setting REGISTRY_APP_PASSPHRASE_KEY
  duressHash := state.setting REGISTRY_DURESS_PASSPHRASE_HASH_KEY
  useReverse := state.setting REGISTRY_DURESS_USE_REVERSE_KEY
  duressSidecar := state.duressSidecar
  passphrase := state.passphrase

/-- The view after a setting was written. -/
def AppView.set (key : String) (value : Option String) (view : AppView) : AppView where
  registryExists := view.registryExists
  appHash := if key = REGISTRY_APP_PASSPHRASE_KEY then value else view.appHash
  duressHash := if key = REGISTRY_DURESS_PASSPHRASE_HASH_KEY then value else view.duressHash
  useReverse := if key = REGISTRY_DURESS_USE_REVERSE_KEY then value else view.useReverse
  duressSidecar := view.duressSidecar
  passphrase := view.passphrase

theorem setting_deleteSetting (state : AppState F) (key other : String) :
    (state.apply (.deleteSetting key)).setting other =
      if key = other then none else state.setting other := by
  unfold AppState.setting
  change (state.changeTables _).tables.bind _ = _
  rw [tables_changeTables]
  cases state.tables with
  | none =>
    split
    · rfl
    · rfl
  | some tables =>
    show (tables.walletSettings.filter _).lookup other = _
    split
    · rename_i heq
      subst heq
      exact lookup_filter_self tables.walletSettings key
    · rename_i hne
      exact lookup_filter_ne (Ne.symm hne)

theorem setting_insertSetting {state : AppState F} (h : state.registry.database.isSome = true)
    (key value other : String) :
    (state.apply (.insertSetting key value)).setting other =
      if key = other then some value else state.setting other := by
  unfold AppState.setting
  change (state.changeTables _).tables.bind _ = _
  rw [tables_changeTables]
  unfold AppState.tables
  obtain ⟨db, hdatabase⟩ := Option.isSome_iff_exists.mp h
  rw [hdatabase]
  show ((key, value) :: db.2.walletSettings).lookup other = _
  split
  · rename_i heq
    subst heq
    exact List.lookup_cons_self
  · rename_i hne
    rw [List.lookup_cons, beq_false_of_ne (Ne.symm hne)]
    rfl

theorem exists_changeTables (change : RegistryTables → RegistryTables) (state : AppState F) :
    (state.changeTables change).registry.database.isSome = state.registry.database.isSome :=
  Option.isSome_map

theorem view_deleteSetting (state : AppState F) (key : String) :
    (state.apply (.deleteSetting key)).view = state.view.set key none := by
  unfold AppState.view AppView.set
  rw [setting_deleteSetting, setting_deleteSetting, setting_deleteSetting]
  congr 1
  exact exists_changeTables _ state

theorem view_insertSetting {state : AppState F} (h : state.registry.database.isSome = true)
    (key value : String) :
    (state.apply (.insertSetting key value)).view = state.view.set key (some value) := by
  unfold AppState.view AppView.set
  rw [setting_insertSetting h, setting_insertSetting h, setting_insertSetting h]
  congr 1
  exact exists_changeTables _ state

theorem AppView.set_set (key : String) (first second : Option String) (view : AppView) :
    (view.set key first).set key second = view.set key second := by
  unfold AppView.set
  congr 1
  · dsimp only
    split
    · rfl
    · rfl
  · dsimp only
    split
    · rfl
    · rfl
  · dsimp only
    split
    · rfl
    · rfl

def AppState.Shows (view : AppView) (state : AppState F) : Prop := state.view = view

/-- Writes to the files of a registry that is there do not show. -/
theorem shows_files {view : AppView} {writes : List (FileWrite F)}
    (hcreate : ∀ key, FileWrite.create key ∉ writes) {state : AppState F}
    (h : state.Shows view) :
    (Runs.run AppState.apply state (writes.map AppWrite.file)).Shows view := by
  induction writes generalizing state with
  | nil => exact h
  | cons write writes ih =>
    refine ih (fun key hmem => hcreate key (List.mem_cons_of_mem write hmem)) ?_
    subst h
    cases write with
    | create key => exact absurd List.mem_cons_self (hcreate key)
    | rekey key =>
      have htables : (state.apply (.file (.rekey key))).tables = state.tables := by
        show (state.registry.database.map _).map Prod.snd = _
        rw [Option.map_map]
        rfl
      show (state.apply (.file (.rekey key))).view = state.view
      unfold AppState.view AppState.setting
      rw [htables]
      congr 1
      exact Option.isSome_map
    | salt bytes => rfl
    | sealedKey bytes => rfl

theorem AppView.set_app (value : Option String) (view : AppView) :
    view.set REGISTRY_APP_PASSPHRASE_KEY value = { view with appHash := value } := by
  unfold AppView.set
  rw [if_pos rfl, if_neg (by decide), if_neg (by decide)]

theorem AppView.set_duress (value : Option String) (view : AppView) :
    view.set REGISTRY_DURESS_PASSPHRASE_HASH_KEY value = { view with duressHash := value } := by
  unfold AppView.set
  rw [if_pos rfl, if_neg (by decide), if_neg (by decide)]

theorem AppView.set_reverse (value : Option String) (view : AppView) :
    view.set REGISTRY_DURESS_USE_REVERSE_KEY value = { view with useReverse := value } := by
  unfold AppView.set
  rw [if_pos rfl, if_neg (by decide), if_neg (by decide)]

end View

/-! ## Passphrases read backwards -/

theorem toList_reversePassphrase (passphrase : String) :
    (reversePassphrase passphrase).toList = passphrase.toList.reverse :=
  String.toList_ofList

theorem utf8ByteSize_reversePassphrase (passphrase : String) :
    (reversePassphrase passphrase).utf8ByteSize = passphrase.utf8ByteSize := by
  have hsize : ∀ chars : List Char, chars.reverse.utf8Encode.size = chars.utf8Encode.size := by
    intro chars
    induction chars with
    | nil => rfl
    | cons c chars ih =>
      rw [List.reverse_cons, List.utf8Encode_append, ByteArray.size_append, ih, Nat.add_comm,
        ← ByteArray.size_append, ← List.utf8Encode_append]
      rfl
  rw [← String.size_toByteArray, ← String.size_toByteArray]
  unfold reversePassphrase
  rw [String.toByteArray_ofList, hsize, String.utf8Encode_toList]

/-- What makes a passphrase valid. -/
theorem validatePassphrase_eq_ok {passphrase : String} :
    validatePassphrase passphrase = .ok () ↔
      12 ≤ passphrase.utf8ByteSize ∧ passphrase.toList ≠ passphrase.toList.reverse := by
  unfold validatePassphrase isPalindrome
  by_cases hlength : passphrase.utf8ByteSize < 12
  · rw [if_pos hlength]
    exact iff_of_false nofun (fun h => absurd hlength (Nat.not_lt.mpr h.1))
  · rw [if_neg hlength]
    by_cases hsame : passphrase.toList = passphrase.toList.reverse
    · rw [if_pos (beq_iff_eq.mpr hsame)]
      exact iff_of_false nofun (fun h => h.2 hsame)
    · rw [if_neg (fun h => hsame (beq_iff_eq.mp h))]
      have hacceptable : (evaluateStrength passphrase).isAcceptable = true := by
        unfold evaluateStrength
        dsimp only
        rw [if_neg (by omega), if_neg hlength]
        split
        · rfl
        · rfl
      rw [hacceptable]
      exact iff_of_true rfl ⟨by omega, hsame⟩

/-- Read backwards, a valid passphrase is valid and another one. -/
theorem validatePassphrase_reverse {passphrase : String}
    (h : validatePassphrase passphrase = .ok ()) :
    validatePassphrase (reversePassphrase passphrase) = .ok () ∧
      reversePassphrase passphrase ≠ passphrase := by
  obtain ⟨hlength, hother⟩ := validatePassphrase_eq_ok.mp h
  refine ⟨validatePassphrase_eq_ok.mpr ⟨?_, ?_⟩, fun hsame => ?_⟩
  · rwa [utf8ByteSize_reversePassphrase]
  · rw [toList_reversePassphrase, List.reverse_reverse]
    exact hother.symm
  · have hchars := congrArg String.toList hsame
    rw [toList_reversePassphrase] at hchars
    exact hother hchars.symm

theorem hashPassphrase_eq_ok {F : Type} {keys : AppKeys F} {passphrase hash : String}
    (h : hashPassphrase keys passphrase = .ok hash) :
    hash = keys.hash passphrase ∧ validatePassphrase passphrase = .ok () := by
  obtain ⟨⟨⟩, hvalid, h⟩ := bind_eq_ok h
  exact ⟨(Except.ok.inj h).symm, hvalid⟩

/-! ## The parts of the calls -/

section Parts

open Script

variable {F : Type} {view : AppView} {E : AppState F → Prop}

theorem triple_getRegistrySetting {key : String} {value : Option String}
    (h : ∀ state : AppState F, state.Shows view → state.setting key = value) (fails : Bool) :
    Triple (AppState.Shows view) (@getRegistrySetting F key fails)
      (fun found state => found = (if fails then none else value) ∧ state.Shows view) E := by
  intro state hstate
  refine ⟨?_, hstate⟩
  rw [← h state hstate]

theorem triple_setRegistrySetting (hexists : view.registryExists = true) (key value : String) :
    Triple (AppState.Shows view) (@setRegistrySetting F key (some value) .none)
      (fun _ => AppState.Shows (view.set key (some value))) E := by
  refine (triple_perform (R := AppState.Shows (view.set key none)) _ ?_).bind (fun _ =>
    triple_perform _ ?_)
  · rintro state rfl
    exact view_deleteSetting state key
  · intro state hstate
    have hdatabase : state.registry.database.isSome = true := by
      have hview := congrArg AppView.registryExists hstate
      exact hview.trans hexists
    show (state.apply _).view = _
    rw [view_insertSetting hdatabase, hstate, AppView.set_set]

theorem triple_clearRegistrySetting (key : String) :
    Triple (AppState.Shows view) (@setRegistrySetting F key none .none)
      (fun _ => AppState.Shows (view.set key none)) E := by
  refine triple_perform _ ?_
  rintro state rfl
  exact view_deleteSetting state key

/-- The view with another passphrase of the session. -/
def AppView.withPassphrase (cached : Option String) (view : AppView) : AppView :=
  { view with passphrase := cached }

theorem triple_passphrase (cached : Option String) :
    Triple (AppState.Shows view) (perform (.passphrase cached) none : AppScript F Unit)
      (fun _ => AppState.Shows (view.withPassphrase cached)) E := by
  refine triple_perform _ ?_
  rintro state rfl
  rfl

theorem triple_appPassphrase :
    Triple (AppState.Shows view) (@appPassphrase F)
      (fun passphrase state => view.passphrase = some passphrase ∧ state.Shows view)
      (AppState.Shows view) := by
  rintro state rfl
  unfold Script.result Script.after
  rw [run_appPassphrase]
  cases hpassphrase : state.passphrase with
  | none => exact rfl
  | some passphrase => exact ⟨hpassphrase, rfl⟩

theorem triple_duressSidecar (hash : String) :
    Triple (AppState.Shows view) (writeDuressSidecar hash false : AppScript F Unit)
      (fun _ => AppState.Shows { view with duressSidecar := some hash }) E := by
  refine triple_perform _ ?_
  rintro state rfl
  rfl

theorem triple_clearDuressSidecar :
    Triple (AppState.Shows view) (clearDuressSidecar false : AppScript F Unit)
      (fun _ => AppState.Shows { view with duressSidecar := none }) E := by
  refine triple_perform _ ?_
  rintro state rfl
  rfl

theorem triple_loadWalletRegistryState (fails : Bool) :
    Triple (AppState.Shows view) (@loadWalletRegistryState F fails) (fun _ => AppState.Shows view)
      (AppState.Shows view) := by
  refine (triple_ensure (fun _ hstate _ => hstate)).bind (fun _ => ?_)
  refine Triple.bind (Q := fun _ => AppState.Shows view) (fun _ hstate => hstate.2) (fun _ => ?_)
  refine (triple_perform (P := AppState.Shows view) (R := AppState.Shows view) _
    (fun _ hstate => hstate)).bind (fun _ => ?_)
  refine Triple.bind (Q := fun _ => AppState.Shows view) (fun _ hstate => hstate) (fun _ => ?_)
  refine (triple_perform (P := AppState.Shows view) (R := AppState.Shows view) _
    (fun _ hstate => hstate)).bind (fun _ => ?_)
  exact triple_perform _ (fun _ hstate => hstate)

theorem triple_forceStoreSealedDbKey (keystore : Option (PlatformKeystore F))
    (sealFault : Option Nat) (key : F) :
    Triple (AppState.Shows view) (forceStoreSealedDbKey keystore sealFault key)
      (fun _ => AppState.Shows view) E := by
  intro state hstate
  have hresult : (forceStoreSealedDbKey keystore sealFault key).result state = .ok () := by
    unfold forceStoreSealedDbKey Script.result
    dsimp only
    split
    · rfl
    · rfl
  rw [hresult]
  show (Script.after _ state).Shows view
  unfold forceStoreSealedDbKey Script.after
  dsimp only
  split
  · exact hstate
  · have hfiles : ∀ states : List Bytes, states.map (fun bytes => AppWrite.file
        (@FileWrite.sealedKey F bytes)) = (states.map FileWrite.sealedKey).map AppWrite.file := by
      intro states
      rw [List.map_map]
      rfl
    rw [hfiles]
    refine shows_files (fun key hmem => ?_) hstate
    obtain ⟨bytes, -, heq⟩ := List.mem_map.mp hmem
    cases heq

theorem triple_loadRegistrySalt :
    Triple (AppState.Shows view) (@loadRegistrySalt F) (fun _ => AppState.Shows view)
      (AppState.Shows view) := by
  intro state hstate
  have hafter : (@loadRegistrySalt F).after state = state := by
    unfold loadRegistrySalt Script.after
    dsimp only
    split
    · rfl
    · rfl
  rw [hafter]
  split
  · exact hstate
  · exact hstate

end Parts

section Opening

open Script

variable {F : Type} [DecidableEq F] {keys : AppKeys F} {view : AppView}
  {E : AppState F → Prop}

variable (hexists : view.registryExists = true)

include hexists

theorem triple_opening (opening : RegistryOpening F) (passphrase : String) :
    Triple (AppState.Shows view) (openWalletRegistryWithPassphrase keys opening passphrase)
      (fun _ => AppState.Shows view) (AppState.Shows view) := by
  intro state hstate
  have hdatabase : state.registry.database.isSome = true := by
    rw [← hexists, ← hstate]
    rfl
  have hshows : ((openWalletRegistryWithPassphrase keys opening passphrase).after state).Shows
      view := shows_files (create_not_mem_openEncryptedDb hdatabase) hstate
  split
  · exact hshows
  · exact hshows

theorem triple_openWalletRegistry (opening : RegistryOpening F) :
    Triple (AppState.Shows view) (openWalletRegistry keys opening) (fun _ => AppState.Shows view)
      (AppState.Shows view) := by
  refine triple_appPassphrase.bind (fun passphrase => triple_of_and (fun _ => ?_))
  exact triple_opening hexists opening passphrase

theorem triple_ensureWalletRegistryLoaded (loading : RegistryLoading F) :
    Triple (AppState.Shows view) (ensureWalletRegistryLoaded keys loading)
      (fun _ => AppState.Shows view) (AppState.Shows view) := by
  refine triple_state_bind (fun state => ?_)
  split
  · exact fun _ hstate => hstate
  · split
    · exact fun _ hstate => hstate
    · exact (triple_openWalletRegistry hexists loading.opening).bind
        (fun _ => triple_loadWalletRegistryState loading.loadFails)

/-- A check that passes leaves no doubt about the passphrase, if there is a hash. -/
theorem triple_verifyAppPassphrase (opening : RegistryOpening F) (passphrase : String) :
    Triple (AppState.Shows view) (verifyAppPassphrase keys ⟨opening, false⟩ passphrase)
      (fun ok state => state.Shows view ∧ (ok = true → ∀ hash, view.appHash = some hash →
        hash = keys.hash passphrase)) (AppState.Shows view) := by
  refine triple_state_bind (fun state => ?_)
  refine (triple_ensure (fun _ hstate _ => hstate)).bind (fun _ => ?_)
  refine Triple.orElse (R := AppState.Shows view) ?_ (fun _ => ?_)
  · refine ((triple_opening hexists opening passphrase).weaken (fun _ hstate => hstate.2)
      (fun _ _ hstate => hstate) (fun _ hstate => hstate)).bind (fun _ => ?_)
    refine (triple_getRegistrySetting (fun _ hstate => congrArg AppView.appHash hstate)
      false).bind (fun value => triple_of_and (fun hvalue => ?_))
    rw [if_neg Bool.false_ne_true] at hvalue
    subst hvalue
    cases happ : view.appHash with
    | none => exact fun _ hstate => ⟨hstate, fun _ _ => nofun⟩
    | some storedHash =>
      intro state hstate
      refine ⟨hstate, fun hok hash hhash => ?_⟩
      rw [← Option.some.inj hhash]
      exact keys.verify_iff.mp hok
  · intro state hstate
    exact ⟨hstate, nofun⟩

omit hexists

/-- Opening where there is no registry makes an empty one or nothing. -/
theorem database_after_openEncryptedDb {D : Type} {empty : D} {dbKeys : DbKeys F}
    {call : OpenCall F} {files : KeyFiles F D} (h : files.database = none) :
    (∃ key, (files.openEncryptedDb dbKeys call).2 = .ok key ∧
      (files.after empty (files.openEncryptedDb dbKeys call).1).database = some (key, empty)) ∨
    ∃ message, (files.openEncryptedDb dbKeys call).2 = .error message ∧
      (files.after empty (files.openEncryptedDb dbKeys call).1).database = none := by
  unfold KeyFiles.openEncryptedDb
  cases hsalt : files.salt with
  | some data =>
    dsimp only
    cases loadSalt data with
    | error message => exact Or.inr ⟨message, rfl, h⟩
    | ok salt =>
      unfold KeyFiles.openSalted KeyFiles.openDatabase
      rw [h]
      dsimp only
      cases files.unsealed call.keystore with
      | error message => exact Or.inr ⟨message, rfl, h⟩
      | ok unsealed =>
        refine Or.inl ⟨unsealed.getD (dbKeys.derive salt), rfl, ?_⟩
        dsimp only
        rw [after_append, after_maybeStore_database]
        rfl
  | none =>
    rw [h]
    dsimp only
    split
    · refine Or.inl ⟨dbKeys.derive call.newSalt, rfl, ?_⟩
      rw [after_append, after_append, after_maybeStore_database]
      rfl
    · refine Or.inr ⟨_, rfl, ?_⟩
      rw [after_salt]
      exact h

omit [DecidableEq F] in
theorem registry_after_files (writes : List (FileWrite F)) (state : AppState F) :
    Runs.run AppState.apply state (writes.map AppWrite.file) =
      { state with registry := state.registry.after .empty writes } := by
  induction writes generalizing state with
  | nil => rfl
  | cons write writes ih =>
    rw [List.map_cons, Runs.run_cons, ih]
    rfl

/-- What a registry that does not exist shows. -/
def AppView.Nothing (view : AppView) : Prop :=
  view.registryExists = false ∧ view.appHash = none ∧ view.duressHash = none ∧
    view.useReverse = none

theorem triple_opening_new (hnothing : view.Nothing) (call : OpenCall F) (passphrase : String) :
    Triple (AppState.Shows view) (openWalletRegistryWithPassphrase keys ⟨call, false⟩ passphrase)
      (fun _ => AppState.Shows { view with registryExists := true }) (AppState.Shows view) := by
  rintro state rfl
  obtain ⟨hexists, -, -, -⟩ := hnothing
  have hdatabase : state.registry.database = none := Option.isSome_eq_false_iff.mp hexists |>
    Option.isNone_iff_eq_none.mp
  have hopened := @database_after_openEncryptedDb F _ RegistryTables .empty (keys.dbKeys passphrase)
    call state.registry hdatabase
  have hafter : (openWalletRegistryWithPassphrase keys ⟨call, false⟩ passphrase).after state = _ :=
    registry_after_files _ state
  rw [hafter]
  have hview : ∀ registry : KeyFiles F RegistryTables,
      (registry.database = none ∨ ∃ key, registry.database = some (key, .empty)) →
      ({ state with registry := registry } : AppState F).view =
        { state.view with registryExists := registry.database.isSome } := by
    intro registry hregistry
    unfold AppState.view AppState.setting AppState.tables
    dsimp only
    rw [hdatabase]
    rcases hregistry with hnone | ⟨key, hsome⟩
    · rw [hnone]
    · rw [hsome]
      rfl
  unfold Script.result openWalletRegistryWithPassphrase
  dsimp only
  rcases hopened with ⟨key, hresult, hmade⟩ | ⟨message, hresult, hnone⟩
  · rw [hresult]
    show _ = _
    rw [hview _ (Or.inr ⟨key, hmade⟩), hmade]
    rfl
  · rw [hresult]
    show _ = _
    rw [hview _ (Or.inl hnone), hnone]
    exact congrArg (fun exists' => { state.view with registryExists := exists' }) hexists.symm

/-- `set_app_passphrase` on the registry that its opening shows, if it is `allowed` to. -/
theorem triple_setAppPassphrase {P : AppState F → Prop} {opened : AppView} {allowed : Prop}
    {opening : RegistryOpening F} {passphrase : String} (hstart : ∀ state, P state → state.Shows view)
    (hexists : opened.registryExists = true)
    (hopen : Triple P (openWalletRegistryWithPassphrase keys opening passphrase)
      (fun _ state => allowed ∧ state.Shows opened) (AppState.Shows view)) :
    Triple P (setAppPassphrase keys opening .none passphrase)
      (fun _ state => (allowed ∧ validatePassphrase passphrase = .ok ()) ∧
        state.Shows { opened with
          appHash := some (keys.hash passphrase)
          passphrase := some passphrase }) (AppState.Shows view) := by
  refine (triple_lift hstart).bind (fun hash => triple_of_and (fun hhash => ?_))
  obtain ⟨rfl, hvalid⟩ := hashPassphrase_eq_ok hhash
  refine hopen.bind (fun _ => triple_of_and (fun hallowed => ?_))
  refine (triple_setRegistrySetting hexists REGISTRY_APP_PASSPHRASE_KEY _).bind (fun _ => ?_)
  rw [AppView.set_app]
  exact (triple_passphrase (E := AppState.Shows view) (some passphrase)).weaken
    (fun _ hstate => hstate) (fun _ _ hstate => ⟨⟨hallowed, hvalid⟩, hstate⟩)
    (fun _ hstate => hstate)

omit [DecidableEq F] in
theorem triple_syncDuressSidecar :
    Triple (AppState.Shows view) (@syncDuressSidecarFromRegistry F false false)
      (fun _ => AppState.Shows { view with duressSidecar := view.duressHash }) E := by
  refine (triple_getRegistrySetting (fun _ hstate => congrArg AppView.duressHash hstate)
    false).bind (fun value => triple_of_and (fun hvalue => ?_))
  rw [if_neg Bool.false_ne_true] at hvalue
  have hview := congrArg (fun hash => { view with duressSidecar := hash }) hvalue
  cases value with
  | none =>
    exact triple_clearDuressSidecar.attempt.weaken (fun _ hstate => hstate)
      (fun _ _ hstate => hstate.trans hview) (fun _ hstate => hstate)
  | some hash =>
    exact (triple_duressSidecar hash).attempt.weaken (fun _ hstate => hstate)
      (fun _ _ hstate => hstate.trans hview) (fun _ hstate => hstate)

/-- `unlock_app` on a registry with a hash. -/
theorem triple_unlockApp (hexists : view.registryExists = true) {current : String}
    (happ : view.appHash = some (keys.hash current)) (opening : RegistryOpening F)
    (loadFails : Bool) (passphrase : String) :
    Triple (AppState.Shows view)
      (unlockApp keys ⟨opening, false⟩ ⟨loadFails, false, false⟩ passphrase)
      (fun _ => AppState.Shows { view with
        passphrase := some current
        duressSidecar := view.duressHash })
      (fun state => state.Shows view ∨ state.Shows (view.withPassphrase (some current))) := by
  refine triple_state_bind (fun state => ?_)
  refine (triple_ensure (fun _ hstate _ => Or.inl hstate)).bind (fun _ =>
    triple_of_and (fun _ => ?_))
  refine ((triple_opening hexists opening passphrase).weaken (fun _ hstate => hstate)
    (fun _ _ hstate => hstate) (fun _ hstate => Or.inl hstate)).bind (fun _ => ?_)
  have hvalid : Triple (AppState.Shows view) (verifyAppPassphraseWithDb keys false passphrase)
      (fun isValid state => (isValid = true → passphrase = current) ∧ state.Shows view)
      (fun state => state.Shows view ∨ state.Shows (view.withPassphrase (some current))) := by
    refine (triple_getRegistrySetting (fun _ hstate => congrArg AppView.appHash hstate)
      false).bind (fun value => triple_of_and (fun hvalue => ?_))
    rw [if_neg Bool.false_ne_true, happ] at hvalue
    subst hvalue
    exact fun _ hstate => ⟨fun hok => (keys.verify_hash.mp hok).symm, hstate⟩
  refine hvalid.bind (fun isValid => triple_of_and (fun hsame => ?_))
  refine (triple_ensure (fun _ hstate _ => Or.inl hstate)).bind (fun _ =>
    triple_of_and (fun hok => ?_))
  obtain rfl := hsame hok
  refine (triple_perform (P := AppState.Shows view) (R := AppState.Shows view) _
    (fun _ hstate => hstate)).bind (fun _ => ?_)
  refine (triple_passphrase (some passphrase)).bind (fun _ => ?_)
  refine (triple_perform (P := AppState.Shows (view.withPassphrase (some passphrase)))
    (R := AppState.Shows (view.withPassphrase (some passphrase))) _
    (fun _ hstate => hstate)).bind (fun _ => ?_)
  refine ((triple_loadWalletRegistryState loadFails).weaken (fun _ hstate => hstate)
    (fun _ _ hstate => hstate) (fun _ hstate => Or.inr hstate)).bind (fun _ => ?_)
  exact triple_syncDuressSidecar

/-- A refresh whose statements and write go through. -/
def RefreshFaults.Clean (faults : RefreshFaults) : Prop :=
  faults.readFails = false ∧ faults.hash = .none ∧ faults.sidecarFails = false

omit [DecidableEq F] in
theorem triple_refresh_custom (hreverse : view.useReverse ≠ some "true") (faults : RefreshFaults)
    (newPassphrase : String) :
    Triple (AppState.Shows view) (refreshDuressReverseHash keys faults newPassphrase)
      (fun _ => AppState.Shows view) E := by
  refine (triple_getRegistrySetting (fun _ hstate => congrArg AppView.useReverse hstate)
    faults.readFails).bind (fun value => triple_of_and (fun hvalue => ?_))
  have hother : value ≠ some "true" := by
    rw [hvalue]
    split
    · nofun
    · exact hreverse
  rw [if_pos hother]
  exact fun _ hstate => hstate

omit [DecidableEq F] in
theorem triple_refresh_reverse (hexists : view.registryExists = true)
    (hreverse : view.useReverse = some "true") {faults : RefreshFaults} (hclean : faults.Clean)
    {newPassphrase : String} (hvalid : validatePassphrase newPassphrase = .ok ()) :
    Triple (AppState.Shows view) (refreshDuressReverseHash keys faults newPassphrase)
      (fun _ => AppState.Shows { view with
        duressHash := some (keys.hash (reversePassphrase newPassphrase))
        duressSidecar := some (keys.hash (reversePassphrase newPassphrase)) }) E := by
  obtain ⟨hread, hhash, hsidecar⟩ := hclean
  unfold refreshDuressReverseHash
  rw [hread, hhash, hsidecar]
  refine (triple_getRegistrySetting (fun _ hstate => congrArg AppView.useReverse hstate)
    false).bind (fun value => triple_of_and (fun hvalue => ?_))
  rw [if_neg Bool.false_ne_true, hreverse] at hvalue
  subst hvalue
  have hother : isPalindrome newPassphrase = false := by
    unfold isPalindrome
    rw [beq_eq_false_iff_ne]
    exact (validatePassphrase_eq_ok.mp hvalid).2
  have hhashed : hashPassphrase keys (reversePassphrase newPassphrase) =
      .ok (keys.hash (reversePassphrase newPassphrase)) := by
    unfold hashPassphrase
    rw [(validatePassphrase_reverse hvalid).1]
    rfl
  rw [if_neg (not_not.mpr rfl), hother, if_neg Bool.false_ne_true, hhashed]
  refine Triple.bind (Q := fun hash state => hash = keys.hash (reversePassphrase newPassphrase) ∧
    state.Shows view) (fun _ hstate => ⟨rfl, hstate⟩) (fun hash =>
    triple_of_and (P := AppState.Shows view) (fun heq => ?_))
  subst heq
  refine (triple_setRegistrySetting hexists _ _).bind (fun _ => ?_)
  rw [AppView.set_duress]
  exact triple_duressSidecar _

/-- The view after the app passphrase was changed. -/
def AppView.changed (keys : AppKeys F) (newPassphrase : String) (view : AppView) : AppView :=
  if view.useReverse = some "true" then
    { view with
      appHash := some (keys.hash newPassphrase)
      passphrase := some newPassphrase
      duressHash := some (keys.hash (reversePassphrase newPassphrase))
      duressSidecar := some (keys.hash (reversePassphrase newPassphrase)) }
  else { view with appHash := some (keys.hash newPassphrase), passphrase := some newPassphrase }

/-- What a change with the current passphrase meets before it replaces the hash. -/
def ChangeFaults.GoesThrough (faults : ChangeFaults F) (newPassphrase : String) : Prop :=
  validatePassphrase newPassphrase = .ok () ∧ faults.walletsFail = false ∧
    faults.rekeyFails = false

/-- `change_app_passphrase` on a registry with a hash, if a passed check `allowed` it. -/
theorem triple_changeRegistryPassphrase (hexists : view.registryExists = true) {current : String}
    (happ : view.appHash = some (keys.hash current)) (opening : RegistryOpening F)
    (faults : ChangeFaults F) (hhash : faults.hash = .none)
    (currentPassphrase newPassphrase : String) {allowed : Prop}
    (hclean : allowed → faults.GoesThrough newPassphrase → view.useReverse = some "true" →
      faults.refresh.Clean) :
    Triple (fun state => (∀ verified, (verifyAppPassphrase keys ⟨opening, false⟩
        currentPassphrase).result state = .ok verified → verified = true → allowed) ∧
        state.Shows view)
      (changeRegistryPassphrase keys ⟨opening, false⟩ faults currentPassphrase newPassphrase)
      (fun _ state => (allowed ∧ faults.GoesThrough newPassphrase) ∧
        state.Shows (view.changed keys newPassphrase))
      (fun state => state.Shows view ∨ state.Shows (view.withPassphrase (some current)) ∨
        (allowed ∧ faults.GoesThrough newPassphrase) ∧
          state.Shows (view.changed keys newPassphrase)) := by
  refine (triple_lift (fun _ hstate => Or.inl hstate.2)).bind (fun _ =>
    triple_of_and (fun hvalid => ?_))
  refine (((triple_verifyAppPassphrase hexists opening currentPassphrase).of_result _).weaken
    (fun _ hstate => hstate) (fun _ _ hstate => hstate) (fun _ hstate => Or.inl hstate)).bind
    (fun verified => triple_of_and (fun hallowed => ?_))
  refine Triple.weaken (P := fun state => (verified = true → currentPassphrase = current) ∧
    state.Shows view) ?_ (fun _ hstate =>
      ⟨fun hok => (keys.hash_injective (hstate.2 hok _ happ)).symm, hstate.1⟩)
    (fun _ _ hstate => hstate) (fun _ hstate => hstate)
  refine triple_of_and (fun hsame => ?_)
  refine (triple_ensure (fun _ hstate _ => Or.inl hstate)).bind (fun _ =>
    triple_of_and (fun hok => ?_))
  obtain rfl := hsame hok
  have hallowed := hallowed hok
  refine (triple_passphrase (some currentPassphrase)).bind (fun _ => ?_)
  -- from here on the current passphrase is that of the session
  have hexists' : (view.withPassphrase (some currentPassphrase)).registryExists = true := hexists
  have hchanged : (view.changed keys newPassphrase) =
      ((view.withPassphrase (some currentPassphrase)).changed keys newPassphrase) := by
    unfold AppView.changed AppView.withPassphrase
    rfl
  have hreverse : faults.GoesThrough newPassphrase →
      (view.withPassphrase (some currentPassphrase)).useReverse = some "true" →
      faults.refresh.Clean := hclean hallowed
  rw [hchanged]
  generalize view.withPassphrase (some currentPassphrase) = cached at hexists' hreverse
  refine Triple.weaken (E := fun state => state.Shows cached ∨
      faults.GoesThrough newPassphrase ∧ state.Shows (cached.changed keys newPassphrase)) ?_
    (fun _ hstate => hstate) (fun _ _ hstate => hstate)
    (fun _ hstate => Or.inr (hstate.imp_right (fun h => ⟨⟨hallowed, h.1⟩, h.2⟩)))
  refine (triple_perform (P := AppState.Shows cached) (R := AppState.Shows cached) _
    (fun _ hstate => hstate)).bind (fun _ => ?_)
  refine ((triple_ensureWalletRegistryLoaded hexists' faults.loading).weaken
    (fun _ hstate => hstate) (fun _ _ hstate => hstate) (fun _ hstate => Or.inl hstate)).bind
    (fun _ => ?_)
  refine ((triple_opening hexists' faults.opening currentPassphrase).weaken
    (fun _ hstate => hstate) (fun _ _ hstate => hstate) (fun _ hstate => Or.inl hstate)).bind
    (fun _ => ?_)
  refine (triple_loadRegistrySalt.weaken (fun _ hstate => hstate) (fun _ _ hstate => hstate)
    (fun _ hstate => Or.inl hstate)).bind (fun salt => ?_)
  refine (triple_ensure (fun _ hstate _ => Or.inl hstate)).bind (fun _ =>
    triple_of_and (fun hwallets => ?_))
  have hrekeyed : Triple (AppState.Shows cached)
      (perform (AppWrite.file (.rekey ((keys.dbKeys newPassphrase).derive salt)))
        (if faults.rekeyFails then some "Failed to rekey registry database" else none) :
        AppScript F Unit)
      (fun _ state => faults.rekeyFails = false ∧ state.Shows cached)
      (fun state => state.Shows cached ∨
        faults.GoesThrough newPassphrase ∧ state.Shows (cached.changed keys newPassphrase)) := by
    cases hrekey : faults.rekeyFails with
    | true => exact fun _ hstate => Or.inl hstate
    | false =>
      refine triple_perform _ (fun state hstate => ⟨rfl, ?_⟩)
      refine @shows_files F cached [.rekey _] (fun key hmem => ?_) state hstate
      cases List.mem_singleton.mp hmem
  refine hrekeyed.bind (fun _ => triple_of_and (fun hrekey => ?_))
  have hthrough : faults.GoesThrough newPassphrase := ⟨hvalid, hwallets, hrekey⟩
  refine (triple_lift (fun _ hstate => Or.inl hstate)).bind (fun newHash =>
    triple_of_and (fun hnewHash => ?_))
  obtain ⟨rfl, -⟩ := hashPassphrase_eq_ok hnewHash
  rw [hhash]
  refine ((triple_setRegistrySetting hexists' _ _).orElse (R := fun _ => False)
    (fun _ _ => False.elim)).bind (fun _ => ?_)
  rw [AppView.set_app]
  have hfinish : Triple (AppState.Shows (cached.changed keys newPassphrase)) (do
      perform (.registryLoaded false) none
      ensureWalletRegistryLoaded keys faults.reloading : AppScript F Unit)
      (fun _ state => (allowed ∧ faults.GoesThrough newPassphrase) ∧
        state.Shows (cached.changed keys newPassphrase))
      (fun state => state.Shows cached ∨
        faults.GoesThrough newPassphrase ∧ state.Shows (cached.changed keys newPassphrase)) := by
    have hexistsNew : (cached.changed keys newPassphrase).registryExists = true := by
      unfold AppView.changed
      split
      · exact hexists'
      · exact hexists'
    refine (triple_perform (P := AppState.Shows (cached.changed keys newPassphrase))
      (R := AppState.Shows (cached.changed keys newPassphrase)) _ (fun _ hstate => hstate)).bind
      (fun _ => ?_)
    exact (triple_ensureWalletRegistryLoaded hexistsNew faults.reloading).weaken
      (fun _ hstate => hstate) (fun _ _ hstate => ⟨⟨hallowed, hthrough⟩, hstate⟩)
      (fun _ hstate => Or.inr ⟨hthrough, hstate⟩)
  -- the duress settings follow the new passphrase in reverse mode only
  obtain ⟨refreshed, hrefreshed, hend⟩ : ∃ refreshed : AppView,
      Triple (AppState.Shows { cached with appHash := some (keys.hash newPassphrase) })
        (refreshDuressReverseHash keys faults.refresh newPassphrase)
        (fun _ => AppState.Shows refreshed) (fun _ => False) ∧
      refreshed.withPassphrase (some newPassphrase) = cached.changed keys newPassphrase := by
    unfold AppView.changed
    by_cases hmode : cached.useReverse = some "true"
    · refine ⟨_, @triple_refresh_reverse F keys
        { cached with appHash := some (keys.hash newPassphrase) } _ hexists' hmode _
        (hreverse hthrough hmode) _ hvalid, ?_⟩
      rw [if_pos hmode]
      rfl
    · refine ⟨_, @triple_refresh_custom F keys
        { cached with appHash := some (keys.hash newPassphrase) } _ hmode faults.refresh
        newPassphrase, ?_⟩
      rw [if_neg hmode]
      rfl
  refine (hrefreshed.orElse (fun _ _ => False.elim)).bind (fun _ => ?_)
  refine (triple_forceStoreSealedDbKey _ _ _).bind (fun _ => ?_)
  refine (triple_passphrase (some newPassphrase)).bind (fun _ => ?_)
  rw [hend]
  exact hfinish

/-- `set_duress_passphrase`, whose plain file and rows agree afterwards. -/
theorem triple_setDuressPassphrase (hexists : view.registryExists = true)
    (opening : RegistryOpening F) (customPassphrase : Option String) :
    Triple (AppState.Shows view) (setDuressPassphrase keys opening .none customPassphrase)
      (fun _ state => ∃ current chosen, view.passphrase = some current ∧
        chooseDuressPassphrase customPassphrase current = .ok chosen ∧
        state.Shows { view with
          duressHash := some (keys.hash chosen.1)
          useReverse := some (if chosen.2 then "true" else "false")
          duressSidecar := some (keys.hash chosen.1) })
      (AppState.Shows view) := by
  refine triple_appPassphrase.bind (fun current => triple_of_and (fun hcurrent => ?_))
  refine (triple_lift (fun _ hstate => hstate)).bind (fun chosen =>
    triple_of_and (fun hchosen => ?_))
  refine (triple_lift (fun _ hstate => hstate)).bind (fun duressHash =>
    triple_of_and (fun hhash => ?_))
  obtain ⟨rfl, -⟩ := hashPassphrase_eq_ok hhash
  refine (triple_openWalletRegistry hexists opening).bind (fun _ => ?_)
  refine (triple_setRegistrySetting hexists _ _).bind (fun _ => ?_)
  rw [AppView.set_duress]
  refine (@triple_setRegistrySetting F { view with duressHash := some (keys.hash chosen.1) } _
    hexists _ _).bind (fun _ => ?_)
  rw [AppView.set_reverse]
  refine (triple_duressSidecar _).bind (fun _ => ?_)
  refine triple_state_bind (fun state => ?_)
  exact triple_perform _ (fun state hstate => ⟨current, chosen, hcurrent, hchosen, hstate⟩)

/-- The view without a duress passphrase. -/
def AppView.cleared (view : AppView) : AppView :=
  { view with duressHash := none, useReverse := none, duressSidecar := none }

omit [DecidableEq F] in
theorem triple_clearDuressSettings (opened : Bool) :
    Triple (AppState.Shows view) (@clearDuressSettings F opened .none)
      (fun _ => AppState.Shows
        (if opened then view.cleared else { view with duressSidecar := none })) E := by
  have hend : ∀ view : AppView, Triple (AppState.Shows view)
      (do
        let state ← state
        perform (.decoyVault { state.decoyVault with
          mode := .real
          enabled := false
          panicPinHash := none }) none
        clearDuressSidecar false : AppScript F Unit)
      (fun _ => AppState.Shows { view with duressSidecar := none }) E := by
    intro view
    refine triple_state_bind (fun state => ?_)
    refine (triple_perform (P := AppState.Shows view) (R := AppState.Shows view) _
      (fun _ hstate => hstate)).bind (fun _ => ?_)
    exact triple_clearDuressSidecar
  cases opened with
  | false => exact hend view
  | true =>
    refine (triple_clearRegistrySetting _).bind (fun _ => ?_)
    rw [AppView.set_duress]
    refine (@triple_clearRegistrySetting F { view with duressHash := none } E
      REGISTRY_DURESS_USE_REVERSE_KEY).bind (fun _ => ?_)
    rw [AppView.set_reverse]
    exact hend { view with duressHash := none, useReverse := none }

/-- An opening from a state of which it is known whether it succeeds. -/
theorem triple_tryOpenWalletRegistry (hexists : view.registryExists = true)
    (opening : RegistryOpening F) (opens : Prop) :
    Triple (fun state => (opens → (openWalletRegistry keys opening).result state = .ok ()) ∧
        state.Shows view) (tryOpenWalletRegistry keys opening)
      (fun opened state => (opened = false → ¬ opens) ∧ state.Shows view) E := by
  refine Triple.bind (Q := fun found after => found.registry.database.isSome = true ∧
      (opens → (openWalletRegistry keys opening).result after = .ok ()) ∧ after.Shows view)
    (fun state hstate => ⟨(congrArg AppView.registryExists hstate.2).trans hexists, hstate⟩)
    (fun found => triple_of_and (fun hdatabase => ?_))
  rw [if_pos hdatabase]
  refine Triple.orElse (R := fun state => ¬ opens ∧ state.Shows view) ?_ (fun _ => ?_)
  · refine Triple.bind (Q := fun _ => AppState.Shows view) ?_ (fun _ => ?_)
    · rintro found ⟨hopens, hshows⟩
      have htriple := @triple_openWalletRegistry F _ keys view hexists opening
      cases hresult : (openWalletRegistry keys opening).result found with
      | ok _ => exact htriple.of_ok hshows hresult
      | error message =>
        refine ⟨fun h => ?_, htriple.of_error hshows hresult⟩
        cases hresult.symm.trans (hopens h)
    · exact fun _ hshows => ⟨nofun, hshows⟩
  · exact fun _ hshows => ⟨fun _ => hshows.1, hshows.2⟩

/-- `clear_duress_passphrase`: the rows go if the registry opens. -/
theorem triple_clearDuressPassphrase (hexists : view.registryExists = true)
    (opening : RegistryOpening F) (opens : Prop) :
    Triple (fun state => (opens → (openWalletRegistry keys opening).result state = .ok ()) ∧
        state.Shows view) (clearDuressPassphrase keys opening .none)
      (fun _ state => state.Shows view.cleared ∨
        ¬ opens ∧ state.Shows { view with duressSidecar := none }) E := by
  refine (triple_tryOpenWalletRegistry hexists opening opens).bind (fun opened =>
    triple_of_and (fun hnot => ?_))
  refine (triple_clearDuressSettings opened).weaken (fun _ hstate => hstate)
    (fun _ after hafter => ?_) (fun _ hstate => hstate)
  cases opened with
  | true => exact Or.inl hafter
  | false => exact Or.inr ⟨hnot rfl, hafter⟩

variable (hagree : view.duressSidecar = view.duressHash) (opening : RegistryOpening F)
  (readFails sidecarFails : Bool)

include hagree

theorem triple_loadDuressHashFromRegistry :
    Triple (AppState.Shows view)
      (loadDuressHashFromRegistry keys opening readFails sidecarFails)
      (fun found state => (found = none ∨ found = view.duressHash) ∧ state.Shows view) E := by
  refine Triple.bind (Q := fun found after => found.Shows view ∧ after.Shows view)
    (fun _ hstate => ⟨hstate, hstate⟩) (fun found => triple_of_and (fun hfound => ?_))
  by_cases hexists : found.registry.database.isSome = true
  · rw [if_pos hexists]
    have hview : view.registryExists = true :=
      (congrArg AppView.registryExists hfound).symm.trans hexists
    refine Triple.orElse (R := AppState.Shows view) ?_ (fun _ _ hstate => ⟨Or.inl rfl, hstate⟩)
    refine (triple_openWalletRegistry hview opening).bind (fun _ => ?_)
    refine (triple_getRegistrySetting (fun _ hstate => congrArg AppView.duressHash hstate)
      readFails).bind (fun value => triple_of_and (fun hvalue => ?_))
    cases value with
    | none => exact fun _ hstate => ⟨Or.inl rfl, hstate⟩
    | some hash =>
      have hhash : some hash = view.duressHash := by
        split at hvalue
        · cases hvalue
        · exact hvalue
      -- writing the plain file changes nothing
      have hwrite : Triple (AppState.Shows view) (writeDuressSidecar hash sidecarFails :
          AppScript F Unit) (fun _ => AppState.Shows view) (AppState.Shows view) := by
        refine triple_perform_refused _ _ (fun state hstate => ?_) (fun _ hstate => hstate)
        have hsame : state.duressSidecar = some hash :=
          (congrArg AppView.duressSidecar hstate).trans (hagree.trans hhash.symm)
        have hwritten : state.apply (.duressSidecar (some hash)) = state := by
          rw [← hsame]
          rfl
        rwa [hwritten]
      exact hwrite.attempt.bind (fun _ _ hstate => ⟨Or.inr hhash, hstate⟩)
  · rw [if_neg hexists]
    exact fun _ hstate => ⟨Or.inl rfl, hstate⟩

/-- `load_duress_hash_locked_safe`, while registry and plain file agree. -/
theorem triple_loadDuressHashLockedSafe :
    Triple (AppState.Shows view)
      (loadDuressHashLockedSafe keys opening readFails sidecarFails)
      (fun value state => value = view.duressHash ∧ state.Shows view) E := by
  refine (triple_loadDuressHashFromRegistry hagree opening readFails sidecarFails).bind
    (fun value => triple_of_and (fun hvalue => ?_))
  cases value with
  | none =>
    refine fun after hafter => ⟨?_, hafter⟩
    exact (congrArg AppView.duressSidecar hafter).trans hagree
  | some hash => exact fun _ hafter => ⟨hvalue.resolve_left nofun, hafter⟩

/-- `verify_duress_passphrase`, while registry and plain file agree. -/
theorem triple_verifyDuressPassphrase (now : Int) (passphrase : String) :
    Triple (AppState.Shows view)
      (verifyDuressPassphrase keys opening readFails sidecarFails now passphrase)
      (fun isMatch state => isMatch = decide (view.duressHash = some (keys.hash passphrase)) ∧
        state.Shows view) E := by
  refine (triple_loadDuressHashLockedSafe hagree opening readFails sidecarFails).bind
    (fun value => triple_of_and (fun hvalue => ?_))
  rw [← hvalue]
  cases value with
  | none => exact fun _ hstate => ⟨rfl, hstate⟩
  | some hash =>
    dsimp only
    split
    · rename_i hsame
      refine triple_state_bind (fun state => ?_)
      refine (triple_perform (P := AppState.Shows view) (R := AppState.Shows view) _
        (fun _ hstate => hstate)).bind (fun _ => ?_)
      refine Triple.bind (Q := fun _ => AppState.Shows view) ?_ (fun _ => ?_)
      · refine triple_state_bind (fun state => ?_)
        refine (triple_perform (P := AppState.Shows view) (R := AppState.Shows view) _
          (fun _ hstate => hstate)).bind (fun _ => ?_)
        exact triple_perform _ (fun _ hstate => hstate)
      · obtain rfl := keys.verify_iff.mp hsame
        exact fun _ hstate => ⟨(decide_eq_true rfl).symm, hstate⟩
    · rename_i hother
      refine fun _ hstate => ⟨(decide_eq_false ?_).symm, hstate⟩
      exact fun h => hother (keys.verify_iff.mpr (Option.some.inj h))

end Opening

end StashiWallet
