import StashiWallet.AppPassphrase
import StashiWallet.KeyFileStops

/-!
# Who is let in

The registry is opened by its sealed key, if there is one, whatever was typed; what was typed
counts only against the stored hash. A sequence of calls, any of which may be stopped between
two writes, keeps one invariant (`History.Accurate`): the hash row is the one written last, or it
is missing because its replacement, or the first one, was not completed. In the first case it
verifies for the passphrase it is the hash of and for no other (`PasswordHasher.verify_hash`), in
the second whoever opens the registry is let in.
-/

namespace StashiWallet

/-! ## Calls and their history -/

inductive AppCall (F : Type) where
  | setAppPassphrase (opening : RegistryOpening F) (fault : SettingFault) (passphrase : String)
  | changeAppPassphrase (check : PassphraseCheck F) (faults : ChangeFaults F)
      (currentPassphrase newPassphrase : String)
  | verifyAppPassphrase (check : PassphraseCheck F) (passphrase : String)
  | unlockApp (check : PassphraseCheck F) (faults : UnlockFaults) (passphrase : String)

/-- A call, and after how many writes it is stopped if it is. -/
structure AppEvent (F : Type) where
  call : AppCall F
  stopped : Option Nat

/-- What the sequence has done so far: the hash that was written last, and whether a hash was
removed, or the registry created, without one being written since. -/
structure History where
  established : Option String
  unfinished : Bool
deriving DecidableEq

/-- The history after one more write. -/
def History.track {F : Type} (history : History) : AppWrite F → History
  | .insertSetting key value =>
    if key = REGISTRY_APP_PASSPHRASE_KEY then ⟨some value, false⟩ else history
  | .deleteSetting key =>
    if key = REGISTRY_APP_PASSPHRASE_KEY then { history with unfinished := true } else history
  | .file (.create _) => { history with unfinished := true }
  | _ => history

section Runs

variable {F : Type} [DecidableEq F] (keys : AppKeys F)

def AppCall.writes (state : AppState F) : AppCall F → List (AppWrite F)
  | .setAppPassphrase opening fault passphrase =>
    (StashiWallet.setAppPassphrase keys opening fault passphrase).run state |>.1
  | .changeAppPassphrase check faults currentPassphrase newPassphrase =>
    (changeRegistryPassphrase keys check faults currentPassphrase newPassphrase).run state |>.1
  | .verifyAppPassphrase check passphrase =>
    (StashiWallet.verifyAppPassphrase keys check passphrase).run state |>.1
  | .unlockApp check faults passphrase =>
    (StashiWallet.unlockApp keys check faults passphrase).run state |>.1

/-- One call of a sequence; a process that is stopped starts again. -/
def AppEvent.step (s : AppState F × History) (event : AppEvent F) : AppState F × History :=
  let writes := event.call.writes keys s.1
  match event.stopped with
  | none => (writes.foldl AppState.apply s.1, writes.foldl History.track s.2)
  | some count =>
    ((writes.take count).foldl AppState.apply s.1 |>.restart,
      (writes.take count).foldl History.track s.2)

/-- The call returns and lets somebody in who typed this passphrase. -/
def AppEvent.Accepts (state : AppState F) (event : AppEvent F) (passphrase : String) : Prop :=
  event.stopped = none ∧
    match event.call with
    | .verifyAppPassphrase check typed =>
      typed = passphrase ∧ (verifyAppPassphrase keys check typed).result state = .ok true
    | .unlockApp check faults typed =>
      typed = passphrase ∧ (unlockApp keys check faults typed).result state = .ok ()
    | _ => False

/-- The registry opens for a passphrase: by its sealed key, or by the key of the passphrase. -/
def RegistryOpens (state : AppState F) (opening : RegistryOpening F) (passphrase : String) :
    Prop :=
  state.registry.database.isSome = true ∧
    (openWalletRegistryWithPassphrase keys opening passphrase).result state = .ok ()

/-- A call that checks another passphrase than the established one, while the hash is missing
or cannot be read, does not get as far as to open the registry. -/
def AppEvent.Guarded (s : AppState F × History) (event : AppEvent F) : Prop :=
  event.stopped = none →
    match event.call with
    | .verifyAppPassphrase check typed =>
      s.2.established ≠ some (keys.hash typed) → (s.2.unfinished = true ∨ check.readFails = true) →
        ¬ RegistryOpens keys s.1 check.opening typed
    | .unlockApp check faults typed =>
      s.2.established ≠ some (keys.hash typed) → (s.2.unfinished = true ∨ check.readFails = true) →
        faults.loadFails = false → ¬ RegistryOpens keys s.1 check.opening typed
    | _ => True

/-- Whoever is let in typed the established passphrase. -/
def AppEvent.LetsInOnlyEstablished (s : AppState F × History) (event : AppEvent F) : Prop :=
  ∀ passphrase, event.Accepts keys s.1 passphrase → s.2.established = some (keys.hash passphrase)

/-! ## What the hash row is -/

omit [DecidableEq F] in
/-- The hash row is the established one, or it is missing and known to be. -/
def History.Accurate (s : AppState F × History) : Prop :=
  ∀ tables, s.1.tables = some tables →
    match tables.walletSettings.lookup REGISTRY_APP_PASSPHRASE_KEY with
    | some hash => s.2.established = some hash ∧ s.2.unfinished = false
    | none => s.2.unfinished = true

end Runs

section Accurate

variable {F : Type}

theorem lookup_filter_ne {settings : List (String × String)} {key other : String}
    (hne : other ≠ key) :
    (settings.filter (fun row => row.1 != key)).lookup other = settings.lookup other := by
  induction settings with
  | nil => rfl
  | cons row settings ih =>
    obtain ⟨name, value⟩ := row
    by_cases hname : name = key
    · subst hname
      rw [List.filter_cons_of_neg (by simp), ih, List.lookup_cons, beq_false_of_ne hne]
    · rw [List.filter_cons_of_pos (by simpa using hname), List.lookup_cons, List.lookup_cons, ih]

theorem lookup_filter_self (settings : List (String × String)) (key : String) :
    (settings.filter (fun row => row.1 != key)).lookup key = none := by
  rw [List.lookup_eq_none_iff]
  intro row hrow
  have hne := (List.mem_filter.mp hrow).2
  rw [bne_iff_ne]
  exact (bne_iff_ne.mp hne).symm

theorem tables_changeTables (change : RegistryTables → RegistryTables) (state : AppState F) :
    (state.changeTables change).tables = state.tables.map change := by
  unfold AppState.changeTables AppState.tables
  rw [Option.map_map, Option.map_map]
  rfl

theorem tables_of_changeTables {change : RegistryTables → RegistryTables} {state : AppState F}
    {tables : RegistryTables} (h : (state.changeTables change).tables = some tables) :
    ∃ before, state.tables = some before ∧ change before = tables := by
  rw [tables_changeTables] at h
  exact Option.map_eq_some_iff.mp h

/-- No write leaves a hash in the table that is not the established one. -/
theorem History.Accurate.apply {s : AppState F × History} (h : History.Accurate s)
    (write : AppWrite F) : History.Accurate (s.1.apply write, s.2.track write) := by
  have hsame : ∀ {state : AppState F}, state.tables = s.1.tables →
      History.Accurate (state, s.2) := by
    intro state htables tables hfound
    exact h tables (htables.symm.trans hfound)
  have hsettings : ∀ {change : RegistryTables → RegistryTables},
      (∀ tables, (change tables).walletSettings = tables.walletSettings) →
      History.Accurate (s.1.changeTables change, s.2) := by
    intro change hchange tables hfound
    obtain ⟨tables, htables, rfl⟩ := tables_of_changeTables hfound
    have hrow := h tables htables
    rwa [← hchange tables] at hrow
  cases write with
  | file write =>
    cases write with
    | create key =>
      rintro tables hfound
      obtain rfl := Option.some.inj hfound
      rfl
    | rekey key =>
      refine hsame ?_
      show (s.1.registry.database.map _).map Prod.snd = _
      rw [Option.map_map]
      rfl
    | salt bytes => exact hsame rfl
    | sealedKey bytes => exact hsame rfl
  | deleteSetting key =>
    intro tables hfound
    obtain ⟨tables, htables, rfl⟩ := tables_of_changeTables hfound
    have hrow := h tables htables
    unfold History.track RegistryTables.deleteSetting
    by_cases hkey : key = REGISTRY_APP_PASSPHRASE_KEY
    · subst hkey
      dsimp only
      rw [lookup_filter_self, if_pos rfl]
    · dsimp only
      rwa [lookup_filter_ne (Ne.symm hkey), if_neg hkey]
  | insertSetting key value =>
    intro tables hfound
    obtain ⟨tables, htables, rfl⟩ := tables_of_changeTables hfound
    have hrow := h tables htables
    unfold History.track RegistryTables.insertSetting
    by_cases hkey : key = REGISTRY_APP_PASSPHRASE_KEY
    · subst hkey
      dsimp only
      rw [List.lookup_cons_self, if_pos rfl]
      exact ⟨rfl, rfl⟩
    · dsimp only
      rwa [List.lookup_cons, beq_false_of_ne (Ne.symm hkey), if_neg hkey]
  | upsertWallet row =>
    refine hsettings (fun tables => ?_)
    unfold RegistryTables.upsertWallet
    split
    · rfl
    · rfl
  | deleteWallet walletId => exact hsettings (fun _ => rfl)
  | removeRegistry => rintro tables ⟨⟩
  | removeSalt => exact hsame rfl
  | removeSealedKey => exact hsame rfl
  | duressSidecar hash => exact hsame rfl
  | passphrase cached => exact hsame rfl
  | registryLoaded loaded => exact hsame rfl
  | wallets wallets => exact hsame rfl
  | activeWallet walletId => exact hsame rfl
  | decoyVault vault => exact hsame rfl

theorem History.Accurate.writes {s : AppState F × History} (h : History.Accurate s)
    (writes : List (AppWrite F)) :
    History.Accurate (writes.foldl AppState.apply s.1, writes.foldl History.track s.2) := by
  induction writes generalizing s with
  | nil => exact h
  | cons write writes ih => exact ih (h.apply write)

end Accurate

/-! ## Who is let in by one call -/

section Checks

variable {F : Type} [DecidableEq F] {keys : AppKeys F}

/-- A database that is there is not created. -/
theorem create_not_mem_openEncryptedDb {D : Type} {dbKeys : DbKeys F} {call : OpenCall F}
    {files : KeyFiles F D} (h : files.database.isSome = true) (key : F) :
    .create key ∉ (files.openEncryptedDb dbKeys call).1 := by
  obtain ⟨⟨stored, data⟩, hdatabase⟩ := Option.isSome_iff_exists.mp h
  have hseal : ∀ key' : F, FileWrite.create key ∉ files.maybeStoreSealedDbKey call key' := by
    intro key' hmem
    obtain ⟨states, hstates⟩ := maybeStoreSealedDbKey_eq call key' files
    rw [hstates] at hmem
    obtain ⟨bytes, -, heq⟩ := List.mem_map.mp hmem
    cases heq
  have hsalts : ∀ states : List Bytes, FileWrite.create key ∉ states.map FileWrite.salt := by
    intro states hmem
    obtain ⟨bytes, -, heq⟩ := List.mem_map.mp hmem
    cases heq
  unfold KeyFiles.openEncryptedDb
  split
  · split
    · exact List.not_mem_nil
    · unfold KeyFiles.openSalted KeyFiles.openDatabase
      rw [hdatabase]
      dsimp only
      split
      · exact List.not_mem_nil
      · split
        · rename_i writes hwrites
          obtain rfl : writes = [] := by
            split at hwrites
            · exact (Option.some.inj hwrites).symm
            · cases hwrites
          exact hseal _
        · split
          · rename_i writes hwrites
            obtain rfl : writes = [] := by
              split at hwrites
              · exact (Option.some.inj hwrites).symm
              · cases hwrites
            exact hseal _
          · exact List.not_mem_nil
  · rw [hdatabase]
    dsimp only
    split
    · exact List.not_mem_nil
    · split
      · exact List.not_mem_nil
      · split
        · rw [List.mem_append, List.mem_cons]
          rintro ((heq | hmem) | hmem)
          · cases heq
          · exact hsalts _ hmem
          · exact hseal _ hmem
        · rw [List.mem_append, List.mem_cons]
          rintro ((heq | hmem) | hmem)
          · cases heq
          · exact hsalts _ hmem
          · split at hmem
            · cases hmem
            · cases List.mem_singleton.mp hmem

/-- Opening the registry does not change its tables. -/
theorem setting_after_opening {state : AppState F} (h : state.registry.database.isSome = true)
    (opening : RegistryOpening F) (passphrase key : String) :
    ((openWalletRegistryWithPassphrase keys opening passphrase).after state).setting key =
      state.setting key := by
  have hkept : ∀ (writes : List (FileWrite F)) (state : AppState F),
      (∀ key, FileWrite.create key ∉ writes) →
      ((writes.map AppWrite.file).foldl AppState.apply state).tables = state.tables := by
    intro writes
    induction writes with
    | nil => intro state _; rfl
    | cons write writes ih =>
      intro state hcreate
      rw [List.map_cons, List.foldl_cons,
        ih _ (fun key hmem => hcreate key (List.mem_cons_of_mem write hmem))]
      cases write with
      | create key => exact absurd List.mem_cons_self (hcreate key)
      | rekey key =>
        show (state.registry.database.map _).map Prod.snd = _
        rw [Option.map_map]
        rfl
      | salt bytes => rfl
      | sealedKey bytes => rfl
  unfold AppState.setting
  have htables := hkept _ state (@create_not_mem_openEncryptedDb F _ _ (keys.dbKeys passphrase)
    opening.call state.registry h)
  exact congrArg (fun tables : Option RegistryTables =>
    tables.bind (fun tables => tables.walletSettings.lookup key)) htables

omit [DecidableEq F] in
/-- The comparison with the stored hash lets the passphrase in. -/
def AppState.admits (keys : AppKeys F) (readFails : Bool) (passphrase : String)
    (state : AppState F) : Bool :=
  match if readFails then none else state.setting REGISTRY_APP_PASSPHRASE_KEY with
  | some storedHash => keys.verify storedHash passphrase
  | none => true

omit [DecidableEq F] in
theorem verifyAppPassphraseWithDb_result (readFails : Bool) (passphrase : String)
    (state : AppState F) :
    (verifyAppPassphraseWithDb keys readFails passphrase).result state =
      .ok (state.admits keys readFails passphrase) := by
  unfold verifyAppPassphraseWithDb AppState.admits
  rw [Script.result_bind_of_ok (a := if readFails then none
    else state.setting REGISTRY_APP_PASSPHRASE_KEY) rfl]
  cases if readFails then none else state.setting REGISTRY_APP_PASSPHRASE_KEY with
  | none => rfl
  | some storedHash => rfl

theorem admits_after_opening {state : AppState F} (h : state.registry.database.isSome = true)
    (opening : RegistryOpening F) (readFails : Bool) (passphrase : String) :
    ((openWalletRegistryWithPassphrase keys opening passphrase).after state).admits keys readFails
      passphrase = state.admits keys readFails passphrase := by
  unfold AppState.admits
  rw [setting_after_opening h]

/-- The check of a typed passphrase passes if the registry opens for it and the hash, where it
is there and can be read, is that of the passphrase. -/
theorem verifyAppPassphrase_result_iff (check : PassphraseCheck F) (passphrase : String)
    (state : AppState F) :
    (verifyAppPassphrase keys check passphrase).result state = .ok true ↔
      RegistryOpens keys state check.opening passphrase ∧
        state.admits keys check.readFails passphrase = true := by
  unfold verifyAppPassphrase Script.result
  rw [Script.run_state_bind]
  by_cases hexists : state.registry.database.isSome = true
  · rw [Script.run_ensure_bind hexists]
    cases hopened : (openWalletRegistryWithPassphrase keys check.opening passphrase).result state with
    | error message =>
      rw [Script.run_orElse_of_error (Script.result_bind_of_error hopened)]
      refine iff_of_false nofun ?_
      rintro ⟨⟨-, hopens⟩, -⟩
      cases hopened.symm.trans hopens
    | ok _ =>
      have hresult := (@Script.result_bind_of_ok _ _ _ _ _ _
        (fun _ => verifyAppPassphraseWithDb keys check.readFails passphrase) _ _ hopened).trans
        (verifyAppPassphraseWithDb_result _ _ _)
      rw [Script.run_orElse_of_ok hresult]
      change Script.result _ _ = _ ↔ _
      have hopens : RegistryOpens keys state check.opening passphrase := ⟨hexists, hopened⟩
      rw [hresult, admits_after_opening hexists, and_iff_right hopens, Except.ok.injEq]
  · rw [Script.run_ensure_bind_of_not hexists]
    exact iff_of_false nofun (fun h => hexists h.1.1)

omit [DecidableEq F] in
theorem loadWalletRegistryState_result (fails : Bool) (state : AppState F) :
    (loadWalletRegistryState fails).result state = .ok () ↔ fails = false := by
  cases fails with
  | true => exact iff_of_false nofun nofun
  | false => exact iff_of_true rfl rfl

omit [DecidableEq F] in
theorem syncDuressSidecarFromRegistry_result (readFails sidecarFails : Bool) (state : AppState F) :
    (syncDuressSidecarFromRegistry readFails sidecarFails).result state = .ok () := by
  unfold syncDuressSidecarFromRegistry
  rw [Script.result_bind_of_ok (a := if readFails then none
    else state.setting REGISTRY_DURESS_PASSPHRASE_HASH_KEY) rfl]
  cases if readFails then none else state.setting REGISTRY_DURESS_PASSPHRASE_HASH_KEY with
  | none => rfl
  | some hash => rfl

/-- The app is unlocked in the same cases in which the check passes, if the wallets can be
loaded. -/
theorem unlockApp_result_iff (check : PassphraseCheck F) (faults : UnlockFaults)
    (passphrase : String) (state : AppState F) :
    (unlockApp keys check faults passphrase).result state = .ok () ↔
      (RegistryOpens keys state check.opening passphrase ∧
        state.admits keys check.readFails passphrase = true) ∧ faults.loadFails = false := by
  unfold unlockApp Script.result
  rw [Script.run_state_bind]
  by_cases hexists : state.registry.database.isSome = true
  · rw [Script.run_ensure_bind hexists]
    cases hopened : (openWalletRegistryWithPassphrase keys check.opening passphrase).result state with
    | error message =>
      rw [Script.run_bind_of_error hopened]
      refine iff_of_false nofun ?_
      rintro ⟨⟨⟨-, hopens⟩, -⟩, -⟩
      cases hopened.symm.trans hopens
    | ok _ =>
      rw [Script.run_bind_of_ok hopened]
      change Script.result _ _ = _ ↔ _
      have hopens : RegistryOpens keys state check.opening passphrase := ⟨hexists, hopened⟩
      rw [Script.result_bind_of_ok (verifyAppPassphraseWithDb_result _ _ _),
        admits_after_opening hexists, and_iff_right hopens]
      unfold Script.result
      by_cases hvalid : state.admits keys check.readFails passphrase = true
      · rw [Script.run_ensure_bind hvalid, and_iff_right hvalid]
        change Script.result _ _ = _ ↔ _
        rw [Script.result_bind_of_ok (a := ()) rfl, Script.result_bind_of_ok (a := ()) rfl,
          Script.result_bind_of_ok (a := ()) rfl]
        cases hload : faults.loadFails with
        | true => exact iff_of_false nofun nofun
        | false =>
          rw [Script.result_bind_of_ok ((loadWalletRegistryState_result false _).mpr rfl),
            syncDuressSidecarFromRegistry_result]
          exact iff_of_true rfl rfl
      · rw [Script.run_ensure_bind_of_not hvalid]
        exact iff_of_false nofun (fun h => hvalid h.1)
  · rw [Script.run_ensure_bind_of_not hexists]
    exact iff_of_false nofun (fun h => hexists h.1.1.1)

end Checks

/-! ## Sequences of calls -/

section Sequences

variable {F : Type} [DecidableEq F] {keys : AppKeys F}

omit [DecidableEq F] in
/-- Besides the established passphrase, others are admitted while a hash write is unfinished. -/
theorem History.Accurate.admits_iff {s : AppState F × History} (h : History.Accurate s)
    (hexists : s.1.registry.database.isSome = true) (readFails : Bool) (passphrase : String) :
    s.1.admits keys readFails passphrase = true ↔
      s.2.established = some (keys.hash passphrase) ∧ s.2.unfinished = false ∨
        s.2.unfinished = true ∨ readFails = true := by
  obtain ⟨⟨key, tables⟩, hdatabase⟩ := Option.isSome_iff_exists.mp hexists
  have htables : s.1.tables = some tables := by
    unfold AppState.tables
    rw [hdatabase]
    rfl
  have hrow := h tables htables
  unfold AppState.admits AppState.setting
  rw [htables, Option.bind_some]
  cases readFails with
  | true => exact iff_of_true rfl (Or.inr (Or.inr rfl))
  | false =>
    rw [if_neg Bool.false_ne_true]
    cases hfound : tables.walletSettings.lookup REGISTRY_APP_PASSPHRASE_KEY with
    | none =>
      rw [hfound] at hrow
      exact iff_of_true rfl (Or.inr (Or.inl hrow))
    | some hash =>
      rw [hfound] at hrow
      obtain ⟨hestablished, hfinished⟩ := hrow
      rw [hestablished, hfinished]
      simp [PasswordHasher.verify_iff]

theorem History.Accurate.step {s : AppState F × History} (h : History.Accurate s)
    (event : AppEvent F) : History.Accurate (event.step keys s) := by
  unfold AppEvent.step
  cases event.stopped with
  | none => exact h.writes _
  | some count => exact h.writes _

/-- One call lets in only the established passphrase exactly if it is guarded. -/
theorem AppEvent.letsInOnlyEstablished_iff {s : AppState F × History} (h : History.Accurate s)
    (event : AppEvent F) :
    event.LetsInOnlyEstablished keys s ↔ event.Guarded keys s := by
  have hcheck : ∀ (opening : RegistryOpening F) (readFails : Bool) (typed : String),
      (RegistryOpens keys s.1 opening typed ∧ s.1.admits keys readFails typed = true →
        s.2.established = some (keys.hash typed)) ↔
      (s.2.established ≠ some (keys.hash typed) → (s.2.unfinished = true ∨ readFails = true) →
        ¬ RegistryOpens keys s.1 opening typed) := by
    intro opening readFails typed
    by_cases hopens : RegistryOpens keys s.1 opening typed
    · rw [and_iff_right hopens, h.admits_iff hopens.1]
      tauto
    · tauto
  obtain ⟨call, stopped⟩ := event
  unfold AppEvent.LetsInOnlyEstablished AppEvent.Guarded AppEvent.Accepts
  cases stopped with
  | some count => exact iff_of_true (fun _ haccepts => nomatch haccepts.1) nofun
  | none =>
    cases call with
    | setAppPassphrase opening fault passphrase =>
      exact iff_of_true (fun _ haccepts => haccepts.2.elim) (fun _ => trivial)
    | changeAppPassphrase check faults currentPassphrase newPassphrase =>
      exact iff_of_true (fun _ haccepts => haccepts.2.elim) (fun _ => trivial)
    | verifyAppPassphrase check typed =>
      dsimp only
      rw [verifyAppPassphrase_result_iff]
      have hiff := hcheck check.opening check.readFails typed
      constructor
      · exact fun honly _ => hiff.mp (fun haccepts => honly typed ⟨rfl, rfl, haccepts⟩)
      · rintro hguarded _ ⟨-, rfl, haccepts⟩
        exact hiff.mpr (hguarded rfl) haccepts
    | unlockApp check faults typed =>
      dsimp only
      rw [unlockApp_result_iff]
      have hiff := hcheck check.opening check.readFails typed
      constructor
      · intro honly _ hother hmissing hload
        exact hiff.mp (fun haccepts => honly typed ⟨rfl, rfl, haccepts, hload⟩) hother hmissing
      · rintro hguarded _ ⟨-, rfl, haccepts, hload⟩
        exact hiff.mpr (fun hother hmissing => hguarded rfl hother hmissing hload) haccepts

/-- **Who is let in over a sequence of calls.** From a state whose hash row is accounted for,
all calls let in the established passphrase only, exactly if no call checks another passphrase
that opens the registry while the hash row is missing or cannot be read. -/
theorem only_established_let_in_iff (keys : AppKeys F) (s : AppState F × History)
    (hs : History.Accurate s) (events : List (AppEvent F)) :
    Runs.EachStep (AppEvent.step keys) (fun s event => event.LetsInOnlyEstablished keys s)
        s events ↔
      Runs.EachStep (AppEvent.step keys) (fun s event => event.Guarded keys s) s events := by
  induction events generalizing s with
  | nil => simp
  | cons event events ih =>
    rw [Runs.eachStep_cons, Runs.eachStep_cons, ih _ (hs.step event),
      AppEvent.letsInOnlyEstablished_iff hs]

end Sequences

/-! ## A hash that is missing -/

/-- Passphrase and salt themselves as the key. -/
def clearKeys : AppKeys Bytes :=
  ⟨.labelled, fun passphrase => ⟨fun salt => passphrase.toByteArray.data.toList ++ salt, none⟩⟩

/-- A keystore that seals by writing the key down. -/
def clearKeystore : PlatformKeystore Bytes where
  sealKey key :=
    if key.length < 4294967296 then some ⟨key, "k", .chaCha20Poly1305⟩ else none
  unsealKey sealedKey := .success sealedKey.encryptedKey
  fits := by
    intro key sealedKey h
    split at h
    · rename_i hlength
      obtain rfl := Option.some.inj h
      have hkeyId : "k".toByteArray.data.toList.length < 4294967296 := by decide
      exact ⟨hkeyId, hlength⟩
    · cases h

def clearOpening : RegistryOpening Bytes :=
  ⟨⟨List.replicate 32 7, rfl, some clearKeystore, none, false, none⟩, false⟩

/-- An app that was just installed. -/
def freshApp : AppState Bytes × History :=
  (⟨⟨none, none, none⟩, none, none, false, [], none, .new⟩, ⟨none, true⟩)

theorem freshApp_accurate : History.Accurate freshApp := by
  rintro tables ⟨⟩

/-- The app after its passphrase was set. -/
def establishedApp : AppState Bytes × History :=
  AppEvent.step clearKeys freshApp ⟨.setAppPassphrase clearOpening .none "Correct-Horse-9", none⟩

/-- The established passphrase is let in, and another one is refused. -/
theorem only_established_let_in_after_set :
    Runs.EachStep (AppEvent.step clearKeys)
      (fun s event => event.LetsInOnlyEstablished clearKeys s) freshApp
      [⟨.setAppPassphrase clearOpening .none "Correct-Horse-9", none⟩,
        ⟨.verifyAppPassphrase ⟨clearOpening, false⟩ "Correct-Horse-9", none⟩,
        ⟨.verifyAppPassphrase ⟨clearOpening, false⟩ "guess", none⟩] ∧
    (verifyAppPassphrase clearKeys ⟨clearOpening, false⟩ "Correct-Horse-9").result
      establishedApp.1 = .ok true ∧
    (verifyAppPassphrase clearKeys ⟨clearOpening, false⟩ "guess").result
      establishedApp.1 = .ok false := by
  refine ⟨(only_established_let_in_iff clearKeys freshApp freshApp_accurate _).mpr ?_,
    by decide +kernel, by decide +kernel⟩
  rw [Runs.eachStep_cons, Runs.eachStep_cons, Runs.eachStep_cons]
  refine ⟨fun _ => trivial, fun _ hother _ => ?_, fun _ _ hmissing => ?_, Runs.eachStep_nil⟩
  · exact absurd (by decide +kernel) hother
  · exact absurd hmissing (by decide +kernel)

/-- The passphrase is set again and the process stops between the `DELETE` and the `INSERT` of
its hash: the sealed key opens the registry, and whatever is typed is accepted. -/
theorem anything_let_in_without_hash :
    ¬ Runs.EachStep (AppEvent.step clearKeys)
      (fun s event => event.LetsInOnlyEstablished clearKeys s) freshApp
      [⟨.setAppPassphrase clearOpening .none "Correct-Horse-9", none⟩,
        ⟨.setAppPassphrase clearOpening .none "Correct-Horse-9", some 1⟩,
        ⟨.verifyAppPassphrase ⟨clearOpening, false⟩ "guess", none⟩] := by
  rw [Runs.eachStep_cons, Runs.eachStep_cons, Runs.eachStep_cons]
  rintro ⟨-, -, honly, -⟩
  have hestablished := honly "guess" ⟨rfl, rfl, by decide +kernel⟩
  exact absurd hestablished (by decide +kernel)

end StashiWallet
