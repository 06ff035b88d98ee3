import StashiWallet.AppRegistry

/-!
# The app passphrase and the duress passphrase

`verify_app_passphrase` and `unlock_app` open the registry with what was typed and compare it
with the stored hash. The duress passphrase has a hash of its own in the registry, for the
unlocked app, and a copy of it in a plain file, for the locked one; in reverse mode it is the
app passphrase read backwards.
-/

namespace StashiWallet

def REGISTRY_APP_PASSPHRASE_KEY : String := "app_passphrase_hash"

def REGISTRY_DURESS_PASSPHRASE_HASH_KEY : String := "duress_passphrase_hash"

def REGISTRY_DURESS_USE_REVERSE_KEY : String := "duress_passphrase_use_reverse"

def DECOY_WALLET_ID : String := "decoy_wallet"

section Calls

variable {F : Type} [DecidableEq F] (keys : AppKeys F)

/-! ## The duress passphrase -/

def reversePassphrase (passphrase : String) : String := String.ofList passphrase.toList.reverse

section Sidecar

omit [DecidableEq F]

/-- `write_duress_sidecar`: a new file takes the place of the old one. -/
def writeDuressSidecar (hash : String) (fails : Bool) : AppScript F Unit :=
  Script.perform (.duressSidecar (some hash)) (if fails then some "Failed to write" else none)

def readDuressSidecar : AppScript F (Option String) := Script.read AppState.duressSidecar

def clearDuressSidecar (fails : Bool) : AppScript F Unit :=
  Script.perform (.duressSidecar none) (if fails then some "Failed to remove" else none)

def syncDuressSidecarFromRegistry (readFails sidecarFails : Bool) : AppScript F Unit := do
  match ← getRegistrySetting REGISTRY_DURESS_PASSPHRASE_HASH_KEY readFails with
  | some hash => Script.attempt (writeDuressSidecar hash sidecarFails)
  | none => Script.attempt (clearDuressSidecar sidecarFails)

/-- What `refresh_duress_reverse_hash` meets. -/
structure RefreshFaults where
  readFails : Bool
  hash : SettingFault
  reverse : SettingFault
  sidecarFails : Bool

def refreshDuressReverseHash (faults : RefreshFaults) (newPassphrase : String) :
    AppScript F Unit := do
  let useReverse ← getRegistrySetting REGISTRY_DURESS_USE_REVERSE_KEY faults.readFails
  if useReverse ≠ some "true" then return
  else if isPalindrome newPassphrase then
    setRegistrySetting REGISTRY_DURESS_PASSPHRASE_HASH_KEY none faults.hash
    setRegistrySetting REGISTRY_DURESS_USE_REVERSE_KEY none faults.reverse
    clearDuressSidecar faults.sidecarFails
  else
    let duressHash ← Script.lift (hashPassphrase keys (reversePassphrase newPassphrase))
    setRegistrySetting REGISTRY_DURESS_PASSPHRASE_HASH_KEY (some duressHash) faults.hash
    writeDuressSidecar duressHash faults.sidecarFails

end Sidecar

/-! ## The app passphrase -/

def setAppPassphrase (opening : RegistryOpening F) (fault : SettingFault) (passphrase : String) :
    AppScript F Unit := do
  let hash ← Script.lift (hashPassphrase keys passphrase)
  openWalletRegistryWithPassphrase keys opening passphrase
  setRegistrySetting REGISTRY_APP_PASSPHRASE_KEY (some hash) fault
  Script.perform (.passphrase (some passphrase)) none

omit [DecidableEq F] in
/-- `verify_app_passphrase_with_db`: without a row, that the registry was opened is enough. -/
def verifyAppPassphraseWithDb (readFails : Bool) (passphrase : String) : AppScript F Bool := do
  match ← getRegistrySetting REGISTRY_APP_PASSPHRASE_KEY readFails with
  | some storedHash => return keys.verify storedHash passphrase
  | none => return true

/-- What a check of the app passphrase meets. -/
structure PassphraseCheck (F : Type) where
  opening : RegistryOpening F
  readFails : Bool

def verifyAppPassphrase (check : PassphraseCheck F) (passphrase : String) : AppScript F Bool := do
  let state ← Script.state
  Script.ensure (state.registry.database.isSome = true) "Wallet registry database not found"
  Script.orElse
    (do
      openWalletRegistryWithPassphrase keys check.opening passphrase
      verifyAppPassphraseWithDb keys check.readFails passphrase)
    (fun _ => return false)

/-- What `unlock_app` meets after the check. -/
structure UnlockFaults where
  loadFails : Bool
  duressReadFails : Bool
  sidecarFails : Bool

def unlockApp (check : PassphraseCheck F) (faults : UnlockFaults) (passphrase : String) :
    AppScript F Unit := do
  let state ← Script.state
  Script.ensure (state.registry.database.isSome = true) "Wallet registry database not found"
  openWalletRegistryWithPassphrase keys check.opening passphrase
  let isValid ← verifyAppPassphraseWithDb keys check.readFails passphrase
  Script.ensure (isValid = true) "Invalid passphrase"
  Script.perform (.decoyVault { state.decoyVault with mode := .real }) none
  Script.perform (.passphrase (some passphrase)) none
  Script.perform (.registryLoaded false) none
  loadWalletRegistryState faults.loadFails
  syncDuressSidecarFromRegistry faults.duressReadFails faults.sidecarFails

/-- What `change_app_passphrase` meets beside its first check. The wallets are changed by a loop
of its own, of which only an error matters here. -/
structure ChangeFaults (F : Type) where
  loading : RegistryLoading F
  opening : RegistryOpening F
  walletsFail : Bool
  rekeyFails : Bool
  hash : SettingFault
  restoreFails : Bool
  refresh : RefreshFaults
  clearHash : SettingFault
  clearReverse : SettingFault
  keystore : Option (PlatformKeystore F)
  sealFault : Option Nat
  reloading : RegistryLoading F

omit [DecidableEq F] in
def forceStoreSealedDbKey (keystore : Option (PlatformKeystore F)) (sealFault : Option Nat)
    (key : F) : AppScript F Unit :=
  ⟨fun _ =>
    match keystore.bind (fun keystore => keystore.sealKey key) with
    | none => ([], .ok ())
    | some sealedKey =>
      ((fsWrite sealFault sealedKey.serialize).1.map (fun bytes => .file (.sealedKey bytes)),
        .ok ())⟩

omit [DecidableEq F] in
/-- `load_salt` on the salt file of the registry. -/
def loadRegistrySalt : AppScript F Bytes :=
  ⟨fun state =>
    match state.registry.salt with
    | none => ([], .error "No salt file")
    | some data => ([], loadSalt data)⟩

/-- `change_app_passphrase`. -/
def changeRegistryPassphrase (check : PassphraseCheck F) (faults : ChangeFaults F)
    (currentPassphrase newPassphrase : String) : AppScript F Unit := do
  Script.lift (validatePassphrase newPassphrase)
  let verified ← verifyAppPassphrase keys check currentPassphrase
  Script.ensure (verified = true) "Invalid current passphrase"
  Script.perform (.passphrase (some currentPassphrase)) none
  Script.perform (.registryLoaded false) none
  ensureWalletRegistryLoaded keys faults.loading
  openWalletRegistryWithPassphrase keys faults.opening currentPassphrase
  let salt ← loadRegistrySalt
  let oldRegistryKey := (keys.dbKeys currentPassphrase).derive salt
  let newRegistryKey := (keys.dbKeys newPassphrase).derive salt
  Script.ensure (faults.walletsFail = false) "Failed to change a wallet"
  Script.perform (.file (.rekey newRegistryKey))
    (if faults.rekeyFails then some "Failed to rekey registry database" else none)
  let newHash ← Script.lift (hashPassphrase keys newPassphrase)
  Script.orElse (setRegistrySetting REGISTRY_APP_PASSPHRASE_KEY (some newHash) faults.hash)
    (fun message => do
      Script.attempt (Script.perform (.file (.rekey oldRegistryKey))
        (if faults.restoreFails then some "Failed to rekey" else none))
      Script.fail message)
  Script.orElse (refreshDuressReverseHash keys faults.refresh newPassphrase) (fun _ => do
    Script.attempt (setRegistrySetting REGISTRY_DURESS_PASSPHRASE_HASH_KEY none faults.clearHash)
    Script.attempt
      (setRegistrySetting REGISTRY_DURESS_USE_REVERSE_KEY none faults.clearReverse))
  forceStoreSealedDbKey faults.keystore faults.sealFault newRegistryKey
  Script.perform (.passphrase (some newPassphrase)) none
  Script.perform (.registryLoaded false) none
  ensureWalletRegistryLoaded keys faults.reloading

/-! ## The calls about the duress passphrase -/

/-- The hash in the registry, if the registry can be opened; the plain file follows it. -/
def loadDuressHashFromRegistry (opening : RegistryOpening F) (readFails sidecarFails : Bool) :
    AppScript F (Option String) := do
  let state ← Script.state
  if state.registry.database.isSome then
    Script.orElse
      (do
        openWalletRegistry keys opening
        match ← getRegistrySetting REGISTRY_DURESS_PASSPHRASE_HASH_KEY readFails with
        | some hash =>
          Script.attempt (writeDuressSidecar hash sidecarFails)
          return some hash
        | none => return none)
      (fun _ => return none)
  else return none

/-- `load_duress_hash_locked_safe`: the registry first, then the plain file. -/
def loadDuressHashLockedSafe (opening : RegistryOpening F) (readFails sidecarFails : Bool) :
    AppScript F (Option String) := do
  match ← loadDuressHashFromRegistry keys opening readFails sidecarFails with
  | some hash => return some hash
  | none => readDuressSidecar

/-- The characters `str::trim` removes. -/
def isWhiteSpace (c : Char) : Bool :=
  let code := c.toNat
  (9 ≤ code && code ≤ 13) || code == 32 || code == 133 || code == 160 || code == 5760 ||
    (8192 ≤ code && code ≤ 8202) || code == 8232 || code == 8233 || code == 8239 ||
    code == 8287 || code == 12288

def trim (value : String) : String :=
  String.ofList
    ((value.toList.dropWhile isWhiteSpace).reverse.dropWhile isWhiteSpace).reverse

def validateCustomDuressPassphrase (passphrase : String) : Except String Unit := do
  validatePassphrase passphrase
  if !passphrase.toList.any Char.isLower then
    .error "Duress passphrase must include a lowercase letter"
  else if !passphrase.toList.any Char.isUpper then
    .error "Duress passphrase must include an uppercase letter"
  else if !passphrase.toList.any Char.isDigit then
    .error "Duress passphrase must include a number"
  else if !passphrase.toList.any (fun c => "!@#$%^&*(),.?\":\x7b\x7d|<>".toList.contains c) then
    .error "Duress passphrase must include a symbol (e.g. !@#$)"
  else .ok ()

/-- A custom passphrase, or the app passphrase read backwards, and whether it is the latter. -/
def customOrReverse (customPassphrase : Option String) (appPassphrase : String) :
    Except String (String × Bool) :=
  match (customPassphrase.map trim).filter (fun value => value != "") with
  | some value => do
    validateCustomDuressPassphrase value
    .ok (value, false)
  | none =>
    if isPalindrome appPassphrase then
      .error "Passphrase reads the same forwards and backwards; set a custom duress passphrase"
    else .ok (reversePassphrase appPassphrase, true)

/-- The passphrase `set_duress_passphrase` chooses. -/
def chooseDuressPassphrase (customPassphrase : Option String) (appPassphrase : String) :
    Except String (String × Bool) := do
  let chosen ← customOrReverse customPassphrase appPassphrase
  if chosen.1 = appPassphrase then
    .error "Duress passphrase must be different from your app passphrase"
  else .ok chosen

/-- What a change of the duress settings meets. -/
structure DuressFaults where
  hash : SettingFault
  reverse : SettingFault
  sidecarFails : Bool

def DuressFaults.none : DuressFaults := ⟨.none, .none, false⟩

def setDuressPassphrase (opening : RegistryOpening F) (faults : DuressFaults)
    (customPassphrase : Option String) : AppScript F Unit := do
  let current ← appPassphrase
  let chosen ← Script.lift (chooseDuressPassphrase customPassphrase current)
  let duressHash ← Script.lift (hashPassphrase keys chosen.1)
  openWalletRegistry keys opening
  setRegistrySetting REGISTRY_DURESS_PASSPHRASE_HASH_KEY (some duressHash) faults.hash
  setRegistrySetting REGISTRY_DURESS_USE_REVERSE_KEY
    (some (if chosen.2 then "true" else "false")) faults.reverse
  writeDuressSidecar duressHash faults.sidecarFails
  let state ← Script.state
  Script.perform (.decoyVault { state.decoyVault with
    enabled := true
    panicPinHash := some duressHash }) none

/-- Whether there is a registry that can be opened. -/
def tryOpenWalletRegistry (opening : RegistryOpening F) : AppScript F Bool := do
  let state ← Script.state
  if state.registry.database.isSome then
    Script.orElse (do openWalletRegistry keys opening; return true) (fun _ => return false)
  else return false

omit [DecidableEq F] in
/-- The part of `clear_duress_passphrase` after the registry was opened, or not. -/
def clearDuressSettings (opened : Bool) (faults : DuressFaults) : AppScript F Unit := do
  if opened then
    setRegistrySetting REGISTRY_DURESS_PASSPHRASE_HASH_KEY none faults.hash
    setRegistrySetting REGISTRY_DURESS_USE_REVERSE_KEY none faults.reverse
  let state ← Script.state
  Script.perform (.decoyVault { state.decoyVault with
    mode := .real
    enabled := false
    panicPinHash := none }) none
  clearDuressSidecar faults.sidecarFails

/-- `clear_duress_passphrase`: where the registry cannot be opened, the plain file only. -/
def clearDuressPassphrase (opening : RegistryOpening F) (faults : DuressFaults) :
    AppScript F Unit := do
  clearDuressSettings (← tryOpenWalletRegistry keys opening) faults

def decoyWalletMeta (now : Int) (vault : DecoyVault) : WalletMeta where
  id := DECOY_WALLET_ID
  name := vault.decoyWalletName
  createdAt := now
  watchOnly := false
  birthdayHeight := 3750000
  networkType := some "mainnet"

omit [DecidableEq F] in
def ensureDecoyWalletState (now : Int) : AppScript F Unit := do
  let state ← Script.state
  Script.perform (.wallets [decoyWalletMeta now state.decoyVault]) none
  Script.perform (.activeWallet (some DECOY_WALLET_ID)) none

/-- `verify_duress_passphrase`: a match activates the decoy vault. -/
def verifyDuressPassphrase (opening : RegistryOpening F) (readFails sidecarFails : Bool)
    (now : Int) (passphrase : String) : AppScript F Bool := do
  match ← loadDuressHashLockedSafe keys opening readFails sidecarFails with
  | none => return false
  | some hash =>
    if keys.verify hash passphrase then
      let state ← Script.state
      let vault := if state.decoyVault.enabled then state.decoyVault
        else { state.decoyVault with enabled := true, panicPinHash := some hash }
      Script.perform (.decoyVault { vault with mode := .decoy }) none
      ensureDecoyWalletState now
      return true
    else return false

end Calls

end StashiWallet
