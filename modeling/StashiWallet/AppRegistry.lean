import Mathlib.Data.List.Sort
import StashiWallet.Aead
import StashiWallet.KeyFiles
import StashiWallet.Scripts

/-!
# The wallet registry

The registry is a database with key, salt and sealed-key files of its own. It holds the list of
wallets and a table of settings, the hash of the app passphrase among them. What is read of it
lives in memory too: the passphrase of the session, the wallets, the decoy vault; and the hash of
the duress passphrase lies in a plain file beside it.

Every call is a `Script`: what it writes, to the files, to the tables and to memory, in order.
What can fail besides is an input of the call, and an error of the system names what failed.
-/

namespace StashiWallet

/-! ## Passphrases -/

inductive PassphraseStrength where
  | weak
  | fair
  | good
  | strong
deriving DecidableEq, Repr

def PassphraseStrength.isAcceptable : PassphraseStrength → Bool
  | .good | .strong => true
  | .weak | .fair => false

/-- `AppPassphrase::evaluate_strength`. Letters outside ASCII count as special here, which moves
a passphrase between the two acceptable strengths only. -/
def evaluateStrength (passphrase : String) : PassphraseStrength :=
  let len := passphrase.utf8ByteSize
  let hasLower := passphrase.toList.any Char.isLower
  let hasUpper := passphrase.toList.any Char.isUpper
  let hasDigit := passphrase.toList.any Char.isDigit
  let hasSpecial := passphrase.toList.any (fun c => !c.isAlphanum)
  let varietyScore := ([hasLower, hasUpper, hasDigit, hasSpecial].filter id).length
  if len < 8 then .weak
  else if len < 12 then .fair
  else if len < 16 ∨ varietyScore < 3 then .good
  else .strong

/-- `passphrase.chars().eq(passphrase.chars().rev())`. -/
def isPalindrome (passphrase : String) : Bool :=
  passphrase.toList == passphrase.toList.reverse

/-- `AppPassphrase::validate`. -/
def validatePassphrase (passphrase : String) : Except String Unit :=
  if passphrase.utf8ByteSize < 12 then .error "Passphrase must be at least 12 characters"
  else if isPalindrome passphrase then
    .error "Passphrase cannot read the same forwards and backwards"
  else if !(evaluateStrength passphrase).isAcceptable then
    .error "Passphrase too weak. Use at least 12 characters with letters, numbers, and symbols."
  else .ok ()

/-- What the app makes of a passphrase: its hash, and the keys of the database files. -/
structure AppKeys (F : Type) extends PasswordHasher where
  dbKeys : String → DbKeys F

/-- `AppPassphrase::hash`: only the passphrase decides whether it succeeds. -/
def hashPassphrase {F : Type} (keys : AppKeys F) (passphrase : String) :
    Except String String := do
  validatePassphrase passphrase
  return keys.hash passphrase

/-! ## The state -/

/-- `WalletMeta`, a row of `wallet_registry`. -/
structure WalletMeta where
  id : String
  name : String
  createdAt : Int
  watchOnly : Bool
  birthdayHeight : Nat
  networkType : Option String
deriving DecidableEq, Repr

/-- The tables of the registry. -/
structure RegistryTables where
  walletRegistry : List WalletMeta
  walletSettings : List (String × String)
deriving DecidableEq, Repr

def RegistryTables.empty : RegistryTables := ⟨[], []⟩

inductive VaultMode where
  | real
  | decoy
deriving DecidableEq, Repr

/-- `DecoyVaultManager`: the mode and what of the configuration is read. -/
structure DecoyVault where
  mode : VaultMode
  enabled : Bool
  panicPinHash : Option String
  decoyWalletName : String
deriving DecidableEq, Repr

def DecoyVault.new : DecoyVault := ⟨.real, false, none, "Wallet"⟩

/-- The files of the registry, the plain file of the duress passphrase, and the memory of the
process. -/
structure AppState (F : Type) where
  registry : KeyFiles F RegistryTables
  duressSidecar : Option String
  passphrase : Option String
  registryLoaded : Bool
  wallets : List WalletMeta
  activeWallet : Option String
  decoyVault : DecoyVault

inductive AppWrite (F : Type) where
  | file (write : FileWrite F)
  | deleteSetting (key : String)
  | insertSetting (key value : String)
  | upsertWallet (row : WalletMeta)
  | deleteWallet (walletId : String)
  | removeRegistry
  | removeSalt
  | removeSealedKey
  | duressSidecar (hash : Option String)
  | passphrase (cached : Option String)
  | registryLoaded (loaded : Bool)
  | wallets (wallets : List WalletMeta)
  | activeWallet (walletId : Option String)
  | decoyVault (vault : DecoyVault)

def RegistryTables.deleteSetting (key : String) (tables : RegistryTables) : RegistryTables :=
  { tables with walletSettings := tables.walletSettings.filter (fun row => row.1 != key) }

/-- The `INSERT` that follows the `DELETE` of the key. -/
def RegistryTables.insertSetting (key value : String) (tables : RegistryTables) :
    RegistryTables :=
  { tables with walletSettings := (key, value) :: tables.walletSettings }

/-- The `INSERT … ON CONFLICT(id) DO UPDATE` of `persist_wallet_meta`: a row that is there keeps
its creation time. -/
def RegistryTables.upsertWallet (row : WalletMeta) (tables : RegistryTables) : RegistryTables :=
  if tables.walletRegistry.any (fun found => found.id == row.id) then
    { tables with
      walletRegistry := tables.walletRegistry.map (fun found =>
        if found.id == row.id then { row with createdAt := found.createdAt } else found) }
  else { tables with walletRegistry := tables.walletRegistry ++ [row] }

def RegistryTables.deleteWallet (walletId : String) (tables : RegistryTables) : RegistryTables :=
  { tables with walletRegistry := tables.walletRegistry.filter (fun row => row.id != walletId) }

section State

variable {F : Type}

/-- A change of the tables, if there is a database. -/
def AppState.changeTables (change : RegistryTables → RegistryTables) (state : AppState F) :
    AppState F :=
  { state with
    registry := { state.registry with
      database := state.registry.database.map (fun db => (db.1, change db.2)) } }

def AppState.apply (state : AppState F) : AppWrite F → AppState F
  | .file write => { state with registry := write.apply .empty state.registry }
  | .deleteSetting key => state.changeTables (.deleteSetting key)
  | .insertSetting key value => state.changeTables (.insertSetting key value)
  | .upsertWallet row => state.changeTables (.upsertWallet row)
  | .deleteWallet walletId => state.changeTables (.deleteWallet walletId)
  | .removeRegistry => { state with registry := { state.registry with database := none } }
  | .removeSalt => { state with registry := { state.registry with salt := none } }
  | .removeSealedKey => { state with registry := { state.registry with sealedKey := none } }
  | .duressSidecar hash => { state with duressSidecar := hash }
  | .passphrase cached => { state with passphrase := cached }
  | .registryLoaded loaded => { state with registryLoaded := loaded }
  | .wallets wallets => { state with wallets }
  | .activeWallet walletId => { state with activeWallet := walletId }
  | .decoyVault vault => { state with decoyVault := vault }

/-- The process ends and starts again: what was in memory is gone. -/
def AppState.restart (state : AppState F) : AppState F :=
  { state with
    passphrase := none
    registryLoaded := false
    wallets := []
    activeWallet := none
    decoyVault := .new }

/-- The tables of the registry, if there is one. -/
def AppState.tables (state : AppState F) : Option RegistryTables :=
  state.registry.database.map Prod.snd

def AppState.setting (key : String) (state : AppState F) : Option String :=
  state.tables.bind (fun tables => tables.walletSettings.lookup key)

end State

/-- A call on the app. -/
abbrev AppScript (F : Type) (α : Type) : Type := Script (@AppState.apply F) α

/-! ## Opening the registry and its settings -/

/-- What one opening of the registry meets. -/
structure RegistryOpening (F : Type) where
  call : OpenCall F
  schemaFails : Bool

/-- Which statement of `set_registry_setting` is refused. -/
structure SettingFault where
  delete : Bool
  insert : Bool
deriving DecidableEq

def SettingFault.none : SettingFault := ⟨false, false⟩

section Registry

variable {F : Type} [DecidableEq F] (keys : AppKeys F)

def openWalletRegistryWithPassphrase (opening : RegistryOpening F) (passphrase : String) :
    AppScript F Unit :=
  ⟨fun state =>
    let opened := state.registry.openEncryptedDb (keys.dbKeys passphrase) opening.call
    (opened.1.map AppWrite.file,
      match opened.2 with
      | .error message => .error message
      | .ok _ => if opening.schemaFails then .error "Failed to create the schema" else .ok ())⟩

def appPassphrase : AppScript F String :=
  ⟨fun state =>
    match state.passphrase with
    | none => ([], .error "App is locked")
    | some passphrase => ([], .ok passphrase)⟩

omit [DecidableEq F] in
theorem run_appPassphrase (state : AppState F) : (@appPassphrase F).run state =
    match state.passphrase with
    | none => ([], .error "App is locked")
    | some passphrase => ([], .ok passphrase) := rfl

def openWalletRegistry (opening : RegistryOpening F) : AppScript F Unit := do
  openWalletRegistryWithPassphrase keys opening (← appPassphrase)

omit [DecidableEq F] in
/-- `get_registry_setting`: a row that cannot be read counts as missing. -/
def getRegistrySetting (key : String) (fails : Bool) : AppScript F (Option String) :=
  Script.read (fun state => if fails then none else state.setting key)

def setRegistrySetting (key : String) (value : Option String) (fault : SettingFault) :
    AppScript F Unit :=
  match value with
  | some value => do
    Script.perform (.deleteSetting key) (if fault.delete then some "DELETE failed" else none)
    Script.perform (.insertSetting key value) (if fault.insert then some "INSERT failed" else none)
  | none =>
    Script.perform (.deleteSetting key) (if fault.delete then some "DELETE failed" else none)

/-- `load_wallet_registry_state`: the wallets by their creation time. -/
def loadWalletRegistryState (fails : Bool) : AppScript F Unit := do
  Script.ensure (fails = false) "Failed to load the wallet registry"
  let tables ← Script.read AppState.tables
  Script.perform (.wallets ((tables.getD .empty).walletRegistry.insertionSort
    (fun a b => a.createdAt ≤ b.createdAt))) none
  let active ← getRegistrySetting "active_wallet_id" false
  Script.perform (.activeWallet active) none
  Script.perform (.registryLoaded true) none

/-- What `ensure_wallet_registry_loaded` meets. -/
structure RegistryLoading (F : Type) where
  opening : RegistryOpening F
  loadFails : Bool

def ensureWalletRegistryLoaded (loading : RegistryLoading F) : AppScript F Unit := do
  let state ← Script.state
  if state.decoyVault.mode = .decoy then return
  else if state.registryLoaded then return
  else
    openWalletRegistry keys loading.opening
    loadWalletRegistryState loading.loadFails

end Registry

end StashiWallet
