import StashiWallet.SpendingProtection
import StashiWallet.BatchWriters
import StashiWallet.SeedDiscovery

/-!
# Keys of a protected wallet

The calls that read and write key rows, over the columns as they are stored: every column is
encrypted under the key of the database, and a spending column of a protected account holds an
envelope inside. A read while the signing session is locked shows a key without its spending
material, in the same form as a key that has none.

`SigningDb.stored` has the tables of the discovery; the rows of `account_keys` in it carry encrypted
columns here. A call inside an outer transaction (`joined`) leaves the rollback to its caller.
-/

namespace StashiWallet

structure SigningProtectionRecord where
  walletId : String
  accountId : Int
  kdfSalt : Bytes
  credentialCheck : Bytes
deriving DecidableEq, Repr

/-- `WalletSecret`, decrypted. -/
structure WalletSecret where
  walletId : String
  accountId : Int
  extsk : Bytes
  dfvk : Option Bytes
  orchardExtsk : Option Bytes
  saplingIvk : Option Bytes
  orchardIvk : Option Bytes
  encryptedMnemonic : Option Bytes
  mnemonicLanguage : Option String
  createdAt : Int
deriving DecidableEq, Repr

/-- The tables the calls read and write. -/
structure SigningDb where
  stored : SeedDb
  secrets : List (EncryptedWalletSecret Bytes)
  protection : List SigningProtectionRecord
  displayPreferences : List Int
  syncState : SyncStateRow
  queue : ScanQueue
  intents : List OutgoingTransactionIntent
  transactions : List TransactionRow

def SigningDb.keys (db : SigningDb) : AccountKeys := db.stored.imports.keys

/-- The tables with other rows of `account_keys`. -/
def SigningDb.withKeys (db : SigningDb) (keys : AccountKeys) : SigningDb :=
  { db with stored := { db.stored with imports := { db.stored.imports with keys := keys } } }

/-- What the key crates make of serialized keys: what Ironwood keys are compared by, and the
viewing keys of the spending keys of both pools. -/
structure KeyMaterial extends IronwoodMaterial where
  saplingFvk : Bytes → Except String Bytes
  ironwoodFvk : Bytes → Except String Bytes

/-- Some spending column holds a value. -/
def AccountKey.hasSpending (key : AccountKey) : Bool :=
  key.saplingExtsk.isSome || key.orchardExtsk.isSome || key.encryptedMnemonic.isSome

section Columns

variable {K : Type} (cipher : BlobCipher K) (masterKey : K) (sessions : Sessions K)

def decryptBlob (encrypted : Bytes) : Except KeyError Bytes :=
  match cipher.decrypt masterKey encrypted with
  | none => .error (.encryption "Failed to decrypt data")
  | some value => .ok value

def revealSpendingBlob (encrypted : Bytes) : Except KeyError (Option Bytes) := do
  let value ← decryptBlob cipher masterKey encrypted
  revealForActiveSession cipher sessions value

def revealOptionalSpendingBlob : Option Bytes → Except KeyError (Option Bytes)
  | none => .ok none
  | some encrypted => revealSpendingBlob cipher masterKey sessions encrypted

def decryptOptionalBlob : Option Bytes → Except KeyError (Option Bytes)
  | none => .ok none
  | some encrypted => (decryptBlob cipher masterKey encrypted).map some

/-- A row with its columns read, spending columns as far as the sessions show them. -/
def revealKey (row : AccountKeyRow) : Except KeyError AccountKeyRow := do
  let saplingExtsk ← revealOptionalSpendingBlob cipher masterKey sessions row.saplingExtsk
  let saplingDfvk ← decryptOptionalBlob cipher masterKey row.saplingDfvk
  let orchardExtsk ← revealOptionalSpendingBlob cipher masterKey sessions row.orchardExtsk
  let orchardFvk ← decryptOptionalBlob cipher masterKey row.orchardFvk
  let encryptedMnemonic ←
    revealOptionalSpendingBlob cipher masterKey sessions row.encryptedMnemonic
  return { row with
    saplingExtsk := saplingExtsk
    saplingDfvk := saplingDfvk
    orchardExtsk := orchardExtsk
    orchardFvk := orchardFvk
    encryptedMnemonic := encryptedMnemonic }

namespace SigningDb

variable (db : SigningDb)

def getAccountKeys (accountId : Int) : Except KeyError (List AccountKeyRow) :=
  (db.keys.ofAccount accountId).mapM (revealKey cipher masterKey sessions)

def getAccountKeyById (keyId : Nat) : Except KeyError (Option AccountKeyRow) :=
  (db.keys.rows.find? (fun row => row.id == keyId)).mapM (revealKey cipher masterKey sessions)

def getSigningProtection (walletId : String) : Option SigningProtectionRecord :=
  db.protection.find? (fun record => record.walletId == walletId)

def protectedWalletForAccount (accountId : Int) : Option String :=
  (db.protection.find? (fun record => record.accountId == accountId)).map (·.walletId)

def encryptSpendingBlobForWallet (walletId : String) (value : Bytes) : Except KeyError Bytes := do
  let value ← if (db.getSigningProtection walletId).isSome then
    protectForActiveSession cipher sessions walletId value else pure value
  return cipher.encrypt masterKey value

/-- `encrypt_optional_spending_blob_for_account`: nothing to write is written as it is, whether the
account is protected or not. -/
def encryptOptionalSpendingBlobForAccount (accountId : Int) :
    Option Bytes → Except KeyError (Option Bytes)
  | none => .ok none
  | some value =>
    match db.protectedWalletForAccount accountId with
    | some walletId =>
      (db.encryptSpendingBlobForWallet cipher masterKey sessions walletId value).map some
    | none => .ok (some (cipher.encrypt masterKey value))

def encryptAccountKeyFields (key : AccountKey) : Except KeyError AccountKey := do
  let saplingExtsk ← db.encryptOptionalSpendingBlobForAccount cipher masterKey sessions
    key.accountId key.saplingExtsk
  let orchardExtsk ← db.encryptOptionalSpendingBlobForAccount cipher masterKey sessions
    key.accountId key.orchardExtsk
  let encryptedMnemonic ← db.encryptOptionalSpendingBlobForAccount cipher masterKey sessions
    key.accountId key.encryptedMnemonic
  return { key with
    saplingExtsk := saplingExtsk
    saplingDfvk := key.saplingDfvk.map (cipher.encrypt masterKey)
    orchardExtsk := orchardExtsk
    orchardFvk := key.orchardFvk.map (cipher.encrypt masterKey)
    encryptedMnemonic := encryptedMnemonic }

def upsertAccountKey (id : Option Nat) (key : AccountKey) : Nat × SigningDb :=
  let (id, keys) := db.keys.upsert id key
  (id, db.withKeys keys)

/-- `upsert_account_key` for rows, one after the other. -/
def writeUpdates (updates : List (Nat × AccountKey)) : SigningDb :=
  updates.foldl (fun db update => (db.upsertAccountKey (some update.1) update.2).2) db

/-- A key is read, encrypted and written back as it was read. -/
def upsertReadBack (keyId : Nat) : Except KeyError SigningDb := do
  match ← db.getAccountKeyById cipher masterKey sessions keyId with
  | none => .error (.notFound s!"key {keyId}")
  | some key =>
    let encrypted ← db.encryptAccountKeyFields cipher masterKey sessions key.toAccountKey
    return (db.upsertAccountKey (some key.id) encrypted).2

end SigningDb

end Columns

/-! ## Enabling the protection -/

section Enabling

variable {K : Type} (cipher : BlobCipher K) (masterKey : K) (sessions : Sessions K)

def decryptInt64 (encrypted : Bytes) : Except KeyError Int := do
  let decrypted ← decryptBlob cipher masterKey encrypted
  if decrypted.length ≠ 8 then .error (.encryption "Invalid encrypted integer length")
  else return i64FromLeBytes decrypted

/-- The closure `protect`: an empty value stays empty. -/
def protectValue (walletId : String) (signingKey : K) (value : Bytes) : Except KeyError Bytes :=
  if value.isEmpty then .ok []
  else protectWithKey cipher walletId signingKey value

/-- The closure `protect_optional`, and the encryption of the column. -/
def protectColumn (walletId : String) (signingKey : K) :
    Option Bytes → Except KeyError (Option Bytes)
  | none => .ok none
  | some value => (protectValue cipher walletId signingKey value).map
      fun envelope => some (cipher.encrypt masterKey envelope)

/-- A key with its spending columns wrapped. -/
def protectKey (walletId : String) (signingKey : K) (key : AccountKey) :
    Except KeyError AccountKey := do
  let saplingExtsk ← protectColumn cipher masterKey walletId signingKey key.saplingExtsk
  let orchardExtsk ← protectColumn cipher masterKey walletId signingKey key.orchardExtsk
  let encryptedMnemonic ← protectColumn cipher masterKey walletId signingKey key.encryptedMnemonic
  return { key with
    saplingExtsk := saplingExtsk
    saplingDfvk := key.saplingDfvk.map (cipher.encrypt masterKey)
    orchardExtsk := orchardExtsk
    orchardFvk := key.orchardFvk.map (cipher.encrypt masterKey)
    encryptedMnemonic := encryptedMnemonic }

namespace SigningDb

variable (db : SigningDb)

def getWalletSecret (walletId : String) : Except KeyError (Option WalletSecret) :=
  (db.secrets.find? (fun row => row.walletId == walletId)).mapM fun row => do
    let accountId ← decryptInt64 cipher masterKey row.accountId
    let extsk ← revealSpendingBlob cipher masterKey sessions row.extsk
    let dfvk ← decryptOptionalBlob cipher masterKey row.dfvk
    let orchardExtsk ← revealOptionalSpendingBlob cipher masterKey sessions row.orchardExtsk
    let saplingIvk ← decryptOptionalBlob cipher masterKey row.saplingIvk
    let orchardIvk ← decryptOptionalBlob cipher masterKey row.orchardIvk
    let encryptedMnemonic ←
      revealOptionalSpendingBlob cipher masterKey sessions row.encryptedMnemonic
    let createdAt ← decryptInt64 cipher masterKey row.createdAt
    return {
      walletId := row.walletId
      accountId := accountId
      extsk := extsk.getD []
      dfvk := dfvk
      orchardExtsk := orchardExtsk
      saplingIvk := saplingIvk
      orchardIvk := orchardIvk
      encryptedMnemonic := encryptedMnemonic
      mnemonicLanguage := row.mnemonicLanguage
      createdAt := createdAt }

/-- The secret with its spending columns wrapped. -/
def protectSecret (walletId : String) (signingKey : K) (secret : WalletSecret) :
    Except KeyError (EncryptedWalletSecret Bytes) := do
  let extsk ← protectValue cipher walletId signingKey secret.extsk
  let orchardExtsk ← protectColumn cipher masterKey walletId signingKey secret.orchardExtsk
  let encryptedMnemonic ←
    protectColumn cipher masterKey walletId signingKey secret.encryptedMnemonic
  return {
    walletId := secret.walletId
    accountId := cipher.encrypt masterKey (i64ToLeBytes secret.accountId)
    extsk := cipher.encrypt masterKey extsk
    dfvk := secret.dfvk.map (cipher.encrypt masterKey)
    orchardExtsk := orchardExtsk
    saplingIvk := secret.saplingIvk.map (cipher.encrypt masterKey)
    orchardIvk := secret.orchardIvk.map (cipher.encrypt masterKey)
    encryptedMnemonic := encryptedMnemonic
    mnemonicLanguage := secret.mnemonicLanguage
    createdAt := cipher.encrypt masterKey (i64ToLeBytes secret.createdAt) }

/-- `enable_signing_protection`. The record is refused if the account has one already. -/
def enableSigningProtection (record : SigningProtectionRecord) (signingKey : K) :
    Except KeyError SigningDb := do
  if (db.getSigningProtection record.walletId).isSome then
    .error (.validation "wallet signing protection is already enabled")
  else
    match ← db.getWalletSecret cipher masterKey sessions record.walletId with
    | none => .error (.notFound s!"wallet secret {record.walletId}")
    | some secret =>
      if secret.accountId ≠ record.accountId then
        .error (.validation "wallet signing account does not match wallet secret")
      else
        let accountKeys ← db.getAccountKeys cipher masterKey sessions record.accountId
        if !(!secret.extsk.isEmpty || secret.orchardExtsk.isSome ||
            secret.encryptedMnemonic.isSome || accountKeys.any (·.toAccountKey.hasSpending)) then
          .error (.validation "watch-only wallets have no spending material to protect")
        else
          let encryptedSecret ← protectSecret cipher masterKey record.walletId signingKey secret
          let encryptedKeys ← accountKeys.mapM fun key => do
            let encrypted ← protectKey cipher masterKey record.walletId signingKey key.toAccountKey
            return (key.id, encrypted)
          let written := db.writeUpdates encryptedKeys
          if (db.protectedWalletForAccount record.accountId).isSome then
            .error (.storage (.database "UNIQUE constraint failed"))
          else
            return { written with
              secrets := db.secrets.map fun row =>
                if row.walletId == record.walletId then encryptedSecret else row
              protection := db.protection ++ [record] }

end SigningDb

end Enabling

/-! ## Imports -/

section Imports

variable {K : Type} (cipher : BlobCipher K) (masterKey : K) (sessions : Sessions K)
  (material : KeyMaterial)

namespace SigningDb

variable (db : SigningDb)

/-- The replay requirement of an import. -/
def requireReplay (now reasonCode : String) (birthday : Int) : Except KeyError SigningDb :=
  match db.stored.imports.requireReplay now reasonCode birthday with
  | .error error => .error (.storage error)
  | .ok imports => .ok { db with stored := { db.stored with imports := imports } }

def importSpendingKeyWithRescan (key : AccountKey) (now reasonCode : String) :
    Except KeyError (Nat × SigningDb) := do
  if !key.validImport then .error (.validation "Invalid spending-key import metadata")
  else
    let keys ← db.getAccountKeys cipher masterKey sessions key.accountId
    let existing := keys.find? (key.matchesGroup material.toIronwoodMaterial)
    let imported := match existing with
      | some existing => key.mergeGroup material.toIronwoodMaterial existing
      | none => key
    let encrypted ← db.encryptAccountKeyFields cipher masterKey sessions imported
    let (id, written) := db.upsertAccountKey (existing.map (·.id)) encrypted
    let recorded ← written.requireReplay now reasonCode imported.birthdayHeight
    return (id, recorded)

/-- A verified import changes the row of a stored key. -/
def changesVerified (key : AccountKey) (existing : AccountKeyRow) : Bool :=
  key.scanChanged material.toIronwoodMaterial existing ||
    (existing.label.isNone && key.label.isSome)

/-- The first half of the closure of `import_verified_spending_key`. -/
def storeVerifiedKey (key : AccountKey) : Except KeyError (VerifiedKey × SigningDb) := do
  let keys ← db.getAccountKeys cipher masterKey sessions key.accountId
  match keys.find? (key.matchesVerified material.toIronwoodMaterial) with
  | some existing =>
    let verified : VerifiedKey := ⟨existing.id, true, key.effectiveBirthday existing,
      key.scanChanged material.toIronwoodMaterial existing⟩
    if changesVerified material key existing then
      let encrypted ← db.encryptAccountKeyFields cipher masterKey sessions
        (key.mergeVerified material.toIronwoodMaterial existing)
      return (verified, (db.upsertAccountKey (some existing.id) encrypted).2)
    else return (verified, db)
  | none =>
    let encrypted ← db.encryptAccountKeyFields cipher masterKey sessions key
    let (id, written) := db.upsertAccountKey none encrypted
    return (⟨id, false, key.birthdayHeight, true⟩, written)

/-- The second half, with the tables as they are where it ends. -/
def fileVerified (verified : VerifiedKey) (key : AccountKey) (address : Address) (index : Index88)
    (now reasonCode : String) : Except KeyError (VerifiedKey × Bool) × SigningDb :=
  match db.stored.imports.storeVerifiedAddress verified.keyId key address index with
  | .error error => (.error (.storage error), db)
  | .ok imports =>
    let filed := { db with stored := { db.stored with imports := imports } }
    match (if verified.keyScanChanged then
        filed.requireReplay now reasonCode verified.effectiveBirthday else .ok filed) with
    | .error error => (.error error, filed)
    | .ok recorded =>
      match recorded.stored.imports.spendabilityState with
      | none => (.error (.storage (.database "Query returned no rows")), recorded)
      | some row => (.ok (verified, row.rescanRequired), recorded)

def importVerifiedSpendingKey (key : AccountKey) (address : Address) (now reasonCode : String)
    (joined : Bool) : Except KeyError (VerifiedKey × Bool) × SigningDb :=
  match verifyArguments key address, address.diversifierIndex88 with
  | .error error, _ => (.error (.storage error), db)
  | .ok _, none =>
    (.error (.validation "Verified spending-key address has no ZIP-32 index"), db)
  | .ok _, some index =>
    match db.storeVerifiedKey cipher masterKey sessions material key with
    | .error error => (.error error, db)
    | .ok (verified, written) =>
      match written.fileVerified verified key address index now reasonCode with
      | (.error error, after) => (.error error, if joined then after else db)
      | (.ok result, after) => (.ok result, after)

/-- `insert_seed_derived_accounts`: the keys come with their columns encrypted. -/
def insertSeedDerivedAccounts (accountId : Int) (expectedPreviousIndex : Option Nat)
    (accounts : List SeedAccount) (joined : Bool) : Except KeyError (List Nat) × SigningDb :=
  match db.stored.insertSeedDerivedAccounts accountId expectedPreviousIndex accounts joined
    false with
  | (.error error, after) => (.error (.storage error), { db with stored := after })
  | (.ok keyIds, after) => (.ok keyIds, { db with stored := after })

end SigningDb

end Imports

/-! ## The primary seed key -/

section Reconcile

variable {K : Type} (cipher : BlobCipher K) (masterKey : K) (sessions : Sessions K)
  (material : KeyMaterial)

/-- The viewing key of a Sapling spending key. -/
def KeyMaterial.deriveSaplingFvk (extsk : Bytes) : Except KeyError Bytes :=
  (material.saplingFvk extsk).mapError fun error =>
    .validation s!"Invalid Sapling spending key: {error}"

/-- The viewing key of an Ironwood spending key. -/
def KeyMaterial.deriveIronwoodFvk (extsk : Bytes) : Except KeyError Bytes :=
  (material.ironwoodFvk extsk).mapError fun error =>
    .validation s!"Invalid Ironwood spending key: {error}"

/-- The Sapling half of `refresh_account_key_viewing_material`. -/
def refreshSapling (key : AccountKey) : Except KeyError (Bool × AccountKey) :=
  match key.saplingExtsk with
  | none => .ok (false, key)
  | some extsk => do
    let dfvk ← material.deriveSaplingFvk extsk
    return (key.saplingDfvk != some dfvk, { key with saplingDfvk := some dfvk })

/-- The Ironwood half: the viewing key is derived again, and replaced where it does not match. -/
def refreshIronwood (key : AccountKey) : Except KeyError (Bool × AccountKey) :=
  match key.orchardExtsk with
  | none => .ok (false, key)
  | some extsk => do
    let fvk ← material.deriveIronwoodFvk extsk
    if material.viewingMatches key.orchardFvk (some fvk) then return (false, key)
    else return (true, { key with orchardFvk := some fvk })

def refreshAccountKeyViewingMaterial (key : AccountKey) : Except KeyError (Bool × AccountKey) := do
  let (saplingChanged, key) ← refreshSapling material key
  let (ironwoodChanged, key) ← refreshIronwood material key
  return (saplingChanged || ironwoodChanged, key)

/-- The row that holds the keys of the secret. -/
def WalletSecret.isCanonical (secret : WalletSecret) (key : AccountKeyRow) : Bool :=
  key.keyScope == .account && key.saplingExtsk == some secret.extsk &&
    material.spendingMatches key.orchardExtsk secret.orchardExtsk

/-- What is to be written: rows read and changed, and a row for the seed if there is none. -/
structure SeedPlan where
  primaryKeyId : Nat
  updates : List (Nat × AccountKey)
  newSeed : Option AccountKey
  scanKeysChanged : Bool

/-- The row of the seed, found or to be inserted. -/
def planSeed (secret : WalletSecret) (birthdayHeight : Int) (dfvk : Bytes) (fvk : Option Bytes) :
    Option AccountKeyRow → SeedPlan
  | some canonical =>
    let ironwoodViewingChanged := !material.viewingMatches canonical.orchardFvk fvk
    let viewingMaterialChanged := canonical.saplingDfvk != some dfvk || ironwoodViewingChanged
    let reconciledBirthday := min canonical.birthdayHeight birthdayHeight
    let metadataChanged := canonical.keyType != .seed ||
      canonical.birthdayHeight != reconciledBirthday || !canonical.spendable ||
      canonical.encryptedMnemonic != secret.encryptedMnemonic
    let changed : AccountKey :=
      { canonical.toAccountKey with
        keyType := .seed
        keyScope := .account
        label := some "Seed"
        birthdayHeight := reconciledBirthday
        spendable := true
        saplingDfvk := some dfvk
        orchardFvk := if ironwoodViewingChanged then fvk else canonical.orchardFvk
        encryptedMnemonic := secret.encryptedMnemonic }
    { primaryKeyId := canonical.id
      updates := if viewingMaterialChanged || metadataChanged then [(canonical.id, changed)] else []
      newSeed := none
      scanKeysChanged := viewingMaterialChanged }
  | none =>
    { primaryKeyId := 0
      updates := []
      newSeed := some
        { accountId := secret.accountId
          keyType := .seed
          keyScope := .account
          label := some "Seed"
          birthdayHeight := birthdayHeight
          createdAt := secret.createdAt
          spendable := true
          saplingExtsk := some secret.extsk
          saplingDfvk := some dfvk
          orchardExtsk := secret.orchardExtsk
          orchardFvk := fvk
          encryptedMnemonic := secret.encryptedMnemonic }
      scanKeysChanged := true }

/-- An older seed row is kept as an imported key. -/
def demoteSeed (key : AccountKeyRow) : Except KeyError (Bool × Nat × AccountKey) := do
  let keyType : KeyType :=
    if key.saplingExtsk.isSome || key.orchardExtsk.isSome then .importSpend else .importView
  let (changed, previous) ← refreshAccountKeyViewingMaterial material
    { key.toAccountKey with
      keyType := keyType
      spendable := keyType == .importSpend
      label := if key.label.all (· == "Seed") then some "Previous wallet key" else key.label
      encryptedMnemonic := none }
  return (changed, key.id, previous)

/-- The seed rows beside the canonical one. -/
def otherSeeds (canonical : Option AccountKeyRow) (keys : List AccountKeyRow) :
    List AccountKeyRow :=
  keys.filter fun key => canonical.all (fun canonical => canonical.id != key.id) &&
    key.keyType == .seed && key.keyScope == .account

/-- The plan of `reconcile_primary_seed_account_key`, from the rows as they are read. -/
def planReconcile (secret : WalletSecret) (birthdayHeight : Int) (keys : List AccountKeyRow) :
    Except KeyError SeedPlan := do
  if secret.extsk.isEmpty then
    .error (.validation "A spending wallet must contain a Sapling spending key")
  else
    let dfvk ← material.deriveSaplingFvk secret.extsk
    let fvk ← secret.orchardExtsk.mapM material.deriveIronwoodFvk
    let canonical := keys.find? (secret.isCanonical material)
    let seed := planSeed material secret birthdayHeight dfvk fvk canonical
    let previous ← (otherSeeds canonical keys).mapM (demoteSeed material)
    return { seed with
      updates := seed.updates ++ previous.map (·.2)
      scanKeysChanged := seed.scanKeysChanged || previous.any (·.1) }

namespace SigningDb

variable (db : SigningDb)

/-- The rows of a plan, encrypted. -/
def encryptUpdates (updates : List (Nat × AccountKey)) : Except KeyError (List (Nat × AccountKey)) :=
  updates.mapM fun update => do
    let encrypted ← db.encryptAccountKeyFields cipher masterKey sessions update.2
    return (update.1, encrypted)

/-- `reconcile_primary_seed_account_key`: the id of the seed row, and whether a replay is required.
Everything that can fail comes before the first write. -/
def reconcilePrimarySeedAccountKey (secret : WalletSecret) (birthdayHeight : Int) :
    Except KeyError ((Nat × Bool) × SigningDb) := do
  let keys ← db.getAccountKeys cipher masterKey sessions secret.accountId
  let plan ← planReconcile material secret birthdayHeight keys
  let replayWasPending := db.stored.seedKeyScanReplay
  if plan.updates.isEmpty && plan.newSeed.isNone then
    return ((plan.primaryKeyId, replayWasPending), db)
  else
    let updates ← db.encryptUpdates cipher masterKey sessions plan.updates
    let newSeed ← plan.newSeed.mapM (db.encryptAccountKeyFields cipher masterKey sessions)
    let written := db.writeUpdates updates
    let (keyId, written) := match newSeed with
      | some key => written.upsertAccountKey none key
      | none => (plan.primaryKeyId, written)
    let marked := { written with stored := { written.stored with
      seedKeyScanReplay := written.stored.seedKeyScanReplay || plan.scanKeysChanged } }
    return ((keyId, replayWasPending || plan.scanKeysChanged), marked)

end SigningDb

end Reconcile

/-! ## Forgetting an imported key -/

section Removal

variable {K : Type} (cipher : BlobCipher K) (masterKey : K) (sessions : Sessions K)
  (material : KeyMaterial)

/-- A separately imported spending key of the account; a locked key does not show that it is
one. -/
def AccountKeyRow.removable (key : AccountKeyRow) (accountId : Int) : Bool :=
  key.accountId == accountId && key.keyType == .importSpend && key.keyScope == .account &&
    (key.saplingExtsk.isSome || key.orchardExtsk.isSome)

/-- Another key group has a spending key of this one. -/
def AccountKeyRow.sharesSpending (key other : AccountKeyRow) : Bool :=
  other.id != key.id &&
    (key.saplingExtsk.any (fun spending => other.saplingExtsk == some spending) ||
      key.orchardExtsk.any (fun spending =>
        material.spendingMatches (some spending) other.orchardExtsk))

namespace SigningDb

variable (db : SigningDb)

/-- Sync and every required rescan have finished. -/
def settledForRemoval (spendability : SpendabilityStateRow) : Bool :=
  !(db.syncState.localHeight == 0 || db.syncState.targetHeight == 0 ||
    decide (db.syncState.localHeight < db.syncState.targetHeight) ||
    decide (db.syncState.localHeight < spendability.targetHeight) ||
    spendability.anchorHeight == 0 ||
    decide (spendability.validatedAnchorHeight < spendability.anchorHeight) ||
    spendability.rescanRequired || spendability.requiredRescanFromHeight != 0 ||
    spendability.repairQueued || spendability.syncInterrupted ||
    db.queue.nextFoundNoteRange.isSome)

/-- The transaction ids, in both byte orders, of the unconfirmed intents, all of which have to be
expired. -/
def expiredUnconfirmedTxids (accountId : Int) : Except KeyError (List String) :=
  let unconfirmed := db.intents.filter fun intent => intent.accountId == accountId &&
    !outgoingTransactionIsConfirmed intent.txid db.transactions
  if unconfirmed.any (fun intent =>
      intent.expiryHeight == 0 || decide (db.syncState.localHeight ≤ intent.expiryHeight)) then
    .error (.validation
      "Wait for pending transactions to confirm or expire before removing a key")
  else .ok (unconfirmed.flatMap fun intent => intent.txid :: (reverseTxidHex intent.txid).toList)

/-- The owner of an address of the account, if the address is known. -/
def addressOwner (accountId : Int) (addressId : Int) : Option (Option Int) :=
  (db.stored.imports.addresses.rows.find? (fun row =>
    row.accountId == accountId && (row.id : Int) == addressId)).map (·.keyId)

/-- The note belongs to another key of the account. -/
def knownOtherOwner (accountId : Int) (keyId : Nat) (activeKeyIds : List Nat) (note : NoteRow) :
    Bool :=
  let other (id : Int) : Bool :=
    id != (keyId : Int) && activeKeyIds.any (fun active => (active : Int) == id)
  note.keyId.any other ||
    note.addressId.any (fun address => (db.addressOwner accountId address).any (·.any other))

/-- The loop of `remove_imported_spending_key` over the notes: the notes to delete. -/
def notesOfKey (accountId : Int) (keyId : Nat) (activeKeyIds : List Nat) (expired : List String) :
    List NoteRow → Except KeyError (List Nat)
  | [] => .ok []
  | note :: rest =>
    let keyMatches := note.keyId == some (keyId : Int)
    let addressMatches := note.addressId.any fun address =>
      db.addressOwner accountId address == some (some (keyId : Int))
    if !note.spent && (keyMatches || addressMatches ||
        !db.knownOtherOwner accountId keyId activeKeyIds note) then
      .error (.validation
        "This key may still control funds; move them and finish syncing before removal")
    else if !(keyMatches || addressMatches) then notesOfKey accountId keyId activeKeyIds expired rest
    else if note.spent && note.spentTxid.isNone then
      .error (.validation
        "A spent note is missing its spending transaction; rescan before removing this key")
    else if note.spentTxid.any (fun txid => expired.contains (hexEncode txid)) then
      .error (.validation
        "Wait for an expired transaction to release its input notes before removing a key")
    else if (addressMatches && note.keyId.any (fun id => id != (keyId : Int))) ||
        (keyMatches && note.addressId.any (fun address =>
          (db.addressOwner accountId address).any (·.any (fun owner => owner != (keyId : Int))))) then
      .error (.validation "A note has conflicting key and address ownership")
    else (notesOfKey accountId keyId activeKeyIds expired rest).map (note.id :: ·)

/-- The deletions of `remove_imported_spending_key`. -/
def deleteKey (accountId : Int) (keyId : Nat) (noteIds : List Nat) : Except KeyError SigningDb := do
  let target := fun (row : AddressRow) => row.keyId == some (keyId : Int)
  let targets := (db.stored.imports.addresses.rows.filter (fun row =>
    row.accountId == accountId && target row)).map (fun row => (row.id : Int))
  let addresses ← (AddressTable.write (db.stored.imports.addresses.rows.filter (fun row =>
    !(row.accountId == accountId && target row)))).mapError .storage
  let doomed := fun (row : AccountKeyRow) =>
    row.id == keyId && row.accountId == accountId && row.keyType == .importSpend
  if (db.keys.rows.filter doomed).length ≠ 1 then
    .error (.storage (.storage "Imported key changed during removal"))
  else
    return { db with
      stored := { db.stored with
        imports := { db.stored.imports with
          keys := db.keys.deleteWhere doomed, addresses := addresses }
        notes := db.stored.notes.deleteWhere fun note => noteIds.contains note.id }
      displayPreferences := db.displayPreferences.filter fun id => !targets.contains id }

def removeImportedSpendingKey (accountId : Int) (keyId : Nat) : Except KeyError SigningDb := do
  let refused : KeyError :=
    .validation "Only a separately imported spending key can be removed"
  match ← db.getAccountKeyById cipher masterKey sessions keyId with
  | none => .error (.notFound s!"Imported key {keyId}")
  | some key =>
    if !key.removable accountId then .error refused
    else
      let seedKeys ← (db.stored.seedKeys.ofAccount accountId).mapError .storage
      if seedKeys.any (fun metadata => metadata.keyId == keyId) then .error refused
      else
        let accountKeys ← db.getAccountKeys cipher masterKey sessions accountId
        if accountKeys.any (key.sharesSpending material) then
          .error (.validation "Another key group contains the same spending key")
        else
          -- where there is no row, the default has no anchor
          if !db.stored.imports.spendabilityState.any db.settledForRemoval then
            .error (.validation
              "Finish syncing and any required rescan before removing an imported key")
          else
            let expired ← db.expiredUnconfirmedTxids accountId
            let noteIds ← db.notesOfKey accountId keyId (accountKeys.map (·.id)) expired
              (db.stored.notes.rows.filter (fun note => note.accountId == accountId))
            db.deleteKey accountId keyId noteIds

end SigningDb

end Removal

end StashiWallet
