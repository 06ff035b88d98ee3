import StashiWallet.EncryptedTables
import StashiWallet.Sql

/-!
# Changing the app passphrase

`change_app_passphrase` takes the wallets one after the other: the file gets a new key, and a
pass over a list of tables moves their ciphertexts to the new master key in one transaction.
Then the registry follows.

What can fail is input: `fails` names the steps that return an error. Where the source undoes
what it has done, so does the model; where it leaves by `?` or `return`, the wallets stay as
they are at that point. An error that is passed on by `?` names its step here, whatever its own
text. Opening a database runs its migrations first, so the tables here are those of an open
database.
-/

namespace StashiWallet

/-- The fallible steps of `change_app_passphrase`, beside a ciphertext that does not decrypt. -/
inductive ChangeStep where
  | validateNew
  | verifyCurrent
  | loadRegistry
  | openRegistry
  | registryKeys
  | openWallet (walletId : String)
  | walletKeys (walletId : String)
  | rekeyWallet (walletId : String)
  | beginWallet (walletId : String)
  | updateRow (walletId : String) (row : Nat)
  | commitWallet (walletId : String)
  | walletKeyPath (walletId : String)
  | rollbackOpen (walletId : String)
  | rollbackRekey (walletId : String)
  | rollbackBegin (walletId : String)
  | rollbackRow (walletId : String) (row : Nat)
  | rollbackCommit (walletId : String)
  | rollbackKeyPath (walletId : String)
  | rekeyRegistry
  | hashNew
  | deleteHash
  | insertHash
  | restoreRegistry
  | registryKeyPath
  | reloadRegistry
deriving DecidableEq, Repr

section Change

variable {K F C : Type} [DecidableEq F]

/-- The database file of a wallet: the key of the file, and its tables. -/
structure WalletFile (F C : Type) where
  walletId : String
  dbKey : F
  tables : EncryptedTables C
deriving DecidableEq

/-- The registry and the wallets it lists. The sealed key of the registry is what the platform's
keystore gives back without a passphrase, if anything was stored there; `keystore` says whether
the platform has one that stores. -/
structure AppStorage (F C : Type) where
  registryKey : F
  registrySealedKey : Option F
  keystore : Bool
  passphraseHash : Option String
  wallets : List (WalletFile F C)

/-- The keys a passphrase gives, with the salts of the files, and its hash. -/
structure KeyDerivation (K F : Type) extends PasswordHasher where
  masterKey : String → String → K
  dbKey : String → String → F
  registryKey : String → F

/-! ## The pass over the tables -/

section Pass

variable (aead : Aead K C Bytes) (oldKey newKey : K)

def reencryptBlob (blob : C) : Except String C :=
  match aead.reencrypt oldKey newKey blob with
  | some moved => .ok moved
  | none => .error "Failed to decrypt existing data"

def reencryptOptionalBlob : Option C → Except String (Option C)
  | some blob => do return some (← reencryptBlob aead oldKey newKey blob)
  | none => .ok none

/-- The `UPDATE` of a row of `notes`. -/
def EncryptedNote.reencrypt (row : EncryptedNote C) : Except String (EncryptedNote C) := do
  let accountId ← reencryptBlob aead oldKey newKey row.accountId
  let value ← reencryptBlob aead oldKey newKey row.value
  let nullifier ← reencryptBlob aead oldKey newKey row.nullifier
  let commitment ← reencryptBlob aead oldKey newKey row.commitment
  let spent ← reencryptBlob aead oldKey newKey row.spent
  let height ← reencryptBlob aead oldKey newKey row.height
  let txid ← reencryptBlob aead oldKey newKey row.txid
  let outputIndex ← reencryptBlob aead oldKey newKey row.outputIndex
  let spentTxid ← reencryptOptionalBlob aead oldKey newKey row.spentTxid
  let diversifier ← reencryptOptionalBlob aead oldKey newKey row.diversifier
  let note ← reencryptOptionalBlob aead oldKey newKey row.note
  let position ← reencryptOptionalBlob aead oldKey newKey row.position
  let memo ← reencryptOptionalBlob aead oldKey newKey row.memo
  let addressId ← reencryptOptionalBlob aead oldKey newKey row.addressId
  let keyId ← reencryptOptionalBlob aead oldKey newKey row.keyId
  return { row with
    accountId, value, nullifier, commitment, spent, height, txid, outputIndex, spentTxid,
    diversifier, note, position, memo, addressId, keyId }

/-- The `UPDATE` of a row of `wallet_secrets`. -/
def EncryptedWalletSecret.reencrypt (row : EncryptedWalletSecret C) :
    Except String (EncryptedWalletSecret C) := do
  let accountId ← reencryptBlob aead oldKey newKey row.accountId
  let extsk ← reencryptBlob aead oldKey newKey row.extsk
  let dfvk ← reencryptOptionalBlob aead oldKey newKey row.dfvk
  let orchardExtsk ← reencryptOptionalBlob aead oldKey newKey row.orchardExtsk
  let saplingIvk ← reencryptOptionalBlob aead oldKey newKey row.saplingIvk
  let orchardIvk ← reencryptOptionalBlob aead oldKey newKey row.orchardIvk
  let encryptedMnemonic ← reencryptOptionalBlob aead oldKey newKey row.encryptedMnemonic
  let createdAt ← reencryptBlob aead oldKey newKey row.createdAt
  return { row with
    accountId, extsk, dfvk, orchardExtsk, saplingIvk, orchardIvk, encryptedMnemonic, createdAt }

/-- The `UPDATE` of a row of `memos`. -/
def EncryptedMemo.reencrypt (row : EncryptedMemo C) : Except String (EncryptedMemo C) := do
  let memo ← reencryptBlob aead oldKey newKey row.memo
  return { row with memo }

/-- The `UPDATE` of a row of `account_keys`. -/
def EncryptedAccountKey.reencrypt (row : EncryptedAccountKey C) :
    Except String (EncryptedAccountKey C) := do
  let saplingExtsk ← reencryptOptionalBlob aead oldKey newKey row.saplingExtsk
  let saplingDfvk ← reencryptOptionalBlob aead oldKey newKey row.saplingDfvk
  let orchardExtsk ← reencryptOptionalBlob aead oldKey newKey row.orchardExtsk
  let orchardFvk ← reencryptOptionalBlob aead oldKey newKey row.orchardFvk
  let encryptedMnemonic ← reencryptOptionalBlob aead oldKey newKey row.encryptedMnemonic
  return { row with saplingExtsk, saplingDfvk, orchardExtsk, orchardFvk, encryptedMnemonic }

/-- The `UPDATE` of a row of `payment_disclosures`. -/
def EncryptedDisclosure.reencrypt (row : EncryptedDisclosure C) :
    Except String (EncryptedDisclosure C) := do
  let payload ← reencryptBlob aead oldKey newKey row.payload
  return { row with payload }

/-- The `UPDATE` of a row of `frontier_snapshots`. -/
def EncryptedFrontier.reencrypt (row : EncryptedFrontier C) :
    Except String (EncryptedFrontier C) := do
  let frontier ← reencryptBlob aead oldKey newKey row.frontier
  return { row with frontier }

/-- `reencrypt_wallet_tables`: the tables on its list. The outgoing intents and the unlinked
spends are not on it. -/
def reencryptWalletTables (tables : EncryptedTables C) : Except String (EncryptedTables C) := do
  let notes ← tables.notes.mapM (EncryptedNote.reencrypt aead oldKey newKey)
  let walletSecrets ← tables.walletSecrets.mapM (EncryptedWalletSecret.reencrypt aead oldKey newKey)
  let memos ← tables.memos.mapM (EncryptedMemo.reencrypt aead oldKey newKey)
  let accountKeys ← tables.accountKeys.mapM (EncryptedAccountKey.reencrypt aead oldKey newKey)
  let paymentDisclosures ←
    tables.paymentDisclosures.mapM (EncryptedDisclosure.reencrypt aead oldKey newKey)
  let frontierSnapshots ←
    tables.frontierSnapshots.mapM (EncryptedFrontier.reencrypt aead oldKey newKey)
  return { tables with
    notes, walletSecrets, memos, accountKeys, paymentDisclosures, frontierSnapshots }

end Pass

/-- The number of rows the pass updates. -/
def EncryptedTables.updatedRows (tables : EncryptedTables C) : Nat :=
  tables.notes.length + tables.walletSecrets.length + tables.memos.length +
    tables.accountKeys.length + tables.paymentDisclosures.length + tables.frontierSnapshots.length

/-! ## The registry -/

section Registry

variable (keys : KeyDerivation K F) (passphrase : String)

/-- `open_wallet_registry_with_passphrase` finds a key that fits: the sealed one or the one of the
passphrase. -/
def AppStorage.registryOpens (storage : AppStorage F C) : Bool :=
  storage.registrySealedKey == some storage.registryKey ||
    storage.registryKey == keys.registryKey passphrase

/-- `maybe_store_sealed_db_key`, which every opening of the registry ends with. -/
def AppStorage.sealRegistryKey (storage : AppStorage F C) : AppStorage F C :=
  if storage.keystore then
    { storage with registrySealedKey := storage.registrySealedKey.or (some storage.registryKey) }
  else storage

/-- `verify_app_passphrase`: without a stored hash, opening the registry is enough. -/
def AppStorage.verifyAppPassphrase (storage : AppStorage F C) : Bool :=
  storage.registryOpens keys passphrase &&
    match storage.passphraseHash with
    | some hashed => keys.verify hashed passphrase
    | none => true

end Registry

/-! ## The call -/

variable (aead : Aead K C Bytes) (keys : KeyDerivation K F) (fails : ChangeStep → Bool)
  (currentPassphrase newPassphrase : String)

/-- How the loop body ends: the wallet is changed, or the call fails and leaves the file in
some state, after the earlier wallets were rolled back or without that. -/
inductive WalletChange (F C : Type) where
  | changed (file : WalletFile F C)
  | failed (message : String) (rollback : Bool) (file : WalletFile F C)

/-- The loop body of `change_app_passphrase`. -/
def WalletFile.change (file : WalletFile F C) : WalletChange F C :=
  let walletId := file.walletId
  let newDbKey := keys.dbKey walletId newPassphrase
  let rekeyed := { file with dbKey := newDbKey }
  if fails (.openWallet walletId) ∨ file.dbKey ≠ keys.dbKey walletId currentPassphrase then
    .failed "Failed to open wallet database" false file
  else if fails (.walletKeys walletId) then .failed "Failed to derive keys" false file
  else if fails (.rekeyWallet walletId) then
    .failed s!"Failed to rekey wallet database {walletId}" true file
  else if fails (.beginWallet walletId) then .failed "Failed to begin" false rekeyed
  else if (List.range file.tables.updatedRows).any (fun row => fails (.updateRow walletId row)) then
    .failed "Failed to update a row" false rekeyed
  else match reencryptWalletTables aead (keys.masterKey walletId currentPassphrase)
      (keys.masterKey walletId newPassphrase) file.tables with
    -- the transaction is rolled back, the key of the file is not
    | .error message => .failed message false rekeyed
    | .ok tables =>
      if fails (.commitWallet walletId) then
        .failed "Failed to commit re-encrypted wallet data" false rekeyed
      else if fails (.walletKeyPath walletId) then
        .failed "Failed to resolve the key path" false { rekeyed with tables := tables }
      else .changed { rekeyed with tables := tables }

/-- One wallet of `rollback_wallets`: the file, and whether the next one is taken. -/
def WalletFile.rollback (file : WalletFile F C) : WalletFile F C × Bool :=
  let walletId := file.walletId
  let restored := { file with dbKey := keys.dbKey walletId currentPassphrase }
  if fails (.rollbackOpen walletId) then (file, false)
  else if fails (.rollbackRekey walletId) then (file, false)
  else if fails (.rollbackBegin walletId) then (restored, false)
  else if (List.range file.tables.updatedRows).any (fun row => fails (.rollbackRow walletId row)) then
    (restored, false)
  else match reencryptWalletTables aead (keys.masterKey walletId newPassphrase)
      (keys.masterKey walletId currentPassphrase) file.tables with
    | .error _ => (restored, false)
    | .ok tables =>
      if fails (.rollbackCommit walletId) then (restored, false)
      else ({ restored with tables := tables }, !fails (.rollbackKeyPath walletId))

/-- `rollback_wallets` on the updated wallets, the last one first. -/
def rollbackReversed : List (WalletFile F C) → List (WalletFile F C)
  | [] => []
  | file :: earlier =>
    match file.rollback aead keys fails currentPassphrase newPassphrase with
    | (file, true) => file :: rollbackReversed earlier
    | (file, false) => file :: earlier

def rollbackWallets (updated : List (WalletFile F C)) : List (WalletFile F C) :=
  (rollbackReversed aead keys fails currentPassphrase newPassphrase updated.reverse).reverse

/-- The loop over the wallets: the error it ends with, if any, and the files. -/
def changeWallets (updated : List (WalletFile F C)) :
    List (WalletFile F C) → Option String × List (WalletFile F C)
  | [] => (none, updated)
  | file :: rest =>
    match file.change aead keys fails currentPassphrase newPassphrase with
    | .changed file => changeWallets (updated ++ [file]) rest
    | .failed message rollback file =>
      let earlier :=
        if rollback then
          rollbackWallets aead keys fails currentPassphrase newPassphrase updated
        else updated
      (some message, earlier ++ file :: rest)

/-- The part of `change_app_passphrase` after the loop. -/
def changeRegistry (storage : AppStorage F C) : Except String Unit × AppStorage F C :=
  let rolledBack := { storage with
    wallets := rollbackWallets aead keys fails currentPassphrase newPassphrase storage.wallets }
  let newRegistryKey := keys.registryKey newPassphrase
  let restoredKey := if fails .restoreRegistry then newRegistryKey else storage.registryKey
  if fails .rekeyRegistry then (.error "Failed to rekey registry database", rolledBack)
  else if fails .hashNew then
    (.error "Failed to hash new passphrase", { storage with registryKey := newRegistryKey })
  else if fails .deleteHash then
    (.error "Failed to update passphrase hash", { rolledBack with registryKey := restoredKey })
  else if fails .insertHash then
    -- the row is gone, and nothing puts it back
    (.error "Failed to update passphrase hash", { rolledBack with
      registryKey := restoredKey
      passphraseHash := none })
  else
    let stored := { storage with
      registryKey := newRegistryKey
      passphraseHash := some (keys.hash newPassphrase) }
    if fails .registryKeyPath then (.error "Failed to resolve the registry key path", stored)
    else
      let stored := if storage.keystore then
          { stored with registrySealedKey := some newRegistryKey }
        else stored
      if fails .reloadRegistry then (.error "Failed to load the wallet registry", stored)
      else (.ok (), stored)

def changeAppPassphrase (storage : AppStorage F C) : Except String Unit × AppStorage F C :=
  if fails .validateNew then
    (.error "New passphrase does not meet requirements", storage)
  else if fails .verifyCurrent ∨ ¬ storage.verifyAppPassphrase keys currentPassphrase then
    (.error "Invalid current passphrase", storage)
  else
    let opened := storage.sealRegistryKey
    if fails .loadRegistry then (.error "Failed to load the wallet registry", opened)
    else if fails .openRegistry then (.error "Failed to open the wallet registry", opened)
    else if fails .registryKeys then (.error "Failed to derive keys", opened)
    else
      match changeWallets aead keys fails currentPassphrase newPassphrase [] storage.wallets with
      | (some message, wallets) => (.error message, { opened with wallets := wallets })
      | (none, wallets) =>
        changeRegistry aead keys fails currentPassphrase newPassphrase
          { opened with wallets := wallets }

end Change

/-! ## What reads as before -/

section Reads

variable {K F C : Type} [DecidableEq F]

/-- What a reader who opens the file with a passphrase sees in its tables. -/
def WalletFile.read (aead : Aead K C Bytes) (keys : KeyDerivation K F) (passphrase : String)
    (file : WalletFile F C) : Option (EncryptedTables (Option Bytes)) :=
  if file.dbKey = keys.dbKey file.walletId passphrase then
    some (file.tables.map (aead.decrypt (keys.masterKey file.walletId passphrase)))
  else none

/-- Every ciphertext of the wallet decrypts under the master key of the passphrase. -/
def WalletFile.Decrypts (aead : Aead K C Bytes) (keys : KeyDerivation K F) (passphrase : String)
    (file : WalletFile F C) : Prop :=
  ∀ cell ∈ file.tables.cells,
    (aead.decrypt (keys.masterKey file.walletId passphrase) cell).isSome = true

/-- The wallet holds nothing in the two tables the pass leaves out. -/
def EncryptedTables.NothingLeftOut (tables : EncryptedTables C) : Prop :=
  tables.outgoingTransactionIntents = [] ∧ tables.unlinkedSpendNullifiers = []

section Rows

variable {aead : Aead K C Bytes} {oldKey newKey : K}

theorem reencryptBlob_eq_ok {blob moved : C}
    (h : reencryptBlob aead oldKey newKey blob = .ok moved) :
    aead.decrypt newKey moved = aead.decrypt oldKey blob := by
  unfold reencryptBlob at h
  split at h
  · rename_i hmoved
    obtain rfl := Except.ok.inj h
    exact Aead.decrypt_of_reencrypt hmoved
  · cases h

theorem reencryptOptionalBlob_eq_ok {blob moved : Option C}
    (h : reencryptOptionalBlob aead oldKey newKey blob = .ok moved) :
    moved.map (aead.decrypt newKey) = blob.map (aead.decrypt oldKey) := by
  cases blob with
  | none =>
    obtain rfl := Except.ok.inj h
    rfl
  | some blob =>
    obtain ⟨cell, hcell, h⟩ := bind_eq_ok h
    obtain rfl := Except.ok.inj h
    exact congrArg some (reencryptBlob_eq_ok hcell)

theorem EncryptedNote.reencrypt_eq_ok {row moved : EncryptedNote C}
    (h : row.reencrypt aead oldKey newKey = .ok moved) :
    moved.map (aead.decrypt newKey) = row.map (aead.decrypt oldKey) := by
  obtain ⟨accountId, haccountId, h⟩ := bind_eq_ok h
  obtain ⟨value, hvalue, h⟩ := bind_eq_ok h
  obtain ⟨nullifier, hnullifier, h⟩ := bind_eq_ok h
  obtain ⟨commitment, hcommitment, h⟩ := bind_eq_ok h
  obtain ⟨spent, hspent, h⟩ := bind_eq_ok h
  obtain ⟨height, hheight, h⟩ := bind_eq_ok h
  obtain ⟨txid, htxid, h⟩ := bind_eq_ok h
  obtain ⟨outputIndex, houtputIndex, h⟩ := bind_eq_ok h
  obtain ⟨spentTxid, hspentTxid, h⟩ := bind_eq_ok h
  obtain ⟨diversifier, hdiversifier, h⟩ := bind_eq_ok h
  obtain ⟨note, hnote, h⟩ := bind_eq_ok h
  obtain ⟨position, hposition, h⟩ := bind_eq_ok h
  obtain ⟨memo, hmemo, h⟩ := bind_eq_ok h
  obtain ⟨addressId, haddressId, h⟩ := bind_eq_ok h
  obtain ⟨keyId, hkeyId, h⟩ := bind_eq_ok h
  obtain rfl := Except.ok.inj h
  simp only [EncryptedNote.map, reencryptBlob_eq_ok haccountId, reencryptBlob_eq_ok hvalue,
    reencryptBlob_eq_ok hnullifier, reencryptBlob_eq_ok hcommitment, reencryptBlob_eq_ok hspent,
    reencryptBlob_eq_ok hheight, reencryptBlob_eq_ok htxid, reencryptBlob_eq_ok houtputIndex,
    reencryptOptionalBlob_eq_ok hspentTxid, reencryptOptionalBlob_eq_ok hdiversifier,
    reencryptOptionalBlob_eq_ok hnote, reencryptOptionalBlob_eq_ok hposition,
    reencryptOptionalBlob_eq_ok hmemo, reencryptOptionalBlob_eq_ok haddressId,
    reencryptOptionalBlob_eq_ok hkeyId]

theorem EncryptedWalletSecret.reencrypt_eq_ok {row moved : EncryptedWalletSecret C}
    (h : row.reencrypt aead oldKey newKey = .ok moved) :
    moved.map (aead.decrypt newKey) = row.map (aead.decrypt oldKey) := by
  obtain ⟨accountId, haccountId, h⟩ := bind_eq_ok h
  obtain ⟨extsk, hextsk, h⟩ := bind_eq_ok h
  obtain ⟨dfvk, hdfvk, h⟩ := bind_eq_ok h
  obtain ⟨orchardExtsk, horchardExtsk, h⟩ := bind_eq_ok h
  obtain ⟨saplingIvk, hsaplingIvk, h⟩ := bind_eq_ok h
  obtain ⟨orchardIvk, horchardIvk, h⟩ := bind_eq_ok h
  obtain ⟨encryptedMnemonic, hmnemonic, h⟩ := bind_eq_ok h
  obtain ⟨createdAt, hcreatedAt, h⟩ := bind_eq_ok h
  obtain rfl := Except.ok.inj h
  simp only [EncryptedWalletSecret.map, reencryptBlob_eq_ok haccountId,
    reencryptBlob_eq_ok hextsk, reencryptBlob_eq_ok hcreatedAt, reencryptOptionalBlob_eq_ok hdfvk,
    reencryptOptionalBlob_eq_ok horchardExtsk, reencryptOptionalBlob_eq_ok hsaplingIvk,
    reencryptOptionalBlob_eq_ok horchardIvk, reencryptOptionalBlob_eq_ok hmnemonic]

theorem EncryptedMemo.reencrypt_eq_ok {row moved : EncryptedMemo C}
    (h : row.reencrypt aead oldKey newKey = .ok moved) :
    moved.map (aead.decrypt newKey) = row.map (aead.decrypt oldKey) := by
  obtain ⟨memo, hmemo, h⟩ := bind_eq_ok h
  obtain rfl := Except.ok.inj h
  simp only [EncryptedMemo.map, reencryptBlob_eq_ok hmemo]

theorem EncryptedAccountKey.reencrypt_eq_ok {row moved : EncryptedAccountKey C}
    (h : row.reencrypt aead oldKey newKey = .ok moved) :
    moved.map (aead.decrypt newKey) = row.map (aead.decrypt oldKey) := by
  obtain ⟨saplingExtsk, hsaplingExtsk, h⟩ := bind_eq_ok h
  obtain ⟨saplingDfvk, hsaplingDfvk, h⟩ := bind_eq_ok h
  obtain ⟨orchardExtsk, horchardExtsk, h⟩ := bind_eq_ok h
  obtain ⟨orchardFvk, horchardFvk, h⟩ := bind_eq_ok h
  obtain ⟨encryptedMnemonic, hmnemonic, h⟩ := bind_eq_ok h
  obtain rfl := Except.ok.inj h
  simp only [EncryptedAccountKey.map, reencryptOptionalBlob_eq_ok hsaplingExtsk,
    reencryptOptionalBlob_eq_ok hsaplingDfvk, reencryptOptionalBlob_eq_ok horchardExtsk,
    reencryptOptionalBlob_eq_ok horchardFvk, reencryptOptionalBlob_eq_ok hmnemonic]

theorem EncryptedDisclosure.reencrypt_eq_ok {row moved : EncryptedDisclosure C}
    (h : row.reencrypt aead oldKey newKey = .ok moved) :
    moved.map (aead.decrypt newKey) = row.map (aead.decrypt oldKey) := by
  obtain ⟨payload, hpayload, h⟩ := bind_eq_ok h
  obtain rfl := Except.ok.inj h
  simp only [EncryptedDisclosure.map, reencryptBlob_eq_ok hpayload]

theorem EncryptedFrontier.reencrypt_eq_ok {row moved : EncryptedFrontier C}
    (h : row.reencrypt aead oldKey newKey = .ok moved) :
    moved.map (aead.decrypt newKey) = row.map (aead.decrypt oldKey) := by
  obtain ⟨frontier, hfrontier, h⟩ := bind_eq_ok h
  obtain rfl := Except.ok.inj h
  simp only [EncryptedFrontier.map, reencryptBlob_eq_ok hfrontier]

/-- A pass over a table that keeps what each row reads as keeps what the table reads as. -/
theorem map_of_mapM_eq_ok {α β : Type} {f : α → Except String α} {old new : α → β}
    (hrow : ∀ row moved, f row = .ok moved → new moved = old row) {rows moved : List α}
    (h : rows.mapM f = .ok moved) : moved.map new = rows.map old := by
  induction rows generalizing moved with
  | nil =>
    obtain rfl := Except.ok.inj h
    rfl
  | cons row rows ih =>
    rw [List.mapM_cons] at h
    obtain ⟨first, hfirst, h⟩ := bind_eq_ok h
    obtain ⟨rest, hrest, h⟩ := bind_eq_ok h
    obtain rfl := Except.ok.inj h
    rw [List.map_cons, List.map_cons, hrow row first hfirst, ih hrest]

/-- What the tables read as after the pass: as before, but for the two tables left out. -/
theorem reencryptWalletTables_eq_ok {tables moved : EncryptedTables C}
    (h : reencryptWalletTables aead oldKey newKey tables = .ok moved) :
    moved.map (aead.decrypt newKey) = { tables.map (aead.decrypt oldKey) with
      outgoingTransactionIntents := tables.outgoingTransactionIntents.map
        (EncryptedIntent.map (aead.decrypt newKey))
      unlinkedSpendNullifiers := tables.unlinkedSpendNullifiers.map
        (EncryptedUnlinkedSpend.map (aead.decrypt newKey)) } := by
  obtain ⟨notes, hnotes, h⟩ := bind_eq_ok h
  obtain ⟨secrets, hsecrets, h⟩ := bind_eq_ok h
  obtain ⟨memos, hmemos, h⟩ := bind_eq_ok h
  obtain ⟨accountKeys, haccountKeys, h⟩ := bind_eq_ok h
  obtain ⟨disclosures, hdisclosures, h⟩ := bind_eq_ok h
  obtain ⟨snapshots, hsnapshots, h⟩ := bind_eq_ok h
  obtain rfl := Except.ok.inj h
  simp only [EncryptedTables.map]
  rw [map_of_mapM_eq_ok (fun _ _ => EncryptedNote.reencrypt_eq_ok) hnotes,
    map_of_mapM_eq_ok (fun _ _ => EncryptedWalletSecret.reencrypt_eq_ok) hsecrets,
    map_of_mapM_eq_ok (fun _ _ => EncryptedMemo.reencrypt_eq_ok) hmemos,
    map_of_mapM_eq_ok (fun _ _ => EncryptedAccountKey.reencrypt_eq_ok) haccountKeys,
    map_of_mapM_eq_ok (fun _ _ => EncryptedDisclosure.reencrypt_eq_ok) hdisclosures,
    map_of_mapM_eq_ok (fun _ _ => EncryptedFrontier.reencrypt_eq_ok) hsnapshots]

/-- Rows that are left as they are read under another key as before only if there are none
or it is the same key. -/
theorem map_read_eq_iff {α β : Type} {read : K → α → β} {rows : List α}
    (h : ∀ row ∈ rows, read newKey row = read oldKey row → newKey = oldKey) :
    rows.map (read newKey) = rows.map (read oldKey) ↔ newKey = oldKey ∨ rows = [] := by
  constructor
  · intro heq
    cases rows with
    | nil => exact .inr rfl
    | cons row rows => exact .inl (h row List.mem_cons_self (List.cons.inj heq).1)
  · rintro (rfl | rfl) <;> rfl

/-- After the pass the tables read as before exactly when the key is the same or the two
tables left out are empty. -/
theorem reencryptWalletTables_read_iff {tables moved : EncryptedTables C}
    (h : reencryptWalletTables aead oldKey newKey tables = .ok moved)
    (hdecrypts : ∀ cell ∈ tables.cells, (aead.decrypt oldKey cell).isSome = true) :
    moved.map (aead.decrypt newKey) = tables.map (aead.decrypt oldKey) ↔
      newKey = oldKey ∨ tables.NothingLeftOut := by
  have hcell : ∀ cell ∈ tables.cells,
      aead.decrypt newKey cell = aead.decrypt oldKey cell → newKey = oldKey := by
    intro cell hmem heq
    obtain ⟨message, hmessage⟩ := Option.isSome_iff_exists.mp (hdecrypts cell hmem)
    exact (Aead.decrypt_eq_iff hmessage).mp heq
  have hintents := @map_read_eq_iff K oldKey newKey _ _
    (fun key => EncryptedIntent.map (aead.decrypt key)) tables.outgoingTransactionIntents (by
      intro row hrow heq
      refine hcell row.accountId ?_ (congrArg EncryptedIntent.accountId heq)
      simp only [EncryptedTables.cells, List.mem_append, List.mem_flatMap]
      exact .inl (.inr ⟨row, hrow, List.mem_cons_self⟩))
  have hspends := @map_read_eq_iff K oldKey newKey _ _
    (fun key => EncryptedUnlinkedSpend.map (aead.decrypt key)) tables.unlinkedSpendNullifiers (by
      intro row hrow heq
      refine hcell row.accountId ?_ (congrArg EncryptedUnlinkedSpend.accountId heq)
      simp only [EncryptedTables.cells, List.mem_append, List.mem_flatMap]
      exact .inr ⟨row, hrow, List.mem_cons_self⟩)
  rw [reencryptWalletTables_eq_ok h]
  simp only [EncryptedTables.map, EncryptedTables.mk.injEq, true_and]
  rw [hintents, hspends]
  unfold EncryptedTables.NothingLeftOut
  tauto

end Rows

variable {aead : Aead K C Bytes} {keys : KeyDerivation K F} {fails : ChangeStep → Bool}
  {currentPassphrase newPassphrase : String}

/-- A wallet whose change succeeds was open under the old key, is under the new one, and its
tables went through the pass. -/
theorem WalletFile.change_eq_changed {file changed : WalletFile F C}
    (h : file.change aead keys fails currentPassphrase newPassphrase = .changed changed) :
    file.dbKey = keys.dbKey file.walletId currentPassphrase ∧
      changed.walletId = file.walletId ∧
      changed.dbKey = keys.dbKey file.walletId newPassphrase ∧
      reencryptWalletTables aead (keys.masterKey file.walletId currentPassphrase)
        (keys.masterKey file.walletId newPassphrase) file.tables = .ok changed.tables := by
  unfold WalletFile.change at h
  dsimp only at h
  split at h
  · cases h
  · rename_i hopen
    rw [not_or, not_not] at hopen
    split at h
    · cases h
    · split at h
      · cases h
      · split at h
        · cases h
        · split at h
          · cases h
          · split at h
            · cases h
            · rename_i tables htables
              split at h
              · cases h
              · split at h
                · cases h
                · obtain rfl := WalletChange.changed.inj h
                  exact ⟨hopen.2, rfl, rfl, htables⟩

theorem WalletFile.change_read_iff {file changed : WalletFile F C}
    (h : file.change aead keys fails currentPassphrase newPassphrase = .changed changed)
    (hdecrypts : file.Decrypts aead keys currentPassphrase) :
    changed.read aead keys newPassphrase = file.read aead keys currentPassphrase ↔
      keys.masterKey file.walletId newPassphrase = keys.masterKey file.walletId currentPassphrase ∨
        file.tables.NothingLeftOut := by
  obtain ⟨hopen, hid, hkey, htables⟩ := WalletFile.change_eq_changed h
  unfold WalletFile.read
  rw [hid, if_pos hkey, if_pos hopen, Option.some.injEq]
  exact reencryptWalletTables_read_iff htables hdecrypts

/-- The loop succeeds only if every wallet is changed. -/
theorem changeWallets_eq_none {updated files result : List (WalletFile F C)}
    (h : changeWallets aead keys fails currentPassphrase newPassphrase updated files
      = (none, result)) :
    ∃ changed, result = updated ++ changed ∧
      List.Forall₂ (fun file file' =>
        file.change aead keys fails currentPassphrase newPassphrase = .changed file')
        files changed := by
  induction files generalizing updated with
  | nil =>
    unfold changeWallets at h
    exact ⟨[], by rw [List.append_nil]; exact (Prod.mk.inj h).2.symm, .nil⟩
  | cons file rest ih =>
    unfold changeWallets at h
    split at h
    · rename_i file' hfile
      obtain ⟨changed, rfl, hchanged⟩ := ih h
      exact ⟨file' :: changed, by simp, .cons hfile hchanged⟩
    · cases (Prod.mk.inj h).1

/-- A call that succeeds has changed the wallets one by one. -/
theorem changeAppPassphrase_eq_ok {storage : AppStorage F C}
    (h : (changeAppPassphrase aead keys fails currentPassphrase newPassphrase storage).1
      = .ok ()) :
    List.Forall₂ (fun file file' =>
        file.change aead keys fails currentPassphrase newPassphrase = .changed file')
      storage.wallets
      (changeAppPassphrase aead keys fails currentPassphrase newPassphrase storage).2.wallets := by
  revert h
  unfold changeAppPassphrase
  split_ifs
  any_goals
    intro h
    cases h
  split
  · intro h
    cases h
  · rename_i wallets hwallets
    obtain ⟨changed, rfl, hchanged⟩ := changeWallets_eq_none hwallets
    unfold changeRegistry
    dsimp only
    split_ifs
    any_goals
      intro h
      cases h
      done
    all_goals
      intro _
      exact hchanged

/-- **When a changed passphrase loses nothing.** A change that succeeds leaves every wallet
reading as before, under the new passphrase, exactly when the master key of each wallet stays
the same or the wallet has neither outgoing intents nor unlinked spends. -/
theorem passphrase_change_reads_iff (aead : Aead K C Bytes) (keys : KeyDerivation K F)
    (fails : ChangeStep → Bool) (currentPassphrase newPassphrase : String)
    (storage : AppStorage F C)
    (hdecrypts : ∀ file ∈ storage.wallets, file.Decrypts aead keys currentPassphrase)
    (hok : (changeAppPassphrase aead keys fails currentPassphrase newPassphrase storage).1
      = .ok ()) :
    ((changeAppPassphrase aead keys fails currentPassphrase newPassphrase storage).2.wallets.map
        (fun file => (file.walletId, file.read aead keys newPassphrase))
      = storage.wallets.map (fun file => (file.walletId, file.read aead keys currentPassphrase)))
    ↔ ∀ file ∈ storage.wallets,
      keys.masterKey file.walletId newPassphrase = keys.masterKey file.walletId currentPassphrase ∨
        file.tables.NothingLeftOut := by
  have hchanged := changeAppPassphrase_eq_ok hok
  -- the wallets of the call, taken apart together with the wallets before it
  generalize (changeAppPassphrase aead keys fails currentPassphrase newPassphrase
    storage).2.wallets = changed at hchanged
  generalize storage.wallets = files at hdecrypts hchanged ⊢
  induction hchanged with
  | nil => simp
  | cons hfile _ ih =>
    obtain ⟨hfirst, hrest⟩ := List.forall_mem_cons.mp hdecrypts
    obtain ⟨-, hid, -, -⟩ := WalletFile.change_eq_changed hfile
    rw [List.map_cons, List.map_cons, List.cons.injEq, List.forall_mem_cons]
    refine and_congr ?_ (ih hrest)
    rw [Prod.mk.injEq, WalletFile.change_read_iff hfile hfirst]
    exact and_iff_right hid

end Reads

/-! ## A wallet with a payment on its way -/

/-- A cipher that writes the key beside the message. -/
def labelCipher : Aead String (String × Bytes) Bytes where
  encrypt key message := (key, message)
  decrypt key ciphertext := if ciphertext.1 = key then some ciphertext.2 else none
  decrypt_encrypt _ _ := if_pos rfl
  decrypt_other := by
    intro key other ciphertext message h hne
    split at h
    · rename_i hkey
      exact if_neg (fun hother => hne (hother.symm.trans hkey))
    · cases h

/-- The passphrase itself as every key. -/
def labelKeys : KeyDerivation String String :=
  ⟨.labelled, fun _ p => p, fun _ p => p, fun p => p⟩

/-- One wallet with a memo, and the given intents. -/
def labelStorage (intents : List (EncryptedIntent (String × Bytes))) :
    AppStorage String (String × Bytes) where
  registryKey := "old"
  registrySealedKey := none
  keystore := false
  passphraseHash := some (labelKeys.hash "old")
  wallets :=
    [{ walletId := "main"
       dbKey := "old"
       tables :=
        { notes := []
          walletSecrets := []
          memos := [⟨1, 1, ("old", [104, 105])⟩]
          accountKeys := []
          paymentDisclosures := []
          frontierSnapshots := [⟨5, ("old", [9]), "t", "1.0"⟩]
          outgoingTransactionIntents := intents
          unlinkedSpendNullifiers := [] } }]

/-- The intent of a payment of account 1. -/
def labelIntent : EncryptedIntent (String × Bytes) where
  txid := "aa"
  accountId := ("old", [1, 0, 0, 0, 0, 0, 0, 0])
  amount := ("old", [5, 0, 0, 0, 0, 0, 0, 0])
  fee := ("old", [1, 0, 0, 0, 0, 0, 0, 0])
  broadcastAt := 10
  expiryHeight := 50

/-- Without intents the memo and the frontier read under the new passphrase as before. -/
theorem passphrase_change_reads_memo :
    ((changeAppPassphrase labelCipher labelKeys (fun _ => false) "old" "new"
        (labelStorage [])).2.wallets.map
          (fun file => (file.walletId, file.read labelCipher labelKeys "new"))
      = (labelStorage []).wallets.map
        (fun file => (file.walletId, file.read labelCipher labelKeys "old"))) := by
  refine (passphrase_change_reads_iff labelCipher labelKeys (fun _ => false) "old" "new"
    (labelStorage []) ?_ (by decide +kernel)).mpr ?_
  · unfold WalletFile.Decrypts
    decide +kernel
  · exact List.forall_mem_singleton.mpr (.inr ⟨rfl, rfl⟩)

/-- With one intent the call succeeds and the intent cannot be read any more. -/
theorem passphrase_change_loses_intent :
    (∀ file ∈ (labelStorage [labelIntent]).wallets, file.Decrypts labelCipher labelKeys "old") ∧
      (changeAppPassphrase labelCipher labelKeys (fun _ => false) "old" "new"
        (labelStorage [labelIntent])).1 = .ok () ∧
      ¬((changeAppPassphrase labelCipher labelKeys (fun _ => false) "old" "new"
          (labelStorage [labelIntent])).2.wallets.map
            (fun file => (file.walletId, file.read labelCipher labelKeys "new"))
        = (labelStorage [labelIntent]).wallets.map
          (fun file => (file.walletId, file.read labelCipher labelKeys "old"))) := by
  refine ⟨?_, ?_, ?_⟩
  · unfold WalletFile.Decrypts
    decide +kernel
  · decide +kernel
  · decide +kernel

end StashiWallet
