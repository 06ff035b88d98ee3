import StashiWallet.Addresses
import StashiWallet.SpendabilityState

/-!
# Importing spending keys

Three calls make older history relevant: the import of a verified key together with its
address, the import of a decoded key group, and the migration for keys imported before replays
were recorded. Each lowers the height from which the chain has to be replayed, and counts
itself in `key_import_generation`, so that a replay that was under way does not satisfy it.

The rows of `account_keys` are decrypted here. A stored secret of a locked wallet reads as
absent; an import needs the wallet unlocked, since it has to encrypt, so every secret is
present. Reading a serialized Ironwood key is left to the key crate: `IronwoodMaterial` gives
what two of them are compared by, everything but the ancestry tag.
-/

namespace StashiWallet

/-- `AccountKey` without its row id. -/
structure AccountKey where
  accountId : Int
  keyType : KeyType
  keyScope : KeyScope
  label : Option String
  birthdayHeight : Int
  createdAt : Int
  spendable : Bool
  saplingExtsk : Option Bytes
  saplingDfvk : Option Bytes
  orchardExtsk : Option Bytes
  orchardFvk : Option Bytes
  encryptedMnemonic : Option Bytes
deriving DecidableEq, Repr

/-- A row of `account_keys`. -/
structure AccountKeyRow extends AccountKey where
  id : Nat
deriving DecidableEq, Repr

/-- The table `account_keys`. -/
abbrev AccountKeys : Type := AutoTable AccountKeyRow AccountKeyRow.id

/-- `get_account_keys`. -/
def AccountKeys.ofAccount (accountId : Int) (keys : AccountKeys) : List AccountKeyRow :=
  keys.rows.filter (fun row => row.accountId == accountId)

/-- `upsert_account_key` for a key with an id. -/
def AccountKeys.update (id : Nat) (key : AccountKey) (keys : AccountKeys) : AccountKeys :=
  AutoTable.updateWhere (fun row => row.id == id) (fun row => { key with id := row.id })
    (fun _ => rfl) keys

/-- `upsert_account_key` for a key without an id: the new row's id is the next one. -/
def AccountKeys.insert (key : AccountKey) (keys : AccountKeys) : AccountKeys :=
  AutoTable.insert (fun id => { key with id := id }) (fun _ => rfl) keys

/-- What serialized Ironwood keys are compared by; nothing where the bytes are not a key. -/
structure IronwoodMaterial where
  spending : Bytes → Option Bytes
  viewing : Bytes → Option Bytes

/-- Optional keys that are both absent, or both readable with the same material. -/
def sameMaterial (read : Bytes → Option Bytes) : Option Bytes → Option Bytes → Bool
  | none, none => true
  | some left, some right =>
    match read left, read right with
    | some a, some b => a == b
    | _, _ => false
  | _, _ => false

/-- `ironwood_spending_material_matches`. -/
def IronwoodMaterial.spendingMatches (material : IronwoodMaterial) :
    Option Bytes → Option Bytes → Bool :=
  sameMaterial material.spending

/-- `ironwood_viewing_material_matches`. -/
def IronwoodMaterial.viewingMatches (material : IronwoodMaterial) :
    Option Bytes → Option Bytes → Bool :=
  sameMaterial material.viewing

/-- The tables an import writes, and whether the replay migration has run. -/
structure ImportDb where
  keys : AccountKeys
  addresses : AddressTable
  spendabilityState : Option SpendabilityStateRow
  importedKeyRecovery : Bool

/-! ## The replay obligation -/

/-- The `UPDATE` of `spendability_state` that all three calls make. -/
def SpendabilityStateRow.requireReplay (now reasonCode : String) (birthday : Int)
    (row : SpendabilityStateRow) : SpendabilityStateRow :=
  { row with
    spendable := false
    rescanRequired := true
    requiredRescanFromHeight :=
      if 0 < row.requiredRescanFromHeight ∧ (row.requiredRescanFromHeight : Int) < birthday then
        row.requiredRescanFromHeight
      else birthday.toNat
    keyImportGeneration := row.keyImportGeneration + 1
    repairQueued := false
    repairFromHeight := 0
    reasonCode := reasonCode
    updatedAt := now }

/-- The update, refused if there is no row. -/
def ImportDb.requireReplay (now reasonCode : String) (birthday : Int) (db : ImportDb) :
    Except StorageError ImportDb :=
  match db.spendabilityState with
  | none => .error (.storage "Spendability state row is unavailable")
  | some row => .ok { db with spendabilityState := some (row.requireReplay now reasonCode birthday) }

/-! ## The migration -/

/-- `CASE WHEN birthday_height > 0 THEN birthday_height ELSE 1 END` for the keys of type
`import_spend`. -/
def AccountKeys.importedBirthdays (keys : AccountKeys) : List Int :=
  (keys.rows.filter (fun row => row.keyType == .importSpend)).map
    (fun row => if 0 < row.birthdayHeight then row.birthdayHeight else 1)

/-- `MIN` of these. -/
def AccountKeys.importedBirthday (keys : AccountKeys) : Option Int :=
  match keys.importedBirthdays with
  | [] => none
  | first :: rest => some (rest.foldl min first)

/-- The body of `ensure_imported_key_replay_migration`: the birthday recorded, if one is. -/
def ImportDb.migrateBody (now : String) (db : ImportDb) :
    Except StorageError (Option Int × ImportDb) :=
  if db.importedKeyRecovery then .ok (none, db)
  else match db.keys.importedBirthday with
    | none => .ok (none, { db with importedKeyRecovery := true })
    | some birthday => do
      let recorded ← db.requireReplay now "ERR_RESCAN_REQUIRED" birthday
      return (some birthday, { recorded with importedKeyRecovery := true })

/-! ## A decoded key group -/

/-- The check of `import_spending_key_with_rescan`. The model's keys have no id. -/
def AccountKey.validImport (key : AccountKey) : Bool :=
  key.keyType == .importSpend && key.keyScope == .account && key.spendable &&
    decide (0 < key.birthdayHeight) && (key.saplingExtsk.isSome || key.orchardExtsk.isSome) &&
    key.saplingExtsk.isSome == key.saplingDfvk.isSome &&
    key.orchardExtsk.isSome == key.orchardFvk.isSome

section Imports

variable (material : IronwoodMaterial)

/-- How `import_spending_key_with_rescan` finds a stored key: both pools have to match. -/
def AccountKey.matchesGroup (key : AccountKey) (existing : AccountKeyRow) : Bool :=
  existing.saplingExtsk == key.saplingExtsk &&
    material.spendingMatches existing.orchardExtsk key.orchardExtsk

/-- What `import_spending_key_with_rescan` writes over a stored key. -/
def AccountKey.mergeGroup (key : AccountKey) (existing : AccountKeyRow) : AccountKey :=
  { key with
    keyType := existing.keyType
    keyScope := existing.keyScope
    encryptedMnemonic := existing.encryptedMnemonic
    createdAt := existing.createdAt
    label := existing.label.or key.label
    orchardExtsk := existing.orchardExtsk
    orchardFvk :=
      if material.viewingMatches existing.orchardFvk key.orchardFvk then existing.orchardFvk
      else key.orchardFvk
    birthdayHeight :=
      if 0 < existing.birthdayHeight then min key.birthdayHeight existing.birthdayHeight
      else key.birthdayHeight }

/-- The body of `import_spending_key_with_rescan`: the row id, the birthday recorded, and the
tables. -/
def ImportDb.importGroupBody (key : AccountKey) (now reasonCode : String) (db : ImportDb) :
    Except StorageError (Nat × Int × ImportDb) :=
  match (db.keys.ofAccount key.accountId).find? (key.matchesGroup material) with
  | some existing => do
    let imported := key.mergeGroup material existing
    let recorded ← { db with keys := db.keys.update existing.id imported }.requireReplay now
      reasonCode imported.birthdayHeight
    return (existing.id, imported.birthdayHeight, recorded)
  | none => do
    let recorded ← { db with keys := db.keys.insert key }.requireReplay now reasonCode
      key.birthdayHeight
    return (db.keys.nextId, key.birthdayHeight, recorded)

/-! ## A verified key and its address -/

/-- Exactly one pool, with both its keys. -/
def AccountKey.saplingOnly (key : AccountKey) : Bool :=
  key.saplingExtsk.isSome && key.saplingDfvk.isSome && key.orchardExtsk.isNone &&
    key.orchardFvk.isNone

@[inherit_doc AccountKey.saplingOnly]
def AccountKey.ironwoodOnly (key : AccountKey) : Bool :=
  key.orchardExtsk.isSome && key.orchardFvk.isSome && key.saplingExtsk.isNone &&
    key.saplingDfvk.isNone

/-- The checks of `import_verified_spending_key` on its arguments. -/
def verifyArguments (key : AccountKey) (address : Address) : Except StorageError Unit := do
  if key.keyType ≠ .importSpend ∨ key.keyScope ≠ .account ∨ !key.spendable ∨
      key.birthdayHeight ≤ 0 then
    throw (.storage "Invalid verified spending-key import metadata")
  if !key.saplingOnly && !key.ironwoodOnly then
    throw (.storage "A verified import must contain exactly one shielded-pool key")
  if address.keyId.isSome ∨ address.accountId ≠ key.accountId ∨ address.diversifierIndex88.isNone ∨
      address.addressScope ≠ .external ∨
      (key.saplingOnly ∧ address.addressType ≠ .sapling) ∨
      (key.ironwoodOnly ∧ address.addressType ≠ .ironwood) then
    throw (.storage "Invalid verified spending-key address metadata")

/-- How `import_verified_spending_key` finds a stored key: by the pool it has. -/
def AccountKey.matchesVerified (key : AccountKey) (existing : AccountKeyRow) : Bool :=
  if key.saplingOnly then existing.saplingExtsk == key.saplingExtsk
  else material.spendingMatches existing.orchardExtsk key.orchardExtsk

/-- The birthday of a stored key after a verified import. -/
def AccountKey.effectiveBirthday (key : AccountKey) (existing : AccountKeyRow) : Int :=
  if existing.birthdayHeight ≤ 0 then key.birthdayHeight
  else min existing.birthdayHeight key.birthdayHeight

/-- A key of type `import_spend` that is not a spendable account key. -/
def AccountKeyRow.needsRepair (existing : AccountKeyRow) : Bool :=
  existing.keyType == .importSpend && (existing.keyScope != .account || !existing.spendable)

/-- The verified import changes what is scanned for. -/
def AccountKey.scanChanged (key : AccountKey) (existing : AccountKeyRow) : Bool :=
  key.effectiveBirthday existing != existing.birthdayHeight ||
    (key.saplingOnly && existing.saplingDfvk != key.saplingDfvk) ||
    (key.ironwoodOnly && !material.viewingMatches existing.orchardFvk key.orchardFvk) ||
    existing.needsRepair

/-- What `import_verified_spending_key` writes over a stored key. -/
def AccountKey.mergeVerified (key : AccountKey) (existing : AccountKeyRow) : AccountKey :=
  { existing.toAccountKey with
    birthdayHeight := key.effectiveBirthday existing
    label := existing.label.or key.label
    saplingDfvk := if key.saplingOnly then key.saplingDfvk else existing.saplingDfvk
    orchardFvk :=
      if key.ironwoodOnly && !material.viewingMatches existing.orchardFvk key.orchardFvk then
        key.orchardFvk
      else existing.orchardFvk
    keyScope := if existing.needsRepair then .account else existing.keyScope
    spendable := if existing.needsRepair then true else existing.spendable }

/-- The part of a verified import that concerns the key. -/
structure VerifiedKey where
  keyId : Nat
  alreadyImported : Bool
  effectiveBirthday : Int
  keyScanChanged : Bool
deriving DecidableEq, Repr

/-- The first half of the closure of `import_verified_spending_key`. Writing a matched key that
does not change leaves it as it is. -/
def ImportDb.storeVerifiedKey (key : AccountKey) (db : ImportDb) : VerifiedKey × ImportDb :=
  match (db.keys.ofAccount key.accountId).find? (key.matchesVerified material) with
  | some existing =>
    (⟨existing.id, true, key.effectiveBirthday existing, key.scanChanged material existing⟩,
      { db with keys := db.keys.update existing.id (key.mergeVerified material existing) })
  | none =>
    (⟨db.keys.nextId, false, key.birthdayHeight, true⟩, { db with keys := db.keys.insert key })

end Imports

/-- The second half: the address is filed under the key. -/
def ImportDb.storeVerifiedAddress (keyId : Nat) (key : AccountKey) (address : Address)
    (index : Index88) (db : ImportDb) : Except StorageError ImportDb := do
  let indexBe := AddressTable.encodeDiversifierIndexBe index
  let addressType : AddressType := if key.saplingOnly then .sapling else .ironwood
  match db.addresses.rows.find? (fun row => row.address == address.address) with
  | some existing =>
    if existing.accountId ≠ key.accountId ∨ existing.keyId.any (fun id => id != (keyId : Int)) then
      throw (.storage "Verified address is already assigned to another key")
    if existing.diversifierIndexBe.any (fun stored => stored != indexBe) then
      throw (.storage "Verified address has a conflicting ZIP-32 index")
    if existing.keyId ≠ some (keyId : Int) ∨ existing.addressType ≠ addressType ∨
        existing.addressScope ≠ .external ∨ existing.diversifierIndexBe.isNone then
      let addresses ← AddressTable.write (db.addresses.rows.map (fun row =>
        if row.address = address.address then
          { row with
            accountId := key.accountId
            keyId := some keyId
            addressType := addressType
            addressScope := .external
            diversifierIndexBe := some indexBe }
        else row))
      return { db with addresses := addresses }
    return db
  | none =>
    let sequence ← db.addresses.nextDiversifierIndex
      ⟨key.accountId, keyId, .external, address.addressType⟩
    let row := { db.addresses.newRow address with
      accountId := key.accountId
      keyId := some (keyId : Int)
      diversifierIndex := sequence
      addressType := addressType
      addressScope := .external
      diversifierIndexBe := some indexBe }
    let addresses ← AddressTable.write (db.addresses.rows ++ [row])
    return { db with addresses := addresses }

/-! ## The calls -/

/-- Where the database can refuse a statement of an import. -/
inductive ImportStep where
  | begin
  | key
  | address
  | replay
  | commit
deriving DecidableEq, Repr

/-- The error of a refused statement. -/
def refusedStatement : StorageError := .database "statement refused"

/-- `ensure_imported_key_replay_migration`: the birthday recorded, if one is. Inside an outer
transaction it cannot begin its own. -/
def ImportDb.ensureImportedKeyReplayMigration (now : String) (joined : Bool)
    (fault : Option ImportStep) (db : ImportDb) : Except StorageError (Option Int) × ImportDb :=
  if joined || fault.isSome then (.error refusedStatement, db)
  else match db.migrateBody now with
    | .error error => (.error error, db)
    | .ok (birthday, after) => (.ok birthday, after)

section Calls

variable (material : IronwoodMaterial)

/-- `import_spending_key_with_rescan`: the row id and the birthday recorded. -/
def ImportDb.importSpendingKeyWithRescan (key : AccountKey) (now reasonCode : String)
    (joined : Bool) (fault : Option ImportStep) (db : ImportDb) :
    Except StorageError (Nat × Int) × ImportDb :=
  if !key.validImport then (.error (.storage "Invalid spending-key import metadata"), db)
  else if joined || fault.isSome then (.error refusedStatement, db)
  else match db.importGroupBody material key now reasonCode with
    | .error error => (.error error, db)
    | .ok (id, birthday, after) => (.ok (id, birthday), after)

/-- The closure of `import_verified_spending_key`, with the tables as they are where it ends. -/
def ImportDb.importVerifiedBody (key : AccountKey) (address : Address) (index : Index88)
    (now reasonCode : String) (fault : Option ImportStep) (db : ImportDb) :
    Except StorageError (VerifiedKey × Bool) × ImportDb :=
  if fault = some .key then (.error refusedStatement, db)
  else
    let (verified, stored) := db.storeVerifiedKey material key
    if fault = some .address then (.error refusedStatement, stored)
    else match stored.storeVerifiedAddress verified.keyId key address index with
      | .error error => (.error error, stored)
      | .ok filed =>
        if fault = some .replay then (.error refusedStatement, filed)
        else match (if verified.keyScanChanged then
            filed.requireReplay now reasonCode verified.effectiveBirthday else .ok filed) with
          | .error error => (.error error, filed)
          | .ok recorded =>
            match recorded.spendabilityState with
            | none => (.error (.database "Query returned no rows"), recorded)
            | some row => (.ok (verified, row.rescanRequired), recorded)

/-- `import_verified_spending_key`: what became of the key, and whether a rescan is required.
Inside an outer transaction nothing is rolled back on an error. -/
def ImportDb.importVerifiedSpendingKey (key : AccountKey) (address : Address)
    (now reasonCode : String) (joined : Bool) (fault : Option ImportStep) (db : ImportDb) :
    Except StorageError (VerifiedKey × Bool) × ImportDb :=
  match verifyArguments key address, address.diversifierIndex88 with
  | .error error, _ => (.error error, db)
  | .ok _, none => (.error (.storage "Verified spending-key address has no ZIP-32 index"), db)
  | .ok _, some index =>
    if !joined && fault == some .begin then (.error refusedStatement, db)
    else match db.importVerifiedBody material key address index now reasonCode fault with
      | (.error error, after) => (.error error, if joined then after else db)
      | (.ok result, after) =>
        if !joined && fault == some .commit then (.error refusedStatement, db)
        else (.ok result, after)

end Calls

/-- A call that can lower the replay floor; `joined` says that it is made inside an outer
transaction. -/
inductive ImportCall where
  | migrate (now : String) (joined : Bool) (fault : Option ImportStep)
  | importGroup (key : AccountKey) (now reasonCode : String) (joined : Bool)
      (fault : Option ImportStep)
  | importVerified (key : AccountKey) (address : Address) (now reasonCode : String)
      (joined : Bool) (fault : Option ImportStep)

/-- The call is made inside an outer transaction. -/
def ImportCall.joined : ImportCall → Bool
  | .migrate _ joined _ => joined
  | .importGroup _ _ _ joined _ => joined
  | .importVerified _ _ _ _ joined _ => joined

section Runs

variable (material : IronwoodMaterial)

/-- A call: the birthday for which it records a replay, if it does, and the tables. -/
def ImportDb.call (db : ImportDb) : ImportCall → Except StorageError (Option Int) × ImportDb
  | .migrate now joined fault => db.ensureImportedKeyReplayMigration now joined fault
  | .importGroup key now reasonCode joined fault =>
    let (result, after) :=
      db.importSpendingKeyWithRescan material key now reasonCode joined fault
    (result.map (fun imported => some imported.2), after)
  | .importVerified key address now reasonCode joined fault =>
    let (result, after) :=
      db.importVerifiedSpendingKey material key address now reasonCode joined fault
    (result.map (fun imported => if imported.1.keyScanChanged then
      some imported.1.effectiveBirthday else none), after)

def ImportDb.after (db : ImportDb) (call : ImportCall) : ImportDb := (db.call material call).2

/-- The birthday a call records, if it succeeds and records one. -/
def ImportDb.records (db : ImportDb) (call : ImportCall) : Option Int :=
  match (db.call material call).1 with
  | .ok recorded => recorded
  | .error _ => none

/-- The birthdays a sequence of calls records, in order. -/
def ImportDb.recorded (db : ImportDb) : List ImportCall → List Int
  | [] => []
  | call :: rest => (db.records material call).toList ++ (db.after material call).recorded rest

end Runs

end StashiWallet
