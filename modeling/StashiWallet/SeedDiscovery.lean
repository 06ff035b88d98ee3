import StashiWallet.KeyImports
import StashiWallet.NoteStore

/-!
# Accounts derived from the seed

A restored wallet looks ahead: preparation derives the keys of the accounts 1 to 5, stores
those it does not know as candidates, and a scan tries them all. Finalization keeps the
candidates that own a note, deletes the others, and sets a marker that says the discovery is
complete. Apart from that, the user can add the next accounts, and import keys.

Where a key came from is recorded beside the key, in `seed_derived_account_keys`. Foreign keys
are not enforced on these connections, so deleting a key does not delete its record.

Preparation runs outside a transaction: where a statement fails, what was stored stays.
-/

namespace StashiWallet

/-- `SeedDerivedAccountKey`, a row of `seed_derived_account_keys`. -/
structure SeedDerivedRow where
  keyId : Nat
  accountId : Int
  derivationIndex : Nat
  isDiscoveryCandidate : Bool
deriving DecidableEq, Repr

/-- The constraints of the table: the primary key, and one row for each index. -/
def SeedConstraints (rows : List SeedDerivedRow) : Prop :=
  (rows.map (·.keyId)).Nodup ∧ (rows.map (fun row => (row.accountId, row.derivationIndex))).Nodup ∧
    ∀ row ∈ rows, 0 < row.derivationIndex

instance (rows : List SeedDerivedRow) : Decidable (SeedConstraints rows) :=
  inferInstanceAs (Decidable (_ ∧ _ ∧ _))

theorem seedConstraints_nil : SeedConstraints [] := by decide

/-- The table `seed_derived_account_keys`. -/
structure SeedDerivedKeys where
  rows : List SeedDerivedRow
  constraints : SeedConstraints rows

namespace SeedDerivedKeys

/-- A statement that would leave the given rows: refused if they break a constraint. -/
def write (rows : List SeedDerivedRow) : Except StorageError SeedDerivedKeys :=
  if h : SeedConstraints rows then .ok ⟨rows, h⟩
  else .error (.database "UNIQUE constraint failed")

/-- `upsert_seed_derived_account_key`. -/
def upsert (keyId : Nat) (accountId : Int) (derivationIndex : Nat) (isDiscoveryCandidate : Bool)
    (table : SeedDerivedKeys) : Except StorageError SeedDerivedKeys :=
  let isSame := fun (row : SeedDerivedRow) =>
    row.accountId == accountId && row.derivationIndex == derivationIndex
  if table.rows.any isSame then
    write (table.rows.map (fun row => if isSame row then
      { row with keyId := keyId, isDiscoveryCandidate := isDiscoveryCandidate } else row))
  else write (table.rows ++ [⟨keyId, accountId, derivationIndex, isDiscoveryCandidate⟩])

def rowsOf (accountId : Int) (table : SeedDerivedKeys) : List SeedDerivedRow :=
  table.rows.filter (fun row => row.accountId == accountId)

/-- `get_seed_derived_account_keys`. -/
def ofAccount (accountId : Int) (table : SeedDerivedKeys) :
    Except StorageError (List SeedDerivedRow) :=
  let rows := (table.rowsOf accountId).insertionSort (fun a b => a.derivationIndex ≤ b.derivationIndex)
  match rows.find? (fun row => decide (u32Max < row.derivationIndex)) with
  | some row => .error (.storage s!"Invalid seed-derived account index {row.derivationIndex}")
  | none => .ok rows

/-- `DELETE … WHERE key_id = ?1`. -/
def deleteKey (keyId : Nat) (table : SeedDerivedKeys) : SeedDerivedKeys where
  rows := table.rows.filter (fun row => row.keyId != keyId)
  constraints := by
    obtain ⟨hkeys, hindices, hpos⟩ := table.constraints
    refine ⟨hkeys.sublist (List.filter_sublist.map _),
      hindices.sublist (List.filter_sublist.map _), ?_⟩
    exact fun row hrow => hpos row (List.mem_of_mem_filter hrow)

/-- `UPDATE … SET is_discovery_candidate = 0 WHERE key_id = ?1`. -/
def retainKey (keyId : Nat) (table : SeedDerivedKeys) : SeedDerivedKeys where
  rows := table.rows.map (fun row =>
    if row.keyId = keyId then { row with isDiscoveryCandidate := false } else row)
  constraints := by
    obtain ⟨hkeys, hindices, hpos⟩ := table.constraints
    have hsame : ∀ {β : Type} (f : SeedDerivedRow → β),
        (∀ row, f { row with isDiscoveryCandidate := false } = f row) →
        (table.rows.map (fun row => if row.keyId = keyId then
          { row with isDiscoveryCandidate := false } else row)).map f = table.rows.map f := by
      intro β f hf
      rw [List.map_map]
      refine List.map_congr_left (fun row _ => ?_)
      simp only [Function.comp_apply]
      split
      · exact hf row
      · rfl
    refine ⟨?_, ?_, ?_⟩
    · rw [hsame _ (fun _ => rfl)]
      exact hkeys
    · rw [hsame _ (fun _ => rfl)]
      exact hindices
    · intro row hrow
      obtain ⟨before, hbefore, rfl⟩ := List.mem_map.mp hrow
      split
      · exact hpos before hbefore
      · exact hpos before hbefore

end SeedDerivedKeys

/-- The tables of the discovery. -/
structure SeedDb where
  imports : ImportDb
  seedKeys : SeedDerivedKeys
  notes : Notes
  discoveryComplete : Bool
  seedKeyScanReplay : Bool

/-! ## Adding accounts -/

/-- `upsert_account_key`: the row's id and the table. -/
def AccountKeys.upsert (id : Option Nat) (key : AccountKey) (keys : AccountKeys) :
    Nat × AccountKeys :=
  match id with
  | some id => (id, keys.update id key)
  | none => (keys.nextId, keys.insert key)

/-- An account for `insert_seed_derived_accounts`: its index, and the key with its row id, if
it is stored already. -/
abbrev SeedAccount := Nat × Option Nat × AccountKey

/-- The loop of `insert_seed_derived_accounts`, with the tables as they are where it ends. -/
def SeedDb.insertLoop (accountId : Int) :
    Nat → List SeedAccount → SeedDb → Except StorageError (List Nat) × SeedDb
  | _, [], db => (.ok [], db)
  | expected, (derivationIndex, id, key) :: rest, db =>
    if u32Max < expected then (.error (.storage "ZIP-32 account index overflow"), db)
    else if derivationIndex ≠ expected ∨ key.accountId ≠ accountId then
      (.error (.storage "Seed accounts must be consecutive and belong to the target wallet"), db)
    else
      let (keyId, keys) := db.imports.keys.upsert id key
      let stored := { db with imports := { db.imports with keys := keys } }
      match stored.seedKeys.upsert keyId accountId derivationIndex false with
      | .error error => (.error error, stored)
      | .ok seedKeys =>
        let (result, after) :=
          SeedDb.insertLoop accountId (expected + 1) rest { stored with seedKeys := seedKeys }
        (result.map (fun keyIds => keyId :: keyIds), after)

/-- `MAX(derivation_index)` of an account. -/
def SeedDerivedKeys.maxIndex (accountId : Int) (table : SeedDerivedKeys) : Option Nat :=
  match (table.rowsOf accountId).map (·.derivationIndex) with
  | [] => none
  | first :: rest => some (rest.foldl max first)

/-- `insert_seed_derived_accounts`. Inside an outer transaction nothing is rolled back on an
error; `refused` says that the database refuses a statement after the loop. -/
def SeedDb.insertSeedDerivedAccounts (accountId : Int) (expectedPreviousIndex : Option Nat)
    (accounts : List SeedAccount) (joined refused : Bool) (db : SeedDb) :
    Except StorageError (List Nat) × SeedDb :=
  if accounts.isEmpty then (.ok [], db)
  else if (db.seedKeys.maxIndex accountId).any (fun index => decide (u32Max < index)) then
    (.error (.storage "Invalid seed-derived account index"), db)
  else if db.seedKeys.maxIndex accountId ≠ expectedPreviousIndex then
    (.error (.storage "Seed account sequence changed while accounts were being prepared; retry the operation"), db)
  else match db.insertLoop accountId (min (expectedPreviousIndex.getD 0 + 1) u32Max) accounts with
    | (.error error, after) => (.error error, if joined then after else db)
    | (.ok keyIds, after) =>
      if refused then (.error refusedStatement, if joined then after else db)
      else (.ok keyIds, { after with seedKeyScanReplay := true })

/-! ## Preparation -/

/-- What preparation needs of `WalletSecret`: the account, whether there is a spending key,
and, if there is a mnemonic, the Sapling keys of its accounts, the spending key and the
viewing key. -/
structure SeedSecret where
  accountId : Int
  hasExtsk : Bool
  derive : Option (Nat → Except StorageError (Bytes × Bytes))

structure SeedAccountDiscoveryPreparation where
  candidatesAdded : Nat
  existingKeysLinked : Nat
  candidateCount : Nat
deriving DecidableEq, Repr

/-- The statement of a preparation that the database refuses, if one is. -/
inductive PrepareFault where
  | read
  | key (derivationIndex : Nat)
  | provenance (derivationIndex : Nat)
  | count
deriving DecidableEq, Repr

/-- `LEGACY_SAPLING_ACCOUNT_GAP_LIMIT`. -/
def gapLimit : Nat := 5

/-- The key of a seed account that is not stored yet. -/
def candidateKey (accountId : Int) (derivationIndex : Nat) (birthdayHeight createdAt : Int)
    (keys : Bytes × Bytes) : AccountKey where
  accountId := accountId
  keyType := .importSpend
  keyScope := .account
  label := some s!"Seed account {derivationIndex}"
  birthdayHeight := birthdayHeight
  createdAt := createdAt
  spendable := true
  saplingExtsk := some keys.1
  saplingDfvk := some keys.2
  orchardExtsk := none
  orchardFvk := none
  encryptedMnemonic := none

/-- `existing_by_extsk`: of several rows with a key the last one read counts. -/
def AccountKeys.idByExtsk (accountId : Int) (extsk : Bytes) (keys : AccountKeys) : Option Nat :=
  ((keys.ofAccount accountId).reverse.find? (fun row => row.saplingExtsk == some extsk)).map (·.id)

/-- The body of the loop of `prepare_legacy_sapling_account_discovery` for an index that is not
recorded: whether a stored key was linked, and the tables where it ends. `stored` are the keys
as they were at the start. -/
def SeedDb.prepareIndex (derive : Nat → Except StorageError (Bytes × Bytes)) (accountId : Int)
    (birthdayHeight createdAt : Int) (stored : AccountKeys) (fault : Option PrepareFault)
    (derivationIndex : Nat) (db : SeedDb) : Except StorageError Bool × SeedDb :=
  match derive derivationIndex with
  | .error error => (.error error, db)
  | .ok derived =>
    match stored.idByExtsk accountId derived.1 with
    | some keyId =>
      if fault = some (.provenance derivationIndex) then (.error refusedStatement, db)
      -- a key the user imported before the discovery is never a candidate
      else match db.seedKeys.upsert keyId accountId derivationIndex false with
        | .error error => (.error error, db)
        | .ok seedKeys => (.ok true, { db with seedKeys := seedKeys })
    | none =>
      if fault = some (.key derivationIndex) then (.error refusedStatement, db)
      else
        let keyId := db.imports.keys.nextId
        let keys := db.imports.keys.insert
          (candidateKey accountId derivationIndex birthdayHeight createdAt derived)
        let inserted := { db with imports := { db.imports with keys := keys } }
        if fault = some (.provenance derivationIndex) then (.error refusedStatement, inserted)
        else match inserted.seedKeys.upsert keyId accountId derivationIndex true with
          | .error error => (.error error, inserted)
          | .ok seedKeys => (.ok false, { inserted with seedKeys := seedKeys })

/-- The loop of `prepare_legacy_sapling_account_discovery`: how many candidates were added and
how many stored keys were linked. -/
def SeedDb.prepareLoop (derive : Nat → Except StorageError (Bytes × Bytes)) (accountId : Int)
    (birthdayHeight createdAt : Int) (stored : AccountKeys) (recorded : List Nat)
    (fault : Option PrepareFault) :
    List Nat → SeedDb → Except StorageError (Nat × Nat) × SeedDb
  | [], db => (.ok (0, 0), db)
  | derivationIndex :: rest, db =>
    if derivationIndex ∈ recorded then
      db.prepareLoop derive accountId birthdayHeight createdAt stored recorded fault rest
    else match db.prepareIndex derive accountId birthdayHeight createdAt stored fault
        derivationIndex with
      | (.error error, after) => (.error error, after)
      | (.ok linked, after) =>
        let (result, final) := after.prepareLoop derive accountId birthdayHeight createdAt stored
          recorded fault rest
        (result.map (fun (added, existing) =>
          if linked then (added, existing + 1) else (added + 1, existing)), final)

/-- The indices a preparation records: `1..=LEGACY_SAPLING_ACCOUNT_GAP_LIMIT`. -/
def lookaheadIndices : List Nat := (List.range gapLimit).map (· + 1)

/-- `prepare_legacy_sapling_account_discovery`: what was prepared, nothing if there was nothing
to do. -/
def SeedDb.prepareLegacySaplingAccountDiscovery (secret : SeedSecret)
    (birthdayHeight createdAt : Int) (fault : Option PrepareFault) (db : SeedDb) :
    Except StorageError (Option SeedAccountDiscoveryPreparation) × SeedDb :=
  match secret.hasExtsk, secret.derive with
  | true, some derive =>
    if db.discoveryComplete then (.ok none, db)
    else match fault, db.seedKeys.ofAccount secret.accountId with
      | some .read, _ => (.error refusedStatement, db)
      | _, .error error => (.error error, db)
      | _, .ok metadata =>
        match db.prepareLoop derive secret.accountId birthdayHeight createdAt db.imports.keys
            (metadata.map (·.derivationIndex)) fault lookaheadIndices with
        | (.error error, after) => (.error error, after)
        | (.ok (added, linked), after) =>
          if fault = some .count then (.error refusedStatement, after)
          else match after.seedKeys.ofAccount secret.accountId with
            | .error error => (.error error, after)
            | .ok metadata =>
              (.ok (some ⟨added, linked, metadata.countP (·.isDiscoveryCandidate)⟩), after)
  | _, _ => (.ok none, db)

/-! ## Finalization -/

structure SeedAccountDiscoveryFinalization where
  retained : Nat
  retired : Nat
  highestUsedIndex : Option Nat
deriving DecidableEq, Repr

/-- One candidate of `finalize_legacy_sapling_account_discovery`: kept if a note uses it,
deleted otherwise. -/
def SeedDb.settleCandidate (usedKeyIds : List Int) (candidate : SeedDerivedRow)
    (outcome : SeedAccountDiscoveryFinalization × SeedDb) :
    SeedAccountDiscoveryFinalization × SeedDb :=
  let (counted, db) := outcome
  if (candidate.keyId : Int) ∈ usedKeyIds then
    ({ counted with
        retained := counted.retained + 1
        highestUsedIndex := some (match counted.highestUsedIndex with
          | none => candidate.derivationIndex
          | some current => max current candidate.derivationIndex) },
      { db with seedKeys := db.seedKeys.retainKey candidate.keyId })
  else
    ({ counted with retired := counted.retired + 1 },
      { db with
        seedKeys := db.seedKeys.deleteKey candidate.keyId
        imports := { db.imports with
          keys := db.imports.keys.deleteWhere (fun row => row.id == candidate.keyId) } })

/-- `finalize_legacy_sapling_account_discovery`. `stopsAfter` is the number of candidates after
which the database refuses a statement, if it refuses one; inside an outer transaction what was
done by then is not rolled back. -/
def SeedDb.finalizeLegacySaplingAccountDiscovery (accountId : Int) (joined : Bool)
    (stopsAfter : Option Nat) (db : SeedDb) :
    Except StorageError SeedAccountDiscoveryFinalization × SeedDb :=
  if db.discoveryComplete then (.ok ⟨0, 0, none⟩, db)
  else match db.seedKeys.ofAccount accountId with
    | .error error => (.error error, db)
    | .ok metadata =>
      -- an account without records has not been prepared
      if metadata.isEmpty then (.ok ⟨0, 0, none⟩, db)
      else
        let candidates := metadata.filter (·.isDiscoveryCandidate)
        let usedKeyIds := (db.notes.ofAccount accountId).filterMap (·.keyId)
        match stopsAfter with
        | some count =>
          (.error refusedStatement, if joined then
            ((candidates.take count).foldl (fun outcome candidate =>
              SeedDb.settleCandidate usedKeyIds candidate outcome) (⟨0, 0, none⟩, db)).2 else db)
        | none =>
          let (counted, settled) := candidates.foldl (fun outcome candidate =>
            SeedDb.settleCandidate usedKeyIds candidate outcome) (⟨0, 0, none⟩, db)
          (.ok counted, { settled with discoveryComplete := true })

end StashiWallet
