import StashiWallet.KeyImportRuns
import StashiWallet.ProtectedKeys

/-!
# What a locked session leaves alone

While the session of a protected account is locked, a row of the account shows nothing of what its
envelopes hold. A call that has spending material to write for the account is refused by the
encryption (`encryptAccountKeyFields_locked`), so a call that writes over a row of the account found
nothing to encrypt, and puts NULL in the place of what the row holds. `Meets` says which calls do
not write over a row that holds something; in their runs such a row stays as it is, and shows later
what it showed before (`envelopes_survive`).
-/

namespace StashiWallet

open Runs

/-- The key has a spending key, of either pool. -/
def AccountKey.hasSpendingKey (key : AccountKey) : Bool :=
  key.saplingExtsk.isSome || key.orchardExtsk.isSome

section Calls

variable {K : Type} (cipher : BlobCipher K) (masterKey : K) (sessions : Sessions K)
  (material : KeyMaterial) (account : Int)

/-- The account is protected and its wallet's session is locked. -/
def SigningDb.Locked (db : SigningDb) : Prop :=
  ∃ walletId, db.protectedWalletForAccount account = some walletId ∧ sessions walletId = none

/-- The calls of the key operations. -/
inductive KeyCall where
  | reconcile (secret : WalletSecret) (birthdayHeight : Int)
  | importVerified (key : AccountKey) (address : Address) (now reasonCode : String) (joined : Bool)
  | importGroup (key : AccountKey) (now reasonCode : String)
  | insertSeedAccounts (accountId : Int) (expectedPreviousIndex : Option Nat)
      (accounts : List SeedAccount) (joined : Bool)
  | upsertReadBack (keyId : Nat)
  | remove (accountId : Int) (keyId : Nat)

/-- The call is made inside an outer transaction, which has to roll back for it. -/
def KeyCall.joined : KeyCall → Bool
  | .importVerified _ _ _ _ joined => joined
  | .insertSeedAccounts _ _ _ joined => joined
  | _ => false

/-- The row is the one the call is to remove. -/
def KeyCall.Removes (call : KeyCall) (keyId : Nat) : Prop :=
  ∃ accountId, call = .remove accountId keyId

/-- A result that leaves the tables as they were on an error. -/
def settleKeys (db : SigningDb) : Except KeyError SigningDb → Option KeyError × SigningDb
  | .error error => (some error, db)
  | .ok after => (none, after)

/-- The error of a result that comes with the tables. -/
def errorOf {α : Type} : Except KeyError α × SigningDb → Option KeyError × SigningDb
  | (.error error, after) => (some error, after)
  | (.ok _, after) => (none, after)

/-- A call: its error, if any, and the tables. -/
def SigningDb.call (db : SigningDb) : KeyCall → Option KeyError × SigningDb
  | .reconcile secret birthdayHeight =>
    settleKeys db ((db.reconcilePrimarySeedAccountKey cipher masterKey sessions material secret
      birthdayHeight).map (·.2))
  | .importVerified key address now reasonCode joined =>
    errorOf (db.importVerifiedSpendingKey cipher masterKey sessions material key address now
      reasonCode joined)
  | .importGroup key now reasonCode =>
    settleKeys db ((db.importSpendingKeyWithRescan cipher masterKey sessions material key now
      reasonCode).map (·.2))
  | .insertSeedAccounts accountId expectedPreviousIndex accounts joined =>
    errorOf (db.insertSeedDerivedAccounts accountId expectedPreviousIndex accounts joined)
  | .upsertReadBack keyId => settleKeys db (db.upsertReadBack cipher masterKey sessions keyId)
  | .remove accountId keyId =>
    settleKeys db (db.removeImportedSpendingKey cipher masterKey sessions material accountId keyId)

def SigningDb.afterCall (db : SigningDb) (call : KeyCall) : SigningDb :=
  (db.call cipher masterKey sessions material call).2

/-- The call does not write over a row of the account that holds something: of a key read back
something is shown, for which the write is refused; accounts are not inserted under the id of such a
row; and if a row shows the key of the secret, so do the other seed rows show a spending key. -/
def Meets (db : SigningDb) : KeyCall → Prop
  | .upsertReadBack keyId => ∀ row ∈ db.keys.rows, row.id = keyId → row.accountId = account →
      row.hasSpending = true → ∀ key, revealKey cipher masterKey sessions row = .ok key →
        key.hasSpending = true
  | .insertSeedAccounts _ _ accounts _ => ∀ entry ∈ accounts, ∀ id ∈ entry.2.1,
      ∀ row ∈ db.keys.rows, row.id = id → row.accountId = account → row.hasSpending = false
  | .reconcile secret _ => secret.accountId = account →
      ∀ keys, db.getAccountKeys cipher masterKey sessions account = .ok keys →
      ∀ canonical, keys.find? (secret.isCanonical material) = some canonical →
      ∀ row ∈ db.keys.rows, row.accountId = account → row.keyType = .seed →
        row.keyScope = .account → row.id ≠ canonical.id → row.hasSpending = true →
        ∀ key, revealKey cipher masterKey sessions row = .ok key → key.hasSpendingKey = true
  | _ => True

end Calls

/-! ## Reading and writing rows -/

section Rows

variable {K : Type} {cipher : BlobCipher K} {masterKey : K} {sessions : Sessions K}
  {material : KeyMaterial} {account : Int} {db : SigningDb}

/-- What a fallible map yields stems from its list. -/
theorem mem_of_mapM {ε α β : Type} {f : α → Except ε β} {xs : List α} {ys : List β}
    (h : xs.mapM f = .ok ys) {y : β} (hy : y ∈ ys) : ∃ x ∈ xs, f x = .ok y := by
  induction xs generalizing ys with
  | nil =>
    rw [List.mapM_nil] at h
    cases h
    cases hy
  | cons x xs ih =>
    rw [List.mapM_cons] at h
    obtain ⟨first, hfirst, h⟩ := bind_eq_ok h
    obtain ⟨rest, hrest, h⟩ := bind_eq_ok h
    cases h
    rcases List.mem_cons.mp hy with rfl | hmem
    · exact ⟨x, List.mem_cons_self, hfirst⟩
    · obtain ⟨x', hx', hy'⟩ := ih hrest hmem
      exact ⟨x', List.mem_cons_of_mem _ hx', hy'⟩

/-- A row read is the row itself but for the columns that were decrypted. -/
theorem revealKey_same {row key : AccountKeyRow}
    (h : revealKey cipher masterKey sessions row = .ok key) :
    key.id = row.id ∧ key.accountId = row.accountId ∧ key.keyType = row.keyType ∧
      key.keyScope = row.keyScope := by
  unfold revealKey at h
  obtain ⟨saplingExtsk, -, h⟩ := bind_eq_ok h
  obtain ⟨saplingDfvk, -, h⟩ := bind_eq_ok h
  obtain ⟨orchardExtsk, -, h⟩ := bind_eq_ok h
  obtain ⟨orchardFvk, -, h⟩ := bind_eq_ok h
  obtain ⟨encryptedMnemonic, -, h⟩ := bind_eq_ok h
  cases h
  exact ⟨rfl, rfl, rfl, rfl⟩

variable {accountId : Int} {keys : List AccountKeyRow}

theorem stored_of_read (h : db.getAccountKeys cipher masterKey sessions accountId = .ok keys)
    {key : AccountKeyRow} (hkey : key ∈ keys) : ∃ row ∈ db.keys.rows, row.accountId = accountId ∧
      revealKey cipher masterKey sessions row = .ok key := by
  obtain ⟨row, hrow, hread⟩ := mem_of_mapM h hkey
  obtain ⟨hmem, haccount⟩ := List.mem_filter.mp hrow
  exact ⟨row, hmem, beq_iff_eq.mp haccount, hread⟩

theorem stored_of_readById {keyId : Nat} {key : AccountKeyRow}
    (h : db.getAccountKeyById cipher masterKey sessions keyId = .ok (some key)) :
    ∃ row ∈ db.keys.rows, row.id = keyId ∧ revealKey cipher masterKey sessions row = .ok key := by
  unfold SigningDb.getAccountKeyById at h
  cases hfind : db.keys.rows.find? (fun row => row.id == keyId) with
  | none =>
    rw [hfind] at h
    cases h
  | some row =>
    rw [hfind, Option.mapM_some] at h
    obtain ⟨read, hread, h⟩ := bind_eq_ok h
    cases h
    have hid := List.find?_some hfind
    exact ⟨row, List.mem_of_find?_eq_some hfind, beq_iff_eq.mp hid, hread⟩

/-- Writing a row leaves the rows with other ids as they are. -/
theorem mem_upsertAccountKey {row : AccountKeyRow} {id : Option Nat} (key : AccountKey)
    (hrow : row ∈ db.keys.rows) (hne : ∀ written ∈ id, row.id ≠ written) :
    row ∈ (db.upsertAccountKey id key).2.keys.rows := by
  cases id with
  | none => exact List.mem_append_left _ hrow
  | some id =>
    refine List.mem_map.mpr ⟨row, hrow, if_neg ?_⟩
    exact fun heq => hne id rfl (beq_iff_eq.mp heq)

theorem mem_writeUpdates {row : AccountKeyRow} {updates : List (Nat × AccountKey)}
    (hrow : row ∈ db.keys.rows) (hne : ∀ update ∈ updates, row.id ≠ update.1) :
    row ∈ (db.writeUpdates updates).keys.rows := by
  induction updates generalizing db with
  | nil => exact hrow
  | cons update updates ih =>
    refine ih (mem_upsertAccountKey _ hrow fun written hwritten => ?_)
      (fun later hlater => hne later (List.mem_cons_of_mem _ hlater))
    rw [← Option.some.inj hwritten]
    exact hne update List.mem_cons_self

/-! ## What a locked session refuses -/

/-- The wallet that protects an account has a record. -/
theorem getSigningProtection_of_account {walletId : String}
    (h : db.protectedWalletForAccount account = some walletId) :
    (db.getSigningProtection walletId).isSome = true := by
  unfold SigningDb.protectedWalletForAccount at h
  obtain ⟨record, hfind, rfl⟩ := Option.map_eq_some_iff.mp h
  unfold SigningDb.getSigningProtection
  rw [List.find?_isSome]
  exact ⟨record, List.mem_of_find?_eq_some hfind, beq_self_eq_true _⟩

/-- **No spending material is encrypted for a locked account.** -/
theorem encryptOptionalSpendingBlobForAccount_locked (hlocked : db.Locked sessions account)
    (value : Bytes) : ∃ error, db.encryptOptionalSpendingBlobForAccount cipher masterKey sessions
      account (some value) = .error error := by
  obtain ⟨walletId, hprotected, hsession⟩ := hlocked
  have hrecord : (db.getSigningProtection walletId).isSome = true :=
    getSigningProtection_of_account hprotected
  unfold SigningDb.encryptOptionalSpendingBlobForAccount
  rw [hprotected]
  dsimp only
  unfold SigningDb.encryptSpendingBlobForWallet
  rw [if_pos hrecord]
  unfold protectForActiveSession
  rw [hsession]
  exact ⟨_, rfl⟩

variable {key : AccountKey}

theorem encryptAccountKeyFields_locked (hlocked : db.Locked sessions account)
    (haccount : key.accountId = account) (hspending : key.hasSpending = true) :
    ∃ error, db.encryptAccountKeyFields cipher masterKey sessions key = .error error := by
  cases hresult : db.encryptAccountKeyFields cipher masterKey sessions key with
  | error error => exact ⟨error, rfl⟩
  | ok encrypted =>
    exfalso
    unfold SigningDb.encryptAccountKeyFields at hresult
    rw [haccount] at hresult
    obtain ⟨saplingExtsk, hsapling, hresult⟩ := bind_eq_ok hresult
    obtain ⟨orchardExtsk, horchard, hresult⟩ := bind_eq_ok hresult
    obtain ⟨encryptedMnemonic, hmnemonic, -⟩ := bind_eq_ok hresult
    have hnone : ∀ {column : Option Bytes} {encrypted : Option Bytes},
        db.encryptOptionalSpendingBlobForAccount cipher masterKey sessions account column =
          .ok encrypted → column.isSome = false := by
      intro column encrypted h
      cases column with
      | none => rfl
      | some value =>
        obtain ⟨error, herror⟩ : ∃ error, db.encryptOptionalSpendingBlobForAccount cipher masterKey
            sessions account (some value) = .error error :=
          encryptOptionalSpendingBlobForAccount_locked hlocked value
        rw [herror] at h
        cases h
    unfold AccountKey.hasSpending at hspending
    rw [hnone hsapling, hnone horchard, hnone hmnemonic] at hspending
    cases hspending

/-! ## The calls -/

theorem isSome_of_sameMaterial {read : Bytes → Option Bytes} {left right : Option Bytes}
    (h : sameMaterial read left right = true) : left.isSome = right.isSome := by
  cases left with
  | none =>
    cases right with
    | none => rfl
    | some right => cases h
  | some left =>
    cases right with
    | none => cases h
    | some right => rfl

/-- A row of the account is not the stored row of a key of another account. -/
theorem id_ne_of_account {row stored : AccountKeyRow} (hrow : row ∈ db.keys.rows)
    (hstored : stored ∈ db.keys.rows) (hne : stored.accountId ≠ row.accountId) :
    row.id ≠ stored.id := by
  intro hid
  rw [AutoTable.row_eq_of_id hrow hstored hid] at hne
  exact hne rfl

/-- What is written while the account is locked, and has spending material, is written for another
account. -/
theorem account_ne_of_encrypted (hlocked : db.Locked sessions account) {key encrypted : AccountKey}
    (h : db.encryptAccountKeyFields cipher masterKey sessions key = .ok encrypted)
    (hspending : key.hasSpending = true) : key.accountId ≠ account := by
  intro haccount
  obtain ⟨error, herror⟩ : ∃ error,
      db.encryptAccountKeyFields cipher masterKey sessions key = .error error :=
    encryptAccountKeyFields_locked hlocked haccount hspending
  rw [herror] at h
  cases h

variable {after : SigningDb} {now reasonCode : String}

theorem requireReplay_keys {birthday : Int}
    (h : db.requireReplay now reasonCode birthday = .ok after) : after.keys = db.keys := by
  unfold SigningDb.requireReplay at h
  split at h
  · cases h
  · rename_i imports himports
    cases h
    obtain ⟨row, -, rfl⟩ := requireReplay_eq_ok himports
    rfl

/-- Refreshing the viewing keys leaves the spending keys alone. -/
theorem refresh_same {refreshed : Bool × AccountKey}
    (h : refreshAccountKeyViewingMaterial material key = .ok refreshed) :
    refreshed.2.hasSpendingKey = key.hasSpendingKey ∧ refreshed.2.accountId = key.accountId := by
  unfold refreshAccountKeyViewingMaterial at h
  obtain ⟨⟨saplingChanged, sapling⟩, hsapling, h⟩ := bind_eq_ok h
  obtain ⟨⟨ironwoodChanged, ironwood⟩, hironwood, h⟩ := bind_eq_ok h
  cases h
  have hfirst : sapling.hasSpendingKey = key.hasSpendingKey ∧ sapling.accountId = key.accountId := by
    unfold refreshSapling at hsapling
    split at hsapling
    · cases hsapling
      exact ⟨rfl, rfl⟩
    · obtain ⟨dfvk, -, hsapling⟩ := bind_eq_ok hsapling
      cases hsapling
      exact ⟨rfl, rfl⟩
  have hsecond : ironwood.hasSpendingKey = sapling.hasSpendingKey ∧
      ironwood.accountId = sapling.accountId := by
    unfold refreshIronwood at hironwood
    split at hironwood
    · cases hironwood
      exact ⟨rfl, rfl⟩
    · obtain ⟨fvk, -, hironwood⟩ := bind_eq_ok hironwood
      split at hironwood
      · cases hironwood
        exact ⟨rfl, rfl⟩
      · cases hironwood
        exact ⟨rfl, rfl⟩
  exact ⟨hsecond.1.trans hfirst.1, hsecond.2.trans hfirst.2⟩

/-- What a plan writes: the row of the seed, with its spending keys, and older seed rows. -/
theorem mem_updates_of_plan {secret : WalletSecret} {birthdayHeight : Int} {plan : SeedPlan}
    (h : planReconcile material secret birthdayHeight keys = .ok plan) {update : Nat × AccountKey}
    (hupdate : update ∈ plan.updates) :
    (∃ canonical, keys.find? (secret.isCanonical material) = some canonical ∧
      update.1 = canonical.id ∧ update.2.accountId = canonical.accountId ∧
      update.2.saplingExtsk = canonical.saplingExtsk) ∨
    ∃ key ∈ otherSeeds (keys.find? (secret.isCanonical material)) keys, update.1 = key.id ∧
      update.2.accountId = key.accountId ∧ update.2.hasSpendingKey = key.hasSpendingKey := by
  unfold planReconcile at h
  split at h
  · cases h
  obtain ⟨dfvk, -, h⟩ := bind_eq_ok h
  obtain ⟨fvk, -, h⟩ := bind_eq_ok h
  obtain ⟨previous, hprevious, h⟩ := bind_eq_ok h
  cases h
  rcases List.mem_append.mp hupdate with hseed | hother
  · left
    cases hfind : keys.find? (secret.isCanonical material) with
    | none =>
      rw [hfind] at hseed
      cases hseed
    | some canonical =>
      rw [hfind] at hseed
      unfold planSeed at hseed
      dsimp only at hseed
      split at hseed
      · rw [List.mem_singleton] at hseed
        rw [hseed]
        exact ⟨canonical, rfl, rfl, rfl, rfl⟩
      · cases hseed
  · right
    obtain ⟨demoted, hdemoted, rfl⟩ := List.mem_map.mp hother
    obtain ⟨key, hkey, hdemote⟩ := mem_of_mapM hprevious hdemoted
    refine ⟨key, hkey, ?_⟩
    unfold demoteSeed at hdemote
    obtain ⟨refreshed, hrefresh, hdemote⟩ := bind_eq_ok hdemote
    cases hdemote
    obtain ⟨hspending, haccount⟩ := refresh_same hrefresh
    exact ⟨rfl, haccount, hspending⟩

/-- Without a row of the seed there is one to insert, with the keys of the secret. -/
theorem newSeed_of_plan {secret : WalletSecret} {birthdayHeight : Int} {plan : SeedPlan}
    (h : planReconcile material secret birthdayHeight keys = .ok plan)
    (hnone : keys.find? (secret.isCanonical material) = none) :
    ∃ key, plan.newSeed = some key ∧ key.accountId = secret.accountId ∧
      key.hasSpending = true := by
  unfold planReconcile at h
  split at h
  · cases h
  obtain ⟨dfvk, -, h⟩ := bind_eq_ok h
  obtain ⟨fvk, -, h⟩ := bind_eq_ok h
  obtain ⟨previous, -, h⟩ := bind_eq_ok h
  cases h
  rw [hnone]
  exact ⟨_, rfl, rfl, rfl⟩

variable {address : Address}

/-- The key of a verified import is of exactly one pool. -/
theorem pools_of_verifyArguments (h : verifyArguments key address = .ok ()) :
    key.saplingOnly = true ∨ key.ironwoodOnly = true := by
  unfold verifyArguments at h
  by_contra hnot
  rw [not_or, Bool.not_eq_true, Bool.not_eq_true] at hnot
  by_cases hmetadata : key.keyType ≠ .importSpend ∨ key.keyScope ≠ .account ∨
      (!key.spendable) = true ∨ key.birthdayHeight ≤ 0
  · rw [if_pos hmetadata] at h
    cases h
  · rw [if_neg hmetadata, hnot.1, hnot.2] at h
    cases h

variable {accounts : List SeedAccount}

theorem mem_insertLoop {expected : Nat} {stored : SeedDb} {row : AccountKeyRow}
    (hrow : row ∈ stored.imports.keys.rows)
    (hne : ∀ entry ∈ accounts, ∀ id ∈ entry.2.1, row.id ≠ id) :
    row ∈ (stored.insertLoop accountId expected accounts).2.imports.keys.rows := by
  induction accounts generalizing expected stored with
  | nil => exact hrow
  | cons entry rest ih =>
    obtain ⟨derivationIndex, id, key⟩ := entry
    unfold SeedDb.insertLoop
    split
    · exact hrow
    split
    · exact hrow
    have hupserted : row ∈ (stored.imports.keys.upsert id key).2.rows := by
      have hfirst := hne _ List.mem_cons_self
      cases id with
      | none => exact List.mem_append_left _ hrow
      | some id =>
        refine List.mem_map.mpr ⟨row, hrow, if_neg ?_⟩
        exact fun heq => hfirst id rfl (beq_iff_eq.mp heq)
    dsimp only
    split
    · exact hupserted
    · exact ih hupserted fun later hlater => hne later (List.mem_cons_of_mem _ hlater)

theorem mem_insertSeedDerivedAccounts (accountId : Int) (expectedPreviousIndex : Option Nat)
    (joined : Bool) {row : AccountKeyRow} (hrow : row ∈ db.keys.rows)
    (hne : ∀ entry ∈ accounts, ∀ id ∈ entry.2.1, row.id ≠ id) :
    row ∈ (db.stored.insertSeedDerivedAccounts accountId expectedPreviousIndex accounts joined
      false).2.imports.keys.rows := by
  have hloop : row ∈ (db.stored.insertLoop accountId
      (min (expectedPreviousIndex.getD 0 + 1) u32Max) accounts).2.imports.keys.rows :=
    mem_insertLoop hrow hne
  unfold SeedDb.insertSeedDerivedAccounts
  split
  · exact hrow
  split
  · exact hrow
  split
  · exact hrow
  split
  · rename_i error after hafter
    rw [hafter] at hloop
    cases joined with
    | false => exact hrow
    | true => exact hloop
  · rename_i keyIds after hafter
    rw [hafter] at hloop
    exact hloop

/-- A removal that succeeds has looked at the intents and at the notes of the account, and ends with
the deletions. -/
theorem deleteKey_of_remove {keyId : Nat}
    (h : db.removeImportedSpendingKey cipher masterKey sessions material accountId keyId =
      .ok after) :
    ∃ activeKeyIds expired noteIds, db.expiredUnconfirmedTxids accountId = .ok expired ∧
      db.notesOfKey accountId keyId activeKeyIds expired
        (db.stored.notes.rows.filter (fun note => note.accountId == accountId)) = .ok noteIds ∧
      db.deleteKey accountId keyId noteIds = .ok after := by
  unfold SigningDb.removeImportedSpendingKey at h
  dsimp only at h
  obtain ⟨found, -, h⟩ := bind_eq_ok h
  cases found with
  | none => cases h
  | some key =>
    dsimp only at h
    split at h
    · cases h
    obtain ⟨seedKeys, -, h⟩ := bind_eq_ok h
    split at h
    · cases h
    obtain ⟨accountKeys, -, h⟩ := bind_eq_ok h
    split at h
    · cases h
    split at h
    · cases h
    obtain ⟨expired, hexpired, h⟩ := bind_eq_ok h
    obtain ⟨noteIds, hnotes, h⟩ := bind_eq_ok h
    exact ⟨accountKeys.map (·.id), expired, noteIds, hexpired, hnotes, h⟩

/-- The deletions, where they succeed: one key row goes, with the addresses of the key, their
preferences and the notes. -/
theorem deleteKey_eq_ok {keyId : Nat} {noteIds : List Nat}
    (h : db.deleteKey accountId keyId noteIds = .ok after) :
    (db.keys.rows.filter (fun row => row.id == keyId && row.accountId == accountId &&
        row.keyType == .importSpend)).length = 1 ∧
    ∃ addresses : AddressTable,
      addresses.rows = db.stored.imports.addresses.rows.filter (fun row =>
        !(row.accountId == accountId && row.keyId == some (keyId : Int))) ∧
      after = { db with
        stored := { db.stored with
          imports := { db.stored.imports with
            keys := db.keys.deleteWhere (fun row => row.id == keyId &&
              row.accountId == accountId && row.keyType == .importSpend)
            addresses := addresses }
          notes := db.stored.notes.deleteWhere fun note => noteIds.contains note.id }
        displayPreferences := db.displayPreferences.filter fun id =>
          !((db.stored.imports.addresses.rows.filter (fun row => row.accountId == accountId &&
            row.keyId == some (keyId : Int))).map (fun row => (row.id : Int))).contains id } := by
  unfold SigningDb.deleteKey at h
  obtain ⟨addresses, haddresses, h⟩ := bind_eq_ok h
  dsimp only at h
  split at h
  · cases h
  · rename_i hone
    cases h
    exact ⟨not_not.mp hone, addresses,
      AddressTable.write_eq_ok (mapError_eq_ok haddresses), rfl⟩

section Locked

variable (hlocked : db.Locked sessions account) {row : AccountKeyRow}
  (hrow : row ∈ db.keys.rows) (haccount : row.accountId = account)

include hlocked hrow haccount

theorem importSpendingKeyWithRescan_keeps {key : AccountKey} {now reasonCode : String} {id : Nat}
    {after : SigningDb}
    (h : db.importSpendingKeyWithRescan cipher masterKey sessions material key now reasonCode =
      .ok (id, after)) : row ∈ after.keys.rows := by
  unfold SigningDb.importSpendingKeyWithRescan at h
  split at h
  · cases h
  rename_i hvalid
  obtain ⟨keys, hkeys, h⟩ := bind_eq_ok h
  obtain ⟨encrypted, hencrypted, h⟩ := bind_eq_ok h
  obtain ⟨recorded, hrecorded, h⟩ := bind_eq_ok h
  cases h
  rw [requireReplay_keys hrecorded]
  have hshows : key.saplingExtsk.isSome = true ∨ key.orchardExtsk.isSome = true := by
    unfold AccountKey.validImport at hvalid
    simp only [Bool.not_eq_true, Bool.not_eq_false', Bool.and_eq_true, Bool.or_eq_true] at hvalid
    exact hvalid.1.1.2
  refine mem_upsertAccountKey _ hrow fun written hwritten => ?_
  obtain ⟨existing, hfind, rfl⟩ := Option.map_eq_some_iff.mp hwritten
  rw [hfind] at hencrypted
  have hmatches := List.find?_some hfind
  have hspending : (key.mergeGroup material.toIronwoodMaterial existing).hasSpending = true := by
    have horchard := isSome_of_sameMaterial (Bool.and_eq_true_iff.mp hmatches).2
    unfold AccountKey.hasSpending AccountKey.mergeGroup
    dsimp only
    rw [Bool.or_eq_true, Bool.or_eq_true, horchard]
    exact Or.inl hshows
  have hother := account_ne_of_encrypted hlocked hencrypted hspending
  obtain ⟨stored, hstored, hstoredAccount, hread⟩ :=
    stored_of_read hkeys (List.mem_of_find?_eq_some hfind)
  rw [(revealKey_same hread).1]
  refine id_ne_of_account hrow hstored ?_
  rw [hstoredAccount, haccount]
  exact hother

/-- A key that a verified import found shows the material it was found by. -/
theorem storeVerifiedKey_keeps {key : AccountKey} {verified : VerifiedKey} {written : SigningDb}
    (hpools : key.saplingOnly = true ∨ key.ironwoodOnly = true)
    (h : db.storeVerifiedKey cipher masterKey sessions material key = .ok (verified, written)) :
    row ∈ written.keys.rows := by
  have hshows : key.saplingExtsk.isSome = true ∨ key.orchardExtsk.isSome = true := by
    unfold AccountKey.saplingOnly AccountKey.ironwoodOnly at hpools
    simp only [Bool.and_eq_true] at hpools
    exact hpools.imp (fun h => h.1.1.1) (fun h => h.1.1.1)
  unfold SigningDb.storeVerifiedKey at h
  obtain ⟨keys, hkeys, h⟩ := bind_eq_ok h
  split at h
  · rename_i existing hfind
    split at h
    · obtain ⟨encrypted, hencrypted, h⟩ := bind_eq_ok h
      cases h
      have hmatches := List.find?_some hfind
      obtain ⟨stored, hstored, hstoredAccount, hread⟩ :=
        stored_of_read hkeys (List.mem_of_find?_eq_some hfind)
      obtain ⟨hid, hexisting, -, -⟩ := revealKey_same hread
      have hspending :
          (key.mergeVerified material.toIronwoodMaterial existing).hasSpending = true := by
        show (existing.saplingExtsk.isSome || existing.orchardExtsk.isSome ||
          existing.encryptedMnemonic.isSome) = true
        unfold AccountKey.matchesVerified at hmatches
        by_cases hsapling : key.saplingOnly = true
        · rw [if_pos hsapling] at hmatches
          have hsome : key.saplingExtsk.isSome = true := by
            unfold AccountKey.saplingOnly at hsapling
            simp only [Bool.and_eq_true] at hsapling
            exact hsapling.1.1.1
          rw [beq_iff_eq.mp hmatches, hsome, Bool.true_or, Bool.true_or]
        · rw [if_neg hsapling] at hmatches
          have hsome : key.orchardExtsk.isSome = true := by
            have hironwood := hpools.resolve_left hsapling
            unfold AccountKey.ironwoodOnly at hironwood
            simp only [Bool.and_eq_true] at hironwood
            exact hironwood.1.1.1
          rw [isSome_of_sameMaterial hmatches, hsome, Bool.or_true, Bool.true_or]
      have hother : (key.mergeVerified material.toIronwoodMaterial existing).accountId ≠ account :=
        account_ne_of_encrypted hlocked hencrypted hspending
      refine mem_upsertAccountKey _ hrow fun id hwritten => ?_
      rw [← Option.some.inj hwritten, hid]
      refine id_ne_of_account hrow hstored ?_
      rw [← hexisting, haccount]
      exact hother
    · cases h
      exact hrow
  · obtain ⟨encrypted, hencrypted, h⟩ := bind_eq_ok h
    cases h
    exact mem_upsertAccountKey _ hrow fun id hwritten => absurd hwritten (Option.not_mem_none id)

omit hlocked haccount in
theorem fileVerified_keeps {verified : VerifiedKey} {key : AccountKey} {address : Address}
    {index : Index88} {now reasonCode : String} :
    row ∈ (db.fileVerified verified key address index now reasonCode).2.keys.rows := by
  unfold SigningDb.fileVerified
  split
  · exact hrow
  · rename_i imports himports
    have hkeys := (storeVerifiedAddress_eq_ok himports).1
    have hfiled : row ∈ ({ db with stored := { db.stored with imports := imports } } :
        SigningDb).keys.rows := by
      show row ∈ imports.keys.rows
      rw [hkeys]
      exact hrow
    dsimp only
    split
    · exact hfiled
    · rename_i recorded hrecorded
      have hrecorded : recorded.keys = imports.keys := by
        split at hrecorded
        · exact requireReplay_keys hrecorded
        · cases hrecorded
          rfl
      have hkept : row ∈ recorded.keys.rows := by
        rw [hrecorded]
        exact hfiled
      split
      · exact hkept
      · exact hkept

theorem importVerifiedSpendingKey_keeps {key : AccountKey} {address : Address}
    {now reasonCode : String} {joined : Bool} :
    row ∈ (db.importVerifiedSpendingKey cipher masterKey sessions material key address now
      reasonCode joined).2.keys.rows := by
  unfold SigningDb.importVerifiedSpendingKey
  split
  · exact hrow
  · exact hrow
  · rename_i index hverify _
    split
    · exact hrow
    · rename_i verified written hstored
      have hwritten := storeVerifiedKey_keeps hlocked hrow haccount
        (pools_of_verifyArguments hverify) hstored
      have hkept : row ∈
          (written.fileVerified verified key address index now reasonCode).2.keys.rows :=
        fileVerified_keeps hwritten
      split
      · rename_i error after hafter
        rw [hafter] at hkept
        cases joined with
        | false => exact hrow
        | true => exact hkept
      · rename_i result after hafter
        rw [hafter] at hkept
        exact hkept

theorem upsertReadBack_keeps {keyId : Nat} {after : SigningDb}
    (hholds : row.hasSpending = true)
    (hmeets : Meets cipher masterKey sessions material account db (.upsertReadBack keyId))
    (h : db.upsertReadBack cipher masterKey sessions keyId = .ok after) :
    row ∈ after.keys.rows := by
  unfold SigningDb.upsertReadBack at h
  obtain ⟨found, hfound, h⟩ := bind_eq_ok h
  cases found with
  | none => cases h
  | some key =>
    obtain ⟨encrypted, hencrypted, h⟩ := bind_eq_ok h
    cases h
    obtain ⟨stored, hstored, hid, hread⟩ := stored_of_readById hfound
    obtain ⟨hkeyId, hkeyAccount, -, -⟩ := revealKey_same hread
    refine mem_upsertAccountKey _ hrow fun written hwritten heq => ?_
    rw [← Option.some.inj hwritten, hkeyId] at heq
    have hsame : row = stored := AutoTable.row_eq_of_id hrow hstored heq
    have hspending : key.hasSpending = true :=
      hmeets row hrow (heq.trans hid) haccount hholds key (hsame ▸ hread)
    refine account_ne_of_encrypted hlocked hencrypted hspending ?_
    rw [hkeyAccount, ← hsame, haccount]

theorem reconcilePrimarySeedAccountKey_keeps {secret : WalletSecret} {birthdayHeight : Int}
    {result : Nat × Bool} {after : SigningDb} (hholds : row.hasSpending = true)
    (hmeets : Meets cipher masterKey sessions material account db (.reconcile secret birthdayHeight))
    (h : db.reconcilePrimarySeedAccountKey cipher masterKey sessions material secret
      birthdayHeight = .ok (result, after)) : row ∈ after.keys.rows := by
  unfold SigningDb.reconcilePrimarySeedAccountKey at h
  obtain ⟨keys, hkeys, h⟩ := bind_eq_ok h
  obtain ⟨plan, hplan, h⟩ := bind_eq_ok h
  split at h
  · cases h
    exact hrow
  obtain ⟨updates, hupdates, h⟩ := bind_eq_ok h
  obtain ⟨newSeed, hnewSeed, h⟩ := bind_eq_ok h
  have hwritten : row ∈ (db.writeUpdates updates).keys.rows := by
    refine mem_writeUpdates hrow fun encrypted hencrypted heq => ?_
    obtain ⟨update, hupdate, hencrypt⟩ := mem_of_mapM hupdates hencrypted
    obtain ⟨fields, hfields, hencrypt⟩ := bind_eq_ok hencrypt
    cases hencrypt
    have heq : row.id = update.1 := heq
    have hread : ∀ key ∈ keys, row.id = key.id →
        secret.accountId = account ∧ revealKey cipher masterKey sessions row = .ok key := by
      intro key hkey hid
      obtain ⟨stored, hstored, hstoredAccount, hread⟩ := stored_of_read hkeys hkey
      have hsame : row = stored :=
        AutoTable.row_eq_of_id hrow hstored (hid.trans (revealKey_same hread).1)
      rw [hsame]
      refine ⟨?_, hread⟩
      rw [← hstoredAccount, ← hsame, haccount]
    rcases mem_updates_of_plan hplan hupdate with
      ⟨canonical, hfind, hid, hupdateAccount, hsapling⟩ |
        ⟨key, hkey, hid, hupdateAccount, hspendingKey⟩
    · have hcanonical := List.mem_of_find?_eq_some hfind
      obtain ⟨-, hread⟩ := hread canonical hcanonical (heq.trans hid)
      have hspending : update.2.hasSpending = true := by
        have hmatches := List.find?_some hfind
        unfold WalletSecret.isCanonical at hmatches
        simp only [Bool.and_eq_true, beq_iff_eq] at hmatches
        unfold AccountKey.hasSpending
        rw [hsapling, hmatches.1.2]
        rfl
      refine account_ne_of_encrypted hlocked hfields hspending ?_
      rw [hupdateAccount, (revealKey_same hread).2.1, haccount]
    · obtain ⟨hmem, hseed⟩ := List.mem_filter.mp hkey
      obtain ⟨hsecret, hread⟩ := hread key hmem (heq.trans hid)
      obtain ⟨hkeyId, hkeyAccount, hkeyType, hkeyScope⟩ := revealKey_same hread
      simp only [Bool.and_eq_true, beq_iff_eq] at hseed
      cases hfind : keys.find? (secret.isCanonical material) with
      | none =>
        obtain ⟨seed, hseedKey, hseedAccount, hspending⟩ := newSeed_of_plan hplan hfind
        rw [hseedKey, Option.mapM_some] at hnewSeed
        obtain ⟨fields, hfields, -⟩ := bind_eq_ok hnewSeed
        exact account_ne_of_encrypted hlocked hfields hspending (hseedAccount.trans hsecret)
      | some canonical =>
        rw [hfind] at hseed
        have hother := hseed.1.1
        simp only [Option.all_some, bne_iff_ne, ne_eq] at hother
        have hne : row.id ≠ canonical.id := fun heq => hother (heq.symm.trans hkeyId.symm)
        have hshown : key.hasSpendingKey = true :=
          hmeets hsecret keys (hsecret ▸ hkeys) canonical hfind row hrow haccount
            (hkeyType ▸ hseed.1.2) (hkeyScope ▸ hseed.2) hne hholds key hread
        have hspending : update.2.hasSpending = true := by
          rw [← hspendingKey] at hshown
          unfold AccountKey.hasSpending
          exact Bool.or_eq_true_iff.mpr (Or.inl hshown)
        refine account_ne_of_encrypted hlocked hfields hspending ?_
        rw [hupdateAccount, hkeyAccount, haccount]
  cases newSeed with
  | none =>
    cases h
    exact hwritten
  | some seed =>
    cases h
    exact mem_upsertAccountKey _ hwritten fun id hid => absurd hid (Option.not_mem_none id)

omit hlocked in
theorem insertSeedDerivedAccounts_keeps {accountId : Int} {expectedPreviousIndex : Option Nat}
    {accounts : List SeedAccount} {joined : Bool} (hholds : row.hasSpending = true)
    (hmeets : Meets cipher masterKey sessions material account db
      (.insertSeedAccounts accountId expectedPreviousIndex accounts joined)) :
    row ∈ (db.insertSeedDerivedAccounts accountId expectedPreviousIndex accounts
      joined).2.keys.rows := by
  have hne : ∀ entry ∈ accounts, ∀ id ∈ entry.2.1, row.id ≠ id :=
    fun entry hentry id hid heq => by
      have hempty := hmeets entry hentry id hid row hrow heq haccount
      rw [hholds] at hempty
      cases hempty
  have hkept := mem_insertSeedDerivedAccounts accountId expectedPreviousIndex joined hrow hne
  unfold SigningDb.insertSeedDerivedAccounts
  split
  · rename_i error after hafter
    rw [hafter] at hkept
    exact hkept
  · rename_i keyIds after hafter
    rw [hafter] at hkept
    exact hkept

omit hlocked haccount in
theorem removeImportedSpendingKey_keeps {accountId : Int} {keyId : Nat} {after : SigningDb}
    (hne : row.id ≠ keyId)
    (h : db.removeImportedSpendingKey cipher masterKey sessions material accountId keyId =
      .ok after) : row ∈ after.keys.rows := by
  obtain ⟨_, _, noteIds, -, -, hdelete⟩ := deleteKey_of_remove h
  obtain ⟨-, addresses, -, rfl⟩ := deleteKey_eq_ok hdelete
  refine List.mem_filter.mpr ⟨hrow, ?_⟩
  dsimp only
  rw [beq_eq_false_iff_ne.mpr hne]
  rfl

end Locked

/-! ## One call -/

@[simp]
theorem errorOf_snd {α : Type} (result : Except KeyError α × SigningDb) :
    (errorOf result).2 = result.2 := by
  obtain ⟨outcome, after⟩ := result
  cases outcome <;> rfl

/-- **A row that holds something stays as it is**, unless it is removed. -/
theorem call_keeps (hlocked : db.Locked sessions account) {row : AccountKeyRow}
    (hrow : row ∈ db.keys.rows) (haccount : row.accountId = account)
    (hholds : row.hasSpending = true) {call : KeyCall}
    (hmeets : Meets cipher masterKey sessions material account db call)
    (hkept : ¬ call.Removes row.id) :
    row ∈ (db.afterCall cipher masterKey sessions material call).keys.rows := by
  have hsettle : ∀ {α : Type} {result : Except KeyError (α × SigningDb)},
      (∀ value after, result = .ok (value, after) → row ∈ after.keys.rows) →
      row ∈ (settleKeys db (result.map (·.2))).2.keys.rows := by
    intro α result h
    cases result with
    | error error => exact hrow
    | ok done => exact h done.1 done.2 rfl
  cases call with
  | reconcile secret birthdayHeight =>
    exact hsettle fun result after h =>
      reconcilePrimarySeedAccountKey_keeps hlocked hrow haccount hholds hmeets h
  | importVerified key address now reasonCode joined =>
    show row ∈ (errorOf _).2.keys.rows
    rw [errorOf_snd]
    exact importVerifiedSpendingKey_keeps hlocked hrow haccount
  | importGroup key now reasonCode =>
    exact hsettle fun id after h =>
      importSpendingKeyWithRescan_keeps hlocked hrow haccount h
  | insertSeedAccounts accountId expectedPreviousIndex accounts joined =>
    show row ∈ (errorOf _).2.keys.rows
    rw [errorOf_snd]
    exact insertSeedDerivedAccounts_keeps hrow haccount hholds hmeets
  | upsertReadBack keyId =>
    show row ∈ (settleKeys db (db.upsertReadBack cipher masterKey sessions keyId)).2.keys.rows
    cases hresult : db.upsertReadBack cipher masterKey sessions keyId with
    | error error => exact hrow
    | ok after => exact upsertReadBack_keeps hlocked hrow haccount hholds hmeets hresult
  | remove accountId keyId =>
    show row ∈ (settleKeys db (db.removeImportedSpendingKey cipher masterKey sessions material
      accountId keyId)).2.keys.rows
    cases hresult : db.removeImportedSpendingKey cipher masterKey sessions material accountId
        keyId with
    | error error => exact hrow
    | ok after =>
      refine removeImportedSpendingKey_keeps hrow ?_ hresult
      rintro rfl
      exact hkept ⟨accountId, rfl⟩

/-- The records of the protection and the wallet secrets are the same. -/
def SigningDb.SameSecrets (before after : SigningDb) : Prop :=
  after.protection = before.protection ∧ after.secrets = before.secrets

theorem SigningDb.SameSecrets.refl (db : SigningDb) : db.SameSecrets db := ⟨rfl, rfl⟩

theorem writeUpdates_sameSecrets (updates : List (Nat × AccountKey)) :
    db.SameSecrets (db.writeUpdates updates) := by
  induction updates generalizing db with
  | nil => exact .refl db
  | cons update updates ih =>
    have hrest : (db.upsertAccountKey (some update.1) update.2).2.SameSecrets
        ((db.upsertAccountKey (some update.1) update.2).2.writeUpdates updates) := ih
    exact hrest

theorem requireReplay_sameSecrets {birthday : Int}
    (h : db.requireReplay now reasonCode birthday = .ok after) : db.SameSecrets after := by
  unfold SigningDb.requireReplay at h
  split at h
  · cases h
  · cases h
    exact ⟨rfl, rfl⟩

theorem fileVerified_sameSecrets {verified : VerifiedKey} {index : Index88} :
    db.SameSecrets (db.fileVerified verified key address index now reasonCode).2 := by
  unfold SigningDb.fileVerified
  split
  · exact .refl db
  · dsimp only
    split
    · exact ⟨rfl, rfl⟩
    · rename_i recorded hrecorded
      have hsame : db.SameSecrets recorded := by
        split at hrecorded
        · have hreplay := requireReplay_sameSecrets hrecorded
          exact hreplay
        · cases hrecorded
          exact ⟨rfl, rfl⟩
      split
      · exact hsame
      · exact hsame

theorem storeVerifiedKey_sameSecrets {verified : VerifiedKey} {written : SigningDb}
    (h : db.storeVerifiedKey cipher masterKey sessions material key = .ok (verified, written)) :
    db.SameSecrets written := by
  unfold SigningDb.storeVerifiedKey at h
  obtain ⟨keys, -, h⟩ := bind_eq_ok h
  split at h
  · split at h
    · obtain ⟨encrypted, -, h⟩ := bind_eq_ok h
      cases h
      exact ⟨rfl, rfl⟩
    · cases h
      exact .refl db
  · obtain ⟨encrypted, -, h⟩ := bind_eq_ok h
    cases h
    exact ⟨rfl, rfl⟩

/-- A call leaves the records of the protection and the wallet secrets alone. -/
theorem call_sameSecrets (call : KeyCall) :
    db.SameSecrets (db.afterCall cipher masterKey sessions material call) := by
  have hsettle : ∀ {result : Except KeyError SigningDb},
      (∀ after, result = .ok after → db.SameSecrets after) →
      db.SameSecrets (settleKeys db result).2 := by
    intro result h
    cases result with
    | error error => exact .refl db
    | ok after => exact h after rfl
  cases call with
  | reconcile secret birthdayHeight =>
    refine hsettle fun after hmap => ?_
    obtain ⟨result, h, rfl⟩ := map_eq_ok hmap
    unfold SigningDb.reconcilePrimarySeedAccountKey at h
    obtain ⟨keys, -, h⟩ := bind_eq_ok h
    obtain ⟨plan, -, h⟩ := bind_eq_ok h
    split at h
    · cases h
      exact .refl db
    obtain ⟨updates, -, h⟩ := bind_eq_ok h
    obtain ⟨newSeed, -, h⟩ := bind_eq_ok h
    cases newSeed with
    | none =>
      cases h
      exact writeUpdates_sameSecrets updates
    | some seed =>
      cases h
      exact writeUpdates_sameSecrets updates
  | importVerified key address now reasonCode joined =>
    show db.SameSecrets (errorOf _).2
    rw [errorOf_snd]
    unfold SigningDb.importVerifiedSpendingKey
    split
    · exact .refl db
    · exact .refl db
    · rename_i index _ _
      split
      · exact .refl db
      · rename_i verified written hstored
        have hwritten := storeVerifiedKey_sameSecrets hstored
        have hfiled : written.SameSecrets
            (written.fileVerified verified key address index now reasonCode).2 :=
          fileVerified_sameSecrets
        have hboth := And.intro (hfiled.1.trans hwritten.1) (hfiled.2.trans hwritten.2)
        split
        · rename_i error after hafter
          rw [hafter] at hboth
          cases joined with
          | false => exact .refl db
          | true => exact hboth
        · rename_i result after hafter
          rw [hafter] at hboth
          exact hboth
  | importGroup key now reasonCode =>
    refine hsettle fun after hmap => ?_
    obtain ⟨result, h, rfl⟩ := map_eq_ok hmap
    unfold SigningDb.importSpendingKeyWithRescan at h
    split at h
    · cases h
    obtain ⟨keys, -, h⟩ := bind_eq_ok h
    obtain ⟨encrypted, -, h⟩ := bind_eq_ok h
    obtain ⟨recorded, hrecorded, h⟩ := bind_eq_ok h
    cases h
    have hreplay := requireReplay_sameSecrets hrecorded
    exact hreplay
  | insertSeedAccounts accountId expectedPreviousIndex accounts joined =>
    show db.SameSecrets (errorOf _).2
    rw [errorOf_snd]
    unfold SigningDb.insertSeedDerivedAccounts
    split
    · exact ⟨rfl, rfl⟩
    · exact ⟨rfl, rfl⟩
  | upsertReadBack keyId =>
    refine hsettle fun after h => ?_
    unfold SigningDb.upsertReadBack at h
    obtain ⟨found, -, h⟩ := bind_eq_ok h
    cases found with
    | none => cases h
    | some key =>
      obtain ⟨encrypted, -, h⟩ := bind_eq_ok h
      cases h
      exact ⟨rfl, rfl⟩
  | remove accountId keyId =>
    refine hsettle fun after h => ?_
    obtain ⟨_, _, noteIds, -, -, hdelete⟩ := deleteKey_of_remove h
    obtain ⟨-, addresses, -, rfl⟩ := deleteKey_eq_ok hdelete
    exact ⟨rfl, rfl⟩

theorem importVerifiedSpendingKey_error {error : KeyError}
    (h : (db.importVerifiedSpendingKey cipher masterKey sessions material key address now reasonCode
      false).1 = .error error) :
    (db.importVerifiedSpendingKey cipher masterKey sessions material key address now reasonCode
      false).2 = db := by
  unfold SigningDb.importVerifiedSpendingKey at h ⊢
  cases hverify : verifyArguments key address with
  | error error => rfl
  | ok _ =>
    cases hindex : address.diversifierIndex88 with
    | none => rfl
    | some index =>
      rw [hverify, hindex] at h
      dsimp only at h ⊢
      cases hstored : db.storeVerifiedKey cipher masterKey sessions material key with
      | error error => rfl
      | ok stored =>
        obtain ⟨verified, written⟩ := stored
        rw [hstored] at h
        dsimp only at h ⊢
        split at h
        · rfl
        · cases h

theorem insertSeedDerivedAccounts_error {expectedPreviousIndex : Option Nat} {error : KeyError}
    (h : (db.insertSeedDerivedAccounts accountId expectedPreviousIndex accounts false).1 =
      .error error) :
    (db.insertSeedDerivedAccounts accountId expectedPreviousIndex accounts false).2 = db := by
  have hstored : ∀ {error : StorageError} {after : SeedDb},
      db.stored.insertSeedDerivedAccounts accountId expectedPreviousIndex accounts false false =
        (.error error, after) → after = db.stored := by
    intro error after h
    unfold SeedDb.insertSeedDerivedAccounts at h
    split at h
    · cases h
    split at h
    · cases h
      rfl
    split at h
    · cases h
      rfl
    split at h
    · cases h
      rfl
    · cases h
  unfold SigningDb.insertSeedDerivedAccounts at h ⊢
  split at h
  · rename_i error after hafter
    dsimp only
    rw [hstored hafter]
  · cases h

/-- A call that fails outside an outer transaction changes nothing. -/
theorem call_error {call : KeyCall} (hjoined : call.joined = false)
    (herror : (db.call cipher masterKey sessions material call).1.isSome = true) :
    db.afterCall cipher masterKey sessions material call = db := by
  have hsettle : ∀ {result : Except KeyError SigningDb},
      (settleKeys db result).1.isSome = true → (settleKeys db result).2 = db := by
    intro result h
    cases result with
    | error error => rfl
    | ok after => cases h
  have herrorOf : ∀ {α : Type} {result : Except KeyError α × SigningDb},
      (errorOf result).1.isSome = true → ∃ error, result.1 = .error error := by
    intro α result h
    obtain ⟨outcome, after⟩ := result
    cases outcome with
    | error error => exact ⟨error, rfl⟩
    | ok value => cases h
  cases call with
  | reconcile secret birthdayHeight => exact hsettle herror
  | importGroup key now reasonCode => exact hsettle herror
  | upsertReadBack keyId => exact hsettle herror
  | remove accountId keyId => exact hsettle herror
  | importVerified key address now reasonCode joined =>
    obtain rfl : joined = false := hjoined
    obtain ⟨error, herror⟩ := herrorOf herror
    show (errorOf _).2 = db
    rw [errorOf_snd]
    exact importVerifiedSpendingKey_error herror
  | insertSeedAccounts accountId expectedPreviousIndex accounts joined =>
    obtain rfl : joined = false := hjoined
    obtain ⟨error, herror⟩ := herrorOf herror
    show (errorOf _).2 = db
    rw [errorOf_snd]
    exact insertSeedDerivedAccounts_error herror

/-- The account stays locked. -/
theorem SigningDb.SameSecrets.locked (h : db.SameSecrets after)
    (hlocked : db.Locked sessions account) : after.Locked sessions account := by
  obtain ⟨walletId, hprotected, hsession⟩ := hlocked
  refine ⟨walletId, ?_, hsession⟩
  unfold SigningDb.protectedWalletForAccount at hprotected ⊢
  rw [h.1]
  exact hprotected

/-- What a read by id yields depends on the row with the id. -/
theorem getAccountKeyById_of_mem (later : Sessions K) {before after : SigningDb}
    {row : AccountKeyRow} (hbefore : row ∈ before.keys.rows) (hafter : row ∈ after.keys.rows) :
    after.getAccountKeyById cipher masterKey later row.id =
      before.getAccountKeyById cipher masterKey later row.id := by
  have hfind : ∀ {db : SigningDb}, row ∈ db.keys.rows →
      db.keys.rows.find? (fun stored => stored.id == row.id) = some row := by
    intro db hrow
    cases hfound : db.keys.rows.find? (fun stored => stored.id == row.id) with
    | none => exact absurd (beq_self_eq_true row.id) (List.find?_eq_none.mp hfound row hrow)
    | some stored =>
      have hid := List.find?_some hfound
      rw [AutoTable.row_eq_of_id (List.mem_of_find?_eq_some hfound) hrow (beq_iff_eq.mp hid)]
  unfold SigningDb.getAccountKeyById
  rw [hfind hbefore, hfind hafter]

/-- The account stays locked throughout a run, and a row that holds something stays as it is. -/
theorem run_keeps (hlocked : db.Locked sessions account) {calls : List KeyCall}
    (hmeets : EachStep (SigningDb.afterCall cipher masterKey sessions material)
      (Meets cipher masterKey sessions material account) db calls) :
    Throughout (SigningDb.afterCall cipher masterKey sessions material) db.SameSecrets db calls ∧
    ∀ row ∈ db.keys.rows, row.accountId = account → row.hasSpending = true →
      (∀ call ∈ calls, ¬ call.Removes row.id) →
      row ∈ (run (SigningDb.afterCall cipher masterKey sessions material) db calls).keys.rows := by
  refine ⟨run_invariant_always (fun s call hs => ?_) (.refl db) calls, ?_⟩
  · have hcall : s.SameSecrets (s.afterCall cipher masterKey sessions material call) :=
      call_sameSecrets call
    exact ⟨hcall.1.trans hs.1, hcall.2.trans hs.2⟩
  intro row hrow haccount hholds hkept
  induction calls generalizing db with
  | nil => exact hrow
  | cons call calls ih =>
    obtain ⟨hfirst, hrest⟩ := eachStep_cons.mp hmeets
    have hsame : db.SameSecrets (db.afterCall cipher masterKey sessions material call) :=
      call_sameSecrets call
    exact ih (hsame.locked hlocked) hrest
      (call_keeps hlocked hrow haccount hholds hfirst (hkept call List.mem_cons_self))
      fun later hlater => hkept later (List.mem_cons_of_mem call hlater)

/-- **Envelopes survive a locked session.** In a run of key operations that do not write over a row
of the locked account with something in it, every such row that is not removed stays as it is, and
whichever session reads it afterwards reads what it would have read before; a call that fails
changes nothing, unless an outer transaction has to roll back for it; the protection and the wallet
secrets stay; and a protected value, of whatever bytes, opens to the session that protected it. -/
theorem envelopes_survive {K : Type} (cipher : BlobCipher K) (masterKey : K) (sessions : Sessions K)
    (material : KeyMaterial) (account : Int) (db : SigningDb) (hlocked : db.Locked sessions account)
    (calls : List KeyCall)
    (hmeets : EachStep (SigningDb.afterCall cipher masterKey sessions material)
      (Meets cipher masterKey sessions material account) db calls) :
    (∀ done, done <+: calls →
      (∀ row ∈ db.keys.rows, row.accountId = account → row.hasSpending = true →
        (∀ call ∈ done, ¬ call.Removes row.id) →
        row ∈ (run (SigningDb.afterCall cipher masterKey sessions material) db done).keys.rows ∧
        ∀ later : Sessions K,
          (run (SigningDb.afterCall cipher masterKey sessions material) db done).getAccountKeyById
            cipher masterKey later row.id = db.getAccountKeyById cipher masterKey later row.id) ∧
      db.SameSecrets (run (SigningDb.afterCall cipher masterKey sessions material) db done)) ∧
    (∀ done call rest, calls = done ++ call :: rest → call.joined = false →
      ((run (SigningDb.afterCall cipher masterKey sessions material) db done).call cipher masterKey
        sessions material call).1.isSome = true →
      run (SigningDb.afterCall cipher masterKey sessions material) db (done ++ [call]) =
        run (SigningDb.afterCall cipher masterKey sessions material) db done) ∧
    ∀ (later : Sessions K) (walletId : String) (key : K) (plaintext envelope : Bytes),
      protectWithKey cipher walletId key plaintext = .ok envelope → later walletId = some key →
      revealForActiveSession cipher later envelope = .ok (some plaintext) := by
  refine ⟨?_, ?_, ?_⟩
  · rintro done ⟨rest, rfl⟩
    have hdone : EachStep (SigningDb.afterCall cipher masterKey sessions material)
        (Meets cipher masterKey sessions material account) db done := by
      intro before call after hsplit
      exact hmeets before call (after ++ rest) (by rw [hsplit, List.append_assoc, List.cons_append])
    obtain ⟨hsame, hrows⟩ := run_keeps hlocked hdone
    refine ⟨fun row hrow haccount hholds hkept => ?_, hsame.last⟩
    have hafter := hrows row hrow haccount hholds hkept
    exact ⟨hafter, fun later => getAccountKeyById_of_mem later hrow hafter⟩
  · intro done call rest _ hjoined herror
    rw [run_append]
    exact call_error hjoined herror
  · intro later walletId key plaintext envelope hprotect hsession
    exact reveal_of_unlocked hprotect hsession

end Rows

/-- A cipher that puts the key in front. -/
def prefixCipher : BlobCipher UInt8 where
  encrypt key message := key :: message
  decrypt
    | _, [] => none
    | key, first :: message => if first = key then some message else none
  decrypt_encrypt key message := if_pos rfl
  decrypt_other {key other ciphertext message} h hne := by
    cases ciphertext with
    | nil => rfl
    | cons first rest =>
      by_cases hfirst : first = key
      · exact if_neg fun hother => hne (hother.symm.trans hfirst)
      · have h : (if first = key then some rest else none) = some message := h
        rw [if_neg hfirst] at h
        cases h
  encrypt_ne_nil key message := List.cons_ne_nil key message

/-- The keys are what they are serialized as. -/
def plainMaterial : KeyMaterial where
  spending := some
  viewing := some
  saplingFvk := .ok
  ironwoodFvk := .ok

/-- A wallet with its seed key and a viewing key, before its protection. -/
def unprotectedWallet : SigningDb where
  stored := {
    imports := {
      keys := AccountKeys.insert
        { accountId := 1, keyType := .importView, keyScope := .account, label := none,
          birthdayHeight := 100, createdAt := 1, spendable := false, saplingExtsk := none,
          saplingDfvk := some [7, 43], orchardExtsk := none, orchardFvk := none,
          encryptedMnemonic := none }
        (AccountKeys.insert
          { accountId := 1, keyType := .seed, keyScope := .account, label := some "Seed",
            birthdayHeight := 100, createdAt := 1, spendable := true, saplingExtsk := some [7, 42],
            saplingDfvk := some [7, 42], orchardExtsk := none, orchardFvk := none,
            encryptedMnemonic := none } AutoTable.empty)
      addresses := AddressStore.fresh.table
      spendabilityState := some (SpendabilityStateRow.default "t")
      importedKeyRecovery := true }
    seedKeys := ⟨[], seedConstraints_nil⟩
    notes := AutoTable.empty
    discoveryComplete := true
    seedKeyScanReplay := false }
  secrets := [{
    walletId := "w"
    accountId := 7 :: i64ToLeBytes 1
    extsk := [7, 42]
    dfvk := none
    orchardExtsk := none
    saplingIvk := none
    orchardIvk := none
    encryptedMnemonic := none
    mnemonicLanguage := none
    createdAt := 7 :: i64ToLeBytes 1 }]
  protection := []
  displayPreferences := []
  syncState := ⟨0, 0, 0, "t"⟩
  queue := AutoTable.empty
  intents := []
  transactions := []

/-- The wallet with its protection. -/
def protectedWallet : SigningDb :=
  match unprotectedWallet.enableSigningProtection prefixCipher 7 (fun _ => none) ⟨"w", 1, [], []⟩
    9 with
  | .ok db => db
  | .error _ => unprotectedWallet

/-- A locked session writes the viewing key back and tries an import: the seed row stays. -/
theorem envelopes_survive_viewing_key :
    ∃ row ∈ protectedWallet.keys.rows, row.id = 1 ∧ row.hasSpending = true ∧
      row ∈ (run (SigningDb.afterCall prefixCipher 7 (fun _ => none) plainMaterial) protectedWallet
        [.upsertReadBack 2, .importGroup (oneByteKey 7 200) "t" "r"]).keys.rows := by
  have hseed : ∃ row ∈ protectedWallet.keys.rows, row.id = 1 ∧
      row.accountId = 1 ∧ row.hasSpending = true := by decide +kernel
  have hviewing : ∀ row ∈ protectedWallet.keys.rows, row.id = 2 → row.hasSpending = false := by
    decide +kernel
  have hmeets : EachStep (SigningDb.afterCall prefixCipher 7 (fun _ => none) plainMaterial)
      (Meets prefixCipher 7 (fun _ => none) plainMaterial 1) protectedWallet
      [.upsertReadBack 2, .importGroup (oneByteKey 7 200) "t" "r"] := by
    refine eachStep_cons.mpr ⟨?_, eachStep_cons.mpr ⟨trivial, eachStep_nil⟩⟩
    intro row hrow hid _ hholds
    rw [hviewing row hrow hid] at hholds
    cases hholds
  have hlocked : protectedWallet.Locked (fun _ => (none : Option UInt8)) 1 := ⟨"w", rfl, rfl⟩
  obtain ⟨row, hrow, hid, haccount, hholds⟩ := hseed
  refine ⟨row, hrow, hid, hholds, ?_⟩
  refine (((envelopes_survive prefixCipher 7 (fun _ => none) plainMaterial 1 protectedWallet hlocked
    _ hmeets).1 _ List.prefix_rfl).1 row hrow haccount hholds ?_).1
  intro call hcall hremoves
  obtain ⟨accountId, rfl⟩ := hremoves
  rcases List.mem_pair.mp hcall with h | h <;> cases h

/-- **A key read back loses its envelope.** The session of the wallet shows the seed key of the row
before; written back while the session is locked, as it was read, the row has none. -/
theorem read_back_erases_envelope :
    unprotectedWallet.enableSigningProtection prefixCipher 7 (fun _ => none) ⟨"w", 1, [], []⟩ 9 =
      .ok protectedWallet ∧
    protectedWallet.Locked (fun _ => (none : Option UInt8)) 1 ∧
    (protectedWallet.getAccountKeyById prefixCipher 7 (fun _ => some 9) 1).map
      (·.map (·.saplingExtsk)) = .ok (some (some [42])) ∧
    (protectedWallet.call prefixCipher 7 (fun _ => none) plainMaterial (.upsertReadBack 1)).1 =
      none ∧
    ((protectedWallet.afterCall prefixCipher 7 (fun _ => none) plainMaterial
      (.upsertReadBack 1)).getAccountKeyById prefixCipher 7 (fun _ => some 9) 1).map
        (·.map (·.saplingExtsk)) = .ok (some none) := by
  refine ⟨rfl, ⟨"w", rfl, rfl⟩, rfl, rfl, rfl⟩

end StashiWallet
