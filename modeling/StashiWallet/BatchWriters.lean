import Mathlib.Algebra.Group.Nat.Defs
import StashiWallet.EncryptedTables
import StashiWallet.NoteStore
import StashiWallet.Transactions

/-!
# The batch writers on encrypted rows

The repository calls that write many rows in one transaction, as programs on a connection.
Each reads rows, decrypts columns, and executes statements between `BEGIN IMMEDIATE` and
`COMMIT`. Every column may fail to decrypt, every value to encrypt and every statement to
execute.

A failing statement is followed by `ROLLBACK` in all of them. A failing value is so only where
the body of the transaction is a closure whose error is answered, in
`apply_spend_updates_with_txmeta` and `prepare_note_upserts`; elsewhere it leaves through `?`,
and so does a refused `COMMIT` everywhere but in `prepare_note_upserts`.
-/

namespace StashiWallet

open Transactions

/-- The errors the writers make themselves. -/
inductive RowError where
  | encryption (message : String)
  | storage (message : String)
deriving DecidableEq, Repr

/-- The master key of an open database. -/
structure RowCipher (C : Type) where
  encrypt : Bytes → Except String C
  decrypt : C → Except String Bytes

/-- The tables the batch writers work on. -/
structure BatchTables (C : Type) extends EncryptedTables C where
  nextUnlinkedId : Nat
  transactions : List TransactionRow

/-- `i64::from_le_bytes`. -/
def i64FromLeBytes (bytes : Bytes) : Int :=
  asI64 (bytes.foldr (fun byte rest => byte.toNat + 256 * rest) 0)

def i64ToLeBytes (value : Int) : Bytes :=
  (List.range 8).map (fun k =>
    ((value % 18446744073709551616).toNat / 256 ^ k % 256).toUInt8)

namespace RowCipher

variable {C : Type} (cipher : RowCipher C)

def encryptBlob (data : Bytes) : Except RowError C :=
  (cipher.encrypt data).mapError (fun e => .encryption s!"Failed to encrypt data: {e}")

def decryptBlob (encrypted : C) : Except RowError Bytes :=
  (cipher.decrypt encrypted).mapError (fun e => .encryption s!"Failed to decrypt data: {e}")

def encryptInt64 (value : Int) : Except RowError C := cipher.encryptBlob (i64ToLeBytes value)

def decryptInt64 (encrypted : C) : Except RowError Int := do
  let decrypted ← cipher.decryptBlob encrypted
  if decrypted.length ≠ 8 then throw (.encryption "Invalid encrypted integer length")
  return i64FromLeBytes decrypted

def encryptBool (value : Bool) : Except RowError C :=
  cipher.encryptBlob [if value then 1 else 0]

def decryptBool (encrypted : C) : Except RowError Bool := do
  match ← cipher.decryptBlob encrypted with
  | [] => throw (.encryption "Invalid encrypted boolean length")
  | byte :: _ => return byte != 0

/-- An optional column through one of the functions above. -/
def optional {α β : Type} (f : α → Except RowError β) : Option α → Except RowError (Option β)
  | none => return none
  | some a => return some (← f a)

/-- A blob of 32 bytes; nothing for a blob of another length. -/
def decrypt32 (encrypted : C) : Except RowError (Option Bytes) := do
  let bytes ← cipher.decryptBlob encrypted
  return if bytes.length = 32 then some bytes else none

/-- How every loop over `notes` or `unlinked_spend_nullifiers` begins: the row's account, and
for the rows of the account the nullifier, if it has 32 bytes. -/
def ownNullifier (accountId : Int) (encAccountId encNullifier : C) :
    Except RowError (Option Bytes) := do
  if (← cipher.decryptInt64 encAccountId) ≠ accountId then return none
  cipher.decrypt32 encNullifier

/-- A row of `notes`, read in the order of `get_account_notes_matching_outputs`: the columns
that identify the output first, the others only for a wanted row. -/
def readNote (accountId : Int) (outputs : List OutputKey) (row : EncryptedNote C) :
    Except RowError (Option NoteRow) := do
  let rowAccountId ← cipher.decryptInt64 row.accountId
  let txid ← cipher.decryptBlob row.txid
  let outputIndex ← cipher.decryptInt64 row.outputIndex
  if rowAccountId ≠ accountId ∨ (txid, outputIndex, row.noteType) ∉ outputs then return none
  return some {
    id := row.id
    accountId := rowAccountId
    keyId := ← optional cipher.decryptInt64 row.keyId
    noteType := row.noteType
    value := ← cipher.decryptInt64 row.value
    nullifier := ← cipher.decryptBlob row.nullifier
    commitment := ← cipher.decryptBlob row.commitment
    spent := ← cipher.decryptBool row.spent
    height := ← cipher.decryptInt64 row.height
    txid := txid
    outputIndex := outputIndex
    addressId := ← optional cipher.decryptInt64 row.addressId
    spentTxid := ← optional cipher.decryptBlob row.spentTxid
    diversifier := ← optional cipher.decryptBlob row.diversifier
    note := ← optional cipher.decryptBlob row.note
    position := ← optional cipher.decryptInt64 row.position
    memo := ← optional cipher.decryptBlob row.memo }

/-- The columns `update_note_by_id_with_options` writes. -/
def writeNote (note : NoteRow) : Except RowError (EncryptedNote C) := do
  return {
    id := note.id
    noteType := note.noteType
    accountId := ← cipher.encryptInt64 note.accountId
    value := ← cipher.encryptInt64 note.value
    nullifier := ← cipher.encryptBlob note.nullifier
    commitment := ← cipher.encryptBlob note.commitment
    spent := ← cipher.encryptBool note.spent
    height := ← cipher.encryptInt64 note.height
    txid := ← cipher.encryptBlob note.txid
    outputIndex := ← cipher.encryptInt64 note.outputIndex
    -- an absent diversifier or note is written as an empty blob
    diversifier := some (← cipher.encryptBlob (note.diversifier.getD []))
    note := some (← cipher.encryptBlob (note.note.getD []))
    position := ← optional cipher.encryptInt64 note.position
    memo := ← optional cipher.encryptBlob note.memo
    spentTxid := ← optional cipher.encryptBlob note.spentTxid
    addressId := ← optional cipher.encryptInt64 note.addressId
    keyId := ← optional cipher.encryptInt64 note.keyId }

end RowCipher

/-! ## Statements -/

namespace BatchTables

variable {C : Type}

/-- `DELETE FROM unlinked_spend_nullifiers WHERE id = ?1`. -/
def deleteUnlinked (id : Nat) (tables : BatchTables C) : BatchTables C :=
  { tables with
    unlinkedSpendNullifiers := tables.unlinkedSpendNullifiers.filter (fun row => row.id != id) }

/-- `UPDATE unlinked_spend_nullifiers SET spending_txid = ?1, updated_at = ?2 WHERE id = ?3`. -/
def updateUnlinked (encTxid : C) (now : Int) (id : Nat) (tables : BatchTables C) :
    BatchTables C :=
  { tables with
    unlinkedSpendNullifiers := tables.unlinkedSpendNullifiers.map (fun row =>
      if row.id = id then { row with spendingTxid := encTxid, updatedAt := now } else row) }

/-- `INSERT INTO unlinked_spend_nullifiers`. -/
def insertUnlinked (encAccountId : C) (noteType : NoteType) (encNullifier encTxid : C)
    (now : Int) (tables : BatchTables C) : BatchTables C :=
  { tables with
    unlinkedSpendNullifiers := tables.unlinkedSpendNullifiers ++
      [⟨tables.nextUnlinkedId, encAccountId, noteType, encNullifier, encTxid, now, now⟩]
    nextUnlinkedId := tables.nextUnlinkedId + 1 }

/-- `UPDATE notes SET … WHERE id = ?`. -/
def updateNote (id : Nat) (update : EncryptedNote C → EncryptedNote C) (tables : BatchTables C) :
    BatchTables C :=
  { tables with
    notes := tables.notes.map (fun row => if row.id = id then update row else row) }

/-- `DELETE FROM notes WHERE id = ?1`. -/
def deleteNote (id : Nat) (tables : BatchTables C) : BatchTables C :=
  { tables with notes := tables.notes.filter (fun row => row.id != id) }

/-- The upsert into `transactions`. -/
def upsertTx (entry : String × Int × Int × Int) (tables : BatchTables C) : BatchTables C :=
  { tables with
    transactions := upsertTransaction entry.1 entry.2.1 entry.2.2.1 entry.2.2.2
      tables.transactions }

end BatchTables

/-! ## The programs -/

section Writers

variable {C : Type}

/-- A step on the tables of the batch writers. -/
abbrev WriteStep (C : Type) := Step (BatchTables C) RowError

/-- A call on the tables of the batch writers. -/
abbrev WriteProgram (C : Type) := Program (BatchTables C) RowError

/-- `?` on a value inside a transaction. -/
def orFail {α : Type} (result : Except RowError α) (next : α → List (WriteStep C)) :
    List (WriteStep C) :=
  match result with
  | .error error => [.value (some error)]
  | .ok a => .value none :: next a

/-- `?` on a value outside a transaction. -/
def orReturn {α : Type} (result : Except RowError α) (next : α → WriteProgram C) :
    WriteProgram C :=
  match result with
  | .error error => .fail error
  | .ok a => next a

variable (cipher : RowCipher C)

/-- The loop of `upsert_unlinked_spend_nullifiers_with_txid` over the stored rows: the first
row of each nullifier, and the ids of the others. -/
def indexUnlinkedRow (accountId : Int)
    (index : AList (fun _ : TypedNullifier => Nat × Bytes) × List Nat)
    (row : EncryptedUnlinkedSpend C) :
    Except RowError (AList (fun _ : TypedNullifier => Nat × Bytes) × List Nat) := do
  match ← cipher.ownNullifier accountId row.accountId row.nullifier with
  | none => return index
  | some nullifier =>
    match ← cipher.decrypt32 row.spendingTxid with
    | none => return index
    | some txid =>
      match index.1.lookup (row.noteType, nullifier) with
      | some _ => return (index.1, index.2 ++ [row.id])
      | none => return (index.1.insert (row.noteType, nullifier) (row.id, txid), index.2)

/-- The loop of `upsert_unlinked_spend_nullifiers_with_txid` over the entries. -/
def upsertUnlinkedSteps (now : Int) (encAccountId : C) :
    AList (fun _ : TypedNullifier => Nat × Bytes) → List (NoteType × Bytes × Bytes) →
      List (WriteStep C)
  | _, [] => []
  | existing, (noteType, nullifier, spendingTxid) :: rest =>
    if nullifier.all (· == 0) then upsertUnlinkedSteps now encAccountId existing rest
    else match existing.lookup (noteType, nullifier) with
      | some (rowId, currentTxid) =>
        if currentTxid = spendingTxid then upsertUnlinkedSteps now encAccountId existing rest
        else orFail (cipher.encryptBlob spendingTxid) (fun encTxid =>
          .statement (BatchTables.updateUnlinked encTxid now rowId) ::
            upsertUnlinkedSteps now encAccountId
              (existing.insert (noteType, nullifier) (rowId, spendingTxid)) rest)
      | none =>
        orFail (cipher.encryptBlob nullifier) (fun encNullifier =>
          orFail (cipher.encryptBlob spendingTxid) (fun encTxid =>
            .statement (BatchTables.insertUnlinked encAccountId noteType encNullifier encTxid
              now) :: upsertUnlinkedSteps now encAccountId existing rest))

/-- `upsert_unlinked_spend_nullifiers_with_txid`. -/
def upsertUnlinkedProgram (accountId now : Int) (entries : List (NoteType × Bytes × Bytes)) :
    WriteProgram C :=
  if entries.isEmpty then .finish
  else .select (fun tables =>
    orReturn (tables.unlinkedSpendNullifiers.foldlM (indexUnlinkedRow cipher accountId) (∅, []))
      (fun (existing, duplicateIds) =>
        .transaction
          { steps := fun _ =>
              duplicateIds.map (fun id => .statement (BatchTables.deleteUnlinked id)) ++
                orFail (cipher.encryptInt64 accountId) (fun encAccountId =>
                  upsertUnlinkedSteps cipher now encAccountId existing entries)
            answers := ⟨false, false⟩ }
          (fun _ => .finish)))

/-- The rows `consume_unlinked_spends_for_nullifiers` matches. -/
def matchUnlinkedRow (accountId : Int) (wanted : List TypedNullifier)
    (row : EncryptedUnlinkedSpend C) : Except RowError (Option Nat) := do
  match ← cipher.ownNullifier accountId row.accountId row.nullifier with
  | none => return none
  | some nullifier =>
    if (row.noteType, nullifier) ∉ wanted then return none
    return (← cipher.decrypt32 row.spendingTxid).map (fun _ => row.id)

/-- The results of a loop that skips rows. -/
def collectRows {α β : Type} (f : α → Except RowError (Option β)) (rows : List α) :
    Except RowError (List β) := do
  return (← rows.mapM f).filterMap id

/-- `consume_unlinked_spends_for_nullifiers`. -/
def consumeUnlinkedProgram (accountId : Int) (nullifiers : List TypedNullifier) :
    WriteProgram C :=
  let wanted := nullifiers.filter (fun key => !key.2.all (· == 0))
  if wanted.isEmpty then .finish
  else .select (fun tables =>
    orReturn (collectRows (matchUnlinkedRow cipher accountId wanted)
        tables.unlinkedSpendNullifiers) (fun matchingIds =>
      if matchingIds.isEmpty then .finish
      else .transaction
        { steps := fun _ =>
            matchingIds.map (fun id => .statement (BatchTables.deleteUnlinked id))
          answers := ⟨false, false⟩ }
        (fun _ => .finish)))

/-- The loop body of `mark_notes_spent_by_nullifiers_with_txid` and of the fallback of
`apply_spend_updates_with_txmeta`. -/
def markNoteSteps (accountId : Int) (spendMap : AList (fun _ : Bytes => Bytes)) (encSpent : C)
    (row : EncryptedNote C) : List (WriteStep C) :=
  orFail (cipher.ownNullifier accountId row.accountId row.nullifier) (fun
    | none => []
    | some nullifier =>
      match spendMap.lookup nullifier with
      | none => []
      | some txid =>
        orFail (cipher.decryptBool row.spent) (fun spent =>
          orFail (cipher.encryptBlob txid) (fun encTxid =>
            -- a row already spent keeps its flag as it is stored
            [.statement (BatchTables.updateNote row.id (fun note =>
              if spent then { note with spentTxid := some encTxid }
              else { note with spent := encSpent, spentTxid := some encTxid }))])))

/-- `mark_notes_spent_by_nullifiers_with_txid`, and what its caller does next. -/
def markByNullifiersThen (accountId : Int) (entries : List (Bytes × Bytes))
    (next : BatchTables C → WriteProgram C) : WriteProgram C :=
  orReturn (cipher.encryptBool true) (fun encSpent =>
    .select (fun read =>
      .transaction
        { steps := fun _ =>
            read.notes.flatMap
              (markNoteSteps cipher accountId (BulkMap.insertAll ∅ entries) encSpent)
          answers := ⟨false, false⟩ }
        next))

/-- `mark_notes_spent_by_nullifiers_with_txid`. -/
def markByNullifiersProgram (accountId : Int) (entries : List (Bytes × Bytes)) :
    WriteProgram C :=
  if entries.isEmpty then .finish
  else markByNullifiersThen cipher accountId entries (fun _ => .finish)

/-- One update of a note by its row id. -/
def spendByIdSteps (encSpent : C) (update : Nat × Bytes) : List (WriteStep C) :=
  orFail (cipher.encryptBlob update.2) (fun encTxid =>
    [.statement (BatchTables.updateNote update.1 (fun note =>
      { note with spent := encSpent, spentTxid := some encTxid }))])

/-- `mark_notes_spent_by_ids_with_txid`. -/
def markByIdsProgram (entries : List (Nat × Bytes)) : WriteProgram C :=
  if entries.isEmpty then .finish
  else orReturn (cipher.encryptBool true) (fun encSpent =>
    .transaction
      { steps := fun _ => entries.flatMap (spendByIdSteps cipher encSpent)
        answers := ⟨false, false⟩ }
      (fun _ => .finish))

/-- The tables after the first loop of `apply_spend_updates_with_txmeta`, where every update
can be encrypted. -/
def spentByIds (encSpent : C) (updates : List (Nat × Bytes)) (tables : BatchTables C) :
    BatchTables C :=
  updates.foldl (fun tables update =>
    match cipher.encryptBlob update.2 with
    | .error _ => tables
    | .ok encTxid => tables.updateNote update.1 (fun note =>
        { note with spent := encSpent, spentTxid := some encTxid })) tables

/-- The closure of `apply_spend_updates_with_txmeta`. A statement that is prepared, and a
`SELECT`, is a statement without effect. -/
def applySteps (accountId : Int) (spendUpdates : List (Nat × Bytes))
    (fallbackEntries : List (Bytes × Bytes)) (txMeta : List (String × Int × Int × Int))
    (encSpent : C) (tables : BatchTables C) : List (WriteStep C) :=
  (if spendUpdates.isEmpty then []
    else .statement id :: spendUpdates.flatMap (spendByIdSteps cipher encSpent)) ++
  (if fallbackEntries.isEmpty then []
    else .statement id :: .statement id :: .statement id ::
      (spentByIds cipher encSpent spendUpdates tables).notes.flatMap
        (markNoteSteps cipher accountId (BulkMap.insertAll ∅ fallbackEntries) encSpent)) ++
  (if txMeta.isEmpty then []
    else .statement id :: txMeta.map (fun entry => .statement (BatchTables.upsertTx entry)))

/-- `apply_spend_updates_with_txmeta`. -/
def applySpendUpdatesProgram (accountId : Int) (spendUpdates : List (Nat × Bytes))
    (fallbackEntries : List (Bytes × Bytes)) (txMeta : List (String × Int × Int × Int)) :
    WriteProgram C :=
  if spendUpdates.isEmpty && fallbackEntries.isEmpty && txMeta.isEmpty then .finish
  else orReturn (cipher.encryptBool true) (fun encSpent =>
    .transaction
      { steps := applySteps cipher accountId spendUpdates fallbackEntries txMeta encSpent
        answers := ⟨true, false⟩ }
      (fun _ => .finish))

/-- The rows `list_unlinked_spend_nullifiers_with_txid` lists. -/
def listUnlinkedRow (accountId : Int) (row : EncryptedUnlinkedSpend C) :
    Except RowError (Option (NoteType × Bytes × Bytes)) := do
  match ← cipher.ownNullifier accountId row.accountId row.nullifier with
  | none => return none
  | some nullifier =>
    if nullifier.all (· == 0) then return none
    return (← cipher.decrypt32 row.spendingTxid).map (fun txid => (row.noteType, nullifier, txid))

/-- The order of `list_unlinked_spend_nullifiers_with_txid`. -/
def listedBefore (a b : NoteType × Bytes × Bytes) : Bool :=
  match a.1, b.1 with
  | .sapling, .ironwood => true
  | .ironwood, .sapling => false
  | _, _ => decide (a.2.1 < b.2.1) || (a.2.1 == b.2.1 && decide (a.2.2 ≤ b.2.2))

/-- `list_unlinked_spend_nullifiers_with_txid`. -/
def listUnlinked (accountId : Int) (tables : BatchTables C) :
    Except RowError (List (NoteType × Bytes × Bytes)) := do
  let out ← collectRows (listUnlinkedRow cipher accountId) tables.unlinkedSpendNullifiers
  return (out.insertionSort (fun a b => listedBefore a b)).dedup

/-- The notes that carry the spend an unlinked row stands for. -/
def resolvedNote (accountId : Int) (expected : AList (fun _ : TypedNullifier => Bytes))
    (row : EncryptedNote C) : Except RowError (Option TypedNullifier) := do
  match ← cipher.ownNullifier accountId row.accountId row.nullifier with
  | none => return none
  | some nullifier =>
    match expected.lookup (row.noteType, nullifier) with
    | none => return none
    | some txid =>
      if !(← cipher.decryptBool row.spent) then return none
      let spentTxid ← RowCipher.optional cipher.decryptBlob row.spentTxid
      return if spentTxid = some txid then some (row.noteType, nullifier) else none

/-- The deleting loop of `reconcile_unlinked_spend_nullifiers_with_notes`. -/
def deleteResolvedSteps (accountId : Int) (resolved : List TypedNullifier)
    (row : EncryptedUnlinkedSpend C) : List (WriteStep C) :=
  orFail (cipher.ownNullifier accountId row.accountId row.nullifier) (fun
    | none => []
    | some nullifier =>
      if (row.noteType, nullifier) ∈ resolved then
        [.statement (BatchTables.deleteUnlinked row.id)]
      else [])

/-- `reconcile_unlinked_spend_nullifiers_with_notes`. The marks are made in a transaction of
their own. -/
def reconcileProgram (accountId : Int) : WriteProgram C :=
  .select (fun listed =>
    orReturn (listUnlinked cipher accountId listed) (fun entries =>
      if entries.isEmpty then .finish
      else markByNullifiersThen cipher accountId (entries.map (fun entry => entry.2)) (fun _ =>
        .select (fun marked =>
          orReturn (collectRows (resolvedNote cipher accountId (BulkMap.insertAll ∅
              (entries.map (fun (noteType, nullifier, txid) => ((noteType, nullifier), txid)))))
              marked.notes) (fun resolved =>
            if resolved.isEmpty then .finish
            else .select (fun read =>
              .transaction
                { steps := fun _ => read.unlinkedSpendNullifiers.flatMap
                    (deleteResolvedSteps cipher accountId resolved)
                  answers := ⟨false, false⟩ }
                (fun _ => .finish)))))))

structure OutgoingTransactionIntent where
  txid : String
  accountId : Int
  amount : Nat
  fee : Nat
  broadcastAt : Int
  expiryHeight : Nat
deriving DecidableEq, Repr

/-- The loop body of `get_outgoing_transaction_intents`. -/
def readIntent (accountId : Int) (row : EncryptedIntent C) :
    Except RowError (Option OutgoingTransactionIntent) := do
  if (← cipher.decryptInt64 row.accountId) ≠ accountId then return none
  let amount ← cipher.decryptInt64 row.amount
  let fee ← cipher.decryptInt64 row.fee
  if amount < 0 then throw (.storage "Stored outgoing amount is negative")
  if fee < 0 then throw (.storage "Stored transaction fee is negative")
  return some ⟨row.txid, accountId, amount.toNat, fee.toNat, row.broadcastAt, row.expiryHeight⟩

/-- `ORDER BY broadcast_at DESC, txid DESC`. -/
def intentBefore (a b : EncryptedIntent C) : Bool :=
  decide (b.broadcastAt < a.broadcastAt) ||
    (a.broadcastAt == b.broadcastAt && decide (b.txid ≤ a.txid))

def getOutgoingTransactionIntents (accountId : Int) (tables : BatchTables C) :
    Except RowError (List OutgoingTransactionIntent) :=
  collectRows (readIntent cipher accountId)
    (tables.outgoingTransactionIntents.insertionSort (fun a b => intentBefore a b))

end Writers

def reverseTxidHex (txidHex : String) : Option String :=
  if txidHex.length ≠ 64 then none
  else (hexDecode txidHex.toList).map (fun bytes => hexEncode bytes.reverse)

/-- `outgoing_transaction_is_confirmed`: a transaction of the id in either byte order has a
height. -/
def outgoingTransactionIsConfirmed (txid : String) (transactions : List TransactionRow) : Bool :=
  transactions.any (fun tx =>
    (tx.txid == txid || reverseTxidHex txid == some tx.txid) && decide (0 < tx.height))

section Writers

variable {C : Type} (cipher : RowCipher C)

/-- The loop of `release_expired_outgoing_notes` over the intents: the ids of the expired ones
in both byte orders. Each intent past its expiry is looked up by a query. -/
def expiredTxids (localHeight : Nat) (next : List Bytes → WriteProgram C) :
    List OutgoingTransactionIntent → List Bytes → WriteProgram C
  | [], expired => next expired
  | intent :: rest, expired =>
    if intent.expiryHeight = 0 ∨ localHeight ≤ intent.expiryHeight then
      expiredTxids localHeight next rest expired
    else .select (fun tables =>
      if outgoingTransactionIsConfirmed intent.txid tables.transactions then
        expiredTxids localHeight next rest expired
      else expiredTxids localHeight next rest (expired ++ txidHexCandidates intent.txid))

/-- The notes `release_expired_outgoing_notes` releases. -/
def releasedNote (accountId : Int) (expired : List Bytes) (row : EncryptedNote C) :
    Except RowError (Option Nat) := do
  if (← cipher.decryptInt64 row.accountId) ≠ accountId then return none
  if !(← cipher.decryptBool row.spent) then return none
  match ← RowCipher.optional cipher.decryptBlob row.spentTxid with
  | none => return none
  | some spentTxid =>
    return if spentTxid.length = 32 ∧ spentTxid ∈ expired then some row.id else none

/-- `release_expired_outgoing_notes`. -/
def releaseExpiredProgram (accountId : Int) (localHeight : Nat) : WriteProgram C :=
  .select (fun tables =>
    orReturn (getOutgoingTransactionIntents cipher accountId tables) (fun intents =>
      expiredTxids localHeight (fun expired =>
        if expired.isEmpty then .finish
        else .select (fun read =>
          orReturn (collectRows (releasedNote cipher accountId expired)
              (read.notes.filter (fun row => row.spentTxid.isSome))) (fun releaseIds =>
            if releaseIds.isEmpty then .finish
            else orReturn (cipher.encryptBool false) (fun encUnspent =>
              .transaction
                { steps := fun _ => releaseIds.map (fun id =>
                    .statement (BatchTables.updateNote id (fun note =>
                      { note with spent := encUnspent, spentTxid := none })))
                  answers := ⟨false, false⟩ }
                (fun _ => .finish))))) intents []))

/-- `load_grouped` of `prepare_note_upserts`. -/
def loadGrouped (accountId : Int) (outputs : List OutputKey) (tables : BatchTables C) :
    Except RowError (List (List NoteRow)) := do
  let rows ← collectRows (cipher.readNote accountId outputs) tables.notes
  return (rows.map (·.outputKey)).dedup.map
    (fun key => rows.filter (fun row => row.outputKey = key))

/-- One group of `prepare_note_upserts`: duplicates are folded into the oldest row. -/
def foldGroupSteps (group : List NoteRow) : List (WriteStep C) :=
  if group.length = 1 then []
  else match mergeDuplicateNoteRecords group with
    | none => []
    | some (merged, duplicateIds) =>
      orFail (cipher.writeNote merged) (fun written =>
        .statement (BatchTables.updateNote merged.id (fun _ => written)) ::
          duplicateIds.map (fun id => .statement (BatchTables.deleteNote id)))

/-- `prepare_note_upserts`. -/
def prepareNoteUpsertsProgram (accountId : Int) (outputs : List OutputKey) : WriteProgram C :=
  if outputs.isEmpty then .finish
  else .select (fun tables =>
    orReturn (loadGrouped cipher accountId outputs tables) (fun grouped =>
      if grouped.all (fun group => group.length == 1) then .finish
      else .transaction
        -- the groups are read again inside the transaction
        { steps := fun read => .statement id ::
            orFail (loadGrouped cipher accountId outputs read) (fun grouped =>
              grouped.flatMap (foldGroupSteps cipher))
          answers := ⟨true, true⟩ }
        (fun _ => .finish)))

/-! ## The writers together -/

/-- A call of one of the batch writers. -/
inductive BatchWriter where
  | upsertUnlinkedSpendNullifiersWithTxid (accountId now : Int)
      (entries : List (NoteType × Bytes × Bytes))
  | reconcileUnlinkedSpendNullifiersWithNotes (accountId : Int)
  | consumeUnlinkedSpendsForNullifiers (accountId : Int) (nullifiers : List TypedNullifier)
  | markNotesSpentByNullifiersWithTxid (accountId : Int) (entries : List (Bytes × Bytes))
  | markNotesSpentByIdsWithTxid (entries : List (Nat × Bytes))
  | applySpendUpdatesWithTxmeta (accountId : Int) (spendUpdates : List (Nat × Bytes))
      (fallbackEntries : List (Bytes × Bytes)) (txMeta : List (String × Int × Int × Int))
  | releaseExpiredOutgoingNotes (accountId : Int) (localHeight : Nat)
  | prepareNoteUpserts (accountId : Int) (outputs : List OutputKey)

def BatchWriter.program : BatchWriter → WriteProgram C
  | .upsertUnlinkedSpendNullifiersWithTxid accountId now entries =>
    upsertUnlinkedProgram cipher accountId now entries
  | .reconcileUnlinkedSpendNullifiersWithNotes accountId => reconcileProgram cipher accountId
  | .consumeUnlinkedSpendsForNullifiers accountId nullifiers =>
    consumeUnlinkedProgram cipher accountId nullifiers
  | .markNotesSpentByNullifiersWithTxid accountId entries =>
    markByNullifiersProgram cipher accountId entries
  | .markNotesSpentByIdsWithTxid entries => markByIdsProgram cipher entries
  | .applySpendUpdatesWithTxmeta accountId spendUpdates fallbackEntries txMeta =>
    applySpendUpdatesProgram cipher accountId spendUpdates fallbackEntries txMeta
  | .releaseExpiredOutgoingNotes accountId localHeight =>
    releaseExpiredProgram cipher accountId localHeight
  | .prepareNoteUpserts accountId outputs => prepareNoteUpsertsProgram cipher accountId outputs

/-- Where a transaction of the call may fail without being left open. -/
def BatchWriter.answered : BatchWriter → End → Bool
  | .prepareNoteUpserts .., _ => true
  | .applySpendUpdatesWithTxmeta .., failure => failure != .commit
  | _, failure => failure == .statement || failure == .abortedCommit

/-! ## When an error leaves nothing behind -/

variable {cipher}

theorem orReturn_follows {α : Type} {answers : Answers} {result : Except RowError α}
    {next : α → WriteProgram C} (h : ∀ a, (next a).Follows answers) :
    (orReturn result next).Follows answers := by
  cases result with
  | error error => exact trivial
  | ok a => exact h a

theorem ite_follows {answers : Answers} {c : Prop} [Decidable c] {program : WriteProgram C}
    (h : program.Follows answers) :
    (if c then Program.finish else program).Follows answers := by
  split
  · exact trivial
  · exact h

theorem markByNullifiersThen_follows {accountId : Int} {entries : List (Bytes × Bytes)}
    {next : BatchTables C → WriteProgram C} (h : ∀ tables, (next tables).Follows ⟨false, false⟩) :
    (markByNullifiersThen cipher accountId entries next).Follows ⟨false, false⟩ :=
  orReturn_follows (fun _ _ => ⟨rfl, h⟩)

theorem expiredTxids_follows {answers : Answers} {localHeight : Nat}
    {next : List Bytes → WriteProgram C} (h : ∀ expired, (next expired).Follows answers)
    (intents : List OutgoingTransactionIntent) (expired : List Bytes) :
    (expiredTxids localHeight next intents expired).Follows answers := by
  induction intents generalizing expired with
  | nil => exact h expired
  | cons intent rest ih =>
    unfold expiredTxids
    split
    · exact ih expired
    · intro tables
      dsimp only
      split
      · exact ih _
      · exact ih _

theorem reconcileProgram_follows (accountId : Int) :
    (reconcileProgram cipher accountId).Follows ⟨false, false⟩ := by
  intro listed
  refine orReturn_follows (fun entries => ite_follows (markByNullifiersThen_follows ?_))
  intro _ marked
  refine orReturn_follows (fun resolved => ite_follows ?_)
  intro read
  exact ⟨rfl, fun _ => trivial⟩

theorem releaseExpiredProgram_follows (accountId : Int) (localHeight : Nat) :
    (releaseExpiredProgram cipher accountId localHeight).Follows ⟨false, false⟩ := by
  intro tables
  refine orReturn_follows (fun intents => expiredTxids_follows (fun expired => ite_follows ?_) _ _)
  intro read
  refine orReturn_follows (fun releaseIds => ite_follows (orReturn_follows ?_))
  intro encUnspent
  exact ⟨rfl, fun _ => trivial⟩

/-- What the transactions of a call answer. -/
def BatchWriter.answers : BatchWriter → Answers
  | .prepareNoteUpserts .. => ⟨true, true⟩
  | .applySpendUpdatesWithTxmeta .. => ⟨true, false⟩
  | _ => ⟨false, false⟩

theorem BatchWriter.answers_covers (writer : BatchWriter) (failure : End) :
    writer.answers.covers failure = writer.answered failure := by
  cases writer <;> cases failure <;> rfl

theorem BatchWriter.program_follows (writer : BatchWriter) :
    (writer.program cipher).Follows writer.answers := by
  cases writer with
  | upsertUnlinkedSpendNullifiersWithTxid accountId now entries =>
    exact ite_follows (fun _ => orReturn_follows (fun _ => ⟨rfl, fun _ => trivial⟩))
  | reconcileUnlinkedSpendNullifiersWithNotes accountId => exact reconcileProgram_follows accountId
  | consumeUnlinkedSpendsForNullifiers accountId nullifiers =>
    exact ite_follows (fun _ => orReturn_follows (fun _ => ite_follows ⟨rfl, fun _ => trivial⟩))
  | markNotesSpentByNullifiersWithTxid accountId entries =>
    exact ite_follows (markByNullifiersThen_follows (fun _ => trivial))
  | markNotesSpentByIdsWithTxid entries =>
    exact ite_follows (orReturn_follows (fun _ => ⟨rfl, fun _ => trivial⟩))
  | applySpendUpdatesWithTxmeta accountId spendUpdates fallbackEntries txMeta =>
    exact ite_follows (orReturn_follows (fun _ => ⟨rfl, fun _ => trivial⟩))
  | releaseExpiredOutgoingNotes accountId localHeight =>
    exact releaseExpiredProgram_follows accountId localHeight
  | prepareNoteUpserts accountId outputs =>
    exact ite_follows (fun _ => orReturn_follows (fun _ => ite_follows ⟨rfl, fun _ => trivial⟩))

/-- **An error of a batch writer.** On a free connection, an error leaves the tables as they
were when the transaction began and no transaction open, exactly if what ended the transaction
is a failure the writer answers: a refused statement in all of them, a value that does not
decrypt or encrypt in `apply_spend_updates_with_txmeta`, anything in
`prepare_note_upserts`. -/
theorem batch_writer_error_clean_iff (cipher : RowCipher C) (refused : Nat → Option Refusal)
    (conn : Conn (BatchTables C)) (hfree : conn.begun = none) (writer : BatchWriter) :
    ((writer.program cipher).run refused conn).Clean ↔
      ∀ failure, (writer.program cipher).failsIn refused conn = some failure →
        writer.answered failure = true := by
  simp only [← writer.answers_covers]
  exact clean_iff_answered writer.program_follows hfree

end Writers

/-! ## A row that does not decrypt -/

/-- A cipher for small cases: a ciphertext is the message itself, or does not decrypt. -/
def plainCipher : RowCipher (Option Bytes) where
  encrypt := fun bytes => .ok (some bytes)
  decrypt := fun
    | none => .error "Decryption failed"
    | some bytes => .ok bytes

/-- A note of account 1 whose nullifier is thirty-two sevens. -/
def plainNote (accountId : Option Bytes) : EncryptedNote (Option Bytes) where
  id := 1
  noteType := .sapling
  accountId := accountId
  value := some (i64ToLeBytes 1000)
  nullifier := some (List.replicate 32 7)
  commitment := some (List.replicate 32 3)
  spent := some [0]
  height := some (i64ToLeBytes 100)
  txid := some (List.replicate 32 4)
  outputIndex := some (i64ToLeBytes 0)
  spentTxid := none
  diversifier := some (some [])
  note := some (some [])
  position := none
  memo := none
  addressId := none
  keyId := none

/-- A free connection to a database with one note. -/
def plainConn (accountId : Option Bytes) : Conn (BatchTables (Option Bytes)) where
  tables :=
    { notes := [plainNote accountId]
      walletSecrets := []
      memos := []
      accountKeys := []
      paymentDisclosures := []
      frontierSnapshots := []
      outgoingTransactionIntents := []
      unlinkedSpendNullifiers := []
      nextUnlinkedId := 1
      transactions := [] }
  begun := none
  clock := 0

/-- The spend of the note by a transaction. -/
def plainMark : BatchWriter :=
  .markNotesSpentByNullifiersWithTxid 1 [(List.replicate 32 7, List.replicate 32 9)]

/-- A refused update is rolled back: the error leaves nothing behind. -/
theorem batch_writer_error_clean_refused_update :
    ((plainMark.program plainCipher).run (fun clock => if clock = 2 then some .keeps else none)
        (plainConn (some (i64ToLeBytes 1)))).error.isSome = true ∧
      ((plainMark.program plainCipher).run (fun clock => if clock = 2 then some .keeps else none)
        (plainConn (some (i64ToLeBytes 1)))).Clean :=
  ⟨by decide +kernel, (batch_writer_error_clean_iff plainCipher _ _ rfl plainMark).mpr
    (by decide +kernel)⟩

/-- No statement is refused, but the account of a row does not decrypt: the error leaves the
transaction open, and no other can begin. -/
theorem batch_writer_error_leaves_transaction :
    ((plainMark.program plainCipher).run (fun _ => none) (plainConn none)).error.isSome = true ∧
      ¬((plainMark.program plainCipher).run (fun _ => none) (plainConn none)).Clean ∧
      (((BatchWriter.markNotesSpentByIdsWithTxid [(1, List.replicate 32 9)]).program
        plainCipher).run (fun _ => none)
        ((plainMark.program plainCipher).run (fun _ => none) (plainConn none)).conn).error =
        some .refused := by
  refine ⟨by decide +kernel, ?_, by decide +kernel⟩
  intro hclean
  have hopen : ((plainMark.program plainCipher).run (fun _ => none)
      (plainConn none)).conn.begun.isSome = true := by decide +kernel
  rw [(hclean (by decide +kernel)).1] at hopen
  cases hopen

end StashiWallet
