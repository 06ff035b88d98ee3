import StashiWallet.BatchPipeline
import StashiWallet.BatchWriters

/-!
# Outgoing transactions that expire

A transaction the wallet broadcasts locks the notes it spends: they are marked spent by it.
If the chain passes the expiry height without the transaction, the notes are released.
Whether it was mined is read off `transactions`, where scanning records the transactions that
concern the wallet, and the passed height off the scan cursor.

Both are written by the batches of a sync, the cursor by two of their writes. The state of a
run therefore remembers, beside the engine and the intents, which transactions lay in scanned
blocks and which of them are still waiting for their batch to apply its spends.
-/

namespace StashiWallet

/-! ## Intents -/

/-- `upsert_outgoing_transaction_intent` for an id that was validated and put in lower case. A
height recorded for the transaction stays. -/
def storeIntent (intent : OutgoingTransactionIntent)
    (intents : List OutgoingTransactionIntent) (transactions : List TransactionRow) :
    List OutgoingTransactionIntent × List TransactionRow :=
  (if intents.any (fun stored => stored.txid == intent.txid) then
      intents.map (fun stored => if stored.txid == intent.txid then intent else stored)
    else intents ++ [intent],
    if transactions.any (fun tx => tx.txid == intent.txid) then
      transactions.map (fun tx => if tx.txid == intent.txid then
        { tx with
          timestamp := if 0 < tx.height then tx.timestamp else intent.broadcastAt
          fee := intent.fee } else tx)
    else transactions ++ [⟨(transactions.map (·.id)).foldl max 0 + 1, intent.txid, 0,
      intent.broadcastAt, intent.fee⟩])

def initializeLegacyOutgoingExpiries (accountId : Int) (localHeight transactionLifetime : Nat)
    (transactions : List TransactionRow) (intents : List OutgoingTransactionIntent) :
    List OutgoingTransactionIntent :=
  let expiryHeight := min (saturatingAdd localHeight transactionLifetime) u32Max
  intents.map (fun intent =>
    if intent.accountId == accountId && intent.expiryHeight == 0 &&
        !outgoingTransactionIsConfirmed intent.txid transactions then
      { intent with expiryHeight := expiryHeight }
    else intent)

/-! ## Releasing notes -/

/-- The ids of the expired intents, in both byte orders. -/
def expiredOutgoingTxids (accountId : Int) (localHeight : Nat)
    (intents : List OutgoingTransactionIntent) (transactions : List TransactionRow) :
    List Bytes :=
  (intents.filter (fun intent => intent.accountId == accountId && intent.expiryHeight != 0 &&
    decide (intent.expiryHeight < localHeight) &&
    !outgoingTransactionIsConfirmed intent.txid transactions)).flatMap
    (fun intent => txidHexCandidates intent.txid)

theorem NoteRow.unspend_id (row : NoteRow) : row.unspend.id = row.id := rfl

/-- The update of `release_expired_outgoing_notes`. -/
def Notes.releaseSpentBy (accountId : Int) (txids : List Bytes) (notes : Notes) : Notes :=
  notes.updateWhere (fun row => row.accountId == accountId && row.spent && row.spentByAny txids)
    NoteRow.unspend NoteRow.unspend_id

/-- `release_expired_outgoing_notes`, on the decrypted tables. -/
def WalletDb.releaseExpiredOutgoingNotes (accountId : Int) (localHeight : Nat)
    (intents : List OutgoingTransactionIntent) (db : WalletDb) : WalletDb :=
  { db with
    notes := db.notes.releaseSpentBy accountId
      (expiredOutgoingTxids accountId localHeight intents db.transactions) }

/-! ## Runs -/

/-- The blocks a write brings along. -/
def DurableWrite.blocks : DurableWrite → List CompactBlockData
  | .updateCommitmentTrees _ => []
  | .persistNotes input => input.blocks
  | .applySpends input => input.blocks
  | .createCheckpoint _ => []
  | .saveSyncState blocks _ => blocks

/-- The transactions of some blocks, with their heights. -/
def minedTransactions (blocks : List CompactBlockData) : List (Nat × Bytes) :=
  (blockTransactions blocks).map (fun entry => (entry.1.height, entry.2.hash))

/-- The engine and the intents; and of the past, the transactions in scanned blocks and those
of them whose spends have not been applied yet. -/
structure OutgoingRun where
  engine : SyncEngine
  intents : List OutgoingTransactionIntent
  scanned : List (Nat × Bytes)
  pending : List (Nat × Bytes)

def OutgoingRun.localHeight (run : OutgoingRun) : Nat := run.engine.db.syncState.localHeight

/-- What happens to the wallet: the writes of batches, the loading of the cache, truncations,
the calls of the send flow, and the release of expired notes. A refused statement undoes a
release that is not `done`. -/
inductive OutgoingCall where
  | write (write : DurableWrite)
  | ensureNullifierCache
  | truncate (now : String) (height : Nat)
  | storeIntent (intent : OutgoingTransactionIntent)
  | lockNotes (accountId : Int) (entries : List (Bytes × Bytes))
  | initializeLegacyExpiries (accountId : Int) (transactionLifetime : Nat)
  | release (accountId : Int) (done : Bool)

def OutgoingRun.putDb (db : WalletDb) (run : OutgoingRun) : OutgoingRun :=
  { run with engine := { run.engine with db := db } }

/-- The transactions still waiting after a write. -/
def OutgoingRun.pendingAfter (write : DurableWrite) (run : OutgoingRun) : List (Nat × Bytes) :=
  match write with
  | .applySpends input => run.pending.filter (fun entry => entry ∉ minedTransactions input.blocks)
  | other => run.pending ++
      (minedTransactions other.blocks).filter (fun entry => entry ∉ run.scanned)

def OutgoingRun.step (run : OutgoingRun) : OutgoingCall → OutgoingRun
  | .write write =>
    { run with
      engine := run.engine.write write
      scanned := run.scanned ++ minedTransactions write.blocks
      pending := run.pendingAfter write }
  | .ensureNullifierCache => { run with engine := run.engine.ensureNullifierCache }
  | .truncate now height =>
    match run.engine.rollbackToCheckpoint now height with
    | .error _ => run
    | .ok (_, rolledBack) =>
      { run with
        engine := rolledBack
        scanned := run.scanned.filter (fun entry => entry.1 ≤ height)
        pending := run.pending.filter (fun entry => entry.1 ≤ height) }
  | .storeIntent intent =>
    let (intents, transactions) := StashiWallet.storeIntent intent run.intents
      run.engine.db.transactions
    { run.putDb { run.engine.db with transactions := transactions } with intents := intents }
  | .lockNotes accountId entries =>
    run.putDb { run.engine.db with
      notes := run.engine.db.notes.spendByNullifier accountId (BulkMap.insertAll ∅ entries) }
  | .initializeLegacyExpiries accountId transactionLifetime =>
    { run with
      intents := initializeLegacyOutgoingExpiries accountId run.localHeight transactionLifetime
        run.engine.db.transactions run.intents }
  | .release accountId done =>
    if done then run.putDb
      (run.engine.db.releaseExpiredOutgoingNotes accountId run.localHeight run.intents)
    else run

/-! ## What a release should do -/

/-- A stored id stands for the intent's transaction, in one of the byte orders. -/
def OutgoingTransactionIntent.Names (intent : OutgoingTransactionIntent) (txidHex : String) :
    Prop :=
  txidHex = intent.txid ∨ reverseTxidHex intent.txid = some txidHex

/-- The intent is past its expiry height, and no confirmed transaction has its id in either byte
order. -/
structure OutgoingTransactionIntent.Expired (accountId : Int) (localHeight : Nat)
    (transactions : List TransactionRow) (intent : OutgoingTransactionIntent) : Prop where
  accountId : intent.accountId = accountId
  expiryHeight_pos : 0 < intent.expiryHeight
  expiryHeight_lt : intent.expiryHeight < localHeight
  unconfirmed : ∀ tx ∈ transactions, intent.Names tx.txid → tx.height ≤ 0

/-- The note of the account is locked by an expired intent. -/
def OutgoingRun.LockedByExpired (run : OutgoingRun) (accountId : Int) (row : NoteRow) : Prop :=
  row.accountId = accountId ∧ ∃ intent ∈ run.intents,
    intent.Expired accountId run.localHeight run.engine.db.transactions ∧
    ∃ txid, hexDecode intent.txid.toList = some txid ∧ txid.length = 32 ∧
      (row.spentTxid = some txid ∨ row.spentTxid = some txid.reverse)

/-- A release clears the notes locked by expired intents and no others, and of none of them a
scanned block up to the local height contains the spending transaction. -/
def OutgoingRun.ReleasesExpired (run : OutgoingRun) : OutgoingCall → Prop
  | .release accountId true =>
    (∀ row ∈ run.engine.db.notes.rows,
      ∀ row' ∈ (run.step (.release accountId true)).engine.db.notes.rows, row'.id = row.id →
        (run.LockedByExpired accountId row → row' = row.unspend) ∧
        (¬ run.LockedByExpired accountId row → row' = row)) ∧
    (run.step (.release accountId true)).engine.db.notes.rows.map (·.id) =
      run.engine.db.notes.rows.map (·.id) ∧
    ∀ row ∈ run.engine.db.notes.rows, run.LockedByExpired accountId row →
      ∀ mined ∈ run.scanned, mined.1 ≤ run.localHeight →
        row.spentTxid ≠ some mined.2 ∧ row.spentTxid ≠ some mined.2.reverse
  | _ => True

/-! ## What is asked of the calls -/

/-- A note with a spending transaction is spent. -/
def NoteRecord.Marked (note : NoteRecord) : Prop := note.spentTxid.isSome = true → note.spent = true

/-- All notes with a spending transaction are spent. -/
def Notes.Marked (notes : Notes) : Prop := ∀ row ∈ notes.rows, row.Marked

/-- The transaction is recorded for the intent at its height or below. -/
def RecordedFor (intent : OutgoingTransactionIntent) (height : Nat)
    (transactions : List TransactionRow) : Prop :=
  ∃ tx ∈ transactions, intent.Names tx.txid ∧ 0 < tx.height ∧ tx.height ≤ height

/-- `apply_spends` recognises the transactions of intents in its blocks: it does not fail, and
each of them reveals a nullifier the cache knows, unless it is recorded already. -/
def OutgoingRun.Recognises (run : OutgoingRun) (input : SpendInput) : Prop :=
  ∀ entry ∈ blockTransactions input.blocks, ∀ intent ∈ run.intents,
    entry.2.hash ∈ txidHexCandidates intent.txid →
    RecordedFor intent entry.1.height run.engine.db.transactions ∨
      (input.applyFault = none ∧ entry.2.matches run.engine.nullifierCache ≠ [])

/-- Where the calls keep track of the transactions that were mined:

* the blocks of the batches are of one chain: their heights fit, a transaction is in one block
  only, and a note has the height of the block of its transaction;
* `apply_spends` recognises the transactions of intents;
* notes are not released between two writes of a batch that lies, up to the cursor, in a block
  with the transaction of an expired intent that is not recorded yet;
* an intent is stored before its transaction is mined, or after that was recorded. -/
def OutgoingRun.KeepsTrack (run : OutgoingRun) : OutgoingCall → Prop
  | .write write =>
    (∀ mined ∈ minedTransactions write.blocks, 0 < mined.1 ∧ mined.1 ≤ i64Max) ∧
    (∀ mined ∈ minedTransactions write.blocks,
      ∀ other ∈ run.scanned ++ minedTransactions write.blocks,
        mined.2 = other.2 ∨ mined.2 = other.2.reverse → mined.1 = other.1) ∧
    match write with
    | .persistNotes input => ∀ n ∈ input.notes,
        ∀ other ∈ run.scanned ++ minedTransactions input.blocks,
          n.txid = other.2 ∨ n.txid = other.2.reverse → n.height = other.1
    | .applySpends input => run.Recognises input
    | _ => True
  | .storeIntent intent => ∀ mined ∈ run.scanned, mined ∉ run.pending →
      mined.2 ∈ txidHexCandidates intent.txid →
        RecordedFor intent mined.1 run.engine.db.transactions
  | .release accountId true => ∀ mined ∈ run.pending, mined.1 ≤ run.localHeight →
      ∀ intent ∈ run.intents, mined.2 ∈ txidHexCandidates intent.txid →
        ¬ intent.Expired accountId run.localHeight run.engine.db.transactions
  | _ => True

end StashiWallet
