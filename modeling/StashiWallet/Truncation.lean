import StashiWallet.BatchWriters
import StashiWallet.ShardStore

/-!
# The rollback transaction on stored rows

`truncate_above_height` as it runs on the database: heights, positions and spending ids of notes
are cells that have to be read, and a note is unspent by a new ciphertext. A cell that does not
hold eight bytes gives no height, and its note stays.

The trees are cut by the shard tree library, which is a parameter.
-/

namespace StashiWallet

/-- A value of SQLite other than `NULL`; a real stands as its cast to an `i64`. -/
inductive Cell where
  | integer (value : Int)
  | real (truncated : Int)
  | text (bytes : Bytes)
  | blob (bytes : Bytes)
deriving DecidableEq, Repr

/-- The tables of one commitment tree. -/
structure TreeTables extends ShardStore.ShardTables where
  retainedCheckpoints : List ShardStore.BlockHeight := []

/-- The tables that a rollback reads or writes. -/
structure StoredWallet where
  notes : AutoTable (EncryptedNote Cell) EncryptedNote.id
  unlinkedSpends : AutoTable (EncryptedUnlinkedSpend Cell) EncryptedUnlinkedSpend.id
  transactions : List TransactionRow
  memos : List (EncryptedMemo Cell)
  chainBlocks : List ChainBlockRow
  checkpoints : List CheckpointRow
  frontierSnapshots : List (EncryptedFrontier Cell)
  scanQueue : ScanQueue
  saplingTree : TreeTables
  orchardTree : TreeTables
  saplingNoteShards : List NoteShardRow
  orchardNoteShards : List NoteShardRow
  syncState : SyncStateRow
  spendabilityState : SpendabilityStateRow

inductive TruncateError where
  | encryption (message : String)
  | storage (message : String)
  | database (message : String)
deriving DecidableEq, Repr

/-- `ShardTree::truncate_to_checkpoint` over the store of a pool. -/
abbrev TruncateTree : Type := ShardStore.BlockHeight → TreeTables → Except String TreeTables

/-! ## Reading cells -/

/-- The digits of a decimal number. -/
def parseDigits (bytes : Bytes) : Option Nat :=
  if bytes.isEmpty then none
  else bytes.foldlM (fun value byte =>
    if 48 ≤ byte ∧ byte ≤ 57 then some (value * 10 + (byte.toNat - 48)) else none) 0

def parseI64 : Bytes → Option Int
  | 45 :: digits => (parseDigits digits).bind fun value =>
    if value ≤ i64Max + 1 then some (-(value : Int)) else none
  | 43 :: digits => (parseDigits digits).bind fun value =>
    if value ≤ i64Max then some (value : Int) else none
  | digits => (parseDigits digits).bind fun value =>
    if value ≤ i64Max then some (value : Int) else none

section Reading

variable (decrypt : Bytes → Except String Bytes)

/-- A height or a position, or nothing for a cell without one. -/
def readI64Cell (column : String) (id : Nat) : Option Cell → Except TruncateError (Option Int)
  | none => .ok none
  | some (.integer value) => .ok (some value)
  | some (.real value) => .ok (some value)
  | some (.text bytes) => .ok (parseI64 bytes)
  | some (.blob bytes) => do
    let decrypted ← (decrypt bytes).mapError fun e =>
      .encryption s!"Failed to decrypt note {column} for note id {id}: {e}"
    return if decrypted.length = 8 then some (i64FromLeBytes decrypted) else none

/-- `row.get::<_, Vec<u8>>`. -/
def blobOf : Cell → Except TruncateError Bytes
  | .blob bytes => .ok bytes
  | .integer _ => .error (.database "Invalid column type Integer")
  | .real _ => .error (.database "Invalid column type Real")
  | .text _ => .error (.database "Invalid column type Text")

/-- The decrypted ids of rows, those of 32 bytes. -/
def readTxids : List (Nat × Bytes) → Except TruncateError (List (Nat × Bytes))
  | [] => .ok []
  | (id, encrypted) :: rows => do
    let txid ← (decrypt encrypted).mapError TruncateError.encryption
    let rest ← readTxids rows
    return if txid.length = 32 then (id, txid) :: rest else rest

/-- What the scan keeps of a note, or the note's id if it lies above the height. -/
def scanNotes (height : Int) :
    List (EncryptedNote Cell) → Except TruncateError (List Nat × List (NoteType × Option Int × Int))
  | [] => .ok ([], [])
  | row :: rows => do
    let noteHeight ← readI64Cell decrypt "height" row.id (some row.height)
    let notePosition ← readI64Cell decrypt "position" row.id row.position
    let rest ← scanNotes height rows
    return match noteHeight with
      | none => rest
      | some value =>
        if height < value then (row.id :: rest.1, rest.2)
        else (rest.1, (row.noteType, notePosition, value) :: rest.2)

end Reading

/-- The cells of a column that have to be blobs. -/
def readBlobs : List (Nat × Cell) → Except TruncateError (List (Nat × Bytes))
  | [] => .ok []
  | (id, cell) :: rows => do
    let bytes ← blobOf cell
    let rest ← readBlobs rows
    return (id, bytes) :: rest

/-! ## The statements -/

/-- `UPDATE notes SET spent = ?1, spent_txid = NULL`. -/
def EncryptedNote.unspend (encryptedUnspent : Bytes) (row : EncryptedNote Cell) :
    EncryptedNote Cell :=
  { row with spent := .blob encryptedUnspent, spentTxid := none }

theorem unspend_id (encryptedUnspent : Bytes) (row : EncryptedNote Cell) :
    (row.unspend encryptedUnspent).id = row.id := rfl

section Statements

variable (encrypt decrypt : Bytes → Except String Bytes)

/-- `reset_notes_spent_by_txids`, without its count. -/
def resetNotesSpentBy (txids : List Bytes)
    (notes : AutoTable (EncryptedNote Cell) EncryptedNote.id) :
    Except TruncateError (AutoTable (EncryptedNote Cell) EncryptedNote.id) :=
  if txids.isEmpty then .ok notes
  else do
    let rows ← readBlobs (notes.rows.filterMap fun row =>
      row.spentTxid.map fun cell => (row.id, cell))
    let encryptedUnspent ← (encrypt [0]).mapError TruncateError.encryption
    let spends ← readTxids decrypt rows
    return (spends.filter fun spend => txids.contains spend.2).foldl (fun notes spend =>
      notes.updateWhere (fun row => row.id == spend.1) (EncryptedNote.unspend encryptedUnspent)
        (unspend_id encryptedUnspent)) notes

/-- `delete_unlinked_spends_by_txids`, without its count. -/
def deleteUnlinkedSpendsBy (txids : List Bytes)
    (spends : AutoTable (EncryptedUnlinkedSpend Cell) EncryptedUnlinkedSpend.id) :
    Except TruncateError (AutoTable (EncryptedUnlinkedSpend Cell) EncryptedUnlinkedSpend.id) :=
  if txids.isEmpty then .ok spends
  else do
    let rows ← readBlobs (spends.rows.map fun row => (row.id, row.spendingTxid))
    let spendings ← readTxids decrypt rows
    return (spendings.filter fun spending => txids.contains spending.2).foldl
      (fun spends spending => spends.deleteWhere fun row => row.id == spending.1) spends

/-- `SELECT MAX(s.checkpoint_id)` over the checkpoints of both pools. -/
def commonTreeCheckpoint (sapling orchard : TreeTables) (height : Nat) :
    Option ShardStore.BlockHeight :=
  (sapling.checkpoints.keys.filter fun id =>
    decide (id.val ≤ height) && orchard.checkpoints.contains id).max?

/-- A pool's tree cut to the common checkpoint, or cleared by `clear_shardtree`. -/
def rewindTables (truncateToCheckpoint : TruncateTree) (pool : String)
    (checkpoint : Option ShardStore.BlockHeight) (tree : TreeTables) :
    Except TruncateError TreeTables :=
  match checkpoint with
  | some checkpointId => (truncateToCheckpoint checkpointId tree).mapError fun e =>
    .storage s!"Failed to truncate {pool} shardtree: {e}"
  | none => .ok {}

/-- The loop that rebuilds the shard metadata of both pools. -/
def rebuildShards (remaining : List (NoteType × Option Int × Int)) :
    List NoteShardRow × List NoteShardRow :=
  remaining.foldl (fun shards note =>
    match noteShardOf note.2.1 note.2.2, note.1 with
    | none, _ => shards
    | some row, .sapling => (upsertNoteShard shards.1 row, shards.2)
    | some row, .ironwood => (shards.1, upsertNoteShard shards.2 row)) ([], [])

/-- `truncate_above_height`. -/
def truncateStored (truncateSapling truncateOrchard : TruncateTree) (now : String)
    (requestedHeight : Nat) (db : StoredWallet) : Except TruncateError (Nat × StoredWallet) := do
  let height ← (heightToSqlI64 requestedHeight).mapError fun _ =>
    .storage s!"Height exceeds i64 range: {requestedHeight}"
  let queueEndExclusive ← (heightToSqlI64 (saturatingAdd requestedHeight 1)).mapError fun _ =>
    .storage s!"Height exceeds i64 range: {saturatingAdd requestedHeight 1}"
  let common := commonTreeCheckpoint db.saplingTree db.orchardTree height
  let treeReplayHeight := (common.map Fin.val).getD 0
  let orphanedSpendTxids := collectTransactionTxidsAboveHeight db.transactions height
  let notes ← resetNotesSpentBy encrypt decrypt orphanedSpendTxids db.notes
  let unlinkedSpends ← deleteUnlinkedSpendsBy decrypt orphanedSpendTxids db.unlinkedSpends
  let scanned ← scanNotes decrypt height notes.rows
  let saplingTree ← rewindTables truncateSapling "Sapling" common db.saplingTree
  let orchardTree ← rewindTables truncateOrchard "Orchard" common db.orchardTree
  return (treeReplayHeight,
    { notes := scanned.1.foldl (fun notes id => notes.deleteWhere fun row => row.id == id) notes
      unlinkedSpends := unlinkedSpends
      transactions := db.transactions.filter fun tx => !decide (tx.height > (height : Int))
      memos := db.memos.filter fun memo =>
        !db.transactions.any fun tx => decide (tx.height > (height : Int)) && tx.id == memo.txId
      chainBlocks := db.chainBlocks.filter fun block => !decide (block.height > height)
      checkpoints := db.checkpoints.filter fun row => !decide (row.height > height)
      frontierSnapshots := db.frontierSnapshots.filter fun row => !decide (row.height > height)
      scanQueue := db.scanQueue.deleteWhere fun row => decide (row.rangeEnd > queueEndExclusive)
      saplingTree := saplingTree
      orchardTree := orchardTree
      saplingNoteShards := (rebuildShards scanned.2).1
      orchardNoteShards := (rebuildShards scanned.2).2
      syncState := { db.syncState with
        localHeight := treeReplayHeight
        lastCheckpointHeight := treeReplayHeight
        updatedAt := now }
      spendabilityState := db.spendabilityState.truncateAboveHeight now height })

end Statements

end StashiWallet
