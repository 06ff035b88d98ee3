import StashiWallet.CommitmentTree
import StashiWallet.SpendabilityState
import StashiWallet.ScanQueue

/-!
# The wallet database and its truncation

One record holds the tables the sync engine works on. `truncateAboveHeight` is the whole
rollback transaction: it deletes what lies above a height, releases notes whose spending
transaction is deleted, rewinds both commitment trees, rebuilds the derived shard metadata
and clamps the cursor and the spendability row.

Rows are cut at the requested height. The trees can only be cut at a checkpoint both of
them have, so they, and with them the cursor, land on `newestCommonCheckpoint`, which is the
value returned.
-/

namespace StashiWallet

/-- The tables of a wallet database. -/
structure WalletDb where
  notes : Notes
  unlinkedSpends : UnlinkedSpends
  transactions : List TransactionRow
  memos : List MemoRow
  chainBlocks : List ChainBlockRow
  checkpoints : List CheckpointRow
  frontierSnapshots : List FrontierSnapshotRow
  scanQueue : ScanQueue
  saplingTree : CommitmentTree
  orchardTree : CommitmentTree
  saplingNoteShards : List NoteShardRow
  orchardNoteShards : List NoteShardRow
  syncState : SyncStateRow
  spendabilityState : SpendabilityStateRow

/-- The database as the migrations leave it. -/
def WalletDb.fresh (now : String) : WalletDb where
  notes := AutoTable.empty
  unlinkedSpends := AutoTable.empty
  transactions := []
  memos := []
  chainBlocks := []
  checkpoints := []
  frontierSnapshots := []
  scanQueue := ScanQueue.empty
  saplingTree := CommitmentTree.empty
  orchardTree := CommitmentTree.empty
  saplingNoteShards := []
  orchardNoteShards := []
  syncState := ⟨0, 0, 0, now⟩
  spendabilityState := SpendabilityStateRow.default now

/-! ## Note shard metadata -/

/-- `NOTE_SHARD_INDEX_BITS`. -/
def noteShardIndexBits : Nat := 16

/-- `ON CONFLICT(shard_index) DO UPDATE`: the height span of the shard grows. -/
def NoteShardRow.absorb (row excluded : NoteShardRow) : NoteShardRow :=
  { row with
    startPosition := excluded.startPosition
    endPositionExclusive := excluded.endPositionExclusive
    subtreeStartHeight := min row.subtreeStartHeight excluded.subtreeStartHeight
    subtreeEndHeight :=
      match row.subtreeEndHeight, excluded.subtreeEndHeight with
      | none, other => other
      | some end_, none => some end_
      | some end_, some other => some (max end_ other)
    containsMarked := true }

/-- `INSERT INTO …_note_shards … ON CONFLICT(shard_index) DO UPDATE`. -/
def upsertNoteShard (shards : List NoteShardRow) (excluded : NoteShardRow) :
    List NoteShardRow :=
  if shards.any (fun row => row.shardIndex == excluded.shardIndex) then
    shards.map (fun row => if row.shardIndex == excluded.shardIndex then row.absorb excluded else row)
  else shards ++ [excluded]

/-- The shard row a note at a position and height contributes, if it has a position on the
chain. -/
def noteShardOf (position : Option Int) (height : Int) : Option NoteShardRow :=
  if height ≤ 0 then none
  else match position with
    | none => none
    | some position =>
      if position < 0 then none
      else
        let shardIndex := position.toNat >>> noteShardIndexBits
        some {
          shardIndex := shardIndex
          startPosition := shardIndex <<< noteShardIndexBits
          endPositionExclusive := (shardIndex + 1) <<< noteShardIndexBits
          subtreeStartHeight := height
          subtreeEndHeight := some height
          containsMarked := true }

/-- The shard metadata of one pool rebuilt from the given notes. -/
def rebuildNoteShards (noteType : NoteType) (notes : List NoteRow) : List NoteShardRow :=
  ((notes.filter (fun note => note.noteType == noteType)).filterMap
    (fun note => noteShardOf note.position note.height)).foldl upsertNoteShard []

/-! ## Truncation -/

/-- `MAX(s.checkpoint_id)` over the checkpoints both trees have, at or below a height. -/
def newestCommonCheckpoint (sapling orchard : CommitmentTree) (height : Nat) : Option Nat :=
  ((sapling.checkpoints.map TreeCheckpoint.checkpointId).filter
    (fun id => id ≤ height && orchard.hasCheckpoint id)).max?

/-- `collect_transaction_txids_above_height`: both byte orders of every deleted id. -/
def collectTransactionTxidsAboveHeight (transactions : List TransactionRow) (height : Nat) :
    List Bytes :=
  (transactions.filter (fun tx => tx.height > (height : Int))).flatMap
    (fun tx => txidHexCandidates tx.txid)

/-- The note's recorded spending transaction is one of `txids`. -/
def NoteRecord.spentByAny (txids : List Bytes) (note : NoteRecord) : Bool :=
  match note.spentTxid with
  | some txid => txid.length == 32 && txids.contains txid
  | none => false

/-- The note with its spend forgotten. -/
def NoteRow.unspend (note : NoteRow) : NoteRow :=
  { note with spent := false, spentTxid := none }

def resetNotesSpentByTxids (txids : List Bytes) (notes : Notes) : Notes :=
  notes.updateWhere (fun note => note.spentByAny txids) NoteRow.unspend (fun _ => rfl)

def deleteUnlinkedSpendsByTxids (txids : List Bytes) (spends : UnlinkedSpends) :
    UnlinkedSpends :=
  spends.deleteWhere (fun row => row.spendingTxid.length == 32 && txids.contains row.spendingTxid)

/-- A tree rewound to the common checkpoint, or emptied when there is none. -/
def rewindTree (commonTreeCheckpoint : Option Nat) (tree : CommitmentTree) : CommitmentTree :=
  match commonTreeCheckpoint with
  | some checkpointId => tree.truncateToCheckpoint checkpointId
  | none => CommitmentTree.empty

/-- The tables after `truncate_above_height` with a height that fits. -/
def WalletDb.truncated (now : String) (height : Nat) (db : WalletDb) : WalletDb :=
  let commonTreeCheckpoint := newestCommonCheckpoint db.saplingTree db.orchardTree height
  let treeReplayHeight := commonTreeCheckpoint.getD 0
  let orphanedSpendTxids := collectTransactionTxidsAboveHeight db.transactions height
  -- a note whose spending transaction is cut away is unspent again
  let notes := (resetNotesSpentByTxids orphanedSpendTxids db.notes).deleteWhere
    (fun note => note.height > (height : Int))
  { notes := notes
    unlinkedSpends := deleteUnlinkedSpendsByTxids orphanedSpendTxids db.unlinkedSpends
    transactions := db.transactions.filter (fun tx => tx.height ≤ (height : Int))
    memos := db.memos.filter (fun memo =>
      !db.transactions.any (fun tx => tx.height > (height : Int) && tx.id == memo.txId))
    chainBlocks := db.chainBlocks.filter (fun block => block.height ≤ height)
    checkpoints := db.checkpoints.filter (fun row => row.height ≤ height)
    frontierSnapshots := db.frontierSnapshots.filter (fun row => row.height ≤ height)
    scanQueue := db.scanQueue.deleteWhere (fun row => row.rangeEnd > saturatingAdd height 1)
    saplingTree := rewindTree commonTreeCheckpoint db.saplingTree
    orchardTree := rewindTree commonTreeCheckpoint db.orchardTree
    saplingNoteShards := rebuildNoteShards .sapling notes.rows
    orchardNoteShards := rebuildNoteShards .ironwood notes.rows
    syncState := { db.syncState with
      localHeight := treeReplayHeight
      lastCheckpointHeight := treeReplayHeight
      updatedAt := now }
    spendabilityState := db.spendabilityState.truncateAboveHeight now height }

/-- `truncate_above_height`: the commitment-tree replay point and the database after the
transaction. -/
def WalletDb.truncateAboveHeight (now : String) (height : Nat) (db : WalletDb) :
    Except StorageError (Nat × WalletDb) := do
  let height ← heightToSqlI64 height
  let _queueEndExclusive ← heightToSqlI64 (saturatingAdd height 1)
  return ((newestCommonCheckpoint db.saplingTree db.orchardTree height).getD 0,
    db.truncated now height)

theorem truncateAboveHeight_eq_ok {now : String} {height : Nat} {db : WalletDb}
    {result : Nat × WalletDb} :
    db.truncateAboveHeight now height = .ok result ↔
      height + 1 ≤ i64Max ∧
        result = ((newestCommonCheckpoint db.saplingTree db.orchardTree height).getD 0,
          db.truncated now height) := by
  unfold WalletDb.truncateAboveHeight
  simp only [heightToSqlI64_bind_eq_ok, pure, Except.pure, Except.ok.injEq, saturatingAdd]
  have hbound : height ≤ i64Max ∧ min (height + 1) u64Max ≤ i64Max ↔ height + 1 ≤ i64Max := by
    simp only [i64Max, u64Max]
    omega
  rw [← and_assoc, hbound]
  exact and_congr_right fun _ => eq_comm

/-- The newest common checkpoint is a checkpoint of both trees, at or below the height, and
no higher one is. -/
theorem newestCommonCheckpoint_eq_some {sapling orchard : CommitmentTree} {height id : Nat} :
    newestCommonCheckpoint sapling orchard height = some id ↔
      (id ≤ height ∧ sapling.hasCheckpoint id = true ∧ orchard.hasCheckpoint id = true) ∧
      ∀ other, other ≤ height → sapling.hasCheckpoint other = true →
        orchard.hasCheckpoint other = true → other ≤ id := by
  have hmem : ∀ n, n ∈ (sapling.checkpoints.map TreeCheckpoint.checkpointId).filter
      (fun id => id ≤ height && orchard.hasCheckpoint id) ↔
      (n ≤ height ∧ sapling.hasCheckpoint n = true ∧ orchard.hasCheckpoint n = true) := by
    intro n
    simp only [List.mem_filter, List.mem_map, Bool.and_eq_true, decide_eq_true_eq,
      CommitmentTree.hasCheckpoint_iff]
    tauto
  rw [newestCommonCheckpoint, List.max?_eq_some_iff, hmem]
  refine and_congr_right fun _ => ⟨?_, ?_⟩
  · intro h other h₁ h₂ h₃
    exact h other ((hmem other).mpr ⟨h₁, h₂, h₃⟩)
  · intro h other hother
    obtain ⟨h₁, h₂, h₃⟩ := (hmem other).mp hother
    exact h other h₁ h₂ h₃

end StashiWallet
