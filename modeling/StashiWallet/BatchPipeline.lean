import StashiWallet.SpendDetection

/-!
# A batch, write by write

`sync_range_internal` takes the chain batch by batch. For one batch it writes, in this
order: the commitment trees, the notes it decrypted, the spends it detected, a checkpoint of
the trees when one is due, and the scan cursor when it is flushed. A run that stops has done a
prefix of these writes. Between batches the engine may be rolled back: to repair a range whose
witnesses are broken, or because the block before the next batch was replaced.

What a batch brings along is input: the blocks, the notes found in them, the trees after its
leaves were appended, whether a checkpoint is due and whether the cursor is flushed, and
which storage calls fail where the source only logs the failure. A call whose failure ends
the run changes nothing here; the source stops there, and a prefix of the writes is again a
run.
-/

namespace StashiWallet

/-! ## The cursor -/

/-- `CANONICAL_BLOCK_WINDOW`. -/
def canonicalBlockWindowSize : Nat := maxReorgSearchDepth + 1

def canonicalBlockWindow (blocks : List CompactBlockData) : List CompactBlockData :=
  blocks.drop (blocks.length - canonicalBlockWindowSize)

/-- The row stored for a block. -/
def CompactBlockData.chainBlockRow (block : CompactBlockData) : ChainBlockRow :=
  ⟨block.height, block.hash, block.prevHash, block.time⟩

/-- `INSERT INTO chain_blocks … ON CONFLICT(height) DO UPDATE`. -/
def upsertChainBlock (stored : List ChainBlockRow) (block : ChainBlockRow) : List ChainBlockRow :=
  if stored.any (fun row => row.height == block.height) then
    stored.map (fun row => if row.height == block.height then block else row)
  else stored ++ [block]

/-- `save_sync_progress`: the blocks, the cursor, and the window the blocks are kept in. -/
def WalletDb.saveSyncProgress (now : String) (blocks : List ChainBlockRow)
    (localHeight targetHeight lastCheckpointHeight reorgWindow : Nat) (db : WalletDb) :
    Except StorageError WalletDb := do
  -- one transaction: a height that does not fit undoes the cursor as well
  let _ ← blocks.mapM (fun block => heightToSqlI64 block.height)
  let saved ← WalletDb.saveSyncState now localHeight targetHeight lastCheckpointHeight
    { db with chainBlocks := blocks.foldl upsertChainBlock db.chainBlocks }
  -- blocks that no reorg search can reach any more are dropped
  match blocks.getLast? with
  | none => return saved
  | some tip =>
    let retainFrom ← heightToSqlI64 (tip.height - reorgWindow)
    return { saved with
      chainBlocks := saved.chainBlocks.filter (fun block => retainFrom ≤ block.height) }

/-- What a flush of the cursor is given beside the blocks. `aux` is the scan queue and the
spendability row as the update after the cursor leaves them, if it is made. -/
structure FlushInput where
  now : String
  targetHeight : Nat
  lastCheckpointHeight : Nat
  aux : Option (ScanQueue × SpendabilityStateRow)

/-- The height of the last block of a batch. -/
def batchEnd (blocks : List CompactBlockData) : Nat :=
  (blocks.getLast?.map (·.height)).getD 0

def WalletDb.saveSyncStateWithDb (blocks : List CompactBlockData) (flush : FlushInput)
    (db : WalletDb) : Except StorageError WalletDb := do
  let saved ← db.saveSyncProgress flush.now
    ((canonicalBlockWindow blocks).map CompactBlockData.chainBlockRow) (batchEnd blocks)
    flush.targetHeight flush.lastCheckpointHeight maxReorgSearchDepth
  match flush.aux with
  | none => return saved
  | some (scanQueue, spendabilityState) =>
    return { saved with scanQueue := scanQueue, spendabilityState := spendabilityState }

/-! ## The writes of a batch -/

/-- The commitment trees and position counters after a batch was appended. -/
structure TreeState where
  sapling : CommitmentTree
  orchard : CommitmentTree
  saplingPosition : Nat
  orchardPosition : Nat

/-- `wallet_relevant_blocks`: the blocks from the birthday on. The blocks of a batch ascend,
so the partition point is where the blocks below the birthday end. -/
def walletRelevantBlocks (birthdayHeight : Nat) (blocks : List CompactBlockData) :
    List CompactBlockData :=
  blocks.dropWhile (fun block => block.height < birthdayHeight)

/-- One durable write of a batch. -/
inductive DurableWrite where
  | updateCommitmentTrees (trees : TreeState)
  | persistNotes (input : PersistInput)
  | applySpends (input : SpendInput)
  | createCheckpoint (trees : TreeState)
  | saveSyncState (blocks : List CompactBlockData) (flush : FlushInput)

/-- The engine after a write of the trees. -/
def SyncEngine.putTrees (trees : TreeState) (engine : SyncEngine) : SyncEngine :=
  { engine with
    db := { engine.db with saplingTree := trees.sapling, orchardTree := trees.orchard }
    saplingTreePosition := trees.saplingPosition
    orchardTreePosition := trees.orchardPosition }

def SyncEngine.write (engine : SyncEngine) : DurableWrite → SyncEngine
  | .updateCommitmentTrees trees => engine.putTrees trees
  | .persistNotes input => engine.persistNotes input
  | .applySpends input => engine.applySpends input
  | .createCheckpoint trees => engine.putTrees trees
  -- a flush that fails ends the run with the database as it was
  | .saveSyncState blocks flush =>
    { engine with db := settle engine.db (engine.db.saveSyncStateWithDb blocks flush) }

/-- A batch with all that decides what it writes. The blocks are those of `persist`. -/
structure SyncBatch where
  persist : PersistInput
  keys : SpendKeys
  unlinkedFault : Option StorageError
  applyFault : Option StorageError
  trees : TreeState
  checkpoint : Option TreeState
  flush : Option FlushInput

namespace SyncBatch

/-- The blocks that are scanned for notes and spends. -/
def walletBlocks (birthdayHeight : Nat) (batch : SyncBatch) : List CompactBlockData :=
  walletRelevantBlocks birthdayHeight batch.persist.blocks

/-- What `apply_spends` is given for the batch. -/
def spendInput (birthdayHeight : Nat) (batch : SyncBatch) : SpendInput where
  blocks := batch.walletBlocks birthdayHeight
  keys := batch.keys
  timestamp := batch.persist.timestamp
  unlinkedFault := batch.unlinkedFault
  applyFault := batch.applyFault

/-- The call of `apply_spends`, which is skipped when no block is relevant. -/
def spendWrites (birthdayHeight : Nat) (batch : SyncBatch) : List DurableWrite :=
  match batch.walletBlocks birthdayHeight with
  | [] => []
  | _ :: _ => [.applySpends (batch.spendInput birthdayHeight)]

/-- The writes of the batch, in the order of `sync_range_internal`. -/
def writes (birthdayHeight : Nat) (batch : SyncBatch) : List DurableWrite :=
  [.updateCommitmentTrees batch.trees, .persistNotes batch.persist] ++
    batch.spendWrites birthdayHeight ++
    batch.checkpoint.toList.map .createCheckpoint ++
    batch.flush.toList.map (fun flush => .saveSyncState batch.persist.blocks flush)

end SyncBatch

/-! ## Runs with rollbacks -/

/-- What happens to the engine in `sync_range_internal`. -/
inductive SyncEvent where
  | write (write : DurableWrite)
  | repairRollback (now : String) (repairStart : Nat)
  | reorgRollback (remoteHash : Nat → Except SyncError Bytes) (now : String) (batchStart : Nat)

/-- The engine after a rollback, or as it was if that failed. -/
def SyncEngine.rolledBack (engine : SyncEngine) (result : Except SyncError (Nat × SyncEngine)) :
    SyncEngine :=
  match result with
  | .ok (_, rolledBack) => rolledBack
  | .error _ => engine

def SyncEngine.event (engine : SyncEngine) : SyncEvent → SyncEngine
  | .write write => engine.write write
  | .repairRollback now repairStart =>
    engine.rolledBack (engine.rollbackToCheckpoint now (repairStart - 1))
  | .reorgRollback remoteHash now batchStart =>
    engine.rolledBack (engine.rollbackToCommonAncestor remoteHash now (batchStart - 1))

/-- One round of the loops of `sync_range_internal`. -/
inductive SyncRound where
  | batch (work : SyncBatch)
  | repair (now : String) (repairStart : Nat)
  | reorg (remoteHash : Nat → Except SyncError Bytes) (now : String) (batchStart : Nat)

def SyncRound.events (birthdayHeight : Nat) : SyncRound → List SyncEvent
  | .batch work => (work.writes birthdayHeight).map .write
  | .repair now repairStart => [.repairRollback now repairStart]
  | .reorg remoteHash now batchStart => [.reorgRollback remoteHash now batchStart]

/-! ## What the writes leave alone -/

theorem saveSyncState_eq_ok {now : String} {localHeight targetHeight lastCheckpointHeight : Nat}
    {db saved : WalletDb}
    (h : db.saveSyncState now localHeight targetHeight lastCheckpointHeight = .ok saved) :
    saved = { db with
      syncState := ⟨localHeight, targetHeight, lastCheckpointHeight, now⟩ } := by
  unfold WalletDb.saveSyncState at h
  simp only [heightToSqlI64_bind_eq_ok, pure, Except.pure, Except.ok.injEq] at h
  exact h.2.2.2.symm

theorem saveSyncProgress_eq_ok {now : String} {blocks : List ChainBlockRow}
    {localHeight targetHeight lastCheckpointHeight reorgWindow : Nat} {db saved : WalletDb}
    (h : db.saveSyncProgress now blocks localHeight targetHeight lastCheckpointHeight reorgWindow
      = .ok saved) :
    saved.notes = db.notes ∧ saved.transactions = db.transactions ∧
      saved.syncState.localHeight = localHeight := by
  obtain ⟨_, -, h⟩ := bind_eq_ok h
  obtain ⟨stored, hstored, h⟩ := bind_eq_ok h
  have hstored' := saveSyncState_eq_ok hstored
  split at h
  · obtain rfl := Except.ok.inj h
    rw [hstored']
    exact ⟨rfl, rfl, rfl⟩
  · obtain ⟨retainFrom, -, h⟩ := bind_eq_ok h
    obtain rfl := Except.ok.inj h
    rw [hstored']
    exact ⟨rfl, rfl, rfl⟩

/-- A flush that succeeds keeps the notes and the transactions, and puts the cursor at the end
of the batch. -/
theorem saveSyncStateWithDb_eq_ok {blocks : List CompactBlockData} {flush : FlushInput}
    {db saved : WalletDb} (h : db.saveSyncStateWithDb blocks flush = .ok saved) :
    saved.notes = db.notes ∧ saved.transactions = db.transactions ∧
      saved.syncState.localHeight = batchEnd blocks := by
  obtain ⟨stored, hstored, h⟩ := bind_eq_ok h
  have hstored' := saveSyncProgress_eq_ok hstored
  split at h
  · obtain rfl := Except.ok.inj h
    exact hstored'
  · obtain rfl := Except.ok.inj h
    exact hstored'

/-- A flush changes no note and no transaction, and the cursor is at the end of the batch or
where it was. -/
theorem saveSyncState_write (engine : SyncEngine) (blocks : List CompactBlockData)
    (flush : FlushInput) :
    (engine.write (.saveSyncState blocks flush)).db.notes = engine.db.notes ∧
      (engine.write (.saveSyncState blocks flush)).db.transactions = engine.db.transactions ∧
      ((engine.write (.saveSyncState blocks flush)).db.syncState.localHeight = batchEnd blocks ∨
        (engine.write (.saveSyncState blocks flush)).db.syncState.localHeight
          = engine.db.syncState.localHeight) := by
  simp only [SyncEngine.write]
  cases hsave : engine.db.saveSyncStateWithDb blocks flush with
  | error e => exact ⟨rfl, rfl, .inr rfl⟩
  | ok saved =>
    obtain ⟨hnotes, htransactions, hcursor⟩ := saveSyncStateWithDb_eq_ok hsave
    exact ⟨hnotes, htransactions, .inl hcursor⟩

/-- Persisting puts the cursor at the highest note or leaves it. -/
theorem persistNotes_cursor (engine : SyncEngine) (input : PersistInput) :
    ((engine.persistNotes input).db.syncState.localHeight
        = (input.notes.map (·.height)).foldl max 0 ∧ input.notes ≠ []) ∨
      (engine.persistNotes input).db.syncState.localHeight = engine.db.syncState.localHeight := by
  unfold SyncEngine.persistNotes
  split
  · exact .inr rfl
  · rename_i hempty
    have hnotes : input.notes ≠ [] := fun h => hempty (by simp [h])
    dsimp only
    unfold PersistInput.persistNotesWithDb
    rw [if_neg hempty]
    dsimp only
    -- `let _ = save_sync_state(..)`: the rows are stored whether or not the cursor moves
    unfold settle
    split
    · rename_i saved hsaved
      rw [saveSyncState_eq_ok hsaved]
      exact .inl ⟨rfl, hnotes⟩
    · exact .inr rfl

section Frame

variable {τ : Type} {part : WalletDb → τ}

/-- Deriving nullifiers again leaves alone whatever the update of a note does. -/
theorem rederivePool_frame (hpart : ∀ note db, part (WalletDb.updateNoteById note db) = part db)
    (derive : NoteRow → List (Bytes × Int)) (accountId : Int) (noteType : NoteType)
    (entries : List (NoteType × Bytes × Bytes)) (db : WalletDb) :
    part (rederivePool derive accountId noteType entries db).db = part db := by
  have hvisit : ∀ (state : Rederivation) (note : NoteRow),
      part (state.visit derive noteType note).db = part state.db := by
    intro state note
    unfold Rederivation.visit
    split
    · rfl
    · dsimp only
      split
      · rfl
      · exact hpart _ _
  -- induction on the notes still to visit
  have hloop : ∀ (todo : List NoteRow) (state : Rederivation),
      part (todo.foldl (Rederivation.visit derive noteType) state).db = part state.db := by
    intro todo
    induction todo with
    | nil => exact fun _ => rfl
    | cons note rest ih =>
      intro state
      rw [List.foldl_cons, ih, hvisit]
  exact hloop _ _

theorem rederiveUnmatchedSpends_frame
    (hpart : ∀ note db, part (WalletDb.updateNoteById note db) = part db) (keys : SpendKeys)
    (accountId : Int) (entries : List (NoteType × Bytes × Bytes)) (db : WalletDb) :
    part (keys.rederiveUnmatchedSpends accountId entries db).2 = part db := by
  unfold SpendKeys.rederiveUnmatchedSpends
  dsimp only
  split <;> split <;> simp only [rederivePool_frame hpart]

end Frame

/-- Detecting spends leaves the cursor and the account alone. -/
theorem applySpends_frame (engine : SyncEngine) (input : SpendInput) :
    (engine.applySpends input).db.syncState = engine.db.syncState ∧
      (engine.applySpends input).accountId = engine.accountId := by
  unfold SyncEngine.applySpends
  split
  · exact ⟨rfl, rfl⟩
  · dsimp only
    split
    · exact ⟨rfl, rfl⟩
    · have hderived := @rederiveUnmatchedSpends_frame _ WalletDb.syncState (fun _ _ => rfl)
        input.keys engine.accountId
        (input.scan engine.nullifierCache engine.trackedWalletTxids).unlinkedEntries engine.db
      have hkept : ∀ remaining db, (input.keepUnlinked engine.accountId remaining db).syncState
          = db.syncState := by
        intro remaining db
        unfold SpendInput.keepUnlinked
        split <;> rfl
      split
      · exact ⟨(hkept _ _).trans hderived, rfl⟩
      · exact ⟨(hkept _ _).trans hderived, rfl⟩

theorem persistNotes_accountId (engine : SyncEngine) (input : PersistInput) :
    (engine.persistNotes input).accountId = engine.accountId := by
  unfold SyncEngine.persistNotes
  split <;> rfl

end StashiWallet
