import Mathlib.Data.List.AList
import Mathlib.Data.Finset.Basic
import StashiWallet.WalletDb

/-!
# The sync engine between batches

What the engine keeps in memory beside the database: the nullifier cache that maps the
nullifier of an unspent note to its row, the transactions known to belong to the wallet, and
the next leaf position of each commitment tree. A rollback truncates the database, forgets
the first two and recovers the positions from the checkpoint tables.
-/

namespace StashiWallet

/-- The errors of the sync engine the model distinguishes. -/
inductive SyncError where
  | network (message : String)
  | sync (message : String)
  | storage (error : StorageError)
deriving DecidableEq, Repr

/-- `?` on a storage result inside the engine. -/
def liftStorage {α : Type} : Except StorageError α → Except SyncError α :=
  Except.mapError SyncError.storage

/-- `LOW_HEIGHT_BATCH_CAP_HEIGHT`. -/
def lowHeightBatchCapHeight : Nat := 10000

/-- The engine of one account. -/
structure SyncEngine where
  db : WalletDb
  accountId : Int
  birthdayHeight : Nat
  nullifierCache : AList (fun _ : Bytes => Nat)
  nullifierCacheLoaded : Bool
  trackedWalletTxids : Finset Bytes
  saplingTreePosition : Nat
  orchardTreePosition : Nat

/-- One counter of `recover_position_counters_from_shardtree`: `MAX(position)` over every
checkpoint of the pool that has a position, plus one. -/
def recoveredPosition (tree : CommitmentTree) : Nat :=
  match (tree.checkpoints.filterMap TreeCheckpoint.position).max? with
  | some position => saturatingAdd position 1
  | none => 0

/-- `recover_position_counters_from_shardtree`. -/
def SyncEngine.recoverPositionCounters (engine : SyncEngine) : SyncEngine :=
  { engine with
    saplingTreePosition := recoveredPosition engine.db.saplingTree
    orchardTreePosition := recoveredPosition engine.db.orchardTree }

/-- `rollback_to_checkpoint`: the height the trees were rewound to, and the engine. The
nullifier cache is dropped and not loaded again. -/
def SyncEngine.rollbackToCheckpoint (now : String) (checkpointHeight : Nat)
    (engine : SyncEngine) : Except SyncError (Nat × SyncEngine) := do
  let (treeReplayHeight, db) ←
    liftStorage (engine.db.truncateAboveHeight now checkpointHeight)
  let rolledBack := { engine with
    db := db
    nullifierCache := ∅
    nullifierCacheLoaded := false
    trackedWalletTxids := ∅ }
  return (treeReplayHeight, rolledBack.recoverPositionCounters)

/-- What a rollback that succeeds returns. -/
theorem rollbackToCheckpoint_eq_ok {now : String} {checkpointHeight : Nat} {engine : SyncEngine}
    {result : Nat × SyncEngine}
    (h : engine.rollbackToCheckpoint now checkpointHeight = .ok result) :
    checkpointHeight + 1 ≤ i64Max ∧
      result.1 = (newestCommonCheckpoint engine.db.saplingTree engine.db.orchardTree
        checkpointHeight).getD 0 ∧
      result.2.db = engine.db.truncated now checkpointHeight ∧
      result.2.nullifierCache = ∅ ∧ result.2.accountId = engine.accountId := by
  unfold SyncEngine.rollbackToCheckpoint at h
  cases htruncate : engine.db.truncateAboveHeight now checkpointHeight with
  | error e =>
    rw [htruncate] at h
    cases h
  | ok truncated =>
    obtain ⟨hfits, rfl⟩ := truncateAboveHeight_eq_ok.mp htruncate
    rw [htruncate] at h
    obtain rfl := Except.ok.inj h
    exact ⟨hfits, rfl, rfl, rfl, rfl⟩

end StashiWallet
