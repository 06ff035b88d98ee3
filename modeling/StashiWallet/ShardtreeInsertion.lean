import Mathlib.Algebra.Order.Ring.Nat
import Mathlib.Data.Nat.Log
import StashiWallet.CommitmentPositions

/-!
# Inserting batches into the commitment trees

The leaves of a batch of blocks go into the tree of their pool as runs of consecutive positions. A
run ends where the positions jump, before a verified subtree root, at an empty checkpoint and at a
block the pool has committed before.

The tree itself is the crate's. `ShardTreeOps` has the calls that are made of it; durations are left
out of the statistics.
-/

namespace StashiWallet

/-- A leaf with its retention. -/
abbrev TreeLeaf := Bytes × Retention

structure VerifiedSubtreeRoot where
  index : Nat
  endHeight : Nat
  root : Bytes
deriving DecidableEq, Repr

structure ShardtreePoolWork where
  commitmentCount : Nat
  preparedTreeCount : Nat
  checkpointCount : Nat
deriving DecidableEq, Repr

/-- What `LocatedPrunableTree::from_iter` builds. -/
structure BuiltTree (Subtree : Type) where
  subtree : Subtree
  checkpoints : List (Nat × Nat)
  maxInsertPosition : Nat
  remainder : List TreeLeaf

/-- The calls of `ShardTree`, and `LocatedPrunableTree::from_iter` over a range of positions. -/
structure ShardTreeOps (Tree Subtree : Type) where
  batchInsert : Nat → List TreeLeaf → Tree → Except String Tree
  insert : Nat → Bytes → Tree → Except String Tree
  checkpoint : Nat → Tree → Except String Tree
  fromIter : Nat → Nat → List TreeLeaf → Option (BuiltTree Subtree)
  insertTree : Subtree → List (Nat × Nat) → Tree → Except String Tree

/-- `SAPLING_SHARD_HEIGHT` and `ORCHARD_SHARD_HEIGHT`. -/
def SHARD_HEIGHT : Nat := 16

/-- The order of `sort_by_key` by the end height, then the index. -/
def VerifiedSubtreeRoot.le (a b : VerifiedSubtreeRoot) : Prop :=
  a.endHeight < b.endHeight ∨ a.endHeight = b.endHeight ∧ a.index ≤ b.index

instance : DecidableRel VerifiedSubtreeRoot.le := fun _ _ =>
  inferInstanceAs (Decidable (_ ∨ _ ∧ _))

/-- Whether a pool has committed the height. -/
def committedAt (maxCommittedHeight : Option Nat) (checkpointHeight : Nat) : Bool :=
  maxCommittedHeight.any fun height => decide (checkpointHeight ≤ height)

/-- `u32::try_from(batch.height)`. -/
def checkpointHeightOf (height : Nat) : Except SyncError Nat :=
  if height ≤ u32Max then .ok height
  else .error (.sync s!"Checkpoint height {height} exceeds u32::MAX")

/-! ## Block by block -/

section Tree

variable {Tree Subtree : Type} (ops : ShardTreeOps Tree Subtree)

def insertVerifiedPoolRoot (poolName : String) (root : VerifiedSubtreeRoot) (tree : Tree) :
    Except SyncError Tree :=
  (ops.insert root.index root.root tree).mapError fun error =>
    .sync s!"Failed to stage verified {poolName} subtree root {root.index}: {error}"

/-- What the loop of `apply_pool_batches` carries along. A run is a range of the batches. -/
structure PoolRun (Tree : Type) where
  tree : Tree
  runStart : Option Nat
  runFirstBatch : Option Nat
  runLeafCount : Nat
  nextRoot : Nat
  work : ShardtreePoolWork

section Sequential

variable (batches : List ShardtreeBatch)
  (poolBatch : ShardtreeBatch → Option Nat × List TreeLeaf × Bool) (poolName : String)

def flushRun (runEndBatch : Nat) (run : PoolRun Tree) : Except SyncError (PoolRun Tree) :=
  match run.runStart, run.runFirstBatch with
  | none, _ => .ok run
  | some _, none => .error (.sync "a pending ShardTree run has a first batch")
  | some startPosition, some firstBatch =>
    let leaves := ((batches.drop firstBatch).take (runEndBatch - firstBatch)).flatMap
      fun batch => (poolBatch batch).2.1
    ((ops.batchInsert startPosition leaves run.tree).mapError fun error =>
      .sync s!"Failed to batch insert {poolName} commitments into shardtree: {error}").map
      fun tree => { run with
        tree := tree
        runStart := none
        runFirstBatch := none
        runLeafCount := 0
        work := { run.work with
          commitmentCount := saturatingAdd run.work.commitmentCount run.runLeafCount } }

/-- The loop over the roots that are due, from the next one on. -/
def insertDueRoots (batchIndex height : Nat) :
    List VerifiedSubtreeRoot → PoolRun Tree → Except SyncError (PoolRun Tree)
  | [], run => .ok run
  | root :: rest, run =>
    if root.endHeight ≤ height then do
      let flushed ← flushRun ops batches poolBatch poolName batchIndex run
      let tree ← insertVerifiedPoolRoot ops poolName root flushed.tree
      insertDueRoots batchIndex height rest
        { flushed with tree := tree, nextRoot := flushed.nextRoot + 1 }
    else .ok run

/-- The run ends where the next leaf is not at the position expected. -/
def flushUnless (expectedStart : Option Nat) (startPosition batchIndex : Nat) (run : PoolRun Tree) :
    Except SyncError (PoolRun Tree) :=
  if expectedStart.any (fun expected => expected != startPosition) then
    flushRun ops batches poolBatch poolName batchIndex run
  else .ok run

/-- The leaves of a block, joined to the run or beginning a new one. -/
def extendRun (batchIndex : Nat) (batch : ShardtreeBatch) (run : PoolRun Tree) :
    Except SyncError (PoolRun Tree) :=
  let leaves := (poolBatch batch).2.1
  if leaves.isEmpty then .ok run
  else
    match (poolBatch batch).1 with
    | none => .error (.sync
        s!"Missing {poolName} start position for shardtree batch at height {batch.height}")
    | some startPosition => do
      let expectedStart := run.runStart.map fun start => saturatingAdd start run.runLeafCount
      let run ← flushUnless ops batches poolBatch poolName expectedStart startPosition batchIndex run
      .ok { run with
        runStart := some (run.runStart.getD startPosition)
        runFirstBatch := if run.runStart.isNone then some batchIndex else run.runFirstBatch
        runLeafCount := run.runLeafCount + leaves.length }

/-- The empty checkpoint of a block. -/
def checkpointEmpty (batchIndex : Nat) (batch : ShardtreeBatch) (checkpointHeight : Nat)
    (run : PoolRun Tree) : Except SyncError (PoolRun Tree) :=
  if (poolBatch batch).2.2 then do
    let flushed ← flushRun ops batches poolBatch poolName (batchIndex + 1) run
    let tree ← (ops.checkpoint checkpointHeight flushed.tree).mapError fun error =>
      .sync s!"Failed to checkpoint {poolName} shardtree: {error}"
    return { flushed with
      tree := tree
      work := { flushed.work with
        checkpointCount := saturatingAdd flushed.work.checkpointCount 1 } }
  else .ok run

/-- The loop body of `apply_pool_batches`. -/
def applyPoolBatch (maxCommittedHeight : Option Nat) (orderedRoots : List VerifiedSubtreeRoot)
    (run : PoolRun Tree) (entry : ShardtreeBatch × Nat) : Except SyncError (PoolRun Tree) := do
  let checkpointHeight ← checkpointHeightOf entry.1.height
  let pendingRoots := orderedRoots.drop run.nextRoot
  if committedAt maxCommittedHeight checkpointHeight then
    let flushed ← flushRun ops batches poolBatch poolName entry.2 run
    -- the roots below are passed over
    return { flushed with
      nextRoot := flushed.nextRoot +
        (pendingRoots.takeWhile fun root => root.endHeight ≤ entry.1.height).length }
  else
    let run ←
      insertDueRoots ops batches poolBatch poolName entry.2 entry.1.height pendingRoots run
    let run ← extendRun ops batches poolBatch poolName entry.2 entry.1 run
    checkpointEmpty ops batches poolBatch poolName entry.2 entry.1 checkpointHeight run

/-- The end of `apply_pool_batches`: no root may be left over. -/
def finishPoolBatches (orderedRoots : List VerifiedSubtreeRoot) (run : PoolRun Tree) :
    Except SyncError (Tree × ShardtreePoolWork) := do
  let flushed ← flushRun ops batches poolBatch poolName batches.length run
  match (orderedRoots.drop flushed.nextRoot).head? with
  | some root => .error (.sync (s!"Verified {poolName} subtree root {root.index} completed at " ++
      s!"height {root.endHeight} outside the persisted block batch"))
  | none => return (flushed.tree, flushed.work)

def applyPoolBatches (maxCommittedHeight : Option Nat) (verifiedRoots : List VerifiedSubtreeRoot)
    (tree : Tree) : Except SyncError (Tree × ShardtreePoolWork) := do
  let orderedRoots := verifiedRoots.insertionSort VerifiedSubtreeRoot.le
  let run ← batches.zipIdx.foldlM
    (applyPoolBatch ops batches poolBatch poolName maxCommittedHeight orderedRoots)
    ⟨tree, none, none, 0, 0, ⟨0, 0, 0⟩⟩
  finishPoolBatches ops batches poolBatch poolName orderedRoots run

end Sequential

end Tree

end StashiWallet
