import StashiWallet.ShardtreeInsertion

/-!
# Cutting a run of leaves

The leaves of a run are cut into ranges that lie within a shard and are aligned to their length. A
fragment is built for each of them in a pool of threads, and the fragments are inserted in order.
-/

namespace StashiWallet

def MIN_PARALLEL_TREE_CHUNK_LEAVES : Nat := 256

def MAX_PARALLEL_TREE_CHUNK_LEAVES : Nat := 4096

def TARGET_TREE_CHUNKS_PER_THREAD : Nat := 2

structure ConstructionRange where
  start : Nat
  len : Nat
deriving DecidableEq, Repr

/-! ## The ranges of a run -/

def divCeil (a b : Nat) : Nat := (a + b - 1) / b

def checkedNextPowerOfTwo (value : Nat) : Option Nat :=
  if value ≤ 9223372036854775808 then some (2 ^ Nat.clog 2 value) else none

def adaptiveTreeChunkLimit (totalLeaves parallelism : Nat) : Nat :=
  if totalLeaves = 0 then 0
  else
    let usefulTasks := max (divCeil totalLeaves MIN_PARALLEL_TREE_CHUNK_LEAVES) 1
    let targetTasks := max
      (min (min (max parallelism 1 * TARGET_TREE_CHUNKS_PER_THREAD) u64Max) usefulTasks) 1
    min (max ((checkedNextPowerOfTwo (max (divCeil totalLeaves targetTasks) 1)).getD
      MAX_PARALLEL_TREE_CHUNK_LEAVES) MIN_PARALLEL_TREE_CHUNK_LEAVES) MAX_PARALLEL_TREE_CHUNK_LEAVES

/-- The inner loop of `balanced_construction_ranges`: the range is doubled while the position is
aligned to it. -/
def alignedTake (nextPosition maxTake take : Nat) (hpos : 0 < take) : Nat :=
  if _h : take ≤ maxTake / 2 ∧ nextPosition % (take * 2) = 0 then
    alignedTake nextPosition maxTake (take * 2) (Nat.mul_pos hpos Nat.two_pos)
  else take
termination_by maxTake - take
decreasing_by omega

theorem alignedTake_pos (nextPosition maxTake take : Nat) (hpos : 0 < take) :
    0 < alignedTake nextPosition maxTake take hpos := by
  fun_induction alignedTake nextPosition maxTake take hpos with
  | case1 take hpos h ih => exact ih
  | case2 take hpos h => exact hpos

/-- The outer loop of `balanced_construction_ranges`. -/
def constructionRanges (chunkLimit : Nat) (poolName : String) (nextPosition remaining : Nat) :
    Except SyncError (List ConstructionRange) :=
  if _h : remaining = 0 then .ok []
  else
    let shardEnd := (nextPosition / 2 ^ SHARD_HEIGHT + 1) * 2 ^ SHARD_HEIGHT
    if u64Max < shardEnd then .error (.sync
      s!"{poolName} commitment position overflow while planning ShardTree construction")
    else
      let take := alignedTake nextPosition
        (min (min remaining chunkLimit) (shardEnd - nextPosition)) 1 Nat.one_pos
      if u64Max < nextPosition + take then .error (.sync
        s!"{poolName} commitment position overflow while planning ShardTree construction")
      else
        (constructionRanges chunkLimit poolName (nextPosition + take) (remaining - take)).map
          (⟨nextPosition, take⟩ :: ·)
termination_by remaining
decreasing_by
  have hpos := alignedTake_pos nextPosition
    (min (min remaining chunkLimit)
      ((nextPosition / 2 ^ SHARD_HEIGHT + 1) * 2 ^ SHARD_HEIGHT - nextPosition)) 1 Nat.one_pos
  omega

def balancedConstructionRanges (startPosition totalLeaves parallelism : Nat) (poolName : String) :
    Except SyncError (List ConstructionRange) :=
  if totalLeaves = 0 then .ok []
  else constructionRanges (adaptiveTreeChunkLimit totalLeaves parallelism) poolName startPosition
    totalLeaves

end StashiWallet
