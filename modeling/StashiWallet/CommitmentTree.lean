import Mathlib.Order.Lattice
import StashiWallet.Models

/-!
# Commitment trees and their checkpoints

Each pool has a note commitment tree, kept by a shard tree over four tables. What the sync
engine relies on is its logical content: the sequence of leaves, and a set of checkpoints.
A checkpoint is named by a block height and stores the position of the last leaf at that
point, `NULL` when the tree was empty. Shards that were pruned still count as leaves, so the
leaf sequence here is the whole of it.

The structure carries what the shard tree maintains: a checkpoint counts no more leaves than
there are, a later checkpoint counts at least as many as an earlier one, and the tree has
depth 32.
-/

namespace StashiWallet

/-- A row of `sapling_tree_checkpoints` or `orchard_tree_checkpoints`. -/
structure TreeCheckpoint where
  checkpointId : Nat
  position : Option Nat
deriving DecidableEq, Repr

/-- The number of leaves the tree had when the checkpoint was taken. -/
def TreeCheckpoint.leafCount (checkpoint : TreeCheckpoint) : Nat :=
  match checkpoint.position with
  | none => 0
  | some position => position + 1

theorem TreeCheckpoint.leafCount_of_position {checkpoint : TreeCheckpoint} {position : Nat}
    (h : checkpoint.position = some position) : checkpoint.leafCount = position + 1 := by
  rw [leafCount, h]

/-- The number of leaves a tree of `NOTE_COMMITMENT_TREE_DEPTH` can hold. -/
def treeCapacity : Nat := 4294967296

/-- One pool's tree: its leaf sequence and its checkpoint table. -/
structure CommitmentTree where
  leaves : List Bytes
  checkpoints : List TreeCheckpoint
  capacity : leaves.length ≤ treeCapacity
  counted : ∀ c ∈ checkpoints, c.leafCount ≤ leaves.length
  ordered : ∀ c ∈ checkpoints, ∀ d ∈ checkpoints, c.checkpointId ≤ d.checkpointId →
    c.leafCount ≤ d.leafCount

namespace CommitmentTree

/-- The tree with all its tables empty. -/
def empty : CommitmentTree where
  leaves := []
  checkpoints := []
  capacity := Nat.zero_le _
  counted := by simp
  ordered := by simp

/-- Whether the checkpoint table has a row for the height. -/
def hasCheckpoint (tree : CommitmentTree) (height : Nat) : Bool :=
  tree.checkpoints.any (fun checkpoint => checkpoint.checkpointId == height)

/-- The number of leaves the tree contains up to the block of a checkpoint. -/
def leavesAt (tree : CommitmentTree) (height : Nat) : Nat :=
  match tree.checkpoints.find? (fun checkpoint => checkpoint.checkpointId == height) with
  | some checkpoint => checkpoint.leafCount
  | none => 0

theorem hasCheckpoint_iff {tree : CommitmentTree} {height : Nat} :
    tree.hasCheckpoint height = true ↔
      ∃ checkpoint ∈ tree.checkpoints, checkpoint.checkpointId = height := by
  simp [hasCheckpoint]

/-- Two checkpoints of one height count the same leaves, so any of them gives `leavesAt`. -/
theorem leavesAt_eq {tree : CommitmentTree} {checkpoint : TreeCheckpoint}
    (hmem : checkpoint ∈ tree.checkpoints) :
    tree.leavesAt checkpoint.checkpointId = checkpoint.leafCount := by
  unfold leavesAt
  split
  · rename_i found hfound
    have hid : found.checkpointId = checkpoint.checkpointId := by
      simpa using List.find?_some hfound
    have hfoundMem := List.mem_of_find?_eq_some hfound
    exact le_antisymm (tree.ordered found hfoundMem checkpoint hmem hid.le)
      (tree.ordered checkpoint hmem found hfoundMem hid.ge)
  · rename_i hnone
    have hmiss := List.find?_eq_none.mp hnone checkpoint hmem
    simp at hmiss

theorem leavesAt_le (tree : CommitmentTree) (height : Nat) :
    tree.leavesAt height ≤ tree.leaves.length := by
  unfold leavesAt
  split
  · rename_i found hfound
    exact tree.counted found (List.mem_of_find?_eq_some hfound)
  · exact Nat.zero_le _

/-- `truncate_to_checkpoint`: the tree as it was when the checkpoint was taken. -/
def truncateToCheckpoint (tree : CommitmentTree) (checkpointId : Nat) : CommitmentTree :=
  if h : tree.hasCheckpoint checkpointId = true then
    { leaves := tree.leaves.take (tree.leavesAt checkpointId)
      checkpoints := tree.checkpoints.filter (fun c => c.checkpointId ≤ checkpointId)
      capacity := by
        rw [List.length_take]
        exact (min_le_right _ _).trans tree.capacity
      counted := by
        intro c hkept
        obtain ⟨hc, hle⟩ := List.mem_filter.mp hkept
        obtain ⟨target, htarget, rfl⟩ := hasCheckpoint_iff.mp h
        rw [List.length_take, leavesAt_eq htarget]
        exact le_min (tree.ordered c hc target htarget (by simpa using hle)) (tree.counted c hc)
      ordered := by
        intro c hc d hd
        exact tree.ordered c (List.mem_of_mem_filter hc) d (List.mem_of_mem_filter hd) }
  else tree

end CommitmentTree

end StashiWallet
