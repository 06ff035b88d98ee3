import Mathlib
import StashiWallet.ShardSerialization

/-!
# The shard store

Shards, the cap and the checkpoints of one commitment tree, in four tables: a checkpoint is a row
that holds its position and the rows of the marks removed at it. Every operation is a function of
the tables to an answer and the tables after it, so that what a failing operation leaves behind is
part of the model.

An INTEGER column holds an `i64`: an index or a position from `2^63` on is stored as a negative
number and read back by the cast. Ids are `u32` and stand as they are.

The engine is free in one place. Rows that agree in the column of an `ORDER BY` come in any order,
so ordering by position is a parameter; NULL comes first.
-/

namespace StashiWallet
namespace ShardStore

open Std (ExtTreeMap)

abbrev U64 : Type := Fin 18446744073709551616

abbrev BlockHeight : Type := Fin 4294967296

abbrev Position : Type := U64

instance transOrdBlockHeight : Std.TransOrd BlockHeight := inferInstance

instance transOrdU64 : Std.TransOrd U64 := inferInstance

instance neZeroU64 : NeZero (18446744073709551615 + 1) := inferInstance

/-- `value as u64`. -/
def asU64 (value : Int) : U64 := ⟨(value % 18446744073709551616).toNat, by omega⟩

inductive TreeState where
  | empty
  | atPosition (position : Position)
deriving DecidableEq

structure Checkpoint where
  treeState : TreeState
  marksRemoved : Finset Position
deriving DecidableEq

def TreeState.position : TreeState → Option Position
  | .empty => none
  | .atPosition position => some position

/-- `map_or_else(|| Empty, |pos| AtPosition(pos as u64))`. -/
def TreeState.ofColumn : Option Int → TreeState
  | none => .empty
  | some position => .atPosition (asU64 position)

/-- `position().map(|p| u64::from(p) as i64)`. -/
def TreeState.column (state : TreeState) : Option Int :=
  state.position.map fun position => asI64 position.val

inductive Error where
  | serialization (message : String)
  | query (message : String)
  | checkpointConflict (checkpointId : BlockHeight) (checkpoint : Checkpoint)
      (extantTreeState : TreeState) (extantMarksRemoved : Option (Finset Position))
  | subtreeDiscontinuity (attemptedInsertionRange existingRange : U64 × U64)
deriving DecidableEq

structure ShardRow where
  rootHash : Option Bytes
  shardData : Bytes
deriving DecidableEq

/-- `{prefix}_tree_cap`, `_tree_shards`, `_tree_checkpoints` and `_tree_checkpoint_marks_removed`;
a table with an INTEGER PRIMARY KEY is ordered by it. -/
structure ShardTables where
  cap : Option Bytes := none
  shards : ExtTreeMap Int ShardRow := ∅
  checkpoints : ExtTreeMap BlockHeight (Option Int) := ∅
  marksRemoved : List (BlockHeight × Int) := []

/-- A tree that fits below a shard root. -/
abbrev Shard (H Flags : Type) (height : Nat) : Type :=
  { tree : PrunableTree H Flags // tree.depth ≤ height }

/-- A position does not come after the next one; NULL comes first. -/
def NotAfter (row next : BlockHeight × Option Int) : Prop :=
  ∀ position ∈ row.2, ∃ following ∈ next.2, position ≤ following

/-- `ORDER BY position`: any order of the rows in which positions do not fall. -/
structure PositionOrder where
  order : List (BlockHeight × Option Int) → List (BlockHeight × Option Int)
  perm : ∀ rows, (order rows).Perm rows
  sorted : ∀ rows, (order rows).Pairwise NotAfter

section Shards

variable {H Flags : Type} {height : Nat} (codec : LeafCodec H Flags) (tablePrefix : String)

/-- The first node with children at level 0. -/
def outOfPlace : Nat → Nat → PrunableTree H Flags → Option Nat
  | level + 1, index, .parent _ left right =>
    (outOfPlace level (2 * index) left).or (outOfPlace level (2 * index + 1) right)
  | 0, index, .parent _ _ _ => some index
  | _, _, _ => none

theorem outOfPlace_eq_none {tree : PrunableTree H Flags} {level : Nat} (index : Nat) :
    outOfPlace level index tree = none ↔ tree.depth ≤ level := by
  induction tree generalizing level index with
  | nil => unfold outOfPlace PrunableTree.depth; simp
  | leaf value flags => unfold outOfPlace PrunableTree.depth; simp
  | parent ann left right ihLeft ihRight =>
    cases level with
    | zero => unfold outOfPlace PrunableTree.depth; simp
    | succ level =>
      unfold outOfPlace PrunableTree.depth
      rw [Option.or_eq_none_iff, ihLeft, ihRight]
      omega

/-- `LocatedPrunableTree::from_parts`, with its error as the callers report it. -/
def fromParts (index : U64) (tree : PrunableTree H Flags) :
    Except Error (U64 × Shard H Flags height) :=
  match h : outOfPlace height index tree with
  | none => .ok (index, ⟨tree, (outOfPlace_eq_none _).mp h⟩)
  | some misplaced => .error (.serialization
      s!"stored shard is not located at Address \x7b level: Level(0), index: {misplaced} \x7d")

/-- `reannotate_root` of a located tree. -/
def Shard.reannotateRoot (ann : Option H) (shard : Shard H Flags height) : Shard H Flags height :=
  ⟨shard.val.reannotateRoot ann, by
    obtain ⟨tree, htree⟩ := shard
    cases tree <;> exact htree⟩

def getShard (tables : ShardTables) (index : U64) :
    Except Error (Option (U64 × Shard H Flags height)) :=
  match tables.shards[asI64 index.val]? with
  | none => .ok none
  | some row => do
    let tree ← (readShard codec row.shardData).mapError .serialization
    let (root, shard) ← fromParts index tree
    match row.rootHash with
    | none => return some (root, shard)
    | some rootHashData =>
      let (rootHash, _) ← (codec.readHash rootHashData).mapError .serialization
      return some (root, shard.reannotateRoot (some rootHash))

/-- `last_shard`; the root hash column is not read. -/
def lastShard (tables : ShardTables) : Except Error (Option (U64 × Shard H Flags height)) :=
  match tables.shards.toList.getLast? with
  | none => .ok none
  | some (shardIndex, row) => do
    let tree ← (readShard codec row.shardData).mapError .serialization
    let shard ← fromParts (asU64 shardIndex) tree
    return some shard

def checkShardDiscontinuity (tables : ShardTables) (proposedInsertionRange : U64 × U64) :
    Except Error Unit :=
  match tables.shards.keys.head?, tables.shards.keys.getLast? with
  | some storedMin, some storedMax =>
    let curStart := asU64 storedMin
    let curEnd := asU64 storedMax + 1
    if curStart > proposedInsertionRange.2 ∨ proposedInsertionRange.1 > curEnd then
      .error (.subtreeDiscontinuity proposedInsertionRange (curStart, curEnd))
    else .ok ()
  | _, _ => .ok ()

/-- The row that `put_shard` writes. -/
def shardRow (shard : Shard H Flags height) : ShardRow where
  rootHash := shard.val.annotation.map codec.writeHash
  shardData := writeShard codec shard.val

/-- The root hash of `row` stands under another index; NULLs never clash. -/
def HashTaken (tables : ShardTables) (shardIndex : Int) (row : ShardRow) : Prop :=
  ∃ other ∈ tables.shards.toList,
    other.1 ≠ shardIndex ∧ row.rootHash ≠ none ∧ other.2.rootHash = row.rootHash

instance (tables : ShardTables) (shardIndex : Int) (row : ShardRow) :
    Decidable (HashTaken tables shardIndex row) :=
  inferInstanceAs (Decidable (∃ other ∈ tables.shards.toList, _))

def putShard (tables : ShardTables) (index : U64) (shard : Shard H Flags height) :
    Except Error Unit × ShardTables :=
  let row := shardRow codec shard
  match checkShardDiscontinuity tables (index, index + 1) with
  | .error e => (.error e, tables)
  | .ok () =>
    if HashTaken tables (asI64 index.val) row then
      (.error (.query s!"UNIQUE constraint failed: {tablePrefix}_tree_shards.root_hash"), tables)
    else (.ok (), { tables with shards := tables.shards.insert (asI64 index.val) row })

def getShardRoots (tables : ShardTables) : List U64 := tables.shards.keys.map asU64

/-- `truncate`. -/
def truncateShards (tables : ShardTables) (shardIndex : U64) : ShardTables :=
  { tables with
    shards := tables.shards.filter fun stored _ => ¬ stored ≥ asI64 shardIndex.val }

def getCap (tables : ShardTables) : Except Error (PrunableTree H Flags) :=
  match tables.cap with
  | none => .ok .nil
  | some capData => (readShard codec capData).mapError .serialization

def putCap (tables : ShardTables) (cap : PrunableTree H Flags) : ShardTables :=
  { tables with cap := some (writeShard codec cap) }

end Shards

section Checkpoints

variable (tablePrefix : String)

def minCheckpointId (tables : ShardTables) : Option BlockHeight := tables.checkpoints.keys.head?

def maxCheckpointId (tables : ShardTables) : Option BlockHeight := tables.checkpoints.keys.getLast?

def getMarksRemoved (tables : ShardTables) (checkpointId : BlockHeight) : Finset Position :=
  ((tables.marksRemoved.filter fun row => row.1 = checkpointId).map
    fun row => asU64 row.2).toFinset

/-- The marks of a checkpoint, one INSERT after the other; a pair stands once. -/
def insertMarksRemoved (tables : ShardTables) (checkpointId : BlockHeight) :
    List Position → Except Error Unit × ShardTables
  | [] => (.ok (), tables)
  | position :: rest =>
    let row := (checkpointId, asI64 position.val)
    if row ∈ tables.marksRemoved then
      (.error (.query ("UNIQUE constraint failed: " ++
        s!"{tablePrefix}_tree_checkpoint_marks_removed.checkpoint_id, " ++
        s!"{tablePrefix}_tree_checkpoint_marks_removed.mark_removed_position")), tables)
    else
      insertMarksRemoved { tables with marksRemoved := tables.marksRemoved ++ [row] }
        checkpointId rest

def addCheckpoint (tables : ShardTables) (checkpointId : BlockHeight) (checkpoint : Checkpoint) :
    Except Error Unit × ShardTables :=
  match tables.checkpoints[checkpointId]? with
  | none =>
    insertMarksRemoved tablePrefix
      { tables with
        checkpoints := tables.checkpoints.insert checkpointId checkpoint.treeState.column }
      checkpointId (checkpoint.marksRemoved.sort (· ≤ ·))
  | some column =>
    let current := TreeState.ofColumn column
    if current ≠ checkpoint.treeState then
      (.error (.checkpointConflict checkpointId checkpoint current none), tables)
    else
      let marksRemoved := getMarksRemoved tables checkpointId
      if marksRemoved = checkpoint.marksRemoved then (.ok (), tables)
      else (.error (.checkpointConflict checkpointId checkpoint current (some marksRemoved)), tables)

def checkpointCount (tables : ShardTables) : Nat := tables.checkpoints.toList.length

/-- The checkpoint of a row of the checkpoints table. -/
def checkpointOfRow (tables : ShardTables) (row : BlockHeight × Option Int) : Checkpoint where
  treeState := .ofColumn row.2
  marksRemoved := getMarksRemoved tables row.1

def getCheckpoint (tables : ShardTables) (checkpointId : BlockHeight) : Option Checkpoint :=
  tables.checkpoints[checkpointId]?.map fun column => checkpointOfRow tables (checkpointId, column)

/-- `OFFSET`; a negative one counts as zero. -/
def offset {Row : Type} (count : Int) (rows : List Row) : List Row := rows.drop count.toNat

/-- `LIMIT`; a negative one is no limit. -/
def limited {Row : Type} (limit : Int) (rows : List Row) : List Row :=
  if limit < 0 then rows else rows.take limit.toNat

def getCheckpointAtDepth (tables : ShardTables) (checkpointDepth : U64) :
    Option (BlockHeight × Checkpoint) :=
  (offset (asI64 checkpointDepth.val) tables.checkpoints.toList.reverse).head?.map
    fun row => (row.1, checkpointOfRow tables row)

/-- A callback, which may remember what it was shown before. -/
abbrev Visitor : Type :=
  List (BlockHeight × Checkpoint) → BlockHeight × Checkpoint → Except Error Unit

/-- The calls of a callback: what it was shown, and how it ended. -/
def visit (callback : Visitor) (seen : List (BlockHeight × Checkpoint)) :
    List (BlockHeight × Checkpoint) → List (BlockHeight × Checkpoint) × Except Error Unit
  | [] => (seen, .ok ())
  | entry :: rest =>
    match callback seen entry with
    | .error e => (seen ++ [entry], .error e)
    | .ok () => visit callback (seen ++ [entry]) rest

def withCheckpoints (order : PositionOrder) (tables : ShardTables) (limit : U64)
    (callback : Visitor) : List (BlockHeight × Checkpoint) × Except Error Unit :=
  visit callback [] ((limited (asI64 limit.val) (order.order tables.checkpoints.toList)).map
    fun row => (row.1, checkpointOfRow tables row))

def removeCheckpoint (tables : ShardTables) (checkpointId : BlockHeight) : ShardTables :=
  { tables with
    marksRemoved := tables.marksRemoved.filter fun row => row.1 ≠ checkpointId
    checkpoints := tables.checkpoints.erase checkpointId }

def updateCheckpointWith (tables : ShardTables) (checkpointId : BlockHeight)
    (update : Checkpoint → Except Error Checkpoint) : Except Error Bool × ShardTables :=
  match getCheckpoint tables checkpointId with
  | none => (.ok false, tables)
  | some checkpoint =>
    match update checkpoint with
    | .error e => (.error e, tables)
    | .ok checkpoint =>
      let removed := removeCheckpoint tables checkpointId
      let (outcome, tables) := addCheckpoint tablePrefix removed checkpointId checkpoint
      (outcome.map fun _ => true, tables)

def truncateCheckpointsRetaining (tables : ShardTables) (checkpointId : BlockHeight) :
    ShardTables :=
  { tables with
    marksRemoved := tables.marksRemoved.filter fun row => ¬ row.1 ≥ checkpointId
    checkpoints := tables.checkpoints.filter fun stored _ => ¬ stored > checkpointId }

end Checkpoints

end ShardStore
end StashiWallet
