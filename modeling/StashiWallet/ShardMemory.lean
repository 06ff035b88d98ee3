import StashiWallet.ShardStore
import StashiWallet.OrderedMaps

/-!
# The shard store as maps

What the tables are for: shards by index, the cap, and checkpoints by id with the marks removed at
each. `MemoryStore` keeps just that and rejects what the store documents as rejected, a shard away
from the others and a checkpoint that conflicts with the stored one. `Refines` relates the tables
to it; the lemmas of this module carry the relation over each operation.
-/

namespace StashiWallet
namespace ShardStore

open Std (ExtTreeMap)

/-- Shards by index, checkpoints by id. -/
structure MemoryStore (H Flags : Type) (height : Nat) where
  cap : PrunableTree H Flags := .nil
  shards : ExtTreeMap U64 (Shard H Flags height) := ∅
  checkpoints : ExtTreeMap BlockHeight Checkpoint := ∅

namespace MemoryStore

variable {H Flags : Type} {height : Nat} (store : MemoryStore H Flags height)

/-- A shard is put next to the others or over one of them. -/
def putShard (index : U64) (shard : Shard H Flags height) :
    Except Error Unit × MemoryStore H Flags height :=
  let put := { store with shards := store.shards.insert index shard }
  match store.shards.keys.head?, store.shards.keys.getLast? with
  | some first, some last =>
    if index.val + 1 < first.val ∨ last.val + 1 < index.val then
      (.error (.subtreeDiscontinuity (index, index + 1) (first, last + 1)), store)
    else (.ok (), put)
  | _, _ => (.ok (), put)

def truncateShards (index : U64) : MemoryStore H Flags height :=
  { store with shards := store.shards.filter fun stored _ => stored < index }

/-- A checkpoint stands once under its id. -/
def addCheckpoint (id : BlockHeight) (checkpoint : Checkpoint) :
    Except Error Unit × MemoryStore H Flags height :=
  match store.checkpoints[id]? with
  | none => (.ok (), { store with checkpoints := store.checkpoints.insert id checkpoint })
  | some stored =>
    if stored = checkpoint then (.ok (), store)
    else if stored.treeState = checkpoint.treeState then
      (.error (.checkpointConflict id checkpoint stored.treeState (some stored.marksRemoved)), store)
    else (.error (.checkpointConflict id checkpoint stored.treeState none), store)

def checkpointAtDepth (depth : U64) : Option (BlockHeight × Checkpoint) :=
  store.checkpoints.toList.reverse[depth.val]?

/-- The first checkpoints are visited in the order of their ids. -/
def withCheckpoints (limit : U64) (callback : Visitor) :
    List (BlockHeight × Checkpoint) × Except Error Unit :=
  visit callback [] (store.checkpoints.toList.take limit.val)

def updateCheckpointWith (id : BlockHeight) (update : Checkpoint → Except Error Checkpoint) :
    Except Error Bool × MemoryStore H Flags height :=
  match store.checkpoints[id]? with
  | none => (.ok false, store)
  | some checkpoint =>
    match update checkpoint with
    | .error e => (.error e, store)
    | .ok checkpoint =>
      (.ok true, { store with checkpoints := store.checkpoints.insert id checkpoint })

def removeCheckpoint (id : BlockHeight) : MemoryStore H Flags height :=
  { store with checkpoints := store.checkpoints.erase id }

/-- The checkpoint itself stays, with no marks. -/
def truncateCheckpointsRetaining (id : BlockHeight) : MemoryStore H Flags height :=
  { store with
    checkpoints := (store.checkpoints.filter fun stored _ => stored ≤ id).map
      fun stored checkpoint =>
        if stored = id then { checkpoint with marksRemoved := ∅ } else checkpoint }

end MemoryStore

/-! ## Columns -/

section Columns

theorem asU64_asI64 (value : U64) : asU64 (asI64 value.val) = value := by
  have hlt := value.isLt
  apply Fin.ext
  show (asI64 value.val % 18446744073709551616).toNat = value.val
  unfold asI64 i64Max
  split <;> omega

theorem asI64_injective {first second : U64} (h : asI64 first.val = asI64 second.val) :
    first = second := by
  rw [← asU64_asI64 first, h, asU64_asI64]

theorem asU64_val {index : U64} : asU64 (index.val : Int) = index := by
  have hlt := index.isLt
  apply Fin.ext
  show ((index.val : Int) % 18446744073709551616).toNat = index.val
  omega

theorem asI64_nonneg {value : U64} (h : 0 ≤ asI64 value.val) : asI64 value.val = value.val := by
  have hlt := value.isLt
  unfold asI64 i64Max at *
  split at h <;> split <;> omega

@[simp]
theorem TreeState.ofColumn_column (state : TreeState) : ofColumn state.column = state := by
  cases state with
  | empty => rfl
  | atPosition position =>
    show TreeState.atPosition (asU64 (asI64 position.val)) = _
    rw [asU64_asI64]

end Columns

/-! ## Reading a shard back -/

section Reading

variable {H Flags : Type} {height : Nat} {codec : LeafCodec H Flags}

theorem fromParts_val (index : U64) (shard : Shard H Flags height) :
    fromParts index shard.val = .ok (index, shard) := by
  unfold fromParts
  split
  · rfl
  · rename_i hout
    rw [(outOfPlace_eq_none _).mpr shard.property] at hout
    cases hout

/-- The root hash column repeats what the root of the tree says. -/
theorem reannotated (shard : Shard H Flags height) (index : U64) :
    (match (shardRow codec shard).rootHash with
      | none => (.ok (some (index, shard)) : Except Error (Option (U64 × Shard H Flags height)))
      | some rootHashData => (codec.readHash rootHashData).mapError Error.serialization >>=
          fun (rootHash, _) => .ok (some (index, shard.reannotateRoot (some rootHash)))) =
      .ok (some (index, shard)) := by
  obtain ⟨tree, htree⟩ := shard
  cases tree with
  | nil => rfl
  | leaf value flags => rfl
  | parent ann left right =>
    cases ann with
    | none => rfl
    | some rootHash =>
      have hread := codec.readHash_write rootHash []
      rw [List.append_nil] at hread
      show ((codec.readHash (codec.writeHash rootHash)).mapError Error.serialization >>=
        fun (rootHash, _) => (.ok (some (index, Shard.reannotateRoot (some rootHash) ⟨_, htree⟩)) :
          Except Error (Option (U64 × Shard H Flags height)))) = _
      rw [hread]
      rfl

theorem val_succ {index : U64} (hle : index.val ≤ i64Max) : (index + 1).val = index.val + 1 := by
  unfold i64Max at hle
  exact Fin.val_add_one_of_lt' (by omega)

end Reading

/-! ## The rows of removed marks -/

section Marks

variable {tables : ShardTables} {id id' : BlockHeight}

theorem mem_getMarksRemoved {position : Position} :
    position ∈ getMarksRemoved tables id ↔
      ∃ row ∈ tables.marksRemoved, row.1 = id ∧ asU64 row.2 = position := by
  unfold getMarksRemoved
  rw [List.mem_toFinset, List.mem_map]
  constructor
  · rintro ⟨row, hrow, rfl⟩
    obtain ⟨hmem, hid⟩ := List.mem_filter.mp hrow
    exact ⟨row, hmem, of_decide_eq_true hid, rfl⟩
  · rintro ⟨row, hmem, hid, rfl⟩
    exact ⟨row, List.mem_filter.mpr ⟨hmem, decide_eq_true hid⟩, rfl⟩

theorem getMarksRemoved_eq_empty (h : ∀ row ∈ tables.marksRemoved, row.1 ≠ id) :
    getMarksRemoved tables id = ∅ := by
  refine Finset.eq_empty_of_forall_notMem fun position hposition => ?_
  obtain ⟨row, hrow, hid, -⟩ := mem_getMarksRemoved.mp hposition
  exact h row hrow hid

variable {checkpoints : ExtTreeMap BlockHeight (Option Int)}

/-- A deletion that spares the rows of a checkpoint. -/
theorem getMarksRemoved_filter {spared : BlockHeight × Int → Bool}
    (h : ∀ row, row.1 = id → spared row = true) :
    getMarksRemoved { tables with
      marksRemoved := tables.marksRemoved.filter spared, checkpoints := checkpoints } id =
      getMarksRemoved tables id := by
  refine Finset.ext fun position => ?_
  rw [mem_getMarksRemoved, mem_getMarksRemoved]
  constructor
  · rintro ⟨row, hrow, hid, heq⟩
    exact ⟨row, (List.mem_filter.mp hrow).1, hid, heq⟩
  · rintro ⟨row, hrow, hid, heq⟩
    exact ⟨row, List.mem_filter.mpr ⟨hrow, h row hid⟩, hid, heq⟩

/-- The marks of a checkpoint that has no rows yet are all inserted. -/
theorem insertMarksRemoved_fresh {tablePrefix : String} {tables : ShardTables} {id : BlockHeight}
    {positions : List Position} (hnodup : positions.Nodup)
    (hfresh : ∀ position ∈ positions, (id, asI64 position.val) ∉ tables.marksRemoved) :
    insertMarksRemoved tablePrefix tables id positions =
      (.ok (), { tables with
        marksRemoved := tables.marksRemoved ++
          positions.map fun position => (id, asI64 position.val) }) := by
  induction positions generalizing tables with
  | nil =>
    unfold insertMarksRemoved
    rw [List.map_nil, List.append_nil]
  | cons position rest ih =>
    obtain ⟨hnot, hnodup⟩ := List.nodup_cons.mp hnodup
    unfold insertMarksRemoved
    dsimp only
    rw [if_neg (hfresh position List.mem_cons_self)]
    rw [ih hnodup ?_, List.map_cons, List.append_assoc]
    · rfl
    · intro other hother hmem
      rcases List.mem_append.mp hmem with hold | hadded
      · exact hfresh other (List.mem_cons_of_mem _ hother) hold
      · rw [List.mem_singleton] at hadded
        rw [asI64_injective (Prod.mk.inj hadded).2] at hother
        exact hnot hother

theorem getMarksRemoved_append_self {marks : Finset Position}
    (hother : ∀ row ∈ tables.marksRemoved, row.1 ≠ id) :
    getMarksRemoved { tables with
      checkpoints := checkpoints
      marksRemoved := tables.marksRemoved ++
        (marks.sort (· ≤ ·)).map fun position => (id, asI64 position.val) } id = marks := by
  refine Finset.ext fun position => ?_
  rw [mem_getMarksRemoved]
  constructor
  · rintro ⟨row, hrow, hid, rfl⟩
    rcases List.mem_append.mp hrow with hold | hadded
    · exact absurd hid (hother row hold)
    · obtain ⟨position, hposition, rfl⟩ := List.mem_map.mp hadded
      rw [asU64_asI64]
      exact (Finset.mem_sort _).mp hposition
  · intro hposition
    refine ⟨(id, asI64 position.val), List.mem_append_right _ (List.mem_map.mpr ?_), rfl,
      asU64_asI64 position⟩
    exact ⟨position, (Finset.mem_sort _).mpr hposition, rfl⟩

theorem getMarksRemoved_append_other {positions : List Position} (hne : id ≠ id') :
    getMarksRemoved { tables with
      checkpoints := checkpoints
      marksRemoved := tables.marksRemoved ++
        positions.map fun position => (id, asI64 position.val) } id' =
      getMarksRemoved tables id' := by
  refine Finset.ext fun position => ?_
  rw [mem_getMarksRemoved, mem_getMarksRemoved]
  constructor
  · rintro ⟨row, hrow, hid, heq⟩
    rcases List.mem_append.mp hrow with hold | hadded
    · exact ⟨row, hold, hid, heq⟩
    · obtain ⟨position, -, rfl⟩ := List.mem_map.mp hadded
      exact absurd hid hne
  · rintro ⟨row, hrow, hid, heq⟩
    exact ⟨row, List.mem_append_left _ hrow, hid, heq⟩

end Marks

/-! ## The relation -/

section Relation

variable {H Flags : Type} {height : Nat} (codec : LeafCodec H Flags)

/-- The tables hold what the maps hold. -/
structure Refines (tables : ShardTables) (store : MemoryStore H Flags height) : Prop where
  cap : getCap codec tables = .ok store.cap
  stored : ∀ (index : U64) shard, store.shards[index]? = some shard → index.val ≤ i64Max ∧
    tables.shards[(index.val : Int)]? = some (shardRow codec shard)
  known : ∀ shardIndex row, tables.shards[shardIndex]? = some row →
    ∃ index : U64, ∃ shard, store.shards[index]? = some shard ∧ shardIndex = (index.val : Int)
  checkpoints : tables.checkpoints = store.checkpoints.map fun _ checkpoint =>
    checkpoint.treeState.column
  marks : ∀ id checkpoint, store.checkpoints[id]? = some checkpoint →
    getMarksRemoved tables id = checkpoint.marksRemoved
  /-- No row of removed marks outlives its checkpoint. -/
  covered : ∀ row ∈ tables.marksRemoved, row.1 ∈ tables.checkpoints

variable {codec} {tables : ShardTables} {store : MemoryStore H Flags height}

theorem refines_empty : Refines codec {} ({} : MemoryStore H Flags height) where
  cap := rfl
  stored := by
    intro index shard h
    rw [ExtTreeMap.getElem?_empty] at h
    cases h
  known := by
    intro shardIndex row h
    rw [ExtTreeMap.getElem?_empty] at h
    cases h
  checkpoints := by
    refine ExtTreeMap.ext_getElem? fun id => ?_
    rw [ExtTreeMap.getElem?_map, ExtTreeMap.getElem?_empty, ExtTreeMap.getElem?_empty]
    rfl
  marks := by
    intro id checkpoint h
    rw [ExtTreeMap.getElem?_empty] at h
    cases h
  covered := fun row h => absurd h (List.not_mem_nil)

namespace Refines

variable (h : Refines codec tables store)

include h

/-- A shard stands under its index and nothing else does. -/
theorem shard (index : U64) :
    tables.shards[asI64 index.val]? = store.shards[index]?.map (shardRow codec) := by
  cases hstore : store.shards[index]? with
  | some shard =>
    obtain ⟨hle, hrow⟩ := h.stored index shard hstore
    rw [asI64_of_le hle, hrow]
    rfl
  | none =>
    cases hrow : tables.shards[asI64 index.val]? with
    | none => rfl
    | some row =>
      obtain ⟨index', shard, hshard, hindex⟩ := h.known _ row hrow
      have hval : asI64 index.val = index.val := asI64_nonneg (by omega)
      have hsame : index = index' := Fin.ext (by omega)
      rw [hsame, hshard] at hstore
      cases hstore

theorem shards_toList :
    tables.shards.toList = store.shards.toList.map fun entry =>
      ((entry.1.val : Int), shardRow codec entry.2) := by
  refine OrderedMaps.toList_of_corresponds ?_ (fun index shard hshard => (h.stored _ _ hshard).2)
    h.known
  intro a v b w _ _ hlt
  rw [Int.compare_eq_lt]
  have hlt : a < b := compare_lt_iff_lt.mp hlt
  exact Int.ofNat_lt.mpr hlt

theorem shards_keys :
    tables.shards.keys = store.shards.keys.map fun index => (index.val : Int) := by
  rw [← ExtTreeMap.map_fst_toList_eq_keys, ← ExtTreeMap.map_fst_toList_eq_keys, h.shards_toList,
    List.map_map, List.map_map]
  rfl

variable {index : U64}

/-- A stored index is one of those the maps know, and an `i64` holds it. -/
theorem index_le (hkey : index ∈ store.shards.keys) : index.val ≤ i64Max := by
  have hmem := ExtTreeMap.mem_keys.mp hkey
  rw [ExtTreeMap.mem_iff_isSome_getElem?, Option.isSome_iff_exists] at hmem
  obtain ⟨shard, hshard⟩ := hmem
  exact (h.stored index shard hshard).1

theorem entries :
    tables.checkpoints.toList.map (fun row => (row.1, checkpointOfRow tables row)) =
      store.checkpoints.toList := by
  rw [h.checkpoints, ExtTreeMap.toList_map, List.map_map]
  refine (List.map_congr_left fun entry hentry => ?_).trans (List.map_id _)
  have hstored := ExtTreeMap.mem_toList_iff_getElem?_eq_some.mp hentry
  show (entry.1, (⟨.ofColumn entry.2.treeState.column, getMarksRemoved tables entry.1⟩ :
    Checkpoint)) = entry
  rw [h.marks entry.1 entry.2 hstored, TreeState.ofColumn_column]

theorem keys : tables.checkpoints.keys = store.checkpoints.keys := by
  rw [← ExtTreeMap.map_fst_toList_eq_keys, ← ExtTreeMap.map_fst_toList_eq_keys, h.checkpoints,
    ExtTreeMap.toList_map, List.map_map]
  rfl

theorem column (id : BlockHeight) :
    tables.checkpoints[id]? = store.checkpoints[id]?.map fun checkpoint =>
      checkpoint.treeState.column := by
  rw [h.checkpoints, ExtTreeMap.getElem?_map]

theorem getCheckpoint (id : BlockHeight) : getCheckpoint tables id = store.checkpoints[id]? := by
  unfold ShardStore.getCheckpoint
  rw [h.column]
  cases hstore : store.checkpoints[id]? with
  | none => rfl
  | some checkpoint =>
    show some (⟨.ofColumn checkpoint.treeState.column, getMarksRemoved tables id⟩ : Checkpoint) = _
    rw [h.marks id checkpoint hstore, TreeState.ofColumn_column]

/-- A row of removed marks belongs to a checkpoint. -/
theorem known_of_mark {row : BlockHeight × Int} (hrow : row ∈ tables.marksRemoved) :
    ∃ checkpoint, store.checkpoints[row.1]? = some checkpoint := by
  have hmem := h.covered row hrow
  rw [ExtTreeMap.mem_iff_isSome_getElem?, h.column, Option.isSome_map,
    Option.isSome_iff_exists] at hmem
  exact hmem

/-! ### Shards -/

theorem getShard (index : U64) :
    ShardStore.getShard codec tables index =
      .ok (store.shards[index]?.map fun shard => (index, shard)) := by
  unfold ShardStore.getShard
  rw [h.shard]
  cases store.shards[index]? with
  | none => rfl
  | some shard =>
    show ((readShard codec (writeShard codec shard.val)).mapError Error.serialization >>= fun tree =>
      fromParts index tree >>= fun located => _) = _
    rw [readShard_writeShard]
    show (fromParts index shard.val >>= fun located => _) = _
    rw [fromParts_val]
    show (match (shardRow codec shard).rootHash with
      | none => (.ok (some (index, shard)) : Except Error (Option (U64 × Shard H Flags height)))
      | some rootHashData => (codec.readHash rootHashData).mapError Error.serialization >>=
          fun (rootHash, _) => .ok (some (index, shard.reannotateRoot (some rootHash)))) = _
    exact reannotated shard index

theorem lastShard : ShardStore.lastShard codec tables = .ok store.shards.toList.getLast? := by
  unfold ShardStore.lastShard
  rw [h.shards_toList, List.getLast?_map]
  cases store.shards.toList.getLast? with
  | none => rfl
  | some entry =>
    show ((readShard codec (writeShard codec entry.2.val)).mapError Error.serialization >>=
      fun tree => fromParts (asU64 (entry.1.val : Int)) tree >>= fun shard =>
        (.ok (some shard) : Except Error (Option (U64 × Shard H Flags height)))) = _
    rw [readShard_writeShard, asU64_val]
    show (fromParts entry.1 entry.2.val >>= fun shard =>
      (.ok (some shard) : Except Error (Option (U64 × Shard H Flags height)))) = _
    rw [fromParts_val]
    rfl

theorem getShardRoots : ShardStore.getShardRoots tables = store.shards.keys := by
  unfold ShardStore.getShardRoots
  rw [h.shards_keys, List.map_map]
  refine (List.map_congr_left fun index _ => ?_).trans (List.map_id _)
  exact asU64_val

/-- The check looks at the outermost indexes, which are those of the maps. -/
theorem checkShardDiscontinuity (hle : index.val ≤ i64Max) :
    ShardStore.checkShardDiscontinuity tables (index, index + 1) =
      match store.shards.keys.head?, store.shards.keys.getLast? with
      | some first, some last =>
        if index.val + 1 < first.val ∨ last.val + 1 < index.val then
          .error (.subtreeDiscontinuity (index, index + 1) (first, last + 1))
        else .ok ()
      | _, _ => .ok () := by
  unfold ShardStore.checkShardDiscontinuity
  rw [h.shards_keys, List.head?_map, List.getLast?_map]
  cases hmin : store.shards.keys.head? with
  | none => rfl
  | some first =>
    cases hmax : store.shards.keys.getLast? with
    | none => rfl
    | some last =>
      have hlast : last.val ≤ i64Max := h.index_le (List.mem_of_getLast? hmax)
      dsimp only [Option.map_some]
      rw [asU64_val, asU64_val]
      refine if_congr ?_ rfl rfl
      rw [gt_iff_lt, gt_iff_lt, Fin.lt_def, Fin.lt_def, val_succ hle, val_succ hlast]

/-- A shard whose index an `i64` holds and whose root hash, if it passes the check, no other shard
has. -/
theorem putShard (tablePrefix : String) {shard : Shard H Flags height} (hle : index.val ≤ i64Max)
    (hfree : ShardStore.checkShardDiscontinuity tables (index, index + 1) = .ok () →
      ¬ HashTaken tables (asI64 index.val) (shardRow codec shard)) :
    (ShardStore.putShard codec tablePrefix tables index shard).1 = (store.putShard index shard).1 ∧
      Refines codec (ShardStore.putShard codec tablePrefix tables index shard).2
        (store.putShard index shard).2 := by
  have hput : Refines codec
      { tables with shards := tables.shards.insert (asI64 index.val) (shardRow codec shard) }
      { store with shards := store.shards.insert index shard } := by
    refine ⟨h.cap, ?_, ?_, h.checkpoints, h.marks, h.covered⟩
    · intro index' shard' hshard'
      rw [asI64_of_le hle]
      rw [ExtTreeMap.getElem?_insert] at hshard' ⊢
      by_cases hsame : index = index'
      · subst hsame
        rw [if_pos (Std.ReflCmp.compare_self), Option.some.injEq] at hshard'
        rw [if_pos (Std.ReflCmp.compare_self), hshard']
        exact ⟨hle, rfl⟩
      · rw [if_neg (fun heq => hsame (Std.LawfulEqCmp.eq_of_compare heq))] at hshard'
        rw [if_neg (fun heq => hsame (Fin.ext (Int.ofNat_inj.mp (Std.LawfulEqCmp.eq_of_compare heq))))]
        exact h.stored index' shard' hshard'
    · intro shardIndex row hrow
      rw [asI64_of_le hle, ExtTreeMap.getElem?_insert] at hrow
      by_cases hsame : (index.val : Int) = shardIndex
      · exact ⟨index, shard, ExtTreeMap.getElem?_insert_self, hsame.symm⟩
      · rw [if_neg (fun heq => hsame (Std.LawfulEqCmp.eq_of_compare heq))] at hrow
        obtain ⟨index', shard', hshard', rfl⟩ := h.known shardIndex row hrow
        refine ⟨index', shard', ?_, rfl⟩
        show (store.shards.insert index shard)[index']? = _
        rw [ExtTreeMap.getElem?_insert,
          if_neg (fun heq => hsame (by rw [Std.LawfulEqCmp.eq_of_compare heq])), hshard']
  unfold ShardStore.putShard MemoryStore.putShard
  dsimp only
  rw [h.checkShardDiscontinuity hle] at hfree ⊢
  cases hmin : store.shards.keys.head? with
  | none =>
    rw [hmin] at hfree
    dsimp only
    rw [if_neg (hfree rfl)]
    exact ⟨rfl, hput⟩
  | some first =>
    cases hmax : store.shards.keys.getLast? with
    | none =>
      rw [hmin, hmax] at hfree
      dsimp only
      rw [if_neg (hfree rfl)]
      exact ⟨rfl, hput⟩
    | some last =>
      rw [hmin, hmax] at hfree
      dsimp only at hfree ⊢
      by_cases hgap : index.val + 1 < first.val ∨ last.val + 1 < index.val
      · rw [if_pos hgap, if_pos hgap]
        exact ⟨rfl, h⟩
      · rw [if_neg hgap] at hfree
        rw [if_neg hgap, if_neg hgap]
        dsimp only
        rw [if_neg (hfree rfl)]
        exact ⟨rfl, hput⟩

/-- Shards from an index on that an `i64` holds; with no shards nothing is deleted. -/
theorem truncateShards (hle : index.val ≤ i64Max ∨ tables.shards.toList = []) :
    Refines codec (ShardStore.truncateShards tables index) (store.truncateShards index) := by
  have hkept : ∀ (index' : U64) shard, store.shards[index']? = some shard →
      (¬ (index'.val : Int) ≥ asI64 index.val ↔ index' < index) := by
    intro index' shard hshard
    rcases hle with hle | hempty
    · rw [asI64_of_le hle, Fin.lt_def]
      omega
    · have hmem := ExtTreeMap.mem_toList_iff_getElem?_eq_some.mpr (h.stored index' shard hshard).2
      rw [hempty] at hmem
      cases hmem
  refine ⟨h.cap, ?_, ?_, h.checkpoints, h.marks, h.covered⟩
  · intro index' shard hshard
    unfold MemoryStore.truncateShards at hshard
    rw [ExtTreeMap.getElem?_filter', Option.filter_eq_some_iff, decide_eq_true_iff] at hshard
    obtain ⟨hle', hrow⟩ := h.stored index' shard hshard.1
    refine ⟨hle', ?_⟩
    unfold ShardStore.truncateShards
    rw [ExtTreeMap.getElem?_filter', Option.filter_eq_some_iff, decide_eq_true_iff]
    exact ⟨hrow, (hkept index' shard hshard.1).mpr hshard.2⟩
  · intro shardIndex row hrow
    unfold ShardStore.truncateShards at hrow
    rw [ExtTreeMap.getElem?_filter', Option.filter_eq_some_iff, decide_eq_true_iff] at hrow
    obtain ⟨index', shard, hshard, rfl⟩ := h.known shardIndex row hrow.1
    refine ⟨index', shard, ?_, rfl⟩
    unfold MemoryStore.truncateShards
    rw [ExtTreeMap.getElem?_filter', Option.filter_eq_some_iff, decide_eq_true_iff]
    exact ⟨hshard, (hkept index' shard hshard).mp hrow.2⟩

theorem putCap (cap : PrunableTree H Flags) :
    Refines codec (ShardStore.putCap codec tables cap) { store with cap := cap } := by
  refine ⟨?_, h.stored, h.known, h.checkpoints, h.marks, h.covered⟩
  show (readShard codec (writeShard codec cap)).mapError Error.serialization = _
  rw [readShard_writeShard]
  rfl

/-! ### Checkpoints -/

theorem minCheckpointId : ShardStore.minCheckpointId tables = store.checkpoints.keys.head? := by
  unfold ShardStore.minCheckpointId
  rw [h.keys]

theorem maxCheckpointId : ShardStore.maxCheckpointId tables = store.checkpoints.keys.getLast? := by
  unfold ShardStore.maxCheckpointId
  rw [h.keys]

theorem checkpointCount : ShardStore.checkpointCount tables = store.checkpoints.toList.length := by
  unfold ShardStore.checkpointCount
  rw [← h.entries, List.length_map]

/-- A new checkpoint with its marks. -/
theorem insertCheckpoint (tablePrefix : String) {id : BlockHeight} (checkpoint : Checkpoint)
    (hnew : store.checkpoints[id]? = none) :
    ∃ tables', insertMarksRemoved tablePrefix
        { tables with checkpoints := tables.checkpoints.insert id checkpoint.treeState.column } id
        (checkpoint.marksRemoved.sort (· ≤ ·)) = (.ok (), tables') ∧
      Refines codec tables' { store with checkpoints := store.checkpoints.insert id checkpoint } := by
  have hother : ∀ row ∈ tables.marksRemoved, row.1 ≠ id := by
    rintro row hrow rfl
    obtain ⟨checkpoint, hcheckpoint⟩ := h.known_of_mark hrow
    rw [hcheckpoint] at hnew
    cases hnew
  have hinserted := @insertMarksRemoved_fresh tablePrefix
    { tables with checkpoints := tables.checkpoints.insert id checkpoint.treeState.column } id
    (checkpoint.marksRemoved.sort (· ≤ ·)) (Finset.sort_nodup _ _)
    (fun position _ hmem => hother _ hmem rfl)
  refine ⟨_, hinserted, h.cap, h.stored, h.known, ?_, ?_, ?_⟩
  · show tables.checkpoints.insert id checkpoint.treeState.column = _
    refine ExtTreeMap.ext_getElem? fun id' => ?_
    rw [ExtTreeMap.getElem?_map, ExtTreeMap.getElem?_insert, ExtTreeMap.getElem?_insert, h.column]
    split <;> rfl
  · intro id' checkpoint' hcheckpoint'
    rw [ExtTreeMap.getElem?_insert] at hcheckpoint'
    by_cases hsame : id = id'
    · subst hsame
      rw [if_pos Std.ReflCmp.compare_self, Option.some.injEq] at hcheckpoint'
      subst hcheckpoint'
      exact getMarksRemoved_append_self hother
    · rw [if_neg (fun heq => hsame (Std.LawfulEqCmp.eq_of_compare heq))] at hcheckpoint'
      rw [← h.marks id' checkpoint' hcheckpoint']
      exact getMarksRemoved_append_other hsame
  · intro row hrow
    show row.1 ∈ tables.checkpoints.insert id checkpoint.treeState.column
    rw [ExtTreeMap.mem_insert]
    rcases List.mem_append.mp hrow with hold | hadded
    · exact Or.inr (h.covered row hold)
    · obtain ⟨position, -, rfl⟩ := List.mem_map.mp hadded
      exact Or.inl Std.ReflCmp.compare_self

theorem addCheckpoint (tablePrefix : String) (id : BlockHeight) (checkpoint : Checkpoint) :
    (ShardStore.addCheckpoint tablePrefix tables id checkpoint).1 =
        (store.addCheckpoint id checkpoint).1 ∧
      Refines codec (ShardStore.addCheckpoint tablePrefix tables id checkpoint).2
        (store.addCheckpoint id checkpoint).2 := by
  unfold ShardStore.addCheckpoint MemoryStore.addCheckpoint
  rw [h.column]
  cases hstored : store.checkpoints[id]? with
  | none =>
    obtain ⟨tables', hinserted, hrefines⟩ := h.insertCheckpoint tablePrefix checkpoint hstored
    dsimp only [Option.map_none]
    rw [hinserted]
    exact ⟨rfl, hrefines⟩
  | some stored =>
    dsimp only [Option.map_some]
    rw [TreeState.ofColumn_column, h.marks id stored hstored]
    by_cases hstate : stored.treeState = checkpoint.treeState
    · rw [if_neg (fun hne => hne hstate), if_pos hstate]
      by_cases hmarks : stored.marksRemoved = checkpoint.marksRemoved
      · have heq : stored = checkpoint := by
          obtain ⟨state, marks⟩ := stored
          obtain ⟨state', marks'⟩ := checkpoint
          exact congrArg₂ Checkpoint.mk hstate hmarks
        rw [if_pos hmarks, if_pos heq]
        exact ⟨rfl, h⟩
      · rw [if_neg hmarks, if_neg (fun heq => hmarks (congrArg _ heq))]
        exact ⟨rfl, h⟩
    · rw [if_pos hstate, if_neg (fun heq => hstate (congrArg _ heq)), if_neg hstate]
      exact ⟨rfl, h⟩

theorem removeCheckpoint (id : BlockHeight) :
    Refines codec (ShardStore.removeCheckpoint tables id) (store.removeCheckpoint id) := by
  refine ⟨h.cap, h.stored, h.known, ?_, ?_, ?_⟩
  · show tables.checkpoints.erase id = (store.checkpoints.erase id).map _
    refine ExtTreeMap.ext_getElem? fun id' => ?_
    rw [ExtTreeMap.getElem?_map, ExtTreeMap.getElem?_erase, ExtTreeMap.getElem?_erase, h.column]
    split <;> rfl
  · intro id' checkpoint hcheckpoint
    unfold MemoryStore.removeCheckpoint at hcheckpoint
    rw [ExtTreeMap.getElem?_erase] at hcheckpoint
    split at hcheckpoint
    · cases hcheckpoint
    · rename_i hne
      rw [← h.marks id' checkpoint hcheckpoint]
      refine getMarksRemoved_filter fun row hrow => ?_
      rw [decide_eq_true_iff]
      rintro rfl
      exact hne (by rw [hrow]; exact Std.ReflCmp.compare_self)
  · intro row hrow
    obtain ⟨hmem, hne⟩ := List.mem_filter.mp hrow
    show row.1 ∈ tables.checkpoints.erase id
    rw [ExtTreeMap.mem_erase]
    refine ⟨fun heq => ?_, h.covered row hmem⟩
    exact (of_decide_eq_true hne) (Std.LawfulEqCmp.eq_of_compare heq).symm

theorem updateCheckpointWith (tablePrefix : String) (id : BlockHeight)
    (update : Checkpoint → Except Error Checkpoint) :
    (ShardStore.updateCheckpointWith tablePrefix tables id update).1 =
        (store.updateCheckpointWith id update).1 ∧
      Refines codec (ShardStore.updateCheckpointWith tablePrefix tables id update).2
        (store.updateCheckpointWith id update).2 := by
  unfold ShardStore.updateCheckpointWith MemoryStore.updateCheckpointWith
  rw [h.getCheckpoint]
  cases store.checkpoints[id]? with
  | none => exact ⟨rfl, h⟩
  | some checkpoint =>
    dsimp only
    cases update checkpoint with
    | error e => exact ⟨rfl, h⟩
    | ok checkpoint =>
      have hremoved := h.removeCheckpoint id
      have habsent : (store.removeCheckpoint id).checkpoints[id]? = none :=
        ExtTreeMap.getElem?_erase_self
      obtain ⟨tables', hinserted, hrefines⟩ :=
        hremoved.insertCheckpoint tablePrefix checkpoint habsent
      have hadded : ShardStore.addCheckpoint tablePrefix (ShardStore.removeCheckpoint tables id) id
          checkpoint = (.ok (), tables') := by
        unfold ShardStore.addCheckpoint
        rw [hremoved.column, habsent]
        exact hinserted
      dsimp only
      rw [hadded]
      refine ⟨rfl, ?_⟩
      have hsame : (store.checkpoints.erase id).insert id checkpoint =
          store.checkpoints.insert id checkpoint := by
        refine ExtTreeMap.ext_getElem? fun id' => ?_
        rw [ExtTreeMap.getElem?_insert, ExtTreeMap.getElem?_insert, ExtTreeMap.getElem?_erase]
        split <;> rfl
      unfold MemoryStore.removeCheckpoint at hrefines
      dsimp only at hrefines
      rwa [hsame] at hrefines

theorem truncateCheckpointsRetaining (id : BlockHeight) :
    Refines codec (ShardStore.truncateCheckpointsRetaining tables id)
      (store.truncateCheckpointsRetaining id) := by
  refine ⟨h.cap, h.stored, h.known, ?_, ?_, ?_⟩
  · unfold ShardStore.truncateCheckpointsRetaining MemoryStore.truncateCheckpointsRetaining
    refine ExtTreeMap.ext_getElem? fun id' => ?_
    rw [ExtTreeMap.getElem?_map, ExtTreeMap.getElem?_map, ExtTreeMap.getElem?_filter',
      ExtTreeMap.getElem?_filter', h.column]
    cases store.checkpoints[id']? with
    | none => rfl
    | some checkpoint =>
      by_cases hle : id' ≤ id
      · simp only [Option.map_some, Option.filter_some, not_lt, gt_iff_lt, hle, decide_true, if_true]
        split <;> rfl
      · simp only [Option.map_some, Option.filter_some, not_lt, gt_iff_lt, hle, decide_false]
        rfl
  · intro id' checkpoint hcheckpoint
    unfold MemoryStore.truncateCheckpointsRetaining at hcheckpoint
    rw [ExtTreeMap.getElem?_map, ExtTreeMap.getElem?_filter', Option.map_eq_some_iff] at hcheckpoint
    obtain ⟨stored, hstored, rfl⟩ := hcheckpoint
    rw [Option.filter_eq_some_iff, decide_eq_true_iff] at hstored
    by_cases hsame : id' = id
    · rw [if_pos hsame]
      show getMarksRemoved _ id' = ∅
      refine getMarksRemoved_eq_empty fun row hrow => ?_
      have hlow := of_decide_eq_true (List.mem_filter.mp hrow).2
      rintro rfl
      exact hlow (le_of_eq hsame.symm)
    · rw [if_neg hsame, ← h.marks id' stored hstored.1]
      refine getMarksRemoved_filter fun row hrow => ?_
      rw [decide_eq_true_iff, hrow, ge_iff_le, not_le]
      exact lt_of_le_of_ne hstored.2 hsame
  · intro row hrow
    obtain ⟨hmem, hlow⟩ := List.mem_filter.mp hrow
    have hlow : row.1 < id := not_le.mp (of_decide_eq_true hlow)
    show row.1 ∈ tables.checkpoints.filter _
    rw [ExtTreeMap.mem_iff_isSome_getElem?, ExtTreeMap.getElem?_filter', Option.isSome_iff_exists]
    have hknown := h.covered row hmem
    rw [ExtTreeMap.mem_iff_isSome_getElem?, Option.isSome_iff_exists] at hknown
    obtain ⟨column, hcolumn⟩ := hknown
    refine ⟨column, ?_⟩
    rw [Option.filter_eq_some_iff, decide_eq_true_iff]
    exact ⟨hcolumn, not_lt.mpr hlow.le⟩

end Refines

end Relation

end ShardStore
end StashiWallet
