import StashiWallet.Runs
import StashiWallet.ShardMemory

/-!
# What the shard store answers

A run is a sequence of operations from empty tables. Where every operation meets `Meets` in the
tables it is performed on, the store answers as the maps do, from the first operation to the last
(`answers_as_memory`).

The condition is about two things. `with_checkpoints` orders by position: it agrees with the order
of the ids only while positions rise with them, and a tie is broken as the engine likes. And an
`i64` holds only the lower half of the `u64` numbers.
-/

namespace StashiWallet
namespace ShardStore

open Std (ExtTreeMap)

open Runs

/-! ## Positions that rise with the ids -/

/-- A position comes before the next one. -/
def Before (row next : BlockHeight × Option Int) : Prop :=
  ∃ following ∈ next.2, ∀ position ∈ row.2, position < following

/-- The engine leaves rows that are in order as they stand. -/
def PositionOrder.KeepsSorted (order : PositionOrder) : Prop :=
  ∀ rows, rows.Pairwise NotAfter → order.order rows = rows

/-- Positions rise with the ids; they may repeat where the engine keeps rows that are in order. -/
def PositionsRise (order : PositionOrder) (tables : ShardTables) : Prop :=
  tables.checkpoints.toList.Pairwise Before ∨
    order.KeepsSorted ∧ tables.checkpoints.toList.Pairwise NotAfter

theorem NotAfter.of_before {row next : BlockHeight × Option Int} (h : Before row next) :
    NotAfter row next := by
  obtain ⟨following, hfollowing, hlt⟩ := h
  exact fun position hposition => ⟨following, hfollowing, (hlt position hposition).le⟩

/-- Rows one of which comes before the other have only one order. -/
theorem PositionOrder.order_eq {order : PositionOrder} {rows : List (BlockHeight × Option Int)}
    (h : rows.Pairwise Before) : order.order rows = rows := by
  refine @List.Perm.eq_of_pairwise _ NotAfter _ _ ?_ (order.sorted rows)
    (h.imp NotAfter.of_before) (order.perm rows)
  intro row next hrow hnext hle hge
  have hrow : row ∈ rows := (order.perm rows).mem_iff.mp hrow
  by_contra hne
  have hclash : ∀ first second : BlockHeight × Option Int,
      NotAfter first second → Before second first → False := by
    rintro first second hle ⟨position, hposition, hlt⟩
    obtain ⟨following, hfollowing, hle⟩ := hle position hposition
    exact absurd (hlt following hfollowing) (not_lt.mpr hle)
  have hsymm : Std.Symm fun first second : BlockHeight × Option Int =>
      Before first second ∨ Before second first := ⟨fun _ _ => Or.symm⟩
  have heither : rows.Pairwise fun first second => Before first second ∨ Before second first :=
    h.imp Or.inl
  rcases heither.forall hrow hnext hne with hbefore | hbefore
  · exact hclash next row hge hbefore
  · exact hclash row next hle hbefore

theorem PositionsRise.order_eq {order : PositionOrder} {tables : ShardTables}
    (h : PositionsRise order tables) :
    order.order tables.checkpoints.toList = tables.checkpoints.toList := by
  rcases h with hbefore | ⟨hkeeps, hnotAfter⟩
  · exact PositionOrder.order_eq hbefore
  · exact hkeeps _ hnotAfter

/-! ## Operations -/

/-- The operations of `ShardStore`. -/
inductive Op (H Flags : Type) (height : Nat) where
  | getShard (index : U64)
  | lastShard
  | putShard (index : U64) (shard : Shard H Flags height)
  | getShardRoots
  | truncateShards (index : U64)
  | getCap
  | putCap (cap : PrunableTree H Flags)
  | minCheckpointId
  | maxCheckpointId
  | addCheckpoint (id : BlockHeight) (checkpoint : Checkpoint)
  | checkpointCount
  | getCheckpointAtDepth (depth : U64)
  | getCheckpoint (id : BlockHeight)
  /-- `with_checkpoints` and `for_each_checkpoint`. -/
  | withCheckpoints (limit : U64) (callback : Visitor)
  | updateCheckpointWith (id : BlockHeight) (update : Checkpoint → Except Error Checkpoint)
  | removeCheckpoint (id : BlockHeight)
  | truncateCheckpointsRetaining (id : BlockHeight)

/-- What an operation returns; of a visit also the calls the callback got. -/
inductive Answer (H Flags : Type) (height : Nat) where
  | done (outcome : Except Error Unit)
  | shard (found : Except Error (Option (U64 × Shard H Flags height)))
  | roots (indexes : List U64)
  | cap (cap : Except Error (PrunableTree H Flags))
  | checkpointId (id : Option BlockHeight)
  | count (count : Nat)
  | checkpointAt (found : Option (BlockHeight × Checkpoint))
  | checkpoint (found : Option Checkpoint)
  | visited (seen : List (BlockHeight × Checkpoint)) (outcome : Except Error Unit)
  | updated (outcome : Except Error Bool)

/-- The operation reports an error. -/
def Answer.IsError {H Flags : Type} {height : Nat} : Answer H Flags height → Prop
  | .done outcome => ∃ e, outcome = .error e
  | .shard found => ∃ e, found = .error e
  | .cap stored => ∃ e, stored = .error e
  | .visited _ outcome => ∃ e, outcome = .error e
  | .updated outcome => ∃ e, outcome = .error e
  | _ => False

section Steps

variable {H Flags : Type} {height : Nat} (codec : LeafCodec H Flags) (tablePrefix : String)
  (order : PositionOrder)

/-- An operation on the tables. -/
def perform (tables : ShardTables) : Op H Flags height → Answer H Flags height × ShardTables
  | .getShard index => (.shard (getShard codec tables index), tables)
  | .lastShard => (.shard (lastShard codec tables), tables)
  | .putShard index shard =>
    let (outcome, tables) := putShard codec tablePrefix tables index shard
    (.done outcome, tables)
  | .getShardRoots => (.roots (getShardRoots tables), tables)
  | .truncateShards index => (.done (.ok ()), truncateShards tables index)
  | .getCap => (.cap (getCap codec tables), tables)
  | .putCap cap => (.done (.ok ()), putCap codec tables cap)
  | .minCheckpointId => (.checkpointId (minCheckpointId tables), tables)
  | .maxCheckpointId => (.checkpointId (maxCheckpointId tables), tables)
  | .addCheckpoint id checkpoint =>
    let (outcome, tables) := addCheckpoint tablePrefix tables id checkpoint
    (.done outcome, tables)
  | .checkpointCount => (.count (checkpointCount tables), tables)
  | .getCheckpointAtDepth depth => (.checkpointAt (getCheckpointAtDepth tables depth), tables)
  | .getCheckpoint id => (.checkpoint (getCheckpoint tables id), tables)
  | .withCheckpoints limit callback =>
    let (seen, outcome) := withCheckpoints order tables limit callback
    (.visited seen outcome, tables)
  | .updateCheckpointWith id update =>
    let (outcome, tables) := updateCheckpointWith tablePrefix tables id update
    (.updated outcome, tables)
  | .removeCheckpoint id => (.done (.ok ()), removeCheckpoint tables id)
  | .truncateCheckpointsRetaining id => (.done (.ok ()), truncateCheckpointsRetaining tables id)

/-- The operation on the maps. -/
def MemoryStore.perform (store : MemoryStore H Flags height) :
    Op H Flags height → Answer H Flags height × MemoryStore H Flags height
  | .getShard index => (.shard (.ok (store.shards[index]?.map fun shard => (index, shard))), store)
  | .lastShard => (.shard (.ok store.shards.toList.getLast?), store)
  | .putShard index shard =>
    let (outcome, store) := store.putShard index shard
    (.done outcome, store)
  | .getShardRoots => (.roots store.shards.keys, store)
  | .truncateShards index => (.done (.ok ()), store.truncateShards index)
  | .getCap => (.cap (.ok store.cap), store)
  | .putCap cap => (.done (.ok ()), { store with cap := cap })
  | .minCheckpointId => (.checkpointId store.checkpoints.keys.head?, store)
  | .maxCheckpointId => (.checkpointId store.checkpoints.keys.getLast?, store)
  | .addCheckpoint id checkpoint =>
    let (outcome, store) := store.addCheckpoint id checkpoint
    (.done outcome, store)
  | .checkpointCount => (.count store.checkpoints.toList.length, store)
  | .getCheckpointAtDepth depth => (.checkpointAt (store.checkpointAtDepth depth), store)
  | .getCheckpoint id => (.checkpoint store.checkpoints[id]?, store)
  | .withCheckpoints limit callback =>
    let (seen, outcome) := store.withCheckpoints limit callback
    (.visited seen outcome, store)
  | .updateCheckpointWith id update =>
    let (outcome, store) := store.updateCheckpointWith id update
    (.updated outcome, store)
  | .removeCheckpoint id => (.done (.ok ()), store.removeCheckpoint id)
  | .truncateCheckpointsRetaining id => (.done (.ok ()), store.truncateCheckpointsRetaining id)

/-- The tables in which the operation agrees with the maps: indexes and depths an `i64` holds, no
second shard with the root hash, and for a visit positions that rise with the ids. -/
def Meets (tables : ShardTables) : Op H Flags height → Prop
  | .putShard index shard => index.val ≤ i64Max ∧
      (checkShardDiscontinuity tables (index, index + 1) = .ok () →
        ¬ HashTaken tables (asI64 index.val) (shardRow codec shard))
  | .truncateShards index => index.val ≤ i64Max ∨ tables.shards.toList = []
  | .getCheckpointAtDepth depth => depth.val ≤ i64Max ∨ tables.checkpoints.toList = []
  | .withCheckpoints _ _ => PositionsRise order tables
  | _ => True

end Steps

section Refinement

variable {H Flags : Type} {height : Nat} {codec : LeafCodec H Flags} {tablePrefix : String}
  {order : PositionOrder} {tables : ShardTables} {store : MemoryStore H Flags height}

theorem Refines.checkpointAtDepth (h : Refines codec tables store) {depth : U64}
    (hle : depth.val ≤ i64Max ∨ tables.checkpoints.toList = []) :
    getCheckpointAtDepth tables depth = store.checkpointAtDepth depth := by
  unfold getCheckpointAtDepth MemoryStore.checkpointAtDepth offset
  rw [List.head?_drop, ← h.entries, ← List.map_reverse, List.getElem?_map]
  rcases hle with hle | hempty
  · rw [asI64_of_le hle, Int.toNat_natCast]
  · rw [hempty]
    rfl

/-- There are fewer checkpoints than a negative limit would spare. -/
theorem limited_checkpoints (limit : U64) :
    limited (asI64 limit.val) tables.checkpoints.toList =
      tables.checkpoints.toList.take limit.val := by
  have hlength := OrderedMaps.length_toList_le_card tables.checkpoints
  rw [Fintype.card_fin] at hlength
  unfold limited
  by_cases hle : limit.val ≤ i64Max
  · rw [asI64_of_le hle, if_neg (by omega), Int.toNat_natCast]
  · have hlt := limit.isLt
    have hneg : asI64 limit.val < 0 := by
      unfold asI64
      rw [if_neg hle]
      omega
    unfold i64Max at hle
    rw [if_pos hneg, List.take_of_length_le (by omega)]

theorem Refines.withCheckpoints (h : Refines codec tables store)
    (hrise : PositionsRise order tables) (limit : U64) (callback : Visitor) :
    withCheckpoints order tables limit callback = store.withCheckpoints limit callback := by
  unfold ShardStore.withCheckpoints MemoryStore.withCheckpoints
  rw [hrise.order_eq, limited_checkpoints, ← h.entries, List.map_take]

/-- **One operation** answers as the maps do, and leaves the tables of what it leaves of them. -/
theorem Refines.perform (h : Refines codec tables store) (op : Op H Flags height)
    (hmeets : Meets codec order tables op) :
    (perform codec tablePrefix order tables op).1 = (store.perform op).1 ∧
      Refines codec (perform codec tablePrefix order tables op).2 (store.perform op).2 := by
  cases op with
  | getShard index => exact ⟨congrArg Answer.shard (h.getShard index), h⟩
  | lastShard => exact ⟨congrArg Answer.shard h.lastShard, h⟩
  | putShard index shard =>
    obtain ⟨houtcome, hafter⟩ := h.putShard tablePrefix hmeets.1 hmeets.2
    exact ⟨congrArg Answer.done houtcome, hafter⟩
  | getShardRoots => exact ⟨congrArg Answer.roots h.getShardRoots, h⟩
  | truncateShards index => exact ⟨rfl, h.truncateShards hmeets⟩
  | getCap => exact ⟨congrArg Answer.cap h.cap, h⟩
  | putCap cap => exact ⟨rfl, h.putCap cap⟩
  | minCheckpointId => exact ⟨congrArg Answer.checkpointId h.minCheckpointId, h⟩
  | maxCheckpointId => exact ⟨congrArg Answer.checkpointId h.maxCheckpointId, h⟩
  | addCheckpoint id checkpoint =>
    obtain ⟨houtcome, hafter⟩ := h.addCheckpoint tablePrefix id checkpoint
    exact ⟨congrArg Answer.done houtcome, hafter⟩
  | checkpointCount => exact ⟨congrArg Answer.count h.checkpointCount, h⟩
  | getCheckpointAtDepth depth =>
    exact ⟨congrArg Answer.checkpointAt (h.checkpointAtDepth hmeets), h⟩
  | getCheckpoint id => exact ⟨congrArg Answer.checkpoint (h.getCheckpoint id), h⟩
  | withCheckpoints limit callback =>
    refine ⟨?_, h⟩
    have hvisit := h.withCheckpoints hmeets limit callback
    exact congrArg (fun visit => Answer.visited visit.1 visit.2) hvisit
  | updateCheckpointWith id update =>
    obtain ⟨houtcome, hafter⟩ := h.updateCheckpointWith tablePrefix id update
    exact ⟨congrArg Answer.updated houtcome, hafter⟩
  | removeCheckpoint id => exact ⟨rfl, h.removeCheckpoint id⟩
  | truncateCheckpointsRetaining id => exact ⟨rfl, h.truncateCheckpointsRetaining id⟩

/-- A failing operation leaves the tables as they were. -/
theorem Refines.perform_error (h : Refines codec tables store) (op : Op H Flags height)
    (herror : (ShardStore.perform codec tablePrefix order tables op).1.IsError) :
    (ShardStore.perform codec tablePrefix order tables op).2 = tables := by
  cases op with
  | putShard index shard =>
    obtain ⟨e, herror⟩ : ∃ e, (ShardStore.putShard codec tablePrefix tables index shard).1 =
      .error e := herror
    show (ShardStore.putShard codec tablePrefix tables index shard).2 = tables
    unfold ShardStore.putShard at herror ⊢
    dsimp only at herror ⊢
    cases hcheck : ShardStore.checkShardDiscontinuity tables (index, index + 1) with
    | error e => rfl
    | ok checked =>
      rw [hcheck] at herror
      dsimp only at herror ⊢
      by_cases htaken : HashTaken tables (asI64 index.val) (shardRow codec shard)
      · rw [if_pos htaken]
      · rw [if_neg htaken] at herror
        cases herror
  | addCheckpoint id checkpoint =>
    obtain ⟨e, herror⟩ : ∃ e, (ShardStore.addCheckpoint tablePrefix tables id checkpoint).1 =
      .error e := herror
    show (ShardStore.addCheckpoint tablePrefix tables id checkpoint).2 = tables
    unfold ShardStore.addCheckpoint at herror ⊢
    rw [h.column] at herror ⊢
    cases hstored : store.checkpoints[id]? with
    | none =>
      obtain ⟨tables', hinserted, -⟩ := h.insertCheckpoint tablePrefix checkpoint hstored
      rw [hstored] at herror
      dsimp only [Option.map_none] at herror
      rw [hinserted] at herror
      cases herror
    | some stored =>
      dsimp only [Option.map_some]
      split
      · rfl
      · split <;> rfl
  | updateCheckpointWith id update =>
    obtain ⟨e, herror⟩ : ∃ e, (ShardStore.updateCheckpointWith tablePrefix tables id update).1 =
      .error e := herror
    show (ShardStore.updateCheckpointWith tablePrefix tables id update).2 = tables
    rw [(h.updateCheckpointWith tablePrefix id update).1] at herror
    unfold MemoryStore.updateCheckpointWith at herror
    unfold ShardStore.updateCheckpointWith
    rw [h.getCheckpoint]
    cases hstored : store.checkpoints[id]? with
    | none => rfl
    | some checkpoint =>
      rw [hstored] at herror
      dsimp only at herror ⊢
      cases hupdate : update checkpoint with
      | error e => rfl
      | ok checkpoint =>
        rw [hupdate] at herror
        cases herror
  | truncateShards index =>
    obtain ⟨e, ⟨⟩⟩ := herror
  | putCap cap =>
    obtain ⟨e, ⟨⟩⟩ := herror
  | removeCheckpoint id =>
    obtain ⟨e, ⟨⟩⟩ := herror
  | truncateCheckpointsRetaining id =>
    obtain ⟨e, ⟨⟩⟩ := herror
  | _ => rfl

end Refinement

/-! ## Visits -/

/-- A callback sees the entries one after the other, up to where it fails. -/
theorem visit_seen (callback : Visitor) (seen rest : List (BlockHeight × Checkpoint)) :
    ∃ shown, shown <+: rest ∧ (visit callback seen rest).1 = seen ++ shown := by
  induction rest generalizing seen with
  | nil => exact ⟨[], List.prefix_rfl, (List.append_nil seen).symm⟩
  | cons entry rest ih =>
    unfold visit
    cases callback seen entry with
    | error e => exact ⟨[entry], List.prefix_append [entry] rest, rfl⟩
    | ok done =>
      obtain ⟨shown, hshown, hseen⟩ := ih (seen ++ [entry])
      refine ⟨entry :: shown, List.cons_prefix_cons.mpr ⟨rfl, hshown⟩, ?_⟩
      rw [List.append_assoc] at hseen
      exact hseen

theorem MemoryStore.visits_in_order {H Flags : Type} {height : Nat}
    (store : MemoryStore H Flags height) (limit : U64) (callback : Visitor) :
    ((store.withCheckpoints limit callback).1.map Prod.fst).Pairwise (· < ·) := by
  obtain ⟨shown, hshown, hseen⟩ :=
    visit_seen callback [] (store.checkpoints.toList.take limit.val)
  unfold withCheckpoints
  rw [hseen, List.nil_append, List.pairwise_map]
  have hordered := store.checkpoints.ordered_keys_toList.sublist
    (hshown.sublist.trans (List.take_sublist _ _))
  exact hordered.imp compare_lt_iff_lt.mp

/-- In a run on the maps every visit is in the order of the ids. -/
theorem MemoryStore.answers_in_order {H Flags : Type} {height : Nat}
    {store : MemoryStore H Flags height} {ops : List (Op H Flags height)}
    {seen : List (BlockHeight × Checkpoint)} {outcome : Except Error Unit}
    (h : .visited seen outcome ∈ answers MemoryStore.perform store ops) :
    (seen.map Prod.fst).Pairwise (· < ·) := by
  induction ops generalizing store with
  | nil => cases h
  | cons op ops ih =>
    rcases List.mem_cons.mp h with hnow | hlater
    · cases op <;> cases hnow
      exact store.visits_in_order _ _
    · exact ih hlater

/-! ## Whole runs -/

section Runs

variable {H Flags : Type} {height : Nat} (codec : LeafCodec H Flags) (tablePrefix : String)
  (order : PositionOrder)

/-- **The store answers as the maps.** Where every operation meets the condition: the answers are
those of the maps; every visit is in the order of the ids; in every state of the run no row of
removed marks is without its checkpoint, and what fails changes nothing. -/
theorem answers_as_memory (ops : List (Op H Flags height))
    (hmeets : EachStep (next (perform codec tablePrefix order)) (Meets codec order) {} ops) :
    answers (perform codec tablePrefix order) {} ops = answers MemoryStore.perform {} ops ∧
      (∀ seen outcome, .visited seen outcome ∈ answers (perform codec tablePrefix order) {} ops →
        (seen.map Prod.fst).Pairwise (· < ·)) ∧
      Throughout (next (perform codec tablePrefix order)) (fun tables =>
        (∀ row ∈ tables.marksRemoved, row.1 ∈ tables.checkpoints) ∧
        ∀ op : Op H Flags height, (perform codec tablePrefix order tables op).1.IsError →
          (perform codec tablePrefix order tables op).2 = tables) {} ops := by
  have hanswers := (answers_eq_of_simulation (fun _ _ op h => h.perform op)
    (refines_empty : Refines codec {} ({} : MemoryStore H Flags height)) hmeets).1
  refine ⟨hanswers, ?_, ?_⟩
  · intro seen outcome hvisited
    rw [hanswers] at hvisited
    exact MemoryStore.answers_in_order hvisited
  · have hrefines : Throughout (next (perform codec tablePrefix order))
        (fun tables => ∃ store : MemoryStore H Flags height, Refines codec tables store) {} ops := by
      refine run_invariant ?_ ⟨{}, refines_empty⟩ hmeets
      rintro tables op ⟨store, h⟩ hop
      exact ⟨_, (h.perform op hop).2⟩
    intro done hdone
    obtain ⟨store, h⟩ := hrefines done hdone
    exact ⟨h.covered, h.perform_error⟩

end Runs

/-! ## One run -/

instance (row next : BlockHeight × Option Int) : Decidable (NotAfter row next) :=
  inferInstanceAs (Decidable (∀ position ∈ row.2, ∃ following ∈ next.2, position ≤ following))

instance (row next : BlockHeight × Option Int) : Decidable (Before row next) :=
  inferInstanceAs (Decidable (∃ following ∈ next.2, ∀ position ∈ row.2, position < following))

instance : IsTrans (BlockHeight × Option Int) NotAfter := by
  refine ⟨fun first second third h h' position hposition => ?_⟩
  obtain ⟨middle, hmiddle, hle⟩ := h position hposition
  obtain ⟨last, hlast, hle'⟩ := h' middle hmiddle
  exact ⟨last, hlast, hle.trans hle'⟩

instance : Std.Total (NotAfter : BlockHeight × Option Int → BlockHeight × Option Int → Prop) := by
  refine ⟨fun first second => ?_⟩
  obtain ⟨id, position⟩ := first
  obtain ⟨id', position'⟩ := second
  cases position with
  | none => exact Or.inl fun position hposition => absurd hposition (Option.not_mem_none _)
  | some position =>
    cases position' with
    | none => exact Or.inr fun position hposition => absurd hposition (Option.not_mem_none _)
    | some position' =>
      rcases le_total position position' with hle | hle
      · refine Or.inl fun _ heq => ⟨position', rfl, ?_⟩
        rwa [← Option.some.inj heq]
      · refine Or.inr fun _ heq => ⟨position, rfl, ?_⟩
        rwa [← Option.some.inj heq]

/-- Rows of one position in the order in which they are scanned. -/
def scanOrder : PositionOrder where
  order := List.insertionSort NotAfter
  perm := List.perm_insertionSort NotAfter
  sorted := List.pairwise_insertionSort NotAfter

/-- A hash of 32 bytes, and what follows it. -/
def readNode (data : Bytes) : Except String ({ bytes : Bytes // bytes.length = 32 } × Bytes) :=
  if h : 32 ≤ data.length then
    .ok (⟨data.take 32, List.length_take_of_le h⟩, data.drop 32)
  else .error "failed to fill whole buffer"

theorem readNode_append (hash : { bytes : Bytes // bytes.length = 32 }) (rest : Bytes) :
    readNode (hash.val ++ rest) = .ok (hash, rest) := by
  obtain ⟨bytes, hlength⟩ := hash
  have hlong : 32 ≤ (bytes ++ rest).length := by
    rw [List.length_append]
    omega
  unfold readNode
  rw [dif_pos hlong]
  simp only [← hlength, List.take_left, List.drop_left]

/-- Hashes of 32 bytes, a byte before an optional one, and the eight sets of flags. -/
def nodeCodec : LeafCodec { bytes : Bytes // bytes.length = 32 } (Fin 8) where
  writeHash hash := hash.val
  readHash := readNode
  readHash_write := readNode_append
  writeOptional ann := ann.elim [0] fun hash => 1 :: hash.val
  readOptional
    | [] => .error "failed to fill whole buffer"
    | 0 :: data => .ok (none, data)
    | 1 :: data => do
      let (hash, data) ← readNode data
      return (some hash, data)
    | _ :: _ => .error "non-canonical Option<T>"
  readOptional_write
    | none, _ => rfl
    | some hash, rest => congrArg (· >>= _) (readNode_append hash rest)
  bits flags := UInt8.ofNat flags.val
  fromBits byte := if h : byte.toNat < 8 then some ⟨byte.toNat, h⟩ else none
  fromBits_bits := by decide

/-- Operations on hashes of 32 bytes below shard roots of level 16. -/
abbrev NodeOp : Type := Op { bytes : Bytes // bytes.length = 32 } (Fin 8) 16

/-- Two checkpoints at rising positions, a shard and a visit. -/
def risingOps : List NodeOp :=
  [.putShard 0 ⟨.nil, Nat.zero_le 16⟩, .addCheckpoint 5 ⟨.atPosition 10, {3}⟩,
    .addCheckpoint 6 ⟨.atPosition 11, ∅⟩, .withCheckpoints 2 fun _ _ => .ok ()]

theorem answers_as_memory_rising :
    answers (perform nodeCodec "sapling" scanOrder) {} risingOps =
        answers MemoryStore.perform {} risingOps ∧
      (∀ seen outcome, .visited seen outcome ∈
          answers (perform nodeCodec "sapling" scanOrder) {} risingOps →
        (seen.map Prod.fst).Pairwise (· < ·)) ∧
      Throughout (next (perform nodeCodec "sapling" scanOrder)) (fun tables =>
        (∀ row ∈ tables.marksRemoved, row.1 ∈ tables.checkpoints) ∧
        ∀ op : NodeOp, (perform nodeCodec "sapling" scanOrder tables op).1.IsError →
          (perform nodeCodec "sapling" scanOrder tables op).2 = tables) {} risingOps :=
  answers_as_memory nodeCodec "sapling" scanOrder risingOps
    (eachStep_cons.mpr ⟨⟨by decide, fun _ => by decide +kernel⟩,
      eachStep_cons.mpr ⟨trivial, eachStep_cons.mpr ⟨trivial,
        eachStep_cons.mpr ⟨Or.inl (by decide +kernel), eachStep_nil⟩⟩⟩⟩)

/-- The checkpoint of an empty tree is added after that of a tree with leaves. -/
def emptiedOps : List NodeOp :=
  [.addCheckpoint 5 ⟨.atPosition 10, ∅⟩, .addCheckpoint 6 ⟨.empty, ∅⟩,
    .withCheckpoints 2 fun _ _ => .ok ()]

/-- The visit goes by position: checkpoint 6 comes before checkpoint 5. -/
theorem visit_by_position :
    ¬ ∀ ops : List NodeOp,
      answers (perform nodeCodec "sapling" scanOrder) {} ops =
          answers MemoryStore.perform {} ops ∧
        ∀ seen outcome, .visited seen outcome ∈
            answers (perform nodeCodec "sapling" scanOrder) {} ops →
          (seen.map Prod.fst).Pairwise (· < ·) := by
  intro h
  have hordered := (h emptiedOps).2 _ _
    (List.mem_cons_of_mem _ (List.mem_cons_of_mem _ List.mem_cons_self))
  exact absurd hordered (by decide +kernel)

end ShardStore
end StashiWallet
