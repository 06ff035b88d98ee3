import StashiWallet.CommitmentPositions

/-!
# Counters and leaves

The position counter of a pool advances with every output that has a commitment of 32 bytes, but a
leaf is appended only when these bytes encode a tree node. As long as all of them do, the counter
is the number of leaves, and an owned output is given the index of its own leaf. One commitment
that does not encode a node puts the counter ahead of the tree.
-/

namespace StashiWallet

/-! ## The leaves a batch appends -/

/-- The nodes of the Sapling leaves of a tree batch. -/
def ShardtreeBatch.saplingNodes (batch : ShardtreeBatch) : List Bytes := batch.sapling.map Prod.fst

/-- The nodes of the Ironwood leaves of a tree batch. -/
def ShardtreeBatch.orchardNodes (batch : ShardtreeBatch) : List Bytes := batch.orchard.map Prod.fst

/-- The nodes of the prepared outputs that encode one. -/
def saplingNodesOf (outputs : List PreparedSaplingCommitment) : List Bytes :=
  (outputs.filter (·.canonical)).map PreparedSaplingCommitment.commitment

/-- The nodes of the prepared actions that encode one. -/
def ironwoodNodesOf (actions : List PreparedIronwoodCommitment) : List Bytes :=
  (actions.filter (·.canonical)).map PreparedIronwoodCommitment.commitment

/-- A checkpoint changes the retention of a leaf, not its node. -/
theorem checkpointLast_nodes (checkpointId : Nat) (leaves : List (Bytes × Retention)) :
    (checkpointLast checkpointId leaves).map Prod.fst = leaves.map Prod.fst := by
  unfold checkpointLast
  cases hlast : leaves.getLast? with
  | none => rfl
  | some last =>
    obtain ⟨front, rfl⟩ := List.getLast?_eq_some_iff.mp hlast
    rw [List.dropLast_concat, List.map_append, List.map_append]
    rfl

theorem seal_nodes (mode : FrontierCheckpointMode) (batch : ShardtreeBatch) :
    (batch.seal mode).saplingNodes = batch.saplingNodes ∧
      (batch.seal mode).orchardNodes = batch.orchardNodes := by
  unfold ShardtreeBatch.seal ShardtreeBatch.saplingNodes ShardtreeBatch.orchardNodes
  dsimp only
  constructor
  · split_ifs
    · exact checkpointLast_nodes _ _
    · rfl
  · split_ifs
    · exact checkpointLast_nodes _ _
    · rfl

section Loops

variable (saplingOwned orchardOwned : Finset Bytes)

/-- What a part of the walk through a block appends: some nodes to the tree batch of the block,
and nothing to the batches before it. -/
structure Appends (before after : TreeUpdate) (sapling ironwood : List Bytes) : Prop where
  sapling : after.current.saplingNodes = before.current.saplingNodes ++ sapling
  ironwood : after.current.orchardNodes = before.current.orchardNodes ++ ironwood
  batches : after.batches = before.batches

theorem Appends.refl (update : TreeUpdate) : Appends update update [] [] :=
  ⟨(List.append_nil _).symm, (List.append_nil _).symm, rfl⟩

theorem Appends.trans {first second third : TreeUpdate} {s s' i i' : List Bytes}
    (h : Appends first second s i) (h' : Appends second third s' i') :
    Appends first third (s ++ s') (i ++ i') := by
  refine ⟨?_, ?_, h'.batches.trans h.batches⟩
  · rw [h'.sapling, h.sapling, List.append_assoc]
  · rw [h'.ironwood, h.ironwood, List.append_assoc]

/-- A walk appends what its steps append. -/
theorem appends_foldl {ι : Type} {step : TreeUpdate → ι → TreeUpdate} {s i : ι → List Bytes}
    (hstep : ∀ update x, Appends update (step update x) (s x) (i x)) (xs : List ι)
    (update : TreeUpdate) :
    Appends update (xs.foldl step update) (xs.flatMap s) (xs.flatMap i) := by
  induction xs generalizing update with
  | nil => exact Appends.refl update
  | cons x xs ih =>
    rw [List.foldl_cons, List.flatMap_cons, List.flatMap_cons]
    exact (hstep update x).trans (ih (step update x))

theorem visitSapling_appends (txHash : Bytes) (update : TreeUpdate)
    (output : PreparedSaplingCommitment) :
    Appends update (visitSapling saplingOwned txHash update output) (saplingNodesOf [output]) [] := by
  unfold visitSapling saplingNodesOf
  cases hcanonical : output.canonical with
  | true =>
    refine ⟨?_, (List.append_nil _).symm, rfl⟩
    simp [hcanonical, ShardtreeBatch.saplingNodes, ShardtreeBatch.appendSaplingLeaf]
  | false =>
    refine ⟨?_, ?_, rfl⟩
    · simp [hcanonical, ShardtreeBatch.saplingNodes]
    · simp

theorem visitIronwood_appends (update : TreeUpdate) (action : PreparedIronwoodCommitment) :
    Appends update (visitIronwood orchardOwned update action) [] (ironwoodNodesOf [action]) := by
  unfold visitIronwood ironwoodNodesOf
  cases hcanonical : action.canonical with
  | true =>
    refine ⟨(List.append_nil _).symm, ?_, rfl⟩
    simp [hcanonical, ShardtreeBatch.orchardNodes, ShardtreeBatch.appendOrchardLeaf]
  | false =>
    refine ⟨?_, ?_, rfl⟩
    · simp
    · simp [hcanonical, ShardtreeBatch.orchardNodes]

theorem saplingNodesOf_eq_flatMap (outputs : List PreparedSaplingCommitment) :
    saplingNodesOf outputs = outputs.flatMap fun output => saplingNodesOf [output] := by
  induction outputs with
  | nil => rfl
  | cons output outputs ih =>
    rw [List.flatMap_cons, ← ih]
    unfold saplingNodesOf
    by_cases hcanonical : output.canonical = true <;> simp [hcanonical]

theorem ironwoodNodesOf_eq_flatMap (actions : List PreparedIronwoodCommitment) :
    ironwoodNodesOf actions = actions.flatMap fun action => ironwoodNodesOf [action] := by
  induction actions with
  | nil => rfl
  | cons action actions ih =>
    rw [List.flatMap_cons, ← ih]
    unfold ironwoodNodesOf
    by_cases hcanonical : action.canonical = true <;> simp [hcanonical]

theorem visitTransaction_appends (update : TreeUpdate) (tx : PreparedCommitmentTransaction) :
    Appends update (visitTransaction saplingOwned orchardOwned update tx)
      (saplingNodesOf tx.sapling) (ironwoodNodesOf tx.ironwood) := by
  have hsapling := appends_foldl (visitSapling_appends saplingOwned tx.hash) tx.sapling update
  have hironwood := appends_foldl (visitIronwood_appends orchardOwned) tx.ironwood
    (tx.sapling.foldl (visitSapling saplingOwned tx.hash) update)
  have hboth := hsapling.trans hironwood
  rw [← saplingNodesOf_eq_flatMap, ← ironwoodNodesOf_eq_flatMap,
    List.flatMap_eq_nil_iff.mpr (fun _ _ => rfl), List.flatMap_eq_nil_iff.mpr (fun _ _ => rfl),
    List.append_nil, List.nil_append] at hboth
  exact hboth

theorem saplingNodesOf_append (first second : List PreparedSaplingCommitment) :
    saplingNodesOf (first ++ second) = saplingNodesOf first ++ saplingNodesOf second := by
  rw [saplingNodesOf, List.filter_append, List.map_append]
  rfl

theorem ironwoodNodesOf_append (first second : List PreparedIronwoodCommitment) :
    ironwoodNodesOf (first ++ second) = ironwoodNodesOf first ++ ironwoodNodesOf second := by
  rw [ironwoodNodesOf, List.filter_append, List.map_append]
  rfl

/-- The nodes of the outputs of a block, transaction by transaction. -/
theorem saplingNodesOf_block (block : PreparedBlockCommitments) :
    saplingNodesOf ((saplingOutputs [block]).map Prod.snd) =
      block.transactions.flatMap fun tx => saplingNodesOf tx.sapling := by
  unfold saplingOutputs
  rw [List.flatMap_singleton]
  induction block.transactions with
  | nil => rfl
  | cons tx txs ih =>
    rw [List.flatMap_cons, List.flatMap_cons, List.map_append, saplingNodesOf_append, ih,
      List.map_map]
    exact congrArg (fun outputs => saplingNodesOf outputs ++ _) (List.map_id _)

theorem ironwoodNodesOf_block (block : PreparedBlockCommitments) :
    ironwoodNodesOf (ironwoodActions [block]) =
      block.transactions.flatMap fun tx => ironwoodNodesOf tx.ironwood := by
  unfold ironwoodActions
  rw [List.flatMap_singleton]
  induction block.transactions with
  | nil => rfl
  | cons tx txs ih => rw [List.flatMap_cons, List.flatMap_cons, ironwoodNodesOf_append, ih]

/-- What a block appends is a tree batch with the nodes of its outputs. -/
theorem visitBlock_nodes (mode : FrontierCheckpointMode) (update : TreeUpdate)
    (block : PreparedBlockCommitments) :
    (visitBlock saplingOwned orchardOwned mode update block).batches.flatMap
        ShardtreeBatch.saplingNodes =
      update.batches.flatMap ShardtreeBatch.saplingNodes ++
        saplingNodesOf ((saplingOutputs [block]).map Prod.snd) ∧
    (visitBlock saplingOwned orchardOwned mode update block).batches.flatMap
        ShardtreeBatch.orchardNodes =
      update.batches.flatMap ShardtreeBatch.orchardNodes ++
        ironwoodNodesOf (ironwoodActions [block]) := by
  obtain ⟨hsapling, hironwood, hbatches⟩ :=
    appends_foldl (visitTransaction_appends saplingOwned orchardOwned) block.transactions
      { update with current := ShardtreeBatch.new block.height }
  unfold visitBlock
  dsimp only
  rw [hbatches, List.flatMap_append, List.flatMap_append, List.flatMap_singleton,
    List.flatMap_singleton, (seal_nodes mode _).1, (seal_nodes mode _).2, hsapling, hironwood,
    saplingNodesOf_block, ironwoodNodesOf_block]
  exact ⟨rfl, rfl⟩

/-- The nodes of the leaves appended by the batches of a walk. -/
theorem visitBlocks_nodes (mode : FrontierCheckpointMode) (blocks : List PreparedBlockCommitments)
    (update : TreeUpdate) :
    (blocks.foldl (visitBlock saplingOwned orchardOwned mode) update).batches.flatMap
        ShardtreeBatch.saplingNodes =
      update.batches.flatMap ShardtreeBatch.saplingNodes ++
        saplingNodesOf ((saplingOutputs blocks).map Prod.snd) ∧
    (blocks.foldl (visitBlock saplingOwned orchardOwned mode) update).batches.flatMap
        ShardtreeBatch.orchardNodes =
      update.batches.flatMap ShardtreeBatch.orchardNodes ++
        ironwoodNodesOf (ironwoodActions blocks) := by
  induction blocks generalizing update with
  | nil => exact ⟨(List.append_nil _).symm, (List.append_nil _).symm⟩
  | cons block blocks ih =>
    obtain ⟨hsapling, hironwood⟩ := visitBlock_nodes saplingOwned orchardOwned mode update block
    obtain ⟨hsaplingRest, hironwoodRest⟩ :=
      ih (visitBlock saplingOwned orchardOwned mode update block)
    have hsaplingSplit : saplingOutputs (block :: blocks) =
        saplingOutputs [block] ++ saplingOutputs blocks := by
      unfold saplingOutputs
      rw [List.flatMap_cons, List.flatMap_singleton]
    have hironwoodSplit : ironwoodActions (block :: blocks) =
        ironwoodActions [block] ++ ironwoodActions blocks := by
      unfold ironwoodActions
      rw [List.flatMap_cons, List.flatMap_singleton]
    rw [List.foldl_cons, hsaplingRest, hironwoodRest, hsapling, hironwood, hsaplingSplit,
      hironwoodSplit, List.map_append, saplingNodesOf_append, ironwoodNodesOf_append,
      List.append_assoc, List.append_assoc]
    exact ⟨rfl, rfl⟩

end Loops

/-! ## When the counters count the leaves -/

/-- The counters and the recorded positions after a batch are those of the tree: the counter of a
pool has advanced by the leaves appended to the tree, and the position recorded for an owned output
is the index of its leaf, the leaves being counted on from the counter before the batch. Where a
tree batch says that it starts does not enter. -/
structure CountsLeaves (batch : CommitmentBatch) (outputs : List PreparedBlockCommitments)
    (engine after : SyncEngine) (update : TreeUpdate) : Prop where
  saplingCounter : after.saplingTreePosition = engine.saplingTreePosition +
    (update.batches.flatMap ShardtreeBatch.saplingNodes).length
  orchardCounter : after.orchardTreePosition = engine.orchardTreePosition +
    (update.batches.flatMap ShardtreeBatch.orchardNodes).length
  saplingPositions : ∀ key position, update.maps.saplingByTx.lookup key = some position →
    ∃ output ∈ saplingOutputs outputs, saplingKey (batch.owned .sapling) output = some key ∧
      engine.saplingTreePosition ≤ position ∧
      (update.batches.flatMap ShardtreeBatch.saplingNodes)[position - engine.saplingTreePosition]? =
        some output.2.commitment
  orchardPositions : ∀ key position, update.maps.orchardByCommitment.lookup key = some position →
    engine.orchardTreePosition ≤ position ∧
      (update.batches.flatMap ShardtreeBatch.orchardNodes)[position - engine.orchardTreePosition]? =
        some key

/-- A recorded position is the index of an element with the key. -/
theorem assign_index {ι κ : Type} [DecidableEq κ] {key : ι → Option κ} {xs : List ι} {n : Nat}
    (hfits : n + xs.length ≤ u64Max) {k : κ} {position : Nat}
    (h : (xs.foldl (assign key) (n, ∅)).2.lookup k = some position) :
    ∃ j x, xs[j]? = some x ∧ key x = some k ∧ position = n + j := by
  by_cases hkey : ∃ x ∈ xs, key x = some k
  · obtain ⟨j, x, hx, hk, hlookup⟩ := assign_lookup ∅ hfits hkey
    exact ⟨j, x, hx, hk, Option.some.inj (h.symm.trans hlookup)⟩
  · rw [assign_lookup_of_not_key (fun x hx hk => hkey ⟨x, hx, hk⟩)] at h
    cases h

section Pool

variable {ι κ : Type} [DecidableEq κ] {key : ι → Option κ} {canonical : ι → Bool}
  {node : ι → Bytes} {xs : List ι} {n : Nat} {nodes : List Bytes}

/-- The counter is the number of leaves exactly when every output has one. -/
theorem counter_eq_iff (hnodes : nodes = (xs.filter canonical).map node) :
    n + xs.length = n + nodes.length ↔ ∀ x ∈ xs, canonical x = true := by
  rw [hnodes, List.length_map, Nat.add_left_cancel_iff, eq_comm,
    List.length_filter_eq_length_iff]

/-- When every output has a leaf, a recorded position is the index of the leaf. -/
theorem position_of_canonical (hfits : n + xs.length ≤ u64Max)
    (hnodes : nodes = (xs.filter canonical).map node) (hall : ∀ x ∈ xs, canonical x = true)
    {k : κ} {position : Nat}
    (h : (xs.foldl (assign key) (n, ∅)).2.lookup k = some position) :
    ∃ x ∈ xs, key x = some k ∧ n ≤ position ∧ nodes[position - n]? = some (node x) := by
  obtain ⟨j, x, hx, hk, rfl⟩ := assign_index hfits h
  refine ⟨x, List.mem_of_getElem? hx, hk, Nat.le_add_right n j, ?_⟩
  rw [hnodes, List.filter_eq_self.mpr hall, Nat.add_sub_cancel_left, List.getElem?_map, hx]
  rfl

end Pool

section Batch

variable {saplingCanonical ironwoodCanonical : Bytes → Bool}

/-- A prepared output is marked as canonical when its commitment is. -/
theorem saplingOutputs_canonical {blocks : List CompactBlockData}
    {output : Bytes × PreparedSaplingCommitment}
    (h : output ∈ saplingOutputs (prepareCommitmentBatch saplingCanonical ironwoodCanonical
      blocks)) : output.2.canonical = saplingCanonical output.2.commitment := by
  obtain ⟨block, hblock, h⟩ := List.mem_flatMap.mp h
  obtain ⟨tx, htx, h⟩ := List.mem_flatMap.mp h
  obtain ⟨prepared, hprepared, rfl⟩ := List.mem_map.mp h
  obtain ⟨source, -, rfl⟩ := List.mem_map.mp hblock
  obtain ⟨entry, -, rfl⟩ := List.mem_map.mp htx
  obtain ⟨indexed, -, hindexed⟩ := List.mem_filterMap.mp hprepared
  by_cases hlength : indexed.1.cmu.length = 32
  · rw [if_pos hlength] at hindexed
    rw [← Option.some.inj hindexed]
  · rw [if_neg hlength] at hindexed
    cases hindexed

theorem ironwoodActions_canonical {blocks : List CompactBlockData}
    {action : PreparedIronwoodCommitment}
    (h : action ∈ ironwoodActions (prepareCommitmentBatch saplingCanonical ironwoodCanonical
      blocks)) : action.canonical = ironwoodCanonical action.commitment := by
  obtain ⟨block, hblock, h⟩ := List.mem_flatMap.mp h
  obtain ⟨tx, htx, hprepared⟩ := List.mem_flatMap.mp h
  obtain ⟨source, -, rfl⟩ := List.mem_map.mp hblock
  obtain ⟨entry, -, rfl⟩ := List.mem_map.mp htx
  obtain ⟨indexed, -, hindexed⟩ := List.mem_filterMap.mp hprepared
  by_cases hlength : indexed.cmx.length = 32
  · rw [if_pos hlength] at hindexed
    rw [← Option.some.inj hindexed]
  · rw [if_neg hlength] at hindexed
    cases hindexed

theorem saplingOutputs_all_canonical {blocks : List CompactBlockData} :
    (∀ output ∈ saplingOutputs (prepareCommitmentBatch saplingCanonical ironwoodCanonical blocks),
        output.2.canonical = true) ↔
      ∀ leaf ∈ saplingLeaves blocks, saplingCanonical leaf = true := by
  rw [← saplingOutputs_commitments saplingCanonical ironwoodCanonical, List.forall_mem_map]
  refine forall₂_congr fun output houtput => ?_
  rw [saplingOutputs_canonical houtput]

theorem ironwoodActions_all_canonical {blocks : List CompactBlockData} :
    (∀ action ∈ ironwoodActions (prepareCommitmentBatch saplingCanonical ironwoodCanonical blocks),
        action.canonical = true) ↔
      ∀ leaf ∈ ironwoodLeaves blocks, ironwoodCanonical leaf = true := by
  rw [← ironwoodActions_commitments saplingCanonical ironwoodCanonical, List.forall_mem_map]
  refine forall₂_congr fun action haction => ?_
  rw [ironwoodActions_canonical haction]

/-- **When the counters count the leaves.** After a batch, the position counter of each pool is
the number of its leaves, and every recorded position the index of its own leaf, exactly when
every commitment of 32 bytes in the batch encodes a tree node. -/
theorem countsLeaves_iff {engine after : SyncEngine} {batch : CommitmentBatch}
    {update : TreeUpdate}
    (h : engine.updateCommitmentTrees saplingCanonical ironwoodCanonical batch =
      .ok (update, after))
    (hsapling : engine.saplingTreePosition + (saplingLeaves batch.blocks).length ≤ u64Max)
    (horchard : engine.orchardTreePosition + (ironwoodLeaves batch.blocks).length ≤ u64Max) :
    CountsLeaves batch (prepareCommitmentBatch saplingCanonical ironwoodCanonical batch.blocks)
        engine after update ↔
      (∀ leaf ∈ saplingLeaves batch.blocks, saplingCanonical leaf = true) ∧
        ∀ leaf ∈ ironwoodLeaves batch.blocks, ironwoodCanonical leaf = true := by
  obtain ⟨hsaplingNext, horchardNext⟩ := updateCommitmentTrees_counters h hsapling horchard
  obtain ⟨hupdate, -, -⟩ := updateCommitmentTrees_eq_ok h
  obtain ⟨houtputs, hactions⟩ := visitBlocks_nodes (batch.owned .sapling) (batch.owned .ironwood)
    batch.mode (prepareCommitmentBatch saplingCanonical ironwoodCanonical batch.blocks)
    ⟨engine.saplingTreePosition, engine.orchardTreePosition, 0, ⟨∅, ∅⟩, ShardtreeBatch.new 0, []⟩
  rw [List.flatMap_nil, List.nil_append] at houtputs hactions
  have hnodesSapling : update.batches.flatMap ShardtreeBatch.saplingNodes = _ :=
    (congrArg (fun update => update.batches.flatMap ShardtreeBatch.saplingNodes) hupdate).trans
      houtputs
  have hnodesOrchard : update.batches.flatMap ShardtreeBatch.orchardNodes = _ :=
    (congrArg (fun update => update.batches.flatMap ShardtreeBatch.orchardNodes) hupdate).trans
      hactions
  rw [← saplingOutputs_commitments saplingCanonical ironwoodCanonical, List.length_map]
    at hsapling hsaplingNext
  rw [← ironwoodActions_commitments saplingCanonical ironwoodCanonical, List.length_map]
    at horchard horchardNext
  have hpairs : ∀ outputs : List (Bytes × PreparedSaplingCommitment),
      saplingNodesOf (outputs.map Prod.snd) =
        (outputs.filter (·.2.canonical)).map (·.2.commitment) := by
    intro outputs
    rw [saplingNodesOf, List.filter_map, List.map_map]
    rfl
  rw [hpairs] at hnodesSapling
  have hviewSapling := congrArg Prod.snd (updateCommitmentTrees_sapling (batch.owned .sapling)
    (batch.owned .ironwood) batch.mode engine.saplingTreePosition engine.orchardTreePosition
    (prepareCommitmentBatch saplingCanonical ironwoodCanonical batch.blocks))
  have hviewOrchard := congrArg Prod.snd (updateCommitmentTrees_orchard (batch.owned .sapling)
    (batch.owned .ironwood) batch.mode engine.saplingTreePosition engine.orchardTreePosition
    (prepareCommitmentBatch saplingCanonical ironwoodCanonical batch.blocks))
  rw [← hupdate] at hviewSapling hviewOrchard
  rw [← @saplingOutputs_all_canonical saplingCanonical ironwoodCanonical,
    ← @ironwoodActions_all_canonical saplingCanonical ironwoodCanonical]
  constructor
  · intro hcounts
    exact ⟨(counter_eq_iff hnodesSapling).mp (hsaplingNext.symm.trans hcounts.saplingCounter),
      (counter_eq_iff hnodesOrchard).mp (horchardNext.symm.trans hcounts.orchardCounter)⟩
  · rintro ⟨hallSapling, hallOrchard⟩
    refine ⟨hsaplingNext.trans ((counter_eq_iff hnodesSapling).mpr hallSapling),
      horchardNext.trans ((counter_eq_iff hnodesOrchard).mpr hallOrchard), ?_, ?_⟩
    · intro key position hlookup
      rw [show update.maps.saplingByTx = _ from hviewSapling] at hlookup
      exact position_of_canonical hsapling hnodesSapling hallSapling hlookup
    · intro key position hlookup
      rw [show update.maps.orchardByCommitment = _ from hviewOrchard] at hlookup
      obtain ⟨action, -, hkey, hle, hnode⟩ :=
        position_of_canonical horchard hnodesOrchard hallOrchard hlookup
      refine ⟨hle, ?_⟩
      rw [hnode]
      unfold ironwoodKey at hkey
      split_ifs at hkey
      exact hkey

end Batch

/-- An engine with empty trees. -/
def countingEngine : SyncEngine where
  db := WalletDb.fresh "t"
  accountId := 1
  birthdayHeight := 1
  nullifierCache := ∅
  nullifierCacheLoaded := false
  trackedWalletTxids := ∅
  saplingTreePosition := 0
  orchardTreePosition := 0

/-- A batch of one transaction with three Sapling outputs, the last of which is owned. -/
def threeOutputBatch (second : UInt8) : CommitmentBatch where
  blocks := [⟨1, 10, [], [], 0, [], [⟨none, List.replicate 32 7, none, [],
    [⟨List.replicate 32 1, [], []⟩, ⟨List.replicate 32 second, [], []⟩,
      ⟨List.replicate 32 2, [], []⟩], []⟩]⟩]
  notes := [⟨.sapling, 10, [], [], 2, 5, List.replicate 32 2, [], none, none, [], [], none⟩]
  mode := .ownedOnly

/-- The bytes are not the largest number of 256 bits, which is above the order of the field. -/
def belowFieldOrder (bytes : Bytes) : Bool := decide (bytes ≠ List.replicate 32 255)

/-- Three outputs that encode nodes. -/
theorem countsLeaves_iff_encoded :
    ∃ update after, countingEngine.updateCommitmentTrees belowFieldOrder belowFieldOrder
        (threeOutputBatch 3) = .ok (update, after) ∧
      CountsLeaves (threeOutputBatch 3) (prepareCommitmentBatch belowFieldOrder belowFieldOrder
        (threeOutputBatch 3).blocks) countingEngine after update :=
  ⟨_, _, rfl, (countsLeaves_iff rfl (by decide) (by decide)).mpr ⟨by decide, by decide⟩⟩

/-- The second output does not encode a node: the third one is given position 2, and its leaf is
the second of a tree batch that starts at position 0. -/
theorem unencoded_commitment_shifts_position :
    ∃ update after, countingEngine.updateCommitmentTrees belowFieldOrder belowFieldOrder
        (threeOutputBatch 255) = .ok (update, after) ∧
      update.maps.saplingByTx.lookup ⟨List.replicate 32 7, 2⟩ = some 2 ∧
      update.batches.map (·.saplingStartPosition) = [some 0] ∧
      update.batches.flatMap ShardtreeBatch.saplingNodes =
        [List.replicate 32 1, List.replicate 32 2] ∧
      after.saplingTreePosition = 3 ∧
      ¬ CountsLeaves (threeOutputBatch 255) (prepareCommitmentBatch belowFieldOrder belowFieldOrder
        (threeOutputBatch 255).blocks) countingEngine after update := by
  refine ⟨_, _, rfl, by decide, by decide, by decide, by decide, ?_⟩
  intro hcounts
  have hcounter := hcounts.saplingCounter
  revert hcounter
  decide

end StashiWallet
