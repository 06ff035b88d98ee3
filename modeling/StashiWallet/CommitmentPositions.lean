import StashiWallet.CompactBlock
import StashiWallet.ReorgRollback

/-!
# Leaf positions

A note can be spent only with its position in the commitment tree, so the engine counts
leaves: each pool has a counter, recovered from the checkpoint table when a sync starts and
advanced by every output of every block, and an owned output is given the counter's value.

The first half of this module embeds the batch loop: ordering a block's transactions,
walking their outputs and building the tree batch. Counters and maps depend only on the
sequence of outputs, which `updateCommitmentTrees_sapling` and `updateCommitmentTrees_orchard`
make precise. The second half is about the recovered start value.
-/

namespace StashiWallet

/-! ## Preparing a batch -/

/-- `PreparedSaplingCommitment`; `canonical` says that the bytes encode a tree node. -/
structure PreparedSaplingCommitment where
  outputIndex : Nat
  commitment : Bytes
  canonical : Bool
deriving DecidableEq, Repr

structure PreparedIronwoodCommitment where
  commitment : Bytes
  canonical : Bool
deriving DecidableEq, Repr

structure PreparedCommitmentTransaction where
  hash : Bytes
  sapling : List PreparedSaplingCommitment
  ironwood : List PreparedIronwoodCommitment
deriving DecidableEq, Repr

structure PreparedBlockCommitments where
  height : Nat
  transactions : List PreparedCommitmentTransaction
deriving DecidableEq, Repr

/-- The order key of a transaction: its index in the block, else where it stands. -/
def orderIndex (entry : CompactTx × Nat) : Nat := entry.1.index.getD entry.2

/-- The scan for an index below its predecessor. -/
def indicesMonotonic : (lastIndex : Nat) → List (CompactTx × Nat) → Bool
  | _, [] => true
  | lastIndex, entry :: rest =>
    if entry.2 > 0 && orderIndex entry < lastIndex then false
    else indicesMonotonic (orderIndex entry) rest

/-- The transactions of a block in the order the commitment loop visits them. -/
def orderedTransactions (transactions : List CompactTx) : List (CompactTx × Nat) :=
  if indicesMonotonic 0 transactions.zipIdx then transactions.zipIdx
  else transactions.zipIdx.insertionSort (fun a b => orderIndex a ≤ orderIndex b)

/-- The transactions of a block in block order, equal indices in stream order. -/
def blockOrder (transactions : List CompactTx) : List (CompactTx × Nat) :=
  transactions.zipIdx.insertionSort (fun a b => orderIndex a ≤ orderIndex b)

/-- A list that passes the scan is sorted from its second entry on, and from its first when
nothing precedes it. -/
theorem indicesMonotonic_pairwise {lastIndex : Nat} {entries : List (CompactTx × Nat)}
    (h : indicesMonotonic lastIndex entries = true)
    (hpos : ∀ entry ∈ entries.tail, entry.2 > 0) :
    entries.IsChain (fun a b => orderIndex a ≤ orderIndex b) := by
  induction entries generalizing lastIndex with
  | nil => exact List.IsChain.nil
  | cons entry rest ih =>
    unfold indicesMonotonic at h
    split at h
    · cases h
    · cases rest with
      | nil => exact List.IsChain.singleton entry
      | cons next rest =>
        have hnext : next.2 > 0 := hpos next (by simp)
        have hle : orderIndex entry ≤ orderIndex next := by
          unfold indicesMonotonic at h
          by_contra hlt
          simp only [not_le] at hlt
          simp [hnext, hlt] at h
        exact List.IsChain.cons_cons hle
          (ih h (fun e he => hpos e (List.mem_of_mem_tail he)))

/-- The shortcut for monotonic indices does not change the order. -/
theorem orderedTransactions_eq (transactions : List CompactTx) :
    orderedTransactions transactions = blockOrder transactions := by
  unfold orderedTransactions blockOrder
  split
  · rename_i hmonotonic
    have hpos : ∀ entry ∈ transactions.zipIdx.tail, entry.2 > 0 := by
      cases transactions with
      | nil => simp
      | cons tx rest =>
        intro entry hentry
        rw [List.zipIdx_cons, List.tail_cons] at hentry
        have hle := List.le_snd_of_mem_zipIdx hentry
        omega
    have : Trans (fun a b : CompactTx × Nat => orderIndex a ≤ orderIndex b)
        (fun a b => orderIndex a ≤ orderIndex b) (fun a b => orderIndex a ≤ orderIndex b) :=
      ⟨Nat.le_trans⟩
    exact (List.Pairwise.insertionSort_eq
      (List.isChain_iff_pairwise.mp (indicesMonotonic_pairwise hmonotonic hpos))).symm
  · rfl

section Prepare

-- Whether 32 bytes are the canonical encoding of a Sapling or an Ironwood tree node.
variable (saplingCanonical ironwoodCanonical : Bytes → Bool)

/-- The prepared Sapling outputs of a transaction: those whose commitment has 32 bytes. -/
def prepareSapling (outputs : List CompactSaplingOutput) : List PreparedSaplingCommitment :=
  outputs.zipIdx.filterMap (fun entry =>
    if entry.1.cmu.length = 32 then
      some ⟨entry.2, entry.1.cmu, saplingCanonical entry.1.cmu⟩
    else none)

/-- The prepared Ironwood actions of a transaction. -/
def prepareIronwood (actions : List CompactIronwoodAction) : List PreparedIronwoodCommitment :=
  actions.filterMap (fun action =>
    if action.cmx.length = 32 then some ⟨action.cmx, ironwoodCanonical action.cmx⟩ else none)

/-- One block of `prepare_commitment_batch`. -/
def prepareBlock (block : CompactBlockData) : PreparedBlockCommitments where
  height := block.height
  transactions := (orderedTransactions block.transactions).map (fun entry =>
    { hash := entry.1.hash
      sapling := prepareSapling saplingCanonical entry.1.outputs
      ironwood := prepareIronwood ironwoodCanonical entry.1.actions })

def prepareCommitmentBatch (blocks : List CompactBlockData) : List PreparedBlockCommitments :=
  blocks.map (prepareBlock saplingCanonical ironwoodCanonical)

end Prepare

/-! ## The batch loop -/

inductive FrontierCheckpointMode where
  | perBlock
  | ownedOnly
deriving DecidableEq, Repr

/-- How long a leaf stays in the tree. -/
inductive Retention where
  | ephemeral
  | marked
  | checkpoint (id : Nat) (isMarked : Bool)
deriving DecidableEq, Repr

def Retention.isMarked : Retention → Bool
  | .ephemeral => false
  | .marked => true
  | .checkpoint _ isMarked => isMarked

/-- `ShardtreeBatch`, the leaves one block adds to the trees. -/
structure ShardtreeBatch where
  height : Nat
  checkpointId : Option Nat
  saplingEmptyCheckpoint : Bool
  orchardEmptyCheckpoint : Bool
  saplingStartPosition : Option Nat
  orchardStartPosition : Option Nat
  sapling : List (Bytes × Retention)
  orchard : List (Bytes × Retention)
deriving DecidableEq, Repr

def ShardtreeBatch.new (height : Nat) : ShardtreeBatch :=
  ⟨height, none, false, false, none, none, [], []⟩

def ShardtreeBatch.appendSaplingLeaf (batch : ShardtreeBatch) (position : Nat) (node : Bytes)
    (retention : Retention) : ShardtreeBatch :=
  { batch with
    saplingStartPosition :=
      if batch.sapling.isEmpty then some position else batch.saplingStartPosition
    sapling := batch.sapling ++ [(node, retention)] }

def ShardtreeBatch.appendOrchardLeaf (batch : ShardtreeBatch) (position : Nat) (node : Bytes)
    (retention : Retention) : ShardtreeBatch :=
  { batch with
    orchardStartPosition :=
      if batch.orchard.isEmpty then some position else batch.orchardStartPosition
    orchard := batch.orchard ++ [(node, retention)] }

structure TxOutputKey where
  txid : Bytes
  index : Nat
deriving DecidableEq, Repr

/-- `TxOutputKey::new`; the index is cast to `u32`. -/
def TxOutputKey.new (txid : Bytes) (index : Nat) : Option TxOutputKey :=
  if txid.length ≠ 32 then none else some ⟨txid, index % 4294967296⟩

structure PositionMaps where
  saplingByTx : AList (fun _ : TxOutputKey => Nat)
  orchardByCommitment : AList (fun _ : Bytes => Nat)

/-- What the loops of `update_commitment_trees` carry along. -/
structure TreeUpdate where
  saplingPos : Nat
  orchardPos : Nat
  count : Nat
  maps : PositionMaps
  current : ShardtreeBatch
  batches : List ShardtreeBatch

section Loop

-- The commitments of the notes found in the batch, per pool.
variable (saplingOwned orchardOwned : Finset Bytes)

/-- The retention of a leaf. -/
def retentionOf (isOwned : Bool) : Retention := if isOwned then .marked else .ephemeral

/-- The body of the Sapling output loop. -/
def visitSapling (txHash : Bytes) (update : TreeUpdate) (output : PreparedSaplingCommitment) :
    TreeUpdate :=
  let position := update.saplingPos
  let isOwned := decide (output.commitment ∈ saplingOwned)
  let saplingByTx :=
    match isOwned, TxOutputKey.new txHash output.outputIndex with
    | true, some key => update.maps.saplingByTx.insert key position
    | _, _ => update.maps.saplingByTx
  { update with
    saplingPos := saturatingAdd position 1
    maps := { update.maps with saplingByTx := saplingByTx }
    current :=
      if output.canonical then
        update.current.appendSaplingLeaf position output.commitment (retentionOf isOwned)
      else update.current
    count := if output.canonical then update.count + 1 else update.count }

/-- The body of the Ironwood action loop. -/
def visitIronwood (update : TreeUpdate) (action : PreparedIronwoodCommitment) : TreeUpdate :=
  let position := update.orchardPos
  let isOwned := decide (action.commitment ∈ orchardOwned)
  { update with
    orchardPos := saturatingAdd position 1
    maps := { update.maps with
      orchardByCommitment :=
        if isOwned then update.maps.orchardByCommitment.insert action.commitment position
        else update.maps.orchardByCommitment }
    current :=
      if action.canonical then
        update.current.appendOrchardLeaf position action.commitment (retentionOf isOwned)
      else update.current
    count := if action.canonical then update.count + 1 else update.count }

/-- The body of the transaction loop. -/
def visitTransaction (update : TreeUpdate) (tx : PreparedCommitmentTransaction) : TreeUpdate :=
  tx.ironwood.foldl (visitIronwood orchardOwned)
    (tx.sapling.foldl (visitSapling saplingOwned tx.hash) update)

/-- The last leaf of a pool made the block's checkpoint. -/
def checkpointLast (checkpointId : Nat) (leaves : List (Bytes × Retention)) :
    List (Bytes × Retention) :=
  match leaves.getLast? with
  | some (node, retention) =>
    leaves.dropLast ++ [(node, .checkpoint checkpointId retention.isMarked)]
  | none => leaves

/-- Whether a pool is checkpointed at the end of a block, without historical prefill
state. -/
def FrontierCheckpointMode.shouldCheckpoint (leaves : List (Bytes × Retention)) :
    FrontierCheckpointMode → Bool
  | .perBlock => true
  | .ownedOnly => leaves.any (fun leaf => leaf.2.isMarked)

/-- The checkpoint decisions at the end of a block. -/
def ShardtreeBatch.seal (mode : FrontierCheckpointMode) (batch : ShardtreeBatch) :
    ShardtreeBatch :=
  { batch with
    checkpointId :=
      if mode.shouldCheckpoint batch.sapling || mode.shouldCheckpoint batch.orchard then
        some batch.height
      else none
    sapling :=
      if mode.shouldCheckpoint batch.sapling then checkpointLast batch.height batch.sapling
      else batch.sapling
    saplingEmptyCheckpoint := mode.shouldCheckpoint batch.sapling && batch.sapling.isEmpty
    orchard :=
      if mode.shouldCheckpoint batch.orchard then checkpointLast batch.height batch.orchard
      else batch.orchard
    orchardEmptyCheckpoint := mode.shouldCheckpoint batch.orchard && batch.orchard.isEmpty }

/-- The body of the block loop. -/
def visitBlock (mode : FrontierCheckpointMode) (update : TreeUpdate)
    (block : PreparedBlockCommitments) : TreeUpdate :=
  let visited := block.transactions.foldl (visitTransaction saplingOwned orchardOwned)
    { update with current := ShardtreeBatch.new block.height }
  { visited with batches := visited.batches ++ [visited.current.seal mode] }

/-- The loops of `update_commitment_trees` from given counters. -/
def updateCommitmentTrees (mode : FrontierCheckpointMode) (saplingPos orchardPos : Nat)
    (blocks : List PreparedBlockCommitments) : TreeUpdate :=
  blocks.foldl (visitBlock saplingOwned orchardOwned mode)
    ⟨saplingPos, orchardPos, 0, ⟨∅, ∅⟩, ShardtreeBatch.new 0, []⟩

end Loop

/-! ## Counting along a sequence

Both pools do the same thing: walk a sequence with a counter and record the counter under
the key of each element that has one. -/

section Assign

variable {ι κ : Type} [DecidableEq κ] (key : ι → Option κ)

/-- One element: its key, if it has one, gets the counter; the counter advances. -/
def assign (state : Nat × AList (fun _ : κ => Nat)) (x : ι) : Nat × AList (fun _ : κ => Nat) :=
  (saturatingAdd state.1 1,
    match key x with
    | some k => state.2.insert k state.1
    | none => state.2)

variable {key}

theorem assign_counter {xs : List ι} {n : Nat} {recorded : AList (fun _ : κ => Nat)}
    (hfits : n + xs.length ≤ u64Max) :
    (xs.foldl (assign key) (n, recorded)).1 = n + xs.length := by
  induction xs generalizing n recorded with
  | nil => rfl
  | cons x xs ih =>
    rw [List.length_cons] at hfits
    have hnext : saturatingAdd n 1 = n + 1 := by
      rw [saturatingAdd]
      omega
    rw [List.foldl_cons, assign, hnext, ih (by omega), List.length_cons]
    omega

/-- A key that no element has keeps what was recorded for it. -/
theorem assign_lookup_of_not_key {xs : List ι} {n : Nat}
    {recorded : AList (fun _ : κ => Nat)} {k : κ} (hkey : ∀ x ∈ xs, key x ≠ some k) :
    (xs.foldl (assign key) (n, recorded)).2.lookup k = recorded.lookup k := by
  induction xs generalizing n recorded with
  | nil => rfl
  | cons x xs ih =>
    rw [List.foldl_cons, assign, ih (fun y hy => hkey y (List.mem_cons_of_mem x hy))]
    have hx := hkey x List.mem_cons_self
    cases hcase : key x with
    | none => rfl
    | some other =>
      refine AList.lookup_insert_ne ?_
      rintro rfl
      exact hx hcase

/-- **The recorded value is the index of an element with that key.** -/
theorem assign_lookup {xs : List ι} {n : Nat} (recorded : AList (fun _ : κ => Nat)) {k : κ}
    (hfits : n + xs.length ≤ u64Max) (hkey : ∃ x ∈ xs, key x = some k) :
    ∃ j x, xs[j]? = some x ∧ key x = some k ∧
      (xs.foldl (assign key) (n, recorded)).2.lookup k = some (n + j) := by
  induction xs generalizing n recorded with
  | nil => simp at hkey
  | cons head xs ih =>
    rw [List.length_cons] at hfits
    have hnext : saturatingAdd n 1 = n + 1 := by
      rw [saturatingAdd]
      omega
    rw [List.foldl_cons, assign, hnext]
    by_cases htail : ∃ x ∈ xs, key x = some k
    · -- a later element overwrites the entry
      obtain ⟨j, x, hx, hk, hlookup⟩ := ih (n := n + 1) _ (by omega) htail
      exact ⟨j + 1, x, hx, hk, by rw [hlookup, Nat.add_right_comm, Nat.add_assoc]⟩
    · obtain ⟨x, hx, hk⟩ := hkey
      rcases List.mem_cons.mp hx with rfl | hx
      · refine ⟨0, x, rfl, hk, ?_⟩
        rw [assign_lookup_of_not_key (fun y hy hy' => htail ⟨y, hy, hy'⟩), hk]
        exact AList.lookup_insert _
      · exact absurd ⟨x, hx, hk⟩ htail

end Assign

/-! ## The loops as sequences of outputs -/

/-- The Sapling outputs of a batch in tree order, each with its transaction's hash. -/
def saplingOutputs (blocks : List PreparedBlockCommitments) :
    List (Bytes × PreparedSaplingCommitment) :=
  blocks.flatMap (fun block => block.transactions.flatMap (fun tx =>
    tx.sapling.map (fun output => (tx.hash, output))))

/-- The Ironwood actions of a batch in tree order. -/
def ironwoodActions (blocks : List PreparedBlockCommitments) : List PreparedIronwoodCommitment :=
  blocks.flatMap (fun block => block.transactions.flatMap (fun tx => tx.ironwood))

section Views

variable (saplingOwned orchardOwned : Finset Bytes)

/-- The key under which an output's position is recorded: owned outputs only. -/
def saplingKey (output : Bytes × PreparedSaplingCommitment) : Option TxOutputKey :=
  if output.2.commitment ∈ saplingOwned then TxOutputKey.new output.1 output.2.outputIndex
  else none

/-- The key under which an action's position is recorded: owned actions only. -/
def ironwoodKey (action : PreparedIronwoodCommitment) : Option Bytes :=
  if action.commitment ∈ orchardOwned then some action.commitment else none

/-- The part of the loop state the Sapling outputs move. -/
def TreeUpdate.saplingView (update : TreeUpdate) : Nat × AList (fun _ : TxOutputKey => Nat) :=
  (update.saplingPos, update.maps.saplingByTx)

/-- The part of the loop state the Ironwood actions move. -/
def TreeUpdate.orchardView (update : TreeUpdate) : Nat × AList (fun _ : Bytes => Nat) :=
  (update.orchardPos, update.maps.orchardByCommitment)

theorem visitSapling_saplingView (txHash : Bytes) (update : TreeUpdate)
    (output : PreparedSaplingCommitment) :
    (visitSapling saplingOwned txHash update output).saplingView
      = assign (saplingKey saplingOwned) update.saplingView (txHash, output) := by
  unfold visitSapling TreeUpdate.saplingView assign saplingKey
  by_cases howned : output.commitment ∈ saplingOwned
  · simp only [howned, decide_true, if_true]
    cases TxOutputKey.new txHash output.outputIndex <;> rfl
  · simp only [howned, decide_false, if_false]

theorem visitIronwood_orchardView (update : TreeUpdate) (action : PreparedIronwoodCommitment) :
    (visitIronwood orchardOwned update action).orchardView
      = assign (ironwoodKey orchardOwned) update.orchardView action := by
  unfold visitIronwood TreeUpdate.orchardView assign ironwoodKey
  by_cases howned : action.commitment ∈ orchardOwned
  · simp only [howned, decide_true, if_true]
  · simp [howned]

theorem visitTransaction_saplingView (update : TreeUpdate) (tx : PreparedCommitmentTransaction) :
    (visitTransaction saplingOwned orchardOwned update tx).saplingView
      = (tx.sapling.map (fun output => (tx.hash, output))).foldl
          (assign (saplingKey saplingOwned)) update.saplingView := by
  have hactions : ∀ (actions : List PreparedIronwoodCommitment) (update : TreeUpdate),
      (actions.foldl (visitIronwood orchardOwned) update).saplingView = update.saplingView := by
    intro actions
    induction actions with
    | nil => exact fun _ => rfl
    | cons action actions ih => exact fun update => ih (visitIronwood orchardOwned update action)
  rw [visitTransaction, hactions, List.foldl_map]
  exact (List.foldl_hom TreeUpdate.saplingView
    (fun update output => (visitSapling_saplingView saplingOwned tx.hash update output).symm)).symm

theorem visitTransaction_orchardView (update : TreeUpdate) (tx : PreparedCommitmentTransaction) :
    (visitTransaction saplingOwned orchardOwned update tx).orchardView
      = tx.ironwood.foldl (assign (ironwoodKey orchardOwned)) update.orchardView := by
  have houtputs : ∀ (outputs : List PreparedSaplingCommitment) (update : TreeUpdate),
      (outputs.foldl (visitSapling saplingOwned tx.hash) update).orchardView
        = update.orchardView := by
    intro outputs
    induction outputs with
    | nil => exact fun _ => rfl
    | cons output outputs ih =>
      exact fun update => ih (visitSapling saplingOwned tx.hash update output)
  rw [visitTransaction, ← houtputs tx.sapling update]
  exact (List.foldl_hom TreeUpdate.orchardView
    (fun update action => (visitIronwood_orchardView orchardOwned update action).symm)).symm

/-- **The Sapling counter and map depend only on the sequence of outputs.** -/
theorem updateCommitmentTrees_sapling (mode : FrontierCheckpointMode)
    (saplingPos orchardPos : Nat) (blocks : List PreparedBlockCommitments) :
    (updateCommitmentTrees saplingOwned orchardOwned mode saplingPos orchardPos
        blocks).saplingView
      = (saplingOutputs blocks).foldl (assign (saplingKey saplingOwned)) (saplingPos, ∅) := by
  unfold updateCommitmentTrees saplingOutputs
  rw [List.foldl_flatMap]
  refine (List.foldl_hom TreeUpdate.saplingView ?_).symm
  intro update block
  rw [List.foldl_flatMap]
  -- a block starts a new tree batch, which the view does not see
  let started := { update with current := ShardtreeBatch.new block.height }
  change block.transactions.foldl _ started.saplingView
    = (block.transactions.foldl (visitTransaction saplingOwned orchardOwned) started).saplingView
  refine List.foldl_hom TreeUpdate.saplingView ?_
  intro update tx
  exact (visitTransaction_saplingView saplingOwned orchardOwned update tx).symm

/-- **The Ironwood counter and map depend only on the sequence of actions.** -/
theorem updateCommitmentTrees_orchard (mode : FrontierCheckpointMode)
    (saplingPos orchardPos : Nat) (blocks : List PreparedBlockCommitments) :
    (updateCommitmentTrees saplingOwned orchardOwned mode saplingPos orchardPos
        blocks).orchardView
      = (ironwoodActions blocks).foldl (assign (ironwoodKey orchardOwned)) (orchardPos, ∅) := by
  unfold updateCommitmentTrees ironwoodActions
  rw [List.foldl_flatMap]
  refine (List.foldl_hom TreeUpdate.orchardView ?_).symm
  intro update block
  rw [List.foldl_flatMap]
  -- a block starts a new tree batch, which the view does not see
  let started := { update with current := ShardtreeBatch.new block.height }
  change block.transactions.foldl _ started.orchardView
    = (block.transactions.foldl (visitTransaction saplingOwned orchardOwned) started).orchardView
  refine List.foldl_hom TreeUpdate.orchardView ?_
  intro update tx
  exact (visitTransaction_orchardView saplingOwned orchardOwned update tx).symm

end Views

/-! ## The global leaf sequence -/

/-- The Sapling leaves of some blocks in chain order: block by block, transactions in block
order, the outputs of a transaction in theirs. -/
def saplingLeaves (blocks : List CompactBlockData) : List Bytes :=
  blocks.flatMap (fun block => (blockOrder block.transactions).flatMap (fun entry =>
    (entry.1.outputs.map CompactSaplingOutput.cmu).filter (fun cmu => cmu.length = 32)))

/-- The Ironwood leaves of some blocks in chain order. -/
def ironwoodLeaves (blocks : List CompactBlockData) : List Bytes :=
  blocks.flatMap (fun block => (blockOrder block.transactions).flatMap (fun entry =>
    (entry.1.actions.map CompactIronwoodAction.cmx).filter (fun cmx => cmx.length = 32)))

theorem prepareSapling_commitments (saplingCanonical : Bytes → Bool)
    (outputs : List CompactSaplingOutput) :
    (prepareSapling saplingCanonical outputs).map PreparedSaplingCommitment.commitment
      = (outputs.map CompactSaplingOutput.cmu).filter (fun cmu => cmu.length = 32) := by
  unfold prepareSapling
  generalize 0 = start
  induction outputs generalizing start with
  | nil => rfl
  | cons output outputs ih =>
    rw [List.zipIdx_cons, List.filterMap_cons, List.map_cons, List.filter_cons]
    by_cases hlength : output.cmu.length = 32
    · simp [hlength, ih]
    · simp [hlength, ih]

theorem prepareIronwood_commitments (ironwoodCanonical : Bytes → Bool)
    (actions : List CompactIronwoodAction) :
    (prepareIronwood ironwoodCanonical actions).map PreparedIronwoodCommitment.commitment
      = (actions.map CompactIronwoodAction.cmx).filter (fun cmx => cmx.length = 32) := by
  unfold prepareIronwood
  induction actions with
  | nil => rfl
  | cons action actions ih =>
    rw [List.filterMap_cons, List.map_cons, List.filter_cons]
    by_cases hlength : action.cmx.length = 32
    · simp [hlength, ih]
    · simp [hlength, ih]

section Batches

variable (saplingCanonical ironwoodCanonical : Bytes → Bool)

/-- The prepared Sapling outputs carry the leaves of the blocks, in chain order. -/
theorem saplingOutputs_commitments (blocks : List CompactBlockData) :
    (saplingOutputs (prepareCommitmentBatch saplingCanonical ironwoodCanonical blocks)).map
        (fun output => output.2.commitment) = saplingLeaves blocks := by
  unfold saplingOutputs prepareCommitmentBatch saplingLeaves
  rw [List.map_flatMap, List.flatMap_map]
  refine List.flatMap_congr fun block _ => ?_
  rw [prepareBlock, List.map_flatMap, List.flatMap_map, orderedTransactions_eq]
  refine List.flatMap_congr fun entry _ => ?_
  rw [List.map_map, ← prepareSapling_commitments saplingCanonical]
  rfl

/-- The prepared Ironwood actions carry the leaves of the blocks, in chain order. -/
theorem ironwoodActions_commitments (blocks : List CompactBlockData) :
    (ironwoodActions (prepareCommitmentBatch saplingCanonical ironwoodCanonical blocks)).map
        PreparedIronwoodCommitment.commitment = ironwoodLeaves blocks := by
  unfold ironwoodActions prepareCommitmentBatch ironwoodLeaves
  rw [List.map_flatMap, List.flatMap_map]
  refine List.flatMap_congr fun block _ => ?_
  rw [prepareBlock, List.map_flatMap, List.flatMap_map, orderedTransactions_eq]
  refine List.flatMap_congr fun entry _ => ?_
  exact prepareIronwood_commitments ironwoodCanonical entry.1.actions

/-- A batch of blocks with the notes found in it. -/
structure CommitmentBatch where
  blocks : List CompactBlockData
  notes : List DecryptedNote
  mode : FrontierCheckpointMode

/-- The commitments of the batch's notes of one pool. -/
def CommitmentBatch.owned (batch : CommitmentBatch) (noteType : NoteType) : Finset Bytes :=
  ((batch.notes.filter (fun note => note.noteType == noteType)).map
    DecryptedNote.commitment).toFinset

/-- `update_commitment_trees`: what the loops computed, and the engine with its counters
advanced. A block height that does not fit `u32` ends the run. -/
def SyncEngine.updateCommitmentTrees (engine : SyncEngine) (batch : CommitmentBatch) :
    Except SyncError (TreeUpdate × SyncEngine) := do
  if let some block := batch.blocks.find? (fun block => block.height > u32Max) then
    throw (.sync s!"Checkpoint height {block.height} exceeds u32::MAX")
  let update := StashiWallet.updateCommitmentTrees (batch.owned .sapling) (batch.owned .ironwood)
    batch.mode engine.saplingTreePosition engine.orchardTreePosition
    (prepareCommitmentBatch saplingCanonical ironwoodCanonical batch.blocks)
  return (update, { engine with
    saplingTreePosition := update.saplingPos
    orchardTreePosition := update.orchardPos })

/-- The engine after a sequence of batches. -/
def SyncEngine.commitBatches (engine : SyncEngine) :
    List CommitmentBatch → Except SyncError SyncEngine
  | [] => .ok engine
  | batch :: rest => do
    let (_, next) ← engine.updateCommitmentTrees saplingCanonical ironwoodCanonical batch
    next.commitBatches rest

/-- The blocks of a sequence of batches. -/
def batchBlocks (batches : List CommitmentBatch) : List CompactBlockData :=
  batches.flatMap CommitmentBatch.blocks

variable {saplingCanonical ironwoodCanonical}

/-- What one batch that succeeds computes. -/
theorem updateCommitmentTrees_eq_ok {engine after : SyncEngine} {batch : CommitmentBatch}
    {update : TreeUpdate}
    (h : engine.updateCommitmentTrees saplingCanonical ironwoodCanonical batch
      = .ok (update, after)) :
    update = StashiWallet.updateCommitmentTrees (batch.owned .sapling) (batch.owned .ironwood)
        batch.mode engine.saplingTreePosition engine.orchardTreePosition
        (prepareCommitmentBatch saplingCanonical ironwoodCanonical batch.blocks) ∧
      after.saplingTreePosition = update.saplingPos ∧
      after.orchardTreePosition = update.orchardPos := by
  unfold SyncEngine.updateCommitmentTrees at h
  split at h
  · cases h
  · obtain ⟨rfl, rfl⟩ := Prod.mk.inj (Except.ok.inj h)
    exact ⟨rfl, rfl, rfl⟩

theorem updateCommitmentTrees_counters {engine after : SyncEngine} {batch : CommitmentBatch}
    {update : TreeUpdate}
    (h : engine.updateCommitmentTrees saplingCanonical ironwoodCanonical batch
      = .ok (update, after))
    (hsapling : engine.saplingTreePosition + (saplingLeaves batch.blocks).length ≤ u64Max)
    (horchard : engine.orchardTreePosition + (ironwoodLeaves batch.blocks).length ≤ u64Max) :
    after.saplingTreePosition
        = engine.saplingTreePosition + (saplingLeaves batch.blocks).length ∧
      after.orchardTreePosition
        = engine.orchardTreePosition + (ironwoodLeaves batch.blocks).length := by
  obtain ⟨rfl, hs, ho⟩ := updateCommitmentTrees_eq_ok h
  rw [← saplingOutputs_commitments saplingCanonical ironwoodCanonical,
    List.length_map] at hsapling
  rw [← ironwoodActions_commitments saplingCanonical ironwoodCanonical,
    List.length_map] at horchard
  rw [hs, ho, ← saplingOutputs_commitments saplingCanonical ironwoodCanonical, List.length_map,
    ← ironwoodActions_commitments saplingCanonical ironwoodCanonical, List.length_map]
  have hviewSapling := congrArg Prod.fst (updateCommitmentTrees_sapling (batch.owned .sapling)
    (batch.owned .ironwood) batch.mode engine.saplingTreePosition engine.orchardTreePosition
    (prepareCommitmentBatch saplingCanonical ironwoodCanonical batch.blocks))
  have hviewOrchard := congrArg Prod.fst (updateCommitmentTrees_orchard (batch.owned .sapling)
    (batch.owned .ironwood) batch.mode engine.saplingTreePosition engine.orchardTreePosition
    (prepareCommitmentBatch saplingCanonical ironwoodCanonical batch.blocks))
  exact ⟨hviewSapling.trans (assign_counter hsapling), hviewOrchard.trans (assign_counter horchard)⟩

/-- Each batch advances the counters by its leaves. -/
theorem commitBatches_counters {engine after : SyncEngine} {batches : List CommitmentBatch}
    (h : engine.commitBatches saplingCanonical ironwoodCanonical batches = .ok after)
    (hsapling : engine.saplingTreePosition + (saplingLeaves (batchBlocks batches)).length ≤ u64Max)
    (horchard : engine.orchardTreePosition
      + (ironwoodLeaves (batchBlocks batches)).length ≤ u64Max) :
    after.saplingTreePosition
        = engine.saplingTreePosition + (saplingLeaves (batchBlocks batches)).length ∧
      after.orchardTreePosition
        = engine.orchardTreePosition + (ironwoodLeaves (batchBlocks batches)).length := by
  induction batches generalizing engine with
  | nil =>
    obtain rfl := Except.ok.inj h
    exact ⟨rfl, rfl⟩
  | cons batch rest ih =>
    have hblocks : batchBlocks (batch :: rest) = batch.blocks ++ batchBlocks rest := rfl
    have hsaplingSplit : saplingLeaves (batch.blocks ++ batchBlocks rest)
        = saplingLeaves batch.blocks ++ saplingLeaves (batchBlocks rest) := List.flatMap_append
    have hironwoodSplit : ironwoodLeaves (batch.blocks ++ batchBlocks rest)
        = ironwoodLeaves batch.blocks ++ ironwoodLeaves (batchBlocks rest) := List.flatMap_append
    rw [hblocks, hsaplingSplit, List.length_append] at hsapling
    rw [hblocks, hironwoodSplit, List.length_append] at horchard
    rw [hblocks, hsaplingSplit, hironwoodSplit, List.length_append, List.length_append]
    unfold SyncEngine.commitBatches at h
    cases hbatch : engine.updateCommitmentTrees saplingCanonical ironwoodCanonical batch with
    | error e =>
      rw [hbatch] at h
      cases h
    | ok result =>
      obtain ⟨update, next⟩ := result
      rw [hbatch] at h
      have hnext := updateCommitmentTrees_counters hbatch (by omega) (by omega)
      have hrest := ih h (by omega) (by omega)
      constructor
      · omega
      · omega

end Batches

/-! ## Recovering the counters -/

/-- `initialize_shardtrees_for_sync`: the engine when both trees have a checkpoint right
before the start (`LocalSnapshot`), `none` when they are replayed or seeded remotely. -/
def SyncEngine.initializeShardtreesForSync (saplingActivation startHeight : Nat)
    (engine : SyncEngine) : Except SyncError (Option SyncEngine) :=
  if startHeight ≤ max saplingActivation 1 then .ok none
  else
    let treeHeight := startHeight - 1
    if engine.db.saplingTree.hasCheckpoint (min treeHeight u32Max) &&
        engine.db.orchardTree.hasCheckpoint (min treeHeight u32Max) then
      if treeHeight > u32Max then
        .error (.sync s!"Retained checkpoint height {treeHeight} exceeds u32::MAX")
      else .ok (some engine.recoverPositionCounters)
    else .ok none

/-- The local branch is taken with both checkpoints present, and recovers the counters. -/
theorem initializeShardtreesForSync_eq_some {saplingActivation startHeight : Nat}
    {engine resumed : SyncEngine}
    (h : engine.initializeShardtreesForSync saplingActivation startHeight = .ok (some resumed)) :
    engine.db.saplingTree.hasCheckpoint (startHeight - 1) = true ∧
      engine.db.orchardTree.hasCheckpoint (startHeight - 1) = true ∧
      resumed = engine.recoverPositionCounters := by
  unfold SyncEngine.initializeShardtreesForSync at h
  split at h
  · cases h
  · dsimp only at h
    split at h
    · rename_i hboth
      split at h
      · cases h
      · rename_i hle
        rw [min_eq_left (by omega), Bool.and_eq_true] at hboth
        exact ⟨hboth.1, hboth.2, (Option.some.inj (Except.ok.inj h)).symm⟩
    · cases h

/-- The pool has no checkpoint above the height that counts more leaves. -/
def NoLaterLeaves (tree : CommitmentTree) (height : Nat) : Prop :=
  ∀ checkpoint ∈ tree.checkpoints, height < checkpoint.checkpointId →
    checkpoint.leafCount ≤ tree.leavesAt height

/-- The recovered counter is the largest leaf count of any checkpoint. -/
theorem le_recoveredPosition {tree : CommitmentTree} {checkpoint : TreeCheckpoint}
    (hmem : checkpoint ∈ tree.checkpoints) : checkpoint.leafCount ≤ recoveredPosition tree := by
  cases hposition : checkpoint.position with
  | none =>
    rw [TreeCheckpoint.leafCount, hposition]
    exact Nat.zero_le _
  | some position =>
    have hstored : position ∈ tree.checkpoints.filterMap TreeCheckpoint.position :=
      List.mem_filterMap.mpr ⟨checkpoint, hmem, hposition⟩
    have hcounted := tree.counted checkpoint hmem
    have hcapacity := tree.capacity
    rw [TreeCheckpoint.leafCount_of_position hposition] at hcounted ⊢
    unfold recoveredPosition
    cases hmax : (tree.checkpoints.filterMap TreeCheckpoint.position).max? with
    | none =>
      rw [List.max?_eq_none_iff] at hmax
      rw [hmax] at hstored
      simp at hstored
    | some largest =>
      have hle := (List.max?_eq_some_iff.mp hmax).2 position hstored
      simp only [treeCapacity] at hcapacity
      simp only [saturatingAdd, u64Max]
      omega

theorem recoveredPosition_attained (tree : CommitmentTree) :
    recoveredPosition tree = 0 ∨
      ∃ checkpoint ∈ tree.checkpoints, recoveredPosition tree = checkpoint.leafCount := by
  unfold recoveredPosition
  cases hmax : (tree.checkpoints.filterMap TreeCheckpoint.position).max? with
  | none => exact Or.inl rfl
  | some largest =>
    obtain ⟨checkpoint, hmem, hposition⟩ :=
      List.mem_filterMap.mp (List.max?_eq_some_iff.mp hmax).1
    refine Or.inr ⟨checkpoint, hmem, ?_⟩
    have hcounted := tree.counted checkpoint hmem
    have hcapacity := tree.capacity
    rw [TreeCheckpoint.leafCount_of_position hposition] at hcounted ⊢
    simp only [treeCapacity] at hcapacity
    simp only [saturatingAdd, u64Max]
    omega

/-- **The recovered counter, exactly**: it is the leaf count at a checkpointed height if and
only if no later checkpoint of the pool counts more leaves. -/
theorem recoveredPosition_eq_iff {tree : CommitmentTree} {height : Nat}
    (hcheckpoint : tree.hasCheckpoint height = true) :
    recoveredPosition tree = tree.leavesAt height ↔ NoLaterLeaves tree height := by
  obtain ⟨target, htarget, rfl⟩ := CommitmentTree.hasCheckpoint_iff.mp hcheckpoint
  constructor
  · intro heq checkpoint hmem _
    rw [← heq]
    exact le_recoveredPosition hmem
  · intro hlater
    refine le_antisymm ?_ ?_
    · rcases recoveredPosition_attained tree with hzero | ⟨checkpoint, hmem, heq⟩
      · rw [hzero]
        exact Nat.zero_le _
      · rw [heq]
        by_cases hle : checkpoint.checkpointId ≤ target.checkpointId
        · rw [CommitmentTree.leavesAt_eq htarget]
          exact tree.ordered checkpoint hmem target htarget hle
        · exact hlater checkpoint hmem (by omega)
    · rw [CommitmentTree.leavesAt_eq htarget]
      exact le_recoveredPosition htarget

/-! ## Positions after a resume -/

/-- The chain's Sapling leaf sequence: what the tree holds up to the height, then the leaves
of the blocks that follow. -/
def globalSaplingLeaves (db : WalletDb) (treeHeight : Nat) (blocks : List CompactBlockData) :
    List Bytes :=
  db.saplingTree.leaves.take (db.saplingTree.leavesAt treeHeight) ++ saplingLeaves blocks

/-- The chain's Ironwood leaf sequence. -/
def globalIronwoodLeaves (db : WalletDb) (treeHeight : Nat) (blocks : List CompactBlockData) :
    List Bytes :=
  db.orchardTree.leaves.take (db.orchardTree.leavesAt treeHeight) ++ ironwoodLeaves blocks

theorem length_globalSaplingLeaves (db : WalletDb) (treeHeight : Nat)
    (blocks : List CompactBlockData) :
    (globalSaplingLeaves db treeHeight blocks).length
      = db.saplingTree.leavesAt treeHeight + (saplingLeaves blocks).length := by
  rw [globalSaplingLeaves, List.length_append, List.length_take,
    min_eq_left (db.saplingTree.leavesAt_le treeHeight)]

theorem length_globalIronwoodLeaves (db : WalletDb) (treeHeight : Nat)
    (blocks : List CompactBlockData) :
    (globalIronwoodLeaves db treeHeight blocks).length
      = db.orchardTree.leavesAt treeHeight + (ironwoodLeaves blocks).length := by
  rw [globalIronwoodLeaves, List.length_append, List.length_take,
    min_eq_left (db.orchardTree.leavesAt_le treeHeight)]

theorem globalSaplingLeaves_append (db : WalletDb) (treeHeight : Nat)
    (earlier blocks : List CompactBlockData) :
    globalSaplingLeaves db treeHeight (earlier ++ blocks)
      = globalSaplingLeaves db treeHeight earlier ++ saplingLeaves blocks := by
  rw [globalSaplingLeaves, globalSaplingLeaves, List.append_assoc]
  exact congrArg _ List.flatMap_append

theorem globalIronwoodLeaves_append (db : WalletDb) (treeHeight : Nat)
    (earlier blocks : List CompactBlockData) :
    globalIronwoodLeaves db treeHeight (earlier ++ blocks)
      = globalIronwoodLeaves db treeHeight earlier ++ ironwoodLeaves blocks := by
  rw [globalIronwoodLeaves, globalIronwoodLeaves, List.append_assoc]
  exact congrArg _ List.flatMap_append

section Positions

variable (saplingCanonical ironwoodCanonical : Bytes → Bool)

/-- No two outputs of the batch share a transaction id and output index. -/
def CommitmentBatch.DistinctOutputs (batch : CommitmentBatch) : Prop :=
  ∀ (i j : Nat) (a b : Bytes × PreparedSaplingCommitment) (key : TxOutputKey),
    (saplingOutputs (prepareCommitmentBatch saplingCanonical ironwoodCanonical
      batch.blocks))[i]? = some a →
    (saplingOutputs (prepareCommitmentBatch saplingCanonical ironwoodCanonical
      batch.blocks))[j]? = some b →
    TxOutputKey.new a.1 a.2.outputIndex = some key →
    TxOutputKey.new b.1 b.2.outputIndex = some key → i = j

/-- Every owned output of the batch is mapped to the index of its commitment in the leaf
sequence of the chain: a Sapling output, found by transaction and index, to its own place;
an Ironwood action, found by commitment, to a place that holds this commitment. -/
def OwnedAtGlobalIndex (db : WalletDb) (treeHeight : Nat) (earlier : List CommitmentBatch)
    (batch : CommitmentBatch) (maps : PositionMaps) : Prop :=
  (∀ k output key,
    (saplingOutputs (prepareCommitmentBatch saplingCanonical ironwoodCanonical
      batch.blocks))[k]? = some output →
    saplingKey (batch.owned .sapling) output = some key →
    ∃ position, maps.saplingByTx.lookup key = some position ∧
      position = (globalSaplingLeaves db treeHeight (batchBlocks earlier)).length + k ∧
      (globalSaplingLeaves db treeHeight (batchBlocks earlier ++ batch.blocks))[position]?
        = some output.2.commitment) ∧
  (∀ action ∈ ironwoodActions (prepareCommitmentBatch saplingCanonical ironwoodCanonical
      batch.blocks), action.commitment ∈ batch.owned .ironwood →
    ∃ position, maps.orchardByCommitment.lookup action.commitment = some position ∧
      (globalIronwoodLeaves db treeHeight (batchBlocks earlier ++ batch.blocks))[position]?
        = some action.commitment)

/-- What resuming above a tree height promises: the counters are the leaf counts up to it,
and in every batch of every run that follows, while the chain's leaves fit the trees, owned
outputs get their index in the chain's leaf sequence. -/
def PositionsCorrect (db : WalletDb) (treeHeight : Nat) (resumed : SyncEngine) : Prop :=
  resumed.saplingTreePosition = db.saplingTree.leavesAt treeHeight ∧
  resumed.orchardTreePosition = db.orchardTree.leavesAt treeHeight ∧
  ∀ (earlier : List CommitmentBatch) (batch : CommitmentBatch) (before after : SyncEngine)
    (update : TreeUpdate),
    resumed.commitBatches saplingCanonical ironwoodCanonical earlier = .ok before →
    before.updateCommitmentTrees saplingCanonical ironwoodCanonical batch = .ok (update, after) →
    (globalSaplingLeaves db treeHeight (batchBlocks earlier ++ batch.blocks)).length
      ≤ treeCapacity →
    (globalIronwoodLeaves db treeHeight (batchBlocks earlier ++ batch.blocks)).length
      ≤ treeCapacity →
    batch.DistinctOutputs saplingCanonical ironwoodCanonical →
    OwnedAtGlobalIndex saplingCanonical ironwoodCanonical db treeHeight earlier batch update.maps

variable {saplingCanonical ironwoodCanonical}

section Owned

variable {db : WalletDb} {treeHeight : Nat} {resumed before after : SyncEngine}
  {earlier : List CommitmentBatch} {batch : CommitmentBatch} {update : TreeUpdate}

/-- A counter at the number of Sapling leaves before the batch gives every owned output its
place in the leaf sequence. -/
theorem saplingOwned_of_counter
    (hbatch : before.updateCommitmentTrees saplingCanonical ironwoodCanonical batch
      = .ok (update, after))
    (hcounter : before.saplingTreePosition
      = (globalSaplingLeaves db treeHeight (batchBlocks earlier)).length)
    (hfits : (globalSaplingLeaves db treeHeight (batchBlocks earlier ++ batch.blocks)).length
      ≤ treeCapacity)
    (hdistinct : batch.DistinctOutputs saplingCanonical ironwoodCanonical) {k : Nat}
    {output : Bytes × PreparedSaplingCommitment} {key : TxOutputKey}
    (houtput : (saplingOutputs (prepareCommitmentBatch saplingCanonical ironwoodCanonical
      batch.blocks))[k]? = some output)
    (hkey : saplingKey (batch.owned .sapling) output = some key) :
    ∃ position, update.maps.saplingByTx.lookup key = some position ∧
      position = (globalSaplingLeaves db treeHeight (batchBlocks earlier)).length + k ∧
      (globalSaplingLeaves db treeHeight (batchBlocks earlier ++ batch.blocks))[position]?
        = some output.2.commitment := by
  have hcapacity : treeCapacity ≤ u64Max := by decide
  rw [globalSaplingLeaves_append, List.length_append] at hfits
  obtain ⟨rfl, -, -⟩ := updateCommitmentTrees_eq_ok hbatch
  have hmem : ∃ x ∈ saplingOutputs (prepareCommitmentBatch saplingCanonical ironwoodCanonical
      batch.blocks), saplingKey (batch.owned .sapling) x = some key :=
    ⟨output, List.mem_of_getElem? houtput, hkey⟩
  have hfits' : before.saplingTreePosition + (saplingOutputs (prepareCommitmentBatch
      saplingCanonical ironwoodCanonical batch.blocks)).length ≤ u64Max := by
    rw [← List.length_map (fun output => output.2.commitment), saplingOutputs_commitments]
    omega
  obtain ⟨j, x, hx, hxkey, hlookup⟩ := assign_lookup ∅ hfits' hmem
  -- the entry is the output's own, because no other output has its key
  have hraw : ∀ y, saplingKey (batch.owned .sapling) y = some key →
      TxOutputKey.new y.1 y.2.outputIndex = some key := by
    intro y hy
    unfold saplingKey at hy
    split at hy
    · exact hy
    · cases hy
  obtain rfl : j = k := hdistinct j k x output key hx houtput (hraw x hxkey) (hraw output hkey)
  refine ⟨before.saplingTreePosition + j, ?_, by rw [hcounter], ?_⟩
  · exact (congrArg (fun view => AList.lookup key view.2)
      (updateCommitmentTrees_sapling _ _ _ _ _ _)).trans hlookup
  · rw [globalSaplingLeaves_append, hcounter, List.getElem?_append_right (by omega),
      Nat.add_sub_cancel_left, ← saplingOutputs_commitments saplingCanonical ironwoodCanonical,
      List.getElem?_map, houtput]
    rfl

/-- A counter at the number of Ironwood leaves before the batch gives every owned action a
place that holds its commitment. -/
theorem ironwoodOwned_of_counter
    (hbatch : before.updateCommitmentTrees saplingCanonical ironwoodCanonical batch
      = .ok (update, after))
    (hcounter : before.orchardTreePosition
      = (globalIronwoodLeaves db treeHeight (batchBlocks earlier)).length)
    (hfits : (globalIronwoodLeaves db treeHeight (batchBlocks earlier ++ batch.blocks)).length
      ≤ treeCapacity) {action : PreparedIronwoodCommitment}
    (haction : action ∈ ironwoodActions (prepareCommitmentBatch saplingCanonical
      ironwoodCanonical batch.blocks))
    (howned : action.commitment ∈ batch.owned .ironwood) :
    ∃ position, update.maps.orchardByCommitment.lookup action.commitment = some position ∧
      (globalIronwoodLeaves db treeHeight (batchBlocks earlier ++ batch.blocks))[position]?
        = some action.commitment := by
  have hcapacity : treeCapacity ≤ u64Max := by decide
  rw [globalIronwoodLeaves_append, List.length_append] at hfits
  obtain ⟨rfl, -, -⟩ := updateCommitmentTrees_eq_ok hbatch
  have hkey : ironwoodKey (batch.owned .ironwood) action = some action.commitment :=
    if_pos howned
  have hfits' : before.orchardTreePosition + (ironwoodActions (prepareCommitmentBatch
      saplingCanonical ironwoodCanonical batch.blocks)).length ≤ u64Max := by
    rw [← List.length_map PreparedIronwoodCommitment.commitment, ironwoodActions_commitments]
    omega
  obtain ⟨j, x, hx, hxkey, hlookup⟩ := assign_lookup ∅ hfits' ⟨action, haction, hkey⟩
  -- another action with the same commitment may have written the entry last
  have hsame : x.commitment = action.commitment := by
    unfold ironwoodKey at hxkey
    split at hxkey
    · exact Option.some.inj hxkey
    · cases hxkey
  refine ⟨before.orchardTreePosition + j, ?_, ?_⟩
  · exact (congrArg (fun view => AList.lookup action.commitment view.2)
      (updateCommitmentTrees_orchard _ _ _ _ _ _)).trans hlookup
  · rw [globalIronwoodLeaves_append, hcounter, List.getElem?_append_right (by omega),
      Nat.add_sub_cancel_left, ← ironwoodActions_commitments saplingCanonical ironwoodCanonical,
      List.getElem?_map, hx]
    exact congrArg some hsame

/-- Counters that start at the leaf counts give every owned output its global index. -/
theorem ownedAtGlobalIndex_of_counters
    (hsapling : resumed.saplingTreePosition = db.saplingTree.leavesAt treeHeight)
    (horchard : resumed.orchardTreePosition = db.orchardTree.leavesAt treeHeight)
    (hearlier : resumed.commitBatches saplingCanonical ironwoodCanonical earlier = .ok before)
    (hbatch : before.updateCommitmentTrees saplingCanonical ironwoodCanonical batch
      = .ok (update, after))
    (hsaplingFits : (globalSaplingLeaves db treeHeight
      (batchBlocks earlier ++ batch.blocks)).length ≤ treeCapacity)
    (hironwoodFits : (globalIronwoodLeaves db treeHeight
      (batchBlocks earlier ++ batch.blocks)).length ≤ treeCapacity)
    (hdistinct : batch.DistinctOutputs saplingCanonical ironwoodCanonical) :
    OwnedAtGlobalIndex saplingCanonical ironwoodCanonical db treeHeight earlier batch
      update.maps := by
  have hcapacity : treeCapacity ≤ u64Max := by decide
  have hsaplingBefore := hsaplingFits
  have hironwoodBefore := hironwoodFits
  rw [globalSaplingLeaves_append, List.length_append, length_globalSaplingLeaves] at hsaplingBefore
  rw [globalIronwoodLeaves_append, List.length_append,
    length_globalIronwoodLeaves] at hironwoodBefore
  -- the counters have grown by the leaves of the earlier batches
  obtain ⟨hbeforeSapling, hbeforeOrchard⟩ :=
    commitBatches_counters hearlier (by omega) (by omega)
  rw [hsapling, ← length_globalSaplingLeaves] at hbeforeSapling
  rw [horchard, ← length_globalIronwoodLeaves] at hbeforeOrchard
  constructor
  · intro k output key houtput hkey
    exact saplingOwned_of_counter hbatch hbeforeSapling hsaplingFits hdistinct houtput hkey
  · intro action haction howned
    exact ironwoodOwned_of_counter hbatch hbeforeOrchard hironwoodFits haction howned

end Owned

/-- **Resuming from a local snapshot, exactly.** When `initialize_shardtrees_for_sync` takes
the local branch, the recovered counters are the leaf counts at the tree height, and owned
outputs of all later batches get their index in the chain's leaf sequence, if and only if
neither pool has a checkpoint above the tree height that counts more leaves. -/
theorem snapshot_positions_iff (saplingActivation startHeight : Nat)
    (engine resumed : SyncEngine)
    (h : engine.initializeShardtreesForSync saplingActivation startHeight = .ok (some resumed)) :
    PositionsCorrect saplingCanonical ironwoodCanonical engine.db (startHeight - 1) resumed ↔
      NoLaterLeaves engine.db.saplingTree (startHeight - 1) ∧
        NoLaterLeaves engine.db.orchardTree (startHeight - 1) := by
  obtain ⟨hsapling, horchard, rfl⟩ := initializeShardtreesForSync_eq_some h
  rw [← recoveredPosition_eq_iff hsapling, ← recoveredPosition_eq_iff horchard]
  constructor
  · rintro ⟨hs, ho, -⟩
    exact ⟨hs, ho⟩
  · rintro ⟨hs, ho⟩
    refine ⟨hs, ho, ?_⟩
    intro earlier batch before after update hearlier hbatch hfitsSapling hfitsIronwood hdistinct
    exact ownedAtGlobalIndex_of_counters hs ho hearlier hbatch hfitsSapling hfitsIronwood hdistinct

end Positions

/-- Both trees have checkpoints at 200 and 201; block 201 added one Sapling leaf. -/
def snapshotEngine : SyncEngine where
  db := { WalletDb.fresh "t" with
    saplingTree := {
      leaves := [[1], [2]]
      checkpoints := [⟨200, some 0⟩, ⟨201, some 1⟩]
      capacity := by decide
      counted := by decide
      ordered := by decide }
    orchardTree := {
      leaves := []
      checkpoints := [⟨200, none⟩, ⟨201, none⟩]
      capacity := by decide
      counted := by decide
      ordered := by decide } }
  accountId := 1
  birthdayHeight := 1
  nullifierCache := ∅
  nullifierCacheLoaded := false
  trackedWalletTxids := ∅
  saplingTreePosition := 0
  orchardTreePosition := 0

/-- Resuming above the last checkpoint recovers the right positions. -/
theorem snapshot_positions_at_tip :
    PositionsCorrect (fun _ => true) (fun _ => true) snapshotEngine.db 201
      snapshotEngine.recoverPositionCounters :=
  (snapshot_positions_iff 100 202 snapshotEngine _ rfl).mpr
    ⟨by unfold NoLaterLeaves; decide, by unfold NoLaterLeaves; decide⟩

/-- Resuming at 201, below the checkpoint a stopped run left at 201, recovers the counter of
that checkpoint: two leaves where the tree has one up to block 200. -/
theorem snapshot_positions_shifted :
    ∃ resumed, snapshotEngine.initializeShardtreesForSync 100 201 = .ok (some resumed) ∧
      resumed.saplingTreePosition = 2 ∧ snapshotEngine.db.saplingTree.leavesAt 200 = 1 ∧
      ¬ PositionsCorrect (fun _ => true) (fun _ => true) snapshotEngine.db 200 resumed := by
  refine ⟨snapshotEngine.recoverPositionCounters, rfl, rfl, rfl, ?_⟩
  rintro ⟨hsapling, -, -⟩
  revert hsapling
  decide

end StashiWallet
