import StashiWallet.ShardtreeInsertion

/-!
# Historical grafts

An old part of the commitment tree need not be rebuilt leaf by leaf: when the root of a subtree
of `SHARD_LEAF_COUNT` leaves is known, the root alone can be put into the tree. The engine still
walks over every leaf, because a note of the wallet may turn up in the subtree, and decides leaf
by leaf. It emits the leaf, holds it back in a buffer, or counts it towards a sample that checks
a whole group of remote roots. A buffer that is complete at the announced height is thrown away,
and its root is queued for the end of the batch.

The first part embeds the skip state of one pool; the second is the part of a sync run that feeds
it.
-/

namespace StashiWallet

def SHARD_LEAF_COUNT : Nat := 2 ^ SHARD_HEIGHT

theorem shardLeafCount_pos : 0 < SHARD_LEAF_COUNT := Nat.two_pow_pos _

structure HistoricalSubtreeRoot where
  expectedEndHeight : Nat
  expectedRoot : Option Bytes
  sampleAnchor : Option Nat
  trusted : Bool
deriving DecidableEq, Repr

/-- A leaf on its way to the tree, as the buffer keeps it. -/
structure HistoricalLeaf where
  height : Nat
  position : Nat
  node : Bytes
  retention : Retention
deriving DecidableEq, Repr

/-- The subtree of a leaf. -/
def HistoricalLeaf.subtree (leaf : HistoricalLeaf) : Nat := leaf.position / SHARD_LEAF_COUNT

/-- `subtree_end` of `process_historical_leaf`. -/
def HistoricalLeaf.endsSubtree (leaf : HistoricalLeaf) : Bool :=
  leaf.position % SHARD_LEAF_COUNT + 1 == SHARD_LEAF_COUNT

/-- The incremental tree of `incrementalmerkletree` that a sample is hashed with. -/
structure CommitmentTreeOps (T : Type) where
  empty : T
  append : T → Bytes → Option T
  root : T → Bytes

structure HistoricalSubtreeBuffer (T : Type) where
  subtreeIndex : Nat
  expectedEndHeight : Nat
  expectedRoot : Option Bytes
  verifySample : Bool
  rootPersisted : Bool
  leavesEmitted : Bool
  sampleTree : Option T
  sampleLeafCount : Nat
  bufferedLeaves : List HistoricalLeaf

structure HistoricalSubtreeSkipState (T : Type) where
  rootsByIndex : AList (fun _ : Nat => HistoricalSubtreeRoot)
  currentBuffer : Option (HistoricalSubtreeBuffer T)
  passthroughSubtree : Option Nat
  verifiedSamples : Finset Nat
  pendingRoots : List VerifiedSubtreeRoot
  graftingDisabled : Bool
  leafBackedHints : Finset Nat

/-- `HistoricalLeafSink`, with the calls of `append_leaf` that went through it. -/
structure HistoricalLeafSink where
  currentBatch : ShardtreeBatch
  shardtreeBatches : List ShardtreeBatch
  emitted : List HistoricalLeaf
deriving DecidableEq, Repr

namespace HistoricalSubtreeSkipState

variable {T : Type}

def new (rootsByIndex : AList (fun _ : Nat => HistoricalSubtreeRoot)) :
    HistoricalSubtreeSkipState T :=
  ⟨rootsByIndex, none, none, ∅, [], false, ∅⟩

def withLeafBackedHints (state : HistoricalSubtreeSkipState T) (hints : Finset Nat) :
    HistoricalSubtreeSkipState T :=
  { state with leafBackedHints := state.leafBackedHints ∪ hints }

def hasDeferredLeaves (state : HistoricalSubtreeSkipState T) : Bool :=
  state.currentBuffer.any fun buffer => !buffer.leavesEmitted && !buffer.rootPersisted

/-- `sapling_checkpoint_safe` and `orchard_checkpoint_safe`. -/
def checkpointSafe (state : HistoricalSubtreeSkipState T) : Bool := !state.hasDeferredLeaves

/-- One pool of `pending_verified_roots`. -/
def pendingVerifiedRoots (state : HistoricalSubtreeSkipState T) : List VerifiedSubtreeRoot :=
  if state.graftingDisabled then []
  else state.pendingRoots.insertionSort (fun a b => a.index ≤ b.index)

/-- The body of the loop of `mark_pool_roots_persisted`. -/
def markPersisted (roots : AList (fun _ : Nat => HistoricalSubtreeRoot)) (index : Nat) :
    AList (fun _ : Nat => HistoricalSubtreeRoot) :=
  match roots.lookup index with
  | some root => roots.insert index { root with trusted := true }
  | none => roots

def markPoolRootsPersisted (state : HistoricalSubtreeSkipState T)
    (persisted : List VerifiedSubtreeRoot) : HistoricalSubtreeSkipState T :=
  let persistedIndices := persisted.map VerifiedSubtreeRoot.index
  { state with
    pendingRoots := state.pendingRoots.filter fun root => root.index ∉ persistedIndices
    rootsByIndex := persistedIndices.foldl markPersisted state.rootsByIndex }

/-- The body of the loop of `merge_remote_roots`. -/
def orInsert (roots : AList (fun _ : Nat => HistoricalSubtreeRoot))
    (entry : Nat × HistoricalSubtreeRoot) : AList (fun _ : Nat => HistoricalSubtreeRoot) :=
  match roots.lookup entry.1 with
  | some _ => roots
  | none => roots.insert entry.1 entry.2

/-- One pool of `merge_remote_roots`. -/
def mergeRemoteRoots (state : HistoricalSubtreeSkipState T)
    (remote : List (Nat × HistoricalSubtreeRoot)) : HistoricalSubtreeSkipState T :=
  { state with rootsByIndex := remote.foldl orInsert state.rootsByIndex }

end HistoricalSubtreeSkipState

/-- What `fetch_subtree_roots` makes of a server's answer. -/
def HistoricalSubtreeRoot.ofServer (completingBlockHeight : Nat) (rootHash : Bytes)
    (sampleAnchor : Nat) : HistoricalSubtreeRoot :=
  ⟨completingBlockHeight, some rootHash, some sampleAnchor, false⟩

/-! ## One leaf -/

section Leaf

-- `append_sapling_leaf` or `append_orchard_leaf`.
variable (appendLeaf : ShardtreeBatch → Nat → Bytes → Retention → ShardtreeBatch)

namespace HistoricalLeafSink

/-- The leaf goes to the batch of the block. -/
def append (sink : HistoricalLeafSink) (leaf : HistoricalLeaf) : HistoricalLeafSink :=
  { sink with
    currentBatch := appendLeaf sink.currentBatch leaf.position leaf.node leaf.retention
    emitted := sink.emitted ++ [leaf] }

/-- The body of the loop of `flush_buffered_pool_leaves`. -/
def flushLeaf (sink : HistoricalLeafSink) (leaf : HistoricalLeaf) : HistoricalLeafSink :=
  if leaf.height = sink.currentBatch.height then sink.append appendLeaf leaf
  else
    let fresh :=
      sink.shardtreeBatches ++
        [appendLeaf (ShardtreeBatch.new leaf.height) leaf.position leaf.node leaf.retention]
    { sink with
      shardtreeBatches :=
        match sink.shardtreeBatches.getLast? with
        | some last =>
          if last.height = leaf.height then
            sink.shardtreeBatches.dropLast ++
              [appendLeaf last leaf.position leaf.node leaf.retention]
          else fresh
        | none => fresh
      emitted := sink.emitted ++ [leaf] }

/-- `flush_buffered_pool_leaves`. -/
def flush {T : Type} (sink : HistoricalLeafSink) (buffer : HistoricalSubtreeBuffer T) :
    HistoricalLeafSink :=
  buffer.bufferedLeaves.foldl (flushLeaf appendLeaf) sink

end HistoricalLeafSink

variable {T : Type} (ops : CommitmentTreeOps T)

/-- Whether a completed sample confirms the root it was announced with. -/
def HistoricalSubtreeBuffer.sampleMatches (completed : HistoricalSubtreeBuffer T) : Bool :=
  let calculatedRoot :=
    if completed.sampleLeafCount = SHARD_LEAF_COUNT then completed.sampleTree.map ops.root
    else none
  completed.expectedRoot.any fun expected => calculatedRoot == some expected

def finishHistoricalBuffer (state : HistoricalSubtreeSkipState T)
    (completed : HistoricalSubtreeBuffer T) (blockHeight : Nat) (sink : HistoricalLeafSink) :
    Except SyncError (HistoricalSubtreeSkipState T × HistoricalLeafSink) :=
  let heightMatches := decide (completed.expectedEndHeight = blockHeight)
  if completed.verifySample then
    -- The leaves of a sample have been emitted as they came.
    if heightMatches && completed.sampleMatches ops then
      .ok ({ state with
        verifiedSamples := insert completed.subtreeIndex state.verifiedSamples }, sink)
    else .ok ({ state with graftingDisabled := true }, sink)
  else if !heightMatches then
    if completed.rootPersisted then
      .error (.sync s!"trusted historical subtree {completed.subtreeIndex} completed at height {blockHeight}, expected {completed.expectedEndHeight}")
    else .ok ({ state with graftingDisabled := true }, sink.flush appendLeaf completed)
  else if completed.rootPersisted then .ok (state, sink)
  else
    match completed.expectedRoot with
    | some root =>
      .ok ({ state with
        pendingRoots := state.pendingRoots ++
          [⟨completed.subtreeIndex, completed.expectedEndHeight, root⟩] }, sink)
    | none =>
      .error (.sync s!"verified historical subtree {completed.subtreeIndex} has no expected root")

/-- What follows each leaf of a buffer: the last one of the subtree finishes it. -/
def closeOrKeep (state : HistoricalSubtreeSkipState T) (buffer : HistoricalSubtreeBuffer T)
    (leaf : HistoricalLeaf) (sink : HistoricalLeafSink) :
    Except SyncError (HistoricalSubtreeSkipState T × HistoricalLeafSink) :=
  if leaf.endsSubtree then
    finishHistoricalBuffer appendLeaf ops { state with currentBuffer := none } buffer leaf.height
      sink
  else .ok ({ state with currentBuffer := some buffer }, sink)

/-- The leaf is emitted, and so is the rest of its subtree. -/
def passThrough (state : HistoricalSubtreeSkipState T) (leaf : HistoricalLeaf)
    (sink : HistoricalLeafSink) : HistoricalSubtreeSkipState T × HistoricalLeafSink :=
  (if leaf.endsSubtree then state else { state with passthroughSubtree := some leaf.subtree },
    sink.append appendLeaf leaf)

/-- The error of a sample that takes no more leaves. -/
def sampleCapacityError (subtreeIndex : Nat) : SyncError :=
  .sync s!"Historical subtree sample {subtreeIndex} exceeded its commitment capacity"

/-- `process_historical_leaf` for a leaf of the buffered subtree. -/
def continueBuffer (state : HistoricalSubtreeSkipState T) (buffer : HistoricalSubtreeBuffer T)
    (leaf : HistoricalLeaf) (sink : HistoricalLeafSink) :
    Except SyncError (HistoricalSubtreeSkipState T × HistoricalLeafSink) :=
  if buffer.verifySample then
    match buffer.sampleTree with
    -- The `expect` of the source.
    | none => .error (.sync "sample buffer has an accumulator")
    | some tree =>
      match ops.append tree leaf.node with
      | none => .error (sampleCapacityError leaf.subtree)
      | some tree =>
        closeOrKeep appendLeaf ops state
          { buffer with
            sampleTree := some tree
            sampleLeafCount := saturatingAdd buffer.sampleLeafCount 1 }
          leaf (sink.append appendLeaf leaf)
  else if leaf.retention.isMarked && !buffer.rootPersisted then
    .ok (passThrough appendLeaf { state with currentBuffer := none } leaf
      (sink.flush appendLeaf buffer))
  else
    -- A mark under a root that is in the tree cannot be witnessed: the leaf is held back too.
    closeOrKeep appendLeaf ops state
      { buffer with bufferedLeaves := buffer.bufferedLeaves ++ [leaf] } leaf sink

/-- Whether the root of the subtree is a sample that has not been verified yet. -/
def unverifiedAnchor (state : HistoricalSubtreeSkipState T) (root : HistoricalSubtreeRoot)
    (subtreeIndex : Nat) : Bool :=
  root.sampleAnchor == some subtreeIndex && decide (subtreeIndex ∉ state.verifiedSamples)

/-- `can_skip`: the root is in the tree, or the sample of its group has been verified. -/
def canSkip (state : HistoricalSubtreeSkipState T) (root : HistoricalSubtreeRoot)
    (subtreeIndex : Nat) : Bool :=
  root.trusted || root.sampleAnchor.any fun anchor =>
    decide (anchor ≠ subtreeIndex) && decide (anchor ∈ state.verifiedSamples)

/-- `process_historical_leaf` for the first leaf of a subtree whose root is known. -/
def startKnownSubtree (state : HistoricalSubtreeSkipState T) (root : HistoricalSubtreeRoot)
    (leaf : HistoricalLeaf) (sink : HistoricalLeafSink) :
    Except SyncError (HistoricalSubtreeSkipState T × HistoricalLeafSink) :=
  let isUnverifiedAnchor := unverifiedAnchor state root leaf.subtree
  let verifySample := root.expectedRoot.isSome && isUnverifiedAnchor
  if decide (leaf.subtree ∈ state.leafBackedHints) && !isUnverifiedAnchor then
    .ok (passThrough appendLeaf state leaf sink)
  else if !verifySample && !canSkip state root leaf.subtree then
    .ok (passThrough appendLeaf state leaf sink)
  else if verifySample then
    match ops.append ops.empty leaf.node with
    | none => .error (sampleCapacityError leaf.subtree)
    | some tree =>
      closeOrKeep appendLeaf ops state
        ⟨leaf.subtree, root.expectedEndHeight, root.expectedRoot, true, false, true, some tree, 1,
          []⟩
        leaf (sink.append appendLeaf leaf)
  else if leaf.retention.isMarked && !root.trusted then
    .ok (passThrough appendLeaf state leaf sink)
  else
    closeOrKeep appendLeaf ops state
      ⟨leaf.subtree, root.expectedEndHeight, root.expectedRoot, false, root.trusted, false, none, 0,
        [leaf]⟩
      leaf sink

/-- `process_historical_leaf` for a leaf that continues nothing. -/
def startSubtree (state : HistoricalSubtreeSkipState T) (leaf : HistoricalLeaf)
    (sink : HistoricalLeafSink) :
    Except SyncError (HistoricalSubtreeSkipState T × HistoricalLeafSink) :=
  if leaf.position % SHARD_LEAF_COUNT = 0 ∧ state.graftingDisabled = false then
    match state.rootsByIndex.lookup leaf.subtree with
    | some root => startKnownSubtree appendLeaf ops state root leaf sink
    | none => .ok (state, sink.append appendLeaf leaf)
  else .ok (state, sink.append appendLeaf leaf)

/-- `process_historical_leaf` with a skip state. -/
def processSkipLeaf (state : HistoricalSubtreeSkipState T) (leaf : HistoricalLeaf)
    (sink : HistoricalLeafSink) :
    Except SyncError (HistoricalSubtreeSkipState T × HistoricalLeafSink) :=
  if state.passthroughSubtree = some leaf.subtree then
    .ok (if leaf.endsSubtree then { state with passthroughSubtree := none } else state,
      sink.append appendLeaf leaf)
  else
    let state := { state with passthroughSubtree := none }
    match state.currentBuffer with
    | none => startSubtree appendLeaf ops state leaf sink
    | some buffer =>
      if buffer.subtreeIndex = leaf.subtree then continueBuffer appendLeaf ops state buffer leaf sink
      else
        startSubtree appendLeaf ops { state with currentBuffer := none } leaf
          (sink.flush appendLeaf buffer)

def processHistoricalLeaf (state : Option (HistoricalSubtreeSkipState T)) (leaf : HistoricalLeaf)
    (sink : HistoricalLeafSink) :
    Except SyncError (Option (HistoricalSubtreeSkipState T) × HistoricalLeafSink) :=
  match state with
  | none => .ok (none, sink.append appendLeaf leaf)
  | some state =>
    (processSkipLeaf appendLeaf ops state leaf sink).map fun result => (some result.1, result.2)

/-- `drain_historical_skip_state`; `emitted` are the calls of `append_leaf` before it. -/
def drainHistoricalSkipState (state : HistoricalSubtreeSkipState T)
    (emitted : List HistoricalLeaf) : HistoricalSubtreeSkipState T × HistoricalLeafSink :=
  -- A dummy current batch: no block has the height `u64::MAX`.
  let sink : HistoricalLeafSink := ⟨ShardtreeBatch.new u64Max, [], emitted⟩
  ({ state with currentBuffer := none, passthroughSubtree := none },
    match state.currentBuffer with
    | some buffer =>
      if !buffer.leavesEmitted && !buffer.rootPersisted then sink.flush appendLeaf buffer else sink
    | none => sink)

end Leaf

/-! ## A sync run

A batch of blocks opens with its first block and closes when the tree has been written. Only the
parts of the run that touch one pool's skip state are here. -/

/-- A leaf handed to `process_historical_leaf`, and whether the root of its subtree was trusted
at that moment. -/
structure FedLeaf where
  leaf : HistoricalLeaf
  rootPersisted : Bool
deriving DecidableEq, Repr

/-- What a sync run knows of one pool. The tree itself is seen through the leaves emitted to it
and the indices of the roots grafted into it. -/
structure GraftRun (T : Type) where
  skip : Option (HistoricalSubtreeSkipState T)
  inBatch : Bool
  blockHeight : Nat
  sink : HistoricalLeafSink
  position : Nat
  fed : List FedLeaf
  graftedRoots : List Nat
  failed : Option SyncError

/-- What happens to a pool during a sync run. -/
inductive GraftEvent where
  | block (height : Nat)
  | leaf (node : Bytes) (retention : Retention)
  | endBatch
  | mergeRoots (remote : List (Nat × Nat × Bytes × Nat))
  | drain

namespace HistoricalSubtreeSkipState

variable {T : Type}

/-- Whether the root of the subtree is marked as persisted. -/
def trusts (state : HistoricalSubtreeSkipState T) (index : Nat) : Bool :=
  (state.rootsByIndex.lookup index).any HistoricalSubtreeRoot.trusted

/-- Whether the root of the subtree is queued for the end of the batch. -/
def queues (state : HistoricalSubtreeSkipState T) (index : Nat) : Prop :=
  ∃ root ∈ state.pendingVerifiedRoots, root.index = index

end HistoricalSubtreeSkipState

namespace GraftRun

variable {T : Type}

/-- A run begins with the roots found in the database, which are in the tree. -/
def start (roots : AList (fun _ : Nat => HistoricalSubtreeRoot)) (hints : Finset Nat)
    (position : Nat) : GraftRun T where
  skip := some ((HistoricalSubtreeSkipState.new roots).withLeafBackedHints hints)
  inBatch := false
  blockHeight := 0
  sink := ⟨ShardtreeBatch.new 0, [], []⟩
  position := position
  fed := []
  graftedRoots := roots.keys.filter fun index => (roots.lookup index).any (·.trusted)
  failed := none

section Events

variable (appendLeaf : ShardtreeBatch → Nat → Bytes → Retention → ShardtreeBatch)
  (ops : CommitmentTreeOps T)

/-- The next block of the loop of `update_commitment_trees`. -/
def openBlock (run : GraftRun T) (height : Nat) : GraftRun T :=
  { run with
    inBatch := true
    blockHeight := height
    sink := { run.sink with
      currentBatch := ShardtreeBatch.new height
      shardtreeBatches :=
        if run.inBatch then run.sink.shardtreeBatches ++ [run.sink.currentBatch] else [] } }

/-- The leaf that the next output of the block becomes. -/
def nextLeaf (run : GraftRun T) (node : Bytes) (retention : Retention) : HistoricalLeaf :=
  ⟨run.blockHeight, run.position, node, retention⟩

/-- One output of the block. -/
def feed (run : GraftRun T) (node : Bytes) (retention : Retention) : GraftRun T :=
  match processHistoricalLeaf appendLeaf ops run.skip (run.nextLeaf node retention) run.sink with
  | .error error => { run with failed := some error }
  | .ok (skip, sink) =>
    { run with
      skip := skip
      sink := sink
      position := run.position + 1
      fed := run.fed ++
        [⟨run.nextLeaf node retention,
          run.skip.any fun state => state.trusts (run.nextLeaf node retention).subtree⟩] }

/-- The end of `update_commitment_trees`: leaves and queued roots are written together. -/
def closeBatch (run : GraftRun T) : GraftRun T :=
  let verifiedRoots := run.skip.elim [] (·.pendingVerifiedRoots)
  { run with
    inBatch := false
    skip := run.skip.map (·.markPoolRootsPersisted verifiedRoots)
    graftedRoots := run.graftedRoots ++ verifiedRoots.map VerifiedSubtreeRoot.index }

/-- `merge_ready_historical_prefill`, with the roots a server sent. -/
def mergeReady (run : GraftRun T) (remote : List (Nat × Nat × Bytes × Nat)) : GraftRun T :=
  { run with
    skip := run.skip.map (·.mergeRemoteRoots (remote.map fun root =>
      (root.1, .ofServer root.2.1 root.2.2.1 root.2.2.2))) }

/-- One pool of `flush_historical_prefill_buffers`. -/
def flushPrefill (run : GraftRun T) : GraftRun T :=
  match run.skip with
  | none => run
  | some state =>
    { run with
      skip := some (drainHistoricalSkipState appendLeaf state run.sink.emitted).1
      sink := (drainHistoricalSkipState appendLeaf state run.sink.emitted).2 }

/-- One event. Outputs come only inside a batch, merges and drains only between batches, and
nothing comes after an error. -/
def step (run : GraftRun T) (event : GraftEvent) : GraftRun T :=
  if run.failed.isSome then run
  else
    match event with
    | .block height => run.openBlock height
    | .leaf node retention => if run.inBatch then run.feed appendLeaf ops node retention else run
    | .endBatch => if run.inBatch then run.closeBatch else run
    | .mergeRoots remote => if run.inBatch then run else run.mergeReady remote
    | .drain => if run.inBatch then run else run.flushPrefill appendLeaf

end Events

end GraftRun

end StashiWallet
