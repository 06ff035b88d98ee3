import StashiWallet.SegmentController
import StashiWallet.WhileLoops

/-!
# Scan batches from segments

The segments that the stream stored are cut into batches for the scanner. Before every cut the
router reads the targets, which the scanner may change at any time: the batch that is being
assembled takes in what fits, and is sent when nothing fits or a target is reached. The flow of the
batches is modelled without cancellation, and with a consumer that receives all of them.
-/

namespace StashiWallet

open WhileLoop

structure LocalBatchWeight where
  blocks : Nat
  encodedBytes : Nat
  shieldedWorkItems : Nat
deriving DecidableEq, Repr

def CompactBlockData.shieldedWorkItems (saplingWorkFactor ironwoodWorkFactor : Nat)
    (block : CompactBlockData) : Nat :=
  block.transactions.foldl (fun total tx => saturatingAdd
    (saturatingAdd total (saturatingMul tx.outputs.length (max saplingWorkFactor 1)))
    (saturatingMul tx.actions.length (max ironwoodWorkFactor 1))) 0

def blockShieldedWorkItems (blocks : List CompactBlockData)
    (saplingWorkFactor ironwoodWorkFactor : Nat) : List Nat :=
  blocks.map (·.shieldedWorkItems saplingWorkFactor ironwoodWorkFactor)

/-! ## What fits -/

/-- The loop of `local_batch_prefix_len`. -/
def prefixWithin (current target : LocalBatchWeight) : List (Nat × Nat) → Nat → Nat → Nat
  | [], _, _ => 0
  | (encodedBytes, workItems) :: rest, addedBytes, addedWorkItems =>
    if target.encodedBytes < saturatingAdd (saturatingAdd current.encodedBytes addedBytes)
          (max encodedBytes 1) ∨
        target.shieldedWorkItems <
          saturatingAdd (saturatingAdd current.shieldedWorkItems addedWorkItems) workItems then 0
    else prefixWithin current target rest (saturatingAdd addedBytes (max encodedBytes 1))
      (saturatingAdd addedWorkItems workItems) + 1

def localBatchPrefixLen (encodedBlockBytes blockWorkItems : List Nat)
    (current target : LocalBatchWeight) : Nat :=
  if encodedBlockBytes.isEmpty ∨ encodedBlockBytes.length ≠ blockWorkItems.length then 0
  else
    let target : LocalBatchWeight :=
      ⟨max target.blocks 1, max target.encodedBytes 1, max target.shieldedWorkItems 1⟩
    if target.blocks ≤ current.blocks ∨ target.encodedBytes ≤ current.encodedBytes ∨
        target.shieldedWorkItems ≤ current.shieldedWorkItems then 0
    else
      let selected := prefixWithin current target
        ((encodedBlockBytes.zip blockWorkItems).take (target.blocks - current.blocks)) 0 0
      if selected = 0 ∧ current.blocks = 0 then 1 else selected

/-! ## Assembling a batch -/

/-- `DurableBlockSegment`. The stream accepts a segment only with a size for each of its blocks. -/
structure DurableBlockSegment where
  blocks : List CompactBlockData
  encodedBlockBytes : List Nat
  networkElapsed : Nat
  cacheWriteElapsed : Nat
  reservation : Nat
  sized : encodedBlockBytes.length = blocks.length

/-- `FetchedBlockBatch`, of which the network is the source. -/
structure FetchedBlockBatch where
  blocks : List CompactBlockData
  weight : LocalBatchWeight
  requested : LocalBatchWeight
  elapsed : Nat
  networkElapsed : Nat
  cacheWriteElapsed : Nat
  spoolReservations : List Nat
deriving DecidableEq, Repr

structure NetworkBatchAccumulator where
  blocks : List CompactBlockData
  encodedBytes : Nat
  shieldedWorkItems : Nat
  networkElapsed : Nat
  cacheWriteElapsed : Nat
  spoolReservations : List Nat
deriving DecidableEq, Repr

namespace NetworkBatchAccumulator

/-- `NetworkBatchAccumulator::default`. -/
def empty : NetworkBatchAccumulator := ⟨[], 0, 0, 0, 0, []⟩

/-- The weight of what is assembled. -/
def weight (pending : NetworkBatchAccumulator) : LocalBatchWeight :=
  ⟨pending.blocks.length, pending.encodedBytes, pending.shieldedWorkItems⟩

def reached (pending : NetworkBatchAccumulator) (target : LocalBatchWeight) : Bool :=
  decide (target.blocks ≤ pending.blocks.length) ||
    decide (target.encodedBytes ≤ pending.encodedBytes) ||
    decide (target.shieldedWorkItems ≤ pending.shieldedWorkItems)

def push (pending : NetworkBatchAccumulator) (blocks : List CompactBlockData)
    (encodedBytes shieldedWorkItems networkElapsed cacheWriteElapsed reservation : Nat) :
    NetworkBatchAccumulator where
  blocks := pending.blocks ++ blocks
  encodedBytes := saturatingAdd pending.encodedBytes encodedBytes
  shieldedWorkItems := saturatingAdd pending.shieldedWorkItems shieldedWorkItems
  networkElapsed := pending.networkElapsed + networkElapsed
  cacheWriteElapsed := pending.cacheWriteElapsed + cacheWriteElapsed
  spoolReservations := pending.spoolReservations ++ [reservation]

/-- `take_batch`, what it returns. It leaves the empty accumulator. -/
def takeBatch (pending : NetworkBatchAccumulator) (requested : LocalBatchWeight) :
    FetchedBlockBatch where
  blocks := pending.blocks
  weight := pending.weight
  requested := requested
  elapsed := pending.networkElapsed + pending.cacheWriteElapsed
  networkElapsed := pending.networkElapsed
  cacheWriteElapsed := pending.cacheWriteElapsed
  spoolReservations := pending.spoolReservations

end NetworkBatchAccumulator

/-! ## The router -/

/-- What the router reads besides the segments: the targets as they are at its successive reads, and
the limit of a chunk, which the configuration raises to one. -/
structure PrefetchFlowControl where
  targets : Nat → LocalBatchWeight
  saplingWorkFactor : Nat
  ironwoodWorkFactor : Nat
  maxChunkBytes : Nat
  chunkPositive : 0 < maxChunkBytes

/-- The targets of a read. -/
def PrefetchFlowControl.target (flow : PrefetchFlowControl) (read : Nat) : LocalBatchWeight where
  blocks := max (flow.targets read).blocks 1
  encodedBytes := max 1 (min (flow.targets read).encodedBytes flow.maxChunkBytes)
  shieldedWorkItems := max (flow.targets read).shieldedWorkItems 1

/-- A batch that was sent. The targets under which the last of its blocks were taken in are no part
of it: they are kept to speak about them. -/
structure SentBatch where
  batch : FetchedBlockBatch
  takenUnder : LocalBatchWeight
deriving DecidableEq, Repr

/-- The router between two turns: what it assembles, how often it read the targets, and what it
sent. The targets under which the last blocks were taken in are kept as in `SentBatch`. -/
structure RouterState where
  pending : NetworkBatchAccumulator
  takenUnder : LocalBatchWeight
  reads : Nat
  sent : List SentBatch
deriving DecidableEq, Repr

/-- `take_batch` and `send_prefetched_batch`. -/
def RouterState.send (state : RouterState) (target : LocalBatchWeight) : RouterState :=
  { state with
    pending := .empty
    sent := state.sent ++ [⟨state.pending.takeBatch target, state.takenUnder⟩] }

/-- The loop over a segment: what is left of it, and of the times that its first piece is given. -/
structure SegmentLoop where
  blocks : List CompactBlockData
  blockBytes : List Nat
  blockWork : List Nat
  attributeNetwork : Option Nat
  attributeCacheWrite : Option Nat
  reservation : Nat
  router : RouterState
deriving DecidableEq, Repr

/-- `sum::<u64>()`, which wraps around. -/
def wrappingSum (values : List Nat) : Nat := values.sum % 2 ^ 64

/-- `split_off`, `push` and what follows: the first blocks are taken in. -/
def SegmentLoop.takeIn (loop : SegmentLoop) (take : Nat) (target : LocalBatchWeight) :
    SegmentLoop :=
  let pending := loop.router.pending.push (loop.blocks.take take)
    (wrappingSum (loop.blockBytes.take take)) (wrappingSum (loop.blockWork.take take))
    (loop.attributeNetwork.getD 0) (loop.attributeCacheWrite.getD 0) loop.reservation
  let router := { loop.router with pending := pending, takenUnder := target }
  { loop with
    blocks := loop.blocks.drop take
    blockBytes := loop.blockBytes.drop take
    blockWork := loop.blockWork.drop take
    attributeNetwork := none
    attributeCacheWrite := none
    router := if pending.reached target then router.send target else router }

/-- One turn of the loop over a segment. -/
def SegmentLoop.turn (flow : PrefetchFlowControl) (loop : SegmentLoop) :
    Turn SegmentLoop RouterState :=
  if loop.blocks.isEmpty then .leave loop.router
  else
    let target := flow.target loop.router.reads
    let loop := { loop with router := { loop.router with reads := loop.router.reads + 1 } }
    let take := localBatchPrefixLen loop.blockBytes loop.blockWork loop.router.pending.weight target
    if take = 0 then .again { loop with router := loop.router.send target }
    else .again (loop.takeIn take target)

/-- The loop over a segment before its first turn. -/
def DurableBlockSegment.loop (flow : PrefetchFlowControl) (segment : DurableBlockSegment)
    (router : RouterState) : SegmentLoop where
  blocks := segment.blocks
  blockBytes := segment.encodedBlockBytes
  blockWork :=
    blockShieldedWorkItems segment.blocks flow.saplingWorkFactor flow.ironwoodWorkFactor
  attributeNetwork := some segment.networkElapsed
  attributeCacheWrite := some segment.cacheWriteElapsed
  reservation := segment.reservation
  router := router

/-- The turns that a segment is allowed here, which are more than its loop has. -/
def DurableBlockSegment.turns (segment : DurableBlockSegment) : Nat := 2 * segment.blocks.length + 2

/-- The loop over the segments: the router after it, and the height that comes next. -/
def routeSegments (flow : PrefetchFlowControl) :
    List DurableBlockSegment → Nat → RouterState → Option (RouterState × Except SyncError Nat)
  | [], current, router => some (router, .ok current)
  | segment :: rest, current, router =>
    match segment.blocks.head?, segment.blocks.getLast? with
    | some first, some last =>
      if first.height ≠ current then some (router, .error (.sync
        s!"durable compact block router expected {current}, received {first.height}"))
      else
        (within (SegmentLoop.turn flow) segment.turns (segment.loop flow router)).bind
          (routeSegments flow rest (saturatingAdd last.height 1))
    | _, _ => some (router, .error (.sync "durable compact block segment was empty"))

/-- What is left over is sent. -/
def RouterState.finish (flow : PrefetchFlowControl) (state : RouterState) : RouterState :=
  if state.pending.blocks.isEmpty then state
  else { state with reads := state.reads + 1 }.send (flow.target state.reads)

/-- The segment router of `produce_prefetched_batches`: what it sends, and its result. The task that
stores the segments ends with `spooled`. -/
def produceFromSegments (flow : PrefetchFlowControl) (start stop : Nat)
    (segments : List DurableBlockSegment) (spooled : Except SyncError Unit) :
    Option (List SentBatch × Except SyncError Unit) :=
  (routeSegments flow segments start ⟨.empty, ⟨0, 0, 0⟩, 0, []⟩).map fun (state, current) =>
    match current with
    | .error error => (state.sent, .error error)
    | .ok current =>
      ((state.finish flow).sent, do
        spooled
        if current ≤ stop then .error (.network
          s!"durable compact block router ended at {current}, expected {saturatingAdd stop 1}"))

end StashiWallet
