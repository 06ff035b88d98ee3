import StashiWallet.HistoricalStripes
import StashiWallet.Interleaving
import StashiWallet.OrderedStream

/-!
# The compact-block stream

`produce_compact_block_chunks` streams a range through one assembler: first in short prefixes
while the endpoints are probed, then striped over several endpoints, then through one endpoint
after the other. Whatever it does in between, the assembler keeps the position.

What the surroundings answer is a question of `StreamStatement`: the pool of endpoints, the
selected transport, what a stream delivers until it ends, what the stripe workers send, and
whether the consumer still receives. Any answer is possible. Left out are the records of failures
and delivery rates, the log lines, and waits that answer nothing; a wait the consumer's
disappearance may end is `isClosed`.
-/

namespace StashiWallet

open Interleaving

structure CompactBlockChunk where
  blocks : List CompactBlockData
  encodedBlockBytes : List Nat
  encodedBytes : Nat
  endpoint : String
deriving DecidableEq, Repr

namespace CompactBlockChunk

def startHeight (chunk : CompactBlockChunk) : Option Nat := chunk.blocks.head?.map (·.height)

def endHeight (chunk : CompactBlockChunk) : Option Nat := chunk.blocks.getLast?.map (·.height)

end CompactBlockChunk

/-- What a block-range request delivers: its messages, and the error it ends with, if any. -/
structure BlockStream where
  messages : List (CompactBlockData × Nat)
  failure : Option ClientError
deriving DecidableEq, Repr

inductive StripeEvent where
  | chunk (worker : Nat) (range : StripeRange) (chunk : CompactBlockChunk)
  | complete (worker : Nat)
  | failed (worker : Nat) (range : StripeRange) (resumeHeight : Nat) (error : ClientError)
deriving DecidableEq, Repr

/-- The questions of the stream to its surroundings. -/
inductive StreamStatement where
  | generationIsCurrent
  | transportIsDesired
  | isClosed
  | loadSegmentBlockTarget
  | poolIsProbed
  | candidateOrder (minimumTip : Nat)
  | connectedCandidate (index : Nat)
  | getBlockRange (start endExclusive : Nat)
  | stripeSources (start : Nat)
  | sendCommand (worker : Nat) (range : StripeRange)
  | stripeEvents
  | send (chunk : CompactBlockChunk)
  | sendError (error : ClientError)
deriving DecidableEq, Repr

namespace StreamStatement

/-- The possible answers. -/
abbrev Reply : StreamStatement → Type
  | generationIsCurrent | transportIsDesired | isClosed | poolIsProbed | sendCommand _ _
  | send _ | sendError _ => Bool
  | loadSegmentBlockTarget => Nat
  | candidateOrder _ => List Nat
  | connectedCandidate _ => Option String
  | getBlockRange _ _ => Except ClientError BlockStream
  | stripeSources _ => Option (List Nat × Nat)
  | stripeEvents => List StripeEvent

end StreamStatement

/-- The fields of `LightClient` that the stream reads: its own endpoint, whether it has others,
whether it goes through I2P, its attempts, and why its transport configuration does not build. -/
structure StreamClient where
  endpoint : String
  hasFailoverEndpoints : Bool
  i2p : Bool
  maxAttempts : Nat
  configError : Option ClientError
deriving DecidableEq, Repr

/-- A part of the stream; an error leaves the assembler where it is. -/
abbrev StreamM : Type → Type :=
  ExceptT ClientError (StateT OrderedBlockAssembler (Prog StreamStatement StreamStatement.Reply))

namespace StreamM

/-- One question to the surroundings, and their answer. -/
def ask (statement : StreamStatement) : StreamM statement.Reply :=
  ExceptT.lift (StateT.lift (Prog.call statement))

/-- A call whose error is a value. -/
def attempt {α : Type} (call : StreamM α) : StreamM (Except ClientError α) :=
  ExceptT.mk (Except.ok <$> call.run)

/-- `assembler.next_height()`. -/
def nextHeight : StreamM Nat := return (← get).nextHeight

end StreamM

open StreamM

def isNonRetryableStatus : StatusCode → Bool
  | .invalidArgument | .unimplemented | .failedPrecondition | .permissionDenied => true
  | _ => false

def isNonRetryableError : ClientError → Bool
  | .status code _ => isNonRetryableStatus code
  | .sync message | .network message | .connection message =>
    "NON_RETRYABLE:".isPrefixOf message
  | _ => false

/-- The errors that end the stream at once. -/
def isFinal (error : ClientError) : Bool := error == .cancelled || isNonRetryableError error

/-- The stream stops when the consumer is gone. -/
def ensureOpen : StreamM Unit := do
  if ← ask .isClosed then throw .cancelled

def sendOrderedChunk (chunk : OrderedBlockChunk) (endpoint : String) : StreamM Unit := do
  if !(← ask (.send ⟨chunk.blocks, chunk.encodedBlockBytes, chunk.encodedBytes, endpoint⟩)) then
    throw .cancelled

/-- What `push` answered. -/
def pushed (endpoint : String) : Except ClientError (Option OrderedBlockChunk) → StreamM Unit
  | .error error => throw error
  | .ok none => pure ()
  | .ok (some chunk) => sendOrderedChunk chunk endpoint

/-- A block under the current block target: `set_next_chunk_max_blocks`, `push`, and the chunk
that it completes. -/
def pushBlock (block : CompactBlockData) (encodedBytes : Nat) (endpoint : String) :
    StreamM Unit := do
  let maxBlocks ← ask .loadSegmentBlockTarget
  let assembler ← get
  let result := (assembler.setNextChunkMaxBlocks maxBlocks).push block encodedBytes
  set result.2
  pushed endpoint result.1

/-- The blocks of a list, one after the other. -/
def pushBlocks (endpoint : String) (blocks : List (CompactBlockData × Nat)) : StreamM Unit :=
  blocks.forM fun entry => pushBlock entry.1 entry.2 endpoint

/-- The chunk that `take_partial` takes, if there is one. -/
def sendTaken (endpoint : String) : Option OrderedBlockChunk → StreamM Unit
  | some chunk => sendOrderedChunk chunk endpoint
  | none => pure ()

/-- `take_partial`, and the chunk it takes. -/
def sendPartial (endpoint : String) : StreamM Unit := do
  let taken := (← get).takePartial
  set taken.2
  sendTaken endpoint taken.1

namespace StreamClient

variable (client : StreamClient)

def ensureSelectedTransport : StreamM Unit := do
  if !(← ask .generationIsCurrent) then throw .cancelled
  if let some error := client.configError then throw error
  if !(← ask .transportIsDesired) then throw .cancelled

/-- `connected_candidate_client`, as the endpoint of the candidate. -/
def connectedCandidate (index : Nat) : StreamM (Option String) := do
  match ← attempt client.ensureSelectedTransport with
  | .error _ => pure none
  | .ok () => ask (.connectedCandidate index)

/-- `stream_compact_blocks_once`, on the candidate with the given endpoint. -/
def streamCompactBlocksOnce (endpoint : String) (start endExclusive : Nat) : StreamM Unit := do
  if endExclusive ≤ start then return
  if u32Max < start then throw (.sync s!"compact block height {start} exceeds u32")
  if u32Max < endExclusive then
    throw (.sync s!"compact block end height {endExclusive} exceeds u32")
  client.ensureSelectedTransport
  match ← ask (.getBlockRange start endExclusive) with
  | .error error => throw error
  | .ok stream =>
    pushBlocks endpoint stream.messages
    match stream.failure with
    | some error => throw error
    | none =>
      if endExclusive ≤ (← nextHeight) then pure ()
      else
        throw (.network (s!"compact block stream via {endpoint} ended early at height " ++
          s!"{← nextHeight} for requested range {start}..{endExclusive}"))

/-- The candidates of one round of `stream_remaining_with_failover`, in order: `true` when the
range is complete, with the last error otherwise. -/
def tryCandidates (endExclusive : Nat) :
    List Nat → Option ClientError → StreamM (Bool × Option ClientError)
  | [], lastError => return (false, lastError)
  | index :: rest, lastError => do
    match ← client.connectedCandidate index with
    | none =>
      tryCandidates endExclusive rest (some (.connection
        s!"lightwalletd endpoint {index} has no validated channel"))
    | some endpoint =>
      let attemptStart ← nextHeight
      match ← attempt (client.streamCompactBlocksOnce endpoint attemptStart endExclusive) with
      | .ok () =>
        if endExclusive ≤ (← nextHeight) then return (true, none)
        else tryCandidates endExclusive rest lastError
      | .error error =>
        if isFinal error then throw error
        else
          sendPartial endpoint
          tryCandidates endExclusive rest (some error)

/-- The rounds of `stream_remaining_with_failover`. After the last one, and with other endpoints
after each, the pool is probed again and the consumer may be gone meanwhile. -/
def streamRounds (endExclusive : Nat) : Nat → Option ClientError → StreamM Unit
  | 0, lastError => do
    let height ← nextHeight
    if endExclusive ≤ height then pure ()
    else
      throw (lastError.getD
        (.network s!"compact block stream ended at {height}, expected {endExclusive}"))
  | rounds + 1, lastError => do
    if endExclusive ≤ (← nextHeight) then pure ()
    else do
      client.ensureSelectedTransport
      ensureOpen
      let candidates ← ask (.candidateOrder (endExclusive - 1))
      let lastError :=
        if candidates.isEmpty then
          some (.connection
            s!"no healthy lightwalletd endpoint reaches height {endExclusive - 1}")
        else lastError
      let tried ← client.tryCandidates endExclusive candidates lastError
      if tried.1 then pure ()
      else do
        if client.hasFailoverEndpoints && decide (0 < rounds) then ensureOpen
        if decide ((← nextHeight) < endExclusive) && decide (0 < rounds) then ensureOpen
        streamRounds endExclusive rounds tried.2

def streamRemainingWithFailover (endExclusive : Nat) : StreamM Unit := do
  client.ensureSelectedTransport
  client.streamRounds endExclusive (max client.maxAttempts 1) none

/-- The prefixes that are streamed while the pool is being probed. Each one ends above the one
before, so that `fuel` of them are enough for a range of that length. -/
def streamProbing (endExclusive : Nat) : Nat → StreamM Unit
  | 0 => pure ()
  | fuel + 1 => do
    if ← ask .poolIsProbed then pure ()
    else do
      let height ← nextHeight
      if endExclusive ≤ height then pure ()
      else do
        client.streamRemainingWithFailover
          (min (saturatingAdd height historicalStripeBlocks) endExclusive)
        streamProbing endExclusive fuel

/-- `historical_stripe_plan`. Which endpoints are fit, and the lowest tip among them, is the
pool's answer; there are at least two. -/
def historicalStripePlan (start endExclusive : Nat) : StreamM (Option HistoricalStripePlan) := do
  if !client.hasFailoverEndpoints || client.i2p ||
      decide (endExclusive - start < historicalStripeMinBlocks) then
    return none
  match ← ask (.stripeSources start) with
  | none => return none
  | some (candidateIndices, stableTip) =>
    let stableEndExclusive := min endExclusive
      (saturatingAdd (stableTip - historicalStripeTipMargin) 1)
    if candidateIndices.length < 2 ∨ stableEndExclusive - start < historicalStripeMinBlocks then
      return none
    else return some ⟨candidateIndices, stableEndExclusive⟩

/-- A worker of `stream_historical_stripes` is started on a connected endpoint. -/
def startWorker (index : Nat) : StreamM Unit := do
  match ← client.connectedCandidate index with
  | some _ => pure ()
  | none =>
    throw (.connection s!"validated lightwalletd endpoint {index} has no connected channel")

end StreamClient

/-! ## The coordinator -/

abbrev StreamCoordinator : Type := StripeCoordinator CompactBlockChunk

/-- The assignment of ranges, over the idle workers. -/
def assignRanges (planEnd : Nat) : List Nat → StreamCoordinator → StreamM StreamCoordinator
  | [], stripes => return { stripes with idleWorkers := [] }
  | worker :: rest, stripes => do
    if stripes.disabledWorkers worker then assignRanges planEnd rest stripes
    else
      match stripes.nextRange planEnd with
      | none => return { stripes with idleWorkers := worker :: rest }
      | some (range, assigned) =>
        if ← ask (.sendCommand worker range) then
          assignRanges planEnd rest { assigned with activeRanges := assigned.activeRanges + 1 }
        else
          assignRanges planEnd rest { assigned with
            disabledWorkers := Function.update assigned.disabledWorkers worker true
            pendingRanges := range :: assigned.pendingRanges }

/-- `flush_canonical_stripe_chunks`; every turn takes a chunk out of the buffer. -/
def flushCanonicalStripeChunks : Nat → StreamCoordinator → StreamM StreamCoordinator
  | 0, stripes => return stripes
  | fuel + 1, stripes => do
    match stripes.remove (← nextHeight) with
    | none => return stripes
    | some (chunk, rest) =>
      pushBlocks chunk.endpoint (chunk.blocks.zip chunk.encodedBlockBytes)
      flushCanonicalStripeChunks fuel rest

/-- A chunk of a worker goes into the reorder buffer, unless it is not of its range or overlaps
what is there. -/
def bufferChunk (worker : Nat) (range : StripeRange) (chunk : CompactBlockChunk)
    (stripes : StreamCoordinator) : StreamM StreamCoordinator := do
  match chunk.startHeight, chunk.endHeight with
  | some chunkStart, some chunkEnd =>
    if chunkStart < range.start ∨ range.endExclusive ≤ chunkEnd ∨
        chunkStart < (← nextHeight) ∨ stripes.contains chunkStart then
      throw (.sync (s!"historical source {worker} returned overlapping range " ++
        s!"{chunkStart}-{chunkEnd} for {range.start}..{range.endExclusive}"))
    else return stripes.buffer chunkStart chunk
  | _, _ => throw (.sync "historical source returned an empty chunk")

/-- The end of a range that failed. -/
def failRange (maxAttempts : Nat) (worker : Nat) (range : StripeRange) (resumeHeight : Nat)
    (error : ClientError) (stripes : StreamCoordinator) : StreamM StreamCoordinator := do
  let counted := stripes.countFailure worker
  if shouldLeaveHistoricalStriping range resumeHeight (counted.workerFailures worker)
      maxAttempts then
    let _ ← flushCanonicalStripeChunks counted.buffered.length counted
    throw error
  else return counted.requeue worker range resumeHeight

/-- The loop of `stream_historical_stripes`, over the events the workers send. -/
def coordinate (maxAttempts planEnd : Nat) : List StripeEvent → StreamCoordinator → StreamM Unit
  | events, stripes => do
    let assigned ← assignRanges planEnd stripes.idleWorkers stripes
    let flushed ← flushCanonicalStripeChunks assigned.buffered.length assigned
    let height ← nextHeight
    if planEnd ≤ height then return
    if flushed.activeRanges = 0 then
      throw (.network s!"all canonical historical sources stopped before height {height}")
    match events with
    | [] => throw (.network s!"historical source workers ended before height {height}")
    | .chunk worker range chunk :: rest =>
      coordinate maxAttempts planEnd rest (← bufferChunk worker range chunk flushed)
    | .complete worker :: rest => coordinate maxAttempts planEnd rest (flushed.complete worker)
    | .failed worker range resumeHeight error :: rest =>
      coordinate maxAttempts planEnd rest
        (← failRange maxAttempts worker range resumeHeight error flushed)

namespace StreamClient

variable (client : StreamClient)

def streamHistoricalStripes (plan : HistoricalStripePlan) : StreamM Unit := do
  plan.candidateIndices.forM client.startWorker
  let events ← ask .stripeEvents
  coordinate client.maxAttempts plan.endExclusive events
    (.initial plan.candidateIndices.length (← nextHeight))

/-- `should_probe_historical_pool`, for a client with other endpoints. -/
def shouldProbePool (start endExclusive : Nat) : Bool :=
  client.hasFailoverEndpoints && !client.i2p &&
    decide (historicalStripeMinBlocks ≤ endExclusive - start)

/-- The three phases of `produce_compact_block_chunks`. -/
def streamRange (start endExclusive : Nat) : StreamM Unit := do
  if client.shouldProbePool start endExclusive then
    client.streamProbing endExclusive (endExclusive - start)
  match ← client.historicalStripePlan (← nextHeight) endExclusive with
  | none => client.streamRemainingWithFailover endExclusive
  | some plan =>
    match ← attempt (client.streamHistoricalStripes plan) with
    | .ok () => client.streamRemainingWithFailover endExclusive
    | .error error =>
      if isFinal error then throw error else client.streamRemainingWithFailover endExclusive

/-- `finish`, and the last chunk. -/
def sendFinished : StreamM Unit := do
  match (← get).finish with
  | .error error => throw error
  | .ok chunk => sendTaken client.endpoint chunk

/-- `produce_compact_block_chunks`, from the assembler on. -/
def produceFrom (start endExclusive : Nat) : Except ClientError OrderedBlockAssembler →
    Prog StreamStatement StreamStatement.Reply (Except ClientError Unit)
  | .error error => pure (.error error)
  | .ok assembler => do
    let result ← (do client.streamRange start endExclusive; client.sendFinished).run.run assembler
    return result.1

def produceCompactBlockChunks (start endExclusive maxChunkBytes : Nat) :
    Prog StreamStatement StreamStatement.Reply (Except ClientError Unit) := do
  if endExclusive ≤ start then return .ok ()
  else
    let assemblerBytes :=
      if client.hasFailoverEndpoints then min maxChunkBytes historicalStripeHandoffBytes
      else maxChunkBytes
    let maxBlocks ← Prog.call .loadSegmentBlockTarget
    client.produceFrom start endExclusive
      (OrderedBlockAssembler.withLimits start endExclusive assemblerBytes maxBlocks)

/-- `compact_block_adaptive_segment_stream`: an error of the producer goes to the consumer. -/
def compactBlockSegmentStream (range : UInt32 × UInt32) (maxChunkBytes : Nat) :
    Prog StreamStatement StreamStatement.Reply Unit := do
  match ← client.produceCompactBlockChunks range.1.toNat range.2.toNat maxChunkBytes with
  | .ok () => pure ()
  | .error error =>
    let _ ← Prog.call (.sendError error)
    pure ()

end StreamClient

end StashiWallet
