import StashiWallet.SegmentController

/-!
# The size of a scan batch

The scanner takes its blocks in batches, and a controller chooses how many blocks a batch has within
the bounds of the device. Batches from the network are sized by what a block took, and batches from
the cache by probing: a larger or a smaller size is tried, and kept when it is faster. The durations
are nanoseconds. A `clamp` whose bounds are in the wrong order panics, and so does an `expect` on
nothing: both are `none` here.
-/

namespace StashiWallet

def u128Max : Nat := 340282366920938463463374607431768211455

/-- `u128::saturating_add`. -/
def saturatingAdd128 (a b : Nat) : Nat := min (a + b) u128Max

/-- `u128::saturating_mul`. -/
def saturatingMul128 (a b : Nat) : Nat := min (a * b) u128Max

/-- `Ord::clamp`, which panics when the bounds are in the wrong order. -/
def clamp (value lower upper : Nat) : Option Nat :=
  if lower ≤ upper then some (max lower (min value upper)) else none

def CACHED_SCAN_CONFIRMATIONS : Nat := 3

def CACHED_SCAN_COOLDOWN : Nat := 8

def CACHED_SCAN_THROUGHPUT_GAIN_PPM : Nat := 20000

def CACHED_SCAN_PARALLEL_GAIN_PPM : Nat := 30000

def CACHED_SCAN_REGRESSION_TOLERANCE_PPM : Nat := 30000

def RATE_SCALE_PPM : Nat := 1000000

inductive ScanBatchSource where
  | cache
  | network
deriving DecidableEq, Repr

inductive ScanBatchDecision where
  | cacheAtCeiling
  | cacheCollecting
  | cacheCooldown
  | cacheProbeLarger
  | cacheProbeSmaller
  | cachePlateau
  | cacheRegression
  | cacheStaleSample
  | ignoredTail
  | networkLatency
deriving DecidableEq, Repr

structure ScanBatchObservation where
  requestedBlocks : Nat
  requestedBytes : Nat
  blocks : Nat
  encodedBytes : Nat
  processingTime : Nat
  intakeWait : Nat
  queuedBytes : Nat
  source : ScanBatchSource
  treeParallelWall : Nat
  treeParallelWorkerActive : Nat
  streamTail : Bool
deriving DecidableEq, Repr

/-! ## Sizes to try -/

/-- Sizes are multiples of 64 where the bounds leave room for it. -/
def quantizeScanTarget (next minBlocks maxBlocks : Nat) : Nat :=
  if 64 ≤ maxBlocks - minBlocks then saturatingAdd next 32 / 64 * 64 else next

def growScanTarget (current minBlocks maxBlocks : Nat) : Option Nat :=
  clamp (quantizeScanTarget
    (max (divCeil (saturatingMul current 5) 4) (saturatingAdd current 1)) minBlocks maxBlocks)
    minBlocks maxBlocks

def shrinkScanTarget (current minBlocks maxBlocks : Nat) : Option Nat :=
  let next := quantizeScanTarget (saturatingMul current 4 / 5) minBlocks maxBlocks
  clamp (if current ≤ next then current - 1 else next) minBlocks maxBlocks

/-- The size to try in a direction. -/
def scanTargetTowards (current minBlocks maxBlocks : Nat) (direction : Int) : Option Nat :=
  if direction < 0 then shrinkScanTarget current minBlocks maxBlocks
  else growScanTarget current minBlocks maxBlocks

/-- `probe_scan_target`: the preferred direction first, then the other one. -/
def probeScanTarget (current minBlocks maxBlocks : Nat) (preferredDirection : Int) :
    Option (Nat × Int) := do
  let preferred : Int := if preferredDirection < 0 then -1 else 1
  let candidate ← scanTargetTowards current minBlocks maxBlocks preferred
  if candidate ≠ current then return (candidate, preferred)
  let candidate ← scanTargetTowards current minBlocks maxBlocks (-preferred)
  if candidate ≠ current then return (candidate, -preferred)
  return (current, 0)

def probeDecision (direction : Int) : ScanBatchDecision :=
  if direction < 0 then .cacheProbeSmaller else .cacheProbeLarger

def rateImproved (candidate baseline improvementPpm : Nat) : Bool :=
  saturatingMul128 baseline (saturatingAdd128 RATE_SCALE_PPM improvementPpm) ≤
    saturatingMul128 candidate RATE_SCALE_PPM

def rateWithinRegression (candidate baseline tolerancePpm : Nat) : Bool :=
  saturatingMul128 baseline (RATE_SCALE_PPM - min tolerancePpm 1000000) ≤
    saturatingMul128 candidate RATE_SCALE_PPM

/-! ## Batches from the cache -/

structure CachedOperatingPoint where
  targetBlocks : Nat
  blocksPerSecond : Nat
  parallelSaturationPpm : Nat
  hasParallelSample : Bool
deriving DecidableEq, Repr

structure CachedSampleAccumulator where
  targetBlocks : Nat
  samples : Nat
  blocks : Nat
  processingNanos : Nat
  parallelWallNanos : Nat
  parallelWorkerNanos : Nat
deriving DecidableEq, Repr

namespace CachedSampleAccumulator

def clearFor (targetBlocks : Nat) : CachedSampleAccumulator := ⟨targetBlocks, 0, 0, 0, 0, 0⟩

def push (accumulator : CachedSampleAccumulator) (observation : ScanBatchObservation) :
    CachedSampleAccumulator :=
  let accumulator :=
    if accumulator.targetBlocks ≠ observation.requestedBlocks then
      clearFor observation.requestedBlocks
    else accumulator
  { accumulator with
    samples := min (accumulator.samples + 1) 255
    blocks := saturatingAdd128 accumulator.blocks observation.blocks
    processingNanos :=
      saturatingAdd128 accumulator.processingNanos (max observation.processingTime 1)
    parallelWallNanos :=
      saturatingAdd128 accumulator.parallelWallNanos observation.treeParallelWall
    parallelWorkerNanos :=
      saturatingAdd128 accumulator.parallelWorkerNanos observation.treeParallelWorkerActive }

def operatingPoint (accumulator : CachedSampleAccumulator) (parallelWorkers : Nat) :
    CachedOperatingPoint where
  targetBlocks := accumulator.targetBlocks
  blocksPerSecond := min
    (saturatingMul128 accumulator.blocks 1000000000 / max accumulator.processingNanos 1) u64Max
  parallelSaturationPpm :=
    if 0 < accumulator.parallelWallNanos then
      min (saturatingMul128 accumulator.parallelWorkerNanos RATE_SCALE_PPM /
        max (saturatingMul128 accumulator.parallelWallNanos (max parallelWorkers 1)) 1)
        RATE_SCALE_PPM
    else 0
  hasParallelSample := 0 < accumulator.parallelWallNanos

end CachedSampleAccumulator

structure CachedScanThroughputController where
  parallelWorkers : Nat
  samples : CachedSampleAccumulator
  baseline : Option CachedOperatingPoint
  probeDirection : Int
  nextProbeDirection : Int
  cooldown : Nat
  lastBlocksPerSecond : Nat
  lastParallelSaturationPpm : Nat
deriving DecidableEq, Repr

namespace CachedScanThroughputController

def new (parallelWorkers : Nat) : CachedScanThroughputController :=
  ⟨max parallelWorkers 1, .clearFor 0, none, 0, 0, 0, 0, 0⟩

def reset (cached : CachedScanThroughputController) : CachedScanThroughputController :=
  ⟨cached.parallelWorkers, .clearFor 0, none, 0, 0, 0, 0, 0⟩

/-- The samples of `observe` that are another size's, or short without a reason. -/
def isStale (currentBlocks : Nat) (observation : ScanBatchObservation) : Bool :=
  let byteLimited := decide (observation.blocks < observation.requestedBlocks) &&
    decide (max observation.requestedBytes 1 - max observation.requestedBytes 1 / 4 ≤
      observation.encodedBytes)
  decide (observation.requestedBlocks ≠ currentBlocks) ||
    (decide (observation.blocks < divCeil observation.requestedBlocks 2) && !byteLimited)

/-- The size that was tried is better than the one before it. -/
def candidateBetter (point baseline : CachedOperatingPoint) : Bool :=
  rateImproved point.blocksPerSecond baseline.blocksPerSecond CACHED_SCAN_THROUGHPUT_GAIN_PPM ||
    (rateWithinRegression point.blocksPerSecond baseline.blocksPerSecond
        CACHED_SCAN_REGRESSION_TOLERANCE_PPM &&
      point.hasParallelSample && baseline.hasParallelSample &&
      decide (saturatingAdd baseline.parallelSaturationPpm CACHED_SCAN_PARALLEL_GAIN_PPM ≤
        point.parallelSaturationPpm))

/-- The part of `observe` that judges a size that was tried. -/
def judge (cached : CachedScanThroughputController) (currentBlocks minBlocks maxBlocks : Nat)
    (point : CachedOperatingPoint) :
    Option (CachedScanThroughputController × Nat × ScanBatchDecision) := do
  -- `expect("an active cached-batch probe has a baseline")`
  let baseline ← cached.baseline
  if candidateBetter point baseline then
    let (next, direction) ←
      probeScanTarget currentBlocks minBlocks maxBlocks cached.probeDirection
    if direction ≠ 0 then
      return ({ cached with baseline := some point, probeDirection := direction },
        next, probeDecision direction)
    return ({ cached with
      baseline := some point
      nextProbeDirection := -cached.probeDirection
      probeDirection := 0
      cooldown := CACHED_SCAN_COOLDOWN }, currentBlocks, .cacheAtCeiling)
  let next ← clamp baseline.targetBlocks minBlocks maxBlocks
  return ({ cached with
      baseline := some baseline
      nextProbeDirection := -cached.probeDirection
      probeDirection := 0
      cooldown := CACHED_SCAN_COOLDOWN }, next,
    if rateWithinRegression point.blocksPerSecond baseline.blocksPerSecond
        CACHED_SCAN_REGRESSION_TOLERANCE_PPM then .cachePlateau
    else .cacheRegression)

/-- The part of `observe` that begins to try a size. -/
def probe (cached : CachedScanThroughputController) (currentBlocks minBlocks maxBlocks : Nat)
    (point : CachedOperatingPoint) :
    Option (CachedScanThroughputController × Nat × ScanBatchDecision) := do
  let preferredDirection : Int :=
    if cached.nextProbeDirection ≠ 0 then cached.nextProbeDirection
    else if currentBlocks < maxBlocks then 1
    else -1
  let (next, direction) ← probeScanTarget currentBlocks minBlocks maxBlocks preferredDirection
  let cached := { cached with
    baseline := some point, nextProbeDirection := 0, probeDirection := direction }
  if direction = 0 then return (cached, currentBlocks, .cacheAtCeiling)
  return (cached, next, probeDecision direction)

def observe (cached : CachedScanThroughputController) (currentBlocks minBlocks maxBlocks : Nat)
    (observation : ScanBatchObservation) :
    Option (CachedScanThroughputController × Nat × ScanBatchDecision) :=
  if observation.blocks = 0 ∨ observation.streamTail = true then
    some (cached, currentBlocks, .ignoredTail)
  else if isStale currentBlocks observation = true then
    some (cached, currentBlocks, .cacheStaleSample)
  else
    let samples := cached.samples.push observation
    if samples.samples < CACHED_SCAN_CONFIRMATIONS then
      some ({ cached with samples := samples }, currentBlocks, .cacheCollecting)
    else
      let point := samples.operatingPoint cached.parallelWorkers
      let cached := { cached with
        samples := .clearFor currentBlocks
        lastBlocksPerSecond := point.blocksPerSecond
        lastParallelSaturationPpm := point.parallelSaturationPpm }
      if 0 < cached.cooldown then
        some ({ cached with baseline := some point, cooldown := cached.cooldown - 1 },
          currentBlocks, .cacheCooldown)
      else if cached.probeDirection ≠ 0 then
        cached.judge currentBlocks minBlocks maxBlocks point
      else cached.probe currentBlocks minBlocks maxBlocks point

end CachedScanThroughputController

/-! ## Batches from both sources -/

structure AdaptiveScanBatcher where
  minBlocks : Nat
  maxBlocks : Nat
  currentBlocks : Nat
  networkTargetTime : Nat
  maxBatchBytes : Nat
  networkEwmaNanosPerBlock : Option Nat
  networkSamples : Nat
  cached : CachedScanThroughputController
  lastSource : Option ScanBatchSource
  lastDecision : ScanBatchDecision
deriving DecidableEq, Repr

namespace AdaptiveScanBatcher

def withParallelism (initialBlocks minBlocks maxBlocks networkTargetTime maxBatchBytes
    parallelWorkers : Nat) : Option AdaptiveScanBatcher :=
  let maxBlocks := max maxBlocks 1
  let minBlocks := min (max minBlocks 1) maxBlocks
  (clamp initialBlocks minBlocks maxBlocks).map fun currentBlocks =>
    { minBlocks := minBlocks
      maxBlocks := maxBlocks
      currentBlocks := currentBlocks
      networkTargetTime := max networkTargetTime 1000000
      maxBatchBytes := max maxBatchBytes 1
      networkEwmaNanosPerBlock := none
      networkSamples := 0
      cached := .new parallelWorkers
      lastSource := none
      lastDecision := .networkLatency }

/-- The part of `observe` that forgets the other source's samples. -/
def enter (batcher : AdaptiveScanBatcher) (source : ScanBatchSource) : AdaptiveScanBatcher :=
  if batcher.lastSource = some source then batcher
  else { batcher with
    cached := batcher.cached.reset
    networkEwmaNanosPerBlock := none
    networkSamples := 0
    lastSource := some source }

/-- The average of what a block takes, the batch included. -/
def networkEwma (batcher : AdaptiveScanBatcher) (observation : ScanBatchObservation) : Nat :=
  let sampleNanos := max (max observation.processingTime 1 / observation.blocks) 1
  match batcher.networkEwmaNanosPerBlock with
  | some previous => saturatingAdd128 (saturatingMul128 previous 7) sampleNanos / 8
  | none => sampleNanos

/-- The size that the target time, the bytes and a slow intake ask for. -/
def networkIdeal (batcher : AdaptiveScanBatcher) (ewma : Nat)
    (observation : ScanBatchObservation) : Nat :=
  let targetNanos := max batcher.networkTargetTime 1
  let ideal := min (if ewma = 0 then batcher.maxBlocks else targetNanos / ewma) batcher.maxBlocks
  let avgEncodedBytes := divCeil (max observation.encodedBytes 1) (max observation.blocks 1)
  let ideal := min ideal (max (batcher.maxBatchBytes / avgEncodedBytes) 1)
  if observation.queuedBytes < batcher.maxBatchBytes / 4 ∧
      observation.processingTime / 3 < observation.intakeWait then
    min ideal (saturatingMul batcher.currentBlocks 3 / 4)
  else ideal

/-- The part of `observe` that damps the change. -/
def damp (batcher : AdaptiveScanBatcher) (ideal : Nat) : Option (AdaptiveScanBatcher × Nat) := do
  let lower := max (divCeil (saturatingMul batcher.currentBlocks 3) 4) batcher.minBlocks
  let upper := min (divCeil (saturatingMul batcher.currentBlocks 5) 4) batcher.maxBlocks
  let next ← clamp ideal lower upper
  let currentBlocks ← clamp (quantizeScanTarget next batcher.minBlocks batcher.maxBlocks)
    batcher.minBlocks batcher.maxBlocks
  return ({ batcher with currentBlocks := currentBlocks }, currentBlocks)

def observe (batcher : AdaptiveScanBatcher) (observation : ScanBatchObservation) :
    Option (AdaptiveScanBatcher × Nat) :=
  let batcher := batcher.enter observation.source
  match observation.source with
  | .cache =>
    (batcher.cached.observe batcher.currentBlocks batcher.minBlocks batcher.maxBlocks
      observation).map fun (cached, next, decision) =>
        ({ batcher with cached := cached, currentBlocks := next, lastDecision := decision }, next)
  | .network =>
    if observation.blocks = 0 ∨ observation.streamTail = true then
      some ({ batcher with lastDecision := .ignoredTail }, batcher.currentBlocks)
    else
      let ewma := batcher.networkEwma observation
      let batcher := { batcher with
        networkEwmaNanosPerBlock := some ewma
        networkSamples := min (batcher.networkSamples + 1) 4294967295
        lastDecision := .networkLatency }
      -- the first two batches of a stretch are not typical
      if batcher.networkSamples < 3 then some (batcher, batcher.currentBlocks)
      else batcher.damp (batcher.networkIdeal ewma observation)

end AdaptiveScanBatcher

end StashiWallet
