import StashiWallet.Hysteresis
import StashiWallet.ParallelShardtree
import StashiWallet.Runs

/-!
# The size of a durable segment

The stream hands its blocks over in segments, and a controller chooses how many blocks a segment
has: one of eight sizes, from what validating and storing the segments took, from the bytes they
had and from the segments that wait behind them. The durations are nanoseconds.
-/

namespace StashiWallet

open Hysteresis

def DEFAULT_DURABLE_SEGMENT_BLOCKS : Nat := 1024

def DURABLE_SEGMENT_BLOCK_BUCKETS : List Nat := [256, 512, 1024, 2048, 4096, 8192, 16384, 32768]

def DURABLE_SEGMENT_NETWORK_TARGET : Nat := 1000000000

def DURABLE_SEGMENT_CACHE_TARGET : Nat := 100000000

def DURABLE_SEGMENT_CONFIRMATIONS : Nat := 3

def DURABLE_SEGMENT_COOLDOWN : Nat := 2

structure DurableSegmentObservation where
  blocks : Nat
  encodedBytes : Nat
  networkWait : Nat
  cacheWrite : Nat
  queuedBytes : Nat
  highWaterBytes : Nat
  streamTail : Bool
deriving DecidableEq, Repr

structure AdaptiveDurableSegmentController where
  currentIndex : Nat
  maxSegmentBytes : Nat
  networkNanosPerBlock : Nat
  cacheNanosPerBlock : Nat
  pendingDirection : Int
  confirmations : Nat
  cooldown : Nat
deriving DecidableEq, Repr

def nanosPerBlock (duration blocks : Nat) : Nat :=
  min (divCeil (max duration 1) (max blocks 1)) u64Max

def updateRateEwma (previous sample : Nat) : Nat :=
  if previous = 0 then max sample 1 else min ((previous * 3 + sample) / 4) u64Max

def durationTargetBlocks (target nanosPerBlock : Nat) : Nat :=
  min (target / max nanosPerBlock 1) u64Max

def saturatingMul (a b : Nat) : Nat := min (a * b) u64Max

def absDiff (a b : Nat) : Nat := (a - b) + (b - a)

def nearestDurableBucket (ideal byteSafeBlocks : Nat) : Nat :=
  (((DURABLE_SEGMENT_BLOCK_BUCKETS.zipIdx.filter fun entry => entry.1 ≤ byteSafeBlocks).argmin
    fun entry => absDiff entry.1 ideal).map (·.2)).getD 0

/-- The segments that wait reach three quarters of what may wait. -/
def DurableSegmentObservation.highPressure (observation : DurableSegmentObservation) : Prop :=
  0 < observation.highWaterBytes ∧
    observation.highWaterBytes - observation.highWaterBytes / 4 ≤ observation.queuedBytes

instance (observation : DurableSegmentObservation) : Decidable observation.highPressure :=
  inferInstanceAs (Decidable (_ ∧ _))

namespace AdaptiveDurableSegmentController

/-- `AdaptiveDurableSegmentController::new`. It panics when the default is none of the sizes. -/
def new (maxSegmentBytes : Nat) : Option AdaptiveDurableSegmentController :=
  (DURABLE_SEGMENT_BLOCK_BUCKETS.findIdx? (· == DEFAULT_DURABLE_SEGMENT_BLOCKS)).map
    fun currentIndex => ⟨currentIndex, max maxSegmentBytes 1, 0, 0, 0, 0, 0⟩

/-- `target_blocks`. It panics when the index is outside. -/
def targetBlocks (controller : AdaptiveDurableSegmentController) : Option Nat :=
  DURABLE_SEGMENT_BLOCK_BUCKETS[controller.currentIndex]?

/-- The blocks of the average size that fit in a segment. -/
def byteSafeBlocks (controller : AdaptiveDurableSegmentController)
    (observation : DurableSegmentObservation) : Nat :=
  max (controller.maxSegmentBytes / divCeil (max observation.encodedBytes 1) observation.blocks) 1

/-- The segments that `observe` ignores: empty ones, the last one of a stream, and short ones that
are not short for their bytes. -/
def ignores (controller : AdaptiveDurableSegmentController) (currentTarget : Nat)
    (observation : DurableSegmentObservation) : Prop :=
  observation.blocks = 0 ∨ observation.streamTail = true ∨
    (observation.blocks < divCeil currentTarget 2 ∧
      ¬ controller.maxSegmentBytes - controller.maxSegmentBytes / 4 ≤ observation.encodedBytes)

instance (controller : AdaptiveDurableSegmentController) (currentTarget : Nat)
    (observation : DurableSegmentObservation) :
    Decidable (controller.ignores currentTarget observation) :=
  inferInstanceAs (Decidable (_ ∨ _ ∨ _))

/-- The rates with the segment taken in. -/
def measure (controller : AdaptiveDurableSegmentController)
    (observation : DurableSegmentObservation) : AdaptiveDurableSegmentController :=
  { controller with
    networkNanosPerBlock := updateRateEwma controller.networkNanosPerBlock
      (nanosPerBlock observation.networkWait observation.blocks)
    cacheNanosPerBlock := updateRateEwma controller.cacheNanosPerBlock
      (nanosPerBlock observation.cacheWrite observation.blocks) }

/-- The size that the rates, the bytes and the queue ask for. -/
def ideal (controller : AdaptiveDurableSegmentController) (currentTarget : Nat)
    (observation : DurableSegmentObservation) : Nat :=
  let ideal := max (min (min
    (durationTargetBlocks DURABLE_SEGMENT_NETWORK_TARGET controller.networkNanosPerBlock)
    (durationTargetBlocks DURABLE_SEGMENT_CACHE_TARGET controller.cacheNanosPerBlock))
    (controller.byteSafeBlocks observation)) 1
  if observation.highPressure then min ideal currentTarget else ideal

/-- The direction from the present size to the one that is asked for. -/
def direction (controller : AdaptiveDurableSegmentController) (currentTarget : Nat)
    (observation : DurableSegmentObservation) : Int :=
  let candidateIndex := nearestDurableBucket (controller.ideal currentTarget observation)
    (controller.byteSafeBlocks observation)
  if candidateIndex < controller.currentIndex then -1
  else if candidateIndex = controller.currentIndex then 0
  else 1

/-- The rest of `observe`: a direction is confirmed, and followed when it is the third in a row. -/
def follow (controller : AdaptiveDurableSegmentController) (currentTarget : Nat) (direction : Int) :
    Option (AdaptiveDurableSegmentController × Nat) :=
  if direction = 0 then
    some ({ controller with
      pendingDirection := 0, confirmations := 0, cooldown := controller.cooldown - 1 },
      currentTarget)
  else if 0 < controller.cooldown then
    some ({ controller with cooldown := controller.cooldown - 1 }, currentTarget)
  else
    let confirmations :=
      if controller.pendingDirection = direction then min (controller.confirmations + 1) 255 else 1
    if confirmations < DURABLE_SEGMENT_CONFIRMATIONS then
      some ({ controller with pendingDirection := direction, confirmations := confirmations },
        currentTarget)
    else
      let controller := { controller with
        currentIndex := if direction < 0 then controller.currentIndex - 1
          else min (controller.currentIndex + 1) (DURABLE_SEGMENT_BLOCK_BUCKETS.length - 1)
        pendingDirection := 0
        confirmations := 0
        cooldown := DURABLE_SEGMENT_COOLDOWN }
      controller.targetBlocks.map fun target => (controller, target)

def observe (controller : AdaptiveDurableSegmentController)
    (observation : DurableSegmentObservation) : Option (AdaptiveDurableSegmentController × Nat) :=
  controller.targetBlocks.bind fun currentTarget =>
    if controller.ignores currentTarget observation then some (controller, currentTarget)
    else
      let measured := controller.measure observation
      measured.follow currentTarget (measured.direction currentTarget observation)

end AdaptiveDurableSegmentController

end StashiWallet
