import StashiWallet.Sql

/-!
# Historical stripes

A long historical range is cut into stripes that are downloaded from several endpoints at once.
The coordinator hands stripes to idle workers, keeps the chunks that arrive before their turn in
a reorder buffer, and hands what a failed worker left of its stripe to another one.
-/

namespace StashiWallet

/-- `HISTORICAL_STRIPE_BLOCKS`. -/
def historicalStripeBlocks : Nat := 256

/-- `HISTORICAL_STRIPE_MIN_BLOCKS`. -/
def historicalStripeMinBlocks : Nat := historicalStripeBlocks * 2

/-- `HISTORICAL_STRIPE_TIP_MARGIN`. -/
def historicalStripeTipMargin : Nat := 100

/-- `HISTORICAL_STRIPE_HANDOFF_BYTES`. -/
def historicalStripeHandoffBytes : Nat := 4 * 1024 * 1024

/-- `HISTORICAL_STRIPE_SOURCE_FAILURES`. -/
def historicalStripeSourceFailures : Nat := 2

structure HistoricalStripePlan where
  candidateIndices : List Nat
  endExclusive : Nat
deriving DecidableEq, Repr

structure StripeRange where
  start : Nat
  endExclusive : Nat
  attempt : Nat
deriving DecidableEq, Repr

def shouldLeaveHistoricalStriping (range : StripeRange)
    (resumeHeight workerFailures maxAttempts : Nat) : Bool :=
  decide (resumeHeight < range.endExclusive) &&
    (decide (max maxAttempts 1 ≤ range.attempt) ||
      decide (historicalStripeSourceFailures ≤ workerFailures))

/-- The coordinator's variables in `stream_historical_stripes`. The reorder buffer is keyed by
the first height of a chunk. -/
structure StripeCoordinator (β : Type) where
  idleWorkers : List Nat
  disabledWorkers : Nat → Bool
  workerFailures : Nat → Nat
  pendingRanges : List StripeRange
  nextUnassigned : Nat
  activeRanges : Nat
  buffered : List (Nat × β)

namespace StripeCoordinator

variable {β : Type}

/-- The variables before the first round. -/
def initial (sourceCount nextHeight : Nat) : StripeCoordinator β where
  idleWorkers := List.range sourceCount
  disabledWorkers := fun _ => false
  workerFailures := fun _ => 0
  pendingRanges := []
  nextUnassigned := nextHeight
  activeRanges := 0
  buffered := []

variable (s : StripeCoordinator β)

/-- The range for the next idle worker: what a failure left, else the next stripe of the plan. -/
def nextRange (planEnd : Nat) : Option (StripeRange × StripeCoordinator β) :=
  match s.pendingRanges with
  | range :: rest => some (range, { s with pendingRanges := rest })
  | [] =>
    if s.nextUnassigned < planEnd then
      let stop := min (saturatingAdd s.nextUnassigned historicalStripeBlocks) planEnd
      some (⟨s.nextUnassigned, stop, 1⟩, { s with nextUnassigned := stop })
    else none

/-- A chunk enters the reorder buffer. -/
def buffer (chunkStart : Nat) (chunk : β) : StripeCoordinator β :=
  { s with buffered := s.buffered ++ [(chunkStart, chunk)] }

/-- `buffered.contains_key`. -/
def contains (chunkStart : Nat) : Bool := s.buffered.any fun entry => entry.1 == chunkStart

/-- `buffered.remove`. -/
def remove (height : Nat) : Option (β × StripeCoordinator β) :=
  match s.buffered.find? fun entry => entry.1 == height with
  | some entry =>
    some (entry.2, { s with buffered := s.buffered.filter fun entry => entry.1 != height })
  | none => none

/-- `StripeEvent::Complete`. -/
def complete (worker : Nat) : StripeCoordinator β :=
  { s with
    activeRanges := s.activeRanges - 1
    workerFailures := Function.update s.workerFailures worker 0
    idleWorkers := s.idleWorkers ++ [worker] }

/-- `StripeEvent::Failed`, up to the decision to leave striping. -/
def countFailure (worker : Nat) : StripeCoordinator β :=
  { s with
    activeRanges := s.activeRanges - 1
    workerFailures :=
      Function.update s.workerFailures worker (min (s.workerFailures worker + 1) u32Max) }

/-- `StripeEvent::Failed`, once striping goes on: what is left of the range waits for a worker,
and the worker is idle or disabled. -/
def requeue (worker : Nat) (range : StripeRange) (resumeHeight : Nat) : StripeCoordinator β :=
  let requeued : StripeCoordinator β :=
    if resumeHeight < range.endExclusive then
      { s with
        pendingRanges :=
          ⟨resumeHeight, range.endExclusive, min (range.attempt + 1) u32Max⟩ :: s.pendingRanges }
    else s
  if historicalStripeSourceFailures ≤ requeued.workerFailures worker then
    { requeued with disabledWorkers := Function.update requeued.disabledWorkers worker true }
  else { requeued with idleWorkers := requeued.idleWorkers ++ [worker] }

end StripeCoordinator

end StashiWallet
