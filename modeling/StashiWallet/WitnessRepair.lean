import StashiWallet.Interleaving
import StashiWallet.SpendabilityStorage

/-!
# The witness-repair calls, statement by statement

Four functions drive witness repair: the tip check, the progress write, the activation of a
queued range, and the enqueueing of one. They share the scan queue and the spendability row,
and no transaction covers any of them as a whole, so each is embedded as a call that runs
one statement at a time. A statement is what the database runs atomically: one query, one
`UPDATE`, or one `BEGIN IMMEDIATE … COMMIT` block.

Statements on other tables (the birthday of the account's keys, the tree checkpoints, the
witness material, the sync progress) can answer anything here, since nothing in these two
tables determines them. Every statement can fail, and then leaves the tables as they were.
`let _ =` in the source is `ignore`, `unwrap_or_default` is `unwrapOr` of the default.
-/

namespace StashiWallet

open Interleaving

/-- The two tables the calls share. -/
structure RepairTables where
  scanQueue : ScanQueue
  spendabilityState : SpendabilityStateRow

namespace RepairTables

/-- The tables of a fresh wallet. -/
def fresh (now : String) : RepairTables := ⟨.empty, .default now⟩

end RepairTables

/-- The two checkpoint tables. -/
inductive CheckpointTable where
  | saplingTreeCheckpoints
  | orchardTreeCheckpoints
deriving DecidableEq, Repr

/-- The atomic statements of the four calls. -/
inductive RepairStatement where
  | walletBirthdayHeight (accountId : Int)
  | birthdayHeightForAccount (accountId : Int)
  | maxCheckpoint (table : CheckpointTable) (ceiling floor : Nat)
  | checkWitnesses (accountId : Int) (anchorHeight walletBirthday : Nat)
  | saveSyncProgress (localHeight targetHeight lastCheckpoint : Nat)
  | scanQueueExtrema
  | historicExtrema
  | nextFoundNoteRange
  | planMerge (priority : Int) (rangeStart rangeEnd : Nat)
  | commitMerge (priority : Int) (reason : Option String) (plan : ScanQueue.MergePlan)
  | replaceHistoric (rangeStart rangeEnd : Nat) (reason : Option String)
  | markInProgress (id : Nat)
  | markFoundNoteDoneThrough (endExclusive : Nat)
  | loadState
  | markSyncFinalizing (targetHeight anchorHeight : Nat)
  | markValidated (targetHeight anchorHeight : Nat)
  | markRepairPendingWithoutEnqueue (fromHeight : Nat) (reasonCode : String)
deriving DecidableEq, Repr

namespace RepairStatement

/-- What a statement answers when it succeeds. -/
abbrev Answer : RepairStatement → Type
  | walletBirthdayHeight _ => Option Nat
  | birthdayHeightForAccount _ => Nat
  | maxCheckpoint _ _ _ => Option Nat
  | checkWitnesses _ _ _ => List (Nat × Nat)
  | scanQueueExtrema | historicExtrema => Option (Nat × Nat)
  | nextFoundNoteRange => Option ScanRangeRow
  | planMerge _ _ _ => ScanQueue.MergePlan
  | loadState => SpendabilityStateRow
  | _ => Unit

/-- What a statement answers: its answer or an error. -/
abbrev Reply (statement : RepairStatement) : Type := Except StorageError statement.Answer

end RepairStatement

namespace ScanQueue

/-- The transaction of `record_historic_scanned_range`. -/
def replaceHistoric (now : String) (rangeStart rangeEnd : Nat) (reason : Option String)
    (queue : ScanQueue) : Except StorageError ScanQueue :=
  (queue.deleteWhere (fun row => row.priority == scanPriorityHistoric)).insert now
    rangeStart rangeEnd scanPriorityHistoric .done reason

end ScanQueue

namespace RepairTables

/-- An `UPDATE` of the row succeeds, at some clock reading, with `row` as its result. -/
def Updates (before after : RepairTables)
    (update : String → SpendabilityStateRow → Except StorageError SpendabilityStateRow) : Prop :=
  ∃ now row, update now before.spendabilityState = .ok row ∧
    after = { before with spendabilityState := row }

/-- A write to the queue succeeds, at some clock reading, with `queue` as its result. -/
def Requeues (before after : RepairTables)
    (write : String → ScanQueue → Except StorageError ScanQueue) : Prop :=
  ∃ now queue, write now before.scanQueue = .ok queue ∧ after = { before with scanQueue := queue }

/-- A statement succeeds with an answer and leaves the tables `after`. -/
def Succeeds (before : RepairTables) :
    (statement : RepairStatement) → statement.Answer → RepairTables → Prop
  | .walletBirthdayHeight _, _, after => after = before
  | .birthdayHeightForAccount _, _, after => after = before
  | .maxCheckpoint _ _ _, _, after => after = before
  | .checkWitnesses _ _ _, _, after => after = before
  | .saveSyncProgress _ _ _, _, after => after = before
  | .scanQueueExtrema, extrema, after =>
    extrema = before.scanQueue.scanQueueExtrema ∧ after = before
  | .historicExtrema, extrema, after =>
    extrema = before.scanQueue.historicExtrema ∧ after = before
  | .nextFoundNoteRange, row, after =>
    row = before.scanQueue.nextFoundNoteRange ∧ after = before
  | .planMerge priority rangeStart rangeEnd, plan, after =>
    plan = before.scanQueue.planMerge priority rangeStart rangeEnd ∧ after = before
  | .commitMerge priority reason plan, _, after =>
    before.Requeues after (fun now => ScanQueue.commitMerge now priority reason plan)
  | .replaceHistoric rangeStart rangeEnd reason, _, after =>
    before.Requeues after (fun now => ScanQueue.replaceHistoric now rangeStart rangeEnd reason)
  | .markInProgress id, _, after =>
    before.Requeues after (fun now queue => .ok (queue.markInProgress now id))
  | .markFoundNoteDoneThrough endExclusive, _, after =>
    before.Requeues after (fun now => ScanQueue.markFoundNoteDoneThrough now endExclusive)
  | .loadState, row, after => row = before.spendabilityState ∧ after = before
  | .markSyncFinalizing targetHeight anchorHeight, _, after =>
    before.Updates after
      (fun now => SpendabilityStateRow.markSyncFinalizing now targetHeight anchorHeight)
  | .markValidated targetHeight anchorHeight, _, after =>
    before.Updates after
      (fun now => SpendabilityStateRow.markValidated now targetHeight anchorHeight)
  | .markRepairPendingWithoutEnqueue fromHeight reasonCode, _, after =>
    before.Updates after
      (fun now => SpendabilityStateRow.markRepairPendingWithoutEnqueue now fromHeight reasonCode)

/-- What running a statement can do: fail and change nothing, or succeed. -/
def Executes (before : RepairTables) (statement : RepairStatement) :
    statement.Reply → RepairTables → Prop
  | .error _, after => after = before
  | .ok answer, after => before.Succeeds statement answer after

end RepairTables

/-! ## The calls -/

/-- A call that returns an `α` or stops at the first error it does not ignore. -/
abbrev RepairM : Type → Type :=
  ExceptT StorageError (Prog RepairStatement RepairStatement.Reply)

namespace RepairM

/-- One statement, with `?`. -/
def query (statement : RepairStatement) : RepairM statement.Answer :=
  ExceptT.mk (Prog.call statement)

/-- `let _ = …`. -/
def ignore {α : Type} (call : RepairM α) : RepairM Unit :=
  ExceptT.mk (call.run >>= fun _ => pure (.ok ()))

def unwrapOr {α : Type} (fallback : α) (call : RepairM α) : RepairM α :=
  ExceptT.mk (call.run >>= fun result => pure (.ok (result.toOption.getD fallback)))

/-- A conversion before the next statement. -/
def convert (value : Nat) : RepairM Nat := ExceptT.mk (pure (toSqlI64 value))

end RepairM

open RepairM

/-- `SPENDABILITY_REASON_ERR_WITNESS_REPAIR_QUEUED`. -/
def errWitnessRepairQueued : String := "ERR_WITNESS_REPAIR_QUEUED"

/-- `SPENDABILITY_MIN_CONFIRMATIONS`. -/
def spendabilityMinConfirmations : Nat := 1

/-- `load_state().unwrap_or_default()`. -/
def loadStateOrDefault (now : String) : RepairM SpendabilityStateRow :=
  unwrapOr (.default now) (query .loadState)

/-- `queue_range`: the `SELECT` and the transaction are two statements. -/
def queueRangeCall (rangeStart rangeEnd : Nat) (priority : Int) (reason : Option String) :
    RepairM Unit := do
  if rangeStart ≥ rangeEnd then
    return ()
  let rangeStart ← convert rangeStart
  let rangeEnd ← convert rangeEnd
  let plan ← query (.planMerge priority rangeStart rangeEnd)
  if plan.alreadyCovered rangeStart rangeEnd then
    return ()
  query (.commitMerge priority reason plan)

/-- `queue_repair_range`: the row first, then the queue. -/
def queueRepairRangeCall (fromHeight rangeEndExclusive : Nat) (reasonCode : String) :
    RepairM Unit := do
  let queueStart := max fromHeight 1
  let queueEnd := max rangeEndExclusive (saturatingAdd queueStart 1)
  query (.markRepairPendingWithoutEnqueue queueStart reasonCode)
  queueRangeCall queueStart queueEnd scanPriorityFoundNote (some reasonCode)

/-- `record_historic_scanned_range`. -/
def recordHistoricScannedRangeCall (rangeStart rangeEnd : Nat) (reason : Option String) :
    RepairM Unit := do
  if rangeStart ≥ rangeEnd then
    return ()
  let rangeStart ← convert rangeStart
  let rangeEnd ← convert rangeEnd
  let extrema ← query .historicExtrema
  let existing := extrema.getD (rangeStart, rangeEnd)
  query (.replaceHistoric (min existing.1 rangeStart) (max existing.2 rangeEnd) reason)

def snapToCheckpointForTable (table : CheckpointTable) (ceiling floor : Nat) :
    RepairM (Option Nat) :=
  if ceiling ≤ u32Max then
    query (.maxCheckpoint table ceiling (if floor ≤ u32Max then floor else 0))
  else pure none

/-- `snap_to_checkpoint`: the lower of the two pools' checkpoints. -/
def snapToCheckpoint (ceiling floor : Nat) : RepairM (Option Nat) := do
  let saplingMax ← snapToCheckpointForTable .saplingTreeCheckpoints ceiling floor
  let orchardMax ← snapToCheckpointForTable .orchardTreeCheckpoints ceiling floor
  match saplingMax, orchardMax with
  | some s, some o => return some (min s o)
  | some s, none => return some s
  | none, some o => return some o
  | none, none => return none

def getTargetAndAnchorHeightsForAccount (minConfirmations : Nat) (accountId : Int) :
    RepairM (Option (Nat × Nat)) := do
  let minConfirmations := max minConfirmations 1
  match ← query .scanQueueExtrema with
  | none => return none
  | some (minHeight, maxHeight) =>
    let targetHeight := saturatingAdd maxHeight 1
    let birthday ← query (.birthdayHeightForAccount accountId)
    let anchorFloor := max (max minHeight 1) (max birthday 1)
    let idealAnchor := max (targetHeight - minConfirmations) anchorFloor
    if idealAnchor > targetHeight then
      return none
    let snapped ← snapToCheckpoint idealAnchor anchorFloor
    let anchorHeight := snapped.getD idealAnchor
    if anchorHeight > targetHeight then
      return none
    return some (targetHeight, anchorHeight)

def markSyncFinalizingWithoutScanExtrema : RepairM Unit := do
  let state ← query .loadState
  if state.requiredRescanFromHeight = 0 ∧ state.repairQueued = false then
    query (.markSyncFinalizing state.targetHeight state.anchorHeight)

structure WitnessCheckDbOutcome where
  repairRange : Option (Nat × Nat)
  checked : Bool
deriving DecidableEq, Repr

/-- The row says that this anchor epoch is validated already. -/
def validatedAlready (state : SpendabilityStateRow) (anchorHeight : Nat) : Bool :=
  state.spendable && !state.rescanRequired && !state.repairQueued &&
    state.reasonCode == "OK" && decide (state.validatedAnchorHeight ≥ anchorHeight)

/-- The branch of `check_witnesses_with_db` without repair ranges. The last read of the queue
is the one its log line makes. -/
def settleWithoutRepairs (targetHeight anchorHeight currentHeight : Nat) :
    RepairM WitnessCheckDbOutcome := do
  let doneThrough := max (saturatingAdd anchorHeight 1) (saturatingAdd currentHeight 1)
  ignore (query (.markFoundNoteDoneThrough doneThrough))
  match ← query .nextFoundNoteRange with
  | some nextRow =>
    query (.markRepairPendingWithoutEnqueue (max nextRow.rangeStart 1)
      errWitnessRepairQueued)
  | none => query (.markValidated targetHeight anchorHeight)
  let _ ← query .nextFoundNoteRange
  return ⟨none, true⟩

/-- The loop of `check_witnesses_with_db` over the repair ranges. -/
def queueRepairRanges (walletBirthday : Nat) :
    List (Nat × Nat) → Nat → Nat → RepairM (Nat × Nat)
  | [], queuedStart, queuedEnd => return (queuedStart, queuedEnd)
  | (fromHeight, rangeEndExclusive) :: ranges, queuedStart, queuedEnd => do
    let start := max (max fromHeight walletBirthday) 1
    let stop := max rangeEndExclusive (saturatingAdd start 1)
    queueRepairRangeCall start stop errWitnessRepairQueued
    queueRepairRanges walletBirthday ranges (min queuedStart start) (max queuedEnd stop)

/-- The branch of `check_witnesses_with_db` that queues what the check reported. -/
def queueReportedRepairs (repairRanges : List (Nat × Nat))
    (walletBirthday anchorHeight currentHeight : Nat) : RepairM WitnessCheckDbOutcome := do
  let (queuedStart, queuedEnd) ← queueRepairRanges walletBirthday repairRanges u64Max
    (saturatingAdd (max anchorHeight currentHeight) 1)
  let queuedStart := if queuedStart = u64Max then max walletBirthday 1 else queuedStart
  query (.markRepairPendingWithoutEnqueue queuedStart errWitnessRepairQueued)
  return ⟨some (queuedStart, queuedEnd), true⟩

def checkWitnessesWithDb (now : String) (accountId : Int) (currentHeight : Nat)
    (alreadyChecked : Bool) : RepairM WitnessCheckDbOutcome := do
  let birthday ← query (.walletBirthdayHeight accountId)
  let walletBirthday := max (birthday.getD 1) 1
  match ← getTargetAndAnchorHeightsForAccount spendabilityMinConfirmations accountId with
  | none =>
    markSyncFinalizingWithoutScanExtrema
    return ⟨none, false⟩
  | some (target, anchor) =>
    let targetHeight := max target 1
    let anchorHeight := max anchor 1
    let state ← loadStateOrDefault now
    if state.rescanRequired then
      return ⟨none, false⟩
    if alreadyChecked && validatedAlready state anchorHeight then
      return ⟨none, false⟩
    let repairRanges ← query (.checkWitnesses accountId anchorHeight walletBirthday)
    if repairRanges.isEmpty then
      settleWithoutRepairs targetHeight anchorHeight currentHeight
    else
      queueReportedRepairs repairRanges walletBirthday anchorHeight currentHeight

/-- The part of `save_sync_state_with_db` that keeps the spendability row in step. -/
def settleProgress (now : String) (localHeight computedTarget computedAnchor : Nat) :
    RepairM Unit := do
  let nextFoundNoteRow ← query .nextFoundNoteRange
  let currentState ← loadStateOrDefault now
  match nextFoundNoteRow with
  | some row =>
    query (.markRepairPendingWithoutEnqueue (max row.rangeStart 1) errWitnessRepairQueued)
  | none =>
    let atOrPastTarget := saturatingAdd localHeight 1 ≥ computedTarget
    let validatedForAnchor :=
      currentState.spendable = true ∧ currentState.validatedAnchorHeight ≥ computedAnchor
    let recentlyValidated :=
      currentState.spendable = true ∧ currentState.validatedAnchorHeight > 0 ∧
        computedAnchor - currentState.validatedAnchorHeight ≤ spendabilityMinConfirmations
    if (¬ atOrPastTarget ∨ ¬ validatedForAnchor) ∧ ¬ recentlyValidated then
      query (.markSyncFinalizing computedTarget computedAnchor)

def saveSyncStateWithDb (now : String) (accountId : Int)
    (birthdayHeight localHeight targetHeight lastCheckpoint : Nat)
    (includeAuxStateUpdate : Bool) : RepairM Unit := do
  query (.saveSyncProgress localHeight targetHeight lastCheckpoint)
  if !includeAuxStateUpdate then
    return ()
  let historicStart := max birthdayHeight 1
  let historicEnd := saturatingAdd localHeight 1
  recordHistoricScannedRangeCall historicStart (max historicEnd (saturatingAdd historicStart 1))
    (some "historic_sync_progress")
  ignore (query (.markFoundNoteDoneThrough (saturatingAdd localHeight 1)))
  match ← getTargetAndAnchorHeightsForAccount spendabilityMinConfirmations accountId with
  | some (computedTarget, computedAnchor) =>
    settleProgress now localHeight computedTarget computedAnchor
  | none => markSyncFinalizingWithoutScanExtrema

def activateQueuedFoundNoteRangeWithDb : RepairM (Option (Nat × Nat)) := do
  match ← query .nextFoundNoteRange with
  | none => return none
  | some row =>
    if row.status = .pending then
      query (.markInProgress row.id)
    let rangeStart := max row.rangeStart 1
    let rangeEndExclusive := max row.rangeEnd (saturatingAdd rangeStart 1)
    query (.markRepairPendingWithoutEnqueue rangeStart errWitnessRepairQueued)
    return some (rangeStart, rangeEndExclusive)

/-- One of the four calls, with its arguments. -/
inductive RepairCall where
  | checkWitnesses (now : String) (accountId : Int) (currentHeight : Nat) (alreadyChecked : Bool)
  | saveSyncState (now : String) (accountId : Int)
      (birthdayHeight localHeight targetHeight lastCheckpoint : Nat)
      (includeAuxStateUpdate : Bool)
  | activateQueuedFoundNoteRange
  | queueRepairRange (fromHeight rangeEndExclusive : Nat) (reasonCode : String)

/-- What a call runs; its result goes back to the caller and is not followed further. -/
def RepairCall.program : RepairCall → Prog RepairStatement RepairStatement.Reply Unit
  | checkWitnesses now accountId currentHeight alreadyChecked => do
    let _ ← (checkWitnessesWithDb now accountId currentHeight alreadyChecked).run
    return ()
  | saveSyncState now accountId birthdayHeight localHeight targetHeight lastCheckpoint
      includeAuxStateUpdate => do
    let _ ← (saveSyncStateWithDb now accountId birthdayHeight localHeight targetHeight
      lastCheckpoint includeAuxStateUpdate).run
    return ()
  | activateQueuedFoundNoteRange => do
    let _ ← activateQueuedFoundNoteRangeWithDb.run
    return ()
  | queueRepairRange fromHeight rangeEndExclusive reasonCode => do
    let _ ← (queueRepairRangeCall fromHeight rangeEndExclusive reasonCode).run
    return ()

/-! ## Calls that are not interrupted

On a database that answers every statement, a call that runs by itself does what the storage
model says it does. -/

/-- What the statements on other tables read. -/
structure OtherTables where
  walletBirthday : Option Nat
  accountBirthday : Nat
  maxCheckpoint : Option Nat
  repairRanges : List (Nat × Nat)

namespace RepairTables

/-- A write to the queue, rolled back when it is refused. -/
def requeue (tables : RepairTables) (result : Except StorageError ScanQueue) :
    Except StorageError Unit × RepairTables :=
  match result with
  | .ok queue => (.ok (), { tables with scanQueue := queue })
  | .error e => (.error e, tables)

def update (tables : RepairTables) (result : Except StorageError SpendabilityStateRow) :
    Except StorageError Unit × RepairTables :=
  match result with
  | .ok row => (.ok (), { tables with spendabilityState := row })
  | .error e => (.error e, tables)

/-- The reply of a database on which no statement fails by itself. -/
def answer (other : OtherTables) (now : String) (tables : RepairTables) :
    (statement : RepairStatement) → statement.Reply × RepairTables
  | .walletBirthdayHeight _ => (.ok other.walletBirthday, tables)
  | .birthdayHeightForAccount _ => (.ok other.accountBirthday, tables)
  | .maxCheckpoint _ _ _ => (.ok other.maxCheckpoint, tables)
  | .checkWitnesses _ _ _ => (.ok other.repairRanges, tables)
  | .saveSyncProgress _ _ _ => (.ok (), tables)
  | .scanQueueExtrema => (.ok tables.scanQueue.scanQueueExtrema, tables)
  | .historicExtrema => (.ok tables.scanQueue.historicExtrema, tables)
  | .nextFoundNoteRange => (.ok tables.scanQueue.nextFoundNoteRange, tables)
  | .planMerge priority rangeStart rangeEnd =>
    (.ok (tables.scanQueue.planMerge priority rangeStart rangeEnd), tables)
  | .commitMerge priority reason plan =>
    tables.requeue (tables.scanQueue.commitMerge now priority reason plan)
  | .replaceHistoric rangeStart rangeEnd reason =>
    tables.requeue (tables.scanQueue.replaceHistoric now rangeStart rangeEnd reason)
  | .markInProgress id => tables.requeue (.ok (tables.scanQueue.markInProgress now id))
  | .markFoundNoteDoneThrough endExclusive =>
    tables.requeue (tables.scanQueue.markFoundNoteDoneThrough now endExclusive)
  | .loadState => (.ok tables.spendabilityState, tables)
  | .markSyncFinalizing targetHeight anchorHeight =>
    tables.update (tables.spendabilityState.markSyncFinalizing now targetHeight anchorHeight)
  | .markValidated targetHeight anchorHeight =>
    tables.update (tables.spendabilityState.markValidated now targetHeight anchorHeight)
  | .markRepairPendingWithoutEnqueue fromHeight reasonCode =>
    tables.update
      (tables.spendabilityState.markRepairPendingWithoutEnqueue now fromHeight reasonCode)

theorem requeue_cases {tables : RepairTables} {result : Except StorageError ScanQueue}
    {P : Except StorageError Unit → RepairTables → Prop}
    (hok : ∀ queue, result = .ok queue → P (.ok ()) { tables with scanQueue := queue })
    (herror : ∀ e, P (.error e) tables) :
    P (tables.requeue result).1 (tables.requeue result).2 := by
  cases result with
  | ok queue => exact hok queue rfl
  | error e => exact herror e

theorem update_cases {tables : RepairTables} {result : Except StorageError SpendabilityStateRow}
    {P : Except StorageError Unit → RepairTables → Prop}
    (hok : ∀ row, result = .ok row → P (.ok ()) { tables with spendabilityState := row })
    (herror : ∀ e, P (.error e) tables) :
    P (tables.update result).1 (tables.update result).2 := by
  cases result with
  | ok row => exact hok row rfl
  | error e => exact herror e

/-- These replies are among those a statement can give. -/
theorem executes_answer (other : OtherTables) (now : String) (tables : RepairTables)
    (statement : RepairStatement) :
    tables.Executes statement (tables.answer other now statement).1
      (tables.answer other now statement).2 := by
  cases statement with
  | walletBirthdayHeight | birthdayHeightForAccount | maxCheckpoint | checkWitnesses
  | saveSyncProgress => rfl
  | scanQueueExtrema | historicExtrema | nextFoundNoteRange | planMerge | loadState =>
    exact ⟨rfl, rfl⟩
  | commitMerge priority reason plan =>
    exact requeue_cases (P := tables.Executes (.commitMerge priority reason plan))
      (fun queue h => ⟨now, queue, h, rfl⟩) (fun _ => rfl)
  | replaceHistoric rangeStart rangeEnd reason =>
    exact requeue_cases (P := tables.Executes (.replaceHistoric rangeStart rangeEnd reason))
      (fun queue h => ⟨now, queue, h, rfl⟩) (fun _ => rfl)
  | markInProgress id =>
    exact requeue_cases (P := tables.Executes (.markInProgress id))
      (fun queue h => ⟨now, queue, h, rfl⟩) (fun _ => rfl)
  | markFoundNoteDoneThrough endExclusive =>
    exact requeue_cases (P := tables.Executes (.markFoundNoteDoneThrough endExclusive))
      (fun queue h => ⟨now, queue, h, rfl⟩) (fun _ => rfl)
  | markSyncFinalizing targetHeight anchorHeight =>
    exact update_cases (P := tables.Executes (.markSyncFinalizing targetHeight anchorHeight))
      (fun row h => ⟨now, row, h, rfl⟩) (fun _ => rfl)
  | markValidated targetHeight anchorHeight =>
    exact update_cases (P := tables.Executes (.markValidated targetHeight anchorHeight))
      (fun row h => ⟨now, row, h, rfl⟩) (fun _ => rfl)
  | markRepairPendingWithoutEnqueue fromHeight reasonCode =>
    exact update_cases
      (P := tables.Executes (.markRepairPendingWithoutEnqueue fromHeight reasonCode))
      (fun row h => ⟨now, row, h, rfl⟩) (fun _ => rfl)

end RepairTables

end StashiWallet
