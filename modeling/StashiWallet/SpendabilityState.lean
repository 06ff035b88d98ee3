import StashiWallet.Sql

/-!
# The spendability row

The wallet keeps one row that says whether it may spend and, if not, what stands in the
way: a required rescan, a key-import replay obligation, a queued witness repair, or an
interrupted sync. This module embeds the row and the single `UPDATE` each storage method
runs on it, column by column. A method converts its arguments first and writes only if
they all fit, so a refused call leaves the row as it was.

The clock is an argument: `now` is the timestamp the method stores in `updated_at`. The
methods that also write the scan queue are completed where the database is assembled;
here stands the part of them that touches the row.
-/

namespace StashiWallet

structure SpendabilityStateRow where
  spendable : Bool
  rescanRequired : Bool
  requiredRescanFromHeight : Nat
  keyImportGeneration : Nat
  targetHeight : Nat
  anchorHeight : Nat
  validatedAnchorHeight : Nat
  repairQueued : Bool
  repairFromHeight : Nat
  syncInterrupted : Bool
  reasonCode : String
  updatedAt : String
deriving DecidableEq, Repr

namespace SpendabilityStateRow

/-- `SpendabilityStateRow::default`, the row a fresh wallet starts from. -/
def default (now : String) : SpendabilityStateRow where
  spendable := false
  rescanRequired := true
  requiredRescanFromHeight := 0
  keyImportGeneration := 0
  targetHeight := 0
  anchorHeight := 0
  validatedAnchorHeight := 0
  repairQueued := false
  repairFromHeight := 0
  syncInterrupted := false
  reasonCode := "ERR_RESCAN_REQUIRED"
  updatedAt := now

def recordKnownSyncHeight (now : String) (height : Nat) (row : SpendabilityStateRow) :
    Except StorageError SpendabilityStateRow := do
  if height = 0 then
    return row
  let height ← toSqlI64 height
  return { row with
    targetHeight := if row.targetHeight > height then row.targetHeight else height
    anchorHeight := if row.anchorHeight = 0 then height else row.anchorHeight
    updatedAt := now }

/-- `begin_rescan`. The latch `syncInterrupted` is released; `validatedAnchorHeight` is
kept. -/
def beginRescan (now : String) (targetHeight anchorHeight : Nat) (reasonCode : String)
    (row : SpendabilityStateRow) : Except StorageError SpendabilityStateRow := do
  let targetHeight ← toSqlI64 targetHeight
  let anchorHeight ← toSqlI64 anchorHeight
  return { row with
    spendable := false
    rescanRequired := true
    targetHeight := if row.targetHeight > targetHeight then row.targetHeight else targetHeight
    anchorHeight := anchorHeight
    repairQueued := false
    repairFromHeight := 0
    syncInterrupted := false
    reasonCode := if row.requiredRescanFromHeight > 0 then row.reasonCode else reasonCode
    updatedAt := now }

def markSyncInterrupted (now : String) (row : SpendabilityStateRow) : SpendabilityStateRow :=
  { row with
    spendable := false
    syncInterrupted := true
    reasonCode :=
      if row.rescanRequired = false ∧ row.requiredRescanFromHeight = 0 ∧
          row.repairQueued = false then
        "ERR_SYNC_FINALIZING"
      else row.reasonCode
    updatedAt := now }

def markRescanRequired (now : String) (reasonCode : String) (row : SpendabilityStateRow) :
    SpendabilityStateRow :=
  { row with
    spendable := false
    rescanRequired := true
    repairQueued := false
    repairFromHeight := 0
    reasonCode := reasonCode
    updatedAt := now }

/-- The `WHERE` clause of `complete_required_rescan`. -/
def rescanCompletedBy (row : SpendabilityStateRow)
    (expectedGeneration replayedFromHeight : Nat) : Prop :=
  row.rescanRequired = true ∧ row.requiredRescanFromHeight > 0 ∧
    row.keyImportGeneration = expectedGeneration ∧
    replayedFromHeight ≤ row.requiredRescanFromHeight

instance (row : SpendabilityStateRow) (expectedGeneration replayedFromHeight : Nat) :
    Decidable (row.rescanCompletedBy expectedGeneration replayedFromHeight) :=
  inferInstanceAs (Decidable (_ ∧ _ ∧ _ ∧ _))

/-- The stored validated anchor is at or above a non-zero stored anchor, the height test of
`complete_required_rescan`. -/
def anchorValidated (row : SpendabilityStateRow) : Prop :=
  row.anchorHeight > 0 ∧ row.validatedAnchorHeight ≥ row.anchorHeight

instance (row : SpendabilityStateRow) : Decidable row.anchorValidated :=
  inferInstanceAs (Decidable (_ ∧ _))

/-- `complete_required_rescan`: whether the row was changed, and the row. -/
def completeRequiredRescan (now : String) (expectedGeneration replayedFromHeight : Nat)
    (row : SpendabilityStateRow) : Except StorageError (Bool × SpendabilityStateRow) := do
  let expectedGeneration ← toSqlI64 expectedGeneration
  let replayedFromHeight ← toSqlI64 replayedFromHeight
  if row.rescanCompletedBy expectedGeneration replayedFromHeight then
    return (true, { row with
      spendable := decide (row.repairQueued = false ∧ row.anchorValidated)
      rescanRequired := false
      requiredRescanFromHeight := 0
      reasonCode :=
        if row.repairQueued then "ERR_WITNESS_REPAIR_QUEUED"
        else if row.anchorValidated then "OK"
        else "ERR_SYNC_FINALIZING"
      updatedAt := now })
  else
    return (false, row)

def markSyncFinalizing (now : String) (targetHeight anchorHeight : Nat)
    (row : SpendabilityStateRow) : Except StorageError SpendabilityStateRow := do
  let targetHeight ← toSqlI64 targetHeight
  let anchorHeight ← toSqlI64 anchorHeight
  return { row with
    spendable := false
    rescanRequired := decide (row.requiredRescanFromHeight > 0)
    targetHeight := targetHeight
    anchorHeight := anchorHeight
    reasonCode :=
      if row.requiredRescanFromHeight > 0 then row.reasonCode
      else if row.repairQueued then "ERR_WITNESS_REPAIR_QUEUED"
      else "ERR_SYNC_FINALIZING"
    updatedAt := now }

def markValidated (now : String) (targetHeight anchorHeight : Nat)
    (row : SpendabilityStateRow) : Except StorageError SpendabilityStateRow := do
  let targetHeight ← toSqlI64 targetHeight
  let anchorHeight ← toSqlI64 anchorHeight
  return { row with
    spendable := !decide (row.requiredRescanFromHeight > 0)
    rescanRequired := decide (row.requiredRescanFromHeight > 0)
    targetHeight := targetHeight
    anchorHeight := anchorHeight
    validatedAnchorHeight := anchorHeight
    repairQueued := false
    repairFromHeight := 0
    syncInterrupted := false
    reasonCode := if row.requiredRescanFromHeight > 0 then row.reasonCode else "OK"
    updatedAt := now }

/-- `mark_repair_pending_without_enqueue`, and the row half of `queue_repair_range`, which
runs the same `UPDATE` before it enqueues. -/
def markRepairPendingWithoutEnqueue (now : String) (fromHeight : Nat) (reasonCode : String)
    (row : SpendabilityStateRow) : Except StorageError SpendabilityStateRow := do
  let fromHeight ← toSqlI64 (max fromHeight 1)
  return { row with
    spendable := false
    rescanRequired := decide (row.requiredRescanFromHeight > 0)
    repairQueued := true
    repairFromHeight :=
      if row.repairFromHeight > 0 ∧ row.repairFromHeight < fromHeight then row.repairFromHeight
      else fromHeight
    reasonCode := if row.requiredRescanFromHeight > 0 then row.reasonCode else reasonCode
    updatedAt := now }

/-- The `UPDATE` of a spending-key import (`import_spending_key_with_rescan` and its
verified sibling): an unfinished replay requirement is never raised. -/
def requireImportReplay (now : String) (birthdayHeight : Nat) (reasonCode : String)
    (row : SpendabilityStateRow) : SpendabilityStateRow :=
  { row with
    spendable := false
    rescanRequired := true
    requiredRescanFromHeight :=
      if row.requiredRescanFromHeight > 0 ∧ row.requiredRescanFromHeight < birthdayHeight then
        row.requiredRescanFromHeight
      else birthdayHeight
    keyImportGeneration := row.keyImportGeneration + 1
    repairQueued := false
    repairFromHeight := 0
    reasonCode := reasonCode
    updatedAt := now }

/-- The row half of `truncate_above_height`: heights are clamped to the cut, except that
a pending rescan keeps its target and its reason. -/
def truncateAboveHeight (now : String) (height : Nat) (row : SpendabilityStateRow) :
    SpendabilityStateRow :=
  { row with
    spendable := false
    targetHeight :=
      if row.rescanRequired then row.targetHeight
      else if row.targetHeight > height then height
      else row.targetHeight
    anchorHeight := if row.anchorHeight > height then height else row.anchorHeight
    validatedAnchorHeight :=
      if row.validatedAnchorHeight > height then height else row.validatedAnchorHeight
    repairQueued := false
    repairFromHeight := 0
    reasonCode := if row.rescanRequired then row.reasonCode else "ERR_SYNC_FINALIZING"
    updatedAt := now }

end SpendabilityStateRow

end StashiWallet
