import StashiWallet.Runs
import StashiWallet.WalletDb

/-!
# Spendability transitions on the database

The storage methods as calls on the whole database, and sequences of them interleaved with
truncations. Two methods write the scan queue after the row: `queueRepair` computes the end
of its range from the row and the queue, and both enqueue. They can fail after the row is
written, and the row then stays written.

None of this feeds back into the row. `rowAfter` gives the row after a call from the row
before it, and `step_row` says the database agrees, so what holds along every sequence of
row updates holds along every sequence of calls.
-/

namespace StashiWallet

namespace WalletDb

/-- The single `UPDATE` of a spendability transition, or nothing when it was refused. -/
def updateSpendability (db : WalletDb) (row : Except StorageError SpendabilityStateRow) :
    WalletDb :=
  { db with spendabilityState := settle db.spendabilityState row }

/-- `queue_repair_range`: the row first, then the queue. -/
def queueRepairRange (now : String) (fromHeight rangeEndExclusive : Nat) (reasonCode : String)
    (db : WalletDb) : Except StorageError Unit × WalletDb :=
  let queueStart := max fromHeight 1
  let queueEnd := max rangeEndExclusive (saturatingAdd queueStart 1)
  match db.spendabilityState.markRepairPendingWithoutEnqueue now queueStart reasonCode with
  | .error e => (.error e, db)
  | .ok row =>
    let marked := { db with spendabilityState := row }
    match marked.scanQueue.queueFoundNoteRange now queueStart queueEnd (some reasonCode) with
    | .error e => (.error e, marked)
    | .ok queue => (.ok (), { marked with scanQueue := queue })

/-- `queue_repair`: a range that reaches past every known height. -/
def queueRepair (now : String) (fromHeight : Nat) (reasonCode : String) (db : WalletDb) :
    Except StorageError Unit × WalletDb :=
  let queueStart := max fromHeight 1
  let previousState := db.spendabilityState
  let queueExtremaEnd := (db.scanQueue.scanQueueExtrema.map
    (fun extrema => saturatingAdd extrema.2 1)).getD 0
  let queueEnd :=
    max (max (saturatingAdd (max previousState.targetHeight previousState.anchorHeight) 1)
      queueExtremaEnd) (saturatingAdd queueStart 1)
  db.queueRepairRange now queueStart queueEnd reasonCode

/-- `complete_required_rescan`: whether the obligation was completed. -/
def completeRequiredRescan (now : String) (expectedGeneration replayedFromHeight : Nat)
    (db : WalletDb) : Except StorageError Bool × WalletDb :=
  match db.spendabilityState.completeRequiredRescan now expectedGeneration replayedFromHeight with
  | .error e => (.error e, db)
  | .ok (changed, row) => (.ok changed, { db with spendabilityState := row })

end WalletDb

/-- One call: a spendability transition or a truncation, with its clock reading. -/
inductive SpendabilityCall where
  | recordKnownSyncHeight (now : String) (height : Nat)
  | beginRescan (now : String) (targetHeight anchorHeight : Nat) (reasonCode : String)
  | markSyncInterrupted (now : String)
  | markRescanRequired (now : String) (reasonCode : String)
  | completeRequiredRescan (now : String) (expectedGeneration replayedFromHeight : Nat)
  | markSyncFinalizing (now : String) (targetHeight anchorHeight : Nat)
  | markValidated (now : String) (targetHeight anchorHeight : Nat)
  | queueRepair (now : String) (fromHeight : Nat) (reasonCode : String)
  | queueRepairRange (now : String) (fromHeight rangeEndExclusive : Nat) (reasonCode : String)
  | markRepairPendingWithoutEnqueue (now : String) (fromHeight : Nat) (reasonCode : String)
  | truncateAboveHeight (now : String) (height : Nat)

namespace SpendabilityCall

def step (db : WalletDb) : SpendabilityCall → WalletDb
  | .recordKnownSyncHeight now height =>
    db.updateSpendability
      (db.spendabilityState.recordKnownSyncHeight now height)
  | .beginRescan now targetHeight anchorHeight reasonCode =>
    db.updateSpendability
      (db.spendabilityState.beginRescan now targetHeight anchorHeight reasonCode)
  | .markSyncInterrupted now =>
    { db with spendabilityState := db.spendabilityState.markSyncInterrupted now }
  | .markRescanRequired now reasonCode =>
    { db with spendabilityState := db.spendabilityState.markRescanRequired now reasonCode }
  | .completeRequiredRescan now expectedGeneration replayedFromHeight =>
    (db.completeRequiredRescan now expectedGeneration replayedFromHeight).2
  | .markSyncFinalizing now targetHeight anchorHeight =>
    db.updateSpendability
      (db.spendabilityState.markSyncFinalizing now targetHeight anchorHeight)
  | .markValidated now targetHeight anchorHeight =>
    db.updateSpendability
      (db.spendabilityState.markValidated now targetHeight anchorHeight)
  | .queueRepair now fromHeight reasonCode => (db.queueRepair now fromHeight reasonCode).2
  | .queueRepairRange now fromHeight rangeEndExclusive reasonCode =>
    (db.queueRepairRange now fromHeight rangeEndExclusive reasonCode).2
  | .markRepairPendingWithoutEnqueue now fromHeight reasonCode =>
    db.updateSpendability
      (db.spendabilityState.markRepairPendingWithoutEnqueue now fromHeight reasonCode)
  | .truncateAboveHeight now height =>
    match db.truncateAboveHeight now height with
    | .ok (_, truncated) => truncated
    | .error _ => db

/-- The call's effect on the row alone. -/
def rowAfter (row : SpendabilityStateRow) : SpendabilityCall → SpendabilityStateRow
  | .recordKnownSyncHeight now height => settle row (row.recordKnownSyncHeight now height)
  | .beginRescan now targetHeight anchorHeight reasonCode =>
    settle row (row.beginRescan now targetHeight anchorHeight reasonCode)
  | .markSyncInterrupted now => row.markSyncInterrupted now
  | .markRescanRequired now reasonCode => row.markRescanRequired now reasonCode
  | .completeRequiredRescan now expectedGeneration replayedFromHeight =>
    settle row (Prod.snd <$>
      row.completeRequiredRescan now expectedGeneration replayedFromHeight)
  | .markSyncFinalizing now targetHeight anchorHeight =>
    settle row (row.markSyncFinalizing now targetHeight anchorHeight)
  | .markValidated now targetHeight anchorHeight =>
    settle row (row.markValidated now targetHeight anchorHeight)
  | .queueRepair now fromHeight reasonCode =>
    settle row (row.markRepairPendingWithoutEnqueue now fromHeight reasonCode)
  | .queueRepairRange now fromHeight _ reasonCode =>
    settle row (row.markRepairPendingWithoutEnqueue now fromHeight reasonCode)
  | .markRepairPendingWithoutEnqueue now fromHeight reasonCode =>
    settle row (row.markRepairPendingWithoutEnqueue now fromHeight reasonCode)
  | .truncateAboveHeight now height =>
    if height + 1 ≤ i64Max then row.truncateAboveHeight now height else row

/-- Raising the start to one twice is raising it once. -/
theorem markRepairPending_max (now : String) (fromHeight : Nat) (reasonCode : String)
    (row : SpendabilityStateRow) :
    row.markRepairPendingWithoutEnqueue now (max fromHeight 1) reasonCode
      = row.markRepairPendingWithoutEnqueue now fromHeight reasonCode := by
  simp [SpendabilityStateRow.markRepairPendingWithoutEnqueue]

theorem queueRepairRange_row (now : String) (fromHeight rangeEndExclusive : Nat)
    (reasonCode : String) (db : WalletDb) :
    (db.queueRepairRange now fromHeight rangeEndExclusive reasonCode).2.spendabilityState
      = settle db.spendabilityState
        (db.spendabilityState.markRepairPendingWithoutEnqueue now fromHeight reasonCode) := by
  unfold WalletDb.queueRepairRange
  dsimp only
  rw [markRepairPending_max]
  split
  · rename_i hrow
    rw [hrow]
    rfl
  · rename_i row hrow
    rw [hrow]
    split <;> rfl

/-- **The database moves the row as the row moves by itself.** -/
theorem step_row (db : WalletDb) (call : SpendabilityCall) :
    (step db call).spendabilityState = rowAfter db.spendabilityState call := by
  cases call with
  | recordKnownSyncHeight now height => rfl
  | beginRescan now targetHeight anchorHeight reasonCode => rfl
  | markSyncInterrupted now => rfl
  | markRescanRequired now reasonCode => rfl
  | completeRequiredRescan now expectedGeneration replayedFromHeight =>
    simp only [step, rowAfter, WalletDb.completeRequiredRescan]
    split
    · rename_i h
      rw [h]
      rfl
    · rename_i h
      rw [h]
      rfl
  | markSyncFinalizing now targetHeight anchorHeight => rfl
  | markValidated now targetHeight anchorHeight => rfl
  | queueRepair now fromHeight reasonCode =>
    simp only [step, rowAfter, WalletDb.queueRepair, queueRepairRange_row, markRepairPending_max]
  | queueRepairRange now fromHeight rangeEndExclusive reasonCode =>
    exact queueRepairRange_row now fromHeight rangeEndExclusive reasonCode db
  | markRepairPendingWithoutEnqueue now fromHeight reasonCode => rfl
  | truncateAboveHeight now height =>
    simp only [step, rowAfter]
    split
    · rename_i returned truncated h
      obtain ⟨hfits, hresult⟩ := truncateAboveHeight_eq_ok.mp h
      rw [if_pos hfits, (Prod.mk.inj hresult).2]
      rfl
    · rename_i e h
      have hfits : ¬ height + 1 ≤ i64Max := by
        intro hfits
        rw [truncateAboveHeight_eq_ok.mpr ⟨hfits, rfl⟩] at h
        cases h
      rw [if_neg hfits]

theorem throughout_row {P : SpendabilityStateRow → Prop} {db : WalletDb}
    {calls : List SpendabilityCall} :
    Runs.Throughout step (fun db => P db.spendabilityState) db calls ↔
      Runs.Throughout rowAfter P db.spendabilityState calls :=
  Runs.throughout_map step_row

end SpendabilityCall

end StashiWallet
