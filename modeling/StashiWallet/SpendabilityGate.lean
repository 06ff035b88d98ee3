import StashiWallet.ScanQueueCoverage
import StashiWallet.SendFlow
import StashiWallet.SpendabilityRuns

/-!
# The status before a spend and the stored flag

Builders and signers ask for a status that is computed from the heights, the latches and the
scan queue; the flag `spendable` of the row is not read. Every transition that takes the flag
away has to close the computed gate as well. Those that raise a latch or the rescan gate do;
`mark_sync_finalizing` and `truncate_above_height` only move heights, and a queue operation may
take away the last range that kept the gate closed. `status_follows_flag_iff` says of which rows
this is true.
-/

namespace StashiWallet

/-! ## The status -/

structure SpendabilityStatus where
  spendable : Bool
  rescanRequired : Bool
  targetHeight : Nat
  anchorHeight : Nat
  validatedAnchorHeight : Nat
  repairQueued : Bool
  reasonCode : String
deriving DecidableEq, Repr

/-- `load_spendability_status_internal`. -/
def WalletDb.loadSpendabilityStatus (db : WalletDb) : SpendabilityStatus :=
  let state := db.spendabilityState
  let queueHasWork := db.scanQueue.nextFoundNoteRange.isSome
  let repairPending := state.repairQueued || queueHasWork
  let epochOk := state.anchorHeight != 0 && state.validatedAnchorHeight ≥ state.anchorHeight
  let spendable := !state.rescanRequired && !repairPending && !state.syncInterrupted && epochOk
  { spendable
    rescanRequired := state.rescanRequired
    targetHeight := state.targetHeight
    anchorHeight := state.anchorHeight
    validatedAnchorHeight := state.validatedAnchorHeight
    repairQueued := repairPending
    reasonCode :=
      if state.rescanRequired then "ERR_RESCAN_REQUIRED"
      else if repairPending then "ERR_WITNESS_REPAIR_QUEUED"
      else if state.syncInterrupted then "ERR_SYNC_FINALIZING"
      else if spendable then "OK"
      else "ERR_SYNC_FINALIZING" }

section Status

variable {db : WalletDb}

theorem loadSpendabilityStatus_spendable :
    db.loadSpendabilityStatus.spendable = true ↔
      db.spendabilityState.rescanRequired = false ∧ db.spendabilityState.repairQueued = false ∧
        db.scanQueue.nextFoundNoteRange = none ∧ db.spendabilityState.syncInterrupted = false ∧
        db.spendabilityState.anchorValidated := by
  unfold WalletDb.loadSpendabilityStatus SpendabilityStateRow.anchorValidated
  simp only [Bool.and_eq_true, Bool.not_eq_true', Bool.or_eq_false_iff, Option.isSome_eq_false_iff,
    Option.isNone_iff_eq_none, bne_iff_ne, decide_eq_true_eq, Nat.pos_iff_ne_zero]
  tauto

end Status

/-! ## Runs -/

/-- A transition of the row, a truncation, or an operation on the queue. -/
inductive GateCall where
  | transition (call : SpendabilityCall)
  | queue (op : ScanQueue.Op)

def GateCall.step (db : WalletDb) : GateCall → WalletDb
  | .transition call => SpendabilityCall.step db call
  | .queue op => { db with scanQueue := db.scanQueue.step op }

/-- The status reports spendable only if the row does. -/
def WalletDb.StatusFollowsFlag (db : WalletDb) : Prop :=
  db.loadSpendabilityStatus.spendable = true → db.spendabilityState.spendable = true

/-- No latch and no gate of the row stands in the way. -/
def SpendabilityStateRow.Unlatched (row : SpendabilityStateRow) : Prop :=
  row.rescanRequired = false ∧ row.repairQueued = false ∧ row.syncInterrupted = false

/-- The call would open the computed gate over a row whose flag is not, or no longer, set. -/
def GateCall.OpensBehindFlag (db : WalletDb) : GateCall → Prop
  | .transition (.recordKnownSyncHeight _ height) =>
    -- a first anchor, at or below what was validated before
    (db.spendabilityState.spendable = false ∧ db.spendabilityState.Unlatched ∧
      db.scanQueue.nextFoundNoteRange = none) ∧
    db.spendabilityState.anchorHeight = 0 ∧ 0 < height ∧ height ≤ i64Max ∧
    height ≤ db.spendabilityState.validatedAnchorHeight
  | .transition (.markSyncFinalizing _ targetHeight anchorHeight) =>
    (db.spendabilityState.requiredRescanFromHeight = 0 ∧
      db.spendabilityState.repairQueued = false ∧ db.spendabilityState.syncInterrupted = false ∧
      db.scanQueue.nextFoundNoteRange = none) ∧
    targetHeight ≤ i64Max ∧ 0 < anchorHeight ∧ anchorHeight ≤ i64Max ∧
    anchorHeight ≤ db.spendabilityState.validatedAnchorHeight
  | .transition (.truncateAboveHeight _ height) =>
    (db.spendabilityState.rescanRequired = false ∧
      db.spendabilityState.syncInterrupted = false ∧
      (db.scanQueue.deleteWhere (fun row =>
        row.rangeEnd > saturatingAdd height 1)).nextFoundNoteRange = none) ∧
    0 < height ∧ height + 1 ≤ i64Max ∧ 0 < db.spendabilityState.anchorHeight ∧
    min db.spendabilityState.anchorHeight height ≤ db.spendabilityState.validatedAnchorHeight
  | .transition _ => False
  | .queue op =>
    (db.spendabilityState.spendable = false ∧ db.spendabilityState.Unlatched ∧
      db.spendabilityState.anchorValidated) ∧
    (db.scanQueue.step op).nextFoundNoteRange = none

section Runs

variable {db : WalletDb}

theorem statusFollowsFlag_iff : db.StatusFollowsFlag ↔
    ¬ ((db.spendabilityState.spendable = false ∧ db.spendabilityState.Unlatched ∧
      db.scanQueue.nextFoundNoteRange = none) ∧ db.spendabilityState.anchorValidated) := by
  unfold WalletDb.StatusFollowsFlag SpendabilityStateRow.Unlatched
  rw [loadSpendabilityStatus_spendable]
  cases db.spendabilityState.spendable with
  | true => simp
  | false =>
    simp only [Bool.false_eq_true, imp_false, true_and, and_assoc]
    tauto

/-- A row with a latch raised, or the flag set, is not ahead. -/
theorem statusFollowsFlag_of (h : db.spendabilityState.spendable = true ∨
    db.spendabilityState.rescanRequired = true ∨ db.spendabilityState.repairQueued = true ∨
    db.spendabilityState.syncInterrupted = true) : db.StatusFollowsFlag := by
  rw [statusFollowsFlag_iff]
  rintro ⟨⟨hspendable, ⟨hrescan, hrepair, hlatch⟩, -⟩, -⟩
  rcases h with h | h | h | h
  · cases hspendable.symm.trans h
  · cases hrescan.symm.trans h
  · cases hrepair.symm.trans h
  · cases hlatch.symm.trans h

/-- A refused call changes nothing. -/
theorem step_iff_of_same {call : GateCall} (h : db.StatusFollowsFlag) (hsame : call.step db = db)
    (hquiet : ¬ call.OpensBehindFlag db) :
    (call.step db).StatusFollowsFlag ↔ ¬ call.OpensBehindFlag db := by
  rw [hsame]
  exact iff_of_true h hquiet

theorem step_recordKnownSyncHeight (h : db.StatusFollowsFlag) (now : String) (height : Nat) :
    (GateCall.step db (.transition (.recordKnownSyncHeight now height))).StatusFollowsFlag ↔
      ¬ GateCall.OpensBehindFlag db (.transition (.recordKnownSyncHeight now height)) := by
  by_cases hfits : 0 < height ∧ height ≤ i64Max
  · obtain ⟨hpos, hbound⟩ := hfits
    have hstep : GateCall.step db (.transition (.recordKnownSyncHeight now height)) =
        { db with spendabilityState := { db.spendabilityState with
            targetHeight := if db.spendabilityState.targetHeight > height then
              db.spendabilityState.targetHeight else height
            anchorHeight := if db.spendabilityState.anchorHeight = 0 then height
              else db.spendabilityState.anchorHeight
            updatedAt := now } } := by
      unfold GateCall.step SpendabilityCall.step WalletDb.updateSpendability
        SpendabilityStateRow.recordKnownSyncHeight
      dsimp only
      rw [if_neg (by omega), settle_toSqlI64_bind, if_pos hbound]
      rfl
    rw [statusFollowsFlag_iff, hstep]
    unfold GateCall.OpensBehindFlag SpendabilityStateRow.anchorValidated
    dsimp only
    rw [not_iff_not]
    by_cases hanchor : db.spendabilityState.anchorHeight = 0
    · rw [if_pos hanchor]
      constructor
      · rintro ⟨hclear, -, hvalidated⟩
        exact ⟨hclear, hanchor, hpos, hbound, hvalidated⟩
      · rintro ⟨hclear, -, -, -, hvalidated⟩
        exact ⟨hclear, hpos, hvalidated⟩
    · rw [if_neg hanchor]
      refine iff_of_false ?_ (fun hopens => hanchor hopens.2.1)
      exact statusFollowsFlag_iff.mp h
  · refine step_iff_of_same h ?_ (fun hopens => hfits ⟨hopens.2.2.1, hopens.2.2.2.1⟩)
    unfold GateCall.step SpendabilityCall.step WalletDb.updateSpendability
      SpendabilityStateRow.recordKnownSyncHeight
    dsimp only
    split
    · rfl
    · rw [settle_toSqlI64_bind, if_neg (by omega)]

theorem step_markSyncFinalizing (h : db.StatusFollowsFlag) (now : String)
    (targetHeight anchorHeight : Nat) :
    (GateCall.step db
        (.transition (.markSyncFinalizing now targetHeight anchorHeight))).StatusFollowsFlag ↔
      ¬ GateCall.OpensBehindFlag db
        (.transition (.markSyncFinalizing now targetHeight anchorHeight)) := by
  by_cases hfits : targetHeight ≤ i64Max ∧ anchorHeight ≤ i64Max
  · obtain ⟨htarget, hanchor⟩ := hfits
    rw [statusFollowsFlag_iff]
    have hrow : (GateCall.step db (.transition (.markSyncFinalizing now targetHeight
        anchorHeight))).spendabilityState = { db.spendabilityState with
          spendable := false
          rescanRequired := decide (db.spendabilityState.requiredRescanFromHeight > 0)
          targetHeight := targetHeight
          anchorHeight := anchorHeight
          reasonCode :=
            if db.spendabilityState.requiredRescanFromHeight > 0 then
              db.spendabilityState.reasonCode
            else if db.spendabilityState.repairQueued then "ERR_WITNESS_REPAIR_QUEUED"
            else "ERR_SYNC_FINALIZING"
          updatedAt := now } := by
      show settle db.spendabilityState (db.spendabilityState.markSyncFinalizing now targetHeight
        anchorHeight) = _
      unfold SpendabilityStateRow.markSyncFinalizing
      rw [settle_toSqlI64_bind, if_pos htarget, settle_toSqlI64_bind, if_pos hanchor]
      rfl
    have hqueue : (GateCall.step db (.transition (.markSyncFinalizing now targetHeight
        anchorHeight))).scanQueue = db.scanQueue := rfl
    rw [hrow, hqueue]
    unfold GateCall.OpensBehindFlag SpendabilityStateRow.anchorValidated
      SpendabilityStateRow.Unlatched
    dsimp only
    have hnone : ¬ db.spendabilityState.requiredRescanFromHeight > 0 ↔
        db.spendabilityState.requiredRescanFromHeight = 0 := by omega
    rw [not_iff_not, decide_eq_false_iff_not, hnone]
    constructor
    · rintro ⟨⟨-, ⟨hrequired, hrepair, hlatch⟩, hidle⟩, hpos, hvalidated⟩
      exact ⟨⟨hrequired, hrepair, hlatch, hidle⟩, htarget, hpos, hanchor, hvalidated⟩
    · rintro ⟨⟨hrequired, hrepair, hlatch, hidle⟩, -, hpos, -, hvalidated⟩
      exact ⟨⟨rfl, ⟨hrequired, hrepair, hlatch⟩, hidle⟩, hpos, hvalidated⟩
  · refine step_iff_of_same h ?_ (fun hopens => hfits ⟨hopens.2.1, hopens.2.2.2.1⟩)
    have hrow : settle db.spendabilityState (db.spendabilityState.markSyncFinalizing now
        targetHeight anchorHeight) = db.spendabilityState := by
      unfold SpendabilityStateRow.markSyncFinalizing
      rw [settle_toSqlI64_bind]
      split
      · rw [settle_toSqlI64_bind, if_neg (fun hanchor => hfits ⟨‹_›, hanchor⟩)]
      · rfl
    show { db with spendabilityState := _ } = db
    rw [hrow]

theorem step_truncateAboveHeight (h : db.StatusFollowsFlag) (now : String) (height : Nat) :
    (GateCall.step db (.transition (.truncateAboveHeight now height))).StatusFollowsFlag ↔
      ¬ GateCall.OpensBehindFlag db (.transition (.truncateAboveHeight now height)) := by
  by_cases hfits : height + 1 ≤ i64Max
  · have hstep : GateCall.step db (.transition (.truncateAboveHeight now height)) =
        db.truncated now height := by
      unfold GateCall.step SpendabilityCall.step
      dsimp only
      rw [truncateAboveHeight_eq_ok.mpr ⟨hfits, rfl⟩]
    rw [statusFollowsFlag_iff, hstep]
    unfold WalletDb.truncated GateCall.OpensBehindFlag SpendabilityStateRow.truncateAboveHeight
      SpendabilityStateRow.anchorValidated SpendabilityStateRow.Unlatched
    dsimp only
    rw [not_iff_not]
    have hheights : (0 < (if db.spendabilityState.anchorHeight > height then height
        else db.spendabilityState.anchorHeight) ∧
        (if db.spendabilityState.validatedAnchorHeight > height then height
          else db.spendabilityState.validatedAnchorHeight) ≥
          (if db.spendabilityState.anchorHeight > height then height
            else db.spendabilityState.anchorHeight)) ↔
        0 < height ∧ 0 < db.spendabilityState.anchorHeight ∧
          min db.spendabilityState.anchorHeight height ≤
            db.spendabilityState.validatedAnchorHeight := by
      split
      · split
        · omega
        · omega
      · split
        · omega
        · omega
    change _ ∧ 0 < _ ∧ _ ↔ _
    rw [hheights]
    constructor
    · rintro ⟨⟨-, ⟨hrescan, -, hlatch⟩, hidle⟩, hpos, hanchor, hvalidated⟩
      exact ⟨⟨hrescan, hlatch, hidle⟩, hpos, hfits, hanchor, hvalidated⟩
    · rintro ⟨⟨hrescan, hlatch, hidle⟩, hpos, -, hanchor, hvalidated⟩
      exact ⟨⟨rfl, ⟨hrescan, rfl, hlatch⟩, hidle⟩, hpos, hanchor, hvalidated⟩
  · refine step_iff_of_same h ?_ (fun hopens => hfits hopens.2.2.1)
    unfold GateCall.step SpendabilityCall.step
    dsimp only
    split
    · rename_i returned truncated hok
      exact absurd (truncateAboveHeight_eq_ok.mp hok).1 hfits
    · rfl

theorem step_queue (op : ScanQueue.Op) :
    (GateCall.step db (.queue op)).StatusFollowsFlag ↔
      ¬ GateCall.OpensBehindFlag db (.queue op) := by
  rw [statusFollowsFlag_iff]
  unfold GateCall.step GateCall.OpensBehindFlag
  dsimp only
  rw [not_iff_not]
  tauto

/-- A repair request raises its latch, or is refused. -/
theorem markRepairPending_latches (row : SpendabilityStateRow) (now : String) (fromHeight : Nat)
    (reasonCode : String) :
    (∃ e, row.markRepairPendingWithoutEnqueue now fromHeight reasonCode = .error e) ∨
      ∃ next, row.markRepairPendingWithoutEnqueue now fromHeight reasonCode = .ok next ∧
        next.repairQueued = true := by
  unfold SpendabilityStateRow.markRepairPendingWithoutEnqueue toSqlI64 toI64Or
  split
  · exact Or.inr ⟨_, rfl, rfl⟩
  · exact Or.inl ⟨_, rfl⟩

theorem queueRepairRange_latches (db : WalletDb) (now : String)
    (fromHeight rangeEndExclusive : Nat) (reasonCode : String) :
    (db.queueRepairRange now fromHeight rangeEndExclusive reasonCode).2 = db ∨
      (db.queueRepairRange now fromHeight rangeEndExclusive
        reasonCode).2.spendabilityState.repairQueued = true := by
  unfold WalletDb.queueRepairRange
  dsimp only
  rcases markRepairPending_latches db.spendabilityState now (max fromHeight 1) reasonCode with
    ⟨e, hrow⟩ | ⟨next, hrow, hlatch⟩
  · rw [hrow]
    exact Or.inl rfl
  · rw [hrow]
    dsimp only
    split
    · exact Or.inr hlatch
    · exact Or.inr hlatch

/-- **What one call does.** The status follows the flag after a call exactly if the call does not
open the computed gate behind it. -/
theorem GateCall.step_iff (h : db.StatusFollowsFlag) (call : GateCall) :
    (call.step db).StatusFollowsFlag ↔ ¬ call.OpensBehindFlag db := by
  have hlatched : ∀ {next : WalletDb}, next = db ∨ next.spendabilityState.repairQueued = true →
      next.StatusFollowsFlag := by
    rintro next (rfl | hlatch)
    · exact h
    · exact statusFollowsFlag_of (Or.inr (Or.inr (Or.inl hlatch)))
  cases call with
  | queue op => exact step_queue op
  | transition call =>
    cases call with
    | recordKnownSyncHeight now height => exact step_recordKnownSyncHeight h now height
    | beginRescan now targetHeight anchorHeight reasonCode =>
      refine iff_of_true ?_ id
      show WalletDb.StatusFollowsFlag { db with spendabilityState := settle _ _ }
      unfold SpendabilityStateRow.beginRescan
      rw [settle_toSqlI64_bind]
      split
      · rw [settle_toSqlI64_bind]
        split
        · exact statusFollowsFlag_of (Or.inr (Or.inl rfl))
        · exact h
      · exact h
    | markSyncInterrupted now =>
      exact iff_of_true (statusFollowsFlag_of (Or.inr (Or.inr (Or.inr rfl)))) id
    | markRescanRequired now reasonCode =>
      exact iff_of_true (statusFollowsFlag_of (Or.inr (Or.inl rfl))) id
    | completeRequiredRescan now expectedGeneration replayedFromHeight =>
      refine iff_of_true ?_ id
      -- the completion computes the flag from the same heights and the repair latch
      have hrow := SpendabilityCall.step_row db
        (.completeRequiredRescan now expectedGeneration replayedFromHeight)
      have hqueue : (SpendabilityCall.step db (.completeRequiredRescan now expectedGeneration
          replayedFromHeight)).scanQueue = db.scanQueue := by
        unfold SpendabilityCall.step WalletDb.completeRequiredRescan
        dsimp only
        split
        · rfl
        · rfl
      rw [statusFollowsFlag_iff]
      show ¬ (((SpendabilityCall.step db _).spendabilityState.spendable = false ∧
        (SpendabilityCall.step db _).spendabilityState.Unlatched ∧
        (SpendabilityCall.step db _).scanQueue.nextFoundNoteRange = none) ∧
        (SpendabilityCall.step db _).spendabilityState.anchorValidated)
      rw [hrow, hqueue]
      rcases rowAfter_completeRequiredRescan db.spendabilityState now expectedGeneration
        replayedFromHeight with ⟨-, hsame⟩ | ⟨-, reasonCode, hnext⟩
      · rw [hsame]
        exact statusFollowsFlag_iff.mp h
      · rw [hnext]
        rintro ⟨⟨hspendable, ⟨-, hrepair, -⟩, -⟩, hvalidated⟩
        exact of_decide_eq_false hspendable ⟨hrepair, hvalidated⟩
    | markSyncFinalizing now targetHeight anchorHeight =>
      exact step_markSyncFinalizing h now targetHeight anchorHeight
    | markValidated now targetHeight anchorHeight =>
      refine iff_of_true ?_ id
      show WalletDb.StatusFollowsFlag { db with spendabilityState := settle _ _ }
      unfold SpendabilityStateRow.markValidated
      rw [settle_toSqlI64_bind]
      split
      · rw [settle_toSqlI64_bind]
        split
        · refine statusFollowsFlag_of ?_
          show (!decide (db.spendabilityState.requiredRescanFromHeight > 0)) = true ∨
            decide (db.spendabilityState.requiredRescanFromHeight > 0) = true ∨ _
          cases decide (db.spendabilityState.requiredRescanFromHeight > 0) with
          | true => exact Or.inr (Or.inl rfl)
          | false => exact Or.inl rfl
        · exact h
      · exact h
    | queueRepair now fromHeight reasonCode =>
      exact iff_of_true (hlatched (queueRepairRange_latches db now _ _ reasonCode)) id
    | queueRepairRange now fromHeight rangeEndExclusive reasonCode =>
      exact iff_of_true
        (hlatched (queueRepairRange_latches db now fromHeight rangeEndExclusive reasonCode)) id
    | markRepairPendingWithoutEnqueue now fromHeight reasonCode =>
      refine iff_of_true (hlatched ?_) id
      show ({ db with spendabilityState := settle _ _ } : WalletDb) = db ∨ _
      rcases markRepairPending_latches db.spendabilityState now fromHeight reasonCode with
        ⟨e, hrow⟩ | ⟨next, hrow, hlatch⟩
      · rw [hrow]
        exact Or.inl rfl
      · refine Or.inr ?_
        show (settle _ _ : SpendabilityStateRow).repairQueued = true
        rw [hrow]
        exact hlatch
    | truncateAboveHeight now height => exact step_truncateAboveHeight h now height

/-- **The status and the stored flag, exactly.** From a start row, the status before a spend is
never more permissive than the flag in any state passed, if and only if no call opens the computed
gate behind the flag. -/
theorem status_follows_flag_iff (db : WalletDb) (hstart : StartRow db.spendabilityState)
    (calls : List GateCall) :
    Runs.Throughout GateCall.step WalletDb.StatusFollowsFlag db calls ↔
      Runs.EachStep GateCall.step (fun db call => ¬ call.OpensBehindFlag db) db calls := by
  have hinit : db.StatusFollowsFlag := by
    rcases hstart with ⟨now, hrow⟩ | ⟨-, hrescan, -⟩
    · exact statusFollowsFlag_of (Or.inr (Or.inl (by rw [hrow]; rfl)))
    · exact statusFollowsFlag_of (Or.inr (Or.inl hrescan))
  rw [Runs.throughout_iff_eachStep (fun db call _ h => GateCall.step_iff h call)]
  exact and_iff_right hinit

/-- A wallet that is validated, interrupted and then cut back. -/
theorem status_follows_flag_interrupted :
    Runs.Throughout GateCall.step WalletDb.StatusFollowsFlag (WalletDb.fresh "t")
      [.transition (.markValidated "t" 101 100), .transition (.markSyncInterrupted "t"),
        .transition (.truncateAboveHeight "t" 90)] := by
  refine (status_follows_flag_iff (WalletDb.fresh "t") (Or.inl ⟨"t", rfl⟩) _).mpr ?_
  rw [Runs.eachStep_cons, Runs.eachStep_cons, Runs.eachStep_cons]
  refine ⟨id, id, ?_, Runs.eachStep_nil⟩
  rintro ⟨⟨-, hlatch, -⟩, -⟩
  cases hlatch

/-- A wallet validated at anchor 100 is cut back to height 90: the row is not spendable, the
status is. -/
theorem truncated_wallet_reported_spendable :
    ¬ Runs.Throughout GateCall.step WalletDb.StatusFollowsFlag (WalletDb.fresh "t")
      [.transition (.markValidated "t" 101 100), .transition (.truncateAboveHeight "t" 90)] := by
  intro hfollows
  have hflag := hfollows.last (by decide)
  revert hflag
  decide

end Runs

end StashiWallet
