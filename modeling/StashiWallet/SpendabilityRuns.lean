import StashiWallet.SpendabilityStorage

/-!
# What holds along every run of spendability transitions

The row has about ten correlated columns, and each transition rewrites its own subset of
them. `rowMove_rowAfter` says once what a transition can do, and the invariants below are read
off it.

* `spendability_gate`: a spendable row carries no obligation, and an import obligation keeps
  the rescan gate up.
* `replay_obligation_kept`: an obligation, its generation and its reason survive everything
  but the matching completion.
* The interruption latch and the rescan gate have a gap. `complete_required_rescan` decides
  `spendable` from the stored anchors alone; it consults neither the latch nor whether the
  anchor was validated since the rescan began. `interruption_latch_iff` and
  `rescan_gate_iff` say that this is the only gap, and which rows open it.
-/

namespace StashiWallet

open SpendabilityCall

/-! ## What one transition does -/

/-- `complete_required_rescan` with these arguments changes the row. -/
def SpendabilityStateRow.completes (row : SpendabilityStateRow)
    (expectedGeneration replayedFromHeight : Nat) : Prop :=
  expectedGeneration ≤ i64Max ∧ replayedFromHeight ≤ i64Max ∧
    row.rescanCompletedBy expectedGeneration replayedFromHeight

/-- The call is a `complete_required_rescan` that changes the row. -/
def SpendabilityCall.completesIn (row : SpendabilityStateRow) : SpendabilityCall → Prop
  | .completeRequiredRescan _ expectedGeneration replayedFromHeight =>
    row.completes expectedGeneration replayedFromHeight
  | _ => False

/-- A row that `complete_required_rescan` makes spendable once it completes. -/
def SpendabilityStateRow.raisedByCompletion (row : SpendabilityStateRow) : Prop :=
  row.repairQueued = false ∧ row.anchorValidated

theorem rowAfter_completeRequiredRescan (row : SpendabilityStateRow) (now : String)
    (expectedGeneration replayedFromHeight : Nat) :
    (¬ row.completes expectedGeneration replayedFromHeight ∧
      rowAfter row (.completeRequiredRescan now expectedGeneration replayedFromHeight) = row) ∨
    (row.completes expectedGeneration replayedFromHeight ∧
      ∃ reasonCode,
        rowAfter row (.completeRequiredRescan now expectedGeneration replayedFromHeight)
          = { row with
              spendable := decide (row.repairQueued = false ∧ row.anchorValidated)
              rescanRequired := false
              requiredRescanFromHeight := 0
              reasonCode := reasonCode
              updatedAt := now }) := by
  by_cases hcompletes : row.completes expectedGeneration replayedFromHeight
  · refine Or.inr ⟨hcompletes, ?_⟩
    obtain ⟨hgen, hfrom, hwhere⟩ := hcompletes
    simp only [rowAfter, SpendabilityStateRow.completeRequiredRescan, map_bind,
      settle_toSqlI64_bind, if_pos hgen, if_pos hfrom, if_pos hwhere]
    exact ⟨_, rfl⟩
  · refine Or.inl ⟨hcompletes, ?_⟩
    simp only [rowAfter, SpendabilityStateRow.completeRequiredRescan, map_bind,
      settle_toSqlI64_bind]
    split
    · split
      · rename_i hgen hfrom
        rw [if_neg (fun hwhere => hcompletes ⟨hgen, hfrom, hwhere⟩)]
        rfl
      · rfl
    · rfl

/-- **Every way a call can act on the gate columns.** It leaves them alone (`kept`), which
includes every refused call; it closes the gate (`gated`); it validates an anchor; or it
completes an import replay. -/
inductive GateMove (row : SpendabilityStateRow) : SpendabilityCall → SpendabilityStateRow → Prop
  | kept {call : SpendabilityCall} {next : SpendabilityStateRow}
      (hspendable : next.spendable = row.spendable)
      (hrescan : next.rescanRequired = row.rescanRequired)
      (hrequired : next.requiredRescanFromHeight = row.requiredRescanFromHeight)
      (hrepair : next.repairQueued = row.repairQueued)
      (hlatch : next.syncInterrupted = row.syncInterrupted)
      (hidle : ¬ call.completesIn row) : GateMove row call next
  | gated {call : SpendabilityCall} {next : SpendabilityStateRow}
      (hspendable : next.spendable = false)
      (hrescan : row.requiredRescanFromHeight > 0 → row.rescanRequired = true →
        next.rescanRequired = true)
      (hrequired : next.requiredRescanFromHeight = row.requiredRescanFromHeight)
      (hidle : ¬ call.completesIn row) : GateMove row call next
  | validated {now : String} {targetHeight anchorHeight : Nat} {next : SpendabilityStateRow}
      (hspendable : next.spendable = !decide (row.requiredRescanFromHeight > 0))
      (hrescan : next.rescanRequired = decide (row.requiredRescanFromHeight > 0))
      (hrequired : next.requiredRescanFromHeight = row.requiredRescanFromHeight)
      (hrepair : next.repairQueued = false)
      (hlatch : next.syncInterrupted = false) :
      GateMove row (.markValidated now targetHeight anchorHeight) next
  | completed {now : String} {expectedGeneration replayedFromHeight : Nat}
      {next : SpendabilityStateRow}
      (hcompletes : row.completes expectedGeneration replayedFromHeight)
      (hspendable : next.spendable = decide (row.repairQueued = false ∧ row.anchorValidated))
      (hrequired : next.requiredRescanFromHeight = 0)
      (hrescan : next.rescanRequired = false)
      (hrepair : next.repairQueued = row.repairQueued)
      (hlatch : next.syncInterrupted = row.syncInterrupted) :
      GateMove row (.completeRequiredRescan now expectedGeneration replayedFromHeight) next

variable {row : SpendabilityStateRow} {call : SpendabilityCall}

theorem GateMove.refl (hidle : ¬ call.completesIn row) : GateMove row call row :=
  .kept rfl rfl rfl rfl rfl hidle

/-- The two transitions documented to release the latch. -/
def releasesLatch : SpendabilityCall → Bool
  | .markValidated .. => true
  | .beginRescan .. => true
  | _ => false

/-- The reason a row shows after a call, while an import obligation is pending. -/
def reasonAfter (reasonCode : String) : SpendabilityCall → String
  | .markRescanRequired _ replaced => replaced
  | _ => reasonCode

/-- **Everything a call can do to the row**, as far as the contracts below speak of it: how it
acts on the gate, that it keeps the import generation, that a set latch survives it unless it
is documented to release the latch, and that a pending obligation keeps the reason it shows
unless the call is `mark_rescan_required`. -/
structure RowMove (row : SpendabilityStateRow) (call : SpendabilityCall)
    (next : SpendabilityStateRow) : Prop where
  gate : GateMove row call next
  generation : next.keyImportGeneration = row.keyImportGeneration
  latch : releasesLatch call = false → row.syncInterrupted = true → next.syncInterrupted = true
  reason : row.requiredRescanFromHeight > 0 → row.rescanRequired = true →
    ¬ call.completesIn row → next.reasonCode = reasonAfter row.reasonCode call

/-- A call that is refused. -/
theorem RowMove.refl (hidle : ¬ call.completesIn row)
    (hreason : reasonAfter row.reasonCode call = row.reasonCode) : RowMove row call row :=
  ⟨.refl hidle, rfl, fun _ hlatch => hlatch, fun _ _ _ => hreason.symm⟩

/-- A repair request closes the gate or is refused, whichever of the three calls makes it. -/
theorem rowMove_markRepairPending (hidle : ¬ call.completesIn row)
    (hreason : reasonAfter row.reasonCode call = row.reasonCode) (now : String) (fromHeight : Nat)
    (reasonCode : String) :
    RowMove row call
      (settle row (row.markRepairPendingWithoutEnqueue now fromHeight reasonCode)) := by
  simp only [SpendabilityStateRow.markRepairPendingWithoutEnqueue, settle_toSqlI64_bind,
    settle_pure]
  split
  · refine ⟨.gated rfl (fun h _ => decide_eq_true h) rfl hidle, rfl, fun _ h => h, ?_⟩
    intro hpos _ _
    exact (if_pos hpos).trans hreason.symm
  · exact .refl hidle hreason

theorem rowMove_rowAfter (row : SpendabilityStateRow) (call : SpendabilityCall) :
    RowMove row call (rowAfter row call) := by
  cases call with
  | recordKnownSyncHeight now height =>
    simp only [rowAfter, SpendabilityStateRow.recordKnownSyncHeight]
    split
    · exact .refl id rfl
    · simp only [settle_toSqlI64_bind, settle_pure]
      split
      · exact ⟨.kept rfl rfl rfl rfl rfl id, rfl, fun _ h => h, fun _ _ _ => rfl⟩
      · exact .refl id rfl
  | beginRescan now targetHeight anchorHeight reasonCode =>
    simp only [rowAfter, SpendabilityStateRow.beginRescan, settle_toSqlI64_bind, settle_pure]
    split
    · split
      · refine ⟨.gated rfl (fun _ _ => rfl) rfl id, rfl, ?_, fun hpos _ _ => if_pos hpos⟩
        simp [releasesLatch]
      · exact .refl id rfl
    · exact .refl id rfl
  | markSyncInterrupted now =>
    refine ⟨.gated rfl (fun _ h => h) rfl id, rfl, fun _ _ => rfl, ?_⟩
    intro _ hrescan _
    simp [rowAfter, SpendabilityStateRow.markSyncInterrupted, reasonAfter, hrescan]
  | markRescanRequired now reasonCode =>
    exact ⟨.gated rfl (fun _ _ => rfl) rfl id, rfl, fun _ h => h, fun _ _ _ => rfl⟩
  | completeRequiredRescan now expectedGeneration replayedFromHeight =>
    rcases rowAfter_completeRequiredRescan row now expectedGeneration replayedFromHeight with
      ⟨hidle, hsame⟩ | ⟨hcompletes, reasonCode, hnext⟩
    · rw [hsame]
      exact .refl hidle rfl
    · rw [hnext]
      exact ⟨.completed hcompletes rfl rfl rfl rfl rfl, rfl, fun _ h => h,
        fun _ _ hidle => absurd hcompletes hidle⟩
  | markSyncFinalizing now targetHeight anchorHeight =>
    simp only [rowAfter, SpendabilityStateRow.markSyncFinalizing, settle_toSqlI64_bind,
      settle_pure]
    split
    · split
      · exact ⟨.gated rfl (fun h _ => decide_eq_true h) rfl id, rfl, fun _ h => h,
          fun hpos _ _ => if_pos hpos⟩
      · exact .refl id rfl
    · exact .refl id rfl
  | markValidated now targetHeight anchorHeight =>
    simp only [rowAfter, SpendabilityStateRow.markValidated, settle_toSqlI64_bind, settle_pure]
    split
    · split
      · refine ⟨.validated rfl rfl rfl rfl rfl, rfl, ?_, fun hpos _ _ => if_pos hpos⟩
        simp [releasesLatch]
      · exact .refl id rfl
    · exact .refl id rfl
  | queueRepair now fromHeight reasonCode =>
    exact rowMove_markRepairPending id rfl now fromHeight reasonCode
  | queueRepairRange now fromHeight rangeEndExclusive reasonCode =>
    exact rowMove_markRepairPending id rfl now fromHeight reasonCode
  | markRepairPendingWithoutEnqueue now fromHeight reasonCode =>
    exact rowMove_markRepairPending id rfl now fromHeight reasonCode
  | truncateAboveHeight now height =>
    simp only [rowAfter]
    split
    · exact ⟨.gated rfl (fun _ h => h) rfl id, rfl, fun _ h => h,
        fun _ hrescan _ => if_pos hrescan⟩
    · exact .refl id rfl

/-! ## The gate invariant -/

/-- A spendable row has no rescan, no repair and no import replay pending, and an import
replay that is pending keeps the rescan gate up. -/
structure Gated (row : SpendabilityStateRow) : Prop where
  spendable_clear : row.spendable = true →
    row.rescanRequired = false ∧ row.repairQueued = false ∧ row.requiredRescanFromHeight = 0
  obligation_gates : row.requiredRescanFromHeight > 0 →
    row.rescanRequired = true ∧ row.spendable = false

/-- The rows a run starts from: the default row, or one in which a key import has recorded a
replay obligation together with the rescan gate. -/
def StartRow (row : SpendabilityStateRow) : Prop :=
  (∃ now, row = SpendabilityStateRow.default now) ∨
    (row.requiredRescanFromHeight > 0 ∧ row.rescanRequired = true ∧ row.spendable = false)

/-- A key import leaves such a row; the import refuses a birthday of zero. -/
theorem startRow_requireImportReplay (now : String) {birthdayHeight : Nat} (reasonCode : String)
    (row : SpendabilityStateRow) (hbirthday : 0 < birthdayHeight) :
    StartRow (row.requireImportReplay now birthdayHeight reasonCode) := by
  refine Or.inr ⟨?_, rfl, rfl⟩
  simp only [SpendabilityStateRow.requireImportReplay]
  split
  · rename_i h
    exact h.1
  · exact hbirthday

theorem StartRow.not_spendable (h : StartRow row) : row.spendable = false := by
  rcases h with ⟨now, rfl⟩ | ⟨-, -, hspendable⟩
  · rfl
  · exact hspendable

theorem StartRow.gated (h : StartRow row) : Gated row := by
  rcases h with ⟨now, rfl⟩ | ⟨hrequired, hrescan, hspendable⟩
  · constructor <;> simp [SpendabilityStateRow.default]
  · constructor
    · simp [hspendable]
    · exact fun _ => ⟨hrescan, hspendable⟩

theorem gated_rowAfter (h : Gated row) (call : SpendabilityCall) : Gated (rowAfter row call) := by
  cases (rowMove_rowAfter row call).gate with
  | kept hspendable hrescan hrequired hrepair _ _ =>
    constructor
    · rw [hspendable, hrescan, hrepair, hrequired]
      exact h.spendable_clear
    · rw [hspendable, hrescan, hrequired]
      exact h.obligation_gates
  | gated hspendable hrescan hrequired _ =>
    constructor
    · simp [hspendable]
    · rw [hrequired]
      exact fun hpos => ⟨hrescan hpos (h.obligation_gates hpos).1, hspendable⟩
  | validated hspendable hrescan hrequired hrepair _ =>
    constructor
    · rw [hspendable, hrescan, hrequired]
      intro hclear
      simp only [Bool.not_eq_true', decide_eq_false_iff_not, not_lt, Nat.le_zero] at hclear
      exact ⟨by simp [hclear], hrepair, hclear⟩
    · rw [hspendable, hrescan, hrequired]
      intro hpos
      simp [hpos]
  | completed _ hspendable hrequired hrescan hrepair _ =>
    constructor
    · rw [hspendable, hrepair]
      intro hraised
      exact ⟨hrescan, (of_decide_eq_true hraised).1, hrequired⟩
    · simp [hrequired]

/-- **The spendability gate.** Along every sequence of calls from a start row, a spendable
row carries no obligation and an import obligation keeps the rescan gate up. -/
theorem spendability_gate (db : WalletDb) (calls : List SpendabilityCall)
    (hstart : StartRow db.spendabilityState) :
    Runs.Throughout step (fun db => Gated db.spendabilityState) db calls := by
  rw [throughout_row]
  exact Runs.run_invariant_always (P := Gated) (fun row call h => gated_rowAfter h call)
    hstart.gated calls

/-- The gate along a run that rescans, is interrupted, queues a repair and is cut back. -/
theorem spendability_gate_fresh :
    Runs.Throughout step (fun db => Gated db.spendabilityState) (WalletDb.fresh "t")
      [.beginRescan "t" 90 80 "ERR_RESCAN_REQUIRED", .markValidated "t" 90 80,
        .markSyncInterrupted "t", .queueRepair "t" 60 "ERR_WITNESS_REPAIR_QUEUED",
        .truncateAboveHeight "t" 70] :=
  spendability_gate (WalletDb.fresh "t") _ (Or.inl ⟨"t", rfl⟩)

/-! ## The interruption latch -/

/-- What the latch promises of a run: no row passed is spendable while the latch is set, and
after `mark_sync_interrupted` no row is spendable until a releasing call is made. -/
def LatchHeld (db : WalletDb) (calls : List SpendabilityCall) : Prop :=
  Runs.Throughout step
    (fun db => db.spendabilityState.spendable = true → db.spendabilityState.syncInterrupted = false)
    db calls ∧
  ∀ before now after rest, calls = before ++ .markSyncInterrupted now :: (after ++ rest) →
    (∀ call ∈ after, releasesLatch call = false) →
    (Runs.run step db (before ++ .markSyncInterrupted now :: after)).spendabilityState.spendable
      = false

/-- The call completes an import replay in a row whose latch is set and which the completion
makes spendable: no repair is queued and a validated anchor is stored. -/
def raisesUnderLatch (db : WalletDb) (call : SpendabilityCall) : Prop :=
  call.completesIn db.spendabilityState ∧ db.spendabilityState.syncInterrupted = true ∧
    db.spendabilityState.raisedByCompletion

variable {calls : List SpendabilityCall}

theorem latch_run (hcalls : ∀ call ∈ calls, releasesLatch call = false) {db : WalletDb}
    (hlatch : db.spendabilityState.syncInterrupted = true) :
    (Runs.run step db calls).spendabilityState.syncInterrupted = true := by
  induction calls generalizing db with
  | nil => exact hlatch
  | cons call calls ih =>
    refine ih (fun c hc => hcalls c (List.mem_cons_of_mem call hc)) ?_
    rw [step_row]
    exact (rowMove_rowAfter _ call).latch (hcalls call List.mem_cons_self) hlatch

/-- One call keeps the latch's promise exactly when it is not such a completion. -/
theorem latch_step_iff (db : WalletDb) (call : SpendabilityCall)
    (h : db.spendabilityState.spendable = true → db.spendabilityState.syncInterrupted = false) :
    ((step db call).spendabilityState.spendable = true →
      (step db call).spendabilityState.syncInterrupted = false) ↔ ¬ raisesUnderLatch db call := by
  rw [step_row]
  have hmove := (rowMove_rowAfter db.spendabilityState call).gate
  generalize rowAfter db.spendabilityState call = next at hmove
  cases hmove with
  | kept hspendable _ _ _ hlatch hidle =>
    rw [hspendable, hlatch]
    exact iff_of_true h (fun hraises => hidle hraises.1)
  | gated hspendable _ _ hidle =>
    refine iff_of_true ?_ (fun hraises => hidle hraises.1)
    simp [hspendable]
  | validated _ _ _ _ hlatch => exact iff_of_true (fun _ => hlatch) (fun hraises => hraises.1)
  | completed hcompletes hspendable _ _ _ hlatch =>
    rw [hspendable, hlatch, decide_eq_true_eq]
    constructor
    · rintro hpromise ⟨-, hset, hraised⟩
      rw [hpromise hraised] at hset
      cases hset
    · intro hno hraised
      by_contra hset
      exact hno ⟨hcompletes, by simpa using hset, hraised⟩

/-- **The interruption latch, exactly.** From a start row, a run keeps the latch's promise
if and only if no `complete_required_rescan` takes effect while the latch is set in a row
with no repair queued and a stored validated anchor at or above its anchor. -/
theorem interruption_latch_iff (db : WalletDb) (calls : List SpendabilityCall)
    (hstart : StartRow db.spendabilityState) :
    LatchHeld db calls ↔ Runs.EachStep step (fun db call => ¬ raisesUnderLatch db call) db calls := by
  have hsharp : Runs.Throughout step (fun db => db.spendabilityState.spendable = true →
      db.spendabilityState.syncInterrupted = false) db calls ↔ _ ∧
      Runs.EachStep step (fun db call => ¬ raisesUnderLatch db call) db calls :=
    Runs.throughout_iff_eachStep (fun db call _ => latch_step_iff db call)
  have hinit : db.spendabilityState.spendable = true →
      db.spendabilityState.syncInterrupted = false := by
    simp [hstart.not_spendable]
  constructor
  · rintro ⟨hthroughout, -⟩
    exact (hsharp.mp hthroughout).2
  · intro hsteps
    have hthroughout := hsharp.mpr ⟨hinit, hsteps⟩
    refine ⟨hthroughout, ?_⟩
    rintro before now after rest rfl hafter
    have hpassed := hthroughout (before ++ .markSyncInterrupted now :: after)
      ⟨rest, by simp⟩
    -- the latch is set at the interruption and nothing in `after` releases it
    have hlatched : (Runs.run step db (before ++ .markSyncInterrupted now ::
        after)).spendabilityState.syncInterrupted = true := by
      rw [Runs.run_append, Runs.run_cons]
      exact latch_run hafter (by rw [step_row]; rfl)
    by_contra hspendable
    rw [hpassed (by simpa using hspendable)] at hlatched
    cases hlatched

/-- An interrupted wallet that only finalizes afterwards keeps the promise. -/
theorem interruption_latch_finalizing :
    LatchHeld (WalletDb.fresh "t") [.markSyncInterrupted "t", .markSyncFinalizing "t" 9 8] :=
  (interruption_latch_iff (WalletDb.fresh "t") _ (Or.inl ⟨"t", rfl⟩)).mpr
    (by simp [raisesUnderLatch, SpendabilityCall.completesIn])

/-- A database whose row carries a fresh import obligation from height 5. -/
def importedDb : WalletDb :=
  { WalletDb.fresh "t" with
    spendabilityState :=
      (SpendabilityStateRow.default "t").requireImportReplay "t" 5 "ERR_RESCAN_REQUIRED" }

/-- Validate, get interrupted, complete the import replay: the row is spendable with the
latch still set. -/
theorem interruption_latch_bypassed :
    StartRow importedDb.spendabilityState ∧
      ¬ LatchHeld importedDb [.markValidated "t" 20 10, .markSyncInterrupted "t",
        .completeRequiredRescan "t" 1 5] := by
  refine ⟨startRow_requireImportReplay "t" _ _ (by decide), ?_⟩
  rintro ⟨hthroughout, -⟩
  have hspendable : (Runs.run step importedDb [.markValidated "t" 20 10, .markSyncInterrupted "t",
      .completeRequiredRescan "t" 1 5]).spendabilityState.spendable = true := by decide
  have hlatch := hthroughout.last hspendable
  revert hlatch
  decide

/-! ## The rescan gate -/

/-- Whether the call is `mark_validated`. -/
def isMarkValidated : SpendabilityCall → Bool
  | .markValidated .. => true
  | _ => false

/-- The call completes an import replay in a row the completion makes spendable. -/
def raisesSpendable (db : WalletDb) (call : SpendabilityCall) : Prop :=
  call.completesIn db.spendabilityState ∧ db.spendabilityState.raisedByCompletion

theorem unspendable_step_iff (db : WalletDb) (hcall : isMarkValidated call = false)
    (h : db.spendabilityState.spendable = false) :
    (step db call).spendabilityState.spendable = false ↔ ¬ raisesSpendable db call := by
  rw [step_row]
  have hmove := (rowMove_rowAfter db.spendabilityState call).gate
  generalize rowAfter db.spendabilityState call = next at hmove
  cases hmove with
  | kept hspendable _ _ _ _ hidle =>
    rw [hspendable]
    exact iff_of_true h (fun hraises => hidle hraises.1)
  | gated hspendable _ _ hidle => exact iff_of_true hspendable (fun hraises => hidle hraises.1)
  | validated _ _ _ _ _ => simp [isMarkValidated] at hcall
  | completed hcompletes hspendable _ _ _ _ =>
    rw [hspendable, decide_eq_false_iff_not]
    exact not_congr ⟨fun hraised => ⟨hcompletes, hraised⟩, fun hraises => hraises.2⟩

/-- After an accepted `begin_rescan` the row is not spendable; a refused one leaves it. -/
theorem beginRescan_unspendable (db : WalletDb) (now : String) (targetHeight anchorHeight : Nat)
    (reasonCode : String) :
    (step db (.beginRescan now targetHeight anchorHeight reasonCode)).spendabilityState.spendable
        = false ↔
      (targetHeight ≤ i64Max ∧ anchorHeight ≤ i64Max) ∨
        db.spendabilityState.spendable = false := by
  rw [step_row]
  simp only [rowAfter, SpendabilityStateRow.beginRescan, settle_toSqlI64_bind, settle_pure]
  split
  · rename_i htarget
    split
    · rename_i hanchor
      exact iff_of_true rfl (Or.inl ⟨htarget, hanchor⟩)
    · rename_i hanchor
      simp [hanchor]
  · rename_i htarget
    simp [htarget]

/-- **The rescan gate, exactly.** In a sequence that starts with `begin_rescan` and has no
`mark_validated`, no row reached is spendable if and only if the rescan was accepted (or the
row was not spendable to begin with) and no `complete_required_rescan` takes effect in a row
with no repair queued and a stored validated anchor at or above its anchor. -/
theorem rescan_gate_iff (db : WalletDb) (now : String) (targetHeight anchorHeight : Nat)
    (reasonCode : String) (rest : List SpendabilityCall)
    (hrest : ∀ call ∈ rest, isMarkValidated call = false) :
    Runs.Throughout step (fun db => db.spendabilityState.spendable = false)
        (step db (.beginRescan now targetHeight anchorHeight reasonCode)) rest ↔
      ((targetHeight ≤ i64Max ∧ anchorHeight ≤ i64Max) ∨ db.spendabilityState.spendable = false) ∧
      Runs.EachStep step (fun db call => ¬ raisesSpendable db call)
        (step db (.beginRescan now targetHeight anchorHeight reasonCode)) rest := by
  rw [← beginRescan_unspendable db now targetHeight anchorHeight reasonCode]
  exact Runs.throughout_iff_eachStep
    (fun db call hcall h => unspendable_step_iff db (hrest call hcall) h)

/-- A rescan that is finalized and repaired stays gated. -/
theorem rescan_gate_finalizing :
    Runs.Throughout step (fun db => db.spendabilityState.spendable = false)
      (step (WalletDb.fresh "t") (.beginRescan "t" 90 10 "ERR_RESCAN_REQUIRED"))
      [.markSyncFinalizing "t" 90 80, .queueRepair "t" 40 "ERR_WITNESS_REPAIR_QUEUED"] :=
  (rescan_gate_iff (WalletDb.fresh "t") "t" 90 10 "ERR_RESCAN_REQUIRED" _
    (by simp [isMarkValidated])).mpr
    ⟨Or.inl (by decide), by simp [raisesSpendable, SpendabilityCall.completesIn]⟩

/-- A wallet validated at anchor 100 begins a rescan down to anchor 10; completing its
replay then finds the old validated anchor above the new one. -/
theorem rescan_gate_bypassed :
    ¬ Runs.Throughout step (fun db => db.spendabilityState.spendable = false)
      (step (step importedDb (.markValidated "t" 101 100))
        (.beginRescan "t" 101 10 "ERR_RESCAN_REQUIRED"))
      [.completeRequiredRescan "t" 1 5] := by
  intro hthroughout
  have hfinal := hthroughout.last
  revert hfinal
  decide

/-! ## The import replay obligation -/

/-- What a pending obligation from height `floor` of generation `generation` fixes in a row,
relative to the row `start` and the calls made since. -/
structure ObligationKept (floor generation : Nat) (start : SpendabilityStateRow)
    (calls : List SpendabilityCall) (row : SpendabilityStateRow) : Prop where
  required : row.requiredRescanFromHeight = floor
  importGeneration : row.keyImportGeneration = generation
  gate : start.rescanRequired = true → row.rescanRequired = true
  unspendable : start.spendable = false → row.spendable = false
  reason : start.rescanRequired = true →
    row.reasonCode = calls.foldl reasonAfter start.reasonCode

theorem obligationKept_rowAfter {floor generation : Nat} {start row : SpendabilityStateRow}
    (hpos : floor > 0)
    (hcall : ∀ now replayedFromHeight,
      call = .completeRequiredRescan now generation replayedFromHeight →
        floor < replayedFromHeight) (h : ObligationKept floor generation start calls row) :
    ObligationKept floor generation start (calls ++ [call]) (rowAfter row call) := by
  have hrequiredPos : row.requiredRescanFromHeight > 0 := h.required ▸ hpos
  have hidle : ¬ call.completesIn row := by
    intro hcompletes
    cases call with
    | completeRequiredRescan now expectedGeneration replayedFromHeight =>
      obtain ⟨-, -, -, -, hgen, hle⟩ := hcompletes
      have hlt := hcall now replayedFromHeight (by rw [← hgen, h.importGeneration])
      rw [h.required] at hle
      omega
    | _ => exact hcompletes
  have hreason : start.rescanRequired = true → (rowAfter row call).reasonCode
      = (calls ++ [call]).foldl reasonAfter start.reasonCode := by
    intro hrescan
    rw [(rowMove_rowAfter row call).reason hrequiredPos (h.gate hrescan) hidle, h.reason hrescan]
    simp
  have hgeneration := (rowMove_rowAfter row call).generation.trans h.importGeneration
  cases (rowMove_rowAfter row call).gate with
  | kept hspendable hrescan hrequired _ _ _ =>
    exact ⟨hrequired.trans h.required, hgeneration, fun hs => hrescan.trans (h.gate hs),
      fun hs => hspendable.trans (h.unspendable hs), hreason⟩
  | gated hspendable hrescan hrequired _ =>
    exact ⟨hrequired.trans h.required, hgeneration,
      fun hs => hrescan hrequiredPos (h.gate hs), fun _ => hspendable, hreason⟩
  | validated hspendable hrescan hrequired _ _ =>
    exact ⟨hrequired.trans h.required, hgeneration,
      fun _ => hrescan.trans (decide_eq_true hrequiredPos),
      fun _ => hspendable.trans (by simp [hrequiredPos]), hreason⟩
  | completed hcompletes _ _ _ _ _ => exact absurd hcompletes hidle

theorem obligationKept_run {floor generation : Nat} {db : WalletDb} (hpos : floor > 0)
    (hrequired : db.spendabilityState.requiredRescanFromHeight = floor)
    (hgeneration : db.spendabilityState.keyImportGeneration = generation)
    (hcalls : ∀ call ∈ calls, ∀ now replayedFromHeight,
      call = .completeRequiredRescan now generation replayedFromHeight →
        floor < replayedFromHeight) :
    ObligationKept floor generation db.spendabilityState calls
      (Runs.run step db calls).spendabilityState := by
  induction calls using List.reverseRecOn with
  | nil => exact ⟨hrequired, hgeneration, id, id, fun _ => rfl⟩
  | append_singleton calls call ih =>
    rw [Runs.run_append, Runs.run_cons, Runs.run_nil, step_row]
    refine obligationKept_rowAfter hpos (hcalls call (by simp)) (ih ?_)
    intro other hother
    exact hcalls other (List.mem_append_left _ hother)

/-- `complete_required_rescan` answers `false` and changes nothing exactly when there is
nothing for it to complete. -/
theorem completeRequiredRescan_false_iff (db : WalletDb) (now : String)
    {expectedGeneration replayedFromHeight : Nat} (hgen : expectedGeneration ≤ i64Max)
    (hfrom : replayedFromHeight ≤ i64Max) :
    db.completeRequiredRescan now expectedGeneration replayedFromHeight = (.ok false, db) ↔
      db.spendabilityState.keyImportGeneration ≠ expectedGeneration ∨
      replayedFromHeight > db.spendabilityState.requiredRescanFromHeight ∨
      ¬ (db.spendabilityState.rescanRequired = true ∧
        db.spendabilityState.requiredRescanFromHeight > 0) := by
  have hwhere : db.spendabilityState.rescanCompletedBy expectedGeneration replayedFromHeight ↔
      ¬ (db.spendabilityState.keyImportGeneration ≠ expectedGeneration ∨
        replayedFromHeight > db.spendabilityState.requiredRescanFromHeight ∨
        ¬ (db.spendabilityState.rescanRequired = true ∧
          db.spendabilityState.requiredRescanFromHeight > 0)) := by
    unfold SpendabilityStateRow.rescanCompletedBy
    constructor
    · rintro ⟨h₁, h₂, h₃, h₄⟩ (h | h | h)
      · exact h h₃
      · omega
      · exact h ⟨h₁, h₂⟩
    · intro h
      push Not at h
      exact ⟨h.2.2.1, h.2.2.2, h.1, h.2.1⟩
  unfold WalletDb.completeRequiredRescan SpendabilityStateRow.completeRequiredRescan
  simp only [toSqlI64, toI64Or, if_pos hgen, if_pos hfrom, bind, Except.bind]
  by_cases hcompletes :
      db.spendabilityState.rescanCompletedBy expectedGeneration replayedFromHeight
  · rw [if_pos hcompletes]
    refine iff_of_false ?_ (hwhere.mp hcompletes)
    simp [pure, Except.pure]
  · rw [if_neg hcompletes]
    exact iff_of_true rfl (not_not.mp (fun h => hcompletes (hwhere.mpr h)))

/-- **The import replay obligation.** Along every sequence of calls with no matching
completion, a row with an obligation keeps it: the floor, the generation, the rescan gate,
not being spendable, and the reason up to replacement by `mark_rescan_required`. And a
completion answers `false` and changes no column exactly when its generation differs, it
replayed from above the floor, or no obligation is pending. The bounds in the second half leave out
only arguments that an `i64` column does not hold: the call refuses those with an error before it
reads the row, so that it answers neither `true` nor `false`. -/
theorem replay_obligation_kept (db : WalletDb) (calls : List SpendabilityCall)
    (floor generation : Nat) (hpos : floor > 0)
    (hrequired : db.spendabilityState.requiredRescanFromHeight = floor)
    (hgeneration : db.spendabilityState.keyImportGeneration = generation)
    (hcalls : ∀ call ∈ calls, ∀ now replayedFromHeight,
      call = .completeRequiredRescan now generation replayedFromHeight →
        floor < replayedFromHeight) :
    (∀ done, done <+: calls →
      ObligationKept floor generation db.spendabilityState done
        (Runs.run step db done).spendabilityState) ∧
    ∀ (db : WalletDb) (now : String) (expectedGeneration replayedFromHeight : Nat),
      expectedGeneration ≤ i64Max → replayedFromHeight ≤ i64Max →
        (db.completeRequiredRescan now expectedGeneration replayedFromHeight = (.ok false, db) ↔
          db.spendabilityState.keyImportGeneration ≠ expectedGeneration ∨
          replayedFromHeight > db.spendabilityState.requiredRescanFromHeight ∨
          ¬ (db.spendabilityState.rescanRequired = true ∧
            db.spendabilityState.requiredRescanFromHeight > 0)) := by
  constructor
  · intro done hdone
    refine obligationKept_run hpos hrequired hgeneration ?_
    intro call hcall
    exact hcalls call (hdone.subset hcall)
  · intro db now expectedGeneration replayedFromHeight hgen hfrom
    exact completeRequiredRescan_false_iff db now hgen hfrom

/-- An obligation from height 5 outlives a stale completion, a validation and a repair. -/
theorem replay_obligation_kept_imported :
    (Runs.run step importedDb [.completeRequiredRescan "t" 0 1, .markValidated "t" 20 10,
      .queueRepair "t" 3 "ERR_WITNESS_REPAIR_QUEUED"]).spendabilityState.requiredRescanFromHeight
        = 5 :=
  ((replay_obligation_kept importedDb _ 5 1 (by decide) rfl rfl (by
    intro call hcall now replayedFromHeight heq
    subst heq
    simp at hcall)).1 _ List.prefix_rfl).required

end StashiWallet
