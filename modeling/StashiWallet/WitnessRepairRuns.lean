import StashiWallet.WitnessRepair

/-!
# Interleavings of the witness-repair calls

The tip check may declare the wallet validated only over a queue without open `FoundNote`
rows, and a queued repair may be retired only after it was activated. Both are promises
about tables that four calls write concurrently.

The second one every statement keeps by itself: the only `UPDATE` to `done` asks for
`in_progress` (`ScanQueue.Evolves`, `kept_or_activated`). The first one no statement keeps:
the check reads the queue in one statement and writes the row in the next. `checkMonitor`
follows a call through the witness check, the retirement and the empty read, and every call
validates only right after the three (`program_obeys`). What the read has seen is still true
at the write when no row is opened in between (`Undisturbed`, `settled_of_clean`);
`validation_overtakes_repair` is a run in which one is.
-/

namespace StashiWallet

open Interleaving RepairM

/-- How far a call has come on the way to `mark_validated`: the witness check reported
nothing, finished repairs have been retired, the queue was read and is empty. -/
inductive CheckView where
  | idle
  | witnessed (anchorHeight : Nat)
  | retired (anchorHeight : Nat)
  | clean (anchorHeight : Nat)
deriving DecidableEq, Repr

namespace CheckView

/-- The view after a statement. Any statement off the way leads back to `idle`. -/
def next (view : CheckView) : (statement : RepairStatement) → statement.Reply → CheckView
  | .checkWitnesses _ anchorHeight _, .ok ranges =>
    match (ranges : List (Nat × Nat)) with
    | [] => .witnessed anchorHeight
    | _ :: _ => .idle
  | .markFoundNoteDoneThrough _, _ =>
    match view with
    | .witnessed anchorHeight => .retired anchorHeight
    | _ => .idle
  | .nextFoundNoteRange, .ok row =>
    match view, (row : Option ScanRangeRow) with
    | .retired anchorHeight, none => .clean anchorHeight
    | _, _ => .idle
  | _, _ => .idle

/-- `mark_validated` asks for the clean view at the same anchor. -/
def Permits (view : CheckView) (statement : RepairStatement) : Prop :=
  ∀ targetHeight anchorHeight, statement = .markValidated targetHeight anchorHeight →
    view = .clean anchorHeight

variable {ι : Type} {view : CheckView} {anchorHeight : Nat}
  {e : Event ι RepairStatement RepairStatement.Reply}

theorem next_eq_clean (h : next view e.stmt e.reply = .clean anchorHeight) :
    view = .retired anchorHeight ∧ e = ⟨e.thread, .nextFoundNoteRange, .ok none⟩ := by
  obtain ⟨i, statement, reply⟩ := e
  dsimp only at h
  unfold next at h
  split at h
  · split at h <;> cases h
  · split at h <;> cases h
  · split at h
    · cases h
      exact ⟨rfl, rfl⟩
    · cases h
  · cases h

theorem next_eq_retired (h : next view e.stmt e.reply = .retired anchorHeight) :
    view = .witnessed anchorHeight ∧
      ∃ endExclusive reply, e = ⟨e.thread, .markFoundNoteDoneThrough endExclusive, reply⟩ := by
  obtain ⟨i, statement, reply⟩ := e
  dsimp only at h
  unfold next at h
  split at h
  · split at h <;> cases h
  · split at h
    · cases h
      exact ⟨rfl, _, _, rfl⟩
    · cases h
  · split at h <;> cases h
  · cases h

theorem next_eq_witnessed (h : next view e.stmt e.reply = .witnessed anchorHeight) :
    ∃ accountId walletBirthday,
      e = ⟨e.thread, .checkWitnesses accountId anchorHeight walletBirthday, .ok []⟩ := by
  obtain ⟨i, statement, reply⟩ := e
  dsimp only at h
  unfold next at h
  split at h
  · split at h
    · cases h
      exact ⟨_, _, rfl⟩
    · cases h
  · split at h <;> cases h
  · split at h <;> cases h
  · cases h
end CheckView

/-- The monitor of a call's way to `mark_validated`. -/
def checkMonitor : Monitor RepairStatement RepairStatement.Reply CheckView where
  start := .idle
  next := CheckView.next
  Permits := CheckView.Permits

namespace RepairM

variable {α β : Type}

/-- From `view` on, the call validates only in a clean view. -/
def Safe (view : CheckView) (call : RepairM α) : Prop :=
  Prog.Obeys checkMonitor (fun _ _ => True) view call.run

/-- The call does not validate. -/
def Harmless (call : RepairM α) : Prop := ∀ view, Safe view call

theorem harmless_pure (a : α) : Harmless (pure a : RepairM α) := fun _ => trivial

variable {call : RepairM α} {rest : α → RepairM β}

theorem Safe.bind_of {view : CheckView}
    (hcall : Prog.Obeys checkMonitor (fun w r => ∀ a, r = .ok a → Safe w (rest a)) view call.run) :
    Safe view (call >>= rest) := by
  unfold Safe
  rw [ExceptT.run_bind, Prog.obeys_bind]
  refine hcall.imp ?_
  intro w r hr
  cases r with
  | ok a => exact hr a rfl
  | error e => exact trivial

theorem Safe.bind {view : CheckView} (hcall : Harmless call) (hrest : ∀ w a, Safe w (rest a)) :
    Safe view (call >>= rest) :=
  Safe.bind_of ((hcall view).imp fun w _ _ a _ => hrest w a)

theorem Harmless.bind (hcall : Harmless call) (hrest : ∀ a, Harmless (rest a)) :
    Harmless (call >>= rest) :=
  fun _ => Safe.bind hcall fun w a => hrest a w

theorem harmless_query {statement : RepairStatement}
    (h : ∀ targetHeight anchorHeight, statement ≠ .markValidated targetHeight anchorHeight) :
    Harmless (query statement) :=
  fun _ => ⟨fun targetHeight anchorHeight heq => absurd heq (h targetHeight anchorHeight),
    fun _ => trivial⟩

theorem harmless_ignore (h : Harmless call) : Harmless (ignore call) := by
  intro view
  unfold Safe ignore
  rw [ExceptT.run_mk, Prog.obeys_bind]
  exact (h view).imp fun _ _ _ => trivial

theorem harmless_unwrapOr {fallback : α} (h : Harmless call) :
    Harmless (unwrapOr fallback call) := by
  intro view
  unfold Safe unwrapOr
  rw [ExceptT.run_mk, Prog.obeys_bind]
  exact (h view).imp fun _ _ _ => trivial

theorem harmless_convert (value : Nat) : Harmless (convert value) := fun _ => trivial

end RepairM

/-! ## Every call keeps to the monitor -/

theorem loadStateOrDefault_harmless (now : String) : Harmless (loadStateOrDefault now) :=
  harmless_unwrapOr (harmless_query nofun)

theorem queueRangeCall_harmless (rangeStart rangeEnd : Nat) (priority : Int)
    (reason : Option String) : Harmless (queueRangeCall rangeStart rangeEnd priority reason) := by
  unfold queueRangeCall
  split
  · exact harmless_pure ()
  · refine Harmless.bind (harmless_convert _) fun start => ?_
    refine Harmless.bind (harmless_convert _) fun stop => ?_
    refine Harmless.bind (harmless_query nofun) fun plan => ?_
    split
    · exact harmless_pure ()
    · exact harmless_query nofun

theorem queueRepairRangeCall_harmless (fromHeight rangeEndExclusive : Nat) (reasonCode : String) :
    Harmless (queueRepairRangeCall fromHeight rangeEndExclusive reasonCode) := by
  refine Harmless.bind (harmless_query nofun) fun _ => ?_
  exact queueRangeCall_harmless _ _ _ _

theorem queueRepairRanges_harmless (walletBirthday : Nat) (ranges : List (Nat × Nat))
    (queuedStart queuedEnd : Nat) :
    Harmless (queueRepairRanges walletBirthday ranges queuedStart queuedEnd) := by
  induction ranges generalizing queuedStart queuedEnd with
  | nil => exact harmless_pure _
  | cons range ranges ih =>
    refine Harmless.bind (queueRepairRangeCall_harmless _ _ _) fun _ => ?_
    exact ih _ _

theorem queueReportedRepairs_harmless (repairRanges : List (Nat × Nat))
    (walletBirthday anchorHeight currentHeight : Nat) :
    Harmless (queueReportedRepairs repairRanges walletBirthday anchorHeight currentHeight) := by
  refine Harmless.bind (queueRepairRanges_harmless _ _ _ _) fun _ => ?_
  refine Harmless.bind (harmless_query nofun) fun _ => ?_
  exact harmless_pure _

theorem recordHistoricScannedRangeCall_harmless (rangeStart rangeEnd : Nat)
    (reason : Option String) :
    Harmless (recordHistoricScannedRangeCall rangeStart rangeEnd reason) := by
  unfold recordHistoricScannedRangeCall
  split
  · exact harmless_pure ()
  · refine Harmless.bind (harmless_convert _) fun start => ?_
    refine Harmless.bind (harmless_convert _) fun stop => ?_
    refine Harmless.bind (harmless_query nofun) fun extrema => ?_
    exact harmless_query nofun

theorem snapToCheckpointForTable_harmless (table : CheckpointTable) (ceiling floor : Nat) :
    Harmless (snapToCheckpointForTable table ceiling floor) := by
  unfold snapToCheckpointForTable
  split
  · exact harmless_query nofun
  · exact harmless_pure _

theorem snapToCheckpoint_harmless (ceiling floor : Nat) :
    Harmless (snapToCheckpoint ceiling floor) := by
  refine Harmless.bind (snapToCheckpointForTable_harmless _ _ _) fun saplingMax => ?_
  refine Harmless.bind (snapToCheckpointForTable_harmless _ _ _) fun orchardMax => ?_
  split <;> exact harmless_pure _

theorem getTargetAndAnchorHeights_harmless (minConfirmations : Nat) (accountId : Int) :
    Harmless (getTargetAndAnchorHeightsForAccount minConfirmations accountId) := by
  refine Harmless.bind (harmless_query nofun) fun extrema => ?_
  split
  · exact harmless_pure _
  · refine Harmless.bind (harmless_query nofun) fun birthday => ?_
    dsimp only
    split
    · exact harmless_pure _
    · refine Harmless.bind (snapToCheckpoint_harmless _ _) fun snapped => ?_
      split <;> exact harmless_pure _

theorem markSyncFinalizingWithoutScanExtrema_harmless :
    Harmless markSyncFinalizingWithoutScanExtrema := by
  refine Harmless.bind (harmless_query nofun) fun state => ?_
  split
  · exact harmless_query nofun
  · exact harmless_pure _

theorem settleProgress_harmless (now : String) (localHeight computedTarget computedAnchor : Nat) :
    Harmless (settleProgress now localHeight computedTarget computedAnchor) := by
  refine Harmless.bind (harmless_query nofun) fun row => ?_
  refine Harmless.bind (loadStateOrDefault_harmless now) fun state => ?_
  split
  · exact harmless_query nofun
  · dsimp only
    split
    · exact harmless_query nofun
    · exact harmless_pure _

theorem saveSyncStateWithDb_harmless (now : String) (accountId : Int)
    (birthdayHeight localHeight targetHeight lastCheckpoint : Nat)
    (includeAuxStateUpdate : Bool) :
    Harmless (saveSyncStateWithDb now accountId birthdayHeight localHeight targetHeight
      lastCheckpoint includeAuxStateUpdate) := by
  refine Harmless.bind (harmless_query nofun) fun _ => ?_
  split
  · exact harmless_pure _
  · refine Harmless.bind (recordHistoricScannedRangeCall_harmless _ _ _) fun _ => ?_
    refine Harmless.bind (harmless_ignore (harmless_query nofun)) fun _ => ?_
    refine Harmless.bind (getTargetAndAnchorHeights_harmless _ _) fun heights => ?_
    split
    · exact settleProgress_harmless _ _ _ _
    · exact markSyncFinalizingWithoutScanExtrema_harmless

theorem activateQueuedFoundNoteRangeWithDb_harmless :
    Harmless activateQueuedFoundNoteRangeWithDb := by
  refine Harmless.bind (harmless_query nofun) fun next => ?_
  split
  · exact harmless_pure _
  · rename_i row
    have hrest : Harmless (do
        let rangeStart := max row.rangeStart 1
        let rangeEndExclusive := max row.rangeEnd (saturatingAdd rangeStart 1)
        query (.markRepairPendingWithoutEnqueue rangeStart errWitnessRepairQueued)
        return some (rangeStart, rangeEndExclusive) : RepairM (Option (Nat × Nat))) := by
      refine Harmless.bind (harmless_query nofun) fun _ => ?_
      exact harmless_pure _
    dsimp only
    split
    · exact Harmless.bind (harmless_query nofun) fun _ => hrest
    · exact hrest

theorem settleWithoutRepairs_safe (targetHeight anchorHeight currentHeight : Nat) :
    Safe (.witnessed anchorHeight)
      (settleWithoutRepairs targetHeight anchorHeight currentHeight) := by
  have hlog : Harmless (do
      let _ ← query .nextFoundNoteRange
      return ⟨none, true⟩ : RepairM WitnessCheckDbOutcome) :=
    Harmless.bind (harmless_query nofun) fun _ => harmless_pure _
  refine Safe.bind_of ?_
  refine ⟨nofun, fun r => ?_⟩
  intro _ _
  refine Safe.bind_of ?_
  refine ⟨nofun, fun r => ?_⟩
  rintro (_ | row) hr
  · subst hr
    refine Safe.bind_of ?_
    refine ⟨?_, fun r => ?_⟩
    · rintro _ _ ⟨rfl, rfl⟩
      rfl
    · intro _ _
      exact hlog _
  · exact Safe.bind (harmless_query nofun) fun w _ => hlog w

theorem checkWitnessesWithDb_safe (now : String) (accountId : Int) (currentHeight : Nat)
    (alreadyChecked : Bool) (view : CheckView) :
    Safe view (checkWitnessesWithDb now accountId currentHeight alreadyChecked) := by
  refine Safe.bind (harmless_query nofun) fun v birthday => ?_
  refine Safe.bind (getTargetAndAnchorHeights_harmless _ _) fun v heights => ?_
  split
  · exact Safe.bind markSyncFinalizingWithoutScanExtrema_harmless fun w _ => harmless_pure _ w
  · refine Safe.bind (loadStateOrDefault_harmless now) fun v state => ?_
    split
    · exact harmless_pure _ v
    · split
      · exact harmless_pure _ v
      · refine Safe.bind_of ?_
        refine ⟨nofun, fun r => ?_⟩
        rintro (_ | ⟨range, ranges⟩) hr
        · subst hr
          exact settleWithoutRepairs_safe _ _ _
        · exact queueReportedRepairs_harmless _ _ _ _ _

/-- Each of the four calls validates only in a clean view. -/
theorem program_obeys (call : RepairCall) :
    Prog.Obeys checkMonitor (fun _ _ => True) .idle call.program := by
  cases call with
  | checkWitnesses now accountId currentHeight alreadyChecked =>
    exact Prog.obeys_bind.mpr
      ((checkWitnessesWithDb_safe now accountId currentHeight alreadyChecked _).imp
        fun _ _ _ => trivial)
  | saveSyncState now accountId birthdayHeight localHeight targetHeight lastCheckpoint aux =>
    exact Prog.obeys_bind.mpr
      ((saveSyncStateWithDb_harmless now accountId birthdayHeight localHeight targetHeight
        lastCheckpoint aux _).imp fun _ _ _ => trivial)
  | activateQueuedFoundNoteRange =>
    exact Prog.obeys_bind.mpr
      ((activateQueuedFoundNoteRangeWithDb_harmless _).imp fun _ _ _ => trivial)
  | queueRepairRange fromHeight rangeEndExclusive reasonCode =>
    exact Prog.obeys_bind.mpr
      ((queueRepairRangeCall_harmless fromHeight rangeEndExclusive reasonCode _).imp
        fun _ _ _ => trivial)

/-! ## What statements do to the queue -/

namespace ScanQueue

/-- No `FoundNote` row is pending or in progress. -/
def FoundNotesSettled (queue : ScanQueue) : Prop :=
  ∀ row ∈ queue.rows, row.priority = scanPriorityFoundNote → row.status = .done

def nextId (queue : ScanQueue) : Nat := AutoTable.nextId queue

variable {queue : ScanQueue}

theorem foundNotesSettled_of_next_eq_none (h : queue.nextFoundNoteRange = none) :
    queue.FoundNotesSettled := by
  intro row hrow hpriority
  simp only [nextFoundNoteRange, Option.orElse_eq_or, Option.or_eq_none_iff,
    List.argmin_eq_none, List.filter_eq_nil_iff] at h
  obtain ⟨hinProgress, hpending⟩ := h
  have hnotInProgress := hinProgress row hrow
  have hnotPending := hpending row hrow
  cases hstatus : row.status with
  | done => rfl
  | inProgress => simp [ScanRangeRow.isAt, hpriority, hstatus] at hnotInProgress
  | pending => simp [ScanRangeRow.isAt, hpriority, hstatus] at hnotPending

/-- How one statement may move rows: a row of `after` is new, or it is a row of `before`
whose status is kept, has become in progress, or was in progress. -/
def Evolves (before after : ScanQueue) : Prop :=
  before.nextId ≤ after.nextId ∧ ∀ row' ∈ after.rows, before.nextId ≤ row'.id ∨
    ∃ row ∈ before.rows, row.id = row'.id ∧
      (row'.status = row.status ∨ row'.status = .inProgress ∨ row.status = .inProgress)

theorem evolves_refl (queue : ScanQueue) : queue.Evolves queue :=
  ⟨le_rfl, fun row hrow => .inr ⟨row, hrow, rfl, .inl rfl⟩⟩

variable {p : ScanRangeRow → Bool} {status : ScanStatus} {now : String}

theorem evolves_deleteWhere_insert {rangeStart rangeEnd : Nat} {priority : Int}
    {reason : Option String} {queue next : ScanQueue}
    (h : (queue.deleteWhere p).insert now rangeStart rangeEnd priority status reason = .ok next) :
    queue.Evolves next := by
  unfold insert at h
  split at h
  · obtain rfl := Except.ok.inj h
    refine ⟨Nat.le_succ _, fun row hrow => ?_⟩
    rcases List.mem_append.mp hrow with hrow | hrow
    · exact .inr ⟨row, List.mem_of_mem_filter hrow, rfl, .inl rfl⟩
    · rw [List.mem_singleton.mp hrow]
      exact .inl le_rfl
  · cases h

theorem evolves_setStatusWhere
    (h : ∀ row, p row = true → status = .inProgress ∨ row.status = .inProgress) :
    queue.Evolves (queue.setStatusWhere now p status) := by
  refine ⟨le_rfl, fun row' hrow' => .inr ?_⟩
  rw [setStatusWhere_rows] at hrow'
  obtain ⟨row, hrow, rfl⟩ := List.mem_map.mp hrow'
  refine ⟨row, hrow, ?_⟩
  split
  · rename_i hp
    exact ⟨rfl, .inr (h row hp)⟩
  · exact ⟨rfl, .inl rfl⟩

theorem FoundNotesSettled.deleteWhere_insert {rangeStart rangeEnd : Nat} {priority : Int}
    {reason : Option String} {queue next : ScanQueue} (hsettled : queue.FoundNotesSettled)
    (hpriority : priority ≠ scanPriorityFoundNote)
    (h : (queue.deleteWhere p).insert now rangeStart rangeEnd priority status reason = .ok next) :
    next.FoundNotesSettled := by
  obtain ⟨new, hrows, -, hnew, -⟩ := insert_eq_ok h
  intro row hrow hfound
  rw [hrows] at hrow
  rcases List.mem_append.mp hrow with hrow | hrow
  · exact hsettled row (List.mem_of_mem_filter hrow) hfound
  · rw [List.mem_singleton.mp hrow, hnew] at hfound
    exact absurd hfound hpriority

theorem FoundNotesSettled.setStatusWhere (hsettled : queue.FoundNotesSettled)
    (h : ∀ row ∈ queue.rows, p row = true → row.priority = scanPriorityFoundNote →
      status = .done) : (queue.setStatusWhere now p status).FoundNotesSettled := by
  intro row' hrow' hfound
  rw [setStatusWhere_rows] at hrow'
  obtain ⟨row, hrow, rfl⟩ := List.mem_map.mp hrow'
  split at hfound
  · rename_i hp
    rw [if_pos hp]
    exact h row hrow hp hfound
  · rename_i hp
    rw [if_neg hp]
    exact hsettled row hrow hfound

end ScanQueue

namespace RepairTables

/-- The statement adds a `FoundNote` row or takes one back from `done`. -/
def Reopens (tables : RepairTables) : RepairStatement → Prop
  | .commitMerge priority _ _ => priority = scanPriorityFoundNote
  | .markInProgress id => ∃ row ∈ tables.scanQueue.rows, row.id = id ∧
      row.priority = scanPriorityFoundNote ∧ row.status = .done
  | _ => False

/-- Every statement moves rows as `ScanQueue.Evolves` says. -/
theorem Executes.evolves {before after : RepairTables} {statement : RepairStatement}
    {reply : statement.Reply} (h : before.Executes statement reply after) :
    before.scanQueue.Evolves after.scanQueue := by
  cases reply with
  | error e =>
    obtain rfl : after = before := h
    exact ScanQueue.evolves_refl _
  | ok answer =>
    cases statement with
    | walletBirthdayHeight | birthdayHeightForAccount | maxCheckpoint | checkWitnesses
    | saveSyncProgress =>
      obtain rfl : after = before := h
      exact ScanQueue.evolves_refl _
    | scanQueueExtrema | historicExtrema | nextFoundNoteRange | planMerge | loadState =>
      obtain ⟨-, rfl⟩ : _ ∧ after = before := h
      exact ScanQueue.evolves_refl _
    | markSyncFinalizing | markValidated | markRepairPendingWithoutEnqueue =>
      obtain ⟨now, row, -, rfl⟩ := h
      exact ScanQueue.evolves_refl _
    | commitMerge | replaceHistoric =>
      obtain ⟨now, queue, hqueue, rfl⟩ := h
      exact ScanQueue.evolves_deleteWhere_insert hqueue
    | markInProgress id =>
      obtain ⟨now, queue, hqueue, rfl⟩ := h
      obtain rfl := Except.ok.inj hqueue
      exact ScanQueue.evolves_setStatusWhere fun _ _ => .inl rfl
    | markFoundNoteDoneThrough endExclusive =>
      obtain ⟨now, queue, hqueue, rfl⟩ := h
      obtain ⟨-, hqueue⟩ := toSqlI64_bind_eq_ok.mp hqueue
      obtain rfl := Except.ok.inj hqueue
      refine ScanQueue.evolves_setStatusWhere fun row hp => .inr ?_
      simp only [ScanRangeRow.isAt, Bool.and_eq_true, beq_iff_eq] at hp
      exact hp.1.2

/-- A queue without open `FoundNote` rows stays so under a statement that opens none. -/
theorem Executes.settled {before after : RepairTables} {statement : RepairStatement}
    {reply : statement.Reply} (h : before.Executes statement reply after)
    (hsettled : before.scanQueue.FoundNotesSettled) (hopens : ¬ before.Reopens statement) :
    after.scanQueue.FoundNotesSettled := by
  cases reply with
  | error e =>
    obtain rfl : after = before := h
    exact hsettled
  | ok answer =>
    cases statement with
    | walletBirthdayHeight | birthdayHeightForAccount | maxCheckpoint | checkWitnesses
    | saveSyncProgress =>
      obtain rfl : after = before := h
      exact hsettled
    | scanQueueExtrema | historicExtrema | nextFoundNoteRange | planMerge | loadState =>
      obtain ⟨-, rfl⟩ : _ ∧ after = before := h
      exact hsettled
    | markSyncFinalizing | markValidated | markRepairPendingWithoutEnqueue =>
      obtain ⟨now, row, -, rfl⟩ := h
      exact hsettled
    | commitMerge priority reason plan =>
      obtain ⟨now, queue, hqueue, rfl⟩ := h
      exact hsettled.deleteWhere_insert hopens hqueue
    | replaceHistoric rangeStart rangeEnd reason =>
      obtain ⟨now, queue, hqueue, rfl⟩ := h
      exact hsettled.deleteWhere_insert (by decide) hqueue
    | markInProgress id =>
      obtain ⟨now, queue, hqueue, rfl⟩ := h
      obtain rfl := Except.ok.inj hqueue
      refine hsettled.setStatusWhere fun row hrow hid hfound => ?_
      exact absurd ⟨row, hrow, beq_iff_eq.mp hid, hfound, hsettled row hrow hfound⟩ hopens
    | markFoundNoteDoneThrough endExclusive =>
      obtain ⟨now, queue, hqueue, rfl⟩ := h
      obtain ⟨-, hqueue⟩ := toSqlI64_bind_eq_ok.mp hqueue
      obtain rfl := Except.ok.inj hqueue
      exact hsettled.setStatusWhere fun _ _ _ _ => rfl

end RepairTables

/-! ## Runs -/

/-- Calls in progress over the two tables. -/
abbrev RepairMachine (ι : Type) : Type :=
  Machine ι RepairStatement RepairStatement.Reply Unit RepairTables

/-- The next statement of the call is `mark_validated`. -/
def aboutToValidate : Prog RepairStatement RepairStatement.Reply Unit → Prop
  | .step (.markValidated _ _) _ => True
  | _ => False

section Interleavings

variable {ι : Type} [DecidableEq ι]

/-- No `FoundNote` row is opened while another call stands before its `mark_validated`. -/
def Undisturbed (m : RepairMachine ι) (e : Event ι RepairStatement RepairStatement.Reply) :
    Prop :=
  m.shared.Reopens e.stmt → ∀ i, i ≠ e.thread → ¬ aboutToValidate (m.pool i)

/-- The machines an interleaving of the calls, statement by statement, leads to. -/
abbrev Interleaves
    (allowed : RepairMachine ι → Event ι RepairStatement RepairStatement.Reply → Prop) :
    RepairMachine ι → RepairMachine ι → Prop :=
  Machine.Reach RepairTables.Executes allowed

/-- The machine before a list of calls has begun. -/
def startCalls (calls : ι → RepairCall) (tables : RepairTables) : RepairMachine ι :=
  Machine.start (fun i => (calls i).program) tables

/-- A call that has read an empty queue and is about to validate still finds it empty. -/
theorem settled_of_clean {calls : ι → RepairCall} {tables : RepairTables} {m : RepairMachine ι}
    (h : Interleaves Undisturbed (startCalls calls tables) m) {i : ι} {anchorHeight : Nat}
    (hview : Machine.viewOf checkMonitor (Machine.own i m.history) = .clean anchorHeight)
    (hnext : aboutToValidate (m.pool i)) : m.shared.scanQueue.FoundNotesSettled := by
  let Assertion (view : CheckView) (rest : Prog RepairStatement RepairStatement.Reply Unit)
      (tables : RepairTables) : Prop :=
    ∀ anchorHeight, view = .clean anchorHeight → aboutToValidate rest →
      tables.scanQueue.FoundNotesSettled
  refine Machine.assertion_of_reach (M := checkMonitor) (A := fun _ => Assertion) ?_ ?_ ?_ h i
    anchorHeight hview hnext
  · intro i anchorHeight hidle
    cases hidle
  · -- a call's own step leads to the clean view only by reading an empty queue
    intro _ view statement rest reply before after _ hexec anchorHeight hclean _
    obtain ⟨-, hread⟩ := CheckView.next_eq_clean (e := ⟨(), statement, reply⟩) hclean
    cases hread
    obtain ⟨hnone, rfl⟩ := hexec
    exact ScanQueue.foundNotesSettled_of_next_eq_none hnone.symm
  · intro m m' e hstep hundisturbed i hi hassertion anchorHeight hclean hvalidate
    obtain ⟨k, shared, -, hexec⟩ := hstep
    refine hexec.settled (hassertion anchorHeight hclean hvalidate) ?_
    intro hopens
    exact hundisturbed hopens i hi hvalidate

/-- The last three statements of a call whose view is clean. -/
theorem history_of_clean {i : ι}
    {history : List (Event ι RepairStatement RepairStatement.Reply)} {anchorHeight : Nat}
    (h : Machine.viewOf checkMonitor (Machine.own i history) = .clean anchorHeight) :
    ∃ earlier accountId walletBirthday endExclusive reply,
      Machine.own i history = earlier ++
        [⟨i, .checkWitnesses accountId anchorHeight walletBirthday, .ok []⟩,
          ⟨i, .markFoundNoteDoneThrough endExclusive, reply⟩,
          ⟨i, .nextFoundNoteRange, .ok none⟩] := by
  obtain ⟨before₃, e₃, hown₃, hclean⟩ := Machine.concat_of_viewOf_eq h nofun
  obtain ⟨hview₃, he₃⟩ := CheckView.next_eq_clean hclean
  obtain ⟨before₂, e₂, rfl, hretired⟩ := Machine.concat_of_viewOf_eq hview₃ nofun
  obtain ⟨hview₂, endExclusive, reply, he₂⟩ := CheckView.next_eq_retired hretired
  obtain ⟨before₁, e₁, rfl, hwitnessed⟩ := Machine.concat_of_viewOf_eq hview₂ nofun
  obtain ⟨accountId, walletBirthday, he₁⟩ := CheckView.next_eq_witnessed hwitnessed
  have hthread : ∀ e ∈ [e₁, e₂, e₃], e.thread = i := by
    intro e he
    have hmem : e ∈ Machine.own i history := by
      rw [hown₃]
      simp only [List.mem_append, List.mem_cons] at he ⊢
      tauto
    exact Machine.thread_of_mem_own hmem
  rw [hthread e₁ (by simp)] at he₁
  rw [hthread e₂ (by simp)] at he₂
  rw [hthread e₃ (by simp)] at he₃
  refine ⟨before₁, accountId, walletBirthday, endExclusive, reply, ?_⟩
  rw [hown₃, ← he₁, ← he₂, ← he₃]
  simp

/-- A row that was there at the start of a run has kept its status, or has been in progress
in one of the states passed. -/
theorem kept_or_activated {m₁ m₂ : RepairMachine ι} (h : Interleaves (fun _ _ => True) m₁ m₂)
    {row' : ScanRangeRow} (hrow' : row' ∈ m₂.shared.scanQueue.rows)
    (hid : row'.id < m₁.shared.scanQueue.nextId) :
    (∃ row ∈ m₁.shared.scanQueue.rows, row.id = row'.id ∧ row.status = row'.status) ∨
      ∃ m, Interleaves (fun _ _ => True) m₁ m ∧ Interleaves (fun _ _ => True) m m₂ ∧
        ∃ row ∈ m.shared.scanQueue.rows, row.id = row'.id ∧ row.status = .inProgress := by
  have hgrows : ∀ {m}, Interleaves (fun _ _ => True) m₁ m →
      m₁.shared.scanQueue.nextId ≤ m.shared.scanQueue.nextId := by
    intro m hm
    induction hm with
    | refl => exact le_rfl
    | tail _ hstep ih =>
      obtain ⟨e, ⟨k, shared, -, hexec⟩, -⟩ := hstep
      exact ih.trans hexec.evolves.1
  induction h generalizing row' with
  | refl => exact .inl ⟨row', hrow', rfl, rfl⟩
  | @tail m m₂ hm hstep ih =>
    by_cases hactive : row'.status = .inProgress
    · exact .inr ⟨m₂, hm.tail hstep, .refl, row', hrow', rfl, hactive⟩
    have hevolves : m.shared.scanQueue.Evolves m₂.shared.scanQueue := by
      obtain ⟨e, ⟨k, shared, -, hexec⟩, -⟩ := hstep
      exact hexec.evolves
    -- the row is older than the run, so it was a row before this step too
    obtain hnew | ⟨old, hold, holdId, hstatus⟩ := hevolves.2 row' hrow'
    · have := hgrows hm
      omega
    rcases hstatus with hkept | hnow | hbefore
    · rcases ih hold (holdId ▸ hid) with ⟨row, hrow, hrowId, hrowStatus⟩ | ⟨mid, h₁, h₂, hmid⟩
      · exact .inl ⟨row, hrow, hrowId.trans holdId, hrowStatus.trans hkept.symm⟩
      · rw [holdId] at hmid
        exact .inr ⟨mid, h₁, h₂.tail hstep, hmid⟩
    · exact absurd hnow hactive
    · exact .inr ⟨m, hm, .single hstep, old, hold, holdId, hbefore⟩

/-- **Validation over a clean queue, and no repair retired unseen.** In every interleaving
in which no row is opened between a call's empty read and its `mark_validated`, a call
validates over a queue without open `FoundNote` rows, after a witness check at the same
anchor that reported no range. In every interleaving at all, a pending row that ends up done
was in progress in between. -/
theorem validation_follows_clean_queue (calls : ι → RepairCall) (tables : RepairTables) :
    (∀ m m' e targetHeight anchorHeight,
      Interleaves Undisturbed (startCalls calls tables) m →
      Machine.Step RepairTables.Executes m e m' →
      e.stmt = .markValidated targetHeight anchorHeight →
      m.shared.scanQueue.FoundNotesSettled ∧
        ∃ earlier accountId walletBirthday endExclusive reply,
          Machine.own e.thread m.history = earlier ++
            [⟨e.thread, .checkWitnesses accountId anchorHeight walletBirthday, .ok []⟩,
              ⟨e.thread, .markFoundNoteDoneThrough endExclusive, reply⟩,
              ⟨e.thread, .nextFoundNoteRange, .ok none⟩]) ∧
    (∀ m₁ m₂, Interleaves (fun _ _ => True) (startCalls calls tables) m₁ →
      Interleaves (fun _ _ => True) m₁ m₂ →
      ∀ row ∈ m₁.shared.scanQueue.rows, row.status = .pending →
      ∀ row' ∈ m₂.shared.scanQueue.rows, row'.id = row.id → row'.status = .done →
      ∃ m, Interleaves (fun _ _ => True) m₁ m ∧ Interleaves (fun _ _ => True) m m₂ ∧
        ∃ active ∈ m.shared.scanQueue.rows, active.id = row.id ∧
          active.status = .inProgress) := by
  constructor
  · intro m m' e targetHeight anchorHeight hreach hstep hstmt
    have hview : Machine.viewOf checkMonitor (Machine.own e.thread m.history)
        = .clean anchorHeight :=
      Machine.permits_of_reach (fun i => program_obeys (calls i)) hreach hstep _ _ hstmt
    refine ⟨settled_of_clean hreach hview ?_, history_of_clean hview⟩
    obtain ⟨k, shared, hpool, -⟩ := hstep
    obtain ⟨i, statement, reply⟩ := e
    obtain rfl : statement = .markValidated targetHeight anchorHeight := hstmt
    rw [hpool]
    trivial
  · intro m₁ m₂ _ hrun row hrow hpending row' hrow' hid hdone
    have hbound : row'.id < m₁.shared.scanQueue.nextId := by
      rw [hid]
      exact AutoTable.ids_lt _ row hrow
    rcases kept_or_activated hrun hrow' hbound with ⟨old, hold, holdId, hkept⟩ | ⟨m, h₁, h₂, hm⟩
    · -- the row with this id was pending, so it cannot have been done from the start
      obtain rfl := ScanQueue.row_eq_of_id hold hrow (holdId.trans hid)
      rw [hpending, hdone] at hkept
      cases hkept
    · rw [hid] at hm
      exact ⟨m, h₁, h₂, hm⟩

end Interleavings

/-! ## Two runs -/

/-- The statement a call runs next. -/
def nextStatement : Prog RepairStatement RepairStatement.Reply Unit → Option RepairStatement
  | .ret _ => none
  | .step statement _ => some statement

theorem step_of_nextStatement {ι : Type} [DecidableEq ι] {m : RepairMachine ι} {i : ι}
    {statement : RepairStatement} (h : nextStatement (m.pool i) = some statement)
    (other : OtherTables) (now : String) :
    ∃ e, Machine.Step RepairTables.Executes m e (m.fire (RepairTables.answer other now) i) ∧
      e.stmt = statement := by
  cases hpool : m.pool i with
  | ret a =>
    rw [hpool] at h
    cases h
  | step next k =>
    rw [hpool] at h
    obtain rfl := Option.some.inj h
    exact ⟨_, Machine.step_fire (RepairTables.executes_answer other now) hpool, rfl⟩

/-- A wallet whose witnesses are complete. -/
def healthyTables : OtherTables := ⟨some 1, 1, none, []⟩

/-- The tables after calls that ran one after the other on a fresh wallet. -/
def tablesAfter (calls : List RepairCall) : RepairTables :=
  calls.foldl
    (fun tables call => (call.program.alone (RepairTables.answer healthyTables "t0") tables).2)
    (.fresh "t0")

/-- The witness check alone, at height ten, over a repair of `[5, 8)` that was activated. -/
def checkAfterRepair : RepairMachine Unit :=
  startCalls (fun _ => .checkWitnesses "t1" 1 10 false)
    (tablesAfter [.saveSyncState "t0" 1 1 10 10 10 true,
      .queueRepairRange 5 8 errWitnessRepairQueued, .activateQueuedFoundNoteRange])

/-- The check retires the finished repair, finds the queue empty and validates. -/
theorem validation_follows_retired_repair :
    ∃ m e m', Interleaves Undisturbed checkAfterRepair m ∧
      Machine.Step RepairTables.Executes m e m' ∧ e.stmt = .markValidated 11 10 ∧
      m.shared.scanQueue.FoundNotesSettled := by
  let m := (List.replicate 9 ()).foldl (Machine.fire (RepairTables.answer healthyTables "t1"))
    checkAfterRepair
  have hnext : nextStatement (m.pool ()) = some (.markValidated 11 10) := by
    decide +kernel
  have hreach : Interleaves Undisturbed checkAfterRepair m :=
    Machine.reach_schedule (RepairTables.executes_answer healthyTables "t1")
      (fun _ e _ i hi => absurd rfl hi) _ _
  obtain ⟨e, hstep, hstmt⟩ := step_of_nextStatement hnext healthyTables "t1"
  exact ⟨m, e, _, hreach, hstep, hstmt,
    ((validation_follows_clean_queue _ _).1 m _ e 11 10 hreach hstep hstmt).1⟩

/-- A progress write at height ten, the witness check at that tip, and the repair request of
a rejected broadcast. -/
def disturbedCalls (i : Fin 3) : RepairCall :=
  match i with
  | 0 => .saveSyncState "t0" 1 1 10 10 10 true
  | 1 => .checkWitnesses "t0" 1 10 false
  | 2 => .queueRepairRange 4 6 errWitnessRepairQueued

/-- The request is queued after the check has read an empty queue, so the check validates
over a pending repair and the wallet may spend. -/
theorem validation_overtakes_repair :
    ∃ m e m', Interleaves (fun _ _ => True) (startCalls disturbedCalls (.fresh "t0")) m ∧
      Machine.Step RepairTables.Executes m e m' ∧ e.stmt = .markValidated 11 10 ∧
      (∃ row ∈ m.shared.scanQueue.rows, row.priority = scanPriorityFoundNote ∧
        row.status = .pending) ∧
      m'.shared.spendabilityState.spendable = true := by
  let schedule : List (Fin 3) :=
    List.replicate 11 0 ++ List.replicate 9 1 ++ List.replicate 3 2
  let m := schedule.foldl (Machine.fire (RepairTables.answer healthyTables "t1"))
    (startCalls disturbedCalls (.fresh "t0"))
  have hnext : nextStatement (m.pool 1) = some (.markValidated 11 10) := by
    decide +kernel
  obtain ⟨e, hstep, hstmt⟩ := step_of_nextStatement hnext healthyTables "t1"
  refine ⟨m, e, _, ?_, hstep, hstmt, ?_, ?_⟩
  · exact Machine.reach_schedule (RepairTables.executes_answer healthyTables "t1")
      (fun _ _ => trivial) _ _
  · decide +kernel
  · decide +kernel

end StashiWallet
