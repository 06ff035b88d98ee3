import Mathlib.Data.List.MinMax
import StashiWallet.AutoTable
import StashiWallet.Sql
import StashiWallet.RangeCover

/-!
# The scan queue table

Repair and history work is a table of half-open height ranges, each with a priority and a
status. The table's own guarantees are part of the types: a row carries the two `CHECK`
constraints of the schema (the start is positive, the range is not empty), and the table
carries its `AUTOINCREMENT` key. Statements are built from three primitives, `deleteWhere`,
`setStatusWhere` and `insert`, of which only the last can violate a constraint.

`queueRange` is split where the source splits it: `planMerge` is the `SELECT` with its
loop, run outside a transaction, and `commitMerge` is the transaction that follows.
-/

namespace StashiWallet

/-- `SCAN_PRIORITY_HISTORIC`. -/
def scanPriorityHistoric : Int := 10

/-- `SCAN_PRIORITY_FOUND_NOTE`. -/
def scanPriorityFoundNote : Int := 40

/-- The three values of the `status` column. -/
inductive ScanStatus where
  | pending
  | inProgress
  | done
deriving DecidableEq, Repr

/-- `ScanRangeRow`, with the table's `CHECK` constraints. -/
structure ScanRangeRow where
  id : Nat
  rangeStart : Nat
  rangeEnd : Nat
  priority : Int
  status : ScanStatus
  reason : Option String
  updatedAt : String
  start_pos : 0 < rangeStart
  nonempty : rangeStart < rangeEnd
deriving DecidableEq, Repr

namespace ScanRangeRow

/-- The heights `[rangeStart, rangeEnd)` as a pair. -/
def range (row : ScanRangeRow) : Nat × Nat := (row.rangeStart, row.rangeEnd)

/-- `status IN ('pending', 'in_progress')`. -/
def active (row : ScanRangeRow) : Bool := row.status != .done

/-- `priority = ?1 AND status = ?2`. -/
def isAt (priority : Int) (status : ScanStatus) (row : ScanRangeRow) : Bool :=
  row.priority == priority && row.status == status

/-- `NOT (range_end <= ?2 OR range_start >= ?3)`. -/
def overlaps (rangeStart rangeEnd : Nat) (row : ScanRangeRow) : Bool :=
  !(row.rangeEnd ≤ rangeStart || row.rangeStart ≥ rangeEnd)

theorem overlaps_iff_meets {rangeStart rangeEnd : Nat} {row : ScanRangeRow} :
    row.overlaps rangeStart rangeEnd = true ↔
      RangeCover.Meets row.range (rangeStart, rangeEnd) := by
  simp only [overlaps, RangeCover.Meets, range, Bool.not_eq_true', Bool.or_eq_false_iff,
    decide_eq_false_iff_not]
  omega

end ScanRangeRow

/-- The table `scan_queue`. -/
def ScanQueue : Type := AutoTable ScanRangeRow ScanRangeRow.id

namespace ScanQueue

def rows (queue : ScanQueue) : List ScanRangeRow := AutoTable.rows queue

def empty : ScanQueue := AutoTable.empty

/-- `DELETE FROM scan_queue WHERE p`. -/
def deleteWhere (p : ScanRangeRow → Bool) (queue : ScanQueue) : ScanQueue :=
  AutoTable.deleteWhere p queue

def withStatus (now : String) (status : ScanStatus) (row : ScanRangeRow) : ScanRangeRow :=
  { row with status := status, updatedAt := now }

/-- `UPDATE scan_queue SET status = ?, updated_at = now WHERE p`. -/
def setStatusWhere (now : String) (p : ScanRangeRow → Bool) (status : ScanStatus)
    (queue : ScanQueue) : ScanQueue :=
  AutoTable.updateWhere p (withStatus now status) (fun _ => rfl) queue

/-- `INSERT INTO scan_queue`: fails when a `CHECK` fails, and then inserts nothing. -/
def insert (now : String) (rangeStart rangeEnd : Nat) (priority : Int) (status : ScanStatus)
    (reason : Option String) (queue : ScanQueue) : Except StorageError ScanQueue :=
  if h : 0 < rangeStart ∧ rangeStart < rangeEnd then
    .ok (AutoTable.insert
      (fun id => ⟨id, rangeStart, rangeEnd, priority, status, reason, now, h.1, h.2⟩)
      (fun _ => rfl) queue)
  else .error (.database "CHECK constraint failed: scan_queue")

/-! ## Queueing a range -/

/-- What the loop of `queue_range` over the selected rows accumulates. -/
structure MergePlan where
  mergedStart : Nat
  mergedEnd : Nat
  overlappingPendingIds : List Nat
  overlappingInProgressRanges : List (Nat × Nat)
deriving DecidableEq, Repr

/-- The loop body: an in-progress row is only noted, a pending one is absorbed. -/
def MergePlan.visit (plan : MergePlan) (row : ScanRangeRow) : MergePlan :=
  if row.status = .inProgress then
    { plan with
      overlappingInProgressRanges := plan.overlappingInProgressRanges ++ [row.range] }
  else
    { plan with
      overlappingPendingIds := plan.overlappingPendingIds ++ [row.id]
      mergedStart := min plan.mergedStart row.rangeStart
      mergedEnd := max plan.mergedEnd row.rangeEnd }

/-- The rows the `SELECT` of `queue_range` returns. -/
def overlapping (priority : Int) (rangeStart rangeEnd : Nat) (queue : ScanQueue) :
    List ScanRangeRow :=
  queue.rows.filter (fun row =>
    row.priority == priority && row.active && row.overlaps rangeStart rangeEnd)

/-- The `SELECT` of `queue_range` and the loop over its rows. -/
def planMerge (priority : Int) (rangeStart rangeEnd : Nat) (queue : ScanQueue) : MergePlan :=
  (queue.overlapping priority rangeStart rangeEnd).foldl MergePlan.visit
    ⟨rangeStart, rangeEnd, [], []⟩

/-- Nothing pending to merge, and one active row already covers the whole request. -/
def MergePlan.alreadyCovered (rangeStart rangeEnd : Nat) (plan : MergePlan) : Bool :=
  plan.overlappingPendingIds.isEmpty &&
    plan.overlappingInProgressRanges.any (fun r => r.1 ≤ rangeStart && r.2 ≥ rangeEnd)

/-- The transaction of `queue_range`: the absorbed rows go, the merged row comes. A failed
`CHECK` rolls the deletions back, so the table is then unchanged. -/
def commitMerge (now : String) (priority : Int) (reason : Option String) (plan : MergePlan)
    (queue : ScanQueue) : Except StorageError ScanQueue :=
  (queue.deleteWhere (fun row => plan.overlappingPendingIds.contains row.id)).insert now
    plan.mergedStart plan.mergedEnd priority .pending reason

def queueRange (now : String) (rangeStart rangeEnd : Nat) (priority : Int)
    (reason : Option String) (queue : ScanQueue) : Except StorageError ScanQueue := do
  if rangeStart ≥ rangeEnd then
    return queue
  let rangeStart ← toSqlI64 rangeStart
  let rangeEnd ← toSqlI64 rangeEnd
  let plan := queue.planMerge priority rangeStart rangeEnd
  if plan.alreadyCovered rangeStart rangeEnd then
    return queue
  queue.commitMerge now priority reason plan

def queueFoundNoteRange (now : String) (rangeStart rangeEnd : Nat) (reason : Option String)
    (queue : ScanQueue) : Except StorageError ScanQueue :=
  queue.queueRange now rangeStart rangeEnd scanPriorityFoundNote reason

/-! ## Recording history -/

/-- The rows of priority `HISTORIC`, whatever their status. -/
def historic (queue : ScanQueue) : List ScanRangeRow :=
  queue.rows.filter (fun row => row.priority == scanPriorityHistoric)

/-- `SELECT MIN(range_start), MAX(range_end) FROM scan_queue WHERE priority = HISTORIC`. -/
def historicExtrema (queue : ScanQueue) : Option (Nat × Nat) :=
  match queue.historic with
  | [] => none
  | row :: rows => some (RangeCover.hull row.range (rows.map ScanRangeRow.range))

/-- `record_historic_scanned_range`: one `done` row takes the place of every `HISTORIC`
row. -/
def recordHistoricScannedRange (now : String) (rangeStart rangeEnd : Nat)
    (reason : Option String) (queue : ScanQueue) : Except StorageError ScanQueue := do
  if rangeStart ≥ rangeEnd then
    return queue
  let rangeStart ← toSqlI64 rangeStart
  let rangeEnd ← toSqlI64 rangeEnd
  let existing := queue.historicExtrema.getD (rangeStart, rangeEnd)
  (queue.deleteWhere (fun row => row.priority == scanPriorityHistoric)).insert now
    (min existing.1 rangeStart) (max existing.2 rangeEnd) scanPriorityHistoric .done reason

/-- `scan_queue_extrema`: the scannable heights, both ends inclusive. -/
def scanQueueExtrema (queue : ScanQueue) : Option (Nat × Nat) :=
  match queue.historicExtrema with
  | some (rangeStart, rangeEnd) =>
    if rangeEnd > rangeStart then some (max rangeStart 1, rangeEnd - 1) else none
  | none => none

/-! ## Working the queue -/

/-- `next_found_note_range`: in-progress rows first, then the lowest start. -/
def nextFoundNoteRange (queue : ScanQueue) : Option ScanRangeRow :=
  ((queue.rows.filter (ScanRangeRow.isAt scanPriorityFoundNote .inProgress)).argmin
      ScanRangeRow.rangeStart).orElse fun _ =>
    (queue.rows.filter (ScanRangeRow.isAt scanPriorityFoundNote .pending)).argmin
      ScanRangeRow.rangeStart

def markInProgress (now : String) (id : Nat) (queue : ScanQueue) : ScanQueue :=
  queue.setStatusWhere now (fun row => row.id == id) .inProgress

def markDone (now : String) (id : Nat) (queue : ScanQueue) : ScanQueue :=
  queue.setStatusWhere now (fun row => row.id == id) .done

/-- `mark_found_note_done_through`: only rows already in progress are retired. -/
def markFoundNoteDoneThrough (now : String) (endExclusive : Nat) (queue : ScanQueue) :
    Except StorageError ScanQueue := do
  let endExclusive ← toSqlI64 endExclusive
  return queue.setStatusWhere now
    (fun row => row.isAt scanPriorityFoundNote .inProgress && row.rangeEnd ≤ endExclusive) .done

def clearAll (queue : ScanQueue) : ScanQueue := queue.deleteWhere (fun _ => true)

def clearFoundNoteRanges (queue : ScanQueue) : ScanQueue :=
  queue.deleteWhere (fun row => row.priority == scanPriorityFoundNote)

/-! ## What the primitives do to rows -/

@[simp]
theorem deleteWhere_rows (p : ScanRangeRow → Bool) (queue : ScanQueue) :
    (queue.deleteWhere p).rows = queue.rows.filter (fun row => !p row) := rfl

@[simp]
theorem setStatusWhere_rows (now : String) (p : ScanRangeRow → Bool) (status : ScanStatus)
    (queue : ScanQueue) :
    (queue.setStatusWhere now p status).rows
      = queue.rows.map (fun row => if p row then withStatus now status row else row) := rfl

/-- An accepted `INSERT` appends one row that holds what was asked. -/
theorem insert_eq_ok {now : String} {rangeStart rangeEnd : Nat} {priority : Int}
    {status : ScanStatus} {reason : Option String} {queue next : ScanQueue}
    (h : queue.insert now rangeStart rangeEnd priority status reason = .ok next) :
    ∃ row : ScanRangeRow, next.rows = queue.rows ++ [row] ∧
      row.range = (rangeStart, rangeEnd) ∧ row.priority = priority ∧ row.status = status := by
  unfold insert at h
  split at h
  · obtain rfl := Except.ok.inj h
    exact ⟨_, rfl, rfl, rfl, rfl⟩
  · cases h

theorem row_eq_of_id {queue : ScanQueue} {a b : ScanRangeRow} (ha : a ∈ queue.rows)
    (hb : b ∈ queue.rows) (hid : a.id = b.id) : a = b :=
  AutoTable.row_eq_of_id ha hb hid

end ScanQueue

end StashiWallet
