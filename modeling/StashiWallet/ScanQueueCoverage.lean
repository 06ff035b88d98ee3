import Mathlib
import StashiWallet.Runs
import StashiWallet.ScanQueue

/-!
# What the scan queue covers

A height stays requested while some pending or in-progress row of its priority covers it.
This module follows the covered heights through arbitrary sequences of queue operations.

The invariant is that pending rows of one priority never overlap. It is what makes a merge
exact: `queue_range` absorbs the pending rows its request meets, a hull of ranges that all
meet the request is their union, and a pending row that was not absorbed is disjoint from
each part and therefore from the hull.
-/

namespace StashiWallet

namespace ScanQueue

/-- The ranges of the active (pending or in-progress) rows of a priority. -/
def activeRanges (priority : Int) (queue : ScanQueue) : List (Nat × Nat) :=
  (queue.rows.filter (fun row => row.priority == priority && row.active)).map ScanRangeRow.range

/-- The ranges of the pending rows of a priority. -/
def pendingRanges (priority : Int) (queue : ScanQueue) : List (Nat × Nat) :=
  (queue.rows.filter (ScanRangeRow.isAt priority .pending)).map ScanRangeRow.range

/-- The in-progress rows, of every priority. -/
def inProgressRows (queue : ScanQueue) : List ScanRangeRow :=
  queue.rows.filter (fun row => row.status == .inProgress)

/-- The heights a priority still has work requested for. -/
def covered (priority : Int) (queue : ScanQueue) : Set Nat :=
  RangeCover.cover (queue.activeRanges priority)

variable {priority : Int}

theorem mem_covered {queue : ScanQueue} {height : Nat} :
    height ∈ queue.covered priority ↔
      ∃ row ∈ queue.rows, row.priority = priority ∧ row.status ≠ .done ∧
        row.rangeStart ≤ height ∧ height < row.rangeEnd := by
  simp only [covered, activeRanges, RangeCover.mem_cover, List.mem_map, List.mem_filter,
    Bool.and_eq_true, beq_iff_eq, ScanRangeRow.active, bne_iff_ne, ScanRangeRow.range]
  constructor
  · rintro ⟨_, ⟨row, ⟨hrow, hp, hs⟩, rfl⟩, hx⟩
    exact ⟨row, hrow, hp, hs, hx⟩
  · rintro ⟨row, hrow, hp, hs, hx⟩
    exact ⟨_, ⟨row, ⟨hrow, hp, hs⟩, rfl⟩, hx⟩

/-- Two rows that are pending at one priority share no height. -/
def Apart (a b : ScanRangeRow) : Prop :=
  a.priority = b.priority → a.status = .pending → b.status = .pending →
    Disjoint (Set.Ico a.rangeStart a.rangeEnd) (Set.Ico b.rangeStart b.rangeEnd)

/-- **The queue invariant**: pending rows of one priority are pairwise disjoint. -/
def PendingDisjoint (queue : ScanQueue) : Prop := queue.rows.Pairwise Apart

theorem pendingDisjoint_empty : empty.PendingDisjoint := List.Pairwise.nil

/-- The invariant, read off the ranges of one priority. -/
theorem PendingDisjoint.ranges {queue : ScanQueue} (h : queue.PendingDisjoint)
    (priority : Int) :
    (queue.pendingRanges priority).Pairwise
      (fun a b => Disjoint (Set.Ico a.1 a.2) (Set.Ico b.1 b.2)) := by
  rw [pendingRanges, List.pairwise_map]
  refine List.Pairwise.imp_of_mem ?_ (h.filter (ScanRangeRow.isAt priority .pending))
  intro a b ha hb hab
  have ha := List.of_mem_filter ha
  have hb := List.of_mem_filter hb
  simp only [ScanRangeRow.isAt, Bool.and_eq_true, beq_iff_eq] at ha hb
  exact hab (ha.1.trans hb.1.symm) ha.2 hb.2

theorem pendingRanges_nonempty {queue : ScanQueue} {r : Nat × Nat}
    (hr : r ∈ queue.pendingRanges priority) : 0 < r.1 ∧ r.1 < r.2 := by
  obtain ⟨row, -, rfl⟩ := List.mem_map.mp hr
  exact ⟨row.start_pos, row.nonempty⟩

/-! ## The merge -/

/-- The pending rows of the priority that a request meets: those `queue_range` absorbs. -/
def absorbed (priority : Int) (rangeStart rangeEnd : Nat) (queue : ScanQueue) :
    List ScanRangeRow :=
  (queue.overlapping priority rangeStart rangeEnd).filter (fun row => row.status != .inProgress)

variable {rangeStart rangeEnd : Nat}

theorem mem_absorbed {queue : ScanQueue} {row : ScanRangeRow} :
    row ∈ queue.absorbed priority rangeStart rangeEnd ↔
      row ∈ queue.rows ∧ row.priority = priority ∧ row.status = .pending ∧
        RangeCover.Meets row.range (rangeStart, rangeEnd) := by
  simp only [absorbed, overlapping, List.mem_filter, Bool.and_eq_true, beq_iff_eq, bne_iff_ne,
    ScanRangeRow.active, ScanRangeRow.overlaps_iff_meets]
  cases row.status <;> simp

theorem foldl_visit (rows : List ScanRangeRow) (plan : MergePlan) :
    rows.foldl MergePlan.visit plan =
      { mergedStart := (RangeCover.hull (plan.mergedStart, plan.mergedEnd)
          ((rows.filter (fun row => row.status != .inProgress)).map ScanRangeRow.range)).1
        mergedEnd := (RangeCover.hull (plan.mergedStart, plan.mergedEnd)
          ((rows.filter (fun row => row.status != .inProgress)).map ScanRangeRow.range)).2
        overlappingPendingIds := plan.overlappingPendingIds ++
          (rows.filter (fun row => row.status != .inProgress)).map ScanRangeRow.id
        overlappingInProgressRanges := plan.overlappingInProgressRanges ++
          (rows.filter (fun row => row.status == .inProgress)).map ScanRangeRow.range } := by
  induction rows generalizing plan with
  | nil => simp
  | cons row rows ih =>
    rw [List.foldl_cons, ih]
    by_cases h : row.status = .inProgress
    · simp [MergePlan.visit, h]
    · simp [MergePlan.visit, h, ScanRangeRow.range]

/-- What the loop of `queue_range` computes: the hull of the request and the absorbed
rows, the absorbed ids, and the in-progress ranges it met. -/
theorem planMerge_eq (priority : Int) (rangeStart rangeEnd : Nat) (queue : ScanQueue) :
    queue.planMerge priority rangeStart rangeEnd =
      { mergedStart := (RangeCover.hull (rangeStart, rangeEnd)
          ((queue.absorbed priority rangeStart rangeEnd).map ScanRangeRow.range)).1
        mergedEnd := (RangeCover.hull (rangeStart, rangeEnd)
          ((queue.absorbed priority rangeStart rangeEnd).map ScanRangeRow.range)).2
        overlappingPendingIds :=
          (queue.absorbed priority rangeStart rangeEnd).map ScanRangeRow.id
        overlappingInProgressRanges :=
          ((queue.overlapping priority rangeStart rangeEnd).filter
            (fun row => row.status == .inProgress)).map ScanRangeRow.range } := by
  rw [planMerge, foldl_visit]
  simp [absorbed]

/-- **The hull of a merge covers the request and the absorbed rows, and nothing else.** -/
theorem Ico_merged (priority : Int) (rangeStart rangeEnd : Nat) (queue : ScanQueue) :
    Set.Ico (queue.planMerge priority rangeStart rangeEnd).mergedStart
        (queue.planMerge priority rangeStart rangeEnd).mergedEnd
      = Set.Ico rangeStart rangeEnd ∪
        RangeCover.cover ((queue.absorbed priority rangeStart rangeEnd).map
          ScanRangeRow.range) := by
  rw [planMerge_eq]
  refine RangeCover.Ico_hull ?_
  intro r hr
  obtain ⟨row, hrow, rfl⟩ := List.mem_map.mp hr
  exact (mem_absorbed.mp hrow).2.2.2

/-- What is left of the table once the absorbed rows are deleted. -/
theorem mem_deleteAbsorbed {queue : ScanQueue} {row : ScanRangeRow} :
    row ∈ (queue.deleteWhere (fun row =>
        (queue.planMerge priority rangeStart rangeEnd).overlappingPendingIds.contains row.id)).rows
      ↔ row ∈ queue.rows ∧ row ∉ queue.absorbed priority rangeStart rangeEnd := by
  rw [planMerge_eq]
  simp only [deleteWhere_rows, List.mem_filter, Bool.not_eq_true', List.contains_eq_mem,
    decide_eq_false_iff_not, List.mem_map, not_exists, not_and]
  refine and_congr_right ?_
  intro hrow
  constructor
  · intro h habs
    exact h row habs rfl
  · intro h other hother hid
    have heq := row_eq_of_id (mem_absorbed.mp hother).1 hrow hid
    exact h (heq ▸ hother)

variable {reason : Option String} {queue next : ScanQueue} {now : String}

variable (h : queue.queueRange now rangeStart rangeEnd priority reason = .ok next)

include h in
/-- **Everything `queue_range` can do.** Either the request is empty, or an in-progress
row already covers it, and the table is unchanged; or the absorbed rows are replaced by one
pending row, the hull. -/
theorem queueRange_cases :
    (next = queue ∧ rangeEnd ≤ rangeStart) ∨
    (next = queue ∧ ∃ row ∈ queue.rows, row.priority = priority ∧ row.status = .inProgress ∧
      row.rangeStart ≤ rangeStart ∧ rangeEnd ≤ row.rangeEnd) ∨
    ∃ row : ScanRangeRow,
      next.rows = (queue.deleteWhere (fun row =>
        (queue.planMerge priority rangeStart rangeEnd).overlappingPendingIds.contains
          row.id)).rows ++ [row] ∧
      row.range = ((queue.planMerge priority rangeStart rangeEnd).mergedStart,
        (queue.planMerge priority rangeStart rangeEnd).mergedEnd) ∧
      row.priority = priority ∧ row.status = .pending := by
  unfold queueRange at h
  split at h
  · exact Or.inl ⟨(Except.ok.inj h).symm, by assumption⟩
  · simp only [toSqlI64_bind_eq_ok] at h
    obtain ⟨-, -, h⟩ := h
    split at h
    · rename_i hcovered
      refine Or.inr (Or.inl ⟨(Except.ok.inj h).symm, ?_⟩)
      rw [MergePlan.alreadyCovered, planMerge_eq, Bool.and_eq_true, List.any_eq_true] at hcovered
      obtain ⟨-, r, hr, hspan⟩ := hcovered
      obtain ⟨row, hrow, rfl⟩ := List.mem_map.mp hr
      simp only [overlapping, List.mem_filter, Bool.and_eq_true, beq_iff_eq] at hrow
      obtain ⟨hlo, hhi⟩ := Bool.and_eq_true_iff.mp hspan
      exact ⟨row, hrow.1.1, hrow.1.2.1.1, hrow.2, of_decide_eq_true hlo, of_decide_eq_true hhi⟩
    · obtain ⟨row, hrows, hrange, hp, hs⟩ := insert_eq_ok h
      exact Or.inr (Or.inr ⟨row, hrows, hrange, hp, hs⟩)

include h in
/-- **A successful `queue_range` adds exactly the requested heights** to those its priority
covers. -/
theorem covered_queueRange :
    next.covered priority = queue.covered priority ∪ Set.Ico rangeStart rangeEnd := by
  rcases queueRange_cases h with ⟨rfl, hempty⟩ | ⟨rfl, row, hrow, hp, hs, hlo, hhi⟩ |
    ⟨row, hrows, hrange, hp, hs⟩
  · rw [Set.Ico_eq_empty (by omega), Set.union_empty]
  · refine (Set.union_eq_left.mpr ?_).symm
    rintro height ⟨h₁, h₂⟩
    exact mem_covered.mpr ⟨row, hrow, hp, by simp [hs], by omega, by omega⟩
  · have hmerged := Ico_merged priority rangeStart rangeEnd queue
    rw [ScanRangeRow.range, Prod.mk.injEq] at hrange
    rw [← hrange.1, ← hrange.2] at hmerged
    ext height
    have hrow : (row.rangeStart ≤ height ∧ height < row.rangeEnd) ↔
        height ∈ Set.Ico rangeStart rangeEnd ∪ RangeCover.cover
          ((queue.absorbed priority rangeStart rangeEnd).map ScanRangeRow.range) := by
      rw [← hmerged, Set.mem_Ico]
    rw [Set.mem_union, mem_covered, mem_covered, hrows]
    constructor
    · rintro ⟨r, hr, hrp, hrs, hspan⟩
      rcases List.mem_append.mp hr with hr | hr
      · exact Or.inl ⟨r, (mem_deleteAbsorbed.mp hr).1, hrp, hrs, hspan⟩
      · obtain rfl := List.mem_singleton.mp hr
        rcases hrow.mp hspan with hreq | hold
        · exact Or.inr hreq
        · obtain ⟨_, hmem, hin⟩ := RangeCover.mem_cover.mp hold
          obtain ⟨old, hold, rfl⟩ := List.mem_map.mp hmem
          obtain ⟨hold, hop, hos, -⟩ := mem_absorbed.mp hold
          exact Or.inl ⟨old, hold, hop, by simp [hos], hin⟩
    · rintro (⟨r, hr, hrp, hrs, hspan⟩ | hreq)
      · by_cases habs : r ∈ queue.absorbed priority rangeStart rangeEnd
        · refine ⟨row, by simp, hp, by simp [hs], hrow.mpr (Or.inr ?_)⟩
          exact RangeCover.mem_cover.mpr ⟨r.range, List.mem_map_of_mem habs, hspan⟩
        · exact ⟨r, List.mem_append_left _ (mem_deleteAbsorbed.mpr ⟨hr, habs⟩), hrp, hrs, hspan⟩
      · exact ⟨row, by simp, hp, by simp [hs], hrow.mpr (Or.inl hreq)⟩

/-- Other priorities are not touched by `queue_range`. -/
theorem covered_queueRange_of_ne {priority other : Int} (hne : other ≠ priority)
    (h : queue.queueRange now rangeStart rangeEnd priority reason = .ok next) :
    next.covered other = queue.covered other := by
  rcases queueRange_cases h with ⟨rfl, -⟩ | ⟨rfl, -⟩ | ⟨row, hrows, -, hp, -⟩
  · rfl
  · rfl
  · ext height
    rw [mem_covered, mem_covered, hrows]
    constructor
    · rintro ⟨r, hr, hrp, hrest⟩
      rcases List.mem_append.mp hr with hr | hr
      · exact ⟨r, (mem_deleteAbsorbed.mp hr).1, hrp, hrest⟩
      · obtain rfl := List.mem_singleton.mp hr
        exact absurd (hrp.symm.trans hp) hne
    · rintro ⟨r, hr, hrp, hrest⟩
      refine ⟨r, List.mem_append_left _ (mem_deleteAbsorbed.mpr ⟨hr, ?_⟩), hrp, hrest⟩
      intro habs
      exact hne (hrp.symm.trans (mem_absorbed.mp habs).2.1)

include h in
/-- In-progress rows survive `queue_range` as they are. -/
theorem inProgressRows_queueRange : next.inProgressRows = queue.inProgressRows := by
  rcases queueRange_cases h with ⟨rfl, -⟩ | ⟨rfl, -⟩ | ⟨row, hrows, -, -, hs⟩
  · rfl
  · rfl
  · rw [inProgressRows, hrows, List.filter_append]
    have hnew : [row].filter (fun row => row.status == .inProgress) = [] := by simp [hs]
    rw [hnew, List.append_nil, deleteWhere_rows, List.filter_filter, inProgressRows]
    refine List.filter_congr ?_
    intro r hr
    have hkept : r.status = .inProgress → r ∈ (queue.deleteWhere (fun row =>
        (queue.planMerge priority rangeStart rangeEnd).overlappingPendingIds.contains
          row.id)).rows := by
      intro hstatus
      refine mem_deleteAbsorbed.mpr ⟨hr, ?_⟩
      intro habs
      rw [(mem_absorbed.mp habs).2.2.1] at hstatus
      cases hstatus
    by_cases hstatus : r.status = .inProgress
    · have hfilter := List.of_mem_filter (hkept hstatus)
      simp only [hstatus, beq_self_eq_true, Bool.true_and]
      exact hfilter
    · simp [hstatus]

/-! ## The invariant -/

theorem Apart.symm {a b : ScanRangeRow} (h : Apart a b) : Apart b a := by
  intro hp hb ha
  exact (h hp.symm ha hb).symm

instance : Std.Symm Apart := ⟨fun _ _ => Apart.symm⟩

theorem apart_of_not_pending {a b : ScanRangeRow} (h : b.status ≠ .pending) : Apart a b :=
  fun _ _ hb => absurd hb h

theorem PendingDisjoint.deleteWhere {queue : ScanQueue} (h : queue.PendingDisjoint)
    (p : ScanRangeRow → Bool) : (queue.deleteWhere p).PendingDisjoint :=
  h.filter _

/-- No status change makes a row pending, so none can break the invariant. -/
theorem PendingDisjoint.setStatusWhere {queue : ScanQueue} (h : queue.PendingDisjoint)
    (now : String) (p : ScanRangeRow → Bool) {status : ScanStatus} (hs : status ≠ .pending) :
    (queue.setStatusWhere now p status).PendingDisjoint := by
  rw [PendingDisjoint, setStatusWhere_rows, List.pairwise_map]
  refine h.imp ?_
  intro a b hab
  split
  · exact (apart_of_not_pending (b := withStatus now status a) hs).symm
  · split
    · exact apart_of_not_pending (b := withStatus now status b) hs
    · exact hab

/-- A row that a merge left alone is disjoint from the request and from every absorbed
row, hence from their union, the merged row. -/
theorem PendingDisjoint.queueRange (hinv : queue.PendingDisjoint)
    (h : queue.queueRange now rangeStart rangeEnd priority reason = .ok next) :
    next.PendingDisjoint := by
  rcases queueRange_cases h with ⟨rfl, -⟩ | ⟨rfl, -⟩ | ⟨row, hrows, hrange, hp, -⟩
  · exact hinv
  · exact hinv
  · rw [PendingDisjoint, hrows, List.pairwise_append]
    refine ⟨hinv.deleteWhere _, List.pairwise_singleton _ _, ?_⟩
    intro r hr merged hmerged
    obtain rfl := List.mem_singleton.mp hmerged
    obtain ⟨hr, hleft⟩ := mem_deleteAbsorbed.mp hr
    rintro hsame hpending -
    rw [ScanRangeRow.range, Prod.mk.injEq] at hrange
    rw [hrange.1, hrange.2, Ico_merged, Set.disjoint_union_right]
    constructor
    · -- `r` was not absorbed although it is pending at the priority: it misses the request.
      have hmiss : ¬ RangeCover.Meets r.range (rangeStart, rangeEnd) := by
        intro hmeets
        exact hleft (mem_absorbed.mpr ⟨hr, hsame.trans hp, hpending, hmeets⟩)
      rw [Set.disjoint_left]
      rintro height ⟨h₁, h₂⟩ ⟨h₃, h₄⟩
      exact hmiss ⟨by simp only [ScanRangeRow.range]; omega,
        by simp only [ScanRangeRow.range]; omega⟩
    · rw [Set.disjoint_left]
      intro height hin hcover
      obtain ⟨_, hmem, hold⟩ := RangeCover.mem_cover.mp hcover
      obtain ⟨old, habs, rfl⟩ := List.mem_map.mp hmem
      obtain ⟨holdMem, holdPriority, holdPending, -⟩ := mem_absorbed.mp habs
      have hne : r ≠ old := by
        rintro rfl
        exact hleft habs
      have hapart := List.Pairwise.forall hinv hr holdMem hne
        (hsame.trans (hp.trans holdPriority.symm)) hpending holdPending
      exact Set.disjoint_left.mp hapart hin hold

/-- Recording history inserts a finished row and deletes others. -/
theorem PendingDisjoint.recordHistoricScannedRange (hinv : queue.PendingDisjoint)
    (h : queue.recordHistoricScannedRange now rangeStart rangeEnd reason = .ok next) :
    next.PendingDisjoint := by
  unfold ScanQueue.recordHistoricScannedRange at h
  split at h
  · exact (Except.ok.inj h) ▸ hinv
  · simp only [toSqlI64_bind_eq_ok] at h
    obtain ⟨row, hrows, -, -, hs⟩ := insert_eq_ok h.2.2
    rw [PendingDisjoint, hrows, List.pairwise_append]
    refine ⟨hinv.deleteWhere _, List.pairwise_singleton _ _, ?_⟩
    intro r _ finished hfinished
    obtain rfl := List.mem_singleton.mp hfinished
    exact apart_of_not_pending (by simp [hs])

/-! ## Sequences of operations -/

inductive Op where
  | queueRange (now : String) (rangeStart rangeEnd : Nat) (priority : Int)
      (reason : Option String)
  | recordHistoricScannedRange (now : String) (rangeStart rangeEnd : Nat)
      (reason : Option String)
  | markInProgress (now : String) (id : Nat)
  | markDone (now : String) (id : Nat)
  | markFoundNoteDoneThrough (now : String) (endExclusive : Nat)
  | clearAll
  | clearFoundNoteRanges

/-- The table after a call; a call that fails leaves it as it was. -/
def step (queue : ScanQueue) : Op → ScanQueue
  | .queueRange now rangeStart rangeEnd priority reason =>
    settle queue (queue.queueRange now rangeStart rangeEnd priority reason)
  | .recordHistoricScannedRange now rangeStart rangeEnd reason =>
    settle queue (queue.recordHistoricScannedRange now rangeStart rangeEnd reason)
  | .markInProgress now id => queue.markInProgress now id
  | .markDone now id => queue.markDone now id
  | .markFoundNoteDoneThrough now endExclusive =>
    settle queue (queue.markFoundNoteDoneThrough now endExclusive)
  | .clearAll => queue.clearAll
  | .clearFoundNoteRanges => queue.clearFoundNoteRanges

/-- The calls that finish or clear rows. -/
def Op.doneOrClear : Op → Bool
  | .queueRange .. => false
  | .recordHistoricScannedRange .. => false
  | .markInProgress .. => false
  | .markDone .. => true
  | .markFoundNoteDoneThrough .. => true
  | .clearAll => true
  | .clearFoundNoteRanges => true

/-- The calls that can end a request of the priority: those that finish or clear rows, and
for `HISTORIC` the recording of a scanned range, which replaces its rows by a finished one. -/
def Op.retires (priority : Int) : Op → Bool
  | .recordHistoricScannedRange .. => priority == scanPriorityHistoric
  | op => op.doneOrClear

theorem pendingDisjoint_step {queue : ScanQueue} (h : queue.PendingDisjoint) (op : Op) :
    (queue.step op).PendingDisjoint := by
  cases op with
  | queueRange now rangeStart rangeEnd priority reason =>
    simp only [step, settle]
    split
    · rename_i next hok
      exact h.queueRange hok
    · exact h
  | recordHistoricScannedRange now rangeStart rangeEnd reason =>
    simp only [step, settle]
    split
    · rename_i next hok
      exact h.recordHistoricScannedRange hok
    · exact h
  | markInProgress now id => exact h.setStatusWhere now _ (by simp)
  | markDone now id => exact h.setStatusWhere now _ (by simp)
  | markFoundNoteDoneThrough now endExclusive =>
    simp only [step, settle]
    split
    · rename_i next hok
      rw [markFoundNoteDoneThrough, toSqlI64_bind_eq_ok] at hok
      exact (Except.ok.inj hok.2) ▸ h.setStatusWhere now _ (by simp)
    · exact h
  | clearAll => exact h.deleteWhere _
  | clearFoundNoteRanges => exact h.deleteWhere _

theorem pendingDisjoint_run (ops : List Op) : (Runs.run step empty ops).PendingDisjoint := by
  exact (Runs.run_invariant_always (P := PendingDisjoint)
    (fun queue op h => pendingDisjoint_step h op) pendingDisjoint_empty ops).last

/-- Activating a row keeps it active. -/
theorem covered_markInProgress (now : String) (id : Nat) (priority : Int) (queue : ScanQueue) :
    queue.covered priority ⊆ (queue.markInProgress now id).covered priority := by
  intro height hmem
  obtain ⟨row, hrow, hp, hs, hspan⟩ := mem_covered.mp hmem
  refine mem_covered.mpr ⟨if row.id == id then withStatus now .inProgress row else row,
    List.mem_map_of_mem hrow, ?_⟩
  split
  · exact ⟨hp, by simp [withStatus], hspan⟩
  · exact ⟨hp, hs, hspan⟩

/-- Recording history leaves the other priorities alone. -/
theorem covered_recordHistoric_of_ne (hne : priority ≠ scanPriorityHistoric)
    (h : queue.recordHistoricScannedRange now rangeStart rangeEnd reason = .ok next) :
    queue.covered priority ⊆ next.covered priority := by
  unfold recordHistoricScannedRange at h
  split at h
  · rw [Except.ok.inj h]
  · simp only [toSqlI64_bind_eq_ok] at h
    obtain ⟨row, hrows, -⟩ := insert_eq_ok h.2.2
    intro height hmem
    obtain ⟨r, hr, hp, hrest⟩ := mem_covered.mp hmem
    refine mem_covered.mpr ⟨r, ?_, hp, hrest⟩
    rw [hrows, deleteWhere_rows, List.mem_append, List.mem_filter]
    exact Or.inl ⟨hr, by simp [hp, hne]⟩

/-- The finished row that replaces the `HISTORIC` rows is the only one, and spans all of them and
the recorded range. -/
theorem recordHistoric_spans (hlt : rangeStart < rangeEnd)
    (h : queue.recordHistoricScannedRange now rangeStart rangeEnd reason = .ok next) :
    ∃ row, next.historic = [row] ∧ row.status = .done ∧
      row.rangeStart ≤ rangeStart ∧ rangeEnd ≤ row.rangeEnd ∧
      ∀ old ∈ queue.historic, row.rangeStart ≤ old.rangeStart ∧ old.rangeEnd ≤ row.rangeEnd := by
  unfold recordHistoricScannedRange at h
  rw [if_neg (by omega)] at h
  simp only [toSqlI64_bind_eq_ok] at h
  obtain ⟨row, hrows, hrange, hp, hs⟩ := insert_eq_ok h.2.2
  rw [ScanRangeRow.range, Prod.mk.injEq] at hrange
  have hnone : (queue.deleteWhere fun row => row.priority == scanPriorityHistoric).historic = [] := by
    unfold historic
    rw [deleteWhere_rows, List.filter_filter, List.filter_eq_nil_iff]
    simp
  refine ⟨row, ?_, hs, by omega, by omega, fun old hold => ?_⟩
  · unfold historic at hnone ⊢
    rw [hrows, List.filter_append, hnone, List.nil_append, List.filter_singleton, hp]
    rfl
  · -- every historic row lies in the extrema the replacement is built from
    have hspan : (queue.historicExtrema.getD (rangeStart, rangeEnd)).1 ≤ old.rangeStart ∧
        old.rangeEnd ≤ (queue.historicExtrema.getD (rangeStart, rangeEnd)).2 := by
      unfold historicExtrema
      cases hcases : queue.historic with
      | nil => simp [hcases] at hold
      | cons first rest =>
        rw [hcases] at hold
        rcases List.mem_cons.mp hold with rfl | hrest
        · exact ⟨RangeCover.hull_fst_le old.range (rest.map ScanRangeRow.range),
            RangeCover.le_hull_snd old.range (rest.map ScanRangeRow.range)⟩
        · exact RangeCover.hull_contains (List.mem_map_of_mem hrest)
    exact ⟨by rw [hrange.1]; omega, by rw [hrange.2]; omega⟩

/-- A call that does not retire the priority keeps its covered heights. -/
theorem covered_step {op : Op} (hop : op.retires priority = false) (queue : ScanQueue) :
    queue.covered priority ⊆ (queue.step op).covered priority := by
  cases op with
  | queueRange now rangeStart rangeEnd asked reason =>
    simp only [step, settle]
    split
    · rename_i next hok
      by_cases hp : priority = asked
      · subst hp
        rw [covered_queueRange hok]
        exact Set.subset_union_left
      · rw [covered_queueRange_of_ne hp hok]
    · exact subset_rfl
  | recordHistoricScannedRange now rangeStart rangeEnd reason =>
    simp only [step, settle]
    split
    · rename_i next hok
      exact covered_recordHistoric_of_ne (by simpa [Op.retires] using hop) hok
    · exact subset_rfl
  | markInProgress now id => exact covered_markInProgress now id priority queue
  | markDone now id => simp [Op.retires, Op.doneOrClear] at hop
  | markFoundNoteDoneThrough now endExclusive => simp [Op.retires, Op.doneOrClear] at hop
  | clearAll => simp [Op.retires, Op.doneOrClear] at hop
  | clearFoundNoteRanges => simp [Op.retires, Op.doneOrClear] at hop

theorem covered_run {ops : List Op} (hops : ∀ op ∈ ops, op.retires priority = false)
    (queue : ScanQueue) : queue.covered priority ⊆ (Runs.run step queue ops).covered priority := by
  induction ops generalizing queue with
  | nil => exact subset_rfl
  | cons op ops ih =>
    refine (covered_step (hops op List.mem_cons_self) queue).trans ?_
    exact ih (fun op' h => hops op' (List.mem_cons_of_mem op h)) (queue.step op)

/-- **The queue's coverage contract.** After any sequence of calls on an empty queue:
pending ranges of a priority are non-empty and pairwise disjoint; a successful `queue_range`
adds exactly its request to the covered heights and leaves every in-progress row as it is;
over any further calls a covered height of a priority stays covered unless a call finishes
or clears rows or, for `HISTORIC`, records a scanned range; and that recording leaves one
`HISTORIC` row, a finished one, which spans the range and all that were there. -/
theorem queue_coverage (ops : List Op) :
    let queue := Runs.run step empty ops
    (∀ priority,
      (queue.pendingRanges priority).Pairwise
        (fun a b => Disjoint (Set.Ico a.1 a.2) (Set.Ico b.1 b.2)) ∧
      ∀ r ∈ queue.pendingRanges priority, r.1 < r.2) ∧
    (∀ now rangeStart rangeEnd priority reason next,
      queue.queueRange now rangeStart rangeEnd priority reason = .ok next →
        next.covered priority = queue.covered priority ∪ Set.Ico rangeStart rangeEnd ∧
        next.inProgressRows = queue.inProgressRows) ∧
    (∀ priority more, (∀ op ∈ more, op.retires priority = false) →
      queue.covered priority ⊆ (Runs.run step queue more).covered priority) ∧
    (∀ now rangeStart rangeEnd reason next, rangeStart < rangeEnd →
      queue.recordHistoricScannedRange now rangeStart rangeEnd reason = .ok next →
        ∃ row, next.historic = [row] ∧ row.status = .done ∧
          row.rangeStart ≤ rangeStart ∧ rangeEnd ≤ row.rangeEnd ∧
          ∀ old ∈ queue.historic,
            row.rangeStart ≤ old.rangeStart ∧ old.rangeEnd ≤ row.rangeEnd) := by
  intro queue
  have hinv : queue.PendingDisjoint := pendingDisjoint_run ops
  refine ⟨?_, ?_, ?_, ?_⟩
  · intro priority
    exact ⟨hinv.ranges priority, fun r hr => (pendingRanges_nonempty hr).2⟩
  · intro now rangeStart rangeEnd priority reason next h
    exact ⟨covered_queueRange h, inProgressRows_queueRange h⟩
  · intro priority more hmore
    exact covered_run hmore queue
  · intro now rangeStart rangeEnd reason next hlt h
    exact recordHistoric_spans hlt h

/-- A pending `HISTORIC` request is dropped from the covered heights by the recording of an
unrelated scanned range, which is neither a done nor a clear call. -/
theorem historic_request_dropped :
    let queue := step empty (.queueRange "t" 5 10 scanPriorityHistoric none)
    let record := Op.recordHistoricScannedRange "t" 100 101 none
    record.doneOrClear = false ∧ 7 ∈ queue.covered scanPriorityHistoric ∧
      7 ∉ (queue.step record).covered scanPriorityHistoric := by
  simp only [mem_covered]
  decide

end ScanQueue

end StashiWallet
