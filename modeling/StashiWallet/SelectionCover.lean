import StashiWallet.CoveringPrefix
import StashiWallet.TransactionBalance

/-!
# Which notes are selected

A selection is the shortest beginning of the sorted notes that covers what is required, and with
consolidation the next eligible notes behind it. The selector's sums are checked, so that notes
whose values add up beyond a `u64` are refused even where they cover it.
-/

namespace StashiWallet

namespace NoteSelector

variable {Path : Type}

/-- The order of a strategy. -/
def Precedes (selector : NoteSelector) (note later : CandidateNote Path) : Prop :=
  match selector.strategy with
  | .firstFit => True
  | .smallestFirst => note.value ≤ later.value
  | .largestFirst => later.value ≤ note.value
  | .oldestFirst => note.height ≤ later.height

/-- The same notes in the order of the strategy; notes that it does not tell apart keep theirs. -/
structure Orders (selector : NoteSelector) (notes order : List (CandidateNote Path)) : Prop where
  perm : order.Perm notes
  sorted : order.Pairwise selector.Precedes
  stable : ∀ note later, selector.Precedes note later → [note, later].Sublist notes →
    [note, later].Sublist order

abbrev totalOf (notes : List (CandidateNote Path)) : Nat :=
  CoveringPrefix.total (fun note => note.value) notes

/-- The shortest beginning that covers an amount. -/
abbrev ShortestCover (required : Nat) (order taken : List (CandidateNote Path)) : Prop :=
  CoveringPrefix.Shortest (fun note => note.value) required order taken

/-- The notes that are worth merging with a selection. -/
def extraNotes (order taken : List (CandidateNote Path)) (extraLimit : Nat) :
    List (CandidateNote Path) :=
  ((order.drop taken.length).filter CandidateNote.autoConsolidationEligible).take extraLimit

/-- What the loops take: the shortest cover, and extra notes behind it. -/
def takes (required extraLimit total : Nat) (order : List (CandidateNote Path)) :
    List (CandidateNote Path) :=
  let cover := CoveringPrefix.take (fun note => note.value) required total order
  cover ++ extraNotes order cover extraLimit

/-- A selection of notes that were offered, each once, that reports what it takes. -/
structure Selects (notes : List (CandidateNote Path)) (required : Nat)
    (selection : SelectionResult Path) : Prop where
  offered : selection.notes.Subperm notes
  once : (notes.map CandidateNote.outputKey).Nodup →
    (selection.notes.map CandidateNote.outputKey).Nodup
  total : selection.totalValue = totalOf selection.notes
  change : required + selection.change = totalOf selection.notes

variable {required extraLimit extraSelected total targetAmount fee : Nat} {selector : NoteSelector}
  {notes order taken : List (CandidateNote Path)}

theorem orders_of_insertionSort {r : CandidateNote Path → CandidateNote Path → Prop}
    [DecidableRel r] [Std.Total r] [IsTrans (CandidateNote Path) r]
    (h : ∀ note later : CandidateNote Path, selector.Precedes note later ↔ r note later) :
    selector.Orders notes (notes.insertionSort r) := by
  refine ⟨List.perm_insertionSort r notes, ?_, fun note later hprecedes hsub => ?_⟩
  · exact (List.pairwise_insertionSort r notes).imp (fun hr => (h _ _).mpr hr)
  · exact List.pair_sublist_insertionSort ((h note later).mp hprecedes) hsub

theorem sortNotes_orders (selector : NoteSelector) (notes : List (CandidateNote Path)) :
    selector.Orders notes (selector.sortNotes notes) := by
  obtain ⟨strategy⟩ := selector
  cases strategy with
  | firstFit =>
    exact ⟨List.Perm.refl notes, List.pairwise_of_forall fun _ _ => trivial, fun _ _ _ h => h⟩
  | smallestFirst => exact orders_of_insertionSort fun _ _ => Iff.rfl
  | largestFirst => exact orders_of_insertionSort fun _ _ => Iff.rfl
  | oldestFirst => exact orders_of_insertionSort fun _ _ => Iff.rfl

/-! ## The loops -/

theorem takes_of_short {note : CandidateNote Path} (h : total < required) :
    takes required extraLimit total (note :: order) =
      note :: takes required extraLimit (total + note.value) order := by
  have hcover : CoveringPrefix.take (fun note => note.value) required total (note :: order) =
      note :: CoveringPrefix.take (fun note => note.value) required (total + note.value) order :=
    if_neg (Nat.not_le_of_lt h)
  unfold takes
  rw [hcover]
  rfl

theorem takes_of_covered (h : required ≤ total) :
    takes required extraLimit total order =
      (order.filter CandidateNote.autoConsolidationEligible).take extraLimit := by
  unfold takes extraNotes
  rw [CoveringPrefix.take_of_reached h]
  rfl

/-- A loop that takes a note and goes on takes what it takes then, if it all adds up to a `u64`. -/
theorem take_note_eq {note : CandidateNote Path} {later : List (CandidateNote Path)}
    {loop : Nat → Except BuildError (List (CandidateNote Path) × Nat)}
    (hloop : total + note.value ≤ u64Max → loop (total + note.value) =
      if total + note.value + totalOf later ≤ u64Max then
        .ok (later, total + note.value + totalOf later)
      else .error (.insufficientFunds "Value overflow")) :
    (do
      let total ← u64CheckedAdd (.insufficientFunds "Value overflow") total note.value
      let (selected, total) ← loop total
      .ok (note :: selected, total)) =
      if total + totalOf (note :: later) ≤ u64Max then
        .ok (note :: later, total + totalOf (note :: later))
      else .error (.insufficientFunds "Value overflow") := by
  have hsum : total + totalOf (note :: later) = total + note.value + totalOf later := by
    rw [totalOf, CoveringPrefix.total_cons, Nat.add_assoc]
  rw [hsum]
  unfold u64CheckedAdd
  by_cases hfits : total + note.value ≤ u64Max
  · rw [if_pos hfits]
    show (loop (total + note.value) >>= fun selected => _) = _
    rw [hloop hfits]
    split
    · rfl
    · rfl
  · rw [if_neg hfits, if_neg (by omega)]
    rfl

theorem consolidationLoop_eq (htotal : total ≤ u64Max) :
    consolidationLoop required extraLimit total extraSelected order =
      if total + totalOf (takes required (extraLimit - extraSelected) total order) ≤ u64Max then
        .ok (takes required (extraLimit - extraSelected) total order,
          total + totalOf (takes required (extraLimit - extraSelected) total order))
      else .error (.insufficientFunds "Value overflow") := by
  induction order generalizing total extraSelected with
  | nil =>
    have hnone : takes required (extraLimit - extraSelected) total
        ([] : List (CandidateNote Path)) = [] := List.take_nil
    rw [hnone]
    exact (if_pos htotal).symm
  | cons note rest ih =>
    unfold consolidationLoop
    by_cases hshort : total < required
    · rw [if_pos hshort, takes_of_short hshort]
      exact take_note_eq ih
    have hcovered := Nat.le_of_not_lt hshort
    rw [if_neg hshort, takes_of_covered hcovered]
    by_cases hfull : extraLimit = 0 ∨ extraLimit ≤ extraSelected
    · -- no extra note is left to take, and the loop ends
      have hnone : extraLimit - extraSelected = 0 := by omega
      rw [if_pos hfull, hnone, List.take_zero]
      exact (if_pos htotal).symm
    rw [if_neg hfull]
    by_cases heligible : note.autoConsolidationEligible = true
    · have hleft : extraLimit - extraSelected = extraLimit - (extraSelected + 1) + 1 := by omega
      rw [if_pos heligible, List.filter_cons_of_pos heligible, hleft, List.take_succ_cons,
        ← @takes_of_covered _ required _ (total + note.value) _ (by omega)]
      exact take_note_eq ih
    · -- the note is passed over and counts for nothing
      rw [if_neg heligible, List.filter_cons_of_neg heligible, ← takes_of_covered hcovered]
      exact ih htotal

/-! ## The selections -/

theorem takes_zero : takes required 0 total order =
    CoveringPrefix.take (fun note => note.value) required total order := List.append_nil _

theorem selectNotes_eq_consolidation : selector.selectNotes notes targetAmount fee =
    selector.selectNotesWithConsolidation notes targetAmount fee 0 := by
  unfold selectNotes selectNotesWithConsolidation
  simp only [@selectLoop_eq_consolidationLoop _ _ _ 0]

theorem finishSelection_eq_ok {value : Nat} {selection : SelectionResult Path} :
    finishSelection required (taken, value) = .ok selection ↔
      required ≤ value ∧ selection = ⟨taken, value, value - required⟩ := by
  unfold finishSelection
  by_cases hshort : value < required
  · rw [if_pos hshort]
    constructor
    · intro h
      cases h
    · rintro ⟨henough, -⟩
      exact absurd hshort (Nat.not_lt_of_le henough)
  · rw [if_neg hshort]
    constructor
    · intro h
      exact ⟨Nat.le_of_not_lt hshort, (Except.ok.inj h).symm⟩
    · rintro ⟨-, rfl⟩
      rfl

/-- A selection succeeds when what it takes adds up, and covers what is required. -/
theorem selectNotesWithConsolidation_eq_ok {selection : SelectionResult Path} :
    selector.selectNotesWithConsolidation notes targetAmount fee extraLimit = .ok selection ↔
      targetAmount + fee ≤ u64Max ∧
      totalOf (takes (targetAmount + fee) extraLimit 0 (selector.sortNotes notes)) ≤ u64Max ∧
      targetAmount + fee ≤
        totalOf (takes (targetAmount + fee) extraLimit 0 (selector.sortNotes notes)) ∧
      selection = ⟨takes (targetAmount + fee) extraLimit 0 (selector.sortNotes notes),
        totalOf (takes (targetAmount + fee) extraLimit 0 (selector.sortNotes notes)),
        totalOf (takes (targetAmount + fee) extraLimit 0 (selector.sortNotes notes)) -
          (targetAmount + fee)⟩ := by
  have hloop := @consolidationLoop_eq _ (targetAmount + fee) extraLimit 0 0
    (selector.sortNotes notes) (Nat.zero_le _)
  rw [Nat.sub_zero, Nat.zero_add] at hloop
  constructor
  · intro h
    unfold selectNotesWithConsolidation at h
    obtain ⟨required, hrequired, h⟩ := bind_eq_ok h
    obtain ⟨hfits, rfl⟩ := u64CheckedAdd_eq_ok.mp hrequired
    obtain ⟨taken, htaken, h⟩ := bind_eq_ok h
    rw [hloop] at htaken
    split at htaken
    · rename_i hsum
      obtain rfl := Except.ok.inj htaken
      exact ⟨hfits, hsum, finishSelection_eq_ok.mp h⟩
    · cases htaken
  · rintro ⟨hfits, hsum, hfinish⟩
    unfold selectNotesWithConsolidation
    rw [u64CheckedAdd_eq_ok.mpr ⟨hfits, rfl⟩]
    show (consolidationLoop (targetAmount + fee) extraLimit 0 0 (selector.sortNotes notes) >>=
      finishSelection (targetAmount + fee)) = _
    rw [hloop, if_pos hsum]
    exact finishSelection_eq_ok.mpr hfinish

theorem selects_of_consolidation {selection : SelectionResult Path}
    (h : selector.selectNotesWithConsolidation notes targetAmount fee extraLimit = .ok selection) :
    Selects notes (targetAmount + fee) selection := by
  have hcovers := selectNotesWithConsolidation_covers h
  obtain ⟨-, -, henough, rfl⟩ := selectNotesWithConsolidation_eq_ok.mp h
  exact ⟨hcovers.offered, hcovers.once, rfl, Nat.add_sub_of_le henough⟩

/-- The sorted notes are worth what the notes are worth. -/
theorem totalOf_sortNotes : totalOf (selector.sortNotes notes) = totalOf notes :=
  CoveringPrefix.total_perm sortNotes_perm

/-- **What is selected.** The notes are sorted by the strategy, and the shortest beginning that
covers the amount and the fee is taken. This succeeds exactly when they cover it and neither the
amount with the fee nor that beginning exceeds a `u64`. Consolidation then takes the same notes and
behind them the next eligible ones up to its limit, and fails only when these exceed a `u64`. -/
theorem selection_is_shortest_cover (selector : NoteSelector) (notes : List (CandidateNote Path))
    (targetAmount fee extraLimit : Nat) :
    selector.Orders notes (selector.sortNotes notes) ∧
    ((∃ selection, selector.selectNotes notes targetAmount fee = .ok selection) ↔
      targetAmount + fee ≤ u64Max ∧ targetAmount + fee ≤ totalOf notes ∧
        ∀ taken, ShortestCover (targetAmount + fee) (selector.sortNotes notes) taken →
          totalOf taken ≤ u64Max) ∧
    ∀ selection, selector.selectNotes notes targetAmount fee = .ok selection →
      Selects notes (targetAmount + fee) selection ∧
      ShortestCover (targetAmount + fee) (selector.sortNotes notes) selection.notes ∧
      ∀ extras, extras = extraNotes (selector.sortNotes notes) selection.notes extraLimit →
        extras.length ≤ extraLimit ∧ (∀ note ∈ extras, note.autoConsolidationEligible = true) ∧
        ((∃ merged, selector.selectNotesWithConsolidation notes targetAmount fee extraLimit =
            .ok merged) ↔ totalOf (selection.notes ++ extras) ≤ u64Max) ∧
        ∀ merged, selector.selectNotesWithConsolidation notes targetAmount fee extraLimit =
            .ok merged →
          Selects notes (targetAmount + fee) merged ∧ merged.notes = selection.notes ++ extras := by
  refine ⟨sortNotes_orders selector notes, ?_, fun selection h => ?_⟩
  · simp only [selectNotes_eq_consolidation, selectNotesWithConsolidation_eq_ok, takes_zero]
    constructor
    · rintro ⟨_, hfits, hsum, henough, -⟩
      refine ⟨hfits, ?_, fun taken htaken => ?_⟩
      · rw [← @totalOf_sortNotes _ selector]
        exact henough.trans (CoveringPrefix.total_mono CoveringPrefix.take_isPrefix)
      · rw [htaken.eq_take]
        exact hsum
    · -- the loop stops at the shortest beginning, whose sum is the one that must fit
      rintro ⟨hfits, henough, hsum⟩
      rw [← @totalOf_sortNotes _ selector] at henough
      have hcover := CoveringPrefix.shortest_take henough
      exact ⟨_, hfits, hsum _ hcover, hcover.reaches, rfl⟩
  · rw [selectNotes_eq_consolidation] at h
    have hselects := selects_of_consolidation h
    rw [selectNotesWithConsolidation_eq_ok, takes_zero] at h
    obtain ⟨hfits, hsum, henough, rfl⟩ := h
    refine ⟨hselects, CoveringPrefix.shortest_take
      (henough.trans (CoveringPrefix.total_mono CoveringPrefix.take_isPrefix)), ?_⟩
    rintro extras rfl
    refine ⟨List.length_take_le _ _, fun note hnote => ?_, ?_, fun merged hmerged => ?_⟩
    · exact List.of_mem_filter (List.mem_of_mem_take hnote)
    · simp only [selectNotesWithConsolidation_eq_ok]
      constructor
      · rintro ⟨_, -, hmerged, -⟩
        exact hmerged
      · intro hmerged
        refine ⟨_, hfits, hmerged, henough.trans ?_, rfl⟩
        exact CoveringPrefix.total_mono (List.prefix_append _ _)
    · have hmerges := selects_of_consolidation hmerged
      obtain ⟨-, -, -, rfl⟩ := selectNotesWithConsolidation_eq_ok.mp hmerged
      exact ⟨hmerges, rfl⟩

/-- A payment out of two notes that merges a third. -/
theorem selection_is_shortest_cover_merge :
    ∃ merged, selectNotesWithConsolidation ⟨.smallestFirst⟩
        [{ spendableNote 9 with autoConsolidationEligible := true }, spendableNote 5,
          spendableNote 2] 4 2 1 = .ok merged ∧
      merged.notes = [spendableNote 2, spendableNote 5,
        { spendableNote 9 with autoConsolidationEligible := true }] := by
  have hselected : selectNotes ⟨.smallestFirst⟩
      [{ spendableNote 9 with autoConsolidationEligible := true }, spendableNote 5,
        spendableNote 2] 4 2 = .ok ⟨[spendableNote 2, spendableNote 5], 7, 1⟩ := by
    decide +kernel
  obtain ⟨-, -, -, -, hmerges, hmerged⟩ := (selection_is_shortest_cover _ _ _ _ 1).2.2 _ hselected
    |>.imp_right fun h => h.imp_right fun h => h _ rfl
  obtain ⟨merged, h⟩ := hmerges.mpr (by decide +kernel)
  exact ⟨merged, h, (hmerged merged h).2.trans (by decide +kernel)⟩

/-- Two notes cover what is required but add up beyond a `u64`; and a note that covers alone, with
one worth merging that does not fit beside it. -/
theorem selection_overflows :
    (u64Max + 0 ≤ totalOf [spendableNote 1, spendableNote u64Max] ∧
      (selectNotes ⟨.smallestFirst⟩ [spendableNote 1, spendableNote u64Max] u64Max 0).isOk =
        false) ∧
    (selectNotes ⟨.firstFit⟩ [spendableNote 5,
        { spendableNote u64Max with autoConsolidationEligible := true }] 4 1).isOk = true ∧
    (selectNotesWithConsolidation ⟨.firstFit⟩ [spendableNote 5,
        { spendableNote u64Max with autoConsolidationEligible := true }] 4 1 1).isOk = false := by
  decide +kernel

end NoteSelector

end StashiWallet
