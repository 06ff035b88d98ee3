import StashiWallet.WitnessCheck
import StashiWallet.Memo

/-!
# Selecting the notes of a transaction

The selector takes notes in the order of its strategy until they cover the amount and the fee, and
on request a few more that are worth merging. Its sums are checked.
-/

namespace StashiWallet

/-- `Error`, as far as building goes. -/
inductive BuildError where
  | invalidAmount (message : String)
  | insufficientFunds (message : String)
  | amountOverflow (message : String)
  | feeTooLow (message : String)
  | feeTooHigh (message : String)
  | feeCalculation (message : String)
  | transactionBuild (message : String)
  | saplingParameters (message : String)
  | memo (error : MemoError)
deriving DecidableEq, Repr

/-- `SelectableNote`, with the field that consolidation reads. -/
structure CandidateNote (Path : Type) extends SelectableNote Path where
  autoConsolidationEligible : Bool
deriving DecidableEq, Repr

def CandidateNote.outputKey {Path : Type} (note : CandidateNote Path) : OutputKey :=
  (note.txid, note.outputIndex, note.noteType)

inductive SelectionStrategy where
  | firstFit
  | smallestFirst
  | largestFirst
  | oldestFirst
deriving DecidableEq, Repr

structure SelectionResult (Path : Type) where
  notes : List (CandidateNote Path)
  totalValue : Nat
  change : Nat
deriving DecidableEq, Repr

/-- `checked_add` of two `u64`, with the error of its failure. -/
def u64CheckedAdd (error : BuildError) (a b : Nat) : Except BuildError Nat :=
  if a + b ≤ u64Max then .ok (a + b) else .error error

structure NoteSelector where
  strategy : SelectionStrategy
deriving DecidableEq, Repr

namespace NoteSelector

variable {Path : Type}

/-- `sort_notes`, which is stable. -/
def sortNotes (selector : NoteSelector) (notes : List (CandidateNote Path)) :
    List (CandidateNote Path) :=
  match selector.strategy with
  | .firstFit => notes
  | .smallestFirst => notes.insertionSort fun a b => a.value ≤ b.value
  | .largestFirst => notes.insertionSort fun a b => b.value ≤ a.value
  | .oldestFirst => notes.insertionSort fun a b => a.height ≤ b.height

/-- The loop of `select_notes`. -/
def selectLoop (required : Nat) : Nat → List (CandidateNote Path) →
    Except BuildError (List (CandidateNote Path) × Nat)
  | total, [] => .ok ([], total)
  | total, note :: rest =>
    if required ≤ total then .ok ([], total)
    else do
      let total ← u64CheckedAdd (.insufficientFunds "Value overflow") total note.value
      let (selected, total) ← selectLoop required total rest
      .ok (note :: selected, total)

/-- The loop of `select_notes_with_consolidation`. -/
def consolidationLoop (required extraLimit : Nat) : Nat → Nat → List (CandidateNote Path) →
    Except BuildError (List (CandidateNote Path) × Nat)
  | total, _, [] => .ok ([], total)
  | total, extraSelected, note :: rest =>
    if total < required then do
      let total ← u64CheckedAdd (.insufficientFunds "Value overflow") total note.value
      let (selected, total) ← consolidationLoop required extraLimit total extraSelected rest
      .ok (note :: selected, total)
    else if extraLimit = 0 ∨ extraLimit ≤ extraSelected then .ok ([], total)
    else if note.autoConsolidationEligible then do
      let total ← u64CheckedAdd (.insufficientFunds "Value overflow") total note.value
      let (selected, total) ← consolidationLoop required extraLimit total (extraSelected + 1) rest
      .ok (note :: selected, total)
    else consolidationLoop required extraLimit total extraSelected rest

/-- What both selections do with what their loop took. -/
def finishSelection (required : Nat) (taken : List (CandidateNote Path) × Nat) :
    Except BuildError (SelectionResult Path) :=
  if taken.2 < required then
    .error (.insufficientFunds
      s!"Required {required} arrrtoshis, have {taken.2} arrrtoshis")
  else .ok ⟨taken.1, taken.2, taken.2 - required⟩

def selectNotes (selector : NoteSelector) (availableNotes : List (CandidateNote Path))
    (targetAmount fee : Nat) : Except BuildError (SelectionResult Path) := do
  let required ← u64CheckedAdd (.insufficientFunds "Amount overflow") targetAmount fee
  let taken ← selectLoop required 0 (selector.sortNotes availableNotes)
  finishSelection required taken

def selectNotesWithConsolidation (selector : NoteSelector)
    (availableNotes : List (CandidateNote Path)) (targetAmount fee extraLimit : Nat) :
    Except BuildError (SelectionResult Path) := do
  let required ← u64CheckedAdd (.insufficientFunds "Amount overflow") targetAmount fee
  let taken ← consolidationLoop required extraLimit 0 0 (selector.sortNotes availableNotes)
  finishSelection required taken

/-! ## What is selected -/

variable {required extraLimit targetAmount fee total extraSelected : Nat} {selector : NoteSelector}
  {notes : List (CandidateNote Path)}

theorem sortNotes_perm : (selector.sortNotes notes).Perm notes := by
  unfold sortNotes
  cases selector.strategy with
  | firstFit => exact List.Perm.refl notes
  | smallestFirst => exact List.perm_insertionSort _ notes
  | largestFirst => exact List.perm_insertionSort _ notes
  | oldestFirst => exact List.perm_insertionSort _ notes

theorem u64CheckedAdd_eq_ok {error : BuildError} {a b sum : Nat} :
    u64CheckedAdd error a b = .ok sum ↔ a + b ≤ u64Max ∧ sum = a + b := by
  unfold u64CheckedAdd
  by_cases hfits : a + b ≤ u64Max
  · rw [if_pos hfits]
    constructor
    · intro h
      exact ⟨hfits, (Except.ok.inj h).symm⟩
    · rintro ⟨-, rfl⟩
      rfl
  · rw [if_neg hfits]
    constructor
    · intro h
      cases h
    · rintro ⟨hsum, -⟩
      exact absurd hsum hfits

/-- A selection without consolidation is one with no extra notes. -/
theorem selectLoop_eq_consolidationLoop :
    selectLoop required total notes = consolidationLoop required 0 total extraSelected notes := by
  induction notes generalizing total with
  | nil => rfl
  | cons note rest ih =>
    unfold selectLoop consolidationLoop
    by_cases hcovered : required ≤ total
    · rw [if_pos hcovered, if_neg (Nat.not_lt_of_le hcovered), if_pos (.inl rfl)]
    · rw [if_neg hcovered, if_pos (Nat.lt_of_not_le hcovered)]
      simp only [ih]

/-- What a loop took adds up to its total, and comes from the notes in their order. -/
theorem taken_of_consolidationLoop {taken : List (CandidateNote Path) × Nat}
    (hloop : consolidationLoop required extraLimit total extraSelected notes = .ok taken)
    (htotal : total ≤ u64Max) :
    taken.1.Sublist notes ∧ taken.2 = total + (taken.1.map (fun note => note.value)).sum ∧
      taken.2 ≤ u64Max := by
  induction notes generalizing total extraSelected taken with
  | nil =>
    obtain rfl := Except.ok.inj hloop
    exact ⟨List.Sublist.refl _, rfl, htotal⟩
  | cons note rest ih =>
    have htake : ∀ extra, (do
        let total ← u64CheckedAdd (.insufficientFunds "Value overflow") total note.value
        let (selected, total) ← consolidationLoop required extraLimit total extra rest
        .ok (note :: selected, total)) = .ok taken →
        taken.1.Sublist (note :: rest) ∧
          taken.2 = total + (taken.1.map (fun note => note.value)).sum ∧ taken.2 ≤ u64Max := by
      intro extra h
      obtain ⟨sum, hsum, h⟩ := bind_eq_ok h
      obtain ⟨hfits, rfl⟩ := u64CheckedAdd_eq_ok.mp hsum
      obtain ⟨later, hlater, h⟩ := bind_eq_ok h
      obtain rfl := Except.ok.inj h
      obtain ⟨hsub, heq, hle⟩ := ih hlater hfits
      refine ⟨hsub.cons_cons note, ?_, hle⟩
      rw [heq, List.map_cons, List.sum_cons, Nat.add_assoc]
    unfold consolidationLoop at hloop
    by_cases hshort : total < required
    · rw [if_pos hshort] at hloop
      exact htake _ hloop
    rw [if_neg hshort] at hloop
    by_cases hfull : extraLimit = 0 ∨ extraLimit ≤ extraSelected
    · rw [if_pos hfull] at hloop
      obtain rfl := Except.ok.inj hloop
      exact ⟨List.nil_sublist _, rfl, htotal⟩
    rw [if_neg hfull] at hloop
    by_cases heligible : note.autoConsolidationEligible = true
    · rw [if_pos heligible] at hloop
      exact htake _ hloop
    · rw [if_neg heligible] at hloop
      obtain ⟨hsub, hrest⟩ := ih hloop htotal
      exact ⟨hsub.cons note, hrest⟩

/-- A selection that covers an amount and a fee. -/
structure Covers (available : List (CandidateNote Path)) (required : Nat)
    (selection : SelectionResult Path) : Prop where
  offered : selection.notes.Subperm available
  total : selection.totalValue = (selection.notes.map (fun note => note.value)).sum
  fits : selection.totalValue ≤ u64Max
  enough : required ≤ selection.totalValue

/-- Of notes that are different outputs none is taken twice. -/
theorem Covers.once {selection : SelectionResult Path} (h : Covers notes required selection)
    (hdistinct : (notes.map CandidateNote.outputKey).Nodup) :
    (selection.notes.map CandidateNote.outputKey).Nodup := by
  obtain ⟨taken, hperm, hsub⟩ := h.offered
  have hnodup : (taken.map CandidateNote.outputKey).Nodup := hdistinct.sublist (hsub.map _)
  exact (hperm.map _).nodup_iff.mp hnodup

theorem selectNotesWithConsolidation_covers {selection : SelectionResult Path}
    (h : selector.selectNotesWithConsolidation notes targetAmount fee extraLimit = .ok selection) :
    Covers notes (targetAmount + fee) selection := by
  unfold selectNotesWithConsolidation at h
  obtain ⟨required, hrequired, h⟩ := bind_eq_ok h
  obtain ⟨-, rfl⟩ := u64CheckedAdd_eq_ok.mp hrequired
  obtain ⟨taken, htaken, h⟩ := bind_eq_ok h
  obtain ⟨hsub, htotal, hfits⟩ := taken_of_consolidationLoop htaken (Nat.zero_le _)
  unfold finishSelection at h
  by_cases hshort : taken.2 < targetAmount + fee
  · rw [if_pos hshort] at h
    cases h
  · rw [if_neg hshort] at h
    obtain rfl := Except.ok.inj h
    exact ⟨hsub.subperm.trans sortNotes_perm.subperm, htotal.trans (Nat.zero_add _), hfits,
      Nat.le_of_not_lt hshort⟩

theorem selectNotes_covers {selection : SelectionResult Path}
    (h : selector.selectNotes notes targetAmount fee = .ok selection) :
    Covers notes (targetAmount + fee) selection := by
  have heq : selector.selectNotes notes targetAmount fee =
      selector.selectNotesWithConsolidation notes targetAmount fee 0 := by
    unfold selectNotes selectNotesWithConsolidation
    simp only [@selectLoop_eq_consolidationLoop _ _ _ 0]
  exact selectNotesWithConsolidation_covers (heq ▸ h)

end NoteSelector

end StashiWallet
