import StashiWallet.PersistNotes

/-!
# Folding the rows of one output

`prepare_note_upserts` folds the rows that stand for one output into the oldest of them, for
the outputs of a batch. Whatever rows there were, the account has at most one row of each of
these outputs afterwards, and every other row is as it was (`prepareNoteUpserts_spec`).

Of the columns only those that say whether and by what the note is spent are followed: a spent
row makes the fold spent, and its spending transaction is one that a row recorded.
-/

namespace StashiWallet

/-! ## One group -/

/-- What the fold of some rows keeps of them. -/
structure FoldedFrom (rows : List NoteRow) (folded : NoteRow) : Prop where
  accountId : ∀ account, (∀ row ∈ rows, row.accountId = account) → folded.accountId = account
  outputKey : ∀ key, (∀ row ∈ rows, row.outputKey = key) → folded.outputKey = key
  nullifier : ∀ nullifier, (∀ row ∈ rows, row.nullifier = nullifier) →
    folded.nullifier = nullifier
  spent : ∀ row ∈ rows, row.spent = true → folded.spent = true
  spentTxid : ∀ txid, folded.spentTxid = some txid → ∃ row ∈ rows, row.spentTxid = some txid
  spentTxid_isSome : ∀ row ∈ rows, row.spentTxid.isSome = true → folded.spentTxid.isSome = true

theorem FoldedFrom.single (row : NoteRow) : FoldedFrom [row] row where
  accountId := fun _ h => h row (List.mem_singleton_self row)
  outputKey := fun _ h => h row (List.mem_singleton_self row)
  nullifier := fun _ h => h row (List.mem_singleton_self row)
  spent := fun _ hrow h => List.mem_singleton.mp hrow ▸ h
  spentTxid := fun _ h => ⟨row, List.mem_singleton_self row, h⟩
  spentTxid_isSome := fun _ hrow h => List.mem_singleton.mp hrow ▸ h

/-- Filling gaps keeps what identifies the row, and looks for a spending transaction in order. -/
theorem foldl_fillFrom (rows : List NoteRow) (merged : NoteRow) :
    (rows.foldl NoteRow.fillFrom merged).id = merged.id ∧
      (rows.foldl NoteRow.fillFrom merged).accountId = merged.accountId ∧
      (rows.foldl NoteRow.fillFrom merged).outputKey = merged.outputKey ∧
      (rows.foldl NoteRow.fillFrom merged).nullifier = merged.nullifier ∧
      (rows.foldl NoteRow.fillFrom merged).spentTxid =
        merged.spentTxid.or (rows.findSome? (·.spentTxid)) := by
  induction rows generalizing merged with
  | nil => simp
  | cons row rest ih =>
    obtain ⟨hid, haccount, hkey, hnullifier, htxid⟩ := ih (merged.fillFrom row)
    refine ⟨hid, haccount, hkey, hnullifier, ?_⟩
    rw [List.foldl_cons, htxid, List.findSome?_cons]
    show (merged.spentTxid.or row.spentTxid).or _ = _
    cases merged.spentTxid with
    | some txid => rfl
    | none => cases row.spentTxid <;> rfl

/-- A value found in a list, or the first one, is one of the list. -/
theorem find?_getD_mem {α : Type} {p : α → Bool} {values : List α} {default : α}
    (hdefault : default ∈ values) : (values.find? p).getD default ∈ values := by
  cases hfind : values.find? p with
  | none => exact hdefault
  | some value => exact List.mem_of_find?_eq_some hfind

/-- A group that is not empty is folded into a row that has the id of one of them; the ids of
the others are returned. -/
theorem mergeDuplicateNoteRecords_spec {rows : List NoteRow} (hrows : rows ≠ []) :
    ∃ merged duplicateIds oldest, mergeDuplicateNoteRecords rows = some (merged, duplicateIds) ∧
      oldest ∈ rows ∧ merged.id = oldest.id ∧ FoldedFrom rows merged ∧
      ∀ id, id ∈ duplicateIds ↔ (∃ row ∈ rows, row.id = id) ∧ id ≠ oldest.id := by
  let sorted := rows.insertionSort (fun a b => a.id ≤ b.id)
  have hmem : ∀ row, row ∈ sorted ↔ row ∈ rows := fun row =>
    (List.perm_insertionSort _ rows).mem_iff
  have hsorted : sorted ≠ [] := by
    intro hnil
    obtain ⟨row, hrow⟩ := List.exists_mem_of_ne_nil rows hrows
    have hin := (hmem row).mpr hrow
    rw [hnil] at hin
    cases hin
  cases hhead : sorted.head? with
  | none => exact absurd (List.head?_eq_none_iff.mp hhead) hsorted
  | some oldest =>
  cases hlast : sorted.getLast? with
  | none => exact absurd (List.getLast?_eq_none_iff.mp hlast) hsorted
  | some newest =>
  have holdest : oldest ∈ rows := (hmem oldest).mp (List.mem_of_head? hhead)
  have hnewest : newest ∈ rows := (hmem newest).mp (List.mem_of_getLast? hlast)
  have hnewest' : newest ∈ sorted.reverse :=
    List.mem_reverse.mpr ((hmem newest).mpr hnewest)
  have hfrom : ∀ row, row ∈ sorted.reverse ↔ row ∈ rows := fun row => by
    rw [List.mem_reverse, hmem]
  unfold mergeDuplicateNoteRecords
  dsimp only
  rw [show (rows.insertionSort (fun a b => a.id ≤ b.id)).head? = some oldest from hhead,
    show (rows.insertionSort (fun a b => a.id ≤ b.id)).getLast? = some newest from hlast]
  refine ⟨_, _, oldest, rfl, holdest, ?_, ?_, ?_⟩
  · exact (foldl_fillFrom _ _).1
  · constructor
    · intro account h
      exact (foldl_fillFrom _ _).2.1.trans (h newest hnewest)
    · intro key h
      exact (foldl_fillFrom _ _).2.2.1.trans (h newest hnewest)
    · intro nullifier h
      refine (foldl_fillFrom _ _).2.2.2.1.trans ?_
      show (if newest.nullifier.all (· == 0) then
        ((sorted.reverse.map (·.nullifier)).find? _).getD newest.nullifier
        else newest.nullifier) = nullifier
      split
      · have hfound := find?_getD_mem (p := fun nullifier => !nullifier.all (· == 0))
          (List.mem_map_of_mem (f := (·.nullifier)) hnewest')
        obtain ⟨row, hrow, heq⟩ := List.mem_map.mp hfound
        rw [← heq]
        exact h row ((hfrom row).mp hrow)
      · exact h newest hnewest
    · intro row hrow hspent
      exact List.any_eq_true.mpr ⟨row, hrow, hspent⟩
    · intro txid htxid
      have hfold := (foldl_fillFrom sorted.reverse _).2.2.2.2.symm.trans htxid
      cases hown : newest.spentTxid with
      | some own =>
        rw [hown] at hfold
        exact ⟨newest, hnewest, hown.trans hfold⟩
      | none =>
        rw [hown] at hfold
        obtain ⟨row, hrow, heq⟩ := List.exists_of_findSome?_eq_some hfold
        exact ⟨row, (hfrom row).mp hrow, heq⟩
    · intro row hrow hsome
      show (sorted.reverse.foldl NoteRow.fillFrom _).spentTxid.isSome = true
      rw [(foldl_fillFrom _ _).2.2.2.2, Option.isSome_or, Bool.or_eq_true]
      refine Or.inr (List.findSome?_isSome_iff.mpr ⟨row, (hfrom row).mpr hrow, hsome⟩)
  · intro id
    simp only [List.mem_filter, List.mem_map, bne_iff_ne, ne_eq]
    refine and_congr_left fun _ => ?_
    constructor
    · rintro ⟨row, hrow, rfl⟩
      exact ⟨row, (hmem row).mp hrow, rfl⟩
    · rintro ⟨row, hrow, rfl⟩
      exact ⟨row, (hmem row).mpr hrow, rfl⟩

/-- The row is what the rows of one output are folded into: the only one of them, or their merge. -/
def Folds (rows : List NoteRow) (folded : NoteRow) : Prop :=
  rows = [folded] ∨ ∃ duplicateIds, mergeDuplicateNoteRecords rows = some (folded, duplicateIds)

theorem Folds.ne_nil {rows : List NoteRow} {folded : NoteRow} (h : Folds rows folded) :
    rows ≠ [] := by
  rintro rfl
  rcases h with hsingle | ⟨duplicateIds, hmerged⟩
  · cases hsingle
  · cases hmerged

theorem Folds.foldedFrom {rows : List NoteRow} {folded : NoteRow} (h : Folds rows folded) :
    FoldedFrom rows folded := by
  have hrows := h.ne_nil
  rcases h with rfl | ⟨duplicateIds, hmerged⟩
  · exact FoldedFrom.single folded
  · obtain ⟨merged, ids, oldest, hspec, -, -, hfolded, -⟩ := mergeDuplicateNoteRecords_spec hrows
    rw [hmerged] at hspec
    obtain ⟨rfl, -⟩ := Prod.mk.inj (Option.some.inj hspec)
    exact hfolded

/-- A single row is kept; several are merged. -/
theorem foldGroup_cases (result : List NoteRow) (notes : Notes) {group : List NoteRow}
    (hnonempty : group ≠ []) :
    (∃ row, group = [row] ∧ Notes.foldGroup (result, notes) group = (result ++ [row], notes)) ∨
    ∀ merged duplicateIds, mergeDuplicateNoteRecords group = some (merged, duplicateIds) →
      Notes.foldGroup (result, notes) group = (result ++ [merged],
        (notes.updateNoteById merged).deleteWhere (fun row => duplicateIds.contains row.id)) := by
  cases group with
  | nil => exact absurd rfl hnonempty
  | cons row rest =>
    cases rest with
    | nil => exact Or.inl ⟨row, rfl, rfl⟩
    | cons second others =>
      refine Or.inr fun merged duplicateIds hmerged => ?_
      unfold Notes.foldGroup
      dsimp only
      rw [hmerged]

/-- Folding the rows of one output puts one row in their place. -/
theorem foldGroup_puts {accountId : Int} {key : OutputKey} {result group : List NoteRow}
    {notes : Notes} (hgroup : ∀ row, row ∈ group ↔
      row ∈ notes.rows ∧ row.accountId = accountId ∧ row.outputKey = key)
    (hnonempty : group ≠ []) :
    ∃ folded after, Notes.foldGroup (result, notes) group = (result ++ [folded], after) ∧
      PutsRow accountId key folded notes after ∧ Folds group folded := by
  have hput : ∀ {folded : NoteRow} {after : Notes}, Folds group folded →
      (∀ row, row ∈ after.rows ↔ row = folded ∨ (row ∈ notes.rows ∧ row ∉ group)) →
      PutsRow accountId key folded notes after := by
    intro folded after hfolds hrows
    have hfolded := hfolds.foldedFrom
    refine ⟨hfolded.accountId _ fun row hrow => ((hgroup row).mp hrow).2.1,
      hfolded.outputKey _ fun row hrow => ((hgroup row).mp hrow).2.2, fun row => ?_⟩
    rw [hrows]
    refine or_congr_right (and_congr_right fun hrow => not_congr ?_)
    rw [hgroup]
    exact and_iff_right hrow
  rcases foldGroup_cases result notes hnonempty with ⟨row, rfl, hsingle⟩ | hmerge
  · refine ⟨row, notes, hsingle, hput (Or.inl rfl) (fun other => ?_), Or.inl rfl⟩
    rw [List.mem_singleton]
    constructor
    · intro hother
      by_cases hsame : other = row
      · exact Or.inl hsame
      · exact Or.inr ⟨hother, hsame⟩
    · rintro (rfl | ⟨hother, _⟩)
      · exact ((hgroup other).mp (List.mem_singleton_self other)).1
      · exact hother
  · obtain ⟨merged, duplicateIds, oldest, hmerged, holdest, hid, -, hids⟩ :=
      mergeDuplicateNoteRecords_spec hnonempty
    have hfolds : Folds group merged := Or.inr ⟨duplicateIds, hmerged⟩
    refine ⟨merged, _, hmerge merged duplicateIds hmerged, hput hfolds (fun row => ?_), hfolds⟩
    have holdest' := ((hgroup oldest).mp holdest).1
    rw [AutoTable.deleteWhere_rows, List.mem_filter, Notes.mem_updateNoteById holdest' hid]
    simp only [Bool.not_eq_true', List.contains_eq_mem, decide_eq_false_iff_not]
    constructor
    · rintro ⟨rfl | ⟨hrow, hne⟩, hnot⟩
      · exact Or.inl rfl
      · refine Or.inr ⟨hrow, fun hin => hnot ((hids row.id).mpr ⟨⟨row, hin, rfl⟩, ?_⟩)⟩
        exact fun heq => hne (heq.trans hid.symm)
    · rintro (rfl | ⟨hrow, hout⟩)
      · exact ⟨Or.inl rfl, fun hin => ((hids _).mp hin).2 hid⟩
      · refine ⟨Or.inr ⟨hrow, fun heq => hout ?_⟩, fun hin => hout ?_⟩
        · rwa [AutoTable.row_eq_of_id hrow holdest' (heq.trans hid)]
        · obtain ⟨⟨other, hother, heq⟩, _⟩ := (hids row.id).mp hin
          rwa [← AutoTable.row_eq_of_id ((hgroup other).mp hother).1 hrow heq]

/-! ## All groups -/

/-- The rows of the account for one output. -/
def Notes.rowsOf (accountId : Int) (key : OutputKey) (notes : Notes) : List NoteRow :=
  notes.rows.filter (fun row => decide (row.accountId = accountId ∧ row.outputKey = key))

theorem Notes.mem_rowsOf {accountId : Int} {key : OutputKey} {notes : Notes} {row : NoteRow} :
    row ∈ notes.rowsOf accountId key ↔
      row ∈ notes.rows ∧ row.accountId = accountId ∧ row.outputKey = key := by
  unfold Notes.rowsOf
  simp

/-- The groups are folded one after the other: the folded rows stand for the outputs, in order,
and the rows of other outputs stay. -/
theorem foldl_foldGroup_spec {accountId : Int} {start : Notes} {keys : List OutputKey}
    (hnodup : keys.Nodup) (hkeys : ∀ key ∈ keys, start.rowsOf accountId key ≠ [])
    {result : List NoteRow} {notes : Notes}
    (hsame : ∀ row, row.outputKey ∈ keys → (row ∈ notes.rows ↔ row ∈ start.rows)) :
    ∃ folded after, (keys.map (start.rowsOf accountId)).foldl Notes.foldGroup (result, notes) =
        (result ++ folded, after) ∧
      folded.map (·.outputKey) = keys ∧
      (∀ row ∈ folded, row.accountId = accountId ∧
        Folds (start.rowsOf accountId row.outputKey) row) ∧
      ∀ row, row ∈ after.rows ↔ row ∈ folded ∨
        (row ∈ notes.rows ∧ ¬(row.accountId = accountId ∧ row.outputKey ∈ keys)) := by
  induction keys generalizing result notes with
  | nil => exact ⟨[], notes, by simp, rfl, by simp, by simp⟩
  | cons key rest ih =>
    obtain ⟨hnot, hrest⟩ := List.nodup_cons.mp hnodup
    have hgroup : ∀ row, row ∈ start.rowsOf accountId key ↔
        row ∈ notes.rows ∧ row.accountId = accountId ∧ row.outputKey = key := by
      intro row
      rw [Notes.mem_rowsOf]
      refine and_congr_left fun hrow => (hsame row ?_).symm
      rw [hrow.2]
      exact List.mem_cons_self
    obtain ⟨first, next, hstep, hput, hfirst⟩ :=
      @foldGroup_puts accountId key result _ notes hgroup (hkeys key List.mem_cons_self)
    have hsameNext : ∀ row, row.outputKey ∈ rest → (row ∈ next.rows ↔ row ∈ start.rows) := by
      intro row hrow
      have hother : row.outputKey ≠ key := fun heq => hnot (heq ▸ hrow)
      rw [← hsame row (List.mem_cons_of_mem _ hrow), hput.rows]
      constructor
      · rintro (rfl | ⟨hmem, _⟩)
        · exact absurd hput.outputKey_eq hother
        · exact hmem
      · intro hmem
        exact Or.inr ⟨hmem, fun hboth => hother hboth.2⟩
    obtain ⟨folded, after, hfold, hmap, hfolded, hrows⟩ :=
      @ih hrest (fun key hkey => hkeys key (List.mem_cons_of_mem _ hkey)) (result ++ [first]) next
        hsameNext
    refine ⟨first :: folded, after, ?_, ?_, ?_, ?_⟩
    · rw [List.map_cons, List.foldl_cons, hstep, hfold, List.append_assoc]
      rfl
    · rw [List.map_cons, hmap, hput.outputKey_eq]
    · rw [List.forall_mem_cons]
      refine ⟨⟨hput.accountId_eq, ?_⟩, hfolded⟩
      rw [hput.outputKey_eq]
      exact hfirst
    · intro row
      rw [hrows, hput.rows, List.mem_cons, List.mem_cons]
      constructor
      · rintro (hin | ⟨rfl | ⟨hmem, hother⟩, hrestOther⟩)
        · exact Or.inl (Or.inr hin)
        · exact Or.inl (Or.inl rfl)
        · refine Or.inr ⟨hmem, ?_⟩
          rintro ⟨haccount, hkey | hkey⟩
          · exact hother ⟨haccount, hkey⟩
          · exact hrestOther ⟨haccount, hkey⟩
      · rintro ((rfl | hin) | ⟨hmem, hother⟩)
        · refine Or.inr ⟨Or.inl rfl, ?_⟩
          rintro ⟨_, hkey⟩
          exact hnot (hput.outputKey_eq ▸ hkey)
        · exact Or.inl hin
        · refine Or.inr ⟨Or.inr ⟨hmem, ?_⟩, ?_⟩
          · rintro ⟨haccount, hkey⟩
            exact hother ⟨haccount, Or.inl hkey⟩
          · rintro ⟨haccount, hkey⟩
            exact hother ⟨haccount, Or.inr hkey⟩

/-- What `prepare_note_upserts` returns and leaves behind. -/
structure Prepared (accountId : Int) (outputs : List OutputKey) (notes : Notes)
    (canonical : List NoteRow) (after : Notes) : Prop where
  found : ∀ row, row ∈ canonical ↔ row ∈ after.ofAccount accountId ∧ row.outputKey ∈ outputs
  one : ∀ a ∈ after.ofAccount accountId, a.outputKey ∈ outputs →
    ∀ b ∈ after.ofAccount accountId, b.outputKey = a.outputKey → b = a
  folded : ∀ row ∈ canonical, FoldedFrom (notes.rowsOf accountId row.outputKey) row
  covered : ∀ row ∈ notes.ofAccount accountId, row.outputKey ∈ outputs →
    ∃ row' ∈ canonical, row'.outputKey = row.outputKey
  others : ∀ row, ¬(row.accountId = accountId ∧ row.outputKey ∈ outputs) →
    (row ∈ after.rows ↔ row ∈ notes.rows)

/-- The outputs among the given ones that have a row. -/
def Notes.foundKeys (accountId : Int) (outputs : List OutputKey) (notes : Notes) : List OutputKey :=
  ((notes.matchingOutputs accountId outputs).map (·.outputKey)).dedup

theorem Notes.mem_foundKeys {accountId : Int} {outputs : List OutputKey} {notes : Notes}
    {key : OutputKey} : key ∈ notes.foundKeys accountId outputs ↔
      key ∈ outputs ∧ ∃ row ∈ notes.ofAccount accountId, row.outputKey = key := by
  unfold Notes.foundKeys
  rw [List.mem_dedup, List.mem_map]
  constructor
  · rintro ⟨row, hrow, rfl⟩
    obtain ⟨hmem, hwanted⟩ := Notes.mem_matchingOutputs.mp hrow
    exact ⟨hwanted, row, hmem, rfl⟩
  · rintro ⟨hwanted, row, hmem, rfl⟩
    exact ⟨row, Notes.mem_matchingOutputs.mpr ⟨hmem, hwanted⟩, rfl⟩

/-- The rows that an upsert is prepared with, before they are sorted, and what is left behind. -/
theorem prepareNoteUpserts_folds (accountId : Int) (outputs : List OutputKey) (notes : Notes) :
    ∃ (folded : List NoteRow) (after : Notes), notes.prepareNoteUpserts accountId outputs =
        (folded.insertionSort (fun a b => a.id ≤ b.id), after) ∧
      folded.map (·.outputKey) = notes.foundKeys accountId outputs ∧
      (∀ row ∈ folded, row.accountId = accountId ∧
        Folds (notes.rowsOf accountId row.outputKey) row) ∧
      ∀ row, row ∈ after.rows ↔ row ∈ folded ∨ (row ∈ notes.rows ∧
        ¬(row.accountId = accountId ∧ row.outputKey ∈ notes.foundKeys accountId outputs)) := by
  let rows := notes.matchingOutputs accountId outputs
  have hgroups : (notes.foundKeys accountId outputs).map
      (fun key => rows.filter (fun row => row.outputKey = key)) =
      (notes.foundKeys accountId outputs).map (notes.rowsOf accountId) := by
    refine List.map_congr_left (fun key hin => ?_)
    have hwanted := (Notes.mem_foundKeys.mp hin).1
    show ((notes.rows.filter _).filter _).filter _ = notes.rows.filter _
    rw [List.filter_filter, List.filter_filter]
    refine List.filter_congr (fun row _ => ?_)
    by_cases haccount : row.accountId = accountId
    · by_cases hrowKey : row.outputKey = key
      · simp [haccount, hrowKey, hwanted]
      · simp [hrowKey]
    · simp [haccount]
  obtain ⟨folded, after, hfold, hmap, hfolded, hafter⟩ :=
    @foldl_foldGroup_spec accountId notes (notes.foundKeys accountId outputs)
      (List.nodup_dedup _) (by
        intro key hin hnil
        obtain ⟨-, row, hrow, rfl⟩ := Notes.mem_foundKeys.mp hin
        obtain ⟨hmem, haccount⟩ := Notes.mem_ofAccount.mp hrow
        have hrow' := Notes.mem_rowsOf.mpr ⟨hmem, haccount, rfl⟩
        rw [hnil] at hrow'
        cases hrow') [] notes (fun _ _ => Iff.rfl)
  refine ⟨folded, after, ?_, hmap, hfolded, hafter⟩
  unfold Notes.prepareNoteUpserts
  dsimp only
  rw [show (rows.map (·.outputKey)).dedup.map
    (fun key => rows.filter (fun row => row.outputKey = key)) = _ from hgroups, hfold]
  rfl

/-- **Preparing an upsert** leaves one row for each output of the batch, whatever rows there
were. -/
theorem prepareNoteUpserts_spec (accountId : Int) (outputs : List OutputKey) (notes : Notes) :
    Prepared accountId outputs notes (notes.prepareNoteUpserts accountId outputs).1
      (notes.prepareNoteUpserts accountId outputs).2 := by
  obtain ⟨folded, after, hresult, hmap, hfolded, hafter⟩ :=
    prepareNoteUpserts_folds accountId outputs notes
  have hfoldedKey : ∀ row ∈ folded, row.outputKey ∈ notes.foundKeys accountId outputs := by
    intro row hrow
    rw [← hmap]
    exact List.mem_map_of_mem hrow
  have houtputs : ∀ row ∈ folded, row.outputKey ∈ outputs := fun row hrow =>
    (Notes.mem_foundKeys.mp (hfoldedKey row hrow)).1
  have hmemFolded : ∀ row ∈ after.ofAccount accountId, row.outputKey ∈ outputs →
      row ∈ folded := by
    intro row hrow hwanted
    obtain ⟨hmem, haccount⟩ := Notes.mem_ofAccount.mp hrow
    rcases (hafter row).mp hmem with hin | ⟨hold, hother⟩
    · exact hin
    · exact absurd ⟨haccount, Notes.mem_foundKeys.mpr
        ⟨hwanted, row, Notes.mem_ofAccount.mpr ⟨hold, haccount⟩, rfl⟩⟩ hother
  have hnodup : (folded.map (·.outputKey)).Nodup := by
    rw [hmap]
    exact List.nodup_dedup _
  rw [hresult]
  constructor
  · intro row
    rw [List.mem_insertionSort]
    constructor
    · intro hin
      exact ⟨Notes.mem_ofAccount.mpr ⟨(hafter row).mpr (Or.inl hin), (hfolded row hin).1⟩,
        houtputs row hin⟩
    · rintro ⟨hrow, hwanted⟩
      exact hmemFolded row hrow hwanted
  · intro a ha hwanted b hb heq
    exact List.inj_on_of_nodup_map hnodup (hmemFolded b hb (heq ▸ hwanted))
      (hmemFolded a ha hwanted) heq
  · intro row hrow
    exact (hfolded row ((List.mem_insertionSort _).mp hrow)).2.foldedFrom
  · intro row hrow hwanted
    have hin : row.outputKey ∈ folded.map (·.outputKey) := by
      rw [hmap]
      exact Notes.mem_foundKeys.mpr ⟨hwanted, row, hrow, rfl⟩
    obtain ⟨row', hrow', heq⟩ := List.mem_map.mp hin
    exact ⟨row', (List.mem_insertionSort _).mpr hrow', heq⟩
  · intro row hother
    rw [hafter]
    constructor
    · rintro (hin | ⟨hmem, _⟩)
      · exact absurd ⟨(hfolded row hin).1, houtputs row hin⟩ hother
      · exact hmem
    · intro hmem
      exact Or.inr ⟨hmem, fun hboth => hother
        ⟨hboth.1, (Notes.mem_foundKeys.mp hboth.2).1⟩⟩

end StashiWallet
