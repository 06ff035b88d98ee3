import StashiWallet.WitnessReadiness
import StashiWallet.Balance

/-!
# What folding rows does to the balance

An output can have several rows. The views of the notes show the newest one with a valid value, and
a fold keeps the oldest id, the newest columns and, for each column that is missing there, the
newest one that is not. The two agree on the value of every output, so that a fold changes no total;
they need not agree on its height, so that a fold can move a note between spendable and pending.
-/

namespace StashiWallet

/-- The columns of a note that can be missing. -/
inductive NoteField where
  | value
  | nullifier
  | commitment
  | height
  | keyId
  | addressId
  | diversifier
  | note
  | position
  | memo
  | spentTxid
deriving DecidableEq, Repr

namespace NoteField

/-- Whether a row has the column, by the test with which a merge looks for it. -/
def present : NoteField → NoteRow → Bool
  | value, row => noteValueIsValid row.value
  | nullifier, row => !row.nullifier.all (· == 0)
  | commitment, row => !row.commitment.isEmpty
  | height, row => decide (0 < row.height)
  | keyId, row => row.keyId.isSome
  | addressId, row => row.addressId.isSome
  | diversifier, row => !blobMissing row.diversifier
  | note, row => !blobMissing row.note
  | position, row => row.position.isSome
  | memo, row => !memoMissing row.memo
  | spentTxid, row => row.spentTxid.isSome

/-- The columns that the loop of a merge fills. -/
def filled : NoteField → Bool
  | value | nullifier | commitment | height => false
  | _ => true

end NoteField

/-! ## The newest one -/

/-- What is found first in a sorted list comes before all others that could be. -/
theorem rel_of_find? {α : Type} {r : α → α → Prop} {p : α → Bool} {l : List α} {found : α}
    (hsorted : l.Pairwise r) (hfind : l.find? p = some found) :
    ∀ a ∈ l, p a = true → a = found ∨ r found a := by
  induction l with
  | nil => exact List.forall_mem_nil _
  | cons head rest ih =>
    obtain ⟨hhead, hrest⟩ := List.pairwise_cons.mp hsorted
    intro a ha hpa
    rw [List.find?_cons] at hfind
    cases hp : p head with
    | true =>
      rw [hp] at hfind
      obtain rfl := Option.some.inj hfind
      exact (List.mem_cons.mp ha).imp_right (hhead a)
    | false =>
      rw [hp] at hfind
      rcases List.mem_cons.mp ha with rfl | hin
      · rw [hp] at hpa
        cases hpa
      · exact ih hrest hfind a hin hpa

/-- What a merge takes for a column: the newest one that is there, or else the newest row's. -/
theorem getD_find?_of_head {α β : Type} {f : α → β} {p : β → Bool} {l : List α} {newest : α}
    {missing : Prop} [Decidable missing] (hhead : l.head? = some newest)
    (hmissing : missing ↔ ¬ p (f newest) = true) :
    (if missing then ((l.map f).find? p).getD (f newest) else f newest) =
      ((l.map f).find? p).getD (f newest) := by
  cases l with
  | nil => cases hhead
  | cons head rest =>
    obtain rfl := Option.some.inj hhead
    by_cases hp : p (f head) = true
    · rw [if_neg (fun h => hmissing.mp h hp), List.map_cons, List.find?_cons_of_pos hp]
      rfl
    · rw [if_pos (hmissing.mpr hp)]

theorem getD_find?_passes {α β : Type} {f : α → β} {p : β → Bool} {l : List α} {default : β} {a : α}
    (ha : a ∈ l) (hp : p (f a) = true) : p (((l.map f).find? p).getD default) = true := by
  cases hfind : (l.map f).find? p with
  | none =>
    have hnot := List.find?_eq_none.mp hfind (f a) (List.mem_map_of_mem ha)
    exact absurd hp hnot
  | some found => exact List.find?_some hfind

/-- So the column of a merge is there if any row has it. -/
theorem column_present {α β : Type} (f : α → β) (p : β → Bool) {l : List α} {newest a : α}
    {missing : Prop} [Decidable missing] (hhead : l.head? = some newest)
    (hmissing : missing ↔ ¬ p (f newest) = true) (ha : a ∈ l) (hp : p (f a) = true) :
    p (if missing then ((l.map f).find? p).getD (f newest) else f newest) = true := by
  rw [getD_find?_of_head hhead hmissing]
  exact getD_find?_passes ha hp

/-! ## The loop of a merge -/

theorem NoteField.present_fillFrom (field : NoteField) {merged : NoteRow} (row : NoteRow)
    (h : field.present merged = true) : field.present (merged.fillFrom row) = true := by
  cases field with
  | value | nullifier | commitment | height => exact h
  | _ => simp_all [NoteField.present, NoteRow.fillFrom]

theorem NoteField.filled_fillFrom {field : NoteField} (hfield : field.filled = true)
    (merged : NoteRow) {row : NoteRow} (h : field.present row = true) :
    field.present (merged.fillFrom row) = true := by
  cases field with
  | value | nullifier | commitment | height => cases hfield
  | diversifier =>
    by_cases hmissing : blobMissing merged.diversifier = true
    · simp_all [NoteField.present, NoteRow.fillFrom]
    · simp_all [NoteField.present, NoteRow.fillFrom]
  | note =>
    by_cases hmissing : blobMissing merged.note = true
    · simp_all [NoteField.present, NoteRow.fillFrom]
    · simp_all [NoteField.present, NoteRow.fillFrom]
  | memo =>
    by_cases hmissing : memoMissing merged.memo = true
    · simp_all [NoteField.present, NoteRow.fillFrom]
    · simp_all [NoteField.present, NoteRow.fillFrom]
  | keyId | addressId | position | spentTxid => simp_all [NoteField.present, NoteRow.fillFrom]

theorem NoteField.present_foldl (field : NoteField) (rows : List NoteRow) {merged : NoteRow}
    (h : field.present merged = true ∨
      (field.filled = true ∧ ∃ row ∈ rows, field.present row = true)) :
    field.present (rows.foldl NoteRow.fillFrom merged) = true := by
  induction rows generalizing merged with
  | nil =>
    rcases h with h | ⟨-, row, hrow, -⟩
    · exact h
    · cases hrow
  | cons first rest ih =>
    refine ih ?_
    rcases h with h | ⟨hfilled, row, hrow, hpresent⟩
    · exact Or.inl (field.present_fillFrom first h)
    · rcases List.mem_cons.mp hrow with rfl | hin
      · exact Or.inl (NoteField.filled_fillFrom hfilled merged hpresent)
      · exact Or.inr ⟨hfilled, row, hin, hpresent⟩

theorem foldl_fillFrom_value (rows : List NoteRow) (merged : NoteRow) :
    (rows.foldl NoteRow.fillFrom merged).value = merged.value := by
  induction rows generalizing merged with
  | nil => rfl
  | cons first rest ih => exact ih _

/-! ## The row that is left -/

/-- What the row that some rows are folded into keeps of them. -/
structure Repaired (rows : List NoteRow) (folded : NoteRow) : Prop where
  id_mem : ∃ row ∈ rows, row.id = folded.id
  oldest : ∀ row ∈ rows, folded.id ≤ row.id
  spent : folded.spent = rows.any (·.spent)
  fields : ∀ field : NoteField, ∀ row ∈ rows, field.present row = true →
    field.present folded = true
  value_mem : ∃ row ∈ rows, row.value = folded.value
  value : ∀ row ∈ rows, noteValueIsValid row.value = true →
    (∀ other ∈ rows, noteValueIsValid other.value = true → other.id ≤ row.id) →
    folded.value = row.value

theorem Repaired.single (row : NoteRow) : Repaired [row] row where
  id_mem := ⟨row, List.mem_singleton_self row, rfl⟩
  oldest := fun _ hother => (List.mem_singleton.mp hother) ▸ le_rfl
  spent := by simp
  fields := fun _ _ hother h => (List.mem_singleton.mp hother) ▸ h
  value_mem := ⟨row, List.mem_singleton_self row, rfl⟩
  value := fun _ hother _ _ => by rw [List.mem_singleton.mp hother]

theorem NoteField.present_spent (field : NoteField) (row : NoteRow) (spent : Bool) :
    field.present { row with spent := spent } = field.present row := by
  cases field <;> rfl

theorem pairwise_sortedById (rows : List NoteRow) :
    (rows.insertionSort (fun a b => a.id ≤ b.id)).Pairwise (fun a b => a.id ≤ b.id) := by
  have : Std.Total (fun a b : NoteRow => a.id ≤ b.id) := ⟨fun a b => Nat.le_total a.id b.id⟩
  have : IsTrans NoteRow (fun a b => a.id ≤ b.id) := ⟨fun _ _ _ => Nat.le_trans⟩
  exact List.pairwise_insertionSort _ _

/-- A merge keeps the oldest id, and for each column the newest row that has it. -/
theorem repaired_of_merge {rows : List NoteRow} {merged : NoteRow} {duplicateIds : List Nat}
    (h : mergeDuplicateNoteRecords rows = some (merged, duplicateIds))
    (hids : ∀ a ∈ rows, ∀ b ∈ rows, a.id = b.id → a = b) : Repaired rows merged := by
  have hmem : ∀ row, row ∈ rows.insertionSort (fun a b => a.id ≤ b.id) ↔ row ∈ rows :=
    fun row => List.mem_insertionSort _
  have hsorted := pairwise_sortedById rows
  unfold mergeDuplicateNoteRecords at h
  dsimp only at h
  generalize rows.insertionSort (fun a b => a.id ≤ b.id) = sorted at h hmem hsorted
  cases hfirst : sorted.head? with
  | none =>
    rw [hfirst] at h
    cases h
  | some oldest =>
  cases hlast : sorted.getLast? with
  | none =>
    rw [hfirst, hlast] at h
    cases h
  | some newest =>
  rw [hfirst, hlast] at h
  dsimp only at h
  obtain ⟨rfl, -⟩ := Prod.mk.inj (Option.some.inj h)
  have hin : ∀ {row}, row ∈ rows → row ∈ sorted.reverse := fun hrow =>
    List.mem_reverse.mpr ((hmem _).mpr hrow)
  have hhead : sorted.reverse.head? = some newest := by rw [List.head?_reverse, hlast]
  have hoff : ∀ {row}, row ∈ sorted.reverse → row ∈ rows := fun hrow =>
    (hmem _).mp (List.mem_reverse.mp hrow)
  have hcolumn : (if noteValueIsValid newest.value then newest.value
      else ((sorted.reverse.map (·.value)).find? noteValueIsValid).getD newest.value) =
      ((sorted.reverse.map (·.value)).find? noteValueIsValid).getD newest.value := by
    rw [← ite_not]
    exact getD_find?_of_head hhead Iff.rfl
  constructor
  · refine ⟨oldest, (hmem oldest).mp (List.mem_of_head? hfirst), Eq.symm ?_⟩
    exact (foldl_fillFrom _ _).1
  · intro row hrow
    refine ((foldl_fillFrom _ _).1.le).trans ?_
    obtain ⟨rest, rfl⟩ := List.head?_eq_some_iff.mp hfirst
    rcases List.mem_cons.mp ((hmem row).mpr hrow) with rfl | hlater
    · exact le_rfl
    · exact (List.pairwise_cons.mp hsorted).1 row hlater
  · rfl
  · intro field row hrow hpresent
    rw [NoteField.present_spent]
    refine field.present_foldl _ ?_
    cases field with
    | value =>
      refine Or.inl ((congrArg noteValueIsValid hcolumn).trans ?_)
      exact @getD_find?_passes _ _ _ noteValueIsValid _ _ row (hin hrow) hpresent
    | nullifier =>
      exact Or.inl (column_present (fun row : NoteRow => row.nullifier)
        (fun bytes => !bytes.all (· == 0)) hhead (by simp) (hin hrow) hpresent)
    | commitment =>
      exact Or.inl (column_present (fun row : NoteRow => row.commitment)
        (fun bytes => !bytes.isEmpty) hhead (by simp) (hin hrow) hpresent)
    | height =>
      exact Or.inl (column_present (fun row : NoteRow => row.height)
        (fun height => decide (0 < height)) hhead (by simp) (hin hrow) hpresent)
    | _ => exact Or.inr ⟨rfl, row, hin hrow, hpresent⟩
  · have hnewest : newest ∈ sorted.reverse := List.mem_of_head? hhead
    obtain ⟨row, hrow, heq⟩ := List.mem_map.mp (@find?_getD_mem _ noteValueIsValid _ _
      (List.mem_map_of_mem (f := (·.value)) hnewest))
    exact ⟨row, hoff hrow, heq.trans ((foldl_fillFrom_value _ _).trans hcolumn).symm⟩
  · intro row hrow hvalid hnewest
    refine ((foldl_fillFrom_value _ _).trans hcolumn).trans ?_
    rw [List.find?_map]
    cases hfind : sorted.reverse.find? (noteValueIsValid ∘ (·.value)) with
    | none => exact absurd hvalid (List.find?_eq_none.mp hfind row (hin hrow))
    | some found =>
      have hfound := hoff (List.mem_of_find?_eq_some hfind)
      have hfoundValid := List.find?_some hfind
      rcases rel_of_find? (List.pairwise_reverse.mpr hsorted) hfind row (hin hrow) hvalid with
        rfl | hle
      · rfl
      · rw [hids row hrow found hfound (Nat.le_antisymm hle (hnewest found hfound hfoundValid))]
        rfl

/-- What the rows of one output are folded into. -/
theorem Folds.repaired {rows : List NoteRow} {folded : NoteRow} (h : Folds rows folded)
    (hids : ∀ a ∈ rows, ∀ b ∈ rows, a.id = b.id → a = b) : Repaired rows folded := by
  rcases h with rfl | ⟨duplicateIds, hmerged⟩
  · exact Repaired.single folded
  · exact repaired_of_merge hmerged hids

/-! ## The views -/

/-- The outputs that `get_unspent_notes` shows, with their values. -/
def Notes.unspentValues (accountId : Int) (notes : Notes) : List (OutputKey × Int) :=
  (notes.getUnspentNotes accountId).map (fun row => (row.outputKey, row.value))

/-- The row that a view shows of the rows of an output. -/
structure Shown (rows : List NoteRow) (row : NoteRow) : Prop where
  mem : row ∈ rows
  valid : noteValueIsValid row.value = true
  unspent : ∀ other ∈ rows, other.spent = false
  newest : ∀ other ∈ rows, noteValueIsValid other.value = true → other.id ≤ row.id

theorem Shown.congr {rows rows' : List NoteRow} (h : ∀ row, row ∈ rows ↔ row ∈ rows')
    {row : NoteRow} : Shown rows row ↔ Shown rows' row := by
  constructor
  · intro hshown
    exact ⟨(h row).mp hshown.mem, hshown.valid,
      fun other hin => hshown.unspent other ((h other).mpr hin),
      fun other hin => hshown.newest other ((h other).mpr hin)⟩
  · intro hshown
    exact ⟨(h row).mpr hshown.mem, hshown.valid,
      fun other hin => hshown.unspent other ((h other).mp hin),
      fun other hin => hshown.newest other ((h other).mp hin)⟩

/-- Of rows that pass one is the newest. -/
theorem exists_newest {p : NoteRow → Bool} {rows : List NoteRow}
    (h : ∃ row ∈ rows, p row = true) :
    ∃ row ∈ rows, p row = true ∧ ∀ other ∈ rows, p other = true → other.id ≤ row.id := by
  obtain ⟨row, hrow, hp⟩ := h
  have hmem : ∀ other, other ∈ (rows.insertionSort (fun a b => a.id ≤ b.id)).reverse ↔
      other ∈ rows := fun other => by rw [List.mem_reverse, List.mem_insertionSort]
  have hsorted := List.pairwise_reverse.mpr (pairwise_sortedById rows)
  cases hfind : (rows.insertionSort (fun a b => a.id ≤ b.id)).reverse.find? p with
  | none => exact absurd hp (List.find?_eq_none.mp hfind row ((hmem row).mpr hrow))
  | some found =>
    refine ⟨found, (hmem found).mp (List.mem_of_find?_eq_some hfind), List.find?_some hfind, ?_⟩
    intro other hother hpasses
    rcases rel_of_find? hsorted hfind other ((hmem other).mpr hother) hpasses with rfl | hle
    · exact le_rfl
    · exact hle

/-- A fold shows the value that its rows showed. -/
theorem Repaired.shown_iff {rows : List NoteRow} {folded : NoteRow} (h : Repaired rows folded)
    {value : Int} : (∃ row, Shown [folded] row ∧ row.value = value) ↔
      ∃ row, Shown rows row ∧ row.value = value := by
  have hspent : folded.spent = false ↔ ∀ other ∈ rows, other.spent = false := by
    rw [h.spent, List.any_eq_false]
    simp
  constructor
  · rintro ⟨row, hshown, rfl⟩
    obtain rfl := List.mem_singleton.mp hshown.mem
    obtain ⟨source, hsource, hvalue⟩ := h.value_mem
    obtain ⟨newest, hnewest, hvalid, hlater⟩ := @exists_newest
      (fun row => noteValueIsValid row.value) rows ⟨source, hsource, by
        rw [hvalue]
        exact hshown.valid⟩
    exact ⟨newest, ⟨hnewest, hvalid, hspent.mp (hshown.unspent row (List.mem_singleton_self row)),
      hlater⟩, (h.value newest hnewest hvalid hlater).symm⟩
  · rintro ⟨row, hshown, rfl⟩
    have hvalue := h.value row hshown.mem hshown.valid hshown.newest
    refine ⟨folded, ⟨List.mem_singleton_self folded, hvalue ▸ hshown.valid, ?_, ?_⟩, hvalue⟩
    · intro other hother
      rw [List.mem_singleton.mp hother]
      exact hspent.mpr hshown.unspent
    · intro other hother _
      rw [List.mem_singleton.mp hother]

section View

variable {accountId : Int} {outputs : List OutputKey} {notes notes' : Notes} {key : OutputKey}
  {row : NoteRow} {value : Int}

theorem mem_getUnspentNotes : row ∈ notes.getUnspentNotes accountId ↔
    row.accountId = accountId ∧ Shown (notes.rowsOf accountId row.outputKey) row := by
  unfold Notes.getUnspentNotes
  rw [mem_latestUnspent]
  constructor
  · intro h
    refine ⟨h.accountId_eq, Notes.mem_rowsOf.mpr ⟨h.mem, h.accountId_eq, rfl⟩, h.passed, ?_, ?_⟩
    · intro other hother
      obtain ⟨hmem, haccount, hkey⟩ := Notes.mem_rowsOf.mp hother
      exact h.unspent other hmem haccount hkey
    · intro other hother
      obtain ⟨hmem, haccount, hkey⟩ := Notes.mem_rowsOf.mp hother
      exact h.latest other hmem haccount hkey
  · rintro ⟨haccount, h⟩
    refine ⟨(Notes.mem_rowsOf.mp h.mem).1, haccount, rfl, h.valid, ?_, ?_⟩
    · intro other hmem haccount hkey
      exact h.unspent other (Notes.mem_rowsOf.mpr ⟨hmem, haccount, hkey⟩)
    · intro other hmem haccount hkey
      exact h.newest other (Notes.mem_rowsOf.mpr ⟨hmem, haccount, hkey⟩)

theorem mem_unspentValues : (key, value) ∈ notes.unspentValues accountId ↔
    ∃ row, Shown (notes.rowsOf accountId key) row ∧ row.value = value := by
  unfold Notes.unspentValues
  rw [List.mem_map]
  constructor
  · rintro ⟨row, hrow, heq⟩
    obtain ⟨rfl, rfl⟩ := Prod.mk.inj heq
    exact ⟨row, (mem_getUnspentNotes.mp hrow).2, rfl⟩
  · rintro ⟨row, hshown, rfl⟩
    obtain ⟨-, haccount, rfl⟩ := Notes.mem_rowsOf.mp hshown.mem
    exact ⟨row, mem_getUnspentNotes.mpr ⟨haccount, hshown⟩, rfl⟩

theorem unspentValues_nodup : (notes.unspentValues accountId).Nodup := by
  have hkeys : ((notes.unspentValues accountId).map Prod.fst).Nodup := by
    unfold Notes.unspentValues
    rw [List.map_map]
    exact latestUnspent_nodup accountId _ notes
  exact hkeys.of_map _

/-- Tables that show the same of every output show the same. -/
theorem unspentValues_perm (h : ∀ key value,
    (∃ row, Shown (notes'.rowsOf accountId key) row ∧ row.value = value) ↔
      ∃ row, Shown (notes.rowsOf accountId key) row ∧ row.value = value) :
    (notes'.unspentValues accountId).Perm (notes.unspentValues accountId) := by
  refine (List.perm_ext_iff_of_nodup unspentValues_nodup unspentValues_nodup).mpr ?_
  rintro ⟨key, value⟩
  rw [mem_unspentValues, mem_unspentValues]
  exact h key value

theorem getUnspentNotes_perm (h : notes'.rows.Perm notes.rows) :
    (notes'.getUnspentNotes accountId).Perm (notes.getUnspentNotes accountId) := by
  have hrows : ∀ key row, row ∈ notes'.rowsOf accountId key ↔ row ∈ notes.rowsOf accountId key := by
    intro key row
    rw [Notes.mem_rowsOf, Notes.mem_rowsOf, h.mem_iff]
  refine (List.perm_ext_iff_of_nodup (latestUnspent_rows_nodup _ _ _)
    (latestUnspent_rows_nodup _ _ _)).mpr fun row => ?_
  show row ∈ notes'.getUnspentNotes accountId ↔ row ∈ notes.getUnspentNotes accountId
  rw [mem_getUnspentNotes, mem_getUnspentNotes, Shown.congr (hrows row.outputKey)]

/-- The rows of an output after an upsert is prepared: one that they are folded into, or the same.
-/
theorem rowsOf_prepared {canonical : List NoteRow} {after : Notes}
    (h : notes.prepareNoteUpserts accountId outputs = (canonical, after)) (key : OutputKey) :
    (key ∈ notes.foundKeys accountId outputs ∧ ∃ folded ∈ canonical,
      after.rowsOf accountId key = [folded] ∧ Repaired (notes.rowsOf accountId key) folded) ∨
    (key ∉ notes.foundKeys accountId outputs ∧
      ∀ row, row ∈ after.rowsOf accountId key ↔ row ∈ notes.rowsOf accountId key) := by
  obtain ⟨folded, after', hresult, hmap, hfolded, hafter⟩ :=
    prepareNoteUpserts_folds accountId outputs notes
  rw [h] at hresult
  obtain ⟨rfl, rfl⟩ := Prod.mk.inj hresult
  have hnodup : (folded.map (·.outputKey)).Nodup := by
    rw [hmap]
    exact List.nodup_dedup _
  by_cases hkey : key ∈ notes.foundKeys accountId outputs
  · left
    obtain ⟨row, hrow, rfl⟩ := List.mem_map.mp (hmap ▸ hkey)
    obtain ⟨haccount, hfolds⟩ := hfolded row hrow
    refine ⟨hkey, row, (List.mem_insertionSort _).mpr hrow, ?_, hfolds.repaired ?_⟩
    · have hmem : ∀ other, other ∈ after.rowsOf accountId row.outputKey ↔ other ∈ [row] := by
        intro other
        rw [Notes.mem_rowsOf, hafter, List.mem_singleton]
        constructor
        · rintro ⟨hin | ⟨-, hother⟩, hsame, heq⟩
          · exact List.inj_on_of_nodup_map hnodup hin hrow heq
          · exact absurd ⟨hsame, heq ▸ hkey⟩ hother
        · rintro rfl
          exact ⟨Or.inl hrow, haccount, rfl⟩
      exact List.perm_singleton.mp ((List.perm_ext_iff_of_nodup (after.rows_nodup.filter _)
        (List.nodup_singleton row)).mpr hmem)
    · intro a ha b hb
      exact AutoTable.row_eq_of_id (Notes.mem_rowsOf.mp ha).1 (Notes.mem_rowsOf.mp hb).1
  · right
    refine ⟨hkey, fun row => ?_⟩
    rw [Notes.mem_rowsOf, Notes.mem_rowsOf, hafter]
    constructor
    · rintro ⟨hin | ⟨hmem, -⟩, haccount, rfl⟩
      · exact absurd (hmap ▸ List.mem_map_of_mem hin) hkey
      · exact ⟨hmem, haccount, rfl⟩
    · rintro ⟨hmem, haccount, rfl⟩
      exact ⟨Or.inr ⟨hmem, fun hboth => hkey hboth.2⟩, haccount, rfl⟩

/-- **A fold changes no value**: the outputs that are shown and their values stay. -/
theorem unspentValues_prepared {canonical : List NoteRow} {after : Notes}
    (h : notes.prepareNoteUpserts accountId outputs = (canonical, after)) :
    (after.unspentValues accountId).Perm (notes.unspentValues accountId) := by
  refine unspentValues_perm fun key value => ?_
  rcases rowsOf_prepared h key with ⟨-, folded, -, hone, hrepaired⟩ | ⟨-, hsame⟩
  · rw [hone]
    exact hrepaired.shown_iff
  · simp only [Shown.congr hsame]

end View

/-! ## The balance -/

/-- The note has enough confirmations for the threshold. -/
def NoteRow.mature (threshold : Nat) (row : NoteRow) : Bool :=
  decide (0 < asU64 row.height ∧ asU64 row.height ≤ threshold)

/-- The confirmation threshold of `calculate_balance`. -/
def confirmationThreshold (currentHeight minDepth : Nat) : Nat := currentHeight - (max minDepth 1 - 1)

/-- The value of some notes. -/
def totalValue (notes : List NoteRow) : Nat := (notes.map (fun note => asU64 note.value)).sum

section Sums

variable {currentHeight minDepth threshold : Nat} {notes notes' : List NoteRow}

theorem totalValue_filter (p : NoteRow → Bool) :
    totalValue (notes.filter p) + totalValue (notes.filter (fun note => !p note)) =
      totalValue notes := by
  induction notes with
  | nil => rfl
  | cons note rest ih =>
    unfold totalValue at ih ⊢
    by_cases hp : p note = true
    · simp [hp]
      omega
    · simp [hp]
      omega

theorem totalValue_cons (note : NoteRow) (rest : List NoteRow) :
    totalValue (note :: rest) = asU64 note.value + totalValue rest := rfl

/-- Two sums, if both fit. -/
def checkedPair (first second : Nat) : Except StorageError (Nat × Nat) :=
  if first ≤ u64Max ∧ second ≤ u64Max then .ok (first, second)
  else .error (.storage "Balance overflow")

theorem foldlM_addToBalance {sums : Nat × Nat} (hfirst : sums.1 ≤ u64Max)
    (hsecond : sums.2 ≤ u64Max) :
    notes.foldlM (addToBalance threshold) sums = checkedPair
      (sums.1 + totalValue (notes.filter (NoteRow.mature threshold)))
      (sums.2 + totalValue (notes.filter (fun note => !note.mature threshold))) := by
  induction notes generalizing sums with
  | nil => exact (if_pos ⟨hfirst, hsecond⟩).symm
  | cons note rest ih =>
    rw [List.foldlM_cons]
    by_cases hmature : note.mature threshold = true
    · have hstep : addToBalance threshold sums note =
          (checkedAdd sums.1 (asU64 note.value)).map (fun spendable => (spendable, sums.2)) :=
        if_pos (of_decide_eq_true hmature)
      have hspendable : (note :: rest).filter (NoteRow.mature threshold) =
          note :: rest.filter (NoteRow.mature threshold) := List.filter_cons_of_pos hmature
      have hpending : (note :: rest).filter (fun note => !note.mature threshold) =
          rest.filter (fun note => !note.mature threshold) :=
        List.filter_cons_of_neg (by rw [hmature]; decide)
      unfold checkedAdd at hstep
      rw [hstep, hspendable, hpending, totalValue_cons, ← Nat.add_assoc]
      by_cases hfits : sums.1 + asU64 note.value ≤ u64Max
      · rw [if_pos hfits]
        exact ih hfits hsecond
      · rw [if_neg hfits]
        unfold checkedPair
        rw [if_neg (by omega)]
        rfl
    · have hstep : addToBalance threshold sums note =
          (checkedAdd sums.2 (asU64 note.value)).map (fun pending => (sums.1, pending)) :=
        if_neg (fun h => hmature (decide_eq_true h))
      have hspendable : (note :: rest).filter (NoteRow.mature threshold) =
          rest.filter (NoteRow.mature threshold) := List.filter_cons_of_neg hmature
      have hpending : (note :: rest).filter (fun note => !note.mature threshold) =
          note :: rest.filter (fun note => !note.mature threshold) :=
        List.filter_cons_of_pos (by rw [Bool.eq_false_iff.mpr hmature]; decide)
      unfold checkedAdd at hstep
      rw [hstep, hspendable, hpending, totalValue_cons, ← Nat.add_assoc]
      by_cases hfits : sums.2 + asU64 note.value ≤ u64Max
      · rw [if_pos hfits]
        exact ih hfirst hfits
      · rw [if_neg hfits]
        unfold checkedPair
        rw [if_neg (by omega)]
        rfl

/-- The balance, as sums. -/
theorem calculateBalance_eq (currentHeight minDepth : Nat) (notes : List NoteRow) :
    calculateBalance currentHeight minDepth notes =
      if totalValue notes ≤ u64Max then
        .ok (totalValue (notes.filter
            (NoteRow.mature (confirmationThreshold currentHeight minDepth))),
          totalValue (notes.filter
            (fun note => !note.mature (confirmationThreshold currentHeight minDepth))),
          totalValue notes)
      else .error (.storage "Balance overflow") := by
  have hloop := @foldlM_addToBalance (confirmationThreshold currentHeight minDepth) notes (0, 0)
    (Nat.zero_le _) (Nat.zero_le _)
  have hsum := @totalValue_filter notes
    (NoteRow.mature (confirmationThreshold currentHeight minDepth))
  unfold calculateBalance
  rw [show currentHeight - (max minDepth 1 - 1) = confirmationThreshold currentHeight minDepth
    from rfl, hloop, Nat.zero_add, Nat.zero_add]
  unfold checkedPair
  by_cases hfits : totalValue notes ≤ u64Max
  · rw [if_pos hfits, if_pos (by omega)]
    show (checkedAdd _ _ >>= fun total => _) = _
    unfold checkedAdd
    rw [if_pos (by omega), hsum]
    rfl
  · rw [if_neg hfits]
    by_cases hparts : totalValue (notes.filter
          (NoteRow.mature (confirmationThreshold currentHeight minDepth))) ≤ u64Max ∧
        totalValue (notes.filter
          (fun note => !note.mature (confirmationThreshold currentHeight minDepth))) ≤ u64Max
    · rw [if_pos hparts]
      show (checkedAdd _ _ >>= fun total => _) = _
      unfold checkedAdd
      rw [if_neg (by omega)]
      rfl
    · rw [if_neg hparts]
      rfl

theorem totalValue_perm (h : notes'.Perm notes) : totalValue notes' = totalValue notes :=
  (h.map _).sum_nat

theorem calculateBalance_perm (h : notes'.Perm notes) (currentHeight minDepth : Nat) :
    calculateBalance currentHeight minDepth notes' =
      calculateBalance currentHeight minDepth notes := by
  rw [calculateBalance_eq, calculateBalance_eq, totalValue_perm h, totalValue_perm (h.filter _),
    totalValue_perm (h.filter _)]

/-- An output that is shown, with its value and whether it is mature. -/
def shownState (threshold : Nat) (row : NoteRow) : OutputKey × Int × Bool :=
  (row.outputKey, row.value, row.mature threshold)

/-- The balance is one of outputs, values and maturity. -/
theorem calculateBalance_congr (h : (notes'.map
      (shownState (confirmationThreshold currentHeight minDepth))).Perm
    (notes.map (shownState (confirmationThreshold currentHeight minDepth)))) :
    calculateBalance currentHeight minDepth notes' =
      calculateBalance currentHeight minDepth notes := by
  have hvalues : ∀ (p : Bool → Bool) (rows : List NoteRow),
      totalValue (rows.filter (fun row => p (row.mature
        (confirmationThreshold currentHeight minDepth)))) =
      (((rows.map (shownState (confirmationThreshold currentHeight minDepth))).filter
        (fun state => p state.2.2)).map (fun state => asU64 state.2.1)).sum := by
    intro p rows
    rw [List.filter_map, List.map_map]
    rfl
  have hsame : ∀ p : Bool → Bool,
      totalValue (notes'.filter (fun row => p (row.mature
        (confirmationThreshold currentHeight minDepth)))) =
      totalValue (notes.filter (fun row => p (row.mature
        (confirmationThreshold currentHeight minDepth)))) := by
    intro p
    rw [hvalues, hvalues]
    exact ((h.filter _).map _).sum_nat
  have htotal := hsame (fun _ => true)
  rw [List.filter_true, List.filter_true] at htotal
  rw [calculateBalance_eq, calculateBalance_eq, htotal]
  have hspendable := hsame id
  have hpending := hsame not
  simp only [id] at hspendable
  rw [hspendable, hpending]

end Sums

/-! ## The repair -/

section Repair

variable {accountId : Int} {outputs : List OutputKey} {notes : Notes} {canonical : List NoteRow}
  {after : Notes}

theorem totalValue_eq_unspentValues (notes : Notes) :
    totalValue (notes.getUnspentNotes accountId) =
      ((notes.unspentValues accountId).map (fun entry => asU64 entry.2)).sum := by
  unfold totalValue Notes.unspentValues
  rw [List.map_map]
  rfl

variable (h : notes.prepareNoteUpserts accountId outputs = (canonical, after))

include h

theorem totalValue_prepared :
    totalValue (after.getUnspentNotes accountId) = totalValue (notes.getUnspentNotes accountId) := by
  rw [totalValue_eq_unspentValues, totalValue_eq_unspentValues]
  exact ((unspentValues_prepared h).map _).sum_nat

/-- The total is the same, and so is a failure. -/
theorem balance_total_prepared (currentHeight minDepth : Nat) :
    (calculateBalance currentHeight minDepth (after.getUnspentNotes accountId)).map (·.2.2) =
      (calculateBalance currentHeight minDepth (notes.getUnspentNotes accountId)).map (·.2.2) := by
  rw [calculateBalance_eq, calculateBalance_eq, totalValue_prepared h]
  by_cases hfits : totalValue (notes.getUnspentNotes accountId) ≤ u64Max
  · rw [if_pos hfits, if_pos hfits]
    rfl
  · rw [if_neg hfits, if_neg hfits]

/-- The whole balance is the same where the rows that are shown are as mature as before. -/
theorem balance_prepared {currentHeight minDepth : Nat}
    (hmature : ∀ row ∈ notes.getUnspentNotes accountId, ∀ row' ∈ after.getUnspentNotes accountId,
      row'.outputKey = row.outputKey → row'.mature (confirmationThreshold currentHeight minDepth) =
      row.mature (confirmationThreshold currentHeight minDepth)) :
    calculateBalance currentHeight minDepth (after.getUnspentNotes accountId) =
      calculateBalance currentHeight minDepth (notes.getUnspentNotes accountId) := by
  have hvalues := unspentValues_prepared h
  have hnodup : ∀ table : Notes, ((table.getUnspentNotes accountId).map
      (shownState (confirmationThreshold currentHeight minDepth))).Nodup := by
    intro table
    refine List.Nodup.of_map Prod.fst ?_
    rw [List.map_map]
    exact latestUnspent_nodup accountId _ table
  refine calculateBalance_congr ((List.perm_ext_iff_of_nodup (hnodup after) (hnodup notes)).mpr
    fun state => ?_)
  rw [List.mem_map, List.mem_map]
  constructor
  · rintro ⟨row', hrow', rfl⟩
    obtain ⟨row, hrow, heq⟩ := List.mem_map.mp (hvalues.mem_iff.mp (List.mem_map_of_mem
      (f := fun row => (row.outputKey, row.value)) hrow'))
    obtain ⟨hkey, hvalue⟩ := Prod.mk.inj heq
    refine ⟨row, hrow, ?_⟩
    unfold shownState
    rw [hkey, hvalue, hmature row hrow row' hrow' hkey.symm]
  · rintro ⟨row, hrow, rfl⟩
    obtain ⟨row', hrow', heq⟩ := List.mem_map.mp (hvalues.mem_iff.mpr (List.mem_map_of_mem
      (f := fun row => (row.outputKey, row.value)) hrow))
    obtain ⟨hkey, hvalue⟩ := Prod.mk.inj heq
    refine ⟨row', hrow', ?_⟩
    unfold shownState
    rw [hkey, hvalue, hmature row hrow row' hrow' hkey]

theorem canonical_sorted : canonical.Pairwise (fun a b => a.id ≤ b.id) ∧ canonical.Nodup := by
  obtain ⟨folded, after', hresult, hmap, -, -⟩ :=
    prepareNoteUpserts_folds accountId outputs notes
  rw [h] at hresult
  obtain ⟨rfl, -⟩ := Prod.mk.inj hresult
  refine ⟨pairwise_sortedById folded, (List.perm_insertionSort _ folded).nodup_iff.mpr ?_⟩
  refine List.Nodup.of_map (·.outputKey) ?_
  rw [hmap]
  exact List.nodup_dedup _

/-- Running it again finds the same rows and changes nothing. -/
theorem prepareNoteUpserts_again :
    after.prepareNoteUpserts accountId outputs = (canonical, after) := by
  have hprepared := prepareNoteUpserts_spec accountId outputs notes
  rw [h] at hprepared
  have hdistinct : ∀ a ∈ after.matchingOutputs accountId outputs,
      ∀ b ∈ after.matchingOutputs accountId outputs, a.outputKey = b.outputKey → a = b := by
    intro a ha b hb heq
    obtain ⟨hain, hawanted⟩ := Notes.mem_matchingOutputs.mp ha
    obtain ⟨hbin, -⟩ := Notes.mem_matchingOutputs.mp hb
    exact (hprepared.one a hain hawanted b hbin heq.symm).symm
  obtain ⟨hsame, hrows⟩ := Notes.prepareNoteUpserts_of_distinct hdistinct
  have hagain : after.prepareNoteUpserts accountId outputs =
      ((after.prepareNoteUpserts accountId outputs).1, after) := Prod.ext rfl hsame
  obtain ⟨hsorted, hnodup⟩ := canonical_sorted h
  obtain ⟨hsorted', hnodup'⟩ := canonical_sorted hagain
  have hfound : ∀ row, row ∈ (after.prepareNoteUpserts accountId outputs).1 ↔
      row ∈ canonical := fun row => (hrows row).trans (hprepared.found row).symm
  have htable : ∀ row ∈ canonical, row ∈ after.rows := fun row hrow =>
    (Notes.mem_ofAccount.mp ((hprepared.found row).mp hrow).1).1
  rw [hagain]
  refine congrArg (fun rows => (rows, after)) ?_
  refine List.Perm.eq_of_pairwise (fun a b ha hb hab hba => ?_) hsorted' hsorted
    ((List.perm_ext_iff_of_nodup hnodup' hnodup).mpr hfound)
  exact AutoTable.row_eq_of_id (htable a ((hfound a).mp ha)) (htable b hb)
    (Nat.le_antisymm hab hba)

end Repair

/-- **What a repair keeps.** What is shown and what the balance is do not depend on the order of the
rows. Preparing an upsert keeps the outputs that are shown, their values, and the total of the
balance or its failure; the split of the total stays where the rows that are shown are as mature as
before. It leaves each of its outputs that had a row with one, which has the oldest id, is spent if
any was, and has every column that any had. Running it again changes nothing. -/
theorem repair_keeps_values (accountId : Int) (outputs : List OutputKey) (notes : Notes) :
    (∀ notes' : Notes, notes'.rows.Perm notes.rows →
      (notes'.unspentValues accountId).Perm (notes.unspentValues accountId) ∧
      ∀ currentHeight minDepth,
        calculateBalance currentHeight minDepth (notes'.getUnspentNotes accountId) =
          calculateBalance currentHeight minDepth (notes.getUnspentNotes accountId)) ∧
    ∀ canonical after, notes.prepareNoteUpserts accountId outputs = (canonical, after) →
      (after.unspentValues accountId).Perm (notes.unspentValues accountId) ∧
      (∀ currentHeight minDepth,
        (calculateBalance currentHeight minDepth (after.getUnspentNotes accountId)).map (·.2.2) =
          (calculateBalance currentHeight minDepth (notes.getUnspentNotes accountId)).map
            (·.2.2)) ∧
      (∀ currentHeight minDepth, (∀ row ∈ notes.getUnspentNotes accountId,
          ∀ row' ∈ after.getUnspentNotes accountId, row'.outputKey = row.outputKey →
            row'.mature (confirmationThreshold currentHeight minDepth) =
              row.mature (confirmationThreshold currentHeight minDepth)) →
        calculateBalance currentHeight minDepth (after.getUnspentNotes accountId) =
          calculateBalance currentHeight minDepth (notes.getUnspentNotes accountId)) ∧
      (∀ key ∈ outputs, notes.rowsOf accountId key ≠ [] → ∃ folded ∈ canonical,
        after.rowsOf accountId key = [folded] ∧ Repaired (notes.rowsOf accountId key) folded) ∧
      after.prepareNoteUpserts accountId outputs = (canonical, after) := by
  constructor
  · intro notes' hperm
    have hview := @getUnspentNotes_perm accountId notes notes' hperm
    exact ⟨hview.map _, calculateBalance_perm hview⟩
  · intro canonical after h
    refine ⟨unspentValues_prepared h, balance_total_prepared h,
      fun _ _ hmature => balance_prepared h hmature, ?_, prepareNoteUpserts_again h⟩
    intro key hkey hrows
    rcases rowsOf_prepared h key with ⟨-, hfolded⟩ | ⟨hnot, -⟩
    · exact hfolded
    · obtain ⟨row, hrow⟩ := List.exists_mem_of_ne_nil _ hrows
      obtain ⟨hmem, haccount, hrowKey⟩ := Notes.mem_rowsOf.mp hrow
      exact absurd (Notes.mem_foundKeys.mpr
        ⟨hkey, row, Notes.mem_ofAccount.mpr ⟨hmem, haccount⟩, hrowKey⟩) hnot

/-- A row of the account 1 for the first output of a transaction. -/
def outputRow (id : Nat) (value height : Int) : NoteRow where
  accountId := 1
  keyId := none
  noteType := .sapling
  value := value
  nullifier := []
  commitment := []
  spent := false
  height := height
  txid := List.replicate 32 1
  outputIndex := 0
  addressId := none
  spentTxid := none
  diversifier := none
  note := none
  position := none
  memo := none
  id := id

/-- Two rows of one output: a mined one, and a newer one without a height. -/
def duplicatedNotes : Notes where
  rows := [outputRow 1 5 100, outputRow 2 5 0]
  nextId := 3
  ids_nodup := by decide
  ids_lt := by decide

/-- The fold of the two makes a pending note spendable. -/
theorem repair_moves_balance :
    calculateBalance 200 1 (duplicatedNotes.getUnspentNotes 1) = .ok (0, 5, 5) ∧
    calculateBalance 200 1 ((duplicatedNotes.prepareNoteUpserts 1
      [(List.replicate 32 1, 0, .sapling)]).2.getUnspentNotes 1) = .ok (5, 0, 5) := by
  decide

/-- The same rows, in the other order. -/
def duplicatedNotesReversed : Notes where
  rows := [outputRow 2 5 0, outputRow 1 5 100]
  nextId := 3
  ids_nodup := by decide
  ids_lt := by decide

theorem repair_keeps_values_duplicated :
    (duplicatedNotesReversed.unspentValues 1).Perm (duplicatedNotes.unspentValues 1) ∧
    (duplicatedNotes.prepareNoteUpserts 1 [(List.replicate 32 1, 0, .sapling)]).2.prepareNoteUpserts
        1 [(List.replicate 32 1, 0, .sapling)] =
      duplicatedNotes.prepareNoteUpserts 1 [(List.replicate 32 1, 0, .sapling)] := by
  obtain ⟨horder, hrepair⟩ :=
    repair_keeps_values 1 [(List.replicate 32 1, 0, .sapling)] duplicatedNotes
  exact ⟨(horder duplicatedNotesReversed (List.Perm.swap _ _ [])).1, (hrepair _ _ rfl).2.2.2.2⟩

end StashiWallet
