import StashiWallet.BatchPipeline
import StashiWallet.NoteMerge

/-!
# What a batch of notes keeps of every row

A row that `persist_notes` leaves in the table was there before, or is the fold of rows of one
output, or one of these brought up to date with a note, or a new row of a note. What holds of all
rows holds afterwards, if these three keep it.
-/

namespace StashiWallet

/-- What holds of the rows is kept by the fold, the update and the new row of a batch. -/
structure PersistInput.Keeps (P : NoteRow → Prop) (input : PersistInput) (accountId : Int)
    (unlinked : UnlinkedSpendMap) : Prop where
  fold : ∀ key rows folded, rows ≠ [] →
    (∀ row ∈ rows, row.accountId = accountId ∧ row.outputKey = key ∧ P row) →
      FoldedFrom rows folded → P folded
  upsert : ∀ n ∈ input.notes, ∀ existing : NoteRow, existing.accountId = accountId →
    existing.outputKey = n.outputKey → P existing →
      P (existing.upsert unlinked n (input.addressId n))
  create : ∀ n ∈ input.notes, ∀ id,
    P { (input.newRecord accountId n).link (n.linkedSpend unlinked) with id := id }

section

variable {P : NoteRow → Prop} {accountId : Int}

/-- What folding keeps of a row holds of every row after an upsert is prepared. -/
theorem prepareNoteUpserts_keeps {notes : Notes} (h : ∀ row ∈ notes.rows, P row)
    (outputs : List OutputKey)
    (hfold : ∀ key rows folded, rows ≠ [] →
      (∀ row ∈ rows, row.accountId = accountId ∧ row.outputKey = key ∧ P row) →
        FoldedFrom rows folded → P folded) :
    (∀ row ∈ (notes.prepareNoteUpserts accountId outputs).2.rows, P row) ∧
      ∀ row ∈ (notes.prepareNoteUpserts accountId outputs).1,
        row.accountId = accountId ∧ P row := by
  have hprepared := prepareNoteUpserts_spec accountId outputs notes
  have hfolded : ∀ row ∈ (notes.prepareNoteUpserts accountId outputs).1,
      row.accountId = accountId ∧ P row := by
    intro row hrow
    have hfrom := hprepared.folded row hrow
    refine ⟨(Notes.mem_ofAccount.mp ((hprepared.found row).mp hrow).1).2,
      hfold row.outputKey _ row ?_ ?_ hfrom⟩
    · intro hnone
      rw [hnone] at hfrom
      -- a fold of no rows would have two accounts
      have haccount := hfrom.accountId (row.accountId + 1) (List.forall_mem_nil _)
      omega
    · intro old hold
      obtain ⟨hmem, haccount, hkey⟩ := Notes.mem_rowsOf.mp hold
      exact ⟨haccount, hkey, h old hmem⟩
  refine ⟨fun row hrow => ?_, hfolded⟩
  by_cases hwanted : row.accountId = accountId ∧ row.outputKey ∈ outputs
  · exact (hfolded row ((hprepared.found row).mpr
      ⟨Notes.mem_ofAccount.mpr ⟨hrow, hwanted.1⟩, hwanted.2⟩)).2
  · exact h row ((hprepared.others row hwanted).mp hrow)

/-- The rows of the loop, and those of its index, which stand for their output. -/
structure PersistState.Keeps (P : NoteRow → Prop) (accountId : Int) (state : PersistState) :
    Prop where
  rows : ∀ row ∈ state.notes.rows, P row
  index : ∀ key row, state.existingByOutput.lookup key = some row →
    row.accountId = accountId ∧ row.outputKey = key ∧ P row

/-- The step lemma of the loop. -/
theorem PersistState.Keeps.persistNote {state : PersistState} (h : state.Keeps P accountId)
    {input : PersistInput} {unlinked : UnlinkedSpendMap}
    (hkeeps : input.Keeps P accountId unlinked) {n : DecryptedNote} (hn : n ∈ input.notes) :
    (input.persistNote accountId unlinked state n).Keeps P accountId := by
  -- the index after a row was put under the output of the note
  have hput : ∀ {index : AList (fun _ : OutputKey => NoteRow)} {put : NoteRow},
      (∀ key row, index.lookup key = some row →
        row.accountId = accountId ∧ row.outputKey = key ∧ P row) →
      put.accountId = accountId ∧ put.outputKey = n.outputKey ∧ P put →
      ∀ key row, (index.insert n.outputKey put).lookup key = some row →
        row.accountId = accountId ∧ row.outputKey = key ∧ P row := by
    intro index put hindex hown key row hlookup
    by_cases hkey : key = n.outputKey
    · rw [hkey, AList.lookup_insert] at hlookup
      rw [hkey]
      exact Option.some.inj hlookup ▸ hown
    · rw [AList.lookup_insert_ne hkey] at hlookup
      exact hindex key row hlookup
  obtain ⟨hmetaNotes, hmetaIndex⟩ := upsertMeta_same input n state
  have hrows : ∀ row ∈ (state.upsertMeta input n).notes.rows, P row := hmetaNotes ▸ h.rows
  have hindex : ∀ key row, (state.upsertMeta input n).existingByOutput.lookup key = some row →
      row.accountId = accountId ∧ row.outputKey = key ∧ P row := hmetaIndex ▸ h.index
  unfold PersistInput.persistNote
  split
  · exact h
  · dsimp only
    split
    · rename_i existing hlookup
      obtain ⟨haccount, hkey, hexisting⟩ := hindex _ existing hlookup
      have hupserted := hkeeps.upsert n hn existing haccount hkey hexisting
      refine ⟨?_, hput hindex ⟨(link_accountId _ _).trans haccount,
        upsert_outputKey hkey _, hupserted⟩⟩
      unfold PersistState.update
      dsimp only
      split
      · exact hrows
      · intro row hrow
        obtain ⟨old, hold, rfl⟩ := List.mem_map.mp hrow
        split
        · rename_i hid
          have hsame : old.id = (existing.upsert unlinked n (input.addressId n)).id :=
            beq_iff_eq.mp hid
          show P { (existing.upsert unlinked n (input.addressId n)) with id := old.id }
          rw [hsame]
          exact hupserted
        · exact hrows old hold
    · split
      · exact ⟨hrows, hindex⟩
      · refine ⟨fun row hrow => ?_, hput hindex ⟨link_accountId _ _, link_outputKey _ _,
          hkeeps.create n hn _⟩⟩
        rcases Notes.mem_insertNote.mp hrow with hold | rfl
        · exact hrows row hold
        · exact hkeeps.create n hn _

theorem persisted_keeps {db : WalletDb} (h : ∀ row ∈ db.notes.rows, P row) {input : PersistInput}
    (hkeeps : input.Keeps P accountId (input.unlinkedSpends accountId db)) :
    ∀ row ∈ (input.persisted accountId db).notes.rows, P row := by
  have hloop : ∀ (todo : List DecryptedNote) (state : PersistState),
      (∀ n ∈ todo, n ∈ input.notes) → state.Keeps P accountId →
      (todo.foldl (input.persistNote accountId (input.unlinkedSpends accountId db))
        state).Keeps P accountId := by
    intro todo
    induction todo with
    | nil => exact fun _ _ hstate => hstate
    | cons n rest ih =>
      intro state htodo hstate
      obtain ⟨hn, hrest⟩ := List.forall_mem_cons.mp htodo
      exact ih _ hrest (hstate.persistNote hkeeps hn)
  obtain ⟨hnotes, hfolded⟩ := prepareNoteUpserts_keeps h input.candidateOutputKeys hkeeps.fold
  refine (hloop _ _ (fun _ hn => hn) ⟨hnotes, fun key row hlookup => ?_⟩).rows
  rcases BulkMap.mem_of_lookup_insertAll hlookup with hmem | hempty
  · obtain ⟨found, hfound, heq⟩ := List.mem_map.mp hmem
    obtain ⟨rfl, rfl⟩ := Prod.mk.inj heq
    obtain ⟨haccount, hrow⟩ := hfolded found hfound
    exact ⟨haccount, rfl, hrow⟩
  · cases hempty

/-- **What holds of every row is kept by a batch of notes** whose folds, updates and new rows
keep it. -/
theorem persistNotes_keeps {engine : SyncEngine} (h : ∀ row ∈ engine.db.notes.rows, P row)
    {input : PersistInput} (hkeeps : input.Keeps P engine.accountId
      (input.unlinkedSpends engine.accountId engine.db)) :
    ∀ row ∈ (engine.persistNotes input).db.notes.rows, P row := by
  unfold SyncEngine.persistNotes
  split
  · exact h
  · rename_i hempty
    dsimp only
    unfold PersistInput.persistNotesWithDb
    rw [if_neg hempty]
    dsimp only
    have hstored := persisted_keeps h hkeeps
    unfold settle
    split
    · rename_i saved hsaved
      rw [saveSyncState_eq_ok hsaved]
      exact hstored
    · exact hstored

end

end StashiWallet
