import StashiWallet.OutgoingExpiryRuns
import StashiWallet.UnlinkedSpendRuns
import StashiWallet.WitnessReadiness

/-!
# Outputs that are not offered again

The queries that a new transaction selects its notes with look at the rows of an account output by
output, and where one row of an output is spent they return no note of it. It is therefore enough
for an output that one of its rows is spent. The writes that follow the chain keep such a row:
folding duplicates keeps the spend of each, and an update never takes a spend back. Only a
truncation and the release of expired transactions do.
-/

namespace StashiWallet

/-- A row of the output is spent. -/
def Notes.HasSpent (accountId : Int) (key : OutputKey) (notes : Notes) : Prop :=
  ∃ row ∈ notes.rows, row.accountId = accountId ∧ row.outputKey = key ∧ row.spent = true

instance (accountId : Int) (key : OutputKey) (notes : Notes) :
    Decidable (notes.HasSpent accountId key) :=
  inferInstanceAs (Decidable (∃ row ∈ notes.rows, _))

/-- The queries for a new transaction return notes of other outputs only: each note is made of an
unspent row of the account with another output, and has a witness where the query adds one. -/
structure WalletDb.Withholds (accountId : Int) (key : OutputKey) (db : WalletDb) : Prop where
  filtered : ∀ (Path : Type) (parts : NoteParts) (keyIds addressIds : Option (List Int)),
    ∀ note ∈ @Notes.getUnspentSelectableNotesFiltered Path parts accountId keyIds addressIds
      db.notes,
      ∃ row ∈ db.notes.getUnspentNotes accountId, row.outputKey ≠ key ∧
        row.selectable parts = some note
  atAnchor : ∀ (Path : Type) (parts : NoteParts) (trees : ShardTrees Path)
    (tables : WitnessTables), tables.db = db → ∀ (anchorHeight : Nat)
    (keyIds addressIds : Option (List Int)) (notes : List (SelectableNote Path)),
    tables.getUnspentSelectableNotesAtAnchorFiltered parts trees accountId anchorHeight keyIds
      addressIds = .ok notes →
    ∀ note ∈ notes, ∃ row ∈ db.notes.getUnspentNotes accountId, row.outputKey ≠ key ∧
      row.selectable parts = some note.withoutWitness

section Queries

variable {accountId : Int} {key : OutputKey}

/-- An output with a spent row is not among the unspent notes. -/
theorem Notes.HasSpent.outputKey_ne {notes : Notes} (h : notes.HasSpent accountId key)
    {row : NoteRow} (hrow : row ∈ notes.getUnspentNotes accountId) : row.outputKey ≠ key := by
  intro hkey
  obtain ⟨spent, hmem, haccount, hspentKey, hspent⟩ := h
  have hunspent := (mem_latestUnspent.mp hrow).unspent spent hmem haccount
    (hspentKey.trans hkey.symm)
  rw [hspent] at hunspent
  cases hunspent

/-- A note of the filtered query is made of a row of the unspent notes. -/
theorem mem_selectableFiltered {Path : Type} {parts : NoteParts} {notes : Notes}
    {keyIds addressIds : Option (List Int)} {note : SelectableNote Path}
    (h : note ∈ notes.getUnspentSelectableNotesFiltered parts accountId keyIds addressIds) :
    ∃ row ∈ notes.getUnspentNotes accountId, row.selectable parts = some note := by
  obtain ⟨row, hrow, hselectable⟩ := List.mem_filterMap.mp h
  exact ⟨row, List.mem_of_mem_filter hrow, hselectable⟩

/-- A note of the query at an anchor is one of the filtered query, with a witness. -/
theorem mem_selectableAtAnchor {Path : Type} {parts : NoteParts} {trees : ShardTrees Path}
    {tables : WitnessTables} {anchorHeight : Nat} {keyIds addressIds : Option (List Int)}
    {notes : List (SelectableNote Path)} {note : SelectableNote Path}
    (h : tables.getUnspentSelectableNotesAtAnchorFiltered parts trees accountId anchorHeight keyIds
      addressIds = .ok notes) (hnote : note ∈ notes) :
    note.withoutWitness ∈
      tables.db.notes.getUnspentSelectableNotesFiltered parts accountId keyIds addressIds := by
  unfold WitnessTables.getUnspentSelectableNotesAtAnchorFiltered at h
  split at h
  · obtain rfl := Except.ok.inj h
    cases hnote
  · rename_i hanchor
    obtain ⟨anchor, hconverted, h⟩ := bind_eq_ok h
    obtain ⟨-, rfl⟩ := anchorToI64_eq_ok hconverted
    obtain ⟨birthday, hconverted', h⟩ := bind_eq_ok h
    rw [constructAnchorWitnesses_eq_ok (Nat.pos_of_ne_zero hanchor) h] at hnote
    obtain ⟨candidate, hcandidate, hhydrated⟩ := List.mem_filterMap.mp hnote
    have hin := List.mem_of_mem_filter (List.mem_of_mem_filter
      (List.mem_of_mem_filter hcandidate))
    obtain ⟨row, -, hselectable⟩ := mem_selectableFiltered hin
    rw [(hydrated_eq_some (selected_of_selectable hselectable).unwitnessed hhydrated).1]
    exact hin

/-- **An output with a spent row is not offered.** -/
theorem Notes.HasSpent.withholds {db : WalletDb} (h : db.notes.HasSpent accountId key) :
    db.Withholds accountId key where
  filtered := by
    intro Path parts keyIds addressIds note hnote
    obtain ⟨row, hrow, hselectable⟩ := mem_selectableFiltered hnote
    exact ⟨row, hrow, h.outputKey_ne hrow, hselectable⟩
  atAnchor := by
    rintro Path parts trees tables rfl anchorHeight keyIds addressIds notes hquery note hnote
    obtain ⟨row, hrow, hselectable⟩ := mem_selectableFiltered (mem_selectableAtAnchor hquery hnote)
    exact ⟨row, hrow, h.outputKey_ne hrow, hselectable⟩

end Queries

/-! ## What keeps a spent row -/

section Kept

variable {accountId : Int} {key : OutputKey}

/-- A table in which every row goes on as the same note, spent if it was, keeps a spent row. -/
theorem Notes.HasSpent.forward {before after : Notes} (h : before.HasSpent accountId key)
    (hrows : ∀ row ∈ before.rows, ∃ row' ∈ after.rows, SameNote row row' ∧
      (row.spent = true → row'.spent = true)) : after.HasSpent accountId key := by
  obtain ⟨row, hrow, haccount, hkey, hspent⟩ := h
  obtain ⟨row', hrow', hsame, hkept⟩ := hrows row hrow
  exact ⟨row', hrow', hsame.accountId_eq.trans haccount, hsame.outputKey_eq.trans hkey,
    hkept hspent⟩

theorem Notes.HasSpent.spendById {notes : Notes} (h : notes.HasSpent accountId key)
    (update : Nat × Bytes) : (notes.spendById update).HasSpent accountId key := by
  refine h.forward (fun row hrow => ⟨_, List.mem_map_of_mem hrow, ?_⟩)
  split
  · exact ⟨⟨rfl, rfl, rfl⟩, fun _ => rfl⟩
  · exact ⟨SameNote.refl row, id⟩

theorem Notes.HasSpent.spendByNullifier {notes : Notes} (h : notes.HasSpent accountId key)
    (account : Int) (spendMap : AList (fun _ : Bytes => Bytes)) :
    (notes.spendByNullifier account spendMap).HasSpent accountId key := by
  refine h.forward (fun row hrow => ⟨_, List.mem_map_of_mem hrow, ?_⟩)
  split
  · exact ⟨⟨rfl, rfl, rfl⟩, fun _ => rfl⟩
  · exact ⟨SameNote.refl row, id⟩

/-- A row whose nullifier is among the entries is spent afterwards. -/
theorem Notes.hasSpent_of_marked {notes : Notes} {entries : List (Bytes × Bytes)} {row : NoteRow}
    (hrow : row ∈ notes.rows) (haccount : row.accountId = accountId)
    (hlength : row.nullifier.length = 32) (hmarked : row.nullifier ∈ entries.map Prod.fst) :
    (notes.spendByNullifier accountId (BulkMap.insertAll ∅ entries)).HasSpent accountId
      row.outputKey := by
  have hfound : ((BulkMap.insertAll ∅ entries).lookup row.nullifier).isSome = true :=
    BulkMap.lookup_insertAll_isSome hmarked
  refine ⟨_, List.mem_map_of_mem hrow, ?_⟩
  rw [if_pos (by simp [haccount, hlength, hfound])]
  exact ⟨haccount, rfl, rfl⟩

/-! ## Persisting notes -/

/-- The loop finds the one row of every output of the batch. -/
structure PersistState.Finds (input : PersistInput) (account : Int) (state : PersistState) :
    Prop where
  indexed : Indexed account input.notes state.existingByOutput state.notes
  one : ∀ n ∈ input.notes, n.txid.isEmpty = false →
    ∀ a ∈ state.notes.ofAccount account, a.outputKey = n.outputKey →
    ∀ b ∈ state.notes.ofAccount account, b.outputKey = a.outputKey → b = a

section Persist

variable {input : PersistInput} {account : Int} {db : WalletDb} {state : PersistState}

/-- Folding keeps a spent row, and the loop starts with an index that finds its rows. -/
theorem PersistInput.initial_finds (input : PersistInput) (account : Int) (db : WalletDb) :
    (input.initial account db).Finds input account ∧
      (db.notes.HasSpent accountId key →
        (input.initial account db).notes.HasSpent accountId key) := by
  have hprepared := prepareNoteUpserts_spec account input.candidateOutputKeys db.notes
  obtain ⟨hindexed, hone⟩ := input.initial_index account db
  refine ⟨⟨hindexed, hone⟩, ?_⟩
  rintro ⟨row, hrow, haccount, hkey, hspent⟩
  by_cases hbatch : row.accountId = account ∧ row.outputKey ∈ input.candidateOutputKeys
  · obtain ⟨row', hrow', hkey'⟩ :=
      hprepared.covered row (Notes.mem_ofAccount.mpr ⟨hrow, hbatch.1⟩) hbatch.2
    obtain ⟨hafter, hafterAccount⟩ :=
      Notes.mem_ofAccount.mp ((hprepared.found row').mp hrow').1
    have hfolded := hprepared.folded row' hrow'
    rw [hkey'] at hfolded
    refine ⟨row', hafter, ?_, hkey'.trans hkey, ?_⟩
    · rw [hafterAccount, ← hbatch.1, haccount]
    · exact hfolded.spent row (Notes.mem_rowsOf.mpr ⟨hrow, hbatch.1, rfl⟩) hspent
  · exact ⟨row, (hprepared.others row hbatch).mpr hrow, haccount, hkey, hspent⟩

/-- One row is put for an output of the batch. -/
theorem PersistState.Finds.put (h : state.Finds input account) {n : DecryptedNote}
    {after : PersistState} {new : NoteRow}
    (hput : PutsRow account n.outputKey new state.notes after.notes)
    (hindex : after.existingByOutput = state.existingByOutput.insert n.outputKey new) :
    after.Finds input account where
  indexed := by
    rw [hindex]
    exact h.indexed.put hput
  one m hm hmtxid := hput.one (h.one m hm hmtxid)

/-- The step lemma of the loop. -/
theorem PersistState.Finds.persistNote (h : state.Finds input account) {n : DecryptedNote}
    (hn : n ∈ input.notes) (unlinked : UnlinkedSpendMap) :
    (input.persistNote account unlinked state n).Finds input account ∧
      (state.notes.HasSpent accountId key →
        (input.persistNote account unlinked state n).notes.HasSpent accountId key) := by
  obtain ⟨hmetaNotes, hmetaIndex⟩ := upsertMeta_same input n state
  have hmeta : (state.upsertMeta input n).Finds input account := by
    constructor
    · rw [hmetaNotes, hmetaIndex]
      exact h.indexed
    · rw [hmetaNotes]
      exact h.one
  rw [← hmetaNotes]
  unfold PersistInput.persistNote
  split
  · rw [hmetaNotes]
    exact ⟨h, id⟩
  · rename_i htxid
    have htxid' : n.txid.isEmpty = false := Bool.eq_false_iff.mpr htxid
    have hfound := hmeta.indexed n hn htxid'
    dsimp only
    split
    · rename_i existing hexisting
      obtain ⟨hmem, hkey'⟩ := (hfound existing).mp hexisting
      have hput := @putsRow_update account unlinked n _ existing (input.addressId n)
        (hmeta.one n hn htxid' existing hmem hkey') hmem hkey'
      refine ⟨hmeta.put hput rfl, ?_⟩
      rintro ⟨row, hrow, haccount, hkey, hspent⟩
      by_cases houtput : row.accountId = account ∧ row.outputKey = n.outputKey
      · obtain rfl := hmeta.one n hn htxid' existing hmem hkey' row
          (Notes.mem_ofAccount.mpr ⟨hrow, houtput.1⟩) (houtput.2.trans hkey'.symm)
        obtain ⟨hsame, hkept⟩ := @upsert_keeps unlinked n row hkey' (input.addressId n)
        exact ⟨_, (hput.rows _).mpr (Or.inl rfl), hsame.accountId_eq.trans haccount,
          hsame.outputKey_eq.trans hkey, hkept hspent⟩
      · exact ⟨row, (hput.rows row).mpr (Or.inr ⟨hrow, houtput⟩), haccount, hkey, hspent⟩
    · rename_i hmissing
      split
      · exact ⟨hmeta, id⟩
      · have hnone := hmeta.indexed.none hn htxid' hmissing
        have hput := @putsRow_create account unlinked n (state.upsertMeta input n)
          (input.newRecord account n) rfl rfl hnone
        refine ⟨hmeta.put hput rfl, ?_⟩
        rintro ⟨row, hrow, hrest⟩
        refine ⟨row, (hput.rows row).mpr (Or.inr ⟨hrow, ?_⟩), hrest⟩
        exact fun houtput => hnone row (Notes.mem_ofAccount.mpr ⟨hrow, houtput.1⟩) houtput.2

theorem persisted_hasSpent (h : db.notes.HasSpent accountId key) :
    (input.persisted account db).notes.HasSpent accountId key := by
  have hloop : ∀ (todo : List DecryptedNote) (state : PersistState),
      (∀ n ∈ todo, n ∈ input.notes) → state.Finds input account →
      state.notes.HasSpent accountId key →
      (todo.foldl (input.persistNote account (input.unlinkedSpends account db))
        state).notes.HasSpent accountId key := by
    intro todo
    induction todo with
    | nil => exact fun _ _ _ hspent => hspent
    | cons n rest ih =>
      intro state htodo hfinds hspent
      obtain ⟨hn, hrest⟩ := List.forall_mem_cons.mp htodo
      obtain ⟨hfinds', hspent'⟩ := @PersistState.Finds.persistNote accountId key input account state
        hfinds n hn (input.unlinkedSpends account db)
      exact ih _ hrest hfinds' (hspent' hspent)
  obtain ⟨hfinds, hkept⟩ := @PersistInput.initial_finds accountId key input account db
  exact hloop _ _ (fun _ hn => hn) hfinds (hkept h)

end Persist

/-- **A batch of notes keeps a spent row.** -/
theorem persistNotes_hasSpent {engine : SyncEngine} (h : engine.db.notes.HasSpent accountId key)
    (input : PersistInput) : (engine.persistNotes input).db.notes.HasSpent accountId key := by
  unfold SyncEngine.persistNotes
  split
  · exact h
  · rename_i hempty
    dsimp only
    unfold PersistInput.persistNotesWithDb
    rw [if_neg hempty]
    dsimp only
    unfold settle
    split
    · rename_i saved hsaved
      rw [saveSyncState_eq_ok hsaved]
      exact persisted_hasSpent h
    · exact persisted_hasSpent h

/-! ## Applying spends -/

theorem updateNoteById_ids (note : NoteRow) (db : WalletDb) :
    (db.updateNoteById note).notes.rows.map (·.id) = db.notes.rows.map (·.id) := by
  unfold WalletDb.updateNoteById Notes.updateNoteById
  rw [AutoTable.updateWhere_ids]

/-- Deriving nullifiers again keeps a spent row. -/
theorem rederive_hasSpent {keys : SpendKeys} {account : Int}
    {entries : List (NoteType × Bytes × Bytes)} {db : WalletDb}
    (h : db.notes.HasSpent accountId key) :
    (keys.rederiveUnmatchedSpends account entries db).2.notes.HasSpent accountId key := by
  have hrows := (rederiveUnmatchedSpends_spec keys account entries db).1
  have hids := @rederiveUnmatchedSpends_frame _ (fun db : WalletDb => db.notes.rows.map (·.id))
    updateNoteById_ids keys account entries db
  refine h.forward (fun row hrow => ?_)
  obtain ⟨row', hrow', hmove⟩ := hrows.forward hids (fun _ _ hmove => hmove.id_eq) row hrow
  exact ⟨row', hrow', hmove.toSameNote, fun hspent => hmove.spent_eq.trans hspent⟩

/-- **A batch of spends keeps a spent row.** -/
theorem applySpends_hasSpent {engine : SyncEngine} (h : engine.db.notes.HasSpent accountId key)
    (input : SpendInput) : (engine.applySpends input).db.notes.HasSpent accountId key := by
  have hkept : ∀ (entries : List (NoteType × Bytes × Bytes)) (db : WalletDb),
      db.notes.HasSpent accountId key →
      (input.keepUnlinked engine.accountId entries db).notes.HasSpent accountId key := by
    intro entries db hspent
    rw [keepUnlinked_notes]
    exact hspent
  have hupdates : ∀ (updates : List (Nat × Bytes)) (notes : Notes),
      notes.HasSpent accountId key → (updates.foldl Notes.spendById notes).HasSpent accountId key := by
    intro updates
    induction updates with
    | nil => exact fun _ hspent => hspent
    | cons update rest ih => exact fun notes hspent => ih _ (hspent.spendById update)
  unfold SyncEngine.applySpends
  split
  · exact h
  · dsimp only
    split
    · exact h
    · split
      · exact hkept _ _ (rederive_hasSpent h)
      · exact (hupdates _ _ (hkept _ _ (rederive_hasSpent h))).spendByNullifier _ _

end Kept

end StashiWallet
