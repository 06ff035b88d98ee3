import StashiWallet.PersistNotes

/-!
# What the nullifier cache knows

Spends are matched against a cache in memory that maps nullifiers to rows. `Covers` says
what the cache is for: every row of a class that still has a spend to be detected is found
under its nullifier. The class is a parameter, since the rows that are not marked spent and
the rows whose spend is not settled are both of interest.

A nullifier belongs to one output; the development takes this as the function `owner`, which
the rows and the decrypted notes agree with. Then two rows of the account with one nullifier
are the same row (`NotesOwned.eq_of_nullifier`), and loading the cache and persisting a batch
keep it covering (`ensureNullifierCache_spec`, `persistNotes_spec`).
-/

namespace StashiWallet

/-- The account has one row for each output, and a usable nullifier belongs to the output
that `owner` names. -/
structure NotesOwned (accountId : Int) (owner : Bytes → OutputKey) (notes : Notes) : Prop where
  one : notes.OneRowPerOutput accountId
  owned : ∀ row ∈ notes.ofAccount accountId, usableNullifier row.nullifier = true →
    owner row.nullifier = row.outputKey

/-- What trial decryption returns: nullifiers belong to the note's output, and an output has
one nullifier. -/
structure BatchOwned (owner : Bytes → OutputKey) (notes : List DecryptedNote) : Prop where
  owned : ∀ n ∈ notes, usableNullifier n.nullifier = true → owner n.nullifier = n.outputKey
  same : ∀ a ∈ notes, ∀ b ∈ notes, a.outputKey = b.outputKey → a.nullifier = b.nullifier

/-- A class of rows whose spends still have to be detected. -/
structure OpenClass (K : NoteRow → Prop) : Prop where
  not_settled : ∀ row, K row → row.settled = false
  congr : ∀ a b : NoteRow, a.spent = b.spent → a.spentTxid = b.spentTxid → K a → K b

/-- The cache finds every row of the class by its nullifier. -/
def Covers (K : NoteRow → Prop) (accountId : Int) (cache : AList (fun _ : Bytes => Nat))
    (notes : Notes) : Prop :=
  ∀ row ∈ notes.ofAccount accountId, K row → usableNullifier row.nullifier = true →
    cache.lookup row.nullifier = some row.id

/-- A row of the class that is marked spent comes back with the nullifier it has. -/
def KeepsNullifier (K : NoteRow → Prop) (accountId : Int) (notes : Notes)
    (batch : List DecryptedNote) : Prop :=
  ∀ row ∈ notes.ofAccount accountId, K row → row.spent = true →
    ∀ n ∈ batch, n.outputKey = row.outputKey → n.nullifier = row.nullifier

theorem NotesOwned.eq_of_nullifier {accountId : Int} {owner : Bytes → OutputKey} {notes : Notes}
    (h : NotesOwned accountId owner notes) {a b : NoteRow} (ha : a ∈ notes.ofAccount accountId)
    (hb : b ∈ notes.ofAccount accountId) (husable : usableNullifier a.nullifier = true)
    (hnullifier : a.nullifier = b.nullifier) : a = b := by
  refine h.one a ha b hb ?_
  rw [← h.owned a ha husable, hnullifier, h.owned b hb (hnullifier ▸ husable)]

/-- A write that keeps notes what they are keeps the nullifiers owned, if it gives a row only
nullifiers of its own output. -/
theorem notesOwned_of_rowsFrom {R : NoteRow → NoteRow → Prop} {accountId : Int}
    {owner : Bytes → OutputKey} {before after : Notes}
    (hsame : ∀ row row', R row row' → SameNote row row')
    (hrows : AutoTable.RowsFrom R before after) (hnotes : NotesOwned accountId owner before)
    (howned : ∀ row ∈ before.ofAccount accountId, ∀ row', R row row' →
      usableNullifier row'.nullifier = true →
        row'.nullifier = row.nullifier ∨ owner row'.nullifier = row.outputKey) :
    NotesOwned accountId owner after where
  one := Notes.oneRowPerOutput_of_rowsFrom hsame hrows hnotes.one
  owned := by
    intro row' hrow' husable
    obtain ⟨row, hrow, hR⟩ := Notes.ofAccount_of_rowsFrom hsame hrows hrow'
    rw [(hsame row row' hR).outputKey_eq]
    rcases howned row hrow row' hR husable with heq | howner
    · rw [heq] at husable ⊢
      exact hnotes.owned row hrow husable
    · exact howner

/-! ## The loop of `persist_notes_with_db` -/

section Loop

variable {K : NoteRow → Prop} {accountId : Int} {owner : Bytes → OutputKey}
  {input : PersistInput} {cache : AList (fun _ : Bytes => Nat)} {unlinked : UnlinkedSpendMap}
  {before : Notes}

/-- What holds after every iteration. -/
structure PersistInvariant (K : NoteRow → Prop) (accountId : Int) (owner : Bytes → OutputKey)
    (batch : List DecryptedNote) (cache : AList (fun _ : Bytes => Nat))
    (unlinked : UnlinkedSpendMap) (before : Notes) (state : PersistState) : Prop where
  notesOwned : NotesOwned accountId owner state.notes
  found : Indexed accountId batch state.existingByOutput state.notes
  covers : Covers K accountId (BulkMap.insertAll cache state.inserted) state.notes
  kept : ∀ row ∈ state.notes.ofAccount accountId, K row →
    usableNullifier row.nullifier = true → row.nullifier ∉ state.removeFromCache
  removed : ∀ nullifier ∈ state.removeFromCache, ∀ n ∈ batch, n.nullifier = nullifier →
    (unlinked.lookup (n.noteType, nullifier)).isSome = true
  keeps : KeepsNullifier K accountId state.notes batch
  origin : ∀ row ∈ state.notes.ofAccount accountId,
    row ∈ before.ofAccount accountId ∨ ∃ n ∈ batch, n.nullifier = row.nullifier

theorem link_settled {spend : Option Bytes} (h : spend.isSome = true) (note : NoteRecord) :
    (note.link spend).settled = true := by
  obtain ⟨txid, rfl⟩ := Option.isSome_iff_exists.mp h
  rfl

theorem linkedSpend_of_usable {n : DecryptedNote} (h : usableNullifier n.nullifier = true)
    (unlinked : UnlinkedSpendMap) :
    n.linkedSpend unlinked = unlinked.lookup (n.noteType, n.nullifier) := by
  simp [DecryptedNote.linkedSpend, h]

theorem usable_of_linkedSpend {n : DecryptedNote} {unlinked : UnlinkedSpendMap}
    (h : (n.linkedSpend unlinked).isSome = true) : usableNullifier n.nullifier = true := by
  by_contra hnot
  simp [DecryptedNote.linkedSpend, hnot] at h

variable {batch : List DecryptedNote} {state state' : PersistState} {n : DecryptedNote}
  {new : NoteRow}

/-- One iteration that puts the row `new` in the place of whatever row its output had. -/
structure Replaces (accountId : Int) (owner : Bytes → OutputKey) (unlinked : UnlinkedSpendMap)
    (n : DecryptedNote) (new : NoteRow) (state state' : PersistState) : Prop
    extends PutsRow accountId n.outputKey new state.notes state'.notes where
  nullifier_eq : new.nullifier = n.nullifier
  existing : state'.existingByOutput = state.existingByOutput.insert n.outputKey new
  inserted : state'.inserted = state.inserted ∨
    state'.inserted = state.inserted ++ [(n.nullifier, new.id)]
  removed : ∀ nullifier ∈ state'.removeFromCache,
    nullifier ∈ state.removeFromCache ∨
    (usableNullifier nullifier = true ∧ nullifier ≠ n.nullifier ∧ owner nullifier = n.outputKey) ∨
    (usableNullifier nullifier = true ∧ nullifier = n.nullifier ∧
      (unlinked.lookup (n.noteType, n.nullifier)).isSome = true)

theorem Replaces.notesOwned (h : Replaces accountId owner unlinked n new state state')
    (hbatch : BatchOwned owner batch) (hn : n ∈ batch)
    (hstate : NotesOwned accountId owner state.notes) :
    NotesOwned accountId owner state'.notes where
  one := h.oneRowPerOutput hstate.one
  owned := by
    intro row hrow husable
    rcases (h.mem_ofAccount row).mp hrow with rfl | ⟨hrow, -⟩
    · rw [h.nullifier_eq] at husable ⊢
      rw [hbatch.owned n hn husable, h.outputKey_eq]
    · exact hstate.owned row hrow husable

/-- A row of another output does not have the note's nullifier. -/
theorem nullifier_ne_of_outputKey_ne {notes : Notes} (hbatch : BatchOwned owner batch)
    (hn : n ∈ batch) (hnotes : NotesOwned accountId owner notes) {row : NoteRow}
    (hrow : row ∈ notes.ofAccount accountId) (husable : usableNullifier row.nullifier = true)
    (hkey : row.outputKey ≠ n.outputKey) : row.nullifier ≠ n.nullifier := by
  intro heq
  have howner := hnotes.owned row hrow husable
  rw [heq] at howner husable
  exact hkey (howner.symm.trans (hbatch.owned n hn husable))

variable (hinv : PersistInvariant K accountId owner batch cache unlinked before state)

include hinv in
/-- **One iteration keeps the invariant.** -/
theorem PersistInvariant.replace (hbatch : BatchOwned owner batch) (hn : n ∈ batch)
    (h : Replaces accountId owner unlinked n new state state')
    (hnew : K new → usableNullifier n.nullifier = true →
      unlinked.lookup (n.noteType, n.nullifier) = none ∧
        (BulkMap.insertAll cache state'.inserted).lookup n.nullifier = some new.id) :
    PersistInvariant K accountId owner batch cache unlinked before state' where
  notesOwned := h.notesOwned hbatch hn hinv.notesOwned
  found := by
    rw [h.existing]
    exact hinv.found.put h.toPutsRow
  covers := by
    intro row hrow hK husable
    rcases (h.mem_ofAccount row).mp hrow with rfl | ⟨hold, hkey⟩
    · rw [h.nullifier_eq] at husable ⊢
      exact (hnew hK husable).2
    · have hne := nullifier_ne_of_outputKey_ne hbatch hn hinv.notesOwned hold husable hkey
      rcases h.inserted with heq | heq
      · rw [heq]
        exact hinv.covers row hold hK husable
      · rw [heq, BulkMap.insertAll_concat, AList.lookup_insert_ne hne]
        exact hinv.covers row hold hK husable
  kept := by
    intro row hrow hK husable hremoved
    rcases (h.mem_ofAccount row).mp hrow with rfl | ⟨hold, hkey⟩
    · rw [h.nullifier_eq] at husable hremoved
      have hunlinked := (hnew hK husable).1
      rcases h.removed _ hremoved with hmem | ⟨-, hne, -⟩ | ⟨-, -, hsome⟩
      · have := hinv.removed _ hmem n hn rfl
        simp [hunlinked] at this
      · exact hne rfl
      · simp [hunlinked] at hsome
    · rcases h.removed _ hremoved with hmem | ⟨-, -, howner⟩ | ⟨-, heq, -⟩
      · exact hinv.kept row hold hK husable hmem
      · exact hkey ((hinv.notesOwned.owned row hold husable).symm.trans howner)
      · exact nullifier_ne_of_outputKey_ne hbatch hn hinv.notesOwned hold husable hkey heq
  removed := by
    intro nullifier hmem m hm hnullifier
    rcases h.removed _ hmem with hold | ⟨husable, hne, howner⟩ | ⟨husable, rfl, hsome⟩
    · exact hinv.removed _ hold m hm hnullifier
    · -- the nullifier was replaced, so no note of the batch carries it
      have hkey : m.outputKey = n.outputKey := by
        rw [← hnullifier] at howner husable
        exact (hbatch.owned m hm husable).symm.trans howner
      exact absurd (hnullifier.symm.trans (hbatch.same m hm n hn hkey)) hne
    · have hkey : m.outputKey = n.outputKey := by
        rw [← hbatch.owned n hn husable, ← hnullifier,
          hbatch.owned m hm (hnullifier.symm ▸ husable)]
      have htype : m.noteType = n.noteType := congrArg (fun key => key.2.2) hkey
      rw [htype]
      exact hsome
  keeps := by
    intro row hrow hK hspent m hm hkey
    rcases (h.mem_ofAccount row).mp hrow with rfl | ⟨hold, -⟩
    · rw [h.nullifier_eq]
      exact hbatch.same m hm n hn (hkey.trans h.outputKey_eq)
    · exact hinv.keeps row hold hK hspent m hm hkey
  origin := by
    intro row hrow
    rcases (h.mem_ofAccount row).mp hrow with rfl | ⟨hold, -⟩
    · exact .inr ⟨n, hn, h.nullifier_eq.symm⟩
    · exact hinv.origin row hold

theorem mem_staleNullifiers {existing updated : NoteRow} {nullifier : Bytes}
    (h : nullifier ∈ staleNullifiers unlinked n existing updated) :
    (usableNullifier nullifier = true ∧ nullifier ≠ n.nullifier ∧
        nullifier = existing.nullifier) ∨
      (nullifier = n.nullifier ∧ (n.linkedSpend unlinked).isSome = true) := by
  rcases List.mem_append.mp h with h | h
  · split at h
    · rename_i hcond
      obtain rfl := List.mem_singleton.mp h
      exact .inl ⟨hcond.2, hcond.1, rfl⟩
    · cases h
  · split at h
    · rename_i hcond
      exact .inr ⟨List.mem_singleton.mp h, hcond.1⟩
    · cases h

/-- A row of the class was stored without a recorded spend. -/
theorem linkedSpend_eq_none {note : NoteRecord} {id : Nat} (hK : OpenClass K)
    (hclass : K { note.link (n.linkedSpend unlinked) with id := id }) :
    n.linkedSpend unlinked = none := by
  by_contra hlinked
  have hsettled := link_settled (Option.isSome_iff_ne_none.mpr hlinked) note
  have hopen := hK.not_settled _ hclass
  rw [show NoteRecord.settled _ = true from hsettled] at hopen
  cases hopen

theorem replaces_update (hnotes : NotesOwned accountId owner state.notes) {existing : NoteRow}
    (hexisting : existing ∈ state.notes.ofAccount accountId)
    (hkey : existing.outputKey = n.outputKey) (addressId : Option Int) :
    Replaces accountId owner unlinked n (existing.upsert unlinked n addressId) state
      (state.update unlinked n addressId existing) where
  toPutsRow := putsRow_update addressId (hnotes.one.only hexisting) hexisting hkey
  nullifier_eq := link_nullifier _ _
  existing := rfl
  inserted := by
    simp only [PersistState.update]
    split
    · exact .inr rfl
    · exact .inl rfl
  removed := by
    intro nullifier hmem
    rcases List.mem_append.mp hmem with hold | hstale
    · exact .inl hold
    · rcases mem_staleNullifiers hstale with ⟨husable, hne, rfl⟩ | ⟨rfl, hlinked⟩
      · exact .inr (.inl ⟨husable, hne, (hnotes.owned existing hexisting husable).trans hkey⟩)
      · have husable := usable_of_linkedSpend hlinked
        rw [linkedSpend_of_usable husable] at hlinked
        exact .inr (.inr ⟨husable, rfl, hlinked⟩)

include hinv in
theorem PersistInvariant.update (hK : OpenClass K) (hbatch : BatchOwned owner batch)
    (hn : n ∈ batch) {existing : NoteRow} (hexisting : existing ∈ state.notes.ofAccount accountId)
    (hkey : existing.outputKey = n.outputKey) (addressId : Option Int) :
    PersistInvariant K accountId owner batch cache unlinked before
      (state.update unlinked n addressId existing) := by
  refine hinv.replace hbatch hn (replaces_update hinv.notesOwned hexisting hkey addressId) ?_
  intro hclass husable
  have hunlinked : n.linkedSpend unlinked = none := linkedSpend_eq_none hK hclass
  refine ⟨(linkedSpend_of_usable husable unlinked).symm.trans hunlinked, ?_⟩
  -- without a recorded spend the upsert keeps the spend columns
  have hspent : (existing.upsert unlinked n addressId).spent = existing.spent := by
    simp [NoteRow.upsert, hunlinked, NoteRecord.link, NoteRow.refresh]
  have htxid : (existing.upsert unlinked n addressId).spentTxid = existing.spentTxid := by
    simp [NoteRow.upsert, hunlinked, NoteRecord.link, NoteRow.refresh]
  cases hexistingSpent : existing.spent with
  | false =>
    have hinserted : (state.update unlinked n addressId existing).inserted
        = state.inserted ++ [(n.nullifier, existing.id)] := by
      simp only [PersistState.update]
      rw [if_pos ⟨husable, hunlinked, hspent.trans hexistingSpent⟩]
    rw [hinserted, BulkMap.insertAll_concat, AList.lookup_insert]
    rfl
  | true =>
    have hinserted : (state.update unlinked n addressId existing).inserted = state.inserted := by
      simp only [PersistState.update]
      rw [if_neg]
      rintro ⟨-, -, hunspent⟩
      rw [hspent, hexistingSpent] at hunspent
      cases hunspent
    have hexistingClass : K existing := hK.congr _ _ hspent htxid hclass
    have hnullifier := hinv.keeps existing hexisting hexistingClass hexistingSpent n hn hkey.symm
    rw [hinserted, hnullifier]
    exact hinv.covers existing hexisting hexistingClass (hnullifier ▸ husable)

theorem replaces_create {note : NoteRecord} (haccount : note.accountId = accountId)
    (hkey : note.outputKey = n.outputKey) (hnullifier : note.nullifier = n.nullifier)
    (hspent : note.spent = false)
    (hnone : ∀ row ∈ state.notes.ofAccount accountId, row.outputKey ≠ n.outputKey) :
    Replaces accountId owner unlinked n
      { note.link (n.linkedSpend unlinked) with id := state.notes.nextId } state
      (state.create unlinked n note) where
  toPutsRow := putsRow_create haccount hkey hnone
  nullifier_eq := (link_nullifier _ _).trans hnullifier
  existing := rfl
  inserted := by
    simp only [PersistState.create]
    split
    · exact .inr rfl
    · exact .inl rfl
  removed := by
    intro nullifier hmem
    rcases List.mem_append.mp hmem with hold | hnew
    · exact .inl hold
    · split at hnew
      · rename_i hcond
        obtain rfl := List.mem_singleton.mp hnew
        refine .inr (.inr ⟨hcond.1, rfl, ?_⟩)
        -- a new row is spent only by a recorded spend
        rw [← linkedSpend_of_usable hcond.1 unlinked]
        by_contra hunlinked
        rw [Bool.not_eq_true, Option.isSome_eq_false_iff, Option.isNone_iff_eq_none] at hunlinked
        have hstored := hcond.2
        simp [hunlinked, NoteRecord.link, hspent] at hstored
      · cases hnew

include hinv in
theorem PersistInvariant.create (hK : OpenClass K) (hbatch : BatchOwned owner batch)
    (hn : n ∈ batch) {note : NoteRecord} (haccount : note.accountId = accountId)
    (hkey : note.outputKey = n.outputKey) (hnullifier : note.nullifier = n.nullifier)
    (hspent : note.spent = false)
    (hnone : ∀ row ∈ state.notes.ofAccount accountId, row.outputKey ≠ n.outputKey) :
    PersistInvariant K accountId owner batch cache unlinked before
      (state.create unlinked n note) := by
  refine hinv.replace hbatch hn (replaces_create haccount hkey hnullifier hspent hnone) ?_
  intro hclass husable
  have hunlinked : n.linkedSpend unlinked = none := linkedSpend_eq_none hK hclass
  refine ⟨(linkedSpend_of_usable husable unlinked).symm.trans hunlinked, ?_⟩
  have hinserted : (state.create unlinked n note).inserted
      = state.inserted ++ [(n.nullifier, state.notes.nextId)] := by
    simp only [PersistState.create]
    rw [if_pos ⟨husable, by simp [hunlinked, NoteRecord.link, hspent]⟩]
    rfl
  rw [hinserted, BulkMap.insertAll_concat, AList.lookup_insert]

include hinv in
theorem PersistInvariant.upsertMeta (input : PersistInput) (n : DecryptedNote) :
    PersistInvariant K accountId owner batch cache unlinked before
      (state.upsertMeta input n) := by
  unfold PersistState.upsertMeta
  dsimp only
  split
  · exact hinv
  · exact ⟨hinv.notesOwned, hinv.found, hinv.covers, hinv.kept, hinv.removed, hinv.keeps,
      hinv.origin⟩

/-- The loop body keeps the invariant, whichever branch it takes. -/
theorem PersistInvariant.persistNote
    (hinv : PersistInvariant K accountId owner input.notes cache unlinked before state)
    (hK : OpenClass K) (hbatch : BatchOwned owner input.notes) (hn : n ∈ input.notes) :
    PersistInvariant K accountId owner input.notes cache unlinked before
      (input.persistNote accountId unlinked state n) := by
  unfold PersistInput.persistNote
  split
  · exact hinv
  · rename_i htxid
    have htxid' : n.txid.isEmpty = false := Bool.eq_false_iff.mpr htxid
    have hmeta := hinv.upsertMeta input n
    have hfound := hmeta.found n hn htxid'
    dsimp only
    split
    · rename_i existing hexisting
      obtain ⟨hmem, hkey⟩ := (hfound existing).mp hexisting
      exact hmeta.update hK hbatch hn hmem hkey (input.addressId n)
    · rename_i hmissing
      split
      · exact hmeta
      · exact hmeta.create hK hbatch hn rfl rfl rfl rfl (hmeta.found.none hn htxid' hmissing)

theorem initial_invariant {db : WalletDb} (hnotes : NotesOwned accountId owner db.notes)
    (hcovers : Covers K accountId cache db.notes)
    (hkeeps : KeepsNullifier K accountId db.notes input.notes) (unlinked : UnlinkedSpendMap) :
    PersistInvariant K accountId owner input.notes cache unlinked db.notes
      (input.initial accountId db) := by
  obtain ⟨hinitial, hindexed⟩ := @PersistInput.initial_indexed input accountId db hnotes.one
  refine ⟨?_, ?_, ?_, ?_, nofun, ?_, ?_⟩
  · rw [hinitial]
    exact hnotes
  · rw [hinitial]
    exact hindexed
  · rw [hinitial]
    exact hcovers
  · intro row _ _ _ hmem
    cases hmem
  · rw [hinitial]
    exact hkeeps
  · rw [hinitial]
    exact fun row hrow => .inl hrow

/-- **The loop keeps the invariant.** -/
theorem persisted_invariant {db : WalletDb} (hK : OpenClass K)
    (hbatch : BatchOwned owner input.notes) (hnotes : NotesOwned accountId owner db.notes)
    (hcovers : Covers K accountId cache db.notes)
    (hkeeps : KeepsNullifier K accountId db.notes input.notes) :
    PersistInvariant K accountId owner input.notes cache (input.unlinkedSpends accountId db)
      db.notes (input.persisted accountId db) := by
  -- induction on the notes still to do; the invariant speaks about the whole batch
  have hloop : ∀ (todo : List DecryptedNote), (∀ n ∈ todo, n ∈ input.notes) →
      ∀ state, PersistInvariant K accountId owner input.notes cache
        (input.unlinkedSpends accountId db) db.notes state →
      PersistInvariant K accountId owner input.notes cache (input.unlinkedSpends accountId db)
        db.notes
        (todo.foldl (input.persistNote accountId (input.unlinkedSpends accountId db)) state) := by
    intro todo
    induction todo with
    | nil => exact fun _ state hstate => hstate
    | cons n rest ih =>
      intro htodo state hstate
      refine ih (fun m hm => htodo m (by simp [hm])) _ ?_
      exact hstate.persistNote hK hbatch (htodo n (by simp))
  exact hloop input.notes (fun _ hn => hn) _ (initial_invariant hnotes hcovers hkeeps _)

end Loop

theorem persistNotesWithDb_notes (input : PersistInput) (accountId : Int) (db : WalletDb)
    (h : input.notes.isEmpty = false) :
    (input.persistNotesWithDb accountId db).2.notes = (input.persisted accountId db).notes := by
  unfold PersistInput.persistNotesWithDb
  rw [if_neg (by simp [h])]
  dsimp only
  unfold WalletDb.saveSyncState
  simp only [heightToSqlI64, toI64Or]
  split <;> rfl

/-- **What persisting a batch does to rows and cache.** -/
theorem SyncEngine.persistNotes_spec {K : NoteRow → Prop} {owner : Bytes → OutputKey}
    {input : PersistInput} {engine : SyncEngine} (hK : OpenClass K)
    (hbatch : BatchOwned owner input.notes)
    (hnotes : NotesOwned engine.accountId owner engine.db.notes)
    (hcovers : Covers K engine.accountId engine.nullifierCache engine.db.notes)
    (hkeeps : KeepsNullifier K engine.accountId engine.db.notes input.notes) :
    NotesOwned engine.accountId owner (engine.persistNotes input).db.notes ∧
      Covers K engine.accountId (engine.persistNotes input).nullifierCache
        (engine.persistNotes input).db.notes ∧
      ∀ row ∈ (engine.persistNotes input).db.notes.ofAccount engine.accountId,
        row ∈ engine.db.notes.ofAccount engine.accountId ∨
          ∃ n ∈ input.notes, n.nullifier = row.nullifier := by
  unfold SyncEngine.persistNotes
  split
  · exact ⟨hnotes, hcovers, fun row hrow => .inl hrow⟩
  · rename_i hempty
    have hinv := persisted_invariant hK hbatch hnotes hcovers hkeeps
    have hempty' : input.notes.isEmpty = false := Bool.eq_false_iff.mpr hempty
    dsimp only
    rw [persistNotesWithDb_notes input engine.accountId engine.db hempty']
    have hresult : (input.persistNotesWithDb engine.accountId engine.db).1
        = ⟨(input.persisted engine.accountId engine.db).inserted,
          (input.persisted engine.accountId engine.db).removeFromCache⟩ := by
      unfold PersistInput.persistNotesWithDb
      rw [if_neg hempty]
    rw [hresult]
    refine ⟨hinv.notesOwned, ?_, hinv.origin⟩
    intro row hrow hclass husable
    rw [BulkMap.lookup_eraseAll_of_notMem (hinv.kept row hrow hclass husable)]
    exact hinv.covers row hrow hclass husable

/-- The cache a run starts with covers every class of rows that are not settled, if it does
so where it counts as loaded. Loading it changes no table. -/
theorem SyncEngine.ensureNullifierCache_spec {K : NoteRow → Prop} {owner : Bytes → OutputKey}
    {engine : SyncEngine} (hK : OpenClass K)
    (hnotes : NotesOwned engine.accountId owner engine.db.notes)
    (hloaded : engine.nullifierCacheLoaded = true →
      Covers K engine.accountId engine.nullifierCache engine.db.notes) :
    engine.ensureNullifierCache.accountId = engine.accountId ∧
      engine.ensureNullifierCache.db = engine.db ∧
      Covers K engine.accountId engine.ensureNullifierCache.nullifierCache engine.db.notes := by
  unfold SyncEngine.ensureNullifierCache
  split
  · rename_i hflag
    exact ⟨rfl, rfl, hloaded hflag⟩
  · refine ⟨rfl, rfl, ?_⟩
    intro row hrow hclass husable
    have hloadedRow := Notes.mem_spendReconciliationNotes hnotes.one hrow
      (hK.not_settled row hclass)
    refine BulkMap.lookup_insertAll_of_mem
      (List.mem_map.mpr ⟨row, List.mem_filter.mpr ⟨hloadedRow, husable⟩, rfl⟩) ?_
    intro entry hentry hnullifier
    obtain ⟨other, hother, rfl⟩ := List.mem_map.mp hentry
    obtain ⟨hother, -⟩ := Notes.of_mem_spendReconciliationNotes (List.mem_of_mem_filter hother)
    rw [hnotes.eq_of_nullifier hrow hother husable hnullifier.symm]

end StashiWallet
