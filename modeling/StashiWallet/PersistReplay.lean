import StashiWallet.Runs
import StashiWallet.NullifierCache

/-!
# Persisting a batch again

No column of `notes` is unique: the identity of an output is encrypted, so that one output
has one row is the work of `persist_notes_with_db` alone. Each column of a row that is found
again is merged by one of two rules: the last note that has a value for the column decides,
or the value that was there first stays. A batch merged in by such rules a second time
changes nothing (`mergedWith_idem`), which is why a batch can be replayed at any time.
-/

namespace StashiWallet

/-! ## The notes of one output merged into a row -/

/-- The value the last note has for a column, for columns in which the last one decides. -/
def latest {α : Type} (f : DecryptedNote → Option α) (notes : List DecryptedNote) : Option α :=
  notes.reverse.findSome? f

/-- The row after all notes of its output were merged in, column by column. -/
def NoteRow.mergedWith (addressId : DecryptedNote → Option Int) (notes : List DecryptedNote)
    (row : NoteRow) : NoteRow :=
  { row with
    noteType := (latest (fun n => some n.noteType) notes).getD row.noteType
    value := (latest (fun n => some (asI64 n.value)) notes).getD row.value
    nullifier := (latest (fun n => some n.nullifier) notes).getD row.nullifier
    commitment := (latest (fun n => some n.commitment) notes).getD row.commitment
    memo := row.memo.or (notes.findSome? (·.memoBytes))
    height := (latest (fun n => if n.height > 0 then some (asI64 n.height) else none)
      notes).getD row.height
    addressId := row.addressId.or (notes.findSome? addressId)
    note := (latest (fun n => if n.noteBytes.isEmpty then none else some n.noteBytes)
      notes).or row.note
    position := (latest (fun n => n.position.map asI64) notes).or row.position
    keyId := (latest (·.keyId) notes).or row.keyId
    diversifier := (latest (fun n => if n.diversifier.isEmpty then none
      else some n.diversifier) notes).or row.diversifier }

section Merge

variable {α : Type} {f : DecryptedNote → Option α} {addressId : DecryptedNote → Option Int}

@[simp]
theorem latest_nil : latest f [] = none := rfl

@[simp]
theorem latest_concat (notes : List DecryptedNote) (n : DecryptedNote) :
    latest f (notes ++ [n]) = (f n).or (latest f notes) := by
  unfold latest
  rw [List.reverse_append, List.reverse_singleton, List.singleton_append, List.findSome?_cons]
  cases f n <;> rfl

@[simp]
theorem mergedWith_nil (row : NoteRow) : row.mergedWith addressId [] = row := by
  simp [NoteRow.mergedWith]

/-- One more note is one more refresh. -/
theorem mergedWith_concat (notes : List DecryptedNote) (n : DecryptedNote) (row : NoteRow) :
    row.mergedWith addressId (notes ++ [n])
      = (row.mergedWith addressId notes).refresh n (addressId n) := by
  have hdecides : ∀ (β : Type) (a : β) (other : Option β) (old : β),
      ((some a).or other).getD old = a := fun _ _ _ _ => rfl
  have hheight : ∀ (a : Int) (other : Option Int) (old : Int),
      ((if n.height > 0 then some a else none).or other).getD old
        = if n.height > 0 then a else other.getD old := by
    intro a other old
    split <;> rfl
  have hblob : ∀ (blob : Bytes) (other old : Option Bytes),
      ((if blob.isEmpty = true then none else some blob).or other).or old
        = if blob.isEmpty = true then other.or old else some blob := by
    intro blob other old
    split <;> rfl
  simp only [NoteRow.mergedWith, NoteRow.refresh, latest_concat, hdecides, hheight, hblob]
  simp only [List.findSome?_append, List.findSome?_singleton, Option.or_assoc]
  cases n.position <;> rfl

/-- **Merging the same notes in again changes nothing.** -/
theorem mergedWith_idem (notes : List DecryptedNote) (row : NoteRow) :
    (row.mergedWith addressId notes).mergedWith addressId notes
      = row.mergedWith addressId notes := by
  have hlast : ∀ {β : Type} (a : Option β) (old : β), a.getD (a.getD old) = a.getD old := by
    intro β a old
    cases a <;> rfl
  have hfirst : ∀ {β : Type} (a b : Option β), (b.or a).or a = b.or a := by
    intro β a b
    rw [Option.or_assoc, Option.or_self]
  have hor : ∀ {β : Type} (a b : Option β), a.or (a.or b) = a.or b := by
    intro β a b
    rw [← Option.or_assoc, Option.or_self]
  simp only [NoteRow.mergedWith, hlast, hfirst, hor]

end Merge

/-- What the first persistence of a batch decides, the second one decides again: whether a
note has an address row, and what the notes are. -/
structure PersistInput.Repeats (again input : PersistInput) : Prop where
  notes_eq : again.notes = input.notes
  address : ∀ n ∈ input.notes, (again.addressId n).isSome = true →
    (input.addressId n).isSome = true

/-- The notes of a batch that are merged into the row of an output. -/
def notesOf (key : OutputKey) (notes : List DecryptedNote) : List DecryptedNote :=
  notes.filter (fun n => !n.txid.isEmpty && n.outputKey == key)

theorem mem_notesOf {key : OutputKey} {notes : List DecryptedNote} {n : DecryptedNote} :
    n ∈ notesOf key notes ↔ n ∈ notes ∧ n.txid.isEmpty = false ∧ n.outputKey = key := by
  simp [notesOf]

theorem notesOf_concat_of_ne {key : OutputKey} {notes : List DecryptedNote} {n : DecryptedNote}
    (h : ¬(n.txid.isEmpty = false ∧ n.outputKey = key)) :
    notesOf key (notes ++ [n]) = notesOf key notes := by
  have hskip : (!n.txid.isEmpty && n.outputKey == key) = false := by
    simpa using h
  simp [notesOf, List.filter_append, hskip]

theorem notesOf_concat {key : OutputKey} {notes : List DecryptedNote} {n : DecryptedNote}
    (htxid : n.txid.isEmpty = false) (hkey : n.outputKey = key) :
    notesOf key (notes ++ [n]) = notesOf key notes ++ [n] := by
  have htake : (!n.txid.isEmpty && n.outputKey == key) = true := by
    simp [htxid, hkey]
  simp [notesOf, List.filter_append, htake]

/-- Applying a recorded spend and merging notes in are about different columns. -/
theorem mergedWith_link (addressId : DecryptedNote → Option Int) (notes : List DecryptedNote)
    (spend : Option Bytes) (row : NoteRow) :
    ({ row.toNoteRecord.link spend with id := row.id } : NoteRow).mergedWith addressId notes
      = { (row.mergedWith addressId notes).toNoteRecord.link spend with id := row.id } := by
  cases spend <;> rfl

/-- A new row has nothing to learn from the note it was built from. -/
theorem newRecord_mergedWith (input : PersistInput) (accountId : Int) (n : DecryptedNote)
    (id : Nat) :
    ({ input.newRecord accountId n with id := id } : NoteRow).mergedWith input.addressId [n]
      = { input.newRecord accountId n with id := id } := by
  rw [← List.nil_append [n], mergedWith_concat, mergedWith_nil]
  simp only [NoteRow.refresh, PersistInput.newRecord, PersistInput.positionOf, Option.or_self,
    ite_self, NoteRow.mk.injEq, NoteRecord.mk.injEq, true_and, and_true]
  refine ⟨?_, ?_, ?_⟩
  · split <;> rfl
  · split <;> rfl
  · cases n.position <;> rfl

/-! ## The first time -/

section First

variable {input : PersistInput} {accountId : Int} {unlinked : UnlinkedSpendMap}
  {done : List DecryptedNote} {state : PersistState} {n : DecryptedNote}

/-- What holds when the notes `done` of the batch have been persisted: the rows have taken in
all of them that are about their output. -/
structure MergeInvariant (input : PersistInput) (accountId : Int) (done : List DecryptedNote)
    (state : PersistState) : Prop where
  one : ∀ account, state.notes.OneRowPerOutput account
  indexed : Indexed accountId input.notes state.existingByOutput state.notes
  stored : ∀ n ∈ done, n.txid.isEmpty = false →
    ∃ row ∈ state.notes.ofAccount accountId, row.outputKey = n.outputKey
  merged : ∀ row ∈ state.notes.ofAccount accountId,
    row.mergedWith input.addressId (notesOf row.outputKey done) = row

variable (hinv : MergeInvariant input accountId done state)

include hinv in
theorem MergeInvariant.skip (htxid : n.txid.isEmpty = true) :
    MergeInvariant input accountId (done ++ [n]) state where
  one := hinv.one
  indexed := hinv.indexed
  stored := by
    intro m hm hmtxid
    rcases List.mem_append.mp hm with hm | hm
    · exact hinv.stored m hm hmtxid
    · obtain rfl := List.mem_singleton.mp hm
      rw [htxid] at hmtxid
      cases hmtxid
  merged := by
    intro row hrow
    rw [notesOf_concat_of_ne (by simp [htxid])]
    exact hinv.merged row hrow

include hinv in
theorem MergeInvariant.put (htxid : n.txid.isEmpty = false) {new : NoteRow} {state' : PersistState}
    (h : PutsRow accountId n.outputKey new state.notes state'.notes)
    (hindex : state'.existingByOutput = state.existingByOutput.insert n.outputKey new)
    (hnew : new.mergedWith input.addressId (notesOf n.outputKey done ++ [n]) = new) :
    MergeInvariant input accountId (done ++ [n]) state' where
  one account := h.oneRowPerOutput (hinv.one account)
  indexed := by
    rw [hindex]
    exact hinv.indexed.put h
  stored := by
    intro m hm hmtxid
    by_cases hkey : m.outputKey = n.outputKey
    · exact ⟨new, (h.mem_ofAccount new).mpr (.inl rfl), h.outputKey_eq.trans hkey.symm⟩
    · rcases List.mem_append.mp hm with hm | hm
      · obtain ⟨row, hrow, hrowKey⟩ := hinv.stored m hm hmtxid
        exact ⟨row, (h.mem_ofAccount row).mpr (.inr ⟨hrow, hrowKey ▸ hkey⟩), hrowKey⟩
      · exact absurd (congrArg DecryptedNote.outputKey (List.mem_singleton.mp hm)) hkey
  merged := by
    intro row hrow
    rcases (h.mem_ofAccount row).mp hrow with rfl | ⟨hold, hkey⟩
    · rw [h.outputKey_eq, notesOf_concat htxid rfl]
      exact hnew
    · rw [notesOf_concat_of_ne fun hboth => hkey hboth.2.symm]
      exact hinv.merged row hold

/-- A row that has taken in the earlier notes of its output takes in one more. -/
theorem upsert_mergedWith {existing : NoteRow} {notes : List DecryptedNote}
    {addressId : DecryptedNote → Option Int}
    (h : existing.mergedWith addressId notes = existing) :
    (existing.upsert unlinked n (addressId n)).mergedWith addressId (notes ++ [n])
      = existing.upsert unlinked n (addressId n) := by
  have hrefresh : existing.refresh n (addressId n)
      = existing.mergedWith addressId (notes ++ [n]) := by
    rw [mergedWith_concat, h]
  have hid : (existing.mergedWith addressId (notes ++ [n])).id = existing.id := rfl
  unfold NoteRow.upsert
  rw [hrefresh]
  have hlink := mergedWith_link addressId (notes ++ [n]) (n.linkedSpend unlinked)
    (existing.mergedWith addressId (notes ++ [n]))
  rw [mergedWith_idem, hid] at hlink
  exact hlink

include hinv in
theorem MergeInvariant.upsertMeta (n : DecryptedNote) :
    MergeInvariant input accountId done (state.upsertMeta input n) := by
  unfold PersistState.upsertMeta
  dsimp only
  split
  · exact hinv
  · exact ⟨hinv.one, hinv.indexed, hinv.stored, hinv.merged⟩

include hinv in
theorem MergeInvariant.persistNote (hn : n ∈ input.notes) (hstored : input.insertFails n = false)
    (unlinked : UnlinkedSpendMap) :
    MergeInvariant input accountId (done ++ [n])
      (input.persistNote accountId unlinked state n) := by
  unfold PersistInput.persistNote
  split
  · rename_i htxid
    exact hinv.skip htxid
  · rename_i htxid
    have htxid' : n.txid.isEmpty = false := Bool.eq_false_iff.mpr htxid
    have hmeta := hinv.upsertMeta n
    have hfound := hmeta.indexed n hn htxid'
    dsimp only
    split
    · rename_i existing hexisting
      obtain ⟨hmem, hkey⟩ := (hfound existing).mp hexisting
      refine hmeta.put htxid' (putsRow_update _ ((hmeta.one accountId).only hmem) hmem hkey) rfl
        (upsert_mergedWith ?_)
      rw [← hkey]
      exact hmeta.merged existing hmem
    · rename_i hmissing
      have hnone := hmeta.indexed.none hn htxid' hmissing
      -- no earlier note of the batch is about the output, or it would have a row
      have hfirst : notesOf n.outputKey done = [] := by
        refine List.eq_nil_iff_forall_not_mem.mpr fun m hm => ?_
        obtain ⟨hm, hmtxid, hmkey⟩ := mem_notesOf.mp hm
        obtain ⟨row, hrow, hrowKey⟩ := hmeta.stored m hm hmtxid
        exact hnone row hrow (hrowKey.trans hmkey)
      rw [if_neg (by simp [hstored])]
      refine hmeta.put htxid' (putsRow_create rfl rfl hnone) rfl ?_
      rw [hfirst, List.nil_append]
      have hnew := newRecord_mergedWith input accountId n (state.upsertMeta input n).notes.nextId
      have hlink := mergedWith_link input.addressId [n] (n.linkedSpend unlinked)
        { input.newRecord accountId n with id := (state.upsertMeta input n).notes.nextId }
      rw [hnew] at hlink
      exact hlink

/-- Every row is still there, and what was spent is spent. -/
def KeepsSpent (before after : Notes) : Prop :=
  ∀ row ∈ before.rows, ∃ row' ∈ after.rows,
    SameNote row row' ∧ (row.spent = true → row'.spent = true)

theorem KeepsSpent.refl (notes : Notes) : KeepsSpent notes notes :=
  fun row hrow => ⟨row, hrow, SameNote.refl row, id⟩

theorem KeepsSpent.trans {a b c : Notes} (h₁ : KeepsSpent a b) (h₂ : KeepsSpent b c) :
    KeepsSpent a c := by
  intro row hrow
  obtain ⟨row', hrow', hsame, hspent⟩ := h₁ row hrow
  obtain ⟨row'', hrow'', hsame', hspent'⟩ := h₂ row' hrow'
  exact ⟨row'', hrow'', hsame.trans hsame', fun h => hspent' (hspent h)⟩

theorem upsert_keeps {existing : NoteRow} (hkey : existing.outputKey = n.outputKey)
    (addressId : Option Int) :
    SameNote existing (existing.upsert unlinked n addressId) ∧
      (existing.spent = true → (existing.upsert unlinked n addressId).spent = true) := by
  refine ⟨⟨rfl, link_accountId _ _, (upsert_outputKey hkey addressId).trans hkey.symm⟩, ?_⟩
  intro hspent
  unfold NoteRow.upsert NoteRecord.link
  split
  · rfl
  · exact hspent

theorem keepsSpent_persistNote (hinv : MergeInvariant input accountId done state)
    (hn : n ∈ input.notes) :
    KeepsSpent state.notes (input.persistNote accountId unlinked state n).notes := by
  have hmeta := hinv.upsertMeta n
  have hnotes : (state.upsertMeta input n).notes = state.notes := by
    unfold PersistState.upsertMeta
    dsimp only
    split <;> rfl
  unfold PersistInput.persistNote
  split
  · exact KeepsSpent.refl _
  · rename_i htxid
    have htxid' : n.txid.isEmpty = false := Bool.eq_false_iff.mpr htxid
    rw [← hnotes]
    dsimp only
    split
    · rename_i existing hexisting
      obtain ⟨hmem, hkey⟩ := (hmeta.indexed n hn htxid' existing).mp hexisting
      have hput := @putsRow_update accountId unlinked n _ existing (input.addressId n)
        ((hmeta.one accountId).only hmem) hmem hkey
      intro row hrow
      by_cases hrowOutput : row.accountId = accountId ∧ row.outputKey = n.outputKey
      · obtain rfl := hmeta.one accountId row
          (Notes.mem_ofAccount.mpr ⟨hrow, hrowOutput.1⟩) existing hmem
          (hrowOutput.2.trans hkey.symm)
        exact ⟨_, (hput.rows _).mpr (.inl rfl), upsert_keeps hkey _⟩
      · exact ⟨row, (hput.rows row).mpr (.inr ⟨hrow, hrowOutput⟩), SameNote.refl row, id⟩
    · split
      · exact KeepsSpent.refl _
      · intro row hrow
        exact ⟨row, Notes.mem_insertNote.mpr (.inl hrow), SameNote.refl row, id⟩

theorem initial_merged (input : PersistInput) {db : WalletDb}
    (hone : ∀ account, db.notes.OneRowPerOutput account) :
    (input.initial accountId db).notes = db.notes ∧
      MergeInvariant input accountId [] (input.initial accountId db) := by
  obtain ⟨hnotes, hindexed⟩ := @PersistInput.initial_indexed input accountId db (hone accountId)
  refine ⟨hnotes, ?_, ?_, nofun, fun row _ => mergedWith_nil row⟩
  · rw [hnotes]
    exact hone
  · rw [hnotes]
    exact hindexed

/-- **What persisting a batch leaves.** One row for each output; every row has taken in the
notes of the batch that are about its output; no row is gone, and none is unspent again. -/
theorem persisted_merged {db : WalletDb} (hone : ∀ account, db.notes.OneRowPerOutput account)
    (hstored : ∀ n ∈ input.notes, input.insertFails n = false) :
    MergeInvariant input accountId input.notes (input.persisted accountId db) ∧
      KeepsSpent db.notes (input.persisted accountId db).notes := by
  -- induction on the notes still to do
  have hloop : ∀ (todo done : List DecryptedNote), (∀ n ∈ todo, n ∈ input.notes) →
      ∀ state, MergeInvariant input accountId done state →
      MergeInvariant input accountId (done ++ todo) (todo.foldl
          (input.persistNote accountId (input.unlinkedSpends accountId db)) state) ∧
        KeepsSpent state.notes (todo.foldl
          (input.persistNote accountId (input.unlinkedSpends accountId db)) state).notes := by
    intro todo
    induction todo with
    | nil =>
      intro done _ state hstate
      rw [List.append_nil]
      exact ⟨hstate, KeepsSpent.refl _⟩
    | cons n rest ih =>
      intro done htodo state hstate
      have hn : n ∈ input.notes := htodo n List.mem_cons_self
      have hstep := hstate.persistNote hn (hstored n hn) (input.unlinkedSpends accountId db)
      obtain ⟨hinv, hkeeps⟩ :=
        ih (done ++ [n]) (fun m hm => htodo m (List.mem_cons_of_mem n hm)) _ hstep
      rw [List.append_assoc, List.singleton_append] at hinv
      exact ⟨hinv, (keepsSpent_persistNote hstate hn).trans hkeeps⟩
  obtain ⟨hnotes, hinitial⟩ := @initial_merged accountId input db hone
  obtain ⟨hinv, hkeeps⟩ := hloop input.notes [] (fun _ hn => hn) _ hinitial
  rw [hnotes] at hkeeps
  exact ⟨hinv, hkeeps⟩

end First

/-! ## The second time -/

section Second

variable {input again : PersistInput} {accountId : Int}

/-- What a batch has consumed is not there to be consumed again. -/
theorem unlinkedSpends_consumed {db db' : WalletDb} (hnotes : again.notes = input.notes)
    (hspends : db'.unlinkedSpends = (consumeUnlinkedSpendsForNullifiers accountId
      input.candidateUnlinkedSpendKeys db.unlinkedSpends).2) :
    again.unlinkedSpends accountId db' = ∅ := by
  have hkeys : again.candidateUnlinkedSpendKeys = input.candidateUnlinkedSpendKeys := by
    unfold PersistInput.candidateUnlinkedSpendKeys
    rw [hnotes]
  unfold PersistInput.unlinkedSpends
  rw [hkeys, hspends]
  unfold consumeUnlinkedSpendsForNullifiers
  dsimp only
  rw [AutoTable.deleteWhere_rows, List.filter_filter]
  have hnone : ∀ (rows : List UnlinkedSpendRow) (p : UnlinkedSpendRow → Bool),
      rows.filter (fun row => p row && !p row) = [] := by
    intro rows p
    simp
  rw [hnone]
  rfl

/-- The row as the second run leaves it when the notes `done` have come round again. -/
def NoteRow.replayed (again : PersistInput) (accountId : Int) (done : List DecryptedNote)
    (row : NoteRow) : NoteRow :=
  if row.accountId = accountId then row.mergedWith again.addressId (notesOf row.outputKey done)
  else row

theorem mergedWith_outputKey (addressId : DecryptedNote → Option Int)
    (notes : List DecryptedNote) (row : NoteRow) :
    (row.mergedWith addressId (notesOf row.outputKey notes)).outputKey = row.outputKey := by
  have htype : (latest (fun n => some n.noteType) (notesOf row.outputKey notes)).getD
      row.noteType = row.noteType := by
    cases hlatest : latest (fun n => some n.noteType) (notesOf row.outputKey notes) with
    | none => rfl
    | some noteType =>
      obtain ⟨n, hn, hnoteType⟩ := List.exists_of_findSome?_eq_some hlatest
      obtain ⟨-, -, hkey⟩ := mem_notesOf.mp (List.mem_reverse.mp hn)
      rw [← Option.some.inj hnoteType]
      exact congrArg (fun key => key.2.2) hkey
  unfold NoteRecord.outputKey
  simp only [NoteRow.mergedWith]
  exact congrArg (fun noteType => (row.txid, row.outputIndex, noteType)) htype

theorem replayed_sameNote (done : List DecryptedNote) (row : NoteRow) :
    SameNote row (row.replayed again accountId done) := by
  unfold NoteRow.replayed
  split
  · exact ⟨rfl, rfl, mergedWith_outputKey _ _ _⟩
  · exact SameNote.refl row

/-- A row that has taken in the notes once takes nothing new from them. -/
theorem replayed_eq_self (hrepeats : again.Repeats input) {row : NoteRow}
    (hmerged : row.accountId = accountId →
      row.mergedWith input.addressId (notesOf row.outputKey input.notes) = row) :
    row.replayed again accountId input.notes = row := by
  unfold NoteRow.replayed
  split
  · rename_i haccount
    have hinput := hmerged haccount
    have hagain : row.mergedWith again.addressId (notesOf row.outputKey input.notes)
        = { row.mergedWith input.addressId (notesOf row.outputKey input.notes) with
          addressId := row.addressId.or
            ((notesOf row.outputKey input.notes).findSome? again.addressId) } := rfl
    rw [hagain, hinput]
    -- the second run looks for an address only where the first one found none
    have haddress : row.addressId.or
        ((notesOf row.outputKey input.notes).findSome? again.addressId) = row.addressId := by
      cases hrow : row.addressId with
      | some id => rfl
      | none =>
        have hfirst : (notesOf row.outputKey input.notes).findSome? input.addressId = none := by
          have hcolumn := congrArg (fun row => row.addressId) hinput
          simpa [NoteRow.mergedWith, hrow] using hcolumn
        rw [List.findSome?_eq_none_iff] at hfirst
        rw [Option.none_or, List.findSome?_eq_none_iff]
        intro n hn
        have hnone := hfirst n hn
        cases hsecond : again.addressId n with
        | none => rfl
        | some id =>
          have hsome := hrepeats.address n (mem_notesOf.mp hn).1 (by rw [hsecond]; rfl)
          rw [hnone] at hsome
          cases hsome
    rw [haddress]
  · rfl

variable {done : List DecryptedNote} {state : PersistState} {n : DecryptedNote} {before : Notes}

theorem replayed_concat_of_ne {row : NoteRow}
    (h : ¬(row.accountId = accountId ∧ n.txid.isEmpty = false ∧ n.outputKey = row.outputKey)) :
    row.replayed again accountId (done ++ [n]) = row.replayed again accountId done := by
  unfold NoteRow.replayed
  split
  · rename_i haccount
    rw [notesOf_concat_of_ne fun hboth => h ⟨haccount, hboth⟩]
  · rfl

theorem replayed_concat {row : NoteRow} (haccount : row.accountId = accountId)
    (htxid : n.txid.isEmpty = false) (hkey : n.outputKey = row.outputKey) :
    row.replayed again accountId (done ++ [n])
      = (row.replayed again accountId done).refresh n (again.addressId n) := by
  unfold NoteRow.replayed
  rw [if_pos haccount, if_pos haccount, notesOf_concat htxid hkey, mergedWith_concat]

/-- Without a recorded spend an upsert refreshes the row in its place. -/
theorem update_rows {existing : NoteRow} (addressId : Option Int)
    (hexisting : existing ∈ state.notes.rows) :
    (state.update ∅ n addressId existing).notes.rows = state.notes.rows.map
      (fun row => if row.id = existing.id then existing.refresh n addressId else row) := by
  have hupsert : existing.upsert ∅ n addressId = existing.refresh n addressId := by
    unfold NoteRow.upsert DecryptedNote.linkedSpend
    rw [AList.lookup_empty, ite_self]
    rfl
  simp only [PersistState.update, hupsert]
  split
  · rename_i hsame
    rw [hsame]
    conv_lhs => rw [← List.map_id state.notes.rows]
    refine List.map_congr_left fun row hrow => ?_
    split
    · rename_i hid
      exact AutoTable.row_eq_of_id hrow hexisting hid
    · rfl
  · refine List.map_congr_left fun row _ => ?_
    have hid : (existing.refresh n addressId).id = existing.id := rfl
    rw [hid]
    by_cases hrow : row.id = existing.id
    · simp only [hrow, beq_self_eq_true, if_true]
      rw [← hid]
    · simp [hrow]

/-- The second run only rewrites rows in their place. -/
theorem replay_persistNote (hinv : MergeInvariant again accountId done state)
    (hrows : state.notes.rows = before.rows.map (NoteRow.replayed again accountId done))
    (hn : n ∈ again.notes)
    (hstored : n.txid.isEmpty = false →
      ∃ row ∈ before.ofAccount accountId, row.outputKey = n.outputKey) :
    (again.persistNote accountId ∅ state n).notes.rows
      = before.rows.map (NoteRow.replayed again accountId (done ++ [n])) := by
  unfold PersistInput.persistNote
  split
  · rename_i htxid
    rw [hrows]
    refine List.map_congr_left fun row _ => (replayed_concat_of_ne ?_).symm
    simp [htxid]
  · rename_i htxid
    have htxid' : n.txid.isEmpty = false := Bool.eq_false_iff.mpr htxid
    have hmeta := hinv.upsertMeta n
    have hnotes : (state.upsertMeta again n).notes = state.notes := by
      unfold PersistState.upsertMeta
      dsimp only
      split <;> rfl
    obtain ⟨row₀, hrow₀, hkey₀⟩ := hstored htxid'
    obtain ⟨hrow₀, haccount₀⟩ := Notes.mem_ofAccount.mp hrow₀
    let existing := row₀.replayed again accountId done
    have hsame := @replayed_sameNote again accountId done row₀
    have hmem : existing ∈ (state.upsertMeta again n).notes.rows := by
      rw [hnotes, hrows]
      exact List.mem_map_of_mem hrow₀
    have hfound : (state.upsertMeta again n).existingByOutput.lookup n.outputKey
        = some existing := by
      refine (hmeta.indexed n hn htxid' existing).mpr ⟨?_, hsame.outputKey_eq.trans hkey₀⟩
      exact Notes.mem_ofAccount.mpr ⟨hmem, hsame.accountId_eq.trans haccount₀⟩
    dsimp only
    rw [hfound]
    dsimp only
    rw [update_rows (again.addressId n) hmem, hnotes, hrows, List.map_map]
    refine List.map_congr_left fun row hrow => ?_
    have hrowSame := @replayed_sameNote again accountId done row
    -- the row of the output is the one the index has found
    have hid : (row.replayed again accountId done).id = existing.id ↔ row = row₀ := by
      rw [hrowSame.id_eq, hsame.id_eq]
      exact ⟨AutoTable.row_eq_of_id hrow hrow₀, congrArg NoteRow.id⟩
    simp only [Function.comp_apply]
    split
    · rename_i heq
      obtain rfl := hid.mp heq
      exact (replayed_concat haccount₀ htxid' hkey₀.symm).symm
    · rename_i hne
      refine (replayed_concat_of_ne ?_).symm
      rintro ⟨haccount, -, hkey⟩
      refine hne (hid.mpr ?_)
      have hinState : row.replayed again accountId done ∈ state.notes.rows := by
        rw [hrows]
        exact List.mem_map_of_mem hrow
      have heq := hinv.one accountId _
        (Notes.mem_ofAccount.mpr ⟨hinState, hrowSame.accountId_eq.trans haccount⟩) existing
        (Notes.mem_ofAccount.mpr ⟨hnotes ▸ hmem, hsame.accountId_eq.trans haccount₀⟩)
        (by rw [hrowSame.outputKey_eq, hsame.outputKey_eq, hkey₀, hkey])
      exact hid.mp (congrArg NoteRow.id heq)

theorem persistNotesWithDb_unlinkedSpends (input : PersistInput) (accountId : Int)
    (db : WalletDb) (h : input.notes.isEmpty = false) :
    (input.persistNotesWithDb accountId db).2.unlinkedSpends
      = (consumeUnlinkedSpendsForNullifiers accountId input.candidateUnlinkedSpendKeys
        db.unlinkedSpends).2 := by
  unfold PersistInput.persistNotesWithDb
  rw [if_neg (by simp [h])]
  dsimp only
  unfold WalletDb.saveSyncState
  simp only [heightToSqlI64, toI64Or]
  split <;> rfl

/-- **A batch persisted again changes no row.** -/
theorem persistNotesWithDb_replay {db : WalletDb}
    (hone : ∀ account, db.notes.OneRowPerOutput account)
    (hstored : ∀ n ∈ input.notes, input.insertFails n = false) (hrepeats : again.Repeats input)
    (hagain : ∀ n ∈ again.notes, again.insertFails n = false) :
    (again.persistNotesWithDb accountId (input.persistNotesWithDb accountId db).2).2.notes.rows
      = (input.persistNotesWithDb accountId db).2.notes.rows := by
  cases hempty : input.notes.isEmpty with
  | true =>
    have hnone : again.notes.isEmpty = true := by rw [hrepeats.notes_eq, hempty]
    unfold PersistInput.persistNotesWithDb
    rw [if_pos hnone]
  | false =>
    have hsome : again.notes.isEmpty = false := by rw [hrepeats.notes_eq, hempty]
    let db' := (input.persistNotesWithDb accountId db).2
    have hdb' : db'.notes = (input.persisted accountId db).notes :=
      persistNotesWithDb_notes input accountId db hempty
    have hfirst := (@persisted_merged input accountId db hone hstored).1
    have hspends : again.unlinkedSpends accountId db' = ∅ :=
      unlinkedSpends_consumed hrepeats.notes_eq
        (persistNotesWithDb_unlinkedSpends input accountId db hempty)
    have hone' : ∀ account, db'.notes.OneRowPerOutput account := hdb' ▸ hfirst.one
    obtain ⟨hinitial, hstart⟩ := @initial_merged accountId again db' hone'
    -- induction on the notes still to come round again
    have hloop : ∀ (todo done : List DecryptedNote), (∀ n ∈ todo, n ∈ again.notes) →
        ∀ state, MergeInvariant again accountId done state →
        state.notes.rows = db'.notes.rows.map (NoteRow.replayed again accountId done) →
        (todo.foldl (again.persistNote accountId ∅) state).notes.rows
          = db'.notes.rows.map (NoteRow.replayed again accountId (done ++ todo)) := by
      intro todo
      induction todo with
      | nil =>
        intro done _ state _ hrows
        rw [List.append_nil]
        exact hrows
      | cons n rest ih =>
        intro done htodo state hinv hrows
        have hn : n ∈ again.notes := htodo n List.mem_cons_self
        have hrow := hfirst.stored n (hrepeats.notes_eq ▸ hn)
        rw [← hdb'] at hrow
        have hnext := ih (done ++ [n]) (fun m hm => htodo m (List.mem_cons_of_mem n hm)) _
          (hinv.persistNote hn (hagain n hn) ∅) (replay_persistNote hinv hrows hn hrow)
        rwa [List.append_assoc, List.singleton_append] at hnext
    have hstartRows : (again.initial accountId db').notes.rows
        = db'.notes.rows.map (NoteRow.replayed again accountId []) := by
      rw [hinitial]
      conv_lhs => rw [← List.map_id db'.notes.rows]
      refine List.map_congr_left fun row _ => ?_
      unfold NoteRow.replayed
      split
      · exact (mergedWith_nil row).symm
      · rfl
    have hrows := hloop again.notes [] (fun _ hn => hn) _ hstart hstartRows
    rw [persistNotesWithDb_notes again accountId _ hsome]
    unfold PersistInput.persisted
    rw [hspends, hrows, List.nil_append, hrepeats.notes_eq]
    conv_rhs => rw [← List.map_id db'.notes.rows]
    refine List.map_congr_left fun row hrow => ?_
    refine replayed_eq_self hrepeats fun haccount => hfirst.merged row ?_
    rw [← hdb']
    exact Notes.mem_ofAccount.mpr ⟨hrow, haccount⟩

end Second

/-! ## Sequences of batches -/

/-- One call: the account and what it is given. -/
abbrev PersistCall := Int × PersistInput

def WalletDb.persistCall (db : WalletDb) (call : PersistCall) : WalletDb :=
  (call.2.persistNotesWithDb call.1 db).2

/-- The call stores every note it is given: no `INSERT` is refused. -/
def PersistInput.StoresAll (input : PersistInput) : Prop :=
  ∀ n ∈ input.notes, input.insertFails n = false

theorem persistCall_spec {db : WalletDb} {call : PersistCall}
    (hone : ∀ account, db.notes.OneRowPerOutput account) (hstored : call.2.StoresAll) :
    (∀ account, (db.persistCall call).notes.OneRowPerOutput account) ∧
      KeepsSpent db.notes (db.persistCall call).notes := by
  unfold WalletDb.persistCall
  cases hempty : call.2.notes.isEmpty with
  | true =>
    unfold PersistInput.persistNotesWithDb
    rw [if_pos hempty]
    exact ⟨hone, KeepsSpent.refl _⟩
  | false =>
    rw [persistNotesWithDb_notes call.2 call.1 db hempty]
    obtain ⟨hinv, hkeeps⟩ := @persisted_merged call.2 call.1 db hone hstored
    exact ⟨hinv.one, hkeeps⟩

/-- Along any sequence of calls an output keeps its one row, no row goes away, and a spent
one stays spent. -/
theorem persistCalls_spec {db : WalletDb} {calls : List PersistCall}
    (hone : ∀ account, db.notes.OneRowPerOutput account)
    (hstored : ∀ call ∈ calls, call.2.StoresAll) :
    (∀ account, (Runs.run WalletDb.persistCall db calls).notes.OneRowPerOutput account) ∧
      KeepsSpent db.notes (Runs.run WalletDb.persistCall db calls).notes := by
  induction calls generalizing db with
  | nil => exact ⟨hone, KeepsSpent.refl _⟩
  | cons call rest ih =>
    obtain ⟨hone', hkeeps⟩ := persistCall_spec hone (hstored call List.mem_cons_self)
    obtain ⟨hlast, hkept⟩ := ih hone' fun other hother =>
      hstored other (List.mem_cons_of_mem call hother)
    exact ⟨hlast, hkeeps.trans hkept⟩

/-- **Persisting batches in any order, with repeats.** From a table without duplicates no
output ever gets a second row; a batch that comes again right after itself changes no row;
and a row that is spent at any point is there and spent ever after. -/
theorem persist_calls_keep_rows (db : WalletDb) (calls : List PersistCall)
    (hone : ∀ account, db.notes.OneRowPerOutput account)
    (hstored : ∀ call ∈ calls, call.2.StoresAll) :
    Runs.Throughout WalletDb.persistCall
        (fun db => ∀ account, db.notes.OneRowPerOutput account) db calls ∧
      (∀ (accountId : Int) (input again : PersistInput), input.StoresAll → again.StoresAll →
        again.Repeats input →
        ((Runs.run WalletDb.persistCall db (calls ++ [(accountId, input), (accountId, again)])
            ).notes.rows
          = (Runs.run WalletDb.persistCall db (calls ++ [(accountId, input)])).notes.rows)) ∧
      ∀ done rest, calls = done ++ rest →
        ∀ row ∈ (Runs.run WalletDb.persistCall db done).notes.rows, row.spent = true →
          ∃ row' ∈ (Runs.run WalletDb.persistCall db calls).notes.rows,
            SameNote row row' ∧ row'.spent = true := by
  refine ⟨?_, ?_, ?_⟩
  · rintro done ⟨rest, rfl⟩
    exact (persistCalls_spec hone fun call hcall =>
      hstored call (List.mem_append_left rest hcall)).1
  · intro accountId input again hinput hagain hrepeats
    have honeLast := (persistCalls_spec hone hstored).1
    rw [Runs.run_append, Runs.run_append]
    exact persistNotesWithDb_replay honeLast hinput hrepeats hagain
  · rintro done rest rfl row hrow hspent
    have honeDone := (persistCalls_spec hone fun call hcall =>
      hstored call (List.mem_append_left rest hcall)).1
    have hkeeps := (persistCalls_spec honeDone fun call hcall =>
      hstored call (List.mem_append_right done hcall)).2
    rw [Runs.run_append]
    obtain ⟨row', hrow', hsame, hkept⟩ := hkeeps row hrow
    exact ⟨row', hrow', hsame, hkept hspent⟩

/-- A note that decrypts with and without its memo. -/
def twiceNote (memo : Option Bytes) : DecryptedNote where
  noteType := .ironwood
  height := 7
  txid := List.replicate 32 3
  txHash := List.replicate 32 3
  outputIndex := 1
  value := 90000
  commitment := List.replicate 32 4
  nullifier := List.replicate 32 5
  memoBytes := memo
  keyId := some 1
  diversifier := []
  noteBytes := [2]
  position := none

/-- A batch in which one output comes twice. -/
def twiceBatch : PersistInput where
  notes := [twiceNote none, twiceNote (some [1])]
  blocks := []
  positionMappings := ⟨∅, ∅⟩
  addressId := fun _ => some 4
  insertFails := fun _ => false
  timestamp := 0
  now := "t"

theorem persist_calls_keep_rows_twice :
    (Runs.run WalletDb.persistCall (WalletDb.fresh "t")
        [(1, twiceBatch), (1, twiceBatch), (1, twiceBatch)]).notes.rows
      = (Runs.run WalletDb.persistCall (WalletDb.fresh "t")
        [(1, twiceBatch), (1, twiceBatch)]).notes.rows := by
  have hone : ∀ account, (WalletDb.fresh "t").notes.OneRowPerOutput account := by
    intro account a ha
    cases ha
  have hstored : twiceBatch.StoresAll := fun _ _ => rfl
  have hcalls := persist_calls_keep_rows (WalletDb.fresh "t") [(1, twiceBatch)] hone
    (List.forall_mem_singleton.mpr hstored)
  exact hcalls.2.1 1 twiceBatch twiceBatch hstored hstored ⟨rfl, fun _ _ h => h⟩

example : ((Runs.run WalletDb.persistCall (WalletDb.fresh "t")
    [(1, twiceBatch), (1, twiceBatch)]).notes.rows.map (fun row => (row.id, row.memo)))
      = [(1, some [1])] := by decide +kernel

end StashiWallet
