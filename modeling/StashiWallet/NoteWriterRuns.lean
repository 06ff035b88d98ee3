import StashiWallet.NoteMerge
import StashiWallet.NoteWriters

/-!
# Spends that are recorded while notes are written back

A row that is marked spent is written over by the calls that work from an earlier version of it.
The statement that writes says which version that was; every such version is one the call has read,
inserted or written itself, and what it writes is spent if that version was (`program_obeys`). So
the marks of a row last as long as each row is written back as it was marked when it was read
(`Fresh`) and no report names another transaction for it (`Agrees`).
-/

namespace StashiWallet

open Interleaving

/-- The calls in progress over the tables. -/
abbrev NoteMachine (ι : Type) : Type :=
  Machine ι NoteStatement NoteStatement.Reply Unit NoteTables

/-- Marked spent by a transaction. -/
def NoteRecord.MarkedBy (txid : Bytes) (note : NoteRecord) : Prop :=
  note.spent = true ∧ note.spentTxid = some txid

namespace NoteStatement

/-- The statements that may clear a mark. -/
def clears : NoteStatement → Bool
  | truncateAboveHeight _ _ => true
  | releaseExpiredNotes _ _ => true
  | _ => false

/-- The statements that may write a row. -/
def writesNotes : NoteStatement → Bool
  | prepareNoteUpserts _ _ => true
  | updateNote _ _ => true
  | insertNote _ => true
  | markNotesSpent _ _ => true
  | applySpendUpdates _ _ _ _ => true
  | statement => statement.clears

/-- A row that is written back was marked, when the call read it, as it is now. -/
def Fresh (tables : NoteTables) : NoteStatement → Prop
  | updateNote read note => ∀ row ∈ tables.db.notes.rows, row.id = note.id → row.spent = true →
      read.spent = true ∧ read.spentTxid = row.spentTxid
  | _ => True

/-- The statement names a transaction as the spender of a row: a batch that writes it back found a
recorded spend, a report has an entry for it, or a row of its output has the transaction. -/
def Names (tables : NoteTables) (row : NoteRow) (txid : Bytes) : NoteStatement → Prop
  | updateNote read note =>
    note.id = row.id ∧ note.spentTxid = some txid ∧ read.spentTxid ≠ some txid
  | applySpendUpdates accountId spendUpdates fallbackEntries _ =>
    (row.id, txid) ∈ spendUpdates ∨ row.accountId = accountId ∧
      (BulkMap.insertAll ∅ fallbackEntries).lookup row.nullifier = some txid
  | markNotesSpent accountId entries => row.accountId = accountId ∧
      (BulkMap.insertAll ∅ entries).lookup row.nullifier = some txid
  | prepareNoteUpserts accountId outputs => row.accountId = accountId ∧ row.outputKey ∈ outputs ∧
      ∃ other ∈ tables.db.notes.rowsOf accountId row.outputKey, other.spentTxid = some txid
  | _ => False

/-- No other transaction is named for a row that is marked. -/
def Agrees (tables : NoteTables) (statement : NoteStatement) : Prop :=
  ∀ row ∈ tables.db.notes.rows, ∀ txid, row.MarkedBy txid →
    ∀ named, Names tables row named statement → named = txid

end NoteStatement

/-! ## What a call writes back -/

/-- The versions of rows that a call has read, inserted or written. -/
def knownAfter (known : List NoteRow) : (statement : NoteStatement) → statement.Reply → List NoteRow
  | .getUnspentNotes _, .ok rows => rows ++ known
  | .prepareNoteUpserts _ _, .ok rows => rows ++ known
  | .insertNote note, .ok id => { note with id := id } :: known
  | .updateNote _ note, _ => note :: known
  | _, _ => known

/-- The note is marked as the version of it that was read, or else spent. -/
def NoteRecord.KeepsMark (read note : NoteRecord) : Prop :=
  note.spent = read.spent ∧ note.spentTxid = read.spentTxid ∨ ∃ txid, note.MarkedBy txid

/-- A row is written back from a version the call knows, and keeps its mark or gets another. -/
def WritesKnown (known : List NoteRow) : NoteStatement → Prop
  | .updateNote read note => read ∈ known ∧ note.id = read.id ∧ read.KeepsMark note.toNoteRecord
  | _ => True

/-- The monitor of the versions a call knows. -/
def writerMonitor : Monitor NoteStatement NoteStatement.Reply (List NoteRow) where
  start := []
  next := knownAfter
  Permits := WritesKnown

theorem known_subset (known : List NoteRow) (statement : NoteStatement) (reply : statement.Reply) :
    known ⊆ knownAfter known statement reply := by
  unfold knownAfter
  split
  · exact List.subset_append_right _ _
  · exact List.subset_append_right _ _
  · exact List.subset_cons_self _ _
  · exact List.subset_cons_self _ _
  · exact List.Subset.refl known

namespace NoteM

variable {α β : Type} {known : List NoteRow}

/-- The call writes back what it knows, and `Q` holds of what it then knows and returns. -/
def Keeps (Q : List NoteRow → α → Prop) (known : List NoteRow) (call : NoteM α) : Prop :=
  Prog.Obeys writerMonitor (fun known result => ∀ a, result = .ok a → Q known a) known call.run

/-- The call forgets nothing. -/
def Grows (call : NoteM α) : Prop :=
  ∀ known, Keeps (fun later _ => known ⊆ later) known call

variable {call : NoteM α}

theorem Keeps.imp {Q Q' : List NoteRow → α → Prop} (h : Keeps Q known call)
    (hQ : ∀ later a, Q later a → Q' later a) : Keeps Q' known call :=
  Prog.Obeys.imp h fun later _ hresult a ha => hQ later a (hresult a ha)

variable {rest : α → NoteM β}

theorem Keeps.bind {Q : List NoteRow → β → Prop}
    (hcall : Keeps (fun later a => Keeps Q later (rest a)) known call) :
    Keeps Q known (call >>= rest) := by
  unfold Keeps
  rw [ExceptT.run_bind, Prog.obeys_bind]
  refine Prog.Obeys.imp hcall ?_
  intro later result hresult
  cases result with
  | ok a => exact hresult a rfl
  | error error => exact fun a ha => by cases ha

/-- A call whose result does not matter, and the rest of what it knows after. -/
theorem Grows.bind {Q : List NoteRow → β → Prop} (hcall : Grows call)
    (hrest : ∀ later a, known ⊆ later → Keeps Q later (rest a)) : Keeps Q known (call >>= rest) :=
  Keeps.bind ((hcall known).imp fun later a h => hrest later a h)

theorem keeps_pure {Q : List NoteRow → α → Prop} {a : α} (h : Q known a) :
    Keeps Q known (pure a : NoteM α) := by
  intro b hb
  cases hb
  exact h

theorem keeps_query {statement : NoteStatement} {Q : List NoteRow → statement.Answer → Prop}
    (hpermits : WritesKnown known statement)
    (hQ : ∀ answer, Q (knownAfter known statement (.ok answer)) answer) :
    Keeps Q known (query statement) := by
  refine ⟨hpermits, fun reply answer hanswer => ?_⟩
  rw [hanswer]
  exact hQ answer

theorem keeps_attempt {statement : NoteStatement} {Q : List NoteRow → statement.Reply → Prop}
    (hpermits : WritesKnown known statement)
    (hQ : ∀ reply, Q (knownAfter known statement reply) reply) :
    Keeps Q known (attempt statement) := by
  refine ⟨hpermits, fun reply result hresult => ?_⟩
  cases hresult
  exact hQ reply

theorem grows_pure (a : α) : Grows (pure a : NoteM α) :=
  fun known => keeps_pure (List.Subset.refl known)

theorem grows_query {statement : NoteStatement} (h : ∀ known, WritesKnown known statement) :
    Grows (query statement) :=
  fun known => keeps_query (h known) fun _ => known_subset known statement _

theorem grows_attempt {statement : NoteStatement} (h : ∀ known, WritesKnown known statement) :
    Grows (attempt statement) :=
  fun known => keeps_attempt (h known) fun _ => known_subset known statement _

theorem grows_compute (result : Except StorageError α) : Grows (compute result) :=
  fun known _ _ => List.Subset.refl known

theorem grows_bind (hcall : Grows call) (hrest : ∀ a, Grows (rest a)) : Grows (call >>= rest) :=
  fun _ => hcall.bind fun later a hlater =>
    (hrest a later).imp fun _ _ hmore => List.Subset.trans hlater hmore

end NoteM

open NoteM

theorem updateNoteByIdCall_keeps {known : List NoteRow} {read note : NoteRow} (hread : read ∈ known)
    (hid : note.id = read.id) (hmark : read.KeepsMark note.toNoteRecord) :
    Keeps (fun later _ => known ⊆ later) known (updateNoteByIdCall read note) := by
  refine Keeps.bind (keeps_query ⟨hread, hid, hmark⟩ fun _ => ?_)
  have hshards : Grows (query (.upsertNoteShards [(note.noteType, note.position, note.height)])) :=
    grows_query fun _ => trivial
  refine (hshards _).imp fun later _ hlater => ?_
  exact List.Subset.trans (List.subset_cons_self _ _) hlater

theorem sequenceFor_grows (group : AddressGroup) (existing : Option AddressRow) :
    Grows (sequenceFor group existing) := by
  cases existing with
  | some row => exact grows_pure _
  | none => exact grows_query fun _ => trivial

section Balances

variable (q : BalanceQuery)

theorem fileAddress_grows (address : String) (addressType : AddressType)
    (existing : Option AddressRow) (keyId : Int) (index : Index88) (scope : AddressScope) :
    Grows (q.fileAddress address addressType existing keyId index scope) := by
  refine grows_bind (sequenceFor_grows _ _) fun diversifierIndex => ?_
  dsimp only
  split
  · split
    · exact grows_query fun _ => trivial
    · exact grows_query fun _ => trivial
  · exact grows_pure _

/-- The key group of a note does not concern its mark. -/
theorem ownNote_keeps (address : String) (existing : Option AddressRow) (note : NoteRow)
    (known : List NoteRow) :
    Keeps (fun later owned => known ⊆ later ∧ owned.2.id = note.id ∧
      owned.2.spent = note.spent ∧ owned.2.spentTxid = note.spentTxid)
      known (q.ownNote address existing note) := by
  unfold BalanceQuery.ownNote
  split
  · exact keeps_pure ⟨List.Subset.refl known, rfl, rfl, rfl⟩
  · refine Grows.bind (fileAddress_grows q _ _ _ _ _ _) fun later _ hlater => ?_
    exact keeps_pure ⟨hlater, rfl, rfl, rfl⟩

theorem visitNote_keeps (ironwoodEnabled : Bool) {known : List NoteRow} {note : NoteRow}
    (hnote : note ∈ known) :
    Keeps (fun later _ => known ⊆ later) known (q.visitNote ironwoodEnabled note) := by
  unfold BalanceQuery.visitNote
  dsimp only
  split
  · exact keeps_pure (List.Subset.refl known)
  · refine Grows.bind (grows_query fun _ => trivial) fun first existing hfirst => ?_
    refine Keeps.bind ((ownNote_keeps q _ existing note first).imp fun second owned howned => ?_)
    obtain ⟨hsecond, hid, hmark⟩ := howned
    refine Grows.bind (grows_query fun _ => trivial) fun third row hthird => ?_
    have hknown : known ⊆ third := List.Subset.trans (List.Subset.trans hfirst hsecond) hthird
    cases row with
    | none => exact keeps_pure hknown
    | some row =>
      unfold BalanceQuery.fileNote
      dsimp only
      split
      · have hwritten : Keeps (fun later _ => third ⊆ later) third (updateNoteByIdCall note
            { owned.2 with addressId := some (row.id : Int) }) :=
          updateNoteByIdCall_keeps (hknown hnote) hid (Or.inl hmark)
        exact Keeps.bind (hwritten.imp fun fourth _ hfourth =>
          keeps_pure (List.Subset.trans hknown hfourth))
      · exact keeps_pure hknown

theorem visitNotes_keeps (ironwoodEnabled : Bool) {known : List NoteRow} {notes : List NoteRow}
    (hnotes : notes ⊆ known) :
    Keeps (fun later _ => known ⊆ later) known (q.visitNotes ironwoodEnabled notes) := by
  induction notes generalizing known with
  | nil => exact keeps_pure (List.Subset.refl known)
  | cons note rest ih =>
    obtain ⟨hnote, hrest⟩ := List.cons_subset.mp hnotes
    refine Keeps.bind ((visitNote_keeps q ironwoodEnabled hnote).imp fun first visited hfirst => ?_)
    refine Keeps.bind ((ih (List.Subset.trans hrest hfirst)).imp fun second others hsecond => ?_)
    exact keeps_pure (List.Subset.trans hfirst hsecond)

theorem listAddressBalances_keeps (known : List NoteRow) :
    Keeps (fun _ _ => True) known q.listAddressBalances := by
  unfold BalanceQuery.listAddressBalances
  refine Keeps.bind (keeps_query trivial fun notes => ?_)
  have hnotes : notes ⊆ knownAfter known (.getUnspentNotes q.accountId) (.ok notes) :=
    List.subset_append_left _ _
  refine Grows.bind (grows_query fun _ => trivial) fun first syncState hfirst => ?_
  refine Keeps.bind ((visitNotes_keeps q _ (List.Subset.trans hnotes hfirst)).imp ?_)
  intro second visited _
  refine Grows.bind (grows_query fun _ => trivial) fun third addresses _ => ?_
  refine Grows.bind (grows_compute _) fun fourth balances _ => ?_
  exact keeps_pure trivial

end Balances

section Persisting

variable (q : PersistQuery)

theorem storeAddress_grows (n : DecryptedNote) (timestamp : Int) (address : String)
    (scope : AddressScope) (index : Option Index88) :
    Grows (q.storeAddress n timestamp address scope index) := by
  refine grows_bind (grows_query fun _ => trivial) fun existing => ?_
  refine grows_bind ?_ fun diversifierIndex => ?_
  · unfold PersistQuery.sequenceOfNote
    split
    · exact grows_pure _
    · exact sequenceFor_grows _ _
  refine grows_bind (grows_query fun _ => trivial) fun _ => ?_
  exact grows_query fun _ => trivial

theorem deriveAddressId_grows (n : DecryptedNote) (timestamp : Int)
    (cache : AList (fun _ : String => Int)) : Grows (q.deriveAddressId n timestamp cache) := by
  unfold PersistQuery.deriveAddressId
  split
  · exact grows_pure _
  · split
    · exact grows_pure _
    · exact grows_bind (storeAddress_grows q _ _ _ _ _) fun _ => grows_pure _

theorem upsertTransactionOf_grows (n : DecryptedNote) (upsertedTxids : List String) :
    Grows (q.upsertTransactionOf n upsertedTxids) := by
  unfold PersistQuery.upsertTransactionOf
  dsimp only
  split
  · exact grows_pure _
  · exact grows_bind (grows_attempt fun _ => trivial) fun _ => grows_pure _

/-- The rows the loop works from are rows the call knows. -/
def PersistLocals.Within (locals : PersistLocals) (known : List NoteRow) : Prop :=
  ∀ key, ∀ row ∈ locals.existingByOutput.lookup key, row ∈ known

theorem PersistLocals.Within.mono {locals : PersistLocals} {known later : List NoteRow}
    (h : locals.Within known) (hlater : known ⊆ later) : locals.Within later :=
  fun key row hrow => hlater (h key row hrow)

/-- The rows stay known when one that is known is put among them. -/
theorem within_insert {locals after : PersistLocals} {known : List NoteRow}
    (h : locals.Within known) {key : OutputKey} {row : NoteRow} (hrow : row ∈ known)
    (hafter : after.existingByOutput = locals.existingByOutput.insert key row) :
    after.Within known := by
  intro other stored hstored
  rw [hafter] at hstored
  by_cases heq : other = key
  · rw [heq, AList.lookup_insert, Option.mem_some_iff] at hstored
    exact hstored ▸ hrow
  · rw [AList.lookup_insert_ne heq] at hstored
    exact h other stored hstored

/-- A row brought up to date keeps its mark, or is marked by the spend that was recorded. -/
theorem upsert_keepsMark (unlinked : UnlinkedSpendMap) (n : DecryptedNote) (addressId : Option Int)
    (existing : NoteRow) :
    existing.KeepsMark (existing.upsert unlinked n addressId).toNoteRecord := by
  unfold NoteRow.upsert NoteRecord.link
  cases n.linkedSpend unlinked with
  | none => exact Or.inl ⟨rfl, rfl⟩
  | some txid => exact Or.inr ⟨txid, rfl, rfl⟩

variable {unlinked : UnlinkedSpendMap} {locals : PersistLocals} {n : DecryptedNote}

theorem updateExisting_keeps {addressId : Option Int} {existing : NoteRow} {known : List NoteRow}
    (hwithin : locals.Within known) (hexisting : existing ∈ known) :
    Keeps (fun later locals => locals.Within later) known
      (PersistQuery.updateExisting unlinked n addressId existing locals) := by
  unfold PersistQuery.updateExisting
  dsimp only
  have hwritten : Keeps (fun later _ => known ⊆ later ∧ existing.upsert unlinked n addressId ∈ later)
      known (PersistQuery.writeIfChanged existing (existing.upsert unlinked n addressId)) := by
    unfold PersistQuery.writeIfChanged
    split
    · rename_i hsame
      refine keeps_pure ⟨List.Subset.refl known, ?_⟩
      rw [hsame]
      exact hexisting
    · exact keeps_query ⟨hexisting, rfl, upsert_keepsMark _ _ _ _⟩ fun _ =>
        ⟨List.subset_cons_self _ _, List.mem_cons_self⟩
  refine Keeps.bind (hwritten.imp fun later _ hlater => keeps_pure ?_)
  exact within_insert (hwithin.mono hlater.1) hlater.2 rfl

theorem insertNew_keeps {addressId : Option Int} {known : List NoteRow}
    (hwithin : locals.Within known) :
    Keeps (fun later locals => locals.Within later) known
      (q.insertNew unlinked n addressId locals) := by
  unfold PersistQuery.insertNew
  dsimp only
  refine Keeps.bind (keeps_attempt trivial fun reply => keeps_pure ?_)
  cases reply with
  | error error => exact hwithin
  | ok id =>
    exact within_insert (hwithin.mono (List.subset_cons_self _ _)) List.mem_cons_self rfl

theorem persistOne_keeps {known : List NoteRow} (hwithin : locals.Within known) :
    Keeps (fun later locals => locals.Within later) known (q.persistOne unlinked n locals) := by
  unfold PersistQuery.persistOne
  refine Grows.bind (upsertTransactionOf_grows q _ _) fun first upsertedTxids hfirst => ?_
  refine Grows.bind (deriveAddressId_grows q _ _ _) fun second derived hsecond => ?_
  have hwithin : locals.Within second := hwithin.mono (List.Subset.trans hfirst hsecond)
  dsimp only
  split
  · rename_i existing hexisting
    exact updateExisting_keeps hwithin (hwithin _ _ hexisting)
  · exact insertNew_keeps q hwithin

theorem persistLoop_keeps {notes : List DecryptedNote} {known : List NoteRow}
    (hwithin : locals.Within known) :
    Keeps (fun later locals => locals.Within later) known (q.persistLoop unlinked notes locals) := by
  induction notes generalizing locals known with
  | nil => exact keeps_pure hwithin
  | cons n rest ih =>
    unfold PersistQuery.persistLoop
    split
    · exact ih hwithin
    · exact Keeps.bind ((persistOne_keeps q hwithin).imp fun later locals hlater => ih hlater)

theorem persistNotesWithDb_keeps (known : List NoteRow) :
    Keeps (fun _ _ => True) known q.persistNotesWithDb := by
  unfold PersistQuery.persistNotesWithDb
  split
  · exact keeps_pure trivial
  · have hexisting : Keeps (fun later rows => rows ⊆ later) known q.existingRows := by
      unfold PersistQuery.existingRows
      split
      · exact keeps_pure (List.nil_subset _)
      · exact keeps_query trivial fun rows => List.subset_append_left _ _
    refine Keeps.bind (hexisting.imp fun first existing hfirst => ?_)
    refine Grows.bind (grows_query fun _ => trivial) fun second unlinked hsecond => ?_
    refine Keeps.bind ((persistLoop_keeps q ?_).imp fun third locals _ => ?_)
    · intro key row hrow
      rcases BulkMap.mem_of_lookup_insertAll hrow with hmem | hnone
      · obtain ⟨stored, hstored, heq⟩ := List.mem_map.mp hmem
        rw [← (Prod.mk.inj heq).2]
        exact hsecond (hfirst hstored)
      · rw [AList.lookup_empty] at hnone
        cases hnone
    · refine Grows.bind (grows_query fun _ => trivial) fun fourth _ _ => ?_
      exact Grows.bind (grows_attempt fun _ => trivial) fun fifth _ _ => keeps_pure trivial

end Persisting

/-- Every call writes back what it knows. -/
theorem NoteCall.program_obeys (call : NoteCall) :
    Prog.Obeys writerMonitor (fun _ _ => True) [] call.program := by
  cases call with
  | listAddressBalances q =>
    exact Prog.obeys_bind.mpr
      (Prog.Obeys.imp (listAddressBalances_keeps q []) fun _ _ _ => trivial)
  | persistNotes q =>
    exact Prog.obeys_bind.mpr
      (Prog.Obeys.imp (persistNotesWithDb_keeps q []) fun _ _ _ => trivial)
  | applySpendUpdates accountId spendUpdates fallbackEntries txMeta =>
    exact ⟨trivial, fun _ => trivial⟩
  | markNotesSpent accountId entries => exact ⟨trivial, fun _ => trivial⟩
  | truncateAboveHeight now height => exact ⟨trivial, fun _ => trivial⟩
  | releaseExpiredNotes accountId localHeight => exact ⟨trivial, fun _ => trivial⟩

/-! ## What a statement makes of a row -/

section Folding

variable {start notes : Notes} {result : List NoteRow}

/-- A fold leaves rows under the ids of rows of the same output. -/
theorem foldGroup_rowsFrom {accountId : Int} {key : OutputKey} {group : List NoteRow}
    (hgroup : ∀ row ∈ group, row ∈ start.rows ∧ row.accountId = accountId ∧ row.outputKey = key)
    (h : AutoTable.RowsFrom SameNote start notes) :
    AutoTable.RowsFrom SameNote start (Notes.foldGroup (result, notes) group).2 := by
  by_cases hnonempty : group = []
  · rw [hnonempty]
    exact h
  rcases foldGroup_cases result notes hnonempty with ⟨row, -, hsingle⟩ | hmerge
  · rw [hsingle]
    exact h
  · obtain ⟨merged, duplicateIds, oldest, hmerged, holdest, hid, hfolded, -⟩ :=
      mergeDuplicateNoteRecords_spec hnonempty
    rw [hmerge merged duplicateIds hmerged]
    intro row' hrow'
    obtain ⟨old, hold, rfl⟩ := List.mem_map.mp (List.mem_filter.mp hrow').1
    obtain ⟨origin, horigin, hsame⟩ := h old hold
    refine ⟨origin, horigin, ?_⟩
    dsimp only
    split
    · rename_i heq
      obtain ⟨hmem, haccount, hkey⟩ := hgroup oldest holdest
      have hown : origin = oldest := AutoTable.row_eq_of_id horigin hmem
        (hsame.id_eq.symm.trans ((beq_iff_eq.mp heq).trans hid))
      refine ⟨hsame.id_eq, ?_, ?_⟩
      · rw [hown, haccount]
        exact hfolded.accountId _ fun row hrow => (hgroup row hrow).2.1
      · rw [hown, hkey]
        exact hfolded.outputKey _ fun row hrow => (hgroup row hrow).2.2
    · exact hsame

theorem foldl_foldGroup_rowsFrom {accountId : Int} {groups : List (List NoteRow)}
    (hgroups : ∀ group ∈ groups, ∃ key, ∀ row ∈ group,
      row ∈ start.rows ∧ row.accountId = accountId ∧ row.outputKey = key)
    (h : AutoTable.RowsFrom SameNote start notes) :
    AutoTable.RowsFrom SameNote start (groups.foldl Notes.foldGroup (result, notes)).2 := by
  induction groups generalizing result notes with
  | nil => exact h
  | cons group groups ih =>
    obtain ⟨key, hgroup⟩ := hgroups group List.mem_cons_self
    exact ih (fun later hlater => hgroups later (List.mem_cons_of_mem group hlater))
      (foldGroup_rowsFrom hgroup h)

theorem prepareNoteUpserts_rowsFrom (accountId : Int) (outputs : List OutputKey) (notes : Notes) :
    AutoTable.RowsFrom SameNote notes (notes.prepareNoteUpserts accountId outputs).2 := by
  refine @foldl_foldGroup_rowsFrom notes notes [] accountId _ ?_ (.refl SameNote.refl notes)
  intro group hgroup
  obtain ⟨key, -, rfl⟩ := List.mem_map.mp hgroup
  refine ⟨key, fun row hrow => ?_⟩
  obtain ⟨hmem, hkey⟩ := List.mem_filter.mp hrow
  obtain ⟨hrow, haccount⟩ := Notes.mem_ofAccount.mp (Notes.mem_matchingOutputs.mp hmem).1
  exact ⟨hrow, haccount, of_decide_eq_true hkey⟩

theorem prepareNoteUpserts_nextId (accountId : Int) (outputs : List OutputKey) (notes : Notes) :
    (notes.prepareNoteUpserts accountId outputs).2.nextId = notes.nextId := by
  have hgroup : ∀ (state : List NoteRow × Notes) group,
      (Notes.foldGroup state group).2.nextId = state.2.nextId := by
    intro state group
    unfold Notes.foldGroup
    split
    · rfl
    · split
      · rfl
      · rfl
  have hgroups : ∀ (groups : List (List NoteRow)) (state : List NoteRow × Notes),
      (groups.foldl Notes.foldGroup state).2.nextId = state.2.nextId := by
    intro groups
    induction groups with
    | nil => exact fun _ => rfl
    | cons group groups ih => exact fun state => (ih _).trans (hgroup state group)
  exact hgroups _ _

end Folding

/-- What a statement makes of a row: it writes the row back, marks it by a transaction that it
names, or folds it with the other rows of its output. -/
inductive Rewrites (tables : NoteTables) : NoteStatement → NoteRow → NoteRow → Prop where
  | same {statement : NoteStatement} {row : NoteRow} : Rewrites tables statement row row
  | written {read note row : NoteRow} (hid : row.id = note.id) :
    Rewrites tables (.updateNote read note) row { note.toNoteRecord with id := row.id }
  | spent {statement : NoteStatement} {row : NoteRow} {txid : Bytes}
    (hnames : statement.Names tables row txid) :
    Rewrites tables statement row (row.spendBy txid)
  | folded {accountId : Int} {outputs : List OutputKey} {row row' : NoteRow}
    (hsame : SameNote row row') (haccount : row.accountId = accountId)
    (hkey : row.outputKey ∈ outputs)
    (hfolded : FoldedFrom (tables.db.notes.rowsOf accountId row.outputKey) row') :
    Rewrites tables (.prepareNoteUpserts accountId outputs) row row'

namespace Rewrites

variable {tables : NoteTables} {statement : NoteStatement} {row row' : NoteRow}

theorem id_eq (h : Rewrites tables statement row row') : row'.id = row.id := by
  cases h with
  | same => rfl
  | written hid => rfl
  | spent hnames => rfl
  | folded hsame => exact hsame.id_eq

/-- A version that was marked as the row is now marks the row it is written over. -/
theorem mark_of_written {read note : NoteRow}
    (hfresh : (NoteStatement.updateNote read note).Fresh tables)
    (hmark : read.KeepsMark note.toNoteRecord) (hrow : row ∈ tables.db.notes.rows)
    (hid : row.id = note.id) (hspent : row.spent = true) :
    note.spent = true ∧ (note.spentTxid = row.spentTxid ∨
      read.spentTxid = row.spentTxid ∧ note.spentTxid.isSome = true) := by
  obtain ⟨hread, htxid⟩ := hfresh row hrow hid hspent
  rcases hmark with ⟨hnote, hsame⟩ | ⟨txid, hnote, hsome⟩
  · exact ⟨hnote.trans hread, Or.inl (hsame.trans htxid)⟩
  · exact ⟨hnote, Or.inr ⟨htxid, Option.isSome_of_eq_some hsome⟩⟩

/-- A fold is marked by the transaction that its rows agree on. -/
theorem marked_of_folded {accountId : Int} {outputs : List OutputKey}
    (hagrees : (NoteStatement.prepareNoteUpserts accountId outputs).Agrees tables)
    (hrow : row ∈ tables.db.notes.rows) (haccount : row.accountId = accountId)
    (hkey : row.outputKey ∈ outputs)
    (hfolded : FoldedFrom (tables.db.notes.rowsOf accountId row.outputKey) row') {txid : Bytes}
    (hmarked : row.MarkedBy txid) : row'.MarkedBy txid := by
  have hmem := Notes.mem_rowsOf.mpr ⟨hrow, haccount, rfl⟩
  refine ⟨hfolded.spent row hmem hmarked.1, ?_⟩
  obtain ⟨named, hnamed⟩ := Option.isSome_iff_exists.mp
    (hfolded.spentTxid_isSome row hmem (Option.isSome_of_eq_some hmarked.2))
  obtain ⟨other, hother, hrecorded⟩ := hfolded.spentTxid named hnamed
  rw [hnamed, hagrees row hrow txid hmarked named ⟨haccount, hkey, other, hother, hrecorded⟩]

theorem spent_of_spent (hfresh : statement.Fresh tables) {known : List NoteRow}
    (hwrites : WritesKnown known statement) (hrow : row ∈ tables.db.notes.rows)
    (h : Rewrites tables statement row row') (hspent : row.spent = true) : row'.spent = true := by
  cases h with
  | same => exact hspent
  | written hid => exact (mark_of_written hfresh hwrites.2.2 hrow hid hspent).1
  | spent hnames => rfl
  | folded hsame haccount hkey hfolded =>
    exact hfolded.spent row (Notes.mem_rowsOf.mpr ⟨hrow, haccount, rfl⟩) hspent

theorem marked_of_marked (hfresh : statement.Fresh tables) (hagrees : statement.Agrees tables)
    {known : List NoteRow} (hwrites : WritesKnown known statement)
    (hrow : row ∈ tables.db.notes.rows) (h : Rewrites tables statement row row') {txid : Bytes}
    (hmarked : row.MarkedBy txid) : row'.MarkedBy txid := by
  refine ⟨spent_of_spent hfresh hwrites hrow h hmarked.1, ?_⟩
  cases h with
  | same => exact hmarked.2
  | written hid =>
    rename_i read note
    rcases (mark_of_written hfresh hwrites.2.2 hrow hid hmarked.1).2 with hsame | ⟨hread, hsome⟩
    · exact hsame.trans hmarked.2
    · obtain ⟨named, hnamed⟩ := Option.isSome_iff_exists.mp hsome
      by_cases heq : named = txid
      · exact hnamed.trans (congrArg some heq)
      · refine absurd (hagrees row hrow txid hmarked named ⟨hid.symm, hnamed, ?_⟩) heq
        rw [hread, hmarked.2]
        exact fun hsame => heq (Option.some.inj hsame).symm
  | spent hnames => exact congrArg some (hagrees row hrow txid hmarked _ hnames)
  | folded hsame haccount hkey hfolded =>
    exact (marked_of_folded hagrees hrow haccount hkey hfolded hmarked).2

end Rewrites

section Statements

variable {tables after : NoteTables} {statement : NoteStatement} {reply : statement.Reply}

/-- Marking rows by id leaves each row as it was or marked by an entry for it. -/
theorem foldl_spendById_rowsFrom (spendUpdates : List (Nat × Bytes)) (notes : Notes) :
    AutoTable.RowsFrom (fun row row' => row' = row ∨
      ∃ txid, (row.id, txid) ∈ spendUpdates ∧ row' = row.spendBy txid) notes
      (spendUpdates.foldl Notes.spendById notes) := by
  induction spendUpdates generalizing notes with
  | nil => exact fun row hrow => ⟨row, hrow, Or.inl rfl⟩
  | cons update rest ih =>
    have hfirst : AutoTable.RowsFrom (fun row row' => row' = row ∨
        ∃ txid, (row.id, txid) ∈ [update] ∧ row' = row.spendBy txid) notes
        (notes.spendById update) := by
      refine AutoTable.rowsFrom_updateWhere (fun row _ hid => ?_) (fun row _ _ => Or.inl rfl)
      refine Or.inr ⟨update.2, ?_, rfl⟩
      rw [beq_iff_eq.mp hid]
      exact List.mem_singleton_self update
    refine hfirst.trans ?_ (ih (notes.spendById update))
    rintro row middle row' hfirst (rfl | ⟨txid, hmem, rfl⟩)
    · rcases hfirst with rfl | ⟨txid, hmem, rfl⟩
      · exact Or.inl rfl
      · refine Or.inr ⟨txid, ?_, rfl⟩
        rw [← List.mem_singleton.mp hmem]
        exact List.mem_cons_self
    · rcases hfirst with rfl | ⟨first, -, rfl⟩
      · exact Or.inr ⟨txid, List.mem_cons_of_mem update hmem, rfl⟩
      · exact Or.inr ⟨txid, List.mem_cons_of_mem update hmem, rfl⟩

theorem foldl_spendById_nextId (spendUpdates : List (Nat × Bytes)) (notes : Notes) :
    (spendUpdates.foldl Notes.spendById notes).nextId = notes.nextId := by
  induction spendUpdates generalizing notes with
  | nil => rfl
  | cons update rest ih => exact ih (notes.spendById update)

/-- Marking rows by nullifier leaves each row as it was or marked by the entry for its nullifier. -/
theorem spendByNullifier_rowsFrom (accountId : Int) (spendMap : AList (fun _ : Bytes => Bytes))
    (notes : Notes) :
    AutoTable.RowsFrom (fun row row' => row' = row ∨ ∃ txid, row.accountId = accountId ∧
      spendMap.lookup row.nullifier = some txid ∧ row' = row.spendBy txid) notes
      (notes.spendByNullifier accountId spendMap) := by
  refine AutoTable.rowsFrom_updateWhere (fun row _ hmatch => ?_) (fun row _ _ => Or.inl rfl)
  simp only [Bool.and_eq_true, beq_iff_eq] at hmatch
  obtain ⟨txid, htxid⟩ := Option.isSome_iff_exists.mp hmatch.2
  refine Or.inr ⟨txid, hmatch.1.1, htxid, ?_⟩
  rw [htxid]
  rfl

theorem foldl_spendById_ids (spendUpdates : List (Nat × Bytes)) (notes : Notes) :
    (spendUpdates.foldl Notes.spendById notes).rows.map (·.id) = notes.rows.map (·.id) := by
  induction spendUpdates generalizing notes with
  | nil => rfl
  | cons update rest ih =>
    have hfirst : (notes.spendById update).rows.map (·.id) = notes.rows.map (·.id) :=
      AutoTable.updateWhere_ids _ (NoteRow.spendBy update.2) (fun _ => rfl) _
    exact (ih (notes.spendById update)).trans hfirst

theorem spendByNullifier_ids (accountId : Int) (spendMap : AList (fun _ : Bytes => Bytes))
    (notes : Notes) :
    (notes.spendByNullifier accountId spendMap).rows.map (·.id) = notes.rows.map (·.id) :=
  AutoTable.updateWhere_ids _
    (fun row : NoteRow => row.spendBy ((spendMap.lookup row.nullifier).getD [])) (fun _ => rfl) _

theorem evolves_of_notes_eq {R : NoteRow → NoteRow → Prop} (hR : ∀ row, R row row)
    (h : after.db.notes = tables.db.notes) :
    AutoTable.Evolves R tables.db.notes after.db.notes := by
  rw [h]
  exact .refl hR tables.db.notes

theorem putAddresses_db {result : Except StorageError AddressTable} :
    (tables.putAddresses result).2.db = tables.db := by
  cases result <;> rfl

/-- The other statements leave the notes alone. -/
theorem execute_keeps_notes (h : statement.writesNotes = false) :
    (tables.execute statement).2.db.notes = tables.db.notes := by
  cases statement with
  | repairAddressOwnership address => exact congrArg WalletDb.notes putAddresses_db
  | upsertAddress address => exact congrArg WalletDb.notes putAddresses_db
  | saveSyncState now localHeight targetHeight lastCheckpointHeight =>
    unfold NoteTables.execute
    dsimp only
    split
    · rfl
    · rename_i db hsaved
      rw [saveSyncState_eq_ok hsaved]
  | prepareNoteUpserts accountId outputs => cases h
  | updateNote read note => cases h
  | insertNote note => cases h
  | markNotesSpent accountId entries => cases h
  | applySpendUpdates accountId spendUpdates fallbackEntries txMeta => cases h
  | truncateAboveHeight now height => cases h
  | releaseExpiredNotes accountId localHeight => cases h
  | _ => rfl

/-- **What a statement does to the notes**, unless it is one of those that clear marks: rows are
rewritten, folded away or inserted under new ids. -/
theorem execute_evolves (hclears : statement.clears = false)
    (h : tables.execute statement = (reply, after)) :
    AutoTable.Evolves (Rewrites tables statement) tables.db.notes after.db.notes := by
  have hafter : after = (tables.execute statement).2 := congrArg Prod.snd h.symm
  have hsame : after.db.notes = tables.db.notes →
      AutoTable.Evolves (Rewrites tables statement) tables.db.notes after.db.notes :=
    evolves_of_notes_eq fun row => Rewrites.same
  rw [hafter] at hsame ⊢
  by_cases hwrites : statement.writesNotes = false
  · exact hsame (execute_keeps_notes hwrites)
  cases statement with
  | truncateAboveHeight now height => cases hclears
  | releaseExpiredNotes accountId localHeight => cases hclears
  | prepareNoteUpserts accountId outputs =>
    have hprepared := prepareNoteUpserts_spec accountId outputs tables.db.notes
    refine ⟨(prepareNoteUpserts_nextId accountId outputs tables.db.notes).ge, ?_⟩
    intro row' hrow'
    obtain ⟨row, hrow, hnote⟩ :=
      prepareNoteUpserts_rowsFrom accountId outputs tables.db.notes row' hrow'
    refine Or.inr ⟨row, hrow, ?_⟩
    by_cases hwanted : row.accountId = accountId ∧ row.outputKey ∈ outputs
    · have hfound : row' ∈ (tables.db.notes.prepareNoteUpserts accountId outputs).1 := by
        refine (hprepared.found row').mpr ⟨Notes.mem_ofAccount.mpr ⟨hrow', ?_⟩, ?_⟩
        · exact hnote.accountId_eq.trans hwanted.1
        · rw [hnote.outputKey_eq]
          exact hwanted.2
      have hfolded := hprepared.folded row' hfound
      rw [hnote.outputKey_eq] at hfolded
      exact Rewrites.folded hnote hwanted.1 hwanted.2 hfolded
    · have hother : ¬(row'.accountId = accountId ∧ row'.outputKey ∈ outputs) := by
        rw [hnote.accountId_eq, hnote.outputKey_eq]
        exact hwanted
      have hsame : row' = row := AutoTable.row_eq_of_id ((hprepared.others row' hother).mp hrow')
        hrow hnote.id_eq
      rw [hsame]
      exact Rewrites.same
  | updateNote read note =>
    have hwritten : AutoTable.RowsFrom (Rewrites tables (.updateNote read note)) tables.db.notes
        (tables.db.notes.updateNoteById note) :=
      AutoTable.rowsFrom_updateWhere (fun row _ hid => Rewrites.written (beq_iff_eq.mp hid))
        (fun row _ _ => Rewrites.same)
    exact hwritten.evolves (Nat.le_refl _)
  | insertNote note =>
    have hinserted : AutoTable.Evolves (Rewrites tables (.insertNote note)) tables.db.notes
        (tables.db.notes.insertNote note).2 :=
      @AutoTable.evolves_insert _ _ _ (fun row => Rewrites.same) _ (fun _ => rfl) tables.db.notes
    exact hinserted
  | markNotesSpent accountId entries =>
    refine AutoTable.RowsFrom.evolves (fun row' hrow' => ?_) (Nat.le_refl _)
    obtain ⟨row, hrow, rfl | ⟨txid, haccount, hnamed, rfl⟩⟩ :=
      spendByNullifier_rowsFrom accountId (BulkMap.insertAll ∅ entries) tables.db.notes row' hrow'
    · exact ⟨row', hrow, Rewrites.same⟩
    · exact ⟨row, hrow, Rewrites.spent ⟨haccount, hnamed⟩⟩
  | applySpendUpdates accountId spendUpdates fallbackEntries txMeta =>
    refine AutoTable.RowsFrom.evolves (fun row' hrow' => ?_)
      (foldl_spendById_nextId spendUpdates tables.db.notes).ge
    obtain ⟨middle, hmiddle, hsecond⟩ := spendByNullifier_rowsFrom accountId
      (BulkMap.insertAll ∅ fallbackEntries) _ row' hrow'
    obtain ⟨row, hrow, hfirst⟩ := foldl_spendById_rowsFrom spendUpdates tables.db.notes middle hmiddle
    refine ⟨row, hrow, ?_⟩
    rcases hsecond with rfl | ⟨txid, haccount, hnamed, rfl⟩
    · rcases hfirst with rfl | ⟨txid, hmem, rfl⟩
      · exact Rewrites.same
      · exact Rewrites.spent (Or.inl hmem)
    · rcases hfirst with rfl | ⟨first, hmem, rfl⟩
      · exact Rewrites.spent (Or.inr ⟨haccount, hnamed⟩)
      · have hspent : Rewrites tables
            (.applySpendUpdates accountId spendUpdates fallbackEntries txMeta) row
            (row.spendBy txid) := Rewrites.spent (Or.inr ⟨haccount, hnamed⟩)
        exact hspent
  | _ => exact absurd rfl hwrites

/-- Only a fold removes rows. -/
theorem execute_ids (hclears : statement.clears = false)
    (h : tables.execute statement = (reply, after)) {row : NoteRow}
    (hrow : row ∈ tables.db.notes.rows) :
    (∃ row' ∈ after.db.notes.rows, row'.id = row.id) ∨
      ∃ accountId outputs, statement = .prepareNoteUpserts accountId outputs := by
  have hafter : after = (tables.execute statement).2 := congrArg Prod.snd h.symm
  have hids : ∀ {notes : Notes}, notes.rows.map (·.id) = tables.db.notes.rows.map (·.id) →
      ∃ row' ∈ notes.rows, row'.id = row.id := by
    intro notes heq
    have hid : row.id ∈ notes.rows.map (·.id) := by
      rw [heq]
      exact List.mem_map_of_mem hrow
    exact List.mem_map.mp hid
  have hsame : after.db.notes = tables.db.notes →
      (∃ row' ∈ after.db.notes.rows, row'.id = row.id) ∨
        ∃ accountId outputs, statement = .prepareNoteUpserts accountId outputs :=
    fun heq => Or.inl ⟨row, by rw [heq]; exact hrow, rfl⟩
  rw [hafter] at hsame ⊢
  by_cases hwrites : statement.writesNotes = false
  · exact hsame (execute_keeps_notes hwrites)
  cases statement with
  | truncateAboveHeight now height => cases hclears
  | releaseExpiredNotes accountId localHeight => cases hclears
  | prepareNoteUpserts accountId outputs => exact Or.inr ⟨accountId, outputs, rfl⟩
  | updateNote read note =>
    have hwritten : (tables.db.notes.updateNoteById note).rows.map (·.id) =
        tables.db.notes.rows.map (·.id) := AutoTable.updateWhere_ids _ _ _ _
    exact Or.inl (hids hwritten)
  | insertNote note => exact Or.inl ⟨row, List.mem_append_left _ hrow, rfl⟩
  | markNotesSpent accountId entries =>
    exact Or.inl (hids (spendByNullifier_ids _ _ _))
  | applySpendUpdates accountId spendUpdates fallbackEntries txMeta =>
    exact Or.inl (hids ((spendByNullifier_ids _ _ _).trans (foldl_spendById_ids _ _)))
  | _ => exact absurd rfl hwrites

end Statements

/-! ## Runs -/

section Marks

variable {ι : Type} [DecidableEq ι] {calls : ι → NoteCall} {tables : NoteTables}

/-- The calls before their first statement. -/
def startNoteCalls (calls : ι → NoteCall) (tables : NoteTables) : NoteMachine ι :=
  .start (fun i => (calls i).program) tables

/-- The runs whose steps are all `allowed`. -/
abbrev RunsTo (allowed : NoteMachine ι → Event ι NoteStatement NoteStatement.Reply → Prop) :
    NoteMachine ι → NoteMachine ι → Prop :=
  Machine.Reach NoteTables.Executes allowed

/-- One step of one call. -/
abbrev NoteStep (m : NoteMachine ι) (e : Event ι NoteStatement NoteStatement.Reply)
    (m' : NoteMachine ι) : Prop :=
  Machine.Step NoteTables.Executes m e m'

/-- The versions of rows that a call has read, inserted or written so far. -/
def NoteMachine.known (m : NoteMachine ι) (i : ι) : List NoteRow :=
  Machine.viewOf writerMonitor (Machine.own i m.history)

/-- What a step of a call in progress does to the notes, and from what it does it. -/
theorem step_evolves {m m' : NoteMachine ι} {e : Event ι NoteStatement NoteStatement.Reply}
    (hreach : RunsTo (fun _ _ => True) (startNoteCalls calls tables) m) (hstep : NoteStep m e m') :
    WritesKnown (m.known e.thread) e.stmt ∧ (e.stmt.clears = false →
      AutoTable.Evolves (Rewrites m.shared e.stmt) m.shared.db.notes m'.shared.db.notes) := by
  refine ⟨Machine.permits_of_reach (fun i => (calls i).program_obeys) hreach hstep, ?_⟩
  intro hclears
  obtain ⟨k, after, -, hexec⟩ := hstep
  rcases hexec with ⟨error, -, rfl⟩ | hexec
  · exact .refl (fun row => Rewrites.same) _
  · exact execute_evolves hclears hexec

/-- A property of rows that every rewriting keeps stays with the row throughout a run. -/
theorem kept_of_runsTo {P : NoteRow → Prop}
    {allowed : NoteMachine ι → Event ι NoteStatement NoteStatement.Reply → Prop}
    (hclears : ∀ m e, allowed m e → e.stmt.clears = false)
    (hkeeps : ∀ m e, allowed m e → WritesKnown (m.known e.thread) e.stmt →
      ∀ row ∈ m.shared.db.notes.rows, ∀ row', Rewrites m.shared e.stmt row row' → P row → P row')
    {m₁ m₂ : NoteMachine ι} (hreach : RunsTo (fun _ _ => True) (startNoteCalls calls tables) m₁)
    (hrun : RunsTo allowed m₁ m₂) :
    AutoTable.Evolves (fun row row' => row'.id = row.id ∧ (P row → P row')) m₁.shared.db.notes
      m₂.shared.db.notes := by
  have htrans : ∀ x y z : NoteRow, (y.id = x.id ∧ (P x → P y)) → (z.id = y.id ∧ (P y → P z)) →
      z.id = x.id ∧ (P x → P z) :=
    fun x y z hxy hyz => ⟨hyz.1.trans hxy.1, fun hx => hyz.2 (hxy.2 hx)⟩
  induction hrun with
  | refl => exact .refl (fun row => ⟨rfl, id⟩) _
  | @tail m m' hbefore hstep ih =>
    obtain ⟨e, hstep, hallowed⟩ := hstep
    have hsofar : RunsTo (fun _ _ => True) (startNoteCalls calls tables) m :=
      hreach.trans (Machine.Reach.mono (fun _ _ _ => trivial) hbefore)
    obtain ⟨hwrites, hevolves⟩ := step_evolves hsofar hstep
    refine ih.trans htrans (fun x y h => h.1) ?_
    obtain ⟨hnext, hrows⟩ := hevolves (hclears m e hallowed)
    refine ⟨hnext, fun row' hrow' => (hrows row' hrow').imp_right ?_⟩
    rintro ⟨row, hrow, hrewrites⟩
    exact ⟨row, hrow, hrewrites.id_eq, hkeeps m e hallowed hwrites row hrow row' hrewrites⟩

/-- A row that is folded away leaves its mark to the fold. -/
theorem marked_of_removed {m m' : NoteMachine ι} {e : Event ι NoteStatement NoteStatement.Reply}
    (hstep : NoteStep m e m') (hclears : e.stmt.clears = false) (hagrees : e.stmt.Agrees m.shared)
    {row : NoteRow} (hrow : row ∈ m.shared.db.notes.rows) {txid : Bytes}
    (hmarked : row.MarkedBy txid)
    (hremoved : ∀ row' ∈ m'.shared.db.notes.rows, row'.id ≠ row.id) :
    ∃ row' ∈ m'.shared.db.notes.rows, row'.accountId = row.accountId ∧
      row'.outputKey = row.outputKey ∧ row'.MarkedBy txid := by
  obtain ⟨k, after, -, hexec⟩ := hstep
  rcases hexec with ⟨error, -, rfl⟩ | hexec
  · exact absurd rfl (hremoved row hrow)
  rcases execute_ids hclears hexec hrow with ⟨row', hrow', hid⟩ | ⟨accountId, outputs, hprepare⟩
  · exact absurd hid (hremoved row' hrow')
  obtain ⟨thread, statement, reply⟩ := e
  obtain rfl : statement = .prepareNoteUpserts accountId outputs := hprepare
  have hafter : after.db.notes = (m.shared.db.notes.prepareNoteUpserts accountId outputs).2 :=
    congrArg (fun result => result.2.db.notes) hexec.symm
  have hprepared := prepareNoteUpserts_spec accountId outputs m.shared.db.notes
  have hwanted : row.accountId = accountId ∧ row.outputKey ∈ outputs := by
    by_contra hother
    refine hremoved row ?_ rfl
    show row ∈ after.db.notes.rows
    rw [hafter]
    exact (hprepared.others row hother).mpr hrow
  obtain ⟨row', hrow', hkey⟩ :=
    hprepared.covered row (Notes.mem_ofAccount.mpr ⟨hrow, hwanted.1⟩) hwanted.2
  obtain ⟨hmem, haccount⟩ := Notes.mem_ofAccount.mp ((hprepared.found row').mp hrow').1
  have hfolded := hprepared.folded row' hrow'
  rw [hkey] at hfolded
  refine ⟨row', ?_, haccount.trans hwanted.1.symm, hkey, ?_⟩
  · show row' ∈ after.db.notes.rows
    rw [hafter]
    exact hmem
  · exact Rewrites.marked_of_folded hagrees hrow hwanted.1 hwanted.2 hfolded hmarked

/-- **Marks last.** Whatever the calls and however their statements interleave: as long as nothing
truncates or releases notes, every row that is written back was marked, when the call read it, as
it is now, and no other transaction is named for rows that are marked, a row marked spent by a
transaction stays marked by it for as long as it is stored; when it is folded into another row of
its output, that row is marked by it. What is written back was read, inserted or written by the
same call before. -/
theorem marks_last (calls : ι → NoteCall) (tables : NoteTables) (m₁ m₂ : NoteMachine ι)
    (hreach : RunsTo (fun _ _ => True) (startNoteCalls calls tables) m₁)
    (hrun : RunsTo (fun m e => e.stmt.clears = false ∧ e.stmt.Fresh m.shared ∧
      e.stmt.Agrees m.shared) m₁ m₂) :
    (∀ row ∈ m₁.shared.db.notes.rows, ∀ txid, row.MarkedBy txid →
      ∀ row' ∈ m₂.shared.db.notes.rows, row'.id = row.id → row'.MarkedBy txid) ∧
    (∀ e m₃, NoteStep m₂ e m₃ → e.stmt.clears = false → e.stmt.Agrees m₂.shared →
      ∀ row ∈ m₂.shared.db.notes.rows, ∀ txid, row.MarkedBy txid →
        (∀ row' ∈ m₃.shared.db.notes.rows, row'.id ≠ row.id) →
        ∃ row' ∈ m₃.shared.db.notes.rows, row'.accountId = row.accountId ∧
          row'.outputKey = row.outputKey ∧ row'.MarkedBy txid) ∧
    ∀ e m₃, NoteStep m₂ e m₃ → ∀ read note, e.stmt = .updateNote read note →
      read ∈ m₂.known e.thread ∧ note.id = read.id := by
  refine ⟨?_, ?_, ?_⟩
  · intro row hrow txid hmarked row' hrow' hid
    have hevolves : AutoTable.Evolves (fun x y : NoteRow =>
        y.id = x.id ∧ (x.MarkedBy txid → y.MarkedBy txid)) m₁.shared.db.notes m₂.shared.db.notes :=
      kept_of_runsTo (fun m e h => h.1) (fun m e h hwrites x hx y hrewrites =>
        hrewrites.marked_of_marked h.2.1 h.2.2 hwrites hx) hreach hrun
    exact (hevolves.rel (fun x y h => h.1) hrow hrow' hid).2 hmarked
  · exact fun e m₃ hstep hclears hagrees row hrow txid hmarked hremoved =>
      marked_of_removed hstep hclears hagrees hrow hmarked hremoved
  · intro e m₃ hstep read note hstmt
    have hsofar : RunsTo (fun _ _ => True) (startNoteCalls calls tables) m₂ :=
      hreach.trans (Machine.Reach.mono (fun _ _ _ => trivial) hrun)
    have hwrites := (step_evolves hsofar hstep).1
    rw [hstmt] at hwrites
    exact ⟨hwrites.1, hwrites.2.1⟩

end Marks

/-! ## A view of the balances between a note and its spend -/

/-- Every note has the address `a`, which was derived by the key group 7. -/
def oneAddress : BalanceQuery where
  addressOf _ _ := some "a"
  recover _ _ := some (7, AddressTable.zeroIndex, .external)
  onNetwork _ _ := true
  accountId := 1
  keyId := none
  ironwoodActive := false
  createdAt := 1

/-- A wallet with one note, which no address is recorded for yet. -/
def unfiledNote : NoteTables where
  db := { WalletDb.fresh "t" with
    notes := (Notes.insertNote
      { accountId := 1, keyId := some 7, noteType := .sapling, value := 5,
        nullifier := List.replicate 32 1, commitment := [1], spent := false, height := 10,
        txid := [9], outputIndex := 0, addressId := none, spentTxid := none, diversifier := none,
        note := some [1], position := none, memo := none } AutoTable.empty).2 }
  addresses := AddressStore.fresh.table
  intents := []

/-- The view of the balances, and the report of the note's spend by a broadcast. -/
def viewAndReport : Bool → NoteCall
  | false => .listAddressBalances oneAddress
  | true => .markNotesSpent 1 [(List.replicate 32 1, [8])]

/-- The machine after a schedule of the two calls, the view being `false`. -/
def viewedNote (schedule : List Bool) : NoteMachine Bool :=
  schedule.foldl (Machine.fire NoteTables.execute) (startNoteCalls viewAndReport unfiledNote)

theorem executes_execute (tables : NoteTables) (statement : NoteStatement) :
    tables.Executes statement (tables.execute statement).1 (tables.execute statement).2 :=
  Or.inr rfl

theorem runsTo_viewedNote (schedule : List Bool) :
    RunsTo (fun _ _ => True) (startNoteCalls viewAndReport unfiledNote) (viewedNote schedule) :=
  Machine.reach_schedule executes_execute (fun _ _ => trivial) _ schedule

/-- A batch that brings the note again, with its position. -/
def noteAgain : PersistQuery where
  notes := [⟨.sapling, 10, [9], [9], 0, 5, [1], List.replicate 32 1, none, some 7, [], [1], some 3⟩]
  blocks := []
  positionMappings := ⟨∅, ∅⟩
  addressId _ := none
  insertFails _ := false
  timestamp := 1
  now := "t"
  accountId := 1
  addressOf _ := none

/-- The batch, and the report of the note's spend by a broadcast. -/
def rescanAndReport : Bool → NoteCall
  | false => .persistNotes noteAgain
  | true => .markNotesSpent 1 [(List.replicate 32 1, [8])]

/-- The machine after a schedule of the two calls, the batch being `false`. -/
def rescannedNote (schedule : List Bool) : NoteMachine Bool :=
  schedule.foldl (Machine.fire NoteTables.execute) (startNoteCalls rescanAndReport unfiledNote)

/-- A batch that reads the row after the report writes it back with its position and its mark. -/
theorem marks_last_rescanned :
    (∃ row ∈ (rescannedNote [true]).shared.db.notes.rows,
      row.id = 1 ∧ row.position = none ∧ row.MarkedBy [8]) ∧
    (∃ row' ∈ (rescannedNote [true, false, false, false, false]).shared.db.notes.rows,
      row'.id = 1 ∧ row'.position = some 3) ∧
    ∀ row' ∈ (rescannedNote [true, false, false, false, false]).shared.db.notes.rows,
      row'.id = 1 → row'.MarkedBy [8] := by
  have hmarked : ∃ row ∈ (rescannedNote [true]).shared.db.notes.rows,
      row.id = 1 ∧ row.position = none ∧ row.spent = true ∧ row.spentTxid = some [8] := by
    decide +kernel
  obtain ⟨row, hrow, hid, hposition, hspent⟩ := hmarked
  refine ⟨⟨row, hrow, hid, hposition, hspent⟩, by decide +kernel, fun row' hrow' hid' => ?_⟩
  refine (marks_last rescanAndReport unfiledNote (rescannedNote [true])
    (rescannedNote [true, false, false, false, false])
    (Machine.reach_schedule executes_execute (fun _ _ => trivial) _ [true]) ?_).1 row hrow [8] hspent
      row' hrow' (hid'.trans hid.symm)
  obtain ⟨_, hprepare⟩ : ∃ reply, NoteStep (rescannedNote [true])
      ⟨false, .prepareNoteUpserts 1 noteAgain.candidateOutputKeys, reply⟩
      (rescannedNote [true, false]) := ⟨_, Machine.step_fire executes_execute rfl⟩
  obtain ⟨_, hconsume⟩ : ∃ reply, NoteStep (rescannedNote [true, false])
      ⟨false, .consumeUnlinkedSpends 1 noteAgain.candidateUnlinkedSpendKeys, reply⟩
      (rescannedNote [true, false, false]) := ⟨_, Machine.step_fire executes_execute rfl⟩
  obtain ⟨_, htransaction⟩ : ∃ reply, NoteStep (rescannedNote [true, false, false])
      ⟨false, .upsertTransaction (hexEncode [9]) 10 1 0, reply⟩
      (rescannedNote [true, false, false, false]) := ⟨_, Machine.step_fire executes_execute rfl⟩
  obtain ⟨read, note, _, hupdate, hread, hnote⟩ : ∃ read note reply,
      NoteStep (rescannedNote [true, false, false, false]) ⟨false, .updateNote read note, reply⟩
        (rescannedNote [true, false, false, false, false]) ∧
      (read.spent = true ∧ read.spentTxid = some [8]) ∧ note.spentTxid = some [8] :=
    ⟨_, _, _, Machine.step_fire executes_execute rfl, ⟨rfl, rfl⟩, rfl⟩
  have hbefore : ∀ row ∈ (rescannedNote [true]).shared.db.notes.rows,
      row.spentTxid = some [8] := by decide +kernel
  have hwritten : ∀ row ∈ (rescannedNote [true, false, false, false]).shared.db.notes.rows,
      row.spentTxid = some [8] := by decide +kernel
  refine .tail (.tail (.tail (.single ⟨_, hprepare, rfl, trivial, ?_⟩)
    ⟨_, hconsume, rfl, trivial, fun _ _ _ _ _ hnames => hnames.elim⟩)
    ⟨_, htransaction, rfl, trivial, fun _ _ _ _ _ hnames => hnames.elim⟩)
    ⟨_, hupdate, rfl, ?_, ?_⟩
  · rintro row hrow txid ⟨-, htxid⟩ named ⟨-, -, other, hother, hnamed⟩
    have hstored := hbefore other (Notes.mem_rowsOf.mp hother).1
    exact Option.some.inj ((hnamed.symm.trans hstored).trans ((hbefore row hrow).symm.trans htxid))
  · exact fun row hrow _ _ => ⟨hread.1, hread.2.trans (hwritten row hrow).symm⟩
  · rintro row hrow txid - named ⟨-, hnamed, hother⟩
    exact absurd (hread.2.trans (hnote.symm.trans hnamed)) hother

/-- **A mark is lost.** The view reads the note, the report marks it, and the view writes the row
back with its address: without any truncation or release, the note is unspent again. -/
theorem view_clears_mark :
    ∃ m₁ m₂, RunsTo (fun _ _ => True) (startNoteCalls viewAndReport unfiledNote) m₁ ∧
      RunsTo (fun _ _ => True) m₁ m₂ ∧ (∀ e ∈ m₂.history, e.stmt.clears = false) ∧
      (m₁.shared.db.notes.rows.map fun row => (row.id, row.spent, row.spentTxid)) =
        [(1, true, some [8])] ∧
      (m₂.shared.db.notes.rows.map fun row => (row.id, row.spent, row.spentTxid)) =
        [(1, false, none)] := by
  refine ⟨viewedNote [false, true], viewedNote [false, true, false, false, false, false, false, false],
    runsTo_viewedNote _, ?_, ?_, ?_, ?_⟩
  · exact Machine.reach_schedule executes_execute (fun _ _ => trivial) (viewedNote [false, true])
      [false, false, false, false, false, false]
  · decide +kernel
  · decide +kernel
  · decide +kernel

end StashiWallet
