import StashiWallet.BatchWriters
import StashiWallet.NoteMerge
import StashiWallet.PersistReplay

/-!
# What becomes of a spend without a note

A spend that is seen before its note is kept in `unlinked_spend_nullifiers`. Four calls touch
these rows or the notes they are for, each of which can be cut short: a transaction of theirs
is committed or not, and a call that makes several writes can stop between any two.

A spend that has been stored should not get lost. It does where a batch is cut between the
transaction that takes it out and the write of its note, or where that write is refused and
skipped. It is kept in every run whose batches write what they take out, whose notes keep
their nullifiers, and whose calls name one transaction for each nullifier.
-/

namespace StashiWallet

/-! ## Reconciliation -/

/-- `list_unlinked_spend_nullifiers_with_txid`, on the decrypted rows. -/
def listUnlinkedSpends (accountId : Int) (spends : UnlinkedSpends) :
    List (NoteType × Bytes × Bytes) :=
  (((spends.rows.filter (fun row => row.accountId == accountId && row.nullifier.length == 32 &&
    !row.nullifier.all (· == 0) && row.spendingTxid.length == 32)).map
    (fun row => (row.noteType, row.nullifier, row.spendingTxid))).insertionSort
    (fun a b => listedBefore a b)).dedup

/-- The first transaction of `reconcile_unlinked_spend_nullifiers_with_notes`. The pool of an
entry does not matter here. -/
def WalletDb.markUnlinkedSpends (accountId : Int) (entries : List (NoteType × Bytes × Bytes))
    (db : WalletDb) : WalletDb :=
  { db with
    notes := db.notes.spendByNullifier accountId
      (BulkMap.insertAll ∅ (entries.map (fun entry => entry.2))) }

/-- The nullifiers of notes that carry the spend of their entry. -/
def Notes.resolvedSpends (accountId : Int) (entries : List (NoteType × Bytes × Bytes))
    (notes : Notes) : List TypedNullifier :=
  let expected := BulkMap.insertAll ∅
    (entries.map (fun (noteType, nullifier, txid) => ((noteType, nullifier), txid)))
  ((notes.ofAccount accountId).filter (fun row => row.nullifier.length == 32 && row.spent &&
    (expected.lookup (row.noteType, row.nullifier)).any (fun txid => row.spentTxid == some txid))
    ).map (fun row => (row.noteType, row.nullifier))

/-- The second transaction of `reconcile_unlinked_spend_nullifiers_with_notes`. -/
def WalletDb.deleteResolvedSpends (accountId : Int) (resolved : List TypedNullifier)
    (db : WalletDb) : WalletDb :=
  { db with
    unlinkedSpends := db.unlinkedSpends.deleteWhere (fun row => row.accountId == accountId &&
      row.nullifier.length == 32 && resolved.contains (row.noteType, row.nullifier)) }

/-! ## Calls that may be cut short -/

/-- Where a reconciliation ends: before its first write, after the notes are marked, or when it has
finished. -/
inductive ReconcileStop where
  | start
  | marked
  | finished
deriving DecidableEq

/-- `reconcile_unlinked_spend_nullifiers_with_notes`. -/
def WalletDb.reconcileUnlinkedSpends (accountId : Int) (stop : ReconcileStop) (db : WalletDb) :
    WalletDb :=
  let entries := listUnlinkedSpends accountId db.unlinkedSpends
  if entries.isEmpty then db
  else
    let marked := db.markUnlinkedSpends accountId entries
    match stop with
    | .start => db
    | .marked => marked
    | .finished =>
      marked.deleteResolvedSpends accountId (marked.notes.resolvedSpends accountId entries)

/-- Where `persist_notes_with_db` ends: before its first write, with the rows of the batch
folded, with the recorded spends taken out and the given number of notes written, or at its
end. -/
inductive PersistStop where
  | start
  | folded
  | notes (count : Nat)
  | finished
deriving DecidableEq

/-- `persist_notes_with_db`, as far as it gets. -/
def PersistInput.persistUntil (input : PersistInput) (accountId : Int) (stop : PersistStop)
    (db : WalletDb) : WalletDb :=
  if input.notes.isEmpty then db
  else match stop with
    | .start => db
    | .folded => { db with notes := (input.initial accountId db).notes }
    | .notes count =>
      let state := (input.notes.take count).foldl
        (input.persistNote accountId (input.unlinkedSpends accountId db))
        (input.initial accountId db)
      { db with
        notes := state.notes
        transactions := state.transactions
        unlinkedSpends := (consumeUnlinkedSpendsForNullifiers accountId
          input.candidateUnlinkedSpendKeys db.unlinkedSpends).2 }
    | .finished => (input.persistNotesWithDb accountId db).2

/-- The calls; `done` says that the one transaction of a call is committed. -/
inductive SpendCall where
  | persistNotes (accountId : Int) (input : PersistInput) (stop : PersistStop)
  | upsertUnlinked (accountId now : Int) (entries : List (NoteType × Bytes × Bytes)) (done : Bool)
  | applySpends (accountId : Int) (spendUpdates : List (Nat × Bytes))
      (fallbackEntries : List (Bytes × Bytes)) (txMeta : List (String × Int × Int × Int))
      (done : Bool)
  | reconcile (accountId : Int) (stop : ReconcileStop)

def WalletDb.spendCall (db : WalletDb) : SpendCall → WalletDb
  | .persistNotes accountId input stop => input.persistUntil accountId stop db
  | .upsertUnlinked accountId now entries done =>
    if done then { db with
      unlinkedSpends := upsertUnlinkedSpendNullifiersWithTxid accountId now entries
        db.unlinkedSpends }
    else db
  | .applySpends accountId spendUpdates fallbackEntries txMeta done =>
    if done then
      (db.applySpendUpdatesWithTxmeta accountId spendUpdates fallbackEntries txMeta).2
    else db
  | .reconcile accountId stop => db.reconcileUnlinkedSpends accountId stop

/-! ## Spends that are kept -/

/-- A spend of an account: the pool, the nullifier and the spending transaction. -/
structure Spend where
  accountId : Int
  noteType : NoteType
  nullifier : Bytes
  txid : Bytes
deriving DecidableEq

/-- The spend an unlinked row stands for. -/
def UnlinkedSpendRow.spend (row : UnlinkedSpendRow) : Spend :=
  ⟨row.accountId, row.noteType, row.nullifier, row.spendingTxid⟩

/-- The row is spent, by the transaction of the spend. -/
structure NoteRow.Carries (spend : Spend) (row : NoteRow) : Prop where
  accountId : row.accountId = spend.accountId
  noteType : row.noteType = spend.noteType
  nullifier : row.nullifier = spend.nullifier
  spent : row.spent = true
  spentTxid : row.spentTxid = some spend.txid

/-- A note carries the spend. -/
def Notes.Carry (spend : Spend) (notes : Notes) : Prop := ∃ row ∈ notes.rows, row.Carries spend

/-- The spend is stored, as an unlinked row or with a note. -/
def WalletDb.Holds (spend : Spend) (db : WalletDb) : Prop :=
  (∃ row ∈ db.unlinkedSpends.rows, row.spend = spend) ∨ db.notes.Carry spend

/-- Every spend stored as an unlinked row in a state of the run is held in all later ones. -/
def KeepsSpends (db : WalletDb) (calls : List SpendCall) : Prop :=
  ∀ done rest, calls = done ++ rest →
    ∀ row ∈ (Runs.run WalletDb.spendCall db done).unlinkedSpends.rows,
      Runs.Throughout WalletDb.spendCall (WalletDb.Holds row.spend)
        (Runs.run WalletDb.spendCall db done) rest

/-! ## What is asked of the calls -/

/-- The notes of a batch keep the nullifiers of rows that a spend is recorded for: the rows of
one output agree on the nullifier and the spending transaction, and the batch on the former. -/
structure PersistInput.KeepsNullifiers (input : PersistInput) (accountId : Int) (db : WalletDb) :
    Prop where
  rows : ∀ n ∈ input.notes, n.txid.isEmpty = false →
    ∀ row ∈ db.notes.rowsOf accountId n.outputKey, row.spentTxid.isSome = true →
      n.nullifier = row.nullifier ∧
      ∀ other ∈ db.notes.rowsOf accountId n.outputKey, other.nullifier = row.nullifier ∧
        (other.spentTxid.isSome = true → other.spentTxid = row.spentTxid)
  batch : ∀ n ∈ input.notes, ∀ m ∈ input.notes, m.txid.isEmpty = false →
    m.outputKey = n.outputKey →
    (n.linkedSpend (input.unlinkedSpends accountId db)).isSome = true → m.nullifier = n.nullifier

/-- Every spend a batch takes out is carried by a row already, or written with a note among the
first ones of the batch. -/
def PersistInput.WritesConsumed (input : PersistInput) (accountId : Int) (count : Nat)
    (db : WalletDb) : Prop :=
  ∀ noteType nullifier txid,
    (input.unlinkedSpends accountId db).lookup (noteType, nullifier) = some txid →
    db.notes.Carry ⟨accountId, noteType, nullifier, txid⟩ ∨
    ∃ n ∈ input.notes.take count, n.noteType = noteType ∧ n.nullifier = nullifier ∧
      n.txid.isEmpty = false ∧ input.insertFails n = false

/-- The call loses no spend, if each nullifier is spent by the transaction `spender` names. -/
def WalletDb.LosesNoSpend (spender : Bytes → Bytes) (db : WalletDb) : SpendCall → Prop
  | .persistNotes accountId input stop =>
    match stop with
    | .start => True
    | .folded => input.KeepsNullifiers accountId db
    | .notes count =>
      input.KeepsNullifiers accountId db ∧ input.WritesConsumed accountId count db
    | .finished =>
      input.KeepsNullifiers accountId db ∧
        input.WritesConsumed accountId input.notes.length db
  | .upsertUnlinked _ _ entries done =>
    done = true → ∀ entry ∈ entries, entry.2.2 = spender entry.2.1
  | .applySpends _ spendUpdates fallbackEntries _ done =>
    done = true →
      (∀ update ∈ spendUpdates, ∀ row ∈ db.notes.rows, row.id = update.1 →
        update.2 = spender row.nullifier) ∧
      ∀ entry ∈ fallbackEntries, entry.2 = spender entry.1
  | .reconcile .. => True

/-! ## Unlinked rows -/

/-- Every unlinked row names the spending transaction of its nullifier. -/
def UnlinkedSpends.Named (spender : Bytes → Bytes) (spends : UnlinkedSpends) : Prop :=
  ∀ row ∈ spends.rows, row.spendingTxid = spender row.nullifier

/-- The loop of `consume_unlinked_spends_for_nullifiers` finds a transaction for every row it
reads, and none that no row has. -/
theorem foldl_firstSpend (rows : List UnlinkedSpendRow)
    (found : AList (fun _ : TypedNullifier => Bytes)) :
    let result := rows.foldl (fun (found : AList (fun _ : TypedNullifier => Bytes)) row =>
      match found.lookup (row.noteType, row.nullifier) with
      | some _ => found
      | none => found.insert (row.noteType, row.nullifier) row.spendingTxid) found
    (∀ key txid, result.lookup key = some txid → found.lookup key = some txid ∨
      ∃ row ∈ rows, (row.noteType, row.nullifier) = key ∧ row.spendingTxid = txid) ∧
    (∀ key, (found.lookup key).isSome = true → (result.lookup key).isSome = true) ∧
    ∀ row ∈ rows, (result.lookup (row.noteType, row.nullifier)).isSome = true := by
  induction rows generalizing found with
  | nil =>
    exact ⟨fun _ _ h => Or.inl h, fun _ h => h, fun _ hrow => absurd hrow List.not_mem_nil⟩
  | cons row rest ih =>
    dsimp only
    rw [List.foldl_cons]
    cases hfound : found.lookup (row.noteType, row.nullifier) with
    | some known =>
      obtain ⟨hfrom, hkeeps, hall⟩ := ih found
      refine ⟨?_, hkeeps, ?_⟩
      · intro key txid hlookup
        rcases hfrom key txid hlookup with hold | ⟨other, hother, heq⟩
        · exact Or.inl hold
        · exact Or.inr ⟨other, List.mem_cons_of_mem _ hother, heq⟩
      · rw [List.forall_mem_cons]
        exact ⟨hkeeps _ (by rw [hfound]; rfl), hall⟩
    | none =>
      obtain ⟨hfrom, hkeeps, hall⟩ := ih (found.insert (row.noteType, row.nullifier)
        row.spendingTxid)
      refine ⟨?_, ?_, ?_⟩
      · intro key txid hlookup
        rcases hfrom key txid hlookup with hold | ⟨other, hother, heq⟩
        · by_cases hkey : key = (row.noteType, row.nullifier)
          · subst hkey
            rw [AList.lookup_insert, Option.some.injEq] at hold
            exact Or.inr ⟨row, List.mem_cons_self, rfl, hold⟩
          · rw [AList.lookup_insert_ne hkey] at hold
            exact Or.inl hold
        · exact Or.inr ⟨other, List.mem_cons_of_mem _ hother, heq⟩
      · intro key hsome
        refine hkeeps key ?_
        by_cases hkey : key = (row.noteType, row.nullifier)
        · rw [hkey, AList.lookup_insert]
          rfl
        · rw [AList.lookup_insert_ne hkey]
          exact hsome
      · rw [List.forall_mem_cons]
        refine ⟨hkeeps _ ?_, hall⟩
        rw [AList.lookup_insert]
        rfl

section Consume

variable {accountId : Int} {nullifiers : List TypedNullifier} {spends : UnlinkedSpends}

/-- What is taken out comes from rows of the account for usable nullifiers. -/
theorem lookup_consumed {noteType : NoteType} {nullifier txid : Bytes}
    (h : (consumeUnlinkedSpendsForNullifiers accountId nullifiers spends).1.lookup
      (noteType, nullifier) = some txid) :
    usableNullifier nullifier = true ∧ ∃ row ∈ spends.rows,
      row.spend = ⟨accountId, noteType, nullifier, txid⟩ := by
  rcases (foldl_firstSpend _ ∅).1 _ _ h with hempty | ⟨row, hrow, hkey, htxid⟩
  · cases hempty
  · obtain ⟨hmem, hmatch⟩ := List.mem_filter.mp hrow
    obtain ⟨rfl, rfl⟩ := Prod.mk.inj hkey
    simp only [Bool.and_eq_true, beq_iff_eq, List.contains_eq_mem, decide_eq_true_eq,
      List.mem_filter] at hmatch
    obtain ⟨⟨⟨haccount, hlength⟩, _, hzero⟩, _⟩ := hmatch
    refine ⟨?_, row, hmem, ?_⟩
    · unfold usableNullifier
      rw [Bool.and_eq_true]
      exact ⟨beq_iff_eq.mpr hlength, hzero⟩
    · unfold UnlinkedSpendRow.spend
      rw [haccount, htxid]

/-- A row stays or is taken out. -/
theorem consumed_or_kept {row : UnlinkedSpendRow} (hrow : row ∈ spends.rows) :
    row ∈ (consumeUnlinkedSpendsForNullifiers accountId nullifiers spends).2.rows ∨
      (row.accountId = accountId ∧ ((consumeUnlinkedSpendsForNullifiers accountId nullifiers
        spends).1.lookup (row.noteType, row.nullifier)).isSome = true) := by
  unfold consumeUnlinkedSpendsForNullifiers
  dsimp only
  generalize hmatching : (row.accountId == accountId && row.nullifier.length == 32 &&
    (nullifiers.filter (fun key => !key.2.all (· == 0))).contains (row.noteType, row.nullifier) &&
    row.spendingTxid.length == 32) = matching
  cases matching with
  | true =>
    refine Or.inr ⟨?_, (foldl_firstSpend _ ∅).2.2 row (List.mem_filter.mpr ⟨hrow, hmatching⟩)⟩
    simp only [Bool.and_eq_true, beq_iff_eq] at hmatching
    exact hmatching.1.1.1
  | false =>
    exact Or.inl (List.mem_filter.mpr ⟨hrow, congrArg not hmatching⟩)

theorem UnlinkedSpends.Named.consume {spender : Bytes → Bytes} (h : spends.Named spender) :
    (consumeUnlinkedSpendsForNullifiers accountId nullifiers spends).2.Named spender :=
  fun row hrow => h row (List.mem_of_mem_filter hrow)

theorem UnlinkedSpends.Named.lookup {spender : Bytes → Bytes} (h : spends.Named spender)
    {noteType : NoteType} {nullifier txid : Bytes}
    (hlookup : (consumeUnlinkedSpendsForNullifiers accountId nullifiers spends).1.lookup
      (noteType, nullifier) = some txid) : txid = spender nullifier := by
  obtain ⟨_, row, hrow, hspend⟩ := lookup_consumed hlookup
  unfold UnlinkedSpendRow.spend at hspend
  obtain ⟨_, _, rfl, rfl⟩ := Spend.mk.inj hspend
  exact h row hrow

end Consume

/-! ### Upserts -/

/-- The index of the upsert: it names stored rows, and of a row that is dropped another one with
the same nullifier is kept. -/
structure SpendIndex (rows : List UnlinkedSpendRow)
    (index : AList (fun _ : TypedNullifier => Nat × Bytes) × List Nat) : Prop where
  named : ∀ noteType nullifier id txid, index.1.lookup (noteType, nullifier) = some (id, txid) →
    ∃ row ∈ rows, row.id = id ∧ row.noteType = noteType ∧ row.nullifier = nullifier ∧
      row.spendingTxid = txid ∧ id ∉ index.2
  dropped : ∀ id ∈ index.2, ∃ row ∈ rows, row.id = id ∧
    (index.1.lookup (row.noteType, row.nullifier)).isSome = true

theorem foldl_index {rows : List UnlinkedSpendRow} (hnodup : (rows.map (·.id)).Nodup) :
    SpendIndex rows (rows.foldl
      (fun (index : AList (fun _ : TypedNullifier => Nat × Bytes) × List Nat) row =>
        match index.1.lookup (row.noteType, row.nullifier) with
        | some _ => (index.1, index.2 ++ [row.id])
        | none => (index.1.insert (row.noteType, row.nullifier) (row.id, row.spendingTxid),
            index.2))
      (∅, [])) := by
  induction rows using List.reverseRecOn with
  | nil => exact ⟨fun _ _ _ _ h => (by cases h), fun _ h => (by cases h)⟩
  | append_singleton rows row ih =>
    rw [List.map_append, List.nodup_append] at hnodup
    obtain ⟨hrows, _, hfresh⟩ := hnodup
    have hother : ∀ other ∈ rows, other.id ≠ row.id := fun other hin =>
      hfresh other.id (List.mem_map_of_mem hin) row.id (List.mem_singleton_self _)
    have hinv := ih hrows
    rw [List.foldl_append, List.foldl_cons, List.foldl_nil]
    generalize rows.foldl _ _ = index at hinv
    have hnotDropped : row.id ∉ index.2 := by
      intro hin
      obtain ⟨other, hin, heq, _⟩ := hinv.dropped row.id hin
      exact hother other hin heq
    cases hfound : index.1.lookup (row.noteType, row.nullifier) with
    | some known =>
      constructor
      · intro noteType nullifier id txid hlookup
        obtain ⟨other, hin, hid, htype, hnullifier, htxid, hkept⟩ :=
          hinv.named noteType nullifier id txid hlookup
        refine ⟨other, List.mem_append_left _ hin, hid, htype, hnullifier, htxid, ?_⟩
        intro hin'
        rcases List.mem_append.mp hin' with hin' | hin'
        · exact hkept hin'
        · exact hother other hin (hid.trans (List.mem_singleton.mp hin'))
      · intro id hin
        rcases List.mem_append.mp hin with hin | hin
        · obtain ⟨other, hin, hid, hsome⟩ := hinv.dropped id hin
          exact ⟨other, List.mem_append_left _ hin, hid, hsome⟩
        · refine ⟨row, List.mem_append_right _ (List.mem_singleton_self row),
            (List.mem_singleton.mp hin).symm, ?_⟩
          show (index.1.lookup (row.noteType, row.nullifier)).isSome = true
          rw [hfound]
          rfl
    | none =>
      constructor
      · intro noteType nullifier id txid hlookup
        by_cases hkey : (noteType, nullifier) = (row.noteType, row.nullifier)
        · obtain ⟨rfl, rfl⟩ := Prod.mk.inj hkey
          rw [AList.lookup_insert, Option.some.injEq, Prod.mk.injEq] at hlookup
          obtain ⟨rfl, rfl⟩ := hlookup
          exact ⟨row, List.mem_append_right _ (List.mem_singleton_self row), rfl, rfl, rfl, rfl,
            hnotDropped⟩
        · rw [AList.lookup_insert_ne hkey] at hlookup
          obtain ⟨other, hin, hrest⟩ := hinv.named noteType nullifier id txid hlookup
          exact ⟨other, List.mem_append_left _ hin, hrest⟩
      · intro id hin
        obtain ⟨other, hin, hid, hsome⟩ := hinv.dropped id hin
        refine ⟨other, List.mem_append_left _ hin, hid, ?_⟩
        by_cases hkey : (other.noteType, other.nullifier) = (row.noteType, row.nullifier)
        · rw [hkey, AList.lookup_insert]
          rfl
        · rw [AList.lookup_insert_ne hkey]
          exact hsome

/-- The loop over the entries only adds rows, since no entry names another transaction than the
row of its nullifier. -/
theorem foldl_upsertUnlinkedSpend {accountId now : Int} {spender : Bytes → Bytes}
    {entries : List (NoteType × Bytes × Bytes)}
    (hentries : ∀ entry ∈ entries, entry.2.2 = spender entry.2.1)
    {index : AList (fun _ : TypedNullifier => Nat × Bytes)}
    (hindex : ∀ noteType nullifier id txid,
      index.lookup (noteType, nullifier) = some (id, txid) → txid = spender nullifier)
    {spends : UnlinkedSpends} (hnamed : spends.Named spender) :
    (∀ row ∈ spends.rows,
        row ∈ (entries.foldl (upsertUnlinkedSpend accountId now) (index, spends)).2.rows) ∧
      (entries.foldl (upsertUnlinkedSpend accountId now) (index, spends)).2.Named spender := by
  induction entries generalizing spends with
  | nil => exact ⟨fun _ hrow => hrow, hnamed⟩
  | cons entry rest ih =>
    obtain ⟨hentry, hrest⟩ := List.forall_mem_cons.mp hentries
    obtain ⟨noteType, nullifier, txid⟩ := entry
    rw [List.foldl_cons]
    unfold upsertUnlinkedSpend
    dsimp only
    split
    · exact ih hrest hnamed
    split
    · rename_i rowId current hlookup
      have hcurrent : current = txid := (hindex _ _ _ _ hlookup).trans hentry.symm
      rw [if_pos hcurrent]
      exact ih hrest hnamed
    · have hinserted : UnlinkedSpends.Named spender (AutoTable.insert
          (fun id => (⟨id, accountId, noteType, nullifier, txid, now, now⟩ : UnlinkedSpendRow))
          (fun _ => rfl) spends) := by
        intro row hrow
        rcases List.mem_append.mp hrow with hold | hnew
        · exact hnamed row hold
        · rw [List.mem_singleton.mp hnew]
          exact hentry
      obtain ⟨hkept, hafter⟩ := ih hrest hinserted
      exact ⟨fun row hrow => hkept row (List.mem_append_left _ hrow), hafter⟩

/-- An upsert whose entries name the spending transactions keeps every spend. -/
theorem upsertUnlinked_keeps {accountId now : Int} {spender : Bytes → Bytes}
    {entries : List (NoteType × Bytes × Bytes)}
    (hentries : ∀ entry ∈ entries, entry.2.2 = spender entry.2.1)
    {spends : UnlinkedSpends} (hnamed : spends.Named spender) :
    (∀ row ∈ spends.rows, ∃ row' ∈ (upsertUnlinkedSpendNullifiersWithTxid accountId now entries
        spends).rows, row'.spend = row.spend) ∧
      (upsertUnlinkedSpendNullifiersWithTxid accountId now entries spends).Named spender := by
  unfold upsertUnlinkedSpendNullifiersWithTxid
  split
  · exact ⟨fun row hrow => ⟨row, hrow, rfl⟩, hnamed⟩
  let own := spends.rows.filter (fun row => row.accountId == accountId &&
    row.nullifier.length == 32 && row.spendingTxid.length == 32)
  have hown : ∀ row ∈ own, row ∈ spends.rows ∧ row.accountId = accountId := by
    intro row hrow
    obtain ⟨hmem, hp⟩ := List.mem_filter.mp hrow
    simp only [Bool.and_eq_true, beq_iff_eq] at hp
    exact ⟨hmem, hp.1.1⟩
  have hindex : SpendIndex own (indexUnlinkedSpends accountId spends) :=
    foldl_index (spends.ids_nodup.sublist (List.filter_sublist.map _))
  generalize indexUnlinkedSpends accountId spends = index at hindex
  obtain ⟨existing, duplicateIds⟩ := index
  dsimp only
  have hnamed' : UnlinkedSpends.Named spender
      (spends.deleteWhere (fun row => duplicateIds.contains row.id)) :=
    fun row hrow => hnamed row (List.mem_of_mem_filter hrow)
  obtain ⟨hkept, hafter⟩ := @foldl_upsertUnlinkedSpend accountId now spender entries hentries
    existing (by
      intro noteType nullifier id txid hlookup
      obtain ⟨row, hrow, _, _, rfl, rfl, _⟩ := hindex.named _ _ _ _ hlookup
      exact hnamed row (hown row hrow).1) _ hnamed'
  refine ⟨?_, hafter⟩
  have hstays : ∀ row ∈ spends.rows, row.id ∉ duplicateIds →
      row ∈ (entries.foldl (upsertUnlinkedSpend accountId now)
        (existing, spends.deleteWhere (fun row => duplicateIds.contains row.id))).2.rows := by
    intro row hrow hnot
    exact hkept row (List.mem_filter.mpr ⟨hrow, by simpa using hnot⟩)
  intro row hrow
  by_cases hdropped : row.id ∈ duplicateIds
  · obtain ⟨same, hsame, hid, hsome⟩ := hindex.dropped row.id hdropped
    obtain ⟨hsameRow, haccount⟩ := hown same hsame
    obtain rfl := AutoTable.row_eq_of_id hsameRow hrow hid
    obtain ⟨⟨id, txid⟩, hlookup⟩ := Option.isSome_iff_exists.mp hsome
    obtain ⟨first, hfirst, rfl, htype, hnullifier, _, hnot⟩ := hindex.named _ _ _ _ hlookup
    obtain ⟨hfirstRow, hfirstAccount⟩ := hown first hfirst
    refine ⟨first, hstays first hfirstRow hnot, ?_⟩
    unfold UnlinkedSpendRow.spend
    rw [hfirstAccount, haccount, htype, hnullifier, hnamed first hfirstRow, hnamed same hrow,
      hnullifier]
  · exact ⟨row, hstays row hrow hdropped, rfl⟩

/-! ## Marks -/

/-- A write that leaves spent rows to their spender keeps what they carry. -/
theorem Notes.Carry.update {spend : Spend} {notes : Notes} (h : notes.Carry spend)
    {p : NoteRow → Bool} {txid : NoteRow → Bytes}
    (htxid : ∀ row ∈ notes.rows, p row = true → row.nullifier = spend.nullifier →
      txid row = spend.txid) :
    Notes.Carry spend (AutoTable.updateWhere p (fun row => row.spendBy (txid row))
      (fun _ => rfl) notes) := by
  obtain ⟨row, hrow, hcarries⟩ := h
  refine ⟨_, List.mem_map_of_mem hrow, ?_⟩
  split
  · rename_i hp
    exact ⟨hcarries.accountId, hcarries.noteType, hcarries.nullifier, rfl,
      congrArg some (htxid row hrow hp hcarries.nullifier)⟩
  · exact hcarries

theorem Notes.Carry.spendByNullifier {spender : Bytes → Bytes} {spend : Spend} {notes : Notes}
    (h : notes.Carry spend) (hspend : spend.txid = spender spend.nullifier) (accountId : Int)
    {entries : List (Bytes × Bytes)} (hentries : ∀ entry ∈ entries, entry.2 = spender entry.1) :
    (notes.spendByNullifier accountId (BulkMap.insertAll ∅ entries)).Carry spend := by
  refine h.update (fun row _ hp hnullifier => ?_)
  simp only [Bool.and_eq_true] at hp
  obtain ⟨txid, hlookup⟩ := Option.isSome_iff_exists.mp hp.2
  rw [hlookup]
  rcases BulkMap.mem_of_lookup_insertAll hlookup with hmem | hempty
  · have htxid := hentries _ hmem
    rw [hspend, ← hnullifier]
    exact htxid
  · cases hempty

theorem Notes.Carry.spendByIds {spender : Bytes → Bytes} {spend : Spend}
    (hspend : spend.txid = spender spend.nullifier) {updates : List (Nat × Bytes)}
    {notes : Notes} (h : notes.Carry spend)
    (hupdates : ∀ update ∈ updates, ∀ row ∈ notes.rows, row.id = update.1 →
      update.2 = spender row.nullifier) :
    (updates.foldl Notes.spendById notes).Carry spend := by
  induction updates generalizing notes with
  | nil => exact h
  | cons update rest ih =>
    obtain ⟨hfirst, hrest⟩ := List.forall_mem_cons.mp hupdates
    refine ih ?_ ?_
    · refine @Notes.Carry.update spend notes h _ (fun _ => update.2)
        (fun row hrow hp hnullifier => ?_)
      rw [hfirst row hrow (beq_iff_eq.mp hp), hspend, hnullifier]
    · intro other hother row hrow hid
      obtain ⟨old, hold, rfl⟩ := List.mem_map.mp hrow
      have hsame : ∀ txid : Bytes, (old.spendBy txid).nullifier = old.nullifier := fun _ => rfl
      split at hid
      · rename_i hp
        rw [if_pos hp, hsame]
        exact hrest other hother old hold hid
      · rename_i hp
        rw [if_neg hp]
        exact hrest other hother old hold hid

/-! ## Persisting a batch -/

section Persist

variable {input : PersistInput} {accountId : Int} {db : WalletDb}

theorem PersistInput.mem_candidateOutputKeys {key : OutputKey} :
    key ∈ input.candidateOutputKeys ↔
      ∃ n ∈ input.notes, n.txid.isEmpty = false ∧ n.outputKey = key := by
  unfold PersistInput.candidateOutputKeys
  simp only [List.mem_map, List.mem_filter, Bool.not_eq_true', and_assoc]

/-- The loop starts with an index that finds the one row of every output of the batch. -/
theorem PersistInput.initial_index (input : PersistInput) (accountId : Int) (db : WalletDb) :
    Indexed accountId input.notes (input.initial accountId db).existingByOutput
        (input.initial accountId db).notes ∧
      ∀ n ∈ input.notes, n.txid.isEmpty = false →
        ∀ a ∈ (input.initial accountId db).notes.ofAccount accountId, a.outputKey = n.outputKey →
        ∀ b ∈ (input.initial accountId db).notes.ofAccount accountId,
          b.outputKey = a.outputKey → b = a := by
  have hprepared := prepareNoteUpserts_spec accountId input.candidateOutputKeys db.notes
  have hwanted : ∀ n ∈ input.notes, n.txid.isEmpty = false →
      n.outputKey ∈ input.candidateOutputKeys := fun n hn htxid =>
    PersistInput.mem_candidateOutputKeys.mpr ⟨n, hn, htxid, rfl⟩
  refine ⟨indexed_of_found hprepared.found hprepared.one hwanted, ?_⟩
  intro n hn htxid a ha hkey
  exact hprepared.one a ha (hkey ▸ hwanted n hn htxid)

/-- Folding keeps what a row carries, if the rows of its output agree. -/
theorem PersistInput.KeepsNullifiers.fold (hkeeps : input.KeepsNullifiers accountId db)
    {spend : Spend} (h : db.notes.Carry spend) :
    (input.initial accountId db).notes.Carry spend := by
  obtain ⟨row, hrow, hcarries⟩ := h
  have hprepared := prepareNoteUpserts_spec accountId input.candidateOutputKeys db.notes
  by_cases hbatch : row.accountId = accountId ∧ row.outputKey ∈ input.candidateOutputKeys
  · obtain ⟨haccount, hwanted⟩ := hbatch
    obtain ⟨row', hrow', hkey⟩ :=
      hprepared.covered row (Notes.mem_ofAccount.mpr ⟨hrow, haccount⟩) hwanted
    obtain ⟨n, hn, htxid, hnkey⟩ := PersistInput.mem_candidateOutputKeys.mp hwanted
    have hfolded := hprepared.folded row' hrow'
    rw [hkey] at hfolded
    have hin : row ∈ db.notes.rowsOf accountId row.outputKey :=
      Notes.mem_rowsOf.mpr ⟨hrow, haccount, rfl⟩
    have hsome : row.spentTxid.isSome = true := by
      rw [hcarries.spentTxid]
      rfl
    have hagree := (hkeeps.rows n hn htxid row (hnkey ▸ hin) hsome).2
    rw [hnkey] at hagree
    obtain ⟨hafter, _⟩ := (hprepared.found row').mp hrow'
    obtain ⟨hafterRow, hafterAccount⟩ := Notes.mem_ofAccount.mp hafter
    refine ⟨row', hafterRow, ?_, ?_, ?_, ?_, ?_⟩
    · rw [hafterAccount, ← haccount]
      exact hcarries.accountId
    · have htype : row'.noteType = row.noteType := congrArg (fun key => key.2.2) hkey
      exact htype.trans hcarries.noteType
    · exact (hfolded.nullifier row.nullifier (fun other hother => (hagree other hother).1)).trans
        hcarries.nullifier
    · exact hfolded.spent row hin hcarries.spent
    · obtain ⟨txid, htxid'⟩ := Option.isSome_iff_exists.mp (hfolded.spentTxid_isSome row hin hsome)
      obtain ⟨other, hother, hotherTxid⟩ := hfolded.spentTxid txid htxid'
      have hsame := (hagree other hother).2 (by rw [hotherTxid]; rfl)
      rw [htxid', ← hotherTxid, hsame]
      exact hcarries.spentTxid
  · exact ⟨row, (hprepared.others row hbatch).mpr hrow, hcarries⟩

/-- What the loop keeps: it finds the one row of every output of the batch, and a row that a
spend is recorded for has the nullifier of the notes of its output. -/
structure BatchRows (input : PersistInput) (accountId : Int) (state : PersistState) : Prop where
  indexed : Indexed accountId input.notes state.existingByOutput state.notes
  one : ∀ n ∈ input.notes, n.txid.isEmpty = false →
    ∀ a ∈ state.notes.ofAccount accountId, a.outputKey = n.outputKey →
    ∀ b ∈ state.notes.ofAccount accountId, b.outputKey = a.outputKey → b = a
  aligned : ∀ n ∈ input.notes, n.txid.isEmpty = false →
    ∀ row ∈ state.notes.ofAccount accountId, row.outputKey = n.outputKey →
    row.spentTxid.isSome = true → n.nullifier = row.nullifier

theorem PersistInput.KeepsNullifiers.initial (hkeeps : input.KeepsNullifiers accountId db) :
    BatchRows input accountId (input.initial accountId db) := by
  have hprepared := prepareNoteUpserts_spec accountId input.candidateOutputKeys db.notes
  have hwanted : ∀ n ∈ input.notes, n.txid.isEmpty = false →
      n.outputKey ∈ input.candidateOutputKeys := fun n hn htxid =>
    PersistInput.mem_candidateOutputKeys.mpr ⟨n, hn, htxid, rfl⟩
  obtain ⟨hindexed, hone⟩ := input.initial_index accountId db
  refine ⟨hindexed, hone, ?_⟩
  intro n hn htxid row hrow hkey hsome
  have hcanonical := (hprepared.found row).mpr ⟨hrow, hkey ▸ hwanted n hn htxid⟩
  have hfolded := hprepared.folded row hcanonical
  rw [hkey] at hfolded
  obtain ⟨txid, htxid'⟩ := Option.isSome_iff_exists.mp hsome
  obtain ⟨old, hold, holdTxid⟩ := hfolded.spentTxid txid htxid'
  obtain ⟨hnullifier, hagree⟩ := hkeeps.rows n hn htxid old hold (by rw [holdTxid]; rfl)
  rw [hfolded.nullifier old.nullifier (fun other hother => (hagree other hother).1)]
  exact hnullifier

section Step

variable {unlinked : UnlinkedSpendMap} {state : PersistState} {n : DecryptedNote}

/-- A row is put for an output of the batch. -/
theorem BatchRows.put (h : BatchRows input accountId state) {after : PersistState} {new : NoteRow}
    (hput : PutsRow accountId n.outputKey new state.notes after.notes)
    (hindex : after.existingByOutput = state.existingByOutput.insert n.outputKey new)
    (hnew : new.spentTxid.isSome = true → ∀ m ∈ input.notes, m.txid.isEmpty = false →
      m.outputKey = n.outputKey → m.nullifier = new.nullifier) :
    BatchRows input accountId after where
  indexed := by
    rw [hindex]
    exact h.indexed.put hput
  one m hm hmtxid := hput.one (h.one m hm hmtxid)
  aligned := by
    intro m hm hmtxid row hrow hkey hsome
    rcases (hput.mem_ofAccount row).mp hrow with rfl | ⟨hrow, _⟩
    · exact hnew hsome m hm hmtxid (hkey.symm.trans hput.outputKey_eq)
    · exact h.aligned m hm hmtxid row hrow hkey hsome

/-- What a step of the loop keeps, and what it adds. -/
structure StepKeeps (spender : Bytes → Bytes) (input : PersistInput) (accountId : Int)
    (unlinked : UnlinkedSpendMap) (n : DecryptedNote) (state after : PersistState) : Prop where
  rows : BatchRows input accountId after
  keeps : ∀ spend, spend.txid = spender spend.nullifier → state.notes.Carry spend →
    after.notes.Carry spend
  writes : n.txid.isEmpty = false → input.insertFails n = false →
    ∀ txid, n.linkedSpend unlinked = some txid →
      after.notes.Carry ⟨accountId, n.noteType, n.nullifier, txid⟩

theorem link_spentTxid (linked : Option Bytes) (note : NoteRecord) :
    (note.link linked).spentTxid = linked.or note.spentTxid := by
  cases linked <;> rfl

/-- A row found for the note is brought up to date. -/
theorem BatchRows.update {spender : Bytes → Bytes} (h : BatchRows input accountId state)
    (hn : n ∈ input.notes) (htxid : n.txid.isEmpty = false)
    (hbatch : ∀ m ∈ input.notes, m.txid.isEmpty = false → m.outputKey = n.outputKey →
      (n.linkedSpend unlinked).isSome = true → m.nullifier = n.nullifier)
    (hspender : ∀ txid, n.linkedSpend unlinked = some txid → txid = spender n.nullifier)
    {existing : NoteRow} (hexisting : existing ∈ state.notes.ofAccount accountId)
    (hkey : existing.outputKey = n.outputKey) (addressId : Option Int) :
    StepKeeps spender input accountId unlinked n state
      (state.update unlinked n addressId existing) := by
  have hput := @putsRow_update accountId unlinked n state existing addressId
    (h.one n hn htxid existing hexisting hkey) hexisting hkey
  have hnullifier : (existing.upsert unlinked n addressId).nullifier = n.nullifier :=
    link_nullifier _ _
  have hspentTxid : (existing.upsert unlinked n addressId).spentTxid =
      (n.linkedSpend unlinked).or existing.spentTxid := link_spentTxid _ _
  have haligned : existing.spentTxid.isSome = true → ∀ m ∈ input.notes, m.txid.isEmpty = false →
      m.outputKey = n.outputKey → m.nullifier = existing.nullifier := by
    intro hsome m hm hmtxid hmkey
    exact h.aligned m hm hmtxid existing hexisting (hkey.trans hmkey.symm) hsome
  refine ⟨h.put hput rfl ?_, ?_, ?_⟩
  · intro hsome m hm hmtxid hmkey
    rw [hspentTxid, Option.isSome_or, Bool.or_eq_true] at hsome
    rw [hnullifier]
    rcases hsome with hlinked | hown
    · exact hbatch m hm hmtxid hmkey hlinked
    · exact (haligned hown m hm hmtxid hmkey).trans (haligned hown n hn htxid rfl).symm
  · rintro spend hspend ⟨row, hrow, hcarries⟩
    by_cases houtput : row.accountId = accountId ∧ row.outputKey = n.outputKey
    · obtain rfl := h.one n hn htxid existing hexisting hkey row
        (Notes.mem_ofAccount.mpr ⟨hrow, houtput.1⟩) (houtput.2.trans hkey.symm)
      have hsame : n.nullifier = row.nullifier :=
        haligned (by rw [hcarries.spentTxid]; rfl) n hn htxid rfl
      have htype : n.noteType = row.noteType :=
        (congrArg (fun key : OutputKey => key.2.2) hkey).symm
      refine ⟨row.upsert unlinked n addressId, (hput.rows _).mpr (Or.inl rfl), ?_, ?_, ?_, ?_, ?_⟩
      · exact (link_accountId _ _).trans hcarries.accountId
      · have hlink : (row.upsert unlinked n addressId).noteType = n.noteType :=
          congrArg (fun key : OutputKey => key.2.2) (upsert_outputKey hkey addressId)
        exact hlink.trans (htype.trans hcarries.noteType)
      · exact hnullifier.trans (hsame.trans hcarries.nullifier)
      · show ((row.refresh n addressId).toNoteRecord.link (n.linkedSpend unlinked)).spent = true
        cases n.linkedSpend unlinked with
        | some txid => rfl
        | none => exact hcarries.spent
      · rw [hspentTxid]
        cases hlinked : n.linkedSpend unlinked with
        | some txid =>
          show some txid = some spend.txid
          rw [hspender txid hlinked, hspend, hsame, hcarries.nullifier]
        | none => exact hcarries.spentTxid
    · exact ⟨row, (hput.rows row).mpr (Or.inr ⟨hrow, houtput⟩), hcarries⟩
  · intro _ _ txid hlinked
    refine ⟨existing.upsert unlinked n addressId, (hput.rows _).mpr (Or.inl rfl), ?_, ?_,
      hnullifier, ?_, ?_⟩
    · exact hput.accountId_eq
    · exact congrArg (fun key : OutputKey => key.2.2) hput.outputKey_eq
    · show ((existing.refresh n addressId).toNoteRecord.link (n.linkedSpend unlinked)).spent = true
      rw [hlinked]
      rfl
    · rw [hspentTxid, hlinked]
      rfl

/-- A note without a row gets one. -/
theorem BatchRows.create {spender : Bytes → Bytes} (h : BatchRows input accountId state)
    (hbatch : ∀ m ∈ input.notes, m.txid.isEmpty = false → m.outputKey = n.outputKey →
      (n.linkedSpend unlinked).isSome = true → m.nullifier = n.nullifier)
    (hnone : ∀ row ∈ state.notes.ofAccount accountId, row.outputKey ≠ n.outputKey) :
    StepKeeps spender input accountId unlinked n state
      (state.create unlinked n (input.newRecord accountId n)) := by
  have hput := @putsRow_create accountId unlinked n state (input.newRecord accountId n) rfl rfl
    hnone
  have hnullifier : ((input.newRecord accountId n).link (n.linkedSpend unlinked)).nullifier =
      n.nullifier := link_nullifier _ _
  have hspentTxid : ((input.newRecord accountId n).link (n.linkedSpend unlinked)).spentTxid =
      (n.linkedSpend unlinked).or none := link_spentTxid _ _
  refine ⟨h.put hput rfl ?_, ?_, ?_⟩
  · intro hsome m hm hmtxid hmkey
    rw [show NoteRecord.spentTxid _ = _ from hspentTxid, Option.isSome_or, Bool.or_eq_true] at hsome
    rw [show NoteRecord.nullifier _ = _ from hnullifier]
    exact hbatch m hm hmtxid hmkey (hsome.resolve_right Bool.false_ne_true)
  · rintro spend _ ⟨row, hrow, hcarries⟩
    refine ⟨row, (hput.rows row).mpr (Or.inr ⟨hrow, ?_⟩), hcarries⟩
    rintro ⟨haccount, hkey⟩
    exact hnone row (Notes.mem_ofAccount.mpr ⟨hrow, haccount⟩) hkey
  · intro _ _ txid hlinked
    refine ⟨_, (hput.rows _).mpr (Or.inl rfl), hput.accountId_eq, ?_, hnullifier, ?_, ?_⟩
    · exact congrArg (fun key : OutputKey => key.2.2) hput.outputKey_eq
    · show ((input.newRecord accountId n).link (n.linkedSpend unlinked)).spent = true
      rw [hlinked]
      rfl
    · rw [show NoteRecord.spentTxid _ = _ from hspentTxid, hlinked]
      rfl

end Step

section Loop

variable {spender : Bytes → Bytes}

theorem linkedSpend_spender (hnamed : db.unlinkedSpends.Named spender) {n : DecryptedNote}
    {txid : Bytes} (h : n.linkedSpend (input.unlinkedSpends accountId db) = some txid) :
    txid = spender n.nullifier := by
  unfold DecryptedNote.linkedSpend at h
  split at h
  · exact hnamed.lookup h
  · cases h

/-- **The step lemma of the loop.** -/
theorem BatchRows.persistNote {state : PersistState} (h : BatchRows input accountId state)
    (hkeeps : input.KeepsNullifiers accountId db) (hnamed : db.unlinkedSpends.Named spender)
    {n : DecryptedNote} (hn : n ∈ input.notes) :
    StepKeeps spender input accountId (input.unlinkedSpends accountId db) n state
      (input.persistNote accountId (input.unlinkedSpends accountId db) state n) := by
  have hidle : StepKeeps spender input accountId (input.unlinkedSpends accountId db) n state state →
      ∀ after : PersistState, after.notes = state.notes →
        after.existingByOutput = state.existingByOutput →
        StepKeeps spender input accountId (input.unlinkedSpends accountId db) n state after := by
    rintro ⟨⟨hindexed, hone, haligned⟩, hkept, hwritten⟩ after hnotes hindex
    refine ⟨⟨?_, ?_, ?_⟩, ?_, ?_⟩
    · rw [hnotes, hindex]
      exact hindexed
    · rw [hnotes]
      exact hone
    · rw [hnotes]
      exact haligned
    · rw [hnotes]
      exact hkept
    · rw [hnotes]
      exact hwritten
  unfold PersistInput.persistNote
  split
  · rename_i htxid
    exact ⟨h, fun _ _ hcarry => hcarry, fun hnot => absurd (htxid.symm.trans hnot) (by decide)⟩
  rename_i htxid
  have htxid' : n.txid.isEmpty = false := Bool.eq_false_iff.mpr htxid
  obtain ⟨hmetaNotes, hmetaIndex⟩ := upsertMeta_same input n state
  have hmeta : BatchRows input accountId (state.upsertMeta input n) := by
    constructor
    · rw [hmetaNotes, hmetaIndex]
      exact h.indexed
    · rw [hmetaNotes]
      exact h.one
    · rw [hmetaNotes]
      exact h.aligned
  have hbatch : ∀ m ∈ input.notes, m.txid.isEmpty = false → m.outputKey = n.outputKey →
      (n.linkedSpend (input.unlinkedSpends accountId db)).isSome = true →
      m.nullifier = n.nullifier := fun m hm => hkeeps.batch n hn m hm
  have hfound := hmeta.indexed n hn htxid'
  have hfrom : ∀ {after : PersistState},
      StepKeeps spender input accountId (input.unlinkedSpends accountId db) n
        (state.upsertMeta input n) after →
      StepKeeps spender input accountId (input.unlinkedSpends accountId db) n state after := by
    rintro after ⟨hrows, hkept, hwritten⟩
    rw [hmetaNotes] at hkept
    exact ⟨hrows, hkept, hwritten⟩
  dsimp only
  split
  · rename_i existing hexisting
    obtain ⟨hmem, hkey⟩ := (hfound existing).mp hexisting
    exact hfrom (hmeta.update hn htxid' hbatch (fun _ => linkedSpend_spender hnamed) hmem hkey _)
  · rename_i hmissing
    split
    · rename_i hfails
      refine ⟨hmeta, ?_, fun _ hnot => absurd (hfails.symm.trans hnot) (by decide)⟩
      rw [hmetaNotes]
      exact fun _ _ hcarry => hcarry
    · exact hfrom (hmeta.create hbatch (hmeta.indexed.none hn htxid' hmissing))

/-- The run lemma of the loop: what was carried is, and what was written is. -/
theorem BatchRows.loop (hkeeps : input.KeepsNullifiers accountId db)
    (hnamed : db.unlinkedSpends.Named spender) {todo : List DecryptedNote}
    (htodo : ∀ n ∈ todo, n ∈ input.notes) {state : PersistState}
    (h : BatchRows input accountId state) :
    (∀ spend, spend.txid = spender spend.nullifier → state.notes.Carry spend →
      (todo.foldl (input.persistNote accountId (input.unlinkedSpends accountId db))
        state).notes.Carry spend) ∧
    ∀ n ∈ todo, n.txid.isEmpty = false → input.insertFails n = false →
      ∀ txid, n.linkedSpend (input.unlinkedSpends accountId db) = some txid →
        (todo.foldl (input.persistNote accountId (input.unlinkedSpends accountId db))
          state).notes.Carry ⟨accountId, n.noteType, n.nullifier, txid⟩ := by
  induction todo generalizing state with
  | nil => exact ⟨fun _ _ hcarry => hcarry, fun _ hn => absurd hn List.not_mem_nil⟩
  | cons n rest ih =>
    obtain ⟨hn, hrest⟩ := List.forall_mem_cons.mp htodo
    have hstep := h.persistNote hkeeps hnamed hn
    obtain ⟨hkept, hwritten⟩ := ih hrest hstep.rows
    refine ⟨fun spend hspend hcarry => hkept spend hspend (hstep.keeps spend hspend hcarry), ?_⟩
    rw [List.forall_mem_cons]
    refine ⟨?_, hwritten⟩
    intro htxid hstored txid hlinked
    exact hkept _ (linkedSpend_spender hnamed hlinked) (hstep.writes htxid hstored txid hlinked)

/-- A batch that writes what it takes out keeps every spend. -/
theorem persist_holds (hkeeps : input.KeepsNullifiers accountId db)
    (hnamed : db.unlinkedSpends.Named spender) {count : Nat}
    (hwrites : input.WritesConsumed accountId count db) {spend : Spend}
    (hspend : spend.txid = spender spend.nullifier) (h : db.Holds spend) {after : WalletDb}
    (hnotes : after.notes = ((input.notes.take count).foldl
      (input.persistNote accountId (input.unlinkedSpends accountId db))
      (input.initial accountId db)).notes)
    (hspends : after.unlinkedSpends = (consumeUnlinkedSpendsForNullifiers accountId
      input.candidateUnlinkedSpendKeys db.unlinkedSpends).2) : after.Holds spend := by
  obtain ⟨hkept, hwritten⟩ := @BatchRows.loop input accountId db spender hkeeps hnamed
    (input.notes.take count) (fun n hn => List.mem_of_mem_take hn) _ hkeeps.initial
  have hcarried : db.notes.Carry spend → after.Holds spend := by
    intro hcarry
    refine Or.inr ?_
    rw [hnotes]
    exact hkept spend hspend (hkeeps.fold hcarry)
  rcases h with ⟨row, hrow, rfl⟩ | hcarry
  · rcases @consumed_or_kept accountId input.candidateUnlinkedSpendKeys _ row hrow with
      hstays | ⟨haccount, hsome⟩
    · exact Or.inl ⟨row, hspends ▸ hstays, rfl⟩
    · subst haccount
      obtain ⟨txid, hlookup⟩ := Option.isSome_iff_exists.mp hsome
      have htxid : txid = row.spendingTxid := (hnamed.lookup hlookup).trans (hnamed row hrow).symm
      subst htxid
      rcases hwrites row.noteType row.nullifier _ hlookup with hcarry | ⟨n, hn, htype, hnf, hrest⟩
      · exact hcarried hcarry
      · refine Or.inr ?_
        have hlinked : n.linkedSpend (input.unlinkedSpends row.accountId db) =
            some row.spendingTxid := by
          unfold DecryptedNote.linkedSpend
          rw [htype, hnf, if_pos (lookup_consumed hlookup).1]
          exact hlookup
        have hnew := hwritten n hn hrest.1 hrest.2 _ hlinked
        rw [htype, hnf] at hnew
        rw [hnotes]
        exact hnew
  · exact hcarried hcarry

end Loop

end Persist

/-! ## Reconciliation keeps -/

theorem mem_listUnlinkedSpends {accountId : Int} {spends : UnlinkedSpends}
    {entry : NoteType × Bytes × Bytes} (h : entry ∈ listUnlinkedSpends accountId spends) :
    ∃ row ∈ spends.rows, row.spend = ⟨accountId, entry.1, entry.2.1, entry.2.2⟩ := by
  unfold listUnlinkedSpends at h
  rw [List.mem_dedup, List.mem_insertionSort] at h
  obtain ⟨row, hrow, rfl⟩ := List.mem_map.mp h
  obtain ⟨hmem, hp⟩ := List.mem_filter.mp hrow
  simp only [Bool.and_eq_true, beq_iff_eq] at hp
  refine ⟨row, hmem, ?_⟩
  unfold UnlinkedSpendRow.spend
  rw [hp.1.1.1]

/-- A resolved nullifier has a note that carries the spend. -/
theorem carry_of_mem_resolvedSpends {accountId : Int} {spender : Bytes → Bytes}
    {entries : List (NoteType × Bytes × Bytes)}
    (hentries : ∀ entry ∈ entries, entry.2.2 = spender entry.2.1) {notes : Notes}
    {noteType : NoteType} {nullifier : Bytes}
    (h : (noteType, nullifier) ∈ notes.resolvedSpends accountId entries) :
    notes.Carry ⟨accountId, noteType, nullifier, spender nullifier⟩ := by
  obtain ⟨row, hrow, heq⟩ := List.mem_map.mp h
  obtain ⟨rfl, rfl⟩ := Prod.mk.inj heq
  obtain ⟨hmem, hp⟩ := List.mem_filter.mp hrow
  obtain ⟨hmem, haccount⟩ := Notes.mem_ofAccount.mp hmem
  simp only [Bool.and_eq_true] at hp
  obtain ⟨⟨_, hspent⟩, hexpected⟩ := hp
  obtain ⟨txid, hlookup, htxid⟩ := (Option.any_eq_true _ _).mp hexpected
  have hnamed : txid = spender row.nullifier := by
    rcases BulkMap.mem_of_lookup_insertAll hlookup with hin | hempty
    · obtain ⟨entry, hentry, heq⟩ := List.mem_map.mp hin
      obtain ⟨hkey, rfl⟩ := Prod.mk.inj heq
      obtain ⟨_, hnf⟩ := Prod.mk.inj hkey
      rw [← hnf]
      exact hentries entry hentry
    · cases hempty
  exact ⟨row, hmem, haccount, rfl, rfl, hspent, (beq_iff_eq.mp htxid).trans (congrArg some hnamed)⟩

theorem reconcile_keeps {accountId : Int} {stop : ReconcileStop} {spender : Bytes → Bytes}
    {db : WalletDb} (hnamed : db.unlinkedSpends.Named spender) :
    (∀ spend, spend.txid = spender spend.nullifier → db.Holds spend →
      (db.reconcileUnlinkedSpends accountId stop).Holds spend) ∧
      (db.reconcileUnlinkedSpends accountId stop).unlinkedSpends.Named spender := by
  have hentries : ∀ entry ∈ listUnlinkedSpends accountId db.unlinkedSpends,
      entry.2.2 = spender entry.2.1 := by
    intro entry hentry
    obtain ⟨row, hrow, hspend⟩ := mem_listUnlinkedSpends hentry
    unfold UnlinkedSpendRow.spend at hspend
    obtain ⟨_, _, hnf, htxid⟩ := Spend.mk.inj hspend
    rw [← hnf, ← htxid]
    exact hnamed row hrow
  have hmarked : ∀ spend, spend.txid = spender spend.nullifier → db.notes.Carry spend →
      (db.markUnlinkedSpends accountId
        (listUnlinkedSpends accountId db.unlinkedSpends)).notes.Carry spend := by
    intro spend hspend hcarry
    refine hcarry.spendByNullifier hspend accountId ?_
    intro entry hentry
    obtain ⟨listed, hlisted, rfl⟩ := List.mem_map.mp hentry
    exact hentries listed hlisted
  unfold WalletDb.reconcileUnlinkedSpends
  dsimp only
  split
  · exact ⟨fun _ _ h => h, hnamed⟩
  cases stop with
  | start => exact ⟨fun _ _ h => h, hnamed⟩
  | marked => exact ⟨fun spend hspend h => h.imp_right (hmarked spend hspend), hnamed⟩
  | finished =>
    refine ⟨?_, fun row hrow => hnamed row (List.mem_of_mem_filter hrow)⟩
    rintro spend hspend (⟨row, hrow, rfl⟩ | hcarry)
    · generalize hdeleted : (row.accountId == accountId && row.nullifier.length == 32 &&
        ((db.markUnlinkedSpends accountId (listUnlinkedSpends accountId
          db.unlinkedSpends)).notes.resolvedSpends accountId (listUnlinkedSpends accountId
          db.unlinkedSpends)).contains (row.noteType, row.nullifier)) = deleted
      cases deleted with
      | false =>
        exact Or.inl ⟨row, List.mem_filter.mpr ⟨hrow, congrArg not hdeleted⟩, rfl⟩
      | true =>
        simp only [Bool.and_eq_true, beq_iff_eq, List.contains_eq_mem, decide_eq_true_eq]
          at hdeleted
        obtain ⟨⟨haccount, _⟩, hresolved⟩ := hdeleted
        have hcarry := carry_of_mem_resolvedSpends hentries hresolved
        rw [← hnamed row hrow] at hcarry
        subst haccount
        exact Or.inr hcarry
    · exact Or.inr (hmarked spend hspend hcarry)

/-! ## Runs -/

/-- **The step lemma.** A call that meets the condition keeps every spend, and the unlinked rows
named. -/
theorem spendCall_keeps {spender : Bytes → Bytes} {db : WalletDb} {call : SpendCall}
    (hnamed : db.unlinkedSpends.Named spender) (hcall : db.LosesNoSpend spender call) :
    (∀ spend, spend.txid = spender spend.nullifier → db.Holds spend →
      (db.spendCall call).Holds spend) ∧ (db.spendCall call).unlinkedSpends.Named spender := by
  have hidle : (∀ spend, spend.txid = spender spend.nullifier → db.Holds spend →
      db.Holds spend) ∧ db.unlinkedSpends.Named spender := ⟨fun _ _ h => h, hnamed⟩
  cases call with
  | persistNotes accountId input stop =>
    show (∀ spend, _ → _ → (input.persistUntil accountId stop db).Holds spend) ∧
      (input.persistUntil accountId stop db).unlinkedSpends.Named spender
    unfold PersistInput.persistUntil
    split
    · exact hidle
    rename_i hnotes
    cases stop with
    | start => exact hidle
    | folded =>
      have hkeeps : input.KeepsNullifiers accountId db := hcall
      exact ⟨fun spend _ h => h.imp_right hkeeps.fold, hnamed⟩
    | notes count =>
      obtain ⟨hkeeps, hwrites⟩ := hcall
      exact ⟨fun spend hspend h => persist_holds hkeeps hnamed hwrites hspend h rfl rfl,
        hnamed.consume⟩
    | finished =>
      obtain ⟨hkeeps, hwrites⟩ := hcall
      have hempty : input.notes.isEmpty = false := Bool.eq_false_iff.mpr hnotes
      have hspends := persistNotesWithDb_unlinkedSpends input accountId db hempty
      refine ⟨fun spend hspend h => persist_holds hkeeps hnamed hwrites hspend h ?_ hspends, ?_⟩
      · rw [List.take_length]
        exact persistNotesWithDb_notes input accountId db hempty
      · show UnlinkedSpends.Named spender (input.persistNotesWithDb accountId db).2.unlinkedSpends
        rw [hspends]
        exact hnamed.consume
  | upsertUnlinked accountId now entries done =>
    cases done with
    | false => exact hidle
    | true =>
      obtain ⟨hkept, hafter⟩ := @upsertUnlinked_keeps accountId now spender entries (hcall rfl)
        _ hnamed
      refine ⟨?_, hafter⟩
      rintro spend _ (⟨row, hrow, rfl⟩ | hcarry)
      · exact Or.inl (hkept row hrow)
      · exact Or.inr hcarry
  | applySpends accountId spendUpdates fallbackEntries txMeta done =>
    cases done with
    | false => exact hidle
    | true =>
      obtain ⟨hupdates, hentries⟩ := hcall rfl
      refine ⟨fun spend hspend h => h.imp_right (fun hcarry => ?_), hnamed⟩
      exact (hcarry.spendByIds hspend hupdates).spendByNullifier hspend accountId hentries
  | reconcile accountId stop => exact reconcile_keeps hnamed

/-- **No spend is lost,** in every run whose batches write what they take out and whose calls
name one spending transaction for each nullifier: a spend that is stored as an unlinked row in
some state is held in every later one. -/
theorem unlinked_spends_kept (spender : Bytes → Bytes) (db : WalletDb) (calls : List SpendCall)
    (hnamed : db.unlinkedSpends.Named spender)
    (hcalls : Runs.EachStep WalletDb.spendCall (WalletDb.LosesNoSpend spender) db calls) :
    KeepsSpends db calls := by
  intro done rest hsplit row hrow
  have hreached : Runs.Throughout WalletDb.spendCall
      (fun db => db.unlinkedSpends.Named spender) db calls :=
    Runs.run_invariant (fun db call h hcall => (spendCall_keeps h hcall).2) hnamed hcalls
  have hnamedDone := hreached done ⟨rest, hsplit.symm⟩
  have hspend := hnamedDone row hrow
  have hcallsRest : Runs.EachStep WalletDb.spendCall (WalletDb.LosesNoSpend spender)
      (Runs.run WalletDb.spendCall db done) rest := by
    rw [hsplit] at hcalls
    exact hcalls.second
  have hkept : Runs.Throughout WalletDb.spendCall
      (fun db => db.unlinkedSpends.Named spender ∧ db.Holds row.spend)
      (Runs.run WalletDb.spendCall db done) rest := by
    refine Runs.run_invariant (fun db call h hcall => ?_) ⟨hnamedDone, Or.inl ⟨row, hrow, rfl⟩⟩
      hcallsRest
    obtain ⟨hkeeps, hafter⟩ := spendCall_keeps h.1 hcall
    exact ⟨hafter, hkeeps row.spend hspend h.2⟩
  exact fun passed hpassed => (hkept passed hpassed).2

/-- A batch of one note, whose insert may be refused. -/
def singleBatch (refused : Bool) : PersistInput where
  notes := [twiceNote none]
  blocks := []
  positionMappings := ⟨∅, ∅⟩
  addressId := fun _ => some 4
  insertFails := fun _ => refused
  timestamp := 0
  now := "t"

/-- The spend of that note is stored before the note is. -/
def spendFirst (batch : PersistInput) (stop : PersistStop) : List SpendCall :=
  [.upsertUnlinked 1 0 [(.ironwood, List.replicate 32 5, List.replicate 32 9)] true,
    .persistNotes 1 batch stop]

/-- The batch that stores the note takes the spend over. -/
theorem unlinked_spends_kept_spend_first :
    KeepsSpends (WalletDb.fresh "t") (spendFirst (singleBatch false) .finished) := by
  refine unlinked_spends_kept (fun _ => List.replicate 32 9) _ _ (List.forall_mem_nil _) ?_
  refine Runs.eachStep_cons.mpr ⟨?_, Runs.eachStep_cons.mpr ⟨⟨?_, ?_⟩, Runs.eachStep_nil⟩⟩
  · exact fun _ => List.forall_mem_singleton.mpr rfl
  · constructor
    · intro _ _ _ row hrow
      exact absurd (List.mem_of_mem_filter hrow) List.not_mem_nil
    · intro n hn m hm _ _ _
      rw [List.mem_singleton.mp hn, List.mem_singleton.mp hm]
  · intro noteType nullifier txid hlookup
    obtain ⟨_, row, hrow, hspend⟩ := lookup_consumed hlookup
    rw [List.mem_singleton.mp hrow] at hspend
    obtain ⟨_, rfl, rfl, _⟩ := Spend.mk.inj hspend
    exact Or.inr ⟨twiceNote none, List.mem_singleton_self _, rfl, rfl, rfl, rfl⟩

/-- The insert of the note is refused and skipped, or the batch is cut after the spend was taken
out: no unlinked row and no note holds the spend. -/
theorem unlinked_spend_lost :
    ¬ KeepsSpends (WalletDb.fresh "t") (spendFirst (singleBatch true) .finished) ∧
      ¬ KeepsSpends (WalletDb.fresh "t") (spendFirst (singleBatch false) (.notes 0)) := by
  have hlost : ∀ batch stop,
      (Runs.run WalletDb.spendCall (WalletDb.fresh "t")
        (spendFirst batch stop)).unlinkedSpends.rows = [] →
      (Runs.run WalletDb.spendCall (WalletDb.fresh "t") (spendFirst batch stop)).notes.rows = [] →
      ¬ KeepsSpends (WalletDb.fresh "t") (spendFirst batch stop) := by
    intro batch stop hspends hnotes hkept
    have hholds := (hkept [.upsertUnlinked 1 0
      [(.ironwood, List.replicate 32 5, List.replicate 32 9)] true] [.persistNotes 1 batch stop] rfl
      _ List.mem_cons_self).last
    rw [← Runs.run_append] at hholds
    rcases hholds with ⟨row, hrow, _⟩ | ⟨row, hrow, _⟩
    · exact absurd (hspends ▸ hrow) List.not_mem_nil
    · exact absurd (hnotes ▸ hrow) List.not_mem_nil
  exact ⟨hlost _ _ (by decide +kernel) (by decide +kernel),
    hlost _ _ (by decide +kernel) (by decide +kernel)⟩

end StashiWallet
