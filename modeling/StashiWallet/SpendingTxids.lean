import StashiWallet.NoteRules
import StashiWallet.OutgoingExpiryRuns
import StashiWallet.UnlinkedSpendRuns

/-!
# Which transactions are recorded as spending

A note's row, and a spend that is kept aside for a note, name the spending transaction. No write
of the engine makes one up: after it every named transaction was named before, for the account,
or is in one of the blocks of the write. This is stated for whatever is known of the named
transactions (`WalletDb.SpendsIn`).
-/

namespace StashiWallet

section

variable (S : Int → Bytes → Prop)

/-- What is known holds of the spending transaction of the note. -/
def NoteRecord.SpendIn (note : NoteRecord) : Prop :=
  ∀ txid, note.spentTxid = some txid → S note.accountId txid

def Notes.SpendsIn (notes : Notes) : Prop := ∀ row ∈ notes.rows, row.SpendIn S

def UnlinkedSpends.SpendsIn (spends : UnlinkedSpends) : Prop :=
  ∀ row ∈ spends.rows, S row.accountId row.spendingTxid

/-- What is known holds of all spending transactions that are recorded. -/
structure WalletDb.SpendsIn (db : WalletDb) : Prop where
  notes : db.notes.SpendsIn S
  unlinked : db.unlinkedSpends.SpendsIn S

end

section Writes

variable {S : Int → Bytes → Prop} {accountId : Int}

theorem WalletDb.SpendsIn.mono {T : Int → Bytes → Prop} {db : WalletDb} (h : db.SpendsIn S)
    (hmono : ∀ accountId txid, S accountId txid → T accountId txid) : db.SpendsIn T where
  notes := fun row hrow txid htxid => hmono _ _ (h.notes row hrow txid htxid)
  unlinked := fun row hrow => hmono _ _ (h.unlinked row hrow)

/-! ## Rows -/

theorem Notes.SpendsIn.rowsFrom {R : NoteRow → NoteRow → Prop} {before after : Notes}
    (h : before.SpendsIn S) (hrows : AutoTable.RowsFrom R before after)
    (hR : ∀ row row', R row row' → row.SpendIn S → row'.SpendIn S) : after.SpendsIn S := by
  intro row' hrow'
  obtain ⟨row, hrow, hmove⟩ := hrows row' hrow'
  exact hR row row' hmove (h row hrow)

theorem Rederived.spendIn {recovered : List RecoveredSpend} {row row' : NoteRow}
    (h : Rederived recovered row row') (hrow : row.SpendIn S) : row'.SpendIn S := by
  intro txid htxid
  rw [h.accountId_eq]
  exact hrow txid (h.spentTxid_eq ▸ htxid)

theorem spendBy_spendIn {row : NoteRow} {txid : Bytes} (h : S row.accountId txid) :
    (row.spendBy txid).SpendIn S := by
  intro other hother
  obtain rfl := Option.some.inj hother
  exact h

theorem unspend_spendIn (row : NoteRow) : row.unspend.SpendIn S := by
  intro txid htxid
  cases htxid

theorem link_spendIn {note : NoteRecord} (h : note.SpendIn S) {spend : Option Bytes}
    (hspend : ∀ txid, spend = some txid → S note.accountId txid) : (note.link spend).SpendIn S := by
  cases spend with
  | some txid =>
    intro other hother
    obtain rfl := Option.some.inj hother
    exact hspend txid rfl
  | none => exact h

theorem FoldedFrom.spendIn {rows : List NoteRow} {folded : NoteRow} (h : FoldedFrom rows folded)
    (haccount : ∀ row ∈ rows, row.accountId = accountId) (hrows : ∀ row ∈ rows, row.SpendIn S) :
    folded.SpendIn S := by
  intro txid htxid
  obtain ⟨row, hrow, hspent⟩ := h.spentTxid txid htxid
  rw [h.accountId accountId haccount, ← haccount row hrow]
  exact hrows row hrow txid hspent

/-- Forgetting the spend of some rows makes up no spend. -/
theorem Notes.SpendsIn.unspendWhere {notes : Notes} (h : notes.SpendsIn S) (p : NoteRow → Bool) :
    Notes.SpendsIn S (notes.updateWhere p NoteRow.unspend (fun _ => rfl)) := by
  intro row hrow
  obtain ⟨old, hold, rfl⟩ := List.mem_map.mp hrow
  split
  · exact unspend_spendIn old
  · exact h old hold

/-! ## Persisting notes -/

/-- A batch keeps the names: a note is linked with a spend that was kept aside. -/
theorem WalletDb.SpendsIn.keeps {db : WalletDb} (h : db.SpendsIn S) (input : PersistInput)
    (accountId : Int) : input.Keeps (fun row => row.SpendIn S) accountId
      (input.unlinkedSpends accountId db) := by
  have hlinked : ∀ (n : DecryptedNote) txid,
      n.linkedSpend (input.unlinkedSpends accountId db) = some txid → S accountId txid := by
    intro n txid htxid
    unfold DecryptedNote.linkedSpend at htxid
    split at htxid
    · obtain ⟨-, row, hrow, hspend⟩ := lookup_consumed htxid
      obtain ⟨rfl, -, -, rfl⟩ := Spend.mk.inj hspend
      exact h.unlinked row hrow
    · cases htxid
  constructor
  · intro key rows folded _ hrows hfolded
    exact hfolded.spendIn (fun row hrow => (hrows row hrow).1) (fun row hrow => (hrows row hrow).2.2)
  · intro n _ existing haccount _ hexisting
    exact @link_spendIn S (existing.refresh n (input.addressId n)).toNoteRecord hexisting _
      (fun txid htxid => haccount ▸ hlinked n txid htxid)
  · intro n _ _
    exact @link_spendIn S (input.newRecord accountId n) (fun txid htxid => by cases htxid) _
      (hlinked n)

/-- **Persisting names no new transaction.** -/
theorem persistNotes_spendsIn {engine : SyncEngine} (h : engine.db.SpendsIn S)
    (input : PersistInput) : (engine.persistNotes input).db.SpendsIn S := by
  refine ⟨persistNotes_keeps h.notes (h.keeps input engine.accountId), ?_⟩
  unfold SyncEngine.persistNotes
  split
  · exact h.unlinked
  · rename_i hempty
    dsimp only
    unfold PersistInput.persistNotesWithDb
    rw [if_neg hempty]
    dsimp only
    have hunlinked : (consumeUnlinkedSpendsForNullifiers engine.accountId
        input.candidateUnlinkedSpendKeys engine.db.unlinkedSpends).2.SpendsIn S :=
      fun row hrow => h.unlinked row (List.mem_of_mem_filter hrow)
    unfold settle
    split
    · rename_i saved hsaved
      rw [saveSyncState_eq_ok hsaved]
      exact hunlinked
    · exact hunlinked

/-! ## Applying spends -/

/-- Marking rows names the transactions of the entries. -/
theorem Notes.SpendsIn.spendByNullifier {notes : Notes} (h : notes.SpendsIn S)
    {entries : List (Bytes × Bytes)}
    (hentries : ∀ entry ∈ entries, (∃ row ∈ notes.rows, row.accountId = accountId ∧
      row.nullifier = entry.1 ∧ row.nullifier.length = 32) → S accountId entry.2) :
    (notes.spendByNullifier accountId (BulkMap.insertAll ∅ entries)).SpendsIn S := by
  intro row hrow
  obtain ⟨old, hold, rfl⟩ := List.mem_map.mp hrow
  split
  · rename_i hmarked
    simp only [Bool.and_eq_true, beq_iff_eq] at hmarked
    obtain ⟨⟨haccount, hlength⟩, hfound⟩ := hmarked
    obtain ⟨txid, htxid⟩ := Option.isSome_iff_exists.mp hfound
    refine spendBy_spendIn ?_
    rw [htxid, haccount]
    rcases BulkMap.mem_of_lookup_insertAll htxid with hmem | hempty
    · exact hentries _ hmem ⟨old, hold, haccount, rfl, hlength⟩
    · cases hempty
  · exact h old hold

theorem Notes.SpendsIn.spendByIds {notes : Notes} (h : notes.SpendsIn S)
    {updates : List (Nat × Bytes)}
    (hupdates : ∀ update ∈ updates, ∀ accountId, S accountId update.2) :
    (updates.foldl Notes.spendById notes).SpendsIn S := by
  induction updates generalizing notes with
  | nil => exact h
  | cons update rest ih =>
    obtain ⟨hupdate, hrest⟩ := List.forall_mem_cons.mp hupdates
    refine ih ?_ hrest
    intro row hrow
    obtain ⟨old, hold, rfl⟩ := List.mem_map.mp hrow
    split
    · exact spendBy_spendIn (hupdate old.accountId)
    · exact h old hold

/-- What is kept aside names the transactions of the entries. -/
theorem UnlinkedSpends.SpendsIn.upsert {spends : UnlinkedSpends} (h : spends.SpendsIn S)
    {now : Int} {entries : List (NoteType × Bytes × Bytes)}
    (hentries : ∀ entry ∈ entries, ∀ accountId, S accountId entry.2.2) :
    (upsertUnlinkedSpendNullifiersWithTxid accountId now entries spends).SpendsIn S := by
  have hloop : ∀ (todo : List (NoteType × Bytes × Bytes))
      (state : AList (fun _ : TypedNullifier => Nat × Bytes) × UnlinkedSpends),
      (∀ entry ∈ todo, entry ∈ entries) → state.2.SpendsIn S →
        (todo.foldl (upsertUnlinkedSpend accountId now) state).2.SpendsIn S := by
    intro todo
    induction todo with
    | nil => exact fun _ _ hstate => hstate
    | cons entry rest ih =>
      intro state htodo hstate
      obtain ⟨hentry, hrest⟩ := List.forall_mem_cons.mp htodo
      refine ih _ hrest ?_
      unfold upsertUnlinkedSpend
      dsimp only
      split
      · exact hstate
      · split
        · split
          · exact hstate
          · intro row hrow
            obtain ⟨old, hold, rfl⟩ := List.mem_map.mp hrow
            split
            · exact hentries entry hentry old.accountId
            · exact hstate old hold
        · intro row hrow
          rcases List.mem_append.mp hrow with hold | hnew
          · exact hstate row hold
          · rw [List.mem_singleton.mp hnew]
            exact hentries entry hentry accountId
  unfold upsertUnlinkedSpendNullifiersWithTxid
  split
  · exact h
  · exact hloop entries _ (fun _ hentry => hentry)
      (fun row hrow => h row (List.mem_of_mem_filter hrow))

/-- The transactions a scan names are in its blocks. -/
structure NamesScanned (blocks : List CompactBlockData) (scan : SpendScan) : Prop where
  updates : ∀ update ∈ scan.spendUpdates, ∃ mined ∈ minedTransactions blocks, update.2 = mined.2
  unmatched : ∀ entry ∈ scan.spendNullifiers,
    ∃ mined ∈ minedTransactions blocks, entry.2.2 = mined.2

theorem scan_namesScanned (input : SpendInput) (cache : AList (fun _ : Bytes => Nat))
    (tracked : Finset Bytes) : NamesScanned input.blocks (input.scan cache tracked) := by
  have hloop : ∀ (todo : List (CompactBlockData × CompactTx)) (scan : SpendScan),
      (∀ entry ∈ todo, entry ∈ blockTransactions input.blocks) → NamesScanned input.blocks scan →
        NamesScanned input.blocks (todo.foldl (SpendScan.scanTx cache input.timestamp) scan) := by
    intro todo
    induction todo with
    | nil => exact fun _ _ hscan => hscan
    | cons entry rest ih =>
      intro scan htodo hscan
      obtain ⟨hentry, hrest⟩ := List.forall_mem_cons.mp htodo
      refine ih _ hrest ?_
      have hmined : (entry.1.height, entry.2.hash) ∈ minedTransactions input.blocks :=
        List.mem_map_of_mem (f := fun entry => (entry.1.height, entry.2.hash)) hentry
      obtain ⟨block, tx⟩ := entry
      unfold SpendScan.scanTx
      dsimp only
      split
      · exact hscan
      · refine ⟨?_, ?_⟩
        · intro update hupdate
          rcases List.mem_append.mp hupdate with hold | hnew
          · exact hscan.updates update hold
          · obtain ⟨found, -, rfl⟩ := List.mem_map.mp hnew
            exact ⟨_, hmined, rfl⟩
        · intro unmatched hunmatched
          rcases List.mem_append.mp hunmatched with hold | hnew
          · exact hscan.unmatched unmatched hold
          · obtain ⟨key, -, rfl⟩ := List.mem_map.mp hnew
            exact ⟨_, hmined, rfl⟩
  exact hloop _ _ (fun _ hentry => hentry) ⟨List.forall_mem_nil _, List.forall_mem_nil _⟩

/-- A recovered spend is by the transaction of an entry. -/
theorem recovered_txid {keys : SpendKeys} {entries : List (NoteType × Bytes × Bytes)}
    {db : WalletDb} {spend : RecoveredSpend}
    (h : spend ∈ (keys.rederiveUnmatchedSpends accountId entries db).1) :
    ∃ entry ∈ entries, entry.2.2 = spend.txid := by
  have hpool : ∀ (noteType : NoteType) (db : WalletDb),
      ∀ spend ∈ (rederivePool keys.derive accountId noteType entries db).recovered,
        ∃ entry ∈ entries, entry.2.2 = spend.txid := by
    intro noteType db
    -- the map of the loop has transactions of the entries only
    have hloop : ∀ (todo : List NoteRow) (state : Rederivation),
        (∀ nullifier txid, state.spendMap.lookup nullifier = some txid →
          ∃ entry ∈ entries, entry.2.2 = txid) →
        (∀ spend ∈ state.recovered, ∃ entry ∈ entries, entry.2.2 = spend.txid) →
        ∀ spend ∈ (todo.foldl (Rederivation.visit keys.derive noteType) state).recovered,
          ∃ entry ∈ entries, entry.2.2 = spend.txid := by
      intro todo
      induction todo with
      | nil => exact fun _ _ hrecovered => hrecovered
      | cons note rest ih =>
        intro state hmap hrecovered
        rw [List.foldl_cons]
        unfold Rederivation.visit
        split
        · exact ih state hmap hrecovered
        · rename_i nullifier keyId hfind
          have hfound : (state.spendMap.lookup nullifier).isSome = true := by
            simpa using List.find?_some hfind
          obtain ⟨txid, htxid⟩ := Option.isSome_iff_exists.mp hfound
          refine ih _ ?_ ?_
          · intro other otherTxid hother
            by_cases hsame : other = nullifier
            · rw [hsame, AList.lookup_erase] at hother
              cases hother
            · rw [AList.lookup_erase_ne hsame] at hother
              exact hmap other otherTxid hother
          · intro spend hspend
            rcases List.mem_append.mp hspend with hold | hnew
            · exact hrecovered spend hold
            · rw [List.mem_singleton.mp hnew, htxid]
              exact hmap nullifier txid htxid
    refine hloop _ _ ?_ (List.forall_mem_nil _)
    intro nullifier txid hlookup
    rcases BulkMap.mem_of_lookup_insertAll hlookup with hmem | hempty
    · obtain ⟨entry, hentry, heq⟩ := List.mem_map.mp hmem
      exact ⟨entry, List.mem_of_mem_filter (List.mem_reverse.mp hentry), congrArg Prod.snd heq⟩
    · cases hempty
  unfold SpendKeys.rederiveUnmatchedSpends at h
  dsimp only at h
  rcases List.mem_append.mp h with hsapling | horchard
  · split at hsapling
    · exact hpool _ _ spend hsapling
    · cases hsapling
  · split at horchard
    · exact hpool _ _ spend horchard
    · cases horchard

/-- **Applying spends names the transactions of its blocks only.** -/
theorem applySpends_spendsIn {engine : SyncEngine} (h : engine.db.SpendsIn S)
    {input : SpendInput}
    (hblocks : ∀ mined ∈ minedTransactions input.blocks, ∀ accountId, S accountId mined.2) :
    (engine.applySpends input).db.SpendsIn S := by
  let scan := input.scan engine.nullifierCache engine.trackedWalletTxids
  let derived := input.keys.rederiveUnmatchedSpends engine.accountId scan.unlinkedEntries engine.db
  let remaining := remainingEntries derived.1 scan.unlinkedEntries
  have hscan : NamesScanned input.blocks scan :=
    scan_namesScanned input engine.nullifierCache engine.trackedWalletTxids
  have hunlinked : ∀ entry ∈ scan.unlinkedEntries, ∀ accountId, S accountId entry.2.2 := by
    intro entry hentry accountId
    obtain ⟨mined, hmined, heq⟩ := hscan.unmatched entry (List.mem_of_mem_filter hentry)
    rw [heq]
    exact hblocks mined hmined accountId
  have hremaining : ∀ entry ∈ remaining, ∀ accountId, S accountId entry.2.2 :=
    fun entry hentry => hunlinked entry (List.mem_of_mem_filter hentry)
  have hupdates : ∀ update ∈ scan.spendUpdates ++
      derived.1.map (fun spend => (spend.id, spend.txid)), ∀ accountId, S accountId update.2 := by
    intro update hupdate accountId
    rcases List.mem_append.mp hupdate with hmatched | hrecovered
    · obtain ⟨mined, hmined, heq⟩ := hscan.updates update hmatched
      rw [heq]
      exact hblocks mined hmined accountId
    · obtain ⟨spend, hspend, rfl⟩ := List.mem_map.mp hrecovered
      obtain ⟨entry, hentry, heq⟩ := recovered_txid hspend
      exact heq ▸ hunlinked entry hentry accountId
  have hderived : derived.2.SpendsIn S := by
    refine ⟨h.notes.rowsFrom (rederiveUnmatchedSpends_spec _ _ _ _).1
      (fun _ _ hmove => hmove.spendIn), ?_⟩
    have hsame : derived.2.unlinkedSpends = engine.db.unlinkedSpends :=
      @rederiveUnmatchedSpends_frame _ WalletDb.unlinkedSpends (fun _ _ => rfl) _ _ _ _
    rw [hsame]
    exact h.unlinked
  have hkept : (input.keepUnlinked engine.accountId remaining derived.2).SpendsIn S := by
    unfold SpendInput.keepUnlinked
    split
    · exact hderived
    · exact ⟨hderived.notes, hderived.unlinked.upsert hremaining⟩
  unfold SyncEngine.applySpends
  split
  · exact h
  · dsimp only
    split
    · exact h
    · split
      · exact hkept
      · refine ⟨?_, hkept.unlinked⟩
        refine (hkept.notes.spendByIds hupdates).spendByNullifier ?_
        intro entry hentry _
        obtain ⟨kept, hin, rfl⟩ := List.mem_map.mp hentry
        exact hremaining kept hin engine.accountId

/-! ## The other writes -/

/-- A flush leaves what is kept aside alone. -/
theorem saveSyncState_unlinkedSpends (engine : SyncEngine) (blocks : List CompactBlockData)
    (flush : FlushInput) :
    (engine.write (.saveSyncState blocks flush)).db.unlinkedSpends = engine.db.unlinkedSpends := by
  simp only [SyncEngine.write]
  cases hsave : engine.db.saveSyncStateWithDb blocks flush with
  | error e => rfl
  | ok saved =>
    obtain ⟨stored, hstored, hsaved⟩ := bind_eq_ok hsave
    obtain ⟨_, -, hstored⟩ := bind_eq_ok hstored
    obtain ⟨moved, hmoved, hstored⟩ := bind_eq_ok hstored
    have hkept : stored.unlinkedSpends = engine.db.unlinkedSpends := by
      rw [saveSyncState_eq_ok hmoved] at hstored
      split at hstored
      · obtain rfl := Except.ok.inj hstored
        rfl
      · obtain ⟨_, -, hstored⟩ := bind_eq_ok hstored
        obtain rfl := Except.ok.inj hstored
        rfl
    split at hsaved
    · obtain rfl := Except.ok.inj hsaved
      exact hkept
    · obtain rfl := Except.ok.inj hsaved
      exact hkept

/-- **A write names no transaction that was not named before or is in its blocks.** -/
theorem write_spendsIn {engine : SyncEngine} (h : engine.db.SpendsIn S) {write : DurableWrite}
    (hblocks : ∀ mined ∈ minedTransactions write.blocks, ∀ accountId, S accountId mined.2) :
    (engine.write write).db.SpendsIn S := by
  cases write with
  | updateCommitmentTrees trees => exact ⟨h.notes, h.unlinked⟩
  | persistNotes input => exact persistNotes_spendsIn h input
  | applySpends input => exact applySpends_spendsIn h hblocks
  | createCheckpoint trees => exact ⟨h.notes, h.unlinked⟩
  | saveSyncState blocks flush =>
    refine ⟨?_, ?_⟩
    · rw [(saveSyncState_write engine blocks flush).1]
      exact h.notes
    · rw [saveSyncState_unlinkedSpends engine blocks flush]
      exact h.unlinked

/-- A truncation keeps the names of rows that are not above its height, without the transactions
it cuts away. -/
theorem truncated_spendsIn {db : WalletDb} {height : Nat} (now : String)
    (hnotes : ∀ row ∈ db.notes.rows, row.height ≤ (height : Int) → ∀ txid,
      row.spentTxid = some txid → ¬ (txid.length = 32 ∧
        txid ∈ collectTransactionTxidsAboveHeight db.transactions height) → S row.accountId txid)
    (hunlinked : ∀ row ∈ db.unlinkedSpends.rows, ¬ (row.spendingTxid.length = 32 ∧
      row.spendingTxid ∈ collectTransactionTxidsAboveHeight db.transactions height) →
        S row.accountId row.spendingTxid) :
    (db.truncated now height).SpendsIn S where
  notes := by
    intro row hrow
    obtain ⟨hreset, hlow⟩ := List.mem_filter.mp hrow
    obtain ⟨old, hold, rfl⟩ := List.mem_map.mp hreset
    split
    · exact unspend_spendIn old
    · rename_i hkept
      rw [if_neg hkept] at hlow
      intro txid htxid
      refine hnotes old hold (by simpa using hlow) txid htxid (fun hcut => hkept ?_)
      show old.spentByAny _ = true
      unfold NoteRecord.spentByAny
      rw [htxid]
      simpa using hcut
  unlinked := by
    intro row hrow
    obtain ⟨hold, hkept⟩ := List.mem_filter.mp hrow
    refine hunlinked row hold (fun hcut => ?_)
    simp [hcut.1, hcut.2] at hkept

end Writes

end StashiWallet
