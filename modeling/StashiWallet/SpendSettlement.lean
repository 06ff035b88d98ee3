import StashiWallet.SpendDetection

/-!
# What detecting spends does to rows and cache

Every row after `apply_spends` stems from a row before it. It is settled by the call, or it
is the row as it was, with the nullifier it had, and then the cache still finds it
(`applySpends_spec`). The argument goes stage by stage: what the scan collects, what the
transaction does to a row, what deriving nullifiers again does to one, and last how the
three fit together.
-/

namespace StashiWallet

/-! ## What the scan finds -/

section Scan

variable {cache : AList (fun _ : Bytes => Nat)} {timestamp : Int}

theorem mem_blockTransactions {blocks : List CompactBlockData} {block : CompactBlockData}
    {tx : CompactTx} :
    (block, tx) ∈ blockTransactions blocks ↔ block ∈ blocks ∧ tx ∈ block.transactions := by
  simp only [blockTransactions, List.mem_flatMap, List.mem_map, Prod.mk.injEq]
  constructor
  · rintro ⟨b, hb, t, ht, rfl, rfl⟩
    exact ⟨hb, ht⟩
  · rintro ⟨hb, ht⟩
    exact ⟨block, hb, tx, ht, rfl, rfl⟩

theorem mem_matches {tx : CompactTx} {found : TypedNullifier × Nat} :
    found ∈ tx.matches cache ↔
      found.1 ∈ tx.revealed ∧ cache.lookup found.1.2 = some found.2 := by
  simp only [CompactTx.matches, List.mem_filterMap, Option.map_eq_some_iff]
  constructor
  · rintro ⟨key, hkey, id, hid, rfl⟩
    exact ⟨hkey, hid⟩
  · rintro ⟨hkey, hid⟩
    exact ⟨found.1, hkey, found.2, hid, rfl⟩

/-- The nullifier is revealed by a transaction of the blocks that `apply_spends` reads. -/
def Reveals (blocks : List CompactBlockData) (nullifier : Bytes) : Prop :=
  ∃ block ∈ blocks, ∃ tx ∈ block.transactions, tx.hash.length = 32 ∧
    ∃ noteType, (noteType, nullifier) ∈ tx.revealed

/-- What holds of the scan after any number of transactions. -/
structure ScanInvariant (cache : AList (fun _ : Bytes => Nat)) (blocks : List CompactBlockData)
    (seen : List (CompactBlockData × CompactTx)) (scan : SpendScan) : Prop where
  complete : ∀ entry ∈ seen, entry.2.hash.length = 32 → ∀ key ∈ entry.2.revealed,
    ∀ id, cache.lookup key.2 = some id → (id, entry.2.hash) ∈ scan.spendUpdates
  matched : ∀ nullifier ∈ scan.matchedCacheNullifiers, ∃ id txid,
    cache.lookup nullifier = some id ∧ (id, txid) ∈ scan.spendUpdates
  unmatched : ∀ entry ∈ scan.spendNullifiers,
    Reveals blocks entry.2.1 ∧ cache.lookup entry.2.1 = none

theorem ScanInvariant.scanTx {blocks : List CompactBlockData}
    {seen : List (CompactBlockData × CompactTx)} {scan : SpendScan}
    {entry : CompactBlockData × CompactTx} (h : ScanInvariant cache blocks seen scan)
    (hentry : entry ∈ blockTransactions blocks) :
    ScanInvariant cache blocks (seen ++ [entry]) (scan.scanTx cache timestamp entry) := by
  obtain ⟨block, tx⟩ := entry
  obtain ⟨hblock, htx⟩ := mem_blockTransactions.mp hentry
  unfold SpendScan.scanTx
  dsimp only
  split
  · rename_i hlength
    refine ⟨?_, h.matched, h.unmatched⟩
    intro entry hmem hhash
    rcases List.mem_append.mp hmem with hmem | hmem
    · exact h.complete entry hmem hhash
    · rw [List.mem_singleton.mp hmem] at hhash
      exact absurd hhash hlength
  · rename_i hlength
    have hlength' : tx.hash.length = 32 := not_not.mp hlength
    refine ⟨?_, ?_, ?_⟩
    · intro entry hmem hhash key hkey id hid
      refine List.mem_append.mpr ?_
      rcases List.mem_append.mp hmem with hmem | hmem
      · exact .inl (h.complete entry hmem hhash key hkey id hid)
      · obtain rfl := List.mem_singleton.mp hmem
        exact .inr (List.mem_map.mpr ⟨(key, id), mem_matches.mpr ⟨hkey, hid⟩, rfl⟩)
    · intro nullifier hmem
      rcases List.mem_append.mp hmem with hmem | hmem
      · obtain ⟨id, txid, hid, hupdate⟩ := h.matched nullifier hmem
        exact ⟨id, txid, hid, List.mem_append.mpr (.inl hupdate)⟩
      · obtain ⟨found, hfound, rfl⟩ := List.mem_map.mp hmem
        exact ⟨found.2, tx.hash, (mem_matches.mp hfound).2,
          List.mem_append.mpr (.inr (List.mem_map.mpr ⟨found, hfound, rfl⟩))⟩
    · intro entry hmem
      rcases List.mem_append.mp hmem with hmem | hmem
      · exact h.unmatched entry hmem
      · obtain ⟨key, hkey, rfl⟩ := List.mem_map.mp hmem
        split at hkey
        · obtain ⟨hrevealed, hnone⟩ := List.mem_filter.mp hkey
          exact ⟨⟨block, hblock, tx, htx, hlength', key.1, hrevealed⟩,
            Option.isNone_iff_eq_none.mp hnone⟩
        · cases hkey

theorem scan_invariant (input : SpendInput) (tracked : Finset Bytes) :
    ScanInvariant cache input.blocks (blockTransactions input.blocks)
      (input.scan cache tracked) := by
  -- induction on the transactions still to read, with those read so far beside them
  have hloop : ∀ (todo seen : List (CompactBlockData × CompactTx)) (scan : SpendScan),
      (∀ entry ∈ todo, entry ∈ blockTransactions input.blocks) →
      ScanInvariant cache input.blocks seen scan →
      ScanInvariant cache input.blocks (seen ++ todo)
        (todo.foldl (SpendScan.scanTx cache input.timestamp) scan) := by
    intro todo
    induction todo with
    | nil =>
      intro seen scan _ hscan
      simpa using hscan
    | cons entry rest ih =>
      intro seen scan htodo hscan
      have hstep : ScanInvariant cache input.blocks (seen ++ [entry])
          (scan.scanTx cache input.timestamp entry) := hscan.scanTx (htodo entry (by simp))
      have hrest := ih (seen ++ [entry]) _ (fun e he => htodo e (by simp [he])) hstep
      simpa using hrest
  have hempty : ScanInvariant cache input.blocks []
      ⟨[], [], [], [], [], ∅, tracked⟩ := ⟨nofun, nofun, nofun⟩
  exact hloop _ [] _ (fun _ h => h) hempty

/-- A revealed nullifier that the cache knows marks its row. -/
theorem spendUpdates_of_reveals {input : SpendInput} {tracked : Finset Bytes} {nullifier : Bytes}
    {id : Nat} (hreveals : Reveals input.blocks nullifier)
    (hid : cache.lookup nullifier = some id) :
    ∃ txid, (id, txid) ∈ (input.scan cache tracked).spendUpdates := by
  obtain ⟨block, hblock, tx, htx, hlength, noteType, hkey⟩ := hreveals
  exact ⟨tx.hash, (scan_invariant input tracked).complete (block, tx)
    (mem_blockTransactions.mpr ⟨hblock, htx⟩) hlength (noteType, nullifier) hkey id hid⟩

end Scan

/-! ## What applying spends does to rows -/

/-- The row is the same note, and is settled or left as it was and not among those marked. -/
structure SpendMove (marked : NoteRow → Prop) (row row' : NoteRow) : Prop
    extends SameNote row row' where
  nullifier_eq : row'.nullifier = row.nullifier
  status : row'.settled = true ∨ (row' = row ∧ ¬ marked row)

theorem spendById_rows (notes : Notes) (update : Nat × Bytes) :
    AutoTable.RowsFrom (SpendMove (fun row => row.id = update.1)) notes (notes.spendById update) := by
  refine AutoTable.rowsFrom_updateWhere ?_ ?_
  · intro row _ _
    exact ⟨⟨rfl, rfl, rfl⟩, rfl, .inl rfl⟩
  · intro row _ hp
    exact ⟨.refl row, rfl, .inr ⟨rfl, beq_eq_false_iff_ne.mp hp⟩⟩

/-- Moves of two kinds of marks are a move of both. -/
theorem SpendMove.trans {marked₁ marked₂ marked : NoteRow → Prop} {a b c : NoteRow}
    (h₁ : SpendMove marked₁ a b) (h₂ : SpendMove marked₂ b c)
    (hmarked : marked a → marked₁ a ∨ marked₂ a) : SpendMove marked a c where
  toSameNote := h₁.toSameNote.trans h₂.toSameNote
  nullifier_eq := h₂.nullifier_eq.trans h₁.nullifier_eq
  status := by
    rcases h₂.status with hsettled | ⟨rfl, hunmarked₂⟩
    · exact .inl hsettled
    · rcases h₁.status with hsettled | ⟨rfl, hunmarked₁⟩
      · exact .inl hsettled
      · exact .inr ⟨rfl, fun hmark => (hmarked hmark).elim hunmarked₁ hunmarked₂⟩

theorem foldl_spendById_rows (updates : List (Nat × Bytes)) (notes : Notes) :
    AutoTable.RowsFrom (SpendMove (fun row => row.id ∈ updates.map Prod.fst)) notes
      (updates.foldl Notes.spendById notes) := by
  induction updates generalizing notes with
  | nil => exact AutoTable.RowsFrom.refl (fun row => ⟨.refl row, rfl, .inr ⟨rfl, nofun⟩⟩) notes
  | cons update rest ih =>
    refine AutoTable.RowsFrom.trans ?_ (spendById_rows notes update) (ih _)
    intro a b c hab hbc
    exact hab.trans hbc fun hmark => List.mem_cons.mp hmark

theorem spendByNullifier_rows (accountId : Int) (entries : List (Bytes × Bytes)) (notes : Notes) :
    AutoTable.RowsFrom
      (SpendMove (fun row => row.accountId = accountId ∧ row.nullifier.length = 32 ∧
        row.nullifier ∈ entries.map Prod.fst)) notes
      (notes.spendByNullifier accountId (BulkMap.insertAll ∅ entries)) := by
  refine AutoTable.rowsFrom_updateWhere ?_ ?_
  · intro row _ _
    exact ⟨⟨rfl, rfl, rfl⟩, rfl, .inl rfl⟩
  · intro row _ hp
    refine ⟨.refl row, rfl, .inr ⟨rfl, ?_⟩⟩
    rintro ⟨haccount, hlength, hmem⟩
    have hfound : ((BulkMap.insertAll ∅ entries).lookup row.nullifier).isSome = true :=
      BulkMap.lookup_insertAll_isSome hmem
    simp [haccount, hlength, hfound] at hp

/-- What the transaction of `apply_spends` does to the rows. -/
theorem applySpendUpdatesWithTxmeta_rows (accountId : Int) (updates : List (Nat × Bytes))
    (entries : List (Bytes × Bytes)) (txMeta : List (String × Int × Int × Int)) (db : WalletDb) :
    AutoTable.RowsFrom
      (SpendMove (fun row => row.id ∈ updates.map Prod.fst ∨
        (row.accountId = accountId ∧ row.nullifier.length = 32 ∧
          row.nullifier ∈ entries.map Prod.fst)))
      db.notes (db.applySpendUpdatesWithTxmeta accountId updates entries txMeta).2.notes := by
  refine AutoTable.RowsFrom.trans ?_ (foldl_spendById_rows updates db.notes)
    (spendByNullifier_rows accountId entries _)
  intro a b c hab hbc
  -- a row that the first loop leaves alone has the account and the nullifier it had
  have hbc' : SpendMove (fun _ => a.accountId = accountId ∧ a.nullifier.length = 32 ∧
      a.nullifier ∈ entries.map Prod.fst) b c := by
    refine ⟨hbc.toSameNote, hbc.nullifier_eq, ?_⟩
    rw [← hab.accountId_eq, ← hab.nullifier_eq]
    exact hbc.status
  exact hab.trans hbc' id

/-! ## What deriving nullifiers again does to rows -/

/-- The row is the same note in the same state. Its nullifier is another one only if a spend
of that nullifier was recovered for it. -/
structure Rederived (recovered : List RecoveredSpend) (row row' : NoteRow) : Prop
    extends SameNote row row' where
  spent_eq : row'.spent = row.spent
  spentTxid_eq : row'.spentTxid = row.spentTxid
  nullifier : row'.nullifier = row.nullifier ∨
    ∃ spend ∈ recovered, spend.id = row.id ∧ spend.nullifier = row'.nullifier

theorem Rederived.refl (recovered : List RecoveredSpend) (row : NoteRow) :
    Rederived recovered row row :=
  ⟨.refl row, rfl, rfl, .inl rfl⟩

theorem Rederived.mono {recovered more : List RecoveredSpend} {row row' : NoteRow}
    (hsub : ∀ spend ∈ recovered, spend ∈ more) (h : Rederived recovered row row') :
    Rederived more row row' where
  toSameNote := h.toSameNote
  spent_eq := h.spent_eq
  spentTxid_eq := h.spentTxid_eq
  nullifier := h.nullifier.imp_right fun ⟨spend, hspend, hrest⟩ => ⟨spend, hsub spend hspend, hrest⟩

theorem Rederived.trans {recovered₁ recovered₂ : List RecoveredSpend} {a b c : NoteRow}
    (h₁ : Rederived recovered₁ a b) (h₂ : Rederived recovered₂ b c) :
    Rederived (recovered₁ ++ recovered₂) a c where
  toSameNote := h₁.toSameNote.trans h₂.toSameNote
  spent_eq := h₂.spent_eq.trans h₁.spent_eq
  spentTxid_eq := h₂.spentTxid_eq.trans h₁.spentTxid_eq
  nullifier := by
    rcases h₂.nullifier with heq | ⟨spend, hspend, hid, hnullifier⟩
    · rw [heq]
      refine h₁.nullifier.imp_right ?_
      rintro ⟨spend, hspend, hrest⟩
      exact ⟨spend, List.mem_append.mpr (.inl hspend), hrest⟩
    · exact .inr ⟨spend, List.mem_append.mpr (.inr hspend), hid.trans h₁.id_eq, hnullifier⟩

/-- The recovered spend is of a row of the account that was not settled, by a nullifier that
the keys derive for the row and that one of the entries reveals. -/
def RecoveredFrom (derive : NoteRow → List (Bytes × Int)) (accountId : Int) (notes : Notes)
    (entries : List (NoteType × Bytes × Bytes)) (spend : RecoveredSpend) : Prop :=
  ∃ row ∈ notes.ofAccount accountId, row.settled = false ∧ row.id = spend.id ∧
    row.noteType = spend.noteType ∧ (∃ keyId, (spend.nullifier, keyId) ∈ derive row) ∧
      ∃ entry ∈ entries, entry.2.1 = spend.nullifier

section Rederive

variable {derive : NoteRow → List (Bytes × Int)} {accountId : Int} {noteType : NoteType}
  {entries : List (NoteType × Bytes × Bytes)} {before : Notes} {state : Rederivation}

/-- What holds after every iteration of the loop for one pool. -/
structure RederiveInvariant (derive : NoteRow → List (Bytes × Int)) (accountId : Int)
    (noteType : NoteType) (entries : List (NoteType × Bytes × Bytes)) (before : Notes)
    (state : Rederivation) : Prop where
  revealed : ∀ nullifier, (state.spendMap.lookup nullifier).isSome = true →
    ∃ entry ∈ entries, entry.2.1 = nullifier
  recovered : ∀ spend ∈ state.recovered, spend.noteType = noteType ∧
    RecoveredFrom derive accountId before entries spend
  rows : AutoTable.RowsFrom (Rederived state.recovered) before state.db.notes
  others : ∀ row' ∈ state.db.notes.rows, row'.noteType ≠ noteType → row' ∈ before.rows

theorem RederiveInvariant.visit
    (h : RederiveInvariant derive accountId noteType entries before state) {note : NoteRow}
    (hnote : note ∈ before.spendReconciliationNotes accountId) (htype : note.noteType = noteType) :
    RederiveInvariant derive accountId noteType entries before
      (state.visit derive noteType note) := by
  obtain ⟨haccount, hopen⟩ := Notes.of_mem_spendReconciliationNotes hnote
  unfold Rederivation.visit
  split
  · exact h
  · rename_i nullifier keyId hfind
    have hderive : (nullifier, keyId) ∈ derive note := List.mem_of_find?_eq_some hfind
    have hfound : (state.spendMap.lookup nullifier).isSome = true := by
      simpa using List.find?_some hfind
    -- a row of the table afterwards is the note's, or was there before
    have hrows : ∀ row' ∈ (if note.rederive nullifier keyId = note then state.db
        else state.db.updateNoteById (note.rederive nullifier keyId)).notes.rows,
        row' = note.rederive nullifier keyId ∨ row' ∈ state.db.notes.rows := by
      intro row' hrow'
      split at hrow'
      · exact .inr hrow'
      · obtain ⟨old, hold, rfl⟩ := List.mem_map.mp hrow'
        by_cases hid : old.id = note.id
        · left
          simp [NoteRow.rederive, hid]
        · right
          simpa [NoteRow.rederive, hid] using hold
    refine ⟨?_, ?_, ?_, ?_⟩
    · intro other hother
      by_cases hsame : other = nullifier
      · rw [hsame, AList.lookup_erase] at hother
        cases hother
      · rw [AList.lookup_erase_ne hsame] at hother
        exact h.revealed other hother
    · intro spend hspend
      rcases List.mem_append.mp hspend with hspend | hspend
      · exact h.recovered spend hspend
      · obtain rfl := List.mem_singleton.mp hspend
        exact ⟨rfl, note, haccount, hopen, rfl, htype, ⟨keyId, hderive⟩,
          h.revealed nullifier hfound⟩
    · intro row' hrow'
      rcases hrows row' hrow' with rfl | hold
      · refine ⟨note, (Notes.mem_ofAccount.mp haccount).1, ⟨rfl, rfl, rfl⟩, rfl, rfl, .inr ?_⟩
        exact ⟨_, List.mem_append.mpr (.inr (List.mem_singleton.mpr rfl)), rfl, rfl⟩
      · obtain ⟨row, hrow, hrederived⟩ := h.rows row' hold
        exact ⟨row, hrow, hrederived.mono fun spend hspend => List.mem_append.mpr (.inl hspend)⟩
    · intro row' hrow' hother
      rcases hrows row' hrow' with rfl | hold
      · exact absurd htype hother
      · exact h.others row' hold hother

theorem rederivePool_invariant (derive : NoteRow → List (Bytes × Int)) (accountId : Int)
    (noteType : NoteType) (entries : List (NoteType × Bytes × Bytes)) (db : WalletDb) :
    RederiveInvariant derive accountId noteType entries db.notes
      (rederivePool derive accountId noteType entries db) := by
  -- the notes to visit were read before the loop, so they are rows of the table it started from
  have hloop : ∀ (todo : List NoteRow) (state : Rederivation),
      (∀ note ∈ todo, note ∈ db.notes.spendReconciliationNotes accountId ∧
        note.noteType = noteType) →
      RederiveInvariant derive accountId noteType entries db.notes state →
      RederiveInvariant derive accountId noteType entries db.notes
        (todo.foldl (Rederivation.visit derive noteType) state) := by
    intro todo
    induction todo with
    | nil => exact fun state _ hstate => hstate
    | cons note rest ih =>
      intro state htodo hstate
      obtain ⟨hnote, htype⟩ := htodo note (by simp)
      exact ih _ (fun other hother => htodo other (by simp [hother])) (hstate.visit hnote htype)
  refine hloop _ _ ?_ ⟨?_, nofun, ?_, fun row hrow _ => hrow⟩
  · intro note hnote
    simpa using List.mem_filter.mp hnote
  · intro nullifier hfound
    obtain ⟨txid, htxid⟩ := Option.isSome_iff_exists.mp hfound
    rcases BulkMap.mem_of_lookup_insertAll htxid with hmem | hempty
    · obtain ⟨entry, hentry, heq⟩ := List.mem_map.mp hmem
      have hentry' := List.mem_of_mem_filter (List.mem_reverse.mp hentry)
      exact ⟨entry, hentry', congrArg Prod.fst heq⟩
    · cases hempty
  · exact AutoTable.RowsFrom.refl (fun row => Rederived.refl [] row) db.notes

end Rederive

/-- **What deriving again does in both pools.** -/
theorem rederiveUnmatchedSpends_spec (keys : SpendKeys) (accountId : Int)
    (entries : List (NoteType × Bytes × Bytes)) (db : WalletDb) :
    AutoTable.RowsFrom (Rederived (keys.rederiveUnmatchedSpends accountId entries db).1)
        db.notes (keys.rederiveUnmatchedSpends accountId entries db).2.notes ∧
      ∀ spend ∈ (keys.rederiveUnmatchedSpends accountId entries db).1,
        RecoveredFrom keys.derive accountId db.notes entries spend := by
  let sapling : Rederivation :=
    if keys.hasSapling then rederivePool keys.derive accountId .sapling entries db
    else ⟨∅, [], db⟩
  let orchard : Rederivation :=
    if keys.hasOrchard then rederivePool keys.derive accountId .ironwood entries sapling.db
    else ⟨∅, [], sapling.db⟩
  have hskip : ∀ (noteType : NoteType) (db : WalletDb),
      RederiveInvariant keys.derive accountId noteType entries db.notes ⟨∅, [], db⟩ := by
    intro noteType db
    refine ⟨?_, nofun, AutoTable.RowsFrom.refl (fun row => Rederived.refl [] row) db.notes,
      fun row hrow _ => hrow⟩
    intro nullifier hfound
    cases hfound
  have hsapling : RederiveInvariant keys.derive accountId .sapling entries db.notes sapling := by
    by_cases hkeys : keys.hasSapling = true
    · simp only [sapling, hkeys, if_true]
      exact rederivePool_invariant keys.derive accountId .sapling entries db
    · simp only [sapling, hkeys]
      exact hskip .sapling db
  have horchard : RederiveInvariant keys.derive accountId .ironwood entries sapling.db.notes
      orchard := by
    by_cases hkeys : keys.hasOrchard = true
    · simp only [orchard, hkeys, if_true]
      exact rederivePool_invariant keys.derive accountId .ironwood entries sapling.db
    · simp only [orchard, hkeys]
      exact hskip .ironwood sapling.db
  constructor
  · change AutoTable.RowsFrom (Rederived (sapling.recovered ++ orchard.recovered)) db.notes
      orchard.db.notes
    exact AutoTable.RowsFrom.trans (fun _ _ _ h₁ h₂ => h₁.trans h₂) hsapling.rows horchard.rows
  · intro spend hspend
    rcases List.mem_append.mp hspend with hspend | hspend
    · exact (hsapling.recovered spend hspend).2
    · obtain ⟨hpool, row, hrow, hopen, hid, htype, hrest⟩ := horchard.recovered spend hspend
      obtain ⟨hmem, haccount⟩ := Notes.mem_ofAccount.mp hrow
      -- the first pass leaves the rows of the second pool alone
      have hother : row.noteType ≠ .sapling := by
        rw [htype, hpool]
        exact nofun
      exact ⟨row, Notes.mem_ofAccount.mpr ⟨hsapling.others row hmem hother, haccount⟩, hopen, hid,
        htype, hrest⟩

/-! ## The call -/

/-- The keys derive for a row of the account only nullifiers of its own output. -/
def DeriveOwned (keys : SpendKeys) (accountId : Int) (owner : Bytes → OutputKey) (notes : Notes) :
    Prop :=
  ∀ row ∈ notes.ofAccount accountId, ∀ candidate ∈ keys.derive row,
    usableNullifier candidate.1 = true → owner candidate.1 = row.outputKey

/-- No row that is not settled is derived a revealed nullifier other than the one it has. -/
def NullifiersSettled (input : SpendInput) (accountId : Int) (notes : Notes) : Prop :=
  ∀ row ∈ notes.ofAccount accountId, row.settled = false →
    ∀ candidate ∈ input.keys.derive row, Reveals input.blocks candidate.1 →
      candidate.1 = row.nullifier

/-- What `apply_spends` does to a row: it settles it, or leaves its state and its nullifier,
which then is not the revealed nullifier of a row of the class unless the write failed. -/
structure SpendOutcome (K : NoteRow → Prop) (input : SpendInput) (row row' : NoteRow) : Prop
    extends SameNote row row' where
  status : row'.settled = true ∨
    (row'.spent = row.spent ∧ row'.spentTxid = row.spentTxid ∧ row'.nullifier = row.nullifier ∧
      (input.applyFault = none → K row → ¬ Reveals input.blocks row.nullifier))

theorem usable_of_reveals {blocks : List CompactBlockData} {nullifier : Bytes}
    (h : Reveals blocks nullifier) : usableNullifier nullifier = true := by
  obtain ⟨_, _, _, _, _, _, hkey⟩ := h
  exact (List.mem_filter.mp hkey).2

section Call

variable {K : NoteRow → Prop} {owner : Bytes → OutputKey} {accountId : Int} {input : SpendInput}
  {cache : AList (fun _ : Bytes => Nat)} {tracked : Finset Bytes} {before after : Notes}
  {recovered : List RecoveredSpend} {entries : List (NoteType × Bytes × Bytes)}

/-- A spend recovered for the id of a row is by a nullifier derived for that row. -/
theorem RecoveredFrom.derived {derive : NoteRow → List (Bytes × Int)} {spend : RecoveredSpend}
    (h : RecoveredFrom derive accountId before entries spend) {row : NoteRow}
    (hrow : row ∈ before.rows) (hid : spend.id = row.id) :
    row.settled = false ∧ ∃ keyId, (spend.nullifier, keyId) ∈ derive row := by
  obtain ⟨other, hother, hopen, hotherId, -, hderive, -⟩ := h
  obtain rfl : other = row :=
    AutoTable.row_eq_of_id (Notes.mem_ofAccount.mp hother).1 hrow (hotherId.trans hid)
  exact ⟨hopen, hderive⟩

theorem notesOwned_of_rederived (hnotes : NotesOwned accountId owner before)
    (hderive : DeriveOwned input.keys accountId owner before)
    (hrecovered : ∀ spend ∈ recovered,
      RecoveredFrom input.keys.derive accountId before entries spend)
    (hrows : AutoTable.RowsFrom (Rederived recovered) before after) :
    NotesOwned accountId owner after := by
  refine notesOwned_of_rowsFrom (fun _ _ h => h.toSameNote) hrows hnotes ?_
  intro row hrow row' h husable
  refine h.nullifier.imp_right ?_
  rintro ⟨spend, hspend, hid, heq⟩
  obtain ⟨-, keyId, hcandidate⟩ :=
    (hrecovered spend hspend).derived (Notes.mem_ofAccount.mp hrow).1 hid
  rw [← heq] at husable ⊢
  exact hderive row hrow _ hcandidate husable

theorem notesOwned_of_spendMove {marked : NoteRow → Prop}
    (hnotes : NotesOwned accountId owner before)
    (hrows : AutoTable.RowsFrom (SpendMove marked) before after) :
    NotesOwned accountId owner after :=
  notesOwned_of_rowsFrom (fun _ _ h => h.toSameNote) hrows hnotes
    (fun _ _ _ h _ => .inl h.nullifier_eq)

/-- What the call has to keep: the rows stay owned, the cache covers them, and every row has
one of the two outcomes. -/
structure SpendsKept (K : NoteRow → Prop) (owner : Bytes → OutputKey) (input : SpendInput)
    (engine engine' : SyncEngine) : Prop where
  accountId_eq : engine'.accountId = engine.accountId
  notesOwned : NotesOwned engine.accountId owner engine'.db.notes
  covers : Covers K engine.accountId engine'.nullifierCache engine'.db.notes
  rows : ∀ row' ∈ engine'.db.notes.ofAccount engine.accountId,
    ∃ row ∈ engine.db.notes.ofAccount engine.accountId, SpendOutcome K input row row'

/-- The entries that are not matched are revealed nullifiers. -/
theorem reveals_of_mem_unlinkedEntries {entry : NoteType × Bytes × Bytes}
    (h : entry ∈ (input.scan cache tracked).unlinkedEntries) :
    Reveals input.blocks entry.2.1 :=
  ((scan_invariant input tracked).unmatched entry (List.mem_of_mem_filter h)).1

/-- When no spend is found, no row of the class has its nullifier revealed. -/
theorem not_reveals_of_no_updates (hcovers : Covers K accountId cache before)
    (hempty : (input.scan cache tracked).spendUpdates = []) {row : NoteRow}
    (hrow : row ∈ before.ofAccount accountId) (hclass : K row) :
    ¬ Reveals input.blocks row.nullifier := by
  intro hreveals
  have hid := hcovers row hrow hclass (usable_of_reveals hreveals)
  obtain ⟨txid, hmem⟩ := @spendUpdates_of_reveals cache input tracked _ _ hreveals hid
  rw [hempty] at hmem
  cases hmem

variable {engine engine' : SyncEngine} (hK : OpenClass K)
  (hnotes : NotesOwned engine.accountId owner engine.db.notes)
  (hcovers : Covers K engine.accountId engine.nullifierCache engine.db.notes)
  (hderive : DeriveOwned input.keys engine.accountId owner engine.db.notes)
  (hrecovered : ∀ spend ∈ recovered,
    RecoveredFrom input.keys.derive engine.accountId engine.db.notes entries spend)
  (haccount : engine'.accountId = engine.accountId)
  (hcache : engine'.nullifierCache = engine.nullifierCache)
  (hrows : AutoTable.RowsFrom (Rederived recovered) engine.db.notes engine'.db.notes)

include hnotes hcovers in
/-- The call does not get to the writes. -/
theorem spendsKept_of_no_updates {tracked' : Finset Bytes}
    (hhidden : ∀ row ∈ engine.db.notes.ofAccount engine.accountId, K row →
      ¬ Reveals input.blocks row.nullifier) :
    SpendsKept K owner input engine { engine with trackedWalletTxids := tracked' } where
  accountId_eq := rfl
  notesOwned := hnotes
  covers := hcovers
  rows := fun row hrow => ⟨row, hrow, .refl row,
    .inr ⟨rfl, rfl, rfl, fun _ hclass => hhidden row hrow hclass⟩⟩

include hK hnotes hcovers hderive hrecovered haccount hcache hrows in
/-- The transaction fails: no row has moved as long as no nullifier was derived anew. -/
theorem spendsKept_of_fault
    (hsettled : NullifiersSettled input engine.accountId engine.db.notes)
    (hfault : input.applyFault ≠ none)
    (hentries : ∀ entry ∈ entries, Reveals input.blocks entry.2.1) :
    SpendsKept K owner input engine engine' := by
  have hsame : ∀ row' ∈ engine'.db.notes.ofAccount engine.accountId,
      ∃ row ∈ engine.db.notes.ofAccount engine.accountId, Rederived recovered row row' ∧
        row'.nullifier = row.nullifier := by
    intro row' hrow'
    obtain ⟨row, hmem, h⟩ :=
      Notes.ofAccount_of_rowsFrom (fun _ _ h => h.toSameNote) hrows hrow'
    refine ⟨row, hmem, h, ?_⟩
    rcases h.nullifier with heq | ⟨spend, hspend, hid, heq⟩
    · exact heq
    · obtain ⟨hopen, keyId, hcandidate⟩ :=
        (hrecovered spend hspend).derived (Notes.mem_ofAccount.mp hmem).1 hid
      obtain ⟨-, -, -, -, -, -, entry, hentry, hnullifier⟩ := hrecovered spend hspend
      rw [← heq]
      exact hsettled row hmem hopen _ hcandidate (hnullifier ▸ hentries entry hentry)
  refine ⟨haccount, notesOwned_of_rederived hnotes hderive hrecovered hrows, ?_, ?_⟩
  · intro row' hrow' hclass husable
    obtain ⟨row, hrow, h, heq⟩ := hsame row' hrow'
    rw [hcache, h.id_eq]
    rw [heq] at husable ⊢
    exact hcovers row hrow (hK.congr row' row h.spent_eq h.spentTxid_eq hclass) husable
  · intro row' hrow'
    obtain ⟨row, hrow, h, heq⟩ := hsame row' hrow'
    exact ⟨row, hrow, h.toSameNote,
      .inr ⟨h.spent_eq, h.spentTxid_eq, heq, fun hnone => absurd hnone hfault⟩⟩

/-- What the transaction at the end of `apply_spends` marks. -/
def Marked (scan : SpendScan) (recovered : List RecoveredSpend)
    (fallbackEntries : List (Bytes × Bytes)) (accountId : Int) (row : NoteRow) : Prop :=
  row.id ∈ (scan.spendUpdates ++ recovered.map (fun spend => (spend.id, spend.txid))).map
      Prod.fst ∨
    (row.accountId = accountId ∧ row.nullifier.length = 32 ∧
      row.nullifier ∈ fallbackEntries.map Prod.fst)

section Marked

variable {scan : SpendScan} {fallbackEntries : List (Bytes × Bytes)} {row row' : NoteRow}

theorem marked_of_update {txid : Bytes} (h : (row.id, txid) ∈ scan.spendUpdates) :
    Marked scan recovered fallbackEntries accountId row := by
  left
  rw [List.map_append]
  exact List.mem_append.mpr (.inl (List.mem_map.mpr ⟨_, h, rfl⟩))

theorem marked_of_recovered {spend : RecoveredSpend} (hspend : spend ∈ recovered)
    (hid : spend.id = row.id) : Marked scan recovered fallbackEntries accountId row := by
  left
  rw [← hid, List.map_append, List.map_map]
  exact List.mem_append.mpr (.inr (List.mem_map.mpr ⟨spend, hspend, rfl⟩))

/-- A row that is not marked has the nullifier it had. -/
theorem nullifier_eq_of_not_marked (h : Rederived recovered row row')
    (hmarked : ¬ Marked scan recovered fallbackEntries accountId row') :
    row'.nullifier = row.nullifier := by
  rcases h.nullifier with heq | ⟨spend, hspend, hid, -⟩
  · exact heq
  · exact absurd (marked_of_recovered hspend (hid.trans h.id_eq.symm)) hmarked

/-- A row that is not marked is not forgotten by the cache either. -/
theorem notMem_forgotten_of_not_marked
    (hscan : ∀ nullifier ∈ scan.matchedCacheNullifiers, ∃ id txid,
      cache.lookup nullifier = some id ∧ (id, txid) ∈ scan.spendUpdates)
    (hnotes : NotesOwned accountId owner before)
    (hderive : DeriveOwned input.keys accountId owner before)
    (hrecovered : ∀ spend ∈ recovered,
      RecoveredFrom input.keys.derive accountId before entries spend)
    (hrow : row ∈ before.ofAccount accountId) (husable : usableNullifier row.nullifier = true)
    (hlookup : cache.lookup row.nullifier = some row.id)
    (hmarked : ¬ Marked scan recovered fallbackEntries accountId row) :
    row.nullifier ∉ scan.matchedCacheNullifiers ++
      recovered.map (fun spend => spend.nullifier) ++
        fallbackEntries.map (fun entry => entry.1) := by
  intro hmem
  rcases List.mem_append.mp hmem with hmem | hmem
  · rcases List.mem_append.mp hmem with hmem | hmem
    · obtain ⟨id, txid, hfound, hupdate⟩ := hscan _ hmem
      obtain rfl := Option.some.inj (hlookup.symm.trans hfound)
      exact hmarked (marked_of_update hupdate)
    · -- a spend recovered under this nullifier is a spend of this row
      obtain ⟨spend, hspend, hnullifier⟩ := List.mem_map.mp hmem
      obtain ⟨other, hother, -, hotherId, -, ⟨keyId, hcandidate⟩, -⟩ := hrecovered spend hspend
      rw [hnullifier] at hcandidate
      have howner := hderive other hother _ hcandidate husable
      have hsame : other = row := by
        refine hnotes.one other hother row hrow ?_
        rw [← howner, hnotes.owned row hrow husable]
      exact hmarked (marked_of_recovered hspend (hsame ▸ hotherId.symm))
  · have hlength : row.nullifier.length = 32 :=
      beq_iff_eq.mp (Bool.and_eq_true_iff.mp husable).1
    exact hmarked (.inr ⟨(Notes.mem_ofAccount.mp hrow).2, hlength, hmem⟩)

end Marked

include hK hnotes hcovers hderive hrecovered haccount hcache hrows in
/-- **The transaction succeeds.** A row that is not settled by it was not marked, so neither
its nullifier nor its entry in the cache went. -/
theorem spendsKept_of_settle {fallbackEntries : List (Bytes × Bytes)} :
    SpendsKept K owner input engine (engine'.settleSpends
      (input.scan engine.nullifierCache tracked) recovered fallbackEntries) := by
  let scan := input.scan engine.nullifierCache tracked
  let after := (engine'.settleSpends scan recovered fallbackEntries).db.notes
  have hmoves : AutoTable.RowsFrom
      (SpendMove (Marked scan recovered fallbackEntries engine.accountId)) engine'.db.notes after := by
    rw [← haccount]
    exact applySpendUpdatesWithTxmeta_rows engine'.accountId _ fallbackEntries _ engine'.db
  have hkept := notesOwned_of_rederived hnotes hderive hrecovered hrows
  -- where a row comes from, and what it means that it is not settled
  have horigin : ∀ row' ∈ after.ofAccount engine.accountId,
      ∃ row ∈ engine.db.notes.ofAccount engine.accountId, SameNote row row' ∧
        (row'.settled = true ∨ (row'.spent = row.spent ∧ row'.spentTxid = row.spentTxid ∧
          row'.nullifier = row.nullifier ∧
          ¬ Marked scan recovered fallbackEntries engine.accountId row)) := by
    intro row' hrow'
    obtain ⟨middle, hmiddle, hmove⟩ :=
      Notes.ofAccount_of_rowsFrom (fun _ _ h => h.toSameNote) hmoves hrow'
    obtain ⟨row, hrow, h⟩ :=
      Notes.ofAccount_of_rowsFrom (fun _ _ h => h.toSameNote) hrows hmiddle
    refine ⟨row, hrow, h.toSameNote.trans hmove.toSameNote, ?_⟩
    rcases hmove.status with hsettled | ⟨rfl, hunmarked⟩
    · exact .inl hsettled
    · have heq := nullifier_eq_of_not_marked h hunmarked
      refine .inr ⟨h.spent_eq, h.spentTxid_eq, heq, ?_⟩
      unfold Marked at hunmarked ⊢
      rwa [h.id_eq, h.accountId_eq, heq] at hunmarked
  refine ⟨haccount, notesOwned_of_spendMove hkept hmoves, ?_, ?_⟩
  · intro row' hrow' hclass husable
    obtain ⟨row, hrow, hsame, hstatus⟩ := horigin row' hrow'
    rcases hstatus with hsettled | ⟨hspent, hspentTxid, heq, hunmarked⟩
    · rw [hK.not_settled row' hclass] at hsettled
      cases hsettled
    · rw [heq] at husable ⊢
      have hlookup := hcovers row hrow (hK.congr row' row hspent hspentTxid hclass) husable
      have hkeptEntry := notMem_forgotten_of_not_marked (scan_invariant input tracked).matched
        hnotes hderive hrecovered hrow husable hlookup hunmarked
      rw [hsame.id_eq]
      simp only [SyncEngine.settleSpends, hcache]
      split
      · rw [BulkMap.lookup_eraseAll_of_notMem hkeptEntry]
        exact hlookup
      · exact hlookup
  · intro row' hrow'
    obtain ⟨row, hrow, hsame, hstatus⟩ := horigin row' hrow'
    refine ⟨row, hrow, hsame, hstatus.imp_right ?_⟩
    rintro ⟨hspent, hspentTxid, heq, hunmarked⟩
    refine ⟨hspent, hspentTxid, heq, fun _ hclass hreveals => ?_⟩
    have hlookup := hcovers row hrow hclass (usable_of_reveals hreveals)
    obtain ⟨txid, hmem⟩ :=
      @spendUpdates_of_reveals engine.nullifierCache input tracked _ _ hreveals hlookup
    exact hunmarked (marked_of_update hmem)

theorem keepUnlinked_notes (input : SpendInput) (accountId : Int)
    (remaining : List (NoteType × Bytes × Bytes)) (db : WalletDb) :
    (input.keepUnlinked accountId remaining db).notes = db.notes := by
  unfold SpendInput.keepUnlinked
  split <;> rfl

include hK hnotes hcovers hderive in
/-- **What `apply_spends` does to rows and cache.** -/
theorem SyncEngine.applySpends_spec
    (hfault : input.applyFault ≠ none → NullifiersSettled input engine.accountId engine.db.notes) :
    SpendsKept K owner input engine (engine.applySpends input) := by
  let scan := input.scan engine.nullifierCache engine.trackedWalletTxids
  unfold SyncEngine.applySpends
  split
  · rename_i hnothing
    refine spendsKept_of_no_updates hnotes hcovers ?_
    intro row hrow hclass hreveals
    have hlookup := hcovers row hrow hclass (usable_of_reveals hreveals)
    have hentries : engine.nullifierCache.entries = [] := List.isEmpty_iff.mp hnothing.1
    have hempty : engine.nullifierCache = ∅ := AList.ext hentries
    rw [hempty, AList.lookup_empty] at hlookup
    cases hlookup
  · dsimp only
    split
    · rename_i hnone
      have hempty : scan.spendUpdates = [] :=
        List.isEmpty_iff.mp (Bool.and_eq_true_iff.mp hnone).1
      refine spendsKept_of_no_updates hnotes hcovers ?_
      intro row hrow hclass
      exact not_reveals_of_no_updates hcovers hempty hrow hclass
    · obtain ⟨hrows, hrecovered⟩ := rederiveUnmatchedSpends_spec input.keys engine.accountId
        scan.unlinkedEntries engine.db
      let rederived := input.keys.rederiveUnmatchedSpends engine.accountId scan.unlinkedEntries
        engine.db
      have hkept : ∀ remaining, AutoTable.RowsFrom (Rederived rederived.1) engine.db.notes
          (input.keepUnlinked engine.accountId remaining rederived.2).notes := by
        intro remaining
        rw [keepUnlinked_notes]
        exact hrows
      split
      · rename_i hsome
        refine spendsKept_of_fault hK hnotes hcovers hderive hrecovered rfl rfl (hkept _)
          (hfault (by simp [hsome])) (by simp [hsome]) ?_
        exact fun entry hentry => reveals_of_mem_unlinkedEntries hentry
      · refine spendsKept_of_settle hK hnotes hcovers hderive hrecovered ?_ ?_ (hkept _)
        · rfl
        · rfl

end Call

end StashiWallet
