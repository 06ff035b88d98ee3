import StashiWallet.NoteMerge
import StashiWallet.OutgoingExpiry
import StashiWallet.Runs
import StashiWallet.SpendSettlement

/-!
# Which notes a release gives back

The notes a release clears are those locked by expired intents as long as every row with a
spending transaction is spent, which all calls preserve (`Notes.Marked`). That none of them was
spent in a scanned block needs the transactions of scanned blocks to be recorded: a call that
keeps track of them leaves every one recorded that is no longer pending (`Traced`), whatever
comes in between (`released_notes_unmined`).
-/

namespace StashiWallet

/-! ## Ids in hex -/

/-- Two digits stand for a byte. -/
theorem length_of_hexDecode : ∀ {digits : List Char} {bytes : Bytes},
    hexDecode digits = some bytes → digits.length = 2 * bytes.length
  | [], bytes, h => by
    obtain rfl := Option.some.inj h
    rfl
  | [_], _, h => by cases h
  | high :: low :: rest, bytes, h => by
    unfold hexDecode at h
    obtain ⟨_, -, h⟩ := Option.bind_eq_some_iff.mp h
    obtain ⟨_, -, h⟩ := Option.bind_eq_some_iff.mp h
    obtain ⟨tail, htail, h⟩ := Option.bind_eq_some_iff.mp h
    obtain rfl := Option.some.inj h
    have hlength := length_of_hexDecode htail
    simp only [List.length_cons, hlength]
    omega

/-- Two candidates of one id are the same or reversed. -/
theorem candidates_same {txidHex : String} {a b : Bytes} (ha : a ∈ txidHexCandidates txidHex)
    (hb : b ∈ txidHexCandidates txidHex) : a = b ∨ a = b.reverse := by
  obtain ⟨bytes, hbytes, -, hA⟩ := mem_txidHexCandidates.mp ha
  obtain ⟨bytes', hbytes', -, hB⟩ := mem_txidHexCandidates.mp hb
  obtain rfl := Option.some.inj (hbytes.symm.trans hbytes')
  rcases hA with rfl | rfl
  · rcases hB with rfl | rfl
    · exact Or.inl rfl
    · exact Or.inr (List.reverse_reverse _).symm
  · rcases hB with rfl | rfl
    · exact Or.inr rfl
    · exact Or.inl rfl

theorem reverseTxidHex_of_decode {txidHex : String} {bytes : Bytes}
    (hbytes : hexDecode txidHex.toList = some bytes) (hlength : bytes.length = 32) :
    reverseTxidHex txidHex = some (hexEncode bytes.reverse) := by
  unfold reverseTxidHex
  have hdigits : txidHex.length = 64 := by
    rw [← String.length_toList, length_of_hexDecode hbytes, hlength]
  rw [if_neg (not_not.mpr hdigits), hbytes]
  rfl

/-- An encoded id that stands for the intent's transaction is a candidate. -/
theorem OutgoingTransactionIntent.Names.candidate {intent : OutgoingTransactionIntent}
    {txid other : Bytes} (hnames : intent.Names (hexEncode txid))
    (hother : other ∈ txidHexCandidates intent.txid) : txid ∈ txidHexCandidates intent.txid := by
  obtain ⟨bytes, hbytes, hlength, -⟩ := mem_txidHexCandidates.mp hother
  refine mem_txidHexCandidates.mpr ⟨bytes, hbytes, hlength, ?_⟩
  rcases hnames with heq | heq
  · rw [← heq, hexDecode_hexEncode] at hbytes
    exact Or.inl (Option.some.inj hbytes)
  · rw [reverseTxidHex_of_decode hbytes hlength] at heq
    exact Or.inr (hexEncode_injective (Option.some.inj heq)).symm

/-- One of the two encodings of a candidate stands for the intent's transaction. -/
theorem names_of_candidate {intent : OutgoingTransactionIntent} {txid : Bytes}
    (h : txid ∈ txidHexCandidates intent.txid) :
    intent.Names (hexEncode txid) ∨ intent.Names (hexEncode txid.reverse) := by
  obtain ⟨bytes, hbytes, hlength, heq⟩ := mem_txidHexCandidates.mp h
  have hreverse := reverseTxidHex_of_decode hbytes hlength
  rcases heq with rfl | rfl
  · exact Or.inr (Or.inr hreverse)
  · exact Or.inl (Or.inr hreverse)

/-! ## Recording transactions -/

/-- What an upsert leaves of the transactions. -/
theorem mem_upsertTransaction {txid : String} {height timestamp fee : Int}
    {transactions : List TransactionRow} :
    (∃ tx ∈ upsertTransaction txid height timestamp fee transactions,
      tx.txid = txid ∧ tx.height = height) ∧
    ∀ tx ∈ transactions, tx.txid ≠ txid →
      tx ∈ upsertTransaction txid height timestamp fee transactions := by
  unfold upsertTransaction
  split
  · rename_i hany
    obtain ⟨tx, htx, hsame⟩ := List.any_eq_true.mp hany
    refine ⟨⟨_, List.mem_map_of_mem htx, ?_⟩, fun tx htx hne => List.mem_map.mpr ⟨tx, htx, ?_⟩⟩
    · rw [if_pos hsame]
      exact ⟨beq_iff_eq.mp hsame, rfl⟩
    · rw [if_neg (by simpa using hne)]
  · exact ⟨⟨_, List.mem_append.mpr (Or.inr (List.mem_singleton_self _)), rfl, rfl⟩,
      fun tx htx _ => List.mem_append.mpr (Or.inl htx)⟩

section Recorded

variable {intent : OutgoingTransactionIntent} {height : Nat} {transactions : List TransactionRow}

/-- A record stays when its transaction is written with the same height, or another one. -/
theorem RecordedFor.upsert (h : RecordedFor intent height transactions) {txid : String}
    {txHeight timestamp fee : Int}
    (hsame : intent.Names txid → 0 < txHeight ∧ txHeight ≤ height) :
    RecordedFor intent height (upsertTransaction txid txHeight timestamp fee transactions) := by
  obtain ⟨tx, htx, hnames, hrange⟩ := h
  obtain ⟨⟨written, hwritten, htxid, hheight⟩, hothers⟩ :=
    @mem_upsertTransaction txid txHeight timestamp fee transactions
  by_cases hoverwritten : tx.txid = txid
  · rw [hoverwritten] at hnames
    exact ⟨written, hwritten, htxid ▸ hnames, hheight ▸ hsame hnames⟩
  · exact ⟨tx, hothers tx htx hoverwritten, hnames, hrange⟩

/-- The metadata of a batch of spends leaves a transaction recorded, if it was or if it is in
the batch. -/
theorem recordedFor_foldl_upsert {updates : List (String × Int × Int × Int)}
    (hsame : ∀ update ∈ updates, intent.Names update.1 → 0 < update.2.1 ∧ update.2.1 ≤ height)
    (h : RecordedFor intent height transactions ∨ ∃ update ∈ updates, intent.Names update.1) :
    RecordedFor intent height (updates.foldl (fun transactions (txid, height, timestamp, fee) =>
      upsertTransaction txid height timestamp fee transactions) transactions) := by
  induction updates generalizing transactions with
  | nil => exact h.resolve_right (fun ⟨_, hmem, _⟩ => List.not_mem_nil hmem)
  | cons update rest ih =>
    obtain ⟨hupdate, hrest⟩ := List.forall_mem_cons.mp hsame
    refine ih hrest ?_
    rcases h with h | ⟨other, hother, hnames⟩
    · exact Or.inl (h.upsert hupdate)
    · rcases List.mem_cons.mp hother with rfl | hother
      · obtain ⟨⟨written, hwritten, htxid, hheight⟩, -⟩ :=
          @mem_upsertTransaction other.1 other.2.1 other.2.2.1 other.2.2.2 transactions
        exact Or.inl ⟨written, hwritten, htxid ▸ hnames, hheight ▸ hupdate hnames⟩
      · exact Or.inr ⟨other, hother, hnames⟩

/-- The transactions a batch of notes writes are recorded, and those recorded before are. -/
theorem RecordedFor.persisted (h : RecordedFor intent height transactions) {input : PersistInput}
    {accountId : Int} {db : WalletDb} (hdb : db.transactions = transactions)
    (hsame : ∀ n ∈ input.notes, intent.Names (hexEncode n.txid) →
      0 < asI64 n.height ∧ asI64 n.height ≤ height) :
    RecordedFor intent height (input.persisted accountId db).transactions := by
  -- induction on the notes: only their metadata is written to `transactions`
  have hloop : ∀ (todo : List DecryptedNote) (state : PersistState), (∀ n ∈ todo, n ∈ input.notes) →
      RecordedFor intent height state.transactions →
      RecordedFor intent height (todo.foldl (input.persistNote accountId
        (input.unlinkedSpends accountId db)) state).transactions := by
    intro todo
    induction todo with
    | nil => exact fun _ _ hstate => hstate
    | cons n rest ih =>
      intro state htodo hstate
      obtain ⟨hn, hrest⟩ := List.forall_mem_cons.mp htodo
      refine ih _ hrest ?_
      have hmeta : RecordedFor intent height (state.upsertMeta input n).transactions := by
        unfold PersistState.upsertMeta
        dsimp only
        split
        · exact hstate
        · exact hstate.upsert (hsame n hn)
      unfold PersistInput.persistNote
      split
      · exact hstate
      · dsimp only
        split
        · exact hmeta
        · split
          · exact hmeta
          · exact hmeta
  refine hloop _ _ (fun _ hn => hn) ?_
  show RecordedFor intent height db.transactions
  rwa [hdb]

/-- Persisting leaves the database alone, or stores what the loop ends with. -/
theorem persistNotes_cases (engine : SyncEngine) (input : PersistInput) :
    (engine.persistNotes input).db = engine.db ∨
      (engine.persistNotes input).db.notes =
          (input.persisted engine.accountId engine.db).notes ∧
        (engine.persistNotes input).db.transactions =
          (input.persisted engine.accountId engine.db).transactions := by
  unfold SyncEngine.persistNotes
  split
  · exact .inl rfl
  · rename_i hempty
    right
    dsimp only
    unfold PersistInput.persistNotesWithDb
    rw [if_neg hempty]
    dsimp only
    unfold settle
    split
    · rename_i saved hsaved
      rw [saveSyncState_eq_ok hsaved]
      exact ⟨rfl, rfl⟩
    · exact ⟨rfl, rfl⟩

end Recorded

/-! ## What the scan of spends records -/

/-- Of a key that occurs, an entry is left when neighbours with the same key are dropped. -/
theorem exists_mem_destutter {α κ : Type} [DecidableEq κ] (key : α → κ) {entries : List α}
    {entry : α} (hentry : entry ∈ entries) :
    ∃ kept ∈ entries.destutter (fun a b => key a ≠ key b), key kept = key entry := by
  have hloop : ∀ (rest : List α) (first entry : α), entry ∈ first :: rest →
      ∃ kept ∈ rest.destutter' (fun a b => key a ≠ key b) first, key kept = key entry := by
    intro rest
    induction rest with
    | nil =>
      intro first entry hentry
      exact ⟨first, List.mem_singleton_self first, by rw [List.mem_singleton.mp hentry]⟩
    | cons next rest ih =>
      intro first entry hentry
      rw [List.destutter'_cons]
      split
      · rcases List.mem_cons.mp hentry with rfl | hentry
        · exact ⟨entry, List.mem_cons_self, rfl⟩
        · obtain ⟨kept, hkept, hkey⟩ := ih next entry hentry
          exact ⟨kept, List.mem_cons_of_mem _ hkept, hkey⟩
      · rename_i hsame
        rcases List.mem_cons.mp hentry with rfl | hentry
        · exact ih entry entry List.mem_cons_self
        · rcases List.mem_cons.mp hentry with rfl | hentry
          · obtain ⟨kept, hkept, hkey⟩ := ih first first List.mem_cons_self
            exact ⟨kept, hkept, hkey.trans (not_not.mp hsame)⟩
          · exact ih first entry (List.mem_cons_of_mem _ hentry)
  cases entries with
  | nil => cases hentry
  | cons first rest => exact hloop rest first entry hentry

/-- What the scan knows of the transactions it has read. -/
structure MetaInvariant (cache : AList (fun _ : Bytes => Nat))
    (seen : List (CompactBlockData × CompactTx)) (scan : SpendScan) : Prop where
  matched : ∀ entry ∈ seen, entry.2.hash.length = 32 → entry.2.matches cache ≠ [] →
    entry.2.hash ∈ scan.matchedSpendTxids ∧ (scan.spendTxMeta.lookup entry.2.hash).isSome = true
  heights : ∀ txid txMeta, scan.spendTxMeta.lookup txid = some txMeta →
    ∃ entry ∈ seen, entry.2.hash = txid ∧ txMeta.1 = asI64 entry.1.height

/-- The metadata a scanned transaction leaves. -/
theorem lookup_scanTx {cache : AList (fun _ : Bytes => Nat)} {timestamp : Int} {scan : SpendScan}
    {block : CompactBlockData} {tx : CompactTx} (hlength : tx.hash.length = 32) (txid : Bytes) :
    (scan.scanTx cache timestamp (block, tx)).spendTxMeta.lookup txid =
      if tx.nullifiers.any (fun key => key.2.length == 32) = true ∧ txid = tx.hash then
        some (asI64 block.height, if block.time > 0 then (block.time : Int) else timestamp,
          asI64 (tx.fee.getD 0))
      else scan.spendTxMeta.lookup txid := by
  unfold SpendScan.scanTx
  dsimp only
  rw [if_neg (not_not.mpr hlength)]
  dsimp only
  by_cases hown : tx.nullifiers.any (fun key => key.2.length == 32) = true ∧ txid = tx.hash
  · rw [if_pos hown, if_pos hown.1, hown.2, AList.lookup_insert]
  · rw [if_neg hown]
    split
    · rename_i hwrites
      exact AList.lookup_insert_ne (fun hsame => hown ⟨hwrites, hsame⟩)
    · rfl

theorem MetaInvariant.scanTx {cache : AList (fun _ : Bytes => Nat)} {timestamp : Int}
    {seen : List (CompactBlockData × CompactTx)} {scan : SpendScan}
    {entry : CompactBlockData × CompactTx} (h : MetaInvariant cache seen scan) :
    MetaInvariant cache (seen ++ [entry]) (scan.scanTx cache timestamp entry) := by
  obtain ⟨block, tx⟩ := entry
  by_cases hlength : tx.hash.length = 32
  · refine ⟨?_, ?_⟩
    · intro entry hmem hhash hmatches
      rw [lookup_scanTx hlength]
      have hin : entry.2.hash ∈ scan.matchedSpendTxids ∨ entry = (block, tx) →
          entry.2.hash ∈ (scan.scanTx cache timestamp (block, tx)).matchedSpendTxids := by
        intro hcases
        unfold SpendScan.scanTx
        dsimp only
        rw [if_neg (not_not.mpr hlength)]
        dsimp only
        split
        · rename_i hempty
          refine hcases.resolve_right ?_
          rintro rfl
          exact hmatches (List.isEmpty_iff.mp hempty)
        · rw [List.mem_append, List.mem_singleton]
          exact hcases.imp_right (fun heq => by rw [heq])
      rcases List.mem_append.mp hmem with hmem | hmem
      · obtain ⟨hmatched, hsome⟩ := h.matched entry hmem hhash hmatches
        refine ⟨hin (Or.inl hmatched), ?_⟩
        split
        · rfl
        · exact hsome
      · obtain rfl := List.mem_singleton.mp hmem
        -- a match is of a nullifier of the proper length, so the metadata is written
        have hwrites : tx.nullifiers.any (fun key => key.2.length == 32) = true := by
          obtain ⟨found, hfound⟩ := List.exists_mem_of_ne_nil _ hmatches
          obtain ⟨hrevealed, husable⟩ := List.mem_filter.mp (mem_matches.mp hfound).1
          exact List.any_eq_true.mpr ⟨found.1, hrevealed, (Bool.and_eq_true_iff.mp husable).1⟩
        refine ⟨hin (Or.inr rfl), ?_⟩
        rw [if_pos ⟨hwrites, rfl⟩]
        rfl
    · intro txid txMeta hlookup
      rw [lookup_scanTx hlength] at hlookup
      split at hlookup
      · rename_i hown
        obtain rfl := Option.some.inj hlookup
        exact ⟨(block, tx), List.mem_append.mpr (Or.inr (List.mem_singleton_self _)),
          hown.2.symm, rfl⟩
      · obtain ⟨entry, hmem, hrest⟩ := h.heights txid txMeta hlookup
        exact ⟨entry, List.mem_append.mpr (Or.inl hmem), hrest⟩
  · have hskip : scan.scanTx cache timestamp (block, tx) = scan := if_pos hlength
    rw [hskip]
    refine ⟨?_, ?_⟩
    · intro entry hmem hhash hmatches
      rcases List.mem_append.mp hmem with hmem | hmem
      · exact h.matched entry hmem hhash hmatches
      · rw [List.mem_singleton.mp hmem] at hhash
        exact absurd hhash hlength
    · intro txid txMeta hlookup
      obtain ⟨entry, hmem, hrest⟩ := h.heights txid txMeta hlookup
      exact ⟨entry, List.mem_append.mpr (Or.inl hmem), hrest⟩

theorem scan_meta (input : SpendInput) (cache : AList (fun _ : Bytes => Nat))
    (tracked : Finset Bytes) :
    MetaInvariant cache (blockTransactions input.blocks) (input.scan cache tracked) := by
  have hloop : ∀ (todo seen : List (CompactBlockData × CompactTx)) (scan : SpendScan),
      MetaInvariant cache seen scan → MetaInvariant cache (seen ++ todo)
        (todo.foldl (SpendScan.scanTx cache input.timestamp) scan) := by
    intro todo
    induction todo with
    | nil =>
      intro seen scan hscan
      rwa [List.append_nil]
    | cons entry rest ih =>
      intro seen scan hscan
      have hstep : MetaInvariant cache (seen ++ [entry])
          (scan.scanTx cache input.timestamp entry) := hscan.scanTx
      have hrest := ih (seen ++ [entry]) _ hstep
      rwa [List.append_assoc] at hrest
  refine hloop _ [] _ ⟨?_, ?_⟩
  · exact List.forall_mem_nil _
  · intro txid txMeta hlookup
    cases hlookup

section Updates

variable {scan : SpendScan} {recovered : List RecoveredSpend}
  {fallbackEntries : List (Bytes × Bytes)}

/-- Every metadata update is of a scanned transaction, in one of the byte orders. -/
theorem of_mem_txUpdates {update : String × Int × Int × Int}
    (h : update ∈ scan.txUpdates recovered fallbackEntries) :
    ∃ txid, scan.spendTxMeta.lookup txid = some update.2 ∧
      (update.1 = hexEncode txid ∨ update.1 = hexEncode txid.reverse) := by
  have hsorted := (List.mem_insertionSort _).mp ((List.destutter_sublist _ _).subset h)
  obtain ⟨txid, -, hupdate⟩ := List.mem_flatMap.mp hsorted
  refine ⟨txid, ?_⟩
  split at hupdate
  · cases hupdate
  · rename_i txMeta hlookup
    rw [hlookup]
    split at hupdate
    · obtain rfl := List.mem_singleton.mp hupdate
      exact ⟨rfl, Or.inl rfl⟩
    · simp only [List.mem_cons, List.not_mem_nil, or_false] at hupdate
      rcases hupdate with rfl | rfl
      · exact ⟨rfl, Or.inl rfl⟩
      · exact ⟨rfl, Or.inr rfl⟩

/-- A matched transaction is written in both byte orders. -/
theorem exists_txUpdate {txid : Bytes} (hmatched : txid ∈ scan.matchedSpendTxids)
    (hsome : (scan.spendTxMeta.lookup txid).isSome = true) {txidHex : String}
    (hhex : txidHex = hexEncode txid ∨ txidHex = hexEncode txid.reverse) :
    ∃ update ∈ scan.txUpdates recovered fallbackEntries, update.1 = txidHex := by
  obtain ⟨txMeta, hlookup⟩ := Option.isSome_iff_exists.mp hsome
  have hin : txid ∈ (scan.matchedSpendTxids ++ recovered.map (fun spend => spend.txid) ++
      fallbackEntries.map (fun entry => entry.2)).dedup :=
    List.mem_dedup.mpr (List.mem_append_left _ (List.mem_append_left _ hmatched))
  show ∃ update ∈ _, Prod.fst update = Prod.fst (txidHex, txMeta)
  refine exists_mem_destutter Prod.fst ((List.mem_insertionSort _).mpr
    (List.mem_flatMap.mpr ⟨txid, hin, ?_⟩))
  rw [hlookup]
  dsimp only
  split
  · rename_i hsame
    rw [hsame, or_self] at hhex
    exact List.mem_singleton.mpr (by rw [hhex])
  · rcases hhex with rfl | rfl
    · exact List.mem_cons_self
    · exact List.mem_cons_of_mem _ (List.mem_singleton_self _)

end Updates

/-- What detecting spends does to the database: nothing, when the scan finds nothing of the
wallet; or the rows are derived again, and then the transaction is made or fails. -/
theorem applySpends_cases (engine : SyncEngine) (input : SpendInput) :
    ((engine.applySpends input).db = engine.db ∧
      ∀ entry ∈ blockTransactions input.blocks, entry.2.hash.length = 32 →
        entry.2.matches engine.nullifierCache = []) ∨
    ∃ kept recovered fallbackEntries updates,
      AutoTable.RowsFrom (Rederived recovered) engine.db.notes kept.notes ∧
      kept.transactions = engine.db.transactions ∧
      ((engine.applySpends input).db = kept ∧ input.applyFault ≠ none ∨
        (engine.applySpends input).db = (kept.applySpendUpdatesWithTxmeta engine.accountId updates
          fallbackEntries ((input.scan engine.nullifierCache engine.trackedWalletTxids).txUpdates
            recovered fallbackEntries)).2) := by
  unfold SyncEngine.applySpends
  split
  · rename_i hempty
    refine Or.inl ⟨rfl, fun entry _ _ => ?_⟩
    have hcache : engine.nullifierCache = ∅ := by
      apply AList.ext
      exact List.isEmpty_iff.mp hempty.1
    rw [hcache]
    exact List.eq_nil_iff_forall_not_mem.mpr fun found hfound => by
      cases (mem_matches.mp hfound).2
  · dsimp only
    split
    · rename_i hquiet
      refine Or.inl ⟨rfl, fun entry hentry hlength => ?_⟩
      refine List.eq_nil_iff_forall_not_mem.mpr fun found hfound => ?_
      obtain ⟨hrevealed, hid⟩ := mem_matches.mp hfound
      have hupdate := (scan_invariant input engine.trackedWalletTxids).complete entry hentry
        hlength found.1 hrevealed found.2 hid
      rw [List.isEmpty_iff.mp (Bool.and_eq_true_iff.mp hquiet).1] at hupdate
      cases hupdate
    · right
      let scan := input.scan engine.nullifierCache engine.trackedWalletTxids
      let derived := input.keys.rederiveUnmatchedSpends engine.accountId scan.unlinkedEntries
        engine.db
      let remaining := remainingEntries derived.1 scan.unlinkedEntries
      have htransactions : derived.2.transactions = engine.db.transactions :=
        @rederiveUnmatchedSpends_frame _ WalletDb.transactions (fun _ _ => rfl) _ _ _ _
      refine ⟨input.keepUnlinked engine.accountId remaining derived.2, derived.1,
        remaining.map (fun entry => (entry.2.1, entry.2.2)),
        scan.spendUpdates ++ derived.1.map (fun spend => (spend.id, spend.txid)), ?_, ?_, ?_⟩
      · rw [keepUnlinked_notes]
        exact (rederiveUnmatchedSpends_spec _ _ _ _).1
      · rw [← htransactions]
        unfold SpendInput.keepUnlinked
        split <;> rfl
      · cases hfault : input.applyFault with
        | some fault => exact Or.inl ⟨rfl, Option.some_ne_none fault⟩
        | none => exact Or.inr rfl

/-- A batch of spends leaves a transaction of an intent recorded, if it was or if it is in the
batch and recognised. -/
theorem recordedFor_applySpends {engine : SyncEngine} {input : SpendInput}
    {intent : OutgoingTransactionIntent} {height : Nat} {txid : Bytes}
    (hcandidate : txid ∈ txidHexCandidates intent.txid)
    (hheights : ∀ entry ∈ blockTransactions input.blocks,
      entry.2.hash ∈ txidHexCandidates intent.txid →
        0 < asI64 entry.1.height ∧ asI64 entry.1.height ≤ height)
    (h : RecordedFor intent height engine.db.transactions ∨ (input.applyFault = none ∧
      ∃ entry ∈ blockTransactions input.blocks, entry.2.hash ∈ txidHexCandidates intent.txid ∧
        entry.2.matches engine.nullifierCache ≠ [])) :
    RecordedFor intent height (engine.applySpends input).db.transactions := by
  have hlength : ∀ {other : Bytes}, other ∈ txidHexCandidates intent.txid → other.length = 32 := by
    intro other hother
    obtain ⟨bytes, -, hbytes, rfl | rfl⟩ := mem_txidHexCandidates.mp hother
    · exact hbytes
    · rw [List.length_reverse, hbytes]
  rcases applySpends_cases engine input with ⟨hsame, hquiet⟩ | ⟨kept, recovered, fallbackEntries,
    updates, -, htransactions, ⟨hafter, hfault⟩ | hafter⟩
  · rw [hsame]
    refine h.resolve_right ?_
    rintro ⟨-, entry, hentry, hnames, hmatches⟩
    exact hmatches (hquiet entry hentry (hlength hnames))
  · rw [hafter, htransactions]
    exact h.resolve_right (fun hrecognised => hfault hrecognised.1)
  · have hscan := scan_meta input engine.nullifierCache engine.trackedWalletTxids
    rw [hafter]
    show RecordedFor intent height (List.foldl _ kept.transactions _)
    rw [htransactions]
    refine recordedFor_foldl_upsert ?_ (h.imp_right ?_)
    · intro update hupdate hnames
      obtain ⟨found, hlookup, hhex⟩ := of_mem_txUpdates hupdate
      obtain ⟨entry, hentry, rfl, hheight⟩ := hscan.heights found _ hlookup
      rw [hheight]
      refine hheights entry hentry ?_
      rcases hhex with hhex | hhex
      · rw [hhex] at hnames
        exact hnames.candidate hcandidate
      · rw [hhex] at hnames
        have hreversed := reverse_mem_txidHexCandidates (hnames.candidate hcandidate)
        rwa [List.reverse_reverse] at hreversed
    · rintro ⟨-, entry, hentry, hnames, hmatches⟩
      obtain ⟨hmatched, hsome⟩ := hscan.matched entry hentry (hlength hnames) hmatches
      rcases names_of_candidate hnames with hnamed | hnamed
      · obtain ⟨update, hupdate, hkey⟩ := exists_txUpdate hmatched hsome (Or.inl rfl)
        exact ⟨update, hupdate, hkey ▸ hnamed⟩
      · obtain ⟨update, hupdate, hkey⟩ := exists_txUpdate hmatched hsome (Or.inr rfl)
        exact ⟨update, hupdate, hkey ▸ hnamed⟩

/-! ## Notes with a spending transaction are spent -/

/-- A move that keeps rows marked keeps tables marked. -/
theorem Notes.Marked.rowsFrom {R : NoteRow → NoteRow → Prop} {before after : Notes}
    (h : before.Marked) (hrows : AutoTable.RowsFrom R before after)
    (hR : ∀ row row', R row row' → row.Marked → row'.Marked) : after.Marked := by
  intro row' hrow'
  obtain ⟨row, hrow, hmove⟩ := hrows row' hrow'
  exact hR row row' hmove (h row hrow)

theorem SpendMove.marked {marks : NoteRow → Prop} {row row' : NoteRow}
    (h : SpendMove marks row row') (hmarked : row.Marked) : row'.Marked := by
  rcases h.status with hsettled | ⟨rfl, -⟩
  · exact fun _ => (Bool.and_eq_true_iff.mp hsettled).1
  · exact hmarked

theorem Rederived.marked {recovered : List RecoveredSpend} {row row' : NoteRow}
    (h : Rederived recovered row row') (hmarked : row.Marked) : row'.Marked := by
  intro hsome
  rw [h.spentTxid_eq] at hsome
  rw [h.spent_eq]
  exact hmarked hsome

theorem unspend_marked (row : NoteRow) : row.unspend.Marked := by
  intro hsome
  cases hsome

theorem link_marked {note : NoteRecord} (h : note.Marked) (spend : Option Bytes) :
    (note.link spend).Marked := by
  cases spend with
  | some txid => exact fun _ => rfl
  | none => exact h

theorem FoldedFrom.marked {rows : List NoteRow} {folded : NoteRow} (h : FoldedFrom rows folded)
    (hrows : ∀ row ∈ rows, row.Marked) : folded.Marked := by
  intro hsome
  obtain ⟨txid, htxid⟩ := Option.isSome_iff_exists.mp hsome
  obtain ⟨row, hrow, hspent⟩ := h.spentTxid txid htxid
  exact h.spent row hrow (hrows row hrow (Option.isSome_iff_exists.mpr ⟨txid, hspent⟩))

/-- Folding duplicates keeps the table marked, and so are the rows it returns. -/
theorem prepareNoteUpserts_marked {notes : Notes} (h : notes.Marked) (accountId : Int)
    (outputs : List OutputKey) :
    (notes.prepareNoteUpserts accountId outputs).2.Marked ∧
      ∀ row ∈ (notes.prepareNoteUpserts accountId outputs).1, row.Marked := by
  have hprepared := prepareNoteUpserts_spec accountId outputs notes
  have hfolded : ∀ row ∈ (notes.prepareNoteUpserts accountId outputs).1, row.Marked := by
    intro row hrow
    exact (hprepared.folded row hrow).marked
      (fun old hold => h old (Notes.mem_rowsOf.mp hold).1)
  refine ⟨fun row hrow => ?_, hfolded⟩
  by_cases hwanted : row.accountId = accountId ∧ row.outputKey ∈ outputs
  · exact hfolded row ((hprepared.found row).mpr
      ⟨Notes.mem_ofAccount.mpr ⟨hrow, hwanted.1⟩, hwanted.2⟩)
  · exact h row ((hprepared.others row hwanted).mp hrow)

theorem Notes.Marked.updateNoteById {notes : Notes} (h : notes.Marked) {note : NoteRow}
    (hnote : note.Marked) : (notes.updateNoteById note).Marked := by
  intro row hrow
  obtain ⟨old, hold, rfl⟩ := List.mem_map.mp hrow
  split
  · exact hnote
  · exact h old hold

/-- The rows and the index of the loop are marked. -/
structure PersistState.Marked (state : PersistState) : Prop where
  rows : state.notes.Marked
  index : ∀ key row, state.existingByOutput.lookup key = some row → row.Marked

theorem PersistState.Marked.persistNote {state : PersistState} (h : state.Marked)
    (input : PersistInput) (accountId : Int) (unlinked : UnlinkedSpendMap) (n : DecryptedNote) :
    (input.persistNote accountId unlinked state n).Marked := by
  -- the index after a row was put under the output of the note
  have hput : ∀ {index : AList (fun _ : OutputKey => NoteRow)} {put : NoteRow},
      (∀ key row, index.lookup key = some row → row.Marked) → put.Marked →
      ∀ key row, (index.insert n.outputKey put).lookup key = some row → row.Marked := by
    intro index put hindex hmarked key row hlookup
    by_cases hkey : key = n.outputKey
    · rw [hkey, AList.lookup_insert] at hlookup
      exact Option.some.inj hlookup ▸ hmarked
    · rw [AList.lookup_insert_ne hkey] at hlookup
      exact hindex key row hlookup
  obtain ⟨hmetaNotes, hmetaIndex⟩ := upsertMeta_same input n state
  have hrows : (state.upsertMeta input n).notes.Marked := hmetaNotes ▸ h.rows
  have hindex : ∀ key row, (state.upsertMeta input n).existingByOutput.lookup key = some row →
      row.Marked := hmetaIndex ▸ h.index
  unfold PersistInput.persistNote
  split
  · exact h
  · dsimp only
    split
    · rename_i existing hlookup
      have hupserted : (existing.upsert unlinked n (input.addressId n)).Marked :=
        @link_marked (existing.refresh n (input.addressId n)).toNoteRecord
          (hindex _ existing hlookup) _
      refine ⟨?_, hput hindex hupserted⟩
      show Notes.Marked (if _ then _ else _)
      split
      · exact hrows
      · exact hrows.updateNoteById hupserted
    · split
      · exact ⟨hrows, hindex⟩
      · have hcreated : ((input.newRecord accountId n).link (n.linkedSpend unlinked)).Marked :=
          link_marked (fun hsome => by cases hsome) _
        refine ⟨fun row hrow => ?_, hput hindex hcreated⟩
        rcases Notes.mem_insertNote.mp hrow with hold | rfl
        · exact hrows row hold
        · exact hcreated

theorem persisted_marked {db : WalletDb} (h : db.notes.Marked) (input : PersistInput)
    (accountId : Int) : (input.persisted accountId db).notes.Marked := by
  have hloop : ∀ (todo : List DecryptedNote) (state : PersistState), state.Marked →
      (todo.foldl (input.persistNote accountId (input.unlinkedSpends accountId db))
        state).Marked := by
    intro todo
    induction todo with
    | nil => exact fun _ hstate => hstate
    | cons n rest ih =>
      intro state hstate
      exact ih _ (hstate.persistNote input accountId _ n)
  obtain ⟨hnotes, hfolded⟩ := prepareNoteUpserts_marked h accountId input.candidateOutputKeys
  refine (hloop _ _ ⟨hnotes, fun key row hlookup => ?_⟩).rows
  rcases BulkMap.mem_of_lookup_insertAll hlookup with hmem | hempty
  · obtain ⟨found, hfound, heq⟩ := List.mem_map.mp hmem
    obtain ⟨-, rfl⟩ := Prod.mk.inj heq
    exact hfolded found hfound
  · cases hempty

theorem applySpends_marked {engine : SyncEngine} (h : engine.db.notes.Marked)
    (input : SpendInput) : (engine.applySpends input).db.notes.Marked := by
  rcases applySpends_cases engine input with ⟨hsame, -⟩ | ⟨kept, recovered, fallbackEntries,
    updates, hrows, -, hafter⟩
  · rwa [hsame]
  · have hkept : kept.notes.Marked := h.rowsFrom hrows (fun _ _ hmove => hmove.marked)
    rcases hafter with ⟨hafter, -⟩ | hafter
    · rwa [hafter]
    · rw [hafter]
      exact hkept.rowsFrom (applySpendUpdatesWithTxmeta_rows _ _ _ _ _)
        (fun _ _ hmove => hmove.marked)

/-- Forgetting the spend of some rows keeps the table marked. -/
theorem Notes.Marked.unspendWhere {notes : Notes} (h : notes.Marked) (p : NoteRow → Bool) :
    Notes.Marked (notes.updateWhere p NoteRow.unspend (fun _ => rfl)) := by
  intro row hrow
  obtain ⟨old, hold, rfl⟩ := List.mem_map.mp hrow
  split
  · exact unspend_marked old
  · exact h old hold

theorem truncated_marked {db : WalletDb} (h : db.notes.Marked) (now : String) (height : Nat) :
    (db.truncated now height).notes.Marked :=
  fun row hrow => (h.unspendWhere _) row (List.mem_of_mem_filter hrow)

/-! ## Runs -/

/-- Every transaction of a scanned block that is not pending is recorded for its intents. -/
structure OutgoingRun.Traced (run : OutgoingRun) : Prop where
  heights : ∀ mined ∈ run.scanned, 0 < mined.1 ∧ mined.1 ≤ i64Max
  recorded : ∀ mined ∈ run.scanned, mined ∉ run.pending → ∀ intent ∈ run.intents,
    mined.2 ∈ txidHexCandidates intent.txid →
      RecordedFor intent mined.1 run.engine.db.transactions
  marked : run.engine.db.notes.Marked

namespace OutgoingRun

variable {run : OutgoingRun}

theorem step_write_engine (run : OutgoingRun) (write : DurableWrite) :
    (run.step (.write write)).engine = run.engine.write write := rfl

theorem step_write_intents (run : OutgoingRun) (write : DurableWrite) :
    (run.step (.write write)).intents = run.intents := rfl

/-- A write whose transactions are pending afterwards, and that keeps what is recorded. -/
theorem Traced.append (h : run.Traced) {after : OutgoingRun} {new : List (Nat × Bytes)}
    (hscanned : after.scanned = run.scanned ++ new)
    (hpending : after.pending = run.pending ++ new.filter (fun entry => entry ∉ run.scanned))
    (hintents : after.intents = run.intents)
    (hheights : ∀ mined ∈ new, 0 < mined.1 ∧ mined.1 ≤ i64Max)
    (hmarked : after.engine.db.notes.Marked)
    (hkept : ∀ mined ∈ run.scanned, ∀ intent ∈ run.intents,
      mined.2 ∈ txidHexCandidates intent.txid →
        RecordedFor intent mined.1 run.engine.db.transactions →
          RecordedFor intent mined.1 after.engine.db.transactions) : after.Traced where
  heights := by
    rw [hscanned, List.forall_mem_append]
    exact ⟨h.heights, hheights⟩
  recorded := by
    intro mined hmined hsettled intent hintent hcandidate
    rw [hscanned] at hmined
    rw [hpending, List.mem_append, not_or] at hsettled
    rw [hintents] at hintent
    have hold : mined ∈ run.scanned := by
      rcases List.mem_append.mp hmined with hold | hnew
      · exact hold
      · by_contra hfresh
        exact hsettled.2 (List.mem_filter.mpr ⟨hnew, decide_eq_true hfresh⟩)
    exact hkept mined hold intent hintent hcandidate
      (h.recorded mined hold hsettled.1 intent hintent hcandidate)
  marked := hmarked

theorem Traced.persistNotes (h : run.Traced) {input : PersistInput}
    (hkeeps : run.KeepsTrack (.write (.persistNotes input))) :
    (run.step (.write (.persistNotes input))).Traced := by
  obtain ⟨hheights, -, hnotes⟩ := hkeeps
  have hafter := persistNotes_cases run.engine input
  refine h.append rfl rfl rfl hheights ?_ ?_
  · show (run.engine.persistNotes input).db.notes.Marked
    rcases hafter with hsame | ⟨hrows, -⟩
    · rw [hsame]
      exact h.marked
    · rw [hrows]
      exact persisted_marked h.marked input _
  · intro mined hmined intent hintent hcandidate hrecorded
    show RecordedFor intent mined.1 (run.engine.persistNotes input).db.transactions
    rcases hafter with hsame | ⟨-, htransactions⟩
    · rwa [hsame]
    · rw [htransactions]
      refine hrecorded.persisted rfl ?_
      intro n hn hnames
      -- a note of the intent's transaction has the height of the scanned block
      have hheight : n.height = mined.1 := hnotes n hn mined (List.mem_append_left _ hmined)
        (candidates_same (hnames.candidate hcandidate) hcandidate)
      obtain ⟨hpositive, hfits⟩ := h.heights mined hmined
      rw [hheight, asI64_of_le hfits]
      exact ⟨Int.natCast_pos.mpr hpositive, le_refl _⟩

theorem Traced.applySpends (h : run.Traced) {input : SpendInput}
    (hkeeps : run.KeepsTrack (.write (.applySpends input))) :
    (run.step (.write (.applySpends input))).Traced := by
  obtain ⟨hheights, honce, hrecognises⟩ := hkeeps
  have hscanned : ∀ mined ∈ run.scanned ++ minedTransactions input.blocks,
      0 < mined.1 ∧ mined.1 ≤ i64Max :=
    List.forall_mem_append.mpr ⟨h.heights, hheights⟩
  constructor
  · exact hscanned
  · intro mined hmined hsettled intent hintent hcandidate
    have hmined' : mined ∈ run.scanned ++ minedTransactions input.blocks := hmined
    refine recordedFor_applySpends hcandidate ?_ ?_
    · intro entry hentry hnames
      have hin : (entry.1.height, entry.2.hash) ∈ minedTransactions input.blocks :=
        List.mem_map.mpr ⟨entry, hentry, rfl⟩
      have hheight : entry.1.height = mined.1 :=
        honce _ hin mined hmined' (candidates_same hnames hcandidate)
      obtain ⟨hpositive, hfits⟩ := hscanned mined hmined'
      rw [hheight, asI64_of_le hfits]
      exact ⟨Int.natCast_pos.mpr hpositive, le_refl _⟩
    · by_cases hbatch : mined ∈ minedTransactions input.blocks
      · obtain ⟨entry, hentry, rfl⟩ := List.mem_map.mp hbatch
        refine (hrecognises entry hentry intent hintent hcandidate).imp_right ?_
        rintro ⟨hfault, hmatches⟩
        exact ⟨hfault, entry, hentry, hcandidate, hmatches⟩
      · -- not of this batch, so it was recorded before
        have hold := (List.mem_append.mp hmined').resolve_right hbatch
        refine Or.inl (h.recorded mined hold (fun hpending => hsettled ?_) intent hintent hcandidate)
        exact List.mem_filter.mpr ⟨hpending, decide_eq_true hbatch⟩
  · exact applySpends_marked h.marked input

theorem Traced.write (h : run.Traced) {write : DurableWrite}
    (hkeeps : run.KeepsTrack (.write write)) : (run.step (.write write)).Traced := by
  cases write with
  | updateCommitmentTrees trees =>
    exact h.append rfl rfl rfl hkeeps.1 h.marked (fun _ _ _ _ _ hrecorded => hrecorded)
  | persistNotes input => exact h.persistNotes hkeeps
  | applySpends input => exact h.applySpends hkeeps
  | createCheckpoint trees =>
    exact h.append rfl rfl rfl hkeeps.1 h.marked (fun _ _ _ _ _ hrecorded => hrecorded)
  | saveSyncState blocks flush =>
    obtain ⟨hnotes, htransactions, -⟩ := saveSyncState_write run.engine blocks flush
    refine h.append rfl rfl (step_write_intents run _) hkeeps.1 ?_ ?_
    · rw [step_write_engine, hnotes]
      exact h.marked
    · intro mined _ intent _ _ hrecorded
      rwa [step_write_engine, htransactions]

theorem Traced.truncate (h : run.Traced) (now : String) (height : Nat) :
    (run.step (.truncate now height)).Traced := by
  unfold step
  dsimp only
  split
  · exact h
  · rename_i rolledBack hrollback
    obtain ⟨-, -, hdb, -⟩ := rollbackToCheckpoint_eq_ok hrollback
    constructor
    · exact fun mined hmined => h.heights mined (List.mem_of_mem_filter hmined)
    · intro mined hmined hsettled intent hintent hcandidate
      obtain ⟨hold, hlow⟩ := List.mem_filter.mp hmined
      obtain ⟨tx, htx, hnames, hpositive, hle⟩ := h.recorded mined hold
        (fun hpending => hsettled (List.mem_filter.mpr ⟨hpending, hlow⟩)) intent hintent hcandidate
      have hlow' : mined.1 ≤ height := of_decide_eq_true hlow
      -- the record is at or below the block, which was not cut away
      have hkept : tx ∈ (run.engine.db.truncated now height).transactions :=
        List.mem_filter.mpr ⟨htx, decide_eq_true (by omega)⟩
      show RecordedFor intent mined.1 rolledBack.db.transactions
      rw [hdb]
      exact ⟨tx, hkept, hnames, hpositive, hle⟩
    · show rolledBack.db.notes.Marked
      rw [hdb]
      exact truncated_marked h.marked now height

/-- Storing an intent keeps what is recorded. -/
theorem recordedFor_storeIntent {intent other : OutgoingTransactionIntent}
    (intents : List OutgoingTransactionIntent) {transactions : List TransactionRow} {height : Nat}
    (h : RecordedFor other height transactions) :
    RecordedFor other height (StashiWallet.storeIntent intent intents transactions).2 := by
  obtain ⟨tx, htx, hnames, hrange⟩ := h
  unfold StashiWallet.storeIntent
  dsimp only
  split
  · refine ⟨_, List.mem_map_of_mem htx, ?_⟩
    split
    · exact ⟨hnames, hrange⟩
    · exact ⟨hnames, hrange⟩
  · exact ⟨tx, List.mem_append_left _ htx, hnames, hrange⟩

theorem mem_storeIntent {intent other : OutgoingTransactionIntent}
    {intents : List OutgoingTransactionIntent} (transactions : List TransactionRow)
    (h : other ∈ (StashiWallet.storeIntent intent intents transactions).1) :
    other = intent ∨ other ∈ intents := by
  unfold StashiWallet.storeIntent at h
  dsimp only at h
  split at h
  · obtain ⟨stored, hstored, rfl⟩ := List.mem_map.mp h
    split
    · exact Or.inl rfl
    · exact Or.inr hstored
  · exact (List.mem_append.mp h).symm.imp_left List.mem_singleton.mp

theorem Traced.storeIntent (h : run.Traced) {intent : OutgoingTransactionIntent}
    (hkeeps : run.KeepsTrack (.storeIntent intent)) : (run.step (.storeIntent intent)).Traced where
  heights := h.heights
  recorded := by
    intro mined hmined hsettled other hother hcandidate
    have hrecorded : RecordedFor other mined.1 run.engine.db.transactions := by
      rcases mem_storeIntent run.engine.db.transactions hother with rfl | hstored
      · exact hkeeps mined hmined hsettled hcandidate
      · exact h.recorded mined hmined hsettled other hstored hcandidate
    exact recordedFor_storeIntent run.intents hrecorded
  marked := h.marked

/-- An expiry height does not change what an intent's transaction is. -/
theorem Traced.initializeLegacyExpiries (h : run.Traced) (accountId : Int)
    (transactionLifetime : Nat) :
    (run.step (.initializeLegacyExpiries accountId transactionLifetime)).Traced where
  heights := h.heights
  recorded := by
    intro mined hmined hsettled other hother hcandidate
    obtain ⟨stored, hstored, rfl⟩ := List.mem_map.mp hother
    split at hcandidate
    · rename_i hlegacy
      rw [if_pos hlegacy]
      exact h.recorded mined hmined hsettled stored hstored hcandidate
    · rename_i hlegacy
      rw [if_neg hlegacy]
      exact h.recorded mined hmined hsettled stored hstored hcandidate
  marked := h.marked

/-- The step lemma: a call that keeps track leaves the run traced. -/
theorem Traced.step (h : run.Traced) {call : OutgoingCall} (hkeeps : run.KeepsTrack call) :
    (run.step call).Traced := by
  cases call with
  | write write => exact h.write hkeeps
  | ensureNullifierCache =>
    refine ⟨h.heights, ?_, ?_⟩
    · intro mined hmined hsettled intent hintent hcandidate
      show RecordedFor intent mined.1 run.engine.ensureNullifierCache.db.transactions
      rw [run.engine.ensureNullifierCache_db]
      exact h.recorded mined hmined hsettled intent hintent hcandidate
    · show run.engine.ensureNullifierCache.db.notes.Marked
      rw [run.engine.ensureNullifierCache_db]
      exact h.marked
  | truncate now height => exact h.truncate now height
  | storeIntent intent => exact h.storeIntent hkeeps
  | lockNotes accountId entries =>
    refine ⟨h.heights, h.recorded, ?_⟩
    exact h.marked.rowsFrom (spendByNullifier_rows accountId entries run.engine.db.notes)
      (fun _ _ hmove => hmove.marked)
  | initializeLegacyExpiries accountId transactionLifetime =>
    exact h.initializeLegacyExpiries accountId transactionLifetime
  | release accountId done =>
    cases done with
    | false => exact h
    | true => exact ⟨h.heights, h.recorded, h.marked.unspendWhere _⟩

/-! ## What a release clears -/

theorem expired_iff {accountId : Int} {localHeight : Nat} {transactions : List TransactionRow}
    {intent : OutgoingTransactionIntent} :
    (intent.accountId == accountId && intent.expiryHeight != 0 &&
      decide (intent.expiryHeight < localHeight) &&
      !outgoingTransactionIsConfirmed intent.txid transactions) = true ↔
    intent.Expired accountId localHeight transactions := by
  have hconfirmed : (!outgoingTransactionIsConfirmed intent.txid transactions) = true ↔
      ∀ tx ∈ transactions, intent.Names tx.txid → tx.height ≤ 0 := by
    rw [Bool.not_eq_true', outgoingTransactionIsConfirmed, List.any_eq_false]
    refine forall₂_congr fun tx _ => ?_
    simp only [Bool.and_eq_true, Bool.or_eq_true, beq_iff_eq, decide_eq_true_eq, not_and, not_lt]
    rfl
  simp only [Bool.and_eq_true, beq_iff_eq, bne_iff_ne, decide_eq_true_eq, hconfirmed]
  constructor
  · rintro ⟨⟨⟨haccount, hexpiry⟩, hpassed⟩, hunconfirmed⟩
    exact ⟨haccount, Nat.pos_of_ne_zero hexpiry, hpassed, hunconfirmed⟩
  · intro h
    exact ⟨⟨⟨h.accountId, h.expiryHeight_pos.ne'⟩, h.expiryHeight_lt⟩, h.unconfirmed⟩

/-- The rows the release writes are those locked by expired intents. -/
theorem released_iff {accountId : Int} {row : NoteRow} (hmarked : row.Marked) :
    (row.accountId == accountId && row.spent && row.spentByAny (expiredOutgoingTxids accountId
      run.localHeight run.intents run.engine.db.transactions)) = true ↔
    run.LockedByExpired accountId row := by
  have hexpired : ∀ txid, txid ∈ expiredOutgoingTxids accountId run.localHeight run.intents
      run.engine.db.transactions ↔ ∃ intent ∈ run.intents,
        intent.Expired accountId run.localHeight run.engine.db.transactions ∧
        txid ∈ txidHexCandidates intent.txid := by
    intro txid
    simp only [expiredOutgoingTxids, List.mem_flatMap, List.mem_filter, expired_iff, and_assoc]
  unfold NoteRecord.spentByAny LockedByExpired
  simp only [Bool.and_eq_true, beq_iff_eq, and_assoc]
  refine and_congr_right fun _ => ?_
  constructor
  · rintro ⟨-, hspent⟩
    split at hspent
    · rename_i txid htxid
      obtain ⟨hlength, hin⟩ := Bool.and_eq_true_iff.mp hspent
      obtain ⟨intent, hintent, hexpiredIntent, hcandidate⟩ :=
        (hexpired txid).mp (List.contains_iff_mem.mp hin)
      obtain ⟨bytes, hbytes, hlength, heq⟩ := mem_txidHexCandidates.mp hcandidate
      refine ⟨intent, hintent, hexpiredIntent, bytes, hbytes, hlength, ?_⟩
      rcases heq with rfl | rfl
      · exact Or.inl htxid
      · exact Or.inr htxid
    · cases hspent
  · rintro ⟨intent, hintent, hexpiredIntent, bytes, hbytes, hlength, heq⟩
    obtain ⟨txid, htxid, hcandidate⟩ : ∃ txid, row.spentTxid = some txid ∧
        (txid = bytes ∨ txid = bytes.reverse) := by
      rcases heq with heq | heq
      · exact ⟨_, heq, Or.inl rfl⟩
      · exact ⟨_, heq, Or.inr rfl⟩
    refine ⟨hmarked (Option.isSome_iff_exists.mpr ⟨txid, htxid⟩), ?_⟩
    rw [htxid]
    dsimp only
    have hin := (hexpired txid).mpr ⟨intent, hintent, hexpiredIntent,
      mem_txidHexCandidates.mpr ⟨bytes, hbytes, hlength, hcandidate⟩⟩
    have hsize : txid.length = 32 := by
      rcases hcandidate with rfl | rfl
      · exact hlength
      · rw [List.length_reverse, hlength]
    rw [hsize, beq_self_eq_true, Bool.true_and]
    exact List.contains_iff_mem.mpr hin

/-- In a traced run a release that keeps track releases what it should. -/
theorem Traced.releases (h : run.Traced) {call : OutgoingCall} (hkeeps : run.KeepsTrack call) :
    run.ReleasesExpired call := by
  match call with
  | .release accountId true =>
    refine ⟨?_, ?_, ?_⟩
    · intro row hrow row' hrow' hid
      obtain ⟨old, hold, rfl⟩ := List.mem_map.mp hrow'
      have hsame : old = row := by
        refine AutoTable.row_eq_of_id hold hrow (Eq.trans ?_ hid)
        split <;> rfl
      rw [hsame]
      have hcleared := @released_iff run accountId row (h.marked row hrow)
      constructor
      · intro hlocked
        exact if_pos (hcleared.mpr hlocked)
      · intro hfree
        exact if_neg (fun hreleased => hfree (hcleared.mp hreleased))
    · show List.map _ (List.map _ _) = _
      rw [List.map_map]
      refine List.map_congr_left fun row _ => ?_
      simp only [Function.comp_apply]
      split <;> rfl
    · rintro row hrow ⟨-, intent, hintent, hexpired, bytes, hbytes, hlength, hspent⟩
        mined hmined hlow
      rw [← not_or]
      intro hown
      have hcandidate : mined.2 ∈ txidHexCandidates intent.txid := by
        refine mem_txidHexCandidates.mpr ⟨bytes, hbytes, hlength, ?_⟩
        rcases hspent with hspent | hspent
        · rcases hown with hown | hown
          · exact Or.inl (Option.some.inj (hown.symm.trans hspent))
          · refine Or.inr ?_
            rw [← Option.some.inj (hown.symm.trans hspent), List.reverse_reverse]
        · rcases hown with hown | hown
          · exact Or.inr (Option.some.inj (hown.symm.trans hspent))
          · exact Or.inl (List.reverse_inj.mp (Option.some.inj (hown.symm.trans hspent)))
      by_cases hpending : mined ∈ run.pending
      · exact hkeeps mined hpending hlow intent hintent hcandidate hexpired
      · obtain ⟨tx, htx, hnames, hpositive, -⟩ :=
          h.recorded mined hmined hpending intent hintent hcandidate
        exact absurd (hexpired.unconfirmed tx htx hnames) (not_le.mpr hpositive)
  | .release _ false | .write _ | .ensureNullifierCache | .truncate _ _ | .storeIntent _
  | .lockNotes _ _ | .initializeLegacyExpiries _ _ => exact trivial

end OutgoingRun

/-- **A release gives back the notes of expired transactions and of no mined one**, in every run
whose calls keep track of the mined transactions. -/
theorem released_notes_unmined (run : OutgoingRun) (hscanned : run.scanned = [])
    (hmarked : run.engine.db.notes.Marked) (calls : List OutgoingCall)
    (h : Runs.EachStep OutgoingRun.step OutgoingRun.KeepsTrack run calls) :
    Runs.EachStep OutgoingRun.step OutgoingRun.ReleasesExpired run calls := by
  have hstart : run.Traced := by
    refine ⟨?_, ?_, hmarked⟩
    · rw [hscanned]
      exact List.forall_mem_nil _
    · rw [hscanned]
      exact List.forall_mem_nil _
  have hpassed := Runs.run_invariant (fun _ _ hrun hkeeps => hrun.step hkeeps) hstart h
  intro done call rest hsplit
  have hrun : (Runs.run OutgoingRun.step run done).Traced := hpassed done ⟨call :: rest, hsplit.symm⟩
  exact hrun.releases (h done call rest hsplit)

/-! ## One note, one intent -/

/-- A note of a wallet, in the transaction of a byte. -/
def incomingNote (height : Nat) (byte : UInt8) (nullifier : Bytes) : DecryptedNote where
  noteType := .ironwood
  height := height
  txid := List.replicate 32 byte
  txHash := List.replicate 32 byte
  outputIndex := 0
  value := 90000
  commitment := List.replicate 32 4
  nullifier := nullifier
  memoBytes := none
  keyId := some 1
  diversifier := []
  noteBytes := [2]
  position := none

/-- A block with the transaction of a byte, and the nullifiers it reveals. -/
def blockOf (height : Nat) (byte : UInt8) (nullifiers : List Bytes) : CompactBlockData where
  protoVersion := 1
  height := height
  hash := []
  prevHash := []
  time := 0
  header := []
  transactions := [{
    index := none
    hash := List.replicate 32 byte
    fee := none
    spends := []
    outputs := []
    actions := nullifiers.map (fun nullifier => ⟨nullifier, [], [], [], []⟩) }]

/-- The write of the notes of some blocks. -/
abbrev storeNotes (notes : List DecryptedNote) (blocks : List CompactBlockData) : DurableWrite :=
  .persistNotes {
    notes := notes
    blocks := blocks
    positionMappings := ⟨∅, ∅⟩
    addressId := fun _ => none
    insertFails := fun _ => false
    timestamp := 0
    now := "t" }

/-- A wallet before its first batch. -/
def freshRun : OutgoingRun where
  engine := {
    db := WalletDb.fresh "t"
    accountId := 1
    birthdayHeight := 1
    nullifierCache := ∅
    nullifierCacheLoaded := true
    trackedWalletTxids := ∅
    saplingTreePosition := 0
    orchardTreePosition := 0 }
  intents := []
  scanned := []
  pending := []

/-- Two notes are found and spent by transactions that expire at 140. -/
def lockedUntil140 : List OutgoingCall :=
  [.write (storeNotes [incomingNote 100 3 (List.replicate 32 5),
      incomingNote 101 4 (List.replicate 32 6)] [blockOf 100 3 [], blockOf 101 4 []]),
    .storeIntent ⟨hexEncode (List.replicate 32 7), 1, 80000, 10000, 0, 140⟩,
    .storeIntent ⟨hexEncode (List.replicate 32 9), 1, 80000, 10000, 0, 140⟩,
    .lockNotes 1 [(List.replicate 32 5, List.replicate 32 7),
      (List.replicate 32 6, List.replicate 32 9)]]

/-- The first transaction is in block 130, and the cursor moves to 141. -/
def minedAt130 : List OutgoingCall :=
  [.write (.applySpends {
      blocks := [blockOf 100 3 [], blockOf 101 4 [], blockOf 130 7 [List.replicate 32 5]]
      keys := ⟨false, true, fun _ => []⟩
      timestamp := 0
      unlinkedFault := none
      applyFault := none }),
    .write (.saveSyncState [⟨1, 141, [], [], 0, [], []⟩] ⟨"t", 141, 0, none⟩)]

/-- The cache still knows the first note, so its spend is recorded and it stays spent. The second
one is given back. -/
theorem released_notes_unmined_recognised :
    Runs.EachStep OutgoingRun.step OutgoingRun.ReleasesExpired freshRun
      (lockedUntil140 ++ minedAt130 ++ [.release 1 true]) ∧
    (Runs.run OutgoingRun.step freshRun (lockedUntil140 ++ minedAt130 ++
      [.release 1 true])).engine.db.notes.rows.map (·.spent) = [true, false] := by
  refine ⟨released_notes_unmined freshRun rfl (List.forall_mem_nil _) _ ?_, by decide +kernel⟩
  refine Runs.eachStep_cons.mpr ⟨⟨by decide +kernel, by decide +kernel, by decide +kernel⟩, ?_⟩
  refine Runs.eachStep_cons.mpr ⟨?_, Runs.eachStep_cons.mpr ⟨?_, ?_⟩⟩
  iterate 2
    intro mined hmined hsettled
    refine absurd ?_ hsettled
    revert mined
    decide +kernel
  refine Runs.eachStep_cons.mpr ⟨trivial, ?_⟩
  refine Runs.eachStep_cons.mpr ⟨⟨by decide +kernel, by decide +kernel, ?_⟩, ?_⟩
  · intro entry hentry intent hintent hcandidate
    right
    revert intent
    revert entry
    decide +kernel
  refine Runs.eachStep_cons.mpr ⟨⟨by decide +kernel, by decide +kernel, trivial⟩, ?_⟩
  refine Runs.eachStep_cons.mpr ⟨fun mined hmined => ?_, Runs.eachStep_nil⟩
  -- nothing is pending
  exfalso
  revert mined
  decide +kernel

/-- A rollback drops the cache, which is loaded again without the note, and the transaction is
not recorded; or the release comes between the write that moves the cursor and the one that
applies the spends. Both times the note is released though it was spent in block 130. -/
theorem released_note_mined :
    ¬ Runs.EachStep OutgoingRun.step OutgoingRun.ReleasesExpired freshRun
        (lockedUntil140 ++ [.truncate "t" 120, .ensureNullifierCache] ++ minedAt130 ++
          [.release 1 true]) ∧
      ¬ Runs.EachStep OutgoingRun.step OutgoingRun.ReleasesExpired freshRun
        (lockedUntil140 ++ [.write (storeNotes [incomingNote 150 6 (List.replicate 32 8)]
          [blockOf 130 7 [List.replicate 32 5], blockOf 150 6 []])] ++ [.release 1 true]) := by
  have hmined : ∀ calls,
      (∃ row ∈ (Runs.run OutgoingRun.step freshRun calls).engine.db.notes.rows,
        row.spent = true ∧
        (row.accountId == 1 && row.spent && row.spentByAny (expiredOutgoingTxids 1
          (Runs.run OutgoingRun.step freshRun calls).localHeight
          (Runs.run OutgoingRun.step freshRun calls).intents
          (Runs.run OutgoingRun.step freshRun calls).engine.db.transactions)) = true ∧
        ∃ mined ∈ (Runs.run OutgoingRun.step freshRun calls).scanned,
          mined.1 ≤ (Runs.run OutgoingRun.step freshRun calls).localHeight ∧
          row.spentTxid = some mined.2) →
      ¬ Runs.EachStep OutgoingRun.step OutgoingRun.ReleasesExpired freshRun
        (calls ++ [.release 1 true]) := by
    rintro calls ⟨row, hrow, hspent, hreleased, mined, hmined, hlow, htxid⟩ hall
    have hlocked := (OutgoingRun.released_iff (fun _ => hspent)).mp hreleased
    exact ((hall calls (.release 1 true) [] rfl).2.2 row hrow hlocked mined hmined hlow).1 htxid
  exact ⟨hmined _ (by decide +kernel), hmined _ (by decide +kernel)⟩

end StashiWallet
