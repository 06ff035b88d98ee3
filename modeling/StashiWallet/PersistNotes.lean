import StashiWallet.NoteStore
import StashiWallet.CommitmentPositions

/-!
# Persisting the notes of a batch

`persist_notes_with_db` upserts the notes found in a batch, one row for each output. It
reports what the nullifier cache has to learn and to forget, and as its last write it moves
the sync cursor to the highest block that holds one of the notes.

What trial decryption, the address book and the clock contribute is input. A refused
`INSERT` is logged and skipped by the source, so the input says for which notes that happens;
every other storage error ends the run.
-/

namespace StashiWallet

/-- The output a decrypted note stands for. -/
def DecryptedNote.outputKey (n : DecryptedNote) : OutputKey :=
  (n.txid, (n.outputIndex : Int), n.noteType)

/-- What `persist_notes_with_db` is given. -/
structure PersistInput where
  notes : List DecryptedNote
  blocks : List CompactBlockData
  positionMappings : PositionMaps
  addressId : DecryptedNote → Option Int
  insertFails : DecryptedNote → Bool
  timestamp : Int
  now : String

/-- `tx_times`: the block time of every transaction of the batch. -/
def PersistInput.txTimes (input : PersistInput) : AList (fun _ : String => Int) :=
  BulkMap.insertAll ∅ (input.blocks.flatMap (fun block =>
    block.transactions.map (fun tx => (hexEncode tx.hash, (block.time : Int)))))

def PersistInput.txFees (input : PersistInput) : AList (fun _ : String => Int) :=
  BulkMap.insertAll ∅ (input.blocks.flatMap (fun block =>
    block.transactions.map (fun tx => (hexEncode tx.hash, asI64 (tx.fee.getD 0)))))

/-- The stored position of a new note: its own, or the one recorded for its output. -/
def PersistInput.positionOf (input : PersistInput) (n : DecryptedNote) : Option Int :=
  let fallback := match n.noteType with
    | .sapling => (TxOutputKey.new n.txHash n.outputIndex).bind
        (fun key => input.positionMappings.saplingByTx.lookup key)
    | .ironwood => input.positionMappings.orchardByCommitment.lookup n.commitment
  (n.position.or fallback).map asI64

/-- The record of a note that has no row yet. -/
def PersistInput.newRecord (input : PersistInput) (accountId : Int) (n : DecryptedNote) :
    NoteRecord where
  accountId := accountId
  keyId := n.keyId
  noteType := n.noteType
  value := asI64 n.value
  nullifier := n.nullifier
  commitment := n.commitment
  spent := false
  height := asI64 n.height
  txid := n.txid
  outputIndex := n.outputIndex
  addressId := input.addressId n
  spentTxid := none
  diversifier := if n.diversifier.isEmpty then none else some n.diversifier
  note := if n.noteBytes.isEmpty then none else some n.noteBytes
  position := input.positionOf n
  memo := n.memoBytes

/-- A row brought up to date with what the scan found. -/
def NoteRow.refresh (n : DecryptedNote) (addressId : Option Int) (existing : NoteRow) : NoteRow :=
  { existing with
    noteType := n.noteType
    value := asI64 n.value
    nullifier := n.nullifier
    commitment := n.commitment
    memo := existing.memo.or n.memoBytes
    height := if n.height > 0 then asI64 n.height else existing.height
    addressId := existing.addressId.or addressId
    note := if n.noteBytes.isEmpty then existing.note else some n.noteBytes
    position := match n.position with
      | some position => some (asI64 position)
      | none => existing.position
    keyId := n.keyId.or existing.keyId
    diversifier := if n.diversifier.isEmpty then existing.diversifier else some n.diversifier }

/-- The spends that were seen before their note, as `persist_notes_with_db` has consumed
them. -/
abbrev UnlinkedSpendMap := AList (fun _ : TypedNullifier => Bytes)

/-- The recorded spend of a note, if its nullifier identifies it. -/
def DecryptedNote.linkedSpend (unlinked : UnlinkedSpendMap) (n : DecryptedNote) : Option Bytes :=
  if usableNullifier n.nullifier then unlinked.lookup (n.noteType, n.nullifier) else none

/-- The note with its recorded spend applied. -/
def NoteRecord.link (linkedSpend : Option Bytes) (note : NoteRecord) : NoteRecord :=
  match linkedSpend with
  | some txid => { note with spent := true, spentTxid := some txid }
  | none => note

/-- The row an upsert leaves in the place of `existing`. -/
def NoteRow.upsert (unlinked : UnlinkedSpendMap) (n : DecryptedNote) (addressId : Option Int)
    (existing : NoteRow) : NoteRow :=
  { (existing.refresh n addressId).toNoteRecord.link (n.linkedSpend unlinked) with
    id := existing.id }

/-- What the loop of `persist_notes_with_db` carries along. -/
structure PersistState where
  notes : Notes
  transactions : List TransactionRow
  upsertedTxids : List String
  existingByOutput : AList (fun _ : OutputKey => NoteRow)
  inserted : List (Bytes × Nat)
  removeFromCache : List Bytes
  shardMetadataUpdates : List (NoteType × Option Int × Int)

/-- The cached nullifiers an upsert of `existing` makes stale: the one it replaces, and its
own if the note turns out to be spent. -/
def staleNullifiers (unlinked : UnlinkedSpendMap) (n : DecryptedNote)
    (existing updated : NoteRow) : List Bytes :=
  (if existing.nullifier ≠ n.nullifier ∧ usableNullifier existing.nullifier = true then
    [existing.nullifier] else []) ++
  (if (n.linkedSpend unlinked).isSome = true ∧ (updated ≠ existing ∨ updated.spent = false) then
    [n.nullifier] else [])

/-- The loop body for a note whose output has a row. -/
def PersistState.update (unlinked : UnlinkedSpendMap) (n : DecryptedNote)
    (addressId : Option Int) (existing : NoteRow) (state : PersistState) : PersistState :=
  let updated := existing.upsert unlinked n addressId
  { state with
    -- a row that would not change is not written
    notes := if updated = existing then state.notes else state.notes.updateNoteById updated
    existingByOutput := state.existingByOutput.insert n.outputKey updated
    removeFromCache := state.removeFromCache ++ staleNullifiers unlinked n existing updated
    inserted :=
      if usableNullifier n.nullifier = true ∧ n.linkedSpend unlinked = none ∧
          updated.spent = false then
        state.inserted ++ [(n.nullifier, existing.id)]
      else state.inserted
    shardMetadataUpdates := state.shardMetadataUpdates ++
      [(updated.noteType, updated.position, updated.height)] }

/-- The loop body for a note whose output has no row. -/
def PersistState.create (unlinked : UnlinkedSpendMap) (n : DecryptedNote) (note : NoteRecord)
    (state : PersistState) : PersistState :=
  let record := note.link (n.linkedSpend unlinked)
  let stored : NoteRow := { record with id := (state.notes.insertNote record).1 }
  { state with
    notes := (state.notes.insertNote record).2
    existingByOutput := state.existingByOutput.insert n.outputKey stored
    removeFromCache := state.removeFromCache ++
      (if usableNullifier n.nullifier = true ∧ stored.spent = true then [n.nullifier] else [])
    inserted :=
      if usableNullifier n.nullifier = true ∧ stored.spent = false then
        state.inserted ++ [(n.nullifier, stored.id)]
      else state.inserted
    shardMetadataUpdates := state.shardMetadataUpdates ++
      [(stored.noteType, stored.position, stored.height)] }

/-- The transaction metadata of a note, written once for each transaction. -/
def PersistState.upsertMeta (input : PersistInput) (n : DecryptedNote) (state : PersistState) :
    PersistState :=
  let txidHex := hexEncode n.txid
  if state.upsertedTxids.contains txidHex then state
  else { state with
    upsertedTxids := txidHex :: state.upsertedTxids
    transactions := upsertTransaction txidHex (asI64 n.height)
      ((input.txTimes.lookup txidHex).getD input.timestamp)
      ((input.txFees.lookup txidHex).getD 0) state.transactions }

/-- The loop body of `persist_notes_with_db`. -/
def PersistInput.persistNote (input : PersistInput) (accountId : Int)
    (unlinked : UnlinkedSpendMap) (state : PersistState) (n : DecryptedNote) : PersistState :=
  -- a note without a transaction cannot be stored under its output
  if n.txid.isEmpty then state
  else
    let state := state.upsertMeta input n
    match state.existingByOutput.lookup n.outputKey with
    | some existing => state.update unlinked n (input.addressId n) existing
    | none =>
      -- a refused insert is logged and the loop goes on
      if input.insertFails n then state
      else state.create unlinked n (input.newRecord accountId n)

structure PersistNotesResult where
  inserted : List (Bytes × Nat)
  removeFromCache : List Bytes

/-- `upsert_note_shard_metadata_batch` for one pool. -/
def upsertNoteShards (noteType : NoteType) (updates : List (NoteType × Option Int × Int))
    (shards : List NoteShardRow) : List NoteShardRow :=
  ((updates.filter (fun entry => entry.1 == noteType)).filterMap
    (fun entry => noteShardOf entry.2.1 entry.2.2)).foldl upsertNoteShard shards

def WalletDb.saveSyncState (now : String) (localHeight targetHeight lastCheckpointHeight : Nat)
    (db : WalletDb) : Except StorageError WalletDb := do
  let localHeight ← heightToSqlI64 localHeight
  let targetHeight ← heightToSqlI64 targetHeight
  let lastCheckpointHeight ← heightToSqlI64 lastCheckpointHeight
  return { db with syncState := ⟨localHeight, targetHeight, lastCheckpointHeight, now⟩ }

/-- The outputs of the notes that are not skipped. -/
def PersistInput.candidateOutputKeys (input : PersistInput) : List OutputKey :=
  (input.notes.filter (fun n => !n.txid.isEmpty)).map DecryptedNote.outputKey

/-- The nullifiers whose recorded spends are consumed. -/
def PersistInput.candidateUnlinkedSpendKeys (input : PersistInput) : List TypedNullifier :=
  (input.notes.filter (fun n => usableNullifier n.nullifier)).map
    (fun n => (n.noteType, n.nullifier))

/-- The state the loop starts from. -/
def PersistInput.initial (input : PersistInput) (accountId : Int) (db : WalletDb) :
    PersistState :=
  let (existing, notes) := db.notes.prepareNoteUpserts accountId input.candidateOutputKeys
  { notes := notes
    transactions := db.transactions
    upsertedTxids := []
    existingByOutput := BulkMap.insertAll ∅ (existing.map (fun row => (row.outputKey, row)))
    inserted := []
    removeFromCache := []
    shardMetadataUpdates := [] }

/-- The spends consumed for the batch. -/
def PersistInput.unlinkedSpends (input : PersistInput) (accountId : Int) (db : WalletDb) :
    UnlinkedSpendMap :=
  (consumeUnlinkedSpendsForNullifiers accountId input.candidateUnlinkedSpendKeys
    db.unlinkedSpends).1

/-- The state the loop ends with. -/
def PersistInput.persisted (input : PersistInput) (accountId : Int) (db : WalletDb) :
    PersistState :=
  input.notes.foldl (input.persistNote accountId (input.unlinkedSpends accountId db))
    (input.initial accountId db)

/-- `persist_notes_with_db`. The cursor is the last write, and its failure is ignored. -/
def PersistInput.persistNotesWithDb (input : PersistInput) (accountId : Int) (db : WalletDb) :
    PersistNotesResult × WalletDb :=
  if input.notes.isEmpty then (⟨[], []⟩, db)
  else
    let state := input.persisted accountId db
    let stored : WalletDb := { db with
      notes := state.notes
      transactions := state.transactions
      unlinkedSpends := (consumeUnlinkedSpendsForNullifiers accountId
        input.candidateUnlinkedSpendKeys db.unlinkedSpends).2
      saplingNoteShards :=
        upsertNoteShards .sapling state.shardMetadataUpdates db.saplingNoteShards
      orchardNoteShards :=
        upsertNoteShards .ironwood state.shardMetadataUpdates db.orchardNoteShards }
    -- the spends of the batch are still to be applied when the cursor moves here
    let maxHeight := (input.notes.map (·.height)).foldl max 0
    (⟨state.inserted, state.removeFromCache⟩,
      settle stored (stored.saveSyncState input.now maxHeight maxHeight maxHeight))

def trackWalletTxidsFromNotes (notes : List DecryptedNote) (tracked : Finset Bytes) :
    Finset Bytes :=
  notes.foldl (fun tracked n => if n.txid.length = 32 then insert n.txid tracked else tracked)
    tracked

/-- The persistence stage of a batch: the rows, then the cache. -/
def SyncEngine.persistNotes (input : PersistInput) (engine : SyncEngine) : SyncEngine :=
  if input.notes.isEmpty then engine
  else
    let (result, db) := input.persistNotesWithDb engine.accountId engine.db
    { engine with
      db := db
      nullifierCache := BulkMap.eraseAll
        (BulkMap.insertAll engine.nullifierCache result.inserted) result.removeFromCache
      trackedWalletTxids := trackWalletTxidsFromNotes input.notes engine.trackedWalletTxids }

def SyncEngine.ensureNullifierCache (engine : SyncEngine) : SyncEngine :=
  if engine.nullifierCacheLoaded then engine
  else { engine with
    nullifierCache := BulkMap.insertAll engine.nullifierCache
      (((engine.db.notes.spendReconciliationNotes engine.accountId).filter
        (fun row => usableNullifier row.nullifier)).map (fun row => (row.nullifier, row.id)))
    nullifierCacheLoaded := true }

@[simp]
theorem SyncEngine.ensureNullifierCache_db (engine : SyncEngine) :
    engine.ensureNullifierCache.db = engine.db := by
  unfold ensureNullifierCache
  split <;> rfl

/-! ## What an iteration does to the table -/

@[simp]
theorem link_nullifier (spend : Option Bytes) (note : NoteRecord) :
    (note.link spend).nullifier = note.nullifier := by
  cases spend <;> rfl

@[simp]
theorem link_accountId (spend : Option Bytes) (note : NoteRecord) :
    (note.link spend).accountId = note.accountId := by
  cases spend <;> rfl

@[simp]
theorem link_outputKey (spend : Option Bytes) (note : NoteRecord) :
    (note.link spend).outputKey = note.outputKey := by
  cases spend <;> rfl

theorem upsertMeta_same (input : PersistInput) (n : DecryptedNote) (state : PersistState) :
    (state.upsertMeta input n).notes = state.notes ∧
      (state.upsertMeta input n).existingByOutput = state.existingByOutput := by
  unfold PersistState.upsertMeta
  dsimp only
  split
  · exact ⟨rfl, rfl⟩
  · exact ⟨rfl, rfl⟩

/-- One row is put in the place of whatever row the account had for an output. -/
structure PutsRow (accountId : Int) (key : OutputKey) (new : NoteRow) (before after : Notes) :
    Prop where
  accountId_eq : new.accountId = accountId
  outputKey_eq : new.outputKey = key
  rows : ∀ row, row ∈ after.rows ↔
    row = new ∨ (row ∈ before.rows ∧ ¬(row.accountId = accountId ∧ row.outputKey = key))

section Iteration

variable {accountId : Int} {unlinked : UnlinkedSpendMap} {n : DecryptedNote}
  {state : PersistState}

theorem upsert_outputKey {existing : NoteRow} (hkey : existing.outputKey = n.outputKey)
    (addressId : Option Int) :
    (existing.upsert unlinked n addressId).outputKey = n.outputKey := by
  have hrefreshed : (existing.refresh n addressId).outputKey = n.outputKey := by
    simp only [NoteRecord.outputKey, DecryptedNote.outputKey, Prod.mk.injEq] at hkey
    simp only [NoteRow.refresh, NoteRecord.outputKey, DecryptedNote.outputKey, hkey]
  exact (link_outputKey _ _).trans hrefreshed

theorem putsRow_update {existing : NoteRow} (addressId : Option Int)
    (hone : ∀ other ∈ state.notes.ofAccount accountId,
      other.outputKey = existing.outputKey → other = existing)
    (hexisting : existing ∈ state.notes.ofAccount accountId)
    (hkey : existing.outputKey = n.outputKey) :
    PutsRow accountId n.outputKey (existing.upsert unlinked n addressId) state.notes
      (state.update unlinked n addressId existing).notes where
  accountId_eq := (link_accountId _ _).trans (Notes.mem_ofAccount.mp hexisting).2
  outputKey_eq := upsert_outputKey hkey addressId
  rows := by
    intro row
    obtain ⟨hexisting', haccount⟩ := Notes.mem_ofAccount.mp hexisting
    -- the row of the output is the one with the id that is written
    have hother : ∀ other ∈ state.notes.rows, other.id = existing.id ↔
        other.accountId = accountId ∧ other.outputKey = n.outputKey := by
      intro other hmem
      constructor
      · intro hid
        rw [AutoTable.row_eq_of_id hmem hexisting' hid]
        exact ⟨haccount, hkey⟩
      · rintro ⟨hotherAccount, hotherKey⟩
        rw [hone other (Notes.mem_ofAccount.mpr ⟨hmem, hotherAccount⟩)
          (hotherKey.trans hkey.symm)]
    simp only [PersistState.update]
    split
    · rename_i hsame
      rw [hsame]
      constructor
      · intro hrow
        by_cases hid : row.id = existing.id
        · exact .inl (AutoTable.row_eq_of_id hrow hexisting' hid)
        · exact .inr ⟨hrow, fun hboth => hid ((hother row hrow).mpr hboth)⟩
      · rintro (rfl | ⟨hrow, -⟩)
        · exact hexisting'
        · exact hrow
    · have hid : (existing.upsert unlinked n addressId).id = existing.id := rfl
      rw [Notes.mem_updateNoteById hexisting' hid, hid]
      refine or_congr_right (and_congr_right fun hrow => ?_)
      exact not_congr (hother row hrow)

theorem putsRow_create {note : NoteRecord} (haccount : note.accountId = accountId)
    (hkey : note.outputKey = n.outputKey)
    (hnone : ∀ row ∈ state.notes.ofAccount accountId, row.outputKey ≠ n.outputKey) :
    PutsRow accountId n.outputKey
      { note.link (n.linkedSpend unlinked) with id := state.notes.nextId } state.notes
      (state.create unlinked n note).notes where
  accountId_eq := (link_accountId _ _).trans haccount
  outputKey_eq := (link_outputKey _ _).trans hkey
  rows := by
    intro row
    simp only [PersistState.create, Notes.mem_insertNote]
    constructor
    · rintro (hrow | rfl)
      · refine .inr ⟨hrow, ?_⟩
        rintro ⟨hrowAccount, hrowKey⟩
        exact hnone row (Notes.mem_ofAccount.mpr ⟨hrow, hrowAccount⟩) hrowKey
      · exact .inl rfl
    · rintro (rfl | ⟨hrow, -⟩)
      · exact .inr rfl
      · exact .inl hrow

end Iteration

/-- The index of the loop finds the account's row of every output of the batch. -/
def Indexed (accountId : Int) (batch : List DecryptedNote)
    (existingByOutput : AList (fun _ : OutputKey => NoteRow)) (notes : Notes) : Prop :=
  ∀ n ∈ batch, n.txid.isEmpty = false → ∀ row,
    existingByOutput.lookup n.outputKey = some row ↔
      row ∈ notes.ofAccount accountId ∧ row.outputKey = n.outputKey

/-- An output that the index misses has no row. -/
theorem Indexed.none {accountId : Int} {batch : List DecryptedNote}
    {existingByOutput : AList (fun _ : OutputKey => NoteRow)} {notes : Notes} {n : DecryptedNote}
    (h : Indexed accountId batch existingByOutput notes) (hn : n ∈ batch)
    (htxid : n.txid.isEmpty = false) (hmissing : existingByOutput.lookup n.outputKey = none) :
    ∀ row ∈ notes.ofAccount accountId, row.outputKey ≠ n.outputKey := by
  intro row hrow hkey
  rw [(h n hn htxid row).mpr ⟨hrow, hkey⟩] at hmissing
  cases hmissing

section Put

variable {accountId : Int} {key : OutputKey} {new : NoteRow} {before after : Notes}

variable (h : PutsRow accountId key new before after)

include h

theorem PutsRow.mem_ofAccount (row : NoteRow) :
    row ∈ after.ofAccount accountId ↔
      row = new ∨ (row ∈ before.ofAccount accountId ∧ row.outputKey ≠ key) := by
  rw [Notes.mem_ofAccount, Notes.mem_ofAccount, h.rows]
  constructor
  · rintro ⟨rfl | ⟨hrow, hother⟩, haccount⟩
    · exact .inl rfl
    · exact .inr ⟨⟨hrow, haccount⟩, fun hkey => hother ⟨haccount, hkey⟩⟩
  · rintro (rfl | ⟨⟨hrow, haccount⟩, hkey⟩)
    · exact ⟨.inl rfl, h.accountId_eq⟩
    · exact ⟨.inr ⟨hrow, fun hboth => hkey hboth.2⟩, haccount⟩

/-- Putting one row for an output keeps one row for each output, in every account. -/
theorem PutsRow.oneRowPerOutput {account : Int} (hone : before.OneRowPerOutput account) :
    after.OneRowPerOutput account := by
  intro a ha b hb hkey
  obtain ⟨ha, haAccount⟩ := Notes.mem_ofAccount.mp ha
  obtain ⟨hb, hbAccount⟩ := Notes.mem_ofAccount.mp hb
  rcases (h.rows a).mp ha with rfl | ⟨ha, haOther⟩
  · rcases (h.rows b).mp hb with rfl | ⟨hb, hbOther⟩
    · rfl
    · refine absurd ⟨?_, hkey.symm.trans h.outputKey_eq⟩ hbOther
      rw [hbAccount, ← haAccount, h.accountId_eq]
  · rcases (h.rows b).mp hb with rfl | ⟨hb, hbOther⟩
    · refine absurd ⟨?_, hkey.trans h.outputKey_eq⟩ haOther
      rw [haAccount, ← hbAccount, h.accountId_eq]
    · exact hone a (Notes.mem_ofAccount.mpr ⟨ha, haAccount⟩) b
        (Notes.mem_ofAccount.mpr ⟨hb, hbAccount⟩) hkey

/-- Putting one row for an output keeps one row for a wanted output. -/
theorem PutsRow.one {wanted : OutputKey}
    (hone : ∀ a ∈ before.ofAccount accountId, a.outputKey = wanted →
      ∀ b ∈ before.ofAccount accountId, b.outputKey = a.outputKey → b = a) :
    ∀ a ∈ after.ofAccount accountId, a.outputKey = wanted →
      ∀ b ∈ after.ofAccount accountId, b.outputKey = a.outputKey → b = a := by
  intro a ha hkey b hb heq
  rcases (h.mem_ofAccount a).mp ha with rfl | ⟨ha, haOther⟩
  · rcases (h.mem_ofAccount b).mp hb with rfl | ⟨_, hbOther⟩
    · rfl
    · exact absurd (heq.trans h.outputKey_eq) hbOther
  · rcases (h.mem_ofAccount b).mp hb with rfl | ⟨hb, _⟩
    · exact absurd (heq.symm.trans h.outputKey_eq) haOther
    · exact hone a ha hkey b hb heq

omit h

/-- The index that is told of the row finds it. -/
theorem Indexed.put {batch : List DecryptedNote}
    {existingByOutput : AList (fun _ : OutputKey => NoteRow)}
    (hindexed : Indexed accountId batch existingByOutput before)
    (h : PutsRow accountId key new before after) :
    Indexed accountId batch (existingByOutput.insert key new) after := by
  intro m hm hmtxid row
  rw [h.mem_ofAccount]
  by_cases hkey : m.outputKey = key
  · rw [hkey, AList.lookup_insert, Option.some.injEq]
    constructor
    · rintro rfl
      exact ⟨.inl rfl, h.outputKey_eq⟩
    · rintro ⟨rfl | ⟨-, hne⟩, heq⟩
      · rfl
      · exact absurd heq hne
  · rw [AList.lookup_insert_ne hkey, hindexed m hm hmtxid row]
    constructor
    · rintro ⟨hrow, heq⟩
      exact ⟨.inr ⟨hrow, heq ▸ hkey⟩, heq⟩
    · rintro ⟨rfl | ⟨hrow, -⟩, heq⟩
      · exact absurd (heq.symm.trans h.outputKey_eq) hkey
      · exact ⟨hrow, heq⟩

/-- An index of the prepared rows finds the account's row of every wanted output. -/
theorem indexed_of_found {batch : List DecryptedNote} {outputs : List OutputKey}
    {prepared : List NoteRow}
    (hfound : ∀ row, row ∈ prepared ↔ row ∈ after.ofAccount accountId ∧ row.outputKey ∈ outputs)
    (hone : ∀ a ∈ after.ofAccount accountId, a.outputKey ∈ outputs →
      ∀ b ∈ after.ofAccount accountId, b.outputKey = a.outputKey → b = a)
    (hwanted : ∀ n ∈ batch, n.txid.isEmpty = false → n.outputKey ∈ outputs) :
    Indexed accountId batch
      (BulkMap.insertAll ∅ (prepared.map fun row => (row.outputKey, row))) after := by
  intro n hn htxid row
  constructor
  · intro hlookup
    rcases BulkMap.mem_of_lookup_insertAll hlookup with hmem | hempty
    · obtain ⟨found, hprepared, heq⟩ := List.mem_map.mp hmem
      obtain ⟨hkey, rfl⟩ := Prod.mk.inj heq
      exact ⟨((hfound found).mp hprepared).1, hkey⟩
    · cases hempty
  · rintro ⟨hrow, hkey⟩
    have hin : row.outputKey ∈ outputs := hkey ▸ hwanted n hn htxid
    refine BulkMap.lookup_insertAll_of_mem
      (List.mem_map.mpr ⟨row, (hfound row).mpr ⟨hrow, hin⟩, ?_⟩) ?_
    · rw [hkey]
    · intro entry hentry hentryKey
      obtain ⟨other, hother, rfl⟩ := List.mem_map.mp hentry
      exact hone row hrow hin other ((hfound other).mp hother).1 (hentryKey.trans hkey.symm)

end Put

/-- Where no output has two rows, the loop starts with the table as it is and an index that
finds its rows. -/
theorem PersistInput.initial_indexed {input : PersistInput} {accountId : Int} {db : WalletDb}
    (hone : db.notes.OneRowPerOutput accountId) :
    (input.initial accountId db).notes = db.notes ∧
      Indexed accountId input.notes (input.initial accountId db).existingByOutput db.notes := by
  obtain ⟨hsame, hprepared⟩ :=
    @Notes.prepareNoteUpserts_of_oneRow accountId input.candidateOutputKeys db.notes hone
  refine ⟨hsame, indexed_of_found hprepared (fun a ha _ b hb => hone b hb a ha) ?_⟩
  intro n hn htxid
  exact List.mem_map.mpr ⟨n, List.mem_filter.mpr ⟨hn, by simp [htxid]⟩, rfl⟩

end StashiWallet
