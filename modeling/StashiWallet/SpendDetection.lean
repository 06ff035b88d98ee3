import Mathlib.Data.List.Destutter
import StashiWallet.NullifierCache

/-!
# Detecting spends

`apply_spends` reads the nullifiers that a batch reveals. A nullifier in the cache names the
row that is spent. One that is not in the cache, in a transaction of the wallet, belongs to a
row whose nullifier was wrong and is derived again from the keys, or to a note that is not
known yet, and is then kept aside. All of it is written in one transaction; if that fails the
source logs a warning and goes on, so the failure is an input here.

Which nullifiers the keys derive for a row is a parameter of the input, as trial decryption
is.
-/

namespace StashiWallet

/-- The keys of the wallet as far as spend detection uses them: whether it has any for a
pool, and the nullifiers they derive for a row, with the key's id, in the order tried. -/
structure SpendKeys where
  hasSapling : Bool
  hasOrchard : Bool
  derive : NoteRow → List (Bytes × Int)

/-- What `apply_spends` is given. -/
structure SpendInput where
  blocks : List CompactBlockData
  keys : SpendKeys
  timestamp : Int
  unlinkedFault : Option StorageError
  applyFault : Option StorageError

/-! ## The scan -/

/-- The nullifiers a transaction reveals, with the pool. -/
def CompactTx.nullifiers (tx : CompactTx) : List TypedNullifier :=
  tx.spends.map (fun spend => (.sapling, spend.nf)) ++
    tx.actions.map (fun action => (.ironwood, action.nullifier))

/-- The nullifiers of a transaction that can identify a note. -/
def CompactTx.revealed (tx : CompactTx) : List TypedNullifier :=
  tx.nullifiers.filter (fun key => usableNullifier key.2)

/-- What the loops of `apply_spends` over blocks and transactions accumulate. -/
structure SpendScan where
  spendUpdates : List (Nat × Bytes)
  spendNullifiers : List (NoteType × Bytes × Bytes)
  matchedNullifiers : List TypedNullifier
  matchedCacheNullifiers : List Bytes
  matchedSpendTxids : List Bytes
  spendTxMeta : AList (fun _ : Bytes => Int × Int × Int)
  trackedWalletTxids : Finset Bytes

/-- The revealed nullifiers that the cache knows, with the row's id. -/
def CompactTx.matches (cache : AList (fun _ : Bytes => Nat)) (tx : CompactTx) :
    List (TypedNullifier × Nat) :=
  tx.revealed.filterMap (fun key => (cache.lookup key.2).map (fun id => (key, id)))

/-- The loop body for one transaction of a block. -/
def SpendScan.scanTx (cache : AList (fun _ : Bytes => Nat)) (timestamp : Int) (scan : SpendScan)
    (entry : CompactBlockData × CompactTx) : SpendScan :=
  let (block, tx) := entry
  -- a transaction without a proper id is skipped with all it spends
  if tx.hash.length ≠ 32 then scan
  else
    let matched := tx.matches cache
    -- whether the transaction is the wallet's is read before its own matches are tracked
    let unmatched :=
      if tx.hash ∈ scan.trackedWalletTxids then
        tx.revealed.filter (fun key => (cache.lookup key.2).isNone)
      else []
    let blockTime := if block.time > 0 then (block.time : Int) else timestamp
    { spendUpdates := scan.spendUpdates ++ matched.map (fun found => (found.2, tx.hash))
      spendNullifiers := scan.spendNullifiers ++ unmatched.map (fun key => (key.1, key.2, tx.hash))
      matchedNullifiers := scan.matchedNullifiers ++ matched.map (fun found => found.1)
      matchedCacheNullifiers :=
        scan.matchedCacheNullifiers ++ matched.map (fun found => found.1.2)
      matchedSpendTxids :=
        if matched.isEmpty then scan.matchedSpendTxids else scan.matchedSpendTxids ++ [tx.hash]
      spendTxMeta :=
        if tx.nullifiers.any (fun key => key.2.length == 32) then
          scan.spendTxMeta.insert tx.hash (asI64 block.height, blockTime, asI64 (tx.fee.getD 0))
        else scan.spendTxMeta
      trackedWalletTxids :=
        if matched.isEmpty then scan.trackedWalletTxids
        else insert tx.hash scan.trackedWalletTxids }

/-- The transactions of a batch in order, with their blocks. -/
def blockTransactions (blocks : List CompactBlockData) : List (CompactBlockData × CompactTx) :=
  blocks.flatMap (fun block => block.transactions.map (fun tx => (block, tx)))

/-- The scan of `apply_spends`. -/
def SpendInput.scan (input : SpendInput) (cache : AList (fun _ : Bytes => Nat))
    (tracked : Finset Bytes) : SpendScan :=
  (blockTransactions input.blocks).foldl (SpendScan.scanTx cache input.timestamp)
    ⟨[], [], [], [], [], ∅, tracked⟩

/-! ## Deriving nullifiers again -/

/-- `TypedRecoveredSpend`. -/
structure RecoveredSpend where
  id : Nat
  noteType : NoteType
  nullifier : Bytes
  txid : Bytes
deriving DecidableEq, Repr

/-- What the loop of `rederive_unmatched_sapling_spends_with_context` and its Ironwood twin
carry along. -/
structure Rederivation where
  spendMap : AList (fun _ : Bytes => Bytes)
  recovered : List RecoveredSpend
  db : WalletDb

/-- The row with a nullifier that was derived again and the key that derives it. -/
def NoteRow.rederive (nullifier : Bytes) (keyId : Int) (note : NoteRow) : NoteRow :=
  { note with nullifier := nullifier, keyId := some keyId }

/-- `update_note_by_id`: the row and its shard metadata. -/
def WalletDb.updateNoteById (note : NoteRow) (db : WalletDb) : WalletDb :=
  { db with
    notes := db.notes.updateNoteById note
    saplingNoteShards := upsertNoteShards .sapling [(note.noteType, note.position, note.height)]
      db.saplingNoteShards
    orchardNoteShards := upsertNoteShards .ironwood [(note.noteType, note.position, note.height)]
      db.orchardNoteShards }

/-- The loop body: the first derived nullifier that one of the spends reveals. -/
def Rederivation.visit (derive : NoteRow → List (Bytes × Int)) (noteType : NoteType)
    (state : Rederivation) (note : NoteRow) : Rederivation :=
  match (derive note).find? (fun candidate => (state.spendMap.lookup candidate.1).isSome) with
  | none => state
  | some (nullifier, keyId) =>
    let txid := (state.spendMap.lookup nullifier).getD []
    let updated := note.rederive nullifier keyId
    { spendMap := state.spendMap.erase nullifier
      recovered := state.recovered ++ [⟨note.id, noteType, nullifier, txid⟩]
      -- `note_changed`
      db := if updated = note then state.db else state.db.updateNoteById updated }

/-- `rederive_unmatched_sapling_spends_with_context` and its Ironwood twin. -/
def rederivePool (derive : NoteRow → List (Bytes × Int)) (accountId : Int) (noteType : NoteType)
    (entries : List (NoteType × Bytes × Bytes)) (db : WalletDb) : Rederivation :=
  -- `entry(nf).or_insert(txid)`: the first spend of a nullifier counts
  let spendMap := BulkMap.insertAll ∅
    ((entries.filter (fun entry => entry.1 == noteType)).reverse.map (fun entry => entry.2))
  ((db.notes.spendReconciliationNotes accountId).filter
    (fun note => note.noteType == noteType)).foldl
    (Rederivation.visit derive noteType) ⟨spendMap, [], db⟩

/-- `rederive_unmatched_spends_with_context`, when a pool with keys has an entry. -/
def SpendKeys.rederiveUnmatchedSpends (keys : SpendKeys) (accountId : Int)
    (entries : List (NoteType × Bytes × Bytes)) (db : WalletDb) : List RecoveredSpend × WalletDb :=
  let sapling : Rederivation :=
    if keys.hasSapling then rederivePool keys.derive accountId .sapling entries db
    else ⟨∅, [], db⟩
  let orchard : Rederivation :=
    if keys.hasOrchard then rederivePool keys.derive accountId .ironwood entries sapling.db
    else ⟨∅, [], sapling.db⟩
  (sapling.recovered ++ orchard.recovered, orchard.db)

/-! ## The call -/

/-- The transaction metadata of the wallet's spends, under the id in both byte orders. -/
def SpendScan.txUpdates (scan : SpendScan) (recovered : List RecoveredSpend)
    (fallbackEntries : List (Bytes × Bytes)) : List (String × Int × Int × Int) :=
  let txids := (scan.matchedSpendTxids ++ recovered.map (fun spend => spend.txid) ++
    fallbackEntries.map (fun entry => entry.2)).dedup
  let updates := txids.flatMap (fun txid =>
    match scan.spendTxMeta.lookup txid with
    | none => []
    | some txMeta =>
      if hexEncode txid.reverse = hexEncode txid then [(hexEncode txid, txMeta)]
      else [(hexEncode txid, txMeta), (hexEncode txid.reverse, txMeta)])
  (updates.insertionSort (fun a b => a.1 ≤ b.1)).destutter (fun a b => a.1 ≠ b.1)

/-- The revealed nullifiers of wallet transactions that no match accounts for. -/
def SpendScan.unlinkedEntries (scan : SpendScan) : List (NoteType × Bytes × Bytes) :=
  scan.spendNullifiers.filter (fun entry => !scan.matchedNullifiers.contains (entry.1, entry.2.1))

/-- The entries no spend was recovered for. -/
def remainingEntries (recovered : List RecoveredSpend)
    (entries : List (NoteType × Bytes × Bytes)) : List (NoteType × Bytes × Bytes) :=
  entries.filter (fun entry =>
    !recovered.any (fun spend => spend.noteType == entry.1 && spend.nullifier == entry.2.1))

/-- The remaining entries kept aside; a failure is logged. -/
def SpendInput.keepUnlinked (input : SpendInput) (accountId : Int)
    (remaining : List (NoteType × Bytes × Bytes)) (db : WalletDb) : WalletDb :=
  match input.unlinkedFault with
  | some _ => db
  | none => { db with
      unlinkedSpends := upsertUnlinkedSpendNullifiersWithTxid accountId input.timestamp remaining
        db.unlinkedSpends }

/-- The end of `apply_spends`: the transaction, and the cache if it wrote a row. -/
def SyncEngine.settleSpends (scan : SpendScan) (recovered : List RecoveredSpend)
    (fallbackEntries : List (Bytes × Bytes)) (engine : SyncEngine) : SyncEngine :=
  let (counts, applied) := engine.db.applySpendUpdatesWithTxmeta engine.accountId
    (scan.spendUpdates ++ recovered.map (fun spend => (spend.id, spend.txid)))
    fallbackEntries (scan.txUpdates recovered fallbackEntries)
  { engine with
    db := applied
    -- the cache forgets the spent nullifiers only if some row was written
    nullifierCache :=
      if counts.1 > 0 ∨ counts.2 > 0 then
        BulkMap.eraseAll engine.nullifierCache
          (scan.matchedCacheNullifiers ++ recovered.map (fun spend => spend.nullifier) ++
            fallbackEntries.map (fun entry => entry.1))
      else engine.nullifierCache }

def SyncEngine.applySpends (input : SpendInput) (engine : SyncEngine) : SyncEngine :=
  -- nothing to match, and no transaction whose spends could be of interest
  if engine.nullifierCache.entries.isEmpty ∧ engine.trackedWalletTxids = ∅ then engine
  else
    let scan := input.scan engine.nullifierCache engine.trackedWalletTxids
    let scanned := { engine with trackedWalletTxids := scan.trackedWalletTxids }
    if scan.spendUpdates.isEmpty && scan.spendNullifiers.isEmpty then scanned
    else
      let (recovered, db) :=
        input.keys.rederiveUnmatchedSpends engine.accountId scan.unlinkedEntries engine.db
      let remaining := remainingEntries recovered scan.unlinkedEntries
      let kept := { scanned with db := input.keepUnlinked engine.accountId remaining db }
      match input.applyFault with
      -- the error is logged, and the call still returns `Ok`
      | some _ => kept
      | none =>
        kept.settleSpends scan recovered (remaining.map (fun entry => (entry.2.1, entry.2.2)))

end StashiWallet
