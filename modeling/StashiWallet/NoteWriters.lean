import StashiWallet.Interleaving
import StashiWallet.OutgoingExpiry
import StashiWallet.WitnessCheck

/-!
# Calls that write notes, statement by statement

The view of balances by address, the persistence of a batch, the writes of spends, a truncation
and the release of expired notes work on one database over connections of their own. Two of them
read whole note rows, and write all columns of a row back some statements later; what happened
to the row in between is lost. A statement is what the repository runs as a whole: one of its
calls, with `update_note_by_id` divided into its two writes.

The statement that writes a row back names, beside the row, the version of it that the call has
worked from. The database does not see that version.

What the address crates make of notes and addresses is a parameter.
-/

namespace StashiWallet

open Interleaving

/-- The tables the calls share. -/
structure NoteTables where
  db : WalletDb
  addresses : AddressTable
  intents : List OutgoingTransactionIntent

/-- The repository calls. -/
inductive NoteStatement where
  | getUnspentNotes (accountId : Int)
  | loadSyncState
  | getAddressByString (accountId : Int) (address : String)
  | getNextDiversifierIndex (group : AddressGroup)
  | repairAddressOwnership (address : Address)
  | upsertAddress (address : Address)
  | getAddresses (accountId : Int) (keyId : Option Int)
  | prepareNoteUpserts (accountId : Int) (outputs : List OutputKey)
  | consumeUnlinkedSpends (accountId : Int) (nullifiers : List TypedNullifier)
  | upsertTransaction (txid : String) (height timestamp fee : Int)
  | updateNote (read note : NoteRow)
  | insertNote (note : NoteRecord)
  | upsertNoteShards (entries : List (NoteType × Option Int × Int))
  | saveSyncState (now : String) (localHeight targetHeight lastCheckpointHeight : Nat)
  | applySpendUpdates (accountId : Int) (spendUpdates : List (Nat × Bytes))
      (fallbackEntries : List (Bytes × Bytes)) (txMeta : List (String × Int × Int × Int))
  | markNotesSpent (accountId : Int) (entries : List (Bytes × Bytes))
  | truncateAboveHeight (now : String) (height : Nat)
  | releaseExpiredNotes (accountId : Int) (localHeight : Nat)

namespace NoteStatement

/-- What a statement answers when it succeeds. -/
abbrev Answer : NoteStatement → Type
  | getUnspentNotes _ => List NoteRow
  | loadSyncState => SyncStateRow
  | getAddressByString _ _ => Option AddressRow
  | getNextDiversifierIndex _ => Nat
  | getAddresses _ _ => List AddressRow
  | prepareNoteUpserts _ _ => List NoteRow
  | consumeUnlinkedSpends _ _ => UnlinkedSpendMap
  | insertNote _ => Nat
  | truncateAboveHeight _ _ => Nat
  | _ => Unit

/-- What a statement answers: its answer or an error. -/
abbrev Reply (statement : NoteStatement) : Type := Except StorageError statement.Answer

end NoteStatement

namespace NoteTables

variable (tables : NoteTables)

def withNotes (notes : Notes) : NoteTables := { tables with db := { tables.db with notes := notes } }

/-- A write of an address: refused, or with the table it leaves. -/
def putAddresses : Except StorageError AddressTable → Except StorageError Unit × NoteTables
  | .error error => (.error error, tables)
  | .ok addresses => (.ok (), { tables with addresses := addresses })

/-- A statement that the database does not refuse. -/
def execute : (statement : NoteStatement) → statement.Reply × NoteTables
  | .getUnspentNotes accountId => (.ok (tables.db.notes.getUnspentNotes accountId), tables)
  | .loadSyncState => (.ok tables.db.syncState, tables)
  | .getAddressByString accountId address =>
    (.ok (tables.addresses.rows.find? (fun row =>
      row.accountId == accountId && row.address == address)), tables)
  | .getNextDiversifierIndex group => (tables.addresses.nextDiversifierIndex group, tables)
  | .repairAddressOwnership address =>
    tables.putAddresses (tables.addresses.repairAddressOwnership address)
  | .upsertAddress address => tables.putAddresses (tables.addresses.upsertAddress address)
  | .getAddresses accountId keyId =>
    (.ok ((tables.addresses.rows.filter (fun row => row.accountId == accountId &&
      keyId.all (fun keyId => row.keyId == some keyId))).insertionSort
        (fun a b => a.diversifierIndex ≤ b.diversifierIndex)), tables)
  | .prepareNoteUpserts accountId outputs =>
    let (rows, notes) := tables.db.notes.prepareNoteUpserts accountId outputs
    (.ok rows, tables.withNotes notes)
  | .consumeUnlinkedSpends accountId nullifiers =>
    let (spends, rest) :=
      consumeUnlinkedSpendsForNullifiers accountId nullifiers tables.db.unlinkedSpends
    (.ok spends, { tables with db := { tables.db with unlinkedSpends := rest } })
  | .upsertTransaction txid height timestamp fee =>
    (.ok (), { tables with db := { tables.db with
      transactions := upsertTransaction txid height timestamp fee tables.db.transactions } })
  | .updateNote _ note => (.ok (), tables.withNotes (tables.db.notes.updateNoteById note))
  | .insertNote note =>
    let (id, notes) := tables.db.notes.insertNote note
    (.ok id, tables.withNotes notes)
  | .upsertNoteShards entries =>
    (.ok (), { tables with db := { tables.db with
      saplingNoteShards := upsertNoteShards .sapling entries tables.db.saplingNoteShards
      orchardNoteShards := upsertNoteShards .ironwood entries tables.db.orchardNoteShards } })
  | .saveSyncState now localHeight targetHeight lastCheckpointHeight =>
    match tables.db.saveSyncState now localHeight targetHeight lastCheckpointHeight with
    | .error error => (.error error, tables)
    | .ok db => (.ok (), { tables with db := db })
  | .applySpendUpdates accountId spendUpdates fallbackEntries txMeta =>
    (.ok (), { tables with
      db := (tables.db.applySpendUpdatesWithTxmeta accountId spendUpdates fallbackEntries
        txMeta).2 })
  | .markNotesSpent accountId entries =>
    (.ok (), tables.withNotes
      (tables.db.notes.spendByNullifier accountId (BulkMap.insertAll ∅ entries)))
  | .truncateAboveHeight now height =>
    match tables.db.truncateAboveHeight now height with
    | .error error => (.error error, tables)
    | .ok (restored, db) => (.ok restored, { tables with db := db })
  | .releaseExpiredNotes accountId localHeight =>
    (.ok (), { tables with
      db := tables.db.releaseExpiredOutgoingNotes accountId localHeight tables.intents })

/-- What running a statement can do: fail and change nothing, or what `execute` says. -/
def Executes (before : NoteTables) (statement : NoteStatement) (reply : statement.Reply)
    (after : NoteTables) : Prop :=
  (∃ error, reply = .error error ∧ after = before) ∨ before.execute statement = (reply, after)

end NoteTables

/-! ## The calls -/

/-- A call that returns an `α` or stops at the first error it does not ignore. -/
abbrev NoteM : Type → Type := ExceptT StorageError (Prog NoteStatement NoteStatement.Reply)

namespace NoteM

/-- One statement, with `?`. -/
def query (statement : NoteStatement) : NoteM statement.Answer := ExceptT.mk (Prog.call statement)

/-- One statement whose error the call goes on with. -/
def attempt (statement : NoteStatement) : NoteM statement.Reply :=
  ExceptT.mk (Prog.call statement >>= fun reply => pure (.ok reply))

/-- A computation between statements. -/
def compute {α : Type} (result : Except StorageError α) : NoteM α := ExceptT.mk (pure result)

end NoteM

open NoteM

/-- `update_note_by_id` of a row that was made from `read`. -/
def updateNoteByIdCall (read note : NoteRow) : NoteM Unit := do
  query (.updateNote read note)
  query (.upsertNoteShards [(note.noteType, note.position, note.height)])

/-- The sequence number of a row, cast to `u32`. -/
def AddressRow.sequence (row : AddressRow) : Nat := (row.diversifierIndex % 4294967296).toNat

/-- The sequence number an address has, or gets in its group. -/
def sequenceFor (group : AddressGroup) : Option AddressRow → NoteM Nat
  | some row => return row.sequence
  | none => query (.getNextDiversifierIndex group)

/-! ### Balances by address -/

/-- What the address crates and the keys of the account make of notes and addresses: the address of
a note, the key group, index and scope an address was derived with, and whether it has the prefix of
the network. -/
structure AddressDecoding where
  addressOf : NoteType → Bytes → Option String
  recover : String → AddressType → Option (Int × Index88 × AddressScope)
  onNetwork : String → AddressType → Bool

/-- What `list_address_balances` is given, and what it finds out before it reads notes. -/
structure BalanceQuery extends AddressDecoding where
  accountId : Int
  keyId : Option Int
  ironwoodActive : Bool
  createdAt : Int

/-- The pool's addresses. -/
def NoteType.addressType : NoteType → AddressType
  | .sapling => .sapling
  | .ironwood => .ironwood

/-- The row's owner is not what was recovered. -/
def AddressRow.ownerChanged (keyId : Int) (addressType : AddressType) (scope : AddressScope)
    (index : Index88) (row : AddressRow) : Bool :=
  row.keyId != some keyId || row.addressType != addressType || row.addressScope != scope ||
    row.diversifierIndexBe != some (AddressTable.encodeDiversifierIndexBe index)

namespace BalanceQuery

variable (q : BalanceQuery)

/-- Files the address of a note under the key group it was derived with. -/
def fileAddress (address : String) (addressType : AddressType) (existing : Option AddressRow)
    (keyId : Int) (index : Index88) (scope : AddressScope) : NoteM Unit := do
  let diversifierIndex ← sequenceFor ⟨q.accountId, keyId, scope, addressType⟩ existing
  let record : Address := {
    keyId := some keyId
    accountId := q.accountId
    diversifierIndex := diversifierIndex
    diversifierIndex88 := some index
    address := address
    addressType := addressType
    label := none
    createdAt := q.createdAt
    colorTag := 0
    addressScope := scope }
  if existing.all (AddressRow.ownerChanged keyId addressType scope index) then
    if existing.isSome then query (.repairAddressOwnership record)
    else query (.upsertAddress record)

/-- The note with the key group its address was derived with, and whether that is another one. -/
def ownNote (address : String) (existing : Option AddressRow) (note : NoteRow) :
    NoteM (Bool × NoteRow) :=
  match q.recover address note.noteType.addressType with
  | none => return (false, note)
  | some (keyId, index, scope) => do
    q.fileAddress address note.noteType.addressType existing keyId index scope
    return (note.keyId != some keyId, { note with keyId := some keyId })

/-- The note with the row of its address, written back if something changed. -/
def fileNote (note : NoteRow) (owned : Bool × NoteRow) : Option AddressRow → NoteM NoteRow
  | none => return owned.2
  | some row => do
    if note.addressId != some (row.id : Int) || owned.1 then
      updateNoteByIdCall note { owned.2 with addressId := some (row.id : Int) }
      return { owned.2 with addressId := some (row.id : Int) }
    else return owned.2

/-- The body of the loop of `list_address_balances`. -/
def visitNote (ironwoodEnabled : Bool) (note : NoteRow) : NoteM NoteRow :=
  let address := note.note.bind fun bytes =>
    if note.noteType == .ironwood && !ironwoodEnabled then none else q.addressOf note.noteType bytes
  match address with
  | none => return note
  | some address => do
    let existing ← query (.getAddressByString q.accountId address)
    let owned ← q.ownNote address existing note
    let row ← query (.getAddressByString q.accountId address)
    fileNote note owned row

/-- The loop of `list_address_balances` over the notes. -/
def visitNotes (ironwoodEnabled : Bool) : List NoteRow → NoteM (List NoteRow)
  | [] => return []
  | note :: rest => do
    let visited ← q.visitNote ironwoodEnabled note
    let others ← visitNotes ironwoodEnabled rest
    return visited :: others

end BalanceQuery

structure AddressBalanceInfo where
  address : String
  balance : Nat
  spendable : Nat
  pending : Nat
  keyId : Option Int
  addressId : Nat
  label : Option String
  createdAt : Int
  colorTag : Nat
  diversifierIndex : Nat

/-- `checked_add` of amounts. -/
def addAmount (total value : Nat) : Except StorageError Nat :=
  if total + value ≤ u64Max then .ok (total + value) else .error (.storage "Balance overflow")

/-- A note added to the total of its address, and to what can be spent or is pending of it. -/
def addNoteBalance (confirmationThreshold : Nat)
    (balances : AList (fun _ : Int => Nat × Nat × Nat)) (note : NoteRow) :
    Except StorageError (AList (fun _ : Int => Nat × Nat × Nat)) :=
  match note.addressId with
  | none => .ok balances
  | some addressId =>
    if note.value ≤ 0 then .ok balances
    else do
      let (total, spendable, pending) := (balances.lookup addressId).getD (0, 0, 0)
      let total ← addAmount total note.value.toNat
      -- a negative height is a large one as `u64`
      if 0 < note.height ∧ note.height ≤ confirmationThreshold then
        return balances.insert addressId (total, ← addAmount spendable note.value.toNat, pending)
      else
        return balances.insert addressId (total, spendable, ← addAmount pending note.value.toNat)

/-- `list_address_balances`, from the reading of the notes on. -/
def BalanceQuery.listAddressBalances (q : BalanceQuery) : NoteM (List AddressBalanceInfo) := do
  let notes ← query (.getUnspentNotes q.accountId)
  let ironwoodEnabled := q.ironwoodActive || notes.any fun note =>
    note.noteType == .ironwood && !blobMissing note.note
  let syncState ← query .loadSyncState
  let visited ← q.visitNotes ironwoodEnabled notes
  let addresses ← query (.getAddresses q.accountId q.keyId)
  let shown := addresses.filter fun row =>
    (ironwoodEnabled || row.addressType != .ironwood) && q.onNetwork row.address row.addressType &&
      (q.keyId.isSome || row.addressScope != .internal)
  let balances ← compute (visited.foldlM (addNoteBalance syncState.localHeight) ∅)
  return shown.map fun row =>
    let (balance, spendable, pending) := (balances.lookup (row.id : Int)).getD (0, 0, 0)
    { address := row.address
      balance := balance
      spendable := spendable
      pending := pending
      keyId := row.keyId
      addressId := row.id
      label := row.label
      createdAt := row.createdAt
      colorTag := row.colorTag
      diversifierIndex := row.sequence }

/-! ### Persisting a batch -/

/-- What the loop of `persist_notes_with_db` keeps beside the database. -/
structure PersistLocals where
  upsertedTxids : List String
  addressCache : AList (fun _ : String => Int)
  existingByOutput : AList (fun _ : OutputKey => NoteRow)
  inserted : List (Bytes × Nat)
  removeFromCache : List Bytes
  shardMetadataUpdates : List (NoteType × Option Int × Int)

/-- What `persist_notes_with_db` is given: the input of a batch, the addresses of notes with
the scope and index they were found by, and the account. Which address row a note belongs to, and
which inserts are refused, are replies here. -/
structure PersistQuery extends PersistInput where
  accountId : Int
  addressOf : DecryptedNote → Option (String × AddressScope × Option Index88)

namespace PersistQuery

variable (q : PersistQuery)

/-- The sequence number of the address of a note; an address without a key group has none. -/
def sequenceOfNote (n : DecryptedNote) (scope : AddressScope) (existing : Option AddressRow) :
    NoteM Nat :=
  match existing, n.keyId with
  | none, none => return 0
  | existing, keyId => sequenceFor ⟨q.accountId, keyId.getD 0, scope, n.noteType.addressType⟩ existing

/-- The part of `derive_address_id` that stores the address. -/
def storeAddress (n : DecryptedNote) (timestamp : Int) (address : String) (scope : AddressScope)
    (index : Option Index88) : NoteM (Option AddressRow) := do
  let existing ← query (.getAddressByString q.accountId address)
  let diversifierIndex ← q.sequenceOfNote n scope existing
  query (.upsertAddress {
    keyId := n.keyId
    accountId := q.accountId
    diversifierIndex := diversifierIndex
    diversifierIndex88 := index
    address := address
    addressType := n.noteType.addressType
    label := none
    createdAt := timestamp
    colorTag := 0
    addressScope := scope })
  query (.getAddressByString q.accountId address)

def deriveAddressId (n : DecryptedNote) (timestamp : Int)
    (cache : AList (fun _ : String => Int)) :
    NoteM (Option Int × AList (fun _ : String => Int)) :=
  match if n.noteBytes.isEmpty then none else q.addressOf n with
  | none => return (none, cache)
  | some (address, scope, index) =>
    match cache.lookup address with
    | some id => return (some id, cache)
    | none => do
      let row ← q.storeAddress n timestamp address scope index
      return (row.map fun row => (row.id : Int),
        row.elim cache fun row => cache.insert address row.id)

/-- The transaction metadata of a note; a refused statement is ignored. -/
def upsertTransactionOf (n : DecryptedNote) (upsertedTxids : List String) :
    NoteM (List String) :=
  let txidHex := hexEncode n.txid
  if upsertedTxids.contains txidHex then return upsertedTxids
  else do
    let _ ← attempt (.upsertTransaction txidHex (asI64 n.height)
      ((q.txTimes.lookup txidHex).getD q.timestamp) ((q.txFees.lookup txidHex).getD 0))
    return txidHex :: upsertedTxids

/-- A row that changed is written back. -/
def writeIfChanged (existing updated : NoteRow) : NoteM Unit :=
  if updated = existing then return () else query (.updateNote existing updated)

/-- The loop body for a note whose output has a row. -/
def updateExisting (unlinked : UnlinkedSpendMap) (n : DecryptedNote) (addressId : Option Int)
    (existing : NoteRow) (locals : PersistLocals) : NoteM PersistLocals := do
  let updated := existing.upsert unlinked n addressId
  writeIfChanged existing updated
  return { locals with
    existingByOutput := locals.existingByOutput.insert n.outputKey updated
    removeFromCache := locals.removeFromCache ++ staleNullifiers unlinked n existing updated
    inserted :=
      if usableNullifier n.nullifier = true ∧ n.linkedSpend unlinked = none ∧
          updated.spent = false then
        locals.inserted ++ [(n.nullifier, existing.id)]
      else locals.inserted
    shardMetadataUpdates := locals.shardMetadataUpdates ++
      [(updated.noteType, updated.position, updated.height)] }

/-- What is kept of an insert; a refused one is logged and the loop goes on. -/
def noteInserted (n : DecryptedNote) (record : NoteRecord) (locals : PersistLocals) :
    Except StorageError Nat → PersistLocals
  | .error _ => locals
  | .ok id =>
    { locals with
      existingByOutput := locals.existingByOutput.insert n.outputKey { record with id := id }
      removeFromCache := locals.removeFromCache ++
        (if usableNullifier n.nullifier = true ∧ record.spent = true then [n.nullifier] else [])
      inserted :=
        if usableNullifier n.nullifier = true ∧ record.spent = false then
          locals.inserted ++ [(n.nullifier, id)]
        else locals.inserted
      shardMetadataUpdates := locals.shardMetadataUpdates ++
        [(record.noteType, record.position, record.height)] }

/-- The loop body for a note whose output has no row. -/
def insertNew (unlinked : UnlinkedSpendMap) (n : DecryptedNote) (addressId : Option Int)
    (locals : PersistLocals) : NoteM PersistLocals := do
  let record := { q.newRecord q.accountId n with addressId := addressId }.link
    (n.linkedSpend unlinked)
  let reply ← attempt (.insertNote record)
  return noteInserted n record locals reply

/-- The body of the loop: the transaction, the address and the row of one note. -/
def persistOne (unlinked : UnlinkedSpendMap) (n : DecryptedNote) (locals : PersistLocals) :
    NoteM PersistLocals := do
  let upsertedTxids ← q.upsertTransactionOf n locals.upsertedTxids
  let timestamp := (q.txTimes.lookup (hexEncode n.txid)).getD q.timestamp
  let (addressId, addressCache) ← q.deriveAddressId n timestamp locals.addressCache
  let locals := { locals with upsertedTxids := upsertedTxids, addressCache := addressCache }
  match locals.existingByOutput.lookup n.outputKey with
  | some existing => updateExisting unlinked n addressId existing locals
  | none => q.insertNew unlinked n addressId locals

/-- The loop of `persist_notes_with_db`. -/
def persistLoop (unlinked : UnlinkedSpendMap) :
    List DecryptedNote → PersistLocals → NoteM PersistLocals
  | [], locals => return locals
  | n :: rest, locals =>
    if n.txid.isEmpty then persistLoop unlinked rest locals
    else do
      let locals ← q.persistOne unlinked n locals
      persistLoop unlinked rest locals

/-- The rows of the outputs of the batch. -/
def existingRows : NoteM (List NoteRow) :=
  if q.candidateOutputKeys.isEmpty then return []
  else query (.prepareNoteUpserts q.accountId q.candidateOutputKeys)

/-- `persist_notes_with_db`, each repository call at a time of its own. -/
def persistNotesWithDb : NoteM PersistNotesResult :=
  if q.notes.isEmpty then return ⟨[], []⟩
  else do
    let existing ← q.existingRows
    let unlinked ← query (.consumeUnlinkedSpends q.accountId q.candidateUnlinkedSpendKeys)
    let locals ← q.persistLoop unlinked q.notes {
      upsertedTxids := []
      addressCache := ∅
      existingByOutput := BulkMap.insertAll ∅ (existing.map (fun row => (row.outputKey, row)))
      inserted := []
      removeFromCache := []
      shardMetadataUpdates := [] }
    query (.upsertNoteShards locals.shardMetadataUpdates)
    let maxHeight := (q.notes.map (·.height)).foldl max 0
    let _ ← attempt (.saveSyncState q.now maxHeight maxHeight maxHeight)
    return ⟨locals.inserted, locals.removeFromCache⟩

end PersistQuery

/-! ### A call in progress -/

/-- The calls that interleave. -/
inductive NoteCall where
  | listAddressBalances (q : BalanceQuery)
  | persistNotes (q : PersistQuery)
  | applySpendUpdates (accountId : Int) (spendUpdates : List (Nat × Bytes))
      (fallbackEntries : List (Bytes × Bytes)) (txMeta : List (String × Int × Int × Int))
  | markNotesSpent (accountId : Int) (entries : List (Bytes × Bytes))
  | truncateAboveHeight (now : String) (height : Nat)
  | releaseExpiredNotes (accountId : Int) (localHeight : Nat)

def NoteCall.program : NoteCall → Prog NoteStatement NoteStatement.Reply Unit
  | .listAddressBalances q => q.listAddressBalances.run >>= fun _ => pure ()
  | .persistNotes q => q.persistNotesWithDb.run >>= fun _ => pure ()
  | .applySpendUpdates accountId spendUpdates fallbackEntries txMeta =>
    Prog.call (.applySpendUpdates accountId spendUpdates fallbackEntries txMeta) >>= fun _ =>
      pure ()
  | .markNotesSpent accountId entries =>
    Prog.call (.markNotesSpent accountId entries) >>= fun _ => pure ()
  | .truncateAboveHeight now height =>
    Prog.call (.truncateAboveHeight now height) >>= fun _ => pure ()
  | .releaseExpiredNotes accountId localHeight =>
    Prog.call (.releaseExpiredNotes accountId localHeight) >>= fun _ => pure ()

end StashiWallet
