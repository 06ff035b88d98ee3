import StashiWallet.KeyedFolds
import StashiWallet.TransactionMetadata

/-!
# Received outputs

`get_canonical_received_notes` lists the shielded outputs an account has received, one record
for all rows of an output. The rows are read in whatever order the query returns them. Rows
without an id or with a value out of range are passed over; the others are filed under their
display id, their pool and their output index.

Which byte order a row's id is stored in is guessed from the transactions: the one under which a
transaction is known, the higher one if both are, and the bytes as stored if none is.
-/

namespace StashiWallet

structure ReceivedNoteRecord where
  txid : String
  noteType : NoteType
  outputIndex : Int
  value : Int
  height : Int
  timestamp : Option Int
  addressId : Option Int
  note : Option Bytes
deriving DecidableEq, Repr

/-- What the records are filed under. -/
abbrev ReceivedKey := String × NoteType × Int

def ReceivedNoteRecord.key (record : ReceivedNoteRecord) : ReceivedKey :=
  (record.txid, record.noteType, record.outputIndex)

/-- `metadata_uses_raw`: the transactions are filed under the bytes as stored. -/
def metadataUsesRaw (transactions : List TransactionRow) (txid : Bytes) : Bool :=
  let rawTxid := hexEncode txid
  let reversedTxid := txidHexFromBytes txid
  let rawHeight := (getTransactionHeight transactions rawTxid).getD 0
  let reversedHeight := (getTransactionHeight transactions reversedTxid).getD 0
  let rawTimestamp := getTransactionTimestamp transactions rawTxid
  let reversedTimestamp := getTransactionTimestamp transactions reversedTxid
  let rawKnown := (getTransactionHeight transactions rawTxid).isSome || rawTimestamp.isSome
  let reversedKnown :=
    (getTransactionHeight transactions reversedTxid).isSome || reversedTimestamp.isSome
  match rawKnown, reversedKnown with
  | true, false => true
  | false, true => false
  | true, true =>
    -- `>=` on pairs of a height and a flag
    decide (reversedHeight < rawHeight) ||
      (rawHeight == reversedHeight && (rawTimestamp.isSome || !reversedTimestamp.isSome))
  | false, false => true

def receivedCandidate (transactions : List TransactionRow) (note : NoteRow) :
    ReceivedNoteRecord :=
  let rawTxid := hexEncode note.txid
  let reversedTxid := txidHexFromBytes note.txid
  let rawTimestamp := getTransactionTimestamp transactions rawTxid
  let reversedTimestamp := getTransactionTimestamp transactions reversedTxid
  let usesRaw := metadataUsesRaw transactions note.txid
  { txid := if usesRaw then reversedTxid else rawTxid
    noteType := note.noteType
    outputIndex := note.outputIndex
    value := note.value
    height := max (max note.height ((getTransactionHeight transactions rawTxid).getD 0))
      ((getTransactionHeight transactions reversedTxid).getD 0)
    timestamp := if usesRaw then rawTimestamp.or reversedTimestamp
      else reversedTimestamp.or rawTimestamp
    addressId := note.addressId
    note := note.note }

/-- The pool as `{:?}` shows it. -/
def NoteType.debugName : NoteType → String
  | .sapling => "Sapling"
  | .ironwood => "Ironwood"

/-- `Conflicting … for received output …`. -/
def receivedConflict (what : String) (key : ReceivedKey) : String :=
  s!"Conflicting {what} for received output {key.1} {key.2.1.debugName} {key.2.2}"

/-- A row of an output that has a record. -/
def mergeReceived (existing candidate : ReceivedNoteRecord) :
    Except String ReceivedNoteRecord :=
  if existing.value ≠ candidate.value then .error (receivedConflict "values" existing.key)
  else if existing.addressId.isSome && candidate.addressId.isSome &&
      existing.addressId != candidate.addressId then
    .error (receivedConflict "addresses" existing.key)
  else .ok { existing with
    height := max existing.height candidate.height
    timestamp := existing.timestamp.or candidate.timestamp
    addressId := existing.addressId.or candidate.addressId
    note := existing.note.or candidate.note }

/-- The pools in listing order. -/
def NoteType.listed : NoteType → Nat
  | .sapling => 0
  | .ironwood => 1

/-- The comparator of the listing: unconfirmed outputs first, then from the newest. -/
def compareReceived : ReceivedNoteRecord → ReceivedNoteRecord → Ordering :=
  compareLex (KeyedFold.descending (fun record => decide (record.height ≤ 0))) <|
  compareLex (KeyedFold.descending (·.height)) <|
  compareLex (KeyedFold.descending (·.timestamp)) <|
  compareLex (KeyedFold.descending (·.txid)) <|
  compareLex (KeyedFold.ascending (·.noteType.listed)) (KeyedFold.ascending (·.outputIndex))

instance : Std.TransCmp compareReceived := by
  unfold compareReceived
  infer_instance

/-- The rows that count as received. -/
def receivedRows (accountId : Int) (rows : List NoteRow) : List NoteRow :=
  (rows.filter (fun row => row.accountId == accountId)).filter
    (fun note => !(note.txid.isEmpty || !noteValueIsValid note.value))

/-- `get_canonical_received_notes` on the rows in the order the query returns them, or the text
of the error. -/
def getCanonicalReceivedNotes (accountId : Int) (rows : List NoteRow)
    (transactions : List TransactionRow) : Except String (List ReceivedNoteRecord) :=
  (KeyedFold.fold ReceivedNoteRecord.key id mergeReceived
    ((receivedRows accountId rows).map (receivedCandidate transactions))).map
      (fun canonical => KeyedFold.listBy compareReceived (KeyedFold.values canonical))

end StashiWallet
