import StashiWallet.NoteBirthdays
import StashiWallet.TransactionMetadata
import StashiWallet.TransactionOrder

/-!
# The transaction history

`get_transactions_with_options` reads the rows of `notes` in whatever order their encrypted heights
put them. A map of outputs remembers whether a spent row was seen: the first row of an output is
received, and the first spent one, if it names its transaction, is spent there. What is received
and spent is added up by the hex of the transaction id, outgoing intents are laid over it, and each
id becomes one record or, if transfers are split, a sending and a receiving one.
-/

namespace StashiWallet

def i64Min : Int := -9223372036854775808

/-- `i64::saturating_add`. -/
def i64SaturatingAdd (a b : Int) : Int := max i64Min (min (a + b) i64Max)

/-- `i64::saturating_sub`. -/
def i64SaturatingSub (a b : Int) : Int := max i64Min (min (a - b) i64Max)

def i64CheckedSub (a b : Int) : Option Int :=
  if i64Min ≤ a - b ∧ a - b ≤ i64Max then some (a - b) else none

/-- `u64::try_from(value).ok()`. -/
def u64TryFrom (value : Int) : Option Nat := if 0 ≤ value then some value.toNat else none

/-- `DEFAULT_FEE`, as the history infers it. -/
def HISTORY_DEFAULT_FEE : Nat := 10000

/-- What a self transfer may cost, and still be shown as one. -/
def SELF_TRANSFER_TOLERANCE : Int := 20000

/-! ## What is stored about transactions -/

/-- What `get_transaction_fees` finds under an id. -/
def getTransactionFee (transactions : List TransactionRow) (txid : String) : Option Nat :=
  (transactionOf transactions txid).map (fun tx => (u64TryFrom tx.fee).getD 0)

/-- What `get_transaction_memos` finds under an id: the last of its memos. -/
def getTransactionMemo (transactions : List TransactionRow) (memos : List MemoRow)
    (txid : String) : Option Bytes :=
  (transactionOf transactions txid).bind fun tx =>
    ((memos.filter (fun memo => memo.txId == tx.id)).getLast?).map (·.memo)

/-- The tables the history is read from besides the notes; the intents are those of the account. -/
structure HistoryTables where
  addresses : List AddressRow
  intents : List OutgoingTransactionIntent
  transactions : List TransactionRow
  memos : List MemoRow

namespace HistoryTables

variable (tables : HistoryTables)

/-- `address_scopes`. -/
def addressScope (accountId id : Int) : Option AddressScope :=
  (tables.addresses.find? (fun row => row.accountId == accountId && (row.id : Int) == id)).map
    (·.addressScope)

def directHeight (txid : String) : Int := (getTransactionHeight tables.transactions txid).getD 0

def altHeight (txid : String) : Int :=
  ((reverseTxidHex txid).bind (getTransactionHeight tables.transactions)).getD 0

def bestHeight (txid : String) : Int := max (tables.directHeight txid) (tables.altHeight txid)

end HistoryTables

/-! ## The rows -/

structure TxAggregate where
  height : Int
  receivedExternal : Int
  receivedInternal : Int
  sent : Int
  intentAmount : Option Int
  intentFee : Option Nat
  intentBroadcastAt : Option Int
  intentExpiryHeight : Option Nat
  memo : Option Bytes
  sawInternal : Bool
  sawUnknownScope : Bool
  qortalUnknownScope : Bool
deriving DecidableEq, Repr

namespace TxAggregate

def new (height : Int) : TxAggregate where
  height := height
  receivedExternal := 0
  receivedInternal := 0
  sent := 0
  intentAmount := none
  intentFee := none
  intentBroadcastAt := none
  intentExpiryHeight := none
  memo := none
  sawInternal := false
  sawUnknownScope := false
  qortalUnknownScope := false

/-- `process_incoming`. -/
def receive (scopes : Int → Option AddressScope) (note : NoteRow) (entry : TxAggregate) :
    TxAggregate :=
  let known := note.addressId.bind scopes
  let scope := known.getD .external
  { entry with
    height := max entry.height note.height
    sawUnknownScope := entry.sawUnknownScope || note.addressId.isNone
    qortalUnknownScope := entry.qortalUnknownScope || known.isNone
    sawInternal := entry.sawInternal || decide (scope = .internal)
    receivedInternal :=
      if scope = .internal then i64SaturatingAdd entry.receivedInternal note.value
      else entry.receivedInternal
    receivedExternal :=
      if scope = .external then i64SaturatingAdd entry.receivedExternal note.value
      else entry.receivedExternal
    memo := entry.memo.or (note.memo.filter (fun memo => !memoBytesAreEffectivelyEmpty memo)) }

/-- `process_outgoing`. -/
def spend (value : Int) (entry : TxAggregate) : TxAggregate :=
  { entry with sent := i64SaturatingAdd entry.sent value }

end TxAggregate

abbrev TxMap : Type := AList (fun _ : String => TxAggregate)

/-- `entry(txid).or_insert_with(|| TxAggregate::new(height))`. -/
def TxMap.entry (txMap : TxMap) (txid : String) (height : Int) : TxAggregate :=
  (txMap.lookup txid).getD (TxAggregate.new height)

/-- The maps of the loop over the rows. -/
structure HistoryMaps where
  seen : AList (fun _ : OutputKey => Bool)
  txMap : TxMap

namespace HistoryMaps

def empty : HistoryMaps := ⟨∅, ∅⟩

variable (scopes : Int → Option AddressScope)

def processIncoming (note : NoteRow) (maps : HistoryMaps) : HistoryMaps :=
  let txid := txidHexFromBytes note.txid
  { maps with
    txMap := maps.txMap.insert txid ((maps.txMap.entry txid note.height).receive scopes note) }

def processOutgoing (note : NoteRow) (maps : HistoryMaps) : HistoryMaps :=
  match note.spentTxid with
  | none => maps
  | some spentTxid =>
    let txid := txidHexFromBytes spentTxid
    { maps with txMap := maps.txMap.insert txid ((maps.txMap.entry txid 0).spend note.value) }

/-- `seen.insert(key, spent)`. -/
def see (note : NoteRow) (spent : Bool) (maps : HistoryMaps) : HistoryMaps :=
  { maps with seen := maps.seen.insert note.outputKey spent }

/-- The loop body, past the filters. -/
def readRow (maps : HistoryMaps) (note : NoteRow) : HistoryMaps :=
  match maps.seen.lookup note.outputKey with
  | none =>
    let received := (maps.see note note.spent).processIncoming scopes note
    if note.spent then received.processOutgoing note else received
  | some prevSpent =>
    if note.spent && !prevSpent then (maps.see note true).processOutgoing note else maps

end HistoryMaps

/-- The rows that count: those of the account with a valid value. -/
def historyRows (accountId : Int) (rows : List NoteRow) : List NoteRow :=
  rows.filter (fun row => row.accountId == accountId && noteValueIsValid row.value)

def readHistory (scopes : Int → Option AddressScope) (accountId : Int) (rows : List NoteRow) :
    HistoryMaps :=
  (historyRows accountId rows).foldl (HistoryMaps.readRow scopes) .empty

/-! ## The intents -/

/-- `aggregate_txid`: the id, or its reverse if only that has an entry. -/
def TxMap.intentTxid (txMap : TxMap) (txid : String) : String :=
  if (txMap.lookup txid).isSome then txid
  else ((reverseTxidHex txid).filter (fun reversed => (txMap.lookup reversed).isSome)).getD txid

/-- The loop body over the intents. -/
def TxMap.addIntent (txMap : TxMap) (intent : OutgoingTransactionIntent) :
    Except StorageError TxMap :=
  if i64Max < intent.amount then
    .error (.storage "Stored outgoing amount exceeds history range")
  else
    let txid := txMap.intentTxid intent.txid
    .ok (txMap.insert txid { txMap.entry txid 0 with
      intentAmount := some intent.amount
      intentFee := some intent.fee
      intentBroadcastAt := some intent.broadcastAt
      intentExpiryHeight := if 0 < intent.expiryHeight then some intent.expiryHeight else none })

/-! ## The records of an entry -/

namespace TxAggregate

variable (entry : TxAggregate)

/-- The entry at the best height that the transaction's own rows know, where there is one. -/
def mined (best : Int) : TxAggregate := if 0 < best then { entry with height := best } else entry

def totalReceived : Int := i64SaturatingAdd entry.receivedExternal entry.receivedInternal

def netAmount : Int := i64SaturatingSub entry.totalReceived entry.sent

/-- The fee, which is inferred if none is stored. -/
def fee (storedFee : Nat) : Nat :=
  if storedFee = 0 ∧ 0 < entry.sent ∧ entry.netAmount < 0 then HISTORY_DEFAULT_FEE else storedFee

def chainOutgoingAmount (fee : Nat) : Int :=
  i64SaturatingSub (i64SaturatingSub entry.sent entry.receivedInternal) (min fee i64Max : Nat)

def outgoingAmount (fee : Nat) : Int := entry.intentAmount.getD (entry.chainOutgoingAmount fee)

def hasOutgoing : Bool := decide (0 < entry.sent) || entry.intentAmount.isSome

def outgoingValue (storedFee : Nat) : Option Nat :=
  if 0 < entry.height ∧ 0 < entry.sent ∧ entry.qortalUnknownScope = false ∧ 0 < storedFee then
    ((i64CheckedSub entry.sent entry.receivedInternal).bind fun value =>
      (if storedFee ≤ i64Max then i64CheckedSub value storedFee else none).bind u64TryFrom).filter
        fun value => entry.intentAmount.all fun intent => decide ((value : Int) ≤ intent)
  else none

def outgoingBeforeFee : Option Nat :=
  if 0 < entry.height ∧ 0 < entry.sent ∧ entry.qortalUnknownScope = false ∧
      entry.intentAmount = none then
    (i64CheckedSub entry.sent entry.receivedInternal).bind u64TryFrom
  else none

def outgoingValueEstimate (storedFee : Nat) : Option Nat :=
  if 0 < entry.height ∧ 0 < entry.sent ∧ entry.qortalUnknownScope = false ∧ storedFee = 0 then
    (i64CheckedSub entry.sent entry.receivedInternal).bind fun value =>
      (i64CheckedSub value HISTORY_DEFAULT_FEE).bind u64TryFrom
  else none

def expired (currentHeight : Nat) : Bool :=
  decide (entry.height ≤ 0) &&
    entry.intentExpiryHeight.any (fun height => decide (height < currentHeight))

def canSplit (splitTransfers : Bool) (fee : Nat) : Bool :=
  splitTransfers && decide (0 < entry.receivedExternal) && decide (0 < entry.outgoingAmount fee) &&
    entry.sawInternal && !entry.sawUnknownScope

def selfTransfer (splitTransfers : Bool) : Bool :=
  splitTransfers && entry.hasOutgoing && decide (0 < entry.receivedExternal) &&
    decide (entry.receivedInternal = 0) && !entry.sawUnknownScope &&
    decide (|entry.netAmount| ≤ SELF_TRANSFER_TOLERANCE)

end TxAggregate

/-- What the records of a transaction share. -/
structure TxFacts where
  timestamp : Int
  storedFee : Nat
  memo : Option Bytes

namespace HistoryTables

variable (tables : HistoryTables)

def timestamp (now : String → Int) (txid : String) (entry : TxAggregate) : Int :=
  let direct := getTransactionTimestamp tables.transactions txid
  let alt := (reverseTxidHex txid).bind (getTransactionTimestamp tables.transactions)
  let stored := if tables.directHeight txid < tables.altHeight txid then alt.or direct
    else direct.or alt
  (stored.or entry.intentBroadcastAt).getD (now txid)

def storedFee (txid : String) (entry : TxAggregate) : Nat :=
  max (max ((getTransactionFee tables.transactions txid).getD 0)
    (((reverseTxidHex txid).bind (getTransactionFee tables.transactions)).getD 0))
    (entry.intentFee.getD 0)

def memo (txid : String) (entry : TxAggregate) : Option Bytes :=
  ((entry.memo.or (getTransactionMemo tables.transactions tables.memos txid)).or
    ((reverseTxidHex txid).bind (getTransactionMemo tables.transactions tables.memos))).filter
      (fun memo => !memoBytesAreEffectivelyEmpty memo)

def facts (now : String → Int) (txid : String) (entry : TxAggregate) : TxFacts where
  timestamp := tables.timestamp now txid entry
  storedFee := tables.storedFee txid entry
  memo := tables.memo txid entry

end HistoryTables

/-- The record that carries what the transaction spent. -/
def sendRecordOf (txid : String) (entry : TxAggregate) (facts : TxFacts) (amount : Int)
    (expired : Bool) (expiryHeight : Option Nat) : TransactionRecord where
  txid := txid
  height := entry.height
  timestamp := facts.timestamp
  amount := amount
  hasOutgoing := entry.hasOutgoing
  outgoingValue := entry.outgoingValue facts.storedFee
  outgoingValueEstimate := entry.outgoingValueEstimate facts.storedFee
  outgoingBeforeFee := entry.outgoingBeforeFee
  outgoingScopeKnown := decide (0 < entry.height) && !entry.qortalUnknownScope
  storedFee := if 0 < facts.storedFee then some facts.storedFee else none
  fee := entry.fee facts.storedFee
  memo := facts.memo
  expired := expired
  expiryHeight := expiryHeight

/-- The receiving record of a split transfer. -/
def receiveRecordOf (txid : String) (entry : TxAggregate) (facts : TxFacts) (amount : Int) :
    TransactionRecord where
  txid := txid
  height := entry.height
  timestamp := facts.timestamp
  amount := amount
  hasOutgoing := false
  outgoingValue := none
  outgoingValueEstimate := none
  outgoingBeforeFee := none
  outgoingScopeKnown := false
  storedFee := none
  fee := 0
  memo := facts.memo
  expired := false
  expiryHeight := none

/-- The records of a transaction. -/
def recordsOf (currentHeight : Nat) (splitTransfers : Bool) (txid : String) (entry : TxAggregate)
    (facts : TxFacts) : List TransactionRecord :=
  let outgoing := entry.outgoingAmount (entry.fee facts.storedFee)
  let send := fun amount => sendRecordOf txid entry facts amount (entry.expired currentHeight)
    entry.intentExpiryHeight
  if entry.canSplit splitTransfers (entry.fee facts.storedFee) then
    [send (-outgoing), receiveRecordOf txid entry facts entry.receivedExternal]
  else if entry.selfTransfer splitTransfers then
    let transfer := entry.intentAmount.getD entry.receivedExternal
    [send (-transfer), receiveRecordOf txid entry facts transfer]
  else if entry.intentAmount.isSome then [send (-outgoing)]
  else [sendRecordOf txid entry facts entry.netAmount false none]

/-! ## The call -/

/-- The arguments of the call, the clock and the order in which the entries of the map come. -/
structure HistoryCall where
  accountId : Int
  limit : Option Nat
  currentHeight : Nat
  splitTransfers : Bool
  now : String → Int
  iteration : IterationOrder (String × TxAggregate)

namespace HistoryCall

variable (call : HistoryCall) (tables : HistoryTables)

/-- The records of an entry of the map. -/
def entryRecords (item : String × TxAggregate) : List TransactionRecord :=
  let entry := item.2.mined (tables.bestHeight item.1)
  recordsOf call.currentHeight call.splitTransfers item.1 entry
    (tables.facts call.now item.1 entry)

def entries (txMap : TxMap) : List (String × TxAggregate) :=
  txMap.entries.map (fun item => (item.1, item.2))

/-- The map as the notes and the intents fill it. -/
def txMap (rows : List NoteRow) : Except StorageError TxMap :=
  tables.intents.foldlM TxMap.addIntent
    (readHistory (tables.addressScope call.accountId) call.accountId rows).txMap

def getTransactionsWithOptions (rows : List NoteRow) :
    Except StorageError (List TransactionRecord) :=
  (call.txMap tables rows).map fun txMap =>
    listTransactionRecords call.limit
      ((call.iteration.order (entries txMap)).flatMap (call.entryRecords tables))

end HistoryCall

end StashiWallet
