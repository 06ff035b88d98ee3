import StashiWallet.CursorPages
import StashiWallet.TransactionOrder

/-!
# Pages of the transaction history

`list_transactions_page` over the cached list of a wallet. A cursor has the height, the id and the
amount of the last entry of its page: it is found by id and amount, and an entry comes after it by
height, id and amount, where an entry without a height comes after none, and one with a height after
every cursor without. Entries without a height are pending, at the front of the list, or expired, at
its end.
-/

namespace StashiWallet

structure TxInfo where
  txid : String
  height : Option Nat
  timestamp : Int
  amount : Int
  fee : Nat
  memo : Option String
  confirmed : Bool
  expired : Bool
  expiryHeight : Option Nat
deriving DecidableEq, Repr

structure TransactionCursor where
  height : Option Nat
  txid : String
  amount : Int
deriving DecidableEq, Repr

structure TransactionPage where
  transactions : List TxInfo
  nextCursor : Option TransactionCursor
deriving DecidableEq, Repr

/-- The entry of a record, at a height and with a decoder of memos. -/
def TransactionRecord.txInfo (currentHeight : Nat) (decodeMemo : Bytes → Option String)
    (tx : TransactionRecord) : TxInfo where
  txid := tx.txid
  height := if 0 < tx.height then some (tx.height % 4294967296).toNat else none
  timestamp := tx.timestamp
  amount := tx.amount
  fee := tx.fee
  memo := tx.memo.bind decodeMemo
  confirmed := decide (0 < tx.height) && decide (tx.height ≤ (currentHeight : Int))
  expired := tx.expired
  expiryHeight := tx.expiryHeight

def MAX_TRANSACTION_PAGE_SIZE : Nat := 200

def transactionMatchesCursor (cursor : TransactionCursor) (tx : TxInfo) : Bool :=
  tx.txid == cursor.txid && tx.amount == cursor.amount

/-- `cursor.height.cmp(&tx.height)`, then the ids, then the amounts. -/
def compareCursor (cursor : TransactionCursor) (tx : TxInfo) : Ordering :=
  (compare cursor.height tx.height).then
    ((compare cursor.txid tx.txid).then (compare cursor.amount tx.amount))

def transactionIsAfterCursor (cursor : TransactionCursor) (tx : TxInfo) : Bool :=
  match cursor.height.isNone, tx.height.isNone with
  | true, true => false
  | true, false => true
  | false, true => false
  | false, false => (compareCursor cursor tx).isGT

def TxInfo.cursor (tx : TxInfo) : TransactionCursor := ⟨tx.height, tx.txid, tx.amount⟩

def paginateTransactionSnapshot (transactions : List TxInfo) (cursor : Option TransactionCursor)
    (pageSize : Nat) : TransactionPage :=
  let start := match cursor with
    | none => 0
    | some cursor =>
      (((transactions.findIdx? (transactionMatchesCursor cursor)).map (· + 1)).or
        (transactions.findIdx? (transactionIsAfterCursor cursor))).getD transactions.length
  let stop := min (start + pageSize) transactions.length
  let page := (transactions.drop start).take (stop - start)
  { transactions := page
    nextCursor := if stop < transactions.length then page.getLast?.map TxInfo.cursor else none }

/-! ## The cached list -/

structure TxListCacheEntry where
  transactions : List TxInfo
  complete : Bool
deriving DecidableEq, Repr

/-- What a wallet's list is read from: the cache, and the history as the database yields it. -/
structure TransactionLists where
  decoy : Bool
  suppressLiveReads : Bool
  cached : Option TxListCacheEntry
  history : Except String (List TxInfo)

namespace TransactionLists

variable (lists : TransactionLists)

/-- A limit cuts a list off. -/
def limited (limit : Option Nat) (transactions : List TxInfo) : List TxInfo :=
  match limit with
  | none => transactions
  | some limit => transactions.take limit

def getCachedTransactions (limit : Option Nat) : Option (List TxInfo) :=
  match lists.cached with
  | none => none
  | some cached =>
    if limit.isNone && !cached.complete then none else some (limited limit cached.transactions)

def getCompleteTransactionSnapshot : Option (List TxInfo) :=
  match lists.cached with
  | none => none
  | some cached => if cached.complete then some cached.transactions else none

/-- The list is a prefix of a complete one that is cached already. -/
def keepsSnapshot (transactions : List TxInfo) : Bool :=
  match lists.cached with
  | none => false
  | some existing => existing.complete && transactions.isPrefixOf existing.transactions

def putCachedTransactions (limit : Option Nat) (transactions : List TxInfo) : TransactionLists :=
  let complete := match limit with
    | none => true
    | some limit => decide (transactions.length < limit)
  if !complete && lists.keepsSnapshot transactions then lists
  else { lists with cached := some ⟨transactions, complete⟩ }

def listTransactions (limit : Option Nat) : Except String (List TxInfo × TransactionLists) :=
  if lists.decoy then .ok ([], lists)
  else
    match (if lists.suppressLiveReads then lists.getCachedTransactions limit else none) with
    | some cached => .ok (cached, lists)
    | none =>
      match lists.history with
      | .error e => .error e
      | .ok history =>
        .ok (limited limit history, lists.putCachedTransactions limit (limited limit history))

/-- The list a page is taken from. -/
def pageSnapshot (cursor : Option TransactionCursor) :
    Except String (List TxInfo × TransactionLists) :=
  match (if cursor.isSome then lists.getCompleteTransactionSnapshot else none) with
  | some snapshot => .ok (snapshot, lists)
  | none =>
    match lists.listTransactions none with
    | .error e => .error e
    | .ok (transactions, after) =>
      .ok (after.getCompleteTransactionSnapshot.getD transactions, after)

def listTransactionsPage (cursor : Option TransactionCursor) (pageSize : Nat) :
    Except String (TransactionPage × TransactionLists) :=
  if pageSize = 0 ∨ MAX_TRANSACTION_PAGE_SIZE < pageSize then
    .error s!"Transaction page size must be between 1 and {MAX_TRANSACTION_PAGE_SIZE}"
  else
    match lists.pageSnapshot cursor with
    | .error e => .error e
    | .ok (snapshot, after) => .ok (paginateTransactionSnapshot snapshot cursor pageSize, after)

/-- The pages a reader gets who follows the cursors, while nobody else uses the lists; nothing if
they do not end in so many. -/
def followPages (pageSize : Nat) :
    Nat → TransactionLists → Option TransactionCursor → Except String (Option (List TxInfo))
  | 0, _, _ => .ok none
  | fuel + 1, lists, cursor =>
    match lists.listTransactionsPage cursor pageSize with
    | .error e => .error e
    | .ok (page, after) =>
      match page.nextCursor with
      | none => .ok (some page.transactions)
      | some next =>
        (followPages pageSize fuel after (some next)).map (·.map (page.transactions ++ ·))

end TransactionLists

end StashiWallet
