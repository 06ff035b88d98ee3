import StashiWallet.NoteStore

/-!
# What is stored about a transaction

The calls that list received notes or transactions look up heights, times and fees of
transactions in `transactions`, under the hex of an id in either byte order: the table uses the
hex of the bytes as notes store them, older rows that of the reversed bytes.
-/

namespace StashiWallet

def txidHexFromBytes (txidBytes : Bytes) : String := hexEncode txidBytes.reverse

/-- The row of an id; the column is `UNIQUE`. -/
def transactionOf (transactions : List TransactionRow) (txid : String) : Option TransactionRow :=
  transactions.find? (fun tx => tx.txid == txid)

/-- What `get_transaction_heights` finds under an id. -/
def getTransactionHeight (transactions : List TransactionRow) (txid : String) : Option Int :=
  (transactionOf transactions txid).map (·.height)

/-- What `get_transaction_timestamps` finds under an id. -/
def getTransactionTimestamp (transactions : List TransactionRow) (txid : String) : Option Int :=
  (transactionOf transactions txid).map (·.timestamp)

end StashiWallet
