import StashiWallet.KeyedFolds
import StashiWallet.NoteStore

/-!
# The order of the transaction history

`get_transactions_with_options` lists pending records first, then the confirmed ones, then those
that expired; newest first in each group, by time or, where there is one, by height. The comparator
goes by heights between the groups as well. It is a total order on the records the call makes, of
which none with a height is expired (`compareTransactions_eq`).
-/

namespace StashiWallet

structure TransactionRecord where
  txid : String
  height : Int
  timestamp : Int
  amount : Int
  hasOutgoing : Bool
  outgoingValue : Option Nat
  outgoingValueEstimate : Option Nat
  outgoingBeforeFee : Option Nat
  outgoingScopeKnown : Bool
  storedFee : Option Nat
  fee : Nat
  memo : Option Bytes
  expired : Bool
  expiryHeight : Option Nat
deriving DecidableEq, Repr

namespace TransactionRecord

/-- Neither confirmed nor expired. -/
def pending (tx : TransactionRecord) : Bool := decide (tx.height ≤ 0) && !tx.expired

/-- Only a record without a height expires. -/
def Settled (tx : TransactionRecord) : Prop := tx.expired = true → tx.height ≤ 0

instance (tx : TransactionRecord) : Decidable tx.Settled := inferInstanceAs (Decidable (_ → _))

/-- The group of a record: pending, confirmed, expired. -/
def group (tx : TransactionRecord) : Nat :=
  if tx.pending then 0 else if tx.expired then 2 else 1

/-- What the records of a group go by. -/
def moment (tx : TransactionRecord) : Int :=
  if tx.group = 1 then tx.height else tx.timestamp

end TransactionRecord

/-- The comparator of the list. -/
def compareTransactions (a b : TransactionRecord) : Ordering :=
  (compare b.pending a.pending).then <|
    (if (a.pending && b.pending) || (a.expired && b.expired) then
      compare b.timestamp a.timestamp
    else compare b.height a.height).then <|
    (compare b.txid a.txid).then (compare b.amount a.amount)

/-- `transactions.sort_by`, and the limit. -/
def listTransactionRecords (limit : Option Nat) (records : List TransactionRecord) :
    List TransactionRecord :=
  let sorted := KeyedFold.listBy compareTransactions records
  match limit with
  | none => sorted
  | some limit => sorted.take limit

/-- The order by group, by time or height, by id and by amount. -/
def orderTransactions : TransactionRecord → TransactionRecord → Ordering :=
  compareLex (KeyedFold.ascending (·.group)) <|
  compareLex (KeyedFold.descending (·.moment)) <|
  compareLex (KeyedFold.descending (·.txid)) (KeyedFold.descending (·.amount))

instance : Std.TransCmp orderTransactions :=
  inferInstanceAs (Std.TransCmp (compareLex _ _))

/-- A record is pending, or confirmed, or expired. -/
theorem group_cases {tx : TransactionRecord} (h : tx.Settled) :
    (tx.group = 0 ∧ tx.pending = true ∧ tx.expired = false ∧ tx.height ≤ 0) ∨
      (tx.group = 1 ∧ tx.pending = false ∧ tx.expired = false ∧ 0 < tx.height) ∨
      (tx.group = 2 ∧ tx.pending = false ∧ tx.expired = true ∧ tx.height ≤ 0) := by
  unfold TransactionRecord.group TransactionRecord.pending
  cases hexpired : tx.expired with
  | true => simp [h hexpired]
  | false =>
    by_cases hheight : tx.height ≤ 0
    · simp [hheight]
    · simp [hheight, not_le.mp hheight]

/-- **The comparator is a total order** on the records that are listed. -/
theorem compareTransactions_eq {a b : TransactionRecord} (ha : a.Settled) (hb : b.Settled) :
    compareTransactions a b = orderTransactions a b := by
  unfold compareTransactions orderTransactions compareLex KeyedFold.ascending KeyedFold.descending
    TransactionRecord.moment
  rcases group_cases ha with ⟨hga, hpa, hea, hha⟩ | ⟨hga, hpa, hea, hha⟩ | ⟨hga, hpa, hea, hha⟩ <;>
    rcases group_cases hb with ⟨hgb, hpb, heb, hhb⟩ | ⟨hgb, hpb, heb, hhb⟩ | ⟨hgb, hpb, heb, hhb⟩ <;>
    simp only [hga, hgb, hpa, hpb, hea, heb]
  · rfl
  · rfl
  · rfl
  · rfl
  · rfl
  · have hheights : compare b.height a.height = .lt := Std.compare_eq_lt.mpr (by omega)
    rw [hheights]
    rfl
  · rfl
  · have hheights : compare b.height a.height = .gt := Std.compare_eq_gt.mpr (by omega)
    rw [hheights]
    rfl
  · rfl

end StashiWallet
