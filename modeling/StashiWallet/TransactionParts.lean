import StashiWallet.TransactionHistory

/-!
# What the rows contribute to the history

The loop over the rows keeps two maps. What it adds to the second can be told from the first alone:
a row contributes a receipt, a spend, both or nothing (`rowParts`), and the entry of a transaction
is what its parts add up to (`lookup_readHistory`). Of the first map only the lookups matter, so the
parts are computed from a function (`historyParts`).
-/

namespace StashiWallet

/-- What a received row contributes. -/
structure Receipt where
  height : Int
  value : Int
  unaddressed : Bool
  scope : Option AddressScope
  memo : Option Bytes
deriving DecidableEq, Repr

/-- What a row contributes to an entry. -/
inductive HistoryPart where
  | received (receipt : Receipt)
  | spent (value : Int)
deriving DecidableEq, Repr

namespace TxAggregate

def addReceipt (entry : TxAggregate) (receipt : Receipt) : TxAggregate :=
  { entry with
    height := max entry.height receipt.height
    sawUnknownScope := entry.sawUnknownScope || receipt.unaddressed
    qortalUnknownScope := entry.qortalUnknownScope || receipt.scope.isNone
    sawInternal := entry.sawInternal || decide (receipt.scope.getD .external = .internal)
    receivedInternal :=
      if receipt.scope.getD .external = .internal then
        i64SaturatingAdd entry.receivedInternal receipt.value
      else entry.receivedInternal
    receivedExternal :=
      if receipt.scope.getD .external = .external then
        i64SaturatingAdd entry.receivedExternal receipt.value
      else entry.receivedExternal
    memo := entry.memo.or receipt.memo }

def addPart (entry : TxAggregate) : HistoryPart → TxAggregate
  | .received receipt => entry.addReceipt receipt
  | .spent value => entry.spend value

end TxAggregate

/-- The entry a part starts. -/
def HistoryPart.start : HistoryPart → TxAggregate
  | .received receipt => (TxAggregate.new receipt.height).addReceipt receipt
  | .spent value => (TxAggregate.new 0).spend value

def putPart (txMap : TxMap) (part : String × HistoryPart) : TxMap :=
  KeyedFold.put Prod.fst (fun part => part.2.start) (fun entry part => entry.addPart part.2)
    txMap part

/-- The entry the parts of one transaction add up to. -/
def entryOf (parts : List (String × HistoryPart)) : Option TxAggregate :=
  KeyedFold.combine (fun part => part.2.start) (fun entry part => entry.addPart part.2) parts

section Rows

variable (scopes : Int → Option AddressScope)

def NoteRow.receipt (note : NoteRow) : Receipt where
  height := note.height
  value := note.value
  unaddressed := note.addressId.isNone
  scope := note.addressId.bind scopes
  memo := note.memo.filter (fun memo => !memoBytesAreEffectivelyEmpty memo)

theorem receive_eq (note : NoteRow) (entry : TxAggregate) :
    entry.receive scopes note = entry.addReceipt (note.receipt scopes) := rfl

def spentParts (note : NoteRow) : List (String × HistoryPart) :=
  (note.spentTxid.map fun txid => (txidHexFromBytes txid, HistoryPart.spent note.value)).toList

/-- What a row contributes, by what is known of its output. -/
def rowParts (seen : Option Bool) (note : NoteRow) : List (String × HistoryPart) :=
  match seen with
  | none => (txidHexFromBytes note.txid, .received (note.receipt scopes)) ::
      (if note.spent then spentParts note else [])
  | some prevSpent => if note.spent && !prevSpent then spentParts note else []

/-- What is known of the output after the row. -/
def seenAfter (seen : Option Bool) (note : NoteRow) : Option Bool :=
  some (seen.getD false || note.spent)

/-- What the rows contribute, in order. -/
def historyParts : (OutputKey → Option Bool) → List NoteRow → List (String × HistoryPart)
  | _, [] => []
  | seen, note :: rest => rowParts scopes (seen note.outputKey) note ++
      historyParts (Function.update seen note.outputKey (seenAfter (seen note.outputKey) note)) rest

variable {scopes}

theorem putPart_eq (txMap : TxMap) (txid : String) (part : HistoryPart) :
    putPart txMap (txid, part) =
      txMap.insert txid (((txMap.lookup txid).map (·.addPart part)).getD part.start) := rfl

theorem processIncoming_txMap (note : NoteRow) (maps : HistoryMaps) :
    (maps.processIncoming scopes note).txMap =
      putPart maps.txMap (txidHexFromBytes note.txid, .received (note.receipt scopes)) := by
  rw [putPart_eq]
  unfold HistoryMaps.processIncoming TxMap.entry
  dsimp only
  rw [receive_eq]
  cases maps.txMap.lookup (txidHexFromBytes note.txid) <;> rfl

theorem processOutgoing_txMap (note : NoteRow) (maps : HistoryMaps) :
    (maps.processOutgoing note).txMap = (spentParts note).foldl putPart maps.txMap := by
  unfold HistoryMaps.processOutgoing spentParts TxMap.entry
  cases note.spentTxid with
  | none => rfl
  | some txid =>
    simp only [Option.map_some, Option.toList_some, List.foldl_cons, List.foldl_nil, putPart_eq]
    cases maps.txMap.lookup (txidHexFromBytes txid) <;> rfl

theorem processOutgoing_seen (note : NoteRow) (maps : HistoryMaps) :
    (maps.processOutgoing note).seen = maps.seen := by
  unfold HistoryMaps.processOutgoing
  cases note.spentTxid <;> rfl

theorem readRow_txMap (maps : HistoryMaps) (note : NoteRow) :
    (maps.readRow scopes note).txMap =
      (rowParts scopes (maps.seen.lookup note.outputKey) note).foldl putPart maps.txMap := by
  unfold HistoryMaps.readRow rowParts
  cases maps.seen.lookup note.outputKey with
  | none =>
    cases hspent : note.spent with
    | false =>
      simp only [Bool.false_eq_true, if_false, List.foldl_cons, List.foldl_nil]
      exact processIncoming_txMap note _
    | true =>
      simp only [if_true, List.foldl_cons]
      rw [processOutgoing_txMap, processIncoming_txMap]
      rfl
  | some prevSpent =>
    by_cases hfirst : (note.spent && !prevSpent) = true
    · simp only [hfirst, if_true]
      exact processOutgoing_txMap note _
    · dsimp only
      rw [if_neg hfirst, if_neg hfirst]
      rfl

theorem readRow_seen (maps : HistoryMaps) (note : NoteRow) (key : OutputKey) :
    (maps.readRow scopes note).seen.lookup key =
      Function.update (fun key => maps.seen.lookup key) note.outputKey
        (seenAfter (maps.seen.lookup note.outputKey) note) key := by
  have hinsert : ∀ spent : Bool, (maps.seen.insert note.outputKey spent).lookup key =
      Function.update (fun key => maps.seen.lookup key) note.outputKey (some spent) key := by
    intro spent
    by_cases hkey : key = note.outputKey
    · subst hkey
      rw [AList.lookup_insert, Function.update_self]
    · rw [AList.lookup_insert_ne hkey, Function.update_of_ne hkey]
  unfold HistoryMaps.readRow seenAfter
  cases hseen : maps.seen.lookup note.outputKey with
  | none =>
    have hreceived : ((maps.see note note.spent).processIncoming scopes note).seen =
        maps.seen.insert note.outputKey note.spent := rfl
    dsimp only
    rw [apply_ite HistoryMaps.seen, processOutgoing_seen, hreceived, ite_self, hinsert]
    simp
  | some prevSpent =>
    dsimp only
    by_cases hfirst : (note.spent && !prevSpent) = true
    · rw [if_pos hfirst, processOutgoing_seen]
      obtain ⟨hspent, -⟩ := Bool.and_eq_true_iff.mp hfirst
      show (maps.seen.insert note.outputKey true).lookup key = _
      rw [hinsert, hspent, Bool.or_true]
    · rw [if_neg hfirst]
      have hsame : (prevSpent || note.spent) = prevSpent := by
        cases prevSpent <;> cases hspent : note.spent <;> simp_all
      rw [Option.getD_some, hsame]
      by_cases hkey : key = note.outputKey
      · subst hkey
        rw [Function.update_self, hseen]
      · rw [Function.update_of_ne hkey]

/-- The second map of the loop, by the parts of the rows. -/
theorem foldl_readRow_txMap (rows : List NoteRow) (maps : HistoryMaps) :
    (rows.foldl (HistoryMaps.readRow scopes) maps).txMap =
      (historyParts scopes (fun key => maps.seen.lookup key) rows).foldl putPart maps.txMap := by
  induction rows generalizing maps with
  | nil => rfl
  | cons note rest ih =>
    rw [List.foldl_cons, ih, historyParts, List.foldl_append, readRow_txMap]
    congr 2
    exact funext fun key => readRow_seen maps note key

/-- Nothing is known of any output. -/
def unseen : OutputKey → Option Bool := fun _ => none

/-- **The entry of a transaction** is what the parts of its rows add up to. -/
theorem lookup_readHistory (accountId : Int) (rows : List NoteRow) (txid : String) :
    (readHistory scopes accountId rows).txMap.lookup txid =
      entryOf ((historyParts scopes unseen (historyRows accountId rows)).filter
        (fun part => decide (part.1 = txid))) := by
  unfold readHistory
  rw [foldl_readRow_txMap]
  exact KeyedFold.lookup_foldl_put _ txid

end Rows

/-! ## The records of the entries -/

theorem recordsOf_txid {currentHeight : Nat} {splitTransfers : Bool} {txid : String}
    {entry : TxAggregate} {facts : TxFacts} {record : TransactionRecord}
    (h : record ∈ recordsOf currentHeight splitTransfers txid entry facts) :
    record.txid = txid := by
  unfold recordsOf at h
  dsimp only at h
  split at h
  · rcases List.mem_pair.mp h with rfl | rfl <;> rfl
  · split at h
    · rcases List.mem_pair.mp h with rfl | rfl <;> rfl
    · split at h <;> rw [List.mem_singleton.mp h] <;> rfl

namespace HistoryCall

variable {call : HistoryCall} {tables : HistoryTables}

theorem entryRecords_txid {item : String × TxAggregate} {record : TransactionRecord}
    (h : record ∈ call.entryRecords tables item) : record.txid = item.1 := recordsOf_txid h

theorem mem_entries {txMap : TxMap} {txid : String} {entry : TxAggregate} :
    (txid, entry) ∈ entries txMap ↔ txMap.lookup txid = some entry := by
  unfold entries
  rw [List.mem_map]
  constructor
  · rintro ⟨⟨k, found⟩, hmem, heq⟩
    obtain ⟨rfl, rfl⟩ := Prod.mk.inj heq
    exact AList.mem_lookup_iff.mpr hmem
  · intro h
    exact ⟨⟨txid, entry⟩, AList.mem_lookup_iff.mp h, rfl⟩

theorem entries_fst (txMap : TxMap) : (entries txMap).map Prod.fst = txMap.keys := by
  unfold entries AList.keys List.keys
  rw [List.map_map]
  rfl

/-- The records of one id, among those of all entries. -/
theorem filter_entryRecords {items : List (String × TxAggregate)}
    (hnodup : (items.map Prod.fst).Nodup) {item : String × TxAggregate} (hitem : item ∈ items) :
    (items.flatMap (call.entryRecords tables)).filter
        (fun record => decide (record.txid = item.1)) = call.entryRecords tables item := by
  induction items with
  | nil => cases hitem
  | cons first rest ih =>
    obtain ⟨hnew, hrest⟩ := List.nodup_cons.mp hnodup
    have hall : ∀ other : String × TxAggregate, other.1 = item.1 →
        (call.entryRecords tables other).filter (fun record => decide (record.txid = item.1)) =
          call.entryRecords tables other := by
      intro other heq
      rw [List.filter_eq_self]
      exact fun record hrecord => decide_eq_true ((entryRecords_txid hrecord).trans heq)
    have hnone : ∀ other : String × TxAggregate, other.1 ≠ item.1 →
        (call.entryRecords tables other).filter (fun record => decide (record.txid = item.1)) =
          [] := by
      intro other hne
      rw [List.filter_eq_nil_iff]
      intro record hrecord
      rw [entryRecords_txid hrecord, decide_eq_true_eq]
      exact hne
    rw [List.flatMap_cons, List.filter_append]
    rcases List.mem_cons.mp hitem with rfl | hmem
    · have hothers : (rest.flatMap (call.entryRecords tables)).filter
          (fun record => decide (record.txid = item.1)) = [] := by
        rw [List.filter_flatMap, List.flatMap_eq_nil_iff]
        intro other hother
        refine hnone other fun heq => hnew ?_
        exact List.mem_map.mpr ⟨other, hother, heq⟩
      rw [hall item rfl, hothers, List.append_nil]
    · have hne : first.1 ≠ item.1 := by
        intro heq
        exact hnew (List.mem_map.mpr ⟨item, hmem, heq.symm⟩)
      rw [hnone first hne, List.nil_append, ih hrest hmem]

end HistoryCall

end StashiWallet
