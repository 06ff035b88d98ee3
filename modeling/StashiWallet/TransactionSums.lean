import Mathlib.Algebra.Order.BigOperators.Group.List
import StashiWallet.TransactionParts

/-!
# What the history adds up to

With one row for each output, no intents and values that fit, the entries of the history add up to
what the notes are worth that are not spent in a transaction of their own. A transfer that is split
by what came back as change adds up to its unsplit amount and its fee; one that is shown as a
transfer to oneself adds up to nothing, whatever it cost.
-/

namespace StashiWallet

/-! ## Sums of parts -/

namespace HistoryPart

/-- What the part receives. -/
def receives : HistoryPart → Int
  | .received receipt => receipt.value
  | .spent _ => 0

/-- What the part sends. -/
def sends : HistoryPart → Int
  | .received _ => 0
  | .spent value => value

/-- The part moves no negative value. -/
def Counts (part : HistoryPart) : Prop := 0 ≤ part.receives ∧ 0 ≤ part.sends

end HistoryPart

/-- The entry holds these sums. -/
structure TxAggregate.Holds (entry : TxAggregate) (received sent : Int) : Prop where
  external : 0 ≤ entry.receivedExternal
  internal : 0 ≤ entry.receivedInternal
  received : entry.receivedExternal + entry.receivedInternal = received
  sent : entry.sent = sent
  noIntent : entry.intentAmount = none

theorem i64SaturatingAdd_of_le {a b : Int} (ha : 0 ≤ a) (hb : 0 ≤ b) (h : a + b ≤ i64Max) :
    i64SaturatingAdd a b = a + b := by
  unfold i64SaturatingAdd i64Min
  omega

theorem i64SaturatingSub_of_le {a b : Int} (ha : 0 ≤ a) (hb : 0 ≤ b) (hmaxA : a ≤ i64Max)
    (hmaxB : b ≤ i64Max) : i64SaturatingSub a b = a - b := by
  unfold i64SaturatingSub i64Min
  unfold i64Max at *
  omega

namespace TxAggregate

variable {entry : TxAggregate} {received sent : Int}

theorem holds_new (height : Int) : (new height).Holds 0 0 :=
  ⟨Int.le_refl 0, Int.le_refl 0, rfl, rfl, rfl⟩

theorem Holds.addPart (h : entry.Holds received sent) {part : HistoryPart} (hpart : part.Counts)
    (hreceived : received + part.receives ≤ i64Max) (hsent : sent + part.sends ≤ i64Max)
    (hpos : 0 ≤ sent) :
    (entry.addPart part).Holds (received + part.receives) (sent + part.sends) := by
  obtain ⟨hexternal, hinternal, hsum, hsends, hintent⟩ := h
  obtain ⟨hreceives, hspends⟩ := hpart
  cases part with
  | received receipt =>
    have hvalue : 0 ≤ receipt.value := hreceives
    have hbound : received + receipt.value ≤ i64Max := hreceived
    have hzero : sent + (HistoryPart.received receipt).sends = sent := Int.add_zero sent
    rw [hzero]
    cases hscope : receipt.scope.getD .external with
    | internal =>
      have hadd := i64SaturatingAdd_of_le hinternal hvalue (by omega)
      have hexternalAfter : (entry.addPart (.received receipt)).receivedExternal =
          entry.receivedExternal := by
        simp [TxAggregate.addPart, addReceipt, hscope]
      have hinternalAfter : (entry.addPart (.received receipt)).receivedInternal =
          entry.receivedInternal + receipt.value := by
        simp [TxAggregate.addPart, addReceipt, hscope, hadd]
      refine ⟨by omega, by omega, ?_, hsends, hintent⟩
      rw [hexternalAfter, hinternalAfter, ← hsum, Int.add_assoc]
      rfl
    | external =>
      have hadd := i64SaturatingAdd_of_le hexternal hvalue (by omega)
      have hexternalAfter : (entry.addPart (.received receipt)).receivedExternal =
          entry.receivedExternal + receipt.value := by
        simp [TxAggregate.addPart, addReceipt, hscope, hadd]
      have hinternalAfter : (entry.addPart (.received receipt)).receivedInternal =
          entry.receivedInternal := by
        simp [TxAggregate.addPart, addReceipt, hscope]
      refine ⟨by omega, by omega, ?_, hsends, hintent⟩
      rw [hexternalAfter, hinternalAfter, ← hsum, Int.add_right_comm]
      rfl
  | spent value =>
    have hvalue : 0 ≤ value := hspends
    have hbound : sent + value ≤ i64Max := hsent
    have hzero : received + (HistoryPart.spent value).receives = received := Int.add_zero received
    rw [hzero]
    have hadd := i64SaturatingAdd_of_le (hsends ▸ hpos) hvalue (hsends ▸ hbound)
    refine ⟨hexternal, hinternal, hsum, ?_, hintent⟩
    show i64SaturatingAdd entry.sent value = sent + value
    rw [hadd, hsends]

theorem start_eq (part : HistoryPart) : ∃ height, part.start = (new height).addPart part := by
  cases part with
  | received receipt => exact ⟨receipt.height, rfl⟩
  | spent value => exact ⟨0, rfl⟩

/-- The net amount, where nothing saturates. -/
theorem Holds.netAmount (h : entry.Holds received sent) (hreceived : received ≤ i64Max)
    (hsent : sent ≤ i64Max) (hpos : 0 ≤ sent) : entry.netAmount = received - sent := by
  obtain ⟨hexternal, hinternal, hsum, hsends, -⟩ := h
  unfold TxAggregate.netAmount TxAggregate.totalReceived
  rw [i64SaturatingAdd_of_le hexternal hinternal (by omega), hsum,
    i64SaturatingSub_of_le (by omega) (by omega) hreceived (by omega), hsends]

/-- A transfer split by its change: the two amounts are the net amount and the fee apart. -/
theorem Holds.canSplit (h : entry.Holds received sent) (hreceived : received ≤ i64Max)
    (hsent : sent ≤ i64Max) (hpos : 0 ≤ sent) {splitTransfers : Bool} {fee : Nat}
    (hsplit : entry.canSplit splitTransfers fee = true) :
    -entry.outgoingAmount fee + entry.receivedExternal = entry.netAmount + fee := by
  rw [h.netAmount hreceived hsent hpos]
  obtain ⟨hexternal, hinternal, hsum, hsends, hintent⟩ := h
  have hpositive : 0 < entry.outgoingAmount fee := by
    unfold TxAggregate.canSplit at hsplit
    simp only [Bool.and_eq_true, decide_eq_true_eq] at hsplit
    exact hsplit.1.1.2
  unfold TxAggregate.outgoingAmount TxAggregate.chainOutgoingAmount i64SaturatingSub i64Min at *
  rw [hintent, Option.getD_none] at *
  unfold i64Max at *
  omega

end TxAggregate

section Entries

variable {parts : List (String × HistoryPart)} {entry : TxAggregate}

/-- The sums of some parts. -/
def partsReceived (parts : List (String × HistoryPart)) : Int :=
  (parts.map fun part => part.2.receives).sum

def partsSent (parts : List (String × HistoryPart)) : Int :=
  (parts.map fun part => part.2.sends).sum

/-- What some parts come to. -/
theorem sum_receives_sub_sends (parts : List (String × HistoryPart)) :
    (parts.map fun part => part.2.receives - part.2.sends).sum =
      partsReceived parts - partsSent parts := by
  induction parts with
  | nil => rfl
  | cons part rest ih =>
    unfold partsReceived partsSent at *
    simp only [List.map_cons, List.sum_cons]
    omega

theorem partsSent_nonneg (hcounts : ∀ part ∈ parts, part.2.Counts) : 0 ≤ partsSent parts :=
  List.sum_nonneg (List.forall_mem_map.mpr fun part hpart => (hcounts part hpart).2)

theorem partsReceived_nonneg (hcounts : ∀ part ∈ parts, part.2.Counts) : 0 ≤ partsReceived parts :=
  List.sum_nonneg (List.forall_mem_map.mpr fun part hpart => (hcounts part hpart).1)

/-- The entry of some parts holds their sums. -/
theorem holds_entryOf (hcounts : ∀ part ∈ parts, part.2.Counts)
    (hreceived : partsReceived parts ≤ i64Max) (hsent : partsSent parts ≤ i64Max)
    (hentry : entryOf parts = some entry) :
    entry.Holds (partsReceived parts) (partsSent parts) := by
  induction parts using List.reverseRecOn generalizing entry with
  | nil => cases hentry
  | append_singleton parts part ih =>
    have hpart := hcounts part (by simp)
    have hbefore : ∀ part ∈ parts, part.2.Counts := fun other hother =>
      hcounts other (List.mem_append_left _ hother)
    have hpos := partsSent_nonneg hbefore
    have happendReceived : partsReceived (parts ++ [part]) =
        partsReceived parts + part.2.receives := by
      simp [partsReceived]
    have happendSent : partsSent (parts ++ [part]) = partsSent parts + part.2.sends := by
      simp [partsSent]
    rw [happendReceived] at hreceived ⊢
    rw [happendSent] at hsent ⊢
    obtain ⟨hreceives, hsends⟩ := hpart
    unfold entryOf at hentry
    rw [KeyedFold.combine_concat] at hentry
    cases hold : entryOf parts with
    | none =>
      unfold entryOf at hold
      rw [hold] at hentry
      obtain rfl := Option.some.inj hentry
      have hnil : parts = [] := by
        cases parts with
        | nil => rfl
        | cons first rest => cases hold
      subst hnil
      obtain ⟨height, hstart⟩ := TxAggregate.start_eq part.2
      rw [Option.map_none, Option.getD_none, hstart]
      exact (TxAggregate.holds_new height).addPart ⟨hreceives, hsends⟩ hreceived hsent
        (Int.le_refl 0)
    | some old =>
      have hholds := ih hbefore (by omega) (by omega) hold
      unfold entryOf at hold
      rw [hold] at hentry
      obtain rfl := Option.some.inj hentry
      exact hholds.addPart ⟨hreceives, hsends⟩ hreceived hsent hpos

end Entries

/-! ## Rows with an output each -/

section Rows

variable {scopes : Int → Option AddressScope} {rows : List NoteRow}

/-- Rows of outputs that were not seen contribute on their own. -/
theorem historyParts_of_distinct (hnodup : (rows.map (·.outputKey)).Nodup)
    {seen : OutputKey → Option Bool} (hseen : ∀ row ∈ rows, seen row.outputKey = none) :
    historyParts scopes seen rows = rows.flatMap (rowParts scopes none) := by
  induction rows generalizing seen with
  | nil => rfl
  | cons row rest ih =>
    obtain ⟨hnew, hrest⟩ := List.nodup_cons.mp hnodup
    rw [historyParts, List.flatMap_cons, hseen row List.mem_cons_self, ih hrest]
    intro other hother
    rw [Function.update_of_ne, hseen other (List.mem_cons_of_mem _ hother)]
    intro heq
    exact hnew (List.mem_map.mpr ⟨other, hother, heq⟩)

/-- The spend of a row counts if its value does. -/
theorem counts_spentParts {note : NoteRow} (hvalue : 0 ≤ note.value) :
    ∀ part ∈ spentParts note, part.2.Counts := by
  intro part hpart
  unfold spentParts at hpart
  obtain ⟨txid, -, rfl⟩ := Option.map_eq_some_iff.mp (Option.mem_toList.mp hpart)
  exact ⟨Int.le_refl 0, hvalue⟩

theorem counts_rowParts {note : NoteRow} (hvalue : 0 ≤ note.value) (seen : Option Bool) :
    ∀ part ∈ rowParts scopes seen note, part.2.Counts := by
  intro part hpart
  have hspent := counts_spentParts hvalue
  cases seen with
  | none =>
    rcases List.mem_cons.mp hpart with rfl | hpart
    · exact ⟨hvalue, Int.le_refl 0⟩
    · cases hnote : note.spent <;> rw [hnote] at hpart
      · exact absurd hpart List.not_mem_nil
      · exact hspent part hpart
  | some prevSpent =>
    dsimp only [rowParts] at hpart
    by_cases hfirst : (note.spent && !prevSpent) = true
    · rw [if_pos hfirst] at hpart
      exact hspent part hpart
    · rw [if_neg hfirst] at hpart
      exact absurd hpart List.not_mem_nil

/-- What a row is worth to the account: its value, unless it is spent in a known transaction. -/
def NoteRow.keeps (note : NoteRow) : Bool := !(note.spent && note.spentTxid.isSome)

theorem partsReceived_rowParts (note : NoteRow) :
    partsReceived (rowParts scopes none note) = note.value := by
  unfold partsReceived rowParts spentParts
  cases note.spent <;> cases note.spentTxid <;> simp [HistoryPart.receives, NoteRow.receipt]

theorem partsSent_rowParts (note : NoteRow) :
    partsSent (rowParts scopes none note) = if note.keeps then 0 else note.value := by
  unfold partsSent rowParts spentParts NoteRow.keeps
  cases note.spent <;> cases note.spentTxid <;> simp [HistoryPart.sends]

theorem partsReceived_flatMap :
    partsReceived (rows.flatMap (rowParts scopes none)) = (rows.map (·.value)).sum := by
  induction rows with
  | nil => rfl
  | cons row rest ih =>
    have happend : partsReceived (rowParts scopes none row ++ rest.flatMap (rowParts scopes none)) =
        partsReceived (rowParts scopes none row) +
          partsReceived (rest.flatMap (rowParts scopes none)) := by
      simp [partsReceived]
    rw [List.flatMap_cons, happend, partsReceived_rowParts, ih, List.map_cons, List.sum_cons]

theorem partsSent_flatMap : partsSent (rows.flatMap (rowParts scopes none)) =
    ((rows.filter (fun row => !row.keeps)).map (·.value)).sum := by
  induction rows with
  | nil => rfl
  | cons row rest ih =>
    have happend : partsSent (rowParts scopes none row ++ rest.flatMap (rowParts scopes none)) =
        partsSent (rowParts scopes none row) +
          partsSent (rest.flatMap (rowParts scopes none)) := by
      simp [partsSent]
    rw [List.flatMap_cons, happend, partsSent_rowParts, ih]
    cases hkeeps : row.keeps <;> simp [hkeeps]

/-- The ids that parts go to. -/
theorem mem_parts_txid (txid : String) :
    (∃ part ∈ rows.flatMap (rowParts scopes none), part.1 = txid) ↔
      ∃ row ∈ rows, txidHexFromBytes row.txid = txid ∨
        (row.spent = true ∧ ∃ spentTxid, row.spentTxid = some spentTxid ∧
          txidHexFromBytes spentTxid = txid) := by
  constructor
  · rintro ⟨part, hpart, rfl⟩
    obtain ⟨row, hrow, hpart⟩ := List.mem_flatMap.mp hpart
    refine ⟨row, hrow, ?_⟩
    rcases List.mem_cons.mp hpart with rfl | hpart
    · exact Or.inl rfl
    · cases hspent : row.spent <;> rw [hspent] at hpart
      · exact absurd hpart List.not_mem_nil
      · obtain ⟨spentTxid, htxid, rfl⟩ :=
          Option.map_eq_some_iff.mp (Option.mem_toList.mp hpart)
        exact Or.inr ⟨rfl, spentTxid, htxid, rfl⟩
  · rintro ⟨row, hrow, rfl | ⟨hspent, spentTxid, htxid, rfl⟩⟩
    · exact ⟨_, List.mem_flatMap.mpr ⟨row, hrow, List.mem_cons_self⟩, rfl⟩
    · refine ⟨(txidHexFromBytes spentTxid, .spent row.value),
        List.mem_flatMap.mpr ⟨row, hrow, List.mem_cons_of_mem _ ?_⟩, rfl⟩
      rw [if_pos hspent]
      unfold spentParts
      rw [htxid]
      exact List.mem_singleton_self _

end Rows

/-! ## The list -/

namespace HistoryCall

/-- The call with transfers split or not. -/
def splitting (call : HistoryCall) (splitTransfers : Bool) : HistoryCall :=
  { call with splitTransfers := splitTransfers }

end HistoryCall

/-- What becomes of a record if transfers are split: a pair that adds up to its amount and its fee
if change came back, a pair that adds up to nothing if it is a transfer to oneself, else itself. -/
def SplitsAs (entry : TxAggregate) (record : TransactionRecord)
    (split : List TransactionRecord) : Prop :=
  if entry.canSplit true record.fee = true then
    split.length = 2 ∧ (split.map (·.amount)).sum = record.amount + record.fee
  else if entry.selfTransfer true = true then
    split.length = 2 ∧ (split.map (·.amount)).sum = 0
  else split = [record]

section List

variable {call : HistoryCall} {tables : HistoryTables} {rows : List NoteRow}

theorem TxAggregate.Holds.mined {entry : TxAggregate} {received sent : Int}
    (h : entry.Holds received sent) (best : Int) : (entry.mined best).Holds received sent := by
  obtain ⟨hexternal, hinternal, hreceived, hsent, hintent⟩ := h
  unfold TxAggregate.mined
  by_cases hbest : 0 < best
  · rw [if_pos hbest]
    exact ⟨hexternal, hinternal, hreceived, hsent, hintent⟩
  · rw [if_neg hbest]
    exact ⟨hexternal, hinternal, hreceived, hsent, hintent⟩

/-- The only record of an entry without an intent, where transfers are not split. -/
theorem recordsOf_whole {currentHeight : Nat} {txid : String} {entry : TxAggregate}
    {facts : TxFacts} (hintent : entry.intentAmount = none) :
    recordsOf currentHeight false txid entry facts =
      [sendRecordOf txid entry facts entry.netAmount false none] := by
  unfold recordsOf
  simp [TxAggregate.canSplit, TxAggregate.selfTransfer, hintent]

/-- The records of an entry without an intent, where transfers are split. -/
theorem splitsAs_recordsOf {currentHeight : Nat} {txid : String} {entry : TxAggregate}
    {facts : TxFacts} {received sent : Int} (hholds : entry.Holds received sent)
    (hreceived : received ≤ i64Max) (hsent : sent ≤ i64Max) (hpos : 0 ≤ sent) :
    SplitsAs entry (sendRecordOf txid entry facts entry.netAmount false none)
      (recordsOf currentHeight true txid entry facts) := by
  have hfee : (sendRecordOf txid entry facts entry.netAmount false none).fee =
      entry.fee facts.storedFee := rfl
  unfold SplitsAs recordsOf
  rw [hfee]
  dsimp only
  by_cases hsplit : entry.canSplit true (entry.fee facts.storedFee) = true
  · rw [if_pos hsplit, if_pos hsplit]
    refine ⟨rfl, ?_⟩
    have hpair := hholds.canSplit hreceived hsent hpos hsplit
    simpa [sendRecordOf, receiveRecordOf] using hpair
  · rw [if_neg hsplit, if_neg hsplit]
    by_cases hself : entry.selfTransfer true = true
    · rw [if_pos hself, if_pos hself]
      exact ⟨rfl, by simp [sendRecordOf, receiveRecordOf]⟩
    · rw [if_neg hself, if_neg hself, hholds.noIntent]
      rfl

theorem SplitsAs.perm {entry : TxAggregate} {record : TransactionRecord}
    {a b : List TransactionRecord} (h : SplitsAs entry record a) (hperm : b.Perm a) :
    SplitsAs entry record b := by
  unfold SplitsAs at h ⊢
  rw [hperm.length_eq, (hperm.map (·.amount)).sum_eq]
  by_cases hsplit : entry.canSplit true record.fee = true
  · rwa [if_pos hsplit] at h ⊢
  · rw [if_neg hsplit] at h ⊢
    by_cases hself : entry.selfTransfer true = true
    · rwa [if_pos hself] at h ⊢
    · rw [if_neg hself] at h ⊢
      rw [h] at hperm
      exact List.perm_singleton.mp hperm

theorem historyRows_pos {accountId : Int} :
    ∀ row ∈ historyRows accountId rows, 0 ≤ row.value := by
  intro row hrow
  obtain ⟨-, hvalid⟩ := Bool.and_eq_true_iff.mp (List.mem_filter.mp hrow).2
  unfold noteValueIsValid at hvalid
  simp only [Bool.and_eq_true, decide_eq_true_eq] at hvalid
  omega

/-- The parts of the rows, if each output has one. -/
def wholeParts (call : HistoryCall) (tables : HistoryTables) (rows : List NoteRow) :
    List (String × HistoryPart) :=
  (historyRows call.accountId rows).flatMap
    (rowParts (tables.addressScope call.accountId) none)

theorem counts_wholeParts : ∀ part ∈ wholeParts call tables rows, part.2.Counts := by
  intro part hpart
  obtain ⟨row, hrow, hin⟩ := List.mem_flatMap.mp hpart
  exact counts_rowParts (historyRows_pos row hrow) none part hin

variable (hdistinct : ((historyRows call.accountId rows).map (·.outputKey)).Nodup)
  (hfits : ((historyRows call.accountId rows).map (·.value)).sum ≤ i64Max)

include hdistinct in
theorem lookup_of_distinct (txid : String) :
    (readHistory (tables.addressScope call.accountId) call.accountId rows).txMap.lookup txid =
      entryOf ((wholeParts call tables rows).filter (fun part => decide (part.1 = txid))) := by
  rw [lookup_readHistory, historyParts_of_distinct hdistinct fun row _ => rfl]
  rfl

include hfits in
/-- No transaction moves more than the notes are worth. -/
theorem filter_parts_le (txid : String) :
    partsReceived ((wholeParts call tables rows).filter (fun part => decide (part.1 = txid))) ≤
        i64Max ∧
      partsSent ((wholeParts call tables rows).filter (fun part => decide (part.1 = txid))) ≤
        i64Max := by
  have hrest : ∀ part ∈ (wholeParts call tables rows).filter
      (fun part => !decide (part.1 = txid)), part.2.Counts := fun part hpart =>
    counts_wholeParts part (List.mem_of_mem_filter hpart)
  have hreceived := KeyedFold.sum_map_filter_add_not (f := fun part => part.2.receives)
    (fun part => decide (part.1 = txid)) (wholeParts call tables rows)
  have hsent := KeyedFold.sum_map_filter_add_not (f := fun part => part.2.sends)
    (fun part => decide (part.1 = txid)) (wholeParts call tables rows)
  have hreceivedRest := partsReceived_nonneg hrest
  have hsentRest := partsSent_nonneg hrest
  have htotal : partsReceived (wholeParts call tables rows) =
      ((historyRows call.accountId rows).map (·.value)).sum := partsReceived_flatMap
  have hspent : partsSent (wholeParts call tables rows) ≤
      ((historyRows call.accountId rows).map (·.value)).sum := by
    have hkept := KeyedFold.sum_map_filter_add_not (f := fun row : NoteRow => row.value)
      NoteRow.keeps (historyRows call.accountId rows)
    have hpos : 0 ≤ (((historyRows call.accountId rows).filter NoteRow.keeps).map (·.value)).sum :=
      List.sum_nonneg (List.forall_mem_map.mpr fun row hrow =>
        historyRows_pos row (List.mem_of_mem_filter hrow))
    have heq : partsSent (wholeParts call tables rows) = _ := partsSent_flatMap
    rw [heq]
    omega
  unfold partsReceived partsSent at *
  constructor
  · omega
  · omega

include hdistinct hfits in
theorem holds_of_lookup {txid : String} {entry : TxAggregate}
    (hlookup : (readHistory (tables.addressScope call.accountId) call.accountId
      rows).txMap.lookup txid = some entry) :
    entry.Holds
      (partsReceived ((wholeParts call tables rows).filter (fun part => decide (part.1 = txid))))
      (partsSent ((wholeParts call tables rows).filter (fun part => decide (part.1 = txid)))) := by
  rw [lookup_of_distinct hdistinct] at hlookup
  obtain ⟨hreceived, hsent⟩ := @filter_parts_le call tables rows hfits txid
  refine holds_entryOf (fun part hpart => ?_) hreceived hsent hlookup
  exact counts_wholeParts part (List.mem_of_mem_filter hpart)

include hdistinct hfits in
/-- The net amounts add up to what the rows keep. -/
theorem sum_netAmount :
    ((HistoryCall.entries (readHistory (tables.addressScope call.accountId) call.accountId
      rows).txMap).map (fun item => item.2.netAmount)).sum =
      (((historyRows call.accountId rows).filter NoteRow.keeps).map (·.value)).sum := by
  generalize hmap : (readHistory (tables.addressScope call.accountId) call.accountId
    rows).txMap = txMap
  have hnet : ∀ item ∈ HistoryCall.entries txMap, item.2.netAmount =
      (((wholeParts call tables rows).filter (fun part => decide (part.1 = item.1))).map
        (fun part => part.2.receives - part.2.sends)).sum := by
    intro item hitem
    have hlookup := HistoryCall.mem_entries.mp hitem
    rw [← hmap] at hlookup
    obtain ⟨hreceived, hsent⟩ := @filter_parts_le call tables rows hfits item.1
    have hpos : 0 ≤ partsSent ((wholeParts call tables rows).filter
        (fun part => decide (part.1 = item.1))) := partsSent_nonneg fun part hpart =>
      counts_wholeParts part (List.mem_of_mem_filter hpart)
    rw [(holds_of_lookup hdistinct hfits hlookup).netAmount hreceived hsent hpos,
      sum_receives_sub_sends]
  rw [List.map_congr_left hnet]
  have hkeys : (HistoryCall.entries txMap).map (fun item =>
      (((wholeParts call tables rows).filter (fun part => decide (part.1 = item.1))).map
        (fun part => part.2.receives - part.2.sends)).sum) =
      txMap.keys.map (fun txid =>
        (((wholeParts call tables rows).filter (fun part => decide (part.1 = txid))).map
          (fun part => part.2.receives - part.2.sends)).sum) := by
    rw [← HistoryCall.entries_fst, List.map_map]
    rfl
  rw [hkeys, KeyedFold.sum_map_filter_keys txMap.keys_nodup]
  · rw [sum_receives_sub_sends]
    have hreceived : partsReceived (wholeParts call tables rows) =
        ((historyRows call.accountId rows).map (·.value)).sum := partsReceived_flatMap
    have hsent : partsSent (wholeParts call tables rows) = _ := partsSent_flatMap
    have hkept := KeyedFold.sum_map_filter_add_not (f := fun row : NoteRow => row.value)
      NoteRow.keeps (historyRows call.accountId rows)
    rw [hreceived, hsent, ← hkept]
    omega
  · intro part hpart
    rw [← AList.mem_keys, ← AList.lookup_isSome, ← hmap, lookup_of_distinct hdistinct]
    have hin : part ∈ (wholeParts call tables rows).filter
        (fun other => decide (other.1 = part.1)) :=
      List.mem_filter.mpr ⟨hpart, decide_eq_true rfl⟩
    cases hparts : (wholeParts call tables rows).filter
        (fun other => decide (other.1 = part.1)) with
    | nil =>
      rw [hparts] at hin
      exact absurd hin List.not_mem_nil
    | cons first rest => rfl

/-- A row that keeps its value is unspent, or spent in no known transaction. -/
theorem sum_keeps (list : List NoteRow) :
    ((list.filter NoteRow.keeps).map (·.value)).sum =
      ((list.filter (fun row => !row.spent)).map (·.value)).sum +
        ((list.filter (fun row => row.spent && row.spentTxid.isNone)).map (·.value)).sum := by
  induction list with
  | nil => rfl
  | cons row rest ih =>
    cases hspent : row.spent <;> cases htxid : row.spentTxid <;>
      simp [NoteRow.keeps, hspent, htxid, ih] <;> omega

end List

section Main

variable {call : HistoryCall} {tables : HistoryTables} {rows : List NoteRow}

/-- The whole list, but for its order. -/
theorem listTransactionRecords_perm (records : List TransactionRecord) :
    (listTransactionRecords none records).Perm records := KeyedFold.listBy_perm_self records

/-- Without intents the map is that of the notes. -/
theorem getTransactions_of_noIntents (hintents : tables.intents = []) (hlimit : call.limit = none) :
    call.getTransactionsWithOptions tables rows =
      .ok (listTransactionRecords none ((call.iteration.order (HistoryCall.entries (readHistory
        (tables.addressScope call.accountId) call.accountId rows).txMap)).flatMap
          (call.entryRecords tables))) := by
  unfold HistoryCall.getTransactionsWithOptions HistoryCall.txMap
  rw [hintents, hlimit]
  rfl

/-- **The history adds up** to the notes that are unspent or spent in no known transaction, one
record for each transaction that received or spent a note; what becomes of a record where transfers
are split. -/
theorem history_sums (hintents : tables.intents = []) (hlimit : call.limit = none)
    (hdistinct : ((historyRows call.accountId rows).map (·.outputKey)).Nodup)
    (hfits : ((historyRows call.accountId rows).map (·.value)).sum ≤ i64Max) :
    ∃ whole split,
      (call.splitting false).getTransactionsWithOptions tables rows = .ok whole ∧
      (call.splitting true).getTransactionsWithOptions tables rows = .ok split ∧
      (whole.map (·.txid)).Nodup ∧
      (∀ txid, txid ∈ whole.map (·.txid) ↔ ∃ row ∈ historyRows call.accountId rows,
        txidHexFromBytes row.txid = txid ∨ (row.spent = true ∧ ∃ spentTxid,
          row.spentTxid = some spentTxid ∧ txidHexFromBytes spentTxid = txid)) ∧
      (whole.map (·.amount)).sum =
        (((historyRows call.accountId rows).filter (fun row => !row.spent)).map (·.value)).sum +
          (((historyRows call.accountId rows).filter
            (fun row => row.spent && row.spentTxid.isNone)).map (·.value)).sum ∧
      ∀ record ∈ whole, ∃ entry,
        (readHistory (tables.addressScope call.accountId) call.accountId rows).txMap.lookup
          record.txid = some entry ∧
        SplitsAs (entry.mined (tables.bestHeight record.txid)) record
          (split.filter (fun other => decide (other.txid = record.txid))) := by
  refine ⟨_, _, getTransactions_of_noIntents hintents hlimit,
    getTransactions_of_noIntents hintents hlimit, ?_⟩
  have hcall : ∀ splitTransfers, (call.splitting splitTransfers).accountId = call.accountId ∧
      (call.splitting splitTransfers).iteration = call.iteration := fun _ => ⟨rfl, rfl⟩
  simp only [(hcall _).1, (hcall _).2]
  generalize hmap : (readHistory (tables.addressScope call.accountId) call.accountId
    rows).txMap = txMap
  have horder := call.iteration.perm (HistoryCall.entries txMap)
  generalize hitems : call.iteration.order (HistoryCall.entries txMap) = items at horder
  have hfst : (items.map Prod.fst).Perm txMap.keys := by
    rw [← HistoryCall.entries_fst]
    exact horder.map _
  have hnodup : (items.map Prod.fst).Nodup := hfst.nodup_iff.mpr txMap.keys_nodup
  have hlookup : ∀ item ∈ items, txMap.lookup item.1 = some item.2 := fun item hitem =>
    HistoryCall.mem_entries.mp (horder.mem_iff.mp hitem)
  have hholds : ∀ item ∈ items, ∃ received sent, item.2.Holds received sent ∧
      received ≤ i64Max ∧ sent ≤ i64Max ∧ 0 ≤ sent := by
    intro item hitem
    obtain ⟨hreceived, hsent⟩ := @filter_parts_le call tables rows hfits item.1
    refine ⟨_, _, holds_of_lookup hdistinct hfits (hmap ▸ hlookup item hitem), hreceived, hsent,
      partsSent_nonneg fun part hpart => counts_wholeParts part (List.mem_of_mem_filter hpart)⟩
  have hwhole : ∀ item ∈ items, (call.splitting false).entryRecords tables item =
      [sendRecordOf item.1 (item.2.mined (tables.bestHeight item.1))
        (tables.facts call.now item.1 (item.2.mined (tables.bestHeight item.1)))
        (item.2.mined (tables.bestHeight item.1)).netAmount false none] := by
    intro item hitem
    obtain ⟨received, sent, hitemHolds, -⟩ := hholds item hitem
    exact recordsOf_whole (hitemHolds.mined _).noIntent
  have hlist : items.flatMap ((call.splitting false).entryRecords tables) = items.map fun item =>
      sendRecordOf item.1 (item.2.mined (tables.bestHeight item.1))
        (tables.facts call.now item.1 (item.2.mined (tables.bestHeight item.1)))
        (item.2.mined (tables.bestHeight item.1)).netAmount false none := by
    rw [List.map_eq_flatMap]
    exact List.flatMap_congr hwhole
  have hperm := listTransactionRecords_perm
    (items.flatMap ((call.splitting false).entryRecords tables))
  rw [hlist] at hperm ⊢
  have htxids := hperm.map (·.txid)
  rw [List.map_map] at htxids
  have hsame : (TransactionRecord.txid ∘ fun item : String × TxAggregate =>
      sendRecordOf item.1 (item.2.mined (tables.bestHeight item.1))
        (tables.facts call.now item.1 (item.2.mined (tables.bestHeight item.1)))
        (item.2.mined (tables.bestHeight item.1)).netAmount false none) = Prod.fst := rfl
  rw [hsame] at htxids
  refine ⟨htxids.nodup_iff.mpr hnodup, fun txid => ?_, ?_, fun record hrecord => ?_⟩
  · rw [(htxids.trans hfst).mem_iff, ← AList.mem_keys, ← AList.lookup_isSome, ← hmap,
      lookup_of_distinct hdistinct, ← mem_parts_txid]
    cases hparts : (wholeParts call tables rows).filter (fun part => decide (part.1 = txid)) with
    | nil =>
      rw [List.filter_eq_nil_iff] at hparts
      constructor
      · intro hsome
        cases hsome
      · rintro ⟨part, hpart, heq⟩
        exact absurd (decide_eq_true heq) (hparts part hpart)
    | cons first rest =>
      have hfirst : first ∈ (wholeParts call tables rows).filter
          (fun part => decide (part.1 = txid)) := hparts ▸ List.mem_cons_self
      obtain ⟨hin, heq⟩ := List.mem_filter.mp hfirst
      exact ⟨fun _ => ⟨first, hin, of_decide_eq_true heq⟩, fun _ => rfl⟩
  · rw [(hperm.map (·.amount)).sum_eq, List.map_map, ← sum_keeps,
      ← sum_netAmount hdistinct hfits, hmap, ← (horder.map fun item => item.2.netAmount).sum_eq]
    refine congrArg List.sum (List.map_congr_left fun item hitem => ?_)
    obtain ⟨received, sent, hitemHolds, hreceived, hsent, hpos⟩ := hholds item hitem
    show (item.2.mined (tables.bestHeight item.1)).netAmount = item.2.netAmount
    rw [(hitemHolds.mined _).netAmount hreceived hsent hpos,
      hitemHolds.netAmount hreceived hsent hpos]
  · obtain ⟨item, hitem, rfl⟩ := List.mem_map.mp (hperm.mem_iff.mp hrecord)
    refine ⟨item.2, hlookup item hitem, ?_⟩
    obtain ⟨received, sent, hitemHolds, hreceived, hsent, hpos⟩ := hholds item hitem
    have hpair := (listTransactionRecords_perm
      (items.flatMap ((call.splitting true).entryRecords tables))).filter
        (fun other => decide (other.txid = item.1))
    rw [HistoryCall.filter_entryRecords hnodup hitem] at hpair
    exact (splitsAs_recordsOf (hitemHolds.mined _) hreceived hsent hpos).perm hpair

/-! ## A transfer to oneself -/

/-- A note of 115000 that was spent, and one of 100000 that the spending transaction paid to an
address of the account. -/
def sweptRows : List NoteRow :=
  [{ id := 1, accountId := 1, keyId := none, noteType := .sapling, value := 115000,
     nullifier := [], commitment := [], spent := true, height := 5, txid := [1], outputIndex := 0,
     addressId := some 1, spentTxid := some [2], diversifier := none, note := none,
     position := none, memo := none },
   { id := 2, accountId := 1, keyId := none, noteType := .sapling, value := 100000,
     nullifier := [], commitment := [], spent := false, height := 9, txid := [2], outputIndex := 0,
     addressId := some 1, spentTxid := none, diversifier := none, note := none,
     position := none, memo := none }]

/-- The account's address. -/
def sweptAddress : AddressRow where
  id := 1
  accountId := 1
  keyId := none
  diversifierIndex := 0
  address := "zs1"
  addressType := .sapling
  label := none
  createdAt := 0
  colorTag := 0
  addressScope := .external
  diversifierIndexBe := none

/-- Neither intents nor stored transactions. -/
def sweptTables : HistoryTables where
  addresses := [sweptAddress]
  intents := []
  transactions := []
  memos := []

def sweptCall : HistoryCall where
  accountId := 1
  limit := none
  currentHeight := 10
  splitTransfers := false
  now := fun _ => 7
  iteration := ⟨id, fun _ => List.Perm.refl _⟩

/-- What the account lost by the transfer is 15000, of which the history infers 10000 as the fee;
the two records of the split transfer add up to nothing, not to 5000 less. A note of no value has no
record. -/
theorem swept_pair :
    (((sweptCall.splitting false).getTransactionsWithOptions sweptTables sweptRows).map
      (fun list => list.map fun record => (record.txid, record.amount, record.fee)) =
        .ok [("02", -15000, 10000), ("01", 115000, 0)]) ∧
    (((sweptCall.splitting true).getTransactionsWithOptions sweptTables sweptRows).map
      (fun list => list.map fun record => (record.txid, record.amount, record.fee)) =
        .ok [("02", 100000, 0), ("02", -100000, 10000), ("01", 115000, 0)]) ∧
    (100000 : Int) + -100000 ≠ -15000 + 10000 ∧
    (sweptCall.splitting false).getTransactionsWithOptions sweptTables
      [{ sweptRows.head (by decide) with value := 0 }] = .ok [] := by
  decide +kernel

/-- The history of the swept note. -/
theorem history_sums_swept :
    ∃ whole split,
      (sweptCall.splitting false).getTransactionsWithOptions sweptTables sweptRows = .ok whole ∧
      (sweptCall.splitting true).getTransactionsWithOptions sweptTables sweptRows = .ok split ∧
      (whole.map (·.amount)).sum = 100000 := by
  obtain ⟨whole, split, hwhole, hsplit, -, -, hsum, -⟩ :=
    @history_sums sweptCall sweptTables sweptRows rfl rfl (by decide +kernel) (by decide +kernel)
  refine ⟨whole, split, hwhole, hsplit, hsum.trans ?_⟩
  decide +kernel

end Main

end StashiWallet
