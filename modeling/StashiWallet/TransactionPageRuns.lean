import StashiWallet.TransactionPages

/-!
# What a reader of pages sees

On a history that stays as it is, a reader gets every entry once as long as each cursor is found
first at its own entry (`followPages_iff`). Between two pages the history can change: entries come
in, and the entry of the cursor can go or change its state. Whether the next page then leaves out
nothing that was still to come, and repeats nothing, depends on where the cursor's entry is now, or,
if it is gone, on whether an entry is left that comes after it (`GapMeets`).
-/

namespace StashiWallet

namespace TxInfo

/-- The group of an entry: pending, confirmed, expired. -/
def group (tx : TxInfo) : Nat :=
  if tx.height.isSome then 1 else if tx.expired then 2 else 0

/-- The entry can stand before the other one. -/
def Listed (a b : TxInfo) : Prop :=
  a.group < b.group ∨
    (a.group = b.group ∧ (a.group = 1 → (compareCursor a.cursor b).isGE = true))

end TxInfo

/-- The list is one of records as they are ordered. -/
def IsHistory (transactions : List TxInfo) : Prop :=
  ∃ (currentHeight : Nat) (decodeMemo : Bytes → Option String) (records : List TransactionRecord),
    records.Pairwise (fun a b => (compareTransactions a b).isLE = true) ∧
    (∀ tx ∈ records, tx.Settled ∧ tx.height ≤ u32Max) ∧
    transactions = records.map (TransactionRecord.txInfo currentHeight decodeMemo)

/-! ## The order of a history -/

section Order

variable {currentHeight : Nat} {decodeMemo : Bytes → Option String}

theorem group_txInfo {tx : TransactionRecord} (h : tx.Settled) :
    (tx.txInfo currentHeight decodeMemo).group = tx.group := by
  unfold TxInfo.group TransactionRecord.txInfo
  rcases group_cases h with ⟨hgroup, -, hexpired, hheight⟩ | ⟨hgroup, -, hexpired, hheight⟩ |
    ⟨hgroup, -, hexpired, hheight⟩
  · simp [hgroup, hexpired, not_lt.mpr hheight]
  · simp [hgroup, hheight]
  · simp [hgroup, hexpired, not_lt.mpr hheight]

/-- Confirmed entries stand as a cursor compares them. -/
theorem compareCursor_txInfo {a b : TransactionRecord} (ha : a.Settled) (hb : b.Settled)
    (hfitsA : a.height ≤ u32Max) (hfitsB : b.height ≤ u32Max) (hgroupA : a.group = 1)
    (hgroupB : b.group = 1) :
    compareCursor (a.txInfo currentHeight decodeMemo).cursor (b.txInfo currentHeight decodeMemo) =
      compareTransactions b a := by
  have hheights : 0 < a.height ∧ 0 < b.height := by
    rcases group_cases ha with ⟨h, -⟩ | ⟨-, -, -, hpos⟩ | ⟨h, -⟩
    · omega
    · rcases group_cases hb with ⟨h, -⟩ | ⟨-, -, -, hpos'⟩ | ⟨h, -⟩
      · omega
      · exact ⟨hpos, hpos'⟩
      · omega
    · omega
  unfold u32Max at hfitsA hfitsB
  have hcompare : compare (some (a.height % 4294967296).toNat)
      (some (b.height % 4294967296).toNat) = compare a.height b.height := by
    show compare (a.height % 4294967296).toNat (b.height % 4294967296).toNat = _
    rcases lt_trichotomy a.height b.height with hlt | heq | hgt
    · rw [Std.compare_eq_lt.mpr hlt]
      exact Std.compare_eq_lt.mpr (by omega)
    · rw [heq]
      have hself : ∀ height : Nat, compare height height = .eq := fun _ => Std.ReflCmp.compare_self
      rw [hself]
      exact Std.ReflCmp.compare_self.symm
    · rw [Std.compare_eq_gt.mpr hgt]
      exact Std.compare_eq_gt.mpr (by omega)
  rw [compareTransactions_eq hb ha]
  unfold orderTransactions compareLex KeyedFold.ascending KeyedFold.descending
    TransactionRecord.moment compareCursor TxInfo.cursor TransactionRecord.txInfo
  simp only [hgroupA, hgroupB, if_pos hheights.1, if_pos hheights.2, hcompare, if_true]
  rfl

theorem IsHistory.listed {transactions : List TxInfo} (h : IsHistory transactions) :
    transactions.Pairwise TxInfo.Listed := by
  obtain ⟨currentHeight, decodeMemo, records, hsorted, hrecords, rfl⟩ := h
  rw [List.pairwise_map]
  refine hsorted.imp_of_mem fun {a b} ha hb hle => ?_
  obtain ⟨hsettledA, hfitsA⟩ := hrecords a ha
  obtain ⟨hsettledB, hfitsB⟩ := hrecords b hb
  unfold TxInfo.Listed
  rw [group_txInfo hsettledA, group_txInfo hsettledB]
  have hgroups : a.group ≤ b.group := by
    by_contra hgt
    have hcompare : compare a.group b.group = .gt := Std.compare_eq_gt.mpr (not_le.mp hgt)
    rw [compareTransactions_eq hsettledA hsettledB] at hle
    unfold orderTransactions compareLex KeyedFold.ascending at hle
    rw [hcompare] at hle
    cases hle
  rcases Nat.lt_or_ge a.group b.group with hlt | hge
  · exact Or.inl hlt
  · refine Or.inr ⟨by omega, fun hgroup => ?_⟩
    rw [compareCursor_txInfo hsettledA hsettledB hfitsA hfitsB hgroup (by omega)]
    rw [compareTransactions_eq hsettledA hsettledB] at hle
    rw [compareTransactions_eq hsettledB hsettledA]
    exact Std.OrientedCmp.isGE_of_isLE hle

end Order

/-- Heights, ids and amounts as a cursor compares them. -/
def orderCursors : TxInfo → TxInfo → Ordering :=
  compareLex (KeyedFold.ascending (·.height)) <|
  compareLex (KeyedFold.ascending (·.txid)) (KeyedFold.ascending (·.amount))

instance : Std.TransCmp orderCursors := inferInstanceAs (Std.TransCmp (compareLex _ _))

theorem compareCursor_eq (a b : TxInfo) : compareCursor a.cursor b = orderCursors a b := rfl

/-- A cursor that compares equal is found. -/
theorem matches_of_compare {a b : TxInfo} (h : compareCursor a.cursor b = .eq) :
    transactionMatchesCursor a.cursor b = true := by
  unfold compareCursor at h
  rw [Ordering.then_eq_eq, Ordering.then_eq_eq] at h
  unfold transactionMatchesCursor
  rw [Std.LawfulEqOrd.eq_of_compare h.2.1, Std.LawfulEqOrd.eq_of_compare h.2.2]
  simp

theorem listed_self (tx : TxInfo) : tx.Listed tx := by
  have hself : orderCursors tx tx = .eq := Std.ReflCmp.compare_self
  refine Or.inr ⟨rfl, fun _ => ?_⟩
  rw [compareCursor_eq, hself]
  rfl

theorem group_eq_one {tx : TxInfo} : tx.group = 1 ↔ tx.height.isSome = true := by
  unfold TxInfo.group
  by_cases hheight : tx.height.isSome = true
  · rw [if_pos hheight]
    exact ⟨fun _ => hheight, fun _ => rfl⟩
  · rw [if_neg hheight]
    refine ⟨fun h => ?_, fun h => absurd h hheight⟩
    split at h <;> omega

/-- What comes after a cursor. -/
theorem after_iff {last tx : TxInfo} : transactionIsAfterCursor last.cursor tx = true ↔
    tx.group = 1 ∧ (last.group = 1 → (orderCursors last tx).isGT = true) := by
  rw [group_eq_one, group_eq_one, ← compareCursor_eq]
  unfold transactionIsAfterCursor
  have hcursor : last.cursor.height = last.height := rfl
  rw [hcursor]
  cases last.height with
  | none => cases tx.height <;> simp
  | some height => cases tx.height <;> simp

/-! ## A history that stays -/

/-- Where the page after a cursor starts. -/
def pageStart (transactions : List TxInfo) (cursor : Option TransactionCursor) : Nat :=
  CursorPages.startAt transactionMatchesCursor transactionIsAfterCursor transactions cursor

theorem paginate_eq (transactions : List TxInfo) (cursor : Option TransactionCursor) (size : Nat) :
    paginateTransactionSnapshot transactions cursor size =
      ⟨(CursorPages.pageAt transactionMatchesCursor transactionIsAfterCursor TxInfo.cursor
        transactions cursor size).1,
      (CursorPages.pageAt transactionMatchesCursor transactionIsAfterCursor TxInfo.cursor
        transactions cursor size).2⟩ := by
  cases cursor <;> rfl

theorem matches_self (tx : TxInfo) : transactionMatchesCursor tx.cursor tx = true := by
  simp [transactionMatchesCursor, TxInfo.cursor]

namespace TransactionLists

variable {lists after : TransactionLists} {snapshot : List TxInfo} {pageSize : Nat}

/-- The list a page is taken from stays cached; only an empty one need not be. -/
theorem pageSnapshot_again {cursor : Option TransactionCursor}
    (h : lists.pageSnapshot cursor = .ok (snapshot, after)) (next : TransactionCursor)
    (hmore : snapshot ≠ []) : after.pageSnapshot (some next) = .ok (snapshot, after) := by
  have hcomplete : after.getCompleteTransactionSnapshot = some snapshot := by
    unfold pageSnapshot at h
    cases hcached : (if cursor.isSome then lists.getCompleteTransactionSnapshot else none) with
    | some cached =>
      rw [hcached] at h
      obtain ⟨rfl, rfl⟩ := Prod.mk.inj (Except.ok.inj h)
      cases cursor with
      | none => cases hcached
      | some cursor => exact hcached
    | none =>
      rw [hcached] at h
      dsimp only at h
      cases hlist : lists.listTransactions none with
      | error e =>
        rw [hlist] at h
        cases h
      | ok listed =>
        obtain ⟨transactions, written⟩ := listed
        rw [hlist] at h
        obtain ⟨hsnapshot, rfl⟩ := Prod.mk.inj (Except.ok.inj h)
        cases hwritten : written.getCompleteTransactionSnapshot with
        | some complete =>
          rw [hwritten] at hsnapshot
          exact congrArg some hsnapshot
        | none =>
          exfalso
          rw [hwritten] at hsnapshot
          obtain rfl : transactions = snapshot := hsnapshot
          unfold listTransactions at hlist
          cases hdecoy : lists.decoy with
          | true =>
            rw [hdecoy, if_pos rfl] at hlist
            exact hmore (Prod.mk.inj (Except.ok.inj hlist)).1.symm
          | false =>
            rw [hdecoy, if_neg Bool.false_ne_true] at hlist
            cases hread : (if lists.suppressLiveReads then lists.getCachedTransactions none
                else none) with
            | some cached =>
              rw [hread] at hlist
              obtain ⟨rfl, rfl⟩ := Prod.mk.inj (Except.ok.inj hlist)
              by_cases hsuppress : lists.suppressLiveReads = true
              · rw [if_pos hsuppress] at hread
                unfold getCachedTransactions at hread
                unfold getCompleteTransactionSnapshot at hwritten
                cases hentry : lists.cached with
                | none =>
                  rw [hentry] at hread
                  cases hread
                | some entry =>
                  rw [hentry] at hread hwritten
                  cases hflag : entry.complete <;> simp [hflag] at hread hwritten
              · rw [if_neg hsuppress] at hread
                cases hread
            | none =>
              rw [hread] at hlist
              cases hhistory : lists.history with
              | error e =>
                rw [hhistory] at hlist
                cases hlist
              | ok history =>
                rw [hhistory] at hlist
                obtain ⟨-, rfl⟩ := Prod.mk.inj (Except.ok.inj hlist)
                cases hwritten
  unfold pageSnapshot
  rw [Option.isSome_some, if_pos rfl, hcomplete]

theorem listTransactionsPage_ok (hsize : 0 < pageSize) (hmax : pageSize ≤ 200)
    {cursor : Option TransactionCursor} (h : lists.pageSnapshot cursor = .ok (snapshot, after)) :
    lists.listTransactionsPage cursor pageSize =
      .ok (paginateTransactionSnapshot snapshot cursor pageSize, after) := by
  unfold listTransactionsPage
  have hvalid : ¬ (pageSize = 0 ∨ MAX_TRANSACTION_PAGE_SIZE < pageSize) := by
    unfold MAX_TRANSACTION_PAGE_SIZE
    omega
  rw [if_neg hvalid, h]

/-- The pages of lists nobody else uses are those of the list the first one is taken from. -/
theorem followPages_eq (hsize : 0 < pageSize) (hmax : pageSize ≤ 200) {fuel : Nat}
    {cursor : Option TransactionCursor} (h : lists.pageSnapshot cursor = .ok (snapshot, after)) :
    followPages pageSize fuel lists cursor =
      .ok (CursorPages.follow transactionMatchesCursor transactionIsAfterCursor TxInfo.cursor
        snapshot pageSize fuel cursor) := by
  induction fuel generalizing lists cursor with
  | zero => rfl
  | succ fuel ih =>
    rw [followPages, listTransactionsPage_ok hsize hmax h, CursorPages.follow, paginate_eq]
    dsimp only
    cases hpage : CursorPages.pageAt transactionMatchesCursor transactionIsAfterCursor
        TxInfo.cursor snapshot cursor pageSize with
    | mk page next =>
      cases next with
      | none => rfl
      | some next =>
        dsimp only
        have hmore : snapshot ≠ [] := by
          rintro rfl
          unfold CursorPages.pageAt at hpage
          simp at hpage
        rw [ih (pageSnapshot_again h next hmore)]
        rfl

/-- **A reader of a history that stays** gets it, exactly if each cursor is found first at its own
entry. -/
theorem followPages_iff (hsize : 0 < pageSize) (hmax : pageSize ≤ 200)
    (h : lists.pageSnapshot none = .ok (snapshot, after)) :
    (∃ fuel, followPages pageSize fuel lists none = .ok (some snapshot)) ↔
      CursorPages.Distinguishes transactionMatchesCursor TxInfo.cursor snapshot pageSize := by
  rw [← @CursorPages.follow_iff _ _ transactionMatchesCursor transactionIsAfterCursor
    TxInfo.cursor snapshot matches_self pageSize hsize]
  refine exists_congr fun fuel => ?_
  rw [followPages_eq hsize hmax h]
  exact ⟨Except.ok.inj, congrArg Except.ok⟩

end TransactionLists

end StashiWallet
