import StashiWallet.RollbackContract

/-!
# Two rollbacks

The second of two rollbacks, to a height at or below the first, leaves what it would have left
without the first. Ciphertexts are compared by what they decrypt to: the two ways unspend a note
with different nonces.
-/

namespace StashiWallet

open ShardStore (BlockHeight)

/-- The same note, up to the nonce of its `spent` cell. -/
def SameStoredNote (decrypt : Bytes → Except String Bytes) (a b : EncryptedNote Cell) : Prop :=
  a = b ∨ ∃ encrypted encrypted' message, a.spent = .blob encrypted ∧
    decrypt encrypted = .ok message ∧ decrypt encrypted' = .ok message ∧
      { a with spent := .blob encrypted' } = b

/-- The same wallet, up to nonces and the `updated_at` columns. -/
structure SameWallet (decrypt : Bytes → Except String Bytes) (a b : StoredWallet) : Prop where
  notes : List.Forall₂ (SameStoredNote decrypt) a.notes.rows b.notes.rows
  notesNext : a.notes.nextId = b.notes.nextId
  rest : { a with
    notes := b.notes
    syncState := { a.syncState with updatedAt := b.syncState.updatedAt }
    spendabilityState :=
      { a.spendabilityState with updatedAt := b.spendabilityState.updatedAt } } = b

/-- Encryption succeeds, and decryption undoes it. -/
def Encrypts (encrypt decrypt : Bytes → Except String Bytes) : Prop :=
  ∀ message, ∃ encrypted, encrypt message = .ok encrypted ∧ decrypt encrypted = .ok message

theorem decrypts {encrypt decrypt : Bytes → Except String Bytes} (h : Encrypts encrypt decrypt)
    (message encrypted : Bytes) (hencrypted : encrypt message = .ok encrypted) :
    decrypt encrypted = .ok message := by
  obtain ⟨other, hother, hdecrypted⟩ := h message
  obtain rfl := Except.ok.inj (hencrypted.symm.trans hother)
  exact hdecrypted

section Existence

variable {encrypt decrypt : Bytes → Except String Bytes}
  {truncateSapling truncateOrchard : TruncateTree} {now : String} {height : Nat} {db : StoredWallet}

/-- A rollback succeeds where the cells open and the trees can be cut. -/
theorem truncateStored_of_opens (hfits : height + 1 ≤ i64Max) (hopens : db.Opens decrypt height)
    {encryptedUnspent : Bytes} (hencrypt : encrypt [0] = .ok encryptedUnspent)
    {saplingTree orchardTree : TreeTables}
    (hsapling : rewindTables truncateSapling "Sapling"
      (commonTreeCheckpoint db.saplingTree db.orchardTree height) db.saplingTree = .ok saplingTree)
    (horchard : rewindTables truncateOrchard "Orchard"
      (commonTreeCheckpoint db.saplingTree db.orchardTree height) db.orchardTree = .ok orchardTree) :
    ∃ returned after, truncateStored encrypt decrypt truncateSapling truncateOrchard now height db =
      .ok (returned, after) := by
  have hcut : heightToSqlI64 height = .ok height := if_pos (by omega)
  have hnext : saturatingAdd height 1 = height + 1 := by
    unfold saturatingAdd u64Max i64Max at *
    omega
  have hqueueEnd : heightToSqlI64 (height + 1) = .ok (height + 1) := if_pos hfits
  obtain ⟨notes, hnotes⟩ := resetNotesSpentBy_of_readable hencrypt (fun hne => (hopens.spends hne).1)
  obtain ⟨unlinked, hunlinked⟩ :=
    deleteUnlinkedSpendsBy_of_readable (fun hne => (hopens.spends hne).2)
  obtain ⟨-, -, encryptedUnspent', -, hrows⟩ := resetNotesSpentBy_eq_ok hnotes
  obtain ⟨scanned, hscanned⟩ := @scanNotes_of_readable decrypt height notes.rows (by
    intro row hrow
    rw [hrows] at hrow
    obtain ⟨old, hold, rfl⟩ := List.mem_map.mp hrow
    split
    · exact (scan_unspend encryptedUnspent' old height).2.2.mpr (hopens.notes old hold)
    · exact hopens.notes old hold)
  unfold truncateStored
  rw [hcut, hnext, hqueueEnd]
  show ∃ returned after, (resetNotesSpentBy _ _ _ _ >>= _) = _
  rw [hnotes]
  show ∃ returned after, (deleteUnlinkedSpendsBy _ _ _ >>= _) = _
  rw [hunlinked]
  show ∃ returned after, (scanNotes _ _ _ >>= _) = _
  rw [hscanned]
  show ∃ returned after, (rewindTables _ _ _ _ >>= _) = _
  rw [hsapling]
  show ∃ returned after, (rewindTables _ _ _ _ >>= _) = _
  rw [horchard]
  exact ⟨_, _, rfl⟩

end Existence

/-! ## What the second rollback finds -/

section Second

variable {decrypt : Bytes → Except String Bytes} {lower upper : Nat}

variable (hle : lower ≤ upper)

include hle

/-- The ids removed by the lower rollback are those of the upper one and those between. -/
theorem mem_removedTxids {transactions : List TransactionRow} {txid : Bytes} :
    txid ∈ collectTransactionTxidsAboveHeight transactions lower ↔
      txid ∈ collectTransactionTxidsAboveHeight transactions upper ∨
        txid ∈ collectTransactionTxidsAboveHeight
          (transactions.filter fun tx => !decide (tx.height > (upper : Int))) lower := by
  unfold collectTransactionTxidsAboveHeight
  simp only [List.mem_flatMap, List.mem_filter, decide_eq_true_eq, Bool.not_eq_true',
    decide_eq_false_iff_not]
  constructor
  · rintro ⟨tx, ⟨htx, habove⟩, hcandidate⟩
    by_cases hupper : tx.height > (upper : Int)
    · exact Or.inl ⟨tx, ⟨htx, hupper⟩, hcandidate⟩
    · exact Or.inr ⟨tx, ⟨⟨htx, hupper⟩, habove⟩, hcandidate⟩
  · rintro (⟨tx, ⟨htx, habove⟩, hcandidate⟩ | ⟨tx, ⟨⟨htx, -⟩, habove⟩, hcandidate⟩)
    · exact ⟨tx, ⟨htx, by omega⟩, hcandidate⟩
    · exact ⟨tx, ⟨htx, habove⟩, hcandidate⟩

theorem exists_removedTxid (transactions : List TransactionRow) (p : Bytes → Prop) :
    (∃ txid ∈ collectTransactionTxidsAboveHeight transactions lower, p txid) ↔
      (∃ txid ∈ collectTransactionTxidsAboveHeight transactions upper, p txid) ∨
        ∃ txid ∈ collectTransactionTxidsAboveHeight
          (transactions.filter fun tx => !decide (tx.height > (upper : Int))) lower, p txid := by
  constructor
  · rintro ⟨txid, hmem, hp⟩
    rcases (mem_removedTxids hle).mp hmem with hremoved | hbetween
    · exact Or.inl ⟨txid, hremoved, hp⟩
    · exact Or.inr ⟨txid, hbetween, hp⟩
  · rintro (⟨txid, hmem, hp⟩ | ⟨txid, hmem, hp⟩)
    · exact ⟨txid, (mem_removedTxids hle).mpr (Or.inl hmem), hp⟩
    · exact ⟨txid, (mem_removedTxids hle).mpr (Or.inr hmem), hp⟩

theorem note_spentBy_or (transactions : List TransactionRow) (row : EncryptedNote Cell) :
    row.spentBy decrypt (collectTransactionTxidsAboveHeight transactions lower) =
      (row.spentBy decrypt (collectTransactionTxidsAboveHeight transactions upper) ||
        row.spentBy decrypt (collectTransactionTxidsAboveHeight
          (transactions.filter fun tx => !decide (tx.height > (upper : Int))) lower)) := by
  rw [Bool.eq_iff_iff, Bool.or_eq_true]
  rw [EncryptedNote.spentBy_iff, EncryptedNote.spentBy_iff, EncryptedNote.spentBy_iff]
  exact exists_removedTxid hle transactions _

theorem unlinked_spentBy_or (transactions : List TransactionRow) (row : EncryptedUnlinkedSpend Cell) :
    row.spentBy decrypt (collectTransactionTxidsAboveHeight transactions lower) =
      (row.spentBy decrypt (collectTransactionTxidsAboveHeight transactions upper) ||
        row.spentBy decrypt (collectTransactionTxidsAboveHeight
          (transactions.filter fun tx => !decide (tx.height > (upper : Int))) lower)) := by
  rw [Bool.eq_iff_iff, Bool.or_eq_true]
  rw [EncryptedUnlinkedSpend.spentBy_iff, EncryptedUnlinkedSpend.spentBy_iff,
    EncryptedUnlinkedSpend.spentBy_iff]
  exact exists_removedTxid hle transactions _

/-- A note that lies above the upper height lies above the lower one. -/
theorem above_of_above {row : EncryptedNote Cell} (h : row.above decrypt upper = true) :
    row.above decrypt lower = true := by
  unfold EncryptedNote.above at h ⊢
  cases hheight : row.heightOf decrypt with
  | none =>
    rw [hheight] at h
    cases h
  | some value =>
    rw [hheight] at h
    simp only [Option.any_some, decide_eq_true_eq] at h ⊢
    omega

omit hle

/-- Filtering twice by bounds is filtering by the lower bound. -/
theorem filter_filter_bound {α : Type} {p q : α → Bool} (h : ∀ a, q a = true → p a = true)
    (l : List α) : (l.filter p).filter q = l.filter q := by
  rw [List.filter_filter]
  refine List.filter_congr fun a _ => ?_
  cases hq : q a with
  | true => rw [h a hq]; rfl
  | false => rfl

theorem reset_eq (encryptedUnspent : Bytes) (txids : List Bytes) (row : EncryptedNote Cell) :
    (EncryptedNote.reset decrypt encryptedUnspent txids row).above decrypt lower =
      row.above decrypt lower := by
  unfold EncryptedNote.reset
  split
  · rfl
  · rfl

/-- What the two rollbacks leave of the notes. -/
theorem twice_reset_rows (hle : lower ≤ upper) {before middle after : List (EncryptedNote Cell)}
    {first second : Bytes} {removed between : List Bytes}
    (hmiddle : middle = (before.filter fun row => !row.above decrypt upper).map
      (EncryptedNote.reset decrypt first removed))
    (hafter : after = (middle.filter fun row => !row.above decrypt lower).map
      (EncryptedNote.reset decrypt second between)) :
    after = (before.filter fun row => !row.above decrypt lower).map fun row =>
      EncryptedNote.reset decrypt second between (EncryptedNote.reset decrypt first removed row) := by
  have hkept : ((fun row => !row.above decrypt lower) ∘ EncryptedNote.reset decrypt first removed) =
      fun row => !row.above decrypt lower := by
    funext row
    dsimp only [Function.comp_apply]
    rw [reset_eq]
  rw [hafter, hmiddle, List.filter_map, hkept, filter_filter_bound, List.map_map]
  · rfl
  · intro row hrow
    cases habove : row.above decrypt upper with
    | true =>
      rw [above_of_above hle habove] at hrow
      cases hrow
    | false => rfl

/-- A note reset in two steps is the note reset in one. -/
theorem same_reset {first second direct : Bytes} {removed between all : List Bytes}
    {row : EncryptedNote Cell}
    (hall : row.spentBy decrypt all = (row.spentBy decrypt removed || row.spentBy decrypt between))
    (hfirst : removed ≠ [] → decrypt first = .ok [0])
    (hsecond : between ≠ [] → decrypt second = .ok [0])
    (hdirect : all ≠ [] → decrypt direct = .ok [0]) :
    SameStoredNote decrypt
      (EncryptedNote.reset decrypt second between (EncryptedNote.reset decrypt first removed row))
      (EncryptedNote.reset decrypt direct all row) := by
  have hopens : ∀ {txids : List Bytes} {encrypted : Bytes},
      (txids ≠ [] → decrypt encrypted = .ok [0]) → row.spentBy decrypt txids = true →
        decrypt encrypted = .ok [0] := by
    intro txids encrypted hencrypted hspent
    obtain ⟨txid, hmem, -⟩ := EncryptedNote.spentBy_iff.mp hspent
    exact hencrypted (List.ne_nil_of_mem hmem)
  unfold EncryptedNote.reset
  cases hremoved : row.spentBy decrypt removed with
  | true =>
    rw [hremoved, Bool.true_or] at hall
    have hunspent : (row.unspend first).spentBy decrypt between = false := rfl
    simp only [if_true, hunspent, hall, Bool.false_eq_true, if_false]
    exact Or.inr ⟨first, direct, [0], rfl, hopens hfirst hremoved, hopens hdirect hall, rfl⟩
  | false =>
    rw [hremoved, Bool.false_or] at hall
    simp only [Bool.false_eq_true, if_false, hall]
    cases hbetween : row.spentBy decrypt between with
    | true =>
      rw [hbetween] at hall
      simp only [if_true]
      exact Or.inr ⟨second, direct, [0], rfl, hopens hsecond hbetween, hopens hdirect hall, rfl⟩
    | false => exact Or.inl rfl

/-- The same notes give the same shard metadata. -/
theorem shardNotes_same {a b : List (EncryptedNote Cell)}
    (h : List.Forall₂ (SameStoredNote decrypt) a b) :
    (a.filterMap fun row => row.shardNote decrypt) =
      b.filterMap fun row => row.shardNote decrypt := by
  induction h with
  | nil => rfl
  | cons hrow _ ih =>
    rw [List.filterMap_cons, List.filterMap_cons, ih]
    rcases hrow with rfl | ⟨encrypted, encrypted', message, -, -, -, rfl⟩
    · rfl
    · rfl

include hle

/-- The memos of removed transactions, in two steps. -/
theorem memos_twice (transactions : List TransactionRow) (memos : List (EncryptedMemo Cell)) :
    ((memos.filter fun memo => !transactions.any fun tx =>
        decide (tx.height > (upper : Int)) && tx.id == memo.txId).filter fun memo =>
      !(transactions.filter fun tx => !decide (tx.height > (upper : Int))).any fun tx =>
        decide (tx.height > (lower : Int)) && tx.id == memo.txId) =
      memos.filter fun memo => !transactions.any fun tx =>
        decide (tx.height > (lower : Int)) && tx.id == memo.txId := by
  rw [List.filter_filter]
  refine List.filter_congr fun memo _ => ?_
  rw [← Bool.not_or, Bool.eq_iff_iff, Bool.not_eq_true', Bool.not_eq_true', Bool.or_eq_false_iff]
  simp only [List.any_eq_false, List.mem_filter, Bool.and_eq_true, decide_eq_true_eq, beq_iff_eq,
    Bool.not_eq_true', decide_eq_false_iff_not, not_and]
  constructor
  · rintro ⟨hbetween, hremoved⟩ tx htx habove
    by_cases hupper : tx.height > (upper : Int)
    · exact hremoved tx htx hupper
    · exact hbetween tx ⟨htx, hupper⟩ habove
  · intro hall
    exact ⟨fun tx htx habove => hall tx htx.1 habove,
      fun tx htx hupper => hall tx htx (by omega)⟩

theorem clamp_twice (height : Nat) :
    (if (if height > upper then upper else height) > lower then lower
      else if height > upper then upper else height) =
      if height > lower then lower else height := by
  by_cases hupper : height > upper
  · rw [if_pos hupper, if_pos (by omega : height > lower)]
    split
    · rfl
    · omega
  · rw [if_neg hupper]

/-- The spendability row, in two steps. -/
theorem spendability_twice (first second : String) (row : SpendabilityStateRow) :
    (row.truncateAboveHeight first upper).truncateAboveHeight second lower =
      row.truncateAboveHeight second lower := by
  unfold SpendabilityStateRow.truncateAboveHeight
  dsimp only
  rw [clamp_twice hle, clamp_twice hle]
  cases row.rescanRequired with
  | true => rfl
  | false =>
    simp only [Bool.false_eq_true, if_false]
    rw [clamp_twice hle]

end Second

/-! ## The trees -/

section Trees

variable {truncateSapling truncateOrchard : TruncateTree} {lower upper : Nat}
  {sapling orchard sapling' orchard' : TreeTables}

/-- What is common below the lower height is common after the upper rollback. -/
theorem common_twice (hle : lower ≤ upper) (hsapling : TruncatesTo truncateSapling)
    (horchard : TruncatesTo truncateOrchard)
    (hfirst : rewindTables truncateSapling "Sapling"
      (commonTreeCheckpoint sapling orchard upper) sapling = .ok sapling')
    (hfirst' : rewindTables truncateOrchard "Orchard"
      (commonTreeCheckpoint sapling orchard upper) orchard = .ok orchard') :
    commonTreeCheckpoint sapling' orchard' lower = commonTreeCheckpoint sapling orchard lower := by
  have hgreatest : ∀ id ∈ commonTreeCheckpoint sapling orchard upper,
      IsCommonCheckpoint sapling orchard upper id ∧
        ∀ other, IsCommonCheckpoint sapling orchard upper other → other ≤ id :=
    fun id hid => commonTreeCheckpoint_eq_some.mp hid
  have hkept := rewindTables_checkpoints hsapling (fun id hid => (hgreatest id hid).1.2.1) hfirst
  have hkept' := rewindTables_checkpoints horchard (fun id hid => (hgreatest id hid).1.2.2) hfirst'
  refine commonTreeCheckpoint_congr fun id => ?_
  unfold IsCommonCheckpoint
  rw [hkept, hkept']
  constructor
  · rintro ⟨hbelow, ⟨_, -, hmem, -⟩, _, -, hmem', -⟩
    exact ⟨hbelow, hmem, hmem'⟩
  · rintro ⟨hbelow, hmem, hmem'⟩
    have hcommon : IsCommonCheckpoint sapling orchard upper id := ⟨hbelow.trans hle, hmem, hmem'⟩
    cases hfound : commonTreeCheckpoint sapling orchard upper with
    | none => exact absurd hcommon (commonTreeCheckpoint_eq_none.mp hfound id)
    | some cut =>
      have hbelowCut := (hgreatest cut hfound).2 id hcommon
      exact ⟨hbelow, ⟨cut, rfl, hmem, hbelowCut⟩, cut, rfl, hmem', hbelowCut⟩

/-- The lower common checkpoint is at or below the upper one. -/
theorem common_le (hle : lower ≤ upper) {id : BlockHeight}
    (hid : id ∈ commonTreeCheckpoint sapling orchard lower) :
    ∃ cut ∈ commonTreeCheckpoint sapling orchard upper, id ≤ cut := by
  obtain ⟨⟨hbelow, hmem, hmem'⟩, -⟩ := commonTreeCheckpoint_eq_some.mp hid
  have hcommon : IsCommonCheckpoint sapling orchard upper id := ⟨hbelow.trans hle, hmem, hmem'⟩
  cases hfound : commonTreeCheckpoint sapling orchard upper with
  | none => exact absurd hcommon (commonTreeCheckpoint_eq_none.mp hfound id)
  | some cut => exact ⟨cut, rfl, (commonTreeCheckpoint_eq_some.mp hfound).2 id hcommon⟩

/-- A tree cut twice is the tree cut once. -/
theorem rewind_twice {truncateTree : TruncateTree} (htree : TruncatesTo truncateTree)
    {pool : String} {first second : Option BlockHeight} {tree tree' : TreeTables}
    (hfirst : ∀ id ∈ first, id ∈ tree.checkpoints) (hsecond : ∀ id ∈ second, id ∈ tree.checkpoints)
    (hle : ∀ id ∈ second, ∃ cut ∈ first, id ≤ cut)
    (h : rewindTables truncateTree pool first tree = .ok tree') :
    rewindTables truncateTree pool second tree' = rewindTables truncateTree pool second tree := by
  cases second with
  | none => rfl
  | some id =>
    obtain ⟨cut, hcut, hbelow⟩ := hle id rfl
    obtain rfl : first = some cut := hcut
    unfold rewindTables
    dsimp only
    rw [htree.composes cut id tree tree' hbelow (hfirst cut rfl) (hsecond id rfl) (mapError_eq_ok h)]

/-- The tree of a pool after both rollbacks. -/
theorem tree_twice (hle : lower ≤ upper) {truncateTree : TruncateTree}
    (htree : TruncatesTo truncateTree) {pool : String} {tree tree' rewound direct : TreeTables}
    (hmem : ∀ height, ∀ id ∈ commonTreeCheckpoint sapling orchard height, id ∈ tree.checkpoints)
    (hcommon : commonTreeCheckpoint sapling' orchard' lower =
      commonTreeCheckpoint sapling orchard lower)
    (hfirst : rewindTables truncateTree pool (commonTreeCheckpoint sapling orchard upper) tree =
      .ok tree')
    (hsecond : rewindTables truncateTree pool (commonTreeCheckpoint sapling' orchard' lower) tree' =
      .ok rewound)
    (hdirect : rewindTables truncateTree pool (commonTreeCheckpoint sapling orchard lower) tree =
      .ok direct) : rewound = direct := by
  rw [hcommon, rewind_twice htree (hmem upper) (hmem lower) (fun id hid => common_le hle hid) hfirst,
    hdirect] at hsecond
  exact (Except.ok.inj hsecond).symm

end Trees

section Composition

variable {encrypt encrypt' encrypt'' decrypt : Bytes → Except String Bytes}
  {truncateSapling truncateOrchard : TruncateTree} {now now' now'' : String}
  {lower upper returned returned' returned'' : Nat} {db middle after direct : StoredWallet}

/-- The second rollback leaves what the direct one leaves. -/
theorem RolledBack.same (hle : lower ≤ upper)
    (hcipher : ∀ message encrypted, encrypt message = .ok encrypted → decrypt encrypted = .ok message)
    (hcipher' : ∀ message encrypted, encrypt' message = .ok encrypted →
      decrypt encrypted = .ok message)
    (hcipher'' : ∀ message encrypted, encrypt'' message = .ok encrypted →
      decrypt encrypted = .ok message)
    (hsapling : TruncatesTo truncateSapling) (horchard : TruncatesTo truncateOrchard)
    (hfirst : RolledBack encrypt decrypt truncateSapling truncateOrchard now upper db returned middle)
    (hsecond : RolledBack encrypt' decrypt truncateSapling truncateOrchard now' lower middle
      returned' after)
    (hdirect : RolledBack encrypt'' decrypt truncateSapling truncateOrchard now'' lower db
      returned'' direct) :
    returned' = returned'' ∧ SameWallet decrypt after direct := by
  have hcommon := common_twice hle hsapling horchard hfirst.saplingTree hfirst.orchardTree
  have hreturned : returned' = returned'' := by
    rw [hsecond.returned_eq, hdirect.returned_eq, hcommon]
  obtain ⟨first, hopensFirst, hrowsFirst⟩ := hfirst.notes
  obtain ⟨second, hopensSecond, hrowsSecond⟩ := hsecond.notes
  obtain ⟨once, hopensOnce, hrowsOnce⟩ := hdirect.notes
  have hnotes : List.Forall₂ (SameStoredNote decrypt) after.notes.rows direct.notes.rows := by
    rw [twice_reset_rows hle hrowsFirst hrowsSecond, hrowsOnce, List.forall₂_map_left_iff,
      List.forall₂_map_right_iff, List.forall₂_same]
    intro row _
    rw [hfirst.transactions] at hopensSecond ⊢
    exact same_reset (note_spentBy_or hle db.transactions row)
      (fun hne => hcipher _ _ (hopensFirst hne)) (fun hne => hcipher' _ _ (hopensSecond hne))
      (fun hne => hcipher'' _ _ (hopensOnce hne))
  refine ⟨hreturned, hnotes, ?_, ?_⟩
  · rw [hsecond.notesNext, hfirst.notesNext, hdirect.notesNext]
  have hunlinked : after.unlinkedSpends = direct.unlinkedSpends := by
    refine AutoTable.eq_of_rows ?_ ?_
    · rw [hsecond.unlinkedSpends, hfirst.unlinkedSpends, hdirect.unlinkedSpends,
        hfirst.transactions, List.filter_filter]
      refine List.filter_congr fun row _ => ?_
      rw [unlinked_spentBy_or hle db.transactions row, Bool.not_or]
      exact Bool.and_comm _ _
    · rw [hsecond.unlinkedNext, hfirst.unlinkedNext, hdirect.unlinkedNext]
  have htransactions : after.transactions = direct.transactions := by
    rw [hsecond.transactions, hfirst.transactions, hdirect.transactions]
    refine filter_filter_bound (fun tx htx => ?_) _
    simp only [Bool.not_eq_true', decide_eq_false_iff_not] at htx ⊢
    omega
  have hmemos : after.memos = direct.memos := by
    rw [hsecond.memos, hfirst.memos, hfirst.transactions, hdirect.memos]
    exact memos_twice hle db.transactions db.memos
  have hchainBlocks : after.chainBlocks = direct.chainBlocks := by
    rw [hsecond.chainBlocks, hfirst.chainBlocks, hdirect.chainBlocks]
    refine filter_filter_bound (fun block hblock => ?_) _
    simp only [Bool.not_eq_true', decide_eq_false_iff_not] at hblock ⊢
    omega
  have hcheckpoints : after.checkpoints = direct.checkpoints := by
    rw [hsecond.checkpoints, hfirst.checkpoints, hdirect.checkpoints]
    refine filter_filter_bound (fun row hrow => ?_) _
    simp only [Bool.not_eq_true', decide_eq_false_iff_not] at hrow ⊢
    omega
  have hfrontiers : after.frontierSnapshots = direct.frontierSnapshots := by
    rw [hsecond.frontierSnapshots, hfirst.frontierSnapshots, hdirect.frontierSnapshots]
    refine filter_filter_bound (fun row hrow => ?_) _
    simp only [Bool.not_eq_true', decide_eq_false_iff_not] at hrow ⊢
    omega
  have hqueue : after.scanQueue = direct.scanQueue := by
    rw [hsecond.scanQueue, hfirst.scanQueue, hdirect.scanQueue]
    refine AutoTable.eq_of_rows (filter_filter_bound (fun row hrow => ?_) _) rfl
    simp only [Bool.not_eq_true', decide_eq_false_iff_not] at hrow ⊢
    omega
  have hsaplingTree : after.saplingTree = direct.saplingTree :=
    tree_twice hle hsapling (fun height id hid => (common_mem hid).2.1) hcommon hfirst.saplingTree
      hsecond.saplingTree hdirect.saplingTree
  have horchardTree : after.orchardTree = direct.orchardTree :=
    tree_twice hle horchard (fun height id hid => (common_mem hid).2.2) hcommon hfirst.orchardTree
      hsecond.orchardTree hdirect.orchardTree
  have hshards : (after.saplingNoteShards, after.orchardNoteShards) =
      (direct.saplingNoteShards, direct.orchardNoteShards) := by
    rw [hsecond.noteShards, hdirect.noteShards, shardNotes_same hnotes]
  obtain ⟨hsaplingShards, horchardShards⟩ := Prod.mk.inj hshards
  have hsync : { after.syncState with updatedAt := direct.syncState.updatedAt } =
      direct.syncState := by
    rw [hsecond.syncState, hfirst.syncState, hdirect.syncState, hreturned]
  have hspendability :
      { after.spendabilityState with updatedAt := direct.spendabilityState.updatedAt } =
        direct.spendabilityState := by
    rw [hsecond.spendabilityState, hfirst.spendabilityState, hdirect.spendabilityState,
      spendability_twice hle]
    rfl
  cases direct
  simp only [StoredWallet.mk.injEq]
  exact ⟨trivial, hunlinked, htransactions, hmemos, hchainBlocks, hcheckpoints, hfrontiers, hqueue,
    hsaplingTree, horchardTree, hsaplingShards, horchardShards, hsync, hspendability⟩

/-- What the second rollback reads opens, if it does for the direct one. -/
theorem RolledBack.opens_second (hle : lower ≤ upper)
    (hfirst : RolledBack encrypt decrypt truncateSapling truncateOrchard now upper db returned middle)
    (hdirect : db.Opens decrypt lower) : middle.Opens decrypt lower := by
  obtain ⟨encryptedUnspent, -, hrows⟩ := hfirst.notes
  have hold : ∀ row ∈ middle.notes.rows, ∃ old ∈ db.notes.rows, row = EncryptedNote.reset decrypt
      encryptedUnspent (collectTransactionTxidsAboveHeight db.transactions upper) old := by
    intro row hrow
    rw [hrows] at hrow
    obtain ⟨old, hmem, rfl⟩ := List.mem_map.mp hrow
    exact ⟨old, List.mem_of_mem_filter hmem, rfl⟩
  have hremoved : collectTransactionTxidsAboveHeight middle.transactions lower ≠ [] →
      collectTransactionTxidsAboveHeight db.transactions lower ≠ [] := by
    intro hne
    rw [hfirst.transactions] at hne
    obtain ⟨txid, hmem⟩ := List.exists_mem_of_ne_nil _ hne
    exact List.ne_nil_of_mem ((mem_removedTxids hle).mpr (Or.inr hmem))
  refine ⟨fun row hrow => ?_, fun hne => ⟨fun row hrow => ?_, fun row hrow => ?_⟩⟩
  · obtain ⟨old, hmem, rfl⟩ := hold row hrow
    unfold EncryptedNote.reset
    split
    · exact hdirect.notes old hmem
    · exact hdirect.notes old hmem
  · obtain ⟨old, hmem, rfl⟩ := hold row hrow
    unfold EncryptedNote.reset
    split
    · intro cell hcell
      cases hcell
    · exact (hdirect.spends (hremoved hne)).1 old hmem
  · rw [hfirst.unlinkedSpends] at hrow
    exact (hdirect.spends (hremoved hne)).2 row (List.mem_of_mem_filter hrow)

/-- The second rollback succeeds and leaves the wallet of the direct one. -/
theorem second_rollback (hle : lower ≤ upper) (hcipher : Encrypts encrypt decrypt)
    (hcipher' : Encrypts encrypt' decrypt) (hcipher'' : Encrypts encrypt'' decrypt)
    (hsapling : TruncatesTo truncateSapling) (horchard : TruncatesTo truncateOrchard)
    (hfirst : truncateStored encrypt decrypt truncateSapling truncateOrchard now upper db =
      .ok (returned, middle))
    (hdirect : truncateStored encrypt'' decrypt truncateSapling truncateOrchard now'' lower db =
      .ok (returned'', direct)) :
    ∃ after, truncateStored encrypt' decrypt truncateSapling truncateOrchard now' lower middle =
      .ok (returned'', after) ∧ SameWallet decrypt after direct := by
  have hfirst := truncateStored_eq_ok hfirst
  have hdirect := truncateStored_eq_ok hdirect
  obtain ⟨encryptedUnspent, hencrypted, -⟩ := hcipher' [0]
  have hcommon := common_twice hle hsapling horchard hfirst.saplingTree hfirst.orchardTree
  have hsaplingTree : rewindTables truncateSapling "Sapling"
      (commonTreeCheckpoint middle.saplingTree middle.orchardTree lower) middle.saplingTree =
        .ok direct.saplingTree := by
    rw [hcommon, rewind_twice hsapling (fun id hid => (common_mem hid).2.1)
      (fun id hid => (common_mem hid).2.1) (fun id hid => common_le hle hid) hfirst.saplingTree]
    exact hdirect.saplingTree
  have horchardTree : rewindTables truncateOrchard "Orchard"
      (commonTreeCheckpoint middle.saplingTree middle.orchardTree lower) middle.orchardTree =
        .ok direct.orchardTree := by
    rw [hcommon, rewind_twice horchard (fun id hid => (common_mem hid).2.2)
      (fun id hid => (common_mem hid).2.2) (fun id hid => common_le hle hid) hfirst.orchardTree]
    exact hdirect.orchardTree
  obtain ⟨returned', after, hsecond⟩ := @truncateStored_of_opens encrypt' decrypt truncateSapling
    truncateOrchard now' lower middle hdirect.fits (hfirst.opens_second hle hdirect.opens)
    encryptedUnspent hencrypted _ _ hsaplingTree horchardTree
  obtain ⟨rfl, hsame⟩ := RolledBack.same hle (decrypts hcipher) (decrypts hcipher')
    (decrypts hcipher'') hsapling horchard hfirst (truncateStored_eq_ok hsecond) hdirect
  exact ⟨after, hsecond, hsame⟩

/-- **Two rollbacks are one.** A rollback followed by one to a height at or below leaves the wallet
of the lower rollback alone, and a rollback repeated leaves the wallet as it is. -/
theorem truncate_truncate (hcipher : Encrypts encrypt decrypt) (hcipher' : Encrypts encrypt' decrypt)
    (hcipher'' : Encrypts encrypt'' decrypt)
    (hsapling : TruncatesTo truncateSapling) (horchard : TruncatesTo truncateOrchard)
    (hfirst : truncateStored encrypt decrypt truncateSapling truncateOrchard now upper db =
      .ok (returned, middle)) :
    (∀ lower returned'' direct, lower ≤ upper →
      truncateStored encrypt'' decrypt truncateSapling truncateOrchard now'' lower db =
        .ok (returned'', direct) →
      ∃ after, truncateStored encrypt' decrypt truncateSapling truncateOrchard now' lower middle =
        .ok (returned'', after) ∧ SameWallet decrypt after direct) ∧
      ∃ after, truncateStored encrypt' decrypt truncateSapling truncateOrchard now' upper middle =
        .ok (returned, after) ∧ SameWallet decrypt after middle :=
  ⟨fun _ _ _ hle hdirect =>
    second_rollback hle hcipher hcipher' hcipher'' hsapling horchard hfirst hdirect,
    second_rollback le_rfl hcipher hcipher' hcipher hsapling horchard hfirst hfirst⟩

theorem truncate_truncate_example :
    (∃ after, truncateStored .ok .ok cutEmptyTree cutEmptyTree "" 4 (rolledBack 6 rollbackWallet) =
        .ok (0, after) ∧ SameWallet .ok after (rolledBack 4 rollbackWallet)) ∧
      ∃ after, truncateStored .ok .ok cutEmptyTree cutEmptyTree "" 6 (rolledBack 6 rollbackWallet) =
        .ok (5, after) ∧ SameWallet .ok after (rolledBack 6 rollbackWallet) := by
  have hcipher : Encrypts .ok .ok := fun message => ⟨message, rfl, rfl⟩
  obtain ⟨hlower, hagain⟩ := @truncate_truncate .ok .ok .ok .ok cutEmptyTree cutEmptyTree "" "" "" 6
    5 rollbackWallet (rolledBack 6 rollbackWallet) hcipher hcipher hcipher cutEmptyTree_truncates
    cutEmptyTree_truncates rfl
  exact ⟨hlower 4 0 (rolledBack 4 rollbackWallet) (by decide) rfl, hagain⟩

end Composition

end StashiWallet
