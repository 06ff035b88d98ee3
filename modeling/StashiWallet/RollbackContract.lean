import StashiWallet.TruncationLaws

/-!
# The contract of a rollback, and two rollbacks

A rollback to a height leaves nothing above it, forgets exactly the spends by what it removed, and
sets the cursor to where both trees can be resumed. Rolling back in two steps leaves the wallet of
one rollback to the lower height: what a table keeps depends on the rows alone that lie below, and
a checkpoint both trees share below the lower height survives the first step.
-/

namespace StashiWallet

open ShardStore (BlockHeight)

/-- What is relied on of `truncate_to_checkpoint`: the checkpoints up to the given one stay, and a
later cut below finds what it would have found before. -/
structure TruncatesTo (truncateTree : TruncateTree) : Prop where
  keeps : ∀ id tree after, id ∈ tree.checkpoints → truncateTree id tree = .ok after →
    ∀ other, other ∈ after.checkpoints ↔ other ∈ tree.checkpoints ∧ other ≤ id
  composes : ∀ first second tree after, second ≤ first → first ∈ tree.checkpoints →
    second ∈ tree.checkpoints → truncateTree first tree = .ok after →
      truncateTree second after = truncateTree second tree

/-- A checkpoint of both pools, at or below a height. -/
def IsCommonCheckpoint (sapling orchard : TreeTables) (height : Nat) (id : BlockHeight) : Prop :=
  id.val ≤ height ∧ id ∈ sapling.checkpoints ∧ id ∈ orchard.checkpoints

/-- The spending transaction of the note is removed, in either byte order. -/
def EncryptedNote.SpentByRemoved (decrypt : Bytes → Except String Bytes) (height : Nat)
    (transactions : List TransactionRow) (row : EncryptedNote Cell) : Prop :=
  ∃ encrypted txid, row.spentTxid = some (.blob encrypted) ∧ decrypt encrypted = .ok txid ∧
    ∃ tx ∈ transactions, (height : Int) < tx.height ∧ txid ∈ txidHexCandidates tx.txid

section Checkpoints

variable {sapling orchard : TreeTables} {height : Nat}

theorem mem_commonKeys {id : BlockHeight} :
    (id ∈ sapling.checkpoints.keys.filter fun id =>
      decide (id.val ≤ height) && orchard.checkpoints.contains id) ↔
        IsCommonCheckpoint sapling orchard height id := by
  rw [List.mem_filter, Std.ExtTreeMap.mem_keys, Bool.and_eq_true, decide_eq_true_eq,
    Std.ExtTreeMap.contains_iff_mem]
  unfold IsCommonCheckpoint
  tauto

theorem commonTreeCheckpoint_eq_some {id : BlockHeight} :
    commonTreeCheckpoint sapling orchard height = some id ↔
      IsCommonCheckpoint sapling orchard height id ∧
        ∀ other, IsCommonCheckpoint sapling orchard height other → other ≤ id := by
  unfold commonTreeCheckpoint
  rw [List.max?_eq_some_iff, mem_commonKeys]
  exact and_congr_right fun _ => forall_congr' fun other => by rw [mem_commonKeys]

theorem commonTreeCheckpoint_eq_none :
    commonTreeCheckpoint sapling orchard height = none ↔
      ∀ id, ¬ IsCommonCheckpoint sapling orchard height id := by
  unfold commonTreeCheckpoint
  rw [List.max?_eq_none_iff, List.eq_nil_iff_forall_not_mem]
  exact forall_congr' fun id => by rw [mem_commonKeys]

/-- The common checkpoint is the same where the same checkpoints are common. -/
theorem commonTreeCheckpoint_congr {sapling' orchard' : TreeTables} {height' : Nat}
    (h : ∀ id, IsCommonCheckpoint sapling' orchard' height' id ↔
      IsCommonCheckpoint sapling orchard height id) :
    commonTreeCheckpoint sapling' orchard' height' = commonTreeCheckpoint sapling orchard height := by
  cases hcommon : commonTreeCheckpoint sapling orchard height with
  | none =>
    rw [commonTreeCheckpoint_eq_none] at hcommon ⊢
    exact fun id hid => hcommon id ((h id).mp hid)
  | some id =>
    rw [commonTreeCheckpoint_eq_some] at hcommon ⊢
    exact ⟨(h id).mpr hcommon.1, fun other hother => hcommon.2 other ((h other).mp hother)⟩

end Checkpoints

theorem spentBy_iff_removed {decrypt : Bytes → Except String Bytes} {height : Nat}
    {transactions : List TransactionRow} {row : EncryptedNote Cell} :
    row.spentBy decrypt (collectTransactionTxidsAboveHeight transactions height) = true ↔
      row.SpentByRemoved decrypt height transactions := by
  rw [EncryptedNote.spentBy_iff]
  unfold collectTransactionTxidsAboveHeight EncryptedNote.SpentByRemoved
  constructor
  · rintro ⟨txid, hmem, hspent⟩
    obtain ⟨cell, hcell, htxid⟩ := Option.bind_eq_some_iff.mp hspent
    obtain ⟨tx, htx, hcandidate⟩ := List.mem_flatMap.mp hmem
    obtain ⟨htx, habove⟩ := List.mem_filter.mp htx
    cases cell with
    | blob encrypted =>
      unfold txidOf at htxid
      dsimp only at htxid
      cases hopens : decrypt encrypted with
      | error e =>
        rw [hopens] at htxid
        cases htxid
      | ok value =>
        rw [hopens] at htxid
        dsimp only at htxid
        split at htxid
        · obtain rfl := Option.some.inj htxid
          exact ⟨encrypted, value, hcell, hopens, tx, htx, by simpa using habove, hcandidate⟩
        · cases htxid
    | integer value => cases htxid
    | real value => cases htxid
    | text bytes => cases htxid
  · rintro ⟨encrypted, txid, hcell, hopens, tx, htx, habove, hcandidate⟩
    obtain ⟨bytes, -, hlength, hbytes⟩ := mem_txidHexCandidates.mp hcandidate
    have hsize : txid.length = 32 := by
      rcases hbytes with rfl | rfl
      · exact hlength
      · rw [List.length_reverse, hlength]
    refine ⟨txid, List.mem_flatMap.mpr ⟨tx, List.mem_filter.mpr ⟨htx, by simpa using habove⟩,
      hcandidate⟩, ?_⟩
    rw [hcell]
    unfold Option.bind txidOf
    simp only [hopens, hsize, if_true]

/-- The cursor that a rollback returns: the newest common checkpoint, or zero. -/
def IsReplayHeight (sapling orchard : TreeTables) (height returned : Nat) : Prop :=
  (∃ id, IsCommonCheckpoint sapling orchard height id ∧ returned = id.val ∧
      ∀ other, IsCommonCheckpoint sapling orchard height other → other ≤ id) ∨
    (∀ id, ¬ IsCommonCheckpoint sapling orchard height id) ∧ returned = 0

/-- Nothing of the wallet lies above the height; a memo lies where its transaction lay. -/
structure NothingAbove (decrypt : Bytes → Except String Bytes) (height : Nat)
    (before : List TransactionRow) (after : StoredWallet) : Prop where
  notes : ∀ row ∈ after.notes.rows, ∀ value ∈ row.heightOf decrypt, value ≤ height
  transactions : ∀ tx ∈ after.transactions, tx.height ≤ height
  memos : ∀ memo ∈ after.memos, ∀ tx ∈ before, tx.id = memo.txId → tx.height ≤ height
  chainBlocks : ∀ block ∈ after.chainBlocks, block.height ≤ height
  checkpoints : ∀ row ∈ after.checkpoints, row.height ≤ height
  frontierSnapshots : ∀ row ∈ after.frontierSnapshots, row.height ≤ height
  saplingCheckpoints : ∀ id ∈ after.saplingTree.checkpoints, id.val ≤ height
  orchardCheckpoints : ∀ id ∈ after.orchardTree.checkpoints, id.val ≤ height

section Rollback

variable {encrypt decrypt : Bytes → Except String Bytes}
  {truncateSapling truncateOrchard : TruncateTree} {now : String} {height returned : Nat}
  {db after : StoredWallet}

/-- The checkpoints of a pool after its tree is cut or cleared. -/
theorem rewindTables_checkpoints {truncateTree : TruncateTree} (htree : TruncatesTo truncateTree)
    {pool : String} {common : Option BlockHeight} {tree rewound : TreeTables}
    (hcommon : ∀ id ∈ common, id ∈ tree.checkpoints)
    (h : rewindTables truncateTree pool common tree = .ok rewound) (other : BlockHeight) :
    other ∈ rewound.checkpoints ↔ ∃ id ∈ common, other ∈ tree.checkpoints ∧ other ≤ id := by
  cases common with
  | none =>
    obtain rfl := Except.ok.inj h
    simp
  | some id =>
    rw [htree.keeps id tree rewound (hcommon id rfl) (mapError_eq_ok h) other]
    simp

theorem common_mem {id : BlockHeight}
    (h : id ∈ commonTreeCheckpoint db.saplingTree db.orchardTree height) :
    IsCommonCheckpoint db.saplingTree db.orchardTree height id :=
  (commonTreeCheckpoint_eq_some.mp h).1

theorem replayHeight_of_common
    (h : returned =
      ((commonTreeCheckpoint db.saplingTree db.orchardTree height).map Fin.val).getD 0) :
    IsReplayHeight db.saplingTree db.orchardTree height returned := by
  cases hcommon : commonTreeCheckpoint db.saplingTree db.orchardTree height with
  | none =>
    rw [hcommon] at h
    exact Or.inr ⟨commonTreeCheckpoint_eq_none.mp hcommon, h⟩
  | some id =>
    rw [hcommon] at h
    obtain ⟨hid, hgreatest⟩ := commonTreeCheckpoint_eq_some.mp hcommon
    exact Or.inl ⟨id, hid, h, hgreatest⟩

theorem RolledBack.nothingAbove
    (h : RolledBack encrypt decrypt truncateSapling truncateOrchard now height db returned after)
    (hsapling : TruncatesTo truncateSapling) (horchard : TruncatesTo truncateOrchard) :
    NothingAbove decrypt height db.transactions after where
  notes row hrow value hvalue := by
    obtain ⟨encryptedUnspent, -, hrows⟩ := h.notes
    rw [hrows] at hrow
    obtain ⟨old, hold, rfl⟩ := List.mem_map.mp hrow
    have hkept := (List.mem_filter.mp hold).2
    have hsame : (EncryptedNote.reset decrypt encryptedUnspent
        (collectTransactionTxidsAboveHeight db.transactions height) old).heightOf decrypt =
          old.heightOf decrypt := by
      unfold EncryptedNote.reset
      split
      · rfl
      · rfl
    rw [hsame] at hvalue
    unfold EncryptedNote.above at hkept
    rw [hvalue] at hkept
    simpa using hkept
  transactions tx htx := by
    rw [h.transactions] at htx
    simpa using (List.mem_filter.mp htx).2
  memos memo hmemo tx htx hid := by
    rw [h.memos] at hmemo
    have hkept := (List.mem_filter.mp hmemo).2
    rw [Bool.not_eq_true', List.any_eq_false] at hkept
    have hbelow := hkept tx htx
    rw [Bool.and_eq_true, decide_eq_true_eq, beq_iff_eq] at hbelow
    exact not_lt.mp fun habove => hbelow ⟨habove, hid⟩
  chainBlocks block hblock := by
    rw [h.chainBlocks] at hblock
    simpa using (List.mem_filter.mp hblock).2
  checkpoints row hrow := by
    rw [h.checkpoints] at hrow
    simpa using (List.mem_filter.mp hrow).2
  frontierSnapshots row hrow := by
    rw [h.frontierSnapshots] at hrow
    simpa using (List.mem_filter.mp hrow).2
  saplingCheckpoints id hid := by
    obtain ⟨cut, hcut, -, hle⟩ := (rewindTables_checkpoints hsapling
      (fun id hid => (common_mem hid).2.1) h.saplingTree id).mp hid
    exact (Fin.le_def.mp hle).trans (common_mem hcut).1
  orchardCheckpoints id hid := by
    obtain ⟨cut, hcut, -, hle⟩ := (rewindTables_checkpoints horchard
      (fun id hid => (common_mem hid).2.2) h.orchardTree id).mp hid
    exact (Fin.le_def.mp hle).trans (common_mem hcut).1

/-- The rows of the notes that survive, by their spends. -/
structure SpendsForgotten (decrypt : Bytes → Except String Bytes) (height : Nat)
    (db after : StoredWallet) : Prop where
  ids : after.notes.rows.map EncryptedNote.id =
    (db.notes.rows.filter fun row => !row.above decrypt height).map EncryptedNote.id
  forgotten : ∀ row ∈ db.notes.rows, row.above decrypt height = false →
    row.SpentByRemoved decrypt height db.transactions → ∃ encryptedUnspent,
      decrypt encryptedUnspent = .ok [0] ∧
        { row with spent := .blob encryptedUnspent, spentTxid := none } ∈ after.notes.rows
  unchanged : ∀ row ∈ db.notes.rows, row.above decrypt height = false →
    ¬ row.SpentByRemoved decrypt height db.transactions → row ∈ after.notes.rows

theorem RolledBack.spendsForgotten
    (h : RolledBack encrypt decrypt truncateSapling truncateOrchard now height db returned after)
    (hcipher : ∀ message encrypted, encrypt message = .ok encrypted →
      decrypt encrypted = .ok message) :
    SpendsForgotten decrypt height db after := by
  obtain ⟨encryptedUnspent, hencrypted, hrows⟩ := h.notes
  have hmem : ∀ row ∈ db.notes.rows, row.above decrypt height = false →
      EncryptedNote.reset decrypt encryptedUnspent
        (collectTransactionTxidsAboveHeight db.transactions height) row ∈ after.notes.rows := by
    intro row hrow hbelow
    rw [hrows]
    exact List.mem_map_of_mem (List.mem_filter.mpr ⟨hrow, by rw [hbelow]; rfl⟩)
  refine ⟨?_, fun row hrow hbelow hspent => ?_, fun row hrow hbelow hspent => ?_⟩
  · rw [hrows, List.map_map]
    refine List.map_congr_left fun row _ => ?_
    dsimp only [Function.comp_apply]
    unfold EncryptedNote.reset
    split
    · rfl
    · rfl
  · have hby := spentBy_iff_removed.mpr hspent
    have hreset := hmem row hrow hbelow
    unfold EncryptedNote.reset at hreset
    rw [if_pos hby] at hreset
    obtain ⟨txid, htxid, -⟩ := EncryptedNote.spentBy_iff.mp hby
    exact ⟨encryptedUnspent, hcipher _ _ (hencrypted (List.ne_nil_of_mem htxid)), hreset⟩
  · have hreset := hmem row hrow hbelow
    unfold EncryptedNote.reset at hreset
    rwa [if_neg fun hby => hspent (spentBy_iff_removed.mp hby)] at hreset

/-- **The contract of a rollback.** The cursor and the last checkpoint are the value returned, the
newest checkpoint both trees have at or below the height; nothing above the height is left; of the
notes that stay, those spent by a removed transaction are unspent and the others are as they were;
and the shard metadata is what the notes that stay give. -/
theorem truncate_contract
    (hcipher : ∀ message encrypted, encrypt message = .ok encrypted →
      decrypt encrypted = .ok message)
    (hsapling : TruncatesTo truncateSapling) (horchard : TruncatesTo truncateOrchard)
    (h : truncateStored encrypt decrypt truncateSapling truncateOrchard now height db =
      .ok (returned, after)) :
    (after.syncState.localHeight = returned ∧ after.syncState.lastCheckpointHeight = returned ∧
      IsReplayHeight db.saplingTree db.orchardTree height returned) ∧
      NothingAbove decrypt height db.transactions after ∧ SpendsForgotten decrypt height db after ∧
      (after.saplingNoteShards, after.orchardNoteShards) =
        rebuildShards (after.notes.rows.filterMap fun row => row.shardNote decrypt) := by
  have hback := truncateStored_eq_ok h
  refine ⟨⟨?_, ?_, replayHeight_of_common hback.returned_eq⟩,
    hback.nothingAbove hsapling horchard, hback.spendsForgotten hcipher, hback.noteShards⟩
  · rw [hback.syncState]
  · rw [hback.syncState]

end Rollback

/-- A cut to a checkpoint at which the tree was empty. -/
def cutEmptyTree : TruncateTree := fun id tree =>
  .ok { tree with
    cap := some [1, 0]
    shards := ∅
    marksRemoved := tree.marksRemoved.filter fun row => decide (row.1 < id)
    checkpoints := tree.checkpoints.filter fun stored _ => decide (stored ≤ id) }

theorem cutEmptyTree_truncates : TruncatesTo cutEmptyTree where
  keeps id tree after _ hafter other := by
    obtain rfl := Except.ok.inj hafter
    dsimp only
    rw [Std.ExtTreeMap.mem_filter]
    simp
  composes first second tree after hle _ _ hafter := by
    obtain rfl := Except.ok.inj hafter
    unfold cutEmptyTree
    dsimp only
    congr 3
    · refine Std.ExtTreeMap.ext_getElem? fun stored => ?_
      rw [Std.ExtTreeMap.getElem?_filter', Std.ExtTreeMap.getElem?_filter',
        Std.ExtTreeMap.getElem?_filter', Option.filter_filter]
      congr 1
      funext position
      rw [← Bool.decide_and, decide_eq_decide]
      exact ⟨And.right, fun hbelow => ⟨hbelow.trans hle, hbelow⟩⟩
    · rw [List.filter_filter]
      refine List.filter_congr fun row _ => ?_
      rw [← Bool.decide_and, decide_eq_decide]
      exact ⟨And.left, fun hbelow => ⟨hbelow, hbelow.trans_le hle⟩⟩

theorem five_lt : 5 < 4294967296 := by decide

/-- A note at height 3 that a transaction at height 9 spends, a note at height 9, and a checkpoint
of the empty trees at height 5. -/
def rollbackWallet : StoredWallet where
  notes :=
    { rows := [
        { id := 1, noteType := .sapling, accountId := .blob [], value := .blob [],
          nullifier := .blob [], commitment := .blob [], spent := .blob [1],
          height := .integer 3, txid := .blob [], outputIndex := .blob [],
          spentTxid := some (.blob (List.replicate 32 7)), diversifier := none, note := none,
          position := some (.integer 70000), memo := none, addressId := none, keyId := none },
        { id := 2, noteType := .sapling, accountId := .blob [], value := .blob [],
          nullifier := .blob [], commitment := .blob [], spent := .blob [0],
          height := .integer 9, txid := .blob [], outputIndex := .blob [], spentTxid := none,
          diversifier := none, note := none, position := some (.integer 70001), memo := none,
          addressId := none, keyId := none }]
      nextId := 3
      ids_nodup := by decide
      ids_lt := by decide }
  unlinkedSpends := AutoTable.empty
  transactions := [⟨1, "0707070707070707070707070707070707070707070707070707070707070707", 9, 0, 0⟩]
  memos := [⟨1, 1, .blob []⟩]
  chainBlocks := [⟨5, [], [], 0⟩, ⟨9, [], [], 0⟩]
  checkpoints := []
  frontierSnapshots := []
  scanQueue := ScanQueue.empty
  saplingTree := { checkpoints := (∅ : Std.ExtTreeMap BlockHeight (Option Int)).insert ⟨5, five_lt⟩ none }
  orchardTree := { checkpoints := (∅ : Std.ExtTreeMap BlockHeight (Option Int)).insert ⟨5, five_lt⟩ none }
  saplingNoteShards := []
  orchardNoteShards := []
  syncState := ⟨9, 9, 9, ""⟩
  spendabilityState := SpendabilityStateRow.default ""

/-- The wallet after a rollback, if it succeeds. -/
def rolledBack (height : Nat) (db : StoredWallet) : StoredWallet :=
  match truncateStored .ok .ok cutEmptyTree cutEmptyTree "" height db with
  | .ok (_, after) => after
  | .error _ => db

theorem truncate_contract_example :
    (rolledBack 6 rollbackWallet).syncState.localHeight = 5 ∧
      SpendsForgotten .ok 6 rollbackWallet (rolledBack 6 rollbackWallet) := by
  have hcontract := @truncate_contract .ok .ok cutEmptyTree cutEmptyTree "" 6 5 rollbackWallet
    (rolledBack 6 rollbackWallet) (fun message encrypted h => h.symm ▸ rfl) cutEmptyTree_truncates
    cutEmptyTree_truncates rfl
  exact ⟨hcontract.1.1, hcontract.2.2.1⟩

end StashiWallet
