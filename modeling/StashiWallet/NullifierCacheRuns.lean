import StashiWallet.BatchPipeline
import StashiWallet.SpendSettlement
import StashiWallet.Runs

/-!
# The nullifier cache over a run

The cache is loaded once, before `sync_range_internal`. Within the run, notes that are
persisted enter it and spends that are applied leave it, and both keep it complete: every
unspent row with a usable nullifier is found. A rollback empties the cache and marks it as
not loaded, but nothing in the run loads it again. So the cache is complete whenever
`apply_spends` reads it as long as no rollback leaves an unspent row behind
(`cache_complete_at_apply_spends`), and a rollback that does leave one makes the engine miss
its spend (`cache_lost_by_repair`).
-/

namespace StashiWallet

/-- A row that is not marked spent. -/
def Unspent (row : NoteRow) : Prop := row.spent = false

theorem openClass_unspent : OpenClass Unspent where
  not_settled := by
    intro row hrow
    have hspent : row.spent = false := hrow
    simp [NoteRecord.settled, hspent]
  congr := by
    intro a b hspent _ ha
    exact hspent.symm.trans ha

/-! ## Rollbacks -/

/-- What truncation does to a row that it keeps. -/
structure Truncated (height : Nat) (orphaned : List Bytes) (row row' : NoteRow) : Prop
    extends SameNote row row' where
  nullifier_eq : row'.nullifier = row.nullifier
  kept : row.height ≤ (height : Int)
  released : row'.spent = false → row.spent = false ∨ row.spentByAny orphaned = true

theorem truncated_rows (now : String) (height : Nat) (db : WalletDb) :
    AutoTable.RowsFrom
      (Truncated height (collectTransactionTxidsAboveHeight db.transactions height)) db.notes
      (db.truncated now height).notes := by
  let orphaned := collectTransactionTxidsAboveHeight db.transactions height
  let Released : NoteRow → NoteRow → Prop := fun row row' =>
    row' = row ∨ (row' = row.unspend ∧ row.spentByAny orphaned = true)
  have hreset : AutoTable.RowsFrom Released db.notes (resetNotesSpentByTxids orphaned db.notes) :=
    AutoTable.rowsFrom_updateWhere (fun _ _ hp => .inr ⟨rfl, hp⟩) (fun _ _ _ => .inl rfl)
  let Kept : NoteRow → NoteRow → Prop := fun row row' => row' = row ∧ row.height ≤ (height : Int)
  have hdelete : AutoTable.RowsFrom Kept (resetNotesSpentByTxids orphaned db.notes)
      (db.truncated now height).notes :=
    AutoTable.rowsFrom_deleteWhere fun row _ hp => ⟨rfl, by simpa using hp⟩
  refine AutoTable.RowsFrom.trans ?_ hreset hdelete
  rintro row middle row' (rfl | ⟨rfl, hspentBy⟩) ⟨rfl, hheight⟩
  · exact ⟨.refl _, rfl, hheight, .inl⟩
  · exact ⟨⟨rfl, rfl, rfl⟩, rfl, hheight, fun _ => .inr hspentBy⟩

/-- The rollback to `height` leaves no unspent row of the account with a usable nullifier:
every such row at or below the height is spent, by a transaction that is kept. -/
def LeavesNoneUnspent (accountId : Int) (height : Nat) (db : WalletDb) : Prop :=
  ∀ row ∈ db.notes.ofAccount accountId, row.height ≤ (height : Int) →
    usableNullifier row.nullifier = true → row.spent = true ∧
      row.spentByAny (collectTransactionTxidsAboveHeight db.transactions height) = false

/-! ## One event -/

/-- What the cache invariant needs of the next event, in the state before it. -/
def KeepsCache (owner : Bytes → OutputKey) (engine : SyncEngine) : SyncEvent → Prop
  | .write (.persistNotes input) => BatchOwned owner input.notes
  | .write (.applySpends input) =>
    DeriveOwned input.keys engine.accountId owner engine.db.notes ∧
      (input.applyFault ≠ none → NullifiersSettled input engine.accountId engine.db.notes)
  | .write _ => True
  | .repairRollback _ repairStart =>
    LeavesNoneUnspent engine.accountId (repairStart - 1) engine.db
  | .reorgRollback remoteHash _ batchStart =>
    ∀ ancestor, findCommonAncestor remoteHash engine.birthdayHeight (batchStart - 1) engine.db
        = .ok ancestor →
      LeavesNoneUnspent engine.accountId (rollbackHeightFor engine.birthdayHeight ancestor)
        engine.db

/-- What holds between events: nullifiers identify rows, and the cache finds every unspent
one. -/
structure CacheComplete (owner : Bytes → OutputKey) (engine : SyncEngine) : Prop where
  notesOwned : NotesOwned engine.accountId owner engine.db.notes
  covers : Covers Unspent engine.accountId engine.nullifierCache engine.db.notes

section Step

variable {owner : Bytes → OutputKey} {engine rolledBack : SyncEngine}

theorem CacheComplete.of_accountId {accountId : Int} (haccount : engine.accountId = accountId)
    (hnotes : NotesOwned accountId owner engine.db.notes)
    (hcovers : Covers Unspent accountId engine.nullifierCache engine.db.notes) :
    CacheComplete owner engine := by
  subst haccount
  exact ⟨hnotes, hcovers⟩

/-- An engine with the same rows, cache and account. -/
theorem CacheComplete.congr {engine' : SyncEngine} (h : CacheComplete owner engine)
    (haccount : engine'.accountId = engine.accountId)
    (hnotes : engine'.db.notes = engine.db.notes)
    (hcache : engine'.nullifierCache = engine.nullifierCache) : CacheComplete owner engine' := by
  refine CacheComplete.of_accountId haccount ?_ ?_
  · rw [hnotes]
    exact h.notesOwned
  · rw [hnotes, hcache]
    exact h.covers

/-- **A rollback that leaves no unspent row keeps the empty cache complete.** -/
theorem CacheComplete.rollback {now : String} {height replay : Nat}
    (h : CacheComplete owner engine)
    (hnone : LeavesNoneUnspent engine.accountId height engine.db)
    (hrollback : engine.rollbackToCheckpoint now height = .ok (replay, rolledBack)) :
    CacheComplete owner rolledBack := by
  obtain ⟨-, -, hdb, -, haccount⟩ := rollbackToCheckpoint_eq_ok hrollback
  have hrows := truncated_rows now height engine.db
  refine CacheComplete.of_accountId haccount ?_ ?_
  · rw [hdb]
    exact notesOwned_of_rowsFrom (fun _ _ ht => ht.toSameNote) hrows h.notesOwned
      (fun _ _ _ ht _ => .inl ht.nullifier_eq)
  · rw [hdb]
    intro row' hrow' hunspent husable
    obtain ⟨row, hrow, ht⟩ :=
      Notes.ofAccount_of_rowsFrom (fun _ _ ht => ht.toSameNote) hrows hrow'
    obtain ⟨hspent, hkept⟩ := hnone row hrow ht.kept (ht.nullifier_eq ▸ husable)
    rcases ht.released hunspent with hopen | hreleased
    · rw [hspent] at hopen
      cases hopen
    · rw [hkept] at hreleased
      cases hreleased

/-- **One event keeps the cache complete.** -/
theorem CacheComplete.event (h : CacheComplete owner engine) (event : SyncEvent)
    (hevent : KeepsCache owner engine event) : CacheComplete owner (engine.event event) := by
  cases event with
  | write write =>
    cases write with
    | updateCommitmentTrees trees => exact h.congr rfl rfl rfl
    | createCheckpoint trees => exact h.congr rfl rfl rfl
    | saveSyncState blocks flush =>
      have hnotes := (saveSyncState_write engine blocks flush).1
      simp only [SyncEngine.event, SyncEngine.write] at hnotes ⊢
      exact h.congr rfl hnotes rfl
    | persistNotes input =>
      have hspec := SyncEngine.persistNotes_spec openClass_unspent hevent h.notesOwned h.covers
        (fun row _ hunspent hspent => by
          rw [show row.spent = false from hunspent] at hspent
          cases hspent)
      exact CacheComplete.of_accountId (persistNotes_accountId engine input) hspec.1 hspec.2.1
    | applySpends input =>
      have hspec := SyncEngine.applySpends_spec openClass_unspent h.notesOwned h.covers hevent.1
        hevent.2
      exact CacheComplete.of_accountId hspec.accountId_eq hspec.notesOwned hspec.covers
  | repairRollback now repairStart =>
    simp only [SyncEngine.event, SyncEngine.rolledBack]
    split
    · rename_i hrollback
      exact h.rollback hevent hrollback
    · exact h
  | reorgRollback remoteHash now batchStart =>
    simp only [SyncEngine.event, SyncEngine.rolledBack]
    split
    · rename_i hrollback
      -- a rollback to the common ancestor is a rollback to some height
      obtain ⟨ancestor, replay, hancestor, hrollback', -⟩ :=
        rollbackToCommonAncestor_eq_ok hrollback
      exact h.rollback (hevent ancestor hancestor) hrollback'
    · exact h

end Step

/-! ## Whole runs -/

/-- The test before the call of `apply_spends`. -/
def SyncEngine.callsApplySpends (engine : SyncEngine) (input : SpendInput) : Bool :=
  !(input.blocks.isEmpty ||
    (engine.nullifierCache.entries.isEmpty && decide (engine.trackedWalletTxids = ∅)))

/-- A call of `apply_spends` finds the nullifier of every unspent row of the account in the
cache and, unless its write fails, leaves no row unspent whose nullifier the blocks reveal. -/
def SeesUnspent (engine : SyncEngine) : SyncEvent → Prop
  | .write (.applySpends input) => engine.callsApplySpends input = true →
    (∀ row ∈ engine.db.notes.ofAccount engine.accountId, row.spent = false →
      usableNullifier row.nullifier = true →
        (engine.nullifierCache.lookup row.nullifier).isSome = true) ∧
    (input.applyFault = none →
      ∀ row ∈ (engine.applySpends input).db.notes.ofAccount engine.accountId,
        row.spent = false → ¬ Reveals input.blocks row.nullifier)
  | _ => True

theorem CacheComplete.seesUnspent {owner : Bytes → OutputKey} {engine : SyncEngine}
    (h : CacheComplete owner engine) (event : SyncEvent)
    (hevent : KeepsCache owner engine event) : SeesUnspent engine event := by
  cases event with
  | repairRollback now repairStart => trivial
  | reorgRollback remoteHash now batchStart => trivial
  | write write =>
    cases write with
    | updateCommitmentTrees trees => trivial
    | createCheckpoint trees => trivial
    | saveSyncState blocks flush => trivial
    | persistNotes input => trivial
    | applySpends input =>
      intro _
      refine ⟨?_, ?_⟩
      · intro row hrow hunspent husable
        rw [h.covers row hrow hunspent husable]
        rfl
      · intro hsuccess row' hrow' hunspent
        have hspec := SyncEngine.applySpends_spec openClass_unspent h.notesOwned h.covers
          hevent.1 hevent.2
        obtain ⟨row, hrow, houtcome⟩ := hspec.rows row' hrow'
        rcases houtcome.status with hsettled | ⟨hspent, -, hnullifier, hhidden⟩
        · simp [NoteRecord.settled, hunspent] at hsettled
        · rw [hnullifier]
          exact hhidden hsuccess (hspent.symm.trans hunspent)

/-- **When the cache is complete at every call of `apply_spends`.** The run starts from an
engine whose cache is complete if it counts as loaded. Nullifiers identify outputs: the rows,
the decrypted notes and the derived nullifiers agree with `owner`, and the account has one
row per output. If moreover no rollback leaves an unspent row with a usable nullifier, and a
call of `apply_spends` whose write fails has not given a row another nullifier, then every
call of `apply_spends` in the run sees all unspent rows. -/
theorem cache_complete_at_apply_spends (owner : Bytes → OutputKey) (engine : SyncEngine)
    (rounds : List SyncRound)
    (hloaded : engine.nullifierCacheLoaded = true →
      Covers Unspent engine.accountId engine.nullifierCache engine.db.notes)
    (hnotes : NotesOwned engine.accountId owner engine.db.notes)
    (hrounds : Runs.EachStep SyncEngine.event (KeepsCache owner) engine.ensureNullifierCache
      (rounds.flatMap (SyncRound.events engine.birthdayHeight))) :
    Runs.EachStep SyncEngine.event SeesUnspent engine.ensureNullifierCache
      (rounds.flatMap (SyncRound.events engine.birthdayHeight)) := by
  obtain ⟨haccount, hdb, hcovers⟩ :=
    SyncEngine.ensureNullifierCache_spec openClass_unspent hnotes hloaded
  have hstart : CacheComplete owner engine.ensureNullifierCache :=
    CacheComplete.of_accountId haccount (by rwa [hdb]) (by rwa [hdb])
  have hthroughout := Runs.run_invariant (fun _ event h hevent => h.event event hevent) hstart
    hrounds
  intro done event rest hsplit
  have hstate := hthroughout done (by rw [hsplit]; exact List.prefix_append _ _)
  exact hstate.seesUnspent event (hrounds done event rest hsplit)

/-! ### A repair with and without an unspent note -/

/-- A 32-byte value. -/
def bytes32 (byte : UInt8) : Bytes := List.replicate 32 byte

/-- A Sapling note received at height 5 under the nullifier `bytes32 1`. -/
def receivedRow (spent : Bool) : NoteRow where
  accountId := 1
  keyId := none
  noteType := .sapling
  value := 50000
  nullifier := bytes32 1
  commitment := bytes32 11
  spent := spent
  height := 5
  txid := bytes32 21
  outputIndex := 0
  addressId := none
  spentTxid := if spent then some (bytes32 22) else none
  diversifier := none
  note := none
  position := some 0
  memo := none
  id := 1

/-- The engine of an account that holds that note, before a run. -/
def receivedEngine (spent : Bool) : SyncEngine where
  db := { WalletDb.fresh "t" with
    notes :=
      { rows := [receivedRow spent]
        nextId := 2
        ids_nodup := List.nodup_singleton _
        ids_lt := List.forall_mem_singleton.mpr Nat.one_lt_two } }
  accountId := 1
  birthdayHeight := 1
  nullifierCache := ∅
  nullifierCacheLoaded := false
  trackedWalletTxids := ∅
  saplingTreePosition := 0
  orchardTreePosition := 0

/-- The trees of a wallet that appended nothing. -/
def emptyTrees : TreeState := ⟨CommitmentTree.empty, CommitmentTree.empty, 0, 0⟩

/-- A note received at height 9 under the nullifier `bytes32 2`. -/
def replayedNote : DecryptedNote where
  noteType := .sapling
  height := 9
  txid := bytes32 31
  txHash := bytes32 31
  outputIndex := 0
  value := 70000
  commitment := bytes32 12
  nullifier := bytes32 2
  memoBytes := none
  keyId := none
  diversifier := []
  noteBytes := []
  position := some 1

/-- The blocks 9 and 10. The first holds the new note; the second spends a nullifier in a
transaction without outputs. -/
def replayedBlocks (spentNullifier : Bytes) : List CompactBlockData :=
  [⟨1, 9, bytes32 90, bytes32 80, 0, [],
      [⟨none, bytes32 31, none, [], [⟨bytes32 12, [], []⟩], []⟩]⟩,
    ⟨1, 10, bytes32 100, bytes32 90, 0, [],
      [⟨none, bytes32 32, none, [⟨spentNullifier⟩], [], []⟩]⟩]

/-- The batch of these two blocks. -/
def replayedBatch (spentNullifier : Bytes) : SyncBatch where
  persist :=
    { notes := [replayedNote]
      blocks := replayedBlocks spentNullifier
      positionMappings := ⟨∅, ∅⟩
      addressId := fun _ => none
      insertFails := fun _ => false
      timestamp := 0
      now := "t" }
  keys := ⟨false, false, fun _ => []⟩
  unlinkedFault := none
  applyFault := none
  trees := emptyTrees
  checkpoint := none
  flush := none

/-- A repair of the range from block 9 on, then the batch. -/
def repairRounds (spentNullifier : Bytes) : List SyncRound :=
  [.repair "t" 9, .batch (replayedBatch spentNullifier)]

/-- The events of these rounds. -/
theorem repairRounds_events (spentNullifier : Bytes) :
    (repairRounds spentNullifier).flatMap (SyncRound.events 1) =
      [.repairRollback "t" 9, .write (.updateCommitmentTrees emptyTrees),
        .write (.persistNotes (replayedBatch spentNullifier).persist),
        .write (.applySpends ((replayedBatch spentNullifier).spendInput 1))] := rfl

/-- The outputs the two nullifiers belong to. -/
def replayOwner (nullifier : Bytes) : OutputKey :=
  if nullifier = bytes32 1 then (bytes32 21, 0, .sapling) else (bytes32 31, 0, .sapling)

/-- With the old note spent before the repair, the spend of the new note is seen. -/
theorem cache_complete_after_repair :
    Runs.EachStep SyncEngine.event SeesUnspent (receivedEngine true).ensureNullifierCache
      ((repairRounds (bytes32 2)).flatMap
        (SyncRound.events (receivedEngine true).birthdayHeight)) := by
  refine cache_complete_at_apply_spends replayOwner (receivedEngine true)
    (repairRounds (bytes32 2)) nofun ⟨?_, ?_⟩ ?_
  · unfold Notes.OneRowPerOutput
    decide +kernel
  · decide +kernel
  · have hbirthday : (receivedEngine true).birthdayHeight = 1 := rfl
    rw [hbirthday, repairRounds_events]
    simp only [Runs.eachStep_cons, Runs.eachStep_nil, and_true, true_and, KeepsCache,
      LeavesNoneUnspent]
    refine ⟨?_, ⟨?_, ?_⟩, ?_, ?_⟩
    · decide +kernel
    · decide +kernel
    · decide +kernel
    · intro row _ candidate hcandidate
      cases hcandidate
    · intro hfault
      exact absurd rfl hfault

/-- With the old note unspent, the repair empties the cache of it. The call of `apply_spends`
in the batch that follows does not know its nullifier, and the transaction of block 10 that
spends it goes unnoticed. -/
theorem cache_lost_by_repair :
    ¬ Runs.EachStep SyncEngine.event SeesUnspent (receivedEngine false).ensureNullifierCache
      ((repairRounds (bytes32 1)).flatMap
        (SyncRound.events (receivedEngine false).birthdayHeight)) := by
  have hbirthday : (receivedEngine false).birthdayHeight = 1 := rfl
  rw [hbirthday, repairRounds_events]
  intro h
  simp only [Runs.eachStep_cons] at h
  -- the fourth event is the call; the cache holds only the nullifier of the new note
  obtain ⟨-, -, -, hsees, -⟩ := h
  have hcalled := hsees (by decide +kernel)
  have hknown := hcalled.1 (receivedRow false) (by decide +kernel) rfl (by decide +kernel)
  revert hknown
  decide +kernel

end StashiWallet
