import Mathlib.Data.List.Sort
import StashiWallet.SyncEngine

/-!
# Rolling back to a common ancestor

When the remote chain no longer contains the block the wallet stopped at, the engine looks
for the highest block both chains share, cuts the wallet back to it and tells its caller
where to resume. Over a gap-free window of stored blocks the search probes at doubling
distances and then bisects; over a window with gaps it walks down. When nothing agrees it
falls back to the block before the wallet's birthday.

The rows are cut at that ancestor, but the commitment trees can only be cut at a checkpoint
both have. `resume_follows_trees_iff` says when the caller is nevertheless sent to the block
that follows the trees.
-/

namespace StashiWallet

/-- `MAX_REORG_SEARCH_DEPTH`. -/
def maxReorgSearchDepth : Nat := 2000

def heightToU32 (height : Nat) : Except SyncError Nat :=
  if height ≤ u32Max then .ok height
  else .error (.sync s!"Block height {height} exceeds u32::MAX")

def reorgBackoffProbe (divergentHeight stopHeight distance : Nat) : Nat :=
  max (divergentHeight - distance) stopHeight

/-- `load_chain_blocks`: the stored blocks of a height range, ascending. -/
def WalletDb.loadChainBlocks (startHeight endHeight : Nat) (db : WalletDb) :
    Except StorageError (List ChainBlockRow) := do
  if startHeight > endHeight then
    return []
  let startHeight ← heightToSqlI64 startHeight
  let endHeight ← heightToSqlI64 endHeight
  return (db.chainBlocks.filter
    (fun block => startHeight ≤ block.height && block.height ≤ endHeight)).insertionSort
    (fun a b => a.height ≤ b.height)

section Search

-- The hash the server reports for the block at a height.
variable (remoteHash : Nat → Except SyncError Bytes)

/-- Whether the stored block at a probed height is the server's. -/
def probeAgrees (localBlocks : List ChainBlockRow) (probe : Nat) : Except SyncError Bool := do
  let some stored := localBlocks.find? (fun block => block.height == probe)
    | throw (.sync s!"Canonical reorg window is missing probe height {probe}")
  let remote ← remoteHash (← heightToU32 probe)
  return stored.hash == remote

/-- The exponential loop: the first agreeing probe, with the lowest probe known to disagree.
The distance doubles each time round, so the window's length bounds the rounds. -/
def backoffSearch (localBlocks : List ChainBlockRow) (divergentHeight stopHeight : Nat) :
    (rounds distance upperMismatch : Nat) → Except SyncError (Option Nat × Nat)
  | 0, _, upperMismatch => return (none, upperMismatch)
  | rounds + 1, distance, upperMismatch => do
    let probe := reorgBackoffProbe divergentHeight stopHeight distance
    if ← probeAgrees remoteHash localBlocks probe then
      return (some probe, upperMismatch)
    else if probe = stopHeight then
      return (none, probe)
    else
      backoffSearch localBlocks divergentHeight stopHeight rounds (min (distance * 2) u64Max) probe

/-- The bisection between an agreeing height and the last height that may agree. -/
def bisectSearch (localBlocks : List ChainBlockRow) :
    (rounds lowerMatch upperSearch : Nat) → Except SyncError Nat
  | 0, lowerMatch, _ => return lowerMatch
  | rounds + 1, lowerMatch, upperSearch => do
    if lowerMatch < upperSearch then
      let probe := saturatingAdd (saturatingAdd lowerMatch upperSearch) 1 / 2
      if ← probeAgrees remoteHash localBlocks probe then
        bisectSearch localBlocks rounds probe upperSearch
      else
        bisectSearch localBlocks rounds lowerMatch (probe - 1)
    else return lowerMatch

/-- The walk down a window with gaps: the highest stored block the server agrees with. -/
def walkSearch : List ChainBlockRow → Except SyncError (Option Nat)
  | [] => return none
  | stored :: rest => do
    let remote ← remoteHash (← heightToU32 stored.height)
    if stored.hash == remote then
      return some stored.height
    else
      walkSearch rest

/-- `find_common_ancestor_bounded`. -/
def findCommonAncestor (birthdayHeight divergentHeight : Nat) (db : WalletDb) :
    Except SyncError (Option Nat) := do
  let stopHeight := max (divergentHeight - maxReorgSearchDepth) (birthdayHeight - 1)
  let localBlocks ← liftStorage (db.loadChainBlocks stopHeight divergentHeight)
  let expectedRows := saturatingAdd (divergentHeight - stopHeight) 1
  if localBlocks.length = expectedRows then
    let (lowerMatch, upperMismatch) ← backoffSearch remoteHash localBlocks divergentHeight
      stopHeight expectedRows 1 divergentHeight
    match lowerMatch with
    | some lowerMatch =>
      let upperSearch := upperMismatch - 1
      return some (← bisectSearch remoteHash localBlocks (upperSearch - lowerMatch) lowerMatch
        upperSearch)
    | none => return none
  else
    walkSearch remoteHash localBlocks.reverse

/-- The height a rollback cuts to: the common ancestor, or the block before the birthday. -/
def rollbackHeightFor (birthdayHeight : Nat) (ancestor : Option Nat) : Nat :=
  ancestor.getD (birthdayHeight - 1)

/-- `rollback_to_common_ancestor`: the resume height handed to the caller, and the engine.
The height returned by the rollback is not used. -/
def SyncEngine.rollbackToCommonAncestor (now : String) (divergentHeight : Nat)
    (engine : SyncEngine) : Except SyncError (Nat × SyncEngine) := do
  let ancestor ← findCommonAncestor remoteHash engine.birthdayHeight divergentHeight engine.db
  let rollbackHeight := rollbackHeightFor engine.birthdayHeight ancestor
  -- the height the trees were rewound to is dropped here
  let (_, rolledBack) ← engine.rollbackToCheckpoint now rollbackHeight
  return (max (saturatingAdd rollbackHeight 1) 1, rolledBack)

end Search

/-- Everything a successful rollback to a common ancestor does. -/
theorem rollbackToCommonAncestor_eq_ok {remoteHash : Nat → Except SyncError Bytes} {now : String}
    {divergentHeight resume : Nat} {engine rolledBack : SyncEngine}
    (h : engine.rollbackToCommonAncestor remoteHash now divergentHeight = .ok (resume, rolledBack)) :
    ∃ ancestor replay,
      findCommonAncestor remoteHash engine.birthdayHeight divergentHeight engine.db
        = .ok ancestor ∧
      engine.rollbackToCheckpoint now (rollbackHeightFor engine.birthdayHeight ancestor)
        = .ok (replay, rolledBack) ∧
      resume = max (saturatingAdd (rollbackHeightFor engine.birthdayHeight ancestor) 1) 1 := by
  unfold SyncEngine.rollbackToCommonAncestor at h
  cases hancestor : findCommonAncestor remoteHash engine.birthdayHeight divergentHeight
      engine.db with
  | error e =>
    rw [hancestor] at h
    cases h
  | ok ancestor =>
    rw [hancestor] at h
    simp only [bind, Except.bind] at h
    cases hrollback : engine.rollbackToCheckpoint now
        (rollbackHeightFor engine.birthdayHeight ancestor) with
    | error e =>
      rw [hrollback] at h
      cases h
    | ok result =>
      rw [hrollback] at h
      obtain ⟨hresume, hengine⟩ := Prod.mk.inj (Except.ok.inj h)
      exact ⟨ancestor, result.1, rfl, by rw [hrollback, ← hengine], hresume.symm⟩

/-- The trees land on the cut itself exactly when the cut is zero or both trees have a
checkpoint there. -/
theorem newestCommonCheckpoint_getD_eq {sapling orchard : CommitmentTree} {height : Nat} :
    (newestCommonCheckpoint sapling orchard height).getD 0 = height ↔
      height = 0 ∨ (sapling.hasCheckpoint height = true ∧ orchard.hasCheckpoint height = true) := by
  cases hnewest : newestCommonCheckpoint sapling orchard height with
  | none =>
    rw [Option.getD_none]
    constructor
    · intro hzero
      exact Or.inl hzero.symm
    · rintro (hzero | ⟨hsapling, horchard⟩)
      · exact hzero.symm
      · exfalso
        have hmem : height ∈ (sapling.checkpoints.map TreeCheckpoint.checkpointId).filter
            (fun id => id ≤ height && orchard.hasCheckpoint id) := by
          obtain ⟨checkpoint, hcheckpoint, hid⟩ := CommitmentTree.hasCheckpoint_iff.mp hsapling
          refine List.mem_filter.mpr ⟨List.mem_map.mpr ⟨checkpoint, hcheckpoint, hid⟩, ?_⟩
          simp [horchard]
        rw [newestCommonCheckpoint, List.max?_eq_none_iff] at hnewest
        rw [hnewest] at hmem
        simp at hmem
  | some id =>
    obtain ⟨⟨hle, hsapling, horchard⟩, hmax⟩ := newestCommonCheckpoint_eq_some.mp hnewest
    rw [Option.getD_some]
    constructor
    · rintro rfl
      exact Or.inr ⟨hsapling, horchard⟩
    · rintro (rfl | ⟨hsapling', horchard'⟩)
      · omega
      · exact le_antisymm hle (hmax height le_rfl hsapling' horchard')

/-- **Where a reorg resumes, exactly.** Whenever `rollback_to_common_ancestor` succeeds, with
`cut` the height it rolls back to and `replay` the height the truncation rewound the trees to,
the caller is sent to the block directly above the trees if and only if `cut` is zero or both
checkpoint tables hold a checkpoint at `cut`. -/
theorem resume_follows_trees_iff (remoteHash : Nat → Except SyncError Bytes) (now : String)
    (divergentHeight resume : Nat) (engine rolledBack : SyncEngine)
    (h : engine.rollbackToCommonAncestor remoteHash now divergentHeight
      = .ok (resume, rolledBack)) :
    ∃ ancestor, findCommonAncestor remoteHash engine.birthdayHeight divergentHeight engine.db
        = .ok ancestor ∧
      ∃ replay, engine.db.truncateAboveHeight now (rollbackHeightFor engine.birthdayHeight ancestor)
          = .ok (replay, rolledBack.db) ∧
        (resume = replay + 1 ↔
          rollbackHeightFor engine.birthdayHeight ancestor = 0 ∨
          (engine.db.saplingTree.hasCheckpoint
              (rollbackHeightFor engine.birthdayHeight ancestor) = true ∧
            engine.db.orchardTree.hasCheckpoint
              (rollbackHeightFor engine.birthdayHeight ancestor) = true)) := by
  obtain ⟨ancestor, replay, hancestor, hrollback, hresume⟩ := rollbackToCommonAncestor_eq_ok h
  obtain ⟨hfits, hreplay, hdb, -, -⟩ := rollbackToCheckpoint_eq_ok hrollback
  refine ⟨ancestor, hancestor, replay, ?_, ?_⟩
  · exact truncateAboveHeight_eq_ok.mpr ⟨hfits, Prod.ext hreplay hdb⟩
  · -- the cut fits in `i64`, so the saturating successor is the successor
    have hsucc : resume = rollbackHeightFor engine.birthdayHeight ancestor + 1 := by
      rw [hresume, saturatingAdd]
      simp only [i64Max] at hfits
      simp only [u64Max]
      omega
    rw [hsucc, ← newestCommonCheckpoint_getD_eq, ← hreplay]
    omega

/-- A tree with one checkpoint and no leaves. -/
def checkpointOnlyTree (checkpointId : Nat) : CommitmentTree where
  leaves := []
  checkpoints := [⟨checkpointId, none⟩]
  capacity := Nat.zero_le _
  counted := by simp [TreeCheckpoint.leafCount]
  ordered := by simp

/-- An engine that stored the blocks 10 and 11 and whose trees both have one checkpoint. -/
def reorgEngine (checkpointId : Nat) : SyncEngine where
  db := { WalletDb.fresh "t" with
    chainBlocks := [⟨10, [1], [0], 0⟩, ⟨11, [2], [1], 0⟩]
    saplingTree := checkpointOnlyTree checkpointId
    orchardTree := checkpointOnlyTree checkpointId }
  accountId := 1
  birthdayHeight := 1
  nullifierCache := ∅
  nullifierCacheLoaded := true
  trackedWalletTxids := ∅
  saplingTreePosition := 0
  orchardTreePosition := 0

/-- A server that agrees on block 10 and replaced block 11. -/
def reorgServer (height : Nat) : Except SyncError Bytes :=
  .ok (if height = 10 then [1] else [9])

/-- With a checkpoint at the common ancestor the caller resumes right above the trees. -/
theorem resume_follows_trees_at_ancestor :
    ∃ rolledBack, (reorgEngine 10).rollbackToCommonAncestor reorgServer "t" 11
        = .ok (11, rolledBack) ∧
      ∃ replay, (reorgEngine 10).db.truncateAboveHeight "t" 10 = .ok (replay, rolledBack.db) ∧
        11 = replay + 1 := by
  obtain ⟨rolledBack, h⟩ : ∃ rolledBack,
      (reorgEngine 10).rollbackToCommonAncestor reorgServer "t" 11 = .ok (11, rolledBack) :=
    ⟨_, rfl⟩
  obtain ⟨ancestor, hancestor, replay, htruncate, hiff⟩ :=
    resume_follows_trees_iff reorgServer "t" 11 11 (reorgEngine 10) rolledBack h
  have hfound : findCommonAncestor reorgServer 1 11 (reorgEngine 10).db = .ok (some 10) := rfl
  obtain rfl : ancestor = some 10 := Except.ok.inj (hancestor.symm.trans hfound)
  exact ⟨rolledBack, h, replay, htruncate, hiff.mpr (Or.inr ⟨rfl, rfl⟩)⟩

/-- With the last common checkpoint at 5, a reorg with common ancestor 10 rewinds the trees
to 5 and sends the caller to 11: blocks 6 to 10 are never appended again. -/
theorem resume_skips_blocks :
    ∃ rolledBack replay,
      (reorgEngine 5).rollbackToCommonAncestor reorgServer "t" 11 = .ok (11, rolledBack) ∧
      (reorgEngine 5).db.truncateAboveHeight "t" 10 = .ok (replay, rolledBack.db) ∧
      replay = 5 ∧ 11 ≠ replay + 1 :=
  ⟨_, 5, rfl, rfl, rfl, by decide⟩

end StashiWallet
