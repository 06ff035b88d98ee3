import StashiWallet.ReorgRollback

/-!
# Where a run begins

The engine is given a height, and may begin at another one. It checks the last block it knows
below that height against the server, and goes back if the server has another one. Then it
prepares the trees: at or below the Sapling activation they are built from the activation, and
otherwise taken from a checkpoint, from the server, or, if the server has none, replayed from
an earlier checkpoint.

Nothing lets a run begin above the height it was given, but for the activation: before it there
is nothing to find.
-/

namespace StashiWallet

/-- What the server answers at the start of a run: its tip, the hash of the block at a height,
and whether it has a valid tree state for the start. -/
structure ResumeServer where
  tipHeight : Nat
  remoteHash : Nat → Except SyncError Bytes
  givesTreeState : Bool

inductive ResumeChainPolicy where
  | repairMetadataGap
  | preserveHistoricalBootstrap
deriving DecidableEq, Repr

def matchingResumeHeight (requestedStartHeight localTipHeight : Nat) (metadataGap : Bool)
    (policy : ResumeChainPolicy) : Nat :=
  if metadataGap && policy == .repairMetadataGap then max (saturatingAdd localTipHeight 1) 1
  else requestedStartHeight

/-- `load_latest_chain_block`. -/
def WalletDb.latestChainBlock (db : WalletDb) : Option ChainBlockRow :=
  (db.chainBlocks.insertionSort (fun a b => a.height ≤ b.height)).getLast?

/-- The stored block to check, and whether stored blocks end before the expected height. -/
def WalletDb.localTip (expectedTipHeight : Nat) (db : WalletDb) : Option (ChainBlockRow × Bool) :=
  match db.chainBlocks.find? (fun block => block.height == expectedTipHeight) with
  | some block => some (block, false)
  | none =>
    match db.latestChainBlock with
    | some block => if block.height < expectedTipHeight then some (block, true) else none
    | none => none

/-- `validate_resume_chain`: the height to resume at, and the engine. -/
def SyncEngine.validateResumeChain (server : ResumeServer) (now : String)
    (requestedStartHeight remoteTipHeight : Nat) (policy : ResumeChainPolicy)
    (engine : SyncEngine) : Except SyncError (Nat × SyncEngine) :=
  let expectedTipHeight := requestedStartHeight - 1
  if expectedTipHeight = 0 ∨ remoteTipHeight < expectedTipHeight then
    .ok (requestedStartHeight, engine)
  else
    match engine.db.localTip expectedTipHeight with
    | none => .ok (requestedStartHeight, engine)
    | some (localTip, metadataGap) =>
      if localTip.height = 0 ∨ remoteTipHeight < localTip.height then
        .ok (requestedStartHeight, engine)
      else do
        let remote ← server.remoteHash (← heightToU32 localTip.height)
        if remote = localTip.hash then
          let resumeHeight := matchingResumeHeight requestedStartHeight localTip.height
            metadataGap policy
          if resumeHeight ≠ requestedStartHeight then
            let (_, rolledBack) ← engine.rollbackToCheckpoint now localTip.height
            return (resumeHeight, rolledBack)
          else return (resumeHeight, engine)
        else engine.rollbackToCommonAncestor server.remoteHash now localTip.height

inductive FrontierInitSource where
  | localSnapshot
  | remoteTreeState
  | replayFrom (height : Nat)
deriving DecidableEq, Repr

def SyncEngine.partialTreeReplayCheckpoint (requestedTreeHeight saplingActivation : Nat)
    (engine : SyncEngine) : Option Nat :=
  let localHeight := engine.db.syncState.localHeight
  let replayBaseline := saplingActivation - 1
  if localHeight < replayBaseline ∨ requestedTreeHeight ≤ localHeight then none
  else
    (newestCommonCheckpoint engine.db.saplingTree engine.db.orchardTree
      (min localHeight u32Max)).filter
        (fun checkpoint => replayBaseline ≤ checkpoint && checkpoint ≤ localHeight)

/-- `initialize_shardtrees_for_sync`: where the trees come from. -/
def SyncEngine.frontierInitSource (saplingActivation startHeight : Nat) (server : ResumeServer)
    (engine : SyncEngine) : Except SyncError FrontierInitSource :=
  let saplingActivation := max saplingActivation 1
  if startHeight ≤ saplingActivation then .ok (.replayFrom saplingActivation)
  else
    let treeHeight := startHeight - 1
    if engine.db.saplingTree.hasCheckpoint (min treeHeight u32Max) &&
        engine.db.orchardTree.hasCheckpoint (min treeHeight u32Max) then .ok .localSnapshot
    else if server.givesTreeState then .ok .remoteTreeState
    else
      match engine.partialTreeReplayCheckpoint treeHeight saplingActivation with
      | some checkpoint => .ok (.replayFrom (saturatingAdd checkpoint 1))
      | none => .error (.sync s!"Cannot initialize wallet birthday {startHeight}")

/-- The block `sync_range_internal` begins at once the trees are there. -/
def FrontierInitSource.firstBlock (startHeight : Nat) : FrontierInitSource → Nat
  | .replayFrom height => height
  | .localSnapshot | .remoteTreeState => startHeight

/-- The first block of a run. -/
def SyncEngine.firstBlock (saplingActivation : Nat) (server : ResumeServer) (now : String)
    (requestedStartHeight remoteTipHeight : Nat) (policy : ResumeChainPolicy)
    (engine : SyncEngine) : Except SyncError Nat := do
  let resumed ← engine.validateResumeChain server now requestedStartHeight remoteTipHeight policy
  if 0 < resumed.1 then
    let source ← resumed.2.frontierInitSource saplingActivation resumed.1 server
    return source.firstBlock resumed.1
  else return resumed.1

/-! ## A common ancestor is a stored block -/

section Ancestor

variable {remoteHash : Nat → Except SyncError Bytes} {localBlocks : List ChainBlockRow}

theorem probeAgrees_stored {probe : Nat}
    (h : probeAgrees remoteHash localBlocks probe = .ok true) :
    ∃ block ∈ localBlocks, block.height = probe := by
  unfold probeAgrees at h
  cases hfind : localBlocks.find? (fun block => block.height == probe) with
  | none =>
    rw [hfind] at h
    cases h
  | some block =>
    exact ⟨block, List.mem_of_find?_eq_some hfind, by simpa using List.find?_some hfind⟩

theorem backoffSearch_stored {divergentHeight stopHeight rounds distance upperMismatch : Nat}
    {found upper : Nat}
    (h : backoffSearch remoteHash localBlocks divergentHeight stopHeight rounds distance
      upperMismatch = .ok (some found, upper)) :
    ∃ block ∈ localBlocks, block.height = found := by
  induction rounds generalizing distance upperMismatch with
  | zero => cases h
  | succ rounds ih =>
    unfold backoffSearch at h
    obtain ⟨agrees, hprobe, h⟩ := bind_eq_ok h
    cases agrees with
    | true =>
      cases h
      exact probeAgrees_stored hprobe
    | false =>
      rw [if_neg (by decide)] at h
      split at h
      · cases h
      · exact ih h

theorem bisectSearch_stored {rounds lowerMatch upperSearch found : Nat}
    (hlower : ∃ block ∈ localBlocks, block.height = lowerMatch)
    (h : bisectSearch remoteHash localBlocks rounds lowerMatch upperSearch = .ok found) :
    ∃ block ∈ localBlocks, block.height = found := by
  induction rounds generalizing lowerMatch upperSearch with
  | zero =>
    cases h
    exact hlower
  | succ rounds ih =>
    unfold bisectSearch at h
    split at h
    · obtain ⟨agrees, hprobe, h⟩ := bind_eq_ok h
      cases agrees with
      | true => exact ih (probeAgrees_stored hprobe) h
      | false => exact ih hlower h
    · cases h
      exact hlower

theorem walkSearch_stored {blocks : List ChainBlockRow} {found : Nat}
    (h : walkSearch remoteHash blocks = .ok (some found)) :
    ∃ block ∈ blocks, block.height = found := by
  induction blocks with
  | nil => cases h
  | cons stored rest ih =>
    unfold walkSearch at h
    obtain ⟨height, -, h⟩ := bind_eq_ok h
    obtain ⟨remote, -, h⟩ := bind_eq_ok h
    split at h
    · cases h
      exact ⟨stored, List.mem_cons_self, rfl⟩
    · obtain ⟨block, hblock, hfound⟩ := ih h
      exact ⟨block, List.mem_cons_of_mem _ hblock, hfound⟩

theorem loadChainBlocks_le {db : WalletDb} {startHeight endHeight : Nat}
    {blocks : List ChainBlockRow} (h : db.loadChainBlocks startHeight endHeight = .ok blocks)
    {block : ChainBlockRow} (hblock : block ∈ blocks) : block.height ≤ endHeight := by
  unfold WalletDb.loadChainBlocks at h
  split at h
  · cases h
    cases hblock
  · simp only [heightToSqlI64_bind_eq_ok, pure, Except.pure, Except.ok.injEq] at h
    obtain ⟨-, -, rfl⟩ := h
    rw [List.mem_insertionSort] at hblock
    have hrange := (List.mem_filter.mp hblock).2
    simp only [Bool.and_eq_true, decide_eq_true_eq] at hrange
    exact hrange.2

/-- A common ancestor is at or below the height it was searched from. -/
theorem findCommonAncestor_le {birthdayHeight divergentHeight ancestor : Nat} {db : WalletDb}
    (h : findCommonAncestor remoteHash birthdayHeight divergentHeight db = .ok (some ancestor)) :
    ancestor ≤ divergentHeight := by
  unfold findCommonAncestor at h
  dsimp only at h
  obtain ⟨blocks, hblocks, h⟩ := bind_eq_ok h
  have hload : db.loadChainBlocks (max (divergentHeight - maxReorgSearchDepth)
      (birthdayHeight - 1)) divergentHeight = .ok blocks := by
    cases hstored : db.loadChainBlocks (max (divergentHeight - maxReorgSearchDepth)
        (birthdayHeight - 1)) divergentHeight with
    | error e =>
      rw [hstored] at hblocks
      cases hblocks
    | ok stored =>
      rw [hstored] at hblocks
      cases hblocks
      rfl
  have hstored : ∃ block ∈ blocks, block.height = ancestor := by
    split at h
    · obtain ⟨⟨lowerMatch, upper⟩, hbackoff, h⟩ := bind_eq_ok h
      cases lowerMatch with
      | none => cases h
      | some lowerMatch =>
        obtain ⟨found, hfound, h⟩ := bind_eq_ok h
        cases h
        exact bisectSearch_stored (backoffSearch_stored hbackoff) hfound
    · obtain ⟨block, hblock, hheight⟩ := walkSearch_stored h
      exact ⟨block, List.mem_reverse.mp hblock, hheight⟩
  obtain ⟨block, hblock, rfl⟩ := hstored
  exact loadChainBlocks_le hload hblock

end Ancestor

/-! ## The first block -/

theorem saturatingAdd_le_add (a b : Nat) : saturatingAdd a b ≤ a + b := by
  unfold saturatingAdd
  exact min_le_left _ _

theorem localTip_le {db : WalletDb} {expectedTipHeight : Nat} {block : ChainBlockRow}
    {metadataGap : Bool} (h : db.localTip expectedTipHeight = some (block, metadataGap)) :
    block.height ≤ expectedTipHeight := by
  unfold WalletDb.localTip at h
  split at h
  · rename_i stored hfind
    have hheight := List.find?_some hfind
    cases h
    simp only [beq_iff_eq] at hheight
    omega
  · split at h
    · split at h
      · rename_i hbelow
        cases h
        exact le_of_lt hbelow
      · cases h
    · cases h

theorem rollbackToCommonAncestor_le {server : ResumeServer} {now : String}
    {divergentHeight resume : Nat} {engine rolledBack : SyncEngine}
    (h : engine.rollbackToCommonAncestor server.remoteHash now divergentHeight =
      .ok (resume, rolledBack)) :
    resume ≤ max (divergentHeight + 1) (max engine.birthdayHeight 1) := by
  obtain ⟨ancestor, replay, hancestor, -, rfl⟩ := rollbackToCommonAncestor_eq_ok h
  have hadd := saturatingAdd_le_add (rollbackHeightFor engine.birthdayHeight ancestor) 1
  unfold rollbackHeightFor at hadd ⊢
  cases ancestor with
  | none =>
    rw [Option.getD_none] at hadd ⊢
    omega
  | some ancestor =>
    have hle := findCommonAncestor_le hancestor
    rw [Option.getD_some] at hadd ⊢
    omega

/-- A run resumes at or below the height it was given, or at the wallet's birthday. -/
theorem validateResumeChain_le {server : ResumeServer} {now : String}
    {requestedStartHeight remoteTipHeight : Nat} {policy : ResumeChainPolicy}
    {engine resumed : SyncEngine} {resume : Nat}
    (h : engine.validateResumeChain server now requestedStartHeight remoteTipHeight policy =
      .ok (resume, resumed)) :
    resume ≤ max requestedStartHeight (max engine.birthdayHeight 1) := by
  unfold SyncEngine.validateResumeChain at h
  dsimp only at h
  split at h
  · cases h
    exact le_max_left _ _
  rename_i hexpected
  split at h
  · cases h
    exact le_max_left _ _
  rename_i localTip metadataGap htip
  have hbelow := localTip_le htip
  split at h
  · cases h
    exact le_max_left _ _
  obtain ⟨height, -, h⟩ := bind_eq_ok h
  obtain ⟨remote, -, h⟩ := bind_eq_ok h
  have hmatching : matchingResumeHeight requestedStartHeight localTip.height metadataGap policy ≤
      max requestedStartHeight 1 := by
    have hadd := saturatingAdd_le_add localTip.height 1
    unfold matchingResumeHeight
    split
    · omega
    · exact le_max_left _ _
  split at h
  · split at h
    · obtain ⟨⟨treeHeight, rolledBack⟩, -, h⟩ := bind_eq_ok h
      cases h
      omega
    · cases h
      omega
  · have hancestor := rollbackToCommonAncestor_le h
    omega

theorem partialTreeReplayCheckpoint_lt {requestedTreeHeight saplingActivation checkpoint : Nat}
    {engine : SyncEngine}
    (h : engine.partialTreeReplayCheckpoint requestedTreeHeight saplingActivation =
      some checkpoint) : checkpoint < requestedTreeHeight := by
  unfold SyncEngine.partialTreeReplayCheckpoint at h
  dsimp only at h
  split at h
  · cases h
  · rename_i hbelow
    obtain ⟨-, hfilter⟩ := Option.filter_eq_some_iff.mp h
    simp only [Bool.and_eq_true, decide_eq_true_eq] at hfilter
    omega

/-- The trees lead no further than the start, unless the activation is higher. -/
theorem frontierInitSource_le {saplingActivation startHeight : Nat} {server : ResumeServer}
    {engine : SyncEngine} {source : FrontierInitSource}
    (h : engine.frontierInitSource saplingActivation startHeight server = .ok source) :
    source.firstBlock startHeight ≤ max startHeight (max saplingActivation 1) := by
  unfold SyncEngine.frontierInitSource at h
  dsimp only at h
  split at h
  · cases h
    exact le_max_right _ _
  split at h
  · cases h
    exact le_max_left _ _
  split at h
  · cases h
    exact le_max_left _ _
  split at h
  · rename_i checkpoint hcheckpoint
    cases h
    have hlt := partialTreeReplayCheckpoint_lt hcheckpoint
    have hadd := saturatingAdd_le_add checkpoint 1
    unfold FrontierInitSource.firstBlock
    dsimp only
    omega
  · cases h

/-- **A run begins at or below the height it was given,** unless the wallet's birthday or the
Sapling activation is higher. -/
theorem firstBlock_le {saplingActivation : Nat} {server : ResumeServer} {now : String}
    {requestedStartHeight remoteTipHeight : Nat} {policy : ResumeChainPolicy} {engine : SyncEngine}
    {first : Nat} (h : engine.firstBlock saplingActivation server now requestedStartHeight
      remoteTipHeight policy = .ok first) :
    first ≤ max (max requestedStartHeight engine.birthdayHeight) (max saplingActivation 1) := by
  unfold SyncEngine.firstBlock at h
  obtain ⟨⟨startHeight, resumed⟩, hvalidate, h⟩ := bind_eq_ok h
  have hresume := validateResumeChain_le hvalidate
  dsimp only at h
  split at h
  · obtain ⟨source, hsource, h⟩ := bind_eq_ok h
    have hsourceLe := frontierInitSource_le hsource
    cases h
    omega
  · cases h
    omega

end StashiWallet
