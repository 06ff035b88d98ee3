import StashiWallet.RescanPlan
import StashiWallet.RunStart
import StashiWallet.SeedDiscoveryRuns
import StashiWallet.SpendabilityStorage

/-!
# Scans of a wallet

An engine takes a snapshot of the account's keys when it is opened. Its run begins where
`RunStart` says and scans block after block; `current_height` is the next one. The engine moves
it otherwise too: back to a queued witness repair, ahead to the compact floor of the server, and,
after a reorganization, back to the common ancestor. Only the last replaces blocks.

A rescan reads the replay floor of the imported keys, prepares the discovery, lowers its start
to the lowest unspent note, rewinds, and opens an engine, all under the operation lock that
key imports take as well. When its run returns, the floor is released and the discovery
finalized.

Beside the wallet a run records which heights have been trial-decrypted with which key, and
which keys the wallet has had since the last import was counted. What a truncation or the
persisting of a batch leaves of the notes is an argument of the step, and so are the tables the
start of a run reads.
-/

namespace StashiWallet

/-- The blocks `first..=last` have been trial-decrypted with a key. -/
structure TriedRange where
  keyId : Nat
  first : Nat
  last : Nat
deriving DecidableEq, Repr

/-- The block has been trial-decrypted with the key. -/
def Tried (tried : List TriedRange) (keyId height : Nat) : Prop :=
  ∃ range ∈ tried, range.keyId = keyId ∧ range.first ≤ height ∧ height ≤ range.last

instance (tried : List TriedRange) (keyId height : Nat) : Decidable (Tried tried keyId height) :=
  inferInstanceAs (Decidable (∃ range ∈ tried, _))

/-- The record without the blocks above a height. -/
def cutTried (height : Nat) (tried : List TriedRange) : List TriedRange :=
  tried.map (fun range => { range with last := min range.last height })

/-- What a rescan has read before it cancels the running sync. -/
structure RescanSetup where
  requestedFromHeight : Nat
  required : Option RequiredKeyReplay
deriving DecidableEq, Repr

/-- What the task of a rescan keeps until its run returns. -/
structure RescanTask where
  effectiveFromHeight : Nat
  required : Option RequiredKeyReplay
  plan : RescanStartPlan
deriving DecidableEq, Repr

/-- The engine's part in all this. `stretchFrom` is the height from which it has scanned without
a gap, `skippedTo` the highest height it has moved ahead to, `generation` the import generation
when it was opened. -/
structure ScanEngine where
  keyIds : List Nat
  birthdayHeight : Nat
  generation : Nat
  endHeight : Option Nat
  followTip : Bool
  begun : Bool
  stretchFrom : Nat
  skippedTo : Nat
  currentHeight : Nat
  targetHeight : Nat
  discoveryTip : Option Nat
  rescan : Option RescanTask
deriving DecidableEq, Repr

/-- The wallet. A rescan is under way between its two halves while `setup` or `planned` is
there; `engine` is the last engine opened. `generationKeys` are the keys the account had when
the import generation last changed, and has had ever since. -/
structure WalletScan where
  db : SeedDb
  setup : Option RescanSetup
  planned : Option RescanTask
  engine : Option ScanEngine
  tried : List TriedRange
  generationKeys : List Nat

/-! ## The engine -/

/-- `build_key_group_from_account_key` makes a group of the key. -/
def AccountKey.hasKeyGroup (key : AccountKey) : Bool :=
  key.saplingExtsk.isSome || key.saplingDfvk.isSome || key.orchardExtsk.isSome ||
    key.orchardFvk.isSome

/-- `get_wallet_birthday_height`. -/
def AccountKeys.birthdayHeight (accountId : Int) (keys : AccountKeys) : Option Int :=
  ((keys.ofAccount accountId).map
    (fun row => if 0 < row.birthdayHeight then row.birthdayHeight else 1)).min?

def SeedDb.loadState (now : String) (db : SeedDb) : SpendabilityStateRow :=
  db.imports.spendabilityState.getD (.default now)

/-- A floor is pending, or cannot be read. -/
def SeedDb.replayPending (db : SeedDb) : Bool :=
  match requiredKeyReplay (db.loadState "") with
  | .ok none => false
  | _ => true

/-- The import generation. -/
def SeedDb.generation (db : SeedDb) : Nat := (db.loadState "").keyImportGeneration

/-- The keys of the account that an engine would load. -/
def SeedDb.scanKeyIds (accountId : Int) (db : SeedDb) : List Nat :=
  ((db.imports.keys.ofAccount accountId).filter (·.hasKeyGroup)).map (·.id)

/-- `with_wallet_at_path` for an account that has keys: the engine, which starts at `start`.
Where it rewinds the wallet first, for a pending replay of seed keys, the changes to the row and
to the notes are steps of their own. -/
def SeedDb.openEngine (accountId : Int) (birthdayHeight start : Nat) (endHeight : Option Nat)
    (followTip : Bool) (rescan : Option RescanTask) (db : SeedDb) : ScanEngine where
  keyIds := db.scanKeyIds accountId
  birthdayHeight :=
    match db.imports.keys.birthdayHeight accountId with
    | some birthday => min birthdayHeight birthday.toNat
    | none => birthdayHeight
  generation := db.generation
  endHeight
  followTip
  begun := false
  stretchFrom := start
  skippedTo := 0
  currentHeight := start
  targetHeight := 0
  discoveryTip := none
  rescan

def selectSyncTarget (startHeight : Nat) (requestedEnd : Option Nat) (serverHeight : Nat)
    (followTip : Bool) : Nat :=
  match requestedEnd with
  | some endHeight => endHeight
  | none => if followTip then serverHeight else max serverHeight startHeight

namespace ScanEngine

/-- `current_height` is set. A stretch goes on from a lower height; a higher one breaks it. -/
def moveTo (height : Nat) (engine : ScanEngine) : ScanEngine :=
  if height ≤ engine.currentHeight then
    { engine with stretchFrom := min engine.stretchFrom height, currentHeight := height }
  else
    { engine with
      stretchFrom := height
      skippedTo := max engine.skippedTo height
      currentHeight := height }

/-- `sync_range_with_mode` up to the first block. -/
def beginRun (saplingActivation : Nat) (server : ResumeServer) (now : String) (sync : SyncEngine)
    (engine : ScanEngine) : Except SyncError ScanEngine :=
  let policy := if engine.rescan.isSome then .preserveHistoricalBootstrap else .repairMetadataGap
  let target := selectSyncTarget engine.currentHeight engine.endHeight server.tipHeight
    engine.followTip
  do
    let first ← { sync with birthdayHeight := engine.birthdayHeight }.firstBlock saplingActivation
      server now engine.currentHeight target policy
    return { engine.moveTo first with
      begun := true
      targetHeight := target
      discoveryTip := if engine.endHeight.isNone then some server.tipHeight else none }

/-- The ranges a batch that ends at `batchEnd` adds: `wallet_relevant_blocks` leaves out those
below the birthday. -/
def triedBy (batchEnd : Nat) (engine : ScanEngine) : List TriedRange :=
  engine.keyIds.map (fun keyId =>
    ⟨keyId, max engine.currentHeight engine.birthdayHeight, batchEnd⟩)

/-- The condition of `finalize_seed_discovery_at_tip` on the heights. -/
def atDiscoveryTip (engine : ScanEngine) : Bool :=
  match engine.discoveryTip with
  | some tip =>
    max engine.targetHeight tip != 0 && decide (max engine.targetHeight tip < engine.currentHeight)
  | none => false

/-- The run has returned `Ok`. -/
def returned (engine : ScanEngine) : Bool :=
  engine.begun && decide (engine.targetHeight < engine.currentHeight)

end ScanEngine

/-! ## A rescan -/

/-- What a rescan meets between reading the floor and opening its engine: the wallet's secret and
the birthday its registry entry gives, whether the unspent notes can be read, and the clock. The
truncation gives the height the trees are left at, if it succeeds, and the notes. -/
structure RescanReads where
  secret : Option SeedSecret
  walletBirthday : Option Nat
  createdAt : Int
  prepareFault : Option PrepareFault
  notesRead : Bool
  now : String
  priorTargetHeight : Nat
  truncated : Option (Nat × Notes)

/-- The first half of `rescan`: the floor of the imported keys, after their migration. -/
def SeedDb.readRequirement (requestedFromHeight : Nat) (now : String) (db : SeedDb) :
    Except String RescanSetup × SeedDb :=
  if requestedFromHeight = 0 then (.error "Invalid rescan height: must be > 0", db)
  else
    match db.imports.ensureImportedKeyReplayMigration now false none with
    | (.error _, imports) =>
      (.error "Failed to run the imported key replay migration", { db with imports := imports })
    | (.ok _, imports) =>
      let db := { db with imports := imports }
      ((requiredKeyReplay (db.loadState now)).map (fun required =>
        ⟨requestedFromHeight, required⟩), db)

/-- The preparation of the discovery, and the start lowered to the unspent notes. Without a
secret neither is done. -/
def SeedDb.prepareRescan (reads : RescanReads) (effectiveFromHeight : Nat) (db : SeedDb) :
    Except StorageError Nat × SeedDb :=
  match reads.secret with
  | none => (.ok effectiveFromHeight, db)
  | some secret =>
    match db.prepareLegacySaplingAccountDiscovery secret
        (reads.walletBirthday.getD effectiveFromHeight) reads.createdAt reads.prepareFault with
    | (.error error, after) => (.error error, after)
    | (.ok _, after) =>
      (.ok (if reads.notesRead then
        lowerToUnspent effectiveFromHeight (after.notes.getUnspentNotes secret.accountId)
      else effectiveFromHeight), after)

/-- The second half up to the engine: the row says a rescan is under way, and the wallet is
rewound. -/
def SeedDb.planRescan (reads : RescanReads) (setup : RescanSetup) (db : SeedDb) :
    Option RescanTask × SeedDb :=
  match db.prepareRescan reads (clampRescanStart setup.requestedFromHeight setup.required) with
  | (.error _, after) => (none, after)
  | (.ok effectiveFromHeight, after) =>
    let truncateHeight := effectiveFromHeight - 1
    let (targetHeight, anchorHeight) :=
      rescanSpendabilityHeights truncateHeight reads.priorTargetHeight
    match (after.loadState reads.now).beginRescan reads.now targetHeight anchorHeight
        "ERR_RESCAN_REQUIRED" with
    | .error _ => (none, after)
    | .ok _ =>
      let begun := after.imports.spendabilityState.map (fun row =>
        settle row (row.beginRescan reads.now targetHeight anchorHeight "ERR_RESCAN_REQUIRED"))
      match reads.truncated with
      | none => (none, { after with imports := { after.imports with spendabilityState := begun } })
      | some (treeReplayHeight, notes) =>
        (some ⟨effectiveFromHeight, setup.required,
            planRescanStart effectiveFromHeight treeReplayHeight⟩,
          { after with
            notes := notes
            imports := { after.imports with
              spendabilityState := begun.map (fun row =>
                row.truncateAboveHeight reads.now truncateHeight) } })

/-- `complete_required_key_replay`: whether the floor was released, and the tables. -/
def SeedDb.completeRequiredKeyReplay (now : String) (requirement : RequiredKeyReplay)
    (replayedFromHeight : Nat) (db : SeedDb) : Bool × SeedDb :=
  match db.imports.spendabilityState with
  | none => (false, db)
  | some row =>
    match row.completeRequiredRescan now requirement.importGeneration replayedFromHeight with
    | .error _ => (false, db)
    | .ok (changed, row) =>
      (changed, { db with imports := { db.imports with spendabilityState := some row } })

/-! ## Steps -/

/-- What can happen. `call` is a call of the discovery or of an import; `transition` a change of
the spendability row other than the release of a floor. -/
inductive ScanStep where
  | call (call : SeedCall)
  | transition (call : SpendabilityCall)
  | openSync (birthdayHeight start : Nat) (endHeight : Option Nat) (followTip : Bool)
  | readRequirement (requestedFromHeight : Nat) (now : String)
  | planRescan (reads : RescanReads)
  | openRescan
  | abandonRescan
  | beginRun (server : ResumeServer) (now : String) (sync : SyncEngine)
  | resumeAt (height : Nat)
  | skipTo (height : Nat)
  | reorg (ancestor : Nat)
  | scan (batchEnd : Nat) (notes : Notes)
  | followTip (latestHeight : Nat)
  | finalizeAtTip (stopsAfter : Option Nat)
  | completeReplay (now : String)

/-- A call that changes the key inventory of a wallet takes the operation lock. -/
def SeedCall.takesLock : SeedCall → Bool
  | .importKey _ => true
  | .insert .. => true
  | _ => false

namespace WalletScan

/-- A rescan holds the operation lock. -/
def locked (scan : WalletScan) : Bool := scan.setup.isSome || scan.planned.isSome

/-- A change of the last engine. -/
def onEngine (f : ScanEngine → ScanEngine) (scan : WalletScan) : WalletScan :=
  { scan with engine := scan.engine.map f }

/-- `finalize_seed_discovery_at_tip`: the engine goes on with the keys that are left. -/
def finalizeSeedDiscoveryAtTip (accountId : Int) (stopsAfter : Option Nat) (scan : WalletScan) :
    WalletScan :=
  match scan.engine with
  | none => scan
  | some engine =>
    if !engine.atDiscoveryTip || scan.db.discoveryComplete || scan.db.seedKeyScanReplay then scan
    else
      let after := (scan.db.finalizeLegacySaplingAccountDiscovery accountId false stopsAfter).2
      let retained := (after.imports.keys.ofAccount accountId).map (·.id)
      { scan with
        db := after
        engine := some (if after.discoveryComplete then
          { engine with keyIds := engine.keyIds.filter (· ∈ retained) } else engine) }

/-- The task of a rescan whose run has returned releases the floor it began with. -/
def completeReplay (now : String) (scan : WalletScan) : WalletScan :=
  match scan.engine with
  | none => scan
  | some engine =>
    match engine.rescan with
    | none => scan
    | some task =>
      match task.required with
      | none => scan
      | some requirement =>
        if engine.returned then
          { scan with db := (scan.db.completeRequiredKeyReplay now requirement
            task.plan.requestedSyncFromHeight).2 }
        else scan

section Steps

variable (material : IronwoodMaterial) (saplingActivation : Nat) (accountId : Int)

/-- What a step does to the wallet. One that cannot be taken changes nothing. -/
def move (scan : WalletScan) : ScanStep → WalletScan
  | .call call =>
    if scan.locked && call.takesLock then scan
    else { scan with db := scan.db.after material call }
  | .transition call =>
    match call with
    | .completeRequiredRescan .. => scan
    | call =>
      { scan with db := { scan.db with imports := { scan.db.imports with
        spendabilityState := scan.db.imports.spendabilityState.map (fun row =>
          call.rowAfter row) } } }
  | .openSync birthdayHeight start endHeight followTip =>
    -- a pending replay is left to a rescan
    if scan.locked || scan.db.replayPending then scan
    else { scan with
      db := { scan.db with seedKeyScanReplay := false }
      engine := some (scan.db.openEngine accountId birthdayHeight start endHeight followTip
        none) }
  | .readRequirement requestedFromHeight now =>
    if scan.locked then scan
    else
      let (setup, db) := scan.db.readRequirement requestedFromHeight now
      { scan with db := db, setup := setup.toOption }
  | .planRescan reads =>
    match scan.setup with
    | none => scan
    | some setup =>
      let (planned, db) := scan.db.planRescan reads setup
      { scan with db := db, setup := none, planned := planned }
  | .openRescan =>
    match scan.planned with
    | none => scan
    | some task =>
      { scan with
        db := { scan.db with seedKeyScanReplay := false }
        planned := none
        engine := some (scan.db.openEngine accountId task.effectiveFromHeight
          task.plan.requestedSyncFromHeight none false (some task)) }
  | .abandonRescan => { scan with setup := none, planned := none }
  | .beginRun server now sync =>
    scan.onEngine (fun engine =>
      if engine.begun then engine
      else (engine.beginRun saplingActivation server now sync).toOption.getD engine)
  | .resumeAt height =>
    scan.onEngine (fun engine =>
      if height ≤ engine.currentHeight then engine.moveTo height else engine)
  | .skipTo height =>
    scan.onEngine (fun engine =>
      if engine.begun && decide (engine.currentHeight < height ∧ height ≤ engine.targetHeight ∧
        engine.currentHeight ≤ lowHeightBatchCapHeight) then engine.moveTo height
      else engine)
  | .reorg ancestor =>
    { scan.onEngine (fun engine => engine.moveTo (min engine.currentHeight (ancestor + 1))) with
      tried := cutTried ancestor scan.tried }
  | .scan batchEnd notes =>
    match scan.engine with
    | none => scan
    | some engine =>
      if !engine.begun || decide (batchEnd < engine.currentHeight) then scan
      else { scan with
        db := { scan.db with notes := notes }
        engine := some { engine with currentHeight := batchEnd + 1 }
        tried := engine.triedBy batchEnd ++ scan.tried }
  | .followTip latestHeight =>
    scan.onEngine (fun engine =>
      if engine.followTip then { engine with targetHeight := latestHeight } else engine)
  | .finalizeAtTip stopsAfter => scan.finalizeSeedDiscoveryAtTip accountId stopsAfter
  | .completeReplay now => scan.completeReplay now

/-- The keys of the generation once the wallet has changed. -/
def generationKeysAfter (before after : WalletScan) : List Nat :=
  if after.db.generation = before.db.generation then
    before.generationKeys.filter (· ∈ after.db.scanKeyIds accountId)
  else after.db.scanKeyIds accountId

def step (scan : WalletScan) (st : ScanStep) : WalletScan :=
  let after := scan.move material saplingActivation accountId st
  { after with generationKeys := generationKeysAfter accountId scan after }

end Steps

end WalletScan

/-- A wallet that nothing has been recorded of yet. -/
def WalletScan.start (accountId : Int) (db : SeedDb) : WalletScan where
  db := db
  setup := none
  planned := none
  engine := none
  tried := []
  generationKeys := db.scanKeyIds accountId

end StashiWallet
