import StashiWallet.DiscoveryScanRuns
import StashiWallet.SpendabilityRuns

/-!
# The pending replay

An import leaves a floor from which the chain has to be replayed, and counts itself. No step of
the wallet gives the floor up but the end of a rescan, and none takes the count back. A rescan
that finds the floor plans to begin at or below it.
-/

namespace StashiWallet

/-! ## The obligation -/

/-- The height of the pending replay. -/
def SpendabilityStateRow.pendingFloor (row : SpendabilityStateRow) : Option Nat :=
  if row.rescanRequired = true ∧ 0 < row.requiredRescanFromHeight then
    some row.requiredRescanFromHeight
  else none

@[inherit_doc SpendabilityStateRow.pendingFloor]
def SeedDb.pendingFloor (db : SeedDb) : Option Nat :=
  db.imports.spendabilityState.bind (·.pendingFloor)

namespace SpendabilityStateRow

theorem pendingFloor_eq_some {row : SpendabilityStateRow} {floor : Nat} :
    row.pendingFloor = some floor ↔
      row.rescanRequired = true ∧ 0 < floor ∧ row.requiredRescanFromHeight = floor := by
  unfold pendingFloor
  split
  · rename_i h
    constructor
    · intro hfloor
      cases hfloor
      exact ⟨h.1, h.2, rfl⟩
    · rintro ⟨-, -, rfl⟩
      rfl
  · rename_i h
    constructor
    · intro hfloor
      cases hfloor
    · rintro ⟨hrescan, hpos, rfl⟩
      exact absurd ⟨hrescan, hpos⟩ h

/-- The row counts no import less, and no pending replay is given up. -/
structure ReplayKept (row next : SpendabilityStateRow) : Prop where
  generation : row.keyImportGeneration ≤ next.keyImportGeneration
  pending : row.pendingFloor.isSome = true → next.pendingFloor.isSome = true

theorem ReplayKept.trans {a b c : SpendabilityStateRow} (hab : a.ReplayKept b)
    (hbc : b.ReplayKept c) : a.ReplayKept c :=
  ⟨hab.generation.trans hbc.generation, fun h => hbc.pending (hab.pending h)⟩

/-- A row with the same floor that still says a rescan is required. -/
theorem ReplayKept.ofFloor {row next : SpendabilityStateRow}
    (hgeneration : next.keyImportGeneration = row.keyImportGeneration)
    (hrequired : next.requiredRescanFromHeight = row.requiredRescanFromHeight)
    (hrescan : 0 < row.requiredRescanFromHeight → row.rescanRequired = true →
      next.rescanRequired = true) : row.ReplayKept next := by
  refine ⟨hgeneration.ge, fun hpending => ?_⟩
  obtain ⟨floor, hfloor⟩ := Option.isSome_iff_exists.mp hpending
  obtain ⟨hrow, hpos, hrequiredFloor⟩ := pendingFloor_eq_some.mp hfloor
  have hnext : next.pendingFloor = some floor := pendingFloor_eq_some.mpr
    ⟨hrescan (hrequiredFloor ▸ hpos) hrow, hpos, hrequired.trans hrequiredFloor⟩
  rw [hnext]
  rfl

theorem ReplayKept.requireReplay {row : SpendabilityStateRow} {now reasonCode : String}
    {birthday : Int} (hpos : 0 < birthday) :
    row.ReplayKept (row.requireReplay now reasonCode birthday) := by
  refine ⟨Nat.le_succ _, fun _ => ?_⟩
  have hfloor : 0 < (row.requireReplay now reasonCode birthday).requiredRescanFromHeight := by
    unfold SpendabilityStateRow.requireReplay
    dsimp only
    split
    · rename_i h
      exact h.1
    · omega
  rw [pendingFloor_eq_some.mpr ⟨rfl, hfloor, rfl⟩]
  rfl

theorem ReplayKept.truncateAboveHeight (row : SpendabilityStateRow) (now : String)
    (height : Nat) : row.ReplayKept (row.truncateAboveHeight now height) :=
  ReplayKept.ofFloor rfl rfl (fun _ h => h)

/-- A transition that does not complete the replay. -/
theorem ReplayKept.rowAfter (row : SpendabilityStateRow) {call : SpendabilityCall}
    (hidle : ¬ call.completesIn row) : row.ReplayKept (call.rowAfter row) := by
  have hmove := rowMove_rowAfter row call
  cases hmove.gate with
  | kept _ hrescan hrequired _ _ _ =>
    exact ReplayKept.ofFloor hmove.generation hrequired (fun _ h => hrescan.trans h)
  | gated _ hrescan hrequired _ => exact ReplayKept.ofFloor hmove.generation hrequired hrescan
  | validated _ hrescan hrequired _ _ =>
    exact ReplayKept.ofFloor hmove.generation hrequired (fun hpos _ =>
      hrescan.trans (decide_eq_true hpos))
  | completed hcompletes _ _ _ _ _ => exact absurd hcompletes hidle

end SpendabilityStateRow

namespace SeedDb

@[inherit_doc SpendabilityStateRow.ReplayKept]
structure ReplayKept (before after : SeedDb) : Prop where
  generation : before.generation ≤ after.generation
  pending : before.pendingFloor.isSome = true → after.pendingFloor.isSome = true

theorem ReplayKept.refl (db : SeedDb) : db.ReplayKept db := ⟨le_refl _, id⟩

theorem ReplayKept.trans {a b c : SeedDb} (hab : a.ReplayKept b) (hbc : b.ReplayKept c) :
    a.ReplayKept c :=
  ⟨hab.generation.trans hbc.generation, fun h => hbc.pending (hab.pending h)⟩

theorem ReplayKept.ofSame {before after : SeedDb}
    (h : after.imports.spendabilityState = before.imports.spendabilityState) :
    before.ReplayKept after := by
  constructor
  · unfold SeedDb.generation SeedDb.loadState
    rw [h]
  · unfold SeedDb.pendingFloor
    rw [h]
    exact id

theorem ReplayKept.ofMap {before after : SeedDb} {f : SpendabilityStateRow → SpendabilityStateRow}
    (hafter : after.imports.spendabilityState = before.imports.spendabilityState.map f)
    (hf : ∀ row : SpendabilityStateRow, row.ReplayKept (f row)) : before.ReplayKept after := by
  cases hrow : before.imports.spendabilityState with
  | none =>
    rw [hrow] at hafter
    exact ReplayKept.ofSame (hafter.trans hrow.symm)
  | some row =>
    rw [hrow] at hafter
    constructor
    · unfold SeedDb.generation SeedDb.loadState
      rw [hafter, hrow]
      exact (hf row).generation
    · unfold SeedDb.pendingFloor
      rw [hafter, hrow]
      exact (hf row).pending

/-- The two wallets have the same spendability row and the same notes. -/
structure Beside (before after : SeedDb) : Prop where
  row : after.imports.spendabilityState = before.imports.spendabilityState
  notes : after.notes = before.notes

theorem Beside.refl (db : SeedDb) : db.Beside db := ⟨rfl, rfl⟩

theorem Beside.trans {a b c : SeedDb} (hab : a.Beside b) (hbc : b.Beside c) : a.Beside c :=
  ⟨hbc.row.trans hab.row, hbc.notes.trans hab.notes⟩

/-! ### The calls of the discovery -/

theorem insertLoop_beside (accountId : Int) (accounts : List SeedAccount) (expected : Nat)
    (db : SeedDb) : db.Beside (db.insertLoop accountId expected accounts).2 := by
  induction accounts generalizing expected db with
  | nil => exact Beside.refl db
  | cons account rest ih =>
    obtain ⟨derivationIndex, id, key⟩ := account
    unfold SeedDb.insertLoop
    split
    · exact Beside.refl db
    split
    · exact Beside.refl db
    dsimp only
    split
    · exact ⟨rfl, rfl⟩
    · refine Beside.trans ?_ (ih (expected + 1) _)
      exact ⟨rfl, rfl⟩

theorem insertSeedDerivedAccounts_beside (accountId : Int) (expectedPreviousIndex : Option Nat)
    (accounts : List SeedAccount) (joined refused : Bool) (db : SeedDb) :
    db.Beside (db.insertSeedDerivedAccounts accountId expectedPreviousIndex accounts joined
      refused).2 :=
  insertSeedDerivedAccounts_related Beside.refl (fun _ _ hloop => ⟨hloop.row, hloop.notes⟩)
    (insertLoop_beside accountId accounts · db) expectedPreviousIndex joined refused

section Preparation

variable {derive : Nat → Except StorageError (Bytes × Bytes)} {accountId birthdayHeight : Int}
  {createdAt : Int} {stored : AccountKeys} {fault : Option PrepareFault}

theorem prepareIndex_beside (derivationIndex : Nat) (db : SeedDb) :
    db.Beside (db.prepareIndex derive accountId birthdayHeight createdAt stored fault
      derivationIndex).2 := by
  unfold SeedDb.prepareIndex
  split
  · exact Beside.refl db
  split
  · split
    · exact Beside.refl db
    split
    · exact Beside.refl db
    · exact ⟨rfl, rfl⟩
  · split
    · exact Beside.refl db
    dsimp only
    split
    · exact ⟨rfl, rfl⟩
    split
    · exact ⟨rfl, rfl⟩
    · exact ⟨rfl, rfl⟩

theorem prepareLoop_beside {recorded indices : List Nat} {db after : SeedDb}
    {result : Except StorageError (Nat × Nat)}
    (h : db.prepareLoop derive accountId birthdayHeight createdAt stored recorded fault indices =
      (result, after)) : db.Beside after := by
  induction indices generalizing db result with
  | nil =>
    cases h
    exact Beside.refl _
  | cons index rest ih =>
    have hfirst := @prepareIndex_beside derive accountId birthdayHeight createdAt stored fault
      index db
    unfold SeedDb.prepareLoop at h
    split at h
    · exact ih h
    split at h
    · rename_i error next hindex
      rw [hindex] at hfirst
      cases h
      exact hfirst
    · rename_i linked next hindex
      rw [hindex] at hfirst
      cases h
      exact hfirst.trans (ih rfl)

end Preparation

theorem prepareLegacySaplingAccountDiscovery_beside (secret : SeedSecret)
    (birthdayHeight createdAt : Int) (fault : Option PrepareFault) (db : SeedDb) :
    db.Beside (db.prepareLegacySaplingAccountDiscovery secret birthdayHeight createdAt fault).2 := by
  unfold SeedDb.prepareLegacySaplingAccountDiscovery
  split
  · split
    · exact Beside.refl db
    split
    · exact Beside.refl db
    · exact Beside.refl db
    · split
      · rename_i error after hafter
        exact prepareLoop_beside hafter
      · rename_i added linked after hafter
        have hloop := prepareLoop_beside hafter
        split
        · exact hloop
        split
        · exact hloop
        · exact hloop
  · exact Beside.refl db

theorem settleCandidates_beside (usedKeyIds : List Int) (candidates : List SeedDerivedRow)
    (outcome : SeedAccountDiscoveryFinalization × SeedDb) :
    outcome.2.Beside (candidates.foldl (fun outcome candidate =>
      SeedDb.settleCandidate usedKeyIds candidate outcome) outcome).2 := by
  induction candidates generalizing outcome with
  | nil => exact Beside.refl outcome.2
  | cons candidate rest ih =>
    have hfirst : outcome.2.Beside (SeedDb.settleCandidate usedKeyIds candidate outcome).2 := by
      unfold SeedDb.settleCandidate
      dsimp only
      split
      · exact ⟨rfl, rfl⟩
      · exact ⟨rfl, rfl⟩
    exact hfirst.trans (ih _)

theorem finalizeLegacySaplingAccountDiscovery_beside (accountId : Int) (joined : Bool)
    (stopsAfter : Option Nat) (db : SeedDb) :
    db.Beside (db.finalizeLegacySaplingAccountDiscovery accountId joined stopsAfter).2 := by
  unfold SeedDb.finalizeLegacySaplingAccountDiscovery
  split
  · exact Beside.refl db
  split
  · exact Beside.refl db
  split
  · exact Beside.refl db
  dsimp only
  split
  · cases joined with
    | false => exact Beside.refl db
    | true => exact settleCandidates_beside _ _ (_, db)
  · have hsettled := settleCandidates_beside (db.notes.usedKeyIds accountId)
    obtain ⟨hrow, hnotes⟩ := hsettled _ (⟨0, 0, none⟩, db)
    exact ⟨hrow, hnotes⟩

/-- A call of the discovery or of an import keeps the obligation. -/
theorem replayKept_after (material : IronwoodMaterial) (db : SeedDb) (call : SeedCall) :
    db.ReplayKept (db.after material call) := by
  cases call with
  | prepare secret birthdayHeight createdAt fault =>
    exact ReplayKept.ofSame
      (prepareLegacySaplingAccountDiscovery_beside secret birthdayHeight createdAt fault db).row
  | insert accountId expectedPreviousIndex accounts joined refused =>
    exact ReplayKept.ofSame (insertSeedDerivedAccounts_beside accountId expectedPreviousIndex
      accounts joined refused db).row
  | importKey call =>
    cases hrow : db.imports.spendabilityState with
    | none =>
      -- there is no row to count in, so the import fails or records nothing
      refine ReplayKept.ofSame ?_
      show (db.imports.call material call).2.spendabilityState = _
      cases hcall : db.imports.call material call with
      | mk result after =>
        cases result with
        | error error => exact (call_eq_error hcall).1
        | ok recorded =>
          have hafter := (call_eq_ok hcall).1
          cases recorded with
          | none => exact hafter
          | some birthday =>
            obtain ⟨row, now, reasonCode, hbefore, -⟩ := hafter
            rw [hrow] at hbefore
            cases hbefore
    | some row =>
      have hafter := @row_after material db.imports row hrow call
      cases hrecords : db.imports.records material call with
      | none =>
        rw [hrecords] at hafter
        exact ReplayKept.ofSame (hafter.trans hrow.symm)
      | some birthday =>
        rw [hrecords] at hafter
        obtain ⟨hpos, now, reasonCode, hnext⟩ := hafter
        refine @ReplayKept.ofMap db _ (fun row => row.requireReplay now reasonCode birthday) ?_
          (fun row => SpendabilityStateRow.ReplayKept.requireReplay hpos)
        rw [hrow]
        exact hnext
  | persistNotes notes => exact ReplayKept.ofSame rfl
  | finalize accountId joined stopsAfter =>
    exact ReplayKept.ofSame
      (finalizeLegacySaplingAccountDiscovery_beside accountId joined stopsAfter db).row

end SeedDb

/-! ## Planning -/

/-- The heights of the unspent notes that a rescan can read. -/
def RescanReads.unspentHeights (reads : RescanReads) (db : SeedDb) : List Nat :=
  match reads.secret with
  | some secret =>
    if reads.notesRead then
      (db.notes.getUnspentNotes secret.accountId).filterMap (fun note => u32TryFrom note.height)
    else []
  | none => []

/-- What the first half of a rescan has read. -/
structure SetupBelow (lower : List Nat) (generation : Nat) (setup : RescanSetup) : Prop where
  lower : ∀ height ∈ lower, clampRescanStart setup.requestedFromHeight setup.required ≤ height
  generation : ∀ requirement ∈ setup.required, requirement.importGeneration ≤ generation

/-- What the task of a rescan keeps. -/
structure TaskBelow (lower : List Nat) (generation : Nat) (task : RescanTask) : Prop where
  lower : ∀ height ∈ lower, task.plan.requestedSyncFromHeight ≤ max height 1
  effective : task.effectiveFromHeight ≤ task.plan.requestedSyncFromHeight
  generation : ∀ requirement ∈ task.required, requirement.importGeneration ≤ generation

theorem SetupBelow.mono {lower : List Nat} {generation later : Nat} {setup : RescanSetup}
    (h : SetupBelow lower generation setup) (hle : generation ≤ later) :
    SetupBelow lower later setup :=
  ⟨h.lower, fun requirement hrequirement => (h.generation requirement hrequirement).trans hle⟩

theorem TaskBelow.mono {lower : List Nat} {generation later : Nat} {task : RescanTask}
    (h : TaskBelow lower generation task) (hle : generation ≤ later) :
    TaskBelow lower later task :=
  ⟨h.lower, h.effective,
    fun requirement hrequirement => (h.generation requirement hrequirement).trans hle⟩

/-- The floor read is the pending one, with the count of the imports. -/
theorem requiredKeyReplay_eq_ok {state : SpendabilityStateRow}
    {required : Option RequiredKeyReplay} (h : requiredKeyReplay state = .ok required) :
    required = state.pendingFloor.map (fun floor => ⟨floor, state.keyImportGeneration⟩) := by
  unfold requiredKeyReplay at h
  split at h
  · rename_i hnone
    cases h
    have hfloor : state.pendingFloor = none := by
      unfold SpendabilityStateRow.pendingFloor
      rw [if_neg]
      rintro ⟨hrescan, hpos⟩
      rcases hnone with hnone | hnone
      · exact absurd (hnone.symm.trans hrescan) (by decide)
      · omega
    rw [hfloor]
    rfl
  · rename_i hsome
    split at h
    · cases h
    · cases h
      have hrescan : state.rescanRequired = true := by
        cases hvalue : state.rescanRequired with
        | true => rfl
        | false => exact absurd (Or.inl hvalue) hsome
      have hpos : 0 < state.requiredRescanFromHeight :=
        Nat.pos_of_ne_zero (fun hzero => hsome (Or.inr hzero))
      rw [SpendabilityStateRow.pendingFloor_eq_some.mpr ⟨hrescan, hpos, rfl⟩]
      rfl

/-- The row as it is loaded: a wallet without one has nothing pending. -/
theorem loadState_pendingFloor (now : String) (db : SeedDb) :
    (db.loadState now).pendingFloor = db.pendingFloor := by
  unfold SeedDb.loadState SeedDb.pendingFloor
  cases db.imports.spendabilityState with
  | none => rfl
  | some row => rfl

theorem loadState_generation (now : String) (db : SeedDb) :
    (db.loadState now).keyImportGeneration = db.generation := by
  unfold SeedDb.generation SeedDb.loadState
  cases db.imports.spendabilityState with
  | none => rfl
  | some row => rfl

theorem readRequirement_kept (material : IronwoodMaterial) (requestedFromHeight : Nat)
    (now : String) (db : SeedDb) :
    db.ReplayKept (db.readRequirement requestedFromHeight now).2 := by
  -- the migration is an import like the others
  have hmigrate : db.ReplayKept { db with
      imports := (db.imports.ensureImportedKeyReplayMigration now false none).2 } :=
    SeedDb.replayKept_after material db (.importKey (.migrate now false none))
  unfold SeedDb.readRequirement
  split
  · exact SeedDb.ReplayKept.refl db
  split
  · rename_i error imports hafter
    rw [hafter] at hmigrate
    exact hmigrate
  · rename_i recorded imports hafter
    rw [hafter] at hmigrate
    exact hmigrate

theorem readRequirement_below {requestedFromHeight : Nat} {now : String} {db after : SeedDb}
    {setup : RescanSetup}
    (h : db.readRequirement requestedFromHeight now = (.ok setup, after)) :
    SetupBelow (requestedFromHeight :: after.pendingFloor.toList) after.generation setup := by
  unfold SeedDb.readRequirement at h
  split at h
  · cases h
  split at h
  · cases h
  · rename_i recorded imports hmigrate
    dsimp only at h
    obtain ⟨hsetup, rfl⟩ := Prod.mk.inj h
    cases hrequired : requiredKeyReplay
        (SeedDb.loadState now { db with imports := imports }) with
    | error error =>
      rw [hrequired] at hsetup
      cases hsetup
    | ok required =>
      rw [hrequired] at hsetup
      cases hsetup
      have hread := requiredKeyReplay_eq_ok hrequired
      rw [loadState_pendingFloor, loadState_generation] at hread
      rw [hread]
      constructor
      · intro height hheight
        rcases List.mem_cons.mp hheight with rfl | hfloor
        · exact clampRescanStart_le _ _
        · rw [Option.mem_toList] at hfloor
          rw [Option.mem_def.mp hfloor]
          exact clampRescanStart_le_floor _ _
      · intro requirement hrequirement
        obtain ⟨floor, -, rfl⟩ := Option.mem_map.mp hrequirement
        exact le_refl _

theorem prepareRescan_below {reads : RescanReads} {effectiveFromHeight start : Nat}
    {db after : SeedDb}
    (h : db.prepareRescan reads effectiveFromHeight = (.ok start, after)) :
    start ≤ effectiveFromHeight ∧ ∀ height ∈ reads.unspentHeights db, start ≤ height := by
  unfold SeedDb.prepareRescan at h
  split at h
  · rename_i hsecret
    cases h
    refine ⟨le_refl _, fun height hheight => ?_⟩
    unfold RescanReads.unspentHeights at hheight
    rw [hsecret] at hheight
    cases hheight
  · rename_i secret hsecret
    have hbeside := SeedDb.prepareLegacySaplingAccountDiscovery_beside secret
      (reads.walletBirthday.getD effectiveFromHeight) reads.createdAt reads.prepareFault db
    split at h
    · cases h
    · rename_i prepared next hprepare
      rw [hprepare] at hbeside
      cases h
      unfold RescanReads.unspentHeights
      rw [hsecret, hbeside.notes]
      dsimp only
      split
      · refine ⟨lowerToUnspent_le _ _, fun height hheight => ?_⟩
        obtain ⟨note, hnote, hnoteHeight⟩ := List.mem_filterMap.mp hheight
        exact lowerToUnspent_le_note hnote hnoteHeight
      · exact ⟨le_refl _, fun height hheight => absurd hheight List.not_mem_nil⟩

theorem prepareRescan_kept (reads : RescanReads) (effectiveFromHeight : Nat) (db : SeedDb) :
    db.ReplayKept (db.prepareRescan reads effectiveFromHeight).2 := by
  unfold SeedDb.prepareRescan
  split
  · exact SeedDb.ReplayKept.refl db
  · rename_i secret _
    have hbeside := SeedDb.prepareLegacySaplingAccountDiscovery_beside secret
      (reads.walletBirthday.getD effectiveFromHeight) reads.createdAt reads.prepareFault db
    split
    · rename_i error next hprepare
      rw [hprepare] at hbeside
      exact SeedDb.ReplayKept.ofSame hbeside.row
    · rename_i prepared next hprepare
      rw [hprepare] at hbeside
      exact SeedDb.ReplayKept.ofSame hbeside.row

theorem planRescanStart_below {effectiveFromHeight : Nat} (treeReplayHeight : Nat)
    {lower : List Nat} (hlower : ∀ height ∈ lower, effectiveFromHeight ≤ height) :
    effectiveFromHeight ≤
        (planRescanStart effectiveFromHeight treeReplayHeight).requestedSyncFromHeight ∧
      ∀ height ∈ lower, (planRescanStart effectiveFromHeight
        treeReplayHeight).requestedSyncFromHeight ≤ max height 1 := by
  refine ⟨le_max_left _ _, fun height hheight => ?_⟩
  exact max_le_max_right 1 (hlower height hheight)

theorem planRescan_below {reads : RescanReads} {setup : RescanSetup} {db after : SeedDb}
    {lower : List Nat} {generation : Nat} {task : RescanTask}
    (hsetup : SetupBelow lower generation setup)
    (h : db.planRescan reads setup = (some task, after)) :
    TaskBelow (lower ++ reads.unspentHeights db) generation task := by
  unfold SeedDb.planRescan at h
  split at h
  · cases h
  · rename_i effectiveFromHeight next hprepare
    obtain ⟨hclamped, hnotes⟩ := prepareRescan_below hprepare
    dsimp only at h
    split at h
    · cases h
    split at h
    · cases h
    · cases h
      have hlower : ∀ height ∈ lower ++ reads.unspentHeights db,
          effectiveFromHeight ≤ height := by
        intro height hheight
        rcases List.mem_append.mp hheight with hheight | hheight
        · exact hclamped.trans (hsetup.lower height hheight)
        · exact hnotes height hheight
      rename_i treeReplayHeight _ _
      obtain ⟨heffective, hplan⟩ := planRescanStart_below treeReplayHeight hlower
      exact ⟨hplan, heffective, hsetup.generation⟩

theorem planRescan_kept (reads : RescanReads) (setup : RescanSetup) (db : SeedDb) :
    db.ReplayKept (db.planRescan reads setup).2 := by
  have hprepare := prepareRescan_kept reads
    (clampRescanStart setup.requestedFromHeight setup.required) db
  unfold SeedDb.planRescan
  split
  · rename_i error next hnext
    rw [hnext] at hprepare
    exact hprepare
  · rename_i effectiveFromHeight next hnext
    rw [hnext] at hprepare
    dsimp only
    split
    · exact hprepare
    · -- the row moves by `begin_rescan`, and by the truncation if that succeeds
      have hbegin := fun (row : SpendabilityStateRow) (target anchor : Nat) =>
        @SpendabilityStateRow.ReplayKept.rowAfter row
          (.beginRescan reads.now target anchor "ERR_RESCAN_REQUIRED") id
      split
      · refine hprepare.trans (SeedDb.ReplayKept.ofMap rfl (fun row => hbegin row _ _))
      · refine hprepare.trans (SeedDb.ReplayKept.ofMap (Option.map_map _ _ _) (fun row => ?_))
        exact (hbegin row _ _).trans (SpendabilityStateRow.ReplayKept.truncateAboveHeight _ _ _)

/-! ## What a step keeps -/

section Steps

variable {material : IronwoodMaterial} {saplingActivation : Nat} {accountId : Int}
  {scan : WalletScan}

/-- Only the end of a rescan gives up a pending replay. -/
theorem move_kept {st : ScanStep} (hst : ∀ now, st ≠ .completeReplay now) :
    scan.db.ReplayKept (scan.move material saplingActivation accountId st).db := by
  have hsame := SeedDb.ReplayKept.refl scan.db
  cases st with
  | call call =>
    unfold WalletScan.move
    dsimp only
    split
    · exact hsame
    · exact SeedDb.replayKept_after material scan.db call
  | transition call =>
    cases call with
    | completeRequiredRescan now expectedGeneration replayedFromHeight => exact hsame
    | _ => exact SeedDb.ReplayKept.ofMap rfl (fun row =>
        SpendabilityStateRow.ReplayKept.rowAfter row id)
  | openSync birthdayHeight start endHeight followTip =>
    unfold WalletScan.move
    dsimp only
    split
    · exact hsame
    · exact SeedDb.ReplayKept.ofSame rfl
  | readRequirement requestedFromHeight now =>
    unfold WalletScan.move
    dsimp only
    split
    · exact hsame
    · exact readRequirement_kept material requestedFromHeight now scan.db
  | planRescan reads =>
    unfold WalletScan.move
    dsimp only
    split
    · exact hsame
    · exact planRescan_kept reads _ scan.db
  | openRescan =>
    unfold WalletScan.move
    dsimp only
    split
    · exact hsame
    · exact SeedDb.ReplayKept.ofSame rfl
  | abandonRescan => exact hsame
  | beginRun server now sync => exact hsame
  | resumeAt height => exact hsame
  | skipTo height => exact hsame
  | reorg ancestor => exact hsame
  | scan batchEnd notes =>
    unfold WalletScan.move
    dsimp only
    split
    · exact hsame
    split
    · exact hsame
    · exact SeedDb.ReplayKept.ofSame rfl
  | followTip latestHeight => exact hsame
  | finalizeAtTip stopsAfter =>
    show scan.db.ReplayKept (scan.finalizeSeedDiscoveryAtTip accountId stopsAfter).db
    rcases @finalizeSeedDiscoveryAtTip_eq material accountId scan stopsAfter with
      hunchanged | ⟨engine, -, kept, -, -, -, hafter⟩
    · rw [hunchanged]
      exact hsame
    · rw [hafter]
      exact SeedDb.replayKept_after material scan.db (.finalize accountId false stopsAfter)
  | completeReplay now => exact absurd rfl (hst now)

/-- The end of a rescan: it is that of the floor it has read, or changes nothing. -/
theorem completeReplay_db (now : String) :
    (scan.completeReplay now).db = scan.db ∨
      ∃ engine ∈ scan.engine, ∃ task ∈ engine.rescan, ∃ requirement ∈ task.required,
        engine.returned = true ∧ ∃ row next, scan.db.imports.spendabilityState = some row ∧
          row.rescanCompletedBy requirement.importGeneration task.plan.requestedSyncFromHeight ∧
          (scan.completeReplay now).db = { scan.db with imports :=
            { scan.db.imports with spendabilityState := some next } } ∧
          next.keyImportGeneration = row.keyImportGeneration := by
  unfold WalletScan.completeReplay
  split
  · exact Or.inl rfl
  rename_i engine hengine
  split
  · exact Or.inl rfl
  rename_i task htask
  split
  · exact Or.inl rfl
  rename_i requirement hrequirement
  split
  · rename_i hreturned
    unfold SeedDb.completeRequiredKeyReplay
    dsimp only
    split
    · exact Or.inl rfl
    rename_i row hrow
    split
    · exact Or.inl rfl
    rename_i changed next hnext
    unfold SpendabilityStateRow.completeRequiredRescan at hnext
    obtain ⟨-, hnext⟩ := toSqlI64_bind_eq_ok.mp hnext
    obtain ⟨-, hnext⟩ := toSqlI64_bind_eq_ok.mp hnext
    split at hnext
    · rename_i hcompletes
      cases hnext
      exact Or.inr ⟨engine, hengine, task, htask, requirement, hrequirement, hreturned, row, _,
        hrow, hcompletes, rfl, rfl⟩
    · cases hnext
      left
      rw [← hrow]
  · exact Or.inl rfl

theorem move_generation (st : ScanStep) : scan.db.generation ≤
    (scan.move material saplingActivation accountId st).db.generation := by
  cases st with
  | completeReplay now =>
    show scan.db.generation ≤ (scan.completeReplay now).db.generation
    rcases @completeReplay_db scan now with hsame | ⟨_, _, _, _, _, _, _, row, next, hrow, -,
      hafter, hnext⟩
    · rw [hsame]
    · rw [hafter]
      unfold SeedDb.generation SeedDb.loadState
      rw [hrow]
      exact hnext.ge
  | _ => exact (move_kept (fun now h => by cases h)).generation

end Steps

end StashiWallet
