import StashiWallet.ReplayObligation

/-!
# The replay of imported keys

A rescan reads the floor and the count of the imports, begins at or below the floor, and at its
end gives back the count it has read; the floor goes only if no import has been counted since. So
the keys of the engine are those of the last import, and what it has scanned without a gap is the
replay.

The engine may scan less than that in two ways, and both are meant: a run begins at the Sapling
activation if it was given a lower height, and it moves ahead to the compact floor of the server
where the server has no blocks below. `rescan_replays_imports` is stated up to the heights the
engine has moved ahead to; `rescan_begins_above_request` shows that the activation counts.
-/

namespace StashiWallet

/-! ## What a rescan has to replay -/

/-- A wallet, and the heights that the rescan under way must not begin above: the request, the
floor that was pending when it took the lock, and the heights of the unspent notes. `engineLower`
are those of the rescan whose engine was opened last. -/
structure ReplayRun where
  scan : WalletScan
  lower : List Nat
  engineLower : List Nat

namespace ReplayRun

section Steps

variable (material : IronwoodMaterial) (saplingActivation : Nat) (accountId : Int)

def step (run : ReplayRun) (st : ScanStep) : ReplayRun where
  scan := run.scan.step material saplingActivation accountId st
  lower :=
    match st with
    | .readRequirement requestedFromHeight now =>
      if run.scan.locked then run.lower
      else requestedFromHeight ::
        (run.scan.db.readRequirement requestedFromHeight now).2.pendingFloor.toList
    | .planRescan reads =>
      if run.scan.setup.isSome then run.lower ++ reads.unspentHeights run.scan.db else run.lower
    | _ => run.lower
  engineLower :=
    match st with
    | .openRescan => if run.scan.planned.isSome then run.lower else run.engineLower
    | _ => run.engineLower

/-- A run of a rescan begins at or below each of the heights, but for the allowed height. -/
def BeginsLow (allowed : Nat) (run : ReplayRun) (st : ScanStep) : Prop :=
  ∀ server now sync, st = .beginRun server now sync →
    ∀ engine ∈ run.scan.engine, engine.rescan.isSome = true → engine.begun = false →
      ∀ moved ∈ (run.step material saplingActivation accountId st).scan.engine,
        moved.begun = true → ∀ height ∈ run.engineLower, moved.currentHeight ≤ max height allowed

/-- A pending floor goes only at the end of a rescan whose engine was opened in the same import
generation, with all its keys, and has scanned every block from the floor to the tip. All heights
below the one it has passed are excused, those it had scanned before it went ahead included. -/
def ReleasesScanned (passed : ScanEngine → Nat) (run : ReplayRun) (st : ScanStep) : Prop :=
  ∀ floor ∈ run.scan.db.pendingFloor,
    (run.step material saplingActivation accountId st).scan.db.pendingFloor = none →
    ∃ engine ∈ run.scan.engine, engine.rescan.isSome = true ∧
      engine.generation = run.scan.db.generation ∧
      (∃ tip, engine.discoveryTip = some tip ∧ tip < engine.currentHeight) ∧
      ∀ keyId ∈ run.scan.generationKeys, keyId ∈ engine.keyIds ∧
        ∀ height, floor ≤ height → passed engine ≤ height → height < engine.currentHeight →
          Tried run.scan.tried keyId height

/-- Rescans replay what imports ask for: none begins above a height that is asked of it, and a
pending floor is released only after what lies above it was scanned. -/
def ReplaysImports (allowed : Nat) (passed : ScanEngine → Nat) (run : ReplayRun)
    (st : ScanStep) : Prop :=
  run.BeginsLow material saplingActivation accountId allowed st ∧
    run.ReleasesScanned material saplingActivation accountId passed st

end Steps

/-- The wallet at the start. -/
def start (accountId : Int) (db : SeedDb) : ReplayRun := ⟨WalletScan.start accountId db, [], []⟩

end ReplayRun

/-! ## The invariant -/

/-- An engine that runs a rescan. -/
structure ScanEngine.Replays (lower : List Nat) (task : RescanTask) (engine : ScanEngine) :
    Prop where
  below : TaskBelow lower engine.generation task
  birthday : engine.birthdayHeight ≤ task.plan.requestedSyncFromHeight
  stretch : engine.stretchFrom ≤ max task.plan.requestedSyncFromHeight engine.skippedTo
  waiting : engine.begun = false → engine.currentHeight ≤ task.plan.requestedSyncFromHeight
  toLatest : engine.followTip = false ∧ engine.endHeight = none
  tip : engine.begun = true → ∃ tip, engine.discoveryTip = some tip ∧ tip ≤ engine.targetHeight

/-- An engine, in a wallet whose import generation has the given keys. -/
structure ScanEngine.Tracked (lower generationKeys : List Nat) (generation : Nat)
    (engine : ScanEngine) : Prop where
  older : engine.generation ≤ generation
  keys : engine.generation = generation → ∀ keyId ∈ generationKeys, keyId ∈ engine.keyIds
  rescan : ∀ task ∈ engine.rescan, engine.Replays lower task

/-- The heights bound what the rescan has planned, and what is scanned is on record. -/
structure ReplayRun.Tracked (accountId : Int) (run : ReplayRun) : Prop where
  recorded : run.scan.Recorded
  keys : ∀ keyId ∈ run.scan.generationKeys, keyId ∈ run.scan.db.scanKeyIds accountId
  setup : ∀ setup ∈ run.scan.setup, SetupBelow run.lower run.scan.db.generation setup
  planned : ∀ task ∈ run.scan.planned, TaskBelow run.lower run.scan.db.generation task
  engine : ∀ engine ∈ run.scan.engine,
    engine.Tracked run.engineLower run.scan.generationKeys run.scan.db.generation

/-! ### The engine -/

section Engine

variable {lower : List Nat} {task : RescanTask} {engine : ScanEngine} {saplingActivation : Nat}

/-- A move leaves everything but the heights. -/
theorem ScanEngine.moveTo_eq (engine : ScanEngine) (height : Nat) :
    ∃ stretchFrom skippedTo, engine.moveTo height = { engine with
        stretchFrom := stretchFrom
        skippedTo := skippedTo
        currentHeight := height } ∧
      stretchFrom ≤ max engine.stretchFrom skippedTo ∧ engine.skippedTo ≤ skippedTo := by
  unfold ScanEngine.moveTo
  split
  · exact ⟨_, _, rfl, le_max_of_le_left (min_le_left _ _), le_refl _⟩
  · exact ⟨_, _, rfl, le_max_of_le_right (le_max_right _ _), le_max_left _ _⟩

theorem ScanEngine.Replays.moveTo (h : engine.Replays lower task) {height : Nat}
    (hwaiting : engine.begun = false → height ≤ engine.currentHeight) :
    (engine.moveTo height).Replays lower task := by
  obtain ⟨stretchFrom, skippedTo, hmoved, hfrom, hskipped⟩ := engine.moveTo_eq height
  have hstretch := h.stretch
  rw [hmoved]
  refine ⟨h.below, h.birthday, ?_, fun hbegun => ?_, h.toLatest, h.tip⟩
  · show stretchFrom ≤ max task.plan.requestedSyncFromHeight skippedTo
    omega
  · exact (hwaiting hbegun).trans (h.waiting hbegun)

/-- The run of a rescan begins at or below the planned height, unless the activation is higher,
and knows the tip it goes to. -/
theorem ScanEngine.Replays.beginRun (h : engine.Replays lower task) (hbegun : engine.begun = false)
    {server : ResumeServer} {now : String} {sync : SyncEngine} {begun : ScanEngine}
    (hbegin : engine.beginRun saplingActivation server now sync = .ok begun) :
    begun.Replays lower task ∧
      begun.currentHeight ≤ max task.plan.requestedSyncFromHeight (max saplingActivation 1) := by
  obtain ⟨policy, remoteTip, first, hfirst, rfl⟩ := ScanEngine.beginRun_eq_ok hbegin
  have hle : first ≤ max (max engine.currentHeight engine.birthdayHeight)
      (max saplingActivation 1) := firstBlock_le hfirst
  have hcurrent := h.waiting hbegun
  have hbirthday := h.birthday
  have hstretch := h.stretch
  obtain ⟨hnoFollow, hnoEnd⟩ := h.toLatest
  obtain ⟨stretchFrom, skippedTo, hmoved, hfrom, hskipped⟩ := engine.moveTo_eq first
  rw [hmoved]
  refine ⟨⟨h.below, hbirthday, ?_, (fun hwaiting => nomatch hwaiting), h.toLatest,
    fun _ => ?_⟩, ?_⟩
  · show stretchFrom ≤ max task.plan.requestedSyncFromHeight skippedTo
    omega
  · refine ⟨server.tipHeight, ?_, ?_⟩
    · dsimp only
      rw [hnoEnd]
      rfl
    · dsimp only
      rw [hnoEnd, hnoFollow]
      exact le_max_left _ _
  · show first ≤ _
    omega

/-- A rescan's engine as it is opened. -/
theorem replays_opened {db : SeedDb} {accountId : Int} (h : TaskBelow lower db.generation task) :
    (db.openEngine accountId task.effectiveFromHeight task.plan.requestedSyncFromHeight none false
      (some task)).Replays lower task := by
  refine ⟨h, ?_, le_max_left _ _, fun _ => le_refl _, ⟨rfl, rfl⟩, (fun hbegun => nomatch hbegun)⟩
  have heffective := h.effective
  unfold SeedDb.openEngine
  dsimp only
  split
  · omega
  · exact heffective

/-- Another engine with the same keys, of the same generation. -/
theorem ScanEngine.Tracked.congr {generationKeys : List Nat} {generation : Nat}
    {moved : ScanEngine} (h : engine.Tracked lower generationKeys generation)
    (hkeys : moved.keyIds = engine.keyIds) (hgeneration : moved.generation = engine.generation)
    (hrescan : ∀ task ∈ moved.rescan, moved.Replays lower task) :
    moved.Tracked lower generationKeys generation := by
  refine ⟨hgeneration ▸ h.older, fun hsame => ?_, hrescan⟩
  rw [hkeys]
  exact h.keys (hgeneration ▸ hsame)

theorem ScanEngine.Tracked.moveTo {generationKeys : List Nat} {generation height : Nat}
    (h : engine.Tracked lower generationKeys generation)
    (hwaiting : engine.begun = false → height ≤ engine.currentHeight) :
    (engine.moveTo height).Tracked lower generationKeys generation := by
  obtain ⟨stretchFrom, skippedTo, hmoved, -, -⟩ := engine.moveTo_eq height
  refine h.congr (by rw [hmoved]) (by rw [hmoved]) (fun task htask => ?_)
  refine (h.rescan task ?_).moveTo hwaiting
  rw [hmoved] at htask
  exact htask

theorem ScanEngine.Tracked.beginRun {generationKeys : List Nat} {generation : Nat}
    (h : engine.Tracked lower generationKeys generation) (hbegun : engine.begun = false)
    {server : ResumeServer} {now : String} {sync : SyncEngine} {begun : ScanEngine}
    (hbegin : engine.beginRun saplingActivation server now sync = .ok begun) :
    begun.Tracked lower generationKeys generation := by
  obtain ⟨policy, remoteTip, first, -, hbegan⟩ := ScanEngine.beginRun_eq_ok hbegin
  obtain ⟨stretchFrom, skippedTo, hmoved, -, -⟩ := engine.moveTo_eq first
  rw [hmoved] at hbegan
  refine h.congr (by rw [hbegan]) (by rw [hbegan]) (fun task htask => ?_)
  refine ((h.rescan task ?_).beginRun hbegun hbegin).1
  rw [hbegan] at htask
  exact htask

end Engine

/-! ### The keys of a generation -/

section Generations

variable {accountId : Int} {before after : WalletScan}

theorem generationKeysAfter_subset {keyId : Nat}
    (h : keyId ∈ WalletScan.generationKeysAfter accountId before after) :
    keyId ∈ after.db.scanKeyIds accountId := by
  unfold WalletScan.generationKeysAfter at h
  split at h
  · exact of_decide_eq_true (List.mem_filter.mp h).2
  · exact h

/-- While nothing is imported, a generation gets no new keys. -/
theorem mem_generationKeys_of_after (hgeneration : after.db.generation = before.db.generation)
    {keyId : Nat} (h : keyId ∈ WalletScan.generationKeysAfter accountId before after) :
    keyId ∈ before.generationKeys := by
  unfold WalletScan.generationKeysAfter at h
  rw [if_pos hgeneration] at h
  exact List.mem_of_mem_filter h

theorem ScanEngine.Tracked.later {lower : List Nat} {engine : ScanEngine}
    (h : engine.Tracked lower before.generationKeys before.db.generation)
    (hle : before.db.generation ≤ after.db.generation) :
    engine.Tracked lower (WalletScan.generationKeysAfter accountId before after)
      after.db.generation := by
  refine ⟨h.older.trans hle, fun hsame keyId hkey => ?_, h.rescan⟩
  have holder := h.older
  exact h.keys (by omega) keyId (mem_generationKeys_of_after (by omega) hkey)

end Generations

/-! ### What the steps of a rescan do -/

section Moves

variable {material : IronwoodMaterial} {saplingActivation : Nat} {accountId : Int}
  {scan : WalletScan}

theorem move_planRescan_none {reads : RescanReads} (h : scan.setup = none) :
    scan.move material saplingActivation accountId (.planRescan reads) = scan := by
  unfold WalletScan.move
  dsimp only
  rw [h]

theorem move_planRescan_some {reads : RescanReads} {setup : RescanSetup}
    (h : scan.setup = some setup) :
    scan.move material saplingActivation accountId (.planRescan reads) = { scan with
      db := (scan.db.planRescan reads setup).2
      setup := none
      planned := (scan.db.planRescan reads setup).1 } := by
  unfold WalletScan.move
  dsimp only
  rw [h]

theorem move_openRescan_none (h : scan.planned = none) :
    scan.move material saplingActivation accountId .openRescan = scan := by
  unfold WalletScan.move
  dsimp only
  rw [h]

theorem move_openRescan_some {task : RescanTask} (h : scan.planned = some task) :
    scan.move material saplingActivation accountId .openRescan = { scan with
      db := { scan.db with seedKeyScanReplay := false }
      planned := none
      engine := some (scan.db.openEngine accountId task.effectiveFromHeight
        task.plan.requestedSyncFromHeight none false (some task)) } := by
  unfold WalletScan.move
  dsimp only
  rw [h]

/-- A batch is scanned, or nothing happens. -/
theorem move_scan_eq (batchEnd : Nat) (notes : Notes) :
    scan.move material saplingActivation accountId (.scan batchEnd notes) = scan ∨
      ∃ engine ∈ scan.engine, engine.begun = true ∧
        (scan.move material saplingActivation accountId (.scan batchEnd notes)).engine =
          some { engine with currentHeight := batchEnd + 1 } := by
  unfold WalletScan.move
  dsimp only
  cases hengine : scan.engine with
  | none => exact Or.inl rfl
  | some engine =>
    dsimp only
    split
    · exact Or.inl rfl
    · rename_i hscans
      refine Or.inr ⟨engine, rfl, ?_, rfl⟩
      cases hbegun : engine.begun with
      | true => rfl
      | false =>
        rw [hbegun] at hscans
        exact absurd rfl hscans

/-- The steps that open an engine, or move the one there is. -/
def ScanStep.drives : ScanStep → Bool
  | .call _ => false
  | .transition _ => false
  | .readRequirement .. => false
  | .planRescan _ => false
  | .abandonRescan => false
  | .completeReplay _ => false
  | _ => true

/-- The other steps leave the engine. -/
theorem move_engine {st : ScanStep} (hst : st.drives = false) :
    (scan.move material saplingActivation accountId st).engine = scan.engine := by
  cases st with
  | call call =>
    unfold WalletScan.move
    dsimp only
    split
    · rfl
    · rfl
  | transition call =>
    cases call with
    | _ => rfl
  | readRequirement requestedFromHeight now =>
    unfold WalletScan.move
    dsimp only
    split
    · rfl
    · rfl
  | planRescan reads =>
    unfold WalletScan.move
    dsimp only
    split
    · rfl
    · rfl
  | abandonRescan => rfl
  | completeReplay now =>
    obtain ⟨db, hafter⟩ := @completeReplay_eq scan now
    show (scan.completeReplay now).engine = scan.engine
    rw [hafter]
  | _ => cases hst

end Moves

/-! ### Steps -/

section Steps

variable {material : IronwoodMaterial} {saplingActivation : Nat} {accountId : Int}
  {run : ReplayRun}

theorem ReplayRun.tracked_start (db : SeedDb) :
    (ReplayRun.start accountId db).Tracked accountId where
  recorded := fun _ hengine => nomatch hengine
  keys := fun _ hkey => hkey
  setup := fun _ hsetup => nomatch hsetup
  planned := fun _ hplanned => nomatch hplanned
  engine := fun _ hengine => nomatch hengine

/-- The steps of a rescan up to its engine. -/
def ScanStep.plans : ScanStep → Bool
  | .readRequirement .. => true
  | .planRescan _ => true
  | .openRescan => true
  | .abandonRescan => true
  | _ => false

/-- The other steps leave what a rescan has read and planned. -/
theorem move_halves {scan : WalletScan} {st : ScanStep} (hst : st.plans = false) :
    (scan.move material saplingActivation accountId st).setup = scan.setup ∧
      (scan.move material saplingActivation accountId st).planned = scan.planned := by
  cases st with
  | call call =>
    unfold WalletScan.move
    dsimp only
    split
    · exact ⟨rfl, rfl⟩
    · exact ⟨rfl, rfl⟩
  | transition call =>
    cases call with
    | _ => exact ⟨rfl, rfl⟩
  | openSync birthdayHeight start endHeight followTip =>
    unfold WalletScan.move
    dsimp only
    split
    · exact ⟨rfl, rfl⟩
    · exact ⟨rfl, rfl⟩
  | scan batchEnd notes =>
    unfold WalletScan.move
    dsimp only
    split
    · exact ⟨rfl, rfl⟩
    split
    · exact ⟨rfl, rfl⟩
    · exact ⟨rfl, rfl⟩
  | finalizeAtTip stopsAfter =>
    show (scan.finalizeSeedDiscoveryAtTip accountId stopsAfter).setup = _ ∧
      (scan.finalizeSeedDiscoveryAtTip accountId stopsAfter).planned = _
    rcases @finalizeSeedDiscoveryAtTip_eq material accountId scan stopsAfter with
      hsame | ⟨engine, -, kept, -, -, -, hafter⟩
    · rw [hsame]
      exact ⟨rfl, rfl⟩
    · rw [hafter]
      exact ⟨rfl, rfl⟩
  | completeReplay now =>
    obtain ⟨db, hafter⟩ := @completeReplay_eq scan now
    show (scan.completeReplay now).setup = _ ∧ (scan.completeReplay now).planned = _
    rw [hafter]
    exact ⟨rfl, rfl⟩
  | readRequirement requestedFromHeight now => cases hst
  | planRescan reads => cases hst
  | openRescan => cases hst
  | abandonRescan => cases hst
  | beginRun server now sync => exact ⟨rfl, rfl⟩
  | resumeAt height => exact ⟨rfl, rfl⟩
  | skipTo height => exact ⟨rfl, rfl⟩
  | reorg ancestor => exact ⟨rfl, rfl⟩
  | followTip latestHeight => exact ⟨rfl, rfl⟩

/-- What the two halves of a rescan have left for each other. -/
def ReplayRun.Halves (run : ReplayRun) : Prop :=
  (∀ setup ∈ run.scan.setup, SetupBelow run.lower run.scan.db.generation setup) ∧
    ∀ task ∈ run.scan.planned, TaskBelow run.lower run.scan.db.generation task

theorem ReplayRun.Tracked.halves (h : run.Tracked accountId) (st : ScanStep) :
    (run.step material saplingActivation accountId st).Halves := by
  have hle := @move_generation material saplingActivation accountId run.scan st
  -- where the halves stay as they are, only more imports may have been counted
  have hsame : (run.step material saplingActivation accountId st).lower = run.lower →
      (run.scan.move material saplingActivation accountId st).setup = run.scan.setup →
      (run.scan.move material saplingActivation accountId st).planned = run.scan.planned →
      (run.step material saplingActivation accountId st).Halves := by
    intro hlower hsetup hplanned
    constructor
    · intro setup hfound
      rw [hlower]
      exact (h.setup setup (hsetup ▸ hfound)).mono hle
    · intro task hfound
      rw [hlower]
      exact (h.planned task (hplanned ▸ hfound)).mono hle
  by_cases hplans : st.plans = false
  · obtain ⟨hsetup, hplanned⟩ := @move_halves material saplingActivation accountId run.scan st hplans
    refine hsame ?_ hsetup hplanned
    cases st with
    | readRequirement requestedFromHeight now => cases hplans
    | planRescan reads => cases hplans
    | _ => rfl
  cases st with
  | readRequirement requestedFromHeight now =>
    by_cases hlocked : run.scan.locked = true
    · have hmove : run.scan.move material saplingActivation accountId
          (.readRequirement requestedFromHeight now) = run.scan := if_pos hlocked
      refine hsame ?_ (by rw [hmove]) (by rw [hmove])
      exact if_pos hlocked
    · have hmove : run.scan.move material saplingActivation accountId
          (.readRequirement requestedFromHeight now) = { run.scan with
            db := (run.scan.db.readRequirement requestedFromHeight now).2
            setup := (run.scan.db.readRequirement requestedFromHeight now).1.toOption } :=
        if_neg hlocked
      have hlower : (run.step material saplingActivation accountId
          (.readRequirement requestedFromHeight now)).lower = requestedFromHeight ::
            (run.scan.db.readRequirement requestedFromHeight now).2.pendingFloor.toList :=
        if_neg hlocked
      unfold ReplayRun.Halves
      rw [hlower]
      unfold ReplayRun.step WalletScan.step
      dsimp only
      rw [hmove]
      dsimp only
      constructor
      · intro setup hsetup
        cases hread : run.scan.db.readRequirement requestedFromHeight now with
        | mk result after =>
          have hfound : setup ∈ result.toOption := by
            rw [hread] at hsetup
            exact hsetup
          cases result with
          | error error => cases hfound
          | ok found =>
            cases hfound
            exact readRequirement_below hread
      · intro task htask
        have hunplanned : run.scan.planned = none := by
          unfold WalletScan.locked at hlocked
          cases hplanned : run.scan.planned with
          | none => rfl
          | some task => simp [hplanned] at hlocked
        rw [hunplanned] at htask
        cases htask
  | planRescan reads =>
    cases hsetup : run.scan.setup with
    | none =>
      have hmove := @move_planRescan_none material saplingActivation accountId _ reads hsetup
      refine hsame ?_ (by rw [hmove]) (by rw [hmove])
      unfold ReplayRun.step
      dsimp only
      rw [hsetup]
      rfl
    | some setup =>
      have hlower : (run.step material saplingActivation accountId (.planRescan reads)).lower =
          run.lower ++ reads.unspentHeights run.scan.db := by
        unfold ReplayRun.step
        dsimp only
        rw [hsetup]
        rfl
      unfold ReplayRun.Halves
      rw [hlower]
      unfold ReplayRun.step WalletScan.step
      dsimp only
      rw [move_planRescan_some hsetup]
      refine ⟨(fun _ hnone => nomatch hnone), fun task htask => ?_⟩
      have hplan : run.scan.db.planRescan reads setup =
          (some task, (run.scan.db.planRescan reads setup).2) := Prod.ext htask rfl
      have hkept := (planRescan_kept reads setup run.scan.db).generation
      exact (planRescan_below (h.setup setup hsetup) hplan).mono hkept
  | openRescan =>
    cases hplanned : run.scan.planned with
    | none =>
      have hmove := @move_openRescan_none material saplingActivation accountId _ hplanned
      exact hsame rfl (by rw [hmove]) (by rw [hmove])
    | some task =>
      have hmove : (run.scan.move material saplingActivation accountId .openRescan).setup =
            run.scan.setup ∧
          (run.scan.move material saplingActivation accountId .openRescan).planned = none := by
        rw [move_openRescan_some hplanned]
        exact ⟨rfl, rfl⟩
      constructor
      · intro setup hfound
        exact (h.setup setup (hmove.1 ▸ hfound)).mono hle
      · intro task hfound
        exact nomatch hmove.2 ▸ hfound
  | abandonRescan => exact ⟨(fun _ hsetup => nomatch hsetup), (fun _ htask => nomatch htask)⟩
  | _ => exact absurd rfl hplans

/-- An engine that has just been opened has the keys of the generation. -/
theorem ScanEngine.tracked_opened {scan after : WalletScan} {lower : List Nat}
    {birthdayHeight start : Nat} {endHeight : Option Nat} {followTip : Bool}
    {rescan : Option RescanTask}
    (hdb : after.db = { scan.db with seedKeyScanReplay := false })
    (hrescan : ∀ task ∈ rescan, (scan.db.openEngine accountId birthdayHeight start endHeight
      followTip rescan).Replays lower task) :
    (scan.db.openEngine accountId birthdayHeight start endHeight followTip rescan).Tracked lower
      (WalletScan.generationKeysAfter accountId scan after) after.db.generation := by
  have hgeneration : after.db.generation = scan.db.generation := by
    rw [hdb]
    rfl
  refine ⟨hgeneration.ge, fun _ keyId hkey => ?_, hrescan⟩
  have hstored := generationKeysAfter_subset hkey
  rw [hdb] at hstored
  exact hstored

/-- The engine that a step leaves behind is tracked. -/
def ReplayRun.TracksEngine (material : IronwoodMaterial) (saplingActivation : Nat) (accountId : Int)
    (run : ReplayRun) (st : ScanStep) : Prop :=
  ∀ engine ∈ (run.step material saplingActivation accountId st).scan.engine,
    engine.Tracked (run.step material saplingActivation accountId st).engineLower
      (run.step material saplingActivation accountId st).scan.generationKeys
      (run.step material saplingActivation accountId st).scan.db.generation

section EngineSteps

variable (h : run.Tracked accountId)

include h

/-- An engine that a step leaves alone is tracked after it. -/
theorem ReplayRun.Tracked.engine_kept (st : ScanStep) :
    ∀ engine ∈ run.scan.engine, engine.Tracked run.engineLower
      (run.step material saplingActivation accountId st).scan.generationKeys
      (run.scan.move material saplingActivation accountId st).db.generation :=
  fun engine hengine => (h.engine engine hengine).later (move_generation st)

/-- So is one that a step changes in a way that keeps engines tracked. -/
theorem ReplayRun.Tracked.engine_mapped {st : ScanStep} (hst : st ≠ .openRescan)
    (f : ScanEngine → ScanEngine)
    (hmove : (run.scan.move material saplingActivation accountId st).engine =
      run.scan.engine.map f)
    (hf : ∀ engine : ScanEngine, ∀ generationKeys generation,
      engine.Tracked run.engineLower generationKeys generation →
      (f engine).Tracked run.engineLower generationKeys generation) :
    run.TracksEngine material saplingActivation accountId st := by
  have hlower : (run.step material saplingActivation accountId st).engineLower =
      run.engineLower := by
    cases st with
    | openRescan => exact absurd rfl hst
    | _ => rfl
  intro moved hmoved
  have hfound : moved ∈ (run.scan.move material saplingActivation accountId st).engine := hmoved
  rw [hmove] at hfound
  obtain ⟨engine, hengine, rfl⟩ := Option.mem_map.mp hfound
  rw [hlower]
  exact hf engine _ _ (h.engine_kept st engine hengine)

theorem ReplayRun.Tracked.engine_openSync (birthdayHeight start : Nat) (endHeight : Option Nat)
    (followTip : Bool) :
    run.TracksEngine material saplingActivation accountId
      (.openSync birthdayHeight start endHeight followTip) := by
  intro engine hengine
  by_cases hrefused : (run.scan.locked || run.scan.db.replayPending) = true
  · have hmove : run.scan.move material saplingActivation accountId
        (.openSync birthdayHeight start endHeight followTip) = run.scan := if_pos hrefused
    refine h.engine_kept _ engine ?_
    exact hmove ▸ hengine
  · have hmove : run.scan.move material saplingActivation accountId
        (.openSync birthdayHeight start endHeight followTip) = { run.scan with
          db := { run.scan.db with seedKeyScanReplay := false }
          engine := some (run.scan.db.openEngine accountId birthdayHeight start endHeight
            followTip none) } := if_neg hrefused
    have hopened : engine = run.scan.db.openEngine accountId birthdayHeight start endHeight
        followTip none := by
      have hfound : engine ∈ (run.scan.move material saplingActivation accountId
        (.openSync birthdayHeight start endHeight followTip)).engine := hengine
      rw [hmove] at hfound
      exact (Option.some.inj hfound).symm
    rw [hopened]
    refine ScanEngine.tracked_opened ?_ (fun _ htask => nomatch htask)
    rw [hmove]

theorem ReplayRun.Tracked.engine_openRescan :
    run.TracksEngine material saplingActivation accountId .openRescan := by
  intro engine hengine
  cases hplanned : run.scan.planned with
  | none =>
    have hmove := @move_openRescan_none material saplingActivation accountId _ hplanned
    have hlower : (run.step material saplingActivation accountId .openRescan).engineLower =
        run.engineLower := by
      unfold ReplayRun.step
      dsimp only
      rw [hplanned]
      rfl
    rw [hlower]
    refine h.engine_kept _ engine ?_
    exact hmove ▸ hengine
  | some task =>
    have hmove := @move_openRescan_some material saplingActivation accountId _ task hplanned
    have hlower : (run.step material saplingActivation accountId .openRescan).engineLower =
        run.lower := by
      unfold ReplayRun.step
      dsimp only
      rw [hplanned]
      rfl
    have hopened : engine = run.scan.db.openEngine accountId task.effectiveFromHeight
        task.plan.requestedSyncFromHeight none false (some task) := by
      have hfound : engine ∈ (run.scan.move material saplingActivation accountId
        .openRescan).engine := hengine
      rw [hmove] at hfound
      exact (Option.some.inj hfound).symm
    rw [hlower, hopened]
    refine ScanEngine.tracked_opened ?_ (fun opened htask => ?_)
    · rw [hmove]
    · cases htask
      exact replays_opened (h.planned task hplanned)

theorem ReplayRun.Tracked.engine_beginRun (server : ResumeServer) (now : String)
    (sync : SyncEngine) :
    run.TracksEngine material saplingActivation accountId (.beginRun server now sync) := by
  refine h.engine_mapped nofun _ rfl (fun engine generationKeys generation htracked => ?_)
  split
  · exact htracked
  · rename_i hbegun
    cases hbegin : engine.beginRun saplingActivation server now sync with
    | error e => exact htracked
    | ok begun => exact htracked.beginRun (Bool.eq_false_iff.mpr hbegun) hbegin

theorem ReplayRun.Tracked.engine_scan (batchEnd : Nat) (notes : Notes) :
    run.TracksEngine material saplingActivation accountId (.scan batchEnd notes) := by
  intro moved hmoved
  have hfound : moved ∈ (run.scan.move material saplingActivation accountId
    (.scan batchEnd notes)).engine := hmoved
  rcases @move_scan_eq material saplingActivation accountId run.scan batchEnd notes with
    hmove | ⟨engine, hengine, hbegun, hmove⟩
  · rw [hmove] at hfound
    exact h.engine_kept _ moved hfound
  · rw [hmove] at hfound
    cases hfound
    have htracked := @engine_kept material saplingActivation _ _ h (.scan batchEnd notes) engine
      hengine
    refine htracked.congr rfl rfl (fun task htask => ?_)
    obtain ⟨hbelow, hbirthday, hstretch, -, htoLatest, htip⟩ := htracked.rescan task htask
    refine ⟨hbelow, hbirthday, hstretch, fun hwaiting => ?_, htoLatest, htip⟩
    have hnotBegun : engine.begun = false := hwaiting
    rw [hbegun] at hnotBegun
    cases hnotBegun

theorem ReplayRun.Tracked.engine_finalizeAtTip (stopsAfter : Option Nat) :
    run.TracksEngine material saplingActivation accountId (.finalizeAtTip stopsAfter) := by
  intro moved hmoved
  have hfound : moved ∈ (run.scan.finalizeSeedDiscoveryAtTip accountId stopsAfter).engine := hmoved
  rcases @finalizeSeedDiscoveryAtTip_eq material accountId run.scan stopsAfter with
    hunchanged | ⟨engine, hengine, kept, -, hkept, -, hafter⟩
  · rw [hunchanged] at hfound
    exact h.engine_kept _ moved hfound
  · rw [hafter] at hfound
    cases hfound
    have hdb : (run.scan.move material saplingActivation accountId
        (.finalizeAtTip stopsAfter)).db =
        run.scan.db.after material (.finalize accountId false stopsAfter) :=
      congrArg WalletScan.db hafter
    obtain ⟨holder, hkeys, hrescan⟩ := @engine_kept material saplingActivation _ _ h
      (.finalizeAtTip stopsAfter) engine hengine
    refine ⟨holder, fun hgeneration keyId hkey => ?_, fun task htask => ?_⟩
    · refine hkept keyId (hkeys hgeneration keyId hkey) ?_
      rw [← hdb]
      exact generationKeysAfter_subset hkey
    · obtain ⟨hbelow, hbirthday, hstretch, hwaiting, htoLatest, htip⟩ := hrescan task htask
      exact ⟨hbelow, hbirthday, hstretch, hwaiting, htoLatest, htip⟩

theorem ReplayRun.Tracked.engine_step (st : ScanStep) :
    run.TracksEngine material saplingActivation accountId st := by
  by_cases hdrives : st.drives = false
  · have hmove := @move_engine material saplingActivation accountId run.scan st hdrives
    exact h.engine_mapped (fun hst => by rw [hst] at hdrives; cases hdrives) id
      (hmove.trans Option.map_id_apply.symm) (fun _ _ _ htracked => htracked)
  cases st with
  | openSync birthdayHeight start endHeight followTip =>
    exact h.engine_openSync birthdayHeight start endHeight followTip
  | openRescan => exact h.engine_openRescan
  | beginRun server now sync => exact h.engine_beginRun server now sync
  | resumeAt height =>
    refine h.engine_mapped nofun _ rfl (fun engine generationKeys generation htracked => ?_)
    split
    · rename_i hback
      exact htracked.moveTo (fun _ => hback)
    · exact htracked
  | skipTo height =>
    refine h.engine_mapped nofun _ rfl (fun engine generationKeys generation htracked => ?_)
    split
    · rename_i hahead
      refine htracked.moveTo (fun hbegun => ?_)
      rw [hbegun] at hahead
      cases hahead
    · exact htracked
  | reorg ancestor =>
    exact h.engine_mapped nofun _ rfl (fun engine generationKeys generation htracked =>
      htracked.moveTo (fun _ => min_le_left _ _))
  | scan batchEnd notes => exact h.engine_scan batchEnd notes
  | followTip latestHeight =>
    refine h.engine_mapped nofun _ rfl (fun engine generationKeys generation htracked => ?_)
    split
    · rename_i hfollows
      refine htracked.congr rfl rfl (fun task htask => ?_)
      have hnoFollow := (htracked.rescan task htask).toLatest.1
      rw [hfollows] at hnoFollow
      cases hnoFollow
    · exact htracked
  | finalizeAtTip stopsAfter => exact h.engine_finalizeAtTip stopsAfter
  | _ => exact absurd rfl hdrives

end EngineSteps

/-- **The step lemma.** After any step of the wallet the heights still bound what the rescan has
planned, and what is scanned is on record. -/
theorem ReplayRun.Tracked.step (h : run.Tracked accountId) (st : ScanStep) :
    (run.step material saplingActivation accountId st).Tracked accountId where
  recorded := h.recorded.step st
  keys := fun _ hkey => generationKeysAfter_subset hkey
  setup := (h.halves st).1
  planned := (h.halves st).2
  engine := h.engine_step st

theorem ReplayRun.Tracked.beginsLow (h : run.Tracked accountId) (st : ScanStep) :
    run.BeginsLow material saplingActivation accountId (max saplingActivation 1) st := by
  rintro server now sync rfl engine hengine hrescan hbegun moved hmoved hrunning height hheight
  obtain ⟨task, htask⟩ := Option.isSome_iff_exists.mp hrescan
  have hreplays := (h.engine engine hengine).rescan task htask
  have hfound : moved ∈ (run.scan.engine.map (fun engine =>
      if engine.begun then engine
      else (engine.beginRun saplingActivation server now sync).toOption.getD engine)) := hmoved
  rw [Option.mem_def.mp hengine] at hfound
  have hresult : moved =
      (engine.beginRun saplingActivation server now sync).toOption.getD engine := by
    have hmapped := (Option.some.inj hfound).symm
    dsimp only at hmapped
    rw [if_neg (Bool.eq_false_iff.mp hbegun)] at hmapped
    exact hmapped
  cases hbegin : engine.beginRun saplingActivation server now sync with
  | error error =>
    -- the run has failed before its first block
    rw [hbegin] at hresult
    have hsame : moved = engine := hresult
    rw [hsame, hbegun] at hrunning
    cases hrunning
  | ok begun =>
    rw [hbegin] at hresult
    have hmoved : moved = begun := hresult
    have hfirst := (hreplays.beginRun hbegun hbegin).2
    have hlower := hreplays.below.lower height hheight
    rw [hmoved]
    omega

theorem ReplayRun.Tracked.releasesScanned (h : run.Tracked accountId) (st : ScanStep) :
    run.ReleasesScanned material saplingActivation accountId ScanEngine.skippedTo st := by
  intro floor hfloor hreleased
  have hpending : run.scan.db.pendingFloor.isSome = true := by
    rw [Option.mem_def.mp hfloor]
    rfl
  by_cases hst : ∀ now, st ≠ .completeReplay now
  · have hkept := (@move_kept material saplingActivation accountId run.scan st hst).pending hpending
    have hgone : (run.scan.move material saplingActivation accountId st).db.pendingFloor = none :=
      hreleased
    rw [hgone] at hkept
    cases hkept
  · obtain ⟨now, hnow⟩ := not_forall_not.mp hst
    have hgone : (run.scan.completeReplay now).db.pendingFloor = none := by
      rw [hnow] at hreleased
      exact hreleased
    rcases @completeReplay_db run.scan now with hsame | ⟨engine, hengine, task, htask, requirement,
      hrequirement, hreturned, row, next, hrow, hcompletes, -, -⟩
    · rw [hsame] at hgone
      rw [hgone] at hpending
      cases hpending
    · obtain ⟨-, -, hgeneration, hreplayed⟩ := hcompletes
      have hrowFloor : row.requiredRescanFromHeight = floor := by
        unfold SeedDb.pendingFloor at hfloor
        rw [hrow] at hfloor
        exact (SpendabilityStateRow.pendingFloor_eq_some.mp hfloor).2.2
      have hrowGeneration : run.scan.db.generation = row.keyImportGeneration := by
        unfold SeedDb.generation SeedDb.loadState
        rw [hrow]
        rfl
      have htracked := h.engine engine hengine
      have hreplays := htracked.rescan task htask
      -- the count the task has read lies between the engine's and the row's
      have hsameGeneration : engine.generation = run.scan.db.generation := by
        have hread := hreplays.below.generation requirement hrequirement
        have holder := htracked.older
        omega
      unfold ScanEngine.returned at hreturned
      obtain ⟨hbegun, hpassed⟩ := Bool.and_eq_true_iff.mp hreturned
      obtain ⟨tip, htip, htarget⟩ := hreplays.tip hbegun
      have hpassed := of_decide_eq_true hpassed
      refine ⟨engine, hengine, ?_, hsameGeneration, ⟨tip, htip, by omega⟩, fun keyId hkey => ?_⟩
      · rw [Option.mem_def.mp htask]
        rfl
      · have hloaded := htracked.keys hsameGeneration keyId hkey
        refine ⟨hloaded, fun height hfrom hskipped hcurrent => ?_⟩
        refine h.recorded engine hengine keyId hloaded height ?_ hcurrent
        have hstretch := hreplays.stretch
        have hbirthday := hreplays.birthday
        unfold ScanEngine.scannedFrom
        omega

end Steps

/-! ## Runs -/

/-- **Rescans replay what imports ask for.** In every run, a rescan begins at or below the
request, the pending floor and the unspent notes, or at the Sapling activation if that is higher;
and a floor goes only after an engine with all the keys of the import generation has scanned from
it to the tip, but for the heights it has moved ahead over. -/
theorem rescan_replays_imports (material : IronwoodMaterial) (saplingActivation : Nat)
    (accountId : Int) (db : SeedDb) (steps : List ScanStep) :
    Runs.EachStep (ReplayRun.step material saplingActivation accountId)
      (ReplayRun.ReplaysImports material saplingActivation accountId (max saplingActivation 1)
        ScanEngine.skippedTo) (ReplayRun.start accountId db) steps := by
  have htracked := Runs.run_invariant_always (fun run st h =>
    @ReplayRun.Tracked.step material saplingActivation accountId run h st)
    (ReplayRun.tracked_start db) steps
  intro done st rest hsplit
  have hreached := htracked done ⟨st :: rest, hsplit.symm⟩
  exact ⟨hreached.beginsLow st, hreached.releasesScanned st⟩

/-- An import of a key with birthday 10, and a rescan requested from 20 where Sapling begins at
50: all of it up to the release of the floor. -/
def importedRescan : List ScanStep :=
  [.call (.importKey (.importGroup (oneByteKey 7 10) "t" "r" false none)),
    .readRequirement 20 "t", .planRescan restoredRescanReads, .openRescan,
    .beginRun sixHundredBlocks "t" emptySyncEngine, .scan 600 AutoTable.empty,
    .completeReplay "t"]

/-- The wallet after the first of these steps. -/
def afterImportedRescan (count : Nat) : ReplayRun :=
  Runs.run (ReplayRun.step taggedMaterial 50 1) (ReplayRun.start 1 restoredSeedDb)
    (importedRescan.take count)

/-- Neither holds without the exceptions: this rescan begins at 50, above the request and the
floor, and the floor goes though the blocks from 10 to 49 have not been tried. -/
theorem rescan_begins_above_request :
    ¬ Runs.EachStep (ReplayRun.step taggedMaterial 50 1)
      (ReplayRun.BeginsLow taggedMaterial 50 1 0) (ReplayRun.start 1 restoredSeedDb)
      importedRescan ∧
    ¬ Runs.EachStep (ReplayRun.step taggedMaterial 50 1)
      (ReplayRun.ReleasesScanned taggedMaterial 50 1 (fun _ => 0))
      (ReplayRun.start 1 restoredSeedDb) importedRescan := by
  constructor
  · intro hlow
    have hbegins := hlow (importedRescan.take 4) (.beginRun sixHundredBlocks "t" emptySyncEngine)
      _ rfl sixHundredBlocks "t" emptySyncEngine rfl
    have habove : ∃ engine ∈ (afterImportedRescan 4).scan.engine, engine.rescan.isSome = true ∧
        engine.begun = false ∧ ∃ moved ∈ (afterImportedRescan 5).scan.engine,
          moved.begun = true ∧ 10 ∈ (afterImportedRescan 4).engineLower ∧
          ¬ moved.currentHeight ≤ max 10 0 := by
      decide +kernel
    obtain ⟨engine, hengine, hrescan, hbegun, moved, hmoved, hrunning, hheight, hnot⟩ := habove
    exact hnot (hbegins engine hengine hrescan hbegun moved hmoved hrunning 10 hheight)
  · intro hscanned
    have hreleases := hscanned (importedRescan.take 6) (.completeReplay "t") [] rfl
    have hgone : (afterImportedRescan 6).scan.db.pendingFloor = some 10 ∧
        (afterImportedRescan 7).scan.db.pendingFloor = none ∧
        ∃ keyId ∈ (afterImportedRescan 6).scan.generationKeys,
          ¬ Tried (afterImportedRescan 6).scan.tried keyId 10 ∧
          ∀ engine ∈ (afterImportedRescan 6).scan.engine, 10 < engine.currentHeight := by
      decide +kernel
    obtain ⟨hfloor, hnone, keyId, hkey, huntried, hcurrent⟩ := hgone
    obtain ⟨engine, hengine, -, -, -, hall⟩ := hreleases 10 hfloor hnone
    exact huntried ((hall keyId hkey).2 10 (le_refl _) (Nat.zero_le _) (hcurrent engine hengine))

end StashiWallet
