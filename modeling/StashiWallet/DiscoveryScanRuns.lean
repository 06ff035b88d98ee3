import StashiWallet.WalletScans

/-!
# Retiring candidates after a scan

Finalization looks at the stored notes and at nothing else, so what it concludes about a
candidate is only as good as the scan before it. A run scans without a gap from the height it
was given, with the keys it was opened with. For a new candidate it is enough if it starts at or
below the candidate's birthday. A rescan that was requested above the wallet's birthday prepares
candidates, and scans, finalizes and retires them without that.
-/

namespace StashiWallet

/-! ## The record of a stretch -/

theorem Tried.append_left {more tried : List TriedRange} {keyId height : Nat}
    (h : Tried tried keyId height) : Tried (more ++ tried) keyId height := by
  obtain ⟨range, hrange, htried⟩ := h
  exact ⟨range, List.mem_append_right more hrange, htried⟩

theorem tried_append {more tried : List TriedRange} {keyId height : Nat} :
    Tried (more ++ tried) keyId height ↔ Tried more keyId height ∨ Tried tried keyId height := by
  unfold Tried
  simp only [List.mem_append, or_and_right, exists_or]

theorem tried_triedBy {engine : ScanEngine} {batchEnd keyId height : Nat} :
    Tried (engine.triedBy batchEnd) keyId height ↔ keyId ∈ engine.keyIds ∧
      engine.currentHeight ≤ height ∧ engine.birthdayHeight ≤ height ∧ height ≤ batchEnd := by
  unfold ScanEngine.triedBy Tried
  constructor
  · rintro ⟨range, hrange, rfl, hfirst, hlast⟩
    obtain ⟨keyId, hkey, rfl⟩ := List.mem_map.mp hrange
    have hbelow : max engine.currentHeight engine.birthdayHeight ≤ height := hfirst
    exact ⟨hkey, by omega, by omega, hlast⟩
  · rintro ⟨hkey, hcurrent, hbirthday, hlast⟩
    exact ⟨_, List.mem_map_of_mem hkey, rfl, max_le hcurrent hbirthday, hlast⟩

theorem Tried.cut {tried : List TriedRange} {keyId height ancestor : Nat}
    (h : Tried tried keyId height) (hbelow : height ≤ ancestor) :
    Tried (cutTried ancestor tried) keyId height := by
  obtain ⟨range, hrange, hkey, hfirst, hlast⟩ := h
  exact ⟨_, List.mem_map_of_mem hrange, hkey, hfirst, le_min hlast hbelow⟩

/-- The first block of the engine's stretch that it tries its keys on. -/
def ScanEngine.scannedFrom (engine : ScanEngine) : Nat :=
  max engine.stretchFrom engine.birthdayHeight

/-- The engine's stretch has been recorded for each of its keys. -/
def WalletScan.Recorded (scan : WalletScan) : Prop :=
  ∀ engine ∈ scan.engine, ∀ keyId ∈ engine.keyIds, ∀ height, engine.scannedFrom ≤ height →
    height < engine.currentHeight → Tried scan.tried keyId height

section Steps

variable {material : IronwoodMaterial} {saplingActivation : Nat} {accountId : Int}
  {scan : WalletScan}

theorem WalletScan.Recorded.congr {after : WalletScan} (h : scan.Recorded)
    (hengine : after.engine = scan.engine) (htried : after.tried = scan.tried) :
    after.Recorded := by
  unfold WalletScan.Recorded
  rw [hengine, htried]
  exact h

/-- An engine that has just been opened has nothing to record. -/
theorem WalletScan.recorded_opened {engine : ScanEngine} (hengine : scan.engine = some engine)
    (hstart : engine.stretchFrom = engine.currentHeight) : scan.Recorded := by
  intro opened hopened keyId _ height hfrom hbelow
  rw [hengine] at hopened
  cases hopened
  have hle : engine.stretchFrom ≤ height := le_trans (le_max_left _ _) hfrom
  omega

/-- The engine has the same keys and no more behind it than before. -/
structure ScanEngine.Within (engine moved : ScanEngine) : Prop where
  keyIds : moved.keyIds = engine.keyIds
  behind : ∀ height, moved.scannedFrom ≤ height → height < moved.currentHeight →
    engine.scannedFrom ≤ height ∧ height < engine.currentHeight

theorem ScanEngine.Within.refl (engine : ScanEngine) : engine.Within engine :=
  ⟨rfl, fun _ hfrom hbelow => ⟨hfrom, hbelow⟩⟩

/-- A move back gives up what is above, a move ahead everything. -/
theorem ScanEngine.within_moveTo (engine : ScanEngine) (height : Nat) :
    engine.Within (engine.moveTo height) := by
  unfold ScanEngine.moveTo
  split
  · refine ⟨rfl, fun below hfrom hbelow => ?_⟩
    unfold ScanEngine.scannedFrom at hfrom ⊢
    dsimp only at hfrom hbelow
    omega
  · refine ⟨rfl, fun below hfrom hbelow => ?_⟩
    have hstart : height ≤ below := le_trans (le_max_left _ _) hfrom
    exact absurd hstart (not_le.mpr hbelow)

theorem WalletScan.Recorded.onEngine (h : scan.Recorded) {f : ScanEngine → ScanEngine}
    (hf : ∀ engine, ScanEngine.Within engine (f engine)) : (scan.onEngine f).Recorded := by
  intro moved hmoved keyId hkey height hfrom hbelow
  obtain ⟨engine, hengine, rfl⟩ := Option.mem_map.mp hmoved
  obtain ⟨hfrom, hbelow⟩ := (hf engine).behind height hfrom hbelow
  exact h engine hengine keyId ((hf engine).keyIds ▸ hkey) height hfrom hbelow

theorem ScanEngine.moveTo_currentHeight (engine : ScanEngine) (height : Nat) :
    (engine.moveTo height).currentHeight = height := by
  unfold ScanEngine.moveTo
  split
  · rfl
  · rfl

/-- The first block of a run is a move. -/
theorem ScanEngine.beginRun_eq_ok {server : ResumeServer} {now : String} {sync : SyncEngine}
    {engine begun : ScanEngine}
    (h : engine.beginRun saplingActivation server now sync = .ok begun) :
    ∃ policy remoteTip first, { sync with birthdayHeight := engine.birthdayHeight }.firstBlock
        saplingActivation server now engine.currentHeight remoteTip policy = .ok first ∧
      begun = { engine.moveTo first with
        begun := true
        targetHeight := selectSyncTarget engine.currentHeight engine.endHeight server.tipHeight
          engine.followTip
        discoveryTip := if engine.endHeight.isNone then some server.tipHeight else none } := by
  unfold ScanEngine.beginRun at h
  dsimp only at h
  obtain ⟨first, hfirst, h⟩ := bind_eq_ok h
  cases h
  exact ⟨_, _, first, hfirst, rfl⟩

theorem scanKeyIds_subset {db : SeedDb} {keyId : Nat} (h : keyId ∈ db.scanKeyIds accountId) :
    keyId ∈ (db.imports.keys.ofAccount accountId).map (·.id) :=
  (List.filter_sublist.map _).subset h

theorem finalizeSeedDiscoveryAtTip_eq (stopsAfter : Option Nat) :
    (scan.finalizeSeedDiscoveryAtTip accountId stopsAfter) = scan ∨
      ∃ engine ∈ scan.engine, ∃ kept, kept.Sublist engine.keyIds ∧
        (∀ keyId ∈ engine.keyIds,
          keyId ∈ (scan.db.after material (.finalize accountId false stopsAfter)).scanKeyIds
            accountId → keyId ∈ kept) ∧
        scan.db.discoveryComplete = false ∧
        scan.finalizeSeedDiscoveryAtTip accountId stopsAfter = { scan with
          db := scan.db.after material (.finalize accountId false stopsAfter)
          engine := some { engine with keyIds := kept } } := by
  unfold WalletScan.finalizeSeedDiscoveryAtTip
  split
  · exact Or.inl rfl
  · rename_i engine hengine
    split
    · exact Or.inl rfl
    · rename_i hready
      have hopen : scan.db.discoveryComplete = false := by
        revert hready
        cases scan.db.discoveryComplete with
        | false => exact fun _ => rfl
        | true => simp
      dsimp only
      split
      · refine Or.inr ⟨engine, hengine, _, List.filter_sublist, fun keyId hkey hstored => ?_, hopen,
          rfl⟩
        exact List.mem_filter.mpr ⟨hkey, decide_eq_true (scanKeyIds_subset hstored)⟩
      · exact Or.inr ⟨engine, hengine, engine.keyIds, List.Sublist.refl _, fun _ hkey _ => hkey,
          hopen, rfl⟩

theorem completeReplay_eq (now : String) :
    ∃ db, scan.completeReplay now = { scan with db := db } := by
  unfold WalletScan.completeReplay
  split
  · exact ⟨scan.db, rfl⟩
  split
  · exact ⟨scan.db, rfl⟩
  split
  · exact ⟨scan.db, rfl⟩
  split
  · exact ⟨_, rfl⟩
  · exact ⟨scan.db, rfl⟩

theorem WalletScan.Recorded.move (h : scan.Recorded) (st : ScanStep) :
    (scan.move material saplingActivation accountId st).Recorded := by
  cases st with
  | call call =>
    unfold WalletScan.move
    dsimp only
    split
    · exact h
    · exact h.congr rfl rfl
  | transition call =>
    cases call with
    | _ => exact h.congr rfl rfl
  | openSync birthdayHeight start endHeight followTip =>
    unfold WalletScan.move
    dsimp only
    split
    · exact h
    · exact WalletScan.recorded_opened rfl rfl
  | readRequirement requestedFromHeight now =>
    unfold WalletScan.move
    dsimp only
    split
    · exact h
    · exact h.congr rfl rfl
  | planRescan reads =>
    unfold WalletScan.move
    dsimp only
    split
    · exact h
    · exact h.congr rfl rfl
  | openRescan =>
    unfold WalletScan.move
    dsimp only
    split
    · exact h
    · exact WalletScan.recorded_opened rfl rfl
  | abandonRescan => exact h.congr rfl rfl
  | beginRun server now sync =>
    refine h.onEngine (fun engine => ?_)
    split
    · exact ScanEngine.Within.refl engine
    · cases hbegin : engine.beginRun saplingActivation server now sync with
      | error e => exact ScanEngine.Within.refl engine
      | ok begun =>
        obtain ⟨policy, remoteTip, first, -, rfl⟩ := ScanEngine.beginRun_eq_ok hbegin
        have hmoved := engine.within_moveTo first
        exact ⟨hmoved.keyIds, hmoved.behind⟩
  | resumeAt height =>
    refine h.onEngine (fun engine => ?_)
    split
    · exact engine.within_moveTo height
    · exact ScanEngine.Within.refl engine
  | skipTo height =>
    refine h.onEngine (fun engine => ?_)
    split
    · exact engine.within_moveTo height
    · exact ScanEngine.Within.refl engine
  | reorg ancestor =>
    -- the stretch goes on from the ancestor, and the record is cut there
    intro moved hmoved keyId hkey below hfrom hbelow
    obtain ⟨engine, hengine, rfl⟩ := Option.mem_map.mp hmoved
    have hmoved := engine.within_moveTo (min engine.currentHeight (ancestor + 1))
    have hheight : below < min engine.currentHeight (ancestor + 1) := by
      rw [engine.moveTo_currentHeight] at hbelow
      exact hbelow
    obtain ⟨hfrom, hcurrent⟩ := hmoved.behind below hfrom hbelow
    rw [hmoved.keyIds] at hkey
    exact (h engine hengine keyId hkey below hfrom hcurrent).cut (by omega)
  | scan batchEnd notes =>
    unfold WalletScan.move
    dsimp only
    split
    · exact h
    · rename_i engine hengine
      split
      · exact h
      · intro moved hmoved keyId hkey height hfrom hbelow
        cases hmoved
        have hend : height < batchEnd + 1 := hbelow
        by_cases hold : height < engine.currentHeight
        · exact (h engine hengine keyId hkey height hfrom hold).append_left
        · have hbirthday : engine.birthdayHeight ≤ height := le_trans (le_max_right _ _) hfrom
          exact tried_append.mpr (Or.inl (tried_triedBy.mpr
            ⟨hkey, by omega, hbirthday, by omega⟩))
  | followTip latestHeight =>
    refine h.onEngine (fun engine => ?_)
    split
    · exact ⟨rfl, fun _ hfrom hbelow => ⟨hfrom, hbelow⟩⟩
    · exact ScanEngine.Within.refl engine
  | finalizeAtTip stopsAfter =>
    show (scan.finalizeSeedDiscoveryAtTip accountId stopsAfter).Recorded
    rcases @finalizeSeedDiscoveryAtTip_eq material accountId scan stopsAfter with
      hsame | ⟨engine, hengine, kept, hkept, -, -, hafter⟩
    · rw [hsame]
      exact h
    · rw [hafter]
      intro moved hmoved keyId hkey height hfrom hbelow
      cases hmoved
      exact h engine hengine keyId (hkept.subset hkey) height hfrom hbelow
  | completeReplay now =>
    show (scan.completeReplay now).Recorded
    obtain ⟨db, hafter⟩ := @completeReplay_eq scan now
    rw [hafter]
    exact h.congr rfl rfl

/-- **The step lemma:** what an engine has scanned without a gap is on record. -/
theorem WalletScan.Recorded.step (h : scan.Recorded) (st : ScanStep) :
    (scan.step material saplingActivation accountId st).Recorded :=
  (@WalletScan.Recorded.move material saplingActivation accountId scan h st).congr rfl rfl

end Steps

/-! ## Finalizing -/

/-- The height after the scanned tip. -/
def WalletScan.nextHeight (scan : WalletScan) : Nat :=
  (scan.engine.map (·.currentHeight)).getD 0

/-- Every block from the key's birthday to the scanned tip has been tried with it. -/
def WalletScan.Covered (scan : WalletScan) (key : AccountKeyRow) : Prop :=
  ∀ height : Nat, key.birthdayHeight ≤ height → height < scan.nextHeight →
    Tried scan.tried key.id height

section Finalizing

variable (material : IronwoodMaterial) (saplingActivation : Nat) (accountId : Int)

/-- The account a step finalizes the discovery of. -/
def ScanStep.finalizes : ScanStep → Option Int
  | .call (.finalize finalized _ _) => some finalized
  | .finalizeAtTip _ => some accountId
  | _ => none

/-- A finalization deletes only keys that have been tried on every block from their birthday to
the scanned tip; and if it sets the marker, this is true of all candidates. -/
def WalletScan.FinalizesScanned (scan : WalletScan) (st : ScanStep) : Prop :=
  ∀ account ∈ st.finalizes accountId,
    (∀ key ∈ scan.db.imports.keys.rows,
      key ∉ (scan.step material saplingActivation accountId st).db.imports.keys.rows →
        scan.Covered key) ∧
    (scan.db.discoveryComplete = false →
      (scan.step material saplingActivation accountId st).db.discoveryComplete = true →
      ∀ candidate ∈ scan.db.seedKeys.candidatesOf account,
        ∀ key ∈ scan.db.imports.keys.rows, key.id = candidate.keyId → scan.Covered key)

/-- Where a finalization finds a candidate that was born by the scanned tip, the run before it
was opened with the key, and had the key tried already on the blocks from its birthday to where
the run's stretch begins. -/
def WalletScan.ResumesLookahead (scan : WalletScan) (st : ScanStep) : Prop :=
  ∀ account ∈ st.finalizes accountId, scan.db.discoveryComplete = false →
    ∀ candidate ∈ scan.db.seedKeys.candidatesOf account,
      ∀ key ∈ scan.db.imports.keys.rows, key.id = candidate.keyId →
        key.birthdayHeight < scan.nextHeight →
        ∃ engine ∈ scan.engine, key.id ∈ engine.keyIds ∧
          ∀ height : Nat, key.birthdayHeight ≤ height → height < engine.scannedFrom →
            Tried scan.tried key.id height

end Finalizing

section Finalizing

variable {material : IronwoodMaterial} {saplingActivation : Nat} {accountId : Int}
  {scan : WalletScan}

/-- A stretch that begins where the key was left covers it. -/
theorem WalletScan.Recorded.covered (h : scan.Recorded) {engine : ScanEngine}
    (hengine : engine ∈ scan.engine) {key : AccountKeyRow} (hkey : key.id ∈ engine.keyIds)
    (hbefore : ∀ height : Nat, key.birthdayHeight ≤ height → height < engine.scannedFrom →
      Tried scan.tried key.id height) : scan.Covered key := by
  intro height hborn htip
  have hcurrent : height < engine.currentHeight := by
    unfold WalletScan.nextHeight at htip
    rw [Option.mem_def.mp hengine] at htip
    exact htip
  by_cases hstretch : height < engine.scannedFrom
  · exact hbefore height hborn hstretch
  · exact h engine hengine key.id hkey height (not_lt.mp hstretch) hcurrent

/-- A candidate on which the run before a finalization resumed is covered. -/
theorem WalletScan.Recorded.covered_of_resumes (h : scan.Recorded) {st : ScanStep} {account : Int}
    (hfinalizes : account ∈ st.finalizes accountId)
    (hresumes : scan.ResumesLookahead accountId st) (hopen : scan.db.discoveryComplete = false)
    {candidate : SeedDerivedRow} (hcandidate : candidate ∈ scan.db.seedKeys.candidatesOf account)
    {key : AccountKeyRow} (hkey : key ∈ scan.db.imports.keys.rows)
    (hid : key.id = candidate.keyId) : scan.Covered key := by
  by_cases hborn : key.birthdayHeight < scan.nextHeight
  · obtain ⟨engine, hengine, hloaded, hbefore⟩ :=
      hresumes account hfinalizes hopen candidate hcandidate key hkey hid hborn
    exact h.covered hengine hloaded hbefore
  · intro height hfrom hbelow
    omega

/-- A finalization that does something is one of the discovery. -/
theorem finalizes_db {st : ScanStep} {account : Int} (hfinalizes : account ∈ st.finalizes accountId) :
    (scan.step material saplingActivation accountId st).db = scan.db ∨ ∃ joined stopsAfter,
      (scan.step material saplingActivation accountId st).db =
        (scan.db.finalizeLegacySaplingAccountDiscovery account joined stopsAfter).2 := by
  cases st with
  | call call =>
    cases call with
    | finalize finalized joined stopsAfter =>
      cases hfinalizes
      refine Or.inr ⟨joined, stopsAfter, ?_⟩
      unfold WalletScan.step WalletScan.move
      simp [SeedCall.takesLock, SeedDb.after]
    | _ => cases hfinalizes
  | finalizeAtTip stopsAfter =>
    cases hfinalizes
    show (scan.finalizeSeedDiscoveryAtTip accountId stopsAfter).db = scan.db ∨ _
    rcases @finalizeSeedDiscoveryAtTip_eq material accountId scan stopsAfter with
      hsame | ⟨engine, -, kept, -, -, -, hafter⟩
    · exact Or.inl (by rw [hsame])
    · refine Or.inr ⟨false, stopsAfter, ?_⟩
      show (scan.finalizeSeedDiscoveryAtTip accountId stopsAfter).db = _
      rw [hafter]
      rfl
  | _ => cases hfinalizes

theorem WalletScan.Recorded.finalizesScanned (h : scan.Recorded) {st : ScanStep}
    (hresumes : scan.ResumesLookahead accountId st) :
    scan.FinalizesScanned material saplingActivation accountId st := by
  intro account hfinalizes
  rcases @finalizes_db material saplingActivation accountId scan st account hfinalizes with
    hsame | ⟨joined, stopsAfter, hafter⟩
  · rw [hsame]
    exact ⟨fun key hkey hgone => absurd hkey hgone,
      fun hbefore hset => absurd (hbefore.symm.trans hset) (by decide)⟩
  · rw [hafter]
    by_cases hopen : scan.db.discoveryComplete = false
    · obtain ⟨⟨marker, hsettled⟩, -⟩ :=
        @finalizeLegacySaplingAccountDiscovery_spec account joined stopsAfter scan.db _ _ rfl
      refine ⟨?_, fun _ _ candidate hcandidate key hkey hid =>
        h.covered_of_resumes hfinalizes hresumes hopen hcandidate hkey hid⟩
      intro key hkey hgone
      rcases hsettled.keys key hkey with hkept | ⟨candidate, hcandidate, hid, -⟩
      · exact absurd hkept hgone
      · exact h.covered_of_resumes hfinalizes hresumes hopen hcandidate hkey hid.symm
    · -- with the marker set the call returns at once
      have hsame : (scan.db.finalizeLegacySaplingAccountDiscovery account joined stopsAfter).2 =
          scan.db := by
        unfold SeedDb.finalizeLegacySaplingAccountDiscovery
        rw [if_pos (by simpa using hopen)]
      rw [hsame]
      exact ⟨fun key hkey hgone => absurd hkey hgone, fun hbefore => absurd hbefore hopen⟩

end Finalizing

/-! ## Runs -/

/-- **A candidate is retired only after a full scan,** in every run in which each finalization
comes after a stretch that resumed where the candidate's key had been left. -/
theorem finalize_retires_scanned (material : IronwoodMaterial) (saplingActivation : Nat)
    (accountId : Int) (db : SeedDb) (steps : List ScanStep)
    (hsteps : Runs.EachStep (WalletScan.step material saplingActivation accountId)
      (WalletScan.ResumesLookahead accountId) (WalletScan.start accountId db) steps) :
    Runs.EachStep (WalletScan.step material saplingActivation accountId)
      (WalletScan.FinalizesScanned material saplingActivation accountId)
      (WalletScan.start accountId db) steps := by
  have hstart : (WalletScan.start accountId db).Recorded := fun _ hengine => nomatch hengine
  have hrecorded := Runs.run_invariant_always (fun scan st h =>
    @WalletScan.Recorded.step material saplingActivation accountId scan h st) hstart steps
  intro done st rest hsplit
  exact (hrecorded done ⟨st :: rest, hsplit.symm⟩).finalizesScanned (hsteps done st rest hsplit)

/-- What a rescan of the restored wallet meets: the secret, the wallet's birthday 100, and no
notes. -/
def restoredRescanReads : RescanReads where
  secret := some byteSecret
  walletBirthday := some 100
  createdAt := 1
  prepareFault := none
  notesRead := true
  now := "t"
  priorTargetHeight := 0
  truncated := some (0, AutoTable.empty)

/-- A server with six hundred blocks. -/
def sixHundredBlocks : ResumeServer where
  tipHeight := 600
  remoteHash := fun _ => .ok []
  givesTreeState := true

/-- An engine that has stored nothing. -/
def emptySyncEngine : SyncEngine where
  db := WalletDb.fresh "t"
  accountId := 1
  birthdayHeight := 0
  nullifierCache := ∅
  nullifierCacheLoaded := false
  trackedWalletTxids := ∅
  saplingTreePosition := 0
  orchardTreePosition := 0

/-- A rescan of the restored wallet that finds nothing up to the tip. -/
def restoredRescan (requestedFromHeight : Nat) : List ScanStep :=
  [.readRequirement requestedFromHeight "t", .planRescan restoredRescanReads, .openRescan,
    .beginRun sixHundredBlocks "t" emptySyncEngine, .scan 600 AutoTable.empty,
    .finalizeAtTip none]

/-- The restored wallet before the rescan finalizes. -/
def beforeFinalizing (requestedFromHeight : Nat) : WalletScan :=
  Runs.run (WalletScan.step taggedMaterial 50 1) (WalletScan.start 1 restoredSeedDb)
    ((restoredRescan requestedFromHeight).take 5)

/-- Requested from the birthday the rescan tries its candidates on every block and retires all
five. -/
theorem finalize_retires_scanned_from_birthday :
    Runs.EachStep (WalletScan.step taggedMaterial 50 1)
      (WalletScan.FinalizesScanned taggedMaterial 50 1) (WalletScan.start 1 restoredSeedDb)
      (restoredRescan 100) ∧
    (Runs.run (WalletScan.step taggedMaterial 50 1) (WalletScan.start 1 restoredSeedDb)
      (restoredRescan 100)).db.imports.keys.rows = [] := by
  refine ⟨finalize_retires_scanned taggedMaterial 50 1 restoredSeedDb _ ?_, by decide +kernel⟩
  refine Runs.eachStep_cons.mpr ⟨(fun _ h => nomatch h), Runs.eachStep_cons.mpr
    ⟨(fun _ h => nomatch h), Runs.eachStep_cons.mpr ⟨(fun _ h => nomatch h),
      Runs.eachStep_cons.mpr ⟨(fun _ h => nomatch h), Runs.eachStep_cons.mpr
        ⟨(fun _ h => nomatch h), Runs.eachStep_cons.mpr ⟨?_, Runs.eachStep_nil⟩⟩⟩⟩⟩⟩
  intro account haccount _ candidate _ key hkey _ _
  have hloaded : ∀ key ∈ (beforeFinalizing 100).db.imports.keys.rows,
      key.birthdayHeight = 100 ∧ ∃ engine ∈ (beforeFinalizing 100).engine,
        key.id ∈ engine.keyIds ∧ engine.scannedFrom = 100 := by
    decide +kernel
  obtain ⟨hbirthday, engine, hengine, hmem, hfrom⟩ := hloaded key hkey
  refine ⟨engine, hengine, hmem, fun height hborn hbelow => ?_⟩
  omega

/-- Requested from height 500 the rescan tries its candidates on the blocks from there on and
retires all five as well. -/
theorem rescan_retires_unscanned :
    ¬ Runs.EachStep (WalletScan.step taggedMaterial 50 1)
      (WalletScan.FinalizesScanned taggedMaterial 50 1) (WalletScan.start 1 restoredSeedDb)
      (restoredRescan 500) := by
  intro hscanned
  obtain ⟨hretired, -⟩ := hscanned ((restoredRescan 500).take 5) (.finalizeAtTip none) [] rfl 1 rfl
  have hgone : ∃ key ∈ (beforeFinalizing 500).db.imports.keys.rows,
      key ∉ ((beforeFinalizing 500).step taggedMaterial 50 1
          (.finalizeAtTip none)).db.imports.keys.rows ∧ key.birthdayHeight ≤ 100 ∧
        100 < (beforeFinalizing 500).nextHeight ∧
        ¬ Tried (beforeFinalizing 500).tried key.id 100 := by
    decide +kernel
  obtain ⟨key, hkey, hdeleted, hborn, hbelow, huntried⟩ := hgone
  exact huntried (hretired key hkey hdeleted 100 (by omega) hbelow)

end StashiWallet
