import StashiWallet.WitnessCheck

/-!
# When the check reports what can be spent

`check_witnesses` reports no range exactly when every row of its view in the window is complete
and no fewer notes are ready than it counts candidates (`repairRanges_eq_nil_iff`). The notes
that are ready are those of the other view that can be spent (`selectable_eq_ok`). The two
answers fit together as far as the two views do: what only one of them contains, and what is
counted by only one of them, decides the rest (`check_witnesses_agrees_iff`).
-/

namespace StashiWallet

/-! ## The rows of a view -/

/-- The row is the newest of its output that passes the check, and none of the output is
spent. -/
structure LatestOf (accountId : Int) (passes : NoteRow → Bool) (rows : List NoteRow)
    (key : OutputKey) (row : NoteRow) : Prop where
  mem : row ∈ rows
  accountId_eq : row.accountId = accountId
  outputKey_eq : row.outputKey = key
  passed : passes row = true
  unspent : ∀ other ∈ rows, other.accountId = accountId → other.outputKey = key →
    other.spent = false
  latest : ∀ other ∈ rows, other.accountId = accountId → other.outputKey = key →
    passes other = true → other.id ≤ row.id

section View

variable {accountId : Int} {passes : NoteRow → Bool} {seen : List NoteRow} {key : OutputKey}
  {row new : NoteRow}

/-- A row that is not of the account and the output changes nothing. -/
theorem latestOf_append_other (hother : new.accountId = accountId → new.outputKey ≠ key) :
    LatestOf accountId passes (seen ++ [new]) key row ↔ LatestOf accountId passes seen key row := by
  constructor
  · intro h
    have hmem : row ∈ seen := by
      rcases List.mem_append.mp h.mem with hmem | hnew
      · exact hmem
      · obtain rfl := List.mem_singleton.mp hnew
        exact absurd h.outputKey_eq (hother h.accountId_eq)
    exact ⟨hmem, h.accountId_eq, h.outputKey_eq, h.passed,
      fun other hin => h.unspent other (List.mem_append_left _ hin),
      fun other hin => h.latest other (List.mem_append_left _ hin)⟩
  · intro h
    refine ⟨List.mem_append_left _ h.mem, h.accountId_eq, h.outputKey_eq, h.passed, ?_, ?_⟩
    · intro other hin haccount hkey
      rcases List.mem_append.mp hin with hin | hnew
      · exact h.unspent other hin haccount hkey
      · obtain rfl := List.mem_singleton.mp hnew
        exact absurd hkey (hother haccount)
    · intro other hin haccount hkey
      rcases List.mem_append.mp hin with hin | hnew
      · exact h.latest other hin haccount hkey
      · obtain rfl := List.mem_singleton.mp hnew
        exact absurd hkey (hother haccount)

/-- An unspent row of the account and the output is the newest one, or leaves it the newest if it
is older or does not pass. -/
theorem latestOf_append_unspent (haccount : new.accountId = accountId)
    (hspent : new.spent = false) :
    LatestOf accountId passes (seen ++ [new]) new.outputKey row ↔
      (LatestOf accountId passes seen new.outputKey row ∧
        (passes new = true → new.id ≤ row.id)) ∨
      (row = new ∧ passes new = true ∧
        ∀ other ∈ seen, other.accountId = accountId → other.outputKey = new.outputKey →
          other.spent = false ∧ (passes other = true → other.id ≤ new.id)) := by
  have hnew : new ∈ seen ++ [new] := List.mem_append_right _ (List.mem_singleton_self new)
  constructor
  · intro h
    rcases List.mem_append.mp h.mem with hmem | hmem
    · refine Or.inl ⟨⟨hmem, h.accountId_eq, h.outputKey_eq, h.passed, ?_, ?_⟩, ?_⟩
      · exact fun other hin => h.unspent other (List.mem_append_left _ hin)
      · exact fun other hin => h.latest other (List.mem_append_left _ hin)
      · exact h.latest new hnew haccount rfl
    · obtain rfl := List.mem_singleton.mp hmem
      refine Or.inr ⟨rfl, h.passed, fun other hin hotherAccount hkey => ⟨?_, ?_⟩⟩
      · exact h.unspent other (List.mem_append_left _ hin) hotherAccount hkey
      · exact h.latest other (List.mem_append_left _ hin) hotherAccount hkey
  · rintro (⟨h, hnewer⟩ | ⟨rfl, hpasses, hothers⟩)
    · refine ⟨List.mem_append_left _ h.mem, h.accountId_eq, h.outputKey_eq, h.passed, ?_, ?_⟩
      · intro other hin hotherAccount hkey
        rcases List.mem_append.mp hin with hin | hin
        · exact h.unspent other hin hotherAccount hkey
        · rw [List.mem_singleton.mp hin]
          exact hspent
      · intro other hin hotherAccount hkey hotherPasses
        rcases List.mem_append.mp hin with hin | hin
        · exact h.latest other hin hotherAccount hkey hotherPasses
        · obtain rfl := List.mem_singleton.mp hin
          exact hnewer hotherPasses
    · refine ⟨hnew, haccount, rfl, hpasses, ?_, ?_⟩
      · intro other hin hotherAccount hkey
        rcases List.mem_append.mp hin with hin | hin
        · exact (hothers other hin hotherAccount hkey).1
        · rw [List.mem_singleton.mp hin]
          exact hspent
      · intro other hin hotherAccount hkey hotherPasses
        rcases List.mem_append.mp hin with hin | hin
        · exact (hothers other hin hotherAccount hkey).2 hotherPasses
        · rw [List.mem_singleton.mp hin]

/-- What holds of the scan after any number of rows. -/
structure ScanOf (accountId : Int) (passes : NoteRow → Bool) (seen : List NoteRow)
    (scan : UnspentScan) : Prop where
  spent : ∀ key, key ∈ scan.spentOutputs ↔
    ∃ row ∈ seen, row.accountId = accountId ∧ row.outputKey = key ∧ row.spent = true
  found : ∀ key row, scan.byOutput.lookup key = some row ↔
    LatestOf accountId passes seen key row
  covered : ∀ row ∈ seen, row.accountId = accountId → passes row = true →
    row.outputKey ∉ scan.spentOutputs → (scan.byOutput.lookup row.outputKey).isSome = true

/-- A scan that changed at the output of a row of the account only. -/
theorem ScanOf.extend {scan after : UnspentScan} (h : ScanOf accountId passes seen scan)
    (haccount : new.accountId = accountId)
    (hspent : ∀ key, key ∈ after.spentOutputs ↔
      key ∈ scan.spentOutputs ∨ (key = new.outputKey ∧ new.spent = true))
    (hothers : ∀ key, key ≠ new.outputKey →
      after.byOutput.lookup key = scan.byOutput.lookup key)
    (hown : ∀ row, after.byOutput.lookup new.outputKey = some row ↔
      LatestOf accountId passes (seen ++ [new]) new.outputKey row)
    (hcovered : new.outputKey ∉ after.spentOutputs →
      (passes new = true ∨ (scan.byOutput.lookup new.outputKey).isSome = true) →
        (after.byOutput.lookup new.outputKey).isSome = true) :
    ScanOf accountId passes (seen ++ [new]) after := by
  constructor
  · intro key
    rw [hspent, h.spent]
    constructor
    · rintro (⟨row, hrow, hrest⟩ | ⟨rfl, hnew⟩)
      · exact ⟨row, List.mem_append_left _ hrow, hrest⟩
      · exact ⟨new, List.mem_append_right _ (List.mem_singleton_self new), haccount, rfl, hnew⟩
    · rintro ⟨row, hrow, hrowAccount, hkey, hrowSpent⟩
      rcases List.mem_append.mp hrow with hrow | hrow
      · exact Or.inl ⟨row, hrow, hrowAccount, hkey, hrowSpent⟩
      · obtain rfl := List.mem_singleton.mp hrow
        exact Or.inr ⟨hkey.symm, hrowSpent⟩
  · intro key row
    by_cases hkey : key = new.outputKey
    · rw [hkey]
      exact hown row
    · rw [hothers key hkey, h.found, latestOf_append_other (fun _ heq => hkey heq.symm)]
  · intro row hrow hrowAccount hpasses hopen
    have hopen' : row.outputKey ∉ scan.spentOutputs := fun hin =>
      hopen ((hspent _).mpr (Or.inl hin))
    rcases List.mem_append.mp hrow with hrow | hrow
    · have hsome := h.covered row hrow hrowAccount hpasses hopen'
      by_cases hkey : row.outputKey = new.outputKey
      · rw [hkey] at hopen hsome ⊢
        exact hcovered hopen (Or.inr hsome)
      · rwa [hothers _ hkey]
    · obtain rfl := List.mem_singleton.mp hrow
      exact hcovered hopen (Or.inl hpasses)

/-- A row that passes is put under its output, unless a newer one is there. -/
theorem ScanOf.put {scan : UnspentScan} (h : ScanOf accountId passes seen scan)
    (hfresh : ∀ other ∈ seen, other.id ≠ new.id) (haccount : new.accountId = accountId)
    (hspent : new.spent = false) (hopen : new.outputKey ∉ scan.spentOutputs)
    (hpasses : passes new = true) :
    ScanOf accountId passes (seen ++ [new]) (match scan.byOutput.lookup new.outputKey with
      | some existing =>
        if existing.id < new.id then
          { scan with byOutput := scan.byOutput.insert new.outputKey new }
        else scan
      | none => { scan with byOutput := scan.byOutput.insert new.outputKey new }) := by
  have hsame : ∀ key, key ∈ scan.spentOutputs ↔
      key ∈ scan.spentOutputs ∨ (key = new.outputKey ∧ new.spent = true) := by
    intro key
    simp [hspent]
  have hunspent : ∀ other ∈ seen, other.accountId = accountId →
      other.outputKey = new.outputKey → other.spent = false := by
    intro other hin hotherAccount hkey
    by_contra hother
    exact hopen ((h.spent _).mpr
      ⟨other, hin, hotherAccount, hkey, Bool.eq_true_of_not_eq_false hother⟩)
  -- where the row is put, it is newer than every row that passes
  have hinserted : (∀ other ∈ seen, other.accountId = accountId →
        other.outputKey = new.outputKey → passes other = true → other.id < new.id) →
      ScanOf accountId passes (seen ++ [new])
        { scan with byOutput := scan.byOutput.insert new.outputKey new } := by
    intro hnewest
    refine h.extend haccount hsame (fun key hkey => AList.lookup_insert_ne hkey) ?_ (fun _ _ => ?_)
    · intro row
      rw [AList.lookup_insert, latestOf_append_unspent haccount hspent]
      constructor
      · rintro ⟨⟩
        refine Or.inr ⟨rfl, hpasses, fun other hin hotherAccount hkey => ⟨?_, ?_⟩⟩
        · exact hunspent other hin hotherAccount hkey
        · exact fun hother => (hnewest other hin hotherAccount hkey hother).le
      · rintro (⟨hrow, hle⟩ | ⟨rfl, _⟩)
        · have hlt := hnewest row hrow.mem hrow.accountId_eq hrow.outputKey_eq hrow.passed
          exact absurd (hle hpasses) (not_le.mpr hlt)
        · rfl
    · rw [AList.lookup_insert]
      rfl
  split
  · rename_i existing hexisting
    have hlatest := (h.found _ _).mp hexisting
    split
    · rename_i hnewer
      refine hinserted (fun other hin hotherAccount hkey hother => ?_)
      exact (hlatest.latest other hin hotherAccount hkey hother).trans_lt hnewer
    · rename_i holder
      refine h.extend haccount hsame (fun _ _ => rfl) ?_ (fun _ _ => ?_)
      · intro row
        rw [h.found, latestOf_append_unspent haccount hspent]
        constructor
        · intro hrow
          have hrow' := (h.found _ _).mpr hrow
          rw [hexisting] at hrow'
          obtain rfl := Option.some.inj hrow'
          exact Or.inl ⟨hrow, fun _ => not_lt.mp holder⟩
        · rintro (⟨hrow, _⟩ | ⟨rfl, _, hothers⟩)
          · exact hrow
          · have hle := (hothers existing hlatest.mem hlatest.accountId_eq
              hlatest.outputKey_eq).2 hlatest.passed
            exact absurd (le_antisymm hle (not_lt.mp holder)) (hfresh existing hlatest.mem)
      · rw [hexisting]
        rfl
  · rename_i hmissing
    refine hinserted (fun other hin hotherAccount hkey hother => ?_)
    have hsome := h.covered other hin hotherAccount hother (hkey ▸ hopen)
    rw [hkey, hmissing] at hsome
    cases hsome

/-- The step lemma of the loop. -/
theorem ScanOf.visit {scan : UnspentScan} (h : ScanOf accountId passes seen scan)
    (hfresh : ∀ other ∈ seen, other.id ≠ new.id) :
    ScanOf accountId passes (seen ++ [new]) (scan.visit accountId passes new) := by
  unfold UnspentScan.visit
  split
  · -- a row of another account
    rename_i haccount
    constructor
    · intro key
      rw [h.spent]
      simp only [List.mem_append, List.mem_singleton]
      constructor
      · rintro ⟨row, hrow, hrest⟩
        exact ⟨row, Or.inl hrow, hrest⟩
      · rintro ⟨row, hrow | rfl, hrowAccount, hrest⟩
        · exact ⟨row, hrow, hrowAccount, hrest⟩
        · exact absurd hrowAccount haccount
    · intro key row
      rw [h.found, latestOf_append_other (fun heq => absurd heq haccount)]
    · intro row hrow hrowAccount
      rcases List.mem_append.mp hrow with hrow | hrow
      · exact h.covered row hrow hrowAccount
      · obtain rfl := List.mem_singleton.mp hrow
        exact absurd hrowAccount haccount
  rename_i haccount
  replace haccount : new.accountId = accountId := not_not.mp haccount
  -- an output with a spent row has no newest row, before and after
  have hclosed : ∀ {spent : NoteRow}, spent ∈ seen ++ [new] → spent.accountId = accountId →
      spent.outputKey = new.outputKey → spent.spent = true → ∀ row,
      ¬ LatestOf accountId passes (seen ++ [new]) new.outputKey row := by
    intro spent hin hspentAccount hkey hspent row hlatest
    have hunspent := hlatest.unspent spent hin hspentAccount hkey
    rw [hspent] at hunspent
    cases hunspent
  split
  · rename_i hspent
    refine h.extend haccount ?_ (fun key hkey => AList.lookup_erase_ne hkey) ?_ ?_
    · intro key
      rw [List.mem_cons, or_comm, hspent]
      exact or_congr_right (and_iff_left rfl).symm
    · intro row
      rw [AList.lookup_erase]
      have hnot := hclosed (List.mem_append_right _ (List.mem_singleton_self new)) haccount rfl
        hspent row
      constructor
      · rintro ⟨⟩
      · exact fun hlatest => absurd hlatest hnot
    · exact fun hopen => absurd List.mem_cons_self hopen
  rename_i hspent
  replace hspent : new.spent = false := Bool.eq_false_of_not_eq_true hspent
  have hsame : ∀ key, key ∈ scan.spentOutputs ↔
      key ∈ scan.spentOutputs ∨ (key = new.outputKey ∧ new.spent = true) := by
    intro key
    simp [hspent]
  split
  · rename_i hin
    replace hin : new.outputKey ∈ scan.spentOutputs := List.contains_iff_mem.mp hin
    refine h.extend haccount hsame (fun _ _ => rfl) ?_ (fun hopen => absurd hin hopen)
    obtain ⟨spent, hmem, hspentAccount, hkey, hspentRow⟩ := (h.spent _).mp hin
    intro row
    have hnot := hclosed (List.mem_append_left _ hmem) hspentAccount hkey hspentRow row
    rw [h.found]
    refine ⟨fun hlatest => ?_, fun hlatest => absurd hlatest hnot⟩
    have hunspent := hlatest.unspent spent hmem hspentAccount hkey
    rw [hspentRow] at hunspent
    cases hunspent
  rename_i hopen
  replace hopen : new.outputKey ∉ scan.spentOutputs := fun hin =>
    hopen (List.contains_iff_mem.mpr hin)
  split
  · rename_i hfails
    replace hfails : passes new = false := by simpa using hfails
    refine h.extend haccount hsame (fun _ _ => rfl) ?_ ?_
    · intro row
      rw [h.found, latestOf_append_unspent haccount hspent]
      simp [hfails]
    · intro _ hcases
      exact hcases.resolve_left (by simp [hfails])
  · rename_i hpasses
    exact h.put hfresh haccount hspent hopen (by simpa using hpasses)

/-- What the loop over a table ends with. -/
theorem unspentScan_spec (accountId : Int) (passes : NoteRow → Bool) (notes : Notes) :
    ScanOf accountId passes notes.rows (notes.unspentScan accountId passes) := by
  -- induction on the rows still to read, with those read so far beside them
  have hloop : ∀ (todo seen : List NoteRow) (scan : UnspentScan),
      ((seen ++ todo).map NoteRow.id).Nodup → ScanOf accountId passes seen scan →
      ScanOf accountId passes (seen ++ todo)
        (todo.foldl (UnspentScan.visit accountId passes) scan) := by
    intro todo
    induction todo with
    | nil =>
      intro seen scan _ hscan
      rwa [List.append_nil]
    | cons row rest ih =>
      intro seen scan hnodup hscan
      have hfresh : ∀ other ∈ seen, other.id ≠ row.id := by
        intro other hother heq
        rw [List.map_append, List.nodup_append] at hnodup
        exact hnodup.2.2 other.id (List.mem_map_of_mem hother) row.id
          (List.mem_map_of_mem List.mem_cons_self) heq
      rw [List.append_cons] at hnodup ⊢
      exact ih (seen ++ [row]) _ hnodup (hscan.visit hfresh)
  refine hloop notes.rows [] ⟨[], ∅⟩ notes.ids_nodup ⟨?_, ?_, ?_⟩
  · intro key
    simp
  · intro key row
    constructor
    · rintro ⟨⟩
    · exact fun hlatest => absurd hlatest.mem List.not_mem_nil
  · exact List.forall_mem_nil _

theorem mem_latestUnspent {notes : Notes} :
    row ∈ notes.latestUnspent accountId passes ↔
      LatestOf accountId passes notes.rows row.outputKey row := by
  have hscan := unspentScan_spec accountId passes notes
  unfold Notes.latestUnspent
  rw [List.mem_map]
  constructor
  · rintro ⟨⟨key, found⟩, hentry, rfl⟩
    have hlatest := (hscan.found key found).mp (AList.mem_lookup_iff.mpr hentry)
    rwa [hlatest.outputKey_eq]
  · intro hlatest
    exact ⟨⟨row.outputKey, row⟩, AList.mem_lookup_iff.mp ((hscan.found _ _).mpr hlatest), rfl⟩

/-- A view has one row for each output. -/
theorem latestUnspent_nodup (accountId : Int) (passes : NoteRow → Bool) (notes : Notes) :
    ((notes.latestUnspent accountId passes).map (·.outputKey)).Nodup := by
  have hscan := unspentScan_spec accountId passes notes
  have hkeys : (notes.latestUnspent accountId passes).map (·.outputKey) =
      (notes.unspentScan accountId passes).byOutput.keys := by
    unfold Notes.latestUnspent AList.keys List.keys
    rw [List.map_map]
    refine List.map_congr_left fun entry hentry => ?_
    exact ((hscan.found entry.1 entry.2).mp (AList.mem_lookup_iff.mpr hentry)).outputKey_eq
  rw [hkeys]
  exact AList.keys_nodup _

end View

/-! ## The notes that are ready -/

section Ready

variable {Path : Type} {parts : NoteParts} {trees : ShardTrees Path} {tables : WitnessTables}
  {accountId : Int} {anchorHeight walletBirthday : Nat} {noteType : NoteType}

/-- A shard is looked up among those that were asked for. -/
theorem loadBlockedShardRanges_isEmpty {shardIndices : List Nat} {shardIndex : Nat}
    (hmem : shardIndex ∈ shardIndices) :
    (tables.loadBlockedShardRanges noteType anchorHeight walletBirthday shardIndices
        shardIndex).isEmpty =
      tables.shardScanned noteType anchorHeight walletBirthday shardIndex := by
  unfold WitnessTables.shardScanned WitnessTables.loadBlockedShardRanges
  rw [if_pos (List.contains_iff_mem.mpr hmem),
    if_pos (List.contains_iff_mem.mpr (List.mem_singleton_self shardIndex))]

/-- A queued range is not empty, so it does not matter whether it starts from 0 or 1. -/
theorem shardScanned_zero (shardIndex : Nat) :
    tables.shardScanned noteType anchorHeight 0 shardIndex =
      tables.shardScanned noteType anchorHeight 1 shardIndex := by
  unfold WitnessTables.shardScanned WitnessTables.loadBlockedShardRanges
  have hfilter : ∀ range ∈ tables.shardUnscannedRanges noteType,
      (range.1 == shardIndex && decide (range.2.1 ≤ anchorHeight) && decide (0 < range.2.2)) =
      (range.1 == shardIndex && decide (range.2.1 ≤ anchorHeight) && decide (1 < range.2.2)) := by
    intro range hrange
    obtain ⟨shard, -, hrange⟩ := List.mem_flatMap.mp hrange
    obtain ⟨row, -, rfl⟩ := List.mem_map.mp hrange
    have hstart := row.start_pos
    have hnonempty := row.nonempty
    have hend : (0 < row.rangeEnd) = (1 < row.rangeEnd) := propext (by omega)
    simp only [hend]
  rw [List.filter_congr hfilter]

theorem mapM_eq_ok {α β : Type} {f : α → Except StorageError (Option β)} {values : List α}
    {results : List (Option β)} (h : values.mapM f = .ok results) :
    results.filterMap id = values.filterMap (fun value => (f value).toOption.join) := by
  induction values generalizing results with
  | nil =>
    obtain rfl := Except.ok.inj h
    rfl
  | cons value rest ih =>
    rw [List.mapM_cons] at h
    obtain ⟨first, hfirst, h⟩ := bind_eq_ok h
    obtain ⟨others, hothers, h⟩ := bind_eq_ok h
    obtain rfl := Except.ok.inj h
    have hjoin : (f value).toOption.join = first := by
      rw [hfirst]
      rfl
    rw [List.filterMap_cons, List.filterMap_cons, ih hothers, hjoin]
    rfl

theorem constructAnchorWitnesses_eq_ok {notes ready : List (SelectableNote Path)}
    (hanchor : 0 < anchorHeight)
    (h : tables.db.constructAnchorWitnesses trees anchorHeight notes = .ok ready) :
    ready = notes.filterMap (tables.hydrated trees anchorHeight) := by
  unfold WalletDb.constructAnchorWitnesses at h
  by_cases hempty : notes = []
  · subst hempty
    obtain rfl := Except.ok.inj h
    rfl
  · rw [if_neg (by simp [hempty, hanchor.ne'])] at h
    obtain ⟨roots, hroots, h⟩ := bind_eq_ok h
    obtain ⟨results, hresults, h⟩ := bind_eq_ok h
    obtain rfl := Except.ok.inj h
    rw [mapM_eq_ok hresults]
    refine List.filterMap_congr fun note _ => ?_
    unfold WitnessTables.hydrated
    rw [hroots]

theorem anchorToI64_eq_ok {name : String} {value result : Nat}
    (h : anchorToI64 name value = .ok result) : value ≤ i64Max ∧ value = result := by
  unfold anchorToI64 toI64Or at h
  split at h
  · rename_i hfits
    exact ⟨hfits, Except.ok.inj h⟩
  · cases h

/-- **The selection at an anchor** returns what it makes of the unspent notes, one by one. -/
theorem selectable_eq_ok {ready : List (SelectableNote Path)} (hanchor : 0 < anchorHeight)
    (h : tables.getUnspentSelectableNotesAtAnchorFiltered parts trees accountId anchorHeight none
      none = .ok ready) :
    anchorHeight ≤ i64Max ∧ ready = (tables.db.notes.getUnspentNotes accountId).filterMap
      (tables.readyNote parts trees accountId anchorHeight) := by
  unfold WitnessTables.getUnspentSelectableNotesAtAnchorFiltered at h
  rw [if_neg hanchor.ne'] at h
  obtain ⟨anchor, hconverted, h⟩ := bind_eq_ok h
  obtain ⟨hfits, rfl⟩ := anchorToI64_eq_ok hconverted
  obtain ⟨birthday, hconverted', h⟩ := bind_eq_ok h
  obtain ⟨-, rfl⟩ := anchorToI64_eq_ok hconverted'
  refine ⟨hfits, (constructAnchorWitnesses_eq_ok hanchor h).trans ?_⟩
  dsimp only
  -- the shards of the notes were asked for
  rw [List.filter_congr (q := fun note : SelectableNote Path => note.shardIndex.any
    (fun shardIndex => tables.shardScanned note.noteType anchorHeight
      ((tables.getWalletBirthdayHeight accountId).getD 0) shardIndex)) ?_]
  · unfold Notes.getUnspentSelectableNotesFiltered
    have hall : (tables.db.notes.getUnspentNotes accountId).filter
        (NoteRow.matchesFilters none none) = tables.db.notes.getUnspentNotes accountId :=
      List.filter_eq_self.mpr (fun _ _ => rfl)
    rw [hall, List.filterMap_filter, List.filterMap_filter, List.filterMap_filter,
      List.filterMap_filterMap]
    refine List.filterMap_congr fun row _ => ?_
    unfold WitnessTables.readyNote
    cases row.selectable parts with
    | none => rfl
    | some note =>
      show (if _ then if _ then if _ then _ else none else none else none) = if _ then _ else none
      cases hheight : (decide (note.height ≤ anchorHeight) &&
          decide ((tables.getWalletBirthdayHeight accountId).getD 0 ≤ note.height)) with
      | false => rfl
      | true =>
        cases hshard : note.shardIndex with
        | none => simp
        | some shardIndex =>
          -- a note with a shard has a position
          have hposition : note.position.isSome = true := by
            obtain ⟨position, hposition, -⟩ := Option.bind_eq_some_iff.mp hshard
            exact Option.isSome_iff_exists.mpr
              ⟨position, (Option.filter_eq_some_iff.mp hposition).1⟩
          rw [if_pos rfl, if_pos hposition]
          rfl
  · intro note hnote
    cases hshard : note.shardIndex with
    | none => rfl
    | some shardIndex =>
      refine loadBlockedShardRanges_isEmpty (List.mem_filterMap.mpr ⟨note, ?_, hshard⟩)
      exact List.mem_filter.mpr ⟨hnote, beq_self_eq_true _⟩

/-- What a selectable note takes from its row. -/
structure Selected (row : NoteRow) (note : SelectableNote Path) : Prop where
  noteType : note.noteType = row.noteType
  position : note.position = match row.noteType with
    | .sapling => (row.position.filter (fun position => 0 ≤ position)).map Int.toNat
    | .ironwood => row.position.map asU64
  material : row.witnessMeta.hasNoteMaterial = true
  unwitnessed : note.merklePath = none ∧ note.ironwoodMerklePath = none ∧
    note.ironwoodAnchor = none

theorem hasNoteMaterial_of_parse {α : Type} {row : NoteRow} {parse : Bytes → Option α} {parsed : α}
    (h : row.note.bind parse = some parsed) (hempty : parse [] = none) :
    row.witnessMeta.hasNoteMaterial = true := by
  obtain ⟨bytes, hbytes, hparsed⟩ := Option.bind_eq_some_iff.mp h
  show row.note.any (fun value => !value.isEmpty) = true
  rw [hbytes]
  cases bytes with
  | nil => exact absurd hparsed (by rw [hempty]; exact nofun)
  | cons byte rest => rfl

theorem selected_of_selectable {row : NoteRow} {note : SelectableNote Path}
    (h : row.selectable parts = some note) : Selected row note := by
  unfold NoteRow.selectable at h
  split at h
  · rename_i htype
    unfold NoteRow.saplingSelectable at h
    obtain ⟨parsed, hparsed, h⟩ := Option.bind_eq_some_iff.mp h
    have hmaterial := hasNoteMaterial_of_parse hparsed rfl
    obtain ⟨_, -, h⟩ := Option.bind_eq_some_iff.mp h
    obtain ⟨_, -, h⟩ := Option.bind_eq_some_iff.mp h
    obtain ⟨_, -, h⟩ := Option.bind_eq_some_iff.mp h
    obtain rfl := Option.some.inj h
    refine ⟨htype.symm, ?_, hmaterial, rfl, rfl, rfl⟩
    rw [htype]
    rfl
  · rename_i htype
    unfold NoteRow.ironwoodSelectable at h
    obtain ⟨parsed, hparsed, h⟩ := Option.bind_eq_some_iff.mp h
    have hmaterial := hasNoteMaterial_of_parse hparsed rfl
    obtain ⟨_, -, h⟩ := Option.bind_eq_some_iff.mp h
    obtain ⟨_, -, h⟩ := Option.bind_eq_some_iff.mp h
    obtain ⟨_, -, h⟩ := Option.bind_eq_some_iff.mp h
    obtain ⟨_, -, h⟩ := Option.bind_eq_some_iff.mp h
    obtain ⟨_, -, h⟩ := Option.bind_eq_some_iff.mp h
    obtain ⟨position, hposition, h⟩ := Option.bind_eq_some_iff.mp h
    obtain rfl := Option.some.inj h
    refine ⟨htype.symm, ?_, hmaterial, rfl, rfl, rfl⟩
    rw [htype, hposition]
    rfl

theorem hydrateSapling_eq_some {depth : Option Nat} {root : Option Bytes}
    {note hydrated : SelectableNote Path} (hnone : note.merklePath = none)
    (h : note.hydrateSapling trees depth root = .ok (some hydrated)) :
    ∃ path, hydrated = { note with merklePath := some path } := by
  unfold SelectableNote.hydrateSapling at h
  split at h
  · cases h
  · split at h
    · rename_i hsome
      rw [hnone] at hsome
      cases hsome
    · split at h
      · obtain ⟨witness, -, h⟩ := bind_eq_ok h
        split at h
        · cases h
        · split at h
          · cases h
          · split at h
            · exact ⟨_, (Option.some.inj (Except.ok.inj h)).symm⟩
            · cases h
      · cases h

theorem hydrateIronwood_eq_some {depth : Option Nat} {anchor : Option Bytes}
    {note hydrated : SelectableNote Path} (hnone : note.ironwoodAnchor = none)
    (h : note.hydrateIronwood trees depth anchor = .ok (some hydrated)) :
    ∃ path root, hydrated =
      { note with ironwoodMerklePath := some path, ironwoodAnchor := some root } := by
  unfold SelectableNote.hydrateIronwood at h
  split at h
  · split at h
    · rename_i hsome
      rw [hnone, Option.isSome_none, Bool.and_false] at hsome
      cases hsome
    · split at h
      · obtain ⟨merklePath, -, h⟩ := bind_eq_ok h
        split at h
        · cases h
        · split at h
          · exact ⟨_, _, (Option.some.inj (Except.ok.inj h)).symm⟩
          · cases h
      · cases h
  · cases h

/-- A note that a witness was found for is the note with its witness. -/
theorem hydrated_eq_some {note hydrated : SelectableNote Path}
    (hunwitnessed : note.merklePath = none ∧ note.ironwoodMerklePath = none ∧
      note.ironwoodAnchor = none)
    (h : tables.hydrated trees anchorHeight note = some hydrated) :
    hydrated.withoutWitness = note ∧ hydrated.hasWitness = true := by
  obtain ⟨hmerkle, hironwood, hanchor⟩ := hunwitnessed
  have hsame : note.withoutWitness = note := by
    cases note
    simp only at hmerkle hironwood hanchor
    subst hmerkle hironwood hanchor
    rfl
  unfold WitnessTables.hydrated at h
  split at h
  · rename_i roots hroots
    have hfound : roots.hydrate trees note = .ok (some hydrated) := by
      cases hresult : roots.hydrate trees note with
      | error e =>
        rw [hresult] at h
        cases h
      | ok found =>
        rw [hresult] at h
        exact congrArg Except.ok h
    unfold AnchorRoots.hydrate at hfound
    split at hfound
    · rename_i htype
      obtain ⟨path, rfl⟩ := hydrateSapling_eq_some hmerkle hfound
      refine ⟨hsame, ?_⟩
      unfold SelectableNote.hasWitness
      rw [htype]
      rfl
    · rename_i htype
      obtain ⟨path, root, rfl⟩ := hydrateIronwood_eq_some hanchor hfound
      refine ⟨hsame, ?_⟩
      unfold SelectableNote.hasWitness
      rw [htype]
      rfl
  · cases h

/-- A row that is ready is selectable, in a shard that is scanned. -/
theorem readyNote_eq_some {row : NoteRow} {ready : SelectableNote Path}
    (h : tables.readyNote parts trees accountId anchorHeight row = some ready) :
    row.selectable parts = some ready.withoutWitness ∧ ready.hasWitness = true ∧
      Selected row ready.withoutWitness ∧
      ready.withoutWitness.shardIndex.any (fun shardIndex => tables.shardScanned row.noteType
        anchorHeight ((tables.getWalletBirthdayHeight accountId).getD 0) shardIndex) = true := by
  obtain ⟨note, hselectable, h⟩ := Option.bind_eq_some_iff.mp h
  have hselected := selected_of_selectable hselectable
  split at h
  · rename_i hpassed
    obtain ⟨rfl, hwitness⟩ := hydrated_eq_some hselected.unwitnessed h
    refine ⟨hselectable, hwitness, hselected, ?_⟩
    rw [← hselected.noteType]
    exact (Bool.and_eq_true_iff.mp hpassed).2
  · cases h

/-- The notes of the window are all returned exactly when each of them is ready. -/
theorem allReady_iff {ready : List (SelectableNote Path)}
    (hready : ready = (tables.db.notes.getUnspentNotes accountId).filterMap
      (tables.readyNote parts trees accountId anchorHeight)) :
    tables.AllReady parts accountId anchorHeight ready ↔
      tables.unspendableNotes parts trees accountId anchorHeight = [] := by
  unfold WitnessTables.AllReady WitnessTables.unspendableNotes
  rw [List.filter_eq_nil_iff, hready]
  refine forall₂_congr fun row hrow => ?_
  rw [Bool.not_eq_true, Option.isNone_eq_false_iff]
  constructor
  · rintro ⟨note, hnote, hselectable, -⟩
    obtain ⟨other, -, hother⟩ := List.mem_filterMap.mp hnote
    -- what becomes of a row depends on the selectable note only
    have hsame : tables.readyNote parts trees accountId anchorHeight row =
        tables.readyNote parts trees accountId anchorHeight other := by
      unfold WitnessTables.readyNote
      rw [hselectable, (readyNote_eq_some hother).1]
    rw [hsame, hother]
    rfl
  · intro hsome
    obtain ⟨note, hnote⟩ := Option.isSome_iff_exists.mp hsome
    obtain ⟨hselectable, hwitness, -⟩ := readyNote_eq_some hnote
    exact ⟨note, List.mem_filterMap.mpr ⟨row, List.mem_of_mem_filter hrow, hnote⟩, hselectable,
      hwitness⟩

/-- The shard of a selectable note is the one the check looks at. -/
theorem Selected.shardIndex {row : NoteRow} {note : SelectableNote Path} (h : Selected row note)
    (hfits : row.PositionFits) {shardIndex : Nat} (hshard : note.shardIndex = some shardIndex) :
    row.witnessMeta.shardIndex = some shardIndex := by
  obtain ⟨position, hposition, hindex⟩ := Option.bind_eq_some_iff.mp hshard
  obtain ⟨hposition, hsmall⟩ := Option.filter_eq_some_iff.mp hposition
  have hsmall' : position ≤ i64Max := of_decide_eq_true hsmall
  rw [h.position] at hposition
  obtain ⟨stored, hstored, hnonneg, rfl⟩ : ∃ stored, row.position = some stored ∧ 0 ≤ stored ∧
      position = stored.toNat := by
    split at hposition
    · obtain ⟨stored, hstored, heq⟩ := Option.map_eq_some_iff.mp hposition
      obtain ⟨hstored, hnonneg⟩ := Option.filter_eq_some_iff.mp hstored
      exact ⟨stored, hstored, of_decide_eq_true hnonneg, heq.symm⟩
    · obtain ⟨stored, hstored, heq⟩ := Option.map_eq_some_iff.mp hposition
      obtain ⟨hlow, hhigh⟩ := hfits stored hstored
      unfold asU64 at heq
      unfold i64Max at hsmall'
      have hnonneg : 0 ≤ stored := by omega
      exact ⟨stored, hstored, hnonneg, by omega⟩
  have hmeta : row.witnessMeta.notePosition = some stored :=
    Option.filter_eq_some_iff.mpr ⟨hstored, decide_eq_true hnonneg⟩
  unfold WitnessCheckNoteMeta.shardIndex
  rw [hmeta, Option.bind_some, ← hindex, Int.toNat_of_nonneg hnonneg]

/-- A row that is ready is complete. -/
theorem complete_of_ready {row : NoteRow} (hfits : row.PositionFits)
    (h : (tables.readyNote parts trees accountId anchorHeight row).isSome = true) :
    tables.complete anchorHeight (tables.checkBirthday accountId) row = true := by
  obtain ⟨ready, hready⟩ := Option.isSome_iff_exists.mp h
  obtain ⟨-, -, hselected, hscanned⟩ := readyNote_eq_some hready
  cases hshard : ready.withoutWitness.shardIndex with
  | none =>
    rw [hshard] at hscanned
    cases hscanned
  | some shardIndex =>
    rw [hshard] at hscanned
    unfold WitnessTables.complete
    rw [hselected.material, hselected.shardIndex hfits hshard, Bool.true_and]
    -- an account without keys has birthday 0 in one function and 1 in the other
    unfold WitnessTables.checkBirthday
    cases hbirthday : tables.getWalletBirthdayHeight accountId with
    | none =>
      rw [hbirthday] at hscanned
      exact (shardScanned_zero shardIndex).symm.trans hscanned
    | some birthday =>
      rw [hbirthday] at hscanned
      exact hscanned

theorem checkBirthday_pos (tables : WitnessTables) (accountId : Int) :
    0 < tables.checkBirthday accountId := by
  unfold WitnessTables.checkBirthday WitnessTables.getWalletBirthdayHeight
  cases hmin : ((tables.accountKeys.ofAccount accountId).map (fun key =>
      if 0 < key.birthdayHeight then key.birthdayHeight else 1)).min? with
  | none => exact Nat.one_pos
  | some birthday =>
    obtain ⟨key, -, hkey⟩ := List.mem_map.mp (List.min?_mem hmin)
    show 0 < birthday.toNat
    split at hkey
    · omega
    · omega

end Ready

/-! ## What the check reports -/

section Check

variable {tables : WitnessTables} {birthday anchorHeight : Nat}
  {blocked : NoteType → Nat → List (Nat × Nat)}

/-- The check finds nothing to scan again for the note. -/
def WitnessCheckNoteMeta.settled (birthday anchorHeight : Nat)
    (blocked : NoteType → Nat → List (Nat × Nat)) (note : WitnessCheckNoteMeta) : Prop :=
  (note.heightWithin birthday anchorHeight).isSome = true →
    note.hasNoteMaterial = true ∧ note.notePosition.isSome = true ∧ note.blockedRanges blocked = []

theorem miss_pendingRanges (noteType : NoteType) (ranges : List (Nat × Nat)) (scan : WitnessScan) :
    (scan.miss noteType ranges).pendingRanges = scan.pendingRanges ++ ranges ∧
      (scan.miss noteType ranges).anchorCandidates = scan.anchorCandidates := by
  cases noteType
  · exact ⟨rfl, rfl⟩
  · exact ⟨rfl, rfl⟩

/-- The step lemma of the loop: a range is pending for every note that is not settled. -/
theorem visitMeta_spec (scan : WitnessScan) (note : WitnessCheckNoteMeta) :
    ((tables.visitMeta birthday anchorHeight blocked scan note).pendingRanges = [] ↔
      scan.pendingRanges = [] ∧ note.settled birthday anchorHeight blocked) ∧
    (tables.visitMeta birthday anchorHeight blocked scan note).anchorCandidates =
      scan.anchorCandidates ++
        ((note.heightWithin birthday anchorHeight).bind note.anchorCandidate).toList := by
  unfold WitnessTables.visitMeta WitnessCheckNoteMeta.settled
  cases hheight : note.heightWithin birthday anchorHeight with
  | none => simp
  | some height =>
    cases hblocked : note.blockedRanges blocked with
    | cons range ranges =>
      dsimp only
      rw [(miss_pendingRanges _ _ _).1, (miss_pendingRanges _ _ _).2]
      simp
    | nil =>
      dsimp only
      split
      · rename_i hmissing
        rw [(miss_pendingRanges _ _ _).1, (miss_pendingRanges _ _ _).2]
        simp only [Bool.or_eq_true, Bool.not_eq_true', Option.isNone_iff_eq_none] at hmissing
        refine ⟨?_, rfl⟩
        rcases hmissing with hmissing | hmissing
        · simp [hmissing]
        · simp [hmissing]
      · rename_i hpresent
        rw [Bool.not_eq_true, Bool.or_eq_false_iff, Bool.not_eq_false', Option.isNone_eq_false_iff]
          at hpresent
        refine ⟨?_, rfl⟩
        simp [hpresent.1, hpresent.2]

/-- The run lemma of the loop. -/
theorem foldl_visitMeta (metas : List WitnessCheckNoteMeta) (scan : WitnessScan) :
    ((metas.foldl (tables.visitMeta birthday anchorHeight blocked) scan).pendingRanges = [] ↔
      scan.pendingRanges = [] ∧ ∀ note ∈ metas, note.settled birthday anchorHeight blocked) ∧
    (metas.foldl (tables.visitMeta birthday anchorHeight blocked) scan).anchorCandidates =
      scan.anchorCandidates ++ metas.filterMap
        (fun note => (note.heightWithin birthday anchorHeight).bind note.anchorCandidate) := by
  induction metas generalizing scan with
  | nil => simp
  | cons note rest ih =>
    obtain ⟨hpending, hcandidates⟩ := @visitMeta_spec tables birthday anchorHeight blocked scan note
    obtain ⟨hrest, hrestCandidates⟩ := ih (tables.visitMeta birthday anchorHeight blocked scan note)
    rw [List.foldl_cons]
    refine ⟨?_, ?_⟩
    · rw [hrest, hpending, List.forall_mem_cons, and_assoc]
    · rw [hrestCandidates, hcandidates, List.filterMap_cons, List.append_assoc]
      cases (note.heightWithin birthday anchorHeight).bind note.anchorCandidate <;> rfl

theorem repairRanges_eq_nil_iff_pending (scan : WitnessScan) :
    scan.result.repairRanges = [] ↔ scan.pendingRanges = [] := by
  have hmerged : ∀ (ranges merged : List (Nat × Nat)), merged ≠ [] →
      ranges.foldl mergeRanges merged ≠ [] := by
    intro ranges
    induction ranges with
    | nil => exact fun _ hmerged => hmerged
    | cons range rest ih =>
      intro merged hmerged
      refine ih _ ?_
      unfold mergeRanges
      split
      · split
        · simp
        · simp
      · simp
  have hsorted : scan.pendingRanges.insertionSort rangeBefore = [] ↔ scan.pendingRanges = [] := by
    rw [← List.length_eq_zero_iff, List.length_insertionSort, List.length_eq_zero_iff]
  unfold WitnessScan.result
  dsimp only
  rw [← hsorted]
  cases scan.pendingRanges.insertionSort rangeBefore with
  | nil => exact Iff.rfl
  | cons range rest =>
    refine iff_of_false (hmerged rest _ ?_) (List.cons_ne_nil _ _)
    exact List.cons_ne_nil _ _

/-- Fewer ready notes than candidates leave a candidate that is missing. -/
theorem missingCandidates_ne_nil {Path : Type} {candidates : List AnchorCandidate}
    {ready : List (SelectableNote Path)}
    (hnodup : (candidates.map (fun candidate =>
      (candidate.txid, candidate.outputIndex, candidate.notePool))).Nodup)
    (hfewer : ready.length < candidates.length) : missingCandidates candidates ready ≠ [] := by
  intro hnone
  have hsubset : candidates.map (fun candidate =>
      (candidate.txid, candidate.outputIndex, candidate.notePool)) ⊆
      ready.map (fun note => (note.txid, note.outputIndex, note.noteType)) := by
    intro key hkey
    obtain ⟨candidate, hcandidate, rfl⟩ := List.mem_map.mp hkey
    have hfound := List.filter_eq_nil_iff.mp hnone candidate hcandidate
    simpa using hfound
  have hlength := (List.subperm_of_subset hnodup hsubset).length_le
  rw [List.length_map, List.length_map] at hlength
  omega

theorem u32TryFrom_eq_some {value : Int} {index : Nat} (h : u32TryFrom value = some index) :
    value = (index : Int) := by
  unfold u32TryFrom at h
  split at h
  · rename_i hrange
    obtain rfl := Option.some.inj h
    exact (Int.toNat_of_nonneg hrange.1).symm
  · cases h

/-- A candidate is found under the output of its row. -/
theorem anchorCandidate_eq_some {row : NoteRow} {height : Nat} {candidate : AnchorCandidate}
    (h : row.witnessMeta.anchorCandidate height = some candidate) :
    row.outputKey = (candidate.txid, (candidate.outputIndex : Int), candidate.notePool) := by
  unfold WitnessCheckNoteMeta.anchorCandidate at h
  obtain ⟨_, -, h⟩ := Option.bind_eq_some_iff.mp h
  obtain ⟨position, -, h⟩ := Option.bind_eq_some_iff.mp h
  obtain ⟨outputIndex, hindex, h⟩ := Option.bind_eq_some_iff.mp h
  obtain rfl := Option.some.inj h
  have hindex' : row.outputIndex = (outputIndex : Int) := u32TryFrom_eq_some hindex
  unfold NoteRecord.outputKey
  rw [hindex']
  rfl

theorem anchorCandidates_nodup {rows : List NoteRow}
    (hnodup : (rows.map (·.outputKey)).Nodup) :
    (((rows.map NoteRow.witnessMeta).filterMap (fun note =>
      (note.heightWithin birthday anchorHeight).bind note.anchorCandidate)).map (fun candidate =>
        (candidate.txid, candidate.outputIndex, candidate.notePool))).Nodup := by
  unfold List.Nodup at hnodup ⊢
  rw [List.pairwise_map] at hnodup ⊢
  rw [List.pairwise_filterMap, List.pairwise_map]
  refine hnodup.imp fun {row other} hne candidate hcandidate candidate' hcandidate' heq => hne ?_
  obtain ⟨height, -, hcandidate⟩ := Option.bind_eq_some_iff.mp hcandidate
  obtain ⟨height', -, hcandidate'⟩ := Option.bind_eq_some_iff.mp hcandidate'
  rw [anchorCandidate_eq_some hcandidate, anchorCandidate_eq_some hcandidate']
  simp only [Prod.mk.injEq] at heq
  rw [heq.1, heq.2.1, heq.2.2]

theorem heightWithin_isSome (hbirthday : 0 < birthday) (row : NoteRow) :
    (row.witnessMeta.heightWithin birthday anchorHeight).isSome =
      row.inWindow birthday anchorHeight := by
  unfold WitnessCheckNoteMeta.heightWithin NoteRecord.inWindow
  show (if 0 < row.height ∧ (birthday : Int) ≤ row.height ∧ row.height ≤ (anchorHeight : Int) then
    some row.height.toNat else none).isSome = _
  by_cases hwithin : (birthday : Int) ≤ row.height ∧ row.height ≤ (anchorHeight : Int)
  · rw [if_pos ⟨by omega, hwithin⟩, decide_eq_true hwithin.1, decide_eq_true hwithin.2]
    rfl
  · rw [if_neg (fun h => hwithin h.2), ← Bool.decide_and, decide_eq_false hwithin]
    rfl

/-- A note with a position has a shard. -/
theorem shardIndex_isSome (note : WitnessCheckNoteMeta) :
    note.shardIndex.isSome = note.notePosition.isSome := by
  unfold WitnessCheckNoteMeta.shardIndex
  cases hposition : note.notePosition with
  | none => rfl
  | some position =>
    have hnonneg : 0 ≤ position := of_decide_eq_true (Option.filter_eq_some_iff.mp hposition).2
    show (if position < 0 then none else some (position.toNat >>> noteShardIndexBits)).isSome = _
    rw [if_neg (not_lt.mpr hnonneg)]
    rfl

/-- A row whose shard was asked for is settled when it is complete. -/
theorem settled_iff_complete {shardIndices : NoteType → List Nat} {row : NoteRow}
    (hbirthday : 0 < birthday)
    (hasked : row.inWindow birthday anchorHeight = true → ∀ shardIndex,
      row.witnessMeta.shardIndex = some shardIndex → shardIndex ∈ shardIndices row.noteType) :
    row.witnessMeta.settled birthday anchorHeight (fun noteType =>
        tables.loadBlockedShardRanges noteType anchorHeight birthday (shardIndices noteType)) ↔
      (row.inWindow birthday anchorHeight = true →
        tables.complete anchorHeight birthday row = true) := by
  unfold WitnessCheckNoteMeta.settled WitnessTables.complete
  rw [heightWithin_isSome hbirthday, Bool.and_eq_true]
  refine forall_congr' fun hwindow => and_congr_right fun _ => ?_
  rw [← shardIndex_isSome]
  unfold WitnessCheckNoteMeta.blockedRanges
  cases hshard : row.witnessMeta.shardIndex with
  | none => simp
  | some shardIndex =>
    have hmem := hasked hwindow shardIndex hshard
    rw [Option.any_some, ← loadBlockedShardRanges_isEmpty hmem, List.isEmpty_iff]
    exact and_iff_right rfl

/-- Where every row of the window is complete, the candidates are those with a `u32` index. -/
theorem length_anchorCandidates {rows : List NoteRow} (hbirthday : 0 < birthday)
    (hcomplete : ∀ row ∈ rows, row.inWindow birthday anchorHeight = true →
      tables.complete anchorHeight birthday row = true) :
    ((rows.map NoteRow.witnessMeta).filterMap (fun note =>
      (note.heightWithin birthday anchorHeight).bind note.anchorCandidate)).length =
    (rows.filter (fun row => row.inWindow birthday anchorHeight)).countP
      (fun row => (u32TryFrom row.outputIndex).isSome) := by
  rw [List.length_filterMap_eq_countP, List.countP_map, List.countP_filter]
  refine List.countP_congr fun row hrow => ?_
  rw [← heightWithin_isSome hbirthday]
  show ((row.witnessMeta.heightWithin birthday anchorHeight).bind
    row.witnessMeta.anchorCandidate).isSome = true ↔ _
  cases hheight : row.witnessMeta.heightWithin birthday anchorHeight with
  | none => simp
  | some height =>
    have hwindow : row.inWindow birthday anchorHeight = true := by
      rw [← heightWithin_isSome hbirthday, hheight]
      rfl
    obtain ⟨hmaterial, hshard⟩ := Bool.and_eq_true_iff.mp (hcomplete row hrow hwindow)
    have hposition : row.witnessMeta.notePosition.isSome = true := by
      rw [← shardIndex_isSome]
      exact Option.isSome_of_any hshard
    obtain ⟨position, hposition⟩ := Option.isSome_iff_exists.mp hposition
    rw [Option.bind_some]
    unfold WitnessCheckNoteMeta.anchorCandidate
    rw [hmaterial, hposition]
    show (u32TryFrom row.outputIndex >>= fun _ => _).isSome = true ↔ _
    cases u32TryFrom row.outputIndex <;> simp

/-- The second part of the check adds a range where fewer notes are ready than candidates are
counted. -/
theorem checkAnchor_pending {Path : Type} {parts : NoteParts} {trees : ShardTrees Path}
    {accountId : Int} {scan after : WitnessScan} {ready : List (SelectableNote Path)}
    (hready : tables.getUnspentSelectableNotesAtAnchorFiltered parts trees accountId anchorHeight
      none none = .ok ready)
    (hnodup : (scan.anchorCandidates.map (fun candidate =>
      (candidate.txid, candidate.outputIndex, candidate.notePool))).Nodup)
    (h : tables.checkAnchor parts trees accountId anchorHeight birthday scan = .ok after) :
    after.pendingRanges = [] ↔
      scan.pendingRanges = [] ∧ scan.anchorCandidates.length ≤ ready.length := by
  unfold WitnessTables.checkAnchor at h
  split at h
  · rename_i hempty
    obtain rfl := Except.ok.inj h
    rw [List.isEmpty_iff.mp hempty]
    exact (and_iff_left (Nat.zero_le _)).symm
  · rw [hready] at h
    obtain ⟨anchorReady, hanchorReady, h⟩ := bind_eq_ok h
    obtain rfl := Except.ok.inj hanchorReady
    split at h
    · rename_i hfewer
      split at h
      · rename_i hnone
        exact absurd hnone (missingCandidates_ne_nil hnodup hfewer)
      · obtain ⟨range, -, h⟩ := bind_eq_ok h
        obtain rfl := Except.ok.inj h
        refine iff_of_false ?_ (fun hboth => absurd hboth.2 (not_le.mpr hfewer))
        exact List.append_ne_nil_of_right_ne_nil _ (List.cons_ne_nil _ _)
    · rename_i henough
      obtain rfl := Except.ok.inj h
      exact (and_iff_left (not_lt.mp henough)).symm

/-- **What the check reports**: no range is left exactly when every row of its view in the window
is complete, and no fewer notes are ready than rows are counted. -/
theorem repairRanges_eq_nil_iff {Path : Type} {parts : NoteParts} {trees : ShardTrees Path}
    {accountId : Int} {ready : List (SelectableNote Path)} {result : WitnessCheckResult}
    (hanchor : 0 < anchorHeight)
    (hready : tables.getUnspentSelectableNotesAtAnchorFiltered parts trees accountId anchorHeight
      none none = .ok ready)
    (hcheck : tables.checkWitnesses parts trees accountId anchorHeight
      (tables.checkBirthday accountId) = .ok result) :
    result.repairRanges = [] ↔
      (∀ row ∈ tables.checkedRows accountId anchorHeight,
        tables.complete anchorHeight (tables.checkBirthday accountId) row = true) ∧
      (tables.checkedRows accountId anchorHeight).countP
        (fun row => (u32TryFrom row.outputIndex).isSome) ≤ ready.length := by
  have hbirthday := checkBirthday_pos tables accountId
  unfold WitnessTables.checkWitnesses at hcheck
  rw [max_eq_left hbirthday] at hcheck
  unfold WitnessTables.checkedRows
  unfold Notes.getUnspentNoteWitnessMetas at hcheck
  have hkeys := latestUnspent_nodup accountId (fun _ => true) tables.db.notes
  generalize tables.db.notes.latestUnspent accountId (fun _ => true) = rows at hcheck hkeys ⊢
  generalize tables.checkBirthday accountId = birthday at hbirthday hcheck ⊢
  dsimp only at hcheck
  split at hcheck
  · rename_i hstop
    obtain rfl := Except.ok.inj hcheck
    have hrows : rows = [] := by
      have hmetas := List.isEmpty_iff.mp (hstop.resolve_left hanchor.ne')
      exact List.map_eq_nil_iff.mp hmetas
    rw [hrows]
    exact iff_of_true rfl ⟨List.forall_mem_nil _, Nat.zero_le _⟩
  · obtain ⟨anchor, hconverted, hcheck⟩ := bind_eq_ok hcheck
    obtain ⟨-, rfl⟩ := anchorToI64_eq_ok hconverted
    obtain ⟨birthday', hconverted', hcheck⟩ := bind_eq_ok hcheck
    obtain ⟨-, rfl⟩ := anchorToI64_eq_ok hconverted'
    obtain ⟨after, hafter, hcheck⟩ := bind_eq_ok hcheck
    obtain rfl := Except.ok.inj hcheck
    obtain ⟨hpending, hcandidates⟩ := foldl_visitMeta (rows.map NoteRow.witnessMeta)
      (⟨0, 0, 0, [], []⟩ : WitnessScan)
    rw [repairRanges_eq_nil_iff_pending, checkAnchor_pending hready ?_ hafter, hcandidates, hpending,
      List.nil_append]
    · -- the shards of the rows of the window were asked for
      have hsettled : (∀ note ∈ rows.map NoteRow.witnessMeta, note.settled birthday anchorHeight
            (fun noteType => tables.loadBlockedShardRanges noteType anchorHeight birthday
              (((rows.map NoteRow.witnessMeta).filter (fun note => note.noteType == noteType &&
                (note.heightWithin birthday anchorHeight).isSome)).filterMap
                  WitnessCheckNoteMeta.shardIndex))) ↔
          ∀ row ∈ rows, row.inWindow birthday anchorHeight = true →
            tables.complete anchorHeight birthday row = true := by
        rw [List.forall_mem_map]
        refine forall₂_congr fun row hrow => ?_
        refine settled_iff_complete hbirthday (fun hwindow shardIndex hshard => ?_)
        refine List.mem_filterMap.mpr ⟨row.witnessMeta, List.mem_filter.mpr ⟨?_, ?_⟩, hshard⟩
        · exact List.mem_map_of_mem hrow
        · rw [heightWithin_isSome hbirthday, hwindow, Bool.and_true]
          exact beq_self_eq_true _
      rw [hsettled, List.forall_mem_filter, eq_self_iff_true, true_and]
      refine and_congr_right fun hcomplete => ?_
      rw [length_anchorCandidates hbirthday hcomplete]
    · rw [hcandidates]
      exact anchorCandidates_nodup hkeys

end Check

/-! ## The two views together -/

section Agree

variable {Path : Type} {parts : NoteParts} {trees : ShardTrees Path} {tables : WitnessTables}
  {accountId : Int} {anchorHeight : Nat} {row : NoteRow}

/-- A row of the view of the check with a valid value is a row of the other view. -/
theorem getUnspentNotes_of_valid {notes : Notes}
    (hrow : row ∈ notes.latestUnspent accountId (fun _ => true))
    (hvalid : noteValueIsValid row.value = true) : row ∈ notes.getUnspentNotes accountId := by
  have h := mem_latestUnspent.mp hrow
  refine mem_latestUnspent.mpr ⟨h.mem, h.accountId_eq, h.outputKey_eq, hvalid, h.unspent, ?_⟩
  exact fun other hin haccount hkey _ => h.latest other hin haccount hkey rfl

theorem value_valid_of_mem {notes : Notes} (hrow : row ∈ notes.getUnspentNotes accountId) :
    noteValueIsValid row.value = true :=
  (mem_latestUnspent.mp hrow).passed

theorem latestUnspent_rows_nodup (accountId : Int) (passes : NoteRow → Bool) (notes : Notes) :
    (notes.latestUnspent accountId passes).Nodup :=
  (latestUnspent_nodup accountId passes notes).of_map _

/-- The checked rows with a valid value are the notes of the window that the check sees. -/
theorem checkedRows_valid_perm :
    ((tables.checkedRows accountId anchorHeight).filter
        (fun row => noteValueIsValid row.value)).Perm
      ((tables.windowNotes accountId anchorHeight).filter
        (fun row => row ∈ tables.checkedRows accountId anchorHeight)) := by
  refine (List.perm_ext_iff_of_nodup ?_ ?_).mpr fun row => ?_
  · exact ((latestUnspent_rows_nodup _ _ _).filter _).filter _
  · exact ((latestUnspent_rows_nodup _ _ _).filter _).filter _
  · rw [List.mem_filter, List.mem_filter, decide_eq_true_iff]
    constructor
    · rintro ⟨hchecked, hvalid⟩
      obtain ⟨hrow, hwindow⟩ := List.mem_filter.mp hchecked
      exact ⟨List.mem_filter.mpr ⟨getUnspentNotes_of_valid hrow hvalid, hwindow⟩, hchecked⟩
    · rintro ⟨hnote, hchecked⟩
      exact ⟨hchecked, value_valid_of_mem (List.mem_of_mem_filter hnote)⟩

/-- The checked rows are the ignored ones and the notes of the window that are not hidden. -/
theorem length_checkedRows :
    (tables.checkedRows accountId anchorHeight).length +
        ((tables.windowNotes accountId anchorHeight).filter
          (fun row => row ∉ tables.checkedRows accountId anchorHeight)).length =
      (tables.ignoredRows accountId anchorHeight).length +
        (tables.windowNotes accountId anchorHeight).length := by
  have hchecked := (tables.checkedRows accountId anchorHeight).length_eq_length_filter_add
    (fun row => noteValueIsValid row.value)
  have hnotes := (tables.windowNotes accountId anchorHeight).length_eq_length_filter_add
    (fun row => row ∈ tables.checkedRows accountId anchorHeight)
  simp only [← decide_not] at hnotes
  have hshared := (@checkedRows_valid_perm tables accountId anchorHeight).length_eq
  unfold WitnessTables.ignoredRows
  omega

/-- The ready notes are those of the window that can be spent, and those outside it. -/
theorem length_ready {ready : List (SelectableNote Path)}
    (hready : ready = (tables.db.notes.getUnspentNotes accountId).filterMap
      (tables.readyNote parts trees accountId anchorHeight)) :
    ready.length + (tables.unspendableNotes parts trees accountId anchorHeight).length =
      (tables.windowNotes accountId anchorHeight).length +
        ((tables.db.notes.getUnspentNotes accountId).filter (fun row =>
          !row.inWindow (tables.checkBirthday accountId) anchorHeight &&
            (tables.readyNote parts trees accountId anchorHeight row).isSome)).length := by
  have hall := ((tables.db.notes.getUnspentNotes accountId).filter (fun row =>
    (tables.readyNote parts trees accountId anchorHeight row).isSome)).length_eq_length_filter_add
      (fun row => row.inWindow (tables.checkBirthday accountId) anchorHeight)
  have hwindow := (tables.windowNotes accountId anchorHeight).length_eq_length_filter_add
    (fun row => (tables.readyNote parts trees accountId anchorHeight row).isSome)
  rw [← List.countP_eq_length_filter, ← List.length_filterMap_eq_countP, ← hready,
    List.filter_comm] at hall
  nth_rewrite 2 [List.filter_filter] at hall
  simp only [Option.not_isSome] at hwindow
  unfold WitnessTables.unspendableNotes
  unfold WitnessTables.windowNotes at hwindow ⊢
  omega

/-- **The count comparison**: as many notes are ready as rows are counted, unless the ignored rows
and the notes that cannot be spent are more than what is not counted. -/
theorem counted_le_ready_iff {ready : List (SelectableNote Path)}
    (hready : ready = (tables.db.notes.getUnspentNotes accountId).filterMap
      (tables.readyNote parts trees accountId anchorHeight)) :
    (tables.checkedRows accountId anchorHeight).countP
        (fun row => (u32TryFrom row.outputIndex).isSome) ≤ ready.length ↔
      (tables.ignoredRows accountId anchorHeight).length +
          (tables.unspendableNotes parts trees accountId anchorHeight).length ≤
        (tables.uncountedRows parts trees accountId anchorHeight).length := by
  have hcounted := (tables.checkedRows accountId anchorHeight).length_eq_length_filter_add
    (fun row => (u32TryFrom row.outputIndex).isSome)
  simp only [Option.not_isSome] at hcounted
  have hchecked := @length_checkedRows tables accountId anchorHeight
  have hspendable := length_ready hready
  rw [List.countP_eq_length_filter]
  unfold WitnessTables.uncountedRows
  rw [List.length_append, List.length_append]
  omega

/-- Where all notes of the window can be spent, only ignored rows can be incomplete. -/
theorem checkedRows_complete_iff
    (hfits : ∀ row ∈ tables.db.notes.rows, row.PositionFits)
    (hspendable : tables.unspendableNotes parts trees accountId anchorHeight = []) :
    (∀ row ∈ tables.checkedRows accountId anchorHeight,
        tables.complete anchorHeight (tables.checkBirthday accountId) row = true) ↔
      ∀ row ∈ tables.ignoredRows accountId anchorHeight,
        tables.complete anchorHeight (tables.checkBirthday accountId) row = true := by
  constructor
  · exact fun hcomplete row hrow => hcomplete row (List.mem_of_mem_filter hrow)
  · intro hignored row hchecked
    by_cases hvalid : noteValueIsValid row.value = true
    · obtain ⟨hrow, hwindow⟩ := List.mem_filter.mp hchecked
      have hnote : row ∈ tables.windowNotes accountId anchorHeight :=
        List.mem_filter.mpr ⟨getUnspentNotes_of_valid hrow hvalid, hwindow⟩
      have hready := List.filter_eq_nil_iff.mp hspendable row hnote
      rw [Bool.not_eq_true, Option.isNone_eq_false_iff] at hready
      exact complete_of_ready (hfits row (mem_latestUnspent.mp hrow).mem) hready
    · exact hignored row (List.mem_filter.mpr ⟨hchecked, by simpa using hvalid⟩)

/-- **Repair and readiness**: for the notes tables in every state, `check_witnesses` reports no
range exactly when every note of the window can be spent at the anchor, exactly under
`ChecksReadiness`. -/
theorem check_witnesses_agrees_iff {Path : Type} (parts : NoteParts) (trees : ShardTrees Path)
    (tables : WitnessTables) (accountId : Int) (anchorHeight : Nat) (hanchor : 0 < anchorHeight)
    (hfits : ∀ row ∈ tables.db.notes.rows, row.PositionFits)
    {ready : List (SelectableNote Path)} {result : WitnessCheckResult}
    (hready : tables.getUnspentSelectableNotesAtAnchorFiltered parts trees accountId anchorHeight
      none none = .ok ready)
    (hcheck : tables.checkWitnesses parts trees accountId anchorHeight
      (tables.checkBirthday accountId) = .ok result) :
    (result.repairRanges = [] ↔ tables.AllReady parts accountId anchorHeight ready) ↔
      tables.ChecksReadiness parts trees accountId anchorHeight := by
  obtain ⟨-, hready'⟩ := selectable_eq_ok hanchor hready
  rw [repairRanges_eq_nil_iff hanchor hready hcheck, counted_le_ready_iff hready',
    allReady_iff hready']
  unfold WitnessTables.ChecksReadiness
  split
  · rename_i hspendable
    rw [checkedRows_complete_iff hfits hspendable, iff_true_right hspendable, hspendable]
    exact Iff.rfl
  · rename_i hunspendable
    rw [iff_false_right hunspendable, not_and_or, not_le]
    refine or_congr ?_ Iff.rfl
    simp only [not_forall, exists_prop, Bool.not_eq_true]

/-- A wallet with one key and one Sapling note at height 100, with its value and note bytes. -/
def oneNoteTables (value : Int) (note : Option Bytes) : WitnessTables where
  db := { WalletDb.fresh "" with
    notes := (Notes.insertNote
      { accountId := 1, keyId := some 1, noteType := .sapling, value, nullifier := [7],
        commitment := [8], spent := false, height := 100, txid := [9], outputIndex := 0,
        addressId := none, spentTxid := none, diversifier := none, note, position := some 5,
        memo := none } AutoTable.empty).2 }
  accountKeys := AccountKeys.insert
    { accountId := 1, keyType := .seed, keyScope := .account, label := none, birthdayHeight := 1,
      createdAt := 0, spendable := true, saplingExtsk := none, saplingDfvk := none,
      orchardExtsk := none, orchardFvk := none, encryptedMnemonic := none } AutoTable.empty
  saplingTreeShards := []
  orchardTreeShards := []

/-- Libraries that accept nothing; a row without note bytes never reaches them. -/
def nothingParsed : NoteParts where
  saplingAddress _ := false
  saplingRcm _ := false
  orchardAddress _ := false
  orchardRho _ := false
  orchardRseed _ _ := false
  orchardNote _ := false

/-- Shard trees without checkpoints. -/
def bareTrees : ShardTrees Unit where
  saplingWitness _ _ := .ok none
  saplingRoot _ := .ok none
  saplingCommitment _ := false
  saplingPathRoot _ _ := []
  orchardWitness _ _ := .ok none
  orchardAnchor _ := .ok none
  orchardCommitment _ := []
  orchardPathRoot _ _ := []

/-- A note without its bytes cannot be spent, and its blocks are to be scanned again. -/
theorem check_witnesses_agrees_unparsed :
    (oneNoteTables 5 none).ChecksReadiness nothingParsed bareTrees 1 200 ∧
      ([(100, 201)] = ([] : List (Nat × Nat)) ↔
        (oneNoteTables 5 none).AllReady nothingParsed 1 200 ([] : List (SelectableNote Unit))) := by
  have hcondition : (oneNoteTables 5 none).ChecksReadiness nothingParsed bareTrees 1 200 := by
    decide +kernel
  have hcheck : (oneNoteTables 5 none).checkWitnesses nothingParsed bareTrees 1 200
      ((oneNoteTables 5 none).checkBirthday 1) = .ok ⟨1, 1, 0, [(100, 201)]⟩ := by
    decide +kernel
  refine ⟨hcondition, (check_witnesses_agrees_iff nothingParsed bareTrees (oneNoteTables 5 none)
    1 200 (by decide) ?_ (by decide +kernel) hcheck).mpr hcondition⟩
  intro row hrow
  obtain rfl := List.mem_singleton.mp hrow
  intro position hposition
  obtain rfl := Option.some.inj hposition
  decide

/-- A row with value 0 is no note of `get_unspent_notes`, and still the blocks from the birthday
to the anchor are reported for it. -/
theorem zero_value_row_keeps_repair :
    (oneNoteTables 0 (some [1])).db.notes.getUnspentNotes 1 = [] ∧
    (oneNoteTables 0 (some [1])).getUnspentSelectableNotesAtAnchorFiltered nothingParsed bareTrees
      1 200 none none = .ok [] ∧
    (oneNoteTables 0 (some [1])).AllReady nothingParsed 1 200 ([] : List (SelectableNote Unit)) ∧
    (oneNoteTables 0 (some [1])).checkWitnesses nothingParsed bareTrees 1 200
      ((oneNoteTables 0 (some [1])).checkBirthday 1) = .ok ⟨1, 1, 0, [(1, 201)]⟩ := by
  decide +kernel

end Agree

end StashiWallet
