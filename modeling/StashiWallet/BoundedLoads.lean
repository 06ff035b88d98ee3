import StashiWallet.BlockCacheRuns
import StashiWallet.BlockCodec
import StashiWallet.Greedy
import StashiWallet.SegmentRouter

/-!
# Loading cached blocks within budgets

A scan reads the cache in pieces: from the height it has come to, as many consecutive rows as stay
within a budget of bytes and one of work, and always one row. The next piece begins behind the last
block of this one. Rows outside the recorded intervals count as absent, and a row that has to be
decoded and cannot be fails the load.

The pieces together are the consecutive rows that count, whatever the budgets.
-/

namespace StashiWallet

structure LoadedBlockRange where
  blocks : List CompactBlockData
  legacyHeights : List Nat
  encodedBytes : Nat
  shieldedWorkItems : Nat
deriving DecidableEq, Repr

def LoadedBlockRange.empty : LoadedBlockRange := ⟨[], [], 0, 0⟩

/-- The budgets and the factors of `load_bounded_work_range_for_upgrade`. -/
structure LoadBudget where
  maxEncodedBytes : Nat
  maxShieldedWorkItems : Nat
  saplingWorkFactor : Nat
  ironwoodWorkFactor : Nat
deriving DecidableEq, Repr

/-- A row with the block it holds. -/
abbrev CachedEntry := CachedBlockRow × CompactBlockData

section Load

-- `decode_block`.
variable (decode : Bytes → Except StorageError CompactBlockData) (budget : LoadBudget)

/-- The rest of the loop body once a row is taken. -/
def LoadedBlockRange.push (loaded : LoadedBlockRange) (row : CachedBlockRow)
    (block : CompactBlockData) : LoadedBlockRange where
  blocks := loaded.blocks ++ [block]
  legacyHeights :=
    if row.data.take 5 = CACHE_RECORD_MAGIC then loaded.legacyHeights
    else loaded.legacyHeights ++ [row.height.toNat]
  encodedBytes := saturatingAdd loaded.encodedBytes row.data.length
  shieldedWorkItems := saturatingAdd loaded.shieldedWorkItems
    (block.shieldedWorkItems budget.saplingWorkFactor budget.ironwoodWorkFactor)

/-- The loop of `load_bounded_work_range_for_upgrade` over the ordered rows. -/
def loadRows : Nat → LoadedBlockRange → List CachedBlockRow → Except StorageError LoadedBlockRange
  | _, loaded, [] => .ok loaded
  | expected, loaded, row :: rows => do
    let height ← heightOfColumn "Negative block-cache height" row.height
    if height ≠ expected then .ok loaded
    else if loaded.blocks ≠ [] ∧
        saturatingAdd loaded.encodedBytes row.data.length > max budget.maxEncodedBytes 1 then
      .ok loaded
    else do
      let block ← decode row.data
      let blockWorkItems :=
        block.shieldedWorkItems budget.saplingWorkFactor budget.ironwoodWorkFactor
      if loaded.blocks ≠ [] ∧
          saturatingAdd loaded.shieldedWorkItems blockWorkItems > max budget.maxShieldedWorkItems 1
        then .ok loaded
      else loadRows (saturatingAdd expected 1) (loaded.push budget row block) rows

namespace BlockCache

/-- `SELECT height, data FROM blocks WHERE height BETWEEN ?1 AND ?2 ORDER BY height ASC`. -/
def rowsBetween (cache : BlockCache) (start stop : Nat) : List CachedBlockRow :=
  (cache.blocks.filter fun row =>
    decide (asI64 start ≤ row.height) && decide (row.height ≤ asI64 stop)).insertionSort
      fun row other => row.height ≤ other.height

def loadBoundedWorkRangeForUpgrade (cache : BlockCache) (start stop : Nat) :
    Except StorageError LoadedBlockRange :=
  if start > stop then .ok .empty
  else do
    match ← cache.coverageEnd start with
    | some coveredEnd =>
      loadRows decode budget start .empty (cache.rowsBetween start (min stop coveredEnd))
    | none =>
      if cache.hasRecordedCoverage then .ok .empty
      else loadRows decode budget start .empty (cache.rowsBetween start stop)

end BlockCache

/-- What the flow asks of one load. -/
structure LoadTargets where
  targetBlocks : Nat
  budget : LoadBudget

/-- How far the loop over the cache has come. -/
structure CacheCursor where
  current : Nat
  turns : Nat
  loaded : List CompactBlockData

/-- One turn of the repeated loading of `produce_prefetched_batches`, as long as the cache has
blocks. The targets change from turn to turn. The source goes on only if
`cached_blocks_are_canonical` finds the piece in order; a turn here takes every piece. -/
def cacheTurn (cache : BlockCache) (targets : Nat → LoadTargets) (stop : Nat)
    (cursor : CacheCursor) :
    WhileLoop.Turn CacheCursor (Except StorageError (List CompactBlockData)) :=
  if cursor.current > stop then .leave (.ok cursor.loaded)
  else
    let target := targets cursor.turns
    let localEnd := min stop (saturatingAdd cursor.current (max target.targetBlocks 1 - 1))
    match cache.loadBoundedWorkRangeForUpgrade decode target.budget cursor.current localEnd with
    | .error e => .leave (.error e)
    | .ok cached =>
      match cached.blocks.getLast? with
      | none => .leave (.ok cursor.loaded)
      | some last =>
        .again ⟨saturatingAdd last.height 1, cursor.turns + 1, cursor.loaded ++ cached.blocks⟩

/-! ## What one load returns -/

/-- What a load makes of rows it takes. -/
def loadedRange (run : List CachedEntry) : LoadedBlockRange :=
  run.foldl (fun loaded entry => loaded.push budget entry.1 entry.2) .empty

/-- Rows of consecutive heights. -/
def ConsecutiveFrom (start : Nat) (run : List CachedEntry) : Prop :=
  run.map (fun entry => entry.1.height) =
    (List.range' start run.length).map (Nat.cast : Nat → Int)

instance (start : Nat) (run : List CachedEntry) : Decidable (ConsecutiveFrom start run) :=
  inferInstanceAs (Decidable (_ = _))

/-- The totals stay within both budgets, each at least one; a single row always does. -/
def WithinBudget (run : List CachedEntry) : Prop :=
  run.length ≤ 1 ∨
    (loadedRange budget run).encodedBytes ≤ max budget.maxEncodedBytes 1 ∧
      (loadedRange budget run).shieldedWorkItems ≤ max budget.maxShieldedWorkItems 1

instance (run : List CachedEntry) : Decidable (WithinBudget budget run) :=
  inferInstanceAs (Decidable (_ ∨ _ ∧ _))

/-- Consecutive rows of the cache from a height on, with their blocks, as far as heights count. -/
structure IsRun (cache : BlockCache) (Counts : Nat → Prop) (start stop : Nat)
    (run : List CachedEntry) : Prop where
  consecutive : ConsecutiveFrom start run
  stored : ∀ entry ∈ run, entry.1 ∈ cache.blocks ∧ decode entry.1.data = .ok entry.2
  counts : ∀ entry ∈ run, entry.1.height ≤ stop ∧ Counts entry.1.height.toNat

/-- The longest run within the budgets. -/
structure IsLongestRun (cache : BlockCache) (Counts : Nat → Prop) (start stop : Nat)
    (run : List CachedEntry) : Prop where
  isRun : IsRun decode cache Counts start stop run
  within : WithinBudget budget run
  longest : ∀ other, IsRun decode cache Counts start stop other → WithinBudget budget other →
    other.length ≤ run.length

end Load

section Consecutive

variable {start : Nat} {run : List CachedEntry} {entry : CachedEntry}

theorem consecutiveFrom_concat :
    ConsecutiveFrom start (run ++ [entry]) ↔
      ConsecutiveFrom start run ∧ entry.1.height = ((start + run.length : Nat) : Int) := by
  unfold ConsecutiveFrom
  rw [List.map_append, List.length_append, List.length_singleton, List.range'_concat,
    List.map_append, List.map_singleton, List.map_singleton, List.append_singleton_inj, Nat.one_mul]

theorem consecutiveFrom_append {more : List CachedEntry} :
    ConsecutiveFrom start (run ++ more) ↔
      ConsecutiveFrom start run ∧ ConsecutiveFrom (start + run.length) more := by
  induction more using List.reverseRecOn with
  | nil => simp [ConsecutiveFrom]
  | append_singleton more entry ih =>
    rw [← List.append_assoc, consecutiveFrom_concat, ih, consecutiveFrom_concat, and_assoc,
      List.length_append, Nat.add_assoc]

theorem consecutiveFrom_cons :
    ConsecutiveFrom start (entry :: run) ↔
      entry.1.height = (start : Int) ∧ ConsecutiveFrom (start + 1) run := by
  unfold ConsecutiveFrom
  rw [List.map_cons, List.length_cons, List.range'_succ, List.map_cons, List.cons.injEq]

theorem ConsecutiveFrom.ge (h : ConsecutiveFrom start run) (hentry : entry ∈ run) :
    (start : Int) ≤ entry.1.height := by
  have hmem := List.mem_map_of_mem hentry (f := fun entry => entry.1.height)
  rw [h, List.mem_map] at hmem
  obtain ⟨height, hheight, heq⟩ := hmem
  have := List.mem_range'_1.mp hheight
  omega

/-- A run of heights is an initial part of the ordered rows from its first height on. -/
theorem ConsecutiveFrom.initial {entries : List CachedEntry} (h : ConsecutiveFrom start run)
    (hsorted : entries.Pairwise fun a b => a.1.height < b.1.height)
    (hge : ∀ entry ∈ entries, (start : Int) ≤ entry.1.height)
    (hmem : ∀ entry ∈ run, entry ∈ entries) : ∃ left, entries = run ++ left := by
  induction run generalizing start entries with
  | nil => exact ⟨entries, rfl⟩
  | cons entry run ih =>
    obtain ⟨hheight, hrun⟩ := consecutiveFrom_cons.mp h
    cases entries with
    | nil => exact absurd (hmem entry List.mem_cons_self) List.not_mem_nil
    | cons first entries =>
      obtain ⟨hfirst, hafter⟩ := List.pairwise_cons.mp hsorted
      obtain ⟨hstart, hrest⟩ := List.forall_mem_cons.mp hge
      obtain rfl : entry = first := by
        rcases List.mem_cons.mp (hmem entry List.mem_cons_self) with heq | hlater
        · exact heq
        · have := hfirst entry hlater
          omega
      obtain ⟨left, hleft⟩ := ih hrun hafter
        (fun later hlater => by
          have := hfirst later hlater
          push_cast
          omega)
        (fun later hlater => by
          rcases List.mem_cons.mp (hmem later (List.mem_cons_of_mem _ hlater)) with heq | hin
          · have := hrun.ge hlater
            rw [heq] at this
            push_cast at this
            omega
          · exact hin)
      exact ⟨left, by rw [hleft, List.cons_append]⟩

end Consecutive

section Budget

variable {decode : Bytes → Except StorageError CompactBlockData} {budget : LoadBudget}
  {run more : List CachedEntry} {entry : CachedEntry}

theorem loadedRange_concat :
    loadedRange budget (run ++ [entry]) = (loadedRange budget run).push budget entry.1 entry.2 := by
  simp [loadedRange]

theorem loadedRange_blocks : (loadedRange budget run).blocks = run.map Prod.snd := by
  induction run using List.reverseRecOn with
  | nil => rfl
  | append_singleton run entry ih =>
    rw [loadedRange_concat, List.map_append, ← ih]
    rfl

theorem loadedRange_blocks_ne_nil : (loadedRange budget run).blocks ≠ [] ↔ run ≠ [] := by
  rw [loadedRange_blocks, Ne, List.map_eq_nil_iff]

/-- The totals are `u64`. -/
theorem loadedRange_le :
    (loadedRange budget run).encodedBytes ≤ u64Max ∧
      (loadedRange budget run).shieldedWorkItems ≤ u64Max := by
  induction run using List.reverseRecOn with
  | nil => exact ⟨Nat.zero_le _, Nat.zero_le _⟩
  | append_singleton run entry ih =>
    rw [loadedRange_concat]
    exact ⟨min_le_right _ _, min_le_right _ _⟩

/-- What stays within the budgets does so without its last row. -/
theorem WithinBudget.of_concat (h : WithinBudget budget (run ++ [entry])) :
    WithinBudget budget run := by
  rcases h with hshort | ⟨hbytes, hwork⟩
  · left
    simp at hshort
    simp [hshort]
  · obtain ⟨hbytes', hwork'⟩ := @loadedRange_le budget run
    right
    rw [loadedRange_concat] at hbytes hwork
    simp only [LoadedBlockRange.push, saturatingAdd] at hbytes hwork
    omega

/-- Whether a row may be taken behind a run within the budgets. -/
theorem withinBudget_concat :
    WithinBudget budget (run ++ [entry]) ↔
      ¬ (run ≠ [] ∧ saturatingAdd (loadedRange budget run).encodedBytes entry.1.data.length >
        max budget.maxEncodedBytes 1) ∧
      ¬ (run ≠ [] ∧ saturatingAdd (loadedRange budget run).shieldedWorkItems
        (entry.2.shieldedWorkItems budget.saplingWorkFactor budget.ironwoodWorkFactor) >
          max budget.maxShieldedWorkItems 1) := by
  unfold WithinBudget
  rw [loadedRange_concat]
  by_cases hrun : run = []
  · simp [hrun]
  · have hlong : ¬ (run ++ [entry]).length ≤ 1 := by simp [hrun]
    simp only [hrun, hlong, LoadedBlockRange.push, ne_eq, not_false_eq_true, true_and, false_or,
      gt_iff_lt, not_lt]

/-- What the loop may take from a height on. -/
def Takes (budget : LoadBudget) (start : Nat) (run : List CachedEntry) : Prop :=
  ConsecutiveFrom start run ∧ WithinBudget budget run

instance (start : Nat) (run : List CachedEntry) : Decidable (Takes budget start run) :=
  inferInstanceAs (Decidable (_ ∧ _))

theorem takes_closed (start : Nat) : Greedy.Closed (Takes budget start) := fun _ _ h =>
  ⟨(consecutiveFrom_concat.mp h.1).1, h.2.of_concat⟩

/-- The loop takes rows as long as they fit. -/
theorem loadRows_eq {start : Nat} {taken entries : List CachedEntry}
    (htaken : ConsecutiveFrom start taken)
    (hdecode : ∀ entry ∈ entries, decode entry.1.data = .ok entry.2)
    (hcolumn : ∀ entry ∈ entries, 0 ≤ entry.1.height ∧ entry.1.height ≤ 9223372036854775807) :
    loadRows decode budget (start + taken.length) (loadedRange budget taken)
        (entries.map Prod.fst) =
      .ok (loadedRange budget (Greedy.take (Takes budget start) taken entries)) := by
  induction entries generalizing taken with
  | nil => rfl
  | cons entry entries ih =>
    obtain ⟨hentry, hentries⟩ := List.forall_mem_cons.mp hdecode
    obtain ⟨⟨hlow, hhigh⟩, hcolumns⟩ := List.forall_mem_cons.mp hcolumn
    have htakes : Takes budget start (taken ++ [entry]) ↔
        entry.1.height = ((start + taken.length : Nat) : Int) ∧
          WithinBudget budget (taken ++ [entry]) := by
      rw [Takes, consecutiveFrom_concat]
      exact ⟨fun h => ⟨h.1.2, h.2⟩, fun h => ⟨⟨htaken, h.1⟩, h.2⟩⟩
    have hheight : heightOfColumn "Negative block-cache height" entry.1.height =
        .ok entry.1.height.toNat := if_pos hlow
    rw [List.map_cons, loadRows, hheight, Greedy.take]
    simp only [htakes, withinBudget_concat, bind, Except.bind, hentry, loadedRange_blocks_ne_nil]
    by_cases hexpected : entry.1.height.toNat = start + taken.length
    · have hcast : entry.1.height = ((start + taken.length : Nat) : Int) := by omega
      rw [if_neg (not_not_intro hexpected)]
      split
      · simp [*]
      · split
        · simp [*]
        · rw [if_pos ⟨hcast, ‹_›, ‹_›⟩]
          have hnext :
              saturatingAdd (start + taken.length) 1 = start + (taken ++ [entry]).length := by
            unfold saturatingAdd u64Max
            simp
            omega
          rw [hnext, ← loadedRange_concat]
          exact ih (consecutiveFrom_concat.mpr ⟨htaken, hcast⟩) hentries hcolumns
    · have hcast : ¬ entry.1.height = ((start + taken.length : Nat) : Int) := by omega
      rw [if_pos hexpected, if_neg fun h => hcast h.1]

end Budget

namespace BlockCache

/-- Heights are keys, and the rows of a range hold the blocks of their heights. -/
structure Legible (decode : Bytes → Except StorageError CompactBlockData) (cache : BlockCache)
    (start stop : Nat) : Prop where
  keys : (cache.blocks.map (·.height)).Nodup
  own : ∀ row ∈ cache.blocks, (start : Int) ≤ row.height → row.height ≤ stop →
    ∃ block, decode row.data = .ok block ∧ (block.height : Int) = row.height

/-- The heights that count in a load from `start`: with any interval recorded, those up to the end
of the interval around `start`. -/
def CountsFrom (cache : BlockCache) (start height : Nat) : Prop :=
  cache.coverage = [] ∨
    ∃ coveredEnd, cache.coverageEnd start = .ok (some coveredEnd) ∧ height ≤ coveredEnd

section Load

variable {decode : Bytes → Except StorageError CompactBlockData} {budget : LoadBudget}
  {cache : BlockCache} {start stop : Nat}

theorem exists_entries {rows : List CachedBlockRow}
    (h : ∀ row ∈ rows, ∃ block, decode row.data = .ok block) :
    ∃ entries : List CachedEntry, entries.map Prod.fst = rows ∧
      ∀ entry ∈ entries, decode entry.1.data = .ok entry.2 := by
  induction rows with
  | nil => exact ⟨[], rfl, nofun⟩
  | cons row rows ih =>
    obtain ⟨⟨block, hblock⟩, hrest⟩ := List.forall_mem_cons.mp h
    obtain ⟨entries, rfl, hentries⟩ := ih hrest
    exact ⟨(row, block) :: entries, rfl, List.forall_mem_cons.mpr ⟨hblock, hentries⟩⟩

theorem mem_rowsBetween (hstart : start < 9223372036854775807) (hstop : stop < 9223372036854775807)
    {row : CachedBlockRow} :
    row ∈ cache.rowsBetween start stop ↔
      row ∈ cache.blocks ∧ (start : Int) ≤ row.height ∧ row.height ≤ stop := by
  unfold rowsBetween
  rw [List.mem_insertionSort, List.mem_filter, Bool.and_eq_true, decide_eq_true_eq,
    decide_eq_true_eq, asI64_of_le hstart.le, asI64_of_le hstop.le]

theorem rowsBetween_sorted (hkeys : (cache.blocks.map (·.height)).Nodup) (start stop : Nat) :
    (cache.rowsBetween start stop).Pairwise fun a b => a.height < b.height := by
  have hsorted : (cache.rowsBetween start stop).Pairwise fun a b => a.height ≤ b.height :=
    List.pairwise_insertionSort _ _
  have hnodup : (cache.rowsBetween start stop).Pairwise fun a b => a.height ≠ b.height := by
    have hperm := (List.perm_insertionSort (fun row other : CachedBlockRow =>
      row.height ≤ other.height) (cache.blocks.filter fun row =>
        decide (asI64 start ≤ row.height) && decide (row.height ≤ asI64 stop))).map (·.height)
    exact List.pairwise_map.mp
      (hperm.nodup_iff.mpr (hkeys.sublist (List.filter_sublist.map CachedBlockRow.height)))
  exact hsorted.imp₂ (fun _ _ hle hne => lt_of_le_of_ne hle hne) hnodup

/-- The loop over the rows of a range loads the longest run of the range. -/
theorem loadRows_longest (hlegible : cache.Legible decode start stop)
    (hstart : start < 9223372036854775807) (hstop : stop < 9223372036854775807) :
    ∃ run, loadRows decode budget start .empty (cache.rowsBetween start stop) =
        .ok (loadedRange budget run) ∧
      IsLongestRun decode budget cache (fun _ => True) start stop run := by
  obtain ⟨entries, hrows, hdecode⟩ := @exists_entries decode (cache.rowsBetween start stop)
    fun row hrow => by
      obtain ⟨hmem, hlow, hhigh⟩ := (mem_rowsBetween hstart hstop).mp hrow
      obtain ⟨block, hblock, -⟩ := hlegible.own row hmem hlow hhigh
      exact ⟨block, hblock⟩
  have hmem : ∀ entry ∈ entries, entry.1 ∈ cache.blocks ∧ (start : Int) ≤ entry.1.height ∧
      entry.1.height ≤ stop := fun entry hentry =>
    (mem_rowsBetween hstart hstop).mp (hrows ▸ List.mem_map_of_mem hentry)
  have hsorted := rowsBetween_sorted hlegible.keys start stop
  rw [← hrows, List.pairwise_map] at hsorted
  have hnil : Takes budget start [] := ⟨rfl, Or.inl (Nat.zero_le _)⟩
  have htakes := @Greedy.take_fits _ (Takes budget start) _ [] entries hnil
  obtain ⟨left, hleft⟩ := @Greedy.take_append _ (Takes budget start) _ [] entries
  rw [List.nil_append] at hleft
  have htaken : ∀ entry ∈ Greedy.take (Takes budget start) [] entries, entry ∈ entries :=
    fun entry hentry => hleft ▸ List.mem_append_left left hentry
  refine ⟨Greedy.take (Takes budget start) [] entries, ?_, ⟨htakes.1, ?_, ?_⟩, htakes.2, ?_⟩
  · rw [← hrows]
    refine loadRows_eq hnil.1 hdecode fun entry hentry => ?_
    obtain ⟨-, hlow, hhigh⟩ := hmem entry hentry
    omega
  · intro entry hentry
    exact ⟨(hmem entry (htaken entry hentry)).1, hdecode entry (htaken entry hentry)⟩
  · exact fun entry hentry => ⟨(hmem entry (htaken entry hentry)).2.2, trivial⟩
  · intro other hrun hwithin
    -- another run lies among the rows that were read, at their beginning
    obtain ⟨rest, hrest⟩ :=
      hrun.consecutive.initial hsorted (fun entry hentry => (hmem entry hentry).2.1)
      fun entry hentry => by
        obtain ⟨hstored, hblock⟩ := hrun.stored entry hentry
        have hrow := (mem_rowsBetween hstart hstop).mpr
          ⟨hstored, hrun.consecutive.ge hentry, (hrun.counts entry hentry).1⟩
        rw [← hrows, List.mem_map] at hrow
        obtain ⟨found, hfound, hsame⟩ := hrow
        have hdecoded := hdecode found hfound
        rw [hsame, hblock] at hdecoded
        rwa [← Prod.ext hsame (Except.ok.inj hdecoded).symm]
    exact Greedy.length_le_take (takes_closed start) (by simpa using hrest)
      ⟨hrun.consecutive, hwithin⟩

/-- Of two notions with the same runs, the longest runs are the same. -/
theorem longestRun_congr {Counts Counts' : Nat → Prop} {stop' : Nat} {run : List CachedEntry}
    (h : IsLongestRun decode budget cache Counts start stop run)
    (hruns : ∀ other, IsRun decode cache Counts' start stop' other ↔
      IsRun decode cache Counts start stop other) :
    IsLongestRun decode budget cache Counts' start stop' run :=
  ⟨(hruns run).mpr h.isRun, h.within, fun other hother =>
    h.longest other ((hruns other).mp hother)⟩

/-- Where the first height does not count there is no run. -/
theorem isLongestRun_nil {Counts : Nat → Prop} (h : ¬ (start ≤ stop ∧ Counts start)) :
    IsLongestRun decode budget cache Counts start stop [] := by
  refine ⟨⟨rfl, nofun, nofun⟩, Or.inl (Nat.zero_le _), fun other hrun _ => ?_⟩
  cases other with
  | nil => exact Nat.le_refl 0
  | cons entry other =>
    obtain ⟨hheight, -⟩ := consecutiveFrom_cons.mp hrun.consecutive
    obtain ⟨hle, hcounts⟩ := hrun.counts entry List.mem_cons_self
    rw [hheight, Int.toNat_natCast] at hcounts
    exact absurd ⟨by omega, hcounts⟩ h

/-- A load returns the longest run of the heights that count. -/
theorem load_longest (hlegible : cache.Legible decode start stop)
    (hstart : start < 9223372036854775807) (hstop : stop < 9223372036854775807) :
    ∃ run, loadBoundedWorkRangeForUpgrade decode budget cache start stop =
        .ok (loadedRange budget run) ∧
      IsLongestRun decode budget cache (cache.CountsFrom start) start stop run := by
  unfold loadBoundedWorkRangeForUpgrade
  by_cases hempty : start > stop
  · rw [if_pos hempty]
    exact ⟨[], rfl, isLongestRun_nil fun h => by omega⟩
  rw [if_neg hempty]
  rcases coverageEnd_spec cache hstart with ⟨hnone, -⟩ | ⟨row, hrow, -, -, hsome⟩
  · rw [hnone]
    show ∃ run, (if cache.hasRecordedCoverage = true then _ else _) = _ ∧ _
    by_cases hrecorded : cache.hasRecordedCoverage = true
    · rw [if_pos hrecorded]
      refine ⟨[], rfl, isLongestRun_nil ?_⟩
      rintro ⟨-, hcoverage | ⟨coveredEnd, hend, -⟩⟩
      · simp [hasRecordedCoverage, hcoverage] at hrecorded
      · cases hnone.symm.trans hend
    · rw [if_neg hrecorded]
      obtain ⟨run, hload, hlongest⟩ := @loadRows_longest decode budget cache start stop hlegible
        hstart hstop
      have hcoverage : cache.coverage = [] := by simpa [hasRecordedCoverage] using hrecorded
      refine ⟨run, hload, longestRun_congr hlongest fun other => ?_⟩
      exact ⟨fun h => ⟨h.1, h.2, fun entry hentry => ⟨(h.3 entry hentry).1, trivial⟩⟩,
        fun h => ⟨h.1, h.2, fun entry hentry => ⟨(h.3 entry hentry).1, Or.inl hcoverage⟩⟩⟩
  · rw [hsome]
    have hlegible' : cache.Legible decode start (min stop row.rangeEnd.toNat) :=
      ⟨hlegible.keys, fun other hother hlow hhigh => hlegible.own other hother hlow (by omega)⟩
    obtain ⟨run, hload, hlongest⟩ := @loadRows_longest decode budget cache start
      (min stop row.rangeEnd.toNat) hlegible' hstart (by omega)
    have hcoverage : cache.coverage ≠ [] := List.ne_nil_of_mem hrow
    have hcounts : ∀ height, cache.CountsFrom start height ↔ height ≤ row.rangeEnd.toNat := by
      intro height
      simp [CountsFrom, hcoverage, hsome]
    refine ⟨run, hload, longestRun_congr hlongest fun other => ?_⟩
    constructor
    · refine fun h => ⟨h.1, h.2, fun entry hentry => ⟨?_, trivial⟩⟩
      obtain ⟨hle, hcovered⟩ := h.3 entry hentry
      have := (hcounts _).mp hcovered
      omega
    · refine fun h => ⟨h.1, h.2, fun entry hentry => ?_⟩
      have := (h.3 entry hentry).1
      exact ⟨by omega, (hcounts _).mpr (by omega)⟩

end Load

/-! ## Load after load -/

/-- With any interval recorded, the heights inside an interval. -/
def Counted (cache : BlockCache) (height : Nat) : Prop :=
  cache.coverage = [] ∨ IsCovered cache.coverage height

section Loop

variable {decode : Bytes → Except StorageError CompactBlockData} {cache : BlockCache}
  {targets : Nat → LoadTargets} {start stop : Nat}

/-- What counts in a load counts at all, and the first height of a load counts in it. -/
theorem counted_of_countsFrom (hstart : start < 9223372036854775807) {height : Nat}
    (hle : start ≤ height) (h : cache.CountsFrom start height) : cache.Counted height := by
  rcases h with hnone | ⟨coveredEnd, hend, hheight⟩
  · exact Or.inl hnone
  · rcases coverageEnd_spec cache hstart with ⟨hnone, -⟩ | ⟨row, hrow, hlow, hhigh, hsome⟩
    · cases hnone.symm.trans hend
    · obtain rfl := Option.some.inj (Except.ok.inj (hsome.symm.trans hend))
      exact Or.inr ⟨row, hrow, by omega, by omega⟩

theorem countsFrom_of_counted (hstart : start < 9223372036854775807) (h : cache.Counted start) :
    cache.CountsFrom start start := by
  rcases h with hnone | hcovered
  · exact Or.inl hnone
  · rcases coverageEnd_spec cache hstart with ⟨-, hnot⟩ | ⟨row, -, -, hhigh, hsome⟩
    · exact absurd hcovered hnot
    · exact Or.inr ⟨_, hsome, by omega⟩

/-- A height that can be loaded: a row of it is stored, and it counts. -/
def Loadable (cache : BlockCache) (height : Nat) : Prop :=
  cache.Stored height ∧ cache.Counted height

/-- What the cursor has come past are the blocks of a run. -/
def Passed (decode : Bytes → Except StorageError CompactBlockData) (cache : BlockCache)
    (start stop : Nat) (cursor : CacheCursor) (run : List CachedEntry) : Prop :=
  IsRun decode cache cache.Counted start stop run ∧ cursor.loaded = run.map Prod.snd ∧
    cursor.current = start + run.length

/-- A piece that is not empty carries the run on. -/
theorem Passed.append (hlegible : cache.Legible decode start stop)
    (hstop : stop < 9223372036854775807) {cursor : CacheCursor} {run piece : List CachedEntry}
    (h : Passed decode cache start stop cursor run) {localEnd : Nat} (hlocal : localEnd ≤ stop)
    (hcurrent : cursor.current ≤ stop)
    (hpiece : IsRun decode cache (cache.CountsFrom cursor.current) cursor.current localEnd piece)
    {last : CompactBlockData} (hlast : (piece.map Prod.snd).getLast? = some last) :
    Passed decode cache start stop
      ⟨saturatingAdd last.height 1, cursor.turns + 1, cursor.loaded ++ piece.map Prod.snd⟩
      (run ++ piece) := by
  obtain ⟨hrun, hloaded, hposition⟩ := h
  refine ⟨⟨?_, ?_, ?_⟩, by simp [hloaded], ?_⟩
  · exact consecutiveFrom_append.mpr ⟨hrun.consecutive, hposition ▸ hpiece.consecutive⟩
  · simpa only [List.forall_mem_append] using ⟨hrun.stored, hpiece.stored⟩
  · simp only [List.forall_mem_append]
    refine ⟨hrun.counts, fun entry hentry => ?_⟩
    obtain ⟨hle, hcounts⟩ := hpiece.counts entry hentry
    have hge := hpiece.consecutive.ge hentry
    exact ⟨by omega, counted_of_countsFrom (by omega) (by omega) hcounts⟩
  · -- the last block has the height of its row, the last of the piece
    obtain ⟨before, final, rfl⟩ : ∃ before final, piece = before ++ [final] := by
      rcases List.eq_nil_or_concat' piece with rfl | hconcat
      · cases hlast
      · exact hconcat
    obtain rfl : final.2 = last := by simpa using hlast
    obtain ⟨-, hheight⟩ := consecutiveFrom_concat.mp hpiece.consecutive
    obtain ⟨hstored, hblock⟩ := hpiece.stored final (by simp)
    have hle := (hpiece.counts final (by simp)).1
    obtain ⟨block, hdecoded, hown⟩ := hlegible.own final.1 hstored (by omega) (by omega)
    obtain rfl := Except.ok.inj (hblock.symm.trans hdecoded)
    simp only [saturatingAdd, u64Max, List.length_append, List.length_singleton]
    omega

/-- One turn: the run goes on, or the next height is past the end or cannot be loaded. -/
theorem cacheTurn_cases (hlegible : cache.Legible decode start stop)
    (hstop : stop < 9223372036854775807) {cursor : CacheCursor} {run : List CachedEntry}
    (h : Passed decode cache start stop cursor run) :
    (∃ next piece, cacheTurn decode cache targets stop cursor = .again next ∧ piece ≠ [] ∧
      Passed decode cache start stop next (run ++ piece)) ∨
    cacheTurn decode cache targets stop cursor = .leave (.ok cursor.loaded) ∧
      (stop < cursor.current ∨ ¬ cache.Loadable cursor.current) := by
  have hposition := h.2.2
  unfold cacheTurn
  by_cases hpast : cursor.current > stop
  · exact Or.inr ⟨if_pos hpast, Or.inl hpast⟩
  rw [if_neg hpast]
  obtain ⟨localEnd, hlocal⟩ : ∃ localEnd, localEnd = min stop (saturatingAdd cursor.current
    (max (targets cursor.turns).targetBlocks 1 - 1)) := ⟨_, rfl⟩
  have hbounds : cursor.current ≤ localEnd ∧ localEnd ≤ stop := by
    unfold saturatingAdd u64Max at hlocal
    omega
  have hlegible' : cache.Legible decode cursor.current localEnd :=
    ⟨hlegible.keys, fun row hrow hlow hhigh => hlegible.own row hrow (by omega) (by omega)⟩
  obtain ⟨piece, hload, hlongest⟩ := @load_longest decode (targets cursor.turns).budget cache _ _
    hlegible' (by omega) (by omega)
  simp only [← hlocal, hload, loadedRange_blocks]
  cases hlast : (piece.map Prod.snd).getLast? with
  | some last =>
    have hne : piece ≠ [] := by
      rintro rfl
      cases hlast
    exact Or.inl ⟨_, piece, rfl, hne,
      h.append hlegible hstop hbounds.2 (by omega) hlongest.isRun hlast⟩
  | none =>
    refine Or.inr ⟨rfl, Or.inr ?_⟩
    rintro ⟨⟨row, hrow, hheight⟩, hcounted⟩
    obtain rfl : piece = [] := by simpa using hlast
    -- the row alone would be a longer run
    obtain ⟨block, hblock, -⟩ := hlegible'.own row hrow (by omega) (by omega)
    have hsingle : IsRun decode cache (cache.CountsFrom cursor.current) cursor.current localEnd
        [(row, block)] := by
      refine ⟨by simp [ConsecutiveFrom, hheight], ?_, ?_⟩
      · simpa using ⟨hrow, hblock⟩
      · have hcounts := countsFrom_of_counted (by omega) hcounted
        simpa [hheight] using ⟨hbounds.1, hcounts⟩
    have := hlongest.longest _ hsingle (Or.inl (Nat.le_refl 1))
    exact absurd this (by simp)

/-- Where the loop stops, the run cannot be carried on. -/
theorem isContiguousEnd_of_run {run : List CachedEntry}
    (hrun : IsRun decode cache cache.Counted start stop run)
    (hend : stop < start + run.length ∨ ¬ cache.Loadable (start + run.length)) :
    IsContiguousEnd cache.Loadable start stop
      (run.getLast?.map fun entry => entry.1.height.toNat) := by
  have hloadable : ∀ height, start ≤ height → height < start + run.length →
      cache.Loadable height := by
    intro height hlow hhigh
    have hmem : (height : Int) ∈ run.map fun entry => entry.1.height := by
      rw [hrun.consecutive, List.mem_map]
      exact ⟨height, List.mem_range'_1.mpr ⟨hlow, hhigh⟩, rfl⟩
    obtain ⟨entry, hentry, hheight⟩ := List.mem_map.mp hmem
    have hcounts := (hrun.counts entry hentry).2
    rw [hheight, Int.toNat_natCast] at hcounts
    exact ⟨⟨entry.1, (hrun.stored entry hentry).1, hheight⟩, hcounts⟩
  rcases List.eq_nil_or_concat' run with rfl | ⟨before, final, rfl⟩
  · exact hend
  · obtain ⟨-, hheight⟩ := consecutiveFrom_concat.mp hrun.consecutive
    have hle := (hrun.counts final (by simp)).1
    rw [List.length_append, List.length_singleton] at hend hloadable
    have hlast : (before ++ [final]).getLast?.map (fun entry => entry.1.height.toNat) =
        some (start + before.length) := by
      rw [List.getLast?_concat, Option.map_some, hheight, Int.toNat_natCast]
    rw [hlast]
    refine ⟨by omega, by omega, fun height hlow hhigh => hloadable height hlow (by omega), ?_⟩
    rcases hend with hpast | hnot
    · exact Or.inl (by omega)
    · exact Or.inr hnot

/-- Each turn that goes on keeps to a run and comes closer to the end. -/
theorem cacheTurn_again (hlegible : cache.Legible decode start stop)
    (hstop : stop < 9223372036854775807) (cursor next : CacheCursor)
    (h : ∃ run, Passed decode cache start stop cursor run)
    (hturn : cacheTurn decode cache targets stop cursor = .again next) :
    (∃ run, Passed decode cache start stop next run) ∧
      stop + 1 - next.current < stop + 1 - cursor.current := by
  obtain ⟨run, hpassed⟩ := h
  rcases @cacheTurn_cases _ _ targets _ _ hlegible hstop _ _ hpassed with
    ⟨next', piece, hagain, hpiece, hnext⟩ | ⟨hleave, -⟩
  · obtain rfl := WhileLoop.Turn.again.inj (hagain.symm.trans hturn)
    have hpositive := List.length_pos_iff.mpr hpiece
    have hposition := hpassed.2.2
    have hposition' := hnext.2.2
    rw [List.length_append] at hposition'
    refine ⟨⟨_, hnext⟩, ?_⟩
    have hwithin : cursor.current ≤ stop := by
      by_contra hpast
      rw [cacheTurn, if_pos (by omega)] at hturn
      cases hturn
    omega
  · cases hleave.symm.trans hturn

/-- Load after load comes past every row of the longest run, and ends. -/
theorem loads_end (hlegible : cache.Legible decode start stop)
    (hstop : stop < 9223372036854775807) :
    ∃ run, WhileLoop.Ends (cacheTurn decode cache targets stop) ⟨start, 0, []⟩
        (.ok (run.map Prod.snd)) ∧
      IsRun decode cache cache.Counted start stop run ∧
      IsContiguousEnd cache.Loadable start stop
        (run.getLast?.map fun entry => entry.1.height.toNat) := by
  have hbegin : ∃ run, Passed decode cache start stop ⟨start, 0, []⟩ run :=
    ⟨[], ⟨rfl, nofun, nofun⟩, rfl, rfl⟩
  obtain ⟨result, hends, -⟩ := WhileLoop.ends_of_measure
    (fun cursor : CacheCursor => stop + 1 - cursor.current)
    (@cacheTurn_again _ _ targets _ _ hlegible hstop) hbegin (Nat.lt_succ_self _)
  obtain ⟨run, rfl, hrun, hend⟩ : ∃ run, result = .ok (run.map Prod.snd) ∧
      IsRun decode cache cache.Counted start stop run ∧
      (stop < start + run.length ∨ ¬ cache.Loadable (start + run.length)) := by
    refine hends.invariant (P := fun result => ∃ run, result = .ok (run.map Prod.snd) ∧
      IsRun decode cache cache.Counted start stop run ∧
      (stop < start + run.length ∨ ¬ cache.Loadable (start + run.length))) (fun cursor next h hturn =>
        (cacheTurn_again hlegible hstop cursor next h hturn).1) ?_ hbegin
    rintro cursor result ⟨run, hpassed⟩ hturn
    rcases @cacheTurn_cases _ _ targets _ _ hlegible hstop _ _ hpassed with
      ⟨next, -, hagain, -⟩ | ⟨hleave, hend⟩
    · cases hagain.symm.trans hturn
    · obtain rfl := WhileLoop.Turn.leave.inj (hleave.symm.trans hturn)
      obtain ⟨hrun, hloaded, hposition⟩ := hpassed
      rw [hposition] at hend
      exact ⟨run, by rw [hloaded], hrun, hend⟩
  exact ⟨run, hends, hrun, isContiguousEnd_of_run hrun hend⟩

/-- **The pieces of a cache.** A load returns the longest run of the heights that count within its
budgets. Load after load, with whatever targets, ends, and its pieces are one after the other the
longest run there is. -/
theorem bounded_loads_cover_run (hlegible : cache.Legible decode start stop)
    (hstart : start < 9223372036854775807) (hstop : stop < 9223372036854775807) :
    (∀ budget, ∃ run,
      loadBoundedWorkRangeForUpgrade decode budget cache start stop =
        .ok (loadedRange budget run) ∧
      IsLongestRun decode budget cache (cache.CountsFrom start) start stop run) ∧
    ∀ targets, ∃ run,
      WhileLoop.Ends (cacheTurn decode cache targets stop) ⟨start, 0, []⟩
        (.ok (run.map Prod.snd)) ∧
      IsRun decode cache cache.Counted start stop run ∧
      IsContiguousEnd cache.Loadable start stop
        (run.getLast?.map fun entry => entry.1.height.toNat) :=
  ⟨fun _ => load_longest hlegible hstart hstop, fun _ => loads_end hlegible hstop⟩

end Loop

/-- A block of one transaction. -/
def tinyBlock (height outputs : UInt8) : CompactBlockData :=
  ⟨1, height.toNat, [], [], 0, [],
    [⟨none, [], none, [], List.replicate outputs.toNat ⟨[], [], []⟩, []⟩]⟩

/-- Prost on the blocks of one transaction with up to two empty outputs, and the JSON reader on
nothing. -/
def tinyCodecs : BlockCodecs where
  encode _ := .error "not enough space"
  decode
    | [8, 1, 16, height, 58, 0] => .ok (.ofData (tinyBlock height 0))
    | [8, 1, 16, height, 58, 2, 42, 0] => .ok (.ofData (tinyBlock height 1))
    | [8, 1, 16, height, 58, 4, 42, 0, 42, 0] => .ok (.ofData (tinyBlock height 2))
    | _ => .error "invalid tag value: 0"
  crc32 _ := 0
  fromSlice _ := .error "EOF while parsing a value at line 1 column 0"

def decodeTiny : Bytes → Except StorageError CompactBlockData := tinyCodecs.decodeBlock

/-- Such a block in the format of the first version. -/
def tinyRow (height outputs : UInt8) : Bytes :=
  CACHE_RECORD_MAGIC_V1 ++ [8, 1, 16, height, 58, 2 * outputs] ++
    (List.replicate outputs.toNat [42, 0]).flatten

/-- Two blocks of two outputs each, in a cache that has recorded them up to a height. -/
def tinyCache (coveredEnd : Int) : BlockCache :=
  ⟨[⟨42, tinyRow 42 2⟩, ⟨43, tinyRow 43 2⟩], [⟨42, coveredEnd⟩]⟩

theorem tinyCache_legible (coveredEnd : Int) : (tinyCache coveredEnd).Legible decodeTiny 42 43 := by
  have hfirst : ∃ block, decodeTiny (tinyRow 42 2) = .ok block ∧ (block.height : Int) = 42 :=
    ⟨_, rfl, rfl⟩
  have hsecond : ∃ block, decodeTiny (tinyRow 43 2) = .ok block ∧ (block.height : Int) = 43 :=
    ⟨_, rfl, rfl⟩
  refine ⟨by simp [tinyCache], ?_⟩
  simp [tinyCache, hfirst, hsecond]

theorem bounded_loads_cover_run_tiny :
    ∃ run, WhileLoop.Ends (cacheTurn decodeTiny (tinyCache 43) (fun _ => ⟨0, 0, 0, 0, 0⟩) 43)
        ⟨42, 0, []⟩ (.ok (run.map Prod.snd)) ∧
      IsRun decodeTiny (tinyCache 43) (tinyCache 43).Counted 42 43 run ∧
      IsContiguousEnd (tinyCache 43).Loadable 42 43
        (run.getLast?.map fun entry => entry.1.height.toNat) :=
  (bounded_loads_cover_run (tinyCache_legible 43) (by decide) (by decide)).2 _

/-- A stored row outside the recorded intervals is left out, although it follows and fits. -/
theorem load_leaves_uncovered_row :
    ¬ ∃ run, loadBoundedWorkRangeForUpgrade decodeTiny ⟨1000, 1000, 1, 1⟩ (tinyCache 42) 42 43 =
        .ok (loadedRange ⟨1000, 1000, 1, 1⟩ run) ∧
      IsLongestRun decodeTiny ⟨1000, 1000, 1, 1⟩ (tinyCache 42) (fun _ => True) 42 43 run := by
  rintro ⟨run, hload, hlongest⟩
  have hone : (loadedRange ⟨1000, 1000, 1, 1⟩ run).blocks.length = 1 :=
    congrArg (fun result => (result.toOption.map fun loaded => loaded.blocks.length).getD 0)
      (hload.symm.trans (by rfl : _ = .ok _))
  rw [loadedRange_blocks, List.length_map] at hone
  have hboth : IsRun decodeTiny (tinyCache 42) (fun _ => True) 42 43
      [(⟨42, tinyRow 42 2⟩, tinyBlock 42 2), (⟨43, tinyRow 43 2⟩, tinyBlock 43 2)] :=
    ⟨by decide, by simp [tinyCache, show decodeTiny (tinyRow 42 2) = .ok (tinyBlock 42 2) from rfl,
      show decodeTiny (tinyRow 43 2) = .ok (tinyBlock 43 2) from rfl], by simp⟩
  have htwo := hlongest.longest _ hboth (by decide)
  rw [hone] at htwo
  exact absurd htwo (by decide)

/-- Where stored rows are not what a load gives: outside the recorded intervals; with a row that
does not decode; with a budget of zero, which counts as one; with a row of another block, to whose
height the loop goes back; and up to an end that is no `i64`. -/
theorem loads_depart_from_stored_rows :
    (¬ ∃ run, loadBoundedWorkRangeForUpgrade decodeTiny ⟨1000, 1000, 1, 1⟩ (tinyCache 42) 42 43 =
        .ok (loadedRange ⟨1000, 1000, 1, 1⟩ run) ∧
      IsLongestRun decodeTiny ⟨1000, 1000, 1, 1⟩ (tinyCache 42) (fun _ => True) 42 43 run) ∧
    loadBoundedWorkRangeForUpgrade decodeTiny ⟨1000, 1000, 1, 1⟩
        ⟨[⟨42, tinyRow 42 2⟩, ⟨43, []⟩], []⟩ 42 43 =
      .error (.storage "EOF while parsing a value at line 1 column 0") ∧
    loadBoundedWorkRangeForUpgrade decodeTiny ⟨1000, 0, 1, 1⟩
        ⟨[⟨42, tinyRow 42 1⟩, ⟨43, tinyRow 43 0⟩], []⟩ 42 43 =
      .ok ⟨[tinyBlock 42 1, tinyBlock 43 0], [42, 43], 24, 1⟩ ∧
    cacheTurn decodeTiny ⟨[⟨42, tinyRow 41 2⟩], []⟩ (fun _ => ⟨1, 1000, 1000, 1, 1⟩) 43 ⟨42, 0, []⟩ =
      .again ⟨42, 1, [tinyBlock 41 2]⟩ ∧
    loadBoundedWorkRangeForUpgrade decodeTiny ⟨1000, 1000, 1, 1⟩ ⟨[⟨42, tinyRow 42 2⟩], []⟩ 42
        9223372036854775808 = .ok .empty :=
  ⟨load_leaves_uncovered_row, by rfl, by rfl, by rfl, by rfl⟩

end BlockCache

end StashiWallet
