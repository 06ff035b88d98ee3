import StashiWallet.BlockCacheRuns

/-!
# Rows outside the recorded intervals

Rows from before the intervals, or left behind by an interrupted replacement, must be fetched
again: once any interval is recorded, the rows outside the intervals do not count. What keeps
them from counting is only that the table of intervals is not empty. A deletion that takes the
last interval away brings every row that is left back.
-/

namespace StashiWallet

/-- A call stores a row of the height. -/
def BlockCacheCall.Stores (column : Int) : BlockCacheCall → Prop
  | .storeBlocks blocks => ∃ block ∈ blocks, asI64 block.height = column
  | .upgradeLegacyRows _ _ => False
  | .deleteRange _ _ => False
  | .deleteAbove _ => False
  | .contiguousEnd _ _ => False

/-- The interval lies inside a stretch of heights. -/
def CoverageRow.Within (start stop : Nat) (row : CoverageRow) : Prop :=
  asI64 start ≤ row.rangeStart ∧ row.rangeEnd ≤ asI64 stop

/-- The start of an interval is its key. -/
def CoverageKeys (coverage : List CoverageRow) : Prop := (coverage.map (·.rangeStart)).Nodup

theorem CoverageKeys.filter {coverage : List CoverageRow} (h : CoverageKeys coverage)
    (p : CoverageRow → Bool) : CoverageKeys (coverage.filter p) :=
  h.sublist (List.filter_sublist.map _)

theorem CoverageKeys.eq {coverage : List CoverageRow} (h : CoverageKeys coverage)
    {row other : CoverageRow} (hrow : row ∈ coverage) (hother : other ∈ coverage)
    (hsame : row.rangeStart = other.rangeStart) : row = other :=
  List.inj_on_of_nodup_map h hrow hother hsame

variable {coverage after : List CoverageRow} {start stop : Nat}

/-- The row that recording a stretch leaves last. Its start is the start of the stretch or of an
interval that reaches up to the stretch. -/
theorem recordCoverageTx_last (h : recordCoverageTx coverage start stop = .ok after)
    (hcolumns : InColumns coverage) (hle : start ≤ stop) (hstart : start ≤ 9223372036854775807) :
    ∃ p, ∃ last : CoverageRow, after = coverage.filter p ++ [last] ∧
      last.rangeStart ≤ (start : Int) ∧
      (last.rangeStart = (start : Int) ∨ ∃ row ∈ coverage,
        asI64 (start - 1) ≤ row.rangeEnd ∧ last.rangeStart = row.rangeStart) := by
  unfold recordCoverageTx at h
  rw [if_neg (not_lt.mpr hle)] at h
  obtain ⟨-, hafter⟩ := insertCoverage_eq_ok h
  refine ⟨_, _, hafter, ?_⟩
  obtain ⟨overlap, hoverlap⟩ : ∃ overlap, overlap = coverage.filter
      (touchesCoverage (asI64 (start - 1)) (asI64 (saturatingAdd stop 1))) := ⟨_, rfl⟩
  simp only [← hoverlap]
  have hcast := asI64_cases start
  have hmerged := asI64_cases (mergedStart overlap start)
  have hleast := mergedStart_le overlap start
  refine ⟨by omega, ?_⟩
  rcases mergedStart_cases overlap start with ⟨-, hsame⟩ | ⟨first, hfirst, -, hmin⟩
  · left
    omega
  · rw [hoverlap] at hfirst
    obtain ⟨hmem, htouches⟩ := List.mem_filter.mp hfirst
    obtain ⟨hends, hbegins⟩ := touchesCoverage_iff.mp htouches
    rcases Nat.le_total start (asU64 first.rangeStart) with hbefore | hafter
    · rw [min_eq_left hbefore] at hmin
      exact Or.inl (by omega)
    · right
      rw [min_eq_right hafter] at hmin
      have hbounds := hcolumns first hmem
      have hcolumn := @asI64_bounds (saturatingAdd stop 1) (by
        unfold saturatingAdd u64Max
        omega)
      have hvalue : 0 ≤ first.rangeStart ∧ (asU64 first.rangeStart : Int) = first.rangeStart := by
        unfold asU64 at hafter ⊢
        omega
      exact ⟨first, hmem, hends, by omega⟩

theorem recordCoverageTx_keys (h : recordCoverageTx coverage start stop = .ok after)
    (hkeys : CoverageKeys coverage) : CoverageKeys after := by
  unfold recordCoverageTx at h
  split at h
  · obtain rfl := Except.ok.inj h
    exact hkeys
  · dsimp only at h
    unfold insertCoverage at h
    split at h
    · cases h
    · split at h
      · cases h
      · rename_i hnew
        obtain rfl := Except.ok.inj h
        unfold CoverageKeys
        rw [List.map_append]
        refine (hkeys.filter _).append (List.nodup_singleton _) (fun key hold hlast => ?_)
        obtain ⟨row, hrow, hkey⟩ := List.mem_map.mp hold
        rw [List.map_singleton, List.mem_singleton] at hlast
        refine hnew (List.any_eq_true.mpr ⟨row, hrow, ?_⟩)
        rw [beq_iff_eq, hkey, hlast]

theorem recordCoverageIf_keys {c : Prop} [Decidable c]
    (h : recordCoverageIf c coverage start stop = .ok after) (hkeys : CoverageKeys coverage) :
    CoverageKeys after := by
  unfold recordCoverageIf at h
  split at h
  · exact recordCoverageTx_keys h hkeys
  · obtain rfl := Except.ok.inj h
    exact hkeys

theorem recordRuns_keys {heights : List Nat} {rangeStart rangeEnd : Nat}
    (h : recordRuns rangeStart rangeEnd heights coverage = .ok after)
    (hkeys : CoverageKeys coverage) : CoverageKeys after := by
  induction heights generalizing rangeStart rangeEnd coverage with
  | nil => exact recordCoverageTx_keys h hkeys
  | cons height heights ih =>
    unfold recordRuns at h
    split at h
    · exact ih h hkeys
    · obtain ⟨recorded, hrecorded, h⟩ := bind_eq_ok h
      exact ih h (recordCoverageTx_keys hrecorded hkeys)

theorem removeRanges_keys {ranges coverage after : List CoverageRow}
    (h : removeRanges start stop ranges coverage = .ok after) (hkeys : CoverageKeys coverage) :
    CoverageKeys after := by
  induction ranges generalizing coverage with
  | nil =>
    obtain rfl := Except.ok.inj h
    exact hkeys
  | cons row ranges ih =>
    obtain ⟨rangeStart, -, h⟩ := bind_eq_ok h
    obtain ⟨rangeEnd, -, h⟩ := bind_eq_ok h
    obtain ⟨left, hleft, h⟩ := bind_eq_ok h
    obtain ⟨right, hright, h⟩ := bind_eq_ok h
    exact ih h (recordCoverageIf_keys hright (recordCoverageIf_keys hleft (hkeys.filter _)))

/-- A recorded stretch leaves the table with a row. -/
theorem recordCoverageTx_ne_nil (h : recordCoverageTx coverage start stop = .ok after)
    (hle : start ≤ stop) : after ≠ [] := by
  unfold recordCoverageTx at h
  rw [if_neg (not_lt.mpr hle)] at h
  obtain ⟨-, rfl⟩ := insertCoverage_eq_ok h
  exact List.append_ne_nil_of_right_ne_nil _ (List.cons_ne_nil _ _)

theorem recordRuns_ne_nil {heights : List Nat} {rangeStart rangeEnd : Nat}
    (hle : rangeStart ≤ rangeEnd) (hend : rangeEnd ≤ u64Max)
    (hfits : ∀ height ∈ heights, height ≤ u64Max)
    (h : recordRuns rangeStart rangeEnd heights coverage = .ok after) : after ≠ [] := by
  induction heights generalizing rangeStart rangeEnd coverage with
  | nil => exact recordCoverageTx_ne_nil h hle
  | cons height heights ih =>
    obtain ⟨hheight, hfits⟩ := List.forall_mem_cons.mp hfits
    unfold recordRuns at h
    split at h
    · rename_i hnext
      refine ih ?_ hheight hfits h
      unfold saturatingAdd at hnext
      omega
    · obtain ⟨recorded, -, h⟩ := bind_eq_ok h
      exact ih le_rfl hheight hfits h

/-! ## What a deletion leaves of the intervals -/

/-- An interval inside the stretch ends with it, and another one passes that end. Intervals that
are apart never lie so. -/
def OverlapAtEnd (start stop : Nat) (coverage : List CoverageRow) : Prop :=
  ∃ inner ∈ coverage, inner.Within start stop ∧ inner.rangeEnd = asI64 stop ∧
    ∃ outer ∈ coverage, outer.rangeStart ≤ asI64 stop ∧ asI64 stop < outer.rangeEnd

/-- In the middle of a deletion: some interval will stay, and the intervals that still have to go
are as they were. -/
structure Anchored (start stop : Nat) (ranges coverage : List CoverageRow) : Prop where
  stays : ∃ row ∈ coverage, ∀ range ∈ ranges, range.Within start stop →
    row.rangeStart ≠ range.rangeStart
  intact : ∀ row ∈ coverage, ∀ range ∈ ranges, range.Within start stop →
    row.rangeStart = range.rangeStart → row.rangeEnd = range.rangeEnd

/-- Recording beside the stretch anchors the table. -/
theorem Anchored.record {start stop : Nat} {ranges coverage after : List CoverageRow}
    {pieceStart pieceEnd : Nat}
    (h : recordCoverageTx coverage pieceStart pieceEnd = .ok after)
    (hcolumns : InColumns coverage) (hle : pieceStart ≤ pieceEnd)
    (hfits : pieceStart ≤ 9223372036854775807)
    (hintact : ∀ row ∈ coverage, ∀ range ∈ ranges, range.Within start stop →
      row.rangeStart = range.rangeStart → row.rangeEnd = range.rangeEnd)
    (hbeside : ∀ range ∈ ranges, range.Within start stop →
      (pieceStart : Int) < range.rangeStart ∨
        range.rangeStart ≠ pieceStart ∧ range.rangeEnd < asI64 (pieceStart - 1)) :
    Anchored start stop ranges after := by
  obtain ⟨p, last, rfl, hleast, hlast⟩ := recordCoverageTx_last h hcolumns hle hfits
  have hdiffers : ∀ range ∈ ranges, range.Within start stop →
      last.rangeStart ≠ range.rangeStart := by
    intro range hrange hwithin hsame
    rcases hbeside range hrange hwithin with hbefore | ⟨hother, hends⟩
    · omega
    · rcases hlast with hfirst | ⟨row, hrow, hreaches, hstart⟩
      · omega
      · have hend := hintact row hrow range hrange hwithin (hstart.symm.trans hsame)
        omega
  refine ⟨⟨last, List.mem_append_right _ (List.mem_singleton_self last), hdiffers⟩, ?_⟩
  intro row hrow range hrange hwithin hsame
  rcases List.mem_append.mp hrow with hold | hnew
  · exact hintact row (List.mem_of_mem_filter hold) range hrange hwithin hsame
  · rw [List.mem_singleton.mp hnew] at hsame
    exact absurd hsame (hdiffers range hrange hwithin)

theorem removeRanges_ne_nil (hle : start ≤ stop) (hstop : stop ≤ u64Max) {before : List CoverageRow}
    (hbefore : InColumns before) (hoverlap : ¬ OverlapAtEnd start stop before)
    {ranges coverage after : List CoverageRow}
    (hranges : ∀ row ∈ ranges, row ∈ before ∧ row.rangeStart ≤ asI64 stop ∧
      asI64 start ≤ row.rangeEnd) (hkeys : CoverageKeys ranges) (hcolumns : InColumns coverage)
    (h : removeRanges start stop ranges coverage = .ok after)
    (hanchored : Anchored start stop ranges coverage) : after ≠ [] := by
  induction ranges generalizing coverage with
  | nil =>
    obtain rfl := Except.ok.inj h
    obtain ⟨row, hrow, -⟩ := hanchored.stays
    exact List.ne_nil_of_mem hrow
  | cons range ranges ih =>
    obtain ⟨⟨hmem, hbegins, hends⟩, hranges⟩ := List.forall_mem_cons.mp hranges
    obtain ⟨hkey, hkeys⟩ := List.nodup_cons.mp hkeys
    obtain ⟨rangeStart, hrangeStart, h⟩ := bind_eq_ok h
    obtain ⟨rangeEnd, hrangeEnd, h⟩ := bind_eq_ok h
    obtain ⟨left, hleft, h⟩ := bind_eq_ok h
    obtain ⟨right, hright, h⟩ := bind_eq_ok h
    obtain ⟨hpos, hfirst⟩ := heightOfColumn_eq_ok hrangeStart
    obtain ⟨-, hlast⟩ := heightOfColumn_eq_ok hrangeEnd
    obtain ⟨-, hupper⟩ := hbefore range hmem
    have hfits : stop ≤ 18446744073709551615 := hstop
    have hcastStart := asI64_cases start
    have hcastStop := asI64_cases stop
    obtain ⟨dropped, hdropped⟩ : ∃ dropped, dropped =
        coverage.filter fun other => other.rangeStart != range.rangeStart := ⟨_, rfl⟩
    rw [← hdropped] at hleft
    have hsub : ∀ row ∈ dropped, row ∈ coverage := by
      rw [hdropped]
      exact fun row hrow => List.mem_of_mem_filter hrow
    have hintact : ∀ row ∈ dropped, ∀ other ∈ ranges, other.Within start stop →
        row.rangeStart = other.rangeStart → row.rangeEnd = other.rangeEnd :=
      fun row hrow other hother =>
        hanchored.intact row (hsub row hrow) other (List.mem_cons_of_mem _ hother)
    have hdroppedColumns : InColumns dropped := fun row hrow => hcolumns row (hsub row hrow)
    obtain ⟨hleftColumns, -⟩ := recordCoverageIf_sub hleft hdroppedColumns (fun _ => by
      unfold u64Max
      omega)
    obtain ⟨hrightColumns, -⟩ := recordCoverageIf_sub hright hleftColumns (fun _ => by
      unfold u64Max
      omega)
    have hleftAnchored : rangeStart < start → Anchored start stop ranges left := by
      intro hcut
      unfold recordCoverageIf at hleft
      rw [if_pos hcut] at hleft
      refine Anchored.record hleft hdroppedColumns (by omega) (by omega) hintact ?_
      intro other hother hwithin
      have hinside := hwithin.1
      exact Or.inl (by omega)
    have hleftSame : ¬ rangeStart < start → left = dropped := by
      intro hcut
      unfold recordCoverageIf at hleft
      rw [if_neg hcut] at hleft
      exact (Except.ok.inj hleft).symm
    have hleftIntact : ∀ row ∈ left, ∀ other ∈ ranges, other.Within start stop →
        row.rangeStart = other.rangeStart → row.rangeEnd = other.rangeEnd := by
      by_cases hcut : rangeStart < start
      · exact (hleftAnchored hcut).intact
      · rw [hleftSame hcut]
        exact hintact
    refine ih hranges hkeys hrightColumns h ?_
    unfold recordCoverageIf at hright
    split at hright
    · rename_i hbeyond
      have hsucc : saturatingAdd stop 1 = stop + 1 := by
        unfold saturatingAdd u64Max
        omega
      rw [hsucc] at hright
      refine Anchored.record hright hleftColumns (by omega) (by omega) hleftIntact ?_
      intro other hother hwithin
      obtain ⟨hotherMem, hotherBegins, -⟩ := hranges other hother
      have hotherEnds := hwithin.2
      refine Or.inr ⟨by omega, ?_⟩
      rw [Nat.add_sub_cancel]
      refine lt_of_le_of_ne hotherEnds fun hsame => ?_
      exact hoverlap ⟨other, hotherMem, hwithin, hsame, range, hmem, hbegins, by omega⟩
    · rename_i hnotBeyond
      obtain rfl := Except.ok.inj hright
      by_cases hcut : rangeStart < start
      · exact hleftAnchored hcut
      · -- the whole interval goes, and what anchored the table is another one
        rw [hleftSame hcut]
        refine ⟨?_, hintact⟩
        obtain ⟨row, hrow, hother⟩ := hanchored.stays
        have hdiffers := hother range List.mem_cons_self ⟨by omega, by omega⟩
        refine ⟨row, ?_, fun other hmem => hother other (List.mem_cons_of_mem _ hmem)⟩
        rw [hdropped]
        exact List.mem_filter.mpr ⟨hrow, bne_iff_ne.mpr hdiffers⟩

/-- A deletion that some interval outlasts leaves an interval. -/
theorem removeCoverageTx_ne_nil (hle : start ≤ stop) (hstop : stop ≤ u64Max)
    (hcolumns : InColumns coverage) (hkeys : CoverageKeys coverage)
    (hoverlap : ¬ OverlapAtEnd start stop coverage)
    (houtlasts : ∃ row ∈ coverage, ¬ row.Within start stop)
    (h : removeCoverageTx coverage start stop = .ok after) : after ≠ [] := by
  refine removeRanges_ne_nil hle hstop hcolumns hoverlap (fun row hrow => ?_) (hkeys.filter _)
    hcolumns h
    ⟨?_, fun row hrow range hrange _ hsame => ?_⟩
  · obtain ⟨hmem, hmeets⟩ := List.mem_filter.mp hrow
    simp only [Bool.and_eq_true, decide_eq_true_eq] at hmeets
    exact ⟨hmem, hmeets⟩
  · obtain ⟨row, hrow, houtside⟩ := houtlasts
    refine ⟨row, hrow, fun range hrange hwithin hsame => houtside ?_⟩
    rw [hkeys.eq hrow (List.mem_of_mem_filter hrange) hsame]
    exact hwithin
  · rw [hkeys.eq hrow (List.mem_of_mem_filter hrange) hsame]

namespace BlockCache

variable (cache : BlockCache)

/-- `contiguous_end` counts the height as cached. -/
def Reports (start stop : Nat) (column : Int) : Prop :=
  ∃ last after, cache.contiguousEnd start stop = .ok (some last, after) ∧
    ∃ height, start ≤ height ∧ height ≤ last ∧ asI64 height = column

/-- The call may take the last interval away although a row stays. -/
def StripsCoverage : BlockCacheCall → Prop
  | .storeBlocks _ => False
  | .upgradeLegacyRows _ _ => False
  | .deleteRange start stop => start ≤ stop ∧ cache.coverage ≠ [] ∧
      ((∀ row ∈ cache.coverage, row.Within start stop) ∨ OverlapAtEnd start stop cache.coverage) ∧
      ∃ row ∈ cache.blocks, 0 ≤ row.height ∧
        ¬ (asI64 start ≤ row.height ∧ row.height ≤ asI64 stop)
  | .deleteAbove height => cache.coverage ≠ [] ∧
      (∀ row ∈ cache.coverage, asI64 height < row.rangeStart) ∧
      ∃ row ∈ cache.blocks, 0 ≤ row.height ∧ row.height ≤ asI64 height
  | .contiguousEnd _ _ => False

/-- A height outside the intervals, in a cache that has intervals wherever it has rows. -/
structure Excludes (column : Int) (cache : BlockCache) : Prop where
  columns : InColumns cache.coverage
  keys : CoverageKeys cache.coverage
  uncovered : ¬ IsCovered cache.coverage column
  recorded : cache.coverage = [] → ∀ row ∈ cache.blocks, row.height < 0

/-- Where rows have intervals, `contiguous_end` answers from an interval or not at all. -/
theorem contiguousEnd_cases {cache after : BlockCache} {start stop : Nat} {found : Option Nat}
    (hrecorded : cache.coverage = [] → ∀ row ∈ cache.blocks, row.height < 0)
    (h : cache.contiguousEnd start stop = .ok (found, after)) :
    after = cache ∧ ∀ last, found = some last → ∃ row ∈ cache.coverage,
      row.rangeStart ≤ asI64 start ∧ asI64 start ≤ row.rangeEnd ∧ (last : Int) ≤ row.rangeEnd := by
  unfold contiguousEnd at h
  split at h
  · obtain ⟨rfl, rfl⟩ := Prod.mk.inj (Except.ok.inj h)
    exact ⟨rfl, fun last hlast => by cases hlast⟩
  · obtain ⟨covered, hcovered, h⟩ := bind_eq_ok h
    cases covered with
    | some coveredEnd =>
      obtain ⟨rfl, rfl⟩ := Prod.mk.inj (Except.ok.inj h)
      refine ⟨rfl, fun last hlast => ?_⟩
      obtain rfl := Option.some.inj hlast
      unfold coverageEnd at hcovered
      split at hcovered
      · rename_i row hlatest
        obtain ⟨hmem, haround⟩ := List.mem_filter.mp
          ((List.mem_insertionSort _).mp (List.mem_of_head? hlatest))
        rw [Bool.and_eq_true, decide_eq_true_eq, decide_eq_true_eq] at haround
        obtain ⟨value, hvalue, hcovered⟩ := bind_eq_ok hcovered
        obtain ⟨-, hcast⟩ := heightOfColumn_eq_ok hvalue
        obtain rfl := Option.some.inj (Except.ok.inj hcovered)
        exact ⟨row, hmem, haround.1, haround.2, by omega⟩
      · cases hcovered
    | none =>
      dsimp only at h
      split at h
      · obtain ⟨rfl, rfl⟩ := Prod.mk.inj (Except.ok.inj h)
        exact ⟨rfl, fun last hlast => by cases hlast⟩
      · rename_i hbare
        have hnone : cache.coverage = [] := by simpa [hasRecordedCoverage] using hbare
        obtain ⟨expected, hexpected, h⟩ := bind_eq_ok h
        have hscan : expected = start := by
          obtain ⟨heights, hheights⟩ : ∃ heights, heights =
              ((cache.blocks.map (·.height)).filter fun height =>
                decide (asI64 start ≤ height) && decide (height ≤ asI64 stop)).insertionSort
                  (· ≤ ·) := ⟨_, rfl⟩
          rw [← hheights] at hexpected
          cases heights with
          | nil => exact (Except.ok.inj hexpected).symm
          | cons column columns =>
            have hmem : column ∈ column :: columns := List.mem_cons_self
            rw [hheights, List.mem_insertionSort] at hmem
            obtain ⟨row, hrow, rfl⟩ := List.mem_map.mp (List.mem_of_mem_filter hmem)
            obtain ⟨height, hheight, -⟩ := bind_eq_ok hexpected
            obtain ⟨hpos, -⟩ := heightOfColumn_eq_ok hheight
            have hneg := hrecorded hnone row hrow
            omega
        rw [if_neg (by omega)] at h
        obtain ⟨rfl, rfl⟩ := Prod.mk.inj (Except.ok.inj h)
        exact ⟨rfl, fun last hlast => by cases hlast⟩

variable {column : Int}

/-- An excluded height is not reported. -/
theorem Excludes.not_reports {cache : BlockCache} (h : cache.Excludes column) (start stop : Nat) :
    ¬ cache.Reports start stop column := by
  rintro ⟨last, after, hfound, height, hlow, hhigh, rfl⟩
  obtain ⟨-, hcovers⟩ := contiguousEnd_cases h.recorded hfound
  obtain ⟨row, hrow, hbegins, hends, hlast⟩ := hcovers last rfl
  have hupper := (h.columns row hrow).2
  have hcastStart := asI64_cases start
  have hcast := asI64_cases height
  exact h.uncovered ⟨row, hrow, by omega, by omega⟩

/-- Deletions leave rows of the cache only. -/
theorem Excludes.of_filter {cache after : BlockCache} (h : cache.Excludes column)
    {p : CachedBlockRow → Bool} (hblocks : after.blocks = cache.blocks.filter p)
    (hcolumns : InColumns after.coverage) (hkeys : CoverageKeys after.coverage)
    (hsub : ∀ other, IsCovered after.coverage other → IsCovered cache.coverage other)
    (hrecorded : cache.coverage ≠ [] → after.coverage = [] →
      ∀ row ∈ cache.blocks, 0 ≤ row.height → p row = false) : after.Excludes column := by
  refine ⟨hcolumns, hkeys, fun hcovered => h.uncovered (hsub column hcovered), ?_⟩
  intro hnone row hrow
  rw [hblocks] at hrow
  obtain ⟨hmem, hkept⟩ := List.mem_filter.mp hrow
  by_cases hbare : cache.coverage = []
  · exact h.recorded hbare row hmem
  · by_contra hpos
    have hdeleted := hrecorded hbare hnone row hmem (not_lt.mp hpos)
    rw [hkept] at hdeleted
    cases hdeleted

theorem Excludes.deleteRange {cache after : BlockCache} (h : cache.Excludes column)
    {start stop count : Nat} (hstop : stop ≤ u64Max)
    (hcall : ¬ cache.StripsCoverage (.deleteRange start stop))
    (hafter : cache.deleteRange start stop = .ok (count, after)) : after.Excludes column := by
  rcases deleteRange_eq_ok hafter with ⟨-, rfl⟩ | ⟨hle, hcoverage, hblocks⟩
  · exact h
  · obtain ⟨hcolumns, hsub⟩ := removeCoverageTx_sub hle hstop h.columns hcoverage
    refine h.of_filter hblocks hcolumns (removeRanges_keys hcoverage h.keys) hsub ?_
    intro hsome hnone row hrow hpos
    by_contra hkept
    refine hcall ⟨hle, hsome, ?_, row, hrow, hpos, ?_⟩
    · by_contra hnot
      obtain ⟨houtlasts, hoverlap⟩ := not_or.mp hnot
      refine removeCoverageTx_ne_nil hle hstop h.columns h.keys hoverlap ?_ hcoverage hnone
      simpa using houtlasts
    · simpa using hkept

theorem Excludes.deleteAbove {cache : BlockCache} (h : cache.Excludes column) {height : Nat}
    (hheight : height ≤ u64Max) (hcall : ¬ cache.StripsCoverage (.deleteAbove height)) :
    (cache.deleteAbove height).2.Excludes column := by
  have hcast := @asI64_bounds height hheight
  have hkeys : (cache.deleteAbove height).2.coverage.map (·.rangeStart) =
      (cache.coverage.filter fun row => !decide (asI64 height < row.rangeStart)).map
        (·.rangeStart) := by
    unfold BlockCache.deleteAbove
    rw [List.map_map]
    refine List.map_congr_left fun row _ => ?_
    dsimp only [Function.comp_apply]
    split
    · rfl
    · rfl
  refine h.of_filter rfl (fun row hrow => ?_) ?_ (fun other hcovered => ?_) ?_
  · obtain ⟨old, hold, -, hstart, hend⟩ := mem_deleteAbove_coverage.mp hrow
    have hbounds := h.columns old hold
    split at hend
    · omega
    · omega
  · unfold CoverageKeys
    rw [hkeys]
    exact h.keys.filter _
  · obtain ⟨row, hrow, hlow, hhigh⟩ := hcovered
    obtain ⟨old, hold, -, hstart, hend⟩ := mem_deleteAbove_coverage.mp hrow
    refine ⟨old, hold, by omega, ?_⟩
    split at hend
    · omega
    · omega
  · intro hsome hnone row hrow hpos
    by_contra hkept
    refine hcall ⟨hsome, fun range hrange => ?_, row, hrow, hpos, by simpa using hkept⟩
    by_contra hbelow
    have hmem : range.rangeStart ∈ (cache.deleteAbove height).2.coverage.map (·.rangeStart) := by
      rw [hkeys]
      exact List.mem_map_of_mem (List.mem_filter.mpr ⟨hrange, by simpa using hbelow⟩)
    rw [hnone] at hmem
    exact absurd hmem List.not_mem_nil

section Codec

variable {encode : CompactBlockData → Except String Bytes}

theorem Excludes.storeBlocks {column : Int} {cache after : BlockCache} (h : cache.Excludes column)
    {blocks : List CompactBlockData} (hfits : ∀ block ∈ blocks, block.height ≤ u64Max)
    (hothers : ∀ block ∈ blocks, asI64 block.height ≠ column)
    (hafter : storeBlocks encode cache blocks = .ok after) : after.Excludes column := by
  rcases storeBlocks_eq_ok hafter with ⟨-, rfl⟩ | ⟨height, heights, hsorted, -, hcoverage⟩
  · exact h
  · have hlisted : ∀ other ∈ height :: heights, other ≤ u64Max ∧ asI64 other ≠ column := by
      intro other hother
      rw [← hsorted] at hother
      obtain ⟨block, hblock, rfl⟩ := mem_storedHeights.mp hother
      exact ⟨hfits block hblock, hothers block hblock⟩
    obtain ⟨hheight, hheights⟩ := List.forall_mem_cons.mp hlisted
    obtain ⟨hcolumns, hsub⟩ := recordRuns_sub hheights le_rfl hheight.1 (fun other hlow hhigh => by
      rw [Nat.le_antisymm hhigh hlow]
      exact hheight.2) h.columns hcoverage
    refine ⟨hcolumns, recordRuns_keys hcoverage h.keys, fun hcovered => ?_, fun hnone => ?_⟩
    · rcases hsub column hcovered with hold | ⟨other, -, hother, hcast⟩
      · exact h.uncovered hold
      · exact hother hcast.symm
    · exact absurd hnone (recordRuns_ne_nil le_rfl hheight.1
        (fun other hother => (hheights other hother).1) hcoverage)

/-- Each call that does not store the height and strips nothing keeps it excluded. -/
theorem Excludes.step {column : Int} {cache : BlockCache} (h : cache.Excludes column)
    {call : BlockCacheCall} (hfits : ∀ height ∈ call.heights, height ≤ u64Max)
    (hothers : ¬ call.Stores column) (hcall : ¬ cache.StripsCoverage call) :
    (step encode cache call).Excludes column := by
  cases call with
  | storeBlocks blocks =>
    exact getD_of_commit h fun after hafter =>
      h.storeBlocks (fun block hblock => hfits _ (List.mem_map_of_mem hblock))
        (fun block hblock hsame => hothers ⟨block, hblock, hsame⟩) hafter
  | upgradeLegacyRows blocks legacyHeights =>
    refine getD_of_commit h fun after hafter => ?_
    obtain ⟨count, hcount⟩ := map_snd_eq_ok hafter
    obtain ⟨hcoverage, hkept⟩ := upgradeLegacyRows_eq_ok hcount
    refine ⟨by rw [hcoverage]; exact h.columns, by rw [hcoverage]; exact h.keys,
      by rw [hcoverage]; exact h.uncovered, fun hnone row hrow => ?_⟩
    have hmem : row.height ∈ cache.blocks.map (·.height) := by
      rw [← hkept]
      exact List.mem_map_of_mem hrow
    obtain ⟨old, hold, hsame⟩ := List.mem_map.mp hmem
    rw [← hsame]
    exact h.recorded (hcoverage.symm.trans hnone) old hold
  | deleteRange start stop =>
    refine getD_of_commit h fun after hafter => ?_
    obtain ⟨count, hcount⟩ := map_snd_eq_ok hafter
    exact h.deleteRange (hfits stop (by simp [BlockCacheCall.heights])) hcall hcount
  | deleteAbove height =>
    exact h.deleteAbove (hfits height (by simp [BlockCacheCall.heights])) hcall
  | contiguousEnd start stop =>
    refine getD_of_commit h fun after hafter => ?_
    obtain ⟨found, hfound⟩ := map_snd_eq_ok hafter
    obtain ⟨rfl, -⟩ := contiguousEnd_cases h.recorded hfound
    exact h

/-- **Rows outside the intervals stay unreported** in any order of calls that do not store them
again, as long as no deletion takes the last interval away from rows that stay. -/
theorem uncovered_unreported (encode : CompactBlockData → Except String Bytes)
    (cache : BlockCache) (hcolumns : InColumns cache.coverage) (hkeys : CoverageKeys cache.coverage)
    (hrecorded : cache.coverage ≠ []) (column : Int)
    (huncovered : ¬ IsCovered cache.coverage column) (calls : List BlockCacheCall)
    (hfits : ∀ call ∈ calls, ∀ height ∈ call.heights, height ≤ u64Max)
    (hothers : ∀ call ∈ calls, ¬ call.Stores column)
    (hcalls : Runs.EachStep (step encode) (fun cache call => ¬ cache.StripsCoverage call) cache
      calls) :
    Runs.Throughout (step encode) (fun cache => ∀ start stop, ¬ cache.Reports start stop column)
      cache calls := by
  have hexcludes : Runs.Throughout (step encode) (Excludes column) cache calls := by
    refine Runs.run_invariant (C := fun cache call => (∀ height ∈ call.heights, height ≤ u64Max) ∧
      ¬ call.Stores column ∧ ¬ cache.StripsCoverage call)
      (fun cache call h hcall => h.step hcall.1 hcall.2.1 hcall.2.2)
      ⟨hcolumns, hkeys, huncovered, fun hnone => absurd hnone hrecorded⟩ ?_
    intro done call rest hsplit
    have hmem : call ∈ calls := by
      rw [hsplit]
      exact List.mem_append_right _ List.mem_cons_self
    exact ⟨hfits call hmem, hothers call hmem, hcalls done call rest hsplit⟩
  exact fun done hdone start stop => (hexcludes done hdone).not_reports start stop

/-- Two rows from before the intervals, and a block stored since. -/
def legacyCache : BlockCache := ⟨[⟨1, []⟩, ⟨2, []⟩, ⟨20, []⟩], [⟨20, 20⟩]⟩

theorem uncovered_unreported_legacy :
    ¬ (Runs.run (step fun _ => .ok []) legacyCache
      [.storeBlocks [⟨1, 30, [], [], 0, [], []⟩], .deleteAbove 25]).Reports 1 2 1 := by
  refine (uncovered_unreported (fun _ => .ok []) legacyCache ?_ ?_ ?_ 1 ?_
    [.storeBlocks [⟨1, 30, [], [], 0, [], []⟩], .deleteAbove 25] ?_ ?_ ?_).last 1 2
  · simp [InColumns, legacyCache]
  · simp [CoverageKeys, legacyCache]
  · simp [legacyCache]
  · simp [IsCovered, legacyCache]
  · decide
  · simp [BlockCacheCall.Stores, asI64, i64Max]
  · intro done call rest hsplit
    rcases done with _ | ⟨first, _ | ⟨second, done⟩⟩
    · obtain ⟨rfl, -⟩ := List.cons.inj hsplit
      exact fun h => h
    · obtain ⟨rfl, htail⟩ := List.cons.inj hsplit
      obtain ⟨rfl, -⟩ := List.cons.inj htail
      rintro ⟨-, hall, -⟩
      exact absurd (hall ⟨20, 20⟩ (by decide)) (by decide)
    · simp at hsplit

/-- Deleting the only interval brings the rows back. -/
theorem legacy_rows_return :
    legacyCache.coverage ≠ [] ∧ legacyCache.Stored 1 ∧ ¬ IsCovered legacyCache.coverage 1 ∧
      ¬ (BlockCacheCall.deleteAbove 15).Stores 1 ∧
      (Runs.run (step fun _ => .ok []) legacyCache [.deleteAbove 15]).Reports 1 2 1 := by
  refine ⟨by decide, ⟨⟨1, []⟩, by decide, rfl⟩, by simp [IsCovered, legacyCache], fun h => h, ?_⟩
  exact ⟨2, ⟨[⟨1, []⟩, ⟨2, []⟩], [⟨1, 2⟩]⟩, rfl, 1, le_rfl, by decide, rfl⟩

end Codec

end BlockCache

end StashiWallet
