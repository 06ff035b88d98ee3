import Mathlib.Order.MinMax
import StashiWallet.BlockCache

/-!
# The recorded intervals as a set of heights

What the statements on `block_coverage` do to the set of heights inside an interval. Recording
adds a stretch and merges it with every interval it touches; removing cuts a stretch out. On
intervals that are apart both are exact and leave the intervals apart. On any table, with any
casts, they cover nothing that was not covered or recorded.
-/

namespace StashiWallet

/-- A column of the interval table lies in an interval. -/
def IsCovered (coverage : List CoverageRow) (column : Int) : Prop :=
  ∃ row ∈ coverage, row.rangeStart ≤ column ∧ column ≤ row.rangeEnd

theorem not_isCovered_nil (column : Int) : ¬ IsCovered [] column := by
  rintro ⟨row, hrow, -⟩
  exact absurd hrow List.not_mem_nil

variable {column : Int}

theorem isCovered_append {first second : List CoverageRow} :
    IsCovered (first ++ second) column ↔ IsCovered first column ∨ IsCovered second column := by
  simp only [IsCovered, List.mem_append, or_and_right, exists_or]

variable {row : CoverageRow}

theorem isCovered_singleton :
    IsCovered [row] column ↔ row.rangeStart ≤ column ∧ column ≤ row.rangeEnd := by
  simp [IsCovered]

theorem IsCovered.of_filter {coverage : List CoverageRow} {p : CoverageRow → Bool}
    (h : IsCovered (coverage.filter p) column) : IsCovered coverage column := by
  obtain ⟨row, hrow, hbounds⟩ := h
  exact ⟨row, List.mem_of_mem_filter hrow, hbounds⟩

/-- Columns are `i64`. -/
def InColumns (coverage : List CoverageRow) : Prop :=
  ∀ row ∈ coverage, -9223372036854775808 ≤ row.rangeStart ∧ row.rangeEnd ≤ 9223372036854775807

theorem insertCoverage_eq_ok {coverage after : List CoverageRow}
    (h : insertCoverage coverage row = .ok after) :
    row.rangeStart ≤ row.rangeEnd ∧ after = coverage ++ [row] := by
  unfold insertCoverage at h
  split at h
  · cases h
  · rename_i hcheck
    split at h
    · cases h
    · exact ⟨not_lt.mp hcheck, (Except.ok.inj h).symm⟩

theorem touchesCoverage_iff {adjacentStart adjacentEnd : Int} :
    touchesCoverage adjacentStart adjacentEnd row = true ↔
      adjacentStart ≤ row.rangeEnd ∧ row.rangeStart ≤ adjacentEnd := by
  simp [touchesCoverage]

/-- The least start of the overlap, cast, and the height asked for. -/
theorem mergedStart_cases (overlap : List CoverageRow) (start : Nat) :
    overlap = [] ∧ mergedStart overlap start = start ∨
      ∃ first ∈ overlap, (∀ row ∈ overlap, first.rangeStart ≤ row.rangeStart) ∧
        mergedStart overlap start = min start (asU64 first.rangeStart) := by
  unfold mergedStart
  cases hmin : (overlap.map (·.rangeStart)).min? with
  | none =>
    left
    rw [List.min?_eq_none_iff, List.map_eq_nil_iff] at hmin
    exact ⟨hmin, rfl⟩
  | some value =>
    right
    obtain ⟨hmem, hle⟩ := List.min?_eq_some_iff.mp hmin
    obtain ⟨first, hfirst, rfl⟩ := List.mem_map.mp hmem
    exact ⟨first, hfirst, fun row hrow => hle _ (List.mem_map_of_mem hrow), rfl⟩

theorem mergedEnd_cases (overlap : List CoverageRow) (stop : Nat) :
    overlap = [] ∧ mergedEnd overlap stop = stop ∨
      ∃ last ∈ overlap, (∀ row ∈ overlap, row.rangeEnd ≤ last.rangeEnd) ∧
        mergedEnd overlap stop = max stop (asU64 last.rangeEnd) := by
  unfold mergedEnd
  cases hmax : (overlap.map (·.rangeEnd)).max? with
  | none =>
    left
    rw [List.max?_eq_none_iff, List.map_eq_nil_iff] at hmax
    exact ⟨hmax, rfl⟩
  | some value =>
    right
    obtain ⟨hmem, hle⟩ := List.max?_eq_some_iff.mp hmax
    obtain ⟨last, hlast, rfl⟩ := List.mem_map.mp hmem
    exact ⟨last, hlast, fun row hrow => hle _ (List.mem_map_of_mem hrow), rfl⟩

theorem asU64_cases {value : Int} (hlow : -9223372036854775808 ≤ value)
    (hhigh : value ≤ 9223372036854775807) :
    0 ≤ value ∧ (asU64 value : Int) = value ∨
      value < 0 ∧ (asU64 value : Int) = value + 18446744073709551616 := by
  unfold asU64
  omega

theorem asI64_cases (value : Nat) :
    value ≤ 9223372036854775807 ∧ asI64 value = value ∨
      9223372036854775807 < value ∧ asI64 value = value - 18446744073709551616 := by
  unfold asI64 i64Max
  split
  · exact Or.inl ⟨‹_›, rfl⟩
  · exact Or.inr ⟨by omega, rfl⟩

variable {start stop : Nat}

/-- The merged interval lies inside the recorded stretch and the intervals that touch it. -/
theorem isCovered_of_merged {coverage overlap : List CoverageRow}
    (hoverlap : ∀ row ∈ overlap, row ∈ coverage ∧ asI64 (start - 1) ≤ row.rangeEnd ∧
      row.rangeStart ≤ asI64 (saturatingAdd stop 1)) (hcolumns : InColumns coverage)
    (hle : start ≤ stop) (hstop : stop ≤ u64Max) (hlow : asI64 (mergedStart overlap start) ≤ column)
    (hhigh : column ≤ asI64 (mergedEnd overlap stop)) :
    IsCovered coverage column ∨ asI64 start ≤ column ∧ column ≤ asI64 stop := by
  have hsucc : saturatingAdd stop 1 ≤ 18446744073709551615 ∧
      (saturatingAdd stop 1 = stop + 1 ∨ stop = 18446744073709551615) := by
    unfold saturatingAdd u64Max at *
    omega
  have hfits : stop ≤ 18446744073709551615 := hstop
  have hstart' := asI64_cases start
  have hbefore := asI64_cases (start - 1)
  have hstop' := asI64_cases stop
  have hafter := asI64_cases (saturatingAdd stop 1)
  by_cases hleft : column < asI64 start
  · left
    rcases mergedStart_cases overlap start with ⟨-, hsame⟩ | ⟨first, hfirst, -, hmin⟩
    · rw [hsame] at hlow
      omega
    · obtain ⟨hmem, htouches, hbegins⟩ := hoverlap first hfirst
      obtain ⟨hlower, hupper⟩ := hcolumns first hmem
      have hcast := @asU64_cases first.rangeStart hlower (by omega)
      have hmerged := asI64_cases (mergedStart overlap start)
      exact ⟨first, hmem, by omega, by omega⟩
  · by_cases hright : asI64 stop < column
    · left
      rcases mergedEnd_cases overlap stop with ⟨-, hsame⟩ | ⟨last, hlast, -, hmax⟩
      · rw [hsame] at hhigh
        omega
      · obtain ⟨hmem, hends, htouches⟩ := hoverlap last hlast
        obtain ⟨hlower, hupper⟩ := hcolumns last hmem
        have hcast := @asU64_cases last.rangeEnd (by omega) hupper
        have hmerged := asI64_cases (mergedEnd overlap stop)
        exact ⟨last, hmem, by omega, by omega⟩
    · exact Or.inr ⟨not_lt.mp hleft, not_lt.mp hright⟩

theorem asI64_bounds {value : Nat} (h : value ≤ 18446744073709551615) :
    -9223372036854775808 ≤ asI64 value ∧ asI64 value ≤ 9223372036854775807 := by
  have hcast := asI64_cases value
  omega

theorem mergedStart_le (overlap : List CoverageRow) (start : Nat) :
    mergedStart overlap start ≤ start := by
  rcases mergedStart_cases overlap start with ⟨-, hsame⟩ | ⟨first, -, -, hmin⟩
  · exact hsame.le
  · exact hmin.trans_le (min_le_left _ _)

theorem mergedEnd_le {overlap : List CoverageRow} {stop : Nat} (hstop : stop ≤ u64Max) :
    mergedEnd overlap stop ≤ u64Max := by
  rcases mergedEnd_cases overlap stop with ⟨-, hsame⟩ | ⟨last, -, -, hmax⟩
  · exact hsame.trans_le hstop
  · rw [hmax]
    refine max_le hstop ?_
    unfold asU64 u64Max
    omega

/-- Recording covers nothing beyond what it records. -/
theorem recordCoverageTx_sub {coverage after : List CoverageRow}
    (h : recordCoverageTx coverage start stop = .ok after) (hcolumns : InColumns coverage)
    (hstop : stop ≤ u64Max) :
    InColumns after ∧ ∀ column, IsCovered after column → IsCovered coverage column ∨
      start ≤ stop ∧ asI64 start ≤ column ∧ column ≤ asI64 stop := by
  unfold recordCoverageTx at h
  split at h
  · obtain rfl := Except.ok.inj h
    exact ⟨hcolumns, fun column hcolumn => Or.inl hcolumn⟩
  · rename_i hrange
    have hle := not_lt.mp hrange
    obtain ⟨hcheck, rfl⟩ := insertCoverage_eq_ok h
    have hoverlap : ∀ row ∈ coverage.filter
        (touchesCoverage (asI64 (start - 1)) (asI64 (saturatingAdd stop 1))),
        row ∈ coverage ∧ asI64 (start - 1) ≤ row.rangeEnd ∧
          row.rangeStart ≤ asI64 (saturatingAdd stop 1) := by
      intro row hrow
      obtain ⟨hmem, htouches⟩ := List.mem_filter.mp hrow
      exact ⟨hmem, touchesCoverage_iff.mp htouches⟩
    refine ⟨fun row hrow => ?_, fun column hcolumn => ?_⟩
    · rcases List.mem_append.mp hrow with hold | hnew
      · exact hcolumns row (List.mem_of_mem_filter hold)
      · rw [List.mem_singleton.mp hnew]
        exact ⟨(asI64_bounds ((mergedStart_le _ _).trans (hle.trans hstop))).1,
          (asI64_bounds (mergedEnd_le hstop)).2⟩
    · rcases isCovered_append.mp hcolumn with hold | hnew
      · exact Or.inl hold.of_filter
      · obtain ⟨hlow, hhigh⟩ := isCovered_singleton.mp hnew
        rcases isCovered_of_merged hoverlap hcolumns hle hstop hlow hhigh with hold | hrecorded
        · exact Or.inl hold
        · exact Or.inr ⟨hle, hrecorded⟩

theorem heightOfColumn_eq_ok {message : String} {height : Nat}
    (h : heightOfColumn message column = .ok height) : 0 ≤ column ∧ (height : Int) = column := by
  unfold heightOfColumn at h
  split at h
  · rename_i hcolumn
    obtain rfl := Except.ok.inj h
    exact ⟨hcolumn, Int.toNat_of_nonneg hcolumn⟩
  · cases h

/-- Recording only where a condition holds. -/
theorem recordCoverageIf_sub {coverage after : List CoverageRow} {c : Prop} [Decidable c]
    (h : recordCoverageIf c coverage start stop = .ok after) (hcolumns : InColumns coverage)
    (hstop : c → stop ≤ u64Max) :
    InColumns after ∧ ∀ column, IsCovered after column → IsCovered coverage column ∨
      c ∧ start ≤ stop ∧ asI64 start ≤ column ∧ column ≤ asI64 stop := by
  unfold recordCoverageIf at h
  split at h
  · rename_i hc
    obtain ⟨hafter, hsub⟩ := recordCoverageTx_sub h hcolumns (hstop hc)
    exact ⟨hafter, fun column hcolumn => (hsub column hcolumn).imp_right (And.intro hc)⟩
  · obtain rfl := Except.ok.inj h
    exact ⟨hcolumns, fun column hcolumn => Or.inl hcolumn⟩

/-- Removing covers nothing new: what is recorded of a range on either side of the cut was
inside it. -/
theorem removeRanges_sub (hle : start ≤ stop) (hstop : stop ≤ u64Max) {before : List CoverageRow}
    (hbefore : InColumns before) {ranges : List CoverageRow}
    (hranges : ∀ row ∈ ranges, row ∈ before ∧ row.rangeStart ≤ asI64 stop ∧
      asI64 start ≤ row.rangeEnd) {coverage after : List CoverageRow}
    (hcolumns : InColumns coverage)
    (hsub : ∀ column, IsCovered coverage column → IsCovered before column)
    (h : removeRanges start stop ranges coverage = .ok after) :
    InColumns after ∧ ∀ column, IsCovered after column → IsCovered before column := by
  induction ranges generalizing coverage with
  | nil =>
    obtain rfl := Except.ok.inj h
    exact ⟨hcolumns, hsub⟩
  | cons row ranges ih =>
    obtain ⟨hrow, hranges⟩ := List.forall_mem_cons.mp hranges
    obtain ⟨hmem, hbegins, hends⟩ := hrow
    obtain ⟨rangeStart, hrangeStart, h⟩ := bind_eq_ok h
    obtain ⟨rangeEnd, hrangeEnd, h⟩ := bind_eq_ok h
    obtain ⟨left, hleft, h⟩ := bind_eq_ok h
    obtain ⟨right, hright, h⟩ := bind_eq_ok h
    obtain ⟨hpos, hfirst⟩ := heightOfColumn_eq_ok hrangeStart
    obtain ⟨-, hlast⟩ := heightOfColumn_eq_ok hrangeEnd
    obtain ⟨-, hupper⟩ := hbefore row hmem
    have hfits : stop ≤ 18446744073709551615 := hstop
    have hstart' := asI64_cases start
    have hstop' := asI64_cases stop
    have hcut := asI64_cases (start - 1)
    have hfirst' := asI64_cases rangeStart
    have hlast' := asI64_cases rangeEnd
    have hafter' := asI64_cases (saturatingAdd stop 1)
    have hsucc : saturatingAdd stop 1 ≤ stop + 1 ∧ stop ≤ saturatingAdd stop 1 := by
      unfold saturatingAdd u64Max at *
      omega
    obtain ⟨hleftColumns, hleftSub⟩ := recordCoverageIf_sub hleft
      (fun other hother => hcolumns other (List.mem_of_mem_filter hother))
      (fun _ => (Nat.sub_le start 1).trans (hle.trans hstop))
    obtain ⟨hrightColumns, hrightSub⟩ := recordCoverageIf_sub hright hleftColumns (fun _ => by
      unfold u64Max
      omega)
    refine ih hranges hrightColumns (fun column hcolumn => ?_) h
    rcases hrightSub column hcolumn with hcolumn | ⟨hbeyond, -, hlow, hhigh⟩
    · rcases hleftSub column hcolumn with hcolumn | ⟨hcutOff, -, hlow, hhigh⟩
      · exact hsub column hcolumn.of_filter
      · exact ⟨row, hmem, by omega, by omega⟩
    · exact ⟨row, hmem, by omega, by omega⟩

theorem removeCoverageTx_sub {coverage after : List CoverageRow} (hle : start ≤ stop)
    (hstop : stop ≤ u64Max) (hcolumns : InColumns coverage)
    (h : removeCoverageTx coverage start stop = .ok after) :
    InColumns after ∧ ∀ column, IsCovered after column → IsCovered coverage column := by
  refine removeRanges_sub hle hstop hcolumns (fun row hrow => ?_) hcolumns
    (fun column hcolumn => hcolumn) h
  obtain ⟨hmem, hmeets⟩ := List.mem_filter.mp hrow
  simp only [Bool.and_eq_true, decide_eq_true_eq] at hmeets
  exact ⟨hmem, hmeets⟩

/-- A column between the casts of two heights is the cast of a height between them. -/
theorem exists_height_of_between (hstop : stop ≤ u64Max) (hlow : asI64 start ≤ column)
    (hhigh : column ≤ asI64 stop) (hle : start ≤ stop) :
    ∃ height, start ≤ height ∧ height ≤ stop ∧ column = asI64 height := by
  have hfits : stop ≤ 18446744073709551615 := hstop
  have hstart' := asI64_cases start
  have hstop' := asI64_cases stop
  by_cases hpos : 0 ≤ column
  · refine ⟨column.toNat, by omega, by omega, ?_⟩
    have hcast := asI64_cases column.toNat
    omega
  · refine ⟨(column + 18446744073709551616).toNat, by omega, by omega, ?_⟩
    have hcast := asI64_cases (column + 18446744073709551616).toNat
    omega

/-- Recording runs of heights covers those heights only. -/
theorem recordRuns_sub {heights : List Nat} {p : Nat → Prop} (hheights : ∀ height ∈ heights,
      height ≤ u64Max ∧ p height)
    {rangeStart rangeEnd : Nat} (hle : rangeStart ≤ rangeEnd) (hfits : rangeEnd ≤ u64Max)
    (hrun : ∀ height, rangeStart ≤ height → height ≤ rangeEnd → p height)
    {coverage after : List CoverageRow} (hcolumns : InColumns coverage)
    (h : recordRuns rangeStart rangeEnd heights coverage = .ok after) :
    InColumns after ∧ ∀ column, IsCovered after column → IsCovered coverage column ∨
      ∃ height ≤ u64Max, p height ∧ column = asI64 height := by
  induction heights generalizing rangeStart rangeEnd coverage with
  | nil =>
    obtain ⟨hafter, hsub⟩ := recordCoverageTx_sub h hcolumns hfits
    refine ⟨hafter, fun column hcolumn => (hsub column hcolumn).imp_right ?_⟩
    rintro ⟨-, hlow, hhigh⟩
    obtain ⟨height, hfirst, hlast, hcast⟩ := exists_height_of_between hfits hlow hhigh hle
    exact ⟨height, hlast.trans hfits, hrun height hfirst hlast, hcast⟩
  | cons height heights ih =>
    obtain ⟨⟨hheight, hp⟩, hheights⟩ := List.forall_mem_cons.mp hheights
    unfold recordRuns at h
    split at h
    · rename_i hnext
      have hsucc : rangeEnd ≤ height ∧ height ≤ rangeEnd + 1 := by
        unfold saturatingAdd u64Max at *
        omega
      refine ih hheights (hle.trans hsucc.1) hheight (fun other hfirst hlast => ?_) hcolumns h
      rcases Nat.lt_or_ge rangeEnd other with hbeyond | hwithin
      · obtain rfl : other = height := by omega
        exact hp
      · exact hrun other hfirst hwithin
    · obtain ⟨middle, hmiddle, h⟩ := bind_eq_ok h
      obtain ⟨hmiddleColumns, hmiddleSub⟩ := recordCoverageTx_sub hmiddle hcolumns hfits
      obtain ⟨hafter, hsub⟩ := ih hheights (le_refl height) hheight (fun other hfirst hlast => by
        obtain rfl := le_antisymm hlast hfirst
        exact hp) hmiddleColumns h
      refine ⟨hafter, fun column hcolumn => ?_⟩
      rcases hsub column hcolumn with hcolumn | hnew
      · refine (hmiddleSub column hcolumn).imp_right ?_
        rintro ⟨-, hlow, hhigh⟩
        obtain ⟨other, hfirst, hlast, hcast⟩ := exists_height_of_between hfits hlow hhigh hle
        exact ⟨other, hlast.trans hfits, hrun other hfirst hlast, hcast⟩
      · exact Or.inr hnew

/-- Intervals of heights that are disjoint and do not touch. -/
structure CoverageApart (coverage : List CoverageRow) : Prop where
  nodup : coverage.Nodup
  bounds : ∀ row ∈ coverage, 0 ≤ row.rangeStart ∧ row.rangeStart ≤ row.rangeEnd ∧
    row.rangeEnd < 9223372036854775807
  apart : ∀ row ∈ coverage, ∀ other ∈ coverage, row ≠ other →
    row.rangeEnd + 1 < other.rangeStart ∨ other.rangeEnd + 1 < row.rangeStart

theorem coverageApart_nil : CoverageApart [] :=
  ⟨List.nodup_nil, List.forall_mem_nil _, List.forall_mem_nil _⟩

section Apart

variable {coverage : List CoverageRow} (h : CoverageApart coverage)

include h

theorem CoverageApart.inColumns : InColumns coverage := by
  intro row hrow
  obtain ⟨hlow, -, hhigh⟩ := h.bounds row hrow
  omega

theorem CoverageApart.filter (p : CoverageRow → Bool) : CoverageApart (coverage.filter p) :=
  ⟨h.nodup.filter p, fun row hrow => h.bounds row (List.mem_of_mem_filter hrow),
    fun row hrow other hother =>
      h.apart row (List.mem_of_mem_filter hrow) other (List.mem_of_mem_filter hother)⟩

/-- The height at which the merged interval starts. -/
theorem CoverageApart.mergedStart_spec {overlap : List CoverageRow}
    (hsub : ∀ row ∈ overlap, row ∈ coverage) {start : Nat}
    (hstart : start < 9223372036854775807) :
    asI64 (mergedStart overlap start) ≤ start ∧
      (∀ row ∈ overlap, asI64 (mergedStart overlap start) ≤ row.rangeStart) ∧
      0 ≤ asI64 (mergedStart overlap start) ∧
      (asI64 (mergedStart overlap start) = start ∨
        ∃ row ∈ overlap, row.rangeStart = asI64 (mergedStart overlap start)) := by
  rcases mergedStart_cases overlap start with ⟨rfl, hsame⟩ | ⟨first, hfirst, hleast, hmin⟩
  · have hcast := asI64_cases start
    rw [hsame]
    exact ⟨by omega, List.forall_mem_nil _, by omega, Or.inl (by omega)⟩
  · obtain ⟨hlow, hle, hhigh⟩ := h.bounds first (hsub first hfirst)
    have hcast := @asU64_cases first.rangeStart (by omega) (by omega)
    have hmerged := asI64_cases (mergedStart overlap start)
    have hvalue : asI64 (mergedStart overlap start) = min (start : Int) first.rangeStart := by
      omega
    rw [hvalue]
    refine ⟨min_le_left _ _, fun row hrow => (min_le_right _ _).trans (hleast row hrow),
      by omega, ?_⟩
    rcases min_choice (start : Int) first.rangeStart with hchoice | hchoice
    · exact Or.inl hchoice
    · exact Or.inr ⟨first, hfirst, hchoice.symm⟩

theorem CoverageApart.mergedEnd_spec {overlap : List CoverageRow}
    (hsub : ∀ row ∈ overlap, row ∈ coverage) {stop : Nat} (hstop : stop < 9223372036854775807) :
    stop ≤ asI64 (mergedEnd overlap stop) ∧
      (∀ row ∈ overlap, row.rangeEnd ≤ asI64 (mergedEnd overlap stop)) ∧
      asI64 (mergedEnd overlap stop) < 9223372036854775807 ∧
      (asI64 (mergedEnd overlap stop) = stop ∨
        ∃ row ∈ overlap, row.rangeEnd = asI64 (mergedEnd overlap stop)) := by
  rcases mergedEnd_cases overlap stop with ⟨rfl, hsame⟩ | ⟨last, hlast, hgreatest, hmax⟩
  · have hcast := asI64_cases stop
    rw [hsame]
    exact ⟨by omega, List.forall_mem_nil _, by omega, Or.inl (by omega)⟩
  · obtain ⟨hlow, hle, hhigh⟩ := h.bounds last (hsub last hlast)
    have hcast := @asU64_cases last.rangeEnd (by omega) (by omega)
    have hmerged := asI64_cases (mergedEnd overlap stop)
    have hvalue : asI64 (mergedEnd overlap stop) = max (stop : Int) last.rangeEnd := by
      omega
    rw [hvalue]
    refine ⟨le_max_left _ _, fun row hrow => (hgreatest row hrow).trans (le_max_right _ _),
      by omega, ?_⟩
    rcases max_choice (stop : Int) last.rangeEnd with hchoice | hchoice
    · exact Or.inl hchoice
    · exact Or.inr ⟨last, hlast, hchoice.symm⟩

/-- An interval that touches none of the others can join them. -/
theorem CoverageApart.append {row : CoverageRow}
    (hbounds : 0 ≤ row.rangeStart ∧ row.rangeStart ≤ row.rangeEnd ∧
      row.rangeEnd < 9223372036854775807)
    (hfar : ∀ other ∈ coverage, other.rangeEnd + 1 < row.rangeStart ∨
      row.rangeEnd + 1 < other.rangeStart) : CoverageApart (coverage ++ [row]) := by
  refine ⟨?_, ?_, ?_⟩
  · refine h.nodup.append (List.nodup_singleton _) (fun other hother hnew => ?_)
    have hapart := hfar other hother
    rw [List.mem_singleton.mp hnew] at hapart
    omega
  · intro other hother
    rcases List.mem_append.mp hother with hold | hnew
    · exact h.bounds other hold
    · exact List.mem_singleton.mp hnew ▸ hbounds
  · intro first hfirst second hsecond hne
    rcases List.mem_append.mp hfirst with hold | hnew
    · rcases List.mem_append.mp hsecond with hold' | hnew'
      · exact h.apart first hold second hold' hne
      · rw [List.mem_singleton.mp hnew']
        exact hfar first hold
    · rw [List.mem_singleton.mp hnew] at hne ⊢
      rcases List.mem_append.mp hsecond with hold' | hnew'
      · exact (hfar second hold').symm
      · exact absurd (List.mem_singleton.mp hnew').symm hne

/-- An interval that does not touch the recorded stretch does not touch the merged one either,
for the merged one begins and ends with the stretch or with an interval that touches it. -/
theorem CoverageApart.far_of_merged {touches : CoverageRow → Bool} {start stop : Nat}
    (hle : start ≤ stop) (hstop : stop < 9223372036854775807)
    (htouches : ∀ row ∈ coverage, touches row = true ↔
      (start : Int) ≤ row.rangeEnd + 1 ∧ row.rangeStart ≤ (stop : Int) + 1) :
    ∀ row ∈ coverage.filter (fun row => !touches row),
      row.rangeEnd + 1 < asI64 (mergedStart (coverage.filter touches) start) ∨
        asI64 (mergedEnd (coverage.filter touches) stop) + 1 < row.rangeStart := by
  have hsub : ∀ row ∈ coverage.filter touches, row ∈ coverage :=
    fun row hrow => List.mem_of_mem_filter hrow
  obtain ⟨-, -, -, hfirstOf⟩ := h.mergedStart_spec hsub (by omega : start < _)
  obtain ⟨-, -, -, hlastOf⟩ := h.mergedEnd_spec hsub hstop
  intro row hrow
  obtain ⟨hmem, hnot⟩ := List.mem_filter.mp hrow
  obtain ⟨hlow, hordered, -⟩ := h.bounds row hmem
  have hfar : ¬ ((start : Int) ≤ row.rangeEnd + 1 ∧ row.rangeStart ≤ (stop : Int) + 1) := by
    rw [← htouches row hmem]
    simpa using hnot
  have hothers : ∀ other ∈ coverage.filter touches, other.rangeStart ≤ other.rangeEnd ∧
      (start : Int) ≤ other.rangeEnd + 1 ∧ other.rangeStart ≤ (stop : Int) + 1 ∧
        (row.rangeEnd + 1 < other.rangeStart ∨ other.rangeEnd + 1 < row.rangeStart) := by
    intro other hother
    obtain ⟨hotherMem, hotherTouches⟩ := List.mem_filter.mp hother
    obtain ⟨hends, hbegins⟩ := (htouches other hotherMem).mp hotherTouches
    refine ⟨(h.bounds other hotherMem).2.1, hends, hbegins, h.apart row hmem other hotherMem ?_⟩
    rintro rfl
    exact hfar ⟨hends, hbegins⟩
  rcases hfirstOf with hstart | ⟨first, hfirst, hstart⟩
  · rcases hlastOf with hend | ⟨last, hlast, hend⟩
    · omega
    · have hapart := hothers last hlast
      omega
  · have hapart := hothers first hfirst
    rcases hlastOf with hend | ⟨last, hlast, hend⟩
    · omega
    · have hapart' := hothers last hlast
      omega

/-- **Recording is exact.** The stretch is added, intervals stay apart, and an interval that does
not touch the stretch stays as it is. -/
theorem CoverageApart.record {start stop : Nat} (hle : start ≤ stop)
    (hstop : stop < 9223372036854775807) :
    ∃ after, recordCoverageTx coverage start stop = .ok after ∧ CoverageApart after ∧
      (∀ column, IsCovered after column ↔
        IsCovered coverage column ∨ (start : Int) ≤ column ∧ column ≤ stop) ∧
      ∀ row ∈ coverage, row.rangeEnd + 1 < start ∨ (stop : Int) + 1 < row.rangeStart →
        row ∈ after := by
  have hsucc : saturatingAdd stop 1 = stop + 1 := by
    unfold saturatingAdd u64Max
    omega
  have hcastStart := asI64_cases start
  have hcastStop := asI64_cases stop
  have hcastBefore := asI64_cases (start - 1)
  have hcastAfter := asI64_cases (stop + 1)
  have hcasts : asI64 start = start ∧ asI64 stop = stop := by omega
  obtain ⟨touches, htouchesEq⟩ : ∃ touches,
      touches = touchesCoverage (asI64 (start - 1)) (asI64 (stop + 1)) := ⟨_, rfl⟩
  have htouches : ∀ row ∈ coverage, touches row = true ↔
      (start : Int) ≤ row.rangeEnd + 1 ∧ row.rangeStart ≤ (stop : Int) + 1 := by
    intro row hrow
    obtain ⟨hlow, hordered, -⟩ := h.bounds row hrow
    rw [htouchesEq, touchesCoverage_iff]
    omega
  have hsub : ∀ row ∈ coverage.filter touches, row ∈ coverage :=
    fun row hrow => List.mem_of_mem_filter hrow
  obtain ⟨hfirst, hfirstAll, hnonneg, -⟩ := h.mergedStart_spec hsub (by omega : start < _)
  obtain ⟨hlast, hlastAll, hbelow, -⟩ := h.mergedEnd_spec hsub hstop
  have hkept := h.far_of_merged hle hstop htouches
  have hok : recordCoverageTx coverage start stop =
      .ok (coverage.filter (fun row => !touches row) ++
        [⟨asI64 (mergedStart (coverage.filter touches) start),
          asI64 (mergedEnd (coverage.filter touches) stop)⟩]) := by
    unfold recordCoverageTx insertCoverage
    rw [if_neg (not_lt.mpr hle), hsucc, ← htouchesEq]
    dsimp only
    rw [if_neg (by omega), if_neg]
    intro hany
    obtain ⟨row, hrow, hsame⟩ := List.any_eq_true.mp hany
    have hsame := beq_iff_eq.mp hsame
    have hordered := (h.bounds row (List.mem_of_mem_filter hrow)).2.1
    have hfar := hkept row hrow
    omega
  refine ⟨_, hok, (h.filter _).append ⟨hnonneg, (hfirst.trans (by omega)).trans hlast, hbelow⟩ hkept,
    fun column => ⟨fun hcolumn => ?_, ?_⟩, ?_⟩
  · obtain ⟨-, hrecorded⟩ := recordCoverageTx_sub hok h.inColumns (by unfold u64Max; omega)
    rw [← hcasts.1, ← hcasts.2]
    exact (hrecorded column hcolumn).imp_right And.right
  · intro hcolumn
    rw [isCovered_append, isCovered_singleton]
    rcases hcolumn with ⟨row, hrow, hlow, hhigh⟩ | ⟨hlow, hhigh⟩
    · cases hmeets : touches row with
      | false =>
        left
        exact ⟨row, List.mem_filter.mpr ⟨hrow, by rw [hmeets]; rfl⟩, hlow, hhigh⟩
      | true =>
        right
        have hmem := List.mem_filter.mpr ⟨hrow, hmeets⟩
        exact ⟨(hfirstAll row hmem).trans hlow, hhigh.trans (hlastAll row hmem)⟩
    · exact Or.inr ⟨hfirst.trans hlow, hhigh.trans hlast⟩
  · intro row hrow hfar
    refine List.mem_append_left _ (List.mem_filter.mpr ⟨hrow, ?_⟩)
    have hnot : ¬ touches row = true := by
      rw [htouches row hrow]
      omega
    simpa using hnot

theorem CoverageApart.recordIf (c : Prop) [Decidable c] {start stop : Nat} (hle : c → start ≤ stop)
    (hstop : c → stop < 9223372036854775807) :
    ∃ after, recordCoverageIf c coverage start stop = .ok after ∧ CoverageApart after ∧
      (∀ column, IsCovered after column ↔
        IsCovered coverage column ∨ c ∧ (start : Int) ≤ column ∧ column ≤ stop) ∧
      ∀ row ∈ coverage, row.rangeEnd + 1 < start ∨ (stop : Int) + 1 < row.rangeStart →
        row ∈ after := by
  unfold recordCoverageIf
  by_cases hc : c
  · rw [if_pos hc]
    obtain ⟨after, hok, hafter, hcovers, hkeeps⟩ := h.record (hle hc) (hstop hc)
    refine ⟨after, hok, hafter, fun column => ?_, hkeeps⟩
    rw [hcovers, and_iff_right hc]
  · rw [if_neg hc]
    refine ⟨coverage, rfl, h, fun column => ?_, fun row hrow _ => hrow⟩
    simp [hc]

/-- Without one of the intervals, only what it covers is uncovered. -/
theorem CoverageApart.isCovered_without {row : CoverageRow} (hrow : row ∈ coverage)
    (column : Int) :
    IsCovered (coverage.filter fun other => other.rangeStart != row.rangeStart) column ↔
      IsCovered coverage column ∧ ¬ (row.rangeStart ≤ column ∧ column ≤ row.rangeEnd) := by
  constructor
  · rintro ⟨other, hother, hlow, hhigh⟩
    obtain ⟨hmem, hne⟩ := List.mem_filter.mp hother
    refine ⟨⟨other, hmem, hlow, hhigh⟩, ?_⟩
    have hdiffer : row ≠ other := by
      rintro rfl
      simp at hne
    have hapart := h.apart row hrow other hmem hdiffer
    omega
  · rintro ⟨⟨other, hmem, hlow, hhigh⟩, hnot⟩
    refine ⟨other, List.mem_filter.mpr ⟨hmem, ?_⟩, hlow, hhigh⟩
    rw [bne_iff_ne]
    intro hsame
    by_cases hdiffer : row = other
    · subst hdiffer
      exact hnot ⟨hlow, hhigh⟩
    · have hapart := h.apart row hrow other hmem hdiffer
      have hordered := (h.bounds row hrow).2.1
      have hordered' := (h.bounds other hmem).2.1
      omega

omit h in
/-- **Removing is exact**, range by range: what is left of the cut stretch is what the ranges still
to do cover of it. -/
theorem CoverageApart.removeRanges {start stop : Nat}
    (hstop : stop < 9223372036854775807) {before : List CoverageRow} {ranges : List CoverageRow}
    (hnodup : ranges.Nodup) {coverage : List CoverageRow} (h : CoverageApart coverage)
    (hranges : ∀ row ∈ ranges, row ∈ coverage ∧ row.rangeStart ≤ stop ∧
      (start : Int) ≤ row.rangeEnd)
    (hcovers : ∀ column, IsCovered coverage column ↔ IsCovered before column ∧
      (((start : Int) ≤ column ∧ column ≤ stop) → IsCovered ranges column)) :
    ∃ after, StashiWallet.removeRanges start stop ranges coverage = .ok after ∧
      CoverageApart after ∧ ∀ column, IsCovered after column ↔
        IsCovered before column ∧ ¬ ((start : Int) ≤ column ∧ column ≤ stop) := by
  induction ranges generalizing coverage with
  | nil =>
    refine ⟨coverage, rfl, h, fun column => (hcovers column).trans ?_⟩
    exact and_congr_right fun _ =>
      ⟨fun hnone hin => not_isCovered_nil column (hnone hin), fun hnot hin => absurd hin hnot⟩
  | cons row ranges ih =>
    obtain ⟨⟨hrow, hbegins, hends⟩, hranges⟩ := List.forall_mem_cons.mp hranges
    obtain ⟨hnotMem, hnodup⟩ := List.nodup_cons.mp hnodup
    obtain ⟨hlow, hordered, hhigh⟩ := h.bounds row hrow
    have hsucc : saturatingAdd stop 1 = stop + 1 := by
      unfold saturatingAdd u64Max
      omega
    have hothers : ∀ other ∈ ranges,
        row.rangeEnd + 1 < other.rangeStart ∨ other.rangeEnd + 1 < row.rangeStart := by
      intro other hother
      refine h.apart row hrow other (hranges other hother).1 ?_
      rintro rfl
      exact hnotMem hother
    obtain ⟨left, hleft, hleftApart, hleftCovers, hleftKeeps⟩ :=
      @CoverageApart.recordIf _ (h.filter fun other => other.rangeStart != row.rangeStart)
        (row.rangeStart.toNat < start) _ row.rangeStart.toNat (start - 1)
        (fun hcut => by omega) (fun hcut => by omega)
    obtain ⟨right, hright, hrightApart, hrightCovers, hrightKeeps⟩ :=
      @CoverageApart.recordIf _ hleftApart (stop < row.rangeEnd.toNat) _ (saturatingAdd stop 1)
        row.rangeEnd.toNat (fun hcut => by omega) (fun hcut => by omega)
    have hrest : ∀ other ∈ ranges, other ∈ right ∧ other.rangeStart ≤ stop ∧
        (start : Int) ≤ other.rangeEnd := by
      intro other hother
      obtain ⟨hmem, hotherBegins, hotherEnds⟩ := hranges other hother
      have hapart := hothers other hother
      have hotherOrdered := (h.bounds other hmem).2.1
      have hkept : other ∈
          coverage.filter (fun other => other.rangeStart != row.rangeStart) := by
        refine List.mem_filter.mpr ⟨hmem, bne_iff_ne.mpr ?_⟩
        omega
      refine ⟨hrightKeeps other (hleftKeeps other hkept ?_) ?_, hotherBegins, hotherEnds⟩
      · omega
      · omega
    -- inside the row only the two pieces are left, outside it nothing changes
    have hrestCovers : ∀ column, IsCovered right column ↔ IsCovered before column ∧
        (((start : Int) ≤ column ∧ column ≤ stop) → IsCovered ranges column) := by
      intro column
      rw [hrightCovers, hleftCovers, h.isCovered_without hrow, hsucc]
      by_cases hin : row.rangeStart ≤ column ∧ column ≤ row.rangeEnd
      · have hbefore : IsCovered before column := ((hcovers column).mp ⟨row, hrow, hin⟩).1
        have hnone : ¬ IsCovered ranges column := by
          rintro ⟨other, hother, hbetween⟩
          have hapart := hothers other hother
          omega
        constructor
        · rintro ((⟨-, hnot⟩ | hleftPiece) | hrightPiece)
          · exact absurd hin hnot
          · exact ⟨hbefore, fun hcut => by omega⟩
          · exact ⟨hbefore, fun hcut => by omega⟩
        · rintro ⟨-, hcut⟩
          have hout : ¬ ((start : Int) ≤ column ∧ column ≤ stop) := fun h => hnone (hcut h)
          rcases Int.lt_or_le column start with hbefore' | hafter'
          · exact Or.inl (Or.inr (by omega))
          · exact Or.inr (by omega)
      · have hsame : IsCovered (row :: ranges) column ↔ IsCovered ranges column := by
          rw [IsCovered, List.exists_mem_cons_iff]
          exact or_iff_right hin
        rw [hcovers, hsame]
        constructor
        · rintro ((⟨hcolumn, -⟩ | hleftPiece) | hrightPiece)
          · exact hcolumn
          · exact absurd (by omega) hin
          · exact absurd (by omega) hin
        · exact fun hcolumn => Or.inl (Or.inl ⟨hcolumn, hin⟩)
    obtain ⟨after, hafter, hafterApart, hafterCovers⟩ :=
      ih hnodup hrightApart hrest hrestCovers
    refine ⟨after, ?_, hafterApart, hafterCovers⟩
    unfold StashiWallet.removeRanges heightOfColumn
    rw [if_pos hlow, if_pos (hlow.trans hordered)]
    show (recordCoverageIf (row.rangeStart.toNat < start) _ _ _ >>= _) = _
    rw [hleft]
    show (recordCoverageIf (stop < row.rangeEnd.toNat) _ _ _ >>= _) = _
    rw [hright]
    exact hafter

/-- `remove_coverage_tx` uncovers the stretch and nothing else. -/
theorem CoverageApart.remove {start stop : Nat} (hle : start ≤ stop)
    (hstop : stop < 9223372036854775807) :
    ∃ after, removeCoverageTx coverage start stop = .ok after ∧ CoverageApart after ∧
      ∀ column, IsCovered after column ↔
        IsCovered coverage column ∧ ¬ ((start : Int) ≤ column ∧ column ≤ stop) := by
  have hcastStart := asI64_cases start
  have hcastStop := asI64_cases stop
  have hmeets : ∀ row : CoverageRow, (decide (row.rangeStart ≤ asI64 stop) &&
      decide (asI64 start ≤ row.rangeEnd)) = true ↔
        row.rangeStart ≤ stop ∧ (start : Int) ≤ row.rangeEnd := by
    intro row
    rw [Bool.and_eq_true, decide_eq_true_eq, decide_eq_true_eq]
    omega
  refine CoverageApart.removeRanges hstop (h.nodup.filter _) h (fun row hrow => ?_)
    (fun column => ⟨fun hcolumn => ⟨hcolumn, fun hin => ?_⟩, And.left⟩)
  · obtain ⟨hmem, hrowMeets⟩ := List.mem_filter.mp hrow
    exact ⟨hmem, (hmeets row).mp hrowMeets⟩
  · obtain ⟨row, hrow, hlow, hhigh⟩ := hcolumn
    exact ⟨row, List.mem_filter.mpr ⟨hrow, (hmeets row).mpr (by omega)⟩, hlow, hhigh⟩

omit h in
/-- Recording the runs of an increasing list covers its heights. -/
theorem CoverageApart.recordRuns {heights : List Nat} {rangeStart rangeEnd : Nat}
    (hle : rangeStart ≤ rangeEnd) (hfits : rangeEnd < 9223372036854775807)
    (hheights : ∀ height ∈ heights, height < 9223372036854775807)
    {coverage : List CoverageRow} (h : CoverageApart coverage) :
    ∃ after, StashiWallet.recordRuns rangeStart rangeEnd heights coverage = .ok after ∧
      CoverageApart after ∧ ∀ column, IsCovered after column ↔ IsCovered coverage column ∨
        ((rangeStart : Int) ≤ column ∧ column ≤ rangeEnd) ∨ ∃ height ∈ heights, column = height := by
  induction heights generalizing rangeStart rangeEnd coverage with
  | nil =>
    obtain ⟨after, hafter, hafterApart, hcovers, -⟩ := h.record hle hfits
    refine ⟨after, hafter, hafterApart, fun column => (hcovers column).trans ?_⟩
    simp
  | cons height heights ih =>
    obtain ⟨hheight, hheights⟩ := List.forall_mem_cons.mp hheights
    have hsucc : saturatingAdd rangeEnd 1 = rangeEnd + 1 := by
      unfold saturatingAdd u64Max
      omega
    unfold StashiWallet.recordRuns
    rw [hsucc]
    split
    · rename_i hnext
      obtain ⟨after, hafter, hafterApart, hcovers⟩ :=
        @ih rangeStart height (by omega) hheight hheights coverage h
      refine ⟨after, hafter, hafterApart, fun column => (hcovers column).trans ?_⟩
      rw [List.exists_mem_cons_iff]
      have hgrows : ((rangeStart : Int) ≤ column ∧ column ≤ height) ↔
          ((rangeStart : Int) ≤ column ∧ column ≤ rangeEnd) ∨ column = height := by
        omega
      rw [hgrows, or_assoc]
    · obtain ⟨recorded, hrecorded, hrecordedApart, hrecordedCovers, -⟩ := h.record hle hfits
      obtain ⟨after, hafter, hafterApart, hcovers⟩ :=
        @ih height height le_rfl hheight hheights recorded hrecordedApart
      refine ⟨after, ?_, hafterApart, fun column => (hcovers column).trans ?_⟩
      · rw [hrecorded]
        exact hafter
      · rw [List.exists_mem_cons_iff, hrecordedCovers, or_assoc]
        have hone : ((height : Int) ≤ column ∧ column ≤ height) ↔ column = height := by
          omega
        rw [hone]

end Apart

end StashiWallet
