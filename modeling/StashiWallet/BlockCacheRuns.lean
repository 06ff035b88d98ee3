import StashiWallet.BlockCoverage
import StashiWallet.Runs

/-!
# Any order of calls on the block cache

Every call is one transaction: a call that fails leaves the cache as it was. As long as all
rows come from `store_blocks`, the intervals cover exactly the rows, and the end that
`contiguous_end` reads from an interval is the end that the ordered scan of the rows finds.
-/

namespace StashiWallet

/-- The calls on a cache that write, and `contiguous_end`, which may write. -/
inductive BlockCacheCall where
  | storeBlocks (blocks : List CompactBlockData)
  | upgradeLegacyRows (blocks : List CompactBlockData) (legacyHeights : List Nat)
  | deleteRange (start stop : Nat)
  | deleteAbove (height : Nat)
  | contiguousEnd (start stop : Nat)
deriving DecidableEq, Repr

/-- The heights a call names. -/
def BlockCacheCall.heights : BlockCacheCall → List Nat
  | .storeBlocks blocks => blocks.map (·.height)
  | .upgradeLegacyRows blocks legacyHeights => blocks.map (·.height) ++ legacyHeights
  | .deleteRange start stop => [start, stop]
  | .deleteAbove height => [height]
  | .contiguousEnd start stop => [start, stop]

/-- The last height of the longest stretch of stored heights from `start`, `stop` at most. -/
def IsContiguousEnd (stored : Nat → Prop) (start stop : Nat) : Option Nat → Prop
  | some last => start ≤ last ∧ last ≤ stop ∧
      (∀ height, start ≤ height → height ≤ last → stored height) ∧
      (last = stop ∨ ¬ stored (last + 1))
  | none => stop < start ∨ ¬ stored start

theorem IsContiguousEnd.unique {stored : Nat → Prop} {start stop : Nat} {first second : Option Nat}
    (hfirst : IsContiguousEnd stored start stop first)
    (hsecond : IsContiguousEnd stored start stop second) : first = second := by
  cases first with
  | none =>
    cases second with
    | none => rfl
    | some last =>
      obtain ⟨hle, hstop, hall, -⟩ := hsecond
      rcases hfirst with hempty | hnot
      · omega
      · exact absurd (hall start le_rfl hle) hnot
  | some last =>
    obtain ⟨hle, hstop, hall, hend⟩ := hfirst
    cases second with
    | none =>
      rcases hsecond with hempty | hnot
      · omega
      · exact absurd (hall start le_rfl hle) hnot
    | some other =>
      obtain ⟨hle', hstop', hall', hend'⟩ := hsecond
      congr 1
      rcases Nat.lt_trichotomy last other with hlt | heq | hgt
      · rcases hend with hsame | hnot
        · omega
        · exact absurd (hall' (last + 1) (by omega) (by omega)) hnot
      · exact heq
      · rcases hend' with hsame | hnot
        · omega
        · exact absurd (hall (other + 1) (by omega) (by omega)) hnot

namespace BlockCache

section Codec

variable (encode : CompactBlockData → Except String Bytes)

def step (cache : BlockCache) : BlockCacheCall → BlockCache
  | .storeBlocks blocks => (storeBlocks encode cache blocks).toOption.getD cache
  | .upgradeLegacyRows blocks legacyHeights =>
    ((upgradeLegacyRows encode cache blocks legacyHeights).map (·.2)).toOption.getD cache
  | .deleteRange start stop => ((cache.deleteRange start stop).map (·.2)).toOption.getD cache
  | .deleteAbove height => (cache.deleteAbove height).2
  | .contiguousEnd start stop => ((cache.contiguousEnd start stop).map (·.2)).toOption.getD cache

end Codec

def Stored (cache : BlockCache) (column : Int) : Prop := ∃ row ∈ cache.blocks, row.height = column

/-- Heights are keys, and the intervals cover the rows and nothing else. -/
structure Exact (cache : BlockCache) : Prop where
  keys : (cache.blocks.map (·.height)).Nodup
  apart : CoverageApart cache.coverage
  covered : ∀ column, IsCovered cache.coverage column ↔ cache.Stored column

theorem exact_empty : Exact ⟨[], []⟩ where
  keys := List.nodup_nil
  apart := coverageApart_nil
  covered column := by
    simp [IsCovered, Stored]

/-- An `INSERT OR REPLACE` keeps the key and adds the height. -/
theorem upsertRow_spec {rows : List CachedBlockRow} (row : CachedBlockRow)
    (hkeys : (rows.map (·.height)).Nodup) :
    ((upsertRow rows row).map (·.height)).Nodup ∧
      ∀ column, column ∈ (upsertRow rows row).map (·.height) ↔
        column ∈ rows.map (·.height) ∨ column = row.height := by
  have hmap : (upsertRow rows row).map (·.height) =
      (rows.map (·.height)).filter (fun height => height != row.height) ++ [row.height] := by
    unfold upsertRow
    rw [List.map_append, List.filter_map]
    rfl
  rw [hmap]
  refine ⟨(hkeys.filter _).append (List.nodup_singleton _) (fun height hold hnew => ?_),
    fun column => ?_⟩
  · rw [List.mem_singleton.mp hnew] at hold
    simp at hold
  · rw [List.mem_append, List.mem_filter, List.mem_singleton, bne_iff_ne]
    by_cases hsame : column = row.height
    · simp [hsame]
    · simp [hsame]

section Codec

variable {encode : CompactBlockData → Except String Bytes}

variable {blocks : List CompactBlockData}

theorem storeRows_spec {rows after : List CachedBlockRow}
    (h : storeRows encode blocks rows = .ok after) (hkeys : (rows.map (·.height)).Nodup) :
    (after.map (·.height)).Nodup ∧ ∀ column, column ∈ after.map (·.height) ↔
      column ∈ rows.map (·.height) ∨ ∃ block ∈ blocks, column = asI64 block.height := by
  induction blocks generalizing rows with
  | nil =>
    obtain rfl := Except.ok.inj h
    exact ⟨hkeys, fun column => by simp⟩
  | cons block blocks ih =>
    obtain ⟨encoded, -, h⟩ := bind_eq_ok h
    obtain ⟨hupsert, hmem⟩ := upsertRow_spec ⟨asI64 block.height, encoded⟩ hkeys
    obtain ⟨hafter, hheights⟩ := ih h hupsert
    refine ⟨hafter, fun column => ?_⟩
    rw [hheights, hmem, List.exists_mem_cons_iff, or_assoc]

theorem mem_storedHeights {blocks : List CompactBlockData} {height : Nat} :
    height ∈ storedHeights blocks ↔ ∃ block ∈ blocks, block.height = height := by
  unfold storedHeights
  rw [List.mem_dedup, List.mem_insertionSort, List.mem_map]

/-- A call of `store_blocks` that commits. -/
theorem storeBlocks_eq_ok {cache after : BlockCache}
    (h : storeBlocks encode cache blocks = .ok after) :
    blocks = [] ∧ after = cache ∨
      ∃ height heights, storedHeights blocks = height :: heights ∧
        storeRows encode blocks cache.blocks = .ok after.blocks ∧
        recordRuns height height heights cache.coverage = .ok after.coverage := by
  unfold storeBlocks at h
  cases blocks with
  | nil => exact Or.inl ⟨rfl, (Except.ok.inj h).symm⟩
  | cons block blocks =>
    right
    obtain ⟨rows, hrows, h⟩ := bind_eq_ok h
    dsimp only at h
    split at h
    · rename_i hnone
      have hmem := (@mem_storedHeights (block :: blocks) block.height).mpr
        ⟨block, List.mem_cons_self, rfl⟩
      rw [hnone] at hmem
      exact absurd hmem List.not_mem_nil
    · rename_i height heights hsome
      obtain ⟨coverage, hcoverage, h⟩ := bind_eq_ok h
      obtain rfl := Except.ok.inj h
      exact ⟨height, heights, hsome, hrows, hcoverage⟩

theorem Exact.storeBlocks {cache after : BlockCache} (hcache : cache.Exact)
    (hheights : ∀ block ∈ blocks, block.height < 9223372036854775807)
    (h : storeBlocks encode cache blocks = .ok after) : after.Exact := by
  rcases storeBlocks_eq_ok h with ⟨-, rfl⟩ | ⟨height, heights, hsorted, hrows, hcoverage⟩
  · exact hcache
  · obtain ⟨hkeys, hmem⟩ := storeRows_spec hrows hcache.keys
    have hbelow : ∀ other ∈ height :: heights, other < 9223372036854775807 := by
      intro other hother
      rw [← hsorted] at hother
      obtain ⟨block, hblock, rfl⟩ := mem_storedHeights.mp hother
      exact hheights block hblock
    obtain ⟨hheight, hrest⟩ := List.forall_mem_cons.mp hbelow
    obtain ⟨coverage, hok, hapart, hcovers⟩ :=
      CoverageApart.recordRuns le_rfl hheight hrest hcache.apart
    obtain rfl : coverage = after.coverage := Except.ok.inj (hok.symm.trans hcoverage)
    refine ⟨hkeys, hapart, fun column => ?_⟩
    have hstored : after.Stored column ↔ column ∈ after.blocks.map (·.height) := by
      rw [List.mem_map, Stored]
    have hstored' : cache.Stored column ↔ column ∈ cache.blocks.map (·.height) := by
      rw [List.mem_map, Stored]
    have hnew : (((height : Int) ≤ column ∧ column ≤ height) ∨ ∃ other ∈ heights,
        column = other) ↔ ∃ block ∈ blocks, column = asI64 block.height := by
      constructor
      · intro hcolumn
        have hlisted : ∃ other ∈ height :: heights, column = (other : Int) := by
          rcases hcolumn with hone | ⟨other, hother, hcast⟩
          · exact ⟨height, List.mem_cons_self, by omega⟩
          · exact ⟨other, List.mem_cons_of_mem _ hother, hcast⟩
        obtain ⟨other, hother, hcast⟩ := hlisted
        have hcasts := asI64_cases other
        have hfits := hbelow other hother
        rw [← hsorted] at hother
        obtain ⟨block, hblock, rfl⟩ := mem_storedHeights.mp hother
        exact ⟨block, hblock, by omega⟩
      · rintro ⟨block, hblock, hcast⟩
        have hcasts := asI64_cases block.height
        have hfits := hheights block hblock
        have hlisted : block.height ∈ height :: heights := by
          rw [← hsorted]
          exact mem_storedHeights.mpr ⟨block, hblock, rfl⟩
        rcases List.mem_cons.mp hlisted with hone | hother
        · exact Or.inl (by omega)
        · exact Or.inr ⟨block.height, hother, by omega⟩
    rw [hcovers, hcache.covered, hstored, hstored', hmem, hnew]

/-- The upgrade rewrites data only. -/
theorem upgradeRows_heights {legacyHeights : List Nat} {done after : List CachedBlockRow × Nat}
    (h : upgradeRows encode legacyHeights blocks done = .ok after) :
    after.1.map (·.height) = done.1.map (·.height) := by
  induction blocks generalizing done with
  | nil =>
    obtain rfl := Except.ok.inj h
    rfl
  | cons block blocks ih =>
    unfold upgradeRows at h
    split at h
    · exact ih h
    · obtain ⟨encoded, -, h⟩ := bind_eq_ok h
      rw [ih h]
      unfold upgradeRow
      rw [List.map_map]
      refine List.map_congr_left fun row _ => ?_
      dsimp only [Function.comp_apply]
      split
      · rfl
      · rfl

theorem upgradeLegacyRows_eq_ok {cache after : BlockCache} {legacyHeights : List Nat} {count : Nat}
    (h : upgradeLegacyRows encode cache blocks legacyHeights = .ok (count, after)) :
    after.coverage = cache.coverage ∧
      after.blocks.map (·.height) = cache.blocks.map (·.height) := by
  unfold upgradeLegacyRows at h
  split at h
  · obtain ⟨-, rfl⟩ := Prod.mk.inj (Except.ok.inj h)
    exact ⟨rfl, rfl⟩
  · obtain ⟨upgraded, hupgraded, h⟩ := bind_eq_ok h
    obtain ⟨-, rfl⟩ := Prod.mk.inj (Except.ok.inj h)
    exact ⟨rfl, upgradeRows_heights hupgraded⟩

end Codec

variable {cache after : BlockCache}

theorem Exact.of_same_heights (h : cache.Exact) (hcoverage : after.coverage = cache.coverage)
    (hheights : after.blocks.map (·.height) = cache.blocks.map (·.height)) : after.Exact := by
  refine ⟨by rw [hheights]; exact h.keys, by rw [hcoverage]; exact h.apart, fun column => ?_⟩
  rw [hcoverage, h.covered, Stored, Stored, ← List.mem_map, ← List.mem_map, hheights]

/-- A call of `delete_range` that commits. -/
theorem deleteRange_eq_ok {start stop count : Nat}
    (h : cache.deleteRange start stop = .ok (count, after)) :
    stop < start ∧ after = cache ∨
      start ≤ stop ∧ removeCoverageTx cache.coverage start stop = .ok after.coverage ∧
        after.blocks = cache.blocks.filter fun row =>
          !(decide (asI64 start ≤ row.height) && decide (row.height ≤ asI64 stop)) := by
  unfold deleteRange at h
  split at h
  · obtain ⟨-, rfl⟩ := Prod.mk.inj (Except.ok.inj h)
    exact Or.inl ⟨‹_›, rfl⟩
  · rename_i hrange
    obtain ⟨coverage, hcoverage, h⟩ := bind_eq_ok h
    obtain ⟨-, rfl⟩ := Prod.mk.inj (Except.ok.inj h)
    exact Or.inr ⟨not_lt.mp hrange, hcoverage, rfl⟩

theorem stored_filter {p : CachedBlockRow → Bool} (kept : Int → Prop)
    (hblocks : after.blocks = cache.blocks.filter p)
    (hp : ∀ row : CachedBlockRow, p row = true ↔ kept row.height) (column : Int) :
    after.Stored column ↔ cache.Stored column ∧ kept column := by
  unfold Stored
  rw [hblocks]
  constructor
  · rintro ⟨row, hrow, rfl⟩
    obtain ⟨hmem, hkept⟩ := List.mem_filter.mp hrow
    exact ⟨⟨row, hmem, rfl⟩, (hp row).mp hkept⟩
  · rintro ⟨⟨row, hmem, rfl⟩, hkept⟩
    exact ⟨row, List.mem_filter.mpr ⟨hmem, (hp row).mpr hkept⟩, rfl⟩

theorem nodup_filter_heights {rows : List CachedBlockRow} (p : CachedBlockRow → Bool)
    (hkeys : (rows.map (·.height)).Nodup) : ((rows.filter p).map (·.height)).Nodup :=
  hkeys.sublist (List.filter_sublist.map _)

theorem Exact.deleteRange (hcache : cache.Exact) {start stop count : Nat}
    (hstart : start < 9223372036854775807) (hstop : stop < 9223372036854775807)
    (h : cache.deleteRange start stop = .ok (count, after)) : after.Exact := by
  rcases deleteRange_eq_ok h with ⟨-, rfl⟩ | ⟨hle, hcoverage, hblocks⟩
  · exact hcache
  · obtain ⟨coverage, hok, hapart, hcovers⟩ := hcache.apart.remove hle hstop
    obtain rfl : coverage = after.coverage := Except.ok.inj (hok.symm.trans hcoverage)
    refine ⟨by rw [hblocks]; exact nodup_filter_heights _ hcache.keys, hapart, fun column => ?_⟩
    have hcastStart := asI64_cases start
    have hcastStop := asI64_cases stop
    rw [hcovers, hcache.covered]
    refine (stored_filter (fun column => ¬ ((start : Int) ≤ column ∧ column ≤ stop)) hblocks
      (fun row => ?_) column).symm
    rw [Bool.not_eq_true', ← Bool.not_eq_true, Bool.and_eq_true, decide_eq_true_eq,
      decide_eq_true_eq]
    omega

/-- What `delete_above` leaves of an interval. -/
theorem mem_deleteAbove_coverage {cache : BlockCache} {height : Nat} {row : CoverageRow} :
    row ∈ (cache.deleteAbove height).2.coverage ↔
      ∃ old ∈ cache.coverage, old.rangeStart ≤ asI64 height ∧ row.rangeStart = old.rangeStart ∧
        row.rangeEnd = if asI64 height < old.rangeEnd then asI64 height else old.rangeEnd := by
  unfold deleteAbove
  constructor
  · intro hrow
    obtain ⟨old, hold, rfl⟩ := List.mem_map.mp hrow
    obtain ⟨hmem, hkept⟩ := List.mem_filter.mp hold
    have hbelow : old.rangeStart ≤ asI64 height := by simpa using hkept
    refine ⟨old, hmem, hbelow, ?_⟩
    simp only [hbelow, true_and]
    split
    · exact ⟨rfl, rfl⟩
    · exact ⟨rfl, rfl⟩
  · rintro ⟨old, hmem, hbelow, hstart, hend⟩
    refine List.mem_map.mpr ⟨old, List.mem_filter.mpr ⟨hmem, by simpa using hbelow⟩, ?_⟩
    simp only [hbelow, true_and]
    cases row with
    | mk rangeStart rangeEnd =>
      dsimp only at hstart hend
      subst hstart hend
      split
      · rfl
      · rfl

theorem Exact.deleteAbove {cache : BlockCache} (hcache : cache.Exact) {height : Nat}
    (hheight : height < 9223372036854775807) : (cache.deleteAbove height).2.Exact := by
  have hcast := asI64_cases height
  have hcast : asI64 height = height := by omega
  have hbounds : ∀ row ∈ (cache.deleteAbove height).2.coverage,
      ∃ old ∈ cache.coverage, old.rangeStart ≤ height ∧ row.rangeStart = old.rangeStart ∧
        row.rangeEnd = min (height : Int) old.rangeEnd := by
    intro row hrow
    obtain ⟨old, hold, hbelow, hstart, hend⟩ := mem_deleteAbove_coverage.mp hrow
    rw [hcast] at hbelow hend
    refine ⟨old, hold, hbelow, hstart, hend.trans ?_⟩
    split
    · omega
    · omega
  refine ⟨nodup_filter_heights _ hcache.keys, ⟨?_, ?_, ?_⟩, fun column => ?_⟩
  · refine (hcache.apart.nodup.filter _).map_on fun row hrow other hother hsame => ?_
    have hbegin := congrArg CoverageRow.rangeStart hsame
    have hstarts : row.rangeStart = other.rangeStart := by
      split at hbegin
      · split at hbegin
        · exact hbegin
        · exact hbegin
      · split at hbegin
        · exact hbegin
        · exact hbegin
    by_contra hdiffer
    have hmem := List.mem_of_mem_filter hrow
    have hmem' := List.mem_of_mem_filter hother
    have hordered := (hcache.apart.bounds row hmem).2.1
    have hordered' := (hcache.apart.bounds other hmem').2.1
    have hapart := hcache.apart.apart row hmem other hmem' hdiffer
    omega
  · intro row hrow
    obtain ⟨old, hold, hbelow, hstart, hend⟩ := hbounds row hrow
    have hold' := hcache.apart.bounds old hold
    omega
  · intro row hrow other hother hdiffer
    obtain ⟨old, hold, hbelow, hstart, hend⟩ := hbounds row hrow
    obtain ⟨old', hold', hbelow', hstart', hend'⟩ := hbounds other hother
    have holds : old ≠ old' := by
      rintro rfl
      refine hdiffer ?_
      cases row
      cases other
      simp_all
    have hapart := hcache.apart.apart old hold old' hold' holds
    omega
  · have hkept : ∀ row : CachedBlockRow,
        (!decide (asI64 height < row.height)) = true ↔ row.height ≤ height := by
      intro row
      rw [hcast]
      simp
    rw [stored_filter (fun column => column ≤ height) rfl hkept, ← hcache.covered]
    constructor
    · rintro ⟨row, hrow, hlow, hhigh⟩
      obtain ⟨old, hold, hbelow, hstart, hend⟩ := hbounds row hrow
      exact ⟨⟨old, hold, by omega, by omega⟩, by omega⟩
    · rintro ⟨⟨old, hold, hlow, hhigh⟩, hbelow⟩
      refine ⟨⟨old.rangeStart, if asI64 height < old.rangeEnd then asI64 height else old.rangeEnd⟩,
        mem_deleteAbove_coverage.mpr
        ⟨old, hold, by omega, rfl, rfl⟩, hlow, ?_⟩
      dsimp only
      rw [hcast]
      split
      · exact hbelow
      · exact hhigh

/-! ## The contiguous end -/

/-- The scan of increasing heights stops after the last one without a gap. -/
theorem scanHeights_spec {stop expected : Nat} (hstop : stop < 9223372036854775807)
    (hle : expected ≤ stop) {columns : List Int} (hsorted : columns.Pairwise (· < ·))
    (hbounds : ∀ column ∈ columns, (expected : Int) ≤ column ∧ column ≤ stop) :
    ∃ found, scanHeights stop expected columns = .ok found ∧ expected ≤ found ∧
      found ≤ stop + 1 ∧ (∀ height : Nat, expected ≤ height → height < found →
        (height : Int) ∈ columns) ∧ (found = stop + 1 ∨ (found : Int) ∉ columns) := by
  induction columns generalizing expected with
  | nil =>
    exact ⟨expected, rfl, le_rfl, by omega, fun height hlow hhigh => by omega,
      Or.inr List.not_mem_nil⟩
  | cons column columns ih =>
    obtain ⟨⟨hlow, hhigh⟩, hbounds⟩ := List.forall_mem_cons.mp hbounds
    obtain ⟨hfirst, hsorted⟩ := List.pairwise_cons.mp hsorted
    have hheight : heightOfColumn "Negative block-cache height" column = .ok column.toNat :=
      if_pos (by omega)
    unfold scanHeights
    rw [hheight]
    by_cases hgap : column.toNat = expected
    · have hcolumn : column = expected := by omega
      by_cases hlast : column.toNat = stop
      · refine ⟨stop + 1, ?_, by omega, le_rfl, fun height hheight hheight' => ?_, Or.inl rfl⟩
        · show (if column.toNat ≠ expected then _ else if column.toNat = stop then _ else _) = _
          rw [if_neg (not_not.mpr hgap), if_pos hlast, saturatingAdd, u64Max]
          congr 1
          omega
        · have hsame : (height : Int) = column := by omega
          rw [hsame]
          exact List.mem_cons_self
      · have hnext : saturatingAdd expected 1 = expected + 1 := by
          unfold saturatingAdd u64Max
          omega
        have hrest : ∀ other ∈ columns,
            ((expected + 1 : Nat) : Int) ≤ other ∧ other ≤ stop := by
          intro other hother
          have hbeyond := hfirst other hother
          have hbelow := (hbounds other hother).2
          omega
        obtain ⟨found, hfound, hmin, hmax, hall, hend⟩ :=
          @ih (expected + 1) (by omega) hsorted hrest
        refine ⟨found, ?_, by omega, hmax, fun height hheight hheight' => ?_, ?_⟩
        · show (if column.toNat ≠ expected then _ else if column.toNat = stop then _ else _) = _
          rw [if_neg (not_not.mpr hgap), if_neg hlast, hnext]
          exact hfound
        · rcases Nat.eq_or_lt_of_le hheight with hsame | hbeyond
          · rw [← hsame, ← hcolumn]
            exact List.mem_cons_self
          · exact List.mem_cons_of_mem _ (hall height hbeyond hheight')
        · refine hend.imp_right fun hnot hmem => ?_
          rcases List.mem_cons.mp hmem with hsame | htail
          · omega
          · exact hnot htail
    · refine ⟨expected, ?_, le_rfl, by omega, fun height hheight hheight' => by omega, ?_⟩
      · show (if column.toNat ≠ expected then _ else _) = _
        rw [if_pos hgap]
      · right
        intro hmem
        rcases List.mem_cons.mp hmem with hsame | htail
        · omega
        · have hbeyond := hfirst _ htail
          omega

/-- The heights that the scan orders. -/
theorem scanned_heights {cache : BlockCache} (hkeys : (cache.blocks.map (·.height)).Nodup)
    {start stop : Nat} (hstart : start < 9223372036854775807)
    (hstop : stop < 9223372036854775807) {heights : List Int}
    (hheights : heights = ((cache.blocks.map (·.height)).filter fun height =>
      decide (asI64 start ≤ height) && decide (height ≤ asI64 stop)).insertionSort (· ≤ ·)) :
    heights.Pairwise (· < ·) ∧ ∀ column : Int, column ∈ heights ↔
      cache.Stored column ∧ (start : Int) ≤ column ∧ column ≤ stop := by
  have hcastStart := asI64_cases start
  have hcastStop := asI64_cases stop
  constructor
  · have hle : heights.Pairwise (· ≤ ·) := by
      rw [hheights]
      exact List.pairwise_insertionSort _ _
    have hne : heights.Nodup := by
      rw [hheights]
      exact (List.perm_insertionSort _ _).nodup_iff.mpr (hkeys.filter _)
    exact (hle.and hne).imp fun hpair => lt_of_le_of_ne hpair.1 hpair.2
  · intro column
    rw [hheights, List.mem_insertionSort, List.mem_filter, List.mem_map, Stored, Bool.and_eq_true,
      decide_eq_true_eq, decide_eq_true_eq]
    refine and_congr_right fun _ => ?_
    omega

/-- **The ordered scan.** Without intervals the end comes from the rows. -/
theorem contiguousEnd_scan {cache : BlockCache} (hkeys : (cache.blocks.map (·.height)).Nodup)
    (hnone : cache.coverage = []) {start stop : Nat} (hstart : start < 9223372036854775807)
    (hstop : stop < 9223372036854775807) :
    ∃ found after, cache.contiguousEnd start stop = .ok (found, after) ∧
      IsContiguousEnd (fun height => cache.Stored height) start stop found := by
  unfold contiguousEnd coverageEnd hasRecordedCoverage
  rw [hnone]
  split
  · exact ⟨none, cache, rfl, Or.inl ‹_›⟩
  · rename_i hrange
    obtain ⟨heights, hheights⟩ : ∃ heights, heights =
        ((cache.blocks.map (·.height)).filter fun height =>
          decide (asI64 start ≤ height) && decide (height ≤ asI64 stop)).insertionSort (· ≤ ·) :=
      ⟨_, rfl⟩
    obtain ⟨hsorted, hmem⟩ := scanned_heights hkeys hstart hstop hheights
    obtain ⟨found, hfound, hmin, hmax, hall, hend⟩ := scanHeights_spec hstop
      (not_lt.mp hrange) hsorted (fun column hcolumn => ((hmem column).mp hcolumn).2)
    show ∃ result after, (scanHeights stop start _ >>= fun expected => _) = _ ∧ _
    rw [← hheights, hfound]
    show ∃ result after, (if start < found then _ else _) = _ ∧ _
    split
    · rename_i hsome
      obtain ⟨coverage, hcoverage, -, -, -⟩ := @CoverageApart.record [] coverageApart_nil
        start (found - 1) (by omega) (by omega)
      refine ⟨some (found - 1), { cache with coverage := coverage }, ?_, by omega, by omega,
        fun height hlow hhigh => ?_, ?_⟩
      · rw [hcoverage]
        rfl
      · exact ((hmem height).mp (hall height hlow (by omega))).1
      · rcases hend with hstopped | hnot
        · exact Or.inl (by omega)
        · rcases Nat.lt_or_ge stop found with hbeyond | hwithin
          · exact Or.inl (by omega)
          · right
            intro hstored
            have hsame : found - 1 + 1 = found := by omega
            rw [hsame] at hstored
            exact hnot ((hmem found).mpr ⟨hstored, by omega, by omega⟩)
    · rename_i hnothing
      refine ⟨none, cache, rfl, Or.inr fun hstored => ?_⟩
      have hsame : found = start := by omega
      subst hsame
      rcases hend with hstopped | hnot
      · omega
      · exact hnot ((hmem found).mpr ⟨hstored, le_rfl, by omega⟩)

/-- The interval around a height. -/
theorem coverageEnd_spec (cache : BlockCache) {start : Nat}
    (hstart : start < 9223372036854775807) :
    (cache.coverageEnd start = .ok none ∧ ¬ IsCovered cache.coverage start) ∨
      ∃ row ∈ cache.coverage, row.rangeStart ≤ start ∧ (start : Int) ≤ row.rangeEnd ∧
        cache.coverageEnd start = .ok (some row.rangeEnd.toNat) := by
  have hcast := asI64_cases start
  have hcast : asI64 start = start := by omega
  unfold coverageEnd
  rw [hcast]
  split
  · rename_i row hlatest
    right
    obtain ⟨hmem, haround⟩ := List.mem_filter.mp
      ((List.mem_insertionSort _).mp (List.mem_of_head? hlatest))
    rw [Bool.and_eq_true, decide_eq_true_eq, decide_eq_true_eq] at haround
    obtain ⟨hlow, hhigh⟩ := haround
    refine ⟨row, hmem, hlow, hhigh, ?_⟩
    have hend : heightOfColumn "Negative block-cache coverage height" row.rangeEnd =
        .ok row.rangeEnd.toNat := if_pos (by omega)
    rw [hend]
    rfl
  · rename_i hlatest
    left
    refine ⟨rfl, ?_⟩
    rintro ⟨row, hrow, hlow, hhigh⟩
    have hempty := List.perm_nil.mp
      (List.head?_eq_none_iff.mp hlatest ▸ (List.perm_insertionSort _ _).symm)
    have haround := List.filter_eq_nil_iff.mp hempty row hrow
    rw [Bool.and_eq_true, decide_eq_true_eq, decide_eq_true_eq] at haround
    exact haround ⟨hlow, hhigh⟩

/-- Without intervals there are no rows. -/
theorem Exact.no_rows {cache : BlockCache} (hcache : cache.Exact) (hnone : cache.coverage = []) :
    cache.blocks = [] := by
  refine List.eq_nil_iff_forall_not_mem.mpr fun row hrow => ?_
  have hcovered := (hcache.covered row.height).mpr ⟨row, hrow, rfl⟩
  rw [hnone] at hcovered
  exact not_isCovered_nil _ hcovered

/-- **The interval gives the end of the rows**, and the call changes nothing. -/
theorem Exact.contiguousEnd {cache : BlockCache} (hcache : cache.Exact) {start stop : Nat}
    (hstart : start < 9223372036854775807) :
    ∃ found, cache.contiguousEnd start stop = .ok (found, cache) ∧
      IsContiguousEnd (fun height => cache.Stored height) start stop found := by
  unfold BlockCache.contiguousEnd
  split
  · exact ⟨none, rfl, Or.inl ‹_›⟩
  · rename_i hrange
    rcases coverageEnd_spec cache hstart with ⟨hnone, hnot⟩ | ⟨row, hrow, hlow, hhigh, hsome⟩
    · rw [hnone]
      rw [hcache.covered] at hnot
      refine ⟨none, ?_, Or.inr hnot⟩
      show (if cache.hasRecordedCoverage = true then _ else _) = _
      by_cases hrecorded : cache.hasRecordedCoverage = true
      · rw [if_pos hrecorded]
        rfl
      · rw [if_neg hrecorded, hcache.no_rows (by simpa [hasRecordedCoverage] using hrecorded)]
        show (if start < start then _ else _) = _
        rw [if_neg (lt_irrefl start)]
        rfl
    · rw [hsome]
      refine ⟨some (min stop row.rangeEnd.toNat), rfl, by omega, min_le_left _ _,
        fun height hheight hheight' => ?_, ?_⟩
      · exact (hcache.covered height).mp ⟨row, hrow, by omega, by omega⟩
      · rcases Nat.le_total stop row.rangeEnd.toNat with hwithin | hbeyond
        · exact Or.inl (by omega)
        · right
          rw [min_eq_right hbeyond]
          intro hstored
          obtain ⟨other, hother, hbelow, habove⟩ := (hcache.covered _).mpr hstored
          have hordered := hcache.apart.bounds other hother
          by_cases hsame : row = other
          · subst hsame
            omega
          · have hapart := hcache.apart.apart row hrow other hother hsame
            omega

section Codec

variable {encode : CompactBlockData → Except String Bytes}

/-- A call that fails changes nothing. -/
theorem getD_of_commit {P : BlockCache → Prop} {cache : BlockCache}
    {result : Except StorageError BlockCache} (hcache : P cache)
    (hcommit : ∀ after, result = .ok after → P after) : P (result.toOption.getD cache) := by
  cases result with
  | error e => exact hcache
  | ok after => exact hcommit after rfl

theorem map_snd_eq_ok {α : Type} {result : Except StorageError (α × BlockCache)}
    {after : BlockCache} (h : result.map (·.2) = .ok after) :
    ∃ answer, result = .ok (answer, after) := by
  cases result with
  | error e => cases h
  | ok pair => exact ⟨pair.1, by rw [← Except.ok.inj h]⟩

/-- Each call keeps the intervals exact. -/
theorem Exact.step {cache : BlockCache} (hcache : cache.Exact) {call : BlockCacheCall}
    (hheights : ∀ height ∈ call.heights, height < 9223372036854775807) :
    (step encode cache call).Exact := by
  cases call with
  | storeBlocks blocks =>
    exact getD_of_commit hcache fun after hafter =>
      hcache.storeBlocks (fun block hblock => hheights _ (List.mem_map_of_mem hblock)) hafter
  | upgradeLegacyRows blocks legacyHeights =>
    refine getD_of_commit hcache fun after hafter => ?_
    obtain ⟨count, hcount⟩ := map_snd_eq_ok hafter
    obtain ⟨hcoverage, hkept⟩ := upgradeLegacyRows_eq_ok hcount
    exact hcache.of_same_heights hcoverage hkept
  | deleteRange start stop =>
    refine getD_of_commit hcache fun after hafter => ?_
    obtain ⟨count, hcount⟩ := map_snd_eq_ok hafter
    exact hcache.deleteRange (hheights start (by simp [BlockCacheCall.heights]))
      (hheights stop (by simp [BlockCacheCall.heights])) hcount
  | deleteAbove height =>
    exact hcache.deleteAbove (hheights height (by simp [BlockCacheCall.heights]))
  | contiguousEnd start stop =>
    refine getD_of_commit hcache fun after hafter => ?_
    obtain ⟨found, hfound⟩ := map_snd_eq_ok hafter
    obtain ⟨found', hfound', -⟩ := @Exact.contiguousEnd cache hcache start stop
      (hheights start (by simp [BlockCacheCall.heights]))
    obtain ⟨-, rfl⟩ := Prod.mk.inj (Except.ok.inj (hfound.symm.trans hfound'))
    exact hcache

/-- **The intervals are exact in every state** that calls lead to from an empty cache: they are
apart, they cover the stored heights and no others, and `contiguous_end` answers from them what
the ordered scan answers from the rows. -/
theorem coverage_exact (encode : CompactBlockData → Except String Bytes)
    (calls : List BlockCacheCall)
    (hheights : ∀ call ∈ calls, ∀ height ∈ call.heights, height < 9223372036854775807) :
    Runs.Throughout (step encode)
      (fun cache => CoverageApart cache.coverage ∧
        (∀ column, IsCovered cache.coverage column ↔ cache.Stored column) ∧
        ∀ start stop, start < 9223372036854775807 → stop < 9223372036854775807 →
          ∃ found scanned, cache.contiguousEnd start stop = .ok (found, cache) ∧
            contiguousEnd { cache with coverage := [] } start stop = .ok (found, scanned) ∧
            IsContiguousEnd (fun height => cache.Stored height) start stop found)
      ⟨[], []⟩ calls := by
  have hexact : Runs.Throughout (step encode) Exact ⟨[], []⟩ calls :=
    Runs.run_invariant (fun cache call hcache hcall => hcache.step hcall) exact_empty
      (fun done call rest hsplit => hheights call (by rw [hsplit]; simp))
  intro done hdone
  have hcache := hexact done hdone
  refine ⟨hcache.apart, hcache.covered, fun start stop hstart hstop => ?_⟩
  obtain ⟨found, hfound, hend⟩ := @Exact.contiguousEnd _ hcache start stop hstart
  obtain ⟨found', scanned, hscanned, hend'⟩ :=
    @contiguousEnd_scan { Runs.run (step encode) ⟨[], []⟩ done with coverage := [] } hcache.keys
      rfl start stop hstart hstop
  obtain rfl : found' = found := hend'.unique hend
  exact ⟨found', scanned, hfound, hscanned, hend⟩

/-- Five stored heights, of which one is deleted in the middle. -/
def splitCalls : List BlockCacheCall :=
  [.storeBlocks [⟨1, 7, [], [], 0, [], []⟩, ⟨1, 5, [], [], 0, [], []⟩],
    .storeBlocks [⟨1, 6, [], [], 0, [], []⟩],
    .storeBlocks [⟨1, 8, [], [], 0, [], []⟩, ⟨1, 9, [], [], 0, [], []⟩], .deleteRange 6 6]

theorem coverage_exact_split :
    CoverageApart (Runs.run (step fun _ => .ok []) ⟨[], []⟩ splitCalls).coverage ∧
      (Runs.run (step fun _ => .ok []) ⟨[], []⟩ splitCalls).coverage = [⟨5, 5⟩, ⟨7, 9⟩] :=
  ⟨(coverage_exact (fun _ => .ok []) splitCalls (by decide)).last.1, by decide⟩

end Codec

end BlockCache

end StashiWallet
