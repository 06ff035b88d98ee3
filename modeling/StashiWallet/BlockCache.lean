import Mathlib.Data.List.Sort
import Mathlib.Data.List.Dedup
import StashiWallet.CompactBlock
import StashiWallet.Sql

/-!
# The block cache

Compact blocks shared by all wallets of an endpoint. Beside the rows the cache keeps intervals
of heights whose rows were stored together; once any interval is recorded, only rows inside one
count as cached. A cache from before the intervals has rows only, which one ordered scan joins.

Heights are `u64`, the columns `i64`; every statement casts. Prost's encoding is a parameter.
-/

namespace StashiWallet

/-- A row of `blocks`. -/
structure CachedBlockRow where
  height : Int
  data : Bytes
deriving DecidableEq, Repr

/-- A row of `block_coverage`. -/
structure CoverageRow where
  rangeStart : Int
  rangeEnd : Int
deriving DecidableEq, Repr

/-- The database of one endpoint's cache. -/
structure BlockCache where
  blocks : List CachedBlockRow
  coverage : List CoverageRow
deriving DecidableEq, Repr

/-- `PWCB\x02`. -/
def CACHE_RECORD_MAGIC : Bytes := [80, 87, 67, 66, 2]

/-- `u64::try_from`. -/
def heightOfColumn (message : String) (height : Int) : Except StorageError Nat :=
  if 0 ≤ height then .ok height.toNat else .error (.storage message)

/-- `INSERT INTO block_coverage`: the start is the primary key. -/
def insertCoverage (coverage : List CoverageRow) (row : CoverageRow) :
    Except StorageError (List CoverageRow) :=
  if row.rangeEnd < row.rangeStart then
    .error (.storage "CHECK constraint failed: range_end >= range_start")
  else if coverage.any (fun other => other.rangeStart == row.rangeStart) then
    .error (.storage "UNIQUE constraint failed: block_coverage.range_start")
  else .ok (coverage ++ [row])

/-- The `WHERE` clause of `record_coverage_tx`. -/
def touchesCoverage (adjacentStart adjacentEnd : Int) (row : CoverageRow) : Bool :=
  decide (adjacentStart ≤ row.rangeEnd) && decide (row.rangeStart ≤ adjacentEnd)

/-- `merged_start`, from `MIN(range_start)`. -/
def mergedStart (overlap : List CoverageRow) (start : Nat) : Nat :=
  match (overlap.map (·.rangeStart)).min? with
  | some value => min start (asU64 value)
  | none => start

/-- `merged_end`, from `MAX(range_end)`. -/
def mergedEnd (overlap : List CoverageRow) (stop : Nat) : Nat :=
  match (overlap.map (·.rangeEnd)).max? with
  | some value => max stop (asU64 value)
  | none => stop

def recordCoverageTx (coverage : List CoverageRow) (start stop : Nat) :
    Except StorageError (List CoverageRow) :=
  if stop < start then .ok coverage
  else
    let touches := touchesCoverage (asI64 (start - 1)) (asI64 (saturatingAdd stop 1))
    let overlap := coverage.filter touches
    insertCoverage (coverage.filter fun row => !touches row)
      ⟨asI64 (mergedStart overlap start), asI64 (mergedEnd overlap stop)⟩

/-- A call of `record_coverage_tx` under an `if`. -/
def recordCoverageIf (c : Prop) [Decidable c] (coverage : List CoverageRow) (start stop : Nat) :
    Except StorageError (List CoverageRow) :=
  if c then recordCoverageTx coverage start stop else .ok coverage

/-- The loop of `remove_coverage_tx` over the ranges it has read. -/
def removeRanges (start stop : Nat) :
    List CoverageRow → List CoverageRow → Except StorageError (List CoverageRow)
  | [], coverage => .ok coverage
  | row :: ranges, coverage => do
    let coverage := coverage.filter fun other => other.rangeStart != row.rangeStart
    let rangeStart ← heightOfColumn "Negative block-cache coverage height" row.rangeStart
    let rangeEnd ← heightOfColumn "Negative block-cache coverage height" row.rangeEnd
    let coverage ← recordCoverageIf (rangeStart < start) coverage rangeStart (start - 1)
    let coverage ← recordCoverageIf (stop < rangeEnd) coverage (saturatingAdd stop 1) rangeEnd
    removeRanges start stop ranges coverage

def removeCoverageTx (coverage : List CoverageRow) (start stop : Nat) :
    Except StorageError (List CoverageRow) :=
  removeRanges start stop
    (coverage.filter fun row =>
      decide (row.rangeStart ≤ asI64 stop) && decide (asI64 start ≤ row.rangeEnd))
    coverage

/-- The runs of consecutive heights, each recorded when the next height is not its successor. -/
def recordRuns (rangeStart rangeEnd : Nat) :
    List Nat → List CoverageRow → Except StorageError (List CoverageRow)
  | [], coverage => recordCoverageTx coverage rangeStart rangeEnd
  | height :: heights, coverage =>
    if height = saturatingAdd rangeEnd 1 then recordRuns rangeStart height heights coverage
    else do
      let coverage ← recordCoverageTx coverage rangeStart rangeEnd
      recordRuns height height heights coverage

namespace BlockCache

section Codec

variable (encode : CompactBlockData → Except String Bytes)

/-- `INSERT OR REPLACE INTO blocks`. -/
def upsertRow (blocks : List CachedBlockRow) (row : CachedBlockRow) : List CachedBlockRow :=
  blocks.filter (fun other => other.height != row.height) ++ [row]

/-- The rows that `store_blocks` writes. -/
def storeRows : List CompactBlockData → List CachedBlockRow → Except StorageError (List CachedBlockRow)
  | [], rows => .ok rows
  | block :: blocks, rows => do
    let encoded ← (encode block).mapError StorageError.storage
    storeRows blocks (upsertRow rows ⟨asI64 block.height, encoded⟩)

/-- The sorted heights without repetitions. -/
def storedHeights (blocks : List CompactBlockData) : List Nat :=
  ((blocks.map (·.height)).insertionSort (· ≤ ·)).dedup

def storeBlocks (cache : BlockCache) (blocks : List CompactBlockData) :
    Except StorageError BlockCache :=
  if blocks.isEmpty then .ok cache
  else do
    let rows ← storeRows encode blocks cache.blocks
    let coverage ← match storedHeights blocks with
      | [] => .ok cache.coverage
      | height :: heights => recordRuns height height heights cache.coverage
    return ⟨rows, coverage⟩

/-- The `UPDATE` of `upgrade_legacy_rows`; it counts the rows it changes. -/
def upgradeRow (height : Int) (encoded : Bytes) (rows : List CachedBlockRow) :
    List CachedBlockRow × Nat :=
  (rows.map fun row =>
      if row.height = height ∧ row.data.take 5 ≠ CACHE_RECORD_MAGIC then
        { row with data := encoded }
      else row,
    rows.countP fun row => decide (row.height = height ∧ row.data.take 5 ≠ CACHE_RECORD_MAGIC))

/-- The loop of `upgrade_legacy_rows`. -/
def upgradeRows (legacyHeights : List Nat) :
    List CompactBlockData → List CachedBlockRow × Nat →
      Except StorageError (List CachedBlockRow × Nat)
  | [], done => .ok done
  | block :: blocks, done =>
    if block.height ∉ legacyHeights then upgradeRows legacyHeights blocks done
    else do
      let encoded ← (encode block).mapError StorageError.storage
      let updated := upgradeRow (asI64 block.height) encoded done.1
      upgradeRows legacyHeights blocks (updated.1, done.2 + updated.2)

def upgradeLegacyRows (cache : BlockCache) (blocks : List CompactBlockData)
    (legacyHeights : List Nat) : Except StorageError (Nat × BlockCache) :=
  if legacyHeights.isEmpty then .ok (0, cache)
  else do
    let upgraded ← upgradeRows encode legacyHeights blocks (cache.blocks, 0)
    return (upgraded.2, { cache with blocks := upgraded.1 })

end Codec

def deleteRange (cache : BlockCache) (start stop : Nat) :
    Except StorageError (Nat × BlockCache) :=
  if stop < start then .ok (0, cache)
  else do
    let kept := cache.blocks.filter fun row =>
      !(decide (asI64 start ≤ row.height) && decide (row.height ≤ asI64 stop))
    let coverage ← removeCoverageTx cache.coverage start stop
    return (cache.blocks.length - kept.length, ⟨kept, coverage⟩)

def deleteAbove (cache : BlockCache) (height : Nat) : Nat × BlockCache :=
  let kept := cache.blocks.filter fun row => !decide (asI64 height < row.height)
  (cache.blocks.length - kept.length,
    { blocks := kept
      coverage := (cache.coverage.filter fun row => !decide (asI64 height < row.rangeStart)).map
        fun row =>
          if row.rangeStart ≤ asI64 height ∧ asI64 height < row.rangeEnd then
            { row with rangeEnd := asI64 height }
          else row })

variable (cache : BlockCache)

/-- `coverage_end`: of the intervals around a height, the one that starts last. -/
def coverageEnd (start : Nat) : Except StorageError (Option Nat) :=
  match ((cache.coverage.filter fun row =>
      decide (row.rangeStart ≤ asI64 start) && decide (asI64 start ≤ row.rangeEnd)).insertionSort
        fun row other => other.rangeStart ≤ row.rangeStart).head? with
  | some row => do
    return some (← heightOfColumn "Negative block-cache coverage height" row.rangeEnd)
  | none => .ok none

def hasRecordedCoverage : Bool := !cache.coverage.isEmpty

/-- The loop of `contiguous_end` over the ordered heights: the height it expects when it stops. -/
def scanHeights (stop : Nat) : Nat → List Int → Except StorageError Nat
  | expected, [] => .ok expected
  | expected, column :: columns => do
    let height ← heightOfColumn "Negative block-cache height" column
    if height ≠ expected then .ok expected
    else if height = stop then .ok (saturatingAdd stop 1)
    else scanHeights stop (saturatingAdd expected 1) columns

/-- `contiguous_end`. A cache without coverage records the interval that the scan finds. -/
def contiguousEnd (start stop : Nat) : Except StorageError (Option Nat × BlockCache) :=
  if stop < start then .ok (none, cache)
  else do
    match ← cache.coverageEnd start with
    | some coveredEnd => return (some (min stop coveredEnd), cache)
    | none =>
      if cache.hasRecordedCoverage then return (none, cache)
      else
        let heights := ((cache.blocks.map (·.height)).filter fun height =>
          decide (asI64 start ≤ height) && decide (height ≤ asI64 stop)).insertionSort (· ≤ ·)
        let expected ← scanHeights stop start heights
        if start < expected then
          let coverage ← recordCoverageTx cache.coverage start (expected - 1)
          return (some (expected - 1), { cache with coverage := coverage })
        else return (none, cache)

end BlockCache

end StashiWallet
