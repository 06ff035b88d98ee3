import StashiWallet.ParallelShardtree

/-!
# The ranges of a run

The ranges that are planned for a run of leaves have its positions, each of them once and in order.
A range is a subtree of the shard it lies in: as long as a power of two and aligned to its length.
The plan is refused for the runs that reach the last shard of the positions, and for no others.
-/

namespace StashiWallet

/-- The positions of the range. -/
def ConstructionRange.positions (range : ConstructionRange) : List Nat :=
  List.range' range.start range.len

/-- The range is a subtree of one shard with at most `limit` leaves. -/
structure ConstructionRange.IsSubtree (limit : Nat) (range : ConstructionRange) : Prop where
  power : ∃ level, range.len = 2 ^ level
  aligned : range.len ∣ range.start
  shard : ∀ position ∈ range.positions,
    position / 2 ^ SHARD_HEIGHT = range.start / 2 ^ SHARD_HEIGHT
  limited : range.len ≤ limit

/-- The ranges are subtrees, and their positions one after the other are those of the run. -/
structure TilesRun (limit start total : Nat) (ranges : List ConstructionRange) : Prop where
  positions : ranges.flatMap (·.positions) = List.range' start total
  subtrees : ∀ range ∈ ranges, range.IsSubtree limit

/-- Where the last shard of the positions begins. -/
def lastShard : Nat := u64Max / 2 ^ SHARD_HEIGHT * 2 ^ SHARD_HEIGHT

/-! ## One range -/

theorem alignedTake_le (nextPosition : Nat) {maxTake take : Nat} (hpos : 0 < take)
    (hle : take ≤ maxTake) : alignedTake nextPosition maxTake take hpos ≤ maxTake := by
  fun_induction alignedTake nextPosition maxTake take hpos with
  | case1 take hpos h ih => exact ih (by omega)
  | case2 take hpos h => exact hle

theorem adaptiveTreeChunkLimit_pos {totalLeaves parallelism : Nat} (h : totalLeaves ≠ 0) :
    0 < adaptiveTreeChunkLimit totalLeaves parallelism := by
  unfold adaptiveTreeChunkLimit
  rw [if_neg h]
  unfold MIN_PARALLEL_TREE_CHUNK_LEAVES MAX_PARALLEL_TREE_CHUNK_LEAVES
  dsimp only
  omega

/-- The doubling keeps a power of two to which the position is aligned. -/
theorem alignedTake_aligned {nextPosition maxTake take : Nat} (hpos : 0 < take)
    (hpower : ∃ level, take = 2 ^ level) (haligned : take ∣ nextPosition) :
    (∃ level, alignedTake nextPosition maxTake take hpos = 2 ^ level) ∧
      alignedTake nextPosition maxTake take hpos ∣ nextPosition := by
  fun_induction alignedTake nextPosition maxTake take hpos with
  | case1 take hpos h ih =>
    obtain ⟨level, hlevel⟩ := hpower
    apply ih
    · exact ⟨level + 1, by rw [hlevel, Nat.pow_succ]⟩
    · exact Nat.dvd_of_mod_eq_zero h.2
  | case2 take hpos h => exact ⟨hpower, haligned⟩

/-- What the loop takes at a position. -/
def takeAt (chunkLimit nextPosition remaining : Nat) : Nat :=
  alignedTake nextPosition (min (min remaining chunkLimit)
    ((nextPosition / 2 ^ SHARD_HEIGHT + 1) * 2 ^ SHARD_HEIGHT - nextPosition)) 1 Nat.one_pos

section Take

variable {chunkLimit nextPosition remaining : Nat}

theorem takeAt_pos : 0 < takeAt chunkLimit nextPosition remaining :=
  alignedTake_pos nextPosition _ 1 Nat.one_pos

theorem takeAt_le (hlimit : 0 < chunkLimit) (hremaining : remaining ≠ 0) :
    takeAt chunkLimit nextPosition remaining ≤ min (min remaining chunkLimit)
      ((nextPosition / 2 ^ SHARD_HEIGHT + 1) * 2 ^ SHARD_HEIGHT - nextPosition) := by
  apply alignedTake_le nextPosition Nat.one_pos
  have hwidth : 2 ^ SHARD_HEIGHT = 65536 := rfl
  rw [hwidth]
  omega

/-- What is taken is a subtree, wherever in its shard the position is. -/
theorem isSubtree_takeAt (hlimit : 0 < chunkLimit) (hremaining : remaining ≠ 0) :
    ConstructionRange.IsSubtree chunkLimit
      ⟨nextPosition, takeAt chunkLimit nextPosition remaining⟩ := by
  have htake := @takeAt_le chunkLimit nextPosition remaining hlimit hremaining
  have haligned : (∃ level, takeAt chunkLimit nextPosition remaining = 2 ^ level) ∧
      takeAt chunkLimit nextPosition remaining ∣ nextPosition :=
    alignedTake_aligned Nat.one_pos ⟨0, rfl⟩ (Nat.one_dvd _)
  refine ⟨haligned.1, haligned.2, fun position hposition => ?_, ?_⟩
  · -- the range ends with the shard at the latest
    have hrange := List.mem_range'_1.mp hposition
    have hwidth : 2 ^ SHARD_HEIGHT = 65536 := rfl
    rw [hwidth] at htake ⊢
    dsimp only at hrange ⊢
    omega
  · dsimp only
    omega

/-- The loop takes a range below the last shard and goes on after it. -/
theorem constructionRanges_eq_ok {poolName : String} {ranges : List ConstructionRange}
    (hlimit : 0 < chunkLimit) (hremaining : remaining ≠ 0) :
    constructionRanges chunkLimit poolName nextPosition remaining = .ok ranges ↔
      nextPosition < lastShard ∧ ∃ rest,
        constructionRanges chunkLimit poolName
          (nextPosition + takeAt chunkLimit nextPosition remaining)
          (remaining - takeAt chunkLimit nextPosition remaining) = .ok rest ∧
        ⟨nextPosition, takeAt chunkLimit nextPosition remaining⟩ :: rest = ranges := by
  have htake := @takeAt_le chunkLimit nextPosition remaining hlimit hremaining
  rw [constructionRanges, dif_neg hremaining]
  rw [takeAt] at htake ⊢
  dsimp only
  generalize alignedTake nextPosition (min (min remaining chunkLimit)
    ((nextPosition / 2 ^ SHARD_HEIGHT + 1) * 2 ^ SHARD_HEIGHT - nextPosition)) 1 Nat.one_pos =
      take at htake ⊢
  have hwidth : 2 ^ SHARD_HEIGHT = 65536 := rfl
  have hlast : lastShard = 18446744073709486080 := rfl
  have hmax : u64Max = 18446744073709551615 := rfl
  rw [hwidth] at htake ⊢
  rw [hlast]
  by_cases hshard : u64Max < (nextPosition / 65536 + 1) * 65536
  · rw [if_pos hshard]
    constructor
    · intro h
      cases h
    · rintro ⟨hbelow, -⟩
      omega
  · -- a shard that ends below 2^64 leaves no overflow for a range inside it
    rw [if_neg hshard, if_neg (by omega)]
    constructor
    · intro h
      exact ⟨by omega, map_eq_ok h⟩
    · rintro ⟨-, rest, hrest, rfl⟩
      rw [hrest]
      rfl

end Take

/-! ## A run -/

theorem constructionRanges_tiles {chunkLimit : Nat} (hlimit : 0 < chunkLimit) {poolName : String}
    {nextPosition remaining : Nat} {ranges : List ConstructionRange}
    (h : constructionRanges chunkLimit poolName nextPosition remaining = .ok ranges) :
    TilesRun chunkLimit nextPosition remaining ranges := by
  induction remaining using Nat.strong_induction_on generalizing nextPosition ranges with
  | h remaining ih =>
    by_cases hzero : remaining = 0
    · rw [constructionRanges, dif_pos hzero] at h
      cases h
      subst hzero
      exact ⟨rfl, List.forall_mem_nil _⟩
    · have hpos := @takeAt_pos chunkLimit nextPosition remaining
      have hle := @takeAt_le chunkLimit nextPosition remaining hlimit hzero
      have hsubtree := @isSubtree_takeAt chunkLimit nextPosition remaining hlimit hzero
      obtain ⟨-, rest, hrest, rfl⟩ := (constructionRanges_eq_ok hlimit hzero).mp h
      generalize takeAt chunkLimit nextPosition remaining = take at hpos hle hsubtree hrest ⊢
      obtain ⟨hpositions, hsubtrees⟩ := ih (remaining - take) (by omega) hrest
      refine ⟨?_, List.forall_mem_cons.mpr ⟨hsubtree, hsubtrees⟩⟩
      calc List.flatMap (·.positions) (⟨nextPosition, take⟩ :: rest)
          = List.range' nextPosition take ++ rest.flatMap (·.positions) := List.flatMap_cons
        _ = List.range' nextPosition take ++
              List.range' (nextPosition + take) (remaining - take) := by rw [hpositions]
        _ = List.range' nextPosition (take + (remaining - take)) := List.range'_append_1
        _ = List.range' nextPosition remaining := by
            rw [show take + (remaining - take) = remaining by omega]

/-- **The planned ranges tile the run.** They are subtrees within the limit, and their positions one
after the other are those of the run. -/
theorem construction_ranges_tile {startPosition totalLeaves parallelism : Nat} {poolName : String}
    {ranges : List ConstructionRange}
    (h : balancedConstructionRanges startPosition totalLeaves parallelism poolName = .ok ranges) :
    TilesRun (adaptiveTreeChunkLimit totalLeaves parallelism) startPosition totalLeaves ranges := by
  unfold balancedConstructionRanges at h
  by_cases hzero : totalLeaves = 0
  · rw [if_pos hzero] at h
    cases h
    subst hzero
    exact ⟨rfl, List.forall_mem_nil _⟩
  · rw [if_neg hzero] at h
    exact constructionRanges_tiles (adaptiveTreeChunkLimit_pos hzero) h

/-- A run that begins three positions before a shard ends. -/
theorem construction_ranges_tile_across :
    TilesRun (adaptiveTreeChunkLimit 8 2) 65533 8
      [⟨65533, 1⟩, ⟨65534, 2⟩, ⟨65536, 4⟩, ⟨65540, 1⟩] := by
  apply @construction_ranges_tile 65533 8 2 "Sapling"
  simp [balancedConstructionRanges, constructionRanges, alignedTake, adaptiveTreeChunkLimit,
    checkedNextPowerOfTwo, divCeil, SHARD_HEIGHT, u64Max, Except.map,
    MIN_PARALLEL_TREE_CHUNK_LEAVES, MAX_PARALLEL_TREE_CHUNK_LEAVES]

end StashiWallet
