import StashiWallet.BlockCodec
import StashiWallet.BoundedLoads

/-!
# Rewriting the rows of older formats

A reader that finds rows of an older format writes the blocks it has read back in the current
one, some time after it has read them. Until then any other call may come in between. The update
passes over current rows, and nothing writes a row of an older format any more; so a row that it
does change is one that the reader has read.

The update goes by the height of the block, not of the row. In a cache where a row holds a block of
another height it puts that block into the wrong row, which the callers rule out beforehand.
-/

namespace StashiWallet

/-- The row is of the current format. -/
def CachedBlockRow.IsCurrent (row : CachedBlockRow) : Prop := row.data.take 5 = CACHE_RECORD_MAGIC

instance (row : CachedBlockRow) : Decidable row.IsCurrent :=
  inferInstanceAs (Decidable (_ = _))

namespace BlockCache

section Load

variable (decode : Bytes → Except StorageError CompactBlockData)

/-- The loop body of `load_range_for_upgrade`. -/
def loadRow (loaded : LoadedBlockRange) (row : CachedBlockRow) :
    Except StorageError LoadedBlockRange := do
  let _ ← heightOfColumn "Negative block-cache height" row.height
  let block ← decode row.data
  -- `shielded_work_items(1, 1)`, and no budgets
  return loaded.push ⟨0, 0, 1, 1⟩ row block

def loadRangeForUpgrade (cache : BlockCache) (start stop : Nat) :
    Except StorageError LoadedBlockRange :=
  if start > stop then .ok .empty
  else (cache.rowsBetween start stop).foldlM (loadRow decode) .empty

def loadRange (cache : BlockCache) (start stop : Nat) :
    Except StorageError (List CompactBlockData) :=
  (cache.loadRangeForUpgrade decode start stop).map (·.blocks)

/-- What either of the two loads returns. -/
def Loads (cache : BlockCache) (start stop : Nat) (loaded : LoadedBlockRange) : Prop :=
  cache.loadRangeForUpgrade decode start stop = .ok loaded ∨
    ∃ budget, cache.loadBoundedWorkRangeForUpgrade decode budget start stop = .ok loaded

/-- Heights are keys, and the rows of a range hold no block of another height. -/
structure InPlace (cache : BlockCache) (start stop : Nat) : Prop where
  keys : (cache.blocks.map (·.height)).Nodup
  own : ∀ row ∈ cache.blocks, (start : Int) ≤ row.height → row.height ≤ stop →
    ∀ block, decode row.data = .ok block → asI64 block.height = row.height

/-- What a load reads of a row. -/
def content (row : CachedBlockRow) : Int × Except StorageError CompactBlockData :=
  (row.height, decode row.data)

/-- At the heights of the blocks, a row of an older format holds the block. -/
def Agrees (blocks : List CompactBlockData) (rows : List CachedBlockRow) : Prop :=
  ∀ block ∈ blocks, ∀ row ∈ rows, row.height = asI64 block.height → ¬ row.IsCurrent →
    decode row.data = .ok block

end Load

/-- The rows of an older format are left over from before. -/
def LegacyWithin (before after : List CachedBlockRow) : Prop :=
  ∀ row ∈ after, ¬ row.IsCurrent → row ∈ before

/-- The update has no row left to change. -/
def Settled (encode : CompactBlockData → Except String Bytes) (legacyHeights : List Nat)
    (blocks : List CompactBlockData) (rows : List CachedBlockRow) : Prop :=
  ∀ block ∈ blocks, block.height ∈ legacyHeights → (∃ encoded, encode block = .ok encoded) ∧
    ∀ row ∈ rows, row.height = asI64 block.height → row.IsCurrent

/-! ## What is read -/

section Load

variable {decode : Bytes → Except StorageError CompactBlockData} {cache : BlockCache}
  {start stop : Nat} {loaded : LoadedBlockRange} {block : CompactBlockData}

theorem loadRow_eq_ok {row : CachedBlockRow} {next : LoadedBlockRange}
    (h : loadRow decode loaded row = .ok next) :
    0 ≤ row.height ∧ ∃ block, decode row.data = .ok block ∧
      next.blocks = loaded.blocks ++ [block] := by
  obtain ⟨height, hheight, h⟩ := bind_eq_ok h
  obtain ⟨block, hblock, h⟩ := bind_eq_ok h
  obtain rfl := Except.ok.inj h
  refine ⟨?_, block, hblock, rfl⟩
  by_contra hnegative
  rw [heightOfColumn, if_neg hnegative] at hheight
  cases hheight

/-- Every block that the loop over a range adds is a row's. -/
theorem mem_foldlM_loadRow {rows : List CachedBlockRow} {before : LoadedBlockRange}
    (h : rows.foldlM (loadRow decode) before = .ok loaded) (hblock : block ∈ loaded.blocks) :
    block ∈ before.blocks ∨
      ∃ row ∈ rows, 0 ≤ row.height ∧ decode row.data = .ok block := by
  induction rows generalizing before with
  | nil =>
    obtain rfl := Except.ok.inj h
    exact Or.inl hblock
  | cons row rows ih =>
    rw [List.foldlM_cons] at h
    obtain ⟨next, hnext, h⟩ := bind_eq_ok h
    obtain ⟨hheight, found, hfound, hblocks⟩ := loadRow_eq_ok hnext
    rcases ih h with hbefore | ⟨other, hother, hsource⟩
    · rw [hblocks, List.mem_append, List.mem_singleton] at hbefore
      refine hbefore.imp_right ?_
      rintro rfl
      exact ⟨row, List.mem_cons_self, hheight, hfound⟩
    · exact Or.inr ⟨other, List.mem_cons_of_mem _ hother, hsource⟩

/-- Every block that the loop within budgets adds is a row's, at the height expected or above. -/
theorem mem_loadRows {budget : LoadBudget} {rows : List CachedBlockRow} {expected : Nat}
    (hexpected : expected ≤ u64Max) {before : LoadedBlockRange}
    (h : loadRows decode budget expected before rows = .ok loaded)
    (hblock : block ∈ loaded.blocks) :
    block ∈ before.blocks ∨
      ∃ row ∈ rows, (expected : Int) ≤ row.height ∧ decode row.data = .ok block := by
  induction rows generalizing before expected with
  | nil =>
    obtain rfl := Except.ok.inj h
    exact Or.inl hblock
  | cons row rows ih =>
    unfold loadRows at h
    obtain ⟨height, hheight, h⟩ := bind_eq_ok h
    have hcolumn : (height : Int) = row.height := by
      unfold heightOfColumn at hheight
      split at hheight
      · rw [← Except.ok.inj hheight]
        exact Int.toNat_of_nonneg ‹_›
      · cases hheight
    split at h
    · -- a missing height ends the load
      obtain rfl := Except.ok.inj h
      exact Or.inl hblock
    · rename_i hnext
      rw [not_not] at hnext
      split at h
      · -- the row's bytes do not fit, and it is not read
        obtain rfl := Except.ok.inj h
        exact Or.inl hblock
      · obtain ⟨found, hfound, h⟩ := bind_eq_ok h
        dsimp only at h
        split at h
        · -- the row is read, and its block has too much work
          obtain rfl := Except.ok.inj h
          exact Or.inl hblock
        · have hlater : expected ≤ saturatingAdd expected 1 := by
            unfold saturatingAdd
            omega
          rcases ih (min_le_right _ _) h with hbefore | ⟨other, hother, hheights, hdecode⟩
          · change block ∈ before.blocks ++ [found] at hbefore
            rw [List.mem_append, List.mem_singleton] at hbefore
            refine hbefore.imp_right ?_
            rintro rfl
            exact ⟨row, List.mem_cons_self, by omega, hfound⟩
          · exact Or.inr ⟨other, List.mem_cons_of_mem _ hother, by omega, hdecode⟩

/-- A row of `BETWEEN` is one of the cache. -/
theorem rowsBetween_le {row : CachedBlockRow} (hrow : row ∈ cache.rowsBetween start stop) :
    row ∈ cache.blocks ∧ asI64 start ≤ row.height ∧ row.height ≤ asI64 stop := by
  unfold rowsBetween at hrow
  rw [List.mem_insertionSort, List.mem_filter, Bool.and_eq_true, decide_eq_true_eq,
    decide_eq_true_eq] at hrow
  exact hrow

/-- Every block loaded is that of a row within the range. -/
theorem Loads.source (h : cache.Loads decode start stop loaded) (hstop : stop ≤ u64Max)
    (hblock : block ∈ loaded.blocks) :
    ∃ row ∈ cache.blocks, (start : Int) ≤ row.height ∧ row.height ≤ stop ∧
      decode row.data = .ok block := by
  have hcastStart := asI64_cases start
  have hcastStop := asI64_cases stop
  unfold u64Max at hstop
  rcases h with hrange | ⟨budget, hbounded⟩
  · unfold loadRangeForUpgrade at hrange
    split at hrange
    · obtain rfl := Except.ok.inj hrange
      exact absurd hblock List.not_mem_nil
    · rcases mem_foldlM_loadRow hrange hblock with hnone | ⟨row, hrow, hheight, hdecode⟩
      · exact absurd hnone List.not_mem_nil
      · obtain ⟨hmem, hlow, hhigh⟩ := rowsBetween_le hrow
        exact ⟨row, hmem, by omega, by omega, hdecode⟩
  · unfold loadBoundedWorkRangeForUpgrade at hbounded
    split at hbounded
    · obtain rfl := Except.ok.inj hbounded
      exact absurd hblock List.not_mem_nil
    · -- the loop runs to the covered end or to the end of the range
      have hrows : ∀ bound, bound ≤ stop →
          loadRows decode budget start .empty (cache.rowsBetween start bound) = .ok loaded →
          ∃ row ∈ cache.blocks, (start : Int) ≤ row.height ∧ row.height ≤ stop ∧
            decode row.data = .ok block := by
        intro bound hbound hloaded
        have hcastBound := asI64_cases bound
        have hstart : start ≤ u64Max := by
          unfold u64Max
          omega
        rcases mem_loadRows hstart hloaded hblock with hnone | ⟨row, hrow, hheight, hdecode⟩
        · exact absurd hnone List.not_mem_nil
        · obtain ⟨hmem, hlow, hhigh⟩ := rowsBetween_le hrow
          exact ⟨row, hmem, hheight, by omega, hdecode⟩
      obtain ⟨covered, -, hbounded⟩ := bind_eq_ok hbounded
      cases covered with
      | some coveredEnd => exact hrows _ (min_le_left _ _) hbounded
      | none =>
        dsimp only at hbounded
        split at hbounded
        · obtain rfl := Except.ok.inj hbounded
          exact absurd hblock List.not_mem_nil
        · exact hrows _ le_rfl hbounded

/-- In place, a block that was read is the one at its height. -/
theorem InPlace.agrees (h : cache.InPlace decode start stop)
    (hloads : cache.Loads decode start stop loaded) (hstop : stop ≤ u64Max) :
    Agrees decode loaded.blocks cache.blocks := by
  intro block hblock row hrow hheight hlegacy
  obtain ⟨source, hsource, hlow, hhigh, hdecode⟩ := hloads.source hstop hblock
  have hown := h.own source hsource hlow hhigh block hdecode
  obtain rfl := List.inj_on_of_nodup_map h.keys hrow hsource (hheight.trans hown)
  exact hdecode

/-- The rows of a range, as far as they are read, come from what is read of all rows. -/
theorem map_content_rowsBetween (cache : BlockCache) (start stop : Nat) :
    (cache.rowsBetween start stop).map (content decode) =
      ((cache.blocks.map (content decode)).filter fun read =>
        decide (asI64 start ≤ read.1) && decide (read.1 ≤ asI64 stop)).insertionSort
          fun read other => read.1 ≤ other.1 := by
  unfold rowsBetween
  rw [List.filter_map]
  exact List.map_insertionSort _ _ (content decode) _ fun row _ other _ => Iff.rfl

/-- Rows that read the same load the same blocks. -/
theorem foldlM_loadRow_congr {rows rows' : List CachedBlockRow}
    (h : rows.map (content decode) = rows'.map (content decode)) {loaded loaded' : LoadedBlockRange}
    (hblocks : loaded.blocks = loaded'.blocks) :
    (rows.foldlM (loadRow decode) loaded).map (·.blocks) =
      (rows'.foldlM (loadRow decode) loaded').map (·.blocks) := by
  induction rows generalizing rows' loaded loaded' with
  | nil =>
    obtain rfl := List.map_eq_nil_iff.mp h.symm
    exact congrArg Except.ok hblocks
  | cons row rows ih =>
    obtain ⟨row', rest, rfl, hrow, hrest⟩ := List.map_eq_cons_iff.mp h.symm
    obtain ⟨hheight, hdata⟩ := Prod.mk.inj hrow
    simp only [List.foldlM_cons, loadRow, hheight, hdata, bind_assoc, pure_bind]
    cases heightOfColumn "Negative block-cache height" row.height with
    | error e => rfl
    | ok height =>
      cases decode row.data with
      | error e => rfl
      | ok block => exact ih hrest.symm (congrArg (· ++ [block]) hblocks)

/-- What is read of the rows decides every range. -/
theorem loadRange_congr {cache cache' : BlockCache}
    (h : cache.blocks.map (content decode) = cache'.blocks.map (content decode))
    (start stop : Nat) : cache.loadRange decode start stop = cache'.loadRange decode start stop := by
  unfold loadRange loadRangeForUpgrade
  split
  · rfl
  · refine foldlM_loadRow_congr ?_ rfl
    rw [map_content_rowsBetween, map_content_rowsBetween, h]

end Load

/-! ## What is written -/

theorem LegacyWithin.refl (rows : List CachedBlockRow) : LegacyWithin rows rows :=
  fun _ hrow _ => hrow

theorem LegacyWithin.trans {first second third : List CachedBlockRow}
    (h : LegacyWithin first second) (h' : LegacyWithin second third) : LegacyWithin first third :=
  fun row hrow hlegacy => h row (h' row hrow hlegacy) hlegacy

theorem LegacyWithin.filter (rows : List CachedBlockRow) (p : CachedBlockRow → Bool) :
    LegacyWithin rows (rows.filter p) :=
  fun _ hrow _ => List.mem_of_mem_filter hrow

section Update

variable {encode : CompactBlockData → Except String Bytes}
  {decode : Bytes → Except StorageError CompactBlockData} {cache : BlockCache}
  {blocks : List CompactBlockData} {legacyHeights : List Nat} {before after : List CachedBlockRow}

theorem Agrees.mono (h : Agrees decode blocks before) (hwithin : LegacyWithin before after) :
    Agrees decode blocks after :=
  fun block hblock row hrow hheight hlegacy =>
    h block hblock row (hwithin row hrow hlegacy) hheight hlegacy

theorem Settled.mono (h : Settled encode legacyHeights blocks before)
    (hwithin : LegacyWithin before after) : Settled encode legacyHeights blocks after := by
  intro block hblock hlisted
  obtain ⟨hencoded, hrows⟩ := h block hblock hlisted
  refine ⟨hencoded, fun row hrow hheight => ?_⟩
  by_contra hlegacy
  exact hlegacy (hrows row (hwithin row hrow hlegacy) hheight)

theorem mem_upgradeRow {height : Int} {encoded : Bytes} {row : CachedBlockRow} :
    row ∈ (upgradeRow height encoded before).1 ↔
      ∃ old ∈ before, (if old.height = height ∧ ¬ old.IsCurrent then { old with data := encoded }
        else old) = row :=
  List.mem_map

/-- An update changes the rows of its height that are not current, and all of them. -/
theorem upgradeRow_spec {height : Int} {encoded : Bytes}
    (hencoded : encoded.take 5 = CACHE_RECORD_MAGIC) :
    (∀ row ∈ before, row.IsCurrent → row ∈ (upgradeRow height encoded before).1) ∧
      ∀ row ∈ (upgradeRow height encoded before).1, ¬ row.IsCurrent →
        row ∈ before ∧ row.height ≠ height := by
  refine ⟨fun row hrow hcurrent => ?_, fun row hrow hlegacy => ?_⟩
  · exact mem_upgradeRow.mpr ⟨row, hrow, if_neg fun h => h.2 hcurrent⟩
  · obtain ⟨old, hold, hrow⟩ := mem_upgradeRow.mp hrow
    split at hrow
    · -- the row has been written, in the current format
      rw [← hrow] at hlegacy
      exact absurd hencoded hlegacy
    · rename_i hkept
      subst hrow
      exact ⟨hold, fun hheight => hkept ⟨hheight, hlegacy⟩⟩

/-- Where an update has nothing to change, it changes nothing. -/
theorem upgradeRow_of_current {height : Int} (encoded : Bytes)
    (h : ∀ row ∈ before, row.height = height → row.IsCurrent) :
    upgradeRow height encoded before = (before, 0) := by
  have hnone : ∀ row ∈ before, ¬ (row.height = height ∧ ¬ row.IsCurrent) :=
    fun row hrow hchanged => hchanged.2 (h row hrow hchanged.1)
  refine Prod.ext ?_ ?_
  · exact (List.map_congr_left fun row hrow => if_neg (hnone row hrow)).trans (List.map_id' before)
  · exact List.countP_eq_zero.mpr fun row hrow =>
      decide_eq_true_iff.not.mpr (hnone row hrow)

/-- An update of rows that hold the block already keeps what is read. -/
theorem upgradeRow_content {block : CompactBlockData} {encoded : Bytes}
    (hencoded : decode encoded = .ok block)
    (h : ∀ row ∈ before, row.height = asI64 block.height → ¬ row.IsCurrent →
      decode row.data = .ok block) :
    (upgradeRow (asI64 block.height) encoded before).1.map (content decode) =
      before.map (content decode) := by
  unfold upgradeRow
  rw [List.map_map]
  refine List.map_congr_left fun row hrow => ?_
  dsimp only [Function.comp_apply]
  split
  · rename_i hchanged
    exact Prod.ext rfl (hencoded.trans (h row hrow hchanged.1 hchanged.2).symm)
  · rfl

/-- A call of `upgrade_legacy_rows` that commits. -/
theorem upgradeLegacyRows_rows {upgraded : BlockCache} {count : Nat}
    (h : upgradeLegacyRows encode cache blocks legacyHeights = .ok (count, upgraded)) :
    legacyHeights = [] ∧ upgraded = cache ∨
      legacyHeights ≠ [] ∧ upgradeRows encode legacyHeights blocks (cache.blocks, 0) =
        .ok (upgraded.blocks, count) := by
  unfold upgradeLegacyRows at h
  split at h
  · obtain ⟨-, rfl⟩ := Prod.mk.inj (Except.ok.inj h)
    exact Or.inl ⟨List.isEmpty_iff.mp ‹_›, rfl⟩
  · rename_i hlisted
    obtain ⟨result, hresult, h⟩ := bind_eq_ok h
    obtain ⟨rfl, rfl⟩ := Prod.mk.inj (Except.ok.inj h)
    exact Or.inr ⟨fun hnone => hlisted (List.isEmpty_iff.mpr hnone), hresult⟩

/-- A `contiguous_end` writes no rows. -/
theorem contiguousEnd_blocks {scanned : BlockCache} {start stop : Nat} {found : Option Nat}
    (h : cache.contiguousEnd start stop = .ok (found, scanned)) :
    scanned.blocks = cache.blocks := by
  unfold contiguousEnd at h
  split at h
  · obtain ⟨-, rfl⟩ := Prod.mk.inj (Except.ok.inj h)
    rfl
  · obtain ⟨covered, -, h⟩ := bind_eq_ok h
    cases covered with
    | some coveredEnd =>
      obtain ⟨-, rfl⟩ := Prod.mk.inj (Except.ok.inj h)
      rfl
    | none =>
      dsimp only at h
      split at h
      · obtain ⟨-, rfl⟩ := Prod.mk.inj (Except.ok.inj h)
        rfl
      · obtain ⟨expected, -, h⟩ := bind_eq_ok h
        split at h
        · obtain ⟨coverage, -, h⟩ := bind_eq_ok h
          obtain ⟨-, rfl⟩ := Prod.mk.inj (Except.ok.inj h)
          rfl
        · obtain ⟨-, rfl⟩ := Prod.mk.inj (Except.ok.inj h)
          rfl

theorem upgradeRows_of_settled (h : Settled encode legacyHeights blocks before) (count : Nat) :
    upgradeRows encode legacyHeights blocks (before, count) = .ok (before, count) := by
  induction blocks with
  | nil => rfl
  | cons block blocks ih =>
    obtain ⟨hblock, hblocks⟩ := List.forall_mem_cons.mp h
    unfold upgradeRows
    split
    · exact ih hblocks
    · rename_i hlisted
      obtain ⟨⟨encoded, hencoded⟩, hrows⟩ := hblock (not_not.mp hlisted)
      rw [hencoded]
      change upgradeRows encode legacyHeights blocks (_, _) = _
      rw [upgradeRow_of_current encoded hrows]
      exact ih hblocks

/-- The update commits when all its blocks can be encoded. -/
theorem upgradeRows_ok (h : ∀ block ∈ blocks, ∃ encoded, encode block = .ok encoded)
    (done : List CachedBlockRow × Nat) :
    ∃ result, upgradeRows encode legacyHeights blocks done = .ok result := by
  induction blocks generalizing done with
  | nil => exact ⟨done, rfl⟩
  | cons block blocks ih =>
    obtain ⟨⟨encoded, hencoded⟩, hblocks⟩ := List.forall_mem_cons.mp h
    unfold upgradeRows
    split
    · exact ih hblocks done
    · rw [hencoded]
      exact ih hblocks _

section Current

-- What `encode_block` writes is current.
variable (hcurrent : ∀ block encoded, encode block = .ok encoded →
  encoded.take 5 = CACHE_RECORD_MAGIC)

include hcurrent

/-- The loop passes over current rows, leaves no others at the heights of its blocks, and makes
none. -/
theorem upgradeRows_spec {done result : List CachedBlockRow × Nat}
    (h : upgradeRows encode legacyHeights blocks done = .ok result) :
    (∀ row ∈ done.1, row.IsCurrent → row ∈ result.1) ∧ LegacyWithin done.1 result.1 ∧
      Settled encode legacyHeights blocks result.1 := by
  induction blocks generalizing done with
  | nil =>
    obtain rfl := Except.ok.inj h
    exact ⟨fun row hrow _ => hrow, .refl _, fun block hblock => absurd hblock List.not_mem_nil⟩
  | cons block blocks ih =>
    unfold upgradeRows at h
    split at h
    · -- the height is not listed
      rename_i hskipped
      obtain ⟨hkept, hwithin, hsettled⟩ := ih h
      exact ⟨hkept, hwithin, List.forall_mem_cons.mpr
        ⟨fun hlisted => absurd hlisted hskipped, hsettled⟩⟩
    · obtain ⟨encoded, hencoded, h⟩ := bind_eq_ok h
      obtain ⟨hkept, hwithin, hsettled⟩ := ih h
      obtain ⟨hpassed, hchanged⟩ := @upgradeRow_spec done.1 (asI64 block.height) encoded
        (hcurrent block encoded (mapError_eq_ok hencoded))
      refine ⟨fun row hrow hformat => hkept row (hpassed row hrow hformat) hformat,
        LegacyWithin.trans (fun row hrow hlegacy => (hchanged row hrow hlegacy).1) hwithin,
        List.forall_mem_cons.mpr ⟨fun _ => ⟨⟨encoded, mapError_eq_ok hencoded⟩, ?_⟩, hsettled⟩⟩
      intro row hrow hheight
      by_contra hlegacy
      exact (hchanged row (hwithin row hrow hlegacy) hlegacy).2 hheight

/-- The rows that `store_blocks` leaves of an older format are not of its blocks. -/
theorem storeRows_legacy (h : storeRows encode blocks before = .ok after) :
    ∀ row ∈ after, ¬ row.IsCurrent →
      row ∈ before ∧ ∀ block ∈ blocks, row.height ≠ asI64 block.height := by
  induction blocks generalizing before with
  | nil =>
    obtain rfl := Except.ok.inj h
    exact fun row hrow _ => ⟨hrow, fun block hblock => absurd hblock List.not_mem_nil⟩
  | cons block blocks ih =>
    obtain ⟨encoded, hencoded, h⟩ := bind_eq_ok h
    intro row hrow hlegacy
    obtain ⟨hmem, hothers⟩ := ih h row hrow hlegacy
    rcases List.mem_append.mp hmem with hold | hnew
    · obtain ⟨hbefore, hkey⟩ := List.mem_filter.mp hold
      exact ⟨hbefore, List.forall_mem_cons.mpr ⟨bne_iff_ne.mp hkey, hothers⟩⟩
    · rw [List.mem_singleton.mp hnew] at hlegacy
      exact absurd (hcurrent block encoded (mapError_eq_ok hencoded)) hlegacy

/-- No call makes a row of an older format. -/
theorem legacyWithin_step (cache : BlockCache) (call : BlockCacheCall) :
    LegacyWithin cache.blocks (step encode cache call).blocks := by
  have hcommit : ∀ {result : Except StorageError BlockCache},
      (∀ after, result = .ok after → LegacyWithin cache.blocks after.blocks) →
      LegacyWithin cache.blocks (result.toOption.getD cache).blocks :=
    getD_of_commit (P := fun other => LegacyWithin cache.blocks other.blocks) (LegacyWithin.refl _)
  cases call with
  | storeBlocks blocks =>
    refine hcommit fun after hafter => ?_
    rcases storeBlocks_eq_ok hafter with ⟨-, rfl⟩ | ⟨-, -, -, hrows, -⟩
    · exact .refl _
    · exact fun row hrow hlegacy => (storeRows_legacy hcurrent hrows row hrow hlegacy).1
  | upgradeLegacyRows blocks legacyHeights =>
    refine hcommit fun after hafter => ?_
    obtain ⟨count, hcount⟩ := map_snd_eq_ok hafter
    rcases upgradeLegacyRows_rows hcount with ⟨-, rfl⟩ | ⟨-, hrows⟩
    · exact .refl _
    · exact (upgradeRows_spec hcurrent hrows).2.1
  | deleteRange start stop =>
    refine hcommit fun after hafter => ?_
    obtain ⟨count, hcount⟩ := map_snd_eq_ok hafter
    rcases deleteRange_eq_ok hcount with ⟨-, rfl⟩ | ⟨-, -, hblocks⟩
    · exact .refl _
    · rw [hblocks]
      exact .filter _ _
  | deleteAbove height => exact .filter _ _
  | contiguousEnd start stop =>
    refine hcommit fun after hafter => ?_
    obtain ⟨found, hfound⟩ := map_snd_eq_ok hafter
    rw [contiguousEnd_blocks hfound]
    exact .refl _

theorem legacyWithin_run (cache : BlockCache) (calls : List BlockCacheCall) :
    LegacyWithin cache.blocks (Runs.run (step encode) cache calls).blocks :=
  (Runs.run_invariant_always (P := fun other => LegacyWithin cache.blocks other.blocks)
    (fun other call h => h.trans (legacyWithin_step hcurrent other call))
    (LegacyWithin.refl _) calls).last

/-- Once the update has committed, whatever is called next, it has nothing left to do. -/
theorem upgradeLegacyRows_again {upgraded : BlockCache} {count : Nat}
    (h : upgradeLegacyRows encode cache blocks legacyHeights = .ok (count, upgraded))
    (calls : List BlockCacheCall) :
    upgradeLegacyRows encode (Runs.run (step encode) upgraded calls) blocks legacyHeights =
      .ok (0, Runs.run (step encode) upgraded calls) := by
  rcases upgradeLegacyRows_rows h with ⟨rfl, -⟩ | ⟨hlisted, hrows⟩
  · rfl
  · have hsettled := (upgradeRows_spec hcurrent hrows).2.2.mono
      (legacyWithin_run hcurrent upgraded calls)
    unfold upgradeLegacyRows
    rw [if_neg (by simpa using hlisted), upgradeRows_of_settled hsettled]
    rfl

/-- The update keeps what is read where the rows agree with the blocks. -/
theorem upgradeRows_content (hdecode : ∀ block ∈ blocks, ∀ encoded, encode block = .ok encoded →
      decode encoded = .ok block)
    {done result : List CachedBlockRow × Nat} (hagrees : Agrees decode blocks done.1)
    (h : upgradeRows encode legacyHeights blocks done = .ok result) :
    result.1.map (content decode) = done.1.map (content decode) := by
  induction blocks generalizing done with
  | nil =>
    obtain rfl := Except.ok.inj h
    rfl
  | cons block blocks ih =>
    obtain ⟨hblock, hblocks⟩ := List.forall_mem_cons.mp hdecode
    obtain ⟨hrows, hrest⟩ := List.forall_mem_cons.mp hagrees
    unfold upgradeRows at h
    split at h
    · exact ih hblocks hrest h
    · obtain ⟨encoded, hencoded, h⟩ := bind_eq_ok h
      have hencoded := mapError_eq_ok hencoded
      -- the update leaves no new row of an older format that a later block could disagree with
      have hagrees : Agrees decode blocks (upgradeRow (asI64 block.height) encoded done.1).1 :=
        Agrees.mono hrest fun row hrow hlegacy =>
          ((upgradeRow_spec (hcurrent block encoded hencoded)).2 row hrow hlegacy).1
      have hafter := @ih hblocks (_, done.2 + _) hagrees h
      exact hafter.trans (upgradeRow_content (hblock encoded hencoded) hrows)

end Current

end Update

/-- **Formats and upgrades.** A block is read back from each format it was written in, and a record
whose checksum has changed is not read. An upgrade keeps every current row, those of `store_blocks`
among them, and leaves itself nothing to do. With the blocks of a load from rows in place it keeps
what every range loads, whatever was called since the load. -/
theorem formats_read_back_and_upgrade (codecs : BlockCodecs) :
    (∀ block, codecs.RoundTrips block →
      codecs.ReadsBack codecs.encodeBlock block ∧ codecs.ReadsBack codecs.encodeBlockV1 block) ∧
    (∀ block text, text.head? = some 123 → codecs.fromSlice text = .ok block →
      codecs.decodeBlock text = .ok block) ∧
    (∀ block encoded corrupted, codecs.encodeBlock block = .ok encoded →
      corrupted.take 9 = encoded.take 9 →
      codecs.crc32 (corrupted.drop 9) ≠ codecs.crc32 (encoded.drop 9) →
      codecs.decodeBlock corrupted =
        .error (.storage "Compact-block cache record failed its integrity check")) ∧
    (∀ cache blocks stored, storeBlocks codecs.encodeBlock cache blocks = .ok stored →
      ∀ block ∈ blocks, ∀ row ∈ stored.blocks, row.height = asI64 block.height → row.IsCurrent) ∧
    (∀ cache blocks legacyHeights count upgraded,
      upgradeLegacyRows codecs.encodeBlock cache blocks legacyHeights = .ok (count, upgraded) →
      (∀ row ∈ cache.blocks, row.IsCurrent → row ∈ upgraded.blocks) ∧
      ∀ calls, upgradeLegacyRows codecs.encodeBlock
          (Runs.run (step codecs.encodeBlock) upgraded calls) blocks legacyHeights =
        .ok (0, Runs.run (step codecs.encodeBlock) upgraded calls)) ∧
    ∀ (cache : BlockCache) start stop loaded, stop ≤ u64Max →
      cache.InPlace codecs.decodeBlock start stop →
      cache.Loads codecs.decodeBlock start stop loaded →
      (∀ block ∈ loaded.blocks, codecs.RoundTrips block) →
      ∀ calls legacyHeights, ∃ count upgraded,
        upgradeLegacyRows codecs.encodeBlock (Runs.run (step codecs.encodeBlock) cache calls)
          loaded.blocks legacyHeights = .ok (count, upgraded) ∧
        ∀ first last, upgraded.loadRange codecs.decodeBlock first last =
          (Runs.run (step codecs.encodeBlock) cache calls).loadRange codecs.decodeBlock
            first last := by
  have hcurrent : ∀ block encoded, codecs.encodeBlock block = .ok encoded →
      encoded.take 5 = CACHE_RECORD_MAGIC := fun _ _ => BlockCodecs.take_encodeBlock
  refine ⟨fun block h => ⟨h.readsBack, h.readsBackV1⟩,
    fun block text hobject => BlockCodecs.decodeBlock_json hobject,
    fun block encoded corrupted => BlockCodecs.decodeBlock_corrupted, ?_, ?_, ?_⟩
  · -- the rows that `store_blocks` writes
    intro cache blocks stored hstored block hblock row hrow hheight
    by_contra hlegacy
    rcases storeBlocks_eq_ok hstored with ⟨rfl, -⟩ | ⟨-, -, -, hrows, -⟩
    · cases hblock
    · exact (storeRows_legacy hcurrent hrows row hrow hlegacy).2 block hblock hheight
  · -- an upgrade, and the same upgrade again
    intro cache blocks legacyHeights count upgraded h
    refine ⟨?_, upgradeLegacyRows_again hcurrent h⟩
    rcases upgradeLegacyRows_rows h with ⟨-, rfl⟩ | ⟨-, hrows⟩
    · exact fun row hrow _ => hrow
    · exact (upgradeRows_spec hcurrent hrows).1
  · -- a load, any calls, and the upgrade of what was loaded
    intro cache start stop loaded hstop hplaced hloads hcodec calls legacyHeights
    have hagrees := (hplaced.agrees hloads hstop).mono (legacyWithin_run hcurrent cache calls)
    obtain ⟨later, hlater⟩ : ∃ later, later = Runs.run (step codecs.encodeBlock) cache calls :=
      ⟨_, rfl⟩
    rw [← hlater] at hagrees ⊢
    obtain ⟨result, hresult⟩ := @upgradeRows_ok _ loaded.blocks legacyHeights
      (fun block hblock => (hcodec block hblock).readsBack.imp fun _ h => h.1) (later.blocks, 0)
    have hcontent := upgradeRows_content hcurrent (fun block hblock encoded hencoded => by
      obtain ⟨other, hother, hdecode⟩ := (hcodec block hblock).readsBack
      rwa [Except.ok.inj (hother.symm.trans hencoded)] at hdecode) hagrees hresult
    by_cases hlisted : legacyHeights = []
    · exact ⟨0, later, by rw [hlisted]; rfl, fun first last => rfl⟩
    · refine ⟨result.2, { later with blocks := result.1 }, ?_, loadRange_congr hcontent⟩
      unfold upgradeLegacyRows
      rw [if_neg (by simpa using hlisted), hresult]
      rfl

/-- Two blocks of one height. The first came without a version. -/
def unversionedBlock : CompactBlockData := ⟨0, 2, [1], [], 0, [], []⟩

def versionedBlock : CompactBlockData := ⟨1, 2, [2], [], 0, [], []⟩

/-- Prost and CRC-32 on these blocks. -/
def twoBlockCodecs : BlockCodecs where
  encode block :=
    if block = .ofData unversionedBlock then .ok [16, 2, 26, 1, 1]
    else if block = .ofData versionedBlock then .ok [8, 1, 16, 2, 26, 1, 2]
    else .error "not enough space"
  decode payload :=
    if payload = [16, 2, 26, 1, 1] then .ok (.ofData unversionedBlock)
    else if payload = [8, 1, 16, 2, 26, 1, 2] then .ok (.ofData versionedBlock)
    else .error "invalid tag value: 0"
  crc32 payload :=
    if payload = [16, 2, 26, 1, 1] then 1936101221
    else if payload = [8, 1, 16, 2, 26, 1, 2] then 1234332542
    else 0
  fromSlice _ := .error "expected value at line 1 column 1"

/-- Rows of the first version. -/
def firstVersionCache : BlockCache :=
  ⟨[⟨2, CACHE_RECORD_MAGIC_V1 ++ [8, 1, 16, 2, 26, 1, 2]⟩], []⟩

/-- The block at height 1 is one of height 2. -/
def misplacedCache : BlockCache :=
  ⟨[⟨1, CACHE_RECORD_MAGIC_V1 ++ [16, 2, 26, 1, 1]⟩,
    ⟨2, CACHE_RECORD_MAGIC_V1 ++ [8, 1, 16, 2, 26, 1, 2]⟩], []⟩

theorem formats_read_back_and_upgrade_first_version :
    twoBlockCodecs.ReadsBack twoBlockCodecs.encodeBlockV1 versionedBlock ∧
    ∃ count upgraded,
      upgradeLegacyRows twoBlockCodecs.encodeBlock (Runs.run (step twoBlockCodecs.encodeBlock)
          firstVersionCache [.storeBlocks [unversionedBlock]]) [versionedBlock] [2] =
        .ok (count, upgraded) ∧
      ∀ first last, upgraded.loadRange twoBlockCodecs.decodeBlock first last =
        (Runs.run (step twoBlockCodecs.encodeBlock) firstVersionCache
          [.storeBlocks [unversionedBlock]]).loadRange twoBlockCodecs.decodeBlock first last := by
  have hcodec : twoBlockCodecs.RoundTrips versionedBlock := ⟨[8, 1, 16, 2, 26, 1, 2], rfl, rfl⟩
  have hplaced : firstVersionCache.InPlace twoBlockCodecs.decodeBlock 2 2 := by
    refine ⟨by decide, fun row hrow _ _ block hblock => ?_⟩
    obtain rfl := List.mem_singleton.mp hrow
    obtain rfl : versionedBlock = block := Except.ok.inj hblock
    rfl
  refine ⟨((formats_read_back_and_upgrade twoBlockCodecs).1 _ hcodec).2, ?_⟩
  exact (formats_read_back_and_upgrade twoBlockCodecs).2.2.2.2.2 firstVersionCache 2 2
    ⟨[versionedBlock], [2], 12, 0⟩ (by decide) hplaced (Or.inl rfl) (by simpa using hcodec) _ _

/-- A block without a version is read back without one. With a row that holds a block of another
height, the upgrade of what was just loaded changes what is loaded. -/
theorem upgrade_moves_misplaced_block :
    (unversionedBlock.protoVersion = 0 ∧
      twoBlockCodecs.ReadsBack twoBlockCodecs.encodeBlock unversionedBlock) ∧
    ∃ loaded upgraded,
      misplacedCache.loadRangeForUpgrade twoBlockCodecs.decodeBlock 1 2 = .ok loaded ∧
      upgradeLegacyRows twoBlockCodecs.encodeBlock misplacedCache loaded.blocks
        loaded.legacyHeights = .ok (1, upgraded) ∧
      misplacedCache.loadRange twoBlockCodecs.decodeBlock 1 2 =
        .ok [unversionedBlock, versionedBlock] ∧
      upgraded.loadRange twoBlockCodecs.decodeBlock 1 2 =
        .ok [unversionedBlock, unversionedBlock] ∧
      unversionedBlock ≠ versionedBlock := by
  refine ⟨⟨rfl, _, rfl, rfl⟩, ⟨[unversionedBlock, versionedBlock], [1, 2], 22, 0⟩,
    ⟨[⟨1, CACHE_RECORD_MAGIC_V1 ++ [16, 2, 26, 1, 1]⟩,
      ⟨2, CACHE_RECORD_MAGIC ++ [101, 143, 102, 115, 16, 2, 26, 1, 1]⟩], []⟩, rfl, rfl, rfl, rfl,
    by decide⟩

end BlockCache

end StashiWallet
