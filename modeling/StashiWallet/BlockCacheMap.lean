import StashiWallet.BlockCacheUpgrade

/-!
# The block cache as a map

From an empty cache any calls leave at each height the block that was stored there last, unless it
was deleted since. An upgrade could move blocks only between rows of an older format, and such a
cache has none.
-/

namespace StashiWallet

/-- The block at each height, as the column has it. -/
abbrev BlockMap := Int → Option CompactBlockData

/-- What a call that commits does to the map. -/
def BlockCacheCall.apply (map : BlockMap) : BlockCacheCall → BlockMap
  | .storeBlocks blocks => blocks.foldl (fun map block =>
      Function.update map (asI64 block.height) (some block)) map
  | .deleteRange start stop => fun column =>
      if start ≤ stop ∧ asI64 start ≤ column ∧ column ≤ asI64 stop then none else map column
  | .deleteAbove height => fun column => if asI64 height < column then none else map column
  | .upgradeLegacyRows _ _ | .contiguousEnd _ _ => map

namespace BlockCache

/-- Whether a call commits, as far as it concerns the map. -/
def commits (encode : CompactBlockData → Except String Bytes) (cache : BlockCache) :
    BlockCacheCall → Bool
  | .storeBlocks blocks => (storeBlocks encode cache blocks).isOk
  | .deleteRange start stop => (cache.deleteRange start stop).isOk
  | _ => true

/-- A call on the cache and on the map. -/
def mapStep (encode : CompactBlockData → Except String Bytes) (state : BlockCache × BlockMap)
    (call : BlockCacheCall) : BlockCache × BlockMap :=
  (step encode state.1 call,
    bif state.1.commits encode call then call.apply state.2 else state.2)

/-- The rows are the blocks of the map, in the current format. -/
structure Represents (encode : CompactBlockData → Except String Bytes) (map : BlockMap)
    (rows : List CachedBlockRow) : Prop where
  keys : (rows.map (·.height)).Nodup
  entry : ∀ row ∈ rows, ∃ block, map row.height = some block ∧ encode block = .ok row.data
  total : ∀ column block, map column = some block → ∃ row ∈ rows, row.height = column

/-- A load returns the blocks of the map in the range, in the order of their heights. -/
def ReadsMap (codecs : BlockCodecs) (state : BlockCache × BlockMap) (first last : Nat) : Prop :=
  ∃ columns : List Int, columns.Pairwise (· < ·) ∧
    (∀ column, column ∈ columns ↔ (first : Int) ≤ column ∧ column ≤ asI64 last ∧
      (state.2 column).isSome) ∧
    state.1.loadRange codecs.decodeBlock first last = .ok (columns.filterMap state.2)

variable {encode : CompactBlockData → Except String Bytes} {map : BlockMap} {cache : BlockCache}
  {rows after : List CachedBlockRow} {blocks : List CompactBlockData}

theorem Represents.upsert (h : Represents encode map rows) {block : CompactBlockData}
    {encoded : Bytes} (hencoded : encode block = .ok encoded) :
    Represents encode (Function.update map (asI64 block.height) (some block))
      (upsertRow rows ⟨asI64 block.height, encoded⟩) := by
  refine ⟨(upsertRow_spec _ h.keys).1, fun row hrow => ?_, fun column other hcolumn => ?_⟩
  · rcases List.mem_append.mp hrow with hold | hnew
    · obtain ⟨hmem, hkey⟩ := List.mem_filter.mp hold
      rw [Function.update_of_ne (bne_iff_ne.mp hkey)]
      exact h.entry row hmem
    · rw [List.mem_singleton.mp hnew, Function.update_self]
      exact ⟨block, rfl, hencoded⟩
  · by_cases hsame : column = asI64 block.height
    · exact ⟨_, List.mem_append_right _ (List.mem_singleton_self _), hsame.symm⟩
    · rw [Function.update_of_ne hsame] at hcolumn
      obtain ⟨row, hrow, rfl⟩ := h.total column other hcolumn
      exact ⟨row, List.mem_append_left _ (List.mem_filter.mpr ⟨hrow, bne_iff_ne.mpr hsame⟩), rfl⟩

theorem Represents.storeRows (h : Represents encode map rows)
    (hrows : storeRows encode blocks rows = .ok after) :
    Represents encode ((BlockCacheCall.storeBlocks blocks).apply map) after := by
  induction blocks generalizing map rows with
  | nil =>
    obtain rfl := Except.ok.inj hrows
    exact h
  | cons block blocks ih =>
    obtain ⟨encoded, hencoded, hrows⟩ := bind_eq_ok hrows
    exact ih (h.upsert (mapError_eq_ok hencoded)) hrows

/-- A deletion takes the rows and the blocks of the same heights. -/
theorem Represents.delete (h : Represents encode map rows) {p : Int → Prop} [DecidablePred p]
    {kept : CachedBlockRow → Bool} (hkept : ∀ row, kept row = true ↔ ¬ p row.height) :
    Represents encode (fun column => if p column then none else map column)
      (rows.filter kept) := by
  refine ⟨nodup_filter_heights _ h.keys, fun row hrow => ?_, fun column block hcolumn => ?_⟩
  · obtain ⟨hmem, hrow⟩ := List.mem_filter.mp hrow
    rw [if_neg ((hkept row).mp hrow)]
    exact h.entry row hmem
  · split_ifs at hcolumn with hp
    obtain ⟨row, hrow, rfl⟩ := h.total column block hcolumn
    exact ⟨row, List.mem_filter.mpr ⟨hrow, (hkept row).mpr hp⟩, rfl⟩

theorem upgradeRows_of_current {legacyHeights : List Nat} {done result : List CachedBlockRow × Nat}
    (h : ∀ row ∈ done.1, row.IsCurrent)
    (hresult : upgradeRows encode legacyHeights blocks done = .ok result) : result.1 = done.1 := by
  induction blocks generalizing done with
  | nil =>
    obtain rfl := Except.ok.inj hresult
    rfl
  | cons block blocks ih =>
    unfold upgradeRows at hresult
    split at hresult
    · exact ih h hresult
    · obtain ⟨encoded, -, hresult⟩ := bind_eq_ok hresult
      rw [upgradeRow_of_current encoded fun row hrow _ => h row hrow] at hresult
      exact ih h hresult

/-- **The step lemma.** A call does to the stored rows what it does to the map. -/
theorem Represents.step (hcurrent : ∀ block encoded, encode block = .ok encoded →
      encoded.take 5 = CACHE_RECORD_MAGIC) (h : Represents encode map cache.blocks)
    (call : BlockCacheCall) :
    Represents encode (mapStep encode (cache, map) call).2
      (mapStep encode (cache, map) call).1.blocks := by
  unfold mapStep
  cases call with
  | storeBlocks blocks =>
    dsimp only [BlockCache.step, commits]
    cases hstored : storeBlocks encode cache blocks with
    | error error => exact h
    | ok stored =>
      rcases storeBlocks_eq_ok hstored with ⟨rfl, rfl⟩ | ⟨-, -, -, hrows, -⟩
      · exact h
      · exact h.storeRows hrows
  | upgradeLegacyRows blocks legacyHeights =>
    dsimp only [BlockCache.step, commits]
    cases hupgraded : upgradeLegacyRows encode cache blocks legacyHeights with
    | error error => exact h
    | ok upgraded =>
      rcases upgradeLegacyRows_rows hupgraded with ⟨-, hsame⟩ | ⟨-, hrows⟩
      · show Represents encode map upgraded.2.blocks
        rw [hsame]
        exact h
      · have hlegacy : ∀ row ∈ cache.blocks, row.IsCurrent := fun row hrow => by
          obtain ⟨block, -, hencoded⟩ := h.entry row hrow
          exact hcurrent block _ hencoded
        show Represents encode map upgraded.2.blocks
        rw [show upgraded.2.blocks = cache.blocks from upgradeRows_of_current hlegacy hrows]
        exact h
  | deleteRange start stop =>
    dsimp only [BlockCache.step, commits]
    cases hdeleted : cache.deleteRange start stop with
    | error error => exact h
    | ok deleted =>
      rcases deleteRange_eq_ok hdeleted with ⟨hempty, hsame⟩ | ⟨hrange, -, hblocks⟩
      · have hmap : (BlockCacheCall.deleteRange start stop).apply map = map :=
          funext fun column => if_neg fun hcovers => absurd hcovers.1 (not_le.mpr hempty)
        show Represents encode _ deleted.2.blocks
        rw [hsame, Except.isOk, Except.toBool, cond_true, hmap]
        exact h
      · show Represents encode _ deleted.2.blocks
        rw [hblocks]
        exact h.delete (p := fun column => start ≤ stop ∧ asI64 start ≤ column ∧
          column ≤ asI64 stop) fun row => by simp [hrange]; omega
  | deleteAbove height =>
    exact h.delete (p := fun column => asI64 height < column) fun row => by simp
  | contiguousEnd start stop =>
    dsimp only [BlockCache.step, commits]
    cases hfound : cache.contiguousEnd start stop with
    | error error => exact h
    | ok found =>
      show Represents encode map found.2.blocks
      rw [contiguousEnd_blocks hfound]
      exact h

theorem foldlM_loadRow {decode : Bytes → Except StorageError CompactBlockData}
    {loaded : LoadedBlockRange}
    (h : ∀ row ∈ rows, 0 ≤ row.height ∧ ∃ block, map row.height = some block ∧
      decode row.data = .ok block) :
    (rows.foldlM (loadRow decode) loaded).map (·.blocks) =
      .ok (loaded.blocks ++ (rows.map (·.height)).filterMap map) := by
  induction rows generalizing loaded with
  | nil => exact congrArg Except.ok (List.append_nil _).symm
  | cons row rows ih =>
    obtain ⟨⟨hheight, block, hmap, hdecode⟩, hrest⟩ := List.forall_mem_cons.mp h
    rw [List.foldlM_cons, loadRow, heightOfColumn, if_pos hheight, hdecode, List.map_cons,
      List.filterMap_cons_some hmap]
    exact (ih hrest).trans (by simp [LoadedBlockRange.push])

theorem Represents.readsMap {codecs : BlockCodecs} {first last : Nat}
    (h : Represents codecs.encodeBlock map cache.blocks) (hfirst : first ≤ i64Max)
    (hcodec : ∀ column block, map column = some block → codecs.RoundTrips block) :
    ReadsMap codecs (cache, map) first last := by
  have hcast := asI64_of_le hfirst
  unfold ReadsMap BlockCache.loadRange loadRangeForUpgrade
  by_cases hempty : first > last
  · refine ⟨[], List.Pairwise.nil, fun column => ?_, by rw [if_pos hempty]; rfl⟩
    rw [asI64_of_le (hempty.le.trans hfirst)]
    simp only [List.not_mem_nil, false_iff]
    omega
  · refine ⟨(cache.rowsBetween first last).map (·.height),
      List.pairwise_map.mpr (rowsBetween_sorted h.keys first last), fun column => ?_, ?_⟩
    · rw [List.mem_map, ← hcast]
      constructor
      · rintro ⟨row, hrow, rfl⟩
        obtain ⟨hmem, hlow, hhigh⟩ := rowsBetween_le hrow
        obtain ⟨block, hblock, -⟩ := h.entry row hmem
        exact ⟨hlow, hhigh, Option.isSome_of_mem hblock⟩
      · rintro ⟨hlow, hhigh, hsome⟩
        obtain ⟨block, hblock⟩ := Option.isSome_iff_exists.mp hsome
        obtain ⟨row, hrow, rfl⟩ := h.total column block hblock
        refine ⟨row, ?_, rfl⟩
        unfold rowsBetween
        rw [List.mem_insertionSort, List.mem_filter, decide_eq_true hlow, decide_eq_true hhigh]
        exact ⟨hrow, rfl⟩
    · rw [if_neg hempty]
      refine foldlM_loadRow fun row hrow => ?_
      obtain ⟨hmem, hlow, -⟩ := rowsBetween_le hrow
      obtain ⟨block, hblock, hencoded⟩ := h.entry row hmem
      obtain ⟨encoded, hwritten, hdecode⟩ := (hcodec _ _ hblock).readsBack
      refine ⟨hcast.symm.le.trans' (Int.natCast_nonneg first) |>.trans hlow, block, hblock, ?_⟩
      rwa [Except.ok.inj (hencoded.symm.trans hwritten)]

/-- The cache and the map after calls on an empty cache. -/
def mapRun (encode : CompactBlockData → Except String Bytes) (calls : List BlockCacheCall) :
    BlockCache × BlockMap :=
  Runs.run (mapStep encode) (⟨[], []⟩, fun _ => none) calls

theorem represents_mapRun (codecs : BlockCodecs) (calls : List BlockCacheCall) :
    Represents codecs.encodeBlock (mapRun codecs.encodeBlock calls).2
      (mapRun codecs.encodeBlock calls).1.blocks := by
  refine (Runs.run_invariant_always (P := fun state : BlockCache × BlockMap =>
    Represents codecs.encodeBlock state.2 state.1.blocks) ?_ ?_ calls).last
  · exact fun state call h => h.step (fun _ _ => BlockCodecs.take_encodeBlock) call
  · exact ⟨List.nodup_nil, List.forall_mem_nil _, nofun⟩

/-- **The cache is a map.** After any calls on an empty cache every load reads the map, if Prost
reads back its blocks. -/
theorem cache_is_map (codecs : BlockCodecs) (calls : List BlockCacheCall) {first last : Nat}
    (hfirst : first ≤ i64Max)
    (hcodec : ∀ column block, (mapRun codecs.encodeBlock calls).2 column = some block →
      codecs.RoundTrips block) :
    ReadsMap codecs (mapRun codecs.encodeBlock calls) first last :=
  (represents_mapRun codecs calls).readsMap hfirst hcodec

/-- The block at height 2 is replaced, and a deletion above it leaves it. -/
theorem cache_is_map_replaced :
    ReadsMap twoBlockCodecs (mapRun twoBlockCodecs.encodeBlock [.storeBlocks [unversionedBlock],
      .storeBlocks [versionedBlock], .deleteAbove 2]) 1 5 := by
  refine cache_is_map twoBlockCodecs _ (by decide) fun column block hblock => ?_
  have hmap : (if asI64 2 < column then none else Function.update (Function.update
      (fun _ => none : BlockMap) 2 (some unversionedBlock)) 2 (some versionedBlock) column) =
      some block := hblock
  split_ifs at hmap
  by_cases hcolumn : column = 2
  · rw [hcolumn, Function.update_self] at hmap
    obtain rfl := Option.some.inj hmap
    exact ⟨[8, 1, 16, 2, 26, 1, 2], rfl, rfl⟩
  · rw [Function.update_of_ne hcolumn, Function.update_of_ne hcolumn] at hmap
    cases hmap

end BlockCache

end StashiWallet
