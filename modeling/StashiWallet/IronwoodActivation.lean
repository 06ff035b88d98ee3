import StashiWallet.OrderedStream

/-!
# The Ironwood activation height

On mainnet the height of the Ironwood upgrade follows from the block times: it is a fixed number of
blocks after the first block past a timestamp. Block times are not monotonic. A client looks for
some block past the timestamp by binary search, loads the blocks below it back to the last one that
is older than a day before the timestamp, and takes the first crossing in that window.
-/

namespace StashiWallet

/-- `Network`, as far as Ironwood goes. -/
structure IronwoodNetwork where
  saplingActivationHeight : Nat
  ironwoodActivationHeight : Option Nat
  ironwoodActivationTimestamp : Option Nat
  ironwoodActivationDelay : Nat
deriving DecidableEq, Repr

namespace IronwoodNetwork

def deriveIronwoodActivationHeight (network : IronwoodNetwork)
    (previousTime currentHeight currentTime : Nat) : Option Nat :=
  match network.ironwoodActivationTimestamp with
  | some timestamp =>
    if previousTime ≤ timestamp ∧ timestamp < currentTime then
      if currentHeight + network.ironwoodActivationDelay ≤ u32Max then
        some (currentHeight + network.ironwoodActivationDelay)
      else none
    else none
  | none => none

end IronwoodNetwork

/-- `LightClient`, as far as it hands out blocks. -/
structure BlockSource where
  getBlock : Nat → Except ClientError CompactBlockData
  getCompactBlockRange : Nat → Nat → Except ClientError (List CompactBlockData)

/-- `FULL_NODE_LOOKBACK_BLOCKS`. -/
def fullNodeLookbackBlocks : Nat := 30

/-- `FULL_NODE_SEARCH_WINDOW_SECONDS`. -/
def fullNodeSearchWindowSeconds : Nat := 24 * 60 * 60

/-- `SEARCH_CHUNK_BLOCKS`. -/
def searchChunkBlocks : Nat := 2048

def getBlockAt (source : BlockSource) (height : Nat) : Except ClientError CompactBlockData := do
  let block ← source.getBlock height
  if block.height ≠ height then
    .error (.network (s!"Timestamp activation search requested height {height}, " ++
      s!"server returned {block.height}"))
  else .ok block

/-- The loop of `validate_contiguous_segment`. -/
def validateHeights : Nat → List CompactBlockData → Except ClientError Unit
  | _, [] => .ok ()
  | expectedHeight, block :: rest =>
    if block.height ≠ expectedHeight then
      .error (.network (s!"Timestamp activation search returned height {block.height}, " ++
        s!"expected {expectedHeight}"))
    else validateHeights (expectedHeight + 1) rest

def validateContiguousSegment (start endExclusive : Nat) (blocks : List CompactBlockData) :
    Except ClientError Unit :=
  if blocks.length ≠ endExclusive - start then
    .error (.network (s!"Timestamp activation search returned {blocks.length} blocks for " ++
      s!"{start}..{endExclusive}, expected {endExclusive - start}"))
  else validateHeights start blocks

def deriveActivationFromBlocks (network : IronwoodNetwork) :
    List CompactBlockData → Except ClientError (Option Nat)
  | previous :: current :: rest =>
    if previous.height + 1 ≠ current.height then
      .error (.network (s!"Non-contiguous timestamp transition at heights {previous.height} " ++
        s!"and {current.height}"))
    else if u32Max < current.height then
      .error (.network s!"Block height out of range: {current.height}")
    else
      match network.deriveIronwoodActivationHeight previous.time current.height current.time with
      | some height => .ok (some height)
      | none => deriveActivationFromBlocks network (current :: rest)
  | _ => .ok none

def rposition (p : CompactBlockData → Bool) (blocks : List CompactBlockData) : Option Nat :=
  (blocks.reverse.findIdx? p).map fun index => blocks.length - 1 - index

/-- The loop of `load_transition_window`, which fetches chunks from the top down. Each chunk ends
below the last, so `cursor` rounds are enough. -/
def loadSegments (source : BlockSource) (sapling chunkBlocks cutoff : Nat) :
    Nat → Nat → Except ClientError (List CompactBlockData)
  | 0, _ => .ok []
  | fuel + 1, cursor =>
    if sapling < cursor then do
      let start := max (cursor - chunkBlocks) sapling
      let segment ← source.getCompactBlockRange start cursor
      validateContiguousSegment start cursor segment
      match rposition (fun block => decide (block.time < cutoff)) segment with
      | some stopIndex => .ok (segment.drop stopIndex)
      | none =>
        if start = sapling then .ok segment
        else do
          let below ← loadSegments source sapling chunkBlocks cutoff fuel start
          .ok (below ++ segment)
    else .ok []

def loadTransitionWindow (source : BlockSource) (network : IronwoodNetwork)
    (endExclusive timestamp : Nat) : Except ClientError (List CompactBlockData) :=
  loadSegments source network.saplingActivationHeight searchChunkBlocks
    (timestamp - fullNodeSearchWindowSeconds) endExclusive endExclusive

/-- The binary search of `discover_mainnet_activation_height`. Each round leaves fewer heights, so
`high - low` rounds are enough. -/
def searchCrossing (source : BlockSource) (timestamp : Nat) :
    Nat → Nat → Nat → Except ClientError Nat
  | 0, low, _ => .ok low
  | fuel + 1, low, high =>
    if low < high then do
      let midpoint := low + (high - low) / 2
      let block ← getBlockAt source midpoint
      if timestamp < block.time then searchCrossing source timestamp fuel low midpoint
      else searchCrossing source timestamp fuel (min (midpoint + 1) u32Max) high
    else .ok low

def discoverMainnetActivationHeight (source : BlockSource) (tipHeight : Nat)
    (network : IronwoodNetwork) : Except ClientError (Option Nat) :=
  match network.ironwoodActivationTimestamp with
  | none => .ok network.ironwoodActivationHeight
  | some timestamp =>
    if tipHeight ≤ fullNodeLookbackBlocks then .ok none
    else do
      let stableHeight := tipHeight - fullNodeLookbackBlocks
      let stableBlock ← getBlockAt source stableHeight
      if stableBlock.time ≤ timestamp then .ok none
      else do
        let low ← searchCrossing source timestamp
          (stableHeight - network.saplingActivationHeight) network.saplingActivationHeight
          stableHeight
        let crossingNeighborhood ← getBlockAt source low
        if crossingNeighborhood.time ≤ timestamp then .ok none
        else do
          let blocks ← loadTransitionWindow source network low timestamp
          if blocks.getLast?.all (fun block => block.height + 1 ≠ crossingNeighborhood.height) then
            .error (.network
              "Timestamp activation search returned a non-contiguous boundary")
          else deriveActivationFromBlocks network (blocks ++ [crossingNeighborhood])

def knownActivationIsCanonical (source : BlockSource) (tipHeight : Nat)
    (network : IronwoodNetwork) (activationHeight : Nat) : Except ClientError Bool :=
  match network.ironwoodActivationTimestamp with
  | none => .ok (network.ironwoodActivationHeight == some activationHeight)
  | some timestamp =>
    if activationHeight < network.ironwoodActivationDelay then .ok false
    else
      let crossingHeight := activationHeight - network.ironwoodActivationDelay
      if tipHeight < crossingHeight then .ok true
      else if u32Max < crossingHeight + 1 then
        .error (.network "Ironwood crossing height overflow")
      else do
        let blocks ← loadTransitionWindow source network (crossingHeight + 1) timestamp
        let derived ← deriveActivationFromBlocks network blocks
        .ok (derived == some activationHeight)

/-! ## A chain of block times -/

section Chain

variable (chain : Nat → CompactBlockData)

/-- The blocks of the chain from `start` on and below `stop`. -/
def chainSegment (start stop : Nat) : List CompactBlockData :=
  (List.range' start (stop - start)).map chain

/-- The source hands out the blocks of the chain up to its tip. -/
structure BlockSource.Serves (source : BlockSource) (tip : Nat) : Prop where
  heights : ∀ height, (chain height).height = height
  block : ∀ height ≤ tip, source.getBlock height = .ok (chain height)
  range : ∀ start stop, start ≤ stop → stop ≤ tip + 1 →
    source.getCompactBlockRange start stop = .ok (chainSegment chain start stop)

/-- The block is past the timestamp, and the one below it is not. -/
def Crosses (timestamp height : Nat) : Prop :=
  (chain (height - 1)).time ≤ timestamp ∧ timestamp < (chain height).time

/-- The first crossing above a height. -/
structure FirstCrossing (timestamp start crossing : Nat) : Prop where
  above : start < crossing
  crosses : Crosses chain timestamp crossing
  first : ∀ height, start < height → height < crossing → ¬ Crosses chain timestamp height

/-- Where the window below a height starts: at its last block before the cutoff, or where the
search starts. -/
structure WindowStart (sapling cutoff stop start : Nat) : Prop where
  low : sapling ≤ start
  old : start = sapling ∨ (start < stop ∧ (chain start).time < cutoff)
  recent : ∀ height, start < height → height < stop → cutoff ≤ (chain height).time

variable {chain} {timestamp start stop sapling cutoff tip : Nat} {source : BlockSource}
  {network : IronwoodNetwork}

theorem FirstCrossing.unique {first second : Nat} (h : FirstCrossing chain timestamp start first)
    (h' : FirstCrossing chain timestamp start second) : first = second := by
  rcases Nat.lt_trichotomy first second with hlt | heq | hgt
  · exact absurd h.crosses (h'.first first h.above hlt)
  · exact heq
  · exact absurd h'.crosses (h.first second h'.above hgt)

theorem length_chainSegment : (chainSegment chain start stop).length = stop - start := by
  unfold chainSegment
  rw [List.length_map, List.length_range']

theorem chainSegment_append {middle : Nat} (hstart : start ≤ middle) (hstop : middle ≤ stop) :
    chainSegment chain start middle ++ chainSegment chain middle stop =
      chainSegment chain start stop := by
  unfold chainSegment
  rw [← List.map_append]
  congr 1
  have hlength : stop - start = (middle - start) + (stop - middle) := by omega
  rw [hlength, ← List.range'_append, Nat.one_mul, Nat.add_sub_cancel' hstart]

theorem chainSegment_drop (n : Nat) :
    (chainSegment chain start stop).drop n = chainSegment chain (start + n) stop := by
  unfold chainSegment
  rw [← List.map_drop, List.drop_range', Nat.mul_one, Nat.sub_sub]

theorem getElem?_chainSegment {i : Nat} (h : i < stop - start) :
    (chainSegment chain start stop)[i]? = some (chain (start + i)) := by
  unfold chainSegment
  rw [List.getElem?_map, List.getElem?_range' h, Nat.one_mul]
  rfl

theorem chainSegment_succ (h : start < stop) :
    chainSegment chain start stop = chain start :: chainSegment chain (start + 1) stop := by
  unfold chainSegment
  obtain ⟨n, hn⟩ := Nat.exists_eq_add_of_lt h
  have hlength : stop - start = n + 1 := by omega
  have hrest : stop - (start + 1) = n := by omega
  rw [hlength, hrest, List.range'_succ, List.map_cons]

theorem validateHeights_chain (hheights : ∀ height, (chain height).height = height) (n start : Nat) :
    validateHeights start ((List.range' start n).map chain) = .ok () := by
  induction n generalizing start with
  | zero => rfl
  | succ n ih =>
    rw [List.range'_succ, List.map_cons]
    unfold validateHeights
    rw [if_neg (not_not_intro (hheights start))]
    exact ih (start + 1)

theorem validateContiguousSegment_chain (hheights : ∀ height, (chain height).height = height) :
    validateContiguousSegment start stop (chainSegment chain start stop) = .ok () := by
  unfold validateContiguousSegment
  rw [if_neg (not_not_intro length_chainSegment)]
  exact validateHeights_chain hheights _ _

theorem getBlockAt_chain (h : source.Serves chain tip) {height : Nat} (hheight : height ≤ tip) :
    getBlockAt source height = .ok (chain height) := by
  unfold getBlockAt
  rw [h.block height hheight]
  exact if_neg (not_not_intro (h.heights height))

/-! ## The window -/

theorem rposition_eq_some {p : CompactBlockData → Bool} {blocks : List CompactBlockData} {i : Nat}
    (h : rposition p blocks = some i) :
    (∃ block, blocks[i]? = some block ∧ p block = true) ∧
      ∀ j block, i < j → blocks[j]? = some block → p block = false := by
  obtain ⟨k, hk, rfl⟩ := Option.map_eq_some_iff.mp h
  obtain ⟨hlt, hfound, hbefore⟩ := List.findIdx?_eq_some_iff_getElem.mp hk
  rw [List.length_reverse] at hlt
  constructor
  · refine ⟨blocks[blocks.length - 1 - k], List.getElem?_eq_getElem _, ?_⟩
    rwa [List.getElem_reverse] at hfound
  · intro j block hj hblock
    obtain ⟨hjlt, rfl⟩ := List.getElem?_eq_some_iff.mp hblock
    have hnot := hbefore (blocks.length - 1 - j) (by omega)
    rw [List.getElem_reverse] at hnot
    have hindex : blocks.length - 1 - (blocks.length - 1 - j) = j := by omega
    simp only [hindex] at hnot
    exact Bool.eq_false_iff.mpr hnot

theorem rposition_eq_none {p : CompactBlockData → Bool} {blocks : List CompactBlockData}
    (h : rposition p blocks = none) {i : Nat} {block : CompactBlockData}
    (hblock : blocks[i]? = some block) : p block = false := by
  have hnone := List.findIdx?_eq_none_iff.mp (Option.map_eq_none_iff.mp h)
  exact hnone block (List.mem_reverse.mpr (List.mem_of_getElem? hblock))

theorem chainSegment_of_le (h : stop ≤ start) : chainSegment chain start stop = [] := by
  unfold chainSegment
  rw [Nat.sub_eq_zero_of_le h]
  rfl

theorem ok_bind {α β : Type} (a : α) (f : α → Except ClientError β) :
    (Except.ok a >>= f) = f a := rfl

theorem loadSegments_empty (source : BlockSource) (sapling chunkBlocks cutoff fuel : Nat) :
    loadSegments source sapling chunkBlocks cutoff fuel sapling = .ok [] := by
  cases fuel with
  | zero => rfl
  | succ fuel =>
    unfold loadSegments
    exact if_neg (Nat.lt_irrefl _)

/-- The window is loaded whole, however it is cut into chunks. -/
theorem loadSegments_chain (h : source.Serves chain tip) {chunkBlocks : Nat}
    (hchunk : 0 < chunkBlocks) {fuel cursor : Nat} (hfuel : cursor ≤ fuel)
    (hcursor : cursor ≤ tip + 1) :
    ∃ start, WindowStart chain sapling cutoff cursor start ∧
      loadSegments source sapling chunkBlocks cutoff fuel cursor =
        .ok (chainSegment chain start cursor) := by
  have hempty : cursor ≤ sapling → WindowStart chain sapling cutoff cursor sapling :=
    fun hle => ⟨le_rfl, .inl rfl, fun height hlow hhigh => by omega⟩
  induction fuel generalizing cursor with
  | zero =>
    obtain rfl := Nat.le_zero.mp hfuel
    exact ⟨sapling, hempty (Nat.zero_le _), (congrArg _ (chainSegment_of_le (Nat.zero_le _))).symm⟩
  | succ fuel ih =>
    unfold loadSegments
    by_cases hbelow : sapling < cursor
    · rw [if_pos hbelow]
      dsimp only
      have hstart : max (cursor - chunkBlocks) sapling < cursor := by omega
      have hsapling : sapling ≤ max (cursor - chunkBlocks) sapling := le_max_right _ _
      generalize max (cursor - chunkBlocks) sapling = start at *
      rw [h.range start cursor (by omega) hcursor, ok_bind,
        validateContiguousSegment_chain h.heights, ok_bind]
      cases hposition : rposition (fun block => decide (block.time < cutoff))
          (chainSegment chain start cursor) with
      | some index =>
        obtain ⟨⟨block, hblock, hold⟩, hlater⟩ := rposition_eq_some hposition
        have hindex : index < cursor - start := by
          have hlt := (List.getElem?_eq_some_iff.mp hblock).1
          rwa [length_chainSegment] at hlt
        rw [getElem?_chainSegment hindex] at hblock
        obtain rfl := Option.some.inj hblock
        refine ⟨start + index, ⟨by omega, .inr ⟨by omega, of_decide_eq_true hold⟩, ?_⟩, ?_⟩
        · intro height hlow hhigh
          have hlater := hlater (height - start) (chain height) (by omega) (by
            rw [getElem?_chainSegment (by omega), Nat.add_sub_cancel' (by omega)])
          exact Nat.le_of_not_lt (of_decide_eq_false hlater)
        · exact congrArg _ (chainSegment_drop index)
      | none =>
        have hrecent : ∀ height, start ≤ height → height < cursor →
            cutoff ≤ (chain height).time := by
          intro height hlow hhigh
          have hnot := rposition_eq_none hposition (i := height - start) (by
            rw [getElem?_chainSegment (by omega)])
          rw [Nat.add_sub_cancel' hlow] at hnot
          exact Nat.le_of_not_lt (of_decide_eq_false hnot)
        dsimp only
        split
        · rename_i heq
          subst heq
          exact ⟨start, ⟨le_rfl, .inl rfl, fun height hlow => hrecent height hlow.le⟩, rfl⟩
        · obtain ⟨found, hfound, hload⟩ := @ih start (by omega) (by omega)
            fun hle => ⟨le_rfl, .inl rfl, fun height hlow hhigh => by omega⟩
          have hle : found ≤ start := by
            rcases hfound.old with rfl | ⟨hlt, -⟩
            · exact hsapling
            · exact hlt.le
          refine ⟨found, ⟨hfound.low, ?_, ?_⟩, ?_⟩
          · exact hfound.old.imp_right fun hold => ⟨hold.1.trans hstart, hold.2⟩
          · intro height hlow hhigh
            by_cases hin : start ≤ height
            · exact hrecent height hin hhigh
            · exact hfound.recent height hlow (by omega)
          · rw [hload, ok_bind, chainSegment_append hle hstart.le]
    · rw [if_neg hbelow]
      have hle : cursor ≤ sapling := Nat.le_of_not_lt hbelow
      exact ⟨sapling, hempty hle, (congrArg _ (chainSegment_of_le hle)).symm⟩

theorem loadTransitionWindow_chain (h : source.Serves chain tip) {endExclusive : Nat}
    (hend : endExclusive ≤ tip + 1) :
    ∃ start, WindowStart chain network.saplingActivationHeight
        (timestamp - fullNodeSearchWindowSeconds) endExclusive start ∧
      loadTransitionWindow source network endExclusive timestamp =
        .ok (chainSegment chain start endExclusive) :=
  loadSegments_chain h (by decide) le_rfl hend

/-! ## The first crossing of a window -/

/-- The blocks of a window give its first crossing. -/
theorem derive_chain (hheights : ∀ height, (chain height).height = height)
    (htimestamp : network.ironwoodActivationTimestamp = some timestamp) {stop start : Nat}
    (hstop : stop ≤ u32Max + 1) :
    (∃ crossing, FirstCrossing chain timestamp start crossing ∧ crossing < stop ∧
        crossing + network.ironwoodActivationDelay ≤ u32Max ∧
        deriveActivationFromBlocks network (chainSegment chain start stop) =
          .ok (some (crossing + network.ironwoodActivationDelay))) ∨
      (deriveActivationFromBlocks network (chainSegment chain start stop) = .ok none ∧
        ∀ crossing, start < crossing → crossing < stop → Crosses chain timestamp crossing →
          u32Max < crossing + network.ironwoodActivationDelay) := by
  obtain ⟨n, hn⟩ : ∃ n, stop - start = n := ⟨_, rfl⟩
  induction n generalizing start with
  | zero =>
    right
    rw [chainSegment_of_le (Nat.le_of_sub_eq_zero hn)]
    exact ⟨rfl, fun crossing hlow hhigh => by omega⟩
  | succ n ih =>
    have hlast : start + 1 = stop ∨ start + 1 < stop := by omega
    rw [chainSegment_succ (by omega)]
    rcases hlast with rfl | hmore
    · right
      rw [chainSegment_of_le le_rfl]
      exact ⟨rfl, fun crossing hlow hhigh => by omega⟩
    have hrest := @ih (start + 1) (by omega)
    rw [chainSegment_succ hmore] at hrest ⊢
    unfold deriveActivationFromBlocks
    rw [if_neg (by rw [hheights, hheights, not_not]), if_neg (by rw [hheights]; omega)]
    unfold IronwoodNetwork.deriveIronwoodActivationHeight
    rw [htimestamp, hheights]
    dsimp only
    have hcross : Crosses chain timestamp (start + 1) ↔
        (chain start).time ≤ timestamp ∧ timestamp < (chain (start + 1)).time := Iff.rfl
    by_cases hcrosses : Crosses chain timestamp (start + 1)
    · rw [if_pos (hcross.mp hcrosses)]
      by_cases hfits : start + 1 + network.ironwoodActivationDelay ≤ u32Max
      · left
        rw [if_pos hfits]
        refine ⟨start + 1, ⟨Nat.lt_succ_self start, hcrosses, ?_⟩, hmore, hfits, rfl⟩
        exact fun height hlow hhigh => by omega
      · -- a crossing whose height is out of range is passed over, and so are all above it
        right
        rw [if_neg hfits]
        rcases hrest with ⟨crossing, hcrossing, -, hbound, -⟩ | ⟨hnone, -⟩
        · have habove := hcrossing.above
          omega
        · exact ⟨hnone, fun crossing hlow _ _ => by omega⟩
    · rw [if_neg (mt hcross.mpr hcrosses)]
      rcases hrest with ⟨crossing, hcrossing, hinside, hbound, hderive⟩ | ⟨hnone, habove⟩
      · left
        refine ⟨crossing, ⟨Nat.lt_of_succ_lt hcrossing.above, hcrossing.crosses, ?_⟩, hinside,
          hbound, hderive⟩
        intro height hlow hhigh
        rcases Nat.eq_or_lt_of_le (Nat.succ_le_of_lt hlow) with rfl | hlater
        · exact hcrosses
        · exact hcrossing.first height hlater hhigh
      · right
        refine ⟨hnone, fun crossing hlow hhigh hcross => ?_⟩
        rcases Nat.eq_or_lt_of_le (Nat.succ_le_of_lt hlow) with rfl | hlater
        · exact absurd hcross hcrosses
        · exact habove crossing hlater hhigh hcross

/-! ## The search -/

variable (h : source.Serves chain tip) (htip : tip ≤ u32Max)

include h htip

/-- The search ends at a block past the timestamp. -/
theorem searchCrossing_chain {fuel low high : Nat} (hfuel : high - low ≤ fuel) (hle : low ≤ high)
    (hhigh : high ≤ tip) (hpast : timestamp < (chain high).time) :
    ∃ found, low ≤ found ∧ found ≤ high ∧ timestamp < (chain found).time ∧
      searchCrossing source timestamp fuel low high = .ok found := by
  induction fuel generalizing low high with
  | zero =>
    obtain rfl : low = high := by omega
    exact ⟨low, le_rfl, le_rfl, hpast, rfl⟩
  | succ fuel ih =>
    unfold searchCrossing
    by_cases hlt : low < high
    · rw [if_pos hlt]
      dsimp only
      have hmidpoint : low + (high - low) / 2 < high := by omega
      have hlow : low ≤ low + (high - low) / 2 := Nat.le_add_right _ _
      generalize low + (high - low) / 2 = midpoint at *
      rw [getBlockAt_chain h (by omega), ok_bind]
      split
      · rename_i hmid
        obtain ⟨found, hfound, hbelow, hrest⟩ := @ih low midpoint (by omega) hlow (by omega) hmid
        exact ⟨found, hfound, hbelow.trans hmidpoint.le, hrest⟩
      · rw [Nat.min_eq_left (by omega)]
        obtain ⟨found, hfound, hrest⟩ := @ih (midpoint + 1) high (by omega) hmidpoint hhigh hpast
        exact ⟨found, by omega, hrest⟩
    · rw [if_neg hlt]
      obtain rfl : low = high := by omega
      exact ⟨low, le_rfl, le_rfl, hpast, rfl⟩

/-- What a discovery does: from a tip whose stable block is past the timestamp it finds some block
past it, and derives the height from the window below. -/
theorem discover_chain (htimestamp : network.ironwoodActivationTimestamp = some timestamp)
    (hlookback : fullNodeLookbackBlocks < tip)
    (hstable : timestamp < (chain (tip - fullNodeLookbackBlocks)).time)
    (hsapling : network.saplingActivationHeight ≤ tip - fullNodeLookbackBlocks) :
    ∃ found start, network.saplingActivationHeight ≤ found ∧
      found ≤ tip - fullNodeLookbackBlocks ∧ timestamp < (chain found).time ∧
      WindowStart chain network.saplingActivationHeight
        (timestamp - fullNodeSearchWindowSeconds) found start ∧
      if found = network.saplingActivationHeight then
        ∃ error, discoverMainnetActivationHeight source tip network = .error error
      else
        discoverMainnetActivationHeight source tip network =
          deriveActivationFromBlocks network (chainSegment chain start (found + 1)) := by
  obtain ⟨found, hlow, hhigh, hpast, hsearch⟩ := searchCrossing_chain h htip
    (Nat.le_refl (tip - fullNodeLookbackBlocks - network.saplingActivationHeight)) hsapling
    (Nat.sub_le _ _) hstable
  have hfound : found ≤ tip := hhigh.trans (Nat.sub_le _ _)
  obtain ⟨start, hstart, hload⟩ := @loadTransitionWindow_chain chain timestamp tip source network h
    found (by omega)
  refine ⟨found, start, hlow, hhigh, hpast, hstart, ?_⟩
  have hdiscover : discoverMainnetActivationHeight source tip network =
      if (chainSegment chain start found).getLast?.all
          (fun block => decide (block.height + 1 ≠ (chain found).height)) then
        .error (.network "Timestamp activation search returned a non-contiguous boundary")
      else deriveActivationFromBlocks network
        (chainSegment chain start found ++ [chain found]) := by
    unfold discoverMainnetActivationHeight
    rw [htimestamp]
    dsimp only
    rw [if_neg (Nat.not_le_of_lt hlookback), getBlockAt_chain h (Nat.sub_le _ _), ok_bind,
      if_neg (Nat.not_le_of_lt hstable), hsearch, ok_bind, getBlockAt_chain h hfound, ok_bind,
      if_neg (Nat.not_le_of_lt hpast), hload, ok_bind]
  rw [hdiscover]
  split
  · rename_i heq
    have hempty : chainSegment chain start found = [] :=
      chainSegment_of_le (heq ▸ hstart.low)
    rw [hempty]
    exact ⟨_, rfl⟩
  · rename_i hne
    have hinside : start < found := by
      rcases hstart.old with rfl | ⟨hlt, -⟩
      · omega
      · exact hlt
    have hend : chainSegment chain (found - 1) found = [chain (found - 1)] := by
      rw [chainSegment_succ (by omega), chainSegment_of_le (by omega)]
    have hlast : (chainSegment chain start found).getLast? = some (chain (found - 1)) := by
      rw [← chainSegment_append (by omega : start ≤ found - 1) (Nat.sub_le _ _), hend,
        List.getLast?_concat]
    have hone : [chain found] = chainSegment chain found (found + 1) := by
      rw [chainSegment_succ (Nat.lt_succ_self _), chainSegment_of_le le_rfl]
    rw [hlast, if_neg (by
      rw [Option.all_some, decide_eq_true_eq, h.heights, h.heights, not_not]
      omega), hone, chainSegment_append hinside.le (Nat.le_succ _)]

/-- A discovered height is a first crossing in a window, and the delay. -/
theorem crossing_of_discover (htimestamp : network.ironwoodActivationTimestamp = some timestamp)
    {height : Nat}
    (hdiscover : discoverMainnetActivationHeight source tip network = .ok (some height)) :
    ∃ found start crossing, found ≤ tip - fullNodeLookbackBlocks ∧ fullNodeLookbackBlocks < tip ∧
      WindowStart chain network.saplingActivationHeight
        (timestamp - fullNodeSearchWindowSeconds) found start ∧
      FirstCrossing chain timestamp start crossing ∧ crossing ≤ found ∧
      crossing + network.ironwoodActivationDelay ≤ u32Max ∧
      height = crossing + network.ironwoodActivationDelay := by
  by_cases hlookback : fullNodeLookbackBlocks < tip
  swap
  · unfold discoverMainnetActivationHeight at hdiscover
    rw [htimestamp] at hdiscover
    dsimp only at hdiscover
    rw [if_pos (Nat.le_of_not_lt hlookback)] at hdiscover
    cases hdiscover
  by_cases hstable : timestamp < (chain (tip - fullNodeLookbackBlocks)).time
  swap
  · unfold discoverMainnetActivationHeight at hdiscover
    rw [htimestamp] at hdiscover
    dsimp only at hdiscover
    rw [if_neg (Nat.not_le_of_lt hlookback), getBlockAt_chain h (Nat.sub_le _ _), ok_bind,
      if_pos (Nat.le_of_not_lt hstable)] at hdiscover
    cases hdiscover
  by_cases hsapling : network.saplingActivationHeight ≤ tip - fullNodeLookbackBlocks
  · obtain ⟨found, start, hlow, hhigh, hpast, hstart, hresult⟩ :=
      discover_chain h htip htimestamp hlookback hstable hsapling
    split at hresult
    · obtain ⟨error, herror⟩ := hresult
      rw [herror] at hdiscover
      cases hdiscover
    · rw [hresult] at hdiscover
      have hbound : found + 1 ≤ u32Max + 1 := by omega
      rcases @derive_chain chain timestamp network h.heights htimestamp (found + 1) start hbound with
        ⟨crossing, hcrossing, hinside, hfits, hderive⟩ | ⟨hnone, -⟩
      · rw [hderive] at hdiscover
        obtain rfl := Option.some.inj (Except.ok.inj hdiscover)
        exact ⟨found, start, crossing, hhigh, hlookback, hstart, hcrossing, Nat.le_of_lt_succ hinside,
          hfits, rfl⟩
      · rw [hnone] at hdiscover
        cases hdiscover
  · -- at the start of the search there is no window
    exfalso
    have hsearch : searchCrossing source timestamp
        (tip - fullNodeLookbackBlocks - network.saplingActivationHeight)
        network.saplingActivationHeight (tip - fullNodeLookbackBlocks) =
          .ok network.saplingActivationHeight := by
      rw [Nat.sub_eq_zero_of_le (Nat.le_of_not_le hsapling)]
      rfl
    have hload : loadTransitionWindow source network network.saplingActivationHeight timestamp =
        .ok [] := loadSegments_empty _ _ _ _ _
    unfold discoverMainnetActivationHeight at hdiscover
    rw [htimestamp] at hdiscover
    dsimp only at hdiscover
    rw [if_neg (Nat.not_le_of_lt hlookback), getBlockAt_chain h (Nat.sub_le _ _), ok_bind,
      if_neg (Nat.not_le_of_lt hstable), hsearch, ok_bind] at hdiscover
    obtain ⟨block, -, hdiscover⟩ := bind_eq_ok hdiscover
    split at hdiscover
    · cases hdiscover
    · rw [hload, ok_bind] at hdiscover
      cases hdiscover

omit h htip

/-- The window below a block that is past the timestamp starts where the window below a lower
block past it does. -/
theorem WindowStart.agree {found crossing first second : Nat}
    (hfirst : WindowStart chain sapling cutoff found first)
    (hsecond : WindowStart chain sapling cutoff (crossing + 1) second) (habove : first < crossing)
    (hbelow : crossing ≤ found) (hcrossing : cutoff ≤ (chain crossing).time) : second = first := by
  have hinside : second < crossing := by
    rcases hsecond.old with rfl | ⟨hlt, hold⟩
    · exact Nat.lt_of_le_of_lt hfirst.low habove
    · rcases Nat.eq_or_lt_of_le (Nat.le_of_lt_succ hlt) with rfl | hlt
      · omega
      · exact hlt
  rcases Nat.lt_trichotomy second first with hlt | heq | hgt
  · rcases hfirst.old with rfl | ⟨-, hold⟩
    · have hlow := hsecond.low
      omega
    · have hrecent := hsecond.recent first hlt (by omega)
      omega
  · exact heq
  · rcases hsecond.old with rfl | ⟨-, hold⟩
    · have hlow := hfirst.low
      omega
    · have hrecent := hfirst.recent second hgt (by omega)
      omega

/-- The first block past the timestamp, from the start of the search on. -/
structure FirstPast (chain : Nat → CompactBlockData) (timestamp sapling past : Nat) : Prop where
  low : sapling ≤ past
  passes : timestamp < (chain past).time
  first : ∀ height, sapling ≤ height → height < past → (chain height).time ≤ timestamp

/-- When no later block is older than the window, the window starts below the first block past the
timestamp, or where the search does. -/
theorem WindowStart.lt_past {past found start : Nat} (h : WindowStart chain sapling cutoff found start)
    (hpast : FirstPast chain timestamp sapling past)
    (hsteady : ∀ height, past < height → height ≤ tip → cutoff ≤ (chain height).time)
    (hcutoff : cutoff ≤ timestamp) (hfound : found ≤ tip) : start = sapling ∨ start < past := by
  rcases h.old with heq | ⟨hlt, hold⟩
  · exact .inl heq
  · rcases Nat.lt_trichotomy start past with hbefore | rfl | hafter
    · exact .inr hbefore
    · have hpasses := hpast.passes
      omega
    · have hrecent := hsteady start hafter (by omega)
      omega

/-- Then the first crossing in the window is the first one of the chain. -/
theorem FirstCrossing.of_window {past found start crossing : Nat}
    (hpast : FirstPast chain timestamp sapling past)
    (hstart : WindowStart chain sapling cutoff found start) (hbefore : start = sapling ∨ start < past)
    (h : FirstCrossing chain timestamp start crossing) :
    FirstCrossing chain timestamp sapling crossing := by
  refine ⟨Nat.lt_of_le_of_lt hstart.low h.above, h.crosses, fun height hlow hhigh hcross => ?_⟩
  by_cases hwindow : start < height
  · exact h.first height hwindow hhigh hcross
  · have hnot := hpast.first height hlow.le (by omega)
    have hpasses := hcross.2
    omega

/-- Above the start of the search the first block past the timestamp is the first crossing. -/
theorem FirstPast.firstCrossing {past : Nat} (h : FirstPast chain timestamp sapling past)
    (habove : sapling < past) : FirstCrossing chain timestamp sapling past := by
  refine ⟨habove, ⟨h.first (past - 1) (by omega) (by omega), h.passes⟩, ?_⟩
  intro height hlow hhigh hcross
  have hnot := h.first height hlow.le hhigh
  have hpasses := hcross.2
  omega

end Chain

/-- **Two nodes agree on the activation.** What one node discovers another finds canonical at every
later tip of the same chain. And when no block after the first one past the timestamp is older than
the search window, every node at every tip discovers the first crossing and the delay: it discovers
it as soon as its stable block is past the timestamp, wherever its search and its chunks fall. -/
theorem ironwood_activation_agrees (network : IronwoodNetwork) (chain : Nat → CompactBlockData) :
    (∀ source source' tip tip' height, source.Serves chain tip → source'.Serves chain tip' →
      tip ≤ tip' → tip' ≤ u32Max →
      discoverMainnetActivationHeight source tip network = .ok (some height) →
      knownActivationIsCanonical source' tip' network height = .ok true) ∧
    ∀ timestamp past source tip,
      network.ironwoodActivationTimestamp = some timestamp → source.Serves chain tip →
      tip ≤ u32Max → FirstPast chain timestamp network.saplingActivationHeight past →
      (∀ height, past < height → height ≤ tip →
        timestamp - fullNodeSearchWindowSeconds ≤ (chain height).time) →
      (∀ height, discoverMainnetActivationHeight source tip network = .ok (some height) →
        ∃ crossing, FirstCrossing chain timestamp network.saplingActivationHeight crossing ∧
          height = crossing + network.ironwoodActivationDelay) ∧
      (network.saplingActivationHeight < past → fullNodeLookbackBlocks < tip →
        network.saplingActivationHeight ≤ tip - fullNodeLookbackBlocks →
        past + network.ironwoodActivationDelay ≤ u32Max →
        discoverMainnetActivationHeight source tip network =
          .ok (if timestamp < (chain (tip - fullNodeLookbackBlocks)).time then
            some (past + network.ironwoodActivationDelay) else none)) := by
  constructor
  · intro source source' tip tip' height hserves hserves' hle htip hdiscover
    cases htimestamp : network.ironwoodActivationTimestamp with
    | none =>
      unfold discoverMainnetActivationHeight at hdiscover
      rw [htimestamp] at hdiscover
      unfold knownActivationIsCanonical
      rw [htimestamp, Except.ok.inj hdiscover]
      simp
    | some timestamp =>
      obtain ⟨found, start, crossing, hfound, hlookback, hstart, hcrossing, hbelow, hfits, rfl⟩ :=
        crossing_of_discover hserves (hle.trans htip) htimestamp hdiscover
      have hpast := hcrossing.crosses.2
      have hreached : crossing + 1 ≤ tip := by
        unfold fullNodeLookbackBlocks at *
        omega
      obtain ⟨second, hsecond, hload⟩ := @loadTransitionWindow_chain chain timestamp tip' source'
        network hserves' (crossing + 1) (by omega)
      obtain rfl := hstart.agree hsecond hcrossing.above hbelow (by omega)
      unfold knownActivationIsCanonical
      rw [htimestamp]
      dsimp only
      rw [if_neg (by omega), Nat.add_sub_cancel, if_neg (by omega), if_neg (by omega), hload, ok_bind]
      rcases @derive_chain chain timestamp network hserves.heights htimestamp (crossing + 1) second
          (by omega) with ⟨other, hother, -, -, hderive⟩ | ⟨-, hoverflow⟩
      · obtain rfl := hother.unique hcrossing
        rw [hderive, ok_bind]
        simp
      · have hoverflow := hoverflow crossing hcrossing.above (Nat.lt_succ_self _) hcrossing.crosses
        omega
  · intro timestamp past source tip htimestamp hserves htip hpast hsteady
    have hcutoff : timestamp - fullNodeSearchWindowSeconds ≤ timestamp := Nat.sub_le _ _
    constructor
    · intro height hdiscover
      obtain ⟨found, start, crossing, hfound, -, hstart, hcrossing, -, -, rfl⟩ :=
        crossing_of_discover hserves htip htimestamp hdiscover
      have hbefore := hstart.lt_past hpast hsteady hcutoff (hfound.trans (Nat.sub_le _ _))
      exact ⟨crossing, hcrossing.of_window hpast hstart hbefore, rfl⟩
    · intro habove hlookback hsapling hfits
      by_cases hstable : timestamp < (chain (tip - fullNodeLookbackBlocks)).time
      · rw [if_pos hstable]
        obtain ⟨found, start, hlow, hhigh, hfound, hstart, hresult⟩ :=
          discover_chain hserves htip htimestamp hlookback hstable hsapling
        have hreached : past ≤ found := by
          by_contra hbelow
          have hnot := hpast.first found hlow (Nat.lt_of_not_le hbelow)
          omega
        have hbefore := hstart.lt_past hpast hsteady hcutoff (hhigh.trans (Nat.sub_le _ _))
        have hinside : start < past := by
          rcases hbefore with rfl | hlt
          · exact habove
          · exact hlt
        have hcrosses := (hpast.firstCrossing habove).crosses
        rw [if_neg (by omega)] at hresult
        rw [hresult]
        rcases @derive_chain chain timestamp network hserves.heights htimestamp (found + 1) start
            (by omega) with ⟨crossing, hcrossing, -, -, hderive⟩ | ⟨-, hoverflow⟩
        · obtain rfl := (hcrossing.of_window hpast hstart hbefore).unique (hpast.firstCrossing habove)
          exact hderive
        · have hover := hoverflow past hinside (by omega) hcrosses
          omega
      · rw [if_neg hstable]
        unfold discoverMainnetActivationHeight
        rw [htimestamp]
        dsimp only
        rw [if_neg (Nat.not_le_of_lt hlookback), getBlockAt_chain hserves (Nat.sub_le _ _), ok_bind,
          if_pos (Nat.le_of_not_lt hstable)]

/-- A chain with a block every 20000 seconds, whose block 7 has an earlier time. -/
def reversedChain (height : Nat) : CompactBlockData :=
  ⟨1, height, [], [], if height = 7 then 90000 else 20000 * height, [], []⟩

def reversedNetwork : IronwoodNetwork := ⟨2, none, some 100000, 3⟩

def reversedSource : BlockSource :=
  ⟨fun height => .ok (reversedChain height),
    fun start stop => .ok (chainSegment reversedChain start stop)⟩

theorem reversedSource_serves (tip : Nat) : reversedSource.Serves reversedChain tip :=
  ⟨fun _ => rfl, fun _ _ => rfl, fun _ _ _ _ => rfl⟩

theorem ironwood_activation_agrees_reversed :
    discoverMainnetActivationHeight reversedSource 50 reversedNetwork = .ok (some 9) ∧
      knownActivationIsCanonical reversedSource 60 reversedNetwork 9 = .ok true := by
  have hpast : FirstPast reversedChain 100000 reversedNetwork.saplingActivationHeight 6 :=
    ⟨by decide, by decide, fun height _ hbelow => by
      unfold reversedChain
      dsimp only
      split <;> omega⟩
  have hsteady : ∀ height, 6 < height → height ≤ 50 →
      100000 - fullNodeSearchWindowSeconds ≤ (reversedChain height).time := by
    intro height hlow _
    unfold reversedChain fullNodeSearchWindowSeconds
    dsimp only
    split <;> omega
  obtain ⟨hcanonical, hdiscovers⟩ := ironwood_activation_agrees reversedNetwork reversedChain
  have hfound := (hdiscovers 100000 6 reversedSource 50 rfl (reversedSource_serves 50) (by decide)
    hpast hsteady).2 (by decide) (by decide) (by decide) (by decide)
  exact ⟨hfound, hcanonical reversedSource reversedSource 50 60 9 (reversedSource_serves 50)
    (reversedSource_serves 60) (by decide) (by decide) hfound⟩

end StashiWallet
