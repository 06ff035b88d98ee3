import Mathlib.Algebra.Order.BigOperators.Group.List
import StashiWallet.SegmentRouter

/-!
# The batches of the router

The batches have the blocks of the segments, in order and each of them once; none is empty, and a
batch of several blocks is within the targets under which the last of them were taken in. The loop
over a segment is left whatever the targets are: a turn that takes nothing in sends what was
assembled, and with nothing assembled a turn takes at least one block.
-/

namespace StashiWallet

open WhileLoop

/-! ## What fits -/

/-- The weight is within the target. -/
structure LocalBatchWeight.Within (weight target : LocalBatchWeight) : Prop where
  blocks : weight.blocks ≤ target.blocks
  encodedBytes : weight.encodedBytes ≤ target.encodedBytes
  shieldedWorkItems : weight.shieldedWorkItems ≤ target.shieldedWorkItems

instance (weight target : LocalBatchWeight) : Decidable (weight.Within target) :=
  decidable_of_iff (weight.blocks ≤ target.blocks ∧ weight.encodedBytes ≤ target.encodedBytes ∧
      weight.shieldedWorkItems ≤ target.shieldedWorkItems)
    ⟨fun h => ⟨h.1, h.2.1, h.2.2⟩, fun h => ⟨h.1, h.2, h.3⟩⟩

theorem wrappingSum_le (values : List Nat) : wrappingSum values ≤ values.sum := Nat.mod_le _ _

theorem sum_map_max_one (values : List Nat) : values.sum ≤ (values.map (max · 1)).sum := by
  induction values with
  | nil => exact Nat.le_refl 0
  | cons value values ih =>
    simp only [List.map_cons, List.sum_cons]
    omega

/-- What the loop selects fits, the counters saturating. -/
theorem prefixWithin_spec (current target : LocalBatchWeight) (pairs : List (Nat × Nat))
    (addedBytes addedWorkItems : Nat) :
    prefixWithin current target pairs addedBytes addedWorkItems ≤ pairs.length ∧
      (prefixWithin current target pairs addedBytes addedWorkItems ≠ 0 →
        saturatingAdd current.encodedBytes (addedBytes +
          (((pairs.take (prefixWithin current target pairs addedBytes addedWorkItems)).map
            (·.1)).map (max · 1)).sum) ≤ target.encodedBytes ∧
        saturatingAdd current.shieldedWorkItems (addedWorkItems +
          ((pairs.take (prefixWithin current target pairs addedBytes addedWorkItems)).map
            (·.2)).sum) ≤ target.shieldedWorkItems) := by
  induction pairs generalizing addedBytes addedWorkItems with
  | nil => exact ⟨Nat.le_refl 0, fun h => absurd rfl h⟩
  | cons pair rest ih =>
    obtain ⟨encodedBytes, workItems⟩ := pair
    rw [prefixWithin]
    split
    · exact ⟨Nat.zero_le _, fun h => absurd rfl h⟩
    · rename_i hfits
      obtain ⟨hlength, hrest⟩ := ih (saturatingAdd addedBytes (max encodedBytes 1))
        (saturatingAdd addedWorkItems workItems)
      generalize prefixWithin current target rest (saturatingAdd addedBytes (max encodedBytes 1))
        (saturatingAdd addedWorkItems workItems) = selected at hlength hrest ⊢
      refine ⟨by rw [List.length_cons]; omega, fun _ => ?_⟩
      rw [List.take_succ_cons, List.map_cons, List.map_cons, List.map_cons, List.sum_cons,
        List.sum_cons]
      unfold saturatingAdd at hfits hrest ⊢
      by_cases hlast : selected = 0
      · rw [hlast, List.take_zero]
        simp only [List.map_nil, List.sum_nil]
        omega
      · obtain ⟨hbytes, hwork⟩ := hrest hlast
        omega

/-- What `local_batch_prefix_len` says about the blocks it lets in: there is one at least when
nothing is assembled, and several of them are within the target together with what is assembled. -/
theorem localBatchPrefixLen_spec {encodedBlockBytes blockWorkItems : List Nat}
    {current target : LocalBatchWeight} (hne : encodedBlockBytes ≠ [])
    (hlength : blockWorkItems.length = encodedBlockBytes.length) :
    localBatchPrefixLen encodedBlockBytes blockWorkItems current target ≤
        encodedBlockBytes.length ∧
      (current = ⟨0, 0, 0⟩ →
        localBatchPrefixLen encodedBlockBytes blockWorkItems current target ≠ 0) ∧
      (localBatchPrefixLen encodedBlockBytes blockWorkItems current target ≠ 0 →
        (current.blocks = 0 ∧
          localBatchPrefixLen encodedBlockBytes blockWorkItems current target = 1) ∨
        LocalBatchWeight.Within
          ⟨current.blocks + localBatchPrefixLen encodedBlockBytes blockWorkItems current target,
            saturatingAdd current.encodedBytes (wrappingSum (encodedBlockBytes.take
              (localBatchPrefixLen encodedBlockBytes blockWorkItems current target))),
            saturatingAdd current.shieldedWorkItems (wrappingSum (blockWorkItems.take
              (localBatchPrefixLen encodedBlockBytes blockWorkItems current target)))⟩
          ⟨max target.blocks 1, max target.encodedBytes 1, max target.shieldedWorkItems 1⟩) := by
  have hpos := List.length_pos_of_ne_nil hne
  unfold localBatchPrefixLen
  rw [if_neg (by simp [hne, hlength])]
  dsimp only
  split
  · rename_i hreached
    refine ⟨Nat.zero_le _, fun hzero => ?_, fun h => absurd rfl h⟩
    rw [hzero] at hreached
    dsimp only at hreached
    omega
  rename_i hroom
  obtain ⟨hselected, hfits⟩ := prefixWithin_spec current
    ⟨max target.blocks 1, max target.encodedBytes 1, max target.shieldedWorkItems 1⟩
    ((encodedBlockBytes.zip blockWorkItems).take (max target.blocks 1 - current.blocks)) 0 0
  generalize prefixWithin current
    ⟨max target.blocks 1, max target.encodedBytes 1, max target.shieldedWorkItems 1⟩
    ((encodedBlockBytes.zip blockWorkItems).take (max target.blocks 1 - current.blocks)) 0 0 =
      selected at hselected hfits ⊢
  rw [List.length_take, List.length_zip, hlength, Nat.min_self] at hselected
  split
  · rename_i hforced
    exact ⟨hpos, fun _ => Nat.one_ne_zero, fun _ => .inl ⟨hforced.2, rfl⟩⟩
  · rename_i hchosen
    refine ⟨by omega, fun hzero => ?_, fun hsome => .inr ?_⟩
    · rw [hzero] at hchosen
      dsimp only at hchosen
      omega
    · obtain ⟨hbytes, hwork⟩ := hfits hsome
      have htake : ((encodedBlockBytes.zip blockWorkItems).take
          (max target.blocks 1 - current.blocks)).take selected =
            (encodedBlockBytes.take selected).zip (blockWorkItems.take selected) := by
        rw [List.take_take, Nat.min_eq_left (by omega)]
        exact List.take_zipWith
      rw [htake, List.map_fst_zip (by simp [hlength])] at hbytes
      rw [htake, List.map_snd_zip (by simp [hlength])] at hwork
      have hmax := sum_map_max_one (encodedBlockBytes.take selected)
      have hsizes := wrappingSum_le (encodedBlockBytes.take selected)
      have hitems := wrappingSum_le (blockWorkItems.take selected)
      unfold saturatingAdd at hbytes hwork ⊢
      dsimp only at hbytes hwork
      refine ⟨?_, ?_, ?_⟩
      · dsimp only
        omega
      · dsimp only
        omega
      · dsimp only
        omega

/-! ## What the router holds -/

/-- A block with its size and its work. -/
abbrev RoutedBlock : Type := CompactBlockData × Nat × Nat

/-- The weight of the blocks, as far as a word holds it. -/
def weigh (group : List RoutedBlock) : LocalBatchWeight where
  blocks := group.length
  encodedBytes := min (group.map (·.2.1)).sum u64Max
  shieldedWorkItems := min (group.map (·.2.2)).sum u64Max

/-- The batch has these blocks. Its weight is theirs if no sum of a segment wraps around, and it is
within the targets under which the last of them were taken in, unless it has one block only. -/
structure Carries (flow : PrefetchFlowControl) (fits : Prop) (group : List RoutedBlock)
    (sent : SentBatch) : Prop where
  blocks : sent.batch.blocks = group.map (·.1)
  nonempty : group ≠ []
  read : ∃ read, sent.takenUnder = flow.target read
  single_or_within : group.length = 1 ∨ sent.batch.weight.Within sent.takenUnder
  weighed : fits → sent.batch.weight = weigh group

/-- The blocks that are being assembled. -/
structure Assembles (flow : PrefetchFlowControl) (fits : Prop) (group : List RoutedBlock)
    (state : RouterState) : Prop where
  blocks : state.pending.blocks = group.map (·.1)
  idle : group = [] → state.pending.weight = ⟨0, 0, 0⟩
  read : group ≠ [] → ∃ read, state.takenUnder = flow.target read
  single_or_within : group.length ≤ 1 ∨ state.pending.weight.Within state.takenUnder
  weighed : fits → state.pending.weight = weigh group

/-- The blocks that the router was given are those of the batches it sent and of the one that it
assembles. -/
def Holds (flow : PrefetchFlowControl) (fits : Prop) (given : List RoutedBlock)
    (state : RouterState) : Prop :=
  ∃ groups group, given = groups.flatten ++ group ∧
    List.Forall₂ (Carries flow fits) groups state.sent ∧ Assembles flow fits group state

variable {flow : PrefetchFlowControl} {fits : Prop} {given : List RoutedBlock} {state : RouterState}

theorem assembles_empty (hempty : state.pending = .empty) : Assembles flow fits [] state := by
  refine ⟨?_, fun _ => ?_, fun hsome => absurd rfl hsome, .inl (Nat.zero_le 1), fun _ => ?_⟩
  · rw [hempty]
    rfl
  · rw [hempty]
    rfl
  · rw [hempty]
    rfl

theorem holds_start : Holds flow fits [] ⟨.empty, ⟨0, 0, 0⟩, 0, []⟩ :=
  ⟨[], [], rfl, .nil, assembles_empty rfl⟩

/-- Sending what is assembled keeps the blocks. -/
theorem Holds.send (h : Holds flow fits given state) (hsome : state.pending.blocks ≠ [])
    (target : LocalBatchWeight) : Holds flow fits given (state.send target) := by
  obtain ⟨groups, group, hgiven, hsent, hassembles⟩ := h
  have hne : group ≠ [] := by
    intro hnil
    rw [hassembles.blocks, hnil] at hsome
    exact hsome rfl
  have hpos := List.length_pos_of_ne_nil hne
  refine ⟨groups ++ [group], [], ?_, List.rel_append hsent (.cons ?_ .nil), assembles_empty rfl⟩
  · rw [hgiven, List.flatten_append, List.flatten_singleton, List.append_nil]
  · refine ⟨hassembles.blocks, hne, hassembles.read hne, ?_, hassembles.weighed⟩
    obtain hfew | hwithin := hassembles.single_or_within
    · exact .inl (by omega)
    · exact .inr hwithin

/-- Other reads of the targets change nothing in what the router holds. -/
theorem Holds.read (h : Holds flow fits given state) (reads : Nat) :
    Holds flow fits given { state with reads := reads } := by
  obtain ⟨groups, group, hgiven, hsent, hassembles⟩ := h
  exact ⟨groups, group, hgiven, hsent, hassembles.blocks, hassembles.idle, hassembles.read,
    hassembles.single_or_within, hassembles.weighed⟩

/-! ## One turn -/

/-- The blocks of a segment that are left. -/
def SegmentLoop.left (loop : SegmentLoop) : List RoutedBlock :=
  loop.blocks.zip (loop.blockBytes.zip loop.blockWork)

/-- The router was given the blocks before those that are left. -/
structure SegmentLoop.Sound (flow : PrefetchFlowControl) (fits : Prop) (all : List RoutedBlock)
    (loop : SegmentLoop) : Prop where
  bytes : loop.blockBytes.length = loop.blocks.length
  work : loop.blockWork.length = loop.blocks.length
  holds : ∃ given, all = given ++ loop.left ∧ Holds flow fits given loop.router
  small : fits → loop.blockBytes.sum ≤ u64Max ∧ loop.blockWork.sum ≤ u64Max

/-- How far a loop is from its end. -/
def SegmentLoop.measure (loop : SegmentLoop) : Nat :=
  2 * loop.blocks.length + if loop.router.pending.blocks.isEmpty then 0 else 1

theorem SegmentLoop.left_take {loop : SegmentLoop} (take : Nat) :
    loop.left.take take =
      (loop.blocks.take take).zip ((loop.blockBytes.take take).zip (loop.blockWork.take take)) := by
  unfold left
  rw [show loop.blocks.zip (loop.blockBytes.zip loop.blockWork) = List.zipWith Prod.mk loop.blocks
    (List.zipWith Prod.mk loop.blockBytes loop.blockWork) from rfl, List.take_zipWith,
    List.take_zipWith]
  rfl

theorem SegmentLoop.left_drop {loop : SegmentLoop} (take : Nat) :
    loop.left.drop take =
      (loop.blocks.drop take).zip ((loop.blockBytes.drop take).zip (loop.blockWork.drop take)) := by
  unfold left
  rw [show loop.blocks.zip (loop.blockBytes.zip loop.blockWork) = List.zipWith Prod.mk loop.blocks
    (List.zipWith Prod.mk loop.blockBytes loop.blockWork) from rfl, List.drop_zipWith,
    List.drop_zipWith]
  rfl

theorem map_zip_zip {blocks : List CompactBlockData} {sizes work : List Nat}
    (hsizes : sizes.length = blocks.length) (hwork : work.length = blocks.length) :
    (blocks.zip (sizes.zip work)).map (·.1) = blocks ∧
      (blocks.zip (sizes.zip work)).map (·.2.1) = sizes ∧
      (blocks.zip (sizes.zip work)).map (·.2.2) = work := by
  have hzip : (sizes.zip work).length = blocks.length := by
    rw [List.length_zip, hsizes, hwork, Nat.min_self]
  have hsnd : (blocks.zip (sizes.zip work)).map (·.2) = sizes.zip work :=
    List.map_snd_zip (Nat.le_of_eq hzip)
  refine ⟨List.map_fst_zip (Nat.le_of_eq hzip.symm), ?_, ?_⟩
  · calc (blocks.zip (sizes.zip work)).map (·.2.1)
        = ((blocks.zip (sizes.zip work)).map (·.2)).map (·.1) := (List.map_map).symm
      _ = sizes := by
          rw [hsnd]
          exact List.map_fst_zip (by omega)
  · calc (blocks.zip (sizes.zip work)).map (·.2.2)
        = ((blocks.zip (sizes.zip work)).map (·.2)).map (·.2) := (List.map_map).symm
      _ = work := by
          rw [hsnd]
          exact List.map_snd_zip (by omega)

theorem sum_take_le (values : List Nat) (count : Nat) : (values.take count).sum ≤ values.sum := by
  have hsplit := List.sum_take_add_sum_drop values count
  omega

theorem wrappingSum_of_le {values : List Nat} (h : values.sum ≤ u64Max) :
    wrappingSum values = values.sum :=
  Nat.mod_eq_of_lt (Nat.lt_of_le_of_lt h (by decide))

/-- What is assembled takes in more blocks. Their sums are exact unless one wraps around. -/
theorem Assembles.push {group piece : List RoutedBlock} {state : RouterState}
    (h : Assembles flow fits group state) (hpiece : piece ≠ []) {bytes work : Nat}
    {target : LocalBatchWeight} (hread : ∃ read, target = flow.target read)
    (hfits : (state.pending.weight.blocks = 0 ∧ piece.length = 1) ∨ LocalBatchWeight.Within
      ⟨state.pending.weight.blocks + piece.length,
        saturatingAdd state.pending.weight.encodedBytes bytes,
        saturatingAdd state.pending.weight.shieldedWorkItems work⟩ target)
    (hsums : fits → bytes = (piece.map (·.2.1)).sum ∧ work = (piece.map (·.2.2)).sum)
    (networkElapsed cacheWriteElapsed reservation : Nat) :
    Assembles flow fits (group ++ piece)
      { state with
        pending := state.pending.push (piece.map (·.1)) bytes work networkElapsed
          cacheWriteElapsed reservation
        takenUnder := target } := by
  have hgroup : group.length = state.pending.blocks.length := by
    rw [h.blocks, List.length_map]
  refine ⟨?_, fun hnil => absurd (List.append_eq_nil_iff.mp hnil).2 hpiece, fun _ => hread, ?_,
    fun hfit => ?_⟩
  · rw [List.map_append, ← h.blocks]
    rfl
  · rw [List.length_append]
    obtain ⟨hnone, hone⟩ | hwithin := hfits
    · refine .inl ?_
      unfold NetworkBatchAccumulator.weight at hnone
      dsimp only at hnone
      omega
    · refine .inr ⟨?_, hwithin.encodedBytes, hwithin.shieldedWorkItems⟩
      refine Nat.le_trans (Nat.le_of_eq ?_) hwithin.blocks
      unfold NetworkBatchAccumulator.weight NetworkBatchAccumulator.push
      simp
  · obtain ⟨rfl, rfl⟩ := hsums hfit
    have hweight := h.weighed hfit
    unfold NetworkBatchAccumulator.weight weigh at hweight ⊢
    obtain ⟨hcount, hencoded, hshielded⟩ := LocalBatchWeight.mk.inj hweight
    unfold NetworkBatchAccumulator.push
    dsimp only
    rw [hencoded, hshielded, List.map_append, List.map_append, List.sum_append, List.sum_append,
      List.length_append, List.length_append, List.length_map, hcount]
    unfold saturatingAdd
    congr 1
    · omega
    · omega

/-- Taking in blocks that may be taken in. -/
theorem SegmentLoop.Sound.takeIn {all : List RoutedBlock} {loop : SegmentLoop}
    (h : loop.Sound flow fits all) {take : Nat} (htake : take ≠ 0)
    (hle : take ≤ loop.blocks.length) {target : LocalBatchWeight}
    (hread : ∃ read, target = flow.target read)
    (hfits : (loop.router.pending.weight.blocks = 0 ∧ take = 1) ∨ LocalBatchWeight.Within
      ⟨loop.router.pending.weight.blocks + take,
        saturatingAdd loop.router.pending.weight.encodedBytes
          (wrappingSum (loop.blockBytes.take take)),
        saturatingAdd loop.router.pending.weight.shieldedWorkItems
          (wrappingSum (loop.blockWork.take take))⟩ target) :
    (loop.takeIn take target).Sound flow fits all := by
  obtain ⟨hbytes, hwork, ⟨given, hall, groups, group, hgiven, hsent, hassembles⟩, hsmall⟩ := h
  have hpiece : (loop.left.take take).map (·.1) = loop.blocks.take take ∧
      (loop.left.take take).map (·.2.1) = loop.blockBytes.take take ∧
      (loop.left.take take).map (·.2.2) = loop.blockWork.take take := by
    rw [left_take]
    exact map_zip_zip (by simp [hbytes]) (by simp [hwork])
  have hlength : (loop.left.take take).length = take := by
    rw [← List.length_map (f := (·.1)), hpiece.1, List.length_take]
    omega
  have hpushed := @Assembles.push flow fits group (loop.left.take take) loop.router hassembles
    (List.ne_nil_of_length_pos (by omega)) _ _ target hread (by rwa [hlength]) (fun hfit => by
      obtain ⟨hsizes, hitems⟩ := hsmall hfit
      have hpieceBytes := sum_take_le loop.blockBytes take
      have hpieceWork := sum_take_le loop.blockWork take
      rw [hpiece.2.1, hpiece.2.2]
      exact ⟨wrappingSum_of_le (by omega), wrappingSum_of_le (by omega)⟩)
    (loop.attributeNetwork.getD 0) (loop.attributeCacheWrite.getD 0) loop.reservation
  rw [hpiece.1] at hpushed
  have htaken : Holds flow fits (given ++ loop.left.take take)
      { loop.router with
        pending := loop.router.pending.push (loop.blocks.take take)
          (wrappingSum (loop.blockBytes.take take)) (wrappingSum (loop.blockWork.take take))
          (loop.attributeNetwork.getD 0) (loop.attributeCacheWrite.getD 0) loop.reservation
        takenUnder := target } :=
    ⟨groups, _, by rw [hgiven, List.append_assoc], hsent, hpushed⟩
  have hafter :
      Holds flow fits (given ++ loop.left.take take) (loop.takeIn take target).router := by
    unfold SegmentLoop.takeIn
    dsimp only
    split
    · refine htaken.send ?_ target
      intro hnil
      have hempty := List.append_eq_nil_iff.mp hnil
      have hnone := congrArg List.length hempty.2
      rw [List.length_take, List.length_nil] at hnone
      omega
    · exact htaken
  refine ⟨by simp [SegmentLoop.takeIn, hbytes], by simp [SegmentLoop.takeIn, hwork],
    ⟨_, ?_, hafter⟩, fun hfit => ?_⟩
  · rw [hall, List.append_assoc]
    congr 1
    exact (List.take_append_drop take loop.left).symm.trans (congrArg _ (left_drop take))
  · obtain ⟨hsizes, hitems⟩ := hsmall hfit
    have hbytesSplit := List.sum_take_add_sum_drop loop.blockBytes take
    have hworkSplit := List.sum_take_add_sum_drop loop.blockWork take
    unfold SegmentLoop.takeIn
    dsimp only
    omega

theorem PrefetchFlowControl.target_raised (flow : PrefetchFlowControl) (read : Nat) :
    (⟨max (flow.target read).blocks 1, max (flow.target read).encodedBytes 1,
      max (flow.target read).shieldedWorkItems 1⟩ : LocalBatchWeight) = flow.target read := by
  unfold PrefetchFlowControl.target
  dsimp only
  congr 1
  · omega
  · omega
  · omega

/-- What a turn does with blocks left: it sends what is assembled, or it takes blocks in. -/
theorem SegmentLoop.Sound.turn {all : List RoutedBlock} {loop next : SegmentLoop}
    (h : loop.Sound flow fits all) (hturn : loop.turn flow = .again next) :
    next.Sound flow fits all ∧ next.measure < loop.measure := by
  unfold SegmentLoop.turn at hturn
  split at hturn
  · cases hturn
  rename_i hblocks
  obtain ⟨hbytes, hwork, ⟨given, hall, hholds⟩, hsmall⟩ := h
  have hpos : 0 < loop.blocks.length := List.length_pos_of_ne_nil (by simpa using hblocks)
  have hread : ({ loop with
      router := { loop.router with reads := loop.router.reads + 1 } } : SegmentLoop).Sound
        flow fits all := ⟨hbytes, hwork, ⟨given, hall, hholds.read _⟩, hsmall⟩
  obtain ⟨hlength, hforced, hfits⟩ := @localBatchPrefixLen_spec loop.blockBytes loop.blockWork
    loop.router.pending.weight (flow.target loop.router.reads)
    (List.ne_nil_of_length_pos (by omega)) (by omega)
  rw [flow.target_raised] at hfits
  dsimp only at hturn
  generalize localBatchPrefixLen loop.blockBytes loop.blockWork loop.router.pending.weight
    (flow.target loop.router.reads) = take at hlength hforced hfits hturn
  split at hturn
  · -- nothing fits, so that something is assembled
    rename_i hnone
    cases hturn
    have hsome : loop.router.pending.blocks ≠ [] := by
      intro hnil
      obtain ⟨groups, group, -, -, hassembles⟩ := hholds
      apply hforced _ hnone
      apply hassembles.idle
      rw [hassembles.blocks] at hnil
      exact List.map_eq_nil_iff.mp hnil
    have hsend := (hholds.read (loop.router.reads + 1)).send hsome
      (flow.target loop.router.reads)
    refine ⟨⟨hbytes, hwork, ⟨given, hall, hsend⟩, hsmall⟩, ?_⟩
    have hbefore : ¬ loop.router.pending.blocks.isEmpty = true := by simpa using hsome
    unfold measure
    rw [if_neg hbefore]
    exact Nat.lt_succ_self _
  · rename_i htake
    cases hturn
    refine ⟨hread.takeIn htake (by dsimp only; omega) ⟨_, rfl⟩ ?_, ?_⟩
    · obtain ⟨hzero, hone⟩ | hwithin := hfits htake
      · exact .inl ⟨hzero, hone⟩
      · exact .inr hwithin
    · unfold measure SegmentLoop.takeIn
      dsimp only
      rw [List.length_drop]
      split
      · split
        · omega
        · omega
      · split
        · omega
        · omega

/-! ## All segments -/

/-- The blocks of a segment with their sizes and their work. -/
def DurableBlockSegment.routed (flow : PrefetchFlowControl) (segment : DurableBlockSegment) :
    List RoutedBlock :=
  segment.blocks.zip (segment.encodedBlockBytes.zip
    (blockShieldedWorkItems segment.blocks flow.saplingWorkFactor flow.ironwoodWorkFactor))

/-- No sum over the segment wraps around. -/
def DurableBlockSegment.Fits (flow : PrefetchFlowControl) (segment : DurableBlockSegment) : Prop :=
  segment.encodedBlockBytes.sum ≤ u64Max ∧ (blockShieldedWorkItems segment.blocks
    flow.saplingWorkFactor flow.ironwoodWorkFactor).sum ≤ u64Max

/-- The segments have blocks and continue each other: the first block of each has the height after
the last one before it. -/
def Continues : Nat → List DurableBlockSegment → Prop
  | _, [] => True
  | current, segment :: rest => ∃ first last, segment.blocks.head? = some first ∧
      segment.blocks.getLast? = some last ∧ first.height = current ∧
      Continues (saturatingAdd last.height 1) rest

/-- The loop over a segment is left, and then the router holds the blocks of the segment as well. -/
theorem Holds.loop (h : Holds flow fits given state) {segment : DurableBlockSegment}
    (hfits : fits → segment.Fits flow) :
    ∃ next, Ends (SegmentLoop.turn flow) (segment.loop flow state) next ∧
      within (SegmentLoop.turn flow) segment.turns (segment.loop flow state) = some next ∧
      Holds flow fits (given ++ segment.routed flow) next := by
  have hsound : (segment.loop flow state).Sound flow fits (given ++ segment.routed flow) :=
    ⟨segment.sized, List.length_map _, ⟨given, rfl, h⟩, hfits⟩
  have hfuel : (segment.loop flow state).measure < segment.turns := by
    unfold SegmentLoop.measure DurableBlockSegment.turns DurableBlockSegment.loop
    dsimp only
    split
    · omega
    · omega
  obtain ⟨next, hends, hwithin⟩ := ends_of_measure SegmentLoop.measure
    (fun loop next hloop hturn => SegmentLoop.Sound.turn hloop hturn) hsound hfuel
  refine ⟨next, hends, hwithin, hends.invariant
    (fun loop next hloop hturn => (SegmentLoop.Sound.turn hloop hturn).1) ?_ hsound⟩
  intro loop result hloop hturn
  unfold SegmentLoop.turn at hturn
  split at hturn
  · rename_i hblocks
    cases hturn
    obtain ⟨given', hall, hholds⟩ := hloop.holds
    have hleft : loop.left = [] := by
      unfold SegmentLoop.left
      rw [List.isEmpty_iff.mp hblocks]
      rfl
    rwa [hall, hleft, List.append_nil]
  · dsimp only at hturn
    split at hturn
    · cases hturn
    · cases hturn

theorem Holds.routeSegments (h : Holds flow fits given state) {segments : List DurableBlockSegment}
    {current : Nat} (hcontinues : Continues current segments)
    (hfits : fits → ∀ segment ∈ segments, segment.Fits flow) :
    ∃ next height, routeSegments flow segments current state = some (next, .ok height) ∧
      Holds flow fits (given ++ segments.flatMap (·.routed flow)) next := by
  induction segments generalizing given state current with
  | nil => exact ⟨state, current, rfl, by rwa [List.flatMap_nil, List.append_nil]⟩
  | cons segment rest ih =>
    obtain ⟨first, last, hfirst, hlast, hheight, hrest⟩ := hcontinues
    obtain ⟨next, -, hwithin, hholds⟩ :=
      h.loop fun hfit => hfits hfit segment List.mem_cons_self
    obtain ⟨final, height, hroute, hfinal⟩ := ih hholds hrest
      fun hfit other hother => hfits hfit other (List.mem_cons_of_mem _ hother)
    refine ⟨final, height, ?_, ?_⟩
    · rw [StashiWallet.routeSegments, hfirst, hlast]
      dsimp only
      rw [if_neg (not_not_intro hheight), hwithin, Option.bind_some, hroute]
    · rwa [List.flatMap_cons, ← List.append_assoc]

theorem Holds.finish (h : Holds flow fits given state) :
    ∃ groups, groups.flatten = given ∧
      List.Forall₂ (Carries flow fits) groups (state.finish flow).sent := by
  unfold RouterState.finish
  by_cases hempty : state.pending.blocks.isEmpty = true
  · rw [if_pos hempty]
    obtain ⟨groups, group, hgiven, hsent, hassembles⟩ := h
    have hnone : group = [] := by
      have hblocks := hassembles.blocks
      rw [List.isEmpty_iff.mp hempty] at hblocks
      exact List.map_eq_nil_iff.mp hblocks.symm
    exact ⟨groups, by rw [hgiven, hnone, List.append_nil], hsent⟩
  · rw [if_neg hempty]
    obtain ⟨groups, group, hgiven, hsent, hassembles⟩ :=
      (h.read (state.reads + 1)).send (by simpa using hempty) (flow.target state.reads)
    have hnone : group = [] := List.map_eq_nil_iff.mp hassembles.blocks.symm
    exact ⟨groups, by rw [hgiven, hnone, List.append_nil], hsent⟩

/-- What the router makes of the segments: its loops end, and the batches it sends are their blocks,
in order and cut within the targets. -/
structure RoutesAll (flow : PrefetchFlowControl) (start stop : Nat)
    (segments : List DurableBlockSegment) (spooled : Except SyncError Unit) : Prop where
  /-- The loop over each segment is left. -/
  ends : ∀ before segment rest, segments = before ++ segment :: rest → ∃ state height next,
    routeSegments flow before start ⟨.empty, ⟨0, 0, 0⟩, 0, []⟩ = some (state, .ok height) ∧
      Ends (SegmentLoop.turn flow) (segment.loop flow state) next
  sends : ∃ sent result, produceFromSegments flow start stop segments spooled =
      some (sent, result) ∧
    sent.flatMap (·.batch.blocks) = segments.flatMap (·.blocks) ∧
    ∃ groups, groups.flatten = segments.flatMap (·.routed flow) ∧
      List.Forall₂ (Carries flow (∀ segment ∈ segments, segment.Fits flow)) groups sent

theorem continues_of_append {before rest : List DurableBlockSegment} {current : Nat}
    (h : Continues current (before ++ rest)) : Continues current before := by
  induction before generalizing current with
  | nil => trivial
  | cons segment before ih =>
    obtain ⟨first, last, hfirst, hlast, hheight, hrest⟩ := h
    exact ⟨first, last, hfirst, hlast, hheight, ih hrest⟩

theorem routed_blocks (segments : List DurableBlockSegment) :
    (segments.flatMap (·.routed flow)).map (·.1) = segments.flatMap (·.blocks) := by
  rw [List.map_flatMap]
  refine List.flatMap_congr fun segment _ => ?_
  exact (map_zip_zip segment.sized (List.length_map _)).1

theorem sent_blocks {groups : List (List RoutedBlock)} {sent : List SentBatch}
    (h : List.Forall₂ (Carries flow fits) groups sent) :
    sent.flatMap (·.batch.blocks) = groups.flatten.map (·.1) := by
  induction h with
  | nil => rfl
  | cons hcarries _ ih =>
    rw [List.flatMap_cons, List.flatten_cons, List.map_append, ih, hcarries.blocks]

/-- The batches are the segments, cut within the targets under which their blocks were taken in. -/
theorem router_sends_segments {flow : PrefetchFlowControl} {start stop : Nat}
    {segments : List DurableBlockSegment} {spooled : Except SyncError Unit}
    (h : Continues start segments) : RoutesAll flow start stop segments spooled := by
  refine ⟨?_, ?_⟩
  · intro before segment rest hsplit
    obtain ⟨state, height, hroute, hholds⟩ := (@holds_start flow False).routeSegments
      (continues_of_append (hsplit ▸ h)) False.elim
    obtain ⟨next, hends, -⟩ := @Holds.loop flow False _ state hholds segment False.elim
    exact ⟨state, height, next, hroute, hends⟩
  · obtain ⟨state, height, hroute, hholds⟩ :=
      (@holds_start flow (∀ segment ∈ segments, segment.Fits flow)).routeSegments h id
    obtain ⟨groups, hgroups, hsent⟩ := hholds.finish
    rw [List.nil_append] at hgroups
    obtain ⟨result, hproduce⟩ : ∃ result, produceFromSegments flow start stop segments spooled =
        some ((state.finish flow).sent, result) := by
      unfold produceFromSegments
      rw [hroute]
      exact ⟨_, rfl⟩
    refine ⟨_, result, hproduce, ?_, groups, hgroups, hsent⟩
    rw [sent_blocks hsent, hgroups, routed_blocks]

/-- A block without transactions. -/
def plainBlock (height : Nat) : CompactBlockData := ⟨1, height, [], [], 0, [], []⟩

/-- Three blocks and a fourth one, in two segments. -/
def twoSegments : List DurableBlockSegment :=
  [⟨[plainBlock 1, plainBlock 2, plainBlock 3], [100, 100, 100], 0, 0, 0, rfl⟩,
    ⟨[plainBlock 4], [100], 0, 0, 1, rfl⟩]

/-- The targets of a scanner that asks for four blocks and then for two. -/
def shrinkingFlow : PrefetchFlowControl where
  targets := fun read => if read = 0 then ⟨4, 4096, 64⟩ else ⟨2, 4096, 64⟩
  saplingWorkFactor := 1
  ironwoodWorkFactor := 1
  maxChunkBytes := 4096
  chunkPositive := by decide

theorem router_sends_two_segments :
    RoutesAll shrinkingFlow 1 4 twoSegments (.ok ()) :=
  router_sends_segments ⟨plainBlock 1, plainBlock 3, rfl, rfl, rfl, plainBlock 4, plainBlock 4, rfl,
    rfl, rfl, trivial⟩

/-- A batch of three blocks is sent when the target is two. -/
theorem router_exceeds_target_in_force :
    ¬ ∀ (flow : PrefetchFlowControl) (start stop : Nat) (segments : List DurableBlockSegment)
      (spooled result : Except SyncError Unit) (sent : List SentBatch),
      Continues start segments →
        produceFromSegments flow start stop segments spooled = some (sent, result) →
          ∀ s ∈ sent, s.batch.blocks.length = 1 ∨ s.batch.weight.Within s.batch.requested := by
  intro h
  have hexceeds : ((produceFromSegments shrinkingFlow 1 4 twoSegments (.ok ())).map fun routed =>
      routed.1.all fun s => decide (s.batch.blocks.length = 1 ∨
        s.batch.weight.Within s.batch.requested)) = some false := by decide
  obtain ⟨⟨sent, result⟩, hproduce, hall⟩ := Option.map_eq_some_iff.mp hexceeds
  have hwithin := h shrinkingFlow 1 4 twoSegments (.ok ()) result sent
    ⟨plainBlock 1, plainBlock 3, rfl, rfl, rfl, plainBlock 4, plainBlock 4, rfl, rfl, rfl, trivial⟩
    hproduce
  rw [List.all_eq_true.mpr fun s hs => decide_eq_true (hwithin s hs)] at hall
  cases hall

end StashiWallet
