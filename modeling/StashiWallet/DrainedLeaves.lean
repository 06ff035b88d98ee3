import Mathlib.Data.List.Chain
import StashiWallet.HistoricalGrafts

/-!
# Leaves drained from the skip state

At the end of a run, and before a batch that has to be complete, the leaves held back in the skip
states go to the trees. Each pool is drained into batches of its own, one for each block, and the
second pool's batches are merged into the first's. A batch keeps only the position of its first
leaf, so what can be recovered from a batch are leaves at consecutive positions.

The merge joins two batches of one block without the start position of the one it joins: where the
last block of the one pool is the first of the other, the leaves of the second lose their place.
-/

namespace StashiWallet

/-- Where a leaf goes, and what of it goes into a batch. -/
def HistoricalLeaf.entry (leaf : HistoricalLeaf) : Nat × TreeLeaf :=
  (leaf.position, leaf.node, leaf.retention)

/-- The leaves that `drain_historical_skip_state` flushes. -/
def HistoricalSubtreeSkipState.deferredLeaves {T : Type} (state : HistoricalSubtreeSkipState T) :
    List HistoricalLeaf :=
  match state.currentBuffer with
  | some buffer =>
    if !buffer.leavesEmitted && !buffer.rootPersisted then buffer.bufferedLeaves else []
  | none => []

/-- The deferred leaves without those of the block `u64::MAX`, which stands for the current one. -/
def HistoricalSubtreeSkipState.emittedLeaves {T : Type} (state : HistoricalSubtreeSkipState T) :
    List HistoricalLeaf :=
  state.deferredLeaves.filter fun leaf => leaf.height ≠ u64Max

theorem HistoricalSubtreeSkipState.emittedLeaves_eq_iff {T : Type}
    {state : HistoricalSubtreeSkipState T} :
    state.emittedLeaves = state.deferredLeaves ↔
      ∀ leaf ∈ state.deferredLeaves, leaf.height ≠ u64Max := by
  simp [emittedLeaves]

@[simp] theorem ShardtreeBatch.new_height (height : Nat) : (new height).height = height := rfl

/-! ## The merge -/

/-- The leaves of a batch appended to another; the start positions of the other stay. -/
def ShardtreeBatch.join (last batch : ShardtreeBatch) : ShardtreeBatch :=
  { last with
    sapling := last.sapling ++ batch.sapling
    orchard := last.orchard ++ batch.orchard }

/-- The loop body of `merge_emitted_batches`. -/
def mergeEmitted (target : List ShardtreeBatch) (batch : ShardtreeBatch) : List ShardtreeBatch :=
  match target.getLast? with
  | some last =>
    if last.height = batch.height then target.dropLast ++ [last.join batch] else target ++ [batch]
  | none => target ++ [batch]

def mergeEmittedBatches (target emitted : List ShardtreeBatch) : List ShardtreeBatch :=
  emitted.foldl mergeEmitted target

/-- The batches of `flush_historical_prefill_buffers`, with which `update_commitment_trees` begins
as well. -/
def drainPools {S O : Type} (sapling : HistoricalSubtreeSkipState S)
    (orchard : HistoricalSubtreeSkipState O) : List ShardtreeBatch :=
  mergeEmittedBatches
    (mergeEmittedBatches []
      (drainHistoricalSkipState ShardtreeBatch.appendSaplingLeaf sapling []).2.shardtreeBatches)
    (drainHistoricalSkipState ShardtreeBatch.appendOrchardLeaf orchard []).2.shardtreeBatches

/-! ## One pool of a batch -/

/-- One pool of the batches: its start position, its leaves, and the call that appends one. -/
structure PoolView where
  startPosition : ShardtreeBatch → Option Nat
  leaves : ShardtreeBatch → List TreeLeaf
  appendLeaf : ShardtreeBatch → Nat → Bytes → Retention → ShardtreeBatch
  leaves_new : ∀ height, leaves (.new height) = []
  leaves_join : ∀ last batch, leaves (last.join batch) = leaves last ++ leaves batch
  start_join : ∀ last batch, startPosition (last.join batch) = startPosition last
  height_append : ∀ batch position node retention,
    (appendLeaf batch position node retention).height = batch.height
  leaves_append : ∀ batch position node retention,
    leaves (appendLeaf batch position node retention) = leaves batch ++ [(node, retention)]
  start_append : ∀ batch position node retention,
    startPosition (appendLeaf batch position node retention) =
      if (leaves batch).isEmpty then some position else startPosition batch

def saplingView : PoolView where
  startPosition := ShardtreeBatch.saplingStartPosition
  leaves := ShardtreeBatch.sapling
  appendLeaf := ShardtreeBatch.appendSaplingLeaf
  leaves_new _ := rfl
  leaves_join _ _ := rfl
  start_join _ _ := rfl
  height_append _ _ _ _ := rfl
  leaves_append _ _ _ _ := rfl
  start_append _ _ _ _ := rfl

def orchardView : PoolView where
  startPosition := ShardtreeBatch.orchardStartPosition
  leaves := ShardtreeBatch.orchard
  appendLeaf := ShardtreeBatch.appendOrchardLeaf
  leaves_new _ := rfl
  leaves_join _ _ := rfl
  start_join _ _ := rfl
  height_append _ _ _ _ := rfl
  leaves_append _ _ _ _ := rfl
  start_append _ _ _ _ := rfl

namespace PoolView

/-- Appending to one pool leaves the other alone. -/
structure Apart (view other : PoolView) : Prop where
  leaves_new : ∀ height, other.leaves (.new height) = []
  leaves : ∀ batch position node retention,
    other.leaves (view.appendLeaf batch position node retention) = other.leaves batch
  start : ∀ batch position node retention,
    other.startPosition (view.appendLeaf batch position node retention) = other.startPosition batch
  start_new : ∀ height, other.startPosition (.new height) = none

theorem sapling_apart : saplingView.Apart orchardView :=
  ⟨fun _ => rfl, fun _ _ _ _ => rfl, fun _ _ _ _ => rfl, fun _ => rfl⟩

theorem orchard_apart : orchardView.Apart saplingView :=
  ⟨fun _ => rfl, fun _ _ _ _ => rfl, fun _ _ _ _ => rfl, fun _ => rfl⟩

variable (view : PoolView)

/-- The leaves of a batch at the positions that follow its start position. -/
def recoveredFrom (batch : ShardtreeBatch) : List (Nat × TreeLeaf) :=
  match view.startPosition batch with
  | some start => ((view.leaves batch).zipIdx start).map Prod.swap
  | none => []

/-- The positions and leaves that the batches hold of a pool. -/
def recovered (batches : List ShardtreeBatch) : List (Nat × TreeLeaf) :=
  batches.flatMap view.recoveredFrom

/-- The batches hold exactly these leaves of the pool, with their positions, and none without the
position it starts from. -/
structure Holds (batches : List ShardtreeBatch) (leaves : List HistoricalLeaf) : Prop where
  started : ∀ batch ∈ batches, view.leaves batch ≠ [] → (view.startPosition batch).isSome = true
  recovered_eq : view.recovered batches = leaves.map HistoricalLeaf.entry

@[simp] theorem recovered_append (batches batches' : List ShardtreeBatch) :
    view.recovered (batches ++ batches') = view.recovered batches ++ view.recovered batches' :=
  List.flatMap_append

@[simp] theorem recovered_singleton (batch : ShardtreeBatch) :
    view.recovered [batch] = view.recoveredFrom batch := by
  simp [recovered]

/-- Without leaves there is nothing to recover. -/
theorem recoveredFrom_of_empty {batch : ShardtreeBatch} (h : view.leaves batch = []) :
    view.recoveredFrom batch = [] := by
  unfold recoveredFrom
  split <;> simp [h]

theorem recovered_of_empty {batches : List ShardtreeBatch}
    (h : ∀ batch ∈ batches, view.leaves batch = []) : view.recovered batches = [] :=
  List.flatMap_eq_nil_iff.mpr fun batch hbatch => view.recoveredFrom_of_empty (h batch hbatch)

/-- What is recovered is at most what is there. -/
theorem recovered_length_le (batches : List ShardtreeBatch) :
    (view.recovered batches).length ≤ (batches.flatMap view.leaves).length := by
  induction batches with
  | nil => exact Nat.le_refl 0
  | cons batch batches ih =>
    have hbatch : (view.recoveredFrom batch).length ≤ (view.leaves batch).length := by
      unfold recoveredFrom
      split <;> simp
    simp only [recovered, List.flatMap_cons, List.length_append] at ih ⊢
    omega

end PoolView

/-! ## Draining one pool -/

/-- Leaves of one block that follow each other are at consecutive positions. -/
def ConsecutiveInBlocks (leaves : List HistoricalLeaf) : Prop :=
  leaves.IsChain fun a b => a.height = b.height → b.position = a.position + 1

instance (leaves : List HistoricalLeaf) : Decidable (ConsecutiveInBlocks leaves) :=
  inferInstanceAs (Decidable (leaves.IsChain _))

theorem consecutiveInBlocks_concat {leaves : List HistoricalLeaf} {leaf : HistoricalLeaf} :
    ConsecutiveInBlocks (leaves ++ [leaf]) ↔ ConsecutiveInBlocks leaves ∧
      ∀ last ∈ leaves.getLast?, last.height = leaf.height → leaf.position = last.position + 1 := by
  unfold ConsecutiveInBlocks
  rw [List.isChain_append]
  simp

namespace PoolView

variable (view : PoolView)

/-- `flush_buffered_pool_leaves` for a leaf that is not of the current block. -/
def emitLeaf (batches : List ShardtreeBatch) (leaf : HistoricalLeaf) : List ShardtreeBatch :=
  match batches.getLast? with
  | some last =>
    if last.height = leaf.height then
      batches.dropLast ++ [view.appendLeaf last leaf.position leaf.node leaf.retention]
    else
      batches ++ [view.appendLeaf (.new leaf.height) leaf.position leaf.node leaf.retention]
  | none => batches ++ [view.appendLeaf (.new leaf.height) leaf.position leaf.node leaf.retention]

/-- A leaf either joins the last batch, which is of its block, or begins a new one. -/
theorem emitLeaf_cases (batches : List ShardtreeBatch) (leaf : HistoricalLeaf) :
    (∃ done last, batches = done ++ [last] ∧ last.height = leaf.height ∧
      view.emitLeaf batches leaf =
        done ++ [view.appendLeaf last leaf.position leaf.node leaf.retention]) ∨
    (batches.getLast?.map ShardtreeBatch.height ≠ some leaf.height ∧
      view.emitLeaf batches leaf =
        batches ++
          [view.appendLeaf (.new leaf.height) leaf.position leaf.node leaf.retention]) := by
  unfold emitLeaf
  rcases List.eq_nil_or_concat' batches with rfl | ⟨done, last, rfl⟩
  · exact Or.inr (by simp)
  · by_cases hheight : last.height = leaf.height
    · exact Or.inl ⟨done, last, by simp, hheight, by simp [hheight]⟩
    · exact Or.inr (by simp [hheight])

/-- The batches that hold leaves of one pool alone, one for each block. -/
structure Emits (other : PoolView) (leaves : List HistoricalLeaf) (batches : List ShardtreeBatch) :
    Prop where
  leaves_eq : batches.flatMap view.leaves = leaves.map fun leaf => (leaf.node, leaf.retention)
  nonempty : ∀ batch ∈ batches, view.leaves batch ≠ []
  started : ∀ batch ∈ batches, (view.startPosition batch).isSome = true
  alone : ∀ batch ∈ batches, other.leaves batch = [] ∧ other.startPosition batch = none
  head : batches.head?.map ShardtreeBatch.height = leaves.head?.map HistoricalLeaf.height
  last : batches.getLast?.map ShardtreeBatch.height = leaves.getLast?.map HistoricalLeaf.height
  blocks : batches.IsChain fun a b => a.height ≠ b.height
  recovers : view.recovered batches = leaves.map HistoricalLeaf.entry ↔ ConsecutiveInBlocks leaves

variable {view}

/-- A leaf that joins leaves of its batch is recovered at the position after theirs. -/
theorem recoveredFrom_append {batch : ShardtreeBatch} {start : Nat} (leaf : HistoricalLeaf)
    (hstart : view.startPosition batch = some start) (hleaves : view.leaves batch ≠ []) :
    view.recoveredFrom (view.appendLeaf batch leaf.position leaf.node leaf.retention) =
      view.recoveredFrom batch ++
        [(start + (view.leaves batch).length, leaf.node, leaf.retention)] := by
  unfold recoveredFrom
  simp [view.start_append, view.leaves_append, hleaves, hstart, List.zipIdx_append]

/-- The first leaf of a batch is recovered at its own position. -/
theorem recoveredFrom_append_new (leaf : HistoricalLeaf) :
    view.recoveredFrom (view.appendLeaf (.new leaf.height) leaf.position leaf.node leaf.retention) =
      [leaf.entry] := by
  unfold recoveredFrom
  simp [view.start_append, view.leaves_append, view.leaves_new, HistoricalLeaf.entry]

theorem recoveredFrom_getLast? {batch : ShardtreeBatch} {start : Nat}
    (hstart : view.startPosition batch = some start) (hleaves : view.leaves batch ≠ []) :
    ∃ leaf, (view.recoveredFrom batch).getLast? =
      some (start + (view.leaves batch).length - 1, leaf) := by
  refine ⟨(view.leaves batch).getLast hleaves, ?_⟩
  unfold recoveredFrom
  simp [hstart, List.getLast?_eq_some_getLast hleaves]

variable {other : PoolView} {leaves : List HistoricalLeaf} {batches : List ShardtreeBatch}

/-- A leaf of the last block joins its batch; it is recovered where the leaf before it was, plus
one. -/
theorem Emits.joined {done : List ShardtreeBatch} {last : ShardtreeBatch}
    (happart : view.Apart other)
    (h : view.Emits other leaves (done ++ [last])) {leaf : HistoricalLeaf}
    (hheight : last.height = leaf.height) :
    view.Emits other (leaves ++ [leaf])
      (done ++ [view.appendLeaf last leaf.position leaf.node leaf.retention]) := by
  obtain ⟨start, hstart⟩ := Option.isSome_iff_exists.mp (h.started last (by simp))
  have hnonempty := h.nonempty last (by simp)
  obtain ⟨before, previous, rfl⟩ : ∃ before previous, leaves = before ++ [previous] := by
    rcases List.eq_nil_or_concat' leaves with rfl | hconcat
    · simpa using h.last
    · exact hconcat
  have hprevious : previous.height = leaf.height := by simpa [hheight] using h.last.symm
  have hrecovered : view.recovered
      (done ++ [view.appendLeaf last leaf.position leaf.node leaf.retention]) =
        view.recovered (done ++ [last]) ++
          [(start + (view.leaves last).length, leaf.node, leaf.retention)] := by
    simp [recoveredFrom_append leaf hstart hnonempty]
  refine
    { leaves_eq := ?_
      nonempty := ?_
      started := ?_
      alone := ?_
      head := ?_
      last := by simp [view.height_append, hheight]
      blocks := ?_
      recovers := ?_ }
  · have hleaves := h.leaves_eq
    simp only [List.flatMap_append, List.flatMap_singleton, List.map_append, List.map_cons,
      List.map_nil, view.leaves_append] at hleaves ⊢
    rw [← List.append_assoc, hleaves]
  · have hdone := h.nonempty
    simp only [List.forall_mem_append, List.forall_mem_singleton] at hdone ⊢
    exact ⟨hdone.1, by simp [view.leaves_append]⟩
  · have hdone := h.started
    simp only [List.forall_mem_append, List.forall_mem_singleton] at hdone ⊢
    exact ⟨hdone.1, by simp [view.start_append, hnonempty, hdone.2]⟩
  · have hdone := h.alone
    simp only [List.forall_mem_append, List.forall_mem_singleton] at hdone ⊢
    exact ⟨hdone.1, by simp [happart.leaves, happart.start, hdone.2]⟩
  · have hhead := h.head
    cases done <;> simpa [view.height_append] using hhead
  · have hblocks := h.blocks
    simp only [List.isChain_append] at hblocks ⊢
    simpa [view.height_append] using hblocks
  · -- the leaf before it closes what is recovered so far, at the position before the next one
    rw [hrecovered, List.map_append, List.map_singleton, List.append_singleton_inj,
      consecutiveInBlocks_concat, h.recovers]
    refine and_congr_right fun hconsecutive => ?_
    obtain ⟨closing, hclosing⟩ := recoveredFrom_getLast? hstart hnonempty
    have hclose := congrArg List.getLast? (h.recovers.mpr hconsecutive)
    have hpositive := List.length_pos_iff.mpr hnonempty
    simp [hclosing, HistoricalLeaf.entry] at hclose
    simp [HistoricalLeaf.entry, hprevious]
    omega

/-- A leaf of another block opens a batch, with its own position. -/
theorem Emits.opened (happart : view.Apart other) (h : view.Emits other leaves batches)
    {leaf : HistoricalLeaf}
    (hheight : batches.getLast?.map ShardtreeBatch.height ≠ some leaf.height) :
    view.Emits other (leaves ++ [leaf])
      (batches ++ [view.appendLeaf (.new leaf.height) leaf.position leaf.node leaf.retention]) where
  leaves_eq := by
    rw [List.flatMap_append, h.leaves_eq]
    simp [view.leaves_append, view.leaves_new]
  nonempty := by
    simp only [List.forall_mem_append, List.forall_mem_singleton]
    exact ⟨h.nonempty, by simp [view.leaves_append]⟩
  started := by
    simp only [List.forall_mem_append, List.forall_mem_singleton]
    exact ⟨h.started, by simp [view.start_append, view.leaves_new]⟩
  alone := by
    simp only [List.forall_mem_append, List.forall_mem_singleton]
    exact ⟨h.alone, by simp [happart.leaves, happart.start, happart.leaves_new, happart.start_new]⟩
  head := by
    have hhead := h.head
    rw [List.head?_append, List.head?_append]
    cases hbatches : batches.head? <;> cases hleaves : leaves.head? <;>
      simp_all [view.height_append]
  last := by simp [view.height_append]
  blocks := by
    rw [List.isChain_append]
    refine ⟨h.blocks, List.isChain_singleton _, fun last hlast first hfirst heq => hheight ?_⟩
    obtain rfl := Option.some.inj hfirst
    rw [hlast, Option.map_some, heq, view.height_append, ShardtreeBatch.new_height]
  recovers := by
    have hlast : ∀ last ∈ leaves.getLast?, last.height = leaf.height →
        leaf.position = last.position + 1 := fun last hlast heq => by
      rw [h.last, hlast, Option.map_some, heq] at hheight
      exact absurd rfl hheight
    rw [recovered_append, recovered_singleton, recoveredFrom_append_new, List.map_append,
      List.map_singleton, List.append_singleton_inj, consecutiveInBlocks_concat, h.recovers]
    exact and_congr_right fun _ => iff_of_true rfl hlast

theorem Emits.concat (happart : view.Apart other) (h : view.Emits other leaves batches)
    (leaf : HistoricalLeaf) : view.Emits other (leaves ++ [leaf]) (view.emitLeaf batches leaf) := by
  rcases view.emitLeaf_cases batches leaf with ⟨done, last, rfl, hheight, hemit⟩ | ⟨hheight, hemit⟩
  · rw [hemit]
    exact h.joined happart hheight
  · rw [hemit]
    exact h.opened happart hheight

/-- The batches of leaves that go through the sink one after the other. -/
def emitAll (view : PoolView) (leaves : List HistoricalLeaf) : List ShardtreeBatch :=
  leaves.foldl view.emitLeaf []

theorem emitAll_emits (happart : view.Apart other) (leaves : List HistoricalLeaf) :
    view.Emits other leaves (view.emitAll leaves) := by
  induction leaves using List.reverseRecOn with
  | nil =>
    refine ⟨rfl, nofun, nofun, nofun, rfl, rfl, List.isChain_nil, ?_⟩
    exact iff_of_true rfl List.isChain_nil
  | append_singleton leaves leaf ih =>
    unfold emitAll at ih ⊢
    rw [List.foldl_concat]
    exact ih.concat happart leaf

/-- A leaf of the current block stays out of the batches. -/
theorem flushLeaf_batches (sink : HistoricalLeafSink) (leaf : HistoricalLeaf) :
    (sink.flushLeaf view.appendLeaf leaf).currentBatch.height = sink.currentBatch.height ∧
      (sink.flushLeaf view.appendLeaf leaf).shardtreeBatches =
        if leaf.height = sink.currentBatch.height then sink.shardtreeBatches
        else view.emitLeaf sink.shardtreeBatches leaf := by
  unfold HistoricalLeafSink.flushLeaf HistoricalLeafSink.append
  split
  · exact ⟨view.height_append .., rfl⟩
  · exact ⟨rfl, rfl⟩

theorem flush_batches (sink : HistoricalLeafSink) (leaves : List HistoricalLeaf) :
    (leaves.foldl (HistoricalLeafSink.flushLeaf view.appendLeaf) sink).shardtreeBatches =
      (leaves.filter fun leaf => leaf.height ≠ sink.currentBatch.height).foldl view.emitLeaf
        sink.shardtreeBatches := by
  induction leaves generalizing sink with
  | nil => rfl
  | cons leaf leaves ih =>
    obtain ⟨hheight, hbatches⟩ := flushLeaf_batches sink leaf
    rw [List.foldl_cons, ih, hheight, hbatches, List.filter_cons]
    by_cases hcurrent : leaf.height = sink.currentBatch.height
    · simp [hcurrent]
    · simp [hcurrent]

/-- What a drain makes of a pool. -/
theorem drain_batches {T : Type} (state : HistoricalSubtreeSkipState T) :
    (drainHistoricalSkipState view.appendLeaf state []).2.shardtreeBatches =
      view.emitAll state.emittedLeaves := by
  unfold drainHistoricalSkipState HistoricalSubtreeSkipState.emittedLeaves
    HistoricalSubtreeSkipState.deferredLeaves emitAll
  cases state.currentBuffer with
  | none => rfl
  | some buffer =>
    dsimp only
    split
    · exact flush_batches _ _
    · rfl

end PoolView

/-! ## Merging the pools -/

section Merge

variable {target emitted : List ShardtreeBatch}

theorem mergeEmitted_cases (target : List ShardtreeBatch) (batch : ShardtreeBatch) :
    (∃ done last, target = done ++ [last] ∧ last.height = batch.height ∧
      mergeEmitted target batch = done ++ [last.join batch]) ∨
    (target.getLast?.map ShardtreeBatch.height ≠ some batch.height ∧
      mergeEmitted target batch = target ++ [batch]) := by
  unfold mergeEmitted
  rcases List.eq_nil_or_concat' target with rfl | ⟨done, last, rfl⟩
  · exact Or.inr (by simp)
  · by_cases hheight : last.height = batch.height
    · exact Or.inl ⟨done, last, rfl, hheight, by simp [hheight]⟩
    · exact Or.inr (by simp [hheight])

/-- No leaf is lost in a merge. -/
theorem mergeEmittedBatches_leaves (view : PoolView) (target emitted : List ShardtreeBatch) :
    (mergeEmittedBatches target emitted).flatMap view.leaves =
      target.flatMap view.leaves ++ emitted.flatMap view.leaves := by
  unfold mergeEmittedBatches
  induction emitted generalizing target with
  | nil => simp
  | cons batch emitted ih =>
    rw [List.foldl_cons, ih, List.flatMap_cons, ← List.append_assoc]
    congr 1
    rcases mergeEmitted_cases target batch with ⟨done, last, rfl, -, hmerge⟩ | ⟨-, hmerge⟩
    · simp [hmerge, view.leaves_join]
    · simp [hmerge]

/-- Batches of other blocks than the last are put behind. -/
theorem mergeEmittedBatches_eq_append (hblocks : emitted.IsChain fun a b => a.height ≠ b.height)
    (hapart : ∀ last ∈ target.getLast?, ∀ first ∈ emitted.head?, last.height ≠ first.height) :
    mergeEmittedBatches target emitted = target ++ emitted := by
  unfold mergeEmittedBatches
  induction emitted generalizing target with
  | nil => simp
  | cons batch emitted ih =>
    have hmerge : mergeEmitted target batch = target ++ [batch] := by
      rcases mergeEmitted_cases target batch with ⟨done, last, rfl, hheight, -⟩ | ⟨-, hmerge⟩
      · exact absurd hheight (hapart last (by simp) batch rfl)
      · exact hmerge
    rw [List.foldl_cons, hmerge, ih hblocks.tail]
    · simp
    · intro last hlast first hfirst
      obtain rfl : batch = last := by simpa using hlast
      exact hblocks.rel_head? hfirst

/-- A batch of the last block joins it, without its start position. -/
theorem mergeEmittedBatches_eq_join {done rest : List ShardtreeBatch} {last first : ShardtreeBatch}
    (hblocks : (first :: rest).IsChain fun a b => a.height ≠ b.height)
    (hheight : last.height = first.height) :
    mergeEmittedBatches (done ++ [last]) (first :: rest) = done ++ [last.join first] ++ rest := by
  have hmerge : mergeEmitted (done ++ [last]) first = done ++ [last.join first] := by
    simp [mergeEmitted, hheight]
  unfold mergeEmittedBatches
  rw [List.foldl_cons, hmerge]
  refine mergeEmittedBatches_eq_append hblocks.tail fun joined hjoined next hnext => ?_
  obtain rfl : last.join first = joined := by simpa using hjoined
  exact hheight ▸ hblocks.rel_head? hnext

end Merge

/-! ## Both pools -/

section Pools

variable {S O : Type} {sapling : HistoricalSubtreeSkipState S}
  {orchard : HistoricalSubtreeSkipState O}

theorem drainPools_eq (sapling : HistoricalSubtreeSkipState S)
    (orchard : HistoricalSubtreeSkipState O) :
    drainPools sapling orchard = mergeEmittedBatches (saplingView.emitAll sapling.emittedLeaves)
      (orchardView.emitAll orchard.emittedLeaves) := by
  have hfirst := (PoolView.emitAll_emits PoolView.sapling_apart sapling.emittedLeaves).blocks
  unfold drainPools
  rw [show ShardtreeBatch.appendSaplingLeaf = saplingView.appendLeaf from rfl,
    show ShardtreeBatch.appendOrchardLeaf = orchardView.appendLeaf from rfl,
    PoolView.drain_batches, PoolView.drain_batches,
    @mergeEmittedBatches_eq_append [] _ hfirst nofun, List.nil_append]

/-- The drained batches hold the leaves that are not lost. -/
theorem drainPools_leaves (sapling : HistoricalSubtreeSkipState S)
    (orchard : HistoricalSubtreeSkipState O) :
    (drainPools sapling orchard).flatMap saplingView.leaves =
        sapling.emittedLeaves.map (fun leaf => (leaf.node, leaf.retention)) ∧
      (drainPools sapling orchard).flatMap orchardView.leaves =
        orchard.emittedLeaves.map fun leaf => (leaf.node, leaf.retention) := by
  have hsapling := PoolView.emitAll_emits PoolView.sapling_apart sapling.emittedLeaves
  have horchard := PoolView.emitAll_emits PoolView.orchard_apart orchard.emittedLeaves
  rw [drainPools_eq, mergeEmittedBatches_leaves, mergeEmittedBatches_leaves, hsapling.leaves_eq,
    horchard.leaves_eq,
    List.flatMap_eq_nil_iff.mpr fun batch hbatch => (hsapling.alone batch hbatch).1,
    List.flatMap_eq_nil_iff.mpr fun batch hbatch => (horchard.alone batch hbatch).1]
  exact ⟨List.append_nil _, List.nil_append _⟩

/-- Leaves that can all be recovered have all been taken into the batches. -/
theorem PoolView.Holds.emitted_eq {view : PoolView} {T : Type}
    {state : HistoricalSubtreeSkipState T}
    {batches : List ShardtreeBatch} (h : view.Holds batches state.deferredLeaves)
    (hleaves : batches.flatMap view.leaves =
      state.emittedLeaves.map fun leaf => (leaf.node, leaf.retention)) :
    state.emittedLeaves = state.deferredLeaves := by
  have hlength := view.recovered_length_le batches
  rw [h.recovered_eq, hleaves, List.length_map, List.length_map] at hlength
  exact List.filter_sublist.eq_of_length_le hlength

/-- Where no block is shared, each pool's leaves are recovered from its own batches. -/
theorem holds_append_iff (saplingLeaves orchardLeaves : List HistoricalLeaf) :
    (saplingView.Holds (saplingView.emitAll saplingLeaves ++ orchardView.emitAll orchardLeaves)
        saplingLeaves ∧
      orchardView.Holds (saplingView.emitAll saplingLeaves ++ orchardView.emitAll orchardLeaves)
        orchardLeaves) ↔
      ConsecutiveInBlocks saplingLeaves ∧ ConsecutiveInBlocks orchardLeaves := by
  have hsapling := PoolView.emitAll_emits PoolView.sapling_apart saplingLeaves
  have horchard := PoolView.emitAll_emits PoolView.orchard_apart orchardLeaves
  have hnoSapling :=
    saplingView.recovered_of_empty fun batch hbatch => (horchard.alone batch hbatch).1
  have hnoOrchard :=
    orchardView.recovered_of_empty fun batch hbatch => (hsapling.alone batch hbatch).1
  rw [← hsapling.recovers, ← horchard.recovers]
  constructor
  · rintro ⟨hholds, hholds'⟩
    have hrecovered := hholds.recovered_eq
    have hrecovered' := hholds'.recovered_eq
    rw [PoolView.recovered_append, hnoSapling, List.append_nil] at hrecovered
    rw [PoolView.recovered_append, hnoOrchard, List.nil_append] at hrecovered'
    exact ⟨hrecovered, hrecovered'⟩
  · rintro ⟨hrecovered, hrecovered'⟩
    refine ⟨⟨?_, ?_⟩, ⟨?_, ?_⟩⟩
    · simp only [List.forall_mem_append]
      exact ⟨fun batch hbatch _ => hsapling.started batch hbatch,
        fun batch hbatch hne => absurd (horchard.alone batch hbatch).1 hne⟩
    · rw [PoolView.recovered_append, hnoSapling, List.append_nil, hrecovered]
    · simp only [List.forall_mem_append]
      exact ⟨fun batch hbatch hne => absurd (hsapling.alone batch hbatch).1 hne,
        fun batch hbatch _ => horchard.started batch hbatch⟩
    · rw [PoolView.recovered_append, hnoOrchard, List.nil_append, hrecovered']

/-- A block that ends the one pool's leaves and begins the other's. -/
def ShareBlock (saplingLeaves orchardLeaves : List HistoricalLeaf) : Prop :=
  ∃ last ∈ saplingLeaves.getLast?, ∃ first ∈ orchardLeaves.head?, last.height = first.height

/-- In a shared block the second pool's leaves have no start position. -/
theorem not_holds_of_shareBlock {saplingLeaves orchardLeaves : List HistoricalLeaf}
    (h : ShareBlock saplingLeaves orchardLeaves) (leaves : List HistoricalLeaf) :
    ¬ orchardView.Holds (mergeEmittedBatches (saplingView.emitAll saplingLeaves)
      (orchardView.emitAll orchardLeaves)) leaves := by
  have hsapling := PoolView.emitAll_emits PoolView.sapling_apart saplingLeaves
  have horchard := PoolView.emitAll_emits PoolView.orchard_apart orchardLeaves
  obtain ⟨lastLeaf, hlastLeaf, firstLeaf, hfirstLeaf, hshared⟩ := h
  have hlast := hsapling.last
  have hfirst := horchard.head
  rw [hlastLeaf, Option.map_some, Option.map_eq_some_iff] at hlast
  rw [hfirstLeaf, Option.map_some, Option.map_eq_some_iff] at hfirst
  obtain ⟨last, hlast, hlastHeight⟩ := hlast
  obtain ⟨first, hfirst, hfirstHeight⟩ := hfirst
  obtain ⟨done, hdone⟩ := List.getLast?_eq_some_iff.mp hlast
  obtain ⟨rest, hrest⟩ := List.head?_eq_some_iff.mp hfirst
  rw [hdone] at hsapling ⊢
  rw [hrest] at horchard ⊢
  rw [mergeEmittedBatches_eq_join horchard.blocks (by omega)]
  intro hholds
  have hstarted := hholds.started (last.join first) (by simp)
  rw [orchardView.leaves_join, orchardView.start_join, (hsapling.alone last (by simp)).2] at hstarted
  exact absurd (hstarted (by simp [horchard.nonempty first (by simp)])) (by simp)

/-- Without a shared block the merge puts the one pool's batches behind the other's. -/
theorem drainPools_eq_append (hsapling : sapling.emittedLeaves = sapling.deferredLeaves)
    (horchard : orchard.emittedLeaves = orchard.deferredLeaves)
    (happart : ¬ ShareBlock sapling.deferredLeaves orchard.deferredLeaves) :
    drainPools sapling orchard = saplingView.emitAll sapling.deferredLeaves ++
      orchardView.emitAll orchard.deferredLeaves := by
  have hemits := PoolView.emitAll_emits PoolView.sapling_apart sapling.deferredLeaves
  have hemits' := PoolView.emitAll_emits PoolView.orchard_apart orchard.deferredLeaves
  rw [drainPools_eq, hsapling, horchard]
  refine mergeEmittedBatches_eq_append hemits'.blocks fun last hlast first hfirst heq => happart ?_
  have hlastLeaf := hemits.last
  have hfirstLeaf := hemits'.head
  rw [hlast, Option.map_some, eq_comm, Option.map_eq_some_iff] at hlastLeaf
  rw [hfirst, Option.map_some, eq_comm, Option.map_eq_some_iff] at hfirstLeaf
  obtain ⟨lastLeaf, hlastLeaf, hlastHeight⟩ := hlastLeaf
  obtain ⟨firstLeaf, hfirstLeaf, hfirstHeight⟩ := hfirstLeaf
  exact ⟨lastLeaf, hlastLeaf, firstLeaf, hfirstLeaf, by omega⟩

/-- **When a drain keeps every leaf in its place.** Exactly if no deferred leaf is of the block
`u64::MAX`, the leaves of a block are at consecutive positions in each pool, and the block of the
last Sapling leaf is not the block of the first Ironwood leaf. -/
theorem drained_leaves_recoverable_iff :
    (saplingView.Holds (drainPools sapling orchard) sapling.deferredLeaves ∧
      orchardView.Holds (drainPools sapling orchard) orchard.deferredLeaves) ↔
      (∀ leaf ∈ sapling.deferredLeaves ++ orchard.deferredLeaves, leaf.height ≠ u64Max) ∧
        ConsecutiveInBlocks sapling.deferredLeaves ∧ ConsecutiveInBlocks orchard.deferredLeaves ∧
        ¬ ShareBlock sapling.deferredLeaves orchard.deferredLeaves := by
  rw [List.forall_mem_append, ← HistoricalSubtreeSkipState.emittedLeaves_eq_iff,
    ← HistoricalSubtreeSkipState.emittedLeaves_eq_iff]
  obtain ⟨hsaplingLeaves, horchardLeaves⟩ := drainPools_leaves sapling orchard
  constructor
  · rintro ⟨hholds, hholds'⟩
    have hsapling := hholds.emitted_eq hsaplingLeaves
    have horchard := hholds'.emitted_eq horchardLeaves
    have happart : ¬ ShareBlock sapling.deferredLeaves orchard.deferredLeaves := fun hshare => by
      rw [drainPools_eq, hsapling, horchard] at hholds'
      exact not_holds_of_shareBlock hshare _ hholds'
    rw [drainPools_eq_append hsapling horchard happart] at hholds hholds'
    obtain ⟨hconsecutive, hconsecutive'⟩ := (holds_append_iff _ _).mp ⟨hholds, hholds'⟩
    exact ⟨⟨hsapling, horchard⟩, hconsecutive, hconsecutive', happart⟩
  · rintro ⟨⟨hsapling, horchard⟩, hconsecutive, hconsecutive', happart⟩
    rw [drainPools_eq_append hsapling horchard happart]
    exact (holds_append_iff _ _).mpr ⟨hconsecutive, hconsecutive'⟩

end Pools

/-- A sample has confirmed the root of subtree 1. -/
def sampleConfirmed : HistoricalSubtreeSkipState Unit :=
  ⟨AList.insert 1 (.ofServer 900 [1] 0) ∅, none, none, {0}, [], false, ∅⟩

/-- A block at height 700 has brought the first leaf of the subtree, which is held back. -/
def holdingBack (node : Bytes) : HistoricalSubtreeSkipState Unit :=
  { sampleConfirmed with
    currentBuffer := some ⟨1, 900, some [1], false, false, false, none, 0,
      [⟨700, SHARD_LEAF_COUNT, node, .ephemeral⟩]⟩ }

example (sink : HistoricalLeafSink) :
    processSkipLeaf ShardtreeBatch.appendSaplingLeaf ⟨(), fun _ _ => some (), fun _ => []⟩
      sampleConfirmed ⟨700, SHARD_LEAF_COUNT, [7], .ephemeral⟩ sink = .ok (holdingBack [7], sink) :=
  rfl

/-- A tree that takes everything. -/
def lenientTree : ShardTreeOps Unit Unit where
  batchInsert _ _ _ := .ok ()
  insert _ _ _ := .ok ()
  checkpoint _ _ := .ok ()
  fromIter _ _ _ := none
  insertTree _ _ _ := .ok ()

/-- Both pools hold back a leaf of block 700: the drained list cannot be applied to the Ironwood
tree. -/
theorem shared_block_loses_position :
    ¬ (saplingView.Holds (drainPools (holdingBack [7]) (holdingBack [8]))
          (holdingBack [7]).deferredLeaves ∧
        orchardView.Holds (drainPools (holdingBack [7]) (holdingBack [8]))
          (holdingBack [8]).deferredLeaves) ∧
      applyPoolBatches lenientTree (drainPools (holdingBack [7]) (holdingBack [8]))
        (fun batch => (batch.orchardStartPosition, batch.orchard, batch.orchardEmptyCheckpoint))
        "Orchard" none [] () =
          .error (.sync "Missing Orchard start position for shardtree batch at height 700") := by
  constructor
  · rintro ⟨-, hholds⟩
    rw [drainPools_eq] at hholds
    refine not_holds_of_shareBlock ⟨⟨700, SHARD_LEAF_COUNT, [7], .ephemeral⟩, ?_,
      ⟨700, SHARD_LEAF_COUNT, [8], .ephemeral⟩, ?_, rfl⟩ _ hholds
    · rfl
    · rfl
  · have hdrained : drainPools (holdingBack [7]) (holdingBack [8]) =
        [⟨700, none, false, false, some SHARD_LEAF_COUNT, none, [([7], .ephemeral)],
          [([8], .ephemeral)]⟩] := by decide +kernel
    rw [hdrained]
    decide +kernel

end StashiWallet
