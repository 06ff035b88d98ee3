import StashiWallet.HistoricalGraftRuns

/-!
# Rollbacks during a graft

A sync run may rewind the trees while it goes on: when a batch does not follow the chain seen so
far, and when a stored note has to be found again. Both paths rewind the trees to a checkpoint and
take the position from it. They differ in what they do with the skip state, which is not in the
database: the repair drops it, the reorg keeps it.

What is kept is stale in two ways. Leaves of abandoned blocks may be held back in it, and roots
may be trusted in it that the rewound tree has lost. A run in which a kept skip state is never
stale in these ways puts the leaves of the replayed chain, and only these, into the tree.
-/

namespace StashiWallet

open Runs

/-- What happens to a pool during a sync run with rollbacks to a checkpoint after `size`
leaves. -/
inductive RollbackEvent where
  | scan (event : GraftEvent)
  | reorg (size : Nat)
  | repair (size : Nat)

namespace GraftRun

variable {T : Type}

/-- A checkpoint after `size` leaves can be in the tree: the leaves before it are there, none is
held back, and none is inside a subtree that is only a root. -/
def Rewindable (run : GraftRun T) (size : Nat) : Prop :=
  size ≤ run.position ∧ (∀ leaf ∈ run.heldBack, size ≤ leaf.position) ∧
    ∀ index ∈ run.graftedRoots,
      size ≤ index * SHARD_LEAF_COUNT ∨ (index + 1) * SHARD_LEAF_COUNT ≤ size

instance (run : GraftRun T) (size : Nat) : Decidable (run.Rewindable size) :=
  inferInstanceAs (Decidable (_ ∧ _ ∧ _))

/-- The tree, the position and the chain after a rollback. -/
def rewind (run : GraftRun T) (skip : Option (HistoricalSubtreeSkipState T)) (size : Nat) :
    GraftRun T :=
  { run with
    skip := skip
    position := size
    sink := { run.sink with
      emitted := run.sink.emitted.filter fun leaf => leaf.position < size }
    fed := run.fed.filter fun fed => fed.leaf.position < size
    graftedRoots := run.graftedRoots.filter fun index => (index + 1) * SHARD_LEAF_COUNT ≤ size }

/-- One event. The batch-boundary reorg of `sync_range_internal` goes on with the skip state it
has; the `FoundNote` repair sets it to `None`. -/
def chainStep (appendLeaf : ShardtreeBatch → Nat → Bytes → Retention → ShardtreeBatch)
    (ops : CommitmentTreeOps T) (run : GraftRun T) (event : RollbackEvent) : GraftRun T :=
  match event with
  | .scan event => run.step appendLeaf ops event
  | .reorg size =>
    if run.failed.isSome ∨ run.inBatch ∨ ¬ run.Rewindable size then run
    else run.rewind run.skip size
  | .repair size =>
    if run.failed.isSome ∨ run.inBatch ∨ ¬ run.Rewindable size then run
    else run.rewind none size

/-- The tree has exactly the leaves of the chain as it is now: what was emitted and not rewound is
in tree order and belongs to the chain, and whenever the pool may be checkpointed, every leaf of
the chain is there once or under a root. -/
structure FollowsChain (run : GraftRun T) : Prop where
  inOrder : run.sink.emitted.Pairwise fun a b => a.position < b.position
  own : ∀ leaf ∈ run.sink.emitted, ∃ fed ∈ run.fed, fed.leaf = leaf
  once : (∀ state ∈ run.skip, state.checkpointSafe = true) → ∀ fed ∈ run.fed,
    run.sink.emitted.count fed.leaf = 1 ∨ fed.leaf.subtree ∈ run.graftedRoots ∨
      run.Queues fed.leaf.subtree

/-- A skip state that survives a rollback to `size` leaves: it holds no leaf back, and it trusts
no root that is cut off. -/
def Survives (size : Nat) (state : HistoricalSubtreeSkipState T) : Prop :=
  state.heldBack = [] ∧
    ∀ index, state.trusts index = true → (index + 1) * SHARD_LEAF_COUNT ≤ size

/-- No event of the scan meets a queued root with a mismatch, and no reorg keeps a stale skip
state. -/
def KeepsChain (ops : CommitmentTreeOps T) (run : GraftRun T) : RollbackEvent → Prop
  | .scan event => run.KeepsQueue ops event
  | .reorg size => ∀ state ∈ run.skip, Survives size state
  | .repair _ => True

/-! ## Between batches nothing is queued -/

variable {appendLeaf : ShardtreeBatch → Nat → Bytes → Retention → ShardtreeBatch}
  {ops : CommitmentTreeOps T} {run : GraftRun T}

/-- Between batches nothing is queued. -/
def Idle (run : GraftRun T) : Prop :=
  run.inBatch = false → ∀ state ∈ run.skip, state.pendingRoots = []

theorem Idle.step (hidle : run.Idle) (h : run.Accounts) (event : GraftEvent) :
    (run.step appendLeaf ops event).Idle := by
  unfold GraftRun.step
  by_cases hfailed : run.failed.isSome = true
  · rw [if_pos hfailed]
    exact hidle
  rw [if_neg hfailed]
  cases event with
  | block height => exact nofun
  | leaf node retention =>
    dsimp only
    split_ifs with hbatch
    · unfold GraftRun.feed
      intro hno
      split at hno <;> exact absurd hbatch (by rw [hno]; nofun)
    · exact hidle
  | endBatch =>
    dsimp only
    split_ifs with hbatch
    · unfold GraftRun.closeBatch
      intro _ state hstate
      cases hskip : run.skip with
      | none => rw [hskip] at hstate; cases hstate
      | some old =>
        rw [hskip] at hstate
        obtain rfl := Option.some.inj hstate
        refine List.filter_eq_nil_iff.mpr ?_
        intro root hroot
        obtain ⟨queued, hqueued, hindex⟩ :=
          (HistoricalSubtreeSkipState.queues_iff (h.sound old hskip).disabled).mpr
            ⟨root, hroot, rfl⟩
        have hmem : root.index ∈ old.pendingVerifiedRoots.map VerifiedSubtreeRoot.index :=
          List.mem_map.mpr ⟨queued, hqueued, hindex⟩
        simpa using hmem
    · exact hidle
  | mergeRoots remote =>
    dsimp only
    split_ifs with hbatch
    · exact hidle
    · unfold GraftRun.mergeReady
      intro hno state hstate
      cases hskip : run.skip with
      | none => rw [hskip] at hstate; cases hstate
      | some old =>
        rw [hskip] at hstate
        obtain rfl := Option.some.inj hstate
        exact hidle hno old hskip
  | drain =>
    dsimp only
    split_ifs with hbatch
    · exact hidle
    · unfold GraftRun.flushPrefill
      cases hskip : run.skip with
      | none => exact hidle
      | some old =>
        intro hno state hstate
        obtain rfl := Option.some.inj hstate
        exact hidle hno old hskip

/-! ## Rewinding -/

/-- A skip state that survives stays sound at the rewound position. -/
theorem sound_of_survives {state : HistoricalSubtreeSkipState T} {position size : Nat}
    {grafted : List Nat} (h : state.Sound position grafted) (hsurvives : Survives size state) :
    state.Sound size
      (grafted.filter fun index => (index + 1) * SHARD_LEAF_COUNT ≤ size) where
  disabled := h.disabled
  known := h.known
  trusted := fun index htrusts =>
    List.mem_filter.mpr ⟨h.trusted index htrusts, decide_eq_true (hsurvives.2 index htrusts)⟩
  single := h.single
  sample := h.sample
  deferred := by
    intro buffer hbuffer hkind
    have hempty := hsurvives.1
    rw [heldBack_of_some hbuffer] at hempty
    exact absurd hempty (h.deferred buffer hbuffer hkind).nonempty

/-- **The rollback lemma.** With a skip state that is sound and holds nothing back, the rewound
run has its accounts in order. -/
theorem Accounts.rewind (h : run.Accounts) (hidle : run.Idle) (hbatch : run.inBatch = false)
    {size : Nat} (hsize : run.Rewindable size) {skip : Option (HistoricalSubtreeSkipState T)}
    (hskip : ∀ state ∈ skip, state.heldBack = [] ∧ state.Sound size
      (run.graftedRoots.filter fun index => (index + 1) * SHARD_LEAF_COUNT ≤ size)) :
    (run.rewind skip size).Accounts := by
  obtain ⟨-, hback, hroots⟩ := hsize
  have hempty : (run.rewind skip size).heldBack = [] := by
    cases hstate : skip with
    | none => rfl
    | some state => exact (hskip state hstate).1
  have hemitted : ∀ leaf, leaf ∈ (run.rewind skip size).sink.emitted ↔
      leaf ∈ run.sink.emitted ∧ leaf.position < size := by
    intro leaf
    exact List.mem_filter.trans (by rw [decide_eq_true_iff])
  have hfed : ∀ fed, fed ∈ (run.rewind skip size).fed ↔
      fed ∈ run.fed ∧ fed.leaf.position < size := by
    intro fed
    exact List.mem_filter.trans (by rw [decide_eq_true_iff])
  refine ⟨fun state hstate => (hskip state hstate).2, ?_, ?_, ?_, ?_, ?_⟩
  · rw [hempty, List.append_nil]
    exact (List.pairwise_append.mp h.order).1.filter _
  · rw [hempty, List.append_nil]
    intro leaf hleaf
    exact ((hemitted leaf).mp hleaf).2
  · rw [hempty, List.append_nil]
    intro leaf hleaf
    obtain ⟨hold, hlt⟩ := (hemitted leaf).mp hleaf
    obtain ⟨fed, hin, rfl⟩ := h.ofFed leaf (List.mem_append_left _ hold)
    exact ⟨fed, (hfed fed).mpr ⟨hin, hlt⟩, rfl⟩
  · rw [hempty, List.append_nil]
    intro fed hin
    obtain ⟨hold, hlt⟩ := (hfed fed).mp hin
    rcases h.kept fed hold with hkept | hgrafted | ⟨state, hstate, hqueues⟩
    · rcases List.mem_append.mp hkept with hemit | hheld
      · exact Or.inl ((hemitted _).mpr ⟨hemit, hlt⟩)
      · exact absurd hlt (Nat.not_lt.mpr (hback _ hheld))
    · -- a root that stands for a leaf before the checkpoint lies before it as a whole
      refine Or.inr (Or.inl (List.mem_filter.mpr ⟨hgrafted, decide_eq_true ?_⟩))
      rcases hroots _ hgrafted with hbelow | habove
      · have hstart : fed.leaf.subtree * SHARD_LEAF_COUNT ≤ fed.leaf.position :=
          Nat.div_mul_le_self _ _
        omega
      · exact habove
    · obtain ⟨root, hroot, -⟩ :=
        (HistoricalSubtreeSkipState.queues_iff (h.sound state hstate).disabled).mp hqueues
      rw [hidle hbatch state hstate] at hroot
      cases hroot
  · intro fed hin hmark
    obtain ⟨hold, hlt⟩ := (hfed fed).mp hin
    rcases h.marked fed hold hmark with hemit | hflag
    · exact Or.inl ((hemitted _).mpr ⟨hemit, hlt⟩)
    · exact Or.inr hflag

/-- The step lemma with rollbacks. -/
theorem Accounts.chainStep (h : run.Accounts) (hidle : run.Idle) {event : RollbackEvent}
    (hsafe : run.KeepsChain ops event) :
    (run.chainStep appendLeaf ops event).Accounts ∧ (run.chainStep appendLeaf ops event).Idle := by
  cases event with
  | scan event => exact ⟨h.step hsafe, hidle.step h event⟩
  | reorg size =>
    unfold GraftRun.chainStep
    dsimp only
    split_ifs with hno
    · exact ⟨h, hidle⟩
    · push Not at hno
      obtain ⟨-, hbatch, hsize⟩ := hno
      have hclosed : run.inBatch = false := Bool.eq_false_iff.mpr hbatch
      refine ⟨h.rewind hidle hclosed hsize ?_, hidle⟩
      intro state hstate
      exact ⟨(hsafe state hstate).1, sound_of_survives (h.sound state hstate) (hsafe state hstate)⟩
  | repair size =>
    unfold GraftRun.chainStep
    dsimp only
    split_ifs with hno
    · exact ⟨h, hidle⟩
    · push Not at hno
      obtain ⟨-, hbatch, hsize⟩ := hno
      have hclosed : run.inBatch = false := Bool.eq_false_iff.mpr hbatch
      exact ⟨h.rewind hidle hclosed hsize nofun, fun _ => nofun⟩

theorem Accounts.followsChain (h : run.Accounts) : run.FollowsChain := by
  have horder := (List.pairwise_append.mp h.order).1
  have hnodup : run.sink.emitted.Nodup := by
    refine horder.imp ?_
    rintro a b hlt rfl
    exact Nat.lt_irrefl _ hlt
  refine ⟨horder, fun leaf hleaf => h.ofFed leaf (List.mem_append_left _ hleaf), ?_⟩
  intro hsafe fed hfed
  rcases h.kept fed hfed with hkept | hroot | hqueues
  · rcases List.mem_append.mp hkept with hemit | hback
    · exact Or.inl (List.count_eq_one_of_mem hnodup hemit)
    · cases hskip : run.skip with
      | none =>
        rw [heldBack, hskip] at hback
        cases hback
      | some state =>
        rw [heldBack_some hskip] at hback
        have hsound := h.sound state hskip
        exact Or.inr (Or.inl (hsound.trusted _
          (trusts_of_heldBack hsound (hsafe state hskip) hback)))
  · exact Or.inr (Or.inl hroot)
  · exact Or.inr (Or.inr hqueues)

/-- **A rollback puts the replayed chain into the tree.** In every run in which no reorg keeps a
stale skip state, and no mismatch meets a queued root, the tree follows the chain: nothing of an
abandoned block is emitted after the rollback, and every replayed leaf is there once or under a
root. -/
theorem tree_follows_chain
    (appendLeaf : ShardtreeBatch → Nat → Bytes → Retention → ShardtreeBatch)
    (ops : CommitmentTreeOps T) (roots : AList (fun _ : Nat => HistoricalSubtreeRoot))
    (hints : Finset Nat) (position : Nat) (events : List RollbackEvent)
    (h : EachStep (GraftRun.chainStep appendLeaf ops) (KeepsChain ops)
      (start roots hints position) events) :
    Throughout (GraftRun.chainStep appendLeaf ops) FollowsChain (start roots hints position)
      events := by
  have hstart : (start roots hints position : GraftRun T).Idle := by
    intro _ state hstate
    obtain rfl := Option.some.inj hstate
    rfl
  have hinvariant := run_invariant (P := fun run : GraftRun T => run.Accounts ∧ run.Idle)
    (fun run event hrun hsafe => hrun.1.chainStep hrun.2 hsafe)
    ⟨accounts_start roots hints position, hstart⟩ h
  intro done hdone
  exact (hinvariant done hdone).1.followsChain

section Runs

/-- A tree without content. -/
def emptyTree : CommitmentTreeOps Unit := ⟨(), fun _ _ => some (), fun _ => []⟩

/-- One announced subtree, the sample of its group. -/
def sampledRoots : AList (fun _ : Nat => HistoricalSubtreeRoot) :=
  AList.insert 0 (.ofServer 100 [1] 0) ∅

/-- A sample that a reorg interrupts. -/
theorem tree_follows_chain_sample :
    Throughout (GraftRun.chainStep ShardtreeBatch.appendSaplingLeaf emptyTree) FollowsChain
      (start sampledRoots ∅ 0)
      [.scan (.block 100), .scan (.leaf [7] .ephemeral), .scan .endBatch, .reorg 0,
        .scan (.block 100), .scan (.leaf [9] .ephemeral)] := by
  refine tree_follows_chain _ _ _ _ _ _ ?_
  simp only [eachStep_cons, eachStep_nil, and_true]
  have hblock : ∀ height node retention, GraftEvent.block height ≠ .leaf node retention := by
    intro height node retention h
    cases h
  have hend : ∀ node retention, GraftEvent.endBatch ≠ .leaf node retention := by
    intro node retention h
    cases h
  refine ⟨fun node retention h => absurd h (hblock _ _ _), ?_,
    fun node retention h => absurd h (hend _ _), ?_,
    fun node retention h => absurd h (hblock _ _ _), ?_⟩
  · intro node retention _ state hstate _
    obtain rfl := Option.some.inj hstate
    rfl
  · intro state hstate
    obtain rfl := Option.some.inj hstate
    refine ⟨rfl, ?_⟩
    intro index htrusts
    have hlookup : (sampledRoots.lookup index).any HistoricalSubtreeRoot.trusted = true := htrusts
    unfold sampledRoots at hlookup
    by_cases hindex : index = 0
    · rw [hindex, AList.lookup_insert] at hlookup
      cases hlookup
    · rw [AList.lookup_insert_ne hindex] at hlookup
      cases hlookup
  · intro node retention _ state hstate _
    obtain rfl := Option.some.inj hstate
    rfl

/-- The root of subtree 1 is in the tree. The last leaf before the subtree and the first leaf in
it come, the second one is held back, and a reorg abandons both. When the replayed block brings
the last leaf before the subtree again, the abandoned leaf is flushed. -/
theorem abandoned_leaf_is_emitted :
    ¬ Throughout (GraftRun.chainStep ShardtreeBatch.appendSaplingLeaf emptyTree) FollowsChain
      (start (AList.insert 1 ⟨200, none, none, true⟩ ∅) ∅ (SHARD_LEAF_COUNT - 1))
      [.scan (.block 100), .scan (.leaf [7] .ephemeral), .scan (.leaf [8] .ephemeral),
        .scan .endBatch, .reorg (SHARD_LEAF_COUNT - 1), .scan (.block 100),
        .scan (.leaf [9] .ephemeral)] := by
  intro h
  have hown := h.last.own ⟨100, SHARD_LEAF_COUNT, [8], .ephemeral⟩ (by decide +kernel)
  revert hown
  decide +kernel

end Runs

end GraftRun

end StashiWallet
