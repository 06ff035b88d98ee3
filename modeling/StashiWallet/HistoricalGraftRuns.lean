import StashiWallet.HistoricalGrafts
import StashiWallet.Runs

/-!
# No leaf is lost to a graft

A leaf that the engine holds back is still owed to the tree. At every moment in which the pool
may be checkpointed, a leaf must have been emitted, or a root must stand for it, in the tree or
queued for the end of the batch.

The emitted leaves followed by the leaves held back are always a sequence in tree order, and a
leaf disappears from it only when its whole subtree is complete and its root is trusted or
queued. The queue is not safe, though: once a later subtree of the same batch disagrees with the
root announced for it, grafting is disabled and the queue is never written. So the accounts are
kept in the runs in which no disagreement meets a queued root.
-/

namespace StashiWallet

open Runs

/-! ## Positions in a subtree -/

namespace HistoricalLeaf

variable {leaf : HistoricalLeaf}

theorem not_endsSubtree_of_first (h : leaf.position % SHARD_LEAF_COUNT = 0) :
    leaf.endsSubtree = false := by
  rw [endsSubtree, h]
  decide

/-- The position after a leaf that does not end its subtree is inside the same subtree. -/
theorem next_inside (h : leaf.endsSubtree = false) :
    (leaf.position + 1) / SHARD_LEAF_COUNT = leaf.subtree ∧
      (leaf.position + 1) % SHARD_LEAF_COUNT ≠ 0 := by
  simp only [endsSubtree, beq_eq_false_iff_ne] at h
  simp only [subtree, SHARD_LEAF_COUNT, SHARD_HEIGHT] at *
  omega

end HistoricalLeaf

/-! ## What one leaf does

Each part of `process_historical_leaf` is described once; the later proofs use these
descriptions. -/

section Spec

variable {appendLeaf : ShardtreeBatch → Nat → Bytes → Retention → ShardtreeBatch}
variable {T : Type} {ops : CommitmentTreeOps T}
variable {state state' : HistoricalSubtreeSkipState T} {buffer : HistoricalSubtreeBuffer T}
variable {leaf : HistoricalLeaf} {sink sink' : HistoricalLeafSink}

namespace HistoricalLeafSink

@[simp]
theorem append_emitted : (sink.append appendLeaf leaf).emitted = sink.emitted ++ [leaf] := rfl

@[simp]
theorem flushLeaf_emitted :
    (sink.flushLeaf appendLeaf leaf).emitted = sink.emitted ++ [leaf] := by
  by_cases h : leaf.height = sink.currentBatch.height
  · simp [flushLeaf, h]
  · simp [flushLeaf, h]

/-- A flush emits the leaves of the buffer in their order. -/
@[simp]
theorem flush_emitted :
    (sink.flush appendLeaf buffer).emitted = sink.emitted ++ buffer.bufferedLeaves := by
  have hfold : ∀ (leaves : List HistoricalLeaf) (sink : HistoricalLeafSink),
      (leaves.foldl (flushLeaf appendLeaf) sink).emitted = sink.emitted ++ leaves := by
    intro leaves
    induction leaves with
    | nil => simp
    | cons leaf leaves ih =>
      intro sink
      rw [List.foldl_cons, ih, flushLeaf_emitted, List.append_assoc, List.singleton_append]
  exact hfold _ _

end HistoricalLeafSink

/-- A completed sample changes nothing but the verdict on its group. -/
theorem finish_sample {height : Nat} (hsample : buffer.verifySample = true)
    (h : finishHistoricalBuffer appendLeaf ops state buffer height sink = .ok (state', sink')) :
    sink' = sink ∧
      ((∃ samples, state' = { state with verifiedSamples := samples }) ∨
        ¬ (buffer.expectedEndHeight = height ∧ buffer.sampleMatches ops = true) ∧
          state' = { state with graftingDisabled := true }) := by
  unfold finishHistoricalBuffer at h
  rw [if_pos hsample] at h
  by_cases hmatch : buffer.expectedEndHeight = height ∧ buffer.sampleMatches ops = true
  · rw [if_pos (by simpa using hmatch)] at h
    obtain ⟨rfl, rfl⟩ := Prod.mk.inj (Except.ok.inj h)
    exact ⟨rfl, Or.inl ⟨_, rfl⟩⟩
  · rw [if_neg (by simpa using hmatch)] at h
    obtain ⟨rfl, rfl⟩ := Prod.mk.inj (Except.ok.inj h)
    exact ⟨rfl, Or.inr ⟨hmatch, rfl⟩⟩

/-- A completed buffer is flushed, or represented by its root, or its root is queued. -/
theorem finish_deferred {height : Nat} (hdeferred : buffer.verifySample = false)
    (h : finishHistoricalBuffer appendLeaf ops state buffer height sink = .ok (state', sink')) :
    (buffer.expectedEndHeight ≠ height ∧ buffer.rootPersisted = false ∧
        state' = { state with graftingDisabled := true } ∧
        sink' = sink.flush appendLeaf buffer) ∨
      (buffer.rootPersisted = true ∧ state' = state ∧ sink' = sink) ∨
      (buffer.rootPersisted = false ∧ sink' = sink ∧ ∃ root,
        state' = { state with
          pendingRoots := state.pendingRoots ++
            [⟨buffer.subtreeIndex, buffer.expectedEndHeight, root⟩] }) := by
  unfold finishHistoricalBuffer at h
  simp only [hdeferred, Bool.false_eq_true, if_false] at h
  by_cases hheight : buffer.expectedEndHeight = height
  · cases hpersisted : buffer.rootPersisted with
    | true =>
      simp only [hheight, hpersisted, decide_true, Bool.not_true, Bool.false_eq_true, if_false,
        if_true, Except.ok.injEq, Prod.mk.injEq] at h
      exact Or.inr (Or.inl ⟨rfl, h.1.symm, h.2.symm⟩)
    | false =>
      simp only [hheight, hpersisted, decide_true, Bool.not_true, Bool.false_eq_true,
        if_false] at h
      cases hroot : buffer.expectedRoot with
      | none => simp [hroot] at h
      | some root =>
        simp only [hroot, Except.ok.injEq, Prod.mk.injEq] at h
        exact Or.inr (Or.inr ⟨rfl, h.2.symm, root, by rw [hheight]; exact h.1.symm⟩)
  · cases hpersisted : buffer.rootPersisted with
    | true => simp [hheight, hpersisted] at h
    | false =>
      simp only [hheight, hpersisted, decide_false, Bool.not_false, Bool.false_eq_true,
        if_true, if_false, Except.ok.injEq, Prod.mk.injEq] at h
      exact Or.inl ⟨hheight, rfl, h.1.symm, h.2.symm⟩

end Spec

/-! ## The invariant of the skip state -/

namespace HistoricalSubtreeSkipState

variable {T : Type}

/-- The leaves held back. -/
def heldBack (state : HistoricalSubtreeSkipState T) : List HistoricalLeaf :=
  state.currentBuffer.elim [] HistoricalSubtreeBuffer.bufferedLeaves

/-- A buffer that holds leaves back, when the next leaf has position `position`. -/
structure Deferring (state : HistoricalSubtreeSkipState T) (position : Nat)
    (buffer : HistoricalSubtreeBuffer T) : Prop where
  enabled : state.graftingDisabled = false
  held : buffer.leavesEmitted = false
  nonempty : buffer.bufferedLeaves ≠ []
  index : position / SHARD_LEAF_COUNT = buffer.subtreeIndex
  inside : position % SHARD_LEAF_COUNT ≠ 0
  leaves : ∀ leaf ∈ buffer.bufferedLeaves, leaf.subtree = buffer.subtreeIndex
  known : (state.rootsByIndex.lookup buffer.subtreeIndex).isSome = true
  persisted : buffer.rootPersisted = true → state.trusts buffer.subtreeIndex = true

/-- The skip state between two leaves. `grafted` are the subtrees whose roots are in the tree. -/
structure Sound (state : HistoricalSubtreeSkipState T) (position : Nat) (grafted : List Nat) :
    Prop where
  disabled : state.graftingDisabled = true → state.pendingRoots = []
  known : ∀ root ∈ state.pendingRoots, (state.rootsByIndex.lookup root.index).isSome = true
  trusted : ∀ index, state.trusts index = true → index ∈ grafted
  single : state.currentBuffer ≠ none → state.passthroughSubtree = none
  sample : ∀ buffer ∈ state.currentBuffer, buffer.verifySample = true →
    buffer.leavesEmitted = true ∧ buffer.bufferedLeaves = []
  deferred : ∀ buffer ∈ state.currentBuffer, buffer.verifySample = false →
    Deferring state position buffer

/-- While nothing is queued behind a disabled graft, the queue is what it looks like. -/
theorem queues_iff {state : HistoricalSubtreeSkipState T}
    (h : state.graftingDisabled = true → state.pendingRoots = []) {index : Nat} :
    state.queues index ↔ ∃ root ∈ state.pendingRoots, root.index = index := by
  unfold queues pendingVerifiedRoots
  cases hdisabled : state.graftingDisabled with
  | true => simp [h hdisabled]
  | false => simp [List.mem_insertionSort]

/-- The next leaf is the last of the buffered subtree, and the subtree is not what was announced:
it ends at another height, or its leaves do not hash to the sampled root. -/
def Mismatch (ops : CommitmentTreeOps T) (state : HistoricalSubtreeSkipState T)
    (leaf : HistoricalLeaf) : Prop :=
  ∃ buffer ∈ state.currentBuffer, buffer.subtreeIndex = leaf.subtree ∧ leaf.endsSubtree = true ∧
    if buffer.verifySample then
      ∃ tree ∈ buffer.sampleTree, ∃ tree' ∈ ops.append tree leaf.node,
        ¬ (buffer.expectedEndHeight = leaf.height ∧
          ({ buffer with
            sampleTree := some tree'
            sampleLeafCount := saturatingAdd buffer.sampleLeafCount 1 } :
              HistoricalSubtreeBuffer T).sampleMatches ops = true)
    else
      buffer.rootPersisted = false ∧ leaf.retention.isMarked = false ∧
        buffer.expectedEndHeight ≠ leaf.height

end HistoricalSubtreeSkipState

/-! ## The step of one leaf -/

section LeafStep

variable {appendLeaf : ShardtreeBatch → Nat → Bytes → Retention → ShardtreeBatch}
variable {T : Type} {ops : CommitmentTreeOps T}
variable {state state' : HistoricalSubtreeSkipState T} {buffer : HistoricalSubtreeBuffer T}
variable {leaf : HistoricalLeaf} {sink sink' : HistoricalLeafSink}
variable {position : Nat} {grafted : List Nat}

namespace HistoricalSubtreeSkipState

variable (h : state.Sound position grafted)

include h

/-- A state without a buffer is as sound as another one with the same roots and queue. -/
theorem Sound.without_buffer (hbuffer : state'.currentBuffer = none)
    (hroots : state'.rootsByIndex = state.rootsByIndex)
    (hpending : state'.pendingRoots = state.pendingRoots)
    (hdisabled : state'.graftingDisabled = true → state.pendingRoots = []) {next : Nat} :
    state'.Sound next grafted where
  disabled := fun h' => by rw [hpending]; exact hdisabled h'
  known := by rw [hpending, hroots]; exact h.known
  trusted := by unfold trusts; rw [hroots]; exact h.trusted
  single := fun h' => absurd hbuffer h'
  sample := by rw [hbuffer]; nofun
  deferred := by rw [hbuffer]; nofun

/-- Dropping the buffer of a sound state. -/
theorem Sound.drop_buffer {next : Nat} :
    ({ state with currentBuffer := none } : HistoricalSubtreeSkipState T).Sound next grafted where
  disabled := h.disabled
  known := h.known
  trusted := h.trusted
  single := fun h' => absurd rfl h'
  sample := nofun
  deferred := nofun

/-- Grafting stops only when nothing is queued. -/
theorem Sound.disable (hbuffer : state.currentBuffer = none) (hempty : state.pendingRoots = []) :
    ({ state with graftingDisabled := true } : HistoricalSubtreeSkipState T).Sound position
      grafted := by
  refine Sound.without_buffer h ?_ ?_ ?_ (fun _ => hempty)
  · exact hbuffer
  · rfl
  · rfl

/-- A sound state takes a sound buffer. -/
theorem Sound.with_buffer (hpass : state.passthroughSubtree = none) {next : Nat}
    (hsample : buffer.verifySample = true →
      buffer.leavesEmitted = true ∧ buffer.bufferedLeaves = [])
    (hdeferred : buffer.verifySample = false → Deferring state next buffer) :
    ({ state with currentBuffer := some buffer } : HistoricalSubtreeSkipState T).Sound next
      grafted where
  disabled := h.disabled
  known := h.known
  trusted := h.trusted
  single := fun _ => hpass
  sample := by
    intro b hb
    obtain rfl := Option.some.inj hb
    exact hsample
  deferred := by
    intro b hb hkind
    obtain rfl := Option.some.inj hb
    have hb := hdeferred hkind
    exact ⟨hb.enabled, hb.held, hb.nonempty, hb.index, hb.inside, hb.leaves, hb.known, hb.persisted⟩

end HistoricalSubtreeSkipState

open HistoricalSubtreeSkipState

/-- What a leaf does to the accounts of the pool. It joins the leaves emitted and held back, or
it completes a subtree whose leaves are dropped for a root. -/
structure LeafStep (grafted : List Nat) (leaf : HistoricalLeaf)
    (state : HistoricalSubtreeSkipState T) (sink : HistoricalLeafSink)
    (state' : HistoricalSubtreeSkipState T) (sink' : HistoricalLeafSink) : Prop where
  sound : state'.Sound (leaf.position + 1) grafted
  marked : leaf.retention.isMarked = true →
    leaf ∈ sink'.emitted ∨ state.trusts leaf.subtree = true
  grows : sink.emitted <+: sink'.emitted
  queue : state.pendingRoots <+: state'.pendingRoots
  roots : state'.rootsByIndex = state.rootsByIndex
  sequence : sink'.emitted ++ state'.heldBack = sink.emitted ++ state.heldBack ++ [leaf] ∨
    sink'.emitted = sink.emitted ∧ state'.heldBack = [] ∧
      (∀ held ∈ state.heldBack ++ [leaf], held.subtree = leaf.subtree) ∧
      (leaf.subtree ∈ grafted ∨ state'.queues leaf.subtree)

/-- The leaf is emitted behind everything that was held back, and nothing is held back any
more. -/
theorem LeafStep.of_emitted (hsound : state'.Sound (leaf.position + 1) grafted)
    (hemitted : sink'.emitted = sink.emitted ++ state.heldBack ++ [leaf])
    (hheld : state'.heldBack = []) (hroots : state'.rootsByIndex = state.rootsByIndex)
    (hpending : state'.pendingRoots = state.pendingRoots) :
    LeafStep grafted leaf state sink state' sink' where
  sound := hsound
  marked := fun _ => Or.inl (by rw [hemitted]; simp)
  grows := by rw [hemitted, List.append_assoc]; exact List.prefix_append _ _
  queue := by rw [hpending]
  roots := hroots
  sequence := Or.inl (by rw [hheld, List.append_nil, hemitted])

theorem heldBack_of_none (h : state.currentBuffer = none) : state.heldBack = [] := by
  rw [heldBack, h]; rfl

theorem heldBack_of_some (h : state.currentBuffer = some buffer) :
    state.heldBack = buffer.bufferedLeaves := by
  rw [heldBack, h]; rfl

/-- A leaf that opens or keeps a subtree of plain leaves, after what was held back. -/
theorem passThrough_step (h : state.Sound position grafted) {flushed : HistoricalLeafSink}
    (hflushed : flushed.emitted = sink.emitted ++ state.heldBack)
    (hp : passThrough appendLeaf { state with currentBuffer := none } leaf flushed =
      (state', sink')) :
    LeafStep grafted leaf state sink state' sink' := by
  obtain ⟨hstate, hsink⟩ := Prod.mk.inj hp
  have hsame : state'.currentBuffer = none ∧ state'.rootsByIndex = state.rootsByIndex ∧
      state'.pendingRoots = state.pendingRoots ∧
      state'.graftingDisabled = state.graftingDisabled := by
    by_cases hend : leaf.endsSubtree = true
    · rw [if_pos hend] at hstate
      rw [← hstate]
      exact ⟨rfl, rfl, rfl, rfl⟩
    · rw [if_neg hend] at hstate
      rw [← hstate]
      exact ⟨rfl, rfl, rfl, rfl⟩
  obtain ⟨hbuffer, hroots, hpending, hdisabled⟩ := hsame
  refine LeafStep.of_emitted ?_ ?_ (heldBack_of_none hbuffer) hroots hpending
  · exact h.without_buffer hbuffer hroots hpending
      (fun h' => h.disabled (by rw [← hdisabled]; exact h'))
  · rw [← hsink, HistoricalLeafSink.append_emitted, hflushed]

/-- Dropping a buffer that is not there. -/
theorem drop_none (h : state.currentBuffer = none) :
    ({ state with currentBuffer := none } : HistoricalSubtreeSkipState T) = state := by
  cases state
  cases h
  rfl

variable (h : state.Sound leaf.position grafted)

include h

/-- A leaf of a sample is emitted at once. -/
theorem sample_step (hpass : state.passthroughSubtree = none) (hheld : state.heldBack = [])
    {completed : HistoricalSubtreeBuffer T}
    (hstep : closeOrKeep appendLeaf ops state completed leaf (sink.append appendLeaf leaf) =
      .ok (state', sink'))
    (hkind : completed.verifySample = true ∧ completed.leavesEmitted = true ∧
      completed.bufferedLeaves = [])
    (hsafe : leaf.endsSubtree = true →
      ¬ (completed.expectedEndHeight = leaf.height ∧ completed.sampleMatches ops = true) →
      state.pendingRoots = []) : LeafStep grafted leaf state sink state' sink' := by
  unfold closeOrKeep at hstep
  by_cases hend : leaf.endsSubtree = true
  · rw [if_pos hend] at hstep
    obtain ⟨rfl, ⟨samples, rfl⟩ | ⟨hmismatch, rfl⟩⟩ := finish_sample hkind.1 hstep
    · refine LeafStep.of_emitted ?_ (by simp [hheld]) (heldBack_of_none rfl) rfl rfl
      exact ⟨h.disabled, h.known, h.trusted, fun hsome => absurd rfl hsome, nofun, nofun⟩
    · refine LeafStep.of_emitted ?_ (by simp [hheld]) (heldBack_of_none rfl) rfl rfl
      exact h.drop_buffer.disable rfl (hsafe hend hmismatch)
  · rw [if_neg hend] at hstep
    obtain ⟨rfl, rfl⟩ := Prod.mk.inj (Except.ok.inj hstep)
    refine LeafStep.of_emitted ?_ (by simp [hheld]) ?_ rfl rfl
    · refine h.with_buffer hpass (fun _ => hkind.2) ?_
      rw [hkind.1]
      nofun
    · rw [heldBack_of_some rfl, hkind.2.2]

/-- A leaf of a buffer that holds leaves back. -/
theorem hold_step (hpass : state.passthroughSubtree = none) {completed : HistoricalSubtreeBuffer T}
    (hstep : closeOrKeep appendLeaf ops state completed leaf sink = .ok (state', sink'))
    (hkind : completed.verifySample = false) (hheld : completed.leavesEmitted = false)
    (hleaves : completed.bufferedLeaves = state.heldBack ++ [leaf])
    (hindex : completed.subtreeIndex = leaf.subtree)
    (hinside : ∀ held ∈ state.heldBack, held.subtree = leaf.subtree)
    (henabled : state.graftingDisabled = false)
    (hknown : (state.rootsByIndex.lookup leaf.subtree).isSome = true)
    (hpersisted : completed.rootPersisted = true → state.trusts leaf.subtree = true)
    (hmarked : leaf.retention.isMarked = true → completed.rootPersisted = true)
    (hsafe : leaf.endsSubtree = true → completed.expectedEndHeight ≠ leaf.height →
      completed.rootPersisted = false → state.pendingRoots = []) :
    LeafStep grafted leaf state sink state' sink' := by
  have hsubtree : ∀ held ∈ state.heldBack ++ [leaf], held.subtree = leaf.subtree := by
    intro held hmem
    rcases List.mem_append.mp hmem with hmem | hmem
    · exact hinside held hmem
    · rw [List.mem_singleton.mp hmem]
  have hflag : leaf.retention.isMarked = true → state.trusts leaf.subtree = true :=
    fun hmark => hpersisted (hmarked hmark)
  unfold closeOrKeep at hstep
  by_cases hend : leaf.endsSubtree = true
  · rw [if_pos hend] at hstep
    rcases finish_deferred hkind hstep with ⟨hheight, hfresh, rfl, rfl⟩ | ⟨hold, rfl, rfl⟩ |
      ⟨hfresh, rfl, root, rfl⟩
    · refine LeafStep.of_emitted ?_ ?_ (heldBack_of_none rfl) rfl rfl
      · exact h.drop_buffer.disable rfl (hsafe hend hheight hfresh)
      · rw [HistoricalLeafSink.flush_emitted, hleaves, List.append_assoc]
    · exact
        { sound := h.drop_buffer
          marked := fun hmark => Or.inr (hflag hmark)
          grows := List.prefix_rfl
          queue := List.prefix_rfl
          roots := rfl
          sequence := Or.inr ⟨rfl, heldBack_of_none rfl, hsubtree,
            Or.inl (h.trusted _ (hpersisted hold))⟩ }
    · have hoff : ∀ queue : List VerifiedSubtreeRoot,
          state.graftingDisabled = true → queue = [] := by
        rw [henabled]
        nofun
      have hqueues : ∃ queued ∈ state.pendingRoots ++
          [⟨completed.subtreeIndex, completed.expectedEndHeight, root⟩],
          queued.index = leaf.subtree :=
        ⟨_, List.mem_append_right _ (List.mem_singleton.mpr rfl), hindex⟩
      refine ⟨⟨hoff _, ?_, h.trusted, fun hsome => absurd rfl hsome, nofun, nofun⟩,
        fun hmark => Or.inr (hflag hmark), List.prefix_rfl, List.prefix_append _ _, rfl,
        Or.inr ⟨rfl, heldBack_of_none rfl, hsubtree, Or.inr ?_⟩⟩
      · intro queued hqueued
        rcases List.mem_append.mp hqueued with hqueued | hqueued
        · exact h.known queued hqueued
        · obtain rfl := List.mem_singleton.mp hqueued
          show (state.rootsByIndex.lookup completed.subtreeIndex).isSome = true
          rw [hindex]
          exact hknown
      · refine (queues_iff ?_).mpr hqueues
        exact hoff _
  · rw [if_neg hend] at hstep
    obtain ⟨rfl, rfl⟩ := Prod.mk.inj (Except.ok.inj hstep)
    obtain ⟨hdiv, hmod⟩ := HistoricalLeaf.next_inside (Bool.eq_false_iff.mpr hend)
    exact
      { sound := by
          refine h.with_buffer hpass (by rw [hkind]; nofun) (fun _ => ?_)
          refine ⟨henabled, hheld, by rw [hleaves]; simp, hdiv.trans hindex.symm, hmod, ?_,
            hindex ▸ hknown, fun hp => hindex ▸ hpersisted hp⟩
          rw [hleaves, hindex]
          exact hsubtree
        marked := fun hmark => Or.inr (hflag hmark)
        grows := List.prefix_rfl
        queue := List.prefix_rfl
        roots := rfl
        sequence := Or.inl (by rw [heldBack_of_some rfl, hleaves, List.append_assoc]) }

/-- The first leaf of a subtree, or a leaf that continues nothing. -/
theorem startSubtree_step (hnone : state.currentBuffer = none)
    (hpass : state.passthroughSubtree = none)
    (hstep : startSubtree appendLeaf ops state leaf sink = .ok (state', sink')) :
    LeafStep grafted leaf state sink state' sink' := by
  have hempty : state.heldBack = [] := heldBack_of_none hnone
  have hplain : LeafStep grafted leaf state sink state (sink.append appendLeaf leaf) :=
    LeafStep.of_emitted (h.without_buffer hnone rfl rfl h.disabled) (by simp [hempty]) hempty
      rfl rfl
  have hthrough : passThrough appendLeaf state leaf sink = (state', sink') →
      LeafStep grafted leaf state sink state' sink' := by
    intro hp
    rw [← drop_none hnone] at hp
    exact passThrough_step h (by rw [hempty, List.append_nil]) hp
  unfold startSubtree at hstep
  by_cases hfirst : leaf.position % SHARD_LEAF_COUNT = 0 ∧ state.graftingDisabled = false
  · rw [if_pos hfirst] at hstep
    have hnot : leaf.endsSubtree = false := HistoricalLeaf.not_endsSubtree_of_first hfirst.1
    cases hroot : state.rootsByIndex.lookup leaf.subtree with
    | none =>
      rw [hroot] at hstep
      obtain ⟨rfl, rfl⟩ := Prod.mk.inj (Except.ok.inj hstep)
      exact hplain
    | some root =>
      rw [hroot] at hstep
      dsimp only at hstep
      unfold startKnownSubtree at hstep
      dsimp only at hstep
      split_ifs at hstep with hhint hskip hsample hmark
      · exact hthrough (Except.ok.inj hstep)
      · exact hthrough (Except.ok.inj hstep)
      · cases happend : ops.append ops.empty leaf.node with
        | none => rw [happend] at hstep; cases hstep
        | some tree =>
          rw [happend] at hstep
          exact sample_step h hpass hempty hstep ⟨rfl, rfl, rfl⟩ (by rw [hnot]; nofun)
      · exact hthrough (Except.ok.inj hstep)
      · have htrusts : root.trusted = true → state.trusts leaf.subtree = true := by
          intro htrusted
          rw [trusts, hroot]
          exact htrusted
        refine hold_step h hpass hstep rfl rfl (by rw [hempty, List.nil_append]) rfl
          (by rw [hempty]; nofun) hfirst.2 (by rw [hroot]; rfl) htrusts ?_
          (by rw [hnot]; nofun)
        intro hmarked
        cases htrusted : root.trusted with
        | true => rfl
        | false => exact absurd (by simp [hmarked, htrusted]) hmark
  · rw [if_neg hfirst] at hstep
    obtain ⟨rfl, rfl⟩ := Prod.mk.inj (Except.ok.inj hstep)
    exact hplain

/-- A further leaf of the buffered subtree. -/
theorem continueBuffer_step (hbuffer : state.currentBuffer = some buffer)
    (hpass : state.passthroughSubtree = none) (hindex : buffer.subtreeIndex = leaf.subtree)
    (hsafe : state.Mismatch ops leaf → state.pendingRoots = [])
    (hstep : continueBuffer appendLeaf ops state buffer leaf sink = .ok (state', sink')) :
    LeafStep grafted leaf state sink state' sink' := by
  have hheld : state.heldBack = buffer.bufferedLeaves := heldBack_of_some hbuffer
  unfold continueBuffer at hstep
  cases hkind : buffer.verifySample with
  | true =>
    rw [if_pos hkind] at hstep
    obtain ⟨hemitted, hempty⟩ := h.sample buffer hbuffer hkind
    cases htree : buffer.sampleTree with
    | none => rw [htree] at hstep; cases hstep
    | some tree =>
      rw [htree] at hstep
      dsimp only at hstep
      cases happend : ops.append tree leaf.node with
      | none => rw [happend] at hstep; cases hstep
      | some tree' =>
        rw [happend] at hstep
        dsimp only at hstep
        refine sample_step h hpass (hheld.trans hempty) hstep ⟨hkind, hemitted, hempty⟩ ?_
        intro hend hmismatch
        refine hsafe ⟨buffer, hbuffer, hindex, hend, ?_⟩
        rw [if_pos hkind]
        exact ⟨tree, htree, tree', happend, hmismatch⟩
  | false =>
    rw [if_neg (by rw [hkind]; nofun)] at hstep
    have hd := h.deferred buffer hbuffer hkind
    split_ifs at hstep with hmark
    · exact passThrough_step h (by rw [HistoricalLeafSink.flush_emitted, hheld])
        (Except.ok.inj hstep)
    · refine hold_step h hpass hstep hkind hd.held (by rw [hheld]) hindex ?_ hd.enabled
        (hindex ▸ hd.known) (fun hp => hindex ▸ hd.persisted hp) ?_ ?_
      · rw [hheld, ← hindex]
        exact hd.leaves
      · intro hmarked
        cases hp : buffer.rootPersisted with
        | true => rfl
        | false => exact absurd (by simp [hmarked, hp]) hmark
      · intro hend hheight hp
        refine hsafe ⟨buffer, hbuffer, hindex, hend, ?_⟩
        rw [if_neg (by rw [hkind]; nofun)]
        refine ⟨hp, ?_, hheight⟩
        cases hm : leaf.retention.isMarked with
        | false => rfl
        | true => exact absurd (by simp [hm, show buffer.rootPersisted = false from hp]) hmark

/-- **What `process_historical_leaf` does**, to a sound state and under the condition that no
mismatch meets a queued root. -/
theorem processSkipLeaf_step (hsafe : state.Mismatch ops leaf → state.pendingRoots = [])
    (hstep : processSkipLeaf appendLeaf ops state leaf sink = .ok (state', sink')) :
    LeafStep grafted leaf state sink state' sink' := by
  unfold processSkipLeaf at hstep
  by_cases hpass : state.passthroughSubtree = some leaf.subtree
  · rw [if_pos hpass] at hstep
    obtain ⟨hstate, rfl⟩ := Prod.mk.inj (Except.ok.inj hstep)
    have hnone : state.currentBuffer = none := by
      by_contra hsome
      rw [h.single hsome] at hpass
      cases hpass
    have hempty : state.heldBack = [] := heldBack_of_none hnone
    by_cases hend : leaf.endsSubtree = true
    · rw [if_pos hend] at hstate
      subst hstate
      refine LeafStep.of_emitted ?_ (by simp [hempty]) (heldBack_of_none hnone) rfl rfl
      exact ⟨h.disabled, h.known, h.trusted, fun hsome => absurd hnone hsome,
        by rw [hnone]; nofun, by rw [hnone]; nofun⟩
    · rw [if_neg hend] at hstate
      subst hstate
      exact LeafStep.of_emitted (h.without_buffer hnone rfl rfl h.disabled) (by simp [hempty])
        hempty rfl rfl
  · rw [if_neg hpass] at hstep
    have hclear : ({ state with passthroughSubtree := none } :
        HistoricalSubtreeSkipState T).Sound leaf.position grafted :=
      ⟨h.disabled, h.known, h.trusted, fun _ => rfl, h.sample, fun buffer hbuffer hkind =>
        let hd := h.deferred buffer hbuffer hkind
        ⟨hd.enabled, hd.held, hd.nonempty, hd.index, hd.inside, hd.leaves, hd.known,
          hd.persisted⟩⟩
    dsimp only at hstep
    cases hbuffer : state.currentBuffer with
    | none =>
      rw [hbuffer] at hstep
      dsimp only at hstep
      rw [← hbuffer] at hstep
      have hplain := startSubtree_step hclear hbuffer rfl hstep
      exact ⟨hplain.sound, hplain.marked, hplain.grows, hplain.queue, hplain.roots,
        hplain.sequence⟩
    | some buffer =>
      rw [hbuffer] at hstep
      dsimp only at hstep
      by_cases hindex : buffer.subtreeIndex = leaf.subtree
      · rw [if_pos hindex, ← hbuffer] at hstep
        have hplain := continueBuffer_step hclear hbuffer rfl hindex hsafe hstep
        exact ⟨hplain.sound, hplain.marked, hplain.grows, hplain.queue, hplain.roots,
          hplain.sequence⟩
      · -- Only a sample can be left behind: a buffer that defers follows the position.
        rw [if_neg hindex] at hstep
        have hsample : buffer.verifySample = true := by
          by_contra hkind
          exact hindex ((h.deferred buffer hbuffer (Bool.eq_false_iff.mpr hkind)).index.symm)
        have hempty : state.heldBack = [] :=
          (heldBack_of_some hbuffer).trans (h.sample buffer hbuffer hsample).2
        have hflushed : (sink.flush appendLeaf buffer).emitted = sink.emitted := by
          rw [HistoricalLeafSink.flush_emitted, (h.sample buffer hbuffer hsample).2,
            List.append_nil]
        have hplain := startSubtree_step hclear.drop_buffer rfl rfl hstep
        refine ⟨hplain.sound, hplain.marked, ?_, hplain.queue, hplain.roots, ?_⟩
        · rw [← hflushed]
          exact hplain.grows
        · rw [← hflushed, hempty]
          exact hplain.sequence

end LeafStep

/-! ## The map of roots -/

namespace HistoricalSubtreeSkipState

variable {T : Type} {state : HistoricalSubtreeSkipState T}

/-- The root with the flag set. -/
def trustRoot (root : HistoricalSubtreeRoot) : HistoricalSubtreeRoot :=
  { root with trusted := true }

/-- Marking roots as persisted changes the flag of these roots and nothing else. -/
theorem lookup_markPersisted (indices : List Nat)
    (roots : AList (fun _ : Nat => HistoricalSubtreeRoot)) (index : Nat) :
    (indices.foldl markPersisted roots).lookup index =
      if index ∈ indices then (roots.lookup index).map trustRoot else roots.lookup index := by
  induction indices generalizing roots with
  | nil => rfl
  | cons first indices ih =>
    have hone : (markPersisted roots first).lookup index =
        if index = first then (roots.lookup index).map trustRoot else roots.lookup index := by
      unfold markPersisted
      cases hroot : roots.lookup first with
      | none =>
        by_cases heq : index = first
        · rw [if_pos heq, heq, hroot]
          rfl
        · rw [if_neg heq]
      | some root =>
        by_cases heq : index = first
        · rw [if_pos heq, heq, hroot]
          exact AList.lookup_insert _
        · rw [if_neg heq]
          exact AList.lookup_insert_ne heq
    rw [List.foldl_cons, ih, hone]
    by_cases heq : index = first
    · by_cases hmem : index ∈ indices
      · rw [if_pos hmem, if_pos heq, if_pos (List.mem_cons_of_mem _ hmem), Option.map_map]
        rfl
      · rw [if_neg hmem, if_pos heq, if_pos (by rw [heq]; exact List.mem_cons_self)]
    · by_cases hmem : index ∈ indices
      · rw [if_pos hmem, if_neg heq, if_pos (List.mem_cons_of_mem _ hmem)]
      · rw [if_neg hmem, if_neg heq, if_neg (by simp [heq, hmem])]

variable {index : Nat}

theorem trusts_markPoolRootsPersisted {persisted : List VerifiedSubtreeRoot} :
    (state.markPoolRootsPersisted persisted).trusts index = true ↔
      state.trusts index = true ∨
        (∃ root ∈ persisted, root.index = index) ∧
          (state.rootsByIndex.lookup index).isSome = true := by
  unfold trusts markPoolRootsPersisted
  dsimp only
  rw [lookup_markPersisted]
  by_cases hmem : index ∈ persisted.map VerifiedSubtreeRoot.index
  · rw [if_pos hmem]
    have hexists : ∃ root ∈ persisted, root.index = index := List.mem_map.mp hmem
    cases state.rootsByIndex.lookup index with
    | none => simp
    | some root => simp [trustRoot, hexists]
  · rw [if_neg hmem]
    have hnot : ¬ ∃ root ∈ persisted, root.index = index := fun h => hmem (List.mem_map.mpr h)
    simp [hnot]

theorem lookup_markPoolRootsPersisted_isSome {persisted : List VerifiedSubtreeRoot} :
    ((state.markPoolRootsPersisted persisted).rootsByIndex.lookup index).isSome =
      (state.rootsByIndex.lookup index).isSome := by
  unfold markPoolRootsPersisted
  dsimp only
  rw [lookup_markPersisted]
  split_ifs
  · rw [Option.isSome_map]
  · rfl

/-- A merge adds roots and changes none. -/
theorem lookup_orInsert (remote : List (Nat × HistoricalSubtreeRoot))
    (roots : AList (fun _ : Nat => HistoricalSubtreeRoot)) (index : Nat) :
    (remote.foldl orInsert roots).lookup index = roots.lookup index ∨
      roots.lookup index = none ∧
        ∃ entry ∈ remote, (remote.foldl orInsert roots).lookup index = some entry.2 := by
  induction remote generalizing roots with
  | nil => exact Or.inl rfl
  | cons entry remote ih =>
    have hone : (orInsert roots entry).lookup index = roots.lookup index ∨
        roots.lookup index = none ∧ (orInsert roots entry).lookup index = some entry.2 := by
      unfold orInsert
      cases hroot : roots.lookup entry.1 with
      | some root => exact Or.inl rfl
      | none =>
        by_cases heq : index = entry.1
        · subst heq
          exact Or.inr ⟨hroot, AList.lookup_insert _⟩
        · exact Or.inl (AList.lookup_insert_ne heq)
    rw [List.foldl_cons]
    rcases ih (orInsert roots entry) with hsame | ⟨hnone, other, hother, hlookup⟩
    · rw [hsame]
      rcases hone with hsame | ⟨hnone, hlookup⟩
      · exact Or.inl hsame
      · exact Or.inr ⟨hnone, entry, List.mem_cons_self, hlookup⟩
    · rcases hone with hsame | ⟨-, hsome⟩
      · exact Or.inr ⟨hsame.symm.trans hnone, other, List.mem_cons_of_mem _ hother, hlookup⟩
      · rw [hsome] at hnone
        cases hnone

variable {remote : List (Nat × HistoricalSubtreeRoot)}

/-- Server roots are not trusted, so a merge trusts nothing new. -/
theorem trusts_mergeRemoteRoots (hremote : ∀ entry ∈ remote, entry.2.trusted = false) :
    (state.mergeRemoteRoots remote).trusts index = state.trusts index := by
  unfold trusts mergeRemoteRoots
  dsimp only
  rcases lookup_orInsert remote state.rootsByIndex index with hsame | ⟨hnone, entry, hmem, hsome⟩
  · rw [hsame]
  · rw [hnone, hsome]
    exact hremote entry hmem

theorem lookup_mergeRemoteRoots_isSome (h : (state.rootsByIndex.lookup index).isSome = true) :
    ((state.mergeRemoteRoots remote).rootsByIndex.lookup index).isSome = true := by
  unfold mergeRemoteRoots
  dsimp only
  rcases lookup_orInsert remote state.rootsByIndex index with hsame | ⟨-, entry, -, hsome⟩
  · rw [hsame]
    exact h
  · rw [hsome]
    rfl

/-! ## Between batches -/

variable {position : Nat} {grafted : List Nat}

/-- Writing the queued roots keeps the state sound, and nothing stays queued. -/
theorem Sound.markPoolRootsPersisted (h : state.Sound position grafted) :
    (state.markPoolRootsPersisted state.pendingVerifiedRoots).Sound position
      (grafted ++ state.pendingVerifiedRoots.map VerifiedSubtreeRoot.index) where
  disabled := by
    intro hdisabled
    show state.pendingRoots.filter _ = []
    rw [h.disabled hdisabled]
    rfl
  known := by
    intro root hroot
    rw [lookup_markPoolRootsPersisted_isSome]
    exact h.known root (List.mem_filter.mp hroot).1
  trusted := by
    intro index htrusts
    rcases trusts_markPoolRootsPersisted.mp htrusts with hold | ⟨hqueued, -⟩
    · exact List.mem_append_left _ (h.trusted index hold)
    · exact List.mem_append_right _ (List.mem_map.mpr hqueued)
  single := h.single
  sample := h.sample
  deferred := by
    intro buffer hbuffer hkind
    have hd := h.deferred buffer hbuffer hkind
    refine ⟨hd.enabled, hd.held, hd.nonempty, hd.index, hd.inside, hd.leaves, ?_, ?_⟩
    · rw [lookup_markPoolRootsPersisted_isSome]
      exact hd.known
    · intro hpersisted
      exact trusts_markPoolRootsPersisted.mpr (Or.inl (hd.persisted hpersisted))

/-- Merging untrusted roots keeps the state sound. -/
theorem Sound.mergeRemoteRoots (h : state.Sound position grafted)
    (hremote : ∀ entry ∈ remote, entry.2.trusted = false) :
    (state.mergeRemoteRoots remote).Sound position grafted where
  disabled := h.disabled
  known := fun root hroot => lookup_mergeRemoteRoots_isSome (h.known root hroot)
  trusted := by
    intro index htrusts
    rw [trusts_mergeRemoteRoots hremote] at htrusts
    exact h.trusted index htrusts
  single := h.single
  sample := h.sample
  deferred := by
    intro buffer hbuffer hkind
    have hd := h.deferred buffer hbuffer hkind
    refine ⟨hd.enabled, hd.held, hd.nonempty, hd.index, hd.inside, hd.leaves,
      lookup_mergeRemoteRoots_isSome hd.known, ?_⟩
    intro hpersisted
    rw [trusts_mergeRemoteRoots hremote]
    exact hd.persisted hpersisted

/-- A drain emits what was held back, unless its root stands for it. -/
theorem Sound.drain (h : state.Sound position grafted)
    (appendLeaf : ShardtreeBatch → Nat → Bytes → Retention → ShardtreeBatch)
    (emitted : List HistoricalLeaf) :
    (drainHistoricalSkipState appendLeaf state emitted).1.Sound position grafted ∧
      ((drainHistoricalSkipState appendLeaf state emitted).2.emitted =
          emitted ++ state.heldBack ∨
        (drainHistoricalSkipState appendLeaf state emitted).2.emitted = emitted ∧
          ∀ leaf ∈ state.heldBack, leaf.subtree ∈ grafted) := by
  refine ⟨⟨h.disabled, h.known, h.trusted, fun hsome => absurd rfl hsome, nofun, nofun⟩, ?_⟩
  unfold drainHistoricalSkipState heldBack
  cases hbuffer : state.currentBuffer with
  | none => exact Or.inl (List.append_nil _).symm
  | some buffer =>
    dsimp only [Option.elim_some]
    by_cases hdefers : (!buffer.leavesEmitted && !buffer.rootPersisted) = true
    · rw [if_pos hdefers]
      exact Or.inl HistoricalLeafSink.flush_emitted
    · rw [if_neg hdefers]
      refine Or.inr ⟨rfl, ?_⟩
      cases hkind : buffer.verifySample with
      | true => rw [(h.sample buffer hbuffer hkind).2]; nofun
      | false =>
        have hd := h.deferred buffer hbuffer hkind
        have hpersisted : buffer.rootPersisted = true := by
          simpa [hd.held] using hdefers
        intro leaf hleaf
        rw [hd.leaves leaf hleaf]
        exact h.trusted _ (hd.persisted hpersisted)

end HistoricalSubtreeSkipState

/-! ## Runs -/

namespace GraftRun

variable {T : Type} {appendLeaf : ShardtreeBatch → Nat → Bytes → Retention → ShardtreeBatch}
  {ops : CommitmentTreeOps T} {run : GraftRun T}

/-- The leaves held back in the skip state. -/
def heldBack (run : GraftRun T) : List HistoricalLeaf :=
  run.skip.elim [] HistoricalSubtreeSkipState.heldBack

/-- Whether the root of the subtree is queued. -/
def Queues (run : GraftRun T) (index : Nat) : Prop := ∃ state ∈ run.skip, state.queues index

/-- The accounts of a run. The leaves emitted and held back are in tree order, and a leaf that is
missing among them has a root in its place. -/
structure Accounts (run : GraftRun T) : Prop where
  sound : ∀ state ∈ run.skip, state.Sound run.position run.graftedRoots
  order : (run.sink.emitted ++ run.heldBack).Pairwise fun a b => a.position < b.position
  below : ∀ leaf ∈ run.sink.emitted ++ run.heldBack, leaf.position < run.position
  ofFed : ∀ leaf ∈ run.sink.emitted ++ run.heldBack, ∃ fed ∈ run.fed, fed.leaf = leaf
  kept : ∀ fed ∈ run.fed, fed.leaf ∈ run.sink.emitted ++ run.heldBack ∨
    fed.leaf.subtree ∈ run.graftedRoots ∨ run.Queues fed.leaf.subtree
  marked : ∀ fed ∈ run.fed, fed.leaf.retention.isMarked = true →
    fed.leaf ∈ run.sink.emitted ∨ fed.rootPersisted = true

/-- No mismatch is about to meet a queued root. -/
def KeepsQueue (ops : CommitmentTreeOps T) (run : GraftRun T) (event : GraftEvent) : Prop :=
  ∀ node retention, event = .leaf node retention → ∀ state ∈ run.skip,
    state.Mismatch ops (run.nextLeaf node retention) → state.pendingRoots = []

theorem heldBack_some {state : HistoricalSubtreeSkipState T} (h : run.skip = some state) :
    run.heldBack = state.heldBack := by
  rw [heldBack, h]; rfl

variable (h : run.Accounts)

include h

/-- A leaf at the next position enters the accounts: it joins the sequence, or it completes a
subtree that leaves it. -/
theorem Accounts.advance {run' : GraftRun T} {leaf : HistoricalLeaf} {flag : Bool}
    (hposition : leaf.position = run.position) (hfed : run'.fed = run.fed ++ [⟨leaf, flag⟩])
    (hnext : run'.position = run.position + 1) (hroots : run'.graftedRoots = run.graftedRoots)
    (hsound : ∀ state ∈ run'.skip, state.Sound run'.position run'.graftedRoots)
    (hgrows : run.sink.emitted <+: run'.sink.emitted)
    (hqueues : ∀ index, run.Queues index → run'.Queues index)
    (hmarked : leaf.retention.isMarked = true → leaf ∈ run'.sink.emitted ∨ flag = true)
    (hsequence : run'.sink.emitted ++ run'.heldBack =
        run.sink.emitted ++ run.heldBack ++ [leaf] ∨
      run'.sink.emitted = run.sink.emitted ∧ run'.heldBack = [] ∧
        (∀ held ∈ run.heldBack ++ [leaf], held.subtree = leaf.subtree) ∧
        (leaf.subtree ∈ run.graftedRoots ∨ run'.Queues leaf.subtree)) : run'.Accounts := by
  have hsnoc : (run.sink.emitted ++ run.heldBack ++ [leaf]).Pairwise
      (fun a b => a.position < b.position) := by
    rw [List.pairwise_append]
    refine ⟨h.order, List.pairwise_singleton _ _, ?_⟩
    intro a ha b hb
    rw [List.mem_singleton.mp hb, hposition]
    exact h.below a ha
  -- whatever happens to the leaf, no other leaf enters the sequence
  have hmem : ∀ other ∈ run'.sink.emitted ++ run'.heldBack,
      other ∈ run.sink.emitted ++ run.heldBack ∨ other = leaf := by
    intro other hother
    rcases hsequence with hjoins | ⟨hemitted, hempty, -, -⟩
    · rw [hjoins, List.mem_append, List.mem_singleton] at hother
      exact hother
    · rw [hemitted, hempty, List.append_nil] at hother
      exact Or.inl (List.mem_append_left _ hother)
  refine ⟨hsound, ?_, ?_, ?_, ?_, ?_⟩
  · rcases hsequence with hjoins | ⟨hemitted, hempty, -, -⟩
    · rw [hjoins]
      exact hsnoc
    · rw [hemitted, hempty, List.append_nil]
      exact (List.pairwise_append.mp h.order).1
  · intro other hother
    rw [hnext]
    rcases hmem other hother with hold | rfl
    · exact Nat.lt_succ_of_lt (h.below other hold)
    · rw [hposition]
      exact Nat.lt_succ_self _
  · intro other hother
    rw [hfed]
    rcases hmem other hother with hold | rfl
    · obtain ⟨fed, hin, heq⟩ := h.ofFed other hold
      exact ⟨fed, List.mem_append_left _ hin, heq⟩
    · exact ⟨_, List.mem_append_right _ (List.mem_singleton.mpr rfl), rfl⟩
  · intro fed hin
    rw [hfed, List.mem_append, List.mem_singleton] at hin
    rw [hroots]
    rcases hsequence with hjoins | ⟨hemitted, hempty, hsubtree, hroot⟩
    · rw [hjoins]
      rcases hin with hold | rfl
      · rcases h.kept fed hold with hkept | hgrafted | hqueued
        · exact Or.inl (List.mem_append_left _ hkept)
        · exact Or.inr (Or.inl hgrafted)
        · exact Or.inr (Or.inr (hqueues _ hqueued))
      · exact Or.inl (List.mem_append_right _ (List.mem_singleton.mpr rfl))
    · have hheld : ∀ held ∈ run.heldBack ++ [leaf],
          held.subtree ∈ run.graftedRoots ∨ run'.Queues held.subtree := by
        intro held hmem
        rw [hsubtree held hmem]
        exact hroot
      rcases hin with hold | rfl
      · rcases h.kept fed hold with hkept | hgrafted | hqueued
        · rcases List.mem_append.mp hkept with hemit | hback
          · rw [hemitted]
            exact Or.inl (List.mem_append_left _ hemit)
          · exact Or.inr (hheld _ (List.mem_append_left _ hback))
        · exact Or.inr (Or.inl hgrafted)
        · exact Or.inr (Or.inr (hqueues _ hqueued))
      · exact Or.inr (hheld _ (List.mem_append_right _ (List.mem_singleton.mpr rfl)))
  · intro fed hin hmark
    rw [hfed, List.mem_append, List.mem_singleton] at hin
    rcases hin with hold | rfl
    · rcases h.marked fed hold hmark with hemit | hflag
      · exact Or.inl (hgrows.subset hemit)
      · exact Or.inr hflag
    · exact hmarked hmark

/-- An error leaves the accounts where they are. -/
theorem Accounts.fail (error : SyncError) :
    ({ run with failed := some error } : GraftRun T).Accounts :=
  ⟨h.sound, h.order, h.below, h.ofFed, h.kept, h.marked⟩

theorem Accounts.feed (node : Bytes) (retention : Retention)
    (hsafe : run.KeepsQueue ops (.leaf node retention)) :
    (run.feed appendLeaf ops node retention).Accounts := by
  unfold GraftRun.feed processHistoricalLeaf
  cases hskip : run.skip with
  | none =>
    dsimp only
    have hheld : run.heldBack = [] := by rw [heldBack, hskip]; rfl
    refine h.advance rfl rfl rfl rfl nofun (List.prefix_append _ _) ?_ ?_ (Or.inl ?_)
    · rintro index ⟨state, hstate, -⟩
      rw [hskip] at hstate
      cases hstate
    · intro _
      exact Or.inl (List.mem_append_right _ (List.mem_singleton.mpr rfl))
    · rw [hheld, List.append_nil]
      exact List.append_nil _
  | some state =>
    dsimp only
    cases hstep : processSkipLeaf appendLeaf ops state (run.nextLeaf node retention) run.sink with
    | error error =>
      dsimp only [Except.map]
      rw [← hskip]
      exact h.fail error
    | ok result =>
      obtain ⟨state', sink'⟩ := result
      have hsound := h.sound state hskip
      have hleaf := processSkipLeaf_step hsound (hsafe node retention rfl state hskip) hstep
      have hqueue : ∀ index, state.queues index → state'.queues index := by
        intro index hqueues
        obtain ⟨root, hroot, hindex⟩ :=
          (HistoricalSubtreeSkipState.queues_iff hsound.disabled).mp hqueues
        exact (HistoricalSubtreeSkipState.queues_iff hleaf.sound.disabled).mpr
          ⟨root, hleaf.queue.subset hroot, hindex⟩
      refine h.advance rfl rfl rfl rfl ?_ hleaf.grows ?_ hleaf.marked ?_
      · intro next hnext
        obtain rfl := Option.some.inj hnext
        exact hleaf.sound
      · rintro index ⟨old, hold, hqueues⟩
        rw [hskip] at hold
        obtain rfl := Option.some.inj hold
        exact ⟨state', rfl, hqueue index hqueues⟩
      · rw [heldBack_some hskip]
        rcases hleaf.sequence with hjoins | ⟨hemitted, hempty, hsubtree, hroot⟩
        · exact Or.inl hjoins
        · refine Or.inr ⟨hemitted, hempty, hsubtree, ?_⟩
          rcases hroot with hgrafted | hqueued
          · exact Or.inl hgrafted
          · exact Or.inr ⟨state', rfl, hqueued⟩

theorem Accounts.openBlock (height : Nat) : (run.openBlock height).Accounts :=
  ⟨h.sound, h.order, h.below, h.ofFed, h.kept, h.marked⟩

/-- Between batches the skip state may be replaced by one that holds back the same leaves; what
was queued must be queued or in the tree. -/
theorem Accounts.replace {run' : GraftRun T} (hsink : run'.sink = run.sink)
    (hfed : run'.fed = run.fed) (hposition : run'.position = run.position)
    (hheld : run'.heldBack = run.heldBack) (hgrafted : run.graftedRoots ⊆ run'.graftedRoots)
    (hsound : ∀ state ∈ run'.skip, state.Sound run'.position run'.graftedRoots)
    (hqueues : ∀ index, run.Queues index → index ∈ run'.graftedRoots ∨ run'.Queues index) :
    run'.Accounts := by
  refine ⟨hsound, ?_, ?_, ?_, ?_, ?_⟩
  · rw [hsink, hheld]
    exact h.order
  · rw [hsink, hheld, hposition]
    exact h.below
  · rw [hsink, hheld, hfed]
    exact h.ofFed
  · rw [hsink, hheld, hfed]
    intro fed hin
    rcases h.kept fed hin with hkept | hroot | hqueued
    · exact Or.inl hkept
    · exact Or.inr (Or.inl (hgrafted hroot))
    · exact Or.inr (hqueues _ hqueued)
  · rw [hsink, hfed]
    exact h.marked

theorem Accounts.closeBatch : run.closeBatch.Accounts := by
  unfold GraftRun.closeBatch
  cases hskip : run.skip with
  | none =>
    refine h.replace rfl rfl rfl ?_ (List.subset_append_left _ _) nofun ?_
    · rw [heldBack, heldBack, hskip]
      rfl
    · rintro index ⟨state, hstate, -⟩
      rw [hskip] at hstate
      cases hstate
  | some state =>
    have hsound := h.sound state hskip
    refine h.replace rfl rfl rfl ?_ (List.subset_append_left _ _) ?_ ?_
    · rw [heldBack_some hskip]
      rfl
    · intro next hnext
      obtain rfl := Option.some.inj hnext
      exact hsound.markPoolRootsPersisted
    · rintro index ⟨old, hold, root, hroot, hindex⟩
      rw [hskip] at hold
      obtain rfl := Option.some.inj hold
      exact Or.inl (List.mem_append_right _ (List.mem_map.mpr ⟨root, hroot, hindex⟩))

theorem Accounts.mergeReady (remote : List (Nat × Nat × Bytes × Nat)) :
    (run.mergeReady remote).Accounts := by
  unfold GraftRun.mergeReady
  have huntrusted : ∀ entry ∈ remote.map (fun root =>
      (root.1, HistoricalSubtreeRoot.ofServer root.2.1 root.2.2.1 root.2.2.2)),
      entry.2.trusted = false := by
    intro entry hentry
    obtain ⟨root, -, rfl⟩ := List.mem_map.mp hentry
    rfl
  cases hskip : run.skip with
  | none =>
    refine h.replace rfl rfl rfl ?_ (fun _ hmem => hmem) nofun ?_
    · rw [heldBack, heldBack, hskip]
      rfl
    · rintro index ⟨state, hstate, -⟩
      rw [hskip] at hstate
      cases hstate
  | some state =>
    refine h.replace rfl rfl rfl ?_ (fun _ hmem => hmem) ?_ ?_
    · rw [heldBack_some hskip]
      rfl
    · intro next hnext
      obtain rfl := Option.some.inj hnext
      exact (h.sound state hskip).mergeRemoteRoots huntrusted
    · rintro index ⟨old, hold, hqueues⟩
      rw [hskip] at hold
      obtain rfl := Option.some.inj hold
      exact Or.inr ⟨_, rfl, hqueues⟩

theorem Accounts.flushPrefill : (run.flushPrefill appendLeaf).Accounts := by
  unfold GraftRun.flushPrefill
  cases hskip : run.skip with
  | none => exact h
  | some state =>
    obtain ⟨hsound, hdrained⟩ := (h.sound state hskip).drain appendLeaf run.sink.emitted
    dsimp only
    have hheld : run.heldBack = state.heldBack := heldBack_some hskip
    -- the leaves after the drain are the old sequence, or it without a grafted subtree
    have hleaves : ∀ emitted : List HistoricalLeaf,
        emitted = run.sink.emitted ++ state.heldBack ∨ emitted = run.sink.emitted ∧
          (∀ leaf ∈ state.heldBack, leaf.subtree ∈ run.graftedRoots) →
        emitted <+: run.sink.emitted ++ run.heldBack ∧ run.sink.emitted <+: emitted ∧
          ∀ leaf ∈ run.sink.emitted ++ run.heldBack,
            leaf ∈ emitted ∨ leaf.subtree ∈ run.graftedRoots := by
      rintro emitted (rfl | ⟨rfl, hgrafted⟩)
      · rw [hheld]
        exact ⟨List.prefix_rfl, List.prefix_append _ _, fun leaf hmem => Or.inl hmem⟩
      · refine ⟨List.prefix_append _ _, List.prefix_rfl, ?_⟩
        intro leaf hmem
        rcases List.mem_append.mp hmem with hemit | hback
        · exact Or.inl hemit
        · rw [hheld] at hback
          exact Or.inr (hgrafted leaf hback)
    obtain ⟨hshort, hgrows, hleft⟩ := hleaves _ hdrained
    have hsequence : ∀ (emitted : List HistoricalLeaf) (leaf : HistoricalLeaf),
        leaf ∈ emitted ++ [] → leaf ∈ emitted := by
      intro emitted leaf hmem
      rwa [List.append_nil] at hmem
    refine ⟨?_, ?_, ?_, ?_, ?_, ?_⟩
    · intro next hnext
      obtain rfl := Option.some.inj hnext
      exact hsound
    · exact (List.append_nil _).symm ▸ h.order.sublist hshort.sublist
    · intro leaf hmem
      exact h.below leaf (hshort.subset (hsequence _ leaf hmem))
    · intro leaf hmem
      exact h.ofFed leaf (hshort.subset (hsequence _ leaf hmem))
    · intro fed hin
      rcases h.kept fed hin with hkept | hroot | ⟨old, hold, hqueues⟩
      · rcases hleft _ hkept with hemit | hroot
        · exact Or.inl (List.mem_append_left _ hemit)
        · exact Or.inr (Or.inl hroot)
      · exact Or.inr (Or.inl hroot)
      · rw [hskip] at hold
        obtain rfl := Option.some.inj hold
        exact Or.inr (Or.inr ⟨_, rfl, hqueues⟩)
    · intro fed hin hmark
      rcases h.marked fed hin hmark with hemit | hflag
      · exact Or.inl (hgrows.subset hemit)
      · exact Or.inr hflag

/-- **The step lemma.** An event that keeps the queue keeps the accounts. -/
theorem Accounts.step {event : GraftEvent} (hsafe : run.KeepsQueue ops event) :
    (run.step appendLeaf ops event).Accounts := by
  unfold GraftRun.step
  by_cases hfailed : run.failed.isSome = true
  · rw [if_pos hfailed]
    exact h
  · rw [if_neg hfailed]
    cases event with
    | block height => exact h.openBlock height
    | leaf node retention =>
      dsimp only
      split_ifs
      · exact h.feed node retention hsafe
      · exact h
    | endBatch =>
      dsimp only
      split_ifs
      · exact h.closeBatch
      · exact h
    | mergeRoots remote =>
      dsimp only
      split_ifs
      · exact h
      · exact h.mergeReady remote
    | drain =>
      dsimp only
      split_ifs
      · exact h
      · exact h.flushPrefill

omit h

theorem accounts_start (roots : AList (fun _ : Nat => HistoricalSubtreeRoot)) (hints : Finset Nat)
    (position : Nat) : (start roots hints position : GraftRun T).Accounts := by
  refine ⟨?_, List.Pairwise.nil, nofun, nofun, nofun, nofun⟩
  intro state hstate
  obtain rfl := Option.some.inj hstate
  refine ⟨nofun, nofun, ?_, fun h => absurd rfl h, nofun, nofun⟩
  intro index htrusts
  refine List.mem_filter.mpr ⟨?_, htrusts⟩
  rw [← AList.mem_keys, ← AList.lookup_isSome]
  have hany : (roots.lookup index).any HistoricalSubtreeRoot.trusted = true := htrusts
  cases hroot : roots.lookup index with
  | none => rw [hroot] at hany; cases hany
  | some root => rfl

/-- Every root in the tree is marked as persisted in the skip state. -/
def Represented (run : GraftRun T) : Prop :=
  ∃ state, run.skip = some state ∧ ∀ index ∈ run.graftedRoots, state.trusts index = true

theorem represented_start (roots : AList (fun _ : Nat => HistoricalSubtreeRoot))
    (hints : Finset Nat) (position : Nat) :
    (start roots hints position : GraftRun T).Represented :=
  ⟨_, rfl, fun _ hindex => (List.mem_filter.mp hindex).2⟩

theorem Represented.step (hrep : run.Represented) (h : run.Accounts) {event : GraftEvent}
    (hsafe : run.KeepsQueue ops event) : (run.step appendLeaf ops event).Represented := by
  obtain ⟨state, hskip, hroots⟩ := hrep
  unfold GraftRun.step
  by_cases hfailed : run.failed.isSome = true
  · rw [if_pos hfailed]
    exact ⟨state, hskip, hroots⟩
  rw [if_neg hfailed]
  cases event with
  | block height => exact ⟨state, hskip, hroots⟩
  | leaf node retention =>
    dsimp only
    split_ifs
    · unfold GraftRun.feed processHistoricalLeaf
      rw [hskip]
      dsimp only
      cases hstep : processSkipLeaf appendLeaf ops state (run.nextLeaf node retention)
          run.sink with
      | error error => exact ⟨state, rfl, hroots⟩
      | ok result =>
        obtain ⟨state', sink'⟩ := result
        have hleaf := processSkipLeaf_step (h.sound state hskip)
          (hsafe node retention rfl state hskip) hstep
        refine ⟨state', rfl, ?_⟩
        intro index hindex
        rw [HistoricalSubtreeSkipState.trusts, hleaf.roots]
        exact hroots index hindex
    · exact ⟨state, hskip, hroots⟩
  | endBatch =>
    dsimp only
    split_ifs
    · unfold GraftRun.closeBatch
      rw [hskip]
      refine ⟨_, rfl, ?_⟩
      intro index hindex
      refine HistoricalSubtreeSkipState.trusts_markPoolRootsPersisted.mpr ?_
      rcases List.mem_append.mp hindex with hold | hnew
      · exact Or.inl (hroots index hold)
      · obtain ⟨root, hroot, rfl⟩ := List.mem_map.mp hnew
        have hsound := h.sound state hskip
        obtain ⟨queued, hqueued, heq⟩ :=
          (HistoricalSubtreeSkipState.queues_iff hsound.disabled).mp ⟨root, hroot, rfl⟩
        refine Or.inr ⟨⟨root, hroot, rfl⟩, ?_⟩
        rw [← heq]
        exact hsound.known queued hqueued
    · exact ⟨state, hskip, hroots⟩
  | mergeRoots remote =>
    dsimp only
    split_ifs
    · exact ⟨state, hskip, hroots⟩
    · unfold GraftRun.mergeReady
      rw [hskip]
      refine ⟨_, rfl, ?_⟩
      intro index hindex
      rw [HistoricalSubtreeSkipState.trusts_mergeRemoteRoots]
      · exact hroots index hindex
      · intro entry hentry
        obtain ⟨root, -, rfl⟩ := List.mem_map.mp hentry
        rfl
  | drain =>
    dsimp only
    split_ifs
    · exact ⟨state, hskip, hroots⟩
    · unfold GraftRun.flushPrefill
      rw [hskip]
      exact ⟨_, rfl, hroots⟩

/-- Every leaf fed so far is in the tree once, in its place, or a root stands for it. A marked
leaf has a root in its place only if that root was in the tree before the leaf came. -/
structure Settled (run : GraftRun T) (state : HistoricalSubtreeSkipState T) : Prop where
  inOrder : run.sink.emitted.Pairwise fun a b => a.position < b.position
  own : ∀ leaf ∈ run.sink.emitted, ∃ fed ∈ run.fed, fed.leaf = leaf
  once : ∀ fed ∈ run.fed, run.sink.emitted.count fed.leaf = 1 ∨
    state.trusts fed.leaf.subtree = true ∨ state.queues fed.leaf.subtree
  marked : ∀ fed ∈ run.fed, fed.leaf.retention.isMarked = true →
    run.sink.emitted.count fed.leaf = 1 ∨ fed.rootPersisted = true

/-- The accounts are settled whenever the pool may be checkpointed. -/
def SettledWhenSafe (run : GraftRun T) : Prop :=
  ∀ state ∈ run.skip, state.checkpointSafe = true → run.Settled state

/-- When the pool may be checkpointed, only leaves of trusted subtrees are held back. -/
theorem trusts_of_heldBack {state : HistoricalSubtreeSkipState T} {position : Nat}
    {grafted : List Nat} (h : state.Sound position grafted) (hsafe : state.checkpointSafe = true)
    {leaf : HistoricalLeaf} (hleaf : leaf ∈ state.heldBack) :
    state.trusts leaf.subtree = true := by
  unfold HistoricalSubtreeSkipState.checkpointSafe
    HistoricalSubtreeSkipState.hasDeferredLeaves at hsafe
  unfold HistoricalSubtreeSkipState.heldBack at hleaf
  cases hbuffer : state.currentBuffer with
  | none => rw [hbuffer] at hleaf; cases hleaf
  | some buffer =>
    rw [hbuffer] at hleaf hsafe
    cases hkind : buffer.verifySample with
    | true =>
      rw [Option.elim_some, (h.sample buffer hbuffer hkind).2] at hleaf
      cases hleaf
    | false =>
      have hd := h.deferred buffer hbuffer hkind
      have hpersisted : buffer.rootPersisted = true := by
        simpa [hd.held] using hsafe
      rw [hd.leaves leaf hleaf]
      exact hd.persisted hpersisted

theorem Accounts.settled (h : run.Accounts) (hrep : run.Represented) : run.SettledWhenSafe := by
  intro state hskip hsafe
  have horder := (List.pairwise_append.mp h.order).1
  have hnodup : run.sink.emitted.Nodup := by
    refine horder.imp ?_
    rintro a b hlt rfl
    exact Nat.lt_irrefl _ hlt
  have hone : ∀ leaf ∈ run.sink.emitted, run.sink.emitted.count leaf = 1 :=
    fun leaf hleaf => List.count_eq_one_of_mem hnodup hleaf
  refine ⟨horder, fun leaf hleaf => h.ofFed leaf (List.mem_append_left _ hleaf), ?_, ?_⟩
  · intro fed hfed
    rcases h.kept fed hfed with hkept | hroot | ⟨other, hother, hqueues⟩
    · rcases List.mem_append.mp hkept with hemit | hback
      · exact Or.inl (hone _ hemit)
      · rw [heldBack_some hskip] at hback
        exact Or.inr (Or.inl (trusts_of_heldBack (h.sound state hskip) hsafe hback))
    · obtain ⟨other, hother, htrusts⟩ := hrep
      obtain rfl := Option.some.inj (hother.symm.trans hskip)
      exact Or.inr (Or.inl (htrusts _ hroot))
    · obtain rfl := Option.some.inj (hother.symm.trans hskip)
      exact Or.inr (Or.inr hqueues)
  · intro fed hfed hmark
    rcases h.marked fed hfed hmark with hemit | hflag
    · exact Or.inl (hone _ hemit)
    · exact Or.inr hflag

/-- **No leaf is lost to a graft**, as long as no subtree that disagrees with its announced root
completes while other roots are queued: whenever the pool may be checkpointed, every leaf is in
the tree once and in its place, or its subtree has a root that is persisted or queued. -/
theorem historical_leaves_settled
    (appendLeaf : ShardtreeBatch → Nat → Bytes → Retention → ShardtreeBatch)
    (ops : CommitmentTreeOps T) (roots : AList (fun _ : Nat => HistoricalSubtreeRoot))
    (hints : Finset Nat) (position : Nat) (events : List GraftEvent)
    (h : EachStep (GraftRun.step appendLeaf ops) (KeepsQueue ops) (start roots hints position)
      events) :
    Throughout (GraftRun.step appendLeaf ops) SettledWhenSafe (start roots hints position)
      events := by
  have hinvariant := run_invariant (P := fun run : GraftRun T => run.Accounts ∧ run.Represented)
    (fun run event hrun hsafe => ⟨hrun.1.step hsafe, hrun.2.step hrun.1 hsafe⟩)
    ⟨accounts_start roots hints position, represented_start roots hints position⟩ h
  intro done hdone
  exact (hinvariant done hdone).1.settled (hinvariant done hdone).2

/-- A marked leaf under a known root, written with its batch. -/
theorem historical_leaves_settled_marked :
    Throughout
      (GraftRun.step ShardtreeBatch.appendSaplingLeaf ⟨(), fun _ _ => some (), fun _ => []⟩)
      SettledWhenSafe
      (start (AList.insert 0 (.ofServer 100 [1] 0) ∅) ∅ 0 : GraftRun Unit)
      [.block 100, .leaf [] .marked, .endBatch] := by
  refine historical_leaves_settled _ _ _ _ _ _ ?_
  refine eachStep_cons.mpr ⟨nofun, eachStep_cons.mpr ⟨?_, eachStep_cons.mpr ⟨nofun, eachStep_nil⟩⟩⟩
  intro node retention _ state hstate _
  obtain rfl := Option.some.inj hstate
  rfl

/-! ### A subtree that is lost -/

section LostSubtree

/-- The roots a server announces for three subtrees; the third ends at height 100, not 101. -/
def lostRoots : AList (fun _ : Nat => HistoricalSubtreeRoot) :=
  ((AList.insert 0 (.ofServer 100 [1] 0) ∅).insert 1 (.ofServer 100 [1] 0)).insert 2
    (.ofServer 101 [1] 0)

/-- A tree in which every subtree has the announced root. -/
def constantTree : CommitmentTreeOps Unit := ⟨(), fun _ _ => some (), fun _ => [1]⟩

/-- The skip state over these roots. -/
def lostState (samples : Finset Nat) (pending : List VerifiedSubtreeRoot) (disabled : Bool)
    (buffer : Option (HistoricalSubtreeBuffer Unit)) : HistoricalSubtreeSkipState Unit :=
  ⟨lostRoots, buffer, none, samples, pending, disabled, ∅⟩

def lostLeaf (position : Nat) : HistoricalLeaf := ⟨100, position, [], .ephemeral⟩

def lostSample (count : Nat) : HistoricalSubtreeBuffer Unit :=
  ⟨0, 100, some [1], true, false, true, some (), count, []⟩

def lostBuffer (index height : Nat) (leaves : List HistoricalLeaf) : HistoricalSubtreeBuffer Unit :=
  ⟨index, height, some [1], false, false, false, none, 0, leaves⟩

variable {sink : HistoricalLeafSink} {position : Nat}

abbrev lostStep (state : HistoricalSubtreeSkipState Unit) (position : Nat)
    (sink : HistoricalLeafSink) :=
  processSkipLeaf ShardtreeBatch.appendSaplingLeaf constantTree state (lostLeaf position) sink

theorem lostStep_sample_first :
    lostStep (lostState ∅ [] false none) 0 sink =
      .ok (lostState ∅ [] false (some (lostSample 1)),
        sink.append ShardtreeBatch.appendSaplingLeaf (lostLeaf 0)) := by
  rfl

/-- Where a leaf stands in its subtree. -/
theorem lostLeaf_place {index offset : Nat}
    (hposition : position = index * SHARD_LEAF_COUNT + offset) (h : offset < SHARD_LEAF_COUNT) :
    (lostLeaf position).subtree = index ∧
      (lostLeaf position).endsSubtree = decide (offset + 1 = SHARD_LEAF_COUNT) := by
  simp only [HistoricalLeaf.subtree, HistoricalLeaf.endsSubtree, lostLeaf, SHARD_LEAF_COUNT,
    SHARD_HEIGHT] at *
  refine ⟨by omega, ?_⟩
  rw [show position % 2 ^ 16 = offset by omega]
  rfl

theorem lostStep_sample_next (hlt : position + 1 < SHARD_LEAF_COUNT) :
    lostStep (lostState ∅ [] false (some (lostSample position))) position sink =
      .ok (lostState ∅ [] false (some (lostSample (position + 1))),
        sink.append ShardtreeBatch.appendSaplingLeaf (lostLeaf position)) := by
  obtain ⟨hsubtree, hend⟩ := @lostLeaf_place position 0 position (by omega) (by omega)
  rw [decide_eq_false (by omega)] at hend
  have hcount : saturatingAdd position 1 = position + 1 := by
    simp only [saturatingAdd, u64Max, SHARD_LEAF_COUNT, SHARD_HEIGHT] at *
    omega
  simp [lostStep, processSkipLeaf, lostState, hsubtree, continueBuffer, lostSample, constantTree,
    closeOrKeep, hend, hcount]

theorem lostStep_sample_last (hlast : position + 1 = SHARD_LEAF_COUNT) :
    lostStep (lostState ∅ [] false (some (lostSample position))) position sink =
      .ok (lostState {0} [] false none,
        sink.append ShardtreeBatch.appendSaplingLeaf (lostLeaf position)) := by
  obtain ⟨hsubtree, hend⟩ := @lostLeaf_place position 0 position (by omega) (by omega)
  rw [decide_eq_true hlast] at hend
  have hcount : saturatingAdd position 1 = SHARD_LEAF_COUNT := by
    simp only [saturatingAdd, u64Max, SHARD_LEAF_COUNT, SHARD_HEIGHT] at *
    omega
  have hheight : (lostLeaf position).height = 100 := rfl
  simp [lostStep, processSkipLeaf, lostState, hsubtree, continueBuffer, lostSample, constantTree,
    closeOrKeep, hend, hcount, finishHistoricalBuffer, HistoricalSubtreeBuffer.sampleMatches,
    hheight]

theorem lostStep_hold_first {pending : List VerifiedSubtreeRoot} {index height : Nat}
    (hposition : position = index * SHARD_LEAF_COUNT)
    (hroot : lostRoots.lookup index = some (.ofServer height [1] 0)) (hindex : index ≠ 0) :
    lostStep (lostState {0} pending false none) position sink =
      .ok (lostState {0} pending false (some (lostBuffer index height [lostLeaf position])),
        sink) := by
  obtain ⟨hsubtree, -⟩ := @lostLeaf_place position index 0 (by omega) shardLeafCount_pos
  have hfirst : (lostLeaf position).position % SHARD_LEAF_COUNT = 0 := by
    show position % SHARD_LEAF_COUNT = 0
    rw [hposition, Nat.mul_mod_left]
  have hend : (lostLeaf position).endsSubtree = false :=
    HistoricalLeaf.not_endsSubtree_of_first hfirst
  have hmark : (lostLeaf position).retention.isMarked = false := rfl
  have hknown : lostRoots.lookup (lostLeaf position).subtree =
      some (.ofServer height [1] 0) := by
    rw [hsubtree]
    exact hroot
  simp [lostStep, processSkipLeaf, lostState, startSubtree, hfirst, hknown, hsubtree,
    startKnownSubtree, unverifiedAnchor, canSkip, HistoricalSubtreeRoot.ofServer, closeOrKeep, hend,
    lostBuffer, hmark, Ne.symm hindex]

theorem lostStep_hold_next {pending : List VerifiedSubtreeRoot} {index height offset : Nat}
    {leaves : List HistoricalLeaf} (hposition : position = index * SHARD_LEAF_COUNT + offset)
    (hlt : offset + 1 < SHARD_LEAF_COUNT) :
    lostStep (lostState {0} pending false (some (lostBuffer index height leaves))) position sink =
      .ok (lostState {0} pending false
        (some (lostBuffer index height (leaves ++ [lostLeaf position]))), sink) := by
  obtain ⟨hsubtree, hend⟩ := lostLeaf_place hposition (by omega)
  rw [decide_eq_false (by omega)] at hend
  have hmark : (lostLeaf position).retention.isMarked = false := rfl
  simp [lostStep, processSkipLeaf, lostState, hsubtree, continueBuffer, lostBuffer, closeOrKeep,
    hend, hmark]

theorem lostStep_hold_last {pending : List VerifiedSubtreeRoot} {index height offset : Nat}
    {leaves : List HistoricalLeaf} (hposition : position = index * SHARD_LEAF_COUNT + offset)
    (hlast : offset + 1 = SHARD_LEAF_COUNT) :
    lostStep (lostState {0} pending false (some (lostBuffer index height leaves))) position sink =
      if height = 100 then
        .ok (lostState {0} (pending ++ [⟨index, 100, [1]⟩]) false none, sink)
      else
        .ok (lostState {0} pending true none, sink.flush ShardtreeBatch.appendSaplingLeaf
          (lostBuffer index height (leaves ++ [lostLeaf position]))) := by
  obtain ⟨hsubtree, hend⟩ := lostLeaf_place hposition (by omega)
  rw [decide_eq_true hlast] at hend
  have hmark : (lostLeaf position).retention.isMarked = false := rfl
  have hheight : (lostLeaf position).height = 100 := rfl
  by_cases h : height = 100
  · simp [lostStep, processSkipLeaf, lostState, hsubtree, continueBuffer, lostBuffer, closeOrKeep,
      hend, hmark, finishHistoricalBuffer, hheight, h]
  · simp [lostStep, processSkipLeaf, lostState, hsubtree, continueBuffer, lostBuffer, closeOrKeep,
      hend, hmark, finishHistoricalBuffer, hheight, h]

/-- A moment of the run: the skip state, and that the first leaf of the second subtree has been
fed, but not emitted. -/
structure LostMoment (run : GraftRun Unit) (state : HistoricalSubtreeSkipState Unit)
    (position : Nat) : Prop where
  skip : run.skip = some state
  inBatch : run.inBatch = true
  height : run.blockHeight = 100
  reached : run.position = position
  running : run.failed = none
  gone : ∀ leaf ∈ run.sink.emitted, leaf.position ≠ SHARD_LEAF_COUNT
  fed : SHARD_LEAF_COUNT < position → ∃ fed ∈ run.fed, fed.leaf = lostLeaf SHARD_LEAF_COUNT

abbrev lostRunStep : GraftRun Unit → GraftEvent → GraftRun Unit :=
  GraftRun.step ShardtreeBatch.appendSaplingLeaf constantTree

theorem LostMoment.next {run : GraftRun Unit} {state state' : HistoricalSubtreeSkipState Unit}
    {sink' : HistoricalLeafSink} (h : LostMoment run state position)
    (hstep : lostStep state position run.sink = .ok (state', sink'))
    (hgone : ∀ leaf ∈ sink'.emitted, leaf.position ≠ SHARD_LEAF_COUNT) :
    LostMoment (lostRunStep run (.leaf [] .ephemeral)) state' (position + 1) := by
  have hleaf : run.nextLeaf [] .ephemeral = lostLeaf position := by
    rw [nextLeaf, h.height, h.reached]
    rfl
  have hfeed : lostRunStep run (.leaf [] .ephemeral) =
      { run with
        skip := some state'
        sink := sink'
        position := run.position + 1
        fed := run.fed ++ [⟨lostLeaf position,
          run.skip.any fun state => state.trusts (lostLeaf position).subtree⟩] } := by
    unfold lostRunStep GraftRun.step feed processHistoricalLeaf
    rw [if_neg (by rw [h.running]; nofun)]
    dsimp only
    rw [if_pos h.inBatch, hleaf, h.skip]
    dsimp only
    rw [show processSkipLeaf ShardtreeBatch.appendSaplingLeaf constantTree state
      (lostLeaf position) run.sink = .ok (state', sink') from hstep]
    rfl
  rw [hfeed]
  refine ⟨rfl, h.inBatch, h.height, ?_, h.running, hgone, ?_⟩
  · show run.position + 1 = position + 1
    rw [h.reached]
  · intro hlt
    by_cases heq : position = SHARD_LEAF_COUNT
    · exact ⟨_, List.mem_append_right _ (List.mem_singleton.mpr rfl), by rw [heq]⟩
    · obtain ⟨fed, hmem, hfed⟩ := h.fed (by omega)
      exact ⟨fed, List.mem_append_left _ hmem, hfed⟩

/-- A leaf of the first subtree that is appended is not the lost one. -/
theorem LostMoment.gone_append {run : GraftRun Unit} {state} (h : LostMoment run state position)
    (hlt : position < SHARD_LEAF_COUNT) :
    ∀ leaf ∈ (run.sink.append ShardtreeBatch.appendSaplingLeaf (lostLeaf position)).emitted,
      leaf.position ≠ SHARD_LEAF_COUNT := by
  intro leaf hleaf
  rcases List.mem_append.mp hleaf with hold | hnew
  · exact h.gone leaf hold
  · rw [List.mem_singleton.mp hnew]
    exact Nat.ne_of_lt hlt

/-- The leaves of the first subtree, which is the sample. -/
theorem lostMoment_sample {run : GraftRun Unit} (h : LostMoment run (lostState ∅ [] false none) 0)
    (count : Nat) (hlt : count + 1 < SHARD_LEAF_COUNT) :
    LostMoment (Runs.run lostRunStep run (List.replicate (count + 1) (.leaf [] .ephemeral)))
      (lostState ∅ [] false (some (lostSample (count + 1)))) (count + 1) := by
  induction count with
  | zero => exact h.next lostStep_sample_first (h.gone_append shardLeafCount_pos)
  | succ count ih =>
    have hbefore := ih (by omega)
    rw [List.replicate_succ', run_append]
    exact hbefore.next (lostStep_sample_next hlt) (hbefore.gone_append (by omega))

/-- The leaves of a subtree that is held back. -/
theorem lostMoment_hold {run : GraftRun Unit} {pending : List VerifiedSubtreeRoot}
    {index height : Nat} (hindex : index ≠ 0)
    (hroot : lostRoots.lookup index = some (.ofServer height [1] 0))
    (h : LostMoment run (lostState {0} pending false none) (index * SHARD_LEAF_COUNT))
    (count : Nat) (hlt : count + 1 < SHARD_LEAF_COUNT) :
    ∃ leaves, (∀ leaf ∈ leaves, index * SHARD_LEAF_COUNT ≤ leaf.position) ∧
      LostMoment (Runs.run lostRunStep run (List.replicate (count + 1) (.leaf [] .ephemeral)))
        (lostState {0} pending false (some (lostBuffer index height leaves)))
        (index * SHARD_LEAF_COUNT + (count + 1)) := by
  induction count with
  | zero =>
    have hfirst := h.next
      (@lostStep_hold_first run.sink _ pending index height rfl hroot hindex) h.gone
    refine ⟨[lostLeaf (index * SHARD_LEAF_COUNT)], ?_, hfirst⟩
    intro leaf hleaf
    rw [List.mem_singleton.mp hleaf]
    exact Nat.le_refl _
  | succ count ih =>
    obtain ⟨leaves, hleaves, hbefore⟩ := ih (by omega)
    rw [List.replicate_succ', run_append]
    have hnext := hbefore.next
      (@lostStep_hold_next _ _ pending index height (count + 1) leaves rfl hlt) hbefore.gone
    rw [Nat.add_assoc] at hnext
    refine ⟨_, ?_, hnext⟩
    intro leaf hleaf
    rcases List.mem_append.mp hleaf with hold | hnew
    · exact hleaves leaf hold
    · rw [List.mem_singleton.mp hnew]
      exact Nat.le_add_right _ _

/-- A whole subtree of leaves, the last one apart. -/
theorem replicate_subtree (event : GraftEvent) :
    List.replicate SHARD_LEAF_COUNT event =
      List.replicate (SHARD_LEAF_COUNT - 2 + 1) event ++ [event] := by
  rw [← List.replicate_succ']
  congr 1

theorem lostMoment_verified {run : GraftRun Unit}
    (h : LostMoment run (lostState ∅ [] false none) 0) :
    LostMoment (Runs.run lostRunStep run (List.replicate SHARD_LEAF_COUNT (.leaf [] .ephemeral)))
      (lostState {0} [] false none) (1 * SHARD_LEAF_COUNT) := by
  have hlast : SHARD_LEAF_COUNT - 2 + 1 + 1 = SHARD_LEAF_COUNT := by decide
  have hsample := lostMoment_sample h (SHARD_LEAF_COUNT - 2) (by omega)
  have hverified := hsample.next (lostStep_sample_last hlast)
    (hsample.gone_append (by omega))
  rw [replicate_subtree, run_append, run_cons, run_nil, Nat.one_mul]
  rw [hlast] at hverified
  exact hverified

theorem lostMoment_completed {run : GraftRun Unit} {pending : List VerifiedSubtreeRoot}
    {index height : Nat} (hindex : index ≠ 0)
    (hroot : lostRoots.lookup index = some (.ofServer height [1] 0))
    (h : LostMoment run (lostState {0} pending false none) (index * SHARD_LEAF_COUNT)) :
    (height = 100 → LostMoment
      (Runs.run lostRunStep run (List.replicate SHARD_LEAF_COUNT (.leaf [] .ephemeral)))
      (lostState {0} (pending ++ [⟨index, 100, [1]⟩]) false none)
      ((index + 1) * SHARD_LEAF_COUNT)) ∧
    (height ≠ 100 → 1 < index → LostMoment
      (Runs.run lostRunStep run (List.replicate SHARD_LEAF_COUNT (.leaf [] .ephemeral)))
      (lostState {0} pending true none) ((index + 1) * SHARD_LEAF_COUNT)) := by
  have hlast : SHARD_LEAF_COUNT - 2 + 1 + 1 = SHARD_LEAF_COUNT := by decide
  have hend : index * SHARD_LEAF_COUNT + (SHARD_LEAF_COUNT - 2 + 1) + 1 =
      (index + 1) * SHARD_LEAF_COUNT := by
    rw [Nat.add_assoc, hlast, Nat.succ_mul]
  obtain ⟨leaves, hleaves, hheld⟩ :=
    lostMoment_hold hindex hroot h (SHARD_LEAF_COUNT - 2) (by omega)
  have hstep := @lostStep_hold_last
    (Runs.run lostRunStep run
      (List.replicate (SHARD_LEAF_COUNT - 2 + 1) (.leaf [] .ephemeral))).sink
    _ pending index height _ leaves rfl hlast
  rw [replicate_subtree, run_append, run_cons, run_nil, ← hend]
  constructor
  · intro hheight
    rw [if_pos hheight] at hstep
    exact hheld.next hstep hheld.gone
  · intro hheight hlarge
    rw [if_neg hheight] at hstep
    refine hheld.next hstep ?_
    have hbeyond : SHARD_LEAF_COUNT < index * SHARD_LEAF_COUNT := by
      have := Nat.mul_lt_mul_of_pos_right hlarge shardLeafCount_pos
      omega
    intro leaf hleaf
    rw [HistoricalLeafSink.flush_emitted, lostBuffer, List.mem_append, List.mem_append,
      List.mem_singleton] at hleaf
    rcases hleaf with hold | hflushed | rfl
    · exact hheld.gone leaf hold
    · have := hleaves leaf hflushed
      omega
    · show index * SHARD_LEAF_COUNT + (SHARD_LEAF_COUNT - 2 + 1) ≠ SHARD_LEAF_COUNT
      omega

/-- One batch of one block: the first subtree is a sample and agrees, the second is held back and
its root is queued, the third ends at another height than announced. -/
def lostEvents : List GraftEvent :=
  .block 100 :: List.replicate (3 * SHARD_LEAF_COUNT) (.leaf [] .ephemeral)

theorem lostMoment_last :
    LostMoment (Runs.run lostRunStep (start lostRoots ∅ 0) lostEvents)
      (lostState {0} [⟨1, 100, [1]⟩] true none) (3 * SHARD_LEAF_COUNT) := by
  have hopen : LostMoment (lostRunStep (start lostRoots ∅ 0) (.block 100))
      (lostState ∅ [] false none) 0 := by
    refine ⟨?_, rfl, rfl, rfl, rfl, nofun, nofun⟩
    show some (HistoricalSubtreeSkipState.withLeafBackedHints _ ∅) = _
    rfl
  have hfirst := lostMoment_verified hopen
  have hsecond := (lostMoment_completed (by decide) (by rfl) hfirst).1 rfl
  have hthird := (@lostMoment_completed _ _ 2 101 (by decide) (by rfl) hsecond).2 (by decide)
    (by decide)
  unfold lostEvents
  rw [run_cons, show 3 * SHARD_LEAF_COUNT =
    SHARD_LEAF_COUNT + (SHARD_LEAF_COUNT + SHARD_LEAF_COUNT) by omega, List.replicate_add,
    List.replicate_add, run_append, run_append]
  exact hthird

/-- The leaves of the second subtree are lost: they are not in the tree, their root is not
persisted, and it will not be. -/
theorem queued_subtree_is_lost :
    ¬ Throughout lostRunStep SettledWhenSafe (start lostRoots ∅ 0) lostEvents := by
  intro h
  have hmoment := lostMoment_last
  have hsettled := h.last _ hmoment.skip rfl
  obtain ⟨fed, hfed, hleaf⟩ := hmoment.fed (by
    have := shardLeafCount_pos
    omega)
  have hsubtree : fed.leaf.subtree = 1 := by
    rw [hleaf]
    exact Nat.div_self shardLeafCount_pos
  rcases hsettled.once fed hfed with hcount | htrusts | ⟨root, hroot, -⟩
  · have hmem : fed.leaf ∈
        (Runs.run lostRunStep (start lostRoots ∅ 0) lostEvents).sink.emitted := by
      apply List.count_pos_iff.mp
      rw [hcount]
      exact Nat.one_pos
    refine hmoment.gone _ hmem ?_
    rw [hleaf]
    rfl
  · rw [hsubtree] at htrusts
    cases htrusts
  · cases hroot

end LostSubtree

end GraftRun

end StashiWallet
