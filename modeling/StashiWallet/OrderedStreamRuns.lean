import StashiWallet.OrderedStream

/-!
# Any order of calls on the assembler

A run of the assembler is any sequence of pushes, partial flushes and changes of the block
ceiling. Beside the assembler the run keeps what was emitted, each chunk with the ceiling in
force, and what was accepted, each block with the size recorded for it.
-/

namespace StashiWallet

/-- The calls between `with_limits` and `finish`. -/
inductive AssemblerCall where
  | push (block : CompactBlockData) (encodedBytes : Nat)
  | takePartial
  | setNextChunkMaxBlocks (maxBlocks : Nat)
deriving DecidableEq, Repr

/-- The assembler, the chunks it has emitted and the blocks it has accepted. -/
structure AssemblerRun where
  assembler : OrderedBlockAssembler
  emitted : List (OrderedBlockChunk × Nat)
  accepted : List (CompactBlockData × Nat)
deriving DecidableEq, Repr

namespace AssemblerRun

/-- A call that has accepted `accepted`, emitted `chunk` and left `after`. -/
def emit (run : AssemblerRun) (accepted : List (CompactBlockData × Nat))
    (chunk : Option OrderedBlockChunk) (after : OrderedBlockAssembler) : AssemblerRun where
  assembler := after
  emitted := run.emitted ++ chunk.toList.map fun chunk => (chunk, run.assembler.maxBlocks)
  accepted := run.accepted ++ accepted

def step (run : AssemblerRun) : AssemblerCall → AssemblerRun
  | .push block encodedBytes =>
    match run.assembler.push block encodedBytes with
    | (.ok chunk, after) => run.emit [(block, max encodedBytes 1)] chunk after
    | (.error _, after) => { run with assembler := after }
  | .takePartial => run.emit [] run.assembler.takePartial.1 run.assembler.takePartial.2
  | .setNextChunkMaxBlocks maxBlocks =>
    { run with assembler := run.assembler.setNextChunkMaxBlocks maxBlocks }

/-- The blocks of the emitted chunks. -/
def emittedBlocks (run : AssemblerRun) : List CompactBlockData :=
  run.emitted.flatMap (·.1.blocks)

/-- The sizes of the emitted blocks, as recorded. -/
def emittedSizes (run : AssemblerRun) : List Nat :=
  run.emitted.flatMap (·.1.encodedBlockBytes)

/-- The five fields of the assembler, tied to what was accepted. -/
structure Ordered (start endExclusive maxEncodedBytes : Nat) (run : AssemblerRun) : Prop where
  blocks : run.emittedBlocks ++ run.assembler.blocks = run.accepted.map (·.1)
  sizes : run.emittedSizes ++ run.assembler.encodedBlockBytes = run.accepted.map (·.2)
  assembles : run.assembler.Assembles start run.emittedBlocks
  buffered : run.assembler.Buffered
  byteLimit : run.assembler.maxEncodedBytes = max maxEncodedBytes 1
  range : run.assembler.requestedEndExclusive = endExclusive
  chunks : ∀ entry ∈ run.emitted,
    entry.1.Sized ∧ entry.1.WithinLimits (max maxEncodedBytes 1) entry.2

variable {start endExclusive maxEncodedBytes : Nat} {run : AssemblerRun}

@[simp]
theorem emittedBlocks_emit (accepted : List (CompactBlockData × Nat))
    (chunk : Option OrderedBlockChunk) (after : OrderedBlockAssembler) :
    (run.emit accepted chunk after).emittedBlocks =
      run.emittedBlocks ++ chunk.toList.flatMap (·.blocks) := by
  unfold emittedBlocks emit
  rw [List.flatMap_append, List.flatMap_map]

@[simp]
theorem emittedSizes_emit (accepted : List (CompactBlockData × Nat))
    (chunk : Option OrderedBlockChunk) (after : OrderedBlockAssembler) :
    (run.emit accepted chunk after).emittedSizes =
      run.emittedSizes ++ chunk.toList.flatMap (·.encodedBlockBytes) := by
  unfold emittedSizes emit
  rw [List.flatMap_append, List.flatMap_map]

theorem step_push_of_accepts {block : CompactBlockData} (h : run.assembler.Accepts block)
    (encodedBytes : Nat) :
    run.step (.push block encodedBytes) =
      run.emit [(block, max encodedBytes 1)] (run.assembler.accept block encodedBytes).1
        (run.assembler.accept block encodedBytes).2 := by
  unfold step
  dsimp only
  rw [OrderedBlockAssembler.push_of_accepts h]

theorem step_push_of_not_accepts {block : CompactBlockData} (h : ¬ run.assembler.Accepts block)
    (encodedBytes : Nat) : run.step (.push block encodedBytes) = run := by
  obtain ⟨message, hrejected⟩ := OrderedBlockAssembler.push_of_not_accepts h encodedBytes
  unfold step
  dsimp only
  rw [hrejected]

variable (h : run.Ordered start endExclusive maxEncodedBytes)

include h

/-- Emitting a chunk that meets its limits. -/
theorem Ordered.emit {accepted : List (CompactBlockData × Nat)} {chunk : Option OrderedBlockChunk}
    {after : OrderedBlockAssembler}
    (hchunk : ∀ found, chunk = some found →
      found.Sized ∧ found.WithinLimits run.assembler.maxEncodedBytes run.assembler.maxBlocks) :
    ∀ entry ∈ (run.emit accepted chunk after).emitted,
      entry.1.Sized ∧ entry.1.WithinLimits (max maxEncodedBytes 1) entry.2 := by
  intro entry hentry
  rcases List.mem_append.mp hentry with hold | hnew
  · exact h.chunks entry hold
  · obtain ⟨found, hfound, rfl⟩ := List.mem_map.mp hnew
    rw [← h.byteLimit]
    exact hchunk found (Option.mem_toList.mp hfound)

theorem Ordered.takePartial :
    (run.step .takePartial).Ordered start endExclusive maxEncodedBytes := by
  have hrest : run.assembler.takePartial.2.maxEncodedBytes = run.assembler.maxEncodedBytes ∧
      run.assembler.takePartial.2.requestedEndExclusive =
        run.assembler.requestedEndExclusive := by
    unfold OrderedBlockAssembler.takePartial
    split <;> exact ⟨rfl, rfl⟩
  show (run.emit [] run.assembler.takePartial.1 run.assembler.takePartial.2).Ordered _ _ _
  constructor
  · rw [emittedBlocks_emit, List.append_assoc]
    refine (congrArg _ OrderedBlockAssembler.takePartial_blocks).trans (h.blocks.trans ?_)
    exact congrArg _ (List.append_nil _).symm
  · rw [emittedSizes_emit, List.append_assoc]
    refine (congrArg _ OrderedBlockAssembler.takePartial_sizes).trans (h.sizes.trans ?_)
    exact congrArg _ (List.append_nil _).symm
  · rw [emittedBlocks_emit]
    exact h.assembles.takePartial
  · exact h.buffered.takePartial
  · exact hrest.1.trans h.byteLimit
  · exact hrest.2.trans h.range
  · exact h.emit (fun found hfound => h.buffered.chunk hfound)

theorem Ordered.setNextChunkMaxBlocks (maxBlocks : Nat) :
    (run.step (.setNextChunkMaxBlocks maxBlocks)).Ordered start endExclusive maxEncodedBytes := by
  have hkept : (run.assembler.setNextChunkMaxBlocks maxBlocks).blocks = run.assembler.blocks ∧
      (run.assembler.setNextChunkMaxBlocks maxBlocks).encodedBlockBytes =
        run.assembler.encodedBlockBytes ∧
      (run.assembler.setNextChunkMaxBlocks maxBlocks).maxEncodedBytes =
        run.assembler.maxEncodedBytes ∧
      (run.assembler.setNextChunkMaxBlocks maxBlocks).requestedEndExclusive =
        run.assembler.requestedEndExclusive := by
    unfold OrderedBlockAssembler.setNextChunkMaxBlocks
    split <;> exact ⟨rfl, rfl, rfl, rfl⟩
  obtain ⟨hblocks, hsizes, hbytes, hrange⟩ := hkept
  constructor
  · show run.emittedBlocks ++ (run.assembler.setNextChunkMaxBlocks maxBlocks).blocks = _
    rw [hblocks]
    exact h.blocks
  · show run.emittedSizes ++ (run.assembler.setNextChunkMaxBlocks maxBlocks).encodedBlockBytes = _
    rw [hsizes]
    exact h.sizes
  · exact h.assembles.setNextChunkMaxBlocks maxBlocks
  · exact h.buffered.setNextChunkMaxBlocks maxBlocks
  · exact hbytes.trans h.byteLimit
  · exact hrange.trans h.range
  · exact h.chunks

theorem Ordered.push (block : CompactBlockData) (encodedBytes : Nat) :
    (run.step (.push block encodedBytes)).Ordered start endExclusive maxEncodedBytes := by
  by_cases haccepts : run.assembler.Accepts block
  · rw [step_push_of_accepts haccepts]
    obtain ⟨hassembles, hblocks⟩ := h.assembles.accept haccepts encodedBytes
    obtain ⟨hbuffered, hchunk⟩ := h.buffered.accept block encodedBytes
    have hkept := OrderedBlockAssembler.accept_keeps run.assembler block encodedBytes
    constructor
    · rw [emittedBlocks_emit]
      refine hblocks.trans ?_
      rw [h.blocks]
      exact (@List.map_append _ _ _ run.accepted [(block, max encodedBytes 1)]).symm
    · rw [emittedSizes_emit, List.append_assoc]
      refine (congrArg _ hkept.1).trans ?_
      rw [← List.append_assoc, h.sizes]
      exact (@List.map_append _ _ _ run.accepted [(block, max encodedBytes 1)]).symm
    · rw [emittedBlocks_emit]
      exact hassembles
    · exact hbuffered
    · exact hkept.2.1.trans h.byteLimit
    · exact hkept.2.2.trans h.range
    · exact h.emit (fun found hfound => hchunk found hfound)
  · rw [step_push_of_not_accepts haccepts]
    exact h

/-- The step lemma: every call keeps the five fields tied together. -/
theorem Ordered.step (call : AssemblerCall) :
    (run.step call).Ordered start endExclusive maxEncodedBytes := by
  cases call with
  | push block encodedBytes => exact h.push block encodedBytes
  | takePartial => exact h.takePartial
  | setNextChunkMaxBlocks maxBlocks => exact h.setNextChunkMaxBlocks maxBlocks

omit h

theorem ordered_of_withLimits {maxBlocks : Nat} {assembler : OrderedBlockAssembler}
    (hend : endExclusive ≤ u64Max)
    (h : OrderedBlockAssembler.withLimits start endExclusive maxEncodedBytes maxBlocks =
      .ok assembler) :
    (AssemblerRun.mk assembler [] []).Ordered start endExclusive maxEncodedBytes := by
  have hassembles := OrderedBlockAssembler.assembles_of_withLimits hend h
  unfold OrderedBlockAssembler.withLimits at h
  split at h
  · cases h
  · obtain rfl := Except.ok.inj h
    refine ⟨rfl, rfl, hassembles, ⟨rfl, rfl, ?_, Or.inl (Nat.zero_le 1)⟩, rfl, rfl,
      List.forall_mem_nil _⟩
    exact Nat.lt_of_lt_of_le Nat.zero_lt_one (le_max_right maxBlocks 1)

/-- `finish` succeeds on a complete range only, and returns what is buffered. -/
theorem Ordered.finish (h : run.Ordered start endExclusive maxEncodedBytes) :
    (run.assembler.finish = .ok run.assembler.takePartial.1 ↔
      start + run.accepted.length = endExclusive) ∧
    (start + run.accepted.length ≠ endExclusive →
      ∃ message, run.assembler.finish = .error (.sync message)) := by
  have hnext : run.assembler.nextHeight = start + run.accepted.length := by
    rw [h.assembles.next, h.blocks, List.length_map]
  unfold OrderedBlockAssembler.finish OrderedBlockAssembler.isComplete
  rw [hnext, h.range]
  by_cases hcomplete : start + run.accepted.length = endExclusive
  · simp [hcomplete]
  · simp [hcomplete]

end AssemblerRun

open AssemblerRun

/-- **The assembler under any calls.** After every prefix of any sequence of calls, what was
emitted and what is buffered are the accepted blocks, one linked run from the start of the range
to `next_height`; each emitted chunk and the buffer record the sizes of their blocks and their
sum, capped at `u64::MAX`; each emitted chunk of more than one block is within both limits; a
push that fails changes nothing; and `finish` succeeds exactly when the whole range was
accepted. -/
theorem assembler_orders (start endExclusive maxEncodedBytes maxBlocks : Nat)
    (hend : endExclusive ≤ u64Max) (assembler : OrderedBlockAssembler)
    (hnew : OrderedBlockAssembler.withLimits start endExclusive maxEncodedBytes maxBlocks =
      .ok assembler) (calls : List AssemblerCall) :
    Runs.Throughout AssemblerRun.step (fun run =>
      run.emittedBlocks ++ run.assembler.blocks = run.accepted.map (·.1) ∧
      FormsRun start (run.accepted.map (·.1)) ∧
      run.assembler.nextHeight = start + run.accepted.length ∧
      run.emittedSizes ++ run.assembler.encodedBlockBytes = run.accepted.map (·.2) ∧
      run.assembler.encodedBytes = min run.assembler.encodedBlockBytes.sum u64Max ∧
      (∀ entry ∈ run.emitted,
        entry.1.Sized ∧ entry.1.WithinLimits (max maxEncodedBytes 1) entry.2) ∧
      (∀ block encodedBytes error after,
        run.assembler.push block encodedBytes = (.error error, after) → after = run.assembler) ∧
      (run.assembler.finish = .ok run.assembler.takePartial.1 ↔
        start + run.accepted.length = endExclusive) ∧
      (start + run.accepted.length ≠ endExclusive →
        ∃ message, run.assembler.finish = .error (.sync message)))
      ⟨assembler, [], []⟩ calls := by
  intro done hdone
  have h : (Runs.run AssemblerRun.step ⟨assembler, [], []⟩ done).Ordered start endExclusive
      maxEncodedBytes :=
    Runs.run_invariant_always (P := Ordered start endExclusive maxEncodedBytes)
      (fun run call h => Ordered.step h call) (ordered_of_withLimits hend hnew) calls done hdone
  refine ⟨h.blocks, ?_, ?_, h.sizes, h.buffered.total, h.chunks, ?_, h.finish⟩
  · rw [← h.blocks]
    exact h.assembles.run
  · rw [h.assembles.next, h.blocks, List.length_map]
  · intro block encodedBytes error after hpush
    by_cases haccepts : (Runs.run AssemblerRun.step ⟨assembler, [], []⟩ done).assembler.Accepts block
    · rw [OrderedBlockAssembler.push_of_accepts haccepts] at hpush
      cases hpush
    · obtain ⟨message, hrejected⟩ :=
        OrderedBlockAssembler.push_of_not_accepts haccepts encodedBytes
      rw [hrejected] at hpush
      exact (congrArg Prod.snd hpush).symm

/-- Blocks 10 and 11, linked. -/
def tenthBlock : CompactBlockData :=
  ⟨1, 10, List.replicate 32 10, List.replicate 32 9, 0, [], []⟩

def eleventhBlock : CompactBlockData :=
  ⟨1, 11, List.replicate 32 11, List.replicate 32 10, 0, [], []⟩

/-- The assembler of the two blocks with the given limits. -/
def twoBlocks (maxEncodedBytes maxBlocks : Nat) : OrderedBlockAssembler where
  requestedEndExclusive := 12
  nextHeight := 10
  maxEncodedBytes := maxEncodedBytes
  maxBlocks := maxBlocks
  blocks := []
  encodedBlockBytes := []
  encodedBytes := 0
  previousHash := none

/-- Two blocks of 60 bytes under a limit of 100: the first is emitted when the second comes, and
the second by the flush that follows a repeated push. -/
theorem assembler_orders_two_blocks :
    (Runs.run AssemblerRun.step ⟨twoBlocks 100 4, [], []⟩
      [.push tenthBlock 60, .push eleventhBlock 60, .push eleventhBlock 60,
        .takePartial]).emittedBlocks = [tenthBlock, eleventhBlock] ∧
    FormsRun 10 [tenthBlock, eleventhBlock] := by
  have h := assembler_orders 10 12 100 4 (by decide) (twoBlocks 100 4) rfl
    [.push tenthBlock 60, .push eleventhBlock 60, .push eleventhBlock 60, .takePartial] _
    List.prefix_rfl
  exact ⟨(List.append_nil _).symm.trans h.1, h.2.1⟩

/-- **A total that is not the sum.** Without a byte limit two blocks of 2^63 bytes wait in the
buffer, and its total is `u64::MAX`. -/
theorem total_saturates :
    OrderedBlockAssembler.withLimits 10 12 u64Max u64Max = .ok (twoBlocks u64Max u64Max) ∧
    (Runs.run AssemblerRun.step ⟨twoBlocks u64Max u64Max, [], []⟩
      [.push tenthBlock 9223372036854775808,
        .push eleventhBlock 9223372036854775808]).emitted.map
          (fun entry => (entry.1.encodedBytes, entry.1.encodedBlockBytes.sum)) =
      [(18446744073709551615, 18446744073709551616)] := by
  refine ⟨rfl, ?_⟩
  decide +kernel

end StashiWallet
