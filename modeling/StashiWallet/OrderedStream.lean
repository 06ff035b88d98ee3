import Mathlib.Algebra.GroupWithZero.Nat
import Mathlib.Data.List.Chain
import StashiWallet.CompactBlock
import StashiWallet.Sql
import StashiWallet.Runs

/-!
# The ordered assembler of a block range

Everything the client streams goes through one assembler, which takes blocks one at a time, in
the order of their heights and each linked to the one before, and cuts them into chunks. A chunk
ends at the block limit or the byte limit; a block over the byte limit is a chunk of its own.
Sizes are added with saturation, so a chunk's total is its sizes' sum only up to `u64::MAX`.
-/

namespace StashiWallet

inductive StatusCode where
  | ok
  | cancelled
  | unknown
  | invalidArgument
  | deadlineExceeded
  | notFound
  | alreadyExists
  | permissionDenied
  | resourceExhausted
  | failedPrecondition
  | aborted
  | outOfRange
  | unimplemented
  | internal
  | unavailable
  | dataLoss
  | unauthenticated
deriving DecidableEq, Repr

/-- `Error` of the light client's crate. -/
inductive ClientError where
  | network (message : String)
  | connection (message : String)
  | sync (message : String)
  | cancelled
  | privacy (message : String)
  | transport (message : String)
  | status (code : StatusCode) (message : String)
  | storage (message : String)
  | io (message : String)
deriving DecidableEq, Repr

structure OrderedBlockChunk where
  blocks : List CompactBlockData
  encodedBlockBytes : List Nat
  encodedBytes : Nat
deriving DecidableEq, Repr

structure OrderedBlockAssembler where
  requestedEndExclusive : Nat
  nextHeight : Nat
  maxEncodedBytes : Nat
  maxBlocks : Nat
  blocks : List CompactBlockData
  encodedBlockBytes : List Nat
  encodedBytes : Nat
  previousHash : Option Bytes
deriving DecidableEq, Repr

namespace OrderedBlockAssembler

def withLimits (start endExclusive maxEncodedBytes maxBlocks : Nat) :
    Except ClientError OrderedBlockAssembler :=
  if endExclusive < start then
    .error (.sync s!"invalid ordered stream range {start}..{endExclusive}")
  else
    .ok {
      requestedEndExclusive := endExclusive
      nextHeight := start
      maxEncodedBytes := max maxEncodedBytes 1
      maxBlocks := max maxBlocks 1
      blocks := []
      encodedBlockBytes := []
      encodedBytes := 0
      previousHash := none }

variable (assembler : OrderedBlockAssembler)

def isComplete : Bool := assembler.nextHeight == assembler.requestedEndExclusive

def setNextChunkMaxBlocks (maxBlocks : Nat) : OrderedBlockAssembler :=
  if assembler.blocks.isEmpty then { assembler with maxBlocks := max maxBlocks 1 } else assembler

def takePartial : Option OrderedBlockChunk × OrderedBlockAssembler :=
  if assembler.blocks.isEmpty then (none, assembler)
  else
    (some ⟨assembler.blocks, assembler.encodedBlockBytes, assembler.encodedBytes⟩,
      { assembler with blocks := [], encodedBlockBytes := [], encodedBytes := 0 })

/-- The fields `push` writes for an accepted block. -/
def append (block : CompactBlockData) (encodedBytes : Nat) : OrderedBlockAssembler :=
  { assembler with
    previousHash := some block.hash
    nextHeight := saturatingAdd assembler.nextHeight 1
    encodedBytes := saturatingAdd assembler.encodedBytes encodedBytes
    encodedBlockBytes := assembler.encodedBlockBytes ++ [encodedBytes]
    blocks := assembler.blocks ++ [block] }

/-- `push` after its checks. -/
def accept (block : CompactBlockData) (encodedBytes : Nat) :
    Option OrderedBlockChunk × OrderedBlockAssembler :=
  let encodedBytes := max encodedBytes 1
  let flushed :=
    if !assembler.blocks.isEmpty &&
        decide (assembler.maxEncodedBytes < saturatingAdd assembler.encodedBytes encodedBytes) then
      assembler.takePartial
    else (none, assembler)
  let added := flushed.2.append block encodedBytes
  match flushed.1 with
  | some completed => (some completed, added)
  | none =>
    if added.maxBlocks ≤ added.blocks.length ∨ added.maxEncodedBytes ≤ added.encodedBytes then
      added.takePartial
    else (none, added)

def push (block : CompactBlockData) (encodedBytes : Nat) :
    Except ClientError (Option OrderedBlockChunk) × OrderedBlockAssembler :=
  if block.height ≠ assembler.nextHeight then
    (.error (.sync (s!"compact block stream expected height {assembler.nextHeight}, " ++
      s!"received {block.height}")), assembler)
  else if assembler.requestedEndExclusive ≤ block.height then
    (.error (.sync (s!"compact block stream returned height {block.height} " ++
      s!"outside requested end {assembler.requestedEndExclusive}")), assembler)
  else if block.hash.length ≠ 32 ∨ block.prevHash.length ≠ 32 then
    (.error (.sync (s!"compact block {block.height} has malformed hash lengths " ++
      s!"hash={block.hash.length} prev_hash={block.prevHash.length}")), assembler)
  else if assembler.previousHash.any (fun previousHash => block.prevHash != previousHash) then
    (.error (.sync s!"compact block stream disconnected at height {block.height}"), assembler)
  else (.ok (assembler.accept block encodedBytes).1, (assembler.accept block encodedBytes).2)

def finish : Except ClientError (Option OrderedBlockChunk) :=
  if !assembler.isComplete then
    .error (.sync (s!"compact block stream ended at {assembler.nextHeight}, " ++
      s!"expected {assembler.requestedEndExclusive}"))
  else .ok assembler.takePartial.1

end OrderedBlockAssembler

/-- Consecutive heights from `start` on, each block linked to the one before. -/
structure FormsRun (start : Nat) (blocks : List CompactBlockData) : Prop where
  heights : blocks.map (·.height) = List.range' start blocks.length
  links : blocks.IsChain fun block next => next.prevHash = block.hash
  lengths : ∀ block ∈ blocks, block.hash.length = 32 ∧ block.prevHash.length = 32

theorem formsRun_nil (start : Nat) : FormsRun start [] :=
  ⟨rfl, List.IsChain.nil, List.forall_mem_nil _⟩

theorem FormsRun.concat {start : Nat} {blocks : List CompactBlockData} (h : FormsRun start blocks)
    {block : CompactBlockData} (hheight : block.height = start + blocks.length)
    (hlink : ∀ last ∈ blocks.getLast?, block.prevHash = last.hash)
    (hlengths : block.hash.length = 32 ∧ block.prevHash.length = 32) :
    FormsRun start (blocks ++ [block]) := by
  constructor
  · rw [List.map_append, h.heights, List.length_append, List.length_singleton,
      ← List.range'_append_1]
    simp [hheight]
  · refine h.links.append (.singleton block) (fun last hlast next hnext => ?_)
    obtain rfl : block = next := by simpa using hnext
    exact hlink last hlast
  · intro other hother
    rcases List.mem_append.mp hother with hold | hnew
    · exact h.lengths other hold
    · rw [List.mem_singleton.mp hnew]
      exact hlengths

/-- The first blocks of a run are a run. -/
theorem FormsRun.left {start : Nat} {blocks more : List CompactBlockData}
    (h : FormsRun start (blocks ++ more)) : FormsRun start blocks := by
  refine ⟨?_, (List.isChain_append.mp h.links).1, ?_⟩
  · have hheights := h.heights
    rw [List.map_append, List.length_append, ← List.range'_append_1] at hheights
    exact (List.append_inj hheights (by simp)).1
  · intro block hblock
    exact h.lengths block (List.mem_append_left more hblock)

/-- What a chunk records of its sizes, whatever the limits. -/
structure OrderedBlockChunk.Sized (chunk : OrderedBlockChunk) : Prop where
  nonempty : chunk.blocks ≠ []
  sizes : chunk.encodedBlockBytes.length = chunk.blocks.length
  total : chunk.encodedBytes = min chunk.encodedBlockBytes.sum u64Max

/-- The limits bind a chunk of more than one block. -/
def OrderedBlockChunk.WithinLimits (chunk : OrderedBlockChunk)
    (maxEncodedBytes maxBlocks : Nat) : Prop :=
  chunk.blocks.length = 1 ∨
    chunk.encodedBytes ≤ maxEncodedBytes ∧ chunk.blocks.length ≤ maxBlocks

namespace OrderedBlockAssembler

/-- What `push` asks of a block. -/
structure Accepts (assembler : OrderedBlockAssembler) (block : CompactBlockData) : Prop where
  height : block.height = assembler.nextHeight
  inside : block.height < assembler.requestedEndExclusive
  lengths : block.hash.length = 32 ∧ block.prevHash.length = 32
  link : ∀ previousHash ∈ assembler.previousHash, block.prevHash = previousHash

/-- The buffer, whatever was accepted before: its sizes, and its limits as long as nothing is
flushed. -/
structure Buffered (assembler : OrderedBlockAssembler) : Prop where
  sizes : assembler.encodedBlockBytes.length = assembler.blocks.length
  total : assembler.encodedBytes = min assembler.encodedBlockBytes.sum u64Max
  few : assembler.blocks.length < assembler.maxBlocks
  bytes : assembler.blocks.length ≤ 1 ∨ assembler.encodedBytes ≤ assembler.maxEncodedBytes

variable {assembler : OrderedBlockAssembler} {block : CompactBlockData} {encodedBytes : Nat}

/-- A rejected block leaves the assembler as it is. -/
theorem push_of_not_accepts (h : ¬ assembler.Accepts block) (encodedBytes : Nat) :
    ∃ message, assembler.push block encodedBytes = (.error (.sync message), assembler) := by
  unfold push
  split
  · exact ⟨_, rfl⟩
  · rename_i hheight
    split
    · exact ⟨_, rfl⟩
    · rename_i hinside
      split
      · exact ⟨_, rfl⟩
      · rename_i hlengths
        split
        · exact ⟨_, rfl⟩
        · rename_i hlink
          refine absurd ⟨not_not.mp hheight, not_le.mp hinside, ?_, ?_⟩ h
          · push Not at hlengths
            exact hlengths
          · intro previousHash hprevious
            by_contra hne
            refine hlink ?_
            rw [Option.mem_def.mp hprevious, Option.any_some]
            exact bne_iff_ne.mpr hne

theorem push_of_accepts (h : assembler.Accepts block) (encodedBytes : Nat) :
    assembler.push block encodedBytes = (.ok (assembler.accept block encodedBytes).1,
      (assembler.accept block encodedBytes).2) := by
  unfold push
  have hlink :
      assembler.previousHash.any (fun previousHash => block.prevHash != previousHash) = false := by
    rw [Option.any_eq_false]
    intro previousHash hprevious
    simp [h.link previousHash hprevious]
  have hlengths : ¬ (block.hash.length ≠ 32 ∨ block.prevHash.length ≠ 32) := by
    rw [not_or, not_not, not_not]
    exact h.lengths
  rw [if_neg (not_not.mpr h.height), if_neg (not_le.mpr h.inside), if_neg hlengths, hlink]
  exact if_neg Bool.false_ne_true

theorem takePartial_of_empty (h : assembler.blocks = []) :
    assembler.takePartial = (none, assembler) := by
  unfold takePartial
  rw [h]
  rfl

theorem takePartial_of_ne_nil (h : assembler.blocks ≠ []) :
    assembler.takePartial =
      (some ⟨assembler.blocks, assembler.encodedBlockBytes, assembler.encodedBytes⟩,
        { assembler with blocks := [], encodedBlockBytes := [], encodedBytes := 0 }) := by
  unfold takePartial
  rw [if_neg]
  rwa [List.isEmpty_iff]

/-- Nothing is lost when the buffer is taken. -/
theorem takePartial_blocks :
    assembler.takePartial.1.toList.flatMap (·.blocks) ++ assembler.takePartial.2.blocks =
      assembler.blocks := by
  by_cases h : assembler.blocks = []
  · rw [takePartial_of_empty h]
    rfl
  · rw [takePartial_of_ne_nil h]
    simp

theorem takePartial_sizes :
    assembler.takePartial.1.toList.flatMap (·.encodedBlockBytes) ++
        assembler.takePartial.2.encodedBlockBytes = assembler.encodedBlockBytes := by
  by_cases h : assembler.blocks = []
  · rw [takePartial_of_empty h]
    rfl
  · rw [takePartial_of_ne_nil h]
    simp

/-- The three ways `accept` ends: the buffer is sent first, the block completes the buffer, or
the block waits in it. -/
theorem accept_cases (assembler : OrderedBlockAssembler) (block : CompactBlockData)
    (encodedBytes : Nat) :
    (assembler.blocks ≠ [] ∧ assembler.accept block encodedBytes =
      (assembler.takePartial.1, assembler.takePartial.2.append block (max encodedBytes 1))) ∨
    ((assembler.blocks = [] ∨ saturatingAdd assembler.encodedBytes (max encodedBytes 1) ≤
        assembler.maxEncodedBytes) ∧
      (assembler.accept block encodedBytes =
          (assembler.append block (max encodedBytes 1)).takePartial ∨
        assembler.blocks.length + 1 < assembler.maxBlocks ∧
          assembler.accept block encodedBytes =
            (none, assembler.append block (max encodedBytes 1)))) := by
  by_cases hflush : assembler.blocks ≠ [] ∧
      assembler.maxEncodedBytes < saturatingAdd assembler.encodedBytes (max encodedBytes 1)
  · left
    refine ⟨hflush.1, ?_⟩
    have hcond : (!assembler.blocks.isEmpty && decide (assembler.maxEncodedBytes <
        saturatingAdd assembler.encodedBytes (max encodedBytes 1))) = true := by
      simp [hflush.1, hflush.2]
    unfold accept
    dsimp only
    rw [if_pos hcond, takePartial_of_ne_nil hflush.1]
  · right
    have hcond : ¬ (!assembler.blocks.isEmpty && decide (assembler.maxEncodedBytes <
        saturatingAdd assembler.encodedBytes (max encodedBytes 1))) = true := by
      simpa using hflush
    have haccept : assembler.accept block encodedBytes =
        if assembler.maxBlocks ≤ (assembler.append block (max encodedBytes 1)).blocks.length ∨
            assembler.maxEncodedBytes ≤
              (assembler.append block (max encodedBytes 1)).encodedBytes then
          (assembler.append block (max encodedBytes 1)).takePartial
        else (none, assembler.append block (max encodedBytes 1)) := by
      unfold accept
      dsimp only
      rw [if_neg hcond]
      rfl
    constructor
    · by_cases hempty : assembler.blocks = []
      · exact Or.inl hempty
      · exact Or.inr (not_lt.mp fun hlt => hflush ⟨hempty, hlt⟩)
    · rw [haccept]
      split
      · exact Or.inl rfl
      · rename_i hwaits
        refine Or.inr ⟨?_, rfl⟩
        push Not at hwaits
        simpa [append] using hwaits.1

/-- A new block ceiling never binds a chunk that has been begun. -/
theorem Buffered.setNextChunkMaxBlocks (h : assembler.Buffered) (maxBlocks : Nat) :
    (assembler.setNextChunkMaxBlocks maxBlocks).Buffered := by
  unfold OrderedBlockAssembler.setNextChunkMaxBlocks
  split
  · rename_i hempty
    refine ⟨h.sizes, h.total, ?_, h.bytes⟩
    rw [List.isEmpty_iff.mp hempty, List.length_nil]
    exact Nat.lt_of_lt_of_le Nat.zero_lt_one (le_max_right _ _)
  · exact h

theorem Buffered.takePartial (h : assembler.Buffered) : assembler.takePartial.2.Buffered := by
  by_cases hempty : assembler.blocks = []
  · rwa [takePartial_of_empty hempty]
  · rw [takePartial_of_ne_nil hempty]
    exact ⟨rfl, rfl, Nat.zero_lt_of_lt h.few, Or.inl (Nat.zero_le 1)⟩

/-- The buffer is a chunk that meets its limits. -/
theorem Buffered.chunk (h : assembler.Buffered) {chunk : OrderedBlockChunk}
    (hchunk : assembler.takePartial.1 = some chunk) :
    chunk.Sized ∧ chunk.WithinLimits assembler.maxEncodedBytes assembler.maxBlocks := by
  by_cases hempty : assembler.blocks = []
  · rw [takePartial_of_empty hempty] at hchunk
    cases hchunk
  · rw [takePartial_of_ne_nil hempty] at hchunk
    obtain rfl := Option.some.inj hchunk
    refine ⟨⟨hempty, h.sizes, h.total⟩, ?_⟩
    have hpos : 0 < assembler.blocks.length := List.length_pos_iff.mpr hempty
    rcases h.bytes with hone | hbytes
    · exact Or.inl (le_antisymm hone hpos)
    · exact Or.inr ⟨hbytes, h.few.le⟩

theorem saturatingAdd_min (sum size : Nat) :
    saturatingAdd (min sum u64Max) size = min (sum + size) u64Max := by
  unfold saturatingAdd
  omega

/-- A buffer with one more block is a chunk that meets its limits, and is a buffer unless it has
as many blocks as it may. -/
theorem Buffered.append (h : assembler.Buffered)
    (hfits : assembler.blocks = [] ∨
      saturatingAdd assembler.encodedBytes encodedBytes ≤ assembler.maxEncodedBytes) :
    (assembler.append block encodedBytes).encodedBlockBytes.length =
        (assembler.append block encodedBytes).blocks.length ∧
      (assembler.append block encodedBytes).encodedBytes =
        min (assembler.append block encodedBytes).encodedBlockBytes.sum u64Max ∧
      (assembler.append block encodedBytes).blocks.length ≤ assembler.maxBlocks ∧
      ((assembler.append block encodedBytes).blocks.length ≤ 1 ∨
        (assembler.append block encodedBytes).encodedBytes ≤ assembler.maxEncodedBytes) := by
  have hsizes := h.sizes
  have hfew := h.few
  refine ⟨by simp [OrderedBlockAssembler.append, hsizes], ?_, ?_, ?_⟩
  · show saturatingAdd assembler.encodedBytes encodedBytes = _
    rw [h.total, saturatingAdd_min]
    simp [OrderedBlockAssembler.append]
  · show (assembler.blocks ++ [block]).length ≤ assembler.maxBlocks
    rw [List.length_append]
    exact hfew
  · rcases hfits with hempty | hle
    · left
      simp [OrderedBlockAssembler.append, hempty]
    · exact Or.inr hle

theorem Buffered.accept (h : assembler.Buffered) (block : CompactBlockData) (encodedBytes : Nat) :
    (assembler.accept block encodedBytes).2.Buffered ∧
      ∀ chunk, (assembler.accept block encodedBytes).1 = some chunk →
        chunk.Sized ∧ chunk.WithinLimits assembler.maxEncodedBytes assembler.maxBlocks := by
  rcases accept_cases assembler block encodedBytes with ⟨hne, hsent⟩ | ⟨hfits, hrest⟩
  · rw [hsent]
    refine ⟨?_, fun chunk hchunk => h.chunk hchunk⟩
    have hfew := h.few
    have hpos : 0 < assembler.blocks.length := List.length_pos_iff.mpr hne
    rw [takePartial_of_ne_nil hne]
    refine ⟨rfl, ?_, ?_, Or.inl (le_refl 1)⟩
    · show saturatingAdd 0 (max encodedBytes 1) = min ([] ++ [max encodedBytes 1]).sum u64Max
      simp [saturatingAdd]
    · show 1 < assembler.maxBlocks
      omega
  · obtain ⟨hsizes, htotal, hfew, hbytes⟩ :=
      @Buffered.append assembler block (max encodedBytes 1) h hfits
    rcases hrest with hcomplete | ⟨hwaits, hadded⟩
    · rw [hcomplete]
      have hne : (assembler.append block (max encodedBytes 1)).blocks ≠ [] := by
        simp [OrderedBlockAssembler.append]
      rw [takePartial_of_ne_nil hne]
      refine ⟨⟨rfl, rfl, Nat.zero_lt_of_lt h.few, Or.inl (Nat.zero_le 1)⟩, ?_⟩
      intro chunk hchunk
      obtain rfl := Option.some.inj hchunk
      refine ⟨⟨hne, hsizes, htotal⟩, ?_⟩
      rcases hbytes with hone | hle
      · exact Or.inl (le_antisymm hone (List.length_pos_iff.mpr hne))
      · exact Or.inr ⟨hle, hfew⟩
    · rw [hadded]
      refine ⟨⟨hsizes, htotal, ?_, hbytes⟩, fun _ hchunk => nomatch hchunk⟩
      simpa [OrderedBlockAssembler.append] using hwaits

/-- What was emitted and what is buffered form one run, which the next block goes on. -/
structure Assembles (start : Nat) (emitted : List CompactBlockData)
    (assembler : OrderedBlockAssembler) : Prop where
  run : FormsRun start (emitted ++ assembler.blocks)
  next : assembler.nextHeight = start + (emitted ++ assembler.blocks).length
  inside : assembler.nextHeight ≤ assembler.requestedEndExclusive
  fits : assembler.requestedEndExclusive ≤ u64Max
  previous : assembler.previousHash = (emitted ++ assembler.blocks).getLast?.map (·.hash)

variable {start : Nat} {emitted : List CompactBlockData}

theorem assembles_of_withLimits {endExclusive maxEncodedBytes maxBlocks : Nat}
    (hend : endExclusive ≤ u64Max)
    (h : withLimits start endExclusive maxEncodedBytes maxBlocks = .ok assembler) :
    Assembles start [] assembler := by
  unfold withLimits at h
  split at h
  · cases h
  · rename_i hrange
    obtain rfl := Except.ok.inj h
    exact ⟨formsRun_nil start, rfl, not_lt.mp hrange, hend, rfl⟩

variable (h : Assembles start emitted assembler)

include h

theorem Assembles.setNextChunkMaxBlocks (maxBlocks : Nat) :
    Assembles start emitted (assembler.setNextChunkMaxBlocks maxBlocks) := by
  unfold OrderedBlockAssembler.setNextChunkMaxBlocks
  split
  · exact ⟨h.run, h.next, h.inside, h.fits, h.previous⟩
  · exact h

theorem Assembles.takePartial :
    Assembles start (emitted ++ assembler.takePartial.1.toList.flatMap (·.blocks))
      assembler.takePartial.2 := by
  have hblocks : (emitted ++ assembler.takePartial.1.toList.flatMap (·.blocks)) ++
      assembler.takePartial.2.blocks = emitted ++ assembler.blocks := by
    rw [List.append_assoc, takePartial_blocks]
  have hrest : assembler.takePartial.2 = { assembler with
      blocks := assembler.takePartial.2.blocks
      encodedBlockBytes := assembler.takePartial.2.encodedBlockBytes
      encodedBytes := assembler.takePartial.2.encodedBytes } := by
    unfold OrderedBlockAssembler.takePartial
    split <;> rfl
  constructor
  · rw [hblocks]
    exact h.run
  · rw [hblocks, hrest]
    exact h.next
  · rw [hrest]
    exact h.inside
  · rw [hrest]
    exact h.fits
  · rw [hblocks, hrest]
    exact h.previous

theorem Assembles.append (haccepts : assembler.Accepts block) (encodedBytes : Nat) :
    Assembles start emitted (assembler.append block encodedBytes) := by
  have hblocks : emitted ++ (assembler.append block encodedBytes).blocks =
      (emitted ++ assembler.blocks) ++ [block] := (List.append_assoc _ _ _).symm
  have hnext : (assembler.append block encodedBytes).nextHeight = assembler.nextHeight + 1 := by
    have hlt := haccepts.inside
    have hheight := haccepts.height
    have hfits := h.fits
    show saturatingAdd assembler.nextHeight 1 = _
    unfold saturatingAdd
    omega
  constructor
  · rw [hblocks]
    refine h.run.concat (haccepts.height.trans h.next) (fun last hlast => ?_) haccepts.lengths
    refine haccepts.link last.hash ?_
    rw [h.previous, Option.mem_def.mp hlast]
    rfl
  · rw [hblocks, hnext, h.next]
    simp [Nat.add_assoc]
  · rw [hnext]
    exact haccepts.height ▸ haccepts.inside
  · exact h.fits
  · rw [hblocks, List.getLast?_concat]
    rfl

/-- A block that is accepted goes on the run, whatever is emitted for it. -/
theorem Assembles.accept (haccepts : assembler.Accepts block) (encodedBytes : Nat) :
    Assembles start
        (emitted ++ (assembler.accept block encodedBytes).1.toList.flatMap (·.blocks))
        (assembler.accept block encodedBytes).2 ∧
      emitted ++ (assembler.accept block encodedBytes).1.toList.flatMap (·.blocks) ++
          (assembler.accept block encodedBytes).2.blocks =
        emitted ++ assembler.blocks ++ [block] := by
  rcases accept_cases assembler block encodedBytes with
    ⟨hne, hsent⟩ | ⟨-, hcomplete | ⟨-, hwaits⟩⟩
  · rw [hsent]
    have hrest : assembler.takePartial.2.Accepts block := by
      rw [takePartial_of_ne_nil hne]
      exact ⟨haccepts.height, haccepts.inside, haccepts.lengths, haccepts.link⟩
    refine ⟨h.takePartial.append hrest _, ?_⟩
    show _ ++ (assembler.takePartial.2.blocks ++ [block]) = _
    rw [← List.append_assoc, List.append_assoc emitted, takePartial_blocks]
  · rw [hcomplete]
    refine ⟨(h.append haccepts _).takePartial, ?_⟩
    rw [List.append_assoc, takePartial_blocks]
    exact (List.append_assoc _ _ _).symm
  · rw [hwaits]
    simp only [Option.toList_none, List.flatMap_nil, List.append_nil]
    exact ⟨h.append haccepts _, (List.append_assoc _ _ _).symm⟩

omit h

/-- The sizes go where the blocks go, and the range and the byte limit stay. -/
theorem accept_keeps (assembler : OrderedBlockAssembler) (block : CompactBlockData)
    (encodedBytes : Nat) :
    (assembler.accept block encodedBytes).1.toList.flatMap (·.encodedBlockBytes) ++
        (assembler.accept block encodedBytes).2.encodedBlockBytes =
      assembler.encodedBlockBytes ++ [max encodedBytes 1] ∧
    (assembler.accept block encodedBytes).2.maxEncodedBytes = assembler.maxEncodedBytes ∧
    (assembler.accept block encodedBytes).2.requestedEndExclusive =
      assembler.requestedEndExclusive := by
  have hnil : (assembler.append block (max encodedBytes 1)).blocks ≠ [] := by
    simp [append]
  rcases accept_cases assembler block encodedBytes with
    ⟨hne, hsent⟩ | ⟨-, hcomplete | ⟨-, hwaits⟩⟩
  · rw [hsent, takePartial_of_ne_nil hne]
    exact ⟨by simp [append], rfl, rfl⟩
  · rw [hcomplete, takePartial_of_ne_nil hnil]
    exact ⟨by simp [append], rfl, rfl⟩
  · rw [hwaits]
    exact ⟨rfl, rfl, rfl⟩

end OrderedBlockAssembler

end StashiWallet
