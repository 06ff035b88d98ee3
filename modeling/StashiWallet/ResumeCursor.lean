import StashiWallet.NullifierCacheRuns

/-!
# Where an interrupted run resumes

A run may be stopped between any two of its writes, and the next one resumes above the
persisted cursor. For this to skip no spend, every spend in a block at or below the cursor
has to be on its row already (`SpendsApplied`).

The cursor is written twice in a batch. The flush at the end comes after the spends. But
`persist_notes_with_db` already moves the cursor, to the highest block with a note, and the
spends of the batch are applied only then; and when that write fails, the failure is logged
and the batch goes on to its flush. `resume_skips_no_spend` gives the condition under which
neither loses a spend, `spend_skipped_after_persist` a batch that loses one.
-/

namespace StashiWallet

/-- A row whose spend is not settled. -/
def Unsettled (row : NoteRow) : Prop := row.settled = false

theorem openClass_unsettled : OpenClass Unsettled where
  not_settled := fun _ hrow => hrow
  congr := by
    intro a b hspent hspentTxid ha
    have hopen : a.settled = false := ha
    simp only [NoteRecord.settled, hspent, hspentTxid] at hopen
    exact hopen

/-- Every spend of a stored note in one of the blocks, at or below the cursor, has been
applied to the note's row. -/
def SpendsApplied (blocks : List CompactBlockData) (engine : SyncEngine) : Prop :=
  ∀ block ∈ blocks, block.height ≤ engine.db.syncState.localHeight →
    ∀ row ∈ engine.db.notes.ofAccount engine.accountId, Reveals [block] row.nullifier →
      row.settled = true

theorem reveals_append {a b : List CompactBlockData} {nullifier : Bytes} :
    Reveals (a ++ b) nullifier ↔ Reveals a nullifier ∨ Reveals b nullifier := by
  simp only [Reveals, List.mem_append, or_and_right, exists_or]

theorem reveals_of_mem {blocks : List CompactBlockData} {block : CompactBlockData}
    {nullifier : Bytes} (hblock : block ∈ blocks) (h : Reveals [block] nullifier) :
    Reveals blocks nullifier := by
  obtain ⟨other, hother, hrest⟩ := h
  rw [List.mem_singleton.mp hother] at hrest
  exact ⟨block, hblock, hrest⟩

/-! ## The condition -/

/-- The height `persist_notes_with_db` moves the cursor to. -/
def PersistInput.noteCursor (input : PersistInput) : Nat :=
  (input.notes.map (·.height)).foldl max 0

/-- What a write has to meet in the state before it.

Persisting moves the cursor before the spends of the batch are applied, so no relevant block
up to the new cursor may reveal the nullifier of a note that is stored and not settled or is
just being stored. Detecting spends goes on when its write fails, so then the blocks may
reveal no nullifier that is stored or derived for a row that is not settled. -/
def KeepsSpendsApplied (birthdayHeight : Nat) (owner : Bytes → OutputKey) (engine : SyncEngine) :
    DurableWrite → Prop
  | .persistNotes input =>
    BatchOwned owner input.notes ∧
      KeepsNullifier Unsettled engine.accountId engine.db.notes input.notes ∧
      ∀ block ∈ walletRelevantBlocks birthdayHeight input.blocks,
        block.height ≤ input.noteCursor →
          (∀ row ∈ engine.db.notes.ofAccount engine.accountId, row.settled = false →
            ¬ Reveals [block] row.nullifier) ∧
          ∀ n ∈ input.notes, ¬ Reveals [block] n.nullifier
  | .applySpends input =>
    DeriveOwned input.keys engine.accountId owner engine.db.notes ∧
      (input.applyFault ≠ none →
        ∀ row ∈ engine.db.notes.ofAccount engine.accountId, row.settled = false →
          ¬ Reveals input.blocks row.nullifier ∧
          ∀ candidate ∈ input.keys.derive row, ¬ Reveals input.blocks candidate.1)
  | _ => True

/-- The batches are consecutive parts of a chain, above the cursor the run starts from. A
decrypted note lies in one of the batch's blocks, and no earlier batch reveals its nullifier:
a note is not spent before it exists. -/
structure ChainBatches (birthdayHeight cursor : Nat) (batches : List SyncBatch) : Prop where
  above : ∀ batch ∈ batches, ∀ block ∈ batch.persist.blocks, cursor < block.height
  ascending : batches.Pairwise (fun a b =>
    ∀ x ∈ a.persist.blocks, ∀ y ∈ b.persist.blocks, x.height < y.height)
  noteHeights : ∀ batch ∈ batches, ∀ n ∈ batch.persist.notes,
    ∃ block ∈ batch.walletBlocks birthdayHeight, block.height = n.height
  causal : batches.Pairwise (fun a b =>
    ∀ n ∈ b.persist.notes, ¬ Reveals (a.walletBlocks birthdayHeight) n.nullifier)

/-! ## The invariant -/

/-- What holds between two writes: the spends of the `applied` blocks are settled, those of
the batch in work (`pending`) as far as the cursor has got, and the cursor is below all
`later` blocks. -/
structure CursorInvariant (owner : Bytes → OutputKey)
    (applied pending later : List CompactBlockData) (engine : SyncEngine) : Prop where
  notesOwned : NotesOwned engine.accountId owner engine.db.notes
  covers : Covers Unsettled engine.accountId engine.nullifierCache engine.db.notes
  applied : ∀ row ∈ engine.db.notes.ofAccount engine.accountId,
    Reveals applied row.nullifier → row.settled = true
  pending : ∀ block ∈ pending, block.height ≤ engine.db.syncState.localHeight →
    ∀ row ∈ engine.db.notes.ofAccount engine.accountId, Reveals [block] row.nullifier →
      row.settled = true
  later : ∀ block ∈ later, engine.db.syncState.localHeight < block.height

section Invariant

variable {owner : Bytes → OutputKey} {birthdayHeight : Nat}
  {applied pending later : List CompactBlockData} {engine engine' : SyncEngine}

theorem CursorInvariant.spendsApplied (h : CursorInvariant owner applied pending later engine) :
    SpendsApplied (applied ++ (pending ++ later)) engine := by
  intro block hblock hheight row hrow hreveals
  rcases List.mem_append.mp hblock with happlied | hblock
  · exact h.applied row hrow (reveals_of_mem happlied hreveals)
  · rcases List.mem_append.mp hblock with hpending | hlater
    · exact h.pending block hpending hheight row hrow hreveals
    · have habove := h.later block hlater
      omega

/-- A write that leaves rows, cache and cursor alone. -/
theorem CursorInvariant.congr (h : CursorInvariant owner applied pending later engine)
    (haccount : engine'.accountId = engine.accountId)
    (hnotes : engine'.db.notes = engine.db.notes)
    (hcache : engine'.nullifierCache = engine.nullifierCache)
    (hcursor : engine'.db.syncState.localHeight = engine.db.syncState.localHeight) :
    CursorInvariant owner applied pending later engine' := by
  obtain ⟨hnotesOwned, hcovers, happlied, hpending, hlater⟩ := h
  rw [← haccount, ← hnotes] at hnotesOwned hcovers happlied hpending
  rw [← hcache] at hcovers
  rw [← hcursor] at hpending hlater
  exact ⟨hnotesOwned, hcovers, happlied, hpending, hlater⟩

/-- **Persisting takes up the next batch.** A row afterwards was there before or is a note of
the batch; the condition speaks about both. -/
theorem CursorInvariant.persist {input : PersistInput}
    (h : CursorInvariant owner applied []
      (walletRelevantBlocks birthdayHeight input.blocks ++ later) engine)
    (hwrite : KeepsSpendsApplied birthdayHeight owner engine (.persistNotes input))
    (hcausal : ∀ n ∈ input.notes, ¬ Reveals applied n.nullifier)
    (hcursor : ∀ block ∈ later, input.noteCursor < block.height) :
    CursorInvariant owner applied (walletRelevantBlocks birthdayHeight input.blocks) later
      (engine.persistNotes input) := by
  obtain ⟨hbatch, hkeeps, hearly⟩ := hwrite
  obtain ⟨hnotes, hcovers, horigin⟩ :=
    SyncEngine.persistNotes_spec openClass_unsettled hbatch h.notesOwned h.covers hkeeps
  have haccount := persistNotes_accountId engine input
  refine ⟨by rwa [haccount], by rwa [haccount], ?_, ?_, ?_⟩
  · rw [haccount]
    intro row hrow hreveals
    rcases horigin row hrow with hold | ⟨n, hn, hnullifier⟩
    · exact h.applied row hold hreveals
    · exact absurd (hnullifier ▸ hreveals) (hcausal n hn)
  · rw [haccount]
    intro block hblock hheight row hrow hreveals
    rcases persistNotes_cursor engine input with ⟨hmoved, -⟩ | hsame
    · -- the cursor has moved over blocks whose spends are not applied yet
      have hbelow : block.height ≤ input.noteCursor := hheight.trans_eq hmoved
      obtain ⟨hstored, hnew⟩ := hearly block hblock hbelow
      rcases horigin row hrow with hold | ⟨n, hn, hnullifier⟩
      · by_contra hopen
        exact hstored row hold (Bool.eq_false_iff.mpr hopen) hreveals
      · exact absurd (hnullifier ▸ hreveals) (hnew n hn)
    · have habove := h.later block (List.mem_append.mpr (.inl hblock))
      omega
  · intro block hblock
    rcases persistNotes_cursor engine input with ⟨hmoved, -⟩ | hsame
    · rw [hmoved]
      exact hcursor block hblock
    · rw [hsame]
      exact h.later block (List.mem_append.mpr (.inr hblock))

/-- **Detecting spends settles the batch.** A row that is not settled afterwards was not
settled before, and had the nullifier it has. -/
theorem CursorInvariant.applySpends {input : SpendInput}
    (h : CursorInvariant owner applied input.blocks later engine)
    (hwrite : KeepsSpendsApplied birthdayHeight owner engine (.applySpends input)) :
    CursorInvariant owner (applied ++ input.blocks) [] later (engine.applySpends input) := by
  obtain ⟨hderive, hfault⟩ := hwrite
  have hsettled : input.applyFault ≠ none →
      NullifiersSettled input engine.accountId engine.db.notes := by
    intro hfailed row hrow hopen candidate hcandidate hreveals
    exact absurd hreveals ((hfault hfailed row hrow hopen).2 candidate hcandidate)
  have hspec := SyncEngine.applySpends_spec openClass_unsettled h.notesOwned h.covers hderive
    hsettled
  have hcursor := congrArg SyncStateRow.localHeight (applySpends_frame engine input).1
  have haccount := hspec.accountId_eq
  refine ⟨?_, ?_, ?_, List.forall_mem_nil _, ?_⟩
  · rw [haccount]
    exact hspec.notesOwned
  · rw [haccount]
    exact hspec.covers
  · rw [haccount]
    intro row' hrow' hreveals
    obtain ⟨row, hrow, houtcome⟩ := hspec.rows row' hrow'
    by_contra hopen'
    -- a row that is still open was open before, under the same nullifier
    rcases houtcome.status with hdone | ⟨hspent, hspentTxid, hnullifier, hhidden⟩
    · exact hopen' hdone
    · have hopen : row.settled = false :=
        openClass_unsettled.congr row' row hspent hspentTxid (Bool.eq_false_iff.mpr hopen')
      rw [hnullifier] at hreveals
      rcases reveals_append.mp hreveals with hbefore | hnow
      · rw [h.applied row hrow hbefore] at hopen
        cases hopen
      · by_cases hfailed : input.applyFault = none
        · exact hhidden hfailed hopen hnow
        · exact (hfault hfailed row hrow hopen).1 hnow
  · rw [hcursor]
    exact h.later

/-- **Flushing.** The cursor moves to the end of a batch that is applied. -/
theorem CursorInvariant.saveSyncState {blocks : List CompactBlockData} {flush : FlushInput}
    (h : CursorInvariant owner applied [] later engine)
    (hend : ∀ block ∈ later, batchEnd blocks < block.height) :
    CursorInvariant owner applied [] later (engine.write (.saveSyncState blocks flush)) := by
  obtain ⟨hnotes, -, hcursor⟩ := saveSyncState_write engine blocks flush
  simp only [SyncEngine.write] at hnotes hcursor ⊢
  obtain ⟨hnotesOwned, hcovers, happlied, -, hlater⟩ := h
  rw [← hnotes] at hnotesOwned hcovers happlied
  refine ⟨hnotesOwned, hcovers, happlied, List.forall_mem_nil _, ?_⟩
  intro block hblock
  rcases hcursor with hmoved | hsame
  · rw [hmoved]
    exact hend block hblock
  · rw [hsame]
    exact hlater block hblock

end Invariant

/-! ## Batches and runs -/

section Batches

variable {owner : Bytes → OutputKey} {birthdayHeight : Nat}
  {applied later : List CompactBlockData} {batch : SyncBatch}

theorem mem_blocks_of_mem_walletBlocks {block : CompactBlockData}
    (h : block ∈ batch.walletBlocks birthdayHeight) : block ∈ batch.persist.blocks :=
  (List.dropWhile_suffix _).subset h

/-- The highest of a list of heights that are all below a bound is below the bound. -/
theorem foldl_max_lt {heights : List Nat} {start bound : Nat} (hstart : start < bound)
    (h : ∀ height ∈ heights, height < bound) : heights.foldl max start < bound := by
  induction heights generalizing start with
  | nil => exact hstart
  | cons height rest ih =>
    have hmax : max start height < bound := max_lt hstart (h height (by simp))
    exact ih hmax fun other hother => h other (by simp [hother])

theorem batchEnd_lt {blocks : List CompactBlockData} {bound : Nat} (hbound : 0 < bound)
    (h : ∀ block ∈ blocks, block.height < bound) : batchEnd blocks < bound := by
  unfold batchEnd
  cases hlast : blocks.getLast? with
  | none => exact hbound
  | some block => exact h block (List.mem_of_getLast? hlast)

/-- The blocks `later` all lie above the batch. -/
structure BeforeBlocks (birthdayHeight : Nat) (batch : SyncBatch)
    (later : List CompactBlockData) : Prop where
  positive : ∀ block ∈ later, 0 < block.height
  ascending : ∀ x ∈ batch.persist.blocks, ∀ y ∈ later, x.height < y.height
  noteHeights : ∀ n ∈ batch.persist.notes,
    ∃ block ∈ batch.walletBlocks birthdayHeight, block.height = n.height

theorem BeforeBlocks.noteCursor_lt (h : BeforeBlocks birthdayHeight batch later)
    {block : CompactBlockData} (hblock : block ∈ later) :
    batch.persist.noteCursor < block.height := by
  refine foldl_max_lt (h.positive block hblock) ?_
  intro height hheight
  obtain ⟨n, hn, rfl⟩ := List.mem_map.mp hheight
  obtain ⟨found, hfound, heq⟩ := h.noteHeights n hn
  have hbelow := h.ascending found (mem_blocks_of_mem_walletBlocks hfound) block hblock
  omega

/-- **One batch**, write by write. -/
theorem batch_stretch (hbefore : BeforeBlocks birthdayHeight batch later)
    (hcausal : ∀ n ∈ batch.persist.notes, ¬ Reveals applied n.nullifier) :
    Runs.Stretch SyncEngine.write (KeepsSpendsApplied birthdayHeight owner)
      (SpendsApplied (applied ++ (batch.walletBlocks birthdayHeight ++ later)))
      (CursorInvariant owner applied [] (batch.walletBlocks birthdayHeight ++ later))
      (CursorInvariant owner (applied ++ batch.walletBlocks birthdayHeight) [] later)
      (batch.writes birthdayHeight) := by
  let current := batch.walletBlocks birthdayHeight
  let P := SpendsApplied (applied ++ (current ++ later))
  let C := KeepsSpendsApplied birthdayHeight owner
  have hbegin : ∀ engine, CursorInvariant owner applied [] (current ++ later) engine → P engine :=
    fun engine h => h.spendsApplied
  have hpersisted : ∀ engine, CursorInvariant owner applied current later engine → P engine :=
    fun engine h => h.spendsApplied
  have happlied : ∀ engine, CursorInvariant owner (applied ++ current) [] later engine →
      P engine := by
    intro engine h
    have hall := h.spendsApplied
    rwa [List.nil_append, List.append_assoc] at hall
  have htrees : Runs.Stretch SyncEngine.write C P
      (CursorInvariant owner applied [] (current ++ later))
      (CursorInvariant owner applied [] (current ++ later))
      [.updateCommitmentTrees batch.trees] :=
    Runs.stretch_single hbegin hbegin fun engine h _ => h.congr rfl rfl rfl rfl
  have hpersist : Runs.Stretch SyncEngine.write C P
      (CursorInvariant owner applied [] (current ++ later))
      (CursorInvariant owner applied current later) [.persistNotes batch.persist] :=
    Runs.stretch_single hbegin hpersisted fun engine h hwrite =>
      h.persist hwrite hcausal fun block hblock => hbefore.noteCursor_lt hblock
  have hspends : Runs.Stretch SyncEngine.write C P
      (CursorInvariant owner applied current later)
      (CursorInvariant owner (applied ++ current) [] later)
      (batch.spendWrites birthdayHeight) := by
    unfold SyncBatch.spendWrites
    split
    · -- without relevant blocks there is nothing to apply
      rename_i hnone
      have hcurrent : current = [] := hnone
      rw [hcurrent, List.append_nil]
      refine Runs.stretch_nil ?_ (fun _ h => h)
      rw [← hcurrent]
      exact hpersisted
    · exact Runs.stretch_single hpersisted happlied fun engine h hwrite => h.applySpends hwrite
  have hcheckpoint : Runs.Stretch SyncEngine.write C P
      (CursorInvariant owner (applied ++ current) [] later)
      (CursorInvariant owner (applied ++ current) [] later)
      (batch.checkpoint.toList.map .createCheckpoint) :=
    Runs.stretch_toList happlied (fun trees engine h _ => h.congr rfl rfl rfl rfl) _
  have hflush : Runs.Stretch SyncEngine.write C P
      (CursorInvariant owner (applied ++ current) [] later)
      (CursorInvariant owner (applied ++ current) [] later)
      (batch.flush.toList.map (fun flush => .saveSyncState batch.persist.blocks flush)) := by
    refine Runs.stretch_toList happlied (fun flush engine h _ => h.saveSyncState ?_) _
    intro block hblock
    exact batchEnd_lt (hbefore.positive block hblock) fun x hx => hbefore.ascending x hx block hblock
  exact (((htrees.append hpersist).append hspends).append hcheckpoint).append hflush

/-- The relevant blocks of the batches. -/
def runBlocks (birthdayHeight : Nat) (batches : List SyncBatch) : List CompactBlockData :=
  batches.flatMap (SyncBatch.walletBlocks birthdayHeight)

/-- **A run of batches.** By induction on the batches: each hands over a state in which its
blocks are applied. -/
theorem batches_stretch {batches : List SyncBatch} {cursor : Nat}
    (hchain : ChainBatches birthdayHeight cursor batches)
    (hcausal : ∀ batch ∈ batches, ∀ n ∈ batch.persist.notes, ¬ Reveals applied n.nullifier) :
    Runs.Stretch SyncEngine.write (KeepsSpendsApplied birthdayHeight owner)
      (SpendsApplied (applied ++ runBlocks birthdayHeight batches))
      (CursorInvariant owner applied [] (runBlocks birthdayHeight batches))
      (CursorInvariant owner (applied ++ runBlocks birthdayHeight batches) [] [])
      (batches.flatMap (SyncBatch.writes birthdayHeight)) := by
  induction batches generalizing applied with
  | nil =>
    refine Runs.stretch_nil (fun engine h => h.spendsApplied) ?_
    intro engine h
    simpa [runBlocks] using h
  | cons batch rest ih =>
    obtain ⟨habove, hascending, hnoteHeights, hcausalWithin⟩ := hchain
    obtain ⟨hbelow, hascending'⟩ := List.pairwise_cons.mp hascending
    obtain ⟨hfirst, hcausalWithin'⟩ := List.pairwise_cons.mp hcausalWithin
    have hrest : ∀ block ∈ runBlocks birthdayHeight rest,
        ∃ other ∈ rest, block ∈ other.persist.blocks := by
      intro block hblock
      obtain ⟨other, hother, hmem⟩ := List.mem_flatMap.mp hblock
      exact ⟨other, hother, mem_blocks_of_mem_walletBlocks hmem⟩
    have hbefore : BeforeBlocks birthdayHeight batch (runBlocks birthdayHeight rest) := by
      refine ⟨?_, ?_, hnoteHeights batch (by simp)⟩
      · intro block hblock
        obtain ⟨other, hother, hmem⟩ := hrest block hblock
        have hcursor := habove other (by simp [hother]) block hmem
        omega
      · intro x hx y hy
        obtain ⟨other, hother, hmem⟩ := hrest y hy
        exact hbelow other hother x hx y hmem
    have hhead := @batch_stretch owner birthdayHeight applied (runBlocks birthdayHeight rest) batch
      hbefore (hcausal batch (by simp))
    -- the rest of the run starts with this batch among the applied blocks
    have htail := @ih (applied ++ batch.walletBlocks birthdayHeight)
      ⟨fun other hother => habove other (by simp [hother]), hascending',
        fun other hother => hnoteHeights other (by simp [hother]), hcausalWithin'⟩ (by
        intro other hother n hn hreveals
        rcases reveals_append.mp hreveals with hbefore | hnow
        · exact hcausal other (by simp [hother]) n hn hbefore
        · exact hfirst other hother n hn hnow)
    rw [List.append_assoc] at htail
    exact hhead.append htail

end Batches

/-- **When an interrupted run resumes without skipping a spend.** Take any batches of a chain
above the persisted cursor, the relevant blocks of which are scanned. Nullifiers identify
outputs: the rows, the decrypted notes and the derived nullifiers agree with `owner`, and the
account has one row per output. If every write meets `KeepsSpendsApplied`, then after every
prefix of the writes each spend of a stored note in a block at or below the cursor is on the
note's row. -/
theorem resume_skips_no_spend (owner : Bytes → OutputKey) (engine : SyncEngine)
    (batches : List SyncBatch)
    (hloaded : engine.nullifierCacheLoaded = true →
      Covers Unsettled engine.accountId engine.nullifierCache engine.db.notes)
    (hnotes : NotesOwned engine.accountId owner engine.db.notes)
    (hchain : ChainBatches engine.birthdayHeight engine.db.syncState.localHeight batches)
    (hwrites : Runs.EachStep SyncEngine.write (KeepsSpendsApplied engine.birthdayHeight owner)
      engine.ensureNullifierCache (batches.flatMap (SyncBatch.writes engine.birthdayHeight))) :
    Runs.Throughout SyncEngine.write (SpendsApplied (runBlocks engine.birthdayHeight batches))
      engine.ensureNullifierCache
      (batches.flatMap (SyncBatch.writes engine.birthdayHeight)) := by
  obtain ⟨haccount, hdb, hcovers⟩ :=
    SyncEngine.ensureNullifierCache_spec openClass_unsettled hnotes hloaded
  have hstart : CursorInvariant owner [] [] (runBlocks engine.birthdayHeight batches)
      engine.ensureNullifierCache := by
    refine ⟨by rwa [haccount, hdb], by rwa [haccount, hdb], ?_, List.forall_mem_nil _, ?_⟩
    · rintro row - ⟨block, hblock, -⟩
      cases hblock
    · rw [hdb]
      intro block hblock
      obtain ⟨batch, hbatch, hmem⟩ := List.mem_flatMap.mp hblock
      exact hchain.above batch hbatch block (mem_blocks_of_mem_walletBlocks hmem)
  have hrun := (@batches_stretch owner engine.birthdayHeight [] batches _ hchain (by
    rintro batch - n - ⟨block, hblock, -⟩
    cases hblock)) _ hstart hwrites
  exact hrun.1

/-! ### A batch that receives and spends -/

/-- The batch of the given blocks that decrypts the note of block 9 and flushes the cursor. -/
def flushedBatch (blocks : List CompactBlockData) : SyncBatch :=
  { replayedBatch [] with
    persist := { (replayedBatch []).persist with blocks := blocks }
    flush := some ⟨"t", 10, 0, none⟩ }

theorem flushedBatch_writes {blocks : List CompactBlockData}
    (h : walletRelevantBlocks 1 blocks = blocks) (hblocks : blocks ≠ []) :
    [flushedBatch blocks].flatMap (SyncBatch.writes 1) =
      [.updateCommitmentTrees emptyTrees, .persistNotes (flushedBatch blocks).persist,
        .applySpends ((flushedBatch blocks).spendInput 1),
        .saveSyncState blocks ⟨"t", 10, 0, none⟩] := by
  obtain ⟨block, rest, rfl⟩ := List.exists_cons_of_ne_nil hblocks
  have hspends : (flushedBatch (block :: rest)).spendWrites 1
      = [.applySpends ((flushedBatch (block :: rest)).spendInput 1)] := by
    unfold SyncBatch.spendWrites
    rw [show (flushedBatch (block :: rest)).walletBlocks 1 = block :: rest from h]
  simp only [List.flatMap_cons, List.flatMap_nil, List.append_nil, SyncBatch.writes, hspends]
  rfl

/-- Block 9 holds the note and no spend, block 10 the spend of the stored note. -/
theorem resume_after_later_spend :
    Runs.Throughout SyncEngine.write
      (SpendsApplied (runBlocks 1 [flushedBatch (replayedBlocks (bytes32 1))]))
      (receivedEngine false).ensureNullifierCache
      ([flushedBatch (replayedBlocks (bytes32 1))].flatMap (SyncBatch.writes 1)) := by
  refine resume_skips_no_spend replayOwner (receivedEngine false)
    [flushedBatch (replayedBlocks (bytes32 1))] nofun ⟨?_, ?_⟩ ⟨?_, ?_, ?_, ?_⟩ ?_
  · unfold Notes.OneRowPerOutput
    decide +kernel
  · decide +kernel
  · decide +kernel
  · exact List.pairwise_singleton _ _
  · decide +kernel
  · exact List.pairwise_singleton _ _
  · change Runs.EachStep _ (KeepsSpendsApplied 1 replayOwner) _
      ([flushedBatch (replayedBlocks (bytes32 1))].flatMap (SyncBatch.writes 1))
    rw [@flushedBatch_writes (replayedBlocks (bytes32 1)) (by decide +kernel)
      (by simp [replayedBlocks])]
    simp only [Runs.eachStep_cons, Runs.eachStep_nil, and_true, true_and, KeepsSpendsApplied,
      KeepsNullifier, Unsettled]
    refine ⟨⟨⟨?_, ?_⟩, ?_, ?_⟩, ?_, ?_⟩
    · decide +kernel
    · decide +kernel
    · decide +kernel
    · -- only block 9 lies at or below the note, and it reveals nothing
      have hnone : ∀ block ∈ walletRelevantBlocks 1 (replayedBlocks (bytes32 1)),
          block.height ≤ 9 → ∀ tx ∈ block.transactions, tx.revealed = [] := by
        decide +kernel
      have hhidden : ∀ block ∈ walletRelevantBlocks 1 (replayedBlocks (bytes32 1)),
          block.height ≤ 9 → ∀ nullifier, ¬ Reveals [block] nullifier := by
        rintro block hblock hheight nullifier ⟨other, hother, tx, htx, -, noteType, hkey⟩
        rw [List.mem_singleton.mp hother] at htx
        rw [hnone block hblock hheight tx htx] at hkey
        cases hkey
      intro block hblock hheight
      exact ⟨fun row _ _ => hhidden block hblock hheight row.nullifier,
        fun n _ => hhidden block hblock hheight n.nullifier⟩
    · intro row _ candidate hcandidate
      cases hcandidate
    · intro hfault
      exact absurd rfl hfault

/-- One block whose transaction spends the stored note and returns change. -/
def changeBlock : CompactBlockData :=
  ⟨1, 9, bytes32 90, bytes32 80, 0, [],
    [⟨none, bytes32 31, none, [⟨bytes32 1⟩], [⟨bytes32 12, [], []⟩], []⟩]⟩

/-- Persisting the change moves the cursor to block 9, which spends the stored note. A run
that stops there, before the spend is applied, resumes above it. -/
theorem spend_skipped_after_persist :
    ¬ Runs.Throughout SyncEngine.write
      (SpendsApplied (runBlocks 1 [flushedBatch [changeBlock]]))
      (receivedEngine false).ensureNullifierCache
      ([flushedBatch [changeBlock]].flatMap (SyncBatch.writes 1)) := by
  rw [flushedBatch_writes (by decide +kernel) (by simp)]
  intro h
  -- the run stops after its second write
  have hstopped := h [.updateCommitmentTrees emptyTrees,
    .persistNotes (flushedBatch [changeBlock]).persist] ⟨_, rfl⟩
  have hreveals : Reveals [changeBlock] (receivedRow false).nullifier :=
    ⟨changeBlock, by simp, _, List.mem_singleton.mpr rfl, by decide, .sapling, by decide +kernel⟩
  have hsettled := hstopped changeBlock (by decide +kernel) (by decide +kernel)
    (receivedRow false) (by decide +kernel) hreveals
  cases hsettled

end StashiWallet
