import StashiWallet.BatchPipeline
import StashiWallet.OrderedStreamRuns

/-!
# The stored chain

A batch is compared with the hash of the block before it, or after a rollback with its stored row,
so the stored rows stay a chain, whichever chains the server follows. Only the loop `sync_main` is
followed. Between its passes a repair replays from below rows that it keeps, and the monitor of
the tip rolls back and keeps the hash that the next batch is compared with.
-/

namespace StashiWallet

def WalletDb.loadChainBlock (height : Nat) (db : WalletDb) :
    Except StorageError (Option ChainBlockRow) := do
  let height ← heightToSqlI64 height
  return db.chainBlocks.find? fun block => block.height == height

def WalletDb.validateBatchBoundary (batchStart : Nat) (blocks : List CompactBlockData)
    (previousProcessedHash : Option Bytes) (db : WalletDb) : Except SyncError Bool :=
  match blocks with
  | [] => .ok true
  | first :: _ =>
    if batchStart ≤ 1 then .ok true
    else if first.prevHash.length ≠ 32 then
      .error (.sync s!"Block {first.height} has invalid prev_hash length {first.prevHash.length}")
    else match previousProcessedHash with
      | some expectedHash => .ok (first.prevHash == expectedHash)
      | none => do
        let previous ← liftStorage (db.loadChainBlock (batchStart - 1))
        return previous.all fun previous => first.prevHash == previous.hash

/-- The loop `sync_main` of `sync_range_internal` between two batches. -/
structure ChainScan where
  engine : SyncEngine
  currentHeight : Nat
  previousProcessedHash : Option Bytes

/-- A batch, the flush after it if one is due, and the server that a rollback asks. -/
structure ChainBatch where
  plannedEnd : Nat
  blocks : List CompactBlockData
  flush : Option FlushInput
  remoteHash : Nat → Except SyncError Bytes
  now : String

/-- A way round the loop: with a batch, or with a fetch that failed for good. A fetch that is tried
again changes nothing. -/
inductive ChainRound where
  | batch (batch : ChainBatch)
  | compactFloor (floor stop : Nat)

namespace ChainScan

abbrev chain (scan : ChainScan) : List ChainBlockRow := scan.engine.db.chainBlocks

/-- A round with a batch. Of the writes of a batch only the flush is on the stored chain. -/
def round (scan : ChainScan) (batch : ChainBatch) : Except SyncError ChainScan :=
  match batch.blocks with
  | [] => .error (.sync "bounded compact block batch was empty")
  | first :: _ =>
    if first.height ≠ scan.currentHeight ∨ batch.plannedEnd < batchEnd batch.blocks then
      .error (.sync (s!"bounded compact block producer returned {first.height}-" ++
        s!"{batchEnd batch.blocks} for planned range {scan.currentHeight}-{batch.plannedEnd}"))
    else do
      match ← scan.engine.db.validateBatchBoundary first.height batch.blocks
          scan.previousProcessedHash with
      | true =>
        let db ← batch.flush.elim (.ok scan.engine.db) fun flush =>
          liftStorage (scan.engine.db.saveSyncStateWithDb batch.blocks flush)
        return ⟨{ scan.engine with db := db }, batchEnd batch.blocks + 1,
          batch.blocks.getLast?.map (·.hash)⟩
      | false =>
        let (resume, rolledBack) ← scan.engine.rollbackToCommonAncestor batch.remoteHash batch.now
          (first.height - 1)
        return ⟨rolledBack, resume, none⟩

/-- The jump to the server's compact floor. -/
def jump (scan : ChainScan) (floor stop : Nat) : ChainScan :=
  if scan.currentHeight ≤ lowHeightBatchCapHeight ∧ scan.currentHeight < floor ∧ floor ≤ stop then
    { scan with currentHeight := floor }
  else scan

/-- A round that fails ends the loop, and is taken to change nothing. Where only the update after
the cursor failed, what is stored is what the flush without it (`aux` is `none`) stores. -/
def next (scan : ChainScan) : ChainRound → ChainScan
  | .batch batch => (scan.round batch).toOption.getD scan
  | .compactFloor floor stop => scan.jump floor stop

end ChainScan

/-- Rows ascend, linked where heights are consecutive. Nothing is linked to block 0. -/
def LinkedRows (rows : List ChainBlockRow) : Prop :=
  rows.Pairwise fun row next => row.height < next.height ∧
    (next.height = row.height + 1 → 0 < row.height → next.prevHash = row.hash)

/-- The rows are linked and end below the next batch. A row right below it has the hash kept. -/
structure ChainScan.Linked (scan : ChainScan) : Prop where
  rows : LinkedRows scan.chain
  below : ∀ row ∈ scan.chain, row.height < scan.currentHeight
  tip : ∀ hash ∈ scan.previousProcessedHash, ∀ row ∈ scan.chain,
    row.height + 1 = scan.currentHeight → row.hash = hash

section Rows

variable {rows new : List ChainBlockRow} {start : Nat} {blocks : List CompactBlockData}

theorem FormsRun.linkedRows (h : FormsRun start blocks) :
    LinkedRows (blocks.map (·.chainBlockRow)) := by
  have hheight : ∀ i (hi : i < blocks.length), blocks[i].height = start + i := fun i hi => by
    have hget := List.getElem_of_eq h.heights (by rwa [List.length_map])
    rwa [List.getElem_map, List.getElem_range', one_mul] at hget
  refine List.pairwise_map.mpr (List.pairwise_iff_getElem.mpr fun i j hi hj hij => ?_)
  simp only [CompactBlockData.chainBlockRow, hheight]
  refine ⟨by omega, fun hnext _ => ?_⟩
  obtain rfl : j = i + 1 := by omega
  exact List.isChain_iff_getElem.mp h.links i hj

/-- A run goes on top of rows below it, linked to the one right below. -/
theorem LinkedRows.append (h : LinkedRows rows) {first : CompactBlockData}
    (hrun : FormsRun start (first :: blocks)) (hbelow : ∀ row ∈ rows, row.height < first.height)
    (hlink : ∀ row ∈ rows, first.height = row.height + 1 → 0 < row.height →
      first.prevHash = row.hash) :
    LinkedRows (rows ++ (first :: blocks).map (·.chainBlockRow)) := by
  refine List.pairwise_append.mpr ⟨h, hrun.linkedRows, fun row hrow next hnext => ?_⟩
  have hlow := hbelow row hrow
  rcases List.mem_cons.mp hnext with rfl | hrest
  · exact ⟨hlow, hlink row hrow⟩
  · have habove : first.height < next.height :=
      ((List.pairwise_cons.mp hrun.linkedRows).1 next hrest).1
    exact ⟨hlow.trans habove, by omega⟩

/-- Rows above all stored ones are appended. -/
theorem foldl_upsertChainBlock (h : LinkedRows (rows ++ new)) :
    new.foldl upsertChainBlock rows = rows ++ new := by
  induction new generalizing rows with
  | nil => exact (List.append_nil rows).symm
  | cons block new ih =>
    have hfresh : ¬ rows.any (fun row => row.height == block.height) = true := by
      rw [List.any_eq_true]
      rintro ⟨row, hrow, hsame⟩
      have hlt := (List.pairwise_append.mp h).2.2 row hrow block List.mem_cons_self
      exact hlt.1.ne (beq_iff_eq.mp hsame)
    rw [List.append_cons] at h ⊢
    rw [List.foldl_cons, upsertChainBlock, if_neg hfresh, ih h]

/-- A flush only adds rows of its blocks. -/
theorem saveSyncStateWithDb_chainBlocks {flush : FlushInput} {db saved : WalletDb}
    (h : db.saveSyncStateWithDb blocks flush = .ok saved)
    (hrows : LinkedRows (db.chainBlocks ++ blocks.map (·.chainBlockRow))) :
    saved.chainBlocks.Sublist (db.chainBlocks ++ blocks.map (·.chainBlockRow)) := by
  have hwindow : (canonicalBlockWindow blocks).Sublist blocks := List.drop_sublist _ blocks
  have hadded := (List.Sublist.refl db.chainBlocks).append (hwindow.map (·.chainBlockRow))
  obtain ⟨stored, hstored, h⟩ := bind_eq_ok h
  have hsame : saved.chainBlocks = stored.chainBlocks := by
    split at h <;> obtain rfl := Except.ok.inj h <;> rfl
  obtain ⟨_, -, hstored⟩ := bind_eq_ok hstored
  obtain ⟨cursor, hcursor, hstored⟩ := bind_eq_ok hstored
  have hkept : cursor.chainBlocks.Sublist (db.chainBlocks ++ blocks.map (·.chainBlockRow)) := by
    rw [← foldl_upsertChainBlock (hrows.sublist hadded)] at hadded
    rw [saveSyncState_eq_ok hcursor]
    dsimp only
    exact hadded
  rw [hsame]
  split at hstored
  · obtain rfl := Except.ok.inj hstored
    exact hkept
  · obtain ⟨retainFrom, -, hstored⟩ := bind_eq_ok hstored
    obtain rfl := Except.ok.inj hstored
    exact List.filter_sublist.trans hkept

end Rows

namespace ChainScan

variable {scan after : ChainScan} {batch : ChainBatch} {start : Nat}

/-- A valid boundary links the first block to the row before it. -/
theorem Linked.boundary (h : scan.Linked) {first : CompactBlockData} {rest : List CompactBlockData}
    (hvalid : scan.engine.db.validateBatchBoundary scan.currentHeight (first :: rest)
      scan.previousProcessedHash = .ok true) {row : ChainBlockRow} (hrow : row ∈ scan.chain)
    (hnext : scan.currentHeight = row.height + 1) (hpositive : 0 < row.height) :
    first.prevHash = row.hash := by
  unfold WalletDb.validateBatchBoundary at hvalid
  dsimp only at hvalid
  rw [if_neg (by omega)] at hvalid
  split_ifs at hvalid
  split at hvalid
  · rename_i hash hprevious
    rw [h.tip hash hprevious row hrow hnext.symm]
    exact beq_iff_eq.mp (Except.ok.inj hvalid)
  · obtain ⟨previous, hload, hvalid⟩ := bind_eq_ok hvalid
    obtain ⟨column, hcolumn, hload⟩ := bind_eq_ok (mapError_eq_ok hload)
    obtain rfl := Except.ok.inj hload
    obtain rfl : column = row.height := by
      rw [← (heightToSqlI64_eq_ok hcolumn).2, hnext, Nat.add_sub_cancel]
    obtain ⟨other, hother⟩ : ∃ other, scan.chain.find? (·.height == row.height) = some other :=
      Option.isSome_iff_exists.mp (List.find?_isSome.mpr ⟨row, hrow, beq_self_eq_true _⟩)
    have hheight : other.height = row.height := by simpa using List.find?_some hother
    -- heights are keys
    have hkeys := List.pairwise_map.mpr (h.rows.imp fun hpair => hpair.1.ne)
    rw [← List.inj_on_of_nodup_map hkeys (List.mem_of_find?_eq_some hother) hrow hheight]
    rw [hother] at hvalid
    exact beq_iff_eq.mp (Except.ok.inj hvalid)

/-- A round keeps the chain linked. -/
theorem Linked.round (h : scan.Linked) (hrun : FormsRun start batch.blocks)
    (hround : scan.round batch = .ok after) : after.Linked := by
  unfold ChainScan.round at hround
  split at hround
  · cases hround
  · rename_i first rest hblocks
    split_ifs at hround with hplanned
    obtain ⟨hfirst, -⟩ := not_or.mp hplanned
    rw [not_not] at hfirst
    obtain ⟨valid, hvalid, hround⟩ := bind_eq_ok hround
    cases valid with
    | false =>
      obtain ⟨⟨resume, rolledBack⟩, hrollback, hround⟩ := bind_eq_ok hround
      obtain rfl := Except.ok.inj hround
      obtain ⟨ancestor, replay, -, hcut, rfl⟩ := rollbackToCommonAncestor_eq_ok hrollback
      obtain ⟨hfits, -, hdb, -⟩ := rollbackToCheckpoint_eq_ok hcut
      have hchain : rolledBack.db.chainBlocks = _ := congrArg WalletDb.chainBlocks hdb
      refine ⟨?_, fun row hrow => ?_, nofun⟩
      · rw [chain, hchain]
        exact h.rows.sublist List.filter_sublist
      · rw [chain, hchain] at hrow
        have hle := of_decide_eq_true (List.mem_filter.mp hrow).2
        simp only [saturatingAdd, u64Max, i64Max] at hfits ⊢
        omega
    | true =>
      obtain ⟨db, hdb, hround⟩ := bind_eq_ok hround
      obtain rfl := Except.ok.inj hround
      have hrows : LinkedRows (scan.chain ++ batch.blocks.map (·.chainBlockRow)) := by
        rw [hfirst, hblocks] at hvalid
        rw [hblocks] at hrun ⊢
        refine h.rows.append hrun (fun row hrow => (h.below row hrow).trans_eq hfirst.symm) ?_
        exact fun row hrow hnext => h.boundary hvalid hrow (hfirst.symm.trans hnext)
      have hsub : db.chainBlocks.Sublist (scan.chain ++ batch.blocks.map (·.chainBlockRow)) := by
        cases hflush : batch.flush with
        | none =>
          rw [hflush] at hdb
          obtain rfl := Except.ok.inj hdb
          exact List.sublist_append_left _ _
        | some flush =>
          rw [hflush, Option.elim_some] at hdb
          exact saveSyncStateWithDb_chainBlocks (mapError_eq_ok hdb) hrows
      -- every row is below the last block or is its row
      obtain ⟨init, last, hlast⟩ :=
        (List.eq_nil_or_concat' batch.blocks).resolve_left (hblocks ▸ List.cons_ne_nil _ _)
      have hend : ∀ row ∈ db.chainBlocks, row.height < last.height ∨ row = last.chainBlockRow := by
        intro row hrow
        have hmem := hsub.subset hrow
        rw [hlast, List.map_append, ← List.append_assoc] at hrows hmem
        rcases List.mem_append.mp hmem with hold | hnew
        · exact Or.inl ((List.pairwise_append.mp hrows).2.2 row hold _ List.mem_cons_self).1
        · exact Or.inr (List.mem_singleton.mp hnew)
      rw [hlast, batchEnd, List.getLast?_concat]
      refine ⟨hrows.sublist hsub, fun row hrow => ?_, ?_⟩
      · rcases hend row hrow with hlt | rfl
        · exact hlt.trans (Nat.lt_succ_self _)
        · exact Nat.lt_succ_self _
      · rintro hash hhash row hrow hnext
        obtain rfl : last.hash = hash := Option.some.inj hhash
        rcases hend row hrow with hlt | rfl
        · exact absurd (Nat.succ.inj hnext) hlt.ne
        · rfl

theorem Linked.jump (h : scan.Linked) (floor stop : Nat) : (scan.jump floor stop).Linked := by
  unfold ChainScan.jump
  split_ifs with hjump
  · -- no row is right below the floor
    refine ⟨h.rows, fun row hrow => (h.below row hrow).trans hjump.2.1, fun _ _ row hrow hnext => ?_⟩
    have hbelow := h.below row hrow
    dsimp only at hnext
    omega
  · exact h

/-- **The stored chain is linked.** Over any rounds, with batches that are flushed or not, rollbacks
and jumps, rows of consecutive heights stay linked, and the hash kept stays that of the row right
below the next batch. -/
theorem stored_chain_linked (h : scan.Linked) (rounds : List ChainRound)
    (hbatches : ∀ batch, .batch batch ∈ rounds → ∃ start, FormsRun start batch.blocks) :
    Runs.Throughout next Linked scan rounds := by
  refine Runs.run_invariant
    (C := fun _ round => ∀ batch, round = .batch batch → ∃ start, FormsRun start batch.blocks)
    (fun before round hbefore hround => ?_) h fun done round rest hsplit batch hbatch =>
      hbatches batch (hsplit ▸ hbatch ▸ List.mem_append_right done List.mem_cons_self)
  cases round with
  | batch batch =>
    obtain ⟨start, hrun⟩ := hround batch rfl
    show ((before.round batch).toOption.getD before).Linked
    cases hround : before.round batch with
    | error error => exact hbefore
    | ok reached => exact hbefore.round hrun hround
  | compactFloor floor stop => exact hbefore.jump floor stop

/-- An engine without stored blocks. -/
def emptyScan : ChainScan := ⟨{ reorgEngine 10 with db := .fresh "t" }, 10, none⟩

/-- The server has moved to a chain that branches off after block 10. -/
def branchServer (height : Nat) : Except SyncError Bytes :=
  .ok (if height = 10 then tenthBlock.hash else [9])

/-- A round with one block, which is stored. -/
def flushed (block : CompactBlockData) : ChainRound :=
  .batch ⟨block.height, [block], some ⟨"t", 12, 9, none⟩, branchServer, "t"⟩

/-- Block 11 of the other chain. -/
def branchBlock : CompactBlockData := { eleventhBlock with hash := List.replicate 32 12 }

/-- Blocks 10 and 11 are stored. The block at 12 does not follow, so 11 is rolled back and the
block of the other chain is stored in its place. -/
def branchRounds : List ChainRound :=
  [flushed tenthBlock, flushed eleventhBlock, flushed { tenthBlock with height := 12 },
    flushed branchBlock]

theorem stored_chain_linked_rollback :
    Runs.Throughout next Linked emptyScan branchRounds ∧
      (Runs.run next emptyScan (branchRounds.take 2)).chain =
        [tenthBlock.chainBlockRow, eleventhBlock.chainBlockRow] ∧
      (Runs.run next emptyScan (branchRounds.take 3)).chain = [tenthBlock.chainBlockRow] ∧
      (Runs.run next emptyScan branchRounds).chain =
        [tenthBlock.chainBlockRow, branchBlock.chainBlockRow] := by
  have hempty : emptyScan.Linked := ⟨.nil, nofun, nofun⟩
  refine ⟨stored_chain_linked hempty _ fun batch hbatch => ?_, by decide +kernel,
    by decide +kernel, by decide +kernel⟩
  have hflushed : ∀ block : CompactBlockData, block.hash.length = 32 ∧ block.prevHash.length = 32 →
      .batch batch = flushed block → ∃ start, FormsRun start batch.blocks := by
    intro block hlengths hblock
    obtain rfl := ChainRound.batch.inj hblock
    exact ⟨block.height, rfl, .singleton _, List.forall_mem_singleton.mpr hlengths⟩
  simp only [branchRounds, List.mem_cons, List.not_mem_nil, or_false] at hbatch
  rcases hbatch with hblock | hblock | hblock | hblock
  · exact hflushed _ (by decide) hblock
  · exact hflushed _ (by decide) hblock
  · exact hflushed _ (by decide) hblock
  · exact hflushed _ (by decide) hblock

end ChainScan

end StashiWallet
