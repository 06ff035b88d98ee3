import StashiWallet.Truncation

/-!
# What a rollback leaves

The loops of the rollback as statements about rows: a note is unspent exactly if the id it was
spent by is one of a removed transaction, in either byte order, and a note goes exactly if its
height can be read and lies above the cut. From this follow the contract of one rollback and the
law of two: the second of two rollbacks does what it would have done alone.
-/

namespace StashiWallet

section Tables

variable {ρ : Type} {id : ρ → Nat}

/-- Updates by id, one after the other, of a column that takes the same value each time. -/
theorem foldl_updateWhere_rows {α : Type} (key : α → Nat) {f : ρ → ρ}
    (hf : ∀ row, id (f row) = id row) (htwice : ∀ row, f (f row) = f row) (entries : List α)
    (table : AutoTable ρ id) :
    (entries.foldl (fun table entry => table.updateWhere (fun row => id row == key entry) f hf)
      table).rows = table.rows.map fun row =>
        if id row ∈ entries.map key then f row else row := by
  induction entries generalizing table with
  | nil => simp
  | cons entry entries ih =>
    rw [List.foldl_cons, ih, AutoTable.updateWhere_rows, List.map_map]
    refine List.map_congr_left fun row _ => ?_
    simp only [Function.comp_apply, List.map_cons, List.mem_cons, beq_iff_eq]
    by_cases hhead : id row = key entry
    · simp only [hhead, if_true, true_or, hf]
      split
      · exact htwice row
      · rfl
    · simp only [hhead, if_false, false_or]

/-- Deletions by id, one after the other. -/
theorem foldl_deleteWhere_rows {α : Type} (key : α → Nat) (entries : List α)
    (table : AutoTable ρ id) :
    (entries.foldl (fun table entry => table.deleteWhere fun row => id row == key entry)
      table).rows = table.rows.filter fun row => decide (id row ∉ entries.map key) := by
  induction entries generalizing table with
  | nil => simp
  | cons entry entries ih =>
    rw [List.foldl_cons, ih, AutoTable.deleteWhere_rows, List.filter_filter]
    refine List.filter_congr fun row _ => ?_
    by_cases hhead : id row = key entry
    · simp [hhead]
    · simp [hhead]

theorem foldl_updateWhere_nextId {α : Type} (key : α → Nat) {f : ρ → ρ}
    (hf : ∀ row, id (f row) = id row) (entries : List α) (table : AutoTable ρ id) :
    (entries.foldl (fun table entry => table.updateWhere (fun row => id row == key entry) f hf)
      table).nextId = table.nextId := by
  induction entries generalizing table with
  | nil => rfl
  | cons entry entries ih => exact ih _

theorem foldl_deleteWhere_nextId {α : Type} (key : α → Nat) (entries : List α)
    (table : AutoTable ρ id) :
    (entries.foldl (fun table entry => table.deleteWhere fun row => id row == key entry)
      table).nextId = table.nextId := by
  induction entries generalizing table with
  | nil => rfl
  | cons entry entries ih => exact ih _

end Tables

/-! ## The loops -/

section Loops

variable (decrypt : Bytes → Except String Bytes)

/-- The cell is a ciphertext that opens. -/
def Deciphered (cell : Cell) : Prop :=
  ∃ encrypted txid, cell = .blob encrypted ∧ decrypt encrypted = .ok txid

/-- The id of 32 bytes in a cell. -/
def txidOf : Cell → Option Bytes
  | .blob encrypted =>
    match decrypt encrypted with
    | .ok txid => if txid.length = 32 then some txid else none
    | .error _ => none
  | .integer _ => none
  | .real _ => none
  | .text _ => none

variable {decrypt}

theorem readTxids_eq_ok {rows : List (Nat × Cell)} {blobs ids : List (Nat × Bytes)}
    (hblobs : readBlobs rows = .ok blobs) (hids : readTxids decrypt blobs = .ok ids) :
    (∀ row ∈ rows, Deciphered decrypt row.2) ∧
      ids = rows.filterMap fun row => (txidOf decrypt row.2).map fun txid => (row.1, txid) := by
  induction rows generalizing blobs ids with
  | nil =>
    obtain rfl := Except.ok.inj hblobs
    obtain rfl := Except.ok.inj hids
    exact ⟨List.forall_mem_nil _, rfl⟩
  | cons row rows ih =>
    obtain ⟨id, cell⟩ := row
    obtain ⟨encrypted, hencrypted, hblobs⟩ := bind_eq_ok hblobs
    obtain ⟨rest, hrest, hblobs⟩ := bind_eq_ok hblobs
    obtain rfl := Except.ok.inj hblobs
    obtain ⟨txid, htxid, hids⟩ := bind_eq_ok hids
    obtain ⟨others, hothers, hids⟩ := bind_eq_ok hids
    obtain rfl := Except.ok.inj hids
    obtain ⟨hall, rfl⟩ := ih hrest hothers
    have hcell : cell = .blob encrypted := by
      cases cell with
      | blob bytes =>
        obtain rfl := Except.ok.inj hencrypted
        rfl
      | integer value => cases hencrypted
      | real value => cases hencrypted
      | text bytes => cases hencrypted
    have hopens : decrypt encrypted = .ok txid := by
      cases hdecrypt : decrypt encrypted with
      | ok value =>
        rw [hdecrypt] at htxid
        obtain rfl := Except.ok.inj htxid
        rfl
      | error e =>
        rw [hdecrypt] at htxid
        cases htxid
    subst hcell
    refine ⟨List.forall_mem_cons.mpr ⟨⟨encrypted, txid, rfl, hopens⟩, hall⟩, ?_⟩
    rw [List.filterMap_cons]
    unfold txidOf
    simp only [hopens]
    split
    · rfl
    · rfl

theorem readTxids_of_deciphered {rows : List (Nat × Cell)}
    (h : ∀ row ∈ rows, Deciphered decrypt row.2) :
    ∃ blobs ids, readBlobs rows = .ok blobs ∧ readTxids decrypt blobs = .ok ids := by
  induction rows with
  | nil => exact ⟨[], [], rfl, rfl⟩
  | cons row rows ih =>
    obtain ⟨id, cell⟩ := row
    obtain ⟨⟨encrypted, txid, hcell, hopens⟩, hrest⟩ := List.forall_mem_cons.mp h
    obtain ⟨blobs, ids, hblobs, hids⟩ := ih hrest
    dsimp only at hcell
    subst hcell
    refine ⟨(id, encrypted) :: blobs, if txid.length = 32 then (id, txid) :: ids else ids, ?_, ?_⟩
    · unfold readBlobs blobOf
      rw [hblobs]
      rfl
    · unfold readTxids
      rw [hopens, hids]
      rfl

variable (decrypt)

/-- The note was spent by one of the ids. -/
def EncryptedNote.spentBy (txids : List Bytes) (row : EncryptedNote Cell) : Bool :=
  (row.spentTxid.bind (txidOf decrypt)).any fun txid => txids.contains txid

/-- The note's spending id can be read. -/
def EncryptedNote.SpendReadable (row : EncryptedNote Cell) : Prop :=
  ∀ cell ∈ row.spentTxid, Deciphered decrypt cell

/-- The spend is by one of the ids. -/
def EncryptedUnlinkedSpend.spentBy (txids : List Bytes) (row : EncryptedUnlinkedSpend Cell) :
    Bool :=
  (txidOf decrypt row.spendingTxid).any fun txid => txids.contains txid

/-- The height of a note, if its cell has one. -/
def EncryptedNote.heightOf (row : EncryptedNote Cell) : Option Int :=
  ((readI64Cell decrypt "height" row.id (some row.height)).toOption).join

/-- The position of a note, if its cell has one. -/
def EncryptedNote.positionOf (row : EncryptedNote Cell) : Option Int :=
  ((readI64Cell decrypt "position" row.id row.position).toOption).join

/-- Height and position can be read. -/
def EncryptedNote.Readable (row : EncryptedNote Cell) : Prop :=
  (∃ height, readI64Cell decrypt "height" row.id (some row.height) = .ok height) ∧
    ∃ position, readI64Cell decrypt "position" row.id row.position = .ok position

/-- The note lies above the height. -/
def EncryptedNote.above (height : Int) (row : EncryptedNote Cell) : Bool :=
  (row.heightOf decrypt).any fun value => decide (height < value)

/-- What the note gives to the shard metadata. -/
def EncryptedNote.shardNote (row : EncryptedNote Cell) : Option (NoteType × Option Int × Int) :=
  (row.heightOf decrypt).map fun value => (row.noteType, row.positionOf decrypt, value)

variable {decrypt}

theorem EncryptedNote.spentBy_iff {txids : List Bytes} {row : EncryptedNote Cell} :
    row.spentBy decrypt txids = true ↔
      ∃ txid ∈ txids, row.spentTxid.bind (txidOf decrypt) = some txid := by
  unfold EncryptedNote.spentBy
  cases row.spentTxid.bind (txidOf decrypt) with
  | none => simp
  | some txid => simp

theorem EncryptedUnlinkedSpend.spentBy_iff {txids : List Bytes}
    {row : EncryptedUnlinkedSpend Cell} :
    row.spentBy decrypt txids = true ↔
      ∃ txid ∈ txids, txidOf decrypt row.spendingTxid = some txid := by
  unfold EncryptedUnlinkedSpend.spentBy
  cases txidOf decrypt row.spendingTxid with
  | none => simp
  | some txid => simp

/-- The ids that the reset loop collects are those of the notes spent by the given ids. -/
theorem mem_spentIds_iff {notes : AutoTable (EncryptedNote Cell) EncryptedNote.id}
    (txids : List Bytes) {row : EncryptedNote Cell} (hrow : row ∈ notes.rows) :
    row.id ∈ ((((notes.rows.filterMap fun row => row.spentTxid.map fun cell => (row.id, cell)).filterMap
      fun entry => (txidOf decrypt entry.2).map fun txid => (entry.1, txid)).filter
        fun spend => txids.contains spend.2).map Prod.fst) ↔ row.spentBy decrypt txids = true := by
  rw [EncryptedNote.spentBy_iff]
  simp only [List.mem_map, List.mem_filter, List.mem_filterMap, Option.map_eq_some_iff,
    List.contains_iff_mem]
  constructor
  · rintro ⟨spend, ⟨⟨entry, ⟨other, hother, cell, hcell, rfl⟩, txid, htxid, rfl⟩, hmem⟩, hid⟩
    obtain rfl := AutoTable.row_eq_of_id hother hrow hid
    exact ⟨txid, hmem, by rw [hcell]; exact htxid⟩
  · rintro ⟨txid, hmem, hspent⟩
    obtain ⟨cell, hcell, htxid⟩ := Option.bind_eq_some_iff.mp hspent
    exact ⟨(row.id, txid), ⟨⟨(row.id, cell), ⟨row, hrow, cell, hcell, rfl⟩, txid, htxid, rfl⟩,
      hmem⟩, rfl⟩

theorem resetNotesSpentBy_eq_ok {encrypt : Bytes → Except String Bytes} {txids : List Bytes}
    {notes after : AutoTable (EncryptedNote Cell) EncryptedNote.id}
    (h : resetNotesSpentBy encrypt decrypt txids notes = .ok after) :
    after.nextId = notes.nextId ∧
      (txids ≠ [] → ∀ row ∈ notes.rows, row.SpendReadable decrypt) ∧
      ∃ encryptedUnspent, (txids ≠ [] → encrypt [0] = .ok encryptedUnspent) ∧
        after.rows = notes.rows.map fun row =>
          if row.spentBy decrypt txids then row.unspend encryptedUnspent else row := by
  unfold resetNotesSpentBy at h
  split at h
  · rename_i hempty
    obtain rfl := Except.ok.inj h
    obtain rfl := List.isEmpty_iff.mp hempty
    refine ⟨rfl, fun hne => absurd rfl hne, [], fun hne => absurd rfl hne, ?_⟩
    have hsame : ∀ row ∈ notes.rows,
        (if row.spentBy decrypt [] then row.unspend [] else row) = row := by
      intro row _
      refine if_neg fun hspent => ?_
      obtain ⟨txid, hmem, -⟩ := EncryptedNote.spentBy_iff.mp hspent
      exact absurd hmem List.not_mem_nil
    rw [List.map_congr_left hsame, List.map_id']
  · obtain ⟨blobs, hblobs, h⟩ := bind_eq_ok h
    obtain ⟨encryptedUnspent, hencrypted, h⟩ := bind_eq_ok h
    obtain ⟨spends, hspends, h⟩ := bind_eq_ok h
    obtain rfl := Except.ok.inj h
    obtain ⟨hall, rfl⟩ := readTxids_eq_ok hblobs hspends
    have hencrypt : encrypt [0] = .ok encryptedUnspent := by
      cases hresult : encrypt [0] with
      | ok value =>
        rw [hresult] at hencrypted
        obtain rfl := Except.ok.inj hencrypted
        rfl
      | error e =>
        rw [hresult] at hencrypted
        cases hencrypted
    refine ⟨foldl_updateWhere_nextId Prod.fst _ _ _, fun _ row hrow cell hcell => ?_,
      encryptedUnspent, fun _ => hencrypt, ?_⟩
    · exact hall (row.id, cell) (List.mem_filterMap.mpr ⟨row, hrow, by rw [hcell]; rfl⟩)
    · rw [foldl_updateWhere_rows Prod.fst (unspend_id encryptedUnspent) (fun _ => rfl)]
      refine List.map_congr_left fun row hrow => ?_
      simp only [mem_spentIds_iff txids hrow]

theorem resetNotesSpentBy_of_readable {encrypt : Bytes → Except String Bytes} {txids : List Bytes}
    {notes : AutoTable (EncryptedNote Cell) EncryptedNote.id} {encryptedUnspent : Bytes}
    (hencrypt : encrypt [0] = .ok encryptedUnspent)
    (h : txids ≠ [] → ∀ row ∈ notes.rows, row.SpendReadable decrypt) :
    ∃ after, resetNotesSpentBy encrypt decrypt txids notes = .ok after := by
  unfold resetNotesSpentBy
  split
  · exact ⟨notes, rfl⟩
  · rename_i hempty
    have hread := h (fun hnil => hempty (by rw [hnil]; rfl))
    obtain ⟨blobs, spends, hblobs, hspends⟩ := @readTxids_of_deciphered decrypt
      (notes.rows.filterMap fun row => row.spentTxid.map fun cell => (row.id, cell)) (by
        intro entry hentry
        obtain ⟨row, hrow, hcell⟩ := List.mem_filterMap.mp hentry
        obtain ⟨cell, hspent, rfl⟩ := Option.map_eq_some_iff.mp hcell
        exact hread row hrow cell hspent)
    rw [hblobs, hencrypt]
    show ∃ after, (readTxids decrypt blobs >>= _) = _
    rw [hspends]
    exact ⟨_, rfl⟩

theorem mem_spendingIds_iff
    {spends : AutoTable (EncryptedUnlinkedSpend Cell) EncryptedUnlinkedSpend.id}
    (txids : List Bytes) {row : EncryptedUnlinkedSpend Cell} (hrow : row ∈ spends.rows) :
    row.id ∈ ((((spends.rows.map fun row => (row.id, row.spendingTxid)).filterMap
      fun entry => (txidOf decrypt entry.2).map fun txid => (entry.1, txid)).filter
        fun spend => txids.contains spend.2).map Prod.fst) ↔ row.spentBy decrypt txids = true := by
  rw [EncryptedUnlinkedSpend.spentBy_iff]
  simp only [List.mem_map, List.mem_filter, List.mem_filterMap, Option.map_eq_some_iff,
    List.contains_iff_mem]
  constructor
  · rintro ⟨spend, ⟨⟨entry, ⟨other, hother, rfl⟩, txid, htxid, rfl⟩, hmem⟩, hid⟩
    obtain rfl := AutoTable.row_eq_of_id hother hrow hid
    exact ⟨txid, hmem, htxid⟩
  · rintro ⟨txid, hmem, htxid⟩
    exact ⟨(row.id, txid), ⟨⟨(row.id, row.spendingTxid), ⟨row, hrow, rfl⟩, txid, htxid, rfl⟩,
      hmem⟩, rfl⟩

theorem deleteUnlinkedSpendsBy_eq_ok {txids : List Bytes}
    {spends after : AutoTable (EncryptedUnlinkedSpend Cell) EncryptedUnlinkedSpend.id}
    (h : deleteUnlinkedSpendsBy decrypt txids spends = .ok after) :
    after.nextId = spends.nextId ∧
      (txids ≠ [] → ∀ row ∈ spends.rows, Deciphered decrypt row.spendingTxid) ∧
      after.rows = spends.rows.filter fun row => !row.spentBy decrypt txids := by
  unfold deleteUnlinkedSpendsBy at h
  split at h
  · rename_i hempty
    obtain rfl := Except.ok.inj h
    obtain rfl := List.isEmpty_iff.mp hempty
    refine ⟨rfl, fun hne => absurd rfl hne, (List.filter_eq_self.mpr fun row _ => ?_).symm⟩
    rw [Bool.not_eq_true', ← Bool.not_eq_true]
    intro hspent
    obtain ⟨txid, hmem, -⟩ := EncryptedUnlinkedSpend.spentBy_iff.mp hspent
    exact absurd hmem List.not_mem_nil
  · obtain ⟨blobs, hblobs, h⟩ := bind_eq_ok h
    obtain ⟨spendings, hspendings, h⟩ := bind_eq_ok h
    obtain rfl := Except.ok.inj h
    obtain ⟨hall, rfl⟩ := readTxids_eq_ok hblobs hspendings
    refine ⟨foldl_deleteWhere_nextId Prod.fst _ _, fun _ row hrow => ?_, ?_⟩
    · exact hall (row.id, row.spendingTxid) (List.mem_map_of_mem hrow)
    · rw [foldl_deleteWhere_rows Prod.fst]
      refine List.filter_congr fun row hrow => ?_
      simp only [mem_spendingIds_iff txids hrow]
      cases row.spentBy decrypt txids with
      | true => rfl
      | false => rfl

theorem deleteUnlinkedSpendsBy_of_readable {txids : List Bytes}
    {spends : AutoTable (EncryptedUnlinkedSpend Cell) EncryptedUnlinkedSpend.id}
    (h : txids ≠ [] → ∀ row ∈ spends.rows, Deciphered decrypt row.spendingTxid) :
    ∃ after, deleteUnlinkedSpendsBy decrypt txids spends = .ok after := by
  unfold deleteUnlinkedSpendsBy
  split
  · exact ⟨spends, rfl⟩
  · rename_i hempty
    have hread := h (fun hnil => hempty (by rw [hnil]; rfl))
    obtain ⟨blobs, spendings, hblobs, hspendings⟩ := @readTxids_of_deciphered decrypt
      (spends.rows.map fun row => (row.id, row.spendingTxid)) (by
        intro entry hentry
        obtain ⟨row, hrow, rfl⟩ := List.mem_map.mp hentry
        exact hread row hrow)
    rw [hblobs]
    show ∃ after, (readTxids decrypt blobs >>= _) = _
    rw [hspendings]
    exact ⟨_, rfl⟩

theorem scanNotes_eq_ok {height : Int} {rows : List (EncryptedNote Cell)}
    {scanned : List Nat × List (NoteType × Option Int × Int)}
    (h : scanNotes decrypt height rows = .ok scanned) :
    (∀ row ∈ rows, row.Readable decrypt) ∧
      scanned.1 = (rows.filter fun row => row.above decrypt height).map EncryptedNote.id ∧
      scanned.2 = (rows.filter fun row => !row.above decrypt height).filterMap fun row =>
        row.shardNote decrypt := by
  induction rows generalizing scanned with
  | nil =>
    obtain rfl := Except.ok.inj h
    exact ⟨List.forall_mem_nil _, rfl, rfl⟩
  | cons row rows ih =>
    obtain ⟨noteHeight, hheight, h⟩ := bind_eq_ok h
    obtain ⟨notePosition, hposition, h⟩ := bind_eq_ok h
    obtain ⟨rest, hrest, h⟩ := bind_eq_ok h
    obtain rfl := Except.ok.inj h
    obtain ⟨hall, hids, hnotes⟩ := ih hrest
    have hheightOf : row.heightOf decrypt = noteHeight := by
      unfold EncryptedNote.heightOf
      rw [hheight]
      rfl
    have hpositionOf : row.positionOf decrypt = notePosition := by
      unfold EncryptedNote.positionOf
      rw [hposition]
      rfl
    refine ⟨List.forall_mem_cons.mpr ⟨⟨⟨noteHeight, hheight⟩, notePosition, hposition⟩, hall⟩, ?_⟩
    rw [List.filter_cons, List.filter_cons]
    unfold EncryptedNote.above
    rw [hheightOf]
    cases noteHeight with
    | none =>
      refine ⟨hids, ?_⟩
      show rest.2 = List.filterMap _ (row :: _)
      rw [List.filterMap_cons, EncryptedNote.shardNote, hheightOf]
      exact hnotes
    | some value =>
      by_cases habove : height < value
      · simp only [Option.any_some, habove, decide_true, if_true, Bool.not_true, List.map_cons]
        exact ⟨by rw [hids]; rfl, hnotes⟩
      · simp only [Option.any_some, habove, decide_false, if_false, Bool.not_false, if_true]
        refine ⟨hids, ?_⟩
        rw [List.filterMap_cons, EncryptedNote.shardNote, hheightOf, hpositionOf, hnotes]
        rfl

theorem scanNotes_of_readable {height : Int} {rows : List (EncryptedNote Cell)}
    (h : ∀ row ∈ rows, row.Readable decrypt) :
    ∃ scanned, scanNotes decrypt height rows = .ok scanned := by
  induction rows with
  | nil => exact ⟨([], []), rfl⟩
  | cons row rows ih =>
    obtain ⟨⟨⟨noteHeight, hheight⟩, notePosition, hposition⟩, hrest⟩ := List.forall_mem_cons.mp h
    obtain ⟨rest, hscanned⟩ := ih hrest
    unfold scanNotes
    rw [hheight, hposition, hscanned]
    exact ⟨_, rfl⟩

/-- Forgetting a spend leaves what the scan reads. -/
theorem scan_unspend (encryptedUnspent : Bytes) (row : EncryptedNote Cell) (height : Int) :
    (row.unspend encryptedUnspent).above decrypt height = row.above decrypt height ∧
      (row.unspend encryptedUnspent).shardNote decrypt = row.shardNote decrypt ∧
      ((row.unspend encryptedUnspent).Readable decrypt ↔ row.Readable decrypt) :=
  ⟨rfl, rfl, Iff.rfl⟩

end Loops

/-! ## The transaction -/

section Rollback

variable (encrypt decrypt : Bytes → Except String Bytes)
  (truncateSapling truncateOrchard : TruncateTree) (now : String)

/-- A note after a rollback that removes the given spends. -/
def EncryptedNote.reset (encryptedUnspent : Bytes) (txids : List Bytes)
    (row : EncryptedNote Cell) : EncryptedNote Cell :=
  if row.spentBy decrypt txids then row.unspend encryptedUnspent else row

/-- What has to open for a rollback to a height to succeed. -/
structure StoredWallet.Opens (height : Nat) (db : StoredWallet) : Prop where
  notes : ∀ row ∈ db.notes.rows, row.Readable decrypt
  spends : collectTransactionTxidsAboveHeight db.transactions height ≠ [] →
    (∀ row ∈ db.notes.rows, row.SpendReadable decrypt) ∧
      ∀ row ∈ db.unlinkedSpends.rows, Deciphered decrypt row.spendingTxid

/-- The database after a rollback, table by table. -/
structure RolledBack (height : Nat) (db : StoredWallet) (returned : Nat) (after : StoredWallet) :
    Prop where
  fits : height + 1 ≤ i64Max
  opens : db.Opens decrypt height
  returned_eq : returned =
    ((commonTreeCheckpoint db.saplingTree db.orchardTree height).map Fin.val).getD 0
  notes : ∃ encryptedUnspent,
    (collectTransactionTxidsAboveHeight db.transactions height ≠ [] →
      encrypt [0] = .ok encryptedUnspent) ∧
    after.notes.rows = (db.notes.rows.filter fun row => !row.above decrypt height).map
      (EncryptedNote.reset decrypt encryptedUnspent
        (collectTransactionTxidsAboveHeight db.transactions height))
  notesNext : after.notes.nextId = db.notes.nextId
  unlinkedSpends : after.unlinkedSpends.rows = db.unlinkedSpends.rows.filter fun row =>
    !row.spentBy decrypt (collectTransactionTxidsAboveHeight db.transactions height)
  unlinkedNext : after.unlinkedSpends.nextId = db.unlinkedSpends.nextId
  transactions : after.transactions =
    db.transactions.filter fun tx => !decide (tx.height > (height : Int))
  memos : after.memos = db.memos.filter fun memo =>
    !db.transactions.any fun tx => decide (tx.height > (height : Int)) && tx.id == memo.txId
  chainBlocks : after.chainBlocks = db.chainBlocks.filter fun block => !decide (block.height > height)
  checkpoints : after.checkpoints = db.checkpoints.filter fun row => !decide (row.height > height)
  frontierSnapshots : after.frontierSnapshots =
    db.frontierSnapshots.filter fun row => !decide (row.height > height)
  scanQueue : after.scanQueue = db.scanQueue.deleteWhere fun row => decide (row.rangeEnd > height + 1)
  saplingTree : rewindTables truncateSapling "Sapling"
    (commonTreeCheckpoint db.saplingTree db.orchardTree height) db.saplingTree = .ok after.saplingTree
  orchardTree : rewindTables truncateOrchard "Orchard"
    (commonTreeCheckpoint db.saplingTree db.orchardTree height) db.orchardTree = .ok after.orchardTree
  noteShards : (after.saplingNoteShards, after.orchardNoteShards) =
    rebuildShards (after.notes.rows.filterMap fun row => row.shardNote decrypt)
  syncState : after.syncState = { db.syncState with
    localHeight := returned, lastCheckpointHeight := returned, updatedAt := now }
  spendabilityState : after.spendabilityState =
    db.spendabilityState.truncateAboveHeight now height

variable {encrypt decrypt truncateSapling truncateOrchard now}

/-- The notes that the deletion loop leaves are those that are not above the height. -/
theorem foldl_delete_above {height : Int}
    {notes : AutoTable (EncryptedNote Cell) EncryptedNote.id}
    {scanned : List Nat × List (NoteType × Option Int × Int)}
    (h : scanned.1 = (notes.rows.filter fun row => row.above decrypt height).map EncryptedNote.id) :
    (scanned.1.foldl (fun notes id => notes.deleteWhere fun row => row.id == id) notes).rows =
      notes.rows.filter fun row => !row.above decrypt height := by
  rw [foldl_deleteWhere_rows (fun id => id), List.map_id', h]
  refine List.filter_congr fun row hrow => ?_
  have hmem : row.id ∈ (notes.rows.filter fun row => row.above decrypt height).map EncryptedNote.id ↔
      row.above decrypt height = true := by
    rw [List.mem_map]
    constructor
    · rintro ⟨other, hother, hid⟩
      obtain ⟨hmem, habove⟩ := List.mem_filter.mp hother
      obtain rfl := AutoTable.row_eq_of_id hmem hrow hid
      exact habove
    · exact fun habove => ⟨row, List.mem_filter.mpr ⟨hrow, habove⟩, rfl⟩
  simp only [hmem]
  cases row.above decrypt height with
  | true => rfl
  | false => rfl

theorem truncateStored_eq_ok {height returned : Nat} {db after : StoredWallet}
    (h : truncateStored encrypt decrypt truncateSapling truncateOrchard now height db =
      .ok (returned, after)) :
    RolledBack encrypt decrypt truncateSapling truncateOrchard now height db returned after := by
  unfold truncateStored at h
  obtain ⟨cut, hcut, h⟩ := bind_eq_ok h
  obtain ⟨queueEnd, hqueueEnd, h⟩ := bind_eq_ok h
  obtain ⟨-, rfl⟩ := heightToSqlI64_eq_ok (mapError_eq_ok hcut)
  obtain ⟨hfits, rfl⟩ := heightToSqlI64_eq_ok (mapError_eq_ok hqueueEnd)
  have hnext : saturatingAdd height 1 = height + 1 := by
    unfold saturatingAdd u64Max i64Max at *
    omega
  rw [hnext] at hfits h
  obtain ⟨notes, hnotes, h⟩ := bind_eq_ok h
  obtain ⟨unlinked, hunlinked, h⟩ := bind_eq_ok h
  obtain ⟨scanned, hscanned, h⟩ := bind_eq_ok h
  obtain ⟨saplingTree, hsapling, h⟩ := bind_eq_ok h
  obtain ⟨orchardTree, horchard, h⟩ := bind_eq_ok h
  obtain ⟨rfl, rfl⟩ := Prod.mk.inj (Except.ok.inj h)
  obtain ⟨hnotesNext, hspends, encryptedUnspent, hencrypted, hrows⟩ := resetNotesSpentBy_eq_ok hnotes
  obtain ⟨hunlinkedNext, hspendings, hunlinkedRows⟩ := deleteUnlinkedSpendsBy_eq_ok hunlinked
  obtain ⟨hreadable, hids, hremaining⟩ := scanNotes_eq_ok hscanned
  have hdeleted := foldl_delete_above hids
  have hsurvivors : (notes.rows.filter fun row => !row.above decrypt height) =
      (db.notes.rows.filter fun row => !row.above decrypt height).map
        (EncryptedNote.reset decrypt encryptedUnspent
          (collectTransactionTxidsAboveHeight db.transactions height)) := by
    rw [hrows, List.filter_map]
    congr 1
    refine List.filter_congr fun row _ => ?_
    dsimp only [Function.comp_apply]
    split
    · rfl
    · rfl
  refine
    { fits := hfits
      opens := ⟨fun row hrow => ?_, fun hne => ⟨hspends hne, hspendings hne⟩⟩
      returned_eq := rfl
      notes := ⟨encryptedUnspent, hencrypted, hdeleted.trans hsurvivors⟩
      notesNext := ?_
      unlinkedSpends := hunlinkedRows
      unlinkedNext := hunlinkedNext
      transactions := rfl
      memos := rfl
      chainBlocks := rfl
      checkpoints := rfl
      frontierSnapshots := rfl
      scanQueue := rfl
      saplingTree := hsapling
      orchardTree := horchard
      noteShards := ?_
      syncState := rfl
      spendabilityState := rfl }
  · have hmem : EncryptedNote.reset decrypt encryptedUnspent
        (collectTransactionTxidsAboveHeight db.transactions height) row ∈ notes.rows := by
      rw [hrows]
      exact List.mem_map_of_mem hrow
    have hread := hreadable _ hmem
    unfold EncryptedNote.reset at hread
    split at hread
    · exact (scan_unspend encryptedUnspent row height).2.2.mp hread
    · exact hread
  · exact (foldl_deleteWhere_nextId (fun id => id) scanned.1 notes).trans hnotesNext
  · dsimp only
    rw [hdeleted, ← hremaining]

end Rollback

end StashiWallet
