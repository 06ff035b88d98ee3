import Mathlib.Data.List.Dedup
import Mathlib.Data.List.Sort
import StashiWallet.BulkMap
import StashiWallet.WalletDb

/-!
# Notes and spends in storage

The repository calls that note persistence and spend detection make. A note row stands for
one output of one transaction; rows left over from older versions can stand for the same
output, and the calls fold such duplicates where they meet them. A spend is applied to a row
by its id or, for spends no row was known for, by its nullifier.

An absent diversifier or note is written as an empty blob. The calls of this module do not
tell the two apart, so they keep the option.
-/

namespace StashiWallet

abbrev TypedNullifier := NoteType × Bytes

namespace NoteRecord

/-- Spent, with the spending transaction recorded: nothing is left to detect. -/
def settled (note : NoteRecord) : Bool := note.spent && note.spentTxid.isSome

end NoteRecord

/-- The row marked spent by a transaction. -/
def NoteRow.spendBy (txid : Bytes) (row : NoteRow) : NoteRow :=
  { row with spent := true, spentTxid := some txid }

def Notes.ofAccount (accountId : Int) (notes : Notes) : List NoteRow :=
  notes.rows.filter (fun row => row.accountId == accountId)

/-- `insert_note_without_shard_metadata`: the new row's id and the table. -/
def Notes.insertNote (note : NoteRecord) (notes : Notes) : Nat × Notes :=
  (notes.nextId, AutoTable.insert (fun id => { note with id := id }) (fun _ => rfl) notes)

/-- `update_note_by_id_without_shard_metadata`: every column but the id is written. -/
def Notes.updateNoteById (note : NoteRow) (notes : Notes) : Notes :=
  AutoTable.updateWhere (fun row => row.id == note.id)
    (fun row => { note.toNoteRecord with id := row.id }) (fun _ => rfl) notes

/-! ## Rows of one output -/

def noteValueIsValid (value : Int) : Bool := 0 < value && value ≤ 20000000000000000

def memoBytesAreEffectivelyEmpty (memo : Bytes) : Bool := memo.all (· == 0)

/-- An optional blob that holds no bytes. -/
def blobMissing (blob : Option Bytes) : Bool := blob.all List.isEmpty

/-- An optional memo that holds no text. -/
def memoMissing (memo : Option Bytes) : Bool := memo.all memoBytesAreEffectivelyEmpty

/-- The body of the loop of `merge_duplicate_note_records`: gaps are filled from an older
row. -/
def NoteRow.fillFrom (merged note : NoteRow) : NoteRow :=
  { merged with
    keyId := merged.keyId.or note.keyId
    addressId := merged.addressId.or note.addressId
    diversifier :=
      if blobMissing merged.diversifier && !blobMissing note.diversifier then note.diversifier
      else merged.diversifier
    note :=
      if blobMissing merged.note && !blobMissing note.note then note.note else merged.note
    position := merged.position.or note.position
    memo :=
      if memoMissing merged.memo && !memoMissing note.memo then note.memo else merged.memo
    spentTxid := merged.spentTxid.or note.spentTxid }

/-- `merge_duplicate_note_records` on a group that has an oldest and a newest row: the
surviving row, and the ids of the others. -/
def mergeDuplicateNoteRecords (notes : List NoteRow) : Option (NoteRow × List Nat) :=
  let sorted := notes.insertionSort (fun a b => a.id ≤ b.id)
  let newestFirst := sorted.reverse
  match sorted.head?, sorted.getLast? with
  | some oldest, some newest =>
    -- the newest row's columns under the oldest row's id
    let merged : NoteRow := { newest with
      id := oldest.id
      value :=
        if noteValueIsValid newest.value then newest.value
        else ((newestFirst.map (·.value)).find? noteValueIsValid).getD newest.value
      nullifier :=
        if newest.nullifier.all (· == 0) then
          ((newestFirst.map (·.nullifier)).find? (fun nullifier => !nullifier.all (· == 0))).getD
            newest.nullifier
        else newest.nullifier
      commitment :=
        if newest.commitment.isEmpty then
          ((newestFirst.map (·.commitment)).find? (fun bytes => !bytes.isEmpty)).getD
            newest.commitment
        else newest.commitment
      height :=
        if newest.height ≤ 0 then
          ((newestFirst.map (·.height)).find? (fun height => 0 < height)).getD newest.height
        else newest.height }
    let filled := newestFirst.foldl NoteRow.fillFrom merged
    -- one spent duplicate makes the note spent
    some ({ filled with spent := notes.any (·.spent) },
      (sorted.map (·.id)).filter (fun id => id != oldest.id))
  | _, _ => none

/-- `get_account_notes_matching_outputs`. -/
def Notes.matchingOutputs (accountId : Int) (outputs : List OutputKey) (notes : Notes) :
    List NoteRow :=
  (notes.ofAccount accountId).filter (fun row => outputs.contains row.outputKey)

/-- The rows of one output folded into one. -/
def Notes.foldGroup (result : List NoteRow × Notes) (group : List NoteRow) :
    List NoteRow × Notes :=
  match group with
  | [row] => (result.1 ++ [row], result.2)
  | rows =>
    match mergeDuplicateNoteRecords rows with
    | none => result
    | some (merged, duplicateIds) =>
      (result.1 ++ [merged],
        (result.2.updateNoteById merged).deleteWhere (fun row => duplicateIds.contains row.id))

/-- `prepare_note_upserts`: the rows of the given outputs, one for each. -/
def Notes.prepareNoteUpserts (accountId : Int) (outputs : List OutputKey) (notes : Notes) :
    List NoteRow × Notes :=
  let rows := notes.matchingOutputs accountId outputs
  let groups := (rows.map (·.outputKey)).dedup.map
    (fun key => rows.filter (fun row => row.outputKey = key))
  let (canonical, folded) := groups.foldl foldGroup ([], notes)
  (canonical.insertionSort (fun a b => a.id ≤ b.id), folded)

/-- The order of `get_spend_reconciliation_notes` on rows of one output: unspent rows before
rows spent by no recorded transaction, and the newer id among equals. -/
def NoteRow.reconciledBefore (a b : NoteRow) : Bool :=
  (!a.spent && b.spent) || (a.spent == b.spent && decide (a.id > b.id))

/-- The loop body of `get_spend_reconciliation_notes` on rows of one output. -/
def preferReconciled (best : Option NoteRow) (row : NoteRow) : Option NoteRow :=
  match best with
  | some kept => if row.reconciledBefore kept then some row else some kept
  | none => some row

/-- The row `get_spend_reconciliation_notes` keeps of one output. -/
def canonicalRow (rows : List NoteRow) : Option NoteRow := rows.foldl preferReconciled none

/-- `get_spend_reconciliation_notes`: what is not settled, one row for each output. -/
def Notes.spendReconciliationNotes (accountId : Int) (notes : Notes) : List NoteRow :=
  let rows := (notes.ofAccount accountId).filter (fun row => !row.settled)
  (rows.map (·.outputKey)).dedup.filterMap
    (fun key => canonicalRow (rows.filter (fun row => row.outputKey = key)))

/-! ## Spends without a note -/

/-- `consume_unlinked_spends_for_nullifiers`: the spending transactions of the given
nullifiers, the first row of each, and the table without the rows read. -/
def consumeUnlinkedSpendsForNullifiers (accountId : Int) (nullifiers : List TypedNullifier)
    (spends : UnlinkedSpends) : AList (fun _ : TypedNullifier => Bytes) × UnlinkedSpends :=
  let wanted := nullifiers.filter (fun key => !key.2.all (· == 0))
  let isMatching := fun (row : UnlinkedSpendRow) =>
    row.accountId == accountId && row.nullifier.length == 32 &&
      wanted.contains (row.noteType, row.nullifier) && row.spendingTxid.length == 32
  -- of several rows for one nullifier the first one read counts
  let matched := (spends.rows.filter isMatching).foldl
    (fun (found : AList (fun _ : TypedNullifier => Bytes)) row =>
      match found.lookup (row.noteType, row.nullifier) with
      | some _ => found
      | none => found.insert (row.noteType, row.nullifier) row.spendingTxid) ∅
  (matched, spends.deleteWhere isMatching)

/-- What `upsert_unlinked_spend_nullifiers_with_txid` reads first: the first row of each
nullifier, and the ids of the others. -/
def indexUnlinkedSpends (accountId : Int) (spends : UnlinkedSpends) :
    AList (fun _ : TypedNullifier => Nat × Bytes) × List Nat :=
  (spends.rows.filter (fun row => row.accountId == accountId && row.nullifier.length == 32 &&
    row.spendingTxid.length == 32)).foldl
    (fun (index : AList (fun _ : TypedNullifier => Nat × Bytes) × List Nat) row =>
      match index.1.lookup (row.noteType, row.nullifier) with
      | some _ => (index.1, index.2 ++ [row.id])
      | none => (index.1.insert (row.noteType, row.nullifier) (row.id, row.spendingTxid), index.2))
    (∅, [])

/-- The body of the loop of `upsert_unlinked_spend_nullifiers_with_txid`. A row that is
inserted is not indexed. -/
def upsertUnlinkedSpend (accountId now : Int)
    (state : AList (fun _ : TypedNullifier => Nat × Bytes) × UnlinkedSpends)
    (entry : NoteType × Bytes × Bytes) :
    AList (fun _ : TypedNullifier => Nat × Bytes) × UnlinkedSpends :=
  let (noteType, nullifier, spendingTxid) := entry
  if nullifier.all (· == 0) then state
  else match state.1.lookup (noteType, nullifier) with
    | some (rowId, currentTxid) =>
      if currentTxid = spendingTxid then state
      else (state.1.insert (noteType, nullifier) (rowId, spendingTxid),
        AutoTable.updateWhere (fun row => row.id == rowId)
          (fun row => { row with spendingTxid := spendingTxid, updatedAt := now }) (fun _ => rfl)
          state.2)
    | none => (state.1,
        AutoTable.insert (fun id => ⟨id, accountId, noteType, nullifier, spendingTxid, now, now⟩)
          (fun _ => rfl) state.2)

def upsertUnlinkedSpendNullifiersWithTxid (accountId now : Int)
    (entries : List (NoteType × Bytes × Bytes)) (spends : UnlinkedSpends) : UnlinkedSpends :=
  if entries.isEmpty then spends
  else
    let (index, duplicateIds) := indexUnlinkedSpends accountId spends
    (entries.foldl (upsertUnlinkedSpend accountId now)
      (index, spends.deleteWhere (fun row => duplicateIds.contains row.id))).2

/-! ## Transactions -/

/-- The digits of `hex::encode`. -/
def hexDigits : List Char := "0123456789abcdef".toList

def hexEncode (bytes : Bytes) : String :=
  String.ofList (bytes.flatMap (fun byte =>
    [hexDigits.getD (byte.toNat / 16) '0', hexDigits.getD (byte.toNat % 16) '0']))

/-- Decoding reads what encoding writes for one byte. -/
theorem hexDigit_digits : ∀ n < 256,
    hexDigit (hexDigits.getD (n / 16) '0') = some (n / 16).toUInt8 ∧
      hexDigit (hexDigits.getD (n % 16) '0') = some (n % 16).toUInt8 ∧
      (n / 16).toUInt8 * 16 + (n % 16).toUInt8 = n.toUInt8 := by
  decide +kernel

theorem hexDecode_hexEncode (bytes : Bytes) : hexDecode (hexEncode bytes).toList = some bytes := by
  unfold hexEncode
  rw [String.toList_ofList]
  induction bytes with
  | nil => rfl
  | cons byte rest ih =>
    obtain ⟨hhigh, hlow, hjoin⟩ := hexDigit_digits byte.toNat byte.toNat_lt
    rw [List.flatMap_cons, List.cons_append, List.cons_append, List.nil_append]
    unfold hexDecode
    rw [hhigh, hlow, ih]
    show some (_ :: rest) = _
    rw [hjoin, Nat.toUInt8, UInt8.ofNat_toNat]

theorem hexEncode_injective : Function.Injective hexEncode := by
  intro a b heq
  have hdecode : hexDecode (hexEncode a).toList = hexDecode (hexEncode b).toList := by rw [heq]
  simpa only [hexDecode_hexEncode, Option.some.injEq] using hdecode

def upsertTransaction (txid : String) (height timestamp fee : Int)
    (transactions : List TransactionRow) : List TransactionRow :=
  if transactions.any (fun tx => tx.txid == txid) then
    transactions.map (fun tx => if tx.txid == txid then
      { tx with height := height, timestamp := timestamp, fee := fee } else tx)
  else
    transactions ++
      [⟨(transactions.map (·.id)).foldl max 0 + 1, txid, height, timestamp, fee⟩]

/-! ## Applying spends -/

/-- The first loop of `apply_spend_updates_with_txmeta`: rows by id. -/
def Notes.spendById (notes : Notes) (update : Nat × Bytes) : Notes :=
  AutoTable.updateWhere (fun row => row.id == update.1) (NoteRow.spendBy update.2)
    (fun _ => rfl) notes

/-- The second loop of `apply_spend_updates_with_txmeta`: the rows of the account whose
nullifier has an entry, with that entry's transaction. -/
def Notes.spendByNullifier (accountId : Int) (spendMap : AList (fun _ : Bytes => Bytes))
    (notes : Notes) : Notes :=
  AutoTable.updateWhere
    (fun row => row.accountId == accountId && row.nullifier.length == 32 &&
      (spendMap.lookup row.nullifier).isSome)
    (fun row => row.spendBy ((spendMap.lookup row.nullifier).getD [])) (fun _ => rfl) notes

/-- How many rows the two loops write. -/
def Notes.countSpends (accountId : Int) (spendUpdates : List (Nat × Bytes))
    (spendMap : AList (fun _ : Bytes => Bytes)) (notes : Notes) : Nat × Nat :=
  ((spendUpdates.map (fun update => notes.rows.countP (fun row => row.id == update.1))).foldl
      (fun total count => total + count) 0,
    notes.rows.countP (fun row => row.accountId == accountId && row.nullifier.length == 32 &&
      (spendMap.lookup row.nullifier).isSome))

/-- `apply_spend_updates_with_txmeta`: how many rows each loop wrote, and the database. -/
def WalletDb.applySpendUpdatesWithTxmeta (accountId : Int) (spendUpdates : List (Nat × Bytes))
    (fallbackEntries : List (Bytes × Bytes)) (txMeta : List (String × Int × Int × Int))
    (db : WalletDb) : (Nat × Nat) × WalletDb :=
  let spendMap := BulkMap.insertAll ∅ fallbackEntries
  (db.notes.countSpends accountId spendUpdates spendMap,
    { db with
      notes := (spendUpdates.foldl Notes.spendById db.notes).spendByNullifier accountId spendMap
      transactions := txMeta.foldl
        (fun transactions (txid, height, timestamp, fee) =>
          upsertTransaction txid height timestamp fee transactions) db.transactions })

/-! ## One row for each output -/

variable {notes : Notes} {row : NoteRow}

theorem Notes.mem_ofAccount {accountId : Int} :
    row ∈ notes.ofAccount accountId ↔ row ∈ notes.rows ∧ row.accountId = accountId := by
  simp [Notes.ofAccount]

/-- No two rows of the account stand for one output. -/
def Notes.OneRowPerOutput (accountId : Int) (notes : Notes) : Prop :=
  ∀ a ∈ notes.ofAccount accountId, ∀ b ∈ notes.ofAccount accountId,
    a.outputKey = b.outputKey → a = b

/-- A row is the only one of its output. -/
theorem Notes.OneRowPerOutput.only {accountId : Int} (hone : notes.OneRowPerOutput accountId)
    {existing : NoteRow} (hexisting : existing ∈ notes.ofAccount accountId) :
    ∀ other ∈ notes.ofAccount accountId, other.outputKey = existing.outputKey →
      other = existing :=
  fun other hother => hone other hother existing hexisting

theorem Notes.mem_matchingOutputs {accountId : Int} {outputs : List OutputKey} :
    row ∈ notes.matchingOutputs accountId outputs ↔
      row ∈ notes.ofAccount accountId ∧ row.outputKey ∈ outputs := by
  simp [Notes.matchingOutputs]

variable {rows : List NoteRow}

/-- With one row per output, the rows of an output are that row alone. -/
theorem filter_outputKey_eq_singleton (hnodup : rows.Nodup)
    (hone : ∀ a ∈ rows, ∀ b ∈ rows, a.outputKey = b.outputKey → a = b) (hrow : row ∈ rows) :
    rows.filter (fun other => other.outputKey = row.outputKey) = [row] := by
  have hmem : ∀ other, other ∈ rows.filter (fun other => other.outputKey = row.outputKey) ↔
      other ∈ [row] := by
    intro other
    simp only [List.mem_filter, decide_eq_true_eq, List.mem_singleton]
    constructor
    · rintro ⟨hother, hkey⟩
      exact hone other hother row hrow hkey
    · rintro rfl
      exact ⟨hrow, rfl⟩
  have hperm : (rows.filter (fun other => other.outputKey = row.outputKey)).Perm [row] :=
    (List.perm_ext_iff_of_nodup (hnodup.filter _) (List.nodup_singleton row)).mpr hmem
  exact List.perm_singleton.mp hperm

theorem Notes.rows_nodup (notes : Notes) : notes.rows.Nodup :=
  List.Nodup.of_map _ notes.ids_nodup

theorem foldl_foldGroup_of_singletons {groups : List (List NoteRow)}
    (h : ∀ group ∈ groups, ∃ row, group = [row]) :
    groups.foldl Notes.foldGroup (rows, notes) = (rows ++ groups.flatten, notes) := by
  induction groups generalizing rows with
  | nil => simp
  | cons group groups ih =>
    obtain ⟨row, rfl⟩ := h group (by simp)
    have hrest : ∀ g ∈ groups, ∃ row, g = [row] := fun g hg => h g (by simp [hg])
    simp only [List.foldl_cons, Notes.foldGroup, ih hrest]
    simp

/-- Where none of the outputs has two rows, preparing an upsert changes nothing and finds the rows
of the outputs. -/
theorem Notes.prepareNoteUpserts_of_distinct {accountId : Int} {outputs : List OutputKey}
    (honeRows : ∀ a ∈ notes.matchingOutputs accountId outputs, ∀ b ∈ notes.matchingOutputs accountId
      outputs, a.outputKey = b.outputKey → a = b) :
    (notes.prepareNoteUpserts accountId outputs).2 = notes ∧
      ∀ row, row ∈ (notes.prepareNoteUpserts accountId outputs).1 ↔
        row ∈ notes.ofAccount accountId ∧ row.outputKey ∈ outputs := by
  let rows := notes.matchingOutputs accountId outputs
  have hnodup : rows.Nodup := (notes.rows_nodup.filter _).filter _
  let groups := (rows.map (·.outputKey)).dedup.map
    (fun key => rows.filter (fun row => row.outputKey = key))
  have hgroups : ∀ group ∈ groups, ∃ row ∈ rows, group = [row] := by
    intro group hgroup
    obtain ⟨key, hkey, rfl⟩ := List.mem_map.mp hgroup
    obtain ⟨row, hrow, rfl⟩ := List.mem_map.mp (List.mem_dedup.mp hkey)
    exact ⟨row, hrow, filter_outputKey_eq_singleton hnodup honeRows hrow⟩
  have hfold : groups.foldl foldGroup ([], notes) = (groups.flatten, notes) := by
    rw [foldl_foldGroup_of_singletons fun group hgroup =>
      (hgroups group hgroup).imp fun _ h => h.2]
    rfl
  have hresult : notes.prepareNoteUpserts accountId outputs
      = (groups.flatten.insertionSort (fun a b => a.id ≤ b.id), notes) := by
    unfold prepareNoteUpserts
    dsimp only
    rw [hfold]
  rw [hresult]
  refine ⟨rfl, fun row => ?_⟩
  rw [List.mem_insertionSort, List.mem_flatten, ← mem_matchingOutputs]
  constructor
  · rintro ⟨group, hgroup, hrow⟩
    obtain ⟨kept, hkept, rfl⟩ := hgroups group hgroup
    rw [List.mem_singleton.mp hrow]
    exact hkept
  · intro hrow
    refine ⟨rows.filter (fun other => other.outputKey = row.outputKey), ?_, ?_⟩
    · refine List.mem_map.mpr ⟨row.outputKey, ?_, rfl⟩
      exact List.mem_dedup.mpr (List.mem_map.mpr ⟨row, hrow, rfl⟩)
    · simpa using hrow

/-- Where no output has two rows, preparing an upsert changes nothing and finds the rows of
the outputs. -/
theorem Notes.prepareNoteUpserts_of_oneRow {accountId : Int} {outputs : List OutputKey}
    {notes : Notes} (hone : notes.OneRowPerOutput accountId) :
    (notes.prepareNoteUpserts accountId outputs).2 = notes ∧
      ∀ row, row ∈ (notes.prepareNoteUpserts accountId outputs).1 ↔
        row ∈ notes.ofAccount accountId ∧ row.outputKey ∈ outputs :=
  prepareNoteUpserts_of_distinct fun a ha b hb =>
    hone a (mem_matchingOutputs.mp ha).1 b (mem_matchingOutputs.mp hb).1

theorem preferReconciled_mem {best : Option NoteRow} {row kept : NoteRow}
    (h : preferReconciled best row = some kept) : best = some kept ∨ kept = row := by
  unfold preferReconciled at h
  split at h
  · split at h
    · exact .inr (Option.some.inj h).symm
    · exact .inl h
  · exact .inr (Option.some.inj h).symm

theorem foldl_preferReconciled_mem {best : Option NoteRow} {kept : NoteRow}
    (h : rows.foldl preferReconciled best = some kept) : best = some kept ∨ kept ∈ rows := by
  induction rows generalizing best with
  | nil => exact .inl h
  | cons row rows ih =>
    rcases ih h with hbest | hrows
    · rcases preferReconciled_mem hbest with hbest | rfl
      · exact .inl hbest
      · exact .inr List.mem_cons_self
    · exact .inr (List.mem_cons_of_mem row hrows)

theorem canonicalRow_mem (h : canonicalRow rows = some row) : row ∈ rows :=
  (foldl_preferReconciled_mem h).resolve_left nofun

/-- What is loaded for reconciliation is a row of the account that is not settled. -/
theorem Notes.of_mem_spendReconciliationNotes {accountId : Int}
    (h : row ∈ notes.spendReconciliationNotes accountId) :
    row ∈ notes.ofAccount accountId ∧ row.settled = false := by
  obtain ⟨key, -, hrow⟩ := List.mem_filterMap.mp h
  have hmem := List.mem_of_mem_filter (canonicalRow_mem hrow)
  simpa using hmem

/-- With one row per output, every row that is not settled is loaded. -/
theorem Notes.mem_spendReconciliationNotes {accountId : Int}
    (hone : notes.OneRowPerOutput accountId) (hrow : row ∈ notes.ofAccount accountId)
    (hopen : row.settled = false) : row ∈ notes.spendReconciliationNotes accountId := by
  let rows := (notes.ofAccount accountId).filter (fun row => !row.settled)
  have hmem : row ∈ rows := List.mem_filter.mpr ⟨hrow, by simp [hopen]⟩
  have hsingle : rows.filter (fun other => other.outputKey = row.outputKey) = [row] := by
    refine filter_outputKey_eq_singleton ((notes.rows_nodup.filter _).filter _) ?_ hmem
    intro a ha b hb
    exact hone a (List.mem_of_mem_filter ha) b (List.mem_of_mem_filter hb)
  refine List.mem_filterMap.mpr ⟨row.outputKey, ?_, ?_⟩
  · exact List.mem_dedup.mpr (List.mem_map.mpr ⟨row, hmem, rfl⟩)
  · change canonicalRow (rows.filter (fun other => other.outputKey = row.outputKey)) = some row
    rw [hsingle]
    rfl

/-- Writing a row that is there replaces it and no other. -/
theorem Notes.mem_updateNoteById {existing updated row : NoteRow}
    (hexisting : existing ∈ notes.rows) (hid : updated.id = existing.id) :
    row ∈ (notes.updateNoteById updated).rows ↔
      row = updated ∨ (row ∈ notes.rows ∧ row.id ≠ updated.id) := by
  unfold updateNoteById
  rw [AutoTable.updateWhere_rows, List.mem_map]
  constructor
  · rintro ⟨old, hold, rfl⟩
    by_cases hsame : old.id = updated.id
    · left
      simp only [hsame, beq_self_eq_true, if_true]
    · right
      simp only [beq_eq_false_iff_ne.mpr hsame, Bool.false_eq_true, if_false]
      exact ⟨hold, hsame⟩
  · rintro (rfl | ⟨hrow, hne⟩)
    · refine ⟨existing, hexisting, ?_⟩
      simp only [hid, beq_self_eq_true, if_true]
      rw [← hid]
    · exact ⟨row, hrow, by simp [hne]⟩

theorem Notes.mem_insertNote {note : NoteRecord} :
    row ∈ (notes.insertNote note).2.rows ↔
      row ∈ notes.rows ∨ row = { note with id := notes.nextId } := by
  unfold insertNote
  rw [AutoTable.insert_rows, List.mem_append, List.mem_singleton]

/-! ## Rows before and after a write -/

/-- The two rows stand for the same note: id, account and output agree. -/
structure SameNote (row row' : NoteRow) : Prop where
  id_eq : row'.id = row.id
  accountId_eq : row'.accountId = row.accountId
  outputKey_eq : row'.outputKey = row.outputKey

theorem SameNote.refl (row : NoteRow) : SameNote row row := ⟨rfl, rfl, rfl⟩

theorem SameNote.trans {a b c : NoteRow} (h₁ : SameNote a b) (h₂ : SameNote b c) :
    SameNote a c :=
  ⟨h₂.id_eq.trans h₁.id_eq, h₂.accountId_eq.trans h₁.accountId_eq,
    h₂.outputKey_eq.trans h₁.outputKey_eq⟩

section RowsFrom

variable {R : NoteRow → NoteRow → Prop} {accountId : Int} {before after : Notes}

/-- The rows of an account stem from rows of the account. -/
theorem Notes.ofAccount_of_rowsFrom (hsame : ∀ row row', R row row' → SameNote row row')
    (hrows : AutoTable.RowsFrom R before after) {row' : NoteRow}
    (hrow' : row' ∈ after.ofAccount accountId) :
    ∃ row ∈ before.ofAccount accountId, R row row' := by
  obtain ⟨hmem', haccount⟩ := mem_ofAccount.mp hrow'
  obtain ⟨row, hrow, hR⟩ := hrows row' hmem'
  have haccount' : row.accountId = accountId := (hsame row row' hR).accountId_eq.symm.trans haccount
  exact ⟨row, mem_ofAccount.mpr ⟨hrow, haccount'⟩, hR⟩

/-- A write that keeps notes what they are keeps one row for each output. -/
theorem Notes.oneRowPerOutput_of_rowsFrom (hsame : ∀ row row', R row row' → SameNote row row')
    (hrows : AutoTable.RowsFrom R before after) (hone : before.OneRowPerOutput accountId) :
    after.OneRowPerOutput accountId := by
  intro a' ha' b' hb' hkey
  obtain ⟨a, ha, hRa⟩ := ofAccount_of_rowsFrom hsame hrows ha'
  obtain ⟨b, hb, hRb⟩ := ofAccount_of_rowsFrom hsame hrows hb'
  have hab : a = b := by
    refine hone a ha b hb ?_
    rw [← (hsame a a' hRa).outputKey_eq, ← (hsame b b' hRb).outputKey_eq, hkey]
  -- two rows that stem from one row have its id
  have hid : a'.id = b'.id := by rw [(hsame a a' hRa).id_eq, (hsame b b' hRb).id_eq, hab]
  exact AutoTable.row_eq_of_id (mem_ofAccount.mp ha').1 (mem_ofAccount.mp hb').1 hid

end RowsFrom

end StashiWallet
