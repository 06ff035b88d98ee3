import StashiWallet.RollbackContract

/-!
# The rollback of the checkpoint manager

`rollback_to_checkpoint` compares the height column of a note in SQL. In an encrypted wallet that
column holds a ciphertext, and SQLite orders every blob after every number: whatever the
checkpoint, the statement deletes every note. The rollback to a height decrypts each height first,
so the two agree only on a wallet that has no note to keep.
-/

namespace StashiWallet

section Statements

-- Whether a real exceeds an integer; of the real a cell keeps only its cast.
variable (realAbove : Int → Int → Bool)

/-- `height > ?1` in SQLite: a text or a blob comes after every number. -/
def Cell.heightAbove (height : Int) : Cell → Bool
  | .integer value => decide (height < value)
  | .real truncated => realAbove truncated height
  | .text _ => true
  | .blob _ => true

def StoredWallet.rollbackToCheckpoint (checkpoint : CheckpointRow) (db : StoredWallet) :
    StoredWallet :=
  { db with
    notes := db.notes.deleteWhere fun row => row.height.heightAbove realAbove checkpoint.height
    transactions := db.transactions.filter fun tx =>
      !decide (tx.height > (checkpoint.height : Int))
    checkpoints := db.checkpoints.filter fun row => !decide (row.height > checkpoint.height) }

end Statements

section Agreement

variable (encrypt decrypt : Bytes → Except String Bytes)

/-- Every height of a note is a ciphertext of eight bytes. -/
def StoredWallet.HeightsEncrypted (db : StoredWallet) : Prop :=
  ∀ row ∈ db.notes.rows, ∃ encrypted message, row.height = .blob encrypted ∧
    decrypt encrypted = .ok message ∧ message.length = 8

/-- The flag of the note opens and reads as false. -/
def EncryptedNote.Unspent (row : EncryptedNote Cell) : Prop :=
  ∃ encrypted rest, row.spent = .blob encrypted ∧ decrypt encrypted = .ok (0 :: rest)

/-- The same notes, transactions and checkpoints remain, and the same of the notes are unspent. -/
structure SameRemaining (one other : StoredWallet) : Prop where
  notes : one.notes.rows.map EncryptedNote.id = other.notes.rows.map EncryptedNote.id
  transactions : one.transactions = other.transactions
  checkpoints : one.checkpoints = other.checkpoints
  unspent : ∀ row ∈ one.notes.rows, ∀ counterpart ∈ other.notes.rows, row.id = counterpart.id →
    (row.Unspent decrypt ↔ counterpart.Unspent decrypt)

/-- The checkpoint manager keeps the notes up to the checkpoint, and leaves what a rollback to its
height leaves. -/
structure RollsBackAlike (realAbove : Int → Int → Bool)
    (truncateSapling truncateOrchard : TruncateTree)
    (checkpoint : CheckpointRow) (db : StoredWallet) : Prop where
  kept : (db.rollbackToCheckpoint realAbove checkpoint).notes.rows =
    db.notes.rows.filter fun row =>
      (row.heightOf decrypt).any fun value => decide (value ≤ (checkpoint.height : Int))
  agrees : ∀ now returned after,
    truncateStored encrypt decrypt truncateSapling truncateOrchard now checkpoint.height db =
      .ok (returned, after) →
    SameRemaining decrypt (db.rollbackToCheckpoint realAbove checkpoint) after

variable {encrypt decrypt} {realAbove : Int → Int → Bool}
  {truncateSapling truncateOrchard : TruncateTree}
  {checkpoint : CheckpointRow} {db : StoredWallet}

theorem StoredWallet.HeightsEncrypted.heightOf (h : db.HeightsEncrypted decrypt)
    {row : EncryptedNote Cell} (hrow : row ∈ db.notes.rows) :
    ∃ value, row.heightOf decrypt = some value := by
  obtain ⟨encrypted, message, hcell, hopens, hlength⟩ := h row hrow
  refine ⟨i64FromLeBytes message, ?_⟩
  simp [EncryptedNote.heightOf, readI64Cell, hcell, hopens, hlength, Except.mapError,
    Except.toOption, bind, Except.bind, pure, Except.pure]

/-- No note of an encrypted wallet survives the comparison in SQL. -/
theorem StoredWallet.HeightsEncrypted.rollback_notes (h : db.HeightsEncrypted decrypt)
    (checkpoint : CheckpointRow) :
    (db.rollbackToCheckpoint realAbove checkpoint).notes.rows = [] := by
  show (db.notes.deleteWhere _).rows = []
  rw [AutoTable.deleteWhere_rows, List.filter_eq_nil_iff]
  intro row hrow
  obtain ⟨encrypted, message, hcell, -⟩ := h row hrow
  simp [hcell, Cell.heightAbove]

/-- The notes up to a height, once every height is read, are those that are not above it. -/
theorem filter_upTo_eq_nil_iff (h : db.HeightsEncrypted decrypt) {height : Nat} :
    (db.notes.rows.filter fun row =>
        (row.heightOf decrypt).any fun value => decide (value ≤ (height : Int))) = [] ↔
      ∀ row ∈ db.notes.rows, row.above decrypt height = true := by
  rw [List.filter_eq_nil_iff]
  refine forall₂_congr fun row hrow => ?_
  obtain ⟨value, hvalue⟩ := h.heightOf hrow
  simp [EncryptedNote.above, hvalue]

/-- **When the two rollbacks agree.** In an encrypted wallet the checkpoint manager keeps the notes
up to the checkpoint and leaves what a rollback to its height leaves, exactly if no note lies at or
below the checkpoint. -/
theorem checkpoint_rollback_agrees_iff (h : db.HeightsEncrypted decrypt) :
    RollsBackAlike encrypt decrypt realAbove truncateSapling truncateOrchard checkpoint db ↔
      ∀ row ∈ db.notes.rows, row.above decrypt checkpoint.height = true := by
  have hwiped := @StoredWallet.HeightsEncrypted.rollback_notes decrypt realAbove db h checkpoint
  rw [← filter_upTo_eq_nil_iff h]
  constructor
  · intro halike
    rw [← halike.kept, hwiped]
  · intro hnone
    refine ⟨by rw [hwiped, hnone], fun now returned after htruncate => ?_⟩
    have hback := truncateStored_eq_ok htruncate
    -- nothing is below the checkpoint, so the rollback to its height deletes every note as well
    have hempty : after.notes.rows = [] := by
      obtain ⟨encryptedUnspent, -, hrows⟩ := hback.notes
      have habove := (filter_upTo_eq_nil_iff h).mp hnone
      rw [hrows, List.map_eq_nil_iff, List.filter_eq_nil_iff]
      intro row hrow
      simp [habove row hrow]
    exact
      { notes := by rw [hwiped, hempty]
        transactions := hback.transactions.symm
        checkpoints := hback.checkpoints.symm
        unspent := fun row hrow => by simp [hwiped] at hrow }

end Agreement

/-- A stand-in for the cipher: every byte is masked. -/
def maskBytes (bytes : Bytes) : Except String Bytes := .ok (bytes.map (· ^^^ 90))

/-- Reals compared by their casts. -/
def castAbove (truncated height : Int) : Bool := decide (height < truncated)

/-- A small number as the tables of a masked wallet hold it. -/
def maskedInt (value : UInt8) : Cell := .blob ((value ^^^ 90) :: List.replicate 7 90)

/-- A wallet with one unspent note of value 5. -/
def maskedWallet (height : UInt8) : StoredWallet where
  notes :=
    { rows := [
        { id := 1, noteType := .sapling, accountId := maskedInt 1, value := maskedInt 5,
          nullifier := .blob (List.replicate 32 90), commitment := .blob (List.replicate 32 90),
          spent := .blob [90], height := maskedInt height, txid := .blob (List.replicate 32 90),
          outputIndex := maskedInt 0, spentTxid := none, diversifier := none, note := none,
          position := some (maskedInt 7), memo := none, addressId := none, keyId := none }]
      nextId := 2
      ids_nodup := by simp
      ids_lt := by simp }
  unlinkedSpends := AutoTable.empty
  transactions := []
  memos := []
  chainBlocks := []
  checkpoints := [⟨6, "", 0, 0⟩]
  frontierSnapshots := []
  scanQueue := ScanQueue.empty
  saplingTree := {}
  orchardTree := {}
  saplingNoteShards := []
  orchardNoteShards := []
  syncState := ⟨9, 9, 9, ""⟩
  spendabilityState := SpendabilityStateRow.default ""

theorem maskedWallet_encrypted (height : UInt8) :
    (maskedWallet height).HeightsEncrypted maskBytes := by
  intro row hrow
  obtain rfl := List.mem_singleton.mp hrow
  exact ⟨_, _, rfl, rfl, rfl⟩

theorem checkpoint_rollback_agrees_above :
    RollsBackAlike maskBytes maskBytes castAbove cutEmptyTree cutEmptyTree ⟨6, "", 0, 0⟩
      (maskedWallet 9) :=
  (checkpoint_rollback_agrees_iff (maskedWallet_encrypted 9)).mpr (by decide)

/-- A note at height 3 is gone after a rollback to a checkpoint at height 6, while the rollback to
height 6 keeps it. -/
theorem checkpoint_rollback_wipes :
    (maskedWallet 3).HeightsEncrypted maskBytes ∧
      ((maskedWallet 3).rollbackToCheckpoint castAbove ⟨6, "", 0, 0⟩).notes.rows = [] ∧
      (∃ returned after, truncateStored maskBytes maskBytes cutEmptyTree cutEmptyTree "" 6
        (maskedWallet 3) = .ok (returned, after) ∧ after.notes.rows = (maskedWallet 3).notes.rows) ∧
      ¬ RollsBackAlike maskBytes maskBytes castAbove cutEmptyTree cutEmptyTree ⟨6, "", 0, 0⟩
        (maskedWallet 3) := by
  refine ⟨maskedWallet_encrypted 3, rfl, ⟨0, _, rfl, rfl⟩, fun halike => ?_⟩
  have hkept := halike.kept
  exact absurd hkept (by decide)

end StashiWallet
