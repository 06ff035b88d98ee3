import StashiWallet.AutoTable

/-!
# Stored records

The records of the wallet database that the sync engine reads and writes, decrypted: the
storage layer encrypts most columns, and every comparison in the source is made on the
plain values. A `NoteRecord` of the source carries an optional row id; here the fields
without the id are `NoteRecord`, and a row of the table is a `NoteRow`, which has one.
-/

namespace StashiWallet

/-- A byte string, `Vec<u8>` or `[u8; 32]` in the source. -/
abbrev Bytes := List UInt8

/-- The two shielded pools; the source stores `Ironwood` under the name `Orchard`. -/
inductive NoteType where
  | sapling
  | ironwood
deriving DecidableEq, Repr

/-- `NoteRecord` without its row id. -/
structure NoteRecord where
  accountId : Int
  keyId : Option Int
  noteType : NoteType
  value : Int
  nullifier : Bytes
  commitment : Bytes
  spent : Bool
  height : Int
  txid : Bytes
  outputIndex : Int
  addressId : Option Int
  spentTxid : Option Bytes
  diversifier : Option Bytes
  note : Option Bytes
  position : Option Int
  memo : Option Bytes
deriving DecidableEq, Repr

/-- A row of the table `notes`. -/
structure NoteRow extends NoteRecord where
  id : Nat
deriving DecidableEq, Repr

/-- The table `notes`. -/
abbrev Notes : Type := AutoTable NoteRow NoteRow.id

/-- The logical output a note row stands for: `(txid, output_index, note_type)`. -/
abbrev OutputKey := Bytes × Int × NoteType

def NoteRecord.outputKey (note : NoteRecord) : OutputKey :=
  (note.txid, note.outputIndex, note.noteType)

/-- `len() == 32 && !iter().all(|b| *b == 0)`: the nullifiers that identify a note. An
all-zero nullifier marks a note whose nullifier could not be derived. -/
def usableNullifier (nullifier : Bytes) : Bool :=
  nullifier.length == 32 && !nullifier.all (· == 0)

/-- A row of `transactions`; `txid` is in display hex. -/
structure TransactionRow where
  id : Nat
  txid : String
  height : Int
  timestamp : Int
  fee : Int
deriving DecidableEq, Repr

/-- `KeyType`: where a key group comes from. -/
inductive KeyType where
  | seed
  | importSpend
  | importView
deriving DecidableEq, Repr

inductive KeyScope where
  | account
  | singleAddress
deriving DecidableEq, Repr

/-- A row of `memos`, reduced to the transaction it belongs to and its bytes. -/
structure MemoRow where
  txId : Nat
  memo : Bytes
deriving DecidableEq, Repr

/-- `ChainBlockRow`: the identity of a block the wallet has scanned. -/
structure ChainBlockRow where
  height : Nat
  hash : Bytes
  prevHash : Bytes
  time : Nat
deriving DecidableEq, Repr

/-- A row of `unlinked_spend_nullifiers`: a spend seen before its note was known. -/
structure UnlinkedSpendRow where
  id : Nat
  accountId : Int
  noteType : NoteType
  nullifier : Bytes
  spendingTxid : Bytes
  createdAt : Int
  updatedAt : Int
deriving DecidableEq, Repr

/-- The table `unlinked_spend_nullifiers`. -/
abbrev UnlinkedSpends : Type := AutoTable UnlinkedSpendRow UnlinkedSpendRow.id

/-- `SyncStateRow`, the persisted scan cursor. -/
structure SyncStateRow where
  localHeight : Nat
  targetHeight : Nat
  lastCheckpointHeight : Nat
  updatedAt : String
deriving DecidableEq, Repr

/-- A row of `sapling_note_shards` or `orchard_note_shards`. -/
structure NoteShardRow where
  shardIndex : Nat
  startPosition : Nat
  endPositionExclusive : Nat
  subtreeStartHeight : Int
  subtreeEndHeight : Option Int
  containsMarked : Bool
deriving DecidableEq, Repr

/-- A row of `checkpoints`. -/
structure CheckpointRow where
  height : Nat
  hash : String
  timestamp : Int
  saplingTreeSize : Nat
deriving DecidableEq, Repr

/-- A row of `frontier_snapshots`. -/
structure FrontierSnapshotRow where
  height : Nat
  frontier : Bytes
  createdAt : String
  appVersion : String
deriving DecidableEq, Repr

/-! ## Transaction ids in hex -/

/-- The value of a hex digit. -/
def hexDigit (c : Char) : Option UInt8 :=
  if '0' ≤ c ∧ c ≤ '9' then some (c.toNat - '0'.toNat).toUInt8
  else if 'a' ≤ c ∧ c ≤ 'f' then some (c.toNat - 'a'.toNat + 10).toUInt8
  else if 'A' ≤ c ∧ c ≤ 'F' then some (c.toNat - 'A'.toNat + 10).toUInt8
  else none

/-- `hex::decode` on the characters of a string. -/
def hexDecode : List Char → Option Bytes
  | [] => some []
  | [_] => none
  | high :: low :: rest => do
    let h ← hexDigit high
    let l ← hexDigit low
    let bytes ← hexDecode rest
    return (h * 16 + l) :: bytes

/-- `txid_hex_candidates`: a stored id in both byte orders. -/
def txidHexCandidates (txidHex : String) : List Bytes :=
  match hexDecode txidHex.toList with
  | none => []
  | some bytes =>
    if bytes.length ≠ 32 then []
    else if bytes = bytes.reverse then [bytes]
    else [bytes, bytes.reverse]

theorem mem_txidHexCandidates {txidHex : String} {txid : Bytes} :
    txid ∈ txidHexCandidates txidHex ↔ ∃ bytes, hexDecode txidHex.toList = some bytes ∧
      bytes.length = 32 ∧ (txid = bytes ∨ txid = bytes.reverse) := by
  unfold txidHexCandidates
  constructor
  · intro h
    split at h
    · cases h
    · rename_i bytes hbytes
      split at h
      · cases h
      · rename_i hlength
        refine ⟨bytes, hbytes, not_not.mp hlength, ?_⟩
        split at h
        · exact Or.inl (List.mem_singleton.mp h)
        · simpa using h
  · rintro ⟨bytes, hbytes, hlength, heq⟩
    rw [hbytes]
    show txid ∈ (if bytes.length ≠ 32 then [] else _)
    rw [if_neg (not_not.mpr hlength)]
    split
    · rename_i hsame
      rcases heq with rfl | rfl
      · exact List.mem_singleton_self _
      · rw [← hsame]
        exact List.mem_singleton_self _
    · simpa using heq

/-- An id is a candidate in both byte orders. -/
theorem reverse_mem_txidHexCandidates {txidHex : String} {txid : Bytes}
    (h : txid ∈ txidHexCandidates txidHex) : txid.reverse ∈ txidHexCandidates txidHex := by
  obtain ⟨bytes, hbytes, hlength, heq⟩ := mem_txidHexCandidates.mp h
  refine mem_txidHexCandidates.mpr ⟨bytes, hbytes, hlength, ?_⟩
  rcases heq with rfl | rfl
  · exact Or.inr rfl
  · rw [List.reverse_reverse]
    exact Or.inl rfl

end StashiWallet
