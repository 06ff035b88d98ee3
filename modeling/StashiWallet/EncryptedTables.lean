import StashiWallet.Aead
import StashiWallet.Models

/-!
# The tables as they are stored

The other modules work on decrypted rows. Here are the rows as the database holds them: a
column the storage layer encrypts is a ciphertext of type `C`, a column it stores plain has
its own type. A table is polymorphic in `C`, so that `map` reads it: with the decryption
under a key for the function, the result holds, cell by cell, what a reader of the database
sees, a message or a failure.
-/

namespace StashiWallet

/-- A row of `notes`. -/
structure EncryptedNote (C : Type) where
  id : Nat
  noteType : NoteType
  accountId : C
  value : C
  nullifier : C
  commitment : C
  spent : C
  height : C
  txid : C
  outputIndex : C
  spentTxid : Option C
  diversifier : Option C
  note : Option C
  position : Option C
  memo : Option C
  addressId : Option C
  keyId : Option C
deriving DecidableEq

/-- A row of `wallet_secrets`. -/
structure EncryptedWalletSecret (C : Type) where
  walletId : String
  accountId : C
  extsk : C
  dfvk : Option C
  orchardExtsk : Option C
  saplingIvk : Option C
  orchardIvk : Option C
  encryptedMnemonic : Option C
  mnemonicLanguage : Option String
  createdAt : C
deriving DecidableEq

/-- A row of `memos`. -/
structure EncryptedMemo (C : Type) where
  id : Nat
  txId : Nat
  memo : C
deriving DecidableEq

/-- A row of `account_keys`. -/
structure EncryptedAccountKey (C : Type) where
  id : Nat
  accountId : Int
  keyType : KeyType
  keyScope : KeyScope
  label : Option String
  birthdayHeight : Int
  createdAt : Int
  spendable : Bool
  saplingExtsk : Option C
  saplingDfvk : Option C
  orchardExtsk : Option C
  orchardFvk : Option C
  encryptedMnemonic : Option C
deriving DecidableEq

/-- A row of `payment_disclosures`. -/
structure EncryptedDisclosure (C : Type) where
  walletId : String
  network : String
  txid : String
  payload : C
deriving DecidableEq

/-- A row of `frontier_snapshots`. -/
structure EncryptedFrontier (C : Type) where
  height : Nat
  frontier : C
  createdAt : String
  appVersion : String
deriving DecidableEq

/-- A row of `outgoing_transaction_intents`. -/
structure EncryptedIntent (C : Type) where
  txid : String
  accountId : C
  amount : C
  fee : C
  broadcastAt : Int
  expiryHeight : Nat
deriving DecidableEq

/-- A row of `unlinked_spend_nullifiers`. -/
structure EncryptedUnlinkedSpend (C : Type) where
  id : Nat
  accountId : C
  noteType : NoteType
  nullifier : C
  spendingTxid : C
  createdAt : Int
  updatedAt : Int
deriving DecidableEq

/-- The tables that hold ciphertexts. -/
structure EncryptedTables (C : Type) where
  notes : List (EncryptedNote C)
  walletSecrets : List (EncryptedWalletSecret C)
  memos : List (EncryptedMemo C)
  accountKeys : List (EncryptedAccountKey C)
  paymentDisclosures : List (EncryptedDisclosure C)
  frontierSnapshots : List (EncryptedFrontier C)
  outgoingTransactionIntents : List (EncryptedIntent C)
  unlinkedSpendNullifiers : List (EncryptedUnlinkedSpend C)
deriving DecidableEq

/-! ## Reading cell by cell -/

section Map

variable {C D : Type} (f : C → D)

def EncryptedNote.map (row : EncryptedNote C) : EncryptedNote D where
  id := row.id
  noteType := row.noteType
  accountId := f row.accountId
  value := f row.value
  nullifier := f row.nullifier
  commitment := f row.commitment
  spent := f row.spent
  height := f row.height
  txid := f row.txid
  outputIndex := f row.outputIndex
  spentTxid := row.spentTxid.map f
  diversifier := row.diversifier.map f
  note := row.note.map f
  position := row.position.map f
  memo := row.memo.map f
  addressId := row.addressId.map f
  keyId := row.keyId.map f

def EncryptedWalletSecret.map (row : EncryptedWalletSecret C) : EncryptedWalletSecret D where
  walletId := row.walletId
  accountId := f row.accountId
  extsk := f row.extsk
  dfvk := row.dfvk.map f
  orchardExtsk := row.orchardExtsk.map f
  saplingIvk := row.saplingIvk.map f
  orchardIvk := row.orchardIvk.map f
  encryptedMnemonic := row.encryptedMnemonic.map f
  mnemonicLanguage := row.mnemonicLanguage
  createdAt := f row.createdAt

def EncryptedMemo.map (row : EncryptedMemo C) : EncryptedMemo D :=
  ⟨row.id, row.txId, f row.memo⟩

def EncryptedAccountKey.map (row : EncryptedAccountKey C) : EncryptedAccountKey D where
  id := row.id
  accountId := row.accountId
  keyType := row.keyType
  keyScope := row.keyScope
  label := row.label
  birthdayHeight := row.birthdayHeight
  createdAt := row.createdAt
  spendable := row.spendable
  saplingExtsk := row.saplingExtsk.map f
  saplingDfvk := row.saplingDfvk.map f
  orchardExtsk := row.orchardExtsk.map f
  orchardFvk := row.orchardFvk.map f
  encryptedMnemonic := row.encryptedMnemonic.map f

def EncryptedDisclosure.map (row : EncryptedDisclosure C) : EncryptedDisclosure D :=
  ⟨row.walletId, row.network, row.txid, f row.payload⟩

def EncryptedFrontier.map (row : EncryptedFrontier C) : EncryptedFrontier D :=
  ⟨row.height, f row.frontier, row.createdAt, row.appVersion⟩

def EncryptedIntent.map (row : EncryptedIntent C) : EncryptedIntent D :=
  ⟨row.txid, f row.accountId, f row.amount, f row.fee, row.broadcastAt, row.expiryHeight⟩

def EncryptedUnlinkedSpend.map (row : EncryptedUnlinkedSpend C) : EncryptedUnlinkedSpend D :=
  ⟨row.id, f row.accountId, row.noteType, f row.nullifier, f row.spendingTxid, row.createdAt,
    row.updatedAt⟩

def EncryptedTables.map (tables : EncryptedTables C) : EncryptedTables D where
  notes := tables.notes.map (EncryptedNote.map f)
  walletSecrets := tables.walletSecrets.map (EncryptedWalletSecret.map f)
  memos := tables.memos.map (EncryptedMemo.map f)
  accountKeys := tables.accountKeys.map (EncryptedAccountKey.map f)
  paymentDisclosures := tables.paymentDisclosures.map (EncryptedDisclosure.map f)
  frontierSnapshots := tables.frontierSnapshots.map (EncryptedFrontier.map f)
  outgoingTransactionIntents := tables.outgoingTransactionIntents.map (EncryptedIntent.map f)
  unlinkedSpendNullifiers := tables.unlinkedSpendNullifiers.map (EncryptedUnlinkedSpend.map f)

end Map

/-! ## All ciphertexts -/

section Cells

variable {C : Type}

def EncryptedNote.cells (row : EncryptedNote C) : List C :=
  [row.accountId, row.value, row.nullifier, row.commitment, row.spent, row.height, row.txid,
    row.outputIndex] ++ row.spentTxid.toList ++ row.diversifier.toList ++ row.note.toList ++
    row.position.toList ++ row.memo.toList ++ row.addressId.toList ++ row.keyId.toList

def EncryptedWalletSecret.cells (row : EncryptedWalletSecret C) : List C :=
  [row.accountId, row.extsk, row.createdAt] ++ row.dfvk.toList ++ row.orchardExtsk.toList ++
    row.saplingIvk.toList ++ row.orchardIvk.toList ++ row.encryptedMnemonic.toList

def EncryptedAccountKey.cells (row : EncryptedAccountKey C) : List C :=
  row.saplingExtsk.toList ++ row.saplingDfvk.toList ++ row.orchardExtsk.toList ++
    row.orchardFvk.toList ++ row.encryptedMnemonic.toList

def EncryptedIntent.cells (row : EncryptedIntent C) : List C :=
  [row.accountId, row.amount, row.fee]

def EncryptedUnlinkedSpend.cells (row : EncryptedUnlinkedSpend C) : List C :=
  [row.accountId, row.nullifier, row.spendingTxid]

/-- Every ciphertext the tables hold. -/
def EncryptedTables.cells (tables : EncryptedTables C) : List C :=
  tables.notes.flatMap EncryptedNote.cells ++
    tables.walletSecrets.flatMap EncryptedWalletSecret.cells ++
    tables.memos.map EncryptedMemo.memo ++
    tables.accountKeys.flatMap EncryptedAccountKey.cells ++
    tables.paymentDisclosures.map EncryptedDisclosure.payload ++
    tables.frontierSnapshots.map EncryptedFrontier.frontier ++
    tables.outgoingTransactionIntents.flatMap EncryptedIntent.cells ++
    tables.unlinkedSpendNullifiers.flatMap EncryptedUnlinkedSpend.cells

end Cells

end StashiWallet
