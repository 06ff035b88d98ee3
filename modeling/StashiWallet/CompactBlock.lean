import StashiWallet.Models

/-!
# Compact blocks and decrypted notes

The blocks the light server streams, and the notes trial decryption finds in them.
-/

namespace StashiWallet

structure CompactSaplingSpend where
  nf : Bytes
deriving DecidableEq, Repr

structure CompactSaplingOutput where
  cmu : Bytes
  ephemeralKey : Bytes
  ciphertext : Bytes
deriving DecidableEq, Repr

structure CompactIronwoodAction where
  nullifier : Bytes
  cmx : Bytes
  ephemeralKey : Bytes
  encCiphertext : Bytes
  outCiphertext : Bytes
deriving DecidableEq, Repr

structure CompactTx where
  index : Option Nat
  hash : Bytes
  fee : Option Nat
  spends : List CompactSaplingSpend
  outputs : List CompactSaplingOutput
  actions : List CompactIronwoodAction
deriving DecidableEq, Repr

structure CompactBlockData where
  protoVersion : Nat
  height : Nat
  hash : Bytes
  prevHash : Bytes
  time : Nat
  header : Bytes
  transactions : List CompactTx
deriving DecidableEq, Repr

/-- `DecryptedNote`, the fields that are stored or that decide what is stored. -/
structure DecryptedNote where
  noteType : NoteType
  height : Nat
  txid : Bytes
  txHash : Bytes
  outputIndex : Nat
  value : Nat
  commitment : Bytes
  nullifier : Bytes
  memoBytes : Option Bytes
  keyId : Option Int
  diversifier : Bytes
  noteBytes : Bytes
  position : Option Nat
deriving DecidableEq, Repr

end StashiWallet
