import Mathlib.Data.List.Infix
import StashiWallet.ByteOrder
import StashiWallet.Models
import StashiWallet.Sql

/-!
# A database, its salt and its sealed key

An encrypted database comes with two more files: the salt its key is derived with, and the key
itself, sealed by the platform's keystore. Nothing commits the three together.
`open_encrypted_db_with_migration` creates or completes them, and moves a database of an earlier
version, which has no salt, to a derived key.

The call is a list of writes and a result. A file is written byte by byte, so a write that is
stopped leaves a beginning of it; changing the key of a database and creating one are single
writes. A call that is stopped has done the first `k` writes of its list. An error of the file
system names what failed.
-/

namespace StashiWallet

/-! ## Sealed keys -/

inductive EncryptionAlgorithm where
  | aesGcm
  | chaCha20Poly1305
deriving DecidableEq, Repr

structure SealedKey where
  encryptedKey : Bytes
  keyId : String
  algorithm : EncryptionAlgorithm
deriving DecidableEq

/-- The lengths fit the fields they are stored in. -/
structure SealedKey.Fits (sealedKey : SealedKey) : Prop where
  keyId : sealedKey.keyId.toByteArray.data.toList.length < 4294967296
  encryptedKey : sealedKey.encryptedKey.length < 4294967296

/-- `(value as u32).to_le_bytes()`. -/
def u32ToLeBytes (value : Nat) : Bytes :=
  [value.toUInt8, (value / 256).toUInt8, (value / 65536).toUInt8, (value / 16777216).toUInt8]

def EncryptionAlgorithm.code : EncryptionAlgorithm → UInt8
  | .aesGcm => 0
  | .chaCha20Poly1305 => 1

def SealedKey.serialize (sealedKey : SealedKey) : Bytes :=
  let keyId := sealedKey.keyId.toByteArray.data.toList
  [1, sealedKey.algorithm.code] ++ u32ToLeBytes keyId.length ++ keyId ++
    u32ToLeBytes sealedKey.encryptedKey.length ++ sealedKey.encryptedKey

/-- `take_exact`, on the bytes that are left. -/
def takeExact (length : Nat) (data : Bytes) : Except String (Bytes × Bytes) :=
  if data.length < length then .error "Truncated sealed key data"
  else .ok (data.take length, data.drop length)

def takeU32 (data : Bytes) : Except String (Nat × Bytes) := do
  let (bytes, rest) ← takeExact 4 data
  return (ByteOrder.value bytes, rest)

def EncryptionAlgorithm.ofCode (code : UInt8) : Except String EncryptionAlgorithm :=
  if code = 0 then .ok .aesGcm
  else if code = 1 then .ok .chaCha20Poly1305
  else .error "Unknown algorithm"

def stringFromUtf8 (bytes : Bytes) : Except String String :=
  match String.fromUTF8? ⟨bytes.toArray⟩ with
  | some string => .ok string
  | none => .error "Invalid key ID"

/-- A check that ends with an error. -/
def ensure (condition : Prop) [Decidable condition] (message : String) : Except String Unit :=
  if condition then .ok () else .error message

def SealedKey.deserialize (data : Bytes) : Except String SealedKey := do
  ensure (10 ≤ data.length) "Invalid sealed key data"
  let (version, data) ← takeExact 1 data
  ensure (version = [1]) "Unknown sealed key version"
  let (code, data) ← takeExact 1 data
  let algorithm ← EncryptionAlgorithm.ofCode (code.headD 0)
  let (keyIdLength, data) ← takeU32 data
  let (keyIdBytes, data) ← takeExact keyIdLength data
  let keyId ← stringFromUtf8 keyIdBytes
  let (keyLength, data) ← takeU32 data
  let (encryptedKey, data) ← takeExact keyLength data
  ensure (data = []) "Trailing sealed key data"
  return ⟨encryptedKey, keyId, algorithm⟩

/-! ## The files -/

inductive KeystoreResult (F : Type) where
  | success (key : F)
  | notAvailable
  | cancelled
  | authFailed
  | error (message : String)

/-- What the platform's keystore answers: a sealed key or none, and what a sealed key holds. -/
structure PlatformKeystore (F : Type) where
  sealKey : F → Option SealedKey
  unsealKey : SealedKey → KeystoreResult F
  fits : ∀ {key sealedKey}, sealKey key = some sealedKey → sealedKey.Fits

/-- A database under a key, the salt file and the file with the sealed key. -/
structure KeyFiles (F D : Type) where
  database : Option (F × D)
  salt : Option Bytes
  sealedKey : Option Bytes
deriving DecidableEq

/-- The keys of a passphrase: the one a salt gives, and the one of earlier versions. -/
structure DbKeys (F : Type) where
  derive : Bytes → F
  legacy : Option F

/-- What one call of `open_encrypted_db_with_migration` meets: the salt it generates, the
keystore if there is one, and the writes that fail. A file write that fails has written some
beginning of the file, or not even created it. -/
structure OpenCall (F : Type) where
  newSalt : Bytes
  newSalt_length : newSalt.length = 32
  keystore : Option (PlatformKeystore F)
  saltFault : Option Nat
  restoreFails : Bool
  sealFault : Option Nat

inductive FileWrite (F : Type) where
  | rekey (key : F)
  | create (key : F)
  | salt (bytes : Bytes)
  | sealedKey (bytes : Bytes)

section Writes

variable {F D : Type}

/-- The effect of a write; a database is created empty. -/
def FileWrite.apply (empty : D) (files : KeyFiles F D) : FileWrite F → KeyFiles F D
  | .rekey key => { files with database := files.database.map (fun db => (key, db.2)) }
  | .create key => { files with database := some (key, empty) }
  | .salt bytes => { files with salt := some bytes }
  | .sealedKey bytes => { files with sealedKey := some bytes }

def KeyFiles.after (empty : D) (writes : List (FileWrite F)) (files : KeyFiles F D) :
    KeyFiles F D :=
  writes.foldl (FileWrite.apply empty) files

/-- The contents of the database; those of a new one where there is none. -/
def KeyFiles.contents (empty : D) (files : KeyFiles F D) : D :=
  (files.database.map Prod.snd).getD empty

/-- The states of a file while `fs::write` fills it, and whether it comes to the end. -/
def fsWrite (fault : Option Nat) (data : Bytes) : List Bytes × Bool :=
  match fault with
  | none => (data.inits, true)
  | some count => (data.inits.dropLast.take count, false)

end Writes

/-! ## The call -/

section Open

variable {F D : Type} [DecidableEq F]

def loadSalt (data : Bytes) : Except String Bytes :=
  if data.length = 32 then .ok data else .error "Invalid salt length"

def tryUnsealDbKey (keystore : Option (PlatformKeystore F)) (sealedKey : SealedKey) :
    Except String (Option F) :=
  match keystore with
  | none => .ok none
  | some keystore =>
    match keystore.unsealKey sealedKey with
    | .success key => .ok (some key)
    | .notAvailable => .ok none
    | .cancelled => .error "Keystore unlock cancelled"
    | .authFailed => .error "Keystore authentication failed"
    | .error message => .error s!"Keystore error: {message}"

/-- `load_sealed_key`, and `try_unseal_db_key` on what it finds. -/
def KeyFiles.unsealed (keystore : Option (PlatformKeystore F)) (files : KeyFiles F D) :
    Except String (Option F) :=
  match files.sealedKey with
  | none => .ok none
  | some data => do tryUnsealDbKey keystore (← SealedKey.deserialize data)

/-- `maybe_store_sealed_db_key`: a sealed key that is there is left alone. -/
def KeyFiles.maybeStoreSealedDbKey (call : OpenCall F) (key : F) (files : KeyFiles F D) :
    List (FileWrite F) :=
  match call.keystore with
  | none => []
  | some keystore =>
    if files.sealedKey.isSome then []
    else match keystore.sealKey key with
      | none => []
      | some sealedKey =>
        (fsWrite call.sealFault sealedKey.serialize).1.map FileWrite.sealedKey

/-- `Database::open`: creates the database where there is none; otherwise the key has to fit. -/
def KeyFiles.openDatabase (key : F) (files : KeyFiles F D) : Option (List (FileWrite F)) :=
  match files.database with
  | none => some [.create key]
  | some (stored, _) => if stored = key then some [] else none

/-- The branch of `open_encrypted_db_with_migration` for files with a salt. -/
def KeyFiles.openSalted (keys : DbKeys F) (call : OpenCall F) (salt : Bytes)
    (files : KeyFiles F D) : List (FileWrite F) × Except String F :=
  let derived := keys.derive salt
  match files.unsealed call.keystore with
  | .error message => ([], .error message)
  | .ok unsealed =>
    let key := unsealed.getD derived
    match files.openDatabase key with
    | some writes => (writes ++ files.maybeStoreSealedDbKey call key, .ok key)
    | none =>
      -- a sealed key that does not fit is no reason to give up
      match files.openDatabase derived with
      | some writes => (writes ++ files.maybeStoreSealedDbKey call derived, .ok derived)
      | none => ([], .error "Database encryption verification failed")

/-- `open_encrypted_db_with_migration`. -/
def KeyFiles.openEncryptedDb (keys : DbKeys F) (call : OpenCall F) (files : KeyFiles F D) :
    List (FileWrite F) × Except String F :=
  match files.salt with
  | some data =>
    match loadSalt data with
    | .error message => ([], .error message)
    | .ok salt => files.openSalted keys call salt
  | none =>
    let newKey := keys.derive call.newSalt
    let (states, written) := fsWrite call.saltFault call.newSalt
    let saltWrites := states.map FileWrite.salt
    match files.database with
    | some (stored, _) =>
      match keys.legacy with
      | none => ([], .error "Legacy key not available")
      | some legacy =>
        if stored ≠ legacy then ([], .error "Database encryption verification failed")
        else if written then
          (.rekey newKey :: saltWrites ++ files.maybeStoreSealedDbKey call newKey, .ok newKey)
        else
          (.rekey newKey :: saltWrites ++ (if call.restoreFails then [] else [.rekey legacy]),
            .error "Failed to write the salt")
    | none =>
      if written then
        (saltWrites ++ [.create newKey] ++ files.maybeStoreSealedDbKey call newKey, .ok newKey)
      else (saltWrites, .error "Failed to write the salt")

end Open

end StashiWallet
