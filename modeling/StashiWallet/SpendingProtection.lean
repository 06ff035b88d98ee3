import StashiWallet.Aead
import StashiWallet.Models
import StashiWallet.Sql

/-!
# Envelopes of spending material

Spending keys of a protected wallet are wrapped a second time, by a key that is in memory only
while the wallet's signing session is unlocked. An envelope names its wallet: the magic bytes, the
length of the wallet id, the id, the ciphertext. A value that does not start with the magic bytes
was never wrapped and is its own content.
-/

namespace StashiWallet

/-- `MasterKey::encrypt` and `decrypt`; a ciphertext starts with its version. -/
structure BlobCipher (K : Type) extends Aead K Bytes Bytes where
  encrypt_ne_nil : ∀ key message, encrypt key message ≠ []

inductive KeyError where
  | validation (message : String)
  | encryption (message : String)
  | notFound (message : String)
  | storage (error : StorageError)
deriving DecidableEq, Repr

/-- `PWSK1`. -/
def ENVELOPE_MAGIC : Bytes := [80, 87, 83, 75, 49]

/-- The keys of the unlocked signing sessions. -/
abbrev Sessions (K : Type) : Type := String → Option K

section Envelopes

variable {K : Type} (cipher : BlobCipher K) (sessions : Sessions K)

def asBytes (text : String) : Bytes := text.toUTF8.data.toList

def fromUtf8 (bytes : Bytes) : Option String := String.fromUTF8? ⟨bytes.toArray⟩

def protectWithKey (walletId : String) (key : K) (plaintext : Bytes) : Except KeyError Bytes :=
  let walletBytes := asBytes walletId
  if walletBytes.length ≤ 65535 then
    .ok (ENVELOPE_MAGIC ++
      [UInt8.ofNat (walletBytes.length % 256), UInt8.ofNat (walletBytes.length / 256)] ++
      walletBytes ++ cipher.encrypt key plaintext)
  else .error (.validation "wallet id is too long")

def protectForActiveSession (walletId : String) (plaintext : Bytes) : Except KeyError Bytes :=
  match sessions walletId with
  | none => .error (.encryption ("ERR_SIGNING_SESSION_LOCKED: " ++
      s!"wallet {walletId} must be unlocked before changing spending keys"))
  | some key => protectWithKey cipher walletId key plaintext

/-- `reveal_for_active_session`; nothing while the wallet of the envelope is locked. -/
def revealForActiveSession (value : Bytes) : Except KeyError (Option Bytes) :=
  if !ENVELOPE_MAGIC.isPrefixOf value then .ok (some value)
  else if value.length < 7 then .error (.encryption "truncated spending-key envelope")
  else
    let walletLen := (value.getD 5 0).toNat + 256 * (value.getD 6 0).toNat
    let ciphertextStart := 7 + walletLen
    if value.length ≤ ciphertextStart then .error (.encryption "invalid spending-key envelope")
    else
      match fromUtf8 ((value.drop 7).take walletLen) with
      | none => .error (.encryption "invalid wallet id in spending-key envelope")
      | some walletId =>
        match sessions walletId with
        | none => .ok none
        | some key =>
          match cipher.decrypt key (value.drop ciphertextStart) with
          | none => .error (.encryption "Failed to decrypt data")
          | some plaintext => .ok (some plaintext)

variable {cipher sessions}

theorem fromUtf8_asBytes (text : String) : fromUtf8 (asBytes text) = some text := by
  unfold fromUtf8 asBytes String.fromUTF8?
  rw [String.toUTF8_eq_toByteArray]
  exact dif_pos text.isValidUTF8

/-- A length of an id as it is read back. -/
theorem readLength {length : Nat} (hfits : length ≤ 65535) :
    (UInt8.ofNat (length % 256)).toNat + 256 * (UInt8.ofNat (length / 256)).toNat = length := by
  rw [UInt8.toNat_ofNat', UInt8.toNat_ofNat']
  omega

/-- What an envelope shows: its content to the session of its wallet, nothing to others. -/
theorem revealForActiveSession_envelope {walletId : String} {key : K} {plaintext envelope : Bytes}
    (h : protectWithKey cipher walletId key plaintext = .ok envelope) :
    revealForActiveSession cipher sessions envelope =
      match sessions walletId with
      | none => .ok none
      | some session =>
        match cipher.decrypt session (cipher.encrypt key plaintext) with
        | none => .error (.encryption "Failed to decrypt data")
        | some content => .ok (some content) := by
  unfold protectWithKey at h
  by_cases hfits : (asBytes walletId).length ≤ 65535
  · rw [if_pos hfits] at h
    have henvelope : envelope = 80 :: 87 :: 83 :: 75 :: 49 ::
        UInt8.ofNat ((asBytes walletId).length % 256) ::
        UInt8.ofNat ((asBytes walletId).length / 256) ::
        (asBytes walletId ++ cipher.encrypt key plaintext) := (Except.ok.inj h).symm
    have hcipher : 0 < (cipher.encrypt key plaintext).length :=
      List.length_pos_iff.mpr (cipher.encrypt_ne_nil key plaintext)
    have hmagic : ENVELOPE_MAGIC.isPrefixOf envelope = true := by
      rw [henvelope]
      rfl
    have hlength : envelope.length =
        7 + ((asBytes walletId).length + (cipher.encrypt key plaintext).length) := by
      rw [henvelope, ← List.length_append]
      simp only [List.length_cons]
      omega
    have hwalletLen : (envelope.getD 5 0).toNat + 256 * (envelope.getD 6 0).toNat =
        (asBytes walletId).length := by
      rw [henvelope]
      exact readLength hfits
    have hrest : envelope.drop 7 = asBytes walletId ++ cipher.encrypt key plaintext := by
      rw [henvelope]
      rfl
    have hciphertext : envelope.drop (7 + (asBytes walletId).length) =
        cipher.encrypt key plaintext := by
      rw [← List.drop_drop, hrest, List.drop_left]
    unfold revealForActiveSession
    rw [hmagic, Bool.not_true, if_neg Bool.false_ne_true, if_neg (by omega)]
    dsimp only
    rw [hwalletLen, if_neg (by omega), hrest, List.take_left, fromUtf8_asBytes, hciphertext]
  · rw [if_neg hfits] at h
    cases h

/-- **An envelope opens to what was put in**, whatever bytes these are. -/
theorem reveal_of_unlocked {walletId : String} {key : K} {plaintext envelope : Bytes}
    (h : protectWithKey cipher walletId key plaintext = .ok envelope)
    (hsession : sessions walletId = some key) :
    revealForActiveSession cipher sessions envelope = .ok (some plaintext) := by
  rw [revealForActiveSession_envelope h, hsession]
  dsimp only
  rw [cipher.decrypt_encrypt]

theorem reveal_of_locked {walletId : String} {key : K} {plaintext envelope : Bytes}
    (h : protectWithKey cipher walletId key plaintext = .ok envelope)
    (hsession : sessions walletId = none) :
    revealForActiveSession cipher sessions envelope = .ok none := by
  rw [revealForActiveSession_envelope h, hsession]

end Envelopes

end StashiWallet
