import Mathlib.Tactic.ByContra

/-!
# Authenticated encryption and password hashes

An authenticated cipher seen from its users: what was encrypted under a key decrypts under
that key to itself, and a ciphertext that decrypts under one key decrypts under no other.
Nonces are left out; nothing that is read back depends on them.

A store that changes its key decrypts every ciphertext and encrypts it again. `reencrypt` is
that step for one ciphertext, and the two lemmas about it are what the change of a whole
store rests on: what was changed reads under the new key as it did under the old one, and
what was left out reads as nothing.

A password hasher is seen from its users as well: what it stores of a password verifies for that
password and for no other. Salts are left out, so that a password has one hash.
-/

/-- An authenticated cipher with keys `K`, ciphertexts `C` and messages `M`. -/
structure Aead (K C M : Type) where
  encrypt : K → M → C
  decrypt : K → C → Option M
  decrypt_encrypt : ∀ key message, decrypt key (encrypt key message) = some message
  decrypt_other : ∀ {key other ciphertext message}, decrypt key ciphertext = some message →
    other ≠ key → decrypt other ciphertext = none

namespace Aead

variable {K C M : Type} (aead : Aead K C M)

/-- A ciphertext moved from one key to another; nothing if it does not decrypt. -/
def reencrypt (old new : K) (ciphertext : C) : Option C :=
  (aead.decrypt old ciphertext).map (aead.encrypt new)

variable {aead}

theorem decrypt_of_reencrypt {old new : K} {ciphertext moved : C}
    (h : aead.reencrypt old new ciphertext = some moved) :
    aead.decrypt new moved = aead.decrypt old ciphertext := by
  obtain ⟨message, hmessage, rfl⟩ := Option.map_eq_some_iff.mp h
  rw [aead.decrypt_encrypt, hmessage]

/-- Left as it is, a ciphertext reads under another key as before only if it is the same
key. -/
theorem decrypt_eq_iff {old new : K} {ciphertext : C} {message : M}
    (h : aead.decrypt old ciphertext = some message) :
    aead.decrypt new ciphertext = aead.decrypt old ciphertext ↔ new = old := by
  constructor
  · intro heq
    by_contra hne
    rw [aead.decrypt_other h hne, h] at heq
    cases heq
  · rintro rfl
    rfl

end Aead

/-- A password hasher: a stored string verifies for the passwords it is the hash of, and no two
passwords have the same hash. -/
structure PasswordHasher where
  hash : String → String
  verify : String → String → Bool
  verify_iff : ∀ {stored password}, verify stored password = true ↔ stored = hash password
  hash_injective : Function.Injective hash

namespace PasswordHasher

@[simp]
theorem verify_hash {hasher : PasswordHasher} {password other : String} :
    hasher.verify (hasher.hash password) other = true ↔ password = other :=
  hasher.verify_iff.trans hasher.hash_injective.eq_iff

/-- Hashes that show their password behind a label. -/
def labelled : PasswordHasher where
  hash password := "$" ++ password
  verify stored password := stored == "$" ++ password
  verify_iff := beq_iff_eq
  hash_injective := fun _ _ h => String.append_right_inj _ |>.mp h

end PasswordHasher
