import Mathlib.Data.List.Perm.Basic
import Mathlib.Data.Int.ConditionallyCompleteOrder
import StashiWallet.KeyImports

/-!
# Sequences of key imports

What a sequence of imports leaves behind. The spendability row carries the lowest height any
of them asked for, counts those that asked, and is marked for a rescan. Stored keys stay, with
their secrets, and a birthday that was known does not rise.

The last part compares orders. What an import asks for depends on the keys it finds, so it
depends on the imports before it; the floor does not. Along a sequence, whatever makes an import
ask for something else than it would have asked at the start has already lowered the floor far
enough (`KeysSince`).
-/

namespace StashiWallet

/-! ## The two ways to import a key -/

/-- A decoded group, or a verified key of one pool. -/
inductive ImportKind where
  | group
  | verified
deriving DecidableEq

section Kinds

variable (material : IronwoodMaterial)

def ImportKind.matchesKey : ImportKind → AccountKey → AccountKeyRow → Bool
  | .group => AccountKey.matchesGroup material
  | .verified => AccountKey.matchesVerified material

/-- What is written over a stored key. -/
def ImportKind.mergeKey : ImportKind → AccountKey → AccountKeyRow → AccountKey
  | .group => AccountKey.mergeGroup material
  | .verified => AccountKey.mergeVerified material

/-- Whether a replay is recorded for a stored key. -/
def ImportKind.recordsOver : ImportKind → AccountKey → AccountKeyRow → Bool
  | .group => fun _ _ => true
  | .verified => AccountKey.scanChanged material

/-- The stored key an import finds. -/
def ImportKind.findKey (kind : ImportKind) (key : AccountKey) (keys : AccountKeys) :
    Option AccountKeyRow :=
  (keys.ofAccount key.accountId).find? (kind.matchesKey material key)

def ImportKind.storeKey (kind : ImportKind) (key : AccountKey) (keys : AccountKeys) :
    AccountKeys :=
  match kind.findKey material key keys with
  | some existing => keys.update existing.id (kind.mergeKey material key existing)
  | none => keys.insert key

/-- The birthday for which an import records a replay, if it records one. -/
def ImportKind.asksFor (kind : ImportKind) (key : AccountKey) :
    Option AccountKeyRow → Option Int
  | some existing =>
    if kind.recordsOver material key existing then some (key.effectiveBirthday existing) else none
  | none => some key.birthdayHeight

end Kinds

/-- The kind and the key of an import. -/
def ImportCall.imports : ImportCall → Option (ImportKind × AccountKey)
  | .migrate .. => none
  | .importGroup key .. => some (.group, key)
  | .importVerified key .. => some (.verified, key)

variable {material : IronwoodMaterial} {db : ImportDb}

/-- The row after a call that records the given birthday, or none. -/
def RowAfter (recorded : Option Int) (before after : Option SpendabilityStateRow) : Prop :=
  match recorded with
  | none => after = before
  | some birthday => ∃ row now reasonCode, before = some row ∧
      after = some (row.requireReplay now reasonCode birthday)

variable {after : ImportDb} {now reasonCode : String} {birthday : Int}

theorem requireReplay_eq_ok (h : db.requireReplay now reasonCode birthday = .ok after) :
    ∃ row, db.spendabilityState = some row ∧
      after = { db with spendabilityState := some (row.requireReplay now reasonCode birthday) } := by
  unfold ImportDb.requireReplay at h
  split at h
  · cases h
  · rename_i row hrow
    cases h
    exact ⟨row, hrow, rfl⟩

/-- Both kinds merge birthdays in the same way. -/
theorem ImportKind.mergeKey_birthdayHeight (kind : ImportKind) (key : AccountKey)
    (existing : AccountKeyRow) :
    (kind.mergeKey material key existing).birthdayHeight = key.effectiveBirthday existing := by
  cases kind with
  | verified => rfl
  | group =>
    show (if 0 < existing.birthdayHeight then min key.birthdayHeight existing.birthdayHeight
      else key.birthdayHeight) = _
    unfold AccountKey.effectiveBirthday
    by_cases h : 0 < existing.birthdayHeight
    · rw [if_pos h, if_neg (not_le.mpr h), min_comm]
    · rw [if_neg h, if_pos (not_lt.mp h)]

theorem AccountKey.effectiveBirthday_of_pos {key : AccountKey} {existing : AccountKeyRow}
    (h : 0 < existing.birthdayHeight) :
    key.effectiveBirthday existing = min existing.birthdayHeight key.birthdayHeight :=
  if_neg (not_le.mpr h)

variable {key : AccountKey}

theorem AccountKey.effectiveBirthday_pos (existing : AccountKeyRow) (h : 0 < key.birthdayHeight) :
    0 < key.effectiveBirthday existing := by
  unfold AccountKey.effectiveBirthday
  split
  · exact h
  · rename_i hexisting
    exact lt_min (not_le.mp hexisting) h

variable {existing : AccountKeyRow} {kind : ImportKind} {keys : AccountKeys}

/-- A found key belongs to the account and matches. -/
theorem ImportKind.findKey_eq_some (h : kind.findKey material key keys = some existing) :
    existing ∈ keys.rows ∧ existing.accountId = key.accountId ∧
      kind.matchesKey material key existing = true := by
  have hmem := List.mem_of_find?_eq_some h
  have hmatch := List.find?_some h
  unfold AccountKeys.ofAccount at hmem
  simp only [List.mem_filter, beq_iff_eq] at hmem
  exact ⟨hmem.1, hmem.2, hmatch⟩

/-- A merge keeps whose key it is, its type and its secrets. -/
theorem ImportKind.mergeKey_keeps (haccount : existing.accountId = key.accountId)
    (hmatch : kind.matchesKey material key existing = true) :
    (kind.mergeKey material key existing).accountId = existing.accountId ∧
      (kind.mergeKey material key existing).keyType = existing.keyType ∧
      (kind.mergeKey material key existing).saplingExtsk = existing.saplingExtsk ∧
      (kind.mergeKey material key existing).orchardExtsk = existing.orchardExtsk := by
  cases kind with
  | verified => exact ⟨rfl, rfl, rfl, rfl⟩
  | group =>
    have hsapling : existing.saplingExtsk = key.saplingExtsk := by
      have hboth : (existing.saplingExtsk == key.saplingExtsk &&
        material.spendingMatches existing.orchardExtsk key.orchardExtsk) = true := hmatch
      rw [Bool.and_eq_true, beq_iff_eq] at hboth
      exact hboth.1
    exact ⟨haccount.symm, rfl, hsapling.symm, rfl⟩

/-! ## What a call does -/

/-- What a call that succeeds does to the keys, and which birthday it records. -/
def CallEffect (material : IronwoodMaterial) (recorded : Option Int) (before after : ImportDb) :
    Option (ImportKind × AccountKey) → Prop
  | none => after.keys = before.keys ∧ after.importedKeyRecovery = true ∧
      recorded = if before.importedKeyRecovery then none else before.keys.importedBirthday
  | some (kind, key) => 0 < key.birthdayHeight ∧
      after.keys = kind.storeKey material key before.keys ∧
      after.importedKeyRecovery = before.importedKeyRecovery ∧
      recorded = kind.asksFor material key (kind.findKey material key before.keys)

variable {recorded : Option Int}

theorem migrate_eq_ok {now : String} (h : db.migrateBody now = .ok (recorded, after)) :
    RowAfter recorded db.spendabilityState after.spendabilityState ∧
      CallEffect material recorded db after none := by
  unfold ImportDb.migrateBody at h
  split at h
  · rename_i hdone
    cases h
    exact ⟨rfl, rfl, hdone, (if_pos hdone).symm⟩
  · rename_i hdone
    split at h
    · rename_i hnone
      cases h
      exact ⟨rfl, rfl, rfl, by rw [if_neg hdone, hnone]⟩
    · rename_i birthday hbirthday
      obtain ⟨replayed, hreplayed, h⟩ := bind_eq_ok h
      obtain ⟨row, hrow, rfl⟩ := requireReplay_eq_ok hreplayed
      cases h
      exact ⟨⟨row, now, _, hrow, rfl⟩, rfl, rfl, by rw [if_neg hdone, hbirthday]⟩

/-- The id of the key an import stores. -/
def ImportKind.storedId (material : IronwoodMaterial) (kind : ImportKind) (key : AccountKey)
    (keys : AccountKeys) : Nat :=
  match kind.findKey material key keys with
  | some existing => existing.id
  | none => keys.nextId

theorem importGroupBody_eq_ok {id : Nat}
    (h : db.importGroupBody material key now reasonCode = .ok (id, birthday, after)) :
    RowAfter (some birthday) db.spendabilityState after.spendabilityState ∧
      after.keys = ImportKind.group.storeKey material key db.keys ∧
      after.importedKeyRecovery = db.importedKeyRecovery ∧
      some birthday = ImportKind.group.asksFor material key
        (ImportKind.group.findKey material key db.keys) ∧
      id = ImportKind.group.storedId material key db.keys := by
  have hfind : ImportKind.group.findKey material key db.keys =
      (db.keys.ofAccount key.accountId).find? (key.matchesGroup material) := rfl
  unfold ImportDb.importGroupBody at h
  unfold ImportKind.storeKey ImportKind.storedId
  rw [hfind]
  split at h
  · rename_i existing hexisting
    obtain ⟨replayed, hreplayed, h⟩ := bind_eq_ok h
    obtain ⟨row, hrow, rfl⟩ := requireReplay_eq_ok hreplayed
    cases h
    rw [hexisting]
    have hbirthday := @ImportKind.mergeKey_birthdayHeight material .group key existing
    exact ⟨⟨row, now, reasonCode, hrow, rfl⟩, rfl, rfl, congrArg some hbirthday, rfl⟩
  · rename_i hnone
    obtain ⟨replayed, hreplayed, h⟩ := bind_eq_ok h
    obtain ⟨row, hrow, rfl⟩ := requireReplay_eq_ok hreplayed
    cases h
    rw [hnone]
    exact ⟨⟨row, now, reasonCode, hrow, rfl⟩, rfl, rfl, rfl, rfl⟩

/-- The key half of a verified import stores the key as the others do. -/
theorem storeVerifiedKey_eq (key : AccountKey) :
    (db.storeVerifiedKey material key).2 =
        { db with keys := ImportKind.verified.storeKey material key db.keys } ∧
      (if (db.storeVerifiedKey material key).1.keyScanChanged then
          some (db.storeVerifiedKey material key).1.effectiveBirthday else none) =
        ImportKind.verified.asksFor material key
          (ImportKind.verified.findKey material key db.keys) ∧
      (db.storeVerifiedKey material key).1.keyId =
        ImportKind.verified.storedId material key db.keys := by
  have hfind : ImportKind.verified.findKey material key db.keys =
      (db.keys.ofAccount key.accountId).find? (key.matchesVerified material) := rfl
  unfold ImportDb.storeVerifiedKey ImportKind.storeKey ImportKind.storedId
  rw [hfind]
  cases (db.keys.ofAccount key.accountId).find? (key.matchesVerified material) with
  | some existing => exact ⟨rfl, rfl, rfl⟩
  | none => exact ⟨rfl, rfl, rfl⟩

variable {address : Address} {index : Index88}

/-- The address half leaves the other tables alone. -/
theorem storeVerifiedAddress_eq_ok {keyId : Nat}
    (h : db.storeVerifiedAddress keyId key address index = .ok after) :
    after.keys = db.keys ∧ after.spendabilityState = db.spendabilityState ∧
      after.importedKeyRecovery = db.importedKeyRecovery := by
  unfold ImportDb.storeVerifiedAddress at h
  dsimp only at h
  generalize (if key.saplingOnly = true then AddressType.sapling else AddressType.ironwood) =
    addressType at h
  split at h
  · split at h
    · cases h
    split at h
    · cases h
    split at h
    · obtain ⟨addresses, _, h⟩ := bind_eq_ok h
      cases h
      exact ⟨rfl, rfl, rfl⟩
    · cases h
      exact ⟨rfl, rfl, rfl⟩
  · obtain ⟨sequence, _, h⟩ := bind_eq_ok h
    obtain ⟨addresses, _, h⟩ := bind_eq_ok h
    cases h
    exact ⟨rfl, rfl, rfl⟩

variable {fault : Option ImportStep}

/-- A verified import that succeeds. -/
theorem importVerifiedBody_eq_ok {verified : VerifiedKey × Bool}
    (h : db.importVerifiedBody material key address index now reasonCode fault =
      (.ok verified, after)) :
    RowAfter (ImportKind.verified.asksFor material key
        (ImportKind.verified.findKey material key db.keys))
        db.spendabilityState after.spendabilityState ∧
      after.keys = ImportKind.verified.storeKey material key db.keys ∧
      after.importedKeyRecovery = db.importedKeyRecovery ∧
      (if verified.1.keyScanChanged then some verified.1.effectiveBirthday else none) =
        ImportKind.verified.asksFor material key
          (ImportKind.verified.findKey material key db.keys) ∧
      verified.1.keyId = ImportKind.verified.storedId material key db.keys := by
  obtain ⟨hstored, hasks, hid⟩ := @storeVerifiedKey_eq material db key
  unfold ImportDb.importVerifiedBody at h
  split at h
  · cases h
  cases hstore : db.storeVerifiedKey material key with
  | mk stage stored =>
    rw [hstore] at h hstored hasks hid
    dsimp only at h hstored hasks hid
    subst hstored
    split at h
    · cases h
    split at h
    · cases h
    · rename_i filed hfiled
      obtain ⟨hkeys, hrow, hmarker⟩ := storeVerifiedAddress_eq_ok hfiled
      split at h
      · cases h
      split at h
      · cases h
      · rename_i recorded hrecorded
        split at h
        · cases h
        · cases h
          rw [← hasks]
          dsimp only
          split at hrecorded
          · rename_i hchanged
            rw [if_pos hchanged]
            obtain ⟨row, hbefore, rfl⟩ := requireReplay_eq_ok hrecorded
            exact ⟨⟨row, now, reasonCode, by rw [← hbefore, hrow], rfl⟩, hkeys, hmarker, rfl, hid⟩
          · rename_i hchanged
            rw [if_neg hchanged]
            cases hrecorded
            exact ⟨hrow, hkeys, hmarker, rfl, hid⟩

/-- A verified import that fails has stored the key, or nothing. -/
theorem importVerifiedBody_eq_error {error : StorageError}
    (h : db.importVerifiedBody material key address index now reasonCode fault =
      (.error error, after)) :
    after.spendabilityState = db.spendabilityState ∧
      (after.keys = db.keys ∨ after.keys = ImportKind.verified.storeKey material key db.keys) := by
  obtain ⟨hstored, -⟩ := @storeVerifiedKey_eq material db key
  unfold ImportDb.importVerifiedBody at h
  split at h
  · cases h
    exact ⟨rfl, Or.inl rfl⟩
  cases hstore : db.storeVerifiedKey material key with
  | mk stage stored =>
    rw [hstore] at h hstored
    dsimp only at h hstored
    subst hstored
    split at h
    · cases h
      exact ⟨rfl, Or.inr rfl⟩
    split at h
    · cases h
      exact ⟨rfl, Or.inr rfl⟩
    · rename_i filed hfiled
      obtain ⟨hkeys, hrow, _⟩ := storeVerifiedAddress_eq_ok hfiled
      split at h
      · cases h
        exact ⟨hrow, Or.inr hkeys⟩
      split at h
      · cases h
        exact ⟨hrow, Or.inr hkeys⟩
      · rename_i recorded hrecorded
        split at h
        · rename_i hmissing
          cases h
          split at hrecorded
          · obtain ⟨row, _, rfl⟩ := requireReplay_eq_ok hrecorded
            cases hmissing
          · cases hrecorded
            exact ⟨hrow, Or.inr hkeys⟩
        · cases h

theorem verifyArguments_eq_ok (h : verifyArguments key address = .ok ()) :
    0 < key.birthdayHeight := by
  unfold verifyArguments at h
  by_contra hnot
  rw [if_pos (Or.inr (Or.inr (Or.inr (not_lt.mp hnot))))] at h
  cases h

/-- A group import is refused and leaves everything, or it is its body. -/
theorem importSpendingKeyWithRescan_cases {joined : Bool} {result : Except StorageError (Nat × Int)}
    (h : db.importSpendingKeyWithRescan material key now reasonCode joined fault =
      (result, after)) :
    (∃ error, result = .error error) ∧ after = db ∨
      0 < key.birthdayHeight ∧ ∃ id birthday, result = .ok (id, birthday) ∧
        db.importGroupBody material key now reasonCode = .ok (id, birthday, after) := by
  unfold ImportDb.importSpendingKeyWithRescan at h
  split at h
  · cases h
    exact Or.inl ⟨⟨_, rfl⟩, rfl⟩
  · rename_i hvalid
    simp only [Bool.not_eq_true', Bool.not_eq_false, AccountKey.validImport, Bool.and_eq_true,
      decide_eq_true_eq] at hvalid
    split at h
    · cases h
      exact Or.inl ⟨⟨_, rfl⟩, rfl⟩
    split at h
    · cases h
      exact Or.inl ⟨⟨_, rfl⟩, rfl⟩
    · rename_i hbody
      cases h
      exact Or.inr ⟨hvalid.1.1.1.2, _, _, rfl, hbody⟩

/-- A verified import is refused and leaves everything, or it is its body; one that fails counts
only inside an outer transaction. -/
theorem importVerifiedSpendingKey_cases {joined : Bool}
    {result : Except StorageError (VerifiedKey × Bool)}
    (h : db.importVerifiedSpendingKey material key address now reasonCode joined fault =
      (result, after)) :
    (∃ error, result = .error error) ∧ after = db ∨
      0 < key.birthdayHeight ∧ ∃ index,
        db.importVerifiedBody material key address index now reasonCode fault = (result, after) ∧
        ∀ error, result = .error error → joined = true := by
  unfold ImportDb.importVerifiedSpendingKey at h
  split at h
  · cases h
    exact Or.inl ⟨⟨_, rfl⟩, rfl⟩
  · cases h
    exact Or.inl ⟨⟨_, rfl⟩, rfl⟩
  · rename_i index hverified _
    split at h
    · cases h
      exact Or.inl ⟨⟨_, rfl⟩, rfl⟩
    split at h
    · rename_i hbody
      cases joined with
      | false =>
        cases h
        exact Or.inl ⟨⟨_, rfl⟩, rfl⟩
      | true =>
        cases h
        exact Or.inr ⟨verifyArguments_eq_ok hverified, index, hbody, fun _ _ => rfl⟩
    · rename_i hbody
      split at h
      · cases h
        exact Or.inl ⟨⟨_, rfl⟩, rfl⟩
      · cases h
        exact Or.inr ⟨verifyArguments_eq_ok hverified, index, hbody, nofun⟩

/-- **A call that succeeds** moves the spendability row by the birthday it records, if any, and has
the effect of its imports on the keys. -/
theorem call_eq_ok {call : ImportCall} {recorded : Option Int} {after : ImportDb}
    (h : db.call material call = (.ok recorded, after)) :
    RowAfter recorded db.spendabilityState after.spendabilityState ∧
      CallEffect material recorded db after call.imports := by
  cases call with
  | migrate now joined fault =>
    unfold ImportDb.call ImportDb.ensureImportedKeyReplayMigration at h
    dsimp only at h
    split at h
    · cases h
    split at h
    · cases h
    · rename_i hbody
      cases h
      exact migrate_eq_ok hbody
  | importGroup key now reasonCode joined fault =>
    unfold ImportDb.call at h
    dsimp only at h
    cases hresult : db.importSpendingKeyWithRescan material key now reasonCode joined fault with
    | mk result stored =>
      rw [hresult] at h
      rcases importSpendingKeyWithRescan_cases hresult with
        ⟨⟨error, rfl⟩, -⟩ | ⟨hpos, id, birthday, rfl, hbody⟩
      · cases h
      · cases h
        obtain ⟨hrow, hkeys, hmarker, hasks, -⟩ := importGroupBody_eq_ok hbody
        exact ⟨hrow, hpos, hkeys, hmarker, hasks⟩
  | importVerified key address now reasonCode joined fault =>
    unfold ImportDb.call at h
    dsimp only at h
    cases hresult : db.importVerifiedSpendingKey material key address now reasonCode joined fault
      with
    | mk result stored =>
      rw [hresult] at h
      cases result with
      | error error => cases h
      | ok verified =>
        cases h
        rcases importVerifiedSpendingKey_cases hresult with ⟨⟨_, hnone⟩, -⟩ | ⟨hpos, _, hbody, -⟩
        · cases hnone
        · obtain ⟨hrow, hkeys, hmarker, hasks, -⟩ := importVerifiedBody_eq_ok hbody
          dsimp only
          rw [hasks]
          exact ⟨hrow, hpos, hkeys, hmarker, rfl⟩

variable {call : ImportCall}

/-- **A call that fails** leaves the spendability row as it is. In a transaction of its own it
leaves everything, joined to another one it may have stored its key. -/
theorem call_eq_error {error : StorageError} (h : db.call material call = (.error error, after)) :
    after.spendabilityState = db.spendabilityState ∧ (call.joined = false → after = db) ∧
      (after.keys = db.keys ∨ ∃ kind key, 0 < key.birthdayHeight ∧
        after.keys = ImportKind.storeKey material kind key db.keys) := by
  cases call with
  | migrate now joined fault =>
    unfold ImportDb.call ImportDb.ensureImportedKeyReplayMigration at h
    dsimp only at h
    split at h
    · cases h
      exact ⟨rfl, fun _ => rfl, Or.inl rfl⟩
    split at h
    · cases h
      exact ⟨rfl, fun _ => rfl, Or.inl rfl⟩
    · cases h
  | importGroup key now reasonCode joined fault =>
    unfold ImportDb.call at h
    dsimp only at h
    cases hresult : db.importSpendingKeyWithRescan material key now reasonCode joined fault with
    | mk result stored =>
      rw [hresult] at h
      rcases importSpendingKeyWithRescan_cases hresult with
        ⟨⟨_, rfl⟩, rfl⟩ | ⟨-, id, birthday, rfl, -⟩
      · cases h
        exact ⟨rfl, fun _ => rfl, Or.inl rfl⟩
      · cases h
  | importVerified key address now reasonCode joined fault =>
    unfold ImportDb.call at h
    dsimp only at h
    cases hresult : db.importVerifiedSpendingKey material key address now reasonCode joined fault
      with
    | mk result stored =>
      rw [hresult] at h
      cases result with
      | ok verified => cases h
      | error error =>
        cases h
        rcases importVerifiedSpendingKey_cases hresult with ⟨-, rfl⟩ | ⟨hpos, _, hbody, hjoined⟩
        · exact ⟨rfl, fun _ => rfl, Or.inl rfl⟩
        · obtain ⟨hrow, hkeys⟩ := importVerifiedBody_eq_error hbody
          refine ⟨hrow, fun hnot => ?_, hkeys.imp_right fun hstored => ⟨.verified, key, hpos, hstored⟩⟩
          exact absurd (hnot.symm.trans (hjoined error rfl)) (by decide)

/-! ## The stored keys -/

/-- A stored key and what has become of it: the same key with the same secrets, and a birthday
that has not risen, if it was known. -/
structure KeyKept (before after : AccountKeyRow) : Prop where
  id : after.id = before.id
  accountId : after.accountId = before.accountId
  keyType : after.keyType = before.keyType
  saplingExtsk : after.saplingExtsk = before.saplingExtsk
  orchardExtsk : after.orchardExtsk = before.orchardExtsk
  birthday : 0 < before.birthdayHeight →
    0 < after.birthdayHeight ∧ after.birthdayHeight ≤ before.birthdayHeight

theorem KeyKept.refl (row : AccountKeyRow) : KeyKept row row :=
  ⟨rfl, rfl, rfl, rfl, rfl, fun h => ⟨h, le_rfl⟩⟩

theorem KeyKept.trans {a b c : AccountKeyRow} (hab : KeyKept a b) (hbc : KeyKept b c) :
    KeyKept a c where
  id := hbc.id.trans hab.id
  accountId := hbc.accountId.trans hab.accountId
  keyType := hbc.keyType.trans hab.keyType
  saplingExtsk := hbc.saplingExtsk.trans hab.saplingExtsk
  orchardExtsk := hbc.orchardExtsk.trans hab.orchardExtsk
  birthday ha := by
    obtain ⟨hb, hle⟩ := hab.birthday ha
    obtain ⟨hc, hle'⟩ := hbc.birthday hb
    exact ⟨hc, hle'.trans hle⟩

/-- The row an import writes over the key it found. -/
def ImportKind.mergedRow (material : IronwoodMaterial) (kind : ImportKind) (key : AccountKey)
    (existing : AccountKeyRow) : AccountKeyRow :=
  { kind.mergeKey material key existing with id := existing.id }

theorem ImportKind.mergedRow_kept {kind : ImportKind} {key : AccountKey}
    {existing : AccountKeyRow} (hpos : 0 < key.birthdayHeight)
    (haccount : existing.accountId = key.accountId)
    (hmatch : kind.matchesKey material key existing = true) :
    KeyKept existing (kind.mergedRow material key existing) := by
  obtain ⟨hid, htype, hsapling, horchard⟩ := mergeKey_keeps haccount hmatch
  refine ⟨rfl, hid, htype, hsapling, horchard, ?_⟩
  intro hbirthday
  show 0 < (kind.mergeKey material key existing).birthdayHeight ∧
    (kind.mergeKey material key existing).birthdayHeight ≤ existing.birthdayHeight
  rw [kind.mergeKey_birthdayHeight]
  refine ⟨key.effectiveBirthday_pos existing hpos, ?_⟩
  rw [AccountKey.effectiveBirthday_of_pos hbirthday]
  exact min_le_left _ _

/-- What an import does to the rows: the key found is rewritten, or a new one is added. -/
theorem ImportKind.storeKey_rows (kind : ImportKind) (key : AccountKey) (keys : AccountKeys) :
    match kind.findKey material key keys with
    | some existing => (kind.storeKey material key keys).rows = keys.rows.map (fun row =>
        if row = existing then kind.mergedRow material key existing else row)
    | none => (kind.storeKey material key keys).rows = keys.rows ++ [{ key with id := keys.nextId }]
    := by
  unfold ImportKind.storeKey
  cases hfind : kind.findKey material key keys with
  | none => rfl
  | some existing =>
    refine List.map_congr_left (fun row hrow => ?_)
    by_cases hsame : row = existing
    · subst hsame
      simp [ImportKind.mergedRow]
    · have hid : row.id ≠ existing.id :=
        fun hid => hsame (AutoTable.row_eq_of_id hrow (findKey_eq_some hfind).1 hid)
      simp [hsame, hid]

def KeysKept (before after : AccountKeys) : Prop :=
  ∀ row ∈ before.rows, ∃ row' ∈ after.rows, KeyKept row row'

theorem ImportKind.storeKey_kept (kind : ImportKind) (keys : AccountKeys)
    (hpos : 0 < key.birthdayHeight) : KeysKept keys (kind.storeKey material key keys) := by
  intro row hrow
  have hrows := @ImportKind.storeKey_rows material kind key keys
  cases hfind : kind.findKey material key keys with
  | none =>
    rw [hfind] at hrows
    exact ⟨row, by rw [hrows]; exact List.mem_append_left _ hrow, KeyKept.refl row⟩
  | some existing =>
    rw [hfind] at hrows
    obtain ⟨_, haccount, hmatch⟩ := findKey_eq_some hfind
    refine ⟨_, by rw [hrows]; exact List.mem_map_of_mem hrow, ?_⟩
    by_cases hsame : row = existing
    · rw [if_pos hsame, hsame]
      exact mergedRow_kept hpos haccount hmatch
    · rw [if_neg hsame]
      exact KeyKept.refl row

/-- A call keeps every stored key, whether it succeeds or fails. -/
theorem keysKept_after (db : ImportDb) (call : ImportCall) :
    KeysKept db.keys (db.after material call).keys := by
  have hrefl : KeysKept db.keys db.keys := fun row hrow => ⟨row, hrow, KeyKept.refl row⟩
  unfold ImportDb.after
  cases hcall : db.call material call with
  | mk result after =>
    cases result with
    | error error =>
      rcases (call_eq_error hcall).2.2 with hkeys | ⟨kind, key, hpos, hkeys⟩
      · rw [hkeys]
        exact hrefl
      · rw [hkeys]
        exact kind.storeKey_kept db.keys hpos
    | ok recorded =>
      have heffect := (call_eq_ok hcall).2
      cases himports : call.imports with
      | none =>
        rw [himports] at heffect
        rw [heffect.1]
        exact hrefl
      | some imported =>
        obtain ⟨kind, key⟩ := imported
        rw [himports] at heffect
        obtain ⟨hpos, hkeys, _, _⟩ := heffect
        rw [hkeys]
        exact kind.storeKey_kept db.keys hpos

theorem keysKept_run (db : ImportDb) (calls : List ImportCall) :
    KeysKept db.keys (Runs.run (ImportDb.after material) db calls).keys := by
  induction calls generalizing db with
  | nil => exact fun row hrow => ⟨row, hrow, KeyKept.refl row⟩
  | cons call rest ih =>
    intro row hrow
    obtain ⟨next, hnext, hkept⟩ := @keysKept_after material db call row hrow
    obtain ⟨last, hlast, hkept'⟩ := ih (db.after material call) next hnext
    exact ⟨last, hlast, hkept.trans hkept'⟩

/-! ## The spendability row -/

/-- The height from which a replay is pending; nothing is above every height. -/
def SpendabilityStateRow.replayFloor (row : SpendabilityStateRow) : WithTop Int :=
  if row.requiredRescanFromHeight = 0 then ⊤ else ((row.requiredRescanFromHeight : Int) : WithTop Int)

theorem SpendabilityStateRow.replayFloor_requireReplay {row : SpendabilityStateRow}
    (hpos : 0 < birthday) :
    (row.requireReplay now reasonCode birthday).replayFloor =
      min row.replayFloor (birthday : WithTop Int) := by
  unfold SpendabilityStateRow.replayFloor SpendabilityStateRow.requireReplay
  dsimp only
  have htoNat : ((birthday.toNat : Nat) : Int) = birthday := Int.toNat_of_nonneg hpos.le
  by_cases hlower : 0 < row.requiredRescanFromHeight ∧
      (row.requiredRescanFromHeight : Int) < birthday
  · have hzero : row.requiredRescanFromHeight ≠ 0 := by omega
    simp only [if_pos hlower, if_neg hzero]
    exact (min_eq_left (WithTop.coe_le_coe.mpr hlower.2.le)).symm
  · have hne : birthday.toNat ≠ 0 := by omega
    simp only [if_neg hlower, if_neg hne, htoNat]
    by_cases hzero : row.requiredRescanFromHeight = 0
    · rw [if_pos hzero]
      exact (min_eq_right le_top).symm
    · rw [if_neg hzero]
      exact (min_eq_right (WithTop.coe_le_coe.mpr (by omega))).symm

theorem importedBirthday_pos (h : keys.importedBirthday = some birthday) : 0 < birthday := by
  unfold AccountKeys.importedBirthday at h
  split at h
  · cases h
  · rename_i first rest hlist
    cases h
    have hall : ∀ b ∈ first :: rest, 0 < b := by
      intro b hb
      rw [← hlist] at hb
      obtain ⟨row, _, rfl⟩ := List.mem_map.mp hb
      split
      · assumption
      · exact Int.one_pos
    have hfold : ∀ (rest : List Int) (best : Int), 0 < best → (∀ b ∈ rest, 0 < b) →
        0 < rest.foldl min best := by
      intro rest
      induction rest with
      | nil => exact fun _ hbest _ => hbest
      | cons next rest ih =>
        intro best hbest hrest
        exact ih (min best next) (lt_min hbest (hrest next List.mem_cons_self))
          (fun b hb => hrest b (List.mem_cons_of_mem next hb))
    exact hfold rest first (hall first List.mem_cons_self)
      (fun b hb => hall b (List.mem_cons_of_mem first hb))

theorem ImportKind.asksFor_some (kind : ImportKind) (key : AccountKey)
    (existing : AccountKeyRow) :
    kind.asksFor material key (some existing) =
      if kind.recordsOver material key existing then some (key.effectiveBirthday existing)
      else none := rfl

theorem ImportKind.asksFor_pos {found : Option AccountKeyRow} (hpos : 0 < key.birthdayHeight)
    (h : kind.asksFor material key found = some birthday) : 0 < birthday := by
  cases found with
  | none =>
    cases h
    exact hpos
  | some existing =>
    rw [ImportKind.asksFor_some] at h
    split at h
    · cases h
      exact key.effectiveBirthday_pos existing hpos
    · cases h

/-- A recorded birthday is a height. -/
theorem CallEffect.pos (h : CallEffect material recorded db after call.imports)
    (hbirthday : recorded = some birthday) : 0 < birthday := by
  cases himports : call.imports with
  | none =>
    rw [himports] at h
    have hrecorded := h.2.2
    rw [hbirthday] at hrecorded
    split at hrecorded
    · cases hrecorded
    · exact importedBirthday_pos hrecorded.symm
  | some imported =>
    obtain ⟨kind, key⟩ := imported
    rw [himports] at h
    obtain ⟨hpos, _, _, hrecorded⟩ := h
    rw [hbirthday] at hrecorded
    exact ImportKind.asksFor_pos hpos hrecorded.symm

theorem row_after {row : SpendabilityStateRow} (hrow : db.spendabilityState = some row)
    (call : ImportCall) :
    match db.records material call with
    | none => (db.after material call).spendabilityState = some row
    | some birthday => 0 < birthday ∧ ∃ now reasonCode,
        (db.after material call).spendabilityState =
          some (row.requireReplay now reasonCode birthday) := by
  unfold ImportDb.records ImportDb.after
  cases hcall : db.call material call with
  | mk result after =>
    cases result with
    | error error =>
      dsimp only
      rw [(call_eq_error hcall).1, hrow]
    | ok recorded =>
      obtain ⟨hafter, heffect⟩ := call_eq_ok hcall
      cases recorded with
      | none => exact hafter.trans hrow
      | some birthday =>
        obtain ⟨before, now, reasonCode, hbefore, hafter⟩ := hafter
        rw [hrow] at hbefore
        cases hbefore
        exact ⟨heffect.pos rfl, now, reasonCode, hafter⟩

/-- The row after a sequence of calls: the lowest height any of them recorded, counted once
for each. -/
theorem row_run {row : SpendabilityStateRow} (hrow : db.spendabilityState = some row)
    (calls : List ImportCall) :
    ∃ last, (Runs.run (ImportDb.after material) db calls).spendabilityState = some last ∧
      last.replayFloor = (db.recorded material calls).foldl
        (fun floor birthday => min floor (birthday : WithTop Int)) row.replayFloor ∧
      last.keyImportGeneration =
        row.keyImportGeneration + (db.recorded material calls).length ∧
      (db.recorded material calls = [] → last = row) ∧
      (db.recorded material calls ≠ [] ∨ (row.spendable = false ∧ row.rescanRequired = true) →
        last.spendable = false ∧ last.rescanRequired = true) := by
  induction calls generalizing db row with
  | nil => exact ⟨row, hrow, rfl, rfl, fun _ => rfl, fun h => h.resolve_left (fun hne => hne rfl)⟩
  | cons call rest ih =>
    have hafter := @row_after material db row hrow call
    have hsplit : db.recorded material (call :: rest) =
        (db.records material call).toList ++ (db.after material call).recorded material rest := rfl
    rw [hsplit, Runs.run_cons]
    cases hrecords : db.records material call with
    | none =>
      rw [hrecords] at hafter
      exact ih hafter
    | some birthday =>
      rw [hrecords] at hafter
      obtain ⟨hpos, now, reasonCode, hnext⟩ := hafter
      obtain ⟨last, hlast, hfloor, hgeneration, _, hflags⟩ := ih hnext
      refine ⟨last, hlast, ?_, ?_, ?_, fun _ => hflags (Or.inr ⟨rfl, rfl⟩)⟩
      · rw [hfloor, SpendabilityStateRow.replayFloor_requireReplay hpos]
        rfl
      · rw [hgeneration]
        show row.keyImportGeneration + 1 + _ = _
        simp only [Option.toList_some, List.singleton_append, List.length_cons]
        omega
      · intro hnil
        cases hnil

/-! ## The order of the calls -/

/-- The columns an import compares or keeps the birthday of. -/
def ScanEqual (a b : AccountKeyRow) : Prop :=
  b.birthdayHeight = a.birthdayHeight ∧ b.saplingDfvk = a.saplingDfvk ∧
    b.orchardFvk = a.orchardFvk ∧ b.keyScope = a.keyScope ∧ b.spendable = a.spendable

/-- The floor that is pending in the database. -/
def ImportDb.replayFloor (db : ImportDb) : WithTop Int :=
  match db.spendabilityState with
  | none => ⊤
  | some row => row.replayFloor

/-- A recorded birthday as a floor. -/
def askedFloor : Option Int → WithTop Int
  | none => ⊤
  | some birthday => birthday

/-- A key of the start and what has become of it: as far as scanning goes the same, or the
floor is already at or below its birthday. -/
structure GrownFrom (floor : WithTop Int) (start now : AccountKeyRow) : Prop extends
    KeyKept start now where
  pos : 0 < start.birthdayHeight
  same_or_floor : ScanEqual start now ∨ floor ≤ (now.birthdayHeight : WithTop Int)

variable {floor : WithTop Int}

/-- What an import asks for at a key whose birthday the floor already covers is no more than
its own birthday. -/
theorem ImportKind.min_asksFor (hpos : 0 < existing.birthdayHeight)
    (hfloor : floor ≤ (existing.birthdayHeight : WithTop Int)) :
    min floor (askedFloor (kind.asksFor material key (some existing))) =
      min floor (key.birthdayHeight : WithTop Int) := by
  have heff := @AccountKey.effectiveBirthday_of_pos key existing hpos
  rw [ImportKind.asksFor_some]
  by_cases hrecords : kind.recordsOver material key existing = true
  · rw [if_pos hrecords]
    show min floor ((key.effectiveBirthday existing : Int) : WithTop Int) = _
    rw [heff, WithTop.coe_min, ← min_assoc, min_eq_left hfloor]
  · rw [if_neg hrecords]
    show min floor ⊤ = _
    -- nothing is recorded only where the birthday is not lowered
    have hle : existing.birthdayHeight ≤ key.birthdayHeight := by
      cases kind with
      | group => exact absurd rfl hrecords
      | verified =>
        have hunchanged : key.effectiveBirthday existing = existing.birthdayHeight := by
          by_contra hne
          apply hrecords
          show key.scanChanged material existing = true
          unfold AccountKey.scanChanged
          simp [hne]
        rw [heff] at hunchanged
        exact min_eq_left_iff.mp hunchanged
    rw [min_eq_left le_top, min_eq_left (hfloor.trans (WithTop.coe_le_coe.mpr hle))]

/-- A key that has only grown makes no difference to the floor after an import. -/
theorem GrownFrom.min_asksFor {start now : AccountKeyRow} (h : GrownFrom floor start now)
    (kind : ImportKind) (key : AccountKey) :
    min floor (askedFloor (kind.asksFor material key (some now))) =
      min floor (askedFloor (kind.asksFor material key (some start))) := by
  obtain ⟨hnow, hle⟩ := h.birthday h.pos
  rcases h.same_or_floor with hsame | hfloor
  · obtain ⟨hbirthday, hdfvk, hfvk, hscope, hspendable⟩ := hsame
    have heff : key.effectiveBirthday now = key.effectiveBirthday start := by
      unfold AccountKey.effectiveBirthday
      rw [hbirthday]
    have hrepair : now.needsRepair = start.needsRepair := by
      unfold AccountKeyRow.needsRepair
      rw [h.keyType, hscope, hspendable]
    have hrecords : kind.recordsOver material key now = kind.recordsOver material key start := by
      cases kind with
      | group => rfl
      | verified =>
        show key.scanChanged material now = key.scanChanged material start
        unfold AccountKey.scanChanged
        rw [heff, hbirthday, hdfvk, hfvk, hrepair]
    rw [ImportKind.asksFor_some, ImportKind.asksFor_some, hrecords, heff]
  · rw [ImportKind.min_asksFor hnow hfloor,
      ImportKind.min_asksFor h.pos (hfloor.trans (WithTop.coe_le_coe.mpr hle))]

theorem GrownFrom.mono {floor floor' : WithTop Int} {start now : AccountKeyRow}
    (h : GrownFrom floor start now) (hle : floor' ≤ floor) : GrownFrom floor' start now :=
  ⟨h.toKeyKept, h.pos, h.same_or_floor.imp_right hle.trans⟩

theorem KeyKept.matchesKey {before after : AccountKeyRow} (h : KeyKept before after)
    (kind : ImportKind) (key : AccountKey) :
    kind.matchesKey material key after = kind.matchesKey material key before := by
  cases kind with
  | group =>
    show key.matchesGroup material after = key.matchesGroup material before
    unfold AccountKey.matchesGroup
    rw [h.saplingExtsk, h.orchardExtsk]
  | verified =>
    show key.matchesVerified material after = key.matchesVerified material before
    unfold AccountKey.matchesVerified
    rw [h.saplingExtsk, h.orchardExtsk]

/-- A verified import that records nothing changes nothing a scan depends on. -/
theorem ImportKind.scanEqual_mergedRow (h : kind.recordsOver material key existing ≠ true) :
    ScanEqual existing (kind.mergedRow material key existing) := by
  cases kind with
  | group => exact absurd rfl h
  | verified =>
    have hunchanged : key.scanChanged material existing = false := Bool.eq_false_iff.mpr h
    unfold AccountKey.scanChanged at hunchanged
    simp only [Bool.or_eq_false_iff, bne_eq_false_iff_eq] at hunchanged
    obtain ⟨⟨⟨hbirthday, hsapling⟩, hironwood⟩, hrepair⟩ := hunchanged
    refine ⟨hbirthday, ?_, ?_, ?_, ?_⟩
    · show (if key.saplingOnly then key.saplingDfvk else existing.saplingDfvk) = _
      by_cases honly : key.saplingOnly = true
      · rw [if_pos honly]
        rw [honly, Bool.true_and, bne_eq_false_iff_eq] at hsapling
        exact hsapling.symm
      · rw [if_neg honly]
    · show (if key.ironwoodOnly && !material.viewingMatches existing.orchardFvk key.orchardFvk then
        key.orchardFvk else existing.orchardFvk) = _
      rw [hironwood]
      rfl
    · show (if existing.needsRepair then KeyScope.account else existing.keyScope) = _
      rw [hrepair]
      rfl
    · show (if existing.needsRepair then true else existing.spendable) = _
      rw [hrepair]
      rfl

/-- The key an import found, after it: the new floor covers it, or it is unchanged. -/
theorem ImportKind.mergedRow_same_or_floor {kind : ImportKind} {key : AccountKey}
    {existing : AccountKeyRow} {floor : WithTop Int} :
    ScanEqual existing (kind.mergedRow material key existing) ∨
      min floor (askedFloor (kind.asksFor material key (some existing))) ≤
        ((kind.mergedRow material key existing).birthdayHeight : WithTop Int) := by
  by_cases hrecords : kind.recordsOver material key existing = true
  · right
    have hbirthday : (kind.mergedRow material key existing).birthdayHeight =
      key.effectiveBirthday existing := kind.mergeKey_birthdayHeight key existing
    rw [ImportKind.asksFor_some, if_pos hrecords, hbirthday]
    exact min_le_right _ _
  · exact Or.inl (scanEqual_mergedRow hrecords)

/-- What a call asks for in a given database. -/
def ImportDb.asks (material : IronwoodMaterial) (db : ImportDb) (call : ImportCall) :
    Option Int :=
  match call.imports with
  | none => if db.importedKeyRecovery then none else db.keys.importedBirthday
  | some (kind, key) => kind.asksFor material key (kind.findKey material key db.keys)

/-- The database as it is after imports, seen from the start: the keys of the start come
first, each grown from what it was; the floor covers the keys added since, and, if the
migration has run since, what it would have asked for at the start. -/
structure KeysSince (start db : ImportDb) : Prop where
  rows : ∃ olds created, db.keys.rows = olds ++ created ∧
    List.Forall₂ (GrownFrom db.replayFloor) start.keys.rows olds ∧
    ∀ row ∈ created, 0 < row.birthdayHeight ∧
      db.replayFloor ≤ (row.birthdayHeight : WithTop Int)
  marker : start.importedKeyRecovery = true → db.importedKeyRecovery = true
  migrated : db.importedKeyRecovery = true → start.importedKeyRecovery = true ∨
    db.replayFloor ≤ askedFloor start.keys.importedBirthday

theorem KeysSince.refl (hpos : ∀ row ∈ db.keys.rows, 0 < row.birthdayHeight) :
    KeysSince db db where
  rows := by
    refine ⟨db.keys.rows, [], (List.append_nil _).symm, ?_, List.forall_mem_nil _⟩
    refine List.forall₂_same.mpr (fun row hrow => ⟨KeyKept.refl row, hpos row hrow, ?_⟩)
    exact Or.inl ⟨rfl, rfl, rfl, rfl, rfl⟩
  marker h := h
  migrated h := Or.inl h

/-- Which key an import finds: what has become of the key it finds at the start, or, if it
finds none there, no key or one added since. -/
theorem KeysSince.findKey {start : ImportDb} (h : KeysSince start db) (kind : ImportKind)
    (key : AccountKey) :
    (∃ X Y, kind.findKey material key start.keys = some X ∧
        kind.findKey material key db.keys = some Y ∧ GrownFrom db.replayFloor X Y) ∨
      (kind.findKey material key start.keys = none ∧
        ∀ Y, kind.findKey material key db.keys = some Y →
          0 < Y.birthdayHeight ∧ db.replayFloor ≤ (Y.birthdayHeight : WithTop Int)) := by
  obtain ⟨olds, created, hrows, hgrown, hcreated⟩ := h.rows
  have hfind : ∀ keys : AccountKeys, kind.findKey material key keys =
      keys.rows.find? (fun row => row.accountId == key.accountId &&
        kind.matchesKey material key row) := by
    intro keys
    unfold ImportKind.findKey AccountKeys.ofAccount
    rw [List.find?_filter]
    simp only [Bool.decide_and, Bool.decide_eq_true]
  rw [hfind, hfind, hrows, List.find?_append]
  have hpaired := find?_forall₂ (p := fun row => row.accountId == key.accountId &&
    kind.matchesKey material key row) (q := fun row => row.accountId == key.accountId &&
    kind.matchesKey material key row) (fun {a b} hab => by
      rw [hab.accountId, hab.toKeyKept.matchesKey]) hgrown
  rcases hpaired with ⟨X, Y, hX, hY, hXY⟩ | ⟨hX, hY⟩
  · exact Or.inl ⟨X, Y, hX, by rw [hY]; rfl, hXY⟩
  · refine Or.inr ⟨hX, ?_⟩
    intro Y hfound
    rw [hY, Option.none_or] at hfound
    exact hcreated Y (List.mem_of_find?_eq_some hfound)

/-- The lowest birthday of the imported keys, as a floor. -/
theorem le_askedFloor_importedBirthday (hpos : ∀ row ∈ keys.rows, 0 < row.birthdayHeight) :
    floor ≤ askedFloor keys.importedBirthday ↔
      ∀ row ∈ keys.rows, row.keyType = .importSpend →
        floor ≤ (row.birthdayHeight : WithTop Int) := by
  have hlist : ∀ {b : Int}, b ∈ keys.importedBirthdays ↔
      ∃ row ∈ keys.rows, row.keyType = .importSpend ∧ row.birthdayHeight = b := by
    intro b
    unfold AccountKeys.importedBirthdays
    simp only [List.mem_map, List.mem_filter, beq_iff_eq, and_assoc]
    refine exists_congr (fun row => and_congr_right (fun hrow => and_congr_right (fun _ => ?_)))
    rw [if_pos (hpos row hrow)]
  have hfold : ∀ (rest : List Int) (first : Int),
      floor ≤ ((rest.foldl min first : Int) : WithTop Int) ↔
        ∀ b ∈ first :: rest, floor ≤ (b : WithTop Int) := by
    intro rest
    induction rest with
    | nil => simp
    | cons next rest ih =>
      intro first
      rw [List.foldl_cons, ih]
      simp only [List.forall_mem_cons, WithTop.coe_min, le_min_iff, and_assoc]
  have hall : (∀ row ∈ keys.rows, row.keyType = .importSpend →
        floor ≤ (row.birthdayHeight : WithTop Int)) ↔
      ∀ b ∈ keys.importedBirthdays, floor ≤ (b : WithTop Int) := by
    constructor
    · intro h b hb
      obtain ⟨row, hrow, htype, rfl⟩ := hlist.mp hb
      exact h row hrow htype
    · intro h row hrow htype
      exact h row.birthdayHeight (hlist.mpr ⟨row, hrow, htype, rfl⟩)
  rw [hall]
  unfold AccountKeys.importedBirthday
  split
  · rename_i hnil
    rw [hnil]
    simp [askedFloor]
  · rename_i first rest hcons
    rw [hcons]
    exact hfold rest first

variable {start : ImportDb}

theorem KeysSince.pos (h : KeysSince start db) :
    (∀ row ∈ start.keys.rows, 0 < row.birthdayHeight) ∧
      ∀ row ∈ db.keys.rows, 0 < row.birthdayHeight := by
  obtain ⟨olds, created, hrows, hgrown, hcreated⟩ := h.rows
  constructor
  · intro row hrow
    obtain ⟨now, _, hnow⟩ := partner_of_mem_left hgrown hrow
    exact hnow.pos
  · intro row hrow
    rw [hrows, List.mem_append] at hrow
    rcases hrow with hrow | hrow
    · obtain ⟨before, _, hbefore⟩ := partner_of_mem_right hgrown hrow
      exact (hbefore.birthday hbefore.pos).1
    · exact (hcreated row hrow).1

/-- What the migration finds now and at the start makes no difference to the floor. -/
theorem KeysSince.min_importedBirthday (h : KeysSince start db) :
    min db.replayFloor (askedFloor db.keys.importedBirthday) =
      min db.replayFloor (askedFloor start.keys.importedBirthday) := by
  obtain ⟨hstart, hnow⟩ := h.pos
  obtain ⟨olds, created, hrows, hgrown, hcreated⟩ := h.rows
  refine eq_of_forall_le_iff (fun floor => ?_)
  rw [le_min_iff, le_min_iff, le_askedFloor_importedBirthday hnow,
    le_askedFloor_importedBirthday hstart]
  refine and_congr_right (fun hfloor => ?_)
  constructor
  · intro hall row hrow htype
    obtain ⟨now, hmem, hkept⟩ := partner_of_mem_left hgrown hrow
    have hle := hall now (by rw [hrows]; exact List.mem_append_left _ hmem)
      (hkept.keyType.trans htype)
    exact hle.trans (WithTop.coe_le_coe.mpr (hkept.birthday hkept.pos).2)
  · intro hall row hrow htype
    rw [hrows, List.mem_append] at hrow
    rcases hrow with hrow | hrow
    · obtain ⟨before, hmem, hkept⟩ := partner_of_mem_right hgrown hrow
      rcases hkept.same_or_floor with hsame | hcovered
      · rw [hsame.1]
        exact hall before hmem (hkept.keyType.symm.trans htype)
      · exact hfloor.trans hcovered
    · exact hfloor.trans (hcreated row hrow).2

/-- **What a call asks for after other imports lowers the floor as far as what it would have
asked for at the start.** -/
theorem KeysSince.min_asks {start : ImportDb} (h : KeysSince start db) (call : ImportCall) :
    min db.replayFloor (askedFloor (db.asks material call)) =
      min db.replayFloor (askedFloor (start.asks material call)) := by
  unfold ImportDb.asks
  cases call.imports with
  | none =>
    dsimp only
    by_cases hdb : db.importedKeyRecovery = true
    · rw [if_pos hdb]
      rcases h.migrated hdb with hstart | hfloor
      · rw [if_pos hstart]
      · split
        · rfl
        · rw [min_eq_left hfloor]
          exact min_eq_left le_top
    · have hstart : ¬ start.importedKeyRecovery = true := fun hstart => hdb (h.marker hstart)
      rw [if_neg hdb, if_neg hstart]
      exact h.min_importedBirthday
  | some imported =>
    obtain ⟨kind, key⟩ := imported
    dsimp only
    rcases @KeysSince.findKey material db start h kind key with ⟨X, Y, hX, hY, hgrown⟩ | ⟨hX, hY⟩
    · rw [hX, hY]
      exact hgrown.min_asksFor kind key
    · rw [hX]
      cases hfound : kind.findKey material key db.keys with
      | none => rfl
      | some Y =>
        obtain ⟨hpos, hfloor⟩ := hY Y hfound
        exact ImportKind.min_asksFor hpos hfloor

theorem replayFloor_after (h : db.call material call = (.ok recorded, after)) :
    after.replayFloor = min db.replayFloor (askedFloor (db.asks material call)) := by
  obtain ⟨hrow, heffect⟩ := call_eq_ok h
  have hasks : recorded = db.asks material call := by
    unfold ImportDb.asks
    cases himports : call.imports with
    | none =>
      rw [himports] at heffect
      exact heffect.2.2
    | some imported =>
      rw [himports] at heffect
      exact heffect.2.2.2
  rw [← hasks]
  unfold ImportDb.replayFloor
  cases recorded with
  | none =>
    have hsame : after.spendabilityState = db.spendabilityState := hrow
    rw [hsame]
    exact (min_eq_left le_top).symm
  | some birthday =>
    obtain ⟨row, now, reasonCode, hbefore, hafter⟩ := hrow
    rw [hbefore, hafter]
    exact SpendabilityStateRow.replayFloor_requireReplay (heffect.pos rfl)

/-- The keys after one more import. -/
theorem KeysSince.storeKey_rows {start : ImportDb} (h : KeysSince start db) {kind : ImportKind}
    {key : AccountKey} (hpos : 0 < key.birthdayHeight) {floor : WithTop Int}
    (hfloor : floor = min db.replayFloor
      (askedFloor (kind.asksFor material key (kind.findKey material key db.keys)))) :
    ∃ olds created, (kind.storeKey material key db.keys).rows = olds ++ created ∧
      List.Forall₂ (GrownFrom floor) start.keys.rows olds ∧
      ∀ row ∈ created, 0 < row.birthdayHeight ∧ floor ≤ (row.birthdayHeight : WithTop Int) := by
  obtain ⟨olds, created, hrows, hgrown, hcreated⟩ := h.rows
  have hle : floor ≤ db.replayFloor := by
    rw [hfloor]
    exact min_le_left _ _
  have hstored := @ImportKind.storeKey_rows material kind key db.keys
  cases hfind : kind.findKey material key db.keys with
  | none =>
    rw [hfind] at hstored hfloor
    refine ⟨olds, created ++ [{ key with id := db.keys.nextId }], ?_,
      hgrown.imp (fun _ _ hold => hold.mono hle), ?_⟩
    · rw [hstored, hrows, List.append_assoc]
    · intro row hrow
      rcases List.mem_append.mp hrow with hrow | hrow
      · exact ⟨(hcreated row hrow).1, hle.trans (hcreated row hrow).2⟩
      · rw [List.mem_singleton.mp hrow, hfloor]
        exact ⟨hpos, min_le_right _ _⟩
  | some existing =>
    rw [hfind] at hstored hfloor
    obtain ⟨_, haccount, hmatch⟩ := ImportKind.findKey_eq_some hfind
    have hkept := @ImportKind.mergedRow_kept material kind key existing hpos haccount hmatch
    have hmerged := @ImportKind.mergedRow_same_or_floor material kind key existing db.replayFloor
    rw [← hfloor] at hmerged
    let rewritten := fun row : AccountKeyRow =>
      if row = existing then kind.mergedRow material key existing else row
    refine ⟨olds.map rewritten, created.map rewritten, ?_, ?_, ?_⟩
    · rw [hstored, hrows, List.map_append]
    · refine List.forall₂_map_right_iff.mpr (hgrown.imp (fun X Y hXY => ?_))
      by_cases hsame : Y = existing
      · subst hsame
        simp only [rewritten, if_true]
        refine ⟨hXY.toKeyKept.trans hkept, hXY.pos, ?_⟩
        -- unchanged by this import, it is what it was; changed, the floor covers it
        rcases hmerged with hequal | hcovered
        · obtain ⟨hbirthday, hdfvk, hfvk, hscope, hspendable⟩ := hequal
          rcases hXY.same_or_floor with hsame | hcovered
          · exact Or.inl ⟨hbirthday.trans hsame.1, hdfvk.trans hsame.2.1, hfvk.trans hsame.2.2.1,
              hscope.trans hsame.2.2.2.1, hspendable.trans hsame.2.2.2.2⟩
          · right
            rw [hbirthday]
            exact hle.trans hcovered
        · exact Or.inr hcovered
      · simp only [rewritten, if_neg hsame]
        exact hXY.mono hle
    · intro row hrow
      obtain ⟨before, hbefore, rfl⟩ := List.mem_map.mp hrow
      obtain ⟨hbefore_pos, hcovered⟩ := hcreated before hbefore
      by_cases hsame : before = existing
      · subst hsame
        simp only [rewritten, if_true]
        refine ⟨(hkept.birthday hbefore_pos).1, ?_⟩
        rcases hmerged with hequal | hcovered'
        · rw [hequal.1]
          exact hle.trans hcovered
        · exact hcovered'
      · simp only [rewritten, if_neg hsame]
        exact ⟨hbefore_pos, hle.trans hcovered⟩

theorem KeysSince.of_call (h : KeysSince start db)
    (hcall : db.call material call = (.ok recorded, after)) : KeysSince start after := by
  have hfloor := replayFloor_after hcall
  have hle : after.replayFloor ≤ db.replayFloor := by
    rw [hfloor]
    exact min_le_left _ _
  have heffect := (call_eq_ok hcall).2
  have hasks := @KeysSince.min_asks material db start h call
  unfold ImportDb.asks at hfloor hasks
  cases himports : call.imports with
  | none =>
    rw [himports] at heffect hfloor hasks
    dsimp only at hfloor hasks
    obtain ⟨hkeys, hmarker, _⟩ := heffect
    obtain ⟨olds, created, hrows, hgrown, hcreated⟩ := h.rows
    refine ⟨⟨olds, created, by rw [hkeys, hrows], hgrown.imp (fun _ _ hold => hold.mono hle), ?_⟩,
      fun _ => hmarker, fun _ => ?_⟩
    · exact fun row hrow => ⟨(hcreated row hrow).1, hle.trans (hcreated row hrow).2⟩
    · by_cases hstart : start.importedKeyRecovery = true
      · exact Or.inl hstart
      · right
        rw [hfloor, hasks, if_neg hstart]
        exact min_le_right _ _
  | some imported =>
    obtain ⟨kind, key⟩ := imported
    rw [himports] at heffect hfloor
    obtain ⟨hpos, hkeys, hmarker, _⟩ := heffect
    refine ⟨?_, ?_, ?_⟩
    · rw [hkeys]
      exact h.storeKey_rows hpos hfloor
    · rw [hmarker]
      exact h.marker
    · rw [hmarker]
      intro hdb
      exact (h.migrated hdb).imp_right hle.trans

def CallSucceeds (material : IronwoodMaterial) (db : ImportDb) (call : ImportCall) : Prop :=
  ∃ recorded, (db.call material call).1 = .ok recorded

/-- Where all calls succeed, the floor is the lowest of what each would have asked for at the
start. -/
theorem replayFloor_run (h : KeysSince start db) {calls : List ImportCall}
    (hcalls : Runs.EachStep (ImportDb.after material) (CallSucceeds material) db calls) :
    (Runs.run (ImportDb.after material) db calls).replayFloor = calls.foldl
      (fun floor call => min floor (askedFloor (start.asks material call))) db.replayFloor := by
  induction calls generalizing db with
  | nil => rfl
  | cons call rest ih =>
    obtain ⟨⟨recorded, hsuccess⟩, hrest⟩ := Runs.eachStep_cons.mp hcalls
    have hcall : db.call material call = (.ok recorded, db.after material call) :=
      Prod.ext hsuccess rfl
    rw [Runs.run_cons, List.foldl_cons, ih (h.of_call hcall) hrest, replayFloor_after hcall,
      h.min_asks]

theorem replayFloor_perm {calls calls' : List ImportCall} (hperm : calls.Perm calls')
    (hpos : ∀ row ∈ db.keys.rows, 0 < row.birthdayHeight)
    (hcalls : Runs.EachStep (ImportDb.after material) (CallSucceeds material) db calls)
    (hcalls' : Runs.EachStep (ImportDb.after material) (CallSucceeds material) db calls') :
    (Runs.run (ImportDb.after material) db calls).replayFloor =
      (Runs.run (ImportDb.after material) db calls').replayFloor := by
  have hsince := KeysSince.refl hpos
  rw [replayFloor_run hsince hcalls, replayFloor_run hsince hcalls']
  have hcomm : RightCommutative (fun (floor : WithTop Int) (call : ImportCall) =>
      min floor (askedFloor (db.asks material call))) := ⟨fun _ _ _ => min_right_comm _ _ _⟩
  exact hperm.foldl_eq _

/-- **Key imports.** After any sequence of imports and migrations, from any database with a
spendability row:

* the replay floor is the lowest of the floor pending at the start and the birthdays recorded
  on the way, each recorded call is counted once, and where there is one, the wallet is not
  spendable and a rescan is required; where there is none, the row is as it was;
* where all stored birthdays are known, another order of the same calls leaves the same floor,
  if all calls succeed in both;
* every key stored on the way is still stored at the end, with the same secrets, and its
  birthday has not risen, if it was known;
* a failing call that is not part of an outer transaction has changed nothing. -/
theorem imports_record_lowest_birthday (material : IronwoodMaterial) (db : ImportDb)
    (calls : List ImportCall) :
    (∀ row, db.spendabilityState = some row →
      ∃ last, (Runs.run (ImportDb.after material) db calls).spendabilityState = some last ∧
        last.replayFloor = (db.recorded material calls).foldl
          (fun floor birthday => min floor (birthday : WithTop Int)) row.replayFloor ∧
        last.keyImportGeneration =
          row.keyImportGeneration + (db.recorded material calls).length ∧
        (db.recorded material calls = [] → last = row) ∧
        (db.recorded material calls ≠ [] →
          last.spendable = false ∧ last.rescanRequired = true)) ∧
    (∀ calls', calls.Perm calls' → (∀ row ∈ db.keys.rows, 0 < row.birthdayHeight) →
      Runs.EachStep (ImportDb.after material) (CallSucceeds material) db calls →
      Runs.EachStep (ImportDb.after material) (CallSucceeds material) db calls' →
      (Runs.run (ImportDb.after material) db calls).replayFloor =
        (Runs.run (ImportDb.after material) db calls').replayFloor) ∧
    (∀ done rest, calls = done ++ rest →
      KeysKept (Runs.run (ImportDb.after material) db done).keys
        (Runs.run (ImportDb.after material) db calls).keys) ∧
    Runs.EachStep (ImportDb.after material) (fun db call => call.joined = false →
      ¬ CallSucceeds material db call → db.after material call = db) db calls := by
  refine ⟨?_, fun calls' hperm hpos => replayFloor_perm hperm hpos, ?_, ?_⟩
  · intro row hrow
    obtain ⟨last, hlast, hfloor, hgeneration, hnone, hsome⟩ := @row_run material db row hrow calls
    exact ⟨last, hlast, hfloor, hgeneration, hnone, fun h => hsome (Or.inl h)⟩
  · rintro done rest rfl
    rw [Runs.run_append]
    exact keysKept_run _ rest
  · intro done call rest _ hjoined hfails
    generalize Runs.run (ImportDb.after material) db done = reached at hfails ⊢
    cases hcall : reached.call material call with
    | mk result after =>
      cases result with
      | ok recorded => exact absurd ⟨recorded, by rw [hcall]⟩ hfails
      | error error =>
        have hafter : reached.after material call = after := congrArg Prod.snd hcall
        rw [hafter]
        exact (call_eq_error hcall).2.1 hjoined

/-- Ironwood keys of seventy-three bytes, compared without the four bytes of the tag. -/
def taggedMaterial : IronwoodMaterial where
  spending bytes :=
    if bytes.length < 73 then none else some (bytes.take 1 ++ (bytes.drop 5).take 68)
  viewing bytes := if bytes.length < 137 then none else some (bytes.take 1 ++ bytes.drop 5)

/-- A Sapling key of account 1. -/
def oneByteKey (secret : UInt8) (birthday : Int) : AccountKey where
  accountId := 1
  keyType := .importSpend
  keyScope := .account
  label := none
  birthdayHeight := birthday
  createdAt := 1
  spendable := true
  saplingExtsk := some [secret]
  saplingDfvk := some [secret, secret]
  orchardExtsk := none
  orchardFvk := none
  encryptedMnemonic := none

/-- A wallet without keys. -/
def emptyImportDb : ImportDb where
  keys := AutoTable.empty
  addresses := AddressStore.fresh.table
  spendabilityState := some (SpendabilityStateRow.default "t")
  importedKeyRecovery := true

/-- Two imports of a key, the later one from an earlier height: both are counted, and the
earlier height stays, as in the other order. -/
theorem imports_record_lowest_birthday_twice :
    emptyImportDb.recorded taggedMaterial
        [.importGroup (oneByteKey 7 200) "t" "r" false none,
          .importGroup (oneByteKey 7 100) "t" "r" false none] = [200, 100] ∧
      (Runs.run (ImportDb.after taggedMaterial) emptyImportDb
        [.importGroup (oneByteKey 7 200) "t" "r" false none,
          .importGroup (oneByteKey 7 100) "t" "r" false none]).replayFloor =
      (Runs.run (ImportDb.after taggedMaterial) emptyImportDb
        [.importGroup (oneByteKey 7 100) "t" "r" false none,
          .importGroup (oneByteKey 7 200) "t" "r" false none]).replayFloor := by
  refine ⟨by decide +kernel, (imports_record_lowest_birthday taggedMaterial emptyImportDb
    [.importGroup (oneByteKey 7 200) "t" "r" false none,
      .importGroup (oneByteKey 7 100) "t" "r" false none]).2.1 _ (List.Perm.swap _ _ _)
    (List.forall_mem_nil _) ?_ ?_⟩
  · exact Runs.eachStep_cons.mpr ⟨⟨some 200, rfl⟩, Runs.eachStep_cons.mpr ⟨⟨some 100, rfl⟩,
      Runs.eachStep_nil⟩⟩
  · exact Runs.eachStep_cons.mpr ⟨⟨some 100, rfl⟩, Runs.eachStep_cons.mpr ⟨⟨some 100, rfl⟩,
      Runs.eachStep_nil⟩⟩

/-- A wallet with the key stored and nothing pending. -/
def scannedImportDb : ImportDb where
  keys := AccountKeys.insert (oneByteKey 7 100) AutoTable.empty
  addresses := AddressStore.fresh.table
  spendabilityState := some { SpendabilityStateRow.default "t" with
    spendable := true, rescanRequired := false }
  importedKeyRecovery := true

/-- A repeated import changes no key, and still requires a replay and is counted. -/
theorem repeated_import_requires_replay :
    (scannedImportDb.after taggedMaterial
        (.importGroup (oneByteKey 7 100) "t" "r" false none)).keys.rows =
      scannedImportDb.keys.rows ∧
    ((scannedImportDb.after taggedMaterial
        (.importGroup (oneByteKey 7 100) "t" "r" false none)).spendabilityState.map
        (fun row => (row.requiredRescanFromHeight, row.rescanRequired,
          row.keyImportGeneration))) = some (100, true, 1) ∧
    scannedImportDb.spendabilityState.map
        (fun row => (row.requiredRescanFromHeight, row.rescanRequired,
          row.keyImportGeneration)) = some (0, false, 0) := by
  decide +kernel

end StashiWallet
