import StashiWallet.NoteRepair
import StashiWallet.ProtectedKeyRuns

/-!
# What is left of a removed key

A removal deletes a key with its addresses, their preferences and its notes. It refuses while a
note of the key is unspent, so that nothing the key controls is forgotten. A note that it deletes is
spent; but an output can have several rows, and while one of them is spent the views show none.
Where the spent row is one of the key and an unspent one belongs to another key, the deletion
uncovers the latter.
-/

namespace StashiWallet

namespace SigningDb

/-- The address is one of the key. -/
def OwnsAddress (db : SigningDb) (keyId : Nat) (address : Int) : Prop :=
  ∃ row ∈ db.stored.imports.addresses.rows, row.keyId = some (keyId : Int) ∧ (row.id : Int) = address

/-- The note is one of the key, by its key or by its address. -/
def OwnsNote (db : SigningDb) (keyId : Nat) (note : NoteRow) : Prop :=
  note.keyId = some (keyId : Int) ∨ ∃ address ∈ note.addressId, db.OwnsAddress keyId address

instance (db : SigningDb) (keyId : Nat) (address : Int) : Decidable (db.OwnsAddress keyId address) :=
  inferInstanceAs (Decidable (∃ row ∈ db.stored.imports.addresses.rows, _))

instance (db : SigningDb) (keyId : Nat) (note : NoteRow) : Decidable (db.OwnsNote keyId note) :=
  inferInstanceAs (Decidable (_ ∨ ∃ address ∈ note.addressId, _))

/-- `belongs_to_key`: what the loop of `remove_imported_spending_key` takes for a note of the key.
-/
def belongsToKey (db : SigningDb) (accountId : Int) (keyId : Nat) (note : NoteRow) : Bool :=
  note.keyId == some (keyId : Int) || note.addressId.any fun address =>
    db.addressOwner accountId address == some (some (keyId : Int))

end SigningDb

section Removal

variable {K : Type} (cipher : BlobCipher K) (masterKey : K)

/-- The key is gone with all that refers to it, and all else is as it was. -/
structure KeyForgotten (accountId : Int) (keyId : Nat) (db after : SigningDb) : Prop where
  unspent : (after.stored.notes.getUnspentNotes accountId).Perm
    (db.stored.notes.getUnspentNotes accountId)
  balance : ∀ currentHeight minDepth,
    calculateBalance currentHeight minDepth (after.stored.notes.getUnspentNotes accountId) =
      calculateBalance currentHeight minDepth (db.stored.notes.getUnspentNotes accountId)
  notes : ∀ row, ¬ db.OwnsNote keyId row →
    (row ∈ after.stored.notes.rows ↔ row ∈ db.stored.notes.rows)
  addresses : ∀ row, row.keyId ≠ some (keyId : Int) →
    (row ∈ after.stored.imports.addresses.rows ↔ row ∈ db.stored.imports.addresses.rows)
  keys : ∀ row, row ∈ after.keys.rows ↔ row ∈ db.keys.rows ∧ row.id ≠ keyId
  preferences : ∀ id, ¬ db.OwnsAddress keyId id →
    (id ∈ after.displayPreferences ↔ id ∈ db.displayPreferences)
  noNote : ∀ row ∈ after.stored.notes.rows, ¬ db.OwnsNote keyId row
  noAddress : ∀ row ∈ after.stored.imports.addresses.rows, row.keyId ≠ some (keyId : Int)
  noPreference : ∀ id ∈ after.displayPreferences, ¬ db.OwnsAddress keyId id
  material : ∀ (later : Sessions K) (other : Nat), other ≠ keyId →
    after.getAccountKeyById cipher masterKey later other =
      db.getAccountKeyById cipher masterKey later other
  secrets : after.secrets = db.secrets
  intents : ∀ intent ∈ db.intents, intent.accountId = accountId →
    outgoingTransactionIsConfirmed intent.txid db.transactions = true ∨
      intent.Expired accountId db.syncState.localHeight db.transactions

/-- The rows of the key are the account's, and no unspent row of another key is kept from view by
spent rows of this key alone. -/
structure Separable (accountId : Int) (keyId : Nat) (db : SigningDb) : Prop where
  notes : ∀ row ∈ db.stored.notes.rows, db.OwnsNote keyId row → row.accountId = accountId
  addresses : ∀ row ∈ db.stored.imports.addresses.rows, row.keyId = some (keyId : Int) →
    row.accountId = accountId
  covered : ∀ key, ∀ row ∈ db.stored.notes.rowsOf accountId key, row.spent = false →
    noteValueIsValid row.value = true →
    ∀ spent ∈ db.stored.notes.rowsOf accountId key, spent.spent = true → db.OwnsNote keyId spent →
      ∃ other ∈ db.stored.notes.rowsOf accountId key, other.spent = true ∧
        ¬ db.OwnsNote keyId other

end Removal

/-! ## What is shown when spent rows go -/

section Uncovered

variable {rows rows' : List NoteRow}

/-- Nothing else is shown where another spent row stays. -/
theorem shown_of_spent_removed (hsub : ∀ row ∈ rows', row ∈ rows)
    (hspent : ∀ row ∈ rows, row.spent = false → row ∈ rows')
    (hcovered : ∀ row ∈ rows, row.spent = false → noteValueIsValid row.value = true →
      ∀ spent ∈ rows, spent.spent = true → ∃ other ∈ rows', other.spent = true) {row : NoteRow} :
    Shown rows' row ↔ Shown rows row := by
  constructor
  · intro h
    have hrow := hsub row h.mem
    have hall : ∀ other ∈ rows, other.spent = false := by
      intro other hother
      by_contra hne
      obtain ⟨spent, hin, hisSpent⟩ := hcovered row hrow (h.unspent row h.mem) h.valid other hother
        (Bool.not_eq_false _ ▸ hne)
      rw [h.unspent spent hin] at hisSpent
      cases hisSpent
    exact ⟨hrow, h.valid, hall, fun other hother =>
      h.newest other (hspent other hother (hall other hother))⟩
  · intro h
    exact ⟨hspent row h.mem (h.unspent row h.mem), h.valid,
      fun other hother => h.unspent other (hsub other hother),
      fun other hother => h.newest other (hsub other hother)⟩

/-- An unspent row comes into view where no spent row stays. -/
theorem exists_shown_of_uncovered {row : NoteRow} (hrow : row ∈ rows')
    (hvalid : noteValueIsValid row.value = true) (hunspent : ∀ other ∈ rows', other.spent = false) :
    ∃ shown, Shown rows' shown := by
  obtain ⟨newest, hnewest, hpasses, hlast⟩ := @exists_newest
    (fun row => noteValueIsValid row.value) rows' ⟨row, hrow, hvalid⟩
  exact ⟨newest, hnewest, hpasses, hunspent, hlast⟩

end Uncovered

/-! ## The checks -/

namespace SigningDb

variable {db : SigningDb} {accountId : Int} {keyId : Nat}

/-- The addresses of the account are looked up by their ids. -/
theorem addressOwner_eq_some {address : Int} {owner : Option Int} :
    db.addressOwner accountId address = some owner ↔
      ∃ row ∈ db.stored.imports.addresses.rows, row.accountId = accountId ∧
        (row.id : Int) = address ∧ row.keyId = owner := by
  unfold addressOwner
  constructor
  · intro h
    obtain ⟨row, hfind, howner⟩ := Option.map_eq_some_iff.mp h
    have hpasses := List.find?_some hfind
    simp only [Bool.and_eq_true, beq_iff_eq] at hpasses
    exact ⟨row, List.mem_of_find?_eq_some hfind, hpasses.1, hpasses.2, howner⟩
  · rintro ⟨row, hrow, haccount, hid, howner⟩
    cases hfind : db.stored.imports.addresses.rows.find? (fun row =>
        row.accountId == accountId && (row.id : Int) == address) with
    | none =>
      have hnot := List.find?_eq_none.mp hfind row hrow
      simp [haccount, hid] at hnot
    | some found =>
      have hpasses := List.find?_some hfind
      simp only [Bool.and_eq_true, beq_iff_eq] at hpasses
      have hids : found.id = row.id := by omega
      rw [List.inj_on_of_nodup_map db.stored.imports.addresses.constraints.1
        (List.mem_of_find?_eq_some hfind) hrow hids]
      exact congrArg some howner

/-- A note that the loop takes for one of the key is one. -/
theorem ownsNote_of_belongs {note : NoteRow} (h : db.belongsToKey accountId keyId note = true) :
    db.OwnsNote keyId note := by
  rcases Bool.or_eq_true_iff.mp h with hkey | haddress
  · exact Or.inl (beq_iff_eq.mp hkey)
  · obtain ⟨address, hsome, howner⟩ := (Option.any_eq_true ..).mp haddress
    obtain ⟨row, hrow, -, hid, hkey⟩ := addressOwner_eq_some.mp (beq_iff_eq.mp howner)
    exact Or.inr ⟨address, hsome, row, hrow, hkey, hid⟩

/-- The converse holds where the addresses of the key are the account's. -/
theorem belongs_iff_ownsNote (haddresses : ∀ row ∈ db.stored.imports.addresses.rows,
      row.keyId = some (keyId : Int) → row.accountId = accountId) {note : NoteRow} :
    db.belongsToKey accountId keyId note = true ↔ db.OwnsNote keyId note := by
  refine ⟨ownsNote_of_belongs, ?_⟩
  rintro (hkey | ⟨address, hsome, row, hrow, hkey, hid⟩)
  · exact Bool.or_eq_true_iff.mpr (Or.inl (beq_iff_eq.mpr hkey))
  · refine Bool.or_eq_true_iff.mpr (Or.inr ((Option.any_eq_true ..).mpr ⟨address, hsome, ?_⟩))
    exact beq_iff_eq.mpr (addressOwner_eq_some.mpr ⟨row, hrow, haddresses row hrow hkey, hid, hkey⟩)

/-- The loop over the notes ends where every note of the key is spent; it deletes these. -/
theorem notesOfKey_eq_ok {activeKeyIds : List Nat} {expired : List String} {notes : List NoteRow}
    {ids : List Nat} (h : db.notesOfKey accountId keyId activeKeyIds expired notes = .ok ids) :
    (∀ note ∈ notes, db.belongsToKey accountId keyId note = true →
      note.spent = true ∧ note.id ∈ ids) ∧
    ∀ id ∈ ids, ∃ note ∈ notes, note.id = id ∧ db.belongsToKey accountId keyId note = true := by
  induction notes generalizing ids with
  | nil =>
    obtain rfl := Except.ok.inj h
    exact ⟨List.forall_mem_nil _, List.forall_mem_nil _⟩
  | cons first rest ih =>
    unfold notesOfKey at h
    dsimp only at h
    split at h
    · cases h
    rename_i hfree
    split at h
    · -- a note of another key
      rename_i hother
      obtain ⟨hspent, hids⟩ := ih h
      have hnot : ¬ db.belongsToKey accountId keyId first = true := by
        intro hbelongs
        rw [Bool.not_eq_true'] at hother
        exact Bool.false_ne_true (hother.symm.trans hbelongs)
      refine ⟨fun note hnote hbelongs => ?_, fun id hid => ?_⟩
      · rcases List.mem_cons.mp hnote with rfl | hin
        · exact absurd hbelongs hnot
        · exact hspent note hin hbelongs
      · obtain ⟨note, hnote, hsame, hbelongs⟩ := hids id hid
        exact ⟨note, List.mem_cons_of_mem first hnote, hsame, hbelongs⟩
    rename_i hown
    split at h
    · cases h
    split at h
    · cases h
    split at h
    · cases h
    have hbelongs : db.belongsToKey accountId keyId first = true := by
      rw [Bool.not_eq_true', Bool.not_eq_false] at hown
      exact hown
    have hfirst : first.spent = true := by
      by_contra hne
      refine hfree ?_
      rw [Bool.not_eq_true _ |>.mp hne]
      exact Bool.and_eq_true_iff.mpr ⟨rfl, Bool.or_eq_true_iff.mpr (Or.inl hbelongs)⟩
    obtain ⟨ids', hrest, rfl⟩ := map_eq_ok h
    obtain ⟨hspent, hids⟩ := ih hrest
    refine ⟨fun note hnote howned => ?_, fun id hid => ?_⟩
    · rcases List.mem_cons.mp hnote with rfl | hin
      · exact ⟨hfirst, List.mem_cons_self⟩
      · exact (hspent note hin howned).imp_right (List.mem_cons_of_mem first.id)
    · rcases List.mem_cons.mp hid with rfl | hin
      · exact ⟨first, List.mem_cons_self, rfl, hbelongs⟩
      · obtain ⟨note, hnote, hsame, howned⟩ := hids id hin
        exact ⟨note, List.mem_cons_of_mem first hnote, hsame, howned⟩

/-- The intents are looked at one by one: each is confirmed or expired. -/
theorem expired_of_ok {expired : List String}
    (h : db.expiredUnconfirmedTxids accountId = .ok expired) :
    ∀ intent ∈ db.intents, intent.accountId = accountId →
      outgoingTransactionIsConfirmed intent.txid db.transactions = true ∨
        intent.Expired accountId db.syncState.localHeight db.transactions := by
  intro intent hintent haccount
  unfold expiredUnconfirmedTxids at h
  dsimp only at h
  split at h
  · cases h
  rename_i hnone
  by_cases hconfirmed : outgoingTransactionIsConfirmed intent.txid db.transactions = true
  · exact Or.inl hconfirmed
  · have hin : intent ∈ db.intents.filter fun intent => intent.accountId == accountId &&
        !outgoingTransactionIsConfirmed intent.txid db.transactions :=
      List.mem_filter.mpr ⟨hintent, by simp [haccount, hconfirmed]⟩
    have hexpiry : ¬ (intent.expiryHeight == 0 ||
        decide (db.syncState.localHeight ≤ intent.expiryHeight)) = true :=
      fun hpasses => hnone (List.any_eq_true.mpr ⟨intent, hin, hpasses⟩)
    simp only [Bool.or_eq_true, beq_iff_eq, decide_eq_true_eq, not_or, not_le] at hexpiry
    refine Or.inr ⟨haccount, Nat.pos_of_ne_zero hexpiry.1, hexpiry.2, fun tx htx hnames => ?_⟩
    have hnot := List.any_eq_false.mp (Bool.not_eq_true _ |>.mp hconfirmed) tx htx
    simp only [Bool.and_eq_true, Bool.or_eq_true, beq_iff_eq, decide_eq_true_eq, not_and,
      not_lt] at hnot
    exact hnot hnames

end SigningDb

/-! ## The deletions -/

section Deletions

variable {K : Type} {cipher : BlobCipher K} {masterKey : K} {sessions : Sessions K}
  {material : KeyMaterial} {accountId : Int} {keyId : Nat} {db after : SigningDb}

/-- What a removal does, row by row. -/
structure KeyDeleted (accountId : Int) (keyId : Nat) (db after : SigningDb) : Prop where
  spent : ∀ row ∈ db.stored.notes.rows, row.accountId = accountId →
    db.belongsToKey accountId keyId row = true → row.spent = true
  notes : ∀ row, row ∈ after.stored.notes.rows ↔ row ∈ db.stored.notes.rows ∧
    ¬ (row.accountId = accountId ∧ db.belongsToKey accountId keyId row = true)
  addresses : ∀ row, row ∈ after.stored.imports.addresses.rows ↔
    row ∈ db.stored.imports.addresses.rows ∧
      ¬ (row.accountId = accountId ∧ row.keyId = some (keyId : Int))
  keys : ∀ row, row ∈ after.keys.rows ↔ row ∈ db.keys.rows ∧ row.id ≠ keyId
  preferences : ∀ id, id ∈ after.displayPreferences ↔ id ∈ db.displayPreferences ∧
    ¬ ∃ row ∈ db.stored.imports.addresses.rows,
      row.accountId = accountId ∧ row.keyId = some (keyId : Int) ∧ (row.id : Int) = id
  secrets : after.secrets = db.secrets
  intents : ∀ intent ∈ db.intents, intent.accountId = accountId →
    outgoingTransactionIsConfirmed intent.txid db.transactions = true ∨
      intent.Expired accountId db.syncState.localHeight db.transactions

/-- The one row that is deleted is the one with the id. -/
theorem mem_deleteWhere_key {keys : AccountKeys} {doomed : AccountKeyRow → Bool}
    (hid : ∀ row, doomed row = true → row.id = keyId)
    (hone : (keys.rows.filter doomed).length = 1) (row : AccountKeyRow) :
    row ∈ (keys.deleteWhere doomed).rows ↔ row ∈ keys.rows ∧ row.id ≠ keyId := by
  obtain ⟨target, htarget⟩ := List.length_eq_one_iff.mp hone
  obtain ⟨hmem, hdoomed⟩ := List.mem_filter.mp (htarget ▸ List.mem_singleton_self target)
  rw [AutoTable.deleteWhere_rows, List.mem_filter]
  refine and_congr_right fun hrow => ?_
  rw [Bool.not_eq_true', ← Bool.not_eq_true, not_iff_not]
  refine ⟨hid row, fun heq => ?_⟩
  rw [AutoTable.row_eq_of_id hrow hmem (heq.trans (hid target hdoomed).symm)]
  exact hdoomed

theorem keyDeleted_of_remove
    (h : db.removeImportedSpendingKey cipher masterKey sessions material accountId keyId =
      .ok after) : KeyDeleted accountId keyId db after := by
  obtain ⟨activeKeyIds, expired, noteIds, hexpired, hnotes, hdelete⟩ := deleteKey_of_remove h
  obtain ⟨hone, addresses, haddresses, rfl⟩ := deleteKey_eq_ok hdelete
  obtain ⟨hspent, hids⟩ := SigningDb.notesOfKey_eq_ok hnotes
  have hof : ∀ row, row ∈ db.stored.notes.rows.filter (fun note => note.accountId == accountId) ↔
      row ∈ db.stored.notes.rows ∧ row.accountId = accountId := by
    intro row
    rw [List.mem_filter, beq_iff_eq]
  constructor
  case spent =>
    intro row hrow haccount hbelongs
    exact (hspent row ((hof row).mpr ⟨hrow, haccount⟩) hbelongs).1
  case notes =>
    intro row
    rw [AutoTable.deleteWhere_rows, List.mem_filter]
    refine and_congr_right fun hrow => ?_
    rw [Bool.not_eq_true', ← Bool.not_eq_true, not_iff_not, List.contains_iff_mem]
    constructor
    · intro hid
      obtain ⟨note, hnote, hsame, hbelongs⟩ := hids row.id hid
      obtain ⟨hmem, haccount⟩ := (hof note).mp hnote
      obtain rfl := AutoTable.row_eq_of_id hmem hrow hsame
      exact ⟨haccount, hbelongs⟩
    · rintro ⟨haccount, hbelongs⟩
      exact (hspent row ((hof row).mpr ⟨hrow, haccount⟩) hbelongs).2
  case addresses =>
    intro row
    show row ∈ addresses.rows ↔ _
    rw [haddresses, List.mem_filter]
    refine and_congr_right fun _ => ?_
    rw [Bool.not_eq_true', ← Bool.not_eq_true, not_iff_not, Bool.and_eq_true, beq_iff_eq,
      beq_iff_eq]
  case keys =>
    refine mem_deleteWhere_key (fun row hdoomed => ?_) hone
    simp only [Bool.and_eq_true, beq_iff_eq] at hdoomed
    exact hdoomed.1.1
  case preferences =>
    intro id
    rw [List.mem_filter]
    refine and_congr_right fun _ => ?_
    rw [Bool.not_eq_true', ← Bool.not_eq_true, not_iff_not, List.contains_iff_mem, List.mem_map]
    constructor
    · rintro ⟨row, hrow, hid⟩
      obtain ⟨hmem, hpasses⟩ := List.mem_filter.mp hrow
      simp only [Bool.and_eq_true, beq_iff_eq] at hpasses
      exact ⟨row, hmem, hpasses.1, hpasses.2, hid⟩
    · rintro ⟨row, hmem, haccount, hkey, hid⟩
      exact ⟨row, List.mem_filter.mpr ⟨hmem, by simp [haccount, hkey]⟩, hid⟩
  case secrets => rfl
  case intents => exact SigningDb.expired_of_ok hexpired

namespace KeyDeleted

variable (h : KeyDeleted accountId keyId db after)

include h

/-- A row that is not the key's is read as before. -/
theorem material_same (later : Sessions K) {other : Nat} (hne : other ≠ keyId) :
    after.getAccountKeyById cipher masterKey later other =
      db.getAccountKeyById cipher masterKey later other := by
  by_cases hstored : ∃ row ∈ db.keys.rows, row.id = other
  · obtain ⟨row, hrow, rfl⟩ := hstored
    exact getAccountKeyById_of_mem later hrow ((h.keys row).mpr ⟨hrow, hne⟩)
  · have hnone : ∀ rows : List AccountKeyRow, (∀ row ∈ rows, row ∈ db.keys.rows) →
        rows.find? (fun row => row.id == other) = none := by
      intro rows hsub
      refine List.find?_eq_none.mpr fun row hrow hid => ?_
      exact hstored ⟨row, hsub row hrow, beq_iff_eq.mp hid⟩
    unfold SigningDb.getAccountKeyById
    rw [hnone _ (fun row hrow => hrow), hnone _ (fun row hrow => ((h.keys row).mp hrow).1)]

/-- An unspent row of the account is not one of the key, and stays. -/
theorem unspent_stays {row : NoteRow} {key : OutputKey}
    (hrow : row ∈ db.stored.notes.rowsOf accountId key) (hunspent : row.spent = false) :
    row ∈ after.stored.notes.rowsOf accountId key := by
  obtain ⟨hmem, haccount, hkey⟩ := Notes.mem_rowsOf.mp hrow
  refine Notes.mem_rowsOf.mpr ⟨(h.notes row).mpr ⟨hmem, fun hbelongs => ?_⟩, haccount, hkey⟩
  rw [h.spent row hmem haccount hbelongs.2] at hunspent
  cases hunspent

theorem mem_rowsOf_of_after {row : NoteRow} {key : OutputKey}
    (hrow : row ∈ after.stored.notes.rowsOf accountId key) :
    row ∈ db.stored.notes.rowsOf accountId key := by
  obtain ⟨hmem, hof⟩ := Notes.mem_rowsOf.mp hrow
  exact Notes.mem_rowsOf.mpr ⟨((h.notes row).mp hmem).1, hof⟩

/-- The views show the same rows. -/
theorem unspentNotes_perm (hseparable : Separable accountId keyId db) :
    (after.stored.notes.getUnspentNotes accountId).Perm
      (db.stored.notes.getUnspentNotes accountId) := by
  refine (List.perm_ext_iff_of_nodup (latestUnspent_rows_nodup _ _ _)
    (latestUnspent_rows_nodup _ _ _)).mpr fun row => ?_
  show row ∈ after.stored.notes.getUnspentNotes accountId ↔
    row ∈ db.stored.notes.getUnspentNotes accountId
  rw [mem_getUnspentNotes, mem_getUnspentNotes]
  refine and_congr_right fun _ => shown_of_spent_removed (fun _ => h.mem_rowsOf_of_after)
    (fun _ => h.unspent_stays) ?_
  intro unspent hunspent hisUnspent hvalid spent hspent hisSpent
  -- a spent row that stays: this one, or else one that is not the key's
  by_cases howned : db.OwnsNote keyId spent
  · obtain ⟨other, hother, hotherSpent, hnot⟩ :=
      hseparable.covered _ unspent hunspent hisUnspent hvalid spent hspent hisSpent howned
    obtain ⟨hmem, hof⟩ := Notes.mem_rowsOf.mp hother
    exact ⟨other, Notes.mem_rowsOf.mpr ⟨(h.notes other).mpr ⟨hmem, fun hbelongs =>
      hnot (SigningDb.ownsNote_of_belongs hbelongs.2)⟩, hof⟩, hotherSpent⟩
  · obtain ⟨hmem, hof⟩ := Notes.mem_rowsOf.mp hspent
    exact ⟨spent, Notes.mem_rowsOf.mpr ⟨(h.notes spent).mpr ⟨hmem, fun hbelongs =>
      howned (SigningDb.ownsNote_of_belongs hbelongs.2)⟩, hof⟩, hisSpent⟩

theorem forgotten_of_separable (hseparable : Separable accountId keyId db) :
    KeyForgotten cipher masterKey accountId keyId db after := by
  have hbelongs := fun row => @SigningDb.belongs_iff_ownsNote db accountId keyId
    hseparable.addresses row
  have hperm := h.unspentNotes_perm hseparable
  constructor
  case unspent => exact hperm
  case balance => exact fun currentHeight minDepth => calculateBalance_perm hperm _ _
  case notes =>
    intro row hnot
    rw [h.notes, hbelongs]
    exact and_iff_left fun howned => hnot howned.2
  case addresses =>
    intro row hnot
    rw [h.addresses]
    exact and_iff_left fun howned => hnot howned.2
  case keys => exact h.keys
  case preferences =>
    intro id hnot
    rw [h.preferences]
    refine and_iff_left ?_
    rintro ⟨row, hrow, -, hkey, hid⟩
    exact hnot ⟨row, hrow, hkey, hid⟩
  case noNote =>
    intro row hrow howned
    obtain ⟨hmem, hnot⟩ := (h.notes row).mp hrow
    exact hnot ⟨hseparable.notes row hmem howned, (hbelongs row).mpr howned⟩
  case noAddress =>
    intro row hrow hkey
    obtain ⟨hmem, hnot⟩ := (h.addresses row).mp hrow
    exact hnot ⟨hseparable.addresses row hmem hkey, hkey⟩
  case noPreference =>
    rintro id hid ⟨row, hrow, hkey, hsame⟩
    obtain ⟨-, hnot⟩ := (h.preferences id).mp hid
    exact hnot ⟨row, hrow, hseparable.addresses row hrow hkey, hkey, hsame⟩
  case material => exact fun later other hne => h.material_same later hne
  case secrets => exact h.secrets
  case intents => exact h.intents

theorem separable_of_forgotten (hforgotten : KeyForgotten cipher masterKey accountId keyId db after) :
    Separable accountId keyId db := by
  constructor
  case notes =>
    intro row hrow howned
    by_contra hne
    exact hforgotten.noNote row ((h.notes row).mpr ⟨hrow, fun hgone => hne hgone.1⟩) howned
  case addresses =>
    intro row hrow hkey
    by_contra hne
    exact hforgotten.noAddress row ((h.addresses row).mpr ⟨hrow, fun hgone => hne hgone.1⟩) hkey
  case covered =>
    intro key row hrow hunspent hvalid spent hspent hisSpent howned
    by_contra hnone
    have hall : ∀ other ∈ after.stored.notes.rowsOf accountId key, other.spent = false := by
      intro other hother
      by_contra hne
      refine hnone ⟨other, h.mem_rowsOf_of_after hother, Bool.not_eq_false _ ▸ hne, ?_⟩
      exact hforgotten.noNote other (Notes.mem_rowsOf.mp hother).1
    obtain ⟨shown, hshown⟩ := exists_shown_of_uncovered (h.unspent_stays hrow hunspent) hvalid hall
    obtain ⟨-, haccount, rfl⟩ := Notes.mem_rowsOf.mp hshown.mem
    have hbefore := mem_getUnspentNotes.mp (hforgotten.unspent.mem_iff.mp
      (mem_getUnspentNotes.mpr ⟨haccount, hshown⟩))
    rw [hbefore.2.unspent spent hspent] at hisSpent
    cases hisSpent

end KeyDeleted

end Deletions

section Calls

variable {K : Type} (cipher : BlobCipher K) (masterKey : K) (sessions : Sessions K)
  (material : KeyMaterial)

/-- **Removing an imported key.** A removal that fails changes no row. One that succeeds has removed
the key and only the key if and only if the rows of the key are the account's and keep no unspent
row of another key from view. -/
theorem removal_forgets_only_the_key (accountId : Int) (keyId : Nat) (db after : SigningDb) :
    (∀ error, db.call cipher masterKey sessions material (.remove accountId keyId) =
      (some error, after) → after = db) ∧
    (db.call cipher masterKey sessions material (.remove accountId keyId) = (none, after) →
      (KeyForgotten cipher masterKey accountId keyId db after ↔ Separable accountId keyId db)) := by
  have hcall : db.call cipher masterKey sessions material (.remove accountId keyId) =
    settleKeys db (db.removeImportedSpendingKey cipher masterKey sessions material accountId keyId) :=
    rfl
  rw [hcall]
  cases hresult : db.removeImportedSpendingKey cipher masterKey sessions material accountId keyId with
  | error error =>
    refine ⟨fun _ h => ?_, fun h => ?_⟩
    · exact (Prod.mk.inj h).2.symm
    · cases (Prod.mk.inj h).1
  | ok removed =>
    refine ⟨fun _ h => ?_, fun h => ?_⟩
    · cases (Prod.mk.inj h).1
    · obtain rfl := (Prod.mk.inj h).2
      have hdeleted := keyDeleted_of_remove hresult
      exact ⟨hdeleted.separable_of_forgotten, hdeleted.forgotten_of_separable⟩

end Calls

/-- An output of one of two keys, spent or not. -/
def keyedOutput (id : Nat) (keyId : Int) (spentTxid : Option Bytes) : NoteRow :=
  { outputRow id 500 90 with
    keyId := some keyId, spent := spentTxid.isSome, spentTxid := spentTxid }

/-- A wallet in sync, with its seed key and an imported spending key. -/
def importedKeyWallet (notes : Notes) : SigningDb where
  stored := {
    imports := {
      keys := AccountKeys.insert
        { accountId := 1, keyType := .importSpend, keyScope := .account, label := none,
          birthdayHeight := 100, createdAt := 1, spendable := true, saplingExtsk := some [7, 43],
          saplingDfvk := some [7, 43], orchardExtsk := none, orchardFvk := none,
          encryptedMnemonic := none }
        unprotectedWallet.keys
      addresses := AddressStore.fresh.table
      spendabilityState := some { SpendabilityStateRow.default "t" with
        rescanRequired := false, targetHeight := 100, anchorHeight := 90,
        validatedAnchorHeight := 90, repairQueued := false }
      importedKeyRecovery := true }
    seedKeys := ⟨[], seedConstraints_nil⟩
    notes := notes
    discoveryComplete := true
    seedKeyScanReplay := false }
  secrets := []
  protection := []
  displayPreferences := []
  syncState := ⟨100, 100, 100, "t"⟩
  queue := AutoTable.empty
  intents := []
  transactions := []

/-- A stale unspent row of the seed key, and a spent one of the imported key, of one output. -/
def sharedNotes : Notes where
  rows := [keyedOutput 1 1 none, keyedOutput 2 3 (some [9])]
  nextId := 3
  ids_nodup := by decide
  ids_lt := by decide

/-- **A removal uncovers a stale row.** The output counts again once its spent row is gone. -/
theorem removal_uncovers_stale_row :
    ∃ after, (importedKeyWallet sharedNotes).call prefixCipher 7 (fun _ => none) plainMaterial
        (.remove 1 3) = (none, after) ∧
      calculateBalance 100 1 ((importedKeyWallet sharedNotes).stored.notes.getUnspentNotes 1) =
        .ok (0, 0, 0) ∧
      calculateBalance 100 1 (after.stored.notes.getUnspentNotes 1) = .ok (500, 0, 500) := by
  exact ⟨_, rfl, by decide +kernel, by decide +kernel⟩

/-- The same with a spent row of the seed key. -/
def coveredNotes : Notes where
  rows := [keyedOutput 1 1 none, keyedOutput 2 3 (some [9]), keyedOutput 3 1 (some [9])]
  nextId := 4
  ids_nodup := by decide
  ids_lt := by decide

theorem removal_forgets_only_the_key_covered :
    ∃ after, (importedKeyWallet coveredNotes).call prefixCipher 7 (fun _ => none) plainMaterial
        (.remove 1 3) = (none, after) ∧
      KeyForgotten prefixCipher 7 1 3 (importedKeyWallet coveredNotes) after := by
  refine ⟨_, rfl, ((removal_forgets_only_the_key prefixCipher 7 (fun _ => none) plainMaterial 1 3
    (importedKeyWallet coveredNotes) _).2 rfl).mpr ⟨by decide, by decide, ?_⟩⟩
  intro key row hrow _ _ spent _ _ _
  obtain ⟨hmem, -, rfl⟩ := Notes.mem_rowsOf.mp hrow
  have hsame : ∀ row ∈ coveredNotes.rows, (keyedOutput 3 1 (some [9])).outputKey = row.outputKey := by
    decide
  exact ⟨keyedOutput 3 1 (some [9]),
    Notes.mem_rowsOf.mpr ⟨by decide, rfl, hsame row hmem⟩, rfl, by decide⟩

end StashiWallet
