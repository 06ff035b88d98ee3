import StashiWallet.PassphraseChange

/-!
# A change of the passphrase that fails

One step of `change_app_passphrase` fails, and everything the call then does to undo its work
succeeds. Some exits undo what came before them and some leave by `?`; `ChangeStep.Undone` names
the steps whose failure leaves the app as it was. The pass over the tables can be undone because
it succeeds in both directions, on the same cells (`reencryptWalletTables_of_decrypts`).
-/

namespace StashiWallet

/-! ## The pass, there and back -/

section Pass

variable {K C : Type} {aead : Aead K C Bytes} {oldKey newKey : K}

/-- The tables without the two the pass leaves out. -/
def EncryptedTables.listed (tables : EncryptedTables C) : EncryptedTables C :=
  { tables with outgoingTransactionIntents := [], unlinkedSpendNullifiers := [] }

theorem EncryptedTables.cells_map {D : Type} (f : C → D) (tables : EncryptedTables C) :
    (tables.map f).cells = tables.cells.map f := by
  simp [EncryptedTables.map, EncryptedTables.cells, List.flatMap_map, List.map_flatMap,
    Function.comp_def, EncryptedNote.map, EncryptedNote.cells, EncryptedWalletSecret.map,
    EncryptedWalletSecret.cells, EncryptedMemo.map, EncryptedAccountKey.map,
    EncryptedAccountKey.cells, EncryptedDisclosure.map, EncryptedFrontier.map,
    EncryptedIntent.map, EncryptedIntent.cells, EncryptedUnlinkedSpend.map,
    EncryptedUnlinkedSpend.cells, Option.toList_map]

theorem EncryptedTables.mem_cells_of_mem_listed {tables : EncryptedTables C} {cell : C}
    (h : cell ∈ tables.listed.cells) : cell ∈ tables.cells := by
  simp only [EncryptedTables.listed, EncryptedTables.cells, List.flatMap_nil, List.append_nil]
    at h ⊢
  exact List.mem_append_left _ (List.mem_append_left _ h)

/-- The cell under the new key, where it decrypts under the old one. -/
def movedBlob (aead : Aead K C Bytes) (oldKey newKey : K) (cell : C) : C :=
  (aead.reencrypt oldKey newKey cell).getD cell

theorem reencryptBlob_of_isSome {blob : C} (h : (aead.decrypt oldKey blob).isSome = true) :
    reencryptBlob aead oldKey newKey blob = .ok (movedBlob aead oldKey newKey blob) := by
  obtain ⟨message, hmessage⟩ := Option.isSome_iff_exists.mp h
  unfold reencryptBlob movedBlob Aead.reencrypt
  rw [hmessage]
  rfl

theorem reencryptOptionalBlob_of_isSome {blob : Option C}
    (h : ∀ cell ∈ blob.toList, (aead.decrypt oldKey cell).isSome = true) :
    reencryptOptionalBlob aead oldKey newKey blob =
      .ok (blob.map (movedBlob aead oldKey newKey)) := by
  cases blob with
  | none => rfl
  | some blob =>
    rw [reencryptOptionalBlob, reencryptBlob_of_isSome (h blob List.mem_cons_self)]
    rfl

theorem mapM_of_forall {α : Type} {f : α → Except String α} {g : α → α} {rows : List α}
    (h : ∀ row ∈ rows, f row = .ok (g row)) : rows.mapM f = .ok (rows.map g) := by
  induction rows with
  | nil => rfl
  | cons row rows ih =>
    obtain ⟨hfirst, hrest⟩ := List.forall_mem_cons.mp h
    rw [List.mapM_cons, hfirst, ih hrest]
    rfl

theorem EncryptedNote.reencrypt_of_isSome {row : EncryptedNote C}
    (h : ∀ cell ∈ row.cells, (aead.decrypt oldKey cell).isSome = true) :
    row.reencrypt aead oldKey newKey = .ok (row.map (movedBlob aead oldKey newKey)) := by
  simp only [EncryptedNote.cells, List.forall_mem_append, List.forall_mem_cons] at h
  obtain ⟨⟨⟨⟨⟨⟨⟨⟨haccountId, hvalue, hnullifier, hcommitment, hspent, hheight, htxid, hindex, -⟩,
    hspentTxid⟩, hdiversifier⟩, hnote⟩, hposition⟩, hmemo⟩, haddressId⟩, hkeyId⟩ := h
  unfold EncryptedNote.reencrypt
  rw [reencryptBlob_of_isSome haccountId, reencryptBlob_of_isSome hvalue,
    reencryptBlob_of_isSome hnullifier, reencryptBlob_of_isSome hcommitment,
    reencryptBlob_of_isSome hspent, reencryptBlob_of_isSome hheight,
    reencryptBlob_of_isSome htxid, reencryptBlob_of_isSome hindex,
    reencryptOptionalBlob_of_isSome hspentTxid, reencryptOptionalBlob_of_isSome hdiversifier,
    reencryptOptionalBlob_of_isSome hnote, reencryptOptionalBlob_of_isSome hposition,
    reencryptOptionalBlob_of_isSome hmemo, reencryptOptionalBlob_of_isSome haddressId,
    reencryptOptionalBlob_of_isSome hkeyId]
  rfl

theorem EncryptedWalletSecret.reencrypt_of_isSome {row : EncryptedWalletSecret C}
    (h : ∀ cell ∈ row.cells, (aead.decrypt oldKey cell).isSome = true) :
    row.reencrypt aead oldKey newKey = .ok (row.map (movedBlob aead oldKey newKey)) := by
  simp only [EncryptedWalletSecret.cells, List.forall_mem_append, List.forall_mem_cons] at h
  obtain ⟨⟨⟨⟨⟨⟨haccountId, hextsk, hcreatedAt, -⟩, hdfvk⟩, horchardExtsk⟩, hsaplingIvk⟩,
    horchardIvk⟩, hmnemonic⟩ := h
  unfold EncryptedWalletSecret.reencrypt
  rw [reencryptBlob_of_isSome haccountId, reencryptBlob_of_isSome hextsk,
    reencryptBlob_of_isSome hcreatedAt, reencryptOptionalBlob_of_isSome hdfvk,
    reencryptOptionalBlob_of_isSome horchardExtsk, reencryptOptionalBlob_of_isSome hsaplingIvk,
    reencryptOptionalBlob_of_isSome horchardIvk, reencryptOptionalBlob_of_isSome hmnemonic]
  rfl

theorem EncryptedAccountKey.reencrypt_of_isSome {row : EncryptedAccountKey C}
    (h : ∀ cell ∈ row.cells, (aead.decrypt oldKey cell).isSome = true) :
    row.reencrypt aead oldKey newKey = .ok (row.map (movedBlob aead oldKey newKey)) := by
  simp only [EncryptedAccountKey.cells, List.forall_mem_append] at h
  obtain ⟨⟨⟨⟨hsaplingExtsk, hsaplingDfvk⟩, horchardExtsk⟩, horchardFvk⟩, hmnemonic⟩ := h
  unfold EncryptedAccountKey.reencrypt
  rw [reencryptOptionalBlob_of_isSome hsaplingExtsk, reencryptOptionalBlob_of_isSome hsaplingDfvk,
    reencryptOptionalBlob_of_isSome horchardExtsk, reencryptOptionalBlob_of_isSome horchardFvk,
    reencryptOptionalBlob_of_isSome hmnemonic]
  rfl

theorem EncryptedMemo.reencrypt_of_isSome {row : EncryptedMemo C}
    (h : (aead.decrypt oldKey row.memo).isSome = true) :
    row.reencrypt aead oldKey newKey = .ok (row.map (movedBlob aead oldKey newKey)) := by
  unfold EncryptedMemo.reencrypt
  rw [reencryptBlob_of_isSome h]
  rfl

theorem EncryptedDisclosure.reencrypt_of_isSome {row : EncryptedDisclosure C}
    (h : (aead.decrypt oldKey row.payload).isSome = true) :
    row.reencrypt aead oldKey newKey = .ok (row.map (movedBlob aead oldKey newKey)) := by
  unfold EncryptedDisclosure.reencrypt
  rw [reencryptBlob_of_isSome h]
  rfl

theorem EncryptedFrontier.reencrypt_of_isSome {row : EncryptedFrontier C}
    (h : (aead.decrypt oldKey row.frontier).isSome = true) :
    row.reencrypt aead oldKey newKey = .ok (row.map (movedBlob aead oldKey newKey)) := by
  unfold EncryptedFrontier.reencrypt
  rw [reencryptBlob_of_isSome h]
  rfl

/-- The pass succeeds if every cell of its tables decrypts. -/
theorem reencryptWalletTables_of_decrypts {tables : EncryptedTables C}
    (h : ∀ cell ∈ tables.listed.cells, (aead.decrypt oldKey cell).isSome = true) :
    ∃ moved, reencryptWalletTables aead oldKey newKey tables = .ok moved := by
  simp only [EncryptedTables.listed, EncryptedTables.cells, List.forall_mem_append,
    List.forall_mem_flatMap, List.forall_mem_map] at h
  obtain ⟨⟨⟨⟨⟨⟨⟨hnotes, hsecrets⟩, hmemos⟩, haccountKeys⟩, hdisclosures⟩, hsnapshots⟩, -⟩, -⟩ := h
  unfold reencryptWalletTables
  rw [mapM_of_forall fun row hrow => EncryptedNote.reencrypt_of_isSome (hnotes row hrow),
    mapM_of_forall fun row hrow => EncryptedWalletSecret.reencrypt_of_isSome (hsecrets row hrow),
    mapM_of_forall fun row hrow => EncryptedMemo.reencrypt_of_isSome (hmemos row hrow),
    mapM_of_forall fun row hrow => EncryptedAccountKey.reencrypt_of_isSome (haccountKeys row hrow),
    mapM_of_forall fun row hrow =>
      EncryptedDisclosure.reencrypt_of_isSome (hdisclosures row hrow),
    mapM_of_forall fun row hrow => EncryptedFrontier.reencrypt_of_isSome (hsnapshots row hrow)]
  exact ⟨_, rfl⟩

/-- The two tables the pass leaves out stay as they are. -/
theorem reencryptWalletTables_leftOut {tables moved : EncryptedTables C}
    (h : reencryptWalletTables aead oldKey newKey tables = .ok moved) :
    moved.outgoingTransactionIntents = tables.outgoingTransactionIntents ∧
      moved.unlinkedSpendNullifiers = tables.unlinkedSpendNullifiers := by
  obtain ⟨notes, -, h⟩ := bind_eq_ok h
  obtain ⟨secrets, -, h⟩ := bind_eq_ok h
  obtain ⟨memos, -, h⟩ := bind_eq_ok h
  obtain ⟨accountKeys, -, h⟩ := bind_eq_ok h
  obtain ⟨disclosures, -, h⟩ := bind_eq_ok h
  obtain ⟨snapshots, -, h⟩ := bind_eq_ok h
  obtain rfl := Except.ok.inj h
  exact ⟨rfl, rfl⟩

/-- What the pass has moved, the pass in the other direction moves back. -/
theorem reencryptWalletTables_back {tables moved : EncryptedTables C}
    (h : reencryptWalletTables aead oldKey newKey tables = .ok moved)
    (hdecrypts : ∀ cell ∈ tables.cells, (aead.decrypt oldKey cell).isSome = true) :
    ∃ back, reencryptWalletTables aead newKey oldKey moved = .ok back ∧
      back.map (aead.decrypt oldKey) = tables.map (aead.decrypt oldKey) := by
  have hread := reencryptWalletTables_eq_ok h
  obtain ⟨hintents, hspends⟩ := reencryptWalletTables_leftOut h
  have hlisted : moved.listed.map (aead.decrypt newKey) =
      tables.listed.map (aead.decrypt oldKey) := by
    simp only [EncryptedTables.map, EncryptedTables.mk.injEq] at hread
    obtain ⟨hnotes, hsecrets, hmemos, haccountKeys, hdisclosures, hsnapshots, -⟩ := hread
    simp only [EncryptedTables.map, EncryptedTables.listed, EncryptedTables.mk.injEq]
    exact ⟨hnotes, hsecrets, hmemos, haccountKeys, hdisclosures, hsnapshots, rfl, rfl⟩
  obtain ⟨back, hback⟩ := @reencryptWalletTables_of_decrypts K C aead newKey oldKey moved (by
    intro cell hcell
    have hmem : aead.decrypt newKey cell ∈ (moved.listed.map (aead.decrypt newKey)).cells := by
      rw [EncryptedTables.cells_map]
      exact List.mem_map_of_mem hcell
    rw [hlisted, EncryptedTables.cells_map] at hmem
    obtain ⟨cell', hcell', hread'⟩ := List.mem_map.mp hmem
    rw [← hread']
    exact hdecrypts cell' (EncryptedTables.mem_cells_of_mem_listed hcell'))
  refine ⟨back, hback, ?_⟩
  rw [reencryptWalletTables_eq_ok hback, hread, hintents, hspends]
  rfl

end Pass

/-! ## Which failures are undone -/

section Failure

variable {K F C : Type} [DecidableEq F]

/-- An app whose files are all under one passphrase. -/
structure AppStorage.Under (aead : Aead K C Bytes) (keys : KeyDerivation K F) (passphrase : String)
    (storage : AppStorage F C) : Prop where
  registry : storage.registryKey = keys.registryKey passphrase
  hash : storage.passphraseHash = some (keys.hash passphrase)
  wallets : ∀ file ∈ storage.wallets, file.dbKey = keys.dbKey file.walletId passphrase ∧
    file.Decrypts aead keys passphrase

/-- The app after the call is still the one of the current passphrase: every wallet opens and
reads as before, the registry opens, the current passphrase is accepted and the new one is not. -/
structure KeepsPassphrase (aead : Aead K C Bytes) (keys : KeyDerivation K F)
    (currentPassphrase newPassphrase : String) (before after : AppStorage F C) : Prop where
  wallets : after.wallets.map (fun file =>
      (file.walletId, file.read aead keys currentPassphrase)) =
    before.wallets.map (fun file => (file.walletId, file.read aead keys currentPassphrase))
  registry : after.registryKey = keys.registryKey currentPassphrase
  accepts : after.verifyAppPassphrase keys currentPassphrase = true
  rejects : after.verifyAppPassphrase keys newPassphrase = false

/-- The steps whose failure leaves nothing behind. A wallet that cannot be opened does so only
if no wallet was changed before it, and a hash that is not inserted only if the registry cannot
be opened by its sealed key. -/
def ChangeStep.Undone (storage : AppStorage F C) : ChangeStep → Prop
  | .validateNew | .verifyCurrent | .loadRegistry | .openRegistry | .registryKeys => True
  | .openWallet walletId | .walletKeys walletId =>
    storage.wallets.head?.map WalletFile.walletId = some walletId
  | .rekeyWallet _ | .rekeyRegistry | .deleteHash => True
  | .insertHash => storage.sealRegistryKey.registrySealedKey ≠ some storage.registryKey
  | _ => False

/-- The steps that undo. -/
def ChangeStep.Compensates : ChangeStep → Prop
  | .rollbackOpen _ | .rollbackRekey _ | .rollbackBegin _ | .rollbackRow _ _ | .rollbackCommit _
  | .rollbackKeyPath _ | .restoreRegistry => True
  | _ => False

variable {aead : Aead K C Bytes} {keys : KeyDerivation K F} {fails : ChangeStep → Bool}
  {currentPassphrase newPassphrase : String}

/-! ## One wallet -/

theorem WalletFile.change_changed_steps {file changed : WalletFile F C}
    (h : file.change aead keys fails currentPassphrase newPassphrase = .changed changed) :
    fails (.openWallet file.walletId) = false ∧ fails (.walletKeys file.walletId) = false := by
  unfold WalletFile.change at h
  dsimp only at h
  split at h
  · cases h
  · rename_i hopen
    split at h
    · cases h
    · rename_i hkeys
      rw [not_or] at hopen
      exact ⟨Bool.eq_false_iff.mpr hopen.1, Bool.eq_false_iff.mpr hkeys⟩

/-- How a wallet under the current passphrase fails: unchanged, or with its new key. -/
theorem WalletFile.change_eq_failed {file left : WalletFile F C} {message : String}
    {rollback : Bool} {step : ChangeStep} (hfails : ∀ s, fails s = true → s = step)
    (hopen : file.dbKey = keys.dbKey file.walletId currentPassphrase)
    (hdecrypts : file.Decrypts aead keys currentPassphrase)
    (h : file.change aead keys fails currentPassphrase newPassphrase =
      .failed message rollback left) :
    (step = .openWallet file.walletId ∨ step = .walletKeys file.walletId) ∧ rollback = false ∧
        left = file ∨
      step = .rekeyWallet file.walletId ∧ rollback = true ∧ left = file ∨
      (∀ storage : AppStorage F C, ¬ step.Undone storage) ∧ rollback = false ∧
        left.walletId = file.walletId ∧ left.dbKey = keys.dbKey file.walletId newPassphrase := by
  unfold WalletFile.change at h
  dsimp only at h
  split at h
  · rename_i hstep
    obtain ⟨-, rfl, rfl⟩ := WalletChange.failed.inj h
    exact .inl ⟨.inl (hfails _ (hstep.resolve_right (not_not.mpr hopen))).symm, rfl, rfl⟩
  split at h
  · rename_i hstep
    obtain ⟨-, rfl, rfl⟩ := WalletChange.failed.inj h
    exact .inl ⟨.inr (hfails _ hstep).symm, rfl, rfl⟩
  split at h
  · rename_i hstep
    obtain ⟨-, rfl, rfl⟩ := WalletChange.failed.inj h
    exact .inr (.inl ⟨(hfails _ hstep).symm, rfl, rfl⟩)
  -- from here on the file has its new key
  refine .inr (.inr ?_)
  split at h
  · rename_i hstep
    obtain rfl := hfails _ hstep
    obtain ⟨-, rfl, rfl⟩ := WalletChange.failed.inj h
    exact ⟨fun _ => id, rfl, rfl, rfl⟩
  split at h
  · rename_i hrows
    obtain ⟨row, -, hstep⟩ := List.any_eq_true.mp hrows
    obtain rfl := hfails _ hstep
    obtain ⟨-, rfl, rfl⟩ := WalletChange.failed.inj h
    exact ⟨fun _ => id, rfl, rfl, rfl⟩
  split at h
  · rename_i herror
    obtain ⟨moved, hmoved⟩ := @reencryptWalletTables_of_decrypts K C aead
      (keys.masterKey file.walletId currentPassphrase) (keys.masterKey file.walletId newPassphrase)
      file.tables
      (fun cell hcell => hdecrypts cell (EncryptedTables.mem_cells_of_mem_listed hcell))
    rw [hmoved] at herror
    cases herror
  split at h
  · rename_i hstep
    obtain rfl := hfails _ hstep
    obtain ⟨-, rfl, rfl⟩ := WalletChange.failed.inj h
    exact ⟨fun _ => id, rfl, rfl, rfl⟩
  split at h
  · rename_i hstep
    obtain rfl := hfails _ hstep
    obtain ⟨-, rfl, rfl⟩ := WalletChange.failed.inj h
    exact ⟨fun _ => id, rfl, rfl, rfl⟩
  cases h

/-- A changed wallet that is rolled back reads as it did. -/
theorem WalletFile.rollback_of_changed {file changed : WalletFile F C}
    (hnone : ∀ s : ChangeStep, s.Compensates → fails s = false)
    (hdecrypts : file.Decrypts aead keys currentPassphrase)
    (h : file.change aead keys fails currentPassphrase newPassphrase = .changed changed) :
    ∃ back, changed.rollback aead keys fails currentPassphrase newPassphrase = (back, true) ∧
      back.walletId = file.walletId ∧
      back.read aead keys currentPassphrase = file.read aead keys currentPassphrase := by
  obtain ⟨hopen, hid, -, htables⟩ := WalletFile.change_eq_changed h
  obtain ⟨tables, hback, hread⟩ := reencryptWalletTables_back htables hdecrypts
  have hrows : ((List.range changed.tables.updatedRows).any
      fun row => fails (.rollbackRow file.walletId row)) = false := by
    rw [List.any_eq_false]
    intro row _
    rw [hnone (.rollbackRow file.walletId row) trivial]
    exact Bool.false_ne_true
  refine ⟨⟨file.walletId, keys.dbKey file.walletId currentPassphrase, tables⟩, ?_, rfl, ?_⟩
  · unfold WalletFile.rollback
    dsimp only
    rw [hid, hnone (.rollbackOpen _) trivial, hnone (.rollbackRekey _) trivial,
      hnone (.rollbackBegin _) trivial, hrows, hback, hnone (.rollbackCommit _) trivial,
      hnone (.rollbackKeyPath _) trivial]
    rfl
  · unfold WalletFile.read
    dsimp only
    rw [if_pos rfl, if_pos hopen, hread]

/-- A wallet under another passphrase does not read as before. -/
theorem WalletFile.read_ne_of_moved (hkeys : ∀ walletId, (keys.dbKey walletId).Injective)
    (hne : newPassphrase ≠ currentPassphrase) {file left : WalletFile F C}
    (hopen : file.dbKey = keys.dbKey file.walletId currentPassphrase)
    (hid : left.walletId = file.walletId)
    (hmoved : left.dbKey = keys.dbKey file.walletId newPassphrase) :
    left.read aead keys currentPassphrase ≠ file.read aead keys currentPassphrase := by
  unfold WalletFile.read
  rw [if_pos hopen, hid, hmoved, if_neg (fun heq => hne (hkeys _ heq))]
  exact (Option.some_ne_none _).symm

/-! ## The loop and its rollback -/

/-- `rollback_wallets` on wallets that were changed. -/
theorem rollbackWallets_read {files changed : List (WalletFile F C)}
    (hnone : ∀ s : ChangeStep, s.Compensates → fails s = false)
    (hdecrypts : ∀ file ∈ files, file.Decrypts aead keys currentPassphrase)
    (h : List.Forall₂ (fun file file' =>
      file.change aead keys fails currentPassphrase newPassphrase = .changed file') files changed) :
    (rollbackWallets aead keys fails currentPassphrase newPassphrase changed).map
        (fun file => (file.walletId, file.read aead keys currentPassphrase)) =
      files.map (fun file => (file.walletId, file.read aead keys currentPassphrase)) := by
  have hreversed : ∀ {files changed : List (WalletFile F C)},
      (∀ file ∈ files, file.Decrypts aead keys currentPassphrase) →
      List.Forall₂ (fun file file' => file.change aead keys fails currentPassphrase newPassphrase =
        .changed file') files changed →
      (rollbackReversed aead keys fails currentPassphrase newPassphrase changed).map
          (fun file => (file.walletId, file.read aead keys currentPassphrase)) =
        files.map (fun file => (file.walletId, file.read aead keys currentPassphrase)) := by
    intro files changed hdecrypts h
    induction h with
    | nil => rfl
    | cons hfile _ ih =>
      obtain ⟨hfirst, hrest⟩ := List.forall_mem_cons.mp hdecrypts
      obtain ⟨back, hback, hid, hread⟩ := WalletFile.rollback_of_changed hnone hfirst hfile
      unfold rollbackReversed
      rw [hback]
      dsimp only
      rw [List.map_cons, List.map_cons, ih hrest, hid, hread]
  unfold rollbackWallets
  rw [List.map_reverse, hreversed (fun file hfile => hdecrypts file (List.mem_reverse.mp hfile))
    (List.rel_reverse h), List.map_reverse, List.reverse_reverse]

/-- The loop fails at one wallet, after changing those before it. -/
theorem changeWallets_eq_some {updated files result : List (WalletFile F C)} {message : String}
    (h : changeWallets aead keys fails currentPassphrase newPassphrase updated files =
      (some message, result)) :
    ∃ before changed file after rollback left, files = before ++ file :: after ∧
      List.Forall₂ (fun file file' =>
        file.change aead keys fails currentPassphrase newPassphrase = .changed file')
        before changed ∧
      file.change aead keys fails currentPassphrase newPassphrase =
        .failed message rollback left ∧
      result = (if rollback then
          rollbackWallets aead keys fails currentPassphrase newPassphrase (updated ++ changed)
        else updated ++ changed) ++ left :: after := by
  induction files generalizing updated with
  | nil =>
    unfold changeWallets at h
    cases (Prod.mk.inj h).1
  | cons file rest ih =>
    unfold changeWallets at h
    split at h
    · rename_i file' hfile
      obtain ⟨before, changed, failing, after, rollback, left, rfl, hchanged, hfailed, rfl⟩ := ih h
      refine ⟨file :: before, file' :: changed, failing, after, rollback, left, rfl,
        .cons hfile hchanged, hfailed, ?_⟩
      rw [List.append_assoc, List.singleton_append]
    · rename_i rollback left hfile
      obtain ⟨hmessage, rfl⟩ := Prod.mk.inj h
      obtain rfl := Option.some.inj hmessage
      refine ⟨[], [], file, rest, rollback, left, rfl, .nil, hfile, ?_⟩
      rw [List.append_nil]

/-! ## The whole call -/

variable {storage after : AppStorage F C}

theorem AppStorage.Under.verifies (h : storage.Under aead keys currentPassphrase) :
    storage.verifyAppPassphrase keys currentPassphrase = true := by
  unfold AppStorage.verifyAppPassphrase AppStorage.registryOpens
  rw [h.hash, h.registry]
  simp

theorem keepsPassphrase_of_hash (hne : newPassphrase ≠ currentPassphrase)
    (hwallets : after.wallets.map (fun file =>
        (file.walletId, file.read aead keys currentPassphrase)) =
      storage.wallets.map (fun file => (file.walletId, file.read aead keys currentPassphrase)))
    (hregistry : after.registryKey = keys.registryKey currentPassphrase)
    (hhash : after.passphraseHash = some (keys.hash currentPassphrase)) :
    KeepsPassphrase aead keys currentPassphrase newPassphrase storage after := by
  refine ⟨hwallets, hregistry, ?_, ?_⟩
  · unfold AppStorage.verifyAppPassphrase AppStorage.registryOpens
    rw [hhash, hregistry]
    simp
  · have hwrong : keys.verify (keys.hash currentPassphrase) newPassphrase = false :=
      Bool.eq_false_iff.mpr fun h => hne (keys.verify_hash.mp h).symm
    unfold AppStorage.verifyAppPassphrase
    rw [hhash]
    simp [hwrong]

omit [DecidableEq F] in
theorem sealRegistryKey_fields (storage : AppStorage F C) :
    storage.sealRegistryKey.registryKey = storage.registryKey ∧
      storage.sealRegistryKey.passphraseHash = storage.passphraseHash ∧
      storage.sealRegistryKey.wallets = storage.wallets := by
  unfold AppStorage.sealRegistryKey
  split
  · exact ⟨rfl, rfl, rfl⟩
  · exact ⟨rfl, rfl, rfl⟩

-- one step fails, which is none of those that undo, between two different passphrases
variable (hdbKeys : ∀ walletId, (keys.dbKey walletId).Injective)
  (hregistryKeys : keys.registryKey.Injective) (hne : newPassphrase ≠ currentPassphrase)
  {step : ChangeStep} (hfails : ∀ s, fails s = true → s = step) (hsteps : fails step = true)
  (hnone : ∀ s : ChangeStep, s.Compensates → fails s = false)
  (hstorage : storage.Under aead keys currentPassphrase) {message : String}

include hdbKeys hne hfails hsteps hnone hstorage in
/-- A call that fails in the loop. -/
theorem keeps_after_loop_iff {wallets : List (WalletFile F C)}
    (h : changeWallets aead keys fails currentPassphrase newPassphrase [] storage.wallets =
      (some message, wallets)) :
    KeepsPassphrase aead keys currentPassphrase newPassphrase storage
        { storage.sealRegistryKey with wallets := wallets } ↔ step.Undone storage := by
  obtain ⟨before, changed, file, after, rollback, left, hfiles, hchanged, hfailed, rfl⟩ :=
    changeWallets_eq_some h
  rw [List.nil_append]
  obtain ⟨hregistryKey, hhash, -⟩ := sealRegistryKey_fields storage
  have hkeeps : ∀ {wallets : List (WalletFile F C)},
      wallets.map (fun file => (file.walletId, file.read aead keys currentPassphrase)) =
        storage.wallets.map (fun file => (file.walletId, file.read aead keys currentPassphrase)) →
      KeepsPassphrase aead keys currentPassphrase newPassphrase storage
        { storage.sealRegistryKey with wallets := wallets } := fun hwallets =>
    keepsPassphrase_of_hash hne hwallets (hregistryKey.trans hstorage.registry)
      (hhash.trans hstorage.hash)
  have hlength : changed.length = before.length := hchanged.length_eq.symm
  have hbefore : ∀ file ∈ before, file ∈ storage.wallets := by
    intro file hfile
    rw [hfiles]
    exact List.mem_append_left _ hfile
  obtain ⟨hopen, hdecrypts⟩ := hstorage.wallets file (by rw [hfiles]; simp)
  rcases WalletFile.change_eq_failed hfails hopen hdecrypts hfailed with
    ⟨hstep, rfl, rfl⟩ | ⟨rfl, rfl, rfl⟩ | ⟨hstep, rfl, hid, hmoved⟩
  · -- the wallet is as before; those changed before it are not undone
    rw [if_neg Bool.false_ne_true]
    cases hchanged with
    | nil =>
      refine iff_of_true (hkeeps (congrArg (List.map _) hfiles.symm)) ?_
      rcases hstep with rfl | rfl
      · show storage.wallets.head?.map _ = _
        rw [hfiles]
        rfl
      · show storage.wallets.head?.map _ = _
        rw [hfiles]
        rfl
    | cons hfirst hrest =>
      rename_i first moved before changed
      obtain ⟨hfirstOpen, -⟩ := hstorage.wallets first (hbefore first List.mem_cons_self)
      obtain ⟨-, hid, hmoved, -⟩ := WalletFile.change_eq_changed hfirst
      obtain ⟨hnoOpen, hnoKeys⟩ := WalletFile.change_changed_steps hfirst
      refine iff_of_false ?_ ?_
      · intro hkept
        have hreads := hkept.wallets
        rw [hfiles] at hreads
        have hhead := (List.cons.inj hreads).1
        exact WalletFile.read_ne_of_moved hdbKeys hne hfirstOpen hid hmoved (Prod.mk.inj hhead).2
      · have hhead : storage.wallets.head?.map WalletFile.walletId = some first.walletId := by
          rw [hfiles]
          rfl
        rcases hstep with rfl | rfl
        · intro hundone
          change storage.wallets.head?.map _ = _ at hundone
          rw [← Option.some.inj (hhead.symm.trans hundone), hnoOpen] at hsteps
          cases hsteps
        · intro hundone
          change storage.wallets.head?.map _ = _ at hundone
          rw [← Option.some.inj (hhead.symm.trans hundone), hnoKeys] at hsteps
          cases hsteps
  · rw [if_pos rfl]
    refine iff_of_true (hkeeps ?_) trivial
    rw [hfiles, List.map_append, List.map_append, rollbackWallets_read hnone
      (fun file hfile => (hstorage.wallets file (hbefore file hfile)).2) hchanged]
  · rw [if_neg Bool.false_ne_true]
    refine iff_of_false ?_ (hstep storage)
    intro hkept
    have hreads := hkept.wallets
    rw [hfiles] at hreads
    dsimp only at hreads
    rw [List.map_append, List.map_append] at hreads
    have hrest := (List.append_inj hreads (by rw [List.length_map, List.length_map, hlength])).2
    exact WalletFile.read_ne_of_moved hdbKeys hne hopen hid hmoved
      (Prod.mk.inj (List.cons.inj hrest).1).2

include hregistryKeys hne hfails hnone hstorage in
/-- A call that fails after the loop. -/
theorem keeps_after_registry_iff {changed : List (WalletFile F C)}
    (hchanged : List.Forall₂ (fun file file' =>
      file.change aead keys fails currentPassphrase newPassphrase = .changed file')
      storage.wallets changed)
    (h : (changeRegistry aead keys fails currentPassphrase newPassphrase
      { storage.sealRegistryKey with wallets := changed }).1 = .error message) :
    KeepsPassphrase aead keys currentPassphrase newPassphrase storage
        (changeRegistry aead keys fails currentPassphrase newPassphrase
          { storage.sealRegistryKey with wallets := changed }).2 ↔ step.Undone storage := by
  obtain ⟨hregistryKey, hhash, -⟩ := sealRegistryKey_fields storage
  have hrolledBack := rollbackWallets_read hnone
    (fun file hfile => (hstorage.wallets file hfile).2) hchanged
  -- once the registry has its new key for good, it does not open as before
  have hlost : ∀ after : AppStorage F C, after.registryKey = keys.registryKey newPassphrase →
      ¬ KeepsPassphrase aead keys currentPassphrase newPassphrase storage after := by
    intro after hmoved hkept
    exact hne (hregistryKeys (hmoved.symm.trans hkept.registry))
  unfold changeRegistry at h ⊢
  dsimp only at h ⊢
  rw [hnone .restoreRegistry trivial, if_neg Bool.false_ne_true, hregistryKey] at h ⊢
  by_cases hrekey : fails .rekeyRegistry = true
  · rw [if_pos hrekey]
    obtain rfl := hfails _ hrekey
    refine iff_of_true ?_ trivial
    exact keepsPassphrase_of_hash hne hrolledBack hstorage.registry (hhash.trans hstorage.hash)
  rw [if_neg hrekey] at h ⊢
  by_cases hhashNew : fails .hashNew = true
  · rw [if_pos hhashNew]
    obtain rfl := hfails _ hhashNew
    exact iff_of_false (hlost _ rfl) id
  rw [if_neg hhashNew] at h ⊢
  by_cases hdelete : fails .deleteHash = true
  · rw [if_pos hdelete]
    obtain rfl := hfails _ hdelete
    refine iff_of_true ?_ trivial
    exact keepsPassphrase_of_hash hne hrolledBack hstorage.registry (hhash.trans hstorage.hash)
  rw [if_neg hdelete] at h ⊢
  by_cases hinsert : fails .insertHash = true
  · rw [if_pos hinsert]
    obtain rfl := hfails _ hinsert
    -- the hash is gone: whoever can open the registry is accepted
    constructor
    · intro hkept hsealed
      have hrejects := hkept.rejects
      unfold AppStorage.verifyAppPassphrase AppStorage.registryOpens at hrejects
      simp [hsealed] at hrejects
    · intro hsealed
      change storage.sealRegistryKey.registrySealedKey ≠ some storage.registryKey at hsealed
      have hfits : storage.registryKey ≠ keys.registryKey newPassphrase := by
        rw [hstorage.registry]
        exact fun heq => hne (hregistryKeys heq).symm
      refine ⟨hrolledBack, hstorage.registry, ?_, ?_⟩
      · unfold AppStorage.verifyAppPassphrase AppStorage.registryOpens
        simp [hstorage.registry]
      · unfold AppStorage.verifyAppPassphrase AppStorage.registryOpens
        simp [hsealed, hfits]
  rw [if_neg hinsert] at h ⊢
  by_cases hpath : fails .registryKeyPath = true
  · rw [if_pos hpath]
    obtain rfl := hfails _ hpath
    exact iff_of_false (hlost _ rfl) id
  rw [if_neg hpath] at h ⊢
  by_cases hreload : fails .reloadRegistry = true
  · rw [if_pos hreload]
    obtain rfl := hfails _ hreload
    refine iff_of_false (hlost _ ?_) id
    split
    · rfl
    · rfl
  · rw [if_neg hreload] at h
    cases h

include hdbKeys hregistryKeys hne hfails hsteps hnone hstorage in
/-- A call with one failing step, between two different passphrases. -/
theorem keeps_after_change_iff
    (h : (changeAppPassphrase aead keys fails currentPassphrase newPassphrase storage).1 =
      .error message) :
    KeepsPassphrase aead keys currentPassphrase newPassphrase storage
        (changeAppPassphrase aead keys fails currentPassphrase newPassphrase storage).2 ↔
      step.Undone storage := by
  obtain ⟨hregistryKey, hhash, hwallets⟩ := sealRegistryKey_fields storage
  have hunchanged : KeepsPassphrase aead keys currentPassphrase newPassphrase storage storage :=
    keepsPassphrase_of_hash hne rfl hstorage.registry hstorage.hash
  have hsealed : KeepsPassphrase aead keys currentPassphrase newPassphrase storage
      storage.sealRegistryKey :=
    keepsPassphrase_of_hash hne (by rw [hwallets]) (hregistryKey.trans hstorage.registry)
      (hhash.trans hstorage.hash)
  unfold changeAppPassphrase at h ⊢
  by_cases hvalidate : fails .validateNew = true
  · rw [if_pos hvalidate]
    obtain rfl := hfails _ hvalidate
    exact iff_of_true hunchanged trivial
  rw [if_neg hvalidate] at h ⊢
  by_cases hverify : fails .verifyCurrent = true
  · rw [if_pos (Or.inl hverify)]
    obtain rfl := hfails _ hverify
    exact iff_of_true hunchanged trivial
  have hverified : ¬ (fails .verifyCurrent = true ∨
      ¬ storage.verifyAppPassphrase keys currentPassphrase = true) := by
    rintro (hfail | hrefused)
    · exact hverify hfail
    · exact hrefused hstorage.verifies
  rw [if_neg hverified] at h ⊢
  dsimp only at h ⊢
  by_cases hload : fails .loadRegistry = true
  · rw [if_pos hload]
    obtain rfl := hfails _ hload
    exact iff_of_true hsealed trivial
  rw [if_neg hload] at h ⊢
  by_cases hopen : fails .openRegistry = true
  · rw [if_pos hopen]
    obtain rfl := hfails _ hopen
    exact iff_of_true hsealed trivial
  rw [if_neg hopen] at h ⊢
  by_cases hderive : fails .registryKeys = true
  · rw [if_pos hderive]
    obtain rfl := hfails _ hderive
    exact iff_of_true hsealed trivial
  rw [if_neg hderive] at h ⊢
  rcases hloop : changeWallets aead keys fails currentPassphrase newPassphrase [] storage.wallets
    with ⟨_ | message, wallets⟩
  · rw [hloop] at h
    obtain ⟨changed, rfl, hchanged⟩ := changeWallets_eq_none hloop
    exact keeps_after_registry_iff hregistryKeys hne hfails hnone hstorage hchanged h
  · exact keeps_after_loop_iff hdbKeys hne hfails hsteps hnone hstorage hloop

/-- **What a failing change of the passphrase undoes.** One step fails, everything that undoes
succeeds, and the call returns an error. Then the app is as before exactly if the new passphrase
is another one and the step is one of those that are undone. -/
theorem failed_change_keeps_iff (aead : Aead K C Bytes) (keys : KeyDerivation K F)
    (hdbKeys : ∀ walletId, (keys.dbKey walletId).Injective)
    (hregistryKeys : keys.registryKey.Injective) (currentPassphrase newPassphrase : String)
    (storage : AppStorage F C) (hstorage : storage.Under aead keys currentPassphrase)
    (step : ChangeStep) (hstep : ¬ step.Compensates) (message : String)
    (herror : (changeAppPassphrase aead keys (fun s => s == step) currentPassphrase newPassphrase
      storage).1 = .error message) :
    KeepsPassphrase aead keys currentPassphrase newPassphrase storage
        (changeAppPassphrase aead keys (fun s => s == step) currentPassphrase newPassphrase
          storage).2 ↔
      newPassphrase ≠ currentPassphrase ∧ step.Undone storage := by
  by_cases hne : newPassphrase = currentPassphrase
  · subst hne
    refine iff_of_false ?_ (fun h => h.1 rfl)
    intro hkept
    exact Bool.false_ne_true (hkept.rejects.symm.trans hkept.accepts)
  have hnone : ∀ s : ChangeStep, s.Compensates → (s == step) = false := by
    intro s hs
    rw [beq_eq_false_iff_ne]
    rintro rfl
    exact hstep hs
  rw [and_iff_right hne]
  exact keeps_after_change_iff hdbKeys hregistryKeys hne (fun _ => eq_of_beq)
    (beq_self_eq_true step) hnone hstorage herror

end Failure

/-! ## A wallet that cannot be committed -/

theorem labelStorage_under : (labelStorage []).Under labelCipher labelKeys "old" where
  registry := rfl
  hash := rfl
  wallets := by
    intro file hfile
    obtain rfl := List.mem_singleton.mp hfile
    refine ⟨rfl, ?_⟩
    unfold WalletFile.Decrypts
    decide +kernel

/-- A registry that cannot get its new key is undone. -/
theorem failed_change_keeps_registry :
    KeepsPassphrase labelCipher labelKeys "old" "new" (labelStorage [])
      (changeAppPassphrase labelCipher labelKeys (fun s => s == .rekeyRegistry) "old" "new"
        (labelStorage [])).2 :=
  (failed_change_keeps_iff labelCipher labelKeys (fun _ _ _ h => h) (fun _ _ h => h) "old" "new"
    (labelStorage []) labelStorage_under .rekeyRegistry id "Failed to rekey registry database"
    (by decide +kernel)).mpr ⟨by decide, trivial⟩

/-- A wallet whose changed rows cannot be committed keeps the new key: the call returns an error,
the app still has the old passphrase, and that passphrase does not open the wallet. -/
theorem failed_commit_loses_wallet :
    (labelStorage []).Under labelCipher labelKeys "old" ∧
      (changeAppPassphrase labelCipher labelKeys (fun s => s == .commitWallet "main") "old" "new"
        (labelStorage [])).1 = .error "Failed to commit re-encrypted wallet data" ∧
      ¬ KeepsPassphrase labelCipher labelKeys "old" "new" (labelStorage [])
        (changeAppPassphrase labelCipher labelKeys (fun s => s == .commitWallet "main") "old" "new"
          (labelStorage [])).2 := by
  refine ⟨labelStorage_under, by decide +kernel, ?_⟩
  intro hkept
  exact absurd hkept.wallets (by decide +kernel)

end StashiWallet
