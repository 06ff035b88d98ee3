import StashiWallet.KeyImportRuns
import StashiWallet.SeedDiscovery

/-!
# Sequences of discovery calls

Two contracts of the discovery. Finalization deletes no key that the user imported and none
that owns a note; and it sets the marker only where a preparation went before it, so that the
five indices were recorded when the scan began.

Both are inferred from `seed_derived_account_keys` alone, and both fail for that reason. A
candidate keeps its flag when the user imports the same key, since an import does not touch
the flag; and user-added accounts fill the table without any preparation. What holds is proved
for runs that avoid exactly these two orders.
-/

namespace StashiWallet

/-! ## The table of seed accounts -/

/-- The table has a row for this index of the account. -/
def SeedDerivedKeys.Records (accountId : Int) (derivationIndex : Nat)
    (table : SeedDerivedKeys) : Prop :=
  ∃ row ∈ table.rows, row.accountId = accountId ∧ row.derivationIndex = derivationIndex

theorem SeedDerivedKeys.write_eq_ok {rows : List SeedDerivedRow} {table : SeedDerivedKeys}
    (h : SeedDerivedKeys.write rows = .ok table) : table.rows = rows := by
  unfold SeedDerivedKeys.write at h
  split at h
  · cases h
    rfl
  · cases h

variable {candidate : Bool} {derivationIndex keyId : Nat}

/-- The rows after an upsert: the new one, and those for other indices. -/
theorem SeedDerivedKeys.mem_upsert {accountId : Int} {table after : SeedDerivedKeys}
    (h : table.upsert keyId accountId derivationIndex candidate = .ok after)
    (row : SeedDerivedRow) :
    row ∈ after.rows ↔ row = ⟨keyId, accountId, derivationIndex, candidate⟩ ∨
      (row ∈ table.rows ∧ ¬(row.accountId = accountId ∧ row.derivationIndex = derivationIndex)) := by
  unfold SeedDerivedKeys.upsert at h
  dsimp only at h
  split at h
  · rename_i hany
    rw [write_eq_ok h, List.mem_map]
    constructor
    · rintro ⟨before, hbefore, rfl⟩
      by_cases hsame : before.accountId = accountId ∧ before.derivationIndex = derivationIndex
      · obtain ⟨rfl, rfl⟩ := hsame
        simp
      · rw [if_neg (by simpa using hsame)]
        exact Or.inr ⟨hbefore, hsame⟩
    · rintro (rfl | ⟨hrow, hother⟩)
      · obtain ⟨before, hbefore, hsame⟩ := List.any_eq_true.mp hany
        refine ⟨before, hbefore, ?_⟩
        rw [if_pos hsame]
        simp only [Bool.and_eq_true, beq_iff_eq] at hsame
        obtain ⟨rfl, rfl⟩ := hsame
        rfl
      · refine ⟨row, hrow, ?_⟩
        rw [if_neg (by simpa using hother)]
  · rename_i hnone
    rw [write_eq_ok h, List.mem_append, List.mem_singleton]
    have hothers : ∀ before ∈ table.rows,
        ¬(before.accountId = accountId ∧ before.derivationIndex = derivationIndex) := by
      intro before hbefore hsame
      exact hnone (List.any_eq_true.mpr ⟨before, hbefore, by simpa using hsame⟩)
    constructor
    · rintro (hrow | rfl)
      · exact Or.inr ⟨hrow, hothers row hrow⟩
      · exact Or.inl rfl
    · rintro (rfl | ⟨hrow, _⟩)
      · exact Or.inr rfl
      · exact Or.inl hrow

theorem SeedDerivedKeys.upsert_records {accountId : Int} {table after : SeedDerivedKeys}
    (h : table.upsert keyId accountId derivationIndex candidate = .ok after) :
    after.Records accountId derivationIndex :=
  ⟨_, (mem_upsert h _).mpr (Or.inl rfl), rfl, rfl⟩

theorem SeedDerivedKeys.Records.upsert {accountId otherAccount : Int} {otherIndex : Nat}
    {table after : SeedDerivedKeys} (hrecords : table.Records otherAccount otherIndex)
    (h : table.upsert keyId accountId derivationIndex candidate = .ok after) :
    after.Records otherAccount otherIndex := by
  obtain ⟨row, hrow, rfl, rfl⟩ := hrecords
  by_cases hsame : row.accountId = accountId ∧ row.derivationIndex = derivationIndex
  · obtain ⟨rfl, rfl⟩ := hsame
    exact upsert_records h
  · exact ⟨row, (mem_upsert h row).mpr (Or.inr ⟨hrow, hsame⟩), rfl, rfl⟩

theorem SeedDerivedKeys.mem_of_ofAccount {accountId : Int} {table : SeedDerivedKeys}
    {rows : List SeedDerivedRow} (h : table.ofAccount accountId = .ok rows)
    (row : SeedDerivedRow) : row ∈ rows ↔ row ∈ table.rows ∧ row.accountId = accountId := by
  unfold SeedDerivedKeys.ofAccount at h
  dsimp only at h
  split at h
  · cases h
  · cases h
    rw [(List.perm_insertionSort _ _).mem_iff]
    unfold SeedDerivedKeys.rowsOf
    simp

/-! ## What the calls do to the candidates -/

/-- Between the two states no candidate came up but with a fresh key, no index was forgotten,
and the other tables stayed. -/
structure SeedGrowth (before after : SeedDb) : Prop where
  nextId : before.imports.keys.nextId ≤ after.imports.keys.nextId
  candidates : ∀ row ∈ after.seedKeys.rows, row.isDiscoveryCandidate = true →
    row ∈ before.seedKeys.rows ∨
      (before.imports.keys.nextId ≤ row.keyId ∧ row.keyId < after.imports.keys.nextId)
  records : ∀ accountId index, before.seedKeys.Records accountId index →
    after.seedKeys.Records accountId index
  marker : after.discoveryComplete = before.discoveryComplete

theorem SeedGrowth.refl (db : SeedDb) : SeedGrowth db db :=
  ⟨le_refl _, fun _ hrow _ => Or.inl hrow, fun _ _ h => h, rfl⟩

theorem SeedGrowth.trans {a b c : SeedDb} (hab : SeedGrowth a b) (hbc : SeedGrowth b c) :
    SeedGrowth a c where
  nextId := hab.nextId.trans hbc.nextId
  candidates := by
    intro row hrow hflag
    rcases hbc.candidates row hrow hflag with hrow | ⟨hfrom, hbelow⟩
    · rcases hab.candidates row hrow hflag with hrow | ⟨hfrom, hbelow⟩
      · exact Or.inl hrow
      · exact Or.inr ⟨hfrom, lt_of_lt_of_le hbelow hbc.nextId⟩
    · exact Or.inr ⟨hab.nextId.trans hfrom, hbelow⟩
  records := fun accountId index h => hbc.records accountId index (hab.records accountId index h)
  marker := hbc.marker.trans hab.marker

/-- Writing keys alone grows nothing else. -/
theorem SeedGrowth.ofKeys (db : SeedDb) {imports : ImportDb}
    (h : db.imports.keys.nextId ≤ imports.keys.nextId) :
    SeedGrowth db { db with imports := imports } :=
  ⟨h, fun _ hrow _ => Or.inl hrow, fun _ _ h => h, rfl⟩

/-- Recording an account whose key is no candidate, or has the last id handed out. -/
theorem SeedGrowth.ofUpsert {db : SeedDb} {imports : ImportDb} {accountId : Int}
    {seedKeys : SeedDerivedKeys}
    (h : db.seedKeys.upsert keyId accountId derivationIndex candidate = .ok seedKeys)
    (hnext : db.imports.keys.nextId ≤ imports.keys.nextId)
    (hfresh : candidate = true → db.imports.keys.nextId ≤ keyId ∧ keyId < imports.keys.nextId) :
    SeedGrowth db { db with imports := imports, seedKeys := seedKeys } where
  nextId := hnext
  candidates := by
    intro row hrow hflag
    rcases (SeedDerivedKeys.mem_upsert h row).mp hrow with rfl | ⟨hrow, _⟩
    · exact Or.inr (hfresh hflag)
    · exact Or.inl hrow
  records := fun _ _ hrecords => hrecords.upsert h
  marker := rfl

theorem AccountKeys.upsert_nextId (id : Option Nat) (key : AccountKey) (keys : AccountKeys) :
    keys.nextId ≤ (keys.upsert id key).2.nextId := by
  cases id with
  | some id => exact le_refl _
  | none => exact Nat.le_succ _

theorem insertLoop_growth (accountId : Int) (accounts : List SeedAccount) (expected : Nat)
    (db : SeedDb) : SeedGrowth db (db.insertLoop accountId expected accounts).2 := by
  induction accounts generalizing expected db with
  | nil => exact SeedGrowth.refl db
  | cons account rest ih =>
    obtain ⟨derivationIndex, id, key⟩ := account
    unfold SeedDb.insertLoop
    split
    · exact SeedGrowth.refl db
    split
    · exact SeedGrowth.refl db
    have hnext := db.imports.keys.upsert_nextId id key
    dsimp only
    split
    · exact SeedGrowth.ofKeys db hnext
    · rename_i seedKeys hupsert
      refine SeedGrowth.trans ?_ (ih (expected + 1) _)
      exact SeedGrowth.ofUpsert hupsert hnext (fun h => absurd h (by decide))

/-- What the loop over the accounts keeps, the insertion keeps: all it does besides is to ask for
a replay of the scan. -/
theorem insertSeedDerivedAccounts_related {R : SeedDb → SeedDb → Prop} (hrefl : ∀ db, R db db)
    (hasks : ∀ db after, R db after → R db { after with seedKeyScanReplay := true })
    {db : SeedDb} {accountId : Int} {accounts : List SeedAccount}
    (hloop : ∀ expected, R db (db.insertLoop accountId expected accounts).2)
    (expectedPreviousIndex : Option Nat) (joined refused : Bool) :
    R db (db.insertSeedDerivedAccounts accountId expectedPreviousIndex accounts joined
      refused).2 := by
  have hloop := hloop (min (expectedPreviousIndex.getD 0 + 1) u32Max)
  unfold SeedDb.insertSeedDerivedAccounts
  split
  · exact hrefl db
  split
  · exact hrefl db
  split
  · exact hrefl db
  split
  · rename_i error after hafter
    rw [hafter] at hloop
    cases joined with
    | true => exact hloop
    | false => exact hrefl db
  · rename_i keyIds after hafter
    rw [hafter] at hloop
    cases refused with
    | true =>
      cases joined with
      | true => exact hloop
      | false => exact hrefl db
    | false => exact hasks db after hloop

theorem insertSeedDerivedAccounts_growth (accountId : Int) (expectedPreviousIndex : Option Nat)
    (accounts : List SeedAccount) (joined refused : Bool) (db : SeedDb) :
    SeedGrowth db (db.insertSeedDerivedAccounts accountId expectedPreviousIndex accounts joined
      refused).2 :=
  insertSeedDerivedAccounts_related SeedGrowth.refl
    (fun _ _ hloop => ⟨hloop.nextId, hloop.candidates, hloop.records, hloop.marker⟩)
    (insertLoop_growth accountId accounts · db) expectedPreviousIndex joined refused

/-! ## Preparation -/

section Preparation

variable {derive : Nat → Except StorageError (Bytes × Bytes)} {accountId birthdayHeight : Int}
  {createdAt : Int} {stored : AccountKeys} {fault : Option PrepareFault}

/-- One index: the tables grow, and if nothing fails the index is recorded. -/
theorem prepareIndex_spec {db after : SeedDb}
    {result : Except StorageError Bool}
    (h : db.prepareIndex derive accountId birthdayHeight createdAt stored fault derivationIndex =
      (result, after)) :
    SeedGrowth db after ∧
      ∀ linked, result = .ok linked → after.seedKeys.Records accountId derivationIndex := by
  unfold SeedDb.prepareIndex at h
  have hnext := Nat.le_succ db.imports.keys.nextId
  split at h
  · cases h
    exact ⟨SeedGrowth.refl db, fun _ h => nomatch h⟩
  split at h
  · split at h
    · cases h
      exact ⟨SeedGrowth.refl db, fun _ h => nomatch h⟩
    split at h
    · cases h
      exact ⟨SeedGrowth.refl db, fun _ h => nomatch h⟩
    · rename_i seedKeys hupsert
      cases h
      refine ⟨?_, fun _ _ => SeedDerivedKeys.upsert_records hupsert⟩
      exact SeedGrowth.ofUpsert hupsert (le_refl _)
        (fun h => absurd h (by decide))
  · split at h
    · cases h
      exact ⟨SeedGrowth.refl db, fun _ h => nomatch h⟩
    dsimp only at h
    split at h
    · cases h
      exact ⟨SeedGrowth.ofKeys db hnext, fun _ h => nomatch h⟩
    split at h
    · cases h
      exact ⟨SeedGrowth.ofKeys db hnext, fun _ h => nomatch h⟩
    · rename_i seedKeys hupsert
      cases h
      refine ⟨?_, fun _ _ => SeedDerivedKeys.upsert_records hupsert⟩
      exact SeedGrowth.ofUpsert hupsert hnext (fun _ => ⟨le_refl _, Nat.lt_succ_self _⟩)

theorem prepareLoop_spec {recorded indices : List Nat} {db after : SeedDb}
    {result : Except StorageError (Nat × Nat)}
    (h : db.prepareLoop derive accountId birthdayHeight createdAt stored recorded fault indices =
      (result, after)) :
    SeedGrowth db after ∧ ∀ counts, result = .ok counts →
      ∀ index ∈ indices, index ∈ recorded ∨ after.seedKeys.Records accountId index := by
  induction indices generalizing db result with
  | nil =>
    cases h
    exact ⟨SeedGrowth.refl _, fun _ _ index hindex => absurd hindex List.not_mem_nil⟩
  | cons index rest ih =>
    unfold SeedDb.prepareLoop at h
    split at h
    · rename_i hrecorded
      obtain ⟨hgrowth, hrest⟩ := ih h
      refine ⟨hgrowth, fun counts hok => ?_⟩
      rw [List.forall_mem_cons]
      exact ⟨Or.inl hrecorded, hrest counts hok⟩
    split at h
    · rename_i error next hnext
      cases h
      exact ⟨(prepareIndex_spec hnext).1, fun _ h => nomatch h⟩
    · rename_i linked next hnext
      obtain ⟨hfirst, hindex⟩ := prepareIndex_spec hnext
      dsimp only at h
      cases hloop : next.prepareLoop derive accountId birthdayHeight createdAt stored recorded
          fault rest with
      | mk loopResult final =>
        rw [hloop] at h
        cases h
        obtain ⟨hgrowth, hrest⟩ := ih hloop
        refine ⟨hfirst.trans hgrowth, fun counts hok => ?_⟩
        rw [List.forall_mem_cons]
        refine ⟨Or.inr (hgrowth.records _ _ (hindex linked rfl)), ?_⟩
        cases loopResult with
        | error error => cases hok
        | ok inner => exact hrest inner rfl

end Preparation

/-- A preparation lets the tables grow; if it completes, all the indices of the lookahead are
recorded. -/
theorem prepareLegacySaplingAccountDiscovery_spec {secret : SeedSecret}
    {birthdayHeight createdAt : Int} {fault : Option PrepareFault} {db after : SeedDb}
    {result : Except StorageError (Option SeedAccountDiscoveryPreparation)}
    (h : db.prepareLegacySaplingAccountDiscovery secret birthdayHeight createdAt fault =
      (result, after)) :
    SeedGrowth db after ∧ ∀ preparation, result = .ok (some preparation) →
      ∀ index ∈ lookaheadIndices, after.seedKeys.Records secret.accountId index := by
  unfold SeedDb.prepareLegacySaplingAccountDiscovery at h
  split at h
  · rename_i derive _ _
    split at h
    · cases h
      exact ⟨SeedGrowth.refl db, fun _ h => nomatch h⟩
    split at h
    · cases h
      exact ⟨SeedGrowth.refl db, fun _ h => nomatch h⟩
    · cases h
      exact ⟨SeedGrowth.refl db, fun _ h => nomatch h⟩
    · rename_i metadata _ hmetadata
      split at h
      · rename_i error final hloop
        cases h
        exact ⟨(prepareLoop_spec hloop).1, fun _ h => nomatch h⟩
      · rename_i added linked final hloop
        obtain ⟨hgrowth, hrecords⟩ := prepareLoop_spec hloop
        have hall : ∀ index ∈ lookaheadIndices,
            final.seedKeys.Records secret.accountId index := by
          intro index hindex
          rcases hrecords _ rfl index hindex with hrecorded | hrecorded
          · obtain ⟨row, hrow, rfl⟩ := List.mem_map.mp hrecorded
            obtain ⟨hmem, haccount⟩ := (SeedDerivedKeys.mem_of_ofAccount hmetadata row).mp hrow
            exact hgrowth.records _ _ ⟨row, hmem, haccount, rfl⟩
          · exact hrecorded
        split at h
        · cases h
          exact ⟨hgrowth, fun _ h => nomatch h⟩
        split at h
        · cases h
          exact ⟨hgrowth, fun _ h => nomatch h⟩
        · cases h
          exact ⟨hgrowth, fun _ _ => hall⟩
  · cases h
    exact ⟨SeedGrowth.refl db, fun _ h => nomatch h⟩

/-! ## Finalization -/

/-- What settling candidates does: keys go only for a candidate that no note uses, and no
candidate and no account comes up. -/
structure SeedSettled (usedKeyIds : List Int) (candidates : List SeedDerivedRow)
    (before after : SeedDb) : Prop where
  nextId : after.imports.keys.nextId = before.imports.keys.nextId
  marker : after.discoveryComplete = before.discoveryComplete
  flags : ∀ row ∈ after.seedKeys.rows, row.isDiscoveryCandidate = true →
    row ∈ before.seedKeys.rows
  accounts : ∀ row ∈ after.seedKeys.rows, ∃ old ∈ before.seedKeys.rows,
    old.accountId = row.accountId
  keys : ∀ row ∈ before.imports.keys.rows, row ∈ after.imports.keys.rows ∨
    ∃ candidate ∈ candidates, candidate.keyId = row.id ∧ (candidate.keyId : Int) ∉ usedKeyIds

theorem SeedSettled.refl (usedKeyIds : List Int) (candidates : List SeedDerivedRow)
    (db : SeedDb) : SeedSettled usedKeyIds candidates db db :=
  ⟨rfl, rfl, fun _ hrow _ => hrow, fun row hrow => ⟨row, hrow, rfl⟩, fun _ hrow => Or.inl hrow⟩

theorem settleCandidate_settled (usedKeyIds : List Int) (candidate : SeedDerivedRow)
    (outcome : SeedAccountDiscoveryFinalization × SeedDb) :
    SeedSettled usedKeyIds [candidate] outcome.2
      (SeedDb.settleCandidate usedKeyIds candidate outcome).2 := by
  obtain ⟨counted, db⟩ := outcome
  unfold SeedDb.settleCandidate
  dsimp only
  split
  · refine ⟨rfl, rfl, ?_, ?_, fun _ hrow => Or.inl hrow⟩
    · intro row hrow hflag
      obtain ⟨old, hold, rfl⟩ := List.mem_map.mp hrow
      split at hflag
      · cases hflag
      · rename_i hother
        rw [if_neg hother]
        exact hold
    · intro row hrow
      obtain ⟨old, hold, rfl⟩ := List.mem_map.mp hrow
      refine ⟨old, hold, ?_⟩
      split
      · rfl
      · rfl
  · rename_i hunused
    refine ⟨rfl, rfl, ?_, ?_, ?_⟩
    · intro row hrow _
      exact List.mem_of_mem_filter hrow
    · intro row hrow
      exact ⟨row, List.mem_of_mem_filter hrow, rfl⟩
    · intro row hrow
      by_cases hid : candidate.keyId = row.id
      · exact Or.inr ⟨candidate, List.mem_singleton_self candidate, hid, hunused⟩
      · refine Or.inl (List.mem_filter.mpr ⟨hrow, ?_⟩)
        simpa using fun h => hid h.symm

theorem settleCandidates_settled (usedKeyIds : List Int) (candidates : List SeedDerivedRow)
    (outcome : SeedAccountDiscoveryFinalization × SeedDb) :
    SeedSettled usedKeyIds candidates outcome.2 (candidates.foldl (fun outcome candidate =>
      SeedDb.settleCandidate usedKeyIds candidate outcome) outcome).2 := by
  induction candidates generalizing outcome with
  | nil => exact SeedSettled.refl _ _ _
  | cons candidate rest ih =>
    have hfirst := settleCandidate_settled usedKeyIds candidate outcome
    have hrest := ih (SeedDb.settleCandidate usedKeyIds candidate outcome)
    refine ⟨hrest.nextId.trans hfirst.nextId, hrest.marker.trans hfirst.marker, ?_, ?_, ?_⟩
    · intro row hrow hflag
      exact hfirst.flags row (hrest.flags row hrow hflag) hflag
    · intro row hrow
      obtain ⟨next, hnext, haccount⟩ := hrest.accounts row hrow
      obtain ⟨old, hold, haccount'⟩ := hfirst.accounts next hnext
      exact ⟨old, hold, haccount'.trans haccount⟩
    · intro row hrow
      rcases hfirst.keys row hrow with hkept | ⟨deleted, hdeleted, hid, hunused⟩
      · rcases hrest.keys row hkept with hkept | ⟨deleted, hdeleted, hid, hunused⟩
        · exact Or.inl hkept
        · exact Or.inr ⟨deleted, List.mem_cons_of_mem _ hdeleted, hid, hunused⟩
      · rw [List.mem_singleton.mp hdeleted] at hid hunused
        exact Or.inr ⟨candidate, List.mem_cons_self, hid, hunused⟩

theorem SeedSettled.mono {usedKeyIds : List Int} {candidates more : List SeedDerivedRow}
    {before after : SeedDb} (h : SeedSettled usedKeyIds candidates before after)
    (hmore : ∀ candidate ∈ candidates, candidate ∈ more) :
    SeedSettled usedKeyIds more before after where
  nextId := h.nextId
  marker := h.marker
  flags := h.flags
  accounts := h.accounts
  keys := by
    intro row hrow
    rcases h.keys row hrow with hkept | ⟨candidate, hcandidate, hid, hunused⟩
    · exact Or.inl hkept
    · exact Or.inr ⟨candidate, hmore candidate hcandidate, hid, hunused⟩

/-- The ids of the keys that own a note of the account. -/
def Notes.usedKeyIds (accountId : Int) (notes : Notes) : List Int :=
  (notes.ofAccount accountId).filterMap (·.keyId)

def SeedDerivedKeys.candidatesOf (accountId : Int) (table : SeedDerivedKeys) :
    List SeedDerivedRow :=
  table.rows.filter (fun row => row.accountId == accountId && row.isDiscoveryCandidate)

/-- Finalization settles candidates, and sets the marker only for an account with records. -/
theorem finalizeLegacySaplingAccountDiscovery_spec {accountId : Int} {joined : Bool}
    {stopsAfter : Option Nat} {db after : SeedDb}
    {result : Except StorageError SeedAccountDiscoveryFinalization}
    (h : db.finalizeLegacySaplingAccountDiscovery accountId joined stopsAfter =
      (result, after)) :
    (∃ marker, SeedSettled (db.notes.usedKeyIds accountId) (db.seedKeys.candidatesOf accountId)
      db { after with discoveryComplete := marker }) ∧
      (db.discoveryComplete = false → after.discoveryComplete = true →
        ∃ row ∈ db.seedKeys.rows, row.accountId = accountId) := by
  have hsame : ∃ marker, SeedSettled (db.notes.usedKeyIds accountId)
      (db.seedKeys.candidatesOf accountId) db { db with discoveryComplete := marker } :=
    ⟨_, SeedSettled.refl _ _ db⟩
  unfold SeedDb.finalizeLegacySaplingAccountDiscovery at h
  split at h
  · cases h
    exact ⟨hsame, fun hbefore hafter => absurd (hbefore.symm.trans hafter) (by decide)⟩
  split at h
  · cases h
    exact ⟨hsame, fun hbefore hafter => absurd (hbefore.symm.trans hafter) (by decide)⟩
  rename_i metadata hmetadata
  split at h
  · cases h
    exact ⟨hsame, fun hbefore hafter => absurd (hbefore.symm.trans hafter) (by decide)⟩
  rename_i hnonempty
  have hcandidates : ∀ candidate ∈ metadata.filter (·.isDiscoveryCandidate),
      candidate ∈ db.seedKeys.candidatesOf accountId := by
    intro candidate hcandidate
    obtain ⟨hmem, hflag⟩ := List.mem_filter.mp hcandidate
    obtain ⟨hrow, haccount⟩ := (SeedDerivedKeys.mem_of_ofAccount hmetadata candidate).mp hmem
    exact List.mem_filter.mpr ⟨hrow, by simp [haccount, hflag]⟩
  dsimp only at h
  split at h
  · rename_i count
    cases h
    cases joined with
    | false =>
      exact ⟨hsame, fun hbefore hafter => absurd (hbefore.symm.trans hafter) (by decide)⟩
    | true =>
      have hsettled := settleCandidates_settled (db.notes.usedKeyIds accountId)
        ((metadata.filter (·.isDiscoveryCandidate)).take count) (⟨0, 0, none⟩, db)
      refine ⟨⟨_, hsettled.mono (fun candidate hcandidate =>
        hcandidates candidate (List.mem_of_mem_take hcandidate))⟩, ?_⟩
      intro hbefore hafter
      exact absurd (hbefore.symm.trans (hsettled.marker.symm.trans hafter)) (by decide)
  · have hsettled := settleCandidates_settled (db.notes.usedKeyIds accountId)
      (metadata.filter (·.isDiscoveryCandidate)) (⟨0, 0, none⟩, db)
    cases h
    refine ⟨⟨_, hsettled.mono hcandidates⟩, ?_⟩
    intro _ _
    cases metadata with
    | nil => exact absurd rfl hnonempty
    | cons row rest =>
      exact ⟨row, (SeedDerivedKeys.mem_of_ofAccount hmetadata row).mp List.mem_cons_self⟩

/-! ## Sequences of calls -/

/-- The calls of the discovery. Persisting notes replaces the table of notes; an outer
transaction of `insert` and `finalize` is `joined`. -/
inductive SeedCall where
  | prepare (secret : SeedSecret) (birthdayHeight createdAt : Int) (fault : Option PrepareFault)
  | insert (accountId : Int) (expectedPreviousIndex : Option Nat) (accounts : List SeedAccount)
      (joined refused : Bool)
  | importKey (call : ImportCall)
  | persistNotes (notes : Notes)
  | finalize (accountId : Int) (joined : Bool) (stopsAfter : Option Nat)

section Runs

variable (material : IronwoodMaterial)

def SeedDb.after (db : SeedDb) : SeedCall → SeedDb
  | .prepare secret birthdayHeight createdAt fault =>
    (db.prepareLegacySaplingAccountDiscovery secret birthdayHeight createdAt fault).2
  | .insert accountId expectedPreviousIndex accounts joined refused =>
    (db.insertSeedDerivedAccounts accountId expectedPreviousIndex accounts joined refused).2
  | .importKey call => { db with imports := db.imports.after material call }
  | .persistNotes notes => { db with notes := notes }
  | .finalize accountId joined stopsAfter =>
    (db.finalizeLegacySaplingAccountDiscovery accountId joined stopsAfter).2

/-! ### Imported keys -/

/-- The row id an import returns, if it succeeds. -/
def ImportDb.importedKey (db : ImportDb) : ImportCall → Option Nat
  | .migrate .. => none
  | .importGroup key now reasonCode joined fault =>
    ((db.importSpendingKeyWithRescan material key now reasonCode joined fault).1.toOption).map
      (fun imported => imported.1)
  | .importVerified key address now reasonCode joined fault =>
    ((db.importVerifiedSpendingKey material key address now reasonCode joined
      fault).1.toOption).map (fun imported => imported.1.keyId)

/-- A run, with the ids of the keys the user has imported. -/
structure SeedRun where
  db : SeedDb
  imported : List Nat

/-- The keys imported once a call has been made. -/
def SeedRun.importedAfter (run : SeedRun) : SeedCall → List Nat
  | .importKey call => run.imported ++ (run.db.imports.importedKey material call).toList
  | _ => run.imported

def SeedRun.step (run : SeedRun) (call : SeedCall) : SeedRun where
  db := run.db.after material call
  imported := run.importedAfter material call

/-- The keys a finalization of the account deletes are neither imported by the user nor used by
a note of the account. -/
def SeedRun.DeletesUnusedCandidates (run : SeedRun) : SeedCall → Prop
  | .finalize accountId joined stopsAfter =>
    ∀ row ∈ run.db.imports.keys.rows,
      row ∉ (run.db.after material (.finalize accountId joined stopsAfter)).imports.keys.rows →
      row.id ∉ run.imported ∧
        ∀ note ∈ run.db.notes.ofAccount accountId, note.keyId ≠ some (row.id : Int)
  | _ => True

/-- The import does not hit a key that is a candidate of a discovery under way. -/
def SeedRun.ImportsNoCandidate (run : SeedRun) : SeedCall → Prop
  | .importKey call => ∀ kind key existing, call.imports = some (kind, key) →
      kind.findKey material key run.db.imports.keys = some existing →
      ∀ row ∈ run.db.seedKeys.rows, row.keyId = existing.id → row.isDiscoveryCandidate = false
  | _ => True

end Runs

section ImportedKeys

variable {material : IronwoodMaterial} {db : ImportDb}

/-- An import that returns an id has stored the key under it. -/
theorem importedKey_eq_some {call : ImportCall} {id : Nat}
    (h : db.importedKey material call = some id) :
    ∃ kind key, call.imports = some (kind, key) ∧ id = kind.storedId material key db.keys ∧
      (db.after material call).keys = kind.storeKey material key db.keys := by
  have hstored : ∀ {recorded : Option Int} {kind : ImportKind} {key : AccountKey},
      (db.call material call).1 = .ok recorded → call.imports = some (kind, key) →
      (db.after material call).keys = kind.storeKey material key db.keys := by
    intro recorded kind key hok himports
    have heffect := (@call_eq_ok material db call recorded (db.after material call)
      (Prod.ext hok rfl)).2
    rw [himports] at heffect
    exact heffect.2.1
  cases call with
  | migrate now joined fault => cases h
  | importGroup key now reasonCode joined fault =>
    unfold ImportDb.importedKey at h
    dsimp only at h
    cases hresult : db.importSpendingKeyWithRescan material key now reasonCode joined fault with
    | mk result after =>
      rw [hresult] at h
      cases result with
      | error error => cases h
      | ok imported =>
        cases h
        refine ⟨.group, key, rfl, ?_, ?_⟩
        · rcases importSpendingKeyWithRescan_cases hresult with
            ⟨⟨_, hnone⟩, -⟩ | ⟨-, id, birthday, hok, hbody⟩
          · cases hnone
          · cases hok
            exact (importGroupBody_eq_ok hbody).2.2.2.2
        · refine @hstored (some imported.2) _ _ ?_ rfl
          unfold ImportDb.call
          dsimp only
          rw [hresult]
          rfl
  | importVerified key address now reasonCode joined fault =>
    unfold ImportDb.importedKey at h
    dsimp only at h
    cases hresult : db.importVerifiedSpendingKey material key address now reasonCode joined
        fault with
    | mk result after =>
      rw [hresult] at h
      cases result with
      | error error => cases h
      | ok imported =>
        cases h
        refine ⟨.verified, key, rfl, ?_, ?_⟩
        · rcases importVerifiedSpendingKey_cases hresult with
            ⟨⟨_, hnone⟩, -⟩ | ⟨-, index, hbody, -⟩
          · cases hnone
          · exact (importVerifiedBody_eq_ok hbody).2.2.2.2
        · refine @hstored (if imported.1.keyScanChanged then some imported.1.effectiveBirthday
            else none) _ _ ?_ rfl
          unfold ImportDb.call
          dsimp only
          rw [hresult]
          rfl

theorem ImportKind.storedId_lt (kind : ImportKind) (key : AccountKey) (keys : AccountKeys) :
    kind.storedId material key keys < (kind.storeKey material key keys).nextId := by
  unfold ImportKind.storedId ImportKind.storeKey
  cases hfind : kind.findKey material key keys with
  | none => exact Nat.lt_succ_self _
  | some existing => exact keys.ids_lt existing (findKey_eq_some hfind).1

theorem ImportKind.storeKey_nextId (kind : ImportKind) (key : AccountKey) (keys : AccountKeys) :
    keys.nextId ≤ (kind.storeKey material key keys).nextId := by
  unfold ImportKind.storeKey
  cases kind.findKey material key keys with
  | none => exact Nat.le_succ _
  | some existing => exact le_refl _

/-- Imports only use up row ids. -/
theorem after_nextId (db : ImportDb) (call : ImportCall) :
    db.keys.nextId ≤ (db.after material call).keys.nextId := by
  unfold ImportDb.after
  cases hcall : db.call material call with
  | mk result after =>
    cases result with
    | error error =>
      rcases (call_eq_error hcall).2.2 with hkeys | ⟨kind, key, _, hkeys⟩
      · rw [hkeys]
      · rw [hkeys]
        exact kind.storeKey_nextId key db.keys
    | ok recorded =>
      have heffect := (call_eq_ok hcall).2
      cases himports : call.imports with
      | none =>
        rw [himports] at heffect
        rw [heffect.1]
      | some imported =>
        rw [himports] at heffect
        rw [heffect.2.1]
        exact imported.1.storeKey_nextId imported.2 db.keys

end ImportedKeys

section KeptKeys

variable {material : IronwoodMaterial}

/-- The invariant: the candidates' keys and the imported keys have been handed out, and no
candidate's key has been imported. -/
structure SeedRun.Sound (run : SeedRun) : Prop where
  candidates : ∀ row ∈ run.db.seedKeys.rows, row.isDiscoveryCandidate = true →
    row.keyId < run.db.imports.keys.nextId
  imported : ∀ id ∈ run.imported, id < run.db.imports.keys.nextId
  apart : ∀ row ∈ run.db.seedKeys.rows, row.isDiscoveryCandidate = true →
    row.keyId ∉ run.imported

/-- A wallet without candidates is sound, whatever keys were imported. -/
theorem SeedRun.sound_of_no_candidates {run : SeedRun}
    (hcandidates : ∀ row ∈ run.db.seedKeys.rows, row.isDiscoveryCandidate = false)
    (himported : ∀ id ∈ run.imported, ∃ row ∈ run.db.imports.keys.rows, row.id = id) :
    run.Sound where
  candidates row hrow hflag := absurd ((hcandidates row hrow).symm.trans hflag) (by decide)
  imported := by
    intro id hid
    obtain ⟨row, hrow, rfl⟩ := himported id hid
    exact run.db.imports.keys.ids_lt row hrow
  apart row hrow hflag := absurd ((hcandidates row hrow).symm.trans hflag) (by decide)

variable {run : SeedRun}

/-- Growth keeps soundness: a new candidate has a key nobody had. -/
theorem SeedRun.Sound.grow (h : run.Sound) {after : SeedDb} (hgrowth : SeedGrowth run.db after) :
    SeedRun.Sound ⟨after, run.imported⟩ where
  candidates := by
    intro row hrow hflag
    rcases hgrowth.candidates row hrow hflag with hold | ⟨_, hbelow⟩
    · exact lt_of_lt_of_le (h.candidates row hold hflag) hgrowth.nextId
    · exact hbelow
  imported := fun id hid => lt_of_lt_of_le (h.imported id hid) hgrowth.nextId
  apart := by
    intro row hrow hflag hid
    rcases hgrowth.candidates row hrow hflag with hold | ⟨hfrom, _⟩
    · exact h.apart row hold hflag hid
    · exact absurd (h.imported row.keyId hid) (not_lt.mpr hfrom)

/-- Settling candidates keeps soundness. -/
theorem SeedRun.Sound.settle (h : run.Sound) {usedKeyIds : List Int}
    {candidates : List SeedDerivedRow} {after : SeedDb} {marker : Bool}
    (hsettled : SeedSettled usedKeyIds candidates run.db
      { after with discoveryComplete := marker }) : SeedRun.Sound ⟨after, run.imported⟩ where
  candidates row hrow hflag :=
    (h.candidates row (hsettled.flags row hrow hflag) hflag).trans_eq hsettled.nextId.symm
  imported id hid := (h.imported id hid).trans_eq hsettled.nextId.symm
  apart row hrow hflag := h.apart row (hsettled.flags row hrow hflag) hflag

/-- An import keeps soundness if it does not hit a candidate. -/
theorem SeedRun.Sound.importKey (h : run.Sound) {call : ImportCall}
    (hcall : run.ImportsNoCandidate material (.importKey call)) :
    (run.step material (.importKey call)).Sound := by
  have hnext := @after_nextId material run.db.imports call
  have hid : ∀ id, run.db.imports.importedKey material call = some id →
      id < (run.db.imports.after material call).keys.nextId ∧
      ∀ row ∈ run.db.seedKeys.rows, row.isDiscoveryCandidate = true → row.keyId ≠ id := by
    intro id hid
    obtain ⟨kind, key, himports, rfl, hkeys⟩ := importedKey_eq_some hid
    refine ⟨by rw [hkeys]; exact kind.storedId_lt key _, ?_⟩
    intro row hrow hflag hsame
    cases hfind : kind.findKey material key run.db.imports.keys with
    | none =>
      have hstored : kind.storedId material key run.db.imports.keys =
          run.db.imports.keys.nextId := by
        unfold ImportKind.storedId
        rw [hfind]
      exact absurd (h.candidates row hrow hflag) (by rw [hsame, hstored]; exact lt_irrefl _)
    | some existing =>
      have hstored : kind.storedId material key run.db.imports.keys = existing.id := by
        unfold ImportKind.storedId
        rw [hfind]
      have hclear := hcall kind key existing himports hfind row hrow (hsame.trans hstored)
      exact absurd (hclear.symm.trans hflag) (by decide)
  refine ⟨?_, ?_, ?_⟩
  · intro row hrow hflag
    exact lt_of_lt_of_le (h.candidates row hrow hflag) hnext
  · intro id hmem
    rcases List.mem_append.mp hmem with hmem | hmem
    · exact lt_of_lt_of_le (h.imported id hmem) hnext
    · exact (hid id (Option.mem_toList.mp hmem)).1
  · intro row hrow hflag hmem
    rcases List.mem_append.mp hmem with hmem | hmem
    · exact h.apart row hrow hflag hmem
    · exact (hid row.keyId (Option.mem_toList.mp hmem)).2 row hrow hflag rfl

/-- **The step lemma.** A call that imports no candidate keeps the run sound. -/
theorem SeedRun.Sound.step {run : SeedRun} {call : SeedCall} (h : run.Sound)
    (hcall : run.ImportsNoCandidate material call) : (run.step material call).Sound := by
  cases call with
  | prepare secret birthdayHeight createdAt fault =>
    exact h.grow (prepareLegacySaplingAccountDiscovery_spec rfl).1
  | insert accountId expectedPreviousIndex accounts joined refused =>
    exact h.grow (insertSeedDerivedAccounts_growth _ _ _ _ _ _)
  | importKey call => exact h.importKey hcall
  | persistNotes notes => exact ⟨h.candidates, h.imported, h.apart⟩
  | finalize accountId joined stopsAfter =>
    obtain ⟨marker, hsettled⟩ :=
      (@finalizeLegacySaplingAccountDiscovery_spec accountId joined stopsAfter run.db _ _ rfl).1
    exact h.settle hsettled

/-- In a sound run a finalization deletes only keys that are neither imported nor used. -/
theorem SeedRun.Sound.deletesUnusedCandidates (h : run.Sound) (call : SeedCall) :
    run.DeletesUnusedCandidates material call := by
  cases call with
  | finalize accountId joined stopsAfter =>
    intro row hrow hdeleted
    obtain ⟨⟨marker, hsettled⟩, _⟩ :=
      @finalizeLegacySaplingAccountDiscovery_spec accountId joined stopsAfter run.db _ _ rfl
    rcases hsettled.keys row hrow with hkept | ⟨candidate, hcandidate, hid, hunused⟩
    · exact absurd hkept hdeleted
    · obtain ⟨hmem, hflags⟩ := List.mem_filter.mp hcandidate
      simp only [Bool.and_eq_true] at hflags
      rw [← hid]
      refine ⟨h.apart candidate hmem hflags.2, ?_⟩
      intro note hnote hkey
      exact hunused (List.mem_filterMap.mpr ⟨note, hnote, hkey⟩)
  | _ => trivial

/-- **Finalization deletes no imported key and no key that owns a note,** in every run of
preparations, insertions, imports, note writes and finalizations in which no import hits a key
that is a candidate at that moment. The keys imported before the run are arbitrary. -/
theorem finalize_deletes_unused_candidates (material : IronwoodMaterial) (db : SeedDb)
    (imported : List Nat) (calls : List SeedCall)
    (hcandidates : ∀ row ∈ db.seedKeys.rows, row.isDiscoveryCandidate = false)
    (himported : ∀ id ∈ imported, ∃ row ∈ db.imports.keys.rows, row.id = id)
    (hcalls : Runs.EachStep (SeedRun.step material) (SeedRun.ImportsNoCandidate material)
      ⟨db, imported⟩ calls) :
    Runs.EachStep (SeedRun.step material) (SeedRun.DeletesUnusedCandidates material)
      ⟨db, imported⟩ calls := by
  have hsound := Runs.run_invariant
    (fun run call h hcall => SeedRun.Sound.step h hcall)
    (@SeedRun.sound_of_no_candidates ⟨db, imported⟩ hcandidates himported) hcalls
  intro done call rest hsplit
  refine SeedRun.Sound.deletesUnusedCandidates (hsound done ?_) call
  exact ⟨call :: rest, hsplit.symm⟩

end KeptKeys

/-- The first account of a seed whose keys are one byte, the derivation index. -/
def byteSecret : SeedSecret where
  accountId := 1
  hasExtsk := true
  derive := some (fun index => .ok ([UInt8.ofNat index], [UInt8.ofNat index]))

/-- A restored wallet, with nothing derived yet. -/
def restoredSeedDb : SeedDb where
  imports := emptyImportDb
  seedKeys := ⟨[], seedConstraints_nil⟩
  notes := AutoTable.empty
  discoveryComplete := false
  seedKeyScanReplay := false

/-- The import that hits no candidate comes before the preparation: the key is kept, and the
four candidates are deleted. -/
theorem finalize_deletes_unused_candidates_import_first :
    Runs.EachStep (SeedRun.step taggedMaterial) (SeedRun.DeletesUnusedCandidates taggedMaterial)
      ⟨restoredSeedDb, []⟩
      [.importKey (.importGroup (oneByteKey 3 100) "t" "r" false none),
        .prepare byteSecret 100 1 none, .finalize 1 false none] ∧
    ((Runs.run (SeedRun.step taggedMaterial) ⟨restoredSeedDb, []⟩
      [.importKey (.importGroup (oneByteKey 3 100) "t" "r" false none),
        .prepare byteSecret 100 1 none,
        .finalize 1 false none]).db.imports.keys.rows.map (·.id)) = [1] := by
  refine ⟨finalize_deletes_unused_candidates taggedMaterial restoredSeedDb [] _
    (List.forall_mem_nil _) (List.forall_mem_nil _) ?_, by decide +kernel⟩
  refine Runs.eachStep_cons.mpr ⟨?_, Runs.eachStep_cons.mpr ⟨trivial,
    Runs.eachStep_cons.mpr ⟨trivial, Runs.eachStep_nil⟩⟩⟩
  intro kind key existing _ _
  exact List.forall_mem_nil _

/-- The other order: the preparation makes a candidate of the seed's third account, the user imports
the same key, and the finalization deletes it. -/
theorem finalize_deletes_imported_key :
    ¬ Runs.EachStep (SeedRun.step taggedMaterial)
      (SeedRun.DeletesUnusedCandidates taggedMaterial) ⟨restoredSeedDb, []⟩
      [.prepare byteSecret 100 1 none,
        .importKey (.importGroup (oneByteKey 3 100) "t" "r" false none),
        .finalize 1 false none] := by
  intro hkept
  have hfinal := hkept [.prepare byteSecret 100 1 none,
    .importKey (.importGroup (oneByteKey 3 100) "t" "r" false none)] (.finalize 1 false none) []
    rfl
  have hreached : ∃ row ∈ (Runs.run (SeedRun.step taggedMaterial) ⟨restoredSeedDb, []⟩
      [.prepare byteSecret 100 1 none,
        .importKey (.importGroup (oneByteKey 3 100) "t" "r" false none)]).db.imports.keys.rows,
      row ∉ ((Runs.run (SeedRun.step taggedMaterial) ⟨restoredSeedDb, []⟩
        [.prepare byteSecret 100 1 none,
          .importKey (.importGroup (oneByteKey 3 100) "t" "r" false none)]).db.after
          taggedMaterial (.finalize 1 false none)).imports.keys.rows ∧
      row.id ∈ (Runs.run (SeedRun.step taggedMaterial) ⟨restoredSeedDb, []⟩
        [.prepare byteSecret 100 1 none,
          .importKey (.importGroup (oneByteKey 3 100) "t" "r" false none)]).imported := by
    decide +kernel
  obtain ⟨row, hrow, hdeleted, himported⟩ := hreached
  exact (hfinal row hrow hdeleted).1 himported

/-! ### The completion marker -/

/-- A run, with what has been recorded of one account: the indices recorded when a preparation
of it last completed, and whether its records come from anything else: from the start, from
added accounts, or from a preparation that stopped. -/
structure DiscoveryRun where
  db : SeedDb
  prepared : Option (List Nat)
  recordedOtherwise : Bool

/-- A run begins with nothing prepared. -/
def DiscoveryRun.start (accountId : Int) (db : SeedDb) : DiscoveryRun :=
  ⟨db, none, !(db.seedKeys.rowsOf accountId).isEmpty⟩

section Marker

variable (material : IronwoodMaterial) (accountId : Int)

/-- The call is a preparation of the account that completes. -/
def SeedDb.completesPreparation (db : SeedDb) : SeedCall → Bool
  | .prepare secret birthdayHeight createdAt fault =>
    secret.accountId == accountId &&
      match (db.prepareLegacySaplingAccountDiscovery secret birthdayHeight createdAt fault).1 with
      | .ok (some _) => true
      | _ => false
  | _ => false

def DiscoveryRun.step (run : DiscoveryRun) (call : SeedCall) : DiscoveryRun :=
  let after := run.db.after material call
  if run.db.completesPreparation accountId call then
    { run with
      db := after
      prepared := some ((after.seedKeys.rowsOf accountId).map (·.derivationIndex)) }
  else
    { run with
      db := after
      recordedOtherwise := run.recordedOtherwise ||
        after.seedKeys.rowsOf accountId != run.db.seedKeys.rowsOf accountId }

/-- The call finalizes the account. -/
def SeedCall.finalizes : SeedCall → Bool
  | .finalize finalized _ _ => finalized == accountId
  | _ => false

/-- If a finalization of the account sets the marker, a preparation has completed before it,
with the five indices recorded. -/
def DiscoveryRun.MarksPrepared (run : DiscoveryRun) (call : SeedCall) : Prop :=
  call.finalizes accountId = true → run.db.discoveryComplete = false →
    (run.db.after material call).discoveryComplete = true →
    ∃ indices, run.prepared = some indices ∧ ∀ index, 1 ≤ index → index ≤ 5 → index ∈ indices

/-- No finalization of the account finds records other than those of a preparation, unless a
preparation has completed. -/
def DiscoveryRun.FinalizesPrepared (run : DiscoveryRun) (call : SeedCall) : Prop :=
  call.finalizes accountId = true → run.recordedOtherwise = true → run.prepared.isSome = true

end Marker

section Marker

variable {material : IronwoodMaterial} {accountId : Int}

/-- The invariant: a completed preparation has recorded the indices of the lookahead, and the
account's records come from one or are accounted for. -/
structure DiscoveryRun.Traced (accountId : Int) (run : DiscoveryRun) : Prop where
  prepared : ∀ indices, run.prepared = some indices → ∀ index ∈ lookaheadIndices, index ∈ indices
  records : ∀ row ∈ run.db.seedKeys.rows, row.accountId = accountId →
    run.recordedOtherwise = true ∨ run.prepared.isSome = true

theorem SeedDerivedKeys.mem_rowsOf {table : SeedDerivedKeys} {row : SeedDerivedRow} :
    row ∈ table.rowsOf accountId ↔ row ∈ table.rows ∧ row.accountId = accountId := by
  unfold SeedDerivedKeys.rowsOf
  simp

theorem DiscoveryRun.traced_start (db : SeedDb) :
    (DiscoveryRun.start accountId db).Traced accountId where
  prepared := fun _ h => nomatch h
  records := by
    intro row hrow haccount
    have hmem := SeedDerivedKeys.mem_rowsOf.mpr ⟨hrow, haccount⟩
    refine Or.inl ?_
    show (!(db.seedKeys.rowsOf accountId).isEmpty) = true
    cases hrows : db.seedKeys.rowsOf accountId with
    | nil =>
      have hnil : row ∈ db.seedKeys.rowsOf accountId := hmem
      rw [hrows] at hnil
      cases hnil
    | cons first rest => rfl

/-- **The step lemma.** After any call the account's records still come from a completed preparation
or are accounted for. -/
theorem DiscoveryRun.Traced.step {run : DiscoveryRun} (h : run.Traced accountId)
    (call : SeedCall) : (run.step material accountId call).Traced accountId := by
  unfold DiscoveryRun.step
  cases hcompletes : run.db.completesPreparation accountId call with
  | true =>
    refine ⟨?_, fun _ _ _ => Or.inr rfl⟩
    intro indices hindices index hindex
    cases hindices
    cases call with
    | prepare secret birthdayHeight createdAt fault =>
      unfold SeedDb.completesPreparation at hcompletes
      simp only [Bool.and_eq_true, beq_iff_eq] at hcompletes
      obtain ⟨rfl, hdone⟩ := hcompletes
      obtain ⟨_, hrecords⟩ := @prepareLegacySaplingAccountDiscovery_spec secret birthdayHeight
        createdAt fault run.db _ _ rfl
      split at hdone
      · rename_i preparation hresult
        obtain ⟨row, hrow, haccount, rfl⟩ := hrecords preparation hresult index hindex
        exact List.mem_map_of_mem (SeedDerivedKeys.mem_rowsOf.mpr ⟨hrow, haccount⟩)
      · cases hdone
    | _ => cases hcompletes
  | false =>
    refine ⟨h.prepared, ?_⟩
    intro row hrow haccount
    have hmem := SeedDerivedKeys.mem_rowsOf.mpr ⟨hrow, haccount⟩
    by_cases hsame : (run.db.after material call).seedKeys.rowsOf accountId =
        run.db.seedKeys.rowsOf accountId
    · have hold : row ∈ run.db.seedKeys.rowsOf accountId := hsame ▸ hmem
      obtain ⟨hrow, _⟩ := SeedDerivedKeys.mem_rowsOf.mp hold
      rcases h.records row hrow haccount with hother | hprepared
      · refine Or.inl ?_
        simp [hother]
      · exact Or.inr hprepared
    · refine Or.inl ?_
      simp [hsame]

/-- In a traced run a finalization that finds no other records marks a prepared account. -/
theorem DiscoveryRun.Traced.marksPrepared {run : DiscoveryRun} (h : run.Traced accountId)
    {call : SeedCall} (hcall : run.FinalizesPrepared accountId call) :
    run.MarksPrepared material accountId call := by
  intro hfinalizes hbefore hafter
  have hprepared : run.prepared.isSome = true := by
    cases call with
    | finalize finalized joined stopsAfter =>
      have hsame : finalized = accountId := by simpa [SeedCall.finalizes] using hfinalizes
      subst hsame
      obtain ⟨_, hmarker⟩ :=
        @finalizeLegacySaplingAccountDiscovery_spec finalized joined stopsAfter run.db _ _ rfl
      obtain ⟨row, hrow, haccount⟩ := hmarker hbefore hafter
      rcases h.records row hrow haccount with hother | hprepared
      · exact hcall hfinalizes hother
      · exact hprepared
    | _ => cases hfinalizes
  obtain ⟨indices, hindices⟩ := Option.isSome_iff_exists.mp hprepared
  refine ⟨indices, hindices, ?_⟩
  intro index hpos hle
  refine h.prepared indices hindices index (List.mem_map.mpr ⟨index - 1, ?_, by omega⟩)
  exact List.mem_range.mpr (by unfold gapLimit; omega)

/-- **The marker means a prepared scan,** in every run in which an account that has records of
another origin is finalized only after a preparation of it has completed. -/
theorem finalize_marks_prepared (material : IronwoodMaterial) (accountId : Int) (db : SeedDb)
    (calls : List SeedCall)
    (hcalls : Runs.EachStep (DiscoveryRun.step material accountId)
      (DiscoveryRun.FinalizesPrepared accountId) (DiscoveryRun.start accountId db) calls) :
    Runs.EachStep (DiscoveryRun.step material accountId)
      (DiscoveryRun.MarksPrepared material accountId) (DiscoveryRun.start accountId db) calls := by
  have htraced := Runs.run_invariant_always
    (fun run call h => @DiscoveryRun.Traced.step material accountId run h call)
    (DiscoveryRun.traced_start db) calls
  intro done call rest hsplit
  exact (htraced done ⟨call :: rest, hsplit.symm⟩).marksPrepared (hcalls done call rest hsplit)

end Marker

/-- Accounts added by the user count as long as a preparation completes before the account is
finalized. -/
theorem finalize_marks_prepared_added_first :
    Runs.EachStep (DiscoveryRun.step taggedMaterial 1)
      (DiscoveryRun.MarksPrepared taggedMaterial 1) (DiscoveryRun.start 1 restoredSeedDb)
      [.insert 1 none [(1, none, oneByteKey 1 100)] false false,
        .prepare byteSecret 100 1 none, .finalize 1 false none] ∧
    (Runs.run (DiscoveryRun.step taggedMaterial 1) (DiscoveryRun.start 1 restoredSeedDb)
      [.insert 1 none [(1, none, oneByteKey 1 100)] false false,
        .prepare byteSecret 100 1 none, .finalize 1 false none]).db.discoveryComplete = true := by
  refine ⟨finalize_marks_prepared taggedMaterial 1 restoredSeedDb _ ?_, by decide +kernel⟩
  refine Runs.eachStep_cons.mpr ⟨(fun h => nomatch h), Runs.eachStep_cons.mpr
    ⟨(fun h => nomatch h), Runs.eachStep_cons.mpr ⟨?_, Runs.eachStep_nil⟩⟩⟩
  intro _ _
  decide +kernel

/-- The user adds an account to a restored wallet, and a scan from the tip finalizes: the marker
is set, although nothing was prepared. -/
theorem finalize_marks_unprepared :
    ¬ Runs.EachStep (DiscoveryRun.step taggedMaterial 1)
      (DiscoveryRun.MarksPrepared taggedMaterial 1) (DiscoveryRun.start 1 restoredSeedDb)
      [.insert 1 none [(1, none, oneByteKey 1 100)] false false, .finalize 1 false none] := by
  intro hmarks
  have hfinal := hmarks [.insert 1 none [(1, none, oneByteKey 1 100)] false false]
    (.finalize 1 false none) [] rfl
  obtain ⟨indices, hindices, _⟩ := hfinal (by decide +kernel) (by decide +kernel)
    (by decide +kernel)
  have hnone : (Runs.run (DiscoveryRun.step taggedMaterial 1)
      (DiscoveryRun.start 1 restoredSeedDb)
      [.insert 1 none [(1, none, oneByteKey 1 100)] false false]).prepared.isNone = true := by
    decide +kernel
  rw [hindices] at hnone
  cases hnone

end StashiWallet
