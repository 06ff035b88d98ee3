import StashiWallet.SeedReconcile
import StashiWallet.KeyedFolds

/-!
# What a reconciliation settles

A plan moves each row that was read to the row that is read afterwards (`Moved`): the row of the
seed becomes the one seed key, older seed rows become imported keys, the other rows stay. That what
is written reads back needs the spending columns in the form the account's protection gives them
(`SpendingStored`). A second call finds the row of the seed where the first left it and has nothing
to write (`planReconcile_settled`).
-/

namespace StashiWallet

/-- The rows a reconciliation is about. -/
def AccountKey.isSeed (key : AccountKey) : Bool :=
  key.keyType == .seed && key.keyScope == .account

/-- A row that is read where another was, after its update. -/
def replaceKey (update : Nat × AccountKey) (key : AccountKeyRow) : AccountKeyRow :=
  if key.id == update.1 then { update.2 with id := key.id } else key

/-- A row after the updates. -/
def updateKey (updates : List (Nat × AccountKey)) (key : AccountKeyRow) : AccountKeyRow :=
  updates.foldl (fun key update => replaceKey update key) key

section Plan

variable (material : KeyMaterial)

/-- A spending key that can be parsed can be compared, and so can its viewing key. -/
def KeyMaterial.Comparable : Prop :=
  ∀ extsk fvk, material.ironwoodFvk extsk = .ok fvk →
    (material.spending extsk).isSome = true ∧ (material.viewing fvk).isSome = true

/-- The row holds what `planSeed` writes to the row of the seed. -/
structure HoldsSeed (secret : WalletSecret) (birthdayHeight : Int) (dfvk : Bytes)
    (fvk : Option Bytes) (key : AccountKeyRow) : Prop where
  keyType : key.keyType = .seed
  keyScope : key.keyScope = .account
  spendable : key.spendable = true
  birthday : key.birthdayHeight ≤ birthdayHeight
  saplingExtsk : key.saplingExtsk = some secret.extsk
  saplingDfvk : key.saplingDfvk = some dfvk
  orchardExtsk : material.spendingMatches key.orchardExtsk secret.orchardExtsk = true
  orchardFvk : material.viewingMatches key.orchardFvk fvk = true
  mnemonic : key.encryptedMnemonic = secret.encryptedMnemonic

/-- What a reconciliation does to a row: its spending keys stay, its birthday does not go up, and
with a spending key it is spendable if it was, or was a seed row. -/
structure Moved (before after : AccountKeyRow) : Prop where
  id : after.id = before.id
  accountId : after.accountId = before.accountId
  keyScope : after.keyScope = before.keyScope
  saplingExtsk : after.saplingExtsk = before.saplingExtsk
  orchardExtsk : after.orchardExtsk = before.orchardExtsk
  birthday : after.birthdayHeight ≤ before.birthdayHeight
  spendable : before.hasSpendingKey = true → (before.spendable || before.isSeed) = true →
    after.spendable = true

/-- What a plan is made from: the viewing keys of the secret and the rows that are demoted. -/
structure Planned (secret : WalletSecret) (birthdayHeight : Int) (keys : List AccountKeyRow)
    (dfvk : Bytes) (fvk : Option Bytes) (previous : List (Bool × Nat × AccountKey))
    (plan : SeedPlan) : Prop where
  extsk : secret.extsk ≠ []
  saplingDerived : material.deriveSaplingFvk secret.extsk = .ok dfvk
  ironwoodDerived : secret.orchardExtsk.mapM material.deriveIronwoodFvk = .ok fvk
  demoted : (otherSeeds (keys.find? (secret.isCanonical material)) keys).mapM
    (demoteSeed material) = .ok previous
  made : plan =
    { planSeed material secret birthdayHeight dfvk fvk
        (keys.find? (secret.isCanonical material)) with
      updates := (planSeed material secret birthdayHeight dfvk fvk
        (keys.find? (secret.isCanonical material))).updates ++ previous.map (·.2)
      scanKeysChanged := (planSeed material secret birthdayHeight dfvk fvk
        (keys.find? (secret.isCanonical material))).scanKeysChanged || previous.any (·.1) }

variable {material} {secret : WalletSecret} {birthdayHeight : Int} {keys : List AccountKeyRow}

variable {key : AccountKeyRow}

theorem Moved.refl (h : key.isSeed = false) : Moved key key where
  id := rfl
  accountId := rfl
  keyScope := rfl
  saplingExtsk := rfl
  orchardExtsk := rfl
  birthday := le_rfl
  spendable := by
    intro _ hspendable
    rwa [h, Bool.or_false] at hspendable

theorem sameMaterial_self {read : Bytes → Option Bytes} {key : Option Bytes}
    (h : ∀ value ∈ key, (read value).isSome = true) : sameMaterial read key key = true := by
  cases key with
  | none => rfl
  | some value =>
    obtain ⟨parsed, hparsed⟩ := Option.isSome_iff_exists.mp (h value rfl)
    simp [sameMaterial, hparsed]

/-- Refreshing the viewing keys of a row writes nothing else. -/
theorem refresh_eq_ok {key : AccountKey} {refreshed : Bool × AccountKey}
    (h : refreshAccountKeyViewingMaterial material key = .ok refreshed) :
    ∃ dfvk fvk, refreshed.2 = { key with saplingDfvk := dfvk, orchardFvk := fvk } := by
  unfold refreshAccountKeyViewingMaterial at h
  obtain ⟨⟨saplingChanged, sapling⟩, hsapling, h⟩ := bind_eq_ok h
  obtain ⟨⟨ironwoodChanged, ironwood⟩, hironwood, h⟩ := bind_eq_ok h
  obtain rfl := Except.ok.inj h
  have hfirst : ∃ dfvk, sapling = { key with saplingDfvk := dfvk } := by
    unfold refreshSapling at hsapling
    split at hsapling
    · cases hsapling
      exact ⟨_, rfl⟩
    · obtain ⟨dfvk, -, hsapling⟩ := bind_eq_ok hsapling
      cases hsapling
      exact ⟨_, rfl⟩
  have hsecond : ∃ fvk, ironwood = { sapling with orchardFvk := fvk } := by
    unfold refreshIronwood at hironwood
    split at hironwood
    · cases hironwood
      exact ⟨_, rfl⟩
    · obtain ⟨fvk, -, hironwood⟩ := bind_eq_ok hironwood
      split at hironwood
      · cases hironwood
        exact ⟨_, rfl⟩
      · cases hironwood
        exact ⟨_, rfl⟩
  obtain ⟨dfvk, rfl⟩ := hfirst
  obtain ⟨fvk, rfl⟩ := hsecond
  exact ⟨dfvk, fvk, rfl⟩

variable {update : Nat × AccountKey}

/-- A demoted row is no seed row any more, and keeps its spending keys. -/
theorem demoteSeed_eq_ok {changed : Bool} (h : demoteSeed material key = .ok (changed, update)) :
    update.1 = key.id ∧ update.2.isSeed = false ∧ update.2.encryptedMnemonic = none ∧
      Moved key { update.2 with id := key.id } := by
  unfold demoteSeed at h
  obtain ⟨refreshed, hrefreshed, h⟩ := bind_eq_ok h
  obtain ⟨dfvk, fvk, hwritten⟩ := refresh_eq_ok hrefreshed
  cases h
  rw [hwritten]
  have hshows : key.hasSpendingKey = (key.saplingExtsk.isSome || key.orchardExtsk.isSome) := rfl
  by_cases hspending : (key.saplingExtsk.isSome || key.orchardExtsk.isSome) = true
  · refine ⟨rfl, ?_, rfl, ⟨rfl, rfl, rfl, rfl, rfl, le_rfl, fun _ _ => ?_⟩⟩
    · simp [AccountKey.isSeed, hspending]
    · simp [hspending]
  · refine ⟨rfl, ?_, rfl, ⟨rfl, rfl, rfl, rfl, rfl, le_rfl, fun hkey _ => ?_⟩⟩
    · simp [AccountKey.isSeed, hspending]
    · exact absurd (hshows.symm.trans hkey) hspending

/-- A plan succeeds with what it is made from. -/
theorem planned_of_ok {plan : SeedPlan}
    (h : planReconcile material secret birthdayHeight keys = .ok plan) :
    ∃ dfvk fvk previous, Planned material secret birthdayHeight keys dfvk fvk previous plan := by
  unfold planReconcile at h
  by_cases hempty : secret.extsk.isEmpty = true
  · rw [if_pos hempty] at h
    cases h
  · rw [if_neg hempty] at h
    obtain ⟨dfvk, hdfvk, h⟩ := bind_eq_ok h
    obtain ⟨fvk, hfvk, h⟩ := bind_eq_ok h
    obtain ⟨previous, hprevious, h⟩ := bind_eq_ok h
    obtain rfl := Except.ok.inj h
    exact ⟨dfvk, fvk, previous, ⟨fun hnil => hempty (by rw [hnil]; rfl), hdfvk, hfvk, hprevious,
      rfl⟩⟩

/-- The viewing key of the secret can be compared, and so can its spending key. -/
theorem comparable_of_derived (hmaterial : material.Comparable) {fvk : Option Bytes}
    (h : secret.orchardExtsk.mapM material.deriveIronwoodFvk = .ok fvk) :
    material.spendingMatches secret.orchardExtsk secret.orchardExtsk = true ∧
      material.viewingMatches fvk fvk = true := by
  cases hextsk : secret.orchardExtsk with
  | none =>
    rw [hextsk] at h
    obtain rfl := Except.ok.inj h
    exact ⟨rfl, rfl⟩
  | some extsk =>
    rw [hextsk, Option.mapM_some] at h
    obtain ⟨derived, hderived, h⟩ := bind_eq_ok h
    obtain rfl := Except.ok.inj h
    have hboth := hmaterial extsk derived (mapError_eq_ok hderived)
    refine ⟨sameMaterial_self ?_, sameMaterial_self ?_⟩
    · rintro value ⟨⟩
      exact hboth.1
    · rintro value ⟨⟩
      exact hboth.2

/-- The row of the seed is left alone if it holds what it should, else it is written. -/
theorem planSeed_settles (hmaterial : material.Comparable) {dfvk : Bytes} {fvk : Option Bytes}
    (hfvk : secret.orchardExtsk.mapM material.deriveIronwoodFvk = .ok fvk)
    {canonical : AccountKeyRow} (hcanonical : secret.isCanonical material canonical = true) :
    ((planSeed material secret birthdayHeight dfvk fvk (some canonical)).updates = [] ∧
      HoldsSeed material secret birthdayHeight dfvk fvk canonical) ∨
    ∃ changed : AccountKey,
      (planSeed material secret birthdayHeight dfvk fvk (some canonical)).updates =
        [(canonical.id, changed)] ∧
      HoldsSeed material secret birthdayHeight dfvk fvk { changed with id := canonical.id } ∧
      Moved canonical { changed with id := canonical.id } := by
  unfold WalletSecret.isCanonical at hcanonical
  simp only [Bool.and_eq_true, beq_iff_eq] at hcanonical
  obtain ⟨⟨hscope, hsapling⟩, horchard⟩ := hcanonical
  unfold planSeed
  dsimp only
  split
  · right
    refine ⟨_, rfl, ⟨rfl, rfl, rfl, min_le_right _ _, hsapling, rfl, horchard, ?_, rfl⟩,
      ⟨rfl, rfl, hscope.symm, rfl, rfl, min_le_left _ _, fun _ _ => rfl⟩⟩
    by_cases hviewing : material.viewingMatches canonical.orchardFvk fvk = true
    · simp [hviewing]
    · simp [hviewing, (comparable_of_derived hmaterial hfvk).2]
  · rename_i hunchanged
    left
    simp only [Bool.or_eq_true, bne_iff_ne, ne_eq, Bool.not_eq_true', not_or, not_not,
      Bool.not_eq_false] at hunchanged
    obtain ⟨⟨hdfvk, hviewing⟩, ⟨⟨htype, hbirthday⟩, hspendable⟩, hmnemonic⟩ := hunchanged
    exact ⟨rfl, ⟨htype, hscope, hspendable, by omega, hsapling, hdfvk, horchard, hviewing,
      hmnemonic⟩⟩

theorem replaceKey_of_eq (h : update.1 = key.id) :
    replaceKey update key = { update.2 with id := key.id } := by
  unfold replaceKey
  rw [if_pos (beq_iff_eq.mpr h.symm)]

theorem replaceKey_of_ne (h : update.1 ≠ key.id) : replaceKey update key = key := by
  unfold replaceKey
  rw [if_neg fun heq => h (beq_iff_eq.mp heq).symm]

theorem replaceKey_id (update : Nat × AccountKey) (key : AccountKeyRow) :
    (replaceKey update key).id = key.id := by
  by_cases h : update.1 = key.id
  · rw [replaceKey_of_eq h]
  · rw [replaceKey_of_ne h]

/-- A row stays as it is, or holds the last update for its id. -/
theorem updateKey_cases (updates : List (Nat × AccountKey)) (key : AccountKeyRow) :
    (updateKey updates key = key ∧ ∀ update ∈ updates, update.1 ≠ key.id) ∨
      ∃ update ∈ updates, update.1 = key.id ∧
        updateKey updates key = { update.2 with id := key.id } := by
  induction updates generalizing key with
  | nil => exact Or.inl ⟨rfl, fun update hupdate => absurd hupdate List.not_mem_nil⟩
  | cons update updates ih =>
    have hfold : updateKey (update :: updates) key = updateKey updates (replaceKey update key) :=
      rfl
    rw [hfold]
    rcases ih (replaceKey update key) with ⟨hsame, hnone⟩ | ⟨later, hlater, hid, hwritten⟩
    · rw [hsame]
      rw [replaceKey_id] at hnone
      by_cases hfirst : update.1 = key.id
      · right
        exact ⟨update, List.mem_cons_self, hfirst, replaceKey_of_eq hfirst⟩
      · left
        refine ⟨replaceKey_of_ne hfirst, ?_⟩
        exact List.forall_mem_cons.mpr ⟨hfirst, hnone⟩
    · right
      rw [replaceKey_id] at hid hwritten
      exact ⟨later, List.mem_cons_of_mem update hlater, hid, hwritten⟩

section Rows

variable {dfvk : Bytes} {fvk : Option Bytes} {previous : List (Bool × Nat × AccountKey)}
  {plan : SeedPlan} (hplanned : Planned material secret birthdayHeight keys dfvk fvk previous plan)

include hplanned

/-- An update is that of the row of the seed, or demotes another seed row. -/
theorem Planned.mem_updates {update : Nat × AccountKey} (hupdate : update ∈ plan.updates) :
    (∃ canonical, keys.find? (secret.isCanonical material) = some canonical ∧
      update ∈ (planSeed material secret birthdayHeight dfvk fvk (some canonical)).updates) ∨
    ∃ key ∈ otherSeeds (keys.find? (secret.isCanonical material)) keys, ∃ changed,
      demoteSeed material key = .ok (changed, update) := by
  rw [hplanned.made] at hupdate
  rcases List.mem_append.mp hupdate with hseed | hother
  · left
    cases hfind : keys.find? (secret.isCanonical material) with
    | none =>
      rw [hfind] at hseed
      cases hseed
    | some canonical =>
      rw [hfind] at hseed
      exact ⟨canonical, rfl, hseed⟩
  · right
    obtain ⟨⟨changed, demoted⟩, hdemoted, rfl⟩ := List.mem_map.mp hother
    obtain ⟨key, hkey, hdemote⟩ := mem_of_mapM hplanned.demoted hdemoted
    exact ⟨key, hkey, changed, hdemote⟩

/-- A new row of the seed has the columns of the secret. -/
theorem Planned.newSeed_columns {key : AccountKey} (hnew : plan.newSeed = some key) :
    key.accountId = secret.accountId ∧
      [key.saplingExtsk, key.orchardExtsk, key.encryptedMnemonic] =
        [some secret.extsk, secret.orchardExtsk, secret.encryptedMnemonic] := by
  rw [hplanned.made] at hnew
  cases hfind : keys.find? (secret.isCanonical material) with
  | none =>
    rw [hfind] at hnew
    obtain rfl := Option.some.inj hnew
    exact ⟨rfl, rfl⟩
  | some canonical =>
    rw [hfind] at hnew
    cases hnew

variable (hmaterial : material.Comparable)
  (hids : ∀ a ∈ keys, ∀ b ∈ keys, a.id = b.id → a = b)

include hmaterial

/-- The row of the seed is settled. -/
theorem Planned.settles {canonical : AccountKeyRow}
    (hfind : keys.find? (secret.isCanonical material) = some canonical) :
    HoldsSeed material secret birthdayHeight dfvk fvk (updateKey plan.updates canonical) ∧
      Moved canonical (updateKey plan.updates canonical) := by
  have hcanonical := List.find?_some hfind
  have hother : ∀ update ∈ plan.updates, update.1 = canonical.id →
      update ∈ (planSeed material secret birthdayHeight dfvk fvk (some canonical)).updates := by
    intro update hupdate hid
    rcases hplanned.mem_updates hupdate with ⟨found, hfound, hseed⟩ | ⟨key, hkey, changed, hdemote⟩
    · obtain rfl : canonical = found := Option.some.inj (hfind.symm.trans hfound)
      exact hseed
    · exfalso
      obtain ⟨hupdated, -⟩ := demoteSeed_eq_ok hdemote
      have hne := (List.mem_filter.mp hkey).2
      rw [hfind] at hne
      simp only [Option.all_some, Bool.and_eq_true, bne_iff_ne] at hne
      exact hne.1.1 (hid.symm.trans hupdated)
  rcases planSeed_settles hmaterial hplanned.ironwoodDerived hcanonical with
    ⟨hnone, hsettled⟩ | ⟨changed, hone, hsettled, hmoved⟩
  · rcases updateKey_cases plan.updates canonical with ⟨hsame, -⟩ | ⟨update, hupdate, hid, -⟩
    · rw [hsame]
      exact ⟨hsettled, ⟨rfl, rfl, rfl, rfl, rfl, le_rfl, fun _ _ => hsettled.spendable⟩⟩
    · have hmem := hother update hupdate hid
      rw [hnone] at hmem
      cases hmem
  · rcases updateKey_cases plan.updates canonical with
      ⟨-, hnot⟩ | ⟨update, hupdate, hid, hwritten⟩
    · refine absurd rfl (hnot (canonical.id, changed) ?_)
      rw [hplanned.made, hfind]
      exact List.mem_append_left _ (by rw [hone]; exact List.mem_singleton_self _)
    · have hmem := hother update hupdate hid
      rw [hone, List.mem_singleton] at hmem
      rw [hwritten, hmem]
      exact ⟨hsettled, hmoved⟩

/-- An update is for a row that was read, with its spending keys and no mnemonic but the
secret's. -/
theorem Planned.update_columns {update : Nat × AccountKey} (hupdate : update ∈ plan.updates) :
    ∃ key ∈ keys, update.1 = key.id ∧ update.2.accountId = key.accountId ∧
      update.2.saplingExtsk = key.saplingExtsk ∧ update.2.orchardExtsk = key.orchardExtsk ∧
      (update.2.encryptedMnemonic = secret.encryptedMnemonic ∨
        update.2.encryptedMnemonic = none) := by
  rcases hplanned.mem_updates hupdate with ⟨canonical, hfind, hseed⟩ | ⟨key, hkey, changed, hdemote⟩
  · refine ⟨canonical, List.mem_of_find?_eq_some hfind, ?_⟩
    rcases planSeed_settles hmaterial hplanned.ironwoodDerived (List.find?_some hfind) with
      ⟨hnone, -⟩ | ⟨changed, hone, hsettled, hmoved⟩
    · rw [hnone] at hseed
      cases hseed
    · rw [hone, List.mem_singleton] at hseed
      rw [hseed]
      exact ⟨rfl, hmoved.accountId, hmoved.saplingExtsk, hmoved.orchardExtsk,
        Or.inl hsettled.mnemonic⟩
  · obtain ⟨hid, -, hmnemonic, hmoved⟩ := demoteSeed_eq_ok hdemote
    exact ⟨key, (List.mem_filter.mp hkey).1, hid, hmoved.accountId, hmoved.saplingExtsk,
      hmoved.orchardExtsk, Or.inr hmnemonic⟩

include hids

/-- Every other row ends as no seed row, with its spending keys. -/
theorem Planned.keeps {key : AccountKeyRow} (hkey : key ∈ keys)
    (hother : keys.find? (secret.isCanonical material) ≠ some key) :
    (updateKey plan.updates key).isSeed = false ∧ Moved key (updateKey plan.updates key) := by
  have hne : ∀ canonical, keys.find? (secret.isCanonical material) = some canonical →
      canonical.id ≠ key.id := by
    intro canonical hfind hid
    rw [hfind, hids canonical (List.mem_of_find?_eq_some hfind) key hkey hid] at hother
    exact hother rfl
  have hdemoted : ∀ update ∈ plan.updates, update.1 = key.id → key.isSeed = true ∧
      ∃ changed, demoteSeed material key = .ok (changed, update) := by
    intro update hupdate hid
    rcases hplanned.mem_updates hupdate with ⟨canonical, hfind, hseed⟩ | ⟨row, hrow, changed, h⟩
    · exfalso
      rcases planSeed_settles hmaterial hplanned.ironwoodDerived (List.find?_some hfind) with
        ⟨hnone, -⟩ | ⟨changed, hone, -⟩
      · rw [hnone] at hseed
        cases hseed
      · rw [hone, List.mem_singleton] at hseed
        rw [hseed] at hid
        exact hne canonical hfind hid
    · obtain ⟨hupdated, -⟩ := demoteSeed_eq_ok h
      obtain ⟨hmem, hseed⟩ := List.mem_filter.mp hrow
      obtain rfl : row = key := hids row hmem key hkey (hupdated.symm.trans hid)
      rw [Bool.and_eq_true, Bool.and_eq_true] at hseed
      exact ⟨Bool.and_eq_true_iff.mpr ⟨hseed.1.2, hseed.2⟩, changed, h⟩
  rcases updateKey_cases plan.updates key with ⟨hsame, hnot⟩ | ⟨update, hupdate, hid, hwritten⟩
  · rw [hsame]
    have hseed : key.isSeed = false := by
      by_contra hseed
      rw [Bool.not_eq_false] at hseed
      have hmem : key ∈ otherSeeds (keys.find? (secret.isCanonical material)) keys := by
        refine List.mem_filter.mpr ⟨hkey, ?_⟩
        unfold AccountKey.isSeed at hseed
        rw [Bool.and_eq_true] at hseed
        rw [Bool.and_eq_true, Bool.and_eq_true]
        refine ⟨⟨?_, hseed.1⟩, hseed.2⟩
        cases hfind : keys.find? (secret.isCanonical material) with
        | none => rfl
        | some canonical => exact bne_iff_ne.mpr (hne canonical hfind)
      obtain ⟨⟨changed, demoted⟩, hdemote, h⟩ :=
        partner_of_mem_left (forall₂_of_mapM hplanned.demoted) hmem
      refine hnot demoted ?_ (demoteSeed_eq_ok h).1
      rw [hplanned.made]
      exact List.mem_append_right _ (List.mem_map.mpr ⟨_, hdemote, rfl⟩)
    exact ⟨hseed, .refl hseed⟩
  · obtain ⟨-, changed, h⟩ := hdemoted update hupdate hid
    obtain ⟨-, hseed, -, hmoved⟩ := demoteSeed_eq_ok h
    rw [hwritten]
    exact ⟨hseed, hmoved⟩

/-- Every row that was read is moved as its update says, or stays. -/
theorem Planned.moves {key : AccountKeyRow} (hkey : key ∈ keys) :
    Moved key (updateKey plan.updates key) := by
  by_cases hfind : keys.find? (secret.isCanonical material) = some key
  · exact (hplanned.settles hmaterial hfind).2
  · exact (hplanned.keeps hmaterial hids hkey hfind).2

end Rows

/-- The rows that are read after a plan: the new row of the seed comes last. -/
def SeedPlan.rows (plan : SeedPlan) (keys : List AccountKeyRow) (nextId : Nat) :
    List AccountKeyRow :=
  keys.map (updateKey plan.updates) ++
    plan.newSeed.toList.map fun key => { key with id := nextId }

theorem isCanonical_of_moved {before after : AccountKeyRow} (h : Moved before after) :
    secret.isCanonical material after = secret.isCanonical material before := by
  unfold WalletSecret.isCanonical
  rw [h.keyScope, h.saplingExtsk, h.orchardExtsk]

/-- Of the rows that are read after a plan the row of the seed is the one seed row, and the first
with the keys of the secret. -/
theorem Planned.one_seed {dfvk : Bytes} {fvk : Option Bytes}
    {previous : List (Bool × Nat × AccountKey)} {plan : SeedPlan}
    (hplanned : Planned material secret birthdayHeight keys dfvk fvk previous plan)
    (hmaterial : material.Comparable) (hnodup : (keys.map (·.id)).Nodup) (nextId : Nat) :
    ∃ seed, (plan.rows keys nextId).find? (secret.isCanonical material) = some seed ∧
      (plan.rows keys nextId).filter (·.isSeed) = [seed] ∧
      HoldsSeed material secret birthdayHeight dfvk fvk seed ∧
      ((plan.newSeed = none ∧ plan.primaryKeyId = seed.id) ∨
        (plan.newSeed.isSome = true ∧ nextId = seed.id)) := by
  have hids : ∀ a ∈ keys, ∀ b ∈ keys, a.id = b.id → a = b := fun a ha b hb hid =>
    List.inj_on_of_nodup_map hnodup ha hb hid
  have hpairs : List.Forall₂ (fun before after => Moved before after ∧
      after = updateKey plan.updates before) keys (keys.map (updateKey plan.updates)) := by
    rw [List.forall₂_map_right_iff, List.forall₂_same]
    exact fun key hkey => ⟨hplanned.moves hmaterial hids hkey, rfl⟩
  unfold SeedPlan.rows
  rw [List.find?_append, List.filter_append]
  rcases find?_forall₂ (fun h => isCanonical_of_moved h.1) hpairs with
    ⟨canonical, seed, hfind, hseed, -, rfl⟩ | ⟨hnone, hnone'⟩
  · have hnew : plan.newSeed = none := by
      rw [hplanned.made, hfind]
      rfl
    have hid : plan.primaryKeyId = canonical.id := by
      rw [hplanned.made, hfind]
      rfl
    obtain ⟨hsettled, hcanonical⟩ := hplanned.settles hmaterial hfind
    refine ⟨_, by rw [hseed]; rfl, ?_, hsettled, Or.inl ⟨hnew, hid.trans hcanonical.id.symm⟩⟩
    have hfilter : keys.filter ((fun key => key.isSeed) ∘ updateKey plan.updates) =
        keys.filter (fun key => decide (key.id = canonical.id)) := by
      refine List.filter_congr fun key hkey => ?_
      by_cases heq : key = canonical
      · rw [heq]
        simp [AccountKey.isSeed, hsettled.keyType, hsettled.keyScope]
      · have hne : key.id ≠ canonical.id := fun hid =>
          heq (hids key hkey canonical (List.mem_of_find?_eq_some hfind) hid)
        have hother := (hplanned.keeps hmaterial hids hkey fun h =>
          heq (Option.some.inj (h.symm.trans hfind))).1
        simp [hother, hne]
    rw [hnew, List.filter_map, hfilter, KeyedFold.filter_key_eq_singleton
      (List.pairwise_map.mp hnodup) (List.mem_of_find?_eq_some hfind)]
    rfl
  · have hnew : plan.newSeed = (planSeed material secret birthdayHeight dfvk fvk none).newSeed := by
      rw [hplanned.made, hnone]
    have hnotSeed : (keys.map (updateKey plan.updates)).filter (fun key => key.isSeed) = [] := by
      rw [List.filter_eq_nil_iff]
      intro key hkey
      obtain ⟨before, hbefore, rfl⟩ := List.mem_map.mp hkey
      rw [(hplanned.keeps hmaterial hids hbefore (by rw [hnone]; exact nofun)).1]
      exact Bool.false_ne_true
    obtain ⟨hspending, hviewing⟩ := comparable_of_derived hmaterial hplanned.ironwoodDerived
    obtain ⟨seed, hrows, hid, hsettled⟩ : ∃ seed,
        ((planSeed material secret birthdayHeight dfvk fvk none).newSeed.toList.map
          fun key => ({ key with id := nextId } : AccountKeyRow)) = [seed] ∧ nextId = seed.id ∧
        HoldsSeed material secret birthdayHeight dfvk fvk seed :=
      ⟨_, rfl, rfl, ⟨rfl, rfl, rfl, le_rfl, rfl, rfl, hspending, hviewing, rfl⟩⟩
    have hcanonical : secret.isCanonical material seed = true := by
      simp [WalletSecret.isCanonical, hsettled.keyScope, hsettled.saplingExtsk,
        hsettled.orchardExtsk]
    have hseed : seed.isSeed = true := by
      simp [AccountKey.isSeed, hsettled.keyType, hsettled.keyScope]
    have hone : [seed].filter (·.isSeed) = [seed] := List.filter_cons_of_pos (by exact hseed)
    rw [hnone', hnotSeed, hnew, hrows]
    exact ⟨seed, Option.none_or.trans (List.find?_cons_of_pos hcanonical), hone, hsettled,
      Or.inr ⟨rfl, hid⟩⟩

/-- **A second plan has nothing to write.** -/
theorem planReconcile_settled {dfvk : Bytes} {fvk : Option Bytes} {seed : AccountKeyRow}
    (hextsk : secret.extsk ≠ []) (hdfvk : material.deriveSaplingFvk secret.extsk = .ok dfvk)
    (hfvk : secret.orchardExtsk.mapM material.deriveIronwoodFvk = .ok fvk)
    (hfind : keys.find? (secret.isCanonical material) = some seed)
    (hone : keys.filter (·.isSeed) = [seed])
    (hsettled : HoldsSeed material secret birthdayHeight dfvk fvk seed) :
    ∃ plan, planReconcile material secret birthdayHeight keys = .ok plan ∧ plan.updates = [] ∧
      plan.newSeed = none ∧ plan.primaryKeyId = seed.id := by
  have hempty : ¬ secret.extsk.isEmpty = true := fun h => hextsk (List.isEmpty_iff.mp h)
  have hothers : otherSeeds (some seed) keys = [] := by
    unfold otherSeeds
    rw [List.filter_eq_nil_iff]
    intro key hkey hother
    simp only [Option.all_some, Bool.and_eq_true, bne_iff_ne] at hother
    have hmem : key ∈ keys.filter (·.isSeed) :=
      List.mem_filter.mpr ⟨hkey, Bool.and_eq_true_iff.mpr ⟨hother.1.2, hother.2⟩⟩
    rw [hone, List.mem_singleton] at hmem
    exact hother.1.1 (congrArg AccountKeyRow.id hmem.symm)
  have hseed : (planSeed material secret birthdayHeight dfvk fvk (some seed)).updates = [] := by
    have hbirthday : min seed.birthdayHeight birthdayHeight = seed.birthdayHeight :=
      min_eq_left hsettled.birthday
    unfold planSeed
    simp [hsettled.keyType, hsettled.spendable, hsettled.saplingDfvk, hsettled.mnemonic,
      hsettled.orchardFvk, hbirthday]
  unfold planReconcile
  rw [if_neg hempty]
  simp only [hdfvk, hfvk, hfind, hothers, bind, Except.bind, List.mapM_nil, pure, Except.pure]
  refine ⟨_, rfl, ?_, rfl, rfl⟩
  dsimp only
  rw [hseed]
  rfl

end Plan

section Stored

variable {K : Type} (cipher : BlobCipher K) (masterKey : K) (sessions : Sessions K)

namespace SigningDb

variable (db : SigningDb) (accountId : Int)

/-- A value that reads back as it is written: without a protection it is not taken for an
envelope. -/
def Storable (value : Bytes) : Prop :=
  db.protectedWalletForAccount accountId = none → ENVELOPE_MAGIC.isPrefixOf value = false

/-- A value as the protection of the account stores it: an envelope of the account's wallet, an
empty value left empty, or without a protection the value itself. -/
def StoredForm (value : Bytes) : Prop :=
  match db.protectedWalletForAccount accountId with
  | none => ENVELOPE_MAGIC.isPrefixOf value = false
  | some walletId => value = [] ∨ ∃ key plaintext,
      protectWithKey cipher walletId key plaintext = .ok value

/-- The spending columns of the account's rows hold what the code writes to them. -/
def SpendingStored : Prop :=
  ∀ row ∈ db.keys.rows, row.accountId = accountId →
    ∀ column ∈ [row.saplingExtsk, row.orchardExtsk, row.encryptedMnemonic],
      ∀ encrypted ∈ column, ∀ value, cipher.decrypt masterKey encrypted = some value →
        db.StoredForm cipher accountId value

end SigningDb

variable {cipher masterKey sessions} {db : SigningDb} {accountId : Int}

theorem reveal_of_no_magic {value : Bytes} (h : ENVELOPE_MAGIC.isPrefixOf value = false) :
    revealForActiveSession cipher sessions value = .ok (some value) := by
  unfold revealForActiveSession
  rw [h]
  rfl

theorem not_magic_nil : ENVELOPE_MAGIC.isPrefixOf [] = false := rfl

/-- What a column that is read shows: where the account's session is open, all that is stored. -/
theorem reveal_of_stored {value : Bytes} {shown : Option Bytes}
    (hstored : db.StoredForm cipher accountId value)
    (hreveal : revealForActiveSession cipher sessions value = .ok shown)
    (hopen : ¬ db.Locked sessions accountId) :
    ∃ plain, shown = some plain ∧ db.Storable accountId plain := by
  unfold SigningDb.StoredForm at hstored
  unfold SigningDb.Storable
  cases hprotected : db.protectedWalletForAccount accountId with
  | none =>
    rw [hprotected] at hstored
    rw [reveal_of_no_magic hstored] at hreveal
    exact ⟨value, (Except.ok.inj hreveal).symm, fun _ => hstored⟩
  | some walletId =>
    rw [hprotected] at hstored
    rcases hstored with rfl | ⟨key, plaintext, henvelope⟩
    · rw [reveal_of_no_magic not_magic_nil] at hreveal
      exact ⟨[], (Except.ok.inj hreveal).symm, nofun⟩
    · rw [revealForActiveSession_envelope henvelope] at hreveal
      cases hsession : sessions walletId with
      | none => exact absurd ⟨walletId, hprotected, hsession⟩ hopen
      | some session =>
        rw [hsession] at hreveal
        dsimp only at hreveal
        cases hplain : cipher.decrypt session (cipher.encrypt key plaintext) with
        | none =>
          rw [hplain] at hreveal
          cases hreveal
        | some plain =>
          rw [hplain] at hreveal
          exact ⟨plain, (Except.ok.inj hreveal).symm, nofun⟩

/-- A locked session shows nothing of the account but empty values. -/
theorem reveal_of_stored_locked {value : Bytes} {shown : Option Bytes}
    (hstored : db.StoredForm cipher accountId value)
    (hreveal : revealForActiveSession cipher sessions value = .ok shown)
    (hlocked : db.Locked sessions accountId) : shown = none ∨ shown = some [] := by
  obtain ⟨walletId, hprotected, hsession⟩ := hlocked
  unfold SigningDb.StoredForm at hstored
  rw [hprotected] at hstored
  rcases hstored with rfl | ⟨key, plaintext, henvelope⟩
  · rw [reveal_of_no_magic not_magic_nil] at hreveal
    exact Or.inr (Except.ok.inj hreveal).symm
  · rw [reveal_of_locked henvelope hsession] at hreveal
    exact Or.inl (Except.ok.inj hreveal).symm

/-- **A spending column that is encrypted reads back.** -/
theorem reveal_of_encrypted {column encrypted : Option Bytes}
    (hstorable : ∀ value ∈ column, db.Storable accountId value)
    (h : db.encryptOptionalSpendingBlobForAccount cipher masterKey sessions accountId column =
      .ok encrypted) :
    revealOptionalSpendingBlob cipher masterKey sessions encrypted = .ok column := by
  cases column with
  | none =>
    obtain rfl := Except.ok.inj h
    rfl
  | some value =>
    unfold SigningDb.encryptOptionalSpendingBlobForAccount at h
    have hshown : ∀ {stored : Bytes},
        revealForActiveSession cipher sessions stored = .ok (some value) →
        revealOptionalSpendingBlob cipher masterKey sessions
          (some (cipher.encrypt masterKey stored)) = .ok (some value) := by
      intro stored hstored
      unfold revealOptionalSpendingBlob revealSpendingBlob decryptBlob
      simp only [cipher.decrypt_encrypt, bind, Except.bind]
      exact hstored
    cases hprotected : db.protectedWalletForAccount accountId with
    | none =>
      rw [hprotected] at h
      obtain rfl := Except.ok.inj h
      exact hshown (reveal_of_no_magic (hstorable value rfl hprotected))
    | some walletId =>
      rw [hprotected] at h
      obtain ⟨blob, hblob, rfl⟩ := map_eq_ok h
      unfold SigningDb.encryptSpendingBlobForWallet at hblob
      have hrecord : (db.getSigningProtection walletId).isSome = true :=
        getSigningProtection_of_account hprotected
      rw [if_pos hrecord] at hblob
      obtain ⟨envelope, henvelope, hblob⟩ := bind_eq_ok hblob
      obtain rfl := Except.ok.inj hblob
      unfold protectForActiveSession at henvelope
      cases hsession : sessions walletId with
      | none =>
        rw [hsession] at henvelope
        cases henvelope
      | some key =>
        rw [hsession] at henvelope
        exact hshown (reveal_of_unlocked henvelope hsession)

theorem decryptOptionalBlob_encrypted (column : Option Bytes) :
    decryptOptionalBlob cipher masterKey (column.map (cipher.encrypt masterKey)) = .ok column := by
  cases column with
  | none => rfl
  | some value =>
    unfold decryptOptionalBlob decryptBlob
    simp only [Option.map_some, cipher.decrypt_encrypt, Except.map]

/-- A row that is written reads back as it was encrypted. -/
theorem revealKey_encrypted {key encrypted : AccountKey}
    (hstorable : ∀ column ∈ [key.saplingExtsk, key.orchardExtsk, key.encryptedMnemonic],
      ∀ value ∈ column, db.Storable key.accountId value)
    (h : db.encryptAccountKeyFields cipher masterKey sessions key = .ok encrypted) (id : Nat) :
    encrypted.accountId = key.accountId ∧
      revealKey cipher masterKey sessions { encrypted with id := id } =
        .ok { key with id := id } := by
  unfold SigningDb.encryptAccountKeyFields at h
  obtain ⟨saplingExtsk, hsapling, h⟩ := bind_eq_ok h
  obtain ⟨orchardExtsk, horchard, h⟩ := bind_eq_ok h
  obtain ⟨encryptedMnemonic, hmnemonic, h⟩ := bind_eq_ok h
  obtain rfl := Except.ok.inj h
  refine ⟨rfl, ?_⟩
  have hsaplingRead := reveal_of_encrypted (hstorable _ (by simp)) hsapling
  have horchardRead := reveal_of_encrypted (hstorable _ (by simp)) horchard
  have hmnemonicRead := reveal_of_encrypted (hstorable _ (by simp)) hmnemonic
  unfold revealKey
  simp only [hsaplingRead, horchardRead, hmnemonicRead, decryptOptionalBlob_encrypted, bind,
    Except.bind, pure, Except.pure]

/-! ## What is read after the writes -/

theorem mapM_of_forall₂ {ε α β : Type} {f : α → Except ε β} {xs : List α} {ys : List β}
    (h : List.Forall₂ (fun x y => f x = .ok y) xs ys) : xs.mapM f = .ok ys := by
  induction h with
  | nil => rfl
  | cons hfirst _ ih =>
    rw [List.mapM_cons, hfirst, ih]
    rfl

/-- An update that was encrypted, and reads back. -/
structure ReadsBack (cipher : BlobCipher K) (masterKey : K) (sessions : Sessions K)
    (accountId : Int) (update encrypted : Nat × AccountKey) : Prop where
  id : encrypted.1 = update.1
  accountId : encrypted.2.accountId = accountId
  reveals : ∀ id, revealKey cipher masterKey sessions { encrypted.2 with id := id } =
    .ok { update.2 with id := id }

/-- What an update writes is read in the place of the row. -/
theorem getAccountKeys_upsert {keys : List AccountKeyRow} {update encrypted : Nat × AccountKey}
    (hkeys : db.getAccountKeys cipher masterKey sessions accountId = .ok keys)
    (hreads : ReadsBack cipher masterKey sessions accountId update encrypted)
    (haccount : ∀ row ∈ db.keys.rows, row.id = update.1 → row.accountId = accountId) :
    (db.upsertAccountKey (some encrypted.1) encrypted.2).2.getAccountKeys cipher masterKey sessions
      accountId = .ok (keys.map (replaceKey update)) := by
  have hrows : (db.upsertAccountKey (some encrypted.1) encrypted.2).2.keys.ofAccount accountId =
      (db.keys.ofAccount accountId).map
        (fun row => if row.id == encrypted.1 then { encrypted.2 with id := row.id } else row) := by
    show (db.keys.rows.map _).filter _ = (db.keys.rows.filter _).map _
    rw [List.filter_map]
    congr 1
    refine List.filter_congr fun row hrow => ?_
    by_cases hid : row.id = encrypted.1
    · have hboth := haccount row hrow (hid.trans hreads.id)
      simp [hid, hreads.accountId, hboth]
    · simp [hid]
  unfold SigningDb.getAccountKeys
  rw [hrows]
  refine mapM_of_forall₂ ?_
  rw [List.forall₂_map_left_iff, List.forall₂_map_right_iff]
  refine (forall₂_of_mapM hkeys).imp fun row key hread => ?_
  have hid : key.id = row.id := (revealKey_same hread).1
  by_cases heq : update.1 = key.id
  · have hrow : (row.id == encrypted.1) = true := beq_iff_eq.mpr (by rw [hreads.id, heq, hid])
    rw [replaceKey_of_eq heq, if_pos hrow, hid]
    exact hreads.reveals row.id
  · have hrow : ¬ (row.id == encrypted.1) = true := by
      rw [beq_iff_eq, hreads.id, ← hid]
      exact fun h => heq h.symm
    rw [replaceKey_of_ne heq, if_neg hrow]
    exact hread

variable {row : AccountKeyRow}

/-- An update leaves the ids and the accounts of the rows as they are. -/
theorem mem_upsert_account {encrypted : Nat × AccountKey}
    (hrow : row ∈ (db.upsertAccountKey (some encrypted.1) encrypted.2).2.keys.rows)
    (haccount : encrypted.2.accountId = accountId) :
    row.accountId = accountId ∨ row ∈ db.keys.rows := by
  obtain ⟨stored, hstored, rfl⟩ := List.mem_map.mp hrow
  by_cases hid : (stored.id == encrypted.1) = true
  · rw [if_pos hid]
    exact Or.inl haccount
  · rw [if_neg hid]
    exact Or.inr hstored

theorem getAccountKeys_writeUpdates {keys : List AccountKeyRow}
    {updates encrypted : List (Nat × AccountKey)}
    (hkeys : db.getAccountKeys cipher masterKey sessions accountId = .ok keys)
    (hreads : List.Forall₂ (ReadsBack cipher masterKey sessions accountId) updates encrypted)
    (haccount : ∀ update ∈ updates, ∀ row ∈ db.keys.rows, row.id = update.1 →
      row.accountId = accountId) :
    (db.writeUpdates encrypted).getAccountKeys cipher masterKey sessions accountId =
      .ok (keys.map (updateKey updates)) := by
  induction hreads generalizing db keys with
  | nil => exact hkeys.trans (congrArg Except.ok (List.map_id keys).symm)
  | @cons update encrypted updates rest hfirst _ ih =>
    have hwritten := getAccountKeys_upsert hkeys hfirst (haccount update List.mem_cons_self)
    refine (ih hwritten fun later hlater row hrow hid => ?_).trans ?_
    · rcases mem_upsert_account hrow hfirst.accountId with hsame | hmem
      · exact hsame
      · exact haccount later (List.mem_cons_of_mem update hlater) row hmem hid
    · rw [List.map_map]
      rfl

theorem getAccountKeys_insert {keys : List AccountKeyRow} {key encrypted : AccountKey}
    (hkeys : db.getAccountKeys cipher masterKey sessions accountId = .ok keys)
    (hreads : ReadsBack cipher masterKey sessions accountId (0, key) (0, encrypted)) :
    (db.upsertAccountKey none encrypted).2.getAccountKeys cipher masterKey sessions accountId =
      .ok (keys ++ [{ key with id := db.keys.nextId }]) := by
  have hrows : (db.upsertAccountKey none encrypted).2.keys.ofAccount accountId =
      db.keys.ofAccount accountId ++ [{ encrypted with id := db.keys.nextId }] := by
    show (db.keys.rows ++ _).filter _ = _
    rw [List.filter_append]
    congr 1
    exact List.filter_cons_of_pos (beq_iff_eq.mpr hreads.accountId)
  unfold SigningDb.getAccountKeys
  rw [hrows]
  refine mapM_of_forall₂ (List.rel_append (forall₂_of_mapM hkeys) ?_)
  exact .cons (hreads.reveals db.keys.nextId) .nil

/-! ## The call -/

/-- A row that is read has the columns that the row stores, and each of them can be stored. -/
structure ShownKey (db : SigningDb) (row key : AccountKeyRow) : Prop where
  saplingExtsk : key.saplingExtsk.isSome = row.saplingExtsk.isSome
  orchardExtsk : key.orchardExtsk.isSome = row.orchardExtsk.isSome
  storable : ∀ column ∈ [key.saplingExtsk, key.orchardExtsk],
    ∀ value ∈ column, db.Storable row.accountId value

section Shown

variable (hrow : row ∈ db.keys.rows) (hstored : db.SpendingStored cipher masterKey row.accountId)

include hrow hstored in
theorem reveal_column {column shown : Option Bytes}
    (hcolumn : column ∈ [row.saplingExtsk, row.orchardExtsk, row.encryptedMnemonic])
    (hreveal : revealOptionalSpendingBlob cipher masterKey sessions column = .ok shown) :
    (column = none ∧ shown = none) ∨ ∃ encrypted value, column = some encrypted ∧
      db.StoredForm cipher row.accountId value ∧
      revealForActiveSession cipher sessions value = .ok shown := by
  cases column with
  | none => exact Or.inl ⟨rfl, (Except.ok.inj hreveal).symm⟩
  | some encrypted =>
    right
    unfold revealOptionalSpendingBlob revealSpendingBlob at hreveal
    obtain ⟨value, hvalue, hreveal⟩ := bind_eq_ok hreveal
    refine ⟨encrypted, value, rfl, hstored row hrow rfl _ hcolumn encrypted rfl value ?_, hreveal⟩
    unfold decryptBlob at hvalue
    cases hdecrypt : cipher.decrypt masterKey encrypted with
    | none =>
      rw [hdecrypt] at hvalue
      cases hvalue
    | some plain =>
      rw [hdecrypt] at hvalue
      exact congrArg some (Except.ok.inj hvalue)

include hrow hstored in
theorem shown_column (hopen : ¬ db.Locked sessions row.accountId) {column shown : Option Bytes}
    (hcolumn : column ∈ [row.saplingExtsk, row.orchardExtsk, row.encryptedMnemonic])
    (hreveal : revealOptionalSpendingBlob cipher masterKey sessions column = .ok shown) :
    shown.isSome = column.isSome ∧ ∀ value ∈ shown, db.Storable row.accountId value := by
  rcases reveal_column hrow hstored hcolumn hreveal with
    ⟨rfl, rfl⟩ | ⟨encrypted, value, rfl, hform, hvalue⟩
  · exact ⟨rfl, nofun⟩
  · obtain ⟨plain, rfl, hstorable⟩ := reveal_of_stored hform hvalue hopen
    refine ⟨rfl, ?_⟩
    rintro other ⟨⟩
    exact hstorable

include hrow hstored in
/-- Where the account's session is open, a read shows what is stored. -/
theorem shown_of_read {key : AccountKeyRow} (hopen : ¬ db.Locked sessions row.accountId)
    (hread : revealKey cipher masterKey sessions row = .ok key) : ShownKey db row key := by
  unfold revealKey at hread
  obtain ⟨saplingExtsk, hsapling, hread⟩ := bind_eq_ok hread
  obtain ⟨saplingDfvk, -, hread⟩ := bind_eq_ok hread
  obtain ⟨orchardExtsk, horchard, hread⟩ := bind_eq_ok hread
  obtain ⟨orchardFvk, -, hread⟩ := bind_eq_ok hread
  obtain ⟨encryptedMnemonic, -, hread⟩ := bind_eq_ok hread
  obtain rfl := Except.ok.inj hread
  have hsaplingShown := shown_column hrow hstored hopen (by simp) hsapling
  have horchardShown := shown_column hrow hstored hopen (by simp) horchard
  refine ⟨hsaplingShown.1, horchardShown.1, ?_⟩
  intro column hcolumn
  rcases List.mem_pair.mp hcolumn with rfl | rfl
  · exact hsaplingShown.2
  · exact horchardShown.2

include hrow hstored in
/-- A locked session shows no spending key. -/
theorem saplingExtsk_of_locked {key : AccountKeyRow}
    (hlocked : db.Locked sessions row.accountId)
    (hread : revealKey cipher masterKey sessions row = .ok key) :
    key.saplingExtsk = none ∨ key.saplingExtsk = some [] := by
  unfold revealKey at hread
  obtain ⟨saplingExtsk, hsapling, hread⟩ := bind_eq_ok hread
  obtain ⟨saplingDfvk, -, hread⟩ := bind_eq_ok hread
  obtain ⟨orchardExtsk, -, hread⟩ := bind_eq_ok hread
  obtain ⟨orchardFvk, -, hread⟩ := bind_eq_ok hread
  obtain ⟨encryptedMnemonic, -, hread⟩ := bind_eq_ok hread
  obtain rfl := Except.ok.inj hread
  rcases reveal_column hrow hstored (by simp) hsapling with
    ⟨-, hnone⟩ | ⟨encrypted, value, -, hform, hvalue⟩
  · exact Or.inl hnone
  · exact reveal_of_stored_locked hform hvalue hlocked

end Shown

variable {material : KeyMaterial} {secret : WalletSecret} {birthdayHeight : Int}

variable {after : SigningDb} {result : Nat × Bool}

variable (hmaterial : material.Comparable)
  (hsecret : ∀ column ∈ [some secret.extsk, secret.orchardExtsk, secret.encryptedMnemonic],
    ∀ value ∈ column, db.Storable secret.accountId value)
  (hstored : db.SpendingStored cipher masterKey secret.accountId)
  (h : db.reconcilePrimarySeedAccountKey cipher masterKey sessions material secret
    birthdayHeight = .ok (result, after))

include h in
/-- A plan that is executed, with what is encrypted for it. -/
theorem executed_of_reconcile :
    ∃ keys plan, db.getAccountKeys cipher masterKey sessions secret.accountId = .ok keys ∧
      planReconcile material secret birthdayHeight keys = .ok plan ∧
      ((plan.updates = [] ∧ plan.newSeed = none ∧
          (result, after) = ((plan.primaryKeyId, db.stored.seedKeyScanReplay), db)) ∨
        ∃ updates newSeed, db.encryptUpdates cipher masterKey sessions plan.updates = .ok updates ∧
          plan.newSeed.mapM (db.encryptAccountKeyFields cipher masterKey sessions) = .ok newSeed ∧
          result.1 = (newSeed.map fun key =>
            ((db.writeUpdates updates).upsertAccountKey none key).1).getD plan.primaryKeyId ∧
          after.keys = ((newSeed.map fun key =>
            ((db.writeUpdates updates).upsertAccountKey none key).2).getD
              (db.writeUpdates updates)).keys ∧
          after.protection = db.protection ∧ result.2 = after.stored.seedKeyScanReplay) := by
  have hprotection : ∀ (updates : List (Nat × AccountKey)) (db : SigningDb),
      (db.writeUpdates updates).protection = db.protection ∧
        (db.writeUpdates updates).stored.seedKeyScanReplay = db.stored.seedKeyScanReplay := by
    intro updates
    induction updates with
    | nil => exact fun db => ⟨rfl, rfl⟩
    | cons update updates ih => exact fun db => ih _
  unfold SigningDb.reconcilePrimarySeedAccountKey at h
  obtain ⟨keys, hkeys, h⟩ := bind_eq_ok h
  obtain ⟨plan, hplan, h⟩ := bind_eq_ok h
  refine ⟨keys, plan, hkeys, hplan, ?_⟩
  by_cases hempty : (plan.updates.isEmpty && plan.newSeed.isNone) = true
  · rw [if_pos hempty] at h
    rw [Bool.and_eq_true, List.isEmpty_iff, Option.isNone_iff_eq_none] at hempty
    exact Or.inl ⟨hempty.1, hempty.2, (Except.ok.inj h).symm⟩
  · rw [if_neg hempty] at h
    obtain ⟨updates, hupdates, h⟩ := bind_eq_ok h
    obtain ⟨newSeed, hnewSeed, h⟩ := bind_eq_ok h
    refine Or.inr ⟨updates, newSeed, hupdates, hnewSeed, ?_⟩
    obtain ⟨hsame, hreplay⟩ := hprotection updates db
    cases newSeed with
    | none =>
      obtain ⟨rfl, rfl⟩ := Prod.mk.inj (Except.ok.inj h)
      exact ⟨rfl, rfl, hsame, by rw [← hreplay]⟩
    | some key =>
      obtain ⟨rfl, rfl⟩ := Prod.mk.inj (Except.ok.inj h)
      exact ⟨rfl, rfl, hsame, by rw [← hreplay]; rfl⟩

include hstored h in
/-- A locked account is not reconciled. -/
theorem open_of_reconcile : ¬ db.Locked sessions secret.accountId := by
  intro hlocked
  obtain ⟨keys, plan, hkeys, hplan, hexecuted⟩ := executed_of_reconcile h
  obtain ⟨dfvk, fvk, previous, hplanned⟩ := planned_of_ok hplan
  have hnone : keys.find? (secret.isCanonical material) = none := by
    rw [List.find?_eq_none]
    intro key hkey hcanonical
    obtain ⟨row, hrow, haccount, hread⟩ := stored_of_read hkeys hkey
    rw [← haccount] at hstored hlocked
    unfold WalletSecret.isCanonical at hcanonical
    simp only [Bool.and_eq_true, beq_iff_eq] at hcanonical
    rcases saplingExtsk_of_locked hrow hstored hlocked hread with hempty | hempty
    · rw [hempty] at hcanonical
      cases hcanonical.1.2
    · rw [hempty] at hcanonical
      exact hplanned.extsk (Option.some.inj hcanonical.1.2).symm
  obtain ⟨key, hnew, haccount, hspending⟩ := newSeed_of_plan hplan hnone
  rcases hexecuted with ⟨-, hno, -⟩ | ⟨updates, newSeed, -, hencrypted, -⟩
  · rw [hnew] at hno
    cases hno
  · rw [hnew, Option.mapM_some] at hencrypted
    obtain ⟨encrypted, hencrypted, -⟩ := bind_eq_ok hencrypted
    exact account_ne_of_encrypted hlocked hencrypted hspending haccount

/-- What is encrypted for a plan reads back. -/
theorem readsBack_of_plan {keys : List AccountKeyRow} {plan : SeedPlan}
    {updates : List (Nat × AccountKey)} (hmaterial : material.Comparable)
    (hmnemonic : ∀ value ∈ secret.encryptedMnemonic, db.Storable secret.accountId value)
    (hplan : planReconcile material secret birthdayHeight keys = .ok plan)
    (hkeys : ∀ key ∈ keys, key.accountId = secret.accountId ∧
      ∀ column ∈ [key.saplingExtsk, key.orchardExtsk], ∀ value ∈ column,
        db.Storable secret.accountId value)
    (hupdates : db.encryptUpdates cipher masterKey sessions plan.updates = .ok updates) :
    List.Forall₂ (ReadsBack cipher masterKey sessions secret.accountId) plan.updates updates := by
  obtain ⟨dfvk, fvk, previous, hplanned⟩ := planned_of_ok hplan
  have hcolumns : ∀ update ∈ plan.updates, update.2.accountId = secret.accountId ∧
      ∀ column ∈ [update.2.saplingExtsk, update.2.orchardExtsk, update.2.encryptedMnemonic],
        ∀ value ∈ column, db.Storable update.2.accountId value := by
    intro update hupdate
    obtain ⟨key, hkey, -, haccount, hsapling, horchard, hsecret⟩ :=
      hplanned.update_columns hmaterial hupdate
    obtain ⟨hkeyAccount, hstorable⟩ := hkeys key hkey
    rw [haccount, hkeyAccount, hsapling, horchard]
    refine ⟨rfl, List.forall_mem_cons.mpr ⟨hstorable _ List.mem_cons_self,
      List.forall_mem_cons.mpr ⟨hstorable _ (by simp), List.forall_mem_singleton.mpr ?_⟩⟩⟩
    rcases hsecret with hsecret | hsecret
    · rwa [hsecret]
    · rw [hsecret]
      exact nofun
  have hpairs := (List.forall₂_and_left _ _).mpr ⟨hcolumns, forall₂_of_mapM hupdates⟩
  refine hpairs.imp fun update encrypted hboth => ?_
  obtain ⟨⟨haccount, hstorable⟩, hencrypted⟩ := hboth
  obtain ⟨fields, hfields, hencrypted⟩ := bind_eq_ok hencrypted
  obtain rfl := Except.ok.inj hencrypted
  exact ⟨rfl, (revealKey_encrypted hstorable hfields 0).1.trans haccount,
    fun id => (revealKey_encrypted hstorable hfields id).2⟩

/-- Writing rows of the account leaves the rows of the others as they are. -/
theorem mem_writeUpdates_other {updates : List (Nat × AccountKey)} (hrow : row ∈ db.keys.rows)
    (hother : row.accountId ≠ accountId)
    (haccount : ∀ update ∈ updates, ∀ row ∈ db.keys.rows, row.id = update.1 →
      row.accountId = accountId) : row ∈ (db.writeUpdates updates).keys.rows :=
  mem_writeUpdates hrow fun update hupdate hid => hother (haccount update hupdate row hrow hid)

include hmaterial hsecret hstored h in
/-- **What is read after a call that succeeds** are the rows of its plan. -/
theorem rows_of_reconcile :
    ∃ keys plan nextId, db.getAccountKeys cipher masterKey sessions secret.accountId = .ok keys ∧
      planReconcile material secret birthdayHeight keys = .ok plan ∧
      after.getAccountKeys cipher masterKey sessions secret.accountId =
        .ok (plan.rows keys nextId) ∧
      (∀ row ∈ db.keys.rows, row.accountId = secret.accountId →
        ∃ key ∈ keys, key.id = row.id ∧ ShownKey db row key) ∧
      (∀ row ∈ db.keys.rows, row.accountId ≠ secret.accountId → row ∈ after.keys.rows) ∧
      result = (if plan.newSeed.isSome then nextId else plan.primaryKeyId,
        after.stored.seedKeyScanReplay) := by
  have hopen := open_of_reconcile hstored h
  obtain ⟨keys, plan, hkeys, hplan, hexecuted⟩ := executed_of_reconcile h
  obtain ⟨dfvk, fvk, previous, hplanned⟩ := planned_of_ok hplan
  have hshown : ∀ row ∈ db.keys.rows, row.accountId = secret.accountId →
      ∃ key ∈ keys, key.id = row.id ∧ ShownKey db row key := by
    intro row hrow haccount
    have hmem : row ∈ db.keys.ofAccount secret.accountId :=
      List.mem_filter.mpr ⟨hrow, beq_iff_eq.mpr haccount⟩
    obtain ⟨key, hkey, hread⟩ := partner_of_mem_left (forall₂_of_mapM hkeys) hmem
    rw [← haccount] at hstored hopen
    exact ⟨key, hkey, (revealKey_same hread).1, shown_of_read hrow hstored hopen hread⟩
  rcases hexecuted with
    ⟨hnone, hnew, hresult⟩ | ⟨updates, newSeed, hupdates, hnewSeed, hid, hwritten, -, hreplay⟩
  · obtain ⟨rfl, rfl⟩ := Prod.mk.inj hresult
    have hrows : plan.rows keys 0 = keys := by
      unfold SeedPlan.rows
      rw [hnone, hnew]
      exact (List.append_nil _).trans (List.map_id keys)
    refine ⟨keys, plan, 0, hkeys, hplan, by rw [hrows]; exact hkeys, hshown, fun row hrow _ => hrow,
      ?_⟩
    rw [hnew]
    rfl
  · have hkeyColumns : ∀ key ∈ keys, key.accountId = secret.accountId ∧
        ∀ column ∈ [key.saplingExtsk, key.orchardExtsk], ∀ value ∈ column,
          db.Storable secret.accountId value := by
      intro key hkey
      obtain ⟨row, hrow, haccount, hread⟩ := stored_of_read hkeys hkey
      rw [← haccount] at hstored hopen ⊢
      exact ⟨(revealKey_same hread).2.1, (shown_of_read hrow hstored hopen hread).storable⟩
    have hreads := readsBack_of_plan hmaterial (hsecret _ (by simp)) hplan hkeyColumns hupdates
    have hupdated : ∀ update ∈ plan.updates, ∀ row ∈ db.keys.rows, row.id = update.1 →
        row.accountId = secret.accountId := by
      intro update hupdate row hrow hid
      obtain ⟨key, hkey, hkeyId, -⟩ := hplanned.update_columns hmaterial hupdate
      obtain ⟨stored, hmem, haccount, hread⟩ := stored_of_read hkeys hkey
      rw [AutoTable.row_eq_of_id hrow hmem
        ((hid.trans hkeyId).trans (revealKey_same hread).1), haccount]
    have hupdatesRead := getAccountKeys_writeUpdates hkeys hreads hupdated
    have hothers : ∀ row ∈ db.keys.rows, row.accountId ≠ secret.accountId →
        row ∈ (db.writeUpdates updates).keys.rows := by
      intro row hrow hother
      refine mem_writeUpdates_other hrow hother fun update hupdate => ?_
      obtain ⟨planned, hplanned, hback⟩ := partner_of_mem_right hreads hupdate
      rw [hback.id]
      exact hupdated planned hplanned
    refine ⟨keys, plan, (db.writeUpdates updates).keys.nextId, hkeys, hplan, ?_, hshown, ?_,
      Prod.ext ?_ hreplay⟩
    · unfold SigningDb.getAccountKeys
      rw [hwritten]
      cases hnew : plan.newSeed with
      | none =>
        rw [hnew] at hnewSeed
        obtain rfl := Except.ok.inj hnewSeed
        unfold SeedPlan.rows
        rw [hnew]
        exact hupdatesRead.trans (congrArg Except.ok (List.append_nil _).symm)
      | some key =>
        rw [hnew, Option.mapM_some] at hnewSeed
        obtain ⟨encrypted, hencrypted, hnewSeed⟩ := bind_eq_ok hnewSeed
        obtain rfl := Except.ok.inj hnewSeed
        obtain ⟨haccount, hcolumns⟩ := hplanned.newSeed_columns hnew
        rw [← hcolumns] at hsecret
        rw [← haccount] at hsecret hupdatesRead ⊢
        have hback : ReadsBack cipher masterKey sessions key.accountId (0, key) (0, encrypted) :=
          ⟨rfl, (revealKey_encrypted hsecret hencrypted 0).1,
            fun id => (revealKey_encrypted hsecret hencrypted id).2⟩
        unfold SeedPlan.rows
        rw [hnew]
        exact getAccountKeys_insert hupdatesRead hback
    · intro row hrow hother
      rw [hwritten]
      cases newSeed with
      | none => exact hothers row hrow hother
      | some key => exact List.mem_append_left _ (hothers row hrow hother)
    · rw [hid]
      cases hnew : plan.newSeed with
      | none =>
        rw [hnew] at hnewSeed
        obtain rfl := Except.ok.inj hnewSeed
        rfl
      | some key =>
        rw [hnew, Option.mapM_some] at hnewSeed
        obtain ⟨encrypted, -, hnewSeed⟩ := bind_eq_ok hnewSeed
        obtain rfl := Except.ok.inj hnewSeed
        rfl

/-- The ids of the rows that are read are those of the rows that are stored. -/
theorem ids_of_read {keys : List AccountKeyRow}
    (h : db.getAccountKeys cipher masterKey sessions accountId = .ok keys) :
    (keys.map (·.id)).Nodup := by
  have hids : keys.map (·.id) = (db.keys.ofAccount accountId).map (·.id) := by
    have hpairs := forall₂_of_mapM h
    clear h
    generalize db.keys.ofAccount accountId = rows at hpairs
    induction hpairs with
    | nil => rfl
    | cons hread _ ih =>
      rw [List.map_cons, List.map_cons, (revealKey_same hread).1]
      exact congrArg _ ih
  rw [hids]
  exact db.keys.ids_nodup.sublist (List.filter_sublist.map _)

/-- What a reconciliation that succeeds leaves of the tables: one seed row, every row of the account
with its spending keys, and nothing for a second call to do. -/
structure Reconciled (cipher : BlobCipher K) (masterKey : K) (sessions : Sessions K)
    (material : KeyMaterial) (db : SigningDb) (secret : WalletSecret) (birthdayHeight : Int)
    (id : Nat) (replay : Bool) (after : SigningDb) : Prop where
  /-- There is one seed row, with the keys of the secret. -/
  seed : ∃ keys seed,
    after.getAccountKeys cipher masterKey sessions secret.accountId = .ok keys ∧
    keys.filter (·.isSeed) = [seed] ∧ seed.id = id ∧ seed.spendable = true ∧
    seed.saplingExtsk = some secret.extsk ∧
    material.spendingMatches seed.orchardExtsk secret.orchardExtsk = true ∧
    seed.birthdayHeight ≤ birthdayHeight
  /-- Every row of the account has been read as it is stored, and is read again with its spending
  keys. -/
  kept : ∃ before keys,
    db.getAccountKeys cipher masterKey sessions secret.accountId = .ok before ∧
    after.getAccountKeys cipher masterKey sessions secret.accountId = .ok keys ∧
    ∀ row ∈ db.keys.rows, row.accountId = secret.accountId →
      ∃ key ∈ before, key.id = row.id ∧ ShownKey db row key ∧ ∃ key' ∈ keys, Moved key key'
  others : ∀ row ∈ db.keys.rows, row.accountId ≠ secret.accountId → row ∈ after.keys.rows
  replay : replay = after.stored.seedKeyScanReplay
  /-- A second call finds nothing to write. -/
  again : after.reconcilePrimarySeedAccountKey cipher masterKey sessions material secret
    birthdayHeight = .ok ((id, after.stored.seedKeyScanReplay), after)

include hmaterial hsecret hstored in
theorem reconciled_of_ok {id : Nat} {replay : Bool}
    (h : db.reconcilePrimarySeedAccountKey cipher masterKey sessions material secret
      birthdayHeight = .ok ((id, replay), after)) :
    Reconciled cipher masterKey sessions material db secret birthdayHeight id replay after := by
  obtain ⟨keys, plan, nextId, hkeys, hplan, hafter, hshown, hothers, hresult⟩ :=
    rows_of_reconcile hmaterial hsecret hstored h
  obtain ⟨hid, hreplay⟩ := Prod.mk.inj hresult
  obtain ⟨dfvk, fvk, previous, hplanned⟩ := planned_of_ok hplan
  have hnodup := ids_of_read hkeys
  have hids : ∀ a ∈ keys, ∀ b ∈ keys, a.id = b.id → a = b := fun a ha b hb hsame =>
    List.inj_on_of_nodup_map hnodup ha hb hsame
  obtain ⟨seed, hfind, hone, hsettled, hplace⟩ := hplanned.one_seed hmaterial hnodup nextId
  have hseedId : seed.id = id := by
    rcases hplace with ⟨hnone, hprimary⟩ | ⟨hnew, hnext⟩
    · rw [hid, hnone, hprimary]
      rfl
    · rw [hid, if_pos hnew, hnext]
  refine ⟨⟨_, seed, hafter, hone, hseedId, hsettled.spendable, hsettled.saplingExtsk,
    hsettled.orchardExtsk, hsettled.birthday⟩, ⟨keys, _, hkeys, hafter, ?_⟩, hothers, hreplay, ?_⟩
  · intro row hrow haccount
    obtain ⟨key, hkey, hrowId, hrowShown⟩ := hshown row hrow haccount
    refine ⟨key, hkey, hrowId, hrowShown, _, ?_, hplanned.moves hmaterial hids hkey⟩
    exact List.mem_append_left _ (List.mem_map.mpr ⟨key, hkey, rfl⟩)
  · obtain ⟨second, hsecond, hupdates, hnew, hprimary⟩ := planReconcile_settled hplanned.extsk
      hplanned.saplingDerived hplanned.ironwoodDerived hfind hone hsettled
    unfold SigningDb.reconcilePrimarySeedAccountKey
    simp only [hafter, hsecond, bind, Except.bind]
    rw [if_pos (by rw [hupdates, hnew]; rfl), hprimary, hseedId]
    rfl

/-- **A reconciliation keeps every spending key.** On a connection with no transaction open, with
the account's spending columns as its protection stores them: a call that fails changes nothing; a
call that succeeds leaves one seed row, with the keys of the secret, and every other row with its
spending keys; and a call after it that succeeds returns the same row, and whether the replay marker
is set, and changes nothing. -/
theorem reconcile_keeps_spending_keys {K : Type} (cipher : BlobCipher K) (masterKey : K)
    (sessions : Sessions K) (material : KeyMaterial) (hmaterial : material.Comparable)
    (db : SigningDb) (secret : WalletSecret) (birthdayHeight : Int)
    (hsecret : ∀ column ∈ [some secret.extsk, secret.orchardExtsk, secret.encryptedMnemonic],
      ∀ value ∈ column, db.Storable secret.accountId value)
    (hstored : db.SpendingStored cipher masterKey secret.accountId)
    (refused : Nat → Option Transactions.Refusal) (clock : Nat) :
    (∀ failure,
      (reconcileSeedCall cipher masterKey sessions material secret birthdayHeight refused
        ⟨db, none, clock⟩).1 = .error failure →
      (reconcileSeedCall cipher masterKey sessions material secret birthdayHeight refused
        ⟨db, none, clock⟩).2.begun = none ∧
      (reconcileSeedCall cipher masterKey sessions material secret birthdayHeight refused
        ⟨db, none, clock⟩).2.tables = db) ∧
    ∀ id replay after,
      (reconcileSeedCall cipher masterKey sessions material secret birthdayHeight refused
        ⟨db, none, clock⟩).1 = .ok (id, replay) →
      (reconcileSeedCall cipher masterKey sessions material secret birthdayHeight refused
        ⟨db, none, clock⟩).2.tables = after →
      (reconcileSeedCall cipher masterKey sessions material secret birthdayHeight refused
        ⟨db, none, clock⟩).2.begun = none ∧
      Reconciled cipher masterKey sessions material db secret birthdayHeight id replay after ∧
      ∀ (later : Nat → Option Transactions.Refusal) (now : Nat) (result : Nat × Bool),
        (reconcileSeedCall cipher masterKey sessions material secret birthdayHeight later
          ⟨after, none, now⟩).1 = .ok result →
        result = (id, after.stored.seedKeyScanReplay) ∧
        (reconcileSeedCall cipher masterKey sessions material secret birthdayHeight later
          ⟨after, none, now⟩).2.tables = after := by
  refine ⟨fun failure h => reconcileSeedCall_error h, ?_⟩
  rintro id replay after h rfl
  obtain ⟨hbegun, hpure⟩ := reconcileSeedCall_ok h
  have hreconciled := reconciled_of_ok hmaterial hsecret hstored hpure
  refine ⟨hbegun, hreconciled, fun later now result hagain => ?_⟩
  obtain ⟨-, hpureAgain⟩ := reconcileSeedCall_ok hagain
  have hsame := Except.ok.inj (hreconciled.again.symm.trans hpureAgain)
  exact ⟨(Prod.mk.inj hsame).1.symm, (Prod.mk.inj hsame).2.symm⟩

end Stored

/-- A wallet's secret of another seed than its stored key. -/
def otherSeedSecret : WalletSecret where
  walletId := "w"
  accountId := 1
  extsk := [43]
  dfvk := none
  orchardExtsk := none
  saplingIvk := none
  orchardIvk := none
  encryptedMnemonic := none
  mnemonicLanguage := none
  createdAt := 1

/-- The stored seed key becomes an imported key, beside the key of the secret. -/
theorem reconcile_keeps_older_seed :
    ∃ after, Reconciled prefixCipher 7 (fun _ => none) plainMaterial unprotectedWallet
        otherSeedSecret 50 3 true after ∧
      (reconcileSeedCall prefixCipher 7 (fun _ => none) plainMaterial otherSeedSecret 50
        (fun _ => none) ⟨unprotectedWallet, none, 0⟩).2.tables = after := by
  have hmaterial : plainMaterial.Comparable := fun _ _ _ => ⟨rfl, rfl⟩
  have hsecret : ∀ column ∈ [some otherSeedSecret.extsk, otherSeedSecret.orchardExtsk,
      otherSeedSecret.encryptedMnemonic], ∀ value ∈ column,
      unprotectedWallet.Storable otherSeedSecret.accountId value := by
    intro column hcolumn value hvalue _
    have hall : ∀ column ∈ [some otherSeedSecret.extsk, otherSeedSecret.orchardExtsk,
        otherSeedSecret.encryptedMnemonic],
        column.all (fun value => !ENVELOPE_MAGIC.isPrefixOf value) = true := by decide
    have hnot := hall column hcolumn
    rw [Option.mem_def.mp hvalue, Option.all_some, Bool.not_eq_true'] at hnot
    exact hnot
  have hstored : unprotectedWallet.SpendingStored prefixCipher 7 otherSeedSecret.accountId := by
    intro row hrow _ column hcolumn encrypted hencrypted value hvalue
    have hall : ∀ row ∈ unprotectedWallet.keys.rows,
        ∀ column ∈ [row.saplingExtsk, row.orchardExtsk, row.encryptedMnemonic],
          column = none ∨ column = some [7, 42] := by decide +kernel
    rcases hall row hrow column hcolumn with rfl | rfl
    · cases hencrypted
    · obtain rfl := Option.some.inj hencrypted
      obtain rfl := Option.some.inj hvalue
      rfl
  exact ⟨_, ((reconcile_keeps_spending_keys prefixCipher 7 (fun _ => none) plainMaterial hmaterial
    unprotectedWallet otherSeedSecret 50 hsecret hstored (fun _ => none) 0).2 3 true _ rfl rfl).2.1,
    rfl⟩

end StashiWallet
