import StashiWallet.ProtectedKeyRuns

/-!
# Reconciling the seed key

`reconcile_primary_seed_account_key` on a connection: with no transaction open it begins one, and
every failure, that of the `COMMIT` included, is answered by `ROLLBACK`. What it writes reads back
as what was planned, as long as the spending columns of the account are stored in the form the
account's protection gives them (`SpendingStored`).
-/

namespace StashiWallet

open Transactions

section Reconcile

variable {K : Type} (cipher : BlobCipher K) (masterKey : K) (sessions : Sessions K)
  (material : KeyMaterial)

namespace SigningDb

variable (db : SigningDb)

/-- The statements that write a plan: the rows read and changed, the row of the seed, the replay
marker. -/
def planWrites (updates : List (Nat × AccountKey)) (newSeed : Option AccountKey)
    (scanKeysChanged : Bool) : List (SigningDb → SigningDb) :=
  updates.map (fun update db => (db.upsertAccountKey (some update.1) update.2).2) ++
    newSeed.toList.map (fun key db => (db.upsertAccountKey none key).2) ++
    (if scanKeysChanged then [fun db =>
      { db with stored := { db.stored with seedKeyScanReplay := true } }] else [])

/-- What is executed once the keys are read and everything is encrypted. -/
def reconcileWrites (secret : WalletSecret) (birthdayHeight : Int) :
    Except KeyError (List (SigningDb → SigningDb)) := do
  let keys ← db.getAccountKeys cipher masterKey sessions secret.accountId
  let plan ← planReconcile material secret birthdayHeight keys
  if plan.updates.isEmpty && plan.newSeed.isNone then return []
  else
    let updates ← db.encryptUpdates cipher masterKey sessions plan.updates
    let newSeed ← plan.newSeed.mapM (db.encryptAccountKeyFields cipher masterKey sessions)
    return planWrites updates newSeed plan.scanKeysChanged

end SigningDb

/-- The transaction: the keys and the marker are read before anything is written. -/
def reconcileSeedSteps (secret : WalletSecret) (birthdayHeight : Int) (db : SigningDb) :
    List (Step SigningDb KeyError) :=
  match db.reconcileWrites cipher masterKey sessions material secret birthdayHeight with
  | .error e => [.statement id, .value (some e)]
  | .ok writes => (id :: id :: writes).map .statement

/-- `reconcile_primary_seed_account_key` in its own transaction. -/
def reconcileSeedProgram (secret : WalletSecret) (birthdayHeight : Int) :
    Program SigningDb KeyError :=
  .transaction
    ⟨reconcileSeedSteps cipher masterKey sessions material secret birthdayHeight, ⟨true, true⟩⟩
    (fun _ => .finish)

/-- What the call returns: the failure of its transaction, if there is one, and otherwise what the
body came to. -/
def seedResult : Option (Failure KeyError) → Except KeyError ((Nat × Bool) × SigningDb) →
    Except (Failure KeyError) (Nat × Bool)
  | some failure, _ => .error failure
  | none, .ok (result, _) => .ok result
  | none, .error e => .error (.value e)

/-- The call on a connection: the id of the seed row and whether a replay is required, or the
error, and the connection. -/
def reconcileSeedCall (secret : WalletSecret) (birthdayHeight : Int)
    (refused : Nat → Option Refusal) (conn : Conn SigningDb) :
    Except (Failure KeyError) (Nat × Bool) × Conn SigningDb :=
  let outcome := (reconcileSeedProgram cipher masterKey sessions material secret
    birthdayHeight).run refused conn
  (seedResult outcome.error (conn.tables.reconcilePrimarySeedAccountKey cipher masterKey sessions
    material secret birthdayHeight), outcome.conn)

variable {cipher masterKey sessions material} {db : SigningDb} {secret : WalletSecret}
  {birthdayHeight : Int}

/-! ## The statements -/

theorem foldl_updates (updates : List (Nat × AccountKey)) (db : SigningDb) :
    (updates.map (fun update (db : SigningDb) =>
        (db.upsertAccountKey (some update.1) update.2).2)).foldl
        (fun db write => write db) db = db.writeUpdates updates := by
  induction updates generalizing db with
  | nil => rfl
  | cons update rest ih => exact ih _

/-- Marking a replay that is not required changes nothing, one that is required sets the marker. -/
theorem foldl_planWrites (updates : List (Nat × AccountKey)) (newSeed : Option AccountKey)
    (scanKeysChanged : Bool) (written : SigningDb)
    (hwritten : written = match newSeed with
      | some key => ((db.writeUpdates updates).upsertAccountKey none key).2
      | none => db.writeUpdates updates) :
    (SigningDb.planWrites updates newSeed scanKeysChanged).foldl (fun db write => write db) db =
      { written with stored := { written.stored with
        seedKeyScanReplay := written.stored.seedKeyScanReplay || scanKeysChanged } } := by
  unfold SigningDb.planWrites
  rw [List.foldl_append, List.foldl_append, foldl_updates, hwritten]
  cases newSeed <;> cases scanKeysChanged <;> simp

/-- A call that succeeds has executed the statements of its plan. -/
theorem writes_of_reconcile {result : Nat × Bool} {after : SigningDb}
    (h : db.reconcilePrimarySeedAccountKey cipher masterKey sessions material secret
      birthdayHeight = .ok (result, after)) :
    ∃ writes, db.reconcileWrites cipher masterKey sessions material secret birthdayHeight =
      .ok writes ∧ writes.foldl (fun db write => write db) db = after := by
  unfold SigningDb.reconcilePrimarySeedAccountKey at h
  unfold SigningDb.reconcileWrites
  obtain ⟨keys, hkeys, h⟩ := bind_eq_ok h
  obtain ⟨plan, hplan, h⟩ := bind_eq_ok h
  simp only [hkeys, hplan, bind, Except.bind]
  by_cases hempty : (plan.updates.isEmpty && plan.newSeed.isNone) = true
  · rw [if_pos hempty] at h
    obtain ⟨-, rfl⟩ := Prod.mk.inj (Except.ok.inj h)
    rw [if_pos hempty]
    exact ⟨[], rfl, rfl⟩
  · rw [if_neg hempty] at h
    obtain ⟨updates, hupdates, h⟩ := bind_eq_ok h
    obtain ⟨newSeed, hnewSeed, h⟩ := bind_eq_ok h
    rw [if_neg hempty]
    simp only [hupdates, hnewSeed]
    refine ⟨_, rfl, ?_⟩
    rw [foldl_planWrites updates newSeed plan.scanKeysChanged _ rfl]
    cases newSeed with
    | none => exact (Prod.mk.inj (Except.ok.inj h)).2
    | some key => exact (Prod.mk.inj (Except.ok.inj h)).2

/-- A call with a plan to execute succeeds if nothing is refused. -/
theorem reconcile_of_writes {writes : List (SigningDb → SigningDb)}
    (h : db.reconcileWrites cipher masterKey sessions material secret birthdayHeight =
      .ok writes) :
    ∃ result after, db.reconcilePrimarySeedAccountKey cipher masterKey sessions material secret
      birthdayHeight = .ok (result, after) := by
  unfold SigningDb.reconcileWrites at h
  unfold SigningDb.reconcilePrimarySeedAccountKey
  obtain ⟨keys, hkeys, h⟩ := bind_eq_ok h
  obtain ⟨plan, hplan, h⟩ := bind_eq_ok h
  simp only [hkeys, hplan, bind, Except.bind]
  by_cases hempty : (plan.updates.isEmpty && plan.newSeed.isNone) = true
  · rw [if_pos hempty]
    exact ⟨_, _, rfl⟩
  · rw [if_neg hempty] at h
    obtain ⟨updates, hupdates, h⟩ := bind_eq_ok h
    obtain ⟨newSeed, hnewSeed, h⟩ := bind_eq_ok h
    rw [if_neg hempty]
    simp only [hupdates, hnewSeed]
    cases newSeed with
    | none => exact ⟨_, _, rfl⟩
    | some key => exact ⟨_, _, rfl⟩

/-! ## The call on a connection -/

section Call

variable {refused : Nat → Option Refusal} {clock : Nat}

theorem reconcileSeedProgram_clean :
    ((reconcileSeedProgram cipher masterKey sessions material secret birthdayHeight).run refused
      ⟨db, none, clock⟩).Clean := by
  have hfollows : (reconcileSeedProgram cipher masterKey sessions material secret
      birthdayHeight).Follows ⟨true, true⟩ := ⟨rfl, fun _ => trivial⟩
  refine (clean_iff_answered hfollows rfl).mpr ?_
  intro failure _
  cases failure <;> rfl

/-- What the transaction of a call leaves. -/
theorem run_reconcileSeedProgram :
    ((reconcileSeedProgram cipher masterKey sessions material secret birthdayHeight).run refused
        ⟨db, none, clock⟩).error =
      (runTransaction refused ⟨reconcileSeedSteps cipher masterKey sessions material secret
        birthdayHeight, ⟨true, true⟩⟩ ⟨db, none, clock⟩).1 ∧
    ((reconcileSeedProgram cipher masterKey sessions material secret birthdayHeight).run refused
        ⟨db, none, clock⟩).conn =
      (runTransaction refused ⟨reconcileSeedSteps cipher masterKey sessions material secret
        birthdayHeight, ⟨true, true⟩⟩ ⟨db, none, clock⟩).2 ∧
    (((reconcileSeedProgram cipher masterKey sessions material secret birthdayHeight).run refused
        ⟨db, none, clock⟩).error.isSome = true →
      ((reconcileSeedProgram cipher masterKey sessions material secret birthdayHeight).run refused
        ⟨db, none, clock⟩).began = db) := by
  unfold reconcileSeedProgram Program.run
  cases runTransaction refused ⟨reconcileSeedSteps cipher masterKey sessions material secret
      birthdayHeight, ⟨true, true⟩⟩ ⟨db, none, clock⟩ with
  | mk error after =>
    cases error with
    | none => exact ⟨rfl, rfl, fun h => absurd h Bool.false_ne_true⟩
    | some failure => exact ⟨rfl, rfl, fun _ => rfl⟩

/-- A transaction that succeeds has executed the statements of the plan. -/
theorem run_of_no_error
    (h : ((reconcileSeedProgram cipher masterKey sessions material secret birthdayHeight).run
      refused ⟨db, none, clock⟩).error = none) :
    ∃ result after, db.reconcilePrimarySeedAccountKey cipher masterKey sessions material secret
        birthdayHeight = .ok (result, after) ∧
      ((reconcileSeedProgram cipher masterKey sessions material secret birthdayHeight).run refused
        ⟨db, none, clock⟩).conn.begun = none ∧
      ((reconcileSeedProgram cipher masterKey sessions material secret birthdayHeight).run refused
        ⟨db, none, clock⟩).conn.tables = after := by
  obtain ⟨herror, hconn, -⟩ := @run_reconcileSeedProgram K cipher masterKey sessions material
    db secret birthdayHeight refused clock
  rw [h] at herror
  rw [hconn]
  unfold runTransaction at herror ⊢
  by_cases hbegin : ((refused clock).isSome || (none : Option SigningDb).isSome) = true
  · rw [if_pos hbegin] at herror
    cases herror
  · rw [if_neg hbegin] at herror ⊢
    unfold reconcileSeedSteps at herror ⊢
    cases hwrites : db.reconcileWrites cipher masterKey sessions material secret
        birthdayHeight with
    | error e =>
      simp only [hwrites, runSteps] at herror
      split at herror
      · cases herror
      · cases herror
    | ok writes =>
      simp only [hwrites] at herror ⊢
      have hunrefused := undisturbed_of_runSteps herror.symm
      rw [runSteps_statements hunrefused]
      obtain ⟨result, after, hreconcile⟩ := reconcile_of_writes hwrites
      obtain ⟨writes', hwrites', hafter⟩ := writes_of_reconcile hreconcile
      obtain rfl : writes = writes' := Except.ok.inj (hwrites.symm.trans hwrites')
      exact ⟨result, after, hreconcile, rfl, hafter⟩

/-- **A call that fails changes nothing**, and leaves no transaction open. -/
theorem reconcileSeedCall_error {failure : Failure KeyError}
    (h : (reconcileSeedCall cipher masterKey sessions material secret birthdayHeight refused
      ⟨db, none, clock⟩).1 = .error failure) :
    (reconcileSeedCall cipher masterKey sessions material secret birthdayHeight refused
        ⟨db, none, clock⟩).2.begun = none ∧
      (reconcileSeedCall cipher masterKey sessions material secret birthdayHeight refused
        ⟨db, none, clock⟩).2.tables = db := by
  have hsome : ((reconcileSeedProgram cipher masterKey sessions material secret
      birthdayHeight).run refused ⟨db, none, clock⟩).error.isSome = true := by
    cases herror : ((reconcileSeedProgram cipher masterKey sessions material secret
        birthdayHeight).run refused ⟨db, none, clock⟩).error with
    | some failure => rfl
    | none =>
      obtain ⟨result, after, hreconcile, -⟩ := run_of_no_error herror
      unfold reconcileSeedCall at h
      simp only [herror, hreconcile, seedResult] at h
      cases h
  obtain ⟨hbegun, htables⟩ := reconcileSeedProgram_clean hsome
  exact ⟨hbegun, htables.trans (run_reconcileSeedProgram.2.2 hsome)⟩

/-- A call that succeeds leaves what it returns with, committed. -/
theorem reconcileSeedCall_ok {result : Nat × Bool}
    (h : (reconcileSeedCall cipher masterKey sessions material secret birthdayHeight refused
      ⟨db, none, clock⟩).1 = .ok result) :
    (reconcileSeedCall cipher masterKey sessions material secret birthdayHeight refused
        ⟨db, none, clock⟩).2.begun = none ∧
      db.reconcilePrimarySeedAccountKey cipher masterKey sessions material secret birthdayHeight =
        .ok (result, (reconcileSeedCall cipher masterKey sessions material secret birthdayHeight
          refused ⟨db, none, clock⟩).2.tables) := by
  unfold reconcileSeedCall at h ⊢
  cases herror : ((reconcileSeedProgram cipher masterKey sessions material secret
      birthdayHeight).run refused ⟨db, none, clock⟩).error with
  | some failure =>
    simp only [herror, seedResult] at h
    cases h
  | none =>
    obtain ⟨result', after, hreconcile, hbegun, htables⟩ := run_of_no_error herror
    simp only [herror, hreconcile, seedResult] at h
    obtain rfl := Except.ok.inj h
    dsimp only
    rw [htables]
    exact ⟨hbegun, hreconcile⟩

end Call

end Reconcile

end StashiWallet
