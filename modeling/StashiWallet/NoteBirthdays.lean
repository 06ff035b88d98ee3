import StashiWallet.ProtectedKeys

/-!
# Birthdays recovered from notes

`ensure_note_birthday_recovery_migration`: a confirmed note shows that the history of its key
starts no later than the note. Birthdays above a note of theirs are lowered to it, once for each
account; if a note lay below one of the floors the wallet had, the spendability row is latched in
the same transaction.

The account, the height and the owner of a note are encrypted, each in a column of its own; the
owner is the key the note names, whatever its address says. The birthdays are kept in a hash map,
whose entries come in any order (`IterationOrder`).
-/

namespace StashiWallet

open Transactions

/-- The columns of `notes` the migration reads. -/
structure StoredNoteOwner where
  accountId : Bytes
  height : Bytes
  keyId : Option Bytes
deriving DecidableEq, Repr

/-- The tables the migration reads and writes. -/
structure BirthdayDb where
  keys : AccountKeys
  notes : List StoredNoteOwner
  spendabilityState : Option SpendabilityStateRow
  migrationState : List String

/-- A height at which a note was mined, and the key the note names. -/
structure MinedNote where
  height : Int
  owner : Option Int
deriving DecidableEq, Repr

/-- The order in which the entries of a hash map come. -/
structure IterationOrder (α : Type) where
  order : List α → List α
  perm : ∀ entries, (order entries).Perm entries

/-- Birthdays by key id. -/
abbrev Birthdays : Type := List (Nat × Int)

def Birthdays.contains (birthdays : Birthdays) (owner : Int) : Bool :=
  birthdays.any (fun entry => (entry.1 : Int) == owner)

/-- `previous_floor`. -/
def Birthdays.floor (birthdays : Birthdays) : Int :=
  ((birthdays.map (·.2)).filter (fun height => decide (0 < height))).min?.getD 0

/-- `repaired_from.map_or(height, |from| from.min(height))`. -/
def lowest (repairedFrom : Option Int) (height : Int) : Option Int :=
  some (repairedFrom.elim height (fun start => min start height))

/-- The owner of a note in the map; nobody where the note names no key, or none of the map. -/
def Birthdays.owner (birthdays : Birthdays) (note : MinedNote) : Option Int :=
  note.owner.filter (fun id => birthdays.contains id)

/-- A note lowers the birthday of its owner, or all of them. -/
def Birthdays.lower (birthdays : Birthdays) (note : MinedNote) : Birthdays :=
  match birthdays.owner note with
  | some id => birthdays.map fun entry =>
      if (entry.1 : Int) == id then (entry.1, min entry.2 note.height) else entry
  | none => birthdays.map fun entry => (entry.1, min entry.2 note.height)

/-- What the loop over the notes keeps. -/
structure Recovery where
  birthdays : Birthdays
  repairedFrom : Option Int

/-- The body of the loop: the birthdays that a note lowers, and the lowest note that is mined below
the floor as it was. Notes of other accounts, and those not mined, are passed over. -/
def Recovery.note (previousFloor : Int) (state : Recovery) : Option MinedNote → Recovery
  | none => state
  | some note =>
    { birthdays := state.birthdays.lower note
      repairedFrom :=
        if note.height < previousFloor then lowest state.repairedFrom note.height
        else state.repairedFrom }

/-- The `UPDATE` that latches the recovery. -/
def SpendabilityStateRow.latchRecovery (now : String) (start : Int) (row : SpendabilityStateRow) :
    SpendabilityStateRow :=
  { row with
    spendable := false
    repairQueued := true
    repairFromHeight :=
      if 0 < row.repairFromHeight ∧ (row.repairFromHeight : Int) < start then row.repairFromHeight
      else start.toNat
    reasonCode :=
      if row.rescanRequired = true ∨ 0 < row.requiredRescanFromHeight then row.reasonCode
      else "ERR_WITNESS_REPAIR_QUEUED"
    updatedAt := now }

/-- The key of the marker. -/
def recoveryMarker (accountId : Int) : String := s!"note_birthday_recovery_v1:{accountId}"

section Migration

variable {K : Type} (cipher : BlobCipher K) (masterKey : K) (order : IterationOrder (Nat × Int))
  (now : String) (accountId : Int)

def decryptOptionalInt64 : Option Bytes → Except KeyError (Option Int)
  | none => .ok none
  | some encrypted => (decryptInt64 cipher masterKey encrypted).map some

/-- A note of the account that was mined. -/
def StoredNoteOwner.mined (note : StoredNoteOwner) : Except KeyError (Option MinedNote) := do
  let noteAccount ← decryptInt64 cipher masterKey note.accountId
  if noteAccount ≠ accountId then return none
  else
    let height ← decryptInt64 cipher masterKey note.height
    if height ≤ 0 then return none
    else
      let owner ← decryptOptionalInt64 cipher masterKey note.keyId
      return some ⟨height, owner⟩

/-- The loop over the notes. -/
def recoverNotes (previousFloor : Int) :
    Recovery → List StoredNoteOwner → Except KeyError Recovery
  | state, [] => .ok state
  | state, note :: rest =>
    match note.mined cipher masterKey accountId with
    | .error e => .error e
    | .ok mined => recoverNotes previousFloor (state.note previousFloor mined) rest

namespace BirthdayDb

variable (db : BirthdayDb)

def applied : Bool := db.migrationState.contains (recoveryMarker accountId)

/-- The birthdays of the account's keys. -/
def birthdays : Birthdays :=
  (db.keys.ofAccount accountId).map fun row => (row.id, row.birthdayHeight)

/-- `UPDATE account_keys SET birthday_height`. -/
def setBirthday (entry : Nat × Int) : BirthdayDb :=
  { db with
    keys := AutoTable.updateWhere (fun row => row.id == entry.1)
      (fun row => { row with birthdayHeight := entry.2 }) (fun _ => rfl) db.keys }

/-- The entries of the map that are not as they were read. -/
def changedBirthdays (original : Birthdays) (birthdays : Birthdays) : Birthdays :=
  (order.order birthdays).filter fun entry => original.lookup entry.1 != some entry.2

/-- The `UPDATE` of the spendability row. -/
def latchRecovery (start : Int) : BirthdayDb :=
  { db with spendabilityState := db.spendabilityState.map (·.latchRecovery now start) }

/-- The `INSERT` of the marker. -/
def markRecovered : BirthdayDb :=
  { db with migrationState := db.migrationState ++ [recoveryMarker accountId] }

/-- The row is latched, which fails if there is none. -/
def latchSteps : Option Int → List (Step BirthdayDb KeyError)
  | none => []
  | some start =>
    [.statement fun tables => tables.latchRecovery now start,
      .value (if db.spendabilityState.isSome then none
        else some (.storage (.storage "Spendability state row is unavailable")))]

/-- `repaired_from` once the keys are written. -/
def repairedFrom (original : Birthdays) (recovery : Recovery) : Option Int :=
  (changedBirthdays order original recovery.birthdays).foldl
    (fun repairedFrom entry => lowest repairedFrom entry.2) recovery.repairedFrom

/-- What is written once the notes are read. -/
def recoveryWrites (original : Birthdays) (recovery : Recovery) :
    List (Step BirthdayDb KeyError) :=
  (changedBirthdays order original recovery.birthdays).map
      (fun entry => .statement fun tables => tables.setBirthday entry) ++
    db.latchSteps now (repairedFrom order original recovery) ++
    [.statement fun tables => tables.markRecovered accountId]

/-- What the loop over the notes ends with. -/
def recovered : Except KeyError Recovery :=
  recoverNotes cipher masterKey accountId (db.birthdays accountId).floor
    ⟨db.birthdays accountId, none⟩ db.notes

/-- The transaction: the marker, the keys and the notes are read, then it is written. -/
def recoverySteps : List (Step BirthdayDb KeyError) :=
  [.statement id, .statement id, .statement id] ++
    match db.recovered cipher masterKey accountId with
    | .error e => [.value (some e)]
    | .ok recovery => db.recoveryWrites order now accountId (db.birthdays accountId) recovery

end BirthdayDb

/-- `ensure_note_birthday_recovery_migration`. For an account without keys the transaction is
dropped after two reads, with nothing to roll back. -/
def birthdayRecoveryProgram : Program BirthdayDb KeyError :=
  .select fun db =>
    if db.applied accountId then .finish
    else if (db.birthdays accountId).isEmpty then
      .select fun _ => .select fun _ => .select fun _ => .finish
    else .transaction ⟨BirthdayDb.recoverySteps cipher masterKey order now accountId, ⟨true, true⟩⟩
      (fun _ => .finish)

/-- The call on a connection. -/
def ensureNoteBirthdayRecoveryMigration (refused : Nat → Option Refusal)
    (conn : Conn BirthdayDb) : Option (Failure KeyError) × Conn BirthdayDb :=
  let outcome := (birthdayRecoveryProgram cipher masterKey order now accountId).run refused conn
  (outcome.error, outcome.conn)

end Migration

end StashiWallet
