import StashiWallet.WalletScans
import StashiWallet.WitnessRepair

/-!
# The anchor, jointly and pool by pool

The spendability gate takes one anchor for both pools, a payment takes one for each of them. Both
are derived from the scanned heights, the birthday of the account's keys and the checkpoints of the
two trees, and each derivation answers a pool without a checkpoint in its own place. The two are run
here on the same database, on which any statement may fail.
-/

namespace StashiWallet

open Interleaving RepairM

structure PerPoolAnchorHeights where
  targetHeight : Nat
  saplingAnchorHeight : Nat
  ironwoodAnchorHeight : Nat
  conservativeAnchorHeight : Nat
deriving DecidableEq, Repr

def getTargetAndAnchorHeightsByPoolForAccount (minConfirmations : Nat) (accountId : Int) :
    RepairM (Option PerPoolAnchorHeights) := do
  let minConfirmations := max minConfirmations 1
  match ← query .scanQueueExtrema with
  | none => return none
  | some (minHeight, maxHeight) =>
    let targetHeight := saturatingAdd maxHeight 1
    let birthday ← query (.birthdayHeightForAccount accountId)
    let anchorFloor := max (max minHeight 1) (max birthday 1)
    let idealAnchor := max (targetHeight - minConfirmations) anchorFloor
    if idealAnchor > targetHeight then
      return none
    let saplingAnchorHeight :=
      (← snapToCheckpointForTable .saplingTreeCheckpoints idealAnchor anchorFloor).getD idealAnchor
    let ironwoodAnchorHeight :=
      (← snapToCheckpointForTable .orchardTreeCheckpoints idealAnchor anchorFloor).getD idealAnchor
    return some {
      targetHeight := targetHeight
      saplingAnchorHeight := saplingAnchorHeight
      ironwoodAnchorHeight := ironwoodAnchorHeight
      conservativeAnchorHeight := min saplingAnchorHeight ironwoodAnchorHeight }

/-! ## The database -/

/-- The tables that the derivations read. Of the checkpoints they read the ids, which are integers
of any sign to the database. A statement can fail by itself. -/
structure AnchorTables where
  scanQueue : ScanQueue
  accountKeys : AccountKeys
  saplingTreeCheckpoints : List Int
  orchardTreeCheckpoints : List Int
  failure : RepairStatement → Option StorageError

namespace AnchorTables

def birthdayHeightForAccount (tables : AnchorTables) (accountId : Int) :
    Except StorageError Nat :=
  match tables.accountKeys.birthdayHeight accountId with
  | some value =>
    if 0 ≤ value then .ok value.toNat
    else .error (.storage s!"birthday_height out of range: {value}")
  | none => .ok 0

/-- `SELECT MAX(checkpoint_id) … WHERE checkpoint_id <= ?1 AND checkpoint_id >= ?2`. -/
def maxCheckpoint (tables : AnchorTables) (table : CheckpointTable) (ceiling floor : Nat) :
    Option Nat :=
  let ids := match table with
    | .saplingTreeCheckpoints => tables.saplingTreeCheckpoints
    | .orchardTreeCheckpoints => tables.orchardTreeCheckpoints
  (ids.filter fun id : Int => decide (id ≤ ceiling) && decide (floor ≤ id)).max?.map Int.toNat

/-- What the database answers. The statements that neither derivation makes are refused. -/
def answer (tables : AnchorTables) (statement : RepairStatement) :
    statement.Reply × AnchorTables :=
  match tables.failure statement with
  | some error => (.error error, tables)
  | none =>
    match statement with
    | .scanQueueExtrema => (.ok tables.scanQueue.scanQueueExtrema, tables)
    | .birthdayHeightForAccount accountId => (tables.birthdayHeightForAccount accountId, tables)
    | .maxCheckpoint table ceiling floor => (.ok (tables.maxCheckpoint table ceiling floor), tables)
    | _ => (.error (.storage "not a statement of the derivations"), tables)

/-- What a derivation returns on the database. -/
def evaluate {α : Type} (tables : AnchorTables) (call : RepairM α) : Except StorageError α :=
  (call.run.alone answer tables).1

variable {tables : AnchorTables} {α β : Type}

/-! ## A derivation on the database -/

/-- The derivations only read. -/
theorem answer_snd (statement : RepairStatement) : (tables.answer statement).2 = tables := by
  unfold answer
  split
  · rfl
  · split
    all_goals rfl

theorem alone_snd (program : Prog RepairStatement RepairStatement.Reply α) :
    (program.alone answer tables).2 = tables := by
  induction program with
  | ret a => rfl
  | step statement rest ih =>
    have hread := @answer_snd tables statement
    change ((rest (tables.answer statement).1).alone answer (tables.answer statement).2).2 = tables
    rw [hread]
    exact ih _

theorem evaluate_pure (a : α) : tables.evaluate (pure a) = .ok a := rfl

theorem evaluate_query (statement : RepairStatement) :
    tables.evaluate (query statement) = (tables.answer statement).1 := rfl

theorem evaluate_bind (call : RepairM α) (rest : α → RepairM β) :
    tables.evaluate (call >>= rest) =
      (tables.evaluate call).bind fun a => tables.evaluate (rest a) := by
  have hread := @alone_snd tables _ call.run
  unfold evaluate
  rw [ExceptT.run_bind, Prog.alone_bind, hread]
  cases (call.run.alone answer tables).1 with
  | error error => rfl
  | ok a => rfl

/-- A checkpoint that is found is between the two heights that were asked for. -/
theorem maxCheckpoint_between {table : CheckpointTable} {ceiling floor height : Nat}
    (h : tables.maxCheckpoint table ceiling floor = some height) :
    floor ≤ height ∧ height ≤ ceiling := by
  obtain ⟨id, hid, rfl⟩ := Option.map_eq_some_iff.mp h
  have hmem := List.max?_mem hid
  have hbounds := (List.mem_filter.mp hmem).2
  rw [Bool.and_eq_true, decide_eq_true_eq, decide_eq_true_eq] at hbounds
  omega

/-- A pool's checkpoint is between the floor and the ceiling, whatever fits in 32 bits. -/
theorem snap_between {table : CheckpointTable} {ceiling floor : Nat} (hle : floor ≤ ceiling)
    {snapped : Option Nat}
    (h : tables.evaluate (snapToCheckpointForTable table ceiling floor) = .ok snapped) :
    floor ≤ snapped.getD ceiling ∧ snapped.getD ceiling ≤ ceiling := by
  unfold snapToCheckpointForTable at h
  by_cases hfits : ceiling ≤ u32Max
  · rw [if_pos hfits, if_pos (by omega), evaluate_query] at h
    unfold answer at h
    cases hfailure : tables.failure (.maxCheckpoint table ceiling floor) with
    | some error =>
      rw [hfailure] at h
      cases h
    | none =>
      rw [hfailure] at h
      have hsnapped : tables.maxCheckpoint table ceiling floor = snapped := Except.ok.inj h
      cases snapped with
      | none => exact ⟨hle, Nat.le_refl _⟩
      | some height => exact maxCheckpoint_between hsnapped
  · -- a ceiling that does not fit has no checkpoint, and a floor that does not fit is below it
    rw [if_neg hfits, evaluate_pure] at h
    cases h
    exact ⟨hle, Nat.le_refl _⟩

end AnchorTables

/-! ## The two derivations -/

/-- The lower of the two anchors is the joint one: a pool without a checkpoint takes the ideal
anchor, which no checkpoint exceeds. -/
theorem min_getD_eq {sapling orchard : Option Nat} {ideal : Nat}
    (hsapling : sapling.getD ideal ≤ ideal) (horchard : orchard.getD ideal ≤ ideal) :
    (match sapling, orchard with
      | some s, some o => some (min s o)
      | some s, none => some s
      | none, some o => some o
      | none, none => none).getD ideal = min (sapling.getD ideal) (orchard.getD ideal) := by
  cases sapling with
  | none =>
    cases orchard with
    | none => simp
    | some o => simpa using horchard
  | some s =>
    cases orchard with
    | none => simpa using hsapling
    | some o => rfl

/-- The heights of an account at a depth: the target, the lowest anchor and the ideal one. -/
structure AnchorTables.Derives (tables : AnchorTables) (accountId : Int) (minConfirmations : Nat)
    (target floor ideal : Nat) : Prop where
  heights : ∃ minHeight maxHeight birthday,
    tables.scanQueue.scanQueueExtrema = some (minHeight, maxHeight) ∧
      tables.birthdayHeightForAccount accountId = .ok birthday ∧
      target = saturatingAdd maxHeight 1 ∧ floor = max (max minHeight 1) (max birthday 1)
  ideal_eq : ideal = max (target - max minConfirmations 1) floor

/-- What the joint derivation and the one by pools agree on: failures, the target and the lower
anchor. -/
structure AnchorTables.AnchorsAgree (tables : AnchorTables) (minConfirmations : Nat)
    (accountId : Int) : Prop where
  same : tables.evaluate (getTargetAndAnchorHeightsForAccount minConfirmations accountId) =
    (tables.evaluate (getTargetAndAnchorHeightsByPoolForAccount minConfirmations accountId)).map
      (Option.map fun heights => (heights.targetHeight, heights.conservativeAnchorHeight))
  between : ∀ target anchor,
    tables.evaluate (getTargetAndAnchorHeightsForAccount minConfirmations accountId) =
        .ok (some (target, anchor)) →
      ∃ floor ideal, tables.Derives accountId minConfirmations target floor ideal ∧
        floor ≤ anchor ∧ anchor ≤ ideal ∧ anchor ≤ target

namespace AnchorTables

variable {tables : AnchorTables}

theorem evaluate_snapToCheckpoint (ceiling floor : Nat) :
    tables.evaluate (snapToCheckpoint ceiling floor) =
      (tables.evaluate (snapToCheckpointForTable .saplingTreeCheckpoints ceiling floor)).bind
        fun sapling =>
          (tables.evaluate (snapToCheckpointForTable .orchardTreeCheckpoints ceiling floor)).map
            fun orchard => match sapling, orchard with
              | some s, some o => some (min s o)
              | some s, none => some s
              | none, some o => some o
              | none, none => none := by
  unfold snapToCheckpoint
  rw [evaluate_bind]
  cases tables.evaluate (snapToCheckpointForTable .saplingTreeCheckpoints ceiling floor) with
  | error error => rfl
  | ok sapling =>
    dsimp only [Except.bind]
    rw [evaluate_bind]
    cases tables.evaluate (snapToCheckpointForTable .orchardTreeCheckpoints ceiling floor) with
    | error error => rfl
    | ok orchard =>
      cases sapling with
      | none =>
        cases orchard with
        | none => rfl
        | some o => rfl
      | some s =>
        cases orchard with
        | none => rfl
        | some o => rfl

/-- A read that succeeds returns what the tables hold. -/
theorem evaluate_scanQueueExtrema {extrema : Option (Nat × Nat)}
    (h : tables.evaluate (query .scanQueueExtrema) = .ok extrema) :
    tables.scanQueue.scanQueueExtrema = extrema := by
  rw [evaluate_query] at h
  unfold answer at h
  split at h
  · cases h
  · exact Except.ok.inj h

theorem evaluate_birthdayHeightForAccount {accountId : Int} {birthday : Nat}
    (h : tables.evaluate (query (.birthdayHeightForAccount accountId)) = .ok birthday) :
    tables.birthdayHeightForAccount accountId = .ok birthday := by
  rw [evaluate_query] at h
  unfold answer at h
  split at h
  · cases h
  · exact h

end AnchorTables

open AnchorTables in
/-- **The anchors of the pools agree.** On every database the joint anchor is the lower of the two
pools' anchors, and lies between the lowest and the ideal anchor of its target. -/
theorem pool_anchors_agree (tables : AnchorTables) (minConfirmations : Nat) (accountId : Int) :
    tables.AnchorsAgree minConfirmations accountId := by
  have hboth : ∀ result,
      tables.evaluate (getTargetAndAnchorHeightsForAccount minConfirmations accountId) = result →
        result = (tables.evaluate
            (getTargetAndAnchorHeightsByPoolForAccount minConfirmations accountId)).map
          (Option.map fun heights => (heights.targetHeight, heights.conservativeAnchorHeight)) ∧
        ∀ target anchor, result = .ok (some (target, anchor)) →
          ∃ floor ideal, tables.Derives accountId minConfirmations target floor ideal ∧
            floor ≤ anchor ∧ anchor ≤ ideal ∧ anchor ≤ target := by
    rintro result rfl
    unfold getTargetAndAnchorHeightsForAccount getTargetAndAnchorHeightsByPoolForAccount
    dsimp only
    rw [evaluate_bind, evaluate_bind]
    cases hextrema : tables.evaluate (query .scanQueueExtrema) with
    | error error => exact ⟨rfl, fun target anchor h => by cases h⟩
    | ok extrema =>
      cases extrema with
      | none => exact ⟨rfl, fun target anchor h => by cases h⟩
      | some heights =>
        obtain ⟨minHeight, maxHeight⟩ := heights
        dsimp only [Except.bind]
        rw [evaluate_bind, evaluate_bind]
        cases hbirthday : tables.evaluate (query (.birthdayHeightForAccount accountId)) with
        | error error => exact ⟨rfl, fun target anchor h => by cases h⟩
        | ok birthday =>
          dsimp only [Except.bind]
          generalize htarget : saturatingAdd maxHeight 1 = target
          generalize hfloor : max (max minHeight 1) (max birthday 1) = floor
          generalize hideal : max (target - max minConfirmations 1) floor = ideal
          by_cases habove : ideal > target
          · rw [if_pos habove, if_pos habove]
            exact ⟨rfl, fun target anchor h => by cases h⟩
          · rw [if_neg habove, if_neg habove]
            have hle : floor ≤ ideal := by omega
            rw [evaluate_bind, evaluate_bind, evaluate_snapToCheckpoint]
            cases hsapling : tables.evaluate
                (snapToCheckpointForTable .saplingTreeCheckpoints ideal floor) with
            | error error => exact ⟨rfl, fun target anchor h => by cases h⟩
            | ok sapling =>
              dsimp only [Except.bind]
              rw [evaluate_bind]
              cases horchard : tables.evaluate
                  (snapToCheckpointForTable .orchardTreeCheckpoints ideal floor) with
              | error error => exact ⟨rfl, fun target anchor h => by cases h⟩
              | ok orchard =>
                obtain ⟨hsaplingFloor, hsaplingIdeal⟩ := snap_between hle hsapling
                obtain ⟨horchardFloor, horchardIdeal⟩ := snap_between hle horchard
                have hanchor := min_getD_eq hsaplingIdeal horchardIdeal
                dsimp only [Except.map]
                rw [hanchor, if_neg (by omega)]
                refine ⟨rfl, fun target' anchor h => ?_⟩
                cases h
                refine ⟨floor, ideal, ⟨⟨minHeight, maxHeight, birthday,
                  evaluate_scanQueueExtrema hextrema, evaluate_birthdayHeightForAccount hbirthday,
                  htarget.symm, hfloor.symm⟩, hideal.symm⟩, ?_, ?_, ?_⟩
                · omega
                · omega
                · omega
  exact ⟨(hboth _ rfl).1, (hboth _ rfl).2⟩

end StashiWallet
