import Mathlib.Data.List.Basic

/-!
# Transactions opened and closed by hand

A connection to a database that is driven statement by statement: `BEGIN` remembers the
tables, `ROLLBACK` restores them, `COMMIT` forgets what was remembered. Any statement can be
refused, and the database may then keep an open transaction or roll it back by itself: a
`COMMIT` that finds the database busy keeps it. A `BEGIN` inside a transaction is refused.
`ROLLBACK` always ends the transaction.

A call is a `Program`: reads outside a transaction, and transactions. Inside a transaction it
executes statements and works out values, and both can fail. What decides the state of the
connection afterwards is only whether the failure that ends the transaction is answered by
`ROLLBACK` (`clean_iff_answered`). A failing statement always is, in the programs
considered here; for values and for `COMMIT` it is a property of the code.
-/

namespace Transactions

variable {σ ε : Type}

/-- One thing done inside a transaction: a value is worked out, or a statement is executed. -/
inductive Step (σ ε : Type) where
  | value (error : Option ε)
  | statement (effect : σ → σ)

/-- What a step does to the tables. -/
def Step.effect : Step σ ε → σ → σ
  | .value _ => id
  | .statement effect => effect

/-- The failure of a step that the code makes itself. -/
def Step.error : Step σ ε → Option ε
  | .value error => error
  | .statement _ => none

/-- Which failures inside a transaction are answered by `ROLLBACK` beside those of
statements. -/
structure Answers where
  values : Bool
  commit : Bool
deriving DecidableEq

/-- A transaction: what it does to the tables it finds, and which failures it answers. -/
structure Transaction (σ ε : Type) where
  steps : σ → List (Step σ ε)
  answers : Answers

/-- A call on a connection. -/
inductive Program (σ ε : Type) where
  | finish
  | fail (error : ε)
  | select (next : σ → Program σ ε)
  | transaction (body : Transaction σ ε) (next : σ → Program σ ε)

/-- What a refused statement does to an open transaction. -/
inductive Refusal where
  | keeps
  | rollsBack
deriving DecidableEq

/-- What the database reports, or what the code makes of a value. -/
inductive Failure (ε : Type) where
  | refused
  | value (error : ε)
deriving DecidableEq

/-- A connection: the tables it sees, the tables at the `BEGIN` of an open transaction, and
how many statements it has executed. -/
structure Conn (σ : Type) where
  tables : σ
  begun : Option σ
  clock : Nat

def Conn.rollback (conn : Conn σ) : Conn σ :=
  { conn with tables := conn.begun.getD conn.tables, begun := none }

/-- How a call ends: its error, the connection, and the tables as they were when the
transaction began in which it ended, or where it ended outside one. -/
structure Outcome (σ ε : Type) where
  error : Option (Failure ε)
  conn : Conn σ
  began : σ

/-- A call that returns an error leaves the tables as they were when its transaction began,
and no transaction open. -/
def Outcome.Clean (outcome : Outcome σ ε) : Prop :=
  outcome.error.isSome = true →
    outcome.conn.begun = none ∧ outcome.conn.tables = outcome.began

section Run

variable (refused : Nat → Option Refusal)

/-- The steps of an open transaction, and its `COMMIT`. -/
def runSteps (answers : Answers) (conn : Conn σ) :
    List (Step σ ε) → Option (Failure ε) × Conn σ
  | [] =>
    match refused conn.clock with
    | none => (none, { conn with begun := none, clock := conn.clock + 1 })
    | some .rollsBack => (some .refused, conn.rollback)
    | some .keeps => (some .refused, if answers.commit then conn.rollback else conn)
  | .value none :: rest => runSteps answers conn rest
  | .value (some error) :: _ =>
    (some (.value error), if answers.values then conn.rollback else conn)
  | .statement effect :: rest =>
    if (refused conn.clock).isSome then (some .refused, conn.rollback)
    else runSteps answers { conn with tables := effect conn.tables, clock := conn.clock + 1 } rest

/-- `BEGIN IMMEDIATE`, the steps, `COMMIT`. -/
def runTransaction (body : Transaction σ ε) (conn : Conn σ) : Option (Failure ε) × Conn σ :=
  if (refused conn.clock).isSome || conn.begun.isSome then (some .refused, conn)
  else runSteps refused body.answers
    { conn with begun := some conn.tables, clock := conn.clock + 1 } (body.steps conn.tables)

def Program.run (conn : Conn σ) : Program σ ε → Outcome σ ε
  | .finish => ⟨none, conn, conn.tables⟩
  | .fail error => ⟨some (.value error), conn, conn.tables⟩
  | .select next =>
    if (refused conn.clock).isSome then ⟨some .refused, conn, conn.tables⟩
    else (next conn.tables).run { conn with clock := conn.clock + 1 }
  | .transaction body next =>
    match runTransaction refused body conn with
    | (some failure, after) => ⟨some failure, after, conn.tables⟩
    | (none, after) => (next after.tables).run after

/-! ## Which failure comes first -/

/-- Where a transaction can end early. -/
inductive End where
  | value
  | statement
  | commit
  | abortedCommit
deriving DecidableEq

/-- The first failure among the steps, the first one executed at `clock`, and `COMMIT`. -/
def firstFailure (clock : Nat) : List (Step σ ε) → Option End
  | [] =>
    match refused clock with
    | none => none
    | some .rollsBack => some .abortedCommit
    | some .keeps => some .commit
  | .value none :: rest => firstFailure clock rest
  | .value (some _) :: _ => some .value
  | .statement _ :: rest =>
    if (refused clock).isSome then some .statement else firstFailure (clock + 1) rest

/-- The failure that ends a transaction of the call early, if one does. -/
def Program.failsIn (conn : Conn σ) : Program σ ε → Option End
  | .finish => none
  | .fail _ => none
  | .select next =>
    if (refused conn.clock).isSome then none
    else (next conn.tables).failsIn { conn with clock := conn.clock + 1 }
  | .transaction body next =>
    if (refused conn.clock).isSome || conn.begun.isSome then none
    else match firstFailure refused (conn.clock + 1) (body.steps conn.tables) with
      | some failure => some failure
      | none =>
        let after := (runTransaction refused body conn).2
        (next after.tables).failsIn after

end Run

/-- The failure is answered by `ROLLBACK`, or by the database itself. -/
def Answers.covers (answers : Answers) : End → Bool
  | .value => answers.values
  | .statement => true
  | .commit => answers.commit
  | .abortedCommit => true

/-- Every transaction of the call answers the same failures. -/
def Program.Follows (answers : Answers) : Program σ ε → Prop
  | .finish => True
  | .fail _ => True
  | .select next => ∀ tables, (next tables).Follows answers
  | .transaction body next => body.answers = answers ∧ ∀ tables, (next tables).Follows answers

section Rules

variable {refused : Nat → Option Refusal} {answers : Answers} {conn : Conn σ}

/-- What the steps leave: no failure and no transaction, or the first failure, with the
transaction open exactly if it is not answered. -/
theorem runSteps_spec {before : σ} (hbegun : conn.begun = some before)
    (steps : List (Step σ ε)) :
    match firstFailure refused conn.clock steps with
    | none => (runSteps refused answers conn steps).1 = none ∧
        (runSteps refused answers conn steps).2.begun = none
    | some failure => (runSteps refused answers conn steps).1.isSome = true ∧
        if answers.covers failure then
          (runSteps refused answers conn steps).2.begun = none ∧
            (runSteps refused answers conn steps).2.tables = before
        else (runSteps refused answers conn steps).2.begun = some before := by
  induction steps generalizing conn with
  | nil =>
    simp only [firstFailure, runSteps]
    cases hrefused : refused conn.clock with
    | none => simp
    | some refusal =>
      cases refusal with
      | rollsBack => simp [Answers.covers, Conn.rollback, hbegun]
      | keeps =>
        cases hcommit : answers.commit with
        | true => simp [Answers.covers, hcommit, Conn.rollback, hbegun]
        | false => simp [Answers.covers, hcommit, hbegun]
  | cons step rest ih =>
    cases step with
    | value error =>
      cases error with
      | none => exact ih hbegun
      | some error =>
        simp only [firstFailure, runSteps]
        cases hvalues : answers.values with
        | true => simp [Answers.covers, hvalues, Conn.rollback, hbegun]
        | false => simp [Answers.covers, hvalues, hbegun]
    | statement effect =>
      simp only [firstFailure, runSteps]
      cases hrefused : refused conn.clock with
      | none => exact @ih { conn with tables := effect conn.tables, clock := conn.clock + 1 } hbegun
      | some refusal => simp [Answers.covers, Conn.rollback, hbegun]

/-- Statements of which none is refused, nor the `COMMIT`, take effect one after the other. -/
theorem runSteps_statements {effects : List (σ → σ)}
    (h : ∀ i ≤ effects.length, refused (conn.clock + i) = none) :
    runSteps refused answers conn (effects.map (Step.statement (ε := ε))) =
      (none, ⟨effects.foldl (fun tables effect => effect tables) conn.tables, none,
        conn.clock + effects.length + 1⟩) := by
  induction effects generalizing conn with
  | nil =>
    have hcommit := h 0 (Nat.le_refl 0)
    rw [Nat.add_zero] at hcommit
    simp [runSteps, hcommit]
  | cons effect rest ih =>
    have hfirst := h 0 (Nat.zero_le _)
    rw [Nat.add_zero] at hfirst
    rw [List.map_cons, runSteps, hfirst, Option.isSome_none, if_neg Bool.false_ne_true, ih]
    · rw [List.foldl_cons, List.length_cons, Nat.add_right_comm conn.clock 1,
        Nat.add_assoc conn.clock rest.length 1]
    · intro i hi
      have hnext := h (i + 1) (by rw [List.length_cons]; omega)
      rwa [Nat.add_comm i 1, ← Nat.add_assoc] at hnext

/-- Statements that succeed met no refusal. -/
theorem undisturbed_of_runSteps {effects : List (σ → σ)}
    (h : (runSteps refused answers conn (effects.map (Step.statement (ε := ε)))).1 = none) :
    ∀ i ≤ effects.length, refused (conn.clock + i) = none := by
  induction effects generalizing conn with
  | nil =>
    intro i hi
    obtain rfl : i = 0 := Nat.le_zero.mp hi
    rw [Nat.add_zero]
    cases hcommit : refused conn.clock with
    | none => rfl
    | some refusal => cases refusal <;> simp [runSteps, hcommit] at h
  | cons effect rest ih =>
    intro i hi
    rw [List.map_cons, runSteps] at h
    cases hfirst : refused conn.clock with
    | some refusal => simp [hfirst] at h
    | none =>
      rw [hfirst, Option.isSome_none, if_neg Bool.false_ne_true] at h
      cases i with
      | zero => exact hfirst
      | succ i =>
        have hnext := ih h i (Nat.le_of_succ_le_succ hi)
        rwa [Nat.add_assoc, Nat.add_comm 1 i] at hnext

/-- Steps that succeed have all taken effect. -/
theorem runSteps_ok {steps : List (Step σ ε)}
    (h : (runSteps refused answers conn steps).1 = none) :
    (∀ step ∈ steps, step.error = none) ∧
      (runSteps refused answers conn steps).2.begun = none ∧
      (runSteps refused answers conn steps).2.tables =
        steps.foldl (fun tables step => step.effect tables) conn.tables := by
  induction steps generalizing conn with
  | nil =>
    cases hcommit : refused conn.clock with
    | none => simp [runSteps, hcommit]
    | some refusal => cases refusal <;> simp [runSteps, hcommit] at h
  | cons step rest ih =>
    cases step with
    | value error =>
      cases error with
      | some error => simp [runSteps] at h
      | none =>
        obtain ⟨herrors, hrest⟩ := ih h
        exact ⟨List.forall_mem_cons.mpr ⟨rfl, herrors⟩, hrest⟩
    | statement effect =>
      cases hfirst : refused conn.clock with
      | some refusal => simp [runSteps, hfirst] at h
      | none =>
        rw [runSteps, hfirst, Option.isSome_none, if_neg Bool.false_ne_true] at h ⊢
        obtain ⟨herrors, hrest⟩ := ih h
        exact ⟨List.forall_mem_cons.mpr ⟨rfl, herrors⟩, hrest⟩

/-- A transaction that succeeds has taken effect. -/
theorem runTransaction_ok {body : Transaction σ ε}
    (h : (runTransaction refused body conn).1 = none) :
    (∀ step ∈ body.steps conn.tables, step.error = none) ∧
      (runTransaction refused body conn).2.begun = none ∧
      (runTransaction refused body conn).2.tables =
        (body.steps conn.tables).foldl (fun tables step => step.effect tables) conn.tables := by
  unfold runTransaction at h ⊢
  by_cases hbegin : ((refused conn.clock).isSome || conn.begun.isSome) = true
  · rw [if_pos hbegin] at h
    cases h
  · rw [if_neg hbegin] at h ⊢
    exact runSteps_ok h

/-- A transaction that answers every failure leaves nothing of one that fails. -/
theorem runTransaction_error {body : Transaction σ ε} (hanswers : body.answers = ⟨true, true⟩)
    (hfree : conn.begun = none) (h : (runTransaction refused body conn).1.isSome = true) :
    (runTransaction refused body conn).2.begun = none ∧
      (runTransaction refused body conn).2.tables = conn.tables := by
  unfold runTransaction at h ⊢
  by_cases hbegin : ((refused conn.clock).isSome || conn.begun.isSome) = true
  · rw [if_pos hbegin]
    exact ⟨hfree, rfl⟩
  · rw [if_neg hbegin] at h ⊢
    have hspec := @runSteps_spec σ ε refused body.answers
      { conn with begun := some conn.tables, clock := conn.clock + 1 } conn.tables rfl
      (body.steps conn.tables)
    dsimp only at hspec
    cases hfirst : firstFailure refused (conn.clock + 1) (body.steps conn.tables) with
    | none =>
      rw [hfirst] at hspec
      rw [hspec.1] at h
      cases h
    | some failure =>
      have hcovers : body.answers.covers failure = true := by
        rw [hanswers]
        cases failure <;> rfl
      rw [hfirst] at hspec
      dsimp only at hspec
      rw [if_pos hcovers] at hspec
      exact hspec.2

/-- **When a call ends clean.** On a free connection, exactly if the failure that ends one of
its transactions early, if there is one, is answered by `ROLLBACK`. -/
theorem clean_iff_answered {program : Program σ ε} (hfollows : program.Follows answers)
    (hfree : conn.begun = none) :
    (program.run refused conn).Clean ↔
      ∀ failure, program.failsIn refused conn = some failure → answers.covers failure = true := by
  induction program generalizing conn with
  | finish => simp [Program.run, Program.failsIn, Outcome.Clean]
  | fail error => simp [Program.run, Program.failsIn, Outcome.Clean, hfree]
  | select next ih =>
    simp only [Program.run, Program.failsIn]
    cases hrefused : refused conn.clock with
    | some refusal => simp [Outcome.Clean, hfree]
    | none =>
      simpa using @ih conn.tables { conn with clock := conn.clock + 1 } (hfollows _) hfree
  | transaction body next ih =>
    obtain ⟨rfl, hnext⟩ := hfollows
    simp only [Program.run, Program.failsIn]
    cases hrefused : refused conn.clock with
    | some refusal => simp [runTransaction, hrefused, Outcome.Clean, hfree]
    | none =>
      have hbegins : runTransaction refused body conn = runSteps refused body.answers
          { conn with begun := some conn.tables, clock := conn.clock + 1 }
          (body.steps conn.tables) := by
        simp [runTransaction, hrefused, hfree]
      have hspec := @runSteps_spec σ ε refused body.answers
        { conn with begun := some conn.tables, clock := conn.clock + 1 } conn.tables rfl
        (body.steps conn.tables)
      rw [← hbegins] at hspec
      dsimp only at hspec
      cases hrun : runTransaction refused body conn with
      | mk error after =>
        rw [hrun] at hspec
        cases hfirst : firstFailure refused (conn.clock + 1) (body.steps conn.tables) with
        | none =>
          rw [hfirst] at hspec
          obtain ⟨hdone, hclosed⟩ := hspec
          dsimp only at hdone hclosed ⊢
          rw [hdone]
          simpa [hfree] using ih after.tables (hnext _) hclosed
        | some failure =>
          rw [hfirst] at hspec
          obtain ⟨hfailed, hanswer⟩ := hspec
          obtain ⟨error, rfl⟩ := Option.isSome_iff_exists.mp hfailed
          cases hcovers : body.answers.covers failure with
          | true =>
            rw [hcovers, if_pos rfl] at hanswer
            simpa [Outcome.Clean, hfree, hcovers] using hanswer
          | false =>
            rw [hcovers] at hanswer
            simp only [Bool.false_eq_true, if_false] at hanswer
            simp [Outcome.Clean, hfree, hcovers, hanswer]

end Rules

end Transactions
