import Mathlib.Data.List.Forall2
import Mathlib.Order.Lattice

/-!
# Integers and errors at the SQLite boundary

Heights, positions and counters are `u64` in the wallet and `i64` in the database. A
value crosses the boundary through `toSqlI64`, which refuses what does not fit, so a
column written through it holds a number between `0` and `i64::MAX`; the model keeps such
a column as the natural number it stands for. Arithmetic before the boundary saturates at
`u64::MAX`.
-/

namespace StashiWallet

def i64Max : Nat := 9223372036854775807

def u32Max : Nat := 4294967295

def u64Max : Nat := 18446744073709551615

def saturatingAdd (a b : Nat) : Nat := min (a + b) u64Max

/-- A cast `u64 as i64`. -/
def asI64 (value : Nat) : Int :=
  if value ≤ i64Max then value else (value : Int) - 18446744073709551616

/-- A cast `i64 as u64`. -/
def asU64 (value : Int) : Nat := (value % 18446744073709551616).toNat

/-- A value that fits is stored as it is. -/
theorem asI64_of_le {value : Nat} (h : value ≤ i64Max) : asI64 value = value := if_pos h

/-- The error of a storage call: a value the wallet itself refuses, or a failure the
database reports (a violated `CHECK`, an I/O error). -/
inductive StorageError where
  | storage (message : String)
  | database (message : String)
deriving DecidableEq, Repr

/-- A `u64` on its way into an `i64` column, refused with the given message when it does
not fit. -/
def toI64Or (message : String) (value : Nat) : Except StorageError Nat :=
  if value ≤ i64Max then .ok value else .error (.storage message)

/-- `to_sql_i64` of the spendability and scan queue storage. -/
def toSqlI64 (value : Nat) : Except StorageError Nat :=
  toI64Or s!"value {value} exceeds i64::MAX" value

/-- `to_sql_i64` of the sync state storage. -/
def heightToSqlI64 (height : Nat) : Except StorageError Nat :=
  toI64Or s!"Height exceeds i64 range: {height}" height

/-- The state after a statement that either succeeds or is refused or rolled back. -/
def settle {σ : Type} (before : σ) (result : Except StorageError σ) : σ :=
  match result with
  | .ok after => after
  | .error _ => before

/-- A computation that succeeds has succeeded up to every `?`. -/
theorem bind_eq_ok {ε α β : Type} {x : Except ε α} {f : α → Except ε β} {b : β}
    (h : (x >>= f) = .ok b) : ∃ a, x = .ok a ∧ f a = .ok b := by
  cases x with
  | error e => cases h
  | ok a => exact ⟨a, rfl, h⟩

theorem map_eq_ok {ε α β : Type} {x : Except ε α} {f : α → β} {b : β} (h : x.map f = .ok b) :
    ∃ a, x = .ok a ∧ f a = b := by
  cases x with
  | error error => cases h
  | ok a => exact ⟨a, rfl, Except.ok.inj h⟩

theorem mapError_eq_ok {ε ε' α : Type} {x : Except ε α} {f : ε → ε'} {a : α}
    (h : x.mapError f = .ok a) : x = .ok a := by
  cases x with
  | error e => cases h
  | ok value =>
    obtain rfl := Except.ok.inj h
    rfl

/-- A fallible map succeeds with what each element yields. -/
theorem forall₂_of_mapM {ε α β : Type} {f : α → Except ε β} {xs : List α} {ys : List β}
    (h : xs.mapM f = .ok ys) : List.Forall₂ (fun x y => f x = .ok y) xs ys := by
  induction xs generalizing ys with
  | nil =>
    obtain rfl := Except.ok.inj h
    exact .nil
  | cons x xs ih =>
    rw [List.mapM_cons] at h
    obtain ⟨first, hfirst, h⟩ := bind_eq_ok h
    obtain ⟨rest, hrest, h⟩ := bind_eq_ok h
    obtain rfl := Except.ok.inj h
    exact .cons hfirst (ih hrest)

theorem partner_of_mem_left {α β : Type} {R : α → β → Prop} {xs : List α} {ys : List β}
    (h : List.Forall₂ R xs ys) {x : α} (hx : x ∈ xs) : ∃ y ∈ ys, R x y := by
  induction h with
  | nil => cases hx
  | @cons x' y xs ys hxy _ ih =>
    rcases List.mem_cons.mp hx with rfl | hx
    · exact ⟨y, List.mem_cons_self, hxy⟩
    · obtain ⟨z, hz, hR⟩ := ih hx
      exact ⟨z, List.mem_cons_of_mem y hz, hR⟩

theorem partner_of_mem_right {α β : Type} {R : α → β → Prop} {xs : List α} {ys : List β}
    (h : List.Forall₂ R xs ys) {y : β} (hy : y ∈ ys) : ∃ x ∈ xs, R x y :=
  partner_of_mem_left h.flip hy

/-- Related lists are searched alike. -/
theorem find?_forall₂ {α β : Type} {R : α → β → Prop} {p : α → Bool} {q : β → Bool}
    (hp : ∀ {a b}, R a b → q b = p a) {xs : List α} {ys : List β} (h : List.Forall₂ R xs ys) :
    (∃ x y, xs.find? p = some x ∧ ys.find? q = some y ∧ R x y) ∨
      (xs.find? p = none ∧ ys.find? q = none) := by
  induction h with
  | nil => exact Or.inr ⟨rfl, rfl⟩
  | @cons x y xs ys hxy _ ih =>
    by_cases hx : p x = true
    · left
      have hy : q y = true := (hp hxy).trans hx
      exact ⟨x, y, List.find?_cons_of_pos hx, List.find?_cons_of_pos hy, hxy⟩
    · have hy : ¬ q y = true := by rwa [hp hxy]
      rw [List.find?_cons_of_neg hx, List.find?_cons_of_neg hy]
      exact ih

theorem toI64Or_bind_eq_ok {α : Type} {message : String} {value : Nat}
    {f : Nat → Except StorageError α} {a : α} :
    (toI64Or message value >>= f) = .ok a ↔ value ≤ i64Max ∧ f value = .ok a := by
  unfold toI64Or
  split
  · rename_i h
    simp [h, bind, Except.bind]
  · rename_i h
    simp [h, bind, Except.bind]

theorem toSqlI64_bind_eq_ok {α : Type} {value : Nat} {f : Nat → Except StorageError α} {a : α} :
    (toSqlI64 value >>= f) = .ok a ↔ value ≤ i64Max ∧ f value = .ok a :=
  toI64Or_bind_eq_ok

/-- A statement whose arguments do not fit changes nothing. -/
theorem settle_toSqlI64_bind {σ : Type} (before : σ) (value : Nat)
    (f : Nat → Except StorageError σ) :
    settle before (toSqlI64 value >>= f)
      = if value ≤ i64Max then settle before (f value) else before := by
  unfold toSqlI64 toI64Or
  split <;> rfl

@[simp]
theorem settle_pure {σ : Type} (before after : σ) :
    settle before (pure after : Except StorageError σ) = after := rfl

theorem heightToSqlI64_bind_eq_ok {α : Type} {height : Nat} {f : Nat → Except StorageError α}
    {a : α} : (heightToSqlI64 height >>= f) = .ok a ↔ height ≤ i64Max ∧ f height = .ok a :=
  toI64Or_bind_eq_ok

theorem heightToSqlI64_eq_ok {height value : Nat} (h : heightToSqlI64 height = .ok value) :
    height ≤ i64Max ∧ height = value := by
  unfold heightToSqlI64 toI64Or at h
  split at h
  · exact ⟨‹_›, Except.ok.inj h⟩
  · cases h

end StashiWallet
