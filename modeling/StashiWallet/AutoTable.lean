import Mathlib.Data.List.Nodup

/-!
# Tables with an `AUTOINCREMENT` primary key

A table is a list of rows in insertion order together with the sequence value the next
`INSERT` takes its id from. The primary key is part of the type: ids are distinct, and every
id in use is below the sequence value, so an inserted row can never collide with another.

Three primitives keep this by construction: `deleteWhere`, `updateWhere` for an update that
does not write the key column, and `insert`. What a `CHECK` constraint demands of a row
belongs into the row type; a statement that can violate one is refused before it gets here.
-/

/-- A table of rows `ρ` with primary key `id`. -/
structure AutoTable (ρ : Type) (id : ρ → Nat) where
  rows : List ρ
  nextId : Nat
  ids_nodup : (rows.map id).Nodup
  ids_lt : ∀ row ∈ rows, id row < nextId

namespace AutoTable

variable {ρ : Type} {id : ρ → Nat}

def empty : AutoTable ρ id where
  rows := []
  nextId := 1
  ids_nodup := List.nodup_nil
  ids_lt := by simp

/-- `DELETE … WHERE p`. -/
def deleteWhere (p : ρ → Bool) (table : AutoTable ρ id) : AutoTable ρ id where
  rows := table.rows.filter (fun row => !p row)
  nextId := table.nextId
  ids_nodup := table.ids_nodup.sublist (List.filter_sublist.map _)
  ids_lt row hrow := table.ids_lt row (List.mem_of_mem_filter hrow)

/-- `UPDATE … WHERE p` for an update `f` that leaves the key column alone. -/
def updateWhere (p : ρ → Bool) (f : ρ → ρ) (hf : ∀ row, id (f row) = id row)
    (table : AutoTable ρ id) : AutoTable ρ id where
  rows := table.rows.map (fun row => if p row then f row else row)
  nextId := table.nextId
  ids_nodup := by
    have hid : id ∘ (fun row => if p row then f row else row) = id := by
      funext row
      simp only [Function.comp_apply]
      split
      · exact hf row
      · rfl
    rw [List.map_map, hid]
    exact table.ids_nodup
  ids_lt := by
    intro row hrow
    obtain ⟨old, hold, rfl⟩ := List.mem_map.mp hrow
    split
    · rw [hf]
      exact table.ids_lt old hold
    · exact table.ids_lt old hold

/-- `INSERT`: the row is built from the id the sequence hands out. -/
def insert (row : Nat → ρ) (hrow : ∀ n, id (row n) = n) (table : AutoTable ρ id) :
    AutoTable ρ id where
  rows := table.rows ++ [row table.nextId]
  nextId := table.nextId + 1
  ids_nodup := by
    rw [List.map_append, List.nodup_append]
    refine ⟨table.ids_nodup, List.nodup_singleton _, ?_⟩
    intro used hused fresh hfresh
    obtain ⟨old, hold, rfl⟩ := List.mem_map.mp hused
    have hlt := table.ids_lt old hold
    simp only [List.map_cons, List.map_nil, List.mem_singleton, hrow] at hfresh
    omega
  ids_lt := by
    intro r hr
    rcases List.mem_append.mp hr with hr | hr
    · exact Nat.lt_succ_of_lt (table.ids_lt r hr)
    · rw [List.mem_singleton.mp hr, hrow]
      exact Nat.lt_succ_self _

@[simp]
theorem deleteWhere_rows (p : ρ → Bool) (table : AutoTable ρ id) :
    (table.deleteWhere p).rows = table.rows.filter (fun row => !p row) := rfl

@[simp]
theorem updateWhere_rows (p : ρ → Bool) (f : ρ → ρ) (hf : ∀ row, id (f row) = id row)
    (table : AutoTable ρ id) :
    (table.updateWhere p f hf).rows = table.rows.map (fun row => if p row then f row else row) :=
  rfl

@[simp]
theorem insert_rows (row : Nat → ρ) (hrow : ∀ n, id (row n) = n) (table : AutoTable ρ id) :
    (table.insert row hrow).rows = table.rows ++ [row table.nextId] := rfl

/-- Every row of `after` stems from a row of `before`, to which it is related. -/
def RowsFrom (R : ρ → ρ → Prop) (before after : AutoTable ρ id) : Prop :=
  ∀ row' ∈ after.rows, ∃ row ∈ before.rows, R row row'

variable {R : ρ → ρ → Prop}

theorem RowsFrom.refl (hR : ∀ row, R row row) (table : AutoTable ρ id) : RowsFrom R table table :=
  fun row hrow => ⟨row, hrow, hR row⟩

theorem RowsFrom.trans {R₁ R₂ R : ρ → ρ → Prop} {a b c : AutoTable ρ id}
    (hR : ∀ x y z, R₁ x y → R₂ y z → R x z) (h₁ : RowsFrom R₁ a b) (h₂ : RowsFrom R₂ b c) :
    RowsFrom R a c := by
  intro z hz
  obtain ⟨y, hy, hyz⟩ := h₂ z hz
  obtain ⟨x, hx, hxy⟩ := h₁ y hy
  exact ⟨x, hx, hR x y z hxy hyz⟩

variable {table : AutoTable ρ id}

theorem rowsFrom_updateWhere {p : ρ → Bool} {f : ρ → ρ} {hf : ∀ row, id (f row) = id row}
    (hupdate : ∀ row ∈ table.rows, p row = true → R row (f row))
    (hkeep : ∀ row ∈ table.rows, p row = false → R row row) :
    RowsFrom R table (table.updateWhere p f hf) := by
  intro row' hrow'
  obtain ⟨row, hrow, rfl⟩ := List.mem_map.mp hrow'
  refine ⟨row, hrow, ?_⟩
  cases hp : p row with
  | true => exact hupdate row hrow hp
  | false => exact hkeep row hrow hp

theorem rowsFrom_deleteWhere {p : ρ → Bool}
    (hkeep : ∀ row ∈ table.rows, p row = false → R row row) :
    RowsFrom R table (table.deleteWhere p) := by
  intro row hrow
  obtain ⟨hmem, hp⟩ := List.mem_filter.mp hrow
  exact ⟨row, hmem, hkeep row hmem (by simpa using hp)⟩

theorem eq_of_rows {a b : AutoTable ρ id} (hrows : a.rows = b.rows)
    (hnext : a.nextId = b.nextId) : a = b := by
  cases a
  cases b
  subst hrows hnext
  rfl

theorem row_eq_of_id {a b : ρ} (ha : a ∈ table.rows) (hb : b ∈ table.rows) (hid : id a = id b) :
    a = b :=
  List.inj_on_of_nodup_map table.ids_nodup ha hb hid

/-- An update keeps the ids in their order. -/
theorem updateWhere_ids (p : ρ → Bool) (f : ρ → ρ) (hf : ∀ row, id (f row) = id row)
    (table : AutoTable ρ id) : (table.updateWhere p f hf).rows.map id = table.rows.map id := by
  rw [updateWhere_rows, List.map_map]
  refine List.map_congr_left (fun row _ => ?_)
  simp only [Function.comp_apply]
  split
  · exact hf row
  · rfl

variable {before after : AutoTable ρ id}

/-- Where no row was taken away, what is known of the rows of `after` is known of every row. -/
theorem RowsFrom.forward (h : RowsFrom R before after)
    (hids : after.rows.map id = before.rows.map id)
    (hR : ∀ row row', R row row' → id row' = id row) :
    ∀ row ∈ before.rows, ∃ row' ∈ after.rows, R row row' := by
  intro row hrow
  have hid : id row ∈ after.rows.map id := hids ▸ List.mem_map_of_mem hrow
  obtain ⟨row', hrow', hsame⟩ := List.mem_map.mp hid
  obtain ⟨old, hold, hmove⟩ := h row' hrow'
  have hown : old = row := row_eq_of_id hold hrow ((hR old row' hmove).symm.trans hsame)
  exact ⟨row', hrow', hown ▸ hmove⟩

/-! ## Tables that grow -/

/-- Every row of `after` stems from a row of `before`, to which it is related, or was inserted
since. -/
def Evolves (R : ρ → ρ → Prop) (before after : AutoTable ρ id) : Prop :=
  before.nextId ≤ after.nextId ∧
    ∀ row' ∈ after.rows, before.nextId ≤ id row' ∨ ∃ row ∈ before.rows, R row row'

theorem Evolves.refl (hR : ∀ row, R row row) (table : AutoTable ρ id) : Evolves R table table :=
  ⟨Nat.le_refl _, fun row hrow => Or.inr ⟨row, hrow, hR row⟩⟩

theorem RowsFrom.evolves (h : RowsFrom R before after) (hnext : before.nextId ≤ after.nextId) :
    Evolves R before after :=
  ⟨hnext, fun row' hrow' => Or.inr (h row' hrow')⟩

theorem evolves_insert {R : ρ → ρ → Prop} (hR : ∀ row, R row row) {row : Nat → ρ}
    {hrow : ∀ n, id (row n) = n} (table : AutoTable ρ id) :
    Evolves R table (table.insert row hrow) := by
  refine ⟨Nat.le_succ _, fun row' hrow' => ?_⟩
  rcases List.mem_append.mp hrow' with hold | hnew
  · exact Or.inr ⟨row', hold, hR row'⟩
  · rw [List.mem_singleton.mp hnew, hrow]
    exact Or.inl (Nat.le_refl _)

/-- The ids of inserted rows are new ones for every earlier table. -/
theorem Evolves.trans {a b c : AutoTable ρ id} (hR : ∀ x y z, R x y → R y z → R x z)
    (hid : ∀ x y, R x y → id y = id x) (h₁ : Evolves R a b) (h₂ : Evolves R b c) :
    Evolves R a c := by
  refine ⟨Nat.le_trans h₁.1 h₂.1, fun z hz => ?_⟩
  rcases h₂.2 z hz with hnew | ⟨y, hy, hyz⟩
  · exact Or.inl (Nat.le_trans h₁.1 hnew)
  · rcases h₁.2 y hy with hnew | ⟨x, hx, hxy⟩
    · rw [hid y z hyz]
      exact Or.inl hnew
    · exact Or.inr ⟨x, hx, hR x y z hxy hyz⟩

/-- A row under the id of an earlier one stems from it. -/
theorem Evolves.rel (h : Evolves R before after) (hid : ∀ x y, R x y → id y = id x) {row row' : ρ}
    (hrow : row ∈ before.rows) (hrow' : row' ∈ after.rows) (heq : id row' = id row) :
    R row row' := by
  rcases h.2 row' hrow' with hnew | ⟨origin, horigin, hrel⟩
  · have hlt := before.ids_lt row hrow
    omega
  · have hsame : origin = row :=
      row_eq_of_id horigin hrow ((hid origin row' hrel).symm.trans heq)
    exact hsame ▸ hrel

end AutoTable
