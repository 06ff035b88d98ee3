import Mathlib.Algebra.Order.Ring.Nat
import Mathlib.Algebra.BigOperators.Group.List.Basic
import Mathlib.Data.List.Infix

/-!
# Taking until a bound is reached

A loop that takes one weighted element after the other and stops when their weight has reached a
bound takes the shortest initial part that reaches it.
-/

namespace CoveringPrefix

variable {α : Type*} (weight : α → Nat)

/-- What a list weighs. -/
def total (taken : List α) : Nat := (taken.map weight).sum

/-- Behind what weighs `reached` already, elements until the bound is reached. -/
def take (bound : Nat) : Nat → List α → List α
  | _, [] => []
  | reached, a :: rest =>
    if bound ≤ reached then [] else a :: take bound (reached + weight a) rest

/-- An initial part that reaches the bound, and none that reaches it is shorter. -/
structure Shortest (bound : Nat) (order taken : List α) : Prop where
  isPrefix : taken <+: order
  reaches : bound ≤ total weight taken
  shortest : ∀ part, part <+: order → bound ≤ total weight part → taken.length ≤ part.length

variable {weight} {bound reached : Nat} {order taken part : List α}

@[simp] theorem total_nil : total weight [] = 0 := rfl

@[simp] theorem total_cons (a : α) (taken : List α) :
    total weight (a :: taken) = weight a + total weight taken := by
  simp [total]

@[simp] theorem total_append (taken more : List α) :
    total weight (taken ++ more) = total weight taken + total weight more := by
  simp [total]

theorem total_perm {other : List α} (h : taken.Perm other) :
    total weight taken = total weight other := (h.map weight).sum_eq

theorem total_mono (h : part <+: order) : total weight part ≤ total weight order := by
  obtain ⟨rest, rfl⟩ := h
  rw [total_append]
  exact Nat.le_add_right _ _

theorem take_of_reached (h : bound ≤ reached) : take weight bound reached order = [] := by
  cases order with
  | nil => rfl
  | cons a rest => exact if_pos h

theorem take_isPrefix : take weight bound reached order <+: order := by
  induction order generalizing reached with
  | nil => exact List.prefix_rfl
  | cons a rest ih =>
    unfold take
    split
    · exact List.nil_prefix
    · exact List.prefix_cons_inj a |>.mpr ih

/-- The bound is reached when all elements together reach it. -/
theorem le_take (h : bound ≤ reached + total weight order) :
    bound ≤ reached + total weight (take weight bound reached order) := by
  induction order generalizing reached with
  | nil => exact h
  | cons a rest ih =>
    unfold take
    split
    · rename_i hreached
      exact hreached.trans (Nat.le_add_right _ _)
    · rw [total_cons, ← Nat.add_assoc] at h ⊢
      exact ih h

/-- An initial part that reaches the bound is no shorter. -/
theorem take_length_le (hpart : part <+: order) (h : bound ≤ reached + total weight part) :
    (take weight bound reached order).length ≤ part.length := by
  induction order generalizing reached part with
  | nil => exact Nat.zero_le _
  | cons a rest ih =>
    unfold take
    split
    · exact Nat.zero_le _
    · rename_i hshort
      cases part with
      | nil => exact absurd h hshort
      | cons b part =>
        obtain ⟨rfl, hrest⟩ := List.cons_prefix_cons.mp hpart
        rw [total_cons, ← Nat.add_assoc] at h
        exact Nat.succ_le_succ (ih hrest h)

theorem shortest_take (h : bound ≤ total weight order) :
    Shortest weight bound order (take weight bound 0 order) := by
  refine ⟨take_isPrefix, ?_, fun part hpart hreaches => take_length_le hpart ?_⟩
  · have hreached : bound ≤ 0 + total weight order := by simpa using h
    simpa using le_take hreached
  · simpa using hreaches

theorem Shortest.eq_take (h : Shortest weight bound order taken) :
    taken = take weight bound 0 order := by
  have htake := shortest_take (h.reaches.trans (total_mono h.isPrefix))
  have hlength : taken.length = (take weight bound 0 order).length :=
    Nat.le_antisymm (h.shortest _ htake.isPrefix htake.reaches)
      (htake.shortest _ h.isPrefix h.reaches)
  exact (List.prefix_of_prefix_length_le h.isPrefix htake.isPrefix hlength.le).eq_of_length hlength

end CoveringPrefix
