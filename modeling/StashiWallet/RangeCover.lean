import Mathlib.Order.Interval.Set.LinearOrder
import Mathlib.Data.Set.Lattice

/-!
# Merging half-open ranges

The interval algebra of a work queue: half-open ranges over a linear order, the union of
heights a list of them covers, and the hull obtained by folding `min` over the left ends
and `max` over the right ends. A hull normally covers more than its parts. The point of
this module is `Ico_hull`: when every folded range meets the seed range, nothing is added
and nothing is lost, so the hull is exactly the union.
-/

namespace RangeCover

variable {α : Type*} [LinearOrder α]

/-- Two half-open ranges meet, in the form the queue's `SELECT` has it: neither ends
before the other begins. -/
def Meets (a b : α × α) : Prop := a.1 < b.2 ∧ b.1 < a.2

/-- The least range containing the seed and every range of the list. -/
def hull (seed : α × α) (ranges : List (α × α)) : α × α :=
  ranges.foldl (fun acc r => (min acc.1 r.1, max acc.2 r.2)) seed

/-- The elements covered by a list of half-open ranges. -/
def cover (ranges : List (α × α)) : Set α :=
  {x | ∃ r ∈ ranges, x ∈ Set.Ico r.1 r.2}

@[simp]
theorem hull_nil (seed : α × α) : hull seed [] = seed := rfl

@[simp]
theorem hull_cons (seed r : α × α) (ranges : List (α × α)) :
    hull seed (r :: ranges) = hull (min seed.1 r.1, max seed.2 r.2) ranges := rfl

@[simp]
theorem cover_nil : cover ([] : List (α × α)) = ∅ := by
  ext x
  simp [cover]

@[simp]
theorem cover_cons (r : α × α) (ranges : List (α × α)) :
    cover (r :: ranges) = Set.Ico r.1 r.2 ∪ cover ranges := by
  ext x
  simp [cover]

theorem mem_cover {x : α} {ranges : List (α × α)} :
    x ∈ cover ranges ↔ ∃ r ∈ ranges, r.1 ≤ x ∧ x < r.2 := Iff.rfl

theorem hull_fst_le (seed : α × α) (ranges : List (α × α)) : (hull seed ranges).1 ≤ seed.1 := by
  induction ranges generalizing seed with
  | nil => exact le_rfl
  | cons r ranges ih => exact (ih (min seed.1 r.1, max seed.2 r.2)).trans (min_le_left _ _)

theorem le_hull_snd (seed : α × α) (ranges : List (α × α)) : seed.2 ≤ (hull seed ranges).2 := by
  induction ranges generalizing seed with
  | nil => exact le_rfl
  | cons r ranges ih =>
    exact (le_max_left seed.2 r.2).trans (ih (min seed.1 r.1, max seed.2 r.2))

/-- Every folded range lies inside the hull. -/
theorem hull_contains {seed r : α × α} {ranges : List (α × α)} (hr : r ∈ ranges) :
    (hull seed ranges).1 ≤ r.1 ∧ r.2 ≤ (hull seed ranges).2 := by
  induction ranges generalizing seed with
  | nil => simp at hr
  | cons head ranges ih =>
    rcases List.mem_cons.mp hr with rfl | hr
    · let grown := (min seed.1 r.1, max seed.2 r.2)
      exact ⟨(hull_fst_le grown ranges).trans (min_le_right seed.1 r.1),
        (le_max_right seed.2 r.2).trans (le_hull_snd grown ranges)⟩
    · exact ih hr

/-- **A hull of ranges that all meet the seed is their union.** The seed only grows along
the fold, so a range that meets the seed still meets the accumulated hull when its turn
comes, and two ranges that meet have the hull as union. -/
theorem Ico_hull {seed : α × α} {ranges : List (α × α)} (hmeet : ∀ r ∈ ranges, Meets r seed) :
    Set.Ico (hull seed ranges).1 (hull seed ranges).2
      = Set.Ico seed.1 seed.2 ∪ cover ranges := by
  induction ranges generalizing seed with
  | nil => simp
  | cons r ranges ih =>
    obtain ⟨hstart, hend⟩ := hmeet r List.mem_cons_self
    have hgrown : ∀ t ∈ ranges, Meets t (min seed.1 r.1, max seed.2 r.2) := by
      intro t ht
      obtain ⟨h₁, h₂⟩ := hmeet t (List.mem_cons_of_mem r ht)
      exact ⟨h₁.trans_le (le_max_left _ _), (min_le_left _ _).trans_lt h₂⟩
    rw [hull_cons, ih hgrown, cover_cons, ← Set.union_assoc]
    congr 1
    exact (Set.Ico_union_Ico' hstart.le hend.le).symm

end RangeCover
