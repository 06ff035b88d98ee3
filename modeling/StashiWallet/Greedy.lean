import Mathlib.Data.List.Infix

/-!
# Taking as long as it fits

A loop that takes one element after the other and stops at the first one that no longer fits has
the longest initial part that fits, if a part of what fits fits.
-/

namespace Greedy

variable {α : Type*} (Fits : List α → Prop)

/-- What fits also fits without its last element. -/
def Closed : Prop := ∀ taken a, Fits (taken ++ [a]) → Fits taken

/-- Behind what is taken already, as much as fits. -/
def take [DecidablePred Fits] (taken : List α) : List α → List α
  | [] => taken
  | a :: rest => if Fits (taken ++ [a]) then take (taken ++ [a]) rest else taken

variable {Fits}

theorem Closed.of_append (h : Closed Fits) {taken more : List α} (hfits : Fits (taken ++ more)) :
    Fits taken := by
  induction more using List.reverseRecOn with
  | nil => simpa using hfits
  | append_singleton more a ih =>
    rw [← List.append_assoc] at hfits
    exact ih (h _ a hfits)

variable [DecidablePred Fits] {taken rest : List α}

theorem take_fits (h : Fits taken) : Fits (take Fits taken rest) := by
  induction rest generalizing taken with
  | nil => exact h
  | cons a rest ih =>
    unfold take
    split
    · exact ih ‹_›
    · exact h

/-- What is taken is an initial part. -/
theorem take_append : ∃ left, taken ++ rest = take Fits taken rest ++ left := by
  induction rest generalizing taken with
  | nil => exact ⟨[], rfl⟩
  | cons a rest ih =>
    unfold take
    split
    · obtain ⟨left, hleft⟩ := @ih (taken ++ [a])
      exact ⟨left, by rw [← hleft, List.append_assoc, List.singleton_append]⟩
    · exact ⟨a :: rest, rfl⟩

/-- No initial part that fits is longer. -/
theorem length_le_take (hclosed : Closed Fits) {part left : List α}
    (hpart : taken ++ rest = part ++ left) (hfits : Fits part) :
    part.length ≤ (take Fits taken rest).length := by
  induction rest generalizing taken with
  | nil =>
    have hlength := congrArg List.length hpart
    simp only [List.append_nil, List.length_append] at hlength
    simp only [take]
    omega
  | cons a rest ih =>
    have hsplit : taken ++ [a] ++ rest = part ++ left := by simpa using hpart
    unfold take
    split
    · exact ih hsplit
    · rename_i hnot
      by_contra hlong
      -- a longer part goes on with the element that does not fit
      obtain ⟨more, hmore⟩ := (List.prefix_of_prefix_length_le ⟨rest, hsplit⟩ ⟨left, rfl⟩
        (by simp; omega) : taken ++ [a] <+: part)
      exact hnot (hclosed.of_append (hmore ▸ hfits))

end Greedy
