import Mathlib.Data.List.Basic

/-!
# Confirmed changes

A controller that must not chase its measurements changes its setting only when several
measurements in a row ask for the same change, and then asks for none for a while. This module is
that gate, over any type of directions with a zero for "stay": what a gate remembers, what one
direction does to it, and what a change that the gate lets pass says about the directions it saw.
-/

namespace Hysteresis

/-- What the gate remembers: the direction that waits for confirmation, how often it was asked for
in a row, and how many directions are still ignored. -/
structure Gate (D : Type*) where
  pending : D
  confirmations : Nat
  cooldown : Nat
deriving DecidableEq, Repr

variable {D : Type*} [Zero D] [DecidableEq D] (required wait : Nat)

namespace Gate

/-- The gate after a change, and before the first one with a `wait` of zero. -/
def settled (wait : Nat) : Gate D := ⟨0, 0, wait⟩

/-- How often the direction has been asked for in a row, this time included. -/
def asked (gate : Gate D) (direction : D) : Nat :=
  if gate.pending = direction then gate.confirmations + 1 else 1

/-- One direction is asked for. The second component says that the change passes. -/
def observe (gate : Gate D) (direction : D) : Gate D × Bool :=
  if direction = 0 then (⟨0, 0, gate.cooldown - 1⟩, false)
  else if 0 < gate.cooldown then ({ gate with cooldown := gate.cooldown - 1 }, false)
  else if gate.asked direction < required then (⟨direction, gate.asked direction, 0⟩, false)
  else (settled wait, true)

/-- The directions seen since the gate was settled, none of which it let pass: some that do not
count any more, then those that wait for confirmation. -/
structure Saw (initial : Nat) (gate : Gate D) (seen : List D) : Prop where
  split : ∃ waited, seen = waited ++ List.replicate gate.confirmations gate.pending ∧
    (gate.confirmations ≠ 0 → initial ≤ waited.length)
  cooldown : gate.cooldown = initial - seen.length
  idle : gate.confirmations = 0 → gate.pending = 0
  cooled : gate.cooldown ≠ 0 → gate.confirmations = 0

/-- The change that passes was asked for by all of the last directions, `required` of them, and
these came after the wait. -/
def Confirmed (initial : Nat) (direction : D) (seen : List D) : Prop :=
  direction ≠ 0 ∧ ∃ waited, initial ≤ waited.length ∧
    seen = waited ++ List.replicate required direction

omit [DecidableEq D] in
theorem saw_settled (initial : Nat) : Saw initial (settled initial : Gate D) [] where
  split := ⟨[], rfl, fun h => absurd rfl h⟩
  cooldown := rfl
  idle := fun _ => rfl
  cooled := fun _ => rfl

variable {required wait} {initial : Nat} {gate : Gate D} {seen : List D} {direction : D}

/-- After the wait, the directions end with those that ask for the same in a row. -/
theorem Saw.asked (h : Saw initial gate seen) (hwait : ¬ 0 < gate.cooldown)
    (hzero : direction ≠ 0) : ∃ waited, initial ≤ waited.length ∧
      seen ++ [direction] = waited ++ List.replicate (gate.asked direction) direction := by
  obtain ⟨waited, hsplit, hwaited⟩ := h.split
  have hcooldown := h.cooldown
  unfold Gate.asked
  by_cases hsame : gate.pending = direction
  · rw [if_pos hsame]
    refine ⟨waited, ?_, ?_⟩
    · -- a gate that waits for no confirmation has no direction pending
      apply hwaited
      intro hfirst
      exact hzero (hsame.symm.trans (h.idle hfirst))
    · rw [hsplit, hsame, List.append_assoc, ← List.replicate_succ']
  · rw [if_neg hsame]
    exact ⟨seen, by omega, rfl⟩

omit [Zero D] in
theorem asked_pos : 0 < gate.asked direction := by
  unfold Gate.asked
  split
  · omega
  · omega

/-- A direction that does not pass is one more that the gate saw. -/
theorem Saw.observe (h : Saw initial gate seen)
    (hstays : (gate.observe required wait direction).2 = false) :
    Saw initial (gate.observe required wait direction).1 (seen ++ [direction]) := by
  have hcooldown := h.cooldown
  have hlength : (seen ++ [direction]).length = seen.length + 1 := List.length_append
  unfold Gate.observe at hstays ⊢
  by_cases hzero : direction = 0
  · rw [if_pos hzero]
    refine ⟨⟨seen ++ [direction], by simp, by simp⟩, ?_, fun _ => rfl, fun _ => rfl⟩
    dsimp only
    omega
  rw [if_neg hzero] at hstays ⊢
  by_cases hwait : 0 < gate.cooldown
  · rw [if_pos hwait]
    have hnone := h.cooled (Nat.pos_iff_ne_zero.mp hwait)
    refine ⟨⟨seen ++ [direction], by simp [hnone], by simp [hnone]⟩, ?_, h.idle, fun _ => hnone⟩
    dsimp only
    omega
  rw [if_neg hwait] at hstays ⊢
  by_cases hfew : gate.asked direction < required
  · rw [if_pos hfew]
    obtain ⟨waited, hwaited, hsplit⟩ := h.asked hwait hzero
    refine ⟨⟨waited, hsplit, fun _ => hwaited⟩, ?_, fun hnone => ?_, by simp⟩
    · dsimp only
      omega
    · exact absurd hnone (Nat.pos_iff_ne_zero.mp asked_pos)
  · rw [if_neg hfew] at hstays
    cases hstays

/-- A direction that passes is confirmed by those the gate saw. -/
theorem Saw.confirmed (h : Saw initial gate seen)
    (hpasses : (gate.observe required wait direction).2 = true) :
    Confirmed required initial direction (seen ++ [direction]) := by
  unfold Gate.observe at hpasses
  by_cases hzero : direction = 0
  · rw [if_pos hzero] at hpasses
    cases hpasses
  rw [if_neg hzero] at hpasses
  by_cases hwait : 0 < gate.cooldown
  · rw [if_pos hwait] at hpasses
    cases hpasses
  rw [if_neg hwait] at hpasses
  by_cases hfew : gate.asked direction < required
  · rw [if_pos hfew] at hpasses
    cases hpasses
  · obtain ⟨waited, hwaited, hsplit⟩ := h.asked hwait hzero
    -- the last `required` of those in a row; any before them came after the wait as well
    refine ⟨hzero, waited ++ List.replicate (gate.asked direction - required) direction, ?_, ?_⟩
    · rw [List.length_append]
      omega
    · rw [hsplit, List.append_assoc, ← List.replicate_add]
      congr 2
      omega

/-- A gate that lets a change pass is settled. -/
theorem observe_of_passes (hpasses : (gate.observe required wait direction).2 = true) :
    (gate.observe required wait direction).1 = settled wait := by
  unfold Gate.observe at hpasses ⊢
  split at hpasses
  · cases hpasses
  split at hpasses
  · cases hpasses
  split at hpasses
  · cases hpasses
  · rename_i hzero hwait hfew
    rw [if_neg hzero, if_neg hwait, if_neg hfew]

end Gate

end Hysteresis
