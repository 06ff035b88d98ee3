import Mathlib.Data.Nat.Basic

/-!
# Loops without a bound

A loop of the source that is bounded by nothing it counts is given by what one turn does: it goes on
with another state, or the loop is left with a result. Whether it is left at all is then something
to prove. The rules are those of every loop: an invariant that each turn keeps holds when the loop
is left, and a loop whose turns make a number smaller is left. A bound on the turns makes the loop a
function, which a measure shows to be the loop.
-/

namespace WhileLoop

variable {σ ρ : Type*}

/-- What a turn does. -/
inductive Turn (σ ρ : Type*) where
  | again (state : σ)
  | leave (result : ρ)

variable (turn : σ → Turn σ ρ)

/-- The loop begun in the state is left with the result. -/
inductive Ends : σ → ρ → Prop where
  | leave {state : σ} {result : ρ} (h : turn state = .leave result) : Ends state result
  | again {state next : σ} {result : ρ} (h : turn state = .again next) (rest : Ends next result) :
      Ends state result

/-- At most `fuel` turns of the loop. -/
def within : Nat → σ → Option ρ
  | 0, _ => none
  | fuel + 1, state =>
    match turn state with
    | .leave result => some result
    | .again next => within fuel next

section Rules

variable {turn} {state : σ} {result : ρ}

/-- **The invariant rule.** -/
theorem Ends.invariant {I : σ → Prop} {P : ρ → Prop} (h : Ends turn state result)
    (hagain : ∀ state next, I state → turn state = .again next → I next)
    (hleave : ∀ state result, I state → turn state = .leave result → P result)
    (hstate : I state) : P result := by
  induction h with
  | leave h => exact hleave _ _ hstate h
  | again h _ ih => exact ih (hagain _ _ hstate h)

/-- **The measure rule.** A loop whose turns make a number smaller is left, and a bound above the
number is not reached. -/
theorem ends_of_measure {I : σ → Prop} (measure : σ → Nat)
    (hagain : ∀ state next, I state → turn state = .again next →
      I next ∧ measure next < measure state)
    (hstate : I state) {fuel : Nat} (hfuel : measure state < fuel) :
    ∃ result, Ends turn state result ∧ within turn fuel state = some result := by
  induction fuel generalizing state with
  | zero => omega
  | succ fuel ih =>
    cases hturn : turn state with
    | leave result => exact ⟨result, .leave hturn, by rw [within, hturn]⟩
    | again next =>
      obtain ⟨hnext, hless⟩ := hagain state next hstate hturn
      obtain ⟨result, hends, hwithin⟩ := ih hnext (by omega)
      exact ⟨result, .again hturn hends, by rw [within, hturn]; exact hwithin⟩

end Rules

end WhileLoop
