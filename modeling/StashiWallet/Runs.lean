import Mathlib.Data.List.Basic

/-!
# Runs of a transition function

A storage layer is driven by a sequence of calls, and its contracts speak about every
state the sequence passes through. This module fixes the vocabulary once, for an
arbitrary transition function `step : σ → α → σ`: the state after a sequence, the
states passed on the way, and a condition imposed on every step at the state in which
the step is taken.

Two rules carry all later arguments. `run_invariant` is induction along a sequence whose
steps all meet a condition. `throughout_iff_eachStep` is its sharp form: when the
condition is exactly what one step needs in order to keep the property, the property
holds in every state passed if and only if every step meets the condition.
-/

namespace Runs

variable {σ α : Type*} (step : σ → α → σ)

/-- The state reached from `s` by the calls `as`, in order. -/
def run (s : σ) (as : List α) : σ := as.foldl step s

/-- `P` holds in every state passed by the run of `as` from `s`, both ends included. -/
def Throughout (P : σ → Prop) (s : σ) (as : List α) : Prop :=
  ∀ done, done <+: as → P (run step s done)

/-- Every call of `as` meets `C` in the state in which it is made. -/
def EachStep (C : σ → α → Prop) (s : σ) (as : List α) : Prop :=
  ∀ done a rest, as = done ++ a :: rest → C (run step s done) a

@[simp]
theorem run_nil (s : σ) : run step s [] = s := rfl

@[simp]
theorem run_cons (s : σ) (a : α) (as : List α) :
    run step s (a :: as) = run step (step s a) as := rfl

theorem run_append (s : σ) (as bs : List α) :
    run step s (as ++ bs) = run step (run step s as) bs :=
  List.foldl_append

section Rules

variable {step} {P : σ → Prop} {C : σ → α → Prop} {s : σ} {as : List α}

@[simp]
theorem throughout_nil : Throughout step P s [] ↔ P s := by
  constructor
  · intro h
    exact h [] List.prefix_rfl
  · intro h done hdone
    rw [List.prefix_nil.mp hdone]
    exact h

@[simp]
theorem throughout_cons {a : α} :
    Throughout step P s (a :: as) ↔ P s ∧ Throughout step P (step s a) as := by
  constructor
  · intro h
    refine ⟨h [] (List.nil_prefix), ?_⟩
    intro done hdone
    exact h (a :: done) (List.cons_prefix_cons.mpr ⟨rfl, hdone⟩)
  · rintro ⟨hs, h⟩ done hdone
    cases done with
    | nil => exact hs
    | cons b done =>
      obtain ⟨rfl, htail⟩ := List.cons_prefix_cons.mp hdone
      exact h done htail

@[simp]
theorem eachStep_nil : EachStep step C s [] := by
  intro done a rest h
  simp at h

@[simp]
theorem eachStep_cons {a : α} :
    EachStep step C s (a :: as) ↔ C s a ∧ EachStep step C (step s a) as := by
  constructor
  · intro h
    refine ⟨h [] a as rfl, ?_⟩
    intro done b rest hsplit
    exact h (a :: done) b rest (by rw [hsplit, List.cons_append])
  · rintro ⟨hs, h⟩ done b rest hsplit
    cases done with
    | nil =>
      obtain ⟨rfl, rfl⟩ := List.cons.inj hsplit
      exact hs
    | cons c done =>
      obtain ⟨rfl, htail⟩ := List.cons.inj hsplit
      exact h done b rest htail

/-- The condition holds of the calls of the second part of a run. -/
theorem EachStep.second {bs : List α} (h : EachStep step C s (as ++ bs)) :
    EachStep step C (run step s as) bs := by
  intro done a rest hsplit
  have hstep := h (as ++ done) a rest (by rw [hsplit, List.append_assoc])
  rwa [run_append] at hstep

/-- **The invariant rule.** A property that every admissible step keeps holds in every
state passed by a run of admissible steps. -/
theorem run_invariant (hstep : ∀ s a, P s → C s a → P (step s a)) (hs : P s)
    (hC : EachStep step C s as) : Throughout step P s as := by
  induction as generalizing s with
  | nil => exact throughout_nil.mpr hs
  | cons a as ih =>
    obtain ⟨ha, has⟩ := eachStep_cons.mp hC
    exact throughout_cons.mpr ⟨hs, ih (hstep s a hs ha) has⟩

/-- The invariant rule for a property that every step keeps. -/
theorem run_invariant_always (hstep : ∀ s a, P s → P (step s a)) (hs : P s) (as : List α) :
    Throughout step P s as :=
  run_invariant (C := fun _ _ => True) (fun s a hs _ => hstep s a hs) hs
    (fun _ _ _ _ => trivial)

/-- **The sharp invariant rule.** When `C` says exactly which of the calls keep `P`, `P`
holds throughout a run if and only if it holds at the start and every step meets `C`. -/
theorem throughout_iff_eachStep (hstep : ∀ s, ∀ a ∈ as, P s → (P (step s a) ↔ C s a)) :
    Throughout step P s as ↔ P s ∧ EachStep step C s as := by
  induction as generalizing s with
  | nil => simp
  | cons a as ih =>
    have htail := ih (s := step s a) (fun s b hb => hstep s b (List.mem_cons_of_mem a hb))
    rw [throughout_cons, eachStep_cons, htail]
    refine and_congr_right fun hs => ?_
    rw [hstep s a List.mem_cons_self hs]

/-- **Simulation by a projection.** If the projected state moves by its own transition
function, a property of the projection holds throughout a run exactly when it holds
throughout the projected run. -/
theorem throughout_map {τ : Type*} {view : σ → τ} {stepView : τ → α → τ} {Q : τ → Prop}
    (hview : ∀ s a, view (step s a) = stepView (view s) a) :
    Throughout step (fun s => Q (view s)) s as ↔ Throughout stepView Q (view s) as := by
  have hrun : ∀ done s, view (run step s done) = run stepView (view s) done := by
    intro done
    induction done with
    | nil => exact fun _ => rfl
    | cons a done ih =>
      intro s
      rw [run_cons, ih, hview, run_cons]
  unfold Throughout
  simp only [hrun]

/-- The last state of a run is one of the states passed. -/
theorem Throughout.last (h : Throughout step P s as) : P (run step s as) :=
  h as List.prefix_rfl

end Rules

/-! ## Stretches

A run that goes through different phases has no single invariant, while a property that must
survive an interruption has to hold between all of its steps. A stretch is a part of a run
with an assertion at its start, another at its end, and the property throughout. -/

section Stretches

/-- From every state with `I`, if the steps meet `C`, the calls `as` lead to a state with `J`
and pass only states with `P`. -/
def Stretch (C : σ → α → Prop) (P I J : σ → Prop) (as : List α) : Prop :=
  ∀ s, I s → EachStep step C s as → Throughout step P s as ∧ J (run step s as)

variable {step} {C : σ → α → Prop} {P I J L : σ → Prop} {as bs : List α}

theorem stretch_nil (hI : ∀ s, I s → P s) (hJ : ∀ s, I s → J s) : Stretch step C P I J [] :=
  fun s hs _ => ⟨throughout_nil.mpr (hI s hs), hJ s hs⟩

theorem stretch_single {a : α} (hI : ∀ s, I s → P s) (hJ : ∀ s, J s → P s)
    (hstep : ∀ s, I s → C s a → J (step s a)) : Stretch step C P I J [a] := by
  intro s hs hC
  have hnext : J (step s a) := hstep s hs (eachStep_cons.mp hC).1
  exact ⟨throughout_cons.mpr ⟨hI s hs, throughout_nil.mpr (hJ _ hnext)⟩, hnext⟩

theorem Stretch.append (h₁ : Stretch step C P I J as) (h₂ : Stretch step C P J L bs) :
    Stretch step C P I L (as ++ bs) := by
  intro s hs hC
  have hfirst : EachStep step C s as := by
    intro done a rest hsplit
    exact hC done a (rest ++ bs) (by rw [hsplit, List.append_assoc, List.cons_append])
  obtain ⟨hpassed, hmiddle⟩ := h₁ s hs hfirst
  obtain ⟨hpassed', hend⟩ := h₂ _ hmiddle hC.second
  refine ⟨?_, by rwa [run_append]⟩
  intro done hdone
  rcases List.prefix_or_prefix_of_prefix hdone (List.prefix_append as bs) with hshort | hlong
  · exact hpassed done hshort
  · obtain ⟨more, rfl⟩ := hlong
    rw [run_append]
    exact hpassed' more ((List.prefix_append_right_inj as).mp hdone)

/-- An optional call that keeps the assertion. -/
theorem stretch_toList {β : Type*} {f : β → α} (hI : ∀ s, I s → P s)
    (hstep : ∀ b s, I s → C s (f b) → I (step s (f b))) (b : Option β) :
    Stretch step C P I I (b.toList.map f) := by
  cases b with
  | none => exact stretch_nil hI (fun _ hs => hs)
  | some b => exact stretch_single hI hI (hstep b)

end Stretches

/-! ## Answers

A call may answer as well as move the state. Two components that answer alike at related states,
and stay related, give the same answers over whole runs. -/

section Answers

variable {τ ρ : Type*}

/-- The transition of a component that answers. -/
def next (f : σ → α → ρ × σ) (s : σ) (a : α) : σ := (f s a).2

/-- The answers of a run, in order. -/
def answers (f : σ → α → ρ × σ) : σ → List α → List ρ
  | _, [] => []
  | s, a :: as => (f s a).1 :: answers f (f s a).2 as

variable {f : σ → α → ρ × σ} {g : τ → α → ρ × τ} {R : σ → τ → Prop} {C : σ → α → Prop}

/-- **The simulation rule.** -/
theorem answers_eq_of_simulation
    (hstep : ∀ s t a, R s t → C s a → (f s a).1 = (g t a).1 ∧ R (f s a).2 (g t a).2)
    {as : List α} {s : σ} {t : τ} (h : R s t) (hC : EachStep (next f) C s as) :
    answers f s as = answers g t as ∧ R (run (next f) s as) (run (next g) t as) := by
  induction as generalizing s t with
  | nil => exact ⟨rfl, h⟩
  | cons a as ih =>
    obtain ⟨ha, has⟩ := eachStep_cons.mp hC
    obtain ⟨hanswer, hnext⟩ := hstep s t a h ha
    obtain ⟨hrest, hlast⟩ := ih hnext has
    refine ⟨?_, hlast⟩
    show (f s a).1 :: answers f (f s a).2 as = (g t a).1 :: answers g (g t a).2 as
    rw [hanswer, hrest]

end Answers

end Runs
