import StashiWallet.Runs

/-!
# Programs as lists of writes

A program that works on files, a database and memory at once has no common commit point: what
it leaves behind when it is stopped is whatever it has written so far. A `Script` is such a
program seen from a state: its writes, in order, and the result it ends with. Scripts compose
as the code does, an error ends the composition and keeps the writes made before it.

A composition is evaluated part by part: `run_bind_of_ok` and `run_bind_of_error` say what the
whole does from what its first part does. Assertions about a script that is not stopped are
triples with two postconditions, one for a value and one for an error; the rules for them follow
the primitives.
-/

/-- What a program does from a state: its writes, in order, and its result. -/
structure Script {S W : Type} (write : S → W → S) (α : Type) : Type where
  run : S → List W × Except String α

namespace Script

variable {S W α β : Type} {write : S → W → S}

/-- The state a script that is not stopped leaves behind. -/
def after (m : Script write α) (s : S) : S := Runs.run write s (m.run s).1

def result (m : Script write α) (s : S) : Except String α := (m.run s).2

instance : Monad (Script write) where
  pure a := ⟨fun _ => ([], .ok a)⟩
  bind m next := ⟨fun s =>
    match (m.run s).2 with
    | .error message => ((m.run s).1, .error message)
    | .ok a => ((m.run s).1 ++ ((next a).run (m.after s)).1, ((next a).run (m.after s)).2)⟩

def fail (message : String) : Script write α := ⟨fun _ => ([], .error message)⟩

def ensure (condition : Prop) [Decidable condition] (message : String) : Script write Unit :=
  ⟨fun _ => ([], if condition then .ok () else .error message)⟩

/-- A value worked out without a write. -/
def lift (value : Except String α) : Script write α := ⟨fun _ => ([], value)⟩

/-- A value read from the state. -/
def read (f : S → α) : Script write α := ⟨fun s => ([], .ok (f s))⟩

def state : Script write S := ⟨fun s => ([], .ok s)⟩

/-- One write, which may be refused. -/
def perform (w : W) (refused : Option String) : Script write Unit :=
  ⟨fun _ =>
    match refused with
    | none => ([w], .ok ())
    | some message => ([], .error message)⟩

/-- `let _ = …`: an error is dropped. -/
def attempt (m : Script write α) : Script write Unit := ⟨fun s => ((m.run s).1, .ok ())⟩

/-- `if let Err(e) = … { … }`: what the handler does comes after the writes made before. -/
def orElse (m : Script write α) (handler : String → Script write α) : Script write α :=
  ⟨fun s =>
    match (m.run s).2 with
    | .error message =>
      ((m.run s).1 ++ ((handler message).run (m.after s)).1,
        ((handler message).run (m.after s)).2)
    | .ok a => ((m.run s).1, .ok a)⟩

section Rules

variable {m : Script write α} {next : α → Script write β} {s : S}

theorem run_bind_of_ok {a : α} (h : m.result s = .ok a) :
    (m >>= next).run s =
      ((m.run s).1 ++ ((next a).run (m.after s)).1, (next a).result (m.after s)) := by
  change (match m.result s with
    | Except.error message => ((m.run s).1, Except.error message)
    | Except.ok a => ((m.run s).1 ++ ((next a).run (m.after s)).1, (next a).result (m.after s))) = _
  rw [h]

theorem run_bind_of_error {message : String} (h : m.result s = .error message) :
    (m >>= next).run s = ((m.run s).1, .error message) := by
  change (match m.result s with
    | Except.error message => ((m.run s).1, Except.error message)
    | Except.ok a => ((m.run s).1 ++ ((next a).run (m.after s)).1, (next a).result (m.after s))) = _
  rw [h]

theorem result_bind_of_ok {a : α} (h : m.result s = .ok a) :
    (m >>= next).result s = (next a).result (m.after s) := by
  show ((m >>= next).run s).2 = _
  rw [run_bind_of_ok h]

theorem result_bind_of_error {message : String} (h : m.result s = .error message) :
    (m >>= next).result s = .error message := by
  show ((m >>= next).run s).2 = _
  rw [run_bind_of_error h]

theorem after_bind_of_ok {a : α} (h : m.result s = .ok a) :
    (m >>= next).after s = (next a).after (m.after s) := by
  unfold after
  rw [run_bind_of_ok h]
  exact Runs.run_append _ _ _ _

theorem after_bind_of_error {message : String} (h : m.result s = .error message) :
    (m >>= next).after s = m.after s := by
  unfold after
  rw [run_bind_of_error h]

theorem run_state_bind (next : S → Script write β) (s : S) :
    (state >>= next).run s = (next s).run s := rfl

theorem run_ensure_bind {condition : Prop} [Decidable condition] {message : String}
    {next : Unit → Script write β} (h : condition) :
    (ensure condition message >>= next).run s = (next ()).run s := by
  have hok : (ensure condition message : Script write Unit).result s = .ok () :=
    if_pos h
  rw [run_bind_of_ok hok]
  rfl

theorem run_ensure_bind_of_not {condition : Prop} [Decidable condition] {message : String}
    {next : Unit → Script write β} (h : ¬ condition) :
    (ensure condition message >>= next).run s = ([], .error message) := by
  have herror : (ensure condition message : Script write Unit).result s = .error message :=
    if_neg h
  exact run_bind_of_error herror

theorem run_orElse_of_ok {handler : String → Script write α} {a : α} (h : m.result s = .ok a) :
    (m.orElse handler).run s = m.run s := by
  change (match m.result s with
    | Except.error message =>
      ((m.run s).1 ++ ((handler message).run (m.after s)).1, (handler message).result (m.after s))
    | Except.ok a => ((m.run s).1, Except.ok a)) = _
  rw [h]
  exact Prod.ext rfl h.symm

theorem run_orElse_of_error {handler : String → Script write α} {message : String}
    (h : m.result s = .error message) :
    (m.orElse handler).run s = ((m.run s).1 ++ ((handler message).run (m.after s)).1,
      (handler message).result (m.after s)) := by
  change (match m.result s with
    | Except.error message =>
      ((m.run s).1 ++ ((handler message).run (m.after s)).1, (handler message).result (m.after s))
    | Except.ok a => ((m.run s).1, Except.ok a)) = _
  rw [h]

end Rules

/-! ## Assertions -/

/-- From a state with `P` the script ends with a value and `Q`, or with an error and `E`. -/
def Triple (P : S → Prop) (m : Script write α) (Q : α → S → Prop) (E : S → Prop) : Prop :=
  ∀ s, P s →
    match m.result s with
    | .ok a => Q a (m.after s)
    | .error _ => E (m.after s)

section Triples

variable {P P' : S → Prop} {m : Script write α} {Q Q' : α → S → Prop} {R : β → S → Prop}
  {E E' : S → Prop}

theorem Triple.of_ok (h : Triple P m Q E) {s : S} (hs : P s) {a : α} (hresult : m.result s = .ok a) :
    Q a (m.after s) := by
  have hpost := h s hs
  rwa [hresult] at hpost

theorem Triple.of_error (h : Triple P m Q E) {s : S} (hs : P s) {message : String}
    (hresult : m.result s = .error message) : E (m.after s) := by
  have hpost := h s hs
  rwa [hresult] at hpost

/-- The rule of consequence. -/
theorem Triple.weaken (h : Triple P m Q E) (hP : ∀ s, P' s → P s) (hQ : ∀ a s, Q a s → Q' a s)
    (hE : ∀ s, E s → E' s) : Triple P' m Q' E' := by
  intro s hs
  have hpost := h s (hP s hs)
  cases hresult : m.result s with
  | ok a =>
    rw [hresult] at hpost
    exact hQ a _ hpost
  | error message =>
    rw [hresult] at hpost
    exact hE _ hpost

/-- What does not depend on the state moves out of the precondition. -/
theorem triple_of_and {condition : Prop} (h : condition → Triple P m Q E) :
    Triple (fun s => condition ∧ P s) m Q E :=
  fun s hs => h hs.1 s hs.2

theorem Triple.bind {next : α → Script write β} (h : Triple P m Q E)
    (hnext : ∀ a, Triple (Q a) (next a) R E) : Triple P (m >>= next) R E := by
  intro s hs
  cases hresult : m.result s with
  | ok a =>
    rw [result_bind_of_ok hresult, after_bind_of_ok hresult]
    exact hnext a _ (h.of_ok hs hresult)
  | error message =>
    rw [result_bind_of_error hresult, after_bind_of_error hresult]
    exact h.of_error hs hresult

/-- What a result tells about the state before is known after it. -/
theorem Triple.of_result (fact : α → Prop) (h : Triple P m Q E) :
    Triple (fun s => (∀ a, m.result s = .ok a → fact a) ∧ P s) m (fun a s => fact a ∧ Q a s) E := by
  intro s hs
  cases hresult : m.result s with
  | ok a => exact ⟨hs.1 a hresult, h.of_ok hs.2 hresult⟩
  | error message => exact h.of_error hs.2 hresult

theorem triple_state_bind {next : S → Script write β} (h : ∀ s, Triple P (next s) R E) :
    Triple P (state >>= next) R E :=
  Triple.bind (Q := fun _ => P) (fun _ hs => hs) h

theorem triple_ensure {condition : Prop} [Decidable condition] {message : String}
    (herror : ∀ s, P s → ¬ condition → E s) :
    Triple P (ensure condition message : Script write Unit) (fun _ s => condition ∧ P s) E := by
  intro s hs
  by_cases h : condition
  · have hok : (ensure condition message : Script write Unit).result s = .ok () := if_pos h
    rw [hok]
    exact ⟨h, hs⟩
  · have hfailed : (ensure condition message : Script write Unit).result s = .error message :=
      if_neg h
    rw [hfailed]
    exact herror s hs h

theorem triple_lift {value : Except String α} (herror : ∀ s, P s → E s) :
    Triple P (lift value : Script write α) (fun a s => value = .ok a ∧ P s) E := by
  intro s hs
  cases value with
  | ok a => exact ⟨rfl, hs⟩
  | error message => exact herror s hs

theorem triple_perform (w : W) {R : S → Prop} (h : ∀ s, P s → R (write s w)) :
    Triple P (perform w none : Script write Unit) (fun _ => R) E :=
  fun s hs => h s hs

/-- A write that may be refused. -/
theorem triple_perform_refused (w : W) (refused : Option String) {R : S → Prop}
    (h : ∀ s, P s → R (write s w)) (herror : ∀ s, P s → E s) :
    Triple P (perform w refused : Script write Unit) (fun _ => R) E := by
  cases refused with
  | none => exact triple_perform w h
  | some message => exact fun s hs => herror s hs

theorem Triple.attempt {R : S → Prop} (h : Triple P m (fun _ => R) R) :
    Triple P m.attempt (fun _ => R) E := by
  intro s hs
  have hpost := h s hs
  show R (m.after s)
  cases hresult : m.result s with
  | ok a => rwa [hresult] at hpost
  | error message => rwa [hresult] at hpost

theorem Triple.orElse {handler : String → Script write α} {R : S → Prop}
    (h : Triple P m Q R) (hhandler : ∀ message, Triple R (handler message) Q E) :
    Triple P (m.orElse handler) Q E := by
  intro s hs
  cases hresult : m.result s with
  | ok a =>
    have hrun := @run_orElse_of_ok _ _ _ _ m s handler a hresult
    have hpost := h.of_ok hs hresult
    unfold Script.result Script.after
    rw [hrun]
    change match m.result s with
      | .ok a => Q a (m.after s)
      | .error _ => E (m.after s)
    rw [hresult]
    exact hpost
  | error message =>
    have hrun := @run_orElse_of_error _ _ _ _ m s handler message hresult
    have hpost := hhandler message _ (h.of_error hs hresult)
    have hafter : (m.orElse handler).after s = (handler message).after (m.after s) := by
      unfold after
      rw [hrun]
      exact Runs.run_append _ _ _ _
    rw [hafter]
    unfold Script.result
    rw [hrun]
    exact hpost

end Triples

end Script
