import Mathlib.Logic.Function.Basic
import Mathlib.Logic.Relation

/-!
# Interleaved calls on a shared store

A call is a tree: it runs one atomic statement at a time and goes on with the reply. Calls
that share no transaction interleave statement by statement, so a machine is a pool of such
trees over one store, and a step lets one of them run its next statement. What a statement
may answer, and what it leaves in the store, is a relation, so a statement can also fail.

Two rules carry the proofs. `Prog.Obeys` is a weakest precondition for a call on its own: a
**monitor** reads the call's statements and replies, and every statement must be one that
the monitor permits (`Machine.permits_of_reach`). An **assertion** ties a monitor's view to
the store: a call establishes its own, and no other call's statement may break it
(`Machine.assertion_of_reach`). Which steps a run may take is a parameter, so the second
condition can be asked of the runs and not of the statements.
-/

namespace Interleaving

/-- A call: an atomic statement and, for each reply to it, the rest of the call. -/
inductive Prog (S : Type) (R : S → Type) (α : Type) where
  | ret (a : α)
  | step (s : S) (k : R s → Prog S R α)

namespace Prog

variable {S : Type} {R : S → Type} {α β : Type}

/-- One call after another. -/
def bind : Prog S R α → (α → Prog S R β) → Prog S R β
  | .ret a, f => f a
  | .step s k, f => .step s (fun r => (k r).bind f)

instance : Monad (Prog S R) where
  pure := .ret
  bind := Prog.bind

/-- A single statement. -/
def call (s : S) : Prog S R (R s) := .step s .ret

section Alone

variable {σ : Type} (env : σ → (s : S) → R s × σ)

/-- A call that no other interrupts, on a store that answers as `env` says. -/
def alone : Prog S R α → σ → α × σ
  | .ret a, shared => (a, shared)
  | .step s k, shared => alone (k (env shared s).1) (env shared s).2

@[simp]
theorem alone_bind (p : Prog S R α) (f : α → Prog S R β) (shared : σ) :
    (p >>= f).alone env shared
      = (f (p.alone env shared).1).alone env (p.alone env shared).2 := by
  induction p generalizing shared with
  | ret a => rfl
  | step s k ih => exact ih (env shared s).1 (env shared s).2

end Alone

end Prog

/-- An automaton that reads one call's statements and their replies. -/
structure Monitor (S : Type) (R : S → Type) (V : Type) where
  start : V
  next : V → (s : S) → R s → V
  Permits : V → S → Prop

section Calls

variable {S : Type} {R : S → Type} {V α β : Type} (M : Monitor S R V)

/-- From view `v` on, every statement the call runs is one the monitor permits, and `Q`
holds of the view and the value it ends with. -/
def Prog.Obeys (Q : V → α → Prop) : V → Prog S R α → Prop
  | v, .ret a => Q v a
  | v, .step s k => M.Permits v s ∧ ∀ r, Prog.Obeys Q (M.next v s r) (k r)

variable {M} {Q : V → α → Prop} {v : V}

@[simp]
theorem Prog.obeys_pure {a : α} : Prog.Obeys M Q v (pure a) ↔ Q v a := Iff.rfl

variable {p : Prog S R α}

@[simp]
theorem Prog.obeys_bind {Q : V → β → Prop} {f : α → Prog S R β} :
    Prog.Obeys M Q v (p >>= f) ↔ Prog.Obeys M (fun w a => Prog.Obeys M Q w (f a)) v p := by
  induction p generalizing v with
  | ret a => exact Iff.rfl
  | step s k ih =>
    exact and_congr_right fun _ => forall_congr' fun r => ih r

theorem Prog.Obeys.imp {Q' : V → α → Prop} (h : Prog.Obeys M Q v p) (hQ : ∀ w a, Q w a → Q' w a) :
    Prog.Obeys M Q' v p := by
  induction p generalizing v with
  | ret a => exact hQ v a h
  | step s k ih => exact ⟨h.1, fun r => ih r (h.2 r)⟩

/-- The view and the value a call ends with, on a store that answers as `env` says. -/
def Prog.watched {σ : Type} (M : Monitor S R V) (env : σ → (s : S) → R s × σ) :
    V → Prog S R α → σ → V × α
  | v, .ret a, _ => (v, a)
  | v, .step s k, shared =>
    Prog.watched M env (M.next v s (env shared s).1) (k (env shared s).1) (env shared s).2

theorem Prog.Obeys.watched {σ : Type} (h : Prog.Obeys M Q v p) (env : σ → (s : S) → R s × σ)
    (shared : σ) : Q (Prog.watched M env v p shared).1 (Prog.watched M env v p shared).2 := by
  induction p generalizing v shared with
  | ret a => exact h
  | step s k ih => exact ih _ (h.2 _) _

end Calls

/-- One statement of one call, with its reply. -/
structure Event (ι S : Type) (R : S → Type) where
  thread : ι
  stmt : S
  reply : R stmt

/-- The calls in progress, the store, and what has happened so far. -/
structure Machine (ι S : Type) (R : S → Type) (α σ : Type) where
  pool : ι → Prog S R α
  shared : σ
  history : List (Event ι S R)

namespace Machine

variable {ι S : Type} {R : S → Type} {V α σ : Type}

/-- The monitor's view of a list of statements. -/
def viewOf (M : Monitor S R V) (events : List (Event ι S R)) : V :=
  events.foldl (fun v e => M.next v e.stmt e.reply) M.start

@[simp]
theorem viewOf_concat (M : Monitor S R V) (events : List (Event ι S R)) (e : Event ι S R) :
    viewOf M (events ++ [e]) = M.next (viewOf M events) e.stmt e.reply := by
  simp [viewOf]

/-- A view other than the first one is due to a last statement. -/
theorem concat_of_viewOf_eq {M : Monitor S R V} {events : List (Event ι S R)} {v : V}
    (h : viewOf M events = v) (hv : v ≠ M.start) :
    ∃ before e, events = before ++ [e] ∧ M.next (viewOf M before) e.stmt e.reply = v := by
  obtain rfl | ⟨before, e, rfl⟩ := List.eq_nil_or_concat events
  · exact absurd h.symm hv
  · exact ⟨before, e, by simp, by simpa using h⟩

variable [DecidableEq ι]

/-- The machine before any statement has run. -/
def start (pool : ι → Prog S R α) (shared : σ) : Machine ι S R α σ := ⟨pool, shared, []⟩

/-- Call `i` has run a statement: `k` remains of it. -/
def after (m : Machine ι S R α σ) (e : Event ι S R) (k : Prog S R α) (shared : σ) :
    Machine ι S R α σ where
  pool := Function.update m.pool e.thread k
  shared := shared
  history := m.history ++ [e]

variable (exec : σ → (s : S) → R s → σ → Prop)

/-- One call runs its next statement. -/
inductive Step (m : Machine ι S R α σ) (e : Event ι S R) : Machine ι S R α σ → Prop where
  | run (k : R e.stmt → Prog S R α) (shared : σ) (hpool : m.pool e.thread = .step e.stmt k)
      (hexec : exec m.shared e.stmt e.reply shared) : Step m e (m.after e (k e.reply) shared)

/-- The machines a run reaches by steps that are all `allowed`. -/
def Reach (allowed : Machine ι S R α σ → Event ι S R → Prop) :
    Machine ι S R α σ → Machine ι S R α σ → Prop :=
  Relation.ReflTransGen (fun m m' => ∃ e, Step exec m e m' ∧ allowed m e)

/-- A run whose steps are allowed by more. -/
theorem Reach.mono {exec : σ → (s : S) → R s → σ → Prop}
    {allowed allowed' : Machine ι S R α σ → Event ι S R → Prop}
    (h : ∀ m e, allowed m e → allowed' m e) {m m' : Machine ι S R α σ}
    (hreach : Reach exec allowed m m') : Reach exec allowed' m m' := by
  induction hreach with
  | refl => exact .refl
  | tail _ hstep ih =>
    obtain ⟨e, hrun, hallowed⟩ := hstep
    exact ih.tail ⟨e, hrun, h _ e hallowed⟩

/-- What call `i` has done so far. -/
def own (i : ι) (history : List (Event ι S R)) : List (Event ι S R) :=
  history.filter (fun e => e.thread = i)

variable {e : Event ι S R}

theorem thread_of_mem_own {i : ι} {history : List (Event ι S R)} (h : e ∈ own i history) :
    e.thread = i := by
  simpa using (List.mem_filter.mp h).2

theorem own_concat_self (e : Event ι S R) (history : List (Event ι S R)) :
    own e.thread (history ++ [e]) = own e.thread history ++ [e] := by
  simp [own]

theorem own_concat_of_ne {i : ι} (h : i ≠ e.thread) (history : List (Event ι S R)) :
    own i (history ++ [e]) = own i history := by
  simp [own, Ne.symm h]

variable {exec} {allowed : Machine ι S R α σ → Event ι S R → Prop} {M : Monitor S R V}

variable {pool : ι → Prog S R α} {m : Machine ι S R α σ} {shared : σ}

/-- Calls that obey the monitor from the start obey it from their view on, whatever the
others do. -/
theorem obeys_of_reach (hpool : ∀ i, Prog.Obeys M (fun _ _ => True) M.start (pool i))
    (h : Reach exec allowed (start pool shared) m) (i : ι) :
    Prog.Obeys M (fun _ _ => True) (viewOf M (own i m.history)) (m.pool i) := by
  induction h with
  | refl => exact hpool i
  | tail _ hstep ih =>
    obtain ⟨e, ⟨k, shared', hk, -⟩, -⟩ := hstep
    by_cases hi : i = e.thread
    · subst hi
      rw [hk] at ih
      simpa [after, own_concat_self] using ih.2 e.reply
    · simpa [after, own_concat_of_ne hi, hi] using ih

/-- Every statement that runs is one the monitor permits in the caller's view. -/
theorem permits_of_reach {m m' : Machine ι S R α σ}
    (hpool : ∀ i, Prog.Obeys M (fun _ _ => True) M.start (pool i))
    (h : Reach exec allowed (start pool shared) m) (hstep : Step exec m e m') :
    M.Permits (viewOf M (own e.thread m.history)) e.stmt := by
  obtain ⟨k, shared', hk, -⟩ := hstep
  have hobeys := obeys_of_reach hpool h e.thread
  rw [hk] at hobeys
  exact hobeys.1

/-- **Interference freedom.** An assertion that holds at the start, that a call's own
statements carry from view to view, and that no allowed statement of another call breaks,
holds of every call in every machine reached. -/
theorem assertion_of_reach {A : ι → V → Prog S R α → σ → Prop}
    (hstart : ∀ i, A i M.start (pool i) shared)
    (hown : ∀ i v s k r before after, A i v (.step s k) before → exec before s r after →
      A i (M.next v s r) (k r) after)
    (hothers : ∀ m m' e, Step exec m e m' → allowed m e → ∀ i, i ≠ e.thread →
      A i (viewOf M (own i m.history)) (m.pool i) m.shared →
      A i (viewOf M (own i m.history)) (m.pool i) m'.shared)
    (h : Reach exec allowed (start pool shared) m) (i : ι) :
    A i (viewOf M (own i m.history)) (m.pool i) m.shared := by
  induction h with
  | refl => exact hstart i
  | @tail m₁ m₂ _ hstep ih =>
    obtain ⟨e, hrun, hallowed⟩ := hstep
    by_cases hi : i = e.thread
    · obtain ⟨k, shared', hk, hexec⟩ := hrun
      subst hi
      rw [hk] at ih
      simpa [after, own_concat_self] using hown _ _ _ _ _ _ _ ih hexec
    · have hkept := hothers m₁ m₂ e hrun hallowed i hi ih
      obtain ⟨k, shared', hk, hexec⟩ := hrun
      simpa [after, own_concat_of_ne hi, hi] using hkept

/-- What every statement keeps holds of the store in every machine reached. -/
theorem shared_of_reach {P : σ → Prop}
    (hexec : ∀ s r before after, P before → exec before s r after → P after) (hstart : P shared)
    (h : Reach exec allowed (start pool shared) m) : P m.shared := by
  induction h with
  | refl => exact hstart
  | tail _ hstep ih =>
    obtain ⟨e, ⟨k, shared', -, hrun⟩, -⟩ := hstep
    exact hexec e.stmt e.reply _ _ ih hrun

/-- Interference freedom for assertions that do not look at the view. -/
theorem pool_of_reach {A : ι → Prog S R α → σ → Prop} {pool : ι → Prog S R α} {shared : σ}
    {m : Machine ι S R α σ} (hstart : ∀ i, A i (pool i) shared)
    (hown : ∀ i s k r before after, A i (.step s k) before → exec before s r after →
      A i (k r) after)
    (hothers : ∀ m m' e, Step exec m e m' → allowed m e → ∀ i, i ≠ e.thread →
      A i (m.pool i) m.shared → A i (m.pool i) m'.shared)
    (h : Reach exec allowed (start pool shared) m) (i : ι) : A i (m.pool i) m.shared :=
  assertion_of_reach (M := ⟨(), fun _ _ _ => (), fun _ _ => True⟩) (A := fun i _ => A i) hstart
    (fun i _ => hown i) hothers h i

/-! ## Runs that can be evaluated -/

/-- Call `i` runs its next statement, if it has one, with the answer `env` gives. -/
def fire (env : σ → (s : S) → R s × σ) (m : Machine ι S R α σ) (i : ι) : Machine ι S R α σ :=
  match m.pool i with
  | .ret _ => m
  | .step s k =>
    m.after ⟨i, s, (env m.shared s).1⟩ (k (env m.shared s).1) (env m.shared s).2

theorem step_fire {env : σ → (s : S) → R s × σ}
    (henv : ∀ shared s, exec shared s (env shared s).1 (env shared s).2) {i : ι} {s : S}
    {k : R s → Prog S R α} (h : m.pool i = .step s k) :
    Step exec m ⟨i, s, (env m.shared s).1⟩ (fire env m i) := by
  let e : Event ι S R := ⟨i, s, (env m.shared s).1⟩
  have hfire : fire env m i = m.after e (k e.reply) (env m.shared s).2 := by
    simp only [fire, h, e]
  rw [hfire]
  exact Step.run (e := e) k _ h (henv m.shared s)

/-- A schedule of calls is a run, when `env` answers as the statements may. -/
theorem reach_schedule {env : σ → (s : S) → R s × σ}
    (henv : ∀ shared s, exec shared s (env shared s).1 (env shared s).2)
    (hallowed : ∀ m e, allowed m e) (m : Machine ι S R α σ) (schedule : List ι) :
    Reach exec allowed m (schedule.foldl (fire env) m) := by
  induction schedule generalizing m with
  | nil => exact .refl
  | cons i rest ih =>
    refine Relation.ReflTransGen.trans ?_ (ih (fire env m i))
    cases hpool : m.pool i with
    | ret a =>
      have hdone : fire env m i = m := by simp only [fire, hpool]
      rw [hdone]
    | step s k => exact .single ⟨_, step_fire henv hpool, hallowed m _⟩

/-- Call `i` runs its next statement, unless it has none or the statement waits. -/
def attempt (env : σ → (s : S) → Option (R s × σ)) (m : Machine ι S R α σ) (i : ι) :
    Machine ι S R α σ :=
  match m.pool i with
  | .ret _ => m
  | .step s k =>
    match env m.shared s with
    | some (r, shared) => m.after ⟨i, s, r⟩ (k r) shared
    | none => m

/-- A schedule of attempts is a run, when `env` answers as the statements may. -/
theorem reach_attempts {env : σ → (s : S) → Option (R s × σ)}
    (henv : ∀ shared s r after, env shared s = some (r, after) → exec shared s r after)
    (hallowed : ∀ m e, allowed m e) (m : Machine ι S R α σ) (schedule : List ι) :
    Reach exec allowed m (schedule.foldl (attempt env) m) := by
  induction schedule generalizing m with
  | nil => exact .refl
  | cons i rest ih =>
    refine Relation.ReflTransGen.trans ?_ (ih (attempt env m i))
    unfold attempt
    split
    · exact .refl
    · rename_i s k hpool
      split
      · rename_i r shared hrun
        exact .single ⟨_, Step.run (e := ⟨i, s, r⟩) k shared hpool (henv _ _ _ _ hrun),
          hallowed m _⟩
      · exact .refl

end Machine

end Interleaving
