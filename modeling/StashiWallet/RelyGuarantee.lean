import StashiWallet.Interleaving

/-!
# Rely and guarantee

A call that shares its store with others can count on what the others never do. The **rely** of
a call is a preorder on stores that every statement of every other call moves along; its
**guarantee** is what it promises of its own statements. `Prog.Guarded` is the weakest
precondition under interference: before each statement the others may have moved the store along
the rely, and the statement has to keep the invariant and the guarantee. When every guarantee
implies the relies of the others, the calls may be proved one at a time
(`Machine.guarded_of_reach`).
-/

namespace Interleaving

section Alone

variable {S : Type} {R : S → Type} {σ α β : Type} (exec : σ → (s : S) → R s → σ → Prop)
  (inv : σ → Prop) (rely : σ → σ → Prop) (guar : σ → (s : S) → R s → σ → Prop)

/-- From `shared` on, whatever the others do within the rely, the call keeps the invariant and
the guarantee, and `Q` holds when it returns. -/
def Prog.Guarded (Q : α → σ → Prop) : Prog S R α → σ → Prop
  | .ret a, shared => Q a shared
  | .step s k, shared => ∀ before, rely shared before → inv before → ∀ r after,
      exec before s r after → (inv after ∧ guar before s r after) ∧ Prog.Guarded Q (k r) after

variable {exec inv rely guar} {Q : α → σ → Prop} {shared : σ}

@[simp]
theorem Prog.guarded_pure {a : α} :
    Prog.Guarded exec inv rely guar Q (pure a : Prog S R α) shared ↔ Q a shared := Iff.rfl

theorem Prog.guarded_bind {Q : β → σ → Prop} {p : Prog S R α} {f : α → Prog S R β} :
    Prog.Guarded exec inv rely guar Q (p >>= f) shared ↔
      Prog.Guarded exec inv rely guar
        (fun a shared => Prog.Guarded exec inv rely guar Q (f a) shared) p shared := by
  induction p generalizing shared with
  | ret a => exact Iff.rfl
  | step s k ih =>
    refine forall_congr' fun before => forall_congr' fun _ => forall_congr' fun _ =>
      forall_congr' fun r => forall_congr' fun after => forall_congr' fun _ => ?_
    exact and_congr_right fun _ => ih r

theorem Prog.Guarded.imp {Q' : α → σ → Prop} {p : Prog S R α}
    (h : Prog.Guarded exec inv rely guar Q p shared) (hQ : ∀ a shared, Q a shared → Q' a shared) :
    Prog.Guarded exec inv rely guar Q' p shared := by
  induction p generalizing shared with
  | ret a => exact hQ a shared h
  | step s k ih =>
    intro before hrely hinv r after hexec
    obtain ⟨hkept, hrest⟩ := h before hrely hinv r after hexec
    exact ⟨hkept, ih r hrest⟩

/-- What holds of the rest of a call survives the others' statements. -/
theorem Prog.Guarded.stable {s : S} {k : R s → Prog S R α} {shared' : σ}
    (htrans : ∀ a b c, rely a b → rely b c → rely a c)
    (h : Prog.Guarded exec inv rely guar Q (.step s k) shared) (hrely : rely shared shared') :
    Prog.Guarded exec inv rely guar Q (.step s k) shared' := by
  intro before hbefore
  exact h before (htrans _ _ _ hrely hbefore)

end Alone

namespace Machine

variable {ι S : Type} {R : S → Type} {σ α : Type} [DecidableEq ι]
  {exec : σ → (s : S) → R s → σ → Prop} {allowed : Machine ι S R α σ → Event ι S R → Prop}
  {inv : σ → Prop} {rely : ι → σ → σ → Prop} {guar : ι → σ → (s : S) → R s → σ → Prop}
  {Q : ι → α → σ → Prop} {pool : ι → Prog S R α} {shared : σ} {m m' : Machine ι S R α σ}
  {e : Event ι S R}

/-- Every call in progress is still guarded, and the invariant holds. -/
def Outlined (exec : σ → (s : S) → R s → σ → Prop) (inv : σ → Prop) (rely : ι → σ → σ → Prop)
    (guar : ι → σ → (s : S) → R s → σ → Prop) (Q : ι → α → σ → Prop)
    (m : Machine ι S R α σ) : Prop :=
  inv m.shared ∧ ∀ i s k, m.pool i = .step s k →
    Prog.Guarded exec inv (rely i) (guar i) (Q i) (.step s k) m.shared

variable (hrefl : ∀ i shared, rely i shared shared)

include hrefl

/-- A step of an outlined machine: the guarantee is met, and what is left of the call is
guarded. -/
theorem Outlined.own (h : Outlined exec inv rely guar Q m) (hstep : Step exec m e m') :
    (inv m'.shared ∧ guar e.thread m.shared e.stmt e.reply m'.shared) ∧
      Prog.Guarded exec inv (rely e.thread) (guar e.thread) (Q e.thread) (m'.pool e.thread)
        m'.shared := by
  obtain ⟨k, shared', hk, hexec⟩ := hstep
  obtain ⟨hkept, hrest⟩ :=
    h.2 e.thread e.stmt k hk m.shared (hrefl e.thread m.shared) h.1 e.reply shared' hexec
  refine ⟨hkept, ?_⟩
  simpa [after] using hrest

theorem Outlined.step (htrans : ∀ i a b c, rely i a b → rely i b c → rely i a c)
    (hothers : ∀ i j before s r after, j ≠ i → guar i before s r after → rely j before after)
    (h : Outlined exec inv rely guar Q m) (hstep : Step exec m e m') :
    Outlined exec inv rely guar Q m' := by
  obtain ⟨⟨hinv, hguar⟩, hrest⟩ := h.own hrefl hstep
  refine ⟨hinv, ?_⟩
  intro i s k hi
  by_cases hself : i = e.thread
  · subst hself
    rwa [hi] at hrest
  · have hmoved : rely i m.shared m'.shared := hothers _ _ _ _ _ _ hself hguar
    obtain ⟨k', shared', -, -⟩ := hstep
    have hsame : m.pool i = .step s k := by simpa [after, hself] using hi
    exact (h.2 i s k hsame).stable (htrans i) hmoved

/-- **The rely-guarantee rule.** Calls that are guarded one by one are guarded together, when
each call's guarantee keeps to the relies of the others. -/
theorem guarded_of_reach (htrans : ∀ i a b c, rely i a b → rely i b c → rely i a c)
    (hothers : ∀ i j before s r after, j ≠ i → guar i before s r after → rely j before after)
    (hinv : inv shared) (hpool : ∀ i, Prog.Guarded exec inv (rely i) (guar i) (Q i) (pool i) shared)
    (h : Reach exec allowed (start pool shared) m) : Outlined exec inv rely guar Q m := by
  induction h with
  | refl =>
    refine ⟨hinv, ?_⟩
    intro i s k hi
    have hi' : pool i = .step s k := hi
    have hguarded := hpool i
    rwa [hi'] at hguarded
  | tail _ hstep ih =>
    obtain ⟨e, hrun, -⟩ := hstep
    exact ih.step hrefl htrans hothers hrun

end Machine

end Interleaving
