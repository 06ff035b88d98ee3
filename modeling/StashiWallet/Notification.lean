import Mathlib.Logic.Function.Basic

/-!
# Waiting for a notification

A waiter makes a future of the notification, looks at the shared state, and waits on the future
when the state is not the one it wants; whoever changes the state notifies. That no change is
missed between the look and the wait rests on one promise of the primitive: a call that notifies
all waiters reaches every future that exists, whether or not it was polled before. `Notifier` is
the interface, `Notifier.Broadcasts` is the promise, and `Notify` is a primitive that keeps it:
a queue of waiters, one stored permit, and a count of the calls that notified all.
-/

namespace Notification

/-- What is done with the primitive. Futures go by the number of their waiter. -/
inductive Call where
  | listen (waiter : Nat)
  | poll (waiter : Nat)
  | forget (waiter : Nat)
  | notifyOne
  | notifyWaiters

/-- The call is made on the waiter's own future. -/
def Call.Uses (waiter : Nat) : Call → Prop
  | .listen other | .poll other | .forget other => other = waiter
  | .notifyOne | .notifyWaiters => False

/-- A notification primitive: its state before any call, and what its calls do. A poll answers
whether the future is ready, and a future that was ready is gone. -/
structure Notifier (σ : Type*) where
  idle : σ
  listen : σ → Nat → σ
  poll : σ → Nat → Bool × σ
  forget : σ → Nat → σ
  notifyOne : σ → σ
  notifyWaiters : σ → σ

namespace Notifier

variable {σ : Type*} (notifier : Notifier σ)

/-- The state after a call. -/
def apply (s : σ) : Call → σ
  | .listen waiter => notifier.listen s waiter
  | .poll waiter => (notifier.poll s waiter).2
  | .forget waiter => notifier.forget s waiter
  | .notifyOne => notifier.notifyOne s
  | .notifyWaiters => notifier.notifyWaiters s

/-- **A future that exists is reached by every call that notifies all waiters**, and is then ready
at its next poll, whatever others do in between. -/
structure Broadcasts (listening notified : σ → Nat → Prop) : Prop where
  listen : ∀ s waiter, listening (notifier.listen s waiter) waiter
  pending : ∀ s waiter, listening s waiter → (notifier.poll s waiter).1 = false →
    listening (notifier.poll s waiter).2 waiter
  broadcast : ∀ s waiter, listening s waiter → notified (notifier.notifyWaiters s) waiter
  ready : ∀ s waiter, notified s waiter → (notifier.poll s waiter).1 = true
  listening_frame : ∀ s waiter call, listening s waiter → ¬ call.Uses waiter →
    listening (notifier.apply s call) waiter
  notified_frame : ∀ s waiter call, notified s waiter → ¬ call.Uses waiter →
    notified (notifier.apply s call) waiter

end Notifier

/-! ## A queue, a permit and a count -/

/-- A future: made when so many calls had notified all, in the queue, or notified. -/
inductive Future where
  | absent
  | created (seen : Nat)
  | waiting
  | notified (one : Bool)
deriving DecidableEq, Repr

/-- The future exists, and was made when at most that many calls had notified all. -/
def Future.Awaits (broadcasts : Nat) : Future → Prop
  | .absent => False
  | .created seen => seen ≤ broadcasts
  | .waiting | .notified _ => True

structure Notify where
  permit : Bool
  broadcasts : Nat
  queue : List Nat
  futures : Nat → Future

namespace Notify

variable (s : Notify)

def toFuture (waiter : Nat) (future : Future) : Notify :=
  { s with futures := Function.update s.futures waiter future }

/-- The first waiter of the queue is notified; without one, the permit is stored. -/
def notifyOne : Notify :=
  match s.queue with
  | [] => { s with permit := true }
  | waiter :: rest => { s.toFuture waiter (.notified true) with queue := rest }

def notifyWaiters : Notify :=
  { s with
    broadcasts := s.broadcasts + 1
    queue := []
    futures := fun waiter =>
      match s.futures waiter with
      | .waiting => .notified false
      | future => future }

def poll (waiter : Nat) : Bool × Notify :=
  match s.futures waiter with
  | .absent => (false, s)
  | .created seen =>
    if s.permit then (true, { s.toFuture waiter .absent with permit := false })
    else if s.broadcasts ≠ seen then (true, s.toFuture waiter .absent)
    else (false, { s.toFuture waiter .waiting with queue := s.queue ++ [waiter] })
  | .waiting => (false, s)
  | .notified _ => (true, s.toFuture waiter .absent)

/-- A waiter that was notified alone and goes without taking it passes the notification on. -/
def forget (waiter : Nat) : Notify :=
  match s.futures waiter with
  | .waiting => { s.toFuture waiter .absent with queue := s.queue.erase waiter }
  | .notified true => (s.toFuture waiter .absent).notifyOne
  | _ => s.toFuture waiter .absent

end Notify

def notify : Notifier Notify where
  idle := ⟨false, 0, [], fun _ => .absent⟩
  listen s waiter := s.toFuture waiter (.created s.broadcasts)
  poll := Notify.poll
  forget := Notify.forget
  notifyOne := Notify.notifyOne
  notifyWaiters := Notify.notifyWaiters

namespace Notify

/-- The waiter's future exists. -/
def Listening (s : Notify) (waiter : Nat) : Prop := (s.futures waiter).Awaits s.broadcasts

/-- The waiter's future exists and all waiters, or this one, were notified since. -/
def Notified (s : Notify) (waiter : Nat) : Prop :=
  match s.futures waiter with
  | .created seen => seen < s.broadcasts
  | .notified _ => True
  | .absent | .waiting => False

/-- A call on other futures leaves this one, or notifies it, and forgets no broadcast. -/
def Spares (s after : Notify) (waiter : Nat) : Prop :=
  s.broadcasts ≤ after.broadcasts ∧
    (after.futures waiter = s.futures waiter ∨ ∃ one, after.futures waiter = .notified one)

variable {s after : Notify} {waiter other : Nat}

theorem listening_of_eq {future : Future} (hfuture : s.futures waiter = future)
    (h : future.Awaits s.broadcasts) : s.Listening waiter := by
  unfold Listening
  rw [hfuture]
  exact h

theorem Spares.listening (h : s.Spares after waiter) (hlistening : s.Listening waiter) :
    after.Listening waiter := by
  obtain ⟨hcount, hsame | ⟨one, hnotified⟩⟩ := h
  · refine listening_of_eq hsame ?_
    unfold Listening at hlistening
    cases hfuture : s.futures waiter with
    | absent =>
      rw [hfuture] at hlistening
      exact hlistening
    | created seen =>
      rw [hfuture] at hlistening
      exact Nat.le_trans hlistening hcount
    | waiting => trivial
    | notified one => trivial
  · exact listening_of_eq hnotified trivial

theorem Spares.notified (h : s.Spares after waiter) (hnotified : s.Notified waiter) :
    after.Notified waiter := by
  obtain ⟨hcount, hsame | ⟨one, hnow⟩⟩ := h
  · unfold Notified at *
    rw [hsame]
    split at hnotified
    · exact Nat.lt_of_lt_of_le hnotified hcount
    · trivial
    · exact hnotified
    · exact hnotified
  · unfold Notified
    rw [hnow]
    trivial

theorem toFuture_spares (future : Future) (hother : other ≠ waiter) :
    s.Spares (s.toFuture other future) waiter :=
  ⟨Nat.le_refl _, .inl (Function.update_of_ne hother.symm _ _)⟩

theorem notifyOne_spares : s.Spares s.notifyOne waiter := by
  unfold notifyOne
  split
  · exact ⟨Nat.le_refl _, .inl rfl⟩
  · rename_i first rest _
    rcases eq_or_ne first waiter with rfl | hfirst
    · exact ⟨Nat.le_refl _, .inr ⟨true, Function.update_self _ _ _⟩⟩
    · exact ⟨Nat.le_refl _, .inl (Function.update_of_ne hfirst.symm _ _)⟩

theorem notifyWaiters_spares : s.Spares s.notifyWaiters waiter := by
  refine ⟨Nat.le_succ _, ?_⟩
  unfold notifyWaiters
  dsimp only
  split
  · exact .inr ⟨false, rfl⟩
  · exact .inl rfl

theorem poll_spares (hother : other ≠ waiter) : s.Spares (s.poll other).2 waiter := by
  have hgone : ∀ future, (s.toFuture other future).futures waiter = s.futures waiter :=
    fun _ => Function.update_of_ne hother.symm _ _
  unfold poll
  split
  · exact ⟨Nat.le_refl _, .inl rfl⟩
  · split
    · exact ⟨Nat.le_refl _, .inl (hgone _)⟩
    · split
      · exact toFuture_spares _ hother
      · exact ⟨Nat.le_refl _, .inl (hgone _)⟩
  · exact ⟨Nat.le_refl _, .inl rfl⟩
  · exact toFuture_spares _ hother

theorem forget_spares (hother : other ≠ waiter) : s.Spares (s.forget other) waiter := by
  unfold forget
  split
  · exact ⟨Nat.le_refl _, .inl (Function.update_of_ne hother.symm _ _)⟩
  · obtain ⟨hcount, hsame | hnotified⟩ :=
      @notifyOne_spares (s.toFuture other .absent) waiter
    · exact ⟨hcount, .inl (hsame.trans (Function.update_of_ne hother.symm _ _))⟩
    · exact ⟨hcount, .inr hnotified⟩
  · exact toFuture_spares _ hother

theorem apply_spares (s : Notify) (call : Call) (huses : ¬ call.Uses waiter) :
    s.Spares (notify.apply s call) waiter := by
  cases call with
  | listen other => exact toFuture_spares _ huses
  | poll other => exact poll_spares huses
  | forget other => exact forget_spares huses
  | notifyOne => exact notifyOne_spares
  | notifyWaiters => exact notifyWaiters_spares

theorem listening_poll (s : Notify) (waiter : Nat) (h : s.Listening waiter)
    (hpending : (s.poll waiter).1 = false) : (s.poll waiter).2.Listening waiter := by
  unfold poll at *
  split at hpending
  · exact h
  · split at hpending
    · cases hpending
    · rename_i hpermit
      rw [if_neg hpermit]
      split at hpending
      · cases hpending
      · rename_i hseen
        rw [if_neg hseen]
        exact listening_of_eq (Function.update_self _ _ _) trivial
  · exact h
  · cases hpending

theorem notified_notifyWaiters (s : Notify) (waiter : Nat) (h : s.Listening waiter) :
    s.notifyWaiters.Notified waiter := by
  unfold Listening at h
  unfold Notified notifyWaiters
  dsimp only
  cases hfuture : s.futures waiter with
  | absent =>
    rw [hfuture] at h
    exact h
  | created seen =>
    rw [hfuture] at h
    exact Nat.lt_succ_of_le h
  | waiting => trivial
  | notified one => trivial

theorem poll_of_notified (s : Notify) (waiter : Nat) (h : s.Notified waiter) :
    (s.poll waiter).1 = true := by
  unfold Notified at h
  unfold poll
  split at h
  · rename_i seen hcreated
    rw [hcreated]
    dsimp only
    split
    · rfl
    · rw [if_pos (Nat.ne_of_gt h)]
  · rename_i one hnotified
    rw [hnotified]
  · exact h.elim
  · exact h.elim

end Notify

theorem notify_broadcasts : notify.Broadcasts Notify.Listening Notify.Notified where
  listen s waiter := by
    exact Notify.listening_of_eq (Function.update_self _ _ _) (Nat.le_refl s.broadcasts)
  pending := Notify.listening_poll
  broadcast := Notify.notified_notifyWaiters
  ready := Notify.poll_of_notified
  listening_frame s _ call h huses := (s.apply_spares call huses).listening h
  notified_frame s _ call h huses := (s.apply_spares call huses).notified h

end Notification
