import StashiWallet.Notification
import StashiWallet.PrefetchWatermarks

/-!
# Wake-ups of the prefetch queue

A reserver that finds no room waits for `changed`, and the drop of a reservation notifies it.
Flag, counter and notification are three operations, and the reserver makes its future before it
loads the counter. A state here is a state of the queue with the notification, the futures of the
reservers and the drops that have yet to notify. The queue itself moves as `PrefetchWatermarks`
does.
-/

namespace StashiWallet

open Notification

/-- The future a reserver holds: none, one it has not waited on yet, or one it is parked on. -/
inductive ReserveFuture where
  | absent
  | created
  | parked
deriving DecidableEq, Repr

/-- The queue, the state of `changed`, the reservers' futures, and of each drop between its last
store to the flag and its notification the bytes that remained. -/
structure PrefetchWakeups (σ : Type) where
  watermarks : PrefetchWatermarks
  changed : σ
  futures : List ReserveFuture
  notifying : List Nat

/-- What the reservers and the holders of reservations do. -/
inductive WakeupEvent where
  | reserve (encodedBytes : Nat)
  | reserveDurableSegment (encodedBytes : Nat)
  | listen (task : Nat)
  | run (task : Nat) (exchangeFails : Bool)
  | poll (task : Nat)
  | cancel (task : Nat)
  | clone (reservation : Nat)
  | drop (reservation : Nat)
  | release (reservation : Nat)
  | notify (release : Nat)
deriving DecidableEq, Repr

/-- The bytes that remained, for a drop that stands before its last store to the flag. -/
def PrefetchReservation.remaining : PrefetchReservation → List Nat
  | ⟨_, _, .notifying remaining⟩ => [remaining]
  | _ => []

/-- The notification that is next for the drop that takes the step. -/
def PrefetchWatermarks.notifies (watermarks : PrefetchWatermarks) : PrefetchEvent → List Nat
  | .release index => watermarks.reservations[index]?.toList.flatMap PrefetchReservation.remaining
  | _ => []

namespace PrefetchWakeups

variable {σ : Type} (notifier : Notifier σ)

def new (highBytes lowBytes : Nat) : PrefetchWakeups σ where
  watermarks := PrefetchWatermarks.new highBytes lowBytes
  changed := notifier.idle
  futures := []
  notifying := []

variable (s : PrefetchWakeups σ)

/-- The reserver stands before its next operation, with the future it needs for it. -/
def stageOf (task : Nat) : Option (ReserveStage × ReserveFuture) :=
  match s.watermarks.tasks[task]?, s.futures[task]? with
  | some task, some future => some (task.stage, future)
  | _, _ => none

/-- The reserver holds the given future. -/
def toFuture (task : Nat) (future : ReserveFuture) : PrefetchWakeups σ :=
  { s with futures := s.futures.set task future }

/-- The queue moves. What a drop leaves is kept until its notification is sent. -/
def move (event : PrefetchEvent) : PrefetchWakeups σ :=
  { s with
    watermarks := s.watermarks.step event
    notifying := s.notifying ++ s.watermarks.notifies event }

/-- The notification at the end of a drop. -/
def notified (remaining : Nat) : σ :=
  if remaining ≤ s.watermarks.lowBytes then notifier.notifyWaiters s.changed
  else notifier.notifyOne s.changed

/-- The reserver's future is dropped when it has its reservation. -/
def settle (task : Nat) : PrefetchWakeups σ :=
  match s.stageOf task with
  | some (.reserved, .created) =>
    { s.toFuture task .absent with changed := notifier.forget s.changed task }
  | _ => s

/-- One event. What cannot happen does nothing. -/
def step (s : PrefetchWakeups σ) : WakeupEvent → PrefetchWakeups σ
  | .reserve encodedBytes =>
    { s.move (.reserve encodedBytes) with futures := s.futures ++ [.absent] }
  | .reserveDurableSegment encodedBytes =>
    { s.move (.reserveDurableSegment encodedBytes) with futures := s.futures ++ [.absent] }
  | .listen task =>
    match s.stageOf task with
    | some (.loading, .absent) =>
      { s.toFuture task .created with changed := notifier.listen s.changed task }
    | _ => s
  | .run task exchangeFails =>
    match s.stageOf task with
    | some (_, .created) => (s.move (.run task exchangeFails)).settle notifier task
    | _ => s
  | .poll task =>
    match s.stageOf task with
    | some (.waiting, .created) | some (.waiting, .parked) =>
      match notifier.poll s.changed task with
      | (true, changed) =>
        { (s.move (.notified task)).toFuture task .absent with changed := changed }
      | (false, changed) => { s.toFuture task .parked with changed := changed }
    | _ => s
  | .cancel task =>
    match s.stageOf task with
    | some (.waiting, .created) | some (.waiting, .parked) =>
      { (s.move (.cancel task)).toFuture task .absent with
        changed := notifier.forget s.changed task }
    | _ => s
  | .clone reservation => s.move (.clone reservation)
  | .drop reservation => s.move (.drop reservation)
  | .release reservation => s.move (.release reservation)
  | .notify release =>
    match s.notifying[release]? with
    | some remaining =>
      { s with
        changed := s.notified notifier remaining
        notifying := s.notifying.eraseIdx release }
    | none => s

end PrefetchWakeups

/-! ## The queue, seen from the outside -/

/-- The operation is one on a reservation. -/
def PrefetchEvent.ofReservation : PrefetchEvent → Bool
  | .clone _ | .drop _ | .release _ => true
  | _ => false

namespace PrefetchWatermarks

/-- What one operation of a task does to the reservations and the counter, with the notification
that it puts next. -/
inductive Moves (s after : PrefetchWatermarks) : List Nat → Prop
  | quiet (hreservations : after.reservations = s.reservations)
      (hqueued : after.queuedBytes = s.queuedBytes) : Moves s after []
  | exchange (task : ReserveTask) (htask : task ∈ s.tasks)
      (hroom : saturatingAdd s.queuedBytes task.chargedBytes ≤ s.highBytes)
      (hreservations : after.reservations = s.reservations ++ [⟨task.chargedBytes, 1, .held⟩])
      (hqueued : after.queuedBytes = saturatingAdd s.queuedBytes task.chargedBytes) :
      Moves s after []
  | shared (index : Nat) (reservation next : PrefetchReservation)
      (hreservation : s.reservations[index]? = some reservation)
      (hclones : 0 < reservation.clones) (hcharge : next.chargedBytes = reservation.chargedBytes)
      (hnext : reservation.stage = .held → (next.stage = .held ↔ 0 < next.clones))
      (hreservations : after.reservations = s.reservations.set index next)
      (hqueued : after.queuedBytes = s.queuedBytes) : Moves s after []
  | subtract (index : Nat) (reservation : PrefetchReservation)
      (hreservation : s.reservations[index]? = some reservation)
      (hstage : reservation.stage = .dropping)
      (hreservations : after.reservations = s.reservations.set index
        { reservation with stage := .notifying (s.queuedBytes - reservation.chargedBytes) })
      (hqueued : after.queuedBytes = (s.queuedBytes + 18446744073709551616 -
        reservation.chargedBytes) % 18446744073709551616) : Moves s after []
  | notifies (index : Nat) (reservation : PrefetchReservation) (remaining : Nat)
      (hreservation : s.reservations[index]? = some reservation)
      (hstage : reservation.stage = .notifying remaining)
      (hreservations : after.reservations = s.reservations.set index
        { reservation with stage := .dropped })
      (hqueued : after.queuedBytes = s.queuedBytes) : Moves s after [remaining]

variable (s : PrefetchWatermarks)

variable {task : ReserveTask}

theorem moves_runReserve (index : Nat) (htask : task ∈ s.tasks) (exchangeFails : Bool) :
    s.Moves (s.runReserve index task exchangeFails) [] := by
  unfold runReserve
  split
  · exact .quiet rfl rfl
  · split <;> exact .quiet rfl rfl
  · exact .quiet rfl rfl
  · split
    · rename_i hexchange
      obtain ⟨hroom, -, rfl⟩ := hexchange
      exact .exchange task htask hroom rfl rfl
    · exact .quiet rfl rfl
  all_goals exact .quiet rfl rfl

variable {index : Nat}

theorem moves_runDrop {reservation : PrefetchReservation}
    (hreservation : s.reservations[index]? = some reservation) :
    s.Moves (s.runDrop index reservation) reservation.remaining := by
  obtain ⟨chargedBytes, clones, stage⟩ := reservation
  cases stage with
  | held => exact .quiet rfl rfl
  | dropping => exact .subtract index _ hreservation rfl rfl rfl
  | notifying remaining => exact .notifies index _ remaining hreservation rfl rfl rfl
  | dropped => exact .quiet rfl rfl

theorem moves_step (event : PrefetchEvent) : s.Moves (s.step event) (s.notifies event) := by
  unfold step notifies
  cases event with
  | reserve encodedBytes => exact .quiet rfl rfl
  | reserveDurableSegment encodedBytes => exact .quiet rfl rfl
  | run index exchangeFails =>
    dsimp only
    split
    · rename_i task htask
      exact s.moves_runReserve index (List.mem_of_getElem? htask) exchangeFails
    · exact .quiet rfl rfl
  | notified index | cancel index =>
    dsimp only
    split
    · split <;> exact .quiet rfl rfl
    · exact .quiet rfl rfl
  | clone index =>
    dsimp only
    split
    · rename_i reservation hreservation
      split
      · exact .quiet rfl rfl
      · rename_i hclones
        refine .shared index reservation { reservation with clones := reservation.clones + 1 }
          hreservation (Nat.pos_of_ne_zero hclones) rfl ?_ rfl rfl
        exact fun hheld => iff_of_true hheld (Nat.succ_pos _)
    · exact .quiet rfl rfl
  | drop index =>
    dsimp only
    split
    · rename_i reservation hreservation
      split
      · exact .quiet rfl rfl
      · rename_i hclones
        refine .shared index reservation
          { reservation with
            clones := reservation.clones - 1
            stage := if reservation.clones = 1 then .dropping else reservation.stage }
          hreservation (Nat.pos_of_ne_zero hclones) rfl ?_ rfl rfl
        intro hheld
        dsimp only
        split
        · exact iff_of_false nofun (by omega)
        · exact iff_of_true hheld (by omega)
    · exact .quiet rfl rfl
  | release index =>
    dsimp only
    cases hreservation : s.reservations[index]? with
    | none => exact .quiet rfl rfl
    | some reservation =>
      have hmoves := s.moves_runDrop hreservation
      simpa using hmoves

theorem lowBytes_step (event : PrefetchEvent) : (s.step event).lowBytes = s.lowBytes := by
  unfold step runReserve runDrop
  cases event <;> dsimp only <;> repeat' split
  all_goals rfl

/-- Charges and counter are within their bounds, and a reservation is held while it is shared. -/
structure Charged (s : PrefetchWatermarks) : Prop where
  fits : s.highBytes ≤ u64Max
  queued : s.queuedBytes ≤ u64Max
  tasks : ∀ task ∈ s.tasks, 0 < task.chargedBytes ∧ task.chargedBytes ≤ s.highBytes
  reservations : ∀ reservation ∈ s.reservations, reservation.chargedBytes ≤ s.highBytes
  clones : ∀ reservation ∈ s.reservations, reservation.stage = .held ↔ 0 < reservation.clones

/-- What one operation does to the list of tasks. -/
inductive Tasks (s after : PrefetchWatermarks) : Prop
  | same (h : after.tasks = s.tasks)
  | stage (index : Nat) (stage : ReserveStage) (h : after.tasks = (s.toStage index stage).tasks)
  | call (chargedBytes : Nat) (hpos : 0 < chargedBytes) (hbound : chargedBytes ≤ s.highBytes)
      (h : after.tasks = s.tasks ++ [⟨chargedBytes, .loading⟩])

theorem tasks_runReserve (index : Nat) (task : ReserveTask) (exchangeFails : Bool) :
    s.Tasks (s.runReserve index task exchangeFails) := by
  unfold runReserve
  split
  · exact .stage index _ rfl
  · split <;> exact .stage index _ rfl
  · exact .stage index _ rfl
  · split <;> exact .stage index _ rfl
  · exact .stage index _ rfl
  all_goals exact .same rfl

theorem tasks_step (hpos : 0 < s.highBytes) (event : PrefetchEvent) : s.Tasks (s.step event) := by
  unfold step
  cases event with
  | reserve encodedBytes =>
    refine .call (min (max encodedBytes 1) s.highBytes) ?_ (Nat.min_le_right _ _) rfl
    exact Nat.lt_min.mpr ⟨by omega, hpos⟩
  | reserveDurableSegment encodedBytes =>
    refine .call (min (max encodedBytes 1) s.segmentAdmissionBytes) ?_ ?_ rfl
    · unfold segmentAdmissionBytes
      omega
    · unfold segmentAdmissionBytes
      omega
  | run index exchangeFails =>
    dsimp only
    split
    · exact s.tasks_runReserve index _ exchangeFails
    · exact .same rfl
  | notified index | cancel index =>
    dsimp only
    split
    · split
      · exact .stage index _ rfl
      · exact .same rfl
    · exact .same rfl
  | clone index | drop index =>
    dsimp only
    split
    · split <;> exact .same rfl
    · exact .same rfl
  | release index =>
    dsimp only
    split
    · unfold runDrop
      split <;> exact .same rfl
    · exact .same rfl

theorem toStage_tasks (index : Nat) (stage : ReserveStage) (task : Nat) :
    (s.toStage index stage).tasks[task]? =
      if index = task then s.tasks[task]?.map fun task => { task with stage := stage }
      else s.tasks[task]? := by
  unfold toStage
  rw [List.getElem?_modify]
  split
  · rfl
  · exact Option.map_id'

theorem charged_of_mem_toStage {stage : ReserveStage} (h : task ∈ (s.toStage index stage).tasks) :
    ∃ old ∈ s.tasks, old.chargedBytes = task.chargedBytes := by
  obtain ⟨at', hat⟩ := List.getElem?_of_mem h
  rw [toStage_tasks] at hat
  split at hat
  · obtain ⟨old, hold, rfl⟩ := Option.map_eq_some_iff.mp hat
    exact ⟨old, List.mem_of_getElem? hold, rfl⟩
  · exact ⟨task, List.mem_of_getElem? hat, rfl⟩

variable {s}

theorem Charged.step (h : s.Charged) (hpos : 0 < s.highBytes) (event : PrefetchEvent) :
    (s.step event).Charged := by
  have hhigh := s.highBytes_step event
  have htasks : ∀ task ∈ (s.step event).tasks,
      0 < task.chargedBytes ∧ task.chargedBytes ≤ s.highBytes := by
    intro task htask
    cases s.tasks_step hpos event with
    | same hsame => exact h.tasks task (hsame ▸ htask)
    | stage index stage hstage =>
      obtain ⟨old, hold, hcharge⟩ := s.charged_of_mem_toStage (hstage ▸ htask)
      exact hcharge ▸ h.tasks old hold
    | call chargedBytes hcharge hbound hcall =>
      rcases List.mem_append.mp (hcall ▸ htask) with hold | hnew
      · exact h.tasks task hold
      · rw [List.mem_singleton.mp hnew]
        exact ⟨hcharge, hbound⟩
  have hfits := h.fits
  have hqueued := h.queued
  have hset : ∀ {index reservation next}, s.reservations[index]? = some reservation →
      next.chargedBytes = reservation.chargedBytes →
      (next.stage = .held ↔ 0 < next.clones) →
      ∀ other ∈ s.reservations.set index next, other.chargedBytes ≤ s.highBytes ∧
        (other.stage = .held ↔ 0 < other.clones) := by
    intro index reservation next hreservation hcharge hnext other hother
    rcases List.mem_or_eq_of_mem_set hother with hold | rfl
    · exact ⟨h.reservations other hold, h.clones other hold⟩
    · exact ⟨hcharge ▸ h.reservations reservation (List.mem_of_getElem? hreservation), hnext⟩
  have hgone : ∀ {index : Nat} {reservation}, s.reservations[index]? = some reservation →
      reservation.stage ≠ .held → ¬ 0 < reservation.clones := by
    intro index reservation hreservation hstage hclones
    exact hstage ((h.clones reservation (List.mem_of_getElem? hreservation)).mpr hclones)
  suffices hrest : (s.step event).queuedBytes ≤ u64Max ∧
      ∀ reservation ∈ (s.step event).reservations, reservation.chargedBytes ≤ s.highBytes ∧
        (reservation.stage = .held ↔ 0 < reservation.clones) by
    refine ⟨hhigh ▸ hfits, hrest.1, hhigh ▸ htasks, ?_, fun other hother => (hrest.2 other hother).2⟩
    exact fun other hother => hhigh ▸ (hrest.2 other hother).1
  have hmoves := s.moves_step event
  generalize s.notifies event = due at hmoves
  cases hmoves with
  | quiet hreservations hsame =>
    rw [hreservations, hsame]
    exact ⟨hqueued, fun other hother => ⟨h.reservations other hother, h.clones other hother⟩⟩
  | exchange task htask hroom hreservations hsum =>
    rw [hreservations, hsum]
    refine ⟨hroom.trans hfits, fun other hother => ?_⟩
    rcases List.mem_append.mp hother with hold | hnew
    · exact ⟨h.reservations other hold, h.clones other hold⟩
    · rw [List.mem_singleton.mp hnew]
      exact ⟨(h.tasks task htask).2, iff_of_true rfl Nat.one_pos⟩
  | shared index reservation next hreservation hclones hcharge hnext hreservations hsame =>
    rw [hreservations, hsame]
    have hheld := (h.clones reservation (List.mem_of_getElem? hreservation)).mpr hclones
    exact ⟨hqueued, hset hreservation hcharge (hnext hheld)⟩
  | subtract index reservation hreservation hstage hreservations hsum =>
    rw [hreservations, hsum]
    have hclones := hgone hreservation (hstage ▸ nofun)
    refine ⟨?_, hset hreservation rfl (iff_of_false nofun hclones)⟩
    unfold u64Max
    omega
  | notifies index reservation remaining hreservation hstage hreservations hsame =>
    rw [hreservations, hsame]
    have hclones := hgone hreservation (hstage ▸ nofun)
    exact ⟨hqueued, hset hreservation rfl (iff_of_false nofun hclones)⟩

/-- What a task's next operation makes of its stage. -/
inductive Progress (s : PrefetchWatermarks) (chargedBytes : Nat) (exchangeFails : Bool) :
    ReserveStage → ReserveStage → Prop
  | load : Progress s chargedBytes exchangeFails .loading (.loaded s.queuedBytes)
  | wait (queued : Nat) (h : s.lowBytes < queued) :
      Progress s chargedBytes exchangeFails (.loaded queued) .waiting
  | proceed (queued : Nat) :
      Progress s chargedBytes exchangeFails (.loaded queued) (.unthrottling queued)
  | unthrottle (queued : Nat) :
      Progress s chargedBytes exchangeFails (.unthrottling queued) (.exchanging queued)
  | exchange (queued : Nat) :
      Progress s chargedBytes exchangeFails (.exchanging queued) .reserved
  | refuse (queued : Nat) (h : ¬ (saturatingAdd queued chargedBytes ≤ s.highBytes ∧
        exchangeFails = false ∧ s.queuedBytes = queued)) :
      Progress s chargedBytes exchangeFails (.exchanging queued) .throttling
  | throttle : Progress s chargedBytes exchangeFails .throttling .waiting
  | rest (stage : ReserveStage)
      (h : stage = .waiting ∨ stage = .reserved ∨ stage = .cancelled) :
      Progress s chargedBytes exchangeFails stage stage

theorem progress_run (htask : s.tasks[index]? = some task) (exchangeFails : Bool) :
    ∃ next, (s.step (.run index exchangeFails)).tasks[index]? =
        some { task with stage := next } ∧
      s.Progress task.chargedBytes exchangeFails task.stage next := by
  have hself : ∀ stage, (s.toStage index stage).tasks[index]? =
      some { task with stage := stage } := by
    intro stage
    rw [toStage_tasks, if_pos rfl, htask]
    rfl
  have hrun : s.step (.run index exchangeFails) = s.runReserve index task exchangeFails := by
    unfold PrefetchWatermarks.step
    simp only [htask]
  rw [hrun]
  obtain ⟨chargedBytes, stage⟩ := task
  unfold runReserve
  cases stage with
  | loading => exact ⟨_, hself _, .load⟩
  | loaded queued =>
    dsimp only
    split
    · rename_i hthrottled
      rw [Bool.and_eq_true, decide_eq_true_eq] at hthrottled
      exact ⟨_, hself _, .wait queued hthrottled.2⟩
    · exact ⟨_, hself _, .proceed queued⟩
  | unthrottling queued => exact ⟨_, hself _, .unthrottle queued⟩
  | exchanging queued =>
    dsimp only
    split
    · exact ⟨_, hself _, .exchange queued⟩
    · rename_i hrefused
      exact ⟨_, hself _, .refuse queued hrefused⟩
  | throttling => exact ⟨_, hself _, .throttle⟩
  | waiting => exact ⟨_, htask, .rest _ (.inl rfl)⟩
  | reserved => exact ⟨_, htask, .rest _ (.inr (.inl rfl))⟩
  | cancelled => exact ⟨_, htask, .rest _ (.inr (.inr rfl))⟩

/-- An operation of a task leaves the list of tasks as it is or moves this task to a stage. -/
theorem tasks_run (index : Nat) (exchangeFails : Bool) :
    (s.step (.run index exchangeFails)).tasks = s.tasks ∨
      ∃ stage, (s.step (.run index exchangeFails)).tasks = (s.toStage index stage).tasks := by
  unfold PrefetchWatermarks.step
  dsimp only
  split
  · unfold runReserve
    split
    · exact .inr ⟨_, rfl⟩
    · split <;> exact .inr ⟨_, rfl⟩
    · exact .inr ⟨_, rfl⟩
    · split <;> exact .inr ⟨_, rfl⟩
    · exact .inr ⟨_, rfl⟩
    all_goals exact .inl rfl
  · exact .inl rfl

/-- A task's operation is none of the others' business. -/
theorem run_other {index other : Nat} (hother : index ≠ other) (exchangeFails : Bool) :
    (s.step (.run index exchangeFails)).tasks[other]? = s.tasks[other]? := by
  obtain hkept | ⟨stage, hmoved⟩ := s.tasks_run index exchangeFails
  · rw [hkept]
  · rw [hmoved, toStage_tasks, if_neg hother]

@[simp]
theorem length_toStage (index : Nat) (stage : ReserveStage) :
    (s.toStage index stage).tasks.length = s.tasks.length := List.length_modify _ _ _

theorem length_run (index : Nat) (exchangeFails : Bool) :
    (s.step (.run index exchangeFails)).tasks.length = s.tasks.length := by
  obtain hkept | ⟨stage, hmoved⟩ := s.tasks_run index exchangeFails
  · rw [hkept]
  · rw [hmoved, length_toStage]

/-- Reservations that are shared and dropped leave the tasks where they are. -/
theorem tasks_kept {event : PrefetchEvent} (h : event.ofReservation = true) :
    (s.step event).tasks = s.tasks := by
  unfold PrefetchWatermarks.step
  cases event with
  | clone index | drop index =>
    dsimp only
    split
    · split <;> rfl
    · rfl
  | release index =>
    dsimp only
    split
    · unfold runDrop
      split <;> rfl
    · rfl
  | reserve _ | reserveDurableSegment _ | run _ _ | notified _ | cancel _ => cases h

theorem step_notified (htask : s.tasks[index]? = some task) (hwaiting : task.stage = .waiting) :
    s.step (.notified index) = s.toStage index .loading := by
  unfold PrefetchWatermarks.step
  simp only [htask, hwaiting, if_true]

theorem step_cancel (htask : s.tasks[index]? = some task) (hwaiting : task.stage = .waiting) :
    s.step (.cancel index) = s.toStage index .cancelled := by
  unfold PrefetchWatermarks.step
  simp only [htask, hwaiting, if_true]

/-- Something is in the queue, or a drop that took it to the low watermark has yet to notify. -/
def Busy (s : PrefetchWatermarks) (notifying : List Nat) : Prop :=
  s.queuedBytes ≠ 0 ∨
    (∃ reservation ∈ s.reservations, ∃ remaining ∈ reservation.remaining,
      remaining ≤ s.lowBytes) ∨
    ∃ remaining ∈ notifying, remaining ≤ s.lowBytes

/-- The operation that empties the queue is a subtraction, and its drop has yet to notify. -/
theorem Busy.step {notifying : List Nat} (h : s.Busy notifying) (hcharged : s.Charged)
    (event : PrefetchEvent) : (s.step event).Busy (notifying ++ s.notifies event) := by
  have hlow := s.lowBytes_step event
  unfold Busy
  rw [hlow]
  have hlater : ∀ {more}, (∃ remaining ∈ notifying, remaining ≤ s.lowBytes) →
      ∃ remaining ∈ notifying ++ more, remaining ≤ s.lowBytes :=
    fun ⟨remaining, hremaining, hle⟩ => ⟨remaining, List.mem_append_left _ hremaining, hle⟩
  have hset : ∀ {index reservation next}, s.reservations[index]? = some reservation →
      reservation.remaining = [] →
      (∃ other ∈ s.reservations, ∃ remaining ∈ other.remaining, remaining ≤ s.lowBytes) →
      ∃ other ∈ s.reservations.set index next, ∃ remaining ∈ other.remaining,
        remaining ≤ s.lowBytes := by
    rintro index reservation next hreservation hnone ⟨other, hother, remaining, hremaining, hle⟩
    obtain ⟨at', hat⟩ := List.getElem?_of_mem hother
    rcases eq_or_ne index at' with rfl | hne
    · rw [hat] at hreservation
      obtain rfl := Option.some.inj hreservation
      rw [hnone] at hremaining
      cases hremaining
    · refine ⟨other, ?_, remaining, hremaining, hle⟩
      exact List.mem_of_getElem? ((List.getElem?_set_ne hne).trans hat)
  have hnone : ∀ {reservation : PrefetchReservation},
      (∀ remaining, reservation.stage ≠ .notifying remaining) → reservation.remaining = [] := by
    rintro ⟨chargedBytes, clones, stage⟩ hstage
    cases stage with
    | notifying remaining => exact absurd rfl (hstage remaining)
    | held | dropping | dropped => rfl
  have hmoves := s.moves_step event
  generalize s.notifies event = due at hmoves
  cases hmoves with
  | quiet hreservations hsame =>
    rw [hreservations, hsame]
    exact h.imp_right (Or.imp_right hlater)
  | exchange task htask hroom hreservations hsum =>
    left
    have hpos := (hcharged.tasks task htask).1
    have hsum' : (s.step event).queuedBytes = min (s.queuedBytes + task.chargedBytes) u64Max := hsum
    have hmax : 0 < u64Max := by decide
    omega
  | shared index reservation next hreservation hclones hcharge hnext hreservations hsame =>
    rw [hreservations, hsame]
    have hheld := (hcharged.clones reservation (List.mem_of_getElem? hreservation)).mpr hclones
    exact h.imp_right (Or.imp (hset hreservation (hnone fun remaining => hheld ▸ nofun)) hlater)
  | subtract index reservation hreservation hstage hreservations hsum =>
    rw [hreservations, hsum]
    rcases h with hqueued | hstopped | hnotifying
    · by_cases hempty : s.queuedBytes = reservation.chargedBytes
      · -- the drop found exactly its own charge, and nothing remained
        right
        left
        refine ⟨_, List.mem_set (List.getElem?_eq_some_iff.mp hreservation).1 _,
          s.queuedBytes - reservation.chargedBytes, List.mem_singleton_self _, ?_⟩
        omega
      · left
        have hcharge := (hcharged.reservations reservation
          (List.mem_of_getElem? hreservation)).trans hcharged.fits
        have hbound := hcharged.queued
        unfold u64Max at hcharge hbound
        omega
    · exact .inr (.inl (hset hreservation (hnone fun remaining => hstage ▸ nofun) hstopped))
    · exact .inr (.inr (hlater hnotifying))
  | notifies index reservation remaining hreservation hstage hreservations hsame =>
    rw [hreservations, hsame]
    rcases h with hqueued | ⟨other, hother, due, hdue, hle⟩ | hnotifying
    · exact .inl hqueued
    · obtain ⟨at', hat⟩ := List.getElem?_of_mem hother
      rcases eq_or_ne index at' with rfl | hne
      · -- the drop that stopped there is the one that goes on
        rw [hat] at hreservation
        obtain rfl := Option.some.inj hreservation
        obtain ⟨chargedBytes, clones, stage⟩ := other
        cases hstage
        exact .inr (.inr ⟨due, List.mem_append_right _ hdue, hle⟩)
      · refine .inr (.inl ⟨other, ?_, due, hdue, hle⟩)
        exact List.mem_of_getElem? ((List.getElem?_set_ne hne).trans hat)
    · exact .inr (.inr (hlater hnotifying))

end PrefetchWatermarks

namespace PrefetchWakeups

variable {σ : Type} {notifier : Notifier σ} (listening notified : σ → Nat → Prop)

section Invariant

variable (s : PrefetchWakeups σ)

/-- The reserver was notified with all others since it made its future, or it need not be yet:
something is in the queue, or the drop that emptied it has yet to notify. -/
def Due (task : Nat) : Prop :=
  notified s.changed task ∨ s.watermarks.Busy s.notifying

/-- What a reserver at a stage can count on. From the load on it holds a future; and when it has
seen a queue that is not empty, it will be notified. -/
def Heard (task : Nat) : ReserveStage → ReserveFuture → Prop
  | .loading, future =>
    future = .absent ∨ future = .created ∧ listening s.changed task
  | .loaded queued, future | .unthrottling queued, future | .exchanging queued, future =>
    future = .created ∧ listening s.changed task ∧ (queued ≠ 0 → s.Due notified task)
  | .throttling, future => future = .created ∧ listening s.changed task ∧ s.Due notified task
  | .waiting, future => future ≠ .absent ∧ listening s.changed task ∧ s.Due notified task
  | .reserved, future | .cancelled, future => future = .absent

structure Watched : Prop where
  charged : s.watermarks.Charged
  positive : 0 < s.watermarks.highBytes
  aligned : s.futures.length = s.watermarks.tasks.length
  heard : ∀ task stage future, s.stageOf task = some (stage, future) →
    s.Heard listening notified task stage future

/-- A weak exchange that expects an empty queue and finds it does not fail, unless the reserver is
due a notification of all. -/
def Prompt : WakeupEvent → Prop
  | .run task true =>
    s.stageOf task = some (.exchanging 0, .created) → s.Due notified task
  | _ => True

end Invariant

variable {listening notified} {s after : PrefetchWakeups σ}

/-- What others do leaves a reserver's future as it is, or notifies it. -/
structure Spares (listening notified : σ → Nat → Prop) (s after : PrefetchWakeups σ)
    (task : Nat) : Prop where
  listens : listening s.changed task → listening after.changed task
  owed : listening s.changed task → s.Due notified task → after.Due notified task

variable {task : Nat}

theorem Heard.spared {stage : ReserveStage} {future : ReserveFuture}
    (h : s.Heard listening notified task stage future)
    (hspares : Spares listening notified s after task) :
    after.Heard listening notified task stage future := by
  cases stage with
  | loading => exact h.imp_right fun hcreated => ⟨hcreated.1, hspares.listens hcreated.2⟩
  | loaded queued | unthrottling queued | exchanging queued =>
    obtain ⟨hcreated, hlistening, hdue⟩ := h
    exact ⟨hcreated, hspares.listens hlistening, fun hq => hspares.owed hlistening (hdue hq)⟩
  | throttling | waiting =>
    obtain ⟨hcreated, hlistening, hdue⟩ := h
    exact ⟨hcreated, hspares.listens hlistening, hspares.owed hlistening hdue⟩
  | reserved | cancelled => exact h

theorem stageOf_eq_some {stage : ReserveStage} {future : ReserveFuture} :
    s.stageOf task = some (stage, future) ↔
      ∃ reserver, s.watermarks.tasks[task]? = some reserver ∧ reserver.stage = stage ∧
        s.futures[task]? = some future := by
  unfold stageOf
  constructor
  · intro h
    split at h
    · rename_i reserver found htask hfuture
      obtain ⟨rfl, rfl⟩ := Prod.mk.inj (Option.some.inj h)
      exact ⟨reserver, htask, rfl, hfuture⟩
    · cases h
  · rintro ⟨reserver, htask, rfl, hfuture⟩
    rw [htask, hfuture]

theorem stageOf_congr (htasks : after.watermarks.tasks[task]? = s.watermarks.tasks[task]?)
    (hfutures : after.futures[task]? = s.futures[task]?) : after.stageOf task = s.stageOf task := by
  unfold stageOf
  rw [htasks, hfutures]

variable (h : s.Watched listening notified)

include h

/-- One reserver acts, and the others are spared. -/
theorem Watched.acts (task : Nat) (hcharged : after.watermarks.Charged)
    (hpositive : 0 < after.watermarks.highBytes)
    (haligned : after.futures.length = after.watermarks.tasks.length)
    (hothers : ∀ other, other ≠ task → after.stageOf other = s.stageOf other ∧
      Spares listening notified s after other)
    (hself : ∀ stage future, after.stageOf task = some (stage, future) →
      after.Heard listening notified task stage future) : after.Watched listening notified := by
  refine ⟨hcharged, hpositive, haligned, fun other stage future hother => ?_⟩
  rcases eq_or_ne other task with rfl | hne
  · exact hself stage future hother
  · obtain ⟨hsame, hspares⟩ := hothers other hne
    exact (h.heard other stage future (hsame ▸ hother)).spared hspares

/-- All reservers are spared. -/
theorem Watched.spared (hcharged : after.watermarks.Charged)
    (hpositive : 0 < after.watermarks.highBytes)
    (haligned : after.futures.length = after.watermarks.tasks.length)
    (hothers : ∀ other, after.stageOf other = s.stageOf other ∧
      Spares listening notified s after other) : after.Watched listening notified := by
  refine ⟨hcharged, hpositive, haligned, fun other stage future hother => ?_⟩
  obtain ⟨hsame, hspares⟩ := hothers other
  exact (h.heard other stage future (hsame ▸ hother)).spared hspares

theorem Watched.move_charged (event : PrefetchEvent) :
    (s.move event).watermarks.Charged ∧ 0 < (s.move event).watermarks.highBytes :=
  ⟨h.charged.step h.positive event, (s.watermarks.highBytes_step event).symm ▸ h.positive⟩

/-- The queue moves, and the notification does not. -/
theorem Watched.spares_move (event : PrefetchEvent) (task : Nat) :
    Spares listening notified s (s.move event) task where
  listens hlistening := hlistening
  owed _ hdue := hdue.imp_right fun hbusy => hbusy.step h.charged event

omit h

theorem getElem?_concat_of_ne {α : Type} {l : List α} {a : α} {i : Nat} (h : i ≠ l.length) :
    (l ++ [a])[i]? = l[i]? := by
  rw [List.getElem?_append]
  split
  · rfl
  · rw [List.getElem?_eq_none (by simp; omega), List.getElem?_eq_none (by omega)]

theorem future_of_set {futures : List ReserveFuture} {next future : ReserveFuture}
    (h : (futures.set task next)[task]? = some future) : future = next := by
  obtain ⟨hlt, -⟩ := List.getElem?_eq_some_iff.mp h
  rw [List.getElem?_set_self (by simpa using hlt)] at h
  exact (Option.some.inj h).symm

/-- A call waits for nothing yet. -/
theorem Watched.call (h : s.Watched listening notified) {event : PrefetchEvent}
    {chargedBytes : Nat} (hcall : (s.watermarks.step event).tasks =
      s.watermarks.tasks ++ [⟨chargedBytes, .loading⟩]) :
    Watched listening notified { s.move event with futures := s.futures ++ [.absent] } := by
  obtain ⟨hcharged, hpositive⟩ := h.move_charged event
  refine h.acts s.futures.length hcharged hpositive ?_ (fun other hother => ⟨?_, ?_⟩) ?_
  · show (s.futures ++ [ReserveFuture.absent]).length = (s.watermarks.step event).tasks.length
    rw [hcall, List.length_append, List.length_append, h.aligned]
    rfl
  · refine stageOf_congr ?_ (getElem?_concat_of_ne hother)
    show (s.watermarks.step event).tasks[other]? = _
    rw [hcall]
    exact getElem?_concat_of_ne (h.aligned ▸ hother)
  · exact ⟨(h.spares_move event other).listens, (h.spares_move event other).owed⟩
  · intro stage future hnew
    obtain ⟨reserver, htask, rfl, hfuture⟩ := stageOf_eq_some.mp hnew
    have htask : (s.watermarks.step event).tasks[s.futures.length]? = some reserver := htask
    have hfuture : (s.futures ++ [ReserveFuture.absent])[s.futures.length]? = some future := hfuture
    rw [List.getElem?_concat_length] at hfuture
    rw [hcall, h.aligned, List.getElem?_concat_length] at htask
    obtain rfl := Option.some.inj htask
    exact .inl (Option.some.inj hfuture).symm

/-- A reserver at the given stage, whose operation keeps the reservation's promise. -/
theorem Heard.progress {stage next : ReserveStage} {chargedBytes : Nat} {exchangeFails : Bool}
    (h : s.Heard listening notified task stage .created)
    (hbound : chargedBytes ≤ s.watermarks.highBytes)
    (hprogress : s.watermarks.Progress chargedBytes exchangeFails stage next)
    (hprompt : stage = .exchanging 0 → exchangeFails = true → s.Due notified task) :
    next = .reserved ∨ s.Heard listening notified task next .created := by
  cases hprogress with
  | load =>
    rcases h with habsent | ⟨-, hlistening⟩
    · cases habsent
    · exact .inr ⟨rfl, hlistening, fun hqueued => .inr (.inl hqueued)⟩
  | wait queued hlow =>
    obtain ⟨-, hlistening, hdue⟩ := h
    exact .inr ⟨nofun, hlistening, hdue (by omega)⟩
  | proceed queued => exact .inr h
  | unthrottle queued => exact .inr h
  | exchange queued => exact .inl rfl
  | refuse queued hrefused =>
    obtain ⟨-, hlistening, hdue⟩ := h
    refine .inr ⟨rfl, hlistening, ?_⟩
    rcases Nat.eq_zero_or_pos queued with rfl | hpos
    · -- an empty queue has room for every charge
      have hroom : saturatingAdd 0 chargedBytes ≤ s.watermarks.highBytes := by
        unfold saturatingAdd
        omega
      by_cases hempty : s.watermarks.queuedBytes = 0
      · refine hprompt rfl ?_
        by_contra hfails
        exact hrefused ⟨hroom, Bool.eq_false_of_not_eq_true hfails, hempty⟩
      · exact .inr (.inl hempty)
    · exact hdue (Nat.ne_of_gt hpos)
  | throttle =>
    obtain ⟨-, hlistening, hdue⟩ := h
    exact .inr ⟨nofun, hlistening, hdue⟩
  | rest stage hstage =>
    rcases hstage with rfl | rfl | rfl
    · exact .inr h
    · exact .inl rfl
    · cases h

section Steps

variable (hlaws : notifier.Broadcasts listening notified)
include hlaws

/-- A call on the notification that is not on the reserver's own future. -/
theorem spares_call {task : Nat} (call : Call) (huses : ¬ call.Uses task)
    (hchanged : after.changed = notifier.apply s.changed call)
    (hbusy : s.watermarks.Busy s.notifying → after.watermarks.Busy after.notifying) :
    Spares listening notified s after task where
  listens h := hchanged ▸ hlaws.listening_frame _ _ call h huses
  owed _ h := h.imp (fun hnotified => hchanged ▸ hlaws.notified_frame _ _ call hnotified huses) hbusy

variable (h : s.Watched listening notified)

include h

/-- A reserver has left the wait, and its future is gone. -/
theorem Watched.leaves {task : Nat} {event : PrefetchEvent} {stage : ReserveStage} {changed : σ}
    (call : Call) (hstage : s.watermarks.step event = s.watermarks.toStage task stage)
    (hnext : stage = .loading ∨ stage = .cancelled)
    (hchanged : changed = notifier.apply s.changed call)
    (hcall : ∀ other, call.Uses other → other = task) :
    Watched listening notified { (s.move event).toFuture task .absent with changed := changed } := by
  obtain ⟨hcharged, hpositive⟩ := h.move_charged event
  refine h.acts task hcharged hpositive ?_ (fun other hother => ⟨?_, ?_⟩) ?_
  · show (s.futures.set task .absent).length = (s.watermarks.step event).tasks.length
    rw [hstage, List.length_set, PrefetchWatermarks.length_toStage, h.aligned]
  · refine stageOf_congr ?_ (List.getElem?_set_ne hother.symm)
    show (s.watermarks.step event).tasks[other]? = _
    rw [hstage, PrefetchWatermarks.toStage_tasks, if_neg hother.symm]
  · exact spares_call hlaws call (fun huses => hother (hcall other huses)) hchanged
      fun hbusy => hbusy.step h.charged event
  · intro stage' future hself
    obtain ⟨reserver, htask, rfl, hfuture⟩ := stageOf_eq_some.mp hself
    have htask : (s.watermarks.step event).tasks[task]? = some reserver := htask
    obtain rfl := future_of_set hfuture
    rw [hstage, PrefetchWatermarks.toStage_tasks, if_pos rfl] at htask
    obtain ⟨before, -, rfl⟩ := Option.map_eq_some_iff.mp htask
    rcases hnext with rfl | rfl
    · exact .inl rfl
    · rfl

/-- A reserver's operation. -/
theorem Watched.run (task : Nat) (exchangeFails : Bool)
    (hprompt : s.Prompt notified (.run task exchangeFails)) :
    (s.step notifier (.run task exchangeFails)).Watched listening notified := by
  unfold PrefetchWakeups.step
  dsimp only
  split
  swap
  · exact h
  rename_i stage hstage
  obtain ⟨reserver, htask, rfl, hfuture⟩ := stageOf_eq_some.mp hstage
  obtain ⟨next, hnext, hprogress⟩ := s.watermarks.progress_run htask exchangeFails
  have hbound := (h.charged.tasks reserver (List.mem_of_getElem? htask)).2
  have hheard := (h.heard task _ _ hstage).progress hbound hprogress (by
    intro hempty hfails
    rw [hempty] at hstage
    rw [hfails] at hprompt
    exact hprompt hstage)
  obtain ⟨hcharged, hpositive⟩ := h.move_charged (.run task exchangeFails)
  have hmoved : (s.move (.run task exchangeFails)).stageOf task = some (next, .created) :=
    stageOf_eq_some.mpr ⟨_, hnext, rfl, hfuture⟩
  have haligned : s.futures.length = (s.watermarks.step (.run task exchangeFails)).tasks.length :=
    h.aligned.trans (s.watermarks.length_run task exchangeFails).symm
  have hothers : ∀ other, other ≠ task →
      (s.watermarks.step (.run task exchangeFails)).tasks[other]? = s.watermarks.tasks[other]? :=
    fun other hother => s.watermarks.run_other hother.symm exchangeFails
  unfold settle
  rw [hmoved]
  split
  · -- the reservation is made, and the future was not waited on
    rename_i hreserved
    obtain ⟨rfl, -⟩ := Prod.mk.inj (Option.some.inj hreserved)
    refine h.acts task hcharged hpositive ?_ (fun other hother => ⟨?_, ?_⟩) ?_
    · exact List.length_set.trans haligned
    · exact stageOf_congr (hothers other hother) (List.getElem?_set_ne hother.symm)
    · exact spares_call hlaws (.forget task) hother.symm rfl
        fun hbusy => hbusy.step h.charged _
    · intro stage future hself
      obtain ⟨settled, hsettled, rfl, hgone⟩ := stageOf_eq_some.mp hself
      obtain rfl := Option.some.inj (hnext.symm.trans hsettled)
      exact future_of_set hgone
  · rename_i hgoes
    have hnext : s.Heard listening notified task next .created := by
      rcases hheard with rfl | hheard
      · exact (hgoes rfl).elim
      · exact hheard
    refine h.acts task hcharged hpositive haligned (fun other hother => ⟨?_, ?_⟩) ?_
    · exact stageOf_congr (hothers other hother) rfl
    · exact h.spares_move _ other
    · intro stage future hself
      rw [hmoved] at hself
      obtain ⟨rfl, rfl⟩ := Prod.mk.inj (Option.some.inj hself)
      exact hnext.spared (h.spares_move _ task)

/-- A reserver looks whether it was notified. -/
theorem Watched.poll {task : Nat} {future : ReserveFuture}
    (hstage : s.stageOf task = some (.waiting, future)) :
    (match notifier.poll s.changed task with
      | (true, changed) =>
        { (s.move (.notified task)).toFuture task .absent with changed := changed }
      | (false, changed) => { s.toFuture task .parked with changed := changed } :
        PrefetchWakeups σ).Watched listening notified := by
  obtain ⟨reserver, htask, hwaiting, hfuture⟩ := stageOf_eq_some.mp hstage
  obtain ⟨-, hlistening, hdue⟩ := h.heard task _ _ hstage
  have hchanged : (notifier.poll s.changed task).2 = notifier.apply s.changed (.poll task) := rfl
  have hready := hlaws.ready s.changed task
  have hpending := hlaws.pending s.changed task hlistening
  split
  · rename_i changed hpoll
    rw [hpoll] at hchanged
    exact h.leaves hlaws (.poll task) (s.watermarks.step_notified htask hwaiting) (.inl rfl) hchanged
      fun _ huses => huses.symm
  · rename_i changed hpoll
    rw [hpoll] at hchanged hready hpending
    refine h.acts task h.charged h.positive ?_ (fun other hother => ⟨?_, ?_⟩) ?_
    · exact List.length_set.trans h.aligned
    · exact stageOf_congr rfl (List.getElem?_set_ne hother.symm)
    · exact spares_call hlaws (.poll task) hother.symm hchanged id
    · intro stage future' hself
      obtain ⟨reserver', htask', rfl, hparked⟩ := stageOf_eq_some.mp hself
      obtain rfl := Option.some.inj (htask.symm.trans htask')
      obtain rfl := future_of_set hparked
      rw [hwaiting]
      refine ⟨nofun, hpending rfl, .inr ?_⟩
      -- a reserver that was notified would have found it
      exact hdue.resolve_left fun hnotified => nomatch hready hnotified

/-- The notification at the end of a drop. -/
theorem Watched.notify {release remaining : Nat}
    (hremaining : s.notifying[release]? = some remaining) :
    Watched listening notified { s with
      changed := s.notified notifier remaining
      notifying := s.notifying.eraseIdx release } := by
  obtain ⟨call, hcall, hchanged⟩ : ∃ call, (call = .notifyOne ∨ call = .notifyWaiters) ∧
      s.notified notifier remaining = notifier.apply s.changed call := by
    unfold PrefetchWakeups.notified
    split
    · exact ⟨.notifyWaiters, .inr rfl, rfl⟩
    · exact ⟨.notifyOne, .inl rfl, rfl⟩
  have huses : ∀ task, ¬ call.Uses task := by
    rcases hcall with rfl | rfl <;> exact fun _ => id
  refine h.spared h.charged h.positive h.aligned fun task => ⟨rfl, ?_, ?_⟩
  · intro hlistening
    show listening (s.notified notifier remaining) task
    rw [hchanged]
    exact hlaws.listening_frame _ _ call hlistening (huses task)
  · rintro hlistening (hnotified | hbusy)
    · left
      show notified (s.notified notifier remaining) task
      rw [hchanged]
      exact hlaws.notified_frame _ _ call hnotified (huses task)
    · by_cases hlow : remaining ≤ s.watermarks.lowBytes
      · -- the drop that took the queue to the low watermark notifies all
        left
        show notified (s.notified notifier remaining) task
        unfold PrefetchWakeups.notified
        rw [if_pos hlow]
        exact hlaws.broadcast _ _ hlistening
      · refine .inr (hbusy.imp_right (Or.imp_right ?_))
        rintro ⟨other, hother, hle⟩
        obtain ⟨at', hat⟩ := List.getElem?_of_mem hother
        refine ⟨other, List.mem_eraseIdx_iff_getElem?.mpr ⟨at', ?_, hat⟩, hle⟩
        rintro rfl
        obtain rfl := Option.some.inj (hremaining.symm.trans hat)
        exact hlow hle

/-- **The step lemma.** After a prompt event every reserver that waits still has a notification to
come. -/
theorem Watched.step (event : WakeupEvent) (hprompt : s.Prompt notified event) :
    (s.step notifier event).Watched listening notified := by
  have hmove : ∀ move, (s.watermarks.step move).tasks = s.watermarks.tasks →
      (s.move move).Watched listening notified := by
    intro move hsame
    obtain ⟨hcharged, hpositive⟩ := h.move_charged move
    refine h.spared hcharged hpositive (h.aligned.trans (congrArg _ hsame.symm)) fun task => ?_
    exact ⟨stageOf_congr (congrArg (·[task]?) hsame) rfl, h.spares_move move task⟩
  cases event with
  | reserve encodedBytes => exact h.call rfl
  | reserveDurableSegment encodedBytes => exact h.call rfl
  | run task exchangeFails => exact h.run hlaws task exchangeFails hprompt
  | clone index | drop index | release index => exact hmove _ (s.watermarks.tasks_kept rfl)
  | listen task =>
    unfold PrefetchWakeups.step
    dsimp only
    split
    · rename_i hstage
      obtain ⟨reserver, htask, hloading, hfuture⟩ := stageOf_eq_some.mp hstage
      refine h.acts task h.charged h.positive ?_ (fun other hother => ⟨?_, ?_⟩) ?_
      · exact List.length_set.trans h.aligned
      · exact stageOf_congr rfl (List.getElem?_set_ne hother.symm)
      · exact spares_call hlaws (.listen task) hother.symm rfl id
      · intro stage future hself
        obtain ⟨reserver', htask', rfl, hcreated⟩ := stageOf_eq_some.mp hself
        obtain rfl := Option.some.inj (htask.symm.trans htask')
        obtain rfl := future_of_set hcreated
        rw [hloading]
        exact .inr ⟨rfl, hlaws.listen _ _⟩
    · exact h
  | poll task =>
    unfold PrefetchWakeups.step
    dsimp only
    split
    · exact h.poll hlaws ‹_›
    · exact h.poll hlaws ‹_›
    · exact h
  | cancel task =>
    have hcancel : ∀ {future}, s.stageOf task = some (.waiting, future) →
        Watched listening notified { (s.move (.cancel task)).toFuture task .absent with
          changed := notifier.forget s.changed task } := by
      intro future hstage
      obtain ⟨reserver, htask, hwaiting, -⟩ := stageOf_eq_some.mp hstage
      exact h.leaves hlaws (.forget task) (s.watermarks.step_cancel htask hwaiting)
        (.inr rfl) rfl fun _ huses => huses.symm
    unfold PrefetchWakeups.step
    dsimp only
    split
    · exact hcancel ‹_›
    · exact hcancel ‹_›
    · exact h
  | notify release =>
    unfold PrefetchWakeups.step
    dsimp only
    split
    · exact h.notify hlaws ‹_›
    · exact h

end Steps

/-- A parked reserver that nothing will wake: its future is not ready, nothing is reserved or in
the queue, and no drop that is to notify all is on its way. -/
structure Stranded (notifier : Notifier σ) (s : PrefetchWakeups σ) (task : Nat) : Prop where
  parked : s.stageOf task = some (.waiting, .parked)
  pending : (notifier.poll s.changed task).1 = false
  unreserved : ∀ reservation ∈ s.watermarks.reservations, ¬ reservation.Live
  empty : s.watermarks.queuedBytes = 0
  stopped : ∀ reservation ∈ s.watermarks.reservations, ∀ remaining ∈ reservation.remaining,
    s.watermarks.lowBytes < remaining
  notifying : ∀ remaining ∈ s.notifying, s.watermarks.lowBytes < remaining

theorem Watched.not_stranded (hlaws : notifier.Broadcasts listening notified)
    (h : s.Watched listening notified) (task : Nat) : ¬ s.Stranded notifier task := by
  intro hstranded
  obtain ⟨-, -, hdue⟩ := h.heard task _ _ hstranded.parked
  rcases hdue with hnotified | hqueued | ⟨reservation, hreservation, remaining, hremaining, hle⟩ |
    ⟨remaining, hremaining, hle⟩
  · have hready := hlaws.ready _ _ hnotified
    rw [hstranded.pending] at hready
    cases hready
  · exact hqueued hstranded.empty
  · exact absurd hle (Nat.not_le_of_lt (hstranded.stopped _ hreservation _ hremaining))
  · exact absurd hle (Nat.not_le_of_lt (hstranded.notifying _ hremaining))

theorem watched_new (notifier : Notifier σ) {highBytes lowBytes : Nat}
    (hhigh : highBytes ≤ u64Max) :
    (new notifier highBytes lowBytes).Watched listening notified where
  charged :=
    { fits := max_le hhigh (by decide)
      queued := Nat.zero_le _
      tasks := List.forall_mem_nil _
      reservations := List.forall_mem_nil _
      clones := List.forall_mem_nil _ }
  positive := Nat.lt_of_lt_of_le Nat.one_pos (Nat.le_max_right _ _)
  aligned := rfl
  heard := nofun

end PrefetchWakeups

open PrefetchWakeups in
/-- **No reserver is left behind**, however tasks reserve, share and drop, as long as no weak
exchange fails on an empty queue that it expects to be empty, unless its task is due a
notification. -/
theorem prefetch_never_stranded {σ : Type} (notifier : Notifier σ)
    (listening notified : σ → Nat → Prop) (hlaws : notifier.Broadcasts listening notified)
    (highBytes lowBytes : Nat) (hhigh : highBytes ≤ u64Max) (events : List WakeupEvent)
    (hprompt : Runs.EachStep (PrefetchWakeups.step notifier) (Prompt notified)
      (new notifier highBytes lowBytes) events) :
    Runs.Throughout (PrefetchWakeups.step notifier) (fun s => ∀ task, ¬ s.Stranded notifier task)
      (new notifier highBytes lowBytes) events := by
  have hwatched := Runs.run_invariant (P := Watched listening notified)
    (fun s event h hprompt => h.step hlaws event hprompt) (watched_new notifier hhigh) hprompt
  exact fun done hdone => (hwatched done hdone).not_stranded hlaws

/-- A producer is let in, a second one finds no room and parks, and the first one's batch is
dropped. -/
def wokenReserver : List WakeupEvent :=
  [.reserve 80, .listen 0, .run 0 false, .run 0 false, .run 0 false, .run 0 false, .reserve 50,
    .listen 1, .run 1 false, .run 1 false, .run 1 false, .run 1 false, .run 1 false, .poll 1,
    .drop 0, .release 0, .release 0, .notify 0]

theorem prefetch_never_stranded_woken :
    (Runs.run (PrefetchWakeups.step notify) (PrefetchWakeups.new notify 100 40)
      (wokenReserver.take 16)).stageOf 1 = some (.waiting, .parked) ∧
    ∀ task, ¬ (Runs.run (PrefetchWakeups.step notify) (PrefetchWakeups.new notify 100 40)
      wokenReserver).Stranded notify task :=
  ⟨by decide, (prefetch_never_stranded notify Notify.Listening Notify.Notified notify_broadcasts 100
    40 (by decide) wokenReserver (by simp [wokenReserver, PrefetchWakeups.Prompt])).last⟩

/-- The only reserver of an empty queue, whose exchange fails for no reason. -/
def strandedReserver : PrefetchWakeups Notify :=
  Runs.run (PrefetchWakeups.step notify) (PrefetchWakeups.new notify 100 40)
    [.reserve 8, .listen 0, .run 0 false, .run 0 false, .run 0 false, .run 0 true, .run 0 false,
      .poll 0]

/-- **A reserver nobody wakes.** It takes the failed exchange for a full queue, and parks. -/
theorem prefetch_strands :
    strandedReserver.Stranded notify 0 ∧ strandedReserver.watermarks.reservations = [] ∧
      strandedReserver.notifying = [] := by
  have hreservations : strandedReserver.watermarks.reservations = [] := by decide
  have hnotifying : strandedReserver.notifying = [] := by decide
  refine ⟨⟨by decide, by decide, ?_, by decide, ?_, ?_⟩, hreservations, hnotifying⟩
  · rw [hreservations]
    exact List.forall_mem_nil _
  · rw [hreservations]
    exact List.forall_mem_nil _
  · rw [hnotifying]
    exact List.forall_mem_nil _

end StashiWallet
