import Mathlib.Algebra.GroupWithZero.Nat
import Mathlib.Algebra.BigOperators.Group.List.Basic
import StashiWallet.Sql
import StashiWallet.Runs

/-!
# Admission to the prefetch queue

Downloaded blocks wait for the scanner in a queue that is bounded in bytes. A producer adds its
charge to `queued_bytes` by compare-and-swap and holds a reservation for it; reservations are
shared by cloning, and the drop of the last clone subtracts the charge again. An event of
`PrefetchEvent` is one atomic operation of one task.
-/

namespace StashiWallet

/-- Where `reserve_charged` is: the next atomic operation of its loop, or its result. -/
inductive ReserveStage where
  | loading
  | loaded (queued : Nat)
  | unthrottling (queued : Nat)
  | exchanging (queued : Nat)
  | throttling
  | waiting
  | reserved
  | cancelled
deriving DecidableEq, Repr

/-- A task inside `reserve_charged`. -/
structure ReserveTask where
  chargedBytes : Nat
  stage : ReserveStage
deriving DecidableEq, Repr

/-- Where a `PrefetchReservationInner` is: shared, before the `fetch_sub` of its drop, before the
notification, or gone. -/
inductive ReservationStage where
  | held
  | dropping
  | notifying (remaining : Nat)
  | dropped
deriving DecidableEq, Repr

/-- `PrefetchReservationInner`, with the number of its clones. -/
structure PrefetchReservation where
  chargedBytes : Nat
  clones : Nat
  stage : ReservationStage
deriving DecidableEq, Repr

/-- `PrefetchWatermarks`, the tasks that reserve and the reservations made. -/
structure PrefetchWatermarks where
  highBytes : Nat
  lowBytes : Nat
  queuedBytes : Nat
  throttled : Bool
  tasks : List ReserveTask
  reservations : List PrefetchReservation
deriving DecidableEq, Repr

/-- What tasks do. A weak exchange may fail although the value is the expected one. -/
inductive PrefetchEvent where
  | reserve (encodedBytes : Nat)
  | reserveDurableSegment (encodedBytes : Nat)
  | run (task : Nat) (exchangeFails : Bool)
  | notified (task : Nat)
  | cancel (task : Nat)
  | clone (reservation : Nat)
  | drop (reservation : Nat)
  | release (reservation : Nat)
deriving DecidableEq, Repr

namespace PrefetchWatermarks

def new (highBytes lowBytes : Nat) : PrefetchWatermarks where
  highBytes := max highBytes 1
  lowBytes := min lowBytes (max highBytes 1 - 1)
  queuedBytes := 0
  throttled := false
  tasks := []
  reservations := []

variable (s : PrefetchWatermarks)

def segmentAdmissionBytes : Nat := max (s.highBytes - s.lowBytes) 1

def reserveCharged (chargedBytes : Nat) : PrefetchWatermarks :=
  { s with tasks := s.tasks ++ [⟨chargedBytes, .loading⟩] }

/-- A task has come to the given stage. -/
def toStage (index : Nat) (stage : ReserveStage) : PrefetchWatermarks :=
  { s with tasks := s.tasks.modify index fun task => { task with stage := stage } }

/-- The next operation of `reserve_charged`. -/
def runReserve (index : Nat) (task : ReserveTask) (exchangeFails : Bool) : PrefetchWatermarks :=
  match task.stage with
  | .loading => s.toStage index (.loaded s.queuedBytes)
  | .loaded queued =>
    if s.throttled && decide (s.lowBytes < queued) then s.toStage index .waiting
    else s.toStage index (.unthrottling queued)
  | .unthrottling queued =>
    { s.toStage index (.exchanging queued) with
      throttled := if queued ≤ s.lowBytes then false else s.throttled }
  | .exchanging queued =>
    if saturatingAdd queued task.chargedBytes ≤ s.highBytes ∧ exchangeFails = false ∧
        s.queuedBytes = queued then
      { s.toStage index .reserved with
        queuedBytes := saturatingAdd queued task.chargedBytes
        reservations := s.reservations ++ [⟨task.chargedBytes, 1, .held⟩] }
    else s.toStage index .throttling
  | .throttling => { s.toStage index .waiting with throttled := true }
  | .waiting => s
  | .reserved => s
  | .cancelled => s

/-- A reservation has become another. -/
def toReservation (index : Nat) (reservation : PrefetchReservation) : PrefetchWatermarks :=
  { s with reservations := s.reservations.set index reservation }

/-- The next operation of `Drop` of a reservation. -/
def runDrop (index : Nat) (reservation : PrefetchReservation) : PrefetchWatermarks :=
  match reservation.stage with
  | .held => s
  | .dropping =>
    { s.toReservation index
        { reservation with
          stage := .notifying (s.queuedBytes - reservation.chargedBytes) } with
      queuedBytes :=
        (s.queuedBytes + 18446744073709551616 - reservation.chargedBytes) %
          18446744073709551616 }
  | .notifying remaining =>
    { s.toReservation index { reservation with stage := .dropped } with
      throttled := if remaining ≤ s.lowBytes then false else s.throttled }
  | .dropped => s

/-- One event. What cannot happen does nothing. -/
def step (s : PrefetchWatermarks) : PrefetchEvent → PrefetchWatermarks
  | .reserve encodedBytes => s.reserveCharged (min (max encodedBytes 1) s.highBytes)
  | .reserveDurableSegment encodedBytes =>
    s.reserveCharged (min (max encodedBytes 1) s.segmentAdmissionBytes)
  | .run index exchangeFails =>
    match s.tasks[index]? with
    | some task => s.runReserve index task exchangeFails
    | none => s
  | .notified index =>
    match s.tasks[index]? with
    | some task => if task.stage = .waiting then s.toStage index .loading else s
    | none => s
  | .cancel index =>
    match s.tasks[index]? with
    | some task => if task.stage = .waiting then s.toStage index .cancelled else s
    | none => s
  | .clone index =>
    match s.reservations[index]? with
    | some reservation =>
      if reservation.clones = 0 then s
      else s.toReservation index { reservation with clones := reservation.clones + 1 }
    | none => s
  | .drop index =>
    match s.reservations[index]? with
    | some reservation =>
      if reservation.clones = 0 then s
      else
        s.toReservation index { reservation with
          clones := reservation.clones - 1
          stage := if reservation.clones = 1 then .dropping else reservation.stage }
    | none => s
  | .release index =>
    match s.reservations[index]? with
    | some reservation => s.runDrop index reservation
    | none => s

end PrefetchWatermarks

/-- The reservation's charge is in the queue: it has clones, or its last clone is being dropped
and has not subtracted yet. -/
def PrefetchReservation.Live (reservation : PrefetchReservation) : Prop :=
  reservation.stage = .held ∨ reservation.stage = .dropping

instance (reservation : PrefetchReservation) : Decidable reservation.Live :=
  inferInstanceAs (Decidable (_ ∨ _))

/-- The charges of the live reservations, each counted once. -/
def liveBytes (reservations : List PrefetchReservation) : Nat :=
  ((reservations.filter fun reservation => decide reservation.Live).map (·.chargedBytes)).sum

namespace PrefetchWatermarks

/-- What holds between any two events. -/
structure Accounted (s : PrefetchWatermarks) : Prop where
  total : s.queuedBytes = liveBytes s.reservations
  bound : s.queuedBytes ≤ s.highBytes
  fits : s.highBytes < u64Max
  clones : ∀ reservation ∈ s.reservations, reservation.stage = .held ↔ 0 < reservation.clones

variable {s : PrefetchWatermarks}

theorem accounted_new (highBytes lowBytes : Nat) (hhigh : highBytes < u64Max) :
    (new highBytes lowBytes).Accounted := by
  refine ⟨rfl, Nat.zero_le _, ?_, List.forall_mem_nil _⟩
  show max highBytes 1 < u64Max
  exact max_lt hhigh (by decide)

theorem liveBytes_append (first second : List PrefetchReservation) :
    liveBytes (first ++ second) = liveBytes first + liveBytes second := by
  unfold liveBytes
  rw [List.filter_append, List.map_append, List.sum_append]

variable {reservation : PrefetchReservation} {index : Nat}

/-- The charge of a reservation that is replaced leaves the sum, and the new one's enters it. -/
theorem liveBytes_set {reservations : List PrefetchReservation}
    (h : reservations[index]? = some reservation) (after : PrefetchReservation) :
    liveBytes (reservations.set index after) + liveBytes [reservation] =
      liveBytes reservations + liveBytes [after] := by
  obtain ⟨hindex, rfl⟩ := List.getElem?_eq_some_iff.mp h
  have hsplit : reservations =
      reservations.take index ++ ([reservations[index]] ++ reservations.drop (index + 1)) := by
    simp
  have hset : reservations.set index after =
      reservations.take index ++ ([after] ++ reservations.drop (index + 1)) := by
    rw [List.set_eq_take_append_cons_drop, if_pos hindex]
    rfl
  have hbefore := congrArg liveBytes hsplit
  rw [liveBytes_append, liveBytes_append] at hbefore
  rw [hset, liveBytes_append, liveBytes_append]
  omega

theorem liveBytes_of_live (h : reservation.Live) :
    liveBytes [reservation] = reservation.chargedBytes := by
  unfold liveBytes
  simp [h]

theorem liveBytes_of_not_live (h : ¬ reservation.Live) : liveBytes [reservation] = 0 := by
  unfold liveBytes
  simp [h]

variable (h : s.Accounted)

include h

/-- A task's own progress is not in the accounts. -/
theorem Accounted.toStage (index : Nat) (stage : ReserveStage) :
    (s.toStage index stage).Accounted := ⟨h.total, h.bound, h.fits, h.clones⟩

/-- The flag of a throttled queue is not in the accounts either. -/
theorem Accounted.throttle (throttled : Bool) :
    ({ s with throttled := throttled } : PrefetchWatermarks).Accounted :=
  ⟨h.total, h.bound, h.fits, h.clones⟩

/-- The exchange adds its charge to the value it was compared with. -/
theorem Accounted.exchange (index : Nat) {chargedBytes : Nat}
    (hroom : saturatingAdd s.queuedBytes chargedBytes ≤ s.highBytes) :
    ({ s.toStage index .reserved with
      queuedBytes := saturatingAdd s.queuedBytes chargedBytes
      reservations := s.reservations ++ [⟨chargedBytes, 1, .held⟩] } :
        PrefetchWatermarks).Accounted := by
  constructor
  · show saturatingAdd s.queuedBytes chargedBytes =
      liveBytes (s.reservations ++ [⟨chargedBytes, 1, .held⟩])
    have hfits := h.fits
    rw [liveBytes_append, liveBytes_of_live (Or.inl rfl), ← h.total]
    -- below `u64::MAX` the saturating sum is the sum
    unfold saturatingAdd at *
    dsimp only
    omega
  · exact hroom
  · exact h.fits
  · intro reservation hreservation
    rcases List.mem_append.mp hreservation with hold | hnew
    · exact h.clones reservation hold
    · rw [List.mem_singleton.mp hnew]
      exact iff_of_true rfl Nat.one_pos

/-- The next operation of a task in `reserve_charged`. -/
theorem Accounted.runReserve (index : Nat) (task : ReserveTask) (exchangeFails : Bool) :
    (s.runReserve index task exchangeFails).Accounted := by
  unfold PrefetchWatermarks.runReserve
  cases task.stage with
  | loading => exact h.toStage index _
  | loaded queued =>
    dsimp only
    split <;> exact h.toStage index _
  | unthrottling queued => exact (h.toStage index _).throttle _
  | exchanging queued =>
    dsimp only
    split
    · rename_i hexchange
      obtain ⟨hroom, -, rfl⟩ := hexchange
      exact h.exchange index hroom
    · exact h.toStage index _
  | throttling => exact (h.toStage index _).throttle _
  | waiting => exact h
  | reserved => exact h
  | cancelled => exact h

/-- A reservation that counts what it counted before. -/
theorem Accounted.toReservation {reservation after : PrefetchReservation}
    (hreservation : s.reservations[index]? = some reservation)
    (hcharge : after.chargedBytes = reservation.chargedBytes)
    (hlive : after.Live ↔ reservation.Live) (hclones : after.stage = .held ↔ 0 < after.clones) :
    (s.toReservation index after).Accounted := by
  refine ⟨?_, h.bound, h.fits, ?_⟩
  · show s.queuedBytes = liveBytes (s.reservations.set index after)
    have hset := liveBytes_set hreservation after
    have hsame : liveBytes [after] = liveBytes [reservation] := by
      by_cases hnow : reservation.Live
      · rw [liveBytes_of_live hnow, liveBytes_of_live (hlive.mpr hnow), hcharge]
      · rw [liveBytes_of_not_live hnow, liveBytes_of_not_live (fun hafter => hnow (hlive.mp hafter))]
    rw [h.total]
    omega
  · intro other hother
    rcases List.mem_or_eq_of_mem_set hother with hold | rfl
    · exact h.clones other hold
    · exact hclones

/-- `fetch_sub` takes the charge of a live reservation out of the queue. -/
theorem Accounted.subtract (hreservation : s.reservations[index]? = some reservation)
    (hstage : reservation.stage = .dropping) :
    ({ s.toReservation index
        { reservation with
          stage := .notifying (s.queuedBytes - reservation.chargedBytes) } with
      queuedBytes :=
        (s.queuedBytes + 18446744073709551616 - reservation.chargedBytes) %
          18446744073709551616 } : PrefetchWatermarks).Accounted := by
  have hset := liveBytes_set hreservation
    { reservation with stage := .notifying (s.queuedBytes - reservation.chargedBytes) }
  rw [liveBytes_of_live (Or.inr hstage), liveBytes_of_not_live (by simp [PrefetchReservation.Live]),
    ← h.total] at hset
  have hbound := h.bound
  have hfits := h.fits
  have hsub : (s.queuedBytes + 18446744073709551616 - reservation.chargedBytes) %
      18446744073709551616 = s.queuedBytes - reservation.chargedBytes := by
    unfold u64Max at hfits
    omega
  rw [hsub]
  refine ⟨?_, ?_, h.fits, ?_⟩
  · show s.queuedBytes - reservation.chargedBytes = liveBytes (s.reservations.set index _)
    omega
  · exact (Nat.sub_le _ _).trans hbound
  · intro other hother
    rcases List.mem_or_eq_of_mem_set hother with hold | rfl
    · exact h.clones other hold
    · have hnone := h.clones reservation (List.mem_of_getElem? hreservation)
      rw [hstage] at hnone
      refine iff_of_false (fun hheld => nomatch hheld) (fun hpos => ?_)
      exact nomatch hnone.mpr hpos

/-- The next operation of the drop of a reservation. -/
theorem Accounted.runDrop (hreservation : s.reservations[index]? = some reservation) :
    (s.runDrop index reservation).Accounted := by
  have hclones := h.clones reservation (List.mem_of_getElem? hreservation)
  unfold PrefetchWatermarks.runDrop
  cases hstage : reservation.stage with
  | held => exact h
  | dropping => exact h.subtract hreservation hstage
  | notifying remaining =>
    have hdropped : (s.toReservation index { reservation with stage := .dropped }).Accounted := by
      refine h.toReservation hreservation rfl ?_ ?_
      · simp [PrefetchReservation.Live, hstage]
      · rw [hstage] at hclones
        refine iff_of_false (fun hheld => nomatch hheld) (fun hpos => ?_)
        exact nomatch hclones.mpr hpos
    exact hdropped.throttle _
  | dropped => exact h

omit h

theorem highBytes_step (s : PrefetchWatermarks) (event : PrefetchEvent) :
    (s.step event).highBytes = s.highBytes := by
  unfold PrefetchWatermarks.step PrefetchWatermarks.runReserve PrefetchWatermarks.runDrop
  cases event <;> dsimp only <;> repeat' split
  all_goals rfl

/-- **The step lemma.** Whatever is reserved, cloned or dropped, the queued bytes are those of the
live reservations and stay within the high watermark. -/
theorem Accounted.step (h : s.Accounted) (event : PrefetchEvent) : (s.step event).Accounted := by
  unfold PrefetchWatermarks.step
  cases event with
  | reserve encodedBytes => exact ⟨h.total, h.bound, h.fits, h.clones⟩
  | reserveDurableSegment encodedBytes => exact ⟨h.total, h.bound, h.fits, h.clones⟩
  | run index exchangeFails =>
    dsimp only
    split
    · exact h.runReserve index _ exchangeFails
    · exact h
  | notified index =>
    dsimp only
    split
    · split
      · exact h.toStage index _
      · exact h
    · exact h
  | cancel index =>
    dsimp only
    split
    · split
      · exact h.toStage index _
      · exact h
    · exact h
  | clone index =>
    dsimp only
    split
    · rename_i reservation hreservation
      split
      · exact h
      · rename_i hshared
        have hheld := (h.clones reservation (List.mem_of_getElem? hreservation)).mpr
          (Nat.pos_of_ne_zero hshared)
        exact h.toReservation hreservation rfl Iff.rfl (iff_of_true hheld (Nat.succ_pos _))
    · exact h
  | drop index =>
    dsimp only
    split
    · rename_i reservation hreservation
      split
      · exact h
      · rename_i hshared
        have hheld := (h.clones reservation (List.mem_of_getElem? hreservation)).mpr
          (Nat.pos_of_ne_zero hshared)
        refine h.toReservation hreservation rfl ?_ ?_
        · refine iff_of_true ?_ (Or.inl hheld)
          by_cases hlast : reservation.clones = 1
          · exact Or.inr (if_pos hlast)
          · exact Or.inl ((if_neg hlast).trans hheld)
        · by_cases hlast : reservation.clones = 1
          · refine iff_of_false ?_ ?_
            · show (if reservation.clones = 1 then ReservationStage.dropping
                else reservation.stage) ≠ .held
              rw [if_pos hlast]
              exact (fun hstage => nomatch hstage)
            · show ¬ 0 < reservation.clones - 1
              omega
          · refine iff_of_true ((if_neg hlast).trans hheld) ?_
            show 0 < reservation.clones - 1
            omega
    · exact h
  | release index =>
    dsimp only
    split
    · rename_i reservation hreservation
      exact h.runDrop hreservation
    · exact h

end PrefetchWatermarks

/-- **The accounts of the queue.** With a high watermark below `u64::MAX`, however tasks reserve,
clone and drop: `queued_bytes` is the sum of the charges of the live reservations and at most the
high watermark, a reservation is live while it has clones, and without clones only until the drop
of the last one has subtracted its charge. -/
theorem prefetch_accounts (highBytes lowBytes : Nat) (hhigh : highBytes < u64Max)
    (events : List PrefetchEvent) :
    Runs.Throughout PrefetchWatermarks.step (fun s =>
      s.queuedBytes = liveBytes s.reservations ∧
      s.queuedBytes ≤ max highBytes 1 ∧
      (∀ reservation ∈ s.reservations, 0 < reservation.clones → reservation.Live) ∧
      (∀ reservation ∈ s.reservations, reservation.clones = 0 → reservation.Live →
        reservation.stage = .dropping))
      (PrefetchWatermarks.new highBytes lowBytes) events := by
  intro done hdone
  have h := Runs.run_invariant_always (P := fun s => PrefetchWatermarks.Accounted s ∧
      s.highBytes = max highBytes 1)
    (fun s event h => ⟨h.1.step event, (s.highBytes_step event).trans h.2⟩)
    ⟨PrefetchWatermarks.accounted_new highBytes lowBytes hhigh, rfl⟩ events done hdone
  obtain ⟨h, hsame⟩ := h
  refine ⟨h.total, hsame ▸ h.bound, ?_, ?_⟩
  · exact fun reservation hreservation hpos => Or.inl ((h.clones reservation hreservation).mpr hpos)
  · rintro reservation hreservation hnone (hheld | hdropping)
    · exact absurd ((h.clones reservation hreservation).mp hheld) (by omega)
    · exact hdropping

/-- One producer is let in and shares its reservation, a second finds no room, and the two clones
are dropped one after the other. -/
def sharedReservation : List PrefetchEvent :=
  [.reserve 80, .run 0 false, .run 0 false, .run 0 true, .run 0 false, .clone 0, .reserve 50,
    .run 1 false, .run 1 false, .run 1 false, .run 1 false, .run 1 false, .drop 0, .drop 0,
    .release 0]

theorem prefetch_accounts_shared :
    (Runs.run PrefetchWatermarks.step (PrefetchWatermarks.new 100 40)
      (sharedReservation.take 13)).queuedBytes = 80 ∧
    (Runs.run PrefetchWatermarks.step (PrefetchWatermarks.new 100 40)
      sharedReservation).queuedBytes =
        liveBytes (Runs.run PrefetchWatermarks.step (PrefetchWatermarks.new 100 40)
          sharedReservation).reservations :=
  ⟨by decide, (prefetch_accounts 100 40 (by decide) sharedReservation _ List.prefix_rfl).1⟩

/-- Two charges of `u64::MAX` under a high watermark of `u64::MAX`. -/
def doubledCharge : PrefetchWatermarks :=
  Runs.run PrefetchWatermarks.step (PrefetchWatermarks.new u64Max 40)
    [.reserve u64Max, .run 0 false, .run 0 false, .run 0 false, .run 0 false,
      .reserve u64Max, .run 1 false, .run 1 false, .run 1 false, .run 1 false]

/-- **A charge that is not added.** Their saturating sum is within the watermark. -/
theorem prefetch_saturates :
    doubledCharge.queuedBytes = u64Max ∧ liveBytes doubledCharge.reservations = 2 * u64Max := by
  decide

end StashiWallet
