import Mathlib.Algebra.Order.Ring.Int
import StashiWallet.SegmentController

/-!
# What a history of segments does to their size

The index of the size is valid in every state, and a segment moves it by one at most. The
directions that are asked for pass a gate, so that between two changes there are the directions of
the cooldown and then the confirming ones, the change itself being made at the last of these.
-/

namespace StashiWallet

open Hysteresis Runs

/-! ## The sizes -/

theorem mem_zipIdx_buckets {blocks index : Nat} :
    (blocks, index) ∈ DURABLE_SEGMENT_BLOCK_BUCKETS.zipIdx ↔
      DURABLE_SEGMENT_BLOCK_BUCKETS[index]? = some blocks :=
  List.mk_mem_zipIdx_iff_getElem?

/-- The sizes ascend. -/
theorem buckets_lt {i j a b : Nat} (hi : DURABLE_SEGMENT_BLOCK_BUCKETS[i]? = some a)
    (hj : DURABLE_SEGMENT_BLOCK_BUCKETS[j]? = some b) (hij : i < j) : a < b := by
  have hascending : DURABLE_SEGMENT_BLOCK_BUCKETS.Pairwise (· < ·) := by decide
  obtain ⟨hilt, rfl⟩ := List.getElem?_eq_some_iff.mp hi
  obtain ⟨hjlt, rfl⟩ := List.getElem?_eq_some_iff.mp hj
  exact List.pairwise_iff_getElem.mp hascending i j hilt hjlt hij

theorem nearestDurableBucket_cases (ideal byteSafeBlocks : Nat) :
    nearestDurableBucket ideal byteSafeBlocks = 0 ∨ ∃ blocks,
      DURABLE_SEGMENT_BLOCK_BUCKETS[nearestDurableBucket ideal byteSafeBlocks]? = some blocks ∧
      blocks ≤ byteSafeBlocks ∧ ∀ index other : Nat,
        DURABLE_SEGMENT_BLOCK_BUCKETS[index]? = some other → other ≤ byteSafeBlocks →
          absDiff blocks ideal ≤ absDiff other ideal := by
  unfold nearestDurableBucket
  cases hmin : (DURABLE_SEGMENT_BLOCK_BUCKETS.zipIdx.filter
      fun entry => entry.1 ≤ byteSafeBlocks).argmin fun entry => absDiff entry.1 ideal with
  | none => exact .inl rfl
  | some entry =>
    obtain ⟨blocks, index⟩ := entry
    have hmem := List.mem_filter.mp (List.argmin_mem hmin)
    refine .inr ⟨blocks, mem_zipIdx_buckets.mp hmem.1, of_decide_eq_true hmem.2, ?_⟩
    intro other size hsize hsafe
    have hother : (size, other) ∈ DURABLE_SEGMENT_BLOCK_BUCKETS.zipIdx.filter
        fun entry => entry.1 ≤ byteSafeBlocks :=
      List.mem_filter.mpr ⟨mem_zipIdx_buckets.mpr hsize, decide_eq_true hsafe⟩
    exact List.le_of_mem_argmin hother hmin

theorem nearestDurableBucket_lt (ideal byteSafeBlocks : Nat) :
    nearestDurableBucket ideal byteSafeBlocks < DURABLE_SEGMENT_BLOCK_BUCKETS.length := by
  obtain hzero | ⟨blocks, hblocks, -⟩ := nearestDurableBucket_cases ideal byteSafeBlocks
  · rw [hzero]
    decide
  · exact (List.getElem?_eq_some_iff.mp hblocks).1

/-- The size nearest to a number is none of those above a size that reaches the number. -/
theorem nearestDurableBucket_le {ideal byteSafeBlocks index blocks : Nat}
    (hindex : DURABLE_SEGMENT_BLOCK_BUCKETS[index]? = some blocks) (hideal : ideal ≤ blocks) :
    nearestDurableBucket ideal byteSafeBlocks ≤ index := by
  obtain hzero | ⟨nearest, hnearest, hsafe, hleast⟩ :=
    nearestDurableBucket_cases ideal byteSafeBlocks
  · omega
  · by_contra habove
    have hlt := buckets_lt hindex hnearest (by omega)
    have hle := hleast index blocks hindex (by omega)
    unfold absDiff at hle
    omega

namespace AdaptiveDurableSegmentController

variable {controller : AdaptiveDurableSegmentController} {currentTarget : Nat}
  {observation : DurableSegmentObservation}

/-- The index is that of a size. -/
def Valid (controller : AdaptiveDurableSegmentController) : Prop :=
  controller.currentIndex < DURABLE_SEGMENT_BLOCK_BUCKETS.length

/-- The index is that of a size, and no three confirmations wait. -/
structure Sound (controller : AdaptiveDurableSegmentController) : Prop where
  valid : controller.Valid
  few : controller.confirmations < DURABLE_SEGMENT_CONFIRMATIONS

/-- The gate that the directions pass. -/
def gate (controller : AdaptiveDurableSegmentController) : Gate Int :=
  ⟨controller.pendingDirection, controller.confirmations, controller.cooldown⟩

/-- The direction that the segment asks for, if it is not ignored. -/
def asks (controller : AdaptiveDurableSegmentController)
    (observation : DurableSegmentObservation) : Option Int :=
  controller.targetBlocks.bind fun currentTarget =>
    if controller.ignores currentTarget observation then none
    else some ((controller.measure observation).direction currentTarget observation)

/-- The controller after the segment. -/
def after (controller : AdaptiveDurableSegmentController)
    (observation : DurableSegmentObservation) : AdaptiveDurableSegmentController :=
  ((controller.observe observation).map (·.1)).getD controller

/-- The directions that the segments of a history ask for, those that are ignored left out. -/
def directions (controller : AdaptiveDurableSegmentController) :
    List DurableSegmentObservation → List Int
  | [] => []
  | observation :: rest =>
    (controller.asks observation).toList ++ (controller.after observation).directions rest

/-! ## One segment -/

theorem Valid.targetBlocks (h : controller.Valid) :
    ∃ blocks, controller.targetBlocks = some blocks :=
  ⟨_, List.getElem?_eq_getElem h⟩

/-- What a direction says about the index: there is a size to move to. -/
theorem direction_spec :
    (controller.direction currentTarget observation = -1 ∧ 0 < controller.currentIndex) ∨
      controller.direction currentTarget observation = 0 ∨
      (controller.direction currentTarget observation = 1 ∧
        controller.currentIndex + 1 < DURABLE_SEGMENT_BLOCK_BUCKETS.length) := by
  have hlt := nearestDurableBucket_lt (controller.ideal currentTarget observation)
    (controller.byteSafeBlocks observation)
  unfold direction
  dsimp only
  split
  · exact .inl ⟨rfl, by omega⟩
  split
  · exact .inr (.inl rfl)
  · exact .inr (.inr ⟨rfl, by omega⟩)

/-- A full queue asks for no larger size. -/
theorem direction_of_highPressure (htarget : controller.targetBlocks = some currentTarget)
    (hpressure : observation.highPressure) :
    controller.direction currentTarget observation ≠ 1 := by
  have hideal : controller.ideal currentTarget observation ≤ currentTarget := by
    unfold ideal
    dsimp only
    rw [if_pos hpressure]
    omega
  have hle : nearestDurableBucket (controller.ideal currentTarget observation)
      (controller.byteSafeBlocks observation) ≤ controller.currentIndex :=
    nearestDurableBucket_le htarget hideal
  unfold direction
  dsimp only
  split
  · decide
  split
  · decide
  · omega

/-- What following a direction does: the gate sees it, and moves the index if it lets it pass. -/
theorem follow_spec (hsound : controller.Sound) {direction : Int}
    (hdirection : (direction = -1 ∧ 0 < controller.currentIndex) ∨ direction = 0 ∨
      (direction = 1 ∧ controller.currentIndex + 1 < DURABLE_SEGMENT_BLOCK_BUCKETS.length)) :
    ∃ next target, controller.follow currentTarget direction = some (next, target) ∧ next.Sound ∧
      next.gate = (controller.gate.observe DURABLE_SEGMENT_CONFIRMATIONS DURABLE_SEGMENT_COOLDOWN
        direction).1 ∧
      (next.currentIndex : Int) = controller.currentIndex +
        if (controller.gate.observe DURABLE_SEGMENT_CONFIRMATIONS DURABLE_SEGMENT_COOLDOWN
          direction).2 then direction else 0 := by
  obtain ⟨hvalid, hfew⟩ := hsound
  have hthree : DURABLE_SEGMENT_CONFIRMATIONS = 3 := rfl
  unfold follow Gate.observe gate
  by_cases hzero : direction = 0
  · rw [if_pos hzero, if_pos hzero]
    exact ⟨_, _, rfl, ⟨hvalid, Nat.succ_pos 2⟩, rfl, by simp⟩
  rw [if_neg hzero, if_neg hzero]
  by_cases hwait : 0 < controller.cooldown
  · rw [if_pos hwait, if_pos hwait]
    exact ⟨_, _, rfl, ⟨hvalid, hfew⟩, rfl, by simp⟩
  rw [if_neg hwait, if_neg hwait]
  have hcooldown : controller.cooldown = 0 := by omega
  -- three confirmations are far from what the counter saturates at
  have hasked : (if controller.pendingDirection = direction then
        min (controller.confirmations + 1) 255 else 1) =
      Gate.asked ⟨controller.pendingDirection, controller.confirmations, controller.cooldown⟩
        direction := by
    unfold Gate.asked
    rw [hthree] at hfew
    by_cases hsame : controller.pendingDirection = direction
    · rw [if_pos hsame, if_pos hsame, Nat.min_eq_left (by omega)]
    · rw [if_neg hsame, if_neg hsame]
  dsimp only
  rw [hasked]
  generalize Gate.asked ⟨controller.pendingDirection, controller.confirmations,
    controller.cooldown⟩ direction = asked
  by_cases hconfirmed : asked < DURABLE_SEGMENT_CONFIRMATIONS
  · rw [if_pos hconfirmed, if_pos hconfirmed]
    exact ⟨_, _, rfl, ⟨hvalid, hconfirmed⟩, by rw [hcooldown], by simp⟩
  · rw [if_neg hconfirmed, if_neg hconfirmed]
    have hlength : DURABLE_SEGMENT_BLOCK_BUCKETS.length = 8 := rfl
    unfold Valid at hvalid
    rw [hlength] at hdirection hvalid
    have hindex : ((if direction < 0 then controller.currentIndex - 1
        else min (controller.currentIndex + 1) (DURABLE_SEGMENT_BLOCK_BUCKETS.length - 1) : Nat) :
          Int) = controller.currentIndex + direction := by
      rw [hlength]
      obtain ⟨rfl, hbelow⟩ | hnone | ⟨rfl, habove⟩ := hdirection
      · rw [if_pos (by decide)]
        omega
      · exact absurd hnone hzero
      · rw [if_neg (by decide)]
        omega
    generalize (if direction < 0 then controller.currentIndex - 1
      else min (controller.currentIndex + 1) (DURABLE_SEGMENT_BLOCK_BUCKETS.length - 1)) =
        index at hindex ⊢
    have hlt : index < DURABLE_SEGMENT_BLOCK_BUCKETS.length := by
      rw [hlength]
      omega
    have htarget : ({ controller with
        currentIndex := index
        pendingDirection := 0
        confirmations := 0
        cooldown := DURABLE_SEGMENT_COOLDOWN } : AdaptiveDurableSegmentController).targetBlocks =
          some DURABLE_SEGMENT_BLOCK_BUCKETS[index] := List.getElem?_eq_getElem hlt
    rw [htarget]
    refine ⟨_, _, rfl, ⟨hlt, Nat.succ_pos 2⟩, rfl, ?_⟩
    rw [if_pos rfl]
    exact hindex

/-- An ignored segment changes nothing, and another asks for a direction that the gate sees. -/
theorem observe_spec (hsound : controller.Sound) :
    (∃ target, controller.observe observation = some (controller.after observation, target)) ∧
      (controller.after observation).Sound ∧
      ((controller.asks observation = none ∧ controller.after observation = controller) ∨
        ∃ direction, controller.asks observation = some direction ∧
          (direction = -1 ∨ direction = 0 ∨ direction = 1) ∧
          (observation.highPressure → direction ≠ 1) ∧
          (controller.after observation).gate = (controller.gate.observe
            DURABLE_SEGMENT_CONFIRMATIONS DURABLE_SEGMENT_COOLDOWN direction).1 ∧
          ((controller.after observation).currentIndex : Int) = controller.currentIndex +
            if (controller.gate.observe DURABLE_SEGMENT_CONFIRMATIONS DURABLE_SEGMENT_COOLDOWN
              direction).2 then direction else 0) := by
  obtain ⟨currentTarget, htarget⟩ := hsound.valid.targetBlocks
  unfold after asks observe
  rw [htarget]
  dsimp only [Option.bind_some]
  by_cases hignored : controller.ignores currentTarget observation
  · rw [if_pos hignored, if_pos hignored]
    exact ⟨⟨currentTarget, rfl⟩, hsound, .inl ⟨rfl, rfl⟩⟩
  · rw [if_neg hignored, if_neg hignored]
    have hmeasured : (controller.measure observation).Sound := ⟨hsound.valid, hsound.few⟩
    have hdirection := @direction_spec (controller.measure observation) currentTarget observation
    obtain ⟨next, target, hfollow, hnext, hgate, hindex⟩ :=
      @follow_spec (controller.measure observation) currentTarget hmeasured _ hdirection
    rw [hfollow]
    refine ⟨⟨target, rfl⟩, hnext, .inr ⟨_, rfl, ?_, ?_, hgate, hindex⟩⟩
    · obtain ⟨h, -⟩ | h | ⟨h, -⟩ := hdirection
      · exact .inl h
      · exact .inr (.inl h)
      · exact .inr (.inr h)
    · exact direction_of_highPressure htarget

/-! ## A history of segments -/

/-- The segment changes the size. -/
def Changes (controller : AdaptiveDurableSegmentController)
    (observation : DurableSegmentObservation) : Prop :=
  (controller.after observation).currentIndex ≠ controller.currentIndex

theorem directions_append (before rest : List DurableSegmentObservation) :
    controller.directions (before ++ rest) =
      controller.directions before ++ (run after controller before).directions rest := by
  induction before generalizing controller with
  | nil => rfl
  | cons observation before ih =>
    rw [List.cons_append, directions, directions, ih, List.append_assoc, run_cons]

theorem directions_single :
    controller.directions [observation] = (controller.asks observation).toList :=
  List.append_nil _

theorem Sound.reached (h : controller.Sound) (history : List DurableSegmentObservation) :
    (run after controller history).Sound := by
  have hstep : ∀ (reached : AdaptiveDurableSegmentController) observation,
      reached.Sound → (reached.after observation).Sound :=
    fun _ _ hreached => (observe_spec hreached).2.1
  exact (run_invariant_always hstep h history).last

/-- A change is one that the gate lets pass. -/
theorem Sound.passes (h : controller.Sound) (hchanges : controller.Changes observation) :
    ∃ direction, controller.asks observation = some direction ∧
      (controller.gate.observe DURABLE_SEGMENT_CONFIRMATIONS DURABLE_SEGMENT_COOLDOWN
        direction).2 = true ∧
      ((controller.after observation).currentIndex : Int) = controller.currentIndex + direction ∧
      (controller.after observation).gate = Gate.settled DURABLE_SEGMENT_COOLDOWN := by
  obtain ⟨-, -, ⟨-, hsame⟩ | ⟨direction, hasks, -, -, hgate, hindex⟩⟩ :=
    @observe_spec controller observation h
  · exact absurd (congrArg currentIndex hsame) hchanges
  · cases hpasses : (controller.gate.observe DURABLE_SEGMENT_CONFIRMATIONS
        DURABLE_SEGMENT_COOLDOWN direction).2 with
    | false =>
      rw [hpasses, if_neg Bool.false_ne_true, Int.add_zero] at hindex
      exact absurd (Int.ofNat_inj.mp hindex) hchanges
    | true =>
      rw [hpasses, if_pos rfl] at hindex
      exact ⟨direction, hasks, hpasses, hindex, hgate.trans (Gate.observe_of_passes hpasses)⟩

/-- What the gate saw since a change is the end of the directions since then. -/
theorem Sound.saw (h : controller.Sound)
    (hsettled : controller.gate = Gate.settled DURABLE_SEGMENT_COOLDOWN)
    (history : List DurableSegmentObservation) :
    ∃ earlier seen, controller.directions history = earlier ++ seen ∧
      Gate.Saw DURABLE_SEGMENT_COOLDOWN (run after controller history).gate seen := by
  induction history using List.reverseRecOn with
  | nil => exact ⟨[], [], rfl, hsettled ▸ Gate.saw_settled _⟩
  | append_singleton history observation ih =>
    obtain ⟨earlier, seen, hseen, hsaw⟩ := ih
    rw [directions_append, directions_single, run_append, run_cons, run_nil, hseen]
    obtain ⟨-, -, ⟨hasks, hsame⟩ | ⟨direction, hasks, -, -, hgate, -⟩⟩ :=
      @observe_spec _ observation (h.reached history)
    · rw [hasks, hsame]
      exact ⟨earlier, seen, List.append_nil _, hsaw⟩
    · rw [hasks, hgate, Option.toList_some]
      cases hpasses : ((run after controller history).gate.observe DURABLE_SEGMENT_CONFIRMATIONS
          DURABLE_SEGMENT_COOLDOWN direction).2 with
      | false => exact ⟨earlier, seen ++ [direction], List.append_assoc _ _ _, hsaw.observe hpasses⟩
      | true =>
        rw [Gate.observe_of_passes hpasses]
        exact ⟨earlier ++ seen ++ [direction], [], (List.append_nil _).symm, Gate.saw_settled _⟩

/-- What is asked of one more segment after a history. -/
structure Steady (start : AdaptiveDurableSegmentController)
    (history : List DurableSegmentObservation) (observation : DurableSegmentObservation) :
    Prop where
  valid : (run after start history).Valid
  answers : ∃ target, (run after start history).observe observation =
    some (run after start (history ++ [observation]), target)
  atMostOne : (run after start (history ++ [observation])).currentIndex ≤
      (run after start history).currentIndex + 1 ∧
    (run after start history).currentIndex ≤
      (run after start (history ++ [observation])).currentIndex + 1
  pressure : observation.highPressure →
    (run after start (history ++ [observation])).currentIndex ≤
      (run after start history).currentIndex
  /-- Since an earlier change there are the segments of the cooldown that were not ignored and after
  them, one after the other, those that ask for the change. -/
  confirmed : (run after start history).Changes observation → ∃ direction : Int,
    ((run after start (history ++ [observation])).currentIndex : Int) =
        (run after start history).currentIndex + direction ∧
      ∀ before change between, history = before ++ change :: between →
        (run after start before).Changes change →
          Gate.Confirmed DURABLE_SEGMENT_CONFIRMATIONS DURABLE_SEGMENT_COOLDOWN direction
            ((run after start (before ++ [change])).directions (between ++ [observation]))

end AdaptiveDurableSegmentController

open AdaptiveDurableSegmentController in
/-- **The size of the segments is steady**, whatever the history: it moves by one bucket at most,
not up under pressure, and only after a cooldown and confirmations in a row. -/
theorem segment_size_steady (maxSegmentBytes : Nat) :
    ∃ start, AdaptiveDurableSegmentController.new maxSegmentBytes = some start ∧
      ∀ history observation, start.Steady history observation := by
  refine ⟨⟨2, max maxSegmentBytes 1, 0, 0, 0, 0, 0⟩, rfl, fun history observation => ?_⟩
  generalize hstart : (⟨2, max maxSegmentBytes 1, 0, 0, 0, 0, 0⟩ :
    AdaptiveDurableSegmentController) = start
  have hsound : start.Sound := by
    rw [← hstart]
    exact ⟨(by decide : 2 < 8), (by decide : 0 < 3)⟩
  have hnow := hsound.reached history
  have hlast : run after start (history ++ [observation]) =
      (run after start history).after observation := run_append _ _ _ _
  obtain ⟨hanswers, -, hcases⟩ := @observe_spec _ observation hnow
  refine ⟨hnow.valid, by rwa [hlast], ?_, ?_, ?_⟩
  · rw [hlast]
    obtain ⟨-, hsame⟩ | ⟨direction, -, hunit, -, -, hindex⟩ := hcases
    · rw [hsame]
      omega
    · split at hindex
      · omega
      · omega
  · intro hpressure
    rw [hlast]
    obtain ⟨-, hsame⟩ | ⟨direction, -, hunit, hless, -, hindex⟩ := hcases
    · rw [hsame]
    · have hne := hless hpressure
      split at hindex
      · omega
      · omega
  · intro hchanges
    obtain ⟨direction, hasks, hpasses, hindex, -⟩ := hnow.passes hchanges
    refine ⟨direction, by rw [hlast, hindex], fun before change between hsplit hchange => ?_⟩
    have hchanged : run after start (before ++ [change]) =
        (run after start before).after change := run_append _ _ _ _
    obtain ⟨-, -, -, -, hsettled⟩ := (hsound.reached before).passes hchange
    have hhistory : run after start history =
        run after (run after start (before ++ [change])) between := by
      rw [hsplit, ← run_append, List.append_assoc]
      rfl
    -- the gate was settled by the change, so that it saw the segments since then only
    obtain ⟨earlier, seen, hseen, hsaw⟩ :=
      (hsound.reached (before ++ [change])).saw (hchanged ▸ hsettled) between
    rw [← hhistory] at hsaw
    rw [directions_append, directions_single, ← hhistory, hasks, hseen, Option.toList_some,
      List.append_assoc]
    obtain ⟨hzero, waited, hwaited, hconfirmed⟩ := hsaw.confirmed hpasses
    refine ⟨hzero, earlier ++ waited, ?_, ?_⟩
    · rw [List.length_append]
      omega
    · rw [hconfirmed, List.append_assoc]

end StashiWallet
