import StashiWallet.ScanBatcher

/-!
# What a history of batches does to their size

The size stays within the bounds, and a size that is being tried has one to compare it with. The
damping of the network's sizes saturates: from five quarters of a size only 2^62 are left when five
times the size does not fit in a word. A lower bound above that is then above the upper limit of the
step, which is where the controller panics.
-/

namespace StashiWallet

open Runs

theorem clamp_of_le {value lower upper : Nat} (h : lower ≤ upper) :
    ∃ next, clamp value lower upper = some next ∧ lower ≤ next ∧ next ≤ upper := by
  refine ⟨_, if_pos h, ?_⟩
  omega

theorem clamp_eq_none_iff {value lower upper : Nat} :
    clamp value lower upper = none ↔ upper < lower := by
  unfold clamp
  split
  · simp
    omega
  · simp
    omega

/-! ## Sizes to try -/

section Targets

variable {current minBlocks maxBlocks : Nat}

theorem scanTargetTowards_spec (h : minBlocks ≤ maxBlocks) (direction : Int) :
    ∃ next, scanTargetTowards current minBlocks maxBlocks direction = some next ∧
      minBlocks ≤ next ∧ next ≤ maxBlocks := by
  unfold scanTargetTowards shrinkScanTarget growScanTarget
  split
  · exact clamp_of_le h
  · exact clamp_of_le h

/-- A size to try is within the bounds. -/
theorem probeScanTarget_spec (hlower : minBlocks ≤ current) (hupper : current ≤ maxBlocks)
    (preferredDirection : Int) :
    ∃ next direction, probeScanTarget current minBlocks maxBlocks preferredDirection =
      some (next, direction) ∧ minBlocks ≤ next ∧ next ≤ maxBlocks := by
  have hbounds : minBlocks ≤ maxBlocks := by omega
  unfold probeScanTarget
  dsimp only
  generalize (if preferredDirection < 0 then -1 else 1 : Int) = preferred
  obtain ⟨first, hfirst, hfirstBounds⟩ :=
    @scanTargetTowards_spec current minBlocks maxBlocks hbounds preferred
  obtain ⟨second, hsecond, hsecondBounds⟩ :=
    @scanTargetTowards_spec current minBlocks maxBlocks hbounds (-preferred)
  rw [hfirst, hsecond]
  by_cases hsame : first = current
  · by_cases hagain : second = current
    · exact ⟨current, 0, by simp [hsame, hagain], hlower, hupper⟩
    · exact ⟨second, -preferred, by simp [hsame, hagain], hsecondBounds⟩
  · exact ⟨first, preferred, by simp [hsame], hfirstBounds⟩

end Targets

/-! ## Batches from the cache -/

namespace CachedScanThroughputController

variable {cached : CachedScanThroughputController} {currentBlocks minBlocks maxBlocks : Nat}

/-- A size that is being tried has one to compare it with. -/
def HasBaseline (cached : CachedScanThroughputController) : Prop :=
  cached.probeDirection ≠ 0 → cached.baseline.isSome = true

/-- A step that does not panic answers within the bounds and keeps a baseline for what it tries. -/
def Answers (minBlocks maxBlocks : Nat)
    (answer : Option (CachedScanThroughputController × Nat × ScanBatchDecision)) : Prop :=
  ∃ cached next decision, answer = some (cached, next, decision) ∧ cached.HasBaseline ∧
    minBlocks ≤ next ∧ next ≤ maxBlocks

variable (hlower : minBlocks ≤ currentBlocks) (hupper : currentBlocks ≤ maxBlocks)

include hlower hupper

theorem judge_answers (hbaseline : cached.baseline.isSome = true) (point : CachedOperatingPoint) :
    Answers minBlocks maxBlocks (cached.judge currentBlocks minBlocks maxBlocks point) := by
  obtain ⟨baseline, hsome⟩ := Option.isSome_iff_exists.mp hbaseline
  unfold judge
  rw [hsome, Option.bind_eq_bind, Option.bind_some]
  by_cases hbetter : candidateBetter point baseline = true
  · rw [if_pos hbetter]
    obtain ⟨next, direction, hprobe, hnext⟩ :=
      probeScanTarget_spec hlower hupper cached.probeDirection
    rw [hprobe]
    by_cases hzero : direction = 0
    · subst hzero
      exact ⟨_, _, _, rfl, fun h => absurd rfl h, hlower, hupper⟩
    · refine ⟨{ cached with baseline := some point, probeDirection := direction }, next,
        probeDecision direction, by simp [hzero], fun _ => rfl, hnext⟩
  · rw [if_neg hbetter]
    obtain ⟨next, hclamp, hnext⟩ := @clamp_of_le baseline.targetBlocks minBlocks maxBlocks
      (by omega)
    rw [hclamp]
    exact ⟨_, _, _, rfl, fun h => absurd rfl h, hnext⟩

theorem probe_answers (point : CachedOperatingPoint) :
    Answers minBlocks maxBlocks (cached.probe currentBlocks minBlocks maxBlocks point) := by
  unfold probe
  dsimp only
  obtain ⟨next, direction, hprobe, hnext⟩ := probeScanTarget_spec hlower hupper
    (if cached.nextProbeDirection ≠ 0 then cached.nextProbeDirection
      else if currentBlocks < maxBlocks then 1 else -1)
  rw [hprobe, Option.bind_eq_bind, Option.bind_some]
  by_cases hzero : direction = 0
  · rw [if_pos hzero]
    exact ⟨_, _, _, rfl, fun _ => rfl, hlower, hupper⟩
  · rw [if_neg hzero]
    exact ⟨_, _, _, rfl, fun _ => rfl, hnext⟩

/-- A batch from the cache, whatever its measurements. -/
theorem observe_answers (hbaseline : cached.HasBaseline) (observation : ScanBatchObservation) :
    Answers minBlocks maxBlocks
      (cached.observe currentBlocks minBlocks maxBlocks observation) := by
  unfold observe
  by_cases htail : observation.blocks = 0 ∨ observation.streamTail = true
  · rw [if_pos htail]
    exact ⟨_, _, _, rfl, hbaseline, hlower, hupper⟩
  rw [if_neg htail]
  by_cases hstale : isStale currentBlocks observation = true
  · rw [if_pos hstale]
    exact ⟨_, _, _, rfl, hbaseline, hlower, hupper⟩
  rw [if_neg hstale]
  dsimp only
  split
  · exact ⟨_, _, _, rfl, hbaseline, hlower, hupper⟩
  split
  · exact ⟨_, _, _, rfl, fun _ => rfl, hlower, hupper⟩
  split
  · rename_i hprobing
    refine judge_answers hlower hupper ?_ _
    exact hbaseline hprobing
  · exact probe_answers hlower hupper _

end CachedScanThroughputController

/-! ## Batches from both sources -/

namespace AdaptiveScanBatcher

variable {batcher : AdaptiveScanBatcher} {minBlocks maxBlocks : Nat}
  {observation : ScanBatchObservation}

/-- The size is within the bounds, and a size that is being tried has one to compare it with. -/
structure InBounds (minBlocks maxBlocks : Nat) (batcher : AdaptiveScanBatcher) : Prop where
  ofMin : batcher.minBlocks = minBlocks
  ofMax : batcher.maxBlocks = maxBlocks
  lower : minBlocks ≤ batcher.currentBlocks
  upper : batcher.currentBlocks ≤ maxBlocks
  baseline : batcher.cached.HasBaseline

/-- The batch is from the network and counts, and two that count came before it, with none from the
cache since. -/
def Damps (batcher : AdaptiveScanBatcher) (observation : ScanBatchObservation) : Prop :=
  observation.source = .network ∧ ¬ (observation.blocks = 0 ∨ observation.streamTail = true) ∧
    2 ≤ (batcher.enter .network).networkSamples

theorem InBounds.enter (h : batcher.InBounds minBlocks maxBlocks) (source : ScanBatchSource) :
    (batcher.enter source).InBounds minBlocks maxBlocks := by
  unfold AdaptiveScanBatcher.enter
  split
  · exact h
  · exact ⟨h.ofMin, h.ofMax, h.lower, h.upper, fun hprobing => absurd rfl hprobing⟩

/-- The bounds of the damping are in order unless the lower limit is above what they saturate at. -/
theorem damping_ordered_iff {current : Nat} (hlower : minBlocks ≤ current)
    (hupper : current ≤ maxBlocks) :
    max (divCeil (saturatingMul current 3) 4) minBlocks ≤
        min (divCeil (saturatingMul current 5) 4) maxBlocks ↔ minBlocks ≤ 2 ^ 62 := by
  have hmax : u64Max = 18446744073709551615 := rfl
  unfold divCeil saturatingMul
  rw [hmax]
  by_cases hfits : current * 5 ≤ 18446744073709551615
  · rw [Nat.min_eq_left hfits, Nat.min_eq_left (by omega : current * 3 ≤ 18446744073709551615)]
    omega
  · rw [Nat.min_eq_right (by omega : 18446744073709551615 ≤ current * 5)]
    omega

/-- Damping keeps the bounds, and panics exactly when its own are not in order. -/
theorem damp_spec (h : batcher.InBounds minBlocks maxBlocks) (ideal : Nat) :
    (∃ next target, batcher.damp ideal = some (next, target) ∧
      next.InBounds minBlocks maxBlocks) ↔ minBlocks ≤ 2 ^ 62 := by
  have hordered := damping_ordered_iff h.lower h.upper
  unfold damp
  rw [h.ofMin, h.ofMax, Option.bind_eq_bind]
  dsimp only
  generalize max (divCeil (saturatingMul batcher.currentBlocks 3) 4) minBlocks = lower at hordered ⊢
  generalize min (divCeil (saturatingMul batcher.currentBlocks 5) 4) maxBlocks = upper at hordered ⊢
  rw [← hordered]
  constructor
  · rintro ⟨next, target, hdamp, -⟩
    by_contra hnot
    rw [clamp_eq_none_iff.mpr (by omega), Option.bind_none] at hdamp
    cases hdamp
  · intro hle
    have hbounds : minBlocks ≤ maxBlocks := h.lower.trans h.upper
    obtain ⟨next, hnext, -⟩ := @clamp_of_le ideal lower upper hle
    obtain ⟨target, htarget, hlower, hupper⟩ :=
      @clamp_of_le (quantizeScanTarget next minBlocks maxBlocks) minBlocks maxBlocks hbounds
    rw [hnext, Option.bind_some, htarget]
    exact ⟨_, _, rfl, rfl, rfl, hlower, hupper, h.baseline⟩

/-- One batch keeps the bounds, unless it damps with a lower limit that is too large. -/
theorem observe_spec (h : batcher.InBounds minBlocks maxBlocks) :
    (∃ next target, batcher.observe observation = some (next, target) ∧
      next.InBounds minBlocks maxBlocks) ↔
        (batcher.Damps observation → minBlocks ≤ 2 ^ 62) := by
  have hentered := h.enter observation.source
  unfold observe Damps
  cases hsource : observation.source with
  | cache =>
    rw [hsource] at hentered
    dsimp only
    obtain ⟨cached, next, decision, hanswer, hbaseline, hlower, hupper⟩ :=
      CachedScanThroughputController.observe_answers hentered.lower hentered.upper
        hentered.baseline observation
    rw [hentered.ofMin, hentered.ofMax, hanswer]
    constructor
    · rintro - ⟨hnetwork, -⟩
      cases hnetwork
    · rintro -
      exact ⟨_, _, rfl, rfl, rfl, hlower, hupper, hbaseline⟩
  | network =>
    rw [hsource] at hentered
    dsimp only
    generalize batcher.enter .network = entered at hentered ⊢
    by_cases htail : observation.blocks = 0 ∨ observation.streamTail = true
    · rw [if_pos htail]
      constructor
      · rintro - ⟨-, hcounts, -⟩
        exact absurd htail hcounts
      · rintro -
        exact ⟨_, _, rfl, hentered.ofMin, hentered.ofMax, hentered.lower, hentered.upper,
          hentered.baseline⟩
    rw [if_neg htail]
    by_cases hfirst : min (entered.networkSamples + 1) 4294967295 < 3
    · rw [if_pos hfirst]
      constructor
      · rintro - ⟨-, -, htwo⟩
        omega
      · rintro -
        exact ⟨_, _, rfl, hentered.ofMin, hentered.ofMax, hentered.lower, hentered.upper,
          hentered.baseline⟩
    · rw [if_neg hfirst]
      have hcounted : ({ entered with
          networkEwmaNanosPerBlock := some (entered.networkEwma observation)
          networkSamples := min (entered.networkSamples + 1) 4294967295
          lastDecision := .networkLatency } : AdaptiveScanBatcher).InBounds minBlocks maxBlocks :=
        ⟨hentered.ofMin, hentered.ofMax, hentered.lower, hentered.upper, hentered.baseline⟩
      rw [damp_spec hcounted]
      constructor
      · exact fun hle _ => hle
      · exact fun hle => hle ⟨rfl, htail, by omega⟩

/-- One batch after a run that may have panicked. -/
def next (state : Option AdaptiveScanBatcher) (observation : ScanBatchObservation) :
    Option AdaptiveScanBatcher :=
  state.bind fun batcher => (batcher.observe observation).map (·.1)

/-- The controller did not panic, its size is within the bounds, and a size that is being tried has
one to compare it with. -/
def Bounded (minBlocks maxBlocks : Nat) (state : Option AdaptiveScanBatcher) : Prop :=
  ∃ batcher, state = some batcher ∧ batcher.InBounds minBlocks maxBlocks

theorem next_bounded_iff {state : Option AdaptiveScanBatcher}
    (h : Bounded minBlocks maxBlocks state) (observation : ScanBatchObservation) :
    Bounded minBlocks maxBlocks (next state observation) ↔
      ∀ batcher, state = some batcher → batcher.Damps observation → minBlocks ≤ 2 ^ 62 := by
  obtain ⟨batcher, rfl, hbounds⟩ := h
  have hspec := @observe_spec batcher minBlocks maxBlocks observation hbounds
  constructor
  · rintro ⟨after, hafter, hkept⟩ other hother
    cases hother
    obtain ⟨answer, hanswer, rfl⟩ := Option.map_eq_some_iff.mp hafter
    exact hspec.mp ⟨answer.1, answer.2, hanswer, hkept⟩
  · intro hdamps
    obtain ⟨after, target, hanswer, hkept⟩ := hspec.mpr (hdamps batcher rfl)
    refine ⟨after, ?_, hkept⟩
    unfold next
    rw [Option.bind_some, hanswer]
    rfl

theorem withParallelism_bounded (initialBlocks minBlocks maxBlocks networkTargetTime maxBatchBytes
    parallelWorkers : Nat) :
    Bounded (min (max minBlocks 1) (max maxBlocks 1)) (max maxBlocks 1)
      (withParallelism initialBlocks minBlocks maxBlocks networkTargetTime maxBatchBytes
        parallelWorkers) := by
  obtain ⟨current, hcurrent, hlower, hupper⟩ := @clamp_of_le initialBlocks
    (min (max minBlocks 1) (max maxBlocks 1)) (max maxBlocks 1) (Nat.min_le_right _ _)
  unfold withParallelism
  dsimp only
  rw [hcurrent]
  exact ⟨_, rfl, rfl, rfl, hlower, hupper, fun hprobing => absurd rfl hprobing⟩

end AdaptiveScanBatcher

open AdaptiveScanBatcher in
/-- The controller keeps its bounds throughout a history exactly when no batch damps a size whose
lower limit is above 2^62. -/
theorem scan_target_bounded_iff (initialBlocks minBlocks maxBlocks networkTargetTime maxBatchBytes
    parallelWorkers : Nat) (observations : List ScanBatchObservation) :
    Throughout next (Bounded (min (max minBlocks 1) (max maxBlocks 1)) (max maxBlocks 1))
        (withParallelism initialBlocks minBlocks maxBlocks networkTargetTime maxBatchBytes
          parallelWorkers) observations ↔
      EachStep next (fun state observation => ∀ batcher, state = some batcher →
          batcher.Damps observation → min (max minBlocks 1) (max maxBlocks 1) ≤ 2 ^ 62)
        (withParallelism initialBlocks minBlocks maxBlocks networkTargetTime maxBatchBytes
          parallelWorkers) observations := by
  rw [throughout_iff_eachStep fun state observation _ hstate => next_bounded_iff hstate observation]
  exact and_iff_right (withParallelism_bounded _ _ _ _ _ _)

/-- A batch of one block from the network. -/
def oneNetworkBlock : ScanBatchObservation where
  requestedBlocks := 1
  requestedBytes := 1
  blocks := 1
  encodedBytes := 1
  processingTime := 1000000
  intakeWait := 0
  queuedBytes := 0
  source := .network
  treeParallelWall := 0
  treeParallelWorkerActive := 0
  streamTail := false

open AdaptiveScanBatcher in
/-- With the largest limits, the third batch from the network panics. -/
theorem scan_target_panics :
    ¬ Throughout next (Bounded (min (max u64Max 1) (max u64Max 1)) (max u64Max 1))
      (withParallelism u64Max u64Max u64Max 250000000 256000000 4)
      [oneNetworkBlock, oneNetworkBlock, oneNetworkBlock] := by
  intro h
  obtain ⟨batcher, hsome, -⟩ := h.last
  have hpanics : run next (withParallelism u64Max u64Max u64Max 250000000 256000000 4)
      [oneNetworkBlock, oneNetworkBlock, oneNetworkBlock] = none := by decide
  rw [hpanics] at hsome
  cases hsome

end StashiWallet
